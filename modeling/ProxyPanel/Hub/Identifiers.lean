import ProxyPanel.Hub.Access
import ProxyPanel.Hub.Clients

/-!
# The identifiers of clients

A core knows a client by the identifier `clientToProtocolEntry` injects, its email
or else its UUID, and reports its traffic under that identifier.  `resolveClientIds`
turns reported identifiers into clients: what parses as a UUID is that UUID, the
rest goes by email.  `identifiers_round_trip_iff` says when the two agree on every
client.  Nothing makes emails unique, and nothing keeps an email from being the
UUID of somebody else (`shared_email_not_round_trip`).
-/

namespace ProxyPanel.Hub

open Json

/-- The identifier in the injected entry of a client: `email` for the VLESS
protocols, `name` for the password protocols. -/
def injectedIdentifier (client : Client) (protocolType : String) : Option String :=
  (clientToProtocolEntry client protocolType).getStrAny ["email", "name"]

/-- The protocols whose entries carry an identifier. -/
def CarriesIdentifier (protocolType : String) : Prop :=
  Text.startsWith protocolType "vless" = true ∨ protocolType = "hysteria2" ∨ protocolType = "anytls"

/-- Every report that mentions the identifier of the client is billed to the client,
and no report that mentions the identifier of another client is. -/
structure RoundTrip (db : Db) (protocolType : String) (client : Client) : Prop where
  resolves : ∀ raw, injectedIdentifier client protocolType = some raw → ∀ raws, raw ∈ raws →
    resolve (resolveClientIds db raws) raw = some client.id
  noOther : ∀ other ∈ db.clients.rows, other.id ≠ client.id →
    ∀ raw, injectedIdentifier other protocolType = some raw → ∀ raws, raw ∈ raws →
      resolve (resolveClientIds db raws) raw ≠ some client.id

/-- The email of the client, if it has one, is a spelling of its own UUID, or it is
no UUID and no other client has it. -/
def Resolvable (db : Db) (client : Client) : Prop :=
  ∀ email, client.email = some email →
    Uuid.parse email = some client.id ∨
      Uuid.parse email = none ∧ ∀ other ∈ db.clients.rows, other.email = some email →
        other.id = client.id

/-! ### What is injected -/

theorem injectedIdentifier_vless {protocolType : String}
    (h : Text.startsWith protocolType "vless" = true) (client : Client) :
    injectedIdentifier client protocolType = some (clientName client) := by
  have hentry : ∀ flow : String, (mkObj [("id", str client.id.toStr),
      ("email", str (clientName client)), ("flow", str flow)]).getStrAny ["email", "name"] =
      some (clientName client) := by
    intro flow
    rw [getStrAny, List.findSome?_cons, getStr, get_mkObj]
    rfl
  rw [injectedIdentifier, clientToProtocolEntry, if_pos h]
  dsimp only
  split
  · split
    · exact (getStrAny_set_of_not_mem _ (by decide) _).trans (hentry _)
    · exact hentry _
  · exact hentry _

theorem injectedIdentifier_password {protocolType : String}
    (hvless : ¬ Text.startsWith protocolType "vless" = true)
    (h : protocolType = "hysteria2" ∨ protocolType = "anytls") (client : Client) :
    injectedIdentifier client protocolType = some (clientName client) := by
  rw [injectedIdentifier, clientToProtocolEntry, if_neg hvless, if_pos h]
  have hemail : (mkObj [("name", str (clientName client)),
      ("password", str client.id.toStr)]).getStr "email" = none := by
    rw [getStr, get_mkObj]
    rfl
  have hname : (mkObj [("name", str (clientName client)),
      ("password", str client.id.toStr)]).getStr "name" = some (clientName client) := by
    rw [getStr, get_mkObj]
    rfl
  change getStrAny (mkObj [("name", str (clientName client)),
      ("password", str client.id.toStr)]) ["email", "name"] = _
  rw [getStrAny, List.findSome?_cons, hemail]
  dsimp only
  rw [List.findSome?_cons, hname]

theorem injectedIdentifier_other {protocolType : String} (h : ¬ CarriesIdentifier protocolType)
    (client : Client) : injectedIdentifier client protocolType = none := by
  obtain ⟨hvless, hpassword⟩ := not_or.mp h
  rw [injectedIdentifier, clientToProtocolEntry, if_neg hvless, if_neg hpassword]
  rfl

theorem injectedIdentifier_eq_some {client : Client} {protocolType : String} {raw : String} :
    injectedIdentifier client protocolType = some raw ↔
      CarriesIdentifier protocolType ∧ clientName client = raw := by
  by_cases hvless : Text.startsWith protocolType "vless" = true
  · rw [injectedIdentifier_vless hvless, Option.some.injEq]
    exact ⟨fun h => ⟨Or.inl hvless, h⟩, And.right⟩
  by_cases hpassword : protocolType = "hysteria2" ∨ protocolType = "anytls"
  · rw [injectedIdentifier_password hvless hpassword, Option.some.injEq]
    exact ⟨fun h => ⟨Or.inr hpassword, h⟩, And.right⟩
  · have hnone : ¬ CarriesIdentifier protocolType := not_or.mpr ⟨hvless, hpassword⟩
    rw [injectedIdentifier_other hnone]
    exact ⟨fun h => (nomatch h), fun h => absurd h.1 hnone⟩

/-! ### What is resolved -/

/-- The entries of the map: reported UUIDs, and the clients whose email is reported. -/
theorem mem_resolveClientIds {db : Db} {raws : List String} {raw : String} {id : Uuid} :
    (raw, id) ∈ resolveClientIds db raws ↔ raw ∈ raws ∧ (Uuid.parse raw = some id ∨
      Uuid.parse raw = none ∧ ∃ c ∈ db.clients.rows, c.email = some raw ∧ c.id = id) := by
  rw [resolveClientIds, List.mem_append, List.mem_filterMap, List.mem_filterMap]
  constructor
  · rintro (⟨raw', hraw', hid⟩ | ⟨c, hc, hemail⟩)
    · obtain ⟨id', hparse, hpair⟩ := Option.map_eq_some_iff.mp hid
      cases hpair
      exact ⟨hraw', Or.inl hparse⟩
    · obtain ⟨email, hsome, hpair⟩ := Option.map_eq_some_iff.mp hemail
      cases hpair
      obtain ⟨hrow, hmem⟩ := Table.mem_filter.mp hc
      rw [hsome, Option.any_some, decide_eq_true_eq, List.mem_filter] at hmem
      exact ⟨hmem.1, Or.inr ⟨Option.isNone_iff_eq_none.mp hmem.2, c, hrow, hsome, rfl⟩⟩
  · rintro ⟨hraw, hparse | ⟨hparse, c, hrow, hemail, rfl⟩⟩
    · exact Or.inl ⟨raw, hraw, by rw [hparse]; rfl⟩
    · refine Or.inr ⟨c, Table.mem_filter.mpr ⟨hrow, ?_⟩, by rw [hemail]; rfl⟩
      rw [hemail, Option.any_some, decide_eq_true_eq, List.mem_filter, hparse]
      exact ⟨hraw, rfl⟩

/-- An identifier whose entries agree resolves to what they say. -/
theorem resolve_eq_some {resolved : List (String × Uuid)} {raw : String} {id : Uuid}
    (hmem : (raw, id) ∈ resolved) (hall : ∀ id', (raw, id') ∈ resolved → id' = id) :
    resolve resolved raw = some id := by
  rw [resolve]
  replace hmem := List.mem_reverse.mpr hmem
  replace hall : ∀ id', (raw, id') ∈ resolved.reverse → id' = id :=
    fun id' h => hall id' (List.mem_reverse.mp h)
  generalize resolved.reverse = entries at hmem hall
  induction entries with
  | nil => exact absurd hmem List.not_mem_nil
  | cons entry entries ih =>
    by_cases hkey : raw = entry.1
    · subst hkey
      rw [List.lookup_cons_self, hall entry.2 List.mem_cons_self]
    · have hne : (raw == entry.1) = false := beq_eq_false_iff_ne.mpr hkey
      rw [List.lookup_cons, hne]
      refine ih ?_ fun id' h => hall id' (List.mem_cons_of_mem entry h)
      rcases List.mem_cons.mp hmem with rfl | h
      · exact absurd rfl hkey
      · exact h

/-- A reported UUID is that UUID. -/
theorem resolve_of_parse (db : Db) {raws : List String} {raw : String} {id : Uuid}
    (hraw : raw ∈ raws) (hparse : Uuid.parse raw = some id) :
    resolve (resolveClientIds db raws) raw = some id := by
  refine resolve_eq_some (mem_resolveClientIds.mpr ⟨hraw, Or.inl hparse⟩) fun id' h => ?_
  rcases (mem_resolveClientIds.mp h).2 with hparse' | ⟨hnone, -⟩
  · rw [hparse] at hparse'
    cases hparse'
    rfl
  · rw [hparse] at hnone
    cases hnone

/-! ### The round trip -/

variable {db : Db} {protocolType : String}

theorem resolve_clientName {c : Client} (hc : c ∈ db.clients.rows) (h : Resolvable db c)
    {raws : List String} (hraw : clientName c ∈ raws) :
    resolve (resolveClientIds db raws) (clientName c) = some c.id := by
  cases hemail : c.email with
  | none =>
    have hname : clientName c = c.id.toStr := by rw [clientName, hemail, Option.getD_none]
    rw [hname] at hraw ⊢
    exact resolve_of_parse db hraw c.id.parse_toStr
  | some email =>
    have hname : clientName c = email := by rw [clientName, hemail, Option.getD_some]
    rw [hname] at hraw ⊢
    rcases h email hemail with hparse | ⟨hparse, hunique⟩
    · exact resolve_of_parse db hraw hparse
    · refine resolve_eq_some
        (mem_resolveClientIds.mpr ⟨hraw, Or.inr ⟨hparse, c, hc, hemail, rfl⟩⟩) fun id' h => ?_
      rcases (mem_resolveClientIds.mp h).2 with hsome | ⟨-, other, hother, hsame, rfl⟩
      · rw [hparse] at hsome
        cases hsome
      · exact hunique other hother hsame

/-- An email that resolves to its client, and to everybody else who has it, is resolvable. -/
theorem resolvable_of_roundTrip (hcarries : CarriesIdentifier protocolType)
    (h : ∀ c ∈ db.clients.rows, RoundTrip db protocolType c) {c : Client}
    (hc : c ∈ db.clients.rows) : Resolvable db c := by
  intro email hemail
  have hresolves : ∀ d ∈ db.clients.rows, d.email = some email →
      resolve (resolveClientIds db [email]) email = some d.id := by
    intro d hd hsame
    have hname : clientName d = email := by rw [clientName, hsame, Option.getD_some]
    exact (h d hd).resolves email (injectedIdentifier_eq_some.mpr ⟨hcarries, hname⟩) [email]
      (List.mem_singleton_self email)
  have hown := hresolves c hc hemail
  cases hparse : Uuid.parse email with
  | some id =>
    rw [resolve_of_parse db (List.mem_singleton_self email) hparse] at hown
    exact Or.inl hown
  | none =>
    refine Or.inr ⟨rfl, fun other hother hsame => ?_⟩
    have hothers := hresolves other hother hsame
    rw [hown] at hothers
    exact (Option.some.inj hothers).symm

/-- **The identifiers of all clients resolve to their clients if and only if every
client is resolvable.**  A protocol whose entries carry no identifier has none to
resolve. -/
theorem identifiers_round_trip_iff (db : Db) (protocolType : String) :
    (∀ c ∈ db.clients.rows, RoundTrip db protocolType c) ↔
      (CarriesIdentifier protocolType → ∀ c ∈ db.clients.rows, Resolvable db c) := by
  constructor
  · intro h hcarries c hc
    exact resolvable_of_roundTrip hcarries h hc
  · intro h c hc
    constructor
    · intro raw hinjected raws hraw
      obtain ⟨hcarries, rfl⟩ := injectedIdentifier_eq_some.mp hinjected
      exact resolve_clientName hc (h hcarries c hc) hraw
    · intro other hother hne raw hinjected raws hraw hsame
      obtain ⟨hcarries, rfl⟩ := injectedIdentifier_eq_some.mp hinjected
      rw [resolve_clientName hother (h hcarries other hother) hraw] at hsame
      exact hne (Option.some.inj hsame)

/-! ### Two clients with one email -/

namespace SharedEmail

def payload (name : String) : CreateClientPayload where
  name := name
  userId := none
  email := some "user@example.com"
  trafficLimitBytes := none
  expiryDate := none
  resetDay := none
  dataLimitResetStrategy := none
  maxDevices := none
  groupIds := none
  onHoldExpireDurationSecs := none
  onHoldTimeout := none

def now : DateTime := { nanos := 0, offset := 0 }

/-- The result of two requests that create a client. -/
def created : ApiResult Db := do
  let db ← createClient now (Uuid.ofNat 1) (Uuid.ofNat 2) (payload "first") {}
  createClient now (Uuid.ofNat 3) (Uuid.ofNat 4) (payload "second") db

theorem rows_created : created.toOption.map (·.clients.rows.map fun c => (c.id, c.email)) =
    some [(Uuid.ofNat 1, some "user@example.com"), (Uuid.ofNat 3, some "user@example.com")] := by
  decide

end SharedEmail

/-- Both requests succeed, and then the identifier of the first client is billed to the second. -/
theorem shared_email_not_round_trip : ∃ db, SharedEmail.created = .ok db ∧
    ¬ ∀ c ∈ db.clients.rows, RoundTrip db "vless_reality" c := by
  have hrows := SharedEmail.rows_created
  cases hcreated : SharedEmail.created with
  | error e =>
    rw [hcreated] at hrows
    cases hrows
  | ok db =>
    rw [hcreated] at hrows
    replace hrows : db.clients.rows.map (fun c => (c.id, c.email)) = _ := Option.some.inj hrows
    refine ⟨db, rfl, fun h => ?_⟩
    have hrow : ∀ id, (id, some "user@example.com") ∈ db.clients.rows.map (fun c => (c.id, c.email))
        → ∃ c ∈ db.clients.rows, c.id = id ∧ c.email = some "user@example.com" := by
      intro id hid
      obtain ⟨c, hc, hpair⟩ := List.mem_map.mp hid
      exact ⟨c, hc, congrArg Prod.fst hpair, congrArg Prod.snd hpair⟩
    obtain ⟨c, hc, hid, hemail⟩ := hrow (Uuid.ofNat 1) (by rw [hrows]; exact List.mem_cons_self)
    obtain ⟨d, hd, hid', hemail'⟩ := hrow (Uuid.ofNat 3)
      (by rw [hrows]; exact List.mem_cons_of_mem _ List.mem_cons_self)
    have hcarries : CarriesIdentifier "vless_reality" := Or.inl (by decide)
    rcases resolvable_of_roundTrip hcarries h hc _ hemail with hparse | ⟨-, hunique⟩
    · exact absurd hparse (by rw [hid]; decide)
    · have hsame := hunique d hd hemail'
      rw [hid, hid'] at hsame
      exact absurd hsame (by decide)

end ProxyPanel.Hub
