import ProxyPanel.Hub.ProxyNodes
import Mathlib.Data.List.Forall2

/-!
# Credentials in a subscription

`injectClientCredentials` appends the client to the `clients` of the settings and
the output formats read the first entry.  Two settings are `SameButOthers` when
they differ in credentials of other users only; `CredentialIsolated` says that
such a difference is not seen and that the credential of the client is emitted.
-/

namespace ProxyPanel

namespace Hub

open Json Query SettingsHelper Subscription

/-! ### Settings that differ in other users -/

/-- Equal, or on both sides a credential of somebody else. -/
def SameOrOther (id : String) (v v' : Option String) : Prop :=
  v' = v ∨ ∃ x x', v = some x ∧ v' = some x' ∧ x ≠ id ∧ x' ≠ id

/-- The same value, or on both sides a string that is a credential of somebody else. -/
def SameValue (id : String) (v v' : Option Json) : Prop :=
  v' = v ∨ ∃ x x', v = some (str x) ∧ v' = some (str x') ∧
    x ≠ "" ∧ x' ≠ "" ∧ x ≠ id ∧ x' ≠ id

/-- The keys of a credential in an entry of `clients` or at top level. -/
def entryKeys : List String := ["id", "uuid", "password"]

/-- Entries of `clients` that differ in a credential of another user only. -/
def SameEntry (id : String) (e e' : Json) : Prop :=
  e' = e ∨ e.isObject = true ∧ e'.isObject = true ∧
    (∀ k, k ∉ entryKeys → e'.get k = e.get k) ∧ ∀ k ∈ entryKeys, SameValue id (e.get k) (e'.get k)

/-- The same `clients`, or two arrays with the same entries pairwise. -/
def SameClients (id : String) (v v' : Option Json) : Prop :=
  v' = v ∨ ∃ es es', v = some (arr es) ∧ v' = some (arr es') ∧ List.Forall₂ (SameEntry id) es es'

/-- **Settings that differ only in credentials of users other than `id`.** -/
def SameButOthers (id : String) (settings settings' : Json) : Prop :=
  settings' = settings ∨ settings.isObject = true ∧ settings'.isObject = true ∧
    (∀ k, k ∉ credentialKeys → settings'.get k = settings.get k) ∧
    (∀ k ∈ entryKeys, SameValue id (settings.get k) (settings'.get k)) ∧
    SameClients id (settings.get "clients") (settings'.get "clients")

theorem SameEntry.refl (id : String) (e : Json) : SameEntry id e e := Or.inl rfl

theorem SameValue.asStr_filter {id : String} {v v' : Option Json} (h : SameValue id v v') :
    SameOrOther id ((v.bind asStr).filter nonEmpty) ((v'.bind asStr).filter nonEmpty) := by
  rcases h with rfl | ⟨x, x', rfl, rfl, hx, hx', hne, hne'⟩
  · exact Or.inl rfl
  · refine Or.inr ⟨x, x', ?_, ?_, hne, hne'⟩
    · simp [asStr, nonEmpty, hx]
    · simp [asStr, nonEmpty, hx']

theorem SameValue.or {id : String} {v v' w w' : Option Json} (h : SameValue id v v')
    (hw : SameValue id w w') : SameValue id (v.or w) (v'.or w') := by
  rcases h with rfl | ⟨x, x', rfl, rfl, h⟩
  · cases v' with
    | some _ => exact Or.inl rfl
    | none => exact hw
  · exact Or.inr ⟨x, x', rfl, rfl, h⟩

theorem SameOrOther.or {id : String} {v v' w w' : Option String} (h : SameOrOther id v v')
    (hw : SameOrOther id w w') : SameOrOther id (v.or w) (v'.or w') := by
  rcases h with rfl | ⟨x, x', rfl, rfl, h⟩
  · cases v' with
    | some _ => exact Or.inl rfl
    | none => exact hw
  · exact Or.inr ⟨x, x', rfl, rfl, h⟩

/-- The values of the entry keys of two entries, or of two settings. -/
theorem SameEntry.value {id : String} {e e' : Json} (h : SameEntry id e e') {k : String}
    (hk : k ∈ entryKeys) : SameValue id (e.get k) (e'.get k) := by
  rcases h with rfl | ⟨-, -, -, hvalue⟩
  · exact Or.inl rfl
  · exact hvalue k hk

theorem SameButOthers.value {id : String} {s s' : Json} (h : SameButOthers id s s') {k : String}
    (hk : k ∈ entryKeys) : SameValue id (s.get k) (s'.get k) := by
  rcases h with rfl | ⟨-, -, -, hvalue, -⟩
  · exact Or.inl rfl
  · exact hvalue k hk

theorem SameButOthers.clients {id : String} {s s' : Json} (h : SameButOthers id s s') :
    SameClients id (s.get "clients") (s'.get "clients") := by
  rcases h with rfl | ⟨-, -, -, -, hclients⟩
  · exact Or.inl rfl
  · exact hclients

theorem SameButOthers.get_of_not_mem {id : String} {s s' : Json} (h : SameButOthers id s s')
    {k : String} (hk : k ∉ credentialKeys) : s'.get k = s.get k := by
  rcases h with rfl | ⟨-, -, hget, -⟩
  · rfl
  · exact hget k hk

/-- Related values under the keys `id`, `uuid` and `password` give related credentials. -/
theorem sameOrOther_entryUuid {id : String} {e e' : Json}
    (h : ∀ k ∈ entryKeys, SameValue id (e.get k) (e'.get k)) :
    SameOrOther id (entryUuid e) (entryUuid e') :=
  ((h "id" (by decide)).or (h "uuid" (by decide))).asStr_filter

theorem sameOrOther_password {id : String} {e e' : Json}
    (h : ∀ k ∈ entryKeys, SameValue id (e.get k) (e'.get k)) :
    SameOrOther id (getNonEmpty e "password") (getNonEmpty e' "password") :=
  (h "password" (by decide)).asStr_filter

/-- The first entry of an array of clients. -/
def firstEntry (settings : Json) : Option Json := (settings.getArr "clients").bind List.head?

theorem clientUuid_eq (settings : Json) : clientUuid settings =
    ((firstEntry settings).bind entryUuid).or (entryUuid settings) := by
  rw [clientUuid, firstEntry, Option.bind_assoc]

theorem clientPassword_eq (settings : Json) : clientPassword settings =
    ((firstEntry settings).bind (getNonEmpty · "password")).or (getNonEmpty settings "password") := by
  rw [clientPassword, firstEntry, Option.bind_assoc]

theorem SameButOthers.firstEntry {id : String} {s s' : Json} (h : SameButOthers id s s')
    {read : Json → Option String}
    (hread : ∀ e e', SameEntry id e e' → SameOrOther id (read e) (read e')) :
    SameOrOther id ((firstEntry s).bind read) ((firstEntry s').bind read) := by
  rcases h.clients with heq | ⟨es, es', hes, hes', hall⟩
  · rw [Hub.firstEntry, Hub.firstEntry, getArr, getArr, heq]
    exact Or.inl rfl
  · rw [Hub.firstEntry, Hub.firstEntry, getArr, getArr, hes, hes']
    cases hall with
    | nil => exact Or.inl rfl
    | cons hentry _ => exact hread _ _ hentry

/-- Two settings that are `SameButOthers` show the formats the same credential, or
credentials of other users. -/
theorem SameButOthers.credentialOf {id : String} {s s' : Json} (h : SameButOthers id s s')
    (protocol : ProtocolType) :
    SameOrOther id (credentialOf protocol s) (credentialOf protocol s') := by
  have huuid : SameOrOther id (clientUuid s) (clientUuid s') := by
    rw [clientUuid_eq, clientUuid_eq]
    exact (h.firstEntry fun e e' he => sameOrOther_entryUuid fun k hk => he.value hk).or
      (sameOrOther_entryUuid fun k hk => h.value hk)
  have hpassword : SameOrOther id (clientPassword s) (clientPassword s') := by
    rw [clientPassword_eq, clientPassword_eq]
    exact (h.firstEntry fun e e' he => sameOrOther_password fun k hk => he.value hk).or
      (sameOrOther_password fun k hk => h.value hk)
  rw [Subscription.credentialOf, Subscription.credentialOf]
  split
  · exact huuid
  · exact hpassword

/-! ### Injection and host entries keep the relation -/

theorem SameButOthers.set {id : String} {s s' : Json} (h : SameButOthers id s s') (k : String)
    (v : Json) : SameButOthers id (s.set k v) (s'.set k v) := by
  rcases h with rfl | ⟨hobj, hobj', hget, hvalue, hclients⟩
  · exact Or.inl rfl
  · have hset : ∀ k', k' = k → (s'.set k v).get k' = (s.set k v).get k' := by
      rintro k' rfl
      rw [get_set_self hobj, get_set_self hobj']
    have hother : ∀ k', k' ≠ k → (s.set k v).get k' = s.get k' ∧ (s'.set k v).get k' = s'.get k' :=
      fun k' hne => ⟨get_set_of_ne s hne v, get_set_of_ne s' hne v⟩
    refine Or.inr ⟨by rwa [isObject_set], by rwa [isObject_set], fun k' hk' => ?_, fun k' hk' => ?_, ?_⟩
    · by_cases heq : k' = k
      · exact hset k' heq
      · rw [(hother k' heq).1, (hother k' heq).2]
        exact hget k' hk'
    · by_cases heq : k' = k
      · exact Or.inl (hset k' heq)
      · rw [(hother k' heq).1, (hother k' heq).2]
        exact hvalue k' hk'
    · by_cases heq : "clients" = k
      · exact Or.inl (hset _ heq)
      · rw [(hother _ heq).1, (hother _ heq).2]
        exact hclients

/-- The clients with one more entry. -/
def appendClient (settings entry : Json) : Json :=
  match settings.get "clients" with
  | some clients => settings.set "clients" (clients.push entry)
  | none => settings

theorem SameButOthers.setClients {id : String} {s s' : Json} (h : SameButOthers id s s')
    {es es' : List Json} (hall : List.Forall₂ (SameEntry id) es es')
    (hobj : s.isObject = true) (hobj' : s'.isObject = true) :
    SameButOthers id (s.set "clients" (arr es)) (s'.set "clients" (arr es')) := by
  refine Or.inr ⟨by rwa [isObject_set], by rwa [isObject_set], fun k hk => ?_, fun k hk => ?_, ?_⟩
  · have hne : k ≠ "clients" := fun he => hk (he ▸ by decide)
    rw [get_set_of_ne s hne, get_set_of_ne s' hne]
    exact h.get_of_not_mem hk
  · have hne : k ≠ "clients" := fun he => absurd (he ▸ hk) (by decide)
    rw [get_set_of_ne s hne, get_set_of_ne s' hne]
    exact h.value hk
  · rw [get_set_self hobj, get_set_self hobj']
    exact Or.inr ⟨es, es', rfl, rfl, hall⟩

theorem SameButOthers.appendClient {id : String} {s s' : Json} (h : SameButOthers id s s')
    (entry : Json) : SameButOthers id (appendClient s entry) (appendClient s' entry) := by
  rw [Hub.appendClient, Hub.appendClient]
  rcases h.clients with heq | ⟨es, es', hes, hes', hall⟩
  · rw [heq]
    cases s.get "clients" with
    | none => exact h
    | some v => exact h.set "clients" (v.push entry)
  · rw [hes, hes']
    rcases h with rfl | hboth
    · rw [hes] at hes'
      cases hes'
      exact Or.inl rfl
    · have hobjs := hboth
      refine SameButOthers.setClients (Or.inr hboth) ?_ hobjs.1 hobjs.2.1
      exact List.rel_append hall (List.Forall₂.cons (SameEntry.refl id entry) List.Forall₂.nil)

/-- The settings with an empty array of clients if there is none. -/
def ensureClients (settings : Json) : Json :=
  match settings.get "clients" with
  | some _ => settings
  | none => settings.set "clients" (arr [])

theorem SameButOthers.ensureClients {id : String} {s s' : Json} (h : SameButOthers id s s') :
    SameButOthers id (ensureClients s) (ensureClients s') := by
  have hsame : SameButOthers id (s.set "clients" (arr [])) (s'.set "clients" (arr [])) := h.set _ _
  rw [Hub.ensureClients, Hub.ensureClients]
  rcases h.clients with heq | ⟨es, es', hes, hes', -⟩
  · rw [heq]
    cases s.get "clients" with
    | none => exact hsame
    | some v => exact h
  · rw [hes, hes']
    exact h

/-- The entry of a VLESS client. -/
def vlessEntry (client : Client) (protocolType : String) : Json :=
  let entry := mkObj [("id", str client.id.toStr), ("email", str (client.email.getD client.name)),
    ("flow", str (if protocolType = "vless_reality" then "xtls-rprx-vision" else ""))]
  match client.maxDevices with
  | some limit => if 0 < limit then entry.set "limitIp" (num limit) else entry
  | none => entry

/-- The entry of a client with a password. -/
def passwordEntry (client : Client) : Json :=
  mkObj [("name", str (client.email.getD client.name)), ("password", str client.id.toStr)]

/-- What injection does for each protocol. -/
theorem injectClientCredentials_eq (settings : Json) (client : Client) (protocol : ProtocolType) :
    injectClientCredentials settings client protocol.toStr =
      if protocol.isVless then
        appendClient ((ensureClients settings).set "id" (str client.id.toStr))
          (vlessEntry client protocol.toStr)
      else appendClient (ensureClients settings) (passwordEntry client) := by
  cases protocol <;> rfl

theorem SameButOthers.injectClientCredentials {id : String} {s s' : Json}
    (h : SameButOthers id s s') (client : Client) (protocol : ProtocolType) :
    SameButOthers id (injectClientCredentials s client protocol.toStr)
      (injectClientCredentials s' client protocol.toStr) := by
  rw [injectClientCredentials_eq, injectClientCredentials_eq]
  split
  · exact (h.ensureClients.set _ _).appendClient _
  · exact h.ensureClients.appendClient _

theorem SameButOthers.setOpt {id : String} {s s' : Json} (h : SameButOthers id s s') (k : String)
    (v : Option String) :
    SameButOthers id (match v with | some v => s.set k (str v) | none => s)
      (match v with | some v => s'.set k (str v) | none => s') := by
  cases v with
  | some v => exact h.set k (str v)
  | none => exact h

theorem SameButOthers.withHost {id : String} {s s' : Json} (h : SameButOthers id s s')
    (host : Option InboundHost) : SameButOthers id (withHost s host) (withHost s' host) := by
  cases host with
  | none => exact h
  | some host => exact ((h.setOpt "sni" _).setOpt "host" _).setOpt "path" _

/-! ### Which credential comes first -/

/-- The first credential a format meets in settings with the client appended is
the client's own: the first entry of `clients` holds none or the client's, and for
a password, when the client is not the first entry, neither does the top level. -/
def OwnCredentialFirst (id : String) (protocol : ProtocolType) (settings : Json) : Prop :=
  if protocol.isVless then ∀ u, (firstEntry settings).bind entryUuid = some u → u = id
  else (∀ p, (firstEntry settings).bind (getNonEmpty · "password") = some p → p = id) ∧
    ((firstEntry settings).bind (getNonEmpty · "password") = none →
      settings.get "clients" ≠ none → settings.get "clients" ≠ some (arr []) →
      ∀ p, getNonEmpty settings "password" = some p → p = id)

theorem firstEntry_appendClient {s : Json} (hobj : s.isObject = true) {v : Json}
    (hclients : s.get "clients" = some v) (entry : Json) :
    firstEntry (appendClient s entry) = v.asArray.map (·.headD entry) := by
  rw [appendClient, hclients]
  simp only [firstEntry, getArr, get_set_self hobj]
  cases v with
  | arr es => cases es <;> rfl
  | _ => rfl

theorem get_ensureClients {s : Json} (hobj : s.isObject = true) :
    (ensureClients s).get "clients" = some ((s.get "clients").getD (arr [])) := by
  rw [ensureClients]
  cases h : s.get "clients" with
  | none => exact get_set_self hobj _ _
  | some v => exact h

theorem isObject_ensureClients (s : Json) : (ensureClients s).isObject = s.isObject := by
  rw [ensureClients]
  cases s.get "clients" with
  | none => exact isObject_set _ _ _
  | some v => rfl

theorem get_appendClient_of_ne (s entry : Json) {k : String} (h : k ≠ "clients") :
    (appendClient s entry).get k = s.get k := by
  rw [appendClient]
  cases s.get "clients" with
  | none => rfl
  | some v => exact get_set_of_ne s h _

theorem get_ensureClients_of_ne (s : Json) {k : String} (h : k ≠ "clients") :
    (ensureClients s).get k = s.get k := by
  rw [ensureClients]
  cases s.get "clients" with
  | none => exact get_set_of_ne s h _
  | some v => rfl

theorem entryUuid_vlessEntry (client : Client) (protocolType : String) :
    entryUuid (vlessEntry client protocolType) = some client.id.toStr := by
  have hne := client.id.toStr_ne_empty
  have hget : (vlessEntry client protocolType).get "id" = some (str client.id.toStr) := by
    rw [vlessEntry]
    split
    · split
      · rw [get_set_of_ne _ (by decide), get_mkObj]
        rfl
      · rw [get_mkObj]
        rfl
    · rw [get_mkObj]
      rfl
  rw [entryUuid, hget]
  simp [asStr, nonEmpty, hne]

theorem password_passwordEntry (client : Client) :
    getNonEmpty (passwordEntry client) "password" = some client.id.toStr := by
  have hne := client.id.toStr_ne_empty
  have hget : (passwordEntry client).get "password" = some (str client.id.toStr) := by
    rw [passwordEntry, get_mkObj]
    rfl
  rw [getNonEmpty, getStr, hget]
  simp [asStr, nonEmpty, hne]

/-- The UUID read after injection: of the first entry, or of the client. -/
theorem clientUuid_injected {s : Json} (hobj : s.isObject = true) (client : Client)
    (protocolType : String) :
    clientUuid (appendClient ((ensureClients s).set "id" (str client.id.toStr))
        (vlessEntry client protocolType)) =
      some (((firstEntry s).bind entryUuid).getD client.id.toStr) := by
  have hobj' : ((ensureClients s).set "id" (str client.id.toStr)).isObject = true := by
    rw [isObject_set, isObject_ensureClients, hobj]
  have hclients : ((ensureClients s).set "id" (str client.id.toStr)).get "clients" =
      some ((s.get "clients").getD (arr [])) := by
    rw [get_set_of_ne _ (by decide), get_ensureClients hobj]
  have htop : entryUuid (appendClient ((ensureClients s).set "id" (str client.id.toStr))
      (vlessEntry client protocolType)) = some client.id.toStr := by
    rw [entryUuid, get_appendClient_of_ne _ _ (by decide),
      get_set_self ((isObject_ensureClients s).trans hobj)]
    simp [asStr, nonEmpty, client.id.toStr_ne_empty]
  rw [clientUuid_eq, htop, firstEntry_appendClient hobj' hclients, firstEntry, getArr]
  cases s.get "clients" with
  | none => simp [asArray, entryUuid_vlessEntry]
  | some v =>
    simp only [Option.getD_some, Option.bind_some]
    cases v.asArray with
    | none => rfl
    | some es =>
      cases es with
      | nil => simp [entryUuid_vlessEntry]
      | cons e es =>
        simp only [Option.map_some, Option.bind_some, List.headD_cons, List.head?_cons]
        cases entryUuid e <;> rfl

/-- Without entries the client becomes the first one. -/
theorem clientPassword_injected_of_empty {s : Json} (hobj : s.isObject = true) (client : Client)
    (hempty : s.get "clients" = none ∨ s.get "clients" = some (arr [])) :
    clientPassword (appendClient (ensureClients s) (passwordEntry client)) =
      some client.id.toStr := by
  have hclients : (ensureClients s).get "clients" = some (arr []) := by
    rw [get_ensureClients hobj]
    rcases hempty with h | h <;> rw [h] <;> rfl
  rw [clientPassword_eq, firstEntry_appendClient ((isObject_ensureClients s).trans hobj) hclients]
  simp [asArray, password_passwordEntry]

/-- Otherwise the password read is the one that was read before. -/
theorem clientPassword_injected_of_not_empty {s : Json} (hobj : s.isObject = true) (client : Client)
    (hnone : s.get "clients" ≠ none) (hempty : s.get "clients" ≠ some (arr [])) :
    clientPassword (appendClient (ensureClients s) (passwordEntry client)) = clientPassword s := by
  obtain ⟨v, hv⟩ := Option.ne_none_iff_exists'.mp hnone
  have hclients : (ensureClients s).get "clients" = some v := by
    rw [get_ensureClients hobj, hv]
    rfl
  have htop : getNonEmpty (appendClient (ensureClients s) (passwordEntry client)) "password" =
      getNonEmpty s "password" := by
    rw [getNonEmpty, getNonEmpty, getStr, getStr, get_appendClient_of_ne _ _ (by decide),
      get_ensureClients_of_ne _ (by decide)]
  rw [clientPassword_eq, clientPassword_eq, htop,
    firstEntry_appendClient ((isObject_ensureClients s).trans hobj) hclients, firstEntry, getArr, hv]
  cases v with
  | arr es =>
    cases es with
    | nil => exact absurd hv hempty
    | cons e es => rfl
  | _ => rfl

/-- Settings that are not an object show no credential. -/
theorem credentialOf_of_not_isObject {s : Json} (hobj : s.isObject = false) (client : Client)
    (protocol : ProtocolType) :
    credentialOf protocol (injectClientCredentials s client protocol.toStr) = none := by
  have hget : ∀ k, (injectClientCredentials s client protocol.toStr).get k = none := by
    have hinject : injectClientCredentials s client protocol.toStr = s := by
      rw [injectClientCredentials_eq, appendClient, appendClient, ensureClients,
        get_of_not_isObject hobj]
      simp only [set_of_not_isObject hobj, get_of_not_isObject hobj, ite_self]
    rw [hinject]
    exact get_of_not_isObject hobj
  rw [credentialOf, clientUuid, clientPassword, entryUuid, getNonEmpty, getStr, getArr]
  simp only [hget]
  split <;> rfl

theorem ownCredentialFirst_of_not_isObject {s : Json} (hobj : s.isObject = false) (id : String)
    (protocol : ProtocolType) : OwnCredentialFirst id protocol s := by
  have hfirst : firstEntry s = none := by
    rw [firstEntry, getArr, get_of_not_isObject hobj]
    rfl
  rw [OwnCredentialFirst, hfirst]
  split
  · exact fun u hu => by cases hu
  · exact ⟨(fun p hp => by cases hp), fun _ hnone => absurd (get_of_not_isObject hobj _) hnone⟩

/-- **The credential the formats read after injection is the client's own, or there
is none, if and only if `OwnCredentialFirst`.** -/
theorem credentialOf_injectClientCredentials (s : Json) (client : Client) (protocol : ProtocolType) :
    (∀ c, credentialOf protocol (injectClientCredentials s client protocol.toStr) = some c →
      c = client.id.toStr) ↔ OwnCredentialFirst client.id.toStr protocol s := by
  cases hobj : s.isObject with
  | false =>
    rw [credentialOf_of_not_isObject hobj]
    exact iff_of_true (fun c hc => by cases hc) (ownCredentialFirst_of_not_isObject hobj _ _)
  | true =>
    rw [injectClientCredentials_eq, credentialOf, OwnCredentialFirst]
    by_cases hvless : protocol.isVless = true
    · rw [if_pos hvless, if_pos hvless, if_pos hvless, clientUuid_injected hobj]
      cases (firstEntry s).bind entryUuid with
      | none => simp
      | some u => simp
    · rw [if_neg hvless, if_neg hvless, if_neg hvless]
      by_cases hempty : s.get "clients" = none ∨ s.get "clients" = some (arr [])
      · rw [clientPassword_injected_of_empty hobj client hempty]
        have hfirst : firstEntry s = none := by
          rw [firstEntry, getArr]
          rcases hempty with h | h <;> rw [h] <;> rfl
        refine iff_of_true (fun c hc => (Option.some.inj hc).symm) ⟨fun p hp => ?_, ?_⟩
        · rw [hfirst] at hp
          cases hp
        · intro _ hnone hne
          exact absurd hempty (not_or.mpr ⟨hnone, hne⟩)
      · obtain ⟨hnone, hne⟩ := not_or.mp hempty
        rw [clientPassword_injected_of_not_empty hobj client hnone hne, clientPassword_eq]
        cases (firstEntry s).bind (getNonEmpty · "password") with
        | none => simp [hnone, hne]
        | some u => simp

/-! ### Isolation -/

theorem credentialOf_congr {s s' : Json} (h : ∀ k ∈ credentialKeys, s'.get k = s.get k)
    (protocol : ProtocolType) : credentialOf protocol s' = credentialOf protocol s := by
  rw [credentialOf, credentialOf, clientUuid_eq, clientUuid_eq, clientPassword_eq,
    clientPassword_eq, firstEntry, firstEntry, getArr, getArr, entryUuid, entryUuid, getNonEmpty,
    getNonEmpty, getStr, getStr, h "clients" (by decide), h "id" (by decide), h "uuid" (by decide),
    h "password" (by decide)]

theorem credentialOf_withHost (s : Json) (host : Option InboundHost) (protocol : ProtocolType) :
    credentialOf protocol (withHost s host) = credentialOf protocol s :=
  credentialOf_congr (fun k hk => get_withHost s host fun hmem => by
    simp only [credentialKeys, List.mem_cons, List.not_mem_nil, or_false] at hk hmem
    rcases hk with rfl | rfl | rfl | rfl <;> simp at hmem) protocol

/-- The name a node is listed under. -/
def listedName (substitute : Substitution) (client : Client) (cfg : ProtocolConfig) (node : Node)
    (host : Option InboundHost) : String :=
  match host with
  | some host => substitute host.remark client cfg.protocolType
      ((cfg.settings.getStr "network").getD "tcp") node
  | none => node.name ++ "-" ++ cfg.name

/-- The node of a binding under settings that name one transport: everything but
the settings is the same. -/
theorem exec_accessibleNode (substitute : Substitution) (client : Client) (binding : NodeBinding)
    (cfg : ProtocolConfig) (node : Node) (protocol : ProtocolType) (db : Db) :
    ∃ (pn : ProxyNode) (host : Option InboundHost), pn.protocol = protocol ∧
      ∀ settings, settings.get "network" = cfg.settings.get "network" →
        (accessibleNode substitute client binding { cfg with settings := settings } node
            protocol).exec db =
          .ok { pn with
            settings := withHost (injectClientCredentials settings client cfg.protocolType) host } := by
  let host := db.inboundHosts.one fun h =>
    h.protocolConfigId = cfg.id ∧ h.nodeId = node.id ∧ h.isActive
  obtain ⟨server, hserver⟩ := succeeds_effectiveServer host cfg node db
  obtain ⟨tls, htls⟩ := succeeds_resolveSubscriptionTls binding.nodeId
    (SettingsHelper.mergeTlsSettings cfg.tlsSettings (overrideTls binding)) db
  refine ⟨⟨listedName substitute client cfg node host, protocol, server.1, server.2, null, tls⟩, host, rfl, fun settings hnetwork => ?_⟩
  have hstr : settings.getStr "network" = cfg.settings.getStr "network" := by
    rw [getStr, getStr, hnetwork]
  rw [accessibleNode, exec_read_bind]
  change (effectiveServer host cfg node >>= _).exec db = _
  rw [exec_bind, hserver]
  change (resolveSubscriptionTls binding.nodeId (SettingsHelper.mergeTlsSettings cfg.tlsSettings
    (overrideTls binding)) >>= _).exec db = _
  rw [exec_bind, htls, hstr]
  rfl

/-- The node listed for a client carries the client's own id in every format, and
no subscription it is part of depends on credentials of other users. -/
def CredentialIsolated (substitute : Substitution) (db : Db) (client : Client)
    (binding : NodeBinding) (cfg : ProtocolConfig) (node : Node) (protocol : ProtocolType) : Prop :=
  ∀ format pn, (accessibleNode substitute client binding cfg node protocol).exec db = .ok pn →
    (∀ out, emit format pn = .ok out → out.credential = some client.id.toStr) ∧
    ∀ settings pn', SameButOthers client.id.toStr cfg.settings settings →
      (accessibleNode substitute client binding { cfg with settings := settings } node
        protocol).exec db = .ok pn' →
      ∀ render before after, generateSubscription render format (before ++ pn' :: after) =
        generateSubscription render format (before ++ pn :: after)

/-- **Credential isolation.**  Settings are isolated for a client if and only if
the first credential the formats meet is the client's own. -/
theorem credentialIsolated_iff {substitute : Substitution} {db : Db} {client : Client}
    {binding : NodeBinding} {cfg : ProtocolConfig} {node : Node} {protocol : ProtocolType}
    (hprotocol : ProtocolType.fromStr? cfg.protocolType = some protocol) :
    CredentialIsolated substitute db client binding cfg node protocol ↔
      OwnCredentialFirst client.id.toStr protocol cfg.settings := by
  have htoStr : cfg.protocolType = protocol.toStr := (ProtocolType.toStr_of_fromStr? hprotocol).symm
  obtain ⟨pn, host, hpn, hexec⟩ := exec_accessibleNode substitute client binding cfg node protocol db
  let built : Json → ProxyNode := fun settings => { pn with
    settings := withHost (injectClientCredentials settings client protocol.toStr) host }
  have hbuilt : ∀ settings, settings.get "network" = cfg.settings.get "network" →
      (accessibleNode substitute client binding { cfg with settings := settings } node
        protocol).exec db = .ok (built settings) := by
    intro settings hnetwork
    rw [hexec settings hnetwork, htoStr]
  have hcredential : ∀ settings, credentialOf (built settings).protocol (built settings).settings =
      credentialOf protocol (injectClientCredentials settings client protocol.toStr) := by
    intro settings
    rw [show (built settings).protocol = protocol from hpn]
    exact credentialOf_withHost _ _ _
  rw [← credentialOf_injectClientCredentials]
  constructor
  · intro h c hc
    obtain ⟨out, hout, hcred⟩ := emit_clash_of_credential ((hcredential cfg.settings).trans hc)
    have hown := (h .clash _ (hbuilt cfg.settings rfl)).1 out hout
    rw [hcred] at hown
    exact Option.some.inj hown
  · intro h format pn₀ hpn₀
    cases (hbuilt cfg.settings rfl).symm.trans hpn₀
    refine ⟨fun out hout => ?_, fun settings pn' hsame hpn' render before after => ?_⟩
    · obtain ⟨c, hread, hout⟩ := credential_emit hout
      rw [hout, h c ((hcredential cfg.settings).symm.trans hread)]
    · cases (hbuilt settings (hsame.get_of_not_mem (by decide))).symm.trans hpn'
      have hinjected := hsame.injectClientCredentials client protocol
      have hown : credentialOf protocol (injectClientCredentials settings client protocol.toStr) =
          credentialOf protocol (injectClientCredentials cfg.settings client protocol.toStr) := by
        rcases hinjected.credentialOf protocol with heq | ⟨x, x', hx, -, hne, -⟩
        · exact heq
        · exact absurd (h x hx) hne
      have hget : ∀ k, k ∉ credentialKeys →
          (built settings).settings.get k = (built cfg.settings).settings.get k :=
        fun k hk => (hinjected.withHost host).get_of_not_mem hk
      have hread := (hcredential settings).trans (hown.trans (hcredential cfg.settings).symm)
      have hemit : emit format (built settings) = emit format (built cfg.settings) :=
        emit_congr hget hread format
      refine generateSubscription_congr ?_ ?_ hemit before after
      · rfl
      · rfl

/-! ### A preset client -/

namespace PresetClient

/-- The settings of an export: an array of clients with somebody else in it. -/
def settings : Json :=
  mkObj [("clients", arr [mkObj [("name", str "dave"), ("password", str "secret-of-dave")]])]

def cfg : ProtocolConfig where
  id := .ofNat 1
  name := "hy2"
  protocolType := "hysteria2"
  coreType := "sing-box"
  listenPort := 443
  listenAddress := "::"
  settings := settings
  tlsSettings := none
  updatedAt := default

theorem exists_emitted : ∃ pn out,
    (accessibleNode OnHold.substitute OnHold.client PresetUser.binding cfg OnHold.node
      .hysteria2).exec {} = .ok pn ∧
      emit .clash pn = .ok out ∧ out.credential = some "secret-of-dave" := by
  refine ⟨_, _, rfl, rfl, ?_⟩
  decide

end PresetClient

/-- **The client's subscription shows the password of another user** when the
settings hold a client already. -/
theorem preset_client_emitted : ¬ CredentialIsolated OnHold.substitute {} OnHold.client
    PresetUser.binding PresetClient.cfg OnHold.node .hysteria2 := by
  obtain ⟨pn, out, hpn, hout, hcred⟩ := PresetClient.exists_emitted
  intro h
  have hown := (h .clash pn hpn).1 out hout
  rw [hcred] at hown
  exact absurd (Option.some.inj hown) (by decide)

theorem credentialIsolated_iff_preset :
    CredentialIsolated OnHold.substitute {} OnHold.client PresetUser.binding PresetClient.cfg
      OnHold.node .hysteria2 ↔
      OwnCredentialFirst OnHold.client.id.toStr .hysteria2 PresetClient.cfg.settings :=
  credentialIsolated_iff (by decide)

end Hub

end ProxyPanel
