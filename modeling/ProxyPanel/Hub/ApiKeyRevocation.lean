import Mathlib.Data.Set.Operations
import ProxyPanel.Common.Protocol
import ProxyPanel.Hub.ApiKeys
import ProxyPanel.Lib.History
import ProxyPanel.Lib.Run

/-!
# Revoking an API key

Requests and the calls that update or delete a key run side by side: a step is one
query, one check of a hash or one access to the cache.  A request that finds nothing
in the cache reads the rows, checks one hash after the other and puts the row that
matches into the cache; a call writes the row, clears the cache and returns.  The model
keeps every contents the table has had, so that `Revoked` can say that a request is
let through on a row that was stored after the calls that had returned before it.
-/

namespace ProxyPanel.Hub.ApiKeyRevocation

open Run History

/-! ### The calls -/

namespace Scopes

def all : List String :=
  ["nodes:read", "nodes:write", "clients:read", "clients:write", "protocols:read",
    "protocols:write", "bindings:read", "bindings:write", "groups:read", "groups:write",
    "subscriptions:read", "subscriptions:write", "templates:read", "templates:write",
    "apikeys:read", "apikeys:write", "webhooks:read", "webhooks:write", "traffic:read",
    "metrics:read", "onlines:read", "logs:read", "system:read", "system:write", "*"]

end Scopes

def jsonArray (value : Json) : Json := .arr (value.asArray.getD [])

def validateScope (v : Json) : Except String Unit :=
  match v.asStr with
  | none => .error "scope must be a string"
  | some s => if s = "*" ∨ s ∈ Scopes.all then .ok () else .error "unknown scope"

def validateScopes (scopes : Json) : Except String Unit :=
  match scopes.asArray with
  | none => .error "scopes must be an array"
  | some arr => arr.forM validateScope

structure UpdateKeyPayload where
  name : Option String := none
  scopes : Option Json := none
  ipAllowlist : Option Json := none
  rateLimit : Option Int := none
  isActive : Option Bool := none

/-- A 64-bit integer cut to 32 bits. -/
def asI32 (n : Int) : Int := (n + 2 ^ 31) % 2 ^ 32 - 2 ^ 31

/-- The checks of `update_key`. -/
def UpdateKeyPayload.validate (p : UpdateKeyPayload) : Except ApiError Unit := do
  if p.name.any fun name => Text.trim name = "" then
    throw (.badRequest "invalid_name" "API key name cannot be empty")
  match p.scopes with
  | some scopes =>
    match validateScopes (jsonArray scopes) with
    | .error e => throw (.badRequest "invalid_scopes" e)
    | .ok () => pure ()
  | none => pure ()

/-- The columns an update sets. -/
def UpdateKeyPayload.apply (p : UpdateKeyPayload) (now : DateTime) (k : ApiKey) : ApiKey :=
  { k with
    name := p.name.getD k.name
    scopes := (p.scopes.map jsonArray).getD k.scopes
    ipAllowlist := p.ipAllowlist.or k.ipAllowlist
    rateLimit := (p.rateLimit.map asI32).or k.rateLimit
    isActive := p.isActive.getD k.isActive
    updatedAt := now }

/-- Where a call stands: before the read of an update; before the write; the write is
done; an error is found; it has returned. -/
inductive CallPhase where
  | reading (payload : UpdateKeyPayload)
  | updating (payload : UpdateKeyPayload)
  | deleting
  | written
  | failing (e : ApiError)
  | returned (result : ApiResult Unit)

structure Call where
  keyId : Uuid
  phase : CallPhase

def databaseFailed : ApiError := .internal "database operation failed"
def keyNotFound : ApiError := .notFound "API key not found"

/-! ### The requests -/

/-- Where a request stands: before its look at the cache; the cached key is past its
expiry; before the query; with the rows whose hash is still to be checked; with the row
that matches; refused; let through on an entry. -/
inductive RequestPhase where
  | started
  | expired
  | querying
  | verifying (rest : List ApiKey)
  | matched (record : ApiKey)
  | refused (status : Nat)
  | passed (entry : CachedApiKey)

/-- `atStart` is what `returnedAt` was when the request started. -/
structure Request where
  request : HttpRequest
  secret : String
  atStart : Uuid → Nat
  phase : RequestPhase

/-- `past` are the earlier contents of the table, the oldest first, and `returnedAt`
the number of the contents at the latest return of a call for a key. -/
structure State where
  past : List (Table ApiKey)
  apiKeys : Table ApiKey
  cache : ApiKeyCache
  requests : List Request
  calls : List Call
  returnedAt : Uuid → Nat

inductive Action where
  | start (request : HttpRequest)
  | lookup (r : Nat) (now : Clock) (rateAllows : Bool)
  | clearExpired (r : Nat)
  /-- The rows, unless the query fails. -/
  | query (r : Nat) (ok : Bool)
  | verify (r : Nat)
  | authorize (r : Nat) (now : Clock) (rateAllows : Bool)
  | updateKey (id : Uuid) (payload : UpdateKeyPayload)
  | deleteKey (id : Uuid)
  | read (c : Nat) (ok : Bool)
  | write (c : Nat) (now : DateTime) (ok : Bool)
  /-- A call that has written clears the cache and returns. -/
  | clear (c : Nat)
  | fail (c : Nat)

namespace State

def history (s : State) : List (Table ApiKey) := s.past ++ [s.apiKeys]

def setRequest (s : State) (r : Nat) (phase : RequestPhase) : State :=
  { s with requests := s.requests.modify r fun q => { q with phase := phase } }

def setCall (s : State) (c : Nat) (phase : CallPhase) : State :=
  { s with calls := s.calls.modify c fun q => { q with phase := phase } }

/-- The table has new contents. -/
def stored (s : State) (t : Table ApiKey) : State := { s with past := s.history, apiKeys := t }

/-- A call for a key returns. -/
def returns (s : State) (c : Nat) (keyId : Uuid) (result : ApiResult Unit) : State :=
  { s.setCall c (.returned result) with
    returnedAt := Function.update s.returnedAt keyId s.past.length }

end State

/-- What becomes of a request by the cached path. -/
def cachedPhase (env : ApiKeyEnv) (trusted : Option (List IpAddr)) (req : HttpRequest) (now : Clock)
    (rateAllows : Bool) (cached : CachedApiKey) : RequestPhase :=
  if isPast cached.expiresAt now.utc then .expired
  else
    match cachedDecision env trusted req rateAllows cached with
    | .ok _ => .passed cached
    | .error status => .refused status

def stepRequest (env : ApiKeyEnv) (trusted : Option (List IpAddr)) (s : State) (r : Nat)
    (q : Request) : Action → Option State
  | .lookup _ now rateAllows =>
    match q.phase with
    | .started =>
      match s.cache.get (env.computeKey q.secret) now.instant with
      | some cached => some (s.setRequest r (cachedPhase env trusted q.request now rateAllows cached))
      | none => some (s.setRequest r .querying)
    | _ => none
  | .clearExpired _ =>
    match q.phase with
    | .expired => some { s.setRequest r (.refused 401) with cache := s.cache.invalidate }
    | _ => none
  | .query _ ok =>
    match q.phase with
    | .querying =>
      if ok then some (s.setRequest r (.verifying (s.apiKeys.filter ApiKey.isActive)))
      else some (s.setRequest r (.refused 500))
    | _ => none
  | .verify _ =>
    match q.phase with
    | .verifying [] => some (s.setRequest r (.refused 401))
    | .verifying (k :: rest) =>
      if env.verifySecret q.secret k.keyHash then some (s.setRequest r (.matched k))
      else some (s.setRequest r (.verifying rest))
    | _ => none
  | .authorize _ now rateAllows =>
    match q.phase with
    | .matched record =>
      match recordDecision env trusted q.request now.utc rateAllows record with
      | .ok _ =>
        let entry := cachedOf record now.instant
        some { s.setRequest r (.passed entry) with
          cache := s.cache.insert (env.computeKey q.secret) entry }
      | .error status => some (s.setRequest r (.refused status))
    | _ => none
  | _ => none

def stepCall (s : State) (c : Nat) (call : Call) : Action → Option State
  | .read _ ok =>
    match call.phase with
    | .reading payload =>
      if !ok then some (s.setCall c (.failing databaseFailed))
      else
        match s.apiKeys.find call.keyId with
        | none => some (s.setCall c (.failing keyNotFound))
        | some _ =>
          match payload.validate with
          | .error e => some (s.setCall c (.failing e))
          | .ok () => some (s.setCall c (.updating payload))
    | _ => none
  | .write _ now ok =>
    match call.phase with
    | .updating payload =>
      if !ok then some (s.setCall c (.failing databaseFailed))
      else
        match s.apiKeys.find call.keyId with
        | none => some (s.setCall c (.failing .dbConflict))
        | some _ =>
          some ((s.stored (s.apiKeys.update call.keyId (payload.apply now))).setCall c .written)
    | .deleting =>
      if !ok then some (s.setCall c (.failing databaseFailed))
      else
        match s.apiKeys.find call.keyId with
        | none => some (s.setCall c (.failing keyNotFound))
        | some _ =>
          some ((s.stored (s.apiKeys.deleteWhere fun k => k.id = call.keyId)).setCall c .written)
    | _ => none
  | .clear _ =>
    match call.phase with
    | .written => some { s.returns c call.keyId (.ok ()) with cache := s.cache.invalidate }
    | _ => none
  | .fail _ =>
    match call.phase with
    | .failing e => some (s.returns c call.keyId (.error e))
    | _ => none
  | _ => none

def step (env : ApiKeyEnv) (trusted : Option (List IpAddr)) (s : State) (a : Action) :
    Option State :=
  match a with
  | .start request =>
    let secret := extractKeyFromRequest request
    let phase := if secret = "" then .refused 401 else .started
    some { s with requests := s.requests ++ [⟨request, secret, s.returnedAt, phase⟩] }
  | .updateKey id payload => some { s with calls := s.calls ++ [⟨id, .reading payload⟩] }
  | .deleteKey id => some { s with calls := s.calls ++ [⟨id, .deleting⟩] }
  | .lookup r _ _ | .clearExpired r | .query r _ | .verify r | .authorize r _ _ =>
    (s.requests[r]?).bind fun q => stepRequest env trusted s r q a
  | .read c _ | .write c _ _ | .clear c | .fail c =>
    (s.calls[c]?).bind fun call => stepCall s c call a

/-- The Hub has started: the cache is empty. -/
def initial (apiKeys : Table ApiKey) : State where
  past := []
  apiKeys := apiKeys
  cache := fun _ => none
  requests := []
  calls := []
  returnedAt := fun _ => 0

/-! ### What is to hold -/

section

variable {env : ApiKeyEnv} {trusted : Option (List IpAddr)} {secrets : Set String}
  {keys : Table ApiKey} {s s' : State}

/-- A row has been stored and active at some moment from contents number `v` on. -/
def StoredSince (s : State) (v : Nat) (row : ApiKey) : Prop :=
  HeldSince s.history v fun t => row ∈ t.rows ∧ row.isActive = true

/-- A secret is that of a key. -/
def SecretOf (env : ApiKeyEnv) (s : State) (secret : String) (id : Uuid) : Prop :=
  ∃ t ∈ s.history, ∃ row ∈ t.rows, row.id = id ∧ env.verifySecret secret row.keyHash = true

/-- **A call is in effect when it returns**: what lets a later request through has been
stored since. -/
structure Revoked (env : ApiKeyEnv) (s : State) : Prop where
  stored_since : ∀ q ∈ s.requests, ∀ entry id, q.phase = .passed entry →
    SecretOf env s q.secret id →
      ∃ row, row.id = id ∧ StoredSince s (q.atStart id) row ∧ entry = cachedOf row entry.cachedAt
  /-- A key that has been gone or inactive since is never authorized. -/
  never_again : ∀ q ∈ s.requests, ∀ id, SecretOf env s q.secret id →
    (∀ row, row.id = id → ¬ StoredSince s (q.atStart id) row) → ∀ entry, q.phase ≠ .passed entry

/-- A request puts a row into the cache only if the row has been stored since the latest
return of a call for its key, and a call that fails returns only when the cache has
nothing of its key but a row that is stored. -/
def Timely (env : ApiKeyEnv) (trusted : Option (List IpAddr)) (s : State) : Action → Prop
  | .authorize r now rateAllows => ∀ q record auth, s.requests[r]? = some q →
      q.phase = .matched record →
      recordDecision env trusted q.request now.utc rateAllows record = .ok auth →
        StoredSince s (s.returnedAt record.id) record
  | .fail c => ∀ call, s.calls[c]? = some call → ∀ digest entry, s.cache digest = some entry →
      entry.keyId = call.keyId →
        ∃ row ∈ s.apiKeys.rows, row.isActive = true ∧ entry = cachedOf row entry.cachedAt
  | _ => True

/-- No two keys have a secret in common. -/
def SecretsDistinct (env : ApiKeyEnv) (keys : Table ApiKey) : Prop :=
  ∀ row ∈ keys.rows, ∀ row' ∈ keys.rows, ∀ secret, env.verifySecret secret row.keyHash = true →
    env.verifySecret secret row'.keyHash = true → row.id = row'.id

/-- The secret of a request that starts is one of `secrets`. -/
def Action.SecretIn (secrets : Set String) : Action → Prop
  | .start request => extractKeyFromRequest request ∈ secrets
  | _ => True

/-! ### The invariant -/

/-- An entry is that of a row the secret belongs to, stored since `since`. -/
def Authorizes (env : ApiKeyEnv) (s : State) (secret : String) (since : Uuid → Nat)
    (entry : CachedApiKey) : Prop :=
  ∃ row, env.verifySecret secret row.keyHash = true ∧ StoredSince s (since row.id) row ∧
    entry = cachedOf row entry.cachedAt

/-- What a request has read has been stored since it started. -/
def PhaseOk (env : ApiKeyEnv) (s : State) (secret : String) (atStart : Uuid → Nat) :
    RequestPhase → Prop
  | .verifying rest => ∀ row ∈ rest, StoredSince s (atStart row.id) row
  | .matched row => env.verifySecret secret row.keyHash = true ∧ StoredSince s (atStart row.id) row
  | .passed entry => Authorizes env s secret atStart entry
  | _ => True

structure RequestOk (env : ApiKeyEnv) (secrets : Set String) (s : State) (q : Request) : Prop where
  secret_mem : q.secret ∈ secrets
  atStart_le : ∀ id, q.atStart id ≤ s.returnedAt id
  phase : PhaseOk env s q.secret q.atStart q.phase

/-- `keys` are the rows at the beginning: no call makes a new key or a new hash. -/
structure Inv (env : ApiKeyEnv) (secrets : Set String) (keys : Table ApiKey) (s : State) :
    Prop where
  origin : ∀ t ∈ s.history, ∀ row ∈ t.rows,
    ∃ row₀ ∈ keys.rows, row₀.id = row.id ∧ row₀.keyHash = row.keyHash
  returned_le : ∀ id, s.returnedAt id ≤ s.past.length
  cache : ∀ digest entry, s.cache digest = some entry →
    ∃ secret ∈ secrets, digest = env.computeKey secret ∧ Authorizes env s secret s.returnedAt entry
  requests : ∀ q ∈ s.requests, RequestOk env secrets s q

/-- Later states know all earlier contents, and no return is forgotten. -/
structure Extends (s s' : State) : Prop where
  history : ∃ later, s'.history = s.history ++ later
  returnedAt : ∀ id, s.returnedAt id ≤ s'.returnedAt id

theorem Extends.of_history_eq (hhistory : s'.history = s.history)
    (hreturned : ∀ id, s.returnedAt id ≤ s'.returnedAt id) : Extends s s' :=
  ⟨⟨[], by rw [hhistory, List.append_nil]⟩, hreturned⟩

theorem StoredSince.extends {v : Nat} {row : ApiKey} (h : StoredSince s v row)
    (hext : Extends s s') : StoredSince s' v row := by
  obtain ⟨later, hlater⟩ := hext.history
  rw [StoredSince, hlater]
  exact HeldSince.append h later

theorem Authorizes.extends {secret : String} {since : Uuid → Nat} {entry : CachedApiKey}
    (h : Authorizes env s secret since entry) (hext : Extends s s') :
    Authorizes env s' secret since entry := by
  obtain ⟨row, hverify, hstored, hentry⟩ := h
  exact ⟨row, hverify, hstored.extends hext, hentry⟩

theorem Authorizes.of_le {secret : String} {since since' : Uuid → Nat} {entry : CachedApiKey}
    (h : Authorizes env s secret since entry) (hle : ∀ id, since' id ≤ since id) :
    Authorizes env s secret since' entry := by
  obtain ⟨row, hverify, hstored, hentry⟩ := h
  exact ⟨row, hverify, HeldSince.of_le hstored (hle row.id), hentry⟩

theorem PhaseOk.extends {secret : String} {atStart : Uuid → Nat} {phase : RequestPhase}
    (h : PhaseOk env s secret atStart phase) (hext : Extends s s') :
    PhaseOk env s' secret atStart phase := by
  cases phase with
  | verifying rest => exact fun row hrow => (h row hrow).extends hext
  | matched row => exact ⟨h.1, h.2.extends hext⟩
  | passed entry => exact Authorizes.extends h hext
  | started => trivial
  | expired => trivial
  | querying => trivial
  | refused status => trivial

theorem RequestOk.extends {q : Request} (h : RequestOk env secrets s q) (hext : Extends s s') :
    RequestOk env secrets s' q where
  secret_mem := h.secret_mem
  atStart_le id := Nat.le_trans (h.atStart_le id) (hext.returnedAt id)
  phase := h.phase.extends hext

theorem storedSince_present {v : Nat} {row : ApiKey} (hv : v ≤ s.past.length)
    (hrow : row ∈ s.apiKeys.rows) (hactive : row.isActive = true) : StoredSince s v row :=
  heldSince_present hv ⟨hrow, hactive⟩

/-! ### The steps of a request -/

theorem forall_mem_modify {α : Type} {p : α → Prop} {l : List α} {i : Nat} {f : α → α}
    (h : ∀ a ∈ l, p a) (hf : ∀ a, l[i]? = some a → p (f a)) : ∀ a ∈ l.modify i f, p a := by
  intro a ha
  obtain ⟨j, hj⟩ := List.mem_iff_getElem?.mp ha
  rw [List.getElem?_modify] at hj
  by_cases hij : i = j
  · subst hij
    obtain ⟨b, hb, rfl⟩ := Option.map_eq_some_iff.mp hj
    simpa using hf b hb
  · obtain ⟨b, hb, rfl⟩ := Option.map_eq_some_iff.mp hj
    simpa [hij] using h b (List.mem_of_getElem? hb)

/-- A request goes on, and the cache keeps entries that are in order. -/
theorem Inv.setRequest (h : Inv env secrets keys s) {r : Nat} {q : Request}
    (hq : s.requests[r]? = some q) {phase : RequestPhase}
    (hphase : PhaseOk env s q.secret q.atStart phase) {cache : ApiKeyCache}
    (hcache : ∀ digest entry, cache digest = some entry → s.cache digest = some entry ∨
      (digest = env.computeKey q.secret ∧ Authorizes env s q.secret s.returnedAt entry)) :
    Inv env secrets keys { s.setRequest r phase with cache := cache } where
  origin := h.origin
  returned_le := h.returned_le
  cache digest entry hentry := by
    cases hcache digest entry hentry with
    | inl hold => exact h.cache digest entry hold
    | inr hnew =>
      exact ⟨q.secret, (h.requests q (List.mem_of_getElem? hq)).secret_mem, hnew.1, hnew.2⟩
  requests := by
    have hext : Extends s { s.setRequest r phase with cache := cache } :=
      .of_history_eq rfl fun _ => Nat.le_refl _
    refine forall_mem_modify (fun q' hq' => (h.requests q' hq').extends hext) fun q' hq' => ?_
    cases hq.symm.trans hq'
    have hok := h.requests q (List.mem_of_getElem? hq)
    exact ⟨hok.secret_mem, hok.atStart_le, hphase.extends hext⟩

/-- An entry found in the cache authorizes the request that looked it up. -/
theorem Inv.authorizes_of_get (h : Inv env secrets keys s)
    (hinj : Set.InjOn env.computeKey secrets) {q : Request} (hq : q ∈ s.requests)
    {instant : Nat} {entry : CachedApiKey}
    (hget : s.cache.get (env.computeKey q.secret) instant = some entry) :
    Authorizes env s q.secret q.atStart entry := by
  have hentry : s.cache (env.computeKey q.secret) = some entry :=
    (Option.filter_eq_some_iff.mp hget).1
  obtain ⟨secret, hsecret, hdigest, hauthorizes⟩ := h.cache _ entry hentry
  have hok := h.requests q hq
  cases hinj hok.secret_mem hsecret hdigest
  exact hauthorizes.of_le hok.atStart_le

/-- The cache is as it was. -/
theorem Inv.setPhase (h : Inv env secrets keys s) {r : Nat} {q : Request}
    (hq : s.requests[r]? = some q) {phase : RequestPhase}
    (hphase : PhaseOk env s q.secret q.atStart phase) :
    Inv env secrets keys (s.setRequest r phase) :=
  h.setRequest hq hphase fun digest entry (hentry : s.cache digest = some entry) => .inl hentry

theorem phaseOk_cachedPhase {secret : String} {atStart : Uuid → Nat} {req : HttpRequest}
    {now : Clock} {rateAllows : Bool} {cached : CachedApiKey}
    (h : Authorizes env s secret atStart cached) :
    PhaseOk env s secret atStart (cachedPhase env trusted req now rateAllows cached) := by
  rw [cachedPhase]
  split
  · trivial
  · split
    · exact h
    · trivial

theorem inv_lookup (h : Inv env secrets keys s) (hinj : Set.InjOn env.computeKey secrets) {r : Nat}
    {q : Request} (hq : s.requests[r]? = some q) {now : Clock} {rateAllows : Bool}
    (hstep : stepRequest env trusted s r q (.lookup r now rateAllows) = some s') :
    Inv env secrets keys s' := by
  rw [stepRequest] at hstep
  split at hstep
  next hstarted =>
    split at hstep
    next cached hget =>
      cases hstep
      exact h.setPhase hq (phaseOk_cachedPhase
        (h.authorizes_of_get hinj (List.mem_of_getElem? hq) hget))
    next =>
      cases hstep
      exact h.setPhase hq trivial
  next => cases hstep

theorem inv_query (h : Inv env secrets keys s) {r : Nat} {q : Request}
    (hq : s.requests[r]? = some q) {ok : Bool}
    (hstep : stepRequest env trusted s r q (.query r ok) = some s') : Inv env secrets keys s' := by
  rw [stepRequest] at hstep
  split at hstep
  next hquerying =>
    split at hstep
    · cases hstep
      have hok := h.requests q (List.mem_of_getElem? hq)
      refine h.setPhase hq fun row hrow => ?_
      obtain ⟨hmem, hactive⟩ := Table.mem_filter.mp hrow
      exact storedSince_present (Nat.le_trans (hok.atStart_le row.id) (h.returned_le row.id)) hmem
        hactive
    · cases hstep
      exact h.setPhase hq trivial
  next => cases hstep

theorem inv_verify (h : Inv env secrets keys s) {r : Nat} {q : Request}
    (hq : s.requests[r]? = some q)
    (hstep : stepRequest env trusted s r q (.verify r) = some s') : Inv env secrets keys s' := by
  have hphase := (h.requests q (List.mem_of_getElem? hq)).phase
  rw [stepRequest] at hstep
  split at hstep
  next =>
    cases hstep
    exact h.setPhase hq trivial
  next k rest hverifying =>
    rw [hverifying] at hphase
    split at hstep
    next hverify =>
      cases hstep
      exact h.setPhase hq ⟨hverify, hphase k List.mem_cons_self⟩
    next =>
      cases hstep
      exact h.setPhase hq fun row hrow => hphase row (List.mem_cons_of_mem k hrow)
  next => cases hstep

/-- The row goes into the cache, where it must have been stored since the latest return. -/
theorem inv_authorize (h : Inv env secrets keys s) {r : Nat} {q : Request}
    (hq : s.requests[r]? = some q) {now : Clock} {rateAllows : Bool}
    (htimely : Timely env trusted s (.authorize r now rateAllows))
    (hstep : stepRequest env trusted s r q (.authorize r now rateAllows) = some s') :
    Inv env secrets keys s' := by
  have hphase := (h.requests q (List.mem_of_getElem? hq)).phase
  rw [stepRequest] at hstep
  split at hstep
  next record hmatched =>
    rw [hmatched] at hphase
    obtain ⟨hverify, hstored⟩ := hphase
    split at hstep
    next auth hdecision =>
      have hcurrent : StoredSince s (s.returnedAt record.id) record :=
        htimely q record auth hq hmatched hdecision
      cases hstep
      have hpassed : PhaseOk env s q.secret q.atStart (.passed (cachedOf record now.instant)) :=
        ⟨record, hverify, hstored, rfl⟩
      refine h.setRequest hq hpassed fun digest entry hentry => ?_
      by_cases hdigest : digest = env.computeKey q.secret
      · subst hdigest
        rw [ApiKeyCache.insert, Function.update_self] at hentry
        cases hentry
        exact .inr ⟨rfl, record, hverify, hcurrent, rfl⟩
      · rw [ApiKeyCache.insert, Function.update_of_ne hdigest] at hentry
        exact .inl hentry
    next =>
      cases hstep
      exact h.setPhase hq trivial
  next => cases hstep

/-! ### The steps of a call -/

theorem Inv.setCall (h : Inv env secrets keys s) (c : Nat) (phase : CallPhase) :
    Inv env secrets keys (s.setCall c phase) where
  origin := h.origin
  returned_le := h.returned_le
  cache := h.cache
  requests q hq := (h.requests q hq).extends (.of_history_eq rfl fun _ => Nat.le_refl _)

/-- The table changes to rows that were there before, with the same hashes. -/
theorem Inv.stored (h : Inv env secrets keys s) {t : Table ApiKey}
    (ht : ∀ row ∈ t.rows, ∃ row₀ ∈ s.apiKeys.rows, row₀.id = row.id ∧ row₀.keyHash = row.keyHash) :
    Inv env secrets keys (s.stored t) := by
  have hext : Extends s (s.stored t) := ⟨⟨[t], rfl⟩, fun _ => Nat.le_refl _⟩
  have hlen : (s.stored t).past.length = s.past.length + 1 := by
    simp [State.stored, State.history]
  refine ⟨?_, ?_, ?_, ?_⟩
  · intro u hu row hrow
    rcases List.mem_append.mp hu with hold | hnew
    · exact h.origin u hold row hrow
    · cases List.mem_singleton.mp hnew
      obtain ⟨row₁, hmem, hid, hhash⟩ := ht row hrow
      obtain ⟨row₀, hmem₀, hid₀, hhash₀⟩ :=
        h.origin s.apiKeys (List.mem_append_right _ List.mem_cons_self) row₁ hmem
      exact ⟨row₀, hmem₀, hid₀.trans hid, hhash₀.trans hhash⟩
  · intro id
    rw [hlen]
    exact Nat.le_succ_of_le (h.returned_le id)
  · intro digest entry hentry
    obtain ⟨secret, hmem, hdigest, hauthorizes⟩ := h.cache digest entry hentry
    exact ⟨secret, hmem, hdigest, hauthorizes.extends hext⟩
  · exact fun q hq => (h.requests q hq).extends hext

/-- A call returns, with a cache that has nothing old of its key. -/
theorem Inv.returns (h : Inv env secrets keys s) (c : Nat) {keyId : Uuid} (result : ApiResult Unit)
    {cache : ApiKeyCache}
    (hcache : ∀ digest entry, cache digest = some entry → s.cache digest = some entry ∧
      (entry.keyId = keyId →
        ∃ row ∈ s.apiKeys.rows, row.isActive = true ∧ entry = cachedOf row entry.cachedAt)) :
    Inv env secrets keys { s.returns c keyId result with cache := cache } := by
  have hle : ∀ id, s.returnedAt id ≤ (s.returns c keyId result).returnedAt id := by
    intro id
    change s.returnedAt id ≤ Function.update s.returnedAt keyId s.past.length id
    by_cases hid : id = keyId
    · subst hid
      rw [Function.update_self]
      exact h.returned_le id
    · exact Nat.le_of_eq (Function.update_of_ne hid ..).symm
  have hext : Extends s { s.returns c keyId result with cache := cache } :=
    .of_history_eq rfl hle
  refine ⟨h.origin, ?_, ?_, fun q hq => (h.requests q hq).extends hext⟩
  · intro id
    change Function.update s.returnedAt keyId s.past.length id ≤ s.past.length
    by_cases hid : id = keyId
    · subst hid
      exact Nat.le_of_eq (Function.update_self ..)
    · rw [Function.update_of_ne hid]
      exact h.returned_le id
  · intro digest entry hentry
    obtain ⟨hold, hcurrent⟩ := hcache digest entry hentry
    obtain ⟨secret, hsecret, hdigest, row, hverify, hstored, hrow⟩ := h.cache digest entry hold
    refine ⟨secret, hsecret, hdigest, ?_⟩
    by_cases hid : row.id = keyId
    · have hkeyId : entry.keyId = keyId := by
        rw [hrow]
        exact hid
      obtain ⟨row', hmem, hactive, hrow'⟩ := hcurrent hkeyId
      have hid' : row'.id = row.id := by
        rw [hid, ← hkeyId, hrow']
        rfl
      refine ⟨row', ?_, ?_, hrow'⟩
      · obtain ⟨t, ht, hrowMem, _⟩ := HeldSince.exists_mem hstored
        obtain ⟨row₁, hmem₁, hid₁, hhash₁⟩ := h.origin t ht row hrowMem
        obtain ⟨row₂, hmem₂, hid₂, hhash₂⟩ :=
          h.origin s.apiKeys (List.mem_append_right _ List.mem_cons_self) row' hmem
        have hsame : row₁ = row₂ :=
          keys.eq_of_key_eq hmem₁ hmem₂ (hid₁.trans (hid'.symm.trans hid₂.symm))
        rw [← hhash₂, ← hsame, hhash₁]
        exact hverify
      · refine (storedSince_present (s := s) ?_ hmem hactive).extends hext
        change Function.update s.returnedAt keyId s.past.length row'.id ≤ s.past.length
        exact Nat.le_of_eq (by rw [hid', hid, Function.update_self])
    · refine ⟨row, hverify, ?_, hrow⟩
      change HeldSince s.history (Function.update s.returnedAt keyId s.past.length row.id) _
      rw [Function.update_of_ne hid]
      exact hstored

theorem inv_read (h : Inv env secrets keys s) {c : Nat} {call : Call} {ok : Bool}
    (hstep : stepCall s c call (.read c ok) = some s') : Inv env secrets keys s' := by
  rw [stepCall] at hstep
  split at hstep
  next payload =>
    split at hstep
    · cases hstep
      exact h.setCall c _
    · split at hstep
      next =>
        cases hstep
        exact h.setCall c _
      next =>
        split at hstep
        · cases hstep
          exact h.setCall c _
        · cases hstep
          exact h.setCall c _
  next => cases hstep

/-- An update leaves identifier and hash of the row. -/
theorem origin_update (t : Table ApiKey) (id : Uuid) (payload : UpdateKeyPayload) (now : DateTime) :
    ∀ row ∈ (t.update id (payload.apply now)).rows,
      ∃ row₀ ∈ t.rows, row₀.id = row.id ∧ row₀.keyHash = row.keyHash := by
  intro row hrow
  obtain ⟨row₀, hmem, rfl⟩ := List.mem_map.mp hrow
  refine ⟨row₀, hmem, ?_⟩
  split
  · exact ⟨rfl, rfl⟩
  · exact ⟨rfl, rfl⟩

theorem inv_write (h : Inv env secrets keys s) {c : Nat} {call : Call} {now : DateTime} {ok : Bool}
    (hstep : stepCall s c call (.write c now ok) = some s') : Inv env secrets keys s' := by
  rw [stepCall] at hstep
  split at hstep
  next payload _ =>
    split at hstep
    · cases hstep
      exact h.setCall c _
    · split at hstep
      · cases hstep
        exact h.setCall c _
      · cases hstep
        exact (h.stored (origin_update s.apiKeys call.keyId payload now)).setCall c _
  next =>
    split at hstep
    · cases hstep
      exact h.setCall c _
    · split at hstep
      · cases hstep
        exact h.setCall c _
      · cases hstep
        refine (h.stored fun row hrow => ?_).setCall c _
        exact ⟨row, (Table.mem_deleteWhere.mp hrow).1, rfl, rfl⟩
  next => cases hstep

theorem inv_clear (h : Inv env secrets keys s) {c : Nat} {call : Call}
    (hstep : stepCall s c call (.clear c) = some s') : Inv env secrets keys s' := by
  rw [stepCall] at hstep
  split at hstep
  next =>
    cases hstep
    exact h.returns c (.ok ()) fun _ _ hentry => nomatch hentry
  next => cases hstep

theorem inv_fail (h : Inv env secrets keys s) {c : Nat} {call : Call}
    (hcall : s.calls[c]? = some call) (htimely : Timely env trusted s (.fail c))
    (hstep : stepCall s c call (.fail c) = some s') : Inv env secrets keys s' := by
  rw [stepCall] at hstep
  split at hstep
  next e _ =>
    cases hstep
    exact h.returns c (.error e) fun digest entry (hentry : s.cache digest = some entry) =>
      ⟨hentry, htimely call hcall digest entry hentry⟩
  next => cases hstep

/-! ### Every run -/

theorem inv_start (h : Inv env secrets keys s) {request : HttpRequest}
    (hsecret : extractKeyFromRequest request ∈ secrets)
    (hstep : step env trusted s (.start request) = some s') : Inv env secrets keys s' := by
  cases hstep
  refine ⟨h.origin, h.returned_le, h.cache, ?_⟩
  intro q hq
  rcases List.mem_append.mp hq with hold | hnew
  · exact (h.requests q hold).extends (.of_history_eq rfl fun _ => Nat.le_refl _)
  · cases List.mem_singleton.mp hnew
    refine ⟨hsecret, fun _ => Nat.le_refl _, ?_⟩
    dsimp only
    split
    · trivial
    · trivial

theorem inv_clearExpired (h : Inv env secrets keys s) {r : Nat} {q : Request}
    (hq : s.requests[r]? = some q)
    (hstep : stepRequest env trusted s r q (.clearExpired r) = some s') :
    Inv env secrets keys s' := by
  rw [stepRequest] at hstep
  split at hstep
  next =>
    cases hstep
    have hrefused : PhaseOk env s q.secret q.atStart (.refused 401) := trivial
    exact h.setRequest hq hrefused fun _ _ hentry => nomatch hentry
  next => cases hstep

/-- A call starts. -/
theorem Inv.addCall (h : Inv env secrets keys s) (call : Call) :
    Inv env secrets keys { s with calls := s.calls ++ [call] } where
  origin := h.origin
  returned_le := h.returned_le
  cache := h.cache
  requests q hq := (h.requests q hq).extends (.of_history_eq rfl fun _ => Nat.le_refl _)

theorem inv_step (hinj : Set.InjOn env.computeKey secrets) {a : Action}
    (h : Inv env secrets keys s) (hsecret : a.SecretIn secrets) (htimely : Timely env trusted s a)
    (hstep : step env trusted s a = some s') : Inv env secrets keys s' := by
  cases a with
  | start request => exact inv_start h hsecret hstep
  | updateKey id payload =>
    cases hstep
    exact h.addCall _
  | deleteKey id =>
    cases hstep
    exact h.addCall _
  | lookup r now rateAllows =>
    obtain ⟨q, hq, hq'⟩ := Option.bind_eq_some_iff.mp hstep
    exact inv_lookup h hinj hq hq'
  | clearExpired r =>
    obtain ⟨q, hq, hq'⟩ := Option.bind_eq_some_iff.mp hstep
    exact inv_clearExpired h hq hq'
  | query r ok =>
    obtain ⟨q, hq, hq'⟩ := Option.bind_eq_some_iff.mp hstep
    exact inv_query h hq hq'
  | verify r =>
    obtain ⟨q, hq, hq'⟩ := Option.bind_eq_some_iff.mp hstep
    exact inv_verify h hq hq'
  | authorize r now rateAllows =>
    obtain ⟨q, hq, hq'⟩ := Option.bind_eq_some_iff.mp hstep
    exact inv_authorize h hq htimely hq'
  | read c ok =>
    obtain ⟨call, _, hcall⟩ := Option.bind_eq_some_iff.mp hstep
    exact inv_read h hcall
  | write c now ok =>
    obtain ⟨call, _, hcall⟩ := Option.bind_eq_some_iff.mp hstep
    exact inv_write h hcall
  | clear c =>
    obtain ⟨call, _, hcall⟩ := Option.bind_eq_some_iff.mp hstep
    exact inv_clear h hcall
  | fail c =>
    obtain ⟨call, hc, hcall⟩ := Option.bind_eq_some_iff.mp hstep
    exact inv_fail h hc htimely hcall

theorem inv_initial (apiKeys : Table ApiKey) : Inv env secrets apiKeys (initial apiKeys) where
  origin t ht row hrow := by
    cases List.mem_singleton.mp ht
    exact ⟨row, hrow, rfl, rfl⟩
  returned_le _ := Nat.le_refl _
  cache _ _ hentry := nomatch hentry
  requests _ hq := nomatch hq

/-- The row a request was let through on is the one of any key whose secret it carries. -/
theorem Inv.revoked (h : Inv env secrets keys s) (hdistinct : SecretsDistinct env keys) :
    Revoked env s := by
  have hstored : ∀ q ∈ s.requests, ∀ entry id, q.phase = .passed entry →
      SecretOf env s q.secret id →
        ∃ row, row.id = id ∧ StoredSince s (q.atStart id) row ∧
          entry = cachedOf row entry.cachedAt := by
    intro q hq entry id hpassed hsecret
    have hphase := (h.requests q hq).phase
    rw [hpassed] at hphase
    obtain ⟨row, hverify, hrowStored, hentry⟩ := hphase
    obtain ⟨t, ht, row', hmem', hid', hverify'⟩ := hsecret
    obtain ⟨u, hu, hmem, _⟩ := HeldSince.exists_mem hrowStored
    obtain ⟨row₀, hmem₀, hid₀, hhash₀⟩ := h.origin u hu row hmem
    obtain ⟨row₁, hmem₁, hid₁, hhash₁⟩ := h.origin t ht row' hmem'
    have hsame : row₀.id = row₁.id :=
      hdistinct row₀ hmem₀ row₁ hmem₁ q.secret (by rwa [hhash₀]) (by rwa [hhash₁])
    have hid : row.id = id := by rw [← hid₀, hsame, hid₁, hid']
    refine ⟨row, hid, ?_, hentry⟩
    rwa [hid] at hrowStored
  refine ⟨hstored, fun q hq id hsecret hgone entry hpassed => ?_⟩
  obtain ⟨row, hid, hrow, _⟩ := hstored q hq entry id hpassed hsecret
  exact hgone row hid hrow

/-- **A revoked key stays revoked**, in every run in which no request caches a row that has
not been stored since the latest return of a call for its key, and no failing call
returns while the cache has an old entry of its key.  The digests of the secrets in use
do not collide. -/
theorem revoked_of_timely {as : List Action} (hinj : Set.InjOn env.computeKey secrets)
    (hdistinct : SecretsDistinct env keys) (hsecrets : ∀ a ∈ as, a.SecretIn secrets)
    (htimely : Guarded (step env trusted) (Timely env trusted) (initial keys) as)
    (hrun : run (step env trusted) (initial keys) as = some s) : Revoked env s := by
  have hknown : Guarded (step env trusted) (fun _ a => a.SecretIn secrets) (initial keys) as :=
    guarded_of_forall (fun a ha _ => hsecrets a ha) (initial keys)
  have hguarded := guarded_and htimely hknown
  have hinv : Inv env secrets keys s :=
    inv_of_guarded (fun _ _ _ h hok hstep => inv_step hinj h hok.2 hok.1 hstep)
      (inv_initial keys) hguarded hrun
  exact hinv.revoked hdistinct

/-- Nothing has returned for the key since the request started. -/
theorem Inv.timely_of_unreturned (h : Inv env secrets keys s) {r : Nat} {now : Clock}
    {rateAllows : Bool} (hsame : ∀ q record, s.requests[r]? = some q →
      q.phase = .matched record → q.atStart record.id = s.returnedAt record.id) :
    Timely env trusted s (.authorize r now rateAllows) := by
  intro q record auth hq hmatched _
  have hphase := (h.requests q (List.mem_of_getElem? hq)).phase
  rw [hmatched] at hphase
  rw [← hsame q record hq hmatched]
  exact hphase.2

end

/-! ### One key that is deleted -/

namespace OneKey

/-- Secrets are their own hashes; the digest is that of the only secret in use. -/
def env : ApiKeyEnv where
  verifySecret secret hash := secret == hash
  computeKey _ := "78b904560d5dc7e179d311c5b89dc2b48cd021cb0e29adf84481ee53600c22b3"
  parseNet _ := none

def row : ApiKey where
  id := Uuid.nil
  name := "ci"
  keyHash := "ck_1"
  scopes := .arr [.str "nodes:read"]
  ipAllowlist := none
  rateLimit := none
  expiresAt := none
  isActive := true
  updatedAt := ⟨0, 0⟩

def keys : Table ApiKey := ⟨[row], by decide⟩
def request : HttpRequest := ⟨[("x-api-key", [99, 107, 95, 49])], none⟩
def now : Clock := ⟨⟨0, 0⟩, 0⟩

/-- The first request has matched the row when the key is deleted, and caches it
afterwards. -/
def late : List Action :=
  [.start request, .lookup 0 now true, .query 0 true, .verify 0, .deleteKey Uuid.nil,
    .write 0 now.utc true, .clear 0, .authorize 0 now true, .start request, .lookup 1 now true]

/-- The first request caches the row before the key is deleted. -/
def inTime : List Action :=
  [.start request, .lookup 0 now true, .query 0 true, .verify 0, .authorize 0 now true,
    .deleteKey Uuid.nil, .write 0 now.utc true, .clear 0, .start request, .lookup 1 now true,
    .query 1 true, .verify 1]

/-- No row of the key was stored after the deletion. -/
theorem not_storedSince {s : State} (hlen : s.history.length = 2) {gone : Table ApiKey}
    (hget : s.history[1]? = some gone) (hgone : gone.rows = []) (row : ApiKey) :
    ¬ StoredSince s 1 row := by
  rintro ⟨i, t, hi, ht, hmem, _⟩
  have hlt : i < s.history.length := (List.getElem?_eq_some_iff.mp ht).1
  have hone : i = 1 := by omega
  subst hone
  cases hget.symm.trans ht
  rw [hgone] at hmem
  cases hmem

end OneKey

open OneKey in
/-- The deletion has returned before the second request starts, and it is let through. -/
theorem deleted_key_passes : ∃ s q entry,
    run (step env none) (initial keys) late = some s ∧ s.requests[1]? = some q ∧
      q.atStart Uuid.nil = 1 ∧ s.history[1]?.map Table.rows = some [] ∧
      q.phase = .passed entry ∧ ¬ Revoked env s := by
  have hlate : ∃ s q entry, run (step env none) (initial keys) late = some s ∧
      s.requests[1]? = some q ∧ q.phase = .passed entry ∧ q.atStart Uuid.nil = 1 ∧
        q.secret = "ck_1" ∧ s.history[0]? = some keys ∧ s.history.length = 2 ∧
          s.history[1]?.map Table.rows = some [] :=
    ⟨_, _, _, rfl, rfl, rfl, rfl, rfl, rfl, rfl, rfl⟩
  obtain ⟨s, q, entry, hrun, hq, hpassed, hstart, hsecret, hkeys, hlen, hgone⟩ := hlate
  refine ⟨s, q, entry, hrun, hq, hstart, hgone, hpassed, fun h => ?_⟩
  have hcarries : SecretOf env s q.secret Uuid.nil :=
    ⟨keys, List.mem_of_getElem? hkeys, row, List.mem_cons_self, rfl, by rw [hsecret]; rfl⟩
  obtain ⟨row', _, hstored, _⟩ :=
    h.stored_since q (List.mem_of_getElem? hq) entry Uuid.nil hpassed hcarries
  rw [hstart] at hstored
  obtain ⟨t, ht, hrows⟩ := Option.map_eq_some_iff.mp hgone
  exact not_storedSince hlen ht hrows row' hstored

namespace OneKey

def carriesKey : Action → Bool
  | .start request => extractKeyFromRequest request == "ck_1"
  | _ => true

/-- No call has returned between the start of a request and its write to the cache. -/
def unreturned (s : State) : Action → Bool
  | .authorize r _ _ => (s.requests[r]?).all fun q =>
    match q.phase with
    | .matched record => q.atStart record.id == s.returnedAt record.id
    | _ => true
  | .fail _ => false
  | _ => true

theorem secretIn_of_carriesKey {a : Action} (h : carriesKey a = true) : a.SecretIn {"ck_1"} := by
  cases a with
  | start request => exact beq_iff_eq.mp h
  | _ => trivial

theorem timely_of_unreturned {s : State} {a : Action} (h : Inv env {"ck_1"} keys s)
    (hcheck : unreturned s a = true) : Timely env none s a := by
  cases a with
  | authorize r now rateAllows =>
    refine h.timely_of_unreturned fun q record hq hmatched => ?_
    rw [unreturned, hq, Option.all_some, hmatched] at hcheck
    exact beq_iff_eq.mp hcheck
  | fail c => cases hcheck
  | _ => trivial

theorem injOn_computeKey : Set.InjOn env.computeKey {"ck_1"} := by
  rintro _ rfl _ rfl _
  rfl

end OneKey

open OneKey in
theorem revoked_of_timely_in_time : ∃ s, run (step env none) (initial keys) inTime = some s ∧
    Revoked env s := by
  have hdistinct : SecretsDistinct env keys := by
    intro row hrow row' hrow' _ _ _
    rw [List.mem_singleton.mp hrow, List.mem_singleton.mp hrow']
  have hsecrets : ∀ a ∈ inTime, a.SecretIn {"ck_1"} := fun a ha =>
    secretIn_of_carriesKey (List.all_eq_true.mp
      (show inTime.all carriesKey = true by decide) a ha)
  have hchecked : checked (step env none) (fun s a => carriesKey a && unreturned s a)
      (initial keys) inTime = true := by decide
  have hok : ∀ (s : State) (a : Action), Inv env {"ck_1"} keys s →
      (carriesKey a && unreturned s a) = true → Timely env none s a :=
    fun _ _ h hcheck => timely_of_unreturned h (Bool.and_eq_true_iff.mp hcheck).2
  obtain ⟨htimely, s, hrun⟩ := guarded_of_checked hok
    (fun s a _ h hcheck hstep => inv_step injOn_computeKey h
      (secretIn_of_carriesKey (Bool.and_eq_true_iff.mp hcheck).1) (hok s a h hcheck) hstep)
    (inv_initial keys) hchecked
  exact ⟨s, hrun, revoked_of_timely injOn_computeKey hdistinct hsecrets htimely hrun⟩

end ProxyPanel.Hub.ApiKeyRevocation
