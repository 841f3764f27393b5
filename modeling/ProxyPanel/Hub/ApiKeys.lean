import ProxyPanel.Db.Entities
import ProxyPanel.Lib.IpAddr
import ProxyPanel.Lib.Text

/-!
# API keys

`requireApiKey` is the middleware in front of the protected routes, run on its own:
the cache of verified keys first, the rows of the database when the cache has
nothing.  Both paths check expiry, allowlist and rate limit.  The address a key's
allowlist is held against comes from the request, and `serve` is what the HTTP server
makes of a connection: the headers and no peer.  `realAddress` is the address an
allowlist is about.
-/

namespace ProxyPanel.Hub

/-! ### Requests -/

/-- Header names are in lower case.  `socketAddr` is the address among the request's
extensions. -/
structure HttpRequest where
  headers : List (String × List UInt8)
  socketAddr : Option IpAddr

/-- A header value as text: visible characters and tabs. -/
def headerToStr (bytes : List UInt8) : Option String :=
  if bytes.all fun b => b == 9 || (32 ≤ b && b < 127) then
    some (String.ofList (bytes.map fun b => Char.ofNat b.toNat))
  else none

def HttpRequest.header (req : HttpRequest) (name : String) : Option (List UInt8) :=
  (req.headers.find? fun h => h.1 = name).map Prod.snd

def stripPrefix (s p : String) : Option String :=
  if Text.startsWith s p then some (String.ofList (s.toList.drop p.toList.length)) else none

def extractKeyFromRequest (req : HttpRequest) : String :=
  match (req.header "x-api-key").bind headerToStr with
  | some val => Text.trim val
  | none =>
    match ((req.header "authorization").bind headerToStr).bind (stripPrefix · "Bearer ") with
    | some token => Text.trim token
    | none => ""

def extractClientIp (req : HttpRequest) (trustedProxies : Option (List IpAddr)) : String :=
  let directIp := req.socketAddr
  let forwarded := (req.header "x-forwarded-for").bind fun h =>
    (headerToStr h).bind fun s =>
      (Text.split ',' s).head?.bind fun hop => IpAddr.parse (Text.trim hop)
  match directIp, forwarded, trustedProxies with
  | _, some forwardedIp, some trusted =>
    if directIp.any (fun ip => ip ∈ trusted) then forwardedIp.toStr
    else (directIp.map IpAddr.toStr).getD ""
  | some ip, _, _ => ip.toStr
  | none, _, _ => ""

/-- What the server makes of a request on a connection.  Neither of its two loops
keeps the address of the peer. -/
def serve (_peer : IpAddr) (headers : List (String × List UInt8)) : HttpRequest where
  headers := headers
  socketAddr := none

/-! ### Keys -/

/-- Outside code: the check of a secret against a hash, the digest of a secret, and
the networks a text can denote. -/
structure ApiKeyEnv where
  verifySecret : String → String → Bool
  computeKey : String → String
  parseNet : String → Option (IpAddr → Bool)

structure CachedApiKey where
  keyId : Uuid
  name : String
  scopes : List String
  expiresAt : Option DateTime
  ipAllowlist : Option Json
  rateLimit : Option Int
  cachedAt : Nat

/-- Readings of the wall clock and of the monotonic clock (nanoseconds). -/
structure Clock where
  utc : DateTime
  instant : Nat
  deriving DecidableEq

def apiKeyCacheTtl : Nat := 3600 * 1000000000

def CachedApiKey.isExpired (e : CachedApiKey) (instant : Nat) : Bool :=
  decide (apiKeyCacheTtl < instant - e.cachedAt)

/-- The entries of verified keys, by the digest of the secret. -/
abbrev ApiKeyCache := String → Option CachedApiKey

namespace ApiKeyCache

def get (c : ApiKeyCache) (cacheKey : String) (instant : Nat) : Option CachedApiKey :=
  (c cacheKey).filter fun e => !e.isExpired instant

def insert (c : ApiKeyCache) (cacheKey : String) (e : CachedApiKey) : ApiKeyCache :=
  Function.update c cacheKey (some e)

def invalidate (_ : ApiKeyCache) : ApiKeyCache := fun _ => none

end ApiKeyCache

structure ApiKeyAuth where
  keyId : Uuid
  name : String
  scopes : List String
  deriving DecidableEq

/-- The scopes of a row. -/
def scopesOf (scopes : Json) : List String := (scopes.asArray.getD []).filterMap Json.asStr

def cachedOf (record : ApiKey) (instant : Nat) : CachedApiKey where
  keyId := record.id
  name := record.name
  scopes := scopesOf record.scopes
  expiresAt := record.expiresAt
  ipAllowlist := record.ipAllowlist
  rateLimit := record.rateLimit
  cachedAt := instant

/-! ### The checks -/

def isPast (expiresAt : Option DateTime) (now : DateTime) : Bool :=
  expiresAt.any fun expires => expires.before now

def ipMatches (env : ApiKeyEnv) (clientIp pattern : String) : Bool :=
  if '/' ∈ pattern.toList then
    match env.parseNet pattern, IpAddr.parse clientIp with
    | some net, some ip => net ip
    | _, _ => false
  else clientIp == pattern

/-- The entries of an allowlist. -/
def allowedOf (ipAllowlist : Option Json) : List String :=
  ((ipAllowlist.bind Json.asArray).getD []).filterMap Json.asStr

def passesAllowlist (env : ApiKeyEnv) (trusted : Option (List IpAddr)) (req : HttpRequest)
    (ipAllowlist : Option Json) : Bool :=
  let allowed := allowedOf ipAllowlist
  allowed.isEmpty || allowed.any (ipMatches env (extractClientIp req trusted))

/-- `rateAllows` is the answer of the rate limiter. -/
def passesRateLimit (rateLimit : Option Int) (rateAllows : Bool) : Bool :=
  match rateLimit with
  | some limit => limit ≤ 0 || rateAllows
  | none => true

/-- The cached path, for an entry that is not past its expiry. -/
def cachedDecision (env : ApiKeyEnv) (trusted : Option (List IpAddr)) (req : HttpRequest)
    (rateAllows : Bool) (cached : CachedApiKey) : Except Nat ApiKeyAuth :=
  if !passesAllowlist env trusted req cached.ipAllowlist then .error 403
  else if !passesRateLimit cached.rateLimit rateAllows then .error 429
  else .ok ⟨cached.keyId, cached.name, cached.scopes⟩

/-- The database path, for the row that matched. -/
def recordDecision (env : ApiKeyEnv) (trusted : Option (List IpAddr)) (req : HttpRequest)
    (now : DateTime) (rateAllows : Bool) (record : ApiKey) : Except Nat ApiKeyAuth :=
  if isPast record.expiresAt now then .error 401
  else if !passesAllowlist env trusted req record.ipAllowlist then .error 403
  else if !passesRateLimit record.rateLimit rateAllows then .error 429
  else .ok ⟨record.id, record.name, scopesOf record.scopes⟩

/-! ### The middleware -/

structure AuthState where
  cache : ApiKeyCache
  apiKeys : Table ApiKey

/-- The decision and what becomes of the cache. -/
def requireApiKey (env : ApiKeyEnv) (trusted : Option (List IpAddr)) (req : HttpRequest)
    (now : Clock) (rateAllows : Bool) (s : AuthState) : Except Nat ApiKeyAuth × ApiKeyCache :=
  let keyStr := extractKeyFromRequest req
  if keyStr = "" then (.error 401, s.cache)
  else
    match s.cache.get (env.computeKey keyStr) now.instant with
    | some cached =>
      if isPast cached.expiresAt now.utc then (.error 401, s.cache.invalidate)
      else (cachedDecision env trusted req rateAllows cached, s.cache)
    | none =>
      match (s.apiKeys.filter ApiKey.isActive).find? fun k => env.verifySecret keyStr k.keyHash with
      | none => (.error 401, s.cache)
      | some record =>
        match recordDecision env trusted req now.utc rateAllows record with
        | .ok auth =>
          (.ok auth, s.cache.insert (env.computeKey keyStr) (cachedOf record now.instant))
        | .error status => (.error status, s.cache)

/-- The entry the decision is taken on: the cached one, or the one the matching row
would be cached as. -/
def recordFor (env : ApiKeyEnv) (now : Clock) (s : AuthState) (keyStr : String) :
    Option CachedApiKey :=
  match s.cache.get (env.computeKey keyStr) now.instant with
  | some cached => some cached
  | none =>
    ((s.apiKeys.filter ApiKey.isActive).find? fun k => env.verifySecret keyStr k.keyHash).map
      (cachedOf · now.instant)

section

variable {env : ApiKeyEnv} {trusted : Option (List IpAddr)} {req : HttpRequest} {now : Clock}
  {rateAllows : Bool} {s : AuthState} {g : CachedApiKey}

/-- Both paths decide alike on the same key. -/
theorem recordDecision_eq (record : ApiKey) (instant : Nat) :
    recordDecision env trusted req now.utc rateAllows record =
      if isPast (cachedOf record instant).expiresAt now.utc then .error 401
      else cachedDecision env trusted req rateAllows (cachedOf record instant) := rfl

/-- **The decision depends on the entry alone**, not on where it was found. -/
theorem requireApiKey_fst (hkey : extractKeyFromRequest req ≠ "")
    (hfound : recordFor env now s (extractKeyFromRequest req) = some g) :
    (requireApiKey env trusted req now rateAllows s).1 =
      if isPast g.expiresAt now.utc then .error 401
      else cachedDecision env trusted req rateAllows g := by
  unfold recordFor at hfound
  rw [requireApiKey, if_neg hkey]
  cases hget : s.cache.get (env.computeKey (extractKeyFromRequest req)) now.instant with
  | some cached =>
    rw [hget] at hfound
    cases hfound
    dsimp only
    split <;> rfl
  | none =>
    rw [hget] at hfound
    obtain ⟨record, hrecord, rfl⟩ := Option.map_eq_some_iff.mp hfound
    rw [hrecord, ← recordDecision_eq]
    dsimp only
    split
    next auth h => exact h.symm
    next status h => exact h.symm

/-! ### The address an allowlist is about -/

def forwardedFor : String := "x-forwarded-for"

/-- The hops of one header value.  A value that is no text, or a hop that is no
address, has no address. -/
def hopsOf (value : List UInt8) : List (Option IpAddr) :=
  match headerToStr value with
  | some text => (Text.split ',' text).map fun hop => IpAddr.parse (Text.trim hop)
  | none => [none]

/-- The hops of all `X-Forwarded-For` values, the one appended last at the end. -/
def hops (headers : List (String × List UInt8)) : List (Option IpAddr) :=
  (headers.filter fun h => h.1 = forwardedFor).flatMap fun h => hopsOf h.2

/-- Whether a hop is anything but a trusted proxy. -/
def isForeign (trusted : List IpAddr) (hop : Option IpAddr) : Bool :=
  !hop.any fun ip => ip ∈ trusted

/-- The peer, or behind trusted proxies the right-most hop that is none of them. -/
def realAddress (trusted : List IpAddr) (peer : IpAddr) (headers : List (String × List UInt8)) :
    Option IpAddr :=
  if peer ∈ trusted then ((hops headers).reverse.find? (isForeign trusted)).getD (some peer)
  else some peer

/-- Whether an address matches an entry of an allowlist. -/
def matchesAllowlist (env : ApiKeyEnv) (address : Option IpAddr) (ipAllowlist : Option Json) :
    Bool :=
  address.any fun ip => (allowedOf ipAllowlist).any (ipMatches env ip.toStr)

/-- The same request but for what the client itself can write to the left of the hops
the trusted proxies append. -/
structure SameButClientPart (trusted : List IpAddr) (peer : IpAddr)
    (headers headers' : List (String × List UInt8)) : Prop where
  others : headers'.filter (fun h => h.1 ≠ forwardedFor) =
    headers.filter fun h => h.1 ≠ forwardedFor
  appended : peer ∈ trusted → ∃ suffix, suffix.any (isForeign trusted) ∧
    suffix <:+ hops headers ∧ suffix <:+ hops headers'

theorem find?_reverse_of_suffix {trusted : List IpAddr} {suffix hs : List (Option IpAddr)}
    (hforeign : suffix.any (isForeign trusted)) (hsuffix : suffix <:+ hs) :
    hs.reverse.find? (isForeign trusted) = suffix.reverse.find? (isForeign trusted) := by
  obtain ⟨written, rfl⟩ := hsuffix
  rw [List.reverse_append, List.find?_append]
  obtain ⟨hop, hhop⟩ : ∃ hop, suffix.reverse.find? (isForeign trusted) = some hop := by
    rw [← Option.isSome_iff_exists, List.find?_isSome]
    obtain ⟨hop, hmem, hhop⟩ := List.any_eq_true.mp hforeign
    exact ⟨hop, List.mem_reverse.mpr hmem, hhop⟩
  rw [hhop, Option.some_or]

/-- **What the client writes does not move the real address.** -/
theorem realAddress_eq_of_sameButClientPart {trusted : List IpAddr} {peer : IpAddr}
    {headers headers' : List (String × List UInt8)}
    (h : SameButClientPart trusted peer headers headers') :
    realAddress trusted peer headers' = realAddress trusted peer headers := by
  unfold realAddress
  by_cases hpeer : peer ∈ trusted
  · obtain ⟨suffix, hforeign, hs, hs'⟩ := h.appended hpeer
    rw [find?_reverse_of_suffix hforeign hs, find?_reverse_of_suffix hforeign hs']
  · rw [if_neg hpeer, if_neg hpeer]

/-! ### What the allowlist decides -/

/-- The middleware lets a request past the allowlist. -/
def PassesCheck (result : Except Nat ApiKeyAuth) : Prop := result ≠ .error 403

theorem passesCheck_iff (hkey : extractKeyFromRequest req ≠ "")
    (hfound : recordFor env now s (extractKeyFromRequest req) = some g)
    (hfresh : isPast g.expiresAt now.utc = false) :
    PassesCheck (requireApiKey env trusted req now rateAllows s).1 ↔
      passesAllowlist env trusted req g.ipAllowlist := by
  rw [requireApiKey_fst hkey hfound, hfresh, PassesCheck, cachedDecision]
  cases hallow : passesAllowlist env trusted req g.ipAllowlist with
  | false => simp
  | true => cases hrate : passesRateLimit g.rateLimit rateAllows <;> simp

/-- A served request has no address. -/
theorem extractClientIp_serve (peer : IpAddr) (headers : List (String × List UInt8)) :
    extractClientIp (serve peer headers) trusted = "" := by
  have hnone : (serve peer headers).socketAddr = none := rfl
  unfold extractClientIp
  rw [hnone]
  dsimp only
  split
  next => rfl
  next h _ => cases h
  next => rfl

/-- No address matches the empty pattern alone. -/
theorem ipMatches_empty (pattern : String) : ipMatches env "" pattern = (pattern == "") := by
  unfold ipMatches
  by_cases hslash : '/' ∈ pattern.toList
  · have hne : pattern ≠ "" := by
      rintro rfl
      simp at hslash
    rw [if_pos hslash, IpAddr.parse_empty, beq_false_of_ne hne]
    cases env.parseNet pattern <;> rfl
  · rw [if_neg hslash, Bool.beq_comm]

/-- The allowlists that a request without an address passes: those without entries that are
texts, and those with an empty entry. -/
def OpenList (ipAllowlist : Option Json) : Prop :=
  allowedOf ipAllowlist = [] ∨ "" ∈ allowedOf ipAllowlist

instance (ipAllowlist : Option Json) : Decidable (OpenList ipAllowlist) :=
  inferInstanceAs (Decidable (_ ∨ _))

/-- A served request passes the allowlists that are open, and no others. -/
theorem passesAllowlist_serve {peer : IpAddr} {headers : List (String × List UInt8)}
    {ipAllowlist : Option Json} :
    passesAllowlist env trusted (serve peer headers) ipAllowlist ↔ OpenList ipAllowlist := by
  rw [passesAllowlist, extractClientIp_serve, Bool.or_eq_true, List.isEmpty_iff,
    List.any_eq_true, OpenList]
  refine or_congr_right ⟨?_, ?_⟩
  · rintro ⟨pattern, hmem, hmatch⟩
    rw [ipMatches_empty, beq_iff_eq] at hmatch
    rwa [← hmatch]
  · intro hmem
    exact ⟨"", hmem, by rw [ipMatches_empty, beq_self_eq_true]⟩

theorem header_eq_of_others {headers headers' : List (String × List UInt8)} {peer : IpAddr}
    {name : String} (hname : name ≠ forwardedFor)
    (h : headers'.filter (fun h => h.1 ≠ forwardedFor) =
      headers.filter fun h => h.1 ≠ forwardedFor) :
    (serve peer headers').header name = (serve peer headers).header name := by
  have hskip : ∀ hs : List (String × List UInt8),
      hs.find? (fun h => h.1 = name) =
        (hs.filter fun h => h.1 ≠ forwardedFor).find? fun h => h.1 = name := by
    intro hs
    rw [List.find?_filter]
    congr 1
    funext h
    by_cases hh : h.1 = name
    · simp [hh, hname]
    · simp [hh]
  rw [HttpRequest.header, HttpRequest.header, serve, serve, hskip headers', h, ← hskip]

/-- The key of a request is in none of the headers the hops are in. -/
theorem extractKeyFromRequest_eq_of_others {headers headers' : List (String × List UInt8)}
    (peer : IpAddr) (h : headers'.filter (fun h => h.1 ≠ forwardedFor) =
      headers.filter fun h => h.1 ≠ forwardedFor) :
    extractKeyFromRequest (serve peer headers') = extractKeyFromRequest (serve peer headers) := by
  rw [extractKeyFromRequest, extractKeyFromRequest, header_eq_of_others (by decide) h,
    header_eq_of_others (by decide) h]

/-- An allowlist is enforced on a request: it decides by the real address, the part
the client writes changes nothing, and neither does the path that finds the key. -/
structure AllowlistEnforced (env : ApiKeyEnv) (trusted : Option (List IpAddr)) (peer : IpAddr)
    (headers : List (String × List UInt8)) (now : Clock) (rateAllows : Bool) (s : AuthState)
    (ipAllowlist : Option Json) : Prop where
  real_address : PassesCheck (requireApiKey env trusted (serve peer headers) now rateAllows s).1 ↔
    matchesAllowlist env (realAddress (trusted.getD []) peer headers) ipAllowlist
  client_part : ∀ headers', SameButClientPart (trusted.getD []) peer headers headers' →
    (PassesCheck (requireApiKey env trusted (serve peer headers') now rateAllows s).1 ↔
      PassesCheck (requireApiKey env trusted (serve peer headers) now rateAllows s).1)
  paths_alike : ∀ (s' : AuthState) (g' : CachedApiKey),
    recordFor env now s' (extractKeyFromRequest (serve peer headers)) = some g' →
    isPast g'.expiresAt now.utc = false → g'.ipAllowlist = ipAllowlist →
    (PassesCheck (requireApiKey env trusted (serve peer headers) now rateAllows s').1 ↔
      PassesCheck (requireApiKey env trusted (serve peer headers) now rateAllows s).1)

/-- **An allowlist is enforced on a request exactly when its real address matches an
entry if and only if the list is open.**  The client's part of the headers and the path never
change the decision. -/
theorem allowlist_enforced_iff {peer : IpAddr} {headers : List (String × List UInt8)}
    (hkey : extractKeyFromRequest (serve peer headers) ≠ "")
    (hfound : recordFor env now s (extractKeyFromRequest (serve peer headers)) = some g)
    (hfresh : isPast g.expiresAt now.utc = false) :
    AllowlistEnforced env trusted peer headers now rateAllows s g.ipAllowlist ↔
      (OpenList g.ipAllowlist ↔
        matchesAllowlist env (realAddress (trusted.getD []) peer headers) g.ipAllowlist) := by
  have hpasses : PassesCheck (requireApiKey env trusted (serve peer headers) now rateAllows s).1 ↔
      OpenList g.ipAllowlist :=
    (passesCheck_iff hkey hfound hfresh).trans passesAllowlist_serve
  constructor
  · intro h
    rw [← h.real_address, hpasses]
  · intro hmatch
    refine ⟨hpasses.trans hmatch, ?_, ?_⟩
    · intro headers' hsame
      have hkeyEq := extractKeyFromRequest_eq_of_others peer hsame.others
      rw [hpasses, passesCheck_iff (by rwa [hkeyEq]) (by rwa [hkeyEq]) hfresh,
        passesAllowlist_serve]
    · intro s' g' hfound' hfresh' hsame
      rw [hpasses, passesCheck_iff hkey hfound' hfresh', hsame, passesAllowlist_serve]

end

/-! ### A key for one address -/

namespace OneAddress

def address : IpAddr := .v4 ⟨10, 0, 0, 1⟩

def env : ApiKeyEnv where
  verifySecret secret hash := secret == hash
  computeKey := id
  parseNet _ := none

def row : ApiKey where
  id := Uuid.nil
  name := "ci"
  keyHash := "ck_1"
  scopes := .arr [.str "nodes:read"]
  ipAllowlist := some (.arr [.str "10.0.0.1"])
  rateLimit := none
  expiresAt := none
  isActive := true
  updatedAt := ⟨0, 0⟩

def state : AuthState := ⟨fun _ => none, ⟨[row], by decide⟩⟩
def headers : List (String × List UInt8) := [("x-api-key", [99, 107, 95, 49])]
def now : Clock := ⟨⟨0, 0⟩, 0⟩

end OneAddress

open OneAddress in
/-- The allowed client itself is turned away. -/
theorem allowed_client_forbidden :
    (requireApiKey env none (serve address headers) now true state).1 = .error 403 ∧
      matchesAllowlist env (realAddress [] address headers) row.ipAllowlist = true ∧
      ¬ AllowlistEnforced env none address headers now true state row.ipAllowlist := by
  have hforbidden : (requireApiKey env none (serve address headers) now true state).1 =
      .error 403 := by
    decide
  have hmatch : matchesAllowlist env (realAddress [] address headers) row.ipAllowlist = true := by
    decide
  refine ⟨hforbidden, hmatch, fun h => ?_⟩
  exact h.real_address.mpr hmatch hforbidden

open OneAddress in
theorem allowlist_enforced_iff_one_address :
    AllowlistEnforced env none address headers now true state row.ipAllowlist ↔
      (OpenList row.ipAllowlist ↔
        matchesAllowlist env (realAddress [] address headers) row.ipAllowlist) :=
  allowlist_enforced_iff (g := cachedOf row 0) (by decide) (by rfl) (by decide)

end ProxyPanel.Hub
