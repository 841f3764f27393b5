import ProxyPanel.Hub.ProxyNodes
import ProxyPanel.Hub.RealityInbound

/-!
# One reading of the settings

The server puts the override of a binding on top of the settings of its config and builds the
inbound from the result.  The subscription takes the settings of the config as they are.
`settingsAgree_iff` says when the two have the same transport, obfuscation and REALITY
parameters all the same, and `settingsAgree_of_untouched` names the keys an override has to
leave alone.
-/

namespace ProxyPanel.Hub.EffectiveSettings

open Json Builder Query SettingsHelper

/-- What a client has to match, apart from its credentials. -/
@[ext]
structure Parameters where
  transport : Option Json := none
  obfs : Option (String × String) := none
  serverNames : List String := []
  shortIds : List String := []

/-! ### Read off the settings -/

/-- Network, path, host and service name of a sing-box inbound; path, host and mode of a listener
for XHTTP. -/
def transport (core : CoreType) (protocol : ProtocolType) (settings : Json) : Option Json :=
  match core, protocol with
  | .singBox, .vlessReality =>
    match SingBox.buildTransport ((settings.getStr "network").getD "tcp") settings with
    | null => none
    | transport => some transport
  | .mihomo, .vlessXhttp => some (mkObj [
      ("path", str ((settings.getStrAny ["xhttp_path", "path"]).getD "/")),
      ("host", str ((settings.getStrAny ["xhttp_host", "host"]).getD "")),
      ("mode", str ((settings.getStrAny ["xhttp_mode", "mode"]).getD "auto"))])
  | _, _ => none

/-- Type and password of the obfuscation, when there is one. -/
def obfs (settings : Json) : Option (String × String) :=
  let type := (settings.getStr "obfs_type").getD "none"
  let password := (settings.getStr "obfs_password").getD ""
  if type ≠ "none" ∧ password ≠ "" then some (type, password) else none

/-- The parameters as the builder of a core reads them. -/
def parameters (core : CoreType) (protocol : ProtocolType) (settings : Json) : Parameters :=
  match protocol with
  | .vlessReality => {
      transport := transport core .vlessReality settings
      serverNames := serverNames core settings
      shortIds := shortIds core settings }
  | .vlessXhttp => { transport := transport core .vlessXhttp settings }
  | .hysteria2 => { obfs := obfs settings }
  | .anytls => {}

/-- The keys the builders look for them under. -/
def parameterKeys : List String :=
  ["network", "path", "xhttp_path", "host", "xhttp_host", "mode", "xhttp_mode", "service_name",
    "obfs_type", "obfs_password", "short_id", "reality_short_id", "server_names",
    "reality_server_names", "dest", "reality_dest"]

/-! ### Read off the inbound -/

/-- The transport of an inbound. -/
def transportOf (core : CoreType) (inbound : Json) : Option Json :=
  match core with
  | .singBox => inbound.get "transport"
  | .mihomo => inbound.get "xhttp-config"

/-- The obfuscation of an inbound. -/
def obfsOf (core : CoreType) (inbound : Json) : Option (String × String) :=
  match core with
  | .singBox => (inbound.get "obfs").bind fun obfs =>
      (obfs.getStr "type").bind fun type => (obfs.getStr "password").map fun password => (type, password)
  | .mihomo => (inbound.getStr "obfs").bind fun type =>
      (inbound.getStr "obfs-password").map fun password => (type, password)

/-- The parameters an emitted inbound has. -/
def parametersOf (core : CoreType) (protocol : ProtocolType) (inbound : Json) : Parameters :=
  match protocol with
  | .vlessReality => {
      transport := transportOf core inbound
      serverNames := Inbound.serverNames core inbound
      shortIds := Inbound.shortIds core inbound }
  | .vlessXhttp => { transport := transportOf core inbound }
  | .hysteria2 => { obfs := obfsOf core inbound }
  | .anytls => {}

/-! ### The two readings -/

theorem transportOf_buildInbound {core : CoreType} {protocol : ProtocolType}
    (hvless : protocol.isVless = true) {settings inbound : Json} {tls : Option Json}
    (h : buildInbound core protocol settings tls = .ok inbound) :
    transportOf core inbound = transport core protocol settings := by
  cases core with
  | singBox =>
    cases protocol with
    | vlessReality =>
      change SingBox.buildVlessInbound settings = _ at h
      have hbase : ∀ users, (SingBox.inboundBase "vless" "vless-in" settings users).get "transport" =
          none := fun users => by rw [SingBox.inboundBase, get_mkObj]; rfl
      have hobject : ∀ users, (SingBox.inboundBase "vless" "vless-in" settings users).isObject =
          true := fun users => isObject_mkObj _
      simp only [SingBox.buildVlessInbound] at h
      split at h
      · cases h
        rw [transportOf, transport, get_setIndex_of_ne _ (by decide)]
        cases SingBox.buildTransport ((settings.getStr "network").getD "tcp") settings with
        | null => exact hbase _
        | _ => exact get_setIndex_self (hobject _) _ _
      · cases h
    | vlessXhttp => cases h
    | hysteria2 => cases hvless
    | anytls => cases hvless
  | mihomo =>
    cases protocol with
    | vlessReality =>
      change Mihomo.buildVlessRealityListener settings = _ at h
      rw [Mihomo.buildVlessRealityListener] at h
      split at h
      · cases h
        rw [transportOf, get_setIndex_of_ne _ (by decide), Mihomo.listenerWith,
          get_setIndex_of_ne _ (by decide), get_setIndex_of_ne _ (by decide), Mihomo.listenerBase,
          get_mkObj]
        rfl
      · cases h
    | vlessXhttp =>
      obtain ⟨listener, hlistener, h⟩ := Except.bind_eq_ok (show _ >>= _ = _ from h)
      cases h
      exact get_setIndex_self (Mihomo.sameUsers_applyCertTls rfl hlistener).1 _ _
    | hysteria2 => cases hvless
    | anytls => cases hvless

theorem obfsOf_masquerade (j : Json) (value : Option String) : obfsOf .mihomo (match value with
    | some masquerade => j.setIndex "masquerade" (str masquerade)
    | none => j) = obfsOf .mihomo j := by
  cases value with
  | none => rfl
  | some masquerade =>
    simp only [obfsOf, getStr]
    rw [get_setIndex_of_ne _ (by decide), get_setIndex_of_ne _ (by decide)]

theorem obfsOf_hysteria2 {core : CoreType} {settings inbound : Json} {tls : Option Json}
    (h : buildInbound core .hysteria2 settings tls = .ok inbound) :
    obfsOf core inbound = obfs settings := by
  cases core with
  | singBox =>
    obtain ⟨cert, hcert, h⟩ := Except.bind_eq_ok
      (show SingBox.buildHysteria2Inbound settings tls = .ok inbound from h)
    cases h
    have hobject : ∀ users (a b c : Json), ((((SingBox.inboundBase "hysteria2" "hy2-in" settings
        users).set "tls" a).set "up_mbps" b).set "down_mbps" c).isObject = true := fun _ _ _ _ => by
      simp only [isObject_set]
      rfl
    rw [obfsOf, obfs]
    by_cases hset : (settings.getStr "obfs_type").getD "none" ≠ "none" ∧
        (settings.getStr "obfs_password").getD "" ≠ ""
    · simp only [if_pos hset]
      rw [get_setIndex_self (hobject _ _ _ _)]
      simp only [Option.bind_some, getStr, get_mkObj]
      rfl
    · simp only [if_neg hset]
      rw [get_set_of_ne _ (by decide), get_set_of_ne _ (by decide), get_set_of_ne _ (by decide),
        SingBox.inboundBase, get_mkObj]
      rfl
  | mihomo =>
    obtain ⟨listener, hlistener, h⟩ := Except.bind_eq_ok
      (show Mihomo.buildHysteria2Listener settings tls = .ok inbound from h)
    have hobject : ∀ a b c : Json, (((listener.setIndex "alpn" a).setIndex "up" b).setIndex
        "down" c).isObject = true := fun _ _ _ => isObject_setIndex (isObject_setIndex
      (isObject_setIndex (Mihomo.sameUsers_applyCertTls rfl hlistener).1 _ _) _ _) _ _
    cases h
    refine (obfsOf_masquerade _ _).trans ?_
    rw [obfs, getStrAny_singleton, getStrAny_singleton]
    generalize (settings.getStr "obfs_type").getD "none" = type,
      (settings.getStr "obfs_password").getD "" = password
    by_cases hset : type ≠ "none" ∧ password ≠ ""
    · simp only [if_pos hset, obfsOf, getStr]
      rw [get_setIndex_self (isObject_setIndex (hobject _ _ _) _ _), get_setIndex_of_ne _ (by decide),
        get_setIndex_self (hobject _ _ _)]
      rfl
    · have hplain : listener.get "obfs" = none := by
        rw [Mihomo.get_applyCertTls hlistener (by decide), Mihomo.listenerWith,
          get_setIndex_of_ne _ (by decide), get_setIndex_of_ne _ (by decide), Mihomo.listenerBase,
          get_mkObj]
        rfl
      simp only [if_neg hset, obfsOf, getStr]
      rw [get_setIndex_of_ne _ (by decide), get_setIndex_of_ne _ (by decide),
        get_setIndex_of_ne _ (by decide), hplain]
      rfl

/-- **What an emitted inbound has is what its builder reads.** -/
theorem parametersOf_buildInbound {core : CoreType} {protocol : ProtocolType} {settings inbound : Json}
    {tls : Option Json} (h : buildInbound core protocol settings tls = .ok inbound) :
    parametersOf core protocol inbound = parameters core protocol settings := by
  cases protocol with
  | vlessReality =>
    rw [parametersOf, parameters, transportOf_buildInbound rfl h, serverNames_buildInbound h,
      shortIds_buildInbound h]
  | vlessXhttp => rw [parametersOf, parameters, transportOf_buildInbound rfl h]
  | hysteria2 => rw [parametersOf, parameters, obfsOf_hysteria2 h]
  | anytls => rfl

/-! ### Which keys count -/

theorem getStrAny_congr {s s' : Json} {ks : List String} (h : ∀ k ∈ ks, s'.get k = s.get k) :
    s'.getStrAny ks = s.getStrAny ks := by
  rw [getStrAny, getStrAny]
  induction ks with
  | nil => rfl
  | cons k ks ih =>
    rw [List.findSome?_cons, List.findSome?_cons, getStr, getStr, h k List.mem_cons_self,
      ih fun k' hk' => h k' (List.mem_cons_of_mem k hk')]

/-- The builders read the parameters from `parameterKeys`. -/
theorem parameters_congr (core : CoreType) (protocol : ProtocolType) {s s' : Json}
    (h : ∀ k ∈ parameterKeys, s'.get k = s.get k) :
    parameters core protocol s' = parameters core protocol s := by
  have hstr : ∀ k ∈ parameterKeys, s'.getStr k = s.getStr k := fun k hk => by
    rw [getStr, h k hk, getStr]
  have hany : ∀ ks, (∀ k ∈ ks, k ∈ parameterKeys) → s'.getStrAny ks = s.getStrAny ks := fun ks hks =>
    getStrAny_congr fun k hk => h k (hks k hk)
  have htransport : transport core protocol s' = transport core protocol s := by
    simp only [transport, SingBox.buildTransport, strOr, hstr "network" (by decide),
      hstr "host" (by decide), hstr "path" (by decide), hstr "service_name" (by decide),
      hany ["path", "xhttp_path"] (by decide), hany ["host", "xhttp_host"] (by decide),
      hany ["xhttp_path", "path"] (by decide), hany ["xhttp_host", "host"] (by decide),
      hany ["xhttp_mode", "mode"] (by decide)]
  have hobfs : obfs s' = obfs s := by
    rw [obfs, obfs, hstr "obfs_type" (by decide), hstr "obfs_password" (by decide)]
  have hnames : serverNames core s' = serverNames core s := by
    simp only [serverNames, firstServerName, destHost, h "server_names" (by decide),
      h "reality_server_names" (by decide), hany ["reality_dest", "dest"] (by decide),
      hany ["reality_server_names", "server_names"] (by decide)]
  have hids : shortIds core s' = shortIds core s := by
    have hfirst : firstShortId s' = firstShortId s := by
      rw [firstShortId, firstShortId, h "short_id" (by decide), h "reality_short_id" (by decide)]
    unfold shortIds
    rw [hfirst, h "short_id" (by decide), h "reality_short_id" (by decide),
      hany ["reality_short_id", "short_id"] (by decide)]
  cases protocol with
  | vlessReality => rw [parameters, parameters, htransport, hnames, hids]
  | vlessXhttp => rw [parameters, parameters, htransport]
  | hysteria2 => rw [parameters, parameters, hobfs]
  | anytls => rfl

/-! ### Agreement -/

/-- **Effective settings agreement.**  The node a client gets for a binding has the parameters
the emitted inbound of the binding has. -/
def SettingsAgree (core : CoreType) (pn : ProxyNode) (inbound : Json) : Prop :=
  parameters core pn.protocol pn.settings = parametersOf core pn.protocol inbound

/-- The override of a binding leaves the parameters as they are. -/
def ParametersKept (config : ProtocolConfig) (binding : NodeBinding) (protocol : ProtocolType) : Prop :=
  parameters (parseCoreType config.coreType) protocol (mergedSettings config binding) =
    parameters (parseCoreType config.coreType) protocol config.settings

/-- The node has the parameters of the config. -/
theorem parameters_accessibleNode {substitute : Substitution} {client : Client}
    {binding : NodeBinding} {config : ProtocolConfig} {node : Node} {protocol : ProtocolType} {db : Db}
    {pn : ProxyNode} (core : CoreType)
    (hhost : db.inboundHosts.one (fun h =>
      h.protocolConfigId = config.id ∧ h.nodeId = node.id ∧ h.isActive) = none)
    (h : (accessibleNode substitute client binding config node protocol).exec db = .ok pn) :
    parameters core protocol pn.settings = parameters core protocol config.settings := by
  obtain ⟨-, hsettings, -, -⟩ := accessibleNode_ok h
  rw [hhost, withHost] at hsettings
  refine parameters_congr core protocol fun k hk => ?_
  have hdisjoint : ∀ k ∈ parameterKeys, k ∉ ["clients", "id"] := by decide
  rw [hsettings, get_injectClientCredentials _ _ _ (hdisjoint k hk)]

/-- The inbound has the parameters of the merged settings. -/
theorem parametersOf_inboundFor {db : Db} {nodeId : Uuid} {core : CoreType} {binding : NodeBinding}
    {config : ProtocolConfig} {protocol : ProtocolType} {inbound : Json}
    (hconfig : db.protocolConfigs.find binding.protocolConfigId = some config)
    (hprotocol : ProtocolType.fromStr? config.protocolType = some protocol)
    (h : inboundFor db nodeId core binding = some inbound) :
    parametersOf core protocol inbound = parameters core protocol (mergedSettings config binding) := by
  obtain ⟨config', protocol', tls, hconfig', -, hprotocol', -, hbuilt⟩ := inboundFor_eq_some h
  cases hconfig.symm.trans hconfig'
  cases hprotocol.symm.trans hprotocol'
  rw [parametersOf_buildInbound hbuilt]
  refine parameters_congr core protocol fun k hk => ?_
  have hdisjoint : ∀ k ∈ parameterKeys, k ≠ "port" ∧ k ≠ "listen" ∧ k ≠ "tag" ∧ k ≠ "clients" := by
    decide
  obtain ⟨hport, hlisten, htag, hclients⟩ := hdisjoint k hk
  rw [withListen, get_set_of_ne _ htag, get_set_of_ne _ hlisten, get_set_of_ne _ hport, injected]
  split
  · rfl
  · exact get_set_of_ne _ hclients _

/-- An override of other keys leaves the parameters as they are. -/
theorem parametersKept_of_untouched {config : ProtocolConfig} {binding : NodeBinding}
    (protocol : ProtocolType) (h : ∀ overrides, binding.overrideSettings.bind asObject = some overrides →
      ∀ e ∈ overrides, e.1 ∉ parameterKeys) : ParametersKept config binding protocol := by
  refine parameters_congr _ _ fun k hk => ?_
  rw [mergedSettings]
  cases hoverrides : binding.overrideSettings.bind asObject with
  | none => rfl
  | some overrides =>
    refine get_setAll_of_not_mem _ fun e he heq => ?_
    exact h overrides hoverrides e (List.mem_of_mem_filter he) (heq ▸ hk)

/-- **When a binding has one set of parameters**: its override leaves them as they are. -/
theorem settingsAgree_iff {db : Db} {substitute : Substitution} {client : Client}
    {binding : NodeBinding} {config : ProtocolConfig} {node : Node} {protocol : ProtocolType}
    {pn : ProxyNode} {inbound : Json}
    (hconfig : db.protocolConfigs.find binding.protocolConfigId = some config)
    (hprotocol : ProtocolType.fromStr? config.protocolType = some protocol)
    (hhost : db.inboundHosts.one (fun h =>
      h.protocolConfigId = config.id ∧ h.nodeId = node.id ∧ h.isActive) = none)
    (hnode : (accessibleNode substitute client binding config node protocol).exec db = .ok pn)
    (hinbound : inboundFor db binding.nodeId (parseCoreType config.coreType) binding = some inbound) :
    SettingsAgree (parseCoreType config.coreType) pn inbound ↔
      ParametersKept config binding protocol := by
  rw [SettingsAgree, ParametersKept, (accessibleNode_ok hnode).1,
    parameters_accessibleNode _ hhost hnode, parametersOf_inboundFor hconfig hprotocol hinbound]
  exact eq_comm

namespace MovedObfuscation

/-- A hysteria2 config with obfuscation. -/
def config : ProtocolConfig :=
  { PresetUser.config with
    protocolType := "hysteria2", coreType := "sing-box"
    settings := mkObj [("obfs_type", str "salamander"), ("obfs_password", str "first")]
    tlsSettings := some (mkObj [("certFile", str "/etc/ssl/node.crt"),
      ("keyFile", str "/etc/ssl/node.key")]) }

def binding (overrides : Option Json) : NodeBinding :=
  { PresetUser.binding with overrideSettings := overrides }

/-- An override of the password. -/
def moved : Json := mkObj [("obfs_password", str "second")]

def db (overrides : Option Json) : Db where
  nodes := .single OnHold.node
  protocolConfigs := .single config
  nodeBindings := .single (binding overrides)

theorem exists_inbound (overrides : Option Json) (h : (inboundFor (db overrides)
    (binding overrides).nodeId (parseCoreType config.coreType) (binding overrides)).isSome = true) :
    ∃ inbound, inboundFor (db overrides) (binding overrides).nodeId
      (parseCoreType config.coreType) (binding overrides) = some inbound :=
  Option.isSome_iff_exists.mp h

theorem find_config (overrides : Option Json) :
    (db overrides).protocolConfigs.find (binding overrides).protocolConfigId = some config :=
  Table.find_eq_some_iff.mpr ⟨List.mem_singleton_self _, rfl⟩

end MovedObfuscation

/-- Without an override the parameters are those of the config. -/
theorem settingsAgree_iff_plain : ∃ pn inbound,
    (accessibleNode OnHold.substitute OnHold.client (MovedObfuscation.binding none)
        MovedObfuscation.config OnHold.node .hysteria2).exec (MovedObfuscation.db none) = .ok pn ∧
      inboundFor (MovedObfuscation.db none) PresetUser.node .singBox (MovedObfuscation.binding none) =
        some inbound ∧ SettingsAgree .singBox pn inbound := by
  obtain ⟨pn, hpn⟩ := succeeds_accessibleNode OnHold.substitute OnHold.client
    (MovedObfuscation.binding none) MovedObfuscation.config OnHold.node .hysteria2
    (MovedObfuscation.db none)
  obtain ⟨inbound, hinbound⟩ := MovedObfuscation.exists_inbound none (by decide)
  exact ⟨pn, inbound, hpn, hinbound, (settingsAgree_iff (MovedObfuscation.find_config none)
    (by decide) rfl hpn hinbound).mpr rfl⟩

/-- The server asks for the password of the override, the client sends that of the config. -/
theorem override_is_not_subscribed : ¬ ∀ (db : Db) (substitute : Substitution) (client : Client)
    (binding : NodeBinding) (config : ProtocolConfig) (node : Node) (protocol : ProtocolType)
    (pn : ProxyNode) (inbound : Json),
    db.protocolConfigs.find binding.protocolConfigId = some config →
    ProtocolType.fromStr? config.protocolType = some protocol →
    db.inboundHosts.one (fun h =>
      h.protocolConfigId = config.id ∧ h.nodeId = node.id ∧ h.isActive) = none →
    (accessibleNode substitute client binding config node protocol).exec db = .ok pn →
    inboundFor db binding.nodeId (parseCoreType config.coreType) binding = some inbound →
    SettingsAgree (parseCoreType config.coreType) pn inbound := by
  intro h
  obtain ⟨pn, hpn⟩ := succeeds_accessibleNode OnHold.substitute OnHold.client
    (MovedObfuscation.binding (some MovedObfuscation.moved)) MovedObfuscation.config OnHold.node
    .hysteria2 (MovedObfuscation.db (some MovedObfuscation.moved))
  obtain ⟨inbound, hinbound⟩ := MovedObfuscation.exists_inbound (some MovedObfuscation.moved)
    (by decide)
  have hconfig := MovedObfuscation.find_config (some MovedObfuscation.moved)
  have hprotocol : ProtocolType.fromStr? MovedObfuscation.config.protocolType = some .hysteria2 := by
    decide
  have hagree := h _ _ _ _ _ _ _ pn inbound hconfig hprotocol rfl hpn hinbound
  rw [SettingsAgree, (accessibleNode_ok hpn).1, parameters_accessibleNode _ rfl hpn,
    parametersOf_inboundFor hconfig hprotocol hinbound] at hagree
  have hfirst : obfs MovedObfuscation.config.settings = some ("salamander", "first") := by
    decide
  have hsecond : obfs (mergedSettings MovedObfuscation.config
      (MovedObfuscation.binding (some MovedObfuscation.moved))) = some ("salamander", "second") := by
    decide
  have hobfs : obfs MovedObfuscation.config.settings = obfs (mergedSettings MovedObfuscation.config
      (MovedObfuscation.binding (some MovedObfuscation.moved))) := congrArg Parameters.obfs hagree
  rw [hfirst, hsecond] at hobfs
  exact absurd hobfs (by decide)

end ProxyPanel.Hub.EffectiveSettings
