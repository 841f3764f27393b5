import ProxyPanel.Config.SingBox
import ProxyPanel.Config.Mihomo
import ProxyPanel.Hub.RelayRules

/-!
# Generating the configuration of a node

`generateNodeConfig` reads the active bindings of a node, turns each binding of
the target core into an inbound (`bindingInbound`), builds the configuration and
applies the relay rules.  `emitted_generateNodeConfig` is the specification the
access results start from: the emitted inbounds are, in order, those of the
bindings (`inboundFor`).
-/

namespace ProxyPanel.Hub

open Json Query

/-- What the generator takes from outside the database: the environment and the
JSON Schema check of sing-box configurations. -/
structure GenEnv where
  env : Env := {}
  validateSingboxConfig : Json → PanelResult Unit

/-- The entry of a client in the `clients` array of a protocol. -/
def clientToProtocolEntry (client : Client) (protocolType : String) : Json :=
  let fallback := client.id.toStr
  let email := client.email.getD fallback
  if Text.startsWith protocolType "vless" then
    let flow := if protocolType = "vless_reality" then "xtls-rprx-vision" else ""
    let entry := mkObj [("id", str client.id.toStr), ("email", str email), ("flow", str flow)]
    match client.maxDevices with
    | some limit => if 0 < limit then entry.set "limitIp" (num limit) else entry
    | none => entry
  else if protocolType = "hysteria2" ∨ protocolType = "anytls" then
    mkObj [("name", str email), ("password", str client.id.toStr)]
  else mkObj [("id", str client.id.toStr)]

/-- The active clients that share a group with the binding, as `clients` of the
settings.  The settings stay as they are when the binding has no group or no
client belongs to one of its groups. -/
def injectBindingClients (binding : NodeBinding) (protocolType : String) (settings : Json) :
    Program Json := do
  let bindingGroups ← read (·.nodeBindingGroupBindings.filter (·.nodeBindingId = binding.id))
  let groupIds := bindingGroups.map (·.groupId)
  if groupIds = [] then return settings
  else
  let clientBindings ← read (·.clientGroupBindings.filter (·.groupId ∈ groupIds))
  let clientIds := clientBindings.map (·.clientId)
  if clientIds = [] then return settings
  else
  let clients ← read (·.clients.filter fun c => c.id ∈ clientIds ∧ c.status = "active")
  return settings.set "clients" (arr (clients.map (clientToProtocolEntry · protocolType)))

/-- A managed certificate reference becomes the domain of the certificate, which
must belong to the node. -/
def resolveManagedCertTls (nodeId : Uuid) (tls : Option Json) : Program (Option Json) :=
  match tls with
  | none => return none
  | some tls =>
    match tls.getStr "cert_id" with
    | none => return some tls
    | some raw =>
      match Uuid.parse raw with
      | none => throw (.validation "invalid cert_id in tls_settings")
      | some certId => do
        match ← read (·.certificates.find certId) with
        | none => throw (.notFound ("certificate " ++ certId.toStr ++ " not found"))
        | some cert =>
          if cert.nodeId ≠ nodeId then
            throw (.validation ("certificate " ++ certId.toStr ++ " (" ++ cert.domain ++
              ") does not belong to this node"))
          else return some (mkObj [("managed_domain", str cert.domain)])

/-- The settings of a config with the override settings of a binding on top; TLS
settings are kept apart. -/
def mergedSettings (config : ProtocolConfig) (binding : NodeBinding) : Json :=
  match binding.overrideSettings.bind asObject with
  | some overrides => config.settings.setAll (overrides.filter (fun e => e.1 ≠ "tls_settings"))
  | none => config.settings

def overrideTls (binding : NodeBinding) : Option Json :=
  binding.overrideSettings.bind (·.get "tls_settings")

def configTag (config : ProtocolConfig) : String := config.name ++ "-" ++ config.id.toStr

/-- The settings with port, address and tag in place. -/
def withListen (config : ProtocolConfig) (settings : Json) : Json :=
  ((settings.set "port" (num config.listenPort)).set "listen" (str config.listenAddress)).set
    "tag" (str (configTag config))

/-- The inbound of a binding, `none` when its config is for another core. -/
def bindingInbound (nodeId : Uuid) (targetCore : CoreType) (version : Option String)
    (binding : NodeBinding) : Program (Option InboundConfig) := do
  match ← read (·.protocolConfigs.find binding.protocolConfigId) with
  | none => throw (.notFound ("protocol config " ++ binding.protocolConfigId.toStr ++ " not found"))
  | some config =>
    if parseCoreType config.coreType ≠ targetCore then return none
    else
    let protocol ← lift (parseProtocolType config.protocolType)
    let settings ← injectBindingClients binding config.protocolType (mergedSettings config binding)
    let tls ← resolveManagedCertTls nodeId
      (SettingsHelper.mergeTlsSettings config.tlsSettings (overrideTls binding))
    return some {
      tag := configTag config
      protocol
      listen := config.listenAddress
      port := (config.listenPort % 65536).toNat
      settings := withListen config settings
      tls
      coreVersion := version }

/-- The builder of a core. -/
def buildInbound : CoreType → ProtocolType → Json → Option Json → PanelResult Json
  | .singBox => SingBox.buildInbound
  | .mihomo => Mihomo.buildInbound

def buildFullConfig (env : Env) : CoreType → List InboundConfig → PanelResult Json
  | .singBox => SingBox.buildFullConfig env
  | .mihomo => Mihomo.buildFullConfig env

/-- The configuration of a node for a core, with the pinned core version. -/
def generateNodeConfig (gen : GenEnv) (nodeId : Uuid) (targetCore : CoreType) :
    Program (Json × Option String) := do
  let version ← effectiveCoreVersion targetCore
  let bindings ← read (·.nodeBindings.filter fun b => b.nodeId = nodeId ∧ b.isActive)
  let inbounds ← collect (bindingInbound nodeId targetCore version) bindings
  let config ← lift (buildFullConfig gen.env targetCore inbounds)
  let config ← applyRelayRules nodeId targetCore config
  if targetCore = .singBox then
    lift (gen.validateSingboxConfig config)
    return (config, version)
  else return (config, version)

/-! ### What is emitted -/

/-- The key of the inbounds in a configuration. -/
def inboundsKey : CoreType → String
  | .singBox => "inbounds"
  | .mihomo => "listeners"

/-- The inbounds or listeners of a generated configuration. -/
def emitted (core : CoreType) (config : Json) : List Json := (config.getArr (inboundsKey core)).getD []

/-- The active bindings of a node. -/
def activeBindings (db : Db) (nodeId : Uuid) : List NodeBinding :=
  db.nodeBindings.filter fun b => b.nodeId = nodeId ∧ b.isActive

/-- The version `generateNodeConfig` pins. -/
def pinnedVersion (db : Db) (core : CoreType) : Option String :=
  ((db.coreVersions.one (fun v => v.coreType = core.toStr ∧ v.isActive)).map (·.version)).or
    (match core with
      | .singBox => some "v1.13.14"
      | .mihomo => none)

/-- The inbound that is emitted for a binding of a node, `none` when its config
is for another core or it is left out for want of a certificate. -/
def inboundFor (db : Db) (nodeId : Uuid) (core : CoreType) (binding : NodeBinding) : Option Json :=
  match (bindingInbound nodeId core (pinnedVersion db core) binding).exec db with
  | .ok (some ib) => (buildInbound core ib.protocol ib.settings ib.tls).toOption
  | _ => none

theorem exec_effectiveCoreVersion (db : Db) (core : CoreType) :
    (effectiveCoreVersion core).exec db = .ok (pinnedVersion db core) := rfl

theorem inboundsKey_not_mem_relayKeys (core : CoreType) : inboundsKey core ∉ relayKeys core := by
  cases core <;> decide

theorem emitted_buildFullConfig {env : Env} {core : CoreType} {ibs : List InboundConfig}
    {config : Json} (h : buildFullConfig env core ibs = .ok config) :
    emitted core config =
      ibs.filterMap (fun ib => (buildInbound core ib.protocol ib.settings ib.tls).toOption) := by
  cases core with
  | singBox => rw [emitted, inboundsKey, SingBox.getArr_buildFullConfig h]; rfl
  | mihomo => rw [emitted, inboundsKey, Mihomo.getArr_buildFullConfig h]; rfl

/-- The steps of a successful generation. -/
theorem generateNodeConfig_ok {gen : GenEnv} {nodeId : Uuid} {core : CoreType} {db : Db}
    {out : Json × Option String} (h : (generateNodeConfig gen nodeId core).exec db = .ok out) :
    ∃ ibs config, (collect (bindingInbound nodeId core (pinnedVersion db core))
        (activeBindings db nodeId)).exec db = .ok ibs ∧
      buildFullConfig gen.env core ibs = .ok config ∧
      (applyRelayRules nodeId core config).exec db = .ok out.1 ∧
      out.2 = pinnedVersion db core ∧
      (core = .singBox → gen.validateSingboxConfig out.1 = .ok ()) := by
  rw [generateNodeConfig, exec_bind, exec_effectiveCoreVersion] at h
  obtain ⟨version, hversion, h⟩ := Except.bind_eq_ok h
  cases hversion
  rw [exec_read_bind, exec_bind] at h
  obtain ⟨ibs, hibs, h⟩ := Except.bind_eq_ok h
  rw [exec_bind, exec_lift] at h
  obtain ⟨config, hconfig, h⟩ := Except.bind_eq_ok h
  rw [exec_bind] at h
  obtain ⟨config', hrules, h⟩ := Except.bind_eq_ok h
  refine ⟨ibs, config, hibs, hconfig, ?_⟩
  by_cases hcore : core = .singBox
  · rw [if_pos hcore, exec_bind, exec_lift] at h
    obtain ⟨_, hvalid, h⟩ := Except.bind_eq_ok h
    cases h
    exact ⟨hrules, rfl, fun _ => hvalid⟩
  · rw [if_neg hcore] at h
    cases h
    exact ⟨hrules, rfl, fun hs => absurd hs hcore⟩

/-- **The emitted inbounds** are, in order, those of the active bindings. -/
theorem emitted_generateNodeConfig {gen : GenEnv} {nodeId : Uuid} {core : CoreType} {db : Db}
    {out : Json × Option String} (h : (generateNodeConfig gen nodeId core).exec db = .ok out) :
    emitted core out.1 = (activeBindings db nodeId).filterMap (inboundFor db nodeId core) := by
  obtain ⟨ibs, config, hibs, hconfig, hrules, _, _⟩ := generateNodeConfig_ok h
  have hkeep : emitted core out.1 = emitted core config := by
    rw [emitted, emitted, getArr, getArr,
      get_applyRelayRules (inboundsKey_not_mem_relayKeys core) hrules]
  obtain ⟨os, hos, rfl⟩ := exec_collect_ok hibs
  rw [hkeep, emitted_buildFullConfig hconfig, List.filterMap_filterMap]
  clear hibs hconfig
  generalize activeBindings db nodeId = bindings at hos ⊢
  induction hos with
  | nil => rfl
  | @cons b o bs os hb _ ih =>
    rw [List.filterMap_cons, List.filterMap_cons, ih]
    cases o with
    | none => simp [inboundFor, hb]
    | some ib => simp [inboundFor, hb]

end ProxyPanel.Hub
