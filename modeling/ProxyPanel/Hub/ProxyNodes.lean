import ProxyPanel.Hub.Access
import ProxyPanel.Subscription.Formats

/-!
# The proxy nodes of a subscription

`buildProxyNodes` lists the bindings a client may use, each with the credentials
of the client in its settings.  `exec_buildProxyNodes` says which bindings are
listed and `listed_iff_accepted` compares them with the inbounds that accept the
client.
-/

namespace ProxyPanel

namespace Hub

open Json Query

/-! ### Credentials of the client -/

/-- The client's entry appended to `clients`, and for VLESS its id at top level. -/
def injectClientCredentials (settings : Json) (client : Client) (protocolType : String) : Json :=
  let email := client.email.getD client.name
  let settings := match settings.get "clients" with
    | some _ => settings
    | none => settings.set "clients" (arr [])
  let append := fun (settings entry : Json) =>
    match settings.get "clients" with
    | some clients => settings.set "clients" (clients.push entry)
    | none => settings
  if Text.startsWith protocolType "vless" then
    let flow := if protocolType = "vless_reality" then "xtls-rprx-vision" else ""
    let entry := mkObj [("id", str client.id.toStr), ("email", str email), ("flow", str flow)]
    let entry := match client.maxDevices with
      | some limit => if 0 < limit then entry.set "limitIp" (num limit) else entry
      | none => entry
    append (settings.set "id" (str client.id.toStr)) entry
  else if protocolType = "hysteria2" ∨ protocolType = "anytls" then
    append settings (mkObj [("name", str email), ("password", str client.id.toStr)])
  else settings

/-! ### TLS -/

/-- The domain of a managed certificate of the node as the server name. -/
def withCertificateName (nodeId : Uuid) (tls : Json) : Program Json :=
  match (tls.getStr "cert_id").bind Uuid.parse with
  | none => return tls
  | some certId => do
    match ← read (·.certificates.find certId) with
    | none => return tls
    | some cert =>
      if cert.nodeId = nodeId then
        return (tls.set "serverName" (str cert.domain)).remove "cert_id"
      else return tls

/-- An ACME domain as the server name when nothing more specific is set. -/
def withDomainName (tls : Json) : Json :=
  match SettingsHelper.getNonEmpty tls "domain" with
  | some domain =>
    if (SettingsHelper.getNonEmpty tls "serverName").isSome then tls
    else tls.set "serverName" (str domain)
  | none => tls

def resolveSubscriptionTls (nodeId : Uuid) (tls : Option Json) : Program (Option Json) :=
  match tls with
  | none => return none
  | some tls => do return some (withDomainName (← withCertificateName nodeId tls))

/-! ### Nodes -/

/-- The template filter of a subscription: protocols and names of node groups.
An empty list lets everything through. -/
def filterNames (filterRules : Option Json) (key : String) : List String :=
  (((filterRules.bind (·.getArr key)).getD []).filterMap asStr)

/-- Server address and port, host entry first, then the parent node. -/
def effectiveServer (hostOverride : Option InboundHost) (cfg : ProtocolConfig) (node : Node) :
    Program (String × Nat) :=
  let port := (cfg.listenPort % 65536).toNat
  let own := (node.domain.getD node.address, port)
  match hostOverride with
  | some host => return (host.address, (host.port % 65536).toNat)
  | none =>
    match node.parentId with
    | none => return own
    | some parentId => do
      match ← read (·.nodes.find parentId) with
      | some parent => return (parent.domain.getD parent.address, port)
      | none => return own

/-- The settings with the values of a host entry. -/
def withHost (settings : Json) (hostOverride : Option InboundHost) : Json :=
  let setOpt := fun (j : Json) (k : String) (v : Option String) =>
    match v with
    | some v => j.set k (str v)
    | none => j
  match hostOverride with
  | some host => setOpt (setOpt (setOpt settings "sni" host.sni) "host" host.host) "path" host.path
  | none => settings

/-- How the remark of a host entry becomes a display name, from the protocol type
and transport of the config; it depends on the clock. -/
abbrev Substitution := String → Client → String → String → Node → String

/-- The node of a binding the client may use. -/
def accessibleNode (substitute : Substitution) (client : Client) (binding : NodeBinding)
    (cfg : ProtocolConfig) (node : Node) (protocol : ProtocolType) : Program ProxyNode := do
  let settings := injectClientCredentials cfg.settings client cfg.protocolType
  let hostOverride ← read (·.inboundHosts.one fun h =>
    h.protocolConfigId = cfg.id ∧ h.nodeId = node.id ∧ h.isActive)
  let (server, port) ← effectiveServer hostOverride cfg node
  let name := match hostOverride with
    | some host => substitute host.remark client cfg.protocolType
        ((cfg.settings.getStr "network").getD "tcp") node
    | none => node.name ++ "-" ++ cfg.name
  let tls ← resolveSubscriptionTls binding.nodeId
    (SettingsHelper.mergeTlsSettings cfg.tlsSettings (overrideTls binding))
  return { name, protocol, server, port, settings := withHost settings hostOverride, tls }

/-- The node of a binding, `none` when the client may not use it. -/
def proxyNode (substitute : Substitution) (client : Client) (groupIds : List Uuid)
    (allowedProtocols : List String) (allowedGroups : List Uuid) (binding : NodeBinding) :
    Program (Option ProxyNode) := do
  let config ← read (·.protocolConfigs.find binding.protocolConfigId)
  let nodeModel ← read (·.nodes.find binding.nodeId)
  match config, nodeModel with
  | some cfg, some node =>
    match ProtocolType.fromStr? cfg.protocolType with
    | none => return none
    | some protocol =>
    if allowedProtocols ≠ [] ∧ protocol.toStr ∉ allowedProtocols then return none
    else
    let links ← read (·.nodeBindingGroupBindings.filter (·.nodeBindingId = binding.id))
    let bindingGroups := links.map (·.groupId)
    if groupIds = [] then return none
    else if bindingGroups = [] ∨ ¬ bindingGroups.any (· ∈ groupIds) then return none
    else if allowedGroups ≠ [] ∧ ¬ bindingGroups.any (· ∈ allowedGroups) then return none
    else return some (← accessibleNode substitute client binding cfg node protocol)
  | _, _ => return none

def buildProxyNodes (substitute : Substitution) (client : Client) (filterRules : Option Json) :
    Program (List ProxyNode) :=
  if client.status = "limited" ∨ client.status = "expired" then return []
  else do
  let links ← read (·.clientGroupBindings.filter (·.clientId = client.id))
  let groupNames := filterNames filterRules "node_groups"
  let allowedGroups ← if groupNames = [] then pure [] else
    read fun db => (db.nodeGroups.filter (·.name ∈ groupNames)).map (·.id)
  let bindings ← read (·.nodeBindings.filter (·.isActive))
  collect (proxyNode substitute client (links.map (·.groupId)) (filterNames filterRules "protocols")
    allowedGroups) bindings

/-! ### What is in a node -/

/-- The credentials of a client touch two keys. -/
theorem get_injectClientCredentials (settings : Json) (client : Client) (protocolType : String)
    {k : String} (hk : k ∉ ["clients", "id"]) :
    (injectClientCredentials settings client protocolType).get k = settings.get k := by
  simp only [List.mem_cons, List.not_mem_nil, or_false, not_or] at hk
  have happend : ∀ (s entry : Json), (match s.get "clients" with
      | some clients => s.set "clients" (clients.push entry)
      | none => s).get k = s.get k := by
    intro s entry
    cases s.get "clients" with
    | some clients => exact get_set_of_ne s hk.1 _
    | none => rfl
  have hensured : (match settings.get "clients" with
      | some _ => settings
      | none => settings.set "clients" (arr [])).get k = settings.get k := by
    cases settings.get "clients" with
    | some clients => rfl
    | none => exact get_set_of_ne settings hk.1 _
  simp only [injectClientCredentials]
  split
  · rw [happend, get_set_of_ne _ hk.2, hensured]
  · split
    · rw [happend, hensured]
    · exact hensured

/-- A host entry touches three keys. -/
theorem get_withHost (settings : Json) (hostOverride : Option InboundHost) {k : String}
    (hk : k ∉ ["sni", "host", "path"]) : (withHost settings hostOverride).get k = settings.get k := by
  simp only [List.mem_cons, List.not_mem_nil, or_false, not_or] at hk
  have hset : ∀ (j : Json) (key : String) (v : Option String), k ≠ key → (match v with
      | some v => j.set key (str v)
      | none => j).get k = j.get k := by
    intro j key v hne
    cases v with
    | some v => exact get_set_of_ne j hne _
    | none => rfl
  cases hostOverride with
  | none => rfl
  | some host =>
    simp only [withHost]
    rw [hset _ "path" _ hk.2.2, hset _ "host" _ hk.2.1, hset _ "sni" _ hk.1]

/-- The parts of the node of a binding. -/
theorem accessibleNode_ok {substitute : Substitution} {client : Client} {binding : NodeBinding}
    {cfg : ProtocolConfig} {node : Node} {protocol : ProtocolType} {db : Db} {pn : ProxyNode}
    (h : (accessibleNode substitute client binding cfg node protocol).exec db = .ok pn) :
    pn.protocol = protocol ∧
    pn.settings = withHost (injectClientCredentials cfg.settings client cfg.protocolType)
      (db.inboundHosts.one fun h =>
        h.protocolConfigId = cfg.id ∧ h.nodeId = node.id ∧ h.isActive) ∧
    (effectiveServer (db.inboundHosts.one fun h =>
      h.protocolConfigId = cfg.id ∧ h.nodeId = node.id ∧ h.isActive) cfg node).exec db =
        .ok (pn.server, pn.port) ∧
    (resolveSubscriptionTls binding.nodeId (SettingsHelper.mergeTlsSettings cfg.tlsSettings
      (overrideTls binding))).exec db = .ok pn.tls := by
  rw [accessibleNode, exec_read_bind, exec_bind] at h
  obtain ⟨⟨server, port⟩, hserver, h⟩ := Except.bind_eq_ok h
  rw [exec_bind] at h
  obtain ⟨tls, htls, h⟩ := Except.bind_eq_ok h
  cases h
  exact ⟨rfl, rfl, hserver, htls⟩

/-- The settings of the config, but for a few keys. -/
theorem get_settings_of_accessibleNode {substitute : Substitution} {client : Client}
    {binding : NodeBinding} {config : ProtocolConfig} {node : Node} {protocol : ProtocolType} {db : Db}
    {pn : ProxyNode}
    (h : (accessibleNode substitute client binding config node protocol).exec db = .ok pn)
    {k : String} (hk : k ∉ ["clients", "id", "sni", "host", "path"]) :
    pn.settings.get k = config.settings.get k := by
  simp only [List.mem_cons, List.not_mem_nil, or_false, not_or] at hk
  obtain ⟨-, hsettings, -, -⟩ := accessibleNode_ok h
  rw [hsettings, get_withHost _ _ (by simp [hk]), get_injectClientCredentials _ _ _ (by simp [hk])]

/-! ### Which bindings are listed -/

theorem succeeds_effectiveServer (hostOverride : Option InboundHost) (cfg : ProtocolConfig)
    (node : Node) : Succeeds (effectiveServer hostOverride cfg node) := by
  simp only [effectiveServer]
  split
  · exact succeeds_pure _
  · split
    · exact succeeds_pure _
    · refine succeeds_read_bind (fun parent => ?_)
      cases parent <;> exact succeeds_pure _

theorem succeeds_resolveSubscriptionTls (nodeId : Uuid) (tls : Option Json) :
    Succeeds (resolveSubscriptionTls nodeId tls) := by
  cases tls with
  | none => exact succeeds_pure _
  | some tls =>
    refine succeeds_bind ?_ (fun _ => succeeds_pure _)
    rw [withCertificateName]
    split
    · exact succeeds_pure _
    · refine succeeds_read_bind (fun cert => ?_)
      cases cert with
      | none => exact succeeds_pure _
      | some cert => simp only; split <;> exact succeeds_pure _

theorem succeeds_accessibleNode (substitute : Substitution) (client : Client)
    (binding : NodeBinding) (cfg : ProtocolConfig) (node : Node) (protocol : ProtocolType) :
    Succeeds (accessibleNode substitute client binding cfg node protocol) :=
  succeeds_read_bind fun hostOverride =>
    succeeds_bind (succeeds_effectiveServer hostOverride cfg node) fun _ =>
      succeeds_bind (succeeds_resolveSubscriptionTls _ _) fun _ => succeeds_pure _

/-- A binding is listed for a client that shares a group with it, when its config
and its node exist, its protocol is known and the filters let it through. -/
def Listable (db : Db) (client : Client) (allowedProtocols : List String)
    (allowedGroups : List Uuid) (binding : NodeBinding) : Prop :=
  (∃ cfg protocol, db.protocolConfigs.find binding.protocolConfigId = some cfg ∧
    ProtocolType.fromStr? cfg.protocolType = some protocol ∧
    (allowedProtocols = [] ∨ protocol.toStr ∈ allowedProtocols)) ∧
  (∃ node, db.nodes.find binding.nodeId = some node) ∧
  SharesGroup db client.id binding.id ∧
  (allowedGroups = [] ∨ ∃ g ∈ bindingGroupIds db binding.id, g ∈ allowedGroups)

theorem exec_proxyNode (substitute : Substitution) (client : Client)
    (allowedProtocols : List String) (allowedGroups : List Uuid) (binding : NodeBinding) (db : Db) :
    ∃ o, (proxyNode substitute client (clientGroupIds db client.id) allowedProtocols allowedGroups
        binding).exec db = .ok o ∧
      (o.isSome ↔ Listable db client allowedProtocols allowedGroups binding) := by
  simp only [proxyNode, exec_read_bind]
  cases hcfg : db.protocolConfigs.find binding.protocolConfigId with
  | none => exact ⟨none, rfl, by simp [Listable, hcfg]⟩
  | some cfg =>
    cases hnode : db.nodes.find binding.nodeId with
    | none => exact ⟨none, rfl, by simp [Listable, hnode]⟩
    | some node =>
      simp only
      cases hprotocol : ProtocolType.fromStr? cfg.protocolType with
      | none => exact ⟨none, rfl, by simp [Listable, hcfg, hprotocol]⟩
      | some protocol =>
        have hshares : ¬ (bindingGroupIds db binding.id = [] ∨
            ¬ (bindingGroupIds db binding.id).any (· ∈ clientGroupIds db client.id) = true) ↔
            SharesGroup db client.id binding.id := by
          rw [not_or, not_not, List.any_eq_true, SharesGroup]
          simp only [decide_eq_true_eq, and_iff_right_iff_imp]
          rintro ⟨g, hg, _⟩ hnil
          rw [hnil] at hg
          exact List.not_mem_nil hg
        have hgroups : ¬ (allowedGroups ≠ [] ∧
            ¬ (bindingGroupIds db binding.id).any (· ∈ allowedGroups) = true) ↔
            (allowedGroups = [] ∨ ∃ g ∈ bindingGroupIds db binding.id, g ∈ allowedGroups) := by
          rw [Decidable.not_and_iff_not_or_not, not_not, not_not, List.any_eq_true]
          simp only [decide_eq_true_eq]
        have hlist : Listable db client allowedProtocols allowedGroups binding ↔
            (allowedProtocols = [] ∨ protocol.toStr ∈ allowedProtocols) ∧
            SharesGroup db client.id binding.id ∧
            (allowedGroups = [] ∨ ∃ g ∈ bindingGroupIds db binding.id, g ∈ allowedGroups) := by
          simp [Listable, hcfg, hprotocol, hnode]
        rw [hlist, ← hshares, ← hgroups]
        by_cases hp : allowedProtocols ≠ [] ∧ protocol.toStr ∉ allowedProtocols
        · simp only [if_pos hp]
          exact ⟨none, rfl, by simp [hp]⟩
        · simp only [if_neg hp, exec_read_bind]
          change ∃ o, (if clientGroupIds db client.id = [] then _
            else if bindingGroupIds db binding.id = [] ∨
              ¬ (bindingGroupIds db binding.id).any (· ∈ clientGroupIds db client.id) = true then _
            else if allowedGroups ≠ [] ∧
              ¬ (bindingGroupIds db binding.id).any (· ∈ allowedGroups) = true then _
            else _ : Program (Option ProxyNode)).exec db = .ok o ∧ _
          have hp' : allowedProtocols = [] ∨ protocol.toStr ∈ allowedProtocols := by
            rw [Decidable.not_and_iff_not_or_not, not_not, not_not] at hp
            exact hp
          by_cases hnogroups : clientGroupIds db client.id = []
          · rw [if_pos hnogroups]
            refine ⟨none, rfl, iff_of_false (by simp) ?_⟩
            rintro ⟨_, hshare, _⟩
            simp [hnogroups] at hshare
          · rw [if_neg hnogroups]
            split
            · rename_i h
              exact ⟨none, rfl, iff_of_false (by simp) (fun hall => hall.2.1 h)⟩
            · rename_i hshare
              split
              · rename_i h
                exact ⟨none, rfl, iff_of_false (by simp) (fun hall => hall.2.2 h)⟩
              · rename_i hgroup
                obtain ⟨pn, hpn⟩ := succeeds_accessibleNode substitute client binding cfg node
                  protocol db
                exact ⟨some pn, by rw [exec_bind, hpn]; rfl,
                  iff_of_true rfl ⟨hp', hshare, hgroup⟩⟩

/-- The node that is listed for a binding; limited and expired clients get none. -/
def listedNode (substitute : Substitution) (db : Db) (client : Client) (binding : NodeBinding) :
    Option ProxyNode :=
  if client.status = "limited" ∨ client.status = "expired" then none
  else match (proxyNode substitute client (clientGroupIds db client.id) [] [] binding).exec db with
    | .ok node => node
    | .error _ => none

/-- **The subscription of a client** without a filter: the listed nodes of the
active bindings, in order. -/
theorem exec_buildProxyNodes (substitute : Substitution) (db : Db) (client : Client) :
    (buildProxyNodes substitute client none).exec db =
      .ok ((db.nodeBindings.filter (·.isActive)).filterMap (listedNode substitute db client)) := by
  rw [buildProxyNodes]
  by_cases hdenied : client.status = "limited" ∨ client.status = "expired"
  · have hnone : ∀ b, listedNode substitute db client b = none := fun b => by
      rw [listedNode, if_pos hdenied]
    rw [if_pos hdenied, show listedNode substitute db client = fun _ => none from funext hnone,
      List.filterMap_none]
    rfl
  · rw [if_neg hdenied]
    change (collect (proxyNode substitute client (clientGroupIds db client.id) [] [])
      (db.nodeBindings.filter (·.isActive))).exec db = _
    refine exec_collect_some (fun b _ => ?_)
    obtain ⟨o, ho, _⟩ := exec_proxyNode substitute client [] [] b db
    rw [listedNode, if_neg hdenied, ho]

theorem isSome_listedNode (substitute : Substitution) (db : Db) (client : Client)
    (binding : NodeBinding) : (listedNode substitute db client binding).isSome ↔
      ¬ (client.status = "limited" ∨ client.status = "expired") ∧
        Listable db client [] [] binding := by
  rw [listedNode]
  by_cases hdenied : client.status = "limited" ∨ client.status = "expired"
  · rw [if_pos hdenied]
    exact iff_of_false (by simp) (fun h => h.1 hdenied)
  · obtain ⟨o, ho, hiff⟩ := exec_proxyNode substitute client [] [] binding db
    rw [if_neg hdenied, ho]
    exact hiff.trans ⟨fun h => ⟨hdenied, h⟩, fun h => h.2⟩

/-! ### Server and subscription -/

/-- For a client that shares a group with the binding: an active one is listed
exactly when its entry is injected and keeps its key, any other one is denied or
its node is gone.  For a client that does not: its id is no user that injection
leaves in the settings. -/
def AccessAgrees (db : Db) (core : CoreType) (client : Client) (binding : NodeBinding) : Prop :=
  ∀ config protocol, db.protocolConfigs.find binding.protocolConfigId = some config →
    ProtocolType.fromStr? config.protocolType = some protocol →
    (SharesGroup db client.id binding.id → client.status = "active" →
      ((∃ node, db.nodes.find binding.nodeId = some node) ↔
        (mergedSettings config binding).isObject = true ∧
          (core = .mihomo → protocol.isVless = false → client ∈ keptClients db binding.id))) ∧
    (SharesGroup db client.id binding.id → client.status ≠ "active" →
      client.status = "limited" ∨ client.status = "expired" ∨
        db.nodes.find binding.nodeId = none) ∧
    (¬ SharesGroup db client.id binding.id → groupMembers db binding.id = [] →
      client.id.toStr ∉ builtCredentials core protocol (mergedSettings config binding))

theorem acceptedClients_subset (core : CoreType) (protocol : ProtocolType) (db : Db)
    (bindingId : Uuid) : acceptedClients core protocol db bindingId ⊆ authorizedClients db bindingId := by
  rw [acceptedClients]
  split
  · exact (keptClients_sublist db bindingId).subset
  · exact fun c hc => hc

/-- Whether the inbound of a binding accepts a client. -/
theorem mem_credentials_inboundFor {db : Db} {core : CoreType} {client : Client}
    {binding : NodeBinding} {config : ProtocolConfig} {protocol : ProtocolType} {tls : Option Json}
    {inbound : Json} (hclient : client ∈ db.clients.rows)
    (hprotocol : ProtocolType.fromStr? config.protocolType = some protocol)
    (hbuild : buildInbound core protocol (withListen config
      (injected db binding config.protocolType (mergedSettings config binding))) tls = .ok inbound) :
    client.id.toStr ∈ Builder.credentials inbound ↔
      if groupMembers db binding.id = [] then
        client.id.toStr ∈ builtCredentials core protocol (mergedSettings config binding)
      else (mergedSettings config binding).isObject = true ∧
        client ∈ acceptedClients core protocol db binding.id := by
  rw [credentials_buildInbound hbuild, builtCredentials_withListen,
    ← ProtocolType.toStr_of_fromStr? hprotocol]
  by_cases hmembers : groupMembers db binding.id = []
  · rw [if_pos hmembers, injected, if_pos hmembers]
  · rw [if_neg hmembers]
    by_cases hobj : (mergedSettings config binding).isObject = true
    · rw [mem_builtCredentials_injected hmembers hobj]
      constructor
      · rintro ⟨c, hc, hid⟩
        have hrow := (mem_authorizedClients.mp (acceptedClients_subset _ _ _ _ hc)).1
        exact ⟨hobj, eq_of_id_eq hrow hclient (Uuid.toStr_injective hid) ▸ hc⟩
      · rintro ⟨_, hc⟩
        exact ⟨client, hc, rfl⟩
    · have hnot : (mergedSettings config binding).isObject = false := by simpa using hobj
      have hnil : builtCredentials core protocol
          (injected db binding protocol.toStr (mergedSettings config binding)) = [] := by
        rw [injected, if_neg hmembers, set_of_not_isObject hnot, builtCredentials_eq_nil_iff]
        exact noPresetUsers_of_not_isObject core protocol hnot
      rw [hnil]
      exact iff_of_false List.not_mem_nil (fun h => hobj h.1)

/-- **Access agreement.**  The inbound of an active binding is emitted, the
subscription lists the listed nodes, and the two agree about a client if and only
if `AccessAgrees`. -/
theorem listed_iff_accepted_iff {gen : GenEnv} {substitute : Substitution} {db : Db}
    {core : CoreType} {client : Client} {binding : NodeBinding} {out : Json × Option String}
    {inbound : Json} (hclient : client ∈ db.clients.rows)
    (hactive : binding ∈ activeBindings db binding.nodeId)
    (hgen : (generateNodeConfig gen binding.nodeId core).exec db = .ok out)
    (hinbound : inboundFor db binding.nodeId core binding = some inbound) :
    inbound ∈ emitted core out.1 ∧
      (buildProxyNodes substitute client none).exec db =
        .ok ((db.nodeBindings.filter (·.isActive)).filterMap (listedNode substitute db client)) ∧
      (((listedNode substitute db client binding).isSome ↔
          client.id.toStr ∈ Builder.credentials inbound) ↔ AccessAgrees db core client binding) := by
  obtain ⟨config, protocol, tls, hconfig, -, hprotocol, -, hbuild⟩ := inboundFor_eq_some hinbound
  refine ⟨?_, exec_buildProxyNodes substitute db client, ?_⟩
  · rw [emitted_generateNodeConfig hgen, List.mem_filterMap]
    exact ⟨binding, hactive, hinbound⟩
  have hlistable : Listable db client [] [] binding ↔
      (∃ node, db.nodes.find binding.nodeId = some node) ∧ SharesGroup db client.id binding.id := by
    simp [Listable, hconfig, hprotocol]
  have hmember : SharesGroup db client.id binding.id → groupMembers db binding.id ≠ [] := by
    intro hshares hnil
    have hmem := mem_groupMembers.mpr hshares
    rw [hnil] at hmem
    exact List.not_mem_nil hmem
  have haccepted : SharesGroup db client.id binding.id → client.status = "active" →
      (client ∈ acceptedClients core protocol db binding.id ↔
        (core = .mihomo → protocol.isVless = false → client ∈ keptClients db binding.id)) := by
    intro hshares hstatus
    rw [acceptedClients]
    split
    · rename_i hmap
      exact ⟨fun h _ _ => h, fun h => h hmap.1 hmap.2⟩
    · rename_i hmap
      exact iff_of_true (mem_authorizedClients.mpr ⟨hclient, hshares, hstatus⟩)
        (fun hc hv => absurd ⟨hc, hv⟩ hmap)
  have hstep : AccessAgrees db core client binding ↔ _ :=
    ⟨fun h => h config protocol hconfig hprotocol, fun h config' protocol' hc hp => by
      rw [hconfig] at hc
      cases hc
      rw [hprotocol] at hp
      cases hp
      exact h⟩
  rw [isSome_listedNode, hlistable, mem_credentials_inboundFor hclient hprotocol hbuild, hstep]
  by_cases hshares : SharesGroup db client.id binding.id
  · rw [if_neg (hmember hshares)]
    by_cases hstatus : client.status = "active"
    · have hallowed : ¬ (client.status = "limited" ∨ client.status = "expired") := by
        rw [hstatus]
        decide
      rw [haccepted hshares hstatus]
      constructor
      · intro h
        refine ⟨fun _ _ => ?_, fun _ hs => absurd hstatus hs, fun hs => absurd hshares hs⟩
        rw [← h]
        exact ⟨fun hn => ⟨hallowed, hn, hshares⟩, fun hn => hn.2.1⟩
      · rintro ⟨h, -, -⟩
        rw [← h hshares hstatus]
        exact ⟨fun hn => hn.2.1, fun hn => ⟨hallowed, hn, hshares⟩⟩
    · have hout : ¬ ((mergedSettings config binding).isObject = true ∧
          client ∈ acceptedClients core protocol db binding.id) := by
        rintro ⟨_, hc⟩
        exact hstatus (mem_authorizedClients.mp (acceptedClients_subset _ _ _ _ hc)).2.2
      rw [iff_false_right hout]
      constructor
      · intro h
        refine ⟨fun _ hs => absurd hs hstatus, fun _ _ => ?_, fun hs => absurd hshares hs⟩
        by_cases hdenied : client.status = "limited" ∨ client.status = "expired"
        · exact hdenied.imp id Or.inl
        · cases hnode : db.nodes.find binding.nodeId with
          | none => exact Or.inr (Or.inr rfl)
          | some node => exact absurd ⟨hdenied, ⟨node, hnode⟩, hshares⟩ h
      · rintro ⟨-, h, -⟩ ⟨hallowed, ⟨node, hnode⟩, -⟩
        rcases h hshares hstatus with hl | he | hnone
        · exact hallowed (Or.inl hl)
        · exact hallowed (Or.inr he)
        · rw [hnode] at hnone
          cases hnone
  · have hnot : ¬ (¬ (client.status = "limited" ∨ client.status = "expired") ∧
        (∃ node, db.nodes.find binding.nodeId = some node) ∧
        SharesGroup db client.id binding.id) := fun h => hshares h.2.2
    rw [iff_false_left hnot]
    by_cases hmembers : groupMembers db binding.id = []
    · rw [if_pos hmembers]
      exact ⟨fun h => ⟨fun hs => absurd hs hshares, fun hs => absurd hs hshares, fun _ _ => h⟩,
        fun h => h.2.2 hshares hmembers⟩
    · rw [if_neg hmembers]
      refine iff_of_true ?_ ⟨fun hs => absurd hs hshares, fun hs => absurd hs hshares,
        fun _ hm => absurd hm hmembers⟩
      rintro ⟨_, hc⟩
      exact hshares (mem_authorizedClients.mp (acceptedClients_subset _ _ _ _ hc)).2.1

/-! ### A client on hold -/

namespace OnHold

def client : Client where
  id := .ofNat 10
  userId := .ofNat 11
  name := "carol"
  email := some "carol@example.com"
  trafficLimitBytes := 0
  trafficUsedBytes := 0
  allTimeUsedBytes := 0
  expiryDate := none
  resetDay := none
  dataLimitResetStrategy := "no_reset"
  lastTrafficResetTime := none
  maxDevices := none
  status := "on_hold"
  onHoldExpireDurationSecs := some 86400
  onHoldTimeout := none
  updatedAt := default

def node : Node where
  id := PresetUser.node
  name := "node"
  hostname := "node"
  address := "192.0.2.1"
  domain := none
  tokenHash := "hash"
  coresAvailable := null
  usageCoefficient := 0x3f800000
  status := "online"
  parentId := none
  lastSeenAt := none
  updatedAt := default

/-- A client on hold in the group of the binding. -/
def db : Db where
  nodes := .single node
  protocolConfigs := .single PresetUser.config
  nodeBindings := .single PresetUser.binding
  clients := .single client
  clientGroupBindings := .single ⟨.ofNat 20, client.id, .ofNat 21⟩
  nodeBindingGroupBindings := .single ⟨.ofNat 22, PresetUser.binding.id, .ofNat 21⟩

def substitute : Substitution := fun remark _ _ _ _ => remark

theorem exists_generated : ∃ out,
    (generateNodeConfig PresetUser.gen PresetUser.binding.nodeId .mihomo).exec db = .ok out := by
  have hok : ((generateNodeConfig PresetUser.gen PresetUser.binding.nodeId .mihomo).exec db).toBool = true := by
    decide
  cases h : (generateNodeConfig PresetUser.gen PresetUser.binding.nodeId .mihomo).exec db with
  | ok out => exact ⟨out, rfl⟩
  | error e => rw [h] at hok; cases hok

theorem exists_inbound :
    ∃ inbound, inboundFor db PresetUser.binding.nodeId .mihomo PresetUser.binding = some inbound ∧
      Builder.credentials inbound = [] := by
  have hcred : (inboundFor db PresetUser.binding.nodeId .mihomo PresetUser.binding).map Builder.credentials
      = some [] := by decide
  obtain ⟨inbound, hinbound, hcred⟩ := Option.map_eq_some_iff.mp hcred
  exact ⟨inbound, hinbound, hcred⟩

end OnHold

/-- The subscription lists a binding whose inbound turns the client away, so its
first connection cannot activate it. -/
theorem on_hold_listed_not_accepted : ∃ out inbound,
    (generateNodeConfig PresetUser.gen PresetUser.binding.nodeId .mihomo).exec OnHold.db = .ok out ∧
      inboundFor OnHold.db PresetUser.binding.nodeId .mihomo PresetUser.binding = some inbound ∧
      ¬ ((listedNode OnHold.substitute OnHold.db OnHold.client PresetUser.binding).isSome ↔
        OnHold.client.id.toStr ∈ Builder.credentials inbound) := by
  obtain ⟨out, hout⟩ := OnHold.exists_generated
  obtain ⟨inbound, hinbound, hcred⟩ := OnHold.exists_inbound
  have hlisted : (listedNode OnHold.substitute OnHold.db OnHold.client PresetUser.binding).isSome
      = true := by decide
  refine ⟨out, inbound, hout, hinbound, fun h => ?_⟩
  have hmem := h.mp hlisted
  rw [hcred] at hmem
  exact List.not_mem_nil hmem

theorem listed_iff_accepted_iff_on_hold : ∃ (out : Json × Option String) (inbound : Json),
    inbound ∈ emitted .mihomo out.1 ∧
      (buildProxyNodes OnHold.substitute OnHold.client none).exec OnHold.db =
        .ok ((OnHold.db.nodeBindings.filter (·.isActive)).filterMap
          (listedNode OnHold.substitute OnHold.db OnHold.client)) ∧
      (((listedNode OnHold.substitute OnHold.db OnHold.client PresetUser.binding).isSome ↔
          OnHold.client.id.toStr ∈ Builder.credentials inbound) ↔
        AccessAgrees OnHold.db .mihomo OnHold.client PresetUser.binding) := by
  obtain ⟨out, hout⟩ := OnHold.exists_generated
  obtain ⟨inbound, hinbound, _⟩ := OnHold.exists_inbound
  have hclient : OnHold.client ∈ OnHold.db.clients.rows := by simp [OnHold.db]
  have hactive : PresetUser.binding ∈ activeBindings OnHold.db PresetUser.binding.nodeId := by
    simp [activeBindings, OnHold.db, PresetUser.binding]
  exact ⟨out, inbound, listed_iff_accepted_iff hclient hactive hout hinbound⟩

end Hub

end ProxyPanel
