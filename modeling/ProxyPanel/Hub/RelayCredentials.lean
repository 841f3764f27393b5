import ProxyPanel.Hub.Listeners
import ProxyPanel.Hub.NodeGroups
import ProxyPanel.Hub.PendingCompleteness
import ProxyPanel.Hub.RelayClosure
import ProxyPanel.Lib.Run

/-!
# The credential of a relay

The entry node of a relay rule dials the exit binding with the identifier of the rule's relay
client.  The entry is built from the rows of the rule and the exit; the exit admits what its
own generation finds: its binding must be active and listen on the port that is dialed, and
the client must be active, in a group of the binding and not hidden by its user name.  `ExitFits`
says so for a rule, `accepted_of_fits` that it is enough, and `inv_serve` which requests keep
it.  Not all do: `revoked_by_rejected_update` is an update that is refused after the client of
the rule has been replaced.
-/

namespace ProxyPanel.Hub

open Json Builder Query

/-! ### What is promised -/

/-- The port an outbound dials. -/
def dialedPort (core : CoreType) (outbound : Json) : Option Nat :=
  match core with
  | .singBox => outbound.getU64 "server_port"
  | .mihomo => outbound.getU64 "port"

/-- The entry node of a rule is configured with the outbound of the rule. -/
def EmitsRelay (gen : GenEnv) (db : Db) (core : CoreType) (rule : RelayRule) (outbound : Json) :
    Prop :=
  ∃ config version hop, (generateNodeConfig gen rule.nodeId core).exec db = .ok (config, version) ∧
    relayHop db rule = some hop ∧ hop.build core = .ok outbound ∧ outbound ∈ outbounds core config

/-- The rows of an exit. -/
structure ExitOf (db : Db) (exitBindingId : Uuid) (b : NodeBinding) (c : ProtocolConfig) : Prop where
  binding : db.nodeBindings.find exitBindingId = some b
  config : db.protocolConfigs.find b.protocolConfigId = some c

/-- A configuration has an inbound for the exit, on the port and for the client. -/
def Accepts (db : Db) (b : NodeBinding) (core : CoreType) (port : Nat) (relayClientId : Uuid)
    (config : Json) : Prop :=
  ∃ inbound ∈ emitted core config, inboundFor db b.nodeId core b = some inbound ∧
    (∃ listen, listenPair core inbound = some (listen, toString port)) ∧
    relayClientId.toStr ∈ credentials inbound

/-- **The exit accepts the credential.**  Where the entry of an enabled rule is configured with
its outbound, every configuration of the exit's node, for the core of the exit, has an inbound
for the exit that listens on the dialed port and has the relay client among its users. -/
def RelayAccepted (gen : GenEnv) (db : Db) : Prop :=
  ∀ rule ∈ db.relayRules.rows, rule.enabled = true → ∀ core outbound,
    EmitsRelay gen db core rule outbound → ∀ b c, ExitOf db rule.exitBindingId b c →
    ∀ config version,
      (generateNodeConfig gen b.nodeId (parseCoreType c.coreType)).exec db = .ok (config, version) →
      ∃ port, dialedPort core outbound = some port ∧
        Accepts db b (parseCoreType c.coreType) port rule.relayClientId config

/-! ### What an exit needs -/

/-- The protocols that can be relayed to. -/
def Relayable (c : ProtocolConfig) : Prop := c.protocolType ∈ ["vless_reality", "hysteria2", "anytls"]

/-- The listeners that key their users by name. -/
def Keyed (c : ProtocolConfig) : Prop :=
  parseCoreType c.coreType = .mihomo ∧ c.protocolType ∈ ["hysteria2", "anytls"]

/-- A binding that listens where it is dialed and takes its users from the database. -/
structure CanServe (db : Db) (b : NodeBinding) (c : ProtocolConfig) : Prop where
  active : b.isActive = true
  settings : (mergedSettings c b).isObject = true
  port : (listenPlace c b).2 = (c.listenPort % 65536).toNat
  certificate : c.protocolType = "vless_reality" ∨ ∀ tls, (resolveManagedCertTls b.nodeId
    (SettingsHelper.mergeTlsSettings c.tlsSettings (overrideTls b))).exec db = .ok tls →
      HasCertificate (parseCoreType c.coreType) tls

/-- No other client has the user name of a client. -/
def OwnName (clients : List Client) (clientId : Uuid) : Prop :=
  ∀ r ∈ clients, r.id = clientId → ∀ d ∈ clients, d.id ≠ clientId → clientName d ≠ clientName r

/-- A client that a binding has among its users. -/
structure Admitted (db : Db) (clientId : Uuid) (b : NodeBinding) (c : ProtocolConfig) : Prop where
  client : ∃ r ∈ db.clients.rows, r.id = clientId ∧ r.status = "active"
  group : SharesGroup db clientId b.id
  name : Keyed c → OwnName db.clients.rows clientId

/-- The exit of a rule, where there is one, serves the relay client. -/
def ExitFits (db : Db) (rule : RelayRule) : Prop :=
  ∀ b c, ExitOf db rule.exitBindingId b c →
    (Relayable c → CanServe db b c) ∧ Admitted db rule.relayClientId b c

/-! ### What is built -/

theorem asU64_natCast {n : Nat} (h : n < 2 ^ 64) : (num (n : Int)).asU64 = some n := by
  rw [asU64, if_pos ⟨Int.natCast_nonneg n, by exact_mod_cast h⟩, Int.toNat_natCast]

theorem get_setNonEmpty (j : Json) {k k' : String} (h : k' ≠ k) (s : String) :
    (RelayHop.setNonEmpty j k s).get k' = j.get k' := by
  rw [RelayHop.setNonEmpty]
  split
  · rfl
  · rw [get_setIndex_of_ne _ h]

theorem port_buildSingboxOutbound {hop : RelayHop} {outbound : Json}
    (h : hop.buildSingboxOutbound = .ok outbound) :
    outbound.get "server_port" = some (num hop.port) := by
  unfold RelayHop.buildSingboxOutbound at h
  split at h
  · obtain ⟨keys, _, h⟩ := Except.bind_eq_ok (show _ >>= _ = _ from h)
    cases h
    rw [get_setNonEmpty _ (by decide), get_mkObj]
    rfl
  · obtain ⟨sni, _, h⟩ := Except.bind_eq_ok (show _ >>= _ = _ from h)
    cases h
    split
    · rw [get_setIndex_of_ne _ (by decide), get_mkObj]
      rfl
    · rw [get_mkObj]
      rfl
  · obtain ⟨sni, _, h⟩ := Except.bind_eq_ok (show _ >>= _ = _ from h)
    cases h
    rw [get_mkObj]
    rfl
  · cases h

theorem port_buildMihomoProxy {hop : RelayHop} {outbound : Json}
    (h : hop.buildMihomoProxy = .ok outbound) : outbound.get "port" = some (num hop.port) := by
  unfold RelayHop.buildMihomoProxy at h
  split at h
  · obtain ⟨keys, _, h⟩ := Except.bind_eq_ok (show _ >>= _ = _ from h)
    cases h
    rw [get_setNonEmpty _ (by decide), get_mkObj]
    rfl
  · obtain ⟨sni, _, h⟩ := Except.bind_eq_ok (show _ >>= _ = _ from h)
    cases h
    split
    · rw [get_setIndex_of_ne _ (by decide), get_setIndex_of_ne _ (by decide), get_mkObj]
      rfl
    · rw [get_mkObj]
      rfl
  · obtain ⟨sni, _, h⟩ := Except.bind_eq_ok (show _ >>= _ = _ from h)
    cases h
    rw [get_mkObj]
    rfl
  · cases h

/-- An outbound dials the port of its hop. -/
theorem dialedPort_build {core : CoreType} {hop : RelayHop} {outbound : Json}
    (h : hop.build core = .ok outbound) (hport : hop.port < 2 ^ 64) :
    dialedPort core outbound = some hop.port := by
  cases core with
  | singBox =>
    rw [dialedPort, getU64, port_buildSingboxOutbound h, Option.bind_some, asU64_natCast hport]
  | mihomo =>
    rw [dialedPort, getU64, port_buildMihomoProxy h, Option.bind_some, asU64_natCast hport]

/-- A hop that is built has a protocol that can be relayed to. -/
theorem ne_vlessXhttp_of_build {core : CoreType} {hop : RelayHop} {outbound : Json}
    (h : hop.build core = .ok outbound) : hop.protocol ≠ .vlessXhttp := by
  intro hprotocol
  cases core with
  | singBox =>
    unfold RelayHop.build RelayHop.buildSingboxOutbound at h
    rw [hprotocol] at h
    cases h
  | mihomo =>
    unfold RelayHop.build RelayHop.buildMihomoProxy at h
    rw [hprotocol] at h
    cases h

/-- The hop of a rule, from the rows of its exit. -/
theorem relayHop_exit {db : Db} {rule : RelayRule} {hop : RelayHop} (h : relayHop db rule = some hop)
    {b : NodeBinding} {c : ProtocolConfig} (hexit : ExitOf db rule.exitBindingId b c) :
    hop.port = (c.listenPort % 65536).toNat ∧
      ProtocolType.fromStr? c.protocolType = some hop.protocol := by
  simp only [relayHop, hexit.binding, hexit.config, Option.bind_eq_bind, Option.bind_some,
    Option.bind_eq_some_iff] at h
  obtain ⟨node, _, protocol, hprotocol, h⟩ := h
  cases h
  exact ⟨rfl, hprotocol⟩

theorem relayable_of_ne {c : ProtocolConfig} {protocol : ProtocolType}
    (h : ProtocolType.fromStr? c.protocolType = some protocol) (hne : protocol ≠ .vlessXhttp) :
    Relayable c := by
  rw [Relayable, ← ProtocolType.toStr_of_fromStr? h]
  cases protocol with
  | vlessXhttp => exact absurd rfl hne
  | vlessReality => decide
  | hysteria2 => decide
  | anytls => decide

/-! ### What the exit admits -/

theorem clientName_ne_empty {r : Client} (h : r.email ≠ some "") : clientName r ≠ "" := by
  rw [clientName]
  cases hemail : r.email with
  | none => exact r.id.toStr_ne_empty
  | some email =>
    rw [hemail] at h
    exact fun heq => h (congrArg some heq)

/-- A client with a user name of its own keeps its place in the user map. -/
theorem mem_keptClients {db : Db} {bindingId : Uuid} (hemails : ∀ d ∈ db.clients.rows, d.email ≠ some "")
    {r : Client} (hr : r ∈ authorizedClients db bindingId) (hname : OwnName db.clients.rows r.id) :
    r ∈ keptClients db bindingId := by
  have hrow : ∀ d ∈ authorizedClients db bindingId, d ∈ db.clients.rows :=
    fun d hd => (mem_authorizedClients.mp hd).1
  have hkeyed : keyedClients db bindingId =
      (authorizedClients db bindingId).map fun d => (clientName d, d) := by
    rw [keyedClients, clientKeys, Mihomo.passwordKeys_of_ne_empty]
    · calc ((authorizedClients db bindingId).map clientName).zip (authorizedClients db bindingId)
          = ((authorizedClients db bindingId).map clientName).zip
              ((authorizedClients db bindingId).map id) := by rw [List.map_id]
        _ = (authorizedClients db bindingId).map fun d => (clientName d, d) := List.zip_map'
    · intro name hmem
      obtain ⟨d, hd, rfl⟩ := List.mem_map.mp hmem
      exact clientName_ne_empty (hemails d (hrow d hd))
  rw [keptClients, hkeyed]
  refine List.mem_map.mpr ⟨(clientName r, r), mem_lastEntries (List.mem_map.mpr ⟨r, hr, rfl⟩) ?_, rfl⟩
  rintro e he hkey
  obtain ⟨d, hd, rfl⟩ := List.mem_map.mp he
  have hid : d.id = r.id := by
    by_contra hne
    exact hname r (hrow r hr) rfl d (hrow d hd) hne hkey
  rw [eq_of_id_eq (hrow d hd) (hrow r hr) hid]

/-- A client that is admitted is among the users after injection. -/
theorem mem_builtCredentials_of_admitted {db : Db} {clientId : Uuid} {b : NodeBinding}
    {c : ProtocolConfig} {protocol : ProtocolType} (hadmitted : Admitted db clientId b c)
    (hemails : ∀ d ∈ db.clients.rows, d.email ≠ some "")
    (hprotocol : ProtocolType.fromStr? c.protocolType = some protocol)
    (hobject : (mergedSettings c b).isObject = true) :
    clientId.toStr ∈ builtCredentials (parseCoreType c.coreType) protocol
      (injected db b c.protocolType (mergedSettings c b)) := by
  obtain ⟨r, hr, rfl, hactive⟩ := hadmitted.client
  have hauthorized : r ∈ authorizedClients db b.id :=
    mem_authorizedClients.mpr ⟨hr, hadmitted.group, hactive⟩
  have hmembers : groupMembers db b.id ≠ [] :=
    List.ne_nil_of_mem (mem_groupMembers.mpr hadmitted.group)
  rw [← ProtocolType.toStr_of_fromStr? hprotocol, mem_builtCredentials_injected hmembers hobject]
  refine ⟨r, ?_, rfl⟩
  rw [acceptedClients]
  split
  next hkeys =>
    refine mem_keptClients hemails hauthorized (hadmitted.name ⟨hkeys.1, ?_⟩)
    rw [← ProtocolType.toStr_of_fromStr? hprotocol]
    cases protocol with
    | vlessReality => cases hkeys.2
    | vlessXhttp => cases hkeys.2
    | hysteria2 => decide
    | anytls => decide
  next => exact hauthorized

/-- The certificate settings of an active binding can be resolved when its node is configured. -/
theorem resolves_of_generated {gen : GenEnv} {db : Db} {nodeId : Uuid} {core : CoreType}
    {out : Json × Option String} (h : (generateNodeConfig gen nodeId core).exec db = .ok out)
    {b : NodeBinding} {c : ProtocolConfig} (hbinding : b ∈ activeBindings db nodeId)
    (hconfig : db.protocolConfigs.find b.protocolConfigId = some c)
    (hcore : parseCoreType c.coreType = core) :
    ∃ tls, (resolveManagedCertTls nodeId
      (SettingsHelper.mergeTlsSettings c.tlsSettings (overrideTls b))).exec db = .ok tls := by
  obtain ⟨ibs, _, hibs, -⟩ := generateNodeConfig_ok h
  obtain ⟨o, hexec, -⟩ := exec_collect_mem hibs hbinding
  rw [bindingInbound, exec_read_bind, hconfig] at hexec
  dsimp only at hexec
  rw [if_neg (not_not.mpr hcore), exec_bind] at hexec
  obtain ⟨protocol, -, hexec⟩ := Except.bind_eq_ok hexec
  rw [exec_bind] at hexec
  obtain ⟨settings, -, hexec⟩ := Except.bind_eq_ok hexec
  rw [exec_bind] at hexec
  obtain ⟨tls, htls, -⟩ := Except.bind_eq_ok hexec
  exact ⟨tls, htls⟩

/-- **An exit that fits accepts the relay client.** -/
theorem accepted_of_fits {gen : GenEnv} {db : Db}
    (hemails : ∀ d ∈ db.clients.rows, d.email ≠ some "")
    (hfits : ∀ rule ∈ db.relayRules.rows, rule.enabled = true → ExitFits db rule) :
    RelayAccepted gen db := by
  rintro rule hrule henabled core outbound ⟨_, _, hop, -, hhop, hbuild, -⟩ b c hexit config version
    hgen
  obtain ⟨hport, hprotocol⟩ := relayHop_exit hhop hexit
  obtain ⟨hserve, hadmitted⟩ := hfits rule hrule henabled b c hexit
  have hserve := hserve (relayable_of_ne hprotocol (ne_vlessXhttp_of_build hbuild))
  have hlt : hop.port < 2 ^ 64 := by
    rw [hport]
    omega
  have hbinding : b ∈ activeBindings db b.nodeId :=
    Table.mem_filter.mpr ⟨Table.mem_of_find hexit.binding, by simp [hserve.active]⟩
  obtain ⟨tls, htls⟩ := resolves_of_generated hgen hbinding hexit.config rfl
  obtain ⟨inbound, hinbound⟩ := Option.isSome_iff_exists.mp
    ((exists_buildInbound_of_generated hgen hbinding hexit.config rfl htls).mpr
      (hserve.certificate.imp_right fun hcert => hcert tls htls))
  obtain ⟨c', protocol, tls', hconfig, -, hprotocol', -, hbuilt⟩ := inboundFor_eq_some hinbound
  rw [hexit.config] at hconfig
  cases hconfig
  refine ⟨hop.port, dialedPort_build hbuild hlt, inbound, ?_, hinbound, ⟨c.listenAddress, ?_⟩, ?_⟩
  · rw [emitted_generateNodeConfig hgen]
    exact List.mem_filterMap.mpr ⟨b, hbinding, hinbound⟩
  · rw [listenPair_inbound rfl hbuilt, hport, ← hserve.port, listenPlace, if_pos hserve.settings]
  · rw [credentials_buildInbound hbuilt, builtCredentials_withListen]
    exact mem_builtCredentials_of_admitted hadmitted hemails hprotocol' hserve.settings

/-- **Every enabled rule with an exit is emitted** when its entry is configured. -/
theorem exists_emitsRelay {gen : GenEnv} {db : Db} {core : CoreType} {rule : RelayRule}
    (hdistinct : ((db.relayRules.filter fun r => r.nodeId = rule.nodeId ∧ r.enabled).map
      fun r => r.id.short).Nodup)
    (hrule : rule ∈ db.relayRules.rows) (henabled : rule.enabled = true) {hop : RelayHop}
    (hhop : relayHop db rule = some hop) {out : Json × Option String}
    (hgen : (generateNodeConfig gen rule.nodeId core).exec db = .ok out) :
    ∃ outbound, EmitsRelay gen db core rule outbound := by
  obtain ⟨ibs, base, -, hbase, hrun, -⟩ := generateNodeConfig_ok hgen
  obtain ⟨outbound, hmem, hbuild⟩ :=
    exists_mem_outbounds hbase hdistinct hrun hrule rfl henabled hhop
  exact ⟨outbound, out.1, out.2, hop, hgen, hhop, hbuild, hmem⟩

/-- Entry and exit of an enabled rule are configured, and the exit does not have its client. -/
def refuses (gen : GenEnv) (db : Db) (core : CoreType) (rule : RelayRule) : Bool :=
  rule.enabled && (relayHop db rule).isSome &&
    match (generateNodeConfig gen rule.nodeId core).exec db,
      db.nodeBindings.find rule.exitBindingId with
    | .ok _, some b =>
      match db.protocolConfigs.find b.protocolConfigId with
      | some c =>
        match (generateNodeConfig gen b.nodeId (parseCoreType c.coreType)).exec db with
        | .ok _ => (inboundFor db b.nodeId (parseCoreType c.coreType) b).all fun inbound =>
            rule.relayClientId.toStr ∉ credentials inbound
        | .error _ => false
      | none => false
    | _, _ => false

theorem not_accepted_of_refuses {gen : GenEnv} {db : Db} {core : CoreType}
    (hdistinct : (db.relayRules.rows.map (·.id.short)).Nodup)
    (h : db.relayRules.rows.any (refuses gen db core) = true) : ¬ RelayAccepted gen db := by
  obtain ⟨rule, hrule, hrefuses⟩ := List.any_eq_true.mp h
  rw [refuses, Bool.and_eq_true, Bool.and_eq_true] at hrefuses
  obtain ⟨⟨henabled, hhop⟩, hrefuses⟩ := hrefuses
  obtain ⟨hop, hhop⟩ := Option.isSome_iff_exists.mp hhop
  split at hrefuses
  next out b hgen hbinding =>
    obtain ⟨outbound, hemits⟩ := exists_emitsRelay
      (hdistinct.sublist (List.filter_sublist.map _)) hrule henabled hhop hgen
    split at hrefuses
    next c hconfig =>
      split at hrefuses
      next out' hgen' =>
        intro haccepted
        obtain ⟨_, -, inbound, -, hinbound, -, hmem⟩ :=
          haccepted rule hrule henabled core outbound hemits b c ⟨hbinding, hconfig⟩ out'.1 out'.2 hgen'
        rw [hinbound, Option.all_some] at hrefuses
        exact of_decide_eq_true hrefuses hmem
      next => cases hrefuses
    next => cases hrefuses
  next => cases hrefuses

/-! ### Requests -/

namespace RelayCredentials

open Handler

/-- The requests to the routes of relay rules, bindings, protocol configs, node groups and
clients, with the identifiers they draw. -/
inductive Request where
  | createRelayRule (ids : RelayIds) (id : Uuid) (payload : CreateRelayRulePayload)
  | updateRelayRule (ids : RelayIds) (id : Uuid) (payload : UpdateRelayRulePayload)
  | deleteRelayRule (id : Uuid)
  | createBinding (id : Uuid) (payload : CreateBindingPayload)
  | updateBinding (id : Uuid) (payload : UpdateBindingPayload)
  | deleteBinding (id : Uuid)
  | createConfig (id : Uuid) (payload : CreateConfigPayload)
  | updateConfig (id : Uuid) (payload : UpdateConfigPayload)
  | deleteConfig (id : Uuid)
  | createGroup (id : Uuid) (payload : CreateGroupPayload)
  | updateGroup (id : Uuid) (payload : UpdateGroupPayload)
  | deleteGroup (id : Uuid)
  | createClient (id userId : Uuid) (payload : CreateClientPayload)
  | updateClient (id : Uuid) (payload : UpdateClientPayload)
  | deleteClient (id : Uuid)
  | resetClientTraffic (id : Uuid)

/-- A handler that writes all its rows or none. -/
def atOnce (f : Db → ApiResult Db) : Handler Unit := do
  set (← lift (f (← get)))

def handle (env : EditEnv) : Request → Handler Unit
  | .createRelayRule ids id payload => Hub.createRelayRule env ids id payload
  | .updateRelayRule ids id payload => Hub.updateRelayRule env ids id payload
  | .deleteRelayRule id => Hub.deleteRelayRule env id
  | .createBinding id payload => Hub.createBinding id payload
  | .updateBinding id payload => Hub.updateBinding id payload
  | .deleteBinding id => Hub.deleteBinding id
  | .createConfig id payload => Hub.createConfig env id payload
  | .updateConfig id payload => Hub.updateConfig env id payload
  | .deleteConfig id => Hub.deleteConfig env id
  | .createGroup id payload => atOnce (Hub.createGroup env.now id payload)
  | .updateGroup id payload => atOnce (Hub.updateGroup env.now id payload)
  | .deleteGroup id => atOnce (Hub.deleteGroup id)
  | .createClient id userId payload => atOnce (Hub.createClient env.now id userId payload)
  | .updateClient id payload => atOnce (Hub.updateClient env.now id payload)
  | .deleteClient id => atOnce (Hub.deleteClient id)
  | .resetClientTraffic id => atOnce (Hub.resetClientTraffic env.now id)

/-- A new relay client and its links. -/
def freshIds (db : Db) (ids : RelayIds) : Bool :=
  (db.clients.find ids.clientId).isNone && db.relayRules.rows.all (·.relayClientId ≠ ids.clientId) &&
    decide (db.clientGroupBindings.rows.map (·.id) ++
      db.nodeBindingGroupBindings.rows.map fun link => ids.linkId link.id).Nodup

/-- Identifiers that are drawn at random are new. -/
def fresh (db : Db) : Request → Bool
  | .createRelayRule ids id _ => freshIds db ids && (db.relayRules.find id).isNone
  | .updateRelayRule ids _ _ => freshIds db ids
  | .createBinding id _ => db.relayRules.rows.all (·.exitBindingId ≠ id)
  | .createConfig id _ => db.nodeBindings.rows.all (·.protocolConfigId ≠ id)
  | .createGroup id payload => db.nodeBindingGroupBindings.rows.all (·.groupId ≠ id) &&
      decide (NewBindingLinks db (payload.bindingIds.getD []))
  | .updateGroup _ payload => decide (NewBindingLinks db (payload.bindingIds.getD []))
  | .createClient id _ payload => db.relayRules.rows.all (·.relayClientId ≠ id) &&
      decide (NewClientLinks db (payload.groupIds.getD []))
  | .updateClient _ payload => decide (NewClientLinks db (payload.groupIds.getD []))
  | _ => true

/-- A request is served, and an error leaves the rows as they are at that point. -/
def step (db : Db) (call : EditEnv × Request) : Option Db :=
  if fresh db call.2 then
    match handle call.1 call.2 db with
    | .ok _ db' => some db'
    | .error _ db' => some db'
  else none

/-- No relay rule yet, and no user name that is empty. -/
structure Start (db : Db) : Prop where
  rules : db.relayRules.rows = []
  emails : ∀ c ∈ db.clients.rows, c.email ≠ some ""

/-! ### What a request must leave alone -/

/-- The relay clients of enabled rules keep their user names for themselves. -/
def NamesKept (db : Db) (clients : List Client) : Prop :=
  ∀ rule ∈ db.relayRules.rows, rule.enabled = true → ∀ b c, ExitOf db rule.exitBindingId b c →
    Keyed c → OwnName clients rule.relayClientId

/-- An exit can take a new relay client: it serves, is in a group, and the name is new. -/
def CanTake (db : Db) (exitBindingId : Uuid) (clients : List Client) (clientId : Uuid) : Prop :=
  ∀ b c, ExitOf db exitBindingId b c →
    CanServe db b c ∧ bindingGroupIds db b.id ≠ [] ∧ (Keyed c → OwnName clients clientId)

/-- The clients once a rule has moved to another exit. -/
def movedClients (env : EditEnv) (ids : RelayIds) (db : Db) (payload : UpdateRelayRulePayload)
    (rule : RelayRule) : List Client :=
  (db.clients.deleteWhere (·.id = rule.relayClientId)).rows ++
    [relayClient env.now ids (payload.name.getD rule.name)]

/-- What a request that is granted must leave to the enabled rules: an exit that serves, and a
relay client that is active, in a group of the exit and alone with its name. -/
def Spares (env : EditEnv) (db : Db) : Request → Prop
  | .createRelayRule ids _ payload =>
    let clients := db.clients.rows ++ [relayClient env.now ids payload.name]
    NamesKept db clients ∧ (payload.enabled.getD true = true →
      CanTake db payload.exitBindingId clients ids.clientId)
  | .updateRelayRule ids id payload => ∀ rule, db.relayRules.find id = some rule →
    payload.enabled.getD rule.enabled = true →
    if payload.movesExit rule then CanTake db (payload.exitBindingId.getD rule.exitBindingId)
      (movedClients env ids db payload rule) ids.clientId
    else rule.enabled = true ∨ ExitFits db rule
  | .updateBinding id payload => ∀ rule ∈ db.relayRules.rows, rule.enabled = true →
    rule.exitBindingId = id → ∀ b c, ExitOf db id b c → Relayable c → CanServe db (payload.apply b) c
  | .updateConfig id payload => ∀ rule ∈ db.relayRules.rows, rule.enabled = true →
    ∀ b c, ExitOf db rule.exitBindingId b c → c.id = id →
      (Relayable (payload.apply env.now c) → CanServe db b (payload.apply env.now c)) ∧
        (Keyed (payload.apply env.now c) → OwnName db.clients.rows rule.relayClientId)
  | .updateGroup id payload => ∀ bindingIds, payload.bindingIds = some bindingIds →
    ∀ rule ∈ db.relayRules.rows, rule.enabled = true → ∀ b c, ExitOf db rule.exitBindingId b c →
      ∃ g ∈ clientGroupIds db rule.relayClientId,
        if g = id then b.id ∈ bindingIds.map Prod.fst else g ∈ bindingGroupIds db b.id
  | .createClient id userId payload =>
    NamesKept db (db.clients.rows ++ [payload.client env.now id userId])
  | .updateClient id payload =>
    NamesKept db (db.clients.update id (payload.apply env.now)).rows ∧
    ∀ rule ∈ db.relayRules.rows, rule.enabled = true → rule.relayClientId = id →
      ∀ b c, ExitOf db rule.exitBindingId b c → payload.status.getD "active" = "active" ∧
        ∀ groupIds, payload.groupIds = some groupIds →
          ∃ g ∈ groupIds.map Prod.fst, g ∈ bindingGroupIds db b.id
  | .deleteClient id => ∀ rule ∈ db.relayRules.rows, rule.enabled = true →
    ∀ b c, ExitOf db rule.exitBindingId b c → rule.relayClientId ≠ id
  | _ => True

/-- A rule that moves to another exit loses its client before its new name is looked at: the
name must not be blank, and the new client must not take the name of another. -/
def Moves (env : EditEnv) (db : Db) : Request → Prop
  | .updateRelayRule ids id payload => ∀ rule, db.relayRules.find id = some rule →
    payload.movesExit rule = true →
    validateRelayPayload db rule.nodeId (payload.exitBindingId.getD rule.exitBindingId)
      (payload.matchType.getD rule.matchType) (payload.matchConfig.getD rule.matchConfig) = .ok () →
    NamesKept db (movedClients env ids db payload rule) ∧ (payload.name.any (Text.trim · = "") →
      rule.enabled = true → ∀ b c, ¬ ExitOf db rule.exitBindingId b c)
  | _ => True

/-- **The requests that keep the credentials good.** -/
def Keeps (db : Db) (call : EditEnv × Request) : Prop :=
  ((∃ db', handle call.1 call.2 db = .ok () db') → Spares call.1 db call.2) ∧
    Moves call.1 db call.2

/-- What such requests keep. -/
structure Inv (db : Db) : Prop where
  fits : ∀ rule ∈ db.relayRules.rows, rule.enabled = true → ExitFits db rule
  /-- Every rule has a relay client of its own. -/
  own : ∀ rule ∈ db.relayRules.rows, ∀ rule' ∈ db.relayRules.rows,
    rule.relayClientId = rule'.relayClientId → rule.id = rule'.id
  emails : ∀ c ∈ db.clients.rows, c.email ≠ some ""

theorem inv_of_start {db : Db} (h : Start db) : Inv db := by
  have hnone : ∀ rule ∈ db.relayRules.rows, False := by
    intro rule hrule
    rw [h.rules] at hrule
    cases hrule
  exact ⟨fun rule hrule => (hnone rule hrule).elim, fun rule hrule => (hnone rule hrule).elim,
    h.emails⟩

/-! ### What rules read -/

section Frame

variable {env : EditEnv} {db db' : Db} {rule rule' : RelayRule} {b : NodeBinding}
  {c : ProtocolConfig} {k : Uuid}

theorem canServe_of_certificates (hserve : CanServe db b c) (h : db'.certificates = db.certificates) :
    CanServe db' b c := by
  refine ⟨hserve.active, hserve.settings, hserve.port, hserve.certificate.imp_right fun hcert tls htls => ?_⟩
  rw [exec_resolveManagedCertTls_congr h] at htls
  exact hcert tls htls

/-- A rule fits as long as its exit is the same and admits the client. -/
theorem fits_of_exit (h : ExitFits db rule) (hcertificates : db'.certificates = db.certificates)
    (hexit : ∀ b c, ExitOf db' rule'.exitBindingId b c → ExitOf db rule.exitBindingId b c)
    (hadmitted : ∀ b c, ExitOf db rule.exitBindingId b c → Admitted db rule.relayClientId b c →
      Admitted db' rule'.relayClientId b c) : ExitFits db' rule' := by
  intro b c hexit'
  obtain ⟨hserve, hclient⟩ := h b c (hexit b c hexit')
  exact ⟨fun hrelay => canServe_of_certificates (hserve hrelay) hcertificates,
    hadmitted b c (hexit b c hexit') hclient⟩

/-- What is written besides rules, exits and clients does not matter. -/
theorem inv_of_clients (hI : Inv db) {clients : Table Client} {links : Table ClientGroupBinding}
    (hadmitted : ∀ rule ∈ db.relayRules.rows, rule.enabled = true → ∀ b c,
      ExitOf db rule.exitBindingId b c → Admitted db rule.relayClientId b c →
      Admitted { db with clients, clientGroupBindings := links } rule.relayClientId b c)
    (hemails : ∀ d ∈ clients.rows, d.email ≠ some "") :
    Inv { db with clients, clientGroupBindings := links } := by
  refine ⟨fun rule hrule henabled => ?_, hI.own, hemails⟩
  exact fits_of_exit (hI.fits rule hrule henabled) rfl (fun b c h => ⟨h.binding, h.config⟩)
    (hadmitted rule hrule henabled)

/-- Bindings and configs: every exit that is left is an exit as before, in its groups. -/
theorem inv_of_exits (hI : Inv db) {bindings : Table NodeBinding} {configs : Table ProtocolConfig}
    {links : Table NodeBindingGroupBinding}
    (hexit : ∀ rule ∈ db.relayRules.rows, ∀ b c,
      ExitOf { db with nodeBindings := bindings, protocolConfigs := configs } rule.exitBindingId b c →
        ExitOf db rule.exitBindingId b c ∧ ∀ g ∈ bindingGroupIds db b.id,
          g ∈ bindingGroupIds { db with nodeBindingGroupBindings := links } b.id) :
    Inv { db with nodeBindings := bindings, protocolConfigs := configs,
                  nodeBindingGroupBindings := links } := by
  refine ⟨fun rule hrule henabled b c hexit' => ?_, hI.own, hI.emails⟩
  obtain ⟨hold, hgroups⟩ := hexit rule hrule b c ⟨hexit'.binding, hexit'.config⟩
  obtain ⟨hserve, hclient⟩ := hI.fits rule hrule henabled b c hold
  refine ⟨fun hrelay => canServe_of_certificates (hserve hrelay) rfl, hclient.client, ?_, hclient.name⟩
  obtain ⟨g, hg, hmember⟩ := hclient.group
  exact ⟨g, hgroups g hg, hmember⟩

theorem inv_of_sameContents (h : SameContents db db') (hI : Inv db) : Inv db' := by
  obtain ⟨rows, rfl⟩ := h
  refine ⟨fun rule hrule henabled => ?_, hI.own, hI.emails⟩
  exact fits_of_exit (hI.fits rule hrule henabled) rfl (fun b c h => ⟨h.binding, h.config⟩)
    fun b c _ h => ⟨h.client, h.group, h.name⟩

/-! ### Relay clients -/

/-- Another relay client goes. -/
theorem admitted_without (h : Admitted db k b c) {gone : Uuid} (hk : k ≠ gone) :
    Admitted (withoutRelayClient db gone) k b c := by
  obtain ⟨r, hr, hid, hactive⟩ := h.client
  obtain ⟨g, hg, hmember⟩ := h.group
  refine ⟨⟨r, Table.mem_deleteWhere.mpr ⟨hr, ?_⟩, hid, hactive⟩, ⟨g, hg, ?_⟩, fun hkeyed => ?_⟩
  · exact decide_eq_false fun heq => hk (hid.symm.trans heq)
  · obtain ⟨link, hlink, hclient, hgroup⟩ := mem_clientGroupIds.mp hmember
    refine mem_clientGroupIds.mpr ⟨link, Table.mem_deleteWhere.mpr ⟨hlink, ?_⟩, hclient, hgroup⟩
    exact decide_eq_false fun heq => hk (hclient.symm.trans heq)
  · intro r' hr' hid' d hd
    exact h.name hkeyed r' (Table.mem_deleteWhere.mp hr').1 hid' d (Table.mem_deleteWhere.mp hd).1

variable {ids : RelayIds} {ruleName : String} {exitBindingId : Uuid} {clients : Table Client}
  {links : Table ClientGroupBinding}

theorem rows_of_provisioned (h : Provisioned env ids ruleName exitBindingId db clients links) :
    clients.rows = db.clients.rows ++ [relayClient env.now ids ruleName] :=
  Table.rows_of_insert h.client

/-- A relay client is added. -/
theorem admitted_of_provisioned (h : Provisioned env ids ruleName exitBindingId db clients links)
    (hadmitted : Admitted db k b c) (hname : Keyed c → OwnName clients.rows k) :
    Admitted { db with clients, clientGroupBindings := links } k b c := by
  obtain ⟨r, hr, hid, hactive⟩ := hadmitted.client
  obtain ⟨g, hg, hmember⟩ := hadmitted.group
  refine ⟨⟨r, ?_, hid, hactive⟩, ⟨g, hg, ?_⟩, hname⟩
  · rw [rows_of_provisioned h]
    exact List.mem_append_left _ hr
  · obtain ⟨link, hlink, hclient⟩ := mem_clientGroupIds.mp hmember
    refine mem_clientGroupIds.mpr ⟨link, ?_, hclient⟩
    rw [h.links]
    exact List.mem_append_left _ hlink

/-- The new relay client itself. -/
theorem admitted_provisioned (h : Provisioned env ids ruleName exitBindingId db clients links)
    (hbinding : db.nodeBindings.find exitBindingId = some b)
    (hgroups : bindingGroupIds db b.id ≠ []) (hname : Keyed c → OwnName clients.rows ids.clientId) :
    Admitted { db with clients, clientGroupBindings := links } ids.clientId b c := by
  obtain ⟨g, hg⟩ := List.exists_mem_of_ne_nil _ hgroups
  obtain ⟨link, hlink, hid, hgroup⟩ := mem_bindingGroupIds.mp hg
  refine ⟨⟨relayClient env.now ids ruleName, ?_, rfl, rfl⟩, ⟨g, hg, ?_⟩, hname⟩
  · rw [rows_of_provisioned h]
    exact List.mem_append_right _ (List.mem_singleton_self _)
  · refine mem_clientGroupIds.mpr ⟨⟨ids.linkId link.id, ids.clientId, link.groupId⟩, ?_, rfl, hgroup⟩
    rw [h.links]
    refine List.mem_append_right _ (List.mem_map.mpr ⟨link, Table.mem_filter.mpr ⟨hlink, ?_⟩, rfl⟩)
    exact decide_eq_true (hid.trans (Table.key_of_find hbinding))

theorem emails_of_provisioned (h : Provisioned env ids ruleName exitBindingId db clients links)
    (hemails : ∀ d ∈ db.clients.rows, d.email ≠ some "") : ∀ d ∈ clients.rows, d.email ≠ some "" := by
  intro d hd
  rw [rows_of_provisioned h] at hd
  rcases List.mem_append.mp hd with hd | hd
  · exact hemails d hd
  · cases List.mem_singleton.mp hd
    intro heq
    have hlist := congrArg String.toList (Option.some.inj heq)
    rw [String.toList_append, String.toList_append] at hlist
    exact nomatch hlist

/-- New identifiers are enough for a relay client and its links. -/
theorem exists_provisioned (env : EditEnv) (ruleName : String) (exitBindingId : Uuid)
    (hfresh : freshIds db ids = true) :
    ∃ db', provisionRelayClient env ids ruleName exitBindingId db = .ok () db' := by
  simp only [freshIds, Bool.and_eq_true, decide_eq_true_eq, Option.isNone_iff_eq_none] at hfresh
  obtain ⟨⟨hclient, -⟩, hlinks⟩ := hfresh
  have hnew : key (relayClient env.now ids ruleName) ∉ db.clients.rows.map key := by
    intro hmem
    obtain ⟨r, hr, hid⟩ := List.mem_map.mp hmem
    exact Table.find_eq_none_iff.mp hclient r hr hid
  obtain ⟨clients, hinsert, -⟩ := Table.insert_of_fresh hnew
  -- a link is inserted as long as its identifier and those of the links after it are new
  have hcopy : ∀ (links : List NodeBindingGroupBinding) (db₁ : Db),
      (db₁.clientGroupBindings.rows.map key ++ links.map fun link => ids.linkId link.id).Nodup →
      ∃ db', copyLinks ids links db₁ = .ok () db' := by
    intro links
    induction links with
    | nil => exact fun db₁ _ => ⟨db₁, rfl⟩
    | cons link links ih =>
      intro db₁ hnodup
      have hlink : key (⟨ids.linkId link.id, ids.clientId, link.groupId⟩ : ClientGroupBinding) ∉
          db₁.clientGroupBindings.rows.map key := fun hmem =>
        (List.nodup_append.mp hnodup).2.2 _ hmem _ List.mem_cons_self rfl
      obtain ⟨inserted, hinserted, hrows⟩ := Table.insert_of_fresh hlink
      obtain ⟨db', hrest⟩ := ih { db₁ with clientGroupBindings := inserted } (by
        rw [hrows, List.map_append, List.append_assoc]
        exact hnodup)
      refine ⟨db', bind_eq_ok.mpr ⟨db₁, db₁, rfl, bind_eq_ok.mpr ⟨inserted, db₁, ?_, ?_⟩⟩⟩
      · exact orThrow_eq_ok.mpr ⟨hinserted, rfl⟩
      · exact bind_eq_ok.mpr ⟨⟨⟩, _, rfl, hrest⟩
  obtain ⟨db', hdb'⟩ := hcopy (db.nodeBindingGroupBindings.filter (·.nodeBindingId = exitBindingId))
    { db with clients } (hlinks.sublist (List.Sublist.append (List.Sublist.refl _)
      (List.filter_sublist.map _)))
  refine ⟨db', bind_eq_ok.mpr ⟨db, db, rfl, bind_eq_ok.mpr ⟨clients, db, ?_, ?_⟩⟩⟩
  · exact orThrow_eq_ok.mpr ⟨hinsert, rfl⟩
  · exact bind_eq_ok.mpr ⟨⟨⟩, _, rfl, hdb'⟩

end Frame

/-! ### Requests on relay rules -/

section Rules

variable {env : EditEnv} {db db' : Db} {ids : RelayIds} {id : Uuid} {e : ApiError}

theorem ne_of_freshIds (h : freshIds db ids = true) {rule : RelayRule}
    (hrule : rule ∈ db.relayRules.rows) : rule.relayClientId ≠ ids.clientId := by
  simp only [freshIds, Bool.and_eq_true, List.all_eq_true, decide_eq_true_eq] at h
  exact h.1.2 rule hrule

theorem freshIds_without (h : freshIds db ids = true) (gone : Uuid) :
    freshIds (withoutRelayClient db gone) ids = true := by
  simp only [freshIds, Bool.and_eq_true, decide_eq_true_eq, Option.isNone_iff_eq_none] at h ⊢
  obtain ⟨⟨hclient, hrules⟩, hlinks⟩ := h
  refine ⟨⟨?_, hrules⟩, hlinks.sublist (List.Sublist.append ?_ (List.Sublist.refl _))⟩
  · refine Table.find_eq_none_iff.mpr fun r hr => ?_
    exact Table.find_eq_none_iff.mp hclient r (Table.mem_deleteWhere.mp hr).1
  · exact List.filter_sublist.map _

/-- A request that fails has written nothing. -/
theorem createRelayRule_error {payload : CreateRelayRulePayload} (hfresh : freshIds db ids = true)
    (hid : db.relayRules.find id = none)
    (h : Hub.createRelayRule env ids id payload db = .error e db') : db' = db := by
  have hkey : key (payload.rule env.now id ids.clientId) ∉ db.relayRules.rows.map key := by
    intro hmem
    obtain ⟨r, hr, hkey⟩ := List.mem_map.mp hmem
    exact Table.find_eq_none_iff.mp hid r hr hkey
  obtain ⟨relayRules, hinsert, -⟩ := Table.insert_of_fresh hkey
  obtain ⟨db₁, hdb₁⟩ := exists_provisioned env payload.name payload.exitBindingId hfresh
  obtain ⟨clients, links, -, hrows⟩ := provisionRelayClient_ok hdb₁
  rw [Hub.createRelayRule] at h
  split at h
  · rcases bind_eq_error.mp h with h | ⟨_, _, hm, -⟩
    · cases h
      rfl
    · cases hm
  · simp only [bind_eq_error, get_eq_error, get_eq_ok, orThrow_eq_error, orThrow_eq_ok,
      lift_eq_error, lift_eq_ok, set_eq_error, set_eq_ok, modify_eq_error, false_or, and_false,
      exists_false, or_false] at h
    obtain ⟨_, _, ⟨rfl, rfl⟩, ⟨-, rfl⟩ | ⟨_, _, ⟨-, rfl⟩, hprovision | ⟨_, _, hprovision, _, _, ⟨rfl, rfl⟩,
      hnone, -⟩⟩⟩ := h
    · rfl
    · rw [hdb₁] at hprovision
      cases hprovision
    · rw [hdb₁] at hprovision
      cases hprovision
      subst hrows
      cases hinsert.symm.trans hnone

/-- A request that fails has written nothing, unless its name is blank: then the rule has lost
its client. -/
theorem updateRelayRule_error {payload : UpdateRelayRulePayload} (hfresh : freshIds db ids = true)
    (h : Hub.updateRelayRule env ids id payload db = .error e db') :
    db' = db ∨ ∃ rule clients links, db.relayRules.find id = some rule ∧
      payload.movesExit rule = true ∧ payload.name.any (Text.trim · = "") = true ∧
      validateRelayPayload db rule.nodeId (payload.exitBindingId.getD rule.exitBindingId)
        (payload.matchType.getD rule.matchType) (payload.matchConfig.getD rule.matchConfig) =
          .ok () ∧
      Provisioned env ids (payload.name.getD rule.name)
        (payload.exitBindingId.getD rule.exitBindingId)
        (withoutRelayClient db rule.relayClientId) clients links ∧
      db' = { db with clients, clientGroupBindings := links } := by
  simp only [Hub.updateRelayRule, bind_eq_error, get_eq_error, get_eq_ok, orThrow_eq_error,
    orThrow_eq_ok, lift_eq_error, lift_eq_ok, modify_eq_error, modify_eq_ok, false_or, and_false,
    exists_false, or_false] at h
  obtain ⟨_, _, ⟨rfl, rfl⟩, ⟨-, -, rfl⟩ | ⟨rule, _, ⟨hrule, rfl⟩, ⟨-, rfl⟩ | ⟨_, _, ⟨hvalid, rfl⟩,
    hreprovision | ⟨_, _, hreprovision, hname, rfl⟩⟩⟩⟩ := h
  · exact Or.inl rfl
  · exact Or.inl rfl
  · -- the new client and its links have new identifiers
    rw [reprovision] at hreprovision
    split at hreprovision
    · obtain ⟨db₁, hdb₁⟩ := exists_provisioned env (payload.name.getD rule.name)
        (payload.exitBindingId.getD rule.exitBindingId)
        (freshIds_without hfresh rule.relayClientId)
      rcases bind_eq_error.mp hreprovision with hm | ⟨_, _, hm, hprovision⟩
      · exact (modify_eq_error.mp hm).elim
      · rw [modify_eq_ok.mp hm, hdb₁] at hprovision
        cases hprovision
    · cases hreprovision
  · obtain ⟨clients, links, hclients, rfl⟩ := reprovision_ok hreprovision
    have hblank : payload.name.any (Text.trim · = "") = true := by
      by_contra hnot
      rw [if_neg hnot] at hname
      cases hname
    rw [Reprovisioned] at hclients
    split at hclients
    next hmoves =>
      exact Or.inr ⟨rule, clients, links, hrule, hmoves, hblank, hvalid, hclients, rfl⟩
    next =>
      obtain ⟨rfl, rfl⟩ := hclients
      exact Or.inl rfl

theorem updateRelayRule_valid {payload : UpdateRelayRulePayload} {rule : RelayRule}
    (hrule : db.relayRules.find id = some rule)
    (h : Hub.updateRelayRule env ids id payload db = .ok () db') :
    validateRelayPayload db rule.nodeId (payload.exitBindingId.getD rule.exitBindingId)
      (payload.matchType.getD rule.matchType) (payload.matchConfig.getD rule.matchConfig) =
        .ok () := by
  simp only [Hub.updateRelayRule, bind_eq_ok, get_eq_ok, orThrow_eq_ok, lift_eq_ok] at h
  obtain ⟨_, _, ⟨rfl, rfl⟩, rule', _, ⟨hrule', rfl⟩, _, _, ⟨hvalid, rfl⟩, -⟩ := h
  rw [hrule] at hrule'
  cases hrule'
  exact hvalid

theorem deleteRelayRule_error (h : Hub.deleteRelayRule env id db = .error e db') : db' = db := by
  simp only [Hub.deleteRelayRule, bind_eq_error, get_eq_error, get_eq_ok, orThrow_eq_error,
    orThrow_eq_ok, modify_eq_error, false_or, and_false, exists_false, or_false] at h
  obtain ⟨_, _, ⟨rfl, rfl⟩, -, -, rfl⟩ := h
  rfl

theorem inv_createRelayRule {payload : CreateRelayRulePayload} (hI : Inv db)
    (hfresh : freshIds db ids = true) (hspares : Spares env db (.createRelayRule ids id payload))
    (h : Hub.createRelayRule env ids id payload db = .ok () db') : Inv db' := by
  obtain ⟨-, clients, links, relayRules, hprovisioned, hinsert, rfl⟩ := createRelayRule_ok h
  refine inv_of_sameContents (sameContents_markBoth ..) ?_
  obtain ⟨hnames, htake⟩ := hspares
  rw [← rows_of_provisioned hprovisioned] at hnames htake
  have hrow : ∀ rule ∈ relayRules.rows,
      rule ∈ db.relayRules.rows ∨ rule = payload.rule env.now id ids.clientId := by
    intro rule hrule
    rw [Table.rows_of_insert hinsert] at hrule
    exact (List.mem_append.mp hrule).imp_right List.mem_singleton.mp
  refine ⟨fun rule hrule henabled => ?_, fun rule hrule rule' hrule' heq => ?_,
    emails_of_provisioned hprovisioned hI.emails⟩
  · rcases hrow rule hrule with hold | rfl
    · refine fits_of_exit (hI.fits rule hold henabled) rfl (fun b c h => ⟨h.binding, h.config⟩) ?_
      intro b c hexit hadmitted
      have hstill := admitted_of_provisioned hprovisioned hadmitted
        (hnames rule hold henabled b c hexit)
      exact ⟨hstill.client, hstill.group, hstill.name⟩
    · intro b c hexit
      have hexit' : ExitOf db payload.exitBindingId b c := ⟨hexit.binding, hexit.config⟩
      obtain ⟨hserve, hgroups, hname⟩ := htake henabled b c hexit'
      have hclient := admitted_provisioned hprovisioned hexit'.binding hgroups hname
      exact ⟨fun _ => canServe_of_certificates hserve rfl, hclient.client, hclient.group, hclient.name⟩
  · rcases hrow rule hrule with hold | rfl <;> rcases hrow rule' hrule' with hold' | rfl
    · exact hI.own rule hold rule' hold' heq
    · exact absurd heq (ne_of_freshIds hfresh hold)
    · exact absurd heq.symm (ne_of_freshIds hfresh hold')
    · rfl

theorem movedClients_eq {payload : UpdateRelayRulePayload} {moved : RelayRule} {exitBindingId : Uuid}
    {clients : Table Client} {links : Table ClientGroupBinding}
    (h : Provisioned env ids (payload.name.getD moved.name) exitBindingId
      (withoutRelayClient db moved.relayClientId) clients links) :
    movedClients env ids db payload moved = clients.rows := (rows_of_provisioned h).symm

/-- The rules that stay when one of them moves have their clients. -/
theorem admitted_of_move {rule moved : RelayRule}
    {exitBindingId : Uuid} {ruleName : String} {clients : Table Client}
    {links : Table ClientGroupBinding} (hI : Inv db) (hmoved : moved ∈ db.relayRules.rows)
    (hprovisioned : Provisioned env ids ruleName exitBindingId
      (withoutRelayClient db moved.relayClientId) clients links)
    (hrule : rule ∈ db.relayRules.rows) (hne : rule.id ≠ moved.id) {b : NodeBinding}
    {c : ProtocolConfig} (hadmitted : Admitted db rule.relayClientId b c)
    (hname : Keyed c → OwnName clients.rows rule.relayClientId) :
    Admitted { db with clients, clientGroupBindings := links } rule.relayClientId b c := by
  have hother : rule.relayClientId ≠ moved.relayClientId :=
    fun heq => hne (hI.own rule hrule moved hmoved heq)
  have hstill := admitted_of_provisioned hprovisioned (admitted_without hadmitted hother) hname
  exact ⟨hstill.client, hstill.group, hstill.name⟩

theorem inv_updateRelayRule {payload : UpdateRelayRulePayload} (hI : Inv db)
    (hfresh : freshIds db ids = true) (hspares : Spares env db (.updateRelayRule ids id payload))
    (hmoves : Moves env db (.updateRelayRule ids id payload))
    (h : Hub.updateRelayRule env ids id payload db = .ok () db') : Inv db' := by
  obtain ⟨moved, hfind, clients, links, hclients, rfl⟩ := updateRelayRule_ok h
  have hvalid := updateRelayRule_valid hfind h
  have hmoved := Table.mem_of_find hfind
  refine inv_of_sameContents (sameContents_markBoth ..) ?_
  have hrow : ∀ rule ∈ (db.relayRules.update id (payload.apply env.now ids.clientId)).rows,
      rule ∈ db.relayRules.rows ∧ rule.id ≠ moved.id ∨
        rule = payload.apply env.now ids.clientId moved := by
    intro rule hrule
    obtain ⟨r, hr, rfl⟩ := List.mem_map.mp hrule
    by_cases hid : key r = id
    · rw [if_pos ⟨hid, rfl⟩]
      exact Or.inr (by rw [Table.eq_of_key_eq hr hmoved (hid.trans (Table.key_of_find hfind).symm)])
    · rw [if_neg fun hand => hid hand.1]
      exact Or.inl ⟨hr, fun heq => hid (heq.trans (Table.key_of_find hfind))⟩
  have hspares := hspares moved hfind
  rw [Reprovisioned] at hclients
  by_cases hmove : payload.movesExit moved = true
  · rw [if_pos hmove] at hclients hspares
    have hnames := (hmoves moved hfind hmove hvalid).1
    have hclient : (payload.apply env.now ids.clientId moved).relayClientId = ids.clientId :=
      if_pos hmove
    rw [movedClients_eq hclients] at hspares hnames
    refine ⟨fun rule hrule henabled => ?_, fun rule hrule rule' hrule' heq => ?_,
      emails_of_provisioned hclients fun d hd => hI.emails d (Table.mem_deleteWhere.mp hd).1⟩
    · rcases hrow rule hrule with ⟨hold, hne⟩ | rfl
      · refine fits_of_exit (hI.fits rule hold henabled) rfl (fun b c h => ⟨h.binding, h.config⟩) ?_
        intro b c hexit hadmitted
        have hstill := admitted_of_move hI hmoved hclients hold hne hadmitted
          (hnames rule hold henabled b c hexit)
        exact ⟨hstill.client, hstill.group, hstill.name⟩
      · intro b c hexit
        have hexit' : ExitOf db (payload.exitBindingId.getD moved.exitBindingId) b c :=
          ⟨hexit.binding, hexit.config⟩
        obtain ⟨hserve, hgroups, hname⟩ := hspares henabled b c hexit'
        have hnew := admitted_provisioned (c := c) hclients hexit'.binding hgroups hname
        rw [hclient]
        exact ⟨fun _ => canServe_of_certificates hserve rfl, hnew.client, hnew.group, hnew.name⟩
    · rcases hrow rule hrule with ⟨hold, -⟩ | rfl <;> rcases hrow rule' hrule' with ⟨hold', -⟩ | rfl
      · exact hI.own rule hold rule' hold' heq
      · exact absurd (heq.trans hclient) (ne_of_freshIds hfresh hold)
      · exact absurd (heq.symm.trans hclient) (ne_of_freshIds hfresh hold')
      · rfl
  · rw [if_neg hmove] at hclients hspares
    obtain ⟨rfl, rfl⟩ := hclients
    have hclient : (payload.apply env.now ids.clientId moved).relayClientId = moved.relayClientId :=
      if_neg hmove
    have hexit : (payload.apply env.now ids.clientId moved).exitBindingId = moved.exitBindingId := by
      by_contra hne
      refine hmove ?_
      change payload.exitBindingId.getD moved.exitBindingId ≠ moved.exitBindingId at hne
      rw [UpdateRelayRulePayload.movesExit]
      cases hgiven : payload.exitBindingId with
      | none =>
        rw [hgiven] at hne
        exact absurd rfl hne
      | some exit =>
        rw [hgiven] at hne
        exact decide_eq_true hne
    refine ⟨fun rule hrule henabled => ?_, fun rule hrule rule' hrule' heq => ?_, hI.emails⟩
    · rcases hrow rule hrule with ⟨hold, -⟩ | rfl
      · exact fits_of_exit (hI.fits rule hold henabled) rfl (fun b c h => ⟨h.binding, h.config⟩)
          fun b c _ h => ⟨h.client, h.group, h.name⟩
      · have hfits : ExitFits db moved := (hspares henabled).elim (hI.fits moved hmoved) fun h => h
        refine fits_of_exit hfits rfl (fun b c h => ?_) fun b c _ h => ?_
        · rw [hexit] at h
          exact ⟨h.binding, h.config⟩
        · rw [hclient]
          exact ⟨h.client, h.group, h.name⟩
    · rcases hrow rule hrule with ⟨hold, -⟩ | rfl <;> rcases hrow rule' hrule' with ⟨hold', -⟩ | rfl
      · exact hI.own rule hold rule' hold' heq
      · exact hI.own rule hold moved hmoved (heq.trans hclient)
      · exact hI.own moved hmoved rule' hold' (hclient.symm.trans heq)
      · rfl

/-- **A rule that moves and has a blank name.**  Its client is gone when the request is refused,
which does no harm as long as the rule is disabled. -/
theorem inv_updateRelayRule_error {payload : UpdateRelayRulePayload} (hI : Inv db)
    (hfresh : freshIds db ids = true) (hmoves : Moves env db (.updateRelayRule ids id payload))
    (h : Hub.updateRelayRule env ids id payload db = .error e db') : Inv db' := by
  rcases updateRelayRule_error hfresh h with rfl | ⟨moved, clients, links, hfind, hmove, hblank,
    hvalid, hclients, rfl⟩
  · exact hI
  obtain ⟨hnames, hharmless⟩ := hmoves moved hfind hmove hvalid
  have hmoved := Table.mem_of_find hfind
  rw [movedClients_eq hclients] at hnames
  refine inv_of_clients hI (fun rule hrule henabled b c hexit hadmitted => ?_)
    (emails_of_provisioned hclients fun d hd => hI.emails d (Table.mem_deleteWhere.mp hd).1)
  by_cases hid : rule.id = moved.id
  · obtain rfl := Table.eq_of_key_eq hrule hmoved hid
    exact absurd hexit (hharmless hblank henabled b c)
  · exact admitted_of_move hI hmoved hclients hrule hid hadmitted
      (hnames rule hrule henabled b c hexit)

theorem inv_deleteRelayRule (hI : Inv db) (h : Hub.deleteRelayRule env id db = .ok () db') :
    Inv db' := by
  obtain ⟨gone, hfind, rfl⟩ := deleteRelayRule_ok h
  refine inv_of_sameContents (sameContents_markBoth ..) ?_
  have hrow : ∀ rule ∈ (db.relayRules.deleteWhere (·.id = id)).rows,
      rule ∈ db.relayRules.rows ∧ rule.id ≠ gone.id := by
    intro rule hrule
    obtain ⟨hold, hid⟩ := Table.mem_deleteWhere.mp hrule
    exact ⟨hold, fun heq => of_decide_eq_false hid (heq.trans (Table.key_of_find hfind))⟩
  refine ⟨fun rule hrule henabled => ?_, fun rule hrule rule' hrule' =>
    hI.own rule (hrow rule hrule).1 rule' (hrow rule' hrule').1,
    fun d hd => hI.emails d (Table.mem_deleteWhere.mp hd).1⟩
  obtain ⟨hold, hne⟩ := hrow rule hrule
  refine fits_of_exit (hI.fits rule hold henabled) rfl (fun b c h => ⟨h.binding, h.config⟩) ?_
  intro b c hexit hadmitted
  have hother : rule.relayClientId ≠ gone.relayClientId := fun heq =>
    hne (hI.own rule hold gone (Table.mem_of_find hfind) heq)
  have hstill := admitted_without hadmitted hother
  exact ⟨hstill.client, hstill.group, hstill.name⟩

end Rules

/-! ### Requests on exits -/

section Exits

variable {env : EditEnv} {db db' : Db} {id : Uuid} {e : ApiError}

/-- Bindings that go with their group links. -/
theorem inv_deleteBindings (hI : Inv db) (gone : Uuid → Bool) :
    Inv { db with
      nodeBindingGroupBindings := db.nodeBindingGroupBindings.deleteWhere (gone ·.nodeBindingId)
      nodeBindings := db.nodeBindings.deleteWhere (gone ·.id) } := by
  refine inv_of_exits hI fun rule _ b c hexit => ?_
  obtain ⟨hrow, hkept⟩ := Table.mem_deleteWhere.mp (Table.mem_of_find hexit.binding)
  have hbinding : db.nodeBindings.find rule.exitBindingId = some b :=
    Table.find_eq_some_iff.mpr ⟨hrow, Table.key_of_find hexit.binding⟩
  refine ⟨⟨hbinding, hexit.config⟩, fun g hg => ?_⟩
  obtain ⟨link, hlink, hid, hgroup⟩ := mem_bindingGroupIds.mp hg
  refine mem_bindingGroupIds.mpr ⟨link, Table.mem_deleteWhere.mpr ⟨hlink, ?_⟩, hid, hgroup⟩
  rw [hid]
  exact hkept

/-- A config that goes. -/
theorem inv_deleteProtocolConfig (hI : Inv db) (p : ProtocolConfig → Bool) :
    Inv { db with protocolConfigs := db.protocolConfigs.deleteWhere p } := by
  refine inv_of_exits hI fun rule _ b c hexit => ⟨⟨hexit.binding, ?_⟩, fun g hg => hg⟩
  have hrow := (Table.mem_deleteWhere.mp (Table.mem_of_find hexit.config)).1
  exact Table.find_eq_some_iff.mpr ⟨hrow, Table.key_of_find hexit.config⟩

theorem inv_deleteConfig (hI : Inv db) (h : Hub.deleteConfig env id db = .ok () db') : Inv db' := by
  rw [deleteConfig_ok h]
  refine inv_of_sameContents (sameContents_markBoth ..) ?_
  exact inv_deleteProtocolConfig
    (inv_deleteBindings hI fun k => decide (k ∈ (bindingsOfConfig db id).map (·.id))) _

/-- Bindings to a config that does not exist are deleted all the same. -/
theorem inv_deleteConfig_error (hI : Inv db) (h : Hub.deleteConfig env id db = .error e db') :
    Inv db' := by
  simp only [Hub.deleteConfig, bind_eq_error, get_eq_error, get_eq_ok, orThrow_eq_error,
    modify_eq_error, modify_eq_ok, false_or, and_false, exists_false, or_false] at h
  obtain ⟨_, _, ⟨rfl, rfl⟩, _, _, rfl, _, _, ⟨rfl, rfl⟩, -, -, rfl⟩ := h
  exact inv_deleteBindings hI fun k => decide (k ∈ (bindingsOfConfig _ id).map (·.id))

theorem inv_deleteBinding (hI : Inv db) (h : Hub.deleteBinding id db = .ok () db') : Inv db' := by
  obtain ⟨_, -, rfl⟩ := deleteBinding_ok h
  exact inv_deleteBindings hI fun k => decide (k = id)

/-- So are the group links of a binding that does not exist. -/
theorem inv_deleteBinding_error (hI : Inv db) (h : Hub.deleteBinding id db = .error e db') :
    Inv db' := by
  obtain ⟨hnone, rfl⟩ := deleteBinding_error h
  have hsame : db.nodeBindings.deleteWhere (fun b => decide (b.id = id)) = db.nodeBindings := by
    refine Table.ext_rows (List.filter_eq_self.mpr fun b hb => ?_)
    have hne : b.id ≠ id := Table.find_eq_none_iff.mp hnone b hb
    change (!decide (b.id = id)) = true
    rw [decide_eq_false hne]
    rfl
  have hgone := inv_deleteBindings hI fun k => decide (k = id)
  rw [hsame] at hgone
  exact hgone

theorem inv_createBinding {payload : CreateBindingPayload} (hI : Inv db)
    (hfresh : fresh db (.createBinding id payload) = true)
    (h : Hub.createBinding id payload db = .ok () db') : Inv db' := by
  obtain ⟨-, bindings, hinsert, rfl⟩ := createBinding_ok h
  refine inv_of_exits hI fun rule hrule b c hexit => ⟨⟨?_, hexit.config⟩, fun g hg => hg⟩
  have hne : rule.exitBindingId ≠ id := of_decide_eq_true (List.all_eq_true.mp hfresh rule hrule)
  have hfind := hexit.binding
  change bindings.find rule.exitBindingId = some b at hfind
  rw [Table.find_insert hinsert] at hfind
  exact (if_neg fun heq => hne heq.symm).symm.trans hfind

theorem inv_updateBinding {payload : UpdateBindingPayload} (hI : Inv db)
    (hspares : Spares env db (.updateBinding id payload))
    (h : Hub.updateBinding id payload db = .ok () db') : Inv db' := by
  obtain ⟨binding, hbinding, rfl⟩ := updateBinding_ok h
  refine ⟨fun rule hrule henabled b c hexit => ?_, hI.own, hI.emails⟩
  have hfind := hexit.binding
  by_cases hid : rule.exitBindingId = id
  · change (db.nodeBindings.update id payload.apply).find rule.exitBindingId = some b at hfind
    rw [hid, Table.find_update_self (f := payload.apply) fun _ => rfl, hbinding] at hfind
    cases hfind
    have hexit' : ExitOf db id binding c := ⟨hbinding, hexit.config⟩
    obtain ⟨-, hclient⟩ := hI.fits rule hrule henabled binding c (hid ▸ hexit')
    refine ⟨fun hrelay => ?_, hclient.client, hclient.group, hclient.name⟩
    exact canServe_of_certificates (hspares rule hrule henabled hid binding c hexit' hrelay) rfl
  · have hexit' : ExitOf db rule.exitBindingId b c :=
      ⟨(Table.find_update_of_ne hid _).symm.trans hfind, hexit.config⟩
    obtain ⟨hserve, hclient⟩ := hI.fits rule hrule henabled b c hexit'
    exact ⟨fun hrelay => canServe_of_certificates (hserve hrelay) rfl, hclient.client,
      hclient.group, hclient.name⟩

theorem inv_createConfig {payload : CreateConfigPayload} (hI : Inv db)
    (hfresh : fresh db (.createConfig id payload) = true)
    (h : Hub.createConfig env id payload db = .ok () db') : Inv db' := by
  obtain ⟨protocol, core, configs, hinsert, rfl⟩ := createConfig_ok h
  refine inv_of_exits hI fun rule hrule b c hexit => ⟨⟨hexit.binding, ?_⟩, fun g hg => hg⟩
  have hrow : b ∈ db.nodeBindings.rows := Table.mem_of_find hexit.binding
  have hne : b.protocolConfigId ≠ id := of_decide_eq_true (List.all_eq_true.mp hfresh b hrow)
  have hfind := hexit.config
  change configs.find b.protocolConfigId = some c at hfind
  rw [Table.find_insert hinsert] at hfind
  exact (if_neg fun heq => hne heq.symm).symm.trans hfind

theorem inv_updateConfig {payload : UpdateConfigPayload} (hI : Inv db)
    (hspares : Spares env db (.updateConfig id payload))
    (h : Hub.updateConfig env id payload db = .ok () db') : Inv db' := by
  obtain ⟨config, hconfig, rfl⟩ := updateConfig_ok h
  refine inv_of_sameContents (sameContents_markPending ..) ?_
  refine ⟨fun rule hrule henabled b c hexit => ?_, hI.own, hI.emails⟩
  have hfind := hexit.config
  by_cases hid : b.protocolConfigId = id
  · change (db.protocolConfigs.update id (payload.apply env.now)).find b.protocolConfigId = some c
      at hfind
    rw [hid, Table.find_update_self (f := payload.apply env.now) fun _ => rfl, hconfig] at hfind
    cases hfind
    have hexit' : ExitOf db rule.exitBindingId b config := ⟨hexit.binding, hid ▸ hconfig⟩
    obtain ⟨-, hclient⟩ := hI.fits rule hrule henabled b config hexit'
    obtain ⟨hserve, hname⟩ :=
      hspares rule hrule henabled b config hexit' (Table.key_of_find hconfig)
    exact ⟨fun hrelay => canServe_of_certificates (hserve hrelay) rfl, hclient.client,
      hclient.group, hname⟩
  · have hexit' : ExitOf db rule.exitBindingId b c :=
      ⟨hexit.binding, (Table.find_update_of_ne hid _).symm.trans hfind⟩
    obtain ⟨hserve, hclient⟩ := hI.fits rule hrule henabled b c hexit'
    exact ⟨fun hrelay => canServe_of_certificates (hserve hrelay) rfl, hclient.client,
      hclient.group, hclient.name⟩

end Exits

/-! ### Requests on groups and clients -/

section Members

variable {env : EditEnv} {db db' : Db} {id : Uuid}

theorem inv_of_nodeGroups (hI : Inv db) (nodeGroups : Table NodeGroup) :
    Inv { db with nodeGroups } := by
  refine ⟨fun rule hrule henabled => ?_, hI.own, hI.emails⟩
  exact fits_of_exit (hI.fits rule hrule henabled) rfl (fun b c h => ⟨h.binding, h.config⟩)
    fun b c _ h => ⟨h.client, h.group, h.name⟩

/-- The bindings of a group are replaced, and every relay client still shares one with its exit. -/
theorem inv_syncGroupBindings (hI : Inv db) {bindingIds : List (Uuid × Uuid)}
    (hnew : NewBindingLinks db bindingIds)
    (hshares : ∀ rule ∈ db.relayRules.rows, rule.enabled = true → ∀ b c,
      ExitOf db rule.exitBindingId b c → ∃ g ∈ clientGroupIds db rule.relayClientId,
        if g = id then b.id ∈ bindingIds.map Prod.fst else g ∈ bindingGroupIds db b.id) :
    Inv (syncGroupBindings db id bindingIds) := by
  refine ⟨fun rule hrule henabled => ?_, hI.own, hI.emails⟩
  refine fits_of_exit (hI.fits rule hrule henabled) rfl (fun b c h => ⟨h.binding, h.config⟩) ?_
  intro b c hexit hadmitted
  obtain ⟨g, hg, hbinding⟩ := hshares rule hrule henabled b c hexit
  exact ⟨hadmitted.client, ⟨g, (mem_bindingGroupIds_sync hnew).mpr hbinding, hg⟩, hadmitted.name⟩

theorem inv_createGroup {payload : CreateGroupPayload} (hI : Inv db)
    (hfresh : fresh db (.createGroup id payload) = true)
    (h : Hub.createGroup env.now id payload db = .ok db') : Inv db' := by
  obtain ⟨nodeGroups, -, rfl⟩ := createGroup_ok h
  simp only [fresh, Bool.and_eq_true, List.all_eq_true, decide_eq_true_eq] at hfresh
  obtain ⟨hgroup, hlinks⟩ := hfresh
  cases hgiven : payload.bindingIds with
  | none => exact inv_of_nodeGroups hI nodeGroups
  | some bindingIds =>
    rw [hgiven] at hlinks
    have hI' := inv_of_nodeGroups hI nodeGroups
    refine inv_syncGroupBindings hI' hlinks fun rule hrule henabled b c hexit => ?_
    obtain ⟨g, hg, hmember⟩ := (hI'.fits rule hrule henabled b c hexit).2.group
    obtain ⟨link, hlink, -, rfl⟩ := mem_bindingGroupIds.mp hg
    exact ⟨link.groupId, hmember, (if_neg (hgroup link hlink)).symm ▸ hg⟩

theorem inv_updateGroup {payload : UpdateGroupPayload} (hI : Inv db)
    (hfresh : fresh db (.updateGroup id payload) = true)
    (hspares : Spares env db (.updateGroup id payload))
    (h : Hub.updateGroup env.now id payload db = .ok db') : Inv db' := by
  obtain ⟨-, nodeGroups, -, rfl⟩ := updateGroup_ok h
  have hlinks := of_decide_eq_true hfresh
  cases hgiven : payload.bindingIds with
  | none => exact inv_of_nodeGroups hI nodeGroups
  | some bindingIds =>
    rw [hgiven] at hlinks
    exact inv_syncGroupBindings (inv_of_nodeGroups hI nodeGroups) hlinks
      fun rule hrule henabled b c hexit =>
        hspares bindingIds hgiven rule hrule henabled b c ⟨hexit.binding, hexit.config⟩

theorem inv_deleteGroup (hI : Inv db) (h : Hub.deleteGroup id db = .ok db') : Inv db' := by
  obtain ⟨nodeGroups, -, rfl⟩ := deleteGroup_ok h
  exact inv_of_nodeGroups hI nodeGroups

/-- The clients are replaced and the groups of one of them are, when groups are given. -/
def withGroups (db : Db) (clients : Table Client) (clientId : Uuid)
    (groupIds : Option (List (Uuid × Uuid))) : Db :=
  match groupIds with
  | some groupIds => syncClientGroups { db with clients } clientId groupIds
  | none => { db with clients }

theorem inv_withGroups (hI : Inv db) {clients : Table Client} {groupIds : Option (List (Uuid × Uuid))}
    (hnew : NewClientLinks db (groupIds.getD []))
    (hclient : ∀ rule ∈ db.relayRules.rows, rule.enabled = true → ∀ b c,
      ExitOf db rule.exitBindingId b c → Admitted db rule.relayClientId b c →
      ∃ r ∈ clients.rows, r.id = rule.relayClientId ∧ r.status = "active")
    (hgroups : ∀ rule ∈ db.relayRules.rows, rule.enabled = true → rule.relayClientId = id → ∀ b c,
      ExitOf db rule.exitBindingId b c → ∀ gs, groupIds = some gs →
      ∃ g ∈ gs.map Prod.fst, g ∈ bindingGroupIds db b.id)
    (hnames : NamesKept db clients.rows) (hemails : ∀ d ∈ clients.rows, d.email ≠ some "") :
    Inv (withGroups db clients id groupIds) := by
  have hkept : Inv (withGroups db clients id none) := by
    refine inv_of_clients hI (fun rule hrule henabled b c hexit hadmitted => ?_) hemails
    exact ⟨hclient rule hrule henabled b c hexit hadmitted, hadmitted.group,
      hnames rule hrule henabled b c hexit⟩
  cases hgiven : groupIds with
  | none => exact hkept
  | some gs =>
    rw [hgiven] at hnew
    refine inv_of_clients hkept (fun rule hrule henabled b c hexit hadmitted => ?_) hemails
    have hexit' : ExitOf db rule.exitBindingId b c := ⟨hexit.binding, hexit.config⟩
    have hsync : ∀ g, g ∈ clientGroupIds (syncClientGroups { db with clients } id gs)
        rule.relayClientId ↔ if rule.relayClientId = id then g ∈ gs.map Prod.fst
          else g ∈ clientGroupIds db rule.relayClientId :=
      fun g => mem_clientGroupIds_sync hnew
    refine ⟨hadmitted.client, ?_, hadmitted.name⟩
    by_cases hid : rule.relayClientId = id
    · obtain ⟨g, hg, hbinding⟩ := hgroups rule hrule henabled hid b c hexit' gs hgiven
      exact ⟨g, hbinding, (hsync g).mpr (by rw [if_pos hid]; exact hg)⟩
    · obtain ⟨g, hg, hmember⟩ := hadmitted.group
      exact ⟨g, hg, (hsync g).mpr (by rw [if_neg hid]; exact hmember)⟩

theorem inv_createClient {userId : Uuid} {payload : CreateClientPayload} (hI : Inv db)
    (hfresh : fresh db (.createClient id userId payload) = true)
    (hspares : Spares env db (.createClient id userId payload))
    (h : Hub.createClient env.now id userId payload db = .ok db') : Inv db' := by
  simp only [fresh, Bool.and_eq_true, List.all_eq_true, decide_eq_true_eq] at hfresh
  obtain ⟨hclient, hlinks⟩ := hfresh
  rw [Hub.createClient] at h
  split at h
  · cases h
  split at h
  · cases h
  rename_i clients hinsert
  have hrows := Table.rows_of_insert hinsert
  cases h
  change Inv (withGroups db clients id payload.groupIds)
  refine inv_withGroups hI hlinks (fun rule _ _ b c _ hadmitted => ?_)
    (fun rule hrule _ hid => absurd hid (hclient rule hrule)) (hrows ▸ hspares) fun d hd => ?_
  · obtain ⟨r, hr, hrest⟩ := hadmitted.client
    exact ⟨r, hrows ▸ List.mem_append_left _ hr, hrest⟩
  · rw [hrows] at hd
    rcases List.mem_append.mp hd with hd | hd
    · exact hI.emails d hd
    · cases List.mem_singleton.mp hd
      change payload.email.filter (· ≠ "") ≠ some ""
      intro heq
      exact absurd rfl (of_decide_eq_true (Option.filter_eq_some_iff.mp heq).2)

theorem inv_updateClient {payload : UpdateClientPayload} (hI : Inv db)
    (hfresh : fresh db (.updateClient id payload) = true)
    (hspares : Spares env db (.updateClient id payload))
    (h : Hub.updateClient env.now id payload db = .ok db') : Inv db' := by
  obtain ⟨hnames, hrelay⟩ := hspares
  rw [Hub.updateClient] at h
  split at h
  · cases h
  split at h
  · cases h
  cases h
  change Inv (withGroups db (db.clients.update id (payload.apply env.now)) id payload.groupIds)
  refine inv_withGroups hI (of_decide_eq_true hfresh) (fun rule hrule henabled b c hexit hadmitted => ?_)
    (fun rule hrule henabled hid b c hexit => (hrelay rule hrule henabled hid b c hexit).2) hnames
    (Table.forall_mem_update hI.emails fun d _ _ hd => ?_)
  · obtain ⟨r, hr, hid, hactive⟩ := hadmitted.client
    refine ⟨_, List.mem_map_of_mem hr, ?_⟩
    by_cases hkey : key r = id
    · rw [if_pos ⟨hkey, rfl⟩]
      have hstatus := (hrelay rule hrule henabled (hid.symm.trans hkey) b c hexit).1
      refine ⟨hid, ?_⟩
      change payload.status.getD r.status = "active"
      rw [hactive]
      exact hstatus
    · rw [if_neg fun hand => hkey hand.1]
      exact ⟨hid, hactive⟩
  · rw [UpdateClientPayload.apply]
    cases payload.email with
    | none => exact hd
    | some email =>
      dsimp only
      split
      · exact nofun
      next hne => exact fun heq => hne (Option.some.inj heq)

theorem inv_deleteClient (hI : Inv db) (hspares : Spares env db (.deleteClient id))
    (h : Hub.deleteClient id db = .ok db') : Inv db' := by
  rw [Hub.deleteClient] at h
  split at h
  · cases h
  cases h
  refine inv_of_clients hI (fun rule hrule henabled b c hexit hadmitted => ?_)
    fun d hd => hI.emails d (Table.mem_deleteWhere.mp hd).1
  obtain ⟨r, hr, hid, hactive⟩ := hadmitted.client
  refine ⟨⟨r, Table.mem_deleteWhere.mpr ⟨hr, ?_⟩, hid, hactive⟩, hadmitted.group, fun hkeyed => ?_⟩
  · have hne := hspares rule hrule henabled b c hexit
    exact decide_eq_false fun heq => hne (hid.symm.trans heq)
  · intro r' hr' hid' d hd
    exact hadmitted.name hkeyed r' (Table.mem_deleteWhere.mp hr').1 hid' d
      (Table.mem_deleteWhere.mp hd).1

theorem inv_resetClientTraffic {now : DateTime} (hI : Inv db)
    (h : Hub.resetClientTraffic now id db = .ok db') : Inv db' := by
  rw [Hub.resetClientTraffic] at h
  split at h
  · cases h
  cases h
  -- a reset row has identifier, user name and status of the row before
  have hrow : ∀ d ∈ (db.clients.update id fun r => { r with
      trafficUsedBytes := 0, lastTrafficResetTime := some now, updatedAt := now }).rows,
      ∃ r ∈ db.clients.rows, d.id = r.id ∧ d.status = r.status ∧ d.email = r.email := by
    intro d hd
    obtain ⟨r, hr, rfl⟩ := List.mem_map.mp hd
    refine ⟨r, hr, ?_⟩
    split <;> exact ⟨rfl, rfl, rfl⟩
  refine inv_of_clients hI (fun rule hrule henabled b c hexit hadmitted => ?_) fun d hd => ?_
  · obtain ⟨r, hr, hid, hactive⟩ := hadmitted.client
    refine ⟨⟨_, List.mem_map_of_mem hr, ?_⟩, hadmitted.group, fun hkeyed r' hr' hid' d hd hne => ?_⟩
    · split <;> exact ⟨hid, hactive⟩
    · obtain ⟨s, hs, hsid, -, hsemail⟩ := hrow r' hr'
      obtain ⟨t, ht, htid, -, htemail⟩ := hrow d hd
      have hname := hadmitted.name hkeyed s hs (hsid.symm.trans hid') t ht
        fun heq => hne (htid.trans heq)
      rwa [clientName, clientName, htemail, hsemail, htid, hsid]
  · obtain ⟨r, hr, -, -, hemail⟩ := hrow d hd
    rw [hemail]
    exact hI.emails r hr

end Members

/-! ### Runs -/

section Runs

variable {gen : GenEnv} {db db' : Db} {env : EditEnv} {request : Request}

theorem atOnce_ok {f : Db → ApiResult Db} (h : atOnce f db = .ok () db') : f db = .ok db' := by
  simp only [atOnce, bind_eq_ok, get_eq_ok, lift_eq_ok, set_eq_ok] at h
  obtain ⟨_, _, ⟨rfl, rfl⟩, _, _, ⟨hf, rfl⟩, rfl⟩ := h
  exact hf

theorem atOnce_error {f : Db → ApiResult Db} {e : ApiError} (h : atOnce f db = .error e db') :
    db' = db := by
  simp only [atOnce, bind_eq_error, get_eq_error, get_eq_ok, lift_eq_error, lift_eq_ok,
    set_eq_error, false_or, and_false, exists_false, or_false] at h
  obtain ⟨_, _, ⟨rfl, rfl⟩, -, rfl⟩ := h
  rfl

/-- A request that is granted. -/
theorem inv_ok (hI : Inv db) (hfresh : fresh db request = true) (hspares : Spares env db request)
    (hmoves : Moves env db request) (h : handle env request db = .ok () db') : Inv db' := by
  cases request with
  | createRelayRule ids id payload =>
    exact inv_createRelayRule hI (Bool.and_eq_true_iff.mp hfresh).1 hspares h
  | updateRelayRule ids id payload => exact inv_updateRelayRule hI hfresh hspares hmoves h
  | deleteRelayRule id => exact inv_deleteRelayRule hI h
  | createBinding id payload => exact inv_createBinding hI hfresh h
  | updateBinding id payload => exact inv_updateBinding hI hspares h
  | deleteBinding id => exact inv_deleteBinding hI h
  | createConfig id payload => exact inv_createConfig hI hfresh h
  | updateConfig id payload => exact inv_updateConfig hI hspares h
  | deleteConfig id => exact inv_deleteConfig hI h
  | createGroup id payload => exact inv_createGroup hI hfresh (atOnce_ok h)
  | updateGroup id payload => exact inv_updateGroup hI hfresh hspares (atOnce_ok h)
  | deleteGroup id => exact inv_deleteGroup hI (atOnce_ok h)
  | createClient id userId payload => exact inv_createClient hI hfresh hspares (atOnce_ok h)
  | updateClient id payload => exact inv_updateClient hI hfresh hspares (atOnce_ok h)
  | deleteClient id => exact inv_deleteClient hI hspares (atOnce_ok h)
  | resetClientTraffic id => exact inv_resetClientTraffic hI (atOnce_ok h)

/-- A request that is refused. -/
theorem inv_error {e : ApiError} (hI : Inv db) (hfresh : fresh db request = true)
    (hmoves : Moves env db request) (h : handle env request db = .error e db') : Inv db' := by
  cases request with
  | createRelayRule ids id payload =>
    obtain ⟨hids, hid⟩ := Bool.and_eq_true_iff.mp hfresh
    rwa [createRelayRule_error hids (Option.isNone_iff_eq_none.mp hid) h]
  | updateRelayRule ids id payload => exact inv_updateRelayRule_error hI hfresh hmoves h
  | deleteRelayRule id => rwa [deleteRelayRule_error h]
  | createBinding id payload => rwa [createBinding_error h]
  | updateBinding id payload => rwa [updateBinding_error h]
  | deleteBinding id => exact inv_deleteBinding_error hI h
  | createConfig id payload => rwa [createConfig_error h]
  | updateConfig id payload => rwa [updateConfig_error h]
  | deleteConfig id => exact inv_deleteConfig_error hI h
  | _ => rwa [atOnce_error h]

theorem inv_serve {call : EditEnv × Request} (hI : Inv db) (hkeeps : Keeps db call)
    (h : step db call = some db') : Inv db' := by
  rw [step] at h
  split at h
  next hfresh =>
    cases hhandle : handle call.1 call.2 db with
    | ok u db₁ =>
      rw [hhandle] at h
      cases h
      exact inv_ok hI hfresh (hkeeps.1 ⟨_, hhandle⟩) hkeeps.2 hhandle
    | error e db₁ =>
      rw [hhandle] at h
      cases h
      exact inv_error hI hfresh hkeeps.2 hhandle
  next => cases h

/-- **Relay credentials stay good** in every run of requests that each keep them: where the entry
of an enabled rule is configured with its outbound, the exit listens on the port it dials and has
the relay client among its users. -/
theorem relayAccepted_of_keeps {db₀ db : Db} {calls : List (EditEnv × Request)} (hstart : Start db₀)
    (hkeeps : Run.Guarded step Keeps db₀ calls) (hrun : Run.run step db₀ calls = some db) :
    RelayAccepted gen db := by
  have hI : Inv db :=
    Run.inv_of_guarded (fun _ _ _ hI hok h => inv_serve hI hok h) (inv_of_start hstart) hkeeps hrun
  exact accepted_of_fits hI.emails hI.fits

end Runs

namespace MovedRule

open StaleExit

def otherConfig : ProtocolConfig := { config with id := .ofNat 7 }

def otherExit : NodeBinding := { binding with id := .ofNat 8, protocolConfigId := otherConfig.id }

/-- An entry node, and an exit node with two bindings in one group. -/
def db : Db where
  nodes := StaleExit.db.nodes
  protocolConfigs := ⟨[config, otherConfig], by decide⟩
  nodeBindings := ⟨[binding, otherExit], by decide⟩
  nodeBindingGroupBindings := ⟨[⟨.ofNat 21, binding.id, .ofNat 20⟩,
    ⟨.ofNat 22, otherExit.id, .ofNat 20⟩], by decide⟩

def ids (n : Nat) : RelayIds where
  clientId := .ofNat n
  userId := .ofNat (n + 1)
  emailId := .ofNat (n + 2)
  linkId link := .ofNat (if link = .ofNat 21 then n + 3 else n + 4)

def create : Request := .createRelayRule (ids 30) rule.id {
  nodeId := entry.id
  exitBindingId := binding.id
  name := "relay"
  matchType := rule.matchType
  matchConfig := rule.matchConfig }

/-- The rule is to move to the other exit under a blank name. -/
def rename : Request :=
  .updateRelayRule (ids 40) rule.id { name := some " ", exitBindingId := some otherExit.id }

theorem start : Start db := ⟨rfl, fun _ hc => nomatch hc⟩

theorem keeps_create : Keeps db (env, create) := by
  refine ⟨fun _ => And.intro (fun _ hrule => nomatch hrule) fun _ b c hexit => ?_, trivial⟩
  cases (show db.nodeBindings.find binding.id = some binding from rfl).symm.trans hexit.binding
  cases (show db.protocolConfigs.find config.id = some config from rfl).symm.trans hexit.config
  refine ⟨⟨rfl, rfl, rfl, Or.inl rfl⟩, by decide, fun hkeyed => ?_⟩
  exact absurd hkeyed.1 (by decide)

end MovedRule

open MovedRule in
/-- An update that is refused for its blank name: the client of the rule is deleted, and the exit
the rule still leads to does not have it any more. -/
theorem revoked_by_rejected_update : Start db ∧ ∃ left,
    Run.run step db [(StaleExit.env, create), (StaleExit.env, rename)] = some left ∧
      ¬ RelayAccepted StaleExit.gen left := by
  have hcheck : (Run.run step db [(StaleExit.env, create), (StaleExit.env, rename)]).any (fun left =>
      left.relayRules.rows.any (refuses StaleExit.gen left .singBox) &&
        decide (left.relayRules.rows.map (·.id.short)).Nodup) = true := by decide +kernel
  rw [Option.any_eq_true] at hcheck
  obtain ⟨left, hrun, hleft⟩ := hcheck
  rw [Bool.and_eq_true] at hleft
  exact ⟨start, left, hrun, not_accepted_of_refuses (of_decide_eq_true hleft.2) hleft.1⟩

open MovedRule in
/-- A rule is created, the exit it does not use is deleted, and its traffic is reset. -/
theorem relayAccepted_of_keeps_created : ∃ left,
    Run.run step db [(StaleExit.env, create), (StaleExit.env, .deleteBinding otherExit.id),
      (StaleExit.env, .resetClientTraffic (ids 30).clientId)] = some left ∧
      RelayAccepted StaleExit.gen left := by
  obtain ⟨left, hrun⟩ := Option.isSome_iff_exists.mp
    (show (Run.run step db [(StaleExit.env, create), (StaleExit.env, .deleteBinding otherExit.id),
      (StaleExit.env, .resetClientTraffic (ids 30).clientId)]).isSome = true by decide)
  have hguarded : Run.Guarded step Keeps db [(StaleExit.env, create),
      (StaleExit.env, .deleteBinding otherExit.id),
      (StaleExit.env, .resetClientTraffic (ids 30).clientId)] := by
    refine ⟨keeps_create, fun _ _ => ⟨?_, fun _ _ => ⟨?_, fun _ _ => trivial⟩⟩⟩
    · exact ⟨fun _ => trivial, trivial⟩
    · exact ⟨fun _ => trivial, trivial⟩
  exact ⟨left, hrun, relayAccepted_of_keeps start hguarded hrun⟩

end RelayCredentials

end ProxyPanel.Hub
