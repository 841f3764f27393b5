import ProxyPanel.Hub.Generable
import ProxyPanel.Hub.TrafficRecords
import ProxyPanel.Hub.Scheduler

/-!
# The order of rows

The statements that read several rows have no `ORDER BY`, and a generation puts rows into lists in
the order they come.  `Reordered` is what such a statement may see, each time anew.  A generation
is the same for every order where at most one row of a kind is emitted (`orderInvariant_of_settled`);
where rows can be told apart it is so nowhere else.
-/

namespace ProxyPanel.Hub

open Json Query Builder

/-- The database with the rows of some tables in another order. -/
structure Reordered (db d : Db) : Prop where
  rest : d = { db with
    nodeBindings := d.nodeBindings
    nodeBindingGroupBindings := d.nodeBindingGroupBindings
    clientGroupBindings := d.clientGroupBindings
    clients := d.clients
    relayRules := d.relayRules }
  nodeBindings : d.nodeBindings.rows.Perm db.nodeBindings.rows
  nodeBindingGroupBindings :
    d.nodeBindingGroupBindings.rows.Perm db.nodeBindingGroupBindings.rows
  clientGroupBindings : d.clientGroupBindings.rows.Perm db.clientGroupBindings.rows
  clients : d.clients.rows.Perm db.clients.rows
  relayRules : d.relayRules.rows.Perm db.relayRules.rows

namespace Reordered

variable {db d d' : Db} {nodeId : Uuid} {core : CoreType} {b : NodeBinding}

theorem refl (db : Db) : Reordered db db := ⟨rfl, .refl _, .refl _, .refl _, .refl _, .refl _⟩

theorem symm (h : Reordered db d) : Reordered d db where
  rest := by rw [h.rest]
  nodeBindings := h.nodeBindings.symm
  nodeBindingGroupBindings := h.nodeBindingGroupBindings.symm
  clientGroupBindings := h.clientGroupBindings.symm
  clients := h.clients.symm
  relayRules := h.relayRules.symm

theorem nodes (h : Reordered db d) : d.nodes = db.nodes := by rw [h.rest]

theorem protocolConfigs (h : Reordered db d) : d.protocolConfigs = db.protocolConfigs := by
  rw [h.rest]

theorem certificates (h : Reordered db d) : d.certificates = db.certificates := by
  rw [h.rest]

theorem coreVersions (h : Reordered db d) : d.coreVersions = db.coreVersions := by
  rw [h.rest]

theorem sameFinds (h : Reordered db d) (h' : Reordered db d') : SameFinds d d' where
  nodes id := by rw [h.nodes, h'.nodes]
  nodeBindings id := Table.find_congr_perm (h.nodeBindings.trans h'.nodeBindings.symm) id
  protocolConfigs id := by rw [h.protocolConfigs, h'.protocolConfigs]
  certificates id := by rw [h.certificates, h'.certificates]

theorem pinnedVersion (h : Reordered db d) (core : CoreType) :
    pinnedVersion d core = Hub.pinnedVersion db core := by
  simp only [Hub.pinnedVersion, h.coreVersions]

theorem activeBindings (h : Reordered db d) (nodeId : Uuid) :
    (activeBindings d nodeId).Perm (Hub.activeBindings db nodeId) := h.nodeBindings.filter _

theorem enabledRules (h : Reordered db d) (nodeId : Uuid) :
    (enabledRules d nodeId).Perm (Hub.enabledRules db nodeId) := h.relayRules.filter _

theorem mem_bindingGroupIds (h : Reordered db d) {bindingId groupId : Uuid} :
    groupId ∈ bindingGroupIds d bindingId ↔ groupId ∈ bindingGroupIds db bindingId := by
  rw [bindingGroupIds, bindingGroupIds, Table.filter, Table.filter]
  exact ((h.nodeBindingGroupBindings.filter _).map _).mem_iff

theorem mem_groupMembers (h : Reordered db d) {bindingId clientId : Uuid} :
    clientId ∈ groupMembers d bindingId ↔ clientId ∈ groupMembers db bindingId := by
  simp only [Hub.mem_groupMembers, SharesGroup, bindingGroupIds, clientGroupIds, List.mem_map,
    Table.filter, (h.nodeBindingGroupBindings.filter _).mem_iff,
    (h.clientGroupBindings.filter _).mem_iff]

theorem groupMembers_eq_nil (h : Reordered db d) {bindingId : Uuid} :
    groupMembers d bindingId = [] ↔ groupMembers db bindingId = [] := by
  rw [List.eq_nil_iff_forall_not_mem, List.eq_nil_iff_forall_not_mem]
  exact forall_congr' fun clientId => not_congr h.mem_groupMembers

theorem authorizedClients (h : Reordered db d) (bindingId : Uuid) :
    (authorizedClients d bindingId).Perm (Hub.authorizedClients db bindingId) := by
  rw [Hub.authorizedClients, Hub.authorizedClients, Table.filter, Table.filter]
  simp only [h.mem_groupMembers]
  exact h.clients.filter _

theorem readyFor (h : Reordered db d) : ReadyFor d core b ↔ ReadyFor db core b := by
  simp only [ReadyFor, CertificateFound, h.protocolConfigs, h.certificates]

end Reordered

/-! ### One binding -/

section Binding

variable {db d : Db} {nodeId : Uuid} {core : CoreType} {b : NodeBinding}

/-- The clients of a binding are looked for once; what is looked up before counts as a set. -/
theorem consistent_injectBindingClients (db : Db) (b : NodeBinding) (protocolType : String)
    (settings : Json) :
    (injectBindingClients b protocolType settings).Consistent (Reordered db) := by
  intro r h
  obtain ⟨d₁, h₁, h⟩ := yields_read_bind.mp h
  change (if bindingGroupIds d₁ b.id = [] then _ else _ : Program Json).Yields (Reordered db) r at h
  split at h
  · rename_i hgroups
    refine ⟨d₁, h₁, ?_⟩
    rw [exec_injectBindingClients, injected, if_pos (by simp [groupMembers, hgroups, Table.filter])]
    exact h
  · obtain ⟨d₂, h₂, h⟩ := yields_read_bind.mp h
    obtain ⟨clientIds, hids⟩ : ∃ clientIds, clientIds = (d₂.clientGroupBindings.filter
      (·.groupId ∈ bindingGroupIds d₁ b.id)).map (·.clientId) := ⟨_, rfl⟩
    have hmem : ∀ clientId, clientId ∈ clientIds ↔ clientId ∈ groupMembers db b.id := by
      intro clientId
      simp only [hids, groupMembers, List.mem_map, Table.mem_filter, decide_eq_true_eq,
        h₂.clientGroupBindings.mem_iff, h₁.mem_bindingGroupIds]
    change (if (d₂.clientGroupBindings.filter (·.groupId ∈ bindingGroupIds d₁ b.id)).map
      (·.clientId) = [] then _ else _ : Program Json).Yields (Reordered db) r at h
    rw [← hids] at h
    split at h
    · rename_i hnone
      refine ⟨db, .refl db, ?_⟩
      have hmembers : groupMembers db b.id = [] := by
        rw [List.eq_nil_iff_forall_not_mem]
        intro clientId hclient
        exact List.not_mem_nil (hnone ▸ (hmem clientId).mpr hclient)
      rw [exec_injectBindingClients, injected, if_pos hmembers]
      exact h
    · rename_i hsome
      obtain ⟨d₃, h₃, h⟩ := yields_read_bind.mp h
      refine ⟨d₃, h₃, ?_⟩
      have hmembers : groupMembers d₃ b.id ≠ [] := by
        intro hnone
        rw [h₃.groupMembers_eq_nil] at hnone
        refine hsome (List.eq_nil_iff_forall_not_mem.mpr fun clientId hclient => ?_)
        exact List.not_mem_nil (hnone ▸ (hmem clientId).mp hclient)
      rw [exec_injectBindingClients, injected, if_neg hmembers, authorizedClients]
      have hclients : (d₃.clients.filter fun c => c.id ∈ clientIds ∧ c.status = "active") =
          d₃.clients.filter fun c => c.id ∈ groupMembers d₃ b.id ∧ c.status = "active" := by
        simp only [hmem, h₃.mem_groupMembers]
      rw [← hclients, hids]
      exact h

theorem consistent_bindingInbound (db : Db) (nodeId : Uuid) (core : CoreType)
    (version : Option String) (b : NodeBinding) :
    (bindingInbound nodeId core version b).Consistent (Reordered db) := by
  have hfinds : ∀ d d', Reordered db d → Reordered db d' → SameFinds d d' :=
    fun d d' h h' => h.sameFinds h'
  have hsome : ∃ d, Reordered db d := ⟨db, .refl db⟩
  refine consistent_bind_left (respects_read fun d d' h => h.protocolConfigs _) hfinds hsome
    fun config => ?_
  cases config with
  | none => exact (respects_throw _).consistent hfinds hsome
  | some config =>
    dsimp only
    split
    · exact (respects_pure _).consistent hfinds hsome
    · refine consistent_bind_left (respects_lift _) hfinds hsome fun protocol => ?_
      refine consistent_bind_right (consistent_injectBindingClients db b _ _) hfinds fun settings => ?_
      exact respects_bind (respects_resolveManagedCertTls ..) fun tls => respects_pure _

/-- The TLS settings of a binding give its inbound a certificate. -/
def Certified (db : Db) (core : CoreType) (tls : Option Json) : Prop :=
  match tls.bind (·.getStr "cert_id") with
  | some raw => ∃ certId cert, Uuid.parse raw = some certId ∧
      db.certificates.find certId = some cert ∧ cert.domain ≠ ""
  | none => HasCertificate core tls

/-- The inbound of a binding is for the core, and not left out for want of a certificate. -/
def Emitted (db : Db) (core : CoreType) (b : NodeBinding) : Prop :=
  ∃ config, db.protocolConfigs.find b.protocolConfigId = some config ∧
    parseCoreType config.coreType = core ∧ (config.protocolType = "vless_reality" ∨
      Certified db core (SettingsHelper.mergeTlsSettings config.tlsSettings (overrideTls b)))

/-- The users of an inbound come without an order: there is at most one, or they cannot be
injected, or they are entries of a map under names of their own. -/
def ClientsSettled (db : Db) (core : CoreType) (b : NodeBinding) : Prop :=
  (authorizedClients db b.id).length ≤ 1 ∨
    ∀ config, db.protocolConfigs.find b.protocolConfigId = some config →
      (mergedSettings config b).isObject = false ∨
      (core = .mihomo ∧ config.protocolType ∈ ["hysteria2", "anytls"] ∧
        (∀ c ∈ authorizedClients db b.id, clientName c ≠ "") ∧
        ((authorizedClients db b.id).map clientName).Nodup)

theorem hasCertificate_resolved {tls resolved : Option Json}
    (h : (resolveManagedCertTls nodeId tls).exec db = .ok resolved) :
    HasCertificate core resolved ↔ Certified db core tls := by
  cases tls with
  | none =>
    cases h
    exact Iff.rfl
  | some tls =>
    rw [resolveManagedCertTls] at h
    rw [Certified, Option.bind_some]
    cases hid : tls.getStr "cert_id" with
    | none =>
      rw [hid] at h
      cases h
      exact Iff.rfl
    | some raw =>
      cases hparse : Uuid.parse raw with
      | none =>
        simp only [hid, hparse] at h
        cases h
      | some certId =>
        simp only [hid, hparse, exec_read_bind] at h
        cases hfind : db.certificates.find certId with
        | none =>
          simp only [hfind] at h
          cases h
        | some cert =>
          simp only [hfind] at h
          split at h
          · cases h
          · cases h
            have hdomain : (mkObj [("managed_domain", str cert.domain)]).getStr "managed_domain" =
                some cert.domain := by
              rw [getStr, get_mkObj]
              rfl
            have hother : ∀ k, k ≠ "managed_domain" →
                (mkObj [("managed_domain", str cert.domain)]).getStr k = none := by
              intro k hk
              rw [getStr, get_mkObj]
              simp [List.lookup_cons, beq_eq_false_iff_ne.mpr hk]
            have hcert : HasCertificate core (some (mkObj [("managed_domain", str cert.domain)])) ↔
                cert.domain ≠ "" := by
              cases core with
              | singBox => simp [HasCertificate, SingBox.hasCertificate, hdomain, hother]
              | mihomo =>
                simp [HasCertificate, Mihomo.hasCertificate, getStrAny_singleton, hdomain, hother]
            rw [hcert]
            constructor
            · exact fun hne => ⟨certId, cert, hparse, hfind, hne⟩
            · rintro ⟨certId', cert', hparse', hfind', hne⟩
              cases hparse.symm.trans hparse'
              cases hfind.symm.trans hfind'
              exact hne

theorem emitted_of_inboundFor {inbound : Json} (h : inboundFor db nodeId core b = some inbound) :
    Emitted db core b := by
  obtain ⟨config, protocol, tls, hconfig, hcore, hprotocol, htls, hbuild⟩ := inboundFor_eq_some h
  refine ⟨config, hconfig, hcore, ?_⟩
  rw [← hasCertificate_resolved htls]
  cases hneeds : needsTls core protocol with
  | true => exact .inr ((exists_buildInbound hneeds _ _).mp ⟨inbound, hbuild⟩)
  | false =>
    have hreality := eq_vlessReality_of_built hneeds hbuild
    rw [← ProtocolType.toStr_of_fromStr? hprotocol, hreality]
    exact .inl rfl

theorem injected_of_perm (h : Reordered db d)
    (hclients : authorizedClients d b.id = authorizedClients db b.id) (protocolType : String)
    (settings : Json) : injected d b protocolType settings = injected db b protocolType settings := by
  rw [injected, injected, hclients]
  simp only [h.groupMembers_eq_nil]

theorem get_withListen_injected {config : ProtocolConfig} {protocolType k : String}
    (hk : k ≠ "clients") (settings : Json) :
    (withListen config (injected d b protocolType settings)).get k =
      (withListen config (injected db b protocolType settings)).get k := by
  have hget : (injected d b protocolType settings).get k =
      (injected db b protocolType settings).get k := by
    rw [injected, injected]
    split <;> split <;> simp only [get_set_of_ne _ hk]
  have hobject : (injected d b protocolType settings).isObject =
      (injected db b protocolType settings).isObject := by
    rw [isObject_injected, isObject_injected]
  rw [withListen, withListen]
  refine get_set_congr ?_ (get_set_congr ?_ (get_set_congr hobject hget _ _) _ _) _ _
  · rw [isObject_set, isObject_set, isObject_set, isObject_set, hobject]
  · rw [isObject_set, isObject_set, hobject]

theorem injected_of_not_isObject {settings : Json} (h : settings.isObject = false)
    (protocolType : String) : injected d b protocolType settings = settings := by
  rw [injected, set_of_not_isObject h, ite_self]

/-- The clients of the settings after injection. -/
theorem getArr_clients_injected {config : ProtocolConfig} {protocolType : String} {settings : Json}
    (hobject : settings.isObject = true) (hmembers : groupMembers d b.id ≠ []) :
    (withListen config (injected d b protocolType settings)).getArr "clients" =
      some ((authorizedClients d b.id).map (clientToProtocolEntry · protocolType)) := by
  rw [withListen, getArr_set_of_ne _ (by decide), getArr_set_of_ne _ (by decide),
    getArr_set_of_ne _ (by decide), injected, if_neg hmembers, getArr, get_set_self hobject]
  rfl

theorem filterMap_namedPassword_entries {protocol : ProtocolType} (h : protocol.isVless = false)
    (cs : List Client) : (cs.map (clientToProtocolEntry · protocol.toStr)).filterMap
      Mihomo.namedPassword = cs.map fun c => (clientName c, c.id.toStr) := by
  rw [List.filterMap_map]
  simp only [Function.comp_def, namedPassword_clientToProtocolEntry h, List.filterMap_eq_map']

theorem buildInbound_reordered (h : Reordered db d) (hsettled : ClientsSettled db core b)
    {config : ProtocolConfig} {protocol : ProtocolType}
    (hconfig : db.protocolConfigs.find b.protocolConfigId = some config)
    (hprotocol : ProtocolType.fromStr? config.protocolType = some protocol) (tls : Option Json) :
    buildInbound core protocol (withListen config
        (injected d b config.protocolType (mergedSettings config b))) tls =
      buildInbound core protocol (withListen config
        (injected db b config.protocolType (mergedSettings config b))) tls := by
  rcases hsettled with hone | hnames
  · have hclients := Table.eq_of_perm_of_length_le_one (h.authorizedClients b.id) hone
    rw [injected_of_perm h hclients]
  · rcases hnames config hconfig with hobject | ⟨rfl, hpassword, hne, hnodup⟩
    · rw [injected_of_not_isObject hobject, injected_of_not_isObject hobject]
    · have htext := ProtocolType.toStr_of_fromStr? hprotocol
      have hvless : protocol.isVless = false := by
        rw [← htext] at hpassword
        cases protocol <;> first | rfl | exact absurd hpassword (by decide)
      by_cases hmembers : groupMembers db b.id = []
      · rw [injected, injected, if_pos hmembers, if_pos (h.groupMembers_eq_nil.mpr hmembers)]
      · cases hobject : (mergedSettings config b).isObject with
        | false => rw [injected_of_not_isObject hobject, injected_of_not_isObject hobject]
        | true =>
          have hperm := h.authorizedClients b.id
          refine Mihomo.buildInbound_congr hvless (fun k hk => get_withListen_injected hk _)
            (Mihomo.passwordUsers_perm
              (getArr_clients_injected hobject (mt h.groupMembers_eq_nil.mp hmembers))
              (getArr_clients_injected hobject hmembers) (hperm.map _) ?_ ?_) tls
          · intro named hnamed
            rw [← htext, filterMap_namedPassword_entries hvless] at hnamed
            obtain ⟨c, hc, rfl⟩ := List.mem_map.mp hnamed
            exact hne c (hperm.mem_iff.mp hc)
          · rw [← htext, filterMap_namedPassword_entries hvless, List.map_map]
            exact ((hperm.map clientName).nodup_iff).mpr hnodup

theorem inboundFor_eq {config : ProtocolConfig} {protocol : ProtocolType} {tls : Option Json}
    (hconfig : db.protocolConfigs.find b.protocolConfigId = some config)
    (hcore : parseCoreType config.coreType = core)
    (hprotocol : ProtocolType.fromStr? config.protocolType = some protocol)
    (htls : (resolveManagedCertTls nodeId
      (SettingsHelper.mergeTlsSettings config.tlsSettings (overrideTls b))).exec db = .ok tls) :
    inboundFor db nodeId core b = (buildInbound core protocol (withListen config
      (injected db b config.protocolType (mergedSettings config b))) tls).toOption := by
  rw [inboundFor, exec_bindingInbound hconfig hcore htls, parseProtocolType_eq_ok.mpr hprotocol]
  rfl

/-- **The inbound of a binding** does not depend on the order of its clients. -/
theorem inboundFor_reordered (h : Reordered db d)
    (hsettled : Emitted db core b → ClientsSettled db core b) :
    inboundFor d nodeId core b = inboundFor db nodeId core b := by
  have htls : ∀ tls, (resolveManagedCertTls nodeId tls).exec d =
      (resolveManagedCertTls nodeId tls).exec db := exec_resolveManagedCertTls_congr h.certificates
  cases hdb : inboundFor db nodeId core b with
  | some inbound =>
    obtain ⟨config, protocol, tls, hconfig, hcore, hprotocol, hresolved, hbuild⟩ :=
      inboundFor_eq_some hdb
    rw [inboundFor_eq (h.protocolConfigs ▸ hconfig) hcore hprotocol ((htls _).trans hresolved),
      buildInbound_reordered h (hsettled (emitted_of_inboundFor hdb)) hconfig hprotocol, hbuild]
    rfl
  | none =>
    refine Option.eq_none_iff_forall_ne_some.mpr fun inbound hd => ?_
    obtain ⟨config, protocol, tls, hconfig, hcore, hprotocol, hresolved, hbuild⟩ :=
      inboundFor_eq_some hd
    have hemitted : Emitted db core b := by
      have hemitted := emitted_of_inboundFor hd
      simp only [Emitted, Certified, h.protocolConfigs, h.certificates] at hemitted
      exact hemitted
    rw [h.protocolConfigs] at hconfig
    rw [buildInbound_reordered h (hsettled hemitted) hconfig hprotocol] at hbuild
    rw [inboundFor_eq hconfig hcore hprotocol ((htls _).symm.trans hresolved), hbuild] at hdb
    cases hdb

end Binding

/-! ### The generation -/

/-- A rule that is applied: its exit is there, and its protocol is known. -/
def Applied (db : Db) (rule : RelayRule) : Prop :=
  ∃ b config, db.nodeBindings.find rule.exitBindingId = some b ∧
    db.protocolConfigs.find b.protocolConfigId = some config ∧
    (db.nodes.find b.nodeId).isSome = true ∧
    (ProtocolType.fromStr? config.protocolType).isSome = true

/-- At most one row of a kind comes into the configuration. -/
structure Settled (db : Db) (nodeId : Uuid) (core : CoreType) : Prop where
  bindings : ∀ b ∈ activeBindings db nodeId, ∀ b' ∈ activeBindings db nodeId,
    Emitted db core b → Emitted db core b' → b = b'
  clients : ∀ b ∈ activeBindings db nodeId, Emitted db core b → ClientsSettled db core b
  rules : ∀ rule ∈ enabledRules db nodeId, ∀ rule' ∈ enabledRules db nodeId,
    Applied db rule → Applied db rule' → rule = rule'

theorem isSome_relayHop {db : Db} {rule : RelayRule} :
    (relayHop db rule).isSome = true ↔ Applied db rule := by
  rw [Option.isSome_iff_exists]
  simp only [relayHop, Option.bind_eq_bind, Option.bind_eq_some_iff, Applied,
    Option.isSome_iff_exists]
  constructor
  · rintro ⟨hop, b, hb, config, hconfig, node, hnode, protocol, hprotocol, -⟩
    exact ⟨b, config, hb, hconfig, ⟨node, hnode⟩, protocol, hprotocol⟩
  · rintro ⟨b, config, hb, hconfig, ⟨node, hnode⟩, protocol, hprotocol⟩
    exact ⟨_, b, hb, config, hconfig, node, hnode, protocol, hprotocol, rfl⟩

section Generation

variable {env : Env} {db d : Db} {nodeId : Uuid} {core : CoreType} {b : NodeBinding}

/-- The value that is built for what a binding gives. -/
def builtValue (core : CoreType) (o : Option InboundConfig) : Option Json :=
  o.bind fun ib => (buildInbound core ib.protocol ib.settings ib.tls).toOption

/-- What the bindings of a node give, each with an order of its own. -/
def GivenBy (db : Db) (nodeId : Uuid) (core : CoreType) : List NodeBinding →
    List (Option InboundConfig) → Prop :=
  List.Forall₂ fun b o => ∃ d, Reordered db d ∧
    (bindingInbound nodeId core (pinnedVersion db core) b).exec d = .ok o

theorem given_of_yields {bs : List NodeBinding} {os : List (Option InboundConfig)}
    (h : List.Forall₂ (fun b o => (bindingInbound nodeId core (pinnedVersion db core) b).Yields
      (Reordered db) (.ok o)) bs os) : GivenBy db nodeId core bs os := by
  refine h.imp fun b o ho => ?_
  obtain ⟨d, hd, hexec⟩ := consistent_bindingInbound db nodeId core _ b _ ho
  exact ⟨d, hd, hexec.symm⟩

/-- A generation up to the check. -/
structure AssembledRun (env : Env) (db : Db) (nodeId : Uuid) (core : CoreType)
    (out : Json × Option String) (d₁ d₂ : Db) (os : List (Option InboundConfig)) (config : Json) :
    Prop where
  bindings : Reordered db d₁
  given : GivenBy db nodeId core (activeBindings d₁ nodeId) os
  built : buildFullConfig env core (os.filterMap id) = .ok config
  rules : Reordered db d₂
  applied : (loop (applyRelayRule core) config (enabledRules d₂ nodeId)).exec db = .ok out.1
  version : out.2 = pinnedVersion db core

theorem yields_applyRelayRules {config : Json} {r : PanelResult Json}
    (h : (applyRelayRules nodeId core config).Yields (Reordered db) r) : ∃ d, Reordered db d ∧
      r = (loop (applyRelayRule core) config (enabledRules d nodeId)).exec db := by
  obtain ⟨d, hd, h⟩ := yields_read_bind.mp h
  have hrespects := respects_loop (respects_applyRelayRule core)
    (enabledRules d nodeId) config
  exact ⟨d, hd, hrespects.yields (fun d' hd' => (Reordered.refl db).sameFinds hd') h⟩

theorem assembledRun_of_yields {out : Json × Option String}
    (h : (assembled env nodeId core).Yields (Reordered db) (.ok out)) :
    ∃ d₁ d₂ os config, AssembledRun env db nodeId core out d₁ d₂ os config := by
  obtain ⟨d₀, h₀, h⟩ := yields_read_bind.mp h
  obtain ⟨d₁, h₁, h⟩ := yields_read_bind.mp h
  change (collect (bindingInbound nodeId core (pinnedVersion d₀ core)) (activeBindings d₁ nodeId) >>=
    _).Yields (Reordered db) (.ok out) at h
  rw [h₀.pinnedVersion] at h
  obtain ⟨x, hcollect, h⟩ := yields_bind.mp h
  cases x with
  | error e => cases h
  | ok ibs =>
    obtain ⟨os, hos, rfl⟩ := yields_collect_ok hcollect
    obtain ⟨x, hx, h⟩ := yields_bind.mp h
    rw [yields_lift] at hx
    cases x with
    | error e => cases h
    | ok config =>
      obtain ⟨x, hx', h⟩ := yields_bind.mp h
      obtain ⟨d₂, h₂, rfl⟩ := yields_applyRelayRules hx'
      generalize hloop : (loop (applyRelayRule core) config (enabledRules d₂ nodeId)).exec db = y at h
      cases y with
      | error e => cases h
      | ok config' =>
        cases h
        exact ⟨d₁, d₂, os, config, h₁, given_of_yields hos, hx.symm, h₂, hloop, h₀.pinnedVersion core⟩

/-- What a binding gives that the builder does not fail on. -/
theorem readyFor_of_given {o : Option InboundConfig} (hb : b.nodeId = nodeId)
    (h : ∃ d, Reordered db d ∧
      (bindingInbound nodeId core (pinnedVersion db core) b).exec d = .ok o)
    (hpasses : ∀ ib, o = some ib → InboundPasses core ib) : ReadyFor db core b := by
  obtain ⟨d, hd, hexec⟩ := h
  subst hb
  exact hd.readyFor.mp (readyFor_iff.mp ⟨o, hexec, hpasses⟩)

theorem mem_of_given {bs : List NodeBinding} {os : List (Option InboundConfig)}
    (h : GivenBy db nodeId core bs os) : (∀ b ∈ bs, ∃ o ∈ os, ∃ d, Reordered db d ∧
      (bindingInbound nodeId core (pinnedVersion db core) b).exec d = .ok o) ∧
      ∀ o ∈ os, ∃ b ∈ bs, ∃ d, Reordered db d ∧
        (bindingInbound nodeId core (pinnedVersion db core) b).exec d = .ok o := by
  induction h with
  | nil => exact ⟨nofun, nofun⟩
  | @cons b o bs os hbo _ ih =>
    constructor
    · intro b' hb'
      rcases List.mem_cons.mp hb' with rfl | hb'
      · exact ⟨o, List.mem_cons_self, hbo⟩
      · obtain ⟨o', ho', hgiven⟩ := ih.1 b' hb'
        exact ⟨o', List.mem_cons_of_mem o ho', hgiven⟩
    · intro o' ho'
      rcases List.mem_cons.mp ho' with rfl | ho'
      · exact ⟨b, List.mem_cons_self, hbo⟩
      · obtain ⟨b', hb', hgiven⟩ := ih.2 o' ho'
        exact ⟨b', List.mem_cons_of_mem b hb', hgiven⟩

theorem exists_loop_iff {config : Json} (h : Reordered db d) :
    (∃ config', (loop (applyRelayRule core) config (enabledRules d nodeId)).exec db = .ok config') ↔
      ∀ rule ∈ enabledRules db nodeId, ExitReady db rule.exitBindingId := by
  refine (exists_exec_loop (P := fun rule : RelayRule => ExitReady db rule.exitBindingId)
    (fun rule _ config => exitReady_iff) config).trans ?_
  exact forall_congr' fun rule => imp_congr_left (h.enabledRules nodeId).mem_iff

theorem allReady_of_run {out : Json × Option String} {d₁ d₂ : Db}
    {os : List (Option InboundConfig)} {config : Json}
    (h : AssembledRun env db nodeId core out d₁ d₂ os config) : AllReady db nodeId core := by
  refine ⟨fun b hb => ?_, (exists_loop_iff h.rules).mp ⟨_, h.applied⟩⟩
  obtain ⟨o, ho, hgiven⟩ := (mem_of_given h.given).1 b
    ((h.bindings.activeBindings nodeId).mem_iff.mpr hb)
  refine readyFor_of_given (mem_activeBindings.mp hb).2.1 hgiven fun ib hib => ?_
  exact exists_buildFullConfig.mp ⟨config, h.built⟩ ib (List.mem_filterMap.mpr ⟨o, ho, hib⟩)

theorem given_of_readyFor (hb : b.nodeId = nodeId) (hready : ReadyFor db core b)
    (hd : Reordered db d) : ∃ o,
      (bindingInbound nodeId core (pinnedVersion db core) b).exec d = .ok o ∧
        ∀ ib, o = some ib → InboundPasses core ib := by
  subst hb
  exact readyFor_iff.mpr (hd.readyFor.mpr hready)

/-- What is ready is assembled in every order. -/
theorem not_error_of_allReady (hready : AllReady db nodeId core) {e : PanelError} :
    ¬ (assembled env nodeId core).Yields (Reordered db) (.error e) := by
  intro h
  obtain ⟨d₀, h₀, h⟩ := yields_read_bind.mp h
  obtain ⟨d₁, h₁, h⟩ := yields_read_bind.mp h
  change (collect (bindingInbound nodeId core (pinnedVersion d₀ core)) (activeBindings d₁ nodeId) >>=
    _).Yields (Reordered db) (.error e) at h
  rw [h₀.pinnedVersion] at h
  have hnode : ∀ b ∈ activeBindings d₁ nodeId, b.nodeId = nodeId ∧ ReadyFor db core b := by
    intro b hb
    have hb' := (h₁.activeBindings nodeId).mem_iff.mp hb
    exact ⟨(mem_activeBindings.mp hb').2.1, hready.1 b hb'⟩
  obtain ⟨x, hcollect, h⟩ := yields_bind.mp h
  cases x with
  | error e' =>
    obtain ⟨b, hb, herror⟩ := yields_collect_error hcollect
    obtain ⟨d, hd, hexec⟩ := consistent_bindingInbound db nodeId core _ b _ herror
    obtain ⟨o, ho, -⟩ := given_of_readyFor (hnode b hb).1 (hnode b hb).2 hd
    rw [ho] at hexec
    cases hexec
  | ok ibs =>
    obtain ⟨os, hos, rfl⟩ := yields_collect_ok hcollect
    have hgiven := given_of_yields hos
    have hpass : ∀ ib ∈ os.filterMap id, InboundPasses core ib := by
      intro ib hib
      obtain ⟨o, ho, hsome⟩ := List.mem_filterMap.mp hib
      obtain ⟨b, hb, d, hd, hexec⟩ := (mem_of_given hgiven).2 o ho
      obtain ⟨o', ho', hpasses⟩ := given_of_readyFor (hnode b hb).1 (hnode b hb).2 hd
      rw [hexec] at ho'
      cases ho'
      exact hpasses ib hsome
    obtain ⟨config, hconfig⟩ := (@exists_buildFullConfig env core _).mpr hpass
    obtain ⟨x, hx, h⟩ := yields_bind.mp h
    rw [yields_lift, hconfig] at hx
    subst hx
    obtain ⟨y, hy, h⟩ := yields_bind.mp h
    obtain ⟨d₂, h₂, rfl⟩ := yields_applyRelayRules hy
    obtain ⟨config', hconfig'⟩ := (@exists_loop_iff _ _ _ _ config h₂).mpr hready.2
    rw [hconfig'] at h
    cases h

/-! ### One outcome -/

/-- The inbounds that are built are those of the database as it stands. -/
theorem builtValues_eq (hsettled : Settled db nodeId core) {out : Json × Option String} {d₁ d₂ : Db}
    {os : List (Option InboundConfig)} {config : Json}
    (h : AssembledRun env db nodeId core out d₁ d₂ os config) :
    os.filterMap (builtValue core) =
      (activeBindings db nodeId).filterMap (inboundFor db nodeId core) := by
  have hbs : ∀ b ∈ activeBindings d₁ nodeId, b ∈ activeBindings db nodeId := fun b hb =>
    (h.bindings.activeBindings nodeId).mem_iff.mp hb
  have hvalues : os.filterMap (builtValue core) =
      (activeBindings d₁ nodeId).filterMap (inboundFor db nodeId core) := by
    have hgiven := h.given
    clear h
    generalize activeBindings d₁ nodeId = bs at hbs hgiven
    induction hgiven with
    | nil => rfl
    | @cons b o bs os hbo _ ih =>
      obtain ⟨d, hd, hexec⟩ := hbo
      have hone : builtValue core o = inboundFor db nodeId core b := by
        rw [← inboundFor_reordered hd (hsettled.clients b (hbs b List.mem_cons_self)), inboundFor,
          hd.pinnedVersion, hexec]
        cases o <;> rfl
      rw [List.filterMap_cons, List.filterMap_cons, hone,
        ih fun b' hb' => hbs b' (List.mem_cons_of_mem b hb')]
  rw [hvalues]
  have hnodup : (activeBindings db nodeId).Nodup :=
    (db.nodeBindings.nodup.of_map).filter _
  refine (Table.filterMap_eq_of_perm (h.bindings.activeBindings nodeId).symm hnodup
    fun b hb b' hb' hsome hsome' => ?_).symm
  obtain ⟨inbound, hinbound⟩ := Option.isSome_iff_exists.mp hsome
  obtain ⟨inbound', hinbound'⟩ := Option.isSome_iff_exists.mp hsome'
  exact hsettled.bindings b hb b' hb' (emitted_of_inboundFor hinbound)
    (emitted_of_inboundFor hinbound')

/-- Every inbound is for the version that is pinned. -/
theorem map_coreVersion_of_given {bs : List NodeBinding} {os : List (Option InboundConfig)}
    (h : GivenBy db nodeId core bs os) : (os.filterMap id).map (·.coreVersion) =
      (bs.filter fun b => (db.protocolConfigs.find b.protocolConfigId).any fun config =>
        parseCoreType config.coreType = core).map fun _ => pinnedVersion db core := by
  induction h with
  | nil => rfl
  | @cons b o bs os hbo _ ih =>
    obtain ⟨d, hd, hexec⟩ := hbo
    rw [bindingInbound, exec_read_bind, hd.protocolConfigs] at hexec
    cases hconfig : db.protocolConfigs.find b.protocolConfigId with
    | none =>
      rw [hconfig] at hexec
      cases hexec
    | some config =>
      rw [hconfig] at hexec
      by_cases hcore : parseCoreType config.coreType = core
      · simp only [hcore, ne_eq, not_true_eq_false, if_false] at hexec
        rw [exec_bind, exec_lift] at hexec
        obtain ⟨protocol, -, hexec⟩ := Except.bind_eq_ok hexec
        rw [exec_bind] at hexec
        obtain ⟨settings, -, hexec⟩ := Except.bind_eq_ok hexec
        rw [exec_bind] at hexec
        obtain ⟨tls, -, hexec⟩ := Except.bind_eq_ok hexec
        cases hexec
        simp only [List.filterMap_cons, id_eq, List.map_cons, List.filter_cons, hconfig,
          Option.any_some, hcore, decide_true, if_true]
        exact congrArg _ ih
      · simp only [hcore, ne_eq, not_false_eq_true, if_true] at hexec
        cases hexec
        simp only [List.filterMap_cons, id_eq, List.filter_cons, hconfig, Option.any_some, hcore,
          decide_false, Bool.false_eq_true, if_false]
        exact ih

/-- A configuration is made of the values and, in sing-box, of the versions. -/
theorem buildFullConfig_congr {ibs ibs' : List InboundConfig} {config config' : Json}
    (h : buildFullConfig env core ibs = .ok config) (h' : buildFullConfig env core ibs' = .ok config')
    (hvalues : ibs.filterMap (fun ib => builtValue core (some ib)) =
      ibs'.filterMap fun ib => builtValue core (some ib))
    (hversions : ibs.map (·.coreVersion) = ibs'.map (·.coreVersion)) : config = config' := by
  cases core with
  | singBox =>
    have hversion : SingBox.effectiveVersion ibs = SingBox.effectiveVersion ibs' := by
      have hsplit : ∀ ibs : List InboundConfig, ibs.filterMap (·.coreVersion) =
          (ibs.map (·.coreVersion)).filterMap id := by
        intro ibs
        rw [List.filterMap_map]
        rfl
      simp only [SingBox.effectiveVersion, hsplit, hversions]
    obtain ⟨values, hbuilt, h⟩ := Except.bind_eq_ok (show _ >>= _ = _ from h)
    obtain ⟨values', hbuilt', h'⟩ := Except.bind_eq_ok (show _ >>= _ = _ from h')
    have hsame : values = values' := (buildInbounds_ok hbuilt).trans
      (Eq.trans hvalues (buildInbounds_ok hbuilt').symm)
    rw [hsame, hversion] at h
    exact Except.ok.inj (h.symm.trans h')
  | mihomo =>
    obtain ⟨values, hbuilt, h⟩ := Except.bind_eq_ok (show _ >>= _ = _ from h)
    obtain ⟨values', hbuilt', h'⟩ := Except.bind_eq_ok (show _ >>= _ = _ from h')
    have hsame : values = values' := (buildInbounds_ok hbuilt).trans
      (Eq.trans hvalues (buildInbounds_ok hbuilt').symm)
    rw [hsame] at h
    exact Except.ok.inj (h.symm.trans h')

/-- Rules that are not applied may be left out. -/
theorem exec_loop_applied (rules : List RelayRule) (config : Json) :
    (loop (applyRelayRule core) config rules).exec db =
      (loop (applyRelayRule core) config
        (rules.filter fun rule => (relayHop db rule).isSome)).exec db := by
  refine exec_loop_filter (fun rule _ hnone config => ?_) config
  rw [exec_applyRelayRule, Option.isSome_eq_false_iff.mp hnone |> Option.isNone_iff_eq_none.mp]

theorem appliedRules_reordered (hsettled : Settled db nodeId core) (h : Reordered db d) :
    (enabledRules d nodeId).filter (fun rule => (relayHop db rule).isSome) =
      (enabledRules db nodeId).filter fun rule => (relayHop db rule).isSome := by
  have hnodup : (enabledRules db nodeId).Nodup := (db.relayRules.nodup.of_map).filter _
  refine (Table.filter_eq_of_perm (h.enabledRules nodeId).symm hnodup
    fun rule hrule rule' hrule' happlied happlied' => ?_).symm
  exact hsettled.rules rule hrule rule' hrule' (isSome_relayHop.mp happlied)
    (isSome_relayHop.mp happlied')

/-- **Two runs of a generation** give one configuration when the rows are settled. -/
theorem assembledRun_unique (hsettled : Settled db nodeId core) {out out' : Json × Option String}
    {d₁ d₂ d₁' d₂' : Db} {os os' : List (Option InboundConfig)} {config config' : Json}
    (h : AssembledRun env db nodeId core out d₁ d₂ os config)
    (h' : AssembledRun env db nodeId core out' d₁' d₂' os' config') : out = out' := by
  have hvalues : (os.filterMap id).filterMap (fun ib => builtValue core (some ib)) =
      (os'.filterMap id).filterMap fun ib => builtValue core (some ib) := by
    have hsplit : ∀ os : List (Option InboundConfig), (os.filterMap id).filterMap
        (fun ib => builtValue core (some ib)) = os.filterMap (builtValue core) := by
      intro os
      rw [List.filterMap_filterMap]
      refine List.filterMap_congr fun o _ => ?_
      cases o <;> rfl
    rw [hsplit, hsplit, builtValues_eq hsettled h, builtValues_eq hsettled h']
  have hversions : (os.filterMap id).map (·.coreVersion) =
      (os'.filterMap id).map (·.coreVersion) := by
    rw [map_coreVersion_of_given h.given, map_coreVersion_of_given h'.given, List.map_const',
      List.map_const']
    refine congrArg (List.replicate · _) ?_
    exact (((h.bindings.activeBindings nodeId).trans
      (h'.bindings.activeBindings nodeId).symm).filter _).length_eq
  have hconfig := buildFullConfig_congr h.built h'.built hvalues hversions
  subst hconfig
  have happlied := h.applied
  have happlied' := h'.applied
  rw [exec_loop_applied, appliedRules_reordered hsettled h.rules] at happlied
  rw [exec_loop_applied, appliedRules_reordered hsettled h'.rules, happlied] at happlied'
  exact Prod.ext (Except.ok.inj happlied') (h.version.trans h'.version.symm)

end Generation

/-! ### What the order does not change -/

def baseTags : CoreType → List String
  | .singBox => ["direct", "block"]
  | .mihomo => []

def baseRules : CoreType → List Json
  | .singBox => [baseRule]
  | .mihomo => [finalRule]

/-- Outbounds and routing entries of the relay rules stand in ascending `sort_order`. -/
def InSortOrder (db : Db) (nodeId : Uuid) (core : CoreType) (config : Json) : Prop :=
  ∃ rules : List RelayRule, rules.Perm (appliedRules db nodeId) ∧
    rules.Pairwise (fun rule rule' => rule.sortOrder ≤ rule'.sortOrder) ∧
    (outbounds core config).filterMap (outboundTag core) = baseTags core ++ rules.map relayTag ∧
    routeRules core config = withEntries (rules.flatMap (ruleEntries core)) (baseRules core) core

/-- **Row order does not matter**: a generation has one outcome; the version of what is sent is
the recorded one when nothing has changed, so that the push is skipped; and rules keep the order
that they are given. -/
structure OrderInvariant (env : HubEnv) (db : Db) (nodeId : Uuid) (core : CoreType) : Prop where
  config : ∀ r r', (generateNodeConfig env.toGenEnv nodeId core).Yields (Reordered db) r →
    (generateNodeConfig env.toGenEnv nodeId core).Yields (Reordered db) r' →
    r.toOption = r'.toOption
  skipped : ∀ message message',
    (prepareScheduled env nodeId core).Yields (Reordered db) (.ok (some message)) →
    (prepareScheduled env nodeId core).Yields (Reordered db) (.ok (some message')) →
    message.configVersion = message'.configVersion
  sorted : ∀ out, (generateNodeConfig env.toGenEnv nodeId core).Yields (Reordered db) (.ok out) →
    InSortOrder db nodeId core out.1

section Invariance

variable {env : HubEnv} {gen : GenEnv} {db : Db} {nodeId : Uuid} {core : CoreType}

theorem yields_schemaChecked {out : Json × Option String} {r : PanelResult (Json × Option String)}
    (h : (schemaChecked gen core out).Yields (Reordered db) r) : r = (schemaChecked gen core out).exec db := by
  have hrespects : (schemaChecked gen core out).Respects SameFinds := by
    rw [schemaChecked]
    split
    · exact respects_bind (respects_lift _) fun _ => respects_pure _
    · exact respects_pure _
  exact hrespects.yields (fun d hd => (Reordered.refl db).sameFinds hd) h

/-- A generation that succeeds was assembled. -/
theorem assembled_of_yields {out : Json × Option String}
    (h : (generateNodeConfig gen nodeId core).Yields (Reordered db) (.ok out)) :
    (assembled gen.env nodeId core).Yields (Reordered db) (.ok out) := by
  rw [generateNodeConfig_eq] at h
  obtain ⟨x, hx, h⟩ := yields_bind.mp h
  cases x with
  | error e => cases h
  | ok assembledOut =>
    have hcheck := yields_schemaChecked h
    rw [schemaChecked] at hcheck
    split at hcheck
    · rw [exec_bind, exec_lift] at hcheck
      obtain ⟨_, -, hout⟩ := Except.bind_eq_ok hcheck.symm
      cases hout
      exact hx
    · cases hcheck
      exact hx

theorem outcomes_eq (hsettled : AllReady db nodeId core → Settled db nodeId core)
    {r r' : PanelResult (Json × Option String)}
    (h : (generateNodeConfig gen nodeId core).Yields (Reordered db) r)
    (h' : (generateNodeConfig gen nodeId core).Yields (Reordered db) r') :
    r.toOption = r'.toOption := by
  rw [generateNodeConfig_eq] at h h'
  obtain ⟨x, hx, h⟩ := yields_bind.mp h
  obtain ⟨x', hx', h'⟩ := yields_bind.mp h'
  have hagree : ∀ {x x' : PanelResult (Json × Option String)},
      (assembled gen.env nodeId core).Yields (Reordered db) x →
      (assembled gen.env nodeId core).Yields (Reordered db) x' → ∀ out, x = .ok out → x' = .ok out := by
    rintro x x' hx hx' out rfl
    obtain ⟨d₁, d₂, os, config, hrun⟩ := assembledRun_of_yields hx
    have hready := allReady_of_run hrun
    cases x' with
    | error e => exact absurd hx' (not_error_of_allReady hready)
    | ok out' =>
      obtain ⟨d₁', d₂', os', config', hrun'⟩ := assembledRun_of_yields hx'
      rw [assembledRun_unique (hsettled hready) hrun hrun']
  cases x with
  | ok out =>
    cases hagree hx hx' out rfl
    rw [yields_schemaChecked h, yields_schemaChecked h']
  | error e =>
    cases x' with
    | ok out => cases hagree hx' hx out rfl
    | error e' =>
      cases h
      cases h'
      rfl

/-- A prepared message carries the configuration of a generation. -/
theorem exists_generated_of_prepared {message : ConfigPush}
    (h : (prepareScheduled env nodeId core).Yields (Reordered db) (.ok (some message))) :
    ∃ out buildId, (generateNodeConfig env.toGenEnv nodeId core).Yields (Reordered db) (.ok out) ∧
      (coreBuildIdOf core out.2).exec db = .ok buildId ∧
      message = configPush env core false none out.1 out.2 buildId := by
  obtain ⟨d, hd, h⟩ := yields_read_bind.mp h
  obtain ⟨x, -, h⟩ := yields_bind.mp h
  cases x with
  | error e => cases h
  | ok found =>
    cases found with
    | false => cases h
    | true =>
      obtain ⟨x, hx, h⟩ := yields_bind.mp h
      cases x with
      | error e => cases h
      | ok out =>
        change (if hasInbounds out.1 = true then _ else _ : Program (Option ConfigPush)).Yields
          (Reordered db) (.ok (some message)) at h
        split at h
        · obtain ⟨y, hy, h⟩ := yields_bind.mp h
          have hbuild := (respects_coreBuildIdOf core out.2).yields
            (fun d' hd' => hd'.coreVersions.symm) hy
          cases y with
          | error e => cases h
          | ok buildId =>
            cases h
            exact ⟨out, buildId, hx, hbuild.symm, rfl⟩
        · cases h

/-- Outbounds and routing entries stand in the order of the rules that are applied. -/
theorem relayed_of_loop {env : Env} {ibs : List InboundConfig} {base config : Json}
    (hbuilt : buildFullConfig env core ibs = .ok base) {all rules : List RelayRule}
    (happlied : (loop (applyRelayRule core) base all).exec db = .ok config)
    (hrules : all.filter (fun rule => (relayHop db rule).isSome) = rules)
    (hdistinct : (rules.map (·.id.short)).Nodup) :
    (outbounds core config).filterMap (outboundTag core) = baseTags core ++ rules.map relayTag ∧
      routeRules core config = withEntries (rules.flatMap (ruleEntries core)) (baseRules core) core := by
  rw [exec_loop_applied, hrules] at happlied
  have hall : rules.filter (fun rule => (relayHop db rule).isSome) = rules := by
    rw [← hrules, List.filter_filter]
    simp only [Bool.and_self]
  obtain ⟨r, hrouted, htags, hentries, -, -, -⟩ := routed_loop hdistinct
    (routed_buildFullConfig hbuilt) (fun rule _ hmem => List.not_mem_nil hmem) happlied
  rw [hall] at htags hentries
  rw [hrouted.outbounds_eq, hrouted.routeRules_eq]
  cases core with
  | singBox =>
    refine ⟨?_, congrArg (baseRule :: ·) hentries⟩
    rw [Routing.allOutbounds, List.filterMap_append, htags]
    rfl
  | mihomo => exact ⟨htags, congrArg (· ++ [finalRule]) hentries⟩

theorem length_appliedRules_le_one (hsettled : Settled db nodeId core) :
    (appliedRules db nodeId).length ≤ 1 := by
  have hnodup : (enabledRules db nodeId).Nodup := (db.relayRules.nodup.of_map).filter _
  refine Table.length_le_one (hnodup.filter _) fun rule hrule rule' hrule' => ?_
  obtain ⟨hmem, happlied⟩ := List.mem_filter.mp hrule
  obtain ⟨hmem', happlied'⟩ := List.mem_filter.mp hrule'
  exact hsettled.rules rule hmem rule' hmem' (isSome_relayHop.mp happlied)
    (isSome_relayHop.mp happlied')

/-- **Settled rows have no order.** -/
theorem orderInvariant_of_settled (hsettled : AllReady db nodeId core → Settled db nodeId core) :
    OrderInvariant env db nodeId core where
  config := fun r r' h h' => outcomes_eq hsettled h h'
  skipped := by
    intro message message' h h'
    obtain ⟨out, buildId, hout, hbuild, rfl⟩ := exists_generated_of_prepared h
    obtain ⟨out', buildId', hout', hbuild', rfl⟩ := exists_generated_of_prepared h'
    have hsame : out = out' := Option.some.inj (outcomes_eq hsettled hout hout')
    subst hsame
    cases hbuild.symm.trans hbuild'
    rfl
  sorted := by
    intro out hout
    obtain ⟨d₁, d₂, os, config, hrun⟩ := assembledRun_of_yields (assembled_of_yields hout)
    have hset := hsettled (allReady_of_run hrun)
    have hlength := length_appliedRules_le_one hset
    have hdistinct : ((appliedRules db nodeId).map (·.id.short)).Nodup := by
      rw [List.Nodup]
      match hrules : appliedRules db nodeId, hlength with
      | [], _ => exact .nil
      | [rule], _ => exact List.pairwise_singleton _ _
    refine ⟨appliedRules db nodeId, .refl _, ?_,
      relayed_of_loop hrun.built hrun.applied (appliedRules_reordered hset hrun.rules) hdistinct⟩
    match hrules : appliedRules db nodeId, hlength with
    | [], _ => exact .nil
    | [rule], _ => exact List.pairwise_singleton _ _

end Invariance


end ProxyPanel.Hub
