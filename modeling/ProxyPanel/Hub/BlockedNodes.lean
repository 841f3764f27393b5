import ProxyPanel.Hub.Generable

/-!
# Relay rules and certificates that block a node

A rule is accepted for the protocol of its exit and a certificate is deleted whoever names it.
Whether the nodes can be generated for afterwards is a matter of the rows before
(`ready_iff_spared`): of the exit a rule is enabled for, and of the bindings that name the
certificate.
-/

namespace ProxyPanel.Hub.BlockedNodes

open Json Query

inductive Request where
  | createRelayRule (ids : RelayIds) (id : Uuid) (payload : CreateRelayRulePayload)
  | updateRelayRule (ids : RelayIds) (id : Uuid) (payload : UpdateRelayRulePayload)
  | deleteRelayRule (id : Uuid)
  | createCertificate (id : Uuid) (payload : CreateCertificatePayload)
  | deleteCertificate (id : Uuid)

def Request.run (env : EditEnv) : Request → Handler Unit
  | .createRelayRule ids id payload => Hub.createRelayRule env ids id payload
  | .updateRelayRule ids id payload => Hub.updateRelayRule env ids id payload
  | .deleteRelayRule id => Hub.deleteRelayRule env id
  | .createCertificate id payload => Hub.createCertificate env id payload
  | .deleteCertificate id => Hub.deleteCertificate id

/-- A binding does without a certificate. -/
def BindingSpared (db : Db) (id : Uuid) (b : NodeBinding) : Prop :=
  ∀ config, db.protocolConfigs.find b.protocolConfigId = some config →
    certificateOf (SettingsHelper.mergeTlsSettings config.tlsSettings (overrideTls b)) ≠ some id

/-- An exit has its server name without a certificate. -/
def ExitSpared (db : Db) (id exitBindingId : Uuid) : Prop :=
  ∀ b config tls, db.nodeBindings.find exitBindingId = some b →
    db.protocolConfigs.find b.protocolConfigId = some config →
    (db.nodes.find b.nodeId).isSome = true → config.protocolType ∈ ["hysteria2", "anytls"] →
    overrideTls b = some tls → certificateOf (some tls) = some id →
    (tls.getStr "domain").getD "" ≠ ""

/-- The requests after which no node is blocked, told by the rows before. -/
def Spared (db : Db) : Request → Prop
  | .createRelayRule _ _ payload =>
      payload.enabled.getD true = true → ExitReady db payload.exitBindingId
  | .updateRelayRule _ id payload => ∀ rule, db.relayRules.find id = some rule →
      payload.enabled.getD rule.enabled = true →
        ExitReady db (payload.exitBindingId.getD rule.exitBindingId)
  | .deleteRelayRule _ => True
  | .createCertificate _ _ => True
  | .deleteCertificate id =>
      (∀ b ∈ db.nodeBindings.rows, b.isActive = true → (db.nodes.find b.nodeId).isSome = true →
        BindingSpared db id b) ∧
      ∀ rule ∈ db.relayRules.rows, rule.enabled = true →
        (db.nodes.find rule.nodeId).isSome = true → ExitSpared db id rule.exitBindingId

/-! ### Rules -/

section Rules

variable {env : EditEnv} {db db₁ db' : Db}

/-- The databases differ in rules, clients and markers. -/
structure SameRows (db db' : Db) : Prop where
  nodes : db'.nodes = db.nodes
  nodeBindings : db'.nodeBindings = db.nodeBindings
  protocolConfigs : db'.protocolConfigs = db.protocolConfigs
  certificates : db'.certificates = db.certificates

theorem SameRows.bindingReady (h : SameRows db db') {b : NodeBinding} (hb : BindingReady db b) :
    BindingReady db' b := by
  obtain ⟨config, protocol, hconfig, hprotocol, hbuildable, hcert⟩ := hb
  refine ⟨config, protocol, by rw [h.protocolConfigs, hconfig], hprotocol, hbuildable, ?_⟩
  rw [CertificateFound, h.certificates]
  exact hcert

theorem SameRows.exitReady_iff (h : SameRows db db') {exitBindingId : Uuid} :
    ExitReady db' exitBindingId ↔ ExitReady db exitBindingId := by
  simp only [ExitReady, SniFound, h.nodes, h.nodeBindings, h.protocolConfigs, h.certificates]

/-- Only the rules can block a node. -/
theorem SameRows.ready_iff (h : SameRows db db') (hready : Ready db) : Ready db' ↔
    ∀ rule ∈ db'.relayRules.rows, rule.enabled = true → (db.nodes.find rule.nodeId).isSome = true →
      ExitReady db rule.exitBindingId := by
  constructor
  · intro hready' rule hrule henabled hnode
    exact h.exitReady_iff.mp (hready'.exits rule hrule henabled (by rw [h.nodes]; exact hnode))
  · intro hexits
    refine ⟨fun b hb hactive hnode => ?_, fun rule hrule henabled hnode => ?_⟩
    · rw [h.nodeBindings] at hb
      rw [h.nodes] at hnode
      exact h.bindingReady (hready.bindings b hb hactive hnode)
    · rw [h.nodes] at hnode
      exact h.exitReady_iff.mpr (hexits rule hrule henabled hnode)

theorem ready_marked (h : SameRows db db₁) (hmarks : SameContents db₁ db') (hready : Ready db) :
    Ready db' ↔ ∀ rule ∈ db₁.relayRules.rows, rule.enabled = true →
      (db.nodes.find rule.nodeId).isSome = true → ExitReady db rule.exitBindingId := by
  obtain ⟨rows, rfl⟩ := hmarks
  have hsame : SameRows db (setPendingUpdates db₁ rows) :=
    ⟨h.nodes, h.nodeBindings, h.protocolConfigs, h.certificates⟩
  exact hsame.ready_iff hready

theorem ready_createRelayRule {ids : RelayIds} {id : Uuid} {payload : CreateRelayRulePayload}
    (hready : Ready db) (h : Hub.createRelayRule env ids id payload db = .ok () db') :
    Ready db' ↔ Spared db (.createRelayRule ids id payload) := by
  obtain ⟨hnode, clients, links, rules, -, hrules, rfl⟩ := createRelayRule_ok h
  refine (ready_marked ?_ (sameContents_markBoth env _ _) hready).trans ?_
  · exact ⟨rfl, rfl, rfl, rfl⟩
  constructor
  · intro hexits henabled
    have hmem : payload.rule env.now id ids.clientId ∈ rules.rows := by
      rw [Table.rows_of_insert hrules]
      exact List.mem_append_right _ (List.mem_singleton_self _)
    exact hexits _ hmem henabled hnode
  · intro hspared rule hrule henabled hnode'
    rw [Table.rows_of_insert hrules] at hrule
    rcases List.mem_append.mp hrule with hrule | hrule
    · exact hready.exits rule hrule henabled hnode'
    · cases List.mem_singleton.mp hrule
      exact hspared henabled

theorem ready_updateRelayRule {ids : RelayIds} {id : Uuid} {payload : UpdateRelayRulePayload}
    (hready : Ready db) (h : Hub.updateRelayRule env ids id payload db = .ok () db') :
    Ready db' ↔ Spared db (.updateRelayRule ids id payload) := by
  obtain ⟨rule, hrule, clients, links, -, rfl⟩ := updateRelayRule_ok h
  have hnode := exists_node_of_updateRelayRule hrule h
  refine (ready_marked ?_ (sameContents_markBoth env _ _) hready).trans ?_
  · exact ⟨rfl, rfl, rfl, rfl⟩
  constructor
  · intro hexits rule' hrule' henabled
    cases hrule.symm.trans hrule'
    have hmem : payload.apply env.now ids.clientId rule ∈
        (db.relayRules.update id (payload.apply env.now ids.clientId)).rows := by
      refine Table.mem_of_find (k := id) ?_
      have hkey : ∀ r, key (payload.apply env.now ids.clientId r) = key r := fun _ => rfl
      rw [Table.find_update_self hkey, hrule]
      rfl
    exact hexits _ hmem henabled hnode
  · intro hspared
    refine Table.forall_mem_update hready.exits fun r hr hkey _ henabled hnode => ?_
    exact hspared r (Table.find_eq_some_iff.mpr ⟨hr, hkey⟩) henabled

theorem ready_deleteRelayRule {id : Uuid} (hready : Ready db)
    (h : Hub.deleteRelayRule env id db = .ok () db') : Ready db' := by
  obtain ⟨rule, -, rfl⟩ := deleteRelayRule_ok h
  refine (ready_marked ?_ (sameContents_markBoth env _ _) hready).mpr ?_
  · exact ⟨rfl, rfl, rfl, rfl⟩
  exact fun r hr => hready.exits r (Table.mem_deleteWhere.mp hr).1

end Rules

/-! ### Certificates -/

section Certificates

variable {env : EditEnv} {db db' : Db} {certificates : Table Certificate}

/-- Certificates that stay with their node. -/
def CertificatesStay (db : Db) (certificates : Table Certificate) : Prop :=
  ∀ id cert, db.certificates.find id = some cert →
    ∃ cert', certificates.find id = some cert' ∧ cert'.nodeId = cert.nodeId

theorem ready_of_certificatesStay (hready : Ready db) (h : CertificatesStay db certificates) :
    Ready { db with certificates } := by
  refine ⟨fun b hb hactive hnode => ?_, fun rule hrule henabled hnode => ?_⟩
  · obtain ⟨config, protocol, hconfig, hprotocol, hbuildable, hcert⟩ :=
      hready.bindings b hb hactive hnode
    refine ⟨config, protocol, hconfig, hprotocol, hbuildable, fun raw hraw => ?_⟩
    obtain ⟨certId, cert, hparse, hfind, hnode⟩ := hcert raw hraw
    obtain ⟨cert', hfind', hnode'⟩ := h certId cert hfind
    exact ⟨certId, cert', hparse, hfind', hnode'.trans hnode⟩
  · intro b config protocol hb hconfig hexit hprotocol
    have hdial := hready.exits rule hrule henabled hnode b config protocol hb hconfig hexit hprotocol
    have hsni : SniFound db b → SniFound { db with certificates } b := by
      rintro ⟨tls, htls, ⟨certId, hcert, hfound⟩ | hdomain⟩
      · obtain ⟨cert, hfind⟩ := Option.isSome_iff_exists.mp hfound
        obtain ⟨cert', hfind', -⟩ := h certId cert hfind
        exact ⟨tls, htls, .inl ⟨certId, hcert, Option.isSome_iff_exists.mpr ⟨cert', hfind'⟩⟩⟩
      · exact ⟨tls, htls, .inr hdomain⟩
    cases protocol with
    | vlessReality => exact hdial
    | vlessXhttp => exact hdial
    | hysteria2 => exact hsni hdial
    | anytls => exact hsni hdial

theorem ready_createCertificate {id : Uuid} {payload : CreateCertificatePayload} (hready : Ready db)
    (h : Hub.createCertificate env id payload db = .ok () db') : Ready db' := by
  obtain ⟨challengeType, certificates, hupsert, rfl⟩ := createCertificate_ok h
  refine ready_of_certificatesStay hready fun certId cert hcert => ?_
  rw [Table.upsert] at hupsert
  split at hupsert
  · rename_i existing hexisting
    cases hupsert
    by_cases hid : certId = key existing
    · have hkey : ∀ c, key (reissued env.now challengeType c) = key c := fun _ => rfl
      refine ⟨reissued env.now challengeType cert, ?_, rfl⟩
      rw [← hid, Table.find_update_self hkey, hcert]
      rfl
    · exact ⟨cert, by rw [Table.find_update_of_ne hid, hcert], rfl⟩
  · refine ⟨cert, ?_, rfl⟩
    rw [Table.find_insert hupsert, if_neg ?_, hcert]
    rintro rfl
    rw [Table.find_eq_none_of_insert hupsert] at hcert
    cases hcert

theorem certificateFound_delete {nodeId id : Uuid} {tls : Option Json}
    (h : CertificateFound db nodeId tls) :
    CertificateFound { db with certificates := db.certificates.deleteWhere (·.id = id) } nodeId tls ↔
      certificateOf tls ≠ some id := by
  constructor
  · intro hfound hid
    obtain ⟨raw, hraw, hparse⟩ := Option.bind_eq_some_iff.mp hid
    obtain ⟨certId, cert, hparse', hfind, -⟩ := hfound raw hraw
    cases hparse.symm.trans hparse'
    rw [Table.find_deleteWhere, Option.filter_eq_some_iff] at hfind
    have hkey : cert.id = _ := Table.key_of_find hfind.1
    simp [hkey] at hfind
  · intro hne raw hraw
    obtain ⟨certId, cert, hparse, hfind, hnode⟩ := h raw hraw
    refine ⟨certId, cert, hparse, ?_, hnode⟩
    rw [Table.find_deleteWhere_of_not, hfind]
    intro r hr
    cases hfind.symm.trans hr
    have hid : cert.id ≠ id := by
      rintro rfl
      refine hne ?_
      rw [certificateOf, hraw, Option.bind_some, hparse]
      exact congrArg some (Table.key_of_find hfind).symm
    exact decide_eq_false hid

/-- An exit that has its server name from a certificate loses it with the certificate. -/
theorem exitReady_delete {id exitBindingId : Uuid} (h : ExitReady db exitBindingId) :
    ExitReady { db with certificates := db.certificates.deleteWhere (·.id = id) } exitBindingId ↔
      ExitSpared db id exitBindingId := by
  have hsni : ∀ {b : NodeBinding} {tls : Json}, overrideTls b = some tls →
      SniFound db b →
      (SniFound { db with certificates := db.certificates.deleteWhere (·.id = id) } b ↔
        (certificateOf (some tls) = some id → (tls.getStr "domain").getD "" ≠ "")) := by
    intro b tls htls hbefore
    obtain ⟨tls', htls', hname⟩ := hbefore
    cases htls.symm.trans htls'
    constructor
    · rintro ⟨tls', htls', ⟨certId, hcert, hfound⟩ | hdomain⟩ hid
      · cases htls.symm.trans htls'
        cases hid.symm.trans hcert
        obtain ⟨cert, hfind⟩ := Option.isSome_iff_exists.mp hfound
        rw [Table.find_deleteWhere, Option.filter_eq_some_iff] at hfind
        have hkey : cert.id = _ := Table.key_of_find hfind.1
        simp [hkey] at hfind
      · cases htls.symm.trans htls'
        exact hdomain
    · intro hspared
      refine ⟨tls, htls, ?_⟩
      rcases hname with ⟨certId, hcert, hfound⟩ | hdomain
      · by_cases hid : certId = id
        · exact .inr (hspared (hid ▸ hcert))
        · refine .inl ⟨certId, hcert, ?_⟩
          rw [Table.find_deleteWhere_of_not, hfound]
          intro cert hfind
          have hkey : cert.id = certId := Table.key_of_find hfind
          exact decide_eq_false (hkey ▸ hid)
      · exact .inr hdomain
  constructor
  · intro hready b config tls hb hconfig hnode hprotocol htls
    simp only [List.mem_cons, List.not_mem_nil, or_false] at hprotocol
    rcases hprotocol with hprotocol | hprotocol
    · have hfrom : ProtocolType.fromStr? config.protocolType = some .hysteria2 := by
        rw [hprotocol]
        rfl
      exact (hsni htls (h b config _ hb hconfig hnode hfrom)).mp
        (hready b config _ hb hconfig hnode hfrom)
    · have hfrom : ProtocolType.fromStr? config.protocolType = some .anytls := by
        rw [hprotocol]
        rfl
      exact (hsni htls (h b config _ hb hconfig hnode hfrom)).mp
        (hready b config _ hb hconfig hnode hfrom)
  · intro hspared b config protocol hb hconfig hnode hfrom
    have hbefore := h b config protocol hb hconfig hnode hfrom
    have htext := (ProtocolType.toStr_of_fromStr? hfrom).symm
    have hkept : SniFound db b → config.protocolType ∈ ["hysteria2", "anytls"] →
        SniFound { db with certificates := db.certificates.deleteWhere (·.id = id) } b := by
      intro hname hprotocol
      have hname' := hname
      obtain ⟨tls, htls, -⟩ := hname'
      exact (hsni htls hname).mpr (hspared b config tls hb hconfig hnode hprotocol htls)
    cases protocol with
    | vlessReality => exact hbefore
    | vlessXhttp => exact hbefore
    | hysteria2 => exact hkept hbefore (by rw [htext]; decide)
    | anytls => exact hkept hbefore (by rw [htext]; decide)

theorem ready_deleteCertificate {id : Uuid} (hready : Ready db)
    (h : Hub.deleteCertificate id db = .ok () db') :
    Ready db' ↔ Spared db (.deleteCertificate id) := by
  obtain rfl := deleteCertificate_ok h
  constructor
  · intro hready'
    refine ⟨fun b hb hactive hnode config hconfig => ?_, fun rule hrule henabled hnode => ?_⟩
    · obtain ⟨config', protocol, hconfig', -, -, hcert⟩ := hready.bindings b hb hactive hnode
      cases hconfig.symm.trans hconfig'
      obtain ⟨config', protocol', hconfig', -, -, hcert'⟩ := hready'.bindings b hb hactive hnode
      cases hconfig.symm.trans hconfig'
      exact (certificateFound_delete hcert).mp hcert'
    · exact (exitReady_delete (hready.exits rule hrule henabled hnode)).mp
        (hready'.exits rule hrule henabled hnode)
  · rintro ⟨hbindings, hexits⟩
    refine ⟨fun b hb hactive hnode => ?_, fun rule hrule henabled hnode => ?_⟩
    · obtain ⟨config, protocol, hconfig, hprotocol, hbuildable, hcert⟩ :=
        hready.bindings b hb hactive hnode
      exact ⟨config, protocol, hconfig, hprotocol, hbuildable,
        (certificateFound_delete hcert).mpr (hbindings b hb hactive hnode config hconfig)⟩
    · exact (exitReady_delete (hready.exits rule hrule henabled hnode)).mpr
        (hexits rule hrule henabled hnode)

end Certificates

/-! ### Every request -/

/-- **Every row stays ready if and only if the request spares them.** -/
theorem ready_iff_spared {env : EditEnv} {db db' : Db} {request : Request} (hready : Ready db)
    (h : request.run env db = .ok () db') : Ready db' ↔ Spared db request := by
  cases request with
  | createRelayRule ids id payload => exact ready_createRelayRule hready h
  | updateRelayRule ids id payload => exact ready_updateRelayRule hready h
  | deleteRelayRule id => exact iff_of_true (ready_deleteRelayRule hready h) trivial
  | createCertificate id payload => exact iff_of_true (ready_createCertificate hready h) trivial
  | deleteCertificate id => exact ready_deleteCertificate hready h

/-- **No node is blocked after a request if and only if it spares the rows before**: an enabled
rule needs an exit that its outbound can be built for, and a deleted certificate must not be the
one that an inbound or an exit is named by. -/
theorem noneBlocked_iff_spared {gen : GenEnv} {env : EditEnv} {db db' : Db} {request : Request}
    (hbefore : NoneBlocked gen db) (h : request.run env db = .ok () db')
    (hschema : ∀ nodeId, (db'.nodes.find nodeId).isSome = true → SchemaPasses gen db' nodeId) :
    NoneBlocked gen db' ↔ Spared db request := by
  rw [noneBlocked_iff hschema]
  exact ready_iff_spared (ready_of_noneBlocked hbefore) h

/-! ### An exit without a public key -/

namespace KeylessExit

/-- A REALITY config with all that its inbound needs, and without the public key that only
those who dial it need. -/
def config : ProtocolConfig :=
  { StaleExit.config with
    settings := mkObj [("reality_dest", str "example.com:443"), ("reality_private_key", str "key"),
      ("reality_server_names", str "example.com")] }

def gen : GenEnv := StaleExit.gen

/-- Two nodes without rules; the config of the exit is a parameter. -/
def db (config : ProtocolConfig) : Db where
  nodes := StaleExit.db.nodes
  protocolConfigs := .single config
  nodeBindings := .single StaleExit.binding

def ids : RelayIds where
  clientId := .ofNat 21
  userId := .ofNat 22
  emailId := .ofNat 23
  linkId _ := .ofNat 24

def create : Request := .createRelayRule ids StaleExit.rule.id {
  nodeId := StaleExit.entry.id
  exitBindingId := StaleExit.binding.id
  name := "relay"
  matchType := "inline"
  matchConfig := StaleExit.rule.matchConfig }

theorem find_config :
    (db config).protocolConfigs.find StaleExit.binding.protocolConfigId = some config := rfl

theorem find_reality : (db StaleExit.config).protocolConfigs.find
    StaleExit.binding.protocolConfigId = some StaleExit.config := rfl

theorem find_binding (c : ProtocolConfig) :
    (db c).nodeBindings.find StaleExit.binding.id = some StaleExit.binding := rfl

theorem schemaPasses (db : Db) (nodeId : Uuid) : SchemaPasses gen db nodeId := fun _ _ => rfl

theorem noneBlocked {c : ProtocolConfig} (h : BindingReady (db c) StaleExit.binding) :
    NoneBlocked gen (db c) := by
  refine (noneBlocked_iff fun nodeId _ => schemaPasses _ nodeId).mpr
    ⟨fun b hb _ _ => ?_, fun rule hrule => absurd hrule List.not_mem_nil⟩
  cases List.mem_singleton.mp hb
  exact h

theorem noTls (c : ProtocolConfig) (h : c.tlsSettings = none) :
    CertificateFound (db c) StaleExit.binding.nodeId
      (SettingsHelper.mergeTlsSettings c.tlsSettings (overrideTls StaleExit.binding)) := by
  intro raw hraw
  rw [h, show SettingsHelper.mergeTlsSettings none (overrideTls StaleExit.binding) = none
    by decide] at hraw
  cases hraw

theorem bindingReady : BindingReady (db config) StaleExit.binding :=
  ⟨config, .vlessReality, find_config, by decide, ⟨by decide, by decide⟩, noTls config rfl⟩

theorem bindingReady_reality : BindingReady (db StaleExit.config) StaleExit.binding :=
  ⟨StaleExit.config, .vlessReality, find_reality, by decide, ⟨by decide, by decide⟩,
    noTls StaleExit.config rfl⟩

theorem not_exitReady : ¬ ExitReady (db config) StaleExit.binding.id := by
  intro h
  have hdial := h StaleExit.binding config .vlessReality (find_binding config) find_config
    (by decide) (by decide)
  exact absurd hdial.1 (by decide)

end KeylessExit

/-- **A rule that is accepted blocks its node**: its exit has no public key. -/
theorem accepted_rule_blocks : ¬ ∀ (gen : GenEnv) (env : EditEnv) (db db' : Db) (request : Request),
    NoneBlocked gen db → request.run env db = .ok () db' →
      (∀ nodeId, (db'.nodes.find nodeId).isSome = true → SchemaPasses gen db' nodeId) →
      NoneBlocked gen db' := by
  intro h
  obtain ⟨db', hrun⟩ : ∃ db', KeylessExit.create.run StaleExit.env
      (KeylessExit.db KeylessExit.config) = .ok () db' := ⟨_, rfl⟩
  have hbefore := KeylessExit.noneBlocked KeylessExit.bindingReady
  have hafter := h _ _ _ _ _ hbefore hrun fun nodeId _ => KeylessExit.schemaPasses db' nodeId
  have hspared := (ready_iff_spared (ready_of_noneBlocked hbefore) hrun).mp
    (ready_of_noneBlocked hafter)
  exact KeylessExit.not_exitReady (hspared rfl)

theorem noneBlocked_iff_spared_reality : ∃ db', KeylessExit.create.run StaleExit.env
    (KeylessExit.db StaleExit.config) = .ok () db' ∧ NoneBlocked KeylessExit.gen db' := by
  obtain ⟨db', hrun⟩ : ∃ db', KeylessExit.create.run StaleExit.env
      (KeylessExit.db StaleExit.config) = .ok () db' := ⟨_, rfl⟩
  refine ⟨db', hrun, (noneBlocked_iff_spared
    (KeylessExit.noneBlocked KeylessExit.bindingReady_reality) hrun
    fun nodeId _ => KeylessExit.schemaPasses db' nodeId).mpr fun _ => ?_⟩
  intro b c protocol hb hconfig hnode hprotocol
  cases (KeylessExit.find_binding StaleExit.config).symm.trans hb
  cases KeylessExit.find_reality.symm.trans hconfig
  cases (show _ = some ProtocolType.vlessReality by decide).symm.trans hprotocol
  exact ⟨by decide, by decide⟩

end ProxyPanel.Hub.BlockedNodes
