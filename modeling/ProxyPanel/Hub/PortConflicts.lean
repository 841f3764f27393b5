import ProxyPanel.Hub.Generable

/-!
# Port conflicts

`validate_node_port_conflicts` looks for two active bindings of a node that ask for
one address, one port and one core, with the overrides of the bindings.  What is
emitted listens on the address and port of the protocol config, whatever a binding
overrides, and two cores of a node share its ports.  `port_check_exact_iff` compares
the two on the rows of the database, with the JSON Schema as a parameter: the check is right
exactly when there is a clash of either kind or of neither.
-/

namespace ProxyPanel.Hub

open Json Query Builder

/-! ### What is emitted -/

/-- The inbounds of a core; a generation that fails emits none. -/
def emittedBy (gen : GenEnv) (db : Db) (nodeId : Uuid) (core : CoreType) : List Json :=
  match (generateNodeConfig gen nodeId core).exec db with
  | .ok (config, _) => emitted core config
  | .error _ => []

/-- Where the inbounds of both cores listen, taken together. -/
def emittedPairs (gen : GenEnv) (db : Db) (nodeId : Uuid) : List (String × String) :=
  (emittedBy gen db nodeId .singBox).filterMap (listenPair .singBox) ++
    (emittedBy gen db nodeId .mihomo).filterMap (listenPair .mihomo)

/-- The check accepts a node exactly when nothing that is emitted clashes. -/
def PortCheckExact (gen : GenEnv) (db : Db) (nodeId : Uuid) : Prop :=
  (validateNodePortConflicts nodeId).exec db = .ok () ↔ (emittedPairs gen db nodeId).Nodup

/-! ### Clashes -/

/-- An active binding is emitted and listens at a place.  All that its core needs of the rows
is ready; its own inbound is left out for want of a certificate, which REALITY does not need. -/
def ListensAt (gen : GenEnv) (db : Db) (nodeId : Uuid) (binding : NodeBinding)
    (place : String × Nat) : Prop :=
  ∃ config tls, db.protocolConfigs.find binding.protocolConfigId = some config ∧
    AllReady db nodeId (parseCoreType config.coreType) ∧
    (parseCoreType config.coreType = .singBox → SchemaPasses gen db nodeId) ∧
    (resolveManagedCertTls nodeId
      (SettingsHelper.mergeTlsSettings config.tlsSettings (overrideTls binding))).exec db = .ok tls ∧
    (config.protocolType = "vless_reality" ∨ HasCertificate (parseCoreType config.coreType) tls) ∧
    place = listenPlace config binding

/-- Two active bindings ask for one address, port and core, as the check reads them. -/
def CheckedClash (db : Db) (nodeId : Uuid) : Prop :=
  ∃ b ∈ activeBindings db nodeId, ∃ b' ∈ activeBindings db nodeId, b.id ≠ b'.id ∧
    ∃ use, portUse db b = some use ∧ portUse db b' = some use

/-- Two active bindings are emitted and listen at one place. -/
def EmittedClash (gen : GenEnv) (db : Db) (nodeId : Uuid) : Prop :=
  ∃ b ∈ activeBindings db nodeId, ∃ b' ∈ activeBindings db nodeId, b.id ≠ b'.id ∧
    ∃ place, ListensAt gen db nodeId b place ∧ ListensAt gen db nodeId b' place

/-! ### The pairs of the bindings -/

section

variable {gen : GenEnv} {db : Db} {nodeId : Uuid}

/-- The pair of a binding, when its inbound for the core is emitted. -/
def pairFor (gen : GenEnv) (db : Db) (nodeId : Uuid) (core : CoreType) (binding : NodeBinding) :
    Option (String × String) :=
  match (generateNodeConfig gen nodeId core).exec db with
  | .ok _ => (inboundFor db nodeId core binding).bind (listenPair core)
  | .error _ => none

theorem filterMap_emittedBy (core : CoreType) :
    (emittedBy gen db nodeId core).filterMap (listenPair core) =
      (activeBindings db nodeId).filterMap (pairFor gen db nodeId core) := by
  cases h : (generateNodeConfig gen nodeId core).exec db with
  | ok out =>
    rw [emittedBy, h]
    dsimp only
    rw [emitted_generateNodeConfig h, List.filterMap_filterMap]
    exact List.filterMap_congr fun b _ => by rw [pairFor, h]
  | error e =>
    have hnone : (activeBindings db nodeId).filterMap (pairFor gen db nodeId core) = [] :=
      List.filterMap_eq_nil_iff.mpr fun b _ => by rw [pairFor, h]
    rw [hnone, emittedBy, h]
    rfl

/-- **The pair of a binding is where it listens.** -/
theorem pairFor_eq_some {core : CoreType} {binding : NodeBinding}
    (hbinding : binding ∈ activeBindings db nodeId) {pair : String × String} :
    pairFor gen db nodeId core binding = some pair ↔ ∃ config place,
      db.protocolConfigs.find binding.protocolConfigId = some config ∧
        parseCoreType config.coreType = core ∧ ListensAt gen db nodeId binding place ∧
        pair = (place.1, toString place.2) := by
  cases hgen : (generateNodeConfig gen nodeId core).exec db with
  | error e =>
    rw [pairFor, hgen]
    refine iff_of_false (fun h => nomatch h) ?_
    rintro ⟨config, place, hconfig, hcore, ⟨config', tls, hconfig', hready, hschema, -⟩, -⟩
    rw [hconfig] at hconfig'
    cases hconfig'
    rw [hcore] at hready hschema
    obtain ⟨out, hout⟩ := generates_iff_ready.mpr ⟨hready, hschema⟩
    rw [hgen] at hout
    cases hout
  | ok out =>
    rw [pairFor, hgen]
    dsimp only
    constructor
    · intro h
      obtain ⟨inbound, hinbound, hpair⟩ := Option.bind_eq_some_iff.mp h
      obtain ⟨config, protocol, tls, hconfig, hcore, hprotocol, htls, hbuild⟩ :=
        inboundFor_eq_some hinbound
      rw [listenPair_inbound hcore hbuild] at hpair
      have hemitted := (exists_buildInbound_of_generated hgen hbinding hconfig hcore htls).mp
        (by rw [hinbound]; rfl)
      obtain ⟨hready, hschema⟩ := generates_iff_ready.mp ⟨out, hgen⟩
      rw [← hcore] at hready hschema hemitted
      exact ⟨config, listenPlace config binding, hconfig, hcore,
        ⟨config, tls, hconfig, hready, hschema, htls, hemitted, rfl⟩, (Option.some.inj hpair).symm⟩
    · rintro ⟨config, place, hconfig, hcore,
        ⟨config', tls, hconfig', -, -, htls, hemitted, rfl⟩, rfl⟩
      rw [hconfig] at hconfig'
      cases hconfig'
      rw [hcore] at hemitted
      obtain ⟨inbound, hinbound⟩ := Option.isSome_iff_exists.mp
        ((exists_buildInbound_of_generated hgen hbinding hconfig hcore htls).mpr hemitted)
      obtain ⟨config', protocol, tls', hconfig', -, hprotocol, htls', hbuild⟩ :=
        inboundFor_eq_some hinbound
      rw [hconfig] at hconfig'
      cases hconfig'
      rw [hinbound, Option.bind_some, listenPair_inbound hcore hbuild]

/-- The pairs of both cores, binding by binding. -/
theorem nodup_emittedPairs : (emittedPairs gen db nodeId).Nodup ↔
    ¬ EmittedClash gen db nodeId := by
  have hone : ∀ b ∈ activeBindings db nodeId, pairFor gen db nodeId .singBox b = none ∨
      pairFor gen db nodeId .mihomo b = none := by
    intro b hb
    rw [Option.eq_none_iff_forall_ne_some, Option.eq_none_iff_forall_ne_some]
    by_contra hboth
    push Not at hboth
    obtain ⟨⟨pair, hpair⟩, pair', hpair'⟩ := hboth
    obtain ⟨config, place, hconfig, hcore, -⟩ := (pairFor_eq_some hb).mp hpair
    obtain ⟨config', place', hconfig', hcore', -⟩ := (pairFor_eq_some hb).mp hpair'
    rw [hconfig] at hconfig'
    cases hconfig'
    rw [hcore] at hcore'
    cases hcore'
  -- the pairs of both cores are one partial function of the bindings
  have hpair : ∀ b ∈ activeBindings db nodeId, ∀ pair,
      (pairFor gen db nodeId .singBox b).or (pairFor gen db nodeId .mihomo b) = some pair ↔
        ∃ place, ListensAt gen db nodeId b place ∧ pair = (place.1, toString place.2) := by
    intro b hb pair
    constructor
    · intro h
      rcases Option.or_eq_some_iff.mp h with h | ⟨-, h⟩ <;>
      · obtain ⟨config, place, -, -, hlisten, heq⟩ := (pairFor_eq_some hb).mp h
        exact ⟨place, hlisten, heq⟩
    · rintro ⟨place, hlisten, heq⟩
      have hlisten' := hlisten
      obtain ⟨config, tls, hconfig, -⟩ := hlisten'
      have hcore := (pairFor_eq_some hb).mpr ⟨config, place, hconfig, rfl, hlisten, heq⟩
      cases hc : parseCoreType config.coreType with
      | singBox =>
        rw [hc] at hcore
        rw [hcore]
        rfl
      | mihomo =>
        rw [hc] at hcore
        have hnone := (hone b hb).resolve_right (by rw [hcore]; exact nofun)
        rw [hnone, hcore]
        rfl
  rw [emittedPairs, filterMap_emittedBy, filterMap_emittedBy,
    (Table.filterMap_append_perm hone).nodup_iff]
  refine Table.nodup_filterMap_filter.trans ⟨fun h => ?_, fun h => ?_⟩
  · rintro ⟨b, hb, b', hb', hne, place, hlisten, hlisten'⟩
    exact h b hb b' hb' hne _ ((hpair b hb _).mpr ⟨place, hlisten, rfl⟩)
      ((hpair b' hb' _).mpr ⟨place, hlisten', rfl⟩)
  · intro b hb b' hb' hne pair h₁ h₂
    obtain ⟨place, hlisten, rfl⟩ := (hpair b hb _).mp h₁
    obtain ⟨place', hlisten', heq⟩ := (hpair b' hb' _).mp h₂
    obtain ⟨haddress, hport⟩ := Prod.mk.inj heq
    have hsame : place = place' := Prod.ext haddress (Text.toString_injective hport)
    rw [← hsame] at hlisten'
    exact h ⟨b, hb, b', hb', hne, place, hlisten, hlisten'⟩

/-- The check, binding by binding. -/
theorem validate_ok_iff : (validateNodePortConflicts nodeId).exec db = .ok () ↔
    ¬ CheckedClash db nodeId := by
  rw [exec_validateNodePortConflicts, NoPortConflict, activeBindings, Table.nodup_filterMap_filter]
  constructor
  · rintro h ⟨b, hb, b', hb', hne, use, huse, huse'⟩
    exact h b hb b' hb' hne use huse huse'
  · intro h b hb b' hb' hne use huse huse'
    exact h ⟨b, hb, b', hb', hne, use, huse, huse'⟩

/-- **The port check is exact for a node if and only if its bindings clash in both
readings or in neither**: as the check reads them, and as their inbounds listen. -/
theorem port_check_exact_iff (gen : GenEnv) (db : Db) (nodeId : Uuid) :
    PortCheckExact gen db nodeId ↔ (CheckedClash db nodeId ↔ EmittedClash gen db nodeId) := by
  rw [PortCheckExact, validate_ok_iff, nodup_emittedPairs, not_iff_not]

/-- A binding that overrides neither address nor port, has a port of 16 bits and is emitted. -/
structure Plain (gen : GenEnv) (db : Db) (nodeId : Uuid) (binding : NodeBinding)
    (config : ProtocolConfig) : Prop where
  config_eq : db.protocolConfigs.find binding.protocolConfigId = some config
  noOverride : ∀ overrides, binding.overrideSettings = some overrides →
    overrides.getStr "listen_address" = none ∧ overrides.getU64 "listen_port" = none
  port : 0 ≤ config.listenPort ∧ config.listenPort < 65536
  listens : ∃ place, ListensAt gen db nodeId binding place
  settings : (mergedSettings config binding).isObject = true

theorem Plain.use {binding : NodeBinding} {config : ProtocolConfig}
    (h : Plain gen db nodeId binding config) : portUse db binding =
      some (config.listenAddress, config.listenPort.toNat, parseCoreType config.coreType) := by
  have hport : (config.listenPort % 65536).toNat = config.listenPort.toNat := by
    rw [Int.emod_eq_of_lt h.port.1 h.port.2]
  rw [portUse, h.config_eq, Option.map_some]
  cases hoverrides : binding.overrideSettings with
  | none => rw [listenOf, hoverrides, hport]
  | some overrides =>
    obtain ⟨haddress, hoverride⟩ := h.noOverride overrides hoverrides
    rw [listenOf, hoverrides]
    dsimp only
    rw [haddress, hoverride, hport]
    rfl

theorem Plain.listensAt_iff {binding : NodeBinding} {config : ProtocolConfig}
    (h : Plain gen db nodeId binding config) {place : String × Nat} :
    ListensAt gen db nodeId binding place ↔
      place = (config.listenAddress, config.listenPort.toNat) := by
  have hport : (num config.listenPort).asU64 = some config.listenPort.toNat := by
    rw [asU64, if_pos ⟨h.port.1, Int.lt_trans h.port.2 (by decide)⟩]
  have hplace : listenPlace config binding = (config.listenAddress, config.listenPort.toNat) := by
    rw [listenPlace, if_pos h.settings, hport, Option.getD_some]
  obtain ⟨_, config', tls, hconfig, hready, hschema, htls, hemitted, -⟩ := h.listens
  have hsame := h.config_eq.symm.trans hconfig
  cases hsame
  rw [← hplace]
  constructor
  · rintro ⟨config'', _, hconfig'', -, -, -, -, rfl⟩
    rw [hconfig] at hconfig''
    cases hconfig''
    rfl
  · rintro rfl
    exact ⟨config, tls, hconfig, hready, hschema, htls, hemitted, rfl⟩

/-- **Without overrides the check is exact for nodes whose ports are each used by one core.** -/
theorem portCheckExact_of_plain {config : NodeBinding → ProtocolConfig}
    (hplain : ∀ b ∈ activeBindings db nodeId, Plain gen db nodeId b (config b))
    (hcores : ∀ b ∈ activeBindings db nodeId, ∀ b' ∈ activeBindings db nodeId,
      (config b).listenAddress = (config b').listenAddress →
      (config b).listenPort = (config b').listenPort →
      parseCoreType (config b).coreType = parseCoreType (config b').coreType) :
    PortCheckExact gen db nodeId := by
  have hsound : ¬ CheckedClash db nodeId ↔ ¬ EmittedClash gen db nodeId := by
    rw [not_iff_not]
    constructor
    · rintro ⟨b, hb, b', hb', hne, use, huse, huse'⟩
      rw [(hplain b hb).use] at huse
      rw [(hplain b' hb').use, ← huse] at huse'
      simp only [Option.some.injEq, Prod.mk.injEq] at huse'
      refine ⟨b, hb, b', hb', hne, _, (hplain b hb).listensAt_iff.mpr rfl,
        (hplain b' hb').listensAt_iff.mpr ?_⟩
      rw [huse'.1, huse'.2.1]
    · rintro ⟨b, hb, b', hb', hne, place, hlisten, hlisten'⟩
      rw [(hplain b hb).listensAt_iff] at hlisten
      rw [(hplain b' hb').listensAt_iff, hlisten, Prod.mk.injEq] at hlisten'
      obtain ⟨haddress, hport⟩ := hlisten'
      have hports : (config b).listenPort = (config b').listenPort := by
        rw [← Int.toNat_of_nonneg (hplain b hb).port.1, hport,
          Int.toNat_of_nonneg (hplain b' hb').port.1]
      refine ⟨b, hb, b', hb', hne, _, (hplain b hb).use, ?_⟩
      rw [(hplain b' hb').use, haddress, hport, hcores b hb b' hb' haddress hports]
  rw [PortCheckExact, validate_ok_iff, nodup_emittedPairs, hsound]

end

/-! ### One port for both cores -/

namespace SharedPort

def mihomoConfig : ProtocolConfig := { PresetUser.config with id := .ofNat 4 }

def singboxConfig : ProtocolConfig := { PresetUser.config with coreType := "sing-box" }

/-- A node with a sing-box and a mihomo inbound on port 443. -/
def db : Db where
  protocolConfigs := ⟨[singboxConfig, mihomoConfig], by decide⟩
  nodeBindings := ⟨[PresetUser.binding, ⟨.ofNat 5, PresetUser.node, mihomoConfig.id, none, true⟩],
    by decide⟩

theorem accepted : (validateNodePortConflicts PresetUser.node).exec db = .ok () := by
  rw [exec_validateNodePortConflicts]
  decide +kernel

theorem pairs : emittedPairs PresetUser.gen db PresetUser.node =
    [("0.0.0.0", "443"), ("0.0.0.0", "443")] := by
  decide +kernel

end SharedPort

/-- The check accepts a node on which two cores listen on one port. -/
theorem shared_port_accepted :
    (validateNodePortConflicts PresetUser.node).exec SharedPort.db = .ok () ∧
      ¬ PortCheckExact PresetUser.gen SharedPort.db PresetUser.node := by
  refine ⟨SharedPort.accepted, fun h => ?_⟩
  have hnodup := h.mp SharedPort.accepted
  rw [SharedPort.pairs] at hnodup
  exact absurd hnodup (by decide)

end ProxyPanel.Hub
