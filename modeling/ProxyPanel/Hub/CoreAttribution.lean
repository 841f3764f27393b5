import Mathlib.Data.List.Dedup
import ProxyPanel.Hub.Edits
import ProxyPanel.Hub.Scheduler
import ProxyPanel.Lib.Run

/-!
# The core a binding belongs to

The core type of a config is stored as text.  The generator and the scheduler read it with
`parseCoreType`, which knows an alias and has a default; pushes of new core versions, TLS
overrides and relay rules compare it with the names of the cores.  `agree_iff` says for
which texts all of them agree, and `agree_throughout_iff` which updates keep the configs to
such texts: those that do not store the alias `singbox`, which `validateProtocol` accepts.
The tables are those of SQLite: on PostgreSQL the constraint `chk_protocol_configs_core` refuses
the alias.
-/

namespace ProxyPanel.Hub.CoreAttribution

open Json Query Handler Run

/-! ### Attribution -/

/-- The core the generator takes a binding for. -/
def coreOf (db : Db) (binding : NodeBinding) : Option CoreType :=
  (db.protocolConfigs.find binding.protocolConfigId).map fun config =>
    parseCoreType config.coreType

/-- An override with a domain and no managed certificate. -/
def AsksForAcme (overrideSettings : Json) : Prop :=
  ∃ tls, overrideSettings.get "tls_settings" = some tls ∧ tls.getStr "cert_id" = none ∧
    (tls.getStr "domain").any (· ≠ "") = true

/-- **All places agree** about the active bindings: each is taken for the core whose config
gets its inbound. -/
structure Agree (db : Db) : Prop where
  /-- An inbound is emitted for this core only. -/
  generator : ∀ nodeId core binding inbound,
    inboundFor db nodeId core binding = some inbound → coreOf db binding = some core
  scheduler : ∀ nodeId core, (∀ b ∈ activeBindings db nodeId, (coreOf db b).isSome) →
    ((checkBindingsForCore core (activeBindings db nodeId)).exec db = .ok true ↔
      ∃ b ∈ activeBindings db nodeId, coreOf db b = some core)
  push : ∀ nodeId core, nodeId ∈ nodesWithBindings db core ↔
    ∃ b ∈ activeBindings db nodeId, coreOf db b = some core
  /-- An update marks the nodes of the config for the core the config is generated for then. -/
  marker : ∀ env id payload db', updateConfig env id payload db = .ok () db' → ∃ core db₁,
    db' = markPending env core "config" (nodesUsingConfig db id) db₁ ∧
      ∀ b : NodeBinding, b.protocolConfigId = id → coreOf db' b = some core
  /-- ACME is for the bindings of sing-box. -/
  override : ∀ b core, coreOf db b = some core → ∀ nodeId overrideSettings,
    AsksForAcme overrideSettings →
      (validateTlsOverride db nodeId b.protocolConfigId (some overrideSettings) = .ok () ↔
        core = .singBox)
  /-- A relay rule never finds the core of its exit unsupported. -/
  relay : ∀ b ∈ db.nodeBindings.rows, (coreOf db b).isSome → ∀ nodeId matchType matchConfig message,
    validateRelayPayload db nodeId b.id matchType matchConfig ≠
      .error (.badRequest "unsupported_core" message)

/-- The stored text is the name of a core. -/
def Canonical (db : Db) : Prop :=
  ∀ config ∈ db.protocolConfigs.rows, ∃ core : CoreType, config.coreType = core.toStr

theorem coreOf_eq_some {db : Db} {binding : NodeBinding} {core : CoreType} :
    coreOf db binding = some core ↔ ∃ config,
      db.protocolConfigs.find binding.protocolConfigId = some config ∧
        parseCoreType config.coreType = core := Option.map_eq_some_iff

/-- An inbound is emitted for the core of the binding. -/
theorem coreOf_of_inboundFor {db : Db} {nodeId : Uuid} {core : CoreType} {binding : NodeBinding}
    {inbound : Json} (h : inboundFor db nodeId core binding = some inbound) :
    coreOf db binding = some core := by
  obtain ⟨config, protocol, tls, hconfig, hcore, -⟩ := inboundFor_eq_some h
  exact coreOf_eq_some.mpr ⟨config, hconfig, hcore⟩

/-- The scheduler's check where every binding has a config. -/
theorem exec_checkBindingsForCore_iff {db : Db} {core : CoreType} {bindings : List NodeBinding}
    (hconfigs : ∀ b ∈ bindings, (coreOf db b).isSome) :
    (checkBindingsForCore core bindings).exec db = .ok true ↔
      ∃ b ∈ bindings, coreOf db b = some core := by
  induction bindings with
  | nil =>
    refine iff_of_false (fun h => ?_) (fun ⟨b, hb, _⟩ => List.not_mem_nil hb)
    exact Bool.false_ne_true (Except.ok.inj h)
  | cons b bindings ih =>
    obtain ⟨hb, htail⟩ := List.forall_mem_cons.mp hconfigs
    obtain ⟨own, hown⟩ := Option.isSome_iff_exists.mp hb
    obtain ⟨config, hconfig, hparse⟩ := coreOf_eq_some.mp hown
    rw [checkBindingsForCore, exec_read_bind, hconfig, List.exists_mem_cons_iff, hown]
    change (if parseCoreType config.coreType = core then _ else _ : Program Bool).exec db = _ ↔ _
    rw [hparse]
    by_cases hcore : own = core
    · rw [if_pos hcore, hcore]
      exact iff_of_true rfl (Or.inl rfl)
    · rw [if_neg hcore, ih htail]
      exact (or_iff_right fun h => hcore (Option.some.inj h)).symm

/-- An active binding of a node to a config with this text. -/
theorem mem_nodesWithBindings {db : Db} {nodeId : Uuid} {core : CoreType} :
    nodeId ∈ nodesWithBindings db core ↔ ∃ b ∈ activeBindings db nodeId, ∃ config,
      db.protocolConfigs.find b.protocolConfigId = some config ∧ config.coreType = core.toStr := by
  simp only [nodesWithBindings, activeBindings, List.mem_dedup, List.mem_map, Table.mem_filter,
    Option.any_eq_true, decide_eq_true_eq]
  constructor
  · rintro ⟨b, ⟨hb, hactive, config, hconfig, hcore⟩, rfl⟩
    exact ⟨b, ⟨hb, rfl, hactive⟩, config, hconfig, hcore⟩
  · rintro ⟨b, ⟨hb, hnode, hactive⟩, config, hconfig, hcore⟩
    exact ⟨b, ⟨hb, hactive, config, hconfig, hcore⟩, hnode⟩

/-- The ACME check reads the text of the config. -/
theorem validateTlsOverride_of_asksForAcme {db : Db} {nodeId protocolConfigId : Uuid}
    {overrideSettings : Json} {config : ProtocolConfig} (h : AsksForAcme overrideSettings)
    (hconfig : db.protocolConfigs.find protocolConfigId = some config) :
    validateTlsOverride db nodeId protocolConfigId (some overrideSettings) = .ok () ↔
      config.coreType = "sing-box" := by
  obtain ⟨tls, htls, hcert, hdomain⟩ := h
  rw [validateTlsOverride, Option.bind_some, htls]
  simp only [hcert, hdomain, hconfig, Option.map_some, Option.getD_some, true_and]
  by_cases hcore : config.coreType = "sing-box"
  · simp [hcore]
    rfl
  · simp [hcore]

theorem badRequest_ne {code code' message message' : String} (h : code ≠ code') :
    (.error (.badRequest code message) : ApiResult Unit) ≠ .error (.badRequest code' message') := by
  intro heq
  injection heq with heq
  injection heq with _ hcode _
  exact h hcode

theorem validateMatch_ne_unsupported (matchType : String) (matchConfig : Json) (message : String) :
    validateMatch matchType matchConfig ≠ .error (.badRequest "unsupported_core" message) := by
  rw [validateMatch]
  split
  · simp only
    split
    · exact badRequest_ne (by decide)
    · exact nofun
  · split
    · split
      · split
        · exact badRequest_ne (by decide)
        · exact nofun
      · split
        · simp only
          split
          · exact badRequest_ne (by decide)
          · exact nofun
        · exact badRequest_ne (by decide)
    · exact badRequest_ne (by decide)

/-- Only the text of the exit's config makes its core unsupported. -/
theorem validateRelayPayload_ne_unsupported {db : Db} {nodeId exitBindingId : Uuid}
    {matchType : String} {matchConfig : Json} {message : String}
    (h : ∀ b config, db.nodeBindings.find exitBindingId = some b →
      db.protocolConfigs.find b.protocolConfigId = some config →
      config.coreType ∈ ["sing-box", "mihomo"]) :
    validateRelayPayload db nodeId exitBindingId matchType matchConfig ≠
      .error (.badRequest "unsupported_core" message) := by
  rw [validateRelayPayload]
  split
  · exact fun h => by cases h
  · split
    · exact fun h => by cases h
    · rename_i b hb
      split
      · exact badRequest_ne (by decide)
      · split
        · exact badRequest_ne (by decide)
        · rename_i config hconfig
          rw [if_neg (not_not_intro (h b config hb hconfig))]
          split
          · exact badRequest_ne (by decide)
          · exact validateMatch_ne_unsupported matchType matchConfig message

/-! ### Which texts they agree on -/

theorem toStr_eq_iff_of_canonical {db : Db} (hcanonical : Canonical db) {id : Uuid}
    {config : ProtocolConfig} (hconfig : db.protocolConfigs.find id = some config)
    (core : CoreType) : config.coreType = core.toStr ↔ parseCoreType config.coreType = core := by
  obtain ⟨own, hown⟩ := hcanonical config (Table.mem_of_find hconfig)
  rw [hown, parseCoreType_toStr, CoreType.toStr_inj]

/-- The marks of an update are for the core the config is generated for afterwards. -/
theorem marks_of_updateConfig {env : EditEnv} {id : Uuid} {payload : UpdateConfigPayload}
    {db db' : Db} (h : updateConfig env id payload db = .ok () db') : ∃ core db₁,
      db' = markPending env core "config" (nodesUsingConfig db id) db₁ ∧
        ∀ b : NodeBinding, b.protocolConfigId = id → coreOf db' b = some core := by
  obtain ⟨config, hconfig, rfl⟩ := updateConfig_ok h
  refine ⟨_, _, rfl, fun b hb => ?_⟩
  obtain ⟨rows, hrows⟩ := sameContents_markPending env
    (parseCoreType (payload.apply env.now config).coreType) "config" (nodesUsingConfig db id)
    { db with protocolConfigs := db.protocolConfigs.update id (payload.apply env.now) }
  rw [hrows]
  refine coreOf_eq_some.mpr ⟨payload.apply env.now config, ?_, rfl⟩
  change (db.protocolConfigs.update id (payload.apply env.now)).find b.protocolConfigId = _
  rw [hb, Table.find_update_self (f := payload.apply env.now) fun _ => rfl, hconfig]
  rfl

theorem agree_of_canonical {db : Db} (hcanonical : Canonical db) : Agree db where
  generator _ _ _ _ h := coreOf_of_inboundFor h
  scheduler _ _ h := exec_checkBindingsForCore_iff h
  push _ core := by
    rw [mem_nodesWithBindings]
    refine exists_congr fun b => and_congr_right fun _ => ?_
    rw [coreOf_eq_some]
    exact exists_congr fun config => and_congr_right fun hconfig =>
      toStr_eq_iff_of_canonical hcanonical hconfig core
  marker _ _ _ _ h := marks_of_updateConfig h
  override _ _ hcore _ _ hasks := by
    obtain ⟨config, hconfig, rfl⟩ := coreOf_eq_some.mp hcore
    rw [validateTlsOverride_of_asksForAcme hasks hconfig]
    exact toStr_eq_iff_of_canonical hcanonical hconfig .singBox
  relay _ _ _ _ _ _ _ := by
    refine validateRelayPayload_ne_unsupported fun _ config _ hconfig => ?_
    obtain ⟨core, hcore⟩ := hcanonical config (Table.mem_of_find hconfig)
    rw [hcore]
    cases core <;> decide

/-- An active binding to a config. -/
def bindingTo (configId : Uuid) : NodeBinding := ⟨configId, configId, configId, none, true⟩

/-- **The places agree about every set of active bindings exactly when every config is stored
under the name of its core.** -/
theorem agree_iff {db : Db} :
    (∀ nodeBindings, Agree { db with nodeBindings }) ↔ Canonical db := by
  constructor
  · intro h config hconfig
    -- one active binding to the config: the push of its core must find it
    have hagree := h (.single (bindingTo config.id))
    have hfind : db.protocolConfigs.find config.id = some config :=
      Table.find_eq_some_iff.mpr ⟨hconfig, rfl⟩
    have hpush := (hagree.push config.id (parseCoreType config.coreType)).mpr
      ⟨bindingTo config.id, by simp [activeBindings, bindingTo, Table.filter],
        coreOf_eq_some.mpr ⟨config, hfind, rfl⟩⟩
    obtain ⟨b, hb, stored, hstored, hcore⟩ := mem_nodesWithBindings.mp hpush
    have hb' : b = bindingTo config.id := by
      simpa [activeBindings, bindingTo, Table.filter] using hb
    subst hb'
    cases hstored.symm.trans hfind
    exact ⟨_, hcore⟩
  · intro hcanonical nodeBindings
    exact agree_of_canonical hcanonical

/-! ### Which updates keep them -/

inductive Request where
  | createConfig (env : EditEnv) (id : Uuid) (payload : CreateConfigPayload)
  | updateConfig (env : EditEnv) (id : Uuid) (payload : UpdateConfigPayload)
  | deleteConfig (env : EditEnv) (id : Uuid)

def handler : Request → Handler Unit
  | .createConfig env id payload => createConfig env id payload
  | .updateConfig env id payload => updateConfig env id payload
  | .deleteConfig env id => deleteConfig env id

def step (db : Db) (request : Request) : Option Db := some (rowsAfter (handler request) db)

/-- An update that goes through does not store the alias of a core. -/
def NoAlias (db : Db) : Request → Prop
  | .updateConfig _ id payload => ∀ config, db.protocolConfigs.find id = some config →
      payload.validate config = .ok () → payload.coreType ≠ some "singbox"
  | _ => True

/-- What validation accepts is the name of a core or the alias. -/
theorem toStr_or_alias_of_validateProtocol {protocolType coreType : String}
    {types : ProtocolType × CoreType} (h : validateProtocol protocolType coreType = .ok types) :
    coreType = types.2.toStr ∨ coreType = "singbox" := by
  rw [validateProtocol] at h
  split at h
  · cases h
  · split at h
    · cases h
    · rename_i core hcore
      split at h
      · cases h
        rw [CoreType.fromStr?] at hcore
        split at hcore
        · rename_i hsing
          cases hcore
          exact hsing
        · split at hcore
          · cases hcore
            exact Or.inl ‹_›
          · cases hcore
      · cases h

theorem canonical_createConfig {env : EditEnv} {id : Uuid} {payload : CreateConfigPayload}
    {db db' : Db} (hcanonical : Canonical db)
    (h : Hub.createConfig env id payload db = .ok () db') : Canonical db' := by
  obtain ⟨protocol, core, protocolConfigs, hinsert, rfl⟩ := createConfig_ok h
  intro config hconfig
  change config ∈ protocolConfigs.rows at hconfig
  rw [Table.rows_of_insert hinsert, List.mem_append, List.mem_singleton] at hconfig
  rcases hconfig with hconfig | rfl
  · exact hcanonical config hconfig
  · exact ⟨core, rfl⟩

theorem canonical_deleteConfig {env : EditEnv} {id : Uuid} {db : Db} (hcanonical : Canonical db) :
    Canonical (rowsAfter (Hub.deleteConfig env id) db) := by
  rw [rowsAfter]
  split
  · rename_i db' hok
    rw [deleteConfig_ok hok]
    obtain ⟨rows, hrows⟩ := sameContents_markBoth env
      ((bindingsOfConfig db id).map (·.nodeId)).dedup { db with
        nodeBindingGroupBindings := db.nodeBindingGroupBindings.deleteWhere
          (·.nodeBindingId ∈ (bindingsOfConfig db id).map (·.id))
        nodeBindings := db.nodeBindings.deleteWhere (·.id ∈ (bindingsOfConfig db id).map (·.id))
        protocolConfigs := db.protocolConfigs.deleteWhere (·.id = id) }
    rw [hrows]
    exact fun config hconfig => hcanonical config (Table.mem_deleteWhere.mp hconfig).1
  · rename_i e db' herror
    simp only [Hub.deleteConfig, bind_eq_error, get_eq_error, get_eq_ok, orThrow_eq_error,
      modify_eq_error, modify_eq_ok, false_or, and_false, exists_false, or_false] at herror
    obtain ⟨_, _, ⟨rfl, rfl⟩, _, _, rfl, _, _, ⟨rfl, rfl⟩, -, -, rfl⟩ := herror
    exact hcanonical

theorem validate_of_updateConfig {env : EditEnv} {id : Uuid} {payload : UpdateConfigPayload}
    {db db' : Db} (h : Hub.updateConfig env id payload db = .ok () db') :
    ∃ config, db.protocolConfigs.find id = some config ∧ payload.validate config = .ok () := by
  simp only [Hub.updateConfig, bind_eq_ok, get_eq_ok, orThrow_eq_ok, lift_eq_ok] at h
  obtain ⟨_, _, ⟨rfl, rfl⟩, config, _, ⟨hconfig, rfl⟩, _, _, ⟨hvalid, -⟩, -⟩ := h
  exact ⟨config, hconfig, hvalid⟩

/-- A config that exists and a payload that is valid is all an update needs. -/
theorem updateConfig_ne_error {env : EditEnv} {id : Uuid} {payload : UpdateConfigPayload}
    {db db' : Db} {config : ProtocolConfig} {e : ApiError}
    (hconfig : db.protocolConfigs.find id = some config) (hvalid : payload.validate config = .ok ()) :
    Hub.updateConfig env id payload db ≠ .error e db' := by
  intro herror
  simp only [Hub.updateConfig, bind_eq_error, get_eq_error, get_eq_ok, orThrow_eq_error,
    orThrow_eq_ok, lift_eq_error, modify_eq_error, false_or, and_false, exists_false,
    or_false] at herror
  obtain ⟨_, _, ⟨rfl, rfl⟩, ⟨hnone, -⟩ | ⟨config', _, ⟨hconfig', rfl⟩, hinvalid, -⟩⟩ := herror
  · rw [hconfig] at hnone
    cases hnone
  · cases hconfig.symm.trans hconfig'
    rw [hvalid] at hinvalid
    cases hinvalid

theorem protocolConfigs_updateConfig {env : EditEnv} {id : Uuid} {payload : UpdateConfigPayload}
    {db db' : Db} (h : Hub.updateConfig env id payload db = .ok () db') :
    db'.protocolConfigs = db.protocolConfigs.update id (payload.apply env.now) := by
  obtain ⟨config, -, rfl⟩ := updateConfig_ok h
  obtain ⟨rows, hrows⟩ := sameContents_markPending env
    (parseCoreType (payload.apply env.now config).coreType) "config" (nodesUsingConfig db id)
    { db with protocolConfigs := db.protocolConfigs.update id (payload.apply env.now) }
  rw [hrows]
  rfl

/-- A text that validation accepts and that is not the alias is the name of a core. -/
theorem toStr_of_validate {payload : UpdateConfigPayload} {config : ProtocolConfig}
    {stored : String} (hcore : payload.coreType = some stored)
    (h : payload.validate config = .ok ()) :
    (∃ core : CoreType, stored = core.toStr) ∨ stored = "singbox" := by
  rw [UpdateConfigPayload.validate, if_pos (Or.inr (by rw [hcore]; rfl)), hcore] at h
  cases htypes : validateProtocol (payload.protocolType.getD config.protocolType) stored with
  | ok types => exact (toStr_or_alias_of_validateProtocol htypes).imp_left fun h => ⟨_, h⟩
  | error e =>
    rw [Option.getD_some, htypes] at h
    cases h

/-- **An update keeps the configs stored under the names of cores exactly when it stores no
alias.** -/
theorem canonical_updateConfig_iff {env : EditEnv} {id : Uuid} {payload : UpdateConfigPayload}
    {db db' : Db} (hcanonical : Canonical db)
    (h : Hub.updateConfig env id payload db = .ok () db') :
    Canonical db' ↔ NoAlias db (.updateConfig env id payload) := by
  obtain ⟨config, hconfig, hvalid⟩ := validate_of_updateConfig h
  rw [Canonical, protocolConfigs_updateConfig h]
  constructor
  · intro hrows config' _ _ halias
    obtain ⟨core, hcore⟩ := hrows (payload.apply env.now config)
      (List.mem_map.mpr ⟨config, Table.mem_of_find hconfig,
        if_pos ⟨Table.key_of_find hconfig, rfl⟩⟩)
    have hstored : (payload.apply env.now config).coreType = "singbox" := by
      simp [UpdateConfigPayload.apply, halias]
    rw [hstored] at hcore
    cases core <;> exact absurd hcore (by decide)
  · intro hnone
    refine Table.forall_mem_update hcanonical fun row hrow hkey hold => ?_
    cases hcore : payload.coreType with
    | none =>
      have hsame : (payload.apply env.now row).coreType = row.coreType := by
        simp [UpdateConfigPayload.apply, hcore]
      rwa [hsame]
    | some stored =>
      have hset : (payload.apply env.now row).coreType = stored := by
        simp [UpdateConfigPayload.apply, hcore]
      rw [hset]
      refine (toStr_of_validate hcore hvalid).resolve_right fun halias => ?_
      exact hnone config hconfig hvalid (by rw [hcore, halias])

theorem canonical_step_iff {db db' : Db} {request : Request} (hcanonical : Canonical db)
    (h : step db request = some db') : Canonical db' ↔ NoAlias db request := by
  cases h
  cases request with
  | createConfig env id payload =>
    refine iff_of_true ?_ trivial
    rw [handler, rowsAfter]
    split
    · rename_i db' hok
      exact canonical_createConfig hcanonical hok
    · rename_i e db' herror
      rwa [createConfig_error herror]
  | updateConfig env id payload =>
    rw [handler, rowsAfter]
    split
    · rename_i db' hok
      exact canonical_updateConfig_iff hcanonical hok
    · rename_i e db' herror
      rw [updateConfig_error herror]
      refine iff_of_true hcanonical fun config hconfig hvalid => ?_
      exact absurd herror (updateConfig_ne_error hconfig hvalid)
  | deleteConfig env id => exact iff_of_true (canonical_deleteConfig hcanonical) trivial

/-- **Agreement throughout a run**, from tables without configs: after every request and for
every set of active bindings, exactly when no update stores the alias. -/
theorem agree_throughout_iff {db : Db} {requests : List Request}
    (hstart : db.protocolConfigs.rows = []) :
    (∀ reached db', reached <+: requests → run step db reached = some db' →
        ∀ nodeBindings, Agree { db' with nodeBindings }) ↔ Guarded step NoAlias db requests := by
  have hcanonical : Canonical db := by
    intro config hconfig
    rw [hstart] at hconfig
    cases hconfig
  have hrun : (run step db requests).isSome := by
    clear hstart hcanonical
    induction requests generalizing db with
    | nil => rfl
    | cons request requests ih => exact ih
  simp only [agree_iff]
  exact forall_prefix_iff_guarded (fun _ _ _ hI h => canonical_step_iff hI h) hcanonical hrun

/-! ### An alias that is stored -/

namespace AliasStored

def env : EditEnv := ⟨default, fun _ _ => .ofNat 70⟩
def config : Uuid := .ofNat 71
def binding : NodeBinding := ⟨.ofNat 72, .ofNat 73, config, none, true⟩
def bindings : Table NodeBinding := .single binding
def gen : GenEnv := ⟨{}, fun _ => .ok ()⟩

/-- A REALITY config for sing-box. -/
def created : Request := .createConfig env config ⟨"reality", "vless_reality", "singbox", none,
  none, some (mkObj [("reality_dest", str "example.com:443"), ("reality_private_key", str "key")]),
  none⟩

/-- An update with a core type and nothing else. -/
def updated (coreType : String) : Request :=
  .updateConfig env config ⟨none, none, some coreType, none, none, none, none⟩

/-- The tables after a creation and an update, with one active binding. -/
def after (coreType : String) : Db :=
  { (run step default [created, updated coreType]).getD default with nodeBindings := bindings }

theorem run_created (coreType : String) : ∃ db,
    run step default [created, updated coreType] = some db ∧
      after coreType = { db with nodeBindings := bindings } := ⟨_, rfl, rfl⟩

end AliasStored

open AliasStored in
/-- On SQLite the alias is stored: the generator emits the inbound of the binding for sing-box,
and the push of sing-box does not find its node. -/
theorem stored_alias_is_missed : ∃ db out inbound,
    run step default [created, updated "singbox"] = some db ∧
      (generateNodeConfig gen binding.nodeId .singBox).exec { db with nodeBindings := bindings } =
        .ok out ∧
      inboundFor { db with nodeBindings := bindings } binding.nodeId .singBox binding =
        some inbound ∧
      inbound ∈ emitted .singBox out.1 ∧ ¬ Agree { db with nodeBindings := bindings } := by
  obtain ⟨db, hdb, hafter⟩ := run_created "singbox"
  have hgenerated : ((generateNodeConfig gen binding.nodeId .singBox).exec
      (after "singbox")).toBool = true := by decide
  have hinbound : (inboundFor (after "singbox") binding.nodeId .singBox binding).isSome = true := by
    decide
  have hactive : binding ∈ activeBindings (after "singbox") binding.nodeId := by
    simp [activeBindings, after, bindings, Table.filter, binding]
  have hmissed : binding.nodeId ∉ nodesWithBindings (after "singbox") .singBox := by
    decide
  obtain ⟨inbound, hinbound⟩ := Option.isSome_iff_exists.mp hinbound
  cases hout : (generateNodeConfig gen binding.nodeId .singBox).exec (after "singbox") with
  | error e => rw [hout] at hgenerated; cases hgenerated
  | ok out =>
    rw [hafter] at hout hinbound hactive hmissed
    refine ⟨db, out, inbound, hdb, hout, hinbound, ?_, fun hagree => hmissed ?_⟩
    · rw [emitted_generateNodeConfig hout, List.mem_filterMap]
      exact ⟨binding, hactive, hinbound⟩
    · exact (hagree.push _ _).mpr ⟨binding, hactive, hagree.generator _ _ _ _ hinbound⟩

open AliasStored in
theorem agree_throughout_iff_named :
    (∀ reached db', reached <+: [created, updated "sing-box"] → run step default reached = some db' →
        ∀ nodeBindings, Agree { db' with nodeBindings }) ↔
      Guarded step NoAlias default [created, updated "sing-box"] :=
  agree_throughout_iff rfl

end ProxyPanel.Hub.CoreAttribution
