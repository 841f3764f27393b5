import Mathlib.Data.List.Find
import ProxyPanel.Hub.Access
import ProxyPanel.Hub.Edits

/-!
# Which edits mark what they change

`produced` is what a node is to run for a core: configuration, version and build.  An edit is
complete when every node and core for which it changes that has a marker afterwards.

`SameReads` says that two databases agree on the rows a generation reads, and
`SameReads.produced_eq` that it then produces the same.  `Touches` says for each edit which
nodes and cores read what it writes; `edited_of_run` is the step lemma.  The handlers mark
other nodes than those: `complete_of_covered` needs `Covered`, and `edits_not_complete` has
three edits that are not.
-/

namespace ProxyPanel.Hub

open Json Query

/-! ### What a generation reads -/

/-- Configuration, version and build of a node and core, `none` where the generation fails. -/
def produced (gen : GenEnv) (db : Db) (nodeId : Uuid) (core : CoreType) :
    Option (Json × Option String × String) :=
  match (generateNodeConfig gen nodeId core).exec db with
  | .ok out => ((coreBuildIdOf core out.2).exec db).toOption.map fun buildId =>
      (out.1, out.2, buildId)
  | .error _ => none

/-- Whether a binding counts for a core.  One without a config makes every generation fail. -/
def forCore (db : Db) (core : CoreType) (b : NodeBinding) : Bool :=
  (db.protocolConfigs.find b.protocolConfigId).all fun config =>
    parseCoreType config.coreType = core

/-- The active bindings of a node that count for a core. -/
def coreBindings (db : Db) (nodeId : Uuid) (core : CoreType) : List NodeBinding :=
  db.nodeBindings.filter fun b => decide (b.nodeId = nodeId ∧ b.isActive = true) && forCore db core b

def enabledRules (db : Db) (nodeId : Uuid) : List RelayRule :=
  db.relayRules.filter fun r => r.nodeId = nodeId ∧ r.enabled

/-- The columns of an exit binding that a relay rule reads. -/
def exitOf (b : NodeBinding) : Uuid × Uuid × Option Json :=
  (b.nodeId, b.protocolConfigId, b.overrideSettings)

/-- The columns of an exit's config that a relay rule reads. -/
def hopOf (config : ProtocolConfig) : String × Json × Int :=
  (config.protocolType, config.settings, config.listenPort)

/-- The publish time that is recorded for a version. -/
def publishedAt (db : Db) (core : CoreType) (version : String) : Option DateTime :=
  (db.coreVersions.one fun v => v.coreType = core.toStr ∧ v.version = version).bind (·.publishedAt)

/-- The databases agree on what the generation for a node and core reads. -/
structure SameReads (db db' : Db) (nodeId : Uuid) (core : CoreType) : Prop where
  nodes : db'.nodes = db.nodes
  certificates : db'.certificates = db.certificates
  version : pinnedVersion db' core = pinnedVersion db core
  published : ∀ version, publishedAt db' core version = publishedAt db core version
  bindings : coreBindings db' nodeId core = coreBindings db nodeId core
  configs : ∀ b ∈ coreBindings db nodeId core,
    db'.protocolConfigs.find b.protocolConfigId = db.protocolConfigs.find b.protocolConfigId
  members : ∀ b ∈ coreBindings db nodeId core, groupMembers db' b.id = groupMembers db b.id
  clients : ∀ b ∈ coreBindings db nodeId core,
    authorizedClients db' b.id = authorizedClients db b.id
  rules : enabledRules db' nodeId = enabledRules db nodeId
  exits : ∀ rule ∈ enabledRules db nodeId,
    (db'.nodeBindings.find rule.exitBindingId).map exitOf =
      (db.nodeBindings.find rule.exitBindingId).map exitOf
  exitConfigs : ∀ rule ∈ enabledRules db nodeId, ∀ b,
    db.nodeBindings.find rule.exitBindingId = some b →
    (db'.protocolConfigs.find b.protocolConfigId).map hopOf =
      (db.protocolConfigs.find b.protocolConfigId).map hopOf

section Frame

variable {gen : GenEnv} {db db' : Db} {nodeId : Uuid} {core : CoreType}

theorem coreBindings_eq (db : Db) (nodeId : Uuid) (core : CoreType) :
    coreBindings db nodeId core = (activeBindings db nodeId).filter (forCore db core) := by
  rw [coreBindings, activeBindings, Table.filter, Table.filter, List.filter_filter]
  exact List.filter_congr fun b _ => Bool.and_comm _ _

/-- A binding for the other core is skipped. -/
theorem exec_bindingInbound_of_not_forCore {b : NodeBinding} (h : forCore db core b = false)
    (version : Option String) : (bindingInbound nodeId core version b).exec db = .ok none := by
  rw [forCore] at h
  rw [bindingInbound, exec_read_bind]
  cases hconfig : db.protocolConfigs.find b.protocolConfigId with
  | none =>
    rw [hconfig] at h
    cases h
  | some config =>
    rw [hconfig, Option.all_some, decide_eq_false_iff_not] at h
    simp only [ne_eq, h, not_false_eq_true, if_true]
    rfl

theorem exec_resolveManagedCertTls_congr (h : db'.certificates = db.certificates)
    (tls : Option Json) : (resolveManagedCertTls nodeId tls).exec db' =
      (resolveManagedCertTls nodeId tls).exec db := by
  rw [resolveManagedCertTls.eq_def]
  split
  · rfl
  split
  · rfl
  split
  · rfl
  rw [exec_read_bind, exec_read_bind, h]
  split
  · rfl
  split
  · rfl
  · rfl

theorem injected_congr {b : NodeBinding} (hmembers : groupMembers db' b.id = groupMembers db b.id)
    (hclients : authorizedClients db' b.id = authorizedClients db b.id) (protocolType : String)
    (settings : Json) : injected db' b protocolType settings = injected db b protocolType settings := by
  rw [injected, injected, hmembers, hclients]

theorem SameReads.exec_bindingInbound (h : SameReads db db' nodeId core) {b : NodeBinding}
    (hb : b ∈ coreBindings db nodeId core) (version : Option String) :
    (bindingInbound nodeId core version b).exec db' =
      (bindingInbound nodeId core version b).exec db := by
  rw [bindingInbound, exec_read_bind, exec_read_bind, h.configs b hb]
  cases db.protocolConfigs.find b.protocolConfigId with
  | none => rfl
  | some config =>
    dsimp only
    split
    · rfl
    · simp only [exec_bind, exec_lift, exec_injectBindingClients,
        injected_congr (h.members b hb) (h.clients b hb),
        exec_resolveManagedCertTls_congr h.certificates]
      rfl

theorem exec_resolveRelaySni_congr (h : db'.certificates = db.certificates) {b b' : NodeBinding}
    (hoverride : b'.overrideSettings = b.overrideSettings) :
    (resolveRelaySni b').exec db' = (resolveRelaySni b).exec db := by
  rw [resolveRelaySni, resolveRelaySni, hoverride]
  split
  · rfl
  dsimp only
  split
  · rfl
  rw [exec_read_bind, exec_read_bind, h]
  split <;> rfl

theorem SameReads.exec_applyRelayRule (h : SameReads db db' nodeId core) {rule : RelayRule}
    (hrule : rule ∈ enabledRules db nodeId) (config : Json) :
    (applyRelayRule core config rule).exec db' = (applyRelayRule core config rule).exec db := by
  have hexit := h.exits rule hrule
  have hconfigs := h.exitConfigs rule hrule
  simp only [applyRelayRule, exec_read_bind]
  cases hb : db.nodeBindings.find rule.exitBindingId with
  | none =>
    rw [hb, Option.map_none, Option.map_eq_none_iff] at hexit
    rw [hexit]
    rfl
  | some b =>
    rw [hb, Option.map_some, Option.map_eq_some_iff] at hexit
    obtain ⟨b', hb', hexitOf⟩ := hexit
    simp only [exitOf, Prod.mk.injEq] at hexitOf
    obtain ⟨hnode, hconfig, hoverride⟩ := hexitOf
    have hhop := hconfigs b hb
    rw [hb']
    simp only [exec_read_bind, hnode, hconfig]
    cases hexitCfg : db.protocolConfigs.find b.protocolConfigId with
    | none =>
      rw [hexitCfg, Option.map_none, Option.map_eq_none_iff] at hhop
      rw [hhop]
      rfl
    | some exitCfg =>
      rw [hexitCfg, Option.map_some, Option.map_eq_some_iff] at hhop
      obtain ⟨exitCfg', hexitCfg', hhopOf⟩ := hhop
      simp only [hopOf, Prod.mk.injEq] at hhopOf
      obtain ⟨hprotocol, hsettings, hport⟩ := hhopOf
      rw [hexitCfg']
      simp only [exec_read_bind, h.nodes, hprotocol, hsettings, hport]
      cases db.nodes.find b.nodeId with
      | none => rfl
      | some exitNode =>
        dsimp only
        split
        · rfl
        · simp only [exec_bind, exec_resolveRelaySni_congr h.certificates hoverride, exec_lift,
            exec_pure]

theorem SameReads.exec_coreBuildIdOf (h : SameReads db db' nodeId core)
    (version : Option String) :
    (coreBuildIdOf core version).exec db' = (coreBuildIdOf core version).exec db := by
  rw [coreBuildIdOf]
  split
  · rfl
  · rename_i text _
    exact congrArg (fun published : Option DateTime =>
      Except.ok ((published.map fun t => toString t.timestamp).getD "")) (h.published text)

/-- **The frame.**  What a generation does not read does not change what it produces. -/
theorem SameReads.produced_eq (h : SameReads db db' nodeId core) :
    produced gen db' nodeId core = produced gen db nodeId core := by
  have hinbounds : ∀ version, (collect (bindingInbound nodeId core version)
      (activeBindings db' nodeId)).exec db' = (collect (bindingInbound nodeId core version)
        (activeBindings db nodeId)).exec db := by
    intro version
    rw [exec_collect_filter (p := forCore db' core) fun b _ hb =>
        exec_bindingInbound_of_not_forCore hb version,
      exec_collect_filter (d := db) (p := forCore db core) fun b _ hb =>
        exec_bindingInbound_of_not_forCore hb version,
      ← coreBindings_eq, ← coreBindings_eq, h.bindings]
    exact exec_collect_congr fun b hb => h.exec_bindingInbound hb version
  have hrules : ∀ config, (applyRelayRules nodeId core config).exec db' =
      (applyRelayRules nodeId core config).exec db := by
    intro config
    rw [applyRelayRules, exec_read_bind, exec_read_bind]
    change (loop _ config (enabledRules db' nodeId)).exec db' =
      (loop _ config (enabledRules db nodeId)).exec db
    rw [h.rules]
    exact exec_loop_congr (fun rule hrule config => h.exec_applyRelayRule hrule config) config
  have hgenerated : (generateNodeConfig gen nodeId core).exec db' =
      (generateNodeConfig gen nodeId core).exec db := by
    rw [generateNodeConfig, exec_bind, exec_bind, exec_effectiveCoreVersion,
      exec_effectiveCoreVersion, h.version]
    refine congrArg _ (funext fun version => ?_)
    rw [exec_read_bind, exec_read_bind, exec_bind, exec_bind]
    change (collect _ (activeBindings db' nodeId)).exec db' >>= _ =
      (collect _ (activeBindings db nodeId)).exec db >>= _
    rw [hinbounds]
    refine congrArg _ (funext fun inbounds => ?_)
    simp only [exec_bind, exec_lift, hrules]
    refine congrArg _ (funext fun config => congrArg _ (funext fun config' => ?_))
    split
    · rw [exec_bind, exec_bind, exec_lift, exec_lift]
      rfl
    · rfl
  rw [produced, produced, hgenerated]
  cases (generateNodeConfig gen nodeId core).exec db with
  | ok out =>
    dsimp only
    rw [h.exec_coreBuildIdOf]
  | error e => rfl

theorem produced_of_sameContents (h : SameContents db db') :
    produced gen db' nodeId core = produced gen db nodeId core := by
  rw [produced, produced, ← (respects_generateNodeConfig gen nodeId core).exec_eq h]
  cases (generateNodeConfig gen nodeId core).exec db with
  | ok out =>
    dsimp only
    rw [(respects_coreBuildIdOf core out.2).exec_eq (same_read (fun _ _ => rfl) _ _ h)]
  | error e => rfl

end Frame

/-! ### Marks -/

/-- Only markers differ, and none is gone. -/
structure MarkersGrow (db db' : Db) : Prop where
  contents : SameContents db db'
  keeps : ∀ nodeId core, HasPending db nodeId core → HasPending db' nodeId core

theorem MarkersGrow.refl (db : Db) : MarkersGrow db db := ⟨.refl db, fun _ _ h => h⟩

theorem MarkersGrow.trans {db db' db'' : Db} (h : MarkersGrow db db') (h' : MarkersGrow db' db'') :
    MarkersGrow db db'' := by
  obtain ⟨rows, rfl⟩ := h.contents
  obtain ⟨rows', rfl⟩ := h'.contents
  exact ⟨⟨rows', rfl⟩, fun n c hn => h'.keeps n c (h.keeps n c hn)⟩

/-- New markers of some nodes get different identifiers. -/
def DistinctIds (env : EditEnv) (nodeIds : List Uuid) : Prop :=
  ∀ n ∈ nodeIds, ∀ n' ∈ nodeIds, ∀ c c', env.markerId n c = env.markerId n' c' → n = n' ∧ c = c'

/-- The identifiers of markers that may have to be inserted are not taken. -/
def ReadyIds (env : EditEnv) (nodeIds : List Uuid) (db : Db) : Prop :=
  ∀ n ∈ nodeIds, ∀ c, HasPending db n c ∨ db.nodePendingUpdates.find (env.markerId n c) = none

section Marks

variable {env : EditEnv} {all : List Uuid} {db : Db} (core : CoreType) (updateType : String)

theorem markNode_spec (hdistinct : DistinctIds env all) (hready : ReadyIds env all db)
    {nodeId : Uuid} (hnode : nodeId ∈ all) : ∃ db',
      markNode env core updateType db nodeId = some db' ∧ MarkersGrow db db' ∧
        HasPending db' nodeId core ∧ ReadyIds env all db' := by
  rw [markNode]
  cases hfind : findPending db nodeId core with
  | some row =>
    obtain ⟨hrow, hrowNode, hrowCore⟩ := hasPending_of_findPending hfind
    have hfound : db.nodePendingUpdates.find row.id = some row :=
      Table.find_eq_some_iff.mpr ⟨hrow, rfl⟩
    have hsome : (db.nodePendingUpdates.find row.id).isSome = true := by
      rw [hfound]
      rfl
    refine ⟨_, by simp only [updatePending]; rw [if_pos hsome], ?_⟩
    have hgrows : MarkersGrow db (setPendingUpdates db (db.nodePendingUpdates.update row.id fun r =>
        { r with updateType := updateType, updatedAt := env.now })) := by
      refine ⟨⟨_, rfl⟩, ?_⟩
      rintro n c ⟨r, hr, hrnode, hrcore⟩
      obtain ⟨r', hr', -, hrnode', hrcore'⟩ := hasPending_updatePending
        (show updatePending db row.id updateType env.now = some _ from if_pos hsome) hr
      exact ⟨r', hr', hrnode'.trans hrnode, hrcore'.trans hrcore⟩
    refine ⟨hgrows, hgrows.keeps _ _ ⟨row, hrow, hrowNode, hrowCore⟩, fun n hn c => ?_⟩
    rcases hready n hn c with hpending | hnone
    · exact Or.inl (hgrows.keeps n c hpending)
    · refine Or.inr ?_
      change (db.nodePendingUpdates.update row.id _).find _ = none
      by_cases hid : env.markerId n c = row.id
      · rw [hid, hfound] at hnone
        cases hnone
      · rw [Table.find_update_of_ne hid]
        exact hnone
  | none =>
    have hnot : ¬ HasPending db nodeId core := by
      rintro ⟨r, hr, hrnode, hrcore⟩
      have hfalse := List.find?_eq_none.mp hfind r hr
      simp only [hrnode, hrcore, and_self, decide_true, not_true_eq_false] at hfalse
    have hfresh := (hready nodeId hnode core).resolve_left hnot
    cases hinsert : insertPending db
        ⟨env.markerId nodeId core, nodeId, core.toStr, updateType, env.now⟩ with
    | none =>
      obtain ⟨r, hr, hrow⟩ := hasPending_of_insertPending_eq_none hfresh hinsert
      exact absurd ⟨r, hr, hrow⟩ hnot
    | some db' =>
      have hrows := mem_of_insertPending hinsert
      have hgrows : MarkersGrow db db' := by
        refine ⟨sameContents_of_insertPending hinsert, ?_⟩
        rintro n c ⟨r, hr, hrow⟩
        exact ⟨r, hrows ▸ List.mem_append_left _ hr, hrow⟩
      have hnew : HasPending db' nodeId core :=
        ⟨_, hrows ▸ List.mem_append_right _ (List.mem_singleton_self _), rfl, rfl⟩
      refine ⟨db', rfl, hgrows, hnew, fun n hn c => ?_⟩
      rcases hready n hn c with hpending | hnone
      · exact Or.inl (hgrows.keeps n c hpending)
      · by_cases hid : env.markerId nodeId core = env.markerId n c
        · obtain ⟨rfl, rfl⟩ := hdistinct nodeId hnode n hn core c hid
          exact Or.inl hnew
        · refine Or.inr (Table.find_eq_none_iff.mpr fun r hr => ?_)
          rw [hrows] at hr
          rcases List.mem_append.mp hr with hr | hr
          · exact Table.find_eq_none_iff.mp hnone r hr
          · rw [List.mem_singleton.mp hr]
            exact hid

/-- **A call of `mark_pending` marks every node it is given.** -/
theorem markPending_spec (hdistinct : DistinctIds env all) {nodeIds : List Uuid}
    (hall : ∀ n ∈ nodeIds, n ∈ all) (hready : ReadyIds env all db) :
    MarkersGrow db (markPending env core updateType nodeIds db) ∧
      ReadyIds env all (markPending env core updateType nodeIds db) ∧
      ∀ n ∈ nodeIds, HasPending (markPending env core updateType nodeIds db) n core := by
  induction nodeIds generalizing db with
  | nil => exact ⟨.refl db, hready, fun _ h => (nomatch h)⟩
  | cons nodeId nodeIds ih =>
    obtain ⟨db', hmark, hgrows, hnew, hready'⟩ :=
      markNode_spec core updateType hdistinct hready (hall nodeId List.mem_cons_self)
    obtain ⟨hgrows', hready'', hmarked⟩ :=
      ih (fun n hn => hall n (List.mem_cons_of_mem nodeId hn)) hready'
    rw [markPending, hmark]
    refine ⟨hgrows.trans hgrows', hready'', fun n hn => ?_⟩
    rcases List.mem_cons.mp hn with rfl | hn
    · exact hgrows'.keeps n core hnew
    · exact hmarked n hn

theorem markBoth_spec (hdistinct : DistinctIds env all) {nodeIds : List Uuid}
    (hall : ∀ n ∈ nodeIds, n ∈ all) (hready : ReadyIds env all db) :
    MarkersGrow db (markBoth env nodeIds db) ∧
      ∀ n ∈ nodeIds, ∀ c, HasPending (markBoth env nodeIds db) n c := by
  obtain ⟨hgrows, hready', hmarked⟩ := markPending_spec .singBox "config" hdistinct hall hready
  obtain ⟨hgrows', -, hmarked'⟩ := markPending_spec .mihomo "config" hdistinct hall hready'
  refine ⟨hgrows.trans hgrows', fun n hn c => ?_⟩
  cases c with
  | singBox => exact hgrows'.keeps n _ (hmarked n hn)
  | mihomo => exact hmarked' n hn

end Marks

/-! ### Rows that are not read

One lemma for each table that an edit writes.
-/

section NotRead

variable {db db' db'' : Db} {nodeId : Uuid} {core : CoreType}

theorem SameReads.refl (db : Db) (nodeId : Uuid) (core : CoreType) :
    SameReads db db nodeId core :=
  ⟨rfl, rfl, rfl, fun _ => rfl, rfl, fun _ _ => rfl, fun _ _ => rfl, fun _ _ => rfl, rfl,
    fun _ _ => rfl, fun _ _ _ _ => rfl⟩

theorem SameReads.trans (h : SameReads db db' nodeId core) (h' : SameReads db' db'' nodeId core) :
    SameReads db db'' nodeId core := by
  have hbindings : ∀ b ∈ coreBindings db nodeId core, b ∈ coreBindings db' nodeId core :=
    fun b hb => h.bindings ▸ hb
  have hrules : ∀ rule ∈ enabledRules db nodeId, rule ∈ enabledRules db' nodeId :=
    fun rule hrule => h.rules ▸ hrule
  refine ⟨h'.nodes.trans h.nodes, h'.certificates.trans h.certificates,
    h'.version.trans h.version,
    fun version => (h'.published version).trans (h.published version),
    h'.bindings.trans h.bindings,
    fun b hb => (h'.configs b (hbindings b hb)).trans (h.configs b hb),
    fun b hb => (h'.members b (hbindings b hb)).trans (h.members b hb),
    fun b hb => (h'.clients b (hbindings b hb)).trans (h.clients b hb),
    h'.rules.trans h.rules,
    fun rule hrule => (h'.exits rule (hrules rule hrule)).trans (h.exits rule hrule),
    fun rule hrule b hb => ?_⟩
  have hexit := h.exits rule hrule
  rw [hb, Option.map_some, Option.map_eq_some_iff] at hexit
  obtain ⟨b', hb', hsame⟩ := hexit
  have hconfig : b'.protocolConfigId = b.protocolConfigId := congrArg (fun e => e.2.1) hsame
  rw [← h.exitConfigs rule hrule b hb, ← hconfig]
  exact h'.exitConfigs rule (hrules rule hrule) b' hb'

theorem forCore_congr {b : NodeBinding}
    (h : db'.protocolConfigs.find b.protocolConfigId = db.protocolConfigs.find b.protocolConfigId) :
    forCore db' core b = forCore db core b := by
  rw [forCore, forCore, h]

theorem mem_coreBindings {b : NodeBinding} : b ∈ coreBindings db nodeId core ↔
    b ∈ db.nodeBindings.rows ∧ b.nodeId = nodeId ∧ b.isActive = true ∧ forCore db core b = true := by
  simp only [coreBindings, Table.mem_filter, Bool.and_eq_true, decide_eq_true_eq, and_assoc]

theorem mem_activeBindings {b : NodeBinding} : b ∈ activeBindings db nodeId ↔
    b ∈ db.nodeBindings.rows ∧ b.nodeId = nodeId ∧ b.isActive = true := by
  simp only [activeBindings, Table.mem_filter, decide_eq_true_eq]

theorem mem_enabledRules {rule : RelayRule} : rule ∈ enabledRules db nodeId ↔
    rule ∈ db.relayRules.rows ∧ rule.nodeId = nodeId ∧ rule.enabled = true := by
  simp only [enabledRules, Table.mem_filter, decide_eq_true_eq]

/-- Configs: a binding of the node may change its config when it counts neither before nor
after, and an exit may change what no rule reads. -/
theorem sameReads_protocolConfigs {configs : Table ProtocolConfig}
    (hbindings : ∀ b ∈ activeBindings db nodeId,
      configs.find b.protocolConfigId = db.protocolConfigs.find b.protocolConfigId ∨
        forCore db core b = false ∧ forCore { db with protocolConfigs := configs } core b = false)
    (hexits : ∀ rule ∈ enabledRules db nodeId, ∀ b,
      db.nodeBindings.find rule.exitBindingId = some b →
        (configs.find b.protocolConfigId).map hopOf =
          (db.protocolConfigs.find b.protocolConfigId).map hopOf) :
    SameReads db { db with protocolConfigs := configs } nodeId core := by
  refine ⟨rfl, rfl, rfl, fun _ => rfl, ?_, fun b hb => ?_, fun _ _ => rfl, fun _ _ => rfl, rfl,
    fun _ _ => rfl, hexits⟩
  · rw [coreBindings_eq, coreBindings_eq]
    refine List.filter_congr fun b hb => ?_
    rcases hbindings b hb with hsame | ⟨hbefore, hafter⟩
    · exact forCore_congr hsame
    · rw [hbefore, hafter]
  · obtain ⟨hrow, hnode, hactive, hfor⟩ := mem_coreBindings.mp hb
    refine (hbindings b (mem_activeBindings.mpr ⟨hrow, hnode, hactive⟩)).resolve_right ?_
    rintro ⟨hbefore, -⟩
    rw [hbefore] at hfor
    cases hfor

/-- Bindings: those that count are as they were, and so are the exits of the node's rules. -/
theorem sameReads_nodeBindings {bindings : Table NodeBinding}
    (hbindings : bindings.filter (fun b =>
      decide (b.nodeId = nodeId ∧ b.isActive = true) && forCore db core b) =
        coreBindings db nodeId core)
    (hexits : ∀ rule ∈ enabledRules db nodeId,
      (bindings.find rule.exitBindingId).map exitOf =
        (db.nodeBindings.find rule.exitBindingId).map exitOf) :
    SameReads db { db with nodeBindings := bindings } nodeId core :=
  ⟨rfl, rfl, rfl, fun _ => rfl, hbindings, fun _ _ => rfl, fun _ _ => rfl, fun _ _ => rfl, rfl,
    hexits, fun _ _ _ _ => rfl⟩

/-- Group links of bindings. -/
theorem sameReads_nodeBindingGroupBindings {links : Table NodeBindingGroupBinding}
    (h : ∀ b ∈ coreBindings db nodeId core,
      links.filter (·.nodeBindingId = b.id) =
        db.nodeBindingGroupBindings.filter (·.nodeBindingId = b.id)) :
    SameReads db { db with nodeBindingGroupBindings := links } nodeId core := by
  have hgroups : ∀ b ∈ coreBindings db nodeId core,
      bindingGroupIds { db with nodeBindingGroupBindings := links } b.id =
        bindingGroupIds db b.id :=
    fun b hb => congrArg (List.map fun link : NodeBindingGroupBinding => link.groupId) (h b hb)
  refine ⟨rfl, rfl, rfl, fun _ => rfl, rfl, fun _ _ => rfl, fun b hb => ?_, fun b hb => ?_, rfl,
    fun _ _ => rfl, fun _ _ _ _ => rfl⟩
  · rw [groupMembers, groupMembers, hgroups b hb]
  · rw [authorizedClients, authorizedClients, groupMembers, groupMembers, hgroups b hb]

/-- Clients and their group links. -/
theorem sameReads_clients {clients : Table Client} {links : Table ClientGroupBinding}
    (hlinks : ∀ b ∈ coreBindings db nodeId core,
      links.filter (·.groupId ∈ bindingGroupIds db b.id) =
        db.clientGroupBindings.filter (·.groupId ∈ bindingGroupIds db b.id))
    (hclients : ∀ b ∈ coreBindings db nodeId core,
      clients.filter (fun c => c.id ∈ groupMembers db b.id ∧ c.status = "active") =
        authorizedClients db b.id) :
    SameReads db { db with clients := clients, clientGroupBindings := links } nodeId core := by
  have hmembers : ∀ b ∈ coreBindings db nodeId core,
      groupMembers { db with clients := clients, clientGroupBindings := links } b.id =
        groupMembers db b.id :=
    fun b hb => congrArg (List.map fun link : ClientGroupBinding => link.clientId) (hlinks b hb)
  refine ⟨rfl, rfl, rfl, fun _ => rfl, rfl, fun _ _ => rfl, hmembers, fun b hb => ?_, rfl,
    fun _ _ => rfl, fun _ _ _ _ => rfl⟩
  rw [authorizedClients, hmembers b hb]
  exact hclients b hb

/-- Relay rules. -/
theorem sameReads_relayRules {rules : Table RelayRule}
    (h : rules.filter (fun r => r.nodeId = nodeId ∧ r.enabled) = enabledRules db nodeId) :
    SameReads db { db with relayRules := rules } nodeId core :=
  ⟨rfl, rfl, rfl, fun _ => rfl, rfl, fun _ _ => rfl, fun _ _ => rfl, fun _ _ => rfl, h,
    fun _ _ => rfl, fun _ _ _ _ => rfl⟩

/-- Core versions: the pinned one, and the publish times. -/
theorem sameReads_coreVersions {versions : Table CoreVersion}
    (hpinned : pinnedVersion { db with coreVersions := versions } core = pinnedVersion db core)
    (hpublished : ∀ version, publishedAt { db with coreVersions := versions } core version =
      publishedAt db core version) :
    SameReads db { db with coreVersions := versions } nodeId core :=
  ⟨rfl, rfl, hpinned, hpublished, rfl, fun _ _ => rfl, fun _ _ => rfl, fun _ _ => rfl, rfl,
    fun _ _ => rfl, fun _ _ _ _ => rfl⟩

end NotRead

/-! ### Operations -/

/-- The edits that change what nodes run, with the identifiers they draw. -/
inductive EditOperation where
  | updateConfig (id : Uuid) (payload : UpdateConfigPayload)
  | deleteConfig (id : Uuid)
  | createBinding (id : Uuid) (payload : CreateBindingPayload)
  | updateBinding (id : Uuid) (payload : UpdateBindingPayload)
  | deleteBinding (id : Uuid)
  | createRelayRule (ids : RelayIds) (id : Uuid) (payload : CreateRelayRulePayload)
  | updateRelayRule (ids : RelayIds) (id : Uuid) (payload : UpdateRelayRulePayload)
  | deleteRelayRule (id : Uuid)
  | activateCoreVersion (id : Uuid)

/-- A rule of the node leads to a binding of a kind. -/
def LeadsTo (db : Db) (nodeId : Uuid) (P : NodeBinding → Prop) : Prop :=
  ∃ rule ∈ enabledRules db nodeId, ∃ b, db.nodeBindings.find rule.exitBindingId = some b ∧ P b

/-- The node has a binding for the core that shares a group with another binding. -/
def SharesGroupWith (db : Db) (nodeId : Uuid) (core : CoreType) (bindingId : Uuid) : Prop :=
  ∃ b ∈ coreBindings db nodeId core, ∃ g ∈ bindingGroupIds db bindingId, g ∈ bindingGroupIds db b.id

/-- The node has a binding for the core in a group of the client. -/
def Serves (db : Db) (nodeId : Uuid) (core : CoreType) (clientId : Uuid) : Prop :=
  ∃ b ∈ coreBindings db nodeId core, clientId ∈ groupMembers db b.id

namespace EditOperation

def run (env : EditEnv) : EditOperation → Handler Unit
  | .updateConfig id payload => Hub.updateConfig env id payload
  | .deleteConfig id => Hub.deleteConfig env id
  | .createBinding id payload => Hub.createBinding id payload
  | .updateBinding id payload => Hub.updateBinding id payload
  | .deleteBinding id => Hub.deleteBinding id
  | .createRelayRule ids id payload => Hub.createRelayRule env ids id payload
  | .updateRelayRule ids id payload => Hub.updateRelayRule env ids id payload
  | .deleteRelayRule id => Hub.deleteRelayRule env id
  | .activateCoreVersion id => Hub.activateCoreVersion env id

/-- The nodes the handler marks.  The binding handlers mark none. -/
def affected (db : Db) : EditOperation → List Uuid
  | .updateConfig id _ => nodesUsingConfig db id
  | .deleteConfig id => ((bindingsOfConfig db id).map (·.nodeId)).dedup
  | .createBinding .. | .updateBinding .. | .deleteBinding .. => []
  | .createRelayRule _ _ payload => [payload.nodeId,
      (nodeOfBinding db payload.exitBindingId).getD .nil].filter (· ≠ .nil)
  | .updateRelayRule _ id payload =>
    match db.relayRules.find id with
    | some rule => affectedNodes rule.nodeId [nodeOfBinding db rule.exitBindingId,
        nodeOfBinding db (payload.exitBindingId.getD rule.exitBindingId)]
    | none => []
  | .deleteRelayRule id =>
    match db.relayRules.find id with
    | some rule => affectedNodes rule.nodeId [nodeOfBinding db rule.exitBindingId]
    | none => []
  | .activateCoreVersion id =>
    match (db.coreVersions.find id).bind fun row => CoreType.fromStr? row.coreType with
    | some core => nodesWithBindings db core
    | none => []

/-- The cores for which it marks them: after an update of a config, the new one only. -/
def affectedCores (db : Db) : EditOperation → List CoreType
  | .updateConfig id payload => ((db.protocolConfigs.find id).map fun config =>
      parseCoreType (payload.coreType.getD config.coreType)).toList
  | .activateCoreVersion id =>
    ((db.coreVersions.find id).bind fun row => CoreType.fromStr? row.coreType).toList
  | _ => [.singBox, .mihomo]

/-- **What an edit does to what a node and core read.**  The edit writes a binding of the node
for the core, its config or its group links; what a rule of the node reads of its exit and the
exit's config; a rule of the node; a client of such a binding; or the version that is pinned. -/
def Touches (db : Db) (nodeId : Uuid) (core : CoreType) : EditOperation → Prop
  | .updateConfig id payload =>
    (∃ b ∈ activeBindings db nodeId, b.protocolConfigId = id ∧
      ∃ config, db.protocolConfigs.find id = some config ∧
        (parseCoreType config.coreType = core ∨
          parseCoreType (payload.coreType.getD config.coreType) = core)) ∨
    (∃ config, db.protocolConfigs.find id = some config ∧
      hopOf (payload.apply default config) ≠ hopOf config) ∧
        LeadsTo db nodeId fun b => b.protocolConfigId = id
  | .deleteConfig id =>
    (∃ b ∈ activeBindings db nodeId, b.protocolConfigId = id) ∨
      LeadsTo db nodeId fun b => b.protocolConfigId = id
  | .createBinding id payload =>
    payload.nodeId = nodeId ∧ payload.isActive.getD true = true ∧
      forCore db core (payload.binding id) = true
  | .updateBinding id payload => ∃ b, db.nodeBindings.find id = some b ∧
    (b.nodeId = nodeId ∧ payload.apply b ≠ b ∧ (b.isActive ∨ (payload.apply b).isActive) ∧
        forCore db core b = true ∨
      exitOf (payload.apply b) ≠ exitOf b ∧ LeadsTo db nodeId fun exit => exit.id = id)
  | .deleteBinding id =>
    (∃ b ∈ coreBindings db nodeId core, b.id = id) ∨ LeadsTo db nodeId fun exit => exit.id = id
  | .createRelayRule _ _ payload =>
    payload.nodeId = nodeId ∧ payload.enabled.getD true = true ∨
      SharesGroupWith db nodeId core payload.exitBindingId
  | .updateRelayRule _ id payload => ∃ rule, db.relayRules.find id = some rule ∧
    (rule.nodeId = nodeId ∧ (rule.enabled ∨ payload.enabled = some true) ∨
      payload.movesExit rule = true ∧ (Serves db nodeId core rule.relayClientId ∨
        SharesGroupWith db nodeId core (payload.exitBindingId.getD rule.exitBindingId)))
  | .deleteRelayRule id => ∃ rule, db.relayRules.find id = some rule ∧
    (rule.nodeId = nodeId ∧ rule.enabled ∨ Serves db nodeId core rule.relayClientId)
  | .activateCoreVersion id => ∃ row, db.coreVersions.find id = some row ∧
    row.coreType = core.toStr ∧ pinnedVersion db core ≠ some row.version

/-- The identifiers an edit draws for a row that others may refer to. -/
def newIds : EditOperation → List Uuid
  | .createBinding id _ => [id]
  | .createRelayRule ids _ _ | .updateRelayRule ids _ _ => [ids.clientId]
  | _ => []

/-- Identifiers that are drawn at random are new. -/
structure Fresh (env : EditEnv) (db : Db) (op : EditOperation) : Prop where
  distinct : DistinctIds env (op.affected db)
  ready : ReadyIds env (op.affected db) db
  exits : ∀ id ∈ op.newIds, ∀ rule ∈ db.relayRules.rows, rule.exitBindingId ≠ id
  links : ∀ id ∈ op.newIds, ∀ link ∈ db.clientGroupBindings.rows, link.clientId ≠ id

/-- **What an edit must mark it marks, or it is marked.** -/
def Covered (db : Db) (op : EditOperation) : Prop :=
  ∀ nodeId, (db.nodes.find nodeId).isSome → ∀ core, op.Touches db nodeId core →
    nodeId ∈ op.affected db ∧ core ∈ op.affectedCores db ∨ HasPending db nodeId core

end EditOperation

/-! ### What an edit does not touch -/

section Untouched

open EditOperation

variable {env : EditEnv} {db : Db} {nodeId : Uuid} {core : CoreType} {id : Uuid}

theorem sameReads_updateConfig {payload : UpdateConfigPayload} {config : ProtocolConfig}
    (hconfig : db.protocolConfigs.find id = some config)
    (h : ¬ Touches db nodeId core (.updateConfig id payload)) :
    SameReads db
      { db with protocolConfigs := db.protocolConfigs.update id (payload.apply env.now) }
      nodeId core := by
  have hother : ∀ k, k ≠ id → (db.protocolConfigs.update id (payload.apply env.now)).find k =
      db.protocolConfigs.find k := fun k hk => Table.find_update_of_ne hk _
  have hself : (db.protocolConfigs.update id (payload.apply env.now)).find id =
      some (payload.apply env.now config) := by
    refine (Table.find_update_self (f := payload.apply env.now) fun _ => rfl).trans ?_
    rw [hconfig]
    rfl
  refine sameReads_protocolConfigs (fun b hb => ?_) fun rule hrule b hb => ?_
  · by_cases hid : b.protocolConfigId = id
    · refine Or.inr ⟨?_, ?_⟩
      · rw [forCore, hid, hconfig, Option.all_some]
        exact decide_eq_false fun hcore =>
          h (Or.inl ⟨b, hb, hid, config, hconfig, Or.inl hcore⟩)
      · rw [forCore, hid, hself, Option.all_some]
        exact decide_eq_false fun hcore =>
          h (Or.inl ⟨b, hb, hid, config, hconfig, Or.inr hcore⟩)
    · exact Or.inl (hother _ hid)
  · by_cases hid : b.protocolConfigId = id
    · rw [hid, hself, hconfig]
      refine congrArg some (by_contra fun hhop => h (Or.inr ⟨⟨config, hconfig, hhop⟩, ?_⟩))
      exact ⟨rule, hrule, b, hb, hid⟩
    · rw [hother _ hid]

/-- Bindings that are deleted with their group links. -/
theorem sameReads_deleteBindings (gone : Uuid → Bool)
    (hbindings : ∀ b ∈ coreBindings db nodeId core, gone b.id = false)
    (hexits : ¬ LeadsTo db nodeId fun b => gone b.id = true) :
    SameReads db { db with
      nodeBindingGroupBindings := db.nodeBindingGroupBindings.deleteWhere (gone ·.nodeBindingId)
      nodeBindings := db.nodeBindings.deleteWhere (gone ·.id) } nodeId core := by
  have hlinks : SameReads db { db with nodeBindingGroupBindings :=
      db.nodeBindingGroupBindings.deleteWhere (gone ·.nodeBindingId) } nodeId core := by
    refine sameReads_nodeBindingGroupBindings fun b hb => ?_
    refine Table.filter_deleteWhere_of_not fun link _ hlink => ?_
    rw [of_decide_eq_true hlink]
    exact hbindings b hb
  refine hlinks.trans (sameReads_nodeBindings ?_ fun rule hrule => ?_)
  · refine Table.filter_deleteWhere_of_not fun b hb hcore => hbindings b ?_
    exact Table.mem_filter.mpr ⟨hb, hcore⟩
  · change ((db.nodeBindings.deleteWhere (gone ·.id)).find rule.exitBindingId).map exitOf =
      (db.nodeBindings.find rule.exitBindingId).map exitOf
    rw [Table.find_deleteWhere_of_not fun b hb =>
      Bool.eq_false_iff.mpr fun hgone => hexits ⟨rule, hrule, b, hb, hgone⟩]

theorem mem_bindingsOfConfig {b : NodeBinding} (hb : b ∈ db.nodeBindings.rows) :
    b.id ∈ (bindingsOfConfig db id).map (·.id) ↔ b.protocolConfigId = id := by
  constructor
  · intro hmem
    obtain ⟨b', hb', hid⟩ := List.mem_map.mp hmem
    obtain ⟨hrow, hconfig⟩ := Table.mem_filter.mp hb'
    rw [← Table.eq_of_key_eq hrow hb hid]
    exact of_decide_eq_true hconfig
  · intro hconfig
    exact List.mem_map.mpr ⟨b, Table.mem_filter.mpr ⟨hb, decide_eq_true hconfig⟩, rfl⟩

theorem sameReads_deleteConfig (h : ¬ Touches db nodeId core (.deleteConfig id)) :
    SameReads db { db with
      nodeBindingGroupBindings := db.nodeBindingGroupBindings.deleteWhere
        (·.nodeBindingId ∈ (bindingsOfConfig db id).map (·.id))
      nodeBindings := db.nodeBindings.deleteWhere (·.id ∈ (bindingsOfConfig db id).map (·.id))
      protocolConfigs := db.protocolConfigs.deleteWhere (·.id = id) } nodeId core := by
  have hgone : ∀ b ∈ db.nodeBindings.rows, b.protocolConfigId ≠ id →
      decide (b.id ∈ (bindingsOfConfig db id).map (·.id)) = false :=
    fun b hb hconfig => decide_eq_false fun hmem => hconfig ((mem_bindingsOfConfig hb).mp hmem)
  have hcounted : ∀ b ∈ coreBindings db nodeId core,
      decide (b.id ∈ (bindingsOfConfig db id).map (·.id)) = false := by
    intro b hb
    obtain ⟨hrow, hnode, hactive, -⟩ := mem_coreBindings.mp hb
    exact hgone b hrow fun hconfig =>
      h (Or.inl ⟨b, mem_activeBindings.mpr ⟨hrow, hnode, hactive⟩, hconfig⟩)
  have hexits : ¬ LeadsTo db nodeId fun b =>
      decide (b.id ∈ (bindingsOfConfig db id).map (·.id)) = true := by
    rintro ⟨rule, hrule, b, hb, hmem⟩
    have hconfig := (mem_bindingsOfConfig (Table.mem_of_find hb)).mp (of_decide_eq_true hmem)
    exact h (Or.inr ⟨rule, hrule, b, hb, hconfig⟩)
  have hkept : ∀ b, b ∈ (db.nodeBindings.deleteWhere fun b =>
      decide (b.id ∈ (bindingsOfConfig db id).map (·.id))).rows →
        (db.protocolConfigs.deleteWhere (·.id = id)).find b.protocolConfigId =
          db.protocolConfigs.find b.protocolConfigId := by
    intro b hb
    obtain ⟨hrow, hnot⟩ := Table.mem_deleteWhere.mp hb
    refine Table.find_deleteWhere_of_not fun config hfind => decide_eq_false fun hid => ?_
    exact of_decide_eq_false hnot
      ((mem_bindingsOfConfig hrow).mpr ((Table.key_of_find hfind).symm.trans hid))
  refine (sameReads_deleteBindings (fun k => decide (k ∈ (bindingsOfConfig db id).map (·.id)))
    hcounted hexits).trans (sameReads_protocolConfigs (fun b hb => Or.inl ?_) fun rule _ b hb => ?_)
  · exact hkept b (mem_activeBindings.mp hb).1
  · exact congrArg (Option.map hopOf) (hkept b (Table.mem_of_find hb))

theorem sameReads_createBinding {payload : CreateBindingPayload} {bindings : Table NodeBinding}
    (hinsert : db.nodeBindings.insert (payload.binding id) = some bindings)
    (hnew : ∀ rule ∈ db.relayRules.rows, rule.exitBindingId ≠ id)
    (h : ¬ Touches db nodeId core (.createBinding id payload)) :
    SameReads db { db with nodeBindings := bindings } nodeId core := by
  refine sameReads_nodeBindings (Table.filter_insert_of_not hinsert ?_) fun rule hrule => ?_
  · refine Bool.eq_false_iff.mpr fun hcounts => ?_
    rw [Bool.and_eq_true] at hcounts
    obtain ⟨hnode, hactive⟩ := of_decide_eq_true hcounts.1
    exact h ⟨hnode, hactive, hcounts.2⟩
  · have hexit : bindings.find rule.exitBindingId = db.nodeBindings.find rule.exitBindingId :=
      (Table.find_insert hinsert _).trans
        (if_neg fun heq => hnew rule (mem_enabledRules.mp hrule).1 heq.symm)
    rw [hexit]

theorem sameReads_updateBinding {payload : UpdateBindingPayload}
    (h : ¬ Touches db nodeId core (.updateBinding id payload)) :
    SameReads db { db with nodeBindings := db.nodeBindings.update id payload.apply }
      nodeId core := by
  refine sameReads_nodeBindings (Table.filter_update_of_not fun b hb hid => ?_)
    fun rule hrule => ?_
  · have hfound : db.nodeBindings.find id = some b := Table.find_eq_some_iff.mpr ⟨hb, hid⟩
    by_cases hsame : payload.apply b = b
    · exact Or.inl hsame
    · refine Or.inr ⟨Bool.eq_false_iff.mpr fun hcounts => ?_, Bool.eq_false_iff.mpr fun hcounts => ?_⟩
      · rw [Bool.and_eq_true] at hcounts
        obtain ⟨hnode, hactive⟩ := of_decide_eq_true hcounts.1
        exact h ⟨b, hfound, Or.inl ⟨hnode, hsame, Or.inl hactive, hcounts.2⟩⟩
      · rw [Bool.and_eq_true] at hcounts
        obtain ⟨hnode, hactive⟩ := of_decide_eq_true hcounts.1
        exact h ⟨b, hfound, Or.inl ⟨hnode, hsame, Or.inr hactive, hcounts.2⟩⟩
  · by_cases hid : rule.exitBindingId = id
    · rw [hid, Table.find_update_self (f := payload.apply) fun _ => rfl]
      cases hfound : db.nodeBindings.find id with
      | none => rfl
      | some b =>
        refine congrArg some (by_contra fun hexit => h ⟨b, hfound, Or.inr ⟨hexit, ?_⟩⟩)
        exact ⟨rule, hrule, b, by rw [hid, hfound], Table.key_of_find hfound⟩
    · rw [Table.find_update_of_ne hid]

theorem sameReads_deleteBinding (h : ¬ Touches db nodeId core (.deleteBinding id)) :
    SameReads db { db with
      nodeBindingGroupBindings :=
        db.nodeBindingGroupBindings.deleteWhere (·.nodeBindingId = id)
      nodeBindings := db.nodeBindings.deleteWhere (·.id = id) } nodeId core := by
  refine sameReads_deleteBindings (fun k => decide (k = id)) (fun b hb => ?_) ?_
  · exact decide_eq_false fun hid => h (Or.inl ⟨b, hb, hid⟩)
  · rintro ⟨rule, hrule, b, hb, hid⟩
    exact h (Or.inr ⟨rule, hrule, b, hb, of_decide_eq_true hid⟩)

/-- A new relay client, in the groups of the exit binding. -/
theorem sameReads_provisioned {ids : RelayIds} {ruleName : String} {exitBindingId : Uuid}
    {clients : Table Client} {clientGroupBindings : Table ClientGroupBinding}
    (hprovisioned : Provisioned env ids ruleName exitBindingId db clients clientGroupBindings)
    (hnew : ∀ link ∈ db.clientGroupBindings.rows, link.clientId ≠ ids.clientId)
    (h : ¬ SharesGroupWith db nodeId core exitBindingId) :
    SameReads db { db with clients, clientGroupBindings } nodeId core := by
  refine sameReads_clients (fun b hb => ?_) fun b hb => ?_
  · rw [Table.filter, hprovisioned.links, List.filter_append]
    refine (congrArg _ (List.filter_eq_nil_iff.mpr fun link hlink hg => ?_)).trans
      (List.append_nil _)
    obtain ⟨groupLink, hgroupLink, rfl⟩ := List.mem_map.mp hlink
    exact h ⟨b, hb, groupLink.groupId, List.mem_map_of_mem hgroupLink, of_decide_eq_true hg⟩
  · refine Table.filter_insert_of_not hprovisioned.client (decide_eq_false fun hmember => ?_)
    obtain ⟨link, hlink, hclient⟩ := List.mem_map.mp hmember.1
    exact hnew link (Table.mem_filter.mp hlink).1 hclient

theorem sameReads_withoutRelayClient {clientId : Uuid} (h : ¬ Serves db nodeId core clientId) :
    SameReads db (withoutRelayClient db clientId) nodeId core := by
  refine sameReads_clients (fun b hb => ?_) fun b hb => ?_
  · refine Table.filter_deleteWhere_of_not fun link hlink hg => decide_eq_false fun hclient => ?_
    exact h ⟨b, hb, List.mem_map.mpr ⟨link, Table.mem_filter.mpr ⟨hlink, hg⟩, hclient⟩⟩
  · refine Table.filter_deleteWhere_of_not fun c _ hmember => decide_eq_false fun hclient => ?_
    exact h ⟨b, hb, hclient ▸ (of_decide_eq_true hmember).1⟩

theorem sameReads_createRelayRule {ids : RelayIds} {payload : CreateRelayRulePayload}
    {clients : Table Client} {clientGroupBindings : Table ClientGroupBinding}
    {relayRules : Table RelayRule}
    (hprovisioned : Provisioned env ids payload.name payload.exitBindingId db clients
      clientGroupBindings)
    (hinsert : db.relayRules.insert (payload.rule env.now id ids.clientId) = some relayRules)
    (hnew : ∀ link ∈ db.clientGroupBindings.rows, link.clientId ≠ ids.clientId)
    (h : ¬ Touches db nodeId core (.createRelayRule ids id payload)) :
    SameReads db { db with clients, clientGroupBindings, relayRules } nodeId core := by
  have hclients := sameReads_provisioned hprovisioned hnew fun hshares => h (Or.inr hshares)
  refine hclients.trans (sameReads_relayRules ?_)
  refine Table.filter_insert_of_not hinsert (decide_eq_false ?_)
  exact fun hrule => h (Or.inl hrule)

theorem sameReads_updateRelayRule {ids : RelayIds} {payload : UpdateRelayRulePayload}
    {rule : RelayRule} {clients : Table Client} {clientGroupBindings : Table ClientGroupBinding}
    (hrule : db.relayRules.find id = some rule)
    (hreprovisioned : Reprovisioned env ids payload rule db clients clientGroupBindings)
    (hnew : ∀ link ∈ db.clientGroupBindings.rows, link.clientId ≠ ids.clientId)
    (h : ¬ Touches db nodeId core (.updateRelayRule ids id payload)) :
    SameReads db { db with
      clients, clientGroupBindings
      relayRules := db.relayRules.update id (payload.apply env.now ids.clientId) }
      nodeId core := by
  have hclients : SameReads db { db with clients, clientGroupBindings } nodeId core := by
    rw [Reprovisioned] at hreprovisioned
    split at hreprovisioned
    · rename_i hmoves
      have hremoved : SameReads db (withoutRelayClient db rule.relayClientId) nodeId core :=
        sameReads_withoutRelayClient fun hserves => h ⟨rule, hrule, Or.inr ⟨hmoves, Or.inl hserves⟩⟩
      refine hremoved.trans (sameReads_provisioned hreprovisioned (fun link hlink => ?_)
        fun hshares => h ⟨rule, hrule, Or.inr ⟨hmoves, Or.inr hshares⟩⟩)
      exact hnew link (Table.mem_deleteWhere.mp hlink).1
    · obtain ⟨rfl, rfl⟩ := hreprovisioned
      exact .refl db nodeId core
  refine hclients.trans (sameReads_relayRules ?_)
  refine Table.filter_update_of_not fun r hr hid => ?_
  have hfound : r = rule :=
    Option.some.inj ((Table.find_eq_some_iff.mpr ⟨hr, hid⟩).symm.trans hrule)
  subst hfound
  refine Or.inr ⟨decide_eq_false fun hcounts => ?_, decide_eq_false fun hcounts => ?_⟩
  · exact h ⟨r, hrule, Or.inl ⟨hcounts.1, Or.inl hcounts.2⟩⟩
  · have henabled : payload.enabled.getD r.enabled = true := hcounts.2
    refine h ⟨r, hrule, Or.inl ⟨hcounts.1, ?_⟩⟩
    cases hpayload : payload.enabled with
    | none =>
      rw [hpayload] at henabled
      exact Or.inl henabled
    | some enabled =>
      rw [hpayload] at henabled
      exact Or.inr (congrArg some henabled)

theorem sameReads_deleteRelayRule {rule : RelayRule} (hrule : db.relayRules.find id = some rule)
    (h : ¬ Touches db nodeId core (.deleteRelayRule id)) :
    SameReads db (withoutRelayClient
      { db with relayRules := db.relayRules.deleteWhere (·.id = id) } rule.relayClientId)
      nodeId core := by
  have hrules : SameReads db { db with relayRules := db.relayRules.deleteWhere (·.id = id) }
      nodeId core := by
    refine sameReads_relayRules (Table.filter_deleteWhere_of_not fun r hr hcounts => ?_)
    refine decide_eq_false fun hid => h ⟨rule, hrule, Or.inl ?_⟩
    have hfound : r = rule :=
      Option.some.inj ((Table.find_eq_some_iff.mpr ⟨hr, hid⟩).symm.trans hrule)
    exact hfound ▸ of_decide_eq_true hcounts
  refine hrules.trans (sameReads_withoutRelayClient ?_)
  exact fun hserves => h ⟨rule, hrule, Or.inr hserves⟩

/-- Whether a version is active after the activation of a row. -/
def activeAfter (row v : CoreVersion) : Bool :=
  if v.id = row.id then true else if v.coreType = row.coreType then false else v.isActive

theorem rows_activateVersion (row : CoreVersion) (db : Db) :
    (activateVersion row db).coreVersions.rows =
      db.coreVersions.rows.map fun v => { v with isActive := activeAfter row v } := by
  have hdeactivated := Table.rows_updateEach_filter (t := db.coreVersions)
    (p := (·.coreType = row.coreType)) (f := fun _ v => { v with isActive := false })
    fun _ _ => rfl
  change List.map _ (Table.updateEach _ _ _).rows = _
  rw [hdeactivated, List.map_map]
  refine List.map_congr_left fun v _ => ?_
  by_cases hcore : v.coreType = row.coreType <;> by_cases hid : v.id = row.id <;>
    simp [hcore, hid, key, activeAfter]

/-- The publish times stay. -/
theorem publishedAt_activateVersion (row : CoreVersion) (version : String) :
    publishedAt (activateVersion row db) core version = publishedAt db core version := by
  rw [publishedAt, publishedAt, Table.one, rows_activateVersion, List.find?_map, Table.one,
    Option.bind_map]
  rfl

/-- The active version of the core of an activated row is its own, of another core as before. -/
theorem activeVersion_activateVersion {row : CoreVersion}
    (hrow : db.coreVersions.find id = some row) :
    ((activateVersion row db).coreVersions.one fun v =>
        v.coreType = core.toStr ∧ v.isActive).map (·.version) =
      if row.coreType = core.toStr then some row.version
      else (db.coreVersions.one fun v => v.coreType = core.toStr ∧ v.isActive).map (·.version) := by
  have hmem := Table.mem_of_find hrow
  have hsame : ∀ v ∈ db.coreVersions.rows, v.id = row.id → v = row :=
    fun v hv hid => Table.eq_of_key_eq hv hmem hid
  rw [Table.one, rows_activateVersion, List.find?_map, Option.map_map]
  by_cases hcore : row.coreType = core.toStr
  · have hactive : db.coreVersions.rows.find? ((fun v => decide (v.coreType = core.toStr ∧
        v.isActive = true)) ∘ fun v => { v with isActive := activeAfter row v }) =
          db.coreVersions.find row.id := by
      refine List.find?_congr fun v hv => decide_eq_decide.mpr ⟨?_, fun hid => ?_⟩
      · rintro ⟨hvcore, hvactive⟩
        by_contra hid
        change ¬ v.id = row.id at hid
        change v.coreType = core.toStr at hvcore
        change activeAfter row v = true at hvactive
        rw [activeAfter, if_neg hid, if_pos (hvcore.trans hcore.symm)] at hvactive
        cases hvactive
      · rw [hsame v hv hid]
        exact ⟨hcore, if_pos rfl⟩
    have hfound : db.coreVersions.find row.id = some row := Table.find_eq_some_iff.mpr ⟨hmem, rfl⟩
    rw [if_pos hcore, hactive, hfound]
    rfl
  · have hactive : db.coreVersions.rows.find? ((fun v => decide (v.coreType = core.toStr ∧
        v.isActive = true)) ∘ fun v => { v with isActive := activeAfter row v }) =
          db.coreVersions.rows.find? fun v =>
            decide (v.coreType = core.toStr ∧ v.isActive = true) := by
      refine List.find?_congr fun v hv => decide_eq_decide.mpr (and_congr_right fun hvcore => ?_)
      change v.coreType = core.toStr at hvcore
      have hid : v.id ≠ row.id := fun hid => hcore (hsame v hv hid ▸ hvcore)
      have hother : v.coreType ≠ row.coreType := fun heq => hcore (heq ▸ hvcore)
      change activeAfter row v = true ↔ v.isActive = true
      rw [activeAfter, if_neg hid, if_neg hother]
    rw [if_neg hcore, hactive, Table.one]
    rfl

theorem pinnedVersion_activateVersion {row : CoreVersion}
    (hrow : db.coreVersions.find id = some row) : pinnedVersion (activateVersion row db) core =
      if row.coreType = core.toStr then some row.version else pinnedVersion db core := by
  refine (congrArg (fun version : Option String => version.or _)
    (activeVersion_activateVersion hrow)).trans ?_
  split <;> rfl

theorem sameReads_activateCoreVersion {row : CoreVersion}
    (hrow : db.coreVersions.find id = some row)
    (h : ¬ Touches db nodeId core (.activateCoreVersion id)) :
    SameReads db (activateVersion row db) nodeId core := by
  refine sameReads_coreVersions ((pinnedVersion_activateVersion hrow).trans ?_)
    (publishedAt_activateVersion row)
  split
  · rename_i hcore
    exact by_contra fun hpinned => h ⟨row, hrow, hcore, fun hsame => hpinned hsame.symm⟩
  · rfl

end Untouched

/-! ### Completeness -/

section Complete

open EditOperation

variable {gen : GenEnv} {env : EditEnv} {db db' : Db} {op : EditOperation}

/-- **What an edit does**: rows that nobody it does not touch reads, and then the markers of the
nodes it takes to be affected. -/
structure Edited (db db₁ db' : Db) (op : EditOperation) : Prop where
  markers : db₁.nodePendingUpdates = db.nodePendingUpdates
  untouched : ∀ nodeId core, ¬ op.Touches db nodeId core → SameReads db db₁ nodeId core
  grows : MarkersGrow db₁ db'
  marked : ∀ nodeId ∈ op.affected db, ∀ core ∈ op.affectedCores db, HasPending db' nodeId core

theorem readyIds_congr {db₁ : Db} {all : List Uuid}
    (h : db₁.nodePendingUpdates = db.nodePendingUpdates) (hready : ReadyIds env all db) :
    ReadyIds env all db₁ := by
  intro n hn c
  rw [HasPending, h]
  exact hready n hn c

/-- An edit whose handler marks for both cores. -/
theorem edited_markBoth {db₁ : Db} {nodeIds : List Uuid} (hfresh : op.Fresh env db)
    (hmarkers : db₁.nodePendingUpdates = db.nodePendingUpdates)
    (hnodes : op.affected db = nodeIds)
    (hreads : ∀ n c, ¬ op.Touches db n c → SameReads db db₁ n c) :
    Edited db db₁ (markBoth env nodeIds db₁) op := by
  subst hnodes
  obtain ⟨hgrows, hmarked⟩ := markBoth_spec hfresh.distinct (fun _ hn => hn)
    (readyIds_congr hmarkers hfresh.ready)
  exact ⟨hmarkers, hreads, hgrows, fun n hn c _ => hmarked n hn c⟩

/-- An edit whose handler marks for one core. -/
theorem edited_markPending {db₁ : Db} {nodeIds : List Uuid} {core : CoreType}
    {updateType : String} (hfresh : op.Fresh env db)
    (hmarkers : db₁.nodePendingUpdates = db.nodePendingUpdates)
    (hnodes : op.affected db = nodeIds) (hcores : op.affectedCores db = [core])
    (hreads : ∀ n c, ¬ op.Touches db n c → SameReads db db₁ n c) :
    Edited db db₁ (markPending env core updateType nodeIds db₁) op := by
  subst hnodes
  obtain ⟨hgrows, -, hmarked⟩ := markPending_spec core updateType hfresh.distinct
    (fun _ hn => hn) (readyIds_congr hmarkers hfresh.ready)
  refine ⟨hmarkers, hreads, hgrows, fun n hn c hc => ?_⟩
  rw [hcores] at hc
  rw [List.mem_singleton.mp hc]
  exact hmarked n hn

/-- An edit whose handler marks nothing. -/
theorem edited_unmarked {db₁ : Db} (hmarkers : db₁.nodePendingUpdates = db.nodePendingUpdates)
    (hnodes : op.affected db = [])
    (hreads : ∀ n c, ¬ op.Touches db n c → SameReads db db₁ n c) : Edited db db₁ db₁ op := by
  refine ⟨hmarkers, hreads, .refl db₁, fun n hn => ?_⟩
  rw [hnodes] at hn
  cases hn

theorem edited_of_run (hfresh : op.Fresh env db) (h : op.run env db = .ok () db') :
    ∃ db₁, Edited db db₁ db' op := by
  cases op with
  | updateConfig id payload =>
    obtain ⟨config, hconfig, rfl⟩ := updateConfig_ok h
    refine ⟨_, edited_markPending hfresh rfl rfl ?_ fun n c => sameReads_updateConfig hconfig⟩
    rw [affectedCores, hconfig]
    rfl
  | deleteConfig id =>
    obtain rfl := deleteConfig_ok h
    exact ⟨_, edited_markBoth hfresh rfl rfl fun n c => sameReads_deleteConfig⟩
  | createBinding id payload =>
    obtain ⟨-, bindings, hinsert, rfl⟩ := createBinding_ok h
    have hnew := hfresh.exits id (List.mem_singleton_self id)
    exact ⟨_, edited_unmarked rfl rfl fun n c => sameReads_createBinding hinsert hnew⟩
  | updateBinding id payload =>
    obtain ⟨b, -, rfl⟩ := updateBinding_ok h
    exact ⟨_, edited_unmarked rfl rfl fun n c => sameReads_updateBinding⟩
  | deleteBinding id =>
    obtain ⟨b, -, rfl⟩ := deleteBinding_ok h
    exact ⟨_, edited_unmarked rfl rfl fun n c => sameReads_deleteBinding⟩
  | createRelayRule ids id payload =>
    obtain ⟨-, clients, links, rules, hprovisioned, hinsert, rfl⟩ := createRelayRule_ok h
    have hnew := hfresh.links ids.clientId (List.mem_singleton_self _)
    exact ⟨_, edited_markBoth hfresh rfl rfl fun n c =>
      sameReads_createRelayRule hprovisioned hinsert hnew⟩
  | updateRelayRule ids id payload =>
    obtain ⟨rule, hrule, clients, links, hreprovisioned, rfl⟩ := updateRelayRule_ok h
    have hnew := hfresh.links ids.clientId (List.mem_singleton_self _)
    refine ⟨_, edited_markBoth hfresh rfl ?_ fun n c =>
      sameReads_updateRelayRule hrule hreprovisioned hnew⟩
    rw [affected, hrule]
  | deleteRelayRule id =>
    obtain ⟨rule, hrule, rfl⟩ := deleteRelayRule_ok h
    refine ⟨_, edited_markBoth hfresh rfl ?_ fun n c => sameReads_deleteRelayRule hrule⟩
    rw [affected, hrule]
  | activateCoreVersion id =>
    obtain ⟨row, core, hrow, hcore, rfl⟩ := activateCoreVersion_ok h
    refine ⟨_, edited_markPending hfresh rfl ?_ ?_ fun n c => sameReads_activateCoreVersion hrow⟩
    · rw [affected, hrow, Option.bind_some, hcore]
    · rw [affectedCores, hrow, Option.bind_some, hcore]
      rfl

/-- Every node and core for which an edit changes what is generated has a marker. -/
def PendingComplete (gen : GenEnv) (db db' : Db) : Prop :=
  ∀ nodeId, (db.nodes.find nodeId).isSome → ∀ core,
    produced gen db' nodeId core ≠ produced gen db nodeId core → HasPending db' nodeId core

/-- **An edit that covers what it touches is complete.** -/
theorem complete_of_covered (hfresh : op.Fresh env db) (hcovered : op.Covered db)
    (h : op.run env db = .ok () db') : PendingComplete gen db db' := by
  obtain ⟨db₁, hedited⟩ := edited_of_run hfresh h
  intro nodeId hnode core hchanged
  have htouches : op.Touches db nodeId core := by
    by_contra hnot
    refine hchanged ?_
    calc produced gen db' nodeId core
        = produced gen db₁ nodeId core := produced_of_sameContents hedited.grows.contents
      _ = produced gen db nodeId core := (hedited.untouched nodeId core hnot).produced_eq
  rcases hcovered nodeId hnode core htouches with ⟨haffected, hcore⟩ | hpending
  · exact hedited.marked nodeId haffected core hcore
  · refine hedited.grows.keeps nodeId core ?_
    rw [HasPending, hedited.markers]
    exact hpending

end Complete

namespace StaleExit

def entry : Node where
  id := .ofNat 1
  name := "entry"
  hostname := "entry"
  address := "192.0.2.1"
  domain := none
  tokenHash := ""
  coresAvailable := arr []
  usageCoefficient := 0x3f800000
  status := "online"
  parentId := none
  lastSeenAt := none
  updatedAt := default

def exit : Node := { entry with id := .ofNat 2, name := "exit", address := "192.0.2.2" }

def config : ProtocolConfig where
  id := .ofNat 3
  name := "reality"
  protocolType := "vless_reality"
  coreType := "sing-box"
  listenPort := 443
  listenAddress := "0.0.0.0"
  settings := mkObj [("reality_dest", str "example.com:443"), ("reality_private_key", str "key"),
    ("public_key", str "key"), ("reality_server_names", str "example.com")]
  tlsSettings := none
  updatedAt := default

def binding : NodeBinding := ⟨.ofNat 4, exit.id, config.id, none, true⟩

def rule : RelayRule where
  id := .ofNat 5
  nodeId := entry.id
  exitBindingId := binding.id
  relayClientId := .ofNat 6
  name := "relay"
  matchType := "inline"
  matchConfig := mkObj [("domains", arr [str "example.org"])]
  enabled := true
  sortOrder := 0
  updatedAt := default

/-- A node with a binding, another with a rule that leads to it, and no markers. -/
def db : Db where
  nodes := ⟨[entry, exit], by decide⟩
  protocolConfigs := .single config
  nodeBindings := .single binding
  relayRules := .single rule

def env : EditEnv where
  now := default
  markerId nodeId core := .ofNat (match decide (nodeId = entry.id), core with
    | true, .singBox => 11
    | true, .mihomo => 12
    | false, .singBox => 13
    | false, .mihomo => 14)

def gen : GenEnv := ⟨{}, fun _ => .ok ()⟩

def producedText (db : Db) (nodeId : Uuid) (core : CoreType) : Option String :=
  (produced gen db nodeId core).map (·.1.render)

/-- The edit changes what is generated for a node and core, which get no marker. -/
def Misses (op : EditOperation) (nodeId : Uuid) (core : CoreType) : Prop :=
  ∃ db', op.run env db = .ok () db' ∧
    (produced gen db nodeId core).isSome ∧ (produced gen db' nodeId core).isSome ∧
    produced gen db' nodeId core ≠ produced gen db nodeId core ∧
    ¬ HasPending db' nodeId core ∧ ¬ PendingComplete gen db db'

/-- The computed form of `Misses`. -/
def misses (op : EditOperation) (nodeId : Uuid) (core : CoreType) : Bool :=
  match op.run env db with
  | .ok () db' => decide (producedText db' nodeId core ≠ producedText db nodeId core) &&
      (produced gen db nodeId core).isSome && (produced gen db' nodeId core).isSome &&
      (findPending db' nodeId core).isNone
  | .error _ _ => false

theorem misses_of_check {op : EditOperation} {nodeId : Uuid} {core : CoreType}
    (hnode : (db.nodes.find nodeId).isSome) (h : misses op nodeId core = true) :
    Misses op nodeId core := by
  rw [misses] at h
  cases hrun : op.run env db with
  | error e db' =>
    rw [hrun] at h
    cases h
  | ok u db' =>
    simp only [hrun, Bool.and_eq_true, decide_eq_true_eq, Option.isNone_iff_eq_none] at h
    obtain ⟨⟨⟨hchanged, hbefore⟩, hafter⟩, hnone⟩ := h
    have hdiffers : produced gen db' nodeId core ≠ produced gen db nodeId core :=
      fun hsame => hchanged (by rw [producedText, producedText, hsame])
    have hnot : ¬ HasPending db' nodeId core := fun ⟨r, hr, hrow⟩ =>
      absurd (decide_eq_true hrow) (List.find?_eq_none.mp hnone r hr)
    exact ⟨db', hrun, hbefore, hafter, hdiffers, hnot,
      fun hcomplete => hnot (hcomplete nodeId hnode core hdiffers)⟩

theorem distinctIds : DistinctIds env [entry.id, exit.id] := by
  have hall : ∀ n ∈ [entry.id, exit.id], ∀ n' ∈ [entry.id, exit.id],
      ∀ c ∈ [CoreType.singBox, .mihomo], ∀ c' ∈ [CoreType.singBox, .mihomo],
        env.markerId n c = env.markerId n' c' → n = n' ∧ c = c' := by decide
  have hcore : ∀ c : CoreType, c ∈ [CoreType.singBox, .mihomo] := fun c => by cases c <;> decide
  exact fun n hn n' hn' c c' => hall n hn n' hn' c (hcore c) c' (hcore c')

theorem fresh_deleteRelayRule : (EditOperation.deleteRelayRule rule.id).Fresh env db :=
  ⟨distinctIds, fun _ _ _ => Or.inr rfl, fun _ h => (nomatch h), fun _ h => (nomatch h)⟩

theorem covered_deleteRelayRule : (EditOperation.deleteRelayRule rule.id).Covered db := by
  rintro nodeId - core ⟨r, hr, htouches⟩
  have hrule : r = rule := (Option.some.inj hr).symm
  subst hrule
  rcases htouches with ⟨hnode, -⟩ | ⟨b, -, hserves⟩
  · refine Or.inl ⟨hnode ▸ List.mem_cons_self, ?_⟩
    cases core with
    | singBox => exact List.mem_cons_self
    | mihomo => exact List.mem_cons_of_mem _ List.mem_cons_self
  · cases hserves

end StaleExit

/-- The deletion of a rule changes its node, which gets a marker. -/
theorem complete_deleteRelayRule : ∃ db', (EditOperation.deleteRelayRule StaleExit.rule.id).run
      StaleExit.env StaleExit.db = .ok () db' ∧
    StaleExit.producedText db' StaleExit.entry.id .singBox ≠
      StaleExit.producedText StaleExit.db StaleExit.entry.id .singBox ∧
    PendingComplete StaleExit.gen StaleExit.db db' := by
  have hchanged : (match (EditOperation.deleteRelayRule StaleExit.rule.id).run StaleExit.env
      StaleExit.db with
    | .ok () db' => decide (StaleExit.producedText db' StaleExit.entry.id .singBox ≠
        StaleExit.producedText StaleExit.db StaleExit.entry.id .singBox)
    | .error _ _ => false) = true := by decide +kernel
  cases hrun : (EditOperation.deleteRelayRule StaleExit.rule.id).run StaleExit.env
      StaleExit.db with
  | error e db' =>
    rw [hrun] at hchanged
    cases hchanged
  | ok u db' =>
    rw [hrun] at hchanged
    exact ⟨db', rfl, of_decide_eq_true hchanged,
      complete_of_covered StaleExit.fresh_deleteRelayRule StaleExit.covered_deleteRelayRule hrun⟩

/-- **Three edits that leave a node stale**: a new binding; a config that changes its core, for
the core it leaves; and the port of an exit, for the node whose rule leads to it. -/
theorem edits_not_complete :
    StaleExit.Misses (.createBinding (.ofNat 7) ⟨StaleExit.entry.id, StaleExit.config.id, none,
      none⟩) StaleExit.entry.id .singBox ∧
    StaleExit.Misses (.updateConfig StaleExit.config.id { coreType := some "mihomo" })
      StaleExit.exit.id .singBox ∧
    StaleExit.Misses (.updateConfig StaleExit.config.id { listenPort := some 8443 })
      StaleExit.entry.id .singBox := by
  refine ⟨StaleExit.misses_of_check rfl ?_, StaleExit.misses_of_check rfl ?_,
    StaleExit.misses_of_check rfl ?_⟩
  · decide
  · decide
  · decide +kernel

end ProxyPanel.Hub
