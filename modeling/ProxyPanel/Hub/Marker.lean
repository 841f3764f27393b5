import ProxyPanel.Hub.Push

/-!
# Pending markers

A row of `node_pending_updates` says that the configuration of a node and core has
changed since it was pushed.  `mark_pending` looks for the row of each node and
updates or inserts it, two statements for a node; `clearPending` deletes it.  Nothing that
generates a configuration reads these rows (`respects_generateNodeConfig`).
-/

namespace ProxyPanel.Hub

open Json Query

/-- The row of a node and core. -/
def findPending (db : Db) (nodeId : Uuid) (core : CoreType) : Option NodePendingUpdate :=
  db.nodePendingUpdates.one fun r => r.nodeId = nodeId ∧ r.coreType = core.toStr

def HasPending (db : Db) (nodeId : Uuid) (core : CoreType) : Prop :=
  ∃ r ∈ db.nodePendingUpdates.rows, r.nodeId = nodeId ∧ r.coreType = core.toStr

def setPendingUpdates (db : Db) (rows : Table NodePendingUpdate) : Db :=
  { db with nodePendingUpdates := rows }

/-- The update of a row that was found.  It is an error when the row is gone. -/
def updatePending (db : Db) (id : Uuid) (updateType : String) (now : DateTime) : Option Db :=
  if (db.nodePendingUpdates.find id).isSome then
    some (setPendingUpdates db (db.nodePendingUpdates.update id fun r =>
      { r with updateType := updateType, updatedAt := now }))
  else none

/-- The insertion of a row.  Node and core are unique. -/
def insertPending (db : Db) (row : NodePendingUpdate) : Option Db :=
  if db.nodePendingUpdates.rows.any fun r => r.nodeId = row.nodeId ∧ r.coreType = row.coreType then
    none
  else (db.nodePendingUpdates.insert row).map (setPendingUpdates db)

theorem hasPending_of_findPending {db : Db} {nodeId : Uuid} {core : CoreType}
    {row : NodePendingUpdate} (h : findPending db nodeId core = some row) :
    row ∈ db.nodePendingUpdates.rows ∧ row.nodeId = nodeId ∧ row.coreType = core.toStr := by
  have hrow := List.find?_some h
  simp only [Bool.decide_and, Bool.and_eq_true, decide_eq_true_eq] at hrow
  exact ⟨List.mem_of_find?_eq_some h, hrow⟩

/-- The update of a row keeps node and core of every row. -/
theorem hasPending_updatePending {db db' : Db} {id : Uuid} {updateType : String} {now : DateTime}
    (h : updatePending db id updateType now = some db') {row : NodePendingUpdate}
    (hrow : row ∈ db.nodePendingUpdates.rows) :
    ∃ row' ∈ db'.nodePendingUpdates.rows,
      row'.id = row.id ∧ row'.nodeId = row.nodeId ∧ row'.coreType = row.coreType := by
  rw [updatePending] at h
  split at h
  · cases h
    refine ⟨_, List.mem_map_of_mem hrow, ?_⟩
    split <;> exact ⟨rfl, rfl, rfl⟩
  · cases h

theorem mem_of_insertPending {db db' : Db} {row : NodePendingUpdate}
    (h : insertPending db row = some db') :
    db'.nodePendingUpdates.rows = db.nodePendingUpdates.rows ++ [row] := by
  rw [insertPending] at h
  split at h
  · cases h
  · obtain ⟨table, htable, rfl⟩ := Option.map_eq_some_iff.mp h
    exact Table.rows_of_insert htable

theorem hasPending_of_insertPending_eq_none {db : Db} {row : NodePendingUpdate}
    (hfresh : db.nodePendingUpdates.find row.id = none) (h : insertPending db row = none) :
    ∃ r ∈ db.nodePendingUpdates.rows, r.nodeId = row.nodeId ∧ r.coreType = row.coreType := by
  rw [insertPending] at h
  split at h
  · rename_i hany
    obtain ⟨r, hr, heq⟩ := List.any_eq_true.mp hany
    exact ⟨r, hr, of_decide_eq_true heq⟩
  · rw [Option.map_eq_none_iff, Table.insert] at h
    split at h
    · rename_i hmem
      obtain ⟨r, hr, hkey⟩ := List.mem_map.mp hmem
      exact absurd hkey (Table.find_eq_none_iff.mp hfresh r hr)
    · cases h

theorem mem_clearPending {db : Db} {nodeId : Uuid} {core : CoreType} {row : NodePendingUpdate} :
    row ∈ (clearPending db nodeId core).nodePendingUpdates.rows ↔
      row ∈ db.nodePendingUpdates.rows ∧ ¬ (row.nodeId = nodeId ∧ row.coreType = core.toStr) := by
  rw [clearPending]
  simp only [Table.mem_deleteWhere, decide_eq_false_iff_not]

/-! ### What does not read markers -/

/-- Two databases that differ in markers at most. -/
def SameContents (db db' : Db) : Prop := ∃ rows, db' = setPendingUpdates db rows

theorem SameContents.refl (db : Db) : SameContents db db := ⟨db.nodePendingUpdates, rfl⟩

theorem sameContents_clearPending (db : Db) (nodeId : Uuid) (core : CoreType) :
    SameContents db (clearPending db nodeId core) := ⟨_, rfl⟩

theorem sameContents_of_updatePending {db db' : Db} {id : Uuid} {updateType : String}
    {now : DateTime} (h : updatePending db id updateType now = some db') : SameContents db db' := by
  rw [updatePending] at h
  split at h
  · cases h
    exact ⟨_, rfl⟩
  · cases h

theorem sameContents_of_insertPending {db db' : Db} {row : NodePendingUpdate}
    (h : insertPending db row = some db') : SameContents db db' := by
  rw [insertPending] at h
  split at h
  · cases h
  · obtain ⟨rows, -, rfl⟩ := Option.map_eq_some_iff.mp h
    exact ⟨rows, rfl⟩

/-- A statement on other tables. -/
theorem same_read {α : Type} {f : Db → α} (h : ∀ db rows, f (setPendingUpdates db rows) = f db) :
    ∀ db db', SameContents db db' → f db = f db' := by
  rintro db db' ⟨rows, rfl⟩
  exact (h db rows).symm

/-- The databases agree on the rows that are looked up by their id. -/
structure SameFinds (db db' : Db) : Prop where
  nodes : ∀ id, db.nodes.find id = db'.nodes.find id
  nodeBindings : ∀ id, db.nodeBindings.find id = db'.nodeBindings.find id
  protocolConfigs : ∀ id, db.protocolConfigs.find id = db'.protocolConfigs.find id
  certificates : ∀ id, db.certificates.find id = db'.certificates.find id

theorem sameFinds_of_sameContents (db db' : Db) (h : SameContents db db') : SameFinds db db' := by
  obtain ⟨rows, rfl⟩ := h
  exact ⟨fun _ => rfl, fun _ => rfl, fun _ => rfl, fun _ => rfl⟩

theorem respects_mapErr {α : Type} {f : PanelError → PanelError} {m : Program α}
    (h : m.Respects SameContents) : (mapErr f m).Respects SameContents := by
  induction m with
  | pure a => trivial
  | throw e => trivial
  | ask k ih =>
    exact ⟨fun db db' hdb => congrArg (mapErr f) (h.1 db db' hdb), fun db => ih db (h.2 db)⟩

theorem respects_injectBindingClients (binding : NodeBinding) (protocolType : String)
    (settings : Json) :
    (injectBindingClients binding protocolType settings).Respects SameContents := by
  refine respects_read_bind (same_read fun _ _ => rfl) fun groups => ?_
  dsimp only
  split
  · exact respects_pure _
  refine respects_read_bind (same_read fun _ _ => rfl) fun clients => ?_
  split
  · exact respects_pure _
  exact respects_read_bind (same_read fun _ _ => rfl) fun _ => respects_pure _

theorem respects_resolveManagedCertTls (nodeId : Uuid) (tls : Option Json) :
    (resolveManagedCertTls nodeId tls).Respects SameFinds := by
  rw [resolveManagedCertTls.eq_def]
  split
  · exact respects_pure _
  split
  · exact respects_pure _
  split
  · exact respects_throw _
  refine respects_read_bind (fun _ _ h => h.certificates _) fun cert => ?_
  split
  · exact respects_throw _
  split
  · exact respects_throw _
  · exact respects_pure _

theorem respects_bindingInbound (nodeId : Uuid) (core : CoreType) (version : Option String)
    (binding : NodeBinding) :
    (bindingInbound nodeId core version binding).Respects SameContents := by
  refine respects_read_bind (same_read fun _ _ => rfl) fun config => ?_
  split
  · exact respects_throw _
  split
  · exact respects_pure _
  refine respects_bind (respects_lift _) fun protocol => ?_
  refine respects_bind (respects_injectBindingClients ..) fun settings => ?_
  exact respects_bind ((respects_resolveManagedCertTls ..).mono sameFinds_of_sameContents)
    fun tls => respects_pure _

theorem respects_resolveRelaySni (binding : NodeBinding) :
    (resolveRelaySni binding).Respects SameFinds := by
  rw [resolveRelaySni]
  split
  · exact respects_pure _
  dsimp only
  split
  · exact respects_pure _
  refine respects_read_bind (fun _ _ h => h.certificates _) fun cert => ?_
  split
  · exact respects_pure _
  · exact respects_pure _

theorem respects_applyRelayRule (core : CoreType) (config : Json) (rule : RelayRule) :
    (applyRelayRule core config rule).Respects SameFinds := by
  refine respects_read_bind (fun _ _ h => h.nodeBindings _) fun binding => ?_
  split
  · exact respects_pure _
  refine respects_read_bind (fun _ _ h => h.protocolConfigs _) fun exitCfg => ?_
  split
  · exact respects_pure _
  refine respects_read_bind (fun _ _ h => h.nodes _) fun exitNode => ?_
  split
  · exact respects_pure _
  split
  · exact respects_pure _
  refine respects_bind (respects_resolveRelaySni _) fun tlsSni => ?_
  exact respects_bind (respects_lift _) fun outbound => respects_pure _

theorem respects_generateNodeConfig (gen : GenEnv) (nodeId : Uuid) (core : CoreType) :
    (generateNodeConfig gen nodeId core).Respects SameContents := by
  refine respects_read_bind (same_read fun _ _ => rfl) fun version => ?_
  refine respects_read_bind (same_read fun _ _ => rfl) fun bindings => ?_
  refine respects_bind (respects_collect (respects_bindingInbound nodeId core version) _)
    fun inbounds => ?_
  refine respects_bind (respects_lift _) fun config => ?_
  refine respects_bind ?_ fun config' => ?_
  · exact respects_read_bind (same_read fun _ _ => rfl) fun rules =>
      respects_loop (fun config rule => (respects_applyRelayRule core config rule).mono
        sameFinds_of_sameContents) rules config
  · split
    · exact respects_bind (respects_lift _) fun _ => respects_pure _
    · exact respects_pure _

theorem respects_coreBuildIdOf (core : CoreType) (version : Option String) :
    (coreBuildIdOf core version).Respects fun d d' => d.coreVersions = d'.coreVersions := by
  rw [coreBuildIdOf]
  split
  · exact respects_pure _
  · exact respects_read fun d d' h => by rw [h]

theorem respects_checkPort (used : List (String × Nat × CoreType)) (binding : NodeBinding) :
    (checkPort used binding).Respects SameContents := by
  refine respects_read_bind (same_read fun _ _ => rfl) fun config => ?_
  split
  · exact respects_pure _
  dsimp only
  split
  · exact respects_throw _
  · exact respects_pure _

end ProxyPanel.Hub
