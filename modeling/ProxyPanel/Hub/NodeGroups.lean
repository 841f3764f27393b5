import ProxyPanel.Hub.Access
import ProxyPanel.Hub.Clients

/-!
# Node groups

The handlers of node groups, which write the group links of bindings, and what they and
`sync_client_groups` do to the question whether a client and a binding share a group.  Each
link is inserted with an identifier drawn for it; `rows_insertEach` needs these to be new.
-/

namespace ProxyPanel.Hub

/-- The bindings of a group, replaced. -/
def syncGroupBindings (db : Db) (groupId : Uuid) (bindingIds : List (Uuid × Uuid)) : Db :=
  let others := db.nodeBindingGroupBindings.deleteWhere (·.groupId = groupId)
  { db with nodeBindingGroupBindings :=
      others.insertEach (bindingIds.map fun b => ⟨b.2, b.1, groupId⟩) }

structure CreateGroupPayload where
  name : String
  description : Option String := none
  labels : Option Json := none
  /-- Each binding with the id of its new link. -/
  bindingIds : Option (List (Uuid × Uuid)) := none

def CreateGroupPayload.group (payload : CreateGroupPayload) (now : DateTime) (id : Uuid) :
    NodeGroup where
  id := id
  name := payload.name
  description := payload.description.filter (· ≠ "")
  labels := payload.labels
  updatedAt := now

def createGroup (now : DateTime) (id : Uuid) (payload : CreateGroupPayload) (db : Db) : ApiResult Db :=
  if Text.trim payload.name = "" then .error (.badRequest "invalid_name" "group name is required")
  else
    match db.nodeGroups.insert (payload.group now id) with
    | none => .error (.internal "database operation failed")
    | some nodeGroups => .ok (match payload.bindingIds with
      | some bindingIds => syncGroupBindings { db with nodeGroups } id bindingIds
      | none => { db with nodeGroups })

structure UpdateGroupPayload where
  name : Option String := none
  description : Option String := none
  labels : Option Json := none
  /-- Each binding with the id of its new link. -/
  bindingIds : Option (List (Uuid × Uuid)) := none

/-- The row after an update.  The description is always replaced. -/
def UpdateGroupPayload.apply (payload : UpdateGroupPayload) (now : DateTime) (g : NodeGroup) :
    NodeGroup :=
  { g with
    name := payload.name.getD g.name
    description := payload.description
    labels := payload.labels.or g.labels
    updatedAt := now }

def updateGroup (now : DateTime) (id : Uuid) (payload : UpdateGroupPayload) (db : Db) : ApiResult Db :=
  match db.nodeGroups.find id with
  | none => .error (.notFound "node group not found")
  | some _ =>
    if payload.name.any (Text.trim · = "") then
      .error (.badRequest "invalid_name" "group name cannot be empty")
    else
      let nodeGroups := db.nodeGroups.update id (payload.apply now)
      .ok (match payload.bindingIds with
        | some bindingIds => syncGroupBindings { db with nodeGroups } id bindingIds
        | none => { db with nodeGroups })

/-- The row of a group.  Its links to bindings and clients stay. -/
def deleteGroup (id : Uuid) (db : Db) : ApiResult Db :=
  match db.nodeGroups.find id with
  | none => .error (.notFound "node group not found")
  | some _ => .ok { db with nodeGroups := db.nodeGroups.deleteWhere (·.id = id) }

/-! ### What a successful request has done -/

section Done

variable {db db' : Db} {now : DateTime} {id : Uuid}

/-- The group row is written and, when bindings are given, its links are replaced. -/
theorem createGroup_ok {payload : CreateGroupPayload}
    (h : createGroup now id payload db = .ok db') :
    ∃ nodeGroups, db.nodeGroups.insert (payload.group now id) = some nodeGroups ∧
      db' = (match payload.bindingIds with
        | some bindingIds => syncGroupBindings { db with nodeGroups } id bindingIds
        | none => { db with nodeGroups }) := by
  rw [createGroup] at h
  split at h
  · cases h
  · split at h
    · cases h
    · rename_i nodeGroups hinsert
      cases h
      exact ⟨nodeGroups, hinsert, rfl⟩

theorem updateGroup_ok {payload : UpdateGroupPayload}
    (h : updateGroup now id payload db = .ok db') :
    (∃ g, db.nodeGroups.find id = some g) ∧ ∃ nodeGroups,
      nodeGroups = db.nodeGroups.update id (payload.apply now) ∧
      db' = (match payload.bindingIds with
        | some bindingIds => syncGroupBindings { db with nodeGroups } id bindingIds
        | none => { db with nodeGroups }) := by
  rw [updateGroup] at h
  split at h
  · cases h
  · rename_i g hg
    split at h
    · cases h
    · cases h
      exact ⟨⟨g, hg⟩, _, rfl, rfl⟩

theorem deleteGroup_ok (h : deleteGroup id db = .ok db') : ∃ nodeGroups,
    nodeGroups = db.nodeGroups.deleteWhere (·.id = id) ∧ db' = { db with nodeGroups } := by
  rw [deleteGroup] at h
  split at h
  · cases h
  · cases h
    exact ⟨_, rfl, rfl⟩

end Done

/-! ### Groups that are shared -/

theorem mem_bindingGroupIds {db : Db} {bindingId groupId : Uuid} :
    groupId ∈ bindingGroupIds db bindingId ↔ ∃ link ∈ db.nodeBindingGroupBindings.rows,
      link.nodeBindingId = bindingId ∧ link.groupId = groupId := by
  simp only [bindingGroupIds, List.mem_map, Table.mem_filter, decide_eq_true_eq, and_assoc]

theorem mem_clientGroupIds {db : Db} {clientId groupId : Uuid} :
    groupId ∈ clientGroupIds db clientId ↔ ∃ link ∈ db.clientGroupBindings.rows,
      link.clientId = clientId ∧ link.groupId = groupId := by
  simp only [clientGroupIds, List.mem_map, Table.mem_filter, decide_eq_true_eq, and_assoc]

section Links

variable {db : Db} {groupId clientId bindingId : Uuid}

/-- The identifiers of new links are new. -/
def NewBindingLinks (db : Db) (bindingIds : List (Uuid × Uuid)) : Prop :=
  (db.nodeBindingGroupBindings.rows.map (·.id) ++ bindingIds.map Prod.snd).Nodup

def NewClientLinks (db : Db) (groupIds : List (Uuid × Uuid)) : Prop :=
  (db.clientGroupBindings.rows.map (·.id) ++ groupIds.map Prod.snd).Nodup

instance (db : Db) (bindingIds : List (Uuid × Uuid)) : Decidable (NewBindingLinks db bindingIds) :=
  inferInstanceAs (Decidable (List.Nodup _))

instance (db : Db) (groupIds : List (Uuid × Uuid)) : Decidable (NewClientLinks db groupIds) :=
  inferInstanceAs (Decidable (List.Nodup _))

/-- **A binding after the links of a group are replaced**: in its other groups as before, in
this one if it is listed. -/
theorem mem_bindingGroupIds_sync {bindingIds : List (Uuid × Uuid)}
    (hnew : NewBindingLinks db bindingIds) {g : Uuid} :
    g ∈ bindingGroupIds (syncGroupBindings db groupId bindingIds) bindingId ↔
      if g = groupId then bindingId ∈ bindingIds.map Prod.fst
      else g ∈ bindingGroupIds db bindingId := by
  have hrows : (syncGroupBindings db groupId bindingIds).nodeBindingGroupBindings.rows =
      (db.nodeBindingGroupBindings.deleteWhere (·.groupId = groupId)).rows ++
        bindingIds.map fun b => ⟨b.2, b.1, groupId⟩ := by
    refine Table.rows_insertEach ?_
    rw [List.map_append, List.map_map]
    refine hnew.sublist (List.Sublist.append ?_ (List.Sublist.refl _))
    exact List.filter_sublist.map _
  rw [mem_bindingGroupIds, hrows]
  simp only [List.mem_append, Table.mem_deleteWhere, decide_eq_false_iff_not, List.mem_map]
  constructor
  · rintro ⟨link, ⟨hlink, hother⟩ | ⟨b, hb, rfl⟩, hbinding, rfl⟩
    · rw [if_neg hother]
      exact mem_bindingGroupIds.mpr ⟨link, hlink, hbinding, rfl⟩
    · rw [if_pos rfl]
      exact ⟨b, hb, hbinding⟩
  · intro h
    by_cases hg : g = groupId
    · subst hg
      rw [if_pos rfl] at h
      obtain ⟨b, hb, rfl⟩ := h
      exact ⟨_, Or.inr ⟨b, hb, rfl⟩, rfl, rfl⟩
    · rw [if_neg hg] at h
      obtain ⟨link, hlink, hbinding, rfl⟩ := mem_bindingGroupIds.mp h
      exact ⟨link, Or.inl ⟨hlink, hg⟩, hbinding, rfl⟩

/-- A client after its groups are replaced: in those that are listed, other clients as before. -/
theorem mem_clientGroupIds_sync {groupIds : List (Uuid × Uuid)} {k : Uuid}
    (hnew : NewClientLinks db groupIds) {g : Uuid} :
    g ∈ clientGroupIds (syncClientGroups db clientId groupIds) k ↔
      if k = clientId then g ∈ groupIds.map Prod.fst else g ∈ clientGroupIds db k := by
  have hrows : (syncClientGroups db clientId groupIds).clientGroupBindings.rows =
      (db.clientGroupBindings.deleteWhere (·.clientId = clientId)).rows ++
        groupIds.map fun g => ⟨g.2, clientId, g.1⟩ := by
    have hsync : (syncClientGroups db clientId groupIds).clientGroupBindings =
        (db.clientGroupBindings.deleteWhere (·.clientId = clientId)).insertEach
          (groupIds.map fun g => ⟨g.2, clientId, g.1⟩) := by
      rw [Table.insertEach, List.foldl_map]
      rfl
    rw [hsync]
    refine Table.rows_insertEach ?_
    rw [List.map_append, List.map_map]
    refine hnew.sublist (List.Sublist.append ?_ (List.Sublist.refl _))
    exact List.filter_sublist.map _
  rw [mem_clientGroupIds, hrows]
  simp only [List.mem_append, Table.mem_deleteWhere, decide_eq_false_iff_not, List.mem_map]
  constructor
  · rintro ⟨link, ⟨hlink, hother⟩ | ⟨g', hg', rfl⟩, rfl, rfl⟩
    · rw [if_neg hother]
      exact mem_clientGroupIds.mpr ⟨link, hlink, rfl, rfl⟩
    · rw [if_pos rfl]
      exact ⟨g', hg', rfl⟩
  · intro h
    by_cases hk : k = clientId
    · subst hk
      rw [if_pos rfl] at h
      obtain ⟨g', hg', rfl⟩ := h
      exact ⟨_, Or.inr ⟨g', hg', rfl⟩, rfl, rfl⟩
    · rw [if_neg hk] at h
      obtain ⟨link, hlink, rfl, rfl⟩ := mem_clientGroupIds.mp h
      exact ⟨link, Or.inl ⟨hlink, hk⟩, rfl, rfl⟩

end Links

end ProxyPanel.Hub
