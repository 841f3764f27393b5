import ProxyPanel.Hub.RelayClosure
import ProxyPanel.Hub.Stepwise

/-!
# Handlers that fail halfway

Six handlers write several rows without a transaction.  `Harmless` says of a database and a
request that every error, whichever statement fails, leaves the database as it was;
`atomic_iff_harmless` proves that it does not more often.  A request that writes only once, or
whose writes change nothing, is harmless; a group is never created harmlessly.
-/

namespace ProxyPanel.Hub.Atomicity

open Script Stepwise

/-- The requests, with the identifiers they draw. -/
inductive Request where
  | updateRelayRule (ids : RelayIds) (id : Uuid) (payload : UpdateRelayRulePayload)
  | updateClient (id : Uuid) (payload : UpdateClientPayload)
  | saveCoreVersions (versions : List SaveVersionItem)
  | createGroup (id : Uuid) (payload : CreateGroupPayload)
  | updateGroup (id : Uuid) (payload : UpdateGroupPayload)
  | deleteConfig (id : Uuid)

def Request.statements (env : EditEnv) : Request → Statements Unit
  | .updateRelayRule ids id payload => Stepwise.updateRelayRule env ids id payload
  | .updateClient id payload => Stepwise.updateClient env.now id payload
  | .saveCoreVersions versions => Stepwise.saveCoreVersions versions
  | .createGroup id payload => Stepwise.createGroup env.now id payload
  | .updateGroup id payload => Stepwise.updateGroup env.now id payload
  | .deleteConfig id => Stepwise.deleteConfig env id

/-- The identifiers that are drawn are new. -/
def Request.Fresh (db : Db) : Request → Prop
  | .updateRelayRule ids _ _ => db.clients.find ids.clientId = none
  | .updateClient _ payload => NewClientLinks db (payload.groupIds.getD [])
  | .saveCoreVersions versions => ∀ item ∈ versions, db.coreVersions.find item.newId = none
  | .createGroup id _ => db.nodeGroups.find id = none
  | .updateGroup _ payload => NewBindingLinks db (payload.bindingIds.getD [])
  | .deleteConfig _ => True

/-- The row of a version is inserted or refreshed. -/
def writesVersion (db : Db) (item : SaveVersionItem) : Bool :=
  match item.validate with
  | .error _ => false
  | .ok (core, version) =>
    match findVersion db core version with
    | some row => isStale row.publishedAt item.publishedAt
    | none => true

/-- Of the versions up to the first that is refused, only the last of the list is written. -/
def OnlyLastWrites (db : Db) : List SaveVersionItem → Prop
  | [] => True
  | [_] => True
  | item :: next :: rest => item.validate.isOk = true →
      writesVersion db item = false ∧ OnlyLastWrites db (next :: rest)

/-- When every error leaves the database as it was. -/
def Harmless (env : EditEnv) (db : Db) : Request → Prop
  | .updateRelayRule ids id payload => ∀ rule, db.relayRules.find id = some rule →
      Hub.validateRelayPayload db rule.nodeId (payload.exitBindingId.getD rule.exitBindingId)
        (payload.matchType.getD rule.matchType) (payload.matchConfig.getD rule.matchConfig) =
          .ok () →
      payload.movesExit rule = false ∧ (payload.name.any (Text.trim · = "") = true ∨
        payload.apply env.now ids.clientId rule = rule)
  | .updateClient id payload => ∀ c, db.clients.find id = some c →
      payload.name.any (Text.trim · = "") = false →
      ∀ groupIds, payload.groupIds = some groupIds → payload.apply env.now c = c ∧
        (groupIds = [] ∨ groupIds.length = 1 ∧ clientGroupIds db id = [])
  | .saveCoreVersions versions => OnlyLastWrites db versions
  | .createGroup _ payload => Text.trim payload.name = ""
  | .updateGroup id payload => ∀ g, db.nodeGroups.find id = some g →
      payload.name.any (Text.trim · = "") = false → payload.apply env.now g = g ∧
        ∀ bindingIds, payload.bindingIds = some bindingIds → bindingIds = [] ∧
          ∀ link ∈ db.nodeBindingGroupBindings.rows, link.groupId ≠ id
  | .deleteConfig id => ∀ b ∈ db.nodeBindings.rows, b.protocolConfigId ≠ id

/-! ### Clients -/

section

variable {env : EditEnv} {db : Db} {id : Uuid}

theorem clients_eq_iff {clients : Table Client} :
    { db with clients } = db ↔ clients = db.clients :=
  ⟨fun h => congrArg Db.clients h, fun h => by rw [h]⟩

theorem clientGroupBindings_eq_iff {links : Table ClientGroupBinding} :
    { db with clientGroupBindings := links } = db ↔ links = db.clientGroupBindings :=
  ⟨fun h => congrArg Db.clientGroupBindings h, fun h => by rw [h]⟩

theorem clientGroupIds_eq_nil_iff {clientId : Uuid} :
    db.clientGroupBindings.deleteWhere (·.clientId = clientId) = db.clientGroupBindings ↔
      clientGroupIds db clientId = [] := by
  rw [Table.deleteWhere_eq_self_iff, clientGroupIds, List.map_eq_nil_iff]
  refine Iff.trans ?_ List.filter_eq_nil_iff.symm
  simp only [Bool.not_eq_true]

/-- The links are written one by one: the first of two is already a change. -/
theorem restores_insertClientLinks_iff {clientId : Uuid} {s : Db} {groupIds : List (Uuid × Uuid)}
    (hnew : NewClientLinks db groupIds) :
    (forEach (insertClientLink clientId) groupIds).Restores db s ↔
      groupIds = [] ∨ groupIds.length = 1 ∧ s = db := by
  match groupIds with
  | [] => exact iff_of_true (restores_pure ()) (Or.inl rfl)
  | [g] =>
    rw [forEach, insertClientLink, restores_tryWrite_bind_iff]
    simp only [List.cons_ne_nil, List.length_singleton, true_and, false_or, and_iff_left_iff_imp]
    exact fun _ _ _ => restores_pure ()
  | g :: g' :: rest =>
    rw [forEach, insertClientLink, restores_tryWrite_bind_iff]
    refine iff_of_false ?_ (by simp)
    rintro ⟨rfl, h⟩
    have hfresh : key (⟨g.2, clientId, g.1⟩ : ClientGroupBinding) ∉
        s.clientGroupBindings.rows.map key := by
      intro hmem
      exact (List.nodup_append.mp hnew).2.2 _ hmem _ List.mem_cons_self rfl
    obtain ⟨links, hinsert, -⟩ := Table.insert_of_fresh hfresh
    have hnext := h { s with clientGroupBindings := links } (by rw [hinsert]; rfl)
    rw [forEach, insertClientLink, restores_tryWrite_bind_iff] at hnext
    exact Table.ne_of_insert hinsert (clientGroupBindings_eq_iff.mp hnext.1)

theorem updateClient_iff {payload : UpdateClientPayload}
    (hnew : NewClientLinks db (payload.groupIds.getD [])) :
    (Stepwise.updateClient env.now id payload).Atomic db ↔
      Harmless env db (.updateClient id payload) := by
  rw [Atomic, Stepwise.updateClient, restores_self_query_bind_iff, restores_self_orThrow_bind_iff,
    Harmless]
  refine forall₂_congr fun c hc => ?_
  have hrow : db.clients.update id (payload.apply env.now) = db.clients ↔
      payload.apply env.now c = c :=
    Table.update_eq_self_iff (f := payload.apply env.now) (fun _ => rfl) hc
  rw [restores_self_check_bind_iff, Bool.not_eq_true]
  refine imp_congr_right fun _ => ?_
  rw [restores_self_write_bind_iff]
  cases hgiven : payload.groupIds with
  | none => exact iff_of_true (restores_pure ()) (fun _ h => by cases h)
  | some groupIds =>
    rw [hgiven] at hnew
    have hnew : NewClientLinks db groupIds := hnew
    simp only [Option.elim_some, Option.some.injEq, forall_eq']
    rw [Stepwise.syncClientGroups, restores_write_bind_iff, restores_insertClientLinks_iff hnew,
      clients_eq_iff, hrow]
    refine and_congr_right fun hsame => or_congr_right (and_congr_right fun _ => ?_)
    rw [hrow.mpr hsame, clientGroupBindings_eq_iff]
    exact clientGroupIds_eq_nil_iff

/-! ### Node groups -/

theorem nodeGroups_eq_iff {nodeGroups : Table NodeGroup} :
    { db with nodeGroups } = db ↔ nodeGroups = db.nodeGroups :=
  ⟨fun h => congrArg Db.nodeGroups h, fun h => by rw [h]⟩

theorem nodeBindingGroupBindings_eq_iff {links : Table NodeBindingGroupBinding} :
    { db with nodeBindingGroupBindings := links } = db ↔ links = db.nodeBindingGroupBindings :=
  ⟨fun h => congrArg Db.nodeBindingGroupBindings h, fun h => by rw [h]⟩

/-- The answer is read at the end, which may fail. -/
theorem restores_answer_iff {groupId : Uuid} {s : Db} :
    (bindingIdsOf groupId >>= fun _ => (pure () : Statements Unit)).Restores db s ↔ s = db := by
  rw [bindingIdsOf, restores_query_bind_iff]
  exact and_iff_left (restores_pure ())

theorem restores_insertBindingLinks_iff {groupId : Uuid} {s : Db}
    {bindingIds : List (Uuid × Uuid)} (hnew : NewBindingLinks db bindingIds) :
    (forEach (insertBindingLink groupId) bindingIds >>= fun _ =>
        bindingIdsOf groupId >>= fun _ => pure ()).Restores db s ↔ bindingIds = [] ∧ s = db := by
  cases bindingIds with
  | nil => exact restores_answer_iff.trans (and_iff_right rfl).symm
  | cons b rest =>
    rw [forEach, bind_assoc, insertBindingLink, restores_tryWrite_bind_iff]
    refine iff_of_false ?_ (fun h => by cases h.1)
    rintro ⟨rfl, h⟩
    have hfresh : key (⟨b.2, b.1, groupId⟩ : NodeBindingGroupBinding) ∉
        s.nodeBindingGroupBindings.rows.map key := by
      intro hmem
      exact (List.nodup_append.mp hnew).2.2 _ hmem _ List.mem_cons_self rfl
    obtain ⟨links, hinsert, -⟩ := Table.insert_of_fresh hfresh
    have hnext := h { s with nodeBindingGroupBindings := links } (by rw [hinsert]; rfl)
    refine Table.ne_of_insert hinsert (nodeBindingGroupBindings_eq_iff.mp ?_)
    cases rest with
    | nil => exact restores_answer_iff.mp hnext
    | cons b' rest =>
      rw [forEach, bind_assoc, insertBindingLink, restores_tryWrite_bind_iff] at hnext
      exact hnext.1

theorem restores_syncGiven_iff {groupId : Uuid} {s : Db} {given : Option (List (Uuid × Uuid))}
    (hnew : NewBindingLinks db (given.getD [])) :
    (given.elim (pure ()) (Stepwise.syncGroupBindings groupId) >>= fun _ =>
        bindingIdsOf groupId >>= fun _ => pure ()).Restores db s ↔ s = db ∧
      ∀ bindingIds, given = some bindingIds → bindingIds = [] ∧
        ∀ link ∈ db.nodeBindingGroupBindings.rows, link.groupId ≠ groupId := by
  cases given with
  | none =>
    refine restores_answer_iff.trans (and_iff_left ?_).symm
    exact fun _ h => nomatch h
  | some bindingIds =>
    have hnew : NewBindingLinks db bindingIds := hnew
    simp only [Option.elim_some, Option.some.injEq, forall_eq']
    rw [Stepwise.syncGroupBindings, bind_assoc, restores_write_bind_iff,
      restores_insertBindingLinks_iff hnew]
    refine and_congr_right fun hs => and_congr_right fun _ => ?_
    subst hs
    rw [nodeBindingGroupBindings_eq_iff, Table.deleteWhere_eq_self_iff]
    simp only [decide_eq_false_iff_not, ne_eq]

/-- The new row is there before the next statement. -/
theorem createGroup_iff {payload : CreateGroupPayload} (hnew : db.nodeGroups.find id = none) :
    (Stepwise.createGroup env.now id payload).Atomic db ↔
      Harmless env db (.createGroup id payload) := by
  have hfresh : key (payload.group env.now id) ∉ db.nodeGroups.rows.map key := by
    intro hmem
    obtain ⟨g, hg, hkey⟩ := List.mem_map.mp hmem
    exact Table.find_eq_none_iff.mp hnew g hg hkey
  obtain ⟨nodeGroups, hinsert, -⟩ := Table.insert_of_fresh hfresh
  have hgrown : { db with nodeGroups } ≠ db :=
    fun h => Table.ne_of_insert hinsert (nodeGroups_eq_iff.mp h)
  rw [Atomic, Stepwise.createGroup, restores_self_check_bind_iff, Harmless]
  simp only [restores_self_tryWrite_bind_iff, hinsert, Option.map_some, Option.some.injEq,
    forall_eq']
  rw [← not_iff_not, Classical.not_imp, and_iff_left_iff_imp]
  intro _ h
  refine hgrown ?_
  cases hgiven : payload.bindingIds with
  | none =>
    rw [hgiven] at h
    exact restores_answer_iff.mp h
  | some bindingIds =>
    rw [hgiven, Option.elim_some, Stepwise.syncGroupBindings, bind_assoc,
      restores_write_bind_iff] at h
    exact h.1

theorem updateGroup_iff {payload : UpdateGroupPayload}
    (hnew : NewBindingLinks db (payload.bindingIds.getD [])) :
    (Stepwise.updateGroup env.now id payload).Atomic db ↔
      Harmless env db (.updateGroup id payload) := by
  rw [Atomic, Stepwise.updateGroup, restores_self_query_bind_iff, restores_self_orThrow_bind_iff,
    Harmless]
  refine forall₂_congr fun g hg => ?_
  rw [restores_self_check_bind_iff, Bool.not_eq_true]
  refine imp_congr_right fun _ => ?_
  rw [restores_self_write_bind_iff, restores_syncGiven_iff hnew, nodeGroups_eq_iff,
    Table.update_eq_self_iff (f := payload.apply env.now) (fun _ => rfl) hg]

/-! ### Protocol configs -/

theorem answers_markBoth (nodeIds : List Uuid) : (Stepwise.markBoth env nodeIds).Answers :=
  answers_logged_bind _ (answers_logged _)

/-- With nothing to delete before it, the deletion of the config is the only write. -/
theorem restores_deleteConfig (nodeIds : List Uuid) :
    (change dbError (withoutConfig id) (fun db => (db.protocolConfigs.find id).isSome) >>=
      fun found => lift (if found then .ok ()
        else .error (.notFound "protocol config not found")) >>=
      fun _ => Stepwise.markBoth env nodeIds).Restores db db := by
  refine restores_change_bind_iff.mpr ⟨rfl, ?_⟩
  cases hfind : db.protocolConfigs.find id with
  | some config => exact restores_of_answers (answers_markBoth nodeIds)
  | none =>
    rw [withoutConfig_of_find_eq_none hfind]
    exact restores_throw_iff.mpr rfl

theorem deleteConfig_iff :
    (Stepwise.deleteConfig env id).Atomic db ↔ Harmless env db (.deleteConfig id) := by
  rw [Atomic, Stepwise.deleteConfig, restores_self_query_bind_iff, Harmless, deleteBindings]
  have hnone : db.nodeBindings.filter (·.protocolConfigId = id) = [] ↔
      ∀ b ∈ db.nodeBindings.rows, b.protocolConfigId ≠ id := by
    refine List.filter_eq_nil_iff.trans ?_
    simp only [decide_eq_true_eq, ne_eq]
  rw [← hnone]
  cases hbindings : db.nodeBindings.filter (·.protocolConfigId = id) with
  | nil => exact iff_of_true (restores_deleteConfig _) rfl
  | cons b rest =>
    refine iff_of_false (fun h => ?_) (List.cons_ne_nil b rest)
    -- the links and the bindings are gone when the deletion of the config fails
    rw [if_neg (by simp), bind_assoc, restores_logged_write_bind_iff] at h
    have hlast := (restores_logged_write_bind_iff.mp h.2).2
    obtain ⟨hsame, -⟩ := restores_change_bind_iff.mp hlast
    have htable := Table.deleteWhere_eq_self_iff.mp (congrArg Db.nodeBindings hsame)
    have hb : b ∈ db.nodeBindings.rows :=
      (Table.mem_filter.mp (hbindings ▸ List.mem_cons_self)).1
    exact absurd (htable b hb) (by simp)

/-! ### Core versions -/

theorem coreVersions_eq_iff {coreVersions : Table CoreVersion} :
    { db with coreVersions } = db ↔ coreVersions = db.coreVersions :=
  ⟨fun h => congrArg Db.coreVersions h, fun h => by rw [h]⟩

/-- Saving a version starts with a check or a query, which may fail. -/
theorem eq_of_restores_saveVersion {item : SaveVersionItem} {s : Db} {g : Unit → Statements Unit}
    (h : (saveVersion item >>= g).Restores db s) : s = db := by
  rw [saveVersion, bind_assoc] at h
  cases hvalidate : item.validate with
  | error e =>
    rw [hvalidate, lift_error_bind, restores_throw_iff] at h
    exact h
  | ok parsed =>
    rw [hvalidate, lift_ok_bind, bind_assoc, restores_query_bind_iff] at h
    exact h.1

/-- A refreshed row is another one. -/
theorem ne_of_isStale {row : CoreVersion} {item : SaveVersionItem}
    (h : isStale row.publishedAt item.publishedAt = true) : refreshed item row ≠ row := by
  intro hsame
  have hpublished : item.publishedAt = row.publishedAt := congrArg CoreVersion.publishedAt hsame
  rw [hpublished] at h
  cases hrow : row.publishedAt with
  | none =>
    rw [hrow] at h
    cases h
  | some t =>
    rw [hrow] at h
    exact absurd (of_decide_eq_true h) (Int.lt_irrefl _)

theorem insertVersion_isSome {item : SaveVersionItem} {core : CoreType} {version : String}
    (hnew : db.coreVersions.find item.newId = none) (hnone : findVersion db core version = none) :
    ∃ coreVersions, db.coreVersions.insert (newVersion item core version) = some coreVersions ∧
      insertVersion db (newVersion item core version) = some { db with coreVersions } := by
  have hfresh : key (newVersion item core version) ∉ db.coreVersions.rows.map key := by
    intro hmem
    obtain ⟨v, hv, hkey⟩ := List.mem_map.mp hmem
    exact Table.find_eq_none_iff.mp hnew v hv hkey
  obtain ⟨coreVersions, hinsert, -⟩ := Table.insert_of_fresh hfresh
  refine ⟨coreVersions, hinsert, ?_⟩
  have hunique : (db.coreVersions.rows.any fun v =>
      v.coreType = (newVersion item core version).coreType ∧
        v.version = (newVersion item core version).version) = false := by
    rw [List.any_eq_false]
    exact List.find?_eq_none.mp hnone
  rw [insertVersion, if_neg (by rw [hunique]; exact Bool.false_ne_true), hinsert]
  rfl

/-- One item and the rest of the list. -/
theorem restores_saveVersion_iff {item : SaveVersionItem} {rest : List SaveVersionItem}
    (hnew : db.coreVersions.find item.newId = none) :
    (saveVersion item >>= fun _ => forEach saveVersion rest).Restores db db ↔
      (item.validate.isOk = true → if writesVersion db item then rest = [] else
        (forEach saveVersion rest).Restores db db) := by
  have hwritten : ∀ s, s ≠ db → ((forEach saveVersion rest).Restores db s ↔ rest = []) := by
    intro s hs
    cases rest with
    | nil => exact iff_of_true (restores_pure ()) rfl
    | cons next rest =>
      exact iff_of_false (fun h => hs (eq_of_restores_saveVersion h)) (List.cons_ne_nil next rest)
  rw [saveVersion, bind_assoc]
  cases hvalidate : item.validate with
  | error e => exact iff_of_true (restores_throw_iff.mpr rfl) (fun h => nomatch h)
  | ok parsed =>
    obtain ⟨core, version⟩ := parsed
    simp only [Except.isOk, Except.toBool, forall_const]
    rw [lift_ok_bind, bind_assoc, restores_self_query_bind_iff]
    cases hfind : findVersion db core version with
    | some row =>
      have hwrites : writesVersion db item = isStale row.publishedAt item.publishedAt := by
        simp only [writesVersion, hvalidate, hfind]
      rw [hwrites]
      simp only [writeVersion]
      cases hstale : isStale row.publishedAt item.publishedAt with
      | false => exact Iff.rfl
      | true =>
        simp only [if_true]
        refine restores_self_write_bind_iff.trans (hwritten _ fun hsame => ?_)
        have hrow : db.coreVersions.find row.id = some row :=
          Table.find_eq_some_iff.mpr ⟨List.mem_of_find?_eq_some hfind, rfl⟩
        have htable := (Table.update_eq_self_iff (f := refreshed item) (fun _ => rfl) hrow).mp
          (coreVersions_eq_iff.mp hsame)
        exact ne_of_isStale hstale htable
    | none =>
      obtain ⟨coreVersions, hinsert, hdb⟩ := insertVersion_isSome hnew hfind
      have hwrites : writesVersion db item = true := by
        simp only [writesVersion, hvalidate, hfind]
      rw [hwrites, if_pos rfl]
      simp only [writeVersion]
      rw [restores_self_tryWrite_bind_iff, hdb]
      simp only [Option.some.injEq, forall_eq']
      exact hwritten _ fun hsame => Table.ne_of_insert hinsert (coreVersions_eq_iff.mp hsame)

theorem restores_saveVersions_iff {versions : List SaveVersionItem}
    (hnew : ∀ item ∈ versions, db.coreVersions.find item.newId = none) :
    (forEach saveVersion versions).Restores db db ↔ OnlyLastWrites db versions := by
  induction versions with
  | nil => exact iff_of_true (restores_pure ()) trivial
  | cons item rest ih =>
    rw [forEach, restores_saveVersion_iff (hnew item List.mem_cons_self),
      ih fun i hi => hnew i (List.mem_cons_of_mem item hi)]
    cases rest with
    | nil =>
      refine iff_of_true (fun _ => ?_) trivial
      split
      · rfl
      · trivial
    | cons next rest =>
      rw [OnlyLastWrites]
      refine imp_congr_right fun _ => ?_
      cases writesVersion db item with
      | false => simp
      | true => simp

theorem saveCoreVersions_iff {versions : List SaveVersionItem}
    (hnew : ∀ item ∈ versions, db.coreVersions.find item.newId = none) :
    (Stepwise.saveCoreVersions versions).Atomic db ↔
      Harmless env db (.saveCoreVersions versions) := by
  rw [Atomic, Stepwise.saveCoreVersions, restores_self_check_bind_iff,
    restores_saveVersions_iff hnew, Harmless]
  refine ⟨fun h => ?_, fun h _ => h⟩
  cases versions with
  | nil => trivial
  | cons item rest => exact h (List.cons_ne_nil item rest)

/-! ### Relay rules -/

theorem relayRules_eq_iff {relayRules : Table RelayRule} :
    { db with relayRules } = db ↔ relayRules = db.relayRules :=
  ⟨fun h => congrArg Db.relayRules h, fun h => by rw [h]⟩

/-- The checks only read. -/
theorem restores_validateRelayPayload_bind_iff {nodeId exitBindingId : Uuid} {matchType : String}
    {matchConfig : Json} {g : Unit → Statements Unit} :
    (Stepwise.validateRelayPayload nodeId exitBindingId matchType matchConfig >>= g).Restores
        db db ↔
      (Hub.validateRelayPayload db nodeId exitBindingId matchType matchConfig = .ok () →
        (g ()).Restores db db) := by
  rw [Stepwise.validateRelayPayload, Hub.validateRelayPayload]
  simp only [bind_assoc, restores_self_query_bind_iff, restores_self_orThrow_bind_iff,
    restores_self_check_bind_iff]
  cases db.nodes.find nodeId with
  | none => simp
  | some node =>
    cases db.nodeBindings.find exitBindingId with
    | none => simp
    | some exitBinding =>
      simp only [Option.some.injEq, forall_eq']
      by_cases hself : exitBinding.nodeId = nodeId
      · simp [hself]
      · simp only [hself, not_false_eq_true, forall_const, if_false]
        cases db.protocolConfigs.find exitBinding.protocolConfigId with
        | none => simp
        | some config =>
          simp only [Option.some.injEq, forall_eq', restores_self_lift_bind_iff]
          exact ⟨fun h => h (), fun h _ => h⟩

/-- The old client is gone and the new one is there before the rule is written. -/
theorem not_restores_reprovision {ids : RelayIds} {payload : UpdateRelayRulePayload}
    {rule : RelayRule} (hnew : db.clients.find ids.clientId = none)
    (hmoves : payload.movesExit rule = true) (g : Unit → Statements Unit) :
    ¬ (Stepwise.reprovision env ids payload rule >>= g).Restores db db := by
  intro h
  have hfresh : key (relayClient env.now ids (payload.name.getD rule.name)) ∉
      db.clients.rows.map key := by
    intro hmem
    obtain ⟨c, hc, hkey⟩ := List.mem_map.mp hmem
    exact Table.find_eq_none_iff.mp hnew c hc hkey
  obtain ⟨clients, hinsert, -⟩ := Table.insert_of_fresh hfresh
  rw [Stepwise.reprovision, if_pos hmoves, bind_assoc, deleteRelayClient, bind_assoc,
    restores_self_write_bind_iff, restores_write_bind_iff] at h
  obtain ⟨-, h⟩ := h
  rw [Stepwise.provisionRelayClient, bind_assoc, restores_tryWrite_bind_iff] at h
  obtain ⟨hsame, h⟩ := h
  rw [hsame] at h
  have hnext := h { db with clients } (by rw [hinsert]; rfl)
  rw [bind_assoc, restores_query_bind_iff, clients_eq_iff] at hnext
  exact Table.ne_of_insert hinsert hnext.1

theorem updateRelayRule_iff {ids : RelayIds} {payload : UpdateRelayRulePayload}
    (hnew : db.clients.find ids.clientId = none) :
    (Stepwise.updateRelayRule env ids id payload).Atomic db ↔
      Harmless env db (.updateRelayRule ids id payload) := by
  rw [Atomic, Stepwise.updateRelayRule, restores_self_query_bind_iff,
    restores_self_orThrow_bind_iff, Harmless]
  refine forall₂_congr fun rule hrule => ?_
  rw [restores_validateRelayPayload_bind_iff]
  refine imp_congr_right fun _ => ?_
  cases hmoves : payload.movesExit rule with
  | true => exact iff_of_false (not_restores_reprovision hnew hmoves _) (fun h => by cases h.1)
  | false =>
    rw [Stepwise.reprovision, if_neg (by rw [hmoves]; exact Bool.false_ne_true), pure_bind,
      restores_self_check_bind_iff, restores_self_write_bind_iff, restores_query_bind_iff,
      relayRules_eq_iff,
      Table.update_eq_self_iff (f := payload.apply env.now ids.clientId) (fun _ => rfl) hrule,
      and_iff_right rfl, ← Classical.or_iff_not_imp_left]
    refine or_congr_right (and_iff_left_of_imp fun hsame => ?_)
    -- the exits are read and the nodes are marked with the database as it was
    have htable : db.relayRules.update id (payload.apply env.now ids.clientId) = db.relayRules :=
      (Table.update_eq_self_iff (f := payload.apply env.now ids.clientId)
        (fun _ => rfl) hrule).mpr hsame
    rw [htable, restores_query_bind_iff]
    exact ⟨rfl, restores_of_answers (answers_markBoth _)⟩

end

/-! ### All six -/

/-- **When a handler that fails has done nothing.**  Every error of a request leaves the
database as it was, whichever of its statements fails, if and only if it is harmless. -/
theorem atomic_iff_harmless {env : EditEnv} {db : Db} {request : Request}
    (hfresh : request.Fresh db) :
    (request.statements env).Atomic db ↔ Harmless env db request := by
  cases request with
  | updateRelayRule ids id payload => exact updateRelayRule_iff hfresh
  | updateClient id payload => exact updateClient_iff hfresh
  | saveCoreVersions versions => exact saveCoreVersions_iff hfresh
  | createGroup id payload => exact createGroup_iff hfresh
  | updateGroup id payload => exact updateGroup_iff hfresh
  | deleteConfig id => exact deleteConfig_iff

/-! ### A new exit and a blank name -/

namespace BlankName

open TwoRelays

def ids : RelayIds := ⟨.ofNat 20, .ofNat 21, .ofNat 22, fun _ => .ofNat 23⟩

def env : EditEnv := ⟨default, fun _ _ => .ofNat 24⟩

/-- The client of the rule. -/
def client : Client :=
  relayClient default ⟨inlineRule.relayClientId, .ofNat 25, .ofNat 26, id⟩ "inline"

def otherConfig : ProtocolConfig := { exitConfig with id := .ofNat 8 }

def otherExit : NodeBinding := { binding with id := .ofNat 9, protocolConfigId := otherConfig.id }

/-- A rule with its client and two exits it could have. -/
def db : Db where
  nodes := TwoRelays.db.nodes
  protocolConfigs := ⟨[exitConfig, otherConfig], by decide⟩
  nodeBindings := ⟨[binding, otherExit], by decide⟩
  clients := .single client
  relayRules := .single inlineRule

def request : Request :=
  .updateRelayRule ids inlineRule.id { name := some "  ", exitBindingId := some otherExit.id }

/-- No statement fails. -/
def answer : ApiResult Unit × Db := (request.statements env).run none db

theorem find_client : (db.clients.find inlineRule.relayClientId).isSome = true := by
  decide

theorem client_lost : answer.1.isOk = false ∧
    (answer.2.relayRules.rows.map (·.relayClientId)) = [inlineRule.relayClientId] ∧
    (answer.2.clients.find inlineRule.relayClientId).isSome = false := by
  refine ⟨?_, ?_, ?_⟩
  · decide
  · decide
  · decide

end BlankName

open BlankName in
/-- **The rule keeps a client that is gone**: the name is refused after the old relay client
has been replaced. -/
theorem blank_name_loses_relay_client :
    ¬ (request.statements env).Atomic db ∧
      (answer.2.relayRules.rows.map (·.relayClientId)) = [TwoRelays.inlineRule.relayClientId] ∧
      (answer.2.clients.find TwoRelays.inlineRule.relayClientId).isSome = false := by
  obtain ⟨herror, hrule, hclient⟩ := client_lost
  refine ⟨fun h => ?_, hrule, hclient⟩
  cases hanswer : answer.1 with
  | ok a =>
    rw [hanswer] at herror
    cases herror
  | error e =>
    have hsame : answer.2 = db := h none e hanswer
    rw [hsame, find_client] at hclient
    cases hclient

namespace BlankName

/-- A client gets another name. -/
def rename : Request := .updateClient client.id
  ⟨some "relay", none, none, none, none, none, none, none, none, none, none⟩

theorem fresh_rename : rename.Fresh db := by
  change NewClientLinks db []
  decide

end BlankName

theorem atomic_iff_harmless_rename :
    (BlankName.rename.statements BlankName.env).Atomic BlankName.db :=
  (atomic_iff_harmless BlankName.fresh_rename).mpr fun _ _ _ _ h => nomatch h

end ProxyPanel.Hub.Atomicity
