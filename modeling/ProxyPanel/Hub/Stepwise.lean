import ProxyPanel.Hub.Edits
import ProxyPanel.Hub.NodeGroups
import ProxyPanel.Lib.Script

/-!
# Handlers, statement by statement

The handlers that write several rows without a transaction, as the statements they send to
the database, in their order.  Each may fail; a `?` in the source ends the handler with
`dbError`, a `let _ =` and a logged error do not.  The `run_…` lemmas say that a run without a
failure is what the handler does; `saveCoreVersions` is modelled only here.
-/

namespace ProxyPanel.Hub.Stepwise

open Script

abbrev Statements (α : Type) := Script Db ApiError α

/-- What a database error becomes. -/
def dbError : ApiError := .internal "database operation failed"

/-! ### Clients -/

def insertClientLink (clientId : Uuid) (g : Uuid × Uuid) : Statements Unit :=
  tryWrite dbError fun db => (db.clientGroupBindings.insert ⟨g.2, clientId, g.1⟩).map
    fun clientGroupBindings => { db with clientGroupBindings }

def syncClientGroups (clientId : Uuid) (groupIds : List (Uuid × Uuid)) : Statements Unit := do
  write dbError fun db =>
    { db with clientGroupBindings := db.clientGroupBindings.deleteWhere (·.clientId = clientId) }
  forEach (insertClientLink clientId) groupIds

def updateClient (now : DateTime) (id : Uuid) (payload : UpdateClientPayload) :
    Statements Unit := do
  let _ ← orThrow (.notFound "client not found") (← query dbError (·.clients.find id))
  lift (if payload.name.any (Text.trim · = "") then
      .error (.badRequest "invalid_name" "client name cannot be empty")
    else .ok ())
  write dbError fun db => { db with clients := db.clients.update id (payload.apply now) }
  payload.groupIds.elim (pure ()) (syncClientGroups id)

/-! ### Node groups -/

def insertBindingLink (groupId : Uuid) (b : Uuid × Uuid) : Statements Unit :=
  tryWrite dbError fun db => (db.nodeBindingGroupBindings.insert ⟨b.2, b.1, groupId⟩).map
    fun nodeBindingGroupBindings => { db with nodeBindingGroupBindings }

def syncGroupBindings (groupId : Uuid) (bindingIds : List (Uuid × Uuid)) : Statements Unit := do
  write dbError fun db => { db with
    nodeBindingGroupBindings := db.nodeBindingGroupBindings.deleteWhere (·.groupId = groupId) }
  forEach (insertBindingLink groupId) bindingIds

/-- The bindings of a group, for the answer. -/
def bindingIdsOf (groupId : Uuid) : Statements (List Uuid) :=
  query dbError fun db =>
    (db.nodeBindingGroupBindings.filter (·.groupId = groupId)).map (·.nodeBindingId)

/-- The bindings of the group are read again before the answer. -/
def createGroup (now : DateTime) (id : Uuid) (payload : CreateGroupPayload) :
    Statements Unit := do
  lift (if Text.trim payload.name = "" then
      .error (.badRequest "invalid_name" "group name is required")
    else .ok ())
  tryWrite dbError fun db => (db.nodeGroups.insert (payload.group now id)).map
    fun nodeGroups => { db with nodeGroups }
  payload.bindingIds.elim (pure ()) (syncGroupBindings id)
  let _ ← bindingIdsOf id
  return ()

def updateGroup (now : DateTime) (id : Uuid) (payload : UpdateGroupPayload) :
    Statements Unit := do
  let _ ← orThrow (.notFound "node group not found") (← query dbError (·.nodeGroups.find id))
  lift (if payload.name.any (Text.trim · = "") then
      .error (.badRequest "invalid_name" "group name cannot be empty")
    else .ok ())
  write dbError fun db => { db with nodeGroups := db.nodeGroups.update id (payload.apply now) }
  payload.bindingIds.elim (pure ()) (syncGroupBindings id)
  let _ ← bindingIdsOf id
  return ()

/-! ### Marks -/

def markNode (env : EditEnv) (coreType : CoreType) (updateType : String) (nodeId : Uuid) :
    Statements Unit := do
  let existing ← query dbError (findPending · nodeId coreType)
  tryWrite dbError fun db => match existing with
    | some row => updatePending db row.id updateType env.now
    | none => insertPending db
        ⟨env.markerId nodeId coreType, nodeId, coreType.toStr, updateType, env.now⟩

def markPending (env : EditEnv) (coreType : CoreType) (updateType : String)
    (nodeIds : List Uuid) : Statements Unit :=
  forEach (markNode env coreType updateType) nodeIds

/-- The calls for both cores; their errors are logged. -/
def markBoth (env : EditEnv) (nodeIds : List Uuid) : Statements Unit := do
  logged (markPending env .singBox "config" nodeIds)
  logged (markPending env .mihomo "config" nodeIds)

/-! ### Protocol configs -/

def withoutLinks (bindingIds : List Uuid) (db : Db) : Db :=
  { db with nodeBindingGroupBindings :=
      db.nodeBindingGroupBindings.deleteWhere (·.nodeBindingId ∈ bindingIds) }

def withoutBindings (bindingIds : List Uuid) (db : Db) : Db :=
  { db with nodeBindings := db.nodeBindings.deleteWhere (·.id ∈ bindingIds) }

def withoutConfig (id : Uuid) (db : Db) : Db :=
  { db with protocolConfigs := db.protocolConfigs.deleteWhere (·.id = id) }

/-- A config that does not exist is not deleted. -/
theorem withoutConfig_of_find_eq_none {db : Db} {id : Uuid}
    (h : db.protocolConfigs.find id = none) : withoutConfig id db = db := by
  have htable : db.protocolConfigs.deleteWhere (·.id = id) = db.protocolConfigs :=
    Table.deleteWhere_eq_self_iff.mpr fun r hr =>
      decide_eq_false (Table.find_eq_none_iff.mp h r hr)
  rw [withoutConfig, htable]

/-- The bindings that are deleted; nobody looks at the errors of that. -/
def deleteBindings (bindingIds : List Uuid) : Statements Unit :=
  if bindingIds.isEmpty then pure () else do
    logged (write dbError (withoutLinks bindingIds))
    logged (write dbError (withoutBindings bindingIds))

/-- The links and the bindings go first, whether or not there is such a config. -/
def deleteConfig (env : EditEnv) (id : Uuid) : Statements Unit := do
  let bindings ← query dbError (·.nodeBindings.filter (·.protocolConfigId = id))
  deleteBindings (bindings.map (·.id))
  let found ← change dbError (withoutConfig id) fun db => (db.protocolConfigs.find id).isSome
  lift (if found then .ok () else .error (.notFound "protocol config not found"))
  markBoth env (bindings.map (·.nodeId)).dedup

/-! ### Relay rules -/

def insertRelayLink (ids : RelayIds) (link : NodeBindingGroupBinding) : Statements Unit :=
  tryWrite dbError fun db =>
    (db.clientGroupBindings.insert ⟨ids.linkId link.id, ids.clientId, link.groupId⟩).map
      fun clientGroupBindings => { db with clientGroupBindings }

def provisionRelayClient (env : EditEnv) (ids : RelayIds) (ruleName : String)
    (exitBindingId : Uuid) : Statements Unit := do
  tryWrite dbError fun db => (db.clients.insert (relayClient env.now ids ruleName)).map
    fun clients => { db with clients }
  let links ← query dbError
    (·.nodeBindingGroupBindings.filter (·.nodeBindingId = exitBindingId))
  forEach (insertRelayLink ids) links

def deleteRelayClient (relayClientId : Uuid) : Statements Unit := do
  write dbError fun db => { db with
    clientGroupBindings := db.clientGroupBindings.deleteWhere (·.clientId = relayClientId) }
  write dbError fun db => { db with clients := db.clients.deleteWhere (·.id = relayClientId) }

def validateRelayPayload (nodeId exitBindingId : Uuid) (matchType : String) (matchConfig : Json) :
    Statements Unit := do
  let _ ← orThrow (.notFound "node not found") (← query dbError (·.nodes.find nodeId))
  let exitBinding ← orThrow (.notFound "exit binding not found")
    (← query dbError (·.nodeBindings.find exitBindingId))
  lift (if exitBinding.nodeId = nodeId then
      .error (.badRequest "self_relay"
        "exit binding belongs to the same node as the entry node")
    else .ok ())
  let config ← orThrow (.badRequest "protocol_config_missing"
      "exit binding's protocol config not found")
    (← query dbError (·.protocolConfigs.find exitBinding.protocolConfigId))
  lift (if config.coreType ∉ ["sing-box", "mihomo"] then
      .error (.badRequest "unsupported_core"
        "exit binding core type must be sing-box or mihomo")
    else if config.protocolType ∉ ["vless_reality", "hysteria2", "anytls"] then
      .error (.badRequest "unsupported_protocol"
        "exit binding protocol type must be vless_reality, hysteria2, or anytls")
    else validateMatch matchType matchConfig)

/-- A rule with another exit gets another client. -/
def reprovision (env : EditEnv) (ids : RelayIds) (payload : UpdateRelayRulePayload)
    (rule : RelayRule) : Statements Unit :=
  if payload.movesExit rule then do
    deleteRelayClient rule.relayClientId
    provisionRelayClient env ids (payload.name.getD rule.name)
      (payload.exitBindingId.getD rule.exitBindingId)
  else pure ()

def updateRelayRule (env : EditEnv) (ids : RelayIds) (id : Uuid)
    (payload : UpdateRelayRulePayload) : Statements Unit := do
  let rule ← orThrow (.notFound "relay rule not found") (← query dbError (·.relayRules.find id))
  let exitBindingId := payload.exitBindingId.getD rule.exitBindingId
  validateRelayPayload rule.nodeId exitBindingId (payload.matchType.getD rule.matchType)
    (payload.matchConfig.getD rule.matchConfig)
  reprovision env ids payload rule
  lift (if payload.name.any (Text.trim · = "") then
      .error (.badRequest "invalid_name" "name cannot be empty")
    else .ok ())
  write dbError fun db =>
    { db with relayRules := db.relayRules.update id (payload.apply env.now ids.clientId) }
  let oldExitNodeId ← query dbError (nodeOfBinding · rule.exitBindingId)
  let newExitNodeId ← query dbError (nodeOfBinding · exitBindingId)
  markBoth env (affectedNodes rule.nodeId [oldExitNodeId, newExitNodeId])

/-! ### Core versions -/

/-- A version of a request, with the identifier its row would get. -/
structure SaveVersionItem where
  coreType : String
  version : String
  channel : Option String := none
  publishedAt : Option DateTime := none
  commitSha : Option String := none
  newId : Uuid

/-- Core and version of an item. -/
def SaveVersionItem.validate (item : SaveVersionItem) : ApiResult (CoreType × String) :=
  match CoreType.fromStr? item.coreType with
  | none => .error (.badRequest "invalid_core_type" "unknown core type")
  | some core =>
    if Text.trim item.version = "" then
      .error (.badRequest "invalid_version" "version is required")
    else if item.channel.getD "release" ∉ ["release", "prerelease"] then
      .error (.badRequest "invalid_channel" "channel must be 'release' or 'prerelease'")
    else .ok (core, Text.trim item.version)

/-- The recorded build is older than the given one, or there is none. -/
def isStale : Option DateTime → Option DateTime → Bool
  | some old, some new => old.before new
  | none, some _ => true
  | _, none => false

def findVersion (db : Db) (core : CoreType) (version : String) : Option CoreVersion :=
  db.coreVersions.one fun v => v.coreType = core.toStr ∧ v.version = version

/-- Core and version are unique. -/
def insertVersion (db : Db) (row : CoreVersion) : Option Db :=
  if db.coreVersions.rows.any fun v => v.coreType = row.coreType ∧ v.version = row.version then
    none
  else (db.coreVersions.insert row).map fun coreVersions => { db with coreVersions }

/-- The build metadata of a row after a refresh. -/
def refreshed (item : SaveVersionItem) (v : CoreVersion) : CoreVersion :=
  { v with publishedAt := item.publishedAt, commitSha := item.commitSha }

/-- The row of a version that is not known.  It is not active. -/
def newVersion (item : SaveVersionItem) (core : CoreType) (version : String) : CoreVersion where
  id := item.newId
  coreType := core.toStr
  version := version
  channel := item.channel.getD "release"
  publishedAt := item.publishedAt
  commitSha := item.commitSha
  isActive := false

/-- A version that is known is refreshed when its build is newer. -/
def writeVersion (item : SaveVersionItem) (core : CoreType) (version : String) :
    Option CoreVersion → Statements Unit
  | some row =>
    if isStale row.publishedAt item.publishedAt then
      write dbError fun db =>
        { db with coreVersions := db.coreVersions.update row.id (refreshed item) }
    else pure ()
  | none => tryWrite dbError fun db => insertVersion db (newVersion item core version)

def saveVersion (item : SaveVersionItem) : Statements Unit := do
  let parsed ← lift item.validate
  let existing ← query dbError (findVersion · parsed.1 parsed.2)
  writeVersion item parsed.1 parsed.2 existing

def saveCoreVersions (versions : List SaveVersionItem) : Statements Unit := do
  lift (if versions = [] then .error (.badRequest "empty_selection" "no versions selected")
    else .ok ())
  forEach saveVersion versions

/-! ### Runs without a failure -/

section Runs

variable {env : EditEnv} {now : DateTime} {id : Uuid} {db : Db}

/-- The answer of a handler that writes all its rows or none. -/
def atOnce (r : ApiResult Db) (db : Db) : ApiResult Unit × Db :=
  match r with
  | .ok db' => (.ok (), db')
  | .error e => (.error e, db)

/-- Rows with new keys are inserted one by one. -/
theorem run_insertEach {ρ α : Type} [HasKey ρ Uuid] {w : Table ρ → Db} {r : α → ρ}
    {insert : α → Statements Unit}
    (hinsert : ∀ a t u, t.insert (r a) = some u → (insert a).run none (w t) = (.ok (), w u))
    {as : List α} {t : Table ρ} (hnew : (t.rows.map key ++ as.map fun a => key (r a)).Nodup) :
    (forEach insert as).run none (w t) = (.ok (), w (t.insertEach (as.map r))) := by
  induction as generalizing t with
  | nil => rfl
  | cons a as ih =>
    have hfresh : key (r a) ∉ t.rows.map key := by
      intro hmem
      exact (List.nodup_append.mp hnew).2.2 _ hmem _ List.mem_cons_self rfl
    obtain ⟨u, hu, hrows⟩ := Table.insert_of_fresh hfresh
    rw [forEach, run_none_bind, hinsert a t u hu]
    simp only
    rw [ih, List.map_cons, Table.insertEach, Table.insertEach, List.foldl_cons, hu]
    · rfl
    · rw [hrows, List.map_append, List.append_assoc]
      exact hnew

theorem run_syncClientGroups {clientId : Uuid} {groupIds : List (Uuid × Uuid)}
    (hnew : NewClientLinks db groupIds) :
    (syncClientGroups clientId groupIds).run none db =
      (.ok (), Hub.syncClientGroups db clientId groupIds) := by
  rw [syncClientGroups, run_none_write_bind, Hub.syncClientGroups]
  refine (run_insertEach (w := fun links => { db with clientGroupBindings := links })
    (r := fun g => ⟨g.2, clientId, g.1⟩) ?_ ?_).trans ?_
  · intro g t u hu
    simp [insertClientLink, tryWrite, run, hu]
  · exact hnew.sublist ((List.filter_sublist.map _).append (List.Sublist.refl _))
  · rw [Table.insertEach, List.foldl_map]

theorem run_updateClient {payload : UpdateClientPayload}
    (hnew : NewClientLinks db (payload.groupIds.getD [])) :
    (updateClient now id payload).run none db = atOnce (Hub.updateClient now id payload db) db := by
  rw [updateClient, run_none_query_bind, Hub.updateClient]
  cases db.clients.find id with
  | none => rfl
  | some c =>
    rw [orThrow, Option.elim_some, lift_ok_bind]
    simp only
    split
    · rfl
    · rw [lift_ok_bind, run_none_write_bind]
      cases hgiven : payload.groupIds with
      | none => rfl
      | some groupIds =>
        rw [hgiven] at hnew
        exact run_syncClientGroups hnew

theorem run_syncGroupBindings {groupId : Uuid} {bindingIds : List (Uuid × Uuid)}
    (hnew : NewBindingLinks db bindingIds) :
    (syncGroupBindings groupId bindingIds).run none db =
      (.ok (), Hub.syncGroupBindings db groupId bindingIds) := by
  rw [syncGroupBindings, run_none_write_bind, Hub.syncGroupBindings]
  refine run_insertEach (w := fun links => { db with nodeBindingGroupBindings := links })
    (r := fun b : Uuid × Uuid => ⟨b.2, b.1, groupId⟩) ?_ ?_
  · intro b t u hu
    simp [insertBindingLink, tryWrite, run, hu]
  · exact hnew.sublist ((List.filter_sublist.map _).append (List.Sublist.refl _))

/-- The answer that is read at the end changes nothing. -/
theorem run_syncGiven {groupId : Uuid} {given : Option (List (Uuid × Uuid))}
    (hnew : NewBindingLinks db (given.getD [])) :
    (given.elim (pure ()) (syncGroupBindings groupId) >>= fun _ =>
      bindingIdsOf groupId >>= fun _ => pure ()).run none db =
      (.ok (), given.elim db (Hub.syncGroupBindings db groupId)) := by
  cases given with
  | none => rfl
  | some bindingIds =>
    have hnew : NewBindingLinks db bindingIds := hnew
    rw [Option.elim_some, run_none_bind, run_syncGroupBindings hnew]
    rfl

theorem run_createGroup {payload : CreateGroupPayload}
    (hnew : NewBindingLinks db (payload.bindingIds.getD [])) :
    (createGroup now id payload).run none db = atOnce (Hub.createGroup now id payload db) db := by
  rw [createGroup, Hub.createGroup]
  split
  · rfl
  · rw [lift_ok_bind]
    cases hinsert : db.nodeGroups.insert (payload.group now id) with
    | none => exact run_none_tryWrite_bind_of_none (by rw [hinsert]; rfl) _
    | some nodeGroups =>
      have hrow : (db.nodeGroups.insert (payload.group now id)).map
          (fun nodeGroups => { db with nodeGroups }) = some { db with nodeGroups } := by
        rw [hinsert]
        rfl
      rw [run_none_tryWrite_bind_of_some hrow]
      have hnew : NewBindingLinks { db with nodeGroups } (payload.bindingIds.getD []) := hnew
      refine (run_syncGiven hnew).trans ?_
      cases payload.bindingIds <;> rfl

theorem run_updateGroup {payload : UpdateGroupPayload}
    (hnew : NewBindingLinks db (payload.bindingIds.getD [])) :
    (updateGroup now id payload).run none db = atOnce (Hub.updateGroup now id payload db) db := by
  rw [updateGroup, run_none_query_bind, Hub.updateGroup]
  cases db.nodeGroups.find id with
  | none => rfl
  | some g =>
    rw [orThrow, Option.elim_some, lift_ok_bind]
    simp only
    split
    · rfl
    · rw [lift_ok_bind, run_none_write_bind]
      have hnew : NewBindingLinks { db with
          nodeGroups := db.nodeGroups.update id (payload.apply now) }
          (payload.bindingIds.getD []) := hnew
      refine (run_syncGiven hnew).trans ?_
      cases payload.bindingIds <;> rfl

/-- The answer of a handler. -/
def answerOf {α : Type} : EStateM.Result ApiError Db α → ApiResult α × Db
  | .ok a db => (.ok a, db)
  | .error e db => (.error e, db)

theorem run_none_markNode {coreType : CoreType} {updateType : String} {nodeId : Uuid} :
    (markNode env coreType updateType nodeId).run none db =
      (Hub.markNode env coreType updateType db nodeId).elim (.error dbError, db)
        fun db' => (.ok (), db') := by
  rw [markNode, run_none_query_bind]
  exact run_none_tryWrite ..

theorem run_none_markPending {coreType : CoreType} {updateType : String} {nodeIds : List Uuid} :
    ((markPending env coreType updateType nodeIds).run none db).2 =
      Hub.markPending env coreType updateType nodeIds db := by
  induction nodeIds generalizing db with
  | nil => rfl
  | cons nodeId nodeIds ih =>
    rw [markPending, forEach, run_none_bind, run_none_markNode, Hub.markPending]
    cases Hub.markNode env coreType updateType db nodeId with
    | none => rfl
    | some db' => exact ih

theorem run_markBoth {nodeIds : List Uuid} :
    (markBoth env nodeIds).run none db = (.ok (), Hub.markBoth env nodeIds db) := by
  rw [markBoth, run_none_bind, run_none_logged]
  simp only
  rw [run_none_logged, run_none_markPending, run_none_markPending]
  rfl

theorem run_deleteBindings {bindingIds : List Uuid} :
    (deleteBindings bindingIds).run none db =
      (.ok (), withoutBindings bindingIds (withoutLinks bindingIds db)) := by
  rw [deleteBindings]
  split
  · rename_i hempty
    rw [List.isEmpty_iff.mp hempty]
    have hlinks : withoutLinks [] db = db := by
      rw [withoutLinks, Table.deleteWhere_eq_self_iff.mpr fun r _ => by simp]
    have hbindings : withoutBindings [] db = db := by
      rw [withoutBindings, Table.deleteWhere_eq_self_iff.mpr fun r _ => by simp]
    rw [hlinks, hbindings]
    rfl
  · rfl

theorem run_deleteConfig :
    (deleteConfig env id).run none db = answerOf (Hub.deleteConfig env id db) := by
  rw [deleteConfig, run_none_query_bind, run_none_bind, run_deleteBindings]
  simp only
  rw [run_none_change_bind, Hub.deleteConfig]
  -- the bindings are gone, the configs are as before
  change _ = answerOf ((Handler.orThrow (ApiError.notFound "protocol config not found")
    (db.protocolConfigs.find id) >>= _) _)
  change (lift (if (db.protocolConfigs.find id).isSome then _ else _) >>= _).run none _ = _
  cases hfind : db.protocolConfigs.find id with
  | none =>
    refine (congrArg (run _ none) (withoutConfig_of_find_eq_none ?_)).trans rfl
    exact hfind
  | some config => exact run_markBoth

theorem run_copyLinks {ids : RelayIds} {links : List NodeBindingGroupBinding} :
    (forEach (insertRelayLink ids) links).run none db = answerOf (copyLinks ids links db) := by
  induction links generalizing db with
  | nil => rfl
  | cons link links ih =>
    rw [forEach, insertRelayLink, run_none_bind, run_none_tryWrite, copyLinks]
    change _ = answerOf ((Handler.orThrow (.internal "database operation failed")
      (db.clientGroupBindings.insert ⟨ids.linkId link.id, ids.clientId, link.groupId⟩) >>= _) db)
    cases db.clientGroupBindings.insert ⟨ids.linkId link.id, ids.clientId, link.groupId⟩ with
    | none => rfl
    | some clientGroupBindings => exact ih

theorem run_provisionRelayClient {ids : RelayIds} {ruleName : String} {exitBindingId : Uuid} :
    (provisionRelayClient env ids ruleName exitBindingId).run none db =
      answerOf (Hub.provisionRelayClient env ids ruleName exitBindingId db) := by
  rw [provisionRelayClient, run_none_bind, run_none_tryWrite, Hub.provisionRelayClient]
  change _ = answerOf ((Handler.orThrow (.internal "database operation failed")
    (db.clients.insert (relayClient env.now ids ruleName)) >>= _) db)
  cases db.clients.insert (relayClient env.now ids ruleName) with
  | none => rfl
  | some clients => exact run_copyLinks

theorem run_reprovision {ids : RelayIds} {payload : UpdateRelayRulePayload} {rule : RelayRule} :
    (reprovision env ids payload rule).run none db =
      answerOf (Hub.reprovision env ids payload rule db) := by
  rw [reprovision, Hub.reprovision]
  split
  · exact run_provisionRelayClient
  · rfl

/-- The checks answer what they answer, and the run goes on. -/
theorem run_validateRelayPayload_bind {nodeId exitBindingId : Uuid} {matchType : String}
    {matchConfig : Json} {g : Unit → Statements Unit} :
    (validateRelayPayload nodeId exitBindingId matchType matchConfig >>= g).run none db =
      match Hub.validateRelayPayload db nodeId exitBindingId matchType matchConfig with
      | .ok () => (g ()).run none db
      | .error e => (.error e, db) := by
  rw [validateRelayPayload, Hub.validateRelayPayload, bind_assoc, run_none_query_bind]
  cases db.nodes.find nodeId with
  | none => rfl
  | some node =>
    rw [orThrow, Option.elim_some, lift_ok_bind, bind_assoc, run_none_query_bind]
    simp only
    cases db.nodeBindings.find exitBindingId with
    | none => rfl
    | some exitBinding =>
      rw [orThrow, Option.elim_some, lift_ok_bind, bind_assoc]
      simp only
      split
      · rfl
      · rw [lift_ok_bind, bind_assoc, run_none_query_bind]
        cases db.protocolConfigs.find exitBinding.protocolConfigId with
        | none => rfl
        | some config =>
          rw [orThrow, Option.elim_some, lift_ok_bind]
          simp only
          split
          · rfl
          · split
            · rfl
            · cases validateMatch matchType matchConfig <;> rfl

theorem run_updateRelayRule {ids : RelayIds} {payload : UpdateRelayRulePayload} :
    (updateRelayRule env ids id payload).run none db =
      answerOf (Hub.updateRelayRule env ids id payload db) := by
  rw [updateRelayRule, run_none_query_bind, Hub.updateRelayRule]
  change _ = answerOf ((Handler.orThrow (.notFound "relay rule not found")
    (db.relayRules.find id) >>= _) db)
  cases db.relayRules.find id with
  | none => rfl
  | some rule =>
    rw [orThrow, Option.elim_some, lift_ok_bind, run_validateRelayPayload_bind]
    change _ = answerOf ((Handler.lift (Hub.validateRelayPayload db rule.nodeId
      (payload.exitBindingId.getD rule.exitBindingId) (payload.matchType.getD rule.matchType)
      (payload.matchConfig.getD rule.matchConfig)) >>= _) db)
    cases Hub.validateRelayPayload db rule.nodeId
      (payload.exitBindingId.getD rule.exitBindingId) (payload.matchType.getD rule.matchType)
      (payload.matchConfig.getD rule.matchConfig) with
    | error e => rfl
    | ok u =>
      simp only
      rw [run_none_bind, run_reprovision]
      change _ = answerOf (EStateM.bind (Hub.reprovision env ids payload rule) _ db)
      rw [EStateM.bind]
      cases Hub.reprovision env ids payload rule db with
      | error e db₁ => rfl
      | ok u db₁ =>
        change (lift (if _ then _ else _) >>= _).run none db₁ =
          answerOf ((Handler.lift (if _ then _ else _) >>= _) db₁)
        split
        · rfl
        · rw [lift_ok_bind, run_none_write_bind, run_none_query_bind, run_none_query_bind,
            run_markBoth]
          rfl

end Runs

end ProxyPanel.Hub.Stepwise
