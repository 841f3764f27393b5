import ProxyPanel.Hub.LostMarkers
import ProxyPanel.Hub.ScheduledRounds

/-!
# Pushing what is pending

`push_pending` reads the markers that a filter selects and pushes each node and core in turn.
A push deletes markers and fills the queue of an agent, and the later ones run on what the
earlier ones left.  None reads a marker, and none takes the receiver of a queue away, so each
ends as it would have ended alone on the state at the beginning (`pushOne_eq`).

* `pushPending_spec`: the answer, the markers and the queues afterwards.
-/

namespace ProxyPanel.Hub

open Json Query

structure PushPendingPayload where
  nodeIds : Option (List Uuid)
  coreType : Option String

/-- An entry of the answer; `ok` is that there is no error. -/
structure PushResult where
  nodeId : Uuid
  coreType : String
  error : Option String
deriving DecidableEq

structure PushPendingResponse where
  results : List PushResult
  total : Nat
  succeeded : Nat
  failed : Nat

/-- The markers that the filters select; an empty filter selects all. -/
def selectedPending (payload : PushPendingPayload) (db : Db) : List NodePendingUpdate :=
  db.nodePendingUpdates.filter fun p =>
    payload.nodeIds.all (fun ids => ids = [] ∨ p.nodeId ∈ ids) ∧
      payload.coreType.all fun coreType => coreType = "" ∨ p.coreType = coreType

/-- One turn of the loop. -/
def pushOne (env : HubEnv) (s : HubState) (p : NodePendingUpdate) : HubState × PushResult :=
  match CoreType.fromStr? p.coreType with
  | none => (s, ⟨p.nodeId, p.coreType, some "unknown core type"⟩)
  | some core =>
    match pushNodeConfig env s p.nodeId core true none with
    | .ok s => (s, ⟨p.nodeId, p.coreType, none⟩)
    | .error e => (s, ⟨p.nodeId, p.coreType, some e.toStr⟩)

/-- An entry is added to the answer and counted. -/
def PushPendingResponse.add (response : PushPendingResponse) (result : PushResult) :
    PushPendingResponse where
  results := response.results ++ [result]
  total := response.total
  succeeded := if result.error.isNone then response.succeeded + 1 else response.succeeded
  failed := if result.error.isNone then response.failed else response.failed + 1

/-- `push_pending`. -/
def pushPending (env : HubEnv) (payload : PushPendingPayload) (s : HubState) :
    HubState × PushPendingResponse :=
  let pendings := selectedPending payload s.db
  pendings.foldl (fun (s, response) p =>
    let (s, result) := pushOne env s p
    (s, response.add result)) (s, ⟨[], pendings.length, 0, 0⟩)

/-! ### How one push ends -/

/-- What the push of a marker sends, or why it fails. -/
def pushOutcome (env : HubEnv) (s : HubState) (p : NodePendingUpdate) :
    Except String (CoreType × ConfigPush) :=
  match CoreType.fromStr? p.coreType with
  | none => .error "unknown core type"
  | some core =>
    match (preparePush env p.nodeId core true none).exec s.db with
    | .error e => .error e.toStr
    | .ok message =>
      match sendToAgent s p.nodeId (.configPush message) with
      | .ok _ => .ok (core, message)
      | .error e => .error (PanelError.internal ("failed to push config: " ++ e.toStr)).toStr

/-- The state after a push that ended so. -/
def afterOutcome (s : HubState) (p : NodePendingUpdate) :
    Except String (CoreType × ConfigPush) → HubState
  | .ok (core, message) => ⟨clearPending s.db p.nodeId core,
      Function.update s.agents p.nodeId ((s.agents p.nodeId).map (·.sent core message))⟩
  | .error _ => s

/-- The entry of a push that ended so. -/
def pushResultOf (p : NodePendingUpdate) (outcome : Except String (CoreType × ConfigPush)) :
    PushResult :=
  ⟨p.nodeId, p.coreType, match outcome with
    | .ok _ => none
    | .error text => some text⟩

theorem respects_preparePush (env : HubEnv) (nodeId : Uuid) (core : CoreType) (restart : Bool)
    (version : Option String) :
    (preparePush env nodeId core restart version).Respects SameContents := by
  refine respects_bind (respects_mapErr ?_) fun _ => ?_
  · exact respects_read_bind (same_read fun _ _ => rfl) fun bindings =>
      respects_bind (respects_loop respects_checkPort _ _) fun _ => respects_pure _
  · exact respects_bind (respects_generateNodeConfig ..) fun out =>
      respects_bind ((respects_coreBuildIdOf ..).mono (same_read fun _ _ => rfl))
        fun buildId => respects_pure _

/-- The receivers of two states are the same. -/
def SameReceivers (s s' : HubState) : Prop :=
  ∀ n, (s'.agents n).map (·.receiverAlive) = (s.agents n).map (·.receiverAlive)

/-- Whether a message is accepted rests on the receiver. -/
theorem sendToAgent_congr {s s' : HubState} (h : SameReceivers s s') (n : Uuid)
    (message : HubMessage) :
    (∃ t t', sendToAgent s n message = .ok t ∧ sendToAgent s' n message = .ok t') ∨
      ∃ e, sendToAgent s n message = .error e ∧ sendToAgent s' n message = .error e := by
  have hn := h n
  rw [sendToAgent, sendToAgent]
  cases hconn : s.agents n with
  | none =>
    rw [hconn, Option.map_none, Option.map_eq_none_iff] at hn
    rw [hn]
    exact Or.inr ⟨_, rfl, rfl⟩
  | some conn =>
    rw [hconn, Option.map_some, Option.map_eq_some_iff] at hn
    obtain ⟨conn', hconn', halive⟩ := hn
    rw [hconn']
    dsimp only
    rw [halive]
    split
    · exact Or.inl ⟨_, _, rfl, rfl⟩
    · exact Or.inr ⟨_, rfl, rfl⟩

/-- A push ends as it would have ended at the beginning. -/
theorem pushOutcome_congr {env : HubEnv} {s s' : HubState} (hdb : SameContents s.db s'.db)
    (hreceivers : SameReceivers s s') (p : NodePendingUpdate) :
    pushOutcome env s' p = pushOutcome env s p := by
  rw [pushOutcome, pushOutcome]
  cases CoreType.fromStr? p.coreType with
  | none => rfl
  | some core =>
    dsimp only
    rw [← (respects_preparePush env p.nodeId core true none).exec_eq hdb]
    cases (preparePush env p.nodeId core true none).exec s.db with
    | error e => rfl
    | ok message =>
      dsimp only
      rcases sendToAgent_congr hreceivers p.nodeId (.configPush message) with
        ⟨t, t', h, h'⟩ | ⟨e, h, h'⟩
      · rw [h, h']
      · rw [h, h']

/-- A delivery that is accepted records the version and deletes the marker. -/
theorem deliver_eq (s : HubState) (nodeId : Uuid) (core : CoreType) (message : ConfigPush) :
    deliver s nodeId core message = (sendToAgent s nodeId (.configPush message)).map fun _ =>
      ⟨clearPending s.db nodeId core,
        Function.update s.agents nodeId ((s.agents nodeId).map (·.sent core message))⟩ := by
  rw [deliver, sendToAgent]
  cases hconn : s.agents nodeId with
  | none => rfl
  | some conn =>
    dsimp only
    split
    · refine congrArg Except.ok ?_
      simp only [setAgentConfigVersion, HubState.setAgent, Function.update_self, Option.map_some,
        Function.update_idem, AgentConnection.sent]
    · rfl

/-- **A turn of the loop** by its outcome. -/
theorem pushOne_eq (env : HubEnv) (s : HubState) (p : NodePendingUpdate) :
    pushOne env s p =
      (afterOutcome s p (pushOutcome env s p), pushResultOf p (pushOutcome env s p)) := by
  rw [pushOne, pushOutcome]
  cases CoreType.fromStr? p.coreType with
  | none => rfl
  | some core =>
    dsimp only
    rw [pushNodeConfig]
    cases (preparePush env p.nodeId core true none).exec s.db with
    | error e => rfl
    | ok message =>
      have hbind : ∀ f : ConfigPush → PanelResult HubState,
          ((Except.ok message : PanelResult ConfigPush) >>= f) = f message := fun _ => rfl
      rw [hbind, deliver_eq]
      dsimp only
      cases sendToAgent s p.nodeId (.configPush message) with
      | error e => rfl
      | ok t => rfl

theorem sameContents_afterOutcome (s : HubState) (p : NodePendingUpdate)
    (outcome : Except String (CoreType × ConfigPush)) :
    SameContents s.db (afterOutcome s p outcome).db := by
  cases outcome with
  | error text => exact .refl s.db
  | ok sent => exact sameContents_clearPending s.db p.nodeId sent.1

theorem sameReceivers_afterOutcome (s : HubState) (p : NodePendingUpdate)
    (outcome : Except String (CoreType × ConfigPush)) :
    SameReceivers s (afterOutcome s p outcome) := by
  intro n
  cases outcome with
  | error text => rfl
  | ok sent =>
    change (Function.update s.agents p.nodeId _ n).map _ = _
    by_cases hn : n = p.nodeId
    · rw [hn, Function.update_self, Option.map_map]
      rfl
    · rw [Function.update_of_ne hn]

/-! ### The whole request -/

/-- The messages that the pushes of markers send to a node, in order. -/
def messagesFor (env : HubEnv) (s : HubState) (n : Uuid) (pendings : List NodePendingUpdate) :
    List (CoreType × ConfigPush) :=
  (pendings.filter (·.nodeId = n)).filterMap fun p => (pushOutcome env s p).toOption

/-- The marker of a node and core is deleted by the push of one of the markers. -/
def ClearedBy (env : HubEnv) (s : HubState) (pendings : List NodePendingUpdate)
    (row : NodePendingUpdate) : Prop :=
  ∃ p ∈ pendings, ∃ core message, pushOutcome env s p = .ok (core, message) ∧
    row.nodeId = p.nodeId ∧ row.coreType = core.toStr

/-- The state after pushes that end as they would have ended on a state before. -/
def afterPushes (env : HubEnv) (s₀ : HubState) (pendings : List NodePendingUpdate) (s : HubState) :
    HubState :=
  pendings.foldl (fun s p => afterOutcome s p (pushOutcome env s₀ p)) s

/-- The loop, from any point of it. -/
theorem foldl_pushOne (env : HubEnv) {s₀ s : HubState} (pendings : List NodePendingUpdate)
    (response : PushPendingResponse) (hdb : SameContents s₀.db s.db)
    (hreceivers : SameReceivers s₀ s) :
    pendings.foldl (fun (s, response) p =>
      let (s, result) := pushOne env s p
      (s, response.add result)) (s, response) =
    (afterPushes env s₀ pendings s,
      (pendings.map fun p => pushResultOf p (pushOutcome env s₀ p)).foldl .add response) := by
  induction pendings generalizing s response with
  | nil => rfl
  | cons p pendings ih =>
    rw [List.foldl_cons]
    dsimp only
    rw [pushOne_eq, pushOutcome_congr hdb hreceivers]
    exact ih _ (hdb.trans (sameContents_afterOutcome ..)) fun n =>
      (sameReceivers_afterOutcome s p _ n).trans (hreceivers n)

/-- The answer counts what it lists. -/
theorem foldl_add (results : List PushResult) (response : PushPendingResponse) :
    results.foldl .add response = ⟨response.results ++ results, response.total,
      response.succeeded + results.countP (·.error.isNone),
      response.failed + results.countP (!·.error.isNone)⟩ := by
  induction results generalizing response with
  | nil => rw [List.foldl_nil, List.append_nil]; rfl
  | cons result results ih =>
    rw [List.foldl_cons, ih, PushPendingResponse.add, List.append_assoc, List.singleton_append]
    cases hok : result.error.isNone with
    | true =>
      simp only [List.countP_cons, hok, if_true, Bool.not_true, Bool.false_eq_true, if_false,
        PushPendingResponse.mk.injEq, true_and]
      omega
    | false =>
      simp only [List.countP_cons, hok, if_true, Bool.not_false, Bool.false_eq_true, if_false,
        PushPendingResponse.mk.injEq, true_and]
      omega

theorem mem_afterOutcome {s : HubState} {p row : NodePendingUpdate}
    {outcome : Except String (CoreType × ConfigPush)} :
    row ∈ (afterOutcome s p outcome).db.nodePendingUpdates.rows ↔
      row ∈ s.db.nodePendingUpdates.rows ∧ ¬ ∃ core message, outcome = .ok (core, message) ∧
        row.nodeId = p.nodeId ∧ row.coreType = core.toStr := by
  cases outcome with
  | error text => exact (and_iff_left fun ⟨_, _, h, _⟩ => by cases h).symm
  | ok sent =>
    refine mem_clearPending.trans (and_congr_right fun _ => not_congr ?_)
    constructor
    · rintro ⟨hnode, hcore⟩
      exact ⟨sent.1, sent.2, rfl, hnode, hcore⟩
    · rintro ⟨core, message, h, hnode, hcore⟩
      cases h
      exact ⟨hnode, hcore⟩

theorem sameContents_afterPushes (env : HubEnv) (s₀ : HubState)
    (pendings : List NodePendingUpdate) (s : HubState) :
    SameContents s.db (afterPushes env s₀ pendings s).db := by
  induction pendings generalizing s with
  | nil => exact .refl s.db
  | cons p pendings ih => exact (sameContents_afterOutcome ..).trans (ih _)

/-- **The markers afterwards.** -/
theorem mem_afterPushes {env : HubEnv} {s₀ : HubState} {pendings : List NodePendingUpdate}
    {s : HubState} {row : NodePendingUpdate} :
    row ∈ (afterPushes env s₀ pendings s).db.nodePendingUpdates.rows ↔
      row ∈ s.db.nodePendingUpdates.rows ∧ ¬ ClearedBy env s₀ pendings row := by
  induction pendings generalizing s with
  | nil => exact (and_iff_left fun ⟨p, hp, _⟩ => absurd hp List.not_mem_nil).symm
  | cons p pendings ih =>
    have hcons : ClearedBy env s₀ (p :: pendings) row ↔
        (∃ core message, pushOutcome env s₀ p = .ok (core, message) ∧ row.nodeId = p.nodeId ∧
          row.coreType = core.toStr) ∨ ClearedBy env s₀ pendings row := by
      simp only [ClearedBy, List.exists_mem_cons_iff]
    rw [afterPushes, List.foldl_cons]
    refine ih.trans ?_
    rw [mem_afterOutcome, hcons, not_or, and_assoc]

theorem agents_afterOutcome {s : HubState} {p : NodePendingUpdate}
    {outcome : Except String (CoreType × ConfigPush)} (n : Uuid) :
    (afterOutcome s p outcome).agents n = (s.agents n).map fun conn =>
      (if p.nodeId = n then outcome.toOption.toList else []).foldl
        (fun conn sent => conn.sent sent.1 sent.2) conn := by
  have hsame : (s.agents n).map (fun conn => conn) = s.agents n := congrFun Option.map_id _
  cases outcome with
  | error text =>
    change s.agents n = (s.agents n).map fun conn => (if p.nodeId = n then [] else []).foldl _ conn
    rw [ite_self]
    exact hsame.symm
  | ok sent =>
    change Function.update s.agents p.nodeId _ n = _
    by_cases hn : p.nodeId = n
    · rw [if_pos hn, hn, Function.update_self]
      rfl
    · rw [if_neg hn, Function.update_of_ne (Ne.symm hn)]
      exact hsame.symm

/-- **The connections afterwards.** -/
theorem agents_afterPushes {env : HubEnv} {s₀ : HubState} {pendings : List NodePendingUpdate}
    {s : HubState} (n : Uuid) : (afterPushes env s₀ pendings s).agents n =
      (s.agents n).map fun conn => (messagesFor env s₀ n pendings).foldl
        (fun conn sent => conn.sent sent.1 sent.2) conn := by
  induction pendings generalizing s with
  | nil => exact (congrFun Option.map_id _).symm
  | cons p pendings ih =>
    have hcons : messagesFor env s₀ n (p :: pendings) =
        (if p.nodeId = n then (pushOutcome env s₀ p).toOption.toList else []) ++
          messagesFor env s₀ n pendings := by
      rw [messagesFor, List.filter_cons]
      by_cases hn : p.nodeId = n
      · rw [if_pos (decide_eq_true hn), if_pos hn, List.filterMap_cons]
        cases (pushOutcome env s₀ p).toOption with
        | none => rfl
        | some sent => rfl
      · rw [if_neg (by simpa using hn), if_neg hn]
        rfl
    rw [afterPushes, List.foldl_cons]
    refine ih.trans ?_
    rw [agents_afterOutcome, Option.map_map, hcons]
    refine congrArg (Option.map · _) (funext fun conn => ?_)
    exact List.foldl_append.symm

/-- What a list of messages does to a connection. -/
theorem outbox_foldl_sent (sent : List (CoreType × ConfigPush)) (conn : AgentConnection) :
    (sent.foldl (fun conn m => conn.sent m.1 m.2) conn).outbox =
      conn.outbox ++ sent.map (.configPush ·.2) := by
  induction sent generalizing conn with
  | nil => exact (List.append_nil _).symm
  | cons m sent ih =>
    rw [List.foldl_cons, ih, List.map_cons, AgentConnection.sent, List.append_assoc]
    rfl

/-- What `mark_pending` keeps of the table: one marker for a node and core, under the name of
the core. -/
structure PendingApart (db : Db) : Prop where
  apart : ∀ p ∈ db.nodePendingUpdates.rows, ∀ q ∈ db.nodePendingUpdates.rows,
    p.nodeId = q.nodeId → p.coreType = q.coreType → p = q
  core : ∀ p ∈ db.nodePendingUpdates.rows, ∃ core : CoreType, p.coreType = core.toStr

theorem PendingApart.updatePending {db db' : Db} (hdb : PendingApart db) {id : Uuid}
    {updateType : String} {now : DateTime}
    (h : Hub.updatePending db id updateType now = some db') : PendingApart db' := by
  rw [Hub.updatePending] at h
  split at h
  · cases h
    have hold : ∀ p ∈ (db.nodePendingUpdates.update id fun r =>
        { r with updateType := updateType, updatedAt := now }).rows,
        ∃ r ∈ db.nodePendingUpdates.rows, r.nodeId = p.nodeId ∧ r.coreType = p.coreType ∧
          p = if key r = id then { r with updateType := updateType, updatedAt := now } else r := by
      intro p hp
      obtain ⟨r, hr, rfl⟩ := List.mem_map.mp hp
      refine ⟨r, hr, ?_⟩
      by_cases hid : key r = id
      · rw [if_pos hid, if_pos ⟨hid, rfl⟩]
        exact ⟨rfl, rfl, rfl⟩
      · rw [if_neg hid, if_neg fun h => hid h.1]
        exact ⟨rfl, rfl, rfl⟩
    refine ⟨fun p hp q hq hnode hcore => ?_, fun p hp => ?_⟩
    · obtain ⟨r, hr, hrnode, hrcore, hprow⟩ := hold p hp
      obtain ⟨t, ht, htnode, htcore, hqrow⟩ := hold q hq
      have hsame := hdb.apart r hr t ht ((hrnode.trans hnode).trans htnode.symm)
        ((hrcore.trans hcore).trans htcore.symm)
      rw [hprow, hqrow, hsame]
    · obtain ⟨r, hr, -, hrcore, -⟩ := hold p hp
      obtain ⟨core, hcore⟩ := hdb.core r hr
      exact ⟨core, hrcore.symm.trans hcore⟩
  · cases h

theorem PendingApart.insertPending {db db' : Db} (hdb : PendingApart db) {row : NodePendingUpdate}
    (hcore : ∃ core : CoreType, row.coreType = core.toStr)
    (h : Hub.insertPending db row = some db') : PendingApart db' := by
  have hrows := mem_of_insertPending h
  have hnew : ∀ p ∈ db.nodePendingUpdates.rows, p.nodeId = row.nodeId →
      p.coreType ≠ row.coreType := by
    intro p hp hnode hsame
    rw [Hub.insertPending, if_pos] at h
    · cases h
    · exact List.any_eq_true.mpr ⟨p, hp, decide_eq_true ⟨hnode, hsame⟩⟩
  refine ⟨fun p hp q hq hnode hsame => ?_, fun p hp => ?_⟩
  · rw [hrows, List.mem_append, List.mem_singleton] at hp hq
    rcases hp with hp | rfl
    · rcases hq with hq | rfl
      · exact hdb.apart p hp q hq hnode hsame
      · exact absurd hsame (hnew p hp hnode)
    · rcases hq with hq | rfl
      · exact absurd hsame.symm (hnew q hq hnode.symm)
      · rfl
  · rw [hrows, List.mem_append, List.mem_singleton] at hp
    rcases hp with hp | rfl
    · exact hdb.core p hp
    · exact hcore

/-- **`mark_pending` keeps it**, also when it fails on the way. -/
theorem PendingApart.markPending {db : Db} (hdb : PendingApart db) (env : EditEnv)
    (core : CoreType) (updateType : String) (nodeIds : List Uuid) :
    PendingApart (Hub.markPending env core updateType nodeIds db) := by
  induction nodeIds generalizing db with
  | nil => exact hdb
  | cons nodeId nodeIds ih =>
    rw [Hub.markPending]
    split
    next db₁ hmark =>
      refine ih ?_
      rw [markNode] at hmark
      split at hmark
      · exact hdb.updatePending hmark
      · exact hdb.insertPending ⟨core, rfl⟩ hmark
    next => exact hdb

/-- A marker is deleted by its own push only. -/
theorem clearedBy_iff {env : HubEnv} {s : HubState} (hapart : PendingApart s.db)
    {pendings : List NodePendingUpdate}
    (hpendings : ∀ p ∈ pendings, p ∈ s.db.nodePendingUpdates.rows) {row : NodePendingUpdate}
    (hrow : row ∈ s.db.nodePendingUpdates.rows) :
    ClearedBy env s pendings row ↔
      row ∈ pendings ∧ (pushOutcome env s row).toBool = true := by
  have hcore : ∀ p ∈ s.db.nodePendingUpdates.rows, ∀ core message,
      pushOutcome env s p = .ok (core, message) → p.coreType = core.toStr := by
    intro p hp core message hok
    obtain ⟨core', hcore'⟩ := hapart.core p hp
    have hparse : CoreType.fromStr? core'.toStr = some core' := by cases core' <;> decide
    rw [pushOutcome, hcore', hparse] at hok
    dsimp only at hok
    split at hok
    · cases hok
    · split at hok
      · cases hok
        exact hcore'
      · cases hok
  constructor
  · rintro ⟨p, hp, core, message, hok, hnode, hrowCore⟩
    have hsame : row = p := hapart.apart row hrow p (hpendings p hp) hnode
      (hrowCore.trans (hcore p (hpendings p hp) core message hok).symm)
    rw [hsame, hok]
    exact ⟨hp, rfl⟩
  · rintro ⟨hmem, hok⟩
    cases houtcome : pushOutcome env s row with
    | error text =>
      rw [houtcome] at hok
      cases hok
    | ok sent =>
      exact ⟨row, hmem, sent.1, sent.2, houtcome, rfl, hcore row hrow sent.1 sent.2 houtcome⟩

/-- **Pushing what is pending.**  The answer has an entry for each selected marker, with the
error its push has on the state at the beginning, and counts them; a marker is gone if and
only if it was selected and its push succeeded; each agent is sent the messages of its own
successful entries, in order; a node without a connection still has none, and nothing else
changes. -/
theorem pushPending_spec (env : HubEnv) (payload : PushPendingPayload) (s : HubState)
    (hapart : PendingApart s.db) :
    let pendings := selectedPending payload s.db
    let s' := (pushPending env payload s).1
    let response := (pushPending env payload s).2
    response.results = pendings.map (fun p => pushResultOf p (pushOutcome env s p)) ∧
    response.total = pendings.length ∧ response.succeeded + response.failed = response.total ∧
    response.succeeded = response.results.countP (·.error.isNone) ∧
    SameContents s.db s'.db ∧
    (∀ row, row ∈ s'.db.nodePendingUpdates.rows ↔ row ∈ s.db.nodePendingUpdates.rows ∧
      (row ∈ pendings → (pushOutcome env s row).toBool = false)) ∧
    (∀ n, s.agents n = none → s'.agents n = none) ∧
    ∀ n conn, s.agents n = some conn →
      let conn' := (messagesFor env s n pendings).foldl (fun conn m => conn.sent m.1 m.2) conn
      s'.agents n = some conn' ∧
      conn'.outbox = conn.outbox ++ (messagesFor env s n pendings).map (.configPush ·.2) := by
  set pendings := selectedPending payload s.db with hselected
  set results := pendings.map (fun p => pushResultOf p (pushOutcome env s p)) with hresults
  have hpendings : ∀ p ∈ pendings, p ∈ s.db.nodePendingUpdates.rows :=
    fun p hp => (Table.mem_filter.mp hp).1
  have hpush : pushPending env payload s = (afterPushes env s pendings s, ⟨results,
      pendings.length, results.countP (·.error.isNone), results.countP (!·.error.isNone)⟩) := by
    have hloop := foldl_pushOne env pendings ⟨[], pendings.length, 0, 0⟩ (.refl s.db)
      fun _ => rfl
    rw [foldl_add, ← hresults] at hloop
    refine Eq.trans hloop ?_
    simp only [List.nil_append, Nat.zero_add]
  have hcount : results.length = results.countP (·.error.isNone) +
      results.countP (!·.error.isNone) := by
    simpa only [Bool.not_eq_true, Bool.decide_eq_false] using
      List.length_eq_countP_add_countP (l := results) fun r : PushResult => r.error.isNone
  have hlength : results.length = pendings.length := List.length_map ..
  rw [hpush]
  refine ⟨rfl, rfl, hcount.symm.trans hlength, rfl, sameContents_afterPushes .., fun row => ?_,
    fun n hnone => ?_, fun n conn hconn => ⟨?_, outbox_foldl_sent ..⟩⟩
  · rw [mem_afterPushes]
    refine and_congr_right fun hrow => ?_
    rw [clearedBy_iff hapart hpendings hrow, not_and, Bool.not_eq_true]
  · rw [agents_afterPushes, hnone]
    rfl
  · rw [agents_afterPushes, hconn]
    rfl

/-! ### A reachable and an unreachable node -/

namespace HalfReachable

def reachable : NodePendingUpdate := ⟨.ofNat 30, PresetUser.node, "mihomo", "config", default⟩

/-- A marker of a node without an agent. -/
def unreachable : NodePendingUpdate := ⟨.ofNat 31, .ofNat 32, "sing-box", "config", default⟩

def state : HubState where
  db := { PresetUser.db with nodePendingUpdates := ⟨[reachable, unreachable], by decide⟩ }
  agents n := if n = PresetUser.node then some ⟨[], true, fun _ => none⟩ else none

theorem pendingApart : PendingApart state.db where
  apart p hp q hq hnode _ := by
    rcases List.mem_pair.mp hp with rfl | rfl <;> rcases List.mem_pair.mp hq with rfl | rfl
    · rfl
    · exact absurd hnode (by decide)
    · exact absurd hnode (by decide)
    · rfl
  core p hp := by
    rcases List.mem_pair.mp hp with rfl | rfl
    · exact ⟨.mihomo, rfl⟩
    · exact ⟨.singBox, rfl⟩

end HalfReachable

/-- The marker that was pushed is gone, the other one stays. -/
theorem pushPending_spec_halfReachable :
    let s' := (pushPending MihomoPush.env ⟨none, none⟩ HalfReachable.state).1
    HalfReachable.reachable ∉ s'.db.nodePendingUpdates.rows ∧
      HalfReachable.unreachable ∈ s'.db.nodePendingUpdates.rows := by
  obtain ⟨_, _, _, _, _, hrows, _⟩ := pushPending_spec MihomoPush.env ⟨none, none⟩
    HalfReachable.state HalfReachable.pendingApart
  refine ⟨fun hmem => ?_, (hrows _).mpr ⟨List.mem_cons_of_mem _ List.mem_cons_self, fun _ => ?_⟩⟩
  · have hfailed := ((hrows _).mp hmem).2 List.mem_cons_self
    exact absurd hfailed (by decide)
  · decide

end ProxyPanel.Hub
