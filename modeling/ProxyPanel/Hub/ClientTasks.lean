import ProxyPanel.Hub.PeriodicChecks
import ProxyPanel.Lib.Versions

/-!
# Writers of clients side by side

Reports, online reports and the periodic checks run at the same time.  Each reads rows of
`clients` in one statement and writes them, one by one, in later ones, from the values it
read.  A `Task` is the list of these statements; statements on other tables, between which
nothing happens to a client, are left out.  Run by itself a task is the handler of
`Hub.Clients` (`alone_trafficTask` and its siblings).

`updates_kept` is about all interleavings: nothing is lost and no status is overwritten
unseen while no row is written between the read and the write of another task.
`overlap_not_kept` is what happens otherwise.
-/

namespace ProxyPanel.Hub.ClientTasks

open Versions

/-! ### Statements -/

/-- A statement that writes the row of a client, with the row as it was read. -/
inductive Statement where
  | count (seen : Client) (upload download : Int)
  | reset (seen : Client) (now : DateTime)
  | limit (seen : Client) (status : String)
  | endHold (seen : Client)
  | activate (seen : Client) (date : Option DateTime) (now : DateTime)

namespace Statement

def seen : Statement → Client
  | count seen _ _ | reset seen _ | limit seen _ | endHold seen | activate seen _ _ => seen

/-- The columns that are set, on the row as it is now. -/
def row : Statement → Client → Client
  | count seen upload download, r =>
    { r with trafficUsedBytes := addI64 (addI64 seen.trafficUsedBytes upload) download }
  | reset seen now, r => resetPeriod now seen r
  | limit _ status, r => { r with status }
  | endHold _, r => { r with status := "expired" }
  | activate _ date now, r => { r with status := "active", expiryDate := date, updatedAt := now }

def exec (db : Db) (s : Statement) : Db :=
  { db with clients := db.clients.update s.seen.id s.row }

/-- Whether one of the two counters is set. -/
def writesCounters : Statement → Bool
  | count .. | reset .. => true
  | limit .. | endHold .. | activate .. => false

/-- The status that is set, if one is. -/
def written : Statement → Option String
  | count .. => none
  | reset seen _ => if seen.status = "limited" then some "active" else none
  | limit _ status => some status
  | endHold _ => some "expired"
  | activate .. => some "active"

/-- The bytes that are counted for a client. -/
def bytes (id : Uuid) : Statement → Int
  | count seen upload download => if seen.id = id then upload + download else 0
  | _ => 0

/-- The 64-bit sums do not overflow. -/
def Fits : Statement → Prop
  | count seen upload download => FitsI64 (seen.trafficUsedBytes + upload + download)
  | reset seen _ => FitsI64 (seen.allTimeUsedBytes + seen.trafficUsedBytes)
  | limit .. | endHold .. | activate .. => True

end Statement

/-! ### Tasks -/

/-- What is left of a task: a statement that reads, or the statements that follow from what
was read and then the rest. -/
inductive Task where
  | done
  | reading (k : Db → Task)
  | working (work : List Statement) (next : Task)

/-- The write of one entry of a report; a client on hold is skipped. -/
def countStatement (countBytes : CountBytes) (rate : BitVec 32) (resolved : List (String × Uuid))
    (clients : Table Client) (user : UserTraffic) : Option Statement := do
  let clientId ← resolve resolved user.clientId
  let c ← clients.find clientId
  if c.status = "on_hold" then none
  else some (.count c (countBytes rate user.uploadBytes) (countBytes rate user.downloadBytes))

/-- `handle_traffic`: the rate of the node, the emails, the clients, then their counters. -/
def trafficTask (countBytes : CountBytes) (agentId : Uuid) (users : List UserTraffic) : Task :=
  .reading fun db =>
    let rate := nodeRate db agentId
    .reading fun db =>
      let resolved := resolveClientIds db (users.map (·.clientId))
      .reading fun db =>
        .working (users.filterMap (countStatement countBytes rate resolved db.clients)) .done

/-- `check_client_traffic_resets`, `check_client_limits` and `check_on_hold_timeouts`. -/
def checksTask (resetsAt : DateTime) (limitsAt : Client → DateTime) (holdsAt : DateTime) : Task :=
  .reading fun db => .working
      ((db.clients.filter fun c => c.status = "active" ∨ c.status = "limited").filterMap fun c =>
        if shouldReset resetsAt c then some (.reset c resetsAt) else none) <|
    .reading fun db => .working
        ((db.clients.filter fun c => c.status = "active").filterMap fun c =>
          (limitedStatus (limitsAt c) c).map (.limit c)) <|
      .reading fun db => .working
        ((db.clients.filter fun c => c.status = "on_hold").filterMap fun c =>
          if c.onHoldTimeout.any (·.before holdsAt) then some (.endHold c) else none) .done

/-- The activations of an online report, up to one that panics.  `reported` are the connections
met so far. -/
def activations (clients : Table Client) (resolved : List (String × Uuid)) (times : OnlineTimes) :
    List (Uuid × String) → List (OnlineUser × Uuid) → List Statement
  | _, [] => []
  | reported, user :: users =>
    match resolve resolved user.1.clientId with
    | none => activations clients resolved times reported users
    | some clientId =>
      if (clientId, user.1.ipAddress) ∈ reported then
        activations clients resolved times reported users
      else
        let rest := activations clients resolved times ((clientId, user.1.ipAddress) :: reported) users
        match clients.find clientId with
        | none => rest
        | some c =>
          if c.status = "on_hold" then
            match expireDate c (times.entryAt user) with
            | none => []
            | some date => .activate c date (times.entryAt user) :: rest
          else rest

/-- `handle_online_users`, as far as it writes clients. -/
def onlineTask (users : List (OnlineUser × Uuid)) (times : OnlineTimes) : Task :=
  .reading fun db =>
    let resolved := resolveClientIds db (users.map (·.1.clientId))
    .reading fun db => .working (activations db.clients resolved times [] users) .done

namespace Task

/-- The task without any other one. -/
def alone : Task → Db → Db
  | done, db => db
  | reading k, db => (k db).alone db
  | working work next, db => next.alone (work.foldl Statement.exec db)

/-- The statements that follow from what was read last. -/
def work : Task → List Statement
  | working work _ => work
  | done | reading _ => []

/-- The bytes a task still has to count for a client. -/
def bytes (id : Uuid) (t : Task) : Int := (t.work.map (Statement.bytes id)).sum

end Task

/-! ### The system -/

/-- A task and the versions of the rows when it read last. -/
structure Running where
  task : Task
  counterVersions : Uuid → Nat
  statusVersions : Uuid → Nat

/-- A status that was set: the one the writer had read, the one it replaced, the new one. -/
structure Transition where
  client : Uuid
  read : String
  replaced : Option String
  written : String
  deriving DecidableEq

/-- The code keeps `db` and the tasks.  Beside them: how often the counters and the status of
each client were written, the bytes the reports had to count for it, and the statuses set. -/
structure State where
  db : Db
  tasks : List Running
  counterVersions : Uuid → Nat
  statusVersions : Uuid → Nat
  due : Uuid → Int
  transitions : List Transition

def initial (db : Db) : State := ⟨db, [], fun _ => 0, fun _ => 0, fun _ => 0, []⟩

inductive Action where
  | report (agentId : Uuid) (users : List UserTraffic)
  | checks (resetsAt : DateTime) (limitsAt : Client → DateTime) (holdsAt : DateTime)
  | online (users : List (OnlineUser × Uuid)) (times : OnlineTimes)
  | advance (i : Nat)

def statusOf (db : Db) (id : Uuid) : Option String := (db.clients.find id).map (·.status)

def bump (versions : Uuid → Nat) (id : Uuid) : Uuid → Nat :=
  Function.update versions id (versions id + 1)

namespace State

def begin (st : State) (task : Task) : State :=
  { st with tasks := st.tasks ++ [⟨task, st.counterVersions, st.statusVersions⟩] }

/-- A statement that reads.  What it makes a report count becomes due. -/
def read (st : State) (i : Nat) (task : Task) : State :=
  { st with
    tasks := st.tasks.set i ⟨task, st.counterVersions, st.statusVersions⟩
    due := fun id => st.due id + task.bytes id }

/-- A statement that writes. -/
def write (st : State) (i : Nat) (running : Running) (s : Statement) (task : Task) : State where
  db := s.exec st.db
  tasks := st.tasks.set i { running with task }
  counterVersions :=
    if s.writesCounters then bump st.counterVersions s.seen.id else st.counterVersions
  statusVersions :=
    if s.written.isSome then bump st.statusVersions s.seen.id else st.statusVersions
  due := st.due
  transitions := st.transitions ++ s.written.toList.map fun status =>
    ⟨s.seen.id, s.seen.status, statusOf st.db s.seen.id, status⟩

end State

def step (countBytes : CountBytes) (st : State) : Action → Option State
  | .report agentId users => some (st.begin (trafficTask countBytes agentId users))
  | .checks resetsAt limitsAt holdsAt => some (st.begin (checksTask resetsAt limitsAt holdsAt))
  | .online users times => some (st.begin (onlineTask users times))
  | .advance i =>
    match st.tasks[i]? with
    | none => none
    | some running =>
      match running.task with
      | .done => none
      | .reading k => some (st.read i (k st.db))
      | .working [] next => some { st with tasks := st.tasks.set i { running with task := next } }
      | .working (s :: work) next => some (st.write i running s (.working work next))

/-- The next write of a task finds the counters, or the status, unwritten since the task
read the row. -/
def Running.Unwritten (running : Running) (st : State) : Prop :=
  match running.task with
  | .working (s :: _) _ =>
    (s.writesCounters = true →
      running.counterVersions s.seen.id = st.counterVersions s.seen.id) ∧
    (s.written.isSome = true →
      running.statusVersions s.seen.id = st.statusVersions s.seen.id) ∧ s.Fits
  | .working [] _ | .reading _ | .done => True

/-- **No overlap.**  What a statement sets it finds unwritten, and 64-bit sums do not
overflow. -/
def Unwritten (st : State) : Action → Prop
  | .advance i => ∀ running ∈ st.tasks[i]?, running.Unwritten st
  | .report .. | .checks .. | .online .. => True

def Task.Finished : Task → Prop
  | .done => True
  | .reading _ | .working .. => False

/-- Every task has finished. -/
def State.Finished (st : State) : Prop := ∀ running ∈ st.tasks, running.task.Finished

section Decidable

instance : (s : Statement) → Decidable s.Fits
  | .count .. | .reset .. => inferInstanceAs (Decidable (_ ∧ _))
  | .limit .. | .endHold .. | .activate .. => isTrue trivial

instance (st : State) : (running : Running) → Decidable (running.Unwritten st)
  | ⟨.working (_ :: _) _, _, _⟩ => inferInstanceAs (Decidable (_ ∧ _ ∧ _))
  | ⟨.working [] _, _, _⟩ | ⟨.reading _, _, _⟩ | ⟨.done, _, _⟩ => isTrue trivial

instance (st : State) : (a : Action) → Decidable (Unwritten st a)
  | .advance i => inferInstanceAs (Decidable (∀ running ∈ st.tasks[i]?, running.Unwritten st))
  | .report .. | .checks .. | .online .. => isTrue trivial

instance : (task : Task) → Decidable task.Finished
  | .done => isTrue trivial
  | .reading _ | .working .. => isFalse id

instance (st : State) : Decidable st.Finished :=
  inferInstanceAs (Decidable (∀ running ∈ st.tasks, running.task.Finished))

end Decidable

/-- **No update is lost.**  When all tasks have finished, the counters have grown by what the
reports had to count; and every status that was set replaced the one its writer had read. -/
structure Kept (db : Db) (st : State) : Prop where
  usage : st.Finished → ∀ id c, db.clients.find id = some c → ∃ c',
    st.db.clients.find id = some c' ∧ c'.allTimeUsedBytes + c'.trafficUsedBytes =
      c.allTimeUsedBytes + c.trafficUsedBytes + st.due id
  status : ∀ t ∈ st.transitions, t.replaced = some t.read

/-! ### One task by itself -/

theorem exec_count {seen : Client} (h : seen.status ≠ "on_hold") (db : Db) (upload download : Int) :
    (Statement.count seen upload download).exec db = countTraffic db (some seen) upload download := by
  rw [countTraffic, if_neg h]
  rfl

theorem exec_activate {seen : Client} (h : seen.status = "on_hold") (db : Db) (now : DateTime) :
    activateOnHold db (some seen) now =
      (expireDate seen now).map fun date => (Statement.activate seen date now).exec db := by
  rw [activateOnHold, if_pos h]
  rfl

/-- A statement that is left out writes nothing. -/
theorem clients_foldl_filterMap {α : Type} {f : α → Option Statement} {g : Db → α → Db}
    (h : ∀ d d' a, d.clients = d'.clients →
      (g d a).clients = ((f a).toList.foldl (fun d s => Statement.exec d s) d').clients)
    (as : List α) {d d' : Db} (hd : d.clients = d'.clients) :
    (as.foldl g d).clients = ((as.filterMap f).foldl Statement.exec d').clients := by
  induction as generalizing d d' with
  | nil => exact hd
  | cons a as ih =>
    have hstep := h d d' a hd
    rw [List.foldl_cons, List.filterMap_cons]
    cases hf : f a with
    | none =>
      rw [hf] at hstep
      exact ih hstep
    | some s =>
      rw [hf] at hstep
      exact ih hstep

theorem clients_exec_congr {d d' : Db} (h : d.clients = d'.clients) (s : Statement) :
    (s.exec d).clients = (s.exec d').clients :=
  congrArg (fun t : Table Client => t.update s.seen.id s.row) h

/-- A report by itself is `handle_traffic`. -/
theorem alone_trafficTask (countBytes : CountBytes) (agentId : Uuid)
    (users : List (UserTraffic × Uuid)) (hour : DateTime) (db : Db) :
    ((trafficTask countBytes agentId (users.map (·.1))).alone db).clients =
      (handleTraffic countBytes db agentId users hour).clients := by
  simp only [trafficTask, Task.alone, handleTraffic, List.map_map, List.filterMap_map,
    Function.comp_def]
  generalize resolveClientIds db (users.map fun u => u.1.clientId) = resolved
  refine (clients_foldl_filterMap ?_ users rfl).symm
  intro d d' user hd
  simp only [handleUserTraffic, countStatement]
  cases resolve resolved user.1.clientId with
  | none => exact hd
  | some clientId =>
    simp only [Option.bind_eq_bind, Option.bind_some]
    cases hc : db.clients.find clientId with
    | none =>
      simp only [countTraffic, clients_upsertUsage]
      exact hd
    | some c =>
      simp only [Option.bind_some]
      by_cases hhold : c.status = "on_hold"
      · rw [if_pos hhold, countTraffic, if_pos hhold, clients_upsertUsage]
        exact hd
      · rw [if_neg hhold, ← exec_count hhold]
        refine clients_exec_congr ?_ _
        rw [clients_upsertUsage]
        exact hd

/-- A pass over rows: a row without a statement is one that an update leaves alone. -/
theorem clients_pass {f : Client → Client → Client} {g : Client → Option Statement}
    (h : ∀ c, match g c with
      | some s => s.seen.id = c.id ∧ s.row = f c
      | none => f c = fun r => r) (rows : List Client) (d : Db) :
    (rows.filterMap g).foldl Statement.exec d = { d with clients := d.clients.updateEach rows f } := by
  induction rows generalizing d with
  | nil => rfl
  | cons c rows ih =>
    have hrow := h c
    rw [List.filterMap_cons]
    cases hg : g c with
    | none =>
      simp only [hg] at hrow ⊢
      rw [ih, Table.updateEach, Table.updateEach, List.foldl_cons, hrow, Table.update_id]
    | some s =>
      simp only [hg] at hrow ⊢
      rw [List.foldl_cons, ih, Statement.exec, hrow.1, hrow.2]
      rfl

/-- The checks by themselves are `run_periodic_checks`. -/
theorem alone_checksTask (resetsAt : DateTime) (limitsAt : Client → DateTime) (holdsAt : DateTime)
    (db : Db) : (checksTask resetsAt limitsAt holdsAt).alone db =
      runPeriodicChecks resetsAt limitsAt holdsAt db := by
  have hresets : ∀ d : Db, ((d.clients.filter fun c => c.status = "active" ∨ c.status = "limited"
      ).filterMap fun c => if shouldReset resetsAt c then some (.reset c resetsAt) else none).foldl
        Statement.exec d = checkClientTrafficResets resetsAt d := by
    intro d
    refine clients_pass (fun c => ?_) _ d
    split
    · rename_i hg
      split at hg
      · rename_i hdue
        cases hg
        simp only [hdue, if_true]
        exact ⟨rfl, rfl⟩
      · cases hg
    · rename_i hg
      split at hg
      · cases hg
      · rename_i hdue
        simp only [hdue, Bool.false_eq_true, if_false]
  have hlimits : ∀ d : Db, ((d.clients.filter fun c => c.status = "active").filterMap fun c =>
      (limitedStatus (limitsAt c) c).map (.limit c)).foldl Statement.exec d =
        checkClientLimits limitsAt d := by
    intro d
    refine clients_pass (fun c => ?_) _ d
    cases limitedStatus (limitsAt c) c with
    | none => rfl
    | some status => exact ⟨rfl, rfl⟩
  have hholds : ∀ d : Db, ((d.clients.filter fun c => c.status = "on_hold").filterMap fun c =>
      if c.onHoldTimeout.any (·.before holdsAt) then some (.endHold c) else none).foldl
        Statement.exec d = checkOnHoldTimeouts holdsAt d := by
    intro d
    refine clients_pass (fun c => ?_) _ d
    cases c.onHoldTimeout.any (·.before holdsAt) with
    | true => exact ⟨rfl, rfl⟩
    | false => rfl
  simp only [checksTask, Task.alone]
  rw [hresets, hlimits, hholds, runPeriodicChecks]

/-- The activations of a report, as statements and in the loop. -/
theorem clients_foldl_activations {clients : Table Client} {times : OnlineTimes} (agentId : Uuid)
    (sessions : List ClientOnlineSession) {resolved : List (String × Uuid)}
    (users : List (OnlineUser × Uuid)) {d : Db} {s : OnlineLoop} (hs : s.panicked = false)
    (h : d.clients = s.db.clients) :
    ((activations clients resolved times s.reported users).foldl Statement.exec d).clients =
      (users.foldl (handleOnlineUser clients sessions resolved agentId times) s).db.clients := by
  induction users generalizing d s with
  | nil => exact h
  | cons user users ih =>
    rw [activations, List.foldl_cons, handleOnlineUser, if_neg (Bool.eq_false_iff.mp hs)]
    cases resolve resolved user.1.clientId with
    | none => exact ih hs h
    | some clientId =>
      simp only
      by_cases hreported : (clientId, user.1.ipAddress) ∈ s.reported
      · simp only [hreported, if_true]
        exact ih hs h
      · simp only [hreported, if_false]
        have hnext := fun (d' db' : Db) (hd' : d'.clients = db'.clients) =>
          @ih d' ⟨(upsertSession db' sessions agentId clientId times user).1,
            (clientId, user.1.ipAddress) :: s.reported,
            (upsertSession db' sessions agentId clientId times user).2.toList ++ s.kept, false⟩
            rfl (hd'.trans (clients_upsertSession db' sessions agentId clientId times user).symm)
        cases hc : clients.find clientId with
        | none => exact hnext d s.db h
        | some c =>
          by_cases hhold : c.status = "on_hold"
          · simp only [hhold, if_true, exec_activate hhold]
            cases expireDate c (times.entryAt user) with
            | none =>
              rw [foldl_handleOnlineUser_of_panicked rfl]
              exact h
            | some date => exact hnext _ _ (clients_exec_congr h _)
          · simp only [hhold, if_false, activateOnHold]
            exact hnext d s.db h

/-- An online report by itself does to the clients what `handle_online_users` does. -/
theorem alone_onlineTask (agentId : Uuid) (users : List (OnlineUser × Uuid)) (times : OnlineTimes)
    (db : Db) : ((onlineTask users times).alone db).clients =
      (handleOnlineUsers db agentId users times).clients := by
  have hend : ((onlineTask users times).alone db).clients =
      (onlineLoop db agentId users times).db.clients := by
    rw [onlineLoop]
    exact @clients_foldl_activations db.clients times agentId _ _ users db (OnlineLoop.start db)
      rfl rfl
  rw [handleOnlineUsers]
  split
  · exact hend
  · exact hend

/-! ### What a task holds -/

/-- What a task writes next is from the rows it has just read. -/
def Task.Sound : Task → Prop
  | .done => True
  | .reading k => ∀ db, (∀ s ∈ (k db).work, db.clients.find s.seen.id = some s.seen) ∧ (k db).Sound
  | .working _ next => next.work = [] ∧ next.Sound

theorem mem_countStatements {countBytes : CountBytes} {rate : BitVec 32}
    {resolved : List (String × Uuid)} {clients : Table Client} {users : List UserTraffic}
    {s : Statement} (h : s ∈ users.filterMap (countStatement countBytes rate resolved clients)) :
    clients.find s.seen.id = some s.seen := by
  obtain ⟨user, -, hs⟩ := List.mem_filterMap.mp h
  simp only [countStatement, Option.bind_eq_bind, Option.bind_eq_some_iff] at hs
  obtain ⟨clientId, -, c, hc, hs⟩ := hs
  split at hs
  · cases hs
  · cases hs
    obtain rfl : c.id = clientId := Table.key_of_find hc
    exact hc

theorem sound_trafficTask (countBytes : CountBytes) (agentId : Uuid) (users : List UserTraffic) :
    (trafficTask countBytes agentId users).Sound := by
  refine fun _ => ⟨fun _ h => (nomatch h), fun _ => ⟨fun _ h => (nomatch h), fun db => ?_⟩⟩
  exact ⟨fun s hs => mem_countStatements hs, rfl, trivial⟩

/-- The rows of a pass are rows of the table. -/
theorem find_of_mem_pass {t : Table Client} {p : Client → Bool} {g : Client → Option Statement}
    (h : ∀ c s, g c = some s → s.seen = c) {s : Statement} (hs : s ∈ (t.filter p).filterMap g) :
    t.find s.seen.id = some s.seen := by
  obtain ⟨c, hc, hg⟩ := List.mem_filterMap.mp hs
  rw [h c s hg]
  exact Table.find_eq_some_iff.mpr ⟨(Table.mem_filter.mp hc).1, rfl⟩

theorem sound_checksTask (resetsAt : DateTime) (limitsAt : Client → DateTime) (holdsAt : DateTime) :
    (checksTask resetsAt limitsAt holdsAt).Sound := by
  refine fun resets => ⟨fun s hs => find_of_mem_pass (fun c s hg => ?_) hs, rfl, fun limits =>
    ⟨fun s hs => find_of_mem_pass (fun c s hg => ?_) hs, rfl, fun holds =>
      ⟨fun s hs => find_of_mem_pass (fun c s hg => ?_) hs, rfl, trivial⟩⟩⟩
  · split at hg
    · cases hg
      rfl
    · cases hg
  · obtain ⟨status, -, rfl⟩ := Option.map_eq_some_iff.mp hg
    rfl
  · split at hg
    · cases hg
      rfl
    · cases hg

theorem mem_activations {clients : Table Client} {resolved : List (String × Uuid)}
    {times : OnlineTimes} {users : List (OnlineUser × Uuid)} {reported : List (Uuid × String)}
    {s : Statement} (h : s ∈ activations clients resolved times reported users) :
    clients.find s.seen.id = some s.seen := by
  fun_induction activations clients resolved times reported users with
  | case1 => cases h
  | case2 reported user users hr ih => exact ih h
  | case3 reported user users clientId hr hreported ih => exact ih h
  | case4 reported user users clientId hr hreported rest hc ih => exact ih h
  | case5 reported user users clientId hr hreported c hc hhold hdate => cases h
  | case6 reported user users clientId hr hreported rest c hc hhold date hdate ih =>
    rcases List.mem_cons.mp h with rfl | h
    · obtain rfl : c.id = clientId := Table.key_of_find hc
      exact hc
    · exact ih h
  | case7 reported user users clientId hr hreported rest c hc hhold ih => exact ih h

theorem sound_onlineTask (users : List (OnlineUser × Uuid)) (times : OnlineTimes) :
    (onlineTask users times).Sound :=
  fun _ => ⟨fun _ h => (nomatch h), fun _ => ⟨fun _ hs => mem_activations hs, rfl, trivial⟩⟩

/-- **What a report has to count.**  The entries for the client at the rate of the node,
unless the client is on hold. -/
theorem bytes_countStatements (countBytes : CountBytes) (rate : BitVec 32)
    (resolved : List (String × Uuid)) (clients : Table Client) (users : List UserTraffic)
    (id : Uuid) :
    ((users.filterMap (countStatement countBytes rate resolved clients)).map
        (Statement.bytes id)).sum =
      match clients.find id with
      | none => 0
      | some c => if c.status = "on_hold" then 0 else
          ((users.filter fun u => resolve resolved u.clientId = some id).map
            (countedBytes countBytes rate)).sum := by
  induction users with
  | nil =>
    cases clients.find id with
    | none => rfl
    | some c => exact (ite_self _).symm
  | cons user users ih =>
    rw [List.filterMap_cons, List.filter_cons]
    by_cases hr : resolve resolved user.clientId = some id
    · simp only [countStatement, hr, Option.bind_eq_bind, Option.bind_some, decide_true, if_true,
        List.map_cons, List.sum_cons]
      cases hc : clients.find id with
      | none =>
        simp only [hc] at ih
        exact ih
      | some c =>
        obtain rfl : c.id = id := Table.key_of_find hc
        simp only [hc] at ih
        by_cases hhold : c.status = "on_hold"
        · simp only [Option.bind_some, hhold, if_true] at ih ⊢
          exact ih
        · simp only [Option.bind_some, hhold, if_false, List.map_cons, List.sum_cons, ih,
            Statement.bytes, countedBytes, if_true]
    · have hother : ∀ s, countStatement countBytes rate resolved clients user = some s →
          s.bytes id = 0 := by
        intro s hs
        simp only [countStatement, Option.bind_eq_bind, Option.bind_eq_some_iff] at hs
        obtain ⟨clientId, hr', c, hc, hs⟩ := hs
        split at hs
        · cases hs
        · cases hs
          refine if_neg fun hid => hr ?_
          rw [hr', ← hid, ← Table.key_of_find hc]
          rfl
      simp only [hr, decide_false, Bool.false_eq_true, if_false]
      cases hs : countStatement countBytes rate resolved clients user with
      | none => exact ih
      | some s =>
        simp only [List.map_cons, List.sum_cons, hother s hs, Int.zero_add]
        exact ih

/-! ### What one statement does -/

namespace Statement

@[simp] theorem id_row (s : Statement) (r : Client) : (s.row r).id = r.id := by
  cases s <;> rfl

theorem find_exec_self (s : Statement) (db : Db) :
    (s.exec db).clients.find s.seen.id = (db.clients.find s.seen.id).map s.row :=
  find_update_client (id_row s)

theorem find_exec_of_ne {s : Statement} {id : Uuid} (h : id ≠ s.seen.id) (db : Db) :
    (s.exec db).clients.find id = db.clients.find id :=
  Table.find_update_of_ne h _

theorem counters_exec_of_ne {s : Statement} {id : Uuid} (h : id ≠ s.seen.id) (db : Db) :
    counters (s.exec db) id = counters db id := by
  rw [counters, counters, find_exec_of_ne h]

theorem statusOf_exec_of_ne {s : Statement} {id : Uuid} (h : id ≠ s.seen.id) (db : Db) :
    statusOf (s.exec db) id = statusOf db id := by
  rw [statusOf, statusOf, find_exec_of_ne h]

theorem counters_exec {s : Statement} (h : s.writesCounters = false) (db : Db) (id : Uuid) :
    counters (s.exec db) id = counters db id := by
  refine counters_update db id s.seen.id (id_row s) fun c => ?_
  cases s with
  | count => cases h
  | reset => cases h
  | limit | endHold | activate => exact ⟨rfl, rfl⟩

theorem status_row {s : Statement} (h : s.written = none) (r : Client) :
    (s.row r).status = r.status := by
  cases s with
  | count => rfl
  | reset seen now =>
    simp only [written, ite_eq_right_iff, reduceCtorEq, imp_false] at h
    simp only [row, resetPeriod, h, if_false]
  | limit | endHold | activate => cases h

theorem statusOf_exec {s : Statement} (h : s.written = none) (db : Db) (id : Uuid) :
    statusOf (s.exec db) id = statusOf db id := by
  by_cases hid : id = s.seen.id
  · rw [hid, statusOf, statusOf, find_exec_self, Option.map_map]
    exact congrArg (Option.map · _) (funext (status_row h))
  · exact statusOf_exec_of_ne hid db

/-- A status that is written is the status of the row. -/
theorem status_row_of_written {s : Statement} {status : String} (h : s.written = some status)
    (r : Client) : (s.row r).status = status := by
  cases s with
  | count => cases h
  | reset seen now =>
    simp only [written, Option.ite_none_right_eq_some, Option.some.injEq] at h
    obtain ⟨hlimited, rfl⟩ := h
    simp only [row, resetPeriod, hlimited, if_true]
  | limit | endHold | activate =>
    cases h
    rfl

theorem bytes_of_ne {s : Statement} {id : Uuid} (h : id ≠ s.seen.id) : s.bytes id = 0 := by
  cases s with
  | count seen upload download => exact if_neg (Ne.symm h)
  | reset | limit | endHold | activate => rfl

theorem bytes_eq_zero {s : Statement} (h : s.writesCounters = false) (id : Uuid) :
    s.bytes id = 0 := by
  cases s with
  | count => cases h
  | reset => cases h
  | limit | endHold | activate => rfl

/-- From the counters its task read, a statement adds what it counts and nothing else. -/
theorem total_row {s : Statement} (h : s.writesCounters = true) (hfits : s.Fits) {r : Client}
    (hall : r.allTimeUsedBytes = s.seen.allTimeUsedBytes)
    (hused : r.trafficUsedBytes = s.seen.trafficUsedBytes) :
    (s.row r).allTimeUsedBytes + (s.row r).trafficUsedBytes =
      r.allTimeUsedBytes + r.trafficUsedBytes + s.bytes s.seen.id := by
  cases s with
  | count seen upload download =>
    simp only [row, bytes, Statement.seen, if_true] at hused ⊢
    rw [addI64_addI64, bmod_eq_self_iff.mpr hfits, hused]
    omega
  | reset seen now =>
    simp only [row, resetPeriod, bytes, Statement.seen] at hall hused ⊢
    rw [addI64_eq_iff.mpr hfits, hall, hused]
  | limit | endHold | activate => cases h

/-- The counters together after a statement that finds what its task read. -/
theorem total_exec {s : Statement} {db : Db} {id : Uuid} {p : Int × Int}
    (hseen : s.writesCounters = true →
      counters db s.seen.id = some (s.seen.allTimeUsedBytes, s.seen.trafficUsedBytes))
    (hfits : s.Fits) (hp : counters db id = some p) :
    ∃ p', counters (s.exec db) id = some p' ∧ p'.1 + p'.2 = p.1 + p.2 + s.bytes id := by
  by_cases hid : id = s.seen.id
  · subst hid
    cases hwrites : s.writesCounters with
    | false =>
      refine ⟨p, (counters_exec hwrites db _).trans hp, ?_⟩
      rw [bytes_eq_zero hwrites, Int.add_zero]
    | true =>
      obtain ⟨r, hr, rfl⟩ := Option.map_eq_some_iff.mp hp
      obtain ⟨hall, hused⟩ := Prod.mk.inj (Option.some.inj (hp.symm.trans (hseen hwrites)))
      refine ⟨((s.row r).allTimeUsedBytes, (s.row r).trafficUsedBytes), ?_, ?_⟩
      · rw [counters, find_exec_self, hr]
        rfl
      · exact total_row hwrites hfits hall hused
  · refine ⟨p, (counters_exec_of_ne hid db).trans hp, ?_⟩
    rw [bytes_of_ne hid, Int.add_zero]

end Statement

/-- What a task knows of the counters, over the statement of another one. -/
theorem seen_counters {db : Db} {versions : Uuid → Nat} {id : Uuid} {v : Option (Int × Int)}
    {n : Nat} (s : Statement) (h : Seen (counters db) versions id v n) :
    Seen (counters (s.exec db))
      (if s.writesCounters then bump versions s.seen.id else versions) id v n := by
  cases hwrites : s.writesCounters with
  | false => exact h.frame (Statement.counters_exec hwrites db id)
  | true => exact h.write fun id' hid => Statement.counters_exec_of_ne hid db

theorem seen_status {db : Db} {versions : Uuid → Nat} {id : Uuid} {v : Option String}
    {n : Nat} (s : Statement) (h : Seen (statusOf db) versions id v n) :
    Seen (statusOf (s.exec db))
      (if s.written.isSome then bump versions s.seen.id else versions) id v n := by
  cases hwritten : s.written with
  | none => exact h.frame (Statement.statusOf_exec hwritten db id)
  | some status => exact h.write fun id' hid => Statement.statusOf_exec_of_ne hid db

/-! ### Runs without overlap -/

/-- What a step does: a task begins, reads, has written all it had to, or writes. -/
theorem step_cases {countBytes : CountBytes} {st st' : State} {a : Action}
    (h : step countBytes st a = some st') :
    (∃ task, task.Sound ∧ task.work = [] ∧ st' = st.begin task) ∨
    ∃ i running, a = .advance i ∧ st.tasks[i]? = some running ∧
      ((∃ k, running.task = .reading k ∧ st' = st.read i (k st.db)) ∨
       (∃ next, running.task = .working [] next ∧
         st' = { st with tasks := st.tasks.set i { running with task := next } }) ∨
       ∃ s work next, running.task = .working (s :: work) next ∧
         st' = st.write i running s (.working work next)) := by
  cases a with
  | report agentId users =>
    exact .inl ⟨_, sound_trafficTask countBytes agentId users, rfl, (Option.some.inj h).symm⟩
  | checks resetsAt limitsAt holdsAt =>
    exact .inl ⟨_, sound_checksTask resetsAt limitsAt holdsAt, rfl, (Option.some.inj h).symm⟩
  | online users times =>
    exact .inl ⟨_, sound_onlineTask users times, rfl, (Option.some.inj h).symm⟩
  | advance i =>
    rw [step] at h
    cases hi : st.tasks[i]? with
    | none =>
      rw [hi] at h
      cases h
    | some running =>
      rw [hi] at h
      refine .inr ⟨i, running, rfl, hi, ?_⟩
      dsimp only at h
      split at h
      · cases h
      · rename_i k htask
        exact .inl ⟨k, htask, (Option.some.inj h).symm⟩
      · rename_i next htask
        exact .inr (.inl ⟨next, htask, (Option.some.inj h).symm⟩)
      · rename_i s work next htask
        exact .inr (.inr ⟨s, work, next, htask, (Option.some.inj h).symm⟩)

/-- What holds between two steps: what the tasks know of the rows they read, and where the
bytes are that were due. -/
structure Inv (db : Db) (st : State) : Prop where
  sound : ∀ running ∈ st.tasks, running.task.Sound
  counters : ∀ running ∈ st.tasks, ∀ s ∈ running.task.work, Seen (counters st.db)
    st.counterVersions s.seen.id (some (s.seen.allTimeUsedBytes, s.seen.trafficUsedBytes))
    (running.counterVersions s.seen.id)
  status : ∀ running ∈ st.tasks, ∀ s ∈ running.task.work, Seen (statusOf st.db)
    st.statusVersions s.seen.id (some s.seen.status) (running.statusVersions s.seen.id)
  total : ∀ id p, Hub.counters db id = some p → ∃ p', Hub.counters st.db id = some p' ∧
    p'.1 + p'.2 + (st.tasks.map fun running => running.task.bytes id).sum = p.1 + p.2 + st.due id
  replaced : ∀ t ∈ st.transitions, t.replaced = some t.read

theorem inv_initial (db : Db) : Inv db (initial db) where
  sound := fun _ h => nomatch h
  counters := fun _ h => nomatch h
  status := fun _ h => nomatch h
  total := fun _ p hp => ⟨p, hp, rfl⟩
  replaced := fun _ h => nomatch h

theorem bytes_of_work_eq_nil {task : Task} (h : task.work = []) (id : Uuid) : task.bytes id = 0 := by
  rw [Task.bytes, h]
  rfl

theorem inv_begin {db : Db} {st : State} (h : Inv db st) {task : Task} (hsound : task.Sound)
    (hwork : task.work = []) : Inv db (st.begin task) where
  sound := by
    intro running hr
    rcases List.mem_append.mp hr with hr | hr
    · exact h.sound running hr
    · cases List.mem_singleton.mp hr
      exact hsound
  counters := by
    intro running hr s hs
    rcases List.mem_append.mp hr with hr | hr
    · exact h.counters running hr s hs
    · cases List.mem_singleton.mp hr
      rw [hwork] at hs
      cases hs
  status := by
    intro running hr s hs
    rcases List.mem_append.mp hr with hr | hr
    · exact h.status running hr s hs
    · cases List.mem_singleton.mp hr
      rw [hwork] at hs
      cases hs
  total := by
    intro id p hp
    obtain ⟨p', hp', htotal⟩ := h.total id p hp
    refine ⟨p', hp', ?_⟩
    rw [State.begin, List.map_append, List.sum_append, List.map_singleton, List.sum_singleton,
      bytes_of_work_eq_nil hwork, Int.add_zero]
    exact htotal
  replaced := h.replaced

/-- A task that reads knows the rows as they are. -/
theorem inv_read {db : Db} {st : State} (h : Inv db st) {i : Nat} {running : Running}
    (hi : st.tasks[i]? = some running) {k : Db → Task} (htask : running.task = .reading k) :
    Inv db (st.read i (k st.db)) := by
  have hsound : (Task.reading k).Sound := htask ▸ h.sound running (List.mem_of_getElem? hi)
  obtain ⟨hrows, hnext⟩ := hsound st.db
  refine ⟨Versions.forall_mem_set h.sound hnext, Versions.forall_mem_set h.counters ?_,
    Versions.forall_mem_set h.status ?_, ?_, h.replaced⟩
  · intro s hs
    have hrow : Hub.counters st.db s.seen.id =
        some (s.seen.allTimeUsedBytes, s.seen.trafficUsedBytes) := by
      rw [Hub.counters, hrows s hs]
      rfl
    exact hrow ▸ seen_read (Hub.counters st.db) st.counterVersions s.seen.id
  · intro s hs
    have hrow : statusOf st.db s.seen.id = some s.seen.status := by
      rw [statusOf, hrows s hs]
      rfl
    exact hrow ▸ seen_read (statusOf st.db) st.statusVersions s.seen.id
  · intro id p hp
    obtain ⟨p', hp', htotal⟩ := h.total id p hp
    refine ⟨p', hp', ?_⟩
    have hpool := sum_map_set (b := ⟨k st.db, st.counterVersions, st.statusVersions⟩)
      (fun running : Running => running.task.bytes id) hi
    have hbefore : running.task.bytes id = 0 := bytes_of_work_eq_nil (by rw [htask]; rfl) id
    simp only [State.read] at hpool ⊢
    omega

theorem inv_finish {db : Db} {st : State} (h : Inv db st) {i : Nat} {running : Running}
    (hi : st.tasks[i]? = some running) {next : Task} (htask : running.task = .working [] next) :
    Inv db { st with tasks := st.tasks.set i { running with task := next } } := by
  have hsound : (Task.working [] next).Sound := htask ▸ h.sound running (List.mem_of_getElem? hi)
  obtain ⟨hwork, hnext⟩ := hsound
  refine ⟨Versions.forall_mem_set h.sound hnext, Versions.forall_mem_set h.counters ?_,
    Versions.forall_mem_set h.status ?_, ?_, h.replaced⟩
  · intro s hs
    rw [hwork] at hs
    cases hs
  · intro s hs
    rw [hwork] at hs
    cases hs
  · intro id p hp
    obtain ⟨p', hp', htotal⟩ := h.total id p hp
    refine ⟨p', hp', ?_⟩
    have hpool := sum_map_set (b := { running with task := next })
      (fun running : Running => running.task.bytes id) hi
    have hbefore : running.task.bytes id = 0 := bytes_of_work_eq_nil (by rw [htask]; rfl) id
    have hafter : next.bytes id = 0 := bytes_of_work_eq_nil hwork id
    simp only at hpool ⊢
    omega

/-- A write that finds what its task read counts the bytes that were due and replaces the
status its task knows. -/
theorem inv_write {db : Db} {st : State} (h : Inv db st) {i : Nat} {running : Running}
    (hi : st.tasks[i]? = some running) {s : Statement} {work : List Statement} {next : Task}
    (htask : running.task = .working (s :: work) next) (hok : running.Unwritten st) :
    Inv db (st.write i running s (.working work next)) := by
  have hmem := List.mem_of_getElem? hi
  have hs : s ∈ running.task.work := by
    rw [htask]
    exact List.mem_cons_self
  have hrest : ∀ s' ∈ work, s' ∈ running.task.work := by
    rw [htask]
    exact fun s' hs' => List.mem_cons_of_mem s hs'
  have hsound : (Task.working (s :: work) next).Sound := htask ▸ h.sound running hmem
  simp only [Running.Unwritten, htask] at hok
  obtain ⟨hcounters, hstatus, hfits⟩ := hok
  refine ⟨Versions.forall_mem_set h.sound hsound, ?_, ?_, ?_, ?_⟩
  · refine Versions.forall_mem_set (fun r hr s' hs' => ?_) (fun s' hs' => ?_)
    · exact seen_counters s (h.counters r hr s' hs')
    · exact seen_counters s (h.counters running hmem s' (hrest s' hs'))
  · refine Versions.forall_mem_set (fun r hr s' hs' => ?_) (fun s' hs' => ?_)
    · exact seen_status s (h.status r hr s' hs')
    · exact seen_status s (h.status running hmem s' (hrest s' hs'))
  · intro id p hp
    obtain ⟨p', hp', htotal⟩ := h.total id p hp
    obtain ⟨p'', hp'', hgrown⟩ := Statement.total_exec
      (fun hwrites => (h.counters running hmem s hs).same (hcounters hwrites)) hfits hp'
    refine ⟨p'', hp'', ?_⟩
    have hpool := sum_map_set (b := { running with task := .working work next })
      (fun running : Running => running.task.bytes id) hi
    have hbefore : running.task.bytes id = s.bytes id + (Task.working work next).bytes id := by
      rw [htask]
      exact List.sum_cons
    simp only [State.write] at hpool ⊢
    omega
  · intro t ht
    rcases List.mem_append.mp ht with ht | ht
    · exact h.replaced t ht
    · obtain ⟨status, hwritten, rfl⟩ := List.mem_map.mp ht
      have hsome : s.written.isSome = true :=
        Option.isSome_iff_exists.mpr ⟨status, Option.mem_toList.mp hwritten⟩
      exact (h.status running hmem s hs).same (hstatus hsome)

theorem inv_step {countBytes : CountBytes} {db : Db} {st st' : State} {a : Action}
    (h : Inv db st) (hok : Unwritten st a) (hstep : step countBytes st a = some st') :
    Inv db st' := by
  obtain ⟨task, hsound, hwork, rfl⟩ | ⟨i, running, rfl, hi, hcase⟩ := step_cases hstep
  · exact inv_begin h hsound hwork
  · obtain ⟨k, htask, rfl⟩ | ⟨next, htask, rfl⟩ | ⟨s, work, next, htask, rfl⟩ := hcase
    · exact inv_read h hi htask
    · exact inv_finish h hi htask
    · exact inv_write h hi htask (hok running hi)

theorem kept_of_inv {db : Db} {st : State} (h : Inv db st) : Kept db st where
  usage := by
    intro hfinished id c hc
    obtain ⟨p', hp', htotal⟩ := h.total id (c.allTimeUsedBytes, c.trafficUsedBytes) (by
      rw [Hub.counters, hc]
      rfl)
    obtain ⟨c', hc', rfl⟩ := Option.map_eq_some_iff.mp hp'
    refine ⟨c', hc', ?_⟩
    have hpending : (st.tasks.map fun running => running.task.bytes id).sum = 0 := by
      refine List.sum_eq_zero fun x hx => ?_
      obtain ⟨running, hr, rfl⟩ := List.mem_map.mp hx
      refine bytes_of_work_eq_nil ?_ id
      have hdone := hfinished running hr
      revert hdone
      cases running.task with
      | done => exact fun _ => rfl
      | reading k => exact fun h => h.elim
      | working work next => exact fun h => h.elim
    rw [hpending, Int.add_zero] at htotal
    exact htotal
  status := h.replaced

/-- **Updates are kept.**  In a run in which no row is written between the read and the write
of another task, the counters of every client grow by what all reports had to count for it,
and no status is overwritten unseen. -/
theorem updates_kept {countBytes : CountBytes} {db : Db} {st : State} {as : List Action}
    (hrun : Run.run (step countBytes) (initial db) as = some st)
    (hok : Run.Guarded (step countBytes) Unwritten (initial db) as) : Kept db st :=
  kept_of_inv (Run.inv_of_guarded (fun _ _ _ h hok hstep => inv_step h hok hstep)
    (inv_initial db) hok hrun)

/-! ### Overlaps -/

namespace Overlap

def client : Client where
  id := .ofNat 1
  userId := .ofNat 2
  name := "frank"
  email := some "frank@example.com"
  trafficLimitBytes := 0
  trafficUsedBytes := 0
  allTimeUsedBytes := 0
  expiryDate := none
  resetDay := none
  dataLimitResetStrategy := "no_reset"
  lastTrafficResetTime := none
  maxDevices := none
  status := "active"
  onHoldExpireDurationSecs := none
  onHoldTimeout := none
  updatedAt := default

/-- A client on hold whose time to connect is over. -/
def held : Client :=
  { client with
    id := .ofNat 3
    name := "grace"
    email := some "grace@example.com"
    status := "on_hold"
    onHoldTimeout := some ⟨1000000000, 0⟩ }

def db : Db where
  clients := ⟨[client, held], by decide⟩

/-- At rate `1.0` small byte counts are counted as they are. -/
def countBytes : CountBytes := fun _ bytes => bytes

def first : Action := .report (.ofNat 10) [⟨"frank@example.com", 10, 20⟩]

def second : Action := .report (.ofNat 11) [⟨"frank@example.com", 1, 2⟩]

/-- Two nodes report a client: both reports read it before one of them writes it. -/
def reports : List Action :=
  [first, second] ++ .replicate 3 (.advance 0) ++ .replicate 3 (.advance 1) ++
    .replicate 2 (.advance 0) ++ .replicate 2 (.advance 1)

/-- The client connects and the checks run between the read and the write of the report. -/
def timeout : List Action :=
  [.online [(⟨"grace@example.com", "203.0.113.7", ""⟩, .ofNat 9)] (.still ⟨2000000000, 0⟩),
    .checks ⟨2000000000, 0⟩ (fun _ => ⟨2000000000, 0⟩) ⟨2000000000, 0⟩] ++
    .replicate 2 (.advance 0) ++ .replicate 7 (.advance 1) ++ .replicate 2 (.advance 0)

/-- The reports one after the other. -/
def inTurn : List Action :=
  first :: .replicate 5 (.advance 0) ++ second :: .replicate 5 (.advance 1)

theorem run_reports : ((Run.run (step countBytes) (initial db) reports).any fun st =>
    st.Finished ∧ counters st.db client.id = some (0, 3) ∧ st.due client.id = 33) = true := by
  decide

theorem run_timeout : ((Run.run (step countBytes) (initial db) timeout).any fun st =>
    st.Finished ∧ statusOf st.db held.id = some "active" ∧
      ⟨held.id, "on_hold", some "expired", "active"⟩ ∈ st.transitions) = true := by
  decide

end Overlap

/-- **Overlapping tasks lose updates.**  Of two reports that read a client before either
writes it, the bytes of the first are lost; and a client whose hold has ended becomes active
again through a report that read it on hold. -/
theorem overlap_not_kept :
    (∃ st, Run.run (step Overlap.countBytes) (initial Overlap.db) Overlap.reports = some st ∧
      st.Finished ∧ counters st.db Overlap.client.id = some (0, 3) ∧
      st.due Overlap.client.id = 33 ∧ ¬ Kept Overlap.db st) ∧
    ∃ st, Run.run (step Overlap.countBytes) (initial Overlap.db) Overlap.timeout = some st ∧
      st.Finished ∧ statusOf st.db Overlap.held.id = some "active" ∧
      ⟨Overlap.held.id, "on_hold", some "expired", "active"⟩ ∈ st.transitions ∧
      ¬ Kept Overlap.db st := by
  constructor
  · obtain ⟨st, hst, h⟩ := (Option.any_eq_true _ _).mp Overlap.run_reports
    obtain ⟨hfinished, hcounters, hdue⟩ := of_decide_eq_true h
    refine ⟨st, hst, hfinished, hcounters, hdue, fun hkept => ?_⟩
    obtain ⟨c', hc', htotal⟩ := hkept.usage hfinished Overlap.client.id Overlap.client
      (Table.find_eq_some_iff.mpr ⟨List.mem_cons_self, rfl⟩)
    rw [counters, hc', Option.map_some, Option.some.injEq, Prod.mk.injEq] at hcounters
    rw [hcounters.1, hcounters.2, hdue] at htotal
    exact absurd htotal (by decide)
  · obtain ⟨st, hst, h⟩ := (Option.any_eq_true _ _).mp Overlap.run_timeout
    obtain ⟨hfinished, hstatus, hmem⟩ := of_decide_eq_true h
    refine ⟨st, hst, hfinished, hstatus, hmem, fun hkept => ?_⟩
    exact absurd (hkept.status _ hmem) (by decide)

theorem updates_kept_in_turn : ∃ st,
    Run.run (step Overlap.countBytes) (initial Overlap.db) Overlap.inTurn = some st ∧
      Kept Overlap.db st := by
  have hchecked : Run.checked (step Overlap.countBytes) (fun st a => decide (Unwritten st a))
      (initial Overlap.db) Overlap.inTurn = true := by decide
  obtain ⟨hok, st, hrun⟩ := Run.guarded_of_checked (I := fun _ => True)
    (fun _ _ _ h => of_decide_eq_true h) (fun _ _ _ _ _ _ => trivial) trivial hchecked
  exact ⟨st, hrun, updates_kept hrun hok⟩

end ProxyPanel.Hub.ClientTasks
