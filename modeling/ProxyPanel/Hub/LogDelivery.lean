import ProxyPanel.Hub.AgentMessages
import ProxyPanel.Hub.ScheduledRounds
import ProxyPanel.Lib.Conveyor

/-!
# The way of a log entry

An agent puts its log entries into a channel for 1000 of them and sends them in batches of at
most 100, as long as the stream lives; a new stream starts a new sender on the same channel.
The Hub stores the batches of each stream in their order, beside the reports on the cores and
the clean-up.  The senders of an agent are the carriers of a `Conveyor`.

The streams are those whose Register has succeeded; of any other the Hub drops every batch.

`logs_run` is about any number of agents and every interleaving: which entries are stored, in
which order, and where the others are.
-/

namespace ProxyPanel.Hub.LogDelivery

open Run

def maxBufferedLogs : Nat := 1000

/-- The limit that the log sender gives to `collect_logs`. -/
def batchLimit : Nat := 100

/-- A row that the Hub has inserted: for an entry of an agent, or for a report on a core. -/
inductive Inserted where
  | entry (agentId : Uuid) (item : LogEntry) (now : DateTime) (newId : Uuid)
  | status (agentId : Uuid) (report : CoreStatusReport) (now : DateTime) (newId : Uuid)

section Logs

variable (redact : String → String)

def Inserted.log : Inserted → AgentLog
  | .entry agentId item now newId => agentLog redact agentId item now newId
  | .status agentId report now newId => coreStatusLog redact agentId report now newId

/-- The entry of an agent, if the row is for one. -/
def Inserted.entryOf? (n : Uuid) : Inserted → Option LogEntry
  | .entry agentId item _ _ => if agentId = n then some item else none
  | .status .. => none

/-- The channels of the agents, the database, and the history of insertions and clean-ups. -/
structure State where
  queues : Uuid → Conveyor.State LogEntry := fun _ => {}
  db : Db
  inserted : List Inserted := []
  cleanups : List DateTime := []

inductive Action where
  /-- A step of an agent or its streams. -/
  | agent (n : Uuid) (action : Conveyor.Action LogEntry)
  /-- The Hub handles the oldest batch of a stream. -/
  | handle (n : Uuid) (stream : Nat) (now : DateTime) (newIds : List Uuid)
  | status (n : Uuid) (report : CoreStatusReport) (now : DateTime) (newId : Uuid)
  | cleanup (now : DateTime)

/-- Identifiers that are not in the table. -/
def Fresh (db : Db) (ids : List Uuid) : Prop :=
  ids.Nodup ∧ ∀ id ∈ ids, db.agentLogs.find id = none

instance (db : Db) (ids : List Uuid) : Decidable (Fresh db ids) :=
  inferInstanceAs (Decidable (_ ∧ _))

/-- The oldest batch of a stream. -/
def oldestBatch (queue : Conveyor.State LogEntry) (stream : Nat) : Option (List LogEntry) :=
  queue.carriers[stream]?.bind (·.inFlight.head?)

def step (s : State) : Action → Option State
  | .agent _ (.deliver _) => none
  | .agent n action =>
    (Conveyor.step maxBufferedLogs batchLimit (s.queues n) action).map fun queue =>
      { s with queues := Function.update s.queues n queue }
  | .handle n stream now newIds =>
    (oldestBatch (s.queues n) stream).bind fun batch =>
      if newIds.length = batch.length ∧ Fresh s.db newIds then
        (Conveyor.step maxBufferedLogs batchLimit (s.queues n) (.deliver stream)).map fun queue =>
          { s with
            queues := Function.update s.queues n queue
            db := handleLogs redact s.db n (batch.zip newIds) now
            inserted := s.inserted ++
              (batch.zip newIds).map fun entry => .entry n entry.1 now entry.2 }
      else none
  | .status n report now newId =>
    if Fresh s.db [newId] then
      some { s with
        db := handleCoreStatus redact s.db n report now newId
        inserted := s.inserted ++ [.status n report now newId] }
    else none
  | .cleanup now =>
    some { s with db := cleanupOldRecords now s.db, cleanups := s.cleanups ++ [now] }

/-- A clean-up has deleted the row. -/
def Outdated (cleanups : List DateTime) (row : AgentLog) : Prop :=
  ∃ now ∈ cleanups, row.createdAt.before (now.addSeconds (-604800)) = true

/-- What holds of every run from `db₀`. -/
structure Inv (db₀ : Db) (s : State) : Prop where
  queues : ∀ n, Conveyor.Inv maxBufferedLogs batchLimit (s.queues n)
  stored : ∀ n, s.inserted.filterMap (·.entryOf? n) = (s.queues n).delivered.map (·.2)
  rows : s.db.agentLogs.rows.Sublist (db₀.agentLogs.rows ++ s.inserted.map (·.log redact))
  kept : ∀ row ∈ db₀.agentLogs.rows ++ s.inserted.map (·.log redact),
    row ∈ s.db.agentLogs.rows ∨ Outdated s.cleanups row

end Logs

/-! ### One step -/

/-- Only an arrival changes what has arrived. -/
theorem delivered_of_step {α : Type} {capacity limit : Nat} {q q' : Conveyor.State α}
    {a : Conveyor.Action α} (h : Conveyor.step capacity limit q a = some q')
    (ha : ∀ i, a ≠ .deliver i) : q'.delivered = q.delivered := by
  cases a with
  | emit item =>
    cases h
    rw [Conveyor.emit]
    split <;> rfl
  | start =>
    cases h
    rfl
  | collect i =>
    obtain ⟨c, _, h⟩ := Option.bind_eq_some_iff.mp h
    rw [Conveyor.collect] at h
    split at h
    · cases h
    · split at h
      · cases h
        rfl
      · cases h
  | dispatch i =>
    obtain ⟨c, _, h⟩ := Option.bind_eq_some_iff.mp h
    rw [Conveyor.dispatch] at h
    split at h
    · cases h
      rfl
    · cases h
  | deliver i => exact absurd rfl (ha i)
  | stop i =>
    obtain ⟨c, _, rfl⟩ := Option.map_eq_some_iff.mp h
    rfl
  | cut i =>
    obtain ⟨c, _, rfl⟩ := Option.map_eq_some_iff.mp h
    rfl

/-- The oldest batch is what arrives. -/
theorem delivered_of_deliver {queue queue' : Conveyor.State LogEntry} {stream : Nat}
    {batch : List LogEntry} (hbatch : oldestBatch queue stream = some batch)
    (h : Conveyor.step maxBufferedLogs batchLimit queue (.deliver stream) = some queue') :
    queue'.delivered = queue.delivered ++ batch.map (stream, ·) := by
  obtain ⟨c, hc, hbatch⟩ := Option.bind_eq_some_iff.mp hbatch
  obtain ⟨c', hc', h⟩ := Option.bind_eq_some_iff.mp h
  obtain rfl : c = c' := Option.some.inj (hc.symm.trans hc')
  rw [Conveyor.deliver] at h
  cases hinFlight : c.inFlight with
  | nil =>
    rw [hinFlight] at hbatch
    cases hbatch
  | cons first rest =>
    rw [hinFlight] at hbatch h
    cases hbatch
    cases h
    rfl

/-- A batch is no longer than what the Hub takes of a message. -/
theorem length_of_oldestBatch {queue : Conveyor.State LogEntry} {stream : Nat}
    {batch : List LogEntry} (h : Conveyor.Inv maxBufferedLogs batchLimit queue)
    (hbatch : oldestBatch queue stream = some batch) : batch.length ≤ 100 := by
  obtain ⟨c, hc, hbatch⟩ := Option.bind_eq_some_iff.mp hbatch
  exact ((h.batches c (List.mem_of_getElem? hc)).2 batch (List.mem_of_mem_head? hbatch)).2

section Rows

variable {redact : String → String} {db : Db}

theorem agentLogs_foldl_insertLog {β : Type} (f : β → AgentLog) (items : List β) (db : Db) :
    (items.foldl (fun db item => insertLog db (f item)) db).agentLogs =
      db.agentLogs.insertEach (items.map f) := by
  induction items generalizing db with
  | nil => rfl
  | cons item items ih => exact ih (insertLog db (f item))

/-- Rows with fresh identifiers are appended. -/
theorem rows_insertEach_of_fresh {ids : List Uuid} {logs : List AgentLog} (hfresh : Fresh db ids)
    (hlogs : logs.map (·.id) = ids) :
    (db.agentLogs.insertEach logs).rows = db.agentLogs.rows ++ logs := by
  refine Table.rows_insertEach ?_
  change ((db.agentLogs.rows ++ logs).map (·.id)).Nodup
  rw [List.map_append, hlogs, List.nodup_append]
  refine ⟨db.agentLogs.nodup, hfresh.1, fun id hid id' hid' heq => ?_⟩
  obtain ⟨row, hrow, rfl⟩ := List.mem_map.mp hid
  exact Table.find_eq_none_iff.mp (hfresh.2 id' hid') row hrow heq

/-- A batch of an agent is stored as a whole. -/
theorem rows_handleLogs {n : Uuid} {batch : List LogEntry} {newIds : List Uuid} {now : DateTime}
    (hlength : newIds.length = batch.length) (hbatch : batch.length ≤ 100)
    (hfresh : Fresh db newIds) :
    (handleLogs redact db n (batch.zip newIds) now).agentLogs.rows = db.agentLogs.rows ++
      (batch.zip newIds).map fun entry => agentLog redact n entry.1 now entry.2 := by
  have htake : (batch.zip newIds).take 1000 = batch.zip newIds := by
    refine List.take_of_length_le ?_
    rw [List.length_zip, hlength, Nat.min_self]
    omega
  have hids : ((batch.zip newIds).map fun entry => agentLog redact n entry.1 now entry.2).map
      (·.id) = newIds := by
    rw [List.map_map]
    exact List.map_snd_zip (Nat.le_of_eq hlength)
  rw [handleLogs, htake, agentLogs_foldl_insertLog]
  exact rows_insertEach_of_fresh hfresh hids

theorem rows_handleCoreStatus {n : Uuid} {report : CoreStatusReport} {now : DateTime}
    {newId : Uuid} (hfresh : Fresh db [newId]) :
    (handleCoreStatus redact db n report now newId).agentLogs.rows =
      db.agentLogs.rows ++ [coreStatusLog redact n report now newId] := by
  have hrows : (db.agentLogs.insertEach [coreStatusLog redact n report now newId]).rows = _ :=
    rows_insertEach_of_fresh hfresh rfl
  exact hrows

/-- The clean-up deletes rows that are old. -/
theorem rows_cleanupOldRecords (now : DateTime) (db : Db) :
    (cleanupOldRecords now db).agentLogs.rows.Sublist db.agentLogs.rows ∧
      ∀ row ∈ db.agentLogs.rows, row ∈ (cleanupOldRecords now db).agentLogs.rows ∨
        row.createdAt.before (now.addSeconds (-604800)) = true := by
  rw [cleanupOldRecords]
  split
  · refine ⟨List.filter_sublist, fun row hrow => ?_⟩
    by_cases hold : row.createdAt.before (now.addSeconds (-604800)) = true
    · exact Or.inr hold
    · exact Or.inl (Table.mem_deleteWhere.mpr ⟨hrow, Bool.eq_false_of_not_eq_true hold⟩)
  · exact ⟨List.Sublist.refl _, fun row hrow => Or.inl hrow⟩

end Rows

section Step

variable {redact : String → String} {db₀ : Db} {s s' : State}

theorem step_agent {n : Uuid} {action : Conveyor.Action LogEntry}
    (ha : ∀ i, action ≠ .deliver i) :
    step redact s (.agent n action) =
      (Conveyor.step maxBufferedLogs batchLimit (s.queues n) action).map fun queue =>
        { s with queues := Function.update s.queues n queue } := by
  cases action <;> first | rfl | exact absurd rfl (ha _)

/-- Rows that are inserted. -/
theorem Inv.insert (h : Inv redact db₀ s) {db : Db} (new : List Inserted)
    (hrows : db.agentLogs.rows = s.db.agentLogs.rows ++ new.map (·.log redact)) :
    db.agentLogs.rows.Sublist (db₀.agentLogs.rows ++ (s.inserted ++ new).map (·.log redact)) ∧
      ∀ row ∈ db₀.agentLogs.rows ++ (s.inserted ++ new).map (·.log redact),
        row ∈ db.agentLogs.rows ∨ Outdated s.cleanups row := by
  rw [hrows, List.map_append, ← List.append_assoc]
  refine ⟨h.rows.append_right _, fun row hrow => ?_⟩
  rcases List.mem_append.mp hrow with hold | hnew
  · exact (h.kept row hold).imp_left (List.mem_append_left _)
  · exact Or.inl (List.mem_append_right _ hnew)

theorem entriesOf_batch (n m : Uuid) (entries : List (LogEntry × Uuid)) (now : DateTime) :
    (entries.map fun entry => Inserted.entry n entry.1 now entry.2).filterMap (·.entryOf? m) =
      if n = m then entries.map (·.1) else [] := by
  rw [List.filterMap_map]
  by_cases hn : n = m
  · rw [if_pos hn, ← List.filterMap_eq_map]
    exact List.filterMap_congr fun entry _ => if_pos hn
  · rw [if_neg hn, List.filterMap_eq_nil_iff]
    exact fun entry _ => if_neg hn

/-- The channel of one agent. -/
theorem Inv.queues_update (h : Inv redact db₀ s) {n : Uuid} {queue : Conveyor.State LogEntry}
    (hqueue : Conveyor.Inv maxBufferedLogs batchLimit queue) (m : Uuid) :
    Conveyor.Inv maxBufferedLogs batchLimit (Function.update s.queues n queue m) := by
  by_cases hm : m = n
  · rw [hm, Function.update_self]
    exact hqueue
  · rw [Function.update_of_ne hm]
    exact h.queues m

/-- What has arrived from one agent is what was inserted for it. -/
theorem Inv.stored_update (h : Inv redact db₀ s) {n : Uuid} {queue : Conveyor.State LogEntry}
    (new : List Inserted) {arrived : List (Nat × LogEntry)}
    (hqueue : queue.delivered = (s.queues n).delivered ++ arrived)
    (hnew : ∀ m, new.filterMap (·.entryOf? m) = if n = m then arrived.map (·.2) else [])
    (m : Uuid) : (s.inserted ++ new).filterMap (·.entryOf? m) =
      (Function.update s.queues n queue m).delivered.map (·.2) := by
  rw [List.filterMap_append, h.stored m, hnew m]
  by_cases hm : m = n
  · rw [hm, Function.update_self, if_pos rfl, hqueue, List.map_append]
  · rw [Function.update_of_ne hm, if_neg (Ne.symm hm), List.append_nil]

theorem inv_step (s : State) (a : Action) (s' : State) (h : Inv redact db₀ s)
    (hstep : step redact s a = some s') : Inv redact db₀ s' := by
  cases a with
  | agent n action =>
    by_cases ha : ∀ i, action ≠ .deliver i
    · rw [step_agent ha] at hstep
      obtain ⟨queue, hqueue, rfl⟩ := Option.map_eq_some_iff.mp hstep
      have hinv : Conveyor.Inv maxBufferedLogs batchLimit queue :=
        Conveyor.inv_step _ _ _ (h.queues n) hqueue
      refine ⟨h.queues_update hinv, fun m => ?_, h.rows, h.kept⟩
      have hdelivered : queue.delivered = (s.queues n).delivered ++ [] := by
        rw [delivered_of_step hqueue ha, List.append_nil]
      have hstored := h.stored_update [] hdelivered (fun m => (ite_self _).symm) m
      rwa [List.append_nil] at hstored
    · obtain ⟨i, hi⟩ := not_forall.mp ha
      obtain rfl : action = .deliver i := not_not.mp hi
      cases hstep
  | handle n stream now newIds =>
    rw [step] at hstep
    obtain ⟨batch, hbatch, hstep⟩ := Option.bind_eq_some_iff.mp hstep
    split at hstep
    · rename_i hguard
      obtain ⟨hlength, hfresh⟩ := hguard
      obtain ⟨queue, hqueue, rfl⟩ := Option.map_eq_some_iff.mp hstep
      have hinv : Conveyor.Inv maxBufferedLogs batchLimit queue :=
        Conveyor.inv_step _ _ _ (h.queues n) hqueue
      set entries := batch.zip newIds with hentries
      have hnew : (entries.map fun entry => Inserted.entry n entry.1 now entry.2).map
          (·.log redact) = entries.map fun entry => agentLog redact n entry.1 now entry.2 :=
        List.map_map ..
      have hitems : entries.map (·.1) = batch := List.map_fst_zip (Nat.le_of_eq hlength.symm)
      obtain ⟨hrows, hkept⟩ := h.insert (entries.map fun entry => .entry n entry.1 now entry.2)
        ((rows_handleLogs hlength (length_of_oldestBatch (h.queues n) hbatch) hfresh).trans
          (congrArg _ hnew.symm))
      refine ⟨h.queues_update hinv, h.stored_update _ (delivered_of_deliver hbatch hqueue)
        fun m => ?_, hrows, hkept⟩
      rw [entriesOf_batch, hitems, List.map_map]
      exact congrArg (fun l => if n = m then l else []) (List.map_id batch).symm
    · cases hstep
  | status n report now newId =>
    rw [step] at hstep
    split at hstep
    · rename_i hfresh
      cases hstep
      obtain ⟨hrows, hkept⟩ := h.insert [.status n report now newId] (rows_handleCoreStatus hfresh)
      refine ⟨h.queues, fun m => ?_, hrows, hkept⟩
      rw [List.filterMap_append, h.stored m]
      exact List.append_nil _
    · cases hstep
  | cleanup now =>
    cases hstep
    obtain ⟨hsub, hold⟩ := rows_cleanupOldRecords now s.db
    refine ⟨h.queues, h.stored, hsub.trans h.rows, fun row hrow => ?_⟩
    rcases h.kept row hrow with hmem | ⟨earlier, hearlier, hbefore⟩
    · rcases hold row hmem with hmem' | hbefore
      · exact Or.inl hmem'
      · exact Or.inr ⟨now, List.mem_append_right _ List.mem_cons_self, hbefore⟩
    · exact Or.inr ⟨earlier, List.mem_append_left _ hearlier, hbefore⟩

end Step

/-! ### Every run -/

def start (db₀ : Db) : State := { db := db₀ }

theorem inv_start (redact : String → String) (db₀ : Db) : Inv redact db₀ (start db₀) where
  queues _ := Conveyor.inv_initial maxBufferedLogs batchLimit
  stored _ := rfl
  rows := by
    rw [start, List.map_nil, List.append_nil]
  kept row hrow := by
    rw [start, List.map_nil, List.append_nil] at hrow
    exact Or.inl hrow

/-- **The way of the log entries of an agent.**  In every run the Hub has inserted, for each
registered stream, entries in the order in which the agent emitted them; each emitted entry is in
one place (stored, under way, waiting, dropped at a full channel or lost with a stream), so none
is stored twice; and the table has every inserted row but those a clean-up found older than seven days. -/
theorem logs_run {redact : String → String} {db₀ : Db} {as : List Action} {s : State}
    (hrun : run (step redact) (start db₀) as = some s) (n : Uuid) :
    let queue := s.queues n
    (∀ (stream : Nat) c, queue.carriers[stream]? = some c →
      (Conveyor.deliveredBy stream queue ++ c.load ++ queue.buffer).Sublist queue.emitted) ∧
    (Conveyor.everywhere queue).Perm queue.emitted ∧
    queue.buffer.length ≤ 1000 ∧
    s.inserted.filterMap (·.entryOf? n) = queue.delivered.map (·.2) ∧
    (s.inserted.filterMap (·.entryOf? n)).Subperm queue.emitted ∧
    s.db.agentLogs.rows.Sublist (db₀.agentLogs.rows ++ s.inserted.map (·.log redact)) ∧
    ∀ row ∈ db₀.agentLogs.rows ++ s.inserted.map (·.log redact),
      row ∈ s.db.agentLogs.rows ∨ Outdated s.cleanups row := by
  have h : Inv redact db₀ s := inv_of_run inv_step (inv_start redact db₀) hrun
  have hqueue := h.queues n
  refine ⟨hqueue.order, hqueue.conserved, hqueue.room, h.stored n, ?_, h.rows, h.kept⟩
  rw [h.stored n]
  refine List.Subperm.trans ?_ hqueue.conserved.subperm
  simp only [Conveyor.everywhere, List.append_assoc]
  exact (List.sublist_append_left _ _).subperm

namespace OneBatch

def node : Uuid := .ofNat 1

def entry : LogEntry := ⟨0, "INFO", "pp_core", "started", []⟩

/-- Two entries; the second is collected when the stream ends. -/
def actions : List Action :=
  [.agent node .start, .agent node (.emit entry), .agent node (.collect 0),
    .agent node (.dispatch 0), .agent node (.emit { entry with message := "stopped" }),
    .agent node (.collect 0), .agent node (.stop 0), .handle node 0 default [.ofNat 2]]

end OneBatch

theorem logs_run_oneBatch : ∃ s, run (step id) (start {}) OneBatch.actions = some s ∧
    (s.inserted.filterMap (·.entryOf? OneBatch.node)).Subperm
      (s.queues OneBatch.node).emitted := by
  have hsome : (run (step id) (start {}) OneBatch.actions).isSome = true := by decide
  obtain ⟨s, hs⟩ := Option.isSome_iff_exists.mp hsome
  obtain ⟨_, _, _, _, hstored, _⟩ := logs_run hs OneBatch.node
  exact ⟨s, hs, hstored⟩

end ProxyPanel.Hub.LogDelivery
