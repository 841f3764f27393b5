import ProxyPanel.Common.Protocol
import ProxyPanel.Lib.Monitor
import ProxyPanel.Lib.Text

/-!
# The process manager of a core

sing-box and mihomo have the same manager up to the names in its messages.  `start`,
`stop`, `restart` and `is_running` are critical sections under the process lock; a
stage is what happens between two awaits, and children and other processes exit and
appear at any moment.  `restart` gives the lock back between its `stop` and its
`start`.
-/

namespace ProxyPanel.Core

open Run

abbrev Pid := Nat

/-! ### The operating system -/

/-- A process that exited keeps its pid until its parent waits for it. -/
inductive ProcessStatus where
  | running
  | exited (code : Option Int)
  deriving DecidableEq

/-- `child` says that this manager spawned the process. -/
structure Process where
  exe : Option String
  child : Bool
  status : ProcessStatus

inductive PidFile where
  | damaged
  | record (pid : Pid) (exe : String) (startedAtUnix : Nat)
  deriving DecidableEq

/-- The slot of the manager with its last error, the pid file and the processes of the
machine.  `settled` is not kept by the code: a `stop` or a successful `start` is over. -/
structure Manager where
  process : Option Pid
  lastError : String
  pidFile : Option PidFile
  processes : Pid → Option Process
  settled : Bool

namespace Manager

variable (r : Manager)

def setProcess (pid : Pid) (p : Option Process) : Manager :=
  { r with processes := Function.update r.processes pid p }

/-- The manager spawned a process with this pid and nobody waited for it yet. -/
def Spawned (pid : Pid) : Prop := ∃ p, r.processes pid = some p ∧ p.child = true

/-- A child of the manager that is running. -/
def Alive (pid : Pid) : Prop := ∃ p, r.processes pid = some p ∧ p.child = true ∧ p.status = .running

def isProcessAlive (pid : Pid) : Bool := (r.processes pid).isSome

def processExePath (pid : Pid) : Option String :=
  (r.processes pid).bind fun p => if p.status = .running then p.exe else none

def markExited (pid : Pid) (code : Option Int) : Manager :=
  match r.processes pid with
  | some p => if p.status = .running then r.setProcess pid (some { p with status := .exited code })
    else r
  | none => r

def killProcess (pid : Pid) : Manager := r.markExited pid none

/-- `Child::try_wait`: a child that exited is waited for. -/
inductive TryWait where
  | running
  | exited (code : Option Int)
  | error

def tryWait (pid : Pid) : TryWait × Manager :=
  match r.processes pid with
  | none => (.error, r)
  | some p =>
    match p.status with
    | .running => (.running, r)
    | .exited code => (.exited code, r.setProcess pid none)

/-- `record_exit`. -/
def recordExit (code : Option Int) : Manager :=
  let code := toString (code.getD (-1))
  { r with lastError := if r.lastError = "" then "process exited with code " ++ code
      else r.lastError ++ " (exit code " ++ code ++ ")" }

end Manager

/-! ### The manager -/

/-- What a manager is made with, and how the file system resolves a path. -/
structure ManagerEnv where
  coreType : CoreType
  binary : String
  canonicalize : String → Option String

/-- How the config of a `start` is written. -/
inductive ConfigWrite where
  | written
  | notSerialized (e : String)
  | notWritten (e : String)

/-- What a stage learns from the file system and the operating system. -/
structure Outcomes where
  binaryExists : Bool
  configWrite : ConfigWrite
  killed : Bool
  spawned : Except String Pid
  osError : String
  now : Nat

inductive Call where
  | start
  | stop
  | restart
  | isRunning

inductive Returned where
  | result (r : PanelResult Unit)
  | running (b : Bool)

inductive Stage where
  | checkingSlot
  | writingConfig
  | reaping
  | spawning
  | settling (pid : Pid)
  | writingPid (pid : Pid)
  | installing (pid : Pid)
  | taking (restart : Bool)
  | removingPid (restart : Bool)
  | probing
  | cleaning

/-- The critical sections. -/
inductive Critical where
  | start
  | stop (restart : Bool)
  | isRunning

def Critical.first : Critical → Stage
  | .start => .checkingSlot
  | .stop restart => .taking restart
  | .isRunning => .probing

inductive Point where
  | checkingBinary
  | awaiting (c : Critical)
  | returned (r : Returned)

/-- Where a call begins. -/
def Call.entry : Call → Point
  | .start => .checkingBinary
  | .stop => .awaiting (.stop false)
  | .restart => .awaiting (.stop true)
  | .isRunning => .awaiting .isRunning

def Point.awaited : Point → Option Stage
  | .awaiting c => some c.first
  | .checkingBinary | .returned _ => none

section

variable (env : ManagerEnv)

def exeMatches (r : Manager) (pid : Pid) : Bool :=
  match r.processExePath pid with
  | none => false
  | some exe =>
    (env.canonicalize exe).getD exe = (env.canonicalize env.binary).getD env.binary

/-- `reap_stale`: a process that is left over is killed, and the pid file goes in any case. -/
def reapStale (killed : Bool) (r : Manager) : Manager :=
  match r.pidFile with
  | none => r
  | some .damaged => { r with pidFile := none }
  | some (.record pid _ _) =>
    let reaped := if r.isProcessAlive pid && exeMatches env r pid && killed then r.killProcess pid
      else r
    { reaped with pidFile := none }

/-- What `start` does before it takes the lock. -/
def work (o : Outcomes) (p : Point) (r : Manager) : Option (Point × Manager) :=
  match p with
  | .checkingBinary =>
    if o.binaryExists then some (.awaiting .start, r)
    else
      let msg := env.coreType.toStr ++ " binary not found at " ++ env.binary
      some (.returned (.result (.error (.core msg))), { r with lastError := msg })
  | .awaiting _ | .returned _ => none

/-- A call that ends with an error, which it records. -/
def failed (msg : String) (r : Manager) : (Stage ⊕ Point) × Manager :=
  (.inr (.returned (.result (.error (.core msg)))), { r with lastError := msg })

def notSerialized (e : String) : CoreType → PanelError
  | .singBox => .serialization e
  | .mihomo => .core ("failed to serialize mihomo config: " ++ e)

/-- **A stage of a critical section.**  The fresh pid of a child is in use by no other
process. -/
def critical (o : Outcomes) (s : Stage) (r : Manager) : Option ((Stage ⊕ Point) × Manager) :=
  match s with
  | .checkingSlot =>
    if r.process.isSome then
      let msg := env.coreType.toStr ++ " already running"
      some (.inr (.returned (.result (.error (.core msg)))), r)
    else some (.inl .writingConfig, r)
  | .writingConfig =>
    match o.configWrite with
    | .written => some (.inl .reaping, r)
    | .notSerialized e =>
      some (.inr (.returned (.result (.error (notSerialized e env.coreType)))), r)
    | .notWritten e =>
      some (failed ("failed to write " ++ env.coreType.toStr ++ " config: " ++ e) r)
  | .reaping => some (.inl .spawning, reapStale env o.killed r)
  | .spawning =>
    match o.spawned with
    | .error e => some (failed ("failed to spawn " ++ env.coreType.toStr ++ ": " ++ e) r)
    | .ok pid =>
      if (r.processes pid).isSome then none
      else
        let child : Process := ⟨some env.binary, true, .running⟩
        some (.inl (.settling pid), { r.setProcess pid (some child) with lastError := "" })
  | .settling pid =>
    match r.tryWait pid with
    | (.running, r) => some (.inl (.writingPid pid), r)
    | (.exited code, r) =>
      let r := r.recordExit code
      some (.inr (.returned (.result (.error (.core r.lastError)))), r)
    | (.error, r) =>
      some (failed ("failed to check " ++ env.coreType.toStr ++ " status after start: " ++ o.osError) r)
  | .writingPid pid =>
    some (.inl (.installing pid), { r with pidFile := some (.record pid env.binary o.now) })
  | .installing pid =>
    some (.inr (.returned (.result (.ok ()))), { r with process := some pid, settled := true })
  | .taking restart =>
    -- `kill` and `wait` of the child that was in the slot.
    match r.process with
    | some pid => some (.inl (.removingPid restart), { r.setProcess pid none with process := none })
    | none => some (.inl (.removingPid restart), r)
  | .removingPid restart =>
    let next := if restart then Point.checkingBinary else .returned (.result (.ok ()))
    some (.inr next, { r with pidFile := none, settled := true })
  | .probing =>
    match r.process with
    | none => some (.inr (.returned (.running false)), r)
    | some pid =>
      match r.tryWait pid with
      | (.running, r) => some (.inr (.returned (.running true)), r)
      | (.exited code, r) => some (.inl .cleaning, { r.recordExit code with process := none })
      | (.error, r) =>
        let msg := "failed to check process status: " ++ o.osError
        some (.inl .cleaning, { r with lastError := msg, process := none })
  | .cleaning => some (.inr (.returned (.running false)), { r with pidFile := none })

/-- What happens beside the calls. -/
inductive Event where
  | exit (pid : Pid) (code : Option Int)
  /-- A process that this manager does not spawn. -/
  | appear (pid : Pid) (exe : Option String)
  | vanish (pid : Pid)
  /-- A line of the core's output. -/
  | output (line : String)

def occur (e : Event) (r : Manager) : Option Manager :=
  match e with
  | .exit pid code => some (r.markExited pid code)
  | .appear pid exe =>
    if (r.processes pid).isSome then none else some (r.setProcess pid (some ⟨exe, false, .running⟩))
  | .vanish pid =>
    match r.processes pid with
    | some p => if p.child ∨ p.status = .running then none else some (r.setProcess pid none)
    | none => none
  | .output line =>
    some (if Text.trim line = "" then r else { r with lastError := Text.trim line })

/-- **The manager, its callers and the machine.** -/
def processManager : Monitor Point Stage Outcomes Event Manager where
  work := work env
  enter := Point.awaited
  critical := critical env
  environment := occur

end

/-! ### What a stage may rely on -/

namespace Manager

variable {r : Manager}

@[simp] theorem processes_setProcess_self (r : Manager) (pid : Pid) (p : Option Process) :
    (r.setProcess pid p).processes pid = p := Function.update_self ..

theorem processes_setProcess_of_ne (r : Manager) {pid q : Pid} (h : q ≠ pid) (p : Option Process) :
    (r.setProcess pid p).processes q = r.processes q := Function.update_of_ne h _ _

theorem spawned_setProcess {pid : Pid} {p : Option Process} {q : Pid}
    (h : (r.setProcess pid p).Spawned q) :
    (q = pid ∧ ∃ x, p = some x ∧ x.child = true) ∨ (q ≠ pid ∧ r.Spawned q) := by
  obtain ⟨x, hx, hchild⟩ := h
  by_cases hq : q = pid
  · subst hq
    rw [processes_setProcess_self] at hx
    exact .inl ⟨rfl, x, hx, hchild⟩
  · rw [processes_setProcess_of_ne r hq] at hx
    exact .inr ⟨hq, x, hx, hchild⟩

theorem spawned_of_waited {pid q : Pid} (h : (r.setProcess pid none).Spawned q) :
    q ≠ pid ∧ r.Spawned q := by
  rcases spawned_setProcess h with ⟨_, x, hx, _⟩ | h
  · cases hx
  · exact h

theorem not_spawned_of_none {pid : Pid} (h : r.processes pid = none) : ¬ r.Spawned pid := by
  rintro ⟨x, hx, _⟩
  rw [h] at hx
  cases hx

theorem Alive.spawned {pid : Pid} (h : r.Alive pid) : r.Spawned pid := by
  obtain ⟨p, hp, hchild, _⟩ := h
  exact ⟨p, hp, hchild⟩

theorem spawned_markExited {pid q : Pid} {code : Option Int} (h : (r.markExited pid code).Spawned q) :
    r.Spawned q := by
  unfold markExited at h
  split at h
  next p hp =>
    split at h
    · rcases spawned_setProcess h with ⟨rfl, x, hx, hchild⟩ | ⟨_, h⟩
      · cases hx
        exact ⟨p, hp, hchild⟩
      · exact h
    · exact h
  next => exact h

/-- The slot, the pid file and the history are those of `r`, and no child is added. -/
structure Frame (r r' : Manager) : Prop where
  process : r'.process = r.process
  pidFile : r'.pidFile = r.pidFile
  settled : r'.settled = r.settled
  spawned : ∀ pid, r'.Spawned pid → r.Spawned pid

theorem Frame.lastError (r : Manager) (msg : String) : Frame r { r with lastError := msg } :=
  ⟨rfl, rfl, rfl, fun _ h => h⟩

theorem frame_setProcess {pid : Pid} {p : Option Process} (h : ∀ x, p = some x → x.child = false) :
    Frame r (r.setProcess pid p) := by
  refine ⟨rfl, rfl, rfl, fun q hq => ?_⟩
  rcases spawned_setProcess hq with ⟨_, x, hx, hchild⟩ | ⟨_, hq⟩
  · rw [h x hx] at hchild
    cases hchild
  · exact hq

theorem frame_markExited {pid : Pid} {code : Option Int} : Frame r (r.markExited pid code) := by
  refine ⟨?_, ?_, ?_, fun q hq => spawned_markExited hq⟩
  all_goals
    unfold markExited
    split
    · split <;> rfl
    · rfl

/-- Without a child in the slot there is no pid file, and a child there is named by it. -/
def Recorded (r : Manager) : Prop :=
  match r.process with
  | none => r.pidFile = none
  | some pid => ∃ exe t, r.pidFile = some (.record pid exe t)

theorem recorded_of_empty (hprocess : r.process = none) (hfile : r.pidFile = none) :
    r.Recorded := by
  rw [Recorded, hprocess]
  exact hfile

theorem recorded_of_installed {pid : Pid} {exe : String} {t : Nat} (hprocess : r.process = some pid)
    (hfile : r.pidFile = some (.record pid exe t)) : r.Recorded := by
  rw [Recorded, hprocess]
  exact ⟨exe, t, hfile⟩

end Manager

/-- The child that is spawned and not in the slot yet. -/
def Stage.pending : Stage → Option Pid
  | .settling pid | .writingPid pid | .installing pid => some pid
  | _ => none

/-- Slot and pid file at a stage, or outside the critical sections. -/
def Files (r : Manager) : Option Stage → Prop
  | none | some .checkingSlot | some (.taking _) | some .probing => r.settled → r.Recorded
  | some .writingConfig | some .reaping => r.process = none ∧ (r.settled → r.Recorded)
  | some .spawning | some (.settling _) | some (.writingPid _) =>
    r.process = none ∧ r.pidFile = none
  | some (.installing pid) => r.process = none ∧ ∃ exe t, r.pidFile = some (.record pid exe t)
  | some (.removingPid _) | some .cleaning => r.process = none

/-- **The invariant of the manager.**  Every child is in the slot or about to get there. -/
structure Coherent (s : Option Stage) (r : Manager) : Prop where
  spawned : ∀ pid, r.Spawned pid → r.process = some pid ∨ s.bind Stage.pending = some pid
  settled : r.process.isSome → r.settled
  files : Files r s

theorem Files.frame {r r' : Manager} (hr : r.Frame r') {s : Option Stage} (h : Files r s) :
    Files r' s := by
  have hrecorded : r.Recorded → r'.Recorded := by
    unfold Manager.Recorded
    rw [hr.process, hr.pidFile]
    exact id
  unfold Files at h ⊢
  rw [hr.process, hr.pidFile, hr.settled]
  split at h
  · exact fun hs => hrecorded (h hs)
  · exact fun hs => hrecorded (h hs)
  · exact fun hs => hrecorded (h hs)
  · exact fun hs => hrecorded (h hs)
  · exact ⟨h.1, fun hs => hrecorded (h.2 hs)⟩
  · exact ⟨h.1, fun hs => hrecorded (h.2 hs)⟩
  all_goals exact h

theorem Coherent.frame {s : Option Stage} {r r' : Manager} (h : Coherent s r) (hr : r.Frame r') :
    Coherent s r' := by
  refine ⟨fun pid hpid => ?_, fun hslot => ?_, h.files.frame hr⟩
  · rw [hr.process]
    exact h.spawned pid (hr.spawned pid hpid)
  · rw [hr.process] at hslot
    rw [hr.settled]
    exact h.settled hslot

/-! ### Each kind of step keeps it -/

section

variable {env : ManagerEnv}

/-- Stages at which the slot is empty and no child is spawned. -/
theorem Coherent.no_child {s : Stage} {r : Manager} (h : Coherent (some s) r)
    (hprocess : r.process = none) (hs : s.pending = none) (pid : Pid) : ¬ r.Spawned pid := by
  intro hpid
  rcases h.spawned pid hpid with hslot | hpending
  · rw [hprocess] at hslot
    cases hslot
  · rw [Option.bind_some, hs] at hpending
    cases hpending

theorem coherent_of_no_child {s : Option Stage} {r : Manager} (hchild : ∀ pid, ¬ r.Spawned pid)
    (hprocess : r.process = none) (hfiles : Files r s) : Coherent s r where
  spawned pid hpid := absurd hpid (hchild pid)
  settled h := by
    rw [hprocess] at h
    cases h
  files := hfiles

theorem frame_work {o : Outcomes} {p p' : Point} {r r' : Manager}
    (h : work env o p r = some (p', r')) : r.Frame r' := by
  unfold work at h
  split at h
  · split at h
    · cases h
      exact ⟨rfl, rfl, rfl, fun _ h => h⟩
    · cases h
      exact Manager.Frame.lastError r _
  · cases h
  · cases h

theorem frame_occur {e : Event} {r r' : Manager} (h : occur e r = some r') : r.Frame r' := by
  cases e with
  | exit pid code =>
    cases h
    exact Manager.frame_markExited
  | appear pid exe =>
    simp only [occur] at h
    split at h
    · cases h
    · cases h
      exact Manager.frame_setProcess fun x hx => by cases hx; rfl
  | vanish pid =>
    simp only [occur] at h
    split at h
    · split at h
      · cases h
      · cases h
        exact Manager.frame_setProcess fun x hx => nomatch hx
    · cases h
  | output line =>
    cases h
    split
    · exact ⟨rfl, rfl, rfl, fun _ h => h⟩
    · exact Manager.Frame.lastError r _

theorem coherent_enter {c : Critical} {r : Manager} (h : Coherent none r) :
    Coherent (some c.first) r := by
  refine ⟨fun pid hpid => .inl ?_, h.settled, ?_⟩
  · rcases h.spawned pid hpid with hslot | hpending
    · exact hslot
    · cases hpending
  · have hfiles : r.settled → r.Recorded := h.files
    cases c <;> exact hfiles

theorem reapStale_pidFile (killed : Bool) (r : Manager) :
    (reapStale env killed r).pidFile = none := by
  unfold reapStale
  split
  · assumption
  · rfl
  · rfl

theorem reapStale_process (killed : Bool) (r : Manager) :
    (reapStale env killed r).process = r.process := by
  unfold reapStale
  split
  · rfl
  · rfl
  · dsimp only
    split
    · exact Manager.frame_markExited.process
    · rfl

theorem spawned_reapStale {killed : Bool} {r : Manager} {pid : Pid}
    (h : (reapStale env killed r).Spawned pid) : r.Spawned pid := by
  unfold reapStale at h
  split at h
  · exact h
  · exact h
  · dsimp only at h
    split at h
    · exact Manager.spawned_markExited h
    · exact h

/-- A section that ends, or goes on without having touched slot, pid file and children. -/
theorem Coherent.leave {s : Stage} {r r' : Manager} (h : Coherent (some s) r)
    (hpending : s.pending = none) (hr : r.Frame r') (hfiles : r'.settled → r'.Recorded) :
    Coherent none r' := by
  refine ⟨fun pid hpid => .inl ?_, (h.frame hr).settled, hfiles⟩
  rcases (h.frame hr).spawned pid hpid with hslot | hpid
  · exact hslot
  · rw [Option.bind_some, hpending] at hpid
    cases hpid

/-- A child that exited before it was recorded is waited for, and none is left. -/
theorem no_child_of_waited {pid : Pid} {r : Manager} (h : Coherent (some (.settling pid)) r)
    (hprocess : r.process = none) (q : Pid) : ¬ (r.setProcess pid none).Spawned q := by
  intro hq
  obtain ⟨hne, hq⟩ := Manager.spawned_of_waited hq
  rcases h.spawned q hq with hslot | hpending
  · rw [hprocess] at hslot
    cases hslot
  · exact hne (Option.some.inj hpending).symm

/-- A child that was in the slot is waited for, and none is left. -/
theorem no_child_of_taken {s : Stage} {pid : Pid} {r : Manager} (h : Coherent (some s) r)
    (hpending : s.pending = none) (hprocess : r.process = some pid) (q : Pid) :
    ¬ (r.setProcess pid none).Spawned q := by
  intro hq
  obtain ⟨hne, hq⟩ := Manager.spawned_of_waited hq
  rcases h.spawned q hq with hslot | hq
  · rw [hprocess] at hslot
    exact hne (Option.some.inj hslot).symm
  · rw [Option.bind_some, hpending] at hq
    cases hq

theorem coherent_start {o : Outcomes} {s : Stage} {next : Stage ⊕ Point} {r r' : Manager}
    (h : Coherent (some s) r) (hs : s = .checkingSlot ∨ s = .writingConfig ∨ s = .reaping)
    (hnext : critical env o s r = some (next, r')) : Coherent next.getLeft? r' := by
  have hfiles := h.files
  rcases hs with rfl | rfl | rfl
  · simp only [critical] at hnext
    split at hnext
    · cases hnext
      exact h.leave rfl ⟨rfl, rfl, rfl, fun _ h => h⟩ hfiles
    next hslot =>
      cases hnext
      have hprocess : r.process = none := Option.not_isSome_iff_eq_none.mp hslot
      exact coherent_of_no_child (h.no_child hprocess rfl) hprocess ⟨hprocess, hfiles⟩
  · simp only [critical] at hnext
    obtain ⟨hprocess, hrecorded⟩ : r.process = none ∧ (r.settled → r.Recorded) := hfiles
    split at hnext
    · cases hnext
      exact coherent_of_no_child (h.no_child hprocess rfl) hprocess ⟨hprocess, hrecorded⟩
    · cases hnext
      exact h.leave rfl ⟨rfl, rfl, rfl, fun _ h => h⟩ hrecorded
    · cases hnext
      exact h.leave rfl (Manager.Frame.lastError r _) hrecorded
  · obtain ⟨hprocess, _⟩ : r.process = none ∧ (r.settled → r.Recorded) := hfiles
    cases hnext
    have hchild : ∀ pid, ¬ (reapStale env o.killed r).Spawned pid :=
      fun pid hpid => h.no_child hprocess rfl pid (spawned_reapStale hpid)
    have hempty : (reapStale env o.killed r).process = none := by
      rw [reapStale_process]
      exact hprocess
    exact coherent_of_no_child hchild hempty ⟨hempty, reapStale_pidFile o.killed r⟩

theorem coherent_spawning {o : Outcomes} {next : Stage ⊕ Point} {r r' : Manager}
    (h : Coherent (some .spawning) r) (hnext : critical env o .spawning r = some (next, r')) :
    Coherent next.getLeft? r' := by
  obtain ⟨hprocess, hfile⟩ : r.process = none ∧ r.pidFile = none := h.files
  simp only [critical] at hnext
  split at hnext
  · cases hnext
    exact h.leave rfl (Manager.Frame.lastError r _)
      fun _ => Manager.recorded_of_empty hprocess hfile
  next pid _ =>
    split at hnext
    · cases hnext
    · cases hnext
      refine ⟨fun q hq => .inr ?_, h.settled, ⟨hprocess, hfile⟩⟩
      -- The child is the only process that was added.
      rcases Manager.spawned_setProcess (r := r) hq with ⟨rfl, _⟩ | ⟨_, hq⟩
      · rfl
      · exact absurd hq (h.no_child hprocess rfl q)

theorem coherent_settling {o : Outcomes} {pid : Pid} {next : Stage ⊕ Point} {r r' : Manager}
    (h : Coherent (some (.settling pid)) r)
    (hnext : critical env o (.settling pid) r = some (next, r')) :
    Coherent next.getLeft? r' := by
  obtain ⟨hprocess, hfile⟩ : r.process = none ∧ r.pidFile = none := h.files
  simp only [critical, Manager.tryWait] at hnext
  cases hp : r.processes pid with
  | none =>
    rw [hp] at hnext
    cases hnext
    have hchild : ∀ q, ¬ r.Spawned q := by
      intro q hq
      rcases h.spawned q hq with hslot | hpending
      · rw [hprocess] at hslot
        cases hslot
      · cases hpending
        exact Manager.not_spawned_of_none hp hq
    exact coherent_of_no_child hchild hprocess
      fun _ => Manager.recorded_of_empty hprocess hfile
  | some p =>
    rw [hp] at hnext
    dsimp only at hnext
    cases hstatus : p.status with
    | running =>
      rw [hstatus] at hnext
      cases hnext
      exact ⟨h.spawned, h.settled, ⟨hprocess, hfile⟩⟩
    | exited code =>
      rw [hstatus] at hnext
      cases hnext
      exact coherent_of_no_child (no_child_of_waited h hprocess) hprocess
        fun _ => Manager.recorded_of_empty hprocess hfile

theorem coherent_record {o : Outcomes} {s : Stage} {pid : Pid} {next : Stage ⊕ Point}
    {r r' : Manager} (h : Coherent (some s) r) (hs : s = .writingPid pid ∨ s = .installing pid)
    (hnext : critical env o s r = some (next, r')) : Coherent next.getLeft? r' := by
  rcases hs with rfl | rfl
  · obtain ⟨hprocess, _⟩ : r.process = none ∧ r.pidFile = none := h.files
    cases hnext
    exact ⟨h.spawned, h.settled, hprocess, _, _, rfl⟩
  · obtain ⟨hprocess, exe, t, hfile⟩ :
        r.process = none ∧ ∃ exe t, r.pidFile = some (.record pid exe t) := h.files
    cases hnext
    refine ⟨fun q hq => .inl ?_, fun _ => rfl, fun _ => Manager.recorded_of_installed rfl hfile⟩
    rcases h.spawned q hq with hslot | hpending
    · rw [hprocess] at hslot
      cases hslot
    · exact hpending

theorem coherent_stop {o : Outcomes} {s : Stage} {restart : Bool} {next : Stage ⊕ Point}
    {r r' : Manager} (h : Coherent (some s) r) (hs : s = .taking restart ∨ s = .removingPid restart)
    (hnext : critical env o s r = some (next, r')) : Coherent next.getLeft? r' := by
  rcases hs with rfl | rfl
  · simp only [critical] at hnext
    split at hnext
    next pid hprocess =>
      cases hnext
      exact coherent_of_no_child (no_child_of_taken h rfl hprocess) rfl rfl
    next hprocess =>
      cases hnext
      exact coherent_of_no_child (h.no_child hprocess rfl) hprocess hprocess
  · have hprocess : r.process = none := h.files
    cases hnext
    exact coherent_of_no_child (h.no_child hprocess rfl) hprocess
      fun _ => Manager.recorded_of_empty hprocess rfl

theorem coherent_isRunning {o : Outcomes} {s : Stage} {next : Stage ⊕ Point} {r r' : Manager}
    (h : Coherent (some s) r) (hs : s = .probing ∨ s = .cleaning)
    (hnext : critical env o s r = some (next, r')) : Coherent next.getLeft? r' := by
  rcases hs with rfl | rfl
  · have hfiles : r.settled → r.Recorded := h.files
    simp only [critical, Manager.tryWait] at hnext
    split at hnext
    · cases hnext
      exact h.leave rfl ⟨rfl, rfl, rfl, fun _ h => h⟩ hfiles
    next pid hprocess =>
      cases hp : r.processes pid with
      | none =>
        rw [hp] at hnext
        cases hnext
        have hchild : ∀ q, ¬ r.Spawned q := by
          intro q hq
          rcases h.spawned q hq with hslot | hpending
          · cases hprocess.symm.trans hslot
            exact Manager.not_spawned_of_none hp hq
          · cases hpending
        exact coherent_of_no_child hchild rfl rfl
      | some p =>
        rw [hp] at hnext
        dsimp only at hnext
        cases hstatus : p.status with
        | running =>
          rw [hstatus] at hnext
          cases hnext
          exact h.leave rfl ⟨rfl, rfl, rfl, fun _ h => h⟩ hfiles
        | exited code =>
          rw [hstatus] at hnext
          cases hnext
          exact coherent_of_no_child (no_child_of_taken h rfl hprocess) rfl rfl
  · have hprocess : r.process = none := h.files
    cases hnext
    exact coherent_of_no_child (h.no_child hprocess rfl) hprocess
      fun _ => Manager.recorded_of_empty hprocess rfl

theorem keeps_coherent : (processManager env).Keeps Coherent where
  work _ _ _ _ _ _ h hwork := h.frame (frame_work hwork)
  enter k s r h henter := by
    cases k with
    | awaiting c =>
      cases henter
      exact coherent_enter h
    | checkingBinary => cases henter
    | returned => cases henter
  critical o s next r r' h hnext := by
    have hnext : critical env o s r = some (next, r') := hnext
    cases s with
    | checkingSlot => exact coherent_start h (.inl rfl) hnext
    | writingConfig => exact coherent_start h (.inr (.inl rfl)) hnext
    | reaping => exact coherent_start h (.inr (.inr rfl)) hnext
    | spawning => exact coherent_spawning h hnext
    | settling pid => exact coherent_settling h hnext
    | writingPid pid => exact coherent_record h (.inl rfl) hnext
    | installing pid => exact coherent_record h (.inr rfl) hnext
    | taking restart => exact coherent_stop h (.inl rfl) hnext
    | removingPid restart => exact coherent_stop h (.inr rfl) hnext
    | probing => exact coherent_isRunning h (.inl rfl) hnext
    | cleaning => exact coherent_isRunning h (.inr rfl) hnext
  environment _ _ _ _ h hoccur := h.frame (frame_occur hoccur)

/-! ### Runs -/

abbrev System := Monitor.State Point Stage Manager

/-- A manager as it is made: no call is under way and no child was spawned.  The pid
file and the other processes of the machine are arbitrary. -/
structure Initial (st : System) : Prop where
  unlocked : st.lock = none
  calls : ∀ c, ∃ call : Call, st.points c = call.entry
  process : st.shared.process = none
  childless : ∀ pid, ¬ st.shared.Spawned pid
  unsettled : st.shared.settled = false

theorem Initial.coherent {st : System} (h : Initial st) : Coherent st.stage st.shared := by
  refine coherent_of_no_child h.childless h.process ?_
  rw [Monitor.State.stage, h.unlocked]
  intro hsettled
  rw [h.unsettled] at hsettled
  cases hsettled

theorem coherent_of_run {init st : System} {as : List (Monitor.Action Outcomes Event)}
    (hinit : Initial init) (hrun : run (processManager env).step init as = some st) :
    Coherent st.stage st.shared :=
  Monitor.invariant keeps_coherent hinit.coherent hrun

/-- **A core runs once.**  Outside the critical sections of every run a living child is
the one in the slot; and once a `stop` or a successful `start` is over, there is a pid
file if and only if the slot is occupied, and it names that child. -/
theorem single_core_instance {init st : System} {as : List (Monitor.Action Outcomes Event)}
    (hinit : Initial init) (hrun : run (processManager env).step init as = some st)
    (hfree : st.lock = none) :
    (∀ pid, st.shared.Alive pid → st.shared.process = some pid) ∧
      (∀ pid pid', st.shared.Alive pid → st.shared.Alive pid' → pid = pid') ∧
      (st.shared.settled →
        (st.shared.pidFile.isSome ↔ st.shared.process.isSome) ∧
        ∀ pid, st.shared.process = some pid →
          ∃ exe t, st.shared.pidFile = some (.record pid exe t)) := by
  have hcoherent := coherent_of_run hinit hrun
  rw [Monitor.State.stage, hfree] at hcoherent
  have hslot : ∀ pid, st.shared.Alive pid → st.shared.process = some pid := by
    intro pid hpid
    rcases hcoherent.spawned pid hpid.spawned with h | h
    · exact h
    · cases h
  refine ⟨hslot, fun pid pid' hpid hpid' => ?_, fun hsettled => ?_⟩
  · exact Option.some.inj ((hslot pid hpid).symm.trans (hslot pid' hpid'))
  · have hrecorded : st.shared.Recorded := hcoherent.files hsettled
    unfold Manager.Recorded at hrecorded
    split at hrecorded
    next hprocess =>
      rw [hprocess, hrecorded]
      exact ⟨Iff.rfl, fun pid hpid => by cases hpid⟩
    next pid hprocess =>
      obtain ⟨exe, t, hfile⟩ := hrecorded
      rw [hprocess, hfile]
      refine ⟨Iff.rfl, fun q hq => ?_⟩
      cases hq
      exact ⟨exe, t, rfl⟩

end

namespace LeftOver

/-- A manager that finds the core of an earlier instance. -/
def env : ManagerEnv := ⟨.singBox, "/opt/core/sing-box", fun path => some path⟩

def core : Process := ⟨some "/opt/core/sing-box", false, .running⟩

def manager : Manager where
  process := none
  lastError := ""
  pidFile := some (.record 7 "/opt/core/sing-box" 100)
  processes := Function.update (fun _ => none) 7 (some core)
  settled := false

/-- Caller 0 starts the core, caller 1 restarts it and the others ask for its state. -/
def call : Caller → Call
  | 0 => .start
  | 1 => .restart
  | _ => .isRunning

def system : System := ⟨none, fun c => (call c).entry, manager⟩

def outcomes (pid : Pid) : Outcomes := ⟨true, .written, true, .ok pid, "", 200⟩

/-- The restart waits for the start; between its stop and its start a caller asks, and
the second child exits after it was recorded. -/
def steps : List (Monitor.Action Outcomes Event) :=
  [.advance 0 (outcomes 8), .advance 0 (outcomes 8), .advance 0 (outcomes 8),
    .advance 0 (outcomes 8), .advance 0 (outcomes 8), .environment (.vanish 7),
    .advance 0 (outcomes 8), .advance 0 (outcomes 8), .advance 0 (outcomes 8),
    .advance 0 (outcomes 8), .advance 1 (outcomes 9), .advance 1 (outcomes 9),
    .advance 1 (outcomes 9), .advance 2 (outcomes 9), .advance 2 (outcomes 9),
    .advance 1 (outcomes 9), .advance 1 (outcomes 9), .advance 1 (outcomes 9),
    .advance 1 (outcomes 9), .advance 1 (outcomes 9), .advance 1 (outcomes 9),
    .advance 1 (outcomes 9), .advance 1 (outcomes 9), .advance 1 (outcomes 9),
    .environment (.exit 9 (some 1))]

theorem initial_system : Initial system where
  unlocked := rfl
  calls c := ⟨call c, rfl⟩
  process := rfl
  childless := by
    rintro pid ⟨p, hp, hchild⟩
    by_cases h : pid = 7
    · subst h
      cases hp
      cases hchild
    · have hp : Function.update (fun _ => none) 7 (some core) pid = some p := hp
      rw [Function.update_of_ne h] at hp
      cases hp
  unsettled := rfl

end LeftOver

theorem single_core_instance_left_over :
    ∃ st, run (processManager LeftOver.env).step LeftOver.system LeftOver.steps = some st ∧
      st.lock = none ∧ st.shared.settled ∧ st.shared.process = some 9 ∧
      (∀ pid, st.shared.Alive pid → st.shared.process = some pid) ∧
      ∃ exe t, st.shared.pidFile = some (.record 9 exe t) := by
  have hrun := @single_core_instance LeftOver.env _ _ LeftOver.steps LeftOver.initial_system rfl rfl
  exact ⟨_, rfl, rfl, rfl, rfl, hrun.1, (hrun.2.2 rfl).2 9 rfl⟩

end ProxyPanel.Core
