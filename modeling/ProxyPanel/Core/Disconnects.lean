import ProxyPanel.Core.ProcessManager
import ProxyPanel.Lib.Json

/-!
# Disconnects and the cores

The renewal of a certificate restarts a core inside a task of the connection, and that
task is aborted at whatever it waits for when the stream ends: in its `stop`, in the pause
after it, while the configuration is written, in the pause after the core was spawned.  An
aborted task gives the lock back; a child that it did not put into the slot is dropped,
which does not end it, except where a job object is closed with it.

`cores_kept_of_guarded` says which aborts are harmless: those before the `stop` and after
the core was put into the slot, or of a restart that found no running core and holds none.
-/

namespace ProxyPanel.Core.Disconnects

open Run

/-! ### Tasks -/

/-- The callers of the manager.  Renewal and status report are tasks of a connection; the
hub's messages are handled to the end. -/
inductive Task where
  | renewal (config : Json)
  | status
  | handler (call : Call) (config : Json)

def Task.call : Task → Call
  | .renewal _ => .restart
  | .status => .isRunning
  | .handler call _ => call

/-- What a call starts the core with. -/
def Task.config : Task → Json
  | .renewal config | .handler _ config => config
  | .status => .null

def Task.ofConnection : Task → Bool
  | .renewal _ | .status => true
  | .handler _ _ => false

/-- The manager with its callers.  Not kept by the code are the configuration that a child
was started with, the configuration of the running core that a restart took from the slot,
and that of the child which it put there. -/
structure Supervised where
  system : System
  gone : Caller → Bool
  startedWith : Pid → Json
  touched : Caller → Option Json
  recorded : Caller → Option Json

instance (r : Manager) (pid : Pid) : Decidable (r.Alive pid) :=
  match h : r.processes pid with
  | some p => decidable_of_iff (p.child = true ∧ p.status = .running) (by simp [Manager.Alive, h])
  | none => .isFalse (by simp [Manager.Alive, h])

namespace Supervised

variable (a : Supervised)

abbrev manager : Manager := a.system.shared

/-- The configuration of the running core in the slot. -/
def running : Option Json :=
  a.manager.process.bind fun pid =>
    if a.manager.Alive pid then some (a.startedWith pid) else none

end Supervised

/-! ### Aborts -/

/-- The stages that begin with an await: the writing of the file, the pause after the spawn
and the locks of guard and start time. -/
def awaits : Stage → Bool
  | .writingConfig | .settling _ | .installing _ | .removingPid _ | .cleaning => true
  | .checkingSlot | .reaping | .spawning | .writingPid _ | .taking _ | .probing => false

/-- What is dropped with a stage: the child goes on, unless its job object ends it. -/
def release (jobs : Bool) (s : Stage) (r : Manager) : Manager :=
  match s.pending with
  | some pid => if jobs then r.killProcess pid else r
  | none => r

section

variable (env : ManagerEnv) (jobs : Bool) (tasks : Caller → Task)

inductive Action where
  | advance (c : Caller) (o : Outcomes)
  | environment (e : Event)
  | abort (c : Caller)

/-- What the step of a caller adds to the history. -/
def observe (a : Supervised) (c : Caller) (o : Outcomes) : Supervised :=
  match a.system.holding c with
  | some (.taking _) => { a with touched := Function.update a.touched c a.running }
  | some .spawning =>
    match o.spawned with
    | .ok pid => { a with startedWith := Function.update a.startedWith pid (tasks c).config }
    | .error _ => a
  | some (.installing pid) =>
    { a with recorded := Function.update a.recorded c (some (a.startedWith pid)) }
  | _ => a

/-- **The agent.**  A task of the connection is aborted where it waits. -/
def step (a : Supervised) : Action → Option Supervised
  | .advance c o =>
    if a.gone c then none
    else ((processManager env).step a.system (.advance c o)).map fun st =>
      { observe tasks a c o with system := st }
  | .environment e =>
    ((processManager env).step a.system (.environment e)).map fun st => { a with system := st }
  | .abort c =>
    if (tasks c).ofConnection ∧ (a.system.holding c).all awaits then
      some { a with
        system := Monitor.drop (release jobs) a.system c
        gone := Function.update a.gone c true }
    else none

/-! ### Where a restart is -/

/-- `before` the core is stopped, `done` after the call; other calls are `foreign`. -/
inductive Progress where
  | before
  | within
  | done
  | foreign
  deriving DecidableEq

def stageProgress : Stage → Progress
  | .taking true => .before
  | .taking false | .removingPid false | .probing | .cleaning => .foreign
  | .removingPid true | .checkingSlot | .writingConfig | .reaping | .spawning => .within
  | .settling _ | .writingPid _ | .installing _ => .within

def pointProgress : Point → Progress
  | .awaiting (.stop true) => .before
  | .checkingBinary | .awaiting .start => .within
  | .awaiting (.stop false) | .awaiting .isRunning => .foreign
  | .returned _ => .done

def progress (st : System) (c : Caller) : Progress :=
  match st.holding c with
  | some s => stageProgress s
  | none => pointProgress (st.points c)

/-- The call came to its end or was aborted. -/
def Supervised.Over (a : Supervised) (c : Caller) : Prop :=
  a.gone c = true ∨ progress a.system c = .done

/-- **Disconnects do not disturb cores**, for one abort: a core in the slot stays there and
goes on; a core that a renewal took from it was started again with the same configuration
and put into the slot; and outside the critical sections no core lives outside the slot. -/
structure CoresKept (a a' : Supervised) : Prop where
  untouched : ∀ pid, a.manager.process = some pid → a.manager.Alive pid →
    a'.manager.process = some pid ∧ a'.manager.Alive pid
  restarted : ∀ c config, tasks c = .renewal config → a'.Over c →
    ∀ old, a'.touched c = some old → a'.recorded c = some old
  inSlot : a'.system.lock = none → ∀ pid, a'.manager.Alive pid → a'.manager.process = some pid

/-- The start goes on after this stage. -/
def starts (r : Manager) (o : Outcomes) : Stage → Bool
  | .checkingSlot => r.process.isNone
  | .writingConfig => match o.configWrite with | .written => true | _ => false
  | .spawning => o.spawned.toBool
  | .settling pid => r.Alive pid
  | _ => true

/-- **What keeps the cores.**  A renewal restarts a core with the configuration it runs with,
and once it stopped a running core its start succeeds.  It is not aborted between its `stop`
and the recording of the new core, unless the slot had no running core and it holds none. -/
def Safe (a : Supervised) : Action → Prop
  | .advance c o => ∀ config, tasks c = .renewal config →
    match a.system.holding c with
    | some (.taking _) => ∀ old, a.running = some old → old = config
    | some s => a.touched c ≠ none → starts a.manager o s = true
    | none => a.touched c ≠ none → a.system.points c = .checkingBinary → o.binaryExists = true
  | .environment _ => True
  | .abort c => (∀ config, tasks c = .renewal config → progress a.system c = .within →
      a.touched c = none) ∧
    ∀ s pid, a.system.holding c = some s → s.pending = some pid → a.manager.Alive pid → jobs = true

end

/-! ### Living children -/

section

variable {r r' : Manager} {pid q : Pid}

theorem alive_setProcess_none (h : (r.setProcess pid none).Alive q) : q ≠ pid ∧ r.Alive q := by
  obtain ⟨x, hx, hchild, hrunning⟩ := h
  by_cases hq : q = pid
  · subst hq
    rw [Manager.processes_setProcess_self] at hx
    cases hx
  · rw [Manager.processes_setProcess_of_ne r hq] at hx
    exact ⟨hq, x, hx, hchild, hrunning⟩

theorem alive_markExited {code : Option Int} (h : (r.markExited pid code).Alive q) : r.Alive q := by
  unfold Manager.markExited at h
  split at h
  next p hp =>
    split at h
    · obtain ⟨x, hx, hchild, hrunning⟩ := h
      by_cases hq : q = pid
      · subst hq
        rw [Manager.processes_setProcess_self] at hx
        cases hx
        cases hrunning
      · rw [Manager.processes_setProcess_of_ne r hq] at hx
        exact ⟨x, hx, hchild, hrunning⟩
    · exact h
  next => exact h

theorem not_alive_killProcess : ¬ (r.killProcess pid).Alive pid := by
  rintro ⟨x, hx, -, hrunning⟩
  unfold Manager.killProcess Manager.markExited at hx
  split at hx
  next p hp =>
    split at hx
    · rw [Manager.processes_setProcess_self] at hx
      cases hx
      cases hrunning
    next hstopped =>
      cases hp.symm.trans hx
      exact hstopped hrunning
  next hp =>
    rw [hp] at hx
    cases hx

theorem alive_reapStale {env : ManagerEnv} {killed : Bool}
    (h : (reapStale env killed r).Alive q) : r.Alive q := by
  unfold reapStale at h
  split at h
  · exact h
  · exact h
  · dsimp only at h
    split at h
    · exact alive_markExited h
    · exact h

theorem alive_occur {e : Event} (h : occur e r = some r') (hq : r'.Alive q) : r.Alive q := by
  cases e with
  | exit pid code =>
    cases h
    exact alive_markExited hq
  | appear pid exe =>
    simp only [occur] at h
    split at h
    · cases h
    · cases h
      obtain ⟨x, hx, hchild, hrunning⟩ := hq
      by_cases hpid : q = pid
      · subst hpid
        rw [Manager.processes_setProcess_self] at hx
        cases hx
        cases hchild
      · rw [Manager.processes_setProcess_of_ne r hpid] at hx
        exact ⟨x, hx, hchild, hrunning⟩
  | vanish pid =>
    simp only [occur] at h
    split at h
    · split at h
      · cases h
      · cases h
        exact (alive_setProcess_none hq).2
    · cases h
  | output line =>
    cases h
    split at hq
    · exact hq
    · exact hq

end

/-! ### Slot and children -/

/-- The stages at which the slot is empty. -/
def slotEmpty : Stage → Bool
  | .checkingSlot | .taking _ | .probing => false
  | _ => true

/-- Every living child is in the slot or in the hands of the holder of the lock. -/
structure Held (s : Option Stage) (r : Manager) : Prop where
  alive : ∀ pid, r.Alive pid → r.process = some pid ∨ s.bind Stage.pending = some pid
  empty : ∀ x, s = some x → slotEmpty x = true → r.process = none

section

variable {env : ManagerEnv} {r r' : Manager}

theorem Held.shrink {s : Option Stage} (h : Held s r) (hprocess : r'.process = r.process)
    (halive : ∀ pid, r'.Alive pid → r.Alive pid) : Held s r' where
  alive pid hpid := hprocess ▸ h.alive pid (halive pid hpid)
  empty x hx hempty := hprocess ▸ h.empty x hx hempty

/-- A stage that leaves the slot as it is, with its child if it has one. -/
theorem Held.next {s : Stage} {n : Option Stage} (h : Held (some s) r)
    (hprocess : r'.process = r.process) (halive : ∀ pid, r'.Alive pid → r.Alive pid)
    (hpending : ∀ pid, s.pending = some pid → r'.Alive pid → n.bind Stage.pending = some pid)
    (hempty : ∀ x, n = some x → slotEmpty x = true → r.process = none) : Held n r' where
  alive pid hpid := by
    rcases h.alive pid (halive pid hpid) with hslot | hchild
    · exact .inl (hprocess.trans hslot)
    · exact .inr (hpending pid hchild hpid)
  empty x hx hx' := hprocess.trans (hempty x hx hx')

theorem held_of_none_alive {n : Option Stage} (halive : ∀ pid, ¬ r.Alive pid)
    (hprocess : r.process = none) : Held n r :=
  ⟨fun pid hpid => absurd hpid (halive pid), fun _ _ _ => hprocess⟩

/-- Nothing lives once the child of the slot is waited for. -/
theorem Held.none_alive_of_waited {s : Stage} {pid : Pid} (h : Held (some s) r)
    (hs : s.pending = none) (hprocess : r.process = some pid) (q : Pid) :
    ¬ (r.setProcess pid none).Alive q := by
  intro hq
  obtain ⟨hne, hq⟩ := alive_setProcess_none hq
  rcases h.alive q hq with hslot | hchild
  · rw [hprocess] at hslot
    exact hne (Option.some.inj hslot).symm
  · rw [Option.bind_some, hs] at hchild
    cases hchild

theorem held_start {o : Outcomes} {s : Stage} {next : Stage ⊕ Point} (h : Held (some s) r)
    (hs : s = .checkingSlot ∨ s = .writingConfig ∨ s = .reaping)
    (hnext : critical env o s r = some (next, r')) : Held next.getLeft? r' := by
  rcases hs with rfl | rfl | rfl
  · simp only [critical] at hnext
    split at hnext
    · cases hnext
      exact h.next rfl (fun _ h => h) (fun _ hpid => by cases hpid) (fun _ hx => by cases hx)
    next hslot =>
      cases hnext
      exact h.next rfl (fun _ h => h) (fun _ hpid => by cases hpid)
        (fun _ _ _ => Option.not_isSome_iff_eq_none.mp hslot)
  · have hempty : r.process = none := h.empty _ rfl rfl
    simp only [critical] at hnext
    split at hnext
    all_goals
      cases hnext
      exact h.next rfl (fun _ h => h) (fun _ hpid => by cases hpid) (fun _ _ _ => hempty)
  · cases hnext
    exact h.next (reapStale_process _ _) (fun _ hpid => alive_reapStale hpid)
      (fun _ hpid => by cases hpid) (fun _ _ _ => h.empty _ rfl rfl)

theorem held_spawning {o : Outcomes} {next : Stage ⊕ Point} (h : Held (some .spawning) r)
    (hnext : critical env o .spawning r = some (next, r')) : Held next.getLeft? r' := by
  have hempty : r.process = none := h.empty _ rfl rfl
  simp only [critical] at hnext
  split at hnext
  · cases hnext
    exact h.next rfl (fun _ h => h) (fun _ hpid => by cases hpid) (fun _ _ _ => hempty)
  next pid _ =>
    split at hnext
    · cases hnext
    · cases hnext
      refine ⟨fun q hq => .inr ?_, fun _ _ _ => hempty⟩
      by_cases hqpid : q = pid
      · rw [hqpid]
        rfl
      · -- No other child lives: the slot is empty.
        obtain ⟨x, hx, hchild⟩ := hq
        rw [Manager.processes_setProcess_of_ne r hqpid] at hx
        rcases h.alive q ⟨x, hx, hchild⟩ with hslot | hpending
        · rw [hempty] at hslot
          cases hslot
        · cases hpending

theorem held_settling {o : Outcomes} {pid : Pid} {next : Stage ⊕ Point}
    (h : Held (some (.settling pid)) r)
    (hnext : critical env o (.settling pid) r = some (next, r')) : Held next.getLeft? r' := by
  have hempty : r.process = none := h.empty _ rfl rfl
  simp only [critical, Manager.tryWait] at hnext
  cases hp : r.processes pid with
  | none =>
    rw [hp] at hnext
    cases hnext
    refine h.next rfl (fun _ h => h) (fun q hq hlives => ?_) (fun _ _ _ => hempty)
    cases hq
    obtain ⟨x, hx, -⟩ := hlives
    cases hp.symm.trans hx
  | some p =>
    rw [hp] at hnext
    dsimp only at hnext
    cases hstatus : p.status with
    | running =>
      rw [hstatus] at hnext
      cases hnext
      exact h.next rfl (fun _ h => h) (fun _ hq _ => hq) (fun _ _ _ => hempty)
    | exited code =>
      rw [hstatus] at hnext
      cases hnext
      refine h.next rfl (fun _ hq => (alive_setProcess_none hq).2) (fun q hq hlives => ?_)
        (fun _ _ _ => hempty)
      cases hq
      exact absurd rfl (alive_setProcess_none hlives).1

theorem held_record {o : Outcomes} {s : Stage} {pid : Pid} {next : Stage ⊕ Point}
    (h : Held (some s) r) (hs : s = .writingPid pid ∨ s = .installing pid)
    (hnext : critical env o s r = some (next, r')) : Held next.getLeft? r' := by
  rcases hs with rfl | rfl
  · cases hnext
    exact h.next rfl (fun _ h => h) (fun _ hq _ => hq) (fun _ _ _ => h.empty _ rfl rfl)
  · cases hnext
    refine ⟨fun q hq => .inl ?_, fun _ hx => nomatch hx⟩
    rcases h.alive q hq with hslot | hpending
    · rw [h.empty _ rfl rfl] at hslot
      cases hslot
    · exact hpending

theorem held_stop {o : Outcomes} {s : Stage} {restart : Bool} {next : Stage ⊕ Point}
    (h : Held (some s) r) (hs : s = .taking restart ∨ s = .removingPid restart)
    (hnext : critical env o s r = some (next, r')) : Held next.getLeft? r' := by
  rcases hs with rfl | rfl
  · simp only [critical] at hnext
    split at hnext
    next pid hprocess =>
      cases hnext
      exact held_of_none_alive (h.none_alive_of_waited rfl hprocess) rfl
    next hprocess =>
      cases hnext
      exact h.next rfl (fun _ h => h) (fun _ hpid => by cases hpid) (fun _ _ _ => hprocess)
  · cases hnext
    exact h.next rfl (fun _ h => h) (fun _ hpid => by cases hpid) (fun _ _ _ => h.empty _ rfl rfl)

theorem held_isRunning {o : Outcomes} {s : Stage} {next : Stage ⊕ Point} (h : Held (some s) r)
    (hs : s = .probing ∨ s = .cleaning) (hnext : critical env o s r = some (next, r')) :
    Held next.getLeft? r' := by
  rcases hs with rfl | rfl
  · simp only [critical, Manager.tryWait] at hnext
    split at hnext
    · cases hnext
      exact h.next rfl (fun _ h => h) (fun _ hpid => by cases hpid) (fun _ hx => by cases hx)
    next pid hprocess =>
      cases hp : r.processes pid with
      | none =>
        rw [hp] at hnext
        cases hnext
        refine held_of_none_alive (fun q hq => ?_) rfl
        rcases h.alive q hq with hslot | hpending
        · cases hprocess.symm.trans hslot
          obtain ⟨x, hx, -⟩ := hq
          cases hp.symm.trans hx
        · cases hpending
      | some p =>
        rw [hp] at hnext
        dsimp only at hnext
        cases hstatus : p.status with
        | running =>
          rw [hstatus] at hnext
          cases hnext
          exact h.next rfl (fun _ h => h) (fun _ hpid => by cases hpid) (fun _ hx => by cases hx)
        | exited code =>
          rw [hstatus] at hnext
          cases hnext
          exact held_of_none_alive (h.none_alive_of_waited rfl hprocess) rfl
  · cases hnext
    exact h.next rfl (fun _ h => h) (fun _ hpid => by cases hpid) (fun _ _ _ => h.empty _ rfl rfl)

theorem keeps_held : (processManager env).Keeps Held where
  work o p p' s r r' h hwork := by
    have hwork : work env o p r = some (p', r') := hwork
    unfold work at hwork
    split at hwork
    · split at hwork
      · cases hwork
        exact h
      · cases hwork
        exact h.shrink rfl fun _ h => h
    · cases hwork
    · cases hwork
  enter k s r h henter := by
    cases k with
    | awaiting c =>
      cases henter
      refine ⟨fun pid hpid => .inl ?_, fun x hx hempty => ?_⟩
      · rcases h.alive pid hpid with hslot | hpending
        · exact hslot
        · cases hpending
      · cases hx
        cases c <;> cases hempty
    | checkingBinary => cases henter
    | returned => cases henter
  critical o s next r r' h hnext := by
    have hnext : critical env o s r = some (next, r') := hnext
    cases s with
    | checkingSlot => exact held_start h (.inl rfl) hnext
    | writingConfig => exact held_start h (.inr (.inl rfl)) hnext
    | reaping => exact held_start h (.inr (.inr rfl)) hnext
    | spawning => exact held_spawning h hnext
    | settling pid => exact held_settling h hnext
    | writingPid pid => exact held_record h (.inl rfl) hnext
    | installing pid => exact held_record h (.inr rfl) hnext
    | taking restart => exact held_stop h (.inl rfl) hnext
    | removingPid restart => exact held_stop h (.inr rfl) hnext
    | probing => exact held_isRunning h (.inl rfl) hnext
    | cleaning => exact held_isRunning h (.inr rfl) hnext
  environment e _ r r' h hoccur :=
    h.shrink (frame_occur (show occur e r = some r' from hoccur)).process
      fun _ hpid => alive_occur (show occur e r = some r' from hoccur) hpid

/-- A holder that is dropped without a living child leaves nothing behind. -/
theorem held_release {jobs : Bool} {s : Stage} (h : Held (some s) r)
    (hchild : ∀ pid, s.pending = some pid → r.Alive pid → jobs = true) :
    Held none (release jobs s r) := by
  unfold release
  split
  next pid hpid =>
    split
    · refine h.next Manager.frame_markExited.process (fun _ hq => alive_markExited hq)
        (fun q hq hlives => ?_) (fun _ hx => nomatch hx)
      cases hpid.symm.trans hq
      exact absurd hlives not_alive_killProcess
    next hjobs =>
      refine h.next rfl (fun _ h => h) (fun q hq hlives => ?_) (fun _ hx => nomatch hx)
      exact absurd (hchild q hq hlives) hjobs
  next hpid =>
    refine h.next rfl (fun _ h => h) (fun q hq _ => ?_) (fun _ hx => nomatch hx)
    rw [hpid] at hq
    cases hq

/-- The slot and its core are not touched by the end of a holder. -/
theorem release_slot {jobs : Bool} {s : Stage} (h : Held (some s) r) {pid : Pid}
    (hprocess : r.process = some pid) (halive : r.Alive pid) :
    (release jobs s r).process = some pid ∧ (release jobs s r).Alive pid := by
  have hpending : s.pending = none := by
    cases hs : s.pending with
    | none => rfl
    | some q =>
      have hempty : slotEmpty s = true := by cases s <;> first | rfl | cases hs
      rw [h.empty s rfl hempty] at hprocess
      cases hprocess
  unfold release
  rw [hpending]
  exact ⟨hprocess, halive⟩

end

/-! ### One step of a call -/

section

variable {env : ManagerEnv}

theorem progress_of_holding {st : System} {c : Caller} {s : Stage} (h : st.holding c = some s) :
    progress st c = stageProgress s := by
  rw [progress, h]

theorem progress_of_free {st : System} {c : Caller} (h : ∀ s, st.lock ≠ some (c, s)) :
    progress st c = pointProgress (st.points c) := by
  have hnone : st.holding c = none := by
    rw [Option.eq_none_iff_forall_ne_some]
    exact fun s hs => h s (Monitor.State.holding_eq_some_iff.mp hs)
  rw [progress, hnone]

theorem progress_of_unlocked {st : System} {c : Caller} (h : st.lock = none) :
    progress st c = pointProgress (st.points c) := by
  refine progress_of_free fun s hs => ?_
  rw [h] at hs
  cases hs

/-- A caller that takes the lock stays where it is. -/
theorem stageProgress_first (c : Critical) :
    stageProgress c.first = pointProgress (.awaiting c) := by
  cases c with
  | start => rfl
  | stop restart => cases restart <;> rfl
  | isRunning => rfl

/-- A restart begins its start after its `stop`, and comes to its end early only when the
start does not go on. -/
theorem progress_critical {o : Outcomes} {s : Stage} {next : Stage ⊕ Point} {r r' : Manager}
    (hs : stageProgress s ≠ .foreign) (hnext : critical env o s r = some (next, r')) :
    next.elim stageProgress pointProgress = .within ∨
      stageProgress s = .within ∧ next.elim stageProgress pointProgress = .done ∧
        (starts r o s = false ∨ ∃ pid, s = .installing pid) := by
  cases s with
  | checkingSlot =>
    simp only [critical] at hnext
    split at hnext
    next hslot =>
      cases hnext
      exact .inr ⟨rfl, rfl, .inl (Option.isNone_eq_false_iff.mpr hslot)⟩
    next =>
      cases hnext
      exact .inl rfl
  | writingConfig =>
    simp only [critical] at hnext
    split at hnext
    next =>
      cases hnext
      exact .inl rfl
    next e he =>
      cases hnext
      exact .inr ⟨rfl, rfl, .inl (by rw [starts, he])⟩
    next e he =>
      cases hnext
      exact .inr ⟨rfl, rfl, .inl (by rw [starts, he])⟩
  | reaping =>
    cases hnext
    exact .inl rfl
  | spawning =>
    simp only [critical] at hnext
    split at hnext
    next e he =>
      cases hnext
      exact .inr ⟨rfl, rfl, .inl (by rw [starts, he]; rfl)⟩
    next pid he =>
      split at hnext
      · cases hnext
      · cases hnext
        exact .inl rfl
  | settling pid =>
    have hdead : ¬ r.Alive pid → starts r o (.settling pid) = false := fun h => decide_eq_false h
    simp only [critical, Manager.tryWait] at hnext
    cases hp : r.processes pid with
    | none =>
      rw [hp] at hnext
      cases hnext
      refine .inr ⟨rfl, rfl, .inl (hdead ?_)⟩
      rintro ⟨x, hx, -⟩
      cases hp.symm.trans hx
    | some p =>
      rw [hp] at hnext
      dsimp only at hnext
      cases hstatus : p.status with
      | running =>
        rw [hstatus] at hnext
        cases hnext
        exact .inl rfl
      | exited code =>
        rw [hstatus] at hnext
        cases hnext
        refine .inr ⟨rfl, rfl, .inl (hdead ?_)⟩
        rintro ⟨x, hx, -, hrunning⟩
        cases hp.symm.trans hx
        cases hstatus.symm.trans hrunning
  | writingPid pid =>
    cases hnext
    exact .inl rfl
  | installing pid =>
    cases hnext
    exact .inr ⟨rfl, rfl, .inr ⟨pid, rfl⟩⟩
  | taking restart =>
    cases restart with
    | false => exact absurd rfl hs
    | true =>
      simp only [critical] at hnext
      split at hnext
      all_goals
        cases hnext
        exact .inl rfl
  | removingPid restart =>
    cases restart with
    | false => exact absurd rfl hs
    | true =>
      cases hnext
      exact .inl rfl
  | probing => exact absurd rfl hs
  | cleaning => exact absurd rfl hs

/-- The call of a child in hand goes on with the same child. -/
theorem pending_critical {o : Outcomes} {s s' : Stage} {r r' : Manager} {pid : Pid}
    (hnext : critical env o s r = some (.inl s', r')) (hpid : s'.pending = some pid) :
    s.pending = some pid ∨ s = .spawning ∧ o.spawned = .ok pid := by
  cases s with
  | checkingSlot =>
    simp only [critical] at hnext
    split at hnext <;> cases hnext
    cases hpid
  | writingConfig =>
    simp only [critical] at hnext
    split at hnext <;> cases hnext
    cases hpid
  | reaping =>
    cases hnext
    cases hpid
  | spawning =>
    simp only [critical] at hnext
    split at hnext
    next => cases hnext
    next q hq =>
      split at hnext
      · cases hnext
      · cases hnext
        cases hpid
        exact .inr ⟨rfl, hq⟩
  | settling q =>
    simp only [critical] at hnext
    split at hnext <;> cases hnext
    exact .inl hpid
  | writingPid q =>
    cases hnext
    exact .inl hpid
  | installing q => cases hnext
  | taking restart =>
    simp only [critical] at hnext
    split at hnext <;> cases hnext <;> cases hpid
  | removingPid restart => cases hnext
  | probing =>
    simp only [critical] at hnext
    split at hnext
    · cases hnext
    · split at hnext <;> cases hnext <;> cases hpid
  | cleaning => cases hnext

end

/-! ### The restarts of the renewal -/

/-- What is known of a restart with this configuration. -/
structure Accounted (config : Json) (a : Supervised) (c : Caller) : Prop where
  restart : a.gone c = false → progress a.system c ≠ .foreign
  same : ∀ old, a.touched c = some old → old = config
  untouched : a.gone c = false → progress a.system c = .before → a.touched c = none
  restored : a.Over c → a.touched c = none ∨ a.recorded c = some config

/-- **The invariant of the agent.** -/
structure Inv (tasks : Caller → Task) (a : Supervised) : Prop where
  held : Held a.system.stage a.manager
  spawned : ∀ c s pid, a.system.lock = some (c, s) → s.pending = some pid →
    a.startedWith pid = (tasks c).config
  accounted : ∀ c config, tasks c = .renewal config → Accounted config a c

section

variable {env : ManagerEnv} {jobs : Bool} {tasks : Caller → Task} {a a' : Supervised} {c d : Caller}
  {config : Json} {o : Outcomes}

theorem Accounted.congr (h : Accounted config a c)
    (hprogress : progress a'.system c = progress a.system c) (hgone : a'.gone c = a.gone c)
    (htouched : a'.touched c = a.touched c) (hrecorded : a'.recorded c = a.recorded c) :
    Accounted config a' c := by
  refine ⟨?_, ?_, ?_, ?_⟩
  · rw [hgone, hprogress]
    exact h.restart
  · rw [htouched]
    exact h.same
  · rw [hgone, hprogress, htouched]
    exact h.untouched
  · rw [Supervised.Over, hgone, hprogress, htouched, hrecorded]
    exact h.restored

theorem gone_observe (a : Supervised) (d : Caller) (o : Outcomes) :
    (observe tasks a d o).gone = a.gone := by
  unfold observe
  split
  · rfl
  · split <;> rfl
  · rfl
  · rfl

theorem observe_of_ne (h : c ≠ d) : (observe tasks a d o).touched c = a.touched c ∧
    (observe tasks a d o).recorded c = a.recorded c := by
  unfold observe
  split
  · exact ⟨Function.update_of_ne h _ _, rfl⟩
  · split <;> exact ⟨rfl, rfl⟩
  · exact ⟨rfl, Function.update_of_ne h _ _⟩
  · exact ⟨rfl, rfl⟩

/-- Only the stage that takes the core from the slot touches one. -/
theorem touched_observe {s : Stage} (hs : a.system.holding c = some s)
    (hnot : stageProgress s = .within) : (observe tasks a c o).touched = a.touched := by
  unfold observe
  rw [hs]
  cases s with
  | taking restart => cases restart <;> cases hnot
  | spawning =>
    dsimp only
    split <;> rfl
  | _ => rfl

theorem observe_of_free (h : ∀ s, a.system.lock ≠ some (c, s)) : observe tasks a c o = a := by
  have hnone : a.system.holding c = none := by
    rw [Option.eq_none_iff_forall_ne_some]
    exact fun s hs => h s (Monitor.State.holding_eq_some_iff.mp hs)
  rw [observe, hnone]

theorem progress_leaveOrStay (c : Caller) (st : System) (next : (Stage ⊕ Point) × Manager) :
    progress (Monitor.leaveOrStay st c next) c = next.1.elim stageProgress pointProgress := by
  obtain ⟨s | k, r⟩ := next
  · exact progress_of_holding (Monitor.State.holding_eq_some_iff.mpr rfl)
  · rw [progress_of_unlocked rfl]
    exact congrArg pointProgress (Function.update_self ..)

/-- A step of another caller does not move a call. -/
theorem progress_step_of_ne {st st' : System} (hne : c ≠ d)
    (h : (processManager env).step st (.advance d o) = some st') :
    progress st' c = progress st c := by
  rcases Monitor.advance_cases h with ⟨s, ⟨next, r⟩, hlock, -, rfl⟩ | ⟨s, hlock, -, rfl⟩ |
    ⟨k, r, -, -, -, rfl⟩
  · have hfree : ∀ s', st.lock ≠ some (c, s') := by
      intro s' hs'
      cases hlock.symm.trans hs'
      exact hne rfl
    rw [progress_of_free hfree]
    cases next with
    | inl s' =>
      refine (progress_of_free fun x hx => ?_).trans rfl
      cases hx
      exact hne rfl
    | inr k =>
      rw [progress_of_unlocked rfl]
      exact congrArg pointProgress (Function.update_of_ne hne _ _)
  · rw [progress_of_unlocked hlock]
    refine progress_of_free fun x hx => ?_
    cases hx
    exact hne rfl
  · change (match st.holding c with
      | some s => stageProgress s
      | none => pointProgress (Function.update st.points d k c)) = _
    rw [Function.update_of_ne hne]
    rfl

theorem accounted_critical {s : Stage} {next : (Stage ⊕ Point) × Manager} (h : Inv tasks a)
    (hsafe : Safe jobs tasks a (.advance c o)) (htask : tasks c = .renewal config)
    (hgone : a.gone c = false) (hlock : a.system.lock = some (c, s))
    (hnext : critical env o s a.manager = some next) :
    Accounted config
      { observe tasks a c o with system := Monitor.leaveOrStay a.system c next } c := by
  have hholding : a.system.holding c = some s := Monitor.State.holding_eq_some_iff.mpr hlock
  have hc := h.accounted c config htask
  have hforeign : stageProgress s ≠ .foreign := by
    rw [← progress_of_holding hholding]
    exact hc.restart hgone
  have hsafe := hsafe config htask
  rw [hholding] at hsafe
  have hgone' : (observe tasks a c o).gone c = false := by
    rw [gone_observe]
    exact hgone
  have hsame : ∀ old, (observe tasks a c o).touched c = some old → old = config := by
    cases hs : stageProgress s with
    | within =>
      rw [touched_observe hholding hs]
      exact hc.same
    | before =>
      cases s with
      | taking restart =>
        intro old hold
        rw [observe, hholding] at hold
        exact hsafe old ((Function.update_self (f := a.touched) ..).symm.trans hold)
      | removingPid restart => cases restart <;> cases hs
      | _ => cases hs
    | done => cases s with
      | taking restart => cases restart <;> cases hs
      | removingPid restart => cases restart <;> cases hs
      | _ => cases hs
    | foreign => exact absurd hs hforeign
  obtain ⟨next, r'⟩ := next
  rcases progress_critical hforeign hnext with hwithin | ⟨hs, hover, hend⟩
  · have hprogress := progress_leaveOrStay c a.system (next, r')
    rw [hwithin] at hprogress
    refine ⟨fun _ => ?_, hsame, fun _ hbefore => ?_, fun hover => ?_⟩
    · rw [hprogress]
      decide
    · rw [hprogress] at hbefore
      cases hbefore
    · rcases hover with hover | hover
      · cases hgone'.symm.trans hover
      · cases hprogress.symm.trans hover
  · have hprogress := progress_leaveOrStay c a.system (next, r')
    rw [hover] at hprogress
    refine ⟨fun _ => ?_, hsame, fun _ hbefore => ?_, fun _ => ?_⟩
    · rw [hprogress]
      decide
    · rw [hprogress] at hbefore
      cases hbefore
    · rcases hend with hfails | ⟨pid, rfl⟩
      · refine .inl ((congrFun (touched_observe hholding hs) c).trans ?_)
        by_contra htouched
        have hstarts : starts a.manager o s = true := by
          cases s with
          | taking restart => cases restart <;> cases hs
          | _ => exact hsafe htouched
        rw [hfails] at hstarts
        cases hstarts
      · refine .inr ?_
        rw [observe, hholding]
        refine (Function.update_self ..).trans (congrArg some ?_)
        rw [h.spawned c _ pid hlock rfl, htask]
        rfl

theorem accounted_work {k : Point} {r : Manager} (h : Accounted config a c)
    (hsafe : Safe jobs tasks a (.advance c o)) (htask : tasks c = .renewal config)
    (hgone : a.gone c = false) (hfree : ∀ s, a.system.lock ≠ some (c, s))
    (hwork : work env o (a.system.points c) a.manager = some (k, r)) :
    Accounted config { a with system := { a.system with
      points := Function.update a.system.points c k, shared := r } } c := by
  have hprogress : progress { a.system with
      points := Function.update a.system.points c k, shared := r } c = pointProgress k := by
    refine (@progress_of_free { a.system with
      points := Function.update a.system.points c k, shared := r } c hfree).trans ?_
    exact congrArg pointProgress (Function.update_self ..)
  have hsafe := hsafe config htask
  rw [show a.system.holding c = none from Option.eq_none_iff_forall_ne_some.mpr fun s hs =>
    hfree s (Monitor.State.holding_eq_some_iff.mp hs)] at hsafe
  have hstart : k = .awaiting .start ∨ a.touched c = none ∧ pointProgress k = .done := by
    unfold work at hwork
    split at hwork
    next hpoint =>
      split at hwork
      · cases hwork
        exact .inl rfl
      next hmissing =>
        cases hwork
        refine .inr ⟨?_, rfl⟩
        by_contra htouched
        exact hmissing (hsafe htouched hpoint)
    · cases hwork
    · cases hwork
  refine ⟨fun _ => ?_, h.same, fun _ hbefore => ?_, fun hover => ?_⟩
  · rw [hprogress]
    rcases hstart with rfl | ⟨-, hover⟩
    · decide
    · rw [hover]
      decide
  · rw [hprogress] at hbefore
    rcases hstart with rfl | ⟨-, hover⟩
    · cases hbefore
    · cases hover.symm.trans hbefore
  · rcases hover with hover | hover
    · cases hgone.symm.trans hover
    · rcases hstart with rfl | ⟨hnone, -⟩
      · cases hprogress.symm.trans hover
      · exact .inl hnone

/-- A caller that takes the lock has no child in hand. -/
theorem enter_cases {p : Point} {s : Stage} (h : p.awaited = some s) :
    stageProgress s = pointProgress p ∧ s.pending = none := by
  cases p with
  | awaiting c =>
    cases h
    exact ⟨stageProgress_first c, by cases c <;> rfl⟩
  | checkingBinary => cases h
  | returned => cases h

theorem accounted_enter {s : Stage} (h : Accounted config a c) (hlock : a.system.lock = none)
    (henter : (a.system.points c).awaited = some s) :
    Accounted config { a with system := { a.system with lock := some (c, s) } } c := by
  refine h.congr ?_ rfl rfl rfl
  rw [progress_of_unlocked hlock, ← (enter_cases henter).1]
  exact progress_of_holding (Monitor.State.holding_eq_some_iff.mpr rfl)

theorem startedWith_observe {s : Stage} {pid : Pid} (hs : a.system.holding c = some s)
    (hpid : s.pending = some pid) : (observe tasks a c o).startedWith = a.startedWith := by
  unfold observe
  rw [hs]
  cases s with
  | spawning => cases hpid
  | _ => rfl

/-- The child in hand runs with the configuration of the call. -/
theorem spawned_advance {st : System} {s : Stage} {pid : Pid} (h : Inv tasks a)
    (hst : (processManager env).step a.system (.advance c o) = some st)
    (hlock : st.lock = some (d, s)) (hpid : s.pending = some pid) :
    (observe tasks a c o).startedWith pid = (tasks d).config := by
  rcases Monitor.advance_cases hst with ⟨s', ⟨next, r⟩, hlock', hnext, rfl⟩ |
    ⟨s', hlock', henter, rfl⟩ | ⟨k, r, hfree, -, -, rfl⟩
  · have hholding : a.system.holding c = some s' := Monitor.State.holding_eq_some_iff.mpr hlock'
    cases next with
    | inr k => cases hlock
    | inl s'' =>
      cases hlock
      rcases pending_critical hnext hpid with hpending | ⟨rfl, hspawned⟩
      · rw [startedWith_observe hholding hpending]
        exact h.spawned _ s' pid hlock' hpending
      · rw [observe, hholding]
        simp only [hspawned]
        exact Function.update_self ..
  · cases hlock
    rw [(enter_cases henter).2] at hpid
    cases hpid
  · rw [observe_of_free hfree]
    exact h.spawned d s pid hlock hpid

theorem inv_advance (h : Inv tasks a) (hsafe : Safe jobs tasks a (.advance c o))
    (hstep : step env jobs tasks a (.advance c o) = some a') : Inv tasks a' := by
  simp only [step] at hstep
  split at hstep
  · cases hstep
  next hgone =>
    have hgone : a.gone c = false := Bool.eq_false_iff.mpr hgone
    obtain ⟨st, hst, rfl⟩ := Option.map_eq_some_iff.mp hstep
    refine ⟨Monitor.inv_step keeps_held h.held hst,
      fun d s pid hlock hpid => spawned_advance h hst hlock hpid, fun d config htask => ?_⟩
    · by_cases hdc : d = c
      · subst hdc
        rcases Monitor.advance_cases hst with ⟨s, next, hlock, hnext, rfl⟩ |
          ⟨s, hlock, henter, rfl⟩ | ⟨k, r, hfree, -, hwork, rfl⟩
        · exact accounted_critical h hsafe htask hgone hlock hnext
        · rw [observe_of_free fun s' hs' => nomatch hlock.symm.trans hs']
          exact accounted_enter (h.accounted d config htask) hlock henter
        · rw [observe_of_free hfree]
          exact accounted_work (h.accounted d config htask) hsafe htask hgone hfree hwork
      · obtain ⟨htouched, hrecorded⟩ := @observe_of_ne tasks a d c o hdc
        exact (h.accounted d config htask).congr (progress_step_of_ne hdc hst)
          (congrFun (gone_observe a c o) d) htouched hrecorded

theorem progress_drop_of_ne {st : System} {f : Stage → Manager → Manager} (hne : d ≠ c) :
    progress (Monitor.drop f st c) d = progress st d := by
  unfold Monitor.drop
  split
  next s hs =>
    have hlock := Monitor.State.holding_eq_some_iff.mp hs
    have hfree : ∀ s', st.lock ≠ some (d, s') := by
      intro s' hs'
      cases hlock.symm.trans hs'
      exact hne rfl
    rw [progress_of_unlocked rfl, progress_of_free hfree]
  next => rfl

theorem inv_environment {e : Event} (h : Inv tasks a)
    (hstep : step env jobs tasks a (.environment e) = some a') : Inv tasks a' := by
  obtain ⟨st, hst, rfl⟩ := Option.map_eq_some_iff.mp hstep
  have hheld := Monitor.inv_step keeps_held h.held hst
  obtain ⟨r, -, rfl⟩ := Option.map_eq_some_iff.mp hst
  exact ⟨hheld, h.spawned, fun c config htask => (h.accounted c config htask).congr rfl rfl rfl rfl⟩

/-- An abort before the `stop`, after the core was recorded, or of a restart that took none. -/
theorem accounted_abort {f : Stage → Manager → Manager} (h : Accounted config a c)
    (hwithin : progress a.system c = .within → a.touched c = none) :
    Accounted config { a with
      system := Monitor.drop f a.system c, gone := Function.update a.gone c true } c := by
  have hgone : Function.update a.gone c true c ≠ false := by
    rw [Function.update_self]
    decide
  refine ⟨fun hpresent => absurd hpresent hgone, h.same, fun hpresent => absurd hpresent hgone,
    fun _ => ?_⟩
  cases hpresent : a.gone c with
  | true => exact h.restored (.inl hpresent)
  | false =>
    cases hprogress : progress a.system c with
    | before => exact .inl (h.untouched hpresent hprogress)
    | within => exact .inl (hwithin hprogress)
    | done => exact h.restored (.inr hprogress)
    | foreign => exact absurd hprogress (h.restart hpresent)

theorem inv_abort (h : Inv tasks a) (hsafe : Safe jobs tasks a (.abort c))
    (hstep : step env jobs tasks a (.abort c) = some a') : Inv tasks a' := by
  simp only [step] at hstep
  split at hstep
  · cases hstep
    refine ⟨Monitor.inv_drop (fun s hs hheld => held_release hheld fun pid => hsafe.2 s pid hs)
      h.held, fun d s pid hlock hpid => ?_, fun d config htask => ?_⟩
    · unfold Monitor.drop at hlock
      split at hlock
      · cases hlock
      · exact h.spawned d s pid hlock hpid
    · by_cases hdc : d = c
      · subst hdc
        exact accounted_abort (h.accounted d config htask) (hsafe.1 config htask)
      · exact (h.accounted d config htask).congr (progress_drop_of_ne hdc)
          (Function.update_of_ne hdc _ _) rfl rfl
  · cases hstep

/-! ### Runs -/

/-- An agent that was started: nobody called its manager yet. -/
structure Initial (tasks : Caller → Task) (a : Supervised) : Prop where
  system : Core.Initial a.system
  entries : ∀ c, a.system.points c = (tasks c).call.entry
  present : ∀ c, a.gone c = false
  untouched : ∀ c, a.touched c = none

theorem Initial.inv (h : Initial tasks a) : Inv tasks a where
  held := by
    refine held_of_none_alive (fun pid hpid => h.system.childless pid hpid.spawned) ?_
    exact h.system.process
  spawned c s pid hlock _ := by
    rw [h.system.unlocked] at hlock
    cases hlock
  accounted c config htask := by
    have hprogress : progress a.system c = .before := by
      rw [progress_of_unlocked h.system.unlocked, h.entries c, htask]
      rfl
    refine ⟨fun _ => ?_, fun old hold => ?_, fun _ _ => h.untouched c,
      fun _ => .inl (h.untouched c)⟩
    · rw [hprogress]
      decide
    · rw [h.untouched c] at hold
      cases hold

theorem inv_of_guarded {init : Supervised} {as : List Action} (hinit : Initial tasks init)
    (hok : Guarded (step env jobs tasks) (Safe jobs tasks) init as)
    (hrun : run (step env jobs tasks) init as = some a) : Inv tasks a := by
  refine Run.inv_of_guarded (I := Inv tasks) (fun a act a' h hsafe hstep => ?_) hinit.inv hok hrun
  cases act with
  | advance c o => exact inv_advance h hsafe hstep
  | environment e => exact inv_environment h hstep
  | abort c => exact inv_abort h hsafe hstep

theorem slot_of_abort (h : Inv tasks a) (hstep : step env jobs tasks a (.abort c) = some a')
    {pid : Pid} (hprocess : a.manager.process = some pid) (halive : a.manager.Alive pid) :
    a'.manager.process = some pid ∧ a'.manager.Alive pid := by
  simp only [step] at hstep
  split at hstep
  · cases hstep
    unfold Supervised.manager Monitor.drop
    split
    next s hs =>
      have hheld := h.held
      rw [Monitor.State.stage, Monitor.State.holding_eq_some_iff.mp hs] at hheld
      exact release_slot hheld hprocess halive
    next => exact ⟨hprocess, halive⟩
  · cases hstep

/-- **When a disconnect leaves the cores alone**: after every run in which renewals restart
cores with the configurations these run with, their starts succeed and no restart is aborted
between its `stop` and the recording of the new core. -/
theorem cores_kept_of_guarded {init : Supervised} {as : List Action} (hinit : Initial tasks init)
    (hok : Guarded (step env jobs tasks) (Safe jobs tasks) init (as ++ [.abort c]))
    (hrun : run (step env jobs tasks) init as = some a)
    (habort : step env jobs tasks a (.abort c) = some a') : CoresKept tasks a a' := by
  obtain ⟨hbefore, hlast⟩ := guarded_append hok
  have hinv := inv_of_guarded hinit hbefore hrun
  have hinv' := inv_abort hinv (hlast a hrun).1 habort
  refine ⟨fun pid hprocess halive => slot_of_abort hinv habort hprocess halive,
    fun d config htask hover old hold => ?_, fun hlock pid halive => ?_⟩
  · have hd := hinv'.accounted d config htask
    rcases hd.restored hover with hnone | hrecorded
    · rw [hnone] at hold
      cases hold
    · rw [hrecorded, hd.same old hold]
  · have hheld := hinv'.held
    rw [Monitor.State.stage, hlock] at hheld
    rcases hheld.alive pid halive with hslot | hpending
    · exact hslot
    · cases hpending

end

/-! ### A restart that is cut off -/

namespace CutRestart

/-- A configuration that names the certificate of the domain in a directory of its own. -/
def config : Json :=
  .obj [("certificate_path", .str "certs/example.com/example.com.crt")]

/-- The core is started by a message of the hub and restarted by renewals. -/
def tasks : Caller → Task
  | 0 => .handler .start config
  | _ + 1 => .renewal config

def manager : Manager := ⟨none, "", none, fun _ => none, false⟩

def agent : Supervised where
  system := ⟨none, fun c => (tasks c).call.entry, manager⟩
  gone _ := false
  startedWith _ := config
  touched _ := none
  recorded _ := none

def started : List Action := List.replicate 9 (.advance 0 (LeftOver.outcomes 8))

/-- Up to the pause after the spawn. -/
def cut : List Action := started ++ List.replicate 9 (.advance 1 (LeftOver.outcomes 9))

/-- Up to the end of the restart. -/
def restarted : List Action := started ++ List.replicate 12 (.advance 1 (LeftOver.outcomes 9))

theorem initial_agent : Initial tasks agent where
  system := {
    unlocked := rfl
    calls := fun c => ⟨(tasks c).call, rfl⟩
    process := rfl
    childless := fun _ ⟨_, hp, _⟩ => nomatch hp
    unsettled := rfl }
  entries _ := rfl
  present _ := rfl
  untouched _ := rfl

/-- A step that is safe as long as all children run with one configuration. -/
def check (a : Supervised) : Action → Bool
  | .advance c o =>
    match a.system.holding c with
    | some (.taking _) => true
    | some s => starts a.manager o s
    | none => o.binaryExists
  | .environment _ => true
  | .abort c => progress a.system c = .done

theorem running_eq {a : Supervised} (h : ∀ pid, a.startedWith pid = config) {old : Json}
    (hold : a.running = some old) : old = config := by
  obtain ⟨pid, -, hif⟩ := Option.bind_eq_some_iff.mp hold
  split at hif
  · cases hif
    exact h pid
  · cases hif

theorem safe_of_check {a : Supervised} {act : Action} (h : ∀ pid, a.startedWith pid = config)
    (hcheck : check a act = true) : Safe false tasks a act := by
  cases act with
  | advance c o =>
    intro config' htask
    have hconfig : config' = config := by
      cases c with
      | zero => cases htask
      | succ n =>
        cases htask
        rfl
    simp only [check] at hcheck
    split at hcheck
    next hs => exact fun old hold => (running_eq h hold).trans hconfig.symm
    next s _ hs => exact fun _ => hcheck
    next hs => exact fun _ _ => hcheck
  | environment e => trivial
  | abort c =>
    have hover : progress a.system c = .done := of_decide_eq_true hcheck
    refine ⟨fun _ _ hwithin => ?_, fun s pid hs hpid _ => ?_⟩
    · rw [hover] at hwithin
      cases hwithin
    · rw [progress_of_holding hs] at hover
      cases s with
      | taking restart => cases restart <;> cases hover
      | removingPid restart => cases restart <;> cases hover
      | _ => cases hover

theorem startedWith_step {a a' : Supervised} {act : Action} (h : ∀ pid, a.startedWith pid = config)
    (hstep : step LeftOver.env false tasks a act = some a') (pid : Pid) :
    a'.startedWith pid = config := by
  cases act with
  | advance c o =>
    simp only [step] at hstep
    split at hstep
    · cases hstep
    · obtain ⟨st, -, rfl⟩ := Option.map_eq_some_iff.mp hstep
      have hconfig : ∀ c', (tasks c').config = config := fun c' => by cases c' <;> rfl
      unfold observe
      split
      · exact h pid
      · split
        next q _ =>
          by_cases hq : pid = q
          · rw [hq]
            exact (Function.update_self ..).trans (hconfig c)
          · exact (Function.update_of_ne hq _ _).trans (h pid)
        next => exact h pid
      · exact h pid
      · exact h pid
  | environment e =>
    obtain ⟨st, -, rfl⟩ := Option.map_eq_some_iff.mp hstep
    exact h pid
  | abort c =>
    simp only [step] at hstep
    split at hstep
    · cases hstep
      exact h pid
    · cases hstep

end CutRestart

/-- A restart that is aborted in the pause after the spawn leaves a living core outside the
slot, and none in it. -/
theorem cut_restart_leaves_core : ¬ ∀ (env : ManagerEnv) (jobs : Bool) (tasks : Caller → Task)
    (init a a' : Supervised) (as : List Action) (c : Caller), Initial tasks init →
    run (step env jobs tasks) init as = some a → step env jobs tasks a (.abort c) = some a' →
    CoresKept tasks a a' := by
  intro h
  have hkept := h LeftOver.env false CutRestart.tasks CutRestart.agent _ _ CutRestart.cut 1
    CutRestart.initial_agent rfl rfl
  have hslot := hkept.inSlot rfl 9 ⟨_, rfl, rfl, rfl⟩
  cases hslot

theorem cores_kept_of_guarded_restarted : ∃ a a',
    run (step LeftOver.env false CutRestart.tasks) CutRestart.agent CutRestart.restarted = some a ∧
      step LeftOver.env false CutRestart.tasks a (.abort 1) = some a' ∧
      a'.recorded 1 = some CutRestart.config ∧ CoresKept CutRestart.tasks a a' := by
  have hchecked : checked (step LeftOver.env false CutRestart.tasks) CutRestart.check
      CutRestart.agent (CutRestart.restarted ++ [.abort 1]) = true := rfl
  have hsafe : ∀ (a : Supervised) (act : Action), (∀ pid, a.startedWith pid = CutRestart.config) →
      CutRestart.check a act = true → Safe false CutRestart.tasks a act :=
    fun _ _ => CutRestart.safe_of_check
  obtain ⟨hok, -⟩ := guarded_of_checked hsafe
    (fun _ _ _ h _ hstep => CutRestart.startedWith_step h hstep) (fun _ => rfl) hchecked
  exact ⟨_, _, rfl, rfl, rfl, cores_kept_of_guarded CutRestart.initial_agent hok rfl rfl⟩

end ProxyPanel.Core.Disconnects
