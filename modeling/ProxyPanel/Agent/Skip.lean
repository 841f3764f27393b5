import ProxyPanel.Agent.Client

/-!
# Skipped pushes

A push is skipped when the snapshot has its version, so a skip is as good as the
snapshot.  `Tracked` keeps beside the agent whether something happened to the
process of a core since its snapshot was written; `skip_sound` is about every run.
-/

namespace ProxyPanel

namespace Agent

/-! ### What a call of a manager leaves behind -/

theorem CoreManager.restart_cases (o : Outcomes) (config : Json) (process : Option Json) :
    CoreManager.restart o config process = (process, false) ∨
      CoreManager.restart o config process = (none, false) ∨
      CoreManager.restart o config process = (some config, true) := by
  obtain ⟨installOk, startOk, stopOk, reloadOk, saveOk⟩ := o
  cases stopOk with
  | false => exact Or.inl rfl
  | true =>
    cases startOk with
    | false => exact Or.inr (Or.inl rfl)
    | true => exact Or.inr (Or.inr rfl)

/-- A reload that succeeds leaves the configuration or, without a process, none. -/
theorem CoreManager.reload_cases (o : Outcomes) (core : CoreType) (config : Json)
    (process : Option Json) :
    CoreManager.reload o core config process = (process, false) ∨
      CoreManager.reload o core config process = (none, false) ∨
      CoreManager.reload o core config process = (some config, true) ∨
      CoreManager.reload o core config process = (none, true) := by
  cases core with
  | mihomo =>
    rcases CoreManager.restart_cases o config process with h | h | h
    · exact Or.inl h
    · exact Or.inr (Or.inl h)
    · exact Or.inr (Or.inr (Or.inl h))
  | singBox =>
    simp only [CoreManager.reload]
    cases o.reloadOk with
    | false => exact Or.inl rfl
    | true =>
      cases process with
      | none => exact Or.inr (Or.inr (Or.inr rfl))
      | some running => exact Or.inr (Or.inr (Or.inl rfl))

theorem AgentState.ensureManager_eq_some {s s' : AgentState} {o : Outcomes} {core : CoreType}
    (h : s.ensureManager o core = some s') :
    s'.processes = s.processes ∧ s'.snapshots = s.snapshots := by
  rw [AgentState.ensureManager] at h
  split at h
  · cases h
    exact ⟨rfl, rfl⟩
  · split at h
    · cases h
      exact ⟨rfl, rfl⟩
    · cases h

theorem AgentState.snapshots_saveLastConfig (s : AgentState) (core : CoreType) (config : Json)
    (version : String) :
    (s.saveLastConfig core config version).snapshots core = some ⟨core.toStr, config, version⟩ :=
  Function.update_self ..

/-! ### What a handler does -/

/-- The effect of a push on the process and the snapshot of its core. -/
structure PushEffect (parse : String → Option Json) (push : ConfigPush) (s s' : AgentState)
    (result : PushResult) : Prop where
  process_of_ne : ∀ core, core ≠ coreTypeFromI32 push.targetCore →
    s'.processes core = s.processes core
  snapshot_of_ne : ∀ core, core ≠ coreTypeFromI32 push.targetCore →
    s'.snapshots core = s.snapshots core
  effect : match result with
    | .skipped => s' = s ∧ alreadyApplied s push = true ∧ (parse push.configJson).isSome
    | .failed => s'.snapshots = s.snapshots ∧
        (s'.processes (coreTypeFromI32 push.targetCore) =
            s.processes (coreTypeFromI32 push.targetCore) ∨
          s'.processes (coreTypeFromI32 push.targetCore) = none)
    | .applied saved => ∃ config, parse push.configJson = some config ∧
        (s'.processes (coreTypeFromI32 push.targetCore) = some config ∨
          s'.processes (coreTypeFromI32 push.targetCore) = none) ∧
        if saved then s'.snapshots (coreTypeFromI32 push.targetCore) =
          some ⟨(coreTypeFromI32 push.targetCore).toStr, config, push.configVersion⟩
        else s'.snapshots = s.snapshots

theorem handleConfigPush_effect (parse : String → Option Json) (o : Outcomes) (push : ConfigPush)
    (s : AgentState) : PushEffect parse push s (handleConfigPush parse o push s).1
      (handleConfigPush parse o push s).2 := by
  have hstay : ∀ result, (result = .failed ∨ result = .skipped ∧ alreadyApplied s push = true ∧
      (parse push.configJson).isSome) → PushEffect parse push s s result := by
    rintro result (rfl | ⟨rfl, h⟩)
    · exact ⟨fun _ _ => rfl, fun _ _ => rfl, rfl, Or.inl rfl⟩
    · exact ⟨fun _ _ => rfl, fun _ _ => rfl, rfl, h⟩
  rw [handleConfigPush]
  cases hparse : parse push.configJson with
  | none => exact hstay _ (Or.inl rfl)
  | some config =>
    by_cases happlied : alreadyApplied s push = true
    · simp only [happlied, if_true]
      exact hstay _ (Or.inr ⟨rfl, happlied, by rw [hparse]; rfl⟩)
    · simp only [happlied, if_false, Bool.false_eq_true]
      cases hmanager : s.ensureManager o (coreTypeFromI32 push.targetCore) with
      | none => exact hstay _ (Or.inl rfl)
      | some s₁ =>
        obtain ⟨hprocesses, hsnapshots⟩ := AgentState.ensureManager_eq_some hmanager
        simp only
        generalize hcall : (if push.restartRequired = true then
            CoreManager.restart o config (s₁.processes (coreTypeFromI32 push.targetCore))
          else CoreManager.reload o (coreTypeFromI32 push.targetCore) config
            (s₁.processes (coreTypeFromI32 push.targetCore))) = call
        have hcases : call = (s₁.processes (coreTypeFromI32 push.targetCore), false) ∨
            call = (none, false) ∨ call = (some config, true) ∨ call = (none, true) := by
          rw [← hcall]
          split
          · rcases CoreManager.restart_cases o config _ with h | h | h
            · exact Or.inl h
            · exact Or.inr (Or.inl h)
            · exact Or.inr (Or.inr (Or.inl h))
          · exact CoreManager.reload_cases o _ config _
        have hother : ∀ process core, core ≠ coreTypeFromI32 push.targetCore →
            (s₁.setProcess (coreTypeFromI32 push.targetCore) process).processes core =
              s.processes core := by
          intro process core hne
          rw [← hprocesses]
          exact Function.update_of_ne hne _ _
        have hself : ∀ process, (s₁.setProcess (coreTypeFromI32 push.targetCore)
            process).processes (coreTypeFromI32 push.targetCore) = process :=
          fun process => Function.update_self ..
        rcases hcases with rfl | rfl | rfl | rfl
        · exact ⟨hother _, fun _ _ => by rw [← hsnapshots]; rfl, hsnapshots,
            Or.inl (by rw [← hprocesses]; exact hself _)⟩
        · exact ⟨hother _, fun _ _ => by rw [← hsnapshots]; rfl, hsnapshots, Or.inr (hself _)⟩
        · cases o.saveOk with
          | true =>
            refine ⟨hother _, fun core hne => ?_, config, hparse, Or.inl (hself _), ?_⟩
            · rw [← hsnapshots]
              exact Function.update_of_ne hne _ _
            · exact AgentState.snapshots_saveLastConfig ..
          | false =>
            exact ⟨hother _, fun _ _ => by rw [← hsnapshots]; rfl, config, hparse,
              Or.inl (hself _), hsnapshots⟩
        · cases o.saveOk with
          | true =>
            refine ⟨hother _, fun core hne => ?_, config, hparse, Or.inr (hself _), ?_⟩
            · rw [← hsnapshots]
              exact Function.update_of_ne hne _ _
            · exact AgentState.snapshots_saveLastConfig ..
          | false =>
            exact ⟨hother _, fun _ _ => by rw [← hsnapshots]; rfl, config, hparse,
              Or.inr (hself _), hsnapshots⟩

/-! ### Runs -/

inductive Action where
  | push (o : Outcomes) (push : ConfigPush)
  | reload (o : Outcomes) (reload : ConfigReload)
  | command (o : Outcomes) (cmd : CoreCommand)
  | restartAgent (discovered : CoreType → Bool) (outcomes : CoreType → Outcomes)

/-- The agent, and for each core whether its process was disturbed since the
snapshot was written: it does not run, or with another configuration.  The code
does not keep that. -/
structure Tracked where
  agent : AgentState
  disturbed : CoreType → Bool

/-- A process that goes is a disturbance. -/
def stopped (process process' : Option Json) : Bool := process.isSome && process'.isNone

/-- A push that is applied and saved ends a disturbance, if the process runs. -/
def disturbedByPush (before : Bool) (process process' : Option Json) : PushResult → Bool
  | .skipped => before
  | .failed => before || stopped process process'
  | .applied true => process'.isNone
  | .applied false => true

def Tracked.push (parse : String → Option Json) (o : Outcomes) (push : ConfigPush) (t : Tracked) :
    Tracked :=
  let core := coreTypeFromI32 push.targetCore
  let (agent, result) := handleConfigPush parse o push t.agent
  ⟨agent, Function.update t.disturbed core (disturbedByPush (t.disturbed core)
    (t.agent.processes core) (agent.processes core) result)⟩

/-- A stop and a restart with the minimal configuration disturb a running process. -/
def Tracked.command (o : Outcomes) (cmd : CoreCommand) (t : Tracked) : Tracked :=
  let agent := handleCoreCommand o cmd t.agent
  match cmd with
  | .start _ => ⟨agent, t.disturbed⟩
  | .stop coreType =>
    let core := coreTypeFromI32 coreType
    ⟨agent, Function.update t.disturbed core
      (t.disturbed core || stopped (t.agent.processes core) (agent.processes core))⟩
  | .restart coreType =>
    let core := coreTypeFromI32 coreType
    ⟨agent, Function.update t.disturbed core
      (t.disturbed core || (t.agent.managers core || o.installOk) && o.stopOk)⟩

/-- After a restart of the agent only restored processes are undisturbed. -/
def Tracked.restartAgent (discovered : CoreType → Bool) (outcomes : CoreType → Outcomes)
    (t : Tracked) : Tracked :=
  let agent := Agent.restartAgent discovered outcomes t.agent
  ⟨agent, fun core => (agent.processes core).isNone⟩

def step (parse : String → Option Json) (t : Tracked) : Action → Option Tracked
  | .push o push => some (t.push parse o push)
  | .reload o reload => some (t.push parse o reload.toPush)
  | .command o cmd => some (t.command o cmd)
  | .restartAgent discovered outcomes => some (t.restartAgent discovered outcomes)

/-- **When a skip can be trusted.**  A push that would be skipped meets an
undisturbed process and carries the configuration of the snapshot. -/
def Trusted (parse : String → Option Json) (t : Tracked) (push : ConfigPush) : Prop :=
  alreadyApplied t.agent push = true → ∀ config, parse push.configJson = some config →
    t.disturbed (coreTypeFromI32 push.targetCore) = false ∧
      (t.agent.snapshots (coreTypeFromI32 push.targetCore)).map (·.config) = some config

/-- An undisturbed process runs with the configuration of the snapshot. -/
def Inv (t : Tracked) : Prop := ∀ core, t.disturbed core = false → ∀ snapshot,
  t.agent.snapshots core = some snapshot → t.agent.processes core = some snapshot.config

/-- What a push keeps of the invariant for its own core. -/
theorem inv_of_effect {t : Tracked} (hi : Inv t) {parse : String → Option Json} {push : ConfigPush}
    {s' : AgentState} {result : PushResult} (heffect : PushEffect parse push t.agent s' result)
    (hdisturbed : disturbedByPush (t.disturbed (coreTypeFromI32 push.targetCore))
      (t.agent.processes (coreTypeFromI32 push.targetCore))
      (s'.processes (coreTypeFromI32 push.targetCore)) result = false)
    {snapshot : PersistedConfig}
    (hsnapshot : s'.snapshots (coreTypeFromI32 push.targetCore) = some snapshot) :
    s'.processes (coreTypeFromI32 push.targetCore) = some snapshot.config := by
  have h := heffect.effect
  cases result with
  | skipped =>
    obtain ⟨rfl, -⟩ := h
    exact hi _ hdisturbed snapshot hsnapshot
  | failed =>
    obtain ⟨hsnapshots, hprocess⟩ := h
    obtain ⟨hbefore, hstopped⟩ := Bool.or_eq_false_iff.mp hdisturbed
    rw [hsnapshots] at hsnapshot
    have hrunning := hi _ hbefore snapshot hsnapshot
    rcases hprocess with hsame | hnone
    · rw [hsame, hrunning]
    · rw [hrunning, hnone] at hstopped
      cases hstopped
  | applied saved =>
    obtain ⟨config, -, hprocess, hsaved⟩ := h
    cases saved with
    | false => cases hdisturbed
    | true =>
      rcases hprocess with hrunning | hnone
      · rw [if_pos rfl, hsnapshot] at hsaved
        cases hsaved
        exact hrunning
      · rw [hnone] at hdisturbed
        cases hdisturbed

theorem Inv.push {t : Tracked} (hi : Inv t) (parse : String → Option Json) (o : Outcomes)
    (push : ConfigPush) : Inv (t.push parse o push) := by
  have heffect := handleConfigPush_effect parse o push t.agent
  intro core hdisturbed snapshot hsnapshot
  by_cases hcore : core = coreTypeFromI32 push.targetCore
  · subst hcore
    exact inv_of_effect hi heffect ((Function.update_self ..).symm.trans hdisturbed) hsnapshot
  · rw [show (t.push parse o push).disturbed core = t.disturbed core from
      Function.update_of_ne hcore _ _] at hdisturbed
    rw [show (t.push parse o push).agent.processes core = _ from heffect.process_of_ne core hcore]
    exact hi core hdisturbed snapshot ((heffect.snapshot_of_ne core hcore).symm.trans hsnapshot)

theorem setProcess_of_ne (s : AgentState) {core core' : CoreType} (h : core' ≠ core)
    (process : Option Json) : (s.setProcess core process).processes core' = s.processes core' :=
  Function.update_of_ne h _ _

theorem setProcess_self (s : AgentState) (core : CoreType) (process : Option Json) :
    (s.setProcess core process).processes core = process := Function.update_self ..

theorem snapshots_handleCoreCommand (o : Outcomes) (cmd : CoreCommand) (s : AgentState) :
    (handleCoreCommand o cmd s).snapshots = s.snapshots := by
  cases cmd with
  | start coreType =>
    simp only [handleCoreCommand]
    split
    · rfl
    · rename_i s' hmanager
      have hsnapshots := (AgentState.ensureManager_eq_some hmanager).2
      split
      · exact hsnapshots
      · exact hsnapshots
  | stop coreType =>
    simp only [handleCoreCommand]
    split <;> rfl
  | restart coreType =>
    simp only [handleCoreCommand]
    split
    · rfl
    · rename_i s' hmanager
      exact (AgentState.ensureManager_eq_some hmanager).2

/-- A start touches no process that runs. -/
theorem processes_start (o : Outcomes) (coreType : Int) (s : AgentState) {core : CoreType}
    {config : Json} (h : s.processes core = some config) :
    (handleCoreCommand o (.start coreType) s).processes core = some config := by
  simp only [handleCoreCommand]
  split
  · exact h
  · rename_i s' hmanager
    obtain ⟨hprocesses, -⟩ := AgentState.ensureManager_eq_some hmanager
    rw [← hprocesses] at h
    split
    · exact h
    · rename_i hstopped
      have hne : core ≠ coreTypeFromI32 coreType := by
        rintro rfl
        rw [h] at hstopped
        exact hstopped rfl
      rw [setProcess_of_ne _ hne]
      exact h

theorem processes_stop (o : Outcomes) (coreType : Int) (s : AgentState) (core : CoreType) :
    (handleCoreCommand o (.stop coreType) s).processes core = s.processes core ∨
      core = coreTypeFromI32 coreType ∧
        (handleCoreCommand o (.stop coreType) s).processes core = none := by
  simp only [handleCoreCommand]
  split
  · by_cases hcore : core = coreTypeFromI32 coreType
    · subst hcore
      rw [setProcess_self, CoreManager.stop]
      split
      · exact Or.inr ⟨rfl, rfl⟩
      · exact Or.inl rfl
    · exact Or.inl (setProcess_of_ne _ hcore _)
  · exact Or.inl rfl

/-- A restart that gets to stop the process is a disturbance. -/
theorem processes_restart (o : Outcomes) (coreType : Int) (s : AgentState) (core : CoreType)
    (h : core = coreTypeFromI32 coreType → ((s.managers core || o.installOk) && o.stopOk) = false) :
    (handleCoreCommand o (.restart coreType) s).processes core = s.processes core := by
  simp only [handleCoreCommand]
  split
  · rfl
  · rename_i s' hmanager
    obtain ⟨hprocesses, -⟩ := AgentState.ensureManager_eq_some hmanager
    by_cases hcore : core = coreTypeFromI32 coreType
    · have hoff := h hcore
      subst hcore
      have hmanaged : (s.managers (coreTypeFromI32 coreType) || o.installOk) = true := by
        rw [AgentState.ensureManager] at hmanager
        cases hm : s.managers (coreTypeFromI32 coreType) with
        | true => rfl
        | false =>
          cases hinstall : o.installOk with
          | true => rfl
          | false => simp [hm, hinstall] at hmanager
      rw [hmanaged, Bool.true_and] at hoff
      rw [setProcess_self, CoreManager.restart, CoreManager.stop, hoff, hprocesses]
      rfl
    · rw [setProcess_of_ne _ hcore, hprocesses]

theorem Inv.command {t : Tracked} (hi : Inv t) (o : Outcomes) (cmd : CoreCommand) :
    Inv (t.command o cmd) := by
  intro core hdisturbed snapshot hsnapshot
  cases cmd with
  | start coreType =>
    have hsnapshot' : t.agent.snapshots core = some snapshot := by
      rw [← snapshots_handleCoreCommand o (.start coreType)]
      exact hsnapshot
    exact processes_start o coreType t.agent (hi core hdisturbed snapshot hsnapshot')
  | stop coreType =>
    have hsnapshot' : t.agent.snapshots core = some snapshot := by
      rw [← snapshots_handleCoreCommand o (.stop coreType)]
      exact hsnapshot
    change (handleCoreCommand o (.stop coreType) t.agent).processes core = some snapshot.config
    by_cases hcore : core = coreTypeFromI32 coreType
    · subst hcore
      rw [show (t.command o (.stop coreType)).disturbed _ = _ from Function.update_self ..]
        at hdisturbed
      obtain ⟨hbefore, hstopped⟩ := Bool.or_eq_false_iff.mp hdisturbed
      have hrunning := hi _ hbefore snapshot hsnapshot'
      rcases processes_stop o coreType t.agent (coreTypeFromI32 coreType) with hsame | ⟨-, hnone⟩
      · rw [hsame, hrunning]
      · rw [hrunning, hnone] at hstopped
        cases hstopped
    · rw [show (t.command o (.stop coreType)).disturbed core = t.disturbed core from
        Function.update_of_ne hcore _ _] at hdisturbed
      rcases processes_stop o coreType t.agent core with hsame | ⟨heq, -⟩
      · rw [hsame]
        exact hi core hdisturbed snapshot hsnapshot'
      · exact absurd heq hcore
  | restart coreType =>
    have hsnapshot' : t.agent.snapshots core = some snapshot := by
      rw [← snapshots_handleCoreCommand o (.restart coreType)]
      exact hsnapshot
    change (handleCoreCommand o (.restart coreType) t.agent).processes core = some snapshot.config
    by_cases hcore : core = coreTypeFromI32 coreType
    · subst hcore
      rw [show (t.command o (.restart coreType)).disturbed _ = _ from Function.update_self ..]
        at hdisturbed
      obtain ⟨hbefore, hkept⟩ := Bool.or_eq_false_iff.mp hdisturbed
      rw [processes_restart o coreType t.agent _ (fun _ => hkept)]
      exact hi _ hbefore snapshot hsnapshot'
    · rw [show (t.command o (.restart coreType)).disturbed core = t.disturbed core from
        Function.update_of_ne hcore _ _] at hdisturbed
      rw [processes_restart o coreType t.agent core (fun heq => absurd heq hcore)]
      exact hi core hdisturbed snapshot hsnapshot'

/-- A process that runs after the restoration of a core runs with its snapshot, or
it ran before. -/
theorem restoreCore_effect (o : Outcomes) (core : CoreType) (s : AgentState) :
    (restoreCore o core s).snapshots = s.snapshots ∧
      ∀ core', (restoreCore o core s).processes core' = s.processes core' ∨
        (restoreCore o core s).processes core' = (s.snapshots core').map (·.config) := by
  rw [restoreCore]
  cases hsnapshot : s.snapshots core with
  | none => exact ⟨rfl, fun _ => Or.inl rfl⟩
  | some snapshot =>
    simp only
    cases hmanager : s.ensureManager o core with
    | none => exact ⟨rfl, fun _ => Or.inl rfl⟩
    | some s' =>
      obtain ⟨hprocesses, hsnapshots⟩ := AgentState.ensureManager_eq_some hmanager
      simp only
      split
      · exact ⟨hsnapshots, fun core' => Or.inl (by rw [hprocesses])⟩
      · rename_i hstopped
        refine ⟨hsnapshots, fun core' => ?_⟩
        by_cases hcore : core' = core
        · subst hcore
          have hnone : s'.processes core' = none := by simpa using hstopped
          rw [setProcess_self, hsnapshot, hnone, CoreManager.start]
          cases o.startOk with
          | true => exact Or.inr rfl
          | false => exact Or.inl (by rw [← hprocesses, hnone]; rfl)
        · exact Or.inl (by rw [setProcess_of_ne _ hcore, hprocesses])

theorem inv_restartAgent (t : Tracked) (discovered : CoreType → Bool)
    (outcomes : CoreType → Outcomes) : Inv (t.restartAgent discovered outcomes) := by
  intro core hdisturbed snapshot hsnapshot
  have hfirst := restoreCore_effect (outcomes .singBox) .singBox
    { t.agent with managers := discovered, processes := fun _ => none }
  have hsecond := restoreCore_effect (outcomes .mihomo) .mihomo (restoreCore (outcomes .singBox)
    .singBox { t.agent with managers := discovered, processes := fun _ => none })
  have hrunning : ((t.restartAgent discovered outcomes).agent.processes core).isNone = false :=
    hdisturbed
  have hsnapshots : (t.restartAgent discovered outcomes).agent.snapshots = t.agent.snapshots :=
    hsecond.1.trans hfirst.1
  have hprocess : (t.restartAgent discovered outcomes).agent.processes core = none ∨
      (t.restartAgent discovered outcomes).agent.processes core =
        (t.agent.snapshots core).map (·.config) := by
    rcases hsecond.2 core with hsame | hrestored
    · rcases hfirst.2 core with hnone | hrestored
      · exact Or.inl (hsame.trans hnone)
      · exact Or.inr (hsame.trans hrestored)
    · rw [hfirst.1] at hrestored
      exact Or.inr hrestored
  rcases hprocess with hnone | hrestored
  · rw [hnone] at hrunning
    cases hrunning
  · rw [hrestored, ← hsnapshots, hsnapshot]
    rfl

theorem Inv.step {parse : String → Option Json} {t t' : Tracked} {a : Action} (hi : Inv t)
    (h : step parse t a = some t') : Inv t' := by
  cases a with
  | push o push => cases h; exact hi.push parse o push
  | reload o reload => cases h; exact hi.push parse o reload.toPush
  | command o cmd => cases h; exact hi.command o cmd
  | restartAgent discovered outcomes => cases h; exact inv_restartAgent t discovered outcomes

/-- An agent with an empty `data_dir`, before its first message. -/
structure Initial (t : Tracked) : Prop where
  snapshots : ∀ core, t.agent.snapshots core = none
  processes : ∀ core, t.agent.processes core = none

/-- A push that is skipped finds the process of its core running with its configuration. -/
def SkipSound (parse : String → Option Json) (t : Tracked) (push : ConfigPush) : Prop :=
  ∀ o, (handleConfigPush parse o push t.agent).2 = .skipped → ∃ config,
    parse push.configJson = some config ∧
      t.agent.processes (coreTypeFromI32 push.targetCore) = some config

/-- **Skips of the agent.**  In every run, a trusted push that is skipped finds its
own configuration running. -/
theorem skip_sound {parse : String → Option Json} {t t' : Tracked} {as : List Action}
    (hinit : Initial t) (hrun : Run.run (step parse) t as = some t') :
    ∀ push, Trusted parse t' push → SkipSound parse t' push := by
  have hi : Inv t' := by
    refine Run.inv_of_run (fun t a t' hi h => hi.step h) (fun core _ snapshot hsnapshot => ?_) hrun
    rw [hinit.snapshots core] at hsnapshot
    cases hsnapshot
  intro push htrusted o hskipped
  have heffect := (handleConfigPush_effect parse o push t'.agent).effect
  rw [hskipped] at heffect
  obtain ⟨-, happlied, hparse⟩ := heffect
  obtain ⟨config, hconfig⟩ := Option.isSome_iff_exists.mp hparse
  obtain ⟨hundisturbed, hsnapshot⟩ := htrusted happlied config hconfig
  obtain ⟨snapshot, hstored, rfl⟩ := Option.map_eq_some_iff.mp hsnapshot
  exact ⟨snapshot.config, hconfig, hi _ hundisturbed snapshot hstored⟩

/-! ### A stop between two pushes -/

namespace StoppedCore

/-- The agent with sing-box installed and nothing applied. -/
def initial : Tracked where
  agent := ⟨fun core => core = .singBox, fun _ => none, fun _ => none⟩
  disturbed _ := false

def parse (text : String) : Option Json := if text = "{}" then some (Json.mkObj []) else none

def outcomes : Outcomes := ⟨true, true, true, true, true⟩

def firstPush : ConfigPush := ⟨"{}", 2, true, "v1", "", ""⟩

/-- The same configuration, pushed by the scheduler. -/
def secondPush : ConfigPush := { firstPush with restartRequired := false }

theorem initial_initial : Initial initial := ⟨fun _ => rfl, fun _ => rfl⟩

def applied : Tracked := initial.push parse outcomes firstPush

theorem run_applied : Run.run (step parse) initial [.push outcomes firstPush] = some applied := rfl

theorem parse_secondPush : parse secondPush.configJson = some (Json.mkObj []) := rfl

end StoppedCore

/-- **A stopped core stays down:** the push that would bring it back is skipped. -/
theorem stopped_core_skipped : ∃ t, Run.run (step StoppedCore.parse) StoppedCore.initial
      [.push StoppedCore.outcomes StoppedCore.firstPush,
        .command StoppedCore.outcomes (.stop 2)] = some t ∧
    Initial StoppedCore.initial ∧ ¬ SkipSound StoppedCore.parse t StoppedCore.secondPush := by
  refine ⟨_, rfl, StoppedCore.initial_initial, fun h => ?_⟩
  obtain ⟨config, -, hprocess⟩ := h StoppedCore.outcomes (by decide)
  cases hprocess

theorem skip_sound_applied :
    (handleConfigPush StoppedCore.parse StoppedCore.outcomes StoppedCore.secondPush
      StoppedCore.applied.agent).2 = .skipped ∧
    SkipSound StoppedCore.parse StoppedCore.applied StoppedCore.secondPush := by
  have htrusted : Trusted StoppedCore.parse StoppedCore.applied StoppedCore.secondPush := by
    intro _ config hconfig
    cases StoppedCore.parse_secondPush.symm.trans hconfig
    exact ⟨rfl, rfl⟩
  exact ⟨by decide, skip_sound StoppedCore.initial_initial StoppedCore.run_applied _ htrusted⟩

end Agent

end ProxyPanel
