import ProxyPanel.Agent.Skip
import ProxyPanel.Lib.Text

/-!
# Binaries and builds

A finer model of the agent: beside the configuration of a process it keeps the file the
process was executed from, beside the manager the binary in `bin_dir` and the marker
`.build_id.<core>` that says which build the binary is.  `agent_handleConfigPush`
is the way back to `Agent.Client`.

`ensure_core_build` replaces the file under a running process and leaves it to the call
that follows to execute the new one.  A restart does, `sing-box reload` does not
(`reload_keeps_old_binary`).
-/

namespace ProxyPanel.Agent.Upgrade

open Json

/-! ### Files and processes -/

/-- A file in `bin_dir`.  `inode` tells downloads apart, `installedFor` is the version and
build it was downloaded for, `none` when the version was looked up and for what an
installation that failed has left. -/
structure BinaryFile where
  inode : Nat
  installedFor : Option String
  deriving DecidableEq, Repr

structure Process where
  config : Json
  executable : BinaryFile

/-- What the agent has of one core. -/
structure Core where
  registered : Bool
  binary : Option BinaryFile
  marker : Option String
  process : Option Process
  snapshot : Option PersistedConfig

/-- How the calls for one core end.  With `remnantLeft` an installation that fails leaves a
file at the path of the core. -/
structure FileOutcomes extends Outcomes where
  remnantLeft : Bool

/-- How the file operations of an upgrade end.  `markerLeft` is the marker after a write
that failed. -/
structure BuildOutcomes extends FileOutcomes where
  markerReadOk : Bool
  backupOk : Bool
  downloadOk : Bool
  restoreOk : Bool
  markerWriteOk : Bool
  markerLeft : Option String

def start (o : Outcomes) (binary : Option BinaryFile) (config : Json) (process : Option Process) :
    Option Process × Bool :=
  match binary, process with
  | none, process => (process, false)
  | some _, some running => (some running, false)
  | some file, none => if o.startOk then (some ⟨config, file⟩, true) else (none, false)

def stop (o : Outcomes) (process : Option Process) : Option Process × Bool :=
  if o.stopOk then (none, true) else (process, false)

def restart (o : Outcomes) (binary : Option BinaryFile) (config : Json) (process : Option Process) :
    Option Process × Bool :=
  let (process, stopped) := stop o process
  if stopped then start o binary config process else (process, false)

/-- `sing-box reload` runs the binary to tell the process to read its file again; the
process stays the one it was. -/
def reload (o : Outcomes) (core : CoreType) (binary : Option BinaryFile) (config : Json)
    (process : Option Process) : Option Process × Bool :=
  match core with
  | .singBox =>
    if o.reloadOk && binary.isSome then (process.map fun p => { p with config }, true)
    else (process, false)
  | .mihomo => restart o binary config process

/-! ### Installing and upgrading -/

/-- What is at the path of a core after an installation that failed. -/
def remnant (o : FileOutcomes) (inode : Nat) : Option BinaryFile :=
  if o.remnantLeft then some ⟨inode, none⟩ else none

/-- The core, and whether it has a manager.  A binary that is missing is downloaded. -/
def ensureManager (o : FileOutcomes) (inode : Nat) (installedFor : Option String) (c : Core) :
    Core × Bool :=
  if c.registered then (c, true)
  else match c.binary with
  | some _ => ({ c with registered := true }, true)
  | none =>
    if o.installOk then ({ c with registered := true, binary := some ⟨inode, installedFor⟩ }, true)
    else ({ c with binary := remnant o inode }, false)

/-- The text of the marker of a build. -/
def buildName (version buildId : String) : String := version ++ "|" ++ buildId

/-- The build a push asks for, if it names a version or a build. -/
def pushedBuild (push : ConfigPush) : Option String :=
  if push.coreBuildId = "" ∧ push.coreVersion = "" then none
  else some (buildName push.coreVersion push.coreBuildId)

/-- The marker as `ensure_core_build` reads it. -/
def currentBuild (o : BuildOutcomes) (c : Core) : String :=
  Text.trim (if o.markerReadOk then c.marker.getD "" else "")

/-- The upgrade to a build.  Its errors are logged and go no further: a backup that fails
ends it, a download that fails brings the old file back. -/
def ensureCoreBuild (o : BuildOutcomes) (inode : Nat) (expected : String) (c : Core) : Core :=
  if currentBuild o c = expected then c
  else
    let downloaded := { c with
      binary := some ⟨inode, some expected⟩
      marker := if o.markerWriteOk then some expected else o.markerLeft }
    let left := remnant o.toFileOutcomes inode
    match c.binary with
    | none => if o.downloadOk then downloaded else { c with binary := left }
    | some old =>
      if !o.backupOk then c
      else if o.downloadOk then downloaded
      else { c with binary := if o.restoreOk then some old else left }

/-! ### Handlers -/

structure NodeState where
  cores : CoreType → Core
  nextInode : Nat

def NodeState.setCore (s : NodeState) (core : CoreType) (c : Core) : NodeState :=
  ⟨Function.update s.cores core c, s.nextInode + 2⟩

/-- The agent without its files. -/
def NodeState.agent (s : NodeState) : AgentState where
  managers := fun core => (s.cores core).registered
  processes := fun core => (s.cores core).process.map (·.config)
  snapshots := fun core => (s.cores core).snapshot

/-- The upgrade to the build of a push, if it names one. -/
def upgradeBinary (o : BuildOutcomes) (inode : Nat) (push : ConfigPush) (c : Core) : Core :=
  match pushedBuild push with
  | some expected => ensureCoreBuild o inode expected c
  | none => c

/-- The binary of a push: installed on demand and brought to its build. -/
def prepareBinary (o : BuildOutcomes) (inode : Nat) (push : ConfigPush) (c : Core) : Core × Bool :=
  match ensureManager o.toFileOutcomes inode (pushedBuild push) c with
  | (c, false) => (c, false)
  | (c, true) => (upgradeBinary o (inode + 1) push c, true)

/-- A push for a core whose manager is there. -/
def applyConfig (o : BuildOutcomes) (core : CoreType) (push : ConfigPush) (config : Json) (c : Core) :
    Core × PushResult :=
  let (process, ok) := if push.restartRequired then
      restart o.toOutcomes c.binary config c.process
    else reload o.toOutcomes core c.binary config c.process
  if !ok then ({ c with process }, .failed)
  else if o.saveOk then
    ({ c with process, snapshot := some ⟨core.toStr, config, push.configVersion⟩ }, .applied true)
  else ({ c with process }, .applied false)

def handleConfigPush (parse : String → Option Json) (o : BuildOutcomes) (push : ConfigPush)
    (s : NodeState) : NodeState × PushResult :=
  let core := coreTypeFromI32 push.targetCore
  match parse push.configJson with
  | none => (s, .failed)
  | some config =>
    if alreadyApplied s.agent push then (s, .skipped)
    else match prepareBinary o s.nextInode push (s.cores core) with
    | (c, false) => (s.setCore core c, .failed)
    | (c, true) =>
      let (c, result) := applyConfig o core push config c
      (s.setCore core c, result)

/-- A command for one core. -/
def commandCore (o : FileOutcomes) (inode : Nat) (core : CoreType) (cmd : CoreCommand) (c : Core) :
    Core :=
  match cmd with
  | .start _ =>
    match ensureManager o inode none c with
    | (c, false) => c
    | (c, true) =>
      if c.process.isSome then c
      else
        { c with process := (start o.toOutcomes c.binary (minimalConfigForCore core) c.process).1 }
  | .stop _ => if c.registered then { c with process := (stop o.toOutcomes c.process).1 } else c
  | .restart _ =>
    match ensureManager o inode none c with
    | (c, false) => c
    | (c, true) =>
      { c with process := (restart o.toOutcomes c.binary (minimalConfigForCore core) c.process).1 }

/-- The core a command is for. -/
def commandTarget : CoreCommand → CoreType
  | .start coreType | .stop coreType | .restart coreType => coreTypeFromI32 coreType

def handleCoreCommand (o : FileOutcomes) (cmd : CoreCommand) (s : NodeState) : NodeState :=
  let core := commandTarget cmd
  s.setCore core (commandCore o s.nextInode core cmd (s.cores core))

/-- One core is brought back with its snapshot. -/
def restoreCore (o : FileOutcomes) (inode : Nat) (c : Core) : Core :=
  match c.snapshot with
  | none => c
  | some snapshot =>
    match ensureManager o inode none c with
    | (c, false) => c
    | (c, true) =>
      if c.process.isSome then c
      else { c with process := (start o.toOutcomes c.binary snapshot.config c.process).1 }

/-- A restart of the agent ends the processes and registers the binaries that are there. -/
def rediscover (c : Core) : Core := { c with registered := c.binary.isSome, process := none }

def restartAgent (outcomes : CoreType → FileOutcomes) (s : NodeState) : NodeState where
  cores := fun core => restoreCore (outcomes core)
    (match core with
      | .singBox => s.nextInode
      | .mihomo => s.nextInode + 1) (rediscover (s.cores core))
  nextInode := s.nextInode + 2

/-- The binary of a core without a manager is deleted; its marker stays. -/
def deleteCoreBinary (core : CoreType) (s : NodeState) : NodeState :=
  if (s.cores core).registered then s else s.setCore core { s.cores core with binary := none }

/-! ### Runs -/

inductive Action where
  | push (o : BuildOutcomes) (push : ConfigPush)
  | reload (o : BuildOutcomes) (reload : ConfigReload)
  | command (o : FileOutcomes) (cmd : CoreCommand)
  | restartAgent (outcomes : CoreType → FileOutcomes)
  | deleteBinary (core : CoreType)
  | exit (core : CoreType)

/-- `exit` is the end of a process by itself. -/
def step (parse : String → Option Json) (s : NodeState) : Action → Option NodeState
  | .push o push => some (handleConfigPush parse o push s).1
  | .reload o reload => some (handleConfigPush parse o reload.toPush s).1
  | .command o cmd => some (handleCoreCommand o cmd s)
  | .restartAgent outcomes => some (restartAgent outcomes s)
  | .deleteBinary core => some (deleteCoreBinary core s)
  | .exit core => some (s.setCore core { s.cores core with process := none })

/-- An agent that never wrote a marker and runs no core. -/
def Fresh (s : NodeState) : Prop := ∀ core, (s.cores core).marker = none ∧ (s.cores core).process = none

/-- A push replaces the binary: it names another build than the marker, and the file
operations up to the download succeed. -/
def Upgrades (o : BuildOutcomes) (push : ConfigPush) (c : Core) : Prop :=
  (∃ expected, pushedBuild push = some expected ∧ currentBuild o c ≠ expected) ∧
    o.downloadOk = true ∧ (o.backupOk = true ∨ c.registered = true ∧ c.binary = none)

/-- The upgrade of a push fails and what it has left stays at the path of the core. -/
def LeavesRemnant (o : BuildOutcomes) (push : ConfigPush) (c : Core) : Prop :=
  (∃ expected, pushedBuild push = some expected ∧ currentBuild o c ≠ expected) ∧
    o.downloadOk = false ∧ o.remnantLeft = true ∧
    (o.backupOk = true ∧ o.restoreOk = false ∨ c.registered = true ∧ c.binary = none)

/-- An installation on demand puts no file beside a wrong marker: none is there, or it is the
marker of the file; what a failed one leaves has none. -/
def Unmarked (o : FileOutcomes) (installedFor : Option String) (c : Core) : Prop :=
  c.registered = false → c.binary = none →
    if o.installOk = true then c.marker = none ∨ c.marker = installedFor
    else o.remnantLeft = true → c.marker = none

/-- **When a push executes what it installs.**  A core is installed on demand without a
marker of another build, or the upgrade that follows writes the right one; an upgrade
writes its marker or leaves none; an upgrade that fails leaves a file beside no marker; and
a sing-box that is reloaded was executed from the binary that is there, which the push does
not replace. -/
structure PushAllowed (o : BuildOutcomes) (core : CoreType) (push : ConfigPush) (c : Core) : Prop where
  installed : Unmarked o.toFileOutcomes (pushedBuild push) c ∨
    o.installOk = true ∧ Upgrades o push c ∧ o.markerWriteOk = true
  marked : Upgrades o push c → o.markerWriteOk = true ∨ o.markerLeft = none
  left : LeavesRemnant o push c → c.marker = none
  executed : core = .singBox → push.restartRequired = false → ∀ p, c.process = some p →
    c.binary = some p.executable ∧ ¬ Upgrades o push c

/-- The condition on a step. -/
def Allowed (s : NodeState) : Action → Prop
  | .push o push =>
    PushAllowed o (coreTypeFromI32 push.targetCore) push (s.cores (coreTypeFromI32 push.targetCore))
  | .reload o reload => PushAllowed o (coreTypeFromI32 reload.targetCore) reload.toPush
      (s.cores (coreTypeFromI32 reload.targetCore))
  | .command o cmd => Unmarked o none (s.cores (commandTarget cmd))
  | .restartAgent outcomes => ∀ core, Unmarked (outcomes core) none (rediscover (s.cores core))
  | .deleteBinary _ | .exit _ => True

/-! ### The way back to the coarser model -/

/-- What the coarser model sees of the calls: without a binary nothing is started or told
to reload. -/
def Outcomes.given (o : Outcomes) (before after : Option BinaryFile) : Outcomes :=
  { o with
    installOk := before.isSome || o.installOk
    startOk := after.isSome && o.startOk
    reloadOk := o.reloadOk && after.isSome }

theorem map_restart (o : Outcomes) (before binary : Option BinaryFile) (config : Json)
    (process : Option Process) :
    CoreManager.restart (Outcomes.given o before binary) config (process.map (·.config)) =
      ((restart o binary config process).1.map (·.config), (restart o binary config process).2) := by
  obtain ⟨installOk, startOk, stopOk, reloadOk, saveOk⟩ := o
  cases stopOk with
  | false => rfl
  | true =>
    cases binary with
    | none => rfl
    | some file => cases startOk <;> rfl

theorem map_reload (o : Outcomes) (core : CoreType) (before binary : Option BinaryFile)
    (config : Json) (process : Option Process) :
    CoreManager.reload (Outcomes.given o before binary) core config (process.map (·.config)) =
      ((reload o core binary config process).1.map (·.config),
        (reload o core binary config process).2) := by
  cases core with
  | mihomo => exact map_restart o before binary config process
  | singBox =>
    obtain ⟨installOk, startOk, stopOk, reloadOk, saveOk⟩ := o
    cases reloadOk with
    | false => rfl
    | true =>
      cases binary with
      | none => rfl
      | some file => cases process <;> rfl

/-- A restart or reload of either model. -/
theorem map_call (o : Outcomes) (core : CoreType) (restartRequired : Bool)
    (before binary : Option BinaryFile) (config : Json) (process : Option Process) :
    (if restartRequired = true then
        CoreManager.restart (Outcomes.given o before binary) config (process.map (·.config))
      else CoreManager.reload (Outcomes.given o before binary) core config
        (process.map (·.config))) =
      let call := if restartRequired = true then restart o binary config process
        else reload o core binary config process
      (call.1.map (·.config), call.2) := by
  cases restartRequired with
  | true => exact map_restart o before binary config process
  | false => exact map_reload o core before binary config process

/-- A core that is registered, there or can be installed gets a manager. -/
theorem ensureManager_given {s : NodeState} {core : CoreType} {o : Outcomes}
    (after : Option BinaryFile)
    (h : (s.cores core).registered = true ∨ (s.cores core).binary.isSome = true ∨
      o.installOk = true) :
    s.agent.ensureManager (Outcomes.given o (s.cores core).binary after) core =
      some (s.agent.setManager core) := by
  rw [AgentState.ensureManager]
  by_cases hm : s.agent.managers core = true
  · rw [if_pos hm, AgentState.setManager, ← hm, Function.update_eq_self]
  · rw [if_neg hm]
    refine if_pos ?_
    rcases h with h | h | h
    · exact absurd h hm
    · simp only [Outcomes.given, h, Bool.true_or]
    · simp only [Outcomes.given, h, Bool.or_true]

/-- A manager that is ensured was there, found its binary or installed it. -/
theorem ensureManager_eq_true {o : FileOutcomes} {inode : Nat} {installedFor : Option String}
    {c c' : Core} (h : ensureManager o inode installedFor c = (c', true)) :
    (c.registered = true ∧ c' = c) ∨
      (∃ file, c.binary = some file ∧ c' = { c with registered := true }) ∨
      (c.registered = false ∧ c.binary = none ∧ o.installOk = true ∧
        c' = { c with registered := true, binary := some ⟨inode, installedFor⟩ }) := by
  rw [ensureManager] at h
  split at h
  · rename_i hregistered
    cases h
    exact Or.inl ⟨hregistered, rfl⟩
  · rename_i hregistered
    split at h
    · rename_i file hbinary
      cases h
      exact Or.inr (Or.inl ⟨file, hbinary, rfl⟩)
    · rename_i hbinary
      split at h
      · rename_i hinstall
        cases h
        exact Or.inr (Or.inr ⟨by simpa using hregistered, hbinary, hinstall, rfl⟩)
      · cases h

/-- Without a manager the installation has failed. -/
theorem ensureManager_eq_false {o : FileOutcomes} {inode : Nat} {installedFor : Option String}
    {c c' : Core} (h : ensureManager o inode installedFor c = (c', false)) :
    c.registered = false ∧ c.binary = none ∧ o.installOk = false ∧
      c' = { c with binary := remnant o inode } := by
  rw [ensureManager] at h
  split at h
  · cases h
  · rename_i hregistered
    split at h
    · cases h
    · rename_i hbinary
      split at h
      · cases h
      · rename_i hinstall
        cases h
        exact ⟨by simpa using hregistered, hbinary, by simpa using hinstall, rfl⟩

theorem ensureCoreBuild_cases (o : BuildOutcomes) (inode : Nat) (expected : String) (c : Core) :
    ensureCoreBuild o inode expected c = c ∨
      (currentBuild o c ≠ expected ∧ o.downloadOk = true ∧ (o.backupOk = true ∨ c.binary = none) ∧
        ensureCoreBuild o inode expected c = { c with
          binary := some ⟨inode, some expected⟩
          marker := if o.markerWriteOk then some expected else o.markerLeft }) ∨
      (currentBuild o c ≠ expected ∧ o.downloadOk = false ∧
        (o.backupOk = true ∧ o.restoreOk = false ∨ c.binary = none) ∧
        ensureCoreBuild o inode expected c = { c with
          binary := remnant o.toFileOutcomes inode }) := by
  rw [ensureCoreBuild]
  split
  · exact Or.inl rfl
  · rename_i hbuild
    dsimp only
    cases hbinary : c.binary with
    | none =>
      simp only
      split
      · rename_i hdownload
        exact Or.inr (Or.inl ⟨hbuild, hdownload, Or.inr trivial, rfl⟩)
      · rename_i hdownload
        exact Or.inr (Or.inr ⟨hbuild, by simpa using hdownload, Or.inr trivial, rfl⟩)
    | some old =>
      simp only
      cases hbackup : o.backupOk with
      | false => exact Or.inl rfl
      | true =>
        simp only [Bool.not_true, Bool.false_eq_true, if_false]
        split
        · rename_i hdownload
          exact Or.inr (Or.inl ⟨hbuild, hdownload, Or.inl trivial, rfl⟩)
        · rename_i hdownload
          cases o.restoreOk with
          | true => exact Or.inl (by rw [if_pos rfl, ← hbinary])
          | false =>
            refine Or.inr (Or.inr ⟨hbuild, by simpa using hdownload, ?_, rfl⟩)
            exact Or.inl ⟨trivial, rfl⟩

/-- A build that is downloaded replaces the file. -/
theorem ensureCoreBuild_of_downloaded {o : BuildOutcomes} {inode : Nat} {expected : String}
    {c : Core} (hbuild : currentBuild o c ≠ expected) (hdownload : o.downloadOk = true)
    (hbackup : o.backupOk = true ∨ c.binary = none) :
    ensureCoreBuild o inode expected c = { c with
      binary := some ⟨inode, some expected⟩
      marker := if o.markerWriteOk then some expected else o.markerLeft } := by
  rw [ensureCoreBuild, if_neg hbuild]
  dsimp only
  cases hbinary : c.binary with
  | none => exact if_pos hdownload
  | some old =>
    have hb : o.backupOk = true := hbackup.resolve_right fun habsent => by
      cases hbinary.symm.trans habsent
    simp only [hb, hdownload, Bool.not_true, Bool.false_eq_true, if_false, if_true]

@[simp] theorem cores_setCore_self (s : NodeState) (core : CoreType) (c : Core) :
    (s.setCore core c).cores core = c := Function.update_self ..

theorem cores_setCore_of_ne (s : NodeState) {core core' : CoreType} (h : core' ≠ core) (c : Core) :
    (s.setCore core c).cores core' = s.cores core' := Function.update_of_ne h _ _

/-- Changing one core changes the coarser agent at that core. -/
theorem agent_setCore (s : NodeState) (core : CoreType) (c : Core) :
    (s.setCore core c).agent = {
      managers := Function.update s.agent.managers core c.registered
      processes := Function.update s.agent.processes core (c.process.map (·.config))
      snapshots := Function.update s.agent.snapshots core c.snapshot } := by
  have hmap : ∀ {β : Type} (f : Core → β), (fun core' => f ((s.setCore core c).cores core')) =
      Function.update (fun core' => f (s.cores core')) core (f c) := by
    intro β f
    funext core'
    by_cases hcore : core' = core
    · subst hcore
      rw [cores_setCore_self, Function.update_self]
    · rw [Function.update_of_ne hcore, cores_setCore_of_ne s hcore]
  exact congr (congr (congrArg AgentState.mk (hmap (·.registered)))
    (hmap fun c => c.process.map (·.config))) (hmap (·.snapshot))

theorem prepareBinary_eq_true {o : BuildOutcomes} {inode : Nat} {push : ConfigPush} {c c' : Core}
    (h : prepareBinary o inode push c = (c', true)) : ∃ c₁,
      ensureManager o.toFileOutcomes inode (pushedBuild push) c = (c₁, true) ∧
        c' = upgradeBinary o (inode + 1) push c₁ := by
  rw [prepareBinary] at h
  split at h
  · cases h
  · rename_i c₁ hmanager
    cases h
    exact ⟨c₁, hmanager, rfl⟩

/-- A binary that cannot be had. -/
theorem prepareBinary_eq_false {o : BuildOutcomes} {inode : Nat} {push : ConfigPush} {c c' : Core}
    (h : prepareBinary o inode push c = (c', false)) :
    ensureManager o.toFileOutcomes inode (pushedBuild push) c = (c', false) := by
  rw [prepareBinary] at h
  split at h
  · rename_i hmanager
    cases h
    exact hmanager
  · cases h

/-- An upgrade changes the files only. -/
theorem upgradeBinary_agent (o : BuildOutcomes) (inode : Nat) (push : ConfigPush) (c : Core) :
    (upgradeBinary o inode push c).registered = c.registered ∧
      (upgradeBinary o inode push c).process = c.process ∧
      (upgradeBinary o inode push c).snapshot = c.snapshot := by
  rw [upgradeBinary]
  split
  · rename_i expected _
    rcases ensureCoreBuild_cases o inode expected c with h | ⟨-, -, -, h⟩ | ⟨-, -, -, h⟩
    · rw [h]
      exact ⟨rfl, rfl, rfl⟩
    · rw [h]
      exact ⟨rfl, rfl, rfl⟩
    · rw [h]
      exact ⟨rfl, rfl, rfl⟩
  · exact ⟨rfl, rfl, rfl⟩

/-- Preparing the binary is installing the manager. -/
theorem prepareBinary_agent {o : BuildOutcomes} {inode : Nat} {push : ConfigPush} {c c' : Core}
    (h : prepareBinary o inode push c = (c', true)) :
    c'.registered = true ∧ c'.process = c.process ∧ c'.snapshot = c.snapshot ∧
      (c.registered = true ∨ c.binary.isSome = true ∨ o.installOk = true) := by
  obtain ⟨c₁, hmanager, rfl⟩ := prepareBinary_eq_true h
  obtain ⟨hregistered, hprocess, hsnapshot⟩ := upgradeBinary_agent o (inode + 1) push c₁
  rw [hregistered, hprocess, hsnapshot]
  rcases ensureManager_eq_true hmanager with
    ⟨hregistered, rfl⟩ | ⟨file, hbinary, rfl⟩ | ⟨-, -, hinstall, rfl⟩
  · exact ⟨hregistered, rfl, rfl, Or.inl hregistered⟩
  · exact ⟨rfl, rfl, rfl, Or.inr (Or.inl (by rw [hbinary]; rfl))⟩
  · exact ⟨rfl, rfl, rfl, Or.inr (Or.inr hinstall)⟩

/-- **A push, seen without files, is a push of the coarser model.** -/
theorem agent_handleConfigPush (parse : String → Option Json) (o : BuildOutcomes) (push : ConfigPush)
    (s : NodeState) : ∃ o', ((handleConfigPush parse o push s).1.agent,
      (handleConfigPush parse o push s).2) = Agent.handleConfigPush parse o' push s.agent := by
  obtain ⟨core, hcore⟩ : ∃ core, coreTypeFromI32 push.targetCore = core := ⟨_, rfl⟩
  rw [handleConfigPush, hcore]
  cases hparse : parse push.configJson with
  | none => exact ⟨o.toOutcomes, by rw [Agent.handleConfigPush, hparse]⟩
  | some config =>
    by_cases happlied : alreadyApplied s.agent push = true
    · refine ⟨o.toOutcomes, ?_⟩
      rw [Agent.handleConfigPush, hparse]
      simp only [happlied, if_true]
    obtain ⟨⟨c, prepared⟩, hprepare⟩ :
        ∃ r, prepareBinary o s.nextInode push (s.cores core) = r := ⟨_, rfl⟩
    cases prepared with
    | false =>
      obtain ⟨hregistered, -, hinstall, rfl⟩ :=
        ensureManager_eq_false (prepareBinary_eq_false hprepare)
      have hmanager : s.agent.ensureManager o.toOutcomes core = none := by
        rw [AgentState.ensureManager, hinstall]
        simp only [show s.agent.managers core = false from hregistered, Bool.false_eq_true, if_false]
      refine ⟨o.toOutcomes, ?_⟩
      rw [Agent.handleConfigPush, hparse, hcore]
      simp only [happlied, Bool.false_eq_true, if_false, hmanager, hprepare]
      -- What an installation has left is no part of the coarser model.
      refine Prod.ext ((agent_setCore ..).trans ?_) rfl
      exact congr (congr (congrArg AgentState.mk (Function.update_eq_self ..))
        (Function.update_eq_self ..)) (Function.update_eq_self ..)
    | true =>
      obtain ⟨hregistered, hprocess, hsnapshot, hreason⟩ := prepareBinary_agent hprepare
      refine ⟨Outcomes.given o.toOutcomes (s.cores core).binary c.binary, ?_⟩
      have hmanager := @ensureManager_given s core o.toOutcomes c.binary hreason
      rw [Agent.handleConfigPush, hparse, hcore]
      simp only [happlied, Bool.false_eq_true, if_false, hmanager, hprepare, applyConfig]
      generalize hcall : (if push.restartRequired = true then
          restart o.toOutcomes c.binary config c.process
        else reload o.toOutcomes core c.binary config c.process) = call
      have hcoarse := map_call o.toOutcomes core push.restartRequired (s.cores core).binary c.binary
        config c.process
      rw [hcall, show c.process.map (·.config) = (s.agent.setManager core).processes core from
        congrArg (Option.map _) hprocess] at hcoarse
      rw [hcoarse]
      obtain ⟨process, ok⟩ := call
      have hsaved : Function.update s.agent.snapshots core c.snapshot = s.agent.snapshots := by
        rw [hsnapshot]
        exact Function.update_eq_self ..
      cases ok with
      | false =>
        refine Prod.ext ((agent_setCore ..).trans ?_) rfl
        exact congr (congr (congrArg AgentState.mk (by rw [hregistered]; rfl)) rfl) hsaved
      | true =>
        cases hsave : o.saveOk with
        | true =>
          have hsave' : (Outcomes.given o.toOutcomes (s.cores core).binary c.binary).saveOk = true :=
            hsave
          simp only [hsave', Bool.not_true, Bool.false_eq_true, if_false, if_true]
          refine Prod.ext ((agent_setCore ..).trans ?_) rfl
          exact congr (congr (congrArg AgentState.mk (by rw [hregistered]; rfl)) rfl) rfl
        | false =>
          have hsave' : (Outcomes.given o.toOutcomes (s.cores core).binary c.binary).saveOk = false :=
            hsave
          simp only [hsave', Bool.not_true, Bool.false_eq_true, if_false]
          refine Prod.ext ((agent_setCore ..).trans ?_) rfl
          exact congr (congr (congrArg AgentState.mk (by rw [hregistered]; rfl)) rfl) hsaved

/-! ### The marker tells the truth -/

/-- The marker names the build the binary was installed for. -/
def MarkerTrue (c : Core) : Prop :=
  ∀ m file, c.marker = some m → c.binary = some file → file.installedFor = some m

/-- A file beside no marker, or none. -/
theorem markerTrue_remnant {o : FileOutcomes} {inode : Nat} {c : Core}
    (hleft : o.remnantLeft = true → c.marker = none) :
    MarkerTrue { c with binary := remnant o inode } := by
  intro m file hm hfile
  change remnant o inode = some file at hfile
  rw [remnant] at hfile
  split at hfile
  · rename_i hremnant
    cases (hleft hremnant).symm.trans hm
  · cases hfile

theorem markerTrue_ensureManager {o : FileOutcomes} (inode : Nat)
    {installedFor : Option String} {c : Core} (hc : MarkerTrue c) (hok : Unmarked o installedFor c) :
    MarkerTrue (ensureManager o inode installedFor c).1 := by
  obtain ⟨⟨c', ok⟩, h⟩ : ∃ r, ensureManager o inode installedFor c = r := ⟨_, rfl⟩
  rw [h]
  cases ok with
  | false =>
    obtain ⟨hregistered, hbinary, hinstall, rfl⟩ := ensureManager_eq_false h
    have hleft := hok hregistered hbinary
    rw [if_neg (by rw [hinstall]; exact Bool.false_ne_true)] at hleft
    exact markerTrue_remnant hleft
  | true =>
    rcases ensureManager_eq_true h with
      ⟨-, rfl⟩ | ⟨_, -, rfl⟩ | ⟨hregistered, hbinary, hinstall, rfl⟩
    · exact hc
    · exact hc
    · intro m file hm hfile
      cases hfile
      have hmarker := hok hregistered hbinary
      rw [if_pos hinstall] at hmarker
      rcases hmarker with hnone | hsame
      · cases hnone.symm.trans hm
      · exact hsame.symm.trans hm

/-- An upgrade either leaves the file, or brings the new one with its marker, or fails and leaves
what is there beside no marker. -/
theorem markerTrue_ensureCoreBuild {o : BuildOutcomes} {inode : Nat} {expected : String} {c : Core}
    (hc : MarkerTrue c)
    (hmarked : currentBuild o c ≠ expected → o.downloadOk = true →
      (o.backupOk = true ∨ c.binary = none) → o.markerWriteOk = true ∨ o.markerLeft = none)
    (hleft : currentBuild o c ≠ expected → o.downloadOk = false →
      (o.backupOk = true ∧ o.restoreOk = false ∨ c.binary = none) → o.remnantLeft = true →
        c.marker = none) :
    MarkerTrue (ensureCoreBuild o inode expected c) := by
  rcases ensureCoreBuild_cases o inode expected c with
    h | ⟨hbuild, hdownload, hbackup, h⟩ | ⟨hbuild, hdownload, hrestore, h⟩
  · rw [h]
    exact hc
  · rw [h]
    intro m file hm hfile
    cases hfile
    rcases hmarked hbuild hdownload hbackup with hwrite | hleft
    · rw [hwrite] at hm
      exact hm
    · cases hwrite : o.markerWriteOk with
      | true =>
        rw [hwrite] at hm
        exact hm
      | false =>
        simp only [hwrite, Bool.false_eq_true, if_false, hleft] at hm
        cases hm
  · rw [h]
    exact markerTrue_remnant (hleft hbuild hdownload hrestore)

/-- An installation on demand leaves the marker, and a file that is there. -/
theorem files_ensureManager {o : FileOutcomes} {inode : Nat} {installedFor : Option String}
    {c c' : Core} (h : ensureManager o inode installedFor c = (c', true)) :
    c'.marker = c.marker ∧ (∀ file, c.binary = some file → c'.binary = some file) ∧
      (c'.binary = none → c.registered = true ∧ c.binary = none) := by
  rcases ensureManager_eq_true h with
    ⟨hregistered, rfl⟩ | ⟨file, hbinary, rfl⟩ | ⟨-, hbinary, -, rfl⟩
  · exact ⟨rfl, fun _ hfile => hfile, fun hnone => ⟨hregistered, hnone⟩⟩
  · refine ⟨rfl, fun _ hfile => hfile, fun hnone => ?_⟩
    cases hbinary.symm.trans hnone
  · refine ⟨rfl, fun _ hfile => ?_, fun hnone => ?_⟩
    · cases hbinary.symm.trans hfile
    · cases hnone

/-- Preparing the binary keeps the marker true. -/
theorem markerTrue_prepareBinary {o : BuildOutcomes} {core : CoreType} (inode : Nat)
    {push : ConfigPush} {c : Core} (hc : MarkerTrue c) (hok : PushAllowed o core push c) :
    MarkerTrue (prepareBinary o inode push c).1 := by
  obtain ⟨⟨c', ok⟩, h⟩ : ∃ r, prepareBinary o inode push c = r := ⟨_, rfl⟩
  rw [h]
  cases ok with
  | false =>
    have hmanager := prepareBinary_eq_false h
    obtain ⟨-, -, hinstall, -⟩ := ensureManager_eq_false hmanager
    have hunmarked := hok.installed.resolve_right (fun hinstalled => by
      cases hinstall.symm.trans hinstalled.1)
    have hc' := markerTrue_ensureManager inode hc hunmarked
    rwa [hmanager] at hc'
  | true =>
    obtain ⟨c₁, hmanager, rfl⟩ := prepareBinary_eq_true h
    obtain ⟨hmarker, -, hnone⟩ := files_ensureManager hmanager
    -- The marker is read before and after the installation alike.
    have hcurrent : currentBuild o c₁ = currentBuild o c := by
      rw [currentBuild, currentBuild, hmarker]
    have hc₁ : Unmarked o.toFileOutcomes (pushedBuild push) c → MarkerTrue c₁ := by
      intro hunmarked
      have hc' := markerTrue_ensureManager inode hc hunmarked
      rwa [hmanager] at hc'
    rw [upgradeBinary]
    cases hpushed : pushedBuild push with
    | none =>
      refine hc₁ (hok.installed.resolve_right ?_)
      rintro ⟨-, ⟨⟨expected, hexpected, -⟩, -⟩, -⟩
      cases hpushed.symm.trans hexpected
    | some expected =>
      have hupgrades : currentBuild o c₁ ≠ expected → o.downloadOk = true →
          (o.backupOk = true ∨ c₁.binary = none) → Upgrades o push c := fun hbuild hdownload hbackup =>
        ⟨⟨expected, hpushed, hcurrent ▸ hbuild⟩, hdownload, hbackup.imp id hnone⟩
      by_cases hcompletes : Upgrades o push c ∧ o.markerWriteOk = true
      · -- Whatever was installed on demand, the upgrade replaces it.
        obtain ⟨⟨⟨expected', hexpected', hbuild⟩, hdownload, hbackup⟩, hwrite⟩ := hcompletes
        cases hpushed.symm.trans hexpected'
        have hbackup₁ : o.backupOk = true ∨ c₁.binary = none := by
          refine hbackup.imp id ?_
          rintro ⟨hregistered, habsent⟩
          rw [ensureManager, if_pos hregistered] at hmanager
          cases hmanager
          exact habsent
        have hreplaced := @ensureCoreBuild_of_downloaded o (inode + 1) expected c₁
          (hcurrent ▸ hbuild) hdownload hbackup₁
        rw [if_pos hwrite] at hreplaced
        intro m file hm hfile
        simp only [hreplaced] at hm hfile
        cases hm
        cases hfile
        rfl
      · have hunmarked := hok.installed.resolve_right fun hinstalled => hcompletes hinstalled.2
        refine markerTrue_ensureCoreBuild (hc₁ hunmarked)
          (fun hbuild hdownload hbackup => hok.marked (hupgrades hbuild hdownload hbackup))
          fun hbuild hdownload hrestore hremnant => ?_
        rw [hmarker]
        exact hok.left ⟨⟨expected, hpushed, hcurrent ▸ hbuild⟩, hdownload, hremnant,
          hrestore.imp id hnone⟩

/-- A push that does not upgrade leaves a file where it is or loses it; what it leaves instead
has no marker. -/
theorem binary_prepareBinary {o : BuildOutcomes} {inode : Nat} {push : ConfigPush} {c c' : Core}
    {file : BinaryFile} (hfile : c.binary = some file) (hkeep : ¬ Upgrades o push c)
    (hleft : LeavesRemnant o push c → c.marker = none)
    (h : prepareBinary o inode push c = (c', true)) :
    c'.binary = some file ∨ c'.binary = none ∨ c'.marker = none := by
  obtain ⟨c₁, hmanager, rfl⟩ := prepareBinary_eq_true h
  obtain ⟨hmarker, hbinary, hnone⟩ := files_ensureManager hmanager
  have hcurrent : currentBuild o c₁ = currentBuild o c := by
    rw [currentBuild, currentBuild, hmarker]
  rw [upgradeBinary]
  cases hpushed : pushedBuild push with
  | none => exact Or.inl (hbinary file hfile)
  | some expected =>
    rcases ensureCoreBuild_cases o (inode + 1) expected c₁ with
      h | ⟨hbuild, hdownload, hbackup, -⟩ | ⟨hbuild, hdownload, hrestore, h⟩
    · exact Or.inl ((congrArg Core.binary h).trans (hbinary file hfile))
    · refine absurd ⟨⟨expected, hpushed, hcurrent ▸ hbuild⟩, hdownload, ?_⟩ hkeep
      exact hbackup.imp id hnone
    · dsimp only
      rw [h]
      dsimp only
      rw [remnant]
      split
      · rename_i hremnant
        refine Or.inr (Or.inr (hmarker.trans (hleft ?_)))
        exact ⟨⟨expected, hpushed, hcurrent ▸ hbuild⟩, hdownload, hremnant, hrestore.imp id hnone⟩
      · exact Or.inr (Or.inl rfl)

/-- What runs after a call that succeeded: the binary that is there, or, when a sing-box was
reloaded, the process that ran before. -/
theorem process_restart {o : Outcomes} {binary : Option BinaryFile} {config : Json}
    {process : Option Process} (h : (restart o binary config process).2 = true) {p : Process}
    (hp : (restart o binary config process).1 = some p) : binary = some p.executable := by
  obtain ⟨installOk, startOk, stopOk, reloadOk, saveOk⟩ := o
  cases stopOk with
  | false => cases h
  | true =>
    cases binary with
    | none => cases h
    | some file =>
      cases startOk with
      | false => cases h
      | true =>
        cases hp
        rfl

theorem applyConfig_applied {o : BuildOutcomes} {core : CoreType} {push : ConfigPush}
    {config : Json} {c c' : Core} {saved : Bool}
    (h : applyConfig o core push config c = (c', .applied saved)) :
    c'.binary = c.binary ∧ c'.marker = c.marker ∧ ∀ p, c'.process = some p →
      c.binary = some p.executable ∨ core = .singBox ∧ push.restartRequired = false ∧
        c.binary.isSome = true ∧ ∃ old, c.process = some old ∧ old.executable = p.executable := by
  rw [applyConfig] at h
  generalize hcall : (if push.restartRequired = true then
      restart o.toOutcomes c.binary config c.process
    else reload o.toOutcomes core c.binary config c.process) = call at h
  obtain ⟨process, ok⟩ := call
  have hc' : ok = true ∧ c'.binary = c.binary ∧ c'.marker = c.marker ∧ c'.process = process := by
    cases ok with
    | false => cases h
    | true =>
      simp only [Bool.not_true, Bool.false_eq_true, if_false] at h
      split at h
      · cases h
        exact ⟨rfl, rfl, rfl, rfl⟩
      · cases h
        exact ⟨rfl, rfl, rfl, rfl⟩
  obtain ⟨rfl, hbinary, hmarker, hprocess⟩ := hc'
  refine ⟨hbinary, hmarker, fun p hp => ?_⟩
  rw [hprocess] at hp
  by_cases hrestart : push.restartRequired = true
  · rw [if_pos hrestart] at hcall
    exact Or.inl (process_restart (congrArg Prod.snd hcall) ((congrArg Prod.fst hcall).trans hp))
  · rw [if_neg hrestart] at hcall
    cases core with
    | mihomo =>
      exact Or.inl (process_restart (congrArg Prod.snd hcall) ((congrArg Prod.fst hcall).trans hp))
    | singBox =>
      simp only [reload] at hcall
      split at hcall
      · rename_i hok
        cases hcall
        obtain ⟨old, hold, rfl⟩ := Option.map_eq_some_iff.mp hp
        refine Or.inr ⟨rfl, by simpa using hrestart, ?_, old, hold, rfl⟩
        exact (Bool.and_eq_true_iff.mp hok).2
      · cases hcall

/-- Every marker is true. -/
def Inv (s : NodeState) : Prop := ∀ core, MarkerTrue (s.cores core)

theorem inv_of_fresh {s : NodeState} (h : Fresh s) : Inv s := by
  intro core m file hm
  cases (h core).1.symm.trans hm

theorem Inv.setCore {s : NodeState} (hi : Inv s) (core : CoreType) {c : Core} (hc : MarkerTrue c) :
    Inv (s.setCore core c) := by
  intro core'
  by_cases hcore : core' = core
  · subst hcore
    rw [cores_setCore_self]
    exact hc
  · rw [cores_setCore_of_ne s hcore]
    exact hi core'

theorem markerTrue_applyConfig {o : BuildOutcomes} {core : CoreType} {push : ConfigPush}
    {config : Json} {c : Core} (hc : MarkerTrue c) :
    MarkerTrue (applyConfig o core push config c).1 := by
  rw [applyConfig]
  generalize (if push.restartRequired = true then
      restart o.toOutcomes c.binary config c.process
    else reload o.toOutcomes core c.binary config c.process) = call
  obtain ⟨process, ok⟩ := call
  dsimp only
  split
  · exact hc
  · split
    · exact hc
    · exact hc

theorem Inv.push {s : NodeState} (hi : Inv s) (parse : String → Option Json) {o : BuildOutcomes}
    {push : ConfigPush} (hok : PushAllowed o (coreTypeFromI32 push.targetCore) push
      (s.cores (coreTypeFromI32 push.targetCore))) : Inv (handleConfigPush parse o push s).1 := by
  rw [handleConfigPush]
  split
  · exact hi
  · split
    · exact hi
    · have hprepared := markerTrue_prepareBinary s.nextInode (hi _) hok
      split
      · rename_i c hprepare
        rw [hprepare] at hprepared
        exact hi.setCore _ hprepared
      · rename_i c hprepare
        rw [hprepare] at hprepared
        exact hi.setCore _ (markerTrue_applyConfig hprepared)

theorem markerTrue_commandCore {o : FileOutcomes} {inode : Nat} {core : CoreType}
    {cmd : CoreCommand} {c : Core} (hc : MarkerTrue c) (hok : Unmarked o none c) :
    MarkerTrue (commandCore o inode core cmd c) := by
  have hmanager := markerTrue_ensureManager inode hc hok
  cases cmd with
  | start coreType =>
    simp only [commandCore]
    split
    · rename_i h
      rwa [h] at hmanager
    · rename_i h
      rw [h] at hmanager
      split
      · exact hmanager
      · exact hmanager
  | stop coreType =>
    simp only [commandCore]
    split
    · exact hc
    · exact hc
  | restart coreType =>
    simp only [commandCore]
    split
    · rename_i h
      rwa [h] at hmanager
    · rename_i h
      rw [h] at hmanager
      exact hmanager

theorem markerTrue_restoreCore {o : FileOutcomes} {inode : Nat} {c : Core} (hc : MarkerTrue c)
    (hok : Unmarked o none c) : MarkerTrue (restoreCore o inode c) := by
  have hmanager := markerTrue_ensureManager inode hc hok
  rw [restoreCore]
  split
  · exact hc
  · split
    · rename_i h
      rwa [h] at hmanager
    · rename_i h
      rw [h] at hmanager
      split
      · exact hmanager
      · exact hmanager

theorem Inv.step {parse : String → Option Json} {s s' : NodeState} {a : Action} (hi : Inv s)
    (hok : Allowed s a) (h : step parse s a = some s') : Inv s' := by
  cases a with
  | push o push =>
    cases h
    exact hi.push parse hok
  | reload o reload =>
    cases h
    exact hi.push parse hok
  | command o cmd =>
    cases h
    exact hi.setCore _ (markerTrue_commandCore (hi _) hok)
  | restartAgent outcomes =>
    cases h
    intro core
    exact markerTrue_restoreCore (c := rediscover (s.cores core)) (hi core) (hok core)
  | deleteBinary core =>
    cases h
    rw [deleteCoreBinary]
    split
    · exact hi
    · exact hi.setCore core (fun _ _ _ hfile => by cases hfile)
  | exit core =>
    cases h
    exact hi.setCore core (hi core)

/-! ### What runs after a push -/

theorem handleConfigPush_applied {parse : String → Option Json} {o : BuildOutcomes}
    {push : ConfigPush} {s s' : NodeState} {saved : Bool}
    (h : handleConfigPush parse o push s = (s', .applied saved)) :
    ∃ config c, prepareBinary o s.nextInode push (s.cores (coreTypeFromI32 push.targetCore)) =
        (c, true) ∧
      applyConfig o (coreTypeFromI32 push.targetCore) push config c =
        (s'.cores (coreTypeFromI32 push.targetCore), .applied saved) := by
  rw [handleConfigPush] at h
  split at h
  · cases h
  · rename_i config _
    split at h
    · cases h
    · split at h
      · cases h
      · rename_i c hprepare
        refine ⟨config, c, hprepare, ?_⟩
        generalize applyConfig o (coreTypeFromI32 push.targetCore) push config c = r at h
        obtain ⟨c', result⟩ := r
        cases h
        rw [cores_setCore_self]

/-- **A push that is applied runs what it installed.**  In a run of allowed steps from a
fresh agent: when a push is applied and the marker reads its version and build, the process
was executed from the file that is there, and that file was installed for them. -/
theorem executed_from_installed {parse : String → Option Json} {as : List Action}
    {init s s' : NodeState} {o : BuildOutcomes} {push : ConfigPush} {saved : Bool}
    (hinit : Fresh init)
    (hok : Run.Guarded (step parse) Allowed init (as ++ [.push o push]))
    (hrun : Run.run (step parse) init as = some s)
    (happlied : handleConfigPush parse o push s = (s', .applied saved))
    (hmarker : (s'.cores (coreTypeFromI32 push.targetCore)).marker =
      some (buildName push.coreVersion push.coreBuildId)) :
    ∀ p, (s'.cores (coreTypeFromI32 push.targetCore)).process = some p →
      (s'.cores (coreTypeFromI32 push.targetCore)).binary = some p.executable ∧
        p.executable.installedFor = some (buildName push.coreVersion push.coreBuildId) := by
  obtain ⟨hbefore, hlast⟩ := Run.guarded_append hok
  have hi : Inv s := Run.inv_of_guarded (fun _ _ _ hi hok h => hi.step hok h) (inv_of_fresh hinit)
    hbefore hrun
  have hallowed : PushAllowed o (coreTypeFromI32 push.targetCore) push
      (s.cores (coreTypeFromI32 push.targetCore)) := (hlast s hrun).1
  have hi' : Inv s' := by
    have h := hi.push parse hallowed
    rwa [happlied] at h
  -- The marker is true of the file, so the file is all that is left to show.
  suffices hfile : ∀ p, (s'.cores (coreTypeFromI32 push.targetCore)).process = some p →
      (s'.cores (coreTypeFromI32 push.targetCore)).binary = some p.executable from
    fun p hp => ⟨hfile p hp, hi' _ _ _ hmarker (hfile p hp)⟩
  obtain ⟨config, c, hprepare, hcall⟩ := handleConfigPush_applied happlied
  obtain ⟨hbinary, hmarkers, hprocess⟩ := applyConfig_applied hcall
  intro p hp
  rw [hbinary]
  rcases hprocess p hp with hfile | ⟨hcore, hrestart, hsome, old, hold, hexe⟩
  · exact hfile
  · -- A reloaded sing-box: the guard says what it was executed from.
    rw [(prepareBinary_agent hprepare).2.1] at hold
    obtain ⟨hthere, hkeep⟩ := hallowed.executed hcore hrestart old hold
    rw [← hexe]
    rcases binary_prepareBinary hthere hkeep hallowed.left hprepare with hfile | hnone | hunmarked
    · exact hfile
    · rw [hnone] at hsome
      cases hsome
    · cases (hmarkers.trans hunmarked).symm.trans hmarker

/-! ### A reload after an upgrade -/

namespace RollingBuild

def parse : String → Option Json := fun _ => some (mkObj [])

def core : Core := ⟨false, none, none, none, none⟩

/-- A node without any binary. -/
def init : NodeState := ⟨fun _ => core, 0⟩

/-- Every call succeeds. -/
def ok : BuildOutcomes :=
  ⟨⟨⟨true, true, true, true, true⟩, false⟩, true, true, true, true, true, none⟩

def push (restart : Bool) (version : String) (core : Int) (buildId : String) : ConfigPush :=
  ⟨"{}", core, restart, version, "1.14.0", buildId⟩

/-- The first push installs and starts build `b1`. -/
def installed : List Action := [.push ok (push true "c1" 2 "b1")]

/-- The rolling tag got a new build; the scheduler pushes without a restart. -/
def rebuilt (core : Int) : ConfigPush := push false "c2" core "b2"

/-- The same with mihomo. -/
def mihomoInstalled : NodeState := (handleConfigPush parse ok (push true "c1" 4 "b1") init).1

def mihomoRebuilt : NodeState := (handleConfigPush parse ok (rebuilt 4) mihomoInstalled).1

end RollingBuild

/-- **A reload keeps the old binary.**  The push is applied, the marker reads the new build,
and sing-box still is the process of the build before. -/
theorem reload_keeps_old_binary : ∃ s s' p,
    Run.run (step RollingBuild.parse) RollingBuild.init RollingBuild.installed = some s ∧
      handleConfigPush RollingBuild.parse RollingBuild.ok (RollingBuild.rebuilt 2) s =
        (s', .applied true) ∧
      (s'.cores .singBox).marker = some (buildName "1.14.0" "b2") ∧
      (s'.cores .singBox).process = some p ∧
      p.executable.installedFor = some (buildName "1.14.0" "b1") ∧
      (s'.cores .singBox).binary ≠ some p.executable := by
  refine ⟨_, _, _, rfl, rfl, rfl, rfl, rfl, ?_⟩
  decide

/-- A mihomo that gets a new build is restarted with it. -/
theorem executed_from_installed_mihomo :
    ∃ p, (RollingBuild.mihomoRebuilt.cores .mihomo).process = some p ∧
      (RollingBuild.mihomoRebuilt.cores .mihomo).binary = some p.executable ∧
        p.executable.installedFor = some (buildName "1.14.0" "b2") := by
  have hok : Run.Guarded (step RollingBuild.parse) Allowed RollingBuild.init
      ([.push RollingBuild.ok (RollingBuild.push true "c1" 4 "b1")] ++
        [.push RollingBuild.ok (RollingBuild.rebuilt 4)]) := by
    refine ⟨⟨Or.inl fun _ _ => Or.inl rfl, fun _ => Or.inl rfl, fun _ => rfl,
      fun h => by cases h⟩, ?_⟩
    intro s hs
    cases hs
    have hregistered : (RollingBuild.mihomoInstalled.cores .mihomo).registered = true := rfl
    refine ⟨⟨Or.inl ?_, fun _ => Or.inl rfl, fun h => ?_, fun h => by cases h⟩,
      fun _ _ => trivial⟩
    · intro hnot
      cases hregistered.symm.trans hnot
    · cases h.2.1
  have hrun : Run.run (step RollingBuild.parse) RollingBuild.init
      [.push RollingBuild.ok (RollingBuild.push true "c1" 4 "b1")] =
        some RollingBuild.mihomoInstalled := rfl
  have happlied : handleConfigPush RollingBuild.parse RollingBuild.ok (RollingBuild.rebuilt 4)
      RollingBuild.mihomoInstalled = (RollingBuild.mihomoRebuilt, .applied true) := rfl
  exact ⟨_, rfl, executed_from_installed (fun _ => ⟨rfl, rfl⟩) hok hrun happlied rfl _ rfl⟩

end ProxyPanel.Agent.Upgrade
