import Mathlib.Logic.Function.Basic
import ProxyPanel.Lib.Calendar
import ProxyPanel.Lib.Effects

/-!
# The upgrade command

`proxy-panel upgrade <component>` replaces the binary of a component, and for the Hub its
web console, and restarts the service.  `performUpgrade` is one pass through its steps,
each of which can fail: `lift` is a call that changes nothing here, `put` one that writes
a path and may leave something else there when it fails.  A failure while the files are
replaced is answered by `recover`; one before or after is returned as it is.  `upgrade`
reports in the status file where the command stands and how it ended.
-/

namespace ProxyPanel.Cli

open Effects

/-- An error by its message, and by its message with all causes. -/
structure CliError where
  text : String
  full : String
  deriving DecidableEq, Repr

def CliError.bail (message : String) : CliError := ⟨message, message⟩

/-! ### Components and files -/

structure Component where
  name : String
  binary : String
  unit : Option String
  withWeb : Bool
  deriving DecidableEq

namespace Component

def hub : Component := ⟨"hub", "proxy-panel-hub", some "proxy-panel-hub.service", true⟩

def agent : Component := ⟨"agent", "proxy-panel-agent", some "proxy-panel-agent.service", false⟩

def cli : Component := ⟨"cli", "proxy-panel", none, false⟩

def parse : String → Except CliError Component
  | "hub" => .ok hub
  | "agent" => .ok agent
  | "cli" => .ok cli
  | other => .error (.bail ("未知组件: " ++ other))

end Component

/-- The files of a directory, by their paths in it. -/
abbrev Tree := String → Option String

/-- What the upgrade of one component works on: the binary, `web/dist`, the service, and
the backups by their labels. -/
structure Machine where
  binary : Option String
  web : Option Tree
  active : Bool
  binaryBackups : String → Option String
  webBackups : String → Option Tree

/-! ### The status record -/

inductive UpgradeOutcome where
  | running
  | succeeded
  | failed
  | rolledBack
  deriving DecidableEq, Repr

structure StatusRecord where
  status : UpgradeOutcome
  stage : String
  component : String
  currentVersion : Option String
  targetVersion : Option String
  message : String
  startedAt : DateTime
  finishedAt : Option DateTime

/-- A command under way: the machine, its status record and the records it has written, the
last one first. -/
structure World where
  machine : Machine
  statusFile : Option String
  record : StatusRecord
  written : List StatusRecord
  rolledBack : Bool

abbrev UpgradeM := EStateM CliError World

/-- A call that changes nothing the model has. -/
def lift {α : Type} (result : Except CliError α) : UpgradeM α := fun w =>
  match result with
  | .ok a => .ok a w
  | .error e => .error e w

/-- How a call that writes a path ends, and what is at the path when it fails. -/
structure Write (α : Type) where
  result : Except CliError Unit
  left : α

/-- `set` puts something at the path that is written. -/
def put {α : Type} (set : α → Machine → Machine) (write : Write α) (value : α) : UpgradeM Unit :=
  fun w =>
    match write.result with
    | .ok () => .ok () { w with machine := set value w.machine }
    | .error e => .error e { w with machine := set write.left w.machine }

/-- What stands in the file system. -/
def machine : UpgradeM Machine := fun w => .ok w.machine w

/-- A call whose error is looked at and not returned. -/
def attempt (x : UpgradeM Unit) : UpgradeM (Option CliError) := fun w =>
  match x w with
  | .ok () w => .ok none w
  | .error e w => .ok (some e) w

/-- A step under a condition. -/
def optionally {α : Type} (c : Bool) (otherwise : α) (x : UpgradeM α) : UpgradeM α :=
  if c then x else pure otherwise

/-- A condition on the way, with the error it returns. -/
def ensure (c : Bool) (e : CliError) : UpgradeM Unit := if c then pure () else throw e

namespace Machine

def setBinary (binary : Option String) (m : Machine) : Machine := { m with binary }

def setWeb (web : Option Tree) (m : Machine) : Machine := { m with web }

def setActive (active : Bool) (m : Machine) : Machine := { m with active }

def setBinaryBackup (label : String) (backup : Option String) (m : Machine) : Machine :=
  { m with binaryBackups := Function.update m.binaryBackups label backup }

def setWebBackup (label : String) (backup : Option Tree) (m : Machine) : Machine :=
  { m with webBackups := Function.update m.webBackups label backup }

end Machine

/-! ### The steps -/

structure Release where
  tag : String
  version : String

/-- How the calls of an upgrade end. -/
structure Outcomes where
  /-- The writes of the status file, by the stage that is written. -/
  statusWrites : String → Except CliError Unit
  releases : Except CliError Unit
  latestStable : Except CliError Release
  byTag : String → Except CliError Release
  installedBefore : Except CliError (Option String)
  compareVersions : String → String → Except CliError Ordering
  releaseArch : Except CliError String
  httpClient : Except CliError Unit
  tempDir : Except CliError Unit
  downloaded : Except CliError Unit
  extractDir : Except CliError Unit
  extracted : Except CliError Unit
  newBinary : Except CliError String
  newWeb : Option Tree
  timestamp : String
  backupDir : Except CliError Unit
  backupBinary : Write (Option String)
  backupWeb : Write (Option Tree)
  /-- The answer of `systemctl is-active` for a service that is active. -/
  activeSeen : Bool
  stop : Bool
  moveBinary : Write (Option String)
  chmod : Except CliError Unit
  removeWeb : Write (Option Tree)
  webParent : Except CliError Unit
  moveWeb : Write (Option Tree)
  installedAfter : Except CliError (Option String)
  restart : Write Bool
  stable : Write Bool
  restoreRemoveBinary : Write (Option String)
  restoreBinary : Write (Option String)
  restoreRemoveWeb : Write (Option Tree)
  restoreWeb : Write (Option Tree)
  recoverRestart : Write Bool
  recoverStable : Write Bool

inductive UpgradeDecision where
  | proceed
  | skip

def planUpgrade (compareVersions : String → String → Except CliError Ordering)
    (current : Option String) (target : String) : Except CliError UpgradeDecision :=
  match current with
  | none => .ok .proceed
  | some current =>
    match compareVersions current target with
    | .error e => .error e
    | .ok .eq => .ok .skip
    | .ok .gt => .error (.bail
        ("目标版本 " ++ target ++ " 低于当前版本 " ++ current ++ "；降级请使用 rollback"))
    | .ok .lt => .ok .proceed

section

variable (o : Outcomes) (component : Component)

/-- `UpgradeStatus::write`.  Without a status file there is nothing to write. -/
def writeStatus (result : Except CliError Unit) : UpgradeM Unit := fun w =>
  match w.statusFile with
  | none => .ok () w
  | some _ =>
    match result with
    | .ok () => .ok () { w with written := w.record :: w.written }
    | .error e => .error e w

/-- The record of the command changes. -/
def setRecord (f : StatusRecord → StatusRecord) : UpgradeM Unit := fun w =>
  .ok () { w with record := f w.record }

def stage (name message : String) : UpgradeM Unit := do
  setRecord fun record => { record with status := .running, stage := name, message }
  writeStatus (o.statusWrites name)

def setTargetVersion (version : String) : UpgradeM Unit :=
  setRecord fun record => { record with targetVersion := some version }

def setCurrentVersion (version : Option String) : UpgradeM Unit :=
  setRecord fun record => { record with currentVersion := version }

/-- `backup_existing` for the binary: the label if there was one to copy. -/
def backupBinary (label : String) : UpgradeM (Option String) := do
  let m ← machine
  match m.binary with
  | none => pure none
  | some binary =>
    put (Machine.setBinaryBackup label) o.backupBinary (some binary)
    pure (some label)

/-- A directory copied into another, which keeps its own files. -/
def copyInto (source : Tree) (destination : Option Tree) : Tree := fun path =>
  (source path).or (destination.bind fun old => old path)

/-- `backup_existing` for the web console. -/
def backupWeb (label : String) : UpgradeM (Option String) := do
  let m ← machine
  match m.web with
  | none => pure none
  | some web =>
    put (Machine.setWebBackup label) o.backupWeb (some (copyInto web (m.webBackups label)))
    pure (some label)

/-- `systemd_is_active`, where the component has a service. -/
def isActive : UpgradeM Bool := do
  pure (component.unit.isSome && ((← machine).active && o.activeSeen))

/-- `systemd_stop` ignores errors. -/
def systemdStop : UpgradeM Unit := fun w =>
  .ok () { w with machine := w.machine.setActive (w.machine.active && !o.stop) }

def replaceWeb (newWeb : Option Tree) : UpgradeM Unit := do
  put Machine.setWeb o.removeWeb none
  lift o.webParent
  put Machine.setWeb o.moveWeb newWeb

def verifyVersion (targetVersion : String) : UpgradeM Unit := do
  match ← lift o.installedAfter with
  | none => throw (.bail "升级后二进制不存在")
  | some actual =>
    let order ← lift (o.compareVersions actual targetVersion)
    ensure (order = .eq)
      (.bail ("目标版本验证失败: 期望 " ++ targetVersion ++ "，实际 " ++ actual))

def restartService : UpgradeM Unit := do
  put Machine.setActive o.restart true
  put Machine.setActive o.stable true

def replaceAndVerify (newBinary : String) (newWeb : Option Tree) (targetVersion : String)
    (wasActive : Bool) : UpgradeM Unit := do
  put Machine.setBinary o.moveBinary (some newBinary)
  lift o.chmod
  optionally component.withWeb () (replaceWeb o newWeb)
  verifyVersion o targetVersion
  optionally (component.unit.isSome && wasActive) () (restartService o)

/-- `restore_path` for the binary. -/
def restoreBinary (backup : Option String) : UpgradeM Unit := do
  put Machine.setBinary o.restoreRemoveBinary none
  match backup with
  | none => pure ()
  | some label => put Machine.setBinary o.restoreBinary ((← machine).binaryBackups label)

/-- `restore_path` for the web console. -/
def restoreWeb (backup : Option String) : UpgradeM Unit := do
  put Machine.setWeb o.restoreRemoveWeb none
  match backup with
  | none => pure ()
  | some label => put Machine.setWeb o.restoreWeb ((← machine).webBackups label)

/-- The restart of the service in a recovery, with the text of its failure. -/
def recoverService : UpgradeM (Option String) := do
  match ← attempt (put Machine.setActive o.recoverRestart true) with
  | some e => pure (some ("恢复原服务失败: " ++ e.full))
  | none =>
    let unstable ← attempt (put Machine.setActive o.recoverStable true)
    pure (unstable.map fun e => "原服务未恢复稳定: " ++ e.full)

def recover (binaryBackup webBackup : Option String) (wasActive : Bool) : UpgradeM Unit := do
  let binaryError ← attempt (restoreBinary o binaryBackup)
  let webError ← attempt (optionally component.withWeb () (restoreWeb o webBackup))
  let serviceError ← optionally (component.unit.isSome && wasActive) none (recoverService o)
  let errors := (binaryError.map fun e => "恢复二进制失败: " ++ e.full).toList ++
    (webError.map fun e => "恢复 web/dist 失败: " ++ e.full).toList ++ serviceError.toList
  ensure (errors = []) (.bail ("；".intercalate errors))

def setRolledBack : UpgradeM Unit := fun w => .ok () { w with rolledBack := true }

/-- What follows a failure of `replaceAndVerify`: the error that is returned. -/
def rollBack (binaryBackup webBackup : Option String) (wasActive : Bool) (error : CliError) :
    UpgradeM Unit := do
  -- An error of this write is printed only.
  let _ ← attempt (stage o "rollback" "升级失败，正在恢复原文件和服务")
  match ← attempt (recover o component binaryBackup webBackup wasActive) with
  | none =>
    setRolledBack
    throw (.bail ("升级失败，已恢复旧版本: " ++ error.full))
  | some recoveryError =>
    throw (.bail ("升级失败: " ++ error.full ++ "；自动恢复也失败: " ++ recoveryError.full))

/-- The new binary and the new web console. -/
def fetch : UpgradeM (String × Option Tree) := do
  let _ ← lift o.releaseArch
  lift o.httpClient
  lift o.tempDir
  lift o.downloaded
  lift o.extractDir
  lift o.extracted
  let newBinary ← lift o.newBinary
  if component.withWeb then
    match o.newWeb with
    | none => throw (.bail "hub tarball 中未找到 web/dist")
    | some web => pure (newBinary, some web)
  else pure (newBinary, none)

/-- From the backups on. -/
def install (currentVersion : Option String) (targetVersion newBinary : String)
    (newWeb : Option Tree) : UpgradeM Unit := do
  lift o.backupDir
  let label := currentVersion.getD o.timestamp
  let binaryBackup ← backupBinary o label
  let webBackup ← optionally component.withWeb none (backupWeb o label)
  let wasActive ← isActive o component
  optionally (component.unit.isSome && wasActive) () (systemdStop o)
  stage o "replacing" "正在替换文件并验证目标版本"
  match ← attempt (replaceAndVerify o component newBinary newWeb targetVersion wasActive) with
  | some error => rollBack o component binaryBackup webBackup wasActive error
  | none => stage o "completed" "目标版本和服务状态验证通过"

def performUpgrade (requestedVersion : String) : UpgradeM Unit := do
  stage o "resolving" "正在解析目标 Release"
  lift o.releases
  let release ← lift
    (if requestedVersion = "latest" then o.latestStable else o.byTag requestedVersion)
  setTargetVersion release.version
  let currentVersion ← lift o.installedBefore
  setCurrentVersion currentVersion
  match ← lift (planUpgrade o.compareVersions currentVersion release.version) with
  | .skip => stage o "skipped" "当前版本已是目标版本，跳过升级"
  | .proceed =>
    stage o "preparing" "正在下载、校验并解压 Release"
    let (newBinary, newWeb) ← fetch o component
    install o component currentVersion release.version newBinary newWeb

end

/-! ### The command -/

/-- How the calls of the whole command end. -/
structure CommandOutcomes extends Outcomes where
  arguments : Except CliError Unit
  root : Bool
  lock : Except CliError Unit
  startedAt : DateTime
  finishedAt : DateTime
  finishWrite : Except CliError Unit

/-- What a command leaves: its exit, the machine and the records it wrote, the last first. -/
structure Exit where
  result : Except CliError Unit
  machine : Machine
  written : List StatusRecord

def UpgradeStatus.new (startedAt : DateTime) (component : String) (targetVersion : Option String) :
    StatusRecord :=
  ⟨.running, "resolving", component, none, targetVersion, "", startedAt, none⟩

def finish (o : CommandOutcomes) (outcome : UpgradeOutcome) (message : String) : UpgradeM Unit := do
  setRecord fun record => { record with
    status := outcome, message, finishedAt := some o.finishedAt }
  writeStatus o.finishWrite

/-- From the status record on. -/
def report (o : CommandOutcomes) (component : Component) (version : String) : UpgradeM Unit :=
  fun w =>
    match performUpgrade o.toOutcomes component version w with
    | .ok () w => finish o .succeeded "升级完成" w
    | .error e w =>
      -- An error of this write is printed only.
      (attempt (finish o (if w.rolledBack then .rolledBack else .failed) e.text) >>= fun _ =>
        throw e) w

/-- A command that fails before it has a status record writes none. -/
def refuse (e : CliError) (m : Machine) : Exit := ⟨.error e, m, []⟩

def upgrade (o : CommandOutcomes) (component version : String) (statusFile : Option String)
    (m : Machine) : Exit :=
  match o.arguments with
  | .error e => refuse e m
  | .ok () =>
    if !o.root then refuse (.bail "此操作需要 root 权限，请使用 sudo 运行") m
    else match Component.parse component with
    | .error e => refuse e m
    | .ok component =>
      match o.lock with
      | .error e => refuse e m
      | .ok () =>
        let record := UpgradeStatus.new o.startedAt component.name (some version)
        match report o component version ⟨m, statusFile, record, [], false⟩ with
        | .ok () w => ⟨.ok (), w.machine, w.written⟩
        | .error e w => ⟨.error e, w.machine, w.written⟩

theorem attempt_of_ok {x : UpgradeM Unit} {w w' : World} (h : x w = .ok () w') :
    attempt x w = .ok none w' := by
  unfold attempt
  rw [h]

/-! ### What the steps leave alone -/

section

variable {α γ : Type} {f : World → γ}

theorem leaves_lift (f : World → γ) (result : Except CliError α) : Leaves f (lift result) := by
  intro w
  cases result <;> rfl

theorem leaves_machine (f : World → γ) : Leaves f machine := fun _ => rfl

theorem leaves_put {set : α → Machine → Machine}
    (hf : ∀ w a, f { w with machine := set a w.machine } = f w) (write : Write α) (value : α) :
    Leaves f (put set write value) := by
  intro w
  rw [put]
  cases write.result <;> exact hf w _

theorem leaves_attempt {x : UpgradeM Unit} (hx : Leaves f x) : Leaves f (attempt x) := by
  intro w
  have hw := hx w
  rw [attempt]
  cases h : x w <;> rw [h] at hw <;> exact hw

/-- What has nothing to do with the status record. -/
structure Unrecorded (f : World → γ) : Prop where
  record : ∀ w record, f { w with record } = f w
  written : ∀ w written, f { w with written } = f w

theorem leaves_setRecord (hf : Unrecorded f) (g : StatusRecord → StatusRecord) :
    Leaves f (setRecord g) := fun w => hf.record w _

theorem leaves_writeStatus (hf : Unrecorded f) (result : Except CliError Unit) :
    Leaves f (writeStatus result) := by
  intro w
  unfold writeStatus
  split
  · rfl
  · split
    · exact hf.written w _
    · rfl

theorem leaves_stage (hf : Unrecorded f) (o : Outcomes) (name message : String) :
    Leaves f (stage o name message) :=
  leaves_bind (leaves_setRecord hf _) fun _ => leaves_writeStatus hf _

theorem leaves_fetch (f : World → γ) (o : Outcomes) (component : Component) :
    Leaves f (fetch o component) := by
  refine leaves_bind (leaves_lift f _) fun _ => leaves_bind (leaves_lift f _) fun _ =>
    leaves_bind (leaves_lift f _) fun _ => leaves_bind (leaves_lift f _) fun _ =>
    leaves_bind (leaves_lift f _) fun _ => leaves_bind (leaves_lift f _) fun _ =>
    leaves_bind (leaves_lift f _) fun newBinary => leaves_ite ?_ (leaves_pure f _)
  cases o.newWeb with
  | none => exact leaves_throw f _
  | some web => exact leaves_pure f _

/-- What no step of an upgrade touches. -/
structure Outside (f : World → γ) : Prop extends Unrecorded f where
  machine : ∀ w machine, f { w with machine } = f w
  rolledBack : ∀ w rolledBack, f { w with rolledBack } = f w

variable (o : Outcomes) (component : Component)

theorem leaves_optionally {x : UpgradeM α} (hx : Leaves f x) (c : Bool) (otherwise : α) :
    Leaves f (optionally c otherwise x) := leaves_ite hx (leaves_pure f otherwise)

theorem leaves_ensure (f : World → γ) (c : Bool) (e : CliError) : Leaves f (ensure c e) :=
  leaves_ite (leaves_pure f ()) (leaves_throw f e)

theorem leaves_verifyVersion (f : World → γ) (targetVersion : String) :
    Leaves f (verifyVersion o targetVersion) := by
  refine leaves_bind (leaves_lift f _) fun installed => ?_
  cases installed with
  | none => exact leaves_throw f _
  | some actual => exact leaves_bind (leaves_lift f _) fun order => leaves_ensure f _ _

namespace Outside

theorem put (hf : Outside f) (set : α → Machine → Machine) (write : Write α) (value : α) :
    Leaves f (put set write value) := leaves_put (fun w _ => hf.machine w _) write value

theorem replaceAndVerify (hf : Outside f) (newBinary : String) (newWeb : Option Tree)
    (targetVersion : String) (wasActive : Bool) :
    Leaves f (replaceAndVerify o component newBinary newWeb targetVersion wasActive) := by
  have hweb : Leaves f (replaceWeb o newWeb) := leaves_bind (hf.put _ _ _) fun _ =>
    leaves_bind (leaves_lift f _) fun _ => hf.put _ _ _
  have hservice : Leaves f (restartService o) := leaves_bind (hf.put _ _ _) fun _ => hf.put _ _ _
  exact leaves_bind (hf.put _ _ _) fun _ => leaves_bind (leaves_lift f _) fun _ =>
    leaves_bind (leaves_optionally hweb _ _) fun _ =>
    leaves_bind (leaves_verifyVersion o f targetVersion) fun _ => leaves_optionally hservice _ _

theorem restoreBinary (hf : Outside f) (backup : Option String) :
    Leaves f (restoreBinary o backup) := by
  refine leaves_bind (hf.put _ _ _) fun _ => ?_
  cases backup with
  | none => exact leaves_pure f ()
  | some label => exact leaves_bind (leaves_machine f) fun _ => hf.put _ _ _

theorem restoreWeb (hf : Outside f) (backup : Option String) : Leaves f (restoreWeb o backup) := by
  refine leaves_bind (hf.put _ _ _) fun _ => ?_
  cases backup with
  | none => exact leaves_pure f ()
  | some label => exact leaves_bind (leaves_machine f) fun _ => hf.put _ _ _

theorem recoverService (hf : Outside f) : Leaves f (recoverService o) := by
  refine leaves_bind (leaves_attempt (hf.put _ _ _)) fun e => ?_
  cases e with
  | none => exact leaves_bind (leaves_attempt (hf.put _ _ _)) fun _ => leaves_pure f _
  | some e => exact leaves_pure f _

theorem rollBack (hf : Outside f) (binaryBackup webBackup : Option String) (wasActive : Bool)
    (error : CliError) :
    Leaves f (rollBack o component binaryBackup webBackup wasActive error) := by
  have hrecover : Leaves f (recover o component binaryBackup webBackup wasActive) :=
    leaves_bind (leaves_attempt (hf.restoreBinary o binaryBackup)) fun _ =>
    leaves_bind (leaves_attempt (leaves_optionally (hf.restoreWeb o webBackup) _ _)) fun _ =>
    leaves_bind (leaves_optionally (hf.recoverService o) _ _) fun _ => leaves_ensure f _ _
  refine leaves_bind (leaves_attempt (leaves_stage hf.toUnrecorded o _ _)) fun _ =>
    leaves_bind (leaves_attempt hrecover) fun recoveryError => ?_
  cases recoveryError with
  | none => exact leaves_bind (fun w => hf.rolledBack w true) fun _ => leaves_throw f _
  | some e => exact leaves_throw f _

theorem backupBinary (hf : Outside f) (label : String) : Leaves f (backupBinary o label) := by
  refine leaves_bind (leaves_machine f) fun m => ?_
  cases m.binary with
  | none => exact leaves_pure f none
  | some binary => exact leaves_bind (hf.put _ _ _) fun _ => leaves_pure f _

theorem backupWeb (hf : Outside f) (label : String) : Leaves f (backupWeb o label) := by
  refine leaves_bind (leaves_machine f) fun m => ?_
  cases m.web with
  | none => exact leaves_pure f none
  | some web => exact leaves_bind (hf.put _ _ _) fun _ => leaves_pure f _

theorem install (hf : Outside f) (currentVersion : Option String)
    (targetVersion newBinary : String) (newWeb : Option Tree) :
    Leaves f (install o component currentVersion targetVersion newBinary newWeb) := by
  refine leaves_bind (leaves_lift f _) fun _ => leaves_bind (hf.backupBinary o _) fun _ =>
    leaves_bind (leaves_optionally (hf.backupWeb o _) _ _) fun _ =>
    leaves_bind (leaves_bind (leaves_machine f) fun _ => leaves_pure f _) fun wasActive =>
    leaves_bind (leaves_optionally (fun w => hf.machine w _) _ _) fun _ =>
    leaves_bind (leaves_stage hf.toUnrecorded o _ _) fun _ =>
    leaves_bind (leaves_attempt (hf.replaceAndVerify o component _ _ _ _)) fun error => ?_
  cases error with
  | none => exact leaves_stage hf.toUnrecorded o _ _
  | some error => exact hf.rollBack o component _ _ _ error

/-- **The frame of an upgrade.** -/
theorem performUpgrade (hf : Outside f) (requestedVersion : String) :
    Leaves f (performUpgrade o component requestedVersion) := by
  refine leaves_bind (leaves_stage hf.toUnrecorded o _ _) fun _ =>
    leaves_bind (leaves_lift f _) fun _ => leaves_bind (leaves_lift f _) fun release =>
    leaves_bind (leaves_setRecord hf.toUnrecorded _) fun _ =>
    leaves_bind (leaves_lift f _) fun currentVersion =>
    leaves_bind (leaves_setRecord hf.toUnrecorded _) fun _ =>
    leaves_bind (leaves_lift f _) fun decision => ?_
  cases decision with
  | skip => exact leaves_stage hf.toUnrecorded o _ _
  | proceed =>
    exact leaves_bind (leaves_stage hf.toUnrecorded o _ _) fun _ =>
      leaves_bind (leaves_fetch f o component) fun _ => hf.install o component _ _ _ _

end Outside

end

end ProxyPanel.Cli
