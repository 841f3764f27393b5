import ProxyPanel.Cli.Backups
import ProxyPanel.Cli.UpgradeAtomicity
import ProxyPanel.Lib.Query

/-!
# Upgrades and rollbacks of the Hub

An upgrade copies what is installed to the backup directory, under the version that is
replaced; one that succeeds removes all but the last backup.  A rollback takes the last
backup of the binary and the last one of the web console, each by its own time, and leaves
the backups where they are.  `Installation` says what this is for: what is installed, and
what was installed when the last backups were made.  In runs whose copies and recoveries
work, the machine is at every point what `Installation` says (`represents_run`), so the two
backups a rollback finds belong together (`rollback_restores`).
-/

namespace ProxyPanel.Cli

open Effects

/-! ### An upgrade -/

/-- The machine and the times of its backups. -/
structure Depot where
  machine : Machine
  binaryEntries : List Entry
  webEntries : List Entry

/-- One upgrade of the Hub: its calls, the time, whether the copy of the console creates a
file at the top of a backup that is there, the order in which the directory is read, and the
removals that fail. -/
structure UpgradeRun where
  outcomes : Outcomes
  version : String
  statusFile : Option String
  record : StatusRecord
  now : Nat
  touched : Bool
  list : List Entry → List Entry
  keeps : Entry → Bool

namespace UpgradeRun

variable (r : UpgradeRun)

def world (m : Machine) : World := ⟨m, r.statusFile, r.record, [], false⟩

/-- The times of the backups after `backUp`, which changed the machine from `m` to `m'`. -/
def recordCopies (found : Found) (m m' : Machine) (d : Depot) : Depot where
  machine := m'
  binaryEntries :=
    if r.outcomes.backupDir = .ok () ∧ m.binary.isSome then
      copied found.label r.now true (m'.binaryBackups found.label) d.binaryEntries
    else d.binaryEntries
  webEntries :=
    if r.outcomes.backupDir = .ok () ∧
        onlyIf m.binary.isSome r.outcomes.backupBinary.result = .ok () ∧ m.web.isSome then
      copied found.label r.now r.touched (m'.webBackups found.label) d.webEntries
    else d.webEntries

/-- Both calls of `prune_backups_in`. -/
def prune (d : Depot) : Depot :=
  let binaries := removedBackups (r.list d.binaryEntries) r.keeps
  let webs := removedBackups (r.list d.webEntries) r.keeps
  { machine := { d.machine with
      binaryBackups := withoutBackups binaries d.machine.binaryBackups
      webBackups := withoutBackups webs d.machine.webBackups }
    binaryEntries := d.binaryEntries.filter (· ∉ binaries)
    webEntries := d.webEntries.filter (· ∉ webs) }

/-- The backups are pruned once the new files are in place and verified. -/
def reachesPrune (found : Found) (b : BackedUp) : Bool :=
  stageResult r.outcomes r.statusFile "replacing" = .ok () &&
    replaceResult r.outcomes .hub found.targetVersion b.wasActive = .ok ()

/-- From the backups on. -/
def install (found : Found) (w : World) (d : Depot) : Except CliError Unit × Depot :=
  match backUp r.outcomes .hub found w with
  | .error e w' => (.error e, r.recordCopies found w.machine w'.machine d)
  | .ok b w' =>
    let x := replace r.outcomes .hub found b w'
    let d := { r.recordCopies found w.machine w'.machine d with machine := (after x).machine }
    (resultOf x, if r.reachesPrune found b then r.prune d else d)

/-- `perform_upgrade`, with the times of the backups. -/
def perform (d : Depot) : Except CliError Unit × Depot :=
  match locate r.outcomes .hub r.version (r.world d.machine) with
  | .error e w => (.error e, { d with machine := w.machine })
  | .ok none w => (.ok (), { d with machine := w.machine })
  | .ok (some found) w => r.install found w d

end UpgradeRun

/-! ### A rollback -/

/-- One rollback of the Hub: its calls and the order in which the directory is read. -/
structure RollbackRun where
  outcomes : Outcomes
  root : Bool
  lock : Except CliError Unit
  readDir : Except CliError Unit
  statusFile : Option String
  record : StatusRecord
  list : List Entry → List Entry

namespace RollbackRun

variable (r : RollbackRun)

/-- The label of the last backup, or the error that there is none. -/
def latest (entries : List Entry) (missing : String) : Except CliError String := do
  r.readDir
  match findLatestBackupIn (r.list entries) with
  | some label => pure label
  | none => throw (.bail missing)

/-- What precedes the first change: the backups that are taken, the binary's and the console's. -/
def backups (d : Depot) : Except CliError (String × String) := do
  (if r.root then .ok () else .error (.bail "此操作需要 root 权限，请使用 sudo 运行"))
  r.lock
  let binaryBackup ← r.latest d.binaryEntries "未找到 proxy-panel-hub 的备份文件"
  let webBackup ← r.latest d.webEntries "未找到 Hub web/dist 备份"
  pure (binaryBackup, webBackup)

/-- From the backups on. -/
def restore (binaryBackup webBackup : String) : UpgradeM Unit := do
  let wasActive ← isActive r.outcomes .hub
  optionally wasActive () (systemdStop r.outcomes)
  restoreBinary r.outcomes (some binaryBackup)
  restoreWeb r.outcomes (some webBackup)
  optionally wasActive () (restartService r.outcomes)

/-- `rollback hub`. -/
def rollback (d : Depot) : UpgradeM Unit := do
  let (binaryBackup, webBackup) ← lift (r.backups d)
  r.restore binaryBackup webBackup

def perform (d : Depot) : Except CliError Unit × Depot :=
  let x := r.rollback d ⟨d.machine, r.statusFile, r.record, [], false⟩
  (resultOf x, { d with machine := (after x).machine })

end RollbackRun

/-! ### Runs -/

inductive MaintenanceRun where
  | upgrade (r : UpgradeRun)
  | rollback (r : RollbackRun)

def MaintenanceRun.perform (d : Depot) : MaintenanceRun → Except CliError Unit × Depot
  | .upgrade r => r.perform d
  | .rollback r => r.perform d

/-- The machine after commands, whatever they return. -/
def Depot.after (d : Depot) (runs : List MaintenanceRun) : Depot :=
  runs.foldl (fun d run => (run.perform d).2) d

/-! ### What is installed -/

/-- A binary and the console of the same release. -/
structure Installed where
  binary : String
  web : Tree

/-- What is installed, what was installed when the last backups were made, and the releases
that have been installed so far. -/
structure Installation where
  current : Installed
  saved : Option Installed
  releases : List Installed

namespace Installation

/-- Backups are made. -/
def save (a : Installation) : Installation := { a with saved := some a.current }

/-- A release is installed. -/
def install (release : Installed) (a : Installation) : Installation :=
  { a with current := release, releases := release :: a.releases }

/-- The last backups are put back. -/
def goBack (a : Installation) : Installation := { a with current := a.saved.getD a.current }

/-- What is installed and saved are releases. -/
structure OfReleases (a : Installation) : Prop where
  current : a.current ∈ a.releases
  saved : ∀ s ∈ a.saved, s ∈ a.releases

end Installation

/-! ### The machine and the installation -/

section Represents

variable {V : Type} [LinearOrder V] (rank : String → V) (versionOf : String → String)

/-- The machine has what the installation says. -/
structure Represents (d : Depot) (a : Installation) : Prop where
  binary : d.machine.binary = some a.current.binary
  web : d.machine.web = some a.current.web
  binaries : Shelf rank d.binaryEntries d.machine.binaryBackups
    (a.saved.map fun s => (versionOf s.binary, s.binary))
  webs : Shelf rank d.webEntries d.machine.webBackups
    (a.saved.map fun s => (versionOf s.binary, s.web))
  later : ∀ s ∈ a.saved,
    rank (versionOf s.binary) < rank (versionOf a.current.binary) ∨ s = a.current

/-- The calls of an upgrade say what is so, its backup copies work, and where it fails it
recovers; it runs at a time after the ones of all backups, as by a clock that is not set back. -/
structure UpgradeRun.Clean (r : UpgradeRun) (d : Depot) : Prop where
  before : ∀ v, r.outcomes.installedBefore = .ok v → v = d.machine.binary.map versionOf
  installed : ∀ v binary, r.outcomes.installedAfter = .ok v → r.outcomes.newBinary = .ok binary →
    v = some (versionOf binary)
  order : ∀ v w c, r.outcomes.compareVersions v w = .ok c → c = compare (rank v) (rank w)
  backupBinary : r.outcomes.backupBinary.result = .ok ()
  backupWeb : r.outcomes.backupWeb.result = .ok ()
  recovery : ∀ found b e, locateResult r.outcomes .hub r.statusFile r.version = .ok (some found) →
    backUpResult r.outcomes .hub found d.machine = .ok b →
    replaceResult r.outcomes .hub found.targetVersion b.wasActive = .error e →
    recoverErrors r.outcomes .hub b = []
  now : ∀ e ∈ d.binaryEntries ++ d.webEntries, e.modified < r.now
  listing : ∀ entries, (r.list entries).Perm entries

/-- A rollback removes and copies what it is to remove and copy, also where it fails later on. -/
structure RollbackRun.Clean (r : RollbackRun) : Prop where
  removeBinary : r.outcomes.restoreRemoveBinary.result = .ok ()
  restoreBinary : r.outcomes.restoreBinary.result = .ok ()
  removeWeb : r.outcomes.restoreRemoveWeb.result = .ok ()
  restoreWeb : r.outcomes.restoreWeb.result = .ok ()
  listing : ∀ entries, (r.list entries).Perm entries

def MaintenanceRun.Clean (d : Depot) : MaintenanceRun → Prop
  | .upgrade r => r.Clean rank versionOf d
  | .rollback r => r.Clean

/-- Every command of a run is clean where it starts. -/
def CleanRun : Depot → List MaintenanceRun → Prop
  | _, [] => True
  | d, run :: runs => run.Clean rank versionOf d ∧ CleanRun (run.perform d).2 runs

end Represents

/-- What an upgrade to a release does: once the backups are made they are the last ones, and
once the new files are verified the release is installed. -/
def UpgradeRun.installEffect (r : UpgradeRun) (found : Found) (d : Depot) (a : Installation) :
    Installation :=
  match backUpResult r.outcomes .hub found d.machine with
  | .error _ => a
  | .ok b =>
    if r.reachesPrune found b then
      a.save.install ⟨found.newBinary, found.newWeb.getD fun _ => none⟩
    else a.save

def UpgradeRun.effect (r : UpgradeRun) (d : Depot) (a : Installation) : Installation :=
  match locateResult r.outcomes .hub r.statusFile r.version with
  | .error _ => a
  | .ok none => a
  | .ok (some found) => r.installEffect found d a

def RollbackRun.effect (r : RollbackRun) (a : Installation) : Installation :=
  if r.root = true ∧ r.lock = .ok () ∧ r.readDir = .ok () then a.goBack else a

def MaintenanceRun.effect (d : Depot) (a : Installation) : MaintenanceRun → Installation
  | .upgrade r => r.effect d a
  | .rollback r => r.effect a

def Installation.after (a : Installation) : Depot → List MaintenanceRun → Installation
  | _, [] => a
  | d, run :: runs => (run.effect d a).after (run.perform d).2 runs

/-! ### What an upgrade finds -/

section Found

variable {o : Outcomes}

theorem exists_of_fetched {fetched : String × Option Tree}
    (h : fetchResult o Component.hub = .ok fetched) :
    o.newBinary = .ok fetched.1 ∧ ∃ web, fetched.2 = some web := by
  obtain ⟨_, -, h⟩ := Except.bind_eq_ok h
  obtain ⟨_, -, h⟩ := Except.bind_eq_ok h
  obtain ⟨_, -, h⟩ := Except.bind_eq_ok h
  obtain ⟨_, -, h⟩ := Except.bind_eq_ok h
  obtain ⟨_, -, h⟩ := Except.bind_eq_ok h
  obtain ⟨_, -, h⟩ := Except.bind_eq_ok h
  obtain ⟨newBinary, hbinary, h⟩ := Except.bind_eq_ok h
  rw [if_pos (show Component.hub.withWeb = true from rfl)] at h
  cases hweb : o.newWeb with
  | none =>
    rw [hweb] at h
    cases h
  | some web =>
    rw [hweb] at h
    cases h
    exact ⟨hbinary, web, rfl⟩

/-- The release that replaces what is installed. -/
structure Upgrades (o : Outcomes) (found : Found) (current : Option String) : Prop where
  before : o.installedBefore = .ok current
  plan : planUpgrade o.compareVersions current found.targetVersion = .ok .proceed
  label : found.label = current.getD o.timestamp
  newBinary : o.newBinary = .ok found.newBinary
  newWeb : ∃ web, found.newWeb = some web

theorem upgrades_of_located {statusFile : Option String} {version : String} {found : Found}
    (h : locateResult o Component.hub statusFile version = .ok (some found)) :
    ∃ current, Upgrades o found current := by
  obtain ⟨_, -, h⟩ := Except.bind_eq_ok h
  obtain ⟨_, -, h⟩ := Except.bind_eq_ok h
  obtain ⟨release, -, h⟩ := Except.bind_eq_ok h
  obtain ⟨current, hbefore, h⟩ := Except.bind_eq_ok h
  obtain ⟨decision, hplan, h⟩ := Except.bind_eq_ok h
  cases decision with
  | skip =>
    obtain ⟨_, -, h⟩ := Except.bind_eq_ok h
    cases h
  | proceed =>
    obtain ⟨_, -, h⟩ := Except.bind_eq_ok h
    obtain ⟨fetched, hfetched, h⟩ := Except.bind_eq_ok h
    obtain ⟨hbinary, hweb⟩ := exists_of_fetched hfetched
    cases h
    exact ⟨current, hbefore, hplan, rfl, hbinary, hweb⟩

theorem verified_of_replaceResult {targetVersion : String} {wasActive : Bool}
    (h : replaceResult o Component.hub targetVersion wasActive = .ok ()) :
    ∃ actual, o.installedAfter = .ok (some actual) ∧
      o.compareVersions actual targetVersion = .ok .eq := by
  obtain ⟨_, -, h⟩ := Except.bind_eq_ok h
  obtain ⟨_, -, h⟩ := Except.bind_eq_ok h
  obtain ⟨_, -, h⟩ := Except.bind_eq_ok h
  obtain ⟨_, h, -⟩ := Except.bind_eq_ok h
  obtain ⟨installed, hinstalled, h⟩ := Except.bind_eq_ok h
  cases installed with
  | none => cases h
  | some actual =>
    obtain ⟨order, horder, h⟩ := Except.bind_eq_ok h
    cases order with
    | lt => cases h
    | eq => exact ⟨actual, hinstalled, horder⟩
    | gt => cases h

theorem lt_of_planUpgrade {current target : String}
    (h : planUpgrade o.compareVersions (some current) target = .ok .proceed) :
    o.compareVersions current target = .ok .lt := by
  rw [planUpgrade] at h
  cases horder : o.compareVersions current target with
  | error e =>
    rw [horder] at h
    cases h
  | ok order =>
    rw [horder] at h
    cases order with
    | lt => rfl
    | eq => cases h
    | gt => cases h

end Found

/-! ### What an upgrade does -/

section Upgrade

variable {V : Type} [LinearOrder V] {rank : String → V} {versionOf : String → String}
  {d : Depot} {a : Installation} {m : Machine}

/-- The machines have the same files. -/
structure SameFiles (m m' : Machine) : Prop where
  binary : m'.binary = m.binary
  web : m'.web = m.web
  binaryBackups : m'.binaryBackups = m.binaryBackups
  webBackups : m'.webBackups = m.webBackups

theorem Represents.of_sameFiles (h : Represents rank versionOf d a)
    (hm : SameFiles d.machine m) : Represents rank versionOf { d with machine := m } a := by
  refine ⟨hm.binary.trans h.binary, hm.web.trans h.web, ?_, ?_, h.later⟩
  · rw [hm.binaryBackups]
    exact h.binaries
  · rw [hm.webBackups]
    exact h.webs

theorem Represents.of_eq (h : Represents rank versionOf d a) (hm : m = d.machine) :
    Represents rank versionOf { d with machine := m } a := by
  rw [hm]
  exact h

/-- The last backup is of an older release than the installed one, or of the same. -/
theorem Represents.later_saved {α : Type} (h : Represents rank versionOf d a)
    (content : Installed → α) :
    ∀ s ∈ a.saved.map fun s => (versionOf s.binary, content s),
      rank s.1 < rank (versionOf a.current.binary) ∨
        s = (versionOf a.current.binary, content a.current) := by
  intro s hs
  obtain ⟨t, ht, rfl⟩ := Option.map_eq_some_iff.mp hs
  rcases h.later t ht with hlt | rfl
  · exact .inl hlt
  · exact .inr rfl

theorem copyInto_of_same {web : Tree} {destination : Option Tree}
    (h : destination = none ∨ destination = some web) : copyInto web destination = web := by
  funext path
  rw [copyInto]
  rcases h with rfl | rfl
  · exact Option.or_none
  · exact Option.or_self

/-- The machine with both backups. -/
def backedUp (label : String) (release : Installed) (m : Machine) : Machine :=
  (m.setBinaryBackup label (some release.binary)).setWebBackup label (some release.web)

theorem backUp_eq {o : Outcomes} {found : Found} {release : Installed} {w : World}
    (hdir : o.backupDir = .ok ()) (hbinary : o.backupBinary.result = .ok ())
    (hweb : o.backupWeb.result = .ok ()) (hm : w.machine.binary = some release.binary)
    (hm' : w.machine.web = some release.web)
    (hsame : copyInto release.web (w.machine.webBackups found.label) = release.web) :
    backUp o Component.hub found w =
      .ok ⟨some found.label, some found.label, w.machine.active && o.activeSeen⟩
        { w with machine := backedUp found.label release w.machine } := by
  have hput : ∀ {α : Type} {set : α → Machine → Machine} {write : Write α} {value : α} (w : World),
      write.result = .ok () → put set write value w =
        .ok () { w with machine := set value w.machine } := by
    intro α set write value w h
    rw [put, h]
  have hfirst : backupBinary o found.label w = .ok (some found.label)
      { w with machine := w.machine.setBinaryBackup found.label (some release.binary) } := by
    rw [backupBinary, bind_of_ok (show machine w = .ok w.machine w from rfl), hm]
    exact bind_of_ok (hput w hbinary)
  have hsecond : ∀ w' : World, w'.machine.web = some release.web →
      w'.machine.webBackups = w.machine.webBackups → backupWeb o found.label w' =
        .ok (some found.label)
          { w' with machine := w'.machine.setWebBackup found.label (some release.web) } := by
    intro w' hw' hbackups
    rw [backupWeb, bind_of_ok (show machine w' = .ok w'.machine w' from rfl), hw']
    refine (bind_of_ok (hput w' hweb)).trans ?_
    rw [hbackups, hsame]
    rfl
  rw [backUp, bind_of_ok (show lift o.backupDir w = .ok () w by rw [hdir]; rfl),
    bind_of_ok hfirst]
  change (backupWeb o found.label >>= _) _ = _
  rw [bind_of_ok (hsecond
    { w with machine := w.machine.setBinaryBackup found.label (some release.binary) } hm' rfl)]
  rfl

variable {r : UpgradeRun} {found : Found}

/-- **Making the backups.** -/
theorem represents_recordCopies (h : Represents rank versionOf d a)
    (hclean : r.Clean rank versionOf d) (hdir : r.outcomes.backupDir = .ok ())
    (hlabel : found.label = versionOf a.current.binary) :
    Represents rank versionOf
      (r.recordCopies found d.machine (backedUp found.label a.current d.machine) d) a.save := by
  have hnow : ∀ e ∈ d.binaryEntries ++ d.webEntries, e.modified < r.now := hclean.now
  have hbinaries := h.binaries.copy true
    (fun e he => hnow e (List.mem_append_left _ he)) (h.later_saved Installed.binary)
  have hwebs := h.webs.copy r.touched
    (fun e he => hnow e (List.mem_append_right _ he)) (h.later_saved Installed.web)
  rw [← hlabel] at hbinaries hwebs
  have hfirst : r.outcomes.backupDir = .ok () ∧ d.machine.binary.isSome = true :=
    ⟨hdir, by rw [h.binary]; rfl⟩
  have hsecond : r.outcomes.backupDir = .ok () ∧
      onlyIf d.machine.binary.isSome r.outcomes.backupBinary.result = .ok () ∧
      d.machine.web.isSome = true :=
    ⟨hdir, by rw [h.binary, hclean.backupBinary]; rfl, by rw [h.web]; rfl⟩
  have hcopies : r.recordCopies found d.machine (backedUp found.label a.current d.machine) d =
      ⟨backedUp found.label a.current d.machine,
        copied found.label r.now true (some a.current.binary) d.binaryEntries,
        copied found.label r.now r.touched (some a.current.web) d.webEntries⟩ := by
    rw [UpgradeRun.recordCopies, if_pos hfirst, if_pos hsecond]
    rw [show (backedUp found.label a.current d.machine).binaryBackups found.label =
      some a.current.binary from Function.update_self _ _ _]
    rw [show (backedUp found.label a.current d.machine).webBackups found.label =
      some a.current.web from Function.update_self _ _ _]
  rw [hcopies]
  refine ⟨h.binary, h.web, ?_, ?_, ?_⟩
  · rw [show (a.save.saved.map fun s => (versionOf s.binary, s.binary)) =
      some (found.label, a.current.binary) from by rw [hlabel]; rfl]
    exact hbinaries
  · rw [show (a.save.saved.map fun s => (versionOf s.binary, s.web)) =
      some (found.label, a.current.web) from by rw [hlabel]; rfl]
    exact hwebs
  · rintro s ⟨⟩
    exact .inr rfl

/-- **Pruning.** -/
theorem represents_prune (h : Represents rank versionOf d a)
    (hlisting : ∀ entries, (r.list entries).Perm entries) :
    Represents rank versionOf (r.prune d) a :=
  ⟨h.binary, h.web, h.binaries.prune (hlisting _) r.keeps, h.webs.prune (hlisting _) r.keeps,
    h.later⟩

theorem sameFiles_stopped (o : Outcomes) (component : Component) (b : BackedUp) (m : Machine) :
    SameFiles m (stopped o component b m) := by
  rw [stopped]
  split
  · exact ⟨rfl, rfl, rfl, rfl⟩
  · exact ⟨rfl, rfl, rfl, rfl⟩

/-- The machine after the new files are verified, whether the last status is written or not. -/
theorem machine_replace {o : Outcomes} {component : Component} {b : BackedUp} {w : World}
    (h : stageResult o w.statusFile "replacing" = .ok ())
    (hreplaced : replaceResult o component found.targetVersion b.wasActive = .ok ()) :
    (after (replace o component found b w)).machine =
      replaced component found b.wasActive (stopped o component b w.machine) := by
  obtain ⟨w₁, w₃, hat, hafter, -, hw⟩ := exists_tried o component found b h
  have hends := ends_replaceAndVerify o component w.statusFile found.newBinary found.newWeb
    found.targetVersion b.wasActive
  rw [hreplaced] at hends
  obtain ⟨w₂, hdone, -⟩ := hends.exists_ok (s := w₁) hat.1
  rw [hdone] at hafter
  cases hafter
  rw [hw, hreplaced]
  refine (leaves_stage (f := World.machine) ⟨fun _ _ => rfl, fun _ _ => rfl⟩ o "completed"
    "目标版本和服务状态验证通过" w₂).trans ?_
  rw [ok_of_replaceAndVerify o component hdone, ← hat.2]

theorem reachesPrune_iff {b : BackedUp} : r.reachesPrune found b = true ↔
    stageResult r.outcomes r.statusFile "replacing" = .ok () ∧
      replaceResult r.outcomes Component.hub found.targetVersion b.wasActive = .ok () := by
  rw [UpgradeRun.reachesPrune, Bool.and_eq_true, decide_eq_true_eq, decide_eq_true_eq]

/-- A recovery puts back what the backups have. -/
theorem sameFiles_recovered (h : Represents rank versionOf d a.save) {b : BackedUp}
    (hbinary : b.binary = some (versionOf a.current.binary))
    (hweb : b.web = some (versionOf a.current.binary))
    (hkept : Kept Component.hub b d.machine m) :
    SameFiles d.machine (recovered Component.hub b m) := by
  refine ⟨?_, ?_, hkept.binaryBackups, hkept.webBackups⟩
  · rw [recovered, hkept.binaryBackups, hbinary]
    exact (h.binaries.content _ rfl).trans h.binary.symm
  · rw [recovered, hkept.webBackups, hweb]
    exact (h.webs.content _ rfl).trans h.web.symm

/-- **From the backups on**: what fails leaves the old release, and what is verified is the new
one. -/
theorem represents_replace (h : Represents rank versionOf d a.save) {b : BackedUp} {w : World}
    (hm : w.machine = d.machine) (hstatus : w.statusFile = r.statusFile)
    (hbinary : b.binary = some (versionOf a.current.binary))
    (hweb : b.web = some (versionOf a.current.binary))
    (hnewWeb : ∃ web, found.newWeb = some web)
    (hlisting : ∀ entries, (r.list entries).Perm entries)
    (hlater : replaceResult r.outcomes Component.hub found.targetVersion b.wasActive = .ok () →
      rank (versionOf a.current.binary) < rank (versionOf found.newBinary))
    (hrecovery : ∀ e,
      replaceResult r.outcomes Component.hub found.targetVersion b.wasActive = .error e →
      recoverErrors r.outcomes Component.hub b = []) :
    Represents rank versionOf
      (if r.reachesPrune found b then
        r.prune { d with machine := (after (replace r.outcomes .hub found b w)).machine }
      else { d with machine := (after (replace r.outcomes .hub found b w)).machine })
      (if r.reachesPrune found b then
        a.save.install ⟨found.newBinary, found.newWeb.getD fun _ => none⟩
      else a.save) := by
  have hstopped := sameFiles_stopped r.outcomes Component.hub b w.machine
  by_cases hreach : r.reachesPrune found b = true
  · obtain ⟨hstage, hreplaced⟩ := reachesPrune_iff.mp hreach
    rw [← hstatus] at hstage
    rw [if_pos hreach, if_pos hreach, machine_replace hstage hreplaced]
    refine represents_prune ⟨rfl, ?_, ?_, ?_, ?_⟩ hlisting
    · obtain ⟨web, hsome⟩ := hnewWeb
      change found.newWeb = some (found.newWeb.getD _)
      rw [hsome]
      rfl
    · change Shelf rank d.binaryEntries
        (stopped r.outcomes Component.hub b w.machine).binaryBackups _
      rw [hstopped.binaryBackups, hm]
      exact h.binaries
    · change Shelf rank d.webEntries (stopped r.outcomes Component.hub b w.machine).webBackups _
      rw [hstopped.webBackups, hm]
      exact h.webs
    · rintro s ⟨⟩
      exact .inl (hlater hreplaced)
  · rw [if_neg hreach, if_neg hreach]
    refine h.of_sameFiles ?_
    cases hstage : stageResult r.outcomes w.statusFile "replacing" with
    | error e =>
      obtain ⟨w', hw', hmachine⟩ := exists_of_replacing_error r.outcomes .hub found b hstage
      rw [hw', ← hm]
      change SameFiles w.machine w'.machine
      rw [hmachine]
      exact hstopped
    | ok u =>
      cases hresult : replaceResult r.outcomes Component.hub found.targetVersion b.wasActive with
      | ok u =>
        rw [hstatus] at hstage
        exact absurd (reachesPrune_iff.mpr ⟨hstage, hresult⟩) hreach
      | error e =>
        obtain ⟨w', m, hw', hkept, hmachine⟩ := exists_of_recovered r.outcomes .hub found b hstage
          hresult (hrecovery e hresult)
        rw [hw']
        change SameFiles d.machine w'.machine
        rw [hmachine]
        rw [hm] at hkept
        exact sameFiles_recovered h hbinary hweb hkept

/-- The release that is verified is later than the one that is replaced. -/
theorem rank_lt_of_verified (hclean : r.Clean rank versionOf d) {current : String}
    {wasActive : Bool} (hup : Upgrades r.outcomes found (some current))
    (h : replaceResult r.outcomes Component.hub found.targetVersion wasActive = .ok ()) :
    rank current < rank (versionOf found.newBinary) := by
  obtain ⟨actual, hinstalled, hequal⟩ := verified_of_replaceResult h
  obtain ⟨⟩ := hclean.installed _ _ hinstalled hup.newBinary
  have hless := hclean.order _ _ _ (lt_of_planUpgrade hup.plan)
  have hsame := hclean.order _ _ _ hequal
  rw [compare_eq_iff_eq.mp hsame.symm]
  exact compare_lt_iff_lt.mp hless.symm

theorem represents_install (h : Represents rank versionOf d a)
    (hclean : r.Clean rank versionOf d) {w : World} (hm : w.machine = d.machine)
    (hstatus : w.statusFile = r.statusFile)
    (hlocated : locateResult r.outcomes Component.hub r.statusFile r.version = .ok (some found)) :
    Represents rank versionOf (r.install found w d).2 (r.installEffect found d a) := by
  obtain ⟨current, hup⟩ := upgrades_of_located hlocated
  have hcurrent : current = some (versionOf a.current.binary) := by
    rw [hclean.before current hup.before, h.binary]
    rfl
  rw [hcurrent] at hup
  have hlabel : found.label = versionOf a.current.binary := hup.label
  rw [UpgradeRun.install, UpgradeRun.installEffect]
  cases hdir : r.outcomes.backupDir with
  | error e =>
    have hbackUp : backUp r.outcomes Component.hub found w = .error e w :=
      bind_of_error (by rw [hdir]; rfl)
    have hresult : backUpResult r.outcomes Component.hub found d.machine = .error e := by
      rw [backUpResult, hdir]
      rfl
    have hnever : ∀ p : Prop, ¬ ((.error e : Except CliError Unit) = .ok () ∧ p) := by
      rintro p ⟨h, -⟩
      cases h
    have hnone : r.recordCopies found w.machine w.machine d = { d with machine := w.machine } := by
      rw [UpgradeRun.recordCopies, hdir, if_neg (hnever _), if_neg (hnever _)]
    rw [hbackUp, hresult]
    change Represents rank versionOf (r.recordCopies found w.machine w.machine d) a
    rw [hnone]
    exact h.of_eq hm
  | ok u =>
    have hsame : copyInto a.current.web (w.machine.webBackups found.label) = a.current.web := by
      rw [hm, hlabel]
      exact copyInto_of_same (h.webs.at_label (h.later_saved Installed.web))
    have hbackUp : backUp r.outcomes Component.hub found w = _ := backUp_eq hdir
      hclean.backupBinary hclean.backupWeb (hm ▸ h.binary) (hm ▸ h.web) hsame
    have hresult : backUpResult r.outcomes Component.hub found d.machine =
        .ok ⟨some found.label, some found.label, w.machine.active && r.outcomes.activeSeen⟩ := by
      rw [backUpResult, hdir, h.binary, h.web, hm]
      change (onlyIf true r.outcomes.backupBinary.result >>= fun _ =>
        onlyIf true r.outcomes.backupWeb.result >>= fun _ => _) = _
      rw [hclean.backupBinary, hclean.backupWeb]
      rfl
    rw [hbackUp, hresult]
    change Represents rank versionOf (if r.reachesPrune found _ then _ else _)
      (if r.reachesPrune found _ then _ else _)
    rw [hm]
    refine represents_replace (represents_recordCopies h hclean hdir hlabel) rfl hstatus
      (congrArg some hlabel) (congrArg some hlabel) hup.newWeb hclean.listing
      (rank_lt_of_verified hclean hup) fun e he => ?_
    rw [hm] at hresult
    exact hclean.recovery found _ e hlocated hresult he

/-- **The upgrade step.** -/
theorem represents_upgrade (h : Represents rank versionOf d a)
    (hclean : r.Clean rank versionOf d) :
    Represents rank versionOf (r.perform d).2 (r.effect d a) := by
  have hlocate := ends_locate r.outcomes .hub r.statusFile r.version d.machine
  have hat : At r.statusFile d.machine (r.world d.machine) := ⟨rfl, rfl⟩
  rw [UpgradeRun.perform, UpgradeRun.effect]
  cases hlocated : locateResult r.outcomes .hub r.statusFile r.version with
  | error e =>
    rw [hlocated] at hlocate
    obtain ⟨w, hw, -, hm⟩ := hlocate.exists_error hat
    rw [hw]
    exact h.of_eq hm
  | ok located =>
    rw [hlocated] at hlocate
    obtain ⟨w, hw, hstatus, hm⟩ := hlocate.exists_ok hat
    rw [hw]
    cases located with
    | none => exact h.of_eq hm
    | some found => exact represents_install h hclean hm hstatus hlocated

/-- **An upgrade with its backups' times is `performUpgrade`**: it ends the same way, and with
the same things installed. -/
theorem perform_eq_performUpgrade (r : UpgradeRun) (d : Depot) :
    (r.perform d).1 = resultOf (performUpgrade r.outcomes .hub r.version (r.world d.machine)) ∧
      SameInstalled .hub
        (after (performUpgrade r.outcomes .hub r.version (r.world d.machine))).machine
        (r.perform d).2.machine := by
  have hsame : ∀ m : Machine, SameInstalled Component.hub m m := fun m => ⟨rfl, fun _ => rfl, rfl⟩
  rw [performUpgrade_eq, UpgradeRun.perform]
  cases hlocate : locate r.outcomes .hub r.version (r.world d.machine) with
  | error e w =>
    rw [bind_of_error hlocate]
    exact ⟨rfl, hsame _⟩
  | ok located w =>
    rw [bind_of_ok hlocate]
    cases located with
    | none => exact ⟨rfl, hsame _⟩
    | some found =>
      change (r.install found w d).1 =
          resultOf ((backUp r.outcomes .hub found >>= replace r.outcomes .hub found) w) ∧
        SameInstalled Component.hub (World.machine (Effects.after
          ((backUp r.outcomes .hub found >>= replace r.outcomes .hub found) w)))
          (r.install found w d).2.machine
      rw [UpgradeRun.install]
      cases hbackUp : backUp r.outcomes .hub found w with
      | error e w' =>
        rw [bind_of_error hbackUp]
        exact ⟨rfl, hsame _⟩
      | ok b w' =>
        rw [bind_of_ok hbackUp]
        refine ⟨rfl, ?_⟩
        change SameInstalled Component.hub
          (World.machine (Effects.after (replace r.outcomes .hub found b w')))
          (Depot.machine (if r.reachesPrune found b then r.prune _ else _))
        split
        · exact ⟨rfl, fun _ => rfl, rfl⟩
        · exact hsame _

end Upgrade

/-! ### What a rollback does -/

section Rollback

variable {V : Type} [LinearOrder V] {rank : String → V} {versionOf : String → String}
  {d : Depot} {a : Installation} {r : RollbackRun}

theorem latest_eq_ok {entries : List Entry} {missing label : String}
    (h : r.latest entries missing = .ok label) :
    r.readDir = .ok () ∧ findLatestBackupIn (r.list entries) = some label := by
  obtain ⟨_, hread, h⟩ := Except.bind_eq_ok h
  refine ⟨hread, ?_⟩
  cases hfind : findLatestBackupIn (r.list entries) with
  | none =>
    rw [hfind] at h
    cases h
  | some found =>
    rw [hfind] at h
    cases h
    rfl

theorem goBack_of_none (h : a.saved = none) : a.goBack = a := by
  cases a
  cases h
  rfl

/-- The last backups are put back. -/
theorem Represents.goBack (h : Represents rank versionOf d a) {s : Installed}
    (hs : a.saved = some s) (active : Bool) :
    Represents rank versionOf
      { d with machine := { d.machine with binary := some s.binary, web := some s.web, active } }
      a.goBack := by
  have hcurrent : a.goBack.current = s := by
    rw [Installation.goBack, hs]
    rfl
  refine ⟨?_, ?_, h.binaries, h.webs, ?_⟩
  · rw [hcurrent]
  · rw [hcurrent]
  · intro t ht
    refine .inr ?_
    rw [hcurrent]
    exact Option.some.inj (ht.symm.trans hs)

theorem exists_stopped (o : Outcomes) (c : Bool) (w : World) :
    ∃ active, optionally c () (systemdStop o) w =
      .ok () { w with machine := w.machine.setActive active } := by
  cases c with
  | true => exact ⟨_, rfl⟩
  | false => exact ⟨w.machine.active, rfl⟩

/-- **A restore** that works, whatever becomes of the service. -/
theorem exists_restore (hclean : r.Clean) (binaryBackup webBackup : String) (w : World) :
    ∃ active, (after (r.restore binaryBackup webBackup w)).machine =
      { w.machine with
        binary := w.machine.binaryBackups binaryBackup
        web := w.machine.webBackups webBackup
        active } := by
  obtain ⟨active, hstop⟩ := exists_stopped r.outcomes
    (Component.hub.unit.isSome && (w.machine.active && r.outcomes.activeSeen)) w
  have hbinary := ends_restoreBinary r.outcomes w.statusFile (some binaryBackup)
  rw [restoreResult, hclean.removeBinary, hclean.restoreBinary] at hbinary
  obtain ⟨w₁, hw₁, hstatus₁⟩ :=
    hbinary.exists_ok (s := { w with machine := w.machine.setActive active }) rfl
  have hweb := ends_restoreWeb r.outcomes w.statusFile (some webBackup)
  rw [restoreResult, hclean.removeWeb, hclean.restoreWeb] at hweb
  obtain ⟨w₂, hw₂, -⟩ := hweb.exists_ok hstatus₁
  have hmachine : w₂.machine = { w.machine with
      binary := w.machine.binaryBackups binaryBackup
      web := w.machine.webBackups webBackup
      active } := by
    rw [ok_of_restoreWeb r.outcomes hw₂, ok_of_restoreBinary r.outcomes hw₁]
    rfl
  -- The restart changes nothing but the service.
  have hservice : Leaves (fun w => w.machine.setActive false) (optionally
      (Component.hub.unit.isSome && (w.machine.active && r.outcomes.activeSeen)) ()
      (restartService r.outcomes)) :=
    leaves_optionally (leaves_bind (leaves_put (fun _ _ => rfl) _ _) fun _ =>
      leaves_put (fun _ _ => rfl) _ _) _ _
  have hlast := hservice w₂
  have hactive : ∀ m m' : Machine, m.setActive false = m'.setActive false →
      m = { m' with active := m.active } := by
    rintro ⟨⟩ ⟨⟩ ⟨⟩
    rfl
  rw [RollbackRun.restore, bind_of_ok (show isActive r.outcomes .hub w = .ok _ w from rfl),
    bind_of_ok hstop, bind_of_ok hw₁, bind_of_ok hw₂]
  have hend := hactive _ _ hlast
  rw [hmachine] at hend
  exact ⟨_, hend⟩

/-- A restore that returns has put the backups in place. -/
theorem machine_of_restore {binaryBackup webBackup : String} {w w' : World}
    (h : r.restore binaryBackup webBackup w = .ok () w') :
    w'.machine.binary = w.machine.binaryBackups binaryBackup ∧
      w'.machine.web = w.machine.webBackups webBackup := by
  obtain ⟨wasActive, w₁, hseen, h⟩ := ok_of_bind h
  cases hseen
  obtain ⟨_, w₂, hstop, h⟩ := ok_of_bind h
  obtain ⟨active, hstopped⟩ := exists_stopped r.outcomes
    (Component.hub.unit.isSome && (w.machine.active && r.outcomes.activeSeen)) w
  cases hstop.symm.trans hstopped
  obtain ⟨_, w₃, hbinary, h⟩ := ok_of_bind h
  obtain ⟨_, w₄, hweb, h⟩ := ok_of_bind h
  rw [ok_of_optionally (ok_of_restartService r.outcomes) h, ok_of_restoreWeb r.outcomes hweb,
    ok_of_restoreBinary r.outcomes hbinary]
  split
  · exact ⟨rfl, rfl⟩
  · exact ⟨rfl, rfl⟩

/-- The conditions of a rollback hold once it has found the backups. -/
theorem backups_eq_ok {binaryBackup webBackup : String}
    (h : r.backups d = .ok (binaryBackup, webBackup)) :
    (r.root = true ∧ r.lock = .ok () ∧ r.readDir = .ok ()) ∧
      findLatestBackupIn (r.list d.binaryEntries) = some binaryBackup ∧
      findLatestBackupIn (r.list d.webEntries) = some webBackup := by
  obtain ⟨_, hroot, h⟩ := Except.bind_eq_ok h
  obtain ⟨_, hlock, h⟩ := Except.bind_eq_ok h
  obtain ⟨binary, hbinary, h⟩ := Except.bind_eq_ok h
  obtain ⟨web, hweb, h⟩ := Except.bind_eq_ok h
  cases h
  obtain ⟨hread, hbinary⟩ := latest_eq_ok hbinary
  refine ⟨⟨?_, hlock, hread⟩, hbinary, (latest_eq_ok hweb).2⟩
  cases hr : r.root with
  | true => rfl
  | false =>
    rw [hr] at hroot
    cases hroot

/-- Where there are last backups they are found. -/
theorem exists_backups (h : Represents rank versionOf d a)
    (hlisting : ∀ entries, (r.list entries).Perm entries) {s : Installed} (hs : a.saved = some s)
    (hstarts : r.root = true ∧ r.lock = .ok () ∧ r.readDir = .ok ()) :
    ∃ backups, r.backups d = .ok backups := by
  obtain ⟨hroot, hlock, hread⟩ := hstarts
  have hbinary := h.binaries.latest (hlisting d.binaryEntries)
  have hweb := h.webs.latest (hlisting d.webEntries)
  rw [hs] at hbinary hweb
  refine ⟨(versionOf s.binary, versionOf s.binary), ?_⟩
  rw [RollbackRun.backups, RollbackRun.latest, RollbackRun.latest, hroot, hlock, hread, hbinary,
    hweb]
  rfl

/-- The backups that are found are those of the last release that was replaced. -/
theorem Represents.of_backups (h : Represents rank versionOf d a)
    (hlisting : ∀ entries, (r.list entries).Perm entries) {binaryBackup webBackup : String}
    (hfound : r.backups d = .ok (binaryBackup, webBackup)) :
    ∃ s, a.saved = some s ∧ d.machine.binaryBackups binaryBackup = some s.binary ∧
      d.machine.webBackups webBackup = some s.web := by
  obtain ⟨-, hbinary, hweb⟩ := backups_eq_ok hfound
  rw [h.binaries.latest (hlisting _)] at hbinary
  rw [h.webs.latest (hlisting _)] at hweb
  cases hs : a.saved with
  | none =>
    rw [hs] at hbinary
    cases hbinary
  | some s =>
    have hcontent := h.binaries.content
    have hcontent' := h.webs.content
    rw [hs] at hbinary hweb hcontent hcontent'
    cases hbinary
    cases hweb
    exact ⟨s, rfl, hcontent _ rfl, hcontent' _ rfl⟩

/-- **The rollback step.** -/
theorem represents_rollback (h : Represents rank versionOf d a) (hclean : r.Clean) :
    Represents rank versionOf (r.perform d).2 (r.effect a) := by
  cases hfound : r.backups d with
  | error e =>
    have hfailed : r.rollback d ⟨d.machine, r.statusFile, r.record, [], false⟩ =
        .error e ⟨d.machine, r.statusFile, r.record, [], false⟩ :=
      bind_of_error (by rw [hfound]; rfl)
    have hunchanged : r.effect a = a := by
      rw [RollbackRun.effect]
      split
      · rename_i hstarts
        cases hs : a.saved with
        | none => exact goBack_of_none hs
        | some s =>
          obtain ⟨backups, hok⟩ := exists_backups h hclean.listing hs hstarts
          rw [hfound] at hok
          cases hok
      · rfl
    rw [hunchanged, RollbackRun.perform, hfailed]
    exact h.of_eq rfl
  | ok backups =>
    obtain ⟨s, hs, hbinary, hweb⟩ := h.of_backups hclean.listing hfound
    obtain ⟨active, hrestored⟩ := exists_restore hclean backups.1 backups.2
      ⟨d.machine, r.statusFile, r.record, [], false⟩
    have hrollback : r.rollback d ⟨d.machine, r.statusFile, r.record, [], false⟩ =
        r.restore backups.1 backups.2 ⟨d.machine, r.statusFile, r.record, [], false⟩ :=
      bind_of_ok (by rw [hfound]; rfl)
    rw [RollbackRun.effect, if_pos (backups_eq_ok hfound).1, RollbackRun.perform, hrollback]
    change Represents rank versionOf { d with machine := World.machine (after _) } _
    rw [hrestored, hbinary, hweb]
    exact h.goBack hs active

/-- **A rollback that succeeds** puts the last backups in place. -/
theorem restored_of_rollback (h : Represents rank versionOf d a)
    (hlisting : ∀ entries, (r.list entries).Perm entries) (hok : (r.perform d).1 = .ok ()) :
    ∃ s, a.saved = some s ∧ (r.perform d).2.machine.binary = some s.binary ∧
      (r.perform d).2.machine.web = some s.web := by
  have hend : ∃ w, r.rollback d ⟨d.machine, r.statusFile, r.record, [], false⟩ = .ok () w ∧
      (r.perform d).2 = { d with machine := w.machine } := by
    rw [RollbackRun.perform] at hok ⊢
    cases hrun : r.rollback d ⟨d.machine, r.statusFile, r.record, [], false⟩ with
    | error e w =>
      rw [hrun] at hok
      cases hok
    | ok u w => exact ⟨w, rfl, rfl⟩
  obtain ⟨w, hrun, hmachine⟩ := hend
  obtain ⟨⟨binaryBackup, webBackup⟩, w₀, hfound, hrun⟩ := ok_of_bind hrun
  have hbackups : r.backups d = .ok (binaryBackup, webBackup) := by
    cases hb : r.backups d with
    | error e =>
      rw [hb] at hfound
      cases hfound
    | ok backups =>
      rw [hb] at hfound
      cases hfound
      rfl
  cases ok_of_lift hfound
  obtain ⟨s, hs, hbinary, hweb⟩ := h.of_backups hlisting hbackups
  refine ⟨s, hs, ?_⟩
  obtain ⟨hrestored, hrestored'⟩ := machine_of_restore hrun
  rw [hmachine]
  exact ⟨hrestored.trans hbinary, hrestored'.trans hweb⟩

end Rollback

/-! ### Runs of commands -/

section Runs

variable {V : Type} [LinearOrder V] {rank : String → V} {versionOf : String → String}

theorem represents_perform {d : Depot} {a : Installation} (h : Represents rank versionOf d a)
    {run : MaintenanceRun} (hclean : run.Clean rank versionOf d) :
    Represents rank versionOf (run.perform d).2 (run.effect d a) := by
  cases run with
  | upgrade r => exact represents_upgrade h hclean
  | rollback r => exact represents_rollback h hclean

/-- **The machine after a run.** -/
theorem represents_run {runs : List MaintenanceRun} : ∀ {d : Depot} {a : Installation},
    Represents rank versionOf d a → CleanRun rank versionOf d runs →
    Represents rank versionOf (d.after runs) (a.after d runs) := by
  induction runs with
  | nil =>
    intro d a h _
    exact h
  | cons run runs ih =>
    intro d a h hclean
    exact ih (represents_perform h hclean.1) hclean.2

theorem Installation.OfReleases.effect {a : Installation} (h : a.OfReleases) (d : Depot)
    (run : MaintenanceRun) : (run.effect d a).OfReleases := by
  have hsave : a.save.OfReleases := ⟨h.current, by rintro s ⟨⟩; exact h.current⟩
  cases run with
  | upgrade r =>
    change (r.effect d a).OfReleases
    rw [UpgradeRun.effect]
    split
    · exact h
    · exact h
    · rw [UpgradeRun.installEffect]
      split
      · exact h
      · split
        · exact ⟨List.mem_cons_self, fun s hs => List.mem_cons_of_mem _ (hsave.saved s hs)⟩
        · exact hsave
  | rollback r =>
    change (r.effect a).OfReleases
    rw [RollbackRun.effect]
    split
    · refine ⟨?_, h.saved⟩
      rw [Installation.goBack]
      cases hs : a.saved with
      | none => exact h.current
      | some s => exact h.saved s hs
    · exact h

theorem Installation.OfReleases.run {runs : List MaintenanceRun} :
    ∀ {d : Depot} {a : Installation}, a.OfReleases → (a.after d runs).OfReleases := by
  induction runs with
  | nil =>
    intro d a h
    exact h
  | cons run runs ih =>
    intro d a h
    exact ih (h.effect d run)

/-- **A rollback restores one release.**  After any clean run of upgrades and rollbacks, a
rollback that succeeds leaves the binary and the console of one release that was installed
before, the one of the last backups. -/
theorem rollback_restores {d : Depot} {a : Installation} (h : Represents rank versionOf d a)
    (hreleases : a.OfReleases) {runs : List MaintenanceRun}
    (hclean : CleanRun rank versionOf d runs) {r : RollbackRun}
    (hlisting : ∀ entries, (r.list entries).Perm entries)
    (hok : (r.perform (d.after runs)).1 = .ok ()) :
    ∃ s ∈ (a.after d runs).releases, (a.after d runs).saved = some s ∧
      (r.perform (d.after runs)).2.machine.binary = some s.binary ∧
      (r.perform (d.after runs)).2.machine.web = some s.web := by
  obtain ⟨s, hs, hbinary, hweb⟩ := restored_of_rollback (represents_run h hclean) hlisting hok
  exact ⟨s, hreleases.run.saved s hs, hs, hbinary, hweb⟩

end Runs

/-! ### Two upgrades and their rollback -/

namespace OneRelease

def versionOf (binary : String) : String := if binary = "hub 1.1.0" then "1.1.0" else "1.0.0"

def rank (version : String) : Nat := if version = "1.1.0" then 1 else 0

def console : Tree := fun path => if path = "assets/app.js" then some "app" else none

def outcomes : Outcomes :=
  { FullDisk.outcomes with
    statusWrites := fun _ => .ok ()
    compareVersions := fun v w => .ok (compare (rank v) (rank w)), newWeb := some console
    moveBinary := ⟨.ok (), none⟩, chmod := .ok (), removeWeb := ⟨.ok (), none⟩
    webParent := .ok (), moveWeb := ⟨.ok (), none⟩, installedAfter := .ok (some "1.1.0")
    restart := ⟨.ok (), false⟩, stable := ⟨.ok (), false⟩
    restoreRemoveBinary := ⟨.ok (), none⟩, restoreBinary := ⟨.ok (), none⟩
    restoreRemoveWeb := ⟨.ok (), none⟩, restoreWeb := ⟨.ok (), none⟩
    recoverRestart := ⟨.ok (), false⟩, recoverStable := ⟨.ok (), false⟩ }

def upgrade : UpgradeRun where
  outcomes := outcomes
  version := "latest"
  statusFile := none
  record := UpgradeStatus.new default "hub" (some "latest")
  now := 9
  touched := false
  list := id
  keeps := fun _ => false

/-- An earlier upgrade whose new service does not come up. -/
def failing : UpgradeRun :=
  { upgrade with
    outcomes := { outcomes with stable := ⟨.error (.bail "service is not stable"), false⟩ }
    now := 7 }

/-- Both upgrades make their backups under the label 1.0.0. -/
def upgrades : List MaintenanceRun := [.upgrade failing, .upgrade upgrade]

def rollback : RollbackRun where
  outcomes := outcomes
  root := true
  lock := .ok ()
  readDir := .ok ()
  statusFile := none
  record := UpgradeStatus.new default "hub" none
  list := id

def first : Installed := ⟨"hub 1.0.0", FullDisk.console⟩

def start : Depot := ⟨FullDisk.world.machine, [], []⟩

/-- What the failed upgrade leaves. -/
def recovered : Depot := (failing.perform start).2

def installation : Installation := ⟨first, none, [first]⟩

theorem entries_recovered : recovered.binaryEntries = [⟨"1.0.0", 7⟩] ∧
    recovered.webEntries = [⟨"1.0.0", 7⟩] ∧ recovered.machine.binary = some "hub 1.0.0" :=
  ⟨rfl, rfl, rfl⟩

theorem newestFirst_singleton (e : Entry) : newestFirst [e] = [e] := List.mergeSort_singleton e

theorem removedBackups_singleton (e : Entry) (keeps : Entry → Bool) :
    removedBackups [e] keeps = [] := by
  rw [removedBackups, newestFirst_singleton]
  rfl

/-- The copy of the binary is newer, that of the console has the time of the first one. -/
theorem entries_upgraded : (start.after upgrades).binaryEntries = [⟨"1.0.0", 9⟩] ∧
    (start.after upgrades).webEntries = [⟨"1.0.0", 7⟩] := by
  have hkept : ∀ e : Entry, [e].filter (· ∉ removedBackups [e] upgrade.keeps) = [e] := by
    intro e
    rw [removedBackups_singleton]
    rfl
  exact ⟨hkept ⟨"1.0.0", 9⟩, hkept ⟨"1.0.0", 7⟩⟩

theorem ok_rollback : (rollback.perform (start.after upgrades)).1 = .ok () := by
  have hlatest : ∀ now, findLatestBackupIn [⟨"1.0.0", now⟩] = some "1.0.0" := by
    intro now
    rw [findLatestBackupIn, newestFirst_singleton]
    rfl
  have hbackups : rollback.backups (start.after upgrades) = .ok ("1.0.0", "1.0.0") := by
    rw [RollbackRun.backups, entries_upgraded.1, entries_upgraded.2, RollbackRun.latest,
      RollbackRun.latest, show ∀ entries, rollback.list entries = entries from fun _ => rfl,
      show ∀ entries, rollback.list entries = entries from fun _ => rfl, hlatest, hlatest]
    rfl
  have hrollback : ∀ w, rollback.rollback (start.after upgrades) w =
      rollback.restore "1.0.0" "1.0.0" w := by
    intro w
    have hlift : lift (rollback.backups (start.after upgrades)) w = .ok ("1.0.0", "1.0.0") w := by
      rw [hbackups]
      rfl
    exact bind_of_ok hlift
  rw [RollbackRun.perform, hrollback]
  rfl

theorem represents_start : Represents rank versionOf start installation where
  binary := rfl
  web := rfl
  binaries := ⟨List.nodup_nil, fun _ h => absurd rfl h, fun _ => rfl, by rintro s ⟨⟩,
    by rintro s ⟨⟩, by rintro s ⟨⟩⟩
  webs := ⟨List.nodup_nil, fun _ h => absurd rfl h, fun _ => rfl, by rintro s ⟨⟩,
    by rintro s ⟨⟩, by rintro s ⟨⟩⟩
  later := by rintro s ⟨⟩

theorem ofReleases : installation.OfReleases := ⟨List.mem_cons_self, by rintro s ⟨⟩⟩

/-- What the calls of both upgrades say. -/
theorem clean_of_binary {r : UpgradeRun} {d : Depot} {stable : Write Bool}
    (houtcomes : r.outcomes = { outcomes with stable }) (hlist : r.list = id)
    (hbinary : d.machine.binary = some "hub 1.0.0")
    (hnow : ∀ e ∈ d.binaryEntries ++ d.webEntries, e.modified < r.now) :
    r.Clean rank versionOf d where
  before := by
    rw [houtcomes, hbinary]
    rintro v ⟨⟩
    rfl
  installed := by
    rw [houtcomes]
    rintro v binary ⟨⟩ ⟨⟩
    rfl
  order := by
    rw [houtcomes]
    rintro v w c ⟨⟩
    rfl
  backupBinary := by rw [houtcomes]; rfl
  backupWeb := by rw [houtcomes]; rfl
  recovery := by
    rw [houtcomes]
    rintro found ⟨binary, web, wasActive⟩ e - - -
    cases binary <;> cases web <;> cases wasActive <;> rfl
  now := hnow
  listing := by
    rw [hlist]
    exact List.Perm.refl

theorem clean : CleanRun rank versionOf start upgrades := by
  refine ⟨clean_of_binary rfl rfl rfl (by rintro e ⟨⟩), clean_of_binary rfl rfl rfl ?_, trivial⟩
  change ∀ e ∈ recovered.binaryEntries ++ recovered.webEntries, e.modified < 9
  rw [entries_recovered.1, entries_recovered.2.1]
  decide

end OneRelease

theorem rollback_restores_oneRelease : ∃ s ∈ (OneRelease.installation.after OneRelease.start
      OneRelease.upgrades).releases,
    (OneRelease.installation.after OneRelease.start OneRelease.upgrades).saved = some s ∧
    (OneRelease.rollback.perform (OneRelease.start.after
      OneRelease.upgrades)).2.machine.binary = some s.binary ∧
    (OneRelease.rollback.perform (OneRelease.start.after
      OneRelease.upgrades)).2.machine.web = some s.web :=
  rollback_restores OneRelease.represents_start OneRelease.ofReleases OneRelease.clean
    List.Perm.refl OneRelease.ok_rollback

end ProxyPanel.Cli
