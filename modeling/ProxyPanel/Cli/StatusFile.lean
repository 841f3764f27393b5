import ProxyPanel.Cli.Upgrade
import ProxyPanel.Hub.SystemUpdate

/-!
# How a maintenance command ends in the status file

The Hub writes `running` before it launches `upgrade hub --status-file F` through
`systemd-run`, which is done as soon as the unit is started, and leaves the rest to the
command.  The command has a status record only after it has read its arguments, checked
for root and taken the maintenance lock; from there on every way out writes how it ended
(`exists_finished`).  Before, it writes nothing, and the file says `running` for good.
`endsTerminal_iff_started` carries this to the runs of the Hub.
-/

namespace ProxyPanel.Cli

open Hub.SystemUpdate

/-! ### What the Hub reads -/

def UpgradeOutcome.toMaintenance : UpgradeOutcome → MaintenanceOutcome
  | .running => .running
  | .succeeded => .succeeded
  | .failed => .failed
  | .rolledBack => .rolledBack

/-- The record as the Hub parses it. -/
def StatusRecord.toMaintenance (record : StatusRecord) : MaintenanceStatus where
  status := record.status.toMaintenance
  stage := record.stage
  component := record.component
  currentVersion := record.currentVersion
  targetVersion := record.targetVersion
  message := record.message
  startedAt := some record.startedAt
  finishedAt := record.finishedAt

/-- What a command that is done has reported. -/
def Exit.reported (x : Exit) : Option MaintenanceStatus :=
  (x.written.head?.filter fun record => record.status ≠ .running).map StatusRecord.toMaintenance

/-- The command of a release, as `update_arguments` launches it. -/
def launched (env : UpdateEnv) (o : CommandOutcomes) (release : Hub.SystemUpdate.Release)
    (m : Machine) : Exit :=
  upgrade o "hub" release.tag (some env.maintenanceStatusFile) m

/-- The command gets as far as its status record. -/
def CommandOutcomes.Started (o : CommandOutcomes) : Prop :=
  o.arguments = .ok () ∧ o.root = true ∧ o.lock = .ok ()

def Terminal (outcome : MaintenanceOutcome) : Prop :=
  outcome = .succeeded ∨ outcome = .failed ∨ outcome = .rolledBack

/-- **Maintenance has ended**: the Hub reads a terminal status, success exactly if the command
succeeded, and lets the next update pass. -/
structure EndsTerminal (env : UpdateEnv) (file : StatusFile) (result : Except CliError Unit) :
    Prop where
  terminal : ∀ now, ∃ s, readStatus env now file = .ok s ∧ Terminal s.status ∧
    (s.status = .succeeded ↔ result = .ok ())
  passes : ∀ now, ensureFileNotRunning env now file = .ok ()

/-! ### The last record of a command -/

theorem outside_statusFile : Outside World.statusFile where
  record _ _ := rfl
  written _ _ := rfl
  machine _ _ := rfl
  rolledBack _ _ := rfl

/-- A record that is finished is the last one that is written. -/
theorem exists_finish {o : CommandOutcomes} (hfinish : o.finishWrite = .ok ())
    (outcome : UpgradeOutcome) (message : String) {w : World} {F : String}
    (hfile : w.statusFile = some F) :
    ∃ w', finish o outcome message w = .ok () w' ∧
      ∃ record, w'.written.head? = some record ∧ record.status = outcome := by
  have hwrite : ∀ w' : World, w'.statusFile = some F → writeStatus o.finishWrite w' =
      .ok () { w' with written := w'.record :: w'.written } := by
    intro w' hw'
    rw [hfinish]
    unfold writeStatus
    rw [hw']
  exact ⟨_, hwrite { w with record := _ } hfile, _, rfl, rfl⟩

/-- **Every way out of a command that has a status record is in the status file.** -/
theorem exists_finished {o : CommandOutcomes} (hfinish : o.finishWrite = .ok ())
    (component : Component) (version : String) {w : World} {F : String}
    (hfile : w.statusFile = some F) :
    (∃ w', report o component version w = .ok () w' ∧
        ∃ record, w'.written.head? = some record ∧ record.status = .succeeded) ∨
      ∃ e w', report o component version w = .error e w' ∧
        ∃ record, w'.written.head? = some record ∧
          (record.status = .failed ∨ record.status = .rolledBack) := by
  have hleaves := outside_statusFile.performUpgrade o.toOutcomes component version w
  cases hperform : performUpgrade o.toOutcomes component version w with
  | ok u w₁ =>
    rw [hperform] at hleaves
    have hfile₁ : w₁.statusFile = some F := hleaves.trans hfile
    obtain ⟨w', hfinished, hrecord⟩ := exists_finish hfinish .succeeded "升级完成" hfile₁
    refine Or.inl ⟨w', ?_, hrecord⟩
    rw [report, hperform]
    exact hfinished
  | error e w₁ =>
    rw [hperform] at hleaves
    have hfile₁ : w₁.statusFile = some F := hleaves.trans hfile
    obtain ⟨w', hfinished, record, hhead, hstatus⟩ := exists_finish hfinish
      (if w₁.rolledBack then .rolledBack else .failed) e.text hfile₁
    refine Or.inr ⟨e, w', ?_, record, hhead, ?_⟩
    · rw [report, hperform]
      exact Effects.bind_of_ok (attempt_of_ok hfinished)
    · rw [hstatus]
      cases w₁.rolledBack
      · exact Or.inl rfl
      · exact Or.inr rfl

/-- A command that is not refused runs to its report. -/
theorem upgrade_of_started {o : CommandOutcomes} (hstarted : o.Started) (version F : String)
    (m : Machine) : upgrade o "hub" version (some F) m =
      match report o Component.hub version ⟨m, some F,
        UpgradeStatus.new o.startedAt Component.hub.name (some version), [], false⟩ with
      | .ok () w => ⟨.ok (), w.machine, w.written⟩
      | .error e w => ⟨.error e, w.machine, w.written⟩ := by
  obtain ⟨harguments, hroot, hlock⟩ := hstarted
  have hparse : Component.parse "hub" = .ok Component.hub := rfl
  rw [upgrade, harguments, hroot, hparse, hlock]
  rfl

/-- A command that is not refused has reported how it ended. -/
theorem exists_reported {o : CommandOutcomes} (hfinish : o.finishWrite = .ok ())
    (hstarted : o.Started) (version : String) (F : String) (m : Machine) :
    ∃ s, (upgrade o "hub" version (some F) m).reported = some s ∧ Terminal s.status ∧
      (s.status = .succeeded ↔ (upgrade o "hub" version (some F) m).result = .ok ()) := by
  have hreported : ∀ {record : StatusRecord} {x : Exit}, x.written.head? = some record →
      record.status ≠ .running → x.reported = some record.toMaintenance := by
    intro record x hhead hstatus
    rw [Exit.reported, hhead, Option.filter_some, if_pos (decide_eq_true hstatus)]
    rfl
  have hfile : (World.mk m (some F)
      (UpgradeStatus.new o.startedAt Component.hub.name (some version)) [] false).statusFile =
      some F := rfl
  rw [upgrade_of_started hstarted]
  rcases exists_finished hfinish Component.hub version hfile with
    ⟨w', hreport, record, hhead, hstatus⟩ | ⟨e, w', hreport, record, hhead, hstatus⟩ <;>
    rw [hreport]
  · refine ⟨record.toMaintenance, hreported hhead (by rw [hstatus]; decide), ?_, ?_⟩
    · exact Or.inl (by rw [StatusRecord.toMaintenance, hstatus]; rfl)
    · exact iff_of_true (by rw [StatusRecord.toMaintenance, hstatus]; rfl) rfl
  · have hne : record.status ≠ .running ∧ record.status ≠ .succeeded := by
      rcases hstatus with h | h <;> rw [h] <;> decide
    refine ⟨record.toMaintenance, hreported hhead hne.1, Or.inr ?_, ?_⟩
    · rcases hstatus with h | h
      · exact Or.inl (by rw [StatusRecord.toMaintenance, h]; rfl)
      · exact Or.inr (by rw [StatusRecord.toMaintenance, h]; rfl)
    · refine iff_of_false (fun hsucceeded => ?_) (fun h => by cases h)
      rw [StatusRecord.toMaintenance] at hsucceeded
      rcases hstatus with h | h <;> rw [h] at hsucceeded <;> cases hsucceeded

/-- A command that is refused has reported nothing. -/
theorem reported_of_not_started {o : CommandOutcomes} (h : ¬ o.Started) (version : String)
    (statusFile : Option String) (m : Machine) :
    (upgrade o "hub" version statusFile m).reported = none := by
  have hparse : Component.parse "hub" = .ok Component.hub := rfl
  cases harguments : o.arguments with
  | error e => rw [upgrade, harguments]; rfl
  | ok u =>
    cases hroot : o.root with
    | false => rw [upgrade, harguments, hroot]; rfl
    | true =>
      cases hlock : o.lock with
      | error e => rw [upgrade, harguments, hroot, hparse, hlock]; rfl
      | ok u' => exact absurd ⟨harguments, hroot, hlock⟩ h

/-! ### The runs of the Hub -/

/-- A terminal status is read as it is and lets the next update pass. -/
theorem endsTerminal_of_status {env : UpdateEnv} {s : MaintenanceStatus}
    {result : Except CliError Unit} (hs : Terminal s.status)
    (hresult : s.status = .succeeded ↔ result = .ok ()) : EndsTerminal env (.status s) result := by
  have hread : ∀ now, readStatus env now (.status s) = .ok s := by
    intro now
    have hne : s.status ≠ .running := by
      rcases hs with h | h | h <;> rw [h] <;> decide
    rw [readStatus, if_neg hne]
  refine ⟨fun now => ⟨s, hread now, hs, hresult⟩, fun now => ?_⟩
  have hdone : s.isInProgress = false := by
    rw [MaintenanceStatus.isInProgress]
    rcases hs with h | h | h <;> rw [h] <;> decide
  rw [ensureFileNotRunning, hread]
  simp [bind, Except.bind, hdone, pure, Except.pure]

/-- **When maintenance ends**: in every run of the Hub, a command that exits leaves the file
terminal if and only if it read its arguments, runs as root and got the maintenance lock. -/
theorem endsTerminal_iff_started {env : UpdateEnv} {init st st' : State} {as : List Action}
    (hinit : Initial init) (hrun : Run.run (step env) init as = some st) {r : RequestId}
    {o : CommandOutcomes} (hfinish : o.finishWrite = .ok ()) {release : Hub.SystemUpdate.Release}
    {m : Machine}
    (hexit : step env st (.report r (launched env o release m).reported) = some st') :
    EndsTerminal env st'.file (launched env o release m).result ↔ o.Started := by
  have hinv : Inv st := Run.inv_of_run (fun _ _ _ h hstep => Inv.step h hstep) hinit.inv hrun
  have hdone : (st.launches r).command = .done := by
    rw [step] at hexit
    split at hexit
    · assumption
    · cases hexit
  rw [step, hdone] at hexit
  constructor
  · intro hends
    by_contra hnot
    rw [launched, reported_of_not_started hnot] at hexit
    cases hexit
    exact not_busy_of_ensure (hends.passes default) (hinv.busy r (.inr (.inr hdone)))
  · intro hstarted
    obtain ⟨s, hreported, hs, hresult⟩ :=
      exists_reported hfinish hstarted release.tag env.maintenanceStatusFile m
    rw [launched, hreported] at hexit
    cases hexit
    exact endsTerminal_of_status hs hresult

/-! ### A command that finds the lock taken -/

namespace LockHeld

def offline : CliError := .bail "error sending request"

def noWrite {α : Type} (left : α) : Write α := ⟨.error offline, left⟩

/-- Nothing but the status file can be reached. -/
def outcomes : Outcomes where
  statusWrites _ := .ok ()
  releases := .ok ()
  latestStable := .error offline
  byTag _ := .error offline
  installedBefore := .error offline
  compareVersions _ _ := .error offline
  releaseArch := .error offline
  httpClient := .error offline
  tempDir := .error offline
  downloaded := .error offline
  extractDir := .error offline
  extracted := .error offline
  newBinary := .error offline
  newWeb := none
  timestamp := "20260101000000"
  backupDir := .error offline
  backupBinary := noWrite none
  backupWeb := noWrite none
  activeSeen := false
  stop := false
  moveBinary := noWrite none
  chmod := .error offline
  removeWeb := noWrite none
  webParent := .error offline
  moveWeb := noWrite none
  installedAfter := .error offline
  restart := noWrite false
  stable := noWrite false
  restoreRemoveBinary := noWrite none
  restoreBinary := noWrite none
  restoreRemoveWeb := noWrite none
  restoreWeb := noWrite none
  recoverRestart := noWrite false
  recoverStable := noWrite false

/-- A command for which everything is in order but the release cannot be looked up. -/
def command : CommandOutcomes :=
  { outcomes with
    arguments := .ok (), root := true, lock := .ok (), startedAt := default
    finishedAt := default, finishWrite := .ok () }

/-- The same while another maintenance command runs. -/
def locked : CommandOutcomes :=
  { command with lock := .error (.bail
      "另一个 install/upgrade/rollback 正在运行（锁文件: /opt/proxy-panel/maintenance.lock）") }

def release : Hub.SystemUpdate.Release := ⟨"v1.1.0", ⟨"1.1.0", "", ""⟩⟩

def machine : Machine := ⟨none, none, false, fun _ => none, fun _ => none⟩

/-- An update is started, and its command is done. -/
def steps : List Action :=
  [.begin 0, TwoRequests.go 0, TwoRequests.go 0, TwoRequests.go 0, TwoRequests.go 0,
    TwoRequests.go 0, TwoRequests.go 0, TwoRequests.go 0, .startUnit 0, .launcherExit 0,
    .commandDone 0]

end LockHeld

/-- The status stays at `running` for good. -/
theorem locked_command_reports_nothing : ¬ ∀ (env : UpdateEnv) (init st st' : State)
    (as : List Action) (r : RequestId) (o : CommandOutcomes)
    (release : Hub.SystemUpdate.Release) (m : Machine),
    Initial init → Run.run (step env) init as = some st → o.finishWrite = .ok () →
    step env st (.report r (launched env o release m).reported) = some st' →
    EndsTerminal env st'.file (launched env o release m).result := by
  intro h
  have hends := h TwoRequests.env TwoRequests.init _ _ LockHeld.steps 0 LockHeld.locked
    LockHeld.release LockHeld.machine TwoRequests.initial_init rfl rfl rfl
  have hpasses := hends.passes ⟨0, 0⟩
  cases hpasses

theorem endsTerminal_iff_started_offline : ∃ st st',
    Run.run (step TwoRequests.env) TwoRequests.init LockHeld.steps = some st ∧
      step TwoRequests.env st (.report 0
        (launched TwoRequests.env LockHeld.command LockHeld.release LockHeld.machine).reported) =
        some st' ∧
      EndsTerminal TwoRequests.env st'.file
        (launched TwoRequests.env LockHeld.command LockHeld.release LockHeld.machine).result :=
  ⟨_, _, rfl, rfl, (@endsTerminal_iff_started _ _ _ _ LockHeld.steps TwoRequests.initial_init rfl 0
    LockHeld.command rfl _ _ rfl).mpr ⟨rfl, rfl, rfl⟩⟩

end ProxyPanel.Cli
