import Mathlib.Logic.Function.Basic
import ProxyPanel.Common.Protocol
import ProxyPanel.Lib.Calendar
import ProxyPanel.Lib.Run

/-!
# Updates of the Hub

`start_update` launches a maintenance command through systemd.  An atomic flag is held
until the launcher exits, and a status file says whether a command is under way; the
command rewrites the file while it runs.  A restart of the Hub loses the flag and the
requests, and neither the launcher nor the command.  The exit of a launcher is always
reported to the task that waits for it.
-/

namespace ProxyPanel.Hub.SystemUpdate

open Run

/-! ### The status file -/

inductive MaintenanceOutcome where
  | idle
  | running
  | succeeded
  | failed
  | rolledBack
  | stale
  deriving DecidableEq

structure MaintenanceStatus where
  status : MaintenanceOutcome
  stage : String
  component : String
  currentVersion : Option String
  targetVersion : Option String
  message : String
  startedAt : Option DateTime
  finishedAt : Option DateTime

namespace MaintenanceStatus

def idle (currentVersion : String) : MaintenanceStatus :=
  ⟨.idle, "idle", "hub", some currentVersion, none, "", none, none⟩

def running (currentVersion targetVersion : String) (now : DateTime) : MaintenanceStatus :=
  ⟨.running, "launching", "hub", some currentVersion, some targetVersion,
    "update submitted to systemd", some now, none⟩

/-- `MaintenanceStatus::failed`. -/
def fail (s : MaintenanceStatus) (message : String) (now : DateTime) : MaintenanceStatus :=
  { s with status := .failed, stage := "launching", message := message, finishedAt := some now }

def isInProgress (s : MaintenanceStatus) : Bool := s.status = .running ∨ s.status = .stale

end MaintenanceStatus

/-- What stands in the file system at the path of the status file. -/
inductive StatusFile where
  | missing
  | unreadable (error : String)
  | invalid (error : String)
  | status (s : MaintenanceStatus)

structure SemVersion where
  release : String
  pre : String
  build : String
  deriving DecidableEq

structure Release where
  tag : String
  version : SemVersion

/-- The configuration of the Hub, and how versions are read, compared and printed. -/
structure UpdateEnv where
  maintenanceEnabled : Bool
  maintenanceSudoPath : String
  maintenanceSystemdRunPath : String
  maintenanceCliPath : String
  maintenanceStatusFile : String
  releaseRepo : String
  currentVersion : String
  parseVersion : String → PanelResult SemVersion
  versionLt : SemVersion → SemVersion → Bool
  versionToString : SemVersion → String

def staleAfterMinutes : Int := 30

section

variable (env : UpdateEnv)

def invalidStatusFile (error : String) : ApiError :=
  ⟨500, "invalid_status_file",
    "invalid maintenance status file " ++ env.maintenanceStatusFile ++ ": " ++ error⟩

/-- `read_status`. -/
def readStatus (now : DateTime) : StatusFile → ApiResult MaintenanceStatus
  | .missing => .ok (.idle env.currentVersion)
  | .unreadable error => .error (.internal
      ("failed to read maintenance status " ++ env.maintenanceStatusFile ++ ": " ++ error))
  | .invalid error => .error (invalidStatusFile env error)
  | .status s =>
    if s.status = .running then
      match s.startedAt with
      | none => .error (invalidStatusFile env "running status has no started_at")
      | some startedAt =>
        if now.nanos - startedAt.nanos > staleAfterMinutes * 60 * 1000000000 then
          .ok { s with status := .stale,
                       message := "running status exceeded 30 minutes; manual verification required" }
        else .ok s
    else .ok s

/-- The steps of `write_status` that can fail, before the file is replaced. -/
inductive WriteFailure where
  | directory (parent error : String)
  | serialize (error : String)
  | create (temporary error : String)
  | write (temporary error : String)
  | sync (temporary error : String)
  | replace (error : String)

def WriteFailure.toError : WriteFailure → ApiError
  | .directory parent error => .internal
      ("failed to create maintenance status directory " ++ parent ++ ": " ++ error)
  | .serialize error => .internal ("failed to serialize maintenance status: " ++ error)
  | .create temporary error => .internal
      ("failed to create maintenance status " ++ temporary ++ ": " ++ error)
  | .write temporary error => .internal
      ("failed to write maintenance status " ++ temporary ++ ": " ++ error)
  | .sync temporary error => .internal
      ("failed to sync maintenance status " ++ temporary ++ ": " ++ error)
  | .replace error => .internal
      ("failed to replace maintenance status " ++ env.maintenanceStatusFile ++ ": " ++ error)

/-! ### Releases -/

inductive Lookup where
  | badRepository (error : PanelError)
  | failed (error : PanelError)
  | found (release : Release)

def releaseValidationError (error : PanelError) : ApiError :=
  .badRequest "invalid_target_version" error.toStr

def releaseError (error : PanelError) : ApiError :=
  match error with
  | .validation _ => releaseValidationError error
  | _ => ⟨502, "release_query_failed", error.toStr⟩

/-- `latest_release` and `release_by_tag`. -/
def lookUp : Lookup → ApiResult Release
  | .badRepository error => .error (.internal
      ("invalid Hub release repository configuration: " ++ error.toStr))
  | .failed error => .error (releaseError error)
  | .found release => .ok release

def validateTarget (release : Release) : ApiResult Unit := do
  let tagVersion ← (env.parseVersion release.tag).mapError releaseValidationError
  let current ← (env.parseVersion env.currentVersion).mapError releaseValidationError
  unless env.versionLt current tagVersion do
    throw (.badRequest "no_update_available" "target version is not newer than the running Hub")
  if tagVersion ≠ release.version ∨ release.version.pre ≠ "" then
    throw (.badRequest "invalid_target_version"
      "target must be a stable release with a matching semantic-version tag")

def updateArguments (release : Release) : List String :=
  ["-n", env.maintenanceSystemdRunPath, "--unit=proxy-panel-hub-update", "--collect",
    env.maintenanceCliPath, "upgrade", "hub", "--version", release.tag, "--repo", env.releaseRepo,
    "--status-file", env.maintenanceStatusFile]

/-! ### Requests, launchers and commands -/

abbrev RequestId := Nat

def maintenanceDisabled : ApiError :=
  ⟨403, "maintenance_disabled", "Hub-controlled maintenance is disabled"⟩

def updateInProgress : ApiError :=
  ⟨409, "update_in_progress",
    "a Hub update is already running or requires manual verification"⟩

/-- Where a `start_update` stands.  From `waiting` on the response is sent, and what goes
on is the task that waits for the launcher. -/
inductive Phase where
  | idle
  | checkingFlag
  | checkingFile
  | lookingUp
  | acquiring (release : Release)
  | checkingAgain (release : Release)
  | writing (release : Release)
  | spawning (release : Release) (running : MaintenanceStatus)
  | recordingFailure (running : MaintenanceStatus) (error : String)
  | releasing (error : ApiError)
  | refused (error : ApiError)
  | waiting (running : MaintenanceStatus)
  | readingResult (running : MaintenanceStatus) (message : String)
  | writingResult (running : MaintenanceStatus) (message : String)
  | finishing (running : MaintenanceStatus)
  | accepted (running : MaintenanceStatus)
  | lost

/-- The response of a request. -/
def Phase.response : Phase → Option (ApiResult MaintenanceStatus)
  | .refused error => some (.error error)
  | .waiting running | .readingResult running _ | .writingResult running _ | .finishing running
  | .accepted running => some (.ok running)
  | _ => none

inductive Launcher where
  | unused
  /-- The unit is not started yet. -/
  | starting (arguments : List String)
  | started
  | exited (success : Bool)

/-- A command may be done without having reported it. -/
inductive Command where
  | unused
  | running
  | done
  | ended

/-- What a request launched. -/
structure Launch where
  launcher : Launcher
  command : Command

structure State where
  updateInProgress : Bool
  file : StatusFile
  requests : RequestId → Phase
  launches : RequestId → Launch

/-- What a step of a request learns from outside. -/
structure Outcomes where
  now : DateTime
  lookup : Lookup
  write : Except WriteFailure Unit
  spawn : Except String Unit
  exitStatus : String

inductive Action where
  | begin (r : RequestId)
  | advance (r : RequestId) (o : Outcomes)
  /-- The launcher starts the unit. -/
  | startUnit (r : RequestId)
  | launcherExit (r : RequestId)
  /-- A running command writes its stage. -/
  | writeStage (r : RequestId) (stage : MaintenanceStatus)
  | commandDone (r : RequestId)
  /-- A command that is done writes how it ended, or exits without. -/
  | report (r : RequestId) (result : Option MaintenanceStatus)
  | restartHub

namespace State

variable (st : State)

def setPhase (r : RequestId) (phase : Phase) : State :=
  { st with requests := Function.update st.requests r phase }

def setLaunch (r : RequestId) (launch : Launch) : State :=
  { st with launches := Function.update st.launches r launch }

end State

/-- `write_status`: the file is replaced or left as it is. -/
def writeStatus (file : StatusFile) (status : MaintenanceStatus) :
    Except WriteFailure Unit → StatusFile × ApiResult Unit
  | .ok () => (.status status, .ok ())
  | .error failure => (file, .error (failure.toError env))

/-- The error of `ensure_file_not_running`. -/
def ensureFileNotRunning (now : DateTime) (file : StatusFile) : ApiResult Unit := do
  let status ← readStatus env now file
  if status.isInProgress then throw updateInProgress

/-- **The next step of a request**, and of the task that waits for its launcher. -/
def advance (st : State) (r : RequestId) (o : Outcomes) : Option State :=
  match st.requests r with
  | .idle | .refused _ | .accepted _ | .lost => none
  | .checkingFlag =>
    if st.updateInProgress then some (st.setPhase r (.refused updateInProgress))
    else some (st.setPhase r .checkingFile)
  | .checkingFile =>
    match ensureFileNotRunning env o.now st.file with
    | .ok () => some (st.setPhase r .lookingUp)
    | .error e => some (st.setPhase r (.refused e))
  | .lookingUp =>
    match (do let release ← lookUp o.lookup; validateTarget env release; pure release :
        ApiResult Release) with
    | .ok release => some (st.setPhase r (.acquiring release))
    | .error e => some (st.setPhase r (.refused e))
  | .acquiring release =>
    -- `try_begin_update` is one compare-and-exchange.
    if st.updateInProgress then some (st.setPhase r (.refused updateInProgress))
    else some { st.setPhase r (.checkingAgain release) with updateInProgress := true }
  | .checkingAgain release =>
    match ensureFileNotRunning env o.now st.file with
    | .ok () => some (st.setPhase r (.writing release))
    | .error e => some (st.setPhase r (.releasing e))
  | .writing release =>
    let running := MaintenanceStatus.running env.currentVersion
      (env.versionToString release.version) o.now
    match writeStatus env st.file running o.write with
    | (file, .ok ()) => some { st.setPhase r (.spawning release running) with file := file }
    | (file, .error e) => some { st.setPhase r (.releasing e) with file := file }
  | .spawning release running =>
    match o.spawn with
    | .ok () => some ((st.setLaunch r ⟨.starting (updateArguments env release), .unused⟩).setPhase r
        (.waiting running))
    | .error e => some (st.setPhase r (.recordingFailure running e))
  | .recordingFailure running e =>
    let message := "failed to spawn maintenance command: " ++ e
    some { st.setPhase r (.releasing (.internal message)) with
      file := (writeStatus env st.file (running.fail message o.now) o.write).1 }
  | .releasing e => some { st.setPhase r (.refused e) with updateInProgress := false }
  | .waiting running =>
    match (st.launches r).launcher with
    | .exited true => some (st.setPhase r (.finishing running))
    | .exited false =>
      some (st.setPhase r (.readingResult running
        ("maintenance command exited with " ++ o.exitStatus)))
    | _ => none
  | .readingResult running message =>
    match readStatus env o.now st.file with
    | .ok current =>
      if current.status = .running then some (st.setPhase r (.writingResult running message))
      else some (st.setPhase r (.finishing running))
    | .error _ => some (st.setPhase r (.finishing running))
  | .writingResult running message =>
    some { st.setPhase r (.finishing running) with
      file := (writeStatus env st.file (running.fail message o.now) o.write).1 }
  | .finishing running =>
    some { st.setPhase r (.accepted running) with updateInProgress := false }

/-- A request is there after a restart only as far as it was answered. -/
def Phase.restarted : Phase → Phase
  | .idle => .idle
  | .refused e => .refused e
  | .waiting running | .readingResult running _ | .writingResult running _ | .finishing running
  | .accepted running => .accepted running
  | _ => .lost

/-- **A step of the Hub, its launchers and the commands.**  A launcher succeeds if and only
if it started the unit, and a command writes that it ended only when it is done. -/
def step (st : State) : Action → Option State
  | .begin r =>
    match st.requests r with
    | .idle =>
      if env.maintenanceEnabled then some (st.setPhase r .checkingFlag)
      else some (st.setPhase r (.refused maintenanceDisabled))
    | _ => none
  | .advance r o => advance env st r o
  | .startUnit r =>
    match (st.launches r).launcher with
    | .starting _ => some (st.setLaunch r ⟨.started, .running⟩)
    | _ => none
  | .launcherExit r =>
    match (st.launches r).launcher with
    | .starting _ => some (st.setLaunch r { st.launches r with launcher := .exited false })
    | .started => some (st.setLaunch r { st.launches r with launcher := .exited true })
    | _ => none
  | .writeStage r stage =>
    match (st.launches r).command with
    | .running => if stage.status = .running then some { st with file := .status stage } else none
    | _ => none
  | .commandDone r =>
    match (st.launches r).command with
    | .running => some (st.setLaunch r { st.launches r with command := .done })
    | _ => none
  | .report r result =>
    match (st.launches r).command with
    | .done =>
      let st := st.setLaunch r { st.launches r with command := .ended }
      match result with
      | some status => some { st with file := .status status }
      | none => some st
    | _ => none
  | .restartHub =>
    some { st with updateInProgress := false, requests := fun r => (st.requests r).restarted }

end

/-! ### The invariant -/

/-- The phases in which the flag is held. -/
def Phase.Holds : Phase → Prop
  | .checkingAgain _ | .writing _ | .spawning _ _ | .recordingFailure _ _ | .releasing _
  | .waiting _ | .readingResult _ _ | .writingResult _ _ | .finishing _ => True
  | _ => False

def Phase.Launched : Phase → Prop
  | .waiting _ | .readingResult _ _ | .writingResult _ _ | .finishing _ | .accepted _ => True
  | _ => False

/-- The launch may still start a unit or write the file. -/
def Launch.Active (l : Launch) : Prop :=
  (∃ arguments, l.launcher = .starting arguments) ∨ l.command = .running ∨ l.command = .done

/-- Only a launcher that started the unit has a command. -/
def Launch.Consistent (l : Launch) : Prop :=
  match l.launcher with
  | .unused | .starting _ | .exited false => l.command = .unused
  | .started | .exited true => True

def Launch.none : Launch := ⟨.unused, .unused⟩

def StatusFile.Busy (file : StatusFile) : Prop := ∃ s, file = .status s ∧ s.isInProgress = true

/-- What a phase relies on: nothing is under way when the file is written. -/
def Safe (st : State) (r : RequestId) : Phase → Prop
  | .writing _ | .recordingFailure _ _ | .readingResult _ _ | .writingResult _ _ =>
    ∀ r', ¬ (st.launches r').Active
  | .spawning _ _ => (∀ r', ¬ (st.launches r').Active) ∧ st.file.Busy
  | .waiting _ => ∀ r', (st.launches r').Active → r' = r
  | _ => True

/-- **The invariant of maintenance.**  Whoever is under way is alone, and the file says so. -/
structure Inv (st : State) : Prop where
  flag : ∀ r, (st.requests r).Holds → st.updateInProgress = true
  holder : ∀ r r', (st.requests r).Holds → (st.requests r').Holds → r = r'
  busy : ∀ r, (st.launches r).Active → st.file.Busy
  active : ∀ r r', (st.launches r).Active → (st.launches r').Active → r = r'
  safe : ∀ r, Safe st r (st.requests r)
  launched : ∀ r, ¬ (st.requests r).Launched → st.launches r = Launch.none
  consistent : ∀ r, (st.launches r).Consistent

@[simp] theorem requests_setPhase_self (st : State) (r : RequestId) (phase : Phase) :
    (st.setPhase r phase).requests r = phase := Function.update_self ..

theorem requests_setPhase_of_ne (st : State) {r r' : RequestId} (h : r' ≠ r) (phase : Phase) :
    (st.setPhase r phase).requests r' = st.requests r' := Function.update_of_ne h _ _

@[simp] theorem launches_setLaunch_self (st : State) (r : RequestId) (launch : Launch) :
    (st.setLaunch r launch).launches r = launch := Function.update_self ..

theorem launches_setLaunch_of_ne (st : State) {r r' : RequestId} (h : r' ≠ r) (launch : Launch) :
    (st.setLaunch r launch).launches r' = st.launches r' := Function.update_of_ne h _ _

theorem not_active_none : ¬ Launch.none.Active := by
  rintro (⟨arguments, h⟩ | h | h) <;> cases h

theorem safe_of_not_holds {st : State} {r : RequestId} {phase : Phase} (h : ¬ phase.Holds) :
    Safe st r phase := by
  cases phase <;> first | exact trivial | exact absurd trivial h

/-- The file lets nobody pass while it is busy. -/
theorem not_busy_of_ensure {env : UpdateEnv} {now : DateTime} {file : StatusFile}
    (h : ensureFileNotRunning env now file = .ok ()) : ¬ file.Busy := by
  rintro ⟨s, rfl, hs⟩
  have hread : ∀ s', readStatus env now (.status s) = .ok s' → s'.isInProgress = true := by
    intro s' hs'
    simp only [readStatus] at hs'
    split at hs'
    · split at hs'
      · cases hs'
      · split at hs'
        · cases hs'
          rfl
        · cases hs'
          exact hs
    · cases hs'
      exact hs
  unfold ensureFileNotRunning at h
  cases hs' : readStatus env now (.status s) with
  | error e =>
    rw [hs'] at h
    cases h
  | ok s' =>
    rw [hs'] at h
    simp only [bind, Except.bind, hread s' hs', if_true] at h
    cases h

/-! ### What keeps it -/

/-- A step of a request beside which nobody holds the flag. -/
theorem Inv.hold {st : State} (h : Inv st) {r : RequestId} {phase : Phase} (file : StatusFile)
    (flag : Bool) (hothers : ∀ r', r' ≠ r → ¬ (st.requests r').Holds)
    (hflag : phase.Holds → flag = true) (hbusy : ∀ r', (st.launches r').Active → file.Busy)
    (hsafe : Safe { st with file := file } r phase)
    (hlaunched : ¬ phase.Launched → st.launches r = Launch.none) :
    Inv { st.setPhase r phase with file := file, updateInProgress := flag } where
  flag r' hr' := by
    by_cases hne : r' = r
    · subst hne
      simp only [requests_setPhase_self] at hr'
      exact hflag hr'
    · simp only [requests_setPhase_of_ne st hne] at hr'
      exact absurd hr' (hothers r' hne)
  holder r₁ r₂ h₁ h₂ := by
    have heq : ∀ r', ((st.setPhase r phase).requests r').Holds → r' = r := by
      intro r' hr'
      by_contra hne
      rw [requests_setPhase_of_ne st hne] at hr'
      exact hothers r' hne hr'
    rw [heq r₁ h₁, heq r₂ h₂]
  busy := hbusy
  active := h.active
  safe r' := by
    by_cases hne : r' = r
    · subst hne
      simp only [requests_setPhase_self]
      exact hsafe
    · simp only [requests_setPhase_of_ne st hne]
      exact safe_of_not_holds (hothers r' hne)
  launched r' hr' := by
    by_cases hne : r' = r
    · subst hne
      simp only [requests_setPhase_self] at hr'
      exact hlaunched hr'
    · simp only [requests_setPhase_of_ne st hne] at hr'
      exact h.launched r' hr'
  consistent := h.consistent

theorem Inv.others {st : State} (h : Inv st) {r : RequestId} (hr : (st.requests r).Holds) :
    ∀ r', r' ≠ r → ¬ (st.requests r').Holds := fun r' hne hr' => hne (h.holder r' r hr' hr)

/-- A step of the holder that keeps the flag and leaves the file alone. -/
theorem Inv.setPhase {st : State} (h : Inv st) {r : RequestId} {phase : Phase}
    (hr : (st.requests r).Holds) (hsafe : Safe st r phase)
    (hlaunched : ¬ phase.Launched → ¬ (st.requests r).Launched) : Inv (st.setPhase r phase) :=
  h.hold st.file st.updateInProgress (h.others hr) (fun _ => h.flag r hr) h.busy
    hsafe fun hl => h.launched r (hlaunched hl)

/-- A step of a request that does not hold the flag, before and after. -/
theorem Inv.outside {st : State} (h : Inv st) {r : RequestId} {phase : Phase}
    (hphase : ¬ phase.Holds) (hlaunched : ¬ phase.Launched → ¬ (st.requests r).Launched) :
    Inv (st.setPhase r phase) where
  flag r' hr' := by
    by_cases hne : r' = r
    · subst hne
      rw [requests_setPhase_self] at hr'
      exact absurd hr' hphase
    · rw [requests_setPhase_of_ne st hne] at hr'
      exact h.flag r' hr'
  holder r₁ r₂ h₁ h₂ := by
    have hold : ∀ r', ((st.setPhase r phase).requests r').Holds → (st.requests r').Holds := by
      intro r' hr'
      by_cases hne : r' = r
      · subst hne
        rw [requests_setPhase_self] at hr'
        exact absurd hr' hphase
      · rwa [requests_setPhase_of_ne st hne] at hr'
    exact h.holder r₁ r₂ (hold r₁ h₁) (hold r₂ h₂)
  busy := h.busy
  active := h.active
  safe r' := by
    by_cases hne : r' = r
    · subst hne
      rw [requests_setPhase_self]
      exact safe_of_not_holds hphase
    · rw [requests_setPhase_of_ne st hne]
      exact h.safe r'
  launched r' hr' := by
    by_cases hne : r' = r
    · subst hne
      rw [requests_setPhase_self] at hr'
      exact h.launched r' (hlaunched hr')
    · rw [requests_setPhase_of_ne st hne] at hr'
      exact h.launched r' hr'
  consistent := h.consistent

theorem active_of_setLaunch {st : State} {r : RequestId} {launch : Launch}
    (hactive : launch.Active → (st.launches r).Active) {r' : RequestId}
    (h : ((st.setLaunch r launch).launches r').Active) : (st.launches r').Active := by
  by_cases hne : r' = r
  · subst hne
    rw [launches_setLaunch_self] at h
    exact hactive h
  · rwa [launches_setLaunch_of_ne st hne] at h

/-- A step of a launcher or a command, and what it does to the file. -/
theorem Inv.setLaunch {st : State} (h : Inv st) {r : RequestId} (launch : Launch) (file : StatusFile)
    (hr : st.launches r ≠ Launch.none) (hactive : launch.Active → (st.launches r).Active)
    (hconsistent : launch.Consistent)
    (hbusy : ∀ r', ((st.setLaunch r launch).launches r').Active → file.Busy)
    (hspawning : ∀ r' release running, st.requests r' = .spawning release running → file.Busy) :
    Inv { st.setLaunch r launch with file := file } where
  flag := h.flag
  holder := h.holder
  busy := hbusy
  active r₁ r₂ h₁ h₂ := h.active r₁ r₂ (active_of_setLaunch hactive h₁) (active_of_setLaunch hactive h₂)
  safe r' := by
    have hsafe := h.safe r'
    change Safe _ r' (st.requests r')
    cases hphase : st.requests r' with
    | writing =>
      rw [hphase] at hsafe
      exact fun r₁ h₁ => hsafe r₁ (active_of_setLaunch hactive h₁)
    | recordingFailure =>
      rw [hphase] at hsafe
      exact fun r₁ h₁ => hsafe r₁ (active_of_setLaunch hactive h₁)
    | readingResult =>
      rw [hphase] at hsafe
      exact fun r₁ h₁ => hsafe r₁ (active_of_setLaunch hactive h₁)
    | writingResult =>
      rw [hphase] at hsafe
      exact fun r₁ h₁ => hsafe r₁ (active_of_setLaunch hactive h₁)
    | spawning release running =>
      rw [hphase] at hsafe
      exact ⟨fun r₁ h₁ => hsafe.1 r₁ (active_of_setLaunch hactive h₁),
        hspawning r' release running hphase⟩
    | waiting =>
      rw [hphase] at hsafe
      exact fun r₁ h₁ => hsafe r₁ (active_of_setLaunch hactive h₁)
    | _ => exact trivial
  launched r' hr' := by
    by_cases hne : r' = r
    · subst hne
      exact absurd (h.launched r' hr') hr
    · simp only [launches_setLaunch_of_ne st hne]
      exact h.launched r' hr'
  consistent r' := by
    by_cases hne : r' = r
    · subst hne
      simp only [launches_setLaunch_self]
      exact hconsistent
    · simp only [launches_setLaunch_of_ne st hne]
      exact h.consistent r'

theorem Inv.spawning_busy {st : State} (h : Inv st) {r : RequestId} {release : Release}
    {running : MaintenanceStatus} (hr : st.requests r = .spawning release running) :
    st.file.Busy := by
  have hsafe := h.safe r
  rw [hr] at hsafe
  exact hsafe.2

/-- While something is under way no request is about to launch. -/
theorem Inv.not_spawning {st : State} (h : Inv st) {r r' : RequestId}
    (hr : (st.launches r).Active) {release : Release} {running : MaintenanceStatus} :
    st.requests r' ≠ .spawning release running := by
  intro hr'
  have hsafe := h.safe r'
  rw [hr'] at hsafe
  exact hsafe.1 r hr

/-- A step of a launcher or a command that leaves the file alone. -/
theorem Inv.launch {st : State} (h : Inv st) {r : RequestId} {launch : Launch}
    (hr : st.launches r ≠ Launch.none) (hactive : launch.Active → (st.launches r).Active)
    (hconsistent : launch.Consistent) : Inv (st.setLaunch r launch) :=
  h.setLaunch launch st.file hr hactive hconsistent
    (fun r' hr' => h.busy r' (active_of_setLaunch hactive hr'))
    (fun _ _ _ hr' => h.spawning_busy hr')

/-- The launcher is spawned where nothing is under way, and the file says running. -/
theorem Inv.spawn {st : State} (h : Inv st) {r : RequestId} {release : Release}
    {running : MaintenanceStatus} (hr : st.requests r = .spawning release running)
    (arguments : List String) :
    Inv ((st.setLaunch r ⟨.starting arguments, .unused⟩).setPhase r (.waiting running)) := by
  have hsafe : (∀ r', ¬ (st.launches r').Active) ∧ st.file.Busy := by
    have hsafe := h.safe r
    rw [hr] at hsafe
    exact hsafe
  have hholds : (st.requests r).Holds := by
    rw [hr]
    exact trivial
  have hactive : ∀ r', ((st.setLaunch r ⟨.starting arguments, .unused⟩).launches r').Active →
      r' = r := by
    intro r' hr'
    by_contra hne
    rw [launches_setLaunch_of_ne st hne] at hr'
    exact hsafe.1 r' hr'
  refine ⟨fun r' _ => h.flag r hholds, fun r₁ r₂ h₁ h₂ => ?_, fun _ _ => hsafe.2,
    fun r₁ r₂ h₁ h₂ => (hactive r₁ h₁).trans (hactive r₂ h₂).symm, fun r' => ?_, fun r' hr' => ?_,
    fun r' => ?_⟩
  · have hholder : ∀ r', (((st.setLaunch r ⟨.starting arguments, .unused⟩).setPhase r
        (.waiting running)).requests r').Holds → r' = r := by
      intro r' hr'
      by_contra hne
      rw [requests_setPhase_of_ne _ hne] at hr'
      exact h.others hholds r' hne hr'
    rw [hholder r₁ h₁, hholder r₂ h₂]
  · by_cases hne : r' = r
    · subst hne
      rw [requests_setPhase_self]
      exact hactive
    · rw [requests_setPhase_of_ne _ hne]
      exact safe_of_not_holds (h.others hholds r' hne)
  · by_cases hne : r' = r
    · subst hne
      rw [requests_setPhase_self] at hr'
      exact absurd trivial hr'
    · rw [requests_setPhase_of_ne _ hne] at hr'
      exact (launches_setLaunch_of_ne st hne _).trans (h.launched r' hr')
  · by_cases hne : r' = r
    · subst hne
      exact (congrArg Launch.Consistent (launches_setLaunch_self st r' _)).mpr rfl
    · exact (congrArg Launch.Consistent (launches_setLaunch_of_ne st hne _)).mpr (h.consistent r')

section

variable {env : UpdateEnv}

/-- A request that does not hold the flag and goes on without it. -/
theorem Inv.refuse {st st' : State} (h : Inv st) {r : RequestId} {phase : Phase}
    (hr : ¬ (st.requests r).Launched) (hphase : ¬ phase.Holds)
    (hstep : some (st.setPhase r phase) = some st') : Inv st' := by
  cases hstep
  exact h.outside hphase fun _ => hr

theorem Inv.release {st : State} (h : Inv st) {r : RequestId} {phase : Phase}
    (hr : (st.requests r).Holds) (hphase : ¬ phase.Holds)
    (hlaunched : ¬ phase.Launched → ¬ (st.requests r).Launched) :
    Inv { st.setPhase r phase with updateInProgress := false } :=
  h.hold st.file false (h.others hr) (fun hholds => absurd hholds hphase) h.busy
    (safe_of_not_holds hphase) fun hl => h.launched r (hlaunched hl)

/-- A holder writes the file while nothing is under way. -/
theorem Inv.write {st : State} (h : Inv st) {r : RequestId} {phase : Phase} {file : StatusFile}
    (hr : (st.requests r).Holds) (hidle : ∀ r', ¬ (st.launches r').Active)
    (hsafe : Safe { st with file := file } r phase)
    (hlaunched : ¬ phase.Launched → ¬ (st.requests r).Launched) :
    Inv { st.setPhase r phase with file := file } :=
  h.hold file st.updateInProgress (h.others hr) (fun _ => h.flag r hr)
    (fun r' hr' => absurd hr' (hidle r')) hsafe fun hl => h.launched r (hlaunched hl)

theorem busy_running (currentVersion targetVersion : String) (now : DateTime) :
    (StatusFile.status (.running currentVersion targetVersion now)).Busy := ⟨_, rfl, rfl⟩

/-- What a launcher that failed leaves under way: nothing. -/
theorem Inv.idle_of_failed {st : State} (h : Inv st) {r : RequestId} {running : MaintenanceStatus}
    (hr : st.requests r = .waiting running) (hexit : (st.launches r).launcher = .exited false)
    (r' : RequestId) : ¬ (st.launches r').Active := by
  intro hr'
  have hsafe := h.safe r
  rw [hr] at hsafe
  cases hsafe r' hr'
  have hcommand : (st.launches r).command = .unused := by
    have hconsistent := h.consistent r
    unfold Launch.Consistent at hconsistent
    rwa [hexit] at hconsistent
  rcases hr' with ⟨arguments, hl⟩ | hl | hl
  · rw [hexit] at hl
    cases hl
  · rw [hcommand] at hl
    cases hl
  · rw [hcommand] at hl
    cases hl

theorem Inv.advance {st st' : State} (h : Inv st) {r : RequestId} {o : Outcomes}
    (hstep : advance env st r o = some st') : Inv st' := by
  have hsafe := h.safe r
  unfold SystemUpdate.advance at hstep
  cases hr : st.requests r with
  | idle => simp only [hr] at hstep; cases hstep
  | refused => simp only [hr] at hstep; cases hstep
  | accepted => simp only [hr] at hstep; cases hstep
  | lost => simp only [hr] at hstep; cases hstep
  | checkingFlag =>
    simp only [hr] at hstep
    have hl : ¬ (st.requests r).Launched := hr ▸ id
    split at hstep
    · exact h.refuse hl id hstep
    · exact h.refuse hl id hstep
  | checkingFile =>
    simp only [hr] at hstep
    have hl : ¬ (st.requests r).Launched := hr ▸ id
    split at hstep
    · exact h.refuse hl id hstep
    · exact h.refuse hl id hstep
  | lookingUp =>
    simp only [hr] at hstep
    have hl : ¬ (st.requests r).Launched := hr ▸ id
    split at hstep
    · exact h.refuse hl id hstep
    · exact h.refuse hl id hstep
  | acquiring release =>
    simp only [hr] at hstep
    have hl : ¬ (st.requests r).Launched := hr ▸ id
    split at hstep
    · exact h.refuse hl id hstep
    next hflag =>
      cases hstep
      -- Whoever holds the flag has set it.
      have hfree : ∀ r', ¬ (st.requests r').Holds := fun r' hr' => hflag (h.flag r' hr')
      exact h.hold st.file true (fun r' _ => hfree r') (fun _ => rfl) h.busy trivial
        fun _ => h.launched r hl
  | checkingAgain release =>
    simp only [hr] at hstep
    have hholds : (st.requests r).Holds := hr ▸ trivial
    have hl : ¬ (st.requests r).Launched := hr ▸ id
    split at hstep
    next hok =>
      cases hstep
      have hidle : ∀ r', ¬ (st.launches r').Active :=
        fun r' hr' => not_busy_of_ensure hok (h.busy r' hr')
      exact h.setPhase hholds hidle fun _ => hl
    · cases hstep
      exact h.setPhase hholds trivial fun _ => hl
  | writing release =>
    simp only [hr] at hstep
    rw [hr] at hsafe
    have hholds : (st.requests r).Holds := hr ▸ trivial
    have hl : ¬ (st.requests r).Launched := hr ▸ id
    cases hwrite : o.write with
    | ok =>
      rw [hwrite] at hstep
      cases hstep
      exact h.write hholds hsafe ⟨hsafe, busy_running _ _ _⟩ fun _ => hl
    | error failure =>
      rw [hwrite] at hstep
      cases hstep
      exact h.write hholds hsafe trivial fun _ => hl
  | spawning release running =>
    simp only [hr] at hstep
    rw [hr] at hsafe
    have hholds : (st.requests r).Holds := hr ▸ trivial
    have hl : ¬ (st.requests r).Launched := hr ▸ id
    split at hstep
    · cases hstep
      exact h.spawn hr _
    · cases hstep
      exact h.setPhase hholds hsafe.1 fun _ => hl
  | recordingFailure running error =>
    simp only [hr] at hstep
    rw [hr] at hsafe
    have hholds : (st.requests r).Holds := hr ▸ trivial
    have hl : ¬ (st.requests r).Launched := hr ▸ id
    cases hstep
    exact h.write hholds hsafe trivial fun _ => hl
  | releasing error =>
    simp only [hr] at hstep
    have hholds : (st.requests r).Holds := hr ▸ trivial
    have hl : ¬ (st.requests r).Launched := hr ▸ id
    cases hstep
    exact h.release hholds id fun _ => hl
  | waiting running =>
    simp only [hr] at hstep
    have hholds : (st.requests r).Holds := hr ▸ trivial
    split at hstep
    · cases hstep
      exact h.setPhase hholds trivial fun hl => absurd trivial hl
    next hexit =>
      cases hstep
      exact h.setPhase hholds (h.idle_of_failed hr hexit) fun hl => absurd trivial hl
    · cases hstep
  | readingResult running message =>
    simp only [hr] at hstep
    rw [hr] at hsafe
    have hholds : (st.requests r).Holds := hr ▸ trivial
    split at hstep
    · split at hstep
      · cases hstep
        exact h.setPhase hholds hsafe fun hl => absurd trivial hl
      · cases hstep
        exact h.setPhase hholds trivial fun hl => absurd trivial hl
    · cases hstep
      exact h.setPhase hholds trivial fun hl => absurd trivial hl
  | writingResult running message =>
    simp only [hr] at hstep
    rw [hr] at hsafe
    have hholds : (st.requests r).Holds := hr ▸ trivial
    cases hstep
    exact h.write hholds hsafe trivial fun hl => absurd trivial hl
  | finishing running =>
    simp only [hr] at hstep
    have hholds : (st.requests r).Holds := hr ▸ trivial
    cases hstep
    exact h.release hholds id fun hl => absurd trivial hl

theorem not_holds_restarted (phase : Phase) : ¬ phase.restarted.Holds := by
  cases phase <;> exact id

theorem launched_restarted {phase : Phase} (h : ¬ phase.restarted.Launched) : ¬ phase.Launched := by
  cases phase <;> exact h

theorem Inv.restartHub {st : State} (h : Inv st) :
    Inv { st with updateInProgress := false, requests := fun r => (st.requests r).restarted } where
  flag _ hr := absurd hr (not_holds_restarted _)
  holder _ _ hr := absurd hr (not_holds_restarted _)
  busy := h.busy
  active := h.active
  safe _ := safe_of_not_holds (not_holds_restarted _)
  launched r hr := h.launched r (launched_restarted hr)
  consistent := h.consistent

/-- The launcher of a command has started its unit. -/
theorem Launch.Consistent.setCommand {l : Launch} (h : l.Consistent) (hcommand : l.command ≠ .unused)
    (command : Command) : Launch.Consistent { l with command := command } := by
  unfold Launch.Consistent at h ⊢
  split at h
  · exact absurd h hcommand
  · exact absurd h hcommand
  · exact absurd h hcommand
  next hl => simp only [hl]
  next hl => simp only [hl]

theorem ne_none_of_active {launch : Launch} (h : launch.Active) : launch ≠ Launch.none := by
  rintro rfl
  exact not_active_none h

theorem Inv.step {st st' : State} {a : Action} (h : Inv st) (hstep : step env st a = some st') :
    Inv st' := by
  cases a with
  | begin r =>
    simp only [SystemUpdate.step] at hstep
    cases hr : st.requests r with
    | idle =>
      simp only [hr] at hstep
      have hl : ¬ (st.requests r).Launched := hr ▸ id
      split at hstep
      · exact h.refuse hl id hstep
      · exact h.refuse hl id hstep
    | _ => simp only [hr] at hstep; cases hstep
  | advance r o => exact h.advance hstep
  | startUnit r =>
    simp only [SystemUpdate.step] at hstep
    split at hstep
    next arguments hlauncher =>
      cases hstep
      have hactive : (st.launches r).Active := .inl ⟨arguments, hlauncher⟩
      exact h.launch (ne_none_of_active hactive) (fun _ => hactive) trivial
    · cases hstep
  | launcherExit r =>
    simp only [SystemUpdate.step] at hstep
    have hconsistent := h.consistent r
    unfold Launch.Consistent at hconsistent
    split at hstep
    next arguments hlauncher =>
      cases hstep
      rw [hlauncher] at hconsistent
      exact h.launch (ne_none_of_active (.inl ⟨arguments, hlauncher⟩))
        (fun _ => .inl ⟨arguments, hlauncher⟩) hconsistent
    next hlauncher =>
      cases hstep
      refine h.launch (fun hnone => ?_) (fun hactive => ?_) trivial
      · rw [hnone] at hlauncher
        cases hlauncher
      · rcases hactive with ⟨_, hl⟩ | hcommand
        · cases hl
        · exact .inr hcommand
    · cases hstep
  | writeStage r stage =>
    simp only [SystemUpdate.step] at hstep
    split at hstep
    next hcommand =>
      split at hstep
      next hrunning =>
        cases hstep
        have hbusy : (StatusFile.status stage).Busy :=
          ⟨stage, rfl, by rw [MaintenanceStatus.isInProgress, hrunning]; rfl⟩
        have hactive : (st.launches r).Active := .inr (.inl hcommand)
        have heq : st.setLaunch r (st.launches r) = st := by
          rw [State.setLaunch, Function.update_eq_self]
        have hinv := h.setLaunch (st.launches r) (.status stage)
          (ne_none_of_active hactive) id (h.consistent r) (fun _ _ => hbusy) (fun _ _ _ _ => hbusy)
        rwa [heq] at hinv
      · cases hstep
    · cases hstep
  | commandDone r =>
    simp only [SystemUpdate.step] at hstep
    split at hstep
    next hcommand =>
      cases hstep
      have hactive : (st.launches r).Active := .inr (.inl hcommand)
      exact h.launch (ne_none_of_active hactive) (fun _ => hactive)
        ((h.consistent r).setCommand (by rw [hcommand]; exact nofun) _)
    · cases hstep
  | report r result =>
    simp only [SystemUpdate.step] at hstep
    split at hstep
    next hcommand =>
      have hactive : (st.launches r).Active := .inr (.inr hcommand)
      have hconsistent : Launch.Consistent { st.launches r with command := .ended } :=
        (h.consistent r).setCommand (by rw [hcommand]; exact nofun) _
      cases result with
      | none =>
        cases hstep
        exact h.launch (ne_none_of_active hactive) (fun _ => hactive) hconsistent
      | some status =>
        cases hstep
        -- The command was the only thing under way.
        have hidle : ∀ r', ¬ ((st.setLaunch r { st.launches r with command := .ended }).launches
            r').Active := by
          intro r' hr'
          have heq := h.active r' r (active_of_setLaunch (fun _ => hactive) hr') hactive
          subst heq
          rw [launches_setLaunch_self] at hr'
          rcases hr' with ⟨arguments, hl⟩ | hl | hl
          · unfold Launch.Consistent at hconsistent
            rw [hl] at hconsistent
            cases hconsistent
          · cases hl
          · cases hl
        exact h.setLaunch _ (.status status) (ne_none_of_active hactive) (fun _ => hactive)
          hconsistent (fun r' hr' => absurd hr' (hidle r'))
          (fun _ _ _ hr' => absurd hr' (h.not_spawning hactive))
    · cases hstep
  | restartHub =>
    cases hstep
    exact h.restartHub

/-! ### Runs -/

/-- A Hub that was started and launched nothing yet, whatever the status file says. -/
structure Initial (st : State) : Prop where
  flag : st.updateInProgress = false
  requests : ∀ r, st.requests r = .idle
  launches : ∀ r, st.launches r = Launch.none

theorem Initial.inv {st : State} (h : Initial st) : Inv st := by
  have hholds : ∀ r, ¬ (st.requests r).Holds := fun r => by rw [h.requests r]; exact id
  have hactive : ∀ r, ¬ (st.launches r).Active := fun r => by
    rw [h.launches r]
    exact not_active_none
  refine ⟨fun r hr => absurd hr (hholds r), fun r _ hr => absurd hr (hholds r),
    fun r hr => absurd hr (hactive r), fun r _ hr => absurd hr (hactive r),
    fun r => safe_of_not_holds (hholds r), fun r _ => h.launches r, fun r => ?_⟩
  rw [h.launches r]
  rfl

/-- **Updates exclude each other.**  In every run no two maintenance commands of the Hub
are running, and a `start_update` that returned an error has launched none. -/
theorem maintenance_mutual_exclusion {init st : State} {as : List Action} (hinit : Initial init)
    (hrun : run (step env) init as = some st) :
    (∀ r r', (st.launches r).command = .running → (st.launches r').command = .running → r = r') ∧
      ∀ r error, (st.requests r).response = some (.error error) →
        st.launches r = ⟨.unused, .unused⟩ := by
  have hinv : Inv st := inv_of_run (fun _ _ _ h hstep => Inv.step h hstep) hinit.inv hrun
  refine ⟨fun r r' hr hr' => hinv.active r r' (.inr (.inl hr)) (.inr (.inl hr')),
    fun r error hr => hinv.launched r ?_⟩
  cases hphase : st.requests r with
  | refused => exact id
  | _ =>
    rw [hphase] at hr
    cases hr

end

namespace TwoRequests

/-- Two requests pass the first checks together, and the Hub restarts while the command of
the first one runs. -/
def env : UpdateEnv where
  maintenanceEnabled := true
  maintenanceSudoPath := "sudo"
  maintenanceSystemdRunPath := "systemd-run"
  maintenanceCliPath := "pp"
  maintenanceStatusFile := "status.json"
  releaseRepo := "owner/name"
  currentVersion := "1.0.0"
  parseVersion v := .ok ⟨if v = "v1.1.0" then "1.1.0" else v, "", ""⟩
  versionLt v w := v.release < w.release
  versionToString v := v.release

def init : State := ⟨false, .missing, fun _ => .idle, fun _ => Launch.none⟩

def outcomes : Outcomes where
  now := ⟨0, 0⟩
  lookup := .found ⟨"v1.1.0", ⟨"1.1.0", "", ""⟩⟩
  write := .ok ()
  spawn := .ok ()
  exitStatus := "exit status: 0"

def go (r : RequestId) : Action := .advance r outcomes

def steps : List Action :=
  [.begin 0, .begin 1, go 0, go 1, go 0, go 1, go 0, go 1, go 0, go 0, go 0, go 0,
    .startUnit 0, .launcherExit 0, go 0, go 0, go 1, go 1, go 1, .restartHub, .begin 2, go 2, go 2]

theorem initial_init : Initial init := ⟨rfl, fun _ => rfl, fun _ => rfl⟩

end TwoRequests

theorem maintenance_mutual_exclusion_two_requests :
    ∃ st, run (step TwoRequests.env) TwoRequests.init TwoRequests.steps = some st ∧
      (st.launches 0).command = .running ∧
      (st.requests 1).response = some (.error updateInProgress) ∧
      (st.requests 2).response = some (.error updateInProgress) ∧
      st.launches 1 = ⟨.unused, .unused⟩ ∧ st.launches 2 = ⟨.unused, .unused⟩ := by
  have hrun := @maintenance_mutual_exclusion TwoRequests.env _ _ TwoRequests.steps
    TwoRequests.initial_init rfl
  exact ⟨_, rfl, rfl, rfl, rfl, hrun.2 1 _ rfl, hrun.2 2 _ rfl⟩

end ProxyPanel.Hub.SystemUpdate
