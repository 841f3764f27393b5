import ProxyPanel.Cli.Upgrade

/-!
# The parts of an upgrade

`performUpgrade` looks for the release (`locate`), backs up what is installed (`backUp`) and
replaces it (`replace`).  How a part ends depends on the calls it makes, on whether there is
a status file, and on what there is to back up; `locateResult`, `backUpResult`,
`replaceResult` and `recoverErrors` compute it.  `ok_of_backUp`, `ok_of_replaceAndVerify` and
`exists_recover` are what the parts write where they end well.
-/

namespace ProxyPanel.Cli

open Effects

/-! ### The parts of an upgrade -/

/-- What is known of the release before anything is copied. -/
structure Found where
  label : String
  targetVersion : String
  newBinary : String
  newWeb : Option Tree

/-- The backups, by their labels, and whether the service is active. -/
structure BackedUp where
  binary : Option String
  web : Option String
  wasActive : Bool

section Parts

variable (o : Outcomes) (component : Component)

/-- Up to the backups; `none` for an upgrade that is skipped. -/
def locate (requestedVersion : String) : UpgradeM (Option Found) := do
  stage o "resolving" "正在解析目标 Release"
  lift o.releases
  let release ← lift
    (if requestedVersion = "latest" then o.latestStable else o.byTag requestedVersion)
  setTargetVersion release.version
  let currentVersion ← lift o.installedBefore
  setCurrentVersion currentVersion
  match ← lift (planUpgrade o.compareVersions currentVersion release.version) with
  | .skip =>
    stage o "skipped" "当前版本已是目标版本，跳过升级"
    pure none
  | .proceed =>
    stage o "preparing" "正在下载、校验并解压 Release"
    let (newBinary, newWeb) ← fetch o component
    pure (some ⟨currentVersion.getD o.timestamp, release.version, newBinary, newWeb⟩)

def backUp (found : Found) : UpgradeM BackedUp := do
  lift o.backupDir
  let binary ← backupBinary o found.label
  let web ← optionally component.withWeb none (backupWeb o found.label)
  let wasActive ← isActive o component
  pure ⟨binary, web, wasActive⟩

/-- What follows the replacement of the files, which ended with the error if there is one. -/
def conclude (b : BackedUp) (error : Option CliError) : UpgradeM Unit :=
  match error with
  | some error => rollBack o component b.binary b.web b.wasActive error
  | none => stage o "completed" "目标版本和服务状态验证通过"

def replace (found : Found) (b : BackedUp) : UpgradeM Unit := do
  optionally (component.unit.isSome && b.wasActive) () (systemdStop o)
  stage o "replacing" "正在替换文件并验证目标版本"
  let error ← attempt (replaceAndVerify o component found.newBinary found.newWeb
    found.targetVersion b.wasActive)
  conclude o component b error

theorem performUpgrade_eq (version : String) : performUpgrade o component version =
    locate o component version >>= fun found =>
      match found with
      | none => pure ()
      | some found => backUp o component found >>= replace o component found := by
  simp only [performUpgrade, locate, install, backUp, bind_assoc]
  refine bind_congr fun _ => bind_congr fun _ => bind_congr fun release => bind_congr fun _ =>
    bind_congr fun currentVersion => bind_congr fun _ => bind_congr fun decision => ?_
  cases decision with
  | skip =>
    simp only [bind_assoc, pure_bind]
    exact bind_pure_unit.symm
  | proceed =>
    simp only [bind_assoc, pure_bind]
    rfl

end Parts

/-! ### How the parts end -/

section Results

variable {α : Type} {I : World → Prop}

/-- The command works on this machine, with this status file. -/
def At (statusFile : Option String) (m : Machine) (w : World) : Prop :=
  w.statusFile = statusFile ∧ w.machine = m

/-- Whatever becomes of the machine. -/
def WithStatus (statusFile : Option String) (w : World) : Prop := w.statusFile = statusFile

/-- The result of a step under a condition. -/
def onlyIf (c : Bool) (r : Except CliError Unit) : Except CliError Unit := if c then r else .ok ()

def errorOf : Except CliError Unit → Option CliError
  | .ok () => none
  | .error e => some e

theorem errorOf_eq_none {r : Except CliError Unit} : errorOf r = none ↔ r = .ok () := by
  cases r with
  | ok u => exact iff_of_true rfl rfl
  | error e => exact iff_of_false (fun h => by cases h) (fun h => by cases h)

theorem ends_lift (result : Except CliError α) : Ends I (lift result) result := by
  intro w hw
  cases result with
  | ok a => exact ⟨rfl, hw⟩
  | error e => exact ⟨rfl, hw⟩

theorem ends_put {set : α → Machine → Machine}
    (hI : ∀ w a, I w → I { w with machine := set a w.machine }) (write : Write α) (value : α) :
    Ends I (put set write value) write.result := by
  intro w hw
  rw [put]
  cases write.result with
  | ok u => exact ⟨rfl, hI w _ hw⟩
  | error e => exact ⟨rfl, hI w _ hw⟩

theorem ends_optionally {x : UpgradeM Unit} {r : Except CliError Unit} (hx : Ends I x r)
    (c : Bool) : Ends I (optionally c () x) (onlyIf c r) := by
  cases c with
  | true => exact hx
  | false => exact ends_pure ()

theorem ends_ensure (c : Bool) (e : CliError) :
    Ends I (ensure c e) (if c then .ok () else .error e) := by
  cases c with
  | true => exact ends_pure ()
  | false => exact ends_throw e

theorem ends_attempt {x : UpgradeM Unit} {r : Except CliError Unit} (hx : Ends I x r) :
    Ends I (attempt x) (.ok (errorOf r)) := by
  intro w hw
  cases r with
  | ok u =>
    obtain ⟨w', h, hw'⟩ := hx.exists_ok hw
    rw [attempt, h]
    exact ⟨rfl, hw'⟩
  | error e =>
    obtain ⟨w', h, hw'⟩ := hx.exists_error hw
    rw [attempt, h]
    exact ⟨rfl, hw'⟩

variable (o : Outcomes) (component : Component) (statusFile : Option String)

/-- How the status of a stage is written. -/
def stageResult (name : String) : Except CliError Unit :=
  onlyIf statusFile.isSome (o.statusWrites name)

theorem ends_writeStatus {I : World → Prop} (hwritten : ∀ w written, I w → I { w with written })
    (hfile : ∀ w, I w → w.statusFile = statusFile) (result : Except CliError Unit) :
    Ends I (writeStatus result) (onlyIf statusFile.isSome result) := by
  intro w hw
  rw [← hfile w hw]
  obtain ⟨m, statusFile, record, written, rolledBack⟩ := w
  cases statusFile with
  | none => exact ⟨rfl, hw⟩
  | some F =>
    cases result with
    | ok u => exact ⟨rfl, hwritten _ _ hw⟩
    | error e => exact ⟨rfl, hw⟩

theorem ends_stage {I : World → Prop} (hrecord : ∀ w record, I w → I { w with record })
    (hwritten : ∀ w written, I w → I { w with written })
    (hfile : ∀ w, I w → w.statusFile = statusFile) (name message : String) :
    Ends I (stage o name message) (stageResult o statusFile name) := by
  have hset : ∀ g, Ends I (setRecord g) (.ok ()) := fun g w hw => ⟨rfl, hrecord w _ hw⟩
  exact ends_bind_ok (hset _) (ends_writeStatus statusFile hwritten hfile _)

theorem ends_stage_at (m : Machine) (name message : String) :
    Ends (At statusFile m) (stage o name message) (stageResult o statusFile name) :=
  ends_stage o statusFile (fun _ _ h => h) (fun _ _ h => h) (fun _ h => h.1) name message

/-! ### Up to the backups -/

def fetchResult : Except CliError (String × Option Tree) := do
  let _ ← o.releaseArch
  o.httpClient
  o.tempDir
  o.downloaded
  o.extractDir
  o.extracted
  let newBinary ← o.newBinary
  if component.withWeb then
    match o.newWeb with
    | none => throw (.bail "hub tarball 中未找到 web/dist")
    | some web => pure (newBinary, some web)
  else pure (newBinary, none)

/-- How `locate` ends. -/
def locateResult (requestedVersion : String) : Except CliError (Option Found) := do
  stageResult o statusFile "resolving"
  o.releases
  let release ←
    (if requestedVersion = "latest" then o.latestStable else o.byTag requestedVersion)
  let currentVersion ← o.installedBefore
  match ← planUpgrade o.compareVersions currentVersion release.version with
  | .skip =>
    stageResult o statusFile "skipped"
    pure none
  | .proceed =>
    stageResult o statusFile "preparing"
    let (newBinary, newWeb) ← fetchResult o component
    pure (some ⟨currentVersion.getD o.timestamp, release.version, newBinary, newWeb⟩)

/-- How `backUp` ends on a machine. -/
def backUpResult (found : Found) (m : Machine) : Except CliError BackedUp := do
  o.backupDir
  onlyIf m.binary.isSome o.backupBinary.result
  onlyIf (component.withWeb && m.web.isSome) o.backupWeb.result
  pure ⟨m.binary.map fun _ => found.label,
    if component.withWeb then m.web.map fun _ => found.label else none,
    component.unit.isSome && (m.active && o.activeSeen)⟩

theorem ends_fetch : Ends I (fetch o component) (fetchResult o component) := by
  refine ends_bind (ends_lift _) fun _ => ends_bind (ends_lift _) fun _ =>
    ends_bind (ends_lift _) fun _ => ends_bind (ends_lift _) fun _ =>
    ends_bind (ends_lift _) fun _ => ends_bind (ends_lift _) fun _ =>
    ends_bind (ends_lift _) fun newBinary => ?_
  cases component.withWeb with
  | false => exact ends_pure _
  | true =>
    cases o.newWeb with
    | none => exact ends_throw _
    | some web => exact ends_pure _

theorem ends_locate (version : String) (m : Machine) : Ends (At statusFile m)
    (locate o component version) (locateResult o component statusFile version) := by
  have hset : ∀ g, Ends (At statusFile m) (setRecord g) (.ok ()) := fun g w hw => ⟨rfl, hw⟩
  refine ends_bind (ends_stage_at o _ _ _ _) fun _ => ends_bind (ends_lift _) fun _ =>
    ends_bind (ends_lift _) fun release => ends_bind_ok (hset _) <|
    ends_bind (ends_lift _) fun currentVersion => ends_bind_ok (hset _) <|
    ends_bind (ends_lift _) fun decision => ?_
  cases decision with
  | skip => exact ends_bind (ends_stage_at o _ _ _ _) fun _ => ends_pure _
  | proceed =>
    exact ends_bind (ends_stage_at o _ _ _ _) fun _ => ends_bind (ends_fetch o component)
      fun _ => ends_pure _

/-- But for the backups, the machine is the same. -/
structure Untouched (m : Machine) (w : World) : Prop where
  status : w.statusFile = statusFile
  binary : w.machine.binary = m.binary
  web : w.machine.web = m.web
  active : w.machine.active = m.active

theorem ends_backUp (found : Found) (m : Machine) : Ends (Untouched statusFile m)
    (backUp o component found) (backUpResult o component found m) := by
  have hbinary : Ends (Untouched statusFile m) (backupBinary o found.label)
      (onlyIf m.binary.isSome o.backupBinary.result >>= fun _ =>
        .ok (m.binary.map fun _ => found.label)) := by
    intro w hw
    rw [backupBinary, bind_of_ok (show machine w = .ok w.machine w from rfl), hw.binary]
    cases m.binary with
    | none => exact ⟨rfl, hw⟩
    | some binary =>
      exact ends_bind (ends_put (fun _ _ h => ⟨h.status, h.binary, h.web, h.active⟩) _ _)
        (fun _ => ends_pure _) w hw
  have hweb : Ends (Untouched statusFile m)
      (optionally component.withWeb none (backupWeb o found.label))
      (onlyIf (component.withWeb && m.web.isSome) o.backupWeb.result >>= fun _ =>
        .ok (if component.withWeb then m.web.map fun _ => found.label else none)) := by
    cases component.withWeb with
    | false => exact ends_pure none
    | true =>
      intro w hw
      rw [optionally, if_pos rfl, backupWeb, bind_of_ok (show machine w = .ok w.machine w from rfl),
        hw.web]
      cases m.web with
      | none => exact ⟨rfl, hw⟩
      | some web =>
        exact ends_bind (ends_put (fun _ _ h => ⟨h.status, h.binary, h.web, h.active⟩) _ _)
          (fun _ => ends_pure _) w hw
  have hactive : Ends (Untouched statusFile m) (isActive o component)
      (.ok (component.unit.isSome && (m.active && o.activeSeen))) := by
    intro w hw
    rw [isActive, bind_of_ok (show machine w = .ok w.machine w from rfl), hw.active]
    exact ⟨rfl, hw⟩
  have hlast : ∀ binary web, Ends (Untouched statusFile m)
      (isActive o component >>= fun wasActive => pure (BackedUp.mk binary web wasActive))
      (.ok ⟨binary, web, component.unit.isSome && (m.active && o.activeSeen)⟩) :=
    fun _ _ => ends_bind_ok hactive (ends_pure _)
  have hends := ends_bind (ends_lift o.backupDir) fun _ => ends_bind hbinary fun binary =>
    ends_bind hweb fun web => hlast binary web
  refine fun w hw => (hends w hw).imp (fun h => h.trans ?_) id
  rw [backUpResult]
  cases o.backupDir with
  | error e => rfl
  | ok u =>
    cases onlyIf m.binary.isSome o.backupBinary.result with
    | error e => rfl
    | ok u =>
      cases onlyIf (component.withWeb && m.web.isSome) o.backupWeb.result with
      | error e => rfl
      | ok u => rfl

/-! ### Replacing the files -/

def verifyResult (targetVersion : String) : Except CliError Unit := do
  match ← o.installedAfter with
  | none => throw (.bail "升级后二进制不存在")
  | some actual =>
    let order ← o.compareVersions actual targetVersion
    if order = .eq then pure ()
    else throw (.bail ("目标版本验证失败: 期望 " ++ targetVersion ++ "，实际 " ++ actual))

/-- How `replaceAndVerify` ends. -/
def replaceResult (targetVersion : String) (wasActive : Bool) : Except CliError Unit := do
  o.moveBinary.result
  o.chmod
  onlyIf component.withWeb (do o.removeWeb.result; o.webParent; o.moveWeb.result)
  verifyResult o targetVersion
  onlyIf (component.unit.isSome && wasActive) (do o.restart.result; o.stable.result)

/-- How a path is restored. -/
def restoreResult (remove restore : Except CliError Unit) (backup : Option String) :
    Except CliError Unit := do
  remove
  onlyIf backup.isSome restore

def serviceError : Option String :=
  match errorOf o.recoverRestart.result with
  | some e => some ("恢复原服务失败: " ++ e.full)
  | none => (errorOf o.recoverStable.result).map fun e => "原服务未恢复稳定: " ++ e.full

/-- What a recovery reports. -/
def recoverErrors (b : BackedUp) : List String :=
  ((errorOf (restoreResult o.restoreRemoveBinary.result o.restoreBinary.result b.binary)).map
    fun e => "恢复二进制失败: " ++ e.full).toList ++
  ((errorOf (onlyIf component.withWeb
    (restoreResult o.restoreRemoveWeb.result o.restoreWeb.result b.web))).map
    fun e => "恢复 web/dist 失败: " ++ e.full).toList ++
  (if component.unit.isSome && b.wasActive then serviceError o else none).toList

theorem ends_verifyVersion (targetVersion : String) :
    Ends I (verifyVersion o targetVersion) (verifyResult o targetVersion) := by
  refine ends_bind (ends_lift _) fun installed => ?_
  cases installed with
  | none => exact ends_throw _
  | some actual =>
    refine ends_bind (ends_lift _) fun order => ?_
    cases order with
    | lt => exact ends_ensure _ _
    | eq => exact ends_ensure _ _
    | gt => exact ends_ensure _ _

theorem ends_put_status (set : α → Machine → Machine) (write : Write α) (value : α) :
    Ends (WithStatus statusFile) (put set write value) write.result :=
  ends_put (fun _ _ h => h) write value

theorem ends_replaceAndVerify (newBinary : String) (newWeb : Option Tree) (targetVersion : String)
    (wasActive : Bool) : Ends (WithStatus statusFile)
      (replaceAndVerify o component newBinary newWeb targetVersion wasActive)
      (replaceResult o component targetVersion wasActive) := by
  have hweb : Ends (WithStatus statusFile) (replaceWeb o newWeb)
      (do o.removeWeb.result; o.webParent; o.moveWeb.result) :=
    ends_bind (ends_put_status _ _ _ _) fun _ => ends_bind (ends_lift _) fun _ =>
    ends_put_status _ _ _ _
  have hservice : Ends (WithStatus statusFile) (restartService o)
      (do o.restart.result; o.stable.result) :=
    ends_bind (ends_put_status _ _ _ _) fun _ => ends_put_status _ _ _ _
  exact ends_bind (ends_put_status _ _ _ _) fun _ => ends_bind (ends_lift _) fun _ =>
    ends_bind (ends_optionally hweb _) fun _ => ends_bind (ends_verifyVersion o _) fun _ =>
    ends_optionally hservice _

theorem ends_restoreBinary (backup : Option String) :
    Ends (WithStatus statusFile) (restoreBinary o backup)
      (restoreResult o.restoreRemoveBinary.result o.restoreBinary.result backup) := by
  refine ends_bind (ends_put_status _ _ _ _) fun _ => ?_
  cases backup with
  | none => exact ends_pure ()
  | some label => exact fun w hw => ends_put_status _ _ _ _ w hw

theorem ends_restoreWeb (backup : Option String) :
    Ends (WithStatus statusFile) (restoreWeb o backup)
      (restoreResult o.restoreRemoveWeb.result o.restoreWeb.result backup) := by
  refine ends_bind (ends_put_status _ _ _ _) fun _ => ?_
  cases backup with
  | none => exact ends_pure ()
  | some label => exact fun w hw => ends_put_status _ _ _ _ w hw

theorem ends_recoverService :
    Ends (WithStatus statusFile) (recoverService o) (.ok (serviceError o)) := by
  refine ends_bind_ok (ends_attempt (ends_put_status _ _ _ _)) ?_
  rw [serviceError]
  cases errorOf o.recoverRestart.result with
  | some e => exact ends_pure _
  | none => exact ends_bind_ok (ends_attempt (ends_put_status _ _ _ _)) (ends_pure _)

theorem ends_recover (b : BackedUp) :
    Ends (WithStatus statusFile) (recover o component b.binary b.web b.wasActive)
      (if recoverErrors o component b = [] then .ok ()
        else .error (.bail ("；".intercalate (recoverErrors o component b)))) := by
  have hservice : Ends (WithStatus statusFile)
      (optionally (component.unit.isSome && b.wasActive) none (recoverService o))
      (.ok (if component.unit.isSome && b.wasActive then serviceError o else none)) := by
    cases component.unit.isSome && b.wasActive with
    | true => exact ends_recoverService o statusFile
    | false => exact ends_pure _
  refine ends_bind_ok (ends_attempt (ends_restoreBinary o statusFile b.binary)) ?_
  refine ends_bind_ok (ends_attempt (ends_optionally (ends_restoreWeb o statusFile b.web) _)) ?_
  refine ends_bind_ok hservice ?_
  have hensure := ends_ensure (I := WithStatus statusFile)
    (decide (recoverErrors o component b = []))
    (.bail ("；".intercalate (recoverErrors o component b)))
  by_cases hnil : recoverErrors o component b = []
  · rw [if_pos hnil]
    rw [if_pos (decide_eq_true hnil)] at hensure
    exact hensure
  · rw [if_neg hnil]
    rw [if_neg fun h => hnil (of_decide_eq_true h)] at hensure
    exact hensure

end Results

/-! ### What the steps write -/

section Steps

variable {α γ : Type} {f : World → γ} {w w' : World}

theorem ok_of_put {set : α → Machine → Machine} {write : Write α} {value : α}
    (h : put set write value w = .ok () w') : w' = { w with machine := set value w.machine } := by
  rw [put] at h
  split at h
  · cases h
    rfl
  · cases h

theorem ok_of_lift {a : α} {result : Except CliError α} (h : lift result w = .ok a w') :
    w' = w := by
  cases result with
  | ok a' =>
    cases h
    rfl
  | error e => cases h

/-- A program that leaves everything returns in the state it was started in. -/
theorem ok_of_leaves {x : UpgradeM α} (hx : Leaves id x) {a : α} (h : x w = .ok a w') : w' = w := by
  have hw := hx w
  rw [h] at hw
  exact hw

theorem after_attempt (x : UpgradeM Unit) (w : World) :
    ∃ r, attempt x w = .ok r (after (x w)) := by
  rw [attempt]
  cases x w with
  | ok u w' => exact ⟨none, rfl⟩
  | error e w' => exact ⟨some e, rfl⟩

theorem ok_of_optionally {c : Bool} {x : UpgradeM Unit} {g : Machine → Machine}
    (hx : ∀ w w', x w = .ok () w' → w' = { w with machine := g w.machine })
    (h : optionally c () x w = .ok () w') :
    w' = { w with machine := if c then g w.machine else w.machine } := by
  cases c with
  | true => exact hx w w' h
  | false =>
    cases h
    rfl

variable (o : Outcomes) (component : Component)

/-- The machine with the new files and the service restarted. -/
def replaced (found : Found) (wasActive : Bool) (m : Machine) : Machine where
  binary := some found.newBinary
  web := if component.withWeb then found.newWeb else m.web
  active := if component.unit.isSome && wasActive then true else m.active
  binaryBackups := m.binaryBackups
  webBackups := m.webBackups

theorem ok_of_replaceWeb (newWeb : Option Tree) (w w' : World)
    (h : replaceWeb o newWeb w = .ok () w') :
    w' = { w with machine := w.machine.setWeb newWeb } := by
  obtain ⟨_, w₁, hremove, h⟩ := ok_of_bind h
  obtain ⟨_, w₂, hparent, h⟩ := ok_of_bind h
  rw [ok_of_put h, ok_of_lift hparent, ok_of_put hremove]
  rfl

theorem ok_of_restartService (w w' : World) (h : restartService o w = .ok () w') :
    w' = { w with machine := w.machine.setActive true } := by
  obtain ⟨_, w₁, hrestart, h⟩ := ok_of_bind h
  rw [ok_of_put h, ok_of_put hrestart]
  rfl

theorem ok_of_replaceAndVerify {found : Found} {wasActive : Bool}
    (h : replaceAndVerify o component found.newBinary found.newWeb found.targetVersion wasActive w =
      .ok () w') : w' = { w with machine := replaced component found wasActive w.machine } := by
  obtain ⟨_, w₁, hmove, h⟩ := ok_of_bind h
  obtain ⟨_, w₂, hchmod, h⟩ := ok_of_bind h
  obtain ⟨_, w₃, hweb, h⟩ := ok_of_bind h
  obtain ⟨_, w₄, hverify, h⟩ := ok_of_bind h
  rw [ok_of_optionally (ok_of_restartService o) h,
    ok_of_leaves (leaves_verifyVersion o id found.targetVersion) hverify,
    ok_of_optionally (ok_of_replaceWeb o found.newWeb) hweb, ok_of_lift hchmod, ok_of_put hmove]
  refine congrArg (fun m => { w with machine := m }) ?_
  rw [replaced]
  cases component.withWeb <;> cases component.unit.isSome && wasActive <;> rfl

/-- What stays when files are replaced. -/
theorem leaves_replaceAndVerify {wasActive : Bool}
    (hbinary : ∀ w a, f { w with machine := w.machine.setBinary a } = f w)
    (hweb : ∀ w a, f { w with machine := w.machine.setWeb a } = f w)
    (hactive : (component.unit.isSome && wasActive) = true →
      ∀ w a, f { w with machine := w.machine.setActive a } = f w)
    (newBinary : String) (newWeb : Option Tree) (targetVersion : String) :
    Leaves f (replaceAndVerify o component newBinary newWeb targetVersion wasActive) := by
  have hreplace : Leaves f (replaceWeb o newWeb) :=
    leaves_bind (leaves_put hweb _ _) fun _ => leaves_bind (leaves_lift f _) fun _ =>
    leaves_put hweb _ _
  have hservice : Leaves f
      (optionally (component.unit.isSome && wasActive) () (restartService o)) := by
    cases hseen : component.unit.isSome && wasActive with
    | false => exact leaves_pure f ()
    | true =>
      exact leaves_bind (leaves_put (hactive hseen) _ _) fun _ => leaves_put (hactive hseen) _ _
  exact leaves_bind (leaves_put hbinary _ _) fun _ => leaves_bind (leaves_lift f _) fun _ =>
    leaves_bind (leaves_optionally hreplace _ _) fun _ =>
    leaves_bind (leaves_verifyVersion o f targetVersion) fun _ => hservice

theorem ok_of_restoreBinary {backup : Option String} (h : restoreBinary o backup w = .ok () w') :
    w' = { w with machine := w.machine.setBinary (backup.bind w.machine.binaryBackups) } := by
  obtain ⟨_, w₁, hremove, h⟩ := ok_of_bind h
  cases ok_of_put hremove
  cases backup with
  | none =>
    cases h
    rfl
  | some label =>
    obtain ⟨m, w₂, hm, h⟩ := ok_of_bind h
    cases hm
    rw [ok_of_put h]
    rfl

theorem ok_of_restoreWeb {backup : Option String} (h : restoreWeb o backup w = .ok () w') :
    w' = { w with machine := w.machine.setWeb (backup.bind w.machine.webBackups) } := by
  obtain ⟨_, w₁, hremove, h⟩ := ok_of_bind h
  cases ok_of_put hremove
  cases backup with
  | none =>
    cases h
    rfl
  | some label =>
    obtain ⟨m, w₂, hm, h⟩ := ok_of_bind h
    cases hm
    rw [ok_of_put h]
    rfl

/-- The machine with the backups restored and the service restarted. -/
def recovered (b : BackedUp) (m : Machine) : Machine where
  binary := b.binary.bind m.binaryBackups
  web := if component.withWeb then b.web.bind m.webBackups else m.web
  active := if component.unit.isSome && b.wasActive then true else m.active
  binaryBackups := m.binaryBackups
  webBackups := m.webBackups

/-- The machine with the service stopped, if it was seen active. -/
def stopped (b : BackedUp) (m : Machine) : Machine :=
  if component.unit.isSome && b.wasActive then m.setActive (m.active && !o.stop) else m

theorem optionally_systemdStop (b : BackedUp) (w : World) :
    optionally (component.unit.isSome && b.wasActive) () (systemdStop o) w =
      .ok () { w with machine := stopped o component b w.machine } := by
  rw [stopped]
  cases component.unit.isSome && b.wasActive with
  | true => rfl
  | false => rfl

theorem ok_of_backupBinary {label : String} {r : Option String}
    (h : backupBinary o label w = .ok r w') :
    r.bind w'.machine.binaryBackups = w.machine.binary ∧
      w'.machine.webBackups = w.machine.webBackups ∧ w'.machine.web = w.machine.web := by
  rw [backupBinary, bind_of_ok (show machine w = .ok w.machine w from rfl)] at h
  cases hbinary : w.machine.binary with
  | none =>
    rw [hbinary] at h
    cases h
    exact ⟨rfl, rfl, rfl⟩
  | some binary =>
    rw [hbinary] at h
    obtain ⟨_, w₁, hput, h⟩ := ok_of_bind h
    cases h
    rw [ok_of_put hput]
    exact ⟨Function.update_self _ _ _, rfl, rfl⟩

/-- The backup of the console has the files of an older one as well. -/
theorem ok_of_backupWeb {label : String} {r : Option String}
    (h : backupWeb o label w = .ok r w') :
    r.bind w'.machine.webBackups =
        (w.machine.web.map fun web => copyInto web (w.machine.webBackups label)) ∧
      w'.machine.binaryBackups = w.machine.binaryBackups := by
  rw [backupWeb, bind_of_ok (show machine w = .ok w.machine w from rfl)] at h
  cases hweb : w.machine.web with
  | none =>
    rw [hweb] at h
    cases h
    exact ⟨rfl, rfl⟩
  | some web =>
    rw [hweb] at h
    obtain ⟨_, w₁, hput, h⟩ := ok_of_bind h
    cases h
    rw [ok_of_put hput]
    exact ⟨Function.update_self _ _ _, rfl⟩

/-- The backups hold what is installed. -/
structure Holds (found : Found) (b : BackedUp) (m m' : Machine) : Prop where
  binary : b.binary.bind m'.binaryBackups = m.binary
  web : component.withWeb = true →
    b.web.bind m'.webBackups = m.web.map fun web => copyInto web (m.webBackups found.label)

theorem ok_of_backUp {found : Found} {b : BackedUp} (h : backUp o component found w = .ok b w') :
    Holds component found b w.machine w'.machine := by
  obtain ⟨_, w₀, hdir, h⟩ := ok_of_bind h
  cases ok_of_lift hdir
  obtain ⟨binary, w₁, hbinary, h⟩ := ok_of_bind h
  obtain ⟨web, w₂, hweb, h⟩ := ok_of_bind h
  obtain ⟨wasActive, w₃, hactive, h⟩ := ok_of_bind h
  cases h
  cases hactive
  obtain ⟨hbinary, hwebBackups, hsame⟩ := ok_of_backupBinary o hbinary
  cases hcomponent : component.withWeb with
  | false =>
    rw [hcomponent] at hweb
    cases hweb
    exact ⟨hbinary, fun h => by rw [hcomponent] at h; cases h⟩
  | true =>
    rw [hcomponent] at hweb
    obtain ⟨hweb, hbackups⟩ := ok_of_backupWeb o hweb
    rw [hwebBackups, hsame] at hweb
    exact ⟨(congrArg _ hbackups).trans hbinary, fun _ => hweb⟩

theorem recoverErrors_eq_nil {b : BackedUp} (h : recoverErrors o component b = []) :
    restoreResult o.restoreRemoveBinary.result o.restoreBinary.result b.binary = .ok () ∧
      onlyIf component.withWeb
        (restoreResult o.restoreRemoveWeb.result o.restoreWeb.result b.web) = .ok () ∧
      (if component.unit.isSome && b.wasActive then serviceError o else none) = none := by
  have hnone : ∀ {α : Type} {a : Option α}, a.toList = [] → a = none := by
    intro α a ha
    cases a with
    | none => rfl
    | some a => cases ha
  obtain ⟨h, hservice⟩ := List.append_eq_nil_iff.mp h
  obtain ⟨hbinary, hweb⟩ := List.append_eq_nil_iff.mp h
  exact ⟨errorOf_eq_none.mp (Option.map_eq_none_iff.mp (hnone hbinary)),
    errorOf_eq_none.mp (Option.map_eq_none_iff.mp (hnone hweb)), hnone hservice⟩

theorem recoverService_of_ok (h : serviceError o = none) (w : World) :
    recoverService o w = .ok none { w with machine := w.machine.setActive true } := by
  rw [serviceError] at h
  cases hrestart : o.recoverRestart.result with
  | error e =>
    rw [hrestart] at h
    cases h
  | ok u =>
    rw [hrestart] at h
    have hstable := errorOf_eq_none.mp (Option.map_eq_none_iff.mp h)
    have hput : ∀ {write : Write Bool} (w : World), write.result = .ok () →
        put Machine.setActive write true w =
          .ok () { w with machine := w.machine.setActive true } := by
      intro write w hwrite
      rw [put, hwrite]
    rw [recoverService, bind_of_ok (attempt_of_ok (hput w hrestart))]
    exact bind_of_ok (attempt_of_ok (hput _ hstable))

/-- **A recovery that reports nothing** puts the backups in place and starts the service. -/
theorem exists_recover {b : BackedUp} (h : recoverErrors o component b = []) (w : World) :
    ∃ w', recover o component b.binary b.web b.wasActive w = .ok () w' ∧
      w'.machine = recovered component b w.machine := by
  obtain ⟨hbinary, hweb, hservice⟩ := recoverErrors_eq_nil o component h
  have hendsBinary := ends_restoreBinary o w.statusFile b.binary
  rw [hbinary] at hendsBinary
  obtain ⟨w₁, h₁, hw₁⟩ := hendsBinary.exists_ok (s := w) rfl
  have hendsWeb := ends_optionally (ends_restoreWeb o w.statusFile b.web) component.withWeb
  rw [hweb] at hendsWeb
  obtain ⟨w₂, h₂, hw₂⟩ := hendsWeb.exists_ok hw₁
  have hthird : optionally (component.unit.isSome && b.wasActive) none (recoverService o) w₂ =
      .ok none { w₂ with machine := if component.unit.isSome && b.wasActive then
        w₂.machine.setActive true else w₂.machine } := by
    cases hseen : component.unit.isSome && b.wasActive with
    | false => rfl
    | true =>
      rw [hseen] at hservice
      exact recoverService_of_ok o hservice w₂
  rw [recover, bind_of_ok (attempt_of_ok h₁), bind_of_ok (attempt_of_ok h₂), bind_of_ok hthird]
  refine ⟨_, rfl, ?_⟩
  have hrestored := ok_of_optionally (g := fun m => m.setWeb (b.web.bind m.webBackups))
    (fun _ _ h => ok_of_restoreWeb o h) h₂
  rw [hrestored, ok_of_restoreBinary o h₁, recovered]
  cases component.withWeb <;> cases component.unit.isSome && b.wasActive <;> rfl

theorem exists_attempt {x : UpgradeM Unit} {r : Except CliError Unit} {I : World → Prop}
    (hx : Ends I x r) {w : World} (hw : I w) :
    attempt x w = .ok (errorOf r) (after (x w)) ∧ I (after (x w)) := by
  obtain ⟨w', h, hw'⟩ := (ends_attempt hx).exists_ok hw
  obtain ⟨r', h'⟩ := after_attempt x w
  rw [h] at h'
  cases h'
  exact ⟨h, hw'⟩

end Steps
end ProxyPanel.Cli
