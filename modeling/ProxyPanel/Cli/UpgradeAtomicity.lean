import ProxyPanel.Cli.StatusFile
import ProxyPanel.Cli.UpgradeParts
import ProxyPanel.Lib.Search

/-!
# What a failed upgrade leaves

An upgrade that returns an error is to leave the binary, the web console of the Hub and the
service as they were, unless the error says that the recovery failed too.  Up to the
backups nothing of this is touched.  Then the service is stopped, and only a failure of
`replaceAndVerify` is answered by a recovery: the write of the status before it and the one
after it return their errors as they are.  A recovered web console has the files of an older
backup under the same label as well.

* `atomic_iff`: which upgrades are atomic.
-/

namespace ProxyPanel.Cli

open Effects

/-! ### What a failed upgrade leaves as it was -/

/-- What a failed upgrade of a component is to leave as it was. -/
structure SameInstalled (component : Component) (m m' : Machine) : Prop where
  binary : m'.binary = m.binary
  web : component.withWeb = true → m'.web = m.web
  active : m'.active = m.active

/-- The error reports that the automatic recovery failed. -/
def reportsFailedRecovery (e : CliError) : Bool := Text.contains e.text "自动恢复也失败"

/-- The upgrade succeeds, or its recovery fails and the error says so, or nothing has changed. -/
def Atomic (o : Outcomes) (component : Component) (version : String) (w : World) : Prop :=
  ∀ e w', performUpgrade o component version w = .error e w' → reportsFailedRecovery e = false →
    SameInstalled component w.machine w'.machine

/-! ### How a replacement ends -/

section Replacement

variable (o : Outcomes) (component : Component) (found : Found) (b : BackedUp) {w : World}

/-- The error after a recovery that reported nothing. -/
def recoveredError (error : CliError) : CliError := .bail ("升级失败，已恢复旧版本: " ++ error.full)

theorem exists_of_replacing_error {e : CliError}
    (h : stageResult o w.statusFile "replacing" = .error e) :
    ∃ w', replace o component found b w = .error e w' ∧
      w'.machine = stopped o component b w.machine := by
  have hstage := ends_stage_at o w.statusFile (stopped o component b w.machine) "replacing"
    "正在替换文件并验证目标版本"
  rw [h] at hstage
  obtain ⟨w', hw', -, hmachine⟩ := hstage.exists_error
    (s := { w with machine := stopped o component b w.machine }) ⟨rfl, rfl⟩
  refine ⟨w', ?_, hmachine⟩
  rw [replace, bind_of_ok (optionally_systemdStop o component b w)]
  exact bind_of_error hw'

/-- A replacement that gets to the files concludes in the state they are left in. -/
theorem exists_tried (h : stageResult o w.statusFile "replacing" = .ok ()) :
    ∃ w₁ w₂, At w.statusFile (stopped o component b w.machine) w₁ ∧
      after (replaceAndVerify o component found.newBinary found.newWeb found.targetVersion
        b.wasActive w₁) = w₂ ∧ w₂.statusFile = w.statusFile ∧
      replace o component found b w = conclude o component b
        (errorOf (replaceResult o component found.targetVersion b.wasActive)) w₂ := by
  have hstage := ends_stage_at o w.statusFile (stopped o component b w.machine) "replacing"
    "正在替换文件并验证目标版本"
  rw [h] at hstage
  obtain ⟨w₁, hw₁, hat⟩ := hstage.exists_ok
    (s := { w with machine := stopped o component b w.machine }) ⟨rfl, rfl⟩
  have hends := ends_replaceAndVerify o component w.statusFile found.newBinary found.newWeb
    found.targetVersion b.wasActive
  obtain ⟨htried, hstatus⟩ := exists_attempt hends (w := w₁) hat.1
  refine ⟨w₁, _, hat, rfl, hstatus, ?_⟩
  rw [replace, bind_of_ok (optionally_systemdStop o component b w), bind_of_ok hw₁,
    bind_of_ok htried]

theorem exists_of_completed (h : stageResult o w.statusFile "replacing" = .ok ())
    (hreplaced : replaceResult o component found.targetVersion b.wasActive = .ok ())
    (hcompleted : stageResult o w.statusFile "completed" = .ok ()) :
    ∃ w', replace o component found b w = .ok () w' := by
  obtain ⟨w₁, w₂, hat, hafter, hstatus, hw⟩ := exists_tried o component found b h
  have hstage := ends_stage_at o w₂.statusFile w₂.machine "completed"
    "目标版本和服务状态验证通过"
  rw [hstatus, hcompleted] at hstage
  obtain ⟨w', hw', -⟩ := hstage.exists_ok (s := w₂) ⟨hstatus, rfl⟩
  rw [hw, hreplaced]
  exact ⟨w', hw'⟩

/-- The files are new and the service runs, but the command fails. -/
theorem exists_of_completed_error {e : CliError}
    (h : stageResult o w.statusFile "replacing" = .ok ())
    (hreplaced : replaceResult o component found.targetVersion b.wasActive = .ok ())
    (hcompleted : stageResult o w.statusFile "completed" = .error e) :
    ∃ w', replace o component found b w = .error e w' ∧
      w'.machine = replaced component found b.wasActive (stopped o component b w.machine) := by
  obtain ⟨w₁, w₃, hat, hafter, hstatus, hw⟩ := exists_tried o component found b h
  have hends := ends_replaceAndVerify o component w.statusFile found.newBinary found.newWeb
    found.targetVersion b.wasActive
  rw [hreplaced] at hends
  obtain ⟨w₂, hdone, -⟩ := hends.exists_ok (s := w₁) hat.1
  rw [hdone] at hafter
  cases hafter
  change w₂.statusFile = w.statusFile at hstatus
  have hmachine : w₂.machine =
      replaced component found b.wasActive (stopped o component b w.machine) := by
    rw [ok_of_replaceAndVerify o component hdone, ← hat.2]
  have hstage := ends_stage_at o w₂.statusFile w₂.machine "completed"
    "目标版本和服务状态验证通过"
  rw [hstatus, hcompleted] at hstage
  obtain ⟨w', hw', -, hsame⟩ := hstage.exists_error (s := w₂) ⟨hstatus, rfl⟩
  rw [hw, hreplaced]
  exact ⟨w', hw', hsame.trans hmachine⟩

/-- What stays when the files are replaced, also where this fails. -/
structure Kept (b : BackedUp) (m m' : Machine) : Prop where
  binaryBackups : m'.binaryBackups = m.binaryBackups
  webBackups : m'.webBackups = m.webBackups
  active : (component.unit.isSome && b.wasActive) = false → m'.active = m.active

theorem kept_of_tried {w₁ w₂ : World} (hat : At w.statusFile (stopped o component b w.machine) w₁)
    (hafter : after (replaceAndVerify o component found.newBinary found.newWeb found.targetVersion
      b.wasActive w₁) = w₂) : Kept component b w.machine w₂.machine := by
  have hbackups : (stopped o component b w.machine).binaryBackups = w.machine.binaryBackups ∧
      (stopped o component b w.machine).webBackups = w.machine.webBackups := by
    rw [stopped]
    cases component.unit.isSome && b.wasActive <;> exact ⟨rfl, rfl⟩
  subst hafter
  refine ⟨?_, ?_, fun hseen => ?_⟩
  · refine Eq.trans ?_ hbackups.1
    rw [← hat.2]
    exact leaves_replaceAndVerify (f := fun w => w.machine.binaryBackups) o component
      (fun _ _ => rfl) (fun _ _ => rfl) (fun _ _ _ => rfl) _ _ _ w₁
  · refine Eq.trans ?_ hbackups.2
    rw [← hat.2]
    exact leaves_replaceAndVerify (f := fun w => w.machine.webBackups) o component
      (fun _ _ => rfl) (fun _ _ => rfl) (fun _ _ _ => rfl) _ _ _ w₁
  · have hunseen : (component.unit.isSome && b.wasActive) = true → ∀ (w : World) (a : Bool),
        (w.machine.setActive a).active = w.machine.active := by
      intro h
      rw [hseen] at h
      cases h
    refine (leaves_replaceAndVerify (f := fun w => w.machine.active) o component (fun _ _ => rfl)
      (fun _ _ => rfl) hunseen _ _ _ w₁).trans ?_
    change w₁.machine.active = _
    rw [hat.2, stopped, hseen]
    rfl

/-- A failure whose recovery works. -/
theorem exists_of_recovered {error : CliError}
    (h : stageResult o w.statusFile "replacing" = .ok ())
    (hfailed : replaceResult o component found.targetVersion b.wasActive = .error error)
    (hrecover : recoverErrors o component b = []) :
    ∃ w' m, replace o component found b w = .error (recoveredError error) w' ∧
      Kept component b w.machine m ∧ w'.machine = recovered component b m := by
  obtain ⟨w₁, w₂, hat, hafter, hstatus, hw⟩ := exists_tried o component found b h
  have hattempt := exists_attempt (ends_stage_at o w₂.statusFile w₂.machine "rollback"
    "升级失败，正在恢复原文件和服务") (w := w₂) ⟨rfl, rfl⟩
  obtain ⟨hstage, -, hmachine⟩ := hattempt
  obtain ⟨w₃, hrecovered, hw₃⟩ := exists_recover o component hrecover
    (after (stage o "rollback" "升级失败，正在恢复原文件和服务" w₂))
  refine ⟨{ w₃ with rolledBack := true }, w₂.machine, ?_,
    kept_of_tried o component found b hat hafter, ?_⟩
  · rw [hw, hfailed, errorOf, conclude, rollBack, bind_of_ok hstage,
      bind_of_ok (attempt_of_ok hrecovered)]
    rfl
  · rw [← hmachine]
    exact hw₃

/-- A failure whose recovery fails is reported as such. -/
theorem exists_of_not_recovered {error : CliError}
    (h : stageResult o w.statusFile "replacing" = .ok ())
    (hfailed : replaceResult o component found.targetVersion b.wasActive = .error error)
    (hrecover : recoverErrors o component b ≠ []) :
    ∃ e w', replace o component found b w = .error e w' ∧ reportsFailedRecovery e = true := by
  obtain ⟨w₁, w₂, hat, hafter, hstatus, hw⟩ := exists_tried o component found b h
  obtain ⟨hstage, hstatus₃, -⟩ := exists_attempt (ends_stage_at o w₂.statusFile w₂.machine
    "rollback" "升级失败，正在恢复原文件和服务") (w := w₂) ⟨rfl, rfl⟩
  have hends := ends_recover o component w₂.statusFile b
  rw [if_neg hrecover] at hends
  obtain ⟨hattempt, -⟩ := exists_attempt hends hstatus₃
  refine ⟨.bail ("升级失败: " ++ error.full ++ "；自动恢复也失败: " ++
    "；".intercalate (recoverErrors o component b)), after (recover o component b.binary b.web
      b.wasActive (after (stage o "rollback" "升级失败，正在恢复原文件和服务" w₂))), ?_, ?_⟩
  · rw [hw, hfailed, errorOf, conclude, rollBack, bind_of_ok hstage, bind_of_ok hattempt]
    rfl
  · refine Text.contains_iff.mpr ?_
    rw [CliError.bail, String.toList_append, String.toList_append]
    have hword : "；自动恢复也失败: ".toList = ['；'] ++ "自动恢复也失败".toList ++ ": ".toList := by
      decide
    rw [hword]
    exact ((List.infix_append _ _ _).trans (List.suffix_append _ _).isInfix).trans
      (List.prefix_append _ _).isInfix

end Replacement

/-! ### Which upgrades are atomic -/

/-- What a failure after the backups must not meet. -/
structure Covered (o : Outcomes) (component : Component) (found : Found) (b : BackedUp)
    (statusFile : Option String) (m : Machine) : Prop where
  /-- A status that cannot be written returns with the service stopped. -/
  replacing : ∀ e, stageResult o statusFile "replacing" = .error e →
    reportsFailedRecovery e = false → b.wasActive = true → o.stop = false
  /-- So it does, at the end, with the new files. -/
  completed : ∀ e, stageResult o statusFile "replacing" = .ok () →
    replaceResult o component found.targetVersion b.wasActive = .ok () →
    stageResult o statusFile "completed" = .error e → reportsFailedRecovery e = false →
    some found.newBinary = m.binary ∧ (component.withWeb = true → found.newWeb = m.web)
  /-- An older backup of the console is restored along with the last one. -/
  recovered : ∀ error, stageResult o statusFile "replacing" = .ok () →
    replaceResult o component found.targetVersion b.wasActive = .error error →
    recoverErrors o component b = [] → reportsFailedRecovery (recoveredError error) = false →
    component.withWeb = true →
    ∀ web, m.web = some web → copyInto web (m.webBackups found.label) = web

section Atomicity

variable {o : Outcomes} {component : Component} {version : String} {w : World}

theorem wasActive_of_backUpResult {found : Found} {b : BackedUp} {m : Machine}
    (h : backUpResult o component found m = .ok b) :
    b.wasActive = (component.unit.isSome && (m.active && o.activeSeen)) := by
  rw [backUpResult] at h
  cases hdir : o.backupDir with
  | error e =>
    rw [hdir] at h
    cases h
  | ok u =>
    rw [hdir] at h
    cases hbinary : onlyIf m.binary.isSome o.backupBinary.result with
    | error e =>
      rw [hbinary] at h
      cases h
    | ok u =>
      rw [hbinary] at h
      cases hweb : onlyIf (component.withWeb && m.web.isSome) o.backupWeb.result with
      | error e =>
        rw [hweb] at h
        cases h
      | ok u =>
        rw [hweb] at h
        cases h
        rfl

variable {found : Found} {b : BackedUp} {m m' : Machine}

theorem stopped_binary : (stopped o component b m).binary = m.binary := by
  rw [stopped]
  split <;> rfl

theorem stopped_web : (stopped o component b m).web = m.web := by
  rw [stopped]
  split <;> rfl

/-- A service that is stopped was seen active. -/
theorem active_stopped_iff (h : backUpResult o component found m = .ok b)
    (hm : m'.active = m.active) :
    (stopped o component b m').active = m.active ↔ (b.wasActive = true → o.stop = false) := by
  rw [stopped, wasActive_of_backUpResult h]
  cases component.unit.isSome <;> cases hactive : m.active <;> cases o.activeSeen <;>
    cases o.stop <;> simp [Machine.setActive, hm, hactive]

theorem active_of_seen (h : backUpResult o component found m = .ok b)
    (hseen : (component.unit.isSome && b.wasActive) = true) : m.active = true := by
  rw [wasActive_of_backUpResult h, Bool.and_eq_true, Bool.and_eq_true, Bool.and_eq_true] at hseen
  exact hseen.2.2.1

theorem active_replaced (h : backUpResult o component found m = .ok b)
    (hm : m'.active = m.active) :
    (replaced component found b.wasActive (stopped o component b m')).active = m.active := by
  rw [replaced, stopped]
  cases hseen : component.unit.isSome && b.wasActive with
  | true => exact (active_of_seen h hseen).symm
  | false => exact hm

theorem active_recovered (h : backUpResult o component found m = .ok b)
    (hm : (component.unit.isSome && b.wasActive) = false → m'.active = m.active) :
    (recovered component b m').active = m.active := by
  rw [recovered]
  cases hseen : component.unit.isSome && b.wasActive with
  | true => exact (active_of_seen h hseen).symm
  | false => exact hm hseen

/-- From the backups on. -/
def AtomicFrom (o : Outcomes) (component : Component) (found : Found) (b : BackedUp) (m : Machine)
    (w : World) : Prop :=
  ∀ e w', replace o component found b w = .error e w' → reportsFailedRecovery e = false →
    SameInstalled component m w'.machine

theorem atomicFrom_of_error {e : CliError} {w' : World}
    (h : replace o component found b w = .error e w') : AtomicFrom o component found b m w ↔
      (reportsFailedRecovery e = false → SameInstalled component m w'.machine) := by
  constructor
  · intro hatomic
    exact hatomic e w' h
  · intro hsame e' w'' h'
    rw [h] at h'
    cases h'
    exact hsame

theorem sameInstalled_recovered_iff {statusFile : Option String} (hw : Untouched statusFile m w)
    (hholds : Holds component found b m w.machine) (hb : backUpResult o component found m = .ok b)
    (hkept : Kept component b w.machine m') :
    SameInstalled component m (recovered component b m') ↔ (component.withWeb = true →
      ∀ web, m.web = some web → copyInto web (m.webBackups found.label) = web) := by
  have hbinary : (recovered component b m').binary = m.binary := by
    rw [recovered, hkept.binaryBackups]
    exact hholds.binary
  have hactive : (recovered component b m').active = m.active :=
    active_recovered hb fun hseen => (hkept.active hseen).trans hw.active
  have hweb : component.withWeb = true → (recovered component b m').web =
      m.web.map fun web => copyInto web (m.webBackups found.label) := by
    intro hcomponent
    rw [recovered, hkept.webBackups]
    exact (if_pos hcomponent).trans (hholds.web hcomponent)
  constructor
  · intro h hcomponent web hm
    have hrestored := (hweb hcomponent).symm.trans (h.web hcomponent)
    rw [hm] at hrestored
    exact Option.some.inj hrestored
  · intro h
    refine ⟨hbinary, fun hcomponent => ?_, hactive⟩
    rw [hweb hcomponent]
    cases hm : m.web with
    | none => rfl
    | some web => exact congrArg some (h hcomponent web hm)

/-- **The atomicity of what follows the backups.** -/
theorem atomicFrom_iff (hw : Untouched w.statusFile m w)
    (hholds : Holds component found b m w.machine) (hb : backUpResult o component found m = .ok b) :
    AtomicFrom o component found b m w ↔ Covered o component found b w.statusFile m := by
  have hno : ∀ {r : Except CliError Unit} {e : CliError}, r = .ok () → r ≠ .error e := by
    intro r e h h'
    rw [h] at h'
    cases h'
  cases hreplacing : stageResult o w.statusFile "replacing" with
  | error e =>
    obtain ⟨w', hw', hmachine⟩ :=
      exists_of_replacing_error o component found b hreplacing
    have hsame : SameInstalled component m w'.machine ↔ (b.wasActive = true → o.stop = false) := by
      rw [hmachine, ← active_stopped_iff hb hw.active]
      exact ⟨fun h => h.active,
        fun h => ⟨stopped_binary.trans hw.binary, fun _ => stopped_web.trans hw.web, h⟩⟩
    rw [atomicFrom_of_error hw', hsame]
    constructor
    · intro h
      refine ⟨fun e' he' => ?_, fun e' h' => ?_, fun error h' => ?_⟩
      · rw [hreplacing] at he'
        cases he'
        exact h
      · exact absurd hreplacing (hno h')
      · exact absurd hreplacing (hno h')
    · intro h
      exact h.replacing e hreplacing
  | ok u =>
    cases hresult : replaceResult o component found.targetVersion b.wasActive with
    | ok u =>
      cases hcompleted : stageResult o w.statusFile "completed" with
      | ok u =>
        obtain ⟨w', hw'⟩ := exists_of_completed o component found b hreplacing hresult hcompleted
        refine iff_of_true (fun e w'' h => ?_)
          ⟨fun e h => ?_, fun e _ _ h => ?_, fun error _ h => ?_⟩
        · rw [hw'] at h
          cases h
        · exact absurd h (hno hreplacing)
        · exact absurd h (hno hcompleted)
        · exact absurd h (hno hresult)
      | error e =>
        obtain ⟨w', hw', hmachine⟩ :=
          exists_of_completed_error o component found b hreplacing hresult hcompleted
        have hsame : SameInstalled component m w'.machine ↔
            some found.newBinary = m.binary ∧
              (component.withWeb = true → found.newWeb = m.web) := by
          rw [hmachine]
          constructor
          · intro h
            refine ⟨h.binary, fun hcomponent => (Eq.symm ?_).trans (h.web hcomponent)⟩
            exact if_pos hcomponent
          · rintro ⟨hbinary, hweb⟩
            refine ⟨hbinary, fun hcomponent => ?_, active_replaced hb hw.active⟩
            exact (if_pos hcomponent).trans (hweb hcomponent)
        rw [atomicFrom_of_error hw', hsame]
        constructor
        · intro h
          refine ⟨fun e h => ?_, fun e' _ _ h' => ?_, fun error _ h => ?_⟩
          · exact absurd h (hno hreplacing)
          · rw [hcompleted] at h'
            cases h'
            exact h
          · exact absurd h (hno hresult)
        · intro h
          exact h.completed e hreplacing hresult hcompleted
    | error error =>
      have hcovered : Covered o component found b w.statusFile m ↔
          (recoverErrors o component b = [] →
            reportsFailedRecovery (recoveredError error) = false → component.withWeb = true →
            ∀ web, m.web = some web → copyInto web (m.webBackups found.label) = web) := by
        constructor
        · intro h
          exact h.recovered error hreplacing hresult
        · intro h
          refine ⟨fun e h => ?_, fun e _ h => ?_, fun error' _ h' => ?_⟩
          · exact absurd h (hno hreplacing)
          · exact absurd hresult (hno h)
          · rw [hresult] at h'
            cases h'
            exact h
      rw [hcovered]
      by_cases hnil : recoverErrors o component b = []
      · obtain ⟨w', m', hw', hkept, hmachine⟩ :=
          exists_of_recovered o component found b hreplacing hresult hnil
        rw [atomicFrom_of_error hw', hmachine, sameInstalled_recovered_iff hw hholds hb hkept]
        exact ⟨fun h _ => h, fun h => h hnil⟩
      · obtain ⟨e, w', hw', hreports⟩ :=
          exists_of_not_recovered o component found b hreplacing hresult hnil
        rw [atomicFrom_of_error hw', hreports]
        exact iff_of_true (fun h => by cases h) (fun h => absurd h hnil)

/-- **Which upgrades are atomic.** -/
theorem atomic_iff : Atomic o component version w ↔ ∀ found b,
    locateResult o component w.statusFile version = .ok (some found) →
    backUpResult o component found w.machine = .ok b →
    Covered o component found b w.statusFile w.machine := by
  have hlocate := ends_locate o component w.statusFile version w.machine
  have hat : At w.statusFile w.machine w := ⟨rfl, rfl⟩
  have hsame : ∀ {m m' : Machine}, m' = m → SameInstalled component m m' := by
    intro m m' h
    rw [h]
    exact ⟨rfl, fun _ => rfl, rfl⟩
  rw [Atomic, performUpgrade_eq]
  cases hlocated : locateResult o component w.statusFile version with
  | error e =>
    rw [hlocated] at hlocate
    obtain ⟨w', hw', -, hmachine⟩ := hlocate.exists_error hat
    rw [bind_of_error hw']
    refine iff_of_true (fun e' w'' h _ => ?_) (fun found b h => ?_)
    · cases h
      exact hsame hmachine
    · cases h
  | ok located =>
    rw [hlocated] at hlocate
    obtain ⟨w₀, hw₀, hstatus, hmachine⟩ := hlocate.exists_ok hat
    rw [bind_of_ok hw₀]
    cases located with
    | none => exact iff_of_true (fun e w'' h => by cases h) (fun found b h => by cases h)
    | some found =>
      have huntouched : Untouched w.statusFile w.machine w₀ := by
        rw [← hmachine]
        exact ⟨hstatus, rfl, rfl, rfl⟩
      have hbackUp := ends_backUp o component w.statusFile found w.machine
      cases hresult : backUpResult o component found w.machine with
      | error e =>
        rw [hresult] at hbackUp
        obtain ⟨w₁, hw₁, hkept⟩ := hbackUp.exists_error huntouched
        refine iff_of_true (fun e' w'' h _ => ?_) (fun found' b h h' => ?_)
        · change (backUp o component found >>= replace o component found) w₀ = _ at h
          rw [bind_of_error hw₁] at h
          cases h
          exact ⟨hkept.binary, fun _ => hkept.web, hkept.active⟩
        · cases h
          rw [hresult] at h'
          cases h'
      | ok b =>
        rw [hresult] at hbackUp
        obtain ⟨w₁, hw₁, hkept⟩ := hbackUp.exists_ok huntouched
        have hholds := ok_of_backUp o component hw₁
        rw [hmachine] at hholds
        have hstart : Untouched w₁.statusFile w.machine w₁ := by
          rw [hkept.status]
          exact hkept
        have hfrom := atomicFrom_iff hstart hholds hresult
        rw [hkept.status] at hfrom
        change (∀ e w', (backUp o component found >>= replace o component found) w₀ =
          .error e w' → _) ↔ _
        rw [bind_of_ok hw₁]
        refine Iff.trans hfrom ⟨fun h found' b' h' hb' => ?_, fun h => h found b rfl hresult⟩
        cases h'
        rw [hresult] at hb'
        cases hb'
        exact h

end Atomicity

/-! ### A disk that is full for the status file -/

namespace FullDisk

def noSpace : CliError :=
  ⟨"failed to create /opt/proxy-panel/upgrade-status.tmp-4242",
    "failed to create /opt/proxy-panel/upgrade-status.tmp-4242: No space left on device"⟩

def console : Tree := fun path => if path = "index.html" then some "<html></html>" else none

/-- The disk is full when the files are about to be replaced. -/
def outcomes : Outcomes :=
  { LockHeld.outcomes with
    statusWrites := fun name => if name = "replacing" then .error noSpace else .ok ()
    latestStable := .ok ⟨"v1.1.0", "1.1.0"⟩, installedBefore := .ok (some "1.0.0")
    compareVersions := fun _ _ => .ok .lt, releaseArch := .ok "amd64", httpClient := .ok ()
    tempDir := .ok (), downloaded := .ok (), extractDir := .ok (), extracted := .ok ()
    newBinary := .ok "hub 1.1.0", newWeb := some console, backupDir := .ok ()
    backupBinary := ⟨.ok (), none⟩, backupWeb := ⟨.ok (), none⟩, activeSeen := true, stop := true }

def world : World where
  machine := ⟨some "hub 1.0.0", some console, true, fun _ => none, fun _ => none⟩
  statusFile := some "/opt/proxy-panel/upgrade-status.json"
  record := UpgradeStatus.new default "hub" (some "latest")
  written := []
  rolledBack := false

end FullDisk

/-- The upgrade fails, does not recover, and the service stays stopped. -/
example : ¬ Atomic FullDisk.outcomes Component.hub "latest" FullDisk.world := by
  intro h
  have hsame := h FullDisk.noSpace _ rfl (by decide)
  have hactive : false = true := hsame.active
  cases hactive

end ProxyPanel.Cli
