import Mathlib.Data.List.Nodup
import ProxyPanel.Lib.Milestones
import ProxyPanel.Lib.Run
import ProxyPanel.Lib.Text

/-!
# Versioned upgrades

`runVersionedUpgrades` runs the steps whose version lies between the version stored in
`system_meta` and the version of the binary, and stores the version of each step that
succeeds and the version of the binary at the end.  A run is a sequence of boots, each
with a version and with steps that succeed or fail.  The version of the binary is also
stored when it is lower, and then says less than what was done: `runOnce_of_kept` is
what holds as long as no boot does that across a step.
-/

namespace ProxyPanel.Db.Upgrade

open Std Run Milestones

/-! ### Comparing versions -/

def parseSegments (v : String) : List Nat × Bool :=
  let v := v.toList.dropWhile (· = 'v')
  let base := v.takeWhile (· ≠ '-')
  ((Text.split '.' (String.ofList base)).filterMap (Text.parseUnsigned (2 ^ 64 - 1)), '-' ∈ v)

def compareVersions (a b : String) : Ordering :=
  (compare (parseSegments a).1 (parseSegments b).1).then
    (compare (parseSegments a).2 (parseSegments b).2).swap

/-- Versions are ordered by their segments and then by having no suffix. -/
theorem compareVersions_eq : compareVersions =
    compareLex (compareOn fun v => (parseSegments v).1)
      (fun a b => compareOn (fun v => (parseSegments v).2) b a) := by
  funext a b
  simp only [compareVersions, compareLex, compareOn]
  rw [← OrientedOrd.eq_swap]

instance : TransCmp compareVersions := by
  rw [compareVersions_eq]
  infer_instance

/-! ### The steps -/

structure UpgradeStep where
  introducedIn : String
  name : String
deriving DecidableEq

def upgradeSteps : List UpgradeStep :=
  [⟨"0.2.0", "purge_xray_data"⟩, ⟨"0.3.1", "refresh_singbox_builtin_template"⟩,
    ⟨"0.3.2", "refresh_singbox_builtin_template_v2"⟩,
    ⟨"0.3.3", "refresh_singbox_builtin_template_v3"⟩]

/-- The version assumed for databases from before versions were recorded. -/
def legacyBaselineVersion : String := "0.1.0"

/-- What happened, in order: a step ran, a boot was over. -/
inductive Event where
  | ran (step : UpgradeStep) (appVersion : String) (ok : Bool)
  | booted (appVersion : String) (ok : Bool)

/-- The version in `system_meta`, and what happened so far. -/
structure State where
  version : Option String := none
  events : List Event := []

def State.stored (s : State) : String := s.version.getD legacyBaselineVersion

/-- The loop of `run_versioned_upgrades`.  Which steps succeed is up to the database. -/
def runSteps (succeeds : UpgradeStep → Bool) (stored appVersion : String) :
    List UpgradeStep → State → Bool × State
  | [], s => (true, s)
  | step :: rest, s =>
    if compareVersions stored step.introducedIn = .lt ∧
        compareVersions step.introducedIn appVersion ≠ .gt then
      if succeeds step then
        runSteps succeeds stored appVersion rest
          { version := some step.introducedIn, events := s.events ++ [.ran step appVersion true] }
      else (false, { s with events := s.events ++ [.ran step appVersion false] })
    else runSteps succeeds stored appVersion rest s

def runVersionedUpgrades (succeeds : UpgradeStep → Bool) (appVersion : String) (s : State) :
    Bool × State :=
  match runSteps succeeds s.stored appVersion upgradeSteps s with
  | (true, s) => (true, if s.version ≠ some appVersion then { s with version := some appVersion }
      else s)
  | (false, s) => (false, s)

/-- A start of the Hub: the version it was built as, and the steps that would succeed. -/
structure Boot where
  appVersion : String
  succeeds : UpgradeStep → Bool

def boot (s : State) (b : Boot) : Option State :=
  let (ok, s) := runVersionedUpgrades b.succeeds b.appVersion s
  some { s with events := s.events ++ [.booted b.appVersion ok] }

/-! ### What is to hold -/

def completed (events : List Event) : List UpgradeStep :=
  events.filterMap fun
    | .ran step _ true => some step
    | _ => none

/-- A version is not below the one a step was introduced in. -/
abbrev crossed (version : String) (step : UpgradeStep) : Bool :=
  reached compareVersions UpgradeStep.introducedIn version step

/-- A boot is done only after the steps its version needs, and a step runs only on boots
of a version that has it. -/
structure Sound (events : List Event) : Prop where
  not_skipped : ∀ past appVersion later, events = past ++ .booted appVersion true :: later →
    ∀ step ∈ upgradeSteps, crossed appVersion step = true → step ∈ completed past
  not_early : ∀ step appVersion ok, Event.ran step appVersion ok ∈ events →
    crossed appVersion step = true

/-- **Each step runs exactly once**: it completes at most once, after the steps before it
in the table, before any boot that needs it is done, and on no boot that does not have it. -/
structure RunOnce (events : List Event) : Prop extends Sound events where
  at_most_once : ∀ step ∈ upgradeSteps, (completed events).count step ≤ 1
  in_order : (completed events).Pairwise fun a b => upgradeSteps.idxOf a ≤ upgradeSteps.idxOf b

/-- The boot is not of a version below a step that the stored version has crossed. -/
def Kept (s : State) (b : Boot) : Prop :=
  ∀ step ∈ upgradeSteps, crossed s.stored step = true → crossed b.appVersion step = true

instance (s : State) (b : Boot) : Decidable (Kept s b) :=
  inferInstanceAs (Decidable (∀ step ∈ upgradeSteps, _ → _))

/-! ### One boot -/

theorem ascending_upgradeSteps : Ascending compareVersions UpgradeStep.introducedIn upgradeSteps := by
  show List.Pairwise _ _
  decide

theorem runs_iff {stored appVersion : String} {step : UpgradeStep} :
    (compareVersions stored step.introducedIn = .lt ∧
      compareVersions step.introducedIn appVersion ≠ .gt) ↔
    (crossed stored step = false ∧ crossed appVersion step = true) := by
  have heligible : compareVersions step.introducedIn appVersion ≠ .gt ↔
      crossed appVersion step = true := by
    rw [crossed, reached, @OrientedCmp.eq_swap _ compareVersions]
    cases compareVersions appVersion step.introducedIn <;> decide
  rw [← not_reached, heligible]

theorem completed_append (events : List Event) (e : Event) :
    completed (events ++ [e]) = completed events ++ match e with
      | .ran step _ true => [step]
      | _ => [] := by
  rw [completed, List.filterMap_append]
  refine congrArg _ ?_
  cases e with
  | ran step appVersion ok => cases ok <;> rfl
  | booted appVersion ok => rfl

/-- The steps that completed are the steps the stored version has crossed. -/
def Recorded (s : State) : Prop := completed s.events = upgradeSteps.filter (crossed s.stored)

theorem Sound.append {events : List Event} {e : Event} (h : Sound events)
    (hran : ∀ step appVersion ok, e = .ran step appVersion ok → crossed appVersion step = true)
    (hbooted : ∀ appVersion, e = .booted appVersion true →
      ∀ step ∈ upgradeSteps, crossed appVersion step = true → step ∈ completed events) :
    Sound (events ++ [e]) := by
  refine ⟨fun past appVersion later heq => ?_, fun step appVersion ok hmem => ?_⟩
  · rcases List.eq_nil_or_concat later with rfl | ⟨rest, last, rfl⟩
    · obtain ⟨rfl, hlast⟩ := List.append_inj' heq rfl
      exact hbooted appVersion (List.singleton_inj.mp hlast)
    · have hsplit : events ++ [e] = (past ++ .booted appVersion true :: rest) ++ [last] := by
        simpa using heq
      exact h.not_skipped past appVersion rest (List.append_inj' hsplit rfl).1
  · rcases List.mem_append.mp hmem with hmem | hmem
    · exact h.not_early step appVersion ok hmem
    · exact hran step appVersion ok (List.mem_singleton.mp hmem).symm

theorem Sound.append_ran {events : List Event} (h : Sound events) {x : UpgradeStep}
    {appVersion : String} (happ : crossed appVersion x = true) (ok : Bool) :
    Sound (events ++ [.ran x appVersion ok]) := by
  refine h.append (fun step app ok' heq => ?_) (fun _ heq => nomatch heq)
  cases heq
  exact happ

/-- What the loop keeps: it stands before a step, everything eligible before it is done,
and the stored version is the one of the start or one of a step that was run. -/
structure Loop (stored appVersion : String) (pre : List UpgradeStep) (s : State) : Prop where
  sound : Sound s.events
  recorded : Recorded s
  done : ∀ p ∈ pre, crossed appVersion p = true → crossed s.stored p = true
  stands : s.stored = stored ∨ ∃ p ∈ pre, s.stored = p.introducedIn ∧
    crossed appVersion p = true ∧ crossed stored p = false

theorem Loop.isGE {stored appVersion : String} {pre : List UpgradeStep} {s : State}
    (h : Loop stored appVersion pre s) : (compareVersions s.stored stored).isGE = true := by
  rcases h.stands with heq | ⟨p, -, heq, -, hp⟩
  · have hself : compareVersions stored stored = .eq := ReflCmp.compare_self
    rw [heq, hself]
    rfl
  · rw [heq]
    exact not_reached_of_reached hp (reached_mark p)

/-- A step the loop leaves out was done before or is not due. -/
theorem Loop.skip {stored appVersion : String} {pre : List UpgradeStep} {s : State}
    {x : UpgradeStep} (h : Loop stored appVersion pre s)
    (hx : ¬ (crossed stored x = false ∧ crossed appVersion x = true)) :
    Loop stored appVersion (pre ++ [x]) s := by
  refine ⟨h.sound, h.recorded, fun p hp happ => ?_, ?_⟩
  · rcases List.mem_append.mp hp with hp | hp
    · exact h.done p hp happ
    · cases List.mem_singleton.mp hp
      have hbefore : crossed stored x = true := by
        cases hcrossed : crossed stored x with
        | true => rfl
        | false => exact absurd ⟨hcrossed, happ⟩ hx
      exact reached_of_isGE hbefore h.isGE
  · rcases h.stands with heq | ⟨p, hp, hrest⟩
    · exact .inl heq
    · exact .inr ⟨p, List.mem_append_left _ hp, hrest⟩

/-- The steps that completed when the loop comes to a step it runs. -/
theorem Loop.completed_eq {stored appVersion : String} {pre post : List UpgradeStep} {s : State}
    {x : UpgradeStep} (h : Loop stored appVersion pre s)
    (htable : upgradeSteps = pre ++ x :: post) (hstored : crossed stored x = false)
    (happ : crossed appVersion x = true) : completed s.events = pre := by
  have hsorted := ascending_upgradeSteps
  rw [htable] at hsorted
  have hnot : crossed s.stored x = false := by
    rcases h.stands with heq | ⟨p, hp, heq, -, -⟩
    · rw [heq]
      exact hstored
    · rw [heq]
      exact not_reached.mpr (hsorted.before p hp)
  rw [h.recorded, htable]
  exact filter_reached hsorted
    (fun p hp => h.done p hp (reached_of_lt happ (hsorted.before p hp))) hnot

theorem Loop.run {stored appVersion : String} {pre post : List UpgradeStep} {s : State}
    {x : UpgradeStep} (h : Loop stored appVersion pre s)
    (htable : upgradeSteps = pre ++ x :: post) (hstored : crossed stored x = false)
    (happ : crossed appVersion x = true) :
    Loop stored appVersion (pre ++ [x])
      { version := some x.introducedIn, events := s.events ++ [.ran x appVersion true] } := by
  have hsorted := ascending_upgradeSteps
  rw [htable] at hsorted
  refine ⟨h.sound.append_ran happ true, ?_, fun p hp _ => ?_, .inr ⟨x, List.mem_append_right _ (List.mem_singleton_self x), rfl,
    happ, hstored⟩⟩
  · rw [Recorded, completed_append, h.completed_eq htable hstored happ, htable]
    exact (filter_reached_mark hsorted).symm
  · rcases List.mem_append.mp hp with hp | hp
    · exact reached_of_lt (reached_mark x) (hsorted.before p hp)
    · cases List.mem_singleton.mp hp
      exact reached_mark x

/-- **The loop** ends with the invariant of the whole table or at a step that failed. -/
theorem runSteps_spec (succeeds : UpgradeStep → Bool) {stored appVersion : String}
    (rest : List UpgradeStep) : ∀ (pre : List UpgradeStep) (s : State), upgradeSteps = pre ++ rest →
      Loop stored appVersion pre s → ∀ ok t, runSteps succeeds stored appVersion rest s = (ok, t) →
        Sound t.events ∧ Recorded t ∧ (ok = true → Loop stored appVersion upgradeSteps t) := by
  induction rest with
  | nil =>
    intro pre s htable h ok t hrun
    cases hrun
    rw [List.append_nil] at htable
    exact ⟨h.sound, h.recorded, fun _ => htable ▸ h⟩
  | cons x rest ih =>
    intro pre s htable h ok t hrun
    have hnext : upgradeSteps = (pre ++ [x]) ++ rest := by rw [htable, List.append_cons]
    rw [runSteps] at hrun
    split at hrun
    · rename_i hdue
      obtain ⟨hstored, happ⟩ := runs_iff.mp hdue
      split at hrun
      · exact ih _ _ hnext (h.run htable hstored happ) ok t hrun
      · cases hrun
        have hsame := completed_append s.events (.ran x appVersion false)
        rw [List.append_nil] at hsame
        exact ⟨h.sound.append_ran happ false, hsame.trans h.recorded, nofun⟩
    · rename_i hdue
      exact ih _ _ hnext (h.skip fun hboth => hdue (runs_iff.mpr hboth)) ok t hrun

/-! ### All boots -/

structure Inv (s : State) : Prop where
  sound : Sound s.events
  recorded : Recorded s

theorem inv_initial : Inv {} := by
  have hnone : ([] : List UpgradeStep) = upgradeSteps.filter (crossed legacyBaselineVersion) := by
    decide
  refine ⟨⟨fun past appVersion later h => ?_, nofun⟩, hnone⟩
  cases past <;> cases h

theorem Inv.loop {s : State} (h : Inv s) (appVersion : String) : Loop s.stored appVersion [] s :=
  ⟨h.sound, h.recorded, nofun, .inl rfl⟩

/-- After the loop the stored version and the version of the binary have crossed the same
steps, if the binary is not below a step that was crossed before. -/
theorem Loop.crossed_eq {stored appVersion : String} {s : State}
    (h : Loop stored appVersion upgradeSteps s)
    (hkept : ∀ step ∈ upgradeSteps, crossed stored step = true → crossed appVersion step = true) :
    upgradeSteps.filter (crossed s.stored) = upgradeSteps.filter (crossed appVersion) := by
  refine List.filter_congr fun step hstep => Bool.eq_iff_iff.mpr ⟨fun hcrossed => ?_, h.done step hstep⟩
  rcases h.stands with heq | ⟨p, -, heq, happ, -⟩
  · rw [heq] at hcrossed
    exact hkept step hstep hcrossed
  · rw [heq] at hcrossed
    exact TransCmp.isGE_trans happ hcrossed

theorem inv_boot (s : State) (b : Boot) (s' : State) (h : Inv s) (hkept : Kept s b)
    (hboot : boot s b = some s') : Inv s' := by
  rw [boot, runVersionedUpgrades] at hboot
  generalize hrun : runSteps b.succeeds s.stored b.appVersion upgradeSteps s = result at hboot
  obtain ⟨ok, t⟩ := result
  obtain ⟨hsound, hrecorded, hloop⟩ := runSteps_spec b.succeeds upgradeSteps [] s
    (List.nil_append _).symm (h.loop b.appVersion) ok t hrun
  have hsame : completed (t.events ++ [.booted b.appVersion ok]) = completed t.events := by
    rw [completed_append, List.append_nil]
  cases ok with
  | false =>
    cases hboot
    exact ⟨hsound.append (fun _ _ _ heq => nomatch heq) (fun _ heq => nomatch heq),
      hsame.trans hrecorded⟩
  | true =>
    have hloop := hloop rfl
    have hcrossed := hloop.crossed_eq hkept
    have hdone : completed t.events = upgradeSteps.filter (crossed b.appVersion) :=
      hrecorded.trans hcrossed
    have hbooted : Sound (t.events ++ [.booted b.appVersion true]) := by
      refine hsound.append (fun _ _ _ heq => nomatch heq) fun app heq step hstep happ => ?_
      cases heq
      rw [hdone]
      exact List.mem_filter.mpr ⟨hstep, happ⟩
    cases hboot
    show Inv { (if t.version ≠ some b.appVersion then _ else t) with events := _ }
    split
    · exact ⟨hbooted, hsame.trans hdone⟩
    · exact ⟨hbooted, hsame.trans hrecorded⟩

theorem pairwise_idxOf {α : Type} [DecidableEq α] {l : List α} (h : l.Nodup) :
    l.Pairwise fun a b => l.idxOf a ≤ l.idxOf b := by
  refine List.pairwise_iff_getElem.mpr fun i j hi hj hij => ?_
  rw [h.idxOf_getElem i hi, h.idxOf_getElem j hj]
  exact Nat.le_of_lt hij

/-- **Versioned upgrades run exactly once** in every sequence of boots in which no boot is
of a version below a step that the stored version has crossed. -/
theorem runOnce_of_kept (boots : List Boot) (s : State) (hkept : Guarded boot Kept {} boots)
    (hrun : run boot {} boots = some s) : RunOnce s.events := by
  have hinv : Inv s := inv_of_guarded inv_boot inv_initial hkept hrun
  have hnodup : upgradeSteps.Nodup := ascending_upgradeSteps.nodup
  refine ⟨hinv.sound, fun step hstep => ?_, ?_⟩
  · rw [hinv.recorded]
    exact List.nodup_iff_count_le_one.mp (hnodup.filter _) step
  · rw [hinv.recorded]
    exact (pairwise_idxOf hnodup).sublist List.filter_sublist

/-- An upgrade that fails half-way, a pre-release, and an upgrade. -/
def upgrades : List Boot :=
  [⟨"0.3.2", fun step => step.introducedIn ≠ "0.3.2"⟩, ⟨"0.3.3-alpha.1", fun _ => true⟩,
    ⟨"v0.4.0", fun _ => true⟩]

theorem runOnce_of_kept_upgrades : ∃ s, run boot {} upgrades = some s ∧
    (completed s.events).length = 4 ∧ RunOnce s.events := by
  have hchecked : checked boot (fun s b => decide (Kept s b)) {} upgrades = true := by
    decide
  have hrun : (run boot {} upgrades).any fun s => (completed s.events).length == 4 := by
    decide
  obtain ⟨s, hs, hlength⟩ := Option.any_eq_true _ _ |>.mp hrun
  obtain ⟨hkept, -⟩ := guarded_of_checked (I := fun _ => True)
    (fun _ _ _ h => of_decide_eq_true h) (fun _ _ _ _ _ _ => trivial) trivial hchecked
  exact ⟨s, hs, by simpa using hlength, runOnce_of_kept upgrades s hkept hs⟩

/-- A release, the release before the last two steps, and the first one again. -/
def downAndUp : List Boot :=
  [⟨"0.3.3", fun _ => true⟩, ⟨"0.3.1", fun _ => true⟩, ⟨"0.3.3", fun _ => true⟩]

/-- The last two steps run a second time. -/
theorem downAndUp_runs_twice : ¬ ∀ (boots : List Boot) (s : State), run boot {} boots = some s →
    RunOnce s.events := by
  intro h
  have hrun : (run boot {} downAndUp).any fun s =>
      (completed s.events).count ⟨"0.3.2", "refresh_singbox_builtin_template_v2"⟩ == 2 := by
    decide
  obtain ⟨s, hs, htwice⟩ := Option.any_eq_true _ _ |>.mp hrun
  have honce := (h downAndUp s hs).at_most_once
    ⟨"0.3.2", "refresh_singbox_builtin_template_v2"⟩ (by decide)
  rw [beq_iff_eq.mp htwice] at honce
  exact absurd honce (by decide)

end ProxyPanel.Db.Upgrade
