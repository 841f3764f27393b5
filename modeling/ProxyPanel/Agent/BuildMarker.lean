import ProxyPanel.Agent.Upgrade
import Mathlib.Data.List.Infix

/-!
# What the build marker says

`ensure_core_build` skips the download of a build when the marker `.build_id.<core>` reads
`version|build_id` of it.  Two other operations change the file the marker is about and
leave the marker alone: the installation on demand and the deletion.  `MarkerSound` is what
the skip relies on, `Allowed` says which steps keep it (`markerSound_step_iff`), and
`markerSound_iff_guarded` carries this to whole runs.

An agent that is killed in the middle of an upgrade leaves what a failure at this place
leaves.
-/

namespace ProxyPanel.Agent.BuildMarker

open Run
open Upgrade (buildName)

/-! ### The files -/

structure Build where
  version : String
  buildId : String
  deriving DecidableEq, Repr

/-- The text of the marker of a build. -/
def Build.name (build : Build) : String := buildName build.version build.buildId

/-- Where the file at the path of the core is from.  A `remnant` is what an extraction that
failed left there. -/
inductive CoreFile where
  | installed (version : Option String)
  | downloaded (build : Build)
  | remnant
  deriving DecidableEq, Repr

/-- What `bin_dir` has of one core, and whether the core has a manager. -/
structure BinDir where
  registered : Bool
  binary : Option CoreFile
  marker : Option String
  deriving DecidableEq, Repr

inductive Download where
  | ok
  | failed (leavesRemnant : Bool)
  deriving DecidableEq, Repr

/-- How the calls of an installation end.  `binarySeen` is the answer of `try_exists` when
the file is there. -/
structure InstallOutcomes where
  binarySeen : Bool
  download : Download

/-- How the calls of an upgrade end.  `markerLeft` is the marker after a write that failed. -/
structure BuildOutcomes extends InstallOutcomes where
  markerReadOk : Bool
  binaryFound : Bool
  backupOk : Bool
  restoreOk : Bool
  markerWriteOk : Bool
  markerLeft : Option String

/-! ### The operations -/

/-- The file at the path of the core afterwards, and whether the call succeeded.  A file
that is there is taken as it is. -/
def ensureCoreBinary (o : InstallOutcomes) (file : CoreFile) (binary : Option CoreFile) :
    Option CoreFile × Bool :=
  if o.binarySeen && binary.isSome then (binary, true)
  else match o.download with
  | .ok => (some file, true)
  | .failed true => (some .remnant, false)
  | .failed false => (binary, false)

/-- `ensure_manager_from_discovered`. -/
def ensureManager (o : InstallOutcomes) (version : Option String) (s : BinDir) : BinDir :=
  if s.registered then s
  else
    let (binary, ok) := ensureCoreBinary o (.installed version) s.binary
    { s with binary, registered := ok }

/-- The marker as `ensure_core_build` reads it. -/
def currentBuild (o : BuildOutcomes) (s : BinDir) : String :=
  Text.trim (if o.markerReadOk then s.marker.getD "" else "")

def ensureCoreBuild (o : BuildOutcomes) (build : Build) (s : BinDir) : BinDir :=
  if currentBuild o s = build.name then s
  else
    let hasBinary := o.binaryFound && s.binary.isSome
    if hasBinary && !o.backupOk then s
    else
      -- The old file is moved aside.
      match ensureCoreBinary o.toInstallOutcomes (.downloaded build)
        (if hasBinary then none else s.binary) with
      | (binary, true) =>
        { s with binary, marker := if o.markerWriteOk then some build.name else o.markerLeft }
      | (binary, false) =>
        { s with binary := if hasBinary && o.restoreOk then s.binary else binary }

/-- The binary of a core with a manager is not deleted. -/
def deleteCoreBinary (removed : Bool) (s : BinDir) : BinDir :=
  if s.registered || !removed then s else { s with binary := none }

/-- A restart of the agent registers the binary that is there. -/
def discover (s : BinDir) : BinDir := { s with registered := s.binary.isSome }

inductive Operation where
  | ensureCoreBuild (o : BuildOutcomes) (build : Build)
  | ensureManager (o : InstallOutcomes) (version : Option String)
  | deleteCoreBinary (removed : Bool)
  | discover

def step (s : BinDir) : Operation → Option BinDir
  | .ensureCoreBuild o build => some (ensureCoreBuild o build s)
  | .ensureManager o version => some (ensureManager o version s)
  | .deleteCoreBinary removed => some (deleteCoreBinary removed s)
  | .discover => some (discover s)

/-! ### What a marker reads -/

/-- The marker reads `version|build_id` of the build. -/
def Reads (marker : Option String) (build : Build) : Prop :=
  ∃ m, marker = some m ∧ Text.trim m = build.name

/-- **Build marker soundness.** -/
def MarkerSound (s : BinDir) : Prop :=
  ∀ build, Reads s.marker build → ∀ file, s.binary = some file → file = .downloaded build

/-- The marker reads as no build. -/
def Unread (marker : Option String) : Prop := ∀ build, ¬ Reads marker build

/-- The marker reads as no other build. -/
def ReadsOnly (marker : Option String) (build : Build) : Prop :=
  ∀ other, Reads marker other → other = build

theorem reads_some {m : String} {build : Build} :
    Reads (some m) build ↔ Text.trim m = build.name := by
  simp [Reads]

theorem not_reads_none (build : Build) : ¬ Reads none build := by
  rintro ⟨m, hm, -⟩
  cases hm

theorem toList_name (build : Build) :
    build.name.toList = build.version.toList ++ '|' :: build.buildId.toList := by
  simp [Build.name, buildName]

theorem exists_name_eq {t : String} (h : '|' ∈ t.toList) : ∃ build : Build, build.name = t := by
  obtain ⟨v, b, hvb⟩ := List.append_of_mem h
  refine ⟨⟨.ofList v, .ofList b⟩, ?_⟩
  rw [← String.toList_inj, toList_name, String.toList_ofList, String.toList_ofList, hvb]

/-- Trimming keeps what is not white. -/
theorem mem_trim {c : Char} (hc : Text.isWhite c = false) {t : String} :
    c ∈ (Text.trim t).toList ↔ c ∈ t.toList := by
  have hdrop : ∀ l : List Char, c ∈ l.dropWhile Text.isWhite ↔ c ∈ l := by
    intro l
    induction l with
    | nil => exact Iff.rfl
    | cons x l ih =>
      rw [List.dropWhile_cons, List.mem_cons]
      split
      · rename_i hx
        have hne : c ≠ x := by
          rintro rfl
          rw [hc] at hx
          cases hx
        rw [ih]
        exact ⟨Or.inr, fun h => h.resolve_left hne⟩
      · exact List.mem_cons
  rw [Text.trim, String.toList_ofList, List.mem_reverse, hdrop, List.mem_reverse, hdrop]

/-- A marker that reads as no build has no bar in it. -/
theorem unread_some_iff {m : String} : Unread (some m) ↔ '|' ∉ m.toList := by
  have hbar : Text.isWhite '|' = false := by decide
  constructor
  · intro h hmem
    obtain ⟨build, hbuild⟩ := exists_name_eq ((mem_trim hbar).mpr hmem)
    exact h build (reads_some.mpr hbuild.symm)
  · intro h build hreads
    refine h ((mem_trim hbar).mp ?_)
    rw [reads_some.mp hreads, toList_name]
    simp

theorem unread_none : Unread none := not_reads_none

/-- Without a second bar the text determines the build. -/
theorem name_inj {build other : Build} (hversion : '|' ∉ build.version.toList)
    (hbuildId : '|' ∉ build.buildId.toList) (h : other.name = build.name) : other = build := by
  have hlist := congrArg String.toList h
  rw [toList_name, toList_name] at hlist
  have hcount := congrArg (List.count '|') hlist
  simp only [List.count_append, List.count_cons_self, List.count_eq_zero_of_not_mem hversion,
    List.count_eq_zero_of_not_mem hbuildId] at hcount
  have hother : '|' ∉ other.version.toList := List.count_eq_zero.mp (by omega)
  have htake : ∀ {v b : List Char}, '|' ∉ v → (v ++ '|' :: b).takeWhile (· ≠ '|') = v := by
    intro v b hv
    have hne : ∀ c ∈ v, decide (c ≠ '|') = true := fun c hc =>
      decide_eq_true fun heq => hv (heq ▸ hc)
    rw [List.takeWhile_append_of_pos hne]
    simp
  have hv : other.version.toList = build.version.toList := by
    rw [← htake hother, hlist, htake hversion]
  rw [hv] at hlist
  have hb := List.cons.inj (List.append_cancel_left hlist)
  obtain ⟨v, b⟩ := other
  obtain ⟨v', b'⟩ := build
  rw [Build.mk.injEq]
  exact ⟨String.toList_inj.mp hv, String.toList_inj.mp hb.2⟩

/-- **Which builds have a marker of their own**: no second bar, no white space around it. -/
theorem readsOnly_name_iff {build : Build} : ReadsOnly (some build.name) build ↔
    Text.trim build.name = build.name ∧ '|' ∉ build.version.toList ∧
      '|' ∉ build.buildId.toList := by
  constructor
  · intro h
    have hbar : Text.isWhite '|' = false := by decide
    have htrim : Text.trim build.name = build.name := by
      obtain ⟨other, hother⟩ := exists_name_eq ((mem_trim hbar).mpr
        (show '|' ∈ build.name.toList by rw [toList_name]; simp))
      rw [← hother, h other (reads_some.mpr hother.symm)]
    refine ⟨htrim, fun hmem => ?_, fun hmem => ?_⟩
    · obtain ⟨v, w, hvw⟩ := List.append_of_mem hmem
      have hsame : (Build.mk (.ofList v) (.ofList (w ++ '|' :: build.buildId.toList))).name =
          build.name := by
        rw [← String.toList_inj, toList_name, toList_name, hvw]
        simp
      have heq := h _ (reads_some.mpr (htrim.trans hsame.symm))
      have hlen := congrArg (fun b : Build => b.version.toList.length) heq
      simp [hvw] at hlen
    · obtain ⟨v, w, hvw⟩ := List.append_of_mem hmem
      have hsame : (Build.mk (.ofList (build.version.toList ++ '|' :: v)) (.ofList w)).name =
          build.name := by
        rw [← String.toList_inj, toList_name, toList_name, hvw]
        simp
      have heq := h _ (reads_some.mpr (htrim.trans hsame.symm))
      have hlen := congrArg (fun b : Build => b.version.toList.length) heq
      simp at hlen
  · rintro ⟨htrim, hversion, hbuildId⟩ other hother
    rw [reads_some, htrim] at hother
    exact name_inj hversion hbuildId hother.symm

/-- A skipped download is one of the file that is there. -/
theorem skipped_build_current {o : BuildOutcomes} {build : Build} {s : BinDir} (hs : MarkerSound s)
    (hskip : currentBuild o s = build.name) {file : CoreFile} (hfile : s.binary = some file) :
    file = .downloaded build := by
  refine hs build ?_ file hfile
  have hbar : '|' ∈ (currentBuild o s).toList := by
    rw [hskip, toList_name]
    simp
  cases hmarker : s.marker with
  | none => simp [currentBuild, hmarker, Text.trim] at hbar
  | some m =>
    cases hread : o.markerReadOk with
    | false => simp [currentBuild, hread, Text.trim] at hbar
    | true =>
      rw [currentBuild, hread, hmarker] at hskip
      exact reads_some.mpr hskip

/-! ### What keeps the marker sound -/

/-- The installation puts a file of its own at the path. -/
def Downloads (o : InstallOutcomes) (binary : Option CoreFile) : Prop :=
  (o.binarySeen = false ∨ binary = none) ∧ o.download ≠ .failed false

/-- The upgrade gets past the marker and the backup. -/
def Upgrades (o : BuildOutcomes) (build : Build) (s : BinDir) : Prop :=
  currentBuild o s ≠ build.name ∧ (o.binaryFound = true → s.binary ≠ none → o.backupOk = true)

/-- What `ensure_core_binary` finds at the path in an upgrade. -/
def pathAfterBackup (o : BuildOutcomes) (s : BinDir) : Option CoreFile :=
  if o.binaryFound then none else s.binary

/-- The marker an upgrade leaves. -/
def markerAfter (o : BuildOutcomes) (build : Build) : Option String :=
  if o.markerWriteOk then some build.name else o.markerLeft

/-- **Which upgrades keep the marker sound.**  One that downloads its build leaves a marker
of no other build; one that fails in the extraction gives the old file back, or the marker
reads as no build; and one that takes a file it had overlooked leaves no marker but that of
the file. -/
structure UpgradeAllowed (o : BuildOutcomes) (build : Build) (s : BinDir) : Prop where
  downloaded : (o.binarySeen = false ∨ pathAfterBackup o s = none) → o.download = .ok →
    ReadsOnly (markerAfter o build) build
  failed : (o.binarySeen = false ∨ pathAfterBackup o s = none) → o.download = .failed true →
    (o.binaryFound = true ∧ s.binary ≠ none ∧ o.restoreOk = true) ∨ Unread s.marker
  overlooked : o.binarySeen = true → ∀ file, pathAfterBackup o s = some file →
    ∀ other, Reads (markerAfter o build) other → file = .downloaded other

/-- The condition on a step. -/
def Allowed (s : BinDir) : Operation → Prop
  | .ensureCoreBuild o build => Upgrades o build s → UpgradeAllowed o build s
  | .ensureManager o _ => s.registered = false → Downloads o s.binary → Unread s.marker
  | .deleteCoreBinary _ | .discover => True

/-- What `ensure_core_binary` does: it takes the file, or a download ends one way or the other. -/
theorem ensureCoreBinary_cases (o : InstallOutcomes) (file : CoreFile) (binary : Option CoreFile) :
    (∃ old, o.binarySeen = true ∧ binary = some old ∧
        ensureCoreBinary o file binary = (some old, true)) ∨
      ((o.binarySeen = false ∨ binary = none) ∧
        ((o.download = .ok ∧ ensureCoreBinary o file binary = (some file, true)) ∨
          (o.download = .failed true ∧ ensureCoreBinary o file binary = (some .remnant, false)) ∨
          (o.download = .failed false ∧ ensureCoreBinary o file binary = (binary, false)))) := by
  have hdownload : (o.binarySeen = false ∨ binary = none) → ensureCoreBinary o file binary =
      match o.download with
      | .ok => (some file, true)
      | .failed true => (some .remnant, false)
      | .failed false => (binary, false) := by
    intro h
    have hcond : ¬ (o.binarySeen && binary.isSome) = true := by
      rcases h with hseen | hbinary
      · simp [hseen]
      · simp [hbinary]
    rw [ensureCoreBinary, if_neg hcond]
  by_cases h : o.binarySeen = false ∨ binary = none
  · refine Or.inr ⟨h, ?_⟩
    have heq := hdownload h
    cases hd : o.download with
    | ok =>
      rw [hd] at heq
      exact Or.inl ⟨rfl, heq⟩
    | failed leaves =>
      rw [hd] at heq
      cases leaves with
      | true => exact Or.inr (Or.inl ⟨rfl, heq⟩)
      | false => exact Or.inr (Or.inr ⟨rfl, heq⟩)
  · rw [not_or, Bool.not_eq_false] at h
    obtain ⟨old, hold⟩ := Option.ne_none_iff_exists'.mp h.2
    exact Or.inl ⟨old, h.1, hold, by rw [ensureCoreBinary, h.1, hold]; rfl⟩

theorem not_taken {seen : Bool} {binary : Option CoreFile} (hfree : seen = false ∨ binary = none)
    (hseen : seen = true) {file : CoreFile} (hfile : binary = some file) : False := by
  rcases hfree with hunseen | hnone
  · rw [hseen] at hunseen
    cases hunseen
  · rw [hnone] at hfile
    cases hfile

/-- A file that no upgrade downloaded needs a marker that reads as no build. -/
theorem markerSound_of_file_iff {registered : Bool} (file : CoreFile) {marker : Option String}
    (h : ∀ build, file ≠ .downloaded build) :
    MarkerSound ⟨registered, some file, marker⟩ ↔ Unread marker := by
  constructor
  · exact fun hs build hreads => h build (hs build hreads file rfl)
  · exact fun hu build hreads => absurd hreads (hu build)

theorem markerSound_of_downloaded_iff {registered : Bool} {build : Build} {marker : Option String} :
    MarkerSound ⟨registered, some (.downloaded build), marker⟩ ↔ ReadsOnly marker build := by
  constructor
  · intro hs other hreads
    exact (CoreFile.downloaded.inj (hs other hreads _ rfl)).symm
  · intro honly other hreads file hfile
    cases hfile
    rw [honly other hreads]

theorem markerSound_of_none {registered : Bool} {marker : Option String} :
    MarkerSound ⟨registered, none, marker⟩ := by
  intro build _ file hfile
  cases hfile

theorem markerSound_ensureManager_iff {o : InstallOutcomes} {version : Option String} {s : BinDir}
    (hs : MarkerSound s) : MarkerSound (ensureManager o version s) ↔
      (s.registered = false → Downloads o s.binary → Unread s.marker) := by
  cases hregistered : s.registered with
  | true =>
    rw [ensureManager, hregistered]
    exact iff_of_true hs (fun h => nomatch h)
  | false =>
    have heq : ensureManager o version s =
        { s with binary := (ensureCoreBinary o (.installed version) s.binary).1
                 registered := (ensureCoreBinary o (.installed version) s.binary).2 } := by
      rw [ensureManager, hregistered]
      rfl
    rw [heq]
    rcases ensureCoreBinary_cases o (.installed version) s.binary with
      ⟨old, hseen, hold, h⟩ | ⟨hfree, ⟨hok, h⟩ | ⟨hfailed, h⟩ | ⟨hfailed, h⟩⟩ <;> rw [h]
    · refine iff_of_true ?_ (fun _ hd => (not_taken hd.1 hseen hold).elim)
      rw [← hold]
      exact hs
    · exact (markerSound_of_file_iff (.installed version) (fun _ h => nomatch h)).trans
        ⟨fun hu _ _ => hu, fun hu => hu rfl ⟨hfree, by rw [hok]; exact fun h => nomatch h⟩⟩
    · exact (markerSound_of_file_iff .remnant (fun _ h => nomatch h)).trans
        ⟨fun hu _ _ => hu, fun hu => hu rfl ⟨hfree, by rw [hfailed]; simp⟩⟩
    · exact iff_of_true hs (fun _ hd => absurd hfailed hd.2)

theorem ensureCoreBuild_of_not_upgrades {o : BuildOutcomes} {build : Build} {s : BinDir}
    (h : ¬ Upgrades o build s) : ensureCoreBuild o build s = s := by
  by_cases hcurrent : currentBuild o s = build.name
  · rw [ensureCoreBuild, if_pos hcurrent]
  · have hbackup : ¬ (o.binaryFound = true → s.binary ≠ none → o.backupOk = true) :=
      fun hb => h ⟨hcurrent, hb⟩
    simp only [Classical.not_imp, Bool.not_eq_true] at hbackup
    obtain ⟨hfound, hbinary, hbackup⟩ := hbackup
    have hcond : ((o.binaryFound && s.binary.isSome) && !o.backupOk) = true := by
      simp [hfound, hbackup, Option.isSome_iff_ne_none.mpr hbinary]
    rw [ensureCoreBuild, if_neg hcurrent]
    exact if_pos hcond

theorem ensureCoreBuild_of_upgrades {o : BuildOutcomes} {build : Build} {s : BinDir}
    (h : Upgrades o build s) : ensureCoreBuild o build s =
      match ensureCoreBinary o.toInstallOutcomes (.downloaded build) (pathAfterBackup o s) with
      | (binary, true) => { s with binary, marker := markerAfter o build }
      | (binary, false) => { s with
          binary := if o.binaryFound && s.binary.isSome && o.restoreOk then s.binary
            else binary } := by
  obtain ⟨hcurrent, hbackup⟩ := h
  have hpath : (if o.binaryFound && s.binary.isSome then none else s.binary) =
      pathAfterBackup o s := by
    rw [pathAfterBackup]
    cases o.binaryFound with
    | false => rfl
    | true => cases s.binary <;> rfl
  have hcond : ¬ ((o.binaryFound && s.binary.isSome) && !o.backupOk) = true := by
    intro hcond
    simp only [Bool.and_eq_true, Bool.not_eq_true', Option.isSome_iff_ne_none] at hcond
    rw [hbackup hcond.1.1 hcond.1.2] at hcond
    cases hcond.2
  rw [ensureCoreBuild, if_neg hcurrent]
  simp only [if_neg hcond, hpath]
  rfl

theorem markerSound_ensureCoreBuild_iff {o : BuildOutcomes} {build : Build} {s : BinDir}
    (hs : MarkerSound s) : MarkerSound (ensureCoreBuild o build s) ↔
      (Upgrades o build s → UpgradeAllowed o build s) := by
  by_cases hupgrades : Upgrades o build s
  · rw [ensureCoreBuild_of_upgrades hupgrades, imp_iff_right hupgrades]
    rcases ensureCoreBinary_cases o.toInstallOutcomes (.downloaded build)
      (pathAfterBackup o s) with
      ⟨old, hseen, hold, h⟩ | ⟨hfree, ⟨hok, h⟩ | ⟨hfailed, h⟩ | ⟨hfailed, h⟩⟩ <;> rw [h]
    · -- The file was there all the time.
      constructor
      · refine fun hsound => ⟨fun hf => (not_taken hf hseen hold).elim,
          fun hf => (not_taken hf hseen hold).elim, ?_⟩
        intro _ file hfile other hreads
        cases hold.symm.trans hfile
        exact hsound other hreads old rfl
      · intro hallowed other hreads file hfile
        cases hfile
        exact hallowed.overlooked hseen old hold other hreads
    · refine markerSound_of_downloaded_iff.trans ⟨fun honly => ?_, fun h => h.downloaded hfree hok⟩
      refine ⟨fun _ _ => honly, fun _ hfailed => ?_,
        fun hseen _ h => (not_taken hfree hseen h).elim⟩
      rw [hok] at hfailed
      cases hfailed
    · -- The extraction failed: the old file is back, or a remnant is there.
      have hallowed_iff : UpgradeAllowed o build s ↔
          (o.binaryFound = true ∧ s.binary ≠ none ∧ o.restoreOk = true) ∨ Unread s.marker := by
        refine ⟨fun h => h.failed hfree hfailed, fun h => ⟨fun _ hok => ?_, fun _ _ => h,
          fun hseen _ h => (not_taken hfree hseen h).elim⟩⟩
        rw [hok] at hfailed
        cases hfailed
      rw [hallowed_iff]
      by_cases hrestored : o.binaryFound = true ∧ s.binary ≠ none ∧ o.restoreOk = true
      · have hcond : (o.binaryFound && s.binary.isSome && o.restoreOk) = true := by
          simp [hrestored, Option.isSome_iff_ne_none]
        simp only [if_pos hcond]
        exact iff_of_true hs (Or.inl hrestored)
      · have hcond : ¬ (o.binaryFound && s.binary.isSome && o.restoreOk) = true := by
          simpa [Option.isSome_iff_ne_none, and_assoc] using hrestored
        simp only [if_neg hcond]
        exact (markerSound_of_file_iff .remnant (fun _ h => nomatch h)).trans
          ⟨Or.inr, fun h => h.resolve_left hrestored⟩
    · -- The download failed: the old file is back, or there is none.
      refine iff_of_true ?_ ⟨fun _ hok => ?_, fun _ hremnant => ?_,
        fun hseen _ h => (not_taken hfree hseen h).elim⟩
      · simp only
        split
        · exact hs
        · rw [pathAfterBackup]
          split
          · exact markerSound_of_none
          · exact hs
      · rw [hok] at hfailed
        cases hfailed
      · rw [hremnant] at hfailed
        cases hfailed
  · rw [ensureCoreBuild_of_not_upgrades hupgrades]
    exact iff_of_true hs (fun h => absurd h hupgrades)

/-- **What a step does to the soundness of the marker.** -/
theorem markerSound_step_iff {s s' : BinDir} {op : Operation} (hs : MarkerSound s)
    (hstep : step s op = some s') : MarkerSound s' ↔ Allowed s op := by
  cases op with
  | ensureCoreBuild o build =>
    cases hstep
    exact markerSound_ensureCoreBuild_iff hs
  | ensureManager o version =>
    cases hstep
    exact markerSound_ensureManager_iff hs
  | deleteCoreBinary removed =>
    cases hstep
    refine iff_of_true ?_ trivial
    rw [deleteCoreBinary]
    split
    · exact hs
    · exact markerSound_of_none
  | discover =>
    cases hstep
    exact iff_of_true hs trivial

theorem isSome_run (s : BinDir) (ops : List Operation) : (run step s ops).isSome := by
  induction ops generalizing s with
  | nil => rfl
  | cons op ops ih =>
    rw [run_cons]
    cases op <;> exact ih _

/-- **Build marker soundness over runs**: the marker is sound in every state of a run exactly
when every step of the run is one that keeps it. -/
theorem markerSound_iff_guarded {s : BinDir} (hs : MarkerSound s) (ops : List Operation) :
    (∀ ops' s', ops' <+: ops → run step s ops' = some s' → MarkerSound s') ↔
      Guarded step Allowed s ops :=
  forall_prefix_iff_guarded (fun _ _ _ hs hstep => markerSound_step_iff hs hstep) hs
    (isSome_run s ops)

/-! ### An agent that is killed in an upgrade -/

namespace KilledUpgrade

def first : Build := ⟨"1.14.0", "b1"⟩

def second : Build := ⟨"1.14.0", "b2"⟩

/-- Nothing fails. -/
def fine : BuildOutcomes where
  binarySeen := true
  download := .ok
  markerReadOk := true
  binaryFound := true
  backupOk := true
  restoreOk := true
  markerWriteOk := true
  markerLeft := none

/-- The old file has been moved aside and nobody moves it back. -/
def killed : BuildOutcomes := { fine with download := .failed false, restoreOk := false }

/-- A core is installed on demand and upgraded; the agent is killed in the next upgrade, and
its restart installs the core again. -/
def ops : List Operation :=
  [.ensureManager fine.toInstallOutcomes none, .ensureCoreBuild fine first,
    .ensureCoreBuild killed second, .discover, .ensureManager fine.toInstallOutcomes none]

/-- The agent comes to the end of the second upgrade. -/
def upgraded : List Operation :=
  [.ensureManager fine.toInstallOutcomes none, .ensureCoreBuild fine first,
    .ensureCoreBuild fine second, .discover, .ensureManager fine.toInstallOutcomes none]

def fresh : BinDir := ⟨false, none, none⟩

/-- Where nothing fails an upgrade needs a marker of its own. -/
theorem upgradeAllowed_fine {build : Build} (h : ReadsOnly (some build.name) build) (s : BinDir) :
    UpgradeAllowed fine build s where
  downloaded _ _ := h
  failed _ hfailed := nomatch hfailed
  overlooked _ _ hfile := nomatch hfile

theorem guarded_upgraded : Guarded step Allowed fresh upgraded := by
  refine ⟨fun _ _ => unread_none, fun s₁ h₁ => ⟨fun _ => ?_, fun s₂ h₂ => ⟨fun _ => ?_,
    fun s₃ h₃ => ⟨trivial, fun s₄ h₄ => ⟨?_, fun _ _ => trivial⟩⟩⟩⟩⟩
  · exact upgradeAllowed_fine (readsOnly_name_iff.mpr (by decide)) _
  · exact upgradeAllowed_fine (readsOnly_name_iff.mpr (by decide)) _
  · cases h₁
    cases h₂
    cases h₃
    cases h₄
    exact fun hregistered => absurd hregistered (by decide)

end KilledUpgrade

/-- The marker of the first build stands beside a binary of no build. -/
theorem killed_upgrade_leaves_marker : ¬ ∀ (s : BinDir) (ops : List Operation), MarkerSound s →
    ∀ ops' s', ops' <+: ops → run step s ops' = some s' → MarkerSound s' := by
  intro h
  have hrun : run step KilledUpgrade.fresh KilledUpgrade.ops =
      some ⟨true, some (.installed none), some "1.14.0|b1"⟩ := by decide
  have hsound := h KilledUpgrade.fresh KilledUpgrade.ops markerSound_of_none _ _
    List.prefix_rfl hrun
  have hreads : Reads (some "1.14.0|b1") KilledUpgrade.first := reads_some.mpr (by decide)
  exact absurd (hsound _ hreads _ rfl) (by decide)

theorem markerSound_iff_guarded_upgraded : ∃ s',
    run step KilledUpgrade.fresh KilledUpgrade.upgraded = some s' ∧
      Reads s'.marker KilledUpgrade.second ∧ MarkerSound s' := by
  have hrun : run step KilledUpgrade.fresh KilledUpgrade.upgraded =
      some ⟨true, some (.downloaded KilledUpgrade.second), some "1.14.0|b2"⟩ := by decide
  exact ⟨_, hrun, reads_some.mpr (by decide),
    (markerSound_iff_guarded markerSound_of_none _).mpr KilledUpgrade.guarded_upgraded _ _
      List.prefix_rfl hrun⟩

end ProxyPanel.Agent.BuildMarker
