import ProxyPanel.Agent.Client
import ProxyPanel.Lib.Traced

/-!
# The files of the snapshots

`AgentState` has the last applied configuration of each core as a map.  On disk each core has
a file of its own, written to a temporary file first and renamed; an agent of an older
version has left one file for whatever core it ran, which the next load renames or removes.
`current` reads the map off the files: a save that got as far as its rename updates it at
one core (`current_after`), and a load, which may move the older file, does not change it
(`current_migrate`).
-/

namespace ProxyPanel.Agent.Snapshots

open Traced

/-! ### Files -/

/-- A file, and whether only its owner can read it. -/
structure File (β : Type) where
  content : β
  restricted : Bool

/-- The data directory, by file name. -/
abbrev Files (β : Type) := String → Option (File β)

namespace Files

variable {β : Type}

/-- A file that is there keeps its mode. -/
def write (name : String) (content : β) (files : Files β) : Files β :=
  Function.update files name (some ⟨content, ((files name).map (·.restricted)).getD false⟩)

def remove (name : String) (files : Files β) : Files β := Function.update files name none

/-- A file of the new name is replaced. -/
def rename (source target : String) (files : Files β) : Files β :=
  match files source with
  | none => files
  | some file => Function.update (remove source files) target (some file)

theorem rename_of_some {source : String} {files : Files β} {file : File β}
    (h : files source = some file) (target : String) :
    rename source target files = Function.update (remove source files) target (some file) := by
  rw [rename, h]

def restrict (name : String) (files : Files β) : Files β :=
  Function.update files name ((files name).map fun file => { file with restricted := true })

end Files

/-! ### Names -/

def legacySnapshotFile : String := "last_config.json"

def allCores : List CoreType := [.singBox, .mihomo]

def snapshotPath (core : CoreType) : String := "last_config." ++ core.toStr ++ ".json"

/-- The extension after the last dot is replaced. -/
def withExtension (name extension : String) : String :=
  String.ofList ((name.toList.reverse.dropWhile (· ≠ '.')).drop 1).reverse ++ "." ++ extension

def tmpPath (core : CoreType) : String := withExtension (snapshotPath core) "tmp"

theorem tmpPath_ne_snapshotPath (core other : CoreType) : tmpPath core ≠ snapshotPath other := by
  cases core <;> cases other <;> decide

theorem tmpPath_ne_legacy (core : CoreType) : tmpPath core ≠ legacySnapshotFile := by
  cases core <;> decide

theorem snapshotPath_ne_legacy (core : CoreType) : snapshotPath core ≠ legacySnapshotFile := by
  cases core <;> decide

theorem snapshotPath_ne {core other : CoreType} (h : core ≠ other) :
    snapshotPath core ≠ snapshotPath other := by
  cases core <;> cases other <;> first | exact absurd rfl h | decide

/-! ### Saving and loading -/

section Store

variable {β : Type} (toVecPretty : PersistedConfig → β) (fromSlice : β → Option PersistedConfig)

/-- A save.  `parts` is what the temporary file has while it is written. -/
def saveLastConfig (core : CoreType) (config : Json) (version : String) (parts : List β) :
    Traced String (Files β) Unit := do
  writeParts parts
  Traced.step (Files.write (tmpPath core) (toVecPretty ⟨core.toStr, config, version⟩))
  Traced.step (Files.rename (tmpPath core) (snapshotPath core))
  Traced.step (Files.restrict (snapshotPath core))
where
  writeParts : List β → Traced String (Files β) Unit
    | [] => pure ()
    | part :: parts => do
      Traced.step (Files.write (tmpPath core) part)
      writeParts parts

/-- What can be read and parsed. -/
def loadOne (files : Files β) (name : String) : Option PersistedConfig :=
  (files name).bind fun file => fromSlice file.content

/-- The file of an older agent is renamed, unless its core has a file. -/
def migrateLegacySnapshot (files : Files β) : Files β :=
  match loadOne fromSlice files legacySnapshotFile with
  | none => files
  | some snapshot =>
    match CoreType.fromStr? snapshot.coreType with
    | none => Files.remove legacySnapshotFile files
    | some core =>
      if (files (snapshotPath core)).isSome then Files.remove legacySnapshotFile files
      else Files.rename legacySnapshotFile (snapshotPath core) files

def loadLastConfigs (files : Files β) : List (CoreType × PersistedConfig) × Files β :=
  let files := migrateLegacySnapshot fromSlice files
  (allCores.filterMap fun core =>
    (loadOne fromSlice files (snapshotPath core)).map fun snapshot => (core, snapshot), files)

/-- What the agent does with the files; `killedAfter` is the number of its steps a save takes
if it is cut. -/
inductive Op (β : Type) where
  | save (core : CoreType) (config : Json) (version : String) (parts : List β)
      (killedAfter : Option Nat)
  | load

/-- The files after an operation. -/
def after (files : Files β) : Op β → Files β
  | .save core config version parts none =>
    (saveLastConfig toVecPretty core config version parts files).state
  | .save core config version parts (some n) =>
    (saveLastConfig toVecPretty core config version parts).cut n files
  | .load => (loadLastConfigs fromSlice files).2

def afterAll (files : Files β) (ops : List (Op β)) : Files β :=
  ops.foldl (after toVecPretty fromSlice) files

/-! ### What is loaded -/

/-- The older snapshot, if it is of this core. -/
def legacyOf (files : Files β) (core : CoreType) : Option PersistedConfig :=
  (loadOne fromSlice files legacySnapshotFile).filter fun snapshot =>
    CoreType.fromStr? snapshot.coreType = some core

/-- What the files say about a core: its own file, and without one the older snapshot. -/
def current (files : Files β) (core : CoreType) : Option PersistedConfig :=
  if (files (snapshotPath core)).isSome then loadOne fromSlice files (snapshotPath core)
  else legacyOf fromSlice files core

variable {toVecPretty : PersistedConfig → β} {fromSlice : β → Option PersistedConfig}

theorem current_congr {files files' : Files β} {core : CoreType}
    (hpath : files' (snapshotPath core) = files (snapshotPath core))
    (hlegacy : files' legacySnapshotFile = files legacySnapshotFile) :
    current fromSlice files' core = current fromSlice files core := by
  rw [current, current, legacyOf, legacyOf, loadOne, loadOne, loadOne, loadOne, hpath, hlegacy]

theorem loadOne_of_none {files : Files β} {name : String} (h : (files name).isSome ≠ true) :
    loadOne fromSlice files name = none := by
  rw [loadOne, Option.not_isSome_iff_eq_none.mp h]
  rfl

theorem loadOne_remove {files : Files β} {name removed : String} (h : name ≠ removed) :
    loadOne fromSlice (Files.remove removed files) name = loadOne fromSlice files name := by
  rw [loadOne, Files.remove, Function.update_of_ne h, loadOne]

theorem current_of_legacyOf_none {files : Files β} {core : CoreType}
    (h : legacyOf fromSlice files core = none) :
    current fromSlice files core = loadOne fromSlice files (snapshotPath core) := by
  rw [current, h]
  split
  · rfl
  · rename_i hfile
    rw [loadOne_of_none hfile]

theorem legacyOf_of_loadOne {files : Files β} {core : CoreType} {snapshot : PersistedConfig}
    (h : loadOne fromSlice files legacySnapshotFile = some snapshot) :
    legacyOf fromSlice files core =
      if CoreType.fromStr? snapshot.coreType = some core then some snapshot else none := by
  rw [legacyOf, h, Option.filter_some]
  split
  · rename_i hcore
    rw [if_pos (of_decide_eq_true hcore)]
  · rename_i hcore
    rw [if_neg (fun h => hcore (decide_eq_true h))]

/-- **A migration loses nothing**: the older snapshot is read from its new place. -/
theorem loadOne_migrate (files : Files β) (core : CoreType) :
    loadOne fromSlice (migrateLegacySnapshot fromSlice files) (snapshotPath core) =
      current fromSlice files core := by
  have hne : snapshotPath core ≠ legacySnapshotFile := snapshotPath_ne_legacy core
  unfold migrateLegacySnapshot
  cases hlegacy : loadOne fromSlice files legacySnapshotFile with
  | none =>
    have hnone : legacyOf fromSlice files core = none := by rw [legacyOf, hlegacy]; rfl
    exact (current_of_legacyOf_none hnone).symm
  | some snapshot =>
    have hof := @legacyOf_of_loadOne _ _ _ core _ hlegacy
    obtain ⟨file, hold, -⟩ := Option.bind_eq_some_iff.mp hlegacy
    cases hcore : CoreType.fromStr? snapshot.coreType with
    | none =>
      rw [hcore, if_neg (by simp)] at hof
      rw [current_of_legacyOf_none hof]
      simp only [hcore]
      exact loadOne_remove hne
    | some owner =>
      rw [hcore] at hof
      simp only [hcore]
      by_cases howner : owner = core
      · subst howner
        rw [if_pos rfl] at hof
        by_cases hfile : (files (snapshotPath owner)).isSome = true
        · rw [if_pos hfile, loadOne_remove hne, current, if_pos hfile]
        · rw [if_neg hfile, current, if_neg hfile, hof, ← hlegacy]
          rw [loadOne, loadOne, Files.rename_of_some hold, Function.update_self, hold]
      · rw [if_neg (fun h => howner (Option.some.inj h))] at hof
        rw [current_of_legacyOf_none hof]
        split
        · exact loadOne_remove hne
        · rw [Files.rename_of_some hold, loadOne,
            Function.update_of_ne (snapshotPath_ne (Ne.symm howner)), Files.remove,
            Function.update_of_ne hne, loadOne]

/-- After a migration no older snapshot is left that could be read. -/
theorem legacyOf_migrate (files : Files β) (core : CoreType) :
    legacyOf fromSlice (migrateLegacySnapshot fromSlice files) core = none := by
  have hremoved : ∀ files' : Files β, files' legacySnapshotFile = none →
      legacyOf fromSlice files' core = none := fun files' h => by
    rw [legacyOf, loadOne, h]
    rfl
  unfold migrateLegacySnapshot
  cases hlegacy : loadOne fromSlice files legacySnapshotFile with
  | none =>
    rw [legacyOf, hlegacy]
    rfl
  | some snapshot =>
    obtain ⟨file, hold, -⟩ := Option.bind_eq_some_iff.mp hlegacy
    cases hcore : CoreType.fromStr? snapshot.coreType with
    | none =>
      simp only [hcore]
      exact hremoved _ (Function.update_self _ _ _)
    | some owner =>
      simp only [hcore]
      split
      · exact hremoved _ (Function.update_self _ _ _)
      · refine hremoved _ ?_
        rw [Files.rename_of_some hold, Function.update_of_ne (snapshotPath_ne_legacy owner).symm]
        exact Function.update_self _ _ _

theorem current_migrate (files : Files β) (core : CoreType) :
    current fromSlice (migrateLegacySnapshot fromSlice files) core =
      current fromSlice files core := by
  rw [current_of_legacyOf_none (legacyOf_migrate files core), loadOne_migrate]

theorem loadLastConfigs_eq (files : Files β) :
    (loadLastConfigs fromSlice files).1 = allCores.filterMap fun core =>
      (current fromSlice files core).map fun snapshot => (core, snapshot) := by
  rw [loadLastConfigs]
  simp only [loadOne_migrate]

/-! ### What a save changes -/

/-- Only the temporary file of the core is another. -/
def SameBut (core : CoreType) (files files' : Files β) : Prop :=
  ∀ name, name ≠ tmpPath core → files' name = files name

theorem sameBut_write (core : CoreType) (content : β) {files files' : Files β}
    (h : SameBut core files files') :
    SameBut core files (Files.write (tmpPath core) content files') := fun name hname => by
  rw [Files.write, Function.update_of_ne hname, h name hname]

theorem current_sameBut {core : CoreType} {files files' : Files β} (h : SameBut core files files')
    (other : CoreType) : current fromSlice files' other = current fromSlice files other :=
  current_congr (h _ (tmpPath_ne_snapshotPath core other).symm) (h _ (tmpPath_ne_legacy core).symm)

section Save

variable {core : CoreType} {config : Json} {version : String}

/-- What is passed through while the temporary file is written. -/
theorem writeParts_spec (parts : List β) {files files' : Files β}
    (h : SameBut core files files') : ∃ last passed,
    saveLastConfig.writeParts core parts files' = ⟨.ok (), last, passed⟩ ∧
      SameBut core files last ∧ passed.length = parts.length ∧
      ∀ files' ∈ passed, SameBut core files files' := by
  induction parts generalizing files' with
  | nil => exact ⟨files', [], rfl, h, rfl, nofun⟩
  | cons part parts ih =>
    have hfirst := sameBut_write core part h
    obtain ⟨last, passed, hrest, hlast, hlength, hall⟩ := ih hfirst
    refine ⟨last, Files.write (tmpPath core) part files' :: passed, ?_, hlast,
      congrArg (· + 1) hlength, ?_⟩
    · rw [saveLastConfig.writeParts, step_bind, hrest]
    · rintro files'' (_ | ⟨_, hmem⟩)
      · exact hfirst
      · exact hall files'' hmem

theorem three_steps {ε σ : Type} (f g h : σ → σ) (s : σ) :
    (do Traced.step f; Traced.step g; Traced.step h : Traced ε σ Unit) s =
      ⟨.ok (), h (g (f s)), [f s, g (f s), h (g (f s))]⟩ := rfl

/-- The temporary file is complete before it is renamed. -/
theorem saveLastConfig_spec (parts : List β) (files : Files β) : ∃ before passed written,
    (saveLastConfig toVecPretty core config version parts files).passed =
      passed ++ [written, Files.rename (tmpPath core) (snapshotPath core) written,
        Files.restrict (snapshotPath core)
          (Files.rename (tmpPath core) (snapshotPath core) written)] ∧
    (saveLastConfig toVecPretty core config version parts files).state =
      Files.restrict (snapshotPath core)
        (Files.rename (tmpPath core) (snapshotPath core) written) ∧
    passed.length = parts.length ∧ (∀ files' ∈ passed, SameBut core files files') ∧
    SameBut core files before ∧
    written = Files.write (tmpPath core) (toVecPretty ⟨core.toStr, config, version⟩) before := by
  obtain ⟨last, passed, hparts, hlast, hlength, hall⟩ :=
    @writeParts_spec _ core parts files files fun _ _ => rfl
  refine ⟨last, passed, _, ?_, ?_, hlength, hall, hlast, rfl⟩
  · rw [saveLastConfig, bind_of_ok (congrArg Outcome.result hparts), hparts, three_steps]
  · rw [saveLastConfig, bind_of_ok (congrArg Outcome.result hparts), hparts, three_steps]

theorem write_tmp (content : β) (files : Files β) : ∃ restricted,
    Files.write (tmpPath core) content files (tmpPath core) = some ⟨content, restricted⟩ :=
  ⟨_, Function.update_self _ _ _⟩

/-- **The rename is the save**: from then on the files have the new snapshot. -/
theorem current_rename (hround : ∀ s, fromSlice (toVecPretty s) = some s) {files before : Files β}
    (h : SameBut core files before) (snapshot : PersistedConfig) :
    current fromSlice (Files.rename (tmpPath core) (snapshotPath core)
        (Files.write (tmpPath core) (toVecPretty snapshot) before)) =
      Function.update (current fromSlice files) core (some snapshot) := by
  have hwritten := sameBut_write core (toVecPretty snapshot) h
  obtain ⟨restricted, htmp⟩ := @write_tmp _ core (toVecPretty snapshot) before
  rw [Files.rename_of_some htmp]
  funext other
  by_cases hother : other = core
  · subst hother
    rw [Function.update_self, current, loadOne, Function.update_self, Option.isSome_some,
      if_pos rfl, Option.bind_some, hround]
  · rw [Function.update_of_ne hother]
    refine current_congr ?_ ?_
    · rw [Function.update_of_ne (snapshotPath_ne hother), Files.remove,
        Function.update_of_ne (tmpPath_ne_snapshotPath core other).symm]
      exact hwritten _ (tmpPath_ne_snapshotPath core other).symm
    · rw [Function.update_of_ne (snapshotPath_ne_legacy core).symm, Files.remove,
        Function.update_of_ne (tmpPath_ne_legacy core).symm]
      exact hwritten _ (tmpPath_ne_legacy core).symm

theorem current_restrict (name : String) (files : Files β) :
    current fromSlice (Files.restrict name files) = current fromSlice files := by
  have hload : ∀ other, loadOne fromSlice (Files.restrict name files) other =
      loadOne fromSlice files other := fun other => by
    rw [loadOne, loadOne, Files.restrict]
    by_cases hother : other = name
    · subst hother
      rw [Function.update_self]
      cases files other with
      | none => rfl
      | some file => rfl
    · rw [Function.update_of_ne hother]
  have hsome : ∀ other, (Files.restrict name files other).isSome = (files other).isSome :=
    fun other => by
    rw [Files.restrict]
    by_cases hother : other = name
    · subst hother
      rw [Function.update_self, Option.isSome_map]
    · rw [Function.update_of_ne hother]
  funext core
  rw [current, current, legacyOf, legacyOf, hload, hload, hsome]

end Save

/-! ### Runs -/

/-- The snapshot of a save whose rename happened. -/
def committed : Op β → Option (CoreType × PersistedConfig)
  | .save core config version parts killedAfter =>
    if killedAfter.all (parts.length + 2 ≤ ·) then some (core, ⟨core.toStr, config, version⟩)
    else none
  | .load => none

theorem cut_before {α : Type} {s written renamed last : α} {passed : List α} {n : Nat}
    (h : n < passed.length + 2) :
    (s :: (passed ++ [written, renamed, last]))[n]?.getD last ∈ s :: (passed ++ [written]) := by
  have hsplit : s :: (passed ++ [written, renamed, last]) =
      (s :: (passed ++ [written])) ++ [renamed, last] := by
    rw [List.cons_append, List.append_assoc, List.singleton_append]
  have hlength : n < (s :: (passed ++ [written])).length := by
    rw [List.length_cons, List.length_append, List.length_singleton]
    omega
  rw [hsplit, List.getElem?_append_left hlength, List.getElem?_eq_getElem hlength,
    Option.getD_some]
  exact List.getElem_mem hlength

theorem cut_from {α : Type} {s written renamed last : α} {passed : List α} {n : Nat}
    (h : passed.length + 2 ≤ n) :
    (s :: (passed ++ [written, renamed, last]))[n]?.getD last = renamed ∨
      (s :: (passed ++ [written, renamed, last]))[n]?.getD last = last := by
  have hsplit : s :: (passed ++ [written, renamed, last]) =
      (s :: (passed ++ [written])) ++ [renamed, last] := by
    rw [List.cons_append, List.append_assoc, List.singleton_append]
  have hlength : (s :: (passed ++ [written])).length ≤ n := by
    rw [List.length_cons, List.length_append, List.length_singleton]
    omega
  rw [hsplit, List.getElem?_append_right hlength]
  match n - (s :: (passed ++ [written])).length with
  | 0 => exact Or.inl rfl
  | 1 => exact Or.inr rfl
  | k + 2 => exact Or.inr rfl

/-- A save before its rename changes nothing, from the rename on it has its snapshot. -/
theorem current_save (hround : ∀ s, fromSlice (toVecPretty s) = some s) (core : CoreType)
    (config : Json) (version : String) (parts : List β) (killedAfter : Option Nat)
    (files : Files β) :
    current fromSlice (after toVecPretty fromSlice files
        (.save core config version parts killedAfter)) =
      if killedAfter.all (parts.length + 2 ≤ ·) then
        Function.update (current fromSlice files) core (some ⟨core.toStr, config, version⟩)
      else current fromSlice files := by
  obtain ⟨before, passed, written, hpassed, hstate, hlength, hall, hbefore, rfl⟩ :=
    @saveLastConfig_spec _ toVecPretty core config version parts files
  have hrename := current_rename hround hbefore ⟨core.toStr, config, version⟩
  cases killedAfter with
  | none =>
    rw [after, hstate, current_restrict, hrename, Option.all_none, if_pos rfl]
  | some n =>
    rw [after, cut, hpassed, hstate, Option.all_some]
    by_cases hn : parts.length + 2 ≤ n
    · rw [if_pos (decide_eq_true hn), ← hrename]
      rw [← hlength] at hn
      rcases cut_from hn with heq | heq
      · rw [heq]
      · rw [heq, current_restrict]
    · rw [if_neg (fun h => hn (of_decide_eq_true h))]
      rw [← hlength, Nat.not_le] at hn
      suffices hsame : SameBut core files _ from funext fun other => current_sameBut hsame other
      rcases List.mem_cons.mp (cut_before hn) with heq | hmem
      · rw [heq]
        exact fun _ _ => rfl
      rcases List.mem_append.mp hmem with hmem | hmem
      · exact hall _ hmem
      · rw [List.mem_singleton.mp hmem]
        exact sameBut_write core _ hbefore

/-- **An operation changes what is loaded at most at one core**, and only if it is a save whose
rename happened. -/
theorem current_after (hround : ∀ s, fromSlice (toVecPretty s) = some s) (files : Files β)
    (op : Op β) : current fromSlice (after toVecPretty fromSlice files op) =
      match committed op with
      | some (core, snapshot) => Function.update (current fromSlice files) core (some snapshot)
      | none => current fromSlice files := by
  cases op with
  | load => exact funext fun core => current_migrate files core
  | save core config version parts killedAfter =>
    rw [current_save hround, committed]
    split
    · rfl
    · rfl

/-- The last save of a core whose rename happened. -/
def lastSaved (ops : List (Op β)) (core : CoreType) : Option PersistedConfig :=
  ((ops.filterMap committed).reverse.find? fun save => save.1 = core).map (·.2)

theorem lastSaved_append (ops : List (Op β)) (op : Op β) (core : CoreType) :
    lastSaved (ops ++ [op]) core =
      match committed op with
      | some (owner, snapshot) => if owner = core then some snapshot else lastSaved ops core
      | none => lastSaved ops core := by
  rw [lastSaved, List.filterMap_append, List.reverse_append]
  cases hcommitted : committed op with
  | none =>
    rw [List.filterMap_cons_none hcommitted, List.filterMap_nil]
    rfl
  | some save =>
    rw [List.filterMap_cons_some hcommitted, List.filterMap_nil, List.reverse_singleton,
      List.singleton_append, List.find?_cons]
    by_cases howner : save.1 = core
    · rw [decide_eq_true howner]
      exact (if_pos howner).symm
    · rw [decide_eq_false howner]
      exact (if_neg howner).symm

theorem current_afterAll (hround : ∀ s, fromSlice (toVecPretty s) = some s) (files : Files β)
    (hnew : ∀ core, files (snapshotPath core) = none) (ops : List (Op β)) (core : CoreType) :
    current fromSlice (afterAll toVecPretty fromSlice files ops) core =
      (lastSaved ops core).or (legacyOf fromSlice files core) := by
  induction ops using List.reverseRecOn with
  | nil =>
    rw [afterAll, List.foldl_nil, current, hnew core]
    rfl
  | append_singleton ops op ih =>
    rw [afterAll, List.foldl_append, List.foldl_cons, List.foldl_nil, current_after hround,
      lastSaved_append]
    cases committed op with
    | none => exact ih
    | some save =>
      simp only
      by_cases howner : save.1 = core
      · subst howner
        rw [Function.update_self, if_pos rfl, Option.some_or]
      · rw [Function.update_of_ne (Ne.symm howner), if_neg howner]
        exact ih

/-- The snapshot of a core among those that are loaded. -/
def loadedFor (fromSlice : β → Option PersistedConfig) (files : Files β) (core : CoreType) :
    Option PersistedConfig :=
  ((loadLastConfigs fromSlice files).1.find? fun loaded => loaded.1 = core).map (·.2)

theorem loadedFor_eq (files : Files β) (core : CoreType) :
    loadedFor fromSlice files core = current fromSlice files core := by
  rw [loadedFor, loadLastConfigs_eq, allCores, List.filterMap_cons, List.filterMap_cons,
    List.filterMap_nil]
  cases core with
  | singBox =>
    cases current fromSlice files .singBox <;> cases current fromSlice files .mihomo <;> rfl
  | mihomo =>
    cases current fromSlice files .singBox <;> cases current fromSlice files .mihomo <;> rfl

/-- **What a load returns after any run** of saves, cut or not, and loads: for each core the
last save that was renamed, or else the older snapshot of this core.  A save of one core
changes nothing of the other. -/
theorem load_after_run (toVecPretty : PersistedConfig → β) (fromSlice : β → Option PersistedConfig)
    (hround : ∀ s, fromSlice (toVecPretty s) = some s) (files : Files β)
    (hnew : ∀ core, files (snapshotPath core) = none) (ops : List (Op β)) :
    ((loadLastConfigs fromSlice (afterAll toVecPretty fromSlice files ops)).1 =
      allCores.filterMap fun core =>
        ((lastSaved ops core).or (legacyOf fromSlice files core)).map (core, ·)) ∧
    ∀ owner config version parts killedAfter core, core ≠ owner →
      loadedFor fromSlice (afterAll toVecPretty fromSlice files
          (ops ++ [.save owner config version parts killedAfter])) core =
        loadedFor fromSlice (afterAll toVecPretty fromSlice files ops) core := by
  constructor
  · rw [loadLastConfigs_eq]
    simp only [current_afterAll hround files hnew]
  · intro owner config version parts killedAfter core hne
    rw [loadedFor_eq, loadedFor_eq, afterAll, List.foldl_append, List.foldl_cons, List.foldl_nil,
      current_save hround]
    split
    · rw [Function.update_of_ne hne]
      rfl
    · rfl

end Store

namespace CutSave

/-- The files of an older agent that ran mihomo. -/
def files : Files (Option PersistedConfig) := fun name =>
  if name = legacySnapshotFile then some ⟨some ⟨"mihomo", .null, ""⟩, false⟩ else none

/-- A save that is cut before its rename, a load, and one that is cut after it. -/
def ops : List (Op (Option PersistedConfig)) :=
  [.save .mihomo (.bool true) "v1" [none] (some 2), .load,
    .save .singBox (.bool true) "v2" [none] (some 3)]

theorem loads : (loadLastConfigs id (afterAll some id files ops)).1 =
    [(.singBox, ⟨"sing-box", .bool true, "v2"⟩), (.mihomo, ⟨"mihomo", .null, ""⟩)] := by
  rw [(load_after_run some id (fun _ => rfl) files (fun core => by cases core <;> decide) ops).1]
  rfl

end CutSave

end ProxyPanel.Agent.Snapshots
