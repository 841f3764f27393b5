import ProxyPanel.Hub.Stepwise
import ProxyPanel.Lib.Interleave

/-!
# Core versions activated by several requests at once

`activate_core_version` takes no transaction: it loads its row, loads the rows of the core
type, deactivates them one by one and activates its own row.  `advance` is one of these
statements, or one of `save_core_versions`, on the table of versions; the marks that an
activation sets afterwards are in another table.

`oneActive_of_clear`: one version of a core type stays active if an activation marks its
version only while the others that have loaded the rows still have to deactivate it.
-/

namespace ProxyPanel.Hub.ActiveVersions

open Run Interleave Stepwise

/-! ### The requests -/

inductive Call where
  | activate (id : Uuid)
  | save (versions : List SaveVersionItem)

/-- How far a request has come. -/
inductive Phase where
  | waiting
  /-- The row is found, the rows of its core type are next. -/
  | found (row : CoreVersion)
  /-- The versions still to be deactivated, before the row is activated. -/
  | deactivating (row : CoreVersion) (rest : List Uuid)
  /-- The versions still to be saved. -/
  | saving (versions : List SaveVersionItem)
  | refreshing (item : SaveVersionItem) (id : Uuid) (rest : List SaveVersionItem)
  | inserting (item : SaveVersionItem) (core : CoreType) (version : String)
      (rest : List SaveVersionItem)
  | finished
  | failed (error : ApiError)

/-- The versions of a core type, as it is stored. -/
def versionsOf (db : Db) (coreType : String) : List CoreVersion :=
  db.coreVersions.filter (·.coreType = coreType)

def deactivated (v : CoreVersion) : CoreVersion := { v with isActive := false }

def activated (v : CoreVersion) : CoreVersion := { v with isActive := true }

/-- The loop over the versions to save. -/
def saveRest (rest : List SaveVersionItem) : Phase :=
  if rest = [] then .finished else .saving rest

/-- The query for the first of the versions to save. -/
def lookUp (db : Db) : List SaveVersionItem → Phase
  | [] => .failed (.badRequest "empty_selection" "no versions selected")
  | item :: rest =>
    match item.validate with
    | .error e => .failed e
    | .ok (core, version) =>
      match findVersion db core version with
      | some row =>
        if isStale row.publishedAt item.publishedAt then .refreshing item row.id rest
        else saveRest rest
      | none => .inserting item core version rest

/-- An update of one row; a row that is gone is an error. -/
def updateVersion (db : Db) (id : Uuid) (f : CoreVersion → CoreVersion) (phase : Phase) :
    Phase × Db :=
  match db.coreVersions.find id with
  | none => (.failed .dbConflict, db)
  | some _ => (phase, { db with coreVersions := db.coreVersions.update id f })

/-- The next statement of a request, `none` when it has answered. -/
def advance (db : Db) : Call → Phase → Option (Phase × Db)
  | .activate id, .waiting =>
    match db.coreVersions.find id with
    | none => some (.failed (.notFound "core version not found"), db)
    | some row =>
      match CoreType.fromStr? row.coreType with
      | none => some (.failed (.badRequest "invalid_core_type" "unknown core type"), db)
      | some _ => some (.found row, db)
  | .activate _, .found row =>
    some (.deactivating row ((versionsOf db row.coreType).map (·.id)), db)
  | .activate _, .deactivating row (id :: rest) =>
    some (updateVersion db id deactivated (.deactivating row rest))
  | .activate _, .deactivating row [] => some (updateVersion db row.id activated .finished)
  | .save versions, .waiting => some (lookUp db versions, db)
  | .save _, .saving versions => some (lookUp db versions, db)
  | .save _, .refreshing item id rest =>
    some (updateVersion db id (refreshed item) (saveRest rest))
  | .save _, .inserting item core version rest =>
    match insertVersion db (newVersion item core version) with
    | none => some (.failed dbError, db)
    | some db => some (saveRest rest, db)
  | _, _ => none

/-- The requests on a database. -/
abbrev Requests := State Db Call Phase

/-- All requests have answered, with success. -/
def Finished (s : Requests) : Prop := ∀ c ∈ s.calls, c.2 = .finished

/-- The active versions of a core type. -/
def activeIds (db : Db) (coreType : String) : List Uuid :=
  (db.coreVersions.filter fun v => v.coreType = coreType ∧ v.isActive).map (·.id)

/-- At most one version of each core type is active. -/
def OneActive (db : Db) : Prop := ∀ coreType, (activeIds db coreType).length ≤ 1

/-- **What the requests promise together**: at most one active version of a core type, and one
where an activation has finished. -/
def ActiveAsAsked (s : Requests) : Prop :=
  OneActive s.store ∧ ∀ id row, (.activate id, .finished) ∈ s.calls →
    s.store.coreVersions.find id = some row → (activeIds s.store row.coreType).length = 1

/-- Whether a request that is about to deactivate versions will see to one. -/
def awaits (version : CoreVersion) : Phase → Bool
  | .deactivating row rest =>
    row.coreType = version.coreType → row.id = version.id ∨ version.id ∈ rest
  | _ => true

/-- An activation marks its version while every other one of the core type that has loaded
the versions still has to deactivate it. -/
def clear (s : Requests) (i : Nat) : Bool :=
  match s.calls[i]? with
  | some (.activate _, .deactivating row []) => s.calls.all fun c => awaits row c.2
  | _ => true

/-! ### One statement -/

/-- The row an activation has found. -/
def Phase.target : Phase → Option CoreVersion
  | .found row => some row
  | .deactivating row _ => some row
  | _ => none

/-- No version goes or changes its core type. -/
def KeepsTypes (db db' : Db) : Prop :=
  ∀ id r, db.coreVersions.find id = some r →
    ∃ r', db'.coreVersions.find id = some r' ∧ r'.coreType = r.coreType

/-- What one statement can do. -/
inductive Statement (db : Db) : Call → Phase → Phase → Db → Prop
  | refused {call : Call} {phase : Phase} (e : ApiError) : Statement db call phase (.failed e) db
  | found {id : Uuid} {row : CoreVersion} (h : db.coreVersions.find id = some row) :
    Statement db (.activate id) .waiting (.found row) db
  | loaded {id : Uuid} {row : CoreVersion} : Statement db (.activate id) (.found row)
      (.deactivating row ((versionsOf db row.coreType).map (·.id))) db
  | deactivated {id v : Uuid} {row : CoreVersion} {rest : List Uuid} :
    Statement db (.activate id) (.deactivating row (v :: rest)) (.deactivating row rest)
      { db with coreVersions := db.coreVersions.update v deactivated }
  | marked {id : Uuid} {row r : CoreVersion} (h : db.coreVersions.find row.id = some r) :
    Statement db (.activate id) (.deactivating row []) .finished
      { db with coreVersions := db.coreVersions.update row.id activated }
  | saved {versions : List SaveVersionItem} {phase phase' : Phase} {db' : Db}
    (hactive : ∀ coreType, activeIds db' coreType = activeIds db coreType)
    (hkeeps : KeepsTypes db db') (hphase : phase'.target = none) (hold : phase.target = none) :
    Statement db (.save versions) phase phase' db'

theorem KeepsTypes.refl (db : Db) : KeepsTypes db db := fun _ r h => ⟨r, h, rfl⟩

theorem keepsTypes_update {db : Db} {id : Uuid} {f : CoreVersion → CoreVersion}
    (hid : ∀ v, (f v).id = v.id) (htype : ∀ v, (f v).coreType = v.coreType) :
    KeepsTypes db { db with coreVersions := db.coreVersions.update id f } := by
  intro id' r hr
  by_cases h : id' = id
  · subst h
    exact ⟨f r, (Table.find_update_self hid).trans (by rw [hr]; rfl), htype r⟩
  · exact ⟨r, (Table.find_update_of_ne h f).trans hr, rfl⟩

theorem mem_activeIds {db : Db} {coreType : String} {id : Uuid} : id ∈ activeIds db coreType ↔
    ∃ v, db.coreVersions.find id = some v ∧ v.coreType = coreType ∧ v.isActive = true := by
  rw [activeIds, List.mem_map]
  constructor
  · rintro ⟨v, hv, rfl⟩
    obtain ⟨hmem, h⟩ := Table.mem_filter.mp hv
    exact ⟨v, Table.find_eq_some_iff.mpr ⟨hmem, rfl⟩, of_decide_eq_true h⟩
  · rintro ⟨v, hv, h⟩
    obtain ⟨hmem, hid⟩ := Table.find_eq_some_iff.mp hv
    exact ⟨v, Table.mem_filter.mpr ⟨hmem, decide_eq_true h⟩, hid⟩

theorem activeIds_update {db : Db} {id : Uuid} {f : CoreVersion → CoreVersion}
    (hf : ∀ v, (f v).id = v.id ∧ (f v).coreType = v.coreType ∧ (f v).isActive = v.isActive)
    (coreType : String) :
    activeIds { db with coreVersions := db.coreVersions.update id f } coreType =
      activeIds db coreType := by
  rw [activeIds, activeIds, Table.filter, Table.filter]
  change ((db.coreVersions.rows.map _).filter _).map _ = _
  rw [List.filter_map, List.map_map]
  have hrow : ∀ v : CoreVersion, (if key v = id ∧ key (f v) = key v then f v else v).id = v.id ∧
      (if key v = id ∧ key (f v) = key v then f v else v).coreType = v.coreType ∧
      (if key v = id ∧ key (f v) = key v then f v else v).isActive = v.isActive := by
    intro v
    split
    · exact hf v
    · exact ⟨rfl, rfl, rfl⟩
  have hfilter : (fun v : CoreVersion => decide (v.coreType = coreType ∧ v.isActive = true)) ∘
      (fun v => if key v = id ∧ key (f v) = key v then f v else v) =
        fun v => decide (v.coreType = coreType ∧ v.isActive = true) := by
    funext v
    simp only [Function.comp, (hrow v).2.1, (hrow v).2.2]
  rw [hfilter]
  exact List.map_congr_left fun v _ => (hrow v).1

theorem saved_insertVersion {db db' : Db} {row : CoreVersion} (hrow : row.isActive = false)
    (h : insertVersion db row = some db') :
    (∀ coreType, activeIds db' coreType = activeIds db coreType) ∧ KeepsTypes db db' := by
  rw [insertVersion] at h
  split at h
  · cases h
  · obtain ⟨t, ht, rfl⟩ := Option.map_eq_some_iff.mp h
    refine ⟨fun coreType => ?_, fun id r hr => ⟨r, ?_, rfl⟩⟩
    · rw [activeIds, activeIds, Table.filter, Table.rows_of_insert ht, List.filter_append,
        List.filter_cons_of_neg (by simp [hrow]), List.filter_nil, List.append_nil]
      rfl
    · have hne : key row ≠ id := by
        intro hid
        rw [← hid, Table.find_eq_none_of_insert ht] at hr
        cases hr
      exact (Table.find_insert ht id).trans ((if_neg hne).trans hr)

theorem target_saveRest (rest : List SaveVersionItem) : (saveRest rest).target = none := by
  rw [saveRest]
  split <;> rfl

theorem target_lookUp (db : Db) (versions : List SaveVersionItem) :
    (lookUp db versions).target = none := by
  fun_cases lookUp db versions
  · rfl
  · rfl
  · rfl
  · exact target_saveRest _
  · rfl

theorem statement_of_updateVersion {db db' : Db} {call : Call} {phase phase' next : Phase}
    {id : Uuid} {f : CoreVersion → CoreVersion}
    (h : updateVersion db id f next = (phase', db'))
    (hdone : ∀ r, db.coreVersions.find id = some r → Statement db call phase next
      { db with coreVersions := db.coreVersions.update id f }) :
    Statement db call phase phase' db' := by
  rw [updateVersion] at h
  split at h
  · cases h
    exact .refused _
  · rename_i r hr
    cases h
    exact hdone r hr

theorem statement_of_advance {db db' : Db} {call : Call} {phase phase' : Phase}
    (h : advance db call phase = some (phase', db')) : Statement db call phase phase' db' := by
  revert h
  fun_cases advance db call phase <;> intro h
  · cases h
    exact .refused _
  · cases h
    exact .refused _
  · cases h
    exact .found ‹_›
  · cases h
    exact .loaded
  · exact statement_of_updateVersion (Option.some.inj h) fun _ _ => .deactivated
  · exact statement_of_updateVersion (Option.some.inj h) fun _ hr => .marked hr
  · cases h
    exact .saved (fun _ => rfl) (.refl db) (target_lookUp db _) rfl
  · cases h
    exact .saved (fun _ => rfl) (.refl db) (target_lookUp db _) rfl
  · refine statement_of_updateVersion (Option.some.inj h) fun _ _ => .saved ?_ ?_ ?_ rfl
    · exact activeIds_update fun _ => ⟨rfl, rfl, rfl⟩
    · exact keepsTypes_update (fun _ => rfl) (fun _ => rfl)
    · exact target_saveRest _
  · cases h
    exact .refused _
  · cases h
    obtain ⟨hactive, hkeeps⟩ := saved_insertVersion rfl ‹_›
    exact .saved hactive hkeeps (target_saveRest _) rfl
  · cases h

/-- A step is a statement of one of the requests. -/
theorem exists_statement {s s' : Requests} {i : Nat} (h : step advance s i = some s') :
    ∃ call phase phase' db', s.calls[i]? = some (call, phase) ∧
      Statement s.store call phase phase' db' ∧ s' = ⟨db', s.calls.set i (call, phase')⟩ := by
  obtain ⟨call, phase, phase', db', hi, hadvance, rfl⟩ := step_cases h
  exact ⟨call, phase, phase', db', hi, statement_of_advance hadvance, rfl⟩

theorem keepsTypes_of_statement {db db' : Db} {call : Call} {phase phase' : Phase}
    (h : Statement db call phase phase' db') : KeepsTypes db db' := by
  cases h with
  | refused e => exact .refl db
  | found hrow => exact .refl db
  | loaded => exact .refl db
  | deactivated => exact keepsTypes_update (fun _ => rfl) (fun _ => rfl)
  | marked hr => exact keepsTypes_update (fun _ => rfl) (fun _ => rfl)
  | saved _ hkeeps => exact hkeeps

/-- The active versions after an update of one row. -/
theorem mem_activeIds_update {db : Db} {id : Uuid} {f : CoreVersion → CoreVersion}
    (hid : ∀ v, (f v).id = v.id) {coreType : String} {x : Uuid} :
    x ∈ activeIds { db with coreVersions := db.coreVersions.update id f } coreType ↔
      (x ≠ id ∧ x ∈ activeIds db coreType) ∨ x = id ∧ ∃ r, db.coreVersions.find id = some r ∧
        (f r).coreType = coreType ∧ (f r).isActive = true := by
  rw [mem_activeIds, mem_activeIds]
  by_cases hx : x = id
  · subst hx
    have hfind : (db.coreVersions.update x f).find x = (db.coreVersions.find x).map f :=
      Table.find_update_self hid
    simp only [hfind, Option.map_eq_some_iff, ne_eq, not_true_eq_false, false_and, false_or,
      true_and]
    constructor
    · rintro ⟨v, ⟨r, hr, rfl⟩, h⟩
      exact ⟨r, hr, h⟩
    · rintro ⟨r, hr, h⟩
      exact ⟨f r, ⟨r, hr, rfl⟩, h⟩
  · have hfind : (db.coreVersions.update id f).find x = db.coreVersions.find x :=
      Table.find_update_of_ne hx f
    simp only [hfind, hx, ne_eq, not_false_eq_true, true_and, false_and, or_false]

theorem mem_activeIds_deactivated {db : Db} {id x : Uuid} {coreType : String} :
    x ∈ activeIds { db with coreVersions := db.coreVersions.update id deactivated } coreType ↔
      x ≠ id ∧ x ∈ activeIds db coreType := by
  rw [mem_activeIds_update (f := deactivated) fun _ => rfl]
  refine or_iff_left ?_
  rintro ⟨-, r, -, -, hactive⟩
  cases hactive

theorem mem_activeIds_activated {db : Db} {id x : Uuid} {coreType : String} {r : CoreVersion}
    (hr : db.coreVersions.find id = some r) :
    x ∈ activeIds { db with coreVersions := db.coreVersions.update id activated } coreType ↔
      x ∈ activeIds db coreType ∨ x = id ∧ r.coreType = coreType := by
  rw [mem_activeIds_update (f := activated) fun _ => rfl]
  simp only [hr, Option.some.injEq, exists_eq_left', activated, and_true]
  by_cases hx : x = id
  · subst hx
    simp only [ne_eq, not_true_eq_false, false_and, false_or, true_and]
    refine (or_iff_right_of_imp fun h => ?_).symm
    obtain ⟨v, hv, htype, -⟩ := mem_activeIds.mp h
    cases hr.symm.trans hv
    exact htype
  · simp only [hx, ne_eq, not_false_eq_true, true_and, false_and, or_false]

/-! ### At most one -/

/-- An activation has found its row, and what it still has to deactivate is of its core type. -/
structure KnowsRows (db : Db) (c : Call × Phase) : Prop where
  row : ∀ row, c.2.target = some row → c.1 = .activate row.id ∧
    ∃ r, db.coreVersions.find row.id = some r ∧ r.coreType = row.coreType
  rest : ∀ row rest, c.2 = .deactivating row rest → ∀ id ∈ rest,
    ∃ r, db.coreVersions.find id = some r ∧ r.coreType = row.coreType

/-- **What holds between the statements**: of a core type one version is active at most, and
the activations that have loaded the versions will deactivate it, unless it is their own. -/
structure Orderly (s : Requests) : Prop where
  known : ∀ c ∈ s.calls, KnowsRows s.store c
  one : ∀ coreType, ∃ id, ∀ x ∈ activeIds s.store coreType, x = id
  awaited : ∀ c ∈ s.calls, ∀ row rest, c.2 = .deactivating row rest →
    ∀ x ∈ activeIds s.store row.coreType, row.id = x ∨ x ∈ rest

theorem KnowsRows.mono {db db' : Db} {c : Call × Phase} (h : KnowsRows db c)
    (hkeeps : KeepsTypes db db') : KnowsRows db' c := by
  refine ⟨fun row hrow => ?_, fun row rest hphase id hid => ?_⟩
  · obtain ⟨hown, r, hr, htype⟩ := h.row row hrow
    obtain ⟨r', hr', htype'⟩ := hkeeps row.id r hr
    exact ⟨hown, r', hr', htype'.trans htype⟩
  · obtain ⟨r, hr, htype⟩ := h.rest row rest hphase id hid
    obtain ⟨r', hr', htype'⟩ := hkeeps id r hr
    exact ⟨r', hr', htype'.trans htype⟩

theorem knowsRows_of_target {db : Db} {call : Call} {phase : Phase} (h : phase.target = none) :
    KnowsRows db (call, phase) := by
  refine ⟨fun row hrow => ?_, fun row rest hphase => ?_⟩
  · rw [h] at hrow
    cases hrow
  · obtain rfl : phase = .deactivating row rest := hphase
    cases h

/-- The request that moves knows the rows of its next phase. -/
theorem knowsRows_of_statement {db db' : Db} {call : Call} {phase phase' : Phase}
    (h : Statement db call phase phase' db') (hold : KnowsRows db (call, phase)) :
    KnowsRows db' (call, phase') := by
  cases h with
  | refused e => exact knowsRows_of_target rfl
  | @found id row hrow =>
    have hid : row.id = id := Table.key_of_find hrow
    refine ⟨fun row' hrow' => ?_, fun _ _ hphase => nomatch hphase⟩
    cases hrow'
    rw [hid]
    exact ⟨rfl, row, hrow, rfl⟩
  | @loaded id row =>
    refine ⟨fun row' hrow' => hold.row row' hrow', fun row' rest hphase v hv => ?_⟩
    cases hphase
    obtain ⟨r, hr, rfl⟩ := List.mem_map.mp hv
    obtain ⟨hmem, htype⟩ := Table.mem_filter.mp hr
    exact ⟨r, Table.find_eq_some_iff.mpr ⟨hmem, rfl⟩, of_decide_eq_true htype⟩
  | @deactivated id v row rest =>
    have hkeeps : KeepsTypes db { db with
        coreVersions := db.coreVersions.update v deactivated } :=
      keepsTypes_update (fun _ => rfl) (fun _ => rfl)
    refine KnowsRows.mono ⟨fun row' hrow' => hold.row row' hrow', fun row' rest' hphase w hw => ?_⟩
      hkeeps
    cases hphase
    exact hold.rest row (v :: rest) rfl w (List.mem_cons_of_mem v hw)
  | marked hr => exact knowsRows_of_target rfl
  | saved _ _ hphase _ => exact knowsRows_of_target hphase

/-- What `clear` says of an activation that is about to mark its version. -/
theorem awaits_of_clear {s : Requests} {i : Nat} {id : Uuid} {row : CoreVersion}
    (hclear : clear s i = true) (hi : s.calls[i]? = some (.activate id, .deactivating row [])) :
    ∀ c ∈ s.calls, ∀ row' rest, c.2 = .deactivating row' rest → row'.coreType = row.coreType →
      row'.id = row.id ∨ row.id ∈ rest := by
  intro c hc row' rest hphase htype
  rw [clear, hi] at hclear
  have hawaits := List.all_eq_true.mp hclear c hc
  rw [hphase] at hawaits
  exact of_decide_eq_true hawaits htype

/-- **One statement.** -/
theorem orderly_step {s s' : Requests} {i : Nat} (hs : Orderly s) (hclear : clear s i = true)
    (h : step advance s i = some s') : Orderly s' := by
  obtain ⟨call, phase, phase', db', hi, hstatement, rfl⟩ := exists_statement h
  have hmem : (call, phase) ∈ s.calls := List.mem_of_getElem? hi
  have hknown : ∀ c ∈ s.calls.set i (call, phase'), KnowsRows db' c :=
    forall_mem_set hs.known (fun c _ hc => hc.mono (keepsTypes_of_statement hstatement))
      (knowsRows_of_statement hstatement (hs.known _ hmem))
  -- a statement after which no other version is active, of a request that is not in the loop
  have hsame : (∀ coreType, ∀ x ∈ activeIds db' coreType, x ∈ activeIds s.store coreType) →
      (∀ row rest, phase' = .deactivating row rest →
        ∀ x ∈ activeIds db' row.coreType, row.id = x ∨ x ∈ rest) →
      Orderly ⟨db', s.calls.set i (call, phase')⟩ := by
    intro hsub hmover
    refine ⟨hknown, fun coreType => ?_, forall_mem_set hs.awaited (fun c _ hc => ?_) hmover⟩
    · obtain ⟨id, hid⟩ := hs.one coreType
      exact ⟨id, fun x hx => hid x (hsub coreType x hx)⟩
    · exact fun row rest hphase x hx => hc row rest hphase x (hsub row.coreType x hx)
  cases hstatement with
  | refused e => exact hsame (fun _ _ hx => hx) fun _ _ hphase => nomatch hphase
  | found hrow => exact hsame (fun _ _ hx => hx) fun _ _ hphase => nomatch hphase
  | @loaded id row =>
    refine hsame (fun _ _ hx => hx) fun row' rest hphase x hx => ?_
    cases hphase
    obtain ⟨v, hv, htype, -⟩ := mem_activeIds.mp hx
    obtain ⟨hv, hid⟩ := Table.find_eq_some_iff.mp hv
    exact Or.inr (List.mem_map.mpr ⟨v, Table.mem_filter.mpr ⟨hv, decide_eq_true htype⟩, hid⟩)
  | @deactivated id v row rest =>
    refine hsame (fun _ _ hx => (mem_activeIds_deactivated.mp hx).2)
      fun row' rest' hphase x hx => ?_
    cases hphase
    obtain ⟨hne, hx⟩ := mem_activeIds_deactivated.mp hx
    refine (hs.awaited _ hmem row (v :: rest) rfl x hx).imp_right fun hx => ?_
    exact (List.mem_cons.mp hx).resolve_left hne
  | @marked id row r hr =>
    obtain ⟨-, r', hr', htype⟩ := (hs.known _ hmem).row row rfl
    cases hr.symm.trans hr'
    have hactive : ∀ coreType x, x ∈ activeIds { s.store with
        coreVersions := s.store.coreVersions.update row.id activated } coreType →
        x ∈ activeIds s.store coreType ∨ x = row.id ∧ row.coreType = coreType := by
      intro coreType x hx
      rw [← htype]
      exact (mem_activeIds_activated hr).mp hx
    refine ⟨hknown, fun coreType => ?_, forall_mem_set hs.awaited (fun c hc hcall => ?_)
      fun _ _ hphase => nomatch hphase⟩
    · by_cases hcore : row.coreType = coreType
      · -- its own loop has left no other version of the core type
        subst hcore
        refine ⟨row.id, fun x hx => ?_⟩
        rcases hactive _ x hx with hx | ⟨rfl, -⟩
        · exact ((hs.awaited _ hmem row [] rfl x hx).resolve_right List.not_mem_nil).symm
        · rfl
      · obtain ⟨id, hid⟩ := hs.one coreType
        refine ⟨id, fun x hx => hid x ?_⟩
        exact (hactive coreType x hx).resolve_right fun h => hcore h.2
    · intro row' rest hphase x hx
      rcases hactive _ x hx with hx | ⟨rfl, htypes⟩
      · exact hcall row' rest hphase x hx
      · exact awaits_of_clear hclear hi c hc row' rest hphase htypes.symm
  | saved hactive _ hphase _ =>
    refine hsame (fun coreType x hx => (hactive coreType) ▸ hx) fun row rest hphase' => ?_
    rw [hphase'] at hphase
    cases hphase

/-! ### At least one -/

/-- A version of the core type is active, a request is about to activate one, or one failed. -/
def Seen (coreType : String) (s : Requests) : Prop :=
  (∃ x, x ∈ activeIds s.store coreType) ∨
    (∃ c ∈ s.calls, ∃ row rest, c.2 = .deactivating row rest ∧ row.coreType = coreType) ∨
    ∃ c ∈ s.calls, ∃ e, c.2 = .failed e

/-- Where an activation has finished, a version of its core type is seen to. -/
def HeldActive (s : Requests) : Prop :=
  ∀ id, (.activate id, .finished) ∈ s.calls →
    ∃ r, s.store.coreVersions.find id = some r ∧ Seen r.coreType s

/-- A statement that keeps the active versions of a request that is not in the loop. -/
theorem seen_of_subset {coreType : String} {s : Requests} {i : Nat} {call : Call}
    {phase phase' : Phase} {db' : Db} (hi : s.calls[i]? = some (call, phase))
    (hsub : ∀ x ∈ activeIds s.store coreType, x ∈ activeIds db' coreType)
    (hloop : ∀ row rest, phase ≠ .deactivating row rest) (hfailed : ∀ e, phase ≠ .failed e)
    (h : Seen coreType s) : Seen coreType ⟨db', s.calls.set i (call, phase')⟩ := by
  rcases h with ⟨x, hx⟩ | hloops | hfails
  · exact Or.inl ⟨x, hsub x hx⟩
  · refine Or.inr (Or.inl (exists_mem_set hi hloops ?_))
    rintro ⟨row, rest, hphase, -⟩
    exact absurd hphase (hloop row rest)
  · refine Or.inr (Or.inr (exists_mem_set hi hfails ?_))
    rintro ⟨e, hphase⟩
    exact absurd hphase (hfailed e)

/-- A request that has failed makes no statement. -/
theorem ne_failed_of_advance {db db' : Db} {call : Call} {phase phase' : Phase}
    (h : advance db call phase = some (phase', db')) (e : ApiError) : phase ≠ .failed e := by
  rintro rfl
  cases call <;> cases h

theorem seen_step {coreType : String} {s s' : Requests} {i : Nat} (hs : Orderly s)
    (h : step advance s i = some s') (hseen : Seen coreType s) : Seen coreType s' := by
  obtain ⟨call, phase, phase', db', hi, hadvance, rfl⟩ := step_cases h
  have hmem : (call, phase) ∈ s.calls := List.mem_of_getElem? hi
  have hfailed := ne_failed_of_advance hadvance
  cases statement_of_advance hadvance with
  | refused e => exact Or.inr (Or.inr ⟨_, mem_set_self hi, e, rfl⟩)
  | found hrow => exact seen_of_subset hi (fun _ hx => hx) (fun _ _ => nofun) hfailed hseen
  | loaded => exact seen_of_subset hi (fun _ hx => hx) (fun _ _ => nofun) hfailed hseen
  | @deactivated id v row rest =>
    by_cases hcore : row.coreType = coreType
    · exact Or.inr (Or.inl ⟨_, mem_set_self hi, row, rest, rfl, hcore⟩)
    · rcases hseen with ⟨x, hx⟩ | hloops | hfails
      · refine Or.inl ⟨x, mem_activeIds_deactivated.mpr ⟨?_, hx⟩⟩
        rintro rfl
        obtain ⟨r, hr, htype⟩ := (hs.known _ hmem).rest row (x :: rest) rfl x List.mem_cons_self
        obtain ⟨r', hr', htype', -⟩ := mem_activeIds.mp hx
        cases hr.symm.trans hr'
        exact hcore (htype.symm.trans htype')
      · refine Or.inr (Or.inl (exists_mem_set hi hloops ?_))
        rintro ⟨row', rest', hphase, htype⟩
        cases hphase
        exact absurd htype hcore
      · exact Or.inr (Or.inr (exists_mem_set hi hfails fun ⟨e, he⟩ => absurd he (hfailed e)))
  | @marked id row r hr =>
    obtain ⟨-, r', hr', htype⟩ := (hs.known _ hmem).row row rfl
    cases hr.symm.trans hr'
    by_cases hcore : row.coreType = coreType
    · exact Or.inl ⟨row.id, (mem_activeIds_activated hr).mpr (Or.inr ⟨rfl, htype.trans hcore⟩)⟩
    · rcases hseen with ⟨x, hx⟩ | hloops | hfails
      · exact Or.inl ⟨x, (mem_activeIds_activated hr).mpr (Or.inl hx)⟩
      · refine Or.inr (Or.inl (exists_mem_set hi hloops ?_))
        rintro ⟨row', rest', hphase, htype'⟩
        cases hphase
        exact absurd htype' hcore
      · exact Or.inr (Or.inr (exists_mem_set hi hfails fun ⟨e, he⟩ => absurd he (hfailed e)))
  | saved hactive _ _ hold =>
    refine seen_of_subset hi (fun x hx => (hactive coreType).symm ▸ hx) ?_ hfailed hseen
    rintro row rest rfl
    cases hold

theorem heldActive_step {s s' : Requests} {i : Nat} (hs : Orderly s) (hheld : HeldActive s)
    (h : step advance s i = some s') : HeldActive s' := by
  have hseen := fun coreType => @seen_step coreType _ _ _ hs h
  obtain ⟨call, phase, phase', db', hi, hstatement, rfl⟩ := exists_statement h
  have hmem : (call, phase) ∈ s.calls := List.mem_of_getElem? hi
  intro id hid
  rcases List.mem_or_eq_of_mem_set hid with hid | hid
  · obtain ⟨r, hr, hrseen⟩ := hheld id hid
    obtain ⟨r', hr', htype⟩ := keepsTypes_of_statement hstatement id r hr
    exact ⟨r', hr', htype ▸ hseen r.coreType hrseen⟩
  · obtain ⟨hcall, hphase⟩ := Prod.mk.inj hid
    cases hstatement with
    | refused e => cases hphase
    | found hrow => cases hphase
    | loaded => cases hphase
    | deactivated => cases hphase
    | @marked id' row r hr =>
      obtain ⟨hown, -⟩ := (hs.known _ hmem).row row rfl
      cases hown
      cases hcall
      have hown : row.id ∈ activeIds { s.store with
          coreVersions := s.store.coreVersions.update row.id activated } r.coreType :=
        (mem_activeIds_activated hr).mpr (Or.inr ⟨rfl, rfl⟩)
      refine ⟨activated r, ?_, Or.inl ⟨row.id, hown⟩⟩
      exact (Table.find_update_self (f := activated) fun _ => rfl).trans (by rw [hr]; rfl)
    | saved _ _ _ _ => cases hcall

/-! ### Runs -/

theorem length_activeIds_le_one {db : Db} {coreType : String} :
    (activeIds db coreType).length ≤ 1 ↔ ∃ id, ∀ x ∈ activeIds db coreType, x = id := by
  constructor
  · intro h
    match hids : activeIds db coreType, h with
    | [], _ => exact ⟨default, fun x hx => absurd hx List.not_mem_nil⟩
    | [id], _ => exact ⟨id, fun x hx => List.mem_singleton.mp hx⟩
  · rintro ⟨id, hid⟩
    have hnodup : (activeIds db coreType).Nodup :=
      db.coreVersions.nodup.sublist (List.filter_sublist.map _)
    exact Table.length_le_one hnodup fun a ha b hb => (hid a ha).trans (hid b hb).symm

/-- **One active version of each core type**, after activations that mark their versions only
while the others still have to deactivate them. -/
theorem activeAsAsked_of_clear {db : Db} {calls : List Call} {order : List Nat} {s : Requests}
    (hone : OneActive db)
    (hclear : Guarded (step advance) (fun s i => clear s i = true) (start .waiting db calls) order)
    (hrun : run (step advance) (start .waiting db calls) order = some s) (hfinished : Finished s) :
    ActiveAsAsked s := by
  have hwaiting : ∀ c ∈ (start .waiting db calls : Requests).calls, c.2 = .waiting := by
    intro c hc
    obtain ⟨call, -, rfl⟩ := List.mem_map.mp hc
    rfl
  have hstart : Orderly (start .waiting db calls) := by
    refine ⟨fun c hc => ?_, fun coreType => length_activeIds_le_one.mp (hone coreType),
      fun c hc row rest hphase => ?_⟩
    · obtain ⟨call, phase⟩ := c
      obtain rfl : phase = .waiting := hwaiting _ hc
      exact knowsRows_of_target rfl
    · rw [hwaiting c hc] at hphase
      cases hphase
  have hheld : HeldActive (start .waiting db calls) := by
    intro id hid
    cases hwaiting _ hid
  obtain ⟨horderly, hactive⟩ := inv_of_guarded (I := fun s => Orderly s ∧ HeldActive s)
    (fun _ _ _ hI hok h => ⟨orderly_step hI.1 hok h, heldActive_step hI.1 hI.2 h⟩)
    ⟨hstart, hheld⟩ hclear hrun
  have hatMost : OneActive s.store := fun coreType =>
    length_activeIds_le_one.mpr (horderly.one coreType)
  refine ⟨hatMost, fun id row hid hrow => Nat.le_antisymm (hatMost _) ?_⟩
  obtain ⟨r, hr, hseen⟩ := hactive id hid
  cases hr.symm.trans hrow
  rcases hseen with ⟨x, hx⟩ | ⟨c, hc, row, rest, hphase, -⟩ | ⟨c, hc, e, hphase⟩
  · exact List.length_pos_of_mem hx
  · rw [hfinished c hc] at hphase
    cases hphase
  · rw [hfinished c hc] at hphase
    cases hphase

/-! ### One activation by itself -/

/-- The loop of an activation that is not interrupted. -/
theorem run_deactivating {id : Uuid} {row : CoreVersion} {rows : List CoreVersion} {db : Db}
    (hrows : ∀ v ∈ rows, ∃ r, db.coreVersions.find v.id = some r)
    (hrow : ∃ r, db.coreVersions.find row.id = some r) :
    run (step advance) ⟨db, [(.activate id, .deactivating row (rows.map (·.id)))]⟩
        (List.replicate (rows.length + 1) 0) =
      some ⟨{ db with coreVersions :=
        (db.coreVersions.updateEach rows fun _ => deactivated).update row.id activated },
        [(.activate id, .finished)]⟩ := by
  induction rows generalizing db with
  | nil =>
    obtain ⟨r, hr⟩ := hrow
    simp only [List.map_nil, List.length_nil, Nat.zero_add, List.replicate_one, run_cons, run_nil,
      step, List.getElem?_cons_zero, advance, updateVersion, hr, Option.map_some, Option.bind_some,
      List.set_cons_zero]
    rfl
  | cons v rows ih =>
    obtain ⟨r, hr⟩ := hrows v List.mem_cons_self
    have hkeeps : KeepsTypes db { db with
        coreVersions := db.coreVersions.update v.id deactivated } :=
      keepsTypes_update (fun _ => rfl) (fun _ => rfl)
    have hstays : ∀ w, (∃ r, db.coreVersions.find w = some r) →
        ∃ r, (db.coreVersions.update v.id deactivated).find w = some r := by
      rintro w ⟨r, hr⟩
      obtain ⟨r', hr', -⟩ := hkeeps w r hr
      exact ⟨r', hr'⟩
    rw [List.length_cons, List.replicate_succ, run_cons, List.map_cons]
    simp only [step, List.getElem?_cons_zero, advance, updateVersion, hr, Option.map_some,
      Option.bind_some, List.set_cons_zero]
    exact ih (fun w hw => hstays w.id (hrows w (List.mem_cons_of_mem v hw))) (hstays row.id hrow)

/-- **An activation by itself** is the handler that takes no other into account. -/
theorem run_activate {db : Db} {id : Uuid} {row : CoreVersion} {core : CoreType}
    (hrow : db.coreVersions.find id = some row)
    (hcore : CoreType.fromStr? row.coreType = some core) :
    run (step advance) (start .waiting db [.activate id])
        (List.replicate ((versionsOf db row.coreType).length + 3) 0) =
      some ⟨activateVersion row db, [(.activate id, .finished)]⟩ := by
  have hid : row.id = id := Table.key_of_find hrow
  have hloop := @run_deactivating id row (versionsOf db row.coreType) db (fun v hv =>
    ⟨v, Table.find_eq_some_iff.mpr ⟨(Table.mem_filter.mp hv).1, rfl⟩⟩) ⟨row, hid ▸ hrow⟩
  rw [start, List.replicate_succ, List.replicate_succ, run_cons]
  simp only [List.map_cons, List.map_nil, step, List.getElem?_cons_zero, advance, hrow, hcore,
    Option.map_some, Option.bind_some, List.set_cons_zero, run_cons]
  exact hloop

/-- The version that is pushed to the nodes is the active one. -/
theorem effectiveCoreVersion_of_oneActive {db : Db} {core : CoreType} {row : CoreVersion}
    (hone : OneActive db) (hrow : row ∈ db.coreVersions.rows) (hcore : row.coreType = core.toStr)
    (hactive : row.isActive = true) :
    (effectiveCoreVersion core).exec db = .ok (some row.version) := by
  have hfind : db.coreVersions.one (fun v => v.coreType = core.toStr ∧ v.isActive) = some row := by
    cases hv : db.coreVersions.one fun v => v.coreType = core.toStr ∧ v.isActive with
    | none =>
      have hnone := List.find?_eq_none.mp hv row hrow
      exact absurd (decide_eq_true ⟨hcore, hactive⟩) hnone
    | some v =>
      obtain ⟨hmem, hv⟩ := Table.one_eq_some hv
      obtain ⟨id, hid⟩ := length_activeIds_le_one.mp (hone core.toStr)
      have hids : ∀ w ∈ db.coreVersions.rows, w.coreType = core.toStr ∧ w.isActive = true →
          w.id = id := fun w hw h => hid w.id (List.mem_map.mpr
            ⟨w, Table.mem_filter.mpr ⟨hw, decide_eq_true h⟩, rfl⟩)
      rw [Table.eq_of_key_eq hmem hrow ((hids v hmem (of_decide_eq_true hv)).trans
        (hids row hrow ⟨hcore, hactive⟩).symm)]
  simp only [effectiveCoreVersion, Query.exec_read, hfind]
  rfl

/-! ### Two activations at once -/

namespace TwoActivations

def version (n : Nat) (name : String) : CoreVersion :=
  ⟨.ofNat n, "sing-box", name, "release", none, none, false⟩

/-- Two versions of a core, none of them active. -/
def db : Db where
  coreVersions := ⟨[version 1 "v1.13.14", version 2 "v1.14.0"], by decide⟩

def calls : List Call := [.activate (.ofNat 1), .activate (.ofNat 2)]

/-- Both have been through their loops before either marks its version. -/
def interleaved : List Nat := [0, 0, 0, 0, 1, 1, 1, 1, 0, 1]

/-- The second waits for the first, which shares its time with a request that saves a version. -/
def apart : List Nat := [0, 2, 0, 0, 2, 0, 0, 1, 1, 1, 1, 1, 1]

def saved : Call := .save [⟨"sing-box", "v1.15.0", none, none, none, .ofNat 3⟩]

def succeeded : Phase → Bool
  | .finished => true
  | _ => false

theorem finished_of_succeeded {s : Requests} (h : s.calls.all (fun c => succeeded c.2) = true) :
    Finished s := by
  intro c hc
  have hphase := List.all_eq_true.mp h c hc
  cases hp : c.2 with
  | finished => rfl
  | _ => rw [hp] at hphase; cases hphase

theorem oneActive : OneActive db := by
  intro coreType
  have hnone : activeIds db coreType = [] := by
    rw [activeIds, List.map_eq_nil_iff, Table.filter, List.filter_eq_nil_iff]
    intro v hv h
    have hinactive : db.coreVersions.rows.all fun v => !v.isActive := by decide
    have hv := List.all_eq_true.mp hinactive v hv
    rw [(of_decide_eq_true h).2] at hv
    exact absurd hv (by decide)
  rw [hnone]
  exact Nat.zero_le 1

end TwoActivations

open TwoActivations in
/-- **Two versions stay active** when both activations have gone through the versions before
either marks its own. -/
theorem two_activations_both_active : OneActive db ∧ ∃ s,
    run (step advance) (start .waiting db calls) interleaved = some s ∧ Finished s ∧
      ¬ ActiveAsAsked s := by
  have hrun : (run (step advance) (start .waiting db calls) interleaved).any (fun s =>
      s.calls.all (fun c => succeeded c.2) && activeIds s.store "sing-box" == [.ofNat 1, .ofNat 2])
        = true := by decide
  obtain ⟨s, hs, h⟩ := (Option.any_eq_true _ _).mp hrun
  simp only [Bool.and_eq_true, beq_iff_eq] at h
  refine ⟨oneActive, s, hs, finished_of_succeeded h.1, fun hasked => ?_⟩
  have hone := hasked.1 "sing-box"
  rw [h.2] at hone
  exact absurd hone (by decide)

open TwoActivations in
theorem activeAsAsked_of_clear_apart :
    ∃ s, run (step advance) (start .waiting db (calls ++ [saved])) apart = some s ∧
      ActiveAsAsked s := by
  have hchecked : checked (step advance) clear (start .waiting db (calls ++ [saved])) apart =
      true := by decide
  obtain ⟨hclear, -⟩ := guarded_of_checked (I := fun _ => True) (fun s i _ h => h)
    (fun _ _ _ _ _ _ => trivial) trivial hchecked
  have hrun : (run (step advance) (start .waiting db (calls ++ [saved])) apart).any (fun s =>
      s.calls.all fun c => succeeded c.2) = true := by decide
  obtain ⟨s, hs, hfinished⟩ := (Option.any_eq_true _ _).mp hrun
  exact ⟨s, hs, activeAsAsked_of_clear oneActive hclear hs (finished_of_succeeded hfinished)⟩

end ProxyPanel.Hub.ActiveVersions
