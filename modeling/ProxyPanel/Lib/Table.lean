import Mathlib.Algebra.Ring.Int.Defs
import Mathlib.Algebra.Ring.Nat
import Mathlib.Data.List.Nodup
import Mathlib.Tactic.Common

/-!
# Keyed tables

A table of a relational store: rows in the order in which an unordered query
returns them, no two with the same primary key.  The invariant is a field, so
`find` is a partial function of the key and `find_eq_some_iff` needs no side
condition.
-/

namespace ProxyPanel

/-- The primary key of a kind of row. -/
class HasKey (ρ : Type) (κ : outParam Type) where
  key : ρ → κ

export HasKey (key)

/-- Rows with pairwise distinct primary keys. -/
structure Table (ρ : Type) {κ : Type} [HasKey ρ κ] where
  rows : List ρ
  nodup : (rows.map key).Nodup

namespace Table

variable {ρ κ : Type} [HasKey ρ κ] [DecidableEq κ]

def empty : Table ρ := ⟨[], List.nodup_nil⟩

/-- A table of one row. -/
def single (row : ρ) : Table ρ := ⟨[row], List.nodup_singleton _⟩

omit [DecidableEq κ] in
@[simp] theorem rows_single (row : ρ) : (single row : Table ρ).rows = [row] := rfl

instance : EmptyCollection (Table ρ) := ⟨empty⟩
instance : Inhabited (Table ρ) := ⟨empty⟩

omit [DecidableEq κ] in
theorem ext_rows {t u : Table ρ} (h : t.rows = u.rows) : t = u := by
  cases t; cases u; cases h; rfl

/-- The row with a given key. -/
def find (t : Table ρ) (k : κ) : Option ρ := t.rows.find? (fun r => key r = k)

/-- The rows that satisfy a condition. -/
def filter (t : Table ρ) (p : ρ → Bool) : List ρ := t.rows.filter p

/-- The first row that satisfies a condition. -/
def one (t : Table ρ) (p : ρ → Bool) : Option ρ := t.rows.find? p

theorem mem_of_find {t : Table ρ} {k : κ} {r : ρ} (h : t.find k = some r) : r ∈ t.rows :=
  List.mem_of_find?_eq_some h

theorem key_of_find {t : Table ρ} {k : κ} {r : ρ} (h : t.find k = some r) : key r = k := by
  simpa using List.find?_some h

omit [DecidableEq κ] in
theorem eq_of_key_eq {t : Table ρ} {r s : ρ} (hr : r ∈ t.rows) (hs : s ∈ t.rows)
    (h : key r = key s) : r = s :=
  List.inj_on_of_nodup_map t.nodup hr hs h

omit [DecidableEq κ] in
theorem one_eq_some {t : Table ρ} {p : ρ → Bool} {r : ρ} (h : t.one p = some r) :
    r ∈ t.rows ∧ p r = true := ⟨List.mem_of_find?_eq_some h, List.find?_some h⟩

theorem find_eq_some_iff {t : Table ρ} {k : κ} {r : ρ} :
    t.find k = some r ↔ r ∈ t.rows ∧ key r = k := by
  constructor
  · intro h
    exact ⟨mem_of_find h, key_of_find h⟩
  · rintro ⟨hr, rfl⟩
    cases hf : t.find (key r) with
    | some s => rw [eq_of_key_eq (mem_of_find hf) hr (key_of_find hf)]
    | none => simpa using List.find?_eq_none.mp hf r hr

theorem find_eq_none_iff {t : Table ρ} {k : κ} :
    t.find k = none ↔ ∀ r ∈ t.rows, key r ≠ k := by
  simp [find, List.find?_eq_none]

omit [DecidableEq κ] in
@[simp] theorem mem_filter {t : Table ρ} {p : ρ → Bool} {r : ρ} :
    r ∈ t.filter p ↔ r ∈ t.rows ∧ p r = true := List.mem_filter

/-! ### Writing -/

/-- Insertion of a row with a new key.  A row whose key is taken is refused. -/
def insert (t : Table ρ) (r : ρ) : Option (Table ρ) :=
  if h : key r ∈ t.rows.map key then none
  else some ⟨t.rows ++ [r], by
    rw [List.map_append, List.nodup_append]
    refine ⟨t.nodup, by simp, ?_⟩
    intro a ha b hb hab
    rw [List.map_singleton, List.mem_singleton] at hb
    exact h (hb ▸ hab ▸ ha)⟩

/-- Deletion of the rows that satisfy a condition. -/
def deleteWhere (t : Table ρ) (p : ρ → Bool) : Table ρ :=
  ⟨t.rows.filter (fun r => !p r), t.nodup.sublist (List.filter_sublist.map key)⟩

/-- `f` applied to the row with key `k`.  An `f` that changes the key is not applied. -/
def update (t : Table ρ) (k : κ) (f : ρ → ρ) : Table ρ where
  rows := t.rows.map (fun r => if key r = k ∧ key (f r) = key r then f r else r)
  nodup := by
    have hkeys : (t.rows.map (fun r => if key r = k ∧ key (f r) = key r then f r else r)).map key
        = t.rows.map key := by
      rw [List.map_map]
      refine List.map_congr_left (fun r _ => ?_)
      simp only [Function.comp]
      split
      · rename_i h; exact h.2
      · rfl
    rw [hkeys]
    exact t.nodup

theorem update_id (t : Table ρ) (k : κ) : t.update k (fun r => r) = t := by
  refine ext_rows ?_
  show t.rows.map _ = t.rows
  simp only [ite_self, List.map_id']

theorem rows_of_insert {t u : Table ρ} {r : ρ} (h : t.insert r = some u) :
    u.rows = t.rows ++ [r] := by
  rw [insert] at h
  split at h
  · cases h
  · cases h; rfl

omit [DecidableEq κ] in
@[simp] theorem mem_deleteWhere {t : Table ρ} {p : ρ → Bool} {r : ρ} :
    r ∈ (t.deleteWhere p).rows ↔ r ∈ t.rows ∧ p r = false := by
  simp [deleteWhere]

omit [DecidableEq κ] in
theorem filter_deleteWhere (t : Table ρ) (p q : ρ → Bool) :
    (t.deleteWhere p).filter q = (t.filter q).filter (fun r => !p r) := by
  simp only [filter, deleteWhere, List.filter_filter]
  exact List.filter_congr (fun r _ => Bool.and_comm _ _)

omit [DecidableEq κ] in
/-- Deleted rows that do not count. -/
theorem filter_deleteWhere_of_not {t : Table ρ} {p q : ρ → Bool}
    (h : ∀ r ∈ t.rows, q r = true → p r = false) : (t.deleteWhere p).filter q = t.filter q := by
  rw [filter_deleteWhere, List.filter_eq_self]
  intro r hr
  rw [h r (mem_filter.mp hr).1 (mem_filter.mp hr).2]
  rfl

/-- A new row that does not count. -/
theorem filter_insert_of_not {t u : Table ρ} {r : ρ} {q : ρ → Bool} (h : t.insert r = some u)
    (hq : q r = false) : u.filter q = t.filter q := by
  rw [filter, rows_of_insert h, List.filter_append, List.filter_cons, hq]
  exact List.append_nil _

/-- An update that changes what a condition says of no row. -/
theorem filter_update {t : Table ρ} {k : κ} {f : ρ → ρ} {q : ρ → Bool}
    (h : ∀ r ∈ t.rows, key r = k → q (f r) = q r) :
    (t.update k f).filter q =
      (t.filter q).map fun r => if key r = k ∧ key (f r) = key r then f r else r := by
  simp only [filter, update]
  rw [List.filter_map]
  refine congrArg _ (List.filter_congr fun r hr => ?_)
  simp only [Function.comp]
  split
  · rename_i hkey
    exact h r hr hkey.1
  · rfl

/-- An updated row that counts neither before nor after. -/
theorem filter_update_of_not {t : Table ρ} {k : κ} {f : ρ → ρ} {q : ρ → Bool}
    (h : ∀ r ∈ t.rows, key r = k → f r = r ∨ q r = false ∧ q (f r) = false) :
    (t.update k f).filter q = t.filter q := by
  simp only [filter, update]
  have hrows : ∀ rs : List ρ, (∀ r ∈ rs, r ∈ t.rows) →
      (rs.map fun r => if key r = k ∧ key (f r) = key r then f r else r).filter q =
        rs.filter q := by
    intro rs hsub
    induction rs with
    | nil => rfl
    | cons r rs ih =>
      have hrest := ih fun s hs => hsub s (List.mem_cons_of_mem r hs)
      rw [List.map_cons, List.filter_cons, List.filter_cons, hrest]
      by_cases hr : key r = k ∧ key (f r) = key r
      · rw [if_pos hr]
        rcases h r (hsub r List.mem_cons_self) hr.1 with hsame | ⟨hbefore, hafter⟩
        · rw [hsame]
        · rw [hbefore, hafter, if_neg Bool.false_ne_true, if_neg Bool.false_ne_true]
      · rw [if_neg hr]
  exact hrows t.rows fun _ hr => hr

omit [DecidableEq κ] in
/-- A partial function takes every value once when no two rows share one. -/
theorem nodup_filterMap_filter {β : Type} {t : Table ρ} {p : ρ → Bool} {f : ρ → Option β} :
    ((t.filter p).filterMap f).Nodup ↔ ∀ a ∈ t.filter p, ∀ b ∈ t.filter p, key a ≠ key b →
      ∀ x, f a = some x → f b ≠ some x := by
  have hkeys : ((t.filter p).map key).Nodup := t.nodup.sublist (List.filter_sublist.map key)
  constructor
  · intro h a ha b hb hne x hax hbx
    obtain ⟨i, hi, rfl⟩ := List.getElem_of_mem ha
    obtain ⟨j, hj, rfl⟩ := List.getElem_of_mem hb
    have hpair := List.pairwise_iff_getElem.mp (List.pairwise_filterMap.mp h)
    rcases Nat.lt_trichotomy i j with hij | rfl | hij
    · exact hpair i j hi hj hij x hax x hbx rfl
    · exact hne rfl
    · exact hpair j i hj hi hij x hbx x hax rfl
  · intro h
    refine List.pairwise_filterMap.mpr ((List.pairwise_map.mp hkeys).imp_of_mem ?_)
    rintro a b ha hb hne x hax _ hbx rfl
    exact h a ha b hb hne x hax hbx

omit [DecidableEq κ] [HasKey ρ κ] in
/-- Two partial functions that are never both defined, one after the other or row by row. -/
theorem filterMap_append_perm {β : Type} {f g : ρ → Option β} {rows : List ρ}
    (h : ∀ r ∈ rows, f r = none ∨ g r = none) :
    (rows.filterMap f ++ rows.filterMap g).Perm (rows.filterMap fun r => (f r).or (g r)) := by
  induction rows with
  | nil => exact List.Perm.nil
  | cons r rows ih =>
    have hrest := ih fun r' hr' => h r' (List.mem_cons_of_mem r hr')
    rw [List.filterMap_cons, List.filterMap_cons, List.filterMap_cons]
    cases hf : f r with
    | none =>
      cases hg : g r with
      | none => exact hrest
      | some b => exact List.perm_middle.trans (hrest.cons b)
    | some a =>
      have hg : g r = none := (h r List.mem_cons_self).resolve_left (by rw [hf]; exact nofun)
      rw [hg]
      exact hrest.cons a

omit [DecidableEq κ] [HasKey ρ κ] in
theorem eq_of_perm_of_length_le_one {l l' : List ρ} (h : l.Perm l') (hone : l'.length ≤ 1) :
    l = l' := by
  cases l' with
  | nil => exact List.perm_nil.mp h
  | cons a as =>
    cases as with
    | nil => exact List.perm_singleton.mp h
    | cons b bs =>
      rw [List.length_cons, List.length_cons] at hone
      omega

omit [DecidableEq κ] [HasKey ρ κ] in
theorem length_le_one {l : List ρ} (hnodup : l.Nodup) (hone : ∀ a ∈ l, ∀ b ∈ l, a = b) :
    l.length ≤ 1 := by
  cases l with
  | nil => exact Nat.zero_le 1
  | cons a as =>
    cases as with
    | nil => exact Nat.le_refl 1
    | cons b bs =>
      have heq := hone a List.mem_cons_self b (.tail a List.mem_cons_self)
      exact absurd (heq ▸ List.mem_cons_self : a ∈ b :: bs) (List.nodup_cons.mp hnodup).1

omit [DecidableEq κ] [HasKey ρ κ] in
/-- Rows that read the same backwards. -/
theorem length_le_one_of_reverse {l : List ρ} (hnodup : l.Nodup) (h : l.reverse = l) :
    l.length ≤ 1 := by
  by_contra hlength
  have hfirst : l.reverse[0]? = l[0]? := by rw [h]
  rw [List.getElem?_reverse (by omega)] at hfirst
  have hindex := (List.getElem?_inj (by omega) hnodup).mp hfirst
  omega

omit [DecidableEq κ] [HasKey ρ κ] in
/-- At most one row has no order. -/
theorem filter_eq_of_perm {l l' : List ρ} {p : ρ → Bool} (h : l.Perm l') (hnodup : l.Nodup)
    (hone : ∀ a ∈ l, ∀ b ∈ l, p a = true → p b = true → a = b) : l.filter p = l'.filter p := by
  refine (eq_of_perm_of_length_le_one (h.filter p).symm ?_).symm
  refine length_le_one (hnodup.filter p) fun a ha b hb => ?_
  obtain ⟨ha, hpa⟩ := List.mem_filter.mp ha
  obtain ⟨hb, hpb⟩ := List.mem_filter.mp hb
  exact hone a ha b hb hpa hpb

omit [DecidableEq κ] [HasKey ρ κ] in
theorem filterMap_eq_of_perm {α : Type} {l l' : List ρ} {f : ρ → Option α} (h : l.Perm l')
    (hnodup : l.Nodup)
    (hone : ∀ a ∈ l, ∀ b ∈ l, (f a).isSome = true → (f b).isSome = true → a = b) :
    l.filterMap f = l'.filterMap f := by
  have hsplit : ∀ rows : List ρ, rows.filterMap f = (rows.filter fun r => (f r).isSome).filterMap f := by
    intro rows
    rw [List.filterMap_filter]
    refine List.filterMap_congr fun r _ => ?_
    cases f r <;> rfl
  rw [hsplit l, hsplit l', filter_eq_of_perm h hnodup hone]

/-- The key of an inserted row is new. -/
theorem find_eq_none_of_insert {t u : Table ρ} {r : ρ} (h : t.insert r = some u) :
    t.find (key r) = none := by
  rw [find_eq_none_iff]
  intro s hs hsk
  rw [insert] at h
  split at h
  · cases h
  · rename_i hnot
    exact hnot (List.mem_map.mpr ⟨s, hs, hsk⟩)

theorem find_insert {t u : Table ρ} {r : ρ} (h : t.insert r = some u) (k : κ) :
    u.find k = if key r = k then some r else t.find k := by
  rw [find, rows_of_insert h, List.find?_append]
  by_cases hk : key r = k
  · have hnone : t.find k = none := hk ▸ find_eq_none_of_insert h
    rw [if_pos hk, ← find, hnone]
    simp [hk]
  · rw [if_neg hk, ← find]
    simp [hk]

theorem find_update_of_ne {t : Table ρ} {k k' : κ} (h : k' ≠ k) (f : ρ → ρ) :
    (t.update k f).find k' = t.find k' := by
  simp only [find, update]
  induction t.rows with
  | nil => rfl
  | cons r rs ih =>
    rw [List.map_cons, List.find?_cons, List.find?_cons]
    by_cases hr : key r = k ∧ key (f r) = key r
    · have h1 : ¬ key (f r) = k' := by rw [hr.2, hr.1]; exact Ne.symm h
      have h2 : ¬ key r = k' := by rw [hr.1]; exact Ne.symm h
      simp only [if_pos hr, h1, h2, decide_false]
      exact ih
    · simp only [if_neg hr]
      rw [ih]

theorem find_update_self {t : Table ρ} {k : κ} {f : ρ → ρ} (hf : ∀ r, key (f r) = key r) :
    (t.update k f).find k = (t.find k).map f := by
  simp only [find, update]
  induction t.rows with
  | nil => rfl
  | cons r rs ih =>
    rw [List.map_cons, List.find?_cons, List.find?_cons]
    by_cases hr : key r = k
    · have hfr : key (f r) = k := by rw [hf, hr]
      simp [hr, hfr]
    · simp only [hr, false_and, if_false, decide_false]
      exact ih

/-- The first row that satisfies what an update does not change. -/
theorem one_update {t : Table ρ} {k : κ} {f : ρ → ρ} {p : ρ → Bool} (hf : ∀ r, key (f r) = key r)
    (hp : ∀ r, p (f r) = p r) :
    (t.update k f).one p = (t.one p).map fun r => if key r = k then f r else r := by
  have hrow : (fun r => if key r = k ∧ key (f r) = key r then f r else r) =
      fun r => if key r = k then f r else r := by
    funext r
    simp only [hf r, and_true]
  have hcomp : (p ∘ fun r => if key r = k then f r else r) = p := by
    funext r
    simp only [Function.comp]
    split
    · exact hp r
    · rfl
  show (t.rows.map fun r => if key r = k ∧ key (f r) = key r then f r else r).find? p = _
  rw [hrow, List.find?_map, hcomp, one]

theorem find_deleteWhere {t : Table ρ} {p : ρ → Bool} {k : κ} :
    (t.deleteWhere p).find k = (t.find k).filter (fun r => !p r) := by
  cases hf : t.find k with
  | none =>
    rw [find_eq_none_iff] at hf
    rw [Option.filter_none, find_eq_none_iff]
    intro r hr
    exact hf r (mem_deleteWhere.mp hr).1
  | some r =>
    by_cases hp : p r = true
    · rw [Option.filter_some_neg (by simp [hp]), find_eq_none_iff]
      intro s hs hsk
      have hsr := eq_of_key_eq (mem_deleteWhere.mp hs).1 (mem_of_find hf) (hsk.trans (key_of_find hf).symm)
      rw [hsr] at hs
      simp [hp] at hs
    · rw [Option.filter_some_pos (by simp [hp]), find_eq_some_iff]
      exact ⟨mem_deleteWhere.mpr ⟨mem_of_find hf, by simpa using hp⟩, key_of_find hf⟩

theorem find_deleteWhere_of_not {t : Table ρ} {p : ρ → Bool} {k : κ}
    (h : ∀ r, t.find k = some r → p r = false) : (t.deleteWhere p).find k = t.find k := by
  rw [find_deleteWhere]
  cases hr : t.find k with
  | none => rfl
  | some r => rw [Option.filter_some_pos (by rw [h r hr]; rfl)]

/-- Rows inserted one after the other; a row whose key is taken is left out. -/
def insertEach (t : Table ρ) (rows : List ρ) : Table ρ :=
  rows.foldl (fun t r => (t.insert r).getD t) t

theorem insert_of_fresh {t : Table ρ} {r : ρ} (h : key r ∉ t.rows.map key) :
    ∃ u, t.insert r = some u ∧ u.rows = t.rows ++ [r] := by
  have hinsert : ∃ u, t.insert r = some u := ⟨_, dif_neg h⟩
  obtain ⟨u, hu⟩ := hinsert
  exact ⟨u, hu, rows_of_insert hu⟩

/-- Rows whose keys are new are all inserted. -/
theorem rows_insertEach {t : Table ρ} {rows : List ρ} (h : ((t.rows ++ rows).map key).Nodup) :
    (t.insertEach rows).rows = t.rows ++ rows := by
  induction rows generalizing t with
  | nil => exact (List.append_nil _).symm
  | cons r rows ih =>
    have hsplit : t.rows ++ r :: rows = (t.rows ++ [r]) ++ rows := by simp
    have hfresh : key r ∉ t.rows.map key := by
      rw [List.map_append, List.map_cons, List.nodup_append] at h
      exact fun hmem => h.2.2 _ hmem _ List.mem_cons_self rfl
    obtain ⟨u, hinsert, hrows⟩ := insert_of_fresh hfresh
    rw [hsplit, ← hrows] at h ⊢
    rw [← ih h, insertEach, List.foldl_cons, hinsert]
    rfl

/-- An update that changes nothing. -/
theorem update_eq_self_iff {t : Table ρ} {k : κ} {f : ρ → ρ} (hf : ∀ r, key (f r) = key r) {r : ρ}
    (hr : t.find k = some r) : t.update k f = t ↔ f r = r := by
  constructor
  · intro h
    have hfind := find_update_self (t := t) (k := k) hf
    rw [h, hr, Option.map_some, Option.some.injEq] at hfind
    exact hfind.symm
  · intro h
    refine ext_rows ?_
    refine (List.map_congr_left fun s hs => ?_).trans (List.map_id' t.rows)
    split
    · rename_i hkey
      obtain rfl : s = r := eq_of_key_eq hs (mem_of_find hr) (hkey.1.trans (key_of_find hr).symm)
      exact h
    · rfl

omit [DecidableEq κ] in
theorem deleteWhere_eq_self_iff {t : Table ρ} {p : ρ → Bool} :
    t.deleteWhere p = t ↔ ∀ r ∈ t.rows, p r = false := by
  constructor
  · intro h r hr
    rw [← h] at hr
    exact (mem_deleteWhere.mp hr).2
  · intro h
    refine ext_rows (List.filter_eq_self.mpr fun r hr => ?_)
    rw [h r hr]
    rfl

theorem ne_of_insert {t u : Table ρ} {r : ρ} (h : t.insert r = some u) : u ≠ t := by
  intro hu
  have hlength := congrArg List.length (rows_of_insert h)
  rw [hu, List.length_append, List.length_singleton] at hlength
  omega

/-- The total of a table when one row is exchanged. -/
theorem sum_update {t : Table ρ} {k : κ} {f : ρ → ρ} {r : ρ} (hr : t.find k = some r)
    (hf : key (f r) = key r) (w : ρ → Int) :
    ((t.update k f).rows.map w).sum + w r = (t.rows.map w).sum + w (f r) := by
  obtain rfl : key r = k := key_of_find hr
  have hrows : ∀ rows : List ρ, (rows.map key).Nodup → r ∈ rows →
      ((rows.map fun s => if key s = key r ∧ key (f s) = key s then f s else s).map w).sum + w r =
        (rows.map w).sum + w (f r) := by
    intro rows
    induction rows with
    | nil => exact fun _ h => absurd h List.not_mem_nil
    | cons s rest ih =>
      intro hnodup hmem
      rw [List.map_cons, List.nodup_cons] at hnodup
      rw [List.map_cons, List.map_cons, List.map_cons, List.sum_cons, List.sum_cons]
      rcases List.mem_cons.mp hmem with rfl | hmem
      · have hrest : (rest.map fun s => if key s = key r ∧ key (f s) = key s then f s else s) =
            rest := by
          refine (List.map_congr_left fun s hs => if_neg fun h => ?_).trans (List.map_id' rest)
          exact hnodup.1 (h.1 ▸ List.mem_map_of_mem hs)
        rw [hrest, if_pos ⟨rfl, hf⟩]
        omega
      · have hne : key s ≠ key r := fun h => hnodup.1 (h ▸ List.mem_map_of_mem hmem)
        have hsum := ih hnodup.2 hmem
        rw [if_neg fun h => hne h.1]
        omega
  exact hrows t.rows t.nodup (mem_of_find hr)

/-- For each row of a snapshot, an update of the row that has its key now. -/
def updateEach (t : Table ρ) (snapshot : List ρ) (f : ρ → ρ → ρ) : Table ρ :=
  snapshot.foldl (fun t c => t.update (key c) (f c)) t

theorem find_updateEach {snapshot : List ρ} (hnodup : (snapshot.map key).Nodup) {f : ρ → ρ → ρ}
    (hf : ∀ c r, key (f c r) = key r) (t : Table ρ) (k : κ) :
    (t.updateEach snapshot f).find k =
      match snapshot.find? (fun c => key c = k) with
      | some c => (t.find k).map (f c)
      | none => t.find k := by
  induction snapshot generalizing t with
  | nil => rfl
  | cons c cs ih =>
    rw [List.map_cons, List.nodup_cons] at hnodup
    rw [updateEach, List.foldl_cons, ← updateEach, ih hnodup.2]
    by_cases hc : key c = k
    · have hnone : cs.find? (fun c => key c = k) = none := by
        rw [List.find?_eq_none]
        intro d hd hdk
        exact hnodup.1 (List.mem_map.mpr ⟨d, hd, by simpa [hc] using hdk⟩)
      rw [hnone, List.find?_cons_of_pos (by simpa using hc)]
      subst hc
      exact find_update_self (hf c)
    · rw [List.find?_cons_of_neg (by simpa using hc), find_update_of_ne (Ne.symm hc)]

/-- For each row that satisfies a condition now, an update of that row. -/
theorem find_updateEach_filter {t : Table ρ} {p : ρ → Bool} {f : ρ → ρ → ρ}
    (hf : ∀ c r, key (f c r) = key r) (k : κ) :
    (t.updateEach (t.filter p) f).find k = (t.find k).map fun c => if p c then f c c else c := by
  have hnodup : ((t.filter p).map key).Nodup := t.nodup.sublist (List.filter_sublist.map key)
  rw [find_updateEach hnodup hf]
  cases hc : t.find k with
  | none => split <;> rfl
  | some c =>
    have hmem := mem_of_find hc
    have hkey := key_of_find hc
    rw [Option.map_some]
    cases hfind : (t.filter p).find? (fun c => key c = k) with
    | none =>
      have hnot : ¬ p c = true := fun hp =>
        List.find?_eq_none.mp hfind c (mem_filter.mpr ⟨hmem, hp⟩) (by simpa using hkey)
      rw [if_neg hnot]
    | some d =>
      have hd := mem_filter.mp (List.mem_of_find?_eq_some hfind)
      obtain rfl : d = c := eq_of_key_eq hd.1 hmem
        ((by simpa using List.find?_some hfind : key d = k).trans hkey.symm)
      rw [if_pos hd.2]
      rfl

/-- The rows after an update of each row that satisfies a condition. -/
theorem rows_updateEach_filter {t : Table ρ} {p : ρ → Bool} {f : ρ → ρ → ρ}
    (hf : ∀ c r, key (f c r) = key r) :
    (t.updateEach (t.filter p) f).rows = t.rows.map fun r => if p r then f r r else r := by
  have hrows : ∀ (snapshot : List ρ) (u : Table ρ), (snapshot.map key).Nodup →
      (u.updateEach snapshot f).rows = u.rows.map fun r =>
        match snapshot.find? (fun c => key c = key r) with
        | some c => f c r
        | none => r := by
    intro snapshot
    induction snapshot with
    | nil => exact fun u _ => (List.map_id _).symm
    | cons c cs ih =>
      intro u hnodup
      rw [List.map_cons, List.nodup_cons] at hnodup
      rw [updateEach, List.foldl_cons, ← updateEach, ih _ hnodup.2, update, List.map_map]
      refine List.map_congr_left fun r _ => ?_
      simp only [Function.comp, hf, and_true]
      by_cases hr : key r = key c
      · have hnone : cs.find? (fun d => key d = key c) = none := by
          rw [List.find?_eq_none]
          intro d hd hdk
          exact hnodup.1 (List.mem_map.mpr ⟨d, hd, by simpa using hdk⟩)
        rw [if_pos hr, hf, hr, hnone, List.find?_cons_of_pos (by simp)]
      · rw [if_neg hr, List.find?_cons_of_neg (by simpa using Ne.symm hr)]
  refine (hrows (t.filter p) t (t.nodup.sublist (List.filter_sublist.map key))).trans ?_
  refine List.map_congr_left fun r hr => ?_
  cases hfind : (t.filter p).find? fun c => key c = key r with
  | none =>
    have hnot : ¬ p r = true := fun hp =>
      List.find?_eq_none.mp hfind r (mem_filter.mpr ⟨hr, hp⟩) (by simp)
    rw [if_neg hnot]
  | some d =>
    have hd := mem_filter.mp (List.mem_of_find?_eq_some hfind)
    obtain rfl : d = r := eq_of_key_eq hd.1 hr (by simpa using List.find?_some hfind)
    rw [if_pos hd.2]

/-- An update of rows that count neither before nor after. -/
theorem filter_updateEach_filter_of_not {t : Table ρ} {p q : ρ → Bool} {f : ρ → ρ → ρ}
    (hf : ∀ c r, key (f c r) = key r) (h : ∀ r, p r = true → q r = false ∧ q (f r r) = false) :
    (t.updateEach (t.filter p) f).filter q = t.filter q := by
  change (t.updateEach (t.filter p) f).rows.filter q = t.rows.filter q
  rw [rows_updateEach_filter hf]
  induction t.rows with
  | nil => rfl
  | cons r rs ih =>
    rw [List.map_cons, List.filter_cons, List.filter_cons, ih]
    by_cases hp : p r = true
    · obtain ⟨hbefore, hafter⟩ := h r hp
      rw [if_pos hp, hbefore, hafter, if_neg Bool.false_ne_true, if_neg Bool.false_ne_true]
    · rw [if_neg hp]

/-- An update that changes no row. -/
theorem updateEach_filter_eq_self {t : Table ρ} {p : ρ → Bool} {f : ρ → ρ → ρ}
    (hf : ∀ c r, key (f c r) = key r) (h : ∀ r ∈ t.rows, p r = true → f r r = r) :
    t.updateEach (t.filter p) f = t := by
  have hrows : (t.updateEach (t.filter p) f).rows = t.rows := by
    rw [rows_updateEach_filter hf]
    refine (List.map_congr_left fun r hr => ?_).trans (List.map_id _)
    by_cases hp : p r = true
    · exact (if_pos hp).trans (h r hr hp)
    · exact if_neg hp
  exact ext_rows hrows

/-- The first row that satisfies a condition, updated, or else a new row. -/
def upsert (t : Table ρ) (p : ρ → Bool) (f : ρ → ρ → ρ) (new : ρ) : Option (Table ρ) :=
  match t.one p with
  | some r => some (t.update (key r) (f r))
  | none => t.insert new

theorem exists_upsert {t : Table ρ} (p : ρ → Bool) (f : ρ → ρ → ρ) {new : ρ}
    (h : t.find (key new) = none) : ∃ u, t.upsert p f new = some u := by
  rw [upsert]
  cases t.one p with
  | some r => exact ⟨_, rfl⟩
  | none =>
    have hfresh : key new ∉ t.rows.map key := by
      intro hmem
      obtain ⟨r, hr, hkey⟩ := List.mem_map.mp hmem
      exact find_eq_none_iff.mp h r hr hkey
    exact ⟨_, dif_neg hfresh⟩

/-- Only the key of the new row is new. -/
theorem find_upsert_eq_none {t u : Table ρ} {p : ρ → Bool} {f : ρ → ρ → ρ} {new : ρ} {k : κ}
    (h : t.find k = none) (hnew : key new ≠ k) (hu : t.upsert p f new = some u) :
    u.find k = none := by
  rw [upsert] at hu
  cases hone : t.one p with
  | some r =>
    rw [hone] at hu
    cases hu
    have hne : k ≠ key r := fun hk =>
      find_eq_none_iff.mp h r (List.mem_of_find?_eq_some hone) hk.symm
    rw [find_update_of_ne hne, h]
  | none =>
    rw [hone] at hu
    rw [find_insert hu, if_neg hnew, h]

/-! ### Maps -/

omit [DecidableEq κ] in
theorem key_ne_of_mem_filter [DecidableEq κ] {t : Table ρ} {r s : ρ}
    (h : s ∈ t.rows.filter fun s => key s ≠ key r) : key s ≠ key r := by
  simpa using (List.mem_filter.mp h).2

/-- Insertion into a map: a row with the key goes. -/
def put (t : Table ρ) (r : ρ) : Table ρ where
  rows := t.rows.filter (fun s => key s ≠ key r) ++ [r]
  nodup := by
    rw [List.map_append, List.nodup_append]
    refine ⟨t.nodup.sublist (List.filter_sublist.map key), by simp, ?_⟩
    intro a ha b hb hab
    obtain ⟨s, hs, rfl⟩ := List.mem_map.mp ha
    rw [List.map_singleton, List.mem_singleton] at hb
    exact key_ne_of_mem_filter hs (hab.trans hb)

@[simp] theorem find_empty (k : κ) : (∅ : Table ρ).find k = none := rfl

theorem find_put (t : Table ρ) (r : ρ) (k : κ) :
    (t.put r).find k = if key r = k then some r else t.find k := by
  by_cases hk : key r = k
  · rw [if_pos hk, find_eq_some_iff]
    exact ⟨List.mem_append_right _ (List.mem_singleton_self r), hk⟩
  · rw [if_neg hk]
    have hrest : (t.rows.filter fun s => key s ≠ key r).find? (fun s => key s = k) =
        t.rows.find? fun s => key s = k := by
      rw [List.find?_filter]
      refine congrArg (fun p => t.rows.find? p) (funext fun s => ?_)
      by_cases hs : key s = k
      · simp [hs, Ne.symm hk]
      · simp [hs]
    rw [find, put, List.find?_append, hrest, ← find, List.find?_cons_of_neg (by simpa using hk)]
    cases t.find k <;> rfl

theorem find_congr_perm {t u : Table ρ} (h : t.rows.Perm u.rows) (k : κ) : t.find k = u.find k := by
  refine Option.ext fun r => ?_
  rw [find_eq_some_iff, find_eq_some_iff, h.mem_iff]

/-- What every row satisfies, in terms of keys. -/
theorem forall_mem_iff_find {t : Table ρ} {P : ρ → Prop} :
    (∀ r ∈ t.rows, P r) ↔ ∀ k r, t.find k = some r → P r := by
  constructor
  · exact fun h k r hr => h r (mem_of_find hr)
  · exact fun h r hr => h (key r) r (find_eq_some_iff.mpr ⟨hr, rfl⟩)

/-- A condition on rows that an update keeps. -/
theorem forall_mem_update {t : Table ρ} {P : ρ → Prop} {k : κ} {f : ρ → ρ}
    (h : ∀ r ∈ t.rows, P r) (hf : ∀ r ∈ t.rows, key r = k → P r → P (f r)) :
    ∀ r ∈ (t.update k f).rows, P r := by
  intro r hr
  obtain ⟨s, hs, rfl⟩ := List.mem_map.mp hr
  split
  · rename_i hkey
    exact hf s hs hkey.1 (h s hs)
  · exact h s hs

end Table

end ProxyPanel
