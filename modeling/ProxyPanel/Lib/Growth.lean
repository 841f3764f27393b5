import Mathlib.Algebra.BigOperators.Group.Finset.Basic
import ProxyPanel.Lib.Table

/-!
# Sampled counters

A cumulative counter is sampled now and then; `none` is a sample in which it is
absent.  `growth` is what one sample adds over the one before it: all of a counter
that is new, the difference of one that was there.  `sum_growths` telescopes: over a
counter that is there for one stretch of samples, the growth adds up to its last
value.  `sum_tables` is the same for a whole map of counters: what all samples add,
row by row, is the sum of the last values.
-/

namespace ProxyPanel.Growth

/-- What a sample adds over the sample before it. -/
def growth (prev : Option Int) : Option Int → Int
  | none => 0
  | some v => v - prev.getD 0

/-- What each sample adds, from a first sample before them. -/
def growths : Option Int → List (Option Int) → List Int
  | _, [] => []
  | prev, x :: xs => growth prev x :: growths x xs

/-- The last value that was sampled. -/
def lastValue : List (Option Int) → Option Int
  | [] => none
  | x :: xs => (lastValue xs).or x

/-- The counter is there for one stretch of samples. -/
def Contiguous {α : Type} (xs : List (Option α)) : Prop :=
  ∀ i j k : Nat, i < j → j < k → ∀ a c, xs[i]? = some (some a) → xs[k]? = some (some c) →
    ∃ b, xs[j]? = some (some b)

theorem Contiguous.tail {α : Type} {x : Option α} {xs : List (Option α)}
    (h : Contiguous (x :: xs)) : Contiguous xs := by
  intro i j k hij hjk a c ha hc
  obtain ⟨b, hb⟩ := h (i + 1) (j + 1) (k + 1) (by omega) (by omega) a c
    (by rw [List.getElem?_cons_succ, ha]) (by rw [List.getElem?_cons_succ, hc])
  exact ⟨b, by rw [← hb, List.getElem?_cons_succ]⟩

theorem Contiguous.of_append {α : Type} {xs ys : List (Option α)} (h : Contiguous (xs ++ ys)) :
    Contiguous xs := by
  intro i j k hij hjk a c ha hc
  obtain ⟨hk, -⟩ := List.getElem?_eq_some_iff.mp hc
  have hsame : ∀ n < xs.length, (xs ++ ys)[n]? = xs[n]? := fun n hn => List.getElem?_append_left hn
  obtain ⟨b, hb⟩ := h i j k hij hjk a c (by rw [hsame i (by omega), ha]) (by rw [hsame k hk, hc])
  exact ⟨b, by rw [← hsame j (by omega), hb]⟩

/-- What is gone stays gone. -/
theorem Contiguous.gone {α : Type} {a : α} {xs : List (Option α)}
    (h : Contiguous (some a :: none :: xs)) : ∀ x ∈ xs, x = none := by
  intro x hx
  obtain ⟨k, hk, rfl⟩ := List.getElem_of_mem hx
  cases hxk : xs[k] with
  | none => rfl
  | some c =>
    obtain ⟨b, hb⟩ := h 0 1 (k + 2) (by omega) (by omega) a c rfl
      (by rw [List.getElem?_cons_succ, List.getElem?_cons_succ, List.getElem?_eq_getElem hk, hxk])
    cases hb

theorem contiguous_none_cons {α : Type} {xs : List (Option α)} (h : Contiguous xs) :
    Contiguous (none :: xs) := by
  intro i j k hij hjk a c ha hc
  cases i with
  | zero => cases ha
  | succ i =>
    obtain ⟨j, rfl⟩ : ∃ j', j = j' + 1 := ⟨j - 1, by omega⟩
    obtain ⟨k, rfl⟩ : ∃ k', k = k' + 1 := ⟨k - 1, by omega⟩
    rw [List.getElem?_cons_succ] at ha hc ⊢
    exact h i j k (by omega) (by omega) a c ha hc

theorem contiguous_of_length_le {α : Type} {xs : List (Option α)} (h : xs.length ≤ 2) :
    Contiguous xs := by
  intro i j k hij hjk a c _ hc
  obtain ⟨hk, -⟩ := List.getElem?_eq_some_iff.mp hc
  omega

/-- What holds of all earlier and later samples holds of neighbours. -/
theorem rel_of_mem_zip {α : Type} {R : α → α → Prop} {x : α} {xs : List α}
    (h : (x :: xs).Pairwise R) {p : α × α} (hp : p ∈ (x :: xs).zip xs) : R p.1 p.2 := by
  induction xs generalizing x with
  | nil => cases hp
  | cons y ys ih =>
    rw [List.zip_cons_cons] at hp
    rcases List.mem_cons.mp hp with rfl | hp
    · exact List.rel_of_pairwise_cons h List.mem_cons_self
    · exact ih (List.pairwise_cons.mp h).2 hp

theorem mem_zip_mono {α β : Type} {xs xs' : List α} {ys ys' : List β} (hx : xs <+: xs')
    (hy : ys <+: ys') {p : α × β} (hp : p ∈ xs.zip ys) : p ∈ xs'.zip ys' := by
  obtain ⟨n, hn⟩ := List.mem_iff_getElem?.mp hp
  rw [List.getElem?_zip_eq_some] at hn
  obtain ⟨as, rfl⟩ := hx
  obtain ⟨bs, rfl⟩ := hy
  refine List.mem_iff_getElem?.mpr ⟨n, ?_⟩
  rw [List.getElem?_zip_eq_some]
  obtain ⟨hx, -⟩ := List.getElem?_eq_some_iff.mp hn.1
  obtain ⟨hy, -⟩ := List.getElem?_eq_some_iff.mp hn.2
  rw [List.getElem?_append_left hx, List.getElem?_append_left hy]
  exact hn

theorem lastValue_of_none {xs : List (Option Int)} (h : ∀ x ∈ xs, x = none) :
    lastValue xs = none := by
  induction xs with
  | nil => rfl
  | cons x xs ih =>
    rw [lastValue, ih fun y hy => h y (List.mem_cons_of_mem x hy), h x List.mem_cons_self]
    rfl

/-- **Growth telescopes.** -/
theorem sum_growths {prev : Option Int} {xs : List (Option Int)} (h : Contiguous (prev :: xs)) :
    (growths prev xs).sum = (lastValue (prev :: xs)).getD 0 - prev.getD 0 := by
  induction xs generalizing prev with
  | nil =>
    rw [growths, List.sum_nil, lastValue, lastValue, Option.none_or]
    omega
  | cons x xs ih =>
    rw [growths, List.sum_cons, ih h.tail]
    cases x with
    | some v =>
      -- the value before is no longer the last one
      have hlast : ∀ o : Option Int, ((lastValue xs).or (some v)).or o =
          (lastValue xs).or (some v) := by
        intro o
        cases lastValue xs <;> rfl
      rw [growth, lastValue, lastValue, lastValue, hlast, Option.getD_some]
      omega
    | none =>
      rw [growth, Option.getD_none, lastValue, lastValue, lastValue, Option.or_none]
      cases prev with
      | none => rw [Option.or_none, Option.getD_none, Int.zero_add]
      | some p =>
        rw [lastValue_of_none h.gone, Option.none_or, Option.getD_none, Option.getD_some]
        omega

/-! ### Maps of counters -/

section Tables

variable {ρ κ : Type} [HasKey ρ κ] [DecidableEq κ] (value : ρ → Option Int)

/-- The counter of a key in a sample; rows without a value do not count. -/
def counter (k : κ) (t : Table ρ) : Option Int := (t.find k).bind value

/-- What a sample adds, row by row. -/
def added (prev t : Table ρ) : Int :=
  (t.rows.map fun r => growth (counter value (key r) prev) (value r)).sum

/-- A sum over the rows of a table is a sum over keys. -/
theorem sum_rows {t : Table ρ} {ids : Finset κ} (hids : ∀ r ∈ t.rows, key r ∈ ids) (f : ρ → Int) :
    (t.rows.map f).sum = ∑ k ∈ ids, (t.find k).elim 0 f := by
  have hrows : ∀ r ∈ t.rows, f r = (t.find (key r)).elim 0 f := by
    intro r hr
    rw [Table.find_eq_some_iff.mpr ⟨hr, rfl⟩]
    rfl
  have hmap : t.rows.map f = (t.rows.map key).map fun k => (t.find k).elim 0 f := by
    rw [List.map_map]
    exact List.map_congr_left hrows
  rw [hmap, ← List.sum_toFinset _ t.nodup]
  refine Finset.sum_subset ?_ ?_
  · intro k hk
    obtain ⟨r, hr, rfl⟩ := List.mem_map.mp (List.mem_toFinset.mp hk)
    exact hids r hr
  · intro k _ hk
    have hnone : t.find k = none := by
      rw [Table.find_eq_none_iff]
      intro r hr hkey
      exact hk (List.mem_toFinset.mpr (List.mem_map.mpr ⟨r, hr, hkey⟩))
    rw [hnone]
    rfl

theorem added_eq_sum {prev t : Table ρ} {ids : Finset κ} (hids : ∀ r ∈ t.rows, key r ∈ ids) :
    added value prev t = ∑ k ∈ ids, growth (counter value k prev) (counter value k t) := by
  rw [added, sum_rows hids]
  refine Finset.sum_congr rfl fun k _ => ?_
  rw [counter, counter]
  cases hk : t.find k with
  | none => rfl
  | some r =>
    rw [Option.elim_some, Option.bind_some, counter, Table.key_of_find hk]

/-- **What all samples add is the sum of the last values.** -/
theorem sum_tables {prev : Table ρ} {samples : List (Table ρ)} {ids : Finset κ}
    (hids : ∀ t ∈ samples, ∀ r ∈ t.rows, key r ∈ ids)
    (hcontiguous : ∀ k, Contiguous ((prev :: samples).map (counter value k))) :
    (((prev :: samples).zip samples).map fun p => added value p.1 p.2).sum =
      ∑ k ∈ ids, ((lastValue ((prev :: samples).map (counter value k))).getD 0 -
        (counter value k prev).getD 0) := by
  have hsum : (((prev :: samples).zip samples).map fun p => added value p.1 p.2).sum =
      ∑ k ∈ ids, (growths (counter value k prev) (samples.map (counter value k))).sum := by
    clear hcontiguous
    induction samples generalizing prev with
    | nil => simp [growths]
    | cons t samples ih =>
      rw [List.zip_cons_cons, List.map_cons, List.sum_cons,
        ih fun u hu => hids u (List.mem_cons_of_mem t hu),
        added_eq_sum value (hids t List.mem_cons_self), ← Finset.sum_add_distrib]
      exact Finset.sum_congr rfl fun k _ => by rw [List.map_cons, growths, List.sum_cons]
  rw [hsum]
  exact Finset.sum_congr rfl fun k _ => sum_growths (hcontiguous k)

end Tables

end ProxyPanel.Growth
