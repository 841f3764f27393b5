import ProxyPanel.Lib.Table

/-!
# Running totals in a keyed table

Entries of a group and a value arrive one after another, and a table keeps one row
for each group with the total so far.  `upsert` adds an entry the way a store does:
it updates the row of the group, or inserts one.  `Tallied` says that the rows are
exactly the totals of a list of entries; `tallied_upsert` is its step.
-/

namespace ProxyPanel

namespace Tally

variable {ρ κ γ β : Type} [HasKey ρ κ] [DecidableEq γ]

/-- The group a row counts for, if any, and the total it holds. -/
structure Layout (ρ γ β : Type) where
  group : ρ → Option γ
  total : ρ → β

/-- What the rows of a group hold after some values: nothing, or one total. -/
def totals (add : β → β → β) : List β → List β
  | [] => []
  | v :: vs => [vs.foldl add v]

/-- The values of the entries of a group. -/
def valuesOf (entries : List (γ × β)) (k : γ) : List β :=
  (entries.filter fun e => e.1 = k).map (·.2)

/-- The rows of a group. -/
def rowsOf (L : Layout ρ γ β) (t : Table ρ) (k : γ) : List ρ :=
  t.filter fun r => L.group r = some k

/-- **The rows are the totals of the entries**: none for a group without entries, one
for any other. -/
def Tallied (L : Layout ρ γ β) (add : β → β → β) (t : Table ρ) (entries : List (γ × β)) : Prop :=
  ∀ k, (rowsOf L t k).map L.total = totals add (valuesOf entries k)

variable {L : Layout ρ γ β} {add : β → β → β} {t : Table ρ} {entries : List (γ × β)} {k : γ} {v : β}

theorem totals_append (vs : List β) (v : β) :
    totals add (vs ++ [v]) = if vs = [] then [v] else (totals add vs).map (add · v) := by
  cases vs with
  | nil => rfl
  | cons w ws =>
    rw [List.cons_append, totals, List.foldl_append, if_neg (List.cons_ne_nil w ws)]
    rfl

theorem length_totals_le (vs : List β) : (totals add vs).length ≤ 1 := by
  cases vs with
  | nil => exact Nat.zero_le 1
  | cons v vs => exact Nat.le_refl 1

theorem totals_eq_nil_iff {vs : List β} : totals add vs = [] ↔ vs = [] := by
  cases vs with
  | nil => exact iff_of_true rfl rfl
  | cons v vs => exact iff_of_false (List.cons_ne_nil _ _) (List.cons_ne_nil _ _)

theorem valuesOf_append_self : valuesOf (entries ++ [(k, v)]) k = valuesOf entries k ++ [v] := by
  rw [valuesOf, List.filter_append, List.map_append, ← valuesOf, List.filter_cons,
    if_pos (decide_eq_true rfl)]
  rfl

theorem valuesOf_append_of_ne {k' : γ} (h : k ≠ k') :
    valuesOf (entries ++ [(k, v)]) k' = valuesOf entries k' := by
  rw [valuesOf, List.filter_append, List.filter_cons, if_neg (by simpa using h), List.filter_nil,
    List.append_nil, ← valuesOf]

theorem tallied_nil (h : t.rows = []) : Tallied L add t [] := by
  intro k
  rw [rowsOf, Table.filter, h]
  rfl

/-- At most one row counts for a group. -/
theorem Tallied.length_le (h : Tallied L add t entries) (k : γ) : (rowsOf L t k).length ≤ 1 := by
  have hlength := congrArg List.length (h k)
  rw [List.length_map] at hlength
  rw [hlength]
  exact length_totals_le _

omit [HasKey ρ κ] [DecidableEq γ] in
theorem eq_of_mem_of_length_le {l : List ρ} {r : ρ} (hr : r ∈ l) (hl : l.length ≤ 1) : l = [r] := by
  cases l with
  | nil => cases hr
  | cons a l =>
    obtain rfl : l = [] := List.length_eq_zero_iff.mp (by rw [List.length_cons] at hl; omega)
    rw [List.mem_singleton.mp hr]

variable [DecidableEq κ]

/-- The row of a group takes one more entry. -/
theorem Tallied.update (h : Tallied L add t entries) {r : ρ} {f : ρ → ρ} (hr : r ∈ t.rows)
    (hgroup : L.group r = some k) (hkey : key (f r) = key r) (hkeep : L.group (f r) = some k)
    (htotal : L.total (f r) = add (L.total r) v) :
    Tallied L add (t.update (key r) f) (entries ++ [(k, v)]) := by
  have hrow : ∀ s ∈ t.rows, key s = key r → s = r := fun s hs hsr => Table.eq_of_key_eq hs hr hsr
  intro k'
  by_cases hk : k = k'
  · subst hk
    have hone : rowsOf L t k = [r] :=
      eq_of_mem_of_length_le (Table.mem_filter.mpr ⟨hr, decide_eq_true hgroup⟩) (h.length_le k)
    have hafter : rowsOf L (t.update (key r) f) k = [f r] := by
      rw [rowsOf, Table.filter_update (fun s hs hsr => by rw [hrow s hs hsr, hkeep, hgroup]),
        ← rowsOf, hone, List.map_singleton, if_pos ⟨rfl, hkey⟩]
    have hbefore := h k
    rw [hone] at hbefore
    have hne : valuesOf entries k ≠ [] := by
      rw [Ne, ← totals_eq_nil_iff, ← hbefore]
      exact List.cons_ne_nil _ _
    rw [hafter, valuesOf_append_self, totals_append, if_neg hne, ← hbefore, List.map_singleton,
      List.map_singleton, List.map_singleton, htotal]
  · have hother : ∀ s : ρ, L.group s = some k → decide (L.group s = some k') = false := by
      intro s hs
      rw [hs]
      exact decide_eq_false fun he => hk (Option.some.inj he)
    rw [valuesOf_append_of_ne hk, ← h k', rowsOf, Table.filter_update_of_not, ← rowsOf]
    intro s hs hsr
    rw [hrow s hs hsr]
    exact Or.inr ⟨hother r hgroup, hother (f r) hkeep⟩

/-- The first entry of a group. -/
theorem Tallied.insert (h : Tallied L add t entries) {r : ρ} {u : Table ρ}
    (hnone : ∀ s ∈ t.rows, L.group s ≠ some k) (hu : t.insert r = some u)
    (hgroup : L.group r = some k) (htotal : L.total r = v) :
    Tallied L add u (entries ++ [(k, v)]) := by
  intro k'
  by_cases hk : k = k'
  · subst hk
    have hnil : rowsOf L t k = [] :=
      List.filter_eq_nil_iff.mpr fun s hs => by simpa using hnone s hs
    have hvalues : valuesOf entries k = [] := totals_eq_nil_iff.mp (by rw [← h k, hnil]; rfl)
    have hafter : rowsOf L u k = [r] := by
      rw [rowsOf, Table.filter, Table.rows_of_insert hu, List.filter_append, ← Table.filter,
        ← rowsOf, hnil, List.filter_cons, if_pos (decide_eq_true hgroup)]
      rfl
    rw [hafter, valuesOf_append_self, hvalues, List.map_singleton, htotal]
    rfl
  · have hother : decide (L.group r = some k') = false := by
      rw [hgroup]
      exact decide_eq_false fun he => hk (Option.some.inj he)
    rw [valuesOf_append_of_ne hk, ← h k', rowsOf, Table.filter_insert_of_not hu hother, ← rowsOf]

/-- **An entry that is added** to the row of its group, or else as a new row, is one
entry more. -/
theorem tallied_upsert (h : Tallied L add t entries) {p : ρ → Bool} {f : ρ → ρ → ρ} {new : ρ}
    {u : Table ρ} (hp : ∀ r, p r = true ↔ L.group r = some k) (hkey : ∀ r, key (f r r) = key r)
    (hkeep : ∀ r, L.group (f r r) = L.group r) (htotal : ∀ r, L.total (f r r) = add (L.total r) v)
    (hgroup : L.group new = some k) (hnew : L.total new = v) (hu : t.upsert p f new = some u) :
    Tallied L add u (entries ++ [(k, v)]) := by
  rw [Table.upsert] at hu
  cases hone : t.one p with
  | some r =>
    rw [hone] at hu
    cases hu
    have hr : L.group r = some k := (hp r).mp (List.find?_some hone)
    exact h.update (List.mem_of_find?_eq_some hone) hr (hkey r) ((hkeep r).trans hr) (htotal r)
  | none =>
    rw [hone] at hu
    refine h.insert (fun s hs hsk => ?_) hu hgroup hnew
    exact List.find?_eq_none.mp hone s hs ((hp s).mpr hsk)

end Tally

end ProxyPanel
