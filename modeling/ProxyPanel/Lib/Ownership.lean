import ProxyPanel.Lib.Table

/-!
# Rows of an owner

`SameOutside own t u` says that two tables have the same rows outside what an owner
may write.  It is a preorder, and one write keeps it when the rows it touches belong
to the owner before and after: one lemma for each way to write a table.
-/

namespace ProxyPanel

namespace Table

variable {ρ κ : Type} [HasKey ρ κ] [DecidableEq κ]

/-- The rows the owner does not own are the same. -/
def SameOutside (own : ρ → Bool) (t u : Table ρ) : Prop :=
  (u.filter fun r => !own r) = t.filter fun r => !own r

variable {own : ρ → Bool} {t u v : Table ρ}

omit [DecidableEq κ] in
theorem SameOutside.refl (t : Table ρ) : SameOutside own t t := rfl

omit [DecidableEq κ] in
theorem SameOutside.trans (h : SameOutside own t u) (h' : SameOutside own u v) :
    SameOutside own t v := Eq.trans h' h

omit [DecidableEq κ] in
/-- A row of someone else stays. -/
theorem SameOutside.mem_iff (h : SameOutside own t u) {r : ρ} (hr : own r = false) :
    r ∈ u.rows ↔ r ∈ t.rows := by
  have hmem : ∀ w : Table ρ, (r ∈ w.filter fun r => !own r) ↔ r ∈ w.rows := by
    intro w
    rw [mem_filter, hr]
    exact and_iff_left rfl
  rw [← hmem u, ← hmem t, h]

/-- An own row is inserted, or refused. -/
theorem sameOutside_insert {r : ρ} (hr : own r = true) : SameOutside own t ((t.insert r).getD t) := by
  cases h : t.insert r with
  | none => exact SameOutside.refl t
  | some u => exact filter_insert_of_not h (by rw [hr]; rfl)

/-- An update of an own row that stays own. -/
theorem sameOutside_update {k : κ} {f : ρ → ρ}
    (h : ∀ r ∈ t.rows, key r = k → own r = true ∧ own (f r) = true) :
    SameOutside own t (t.update k f) := by
  refine filter_update_of_not fun r hr hk => Or.inr ?_
  obtain ⟨hbefore, hafter⟩ := h r hr hk
  rw [hbefore, hafter]
  exact ⟨rfl, rfl⟩

omit [DecidableEq κ] in
/-- A deletion of own rows. -/
theorem sameOutside_deleteWhere {p : ρ → Bool} (h : ∀ r ∈ t.rows, p r = true → own r = true) :
    SameOutside own t (t.deleteWhere p) := by
  refine filter_deleteWhere_of_not fun r hr hown => ?_
  cases hp : p r with
  | false => rfl
  | true =>
    rw [h r hr hp] at hown
    cases hown

/-- An entry added to an own row, or as an own row. -/
theorem sameOutside_upsert {p : ρ → Bool} {f : ρ → ρ → ρ} {new : ρ}
    (hp : ∀ r, p r = true → own r = true) (hf : ∀ r, own r = true → own (f r r) = true)
    (hnew : own new = true) : SameOutside own t ((t.upsert p f new).getD t) := by
  rw [upsert]
  cases hone : t.one p with
  | none => exact sameOutside_insert hnew
  | some r =>
    have hr := hp r (List.find?_some hone)
    rw [Option.getD_some]
    refine sameOutside_update fun s hs hk => ?_
    rw [eq_of_key_eq hs (List.mem_of_find?_eq_some hone) hk]
    exact ⟨hr, hf r hr⟩

end Table

end ProxyPanel
