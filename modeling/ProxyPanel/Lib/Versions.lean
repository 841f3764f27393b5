import Mathlib.Algebra.Ring.Int.Defs
import Mathlib.Algebra.Ring.Nat
import Mathlib.Algebra.BigOperators.Group.List.Basic
import Mathlib.Logic.Function.Basic
import Mathlib.Tactic.Common

/-!
# Cells with versions and pools of tasks

Tasks that read shared cells and write them later lose updates when a cell changes in
between.  `Seen` is what a task knows of a cell it read when it kept the version of the
cell: while the version is the same, so is the value.  `sum_map_set` is about the total of
a pool when one task goes on.
-/

namespace ProxyPanel.Versions

section Cells

variable {κ β : Type} {value value' : κ → β} {version : κ → Nat} {k : κ} {v : β} {n : Nat}

/-- The value `v` was read from the cell `k` at version `n`. -/
structure Seen (value : κ → β) (version : κ → Nat) (k : κ) (v : β) (n : Nat) : Prop where
  le : n ≤ version k
  same : n = version k → value k = v

theorem seen_read (value : κ → β) (version : κ → Nat) (k : κ) :
    Seen value version k (value k) (version k) := ⟨Nat.le_refl _, fun _ => rfl⟩

/-- What does not change the cells changes nothing. -/
theorem Seen.frame (h : Seen value version k v n) (hvalue : value' k = value k) :
    Seen value' version k v n := ⟨h.le, fun hn => hvalue.trans (h.same hn)⟩

/-- A write of one cell gives it a new version; who read that cell before knows no more. -/
theorem Seen.write [DecidableEq κ] (h : Seen value version k v n) {k₀ : κ}
    (hvalue : ∀ k, k ≠ k₀ → value' k = value k) :
    Seen value' (Function.update version k₀ (version k₀ + 1)) k v n := by
  by_cases hk : k = k₀
  · subst hk
    refine ⟨?_, fun hn => ?_⟩
    · rw [Function.update_self]
      exact Nat.le_succ_of_le h.le
    · rw [Function.update_self] at hn
      have hle := h.le
      omega
  · refine ⟨?_, fun hn => ?_⟩
    · rw [Function.update_of_ne hk]
      exact h.le
    · rw [Function.update_of_ne hk] at hn
      exact (hvalue k hk).trans (h.same hn)

end Cells

section Pools

variable {α : Type} {l : List α} {i : Nat} {a b : α}

/-- The total of a pool when one member is exchanged. -/
theorem sum_map_set (f : α → Int) (h : l[i]? = some a) :
    ((l.set i b).map f).sum + f a = (l.map f).sum + f b := by
  induction l generalizing i with
  | nil => cases h
  | cons x xs ih =>
    cases i with
    | zero =>
      cases h
      rw [List.set_cons_zero, List.map_cons, List.map_cons, List.sum_cons, List.sum_cons]
      omega
    | succ i =>
      have hrest := ih (i := i) h
      rw [List.set_cons_succ, List.map_cons, List.map_cons, List.sum_cons, List.sum_cons]
      omega

/-- What holds of every member and of the new one holds after the exchange. -/
theorem forall_mem_set {P : α → Prop} (h : ∀ x ∈ l, P x) (hb : P b) : ∀ x ∈ l.set i b, P x := by
  intro x hx
  rcases List.mem_or_eq_of_mem_set hx with hx | rfl
  · exact h x hx
  · exact hb

end Pools

end ProxyPanel.Versions
