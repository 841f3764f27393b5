import Mathlib.Tactic.Common

/-!
# The contents of a store over time

A history lists what a store has contained, the present contents last.
`HeldSince v P` says that the contents had a property at some moment from the `v`-th
contents on: what a reader may rely on that looked at the store at some time after
the `v`-th write.
-/

namespace ProxyPanel.History

variable {τ : Type}

/-- The contents have had the property `P` at some moment from number `v` on. -/
def HeldSince (history : List τ) (v : Nat) (P : τ → Prop) : Prop :=
  ∃ i t, v ≤ i ∧ history[i]? = some t ∧ P t

theorem HeldSince.append {history : List τ} {v : Nat} {P : τ → Prop} (h : HeldSince history v P)
    (later : List τ) : HeldSince (history ++ later) v P := by
  obtain ⟨i, t, hle, hget, ht⟩ := h
  refine ⟨i, t, hle, ?_, ht⟩
  rw [List.getElem?_append_left (List.getElem?_eq_some_iff.mp hget).1, hget]

theorem HeldSince.of_le {history : List τ} {v w : Nat} {P : τ → Prop} (h : HeldSince history v P)
    (hle : w ≤ v) : HeldSince history w P := by
  obtain ⟨i, t, hi, hget, ht⟩ := h
  exact ⟨i, t, Nat.le_trans hle hi, hget, ht⟩

theorem HeldSince.imp {history : List τ} {v : Nat} {P Q : τ → Prop} (h : HeldSince history v P)
    (hPQ : ∀ t, P t → Q t) : HeldSince history v Q := by
  obtain ⟨i, t, hi, hget, ht⟩ := h
  exact ⟨i, t, hi, hget, hPQ t ht⟩

/-- What holds of the present contents has held since any moment so far. -/
theorem heldSince_present {past : List τ} {t : τ} {v : Nat} {P : τ → Prop} (hv : v ≤ past.length)
    (ht : P t) : HeldSince (past ++ [t]) v P :=
  ⟨past.length, t, hv, by simp, ht⟩

theorem HeldSince.exists_mem {history : List τ} {v : Nat} {P : τ → Prop}
    (h : HeldSince history v P) : ∃ t ∈ history, P t := by
  obtain ⟨i, t, _, hget, ht⟩ := h
  exact ⟨t, List.mem_of_getElem? hget, ht⟩

end ProxyPanel.History
