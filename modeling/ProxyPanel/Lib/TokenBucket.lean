import Mathlib.Algebra.Order.Field.Basic
import Mathlib.Tactic.Linarith
import Mathlib.Tactic.Ring

/-!
# Token buckets

A bucket of a capacity fills at a constant rate, and every admission takes one token
out of it.  `level` is what a bucket holds that was last written some time ago.
`Metered` is the bookkeeping over the moments of all admissions: what was admitted
from any moment on, together with what the bucket holds now, is at most the capacity
and what flowed in since.  A bucket may wait, lose tokens, and pay for an admission;
all three keep `Metered`, and `Metered.during_le` bounds the admissions in every window.
-/

namespace ProxyPanel.TokenBucket

variable {α : Type} [Field α] [LinearOrder α] [IsStrictOrderedRing α]

/-- What a bucket holds now that held `tokens` at the moment `last`. -/
def level (capacity rate tokens last now : α) : α := min (tokens + rate * (now - last)) capacity

/-- The admissions from a moment on. -/
def since (start : α) (admissions : List α) : Nat :=
  admissions.countP fun t => decide (start ≤ t)

/-- The admissions in a window of some length. -/
def during (start length : α) (admissions : List α) : Nat :=
  admissions.countP fun t => decide (start ≤ t ∧ t ≤ start + length)

/-- What was admitted is paid for by the capacity and by what flowed in. -/
structure Metered (capacity rate now held : α) (admissions : List α) : Prop where
  le_now : ∀ t ∈ admissions, t ≤ now
  since_le : ∀ start ≤ now,
    (since start admissions : α) + held ≤ capacity + rate * (now - start)
  during_le : ∀ start length, 0 ≤ length →
    (during start length admissions : α) ≤ capacity + rate * length

variable {capacity rate now now' held held' : α} {admissions : List α}

omit [IsStrictOrderedRing α] in
theorem level_le (tokens last : α) : level capacity rate tokens last now ≤ capacity :=
  min_le_right _ _

theorem level_wait (hrate : 0 ≤ rate) (tokens last : α) (h : now ≤ now') :
    level capacity rate tokens last now' ≤
      level capacity rate tokens last now + rate * (now' - now) := by
  have hgrow : 0 ≤ rate * (now' - now) := mul_nonneg hrate (sub_nonneg.mpr h)
  have hsplit : tokens + rate * (now' - last) =
      tokens + rate * (now - last) + rate * (now' - now) := by ring
  rw [level, level, ← min_add_add_right, hsplit]
  exact min_le_min_left _ (le_add_of_nonneg_right hgrow)

omit [IsStrictOrderedRing α] in
theorem during_le_since (start length : α) : during start length admissions ≤
    since start admissions := by
  refine List.countP_mono_left fun t _ h => ?_
  rw [decide_eq_true_eq] at h ⊢
  exact h.1

omit [Field α] [IsStrictOrderedRing α] in
theorem since_eq_zero {start : α} (h : ∀ t ∈ admissions, t < start) : since start admissions = 0 := by
  refine List.countP_eq_zero.mpr fun t ht => ?_
  rw [decide_eq_true_eq]
  exact not_le.mpr (h t ht)

theorem metered_nil (hcapacity : 0 ≤ capacity) (hrate : 0 ≤ rate) (hheld : held ≤ capacity) :
    Metered capacity rate now held [] := by
  refine ⟨by simp, fun start hstart => ?_, fun start length hlength => ?_⟩
  · have hgrow : 0 ≤ rate * (now - start) := mul_nonneg hrate (sub_nonneg.mpr hstart)
    rw [since, List.countP_nil, Nat.cast_zero, zero_add]
    exact hheld.trans (le_add_of_nonneg_right hgrow)
  · rw [during, List.countP_nil, Nat.cast_zero]
    exact add_nonneg hcapacity (mul_nonneg hrate hlength)

/-- Tokens may be lost. -/
theorem Metered.of_le (h : Metered capacity rate now held admissions) (hheld : held' ≤ held) :
    Metered capacity rate now held' admissions := by
  refine ⟨h.le_now, fun start hstart => ?_, h.during_le⟩
  have hsince := h.since_le start hstart
  linarith

/-- Time passes, and the bucket fills. -/
theorem Metered.wait (h : Metered capacity rate now held admissions) (hrate : 0 ≤ rate)
    (hnow : now ≤ now') (hheld : held' ≤ held + rate * (now' - now)) (hfull : held' ≤ capacity) :
    Metered capacity rate now' held' admissions := by
  refine ⟨fun t ht => (h.le_now t ht).trans hnow, fun start hstart => ?_, h.during_le⟩
  rcases le_or_gt start now with hbefore | hafter
  · have hsince := h.since_le start hbefore
    have hsplit : rate * (now' - start) = rate * (now - start) + rate * (now' - now) := by ring
    linarith
  · -- Nothing was admitted yet in a window that starts only now.
    have hnone : since start admissions = 0 :=
      since_eq_zero fun t ht => (h.le_now t ht).trans_lt hafter
    have hgrow : 0 ≤ rate * (now' - start) := mul_nonneg hrate (sub_nonneg.mpr hstart)
    rw [hnone, Nat.cast_zero, zero_add]
    exact hfull.trans (le_add_of_nonneg_right hgrow)

/-- An admission that the bucket pays for. -/
theorem Metered.pay (h : Metered capacity rate now held admissions) (hrate : 0 ≤ rate)
    (hheld : held' + 1 ≤ held) (hrest : 0 ≤ held') :
    Metered capacity rate now held' (admissions ++ [now]) := by
  have hsince_le : ∀ start ≤ now,
      (since start (admissions ++ [now]) : α) + held' ≤ capacity + rate * (now - start) := by
    intro start hstart
    have hsince := h.since_le start hstart
    have hmore : since start (admissions ++ [now]) = since start admissions + 1 := by
      simp only [since, List.countP_append, List.countP_singleton, hstart, decide_true, if_true]
    rw [hmore, Nat.cast_add, Nat.cast_one]
    linarith
  refine ⟨fun t ht => ?_, hsince_le, fun start length hlength => ?_⟩
  · rcases List.mem_append.mp ht with ht | ht
    · exact h.le_now t ht
    · rw [List.mem_singleton.mp ht]
  · by_cases hin : start ≤ now ∧ now ≤ start + length
    · -- The window is still open: it holds at most what was admitted since its start.
      have hopen : (during start length (admissions ++ [now]) : α) ≤
          since start (admissions ++ [now]) := Nat.cast_le.mpr (during_le_since start length)
      have hsince := hsince_le start hin.1
      have hlength' : rate * (now - start) ≤ rate * length :=
        mul_le_mul_of_nonneg_left (sub_le_iff_le_add'.mpr hin.2) hrate
      linarith
    · have hsame : during start length (admissions ++ [now]) = during start length admissions := by
        simp only [during, List.countP_append, List.countP_singleton, hin, decide_false,
          Bool.false_eq_true, if_false, Nat.add_zero]
      rw [hsame]
      exact h.during_le start length hlength

end ProxyPanel.TokenBucket
