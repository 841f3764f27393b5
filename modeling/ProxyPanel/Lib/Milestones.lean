import Mathlib.Tactic.Common

/-!
# Milestones

Steps that belong to a version each, in a table in which the versions ascend.  Versions
are compared by a function that orders them totally but may call different ones equal.
What a version has reached is always a first part of the table: `filter_reached` finds
it before the first step that was not reached, `filter_reached_mark` at a step.
-/

namespace ProxyPanel.Milestones

open Std

variable {ν σ : Type} (cmp : ν → ν → Ordering) (mark : σ → ν)

/-- A version is at or past the version of a step. -/
def reached (v : ν) (s : σ) : Bool := (cmp v (mark s)).isGE

def Ascending (table : List σ) : Prop :=
  table.Pairwise fun a b => cmp (mark a) (mark b) = .lt

variable {cmp mark}

theorem not_reached {v : ν} {s : σ} : reached cmp mark v s = false ↔ cmp v (mark s) = .lt := by
  rw [reached]
  cases cmp v (mark s) <;> decide

variable [TransCmp cmp] {v w : ν} {a b x : σ} {pre post : List σ}

theorem reached_mark (s : σ) : reached cmp mark (mark s) s = true := by
  have hself : cmp (mark s) (mark s) = .eq := ReflCmp.compare_self
  rw [reached, hself]
  rfl

/-- A later version has reached as much. -/
theorem reached_of_isGE (h : reached cmp mark v a = true) (hw : (cmp w v).isGE = true) :
    reached cmp mark w a = true := TransCmp.isGE_trans hw h

theorem reached_of_lt (h : reached cmp mark v b = true) (hab : cmp (mark a) (mark b) = .lt) :
    reached cmp mark v a = true := by
  refine TransCmp.isGE_trans h ?_
  rw [OrientedCmp.gt_of_lt hab]
  rfl

/-- A version before one that has not reached a step. -/
theorem not_reached_of_reached (h : reached cmp mark v a = false)
    (hw : reached cmp mark w a = true) : (cmp w v).isGE = true := by
  rw [not_reached] at h
  refine TransCmp.isGE_trans hw ?_
  rw [OrientedCmp.gt_of_lt h]
  rfl

omit [TransCmp cmp] in
theorem Ascending.before (h : Ascending cmp mark (pre ++ x :: post)) :
    ∀ p ∈ pre, cmp (mark p) (mark x) = .lt :=
  fun p hp => (List.pairwise_append.mp h).2.2 p hp x List.mem_cons_self

omit [TransCmp cmp] in
theorem Ascending.after (h : Ascending cmp mark (pre ++ x :: post)) :
    ∀ p ∈ post, cmp (mark x) (mark p) = .lt :=
  (List.pairwise_cons.mp (List.pairwise_append.mp h).2.1).1

/-- What a version reached that stands before a step: everything before the step. -/
theorem filter_reached (h : Ascending cmp mark (pre ++ x :: post))
    (hbefore : ∀ p ∈ pre, reached cmp mark v p = true) (hx : reached cmp mark v x = false) :
    (pre ++ x :: post).filter (reached cmp mark v) = pre := by
  have hafter : ∀ p ∈ x :: post, ¬ reached cmp mark v p = true := by
    intro p hp hreached
    rcases List.mem_cons.mp hp with rfl | hp
    · rw [hx] at hreached
      cases hreached
    · rw [reached_of_lt hreached (h.after p hp)] at hx
      cases hx
  rw [List.filter_append, List.filter_eq_self.mpr hbefore, List.filter_eq_nil_iff.mpr hafter,
    List.append_nil]

/-- What the version of a step reached: everything up to the step. -/
theorem filter_reached_mark (h : Ascending cmp mark (pre ++ x :: post)) :
    (pre ++ x :: post).filter (reached cmp mark (mark x)) = pre ++ [x] := by
  have hbefore : ∀ p ∈ pre, reached cmp mark (mark x) p = true :=
    fun p hp => reached_of_lt (reached_mark x) (h.before p hp)
  have hafter : ∀ p ∈ post, ¬ reached cmp mark (mark x) p = true := by
    intro p hp hreached
    rw [not_reached.mpr (h.after p hp)] at hreached
    cases hreached
  rw [List.filter_append, List.filter_cons_of_pos (reached_mark x),
    List.filter_eq_self.mpr hbefore, List.filter_eq_nil_iff.mpr hafter]

theorem Ascending.nodup {table : List σ} (h : Ascending cmp mark table) : table.Nodup := by
  refine List.Pairwise.imp (fun {a b} hab heq => ?_) h
  have hself : cmp (mark b) (mark b) = .eq := ReflCmp.compare_self
  rw [heq, hself] at hab
  cases hab

end ProxyPanel.Milestones
