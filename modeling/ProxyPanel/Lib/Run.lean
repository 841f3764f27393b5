import Mathlib.Tactic.Common

/-!
# Runs of a labelled transition system

A system is a partial step function `σ → α → Option σ`: `none` is a step that
cannot be taken there.  `run` takes a list of steps, `Guarded ok` says that every
step of a run met a condition on the state before it, and `inv_of_guarded` is the
induction every safety result uses: what one allowed step keeps, every run of
allowed steps keeps.
-/

namespace ProxyPanel.Run

variable {σ α : Type} {step : σ → α → Option σ}

/-- The state after a list of steps. -/
def run (step : σ → α → Option σ) : σ → List α → Option σ
  | s, [] => some s
  | s, a :: as => (step s a).bind fun s' => run step s' as

/-- Every step of the run from `s` meets `ok` in the state it is taken in. -/
def Guarded (step : σ → α → Option σ) (ok : σ → α → Prop) : σ → List α → Prop
  | _, [] => True
  | s, a :: as => ok s a ∧ ∀ s', step s a = some s' → Guarded step ok s' as

@[simp] theorem run_nil (s : σ) : run step s [] = some s := rfl

theorem run_cons (s : σ) (a : α) (as : List α) :
    run step s (a :: as) = (step s a).bind fun s' => run step s' as := rfl

/-- **The run rule.**  An invariant of every allowed step holds at the end of
every run of allowed steps. -/
theorem inv_of_guarded {ok : σ → α → Prop} {I : σ → Prop}
    (hstep : ∀ s a s', I s → ok s a → step s a = some s' → I s') {s s' : σ} {as : List α}
    (hs : I s) (hok : Guarded step ok s as) (hrun : run step s as = some s') : I s' := by
  induction as generalizing s with
  | nil => cases hrun; exact hs
  | cons a as ih =>
    rw [run_cons] at hrun
    obtain ⟨t, ht, htail⟩ := Option.bind_eq_some_iff.mp hrun
    exact ih (hstep s a t hs hok.1 ht) (hok.2 t ht) htail

theorem inv_of_run {I : σ → Prop} (hstep : ∀ s a s', I s → step s a = some s' → I s') {s s' : σ}
    {as : List α} (hs : I s) (hrun : run step s as = some s') : I s' := by
  induction as generalizing s with
  | nil => cases hrun; exact hs
  | cons a as ih =>
    rw [run_cons] at hrun
    obtain ⟨t, ht, htail⟩ := Option.bind_eq_some_iff.mp hrun
    exact ih (hstep s a t hs ht) htail

/-- A guarded run stays guarded up to each of its states. -/
theorem guarded_append {ok : σ → α → Prop} {s : σ} {as bs : List α}
    (h : Guarded step ok s (as ++ bs)) : Guarded step ok s as ∧
      ∀ s', run step s as = some s' → Guarded step ok s' bs := by
  induction as generalizing s with
  | nil => exact ⟨trivial, fun s' hs' => by cases hs'; exact h⟩
  | cons a as ih =>
    refine ⟨⟨h.1, fun t ht => (ih (h.2 t ht)).1⟩, fun s' hs' => ?_⟩
    rw [run_cons] at hs'
    obtain ⟨t, ht, htail⟩ := Option.bind_eq_some_iff.mp hs'
    exact (ih (h.2 t ht)).2 s' htail

theorem guarded_of_forall {ok : σ → α → Prop} {as : List α} (h : ∀ a ∈ as, ∀ s, ok s a) (s : σ) :
    Guarded step ok s as := by
  induction as generalizing s with
  | nil => trivial
  | cons a as ih =>
    exact ⟨h a List.mem_cons_self s,
      fun s' _ => ih (fun b hb => h b (List.mem_cons_of_mem a hb)) s'⟩

/-- If steps of a kind keep an invariant, and meet `ok` where it holds, a run of such steps
is guarded. -/
theorem guarded_of_inv {ok : σ → α → Prop} {I : σ → Prop} {P : α → Prop}
    (hstep : ∀ s a s', I s → P a → step s a = some s' → I s')
    (hok : ∀ s a, I s → P a → ok s a) {s : σ} {as : List α} (hs : I s) (h : ∀ a ∈ as, P a) :
    Guarded step ok s as := by
  induction as generalizing s with
  | nil => trivial
  | cons a as ih =>
    have ha : P a := h a List.mem_cons_self
    exact ⟨hok s a hs ha, fun s' hs' =>
      ih (hstep s a s' hs ha hs') fun b hb => h b (List.mem_cons_of_mem a hb)⟩

theorem Guarded.imp {ok ok' : σ → α → Prop} (himp : ∀ s a, ok s a → ok' s a) {s : σ} {as : List α}
    (h : Guarded step ok s as) : Guarded step ok' s as := by
  induction as generalizing s with
  | nil => trivial
  | cons a as ih => exact ⟨himp s a h.1, fun t ht => ih (h.2 t ht)⟩

theorem guarded_and {ok ok' : σ → α → Prop} {s : σ} {as : List α} (h : Guarded step ok s as)
    (h' : Guarded step ok' s as) : Guarded step (fun s a => ok s a ∧ ok' s a) s as := by
  induction as generalizing s with
  | nil => trivial
  | cons a as ih => exact ⟨⟨h.1, h'.1⟩, fun t ht => ih (h.2 t ht) (h'.2 t ht)⟩

/-- A condition on the state before a step that is exactly what keeps an invariant:
the invariant holds throughout a run if and only if the run is guarded. -/
theorem forall_prefix_iff_guarded {ok : σ → α → Prop} {I : σ → Prop}
    (hstep : ∀ s a s', I s → step s a = some s' → (I s' ↔ ok s a)) {s : σ} (hs : I s)
    {as : List α} (hrun : (run step s as).isSome) :
    (∀ bs s', bs <+: as → run step s bs = some s' → I s') ↔ Guarded step ok s as := by
  induction as generalizing s with
  | nil =>
    refine iff_of_true (fun bs s' hbs hs' => ?_) trivial
    cases List.prefix_nil.mp hbs
    cases hs'
    exact hs
  | cons a as ih =>
    rw [run_cons] at hrun
    obtain ⟨t, ht⟩ : ∃ t, step s a = some t := by
      cases h : step s a with
      | none => rw [h] at hrun; cases hrun
      | some t => exact ⟨t, rfl⟩
    rw [ht] at hrun
    have hfirst := hstep s a t hs ht
    constructor
    · intro h
      have htI : I t := h [a] t ⟨as, rfl⟩ (by rw [run_cons, ht]; rfl)
      refine ⟨hfirst.mp htI, fun t' ht' => ?_⟩
      cases ht.symm.trans ht'
      refine (ih htI hrun).mp (fun bs s' hbs hs' => ?_)
      obtain ⟨cs, rfl⟩ := hbs
      exact h (a :: bs) s' ⟨cs, rfl⟩ (by rw [run_cons, ht]; exact hs')
    · rintro ⟨hok, htail⟩ bs s' hbs hs'
      cases bs with
      | nil => cases hs'; exact hs
      | cons b bs =>
        obtain ⟨cs, hcs⟩ := hbs
        cases hcs
        rw [run_cons, ht] at hs'
        exact (ih (hfirst.mpr hok) hrun).mpr (htail t ht) bs s' ⟨cs, rfl⟩ hs'

/-- A run is guarded if a property of its states needs the condition of every step,
given an invariant of the steps that meet it. -/
theorem guarded_of_forall_prefix {ok : σ → α → Prop} {I P : σ → Prop}
    (hstep : ∀ s a s', I s → ok s a → step s a = some s' → I s')
    (hneeds : ∀ s a s', I s → step s a = some s' → P s' → ok s a) {s : σ} (hs : I s)
    {as : List α} (hrun : (run step s as).isSome)
    (h : ∀ bs s', bs <+: as → run step s bs = some s' → P s') : Guarded step ok s as := by
  induction as generalizing s with
  | nil => trivial
  | cons a as ih =>
    rw [run_cons] at hrun
    obtain ⟨t, ht⟩ : ∃ t, step s a = some t := by
      cases hstep : step s a with
      | none => rw [hstep] at hrun; cases hrun
      | some t => exact ⟨t, rfl⟩
    rw [ht] at hrun
    have hok : ok s a := hneeds s a t hs ht (h [a] t ⟨as, rfl⟩ (by rw [run_cons, ht]; rfl))
    refine ⟨hok, fun t' ht' => ?_⟩
    cases ht.symm.trans ht'
    refine ih (hstep s a t hs hok ht) hrun fun bs s' hbs hs' => ?_
    obtain ⟨cs, rfl⟩ := hbs
    exact h (a :: bs) s' ⟨cs, rfl⟩ (by rw [run_cons, ht]; exact hs')

/-- Every step can be taken and meets a computed condition. -/
def checked (step : σ → α → Option σ) (check : σ → α → Bool) : σ → List α → Bool
  | _, [] => true
  | s, a :: as => check s a && (step s a).any fun s' => checked step check s' as

theorem checked_cons {check : σ → α → Bool} {s : σ} {a : α} {as : List α}
    (h : checked step check s (a :: as) = true) :
    check s a = true ∧ ∃ s', step s a = some s' ∧ checked step check s' as = true := by
  rw [checked, Bool.and_eq_true, Option.any_eq_true] at h
  exact h

/-- A run that can be evaluated is guarded if the computed condition is enough. -/
theorem guarded_of_checked {ok : σ → α → Prop} {check : σ → α → Bool} {I : σ → Prop}
    (hok : ∀ s a, I s → check s a = true → ok s a)
    (hstep : ∀ s a s', I s → check s a = true → step s a = some s' → I s') {s : σ} {as : List α}
    (hs : I s) (h : checked step check s as = true) :
    Guarded step ok s as ∧ ∃ s', run step s as = some s' := by
  induction as generalizing s with
  | nil => exact ⟨trivial, s, rfl⟩
  | cons a as ih =>
    obtain ⟨hcheck, t, ht, htail⟩ := checked_cons h
    obtain ⟨hguarded, s', hs'⟩ := ih (hstep s a t hs hcheck ht) htail
    refine ⟨⟨hok s a hs hcheck, fun t' ht' => ?_⟩, s', ?_⟩
    · cases ht.symm.trans ht'
      exact hguarded
    · rw [run_cons, ht]
      exact hs'

end ProxyPanel.Run
