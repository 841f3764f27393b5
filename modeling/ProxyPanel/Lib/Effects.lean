import Mathlib.Tactic.Common

/-!
# Programs with state and errors

A program of `EStateM ε σ` keeps the state it has when it throws.  `Leaves f x` says that
`x` does not change what `f` sees of the state, whether it returns or throws: the frame
rule.  It holds of a sequence if it holds of the parts, so a long program is framed by its
calls.  `Ends I x r` says that `x` has the result `r` from wherever `I` holds, and keeps `I`;
its rule for sequences is the same.
-/

namespace ProxyPanel.Effects

variable {ε σ α β γ : Type}

/-- The state a program ends in. -/
def after : EStateM.Result ε σ α → σ
  | .ok _ s => s
  | .error _ s => s

theorem bind_of_ok {x : EStateM ε σ α} {f : α → EStateM ε σ β} {s s' : σ} {a : α}
    (h : x s = .ok a s') : (x >>= f) s = f a s' := by
  change EStateM.bind x f s = _
  rw [EStateM.bind, h]

theorem bind_of_error {x : EStateM ε σ α} {f : α → EStateM ε σ β} {s s' : σ} {e : ε}
    (h : x s = .error e s') : (x >>= f) s = .error e s' := by
  change EStateM.bind x f s = _
  rw [EStateM.bind, h]

theorem ok_of_bind {x : EStateM ε σ α} {f : α → EStateM ε σ β} {s s'' : σ} {b : β}
    (h : (x >>= f) s = .ok b s'') : ∃ a s', x s = .ok a s' ∧ f a s' = .ok b s'' := by
  cases hx : x s with
  | ok a s' =>
    rw [bind_of_ok hx] at h
    exact ⟨a, s', rfl, h⟩
  | error e s' =>
    rw [bind_of_error hx] at h
    cases h

/-! ### Results -/

def resultOf : EStateM.Result ε σ α → Except ε α
  | .ok a _ => .ok a
  | .error e _ => .error e

/-- Started where `I` holds, the program returns, or throws, `r`, and `I` holds again. -/
def Ends (I : σ → Prop) (x : EStateM ε σ α) (r : Except ε α) : Prop :=
  ∀ s, I s → resultOf (x s) = r ∧ I (after (x s))

variable {I : σ → Prop}

theorem ends_pure (a : α) : Ends I (pure a : EStateM ε σ α) (.ok a) := fun _ hs => ⟨rfl, hs⟩

theorem ends_throw (e : ε) : Ends I (throw e : EStateM ε σ α) (.error e) := fun _ hs => ⟨rfl, hs⟩

/-- A program that ends well does so in a state where `I` holds. -/
theorem Ends.exists_ok {x : EStateM ε σ α} {a : α} (h : Ends I x (.ok a)) {s : σ} (hs : I s) :
    ∃ s', x s = .ok a s' ∧ I s' := by
  obtain ⟨hr, hI⟩ := h s hs
  cases hx : x s with
  | ok a' s' =>
    rw [hx] at hr hI
    cases hr
    exact ⟨s', rfl, hI⟩
  | error e s' =>
    rw [hx] at hr
    cases hr

theorem Ends.exists_error {x : EStateM ε σ α} {e : ε} (h : Ends I x (.error e)) {s : σ}
    (hs : I s) : ∃ s', x s = .error e s' ∧ I s' := by
  obtain ⟨hr, hI⟩ := h s hs
  cases hx : x s with
  | ok a s' =>
    rw [hx] at hr
    cases hr
  | error e' s' =>
    rw [hx] at hr hI
    cases hr
    exact ⟨s', rfl, hI⟩

theorem ends_bind_ok {x : EStateM ε σ α} {f : α → EStateM ε σ β} {a : α} {r : Except ε β}
    (hx : Ends I x (.ok a)) (hf : Ends I (f a) r) : Ends I (x >>= f) r := by
  intro s hs
  obtain ⟨s', h, hs'⟩ := hx.exists_ok hs
  rw [bind_of_ok h]
  exact hf s' hs'

theorem ends_bind {x : EStateM ε σ α} {f : α → EStateM ε σ β} {r : Except ε α}
    {g : α → Except ε β} (hx : Ends I x r) (hf : ∀ a, Ends I (f a) (g a)) :
    Ends I (x >>= f) (r >>= g) := by
  cases r with
  | ok a => exact ends_bind_ok hx (hf a)
  | error e =>
    intro s hs
    obtain ⟨s', h, hs'⟩ := hx.exists_error hs
    rw [bind_of_error h]
    exact ⟨rfl, hs'⟩

/-! ### Frames -/

/-- **A frame**: what `f` sees stays as it is. -/
def Leaves (f : σ → γ) (x : EStateM ε σ α) : Prop := ∀ s, f (after (x s)) = f s

theorem leaves_pure (f : σ → γ) (a : α) : Leaves f (pure a : EStateM ε σ α) := fun _ => rfl

theorem leaves_throw (f : σ → γ) (e : ε) : Leaves f (throw e : EStateM ε σ α) := fun _ => rfl

theorem leaves_bind {f : σ → γ} {x : EStateM ε σ α} {g : α → EStateM ε σ β} (hx : Leaves f x)
    (hg : ∀ a, Leaves f (g a)) : Leaves f (x >>= g) := by
  intro s
  have hs := hx s
  cases h : x s with
  | ok a s' =>
    rw [h] at hs
    rw [bind_of_ok h, hg a s']
    exact hs
  | error e s' =>
    rw [h] at hs
    rw [bind_of_error h]
    exact hs

theorem leaves_ite {f : σ → γ} {c : Prop} [Decidable c] {x y : EStateM ε σ α} (hx : Leaves f x)
    (hy : Leaves f y) : Leaves f (if c then x else y) := by
  split
  · exact hx
  · exact hy

end ProxyPanel.Effects
