import Mathlib.Tactic.Common

/-!
# Programs that can be killed

A program of `Traced ε σ` changes a state step by step and ends with a value or an error.
It keeps the states it passed through, one after each step, so that `cut n` is the state a
program leaves that is killed after its first `n` steps.  `within` runs a program on a part
of the state.
-/

namespace ProxyPanel

/-- How a program ends, and the states after its steps. -/
structure Traced.Outcome (ε σ α : Type) where
  result : Except ε α
  state : σ
  passed : List σ

def Traced (ε σ α : Type) : Type := σ → Traced.Outcome ε σ α

namespace Traced

variable {ε σ τ α β : Type}

protected def pure (a : α) : Traced ε σ α := fun s => ⟨.ok a, s, []⟩

protected def bind (x : Traced ε σ α) (f : α → Traced ε σ β) : Traced ε σ β := fun s =>
  let first := x s
  match first.result with
  | .error e => ⟨.error e, first.state, first.passed⟩
  | .ok a =>
    let rest := f a first.state
    ⟨rest.result, rest.state, first.passed ++ rest.passed⟩

instance : Monad (Traced ε σ) where
  pure := Traced.pure
  bind := Traced.bind

def throw (e : ε) : Traced ε σ α := fun s => ⟨.error e, s, []⟩

/-- A step that changes the state. -/
def step (f : σ → σ) : Traced ε σ Unit := fun s => ⟨.ok (), f s, [f s]⟩

/-- A call that changes nothing of the state. -/
def lift (result : Except ε α) : Traced ε σ α := fun s => ⟨result, s, []⟩

def read : Traced ε σ σ := fun s => ⟨.ok s, s, []⟩

/-- A program whose error is looked at and not returned. -/
def attempt (x : Traced ε σ α) : Traced ε σ (Except ε α) := fun s =>
  let out := x s
  ⟨.ok out.result, out.state, out.passed⟩

/-- A program on a part of the state. -/
def within (get : σ → τ) (set : τ → σ → σ) (x : Traced ε τ α) : Traced ε σ α := fun s =>
  let out := x (get s)
  ⟨out.result, set out.state s, out.passed.map (set · s)⟩

/-- A program that is run if a condition holds. -/
def onlyIf (b : Bool) (x : Traced ε σ Unit) : Traced ε σ Unit := if b then x else pure ()

/-- The state after the first `n` steps. -/
def cut (x : Traced ε σ α) (n : Nat) (s : σ) : σ := (s :: (x s).passed)[n]?.getD (x s).state

/-! ### How a sequence ends -/

theorem bind_of_ok {x : Traced ε σ α} {s : σ} {a : α} (h : (x s).result = .ok a)
    (f : α → Traced ε σ β) : (x >>= f) s = ⟨(f a (x s).state).result, (f a (x s).state).state,
      (x s).passed ++ (f a (x s).state).passed⟩ := by
  change Traced.bind x f s = _
  simp only [Traced.bind, h]

theorem bind_of_error {x : Traced ε σ α} {s : σ} {e : ε} (h : (x s).result = .error e)
    (f : α → Traced ε σ β) : (x >>= f) s = ⟨.error e, (x s).state, (x s).passed⟩ := by
  change Traced.bind x f s = _
  simp only [Traced.bind, h]

theorem step_bind (g : σ → σ) (f : Unit → Traced ε σ β) (s : σ) : (step g >>= f) s =
    ⟨(f () (g s)).result, (f () (g s)).state, g s :: (f () (g s)).passed⟩ := rfl

/-- How a program ends: with its result, in its last state. -/
def Ends (x : Traced ε σ α) (s : σ) (result : Except ε α) (s' : σ) : Prop :=
  (x s).result = result ∧ (x s).state = s'

theorem ends_pure (a : α) (s : σ) : Ends (pure a : Traced ε σ α) s (.ok a) s := ⟨rfl, rfl⟩

theorem ends_throw (e : ε) (s : σ) : Ends (throw e : Traced ε σ α) s (.error e) s := ⟨rfl, rfl⟩

theorem ends_step (f : σ → σ) (s : σ) : Ends (step f : Traced ε σ Unit) s (.ok ()) (f s) :=
  ⟨rfl, rfl⟩

theorem ends_read (s : σ) : Ends (read : Traced ε σ σ) s (.ok s) s := ⟨rfl, rfl⟩

theorem ends_lift {result result' : Except ε α} (h : result = result') (s : σ) :
    Ends (lift result) s result' s := ⟨h, rfl⟩

theorem Ends.bind {x : Traced ε σ α} {f : α → Traced ε σ β} {s s' s'' : σ} {a : α}
    {result : Except ε β} (hx : Ends x s (.ok a) s') (hf : Ends (f a) s' result s'') :
    Ends (x >>= f) s result s'' := by
  obtain ⟨hresult, rfl⟩ := hx
  rw [Ends, bind_of_ok hresult]
  exact hf

theorem Ends.bind_error {x : Traced ε σ α} {f : α → Traced ε σ β} {s s' : σ} {e : ε}
    (hx : Ends x s (.error e) s') : Ends (x >>= f) s (.error e) s' := by
  obtain ⟨hresult, rfl⟩ := hx
  rw [Ends, bind_of_error hresult]
  exact ⟨rfl, rfl⟩

theorem ends_onlyIf_false (x : Traced ε σ Unit) (s : σ) : Ends (onlyIf false x) s (.ok ()) s :=
  ⟨rfl, rfl⟩

theorem Ends.onlyIf {x : Traced ε σ Unit} {s s' : σ} {result : Except ε Unit}
    (hx : Ends x s result s') : Ends (onlyIf true x) s result s' := hx

theorem Ends.attempt {x : Traced ε σ α} {s s' : σ} {result : Except ε α}
    (hx : Ends x s result s') : Ends (attempt x) s (.ok result) s' :=
  ⟨congrArg Except.ok hx.1, hx.2⟩

theorem Ends.within {get : σ → τ} {set : τ → σ → σ} {x : Traced ε τ α} {s : σ} {t : τ}
    {result : Except ε α} (hx : Ends x (get s) result t) :
    Ends (within get set x) s result (set t s) :=
  ⟨hx.1, congrArg (set · s) hx.2⟩

end Traced

end ProxyPanel
