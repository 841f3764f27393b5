import ProxyPanel.Lib.Run

/-!
# Critical sections under one lock

Callers run outside a lock and take it for a critical section of several stages,
while an environment changes the shared state at any moment.  `Monitor.invariant`
is the rule for such a system: an invariant that may depend on the stage of the
holder is checked once for each kind of step, and what it says without a holder
holds at every point outside a critical section.
-/

namespace ProxyPanel.Run

abbrev Caller := Nat

/-- What callers and environment do: `κ` are the points outside the lock, `σ` the
stages of a critical section, `ι` the outcomes a step of a caller depends on, `ε`
the steps of the environment and `ρ` the shared state. -/
structure Monitor (κ σ ι ε ρ : Type) where
  work : ι → κ → ρ → Option (κ × ρ)
  /-- The first stage, at the points where a caller waits for the lock. -/
  enter : κ → Option σ
  /-- The next stage, or the point outside to which the caller goes on. -/
  critical : ι → σ → ρ → Option ((σ ⊕ κ) × ρ)
  environment : ε → ρ → Option ρ

namespace Monitor

variable {κ σ ι ε ρ : Type}

/-- The holder of the lock with its stage, the points of the other callers and the
shared state. -/
structure State (κ σ ρ : Type) where
  lock : Option (Caller × σ)
  points : Caller → κ
  shared : ρ

/-- The stage of the critical section that is under way. -/
def State.stage (st : State κ σ ρ) : Option σ := st.lock.map (·.2)

inductive Action (ι ε : Type) where
  | advance (c : Caller) (i : ι)
  | environment (e : ε)

variable (m : Monitor κ σ ι ε ρ)

/-- The holder goes on to a stage or gives the lock back. -/
def leaveOrStay (st : State κ σ ρ) (c : Caller) : (σ ⊕ κ) × ρ → State κ σ ρ
  | (.inl s, r) => { st with lock := some (c, s), shared := r }
  | (.inr k, r) => ⟨none, Function.update st.points c k, r⟩

def advanceOutside (st : State κ σ ρ) (c : Caller) (i : ι) : Option (State κ σ ρ) :=
  match m.enter (st.points c), st.lock with
  | some s, none => some { st with lock := some (c, s) }
  | some _, some _ => none
  | none, _ => (m.work i (st.points c) st.shared).map fun (k, r) =>
      { st with points := Function.update st.points c k, shared := r }

def step (st : State κ σ ρ) : Action ι ε → Option (State κ σ ρ)
  | .advance c i =>
    match st.lock with
    | some (holder, s) =>
      if holder = c then (m.critical i s st.shared).map (leaveOrStay st c)
      else m.advanceOutside st c i
    | none => m.advanceOutside st c i
  | .environment e => (m.environment e st.shared).map fun r => { st with shared := r }

/-- What each kind of step does to an invariant that depends on the stage. -/
structure Keeps (I : Option σ → ρ → Prop) : Prop where
  work : ∀ i k k' s r r', I s r → m.work i k r = some (k', r') → I s r'
  enter : ∀ k s r, I none r → m.enter k = some s → I (some s) r
  critical : ∀ i s next r r', I (some s) r → m.critical i s r = some (next, r') → I next.getLeft? r'
  environment : ∀ e s r r', I s r → m.environment e r = some r' → I s r'

variable {m}

theorem inv_leaveOrStay {I : Option σ → ρ → Prop} {st : State κ σ ρ} {c : Caller}
    {next : (σ ⊕ κ) × ρ} (h : I next.1.getLeft? next.2) :
    I (leaveOrStay st c next).stage (leaveOrStay st c next).shared := by
  obtain ⟨s | k, r⟩ := next
  · exact h
  · exact h

theorem inv_advanceOutside {I : Option σ → ρ → Prop} (hm : m.Keeps I) {st st' : State κ σ ρ}
    {c : Caller} {i : ι} (h : I st.stage st.shared) (hstep : m.advanceOutside st c i = some st') :
    I st'.stage st'.shared := by
  unfold advanceOutside at hstep
  split at hstep
  next s hs hlock =>
    cases hstep
    rw [State.stage, hlock] at h
    exact hm.enter _ s _ h hs
  next => cases hstep
  next =>
    obtain ⟨⟨k, r⟩, hwork, rfl⟩ := Option.map_eq_some_iff.mp hstep
    exact hm.work i _ k st.stage st.shared r h hwork

theorem inv_step {I : Option σ → ρ → Prop} (hm : m.Keeps I) {st st' : State κ σ ρ}
    {a : Action ι ε} (h : I st.stage st.shared) (hstep : m.step st a = some st') :
    I st'.stage st'.shared := by
  cases a with
  | environment e =>
    obtain ⟨r, hr, rfl⟩ := Option.map_eq_some_iff.mp hstep
    exact hm.environment e st.stage st.shared r h hr
  | advance c i =>
    rw [step] at hstep
    split at hstep
    next holder s hlock =>
      split at hstep
      · obtain ⟨⟨next, r⟩, hnext, rfl⟩ := Option.map_eq_some_iff.mp hstep
        rw [State.stage, hlock] at h
        exact inv_leaveOrStay (hm.critical i s next st.shared r h hnext)
      · exact inv_advanceOutside hm h hstep
    next => exact inv_advanceOutside hm h hstep

/-- **The rule for a monitor.**  What every kind of step keeps holds after every run,
whatever the order of the steps; when nobody holds the lock it holds of no stage. -/
theorem invariant {I : Option σ → ρ → Prop} (hm : m.Keeps I) {st st' : State κ σ ρ}
    {as : List (Action ι ε)} (h : I st.stage st.shared) (hrun : run m.step st as = some st') :
    I st'.stage st'.shared :=
  inv_of_run (I := fun st => I st.stage st.shared)
    (fun _ _ _ h hstep => inv_step hm h hstep) h hrun

/-- What one step of a caller can be: a stage of its critical section, taking the lock, or
work outside it. -/
theorem advance_cases {st st' : State κ σ ρ} {c : Caller} {i : ι}
    (h : m.step st (.advance c i) = some st') :
    (∃ s next, st.lock = some (c, s) ∧ m.critical i s st.shared = some next ∧
        st' = leaveOrStay st c next) ∨
      (∃ s, st.lock = none ∧ m.enter (st.points c) = some s ∧
        st' = { st with lock := some (c, s) }) ∨
      (∃ k r, (∀ s, st.lock ≠ some (c, s)) ∧ m.enter (st.points c) = none ∧
        m.work i (st.points c) st.shared = some (k, r) ∧
        st' = { st with points := Function.update st.points c k, shared := r }) := by
  have houtside : (∀ s, st.lock ≠ some (c, s)) → m.advanceOutside st c i = some st' →
      (∃ s, st.lock = none ∧ m.enter (st.points c) = some s ∧
        st' = { st with lock := some (c, s) }) ∨
      (∃ k r, (∀ s, st.lock ≠ some (c, s)) ∧ m.enter (st.points c) = none ∧
        m.work i (st.points c) st.shared = some (k, r) ∧
        st' = { st with points := Function.update st.points c k, shared := r }) := by
    intro hother h
    unfold advanceOutside at h
    split at h
    next s hs hlock =>
      cases h
      exact .inl ⟨s, hlock, hs, rfl⟩
    next => cases h
    next henter =>
      obtain ⟨⟨k, r⟩, hwork, rfl⟩ := Option.map_eq_some_iff.mp h
      exact .inr ⟨k, r, hother, henter, hwork, rfl⟩
  rw [step] at h
  split at h
  next holder s hlock =>
    split at h
    next hholder =>
      cases hholder
      obtain ⟨next, hnext, rfl⟩ := Option.map_eq_some_iff.mp h
      exact .inl ⟨s, next, hlock, hnext, rfl⟩
    next hholder =>
      refine .inr (houtside (fun s' hs' => hholder ?_) h)
      cases hlock.symm.trans hs'
      rfl
  next hlock =>
    refine .inr (houtside (fun s' hs' => ?_) h)
    rw [hlock] at hs'
    cases hs'

/-! ### Callers that are dropped -/

/-- The stage a caller is at while it holds the lock. -/
def State.holding (st : State κ σ ρ) (c : Caller) : Option σ :=
  match st.lock with
  | some (holder, s) => if holder = c then some s else none
  | none => none

theorem State.holding_eq_some_iff {st : State κ σ ρ} {c : Caller} {s : σ} :
    st.holding c = some s ↔ st.lock = some (c, s) := by
  unfold State.holding
  split
  next holder s' hlock =>
    rw [hlock]
    split
    next hholder => simp [hholder]
    next hholder => simp [hholder]
  next hlock => simp [hlock]

/-- A caller is dropped: a holder gives the lock back at once, and `release` is what the end
of its stage does to the shared state. -/
def drop (release : σ → ρ → ρ) (st : State κ σ ρ) (c : Caller) : State κ σ ρ :=
  match st.holding c with
  | some s => { st with lock := none, shared := release s st.shared }
  | none => st

theorem inv_drop {I : Option σ → ρ → Prop} {release : σ → ρ → ρ} {st : State κ σ ρ} {c : Caller}
    (hrelease : ∀ s, st.holding c = some s → I (some s) st.shared → I none (release s st.shared))
    (h : I st.stage st.shared) : I (drop release st c).stage (drop release st c).shared := by
  unfold drop
  split
  next s hs =>
    rw [State.stage, State.holding_eq_some_iff.mp hs] at h
    exact hrelease s hs h
  next => exact h

end Monitor

end ProxyPanel.Run
