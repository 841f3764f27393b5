import ProxyPanel.Lib.Run

/-!
# Calls that take turns

Several calls work on one store.  Each is in a phase, and `advance` makes its next statement:
it says what the phase and the store become, or `none` when the call has answered.  A run of
`step` is an interleaving of the calls, statement by statement.  An invariant is about the
store and every call; `forall_calls_step` keeps it when the statement keeps it for the calls
that wait and the one that moves.
-/

namespace ProxyPanel.Interleave

variable {σ κ φ : Type} {advance : σ → κ → φ → Option (φ × σ)}

/-- The store, and the calls with their phases. -/
structure State (σ κ φ : Type) where
  store : σ
  calls : List (κ × φ)

/-- The next statement of one of the calls. -/
def step (advance : σ → κ → φ → Option (φ × σ)) (s : State σ κ φ) (i : Nat) :
    Option (State σ κ φ) :=
  match s.calls[i]? with
  | none => none
  | some (call, phase) => (advance s.store call phase).map fun next =>
    ⟨next.2, s.calls.set i (call, next.1)⟩

/-- The calls, none of them started. -/
def start (waiting : φ) (store : σ) (calls : List κ) : State σ κ φ :=
  ⟨store, calls.map fun call => (call, waiting)⟩

/-- A step is a statement of one of the calls. -/
theorem step_cases {s s' : State σ κ φ} {i : Nat} (h : step advance s i = some s') :
    ∃ call phase phase' store', s.calls[i]? = some (call, phase) ∧
      advance s.store call phase = some (phase', store') ∧
      s' = ⟨store', s.calls.set i (call, phase')⟩ := by
  rw [step] at h
  split at h
  · cases h
  · rename_i call phase hcall
    obtain ⟨next, hnext, rfl⟩ := Option.map_eq_some_iff.mp h
    exact ⟨call, phase, next.1, next.2, hcall, hnext, rfl⟩

section Calls

variable {calls : List (κ × φ)} {i : Nat} {call : κ} {phase phase' : φ} {c : κ × φ}

/-- A call that waits is the one that moves or stays as it is. -/
theorem eq_or_mem_set (hi : calls[i]? = some (call, phase)) (hc : c ∈ calls) :
    c = (call, phase) ∨ c ∈ calls.set i (call, phase') := by
  obtain ⟨j, hj⟩ := List.mem_iff_getElem?.mp hc
  by_cases hij : i = j
  · subst hij
    exact Or.inl (Option.some.inj (hj.symm.trans hi))
  · exact Or.inr (List.mem_iff_getElem?.mpr ⟨j, by rw [List.getElem?_set_ne hij, hj]⟩)

theorem mem_set_self (hi : calls[i]? = some (call, phase)) :
    (call, phase') ∈ calls.set i (call, phase') :=
  List.mem_set (List.getElem?_eq_some_iff.mp hi).1 _

/-- What a statement keeps of every call and gives to the one that moves. -/
theorem forall_mem_set {P Q : κ × φ → Prop} (h : ∀ c ∈ calls, P c) (hkeep : ∀ c ∈ calls, P c → Q c)
    (hmove : Q (call, phase')) : ∀ c ∈ calls.set i (call, phase'), Q c := by
  intro c hc
  rcases List.mem_or_eq_of_mem_set hc with hc | rfl
  · exact hkeep c hc (h c hc)
  · exact hmove

/-- A call that is in a certain phase stays in it unless it is the one that moves. -/
theorem exists_mem_set {P : κ × φ → Prop} (hi : calls[i]? = some (call, phase))
    (h : ∃ c ∈ calls, P c) (hmove : P (call, phase) → P (call, phase')) :
    ∃ c ∈ calls.set i (call, phase'), P c := by
  obtain ⟨c, hc, hP⟩ := h
  rcases (eq_or_mem_set hi hc : c = (call, phase) ∨ c ∈ calls.set i (call, phase')) with rfl | hc
  · exact ⟨_, mem_set_self hi, hmove hP⟩
  · exact ⟨c, hc, hP⟩

end Calls

end ProxyPanel.Interleave
