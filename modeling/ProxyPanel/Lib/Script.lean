import Mathlib.Tactic.Common

/-!
# Programs with a statement that fails

`Script σ ε α` is a program that changes a store statement by statement, without a
transaction.  `run` takes the number of statements that succeed before one of them fails; a
statement that fails leaves the store as it is, and what the program does then is part of it
(`lost`).  `Restores start` says that the program, wherever it is cut short, answers an error
only with the store `start`: a program that `Restores` the store it begins with is atomic.
Each kind of statement has one rule for it.
-/

namespace ProxyPanel

/-- A program over a store of type `σ` that ends with a value or an error. -/
inductive Script (σ ε α : Type) where
  | protected pure (a : α)
  | throw (e : ε)
  /-- The store becomes `write`, and the program goes on with what it reads from the store
  before; or the statement fails and the program goes on with `lost`. -/
  | statement (write : σ → σ) (next : σ → Script σ ε α) (lost : Script σ ε α)

namespace Script

variable {σ ε α β γ : Type}

def bind : Script σ ε α → (α → Script σ ε β) → Script σ ε β
  | .pure a, f => f a
  | .throw e, _ => .throw e
  | .statement write next lost, f => .statement write (fun s => (next s).bind f) (lost.bind f)

instance : Monad (Script σ ε) where
  pure := .pure
  bind := .bind

instance : LawfulMonad (Script σ ε) := LawfulMonad.mk' _
  (fun m => by
    change m.bind .pure = m
    induction m with
    | pure a => rfl
    | throw e => rfl
    | statement write next lost ihnext ihlost =>
      rw [bind, ihlost]
      exact congrArg (statement write · lost) (funext ihnext))
  (fun _ _ => rfl)
  (fun m f g => by
    change (m.bind f).bind g = m.bind fun a => (f a).bind g
    induction m with
    | pure a => rfl
    | throw e => rfl
    | statement write next lost ihnext ihlost =>
      rw [bind, bind, bind, ihlost]
      exact congrArg (statement write · _) (funext ihnext))

/-- A statement that answers from the store before it; `lost` is the error when it fails. -/
def change (lost : ε) (f : σ → σ) (answer : σ → α) : Script σ ε α :=
  .statement f (fun s => .pure (answer s)) (.throw lost)

/-- A query. -/
def query (lost : ε) (answer : σ → α) : Script σ ε α := change lost id answer

/-- A write that the store cannot refuse. -/
def write (lost : ε) (f : σ → σ) : Script σ ε Unit := change lost f fun _ => ()

/-- A write that the store refuses where `f` has no value. -/
def tryWrite (lost : ε) (f : σ → Option σ) : Script σ ε Unit :=
  .statement (fun s => (f s).getD s) (fun s => if (f s).isSome then .pure () else .throw lost)
    (.throw lost)

/-- A result that needs no statement. -/
def lift : Except ε α → Script σ ε α
  | .ok a => .pure a
  | .error e => .throw e

/-- The error for a missing value. -/
def orThrow (e : ε) (o : Option α) : Script σ ε α := lift (o.elim (.error e) .ok)

/-- An error ends the program, and nobody looks at it. -/
def logged : Script σ ε α → Script σ ε Unit
  | .pure _ => .pure ()
  | .throw _ => .pure ()
  | .statement write next lost => .statement write (fun s => (next s).logged) lost.logged

/-- The same program for every item of a list. -/
def forEach (f : α → Script σ ε Unit) : List α → Script σ ε Unit
  | [] => .pure ()
  | a :: as => f a >>= fun _ => forEach f as

/-- The run in which the statement after `failure` others fails, or none does. -/
def run : Script σ ε α → Option Nat → σ → Except ε α × σ
  | .pure a, _, s => (.ok a, s)
  | .throw e, _, s => (.error e, s)
  | .statement _ _ lost, some 0, s => lost.run none s
  | .statement write next _, some (n + 1), s => (next s).run (some n) (write s)
  | .statement write next _, none, s => (next s).run none (write s)

/-! ### Runs without a failure -/

@[simp] theorem run_pure (a : α) (failure : Option Nat) (s : σ) :
    (Pure.pure a : Script σ ε α).run failure s = (.ok a, s) := rfl

@[simp] theorem run_throw (e : ε) (failure : Option Nat) (s : σ) :
    (throw e : Script σ ε α).run failure s = (.error e, s) := rfl

theorem run_none_bind (m : Script σ ε α) (g : α → Script σ ε β) (s : σ) :
    (m >>= g).run none s = match m.run none s with
      | (.ok a, s') => (g a).run none s'
      | (.error e, s') => (.error e, s') := by
  change (m.bind g).run none s = _
  induction m generalizing s with
  | pure a => rfl
  | throw e => rfl
  | statement write next lost ihnext _ => exact ihnext s (write s)

theorem run_none_change_bind (lost : ε) (f : σ → σ) (answer : σ → α) (g : α → Script σ ε β)
    (s : σ) : (change lost f answer >>= g).run none s = (g (answer s)).run none (f s) := rfl

theorem run_none_query_bind (lost : ε) (answer : σ → α) (g : α → Script σ ε β) (s : σ) :
    (query lost answer >>= g).run none s = (g (answer s)).run none s := rfl

theorem run_none_write_bind (lost : ε) (f : σ → σ) (g : Unit → Script σ ε β) (s : σ) :
    (write lost f >>= g).run none s = (g ()).run none (f s) := rfl

theorem run_none_tryWrite (lost : ε) (f : σ → Option σ) (s : σ) :
    (tryWrite lost f).run none s = (f s).elim (.error lost, s) fun s' => (.ok (), s') := by
  cases h : f s with
  | some s' =>
    simp only [tryWrite, run, h, Option.getD_some, Option.isSome_some, if_true, Option.elim_some]
  | none =>
    simp only [tryWrite, run, h, Option.getD_none, Option.isSome_none, Bool.false_eq_true, if_false,
      Option.elim_none]

theorem run_none_tryWrite_bind_of_some {lost : ε} {f : σ → Option σ} {s s' : σ} (h : f s = some s')
    (g : Unit → Script σ ε β) : (tryWrite lost f >>= g).run none s = (g ()).run none s' := by
  rw [run_none_bind, run_none_tryWrite, h]
  rfl

theorem run_none_tryWrite_bind_of_none {lost : ε} {f : σ → Option σ} {s : σ} (h : f s = none)
    (g : Unit → Script σ ε β) : (tryWrite lost f >>= g).run none s = (.error lost, s) := by
  rw [run_none_bind, run_none_tryWrite, h]
  rfl

theorem lift_ok_bind (a : α) (g : α → Script σ ε β) : lift (.ok a) >>= g = g a := rfl

theorem lift_error_bind (e : ε) (g : α → Script σ ε β) : lift (.error e) >>= g = throw e := rfl

theorem run_none_logged (m : Script σ ε α) (s : σ) :
    m.logged.run none s = (.ok (), (m.run none s).2) := by
  induction m generalizing s with
  | pure a => rfl
  | throw e => rfl
  | statement write next lost ihnext _ => exact ihnext s (write s)

/-! ### What an error leaves -/

/-- Every error, with at most one statement that fails, leaves the store `start`. -/
def Restores (m : Script σ ε α) (start s : σ) : Prop :=
  ∀ failure e, (m.run failure s).1 = .error e → (m.run failure s).2 = start

/-- **Every error leaves the store as it was.** -/
def Atomic (m : Script σ ε α) (s : σ) : Prop := m.Restores s s

/-- What is left to run after a statement has failed. -/
def RestoresAlone (m : Script σ ε α) (start s : σ) : Prop :=
  ∀ e, (m.run none s).1 = .error e → (m.run none s).2 = start

variable {start s : σ}

theorem restores_pure (a : α) : (Pure.pure a : Script σ ε α).Restores start s :=
  fun _ _ h => nomatch h

theorem restores_throw_iff {e : ε} : (throw e : Script σ ε α).Restores start s ↔ s = start :=
  ⟨fun h => h none e rfl, fun h _ _ _ => h⟩

theorem restores_statement_iff {w : σ → σ} {next : σ → Script σ ε α} {lost : Script σ ε α} :
    (statement w next lost).Restores start s ↔
      lost.RestoresAlone start s ∧ (next s).Restores start (w s) := by
  constructor
  · intro h
    refine ⟨h (some 0), fun failure => ?_⟩
    cases failure with
    | none => exact h none
    | some n => exact h (some (n + 1))
  · rintro ⟨hlost, hnext⟩ failure
    cases failure with
    | none => exact hnext none
    | some n =>
      cases n with
      | zero => exact hlost
      | succ n => exact hnext (some n)

theorem restoresAlone_throw_iff {e : ε} :
    (throw e : Script σ ε α).RestoresAlone start s ↔ s = start :=
  ⟨fun h => h e rfl, fun h _ _ => h⟩

/-- A statement whose failure is an error can come only while the store is as it was. -/
theorem restores_change_bind_iff {lost : ε} {f : σ → σ} {answer : σ → α}
    {g : α → Script σ ε β} : (change lost f answer >>= g).Restores start s ↔
      s = start ∧ (g (answer s)).Restores start (f s) :=
  restores_statement_iff.trans (and_congr_left' restoresAlone_throw_iff)

theorem restores_query_bind_iff {lost : ε} {answer : σ → α} {g : α → Script σ ε β} :
    (query lost answer >>= g).Restores start s ↔ s = start ∧ (g (answer s)).Restores start s :=
  restores_change_bind_iff

theorem restores_write_bind_iff {lost : ε} {f : σ → σ} {g : Unit → Script σ ε β} :
    (write lost f >>= g).Restores start s ↔ s = start ∧ (g ()).Restores start (f s) :=
  restores_change_bind_iff

theorem restores_tryWrite_bind_iff {lost : ε} {f : σ → Option σ} {g : Unit → Script σ ε β} :
    (tryWrite lost f >>= g).Restores start s ↔
      s = start ∧ ∀ s', f s = some s' → (g ()).Restores start s' := by
  refine restores_statement_iff.trans ?_
  refine (and_congr_left' restoresAlone_throw_iff).trans (and_congr_right fun hs => ?_)
  change ((if (f s).isSome = true then Script.pure () else Script.throw lost).bind g).Restores start
    ((f s).getD s) ↔ _
  cases f s with
  | none => exact iff_of_true (restores_throw_iff.mpr hs) (fun _ h => nomatch h)
  | some s' =>
    simp only [Option.some.injEq, forall_eq']
    exact Iff.rfl

/-- As long as nothing is written, only the way on counts. -/
theorem restores_self_query_bind_iff {lost : ε} {answer : σ → α} {g : α → Script σ ε β} :
    (query lost answer >>= g).Restores s s ↔ (g (answer s)).Restores s s :=
  restores_query_bind_iff.trans (and_iff_right rfl)

theorem restores_self_write_bind_iff {lost : ε} {f : σ → σ} {g : Unit → Script σ ε β} :
    (write lost f >>= g).Restores s s ↔ (g ()).Restores s (f s) :=
  restores_write_bind_iff.trans (and_iff_right rfl)

theorem restores_self_tryWrite_bind_iff {lost : ε} {f : σ → Option σ} {g : Unit → Script σ ε β} :
    (tryWrite lost f >>= g).Restores s s ↔ ∀ s', f s = some s' → (g ()).Restores s s' :=
  restores_tryWrite_bind_iff.trans (and_iff_right rfl)

theorem restores_self_lift_bind_iff {r : Except ε α} {g : α → Script σ ε β} :
    (lift r >>= g).Restores s s ↔ ∀ a, r = .ok a → (g a).Restores s s := by
  cases r with
  | ok a =>
    simp only [Except.ok.injEq, forall_eq']
    exact Iff.rfl
  | error e => exact iff_of_true (restores_throw_iff.mpr rfl) (fun _ h => nomatch h)

/-- A check refuses the request or lets it go on. -/
theorem restores_self_check_bind_iff {p : Prop} [Decidable p] {e : ε} {g : Unit → Script σ ε β} :
    (lift (if p then .error e else .ok ()) >>= g).Restores s s ↔ (¬ p → (g ()).Restores s s) := by
  rw [restores_self_lift_bind_iff]
  by_cases hp : p
  · simp [hp]
  · simp only [hp, if_false, not_false_eq_true, forall_const]
    exact ⟨fun h => h (), fun h _ => h⟩

theorem restores_self_orThrow_bind_iff {e : ε} {o : Option α} {g : α → Script σ ε β} :
    (orThrow e o >>= g).Restores s s ↔ ∀ a, o = some a → (g a).Restores s s := by
  rw [orThrow, restores_self_lift_bind_iff]
  cases o with
  | none => exact iff_of_true (fun _ h => nomatch h) (fun _ h => nomatch h)
  | some a =>
    simp only [Option.elim_some, Except.ok.injEq, Option.some.injEq]

/-- A statement whose failure is only logged. -/
theorem restores_logged_write_bind_iff {lost : ε} {f : σ → σ} {g : Unit → Script σ ε β} :
    ((write lost f).logged >>= g).Restores start s ↔
      (g ()).RestoresAlone start s ∧ (g ()).Restores start (f s) := restores_statement_iff

/-- A program whose errors are all logged answers none. -/
theorem run_logged (m : Script σ ε α) (failure : Option Nat) (s : σ) :
    (m.logged.run failure s).1 = .ok () := by
  induction m generalizing failure s with
  | pure a => rfl
  | throw e => rfl
  | statement write next lost ihnext ihlost =>
    cases failure with
    | none => exact ihnext s none (write s)
    | some n =>
      cases n with
      | zero => exact ihlost none s
      | succ n => exact ihnext s (some n) (write s)

/-- A program that never answers an error. -/
def Answers (m : Script σ ε α) : Prop := ∀ failure s, ∃ a, (m.run failure s).1 = .ok a

theorem answers_logged (m : Script σ ε α) : m.logged.Answers :=
  fun failure s => ⟨(), run_logged m failure s⟩

theorem answers_logged_bind (m : Script σ ε α) {g : Unit → Script σ ε β} (hg : (g ()).Answers) :
    (m.logged >>= g).Answers := by
  intro failure s
  induction m generalizing failure s with
  | pure a => exact hg failure s
  | throw e => exact hg failure s
  | statement write next lost ihnext ihlost =>
    cases failure with
    | none => exact ihnext s none (write s)
    | some n =>
      cases n with
      | zero => exact ihlost none s
      | succ n => exact ihnext s (some n) (write s)

theorem restores_of_answers {m : Script σ ε α} (h : m.Answers) : m.Restores start s := by
  intro failure e he
  obtain ⟨a, ha⟩ := h failure s
  rw [ha] at he
  cases he

end Script

end ProxyPanel
