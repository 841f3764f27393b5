import Mathlib.Tactic.Common

/-!
# Programs made of single statements

A handler that reads a shared store is not one step: between two of its
statements anything may change.  `Query δ ε α` is such a program, a tree with
one `ask` for each statement.  `exec` runs it against a store nobody else
touches; a concurrent run peels one `ask` at a time (`Query.ask`), and
`exec_bind` with its companions turns `exec` of a program into ordinary code.
-/

namespace ProxyPanel

/-- A program that asks a store of type `δ` and ends with a value or an error. -/
inductive Query (δ ε α : Type) where
  | protected pure (a : α)
  | throw (e : ε)
  | ask (k : δ → Query δ ε α)

namespace Query

variable {δ ε α β γ : Type}

def bind : Query δ ε α → (α → Query δ ε β) → Query δ ε β
  | .pure a, f => f a
  | .throw e, _ => .throw e
  | .ask k, f => .ask fun d => (k d).bind f

instance : Monad (Query δ ε) where
  pure := .pure
  bind := .bind

instance : LawfulMonad (Query δ ε) := LawfulMonad.mk' _
  (fun m => by
    change m.bind .pure = m
    induction m with
    | pure a => rfl
    | throw e => rfl
    | ask k ih => exact congrArg ask (funext ih))
  (fun _ _ => rfl)
  (fun m f g => by
    change (m.bind f).bind g = m.bind fun a => (f a).bind g
    induction m with
    | pure a => rfl
    | throw e => rfl
    | ask k ih => exact congrArg ask (funext ih))

/-- One statement. -/
def read (f : δ → α) : Query δ ε α := .ask fun d => .pure (f d)

/-- The error for a missing value. -/
def orThrow (e : ε) : Option α → Query δ ε α
  | some a => .pure a
  | none => .throw e

/-- A result that needs no statement. -/
def lift : Except ε α → Query δ ε α
  | .ok a => .pure a
  | .error e => .throw e

/-- Every statement run against one store. -/
def exec : Query δ ε α → δ → Except ε α
  | .pure a, _ => .ok a
  | .throw e, _ => .error e
  | .ask k, d => (k d).exec d

@[simp] theorem exec_pure (a : α) (d : δ) : (Pure.pure a : Query δ ε α).exec d = .ok a := rfl
@[simp] theorem exec_pure' (a : α) (d : δ) : (Query.pure a : Query δ ε α).exec d = .ok a := rfl
@[simp] theorem exec_throw (e : ε) (d : δ) : (throw e : Query δ ε α).exec d = .error e := rfl
@[simp] theorem exec_read (f : δ → α) (d : δ) : (read f : Query δ ε α).exec d = .ok (f d) := rfl
@[simp] theorem exec_lift (r : Except ε α) (d : δ) : (lift r : Query δ ε α).exec d = r := by
  cases r <;> rfl

@[simp] theorem exec_bind (m : Query δ ε α) (f : α → Query δ ε β) (d : δ) :
    (m >>= f).exec d = m.exec d >>= fun a => (f a).exec d := by
  show (m.bind f).exec d = _
  induction m with
  | pure a => rfl
  | throw e => rfl
  | ask k ih => exact ih d

theorem exec_bind_of_ok {m : Query δ ε α} {a : α} {d : δ} (h : m.exec d = .ok a)
    (f : α → Query δ ε β) : (m >>= f).exec d = (f a).exec d := by
  rw [exec_bind, h]
  rfl

@[simp] theorem exec_read_bind (f : δ → α) (g : α → Query δ ε β) (d : δ) :
    (read f >>= g).exec d = (g (f d)).exec d := rfl

/-- A program that never ends with an error. -/
def Succeeds (m : Query δ ε α) : Prop := ∀ d, ∃ a, m.exec d = .ok a

theorem succeeds_pure (a : α) : Succeeds (Pure.pure a : Query δ ε α) := fun _ => ⟨a, rfl⟩

theorem succeeds_read_bind {f : δ → α} {g : α → Query δ ε β} (h : ∀ a, Succeeds (g a)) :
    Succeeds (read f >>= g) := fun d => h (f d) d

theorem succeeds_bind {m : Query δ ε α} {g : α → Query δ ε β} (hm : Succeeds m)
    (h : ∀ a, Succeeds (g a)) : Succeeds (m >>= g) := by
  intro d
  obtain ⟨a, ha⟩ := hm d
  obtain ⟨b, hb⟩ := h a d
  exact ⟨b, by rw [exec_bind, ha]; exact hb⟩

/-- `for a in as` with `continue`: the values that are produced, in order. -/
def collect (f : α → Query δ ε (Option β)) : List α → Query δ ε (List β)
  | [] => .pure []
  | a :: as => do
    match ← f a with
    | none => collect f as
    | some b => return b :: (← collect f as)

/-- `for a in as` with an accumulator. -/
def loop (f : β → α → Query δ ε β) : β → List α → Query δ ε β
  | b, [] => .pure b
  | b, a :: as => do loop f (← f b a) as

theorem exec_collect_congr {f g : α → Query δ ε (Option β)} {d d' : δ} {as : List α}
    (h : ∀ a ∈ as, (f a).exec d = (g a).exec d') :
    (collect f as).exec d = (collect g as).exec d' := by
  induction as with
  | nil => rfl
  | cons a as ih =>
    have hrest := ih (fun x hx => h x (List.mem_cons_of_mem a hx))
    rw [collect, collect, exec_bind, exec_bind, h a List.mem_cons_self]
    refine congrArg _ (funext fun o => ?_)
    cases o with
    | none => exact hrest
    | some b => rw [exec_bind, exec_bind, hrest]; rfl

theorem exec_loop_congr {f g : β → α → Query δ ε β} {d d' : δ} {as : List α}
    (h : ∀ a ∈ as, ∀ b, (f b a).exec d = (g b a).exec d') (b : β) :
    (loop f b as).exec d = (loop g b as).exec d' := by
  induction as generalizing b with
  | nil => rfl
  | cons a as ih =>
    rw [loop, loop, exec_bind, exec_bind, h a List.mem_cons_self]
    exact congrArg _ (funext fun c => ih (fun x hx => h x (List.mem_cons_of_mem a hx)) c)

/-- A `collect` that succeeds produced exactly the values its bodies produced. -/
theorem exec_collect_ok {f : α → Query δ ε (Option β)} {d : δ} {as : List α} {bs : List β}
    (h : (collect f as).exec d = .ok bs) :
    ∃ os : List (Option β), List.Forall₂ (fun a o => (f a).exec d = .ok o) as os ∧
      bs = os.filterMap id := by
  induction as generalizing bs with
  | nil => cases h; exact ⟨[], .nil, rfl⟩
  | cons a as ih =>
    rw [collect, exec_bind] at h
    cases ho : (f a).exec d with
    | error e => rw [ho] at h; cases h
    | ok o =>
      rw [ho] at h
      cases o with
      | none =>
        obtain ⟨os, hos, rfl⟩ := ih h
        exact ⟨none :: os, .cons ho hos, rfl⟩
      | some b =>
        change (collect f as >>= fun bs => Pure.pure (b :: bs)).exec d = .ok bs at h
        rw [exec_bind] at h
        cases hr : (collect f as).exec d with
        | error e => rw [hr] at h; cases h
        | ok cs =>
          rw [hr] at h
          cases h
          obtain ⟨os, hos, rfl⟩ := ih hr
          exact ⟨some b :: os, .cons ho hos, rfl⟩

/-- What `collect` meets: every element succeeds, and what it gives is collected. -/
theorem exec_collect_mem {f : α → Query δ ε (Option β)} {d : δ} {as : List α} {bs : List β}
    (h : (collect f as).exec d = .ok bs) {a : α} (ha : a ∈ as) :
    ∃ o, (f a).exec d = .ok o ∧ ∀ b, o = some b → b ∈ bs := by
  obtain ⟨os, hos, rfl⟩ := exec_collect_ok h
  clear h
  induction hos with
  | nil => cases ha
  | @cons a' o as os ho _ ih =>
    rcases List.mem_cons.mp ha with rfl | ha
    · refine ⟨o, ho, ?_⟩
      rintro b rfl
      exact List.mem_cons_self
    · obtain ⟨o', ho', hmem⟩ := ih ha
      refine ⟨o', ho', fun b hb => ?_⟩
      cases o with
      | none => exact hmem b hb
      | some b' => exact List.mem_cons_of_mem b' (hmem b hb)

/-- What `collect` gives was produced by one of its bodies. -/
theorem exists_of_mem_collect {f : α → Query δ ε (Option β)} {d : δ} {as : List α} {bs : List β}
    (h : (collect f as).exec d = .ok bs) {b : β} (hb : b ∈ bs) :
    ∃ a ∈ as, (f a).exec d = .ok (some b) := by
  obtain ⟨os, hos, rfl⟩ := exec_collect_ok h
  clear h
  induction hos with
  | nil => cases hb
  | @cons a o as os ho _ ih =>
    rcases List.mem_filterMap.mp hb with ⟨o', ho', heq⟩
    rcases List.mem_cons.mp ho' with rfl | ho'
    · exact ⟨a, List.mem_cons_self, by rw [ho]; exact congrArg Except.ok heq⟩
    · obtain ⟨a', ha', hexec⟩ := ih (List.mem_filterMap.mpr ⟨o', ho', heq⟩)
      exact ⟨a', List.mem_cons_of_mem a ha', hexec⟩

theorem exec_collect_some {f : α → Query δ ε (Option β)} {g : α → Option β} {d : δ}
    {as : List α} (h : ∀ a ∈ as, (f a).exec d = .ok (g a)) :
    (collect f as).exec d = .ok (as.filterMap g) := by
  induction as with
  | nil => rfl
  | cons a as ih =>
    have hrest := ih (fun x hx => h x (List.mem_cons_of_mem a hx))
    rw [collect, exec_bind, h a List.mem_cons_self, List.filterMap_cons]
    cases g a with
    | none => exact hrest
    | some b =>
      change (collect f as >>= fun bs => Pure.pure (b :: bs)).exec d = _
      rw [exec_bind, hrest]
      rfl

/-- Elements that are skipped may be left out. -/
theorem exec_collect_filter {f : α → Query δ ε (Option β)} {p : α → Bool} {d : δ} {as : List α}
    (h : ∀ a ∈ as, p a = false → (f a).exec d = .ok none) :
    (collect f as).exec d = (collect f (as.filter p)).exec d := by
  induction as with
  | nil => rfl
  | cons a as ih =>
    have hrest := ih fun x hx => h x (List.mem_cons_of_mem a hx)
    rw [collect, exec_bind, List.filter_cons]
    by_cases hp : p a = true
    · rw [if_pos hp, collect, exec_bind]
      refine congrArg _ (funext fun o => ?_)
      cases o with
      | none => exact hrest
      | some b => rw [exec_bind, exec_bind, hrest]
    · rw [if_neg hp, h a List.mem_cons_self (Bool.eq_false_iff.mpr hp)]
      exact hrest

/-- A `collect` succeeds when every body does. -/
theorem exists_exec_collect {f : α → Query δ ε (Option β)} {d : δ} {as : List α} :
    (∃ bs, (collect f as).exec d = .ok bs) ↔ ∀ a ∈ as, ∃ o, (f a).exec d = .ok o := by
  constructor
  · rintro ⟨bs, h⟩ a ha
    obtain ⟨o, ho, -⟩ := exec_collect_mem h ha
    exact ⟨o, ho⟩
  · intro h
    have hchoose : ∀ a ∈ as, (f a).exec d = .ok (((f a).exec d).toOption.join) := by
      intro a ha
      obtain ⟨o, ho⟩ := h a ha
      rw [ho]
      rfl
    exact ⟨_, exec_collect_some hchoose⟩

/-- A `loop` succeeds when every body does, where that does not depend on the accumulator. -/
theorem exists_exec_loop {f : β → α → Query δ ε β} {d : δ} {P : α → Prop} {as : List α}
    (h : ∀ a ∈ as, ∀ b, (∃ b', (f b a).exec d = .ok b') ↔ P a) (b : β) :
    (∃ b', (loop f b as).exec d = .ok b') ↔ ∀ a ∈ as, P a := by
  induction as generalizing b with
  | nil => exact iff_of_true ⟨b, rfl⟩ fun a ha => absurd ha List.not_mem_nil
  | cons a as ih =>
    rw [List.forall_mem_cons, ← h a List.mem_cons_self b]
    constructor
    · rintro ⟨b', hloop⟩
      rw [loop, exec_bind] at hloop
      cases hf : (f b a).exec d with
      | error e => rw [hf] at hloop; cases hloop
      | ok c =>
        rw [hf] at hloop
        exact ⟨⟨c, rfl⟩, (ih (fun x hx => h x (List.mem_cons_of_mem a hx)) c).mp ⟨b', hloop⟩⟩
    · rintro ⟨⟨c, hc⟩, hrest⟩
      obtain ⟨b', hb'⟩ := (ih (fun x hx => h x (List.mem_cons_of_mem a hx)) c).mpr hrest
      exact ⟨b', by rw [loop, exec_bind, hc]; exact hb'⟩

/-- Elements that leave the accumulator as it is may be left out. -/
theorem exec_loop_filter {f : β → α → Query δ ε β} {p : α → Bool} {d : δ} {as : List α}
    (h : ∀ a ∈ as, p a = false → ∀ b, (f b a).exec d = .ok b) (b : β) :
    (loop f b as).exec d = (loop f b (as.filter p)).exec d := by
  induction as generalizing b with
  | nil => rfl
  | cons a as ih =>
    have hrest := ih fun x hx => h x (List.mem_cons_of_mem a hx)
    rw [loop, exec_bind, List.filter_cons]
    by_cases hp : p a = true
    · rw [if_pos hp, loop, exec_bind]
      exact congrArg _ (funext hrest)
    · rw [if_neg hp, h a List.mem_cons_self (Bool.eq_false_iff.mpr hp)]
      exact hrest b

/-- What a `loop` body keeps, the loop keeps. -/
theorem exec_loop_inv {f : β → α → Query δ ε β} {d : δ} {P : β → Prop} {as : List α}
    (hstep : ∀ a ∈ as, ∀ b b', P b → (f b a).exec d = .ok b' → P b') {b b' : β} (hb : P b)
    (h : (loop f b as).exec d = .ok b') : P b' := by
  induction as generalizing b with
  | nil => cases h; exact hb
  | cons a as ih =>
    rw [loop, exec_bind] at h
    cases hf : (f b a).exec d with
    | error e => rw [hf] at h; cases h
    | ok c =>
      rw [hf] at h
      exact ih (fun x hx => hstep x (List.mem_cons_of_mem a hx))
        (hstep a List.mem_cons_self b c hb hf) h

/-! ### Statements between which the store changes

`exec` says nothing about a run in which the store changes between two statements.
`Returns` and `Respects` hold of what is left of a program after any of its
statements. -/

/-- Every value the program may return satisfies `P`, whatever its statements see. -/
def Returns (P : α → Prop) : Query δ ε α → Prop
  | .pure a => P a
  | .throw _ => True
  | .ask k => ∀ d, (k d).Returns P

/-- No statement tells stores apart that are related by `R`. -/
def Respects (R : δ → δ → Prop) : Query δ ε α → Prop
  | .pure _ => True
  | .throw _ => True
  | .ask k => (∀ d d', R d d' → k d = k d') ∧ ∀ d, (k d).Respects R

theorem Returns.bind {P : α → Prop} {Q : β → Prop} {m : Query δ ε α} (hm : m.Returns P)
    {f : α → Query δ ε β} (hf : ∀ a, P a → (f a).Returns Q) : (m >>= f).Returns Q := by
  change (m.bind f).Returns Q
  induction m with
  | pure a => exact hf a hm
  | throw e => trivial
  | ask k ih => exact fun d => ih d (hm d)

theorem returns_true (m : Query δ ε α) : m.Returns fun _ => True := by
  induction m with
  | pure a => trivial
  | throw e => trivial
  | ask k ih => exact ih

theorem returns_bind {P : β → Prop} (m : Query δ ε α) {f : α → Query δ ε β}
    (h : ∀ a, (f a).Returns P) : (m >>= f).Returns P :=
  (returns_true m).bind fun a _ => h a

variable {R : δ → δ → Prop}

theorem respects_bind {m : Query δ ε α} {f : α → Query δ ε β} (hm : m.Respects R)
    (hf : ∀ a, (f a).Respects R) : (m >>= f).Respects R := by
  change (m.bind f).Respects R
  induction m with
  | pure a => exact hf a
  | throw e => trivial
  | ask k ih =>
    exact ⟨fun d d' hd => congrArg (·.bind f) (hm.1 d d' hd), fun d => ih d (hm.2 d)⟩

theorem respects_pure (a : α) : (Pure.pure a : Query δ ε α).Respects R := trivial

theorem respects_throw (e : ε) : (throw e : Query δ ε α).Respects R := trivial

theorem respects_lift (r : Except ε α) : (lift r : Query δ ε α).Respects R := by
  cases r <;> trivial

theorem respects_read {f : δ → α} (h : ∀ d d', R d d' → f d = f d') :
    (read f : Query δ ε α).Respects R :=
  ⟨fun d d' hd => congrArg Query.pure (h d d' hd), fun _ => trivial⟩

theorem respects_read_bind {f : δ → α} {g : α → Query δ ε β} (h : ∀ d d', R d d' → f d = f d')
    (hg : ∀ a, (g a).Respects R) : (read f >>= g).Respects R :=
  respects_bind (respects_read h) hg

theorem respects_collect {f : α → Query δ ε (Option β)} (h : ∀ a, (f a).Respects R)
    (as : List α) : (collect f as).Respects R := by
  induction as with
  | nil => trivial
  | cons a as ih =>
    refine respects_bind (h a) (fun o => ?_)
    cases o with
    | none => exact ih
    | some b => exact respects_bind ih (fun _ => trivial)

theorem respects_loop {f : β → α → Query δ ε β} (h : ∀ b a, (f b a).Respects R) (as : List α)
    (b : β) : (loop f b as).Respects R := by
  induction as generalizing b with
  | nil => trivial
  | cons a as ih => exact respects_bind (h b a) ih

/-- A program that does not tell two stores apart ends the same way on both. -/
theorem Respects.exec_eq {m : Query δ ε α} (hm : m.Respects R) {d d' : δ} (h : R d d') :
    m.exec d = m.exec d' := by
  induction m with
  | pure a => rfl
  | throw e => rfl
  | ask k ih =>
    change (k d).exec d = (k d').exec d'
    rw [← hm.1 d d' h]
    exact ih d (hm.2 d)

theorem Respects.mono {R' : δ → δ → Prop} {m : Query δ ε α} (hm : m.Respects R)
    (h : ∀ d d', R' d d' → R d d') : m.Respects R' := by
  induction m with
  | pure a => trivial
  | throw e => trivial
  | ask k ih => exact ⟨fun d d' hd => hm.1 d d' (h d d' hd), fun d => ih d (hm.2 d)⟩

/-! ### Statements with several answers

A statement whose answer the store leaves open, such as a list of rows in no particular order,
is answered by any store that `P` allows; each statement by one of its own. -/

/-- The outcomes of a program whose statements are answered by stores that `P` allows. -/
def Yields (P : δ → Prop) : Query δ ε α → Except ε α → Prop
  | .pure a, r => r = .ok a
  | .throw e, r => r = .error e
  | .ask k, r => ∃ d, P d ∧ (k d).Yields P r

variable {P : δ → Prop}

theorem yields_exec (m : Query δ ε α) {d : δ} (hd : P d) : m.Yields P (m.exec d) := by
  induction m with
  | pure a => rfl
  | throw e => rfl
  | ask k ih => exact ⟨d, hd, ih d⟩

theorem yields_bind {m : Query δ ε α} {f : α → Query δ ε β} {r : Except ε β} :
    (m >>= f).Yields P r ↔ ∃ x, m.Yields P x ∧ match x with
      | .ok a => (f a).Yields P r
      | .error e => r = .error e := by
  change (m.bind f).Yields P r ↔ _
  induction m with
  | pure a =>
    constructor
    · exact fun h => ⟨.ok a, rfl, h⟩
    · rintro ⟨x, rfl, h⟩
      exact h
  | throw e =>
    constructor
    · exact fun h => ⟨.error e, rfl, h⟩
    · rintro ⟨x, rfl, h⟩
      exact h
  | ask k ih =>
    constructor
    · rintro ⟨d, hd, h⟩
      obtain ⟨x, hx, hr⟩ := (ih d).mp h
      exact ⟨x, ⟨d, hd, hx⟩, hr⟩
    · rintro ⟨x, ⟨d, hd, hx⟩, hr⟩
      exact ⟨d, hd, (ih d).mpr ⟨x, hx, hr⟩⟩

theorem yields_read_bind {f : δ → α} {g : α → Query δ ε β} {r : Except ε β} :
    (read f >>= g).Yields P r ↔ ∃ d, P d ∧ (g (f d)).Yields P r := Iff.rfl

theorem yields_lift {x r : Except ε α} : (lift x : Query δ ε α).Yields P r ↔ r = x := by
  cases x <;> exact Iff.rfl

/-- A program that does not tell the stores apart has one outcome. -/
theorem Respects.yields {m : Query δ ε α} (hm : m.Respects R) {d : δ} (hR : ∀ d', P d' → R d d')
    {r : Except ε α} (h : m.Yields P r) : r = m.exec d := by
  induction m with
  | pure a => exact h
  | throw e => exact h
  | ask k ih =>
    obtain ⟨d', hd', h⟩ := h
    rw [← hm.1 d d' (hR d' hd')] at h
    exact ih d (hm.2 d) h

/-- Every outcome is that of a run against one of the stores. -/
def Consistent (P : δ → Prop) (m : Query δ ε α) : Prop :=
  ∀ r, m.Yields P r → ∃ d, P d ∧ r = m.exec d

theorem Respects.consistent {m : Query δ ε α} (hm : m.Respects R)
    (hR : ∀ d d', P d → P d' → R d d') (hP : ∃ d, P d) : m.Consistent P := by
  intro r h
  obtain ⟨d, hd⟩ := hP
  exact ⟨d, hd, hm.yields (fun d' => hR d d' hd) h⟩

/-- What does not tell the stores apart may stand in front. -/
theorem consistent_bind_left {m : Query δ ε α} {f : α → Query δ ε β} (hm : m.Respects R)
    (hR : ∀ d d', P d → P d' → R d d') (hP : ∃ d, P d) (hf : ∀ a, (f a).Consistent P) :
    (m >>= f).Consistent P := by
  intro r h
  obtain ⟨x, hx, hr⟩ := yields_bind.mp h
  cases x with
  | error e =>
    obtain ⟨d, hd, hexec⟩ := hm.consistent hR hP _ hx
    exact ⟨d, hd, by rw [exec_bind, ← hexec]; exact hr⟩
  | ok a =>
    obtain ⟨d, hd, rfl⟩ := hf a r hr
    have hexec := hm.yields (fun d' => hR d d' hd) hx
    exact ⟨d, hd, (exec_bind_of_ok hexec.symm f).symm⟩

/-- What does not tell the stores apart may follow. -/
theorem consistent_bind_right {m : Query δ ε α} {f : α → Query δ ε β} (hm : m.Consistent P)
    (hR : ∀ d d', P d → P d' → R d d') (hf : ∀ a, (f a).Respects R) :
    (m >>= f).Consistent P := by
  intro r h
  obtain ⟨x, hx, hr⟩ := yields_bind.mp h
  obtain ⟨d, hd, rfl⟩ := hm x hx
  refine ⟨d, hd, ?_⟩
  rw [exec_bind]
  cases hexec : m.exec d with
  | error e =>
    rw [hexec] at hr
    exact hr
  | ok a =>
    rw [hexec] at hr
    exact (hf a).yields (fun d' => hR d d' hd) hr

/-- A successful `collect` has an outcome for each element, and collects them in order. -/
theorem yields_collect_ok {f : α → Query δ ε (Option β)} {as : List α} {bs : List β}
    (h : (collect f as).Yields P (.ok bs)) :
    ∃ os : List (Option β), List.Forall₂ (fun a o => (f a).Yields P (.ok o)) as os ∧
      bs = os.filterMap id := by
  induction as generalizing bs with
  | nil => cases h; exact ⟨[], .nil, rfl⟩
  | cons a as ih =>
    obtain ⟨x, hx, h⟩ := yields_bind.mp h
    cases x with
    | error e => cases h
    | ok o =>
      cases o with
      | none =>
        obtain ⟨os, hos, rfl⟩ := ih h
        exact ⟨none :: os, .cons hx hos, rfl⟩
      | some b =>
        obtain ⟨y, hy, h⟩ := yields_bind.mp h
        cases y with
        | error e => cases h
        | ok cs =>
          cases h
          obtain ⟨os, hos, rfl⟩ := ih hy
          exact ⟨some b :: os, .cons hx hos, rfl⟩

/-- A `collect` fails with one of its elements. -/
theorem yields_collect_error {f : α → Query δ ε (Option β)} {as : List α} {e : ε}
    (h : (collect f as).Yields P (.error e)) : ∃ a ∈ as, (f a).Yields P (.error e) := by
  induction as with
  | nil => cases h
  | cons a as ih =>
    have hrest (h : (collect f as).Yields P (.error e)) :
        ∃ a' ∈ a :: as, (f a').Yields P (.error e) := by
      obtain ⟨a', ha', hf⟩ := ih h
      exact ⟨a', List.mem_cons_of_mem a ha', hf⟩
    obtain ⟨x, hx, h⟩ := yields_bind.mp h
    cases x with
    | error e' =>
      cases h
      exact ⟨a, List.mem_cons_self, hx⟩
    | ok o =>
      cases o with
      | none => exact hrest h
      | some b =>
        obtain ⟨y, hy, h⟩ := yields_bind.mp h
        cases y with
        | error e' =>
          cases h
          exact hrest hy
        | ok cs => cases h

end Query

/-- A successful bind has a successful first part. -/
theorem Except.bind_eq_ok {ε α β : Type} {x : Except ε α} {f : α → Except ε β} {b : β}
    (h : x >>= f = .ok b) : ∃ a, x = .ok a ∧ f a = .ok b := by
  cases x with
  | error e => cases h
  | ok a => exact ⟨a, rfl, h⟩

end ProxyPanel
