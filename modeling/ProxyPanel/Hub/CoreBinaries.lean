import ProxyPanel.Agent.CoreBinaries
import ProxyPanel.Common.Protocol
import ProxyPanel.Lib.Run
import ProxyPanel.Lib.Uuid

/-!
# Requests for the core binaries of a node

An HTTP request leaves the sender of a one-shot channel in `binary_waiters` under its
node, sends a message to the agent and waits ten seconds; the next list that arrives
from the node goes to the sender that is there.  Nothing in the messages says which
request a list answers, so the model keeps that beside the list.  `matched_of_quiet`
says that requests and answers match as long as a request starts when its node is quiet.
-/

namespace ProxyPanel.Hub.CoreBinaries

open Run Agent

/-- A list with the request the agent answered by it. -/
structure Answer where
  request : Nat
  list : CoreBinaryList
  deriving DecidableEq

/-- Where an HTTP request stands: its waiter is in the map; its message is sent; an error
is found and the waiter has yet to go; it has returned. -/
inductive Phase where
  | registered
  | awaiting
  | failed (e : ApiError)
  | finished (result : ApiResult Answer)
  deriving DecidableEq

/-- A request, with the answer its waiter was taken for and the one it was handed. -/
structure Request where
  node : Uuid
  message : CoreBinaryRequest
  phase : Phase
  taken : Option Answer
  delivered : Option Answer
  deriving DecidableEq

/-- The requests in the order in which they start, the waiters of the nodes, the messages
on their way to and from each agent, and the lists whose waiter has been taken. -/
structure State where
  requests : List Request
  waiters : Uuid → Option Nat
  toAgent : Uuid → List Nat
  fromAgent : Uuid → List Answer
  inHand : List (Nat × Answer)
  dirs : Uuid → BinDir

inductive Action where
  | start (node : Uuid) (message : CoreBinaryRequest)
  /-- `send_to_agent`, with its error if the agent cannot be reached. -/
  | send (r : Nat) (e : Option String)
  /-- The agent of a node answers a message. -/
  | answer (node : Uuid) (i : Nat) (removal : Option String)
  /-- A message or an answer is lost with a connection. -/
  | loseMessage (node : Uuid) (i : Nat)
  | loseAnswer (node : Uuid) (i : Nat)
  /-- The directory of a node changes by itself. -/
  | changeDir (node : Uuid) (dir : BinDir)
  /-- The Hub takes the waiter for an answer that arrives. -/
  | receive (node : Uuid) (i : Nat)
  /-- The answer goes into the channel of the waiter. -/
  | handOver (i : Nat)
  | complete (r : Nat)
  /-- Ten seconds have passed, or the sender is gone. -/
  | timeout (r : Nat)
  | cleanup (r : Nat)

/-- A map with a new value for one node. -/
def set {α : Type} (f : Uuid → α) (n : Uuid) (a : α) : Uuid → α := fun m => if m = n then a else f m

/-- What an HTTP request returns for an answer. -/
def resultOf (message : CoreBinaryRequest) (a : Answer) : ApiResult Answer :=
  match message with
  | .list => .ok a
  | .delete _ => if a.list.error = "" then .ok a else .error (.badRequest "delete_failed" a.list.error)

def agentUnreachable (e : String) : ApiError := ⟨502, "agent_unreachable", e⟩

def agentTimeout : ApiError := ⟨504, "agent_timeout", "agent did not respond in time"⟩

def State.setRequest (s : State) (r : Nat) (f : Request → Request) : State :=
  { s with requests := s.requests.modify r f }

/-- A new request, its waiter in the place of any other of the node. -/
def State.started (s : State) (node : Uuid) (message : CoreBinaryRequest) : State :=
  { s with
    requests := s.requests ++ [⟨node, message, .registered, none, none⟩]
    waiters := set s.waiters node (some s.requests.length) }

/-- A request that still listens gets the answer. -/
def Request.hand (q : Request) (a : Answer) : Request :=
  match q.phase with
  | .registered | .awaiting => { q with delivered := some a }
  | .failed _ | .finished _ => q

def step (s : State) : Action → Option State
  | .start node message => some (s.started node message)
  | .send r e =>
    match s.requests[r]? with
    | some ⟨node, _, .registered, _, _⟩ =>
      match e with
      | none => some { s.setRequest r (fun q => { q with phase := .awaiting }) with
          toAgent := set s.toAgent node (s.toAgent node ++ [r]) }
      | some e => some (s.setRequest r fun q => { q with phase := .failed (agentUnreachable e) })
    | _ => none
  | .answer node i removal =>
    match (s.toAgent node)[i]?.bind fun r => (s.requests[r]?).map fun q => (r, q.message) with
    | some (r, message) =>
      let (list, dir) := answerCoreBinaries (s.dirs node) removal message
      some { s with
        toAgent := set s.toAgent node ((s.toAgent node).eraseIdx i)
        fromAgent := set s.fromAgent node (s.fromAgent node ++ [⟨r, list⟩])
        dirs := set s.dirs node dir }
    | none => none
  | .loseMessage node i => some { s with toAgent := set s.toAgent node ((s.toAgent node).eraseIdx i) }
  | .loseAnswer node i =>
    some { s with fromAgent := set s.fromAgent node ((s.fromAgent node).eraseIdx i) }
  | .changeDir node dir => some { s with dirs := set s.dirs node dir }
  | .receive node i =>
    match (s.fromAgent node)[i]? with
    | some a =>
      let rest := set s.fromAgent node ((s.fromAgent node).eraseIdx i)
      match s.waiters node with
      | none => some { s with fromAgent := rest }
      | some r => some { s.setRequest r (fun q => { q with taken := some a }) with
          waiters := set s.waiters node none
          fromAgent := rest
          inHand := s.inHand ++ [(r, a)] }
    | none => none
  | .handOver i =>
    match s.inHand[i]? with
    | some (r, a) => some { s.setRequest r (·.hand a) with inHand := s.inHand.eraseIdx i }
    | none => none
  | .complete r =>
    match s.requests[r]? with
    | some ⟨_, message, .awaiting, _, some a⟩ =>
      some (s.setRequest r fun q => { q with phase := .finished (resultOf message a) })
    | _ => none
  | .timeout r =>
    match s.requests[r]? with
    | some ⟨_, _, .awaiting, _, none⟩ =>
      some (s.setRequest r fun q => { q with phase := .failed agentTimeout })
    | _ => none
  | .cleanup r =>
    match s.requests[r]? with
    | some ⟨node, _, .failed e, _, _⟩ =>
      some { s.setRequest r (fun q => { q with phase := .finished (.error e) }) with
        waiters := set s.waiters node none }
    | _ => none

/-- No request has been made. -/
def initial (dirs : Uuid → BinDir) : State where
  requests := []
  waiters := fun _ => none
  toAgent := fun _ => []
  fromAgent := fun _ => []
  inHand := []
  dirs := dirs

/-! ### What is to hold -/

def Request.Finished (q : Request) : Prop :=
  match q.phase with
  | .finished _ => True
  | _ => False

/-- **Requests and answers match.** -/
structure Matched (s : State) : Prop where
  /-- A list that is returned is the answer to the request that returns it. -/
  own_answer : ∀ (r : Nat) (q : Request) (a : Answer), s.requests[r]? = some q →
    q.phase = .finished (.ok a) → a.request = r
  /-- A request is completed by its own answer only. -/
  own_completion : ∀ (r : Nat) (q : Request) (a : Answer), s.requests[r]? = some q →
    q.taken = some a → a.request = r
  /-- Until then nobody else takes its waiter away. -/
  own_waiter : ∀ (r : Nat) (q : Request), s.requests[r]? = some q → ¬ q.Finished →
    q.taken = none → s.waiters q.node = some r
  /-- Every waiter is that of a request that has not returned. -/
  no_waiter_left : ∀ n r, s.waiters n = some r → ∃ q, s.requests[r]? = some q ∧ ¬ q.Finished

/-- A request that no longer touches the map: it has returned, or only reads its channel. -/
def Request.Settled (q : Request) : Prop :=
  match q.phase with
  | .finished _ => True
  | .awaiting => q.delivered ≠ none
  | _ => False

instance (q : Request) : Decidable q.Settled := by
  unfold Request.Settled
  cases q.phase <;> infer_instance

/-- A node is quiet: no waiter, no request that may still clean up, and nothing on the way
to or from its agent. -/
def Quiet (s : State) (node : Uuid) : Prop :=
  s.waiters node = none ∧ (∀ q ∈ s.requests, q.node = node → q.Settled) ∧
    s.toAgent node = [] ∧ s.fromAgent node = []

/-- What an action must meet: a request starts when its node is quiet. -/
def StartsQuiet (s : State) : Action → Prop
  | .start node _ => Quiet s node
  | _ => True

instance (s : State) (node : Uuid) : Decidable (Quiet s node) :=
  inferInstanceAs (Decidable (_ ∧ _ ∧ _ ∧ _))

instance (s : State) : (a : Action) → Decidable (StartsQuiet s a)
  | .start node _ => inferInstanceAs (Decidable (Quiet s node))
  | .send .. | .answer .. | .loseMessage .. | .loseAnswer .. | .changeDir .. | .receive .. | .handOver _
  | .complete _ | .timeout _ | .cleanup _ => .isTrue trivial

/-! ### The invariant -/

/-- A message to the agent of a node, or an answer of it, that belongs to a request. -/
def InFlight (s : State) (n : Uuid) (r : Nat) : Prop :=
  r ∈ s.toAgent n ∨ ∃ a ∈ s.fromAgent n, a.request = r

structure Inv (s : State) : Prop where
  waiter : ∀ n r, s.waiters n = some r →
    ∃ q, s.requests[r]? = some q ∧ q.node = n ∧ ¬ q.Finished ∧ q.taken = none
  own_waiter : ∀ (r : Nat) (q : Request), s.requests[r]? = some q → ¬ q.Finished →
    q.taken = none → s.waiters q.node = some r
  /-- One request of a node at a time touches the map. -/
  single : ∀ (r r' : Nat) (q q' : Request), s.requests[r]? = some q → s.requests[r']? = some q' →
    q.node = q'.node → ¬ q.Settled → ¬ q'.Settled → r = r'
  in_flight : ∀ n r, InFlight s n r →
    r < s.requests.length ∧ ∀ r', s.waiters n = some r' → r' = r
  in_hand : ∀ p ∈ s.inHand, ∃ q, s.requests[p.1]? = some q ∧ q.taken = some p.2
  taken : ∀ (r : Nat) (q : Request) (a : Answer), s.requests[r]? = some q → q.taken = some a →
    a.request = r
  delivered : ∀ (r : Nat) (q : Request) (a : Answer), s.requests[r]? = some q →
    q.delivered = some a → q.taken = some a
  returned : ∀ (r : Nat) (q : Request) (a : Answer), s.requests[r]? = some q →
    q.phase = .finished (.ok a) → q.taken = some a

theorem inv_initial (dirs : Uuid → BinDir) : Inv (initial dirs) where
  waiter := fun _ _ h => nomatch h
  own_waiter := fun _ _ h => nomatch h
  single := fun _ _ _ _ h => nomatch h
  in_flight := by
    rintro n r (h | ⟨a, h, -⟩)
    · cases h
    · cases h
  in_hand := fun _ h => nomatch h
  taken := fun _ _ _ h => nomatch h
  delivered := fun _ _ _ h => nomatch h
  returned := fun _ _ _ h => nomatch h

theorem matched_of_inv {s : State} (h : Inv s) : Matched s where
  own_answer := fun r q a hq hphase => h.taken r q a hq (h.returned r q a hq hphase)
  own_completion := h.taken
  own_waiter := h.own_waiter
  no_waiter_left := fun n r hr => by
    obtain ⟨q, hq, -, hfinished, -⟩ := h.waiter n r hr
    exact ⟨q, hq, hfinished⟩

section Steps

variable {s : State}

/-- A request without an answer is not settled. -/
theorem Inv.not_settled (h : Inv s) {r : Nat} {q : Request} (hq : s.requests[r]? = some q)
    (hfinished : ¬ q.Finished) (htaken : q.taken = none) : ¬ q.Settled := by
  unfold Request.Settled
  unfold Request.Finished at hfinished
  cases hphase : q.phase with
  | finished result => rw [hphase] at hfinished; exact fun _ => hfinished trivial
  | awaiting =>
    intro hdelivered
    obtain ⟨a, ha⟩ := Option.ne_none_iff_exists'.mp hdelivered
    rw [h.delivered r q a hq ha] at htaken
    cases htaken
  | registered => exact id
  | failed e => exact id

theorem getElem?_setRequest_self {r : Nat} {q : Request} {f : Request → Request}
    (hq : s.requests[r]? = some q) : (s.setRequest r f).requests[r]? = some (f q) := by
  rw [State.setRequest, List.getElem?_modify_eq, hq]
  rfl

theorem getElem?_setRequest_of_ne {r r' : Nat} {f : Request → Request} (hr : r' ≠ r) :
    (s.setRequest r f).requests[r']? = s.requests[r']? :=
  List.getElem?_modify_ne f _ (Ne.symm hr)

/-- What a request is after one request has changed. -/
theorem getElem?_setRequest {r r' : Nat} {q q' : Request} {f : Request → Request}
    (hq : s.requests[r]? = some q) (h : (s.setRequest r f).requests[r']? = some q') :
    (r' = r ∧ q' = f q) ∨ (r' ≠ r ∧ s.requests[r']? = some q') := by
  by_cases hr : r' = r
  · subst hr
    rw [getElem?_setRequest_self hq] at h
    exact Or.inl ⟨rfl, (Option.some.inj h).symm⟩
  · rw [getElem?_setRequest_of_ne hr] at h
    exact Or.inr ⟨hr, h⟩

/-- Messages and answers that move or get lost. -/
theorem Inv.network (h : Inv s) {toAgent : Uuid → List Nat} {fromAgent : Uuid → List Answer}
    (dirs : Uuid → BinDir)
    (hflight : ∀ n r, InFlight { s with toAgent := toAgent, fromAgent := fromAgent } n r →
      InFlight s n r ∨ r < s.requests.length ∧ ∀ r', s.waiters n = some r' → r' = r) :
    Inv { s with toAgent := toAgent, fromAgent := fromAgent, dirs := dirs } :=
  { h with
    in_flight := fun n r hr => (hflight n r hr).elim (h.in_flight n r) id }

/-- How a request may go on. -/
structure GoesOn (r : Nat) (q q' : Request) : Prop where
  node : q'.node = q.node
  settled : q.Settled → q'.Settled
  keeps : ∀ a, q.taken = some a → q'.taken = some a
  taken : ∀ a, q'.taken = some a → a.request = r
  delivered : ∀ a, q'.delivered = some a → q'.taken = some a
  returned : ∀ a, q'.phase = .finished (.ok a) → q'.taken = some a

/-- **One request goes on.**  Of the waiters at most its own is removed, which is there
exactly as long as the request has neither returned nor been answered. -/
theorem Inv.goOn (h : Inv s) {r : Nat} {q : Request} {f : Request → Request}
    {w : Uuid → Option Nat} (hq : s.requests[r]? = some q) (hon : GoesOn r q (f q))
    (hsub : ∀ n r', w n = some r' → s.waiters n = some r')
    (hothers : ∀ n r', r' ≠ r → s.waiters n = some r' → w n = some r')
    (hown : w q.node = some r ↔ ¬ (f q).Finished ∧ (f q).taken = none) :
    Inv { s.setRequest r f with waiters := w } where
  waiter := by
    intro n r' hw
    obtain ⟨q', hq', hnode, hfinished, htaken⟩ := h.waiter n r' (hsub n r' hw)
    by_cases hr : r' = r
    · subst hr
      rw [hq] at hq'
      cases hq'
      obtain ⟨hfinished', htaken'⟩ := hown.mp (hnode ▸ hw)
      exact ⟨f q, getElem?_setRequest_self hq, hon.node.trans hnode, hfinished', htaken'⟩
    · exact ⟨q', (getElem?_setRequest_of_ne hr).trans hq', hnode, hfinished, htaken⟩
  own_waiter := by
    intro r' q' hq' hfinished htaken
    rcases getElem?_setRequest hq hq' with ⟨rfl, rfl⟩ | ⟨hr, hq'⟩
    · rw [hon.node]
      exact hown.mpr ⟨hfinished, htaken⟩
    · exact hothers _ r' hr (h.own_waiter r' q' hq' hfinished htaken)
  single := by
    intro r₁ r₂ q₁ q₂ hq₁ hq₂ hnode hs₁ hs₂
    have hback : ∀ {r' : Nat} {q' : Request}, (s.setRequest r f).requests[r']? = some q' →
        ¬ q'.Settled → ∃ q₀, s.requests[r']? = some q₀ ∧ q₀.node = q'.node ∧ ¬ q₀.Settled := by
      intro r' q' hq' hs
      rcases getElem?_setRequest hq hq' with ⟨rfl, rfl⟩ | ⟨-, hq'⟩
      · exact ⟨q, hq, hon.node.symm, fun hsettled => hs (hon.settled hsettled)⟩
      · exact ⟨q', hq', rfl, hs⟩
    obtain ⟨p₁, hp₁, hn₁, hs₁⟩ := hback hq₁ hs₁
    obtain ⟨p₂, hp₂, hn₂, hs₂⟩ := hback hq₂ hs₂
    exact h.single r₁ r₂ p₁ p₂ hp₁ hp₂ (hn₁.trans (hnode.trans hn₂.symm)) hs₁ hs₂
  in_flight := by
    intro n x hx
    obtain ⟨hlt, hall⟩ := h.in_flight n x hx
    refine ⟨?_, fun r' hw => hall r' (hsub n r' hw)⟩
    rw [State.setRequest, List.length_modify]
    exact hlt
  in_hand := by
    intro p hp
    obtain ⟨q', hq', htaken⟩ := h.in_hand p hp
    by_cases hr : p.1 = r
    · rw [hr, hq] at hq'
      cases hq'
      refine ⟨f q, ?_, hon.keeps p.2 htaken⟩
      rw [hr]
      exact getElem?_setRequest_self hq
    · exact ⟨q', (getElem?_setRequest_of_ne hr).trans hq', htaken⟩
  taken := by
    intro r' q' a hq' htaken
    rcases getElem?_setRequest hq hq' with ⟨rfl, rfl⟩ | ⟨-, hq'⟩
    · exact hon.taken a htaken
    · exact h.taken r' q' a hq' htaken
  delivered := by
    intro r' q' a hq' hdelivered
    rcases getElem?_setRequest hq hq' with ⟨rfl, rfl⟩ | ⟨-, hq'⟩
    · exact hon.delivered a hdelivered
    · exact h.delivered r' q' a hq' hdelivered
  returned := by
    intro r' q' a hq' hphase
    rcases getElem?_setRequest hq hq' with ⟨rfl, rfl⟩ | ⟨-, hq'⟩
    · exact hon.returned a hphase
    · exact h.returned r' q' a hq' hphase

/-- A request goes on and the map stays. -/
theorem Inv.goOn_same (h : Inv s) {r : Nat} {q : Request} {f : Request → Request}
    (hq : s.requests[r]? = some q) (hon : GoesOn r q (f q))
    (hown : ¬ q.Finished ∧ q.taken = none ↔ ¬ (f q).Finished ∧ (f q).taken = none) :
    Inv (s.setRequest r f) := by
  refine h.goOn (w := s.waiters) hq hon (fun _ _ hw => hw) (fun _ _ _ hw => hw) ?_
  refine Iff.trans ?_ hown
  constructor
  · intro hw
    obtain ⟨q', hq', -, hfinished, htaken⟩ := h.waiter q.node r hw
    rw [hq] at hq'
    cases hq'
    exact ⟨hfinished, htaken⟩
  · exact fun ⟨hfinished, htaken⟩ => h.own_waiter r q hq hfinished htaken

theorem getElem?_append_singleton {rs : List Request} {new q : Request} {r : Nat}
    (h : (rs ++ [new])[r]? = some q) : rs[r]? = some q ∨ (r = rs.length ∧ q = new) := by
  rw [List.getElem?_append] at h
  split at h
  · exact Or.inl h
  · rename_i hlength
    have hzero : r - rs.length = 0 := by
      by_contra hne
      rw [List.getElem?_singleton, if_neg hne] at h
      cases h
    rw [hzero] at h
    exact Or.inr ⟨by omega, (Option.some.inj h).symm⟩

theorem getElem?_append_of_some {rs : List Request} {new q : Request} {r : Nat}
    (h : rs[r]? = some q) : (rs ++ [new])[r]? = some q := by
  rw [List.getElem?_append_left (List.getElem?_eq_some_iff.mp h).1, h]

@[simp] theorem set_self {α : Type} (f : Uuid → α) (n : Uuid) (a : α) : set f n a n = a := if_pos rfl

theorem set_of_ne {α : Type} {n m : Uuid} (h : m ≠ n) (f : Uuid → α) (a : α) : set f n a m = f m :=
  if_neg h

/-- A request starts when its node is quiet. -/
theorem Inv.start (h : Inv s) {node : Uuid} (message : CoreBinaryRequest) (hquiet : Quiet s node) :
    Inv (s.started node message) := by
  obtain ⟨hnone, hsettled, htoAgent, hfromAgent⟩ := hquiet
  constructor
  case waiter =>
    intro n r hr
    change set s.waiters node (some s.requests.length) n = some r at hr
    by_cases hn : n = node
    · subst hn
      rw [set_self] at hr
      cases hr
      exact ⟨_, List.getElem?_concat_length, rfl, id, rfl⟩
    · rw [set_of_ne hn] at hr
      obtain ⟨q, hq, hrest⟩ := h.waiter n r hr
      exact ⟨q, getElem?_append_of_some hq, hrest⟩
  case own_waiter =>
    intro r q hq hfinished htaken
    rcases getElem?_append_singleton hq with hq | ⟨rfl, rfl⟩
    · have hwaiter := h.own_waiter r q hq hfinished htaken
      have hne : q.node ≠ node := by
        intro he
        rw [he, hnone] at hwaiter
        cases hwaiter
      exact (set_of_ne hne _ _).trans hwaiter
    · exact set_self _ _ _
  case single =>
    intro r r' q q' hq hq' hnode hs hs'
    rcases getElem?_append_singleton hq with hq | ⟨rfl, rfl⟩
    · rcases getElem?_append_singleton hq' with hq' | ⟨rfl, rfl⟩
      · exact h.single r r' q q' hq hq' hnode hs hs'
      · exact absurd (hsettled q (List.mem_of_getElem? hq) hnode) hs
    · rcases getElem?_append_singleton hq' with hq' | ⟨rfl, rfl⟩
      · exact absurd (hsettled q' (List.mem_of_getElem? hq') hnode.symm) hs'
      · rfl
  case in_flight =>
    intro n r hr
    replace hr : InFlight s n r := hr
    obtain ⟨hlt, hall⟩ := h.in_flight n r hr
    refine ⟨?_, fun r' hr' => ?_⟩
    · rw [State.started, List.length_append]
      omega
    change set s.waiters node (some s.requests.length) n = some r' at hr'
    by_cases hn : n = node
    · subst hn
      rcases hr with hr | ⟨a, ha, -⟩
      · rw [htoAgent] at hr
        cases hr
      · rw [hfromAgent] at ha
        cases ha
    · rw [set_of_ne hn] at hr'
      exact hall r' hr'
  case in_hand =>
    intro p hp
    obtain ⟨q, hq, htaken⟩ := h.in_hand p hp
    exact ⟨q, getElem?_append_of_some hq, htaken⟩
  case taken =>
    intro r q a hq htaken
    rcases getElem?_append_singleton hq with hq | ⟨rfl, rfl⟩
    · exact h.taken r q a hq htaken
    · cases htaken
  case delivered =>
    intro r q a hq hdelivered
    rcases getElem?_append_singleton hq with hq | ⟨rfl, rfl⟩
    · exact h.delivered r q a hq hdelivered
    · cases hdelivered
  case returned =>
    intro r q a hq hphase
    rcases getElem?_append_singleton hq with hq | ⟨rfl, rfl⟩
    · exact h.returned r q a hq hphase
    · cases hphase

/-- The answer that arrives is that of the request whose waiter is there. -/
theorem Inv.receive (h : Inv s) {node : Uuid} {r : Nat} {a : Answer} (ha : a ∈ s.fromAgent node)
    (hr : s.waiters node = some r) :
    Inv { s.setRequest r (fun q => { q with taken := some a }) with
      waiters := set s.waiters node none
      inHand := s.inHand ++ [(r, a)] } := by
  obtain ⟨q, hq, hnode, hfinished, htaken⟩ := h.waiter node r hr
  have hown : r = a.request := (h.in_flight node a.request (Or.inr ⟨a, ha, rfl⟩)).2 r hr
  have hon : GoesOn r q { q with taken := some a } :=
    { node := rfl
      settled := id
      keeps := fun b hb => by rw [htaken] at hb; cases hb
      taken := fun b hb => by cases hb; exact hown.symm
      delivered := fun b hb => by
        rw [h.delivered r q b hq hb] at htaken
        cases htaken
      returned := fun b hb => by
        rw [h.returned r q b hq hb] at htaken
        cases htaken }
  have hnext : Inv { s.setRequest r (fun q => { q with taken := some a }) with
      waiters := set s.waiters node none } := by
    refine h.goOn hq hon ?_ ?_ ?_
    · intro n r' hw
      by_cases hn : n = node
      · subst hn
        rw [set_self] at hw
        cases hw
      · rwa [set_of_ne hn] at hw
    · intro n r' hne hw
      have hn : n ≠ node := by
        rintro rfl
        rw [hr] at hw
        cases hw
        exact hne rfl
      rwa [set_of_ne hn]
    · rw [hnode, set_self]
      exact iff_of_false nofun fun hw => Option.some_ne_none a hw.2
  refine { hnext with in_hand := fun p hp => ?_ }
  rcases List.mem_append.mp hp with hp | hp
  · exact hnext.in_hand p hp
  · cases List.mem_singleton.mp hp
    exact ⟨_, getElem?_setRequest_self hq, rfl⟩

theorem Inv.goesOn_phase (h : Inv s) {r : Nat} {q : Request} {phase : Phase}
    (hq : s.requests[r]? = some q) (hsettled : q.Settled → { q with phase := phase }.Settled)
    (hreturned : ∀ a, phase = .finished (.ok a) → q.taken = some a) :
    GoesOn r q { q with phase := phase } where
  node := rfl
  settled := hsettled
  keeps := fun _ ha => ha
  taken := fun a ha => h.taken r q a hq ha
  delivered := fun a ha => h.delivered r q a hq ha
  returned := hreturned

/-- The channel of a request gets the answer its waiter was taken for. -/
theorem Inv.hand (h : Inv s) {r : Nat} {q : Request} {a : Answer} (hq : s.requests[r]? = some q)
    (htaken : q.taken = some a) : Inv (s.setRequest r (·.hand a)) := by
  have hsame : (q.hand a).taken = q.taken ∧ (q.hand a).phase = q.phase ∧
      (q.hand a).node = q.node ∧
      ((q.hand a).delivered = q.delivered ∨ (q.hand a).delivered = some a) := by
    rw [Request.hand]
    split
    · exact ⟨rfl, rfl, rfl, Or.inr rfl⟩
    · exact ⟨rfl, rfl, rfl, Or.inr rfl⟩
    · exact ⟨rfl, rfl, rfl, Or.inl rfl⟩
    · exact ⟨rfl, rfl, rfl, Or.inl rfl⟩
  obtain ⟨htaken', hphase, hnode, hdelivered⟩ := hsame
  have hfinished : (q.hand a).Finished ↔ q.Finished := by
    unfold Request.Finished
    rw [hphase]
  refine h.goOn_same hq ⟨hnode, ?_, ?_, ?_, ?_, ?_⟩ (by rw [hfinished, htaken'])
  · unfold Request.Settled
    rw [hphase]
    cases q.phase with
    | awaiting =>
      intro hs
      rcases hdelivered with hd | hd
      · rwa [hd]
      · rw [hd]
        exact Option.some_ne_none a
    | _ => exact id
  · exact fun b hb => htaken'.trans hb
  · exact fun b hb => h.taken r q b hq (htaken'.symm.trans hb)
  · intro b hb
    rw [htaken']
    rcases hdelivered with hd | hd
    · exact h.delivered r q b hq (hd.symm.trans hb)
    · rw [← hb, hd, htaken]
  · exact fun b hb => htaken'.trans (h.returned r q b hq (hphase.symm.trans hb))

theorem Inv.eraseHand (h : Inv s) (i : Nat) : Inv { s with inHand := s.inHand.eraseIdx i } :=
  { h with in_hand := fun p hp => h.in_hand p (List.mem_of_mem_eraseIdx hp) }

/-- A request that gives up removes no waiter but its own. -/
theorem Inv.cleanup (h : Inv s) {r : Nat} {q : Request} {e : ApiError}
    (hq : s.requests[r]? = some q) (hphase : q.phase = .failed e) :
    Inv { s.setRequest r (fun q => { q with phase := .finished (.error e) }) with
      waiters := set s.waiters q.node none } := by
  have hunsettled : ¬ q.Settled := by
    unfold Request.Settled
    rw [hphase]
    exact id
  have hon : GoesOn r q { q with phase := .finished (.error e) } :=
    h.goesOn_phase hq (fun hs => absurd hs hunsettled) nofun
  refine h.goOn (w := set s.waiters q.node none) hq hon ?_ ?_ ?_
  · intro n r' hw
    by_cases hn : n = q.node
    · subst hn
      rw [set_self] at hw
      cases hw
    · rwa [set_of_ne hn] at hw
  · intro n r' hne hw
    have hn : n ≠ q.node := by
      rintro rfl
      obtain ⟨q', hq', hnode, hfinished, htaken⟩ := h.waiter q.node r' hw
      exact hne (h.single r' r q' q hq' hq hnode (h.not_settled hq' hfinished htaken) hunsettled)
    rwa [set_of_ne hn]
  · rw [set_self]
    exact iff_of_false (fun hw => nomatch hw) fun hw => hw.1 trivial

theorem mem_set_append {α : Type} {f : Uuid → List α} {node n : Uuid} {x y : α}
    (h : x ∈ set f node (f node ++ [y]) n) : x ∈ f n ∨ (n = node ∧ x = y) := by
  by_cases hn : n = node
  · subst hn
    rw [set_self, List.mem_append, List.mem_singleton] at h
    exact h.imp id fun hxy => ⟨rfl, hxy⟩
  · rw [set_of_ne hn] at h
    exact Or.inl h

theorem mem_set_eraseIdx {α : Type} {f : Uuid → List α} {node n : Uuid} {i : Nat} {x : α}
    (h : x ∈ set f node ((f node).eraseIdx i) n) : x ∈ f n := by
  by_cases hn : n = node
  · subst hn
    rw [set_self] at h
    exact List.mem_of_mem_eraseIdx h
  · rwa [set_of_ne hn] at h

/-- **One step** keeps the invariant. -/
theorem inv_step {a : Action} {s' : State} (h : Inv s) (hquiet : StartsQuiet s a)
    (hstep : step s a = some s') : Inv s' := by
  cases a with
  | start node message =>
    cases hstep
    exact h.start message hquiet
  | send r e =>
    rw [step] at hstep
    split at hstep
    · rename_i node message taken delivered hq
      cases e with
      | none =>
        cases hstep
        have hnext := h.goOn_same (f := fun q => { q with phase := .awaiting }) hq
          (h.goesOn_phase hq False.elim nofun) Iff.rfl
        refine hnext.network s.dirs fun n x hx => ?_
        rcases hx with hx | hx
        · rcases mem_set_append hx with hx | ⟨rfl, rfl⟩
          · exact Or.inl (Or.inl hx)
          · have hlt : x < (s.setRequest x fun q => { q with phase := .awaiting }).requests.length := by
              rw [State.setRequest, List.length_modify]
              exact (List.getElem?_eq_some_iff.mp hq).1
            refine Or.inr ⟨hlt, fun r' hr' => ?_⟩
            obtain ⟨q', hq', hnode, hfinished, htaken⟩ := h.waiter n r' hr'
            exact h.single r' x q' _ hq' hq hnode (h.not_settled hq' hfinished htaken) id
        · exact Or.inl (Or.inr hx)
      | some e =>
        cases hstep
        exact h.goOn_same (f := fun q => { q with phase := .failed (agentUnreachable e) }) hq
          (h.goesOn_phase hq False.elim nofun) Iff.rfl
    · cases hstep
  | answer node i removal =>
    rw [step] at hstep
    split at hstep
    · rename_i r message hr
      obtain ⟨x, hx, hxr⟩ := Option.bind_eq_some_iff.mp hr
      obtain ⟨q, -, hpair⟩ := Option.map_eq_some_iff.mp hxr
      cases hpair
      cases hstep
      refine h.network _ fun n y hy => Or.inl ?_
      rcases hy with hy | ⟨a, ha, rfl⟩
      · exact Or.inl (mem_set_eraseIdx hy)
      · rcases mem_set_append ha with ha | ⟨rfl, rfl⟩
        · exact Or.inr ⟨a, ha, rfl⟩
        · exact Or.inl (List.mem_of_getElem? hx)
    · cases hstep
  | loseMessage node i =>
    cases hstep
    refine h.network s.dirs fun n r hr => Or.inl ?_
    exact hr.imp mem_set_eraseIdx id
  | loseAnswer node i =>
    cases hstep
    refine h.network s.dirs fun n r hr => Or.inl ?_
    exact hr.imp id fun ⟨a, ha, har⟩ => ⟨a, mem_set_eraseIdx ha, har⟩
  | changeDir node dir =>
    cases hstep
    exact h.network _ fun n r hr => Or.inl hr
  | receive node i =>
    rw [step] at hstep
    split at hstep
    · rename_i a ha
      have hmem : a ∈ s.fromAgent node := List.mem_of_getElem? ha
      have hrest : ∀ n x, (x ∈ s.toAgent n ∨ ∃ b ∈ set s.fromAgent node
          ((s.fromAgent node).eraseIdx i) n, b.request = x) → InFlight s n x :=
        fun n x hx => hx.imp id fun ⟨b, hb, hbx⟩ => ⟨b, mem_set_eraseIdx hb, hbx⟩
      cases hr : s.waiters node with
      | none =>
        simp only [hr] at hstep
        cases hstep
        exact h.network s.dirs fun n x hx => Or.inl (hrest n x hx)
      | some r =>
        simp only [hr] at hstep
        cases hstep
        exact (h.receive hmem hr).network s.dirs fun n x hx => Or.inl (hrest n x hx)
    · cases hstep
  | handOver i =>
    rw [step] at hstep
    split at hstep
    · rename_i r a hp
      cases hstep
      obtain ⟨q, hq, htaken⟩ := h.in_hand (r, a) (List.mem_of_getElem? hp)
      exact (h.hand hq htaken).eraseHand i
    · cases hstep
  | complete r =>
    rw [step] at hstep
    split at hstep
    · rename_i node message taken a hq
      cases hstep
      have htaken : taken = some a := h.delivered r _ a hq rfl
      subst htaken
      refine h.goOn_same (f := fun q => { q with phase := .finished (resultOf message a) }) hq
        (h.goesOn_phase hq (fun _ => trivial) fun b hb => ?_) ?_
      · cases message with
        | list => cases hb; rfl
        | delete fileName =>
          rw [Phase.finished.injEq, resultOf] at hb
          split at hb
          · cases hb; rfl
          · cases hb
      · exact iff_of_false (fun hw => Option.some_ne_none a hw.2) fun hw => hw.1 trivial
    · cases hstep
  | timeout r =>
    rw [step] at hstep
    split at hstep
    · rename_i node message taken hq
      cases hstep
      exact h.goOn_same (f := fun q => { q with phase := .failed agentTimeout }) hq
        (h.goesOn_phase hq (fun hs => hs rfl) nofun) Iff.rfl
    · cases hstep
  | cleanup r =>
    rw [step] at hstep
    split at hstep
    · rename_i node message e taken delivered hq
      cases hstep
      exact h.cleanup hq rfl
    · cases hstep

end Steps

/-- **Requests and answers match** in every state of a run in which every request starts
when its node is quiet. -/
theorem matched_of_quiet {dirs : Uuid → BinDir} {as : List Action} {s : State}
    (hquiet : Guarded step StartsQuiet (initial dirs) as) (hrun : run step (initial dirs) as = some s) :
    Matched s :=
  matched_of_inv (inv_of_guarded (fun _ _ _ => inv_step) (inv_initial dirs) hquiet hrun)

/-! ### A start that is not quiet can go wrong -/

section Unquiet

variable {s : State}

/-- A request that cleans up while another waits takes the waiter of the other. -/
theorem mismatch_of_cleanup {r r' : Nat} {q q' : Request} {e : ApiError}
    (hq : s.requests[r]? = some q) (hphase : q.phase = .failed e) (hq' : s.requests[r']? = some q')
    (hne : r' ≠ r) (hnode : q'.node = q.node) (hfinished : ¬ q'.Finished) (htaken : q'.taken = none) :
    ∃ s', step s (.cleanup r) = some s' ∧ ¬ Matched s' := by
  obtain ⟨node, message, phase, taken, delivered⟩ := q
  cases hphase
  refine ⟨_, by rw [step, hq], fun h => ?_⟩
  have hwaiter := h.own_waiter r' q' ((getElem?_setRequest_of_ne hne).trans hq') hfinished htaken
  rw [hnode] at hwaiter
  change set s.waiters node none node = some r' at hwaiter
  rw [set_self] at hwaiter
  cases hwaiter

/-- An answer to another request completes the one that waits. -/
theorem mismatch_of_receive {node : Uuid} {r : Nat} {q : Request} {a : Answer} {i : Nat}
    (ha : (s.fromAgent node)[i]? = some a) (hr : s.waiters node = some r)
    (hq : s.requests[r]? = some q) (hne : a.request ≠ r) :
    ∃ s', step s (.receive node i) = some s' ∧ ¬ Matched s' := by
  refine ⟨_, by simp only [step, ha, hr]; rfl, fun h => hne ?_⟩
  exact h.own_completion r _ a (getElem?_setRequest_self hq) rfl

variable {node : Uuid} {message : CoreBinaryRequest}

variable (node message) in
theorem getElem?_started {r : Nat} {q : Request} (hq : s.requests[r]? = some q) :
    (s.started node message).requests[r]? = some q := getElem?_append_of_some hq

variable (s node message) in
theorem getElem?_started_new : (s.started node message).requests[s.requests.length]? =
    some ⟨node, message, .registered, none, none⟩ := List.getElem?_concat_length

theorem waiters_started : (s.started node message).waiters node = some s.requests.length :=
  set_self _ _ _

theorem run_start {s' : State} {as : List Action} (hrun : run step (s.started node message) as = some s') :
    run step s (.start node message :: as) = some s' := hrun

theorem length_ne {r : Nat} {q : Request} (hq : s.requests[r]? = some q) : s.requests.length ≠ r :=
  Nat.ne_of_gt (List.getElem?_eq_some_iff.mp hq).1

/-- A request that fails and cleans up after another has started. -/
theorem mismatch_of_failure {r : Nat} {q : Request} {a : Action} {e : ApiError}
    (hq : s.requests[r]? = some q) (hnode : q.node = node)
    (hstep : step (s.started node message) a =
      some ((s.started node message).setRequest r fun q => { q with phase := .failed e })) :
    ∃ as s', run step s (.start node message :: as) = some s' ∧ ¬ Matched s' := by
  have hq₂ := getElem?_setRequest_self (f := fun q => { q with phase := .failed e })
    (getElem?_started node message hq)
  have hnew := (getElem?_setRequest_of_ne (f := fun q => { q with phase := .failed e })
    (length_ne hq)).trans (getElem?_started_new s node message)
  obtain ⟨s', hcleanup, hnot⟩ := mismatch_of_cleanup hq₂ rfl hnew (length_ne hq) hnode.symm id rfl
  refine ⟨[a, .cleanup r], s', run_start ?_, hnot⟩
  rw [run_cons, hstep, Option.bind_some, run_cons, hcleanup]
  rfl

variable (message) in
/-- An answer that is there when another request starts is taken for that request. -/
theorem mismatch_of_answer {a : Answer} {i : Nat} (ha : (s.fromAgent node)[i]? = some a)
    (hlt : a.request < s.requests.length) : ∃ s',
      step (s.started node message) (.receive node i) = some s' ∧ ¬ Matched s' :=
  mismatch_of_receive (s := s.started node message) ha waiters_started (getElem?_started_new s node message)
    (Nat.ne_of_lt hlt)

/-- A message that is on its way can be answered. -/
theorem exists_answer {x : Nat} {q : Request} (hx : (s.toAgent node)[0]? = some x)
    (hq : s.requests[x]? = some q) (hnone : s.fromAgent node = []) : ∃ s₂ a,
      step s (.answer node 0 none) = some s₂ ∧ (s₂.fromAgent node)[0]? = some a ∧ a.request = x ∧
        s₂.waiters = s.waiters ∧ s₂.requests = s.requests := by
  rw [step, hx, Option.bind_some, hq]
  refine ⟨_, ⟨x, (answerCoreBinaries (s.dirs node) none q.message).1⟩, rfl, ?_, rfl, rfl, rfl⟩
  dsimp only
  rw [set_self, hnone]
  rfl

/-- **Quiet is needed**: a request that starts when its node is not quiet may not match. -/
theorem mismatch_of_not_quiet (h : Inv s) (hquiet : ¬ Quiet s node) : ∃ as s',
    run step s (.start node message :: as) = some s' ∧ ¬ Matched s' := by
  by_cases hwaiter : s.waiters node = none
  · by_cases hsettled : ∀ q ∈ s.requests, q.node = node → q.Settled
    · cases hanswers : s.fromAgent node with
      | cons a answers =>
        have hmem : a ∈ s.fromAgent node := by rw [hanswers]; exact List.mem_cons_self
        have hlt := (h.in_flight node a.request (Or.inr ⟨a, hmem, rfl⟩)).1
        obtain ⟨s', hstep, hnot⟩ := mismatch_of_answer message (i := 0) (by rw [hanswers]; rfl) hlt
        exact ⟨[.receive node 0], s', run_start (by rw [run_cons, hstep]; rfl), hnot⟩
      | nil =>
        cases hmessages : s.toAgent node with
        | nil => exact absurd ⟨hwaiter, hsettled, hmessages, hanswers⟩ hquiet
        | cons x messages =>
          have hmem : x ∈ s.toAgent node := by rw [hmessages]; exact List.mem_cons_self
          have hlt := (h.in_flight node x (Or.inl hmem)).1
          have hq := getElem?_started node message (List.getElem?_eq_getElem hlt)
          obtain ⟨s₂, a, hanswer, ha, hax, hwaiters, hrequests⟩ :=
            exists_answer (s := s.started node message) (by
              change (s.toAgent node)[0]? = some x
              rw [hmessages]
              rfl) hq hanswers
          obtain ⟨s', hstep, hnot⟩ := mismatch_of_receive ha
            ((congrFun hwaiters node).trans waiters_started)
            (by rw [hrequests]; exact getElem?_started_new s node message) (hax ▸ Nat.ne_of_lt hlt)
          refine ⟨[.answer node 0 none, .receive node 0], s', run_start ?_, hnot⟩
          rw [run_cons, hanswer, Option.bind_some, run_cons, hstep]
          rfl
    · push Not at hsettled
      obtain ⟨q, hmem, hnode, hunsettled⟩ := hsettled
      obtain ⟨r, hq⟩ := List.mem_iff_getElem?.mp hmem
      have hq₁ := getElem?_started node message hq
      obtain ⟨node', message', phase, taken, delivered⟩ := q
      cases phase with
      | registered => exact mismatch_of_failure (a := .send r (some "")) hq hnode (by rw [step, hq₁])
      | awaiting =>
        obtain rfl : delivered = none := by
          by_contra hdelivered
          exact hunsettled hdelivered
        exact mismatch_of_failure (a := .timeout r) hq hnode (by rw [step, hq₁])
      | failed e =>
        obtain ⟨s', hstep, hnot⟩ := mismatch_of_cleanup hq₁ rfl (getElem?_started_new s node message)
          (length_ne hq) hnode.symm id rfl
        exact ⟨[.cleanup r], s', run_start (by rw [run_cons, hstep]; rfl), hnot⟩
      | finished result => exact absurd trivial hunsettled
  · obtain ⟨r, hr⟩ := Option.ne_none_iff_exists'.mp hwaiter
    obtain ⟨q, hq, hnode, hfinished, htaken⟩ := h.waiter node r hr
    refine ⟨[], _, run_start rfl, fun hmatched => length_ne hq ?_⟩
    have hown := hmatched.own_waiter r q (getElem?_started node message hq) hfinished htaken
    rw [hnode, waiters_started] at hown
    exact Option.some.inj hown

end Unquiet

/-! ### Two requests of one node -/

namespace TwoRequests

def dirs : Uuid → BinDir := fun _ =>
  { path := some "/var/lib/pp-agent/bin"
    readDir := .ok [⟨"sing-box", 100, 5⟩, ⟨"sing-box.old", 90, 4⟩]
    registered := ["sing-box"] }

def node : Uuid := .ofNat 1

/-- A list request, then a deletion, then a list request that the agent never sees. -/
def inTurn : List Action :=
  [.start node .list, .start (.ofNat 2) .list, .send 0 none, .answer node 0 none, .receive node 0,
    .handOver 0, .start node (.delete "sing-box.old"), .complete 0, .send 2 none, .answer node 0 none,
    .receive node 0, .handOver 0, .complete 2, .start node .list, .send 3 none, .loseMessage node 0,
    .timeout 3, .cleanup 3]

/-- The deletion starts while the list request still waits. -/
def overlapping : List Action :=
  [.start node .list, .send 0 none, .start node (.delete "sing-box.old"), .send 1 none,
    .answer node 0 none, .answer node 0 none, .receive node 0, .handOver 0, .complete 1, .timeout 0,
    .cleanup 0]

end TwoRequests

theorem matched_of_quiet_in_turn : ∃ s, run step (initial TwoRequests.dirs) TwoRequests.inTurn = some s ∧
    Matched s := by
  have hchecked : checked step (fun s a => decide (StartsQuiet s a)) (initial TwoRequests.dirs)
      TwoRequests.inTurn = true := by decide
  obtain ⟨hquiet, s, hrun⟩ := guarded_of_checked (I := fun _ => True)
    (fun _ _ _ h => of_decide_eq_true h) (fun _ _ _ _ _ _ => trivial) trivial hchecked
  exact ⟨s, hrun, matched_of_quiet hquiet hrun⟩

/-- The deletion returns the list that answers the request before it, which times out. -/
theorem deletion_returns_list : ∃ s q,
    run step (initial TwoRequests.dirs) TwoRequests.overlapping = some s ∧ s.requests[1]? = some q ∧
      q.message = .delete "sing-box.old" ∧
      (∃ a, q.phase = .finished (.ok a) ∧ a.request = 0) ∧
      (s.requests[0]?).map (·.phase) = some (.finished (.error agentTimeout)) := by
  refine ⟨_, _, rfl, rfl, rfl, ⟨_, rfl, rfl⟩, rfl⟩

end ProxyPanel.Hub.CoreBinaries
