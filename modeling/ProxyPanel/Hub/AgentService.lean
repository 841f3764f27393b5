import ProxyPanel.Db.Entities
import ProxyPanel.Lib.Run
import Mathlib.Logic.Function.Basic

/-!
# Registration of agents

Every gRPC stream of an agent is a task that handles one message after the other
and cleans up when the stream ends.  A step is what a task does between two
awaits, so steps of streams interleave freely.  `Consistent` says when the map of
agents, the streams and the status of the nodes agree.  An agent is removed by its
node id and not by its connection; `consistent_of_guarded` says which orders of
steps are safe in spite of that.
-/

namespace ProxyPanel

namespace Hub

namespace AgentService

abbrev StreamId := Nat

structure RegisterRequest where
  agentId : String
  token : String
  hostname : String
  capabilities : List String
  domain : String

/-- The node a stream registered for.  `stamp` orders the calls of `register_agent`;
the code does not keep it. -/
structure Registration where
  nodeId : Uuid
  stamp : Nat

/-- Where the task of a stream is: between messages, at one of the awaits of
`handle_register`, or at one of the awaits of the cleanup. -/
inductive Phase where
  | unopened
  | idle
  | lookingUp (agentId : Uuid) (req : RegisterRequest)
  | verifying (node : Node) (req : RegisterRequest)
  | updating (node : Node) (req : RegisterRequest)
  | inserting (agentId : Uuid)
  | responding (registration : Registration)
  | unregistering (agentId : Uuid)
  | findingNode (agentId : Uuid)
  | markingOffline (agentId : Uuid)
  | clearingSessions (agentId : Uuid)
  | closed

structure Stream where
  remoteAddr : Option String
  registeredId : Option Registration
  phase : Phase

/-- The Hub: its database, the sender of each connected agent and the streams. -/
structure State where
  db : Db
  agents : Uuid → Option StreamId
  streams : StreamId → Stream
  clock : Nat

namespace State

def put (st : State) (s : StreamId) (stream : Stream) : State :=
  { st with streams := Function.update st.streams s stream }

def setPhase (st : State) (s : StreamId) (phase : Phase) : State :=
  st.put s { st.streams s with phase := phase }

def setNodes (st : State) (nodes : Table Node) : State :=
  { st with db := { st.db with nodes := nodes } }

def setSessions (st : State) (sessions : Table ClientOnlineSession) : State :=
  { st with db := { st.db with clientOnlineSessions := sessions } }

end State

/-- One step of a stream; `ok` is the outcome of the await. -/
inductive Action where
  | openStream (s : StreamId) (remoteAddr : Option String)
  | register (s : StreamId) (req : RegisterRequest)
  | lookUp (s : StreamId) (ok : Bool)
  | verify (s : StreamId) (ok : Bool)
  | updateNode (s : StreamId) (ok : Bool) (now : DateTime)
  | registerAgent (s : StreamId)
  | respond (s : StreamId) (ok : Bool)
  | onlineUser (s : StreamId) (session : ClientOnlineSession)
  | disconnect (s : StreamId)
  | unregisterAgent (s : StreamId)
  | findNode (s : StreamId) (ok : Bool)
  | markOffline (s : StreamId) (ok : Bool) (now : DateTime)
  | clearSessions (s : StreamId) (ok : Bool)

/-- Loopback addresses, as the address of a stream is displayed. -/
def isLoopbackAddr (addr : String) : Bool := addr = "::1" ∨ "127.".toList.isPrefixOf addr.toList

/-- The row of a node whose agent registers. -/
def registeredRow (req : RegisterRequest) (remoteAddr : Option String) (now : DateTime)
    (node : Node) : Node :=
  { node with
    status := "online"
    hostname := req.hostname
    coresAvailable := .arr (req.capabilities.map .str)
    address := match remoteAddr with
      | some addr => if isLoopbackAddr addr then node.address else addr
      | none => node.address
    domain := if req.domain = "" then node.domain else some req.domain
    lastSeenAt := some now
    updatedAt := now }

/-- **A step of the Hub.** -/
def step (st : State) : Action → Option State
  | .openStream s remoteAddr =>
    match (st.streams s).phase with
    | .unopened => some (st.put s ⟨remoteAddr, none, .idle⟩)
    | _ => none
  | .register s req =>
    match (st.streams s).phase with
    | .idle =>
      match Uuid.parse req.agentId with
      | some agentId => some (st.setPhase s (.lookingUp agentId req))
      | none => some st
    | _ => none
  | .lookUp s ok =>
    match (st.streams s).phase with
    | .lookingUp agentId req =>
      match (if ok then st.db.nodes.find agentId else none) with
      | some node =>
        if node.tokenHash = "" then some (st.setPhase s .idle)
        else some (st.setPhase s (.verifying node req))
      | none => some (st.setPhase s .idle)
    | _ => none
  | .verify s ok =>
    match (st.streams s).phase with
    | .verifying node req => some (st.setPhase s (if ok then .updating node req else .idle))
    | _ => none
  | .updateNode s ok now =>
    match (st.streams s).phase with
    | .updating node req =>
      -- An update of a row that is gone is an error.
      if ok ∧ (st.db.nodes.find node.id).isSome then
        let nodes := st.db.nodes.update node.id (registeredRow req (st.streams s).remoteAddr now)
        some ((st.setNodes nodes).setPhase s (.inserting node.id))
      else some (st.setPhase s .idle)
    | _ => none
  | .registerAgent s =>
    match (st.streams s).phase with
    | .inserting agentId =>
      some { st.setPhase s (.responding ⟨agentId, st.clock⟩) with
        agents := Function.update st.agents agentId (some s), clock := st.clock + 1 }
    | _ => none
  | .respond s ok =>
    match (st.streams s).phase with
    | .responding registration =>
      if ok then
        some (st.put s { st.streams s with registeredId := some registration, phase := .idle })
      else some (st.setPhase s .idle)
    | _ => none
  | .onlineUser s session =>
    match (st.streams s).phase, (st.streams s).registeredId with
    | .idle, some registration =>
      if session.nodeId = registration.nodeId then
        (st.db.clientOnlineSessions.insert session).map st.setSessions
      else none
    | _, _ => none
  | .disconnect s =>
    match (st.streams s).phase with
    | .idle =>
      match (st.streams s).registeredId with
      | some registration => some (st.setPhase s (.unregistering registration.nodeId))
      | none => some (st.setPhase s .closed)
    | _ => none
  | .unregisterAgent s =>
    match (st.streams s).phase with
    | .unregistering agentId =>
      some { st.setPhase s (.findingNode agentId) with
        agents := Function.update st.agents agentId none }
    | _ => none
  | .findNode s ok =>
    match (st.streams s).phase with
    | .findingNode agentId =>
      match (if ok then st.db.nodes.find agentId else none) with
      | some _ => some (st.setPhase s (.markingOffline agentId))
      | none => some (st.setPhase s (.clearingSessions agentId))
    | _ => none
  | .markOffline s ok now =>
    match (st.streams s).phase with
    | .markingOffline agentId =>
      let nodes := if ok then
          st.db.nodes.update agentId fun row => { row with status := "offline", updatedAt := now }
        else st.db.nodes
      some ((st.setNodes nodes).setPhase s (.clearingSessions agentId))
    | _ => none
  | .clearSessions s ok =>
    match (st.streams s).phase with
    | .clearingSessions agentId =>
      let sessions := if ok then st.db.clientOnlineSessions.deleteWhere (·.nodeId = agentId)
        else st.db.clientOnlineSessions
      some ((st.setSessions sessions).setPhase s .closed)
    | _ => none

/-! ### Registrations of a node -/

/-- What a phase means for the registration of a node. -/
inductive Role where
  /-- Handles messages. -/
  | working
  /-- Between the status of the node and the insertion into the map. -/
  | entering (agentId : Uuid)
  /-- In the map, the response is not sent yet. -/
  | responding (registration : Registration)
  /-- The stream has ended, its node is to be removed from the map. -/
  | unregistering (agentId : Uuid)
  /-- Between the removal from the map and the status of the node. -/
  | leaving (agentId : Uuid)
  | done

def Role.isOpen : Role → Bool
  | .working | .entering _ | .responding _ => true
  | .unregistering _ | .leaving _ | .done => false

def Phase.role : Phase → Role
  | .idle | .lookingUp _ _ | .verifying _ _ | .updating _ _ => .working
  | .inserting agentId => .entering agentId
  | .responding registration => .responding registration
  | .unregistering agentId => .unregistering agentId
  | .findingNode agentId | .markingOffline agentId => .leaving agentId
  | .unopened | .clearingSessions _ | .closed => .done

/-- Between messages, or ended. -/
def Phase.isQuiet : Phase → Bool
  | .unopened | .idle | .closed => true
  | _ => false

/-- The part of the Hub that registrations are about. -/
structure View where
  agents : Uuid → Option StreamId
  online : Uuid → Prop
  registered : StreamId → Option Registration
  role : StreamId → Role
  clock : Nat

def view (st : State) : View where
  agents := st.agents
  online n := (st.db.nodes.find n).map (·.status) = some "online"
  registered s := (st.streams s).registeredId
  role s := (st.streams s).phase.role
  clock := st.clock

namespace View

/-- An open stream whose latest successful Register was this one. -/
def Registered (v : View) (s : StreamId) (r : Registration) : Prop :=
  (v.role s).isOpen = true ∧ v.registered s = some r

/-- A registration of an open stream, also one whose response is not sent yet. -/
def Claims (v : View) (s : StreamId) (r : Registration) : Prop :=
  v.Registered s r ∨ v.role s = .responding r

/-- **Map, streams and status agree.** -/
structure Consistent (v : View) : Prop where
  mem_iff : ∀ n, (v.agents n).isSome ↔ ∃ s t, v.Registered s ⟨n, t⟩
  latest : ∀ n s, v.agents n = some s → ∃ t, v.Registered s ⟨n, t⟩ ∧
    ∀ s' t', s' ≠ s → v.Registered s' ⟨n, t'⟩ → t' < t
  online_iff : ∀ n, v.online n ↔ (v.agents n).isSome

/-- The status of a node is right without another write by `s`. -/
def Settled (v : View) (s : StreamId) (n : Uuid) : Prop :=
  v.online n → (v.agents n).isSome ∨
    ∃ s', s' ≠ s ∧ (v.role s' = .entering n ∨ v.role s' = .leaving n)

/-- The stored sender of a node is a registered stream that is newer than every other. -/
def StaysLatest (v : View) (s : StreamId) (n : Uuid) : Prop :=
  v.agents n = some s → ∃ t, v.registered s = some ⟨n, t⟩ ∧
    ∀ s' t', s' ≠ s → v.Claims s' ⟨n, t'⟩ → t' < t

end View

def Quiescent (st : State) : Prop := ∀ s, (st.streams s).phase.isQuiet = true

/-- **The orders of steps that are safe.**  A successful Register does not move a
stream away from a node it is stored for.  A failed response leaves the stored
sender registered as the latest.  A cleanup removes and marks a node only while no
other stream has it, and deletes sessions only while none is registered for it.
A status that is not written needs no write. -/
def Safe (st : State) : Action → Prop
  | .respond s ok => ∀ r, (st.streams s).phase = .responding r →
    if ok then ∀ old, (st.streams s).registeredId = some old → old.nodeId ≠ r.nodeId →
      st.agents old.nodeId ≠ some s
    else (view st).StaysLatest s r.nodeId
  | .unregisterAgent s => ∀ n, (st.streams s).phase = .unregistering n →
    ∀ s' t, s' ≠ s → ¬ (view st).Claims s' ⟨n, t⟩
  | .findNode s ok => ∀ n, (st.streams s).phase = .findingNode n → ok = false →
    (view st).Settled s n
  | .markOffline s ok _ => ∀ n, (st.streams s).phase = .markingOffline n →
    if ok then st.agents n = none ∧ ∀ s', (view st).role s' ≠ .entering n
    else (view st).Settled s n
  | .clearSessions s ok => ∀ n, (st.streams s).phase = .clearingSessions n → ok = true →
    ∀ s' t, s' ≠ s → ¬ (view st).Registered s' ⟨n, t⟩
  | _ => True

/-- The Hub before its first stream, with no node marked online. -/
structure Initial (st : State) : Prop where
  agents : ∀ n, st.agents n = none
  streams : ∀ s, (st.streams s).phase = .unopened
  offline : ∀ n, ¬ (view st).online n

/-- The stream whose cleanup takes a step. -/
def Action.cleanup : Action → Option StreamId
  | .disconnect s | .unregisterAgent s | .findNode s _ | .markOffline s _ _ | .clearSessions s _ =>
    some s
  | _ => none

/-- Nothing of a node changes for another stream that is registered for it. -/
def KeepsOthers (s : StreamId) (st st' : State) : Prop :=
  ∀ n, (∃ s' t, s' ≠ s ∧ (view st).Registered s' ⟨n, t⟩) →
    st'.agents n = st.agents n ∧ ((view st).online n → (view st').online n) ∧
      st'.db.clientOnlineSessions.filter (·.nodeId = n) =
        st.db.clientOnlineSessions.filter (·.nodeId = n)

/-! ### Moves of the view -/

/-- The view with another registration and role of one stream. -/
def View.withStream (v : View) (s : StreamId) (registered : Option Registration) (role : Role) :
    View :=
  { v with
    registered := Function.update v.registered s registered
    role := Function.update v.role s role }

/-- What a safe step does to the view. -/
inductive Move (v : View) : View → Prop
  | stay : Move v v
  | opened (s : StreamId) (h : v.role s = .done) : Move v (v.withStream s none .working)
  | enter (s : StreamId) (n : Uuid) (h : v.role s = .working) :
      Move v { v.withStream s (v.registered s) (.entering n) with
        online := Function.update v.online n True }
  | insert (s : StreamId) (n : Uuid) (h : v.role s = .entering n) :
      Move v { v.withStream s (v.registered s) (.responding ⟨n, v.clock⟩) with
        agents := Function.update v.agents n (some s)
        clock := v.clock + 1 }
  | accept (s : StreamId) (r : Registration) (h : v.role s = .responding r)
      (hold : ∀ old, v.registered s = some old → old.nodeId ≠ r.nodeId →
        v.agents old.nodeId ≠ some s) : Move v (v.withStream s (some r) .working)
  | reject (s : StreamId) (r : Registration) (h : v.role s = .responding r)
      (hlatest : v.StaysLatest s r.nodeId) : Move v (v.withStream s (v.registered s) .working)
  | disconnect (s : StreamId) (r : Registration) (h : v.role s = .working)
      (hr : v.registered s = some r) :
      Move v (v.withStream s (some r) (.unregistering r.nodeId))
  | close (s : StreamId) (h : v.role s = .working) (hr : v.registered s = none) :
      Move v (v.withStream s none .done)
  | remove (s : StreamId) (n : Uuid) (h : v.role s = .unregistering n)
      (hnone : ∀ s' t, s' ≠ s → ¬ v.Claims s' ⟨n, t⟩) :
      Move v { v.withStream s (v.registered s) (.leaving n) with
        agents := Function.update v.agents n none }
  | offline (s : StreamId) (n : Uuid) (h : v.role s = .leaving n) (hagents : v.agents n = none)
      (hentering : ∀ s', v.role s' ≠ .entering n) :
      Move v { v.withStream s (v.registered s) .done with
        online := Function.update v.online n False }
  | skip (s : StreamId) (n : Uuid) (h : v.role s = .leaving n) (hsettled : v.Settled s n) :
      Move v (v.withStream s (v.registered s) .done)

/-! ### The invariant -/

namespace View

/-- What holds between steps, too. -/
structure Inv (v : View) : Prop where
  stamp_lt : ∀ s r, v.Claims s r → r.stamp < v.clock
  pending_lt : ∀ s r r', v.role s = .responding r → v.registered s = some r' → r'.stamp < r.stamp
  stored : ∀ n s, v.agents n = some s → v.role s = .unregistering n ∨
    ∃ t, v.Claims s ⟨n, t⟩ ∧ ∀ s' t', s' ≠ s → v.Claims s' ⟨n, t'⟩ → t' < t
  claimed : ∀ s n t, v.Claims s ⟨n, t⟩ → (v.agents n).isSome
  online_of_stored : ∀ n, (v.agents n).isSome → v.online n
  online_of_entering : ∀ s n, v.role s = .entering n → v.online n
  settled : ∀ n, v.online n → (v.agents n).isSome ∨
    ∃ s, v.role s = .entering n ∨ v.role s = .leaving n

variable {v v' : View}

theorem claims_congr {s : StreamId} (hregistered : v'.registered s = v.registered s)
    (hrole : v'.role s = v.role s) (r : Registration) : v'.Claims s r ↔ v.Claims s r := by
  rw [Claims, Claims, Registered, Registered, hregistered, hrole]

theorem not_claims_of_role {s : StreamId} {ρ : Role} (hs : v.role s = ρ) (hopen : ρ.isOpen = false)
    (r : Registration) : ¬ v.Claims s r := by
  subst hs
  rintro (⟨h, _⟩ | h)
  · rw [hopen] at h
    cases h
  · rw [h] at hopen
    cases hopen

/-- A claim of a stream that is not waiting to respond is a registration. -/
theorem Claims.registered {s : StreamId} {r : Registration} (h : v.Claims s r)
    (hrole : ∀ r, v.role s ≠ .responding r) : v.registered s = some r := by
  rcases h with h | h
  · exact h.2
  · exact absurd h (hrole r)

section Give

variable {s : StreamId} {registered : Option Registration} {role : Role}

theorem claims_withStream_of_ne {s' : StreamId} (h : s' ≠ s) (r : Registration) :
    (v.withStream s registered role).Claims s' r ↔ v.Claims s' r :=
  claims_congr (Function.update_of_ne h _ _) (Function.update_of_ne h _ _) r

theorem claims_withStream_self (r : Registration) : (v.withStream s registered role).Claims s r ↔
    (role.isOpen = true ∧ registered = some r) ∨ role = .responding r := by
  simp only [Claims, Registered, withStream, Function.update_self]

theorem Inv.withStream (hi : Inv v)
    (hclaims : ∀ r, (v.withStream s registered role).Claims s r → v.Claims s r)
    (hresponding : ∀ r, role ≠ .responding r) (hentering : ∀ n, role ≠ .entering n)
    (hstored : ∀ n, v.agents n = some s → role = .unregistering n ∨
      ∃ t, (v.withStream s registered role).Claims s ⟨n, t⟩ ∧
        ∀ s' t', s' ≠ s → v.Claims s' ⟨n, t'⟩ → t' < t)
    (hsettled : ∀ n, v.role s = .entering n ∨ v.role s = .leaving n → v.Settled s n) :
    Inv (v.withStream s registered role) := by
  have hsub : ∀ s' r, (v.withStream s registered role).Claims s' r → v.Claims s' r := by
    intro s' r h
    by_cases hs : s' = s
    · subst hs
      exact hclaims r h
    · exact (claims_withStream_of_ne hs r).mp h
  have hrole : ∀ s', s' ≠ s → (v.withStream s registered role).role s' = v.role s' :=
    fun s' h => Function.update_of_ne h _ _
  have hself : (v.withStream s registered role).role s = role := Function.update_self ..
  refine ⟨fun s' r h => hi.stamp_lt s' r (hsub s' r h), fun s' r r' h h' => ?_, fun n s' h => ?_,
    fun s' n t h => hi.claimed s' n t (hsub s' _ h), hi.online_of_stored, fun s' n h => ?_,
    fun n hn => ?_⟩
  · by_cases hs : s' = s
    · subst hs
      rw [hself] at h
      exact absurd h (hresponding r)
    · rw [hrole s' hs] at h
      exact hi.pending_lt s' r r' h ((Function.update_of_ne hs _ _).symm.trans h')
  · by_cases hs : s' = s
    · subst hs
      rcases hstored n h with hunregistering | ⟨t, ht, hlt⟩
      · exact Or.inl (hself.trans hunregistering)
      · exact Or.inr ⟨t, ht, fun s'' t' hne hc => hlt s'' t' hne (hsub s'' _ hc)⟩
    · rcases hi.stored n s' h with hunregistering | ⟨t, ht, hlt⟩
      · exact Or.inl ((hrole s' hs).trans hunregistering)
      · exact Or.inr ⟨t, (claims_withStream_of_ne hs _).mpr ht,
          fun s'' t' hne hc => hlt s'' t' hne (hsub s'' _ hc)⟩
  · by_cases hs : s' = s
    · subst hs
      rw [hself] at h
      exact absurd h (hentering n)
    · exact hi.online_of_entering s' n ((hrole s' hs).symm.trans h)
  · rcases hi.settled n hn with hsome | ⟨s', hs'⟩
    · exact Or.inl hsome
    · by_cases hs : s' = s
      · subst hs
        rcases hsettled n hs' hn with hsome | ⟨s'', hne, h⟩
        · exact Or.inl hsome
        · exact Or.inr ⟨s'', by rw [hrole s'' hne]; exact h⟩
      · exact Or.inr ⟨s', by rw [hrole s' hs]; exact hs'⟩

end Give

/-- A stream that leaves, or is gone, stores no sender. -/
theorem Inv.not_stored (hi : Inv v) {s : StreamId} (hopen : (v.role s).isOpen = false)
    (hrole : ∀ n, v.role s ≠ .unregistering n) (n : Uuid) : v.agents n ≠ some s := by
  intro h
  rcases hi.stored n s h with hunregistering | ⟨t, ht, -⟩
  · exact hrole n hunregistering
  · exact not_claims_of_role rfl hopen _ ht

theorem Inv.opened (hi : Inv v) {s : StreamId} (h : v.role s = .done) :
    Inv (v.withStream s none .working) := by
  refine hi.withStream (fun r hr => ?_) (fun r => nofun) (fun n => nofun) (fun n hn => ?_)
    (fun n hn => ?_)
  · rw [claims_withStream_self] at hr
    rcases hr with ⟨-, hr⟩ | hr <;> cases hr
  · exact absurd hn (hi.not_stored (by rw [h]; rfl) (fun m => by rw [h]; nofun) n)
  · rw [h] at hn
    rcases hn with hn | hn <;> cases hn

theorem Inv.accept (hi : Inv v) {s : StreamId} {r : Registration} (h : v.role s = .responding r)
    (hold : ∀ old, v.registered s = some old → old.nodeId ≠ r.nodeId →
      v.agents old.nodeId ≠ some s) : Inv (v.withStream s (some r) .working) := by
  refine hi.withStream (fun r' hr' => ?_) (fun r => nofun) (fun n => nofun) (fun n hn => ?_)
    (fun n hn => ?_)
  · rw [claims_withStream_self] at hr'
    rcases hr' with ⟨-, hr'⟩ | hr'
    · cases hr'
      exact Or.inr h
    · cases hr'
  · -- The stored sender claims `n` by its old registration or by the one it responds to.
    right
    rcases hi.stored n s hn with hu | ⟨t, ht, hlt⟩
    · rw [h] at hu
      cases hu
    · by_cases hnode : r.nodeId = n
      · subst hnode
        refine ⟨r.stamp, claims_withStream_self _ |>.mpr (Or.inl ⟨rfl, rfl⟩), fun s' t' hne hc => ?_⟩
        have hle : t ≤ r.stamp := by
          rcases ht with ht | ht
          · exact Nat.le_of_lt (hi.pending_lt s r _ h ht.2)
          · rw [h] at ht
            exact Nat.le_of_eq (congrArg Registration.stamp (Role.responding.inj ht)).symm
        exact Nat.lt_of_lt_of_le (hlt s' t' hne hc) hle
      · rcases ht with ht | ht
        · exact absurd hn (hold _ ht.2 (Ne.symm hnode))
        · rw [h] at ht
          cases ht
          exact absurd rfl hnode
  · rw [h] at hn
    rcases hn with hn | hn <;> cases hn

theorem Inv.reject (hi : Inv v) {s : StreamId} {r : Registration} (h : v.role s = .responding r)
    (hlatest : v.StaysLatest s r.nodeId) : Inv (v.withStream s (v.registered s) .working) := by
  have hopen : (v.role s).isOpen = true := by rw [h]; rfl
  refine hi.withStream (fun r' hr' => ?_) (fun r => nofun) (fun n => nofun) (fun n hn => ?_)
    (fun n hn => ?_)
  · rw [claims_withStream_self] at hr'
    rcases hr' with ⟨-, hr'⟩ | hr'
    · exact Or.inl ⟨hopen, hr'⟩
    · cases hr'
  · right
    rcases hi.stored n s hn with hu | ⟨t, ht, hlt⟩
    · rw [h] at hu
      cases hu
    · rcases ht with ht | ht
      · exact ⟨t, claims_withStream_self _ |>.mpr (Or.inl ⟨rfl, ht.2⟩), hlt⟩
      · rw [h] at ht
        cases ht
        obtain ⟨t', ht', hlt'⟩ := hlatest hn
        exact ⟨t', claims_withStream_self _ |>.mpr (Or.inl ⟨rfl, ht'⟩), hlt'⟩
  · rw [h] at hn
    rcases hn with hn | hn <;> cases hn

theorem Inv.disconnect (hi : Inv v) {s : StreamId} {r : Registration} (h : v.role s = .working)
    (hr : v.registered s = some r) : Inv (v.withStream s (some r) (.unregistering r.nodeId)) := by
  refine hi.withStream (fun r' hr' => ?_) (fun r => nofun) (fun n => nofun) (fun n hn => ?_)
    (fun n hn => ?_)
  · rw [claims_withStream_self] at hr'
    rcases hr' with ⟨hopen, -⟩ | hr'
    · cases hopen
    · cases hr'
  · left
    rcases hi.stored n s hn with hu | ⟨t, ht, -⟩
    · rw [h] at hu
      cases hu
    · have hreg := ht.registered (fun r => by rw [h]; nofun)
      rw [hr] at hreg
      cases hreg
      rfl
  · rw [h] at hn
    rcases hn with hn | hn <;> cases hn

theorem Inv.close (hi : Inv v) {s : StreamId} (h : v.role s = .working)
    (hr : v.registered s = none) : Inv (v.withStream s none .done) := by
  refine hi.withStream (fun r' hr' => ?_) (fun r => nofun) (fun n => nofun) (fun n hn => ?_)
    (fun n hn => ?_)
  · rw [claims_withStream_self] at hr'
    rcases hr' with ⟨hopen, -⟩ | hr'
    · cases hopen
    · cases hr'
  · exfalso
    rcases hi.stored n s hn with hu | ⟨t, ht, -⟩
    · rw [h] at hu
      cases hu
    · have hreg := ht.registered (fun r => by rw [h]; nofun)
      rw [hr] at hreg
      cases hreg
  · rw [h] at hn
    rcases hn with hn | hn <;> cases hn

theorem Inv.skip (hi : Inv v) {s : StreamId} {n : Uuid} (h : v.role s = .leaving n)
    (hsettled : v.Settled s n) : Inv (v.withStream s (v.registered s) .done) := by
  refine hi.withStream (fun r' hr' => ?_) (fun r => nofun) (fun n => nofun) (fun m hm => ?_)
    (fun m hm => ?_)
  · rw [claims_withStream_self] at hr'
    rcases hr' with ⟨hopen, -⟩ | hr'
    · cases hopen
    · cases hr'
  · exact absurd hm (hi.not_stored (by rw [h]; rfl) (fun m => by rw [h]; nofun) m)
  · rw [h] at hm
    rcases hm with hm | hm
    · cases hm
    · cases hm
      exact hsettled

theorem role_withStream_of_ne {s s' : StreamId} (h : s' ≠ s) (registered : Option Registration)
    (role : Role) : (v.withStream s registered role).role s' = v.role s' :=
  Function.update_of_ne h _ _

theorem role_withStream_self (s : StreamId) (registered : Option Registration) (role : Role) :
    (v.withStream s registered role).role s = role := Function.update_self ..

theorem registered_withStream_self (v : View) (s : StreamId) (registered : Option Registration)
    (role : Role) : (v.withStream s registered role).registered s = registered :=
  Function.update_self ..

/-- Entering changes no claim and marks the node online. -/
theorem Inv.enter (hi : Inv v) {s : StreamId} {n : Uuid} (h : v.role s = .working) :
    Inv { v.withStream s (v.registered s) (.entering n) with
      online := Function.update v.online n True } := by
  have hrole : ∀ s', s' ≠ s →
      (v.withStream s (v.registered s) (.entering n)).role s' = v.role s' :=
    fun s' hs => role_withStream_of_ne hs _ _
  have hclaims : ∀ s' r, (v.withStream s (v.registered s) (.entering n)).Claims s' r ↔
      v.Claims s' r := by
    intro s' r
    by_cases hs : s' = s
    · subst hs
      rw [claims_withStream_self, Claims, Registered, h]
      simp [Role.isOpen]
    · exact claims_withStream_of_ne hs r
  have honline : ∀ m, v.online m → Function.update v.online n True m := by
    intro m hm
    by_cases hmn : m = n
    · subst hmn
      rw [Function.update_self]
      trivial
    · rwa [Function.update_of_ne hmn]
  have hentering : (v.withStream s (v.registered s) (.entering n)).role s = .entering n :=
    role_withStream_self ..
  refine ⟨fun s' r hc => hi.stamp_lt s' r ((hclaims s' r).mp hc), fun s' r r' hr hr' => ?_,
    fun m s' hm => ?_, fun s' m t hc => hi.claimed s' m t ((hclaims s' _).mp hc),
    fun m hm => honline m (hi.online_of_stored m hm), fun s' m hm => ?_, fun m hm => ?_⟩
  · by_cases hs : s' = s
    · subst hs
      cases hentering.symm.trans hr
    · exact hi.pending_lt s' r r' ((hrole s' hs).symm.trans hr)
        ((Function.update_of_ne hs _ _).symm.trans hr')
  · rcases hi.stored m s' hm with hu | ⟨t, ht, hlt⟩
    · have hs : s' ≠ s := by
        rintro rfl
        rw [h] at hu
        cases hu
      exact Or.inl ((hrole s' hs).trans hu)
    · exact Or.inr ⟨t, (hclaims s' _).mpr ht, fun s'' t' hne hc => hlt s'' t' hne ((hclaims _ _).mp hc)⟩
  · by_cases hs : s' = s
    · subst hs
      cases hentering.symm.trans hm
      change Function.update v.online n True n
      rw [Function.update_self]
      trivial
    · exact honline m (hi.online_of_entering s' m ((hrole s' hs).symm.trans hm))
  · by_cases hmn : m = n
    · subst hmn
      exact Or.inr ⟨s, Or.inl hentering⟩
    · have hm' : v.online m := by
        change Function.update v.online n True m at hm
        rwa [Function.update_of_ne hmn] at hm
      rcases hi.settled m hm' with hsome | ⟨s', hs'⟩
      · exact Or.inl hsome
      · have hs : s' ≠ s := by
          rintro rfl
          rw [h] at hs'
          rcases hs' with hs' | hs' <;> cases hs'
        exact Or.inr ⟨s', hs'.imp (hrole s' hs).trans (hrole s' hs).trans⟩

/-- The inserted sender is newer than every other claim. -/
theorem Inv.insert (hi : Inv v) {s : StreamId} {n : Uuid} (h : v.role s = .entering n) :
    Inv { v.withStream s (v.registered s) (.responding ⟨n, v.clock⟩) with
      agents := Function.update v.agents n (some s)
      clock := v.clock + 1 } := by
  have hrole : ∀ s', s' ≠ s →
      (v.withStream s (v.registered s) (.responding ⟨n, v.clock⟩)).role s' = v.role s' :=
    fun s' hs => role_withStream_of_ne hs _ _
  have hopen : (v.role s).isOpen = true := by rw [h]; rfl
  have hresponding : (v.withStream s (v.registered s) (.responding ⟨n, v.clock⟩)).role s =
      .responding ⟨n, v.clock⟩ := role_withStream_self ..
  -- The claims of before, and the new one.
  have hclaims : ∀ s' r, (v.withStream s (v.registered s) (.responding ⟨n, v.clock⟩)).Claims s' r →
      v.Claims s' r ∨ s' = s ∧ r = ⟨n, v.clock⟩ := by
    intro s' r hc
    by_cases hs : s' = s
    · subst hs
      rcases claims_withStream_self r |>.mp hc with ⟨-, hr⟩ | hr
      · exact Or.inl (Or.inl ⟨hopen, hr⟩)
      · exact Or.inr ⟨rfl, (Role.responding.inj hr).symm⟩
    · exact Or.inl ((claims_withStream_of_ne hs r).mp hc)
  have hkeep : ∀ s' r, v.Claims s' r →
      (v.withStream s (v.registered s) (.responding ⟨n, v.clock⟩)).Claims s' r := by
    intro s' r hc
    by_cases hs : s' = s
    · subst hs
      exact claims_withStream_self r |>.mpr (Or.inl ⟨rfl, hc.registered (fun r => by rw [h]; nofun)⟩)
    · exact (claims_withStream_of_ne hs r).mpr hc
  have hsome : ∀ m, (v.agents m).isSome → (Function.update v.agents n (some s) m).isSome := by
    intro m hm
    by_cases hmn : m = n
    · subst hmn
      rw [Function.update_self]
      rfl
    · rwa [Function.update_of_ne hmn]
  refine ⟨fun s' r hc => ?_, fun s' r r' hr hr' => ?_, fun m s' hm => ?_, fun s' m t hc => ?_,
    fun m hm => ?_, fun s' m hm => ?_, fun m hm => ?_⟩
  · rcases hclaims s' r hc with hc | ⟨-, rfl⟩
    · exact Nat.lt_succ_of_lt (hi.stamp_lt s' r hc)
    · exact Nat.lt_succ_self _
  · by_cases hs : s' = s
    · subst hs
      cases hresponding.symm.trans hr
      have hreg : v.registered s' = some r' :=
        (registered_withStream_self v s' _ (.responding ⟨n, v.clock⟩)).symm.trans hr'
      exact hi.stamp_lt s' r' (Or.inl ⟨hopen, hreg⟩)
    · exact hi.pending_lt s' r r' ((hrole s' hs).symm.trans hr)
        ((Function.update_of_ne hs _ _).symm.trans hr')
  · by_cases hmn : m = n
    · subst hmn
      cases (Function.update_self ..).symm.trans hm
      refine Or.inr ⟨v.clock, Or.inr hresponding, fun s'' t' hne hc => ?_⟩
      rcases hclaims s'' _ hc with hc | ⟨rfl, -⟩
      · exact hi.stamp_lt s'' _ hc
      · exact absurd rfl hne
    · rcases hi.stored m s' ((Function.update_of_ne hmn _ _).symm.trans hm) with hu | ⟨t, ht, hlt⟩
      · have hs : s' ≠ s := by
          rintro rfl
          rw [h] at hu
          cases hu
        exact Or.inl ((hrole s' hs).trans hu)
      · refine Or.inr ⟨t, hkeep s' _ ht, fun s'' t' hne hc => ?_⟩
        rcases hclaims s'' _ hc with hc | ⟨-, hr⟩
        · exact hlt s'' t' hne hc
        · exact absurd (congrArg Registration.nodeId hr) hmn
  · rcases hclaims s' _ hc with hc | ⟨-, hr⟩
    · exact hsome m (hi.claimed s' m t hc)
    · cases hr
      change (Function.update v.agents n (some s) n).isSome
      rw [Function.update_self]
      rfl
  · by_cases hmn : m = n
    · subst hmn
      exact hi.online_of_entering s m h
    · exact hi.online_of_stored m (by rwa [← Function.update_of_ne hmn (some s) v.agents])
  · by_cases hs : s' = s
    · subst hs
      cases hresponding.symm.trans hm
    · exact hi.online_of_entering s' m ((hrole s' hs).symm.trans hm)
  · rcases hi.settled m hm with hstored | ⟨s', hs'⟩
    · exact Or.inl (hsome m hstored)
    · by_cases hs : s' = s
      · subst hs
        rw [h] at hs'
        rcases hs' with hs' | hs'
        · cases hs'
          left
          change (Function.update v.agents n (some s') n).isSome
          rw [Function.update_self]
          rfl
        · cases hs'
      · exact Or.inr ⟨s', hs'.imp (hrole s' hs).trans (hrole s' hs).trans⟩

/-- A removal leaves no claim behind. -/
theorem Inv.remove (hi : Inv v) {s : StreamId} {n : Uuid} (h : v.role s = .unregistering n)
    (hnone : ∀ s' t, s' ≠ s → ¬ v.Claims s' ⟨n, t⟩) :
    Inv { v.withStream s (v.registered s) (.leaving n) with
      agents := Function.update v.agents n none } := by
  have hrole : ∀ s', s' ≠ s →
      (v.withStream s (v.registered s) (.leaving n)).role s' = v.role s' :=
    fun s' hs => role_withStream_of_ne hs _ _
  have hleaving : (v.withStream s (v.registered s) (.leaving n)).role s = .leaving n :=
    role_withStream_self ..
  have hself : ∀ r, ¬ v.Claims s r := not_claims_of_role h rfl
  have hclaims : ∀ s' r, (v.withStream s (v.registered s) (.leaving n)).Claims s' r ↔
      v.Claims s' r := by
    intro s' r
    by_cases hs : s' = s
    · subst hs
      exact iff_of_false (not_claims_of_role hleaving rfl r) (hself r)
    · exact claims_withStream_of_ne hs r
  have hstored : ∀ m, (Function.update v.agents n none m).isSome → m ≠ n ∧ (v.agents m).isSome := by
    intro m hm
    by_cases hmn : m = n
    · subst hmn
      rw [Function.update_self] at hm
      cases hm
    · rw [Function.update_of_ne hmn] at hm
      exact ⟨hmn, hm⟩
  refine ⟨fun s' r hc => hi.stamp_lt s' r ((hclaims s' r).mp hc), fun s' r r' hr hr' => ?_,
    fun m s' hm => ?_, fun s' m t hc => ?_, fun m hm => hi.online_of_stored m (hstored m hm).2,
    fun s' m hm => ?_, fun m hm => ?_⟩
  · by_cases hs : s' = s
    · subst hs
      cases hleaving.symm.trans hr
    · exact hi.pending_lt s' r r' ((hrole s' hs).symm.trans hr)
        ((Function.update_of_ne hs _ _).symm.trans hr')
  · obtain ⟨hmn, -⟩ := hstored m (by rw [show Function.update v.agents n none m = some s' from hm]; rfl)
    rcases hi.stored m s' ((Function.update_of_ne hmn _ _).symm.trans hm) with hu | ⟨t, ht, hlt⟩
    · have hs : s' ≠ s := by
        rintro rfl
        rw [h] at hu
        exact hmn (Role.unregistering.inj hu).symm
      exact Or.inl ((hrole s' hs).trans hu)
    · exact Or.inr ⟨t, (hclaims s' _).mpr ht, fun s'' t' hne hc => hlt s'' t' hne ((hclaims _ _).mp hc)⟩
  · have hc' := (hclaims s' _).mp hc
    have hs : s' ≠ s := by
      rintro rfl
      exact hself _ hc'
    have hmn : m ≠ n := by
      rintro rfl
      exact hnone s' t hs hc'
    change (Function.update v.agents n none m).isSome
    rw [Function.update_of_ne hmn]
    exact hi.claimed s' m t hc'
  · by_cases hs : s' = s
    · subst hs
      cases hleaving.symm.trans hm
    · exact hi.online_of_entering s' m ((hrole s' hs).symm.trans hm)
  · by_cases hmn : m = n
    · subst hmn
      exact Or.inr ⟨s, Or.inr hleaving⟩
    · rcases hi.settled m hm with hsome | ⟨s', hs'⟩
      · left
        change (Function.update v.agents n none m).isSome
        rwa [Function.update_of_ne hmn]
      · have hs : s' ≠ s := by
          rintro rfl
          rw [h] at hs'
          rcases hs' with hs' | hs' <;> cases hs'
        exact Or.inr ⟨s', hs'.imp (hrole s' hs).trans (hrole s' hs).trans⟩

/-- The status of a node that nobody has. -/
theorem Inv.offline (hi : Inv v) {s : StreamId} {n : Uuid} (h : v.role s = .leaving n)
    (hagents : v.agents n = none) (hentering : ∀ s', v.role s' ≠ .entering n) :
    Inv { v.withStream s (v.registered s) .done with
      online := Function.update v.online n False } := by
  have hrole : ∀ s', s' ≠ s →
      (v.withStream s (v.registered s) .done).role s' = v.role s' :=
    fun s' hs => role_withStream_of_ne hs _ _
  have hdone : (v.withStream s (v.registered s) .done).role s = .done := role_withStream_self ..
  have hclaims : ∀ s' r, (v.withStream s (v.registered s) .done).Claims s' r ↔ v.Claims s' r := by
    intro s' r
    by_cases hs : s' = s
    · subst hs
      exact iff_of_false (not_claims_of_role hdone rfl r) (not_claims_of_role h rfl r)
    · exact claims_withStream_of_ne hs r
  have honline : ∀ m, m ≠ n → v.online m → Function.update v.online n False m := by
    intro m hmn hm
    rwa [Function.update_of_ne hmn]
  refine ⟨fun s' r hc => hi.stamp_lt s' r ((hclaims s' r).mp hc), fun s' r r' hr hr' => ?_,
    fun m s' hm => ?_, fun s' m t hc => hi.claimed s' m t ((hclaims s' _).mp hc), fun m hm => ?_,
    fun s' m hm => ?_, fun m hm => ?_⟩
  · by_cases hs : s' = s
    · subst hs
      cases hdone.symm.trans hr
    · exact hi.pending_lt s' r r' ((hrole s' hs).symm.trans hr)
        ((Function.update_of_ne hs _ _).symm.trans hr')
  · rcases hi.stored m s' hm with hu | ⟨t, ht, hlt⟩
    · have hs : s' ≠ s := by
        rintro rfl
        rw [h] at hu
        cases hu
      exact Or.inl ((hrole s' hs).trans hu)
    · exact Or.inr ⟨t, (hclaims s' _).mpr ht, fun s'' t' hne hc => hlt s'' t' hne ((hclaims _ _).mp hc)⟩
  · refine honline m ?_ (hi.online_of_stored m hm)
    rintro rfl
    change (v.agents m).isSome at hm
    rw [hagents] at hm
    cases hm
  · have hs : s' ≠ s := by
      rintro rfl
      cases hdone.symm.trans hm
    have hrole := (hrole s' hs).symm.trans hm
    refine honline m ?_ (hi.online_of_entering s' m hrole)
    rintro rfl
    exact hentering s' hrole
  · have hmn : m ≠ n := by
      rintro rfl
      change Function.update v.online m False m at hm
      rw [Function.update_self] at hm
      exact hm
    have hm' : v.online m := by
      change Function.update v.online n False m at hm
      rwa [Function.update_of_ne hmn] at hm
    rcases hi.settled m hm' with hsome | ⟨s', hs'⟩
    · exact Or.inl hsome
    · have hs : s' ≠ s := by
        rintro rfl
        rw [h] at hs'
        rcases hs' with hs' | hs'
        · cases hs'
        · exact hmn (Role.leaving.inj hs').symm
      exact Or.inr ⟨s', hs'.imp (hrole s' hs).trans (hrole s' hs).trans⟩

/-- **Every safe move keeps the invariant.** -/
theorem Inv.move (hi : Inv v) (h : Move v v') : Inv v' := by
  cases h with
  | stay => exact hi
  | opened s h => exact hi.opened h
  | enter s n h => exact hi.enter h
  | insert s n h => exact hi.insert h
  | accept s r h hold => exact hi.accept h hold
  | reject s r h hlatest => exact hi.reject h hlatest
  | disconnect s r h hr => exact hi.disconnect h hr
  | close s h hr => exact hi.close h hr
  | remove s n h hnone => exact hi.remove h hnone
  | offline s n h hagents hentering => exact hi.offline h hagents hentering
  | skip s n h hsettled => exact hi.skip h hsettled

/-- Between messages the invariant is consistency. -/
theorem Inv.consistent (hi : Inv v) (hquiet : ∀ s, v.role s = .working ∨ v.role s = .done) :
    Consistent v := by
  have hclaims : ∀ s r, v.Claims s r ↔ v.Registered s r := by
    intro s r
    refine or_iff_left fun h => ?_
    rcases hquiet s with hw | hw <;> rw [h] at hw <;> cases hw
  have hlatest : ∀ n s, v.agents n = some s → ∃ t, v.Registered s ⟨n, t⟩ ∧
      ∀ s' t', s' ≠ s → v.Registered s' ⟨n, t'⟩ → t' < t := by
    intro n s hn
    rcases hi.stored n s hn with hu | ⟨t, ht, hlt⟩
    · rcases hquiet s with hw | hw <;> rw [hu] at hw <;> cases hw
    · exact ⟨t, (hclaims s _).mp ht, fun s' t' hne hr => hlt s' t' hne ((hclaims s' _).mpr hr)⟩
  refine ⟨fun n => ⟨fun hn => ?_, ?_⟩, hlatest, fun n => ⟨fun hn => ?_, hi.online_of_stored n⟩⟩
  · obtain ⟨s, hs⟩ := Option.isSome_iff_exists.mp hn
    obtain ⟨t, ht, -⟩ := hlatest n s hs
    exact ⟨s, t, ht⟩
  · rintro ⟨s, t, h⟩
    exact hi.claimed s n t ((hclaims s _).mpr h)
  · rcases hi.settled n hn with hsome | ⟨s, hs⟩
    · exact hsome
    · rcases hquiet s with hw | hw <;> rw [hw] at hs <;> rcases hs with hs | hs <;> cases hs

end View

/-! ### Steps are moves -/

theorem view_put (st : State) (s : StreamId) (stream : Stream) :
    view (st.put s stream) = (view st).withStream s stream.registeredId stream.phase.role := by
  have hregistered : (fun s' => (Function.update st.streams s stream s').registeredId) =
      Function.update (view st).registered s stream.registeredId := by
    funext s'
    by_cases h : s' = s
    · subst h
      rw [Function.update_self, Function.update_self]
    · rw [Function.update_of_ne h, Function.update_of_ne h]
      rfl
  have hrole : (fun s' => (Function.update st.streams s stream s').phase.role) =
      Function.update (view st).role s stream.phase.role := by
    funext s'
    by_cases h : s' = s
    · subst h
      rw [Function.update_self, Function.update_self]
    · rw [Function.update_of_ne h, Function.update_of_ne h]
      rfl
  exact View.mk.injEq .. |>.mpr ⟨rfl, rfl, hregistered, hrole, rfl⟩

theorem view_setPhase (st : State) (s : StreamId) (phase : Phase) :
    view (st.setPhase s phase) = (view st).withStream s ((view st).registered s) phase.role :=
  view_put st s _

/-- A phase with the same role is no move. -/
theorem move_setPhase {st : State} {s : StreamId} {phase phase' : Phase}
    (hphase : (st.streams s).phase = phase) (hrole : phase'.role = phase.role) :
    Move (view st) (view (st.setPhase s phase')) := by
  have hsame : (view st).role s = phase'.role := (congrArg Phase.role hphase).trans hrole.symm
  rw [view_setPhase, ← hsame, View.withStream, Function.update_eq_self, Function.update_eq_self]
  exact .stay

/-- The status of the nodes after a write of one of them. -/
theorem online_setNodes {st : State} {n : Uuid} {f : Node → Node} (hf : ∀ row, (f row).id = row.id)
    (status : String) (hstatus : ∀ row, (f row).status = status) (m : Uuid) :
    (view (st.setNodes (st.db.nodes.update n f))).online m ↔
      if m = n then (st.db.nodes.find n).isSome ∧ status = "online" else (view st).online m := by
  change ((st.db.nodes.update n f).find m).map (·.status) = some "online" ↔ _
  by_cases h : m = n
  · subst h
    rw [if_pos rfl, Table.find_update_self hf, Option.map_map]
    cases st.db.nodes.find m with
    | none => simp
    | some row => simp [hstatus]
  · rw [if_neg h, Table.find_update_of_ne h]
    rfl

theorem role_view {st : State} {s : StreamId} {phase : Phase} (h : (st.streams s).phase = phase) :
    (view st).role s = phase.role := congrArg Phase.role h

/-- **Every safe step is a move of the view.** -/
theorem move_of_step {st st' : State} {a : Action} (hsafe : Safe st a) (h : step st a = some st') :
    Move (view st) (view st') := by
  cases a with
  | openStream s remoteAddr =>
    simp only [step] at h
    split at h
    · rename_i hphase
      cases h
      rw [view_put]
      exact .opened s (role_view hphase)
    · cases h
  | register s req =>
    simp only [step] at h
    split at h
    · rename_i hphase
      split at h <;> cases h
      · exact move_setPhase hphase rfl
      · exact .stay
    · cases h
  | lookUp s ok =>
    simp only [step] at h
    split at h
    · rename_i hphase
      split at h
      · split at h <;> cases h <;> exact move_setPhase hphase rfl
      · cases h
        exact move_setPhase hphase rfl
    · cases h
  | verify s ok =>
    simp only [step] at h
    split at h
    · rename_i hphase
      cases h
      exact move_setPhase hphase (by cases ok <;> rfl)
    · cases h
  | updateNode s ok now =>
    simp only [step] at h
    split at h
    · rename_i node req hphase
      split at h
      · rename_i hrow
        cases h
        rw [view_setPhase]
        have hview : view (st.setNodes (st.db.nodes.update node.id
            (registeredRow req (st.streams s).remoteAddr now))) =
            { view st with online := Function.update (view st).online node.id True } := by
          refine View.mk.injEq .. |>.mpr ⟨rfl, funext fun m => propext ?_, rfl, rfl, rfl⟩
          refine (online_setNodes (f := registeredRow req (st.streams s).remoteAddr now)
            (fun _ => rfl) "online" (fun _ => rfl) m).trans ?_
          by_cases hm : m = node.id
          · subst hm
            simp [hrow.2]
          · rw [if_neg hm, Function.update_of_ne hm]
        rw [hview]
        exact .enter s node.id (role_view hphase)
      · cases h
        exact move_setPhase hphase rfl
    · cases h
  | registerAgent s =>
    simp only [step] at h
    split at h
    · rename_i n hphase
      cases h
      have hview := view_setPhase st s (.responding ⟨n, st.clock⟩)
      have hmove := Move.insert (v := view st) s n (role_view hphase)
      rw [show (view st).clock = st.clock from rfl, ← show Phase.role (.responding ⟨n, st.clock⟩) =
        Role.responding ⟨n, st.clock⟩ from rfl, ← hview] at hmove
      exact hmove
    · cases h
  | respond s ok =>
    simp only [step] at h
    split at h
    · rename_i r hphase
      have hs := hsafe r hphase
      cases ok with
      | true =>
        cases h
        rw [view_put]
        exact .accept s r (role_view hphase) hs
      | false =>
        cases h
        rw [view_setPhase]
        exact .reject s r (role_view hphase) hs
    · cases h
  | onlineUser s session =>
    simp only [step] at h
    split at h
    · split at h
      · obtain ⟨sessions, -, rfl⟩ := Option.map_eq_some_iff.mp h
        exact .stay
      · cases h
    · cases h
  | disconnect s =>
    simp only [step] at h
    split at h
    · rename_i hphase
      split at h
      · rename_i r hr
        cases h
        rw [view_setPhase]
        have hreg : (view st).registered s = some r := hr
        rw [hreg]
        exact .disconnect s r (role_view hphase) hreg
      · rename_i hr
        cases h
        rw [view_setPhase]
        have hreg : (view st).registered s = none := hr
        rw [hreg]
        exact .close s (role_view hphase) hreg
    · cases h
  | unregisterAgent s =>
    simp only [step] at h
    split at h
    · rename_i n hphase
      cases h
      have hview := view_setPhase st s (.findingNode n)
      have hmove := Move.remove (v := view st) s n (role_view hphase) (hsafe n hphase)
      rw [← show Phase.role (.findingNode n) = Role.leaving n from rfl, ← hview] at hmove
      exact hmove
    · cases h
  | findNode s ok =>
    simp only [step] at h
    split at h
    · rename_i n hphase
      split at h
      · cases h
        exact move_setPhase hphase rfl
      · rename_i hnone
        cases h
        rw [view_setPhase]
        refine .skip s n (role_view hphase) ?_
        cases ok with
        | false => exact hsafe n hphase rfl
        | true =>
          intro honline
          have hrow : st.db.nodes.find n = none := hnone
          change (st.db.nodes.find n).map (·.status) = some "online" at honline
          rw [hrow] at honline
          cases honline
    · cases h
  | markOffline s ok now =>
    simp only [step] at h
    split at h
    · rename_i n hphase
      have hs := hsafe n hphase
      cases h
      rw [view_setPhase]
      cases ok with
      | true =>
        have hview : view (st.setNodes (st.db.nodes.update n fun row =>
            { row with status := "offline", updatedAt := now })) =
            { view st with online := Function.update (view st).online n False } := by
          refine View.mk.injEq .. |>.mpr ⟨rfl, funext fun m => propext ?_, rfl, rfl, rfl⟩
          refine (online_setNodes (f := fun row => { row with status := "offline", updatedAt := now })
            (fun _ => rfl) "offline" (fun _ => rfl) m).trans ?_
          by_cases hm : m = n
          · subst hm
            simp
          · rw [if_neg hm, Function.update_of_ne hm]
        rw [if_pos rfl, hview]
        exact .offline s n (role_view hphase) hs.1 hs.2
      | false => exact .skip s n (role_view hphase) hs
    · cases h
  | clearSessions s ok =>
    simp only [step] at h
    split at h
    · rename_i n hphase
      cases h
      exact move_setPhase hphase rfl
    · cases h

/-! ### Runs -/

theorem Initial.inv {st : State} (h : Initial st) : (view st).Inv := by
  have hrole : ∀ s, (view st).role s = .done := fun s => role_view (h.streams s)
  have hclaims : ∀ s r, ¬ (view st).Claims s r :=
    fun s r => View.not_claims_of_role (hrole s) rfl r
  refine ⟨fun s r hc => absurd hc (hclaims s r), fun s r r' hr => ?_, fun n s hn => ?_,
    fun s n t hc => absurd hc (hclaims s _), fun n hn => ?_, fun s n hn => ?_,
    fun n hn => absurd hn (h.offline n)⟩
  · cases (hrole s).symm.trans hr
  · cases (h.agents n).symm.trans hn
  · rw [show (view st).agents n = none from h.agents n] at hn
    cases hn
  · cases (hrole s).symm.trans hn

theorem Quiescent.role {st : State} (h : Quiescent st) (s : StreamId) :
    (view st).role s = .working ∨ (view st).role s = .done := by
  have hs := h s
  change (st.streams s).phase.role = .working ∨ (st.streams s).phase.role = .done
  cases hphase : (st.streams s).phase <;> rw [hphase] at hs <;>
    first | exact Or.inl rfl | exact Or.inr rfl | cases hs

/-- A safe step of a cleanup keeps what another registered stream of the node has. -/
theorem keepsOthers_of_step {st st' : State} {a : Action} {s : StreamId} (hi : (view st).Inv)
    (hsafe : Safe st a) (hcleanup : a.cleanup = some s) (h : step st a = some st') :
    KeepsOthers s st st' := by
  rintro n ⟨s', t, hne, hs'⟩
  have hclaim : (view st).Claims s' ⟨n, t⟩ := Or.inl hs'
  cases a with
  | disconnect s₀ =>
    cases hcleanup
    simp only [step] at h
    split at h
    · split at h <;> cases h <;> exact ⟨rfl, id, rfl⟩
    · cases h
  | unregisterAgent s₀ =>
    cases hcleanup
    simp only [step] at h
    split at h
    · rename_i m hphase
      have hnm : n ≠ m := by
        rintro rfl
        exact hsafe n hphase s' t hne hclaim
      cases h
      exact ⟨Function.update_of_ne hnm _ _, id, rfl⟩
    · cases h
  | findNode s₀ ok =>
    cases hcleanup
    simp only [step] at h
    split at h
    · split at h <;> cases h <;> exact ⟨rfl, id, rfl⟩
    · cases h
  | markOffline s₀ ok now =>
    cases hcleanup
    simp only [step] at h
    split at h
    · rename_i m hphase
      have hs := hsafe m hphase
      cases h
      refine ⟨rfl, fun honline => ?_, rfl⟩
      cases ok with
      | false => exact honline
      | true =>
        have hnm : n ≠ m := by
          rintro rfl
          have hstored := hi.claimed s' n t hclaim
          rw [show (view st).agents n = none from hs.1] at hstored
          cases hstored
        refine (online_setNodes (f := fun row => { row with status := "offline", updatedAt := now })
          (fun _ => rfl) "offline" (fun _ => rfl) n).mpr ?_
        rwa [if_neg hnm]
    · cases h
  | clearSessions s₀ ok =>
    cases hcleanup
    simp only [step] at h
    split at h
    · rename_i m hphase
      have hs := hsafe m hphase
      cases h
      refine ⟨rfl, id, ?_⟩
      cases ok with
      | false => rfl
      | true =>
        have hnm : n ≠ m := by
          rintro rfl
          exact hs rfl s' t hne hs'
        change (st.db.clientOnlineSessions.deleteWhere (·.nodeId = m)).filter (·.nodeId = n) = _
        rw [Table.filter_deleteWhere, List.filter_eq_self]
        intro session hsession
        have hnode : session.nodeId = n := by simpa using (Table.mem_filter.mp hsession).2
        simp [hnode, hnm]
    · cases h
  | _ => cases hcleanup

/-- **Registration over runs.**  In every run of safe steps the map, the streams and
the status of the nodes agree between messages, and the cleanup of a stream keeps
what another registered stream of the node has. -/
theorem consistent_of_guarded {st st' : State} {as : List Action} (hinit : Initial st)
    (hok : Run.Guarded step Safe st as) (hrun : Run.run step st as = some st') :
    (Quiescent st' → (view st').Consistent) ∧
      ∀ a s st'', a.cleanup = some s → Safe st' a → step st' a = some st'' →
        KeepsOthers s st' st'' := by
  have hi : (view st').Inv := Run.inv_of_guarded
    (fun st a st' hi hsafe h => View.Inv.move hi (move_of_step hsafe h)) hinit.inv hok hrun
  exact ⟨fun hquiet => hi.consistent hquiet.role,
    fun a s st'' hcleanup hsafe h => keepsOthers_of_step hi hsafe hcleanup h⟩

/-! ### A reconnect -/

/-- The stream that takes a step. -/
def Action.stream : Action → StreamId
  | .openStream s _ | .register s _ | .lookUp s _ | .verify s _ | .updateNode s _ _
  | .registerAgent s | .respond s _ | .onlineUser s _ | .disconnect s | .unregisterAgent s
  | .findNode s _ | .markOffline s _ _ | .clearSessions s _ => s

/-- A step changes no other stream. -/
theorem streams_of_step {st st' : State} {a : Action} {s : StreamId} (hs : s ≠ a.stream)
    (h : step st a = some st') : st'.streams s = st.streams s := by
  have hput : ∀ (st : State) stream, (st.put a.stream stream).streams s = st.streams s :=
    fun st stream => Function.update_of_ne hs _ _
  cases a with
  | onlineUser s₀ session =>
    simp only [step] at h
    split at h
    · split at h
      · obtain ⟨sessions, -, rfl⟩ := Option.map_eq_some_iff.mp h
        rfl
      · cases h
    · cases h
  | _ =>
    simp only [step] at h
    repeat' split at h
    all_goals cases h
    all_goals first | rfl | exact hput _ _

theorem streams_of_run {st st' : State} {as : List Action} {s : StreamId}
    (hs : ∀ a ∈ as, s ≠ a.stream) (h : Run.run step st as = some st') :
    st'.streams s = st.streams s := by
  induction as generalizing st with
  | nil => cases h; rfl
  | cons a as ih =>
    obtain ⟨t, ht, htail⟩ := Option.bind_eq_some_iff.mp h
    rw [ih (fun b hb => hs b (List.mem_cons_of_mem a hb)) htail]
    exact streams_of_step (hs a List.mem_cons_self) ht

namespace Reconnect

def node : Node where
  id := .ofNat 1
  name := "node"
  hostname := "node"
  address := "192.0.2.1"
  domain := none
  tokenHash := "hash"
  coresAvailable := .null
  usageCoefficient := 0x3f800000
  status := "connecting"
  parentId := none
  lastSeenAt := none
  updatedAt := default

def initial : State where
  db := { nodes := .single node }
  agents _ := none
  streams _ := ⟨none, none, .unopened⟩
  clock := 0

def request : RegisterRequest where
  agentId := "00000000-0000-0000-0000-000000000001"
  token := "token"
  hostname := "node"
  capabilities := ["sing-box"]
  domain := ""

/-- A stream opens and its Register succeeds. -/
def registers (s : StreamId) : List Action :=
  [.openStream s (some "192.0.2.1"), .register s request, .lookUp s true, .verify s true,
    .updateNode s true default, .registerAgent s, .respond s true]

/-- A stream ends and its cleanup succeeds. -/
def ends (s : StreamId) : List Action :=
  [.disconnect s, .unregisterAgent s, .findNode s true, .markOffline s true default,
    .clearSessions s true]

theorem initial_initial : Initial initial := by
  refine ⟨fun _ => rfl, fun _ => rfl, fun n hn => ?_⟩
  obtain ⟨row, hrow, hstatus⟩ := Option.map_eq_some_iff.mp hn
  have hmem := Table.mem_of_find hrow
  rw [show initial.db.nodes.rows = [node] from rfl, List.mem_singleton] at hmem
  subst hmem
  exact absurd hstatus (by decide)

/-- The node reconnects before the cleanup of its old stream has run. -/
def reconnects : List Action := registers 1 ++ registers 2 ++ ends 1

/-- A run of the streams 1 and 2 that leaves them between messages. -/
theorem quiescent_of_run {st : State} {as : List Action}
    (hstreams : ∀ a ∈ as, a.stream = 1 ∨ a.stream = 2) (h : Run.run step initial as = some st)
    (h₁ : (st.streams 1).phase.isQuiet = true) (h₂ : (st.streams 2).phase.isQuiet = true) :
    Quiescent st := by
  intro s
  by_cases hs₁ : s = 1
  · rw [hs₁, h₁]
  by_cases hs₂ : s = 2
  · rw [hs₂, h₂]
  have hother : ∀ a ∈ as, s ≠ a.stream := by
    intro a ha
    rcases hstreams a ha with hstream | hstream <;> rw [hstream] <;> assumption
  rw [streams_of_run hother h]
  rfl

theorem exists_run : ∃ st, Run.run step initial reconnects = some st ∧ Quiescent st ∧
    st.agents node.id = none ∧ ∃ t, (view st).Registered 2 ⟨node.id, t⟩ := by
  have hphases : (Run.run step initial reconnects).map (fun st => ((st.streams 1).phase.isQuiet,
      (st.streams 2).phase.isQuiet, (st.streams 2).phase.role.isOpen)) = some (true, true, true) := by
    decide
  have hagents : (Run.run step initial reconnects).bind (fun st => st.agents node.id) = none := by
    decide
  have hregistered : (Run.run step initial reconnects).bind (fun st =>
      (st.streams 2).registeredId.map (·.nodeId)) = some node.id := by
    decide
  obtain ⟨st, hst, hphases⟩ := Option.map_eq_some_iff.mp hphases
  rw [hst] at hagents hregistered
  obtain ⟨⟨n, t⟩, hr, hn⟩ := Option.map_eq_some_iff.mp hregistered
  cases hn
  obtain ⟨hquiet₁, hquiet₂, hopen⟩ : _ ∧ _ ∧ _ := by simpa using hphases
  exact ⟨st, hst, quiescent_of_run (by simp [reconnects, registers, ends, Action.stream]) hst
    hquiet₁ hquiet₂, hagents, t, hopen, hr⟩

end Reconnect

/-- **The cleanup of the old stream removes the new registration.** -/
theorem reconnect_not_consistent : ∃ st,
    Run.run step Reconnect.initial Reconnect.reconnects = some st ∧ Initial Reconnect.initial ∧
      Quiescent st ∧ ¬ (view st).Consistent := by
  obtain ⟨st, hst, hquiet, hagents, t, hregistered⟩ := Reconnect.exists_run
  refine ⟨st, hst, Reconnect.initial_initial, hquiet, fun h => ?_⟩
  have hstored := (h.mem_iff Reconnect.node.id).mpr ⟨2, t, hregistered⟩
  rw [show (view st).agents Reconnect.node.id = none from hagents] at hstored
  cases hstored

namespace Reconnect

/-- The node registers, its stream ends with its whole cleanup, and the node registers again. -/
def returns : List Action := registers 1 ++ ends 1 ++ registers 2

/-- Only the streams 1 and 2 have been opened. -/
def OnlyTwo (st : State) : Prop := ∀ s, s ≠ 1 → s ≠ 2 → (st.streams s).phase = .unopened

def isUnopened : Phase → Bool
  | .unopened => true
  | _ => false

/-- Every await succeeds, a stream registers once, and stream 1 cleans up while stream 2 is
not open yet. -/
def check (st : State) (a : Action) : Bool :=
  (a.stream == 1 || a.stream == 2) &&
  match a with
  | .respond s ok => ok && (st.streams s).registeredId.isNone
  | .findNode _ ok => ok
  | .unregisterAgent s | .clearSessions s _ => s == 1 && isUnopened (st.streams 2).phase
  | .markOffline s ok _ =>
    s == 1 && ok && isUnopened (st.streams 2).phase &&
      match (st.streams s).phase with
      | .markingOffline n => (st.agents n).isNone
      | _ => true
  | _ => true

theorem eq_of_isUnopened {phase : Phase} (h : isUnopened phase = true) : phase = .unopened := by
  cases phase <;> first | rfl | cases h

/-- While stream 2 is not open, no stream but stream 1 has anything. -/
theorem role_of_onlyTwo {st : State} (hst : OnlyTwo st)
    (h : isUnopened (st.streams 2).phase = true) {s : StreamId} (hs : s ≠ 1) :
    (view st).role s = .done := by
  have hphase : (st.streams s).phase = .unopened := by
    by_cases h₂ : s = 2
    · rw [h₂, eq_of_isUnopened h]
    · exact hst s hs h₂
  change (st.streams s).phase.role = .done
  rw [hphase]
  rfl

theorem safe_of_check {st : State} {a : Action} (hst : OnlyTwo st) (h : check st a = true) :
    Safe st a := by
  have h := (Bool.and_eq_true_iff.mp h).2
  cases a with
  | respond s ok =>
    obtain ⟨rfl, hnone⟩ : ok = true ∧ (st.streams s).registeredId = none := by simpa using h
    intro r _ old hold
    rw [hnone] at hold
    cases hold
  | findNode s ok =>
    intro n _ hok
    rw [show ok = true from h] at hok
    cases hok
  | unregisterAgent s =>
    obtain ⟨rfl, hunopened⟩ : s = 1 ∧ isUnopened (st.streams 2).phase = true := by simpa using h
    intro n _ s' t hs
    exact View.not_claims_of_role (role_of_onlyTwo hst hunopened hs) rfl _
  | clearSessions s ok =>
    obtain ⟨rfl, hunopened⟩ : s = 1 ∧ isUnopened (st.streams 2).phase = true := by simpa using h
    intro n _ _ s' t hs hregistered
    exact View.not_claims_of_role (role_of_onlyTwo hst hunopened hs) rfl _ (Or.inl hregistered)
  | markOffline s ok now =>
    simp only [Bool.and_eq_true, beq_iff_eq] at h
    obtain ⟨⟨⟨rfl, rfl⟩, hunopened⟩, hnone⟩ := h
    intro n hphase
    rw [hphase] at hnone
    refine ⟨Option.isNone_iff_eq_none.mp hnone, fun s' hentering => ?_⟩
    by_cases hs : s' = 1
    · subst hs
      change (st.streams 1).phase.role = .entering n at hentering
      rw [hphase] at hentering
      cases hentering
    · rw [role_of_onlyTwo hst hunopened hs] at hentering
      cases hentering
  | _ => trivial

theorem onlyTwo_of_step {st st' : State} {a : Action} (hst : OnlyTwo st)
    (hcheck : check st a = true) (h : step st a = some st') : OnlyTwo st' := by
  have hstream : a.stream = 1 ∨ a.stream = 2 := by
    simpa using (Bool.and_eq_true_iff.mp hcheck).1
  intro s h₁ h₂
  have hs : s ≠ a.stream := by
    rcases hstream with ha | ha <;> rw [ha] <;> assumption
  rw [streams_of_step hs h]
  exact hst s h₁ h₂

theorem onlyTwo_initial : OnlyTwo initial := fun s _ _ => initial_initial.streams s

theorem exists_returned : Run.Guarded step Safe initial returns ∧
    ∃ st, Run.run step initial returns = some st :=
  Run.guarded_of_checked (fun _ _ => safe_of_check) (fun _ _ _ => onlyTwo_of_step)
    onlyTwo_initial (by decide)

end Reconnect

/-- The node that returns after the cleanup of its old stream is stored with its new one. -/
theorem consistent_of_guarded_returns : ∃ st',
    Run.run step Reconnect.initial Reconnect.returns = some st' ∧
      st'.agents Reconnect.node.id = some 2 ∧ (view st').Consistent ∧
      ∀ a s st'', a.cleanup = some s → Safe st' a → step st' a = some st'' →
        KeepsOthers s st' st'' := by
  obtain ⟨hguarded, st', hst'⟩ := Reconnect.exists_returned
  have hstored : (Run.run step Reconnect.initial Reconnect.returns).bind
      (fun st => st.agents Reconnect.node.id) = some 2 := by
    decide
  have hquiet : (Run.run step Reconnect.initial Reconnect.returns).map (fun st =>
      ((st.streams 1).phase.isQuiet, (st.streams 2).phase.isQuiet)) = some (true, true) := by
    decide
  rw [hst'] at hstored hquiet
  obtain ⟨hquiet₁, hquiet₂⟩ := Prod.mk.inj (Option.some.inj hquiet)
  obtain ⟨hconsistent, hkeeps⟩ :=
    consistent_of_guarded Reconnect.initial_initial hguarded hst'
  have hstreams : ∀ a ∈ Reconnect.returns, a.stream = 1 ∨ a.stream = 2 := by
    simp [Reconnect.returns, Reconnect.registers, Reconnect.ends, Action.stream]
  exact ⟨st', hst', hstored,
    hconsistent (Reconnect.quiescent_of_run hstreams hst' hquiet₁ hquiet₂), hkeeps⟩

end AgentService

end Hub

end ProxyPanel
