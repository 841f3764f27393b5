import ProxyPanel.Agent.Skip
import ProxyPanel.Hub.PushTasks

/-!
# Recorded versions

The scheduler sends nothing when the version it recorded for a core is the one it
would send.  The record is written when a push enters the channel and replaced when
the agent registers, so it speaks about the future: it is what the agent will have
applied when the channel is empty (`expected`).  `skipSound_of_guarded` says in which
runs that is so.
-/

namespace ProxyPanel.Hub.PushTasks

open Query

/-! ### What the agent will have applied -/

/-- The core the agent takes a push for. -/
def targetOf (push : ConfigPush) : CoreType := Agent.coreTypeFromI32 push.targetCore

/-- The version applied last for a core when the messages of a queue are all applied. -/
def expected (core : CoreType) : List HubMessage → Option String → Option String
  | [], version => version
  | .configPush push :: queue, version =>
    expected core queue (if targetOf push = core then some push.configVersion else version)
  | .coreStop _ :: queue, version => expected core queue version

/-- A push for the core is among the messages. -/
def HasPush (core : CoreType) (queue : List HubMessage) : Prop :=
  ∃ push, .configPush push ∈ queue ∧ targetOf push = core

theorem expected_append (core : CoreType) (queue queue' : List HubMessage)
    (version : Option String) : expected core (queue ++ queue') version =
      expected core queue' (expected core queue version) := by
  induction queue generalizing version with
  | nil => rfl
  | cons message queue ih =>
    cases message with
    | configPush push => exact ih _
    | coreStop core' => exact ih _

theorem expected_append_push {core : CoreType} (queue : List HubMessage) {push : ConfigPush}
    (h : targetOf push = core) (version : Option String) :
    expected core (queue ++ [.configPush push]) version = some push.configVersion := by
  rw [expected_append, expected, if_pos h]
  rfl

theorem expected_append_of_ne {core : CoreType} (queue : List HubMessage) {push : ConfigPush}
    (h : targetOf push ≠ core) (version : Option String) :
    expected core (queue ++ [.configPush push]) version = expected core queue version := by
  rw [expected_append, expected, if_neg h]
  rfl

theorem expected_of_hasPush {core : CoreType} {queue : List HubMessage} (h : HasPush core queue)
    (version version' : Option String) :
    expected core queue version = expected core queue version' := by
  induction queue generalizing version version' with
  | nil =>
    obtain ⟨push, hpush, -⟩ := h
    exact absurd hpush List.not_mem_nil
  | cons message queue ih =>
    obtain ⟨push, hpush, htarget⟩ := h
    rcases List.mem_cons.mp hpush with rfl | hmem
    · rw [expected, expected, if_pos htarget, if_pos htarget]
    · cases message with
      | configPush push' => exact ih ⟨push, hmem, htarget⟩ _ _
      | coreStop core' => exact ih ⟨push, hmem, htarget⟩ _ _

/-- What is expected is applied or on its way. -/
theorem expected_eq_some {core : CoreType} {queue : List HubMessage} {applied : Option String}
    {version : String} (h : expected core queue applied = some version) :
    applied = some version ∨
      ∃ push, .configPush push ∈ queue ∧ targetOf push = core ∧ push.configVersion = version := by
  induction queue generalizing applied with
  | nil => exact Or.inl h
  | cons message queue ih =>
    have hlater : ∀ {applied' : Option String}, (applied' = some version ∨ ∃ push,
        .configPush push ∈ queue ∧ targetOf push = core ∧ push.configVersion = version) →
        applied' = some version ∨ ∃ push, .configPush push ∈ message :: queue ∧
          targetOf push = core ∧ push.configVersion = version := by
      rintro applied' (happlied | ⟨push, hmem, hpush⟩)
      · exact Or.inl happlied
      · exact Or.inr ⟨push, List.mem_cons_of_mem _ hmem, hpush⟩
    cases message with
    | coreStop core' => exact hlater (ih h)
    | configPush push =>
      rw [expected] at h
      by_cases htarget : targetOf push = core
      · rw [if_pos htarget] at h
        rcases ih h with happlied | hqueue
        · exact Or.inr ⟨push, List.mem_cons_self, htarget, Option.some.inj happlied⟩
        · exact hlater (Or.inr hqueue)
      · rw [if_neg htarget] at h
        exact hlater (ih h)

/-! ### Sound skips and the steps that keep them -/

/-- A push with the version is undelivered in the channel of the node's connection. -/
def Undelivered (st : State) (core : CoreType) (version : String) : Prop :=
  ∃ conn push, st.connection = some conn ∧ .configPush push ∈ (st.streams conn.stream).queue ∧
    targetOf push = core ∧ push.configVersion = version

/-- **A sound skip.**  A scheduled push that ends because the recorded version is its
own finds it applied last, or on its way. -/
def SkipSound (st : State) (t : TaskId) : Prop :=
  ∀ message, (st.tasks t).phase = .comparing message →
    st.agentConfigVersion (st.tasks t).core = some message.configVersion →
      st.lastApplied (st.tasks t).core = some message.configVersion ∨
        Undelivered st (st.tasks t).core message.configVersion

/-- No task stands between the send of a push for the core and its record. -/
def Settled (st : State) (core : CoreType) : Prop :=
  ∀ t message, (st.tasks t).phase = .recording message → (st.tasks t).core ≠ core

/-- The agent applies the next message and writes its snapshot, or it has the push
already, or a later push for the core waits behind one that fails. -/
def Handled (parse : String → Option Json) (st : State) (o : Agent.Outcomes) : Prop :=
  ∀ s push queue, st.current = some s → (st.streams s).queue = .configPush push :: queue →
    match (Agent.handleConfigPush parse o (received push) st.agent).2 with
    | .skipped => True
    | .applied saved => saved = true
    | .failed => HasPush (targetOf push) queue

/-- **The steps that keep the record sound.**  A push is not sent or compared while
another one of its core is sent and not recorded, and is compared only while the
channel has its receiving half.  The agent registers with the stream it is on, while
no push is sent and not recorded.  Pushes are applied. -/
def Allowed (parse : String → Option Json) (st : State) : Action → Prop
  | .advance t =>
    match (st.tasks t).phase with
    | .sending _ => Settled st (st.tasks t).core
    | .comparing _ => Settled st (st.tasks t).core ∧
        ∀ conn, st.connection = some conn → (st.streams conn.stream).receiverAlive = true
    | _ => True
  | .register s => st.current = some s ∧ ∀ core, Settled st core
  | .deliver o => Handled parse st o
  | _ => True

/-- Hub and agent before the first stream.  What the agent applied last is its snapshot. -/
structure Initial (st : State) : Prop where
  connection : st.connection = none
  streams : ∀ s, (st.streams s).phase = .unopened
  tasks : ∀ t, (st.tasks t).phase = .idle
  snapshots : ∀ core, st.lastApplied core = (st.agent.snapshots core).map (·.version)

/-! ### The link -/

/-- The part of the system that records are about; `recording` are the core and the
version of a push that is sent and not recorded. -/
structure Link where
  connection : Option Connection
  streams : StreamId → Stream
  current : Option StreamId
  snapshots : CoreType → Option String
  lastApplied : CoreType → Option String
  recording : TaskId → Option (CoreType × String)

def TaskPhase.recorded (core : CoreType) : TaskPhase → Option (CoreType × String)
  | .recording message => some (core, message.configVersion)
  | _ => none

def link (st : State) : Link where
  connection := st.connection
  streams := st.streams
  current := st.current
  snapshots core := (st.agent.snapshots core).map (·.version)
  lastApplied := st.lastApplied
  recording t := (st.tasks t).phase.recorded (st.tasks t).core

namespace Link

def setRecording (l : Link) (t : TaskId) (recorded : Option (CoreType × String)) : Link :=
  { l with recording := Function.update l.recording t recorded }

def withRecording (l : Link) (recording : TaskId → Option (CoreType × String)) : Link :=
  { l with recording := recording }

def setStream (l : Link) (s : StreamId) (stream : Stream) : Link :=
  { l with streams := Function.update l.streams s stream }

def Settled (l : Link) (core : CoreType) : Prop :=
  ∀ t version, l.recording t ≠ some (core, version)

/-- What is recorded or about to be recorded is what is expected. -/
structure Inv (l : Link) : Prop where
  snapshots : ∀ core, l.snapshots core = l.lastApplied core
  opened : ∀ s versions, (l.streams s).phase = .opened versions → (l.streams s).queue = [] ∧
    (l.current = some s → ∀ core,
      versions core.toStr = (l.lastApplied core).filter fun version => version ≠ "")
  registered : ∀ conn, l.connection = some conn →
    (l.streams conn.stream).phase = .registered ∨ (l.streams conn.stream).phase = .closed
  elsewhere : ∀ conn s push, l.connection = some conn → l.current = some s → s ≠ conn.stream →
    .configPush push ∉ (l.streams s).queue
  recorded : ∀ conn core version, l.connection = some conn →
    (l.streams conn.stream).receiverAlive = true → l.Settled core →
    conn.configVersions core.toStr = some version → version ≠ "" →
    expected core (l.streams conn.stream).queue (l.lastApplied core) = some version
  recording : ∀ conn t core version, l.connection = some conn →
    (l.streams conn.stream).receiverAlive = true → l.recording t = some (core, version) →
    expected core (l.streams conn.stream).queue (l.lastApplied core) = some version

@[simp] theorem recording_setRecording_self (l : Link) (t : TaskId)
    (recorded : Option (CoreType × String)) : (l.setRecording t recorded).recording t = recorded :=
  Function.update_self ..

theorem recording_setRecording_of_ne (l : Link) {t t' : TaskId} (h : t' ≠ t)
    (recorded : Option (CoreType × String)) :
    (l.setRecording t recorded).recording t' = l.recording t' := Function.update_of_ne h _ _

variable {l : Link}

theorem settled_of_setRecording {t : TaskId} {recorded : Option (CoreType × String)}
    {core : CoreType} (hnone : l.recording t = none) (h : (l.setRecording t recorded).Settled core) :
    l.Settled core := by
  intro t' version hrecording
  by_cases ht : t' = t
  · rw [ht, hnone] at hrecording
    cases hrecording
  · exact h t' version ((recording_setRecording_of_ne l ht recorded).trans hrecording)

theorem setRecording_none {t : TaskId} (h : l.recording t = none) : l.setRecording t none = l := by
  rw [setRecording, ← h, Function.update_eq_self]

/-- A message enters the channel of the connection.  `recorded` is what its task has
to record: what is then expected. -/
theorem Inv.send (hi : l.Inv) {conn : Connection} (hconn : l.connection = some conn)
    {t : TaskId} (hnone : l.recording t = none) {message : HubMessage}
    {recorded : Option (CoreType × String)}
    (hnew : ∀ core version, recorded = some (core, version) → l.Settled core ∧ ∀ applied,
      expected core ((l.streams conn.stream).queue ++ [message]) applied = some version)
    (hold : ∀ core, (∀ version, recorded ≠ some (core, version)) → ∀ applied,
      expected core ((l.streams conn.stream).queue ++ [message]) applied =
        expected core (l.streams conn.stream).queue applied) :
    ((l.setStream conn.stream { l.streams conn.stream with
      queue := (l.streams conn.stream).queue ++ [message] }).setRecording t recorded).Inv := by
  have hphase := hi.registered conn hconn
  have hself : ∀ stream, (l.setStream conn.stream stream).streams conn.stream = stream :=
    fun stream => Function.update_self ..
  have hother : ∀ {s}, s ≠ conn.stream → ∀ stream,
      (l.setStream conn.stream stream).streams s = l.streams s :=
    fun hne stream => Function.update_of_ne hne _ _
  constructor
  case snapshots => exact hi.snapshots
  case opened =>
    intro s versions h
    have hne : s ≠ conn.stream := by
      rintro rfl
      rw [setRecording, hself] at h
      rcases hphase with hphase | hphase <;> rw [hphase] at h <;> cases h
    rw [setRecording, hother hne] at h
    rw [setRecording, hother hne]
    exact hi.opened s versions h
  case registered =>
    intro conn' h
    cases hconn.symm.trans h
    rw [setRecording, hself]
    exact hphase
  case elsewhere =>
    intro conn' s push h hcurrent hne
    cases hconn.symm.trans h
    rw [setRecording, hother hne]
    exact hi.elsewhere conn s push hconn hcurrent hne
  case recorded =>
    intro conn' core version h halive hsettled hversion hne
    cases hconn.symm.trans h
    have hcore : ∀ version, recorded ≠ some (core, version) := by
      intro version' hrecorded
      exact hsettled t version' ((recording_setRecording_self ..).trans hrecorded)
    rw [setRecording, hself] at halive ⊢
    exact (hold core hcore _).trans (hi.recorded conn core version hconn halive
      (settled_of_setRecording hnone hsettled) hversion hne)
  case recording =>
    intro conn' t' core version h halive hrecording
    cases hconn.symm.trans h
    rw [setRecording, hself] at halive ⊢
    by_cases ht : t' = t
    · subst ht
      rw [recording_setRecording_self] at hrecording
      exact (hnew core version hrecording).2 _
    · have hbefore := (recording_setRecording_of_ne _ ht _).symm.trans hrecording
      have hcore : ∀ version, recorded ≠ some (core, version) :=
        fun version' hrecorded => (hnew core version' hrecorded).1 t' version hbefore
      exact (hold core hcore _).trans (hi.recording conn t' core version hconn halive hbefore)

/-- The entry of the connection after a version is recorded. -/
def setVersion (l : Link) (core : CoreType) (version : String) : Link :=
  { l with connection := l.connection.map fun conn =>
      { conn with configVersions := Function.update conn.configVersions core.toStr (some version) } }

/-- A task records what it sent, or the empty version. -/
theorem Inv.record (hi : l.Inv) {t : TaskId} {core : CoreType} {version : String}
    (h : l.recording t = some (core, version) ∨ l.recording t = none ∧ version = "") :
    ((l.setVersion core version).setRecording t none).Inv := by
  have hbefore : ∀ {t' r}, ((l.setVersion core version).setRecording t none).recording t' = some r →
      l.recording t' = some r := by
    intro t' r hrecording
    by_cases ht : t' = t
    · rw [ht, recording_setRecording_self] at hrecording
      cases hrecording
    · exact (recording_setRecording_of_ne _ ht _).symm.trans hrecording
  have hconnection : ∀ {conn'}, (l.setVersion core version).connection = some conn' →
      ∃ conn, l.connection = some conn ∧ conn'.stream = conn.stream ∧ conn'.configVersions =
        Function.update conn.configVersions core.toStr (some version) := by
    intro conn' h
    obtain ⟨conn, hconn, rfl⟩ := Option.map_eq_some_iff.mp h
    exact ⟨conn, hconn, rfl, rfl⟩
  constructor
  case snapshots => exact hi.snapshots
  case opened => exact hi.opened
  case registered =>
    intro conn' h'
    obtain ⟨conn, hconn, hstream, -⟩ := hconnection h'
    rw [hstream]
    exact hi.registered conn hconn
  case elsewhere =>
    intro conn' s push h' hcurrent hne
    obtain ⟨conn, hconn, hstream, -⟩ := hconnection h'
    rw [hstream] at hne
    exact hi.elsewhere conn s push hconn hcurrent hne
  case recorded =>
    intro conn' core' version' h' halive hsettled hversion hne
    obtain ⟨conn, hconn, hstream, hversions⟩ := hconnection h'
    rw [hstream] at halive ⊢
    rw [hversions] at hversion
    by_cases hcore : core' = core
    · subst hcore
      cases (Function.update_self ..).symm.trans hversion
      rcases h with h | ⟨-, rfl⟩
      · exact hi.recording conn t core' version hconn halive h
      · exact absurd rfl hne
    · have hkey : core'.toStr ≠ core.toStr := fun heq => hcore (CoreType.toStr_injective heq)
      refine hi.recorded conn core' version' hconn halive (fun t' v hrecording => ?_)
        ((Function.update_of_ne hkey _ _).symm.trans hversion) hne
      by_cases ht : t' = t
      · rw [ht] at hrecording
        rcases h with h | ⟨h, -⟩
        · cases h.symm.trans hrecording
          exact hcore rfl
        · cases h.symm.trans hrecording
      · exact hsettled t' v ((recording_setRecording_of_ne _ ht _).trans hrecording)
  case recording =>
    intro conn' t' core' version' h' halive hrecording
    obtain ⟨conn, hconn, hstream, -⟩ := hconnection h'
    rw [hstream] at halive ⊢
    exact hi.recording conn t' core' version' hconn halive (hbefore hrecording)

/-! ### Streams -/

/-- The agent opens a stream and reports its snapshots. -/
theorem Inv.connect (hi : l.Inv) {s : StreamId} (h : (l.streams s).phase = .unopened)
    {versions : String → Option String} (hversions : ∀ core : CoreType,
      versions core.toStr = (l.snapshots core).filter fun version => version ≠ "") :
    { l.setStream s ⟨.opened versions, [], true⟩ with current := some s }.Inv := by
  have hne : ∀ {conn}, l.connection = some conn → conn.stream ≠ s := by
    rintro conn hconn rfl
    rcases hi.registered conn hconn with hphase | hphase <;> rw [hphase] at h <;> cases h
  have hother : ∀ {s'}, s' ≠ s →
      (l.setStream s ⟨.opened versions, [], true⟩).streams s' = l.streams s' :=
    fun hne => Function.update_of_ne hne _ _
  have hself : (l.setStream s ⟨.opened versions, [], true⟩).streams s =
    ⟨.opened versions, [], true⟩ := Function.update_self ..
  constructor
  case snapshots => exact hi.snapshots
  case opened =>
    intro s' versions' h'
    by_cases hs : s' = s
    · subst hs
      rw [hself] at h' ⊢
      cases h'
      exact ⟨rfl, fun _ core => by rw [hversions, hi.snapshots]; rfl⟩
    · rw [hother hs] at h' ⊢
      refine ⟨(hi.opened s' versions' h').1, fun hcurrent => ?_⟩
      cases hcurrent
      exact absurd rfl hs
  case registered =>
    intro conn hconn
    rw [hother (hne hconn)]
    exact hi.registered conn hconn
  case elsewhere =>
    intro conn s' push hconn hcurrent hs
    cases hcurrent
    rw [hself]
    exact List.not_mem_nil
  case recorded =>
    intro conn core version hconn halive hsettled hversion hempty
    rw [hother (hne hconn)] at halive ⊢
    exact hi.recorded conn core version hconn halive hsettled hversion hempty
  case recording =>
    intro conn t core version hconn halive hrecording
    rw [hother (hne hconn)] at halive ⊢
    exact hi.recording conn t core version hconn halive hrecording

/-- The Hub handles the `Register` of the stream the agent is on. -/
theorem Inv.register (hi : l.Inv) {s : StreamId} {versions : String → Option String}
    (h : (l.streams s).phase = .opened versions) (hcurrent : l.current = some s)
    (hsettled : ∀ core, l.Settled core) :
    { l.setStream s { l.streams s with phase := .registered } with
      connection := some ⟨s, versions⟩ }.Inv := by
  obtain ⟨hqueue, hreport⟩ := hi.opened s versions h
  have hself : (l.setStream s { l.streams s with phase := .registered }).streams s =
    { l.streams s with phase := .registered } := Function.update_self ..
  constructor
  case snapshots => exact hi.snapshots
  case opened =>
    intro s' versions' h'
    by_cases hs : s' = s
    · subst hs
      rw [hself] at h'
      cases h'
    · have hother : (l.setStream s { l.streams s with phase := .registered }).streams s' =
        l.streams s' := Function.update_of_ne hs _ _
      rw [hother] at h' ⊢
      exact hi.opened s' versions' h'
  case registered =>
    intro conn hconn
    cases hconn
    rw [hself]
    exact Or.inl rfl
  case elsewhere =>
    intro conn s' push hconn hcurrent' hs
    cases hconn
    cases hcurrent.symm.trans hcurrent'
    exact absurd rfl hs
  case recorded =>
    intro conn core version hconn halive _ hversion hempty
    cases hconn
    rw [hself]
    change expected core (l.streams s).queue _ = _
    have happlied := (hreport hcurrent core).symm.trans hversion
    rw [Option.filter_eq_some_iff] at happlied
    rw [hqueue]
    exact happlied.1
  case recording =>
    intro conn t core version hconn halive hrecording
    exact absurd hrecording (hsettled core t version)

/-- The node leaves the map. -/
theorem Inv.unregister (hi : l.Inv) (s : StreamId) :
    { l.setStream s { l.streams s with phase := .closed } with connection := none }.Inv := by
  constructor
  case snapshots => exact hi.snapshots
  case opened =>
    intro s' versions h
    by_cases hs : s' = s
    · subst hs
      cases (congrArg Stream.phase (Function.update_self ..)).symm.trans h
    · have hother : (l.setStream s { l.streams s with phase := .closed }).streams s' =
        l.streams s' := Function.update_of_ne hs _ _
      rw [hother] at h ⊢
      exact hi.opened s' versions h
  case registered => exact fun _ h => nomatch h
  case elsewhere => exact fun _ _ _ h => nomatch h
  case recorded => exact fun _ _ _ h => nomatch h
  case recording => exact fun _ _ _ _ h => nomatch h

theorem Inv.dropReceiver (hi : l.Inv) (s : StreamId) :
    (l.setStream s { l.streams s with queue := [], receiverAlive := false }).Inv := by
  have hself : (l.setStream s { l.streams s with queue := [], receiverAlive := false }).streams s =
    { l.streams s with queue := [], receiverAlive := false } := Function.update_self ..
  have hother : ∀ {s'}, s' ≠ s →
      (l.setStream s { l.streams s with queue := [], receiverAlive := false }).streams s' =
        l.streams s' := fun hne => Function.update_of_ne hne _ _
  have halive : ∀ {conn : Connection},
      ((l.setStream s { l.streams s with queue := [], receiverAlive := false }).streams
        conn.stream).receiverAlive = true → conn.stream ≠ s := by
    rintro conn h rfl
    rw [hself] at h
    cases h
  constructor
  case snapshots => exact hi.snapshots
  case opened =>
    intro s' versions h
    by_cases hs : s' = s
    · subst hs
      rw [hself] at h ⊢
      exact ⟨rfl, (hi.opened s' versions h).2⟩
    · rw [hother hs] at h ⊢
      exact hi.opened s' versions h
  case registered =>
    intro conn hconn
    by_cases hs : conn.stream = s
    · rw [hs, hself, ← hs]
      exact hi.registered conn hconn
    · rw [hother hs]
      exact hi.registered conn hconn
  case elsewhere =>
    intro conn s' push hconn hcurrent hne
    by_cases hs : s' = s
    · rw [hs, hself]
      exact List.not_mem_nil
    · rw [hother hs]
      exact hi.elsewhere conn s' push hconn hcurrent hne
  case recorded =>
    intro conn core version hconn h hsettled hversion hempty
    have hs := halive h
    rw [hother hs] at h ⊢
    exact hi.recorded conn core version hconn h hsettled hversion hempty
  case recording =>
    intro conn t core version hconn h hrecording
    have hs := halive h
    rw [hother hs] at h ⊢
    exact hi.recording conn t core version hconn h hrecording

/-! ### The agent handles a message -/

/-- The message leaves the queue and what is expected stays. -/
theorem Inv.deliver (hi : l.Inv) {s : StreamId} {message : HubMessage} {queue : List HubMessage}
    (hcurrent : l.current = some s) (hqueue : (l.streams s).queue = message :: queue)
    {snapshots lastApplied : CoreType → Option String}
    (hsnapshots : ∀ core, snapshots core = lastApplied core)
    (hexpected : ∀ core, expected core queue (lastApplied core) =
      expected core (message :: queue) (l.lastApplied core))
    (hstop : (∀ push, message ≠ .configPush push) → lastApplied = l.lastApplied) :
    { l.setStream s { l.streams s with queue := queue } with
      snapshots := snapshots, lastApplied := lastApplied }.Inv := by
  have hself : (l.setStream s { l.streams s with queue := queue }).streams s =
    { l.streams s with queue := queue } := Function.update_self ..
  have hother : ∀ {s'}, s' ≠ s →
      (l.setStream s { l.streams s with queue := queue }).streams s' = l.streams s' :=
    fun hne => Function.update_of_ne hne _ _
  have hnotOpened : ∀ versions, (l.streams s).phase ≠ .opened versions := by
    intro versions h
    rw [(hi.opened s versions h).1] at hqueue
    cases hqueue
  -- A connection over another stream is one the agent does not read.
  have hkept : ∀ {conn : Connection}, l.connection = some conn → ∀ core,
      expected core ((l.setStream s { l.streams s with queue := queue }).streams
          conn.stream).queue (lastApplied core) =
        expected core (l.streams conn.stream).queue (l.lastApplied core) := by
    intro conn hconn core
    by_cases hs : conn.stream = s
    · rw [hs, hself, hqueue]
      exact hexpected core
    · rw [hother hs, hstop]
      rintro push rfl
      exact hi.elsewhere conn s push hconn hcurrent (fun h => hs h.symm)
        (hqueue ▸ List.mem_cons_self)
  have halive : ∀ {s'}, ((l.setStream s { l.streams s with queue := queue }).streams
      s').receiverAlive = (l.streams s').receiverAlive := by
    intro s'
    by_cases hs : s' = s
    · rw [hs, hself]
    · rw [hother hs]
  constructor
  case snapshots => exact hsnapshots
  case opened =>
    intro s' versions h
    by_cases hs : s' = s
    · subst hs
      rw [hself] at h
      exact absurd h (hnotOpened versions)
    · rw [hother hs] at h ⊢
      refine ⟨(hi.opened s' versions h).1, fun hcurrent' => ?_⟩
      cases hcurrent.symm.trans hcurrent'
      exact absurd rfl hs
  case registered =>
    intro conn hconn
    by_cases hs : conn.stream = s
    · rw [hs, hself, ← hs]
      exact hi.registered conn hconn
    · rw [hother hs]
      exact hi.registered conn hconn
  case elsewhere =>
    intro conn s' push hconn hcurrent' hne
    cases hcurrent.symm.trans hcurrent'
    rw [hself]
    intro hmem
    exact hi.elsewhere conn s push hconn hcurrent hne (hqueue ▸ List.mem_cons_of_mem _ hmem)
  case recorded =>
    intro conn core version hconn h hsettled hversion hempty
    rw [halive] at h
    exact (hkept hconn core).trans
      (hi.recorded conn core version hconn h hsettled hversion hempty)
  case recording =>
    intro conn t core version hconn h hrecording
    rw [halive] at h
    exact (hkept hconn core).trans (hi.recording conn t core version hconn h hrecording)

end Link

/-! ### What a task sends -/

/-- A push for the core with a version. -/
def Fits (core : CoreType) (message : ConfigPush) : Prop :=
  targetOf message = core ∧ message.configVersion ≠ ""

def TaskFits (task : Task) : Prop :=
  match task.phase with
  | .preparing program => program.Returns fun result => ∀ message ∈ result, Fits task.core message
  | .comparing message | .sending message | .recording message => Fits task.core message
  | _ => True

section Steps

variable {env : HubEnv} {nodeId : Uuid} {parse : String → Option Json} {st st' : State}

theorem fits_configPush (hversion : ∀ text, env.configVersionOf text ≠ "") (core : CoreType)
    (restart : Bool) (version : Option String) (config : Json) (coreVersion : Option String)
    (buildId : String) :
    Fits core (configPush env core restart version config coreVersion buildId) := by
  refine ⟨by cases core <;> rfl, ?_⟩
  change (version.filter fun v => v ≠ "").getD (pushVersionOf env config.render buildId) ≠ ""
  cases hfilter : version.filter fun v => v ≠ "" with
  | none =>
    rw [Option.getD_none, pushVersionOf]
    split <;> exact hversion _
  | some v =>
    rw [Option.filter_eq_some_iff] at hfilter
    simpa using hfilter.2

/-- A task prepares pushes for its own core. -/
theorem returns_prepare (hversion : ∀ text, env.configVersionOf text ≠ "") (core : CoreType)
    (kind : TaskKind) : (prepare env nodeId core kind).Returns
      fun result => ∀ message ∈ result, Fits core message := by
  have hfits := fits_configPush hversion core
  have hnone : (Pure.pure none : Program (Option ConfigPush)).Returns
      fun result => ∀ message ∈ result, Fits core message := fun _ h => nomatch h
  cases kind with
  | orphan => exact hnone
  | manual restart version clearsAgain =>
    have hprepared : (preparePush env nodeId core restart version).Returns (Fits core) := by
      refine returns_bind _ (fun _ => returns_bind _ (fun out => returns_bind _ (fun buildId => ?_)))
      exact hfits restart version out.1 out.2 buildId
    refine hprepared.bind (fun message hmessage message' h => ?_)
    cases h
    exact hmessage
  | scheduled =>
    refine returns_bind _ (fun bindings => returns_bind _ (fun hasBindings => ?_))
    split
    · refine returns_bind _ (fun out => ?_)
      dsimp only
      split
      · refine returns_bind _ (fun buildId message h => ?_)
        cases h
        exact hfits false none out.1 out.2 buildId
      · exact hnone
    · exact hnone

/-! ### Steps -/

/-- The invariant of the system. -/
structure Inv (st : State) : Prop where
  records : (link st).Inv
  fits : ∀ t, TaskFits (st.tasks t)

theorem link_setPhase (st : State) (t : TaskId) (phase : TaskPhase) :
    link (st.setPhase t phase) =
      (link st).setRecording t (phase.recorded (st.tasks t).core) := by
  have hrecording : (link (st.setPhase t phase)).recording =
      Function.update (link st).recording t (phase.recorded (st.tasks t).core) := by
    funext t'
    by_cases ht : t' = t
    · subst ht
      simp only [link, tasks_setPhase_self, Function.update_self]
    · simp only [link, tasks_setPhase_of_ne st ht, Function.update_of_ne ht]
  rw [Link.setRecording, ← hrecording]
  rfl

theorem fits_setPhase (st : State) (hfits : ∀ t, TaskFits (st.tasks t)) {t : TaskId}
    {phase : TaskPhase} (h : TaskFits { st.tasks t with phase := phase }) (t' : TaskId) :
    TaskFits ((st.setPhase t phase).tasks t') := by
  by_cases ht : t' = t
  · subst ht
    rw [tasks_setPhase_self]
    exact h
  · rw [tasks_setPhase_of_ne st ht]
    exact hfits t'

theorem settled_link {core : CoreType} (h : Settled st core) : (link st).Settled core := by
  intro t version hrecording
  cases hphase : (st.tasks t).phase with
  | recording message =>
    simp only [link, hphase, TaskPhase.recorded, Option.some.injEq, Prod.mk.injEq] at hrecording
    exact h t message hphase hrecording.1
  | _ => simp only [link, hphase, TaskPhase.recorded] at hrecording; cases hrecording

/-- A task that sends and records nothing. -/
theorem Inv.setPhase (hi : Inv st) {t : TaskId} {phase : TaskPhase}
    (hbefore : ∀ message, (st.tasks t).phase ≠ .recording message)
    (hafter : phase.recorded (st.tasks t).core = none)
    (hfits : TaskFits { st.tasks t with phase := phase }) : Inv (st.setPhase t phase) := by
  have hnone : (link st).recording t = none := by
    change (st.tasks t).phase.recorded _ = none
    cases hphase : (st.tasks t).phase with
    | recording message => exact absurd hphase (hbefore message)
    | _ => rfl
  refine ⟨?_, fits_setPhase st hi.fits hfits⟩
  rw [link_setPhase, hafter, Link.setRecording_none hnone]
  exact hi.records

theorem Inv.advance (hi : Inv st) {t : TaskId} (hallowed : Allowed parse st (.advance t))
    (h : Advance nodeId st t st') : Inv st' := by
  have hfits := hi.fits t
  rw [TaskFits] at hfits
  have hnone : ∀ {phase : TaskPhase}, (st.tasks t).phase = phase →
      phase.recorded (st.tasks t).core = none → (link st).recording t = none := by
    rintro phase rfl h
    exact h
  cases h with
  | statement k h =>
    rw [h] at hfits
    exact hi.setPhase (by rw [h]; exact fun _ heq => nomatch heq) rfl (hfits st.db)
  | prepared message phase h hphase =>
    rw [h] at hfits
    have hmessage : Fits (st.tasks t).core message := hfits message rfl
    rcases hphase with rfl | rfl <;>
      exact hi.setPhase (by rw [h]; exact fun _ heq => nomatch heq) rfl hmessage
  | proceed message h =>
    rw [h] at hfits
    exact hi.setPhase (by rw [h]; exact fun _ heq => nomatch heq) rfl hfits
  | finish h => exact hi.setPhase h rfl trivial
  | send message conn h hconn =>
    rw [h] at hfits
    have hsettled : Settled st (st.tasks t).core := by
      simp only [Allowed, h] at hallowed
      exact hallowed
    refine ⟨?_, fits_setPhase (st.setStream conn.stream _) hi.fits hfits⟩
    refine Eq.mpr (congrArg Link.Inv (link_setPhase (st.setStream conn.stream _) t _)) ?_
    refine hi.records.send hconn (hnone h rfl) (fun core version hrecorded => ?_)
      (fun core hrecorded applied => ?_)
    · cases hrecorded
      exact ⟨settled_link hsettled, expected_append_push _ hfits.1⟩
    · refine expected_append_of_ne _ (fun htarget => ?_) applied
      refine hrecorded message.configVersion ?_
      rw [← htarget, hfits.1]
      rfl
  | record message again h =>
    refine ⟨?_, fits_setPhase (st.setAgentConfigVersion _ _) hi.fits trivial⟩
    refine Eq.mpr (congrArg Link.Inv (link_setPhase (st.setAgentConfigVersion _ _) t _)) ?_
    refine hi.records.record (Or.inl ?_)
    change (st.tasks t).phase.recorded _ = _
    rw [h]
    rfl
  | clear again phase h hphase =>
    have hphases : phase.recorded (st.tasks t).core = none ∧
        TaskFits { st.tasks t with phase := phase } := by
      rcases hphase with rfl | rfl <;> exact ⟨rfl, trivial⟩
    have hset := hi.setPhase (by rw [h]; exact fun _ heq => nomatch heq) hphases.1 hphases.2
    exact ⟨hset.records, hset.fits⟩
  | orphan phase h hphase =>
    have hafter : phase.recorded (st.tasks t).core = none ∧
        TaskFits { st.tasks t with phase := phase } := by
      cases phase <;> first | exact ⟨rfl, trivial⟩ | cases hphase
    refine hi.setPhase (fun message heq => ?_) hafter.1 hafter.2
    rw [heq] at h
    cases h
  | sendStop conn h hconn =>
    refine ⟨?_, fits_setPhase (st.setStream conn.stream _) hi.fits trivial⟩
    refine Eq.mpr (congrArg Link.Inv (link_setPhase (st.setStream conn.stream _) t _)) ?_
    refine hi.records.send hconn (hnone h rfl) (fun _ _ hrecorded => nomatch hrecorded)
      (fun core _ applied => ?_)
    rw [expected_append]
    rfl
  | forget h =>
    refine ⟨?_, fits_setPhase (st.setAgentConfigVersion _ _) hi.fits trivial⟩
    refine Eq.mpr (congrArg Link.Inv (link_setPhase (st.setAgentConfigVersion _ _) t _)) ?_
    exact hi.records.record (Or.inr ⟨hnone h rfl, rfl⟩)

theorem coreConfigVersions_toStr (agent : Agent.AgentState) (core : CoreType) :
    coreConfigVersions agent core.toStr =
      ((agent.snapshots core).map (·.version)).filter fun version => version ≠ "" := by
  cases core <;> rfl

/-- A push that is handled well leaves the snapshot with what was applied last, and
what is expected is still what it was. -/
theorem deliver_push (hi : Inv st) {o : Agent.Outcomes} {s : StreamId} {push : ConfigPush}
    {queue : List HubMessage} (hcurrent : st.current = some s)
    (hqueue : (st.streams s).queue = .configPush push :: queue) (hhandled : Handled parse st o)
    (core : CoreType) {outcome : Agent.AgentState × Agent.PushResult}
    (houtcome : Agent.handleConfigPush parse o (received push) st.agent = outcome)
    {lastApplied : CoreType → Option String} (hlast : lastApplied =
      appliedAfter st.lastApplied (targetOf push) push.configVersion outcome.2) :
    (outcome.1.snapshots core).map (·.version) = lastApplied core ∧
      expected core queue (lastApplied core) =
        expected core (.configPush push :: queue) (st.lastApplied core) := by
  have heffect := Agent.handleConfigPush_effect parse o (received push) st.agent
  have hresult := hhandled s push queue hcurrent hqueue
  rw [houtcome] at heffect hresult
  obtain ⟨agent, result⟩ := outcome
  have hsnapshots : ∀ core, (st.agent.snapshots core).map (·.version) = st.lastApplied core :=
    hi.records.snapshots
  dsimp only at heffect hresult hlast ⊢
  rw [expected, hlast]
  by_cases hcore : core = targetOf push
  · subst hcore
    rw [if_pos rfl]
    cases result with
    | skipped =>
      obtain ⟨hsame, hskip, -⟩ := heffect.effect
      have hversion : (st.agent.snapshots (targetOf push)).map (·.version) =
          some push.configVersion := by
        simp only [Agent.alreadyApplied, Bool.and_eq_true, decide_eq_true_eq] at hskip
        exact hskip.2
      rw [appliedAfter, ← hsnapshots, hsame, hversion]
      exact ⟨rfl, rfl⟩
    | failed =>
      obtain ⟨hsame, -⟩ := heffect.effect
      rw [appliedAfter, hsame]
      exact ⟨hsnapshots _, expected_of_hasPush hresult _ _⟩
    | applied saved =>
      obtain ⟨config, -, -, hsaved⟩ := heffect.effect
      have htrue : saved = true := hresult
      rw [htrue, if_pos rfl] at hsaved
      rw [appliedAfter, Function.update_self]
      exact ⟨congrArg (Option.map (·.version)) hsaved, rfl⟩
  · have hsame := heffect.snapshot_of_ne core hcore
    have hother : appliedAfter st.lastApplied (targetOf push) push.configVersion result core =
        st.lastApplied core := by
      cases result with
      | applied saved => exact Function.update_of_ne hcore _ _
      | _ => rfl
    rw [if_neg (fun h => hcore h.symm), hother, hsame]
    exact ⟨hsnapshots core, rfl⟩

theorem Inv.deliver (hi : Inv st) {o : Agent.Outcomes} (hhandled : Handled parse st o)
    (h : deliver parse st o = some st') : Inv st' := by
  rw [PushTasks.deliver] at h
  split at h
  · cases h
  rename_i s hcurrent
  split at h
  · cases h
  rename_i message queue hqueue
  cases message with
  | coreStop core =>
    cases h
    have hsame : ∀ core', ((Agent.handleCoreCommand o (.stop core) st.agent).snapshots core').map
        (·.version) = st.lastApplied core' := by
      intro core'
      rw [Agent.snapshots_handleCoreCommand]
      exact hi.records.snapshots core'
    exact ⟨hi.records.deliver hcurrent hqueue hsame (fun _ => rfl) (fun _ => rfl), hi.fits⟩
  | configPush push =>
    cases h
    refine ⟨hi.records.deliver hcurrent hqueue
      (fun core => (deliver_push hi hcurrent hqueue hhandled core rfl rfl).1)
      (fun core => (deliver_push hi hcurrent hqueue hhandled core rfl rfl).2)
      (fun hne => absurd rfl (hne push)), hi.fits⟩

/-- An edit changes neither the link nor the tasks. -/
theorem link_advanceEdit {e : EditId} {id : Uuid} {now : DateTime}
    (h : advanceEdit nodeId st e id now = some st') :
    link st' = link st ∧ st'.tasks = st.tasks := by
  rw [advanceEdit] at h
  repeat' split at h
  all_goals first | (cases h; done) | (cases h; exact ⟨rfl, rfl⟩)

theorem Inv.step (hversion : ∀ text, env.configVersionOf text ≠ "") {a : Action} (hi : Inv st)
    (hallowed : Allowed parse st a) (h : step env nodeId parse st a = some st') : Inv st' := by
  cases a with
  | begin t core kind =>
    simp only [PushTasks.step] at h
    split at h
    · rename_i hidle
      cases h
      have hbefore : (st.tasks t).phase.recorded (st.tasks t).core = none := by rw [hidle]; rfl
      have hfits : ∀ t', TaskFits ((beginTask env nodeId st t core kind).tasks t') ∧
          ((beginTask env nodeId st t core kind).tasks t').phase.recorded
            ((beginTask env nodeId st t core kind).tasks t').core =
          (st.tasks t').phase.recorded (st.tasks t').core := by
        intro t'
        by_cases ht : t' = t
        · subst ht
          simp only [beginTask, Function.update_self, hbefore]
          cases kind with
          | orphan => exact ⟨trivial, rfl⟩
          | scheduled => exact ⟨returns_prepare hversion core .scheduled, rfl⟩
          | manual restart version again => exact ⟨returns_prepare hversion core _, rfl⟩
        · simp only [beginTask, Function.update_of_ne ht]
          exact ⟨hi.fits t', trivial⟩
      have hlink : link (beginTask env nodeId st t core kind) = link st := by
        have hrecording := funext fun t' => (hfits t').2
        exact congrArg ((link st).withRecording) hrecording
      exact ⟨hlink ▸ hi.records, fun t' => (hfits t').1⟩
    · cases h
  | advance t => exact hi.advance hallowed (advance_cases nodeId h)
  | beginEdit e updateType writes cores =>
    simp only [PushTasks.step] at h
    split at h
    · cases h
      exact ⟨hi.records, hi.fits⟩
    · cases h
  | advanceEdit e id now =>
    obtain ⟨hlink, htasks⟩ := link_advanceEdit h
    exact ⟨hlink ▸ hi.records, htasks ▸ hi.fits⟩
  | connect s =>
    simp only [PushTasks.step] at h
    split at h
    · rename_i hphase
      cases h
      exact ⟨hi.records.connect hphase (coreConfigVersions_toStr st.agent), hi.fits⟩
    · cases h
  | register s =>
    simp only [PushTasks.step] at h
    split at h
    · rename_i versions hphase
      cases h
      exact ⟨hi.records.register hphase hallowed.1 (fun core => settled_link (hallowed.2 core)),
        hi.fits⟩
    · cases h
  | unregister s =>
    simp only [PushTasks.step] at h
    split at h
    · cases h
      exact ⟨hi.records.unregister s, hi.fits⟩
    · cases h
  | dropReceiver s =>
    cases h
    exact ⟨hi.records.dropReceiver s, hi.fits⟩
  | deliver o => exact hi.deliver hallowed h

theorem inv_initial (h : Initial st) : Inv st := by
  constructor
  case fits =>
    intro t
    rw [TaskFits, h.tasks t]
    trivial
  case records =>
    have hnone : ∀ conn, (link st).connection ≠ some conn := by
      intro conn hconn
      exact nomatch h.connection.symm.trans hconn
    constructor
    case snapshots => exact fun core => (h.snapshots core).symm
    case opened =>
      intro s versions hphase
      exact nomatch (h.streams s).symm.trans hphase
    case registered => exact fun conn hconn => absurd hconn (hnone conn)
    case elsewhere => exact fun conn _ _ hconn => absurd hconn (hnone conn)
    case recorded => exact fun conn _ _ hconn => absurd hconn (hnone conn)
    case recording => exact fun conn _ _ _ hconn => absurd hconn (hnone conn)

/-- **Skips of the scheduler.**  In a run of allowed steps, an allowed comparison that
ends a push is right. -/
theorem skipSound_of_guarded (hversion : ∀ text, env.configVersionOf text ≠ "")
    (hinit : Initial st) {as : List Action}
    (hok : Run.Guarded (step env nodeId parse) (Allowed parse) st as)
    (hrun : Run.run (step env nodeId parse) st as = some st') :
    ∀ t, Allowed parse st' (.advance t) → SkipSound st' t := by
  have hi : Inv st' := Run.inv_of_guarded (I := Inv)
    (fun s a s' hi hallowed h => hi.step hversion hallowed h) (inv_initial hinit) hok hrun
  intro t hallowed message hphase hrecorded
  simp only [Allowed, hphase] at hallowed
  obtain ⟨hsettled, halive⟩ := hallowed
  have hfits := hi.fits t
  rw [TaskFits, hphase] at hfits
  obtain ⟨conn, hconn, hentry⟩ := Option.bind_eq_some_iff.mp hrecorded
  have hexpected := hi.records.recorded conn (st'.tasks t).core message.configVersion hconn
    (halive conn hconn) (settled_link hsettled) hentry hfits.2
  rcases expected_eq_some hexpected with happlied | ⟨push, hmem, hpush⟩
  · exact Or.inl happlied
  · exact Or.inr ⟨conn, push, hconn, hmem, hpush⟩

end Steps

/-! ### A push that fails on the agent -/

namespace FailedApply

/-- A node with one sing-box inbound. -/
def db : Db where
  protocolConfigs := .single { PresetUser.config with coreType := "sing-box" }
  nodeBindings := .single PresetUser.binding

/-- Hub and agent before the first stream; sing-box is installed. -/
def initial : State where
  db := db
  connection := none
  streams _ := ⟨.unopened, [], false⟩
  tasks _ := ⟨.singBox, .scheduled, 0, .idle⟩
  edits _ := ⟨"", .idle⟩
  current := none
  agent := ⟨fun _ => true, fun _ => none, fun _ => none⟩
  lastApplied _ := none
  writes := 0
  lastSent _ := none

theorem initial_initial : Initial initial := ⟨rfl, fun _ => rfl, fun _ => rfl, fun _ => rfl⟩

/-- Reads the configuration that is pushed. -/
def parse (text : String) : Option Json :=
  match (generateNodeConfig PresetUser.gen PresetUser.node .singBox).exec db with
  | .ok (config, _) => if config.render = text then some config else none
  | .error _ => none

/-- The agent registers and the scheduler pushes. -/
def pushed : List Action :=
  [.connect 0, .register 0, .begin 0 .singBox .scheduled] ++ List.replicate 13 (.advance 0)

/-- The next push of the scheduler, up to its comparison. -/
def next : List Action := .begin 1 .singBox .scheduled :: List.replicate 9 (.advance 1)

/-- sing-box does not read the configuration that is delivered. -/
def failed : List Action := pushed ++ .deliver ⟨true, true, true, false, true⟩ :: next

def applied : List Action := pushed ++ .deliver ⟨true, true, true, true, true⟩ :: next

/-- The comparison of a task is about to end it, and nothing was applied or is on its way. -/
def skipsInVain (st : State) (t : TaskId) : Bool :=
  match (st.tasks t).phase with
  | .comparing message =>
    st.agentConfigVersion (st.tasks t).core = some message.configVersion &&
      (st.lastApplied (st.tasks t).core).isNone &&
      st.connection.all fun conn => (st.streams conn.stream).queue.isEmpty
  | _ => false

theorem not_skipSound {st : State} {t : TaskId} (h : skipsInVain st t = true) :
    ¬ SkipSound st t := by
  intro hsound
  rw [skipsInVain] at h
  split at h
  · rename_i message hphase
    simp only [Bool.and_eq_true, decide_eq_true_eq] at h
    obtain ⟨⟨hrecorded, hnone⟩, hempty⟩ := h
    rcases hsound message hphase hrecorded with happlied | ⟨conn, push, hconn, hmem, -⟩
    · rw [happlied] at hnone
      cases hnone
    · rw [hconn, Option.all_some, List.isEmpty_iff] at hempty
      rw [hempty] at hmem
      exact absurd hmem List.not_mem_nil
  · cases h

end FailedApply

/-- **A version that was never applied is skipped.** -/
theorem failed_apply_skipped : ∃ st, Run.run
      (step MihomoPush.env PresetUser.node FailedApply.parse) FailedApply.initial
        FailedApply.failed = some st ∧
    Initial FailedApply.initial ∧ ¬ SkipSound st 1 := by
  have hrun : (Run.run (step MihomoPush.env PresetUser.node FailedApply.parse)
      FailedApply.initial FailedApply.failed).map (FailedApply.skipsInVain · 1) = some true := by
    decide +kernel
  obtain ⟨st, hst, hskips⟩ := Option.map_eq_some_iff.mp hrun
  exact ⟨st, hst, FailedApply.initial_initial, FailedApply.not_skipSound hskips⟩

namespace FailedApply

/-- `Settled` for the two tasks of the runs. -/
def settled (st : State) (core : CoreType) : Bool :=
  [0, 1].all fun t => match (st.tasks t).phase with
    | .recording _ => (st.tasks t).core ≠ core
    | _ => true

/-- `Allowed`, computed. -/
def check (st : State) : Action → Bool
  | .begin t _ _ => t < 2
  | .advance t => t < 2 && match (st.tasks t).phase with
    | .sending _ => settled st (st.tasks t).core
    | .comparing _ => settled st (st.tasks t).core &&
        st.connection.all fun conn => (st.streams conn.stream).receiverAlive
    | _ => true
  | .register s => st.current = some s && (settled st .singBox && settled st .mihomo)
  | .deliver o => st.current.all fun s => match (st.streams s).queue with
    | .configPush push :: _ =>
      (Agent.handleConfigPush parse o (received push) st.agent).2 = .applied true
    | _ => true
  | _ => true

/-- No third task has begun. -/
def TwoTasks (st : State) : Prop := ∀ t, 2 ≤ t → (st.tasks t).phase = .idle

theorem settled_of_check {st : State} (htasks : TwoTasks st) {core : CoreType}
    (h : settled st core = true) : Settled st core := by
  intro t message hphase
  have ht : t ∈ [0, 1] := by
    by_contra hmem
    have hlarge : 2 ≤ t := by
      simp only [List.mem_cons, List.not_mem_nil, or_false, not_or] at hmem
      exact Nat.lt_of_le_of_ne (Nat.pos_of_ne_zero hmem.1) (Ne.symm hmem.2)
    cases (htasks t hlarge).symm.trans hphase
  have hcore := List.all_eq_true.mp h t ht
  rw [hphase] at hcore
  exact of_decide_eq_true hcore

theorem allowed_of_check {st : State} {a : Action} (htasks : TwoTasks st)
    (h : check st a = true) : Allowed parse st a := by
  cases a with
  | advance t =>
    rw [check, Bool.and_eq_true] at h
    rw [Allowed]
    split
    · rename_i message hphase
      rw [hphase] at h
      exact settled_of_check htasks h.2
    · rename_i message hphase
      rw [hphase] at h
      obtain ⟨hsettled, halive⟩ := Bool.and_eq_true_iff.mp h.2
      refine ⟨settled_of_check htasks hsettled, fun conn hconn => ?_⟩
      rw [hconn] at halive
      exact halive
    · trivial
  | register s =>
    rw [check, Bool.and_eq_true, Bool.and_eq_true, decide_eq_true_eq] at h
    refine ⟨h.1, fun core => settled_of_check htasks ?_⟩
    cases core with
    | singBox => exact h.2.1
    | mihomo => exact h.2.2
  | deliver o =>
    intro s push queue hcurrent hqueue
    rw [check, hcurrent, Option.all_some, hqueue] at h
    rw [of_decide_eq_true h]
  | _ => trivial

theorem twoTasks_step {st st' : State} {a : Action} (htasks : TwoTasks st)
    (hcheck : check st a = true)
    (h : step MihomoPush.env PresetUser.node parse st a = some st') : TwoTasks st' := by
  intro t ht
  have hbefore := htasks t ht
  cases a with
  | begin t' core kind =>
    have hsmall : t' < 2 := of_decide_eq_true hcheck
    have hne : t ≠ t' := Ne.symm (Nat.ne_of_lt (Nat.lt_of_lt_of_le hsmall ht))
    simp only [step] at h
    split at h
    · cases h
      exact (congrArg Task.phase (Function.update_of_ne hne _ _)).trans hbefore
    · cases h
  | advance t' =>
    have hsmall : t' < 2 := of_decide_eq_true (Bool.and_eq_true_iff.mp hcheck).1
    have hne : t ≠ t' := Ne.symm (Nat.ne_of_lt (Nat.lt_of_lt_of_le hsmall ht))
    rw [tasks_advance_of_ne _ (advance_cases _ h) hne]
    exact hbefore
  | advanceEdit e id now =>
    rw [(link_advanceEdit h).2]
    exact hbefore
  | deliver o =>
    change deliver parse st o = some st' at h
    rw [deliver] at h
    repeat' split at h
    all_goals first | (cases h; done) | (cases h; exact hbefore)
  | dropReceiver s => cases h; exact hbefore
  | _ =>
    simp only [step] at h
    split at h
    · cases h
      exact hbefore
    · cases h

end FailedApply

theorem skipSound_of_guarded_applied : ∃ st, Run.run
      (step MihomoPush.env PresetUser.node FailedApply.parse) FailedApply.initial
        FailedApply.applied = some st ∧ ∀ t, Allowed FailedApply.parse st (.advance t) →
    SkipSound st t := by
  have hchecked : Run.checked (step MihomoPush.env PresetUser.node FailedApply.parse)
      FailedApply.check FailedApply.initial FailedApply.applied = true := by decide +kernel
  obtain ⟨hguarded, st, hst⟩ := Run.guarded_of_checked (I := FailedApply.TwoTasks)
    (fun s a => FailedApply.allowed_of_check) (fun s a s' => FailedApply.twoTasks_step)
    (fun _ _ => rfl) hchecked
  have hversion : ∀ text, MihomoPush.env.configVersionOf text ≠ "" := by
    intro text
    exact (by decide : "f961bc20989301e2" ≠ "")
  exact ⟨st, hst, skipSound_of_guarded hversion FailedApply.initial_initial hguarded hst⟩

end ProxyPanel.Hub.PushTasks
