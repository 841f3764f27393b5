import ProxyPanel.Agent.Client
import ProxyPanel.Hub.Marker
import ProxyPanel.Hub.Scheduler

/-!
# Pushes, edits and the agent side by side

Scheduled and manual pushes and the stops of orphan cores are tasks of the Hub, and
so are the edits of the administrator.  A step of a task is one database statement,
one access to the map of agents or one send, and steps of different tasks interleave
freely.  At the other end of the channel the agent handles one message after the
other.  Everything here is about one node.
-/

namespace ProxyPanel.Hub.PushTasks

open Json Query

abbrev StreamId := Nat
abbrev TaskId := Nat
abbrev EditId := Nat

/-! ### The link between Hub and agent -/

/-- A push as the agent reads it. -/
def received (push : ConfigPush) : Agent.ConfigPush where
  configJson := push.configJson
  targetCore := push.targetCore
  restartRequired := push.restartRequired
  configVersion := push.configVersion
  coreVersion := push.coreVersion
  coreBuildId := push.coreBuildId

inductive StreamPhase where
  | unopened
  /-- The `Register` message with these versions is not handled yet. -/
  | opened (coreConfigVersions : String → Option String)
  | registered
  | closed

/-- A stream of the agent and its channel: the messages that are sent and not
delivered, and whether the receiving half is still there. -/
structure Stream where
  phase : StreamPhase
  queue : List HubMessage
  receiverAlive : Bool

/-- The entry of the node in the map of agents. -/
structure Connection where
  stream : StreamId
  configVersions : String → Option String

/-- The versions the agent reports when it registers. -/
def coreConfigVersions (agent : Agent.AgentState) (coreType : String) : Option String :=
  ([CoreType.singBox, CoreType.mihomo].find? fun core => core.toStr = coreType).bind fun core =>
    ((agent.snapshots core).map (·.version)).filter fun version => version ≠ ""

/-! ### Tasks -/

inductive TaskKind where
  | scheduled
  /-- `clearsAgain` is the second `clear_pending` of the handler `push_config`. -/
  | manual (restart : Bool) (version : Option String) (clearsAgain : Bool)
  /-- The stop of a core that has no bindings any more. -/
  | orphan

inductive TaskPhase where
  | idle
  | preparing (program : Program (Option ConfigPush))
  | comparing (message : ConfigPush)
  | sending (message : ConfigPush)
  | recording (message : ConfigPush)
  | clearing (again : Bool)
  | inspecting (program : Program Bool)
  | lookingUp
  | stopping
  | forgetting
  | finished

/-- `since` is the number of row writes when the task began. -/
structure Task where
  core : CoreType
  kind : TaskKind
  since : Nat
  phase : TaskPhase

/-! ### Edits -/

/-- A statement of an edit.  It leaves the markers alone. -/
structure RowWrite where
  run : Db → Db
  keepsMarkers : ∀ db, (run db).nodePendingUpdates = db.nodePendingUpdates

/-- An edit writes its rows and calls `mark_pending` for each of its cores.
`updating` and `inserting` are the second statement of a call. -/
inductive EditPhase where
  | idle
  | writing (writes : List RowWrite) (cores : List CoreType)
  | finding (cores : List CoreType)
  | updating (row : Uuid) (core : CoreType) (cores : List CoreType)
  | inserting (core : CoreType) (cores : List CoreType)
  | finished

structure Edit where
  updateType : String
  phase : EditPhase

/-! ### The system -/

/-- The Hub, the streams and the agent.  The last three fields are not kept by the
code: the version that was applied last for each core, the number of row writes, and
what was sent last for each core with the `since` of its task. -/
structure State where
  db : Db
  connection : Option Connection
  streams : StreamId → Stream
  tasks : TaskId → Task
  edits : EditId → Edit
  current : Option StreamId
  agent : Agent.AgentState
  lastApplied : CoreType → Option String
  writes : Nat
  lastSent : CoreType → Option (ConfigPush × Nat)

namespace State

def setPhase (st : State) (t : TaskId) (phase : TaskPhase) : State :=
  { st with tasks := Function.update st.tasks t { st.tasks t with phase := phase } }

def setEdit (st : State) (e : EditId) (phase : EditPhase) : State :=
  { st with edits := Function.update st.edits e { st.edits e with phase := phase } }

def setStream (st : State) (s : StreamId) (stream : Stream) : State :=
  { st with streams := Function.update st.streams s stream }

def sendToAgent (st : State) (message : HubMessage) : Option State :=
  match st.connection with
  | some conn =>
    let stream := st.streams conn.stream
    if stream.receiverAlive then
      some (st.setStream conn.stream { stream with queue := stream.queue ++ [message] })
    else none
  | none => none

def agentConfigVersion (st : State) (core : CoreType) : Option String :=
  st.connection.bind (·.configVersions core.toStr)

def setAgentConfigVersion (st : State) (core : CoreType) (version : String) : State :=
  { st with connection := st.connection.map fun conn =>
      { conn with configVersions :=
          Function.update conn.configVersions core.toStr (some version) } }

end State

inductive Action where
  | begin (t : TaskId) (core : CoreType) (kind : TaskKind)
  | advance (t : TaskId)
  | beginEdit (e : EditId) (updateType : String) (writes : List RowWrite) (cores : List CoreType)
  /-- `id` and `now` are for the row, if one is written. -/
  | advanceEdit (e : EditId) (id : Uuid) (now : DateTime)
  | connect (s : StreamId)
  | register (s : StreamId)
  | unregister (s : StreamId)
  | dropReceiver (s : StreamId)
  | deliver (o : Agent.Outcomes)

variable (env : HubEnv) (nodeId : Uuid) (parse : String → Option Json)

/-- The statements of a push up to the comparison or the send. -/
def prepare (core : CoreType) : TaskKind → Program (Option ConfigPush)
  | .scheduled => prepareScheduled env nodeId core
  | .manual restart version _ => do return some (← preparePush env nodeId core restart version)
  | .orphan => return none

/-- Whether a core has active bindings. -/
def inspect (core : CoreType) : Program Bool := do
  checkBindingsForCore core (← read (·.nodeBindings.filter fun b => b.nodeId = nodeId ∧ b.isActive))

def beginTask (st : State) (t : TaskId) (core : CoreType) (kind : TaskKind) : State :=
  let phase := match kind with
    | .orphan => TaskPhase.inspecting (inspect nodeId core)
    | kind => .preparing (prepare env nodeId core kind)
  { st with tasks := Function.update st.tasks t ⟨core, kind, st.writes, phase⟩ }

/-- The next step of a task.  The comparison is the one of `push_config_for_core`;
an error of a send ends the task. -/
def advance (st : State) (t : TaskId) : Option State :=
  let task := st.tasks t
  match task.phase with
  | .idle | .finished => none
  | .preparing (.ask k) => some (st.setPhase t (.preparing (k st.db)))
  | .preparing (.throw _) | .preparing (.pure none) => some (st.setPhase t .finished)
  | .preparing (.pure (some message)) =>
    match task.kind with
    | .scheduled => some (st.setPhase t (.comparing message))
    | _ => some (st.setPhase t (.sending message))
  | .comparing message =>
    if st.agentConfigVersion task.core = some message.configVersion then
      some (st.setPhase t .finished)
    else some (st.setPhase t (.sending message))
  | .sending message =>
    match st.sendToAgent (.configPush message) with
    | some st =>
      let lastSent := Function.update st.lastSent task.core (some (message, task.since))
      some { st.setPhase t (.recording message) with lastSent := lastSent }
    | none => some (st.setPhase t .finished)
  | .recording message =>
    let again := match task.kind with
      | .manual _ _ clearsAgain => clearsAgain
      | _ => false
    some ((st.setAgentConfigVersion task.core message.configVersion).setPhase t (.clearing again))
  | .clearing again =>
    let phase := if again then .clearing false else .finished
    some { st.setPhase t phase with db := clearPending st.db nodeId task.core }
  | .inspecting (.ask k) => some (st.setPhase t (.inspecting (k st.db)))
  | .inspecting (.throw _) | .inspecting (.pure true) => some (st.setPhase t .finished)
  | .inspecting (.pure false) => some (st.setPhase t .lookingUp)
  | .lookingUp =>
    match st.agentConfigVersion task.core with
    | some _ => some (st.setPhase t .stopping)
    | none => some (st.setPhase t .finished)
  | .stopping =>
    match st.sendToAgent (.coreStop task.core.proto) with
    | some st => some (st.setPhase t .forgetting)
    | none => some (st.setPhase t .finished)
  | .forgetting => some ((st.setAgentConfigVersion task.core "").setPhase t .finished)

/-- The next step of an edit.  An error of `mark_pending` is logged and ends the call. -/
def advanceEdit (st : State) (e : EditId) (id : Uuid) (now : DateTime) : Option State :=
  match (st.edits e).phase with
  | .idle | .finished => none
  | .writing (write :: writes) cores =>
    some { st.setEdit e (.writing writes cores) with
      db := write.run st.db, writes := st.writes + 1 }
  | .writing [] cores => some (st.setEdit e (.finding cores))
  | .finding [] => some (st.setEdit e .finished)
  | .finding (core :: cores) =>
    match findPending st.db nodeId core with
    | some row => some (st.setEdit e (.updating row.id core cores))
    | none => some (st.setEdit e (.inserting core cores))
  | .updating row _ cores =>
    match updatePending st.db row (st.edits e).updateType now with
    | some db => some { st.setEdit e (.finding cores) with db := db }
    | none => some (st.setEdit e (.finding cores))
  | .inserting core cores =>
    -- Identifiers are fresh.
    if (st.db.nodePendingUpdates.find id).isSome then none
    else
      match insertPending st.db ⟨id, nodeId, core.toStr, (st.edits e).updateType, now⟩ with
      | some db => some { st.setEdit e (.finding cores) with db := db }
      | none => some (st.setEdit e (.finding cores))

/-- What was applied last, after the push of a version for a core. -/
def appliedAfter (lastApplied : CoreType → Option String) (core : CoreType) (version : String) :
    Agent.PushResult → CoreType → Option String
  | .applied _ => Function.update lastApplied core (some version)
  | .skipped | .failed => lastApplied

/-- The agent handles the next message of its stream. -/
def deliver (st : State) (o : Agent.Outcomes) : Option State :=
  match st.current with
  | none => none
  | some s =>
    match (st.streams s).queue with
    | [] => none
    | message :: queue =>
      let st := st.setStream s { st.streams s with queue := queue }
      match message with
      | .coreStop core =>
        some { st with agent := Agent.handleCoreCommand o (.stop core) st.agent }
      | .configPush push =>
        let outcome := Agent.handleConfigPush parse o (received push) st.agent
        let core := Agent.coreTypeFromI32 push.targetCore
        some { st with
          agent := outcome.1
          lastApplied := appliedAfter st.lastApplied core push.configVersion outcome.2 }

/-- **A step of Hub and agent.** -/
def step (st : State) : Action → Option State
  | .begin t core kind =>
    match (st.tasks t).phase with
    | .idle => some (beginTask env nodeId st t core kind)
    | _ => none
  | .advance t => advance nodeId st t
  | .beginEdit e updateType writes cores =>
    match (st.edits e).phase with
    | .idle => some { st with
        edits := Function.update st.edits e ⟨updateType, .writing writes cores⟩ }
    | _ => none
  | .advanceEdit e id now => advanceEdit nodeId st e id now
  | .connect s =>
    match (st.streams s).phase with
    | .unopened => some { st.setStream s ⟨.opened (coreConfigVersions st.agent), [], true⟩ with
        current := some s }
    | _ => none
  | .register s =>
    match (st.streams s).phase with
    | .opened versions => some { st.setStream s { st.streams s with phase := .registered } with
        connection := some ⟨s, versions⟩ }
    | _ => none
  | .unregister s =>
    -- The node is removed from the map, whichever stream is registered there.
    match (st.streams s).phase with
    | .registered => some { st.setStream s { st.streams s with phase := .closed } with
        connection := none }
    | _ => none
  | .dropReceiver s =>
    some (st.setStream s { st.streams s with queue := [], receiverAlive := false })
  | .deliver o => deliver parse st o

/-! ### What a step of a task does -/

@[simp] theorem tasks_setPhase_self (st : State) (t : TaskId) (phase : TaskPhase) :
    (st.setPhase t phase).tasks t = { st.tasks t with phase := phase } := Function.update_self ..

theorem tasks_setPhase_of_ne (st : State) {t t' : TaskId} (h : t' ≠ t) (phase : TaskPhase) :
    (st.setPhase t phase).tasks t' = st.tasks t' := Function.update_of_ne h _ _

def TaskPhase.isOrphan : TaskPhase → Bool
  | .inspecting _ | .lookingUp | .stopping | .forgetting => true
  | _ => false

/-- The steps of a task, with what they do. -/
inductive Advance (st : State) (t : TaskId) : State → Prop
  | statement (k : Db → Program (Option ConfigPush))
      (h : (st.tasks t).phase = .preparing (.ask k)) :
      Advance st t (st.setPhase t (.preparing (k st.db)))
  | prepared (message : ConfigPush) (phase : TaskPhase)
      (h : (st.tasks t).phase = .preparing (.pure (some message)))
      (hphase : phase = .comparing message ∨ phase = .sending message) :
      Advance st t (st.setPhase t phase)
  | proceed (message : ConfigPush) (h : (st.tasks t).phase = .comparing message) :
      Advance st t (st.setPhase t (.sending message))
  | finish (h : ∀ message, (st.tasks t).phase ≠ .recording message) :
      Advance st t (st.setPhase t .finished)
  | send (message : ConfigPush) (conn : Connection) (h : (st.tasks t).phase = .sending message)
      (hconn : st.connection = some conn) :
      Advance st t { (st.setStream conn.stream { st.streams conn.stream with
          queue := (st.streams conn.stream).queue ++ [.configPush message] }).setPhase t
            (.recording message) with
        lastSent := Function.update st.lastSent (st.tasks t).core
          (some (message, (st.tasks t).since)) }
  | record (message : ConfigPush) (again : Bool) (h : (st.tasks t).phase = .recording message) :
      Advance st t ((st.setAgentConfigVersion (st.tasks t).core message.configVersion).setPhase t
        (.clearing again))
  | clear (again : Bool) (phase : TaskPhase) (h : (st.tasks t).phase = .clearing again)
      (hphase : phase = .clearing false ∨ phase = .finished) :
      Advance st t { st.setPhase t phase with db := clearPending st.db nodeId (st.tasks t).core }
  | orphan (phase : TaskPhase) (h : (st.tasks t).phase.isOrphan = true)
      (hphase : phase.isOrphan = true) : Advance st t (st.setPhase t phase)
  | sendStop (conn : Connection) (h : (st.tasks t).phase = .stopping)
      (hconn : st.connection = some conn) :
      Advance st t ((st.setStream conn.stream { st.streams conn.stream with
        queue := (st.streams conn.stream).queue ++ [.coreStop (st.tasks t).core.proto] }).setPhase t
          .forgetting)
  | forget (h : (st.tasks t).phase = .forgetting) :
      Advance st t ((st.setAgentConfigVersion (st.tasks t).core "").setPhase t .finished)

theorem sendToAgent_eq_some {st st' : State} {message : HubMessage}
    (h : st.sendToAgent message = some st') : ∃ conn, st.connection = some conn ∧
      st' = st.setStream conn.stream { st.streams conn.stream with
        queue := (st.streams conn.stream).queue ++ [message] } := by
  rw [State.sendToAgent] at h
  split at h
  · rename_i conn hconn
    dsimp only at h
    split at h
    · cases h
      exact ⟨conn, hconn, rfl⟩
    · cases h
  · cases h

theorem advance_cases {st st' : State} {t : TaskId} (h : advance nodeId st t = some st') :
    Advance nodeId st t st' := by
  have hfinish : (∀ message, (st.tasks t).phase ≠ .recording message) →
      some (st.setPhase t .finished) = some st' → Advance nodeId st t st' := by
    rintro hne heq
    cases heq
    exact .finish hne
  cases hphase : (st.tasks t).phase with
  | idle | finished => simp only [advance, hphase] at h; cases h
  | preparing program =>
    have hne : ∀ message, (st.tasks t).phase ≠ .recording message := by
      rw [hphase]
      exact fun _ heq => nomatch heq
    cases program with
    | ask k =>
      simp only [advance, hphase] at h
      cases h
      exact .statement k hphase
    | throw e =>
      simp only [advance, hphase] at h
      exact hfinish hne h
    | pure result =>
      cases result with
      | none =>
        simp only [advance, hphase] at h
        exact hfinish hne h
      | some message =>
        simp only [advance, hphase] at h
        split at h
        · cases h
          exact .prepared message _ hphase (Or.inl rfl)
        · cases h
          exact .prepared message _ hphase (Or.inr rfl)
  | comparing message =>
    simp only [advance, hphase] at h
    split at h
    · exact hfinish (by rw [hphase]; exact fun _ heq => nomatch heq) h
    · cases h
      exact .proceed message hphase
  | sending message =>
    simp only [advance, hphase] at h
    split at h
    · rename_i st₁ hsend
      obtain ⟨conn, hconn, rfl⟩ := sendToAgent_eq_some hsend
      cases h
      exact .send message conn hphase hconn
    · exact hfinish (by rw [hphase]; exact fun _ heq => nomatch heq) h
  | recording message =>
    simp only [advance, hphase] at h
    cases h
    exact .record message _ hphase
  | clearing again =>
    simp only [advance, hphase] at h
    cases h
    refine .clear again _ hphase ?_
    cases again with
    | true => exact Or.inl rfl
    | false => exact Or.inr rfl
  | inspecting program =>
    have hne : ∀ message, (st.tasks t).phase ≠ .recording message := by
      rw [hphase]
      exact fun _ heq => nomatch heq
    have horphan : (st.tasks t).phase.isOrphan = true := by rw [hphase]; rfl
    cases program with
    | ask k =>
      simp only [advance, hphase] at h
      cases h
      exact .orphan _ horphan rfl
    | throw e =>
      simp only [advance, hphase] at h
      exact hfinish hne h
    | pure hasBindings =>
      cases hasBindings with
      | true =>
        simp only [advance, hphase] at h
        exact hfinish hne h
      | false =>
        simp only [advance, hphase] at h
        cases h
        exact .orphan _ horphan rfl
  | lookingUp =>
    simp only [advance, hphase] at h
    split at h
    · cases h
      exact .orphan _ (by rw [hphase]; rfl) rfl
    · exact hfinish (by rw [hphase]; exact fun _ heq => nomatch heq) h
  | stopping =>
    simp only [advance, hphase] at h
    split at h
    · rename_i st₁ hsend
      obtain ⟨conn, hconn, rfl⟩ := sendToAgent_eq_some hsend
      cases h
      exact .sendStop conn hphase hconn
    · exact hfinish (by rw [hphase]; exact fun _ heq => nomatch heq) h
  | forgetting =>
    simp only [advance, hphase] at h
    cases h
    exact .forget hphase

/-- A step changes no other task. -/
theorem tasks_advance_of_ne {st st' : State} {t t' : TaskId} (h : Advance nodeId st t st')
    (ht : t' ≠ t) : st'.tasks t' = st.tasks t' := by
  cases h <;> exact Function.update_of_ne ht _ _

end ProxyPanel.Hub.PushTasks
