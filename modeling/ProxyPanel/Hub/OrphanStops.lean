import ProxyPanel.Hub.RecordedVersions

/-!
# Stopping orphan cores

A periodic check stops a core of a node that has no bindings any more and has a
recorded version, and then records the empty version.  Only one check runs at a time;
pushes and the streams of the agent go on beside it.  The model keeps every message
that was sent with the stream it went to.  `stopsOnce_iff` says that a core is stopped
once and no empty version is recorded exactly in the runs in which every record of a
stop comes too late to find the node connected.
-/

namespace ProxyPanel.Hub.OrphanStops

open PushTasks Run

/-- Hub, streams and agent, the messages that were sent, and the stop that is under way. -/
structure Observed where
  hub : State
  sent : List (StreamId × HubMessage)
  reconciling : Option TaskId

/-- The stream a message would go to. -/
def target (st : State) : Option StreamId :=
  (st.connection.filter fun conn => (st.streams conn.stream).receiverAlive).map (·.stream)

/-- The message a step of a task sends. -/
def emitted (st : State) : Action → List (StreamId × HubMessage)
  | .advance t =>
    match (st.tasks t).phase with
    | .sending message => ((target st).map fun s => (s, .configPush message)).toList
    | .stopping => ((target st).map fun s => (s, .coreStop (st.tasks t).core.proto)).toList
    | _ => []
  | _ => []

/-- The stop that is under way after a step. -/
def reconcilingAfter (hub : State) (reconciling : Option TaskId) (a : Action) : Option TaskId :=
  let begun := match a with
    | .begin t _ .orphan => some t
    | _ => reconciling
  begun.filter fun t => (hub.tasks t).phase.isOrphan

section

variable (env : HubEnv) (nodeId : Uuid) (parse : String → Option Json)

/-- The checks come from one loop: a stop does not begin while another one is under way. -/
def observe (o : Observed) (a : Action) : Option Observed :=
  match a, o.reconciling with
  | .begin _ _ .orphan, some _ => none
  | _, _ => (step env nodeId parse o.hub a).map fun hub =>
      ⟨hub, o.sent ++ emitted o.hub a, reconcilingAfter hub o.reconciling a⟩

/-! ### What is to hold -/

def isStop (s : StreamId) (core : CoreType) : StreamId × HubMessage → Bool
  | (s', .coreStop proto) => s' == s && proto == core.proto
  | (_, .configPush _) => false

def isPush (core : CoreType) : StreamId × HubMessage → Bool
  | (_, .configPush push) => targetOf push = core
  | (_, .coreStop _) => false

/-- **An orphan is stopped once**: between two pushes for a core, a connection gets at most one
stop for it, and no recorded version is empty. -/
structure StopsOnce (o : Observed) : Prop where
  one_stop : ∀ core s before between after, o.sent = before ++ between ++ after →
    (∀ m ∈ between, isPush core m = false) → between.countP (isStop s core) ≤ 1
  never_empty : ∀ conn coreType, o.hub.connection = some conn →
    conn.configVersions coreType ≠ some ""

/-- The record of a stop does not find the node connected. -/
def TooLate (o : Observed) : Action → Prop
  | .advance t => (o.hub.tasks t).phase = .forgetting → o.hub.connection = none
  | _ => True

/-! ### The messages of a step -/

variable {env : HubEnv} {nodeId : Uuid} {parse : String → Option Json} {o o' : Observed}

theorem sendToAgent_of_target {st st' : State} {message : HubMessage}
    (h : st.sendToAgent message = some st') : ∃ conn, st.connection = some conn ∧
      target st = some conn.stream ∧
      st' = st.setStream conn.stream { st.streams conn.stream with
        queue := (st.streams conn.stream).queue ++ [message] } := by
  obtain ⟨conn, hconn, heq⟩ := sendToAgent_eq_some h
  refine ⟨conn, hconn, ?_, heq⟩
  rw [State.sendToAgent, hconn] at h
  dsimp only at h
  split at h
  next halive => rw [target, hconn, Option.filter_some, if_pos halive, Option.map_some]
  next => cases h

theorem target_of_sendToAgent_eq_none {st : State} {message : HubMessage}
    (h : st.sendToAgent message = none) : target st = none := by
  rw [State.sendToAgent] at h
  cases hconn : st.connection with
  | none => rw [target, hconn]; rfl
  | some conn =>
    rw [hconn] at h
    dsimp only at h
    split at h
    next => cases h
    next halive => rw [target, hconn, Option.filter_some, if_neg halive, Option.map_none]

theorem streams_setStream_self (st : State) (s : StreamId) (stream : Stream) :
    (st.setStream s stream).streams s = stream := Function.update_self ..

theorem streams_setStream_of_ne (st : State) {s s' : StreamId} (h : s' ≠ s) (stream : Stream) :
    (st.setStream s stream).streams s' = st.streams s' := Function.update_of_ne h ..

/-- A stream that keeps its phase. -/
theorem phase_setStream (st : State) {s : StreamId} {stream : Stream}
    (h : stream.phase = (st.streams s).phase) (s' : StreamId) :
    ((st.setStream s stream).streams s').phase = (st.streams s').phase := by
  by_cases hs : s' = s
  · subst hs
    rw [streams_setStream_self, h]
  · rw [streams_setStream_of_ne st hs]

/-- A stop on a stream. -/
def stopsOn (s : StreamId) : StreamId × HubMessage → Bool
  | (s', .coreStop _) => s' == s
  | (_, .configPush _) => false

/-- What a step of a task does: the task goes on, `sent` is appended to the channels, and a
version that is recorded is that of a push, unless a stop is. -/
structure Moved (st st' : State) (t : TaskId) (phase : TaskPhase)
    (sent : List (StreamId × HubMessage)) : Prop where
  tasks : st'.tasks = (st.setPhase t phase).tasks
  phases : ∀ s, (st'.streams s).phase = (st.streams s).phase
  queues : ∀ s, (st'.streams s).queue =
    (st.streams s).queue ++ (sent.filter fun m => m.1 = s).map (·.2)
  fits : TaskFits (st.tasks t) → TaskFits { st.tasks t with phase := phase }
  orphan : phase.isOrphan = true → (st.tasks t).phase.isOrphan = true
  connection : ∀ conn', st'.connection = some conn' → ∃ conn, st.connection = some conn ∧
    conn'.stream = conn.stream ∧ ((st.tasks t).phase = .forgetting ∨
      ∀ c v, conn'.configVersions c = some v → conn.configVersions c = some v ∨
        ∃ message, (st.tasks t).phase = .recording message ∧ v = message.configVersion)
  stops : (∀ m ∈ sent, ∀ s, stopsOn s m = false) ∨
    (st.tasks t).phase = .stopping ∧ phase = .forgetting ∧
      ∃ conn message, st.connection = some conn ∧ sent = [(conn.stream, message)]

section

variable {st st' : State} {t : TaskId} {phase : TaskPhase}

theorem moved_setPhase (hfits : TaskFits (st.tasks t) → TaskFits { st.tasks t with phase := phase })
    (horphan : phase.isOrphan = true → (st.tasks t).phase.isOrphan = true) :
    Moved st (st.setPhase t phase) t phase [] where
  tasks := rfl
  phases _ := rfl
  queues _ := (List.append_nil _).symm
  fits := hfits
  orphan := horphan
  connection conn' hconn' := ⟨conn', hconn', rfl, .inr fun _ _ h => .inl h⟩
  stops := .inl fun _ h => nomatch h

theorem moved_finished : Moved st (st.setPhase t .finished) t .finished [] :=
  moved_setPhase (fun _ => trivial) fun h => nomatch h

theorem moved_send {message : HubMessage} {st₁ : State} (hsend : st.sendToAgent message = some st₁)
    (hfits : TaskFits (st.tasks t) → TaskFits { st.tasks t with phase := phase })
    (horphan : phase.isOrphan = true → (st.tasks t).phase.isOrphan = true)
    (hstops : (∀ s, stopsOn s (s, message) = false) ∨
      (st.tasks t).phase = .stopping ∧ phase = .forgetting) :
    Moved st (st₁.setPhase t phase) t phase
      ((target st).map fun s => (s, message)).toList := by
  obtain ⟨conn, hconn, htarget, rfl⟩ := sendToAgent_of_target hsend
  rw [htarget]
  refine ⟨rfl, phase_setStream st rfl, fun s => ?_, hfits, horphan,
    fun conn' hconn' => ⟨conn', hconn', rfl, .inr fun _ _ h => .inl h⟩, ?_⟩
  · by_cases hs : s = conn.stream
    · subst hs
      have hqueue := congrArg Stream.queue (streams_setStream_self st conn.stream
        { st.streams conn.stream with queue := (st.streams conn.stream).queue ++ [message] })
      refine hqueue.trans ?_
      simp
    · refine (congrArg Stream.queue (streams_setStream_of_ne st hs _)).trans ?_
      simp [Ne.symm hs]
  · rcases hstops with hpush | ⟨hstopping, hforgetting⟩
    · refine .inl fun m hm s => ?_
      cases List.mem_singleton.mp hm
      cases message with
      | configPush push => rfl
      | coreStop core => simp [stopsOn] at hpush
    · exact .inr ⟨hstopping, hforgetting, conn, message, hconn, rfl⟩

/-- A version is recorded, if the node is connected. -/
theorem moved_record {version : String} (hphase : phase.isOrphan = false)
    (hfits : TaskFits { st.tasks t with phase := phase })
    (hversion : (st.tasks t).phase = .forgetting ∨
      ∃ message, (st.tasks t).phase = .recording message ∧ version = message.configVersion) :
    Moved st ((st.setAgentConfigVersion (st.tasks t).core version).setPhase t phase) t phase [] where
  tasks := rfl
  phases _ := rfl
  queues _ := (List.append_nil _).symm
  fits _ := hfits
  orphan h := by rw [hphase] at h; cases h
  connection conn' hconn' := by
    obtain ⟨conn, hconn, rfl⟩ := Option.map_eq_some_iff.mp hconn'
    refine ⟨conn, hconn, rfl, hversion.imp_right fun hmessage c v hv => ?_⟩
    dsimp only at hv
    by_cases hc : c = (st.tasks t).core.toStr
    · subst hc
      rw [Function.update_self] at hv
      cases hv
      exact .inr hmessage
    · rw [Function.update_of_ne hc] at hv
      exact .inl hv
  stops := .inl fun _ h => nomatch h

/-- **The steps of a task.** -/
theorem advance_moved (h : advance nodeId st t = some st') :
    ∃ phase, Moved st st' t phase (emitted st (.advance t)) := by
  have hfailed : ∀ {message : HubMessage}, st.sendToAgent message = none →
      ((target st).map fun s => (s, message)).toList = [] := by
    intro message hnone
    rw [target_of_sendToAgent_eq_none hnone]
    rfl
  cases hphase : (st.tasks t).phase with
  | idle | finished => simp only [advance, hphase] at h; cases h
  | preparing program =>
    rw [emitted, hphase]
    cases program with
    | ask k =>
      simp only [advance, hphase] at h
      cases h
      refine ⟨_, moved_setPhase (fun hfits => ?_) fun h => by cases h⟩
      rw [TaskFits, hphase] at hfits
      exact hfits st.db
    | throw e =>
      simp only [advance, hphase] at h
      cases h
      exact ⟨_, moved_finished⟩
    | pure result =>
      cases result with
      | none =>
        simp only [advance, hphase] at h
        cases h
        exact ⟨_, moved_finished⟩
      | some message =>
        have hfits : TaskFits (st.tasks t) → Fits (st.tasks t).core message := by
          intro hfits
          rw [TaskFits, hphase] at hfits
          exact hfits message rfl
        simp only [advance, hphase] at h
        split at h
        · cases h
          exact ⟨_, moved_setPhase hfits fun h => by cases h⟩
        · cases h
          exact ⟨_, moved_setPhase hfits fun h => by cases h⟩
  | comparing message =>
    rw [emitted, hphase]
    simp only [advance, hphase] at h
    split at h
    · cases h
      exact ⟨_, moved_finished⟩
    · cases h
      refine ⟨_, moved_setPhase (fun hfits => ?_) fun h => by cases h⟩
      rw [TaskFits, hphase] at hfits
      exact hfits
  | sending message =>
    rw [emitted, hphase]
    simp only [advance, hphase] at h
    split at h
    next st₁ hsend =>
      cases h
      have hmoved : Moved st (st₁.setPhase t (.recording message)) t (.recording message)
          ((target st).map fun s => (s, .configPush message)).toList := by
        refine moved_send hsend (fun hfits => ?_) (fun h => by cases h) (.inl fun _ => rfl)
        rw [TaskFits, hphase] at hfits
        exact hfits
      exact ⟨_, hmoved.tasks, hmoved.phases, hmoved.queues, hmoved.fits, hmoved.orphan,
        hmoved.connection, hmoved.stops⟩
    next hnone =>
      cases h
      refine ⟨.finished, ?_⟩
      dsimp only
      rw [hfailed hnone]
      exact moved_finished
  | recording message =>
    rw [emitted, hphase]
    simp only [advance, hphase] at h
    cases h
    exact ⟨_, moved_record rfl trivial (.inr ⟨message, hphase, rfl⟩)⟩
  | clearing again =>
    rw [emitted, hphase]
    simp only [advance, hphase] at h
    cases h
    cases again with
    | true =>
      have hmoved : Moved st (st.setPhase t (.clearing false)) t (.clearing false) [] :=
        moved_setPhase (fun _ => trivial) fun h => by cases h
      exact ⟨_, hmoved.tasks, hmoved.phases, hmoved.queues, hmoved.fits, hmoved.orphan,
        hmoved.connection, hmoved.stops⟩
    | false =>
      have hmoved : Moved st (st.setPhase t .finished) t .finished [] := moved_finished
      exact ⟨_, hmoved.tasks, hmoved.phases, hmoved.queues, hmoved.fits, hmoved.orphan,
        hmoved.connection, hmoved.stops⟩
  | inspecting program =>
    have horphan : ∀ phase : TaskPhase, phase.isOrphan = true →
        (st.tasks t).phase.isOrphan = true := by
      intro _ _
      rw [hphase]
      rfl
    rw [emitted, hphase]
    cases program with
    | ask k =>
      simp only [advance, hphase] at h
      cases h
      exact ⟨_, moved_setPhase (fun _ => trivial) (horphan _)⟩
    | throw e =>
      simp only [advance, hphase] at h
      cases h
      exact ⟨_, moved_finished⟩
    | pure hasBindings =>
      cases hasBindings with
      | true =>
        simp only [advance, hphase] at h
        cases h
        exact ⟨_, moved_finished⟩
      | false =>
        simp only [advance, hphase] at h
        cases h
        exact ⟨_, moved_setPhase (fun _ => trivial) (horphan _)⟩
  | lookingUp =>
    rw [emitted, hphase]
    simp only [advance, hphase] at h
    split at h
    · cases h
      refine ⟨_, moved_setPhase (fun _ => trivial) fun _ => ?_⟩
      rw [hphase]
      rfl
    · cases h
      exact ⟨_, moved_finished⟩
  | stopping =>
    rw [emitted, hphase]
    simp only [advance, hphase] at h
    split at h
    next st₁ hsend =>
      cases h
      refine ⟨_, moved_send hsend (fun _ => trivial) (fun _ => ?_) (.inr ⟨hphase, rfl⟩)⟩
      rw [hphase]
      rfl
    next hnone =>
      cases h
      refine ⟨.finished, ?_⟩
      dsimp only
      rw [hfailed hnone]
      exact moved_finished
  | forgetting =>
    rw [emitted, hphase]
    simp only [advance, hphase] at h
    cases h
    exact ⟨_, moved_record rfl trivial (.inl hphase)⟩

end

/-! ### The invariant -/

/-- A stream that has been registered, and never will be again. -/
def Used (st : State) (s : StreamId) : Prop :=
  (st.streams s).phase = .registered ∨ (st.streams s).phase = .closed

/-- Each stream gets one stop at most, and while it is the node's connection the record of
that stop is still to come. -/
structure Inv (o : Observed) : Prop where
  fits : ∀ t, TaskFits (o.hub.tasks t)
  opened : ∀ s versions, (o.hub.streams s).phase = .opened versions →
    ∀ c, versions c ≠ some ""
  recorded : ∀ conn, o.hub.connection = some conn → ∀ c, conn.configVersions c ≠ some ""
  used : ∀ conn, o.hub.connection = some conn → Used o.hub conn.stream
  sent_used : ∀ m ∈ o.sent, ∀ s, stopsOn s m = true → Used o.hub s
  single : ∀ t, (o.hub.tasks t).phase.isOrphan = true → o.reconciling = some t
  once : ∀ s, o.sent.countP (stopsOn s) ≤ 1
  stopped : ∀ conn, o.hub.connection = some conn → ∀ m ∈ o.sent, stopsOn conn.stream m = true →
    ∃ t, (o.hub.tasks t).phase = .forgetting

theorem countP_stopsOn_append {sent sent' : List (StreamId × HubMessage)} {s : StreamId}
    (h : ∀ m ∈ sent', stopsOn s m = false) :
    (sent ++ sent').countP (stopsOn s) = sent.countP (stopsOn s) := by
  have hzero : sent'.countP (stopsOn s) = 0 :=
    List.countP_eq_zero.mpr fun m hm => by rw [h m hm]; exact Bool.false_ne_true
  rw [List.countP_append, hzero, Nat.add_zero]

/-- A step of a task, with a record that comes too late if it is that of a stop. -/
theorem Inv.moved (hi : Inv o) {hub : State} {t : TaskId} {phase : TaskPhase}
    {sent : List (StreamId × HubMessage)} (h : Moved o.hub hub t phase sent)
    (hlate : (o.hub.tasks t).phase = .forgetting → hub.connection = none) :
    Inv ⟨hub, o.sent ++ sent, o.reconciling.filter fun t' => (hub.tasks t').phase.isOrphan⟩ := by
  have hself : (hub.tasks t).phase = phase := by rw [h.tasks, tasks_setPhase_self]
  have hother : ∀ t', t' ≠ t → hub.tasks t' = o.hub.tasks t' := by
    intro t' ht'
    rw [h.tasks, tasks_setPhase_of_ne o.hub ht']
  have hused : ∀ s, Used o.hub s → Used hub s := by
    intro s hs
    rw [Used, h.phases]
    exact hs
  -- A stop is sent by the one task that reconciles, so no other stop waits for its record.
  have hnew : ∀ s, (∃ m ∈ sent, stopsOn s m = true) → phase = .forgetting ∧
      sent.countP (stopsOn s) ≤ 1 ∧ o.sent.countP (stopsOn s) = 0 ∧ Used o.hub s := by
    rintro s ⟨m, hm, hstop⟩
    rcases h.stops with hnone | ⟨hstopping, hforgetting, conn, message, hconn, rfl⟩
    · rw [hnone m hm s] at hstop
      cases hstop
    · cases List.mem_singleton.mp hm
      have hs : conn.stream = s := by
        cases message with
        | configPush push => cases hstop
        | coreStop core => exact beq_iff_eq.mp hstop
      subst hs
      refine ⟨hforgetting, List.countP_le_length, List.countP_eq_zero.mpr fun m' hm' hstop' => ?_,
        hi.used conn hconn⟩
      obtain ⟨t', ht'⟩ := hi.stopped conn hconn m' hm' hstop'
      have hreconciling := hi.single t' (by rw [ht']; rfl)
      rw [hi.single t (by rw [hstopping]; rfl)] at hreconciling
      cases hreconciling
      cases hstopping.symm.trans ht'
  refine ⟨fun t' => ?_, fun s versions hs => ?_, fun conn' hconn' c hempty => ?_,
    fun conn' hconn' => ?_, fun m hm s hstop => ?_, fun t' ht' => ?_, fun s => ?_,
    fun conn' hconn' m hm hstop => ?_⟩
  · by_cases ht : t' = t
    · subst ht
      rw [h.tasks, tasks_setPhase_self]
      exact h.fits (hi.fits t')
    · rw [hother t' ht]
      exact hi.fits t'
  · rw [h.phases] at hs
    exact hi.opened s versions hs
  · obtain ⟨conn, hconn, _, hversions⟩ := h.connection conn' hconn'
    rcases hversions with hforgetting | hversions
    · rw [hlate hforgetting] at hconn'
      cases hconn'
    · rcases hversions c "" hempty with hold | ⟨message, hrecording, hversion⟩
      · exact hi.recorded conn hconn c hold
      · have hfits := hi.fits t
        rw [TaskFits, hrecording] at hfits
        exact hfits.2 hversion.symm
  · obtain ⟨conn, hconn, hstream, _⟩ := h.connection conn' hconn'
    rw [hstream]
    exact hused conn.stream (hi.used conn hconn)
  · rcases List.mem_append.mp hm with hold | hsent
    · exact hused s (hi.sent_used m hold s hstop)
    · exact hused s (hnew s ⟨m, hsent, hstop⟩).2.2.2
  · have hbefore : (o.hub.tasks t').phase.isOrphan = true := by
      by_cases ht : t' = t
      · subst ht
        rw [hself] at ht'
        exact h.orphan ht'
      · rwa [hother t' ht] at ht'
    rw [hi.single t' hbefore, Option.filter_some, if_pos ht']
  · by_cases hsent : ∃ m ∈ sent, stopsOn s m = true
    · obtain ⟨_, hone, hzero, _⟩ := hnew s hsent
      rw [List.countP_append, hzero, Nat.zero_add]
      exact hone
    · rw [countP_stopsOn_append fun m hm => Bool.eq_false_iff.mpr fun hstop =>
        hsent ⟨m, hm, hstop⟩]
      exact hi.once s
  · obtain ⟨conn, hconn, hstream, _⟩ := h.connection conn' hconn'
    rcases List.mem_append.mp hm with hold | hsent
    · rw [hstream] at hstop
      obtain ⟨t', ht'⟩ := hi.stopped conn hconn m hold hstop
      by_cases ht : t' = t
      · subst ht
        rw [hlate ht'] at hconn'
        cases hconn'
      · exact ⟨t', by rw [hother t' ht]; exact ht'⟩
    · exact ⟨t, hself.trans (hnew conn'.stream ⟨m, hsent, hstop⟩).1⟩

/-- A step that leaves the tasks alone.  A node that connects is on a stream without stops. -/
theorem Inv.sameTasks (hi : Inv o) {hub : State} (htasks : hub.tasks = o.hub.tasks)
    (hopened : ∀ s versions, (hub.streams s).phase = .opened versions → ∀ c, versions c ≠ some "")
    (hused : ∀ s, Used o.hub s → Used hub s)
    (hconn : ∀ conn, hub.connection = some conn → o.hub.connection = some conn ∨
      (∀ c, conn.configVersions c ≠ some "") ∧ Used hub conn.stream ∧
        ∀ m ∈ o.sent, stopsOn conn.stream m = false) :
    Inv ⟨hub, o.sent ++ [], o.reconciling.filter fun t => (hub.tasks t).phase.isOrphan⟩ := by
  rw [List.append_nil]
  refine ⟨fun t => htasks ▸ hi.fits t, hopened, fun conn hc => ?_, fun conn hc => ?_,
    fun m hm s hstop => hused s (hi.sent_used m hm s hstop), fun t ht => ?_, hi.once,
    fun conn hc m hm hstop => ?_⟩
  · rcases hconn conn hc with hold | ⟨hversions, _, _⟩
    · exact hi.recorded conn hold
    · exact hversions
  · rcases hconn conn hc with hold | ⟨_, hstream, _⟩
    · exact hused conn.stream (hi.used conn hold)
    · exact hstream
  · have hbefore : (o.hub.tasks t).phase.isOrphan = true := by rwa [← htasks]
    rw [hi.single t hbefore, Option.filter_some, if_pos ht]
  · rcases hconn conn hc with hold | ⟨_, _, hnone⟩
    · obtain ⟨t, ht⟩ := hi.stopped conn hold m hm hstop
      exact ⟨t, by rw [htasks]; exact ht⟩
    · rw [hnone m hm] at hstop
      cases hstop

/-- A stop begins only when none is under way. -/
theorem Inv.begun (hversion : ∀ text, env.configVersionOf text ≠ "") (hi : Inv o) {t : TaskId}
    {core : CoreType} {kind : TaskKind} (hidle : (o.hub.tasks t).phase = .idle)
    (hfree : kind = .orphan → o.reconciling = none) :
    Inv ⟨beginTask env nodeId o.hub t core kind, o.sent ++ [],
      reconcilingAfter (beginTask env nodeId o.hub t core kind) o.reconciling (.begin t core kind)⟩ := by
  rw [List.append_nil]
  have hother : ∀ t', t' ≠ t → (beginTask env nodeId o.hub t core kind).tasks t' = o.hub.tasks t' :=
    fun t' ht' => Function.update_of_ne ht' ..
  refine ⟨fun t' => ?_, hi.opened, hi.recorded, hi.used, hi.sent_used, fun t' ht' => ?_, hi.once,
    fun conn hconn m hm hstop => ?_⟩
  · by_cases ht : t' = t
    · subst ht
      simp only [beginTask, Function.update_self]
      cases kind with
      | orphan => trivial
      | scheduled => exact returns_prepare hversion core .scheduled
      | manual restart version again => exact returns_prepare hversion core _
    · rw [hother t' ht]
      exact hi.fits t'
  · by_cases ht : t' = t
    · subst ht
      cases kind with
      | orphan => rw [reconcilingAfter, Option.filter_some, if_pos ht']
      | _ =>
        simp only [beginTask, Function.update_self] at ht'
        cases ht'
    · have hbefore : (o.hub.tasks t').phase.isOrphan = true := by rwa [hother t' ht] at ht'
      have hreconciling := hi.single t' hbefore
      cases kind with
      | orphan =>
        rw [hfree rfl] at hreconciling
        cases hreconciling
      | _ =>
        change o.reconciling.filter _ = some t'
        rw [hreconciling, Option.filter_some, if_pos ht']
  · obtain ⟨t', ht'⟩ := hi.stopped conn hconn m hm hstop
    have ht : t' ≠ t := by
      rintro rfl
      cases hidle.symm.trans ht'
    exact ⟨t', by rw [hother t' ht]; exact ht'⟩

theorem not_opened_of_used {st : State} {s : StreamId} {versions : String → Option String}
    (h : Used st s) : (st.streams s).phase ≠ .opened versions := by
  intro hopened
  rcases h with h | h
  · cases h.symm.trans hopened
  · cases h.symm.trans hopened

/-- A stream that was used is used. -/
theorem used_setStream {st : State} {s : StreamId} {stream : Stream}
    (h : Used st s → stream.phase = .registered ∨ stream.phase = .closed) (s' : StreamId)
    (hs' : Used st s') : Used (st.setStream s stream) s' := by
  by_cases hs : s' = s
  · subst hs
    rw [Used, streams_setStream_self]
    exact h hs'
  · rw [Used, streams_setStream_of_ne st hs]
    exact hs'

/-- The streams change without a change of phase. -/
theorem Inv.samePhases (hi : Inv o) {hub : State} (htasks : hub.tasks = o.hub.tasks)
    (hconn : hub.connection = o.hub.connection)
    (hphases : ∀ s, (hub.streams s).phase = (o.hub.streams s).phase) :
    Inv ⟨hub, o.sent ++ [], o.reconciling.filter fun t => (hub.tasks t).phase.isOrphan⟩ := by
  refine hi.sameTasks htasks (fun s versions hs => ?_) (fun s hs => ?_) fun conn hc => ?_
  · rw [hphases] at hs
    exact hi.opened s versions hs
  · rw [Used, hphases]
    exact hs
  · rw [hconn] at hc
    exact .inl hc

theorem observe_eq_some {a : Action} (h : observe env nodeId parse o a = some o') :
    ∃ hub, step env nodeId parse o.hub a = some hub ∧
      o' = ⟨hub, o.sent ++ emitted o.hub a, reconcilingAfter hub o.reconciling a⟩ ∧
        ∀ t core, a = .begin t core .orphan → o.reconciling = none := by
  unfold observe at h
  split at h
  next => cases h
  next hfree =>
    obtain ⟨hub, hstep, rfl⟩ := Option.map_eq_some_iff.mp h
    refine ⟨hub, hstep, rfl, ?_⟩
    rintro t core rfl
    cases hr : o.reconciling with
    | none => rfl
    | some t' => exact (hfree t core t' rfl hr).elim

theorem inv_observe (hversion : ∀ text, env.configVersionOf text ≠ "") {a : Action} (hi : Inv o)
    (hlate : TooLate o a) (h : observe env nodeId parse o a = some o') : Inv o' := by
  obtain ⟨hub, hstep, rfl, hfree⟩ := observe_eq_some h
  cases a with
  | begin t core kind =>
    rw [step] at hstep
    split at hstep
    next hidle =>
      cases hstep
      exact hi.begun hversion hidle fun hkind => hfree t core (by rw [hkind])
    next => cases hstep
  | advance t =>
    obtain ⟨phase, hmoved⟩ := advance_moved hstep
    refine hi.moved hmoved fun hforgetting => ?_
    have hnone : o.hub.connection = none := hlate hforgetting
    cases hconn : hub.connection with
    | none => rfl
    | some conn' =>
      obtain ⟨conn, hconn, _⟩ := hmoved.connection conn' hconn
      rw [hnone] at hconn
      cases hconn
  | beginEdit e updateType writes cores =>
    rw [step] at hstep
    split at hstep
    next =>
      cases hstep
      exact hi.samePhases rfl rfl fun _ => rfl
    next => cases hstep
  | advanceEdit e id now =>
    obtain ⟨hlink, htasks⟩ := link_advanceEdit hstep
    have hconn : hub.connection = o.hub.connection := congrArg Link.connection hlink
    have hstreams : hub.streams = o.hub.streams := congrArg Link.streams hlink
    exact hi.samePhases htasks hconn fun s => by rw [hstreams]
  | connect s =>
    rw [step] at hstep
    split at hstep
    next hunopened =>
      cases hstep
      refine hi.sameTasks rfl (fun s' versions hs' => ?_)
        (used_setStream (fun hs => ?_)) fun _ hc => .inl hc
      · by_cases hs : s' = s
        · subst hs
          cases hs'.symm.trans (congrArg Stream.phase (streams_setStream_self o.hub s' _))
          intro c hempty
          obtain ⟨core, _, hfilter⟩ := Option.bind_eq_some_iff.mp hempty
          exact absurd rfl (of_decide_eq_true (Option.filter_eq_some_iff.mp hfilter).2)
        · exact hi.opened s' versions
            ((congrArg Stream.phase (streams_setStream_of_ne o.hub hs _)).symm.trans hs')
      · rcases hs with hs | hs
        · cases hunopened.symm.trans hs
        · cases hunopened.symm.trans hs
    next => cases hstep
  | register s =>
    rw [step] at hstep
    split at hstep
    next versions hopened =>
      cases hstep
      have hunused : ¬ Used o.hub s := fun hs => not_opened_of_used hs hopened
      refine hi.sameTasks rfl (fun s' versions' hs' => ?_)
        (used_setStream fun _ => .inl rfl) fun conn hc => ?_
      · by_cases hs : s' = s
        · subst hs
          cases hs'.symm.trans (congrArg Stream.phase (streams_setStream_self o.hub s' _))
        · exact hi.opened s' versions'
            ((congrArg Stream.phase (streams_setStream_of_ne o.hub hs _)).symm.trans hs')
      · cases hc
        refine .inr ⟨hi.opened s versions hopened, .inl ?_, fun m hm => ?_⟩
        · exact congrArg Stream.phase (streams_setStream_self o.hub s _)
        · exact Bool.eq_false_iff.mpr fun hstop => hunused (hi.sent_used m hm s hstop)
    next => cases hstep
  | unregister s =>
    rw [step] at hstep
    split at hstep
    next =>
      cases hstep
      refine hi.sameTasks rfl (fun s' versions hs' => ?_)
        (used_setStream fun _ => .inr rfl) fun conn hc => by cases hc
      by_cases hs : s' = s
      · subst hs
        cases hs'.symm.trans (congrArg Stream.phase (streams_setStream_self o.hub s' _))
      · exact hi.opened s' versions
          ((congrArg Stream.phase (streams_setStream_of_ne o.hub hs _)).symm.trans hs')
    next => cases hstep
  | dropReceiver s =>
    cases hstep
    exact hi.samePhases rfl rfl (phase_setStream o.hub rfl)
  | deliver outcomes =>
    change PushTasks.deliver parse o.hub outcomes = some hub at hstep
    unfold PushTasks.deliver at hstep
    split at hstep
    next => cases hstep
    next s _ =>
      split at hstep
      next => cases hstep
      next message queue _ =>
        dsimp only at hstep
        split at hstep
        · cases hstep
          exact hi.samePhases rfl rfl (phase_setStream o.hub rfl)
        · cases hstep
          exact hi.samePhases rfl rfl (phase_setStream o.hub rfl)

theorem inv_initial {st : State} (h : Initial st) : Inv ⟨st, [], none⟩ where
  fits t := by
    rw [TaskFits, h.tasks t]
    trivial
  opened s versions hs := nomatch (h.streams s).symm.trans hs
  recorded conn hconn := nomatch h.connection.symm.trans hconn
  used conn hconn := nomatch h.connection.symm.trans hconn
  sent_used _ hm := nomatch hm
  single t ht := by
    rw [h.tasks t] at ht
    cases ht
  once _ := Nat.zero_le _
  stopped _ _ _ hm := nomatch hm

theorem stopsOn_of_isStop {s : StreamId} {core : CoreType} {m : StreamId × HubMessage}
    (h : isStop s core m = true) : stopsOn s m = true := by
  obtain ⟨s', message⟩ := m
  cases message with
  | configPush push => cases h
  | coreStop proto => exact (Bool.and_eq_true_iff.mp h).1

theorem Inv.stopsOnce (hi : Inv o) : StopsOnce o where
  one_stop core s before between after heq _ :=
    calc between.countP (isStop s core)
        ≤ between.countP (stopsOn s) := List.countP_mono_left fun _ _ h => stopsOn_of_isStop h
      _ ≤ o.sent.countP (stopsOn s) := by
        rw [heq, List.countP_append, List.countP_append]
        omega
      _ ≤ 1 := hi.once s
  never_empty conn c hconn := hi.recorded conn hconn c

/-- A record of a stop that finds the node connected is one of the empty version. -/
theorem tooLate_of_stopsOnce {a : Action} (h : observe env nodeId parse o a = some o')
    (hafter : StopsOnce o') : TooLate o a := by
  obtain ⟨hub, hstep, rfl, _⟩ := observe_eq_some h
  cases a with
  | advance t =>
    intro hforgetting
    cases hconn : o.hub.connection with
    | none => rfl
    | some conn =>
      simp only [step, advance, hforgetting] at hstep
      cases hstep
      exact absurd (Function.update_self ..)
        (hafter.never_empty ⟨conn.stream, Function.update conn.configVersions
          (o.hub.tasks t).core.toStr (some "")⟩ (o.hub.tasks t).core.toStr
          (congrArg (Option.map _) hconn))
  | _ => trivial

/-- **Orphans are stopped once, and no empty version is recorded, exactly in the runs in
which no record of a stop finds the node connected.** -/
theorem stopsOnce_iff (hversion : ∀ text, env.configVersionOf text ≠ "") {st : State}
    (hinit : Initial st) {as : List Action}
    (hrun : (run (observe env nodeId parse) ⟨st, [], none⟩ as).isSome) :
    (∀ bs o, bs <+: as → run (observe env nodeId parse) ⟨st, [], none⟩ bs = some o → StopsOnce o) ↔
      Guarded (observe env nodeId parse) TooLate ⟨st, [], none⟩ as := by
  constructor
  · intro h
    exact guarded_of_forall_prefix (I := Inv)
      (fun _ _ _ hi hlate hstep => inv_observe hversion hi hlate hstep)
      (fun _ _ _ _ hstep hafter => tooLate_of_stopsOnce hstep hafter) (inv_initial hinit) hrun h
  · rintro hlate bs o ⟨cs, rfl⟩ ho
    exact (inv_of_guarded (fun _ _ _ hi hok hstep => inv_observe hversion hi hok hstep)
      (inv_initial hinit) (guarded_append hlate).1 ho).stopsOnce

end

/-! ### A core without bindings -/

namespace NoBindings

/-- The agent still has the sing-box configuration of an earlier push. -/
def initial : State where
  db := {}
  connection := none
  streams _ := ⟨.unopened, [], false⟩
  tasks _ := ⟨.singBox, .scheduled, 0, .idle⟩
  edits _ := ⟨"", .idle⟩
  current := none
  agent := ⟨fun _ => true, fun _ => none, fun _ => some ⟨"sing-box", .null, "f961bc20989301e2"⟩⟩
  lastApplied _ := some "f961bc20989301e2"
  writes := 0
  lastSent _ := none

theorem initial_initial : Initial initial := ⟨rfl, fun _ => rfl, fun _ => rfl, fun _ => rfl⟩

/-- A check of sing-box up to the record of its stop. -/
def stop (t : TaskId) : List Action := .begin t .singBox .orphan :: List.replicate 4 (.advance t)

/-- Two checks of a node that stays connected. -/
def twice : List Action :=
  [.connect 0, .register 0] ++ stop 0 ++ .advance 0 :: stop 1

/-- The stream ends before the stop is recorded, and the node connects again. -/
def reconnected : List Action :=
  [.connect 0, .register 0] ++ stop 0 ++ [.unregister 0, .advance 0, .connect 1, .register 1] ++
    stop 1 ++ [.unregister 1, .advance 1]

def parse : String → Option Json := fun _ => none

end NoBindings

open NoBindings in
/-- The second check finds the empty version and stops the core again. -/
theorem orphan_stopped_twice : ∃ o,
    run (observe MihomoPush.env PresetUser.node parse) ⟨initial, [], none⟩ twice = some o ∧
      Initial initial ∧
      o.sent = [(0, .coreStop CoreType.singBox.proto), (0, .coreStop CoreType.singBox.proto)] ∧
      o.hub.agentConfigVersion .singBox = some "" ∧ ¬ StopsOnce o := by
  have htwice : ∃ o, run (observe MihomoPush.env PresetUser.node parse)
      ⟨initial, [], none⟩ twice = some o ∧
      o.sent = [(0, .coreStop CoreType.singBox.proto), (0, .coreStop CoreType.singBox.proto)] ∧
        o.hub.agentConfigVersion .singBox = some "" := ⟨_, rfl, rfl, rfl⟩
  obtain ⟨o, hrun, hsent, hversion⟩ := htwice
  refine ⟨o, hrun, initial_initial, hsent, hversion, fun h => ?_⟩
  have hone := h.one_stop .singBox 0 [] o.sent [] (by simp) (by rw [hsent]; decide)
  rw [hsent] at hone
  exact absurd hone (by decide)

/-- `TooLate`, computed. -/
def NoBindings.check (o : Observed) : Action → Bool
  | .advance t =>
    match (o.hub.tasks t).phase with
    | .forgetting => o.hub.connection.isNone
    | _ => true
  | _ => true

theorem NoBindings.tooLate_of_check {o : Observed} {a : Action} (h : NoBindings.check o a = true) :
    TooLate o a := by
  cases a with
  | advance t =>
    intro hforgetting
    rw [NoBindings.check, hforgetting] at h
    exact Option.isNone_iff_eq_none.mp h
  | _ => trivial

open NoBindings in
theorem stopsOnce_iff_reconnected : ∃ o,
    run (observe MihomoPush.env PresetUser.node parse) ⟨initial, [], none⟩
        reconnected = some o ∧ o.sent.map Prod.fst = [0, 1] ∧ StopsOnce o := by
  have hversion : ∀ text, MihomoPush.env.configVersionOf text ≠ "" := by
    intro text
    exact (by decide : "f961bc20989301e2" ≠ "")
  have hchecked : checked (observe MihomoPush.env PresetUser.node parse) NoBindings.check
      ⟨initial, [], none⟩ reconnected = true := by decide
  obtain ⟨hlate, o, hrun⟩ := guarded_of_checked (I := fun _ => True)
    (fun _ _ _ h => tooLate_of_check h) (fun _ _ _ _ _ _ => trivial) trivial hchecked
  have hall := (stopsOnce_iff hversion initial_initial (by rw [hrun]; rfl)).mpr hlate
  have hsent : (run (observe MihomoPush.env PresetUser.node parse)
      ⟨initial, [], none⟩ reconnected).map (fun o => o.sent.map Prod.fst) = some [0, 1] := by
    decide
  rw [hrun] at hsent
  exact ⟨o, hrun, Option.some.inj hsent, hall reconnected o (List.prefix_refl _) hrun⟩

end ProxyPanel.Hub.OrphanStops
