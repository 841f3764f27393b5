import ProxyPanel.Hub.PushTasks

/-!
# Markers that are not lost

A push reads rows, generates, sends, records its version and deletes the marker.  Nothing
ties the deletion to the rows that were read: an edit whose rows and marker arrive after the
generation is forgotten (`lost_marker`).

`no_lost_marker` is about every interleaving of edits and pushes.  When a push does not send
or delete behind the back of an edit, a node without a marker has been sent what is generated
from the current rows.
-/

namespace ProxyPanel.Hub.PushTasks

open Json Query

/-! ### What a push reads -/

theorem respects_checkBindingsForCore (core : CoreType) (bindings : List NodeBinding) :
    (checkBindingsForCore core bindings).Respects SameContents := by
  induction bindings with
  | nil => exact respects_pure _
  | cons binding bindings ih =>
    refine respects_read_bind (same_read fun _ _ => rfl) fun config => ?_
    split
    · exact respects_pure _
    · exact ih

/-- **A push does not read markers.** -/
theorem respects_prepare (env : HubEnv) (nodeId : Uuid) (core : CoreType) (kind : TaskKind) :
    (prepare env nodeId core kind).Respects SameContents := by
  cases kind with
  | orphan => exact respects_pure _
  | scheduled =>
    refine respects_read_bind (same_read fun _ _ => rfl) fun bindings => ?_
    refine respects_bind (respects_checkBindingsForCore core bindings) fun hasBindings => ?_
    split
    · refine respects_bind (respects_generateNodeConfig ..) fun out => ?_
      dsimp only
      split
      · exact respects_bind ((respects_coreBuildIdOf ..).mono (same_read fun _ _ => rfl))
          fun buildId => respects_pure _
      · exact respects_pure _
    · exact respects_pure _
  | manual restart version clearsAgain =>
    refine respects_bind ?_ fun message => respects_pure _
    refine respects_bind (respects_mapErr ?_) fun _ => ?_
    · exact respects_read_bind (same_read fun _ _ => rfl) fun bindings =>
        respects_bind (respects_loop respects_checkPort _ _) fun _ => respects_pure _
    · exact respects_bind (respects_generateNodeConfig ..) fun out =>
        respects_bind ((respects_coreBuildIdOf ..).mono (same_read fun _ _ => rfl))
          fun buildId => respects_pure _

/-! ### Generated from the rows -/

/-- A push carries what is generated from the rows. -/
def GeneratedFrom (env : HubEnv) (nodeId : Uuid) (db : Db) (core : CoreType) (push : ConfigPush) :
    Prop :=
  ∃ out buildId restart version,
    (generateNodeConfig env.toGenEnv nodeId core).exec db = .ok out ∧
      (coreBuildIdOf core out.2).exec db = .ok buildId ∧
      push = configPush env core restart version out.1 out.2 buildId

section Generated

variable {env : HubEnv} {nodeId : Uuid} {db db' : Db} {core : CoreType}

theorem generatedFrom_of_sameContents {push : ConfigPush} (hdb : SameContents db db')
    (h : GeneratedFrom env nodeId db core push) : GeneratedFrom env nodeId db' core push := by
  obtain ⟨out, buildId, restart, version, hout, hbuild, hpush⟩ := h
  refine ⟨out, buildId, restart, version, ?_, ?_, hpush⟩
  · rw [← (respects_generateNodeConfig env.toGenEnv nodeId core).exec_eq hdb]
    exact hout
  · rw [← (respects_coreBuildIdOf core out.2).exec_eq (same_read (fun _ _ => rfl) _ _ hdb)]
    exact hbuild

theorem generatedFrom_of_preparePush {restart : Bool} {version : Option String}
    {message : ConfigPush} (h : (preparePush env nodeId core restart version).exec db = .ok message) :
    GeneratedFrom env nodeId db core message := by
  rw [preparePush, exec_bind] at h
  obtain ⟨_, -, h⟩ := Except.bind_eq_ok h
  rw [exec_bind] at h
  obtain ⟨out, hout, h⟩ := Except.bind_eq_ok h
  rw [exec_bind] at h
  obtain ⟨buildId, hbuild, h⟩ := Except.bind_eq_ok h
  cases h
  exact ⟨out, buildId, restart, version, hout, hbuild, rfl⟩

/-- **What a task sends is generated from the rows it read.** -/
theorem generatedFrom_of_prepare {kind : TaskKind} {message : ConfigPush}
    (h : (prepare env nodeId core kind).exec db = .ok (some message)) :
    GeneratedFrom env nodeId db core message := by
  cases kind with
  | orphan => cases h
  | manual restart version clearsAgain =>
    rw [prepare, exec_bind] at h
    obtain ⟨message', hmessage', h⟩ := Except.bind_eq_ok h
    cases h
    exact generatedFrom_of_preparePush hmessage'
  | scheduled =>
    rw [prepare, prepareScheduled, exec_read_bind, exec_bind] at h
    obtain ⟨hasBindings, -, h⟩ := Except.bind_eq_ok h
    split at h
    · rw [exec_bind] at h
      obtain ⟨out, hout, h⟩ := Except.bind_eq_ok h
      dsimp only at h
      split at h
      · rw [exec_bind] at h
        obtain ⟨buildId, hbuild, h⟩ := Except.bind_eq_ok h
        cases h
        exact ⟨out, buildId, false, none, hout, hbuild, rfl⟩
      · cases h
    · cases h

end Generated

/-! ### What tasks know -/

/-- While no row has been written since a task began, its statements are those of one run
on the rows as they are. -/
def TaskGenerated (env : HubEnv) (nodeId : Uuid) (db : Db) (writes : Nat) (task : Task) : Prop :=
  task.since ≤ writes ∧
    match task.phase with
    | .preparing program => program.Respects SameContents ∧ (task.since = writes →
        program.exec db = (prepare env nodeId task.core task.kind).exec db)
    | .comparing message | .sending message =>
      task.since = writes → GeneratedFrom env nodeId db task.core message
    | _ => True

/-- The same of all tasks, and of what was sent last. -/
structure Generated (env : HubEnv) (nodeId : Uuid) (db : Db) (writes : Nat)
    (tasks : TaskId → Task) (lastSent : CoreType → Option (ConfigPush × Nat)) : Prop where
  tasks : ∀ t, TaskGenerated env nodeId db writes (tasks t)
  sent : ∀ core push since, lastSent core = some (push, since) → since ≤ writes ∧
    (since = writes → GeneratedFrom env nodeId db core push)

namespace Generated

variable {env : HubEnv} {nodeId : Uuid} {db db' : Db} {writes : Nat} {tasks : TaskId → Task}
  {lastSent : CoreType → Option (ConfigPush × Nat)}

theorem markers (h : Generated env nodeId db writes tasks lastSent) (hdb : SameContents db db') :
    Generated env nodeId db' writes tasks lastSent where
  tasks := by
    intro t
    obtain ⟨hsince, hphase⟩ := h.tasks t
    refine ⟨hsince, ?_⟩
    revert hphase
    cases (tasks t).phase with
    | preparing program =>
      rintro ⟨hrespects, hexec⟩
      refine ⟨hrespects, fun heq => ?_⟩
      rw [← hrespects.exec_eq hdb, hexec heq]
      exact (respects_prepare env nodeId _ _).exec_eq hdb
    | comparing message | sending message =>
      exact fun hgen heq => generatedFrom_of_sameContents hdb (hgen heq)
    | idle | recording | clearing | inspecting | lookingUp | stopping | forgetting | finished =>
      exact fun _ => trivial
  sent := fun core push since hlast => ⟨(h.sent core push since hlast).1, fun heq =>
    generatedFrom_of_sameContents hdb ((h.sent core push since hlast).2 heq)⟩

/-- After a row write nobody knows anything. -/
theorem write (h : Generated env nodeId db writes tasks lastSent) :
    Generated env nodeId db' (writes + 1) tasks lastSent where
  tasks := by
    intro t
    obtain ⟨hsince, hphase⟩ := h.tasks t
    refine ⟨Nat.le_succ_of_le hsince, ?_⟩
    have hne : (tasks t).since ≠ writes + 1 := by omega
    revert hphase
    cases (tasks t).phase with
    | preparing program => exact fun hp => ⟨hp.1, fun heq => absurd heq hne⟩
    | comparing message | sending message => exact fun _ heq => absurd heq hne
    | idle | recording | clearing | inspecting | lookingUp | stopping | forgetting | finished =>
      exact fun _ => trivial
  sent := by
    intro core push since hlast
    have hsince := (h.sent core push since hlast).1
    exact ⟨Nat.le_succ_of_le hsince, fun heq => by omega⟩

theorem task (h : Generated env nodeId db writes tasks lastSent) (t : TaskId) {task : Task}
    (htask : TaskGenerated env nodeId db writes task) :
    Generated env nodeId db writes (Function.update tasks t task) lastSent where
  tasks := by
    intro t'
    by_cases ht : t' = t
    · rw [ht, Function.update_self]
      exact htask
    · rw [Function.update_of_ne ht]
      exact h.tasks t'
  sent := h.sent

theorem send (h : Generated env nodeId db writes tasks lastSent) {t : TaskId}
    {message : ConfigPush} (hphase : (tasks t).phase = .sending message) :
    Generated env nodeId db writes tasks
      (Function.update lastSent (tasks t).core (some (message, (tasks t).since))) where
  tasks := h.tasks
  sent := by
    intro core push since hlast
    by_cases hcore : core = (tasks t).core
    · rw [hcore, Function.update_self] at hlast
      cases hlast
      obtain ⟨hsince, hgen⟩ := h.tasks t
      rw [hphase] at hgen
      exact ⟨hsince, hcore ▸ hgen⟩
    · rw [Function.update_of_ne hcore] at hlast
      exact h.sent core push since hlast

end Generated

/-! ### What is marked -/

/-- A call of `mark_pending` for the core is still to come.  The update of a row that was
found does not count: the row may be gone. -/
def WillMark (core : CoreType) : EditPhase → Prop
  | .writing _ cores | .finding cores | .updating _ _ cores => core ∈ cores
  | .inserting next cores => core ∈ next :: cores
  | .idle | .finished => False

def Owed (edits : EditId → Edit) (core : CoreType) : Prop := ∃ e, WillMark core (edits e).phase

/-- No row was written since the task began that sent last. -/
def Fresh (writes : Nat) (lastSent : CoreType → Option (ConfigPush × Nat)) (core : CoreType) :
    Prop :=
  ∀ push since, lastSent core = some (push, since) → since = writes

/-- There is a marker, or there will be one, or none is needed. -/
def Marked (nodeId : Uuid) (core : CoreType) (db : Db) (edits : EditId → Edit) (writes : Nat)
    (lastSent : CoreType → Option (ConfigPush × Nat)) : Prop :=
  HasPending db nodeId core ∨ Owed edits core ∨ Fresh writes lastSent core

/-- **The steps that keep the marker.**  Edits mark the core.  A push that is older than a row
write is sent only while there is a marker or an edit has still to mark, and a marker is
deleted only if what was sent last is newer than every row write or an edit has still to
mark. -/
def Guards (nodeId : Uuid) (core : CoreType) (st : State) : Action → Prop
  | .beginEdit _ _ _ cores => core ∈ cores
  | .advance t => (st.tasks t).core = core →
    match (st.tasks t).phase with
    | .sending message => (st.sendToAgent (.configPush message)).isSome = true →
      (st.tasks t).since = st.writes ∨ HasPending st.db nodeId core ∨ Owed st.edits core
    | .clearing _ => Fresh st.writes st.lastSent core ∨ Owed st.edits core
    | _ => True
  | _ => True

/-- Neither edits nor pushes are in progress. -/
def Quiet (st : State) : Prop :=
  (∀ t, (st.tasks t).phase = .idle ∨ (st.tasks t).phase = .finished) ∧
    ∀ e, (st.edits e).phase = .idle ∨ (st.edits e).phase = .finished

/-- **No marker is lost.**  Without a marker, what was sent last is generated from the rows. -/
def MarkerKept (env : HubEnv) (nodeId : Uuid) (core : CoreType) (st : State) : Prop :=
  Quiet st → ¬ HasPending st.db nodeId core → ∀ push since,
    st.lastSent core = some (push, since) → GeneratedFrom env nodeId st.db core push

/-- Nothing was begun and nothing sent. -/
structure Start (st : State) : Prop where
  tasks : ∀ t, (st.tasks t).phase = .idle ∧ (st.tasks t).since ≤ st.writes
  edits : ∀ e, (st.edits e).phase = .idle
  lastSent : ∀ core, st.lastSent core = none

/-! ### Steps -/

section Steps

variable {env : HubEnv} {nodeId : Uuid} {parse : String → Option Json} {core : CoreType}

theorem taskGenerated_orphan {db : Db} {writes : Nat} {task : Task} {phase : TaskPhase}
    (h : task.since ≤ writes) (hphase : phase.isOrphan = true) :
    TaskGenerated env nodeId db writes { task with phase := phase } := by
  refine ⟨h, ?_⟩
  cases phase with
  | inspecting | lookingUp | stopping | forgetting => trivial
  | idle | preparing | comparing | sending | recording | clearing | finished => cases hphase

theorem generated_advance {st st' : State} {t : TaskId}
    (h : Generated env nodeId st.db st.writes st.tasks st.lastSent)
    (hstep : Advance nodeId st t st') :
    Generated env nodeId st'.db st'.writes st'.tasks st'.lastSent := by
  obtain ⟨hsince, hphase⟩ := h.tasks t
  cases hstep with
  | statement k hask =>
    rw [hask] at hphase
    exact h.task t ⟨hsince, hphase.1.2 st.db, hphase.2⟩
  | prepared message phase hpure hnext =>
    rw [hpure] at hphase
    have hgen : (st.tasks t).since = st.writes →
        GeneratedFrom env nodeId st.db (st.tasks t).core message :=
      fun heq => generatedFrom_of_prepare (hphase.2 heq).symm
    rcases hnext with rfl | rfl
    · exact h.task t ⟨hsince, hgen⟩
    · exact h.task t ⟨hsince, hgen⟩
  | proceed message hcomparing =>
    rw [hcomparing] at hphase
    exact h.task t ⟨hsince, hphase⟩
  | finish => exact h.task t ⟨hsince, trivial⟩
  | send message conn hsending hconn =>
    exact (h.send hsending).task t ⟨hsince, trivial⟩
  | record message again hrecording => exact h.task t ⟨hsince, trivial⟩
  | clear again phase hclearing hnext =>
    have hmarkers := h.markers (sameContents_clearPending st.db nodeId (st.tasks t).core)
    rcases hnext with rfl | rfl
    · exact hmarkers.task t ⟨hsince, trivial⟩
    · exact hmarkers.task t ⟨hsince, trivial⟩
  | orphan phase horphan hnext => exact h.task t (taskGenerated_orphan hsince hnext)
  | sendStop conn hstopping hconn => exact h.task t ⟨hsince, trivial⟩
  | forget hforgetting => exact h.task t ⟨hsince, trivial⟩

theorem generated_advanceEdit {st st' : State} {e : EditId} {id : Uuid} {now : DateTime}
    (h : Generated env nodeId st.db st.writes st.tasks st.lastSent)
    (hstep : advanceEdit nodeId st e id now = some st') :
    Generated env nodeId st'.db st'.writes st'.tasks st'.lastSent := by
  rw [advanceEdit] at hstep
  split at hstep
  · cases hstep
  · cases hstep
  · cases hstep
    exact h.write
  · cases hstep
    exact h
  · cases hstep
    exact h
  · split at hstep
    · cases hstep
      exact h
    · cases hstep
      exact h
  · split at hstep
    · rename_i hdb
      cases hstep
      exact h.markers (sameContents_of_updatePending hdb)
    · cases hstep
      exact h
  · split at hstep
    · cases hstep
    split at hstep
    · rename_i hdb
      cases hstep
      exact h.markers (sameContents_of_insertPending hdb)
    · cases hstep
      exact h

/-- What the agent and its streams do touches neither rows nor tasks nor edits. -/
theorem deliver_eq {st st' : State} {o : Agent.Outcomes} (h : deliver parse st o = some st') :
    ∃ streams agent lastApplied,
      st' = { st with streams := streams, agent := agent, lastApplied := lastApplied } := by
  rw [deliver] at h
  split at h
  · cases h
  split at h
  · cases h
  dsimp only at h
  split at h
  · cases h
    exact ⟨_, _, _, rfl⟩
  · cases h
    exact ⟨_, _, _, rfl⟩

theorem generated_begin {st : State} (h : Generated env nodeId st.db st.writes st.tasks st.lastSent)
    (t : TaskId) (core : CoreType) (kind : TaskKind) :
    Generated env nodeId st.db st.writes (beginTask env nodeId st t core kind).tasks st.lastSent := by
  cases kind with
  | orphan => exact h.task t ⟨Nat.le_refl _, trivial⟩
  | scheduled => exact h.task t ⟨Nat.le_refl _, respects_prepare .., fun _ => rfl⟩
  | manual => exact h.task t ⟨Nat.le_refl _, respects_prepare .., fun _ => rfl⟩

theorem generated_step {st st' : State} {a : Action}
    (h : Generated env nodeId st.db st.writes st.tasks st.lastSent)
    (hstep : step env nodeId parse st a = some st') :
    Generated env nodeId st'.db st'.writes st'.tasks st'.lastSent := by
  cases a with
  | begin t core kind =>
    rw [step] at hstep
    split at hstep
    · cases hstep
      exact generated_begin h t core kind
    · cases hstep
  | advance t => exact generated_advance h (advance_cases nodeId hstep)
  | beginEdit e updateType writes cores =>
    rw [step] at hstep
    split at hstep
    · cases hstep
      exact h
    · cases hstep
  | advanceEdit e id now => exact generated_advanceEdit h hstep
  | connect s =>
    rw [step] at hstep
    split at hstep
    · cases hstep
      exact h
    · cases hstep
  | register s =>
    rw [step] at hstep
    split at hstep
    · cases hstep
      exact h
    · cases hstep
  | unregister s =>
    rw [step] at hstep
    split at hstep
    · cases hstep
      exact h
    · cases hstep
  | dropReceiver s =>
    cases hstep
    exact h
  | deliver o =>
    obtain ⟨streams, agent, lastApplied, rfl⟩ := deliver_eq hstep
    exact h

/-! ### The marker over a step -/

theorem marked_setEdit {db db' : Db} {edits : EditId → Edit} {writes : Nat}
    {lastSent : CoreType → Option (ConfigPush × Nat)}
    (h : Marked nodeId core db edits writes lastSent) {e : EditId} {edit : Edit}
    (hrow : HasPending db nodeId core → HasPending db' nodeId core)
    (hphase : WillMark core (edits e).phase → WillMark core edit.phase ∨ HasPending db' nodeId core) :
    Marked nodeId core db' (Function.update edits e edit) writes lastSent := by
  rcases h with h | ⟨e', he'⟩ | h
  · exact Or.inl (hrow h)
  · by_cases heq : e' = e
    · subst heq
      rcases hphase he' with hnext | hmark
      · refine Or.inr (Or.inl ⟨e', ?_⟩)
        rw [Function.update_self]
        exact hnext
      · exact Or.inl hmark
    · refine Or.inr (Or.inl ⟨e', ?_⟩)
      rw [Function.update_of_ne heq]
      exact he'
  · exact Or.inr (Or.inr h)

/-- An edit that has rows to write marks the core. -/
def EditsMark (core : CoreType) (edits : EditId → Edit) : Prop :=
  ∀ e writes cores, (edits e).phase = .writing writes cores → core ∈ cores

theorem editsMark_setEdit {edits : EditId → Edit} (h : EditsMark core edits) {e : EditId}
    {edit : Edit} (hphase : ∀ writes cores, edit.phase = .writing writes cores → core ∈ cores) :
    EditsMark core (Function.update edits e edit) := by
  intro e' writes cores he'
  by_cases heq : e' = e
  · rw [heq, Function.update_self] at he'
    exact hphase writes cores he'
  · rw [Function.update_of_ne heq] at he'
    exact h e' writes cores he'

/-- An edit marks, or it leaves the marker as it is. -/
theorem marked_advanceEdit {st st' : State} {e : EditId} {id : Uuid} {now : DateTime}
    (h : Marked nodeId core st.db st.edits st.writes st.lastSent) (hedits : EditsMark core st.edits)
    (hstep : advanceEdit nodeId st e id now = some st') :
    Marked nodeId core st'.db st'.edits st'.writes st'.lastSent ∧ EditsMark core st'.edits := by
  rw [advanceEdit] at hstep
  split at hstep
  · cases hstep
  · cases hstep
  · rename_i write writes cores hphase
    cases hstep
    have hcore := hedits e _ _ hphase
    refine ⟨Or.inr (Or.inl ⟨e, ?_⟩), editsMark_setEdit hedits fun _ _ heq => ?_⟩
    · change WillMark core (Function.update st.edits e _ e).phase
      rw [Function.update_self]
      exact hcore
    · cases heq
      exact hcore
  · rename_i cores hphase
    cases hstep
    refine ⟨marked_setEdit h (fun hrow => hrow) fun hmark => Or.inl ?_, editsMark_setEdit hedits nofun⟩
    rw [hphase] at hmark
    exact hmark
  · rename_i hphase
    cases hstep
    refine ⟨marked_setEdit h (fun hrow => hrow) fun hmark => ?_, editsMark_setEdit hedits nofun⟩
    rw [hphase] at hmark
    cases hmark
  · rename_i next cores hphase
    split at hstep
    · rename_i row hrow
      cases hstep
      refine ⟨marked_setEdit h (fun hrow => hrow) fun hmark => ?_, editsMark_setEdit hedits nofun⟩
      rw [hphase] at hmark
      rcases List.mem_cons.mp hmark with rfl | hmark
      · exact Or.inr ⟨row, hasPending_of_findPending hrow⟩
      · exact Or.inl hmark
    · cases hstep
      refine ⟨marked_setEdit h (fun hrow => hrow) fun hmark => Or.inl ?_, editsMark_setEdit hedits nofun⟩
      rw [hphase] at hmark
      exact hmark
  · rename_i row next cores hphase
    have hmark : WillMark core (st.edits e).phase → WillMark core (.finding cores) := by
      rw [hphase]
      exact fun hmark => hmark
    split at hstep
    · rename_i db hdb
      cases hstep
      refine ⟨marked_setEdit h ?_ fun hwill => Or.inl (hmark hwill), editsMark_setEdit hedits nofun⟩
      rintro ⟨r, hr, hnode, hcore⟩
      obtain ⟨r', hr', -, hnode', hcore'⟩ := hasPending_updatePending hdb hr
      exact ⟨r', hr', hnode'.trans hnode, hcore'.trans hcore⟩
    · cases hstep
      exact ⟨marked_setEdit h (fun hrow => hrow) fun hwill => Or.inl (hmark hwill),
        editsMark_setEdit hedits nofun⟩
  · rename_i next cores hphase
    split at hstep
    · cases hstep
    rename_i hfresh
    have hmark : WillMark core (st.edits e).phase → core = next ∨ WillMark core (.finding cores) := by
      rw [hphase]
      exact fun hmark => List.mem_cons.mp hmark
    split at hstep
    · rename_i db hdb
      have hrows := mem_of_insertPending hdb
      cases hstep
      refine ⟨marked_setEdit h ?_ fun hwill => ?_, editsMark_setEdit hedits nofun⟩
      · rintro ⟨r, hr, hrow⟩
        refine ⟨r, ?_, hrow⟩
        rw [hrows]
        exact List.mem_append_left _ hr
      · rcases hmark hwill with rfl | hwill
        · refine Or.inr ⟨⟨id, nodeId, core.toStr, (st.edits e).updateType, now⟩, ?_, rfl, rfl⟩
          rw [hrows]
          exact List.mem_append_right _ (List.mem_singleton_self _)
        · exact Or.inl hwill
    · rename_i hdb
      cases hstep
      refine ⟨marked_setEdit h (fun hrow => hrow) fun hwill => ?_, editsMark_setEdit hedits nofun⟩
      rcases hmark hwill with rfl | hwill
      · have hnone : st.db.nodePendingUpdates.find id = none := by
          simpa using hfresh
        obtain ⟨r, hr, hrow⟩ := hasPending_of_insertPending_eq_none hnone hdb
        exact Or.inr ⟨r, hr, hrow⟩
      · exact Or.inl hwill

theorem hasPending_clearPending_of_ne {db : Db} {other : CoreType} (h : core ≠ other)
    (hrow : HasPending db nodeId core) : HasPending (clearPending db nodeId other) nodeId core := by
  obtain ⟨r, hr, hnode, hcore⟩ := hrow
  refine ⟨r, mem_clearPending.mpr ⟨hr, fun hother => h ?_⟩, hnode, hcore⟩
  exact CoreType.toStr_injective (hcore.symm.trans hother.2)

/-- The last two ways to be marked do not depend on the rows. -/
theorem marked_of_owed_or_fresh {db : Db} {edits : EditId → Edit} {writes : Nat}
    {lastSent : CoreType → Option (ConfigPush × Nat)}
    (h : Fresh writes lastSent core ∨ Owed edits core) :
    Marked nodeId core db edits writes lastSent := by
  rcases h with h | h
  · exact Or.inr (Or.inr h)
  · exact Or.inr (Or.inl h)

section Fresh

variable {writes since : Nat} {lastSent : CoreType → Option (ConfigPush × Nat)} {other : CoreType}
  {message : ConfigPush}

theorem fresh_update_self (h : since = writes) :
    Fresh writes (Function.update lastSent core (some (message, since))) core := by
  intro push since' hlast
  rw [Function.update_self] at hlast
  cases hlast
  exact h

theorem fresh_update_of_ne (hcore : core ≠ other) (h : Fresh writes lastSent core) :
    Fresh writes (Function.update lastSent other (some (message, since))) core := by
  intro push since' hlast
  rw [Function.update_of_ne hcore] at hlast
  exact h push since' hlast

end Fresh

theorem marked_advance {st st' : State} {t : TaskId}
    (h : Marked nodeId core st.db st.edits st.writes st.lastSent)
    (hok : Guards nodeId core st (.advance t)) (hstep : advance nodeId st t = some st') :
    Marked nodeId core st'.db st'.edits st'.writes st'.lastSent ∧ st'.edits = st.edits := by
  cases advance_cases nodeId hstep with
  | statement | prepared | proceed | finish | record | orphan | sendStop | forget => exact ⟨h, rfl⟩
  | send message conn hsending hconn =>
    refine ⟨?_, rfl⟩
    by_cases hcore : (st.tasks t).core = core
    · have hguard := hok hcore
      rw [hsending] at hguard
      cases hsend : st.sendToAgent (.configPush message) with
      | none =>
        -- The channel is closed: nothing is sent.
        simp only [advance, hsending, hsend] at hstep
        rw [← Option.some.inj hstep]
        exact h
      | some sent =>
        rcases hguard (by rw [hsend]; rfl) with hnew | hrow | howed
        · exact Or.inr (Or.inr (hcore ▸ fresh_update_self hnew))
        · exact Or.inl hrow
        · exact Or.inr (Or.inl howed)
    · rcases h with h | h | h
      · exact Or.inl h
      · exact Or.inr (Or.inl h)
      · exact Or.inr (Or.inr (fresh_update_of_ne (Ne.symm hcore) h))
  | clear again phase hclearing hnext =>
    refine ⟨?_, rfl⟩
    by_cases hcore : (st.tasks t).core = core
    · have hguard := hok hcore
      rw [hclearing] at hguard
      exact marked_of_owed_or_fresh hguard
    · rcases h with h | h | h
      · exact Or.inl (hasPending_clearPending_of_ne (Ne.symm hcore) h)
      · exact Or.inr (Or.inl h)
      · exact Or.inr (Or.inr h)

/-- What holds throughout a run whose steps keep the marker. -/
structure MarkerInv (env : HubEnv) (nodeId : Uuid) (core : CoreType) (st : State) : Prop where
  generated : Generated env nodeId st.db st.writes st.tasks st.lastSent
  marked : Marked nodeId core st.db st.edits st.writes st.lastSent
  edits : EditsMark core st.edits

theorem marked_step {st st' : State} {a : Action}
    (h : Marked nodeId core st.db st.edits st.writes st.lastSent) (hedits : EditsMark core st.edits)
    (hok : Guards nodeId core st a) (hstep : step env nodeId parse st a = some st') :
    Marked nodeId core st'.db st'.edits st'.writes st'.lastSent ∧ EditsMark core st'.edits := by
  cases a with
  | begin t core kind =>
    rw [step] at hstep
    split at hstep
    · cases hstep
      exact ⟨h, hedits⟩
    · cases hstep
  | advance t =>
    obtain ⟨hmarked, heq⟩ := marked_advance h hok hstep
    exact ⟨hmarked, heq ▸ hedits⟩
  | beginEdit e updateType writes cores =>
    rw [step] at hstep
    split at hstep
    · rename_i hidle
      cases hstep
      refine ⟨marked_setEdit h (fun hrow => hrow) fun hmark => ?_,
        editsMark_setEdit hedits fun _ _ heq => ?_⟩
      · rw [hidle] at hmark
        cases hmark
      · cases heq
        exact hok
    · cases hstep
  | advanceEdit e id now => exact marked_advanceEdit h hedits hstep
  | connect s =>
    rw [step] at hstep
    split at hstep
    · cases hstep
      exact ⟨h, hedits⟩
    · cases hstep
  | register s =>
    rw [step] at hstep
    split at hstep
    · cases hstep
      exact ⟨h, hedits⟩
    · cases hstep
  | unregister s =>
    rw [step] at hstep
    split at hstep
    · cases hstep
      exact ⟨h, hedits⟩
    · cases hstep
  | dropReceiver s =>
    cases hstep
    exact ⟨h, hedits⟩
  | deliver o =>
    obtain ⟨streams, agent, lastApplied, rfl⟩ := deliver_eq hstep
    exact ⟨h, hedits⟩

theorem markerInv_of_start {st : State} (h : Start st) : MarkerInv env nodeId core st where
  generated := by
    refine ⟨fun t => ?_, fun core push since hlast => ?_⟩
    · obtain ⟨hphase, hsince⟩ := h.tasks t
      refine ⟨hsince, ?_⟩
      rw [hphase]
      trivial
    · rw [h.lastSent core] at hlast
      cases hlast
  marked := by
    refine Or.inr (Or.inr fun push since hlast => ?_)
    rw [h.lastSent core] at hlast
    cases hlast
  edits := by
    intro e writes cores hphase
    rw [h.edits e] at hphase
    cases hphase

theorem markerKept_of_inv {st : State} (h : MarkerInv env nodeId core st) :
    MarkerKept env nodeId core st := by
  intro hquiet hrow push since hlast
  refine (h.generated.sent core push since hlast).2 ?_
  rcases h.marked with hmarked | ⟨e, he⟩ | hfresh
  · exact absurd hmarked hrow
  · rcases hquiet.2 e with hphase | hphase
    · rw [hphase] at he
      cases he
    · rw [hphase] at he
      cases he
  · exact hfresh push since hlast

end Steps

/-- **No marker is lost** in a run whose pushes do not send or delete behind the back of an
edit. -/
theorem no_lost_marker {env : HubEnv} {nodeId : Uuid} {parse : String → Option Json}
    {core : CoreType} {st st' : State} {as : List Action} (hstart : Start st)
    (hrun : Run.run (step env nodeId parse) st as = some st')
    (hok : Run.Guarded (step env nodeId parse) (Guards nodeId core) st as) :
    MarkerKept env nodeId core st' := by
  refine markerKept_of_inv (Run.inv_of_guarded (fun s a s' hs hguard hstep => ?_)
    (markerInv_of_start hstart) hok hrun)
  obtain ⟨hmarked, hedits⟩ := marked_step hs.marked hs.edits hguard hstep
  exact ⟨generated_step hs.generated hstep, hmarked, hedits⟩

/-! ### An edit behind a push -/

section Idle

variable {env : HubEnv} {nodeId : Uuid} {parse : String → Option Json}

theorem edits_advance {st st' : State} {t : TaskId} (h : Advance nodeId st t st') :
    st'.edits = st.edits := by
  cases h <;> rfl

theorem edits_advanceEdit_of_ne {st st' : State} {e e' : EditId} {id : Uuid} {now : DateTime}
    (h : advanceEdit nodeId st e id now = some st') (he : e' ≠ e) :
    st'.edits e' = st.edits e' ∧ st'.tasks = st.tasks := by
  have hset : ∀ phase, (st.setEdit e phase).edits e' = st.edits e' :=
    fun _ => Function.update_of_ne he _ _
  rw [advanceEdit] at h
  split at h
  · cases h
  · cases h
  · cases h
    exact ⟨hset _, rfl⟩
  · cases h
    exact ⟨hset _, rfl⟩
  · cases h
    exact ⟨hset _, rfl⟩
  · split at h
    · cases h
      exact ⟨hset _, rfl⟩
    · cases h
      exact ⟨hset _, rfl⟩
  · split at h
    · cases h
      exact ⟨hset _, rfl⟩
    · cases h
      exact ⟨hset _, rfl⟩
  · split at h
    · cases h
    split at h
    · cases h
      exact ⟨hset _, rfl⟩
    · cases h
      exact ⟨hset _, rfl⟩

/-- Tasks from `m` on and edits from `n` on were not begun. -/
def Begun (m n : Nat) (st : State) : Prop :=
  (∀ t, m ≤ t → (st.tasks t).phase = .idle) ∧ ∀ e, n ≤ e → (st.edits e).phase = .idle

def Action.beginsBelow (m n : Nat) : Action → Bool
  | .begin t .. => t < m
  | .beginEdit e .. => e < n
  | _ => true

theorem begun_step {m n : Nat} {st st' : State} {a : Action} (h : Begun m n st)
    (ha : a.beginsBelow m n = true) (hstep : step env nodeId parse st a = some st') :
    Begun m n st' := by
  obtain ⟨htasks, hedits⟩ := h
  cases a with
  | begin t core kind =>
    have hlt : t < m := of_decide_eq_true ha
    rw [step] at hstep
    split at hstep
    · cases hstep
      refine ⟨fun t' ht' => ?_, hedits⟩
      have hne : t' ≠ t := Nat.ne_of_gt (Nat.lt_of_lt_of_le hlt ht')
      exact (congrArg Task.phase (Function.update_of_ne hne _ st.tasks)).trans (htasks t' ht')
    · cases hstep
  | advance t =>
    have hadvance := advance_cases nodeId hstep
    refine ⟨fun t' ht' => ?_, fun e he => ?_⟩
    · by_cases heq : t' = t
      · subst heq
        change advance nodeId st t' = some st' at hstep
        rw [advance] at hstep
        simp only [htasks t' ht'] at hstep
        cases hstep
      · rw [tasks_advance_of_ne nodeId hadvance heq]
        exact htasks t' ht'
    · rw [edits_advance hadvance]
      exact hedits e he
  | beginEdit e updateType writes cores =>
    have hlt : e < n := of_decide_eq_true ha
    rw [step] at hstep
    split at hstep
    · cases hstep
      refine ⟨htasks, fun e' he' => ?_⟩
      have hne : e' ≠ e := Nat.ne_of_gt (Nat.lt_of_lt_of_le hlt he')
      exact (congrArg Edit.phase (Function.update_of_ne hne _ st.edits)).trans (hedits e' he')
    · cases hstep
  | advanceEdit e id now =>
    refine ⟨fun t ht => ?_, fun e' he' => ?_⟩
    · rw [(edits_advanceEdit_of_ne hstep (Nat.succ_ne_self e)).2]
      exact htasks t ht
    · by_cases heq : e' = e
      · subst heq
        change advanceEdit nodeId st e' id now = some st' at hstep
        rw [advanceEdit] at hstep
        simp only [hedits e' he'] at hstep
        cases hstep
      · rw [(edits_advanceEdit_of_ne hstep heq).1]
        exact hedits e' he'
  | connect s =>
    rw [step] at hstep
    split at hstep
    · cases hstep
      exact ⟨htasks, hedits⟩
    · cases hstep
  | register s =>
    rw [step] at hstep
    split at hstep
    · cases hstep
      exact ⟨htasks, hedits⟩
    · cases hstep
  | unregister s =>
    rw [step] at hstep
    split at hstep
    · cases hstep
      exact ⟨htasks, hedits⟩
    · cases hstep
  | dropReceiver s =>
    cases hstep
    exact ⟨htasks, hedits⟩
  | deliver o =>
    obtain ⟨streams, agent, lastApplied, rfl⟩ := deliver_eq hstep
    exact ⟨htasks, hedits⟩

theorem begun_run {m n : Nat} {as : List Action} (has : as.all (·.beginsBelow m n) = true)
    {st st' : State} (h : Begun m n st) (hrun : Run.run (step env nodeId parse) st as = some st') :
    Begun m n st' := by
  induction as generalizing st with
  | nil =>
    cases hrun
    exact h
  | cons a as ih =>
    rw [List.all_cons, Bool.and_eq_true] at has
    rw [Run.run_cons] at hrun
    obtain ⟨next, hnext, hrest⟩ := Option.bind_eq_some_iff.mp hrun
    exact ih has.2 (begun_step h has.1 hnext) hrest

end Idle

namespace LateEdit

def config : ProtocolConfig := { PresetUser.config with coreType := "sing-box" }

/-- A node with one sing-box inbound. -/
def db : Db where
  protocolConfigs := .single config
  nodeBindings := .single PresetUser.binding

def env : HubEnv := { PresetUser.gen with configVersionOf := fun text => text }

def parse : String → Option Json := fun _ => none

def initial : State where
  db := db
  connection := none
  streams _ := ⟨.unopened, [], false⟩
  tasks _ := ⟨.singBox, .scheduled, 0, .idle⟩
  edits _ := ⟨"", .idle⟩
  current := none
  agent := ⟨fun _ => true, fun _ => none, fun _ => none⟩
  lastApplied _ := none
  writes := 0
  lastSent _ := none

theorem start_initial : Start initial := ⟨fun _ => ⟨rfl, Nat.le_refl _⟩, fun _ => rfl, fun _ => rfl⟩

/-- The config moves to another port. -/
def movePort : RowWrite where
  run db := { db with protocolConfigs :=
    db.protocolConfigs.update config.id fun c => { c with listenPort := 8443 } }
  keepsMarkers _ := rfl

def edit : List Action :=
  .beginEdit 0 "config" [movePort] [.singBox] :: .replicate 5 (.advanceEdit 0 (.ofNat 9) default)

/-- A push from the panel, up to the record of its version. -/
def sent : List Action :=
  [.connect 0, .register 0, .begin 0 .singBox (.manual false none false)] ++
    .replicate 10 (.advance 0)

/-- The edit is between the send and the deletion of the marker. -/
def late : List Action := sent ++ edit ++ .replicate 2 (.advance 0)

/-- The edit comes after the push, and another push follows. -/
def inTurn : List Action :=
  sent ++ .replicate 2 (.advance 0) ++ edit ++ .begin 1 .singBox .scheduled ::
    .replicate 13 (.advance 1)

def taskOver : TaskPhase → Bool
  | .idle | .finished => true
  | _ => false

def editOver : EditPhase → Bool
  | .idle | .finished => true
  | _ => false

/-- The run has ended, there is no marker, and the push that was sent last meets a test. -/
def ended (test : Db → ConfigPush → Bool) (st : State) : Bool :=
  taskOver (st.tasks 0).phase && taskOver (st.tasks 1).phase && editOver (st.edits 0).phase &&
    (findPending st.db PresetUser.node .singBox).isNone &&
    (st.lastSent .singBox).any fun p => test st.db p.1

def generatedText (db : Db) : Option String :=
  ((generateNodeConfig env.toGenEnv PresetUser.node .singBox).exec db).toOption.map (·.1.render)

theorem quiet_of_ended {test : Db → ConfigPush → Bool} {st : State} (hbegun : Begun 2 1 st)
    (h : ended test st = true) : Quiet st ∧ ¬ HasPending st.db PresetUser.node .singBox ∧
      ∃ push since, st.lastSent .singBox = some (push, since) ∧ test st.db push = true := by
  simp only [ended, Bool.and_eq_true, Option.any_eq_true, Option.isNone_iff_eq_none] at h
  obtain ⟨⟨⟨⟨hfirst, hsecond⟩, hedit⟩, hrow⟩, ⟨push, since⟩, hlast, htest⟩ := h
  have hover : ∀ phase, taskOver phase = true → phase = .idle ∨ phase = .finished := by
    intro phase hphase
    cases phase with
    | idle => exact Or.inl rfl
    | finished => exact Or.inr rfl
    | _ => cases hphase
  have heditOver : ∀ phase, editOver phase = true → phase = .idle ∨ phase = .finished := by
    intro phase hphase
    cases phase with
    | idle => exact Or.inl rfl
    | finished => exact Or.inr rfl
    | _ => cases hphase
  refine ⟨⟨fun t => ?_, fun e => ?_⟩, ?_, push, since, hlast, htest⟩
  · match t with
    | 0 => exact hover _ hfirst
    | 1 => exact hover _ hsecond
    | t + 2 => exact Or.inl (hbegun.1 (t + 2) (by omega))
  · match e with
    | 0 => exact heditOver _ hedit
    | e + 1 => exact Or.inl (hbegun.2 (e + 1) (by omega))
  · rintro ⟨r, hr, hnode, hcore⟩
    have hnone := List.find?_eq_none.mp hrow r hr
    simp only [hnode, hcore, and_self, decide_true, not_true_eq_false] at hnone

theorem begun_initial : Begun 2 1 initial := ⟨fun _ _ => rfl, fun _ _ => rfl⟩

end LateEdit

/-- **A lost marker.**  An edit between the send of a push and the deletion of the marker: in
the end there is no marker, and what was sent has the old port. -/
theorem lost_marker : ∃ st,
    Run.run (step LateEdit.env PresetUser.node LateEdit.parse) LateEdit.initial LateEdit.late =
      some st ∧ ¬ MarkerKept LateEdit.env PresetUser.node .singBox st := by
  have hend : ((Run.run (step LateEdit.env PresetUser.node LateEdit.parse) LateEdit.initial
      LateEdit.late).any (LateEdit.ended fun db push =>
        decide (LateEdit.generatedText db ≠ some push.configJson))) = true := by
    decide +kernel
  obtain ⟨st, hrun, hended⟩ := (Option.any_eq_true _ _).mp hend
  obtain ⟨hquiet, hrow, push, since, hlast, htest⟩ := LateEdit.quiet_of_ended
    (begun_run (by decide) LateEdit.begun_initial hrun) hended
  refine ⟨st, hrun, fun hkept => ?_⟩
  obtain ⟨out, buildId, restart, version, hout, -, rfl⟩ := hkept hquiet hrow push since hlast
  refine of_decide_eq_true htest ?_
  rw [LateEdit.generatedText, hout]
  rfl

/-- The computed form of `Guards`. -/
def LateEdit.check (st : State) : Action → Bool
  | .beginEdit _ _ _ cores => CoreType.singBox ∈ cores
  | .advance t =>
    match (st.tasks t).phase with
    | .sending _ => (st.tasks t).since = st.writes
    | .clearing _ => (st.lastSent .singBox).all fun p => p.2 = st.writes
    | _ => true
  | _ => true

theorem LateEdit.guards_of_check {st : State} {a : Action} (h : LateEdit.check st a = true) :
    Guards PresetUser.node .singBox st a := by
  cases a with
  | beginEdit e updateType writes cores =>
    change CoreType.singBox ∈ cores
    exact of_decide_eq_true h
  | advance t =>
    intro hcore
    rw [LateEdit.check] at h
    cases hphase : (st.tasks t).phase with
    | sending message =>
      rw [hphase] at h
      exact fun _ => Or.inl (of_decide_eq_true h)
    | clearing again =>
      rw [hphase] at h
      refine Or.inl fun push since hlast => ?_
      simp only [hlast, Option.all_some] at h
      exact of_decide_eq_true h
    | _ => trivial
  | _ => trivial

theorem no_lost_marker_in_turn : ∃ st,
    Run.run (step LateEdit.env PresetUser.node LateEdit.parse) LateEdit.initial LateEdit.inTurn =
      some st ∧ Quiet st ∧ ¬ HasPending st.db PresetUser.node .singBox ∧
      (st.lastSent .singBox).isSome = true ∧
      MarkerKept LateEdit.env PresetUser.node .singBox st := by
  have hchecked : Run.checked (step LateEdit.env PresetUser.node LateEdit.parse) LateEdit.check
      LateEdit.initial LateEdit.inTurn = true := by decide +kernel
  have hend : ((Run.run (step LateEdit.env PresetUser.node LateEdit.parse) LateEdit.initial
      LateEdit.inTurn).any (LateEdit.ended fun _ _ => true)) = true := by decide +kernel
  obtain ⟨st, hrun, hended⟩ := (Option.any_eq_true _ _).mp hend
  obtain ⟨hquiet, hrow, push, since, hlast, -⟩ := LateEdit.quiet_of_ended
    (begun_run (by decide) LateEdit.begun_initial hrun) hended
  obtain ⟨hok, -⟩ := Run.guarded_of_checked (I := fun _ => True)
    (fun _ _ _ h => LateEdit.guards_of_check h) (fun _ _ _ _ _ _ => trivial) trivial hchecked
  exact ⟨st, hrun, hquiet, hrow, by rw [hlast]; rfl,
    no_lost_marker LateEdit.start_initial hrun hok⟩

end ProxyPanel.Hub.PushTasks
