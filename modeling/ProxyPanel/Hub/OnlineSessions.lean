import ProxyPanel.Hub.Usage
import Mathlib.Data.List.Dedup

/-!
# Sessions of online users

An online report of a node replaces the sessions of that node: a connection is a client and an
address, a connection that had a session keeps its row, and the sessions of connections that
are not reported go.  The handler panics at a client on hold whose duration leads out of the
range of dates, and then nothing of the rest is done.  `reconciled_iff_inRange` says so for every
report; the loop over its users keeps `Progress`.
-/

namespace ProxyPanel.Hub

/-- The client and the address of a session. -/
def connectionOf (s : ClientOnlineSession) : Uuid × String := (s.clientId, s.ipAddress)

/-- The connections of a report, in its order.  Users that are not found have none. -/
def reportedConnections (resolved : List (String × Uuid)) (users : List (OnlineUser × Uuid)) :
    List (Uuid × String) :=
  users.filterMap fun user => (resolve resolved user.1.clientId).map fun clientId =>
    (clientId, user.1.ipAddress)

/-- The sessions of a node. -/
def sessionsOfNode (db : Db) (n : Uuid) : List ClientOnlineSession :=
  db.clientOnlineSessions.filter (·.nodeId = n)

/-- At most one session of a node for each connection. -/
def OneSessionEach (db : Db) (n : Uuid) : Prop := ((sessionsOfNode db n).map connectionOf).Nodup

instance (db : Db) (n : Uuid) : Decidable (OneSessionEach db n) :=
  inferInstanceAs (Decidable (List.Nodup _))

/-- The identifiers that are drawn for new sessions are new. -/
def NewSessionIds (db : Db) (users : List (OnlineUser × Uuid)) : Prop :=
  (users.map (·.2)).Nodup ∧ ∀ user ∈ users, db.clientOnlineSessions.find user.2 = none

/-- **The sessions of a node are those of the report.** -/
structure Reconciled (n : Uuid) (now : DateTime) (connections : List (Uuid × String))
    (before after : Db) : Prop where
  exact : ((sessionsOfNode after n).map connectionOf).Perm connections.dedup
  active : ∀ s ∈ sessionsOfNode after n, s.lastActiveAt = now
  kept : ∀ s ∈ sessionsOfNode before n, connectionOf s ∈ connections →
    { s with lastActiveAt := now } ∈ sessionsOfNode after n
  others : after.clientOnlineSessions.filter (·.nodeId ≠ n) =
    before.clientOnlineSessions.filter (·.nodeId ≠ n)

/-! ### Where the handler panics -/

/-- The entries of a report that stand for a connection not met before, with their clients. -/
def newEntries (resolved : List (String × Uuid)) :
    List (Uuid × String) → List (OnlineUser × Uuid) → List (Uuid × (OnlineUser × Uuid))
  | _, [] => []
  | reported, user :: users =>
    match resolve resolved user.1.clientId with
    | none => newEntries resolved reported users
    | some clientId =>
      if (clientId, user.1.ipAddress) ∈ reported then newEntries resolved reported users
      else
        (clientId, user) ::
          newEntries resolved ((clientId, user.1.ipAddress) :: reported) users

/-- The entries that a report has for the handler. -/
def entriesOf (db : Db) (users : List (OnlineUser × Uuid)) : List (Uuid × (OnlineUser × Uuid)) :=
  newEntries (resolveClientIds db (users.map (·.1.clientId))) [] users

/-- Whether an entry is of a client on hold whose duration cannot be added to the clock. -/
def outOfRange (clients : Table Client) (times : OnlineTimes)
    (entry : Uuid × (OnlineUser × Uuid)) : Bool :=
  (clients.find entry.1).any fun c =>
    c.status = "on_hold" ∧ expireDate c (times.entryAt entry.2) = none

theorem activateOnHold_eq_none_iff {db : Db} {clients : Table Client} {times : OnlineTimes}
    {clientId : Uuid} {user : OnlineUser × Uuid} :
    activateOnHold db (clients.find clientId) (times.entryAt user) = none ↔
      outOfRange clients times (clientId, user) = true := by
  rw [outOfRange]
  cases clients.find clientId with
  | none => simp [activateOnHold]
  | some c =>
    simp only [activateOnHold, Option.any_some, decide_eq_true_eq]
    split
    · rename_i hhold
      rw [Option.map_eq_none_iff, and_iff_right hhold]
    · rename_i hhold
      exact iff_of_false (Option.some_ne_none _) fun h => hhold h.1

theorem outOfRange_of_activateOnHold {db db' : Db} {clients : Table Client} {times : OnlineTimes}
    {clientId : Uuid} {user : OnlineUser × Uuid}
    (h : activateOnHold db (clients.find clientId) (times.entryAt user) = some db') :
    outOfRange clients times (clientId, user) = false := by
  rw [Bool.eq_false_iff, Ne, ← @activateOnHold_eq_none_iff db, h]
  exact Option.some_ne_none db'

/-- **The loop panics at the first entry that is out of range.** -/
theorem panicked_foldl {clients : Table Client} {sessions : List ClientOnlineSession}
    {resolved : List (String × Uuid)} {agentId : Uuid} {times : OnlineTimes}
    (users : List (OnlineUser × Uuid)) {s : OnlineLoop} (hs : s.panicked = false) :
    (users.foldl (handleOnlineUser clients sessions resolved agentId times) s).panicked =
      (newEntries resolved s.reported users).any (outOfRange clients times) := by
  induction users generalizing s with
  | nil => exact hs
  | cons user users ih =>
    rw [List.foldl_cons, newEntries, handleOnlineUser, if_neg (Bool.eq_false_iff.mp hs)]
    cases resolve resolved user.1.clientId with
    | none => exact ih hs
    | some clientId =>
      simp only
      split
      · exact ih hs
      · rw [List.any_cons]
        cases hactivate : activateOnHold s.db (clients.find clientId) (times.entryAt user) with
        | none =>
          rw [activateOnHold_eq_none_iff.mp hactivate, foldl_handleOnlineUser_of_panicked rfl]
          rfl
        | some db =>
          rw [outOfRange_of_activateOnHold hactivate, Bool.false_or]
          exact ih rfl

/-- A loop that comes to its end had not panicked before. -/
theorem panicked_of_foldl {clients : Table Client} {sessions : List ClientOnlineSession}
    {resolved : List (String × Uuid)} {agentId : Uuid} {times : OnlineTimes}
    {users : List (OnlineUser × Uuid)} {s : OnlineLoop}
    (h : (users.foldl (handleOnlineUser clients sessions resolved agentId times) s).panicked =
      false) : s.panicked = false := by
  by_contra hs
  rw [foldl_handleOnlineUser_of_panicked (Bool.not_eq_false _ |>.mp hs)] at h
  exact hs h

theorem panicked_onlineLoop (db : Db) (n : Uuid) (users : List (OnlineUser × Uuid))
    (times : OnlineTimes) : (onlineLoop db n users times).panicked =
      (entriesOf db users).any (outOfRange db.clients times) :=
  panicked_foldl users rfl

/-! ### One user -/

section Loop

variable {n : Uuid} {times : OnlineTimes} {before : Db}

theorem clientOnlineSessions_activateOnHold {db db' : Db} {prefetched : Option Client}
    {now : DateTime} (h : activateOnHold db prefetched now = some db') :
    db'.clientOnlineSessions = db.clientOnlineSessions := by
  rcases activateOnHold_cases h with rfl | ⟨c, date, -, -, -, rfl⟩
  · rfl
  · rfl

/-- A row the report began with, after the connections that were met so far. -/
def refreshed (n : Uuid) (now : DateTime) (reported : List (Uuid × String))
    (s : ClientOnlineSession) : ClientOnlineSession :=
  if s.nodeId = n ∧ connectionOf s ∈ reported then { s with lastActiveAt := now } else s

@[simp] theorem refreshed_id (now : DateTime) (reported : List (Uuid × String))
    (s : ClientOnlineSession) : (refreshed n now reported s).id = s.id := by
  rw [refreshed]
  split <;> rfl

@[simp] theorem refreshed_nodeId (now : DateTime) (reported : List (Uuid × String))
    (s : ClientOnlineSession) : (refreshed n now reported s).nodeId = s.nodeId := by
  rw [refreshed]
  split <;> rfl

@[simp] theorem connectionOf_refreshed (now : DateTime) (reported : List (Uuid × String))
    (s : ClientOnlineSession) :
    connectionOf (refreshed n now reported s) = connectionOf s := by
  rw [refreshed]
  split <;> rfl

/-- The connections that had a session when the report came. -/
def priorConnections (before : Db) (n : Uuid) : List (Uuid × String) :=
  (sessionsOfNode before n).map connectionOf

/-- What the loop has done: the rows of the connections met so far are refreshed, the others
are as they were, and the connections without a row have got one. -/
structure Progress (n : Uuid) (now : DateTime) (before : Db) (s : OnlineLoop)
    (new : List ClientOnlineSession) : Prop where
  rows : s.db.clientOnlineSessions.rows =
    before.clientOnlineSessions.rows.map (refreshed n now s.reported) ++ new
  nodup : s.reported.Nodup
  new_rows : ∀ r ∈ new, r.nodeId = n ∧ r.lastActiveAt = now ∧ r.id ∈ s.kept
  new_connections : new.map connectionOf =
    (s.reported.filter (· ∉ priorConnections before n)).reverse
  kept : ∀ r ∈ before.clientOnlineSessions.rows, r.nodeId = n →
    (r.id ∈ s.kept ↔ connectionOf r ∈ s.reported)

theorem mem_sessionsOfNode {db : Db} {s : ClientOnlineSession} :
    s ∈ sessionsOfNode db n ↔ s ∈ db.clientOnlineSessions.rows ∧ s.nodeId = n := by
  rw [sessionsOfNode, Table.mem_filter, decide_eq_true_eq]

/-- Two sessions of a node for one connection are one row. -/
theorem eq_of_connectionOf_eq {db : Db} (hone : OneSessionEach db n) {s t : ClientOnlineSession}
    (hs : s ∈ sessionsOfNode db n) (ht : t ∈ sessionsOfNode db n)
    (h : connectionOf s = connectionOf t) : s = t :=
  List.inj_on_of_nodup_map hone hs ht h

/-- One more connection refreshes at most the row of its session. -/
theorem refreshed_cons_of_ne {now : DateTime} {reported : List (Uuid × String)}
    {k : Uuid × String} {r : ClientOnlineSession} (h : r.nodeId = n → connectionOf r ≠ k) :
    refreshed n now (k :: reported) r = refreshed n now reported r := by
  have hiff : (r.nodeId = n ∧ connectionOf r ∈ k :: reported) ↔
      (r.nodeId = n ∧ connectionOf r ∈ reported) := by
    refine and_congr_right fun hnode => ?_
    rw [List.mem_cons]
    exact or_iff_right (h hnode)
  rw [refreshed, refreshed]
  simp only [hiff]

/-- The session of a connection is refreshed. -/
theorem progress_refresh {s : OnlineLoop} {new : List ClientOnlineSession} {now : DateTime}
    {session : ClientOnlineSession} {db : Db} (hone : OneSessionEach before n)
    (hs : Progress n now before s new) (hsession : session ∈ sessionsOfNode before n)
    (hunmet : connectionOf session ∉ s.reported)
    (hdb : db.clientOnlineSessions = s.db.clientOnlineSessions.update session.id fun r =>
      { r with lastActiveAt := now }) :
    Progress n now before ⟨db, connectionOf session :: s.reported, session.id :: s.kept, false⟩ new := by
  obtain ⟨hmem, hnode⟩ := mem_sessionsOfNode.mp hsession
  have hprior : connectionOf session ∈ priorConnections before n := List.mem_map_of_mem hsession
  have hrow : ∀ r ∈ before.clientOnlineSessions.rows, r.id = session.id → r = session :=
    fun r hr hid => Table.eq_of_key_eq hr hmem hid
  have hother : ∀ r ∈ new, r.id ≠ session.id := by
    intro r hr hid
    have hnodup := s.db.clientOnlineSessions.nodup
    rw [hs.rows, List.map_append] at hnodup
    refine (List.nodup_append.mp hnodup).2.2 session.id ?_ r.id (List.mem_map_of_mem hr) hid.symm
    rw [List.map_map]
    exact List.mem_map.mpr ⟨session, hmem, refreshed_id ..⟩
  refine ⟨?_, List.nodup_cons.mpr ⟨hunmet, hs.nodup⟩, ?_, ?_, ?_⟩
  · simp only
    rw [hdb]
    change s.db.clientOnlineSessions.rows.map _ = _
    rw [hs.rows, List.map_append, List.map_map]
    congr 1
    · refine List.map_congr_left fun r hr => ?_
      simp only [Function.comp]
      by_cases hid : r.id = session.id
      · obtain rfl := hrow r hr hid
        have hplain : refreshed n now s.reported r = r := if_neg fun h => hunmet h.2
        have hfresh : refreshed n now (connectionOf r :: s.reported) r =
            { r with lastActiveAt := now } := if_pos ⟨hnode, List.mem_cons_self⟩
        rw [hplain, hfresh, if_pos ⟨rfl, rfl⟩]
      · have hne : r.nodeId = n → connectionOf r ≠ connectionOf session := by
          intro hn heq
          exact hid (congrArg ClientOnlineSession.id
            (eq_of_connectionOf_eq hone (mem_sessionsOfNode.mpr ⟨hr, hn⟩) hsession heq))
        rw [refreshed_cons_of_ne hne]
        refine if_neg fun h => hid ?_
        rw [← refreshed_id (n := n) now s.reported r]
        exact h.1
    · conv_rhs => rw [← List.map_id new]
      refine List.map_congr_left fun r hr => ?_
      exact if_neg fun h => hother r hr h.1
  · intro r hr
    obtain ⟨hn, hactive, hkept⟩ := hs.new_rows r hr
    exact ⟨hn, hactive, List.mem_cons_of_mem _ hkept⟩
  · rw [List.filter_cons_of_neg (by simpa using hprior)]
    exact hs.new_connections
  · intro r hr hn
    rw [List.mem_cons, List.mem_cons, hs.kept r hr hn]
    refine or_congr_left ⟨fun hid => ?_, fun heq => ?_⟩
    · rw [hrow r hr hid]
    · exact congrArg ClientOnlineSession.id
        (eq_of_connectionOf_eq hone (mem_sessionsOfNode.mpr ⟨hr, hn⟩) hsession heq)

/-- A connection without a session gets one. -/
theorem progress_insert {s : OnlineLoop} {new : List ClientOnlineSession} {now : DateTime}
    {session : ClientOnlineSession} {db : Db} (hs : Progress n now before s new)
    (hinsert : s.db.clientOnlineSessions.insert session = some db.clientOnlineSessions)
    (hnode : session.nodeId = n) (hactive : session.lastActiveAt = now)
    (hunmet : connectionOf session ∉ s.reported)
    (hprior : connectionOf session ∉ priorConnections before n) :
    Progress n now before ⟨db, connectionOf session :: s.reported, session.id :: s.kept, false⟩
      (new ++ [session]) := by
  have hfresh := Table.find_eq_none_of_insert hinsert
  refine ⟨?_, List.nodup_cons.mpr ⟨hunmet, hs.nodup⟩, ?_, ?_, ?_⟩
  · simp only
    rw [Table.rows_of_insert hinsert, hs.rows, List.append_assoc]
    congr 1
    refine List.map_congr_left fun r hr => ?_
    rw [refreshed_cons_of_ne]
    intro hn heq
    exact hprior (heq ▸ List.mem_map_of_mem (mem_sessionsOfNode.mpr ⟨hr, hn⟩))
  · intro r hr
    rcases List.mem_append.mp hr with hr | hr
    · obtain ⟨hn, hactive, hkept⟩ := hs.new_rows r hr
      exact ⟨hn, hactive, List.mem_cons_of_mem _ hkept⟩
    · obtain rfl := List.mem_singleton.mp hr
      exact ⟨hnode, hactive, List.mem_cons_self⟩
  · rw [List.filter_cons_of_pos (by simpa using hprior), List.reverse_cons, ← hs.new_connections,
      List.map_append]
    rfl
  · intro r hr hn
    rw [List.mem_cons, List.mem_cons, hs.kept r hr hn]
    refine or_congr_left ⟨fun hid => absurd hid ?_, fun heq => absurd ?_ hprior⟩
    · intro hid
      refine Table.find_eq_none_iff.mp hfresh (refreshed n now s.reported r) ?_ ?_
      · rw [hs.rows]
        exact List.mem_append_left _ (List.mem_map_of_mem hr)
      · exact (refreshed_id ..).trans hid
    · exact heq ▸ List.mem_map_of_mem (mem_sessionsOfNode.mpr ⟨hr, hn⟩)

/-- A session that is inserted takes no other identifier. -/
theorem find_session_of_ne {t u : Table ClientOnlineSession} {session : ClientOnlineSession}
    (hinsert : t.insert session = some u) {id : Uuid} (h : id ≠ session.id)
    (hid : t.find id = none) : u.find id = none := by
  rw [Table.find_insert hinsert]
  exact (if_neg fun hkey => h hkey.symm).trans hid

/-- The session of a connection that was not met yet is refreshed or inserted. -/
theorem progress_upsertSession {s : OnlineLoop} {new : List ClientOnlineSession}
    (hone : OneSessionEach before n) (hs : Progress n times.now before s new)
    {user : OnlineUser × Uuid} {clientId : Uuid} {db : Db}
    (hfresh : s.db.clientOnlineSessions.find user.2 = none)
    (hunmet : (clientId, user.1.ipAddress) ∉ s.reported)
    (hsame : db.clientOnlineSessions = s.db.clientOnlineSessions) :
    let r := upsertSession db (sessionsOfNode before n) n clientId times user
    (∃ new', Progress n times.now before
        ⟨r.1, (clientId, user.1.ipAddress) :: s.reported, r.2.toList ++ s.kept, false⟩ new') ∧
      ∀ id, id ≠ user.2 → s.db.clientOnlineSessions.find id = none →
        r.1.clientOnlineSessions.find id = none := by
  simp only [upsertSession]
  cases hfind : (sessionsOfNode before n).reverse.find? fun s =>
      s.clientId = clientId ∧ s.ipAddress = user.1.ipAddress with
  | some session =>
    have hsession := List.mem_reverse.mp (List.mem_of_find?_eq_some hfind)
    have hkey : connectionOf session = (clientId, user.1.ipAddress) := by
      have hsome := List.find?_some hfind
      simp only [decide_eq_true_eq] at hsome
      exact Prod.ext hsome.1 hsome.2
    simp only [hsame]
    refine ⟨⟨new, ?_⟩, fun id _ hid => ?_⟩
    · rw [← hkey] at hunmet ⊢
      exact progress_refresh hone hs hsession hunmet rfl
    · refine Table.find_eq_none_iff.mpr ?_
      refine Table.forall_mem_update (Table.find_eq_none_iff.mp hid) fun r _ _ hr => hr
  | none =>
    have hprior : (clientId, user.1.ipAddress) ∉ priorConnections before n := by
      intro hmem
      obtain ⟨r, hr, hkey⟩ := List.mem_map.mp hmem
      obtain ⟨hclient, haddress⟩ := Prod.mk.inj hkey
      have hnone := List.find?_eq_none.mp hfind r (List.mem_reverse.mpr hr)
      exact hnone (decide_eq_true ⟨hclient, haddress⟩)
    have hkey : user.2 ∉ s.db.clientOnlineSessions.rows.map key := by
      intro hmem
      obtain ⟨r, hr, hid⟩ := List.mem_map.mp hmem
      exact Table.find_eq_none_iff.mp hfresh r hr hid
    obtain ⟨sessions, hinsert, -⟩ :=
      Table.insert_of_fresh (r := newSession n clientId times user) hkey
    simp only [hsame, hinsert]
    refine ⟨⟨new ++ [newSession n clientId times user], ?_⟩, fun id hne hid => ?_⟩
    · exact @progress_insert n before s new times.now (newSession n clientId times user)
        { db with clientOnlineSessions := sessions } hs hinsert rfl rfl hunmet hprior
    · exact find_session_of_ne hinsert hne hid

/-- **One user of the report.** -/
theorem progress_handleOnlineUser {resolved : List (String × Uuid)} {clients : Table Client}
    {s : OnlineLoop} {new : List ClientOnlineSession} (hone : OneSessionEach before n)
    (hs : Progress n times.now before s new) {user : OnlineUser × Uuid}
    (hfresh : s.db.clientOnlineSessions.find user.2 = none) (hstart : s.panicked = false) :
    let s' := handleOnlineUser clients (sessionsOfNode before n) resolved n times s user
    s'.panicked = false →
    (∃ new', Progress n times.now before s' new') ∧
      (∀ k, k ∈ s'.reported ↔ k ∈ s.reported ∨ k ∈ reportedConnections resolved [user]) ∧
      ∀ id, id ≠ user.2 → s.db.clientOnlineSessions.find id = none →
        s'.db.clientOnlineSessions.find id = none := by
  simp only
  rw [handleOnlineUser, if_neg (Bool.eq_false_iff.mp hstart), reportedConnections,
    List.filterMap_cons, List.filterMap_nil]
  cases hresolve : resolve resolved user.1.clientId with
  | none => exact fun _ => ⟨⟨new, hs⟩, fun k => by simp, fun _ _ h => h⟩
  | some clientId =>
    simp only [Option.map_some]
    by_cases hmet : (clientId, user.1.ipAddress) ∈ s.reported
    · rw [if_pos hmet]
      refine fun _ => ⟨⟨new, hs⟩, fun k => ?_, fun _ _ h => h⟩
      rw [List.mem_singleton]
      exact (or_iff_left_of_imp fun hk => hk ▸ hmet).symm
    · rw [if_neg hmet]
      cases hactivate : activateOnHold s.db (clients.find clientId) (times.entryAt user) with
      | none => exact fun hpanic => absurd hpanic (by decide : ¬ true = false)
      | some db =>
        intro _
        obtain ⟨hprogress, hkeep⟩ := progress_upsertSession hone hs hfresh hmet
          (clientOnlineSessions_activateOnHold hactivate)
        refine ⟨hprogress, fun k => ?_, hkeep⟩
        rw [List.mem_cons, List.mem_singleton, or_comm]

theorem reportedConnections_cons (resolved : List (String × Uuid)) (user : OnlineUser × Uuid)
    (users : List (OnlineUser × Uuid)) : reportedConnections resolved (user :: users) =
      reportedConnections resolved [user] ++ reportedConnections resolved users := by
  rw [reportedConnections, ← List.singleton_append, List.filterMap_append]
  rfl

/-- The loop over the users, from any state it can be in. -/
theorem progress_foldl {resolved : List (String × Uuid)} {clients : Table Client}
    (hone : OneSessionEach before n) {users : List (OnlineUser × Uuid)} {s : OnlineLoop}
    {new : List ClientOnlineSession} (hs : Progress n times.now before s new)
    (hids : (users.map (·.2)).Nodup)
    (hfresh : ∀ user ∈ users, s.db.clientOnlineSessions.find user.2 = none) :
    let s' := users.foldl
      (handleOnlineUser clients (sessionsOfNode before n) resolved n times) s
    s'.panicked = false →
    (∃ new', Progress n times.now before s' new') ∧
      ∀ k, k ∈ s'.reported ↔ k ∈ s.reported ∨ k ∈ reportedConnections resolved users := by
  induction users generalizing s new with
  | nil => exact fun _ => ⟨⟨new, hs⟩, fun k => by simp [reportedConnections]⟩
  | cons user users ih =>
    intro s' hend
    rw [List.map_cons, List.nodup_cons] at hids
    have hnext : (handleOnlineUser clients (sessionsOfNode before n) resolved n times s
        user).panicked = false := panicked_of_foldl hend
    have hstart : s.panicked = false := @panicked_of_foldl _ _ _ _ _ (user :: users) s hend
    have hstep := @progress_handleOnlineUser n times before resolved clients s new hone hs user
      (hfresh user List.mem_cons_self) hstart hnext
    obtain ⟨⟨new', hprogress⟩, hreported, hkeep⟩ := hstep
    have hrest : ∀ v ∈ users, (handleOnlineUser clients (sessionsOfNode before n) resolved n times
        s user).db.clientOnlineSessions.find v.2 = none := by
      intro v hv
      refine hkeep v.2 (fun heq => hids.1 ?_) (hfresh v (List.mem_cons_of_mem user hv))
      exact heq ▸ List.mem_map_of_mem hv
    obtain ⟨hlast, hall⟩ := ih hprogress hids.2 hrest hend
    refine ⟨hlast, fun k => ?_⟩
    rw [reportedConnections_cons resolved user users, List.mem_append, ← or_assoc, ← hreported]
    exact hall k

/-- The rows that are left when the sessions that were not reported are gone. -/
theorem reconciled_of_progress {s : OnlineLoop} {new : List ClientOnlineSession} {now : DateTime}
    {connections : List (Uuid × String)} (hone : OneSessionEach before n)
    (hs : Progress n now before s new) (hreported : ∀ k, k ∈ s.reported ↔ k ∈ connections) :
    Reconciled n now connections before
      { s.db with clientOnlineSessions := s.db.clientOnlineSessions.deleteWhere fun session =>
          session.nodeId = n ∧ session.id ∉ s.kept } := by
  have hleft : ∀ r, r ∈ sessionsOfNode { s.db with
        clientOnlineSessions := s.db.clientOnlineSessions.deleteWhere fun session =>
          session.nodeId = n ∧ session.id ∉ s.kept } n ↔
      (∃ r₀ ∈ sessionsOfNode before n, connectionOf r₀ ∈ connections ∧
        r = { r₀ with lastActiveAt := now }) ∨ r ∈ new := by
    intro r
    rw [mem_sessionsOfNode, Table.mem_deleteWhere, hs.rows, List.mem_append, List.mem_map]
    simp only [decide_eq_false_iff_not, not_and, not_not]
    constructor
    · rintro ⟨⟨⟨r₀, hr₀, rfl⟩ | hnew, hkept⟩, hn⟩
      · rw [refreshed_nodeId] at hn
        have hmet : connectionOf r₀ ∈ s.reported := by
          have hid := hkept (by rw [refreshed_nodeId]; exact hn)
          rw [refreshed_id] at hid
          exact (hs.kept r₀ hr₀ hn).mp hid
        refine Or.inl ⟨r₀, mem_sessionsOfNode.mpr ⟨hr₀, hn⟩, (hreported _).mp hmet, ?_⟩
        exact if_pos ⟨hn, hmet⟩
      · exact Or.inr hnew
    · rintro (⟨r₀, hr₀, hmet, rfl⟩ | hnew)
      · obtain ⟨hmem, hn⟩ := mem_sessionsOfNode.mp hr₀
        have hmet := (hreported _).mpr hmet
        refine ⟨⟨Or.inl ⟨r₀, hmem, if_pos ⟨hn, hmet⟩⟩, fun _ => ?_⟩, hn⟩
        exact (hs.kept r₀ hmem hn).mpr hmet
      · obtain ⟨hn, -, hkept⟩ := hs.new_rows r hnew
        exact ⟨⟨Or.inr hnew, fun _ => hkept⟩, hn⟩
  have hnew : ∀ k, k ∈ new.map connectionOf ↔ k ∈ connections ∧ k ∉ priorConnections before n := by
    intro k
    rw [hs.new_connections, List.mem_reverse, List.mem_filter, hreported, decide_eq_true_eq]
  have hnewnodup : (new.map connectionOf).Nodup := by
    rw [hs.new_connections]
    exact List.nodup_reverse.mpr (hs.nodup.filter _)
  refine ⟨?_, ?_, ?_, ?_⟩
  · refine (List.perm_ext_iff_of_nodup ?_ (List.nodup_dedup connections)).mpr fun k => ?_
    · refine List.Nodup.map_on (fun r hr t ht heq => ?_) ?_
      · rcases (hleft r).mp hr with ⟨r₀, hr₀, -, rfl⟩ | hr
        · have hr₀k := List.mem_map_of_mem (f := connectionOf) hr₀
          rcases (hleft t).mp ht with ⟨t₀, ht₀, -, rfl⟩ | ht
          · rw [eq_of_connectionOf_eq hone hr₀ ht₀ heq]
          · exact absurd (heq ▸ hr₀k) ((hnew _).mp (List.mem_map_of_mem ht)).2
        · rcases (hleft t).mp ht with ⟨t₀, ht₀, -, rfl⟩ | ht
          · have ht₀k := List.mem_map_of_mem (f := connectionOf) ht₀
            exact absurd (heq ▸ ht₀k) ((hnew _).mp (List.mem_map_of_mem hr)).2
          · exact List.inj_on_of_nodup_map hnewnodup hr ht heq
      · exact (List.Nodup.of_map key (Table.nodup _)).filter _
    · rw [List.mem_dedup, List.mem_map]
      constructor
      · rintro ⟨r, hr, rfl⟩
        rcases (hleft r).mp hr with ⟨r₀, -, hmet, rfl⟩ | hr
        · exact hmet
        · exact ((hnew _).mp (List.mem_map_of_mem hr)).1
      · intro hk
        by_cases hprior : k ∈ priorConnections before n
        · obtain ⟨r₀, hr₀, rfl⟩ := List.mem_map.mp hprior
          exact ⟨_, (hleft _).mpr (Or.inl ⟨r₀, hr₀, hk, rfl⟩), rfl⟩
        · obtain ⟨r, hr, hrk⟩ := List.mem_map.mp ((hnew k).mpr ⟨hk, hprior⟩)
          exact ⟨r, (hleft r).mpr (Or.inr hr), hrk⟩
  · intro r hr
    rcases (hleft r).mp hr with ⟨r₀, -, -, rfl⟩ | hr
    · rfl
    · exact (hs.new_rows r hr).2.1
  · exact fun r hr hk => (hleft _).mpr (Or.inl ⟨r, hr, hk, rfl⟩)
  · refine (Table.filter_deleteWhere_of_not fun r _ hr => ?_).trans ?_
    · exact decide_eq_false fun h => of_decide_eq_true hr h.1
    · rw [Table.filter, hs.rows, List.filter_append, List.filter_map, Table.filter]
      have hnone : new.filter (fun r => decide (r.nodeId ≠ n)) = [] :=
        List.filter_eq_nil_iff.mpr fun r hr => by simp [(hs.new_rows r hr).1]
      have hsame : ((fun r : ClientOnlineSession => decide (r.nodeId ≠ n)) ∘
          refreshed n now s.reported) = fun r => decide (r.nodeId ≠ n) := by
        funext r
        simp
      rw [hnone, List.append_nil, hsame]
      conv_rhs => rw [← List.map_id (List.filter _ _)]
      refine List.map_congr_left fun r hr => if_neg fun h => ?_
      exact of_decide_eq_true (List.mem_filter.mp hr).2 h.1

end Loop

/-- **What an online report leaves of the sessions**: one for each connection of the report,
with the row it had if it had one; the sessions of other nodes as they were.  The handler comes
to its end if and only if no entry is out of range. -/
theorem reconciled_iff_inRange {n : Uuid} {db : Db} {users : List (OnlineUser × Uuid)}
    {times : OnlineTimes} (hone : OneSessionEach db n) (hfresh : NewSessionIds db users) :
    ((onlineLoop db n users times).panicked = false ∧ Reconciled n times.now
      (reportedConnections (resolveClientIds db (users.map (·.1.clientId))) users) db
      (handleOnlineUsers db n users times)) ↔
      ∀ entry ∈ entriesOf db users, outOfRange db.clients times entry = false := by
  have hrange : (onlineLoop db n users times).panicked = false ↔
      ∀ entry ∈ entriesOf db users, outOfRange db.clients times entry = false := by
    rw [panicked_onlineLoop, List.any_eq_false]
    simp only [Bool.not_eq_true]
  rw [hrange]
  refine and_iff_left_of_imp fun hinRange => ?_
  have hend := hrange.mpr hinRange
  have hstart : Progress n times.now db (OnlineLoop.start db) [] := by
    refine ⟨?_, List.nodup_nil, fun r hr => ?_, rfl, fun r _ _ => ?_⟩
    · rw [List.append_nil]
      conv_lhs => rw [OnlineLoop.start, ← List.map_id db.clientOnlineSessions.rows]
      exact List.map_congr_left fun r _ => (if_neg fun h => (List.not_mem_nil h.2)).symm
    · exact absurd hr List.not_mem_nil
    · exact iff_of_false List.not_mem_nil List.not_mem_nil
  have hloop := @progress_foldl n times db (resolveClientIds db (users.map (·.1.clientId)))
    db.clients hone users _ _ hstart hfresh.1 hfresh.2
  obtain ⟨⟨new, hprogress⟩, hreported⟩ := hloop hend
  rw [handleOnlineUsers, if_neg (Bool.eq_false_iff.mp hend)]
  refine reconciled_of_progress hone hprogress fun k => (hreported k).trans ?_
  exact or_iff_right List.not_mem_nil

/-! ### Two names for one connection -/

namespace SeenTwice

def client : Client :=
  { ManualReset.client with
    email := some "ida@example.com"
    status := "on_hold"
    onHoldExpireDurationSecs := some 3600 }

/-- A session that goes on and one that is over. -/
def db : Db where
  clients := .single client
  clientOnlineSessions := ⟨[⟨.ofNat 30, client.id, .ofNat 3, "192.0.2.1", none, default, default⟩,
    ⟨.ofNat 31, client.id, .ofNat 3, "192.0.2.2", none, default, default⟩], by decide⟩

/-- The first connection under both names, and a new one. -/
def users : List (OnlineUser × Uuid) :=
  [(⟨"ida@example.com", "192.0.2.1", ""⟩, .ofNat 32),
    (⟨client.id.toStr, "192.0.2.1", ""⟩, .ofNat 33), (⟨"nobody", "192.0.2.9", ""⟩, .ofNat 34),
    (⟨client.id.toStr, "192.0.2.3", "vless"⟩, .ofNat 35)]

def times : OnlineTimes := .still ⟨2000000000, 0⟩

theorem oneSessionEach : OneSessionEach db (.ofNat 3) := by
  decide

theorem newSessionIds : NewSessionIds db users := by
  refine ⟨by decide, fun user huser => ?_⟩
  have hall : users.all fun user => (db.clientOnlineSessions.find user.2).isNone := by
    decide
  exact Option.isNone_iff_eq_none.mp (List.all_eq_true.mp hall user huser)

theorem inRange : ∀ entry ∈ entriesOf db users, outOfRange db.clients times entry = false := by
  have hall : (entriesOf db users).all fun entry => !outOfRange db.clients times entry := by
    decide
  exact fun entry hentry => Bool.not_eq_true' _ |>.mp (List.all_eq_true.mp hall entry hentry)

end SeenTwice

theorem reconciled_iff_inRange_seenTwice :
    (onlineLoop SeenTwice.db (.ofNat 3) SeenTwice.users SeenTwice.times).panicked = false ∧
      Reconciled (.ofNat 3) SeenTwice.times.now (reportedConnections
        (resolveClientIds SeenTwice.db (SeenTwice.users.map (·.1.clientId))) SeenTwice.users)
        SeenTwice.db (handleOnlineUsers SeenTwice.db (.ofNat 3) SeenTwice.users SeenTwice.times) :=
  (reconciled_iff_inRange SeenTwice.oneSessionEach SeenTwice.newSessionIds).mpr
    SeenTwice.inRange

/-! ### A duration of 300000 years -/

namespace EndlessHold

def client : Client :=
  { ManualReset.client with
    status := "on_hold"
    onHoldExpireDurationSecs := some 10000000000000 }

/-- The client on hold, and a session of it that is over. -/
def db : Db where
  clients := .single client
  clientOnlineSessions :=
    .single ⟨.ofNat 30, client.id, .ofNat 3, "192.0.2.1", none, default, default⟩

def users : List (OnlineUser × Uuid) := [(⟨client.id.toStr, "192.0.2.2", ""⟩, .ofNat 31)]

def times : OnlineTimes := .still ⟨2000000000, 0⟩

end EndlessHold

/-- **A client on hold for too long stops the handler**: its connection gets no session, and the
session that is over stays. -/
theorem endless_hold_not_reconciled :
    OneSessionEach EndlessHold.db (.ofNat 3) ∧ NewSessionIds EndlessHold.db EndlessHold.users ∧
      ¬ Reconciled (.ofNat 3) EndlessHold.times.now (reportedConnections
        (resolveClientIds EndlessHold.db (EndlessHold.users.map (·.1.clientId))) EndlessHold.users)
        EndlessHold.db
        (handleOnlineUsers EndlessHold.db (.ofNat 3) EndlessHold.users EndlessHold.times) := by
  refine ⟨by decide, ⟨by decide, fun user huser => ?_⟩, fun h => ?_⟩
  · obtain rfl := List.mem_singleton.mp huser
    decide
  · have hmem := (h.exact.mem_iff (a := (EndlessHold.client.id, "192.0.2.1"))).mp (by decide)
    exact absurd hmem (by decide)

end ProxyPanel.Hub
