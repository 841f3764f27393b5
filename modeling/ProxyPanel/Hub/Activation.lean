import ProxyPanel.Hub.PeriodicChecks
import ProxyPanel.Hub.OnlineSessions
import Mathlib.Data.List.TakeWhile

/-!
# Activation of clients on hold

A client on hold is activated by the first report that has a connection of it.
`clientsActivated` lists the `client_activated` events of a report, each with the row write
it goes with (`clients_handleOnlineUsers`).  The status is read before the loop over the
entries, so every address a client connects from activates it once more; and a duration that
is out of range ends the loop, so that nobody is activated from there on.
`activatedOnce_iff_guarded` says which runs activate every client exactly once.
-/

namespace ProxyPanel.Hub

/-- A `client_activated` event. -/
structure Activation where
  clientId : Uuid
  activatedAt : DateTime
  expireDate : Option DateTime
  deriving DecidableEq

/-- The row of the client when the event is sent. -/
def Activation.row (a : Activation) (r : Client) : Client :=
  { r with status := "active", expiryDate := a.expireDate, updatedAt := a.activatedAt }

/-- The write that comes before the event. -/
def Activation.write (t : Table Client) (a : Activation) : Table Client :=
  t.update a.clientId a.row

/-- The entries the handler comes to: those before the first one that is out of range. -/
def reachedEntries (db : Db) (users : List (OnlineUser × Uuid)) (times : OnlineTimes) :
    List (Uuid × (OnlineUser × Uuid)) :=
  (entriesOf db users).takeWhile fun entry => !outOfRange db.clients times entry

/-- The activation at one entry.  The clients were read once, before the loop. -/
def activation (clients : Table Client) (times : OnlineTimes)
    (entry : Uuid × (OnlineUser × Uuid)) : Option Activation :=
  match clients.find entry.1 with
  | none => none
  | some c =>
    if c.status = "on_hold" then
      let now := times.entryAt entry.2
      (expireDate c now).map fun date => ⟨entry.1, now, date⟩
    else none

/-- The events of a report, in their order. -/
def clientsActivated (db : Db) (users : List (OnlineUser × Uuid)) (times : OnlineTimes) :
    List Activation :=
  (reachedEntries db users times).filterMap (activation db.clients times)

/-! ### Events and writes -/

theorem clients_activateOnHold {db db' : Db} {clients : Table Client} {times : OnlineTimes}
    {entry : Uuid × (OnlineUser × Uuid)}
    (h : activateOnHold db (clients.find entry.1) (times.entryAt entry.2) = some db') :
    db'.clients = (activation clients times entry).toList.foldl Activation.write db.clients := by
  rw [activation]
  cases hc : clients.find entry.1 with
  | none =>
    rw [hc] at h
    cases h
    rfl
  | some c =>
    have hid : c.id = entry.1 := Table.key_of_find hc
    rw [hc, activateOnHold] at h
    simp only
    split at h
    · rename_i hhold
      obtain ⟨date, hdate, rfl⟩ := Option.map_eq_some_iff.mp h
      rw [if_pos hhold, hdate, hid]
      rfl
    · rename_i hhold
      cases h
      rw [if_neg hhold]
      rfl

theorem clients_foldl_handleOnlineUser {clients : Table Client}
    {sessions : List ClientOnlineSession} {resolved : List (String × Uuid)} {agentId : Uuid}
    {times : OnlineTimes} (users : List (OnlineUser × Uuid)) {s : OnlineLoop}
    (hs : s.panicked = false) :
    (users.foldl (handleOnlineUser clients sessions resolved agentId times) s).db.clients =
      (((newEntries resolved s.reported users).takeWhile fun entry =>
          !outOfRange clients times entry).filterMap (activation clients times)).foldl
        Activation.write s.db.clients := by
  induction users generalizing s with
  | nil => rfl
  | cons user users ih =>
    rw [List.foldl_cons, newEntries, handleOnlineUser, if_neg (Bool.eq_false_iff.mp hs)]
    cases resolve resolved user.1.clientId with
    | none => exact ih hs
    | some clientId =>
      simp only
      split
      · exact ih hs
      · cases hactivate : activateOnHold s.db (clients.find clientId) (times.entryAt user) with
        | none =>
          rw [foldl_handleOnlineUser_of_panicked rfl, List.takeWhile_cons,
            activateOnHold_eq_none_iff.mp hactivate]
          rfl
        | some db =>
          rw [List.takeWhile_cons, outOfRange_of_activateOnHold hactivate, Bool.not_false,
            if_pos rfl, List.filterMap_cons]
          refine (ih rfl).trans ?_
          simp only
          rw [clients_upsertSession]
          have hhead := @clients_activateOnHold s.db db clients times (clientId, user) hactivate
          rw [hhead]
          cases activation clients times (clientId, user) with
          | none => rfl
          | some a => rfl

/-- **Each event goes with one write to the clients, and there are no other writes.** -/
theorem clients_handleOnlineUsers (db : Db) (agentId : Uuid) (users : List (OnlineUser × Uuid))
    (times : OnlineTimes) : (handleOnlineUsers db agentId users times).clients =
      (clientsActivated db users times).foldl Activation.write db.clients := by
  have hloop : (onlineLoop db agentId users times).db.clients =
      (clientsActivated db users times).foldl Activation.write db.clients :=
    clients_foldl_handleOnlineUser users rfl
  rw [handleOnlineUsers]
  split
  · exact hloop
  · exact hloop

/-- The last of the writes to a row is the one that is left. -/
theorem find_foldl_write (id : Uuid) (as : List Activation) (t : Table Client) :
    (as.foldl Activation.write t).find id =
      match (as.filter (·.clientId = id)).getLast? with
      | none => t.find id
      | some a => (t.find id).map a.row := by
  induction as using List.reverseRecOn with
  | nil => rfl
  | append_singleton as a ih =>
    rw [List.foldl_append, List.foldl_cons, List.foldl_nil, List.filter_append, Activation.write]
    by_cases ha : a.clientId = id
    · have hlast : [a].filter (·.clientId = id) = [a] := by simp [ha]
      rw [hlast, List.getLast?_concat]
      obtain rfl := ha
      refine (find_update_client (f := a.row) fun _ => rfl).trans ?_
      rw [ih]
      split
      · rfl
      · rw [Option.map_map]
        rfl
    · have hlast : [a].filter (·.clientId = id) = [] := by simp [ha]
      rw [hlast, List.append_nil, Table.find_update_of_ne (Ne.symm ha), ih]

/-! ### The entries of one client -/

/-- The connection of an entry. -/
def connectionOfEntry (entry : Uuid × (OnlineUser × Uuid)) : Uuid × String :=
  (entry.1, entry.2.1.ipAddress)

/-- The entries that are not skipped have the connections of the report, each once. -/
theorem connections_newEntries {resolved : List (String × Uuid)}
    (users : List (OnlineUser × Uuid)) (reported : List (Uuid × String)) :
    ((newEntries resolved reported users).map connectionOfEntry).Nodup ∧
      ∀ k, k ∈ (newEntries resolved reported users).map connectionOfEntry ↔
        k ∈ reportedConnections resolved users ∧ k ∉ reported := by
  induction users generalizing reported with
  | nil => exact ⟨List.nodup_nil, fun k => by simp [newEntries, reportedConnections]⟩
  | cons user users ih =>
    rw [newEntries, reportedConnections_cons, reportedConnections, List.filterMap_cons,
      List.filterMap_nil]
    cases resolve resolved user.1.clientId with
    | none =>
      simp only [Option.map_none, List.nil_append]
      exact ih reported
    | some clientId =>
      simp only [Option.map_some]
      split
      · rename_i hmet
        refine ⟨(ih reported).1, fun k => ((ih reported).2 k).trans ?_⟩
        rw [List.mem_append, List.mem_singleton]
        refine and_congr_left fun hk => (or_iff_right fun heq => hk ?_).symm
        exact heq ▸ hmet
      · rename_i hmet
        obtain ⟨hnodup, hmem⟩ := ih ((clientId, user.1.ipAddress) :: reported)
        rw [List.map_cons]
        refine ⟨List.nodup_cons.mpr ⟨fun h => ?_, hnodup⟩, fun k => ?_⟩
        · exact ((hmem _).mp h).2 List.mem_cons_self
        · rw [List.mem_cons, hmem, List.mem_append, List.mem_singleton, List.mem_cons, not_or]
          constructor
          · rintro (rfl | ⟨hk, -, hrest⟩)
            · exact ⟨Or.inl rfl, hmet⟩
            · exact ⟨Or.inr hk, hrest⟩
          · rintro ⟨rfl | hk, hrest⟩
            · exact Or.inl rfl
            · by_cases heq : k = (clientId, user.1.ipAddress)
              · exact Or.inl heq
              · exact Or.inr ⟨hk, heq, hrest⟩

/-- The connections of a report that was just received. -/
def connectionsOf (db : Db) (users : List (OnlineUser × Uuid)) : List (Uuid × String) :=
  reportedConnections (resolveClientIds db (users.map (·.1.clientId))) users

/-- The entries of one client that the handler comes to. -/
def entriesFor (db : Db) (id : Uuid) (users : List (OnlineUser × Uuid)) (times : OnlineTimes) :
    List (Uuid × (OnlineUser × Uuid)) :=
  (reachedEntries db users times).filter (·.1 = id)

/-- Whether a report has a connection of a client. -/
def Connects (db : Db) (id : Uuid) (users : List (OnlineUser × Uuid)) : Prop :=
  ∃ k ∈ connectionsOf db users, k.1 = id

instance (db : Db) (id : Uuid) (users : List (OnlineUser × Uuid)) :
    Decidable (Connects db id users) :=
  inferInstanceAs (Decidable (∃ k ∈ connectionsOf db users, k.1 = id))

theorem mem_connectionsOf {db : Db} {users : List (OnlineUser × Uuid)} {k : Uuid × String} :
    k ∈ connectionsOf db users ↔ k ∈ (entriesOf db users).map connectionOfEntry := by
  have hall := (@connections_newEntries (resolveClientIds db (users.map (·.1.clientId)))
    users []).2 k
  rw [entriesOf, hall, connectionsOf, and_iff_left List.not_mem_nil]

theorem entriesFor_eq_nil {db : Db} {id : Uuid} {users : List (OnlineUser × Uuid)}
    (times : OnlineTimes) (h : ¬ Connects db id users) : entriesFor db id users times = [] := by
  rw [entriesFor, List.filter_eq_nil_iff]
  intro entry hentry hid
  have hmem : entry ∈ entriesOf db users := (List.takeWhile_sublist _).subset hentry
  exact h ⟨connectionOfEntry entry, mem_connectionsOf.mpr (List.mem_map_of_mem hmem),
    of_decide_eq_true hid⟩

/-! ### The events of one client -/

theorem clientId_of_activation {clients : Table Client} {times : OnlineTimes}
    {entry : Uuid × (OnlineUser × Uuid)} {a : Activation}
    (h : activation clients times entry = some a) : a.clientId = entry.1 := by
  rw [activation] at h
  split at h
  · cases h
  · split at h
    · obtain ⟨date, -, rfl⟩ := Option.map_eq_some_iff.mp h
      rfl
    · cases h

/-- The events of a client are those of its entries. -/
theorem filter_clientsActivated (db : Db) (id : Uuid) (users : List (OnlineUser × Uuid))
    (times : OnlineTimes) : (clientsActivated db users times).filter (·.clientId = id) =
      (entriesFor db id users times).filterMap (activation db.clients times) := by
  rw [clientsActivated, entriesFor]
  induction reachedEntries db users times with
  | nil => rfl
  | cons entry entries ih =>
    rw [List.filterMap_cons, List.filter_cons]
    cases ha : activation db.clients times entry with
    | none =>
      simp only [ih]
      split
      · rw [List.filterMap_cons, ha]
      · rfl
    | some a =>
      simp only [List.filter_cons, clientId_of_activation ha, ih]
      split
      · rw [List.filterMap_cons, ha]
      · rfl

/-- The event of a client on hold at an entry. -/
def eventAt (times : OnlineTimes) (c : Client) (entry : Uuid × (OnlineUser × Uuid)) : Activation :=
  let now := times.entryAt entry.2
  ⟨c.id, now, c.onHoldExpireDurationSecs.map now.addSeconds⟩

/-- A client on hold is activated at each of its entries. -/
theorem filter_clientsActivated_of_onHold {db : Db} {c : Client} {id : Uuid}
    (hc : db.clients.find id = some c) (hhold : c.status = "on_hold")
    (users : List (OnlineUser × Uuid)) (times : OnlineTimes) :
    (clientsActivated db users times).filter (·.clientId = id) =
      (entriesFor db id users times).map (eventAt times c) := by
  obtain rfl : c.id = id := Table.key_of_find hc
  rw [filter_clientsActivated, ← List.filterMap_eq_map]
  refine List.filterMap_congr fun entry hentry => ?_
  obtain ⟨hreached, hid⟩ := List.mem_filter.mp hentry
  have hid : entry.1 = c.id := of_decide_eq_true hid
  have hrange := List.mem_takeWhile_imp hreached
  rw [outOfRange, hid, hc] at hrange
  rw [activation, hid, hc]
  cases hdate : expireDate c (times.entryAt entry.2) with
  | none => simp [hhold, hdate] at hrange
  | some date =>
    simp only [hhold, if_true, hdate, Option.map_some, eq_of_expireDate hdate]
    rfl

theorem filter_clientsActivated_of_not_onHold {db : Db} {id : Uuid}
    (h : ∀ c, db.clients.find id = some c → c.status ≠ "on_hold")
    (users : List (OnlineUser × Uuid)) (times : OnlineTimes) :
    (clientsActivated db users times).filter (·.clientId = id) = [] := by
  rw [filter_clientsActivated, List.filterMap_eq_nil_iff]
  intro entry hentry
  have hid : entry.1 = id := of_decide_eq_true (List.mem_filter.mp hentry).2
  rw [activation, hid]
  cases hc : db.clients.find id with
  | none => rfl
  | some c =>
    simp only
    exact if_neg (h c hc)

/-- The row of a client after a report. -/
theorem find_clients_handleOnlineUsers (db : Db) (agentId : Uuid)
    (users : List (OnlineUser × Uuid)) (times : OnlineTimes) (id : Uuid) :
    (handleOnlineUsers db agentId users times).clients.find id =
      match ((clientsActivated db users times).filter (·.clientId = id)).getLast? with
      | none => db.clients.find id
      | some a => (db.clients.find id).map a.row := by
  rw [clients_handleOnlineUsers, find_foldl_write]

/-! ### Runs -/

/-- A database, the events so far and the clients that were on hold when a report had a
connection of them. -/
structure ActivationLog where
  db : Db
  log : List Activation
  due : List Uuid

/-- The clients on hold that a report has a connection of. -/
def heldClients (db : Db) (users : List (OnlineUser × Uuid)) : List Uuid :=
  (db.clients.filter fun c => c.status = "on_hold" ∧ Connects db c.id users).map (·.id)

/-- One operation.  An administrator who puts a client on hold again is none. -/
def activationStep (countBytes : CountBytes) (s : ActivationLog) (op : Operation) :
    Option ActivationLog :=
  let db := op.apply countBytes s.db
  match op with
  | .onlineUsers _ users times =>
    some ⟨db, s.log ++ clientsActivated s.db users times, s.due ++ heldClients s.db users⟩
  | .updateClient .. => none
  | _ => some ⟨db, s.log, s.due⟩

/-- **Every client that is due was activated once**, at the time that its expiry date counts
from; no other client was activated. -/
structure ActivatedOnce (s : ActivationLog) : Prop where
  once : ∀ id ∈ s.due, ∃ a, s.log.filter (·.clientId = id) = [a] ∧
    ∀ c, s.db.clients.find id = some c → c.expiryDate = a.expireDate ∧
      a.expireDate = c.onHoldExpireDurationSecs.map a.activatedAt.addSeconds
  only : ∀ id, id ∉ s.due → s.log.filter (·.clientId = id) = []

/-- What a report must meet: the handler comes to one address of each client on hold that
connects. -/
def ConnectsOnce (s : ActivationLog) : Operation → Prop
  | .onlineUsers _ users times =>
      ∀ id ∈ heldClients s.db users, (entriesFor s.db id users times).length = 1
  | _ => True

instance (s : ActivationLog) (op : Operation) : Decidable (ConnectsOnce s op) := by
  cases op <;> unfold ConnectsOnce <;> infer_instance

theorem mem_heldClients {db : Db} {id : Uuid} {users : List (OnlineUser × Uuid)} :
    id ∈ heldClients db users ↔
      ∃ c, db.clients.find id = some c ∧ c.status = "on_hold" ∧ Connects db id users := by
  rw [heldClients, List.mem_map]
  constructor
  · rintro ⟨c, hc, rfl⟩
    obtain ⟨hmem, h⟩ := Table.mem_filter.mp hc
    exact ⟨c, Table.find_eq_some_iff.mpr ⟨hmem, rfl⟩, of_decide_eq_true h⟩
  · rintro ⟨c, hc, hhold, hconnects⟩
    obtain ⟨hmem, hid⟩ := Table.find_eq_some_iff.mp hc
    have hid : c.id = id := hid
    exact ⟨c, Table.mem_filter.mpr ⟨hmem, decide_eq_true ⟨hhold, hid ▸ hconnects⟩⟩, hid⟩

/-- Without durations that are out of range, a report meets it when each client on hold
connects from one address, under any number of names. -/
theorem connectsOnce_iff_of_inRange {s : ActivationLog} {agentId : Uuid}
    {users : List (OnlineUser × Uuid)} {times : OnlineTimes}
    (hrange : ∀ entry ∈ entriesOf s.db users, outOfRange s.db.clients times entry = false) :
    ConnectsOnce s (.onlineUsers agentId users times) ↔ ∀ id ∈ heldClients s.db users,
      ∀ k ∈ connectionsOf s.db users, ∀ k' ∈ connectionsOf s.db users,
        k.1 = id → k'.1 = id → k = k' := by
  have hall : reachedEntries s.db users times = entriesOf s.db users :=
    List.takeWhile_eq_self_iff.mpr fun entry hentry => by rw [hrange entry hentry]; rfl
  refine forall_congr' fun id => imp_congr_right fun hid => ?_
  have hmem : ∀ k, k ∈ (entriesFor s.db id users times).map connectionOfEntry ↔
      k ∈ connectionsOf s.db users ∧ k.1 = id := by
    intro k
    rw [mem_connectionsOf, entriesFor, hall]
    constructor
    · intro hk
      obtain ⟨entry, hentry, rfl⟩ := List.mem_map.mp hk
      obtain ⟨hmem, hkey⟩ := List.mem_filter.mp hentry
      exact ⟨List.mem_map_of_mem hmem, of_decide_eq_true hkey⟩
    · rintro ⟨hk, hkey⟩
      obtain ⟨entry, hentry, rfl⟩ := List.mem_map.mp hk
      exact List.mem_map_of_mem (List.mem_filter.mpr ⟨hentry, decide_eq_true hkey⟩)
  have hnodup : ((entriesFor s.db id users times).map connectionOfEntry).Nodup := by
    rw [entriesFor, hall]
    exact (connections_newEntries users []).1.sublist (List.filter_sublist.map connectionOfEntry)
  rw [← List.length_map (f := connectionOfEntry)]
  constructor
  · intro hlen k hk k' hk' hkey hkey'
    obtain ⟨a, ha⟩ := List.length_eq_one_iff.mp hlen
    have hk := (hmem k).mpr ⟨hk, hkey⟩
    have hk' := (hmem k').mpr ⟨hk', hkey'⟩
    rw [ha, List.mem_singleton] at hk hk'
    exact hk.trans hk'.symm
  · intro h
    obtain ⟨c, -, -, k, hk, hkey⟩ := mem_heldClients.mp hid
    have hpos := List.length_pos_of_mem ((hmem k).mpr ⟨hk, hkey⟩)
    refine Nat.le_antisymm (Table.length_le_one hnodup fun k hk k' hk' => ?_) hpos
    obtain ⟨hk, hkey⟩ := (hmem k).mp hk
    obtain ⟨hk', hkey'⟩ := (hmem k').mp hk'
    exact h k hk k' hk' hkey hkey'

/-- The property with what makes it stay: an activated client is not on hold. -/
structure Released (s : ActivationLog) : Prop where
  activated : ActivatedOnce s
  over_hold : ∀ id ∈ s.due, ∀ c, s.db.clients.find id = some c → c.status ≠ "on_hold"

/-- What the other operations keep of a row. -/
structure SameTerm (c c' : Client) : Prop where
  expiryDate : c'.expiryDate = c.expiryDate
  duration : c'.onHoldExpireDurationSecs = c.onHoldExpireDurationSecs
  onHold : c'.status = "on_hold" → c.status = "on_hold"

theorem SameTerm.refl (c : Client) : SameTerm c c := ⟨rfl, rfl, fun h => h⟩

theorem sameTerm_checkedRow (resetsAt limitsAt holdsAt : DateTime) (c : Client) :
    SameTerm c (checkedRow resetsAt limitsAt holdsAt c) := by
  have hreset : SameTerm c (resetRow resetsAt c) := by
    rw [resetRow]
    split
    · refine ⟨rfl, rfl, fun h => ?_⟩
      simp only [resetPeriod] at h
      split at h
      · exact absurd h (by decide : "active" ≠ "on_hold")
      · exact h
    · exact SameTerm.refl c
  have hlimit : SameTerm (resetRow resetsAt c) (limitRow limitsAt (resetRow resetsAt c)) := by
    rcases limitRow_cases limitsAt (resetRow resetsAt c) with ⟨-, h, -⟩ | ⟨-, h, -⟩ | ⟨h, -⟩
    · rw [h]
      exact ⟨rfl, rfl, fun h => absurd h (by decide : "expired" ≠ "on_hold")⟩
    · rw [h]
      exact ⟨rfl, rfl, fun h => absurd h (by decide : "limited" ≠ "on_hold")⟩
    · rw [h]
      exact SameTerm.refl _
  have hhold : SameTerm (limitRow limitsAt (resetRow resetsAt c))
      (checkedRow resetsAt limitsAt holdsAt c) := by
    rw [checkedRow]
    rcases holdRow_cases holdsAt (limitRow limitsAt (resetRow resetsAt c)) with
      ⟨-, -, h⟩ | ⟨h, -⟩
    · rw [h]
      exact ⟨rfl, rfl, fun h => absurd h (by decide : "expired" ≠ "on_hold")⟩
    · rw [h]
      exact SameTerm.refl _
  exact ⟨hhold.expiryDate.trans (hlimit.expiryDate.trans hreset.expiryDate),
    hhold.duration.trans (hlimit.duration.trans hreset.duration),
    fun h => hreset.onHold (hlimit.onHold (hhold.onHold h))⟩

/-- Operations that are not online reports or updates. -/
theorem exists_sameTerm {countBytes : CountBytes} {db : Db} {op : Operation} {id : Uuid}
    {c' : Client} (hop : ∀ agentId users times, op ≠ .onlineUsers agentId users times)
    (hupdate : ∀ now id payload, op ≠ .updateClient now id payload)
    (hc' : (op.apply countBytes db).clients.find id = some c') :
    ∃ c, db.clients.find id = some c ∧ SameTerm c c' := by
  have hmap : ∀ {g : Client → Client}, (∀ c, SameTerm c (g c)) →
      (db.clients.find id).map g = some c' → ∃ c, db.clients.find id = some c ∧ SameTerm c c' := by
    intro g hg h
    obtain ⟨c, hc, rfl⟩ := Option.map_eq_some_iff.mp h
    exact ⟨c, hc, hg c⟩
  cases op with
  | trafficReport agentId users hour =>
    rw [Operation.apply, find_handleTraffic_last] at hc'
    split at hc'
    · exact ⟨c', hc', SameTerm.refl c'⟩
    · refine hmap (fun c => ?_) hc'
      rw [counted]
      split
      · exact SameTerm.refl c
      · exact ⟨rfl, rfl, fun h => h⟩
  | periodicChecks resetsAt limitsAt holdsAt =>
    rw [Operation.apply, find_runPeriodicChecks] at hc'
    exact hmap (fun c => sameTerm_checkedRow _ _ _ c) hc'
  | resetTraffic now id' =>
    rw [Operation.apply, find_resetClientTraffic] at hc'
    refine hmap (fun c => ?_) hc'
    split
    · exact ⟨rfl, rfl, fun h => h⟩
    · exact SameTerm.refl c
  | onlineUsers agentId users times => exact absurd rfl (hop agentId users times)
  | updateClient now id' payload => exact absurd rfl (hupdate now id' payload)

/-- An operation without events. -/
theorem released_of_others {countBytes : CountBytes} {s : ActivationLog} {op : Operation}
    (hs : Released s) (hop : ∀ agentId users times, op ≠ .onlineUsers agentId users times)
    (hupdate : ∀ now id payload, op ≠ .updateClient now id payload) :
    Released ⟨op.apply countBytes s.db, s.log, s.due⟩ := by
  have hrows : ∀ id c', (op.apply countBytes s.db).clients.find id = some c' →
      ∃ c, s.db.clients.find id = some c ∧ SameTerm c c' :=
    fun id c' hc' => exists_sameTerm hop hupdate hc'
  refine ⟨⟨fun id hid => ?_, hs.activated.only⟩, fun id hid c' hc' => ?_⟩
  · obtain ⟨a, ha, hrow⟩ := hs.activated.once id hid
    refine ⟨a, ha, fun c' hc' => ?_⟩
    obtain ⟨c, hc, hterm⟩ := hrows id c' hc'
    rw [hterm.expiryDate, hterm.duration]
    exact hrow c hc
  · obtain ⟨c, hc, hterm⟩ := hrows id c' hc'
    exact fun h => hs.over_hold id hid c hc (hterm.onHold h)

/-- A client on hold that connects once is activated once, for its own duration. -/
theorem filter_clientsActivated_of_held {s : ActivationLog} {agentId : Uuid}
    {users : List (OnlineUser × Uuid)} {times : OnlineTimes}
    (hok : ConnectsOnce s (.onlineUsers agentId users times)) {id : Uuid}
    (hid : id ∈ heldClients s.db users) :
    ∃ c a, s.db.clients.find id = some c ∧ c.status = "on_hold" ∧
      (clientsActivated s.db users times).filter (·.clientId = id) = [a] ∧
      a.expireDate = c.onHoldExpireDurationSecs.map a.activatedAt.addSeconds := by
  obtain ⟨c, hc, hhold, -⟩ := mem_heldClients.mp hid
  obtain ⟨entry, hentry⟩ := List.length_eq_one_iff.mp (hok id hid)
  refine ⟨c, eventAt times c entry, hc, hhold, ?_, rfl⟩
  rw [filter_clientsActivated_of_onHold hc hhold, hentry]
  rfl

theorem filter_clientsActivated_of_not_held {db : Db} {users : List (OnlineUser × Uuid)}
    {id : Uuid} (hid : id ∉ heldClients db users) (times : OnlineTimes) :
    (clientsActivated db users times).filter (·.clientId = id) = [] := by
  by_cases hheld : ∃ c, db.clients.find id = some c ∧ c.status = "on_hold"
  · obtain ⟨c, hc, hhold⟩ := hheld
    rw [filter_clientsActivated_of_onHold hc hhold, List.map_eq_nil_iff]
    exact entriesFor_eq_nil times fun hconnects =>
      hid (mem_heldClients.mpr ⟨c, hc, hhold, hconnects⟩)
  · exact filter_clientsActivated_of_not_onHold
      (fun c hc hhold => hheld ⟨c, hc, hhold⟩) users times

/-- **A report in which every client on hold connects once.** -/
theorem released_onlineUsers {countBytes : CountBytes} {s : ActivationLog} {agentId : Uuid}
    {users : List (OnlineUser × Uuid)} {times : OnlineTimes} (hs : Released s)
    (hok : ConnectsOnce s (.onlineUsers agentId users times)) :
    Released ⟨(Operation.onlineUsers agentId users times).apply countBytes s.db,
      s.log ++ clientsActivated s.db users times, s.due ++ heldClients s.db users⟩ := by
  have hrow : ∀ id, (handleOnlineUsers s.db agentId users times).clients.find id = _ :=
    find_clients_handleOnlineUsers s.db agentId users times
  refine ⟨⟨fun id hid => ?_, fun id hid => ?_⟩, fun id hid c' hc' => ?_⟩
  · by_cases hnew : id ∈ heldClients s.db users
    · obtain ⟨c, a, hc, hhold, ha, hexpire⟩ := filter_clientsActivated_of_held hok hnew
      have hdue : id ∉ s.due := fun hdue => hs.over_hold id hdue c hc hhold
      refine ⟨a, ?_, fun c' hc' => ?_⟩
      · simp only [List.filter_append, hs.activated.only id hdue, ha, List.nil_append]
      · have hc' := (hrow id).symm.trans hc'
        rw [ha, hc] at hc'
        cases hc'
        exact ⟨rfl, hexpire⟩
    · have hold := (List.mem_append.mp hid).resolve_right hnew
      obtain ⟨a, ha, hkeep⟩ := hs.activated.once id hold
      refine ⟨a, ?_, fun c' hc' => hkeep c' ?_⟩
      · simp only [List.filter_append, filter_clientsActivated_of_not_held hnew, List.append_nil]
        exact ha
      · have hc' := (hrow id).symm.trans hc'
        rw [filter_clientsActivated_of_not_held hnew] at hc'
        exact hc'
  · simp only [List.mem_append, not_or] at hid
    simp only [List.filter_append, hs.activated.only id hid.1,
      filter_clientsActivated_of_not_held hid.2, List.append_nil]
  · have hc' := (hrow id).symm.trans hc'
    by_cases hnew : id ∈ heldClients s.db users
    · obtain ⟨c, a, hc, -, ha, -⟩ := filter_clientsActivated_of_held hok hnew
      rw [ha, hc] at hc'
      cases hc'
      exact (by decide : "active" ≠ "on_hold")
    · rw [filter_clientsActivated_of_not_held hnew] at hc'
      exact hs.over_hold id ((List.mem_append.mp hid).resolve_right hnew) c' hc'

/-- A report that activates every client on hold once has come to one address of each. -/
theorem connectsOnce_of_activatedOnce {s : ActivationLog} {db : Db} {agentId : Uuid}
    {users : List (OnlineUser × Uuid)} {times : OnlineTimes} (hs : Released s)
    (h : ActivatedOnce ⟨db, s.log ++ clientsActivated s.db users times,
      s.due ++ heldClients s.db users⟩) : ConnectsOnce s (.onlineUsers agentId users times) := by
  intro id hheld
  obtain ⟨c, hc, hhold, -⟩ := mem_heldClients.mp hheld
  obtain ⟨a, ha, -⟩ := h.once id (List.mem_append_right _ hheld)
  have hdue : id ∉ s.due := fun hdue => hs.over_hold id hdue c hc hhold
  simp only [List.filter_append, hs.activated.only id hdue, List.nil_append] at ha
  rw [filter_clientsActivated_of_onHold hc hhold] at ha
  rw [← List.length_map (f := eventAt times c), ha, List.length_singleton]

/-- One operation in which every client on hold connects once. -/
theorem released_step {countBytes : CountBytes} {s s' : ActivationLog} {op : Operation}
    (hs : Released s) (hok : ConnectsOnce s op) (h : activationStep countBytes s op = some s') :
    Released s' := by
  cases op with
  | onlineUsers agentId users times =>
    cases h
    exact released_onlineUsers hs hok
  | updateClient now id payload => cases h
  | trafficReport agentId users hour =>
    cases h
    exact @released_of_others countBytes s (.trafficReport agentId users hour) hs
      (fun _ _ _ h => nomatch h) (fun _ _ _ h => nomatch h)
  | periodicChecks resetsAt limitsAt holdsAt =>
    cases h
    exact @released_of_others countBytes s (.periodicChecks resetsAt limitsAt holdsAt) hs
      (fun _ _ _ h => nomatch h) (fun _ _ _ h => nomatch h)
  | resetTraffic now id =>
    cases h
    exact @released_of_others countBytes s (.resetTraffic now id) hs
      (fun _ _ _ h => nomatch h) (fun _ _ _ h => nomatch h)

theorem connectsOnce_of_step {countBytes : CountBytes} {s s' : ActivationLog} {op : Operation}
    (hs : Released s) (h : activationStep countBytes s op = some s') (honce : ActivatedOnce s') :
    ConnectsOnce s op := by
  cases op with
  | onlineUsers agentId users times =>
    cases h
    exact connectsOnce_of_activatedOnce hs honce
  | updateClient now id payload => cases h
  | trafficReport agentId users hour => trivial
  | periodicChecks resetsAt limitsAt holdsAt => trivial
  | resetTraffic now id => trivial

/-- **Which runs activate every client on hold exactly once**: those whose handlers come to
exactly one address of each client on hold that connects. -/
theorem activatedOnce_iff_guarded {countBytes : CountBytes} {db : Db} {ops : List Operation}
    (hrun : (Run.run (activationStep countBytes) ⟨db, [], []⟩ ops).isSome) :
    (∀ ops' s, ops' <+: ops → Run.run (activationStep countBytes) ⟨db, [], []⟩ ops' = some s →
        ActivatedOnce s) ↔
      Run.Guarded (activationStep countBytes) ConnectsOnce ⟨db, [], []⟩ ops := by
  have hstart : Released ⟨db, [], []⟩ :=
    ⟨⟨fun id hid => absurd hid List.not_mem_nil, fun _ _ => rfl⟩,
      fun id hid => absurd hid List.not_mem_nil⟩
  constructor
  · intro h
    exact Run.guarded_of_forall_prefix (I := Released) (P := ActivatedOnce)
      (fun s op s' hs hok hstep => released_step hs hok hstep)
      (fun s op s' hs hstep honce => connectsOnce_of_step hs hstep honce) hstart hrun h
  · rintro h ops' s ⟨rest, rfl⟩ hs
    exact (Run.inv_of_guarded (I := Released)
      (fun s op s' hs hok hstep => released_step hs hok hstep) hstart
      (Run.guarded_append h).1 hs).activated

/-! ### Two addresses of one client -/

namespace TwoAddresses

def client : Client :=
  { ManualReset.client with
    email := some "ida@example.com"
    status := "on_hold"
    onHoldExpireDurationSecs := some 3600 }

def db : Db where
  clients := .single client

/-- The clock moves on between two entries. -/
def times : OnlineTimes where
  now := ⟨2000000000, 0⟩
  timestamp := none
  entryAt := fun user => ⟨2000000000 + if user.1.ipAddress = "192.0.2.1" then 0 else 1, 0⟩

/-- The first connections of the client, from two addresses. -/
def first : List Operation :=
  [.onlineUsers (.ofNat 3) [(⟨client.id.toStr, "192.0.2.1", ""⟩, .ofNat 31),
    (⟨client.id.toStr, "192.0.2.2", ""⟩, .ofNat 32)] times]

/-- The first connection under two names, a check, and a second address later. -/
def later : List Operation :=
  [.onlineUsers (.ofNat 3) [(⟨client.id.toStr, "192.0.2.1", ""⟩, .ofNat 31),
      (⟨"ida@example.com", "192.0.2.1", ""⟩, .ofNat 32)] times,
    .periodicChecks times.now (fun _ => times.now) times.now,
    .onlineUsers (.ofNat 4) [(⟨client.id.toStr, "192.0.2.1", ""⟩, .ofNat 33),
      (⟨client.id.toStr, "192.0.2.2", ""⟩, .ofNat 34)] times]

theorem run_first : ∃ s,
    Run.run (activationStep ManualReset.countBytes) ⟨db, [], []⟩ first = some s ∧
      s.due = [client.id] ∧
      s.log = [⟨client.id, ⟨2000000000, 0⟩, some ⟨3602000000000, 0⟩⟩,
        ⟨client.id, ⟨2000000001, 0⟩, some ⟨3602000000001, 0⟩⟩] := by
  refine ⟨_, rfl, ?_, ?_⟩
  · decide
  · decide

/-- No report of `later` has two addresses of a client on hold. -/
theorem guarded_later :
    Run.Guarded (activationStep ManualReset.countBytes) ConnectsOnce ⟨db, [], []⟩ later ∧
      ∃ s, Run.run (activationStep ManualReset.countBytes) ⟨db, [], []⟩ later = some s := by
  have hchecked : Run.checked (activationStep ManualReset.countBytes)
      (fun s op => decide (ConnectsOnce s op)) ⟨db, [], []⟩ later = true := by decide
  exact Run.guarded_of_checked (I := fun _ => True) (fun s op _ h => of_decide_eq_true h)
    (fun _ _ _ _ _ _ => trivial) trivial hchecked

end TwoAddresses

/-- **A client on hold that connects from two addresses is activated twice.** -/
theorem two_addresses_activate_twice : ∃ s,
    Run.run (activationStep ManualReset.countBytes) ⟨TwoAddresses.db, [], []⟩
      TwoAddresses.first = some s ∧ ¬ ActivatedOnce s := by
  obtain ⟨s, hs, hdue, hlog⟩ := TwoAddresses.run_first
  refine ⟨s, hs, fun h => ?_⟩
  obtain ⟨a, ha, -⟩ := h.once TwoAddresses.client.id (hdue ▸ List.mem_singleton_self _)
  have hlen := congrArg List.length ha
  rw [hlog, List.length_singleton] at hlen
  exact absurd hlen (by decide)

theorem activatedOnce_iff_guarded_later : ∃ s,
    Run.run (activationStep ManualReset.countBytes) ⟨TwoAddresses.db, [], []⟩
      TwoAddresses.later = some s ∧ ActivatedOnce s := by
  obtain ⟨hguarded, s, hs⟩ := TwoAddresses.guarded_later
  exact ⟨s, hs, (activatedOnce_iff_guarded (by rw [hs]; rfl)).mpr hguarded _ s
    List.prefix_rfl hs⟩

end ProxyPanel.Hub
