import ProxyPanel.Hub.Clients
import ProxyPanel.Lib.Run

/-!
# Usage of a client over runs

`Operation` is everything that happens to the counters of a client.  A run keeps
an account beside the database: the bytes counted for the client while it was not
on hold.  `conserved_iff_guarded` says which runs keep the two counters equal to
that account.
-/

namespace ProxyPanel

namespace Hub

/-- What can happen to clients, each with the clock and the random ids it uses. -/
inductive Operation where
  | trafficReport (agentId : Uuid) (users : List (UserTraffic × Uuid)) (hour : DateTime)
  | periodicChecks (resetsAt : DateTime) (limitsAt : Client → DateTime) (holdsAt : DateTime)
  | resetTraffic (now : DateTime) (id : Uuid)
  | onlineUsers (agentId : Uuid) (users : List (OnlineUser × Uuid)) (times : OnlineTimes)
  | updateClient (now : DateTime) (id : Uuid) (payload : UpdateClientPayload)

/-- The database after an operation.  A refused request leaves it as it is. -/
def Operation.apply (countBytes : CountBytes) (db : Db) : Operation → Db
  | .trafficReport agentId users hour => handleTraffic countBytes db agentId users hour
  | .periodicChecks resetsAt limitsAt holdsAt => runPeriodicChecks resetsAt limitsAt holdsAt db
  | .resetTraffic now id => (resetClientTraffic now id db).toOption.getD db
  | .onlineUsers agentId users times => handleOnlineUsers db agentId users times
  | .updateClient now id payload => (Hub.updateClient now id payload db).toOption.getD db

/-- The entries of a report that stand for a client. -/
def mentions (db : Db) (id : Uuid) (users : List (UserTraffic × Uuid)) : List UserTraffic :=
  let resolved := resolveClientIds db (users.map (·.1.clientId))
  (users.map (·.1)).filter fun u => resolve resolved u.clientId = some id

/-- The rate-adjusted bytes of one entry. -/
def countedBytes (countBytes : CountBytes) (rate : BitVec 32) (user : UserTraffic) : Int :=
  countBytes rate user.uploadBytes + countBytes rate user.downloadBytes

/-- The bytes a report counts for a client. -/
def reported (countBytes : CountBytes) (db : Db) (id agentId : Uuid)
    (users : List (UserTraffic × Uuid)) : Int :=
  match db.clients.find id with
  | none => 0
  | some c => if c.status = "on_hold" then 0 else
      ((mentions db id users).map (countedBytes countBytes (nodeRate db agentId))).sum

/-- A database and the bytes counted for one client since its creation. -/
structure Account where
  db : Db
  counted : Int

/-- One operation.  A report that mentions the client twice is none. -/
def accountStep (countBytes : CountBytes) (id : Uuid) (s : Account) (op : Operation) :
    Option Account :=
  let db := op.apply countBytes s.db
  match op with
  | .trafficReport agentId users _ =>
    if (mentions s.db id users).length ≤ 1 then
      some ⟨db, s.counted + reported countBytes s.db id agentId users⟩
    else none
  | _ => some ⟨db, s.counted⟩

/-- **Both counters together are what was counted.** -/
def Conserved (id : Uuid) (s : Account) : Prop :=
  ∀ c, s.db.clients.find id = some c → c.allTimeUsedBytes + c.trafficUsedBytes = s.counted

/-- What an operation must meet: the 64-bit sums do not overflow, and an
administrator resets a client only when there is nothing to carry over. -/
def CarriesOver (countBytes : CountBytes) (id : Uuid) (s : Account) (op : Operation) : Prop :=
  ∀ c, s.db.clients.find id = some c →
    match op with
    | .trafficReport agentId users _ => c.status ≠ "on_hold" → mentions s.db id users ≠ [] →
        FitsI64 (c.trafficUsedBytes + reported countBytes s.db id agentId users)
    | .periodicChecks resetsAt _ _ => c.status = "active" ∨ c.status = "limited" →
        shouldReset resetsAt c = true → FitsI64 (c.allTimeUsedBytes + c.trafficUsedBytes)
    | .resetTraffic _ id' => id' = id → c.trafficUsedBytes = 0
    | _ => True

/-! ### What each handler does to one client -/

/-- The row of a client after one entry of a report. -/
def counted (countBytes : CountBytes) (rate : BitVec 32) (user : UserTraffic) (c : Client) :
    Client :=
  if c.status = "on_hold" then c
  else { c with trafficUsedBytes := addI64 (addI64 c.trafficUsedBytes
    (countBytes rate user.uploadBytes)) (countBytes rate user.downloadBytes) }

@[simp] theorem clients_upsertUsage (db : Db) (agentId clientId : Uuid) (hour : DateTime)
    (rate : BitVec 32) (upload download : Int) (newId : Uuid) :
    (upsertUsage db agentId clientId hour rate upload download newId).clients = db.clients := by
  rw [upsertUsage]
  split <;> rfl

theorem find_update_client {t : Table Client} {id : Uuid} {f : Client → Client}
    (hf : ∀ c, (f c).id = c.id) : (t.update id f).find id = (t.find id).map f :=
  Table.find_update_self hf

section Report

variable (countBytes : CountBytes) (clients : Table Client) (resolved : List (String × Uuid))
  (agentId : Uuid) (rate : BitVec 32) (hour : DateTime)

theorem find_handleUserTraffic_of_ne {id : Uuid} {user : UserTraffic × Uuid}
    (h : resolve resolved user.1.clientId ≠ some id) (db : Db) :
    (handleUserTraffic countBytes clients resolved agentId rate hour db user).clients.find id =
      db.clients.find id := by
  rw [handleUserTraffic]
  cases hr : resolve resolved user.1.clientId with
  | none => rfl
  | some clientId =>
    have hne : id ≠ clientId := fun he => h (he ▸ hr)
    simp only [countTraffic]
    cases hc : clients.find clientId with
    | none => simp only [clients_upsertUsage]
    | some c =>
      simp only
      split
      · rw [clients_upsertUsage]
      · have hid : c.id = clientId := Table.key_of_find hc
        simp only [clients_upsertUsage, hid]
        exact Table.find_update_of_ne hne _

/-- An entry for the client counts from the row that was read before the loop. -/
theorem find_handleUserTraffic_self {id : Uuid} {user : UserTraffic × Uuid}
    (h : resolve resolved user.1.clientId = some id) {db : Db}
    (hdb : db.clients.find id = clients.find id ∨
      ∃ v, db.clients.find id = (clients.find id).map (counted countBytes rate v)) :
    (handleUserTraffic countBytes clients resolved agentId rate hour db user).clients.find id =
      (clients.find id).map (counted countBytes rate user.1) := by
  rw [handleUserTraffic, h]
  simp only [countTraffic]
  cases hc : clients.find id with
  | none =>
    rw [hc] at hdb
    simp only [clients_upsertUsage]
    rcases hdb with hdb | ⟨v, hdb⟩
    · exact hdb
    · exact hdb
  | some c =>
    obtain rfl : c.id = id := Table.key_of_find hc
    rw [hc] at hdb
    simp only [counted, Option.map_some] at hdb ⊢
    split
    · rename_i hold
      simp only [hold, if_true] at hdb
      rw [clients_upsertUsage]
      rcases hdb with hdb | ⟨v, hdb⟩
      · exact hdb
      · exact hdb
    · rename_i hold
      simp only [hold, if_false] at hdb
      simp only [clients_upsertUsage]
      refine Eq.trans (find_update_client ?_) ?_
      · exact fun _ => rfl
      · rcases hdb with hdb | ⟨v, hdb⟩
        · rw [hdb]
          rfl
        · rw [hdb]
          rfl

/-- **The last entry for a client is the one that counts.** -/
theorem find_foldl_handleUserTraffic {id : Uuid} (users : List (UserTraffic × Uuid)) {db : Db}
    (hdb : db.clients.find id = clients.find id) :
    (users.foldl (handleUserTraffic countBytes clients resolved agentId rate hour)
      db).clients.find id =
      match ((users.map (·.1)).filter fun u => resolve resolved u.clientId = some id).getLast? with
      | none => clients.find id
      | some u => (clients.find id).map (counted countBytes rate u) := by
  induction users using List.reverseRecOn with
  | nil => exact hdb
  | append_singleton us u ih =>
    rw [List.foldl_append, List.foldl_cons, List.foldl_nil, List.map_append, List.filter_append]
    by_cases hu : resolve resolved u.1.clientId = some id
    · have hlast : ([u].map (·.1)).filter (fun u => resolve resolved u.clientId = some id) =
          [u.1] := by simp [hu]
      rw [hlast, List.getLast?_concat]
      refine find_handleUserTraffic_self countBytes clients resolved agentId rate hour hu ?_
      rw [ih]
      split
      · exact Or.inl rfl
      · exact Or.inr ⟨_, rfl⟩
    · have hlast : ([u].map (·.1)).filter (fun u => resolve resolved u.clientId = some id) =
          [] := by simp [hu]
      rw [hlast, List.append_nil, find_handleUserTraffic_of_ne _ _ _ _ _ _ hu, ih]

end Report

/-- The row of a client after a report: the last entry for it is added to the counter
as it was before the report. -/
theorem find_handleTraffic_last (countBytes : CountBytes) (db : Db) (id agentId : Uuid)
    (users : List (UserTraffic × Uuid)) (hour : DateTime) :
    (handleTraffic countBytes db agentId users hour).clients.find id =
      match (mentions db id users).getLast? with
      | none => db.clients.find id
      | some u => (db.clients.find id).map (counted countBytes (nodeRate db agentId) u) :=
  find_foldl_handleUserTraffic countBytes db.clients _ agentId _ hour users rfl

/-- What the counter of a client may be after a report with these entries for it. -/
def CountedBy (countBytes : CountBytes) (rate : BitVec 32) (entries : List UserTraffic)
    (c : Client) (used : Int) : Prop :=
  used = c.trafficUsedBytes ∨ ∃ user ∈ entries, c.status ≠ "on_hold" ∧
    used = addI64 (addI64 c.trafficUsedBytes (countBytes rate user.uploadBytes))
      (countBytes rate user.downloadBytes)

/-- Whatever a report says, it changes at most the counter of a client, to what one of
its entries makes of the row that was read before the loop. -/
theorem find_handleTraffic_of_find (countBytes : CountBytes) {db : Db} {id : Uuid}
    (agentId : Uuid) (users : List (UserTraffic × Uuid)) (hour : DateTime) {c : Client}
    (hc : db.clients.find id = some c) : ∃ used,
      (handleTraffic countBytes db agentId users hour).clients.find id =
        some { c with trafficUsedBytes := used } ∧
      CountedBy countBytes (nodeRate db agentId) (mentions db id users) c used := by
  rw [find_handleTraffic_last, hc]
  cases hlast : (mentions db id users).getLast? with
  | none => exact ⟨c.trafficUsedBytes, rfl, Or.inl rfl⟩
  | some u =>
    simp only [Option.map_some, counted]
    split
    · exact ⟨c.trafficUsedBytes, rfl, Or.inl rfl⟩
    · rename_i hold
      exact ⟨_, rfl, Or.inr ⟨u, List.mem_of_getLast? hlast, hold, rfl⟩⟩

theorem find_handleTraffic {countBytes : CountBytes} {db : Db} {id agentId : Uuid}
    {users : List (UserTraffic × Uuid)} {hour : DateTime}
    (hone : (mentions db id users).length ≤ 1) :
    (handleTraffic countBytes db agentId users hour).clients.find id =
      match mentions db id users with
      | [] => db.clients.find id
      | u :: _ => (db.clients.find id).map (counted countBytes (nodeRate db agentId) u) := by
  rw [find_handleTraffic_last]
  cases hm : mentions db id users with
  | nil => rfl
  | cons u us =>
    rw [hm, List.length_cons] at hone
    rw [List.length_eq_zero_iff.mp (by omega : us.length = 0)]
    rfl

/-- The counters of a client. -/
def counters (db : Db) (id : Uuid) : Option (Int × Int) :=
  (db.clients.find id).map fun c => (c.allTimeUsedBytes, c.trafficUsedBytes)

/-- Counters survive an update that does not touch them. -/
theorem counters_update (db : Db) (id id' : Uuid) {f : Client → Client}
    (hid : ∀ c, (f c).id = c.id)
    (hf : ∀ c, (f c).allTimeUsedBytes = c.allTimeUsedBytes ∧ (f c).trafficUsedBytes = c.trafficUsedBytes) :
    counters { db with clients := db.clients.update id' f } id = counters db id := by
  rw [counters, counters]
  by_cases h : id = id'
  · subst h
    change ((db.clients.update id f).find id).map _ = _
    rw [find_update_client hid, Option.map_map]
    refine congrArg (Option.map · _) (funext fun c => ?_)
    simp only [Function.comp, hf]
  · change ((db.clients.update id' f).find id).map _ = _
    rw [Table.find_update_of_ne h]

theorem counters_updateEach (db : Db) (id : Uuid) {p : Client → Bool}
    {f : Client → Client → Client} (hid : ∀ c r, (f c r).id = r.id)
    (hf : ∀ c r, (f c r).allTimeUsedBytes = r.allTimeUsedBytes ∧
      (f c r).trafficUsedBytes = r.trafficUsedBytes) :
    counters { db with clients := db.clients.updateEach (db.clients.filter p) f } id =
      counters db id := by
  have hnodup : ((db.clients.filter p).map key).Nodup :=
    db.clients.nodup.sublist (List.filter_sublist.map key)
  rw [counters, counters]
  change ((db.clients.updateEach (db.clients.filter p) f).find id).map _ = _
  rw [Table.find_updateEach hnodup hid]
  split
  · rw [Option.map_map]
    refine congrArg (Option.map · _) (funext fun c => ?_)
    simp only [Function.comp, hf]
  · rfl

theorem clients_upsertSession (db : Db) (sessions : List ClientOnlineSession)
    (agentId clientId : Uuid) (times : OnlineTimes) (user : OnlineUser × Uuid) :
    (upsertSession db sessions agentId clientId times user).1.clients = db.clients := by
  rw [upsertSession]
  split
  · rfl
  · split <;> rfl

theorem exists_upsertSession (db : Db) (sessions : List ClientOnlineSession)
    (agentId clientId : Uuid) (times : OnlineTimes) (user : OnlineUser × Uuid) :
    ∃ t, (upsertSession db sessions agentId clientId times user).1 =
      { db with clientOnlineSessions := t } := by
  rw [upsertSession]
  split
  · exact ⟨_, rfl⟩
  · split
    · exact ⟨_, rfl⟩
    · exact ⟨db.clientOnlineSessions, rfl⟩

theorem eq_of_expireDate {c : Client} {now : DateTime} {date : Option DateTime}
    (h : expireDate c now = some date) :
    date = c.onHoldExpireDurationSecs.map now.addSeconds := by
  rw [expireDate] at h
  cases hsecs : c.onHoldExpireDurationSecs with
  | none =>
    rw [hsecs] at h
    cases h
    rfl
  | some secs =>
    rw [hsecs] at h
    obtain ⟨sum, hsum, rfl⟩ := Option.map_eq_some_iff.mp h
    rw [Option.map_some, Calendar.eq_of_checkedAddSeconds hsum]

/-- What an activation that does not panic writes. -/
theorem activateOnHold_cases {db db' : Db} {prefetched : Option Client} {now : DateTime}
    (h : activateOnHold db prefetched now = some db') :
    db' = db ∨ ∃ c date, prefetched = some c ∧ c.status = "on_hold" ∧
      expireDate c now = some date ∧ db' = { db with clients := db.clients.update c.id fun r =>
        { r with status := "active", expiryDate := date, updatedAt := now } } := by
  cases prefetched with
  | none =>
    cases h
    exact Or.inl rfl
  | some c =>
    rw [activateOnHold] at h
    split at h
    · rename_i hhold
      obtain ⟨date, hdate, rfl⟩ := Option.map_eq_some_iff.mp h
      exact Or.inr ⟨c, date, rfl, hhold, hdate, rfl⟩
    · cases h
      exact Or.inl rfl

theorem foldl_handleOnlineUser_of_panicked {clients : Table Client}
    {sessions : List ClientOnlineSession} {resolved : List (String × Uuid)} {agentId : Uuid}
    {times : OnlineTimes} {s : OnlineLoop} (h : s.panicked = true)
    (users : List (OnlineUser × Uuid)) :
    users.foldl (handleOnlineUser clients sessions resolved agentId times) s = s := by
  induction users with
  | nil => rfl
  | cons user users ih => rw [List.foldl_cons, handleOnlineUser, if_pos h, ih]

/-- **What activations keep and the sessions do not matter for, an online report keeps**, also
one whose handler panics. -/
theorem keeps_handleOnlineUsers {P : Db → Prop} {db : Db} (agentId : Uuid)
    {users : List (OnlineUser × Uuid)} {times : OnlineTimes}
    (hsessions : ∀ d t, P d → P { d with clientOnlineSessions := t })
    (hactivate : ∀ d d' clientId, ∀ user ∈ users, P d →
      activateOnHold d (db.clients.find clientId) (times.entryAt user) = some d' → P d')
    (hdb : P db) : P (handleOnlineUsers db agentId users times) := by
  have hloop : ∀ (us : List (OnlineUser × Uuid)) (s : OnlineLoop), us ⊆ users → P s.db →
      P (us.foldl (handleOnlineUser db.clients
        (db.clientOnlineSessions.filter (·.nodeId = agentId))
        (resolveClientIds db (users.map (·.1.clientId))) agentId times) s).db := by
    intro us
    induction us with
    | nil => exact fun s _ hs => hs
    | cons u us ih =>
      intro s hsub hs
      rw [List.foldl_cons]
      refine ih _ (fun v hv => hsub (List.mem_cons_of_mem u hv)) ?_
      rw [handleOnlineUser]
      split
      · exact hs
      · split
        · exact hs
        · split
          · exact hs
          · split
            · exact hs
            · rename_i clientId _ _ _ d hd
              obtain ⟨t, ht⟩ := exists_upsertSession d
                (db.clientOnlineSessions.filter (·.nodeId = agentId)) agentId clientId times u
              simp only
              rw [ht]
              exact hsessions d t (hactivate s.db d clientId u (hsub List.mem_cons_self) hs hd)
  have hend := hloop users (OnlineLoop.start db) (List.Subset.refl users) hdb
  rw [handleOnlineUsers]
  split
  · exact hend
  · exact hsessions _ _ hend

theorem counters_handleOnlineUsers (db : Db) (id agentId : Uuid)
    (users : List (OnlineUser × Uuid)) (times : OnlineTimes) :
    counters (handleOnlineUsers db agentId users times) id = counters db id := by
  refine @keeps_handleOnlineUsers (fun d => counters d id = counters db id) db agentId users times
    (fun d t hd => hd) (fun d d' clientId user _ hd hd' => ?_) rfl
  rcases activateOnHold_cases hd' with rfl | ⟨c, date, -, -, -, rfl⟩
  · exact hd
  · refine Eq.trans ?_ hd
    exact counters_update d id c.id (fun _ => rfl) (fun _ => ⟨rfl, rfl⟩)

/-- A client on hold that connects. -/
def activatedRow (now : DateTime) (c : Client) : Client :=
  { c with
    status := "active"
    expiryDate := c.onHoldExpireDurationSecs.map now.addSeconds
    updatedAt := now }

/-- An online report activates a client on hold and leaves every other one alone. -/
theorem find_handleOnlineUsers_of_find {db : Db} {id : Uuid} (agentId : Uuid)
    (users : List (OnlineUser × Uuid)) (times : OnlineTimes) {c : Client}
    (hc : db.clients.find id = some c) : ∃ c',
      (handleOnlineUsers db agentId users times).clients.find id = some c' ∧
        (c' = c ∨ c.status = "on_hold" ∧ ∃ now, c' = activatedRow now c) := by
  refine @keeps_handleOnlineUsers (fun d => ∃ c', d.clients.find id = some c' ∧
    (c' = c ∨ c.status = "on_hold" ∧ ∃ now, c' = activatedRow now c)) db agentId users times
    (fun d t hd => hd) (fun d d' clientId user _ hd hd' => ?_) ⟨c, hc, Or.inl rfl⟩
  rcases activateOnHold_cases hd' with rfl | ⟨p, date, hp, hhold, hdate, rfl⟩
  · exact hd
  · obtain ⟨c', hc', hrow⟩ := hd
    by_cases hid : id = p.id
    · have hpid : p.id = clientId := Table.key_of_find hp
      rw [← hpid, ← hid] at hp
      cases hc.symm.trans hp
      refine ⟨activatedRow (times.entryAt user) c, ?_, Or.inr ⟨hhold, times.entryAt user, rfl⟩⟩
      rw [hid]
      refine Eq.trans (find_update_client ?_) ?_
      · exact fun _ => rfl
      · rw [← hid, hc', eq_of_expireDate hdate]
        rcases hrow with rfl | ⟨-, -, rfl⟩ <;> rfl
    · exact ⟨c', (Table.find_update_of_ne hid _).trans hc', hrow⟩

/-- An update is of one row, unless its name is refused. -/
theorem find_updateClient (db : Db) (id id' : Uuid) (now : DateTime)
    (payload : UpdateClientPayload) :
    ((updateClient now id' payload db).toOption.getD db).clients.find id =
      (db.clients.find id).map fun c =>
        if id' = id ∧ payload.name.any (Text.trim · = "") = false then payload.apply now c
        else c := by
  have hrow : (db.clients.update id' (payload.apply now)).find id =
      (db.clients.find id).map fun c => if id' = id then payload.apply now c else c := by
    by_cases h : id' = id
    · subst h
      simp only [if_true]
      exact find_update_client (fun _ => rfl)
    · simp only [h, if_false, Option.map_id']
      exact Table.find_update_of_ne (Ne.symm h) _
  rw [updateClient]
  cases hc : db.clients.find id' with
  | none =>
    simp only [Except.toOption, Option.getD_none]
    by_cases h : id' = id
    · rw [← h, hc]
      rfl
    · simp only [h, false_and, if_false, Option.map_id']
  | some c =>
    simp only
    cases hname : payload.name.any (Text.trim · = "") with
    | true =>
      simp only [if_true, Except.toOption, Option.getD_none, Bool.true_eq_false, and_false,
        if_false, Option.map_id']
    | false =>
      simp only [Bool.false_eq_true, if_false, Except.toOption, Option.getD_some, and_true]
      split
      · exact hrow
      · exact hrow

theorem counters_checkClientLimits (db : Db) (id : Uuid) (now : Client → DateTime) :
    counters (checkClientLimits now db) id = counters db id :=
  counters_updateEach db id (fun _ _ => rfl) (fun _ _ => ⟨rfl, rfl⟩)

theorem counters_checkOnHoldTimeouts (db : Db) (id : Uuid) (now : DateTime) :
    counters (checkOnHoldTimeouts now db) id = counters db id :=
  counters_updateEach db id (fun c r => by split <;> rfl) (fun c r => by split <;> exact ⟨rfl, rfl⟩)

/-- The periodic reset moves the period counter to the other one. -/
theorem find_checkClientTrafficResets (db : Db) (id : Uuid) (now : DateTime) :
    (checkClientTrafficResets now db).clients.find id = (db.clients.find id).map fun c =>
      if (c.status = "active" ∨ c.status = "limited") ∧ shouldReset now c = true then
        resetPeriod now c c else c := by
  have hid : ∀ c r : Client, key (if shouldReset now c then resetPeriod now c r else r) = key r :=
    fun c r => by split <;> rfl
  refine (Table.find_updateEach_filter hid id).trans ?_
  refine congrArg (Option.map · _) (funext fun c => ?_)
  by_cases hstatus : c.status = "active" ∨ c.status = "limited"
  · simp only [hstatus, decide_true, if_true, true_and]
  · simp only [hstatus, decide_false, Bool.false_eq_true, if_false, false_and]

theorem counters_runPeriodicChecks (db : Db) (id : Uuid) (resetsAt : DateTime)
    (limitsAt : Client → DateTime) (holdsAt : DateTime) :
    counters (runPeriodicChecks resetsAt limitsAt holdsAt db) id =
      counters (checkClientTrafficResets resetsAt db) id := by
  rw [runPeriodicChecks, counters_checkOnHoldTimeouts, counters_checkClientLimits]

theorem counters_updateClient (db : Db) (id id' : Uuid) (now : DateTime)
    (payload : UpdateClientPayload) :
    counters ((updateClient now id' payload db).toOption.getD db) id = counters db id := by
  have hrow : counters { db with clients := db.clients.update id' (payload.apply now) } id =
      counters db id := counters_update db id id' (fun _ => rfl) (fun _ => ⟨rfl, rfl⟩)
  rw [updateClient]
  split
  · rfl
  · split
    · rfl
    · simp only [Except.toOption, Option.getD_some]
      split
      · exact hrow
      · exact hrow

theorem find_resetClientTraffic (db : Db) (id id' : Uuid) (now : DateTime) :
    (((resetClientTraffic now id' db).toOption.getD db).clients.find id) =
      (db.clients.find id).map fun c => if id' = id then
        { c with trafficUsedBytes := 0, lastTrafficResetTime := some now, updatedAt := now }
        else c := by
  rw [resetClientTraffic]
  by_cases h : id' = id
  · subst h
    cases hc : db.clients.find id' with
    | none => exact hc
    | some c =>
      simp only [Except.toOption, Option.getD_some, Option.map_some, if_true]
      refine Eq.trans (find_update_client ?_) ?_
      · exact fun _ => rfl
      · rw [hc]
        rfl
  · cases hc : db.clients.find id' with
    | none => simp [Except.toOption, h]
    | some c =>
      simp only [Except.toOption, Option.getD_some, h, if_false, Option.map_id']
      exact Table.find_update_of_ne (Ne.symm h) _

/-! ### Conservation -/

/-- The property, about the counters alone. -/
theorem conserved_iff (id : Uuid) (s : Account) :
    Conserved id s ↔ ∀ p, counters s.db id = some p → p.1 + p.2 = s.counted := by
  rw [Conserved, counters]
  cases s.db.clients.find id with
  | none => exact iff_of_true (fun c hc => nomatch hc) (fun p hp => nomatch hp)
  | some c => simp

theorem conserved_congr {id : Uuid} {s s' : Account} (hcounters : counters s'.db id = counters s.db id)
    (hcounted : s'.counted = s.counted) : Conserved id s' ↔ Conserved id s := by
  rw [conserved_iff, conserved_iff, hcounters, hcounted]

theorem conserved_trafficReport {countBytes : CountBytes} {id agentId : Uuid} {s : Account}
    {users : List (UserTraffic × Uuid)} {hour : DateTime} (hs : Conserved id s)
    (hone : (mentions s.db id users).length ≤ 1) :
    Conserved id ⟨handleTraffic countBytes s.db agentId users hour,
        s.counted + reported countBytes s.db id agentId users⟩ ↔
      CarriesOver countBytes id s (.trafficReport agentId users hour) := by
  rw [Conserved, CarriesOver]
  simp only [find_handleTraffic hone, reported]
  cases hc : s.db.clients.find id with
  | none =>
    refine iff_of_true (fun c hc' => ?_) (fun c hc' => by cases hc')
    revert hc'
    split <;> exact fun h => by cases h
  | some c =>
    have hsum := hs c hc
    cases hm : mentions s.db id users with
    | nil => simpa using hsum
    | cons u us =>
      have hus : us = [] := by
        rw [hm, List.length_cons] at hone
        exact List.length_eq_zero_iff.mp (by omega)
      subst hus
      simp only [Option.map_some, Option.some.injEq, forall_eq', counted]
      by_cases hold : c.status = "on_hold"
      · simp [hold, hsum]
      · simp only [hold, if_false, List.map_cons, List.map_nil, List.sum_cons, List.sum_nil,
          countedBytes, addI64_addI64, not_false_eq_true, ne_eq, List.cons_ne_nil, forall_const,
          Int.add_zero]
        rw [← bmod_eq_self_iff, ← hsum, Int.add_assoc c.allTimeUsedBytes, Int.add_assoc
          c.trafficUsedBytes]
        exact ⟨fun h => Int.add_left_cancel h, fun h => congrArg _ h⟩

theorem conserved_periodicChecks {countBytes : CountBytes} {id : Uuid} {s : Account}
    (hs : Conserved id s) (resetsAt : DateTime) (limitsAt : Client → DateTime)
    (holdsAt : DateTime) :
    Conserved id ⟨runPeriodicChecks resetsAt limitsAt holdsAt s.db, s.counted⟩ ↔
      CarriesOver countBytes id s (.periodicChecks resetsAt limitsAt holdsAt) := by
  have hcounters : Conserved id ⟨runPeriodicChecks resetsAt limitsAt holdsAt s.db, s.counted⟩ ↔
      Conserved id ⟨checkClientTrafficResets resetsAt s.db, s.counted⟩ :=
    conserved_congr (counters_runPeriodicChecks s.db id resetsAt limitsAt holdsAt) rfl
  rw [hcounters, Conserved, CarriesOver]
  simp only [find_checkClientTrafficResets]
  cases hc : s.db.clients.find id with
  | none => exact iff_of_true (fun c hc' => by cases hc') (fun c hc' => by cases hc')
  | some c =>
    have hsum := hs c hc
    simp only [Option.map_some, Option.some.injEq, forall_eq']
    by_cases hdue : (c.status = "active" ∨ c.status = "limited") ∧ shouldReset resetsAt c = true
    · rw [if_pos hdue]
      simp only [hdue.1, hdue.2, resetPeriod, Int.add_zero, ← hsum, forall_const]
      exact addI64_eq_iff
    · rw [if_neg hdue]
      exact iff_of_true hsum (fun hstatus hreset => absurd ⟨hstatus, hreset⟩ hdue)

theorem conserved_resetTraffic {countBytes : CountBytes} {id : Uuid} {s : Account}
    (hs : Conserved id s) (now : DateTime) (id' : Uuid) :
    Conserved id ⟨(resetClientTraffic now id' s.db).toOption.getD s.db, s.counted⟩ ↔
      CarriesOver countBytes id s (.resetTraffic now id') := by
  rw [Conserved, CarriesOver]
  simp only [find_resetClientTraffic]
  cases hc : s.db.clients.find id with
  | none => exact iff_of_true (fun c hc' => by cases hc') (fun c hc' => by cases hc')
  | some c =>
    have hsum := hs c hc
    simp only [Option.map_some, Option.some.injEq, forall_eq']
    by_cases h : id' = id
    · rw [if_pos h]
      simp only [h, forall_const, ← hsum]
      omega
    · rw [if_neg h]
      exact iff_of_true hsum (fun he => absurd he h)

/-- One operation conserves the usage if and only if it carries over. -/
theorem conserved_step {countBytes : CountBytes} {id : Uuid} {s s' : Account} {op : Operation}
    (hs : Conserved id s) (h : accountStep countBytes id s op = some s') :
    Conserved id s' ↔ CarriesOver countBytes id s op := by
  cases op with
  | trafficReport agentId users hour =>
    simp only [accountStep] at h
    split at h
    · rename_i hone
      cases h
      exact conserved_trafficReport hs hone
    · cases h
  | periodicChecks resetsAt limitsAt holdsAt =>
    cases h
    exact conserved_periodicChecks hs resetsAt limitsAt holdsAt
  | resetTraffic now id' =>
    cases h
    exact conserved_resetTraffic hs now id'
  | onlineUsers agentId users times =>
    cases h
    have hkeep : Conserved id ⟨handleOnlineUsers s.db agentId users times, s.counted⟩ ↔
        Conserved id s := conserved_congr (counters_handleOnlineUsers s.db id agentId users times) rfl
    exact iff_of_true (hkeep.mpr hs) (fun _ _ => trivial)
  | updateClient now id' payload =>
    cases h
    have hkeep : Conserved id ⟨(updateClient now id' payload s.db).toOption.getD s.db, s.counted⟩ ↔
        Conserved id s := conserved_congr (counters_updateClient s.db id id' now payload) rfl
    exact iff_of_true (hkeep.mpr hs) (fun _ _ => trivial)

/-- **Usage over runs.**  From the creation of a client on, the two counters equal
the counted bytes at every point of a run if and only if every operation of the
run carries over what it resets. -/
theorem conserved_iff_guarded {countBytes : CountBytes} {id : Uuid} {db : Db} {c : Client}
    {ops : List Operation} (hc : db.clients.find id = some c)
    (hnew : c.allTimeUsedBytes = 0 ∧ c.trafficUsedBytes = 0)
    (hrun : (Run.run (accountStep countBytes id) ⟨db, 0⟩ ops).isSome) :
    (∀ ops' s, ops' <+: ops → Run.run (accountStep countBytes id) ⟨db, 0⟩ ops' = some s →
        Conserved id s) ↔
      Run.Guarded (accountStep countBytes id) (CarriesOver countBytes id) ⟨db, 0⟩ ops := by
  have hstart : Conserved id ⟨db, 0⟩ := by
    intro c' hc'
    cases hc.symm.trans hc'
    rw [hnew.1, hnew.2]
    rfl
  exact Run.forall_prefix_iff_guarded (fun s op s' hs h => conserved_step hs h) hstart hrun

/-! ### A manual reset -/

namespace ManualReset

def client : Client where
  id := .ofNat 1
  userId := .ofNat 2
  name := "erin"
  email := some "erin@example.com"
  trafficLimitBytes := 0
  trafficUsedBytes := 0
  allTimeUsedBytes := 0
  expiryDate := none
  resetDay := none
  dataLimitResetStrategy := "monthly"
  lastTrafficResetTime := none
  maxDevices := none
  status := "active"
  onHoldExpireDurationSecs := none
  onHoldTimeout := none
  updatedAt := default

def db : Db where
  clients := .single client

/-- At rate `1.0` small byte counts are counted as they are. -/
def countBytes : CountBytes := fun _ bytes => bytes

/-- The client's first report and then a reset by an administrator. -/
def ops : List Operation :=
  [.trafficReport (.ofNat 3) [(⟨"erin@example.com", 10, 20⟩, .ofNat 4)] default,
    .resetTraffic default client.id]

theorem run_ops : ∃ s, Run.run (accountStep countBytes client.id) ⟨db, 0⟩ ops = some s ∧
    counters s.db client.id = some (0, 0) ∧ s.counted = 30 := by
  refine ⟨_, rfl, ?_, ?_⟩
  · decide
  · decide

end ManualReset

/-- **A reset by an administrator loses the bytes of the period.** -/
theorem manual_reset_not_conserved : ∃ s,
    Run.run (accountStep ManualReset.countBytes ManualReset.client.id) ⟨ManualReset.db, 0⟩
      ManualReset.ops = some s ∧ ¬ Conserved ManualReset.client.id s := by
  obtain ⟨s, hs, hcounters, hcounted⟩ := ManualReset.run_ops
  refine ⟨s, hs, fun h => ?_⟩
  have hsum := (conserved_iff _ s).mp h _ hcounters
  rw [hcounted] at hsum
  exact absurd hsum (by decide)

theorem conserved_iff_guarded_manual_reset :
    (∀ ops' s, ops' <+: ManualReset.ops →
      Run.run (accountStep ManualReset.countBytes ManualReset.client.id) ⟨ManualReset.db, 0⟩ ops' =
        some s → Conserved ManualReset.client.id s) ↔
      Run.Guarded (accountStep ManualReset.countBytes ManualReset.client.id)
        (CarriesOver ManualReset.countBytes ManualReset.client.id) ⟨ManualReset.db, 0⟩
        ManualReset.ops := by
  obtain ⟨s, hs, _⟩ := ManualReset.run_ops
  have hclient : ManualReset.db.clients.find ManualReset.client.id = some ManualReset.client :=
    Table.find_eq_some_iff.mpr ⟨List.mem_singleton_self _, rfl⟩
  exact conserved_iff_guarded hclient ⟨rfl, rfl⟩ (by rw [hs]; rfl)

end Hub

end ProxyPanel
