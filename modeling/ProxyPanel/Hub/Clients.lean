import ProxyPanel.Db.Entities
import ProxyPanel.Common.Protocol
import ProxyPanel.Lib.Calendar
import ProxyPanel.Lib.Text

/-!
# What changes a client

The handlers that write the `clients` table: traffic reports, the periodic checks,
the manual reset, the activation of clients on hold and updates.  Byte counts are
64-bit, `addI64` wraps.  Every database statement succeeds; UUIDs that the code
draws at random are parameters.
-/

namespace ProxyPanel

/-! ### 64-bit arithmetic -/

/-- Addition of two `i64` in a release build. -/
def addI64 (a b : Int) : Int := (a + b).bmod (2 ^ 64)

def FitsI64 (x : Int) : Prop := -2 ^ 63 ≤ x ∧ x < 2 ^ 63

theorem bmod_eq_self_iff {x : Int} : x.bmod (2 ^ 64) = x ↔ FitsI64 x := by
  rw [Int.bmod_eq_iff (by decide), Int.sub_self, FitsI64]
  constructor
  · rintro ⟨hlo, hhi, -⟩
    exact ⟨by omega, by omega⟩
  · rintro ⟨hlo, hhi⟩
    exact ⟨by omega, by omega, Int.dvd_zero _⟩

theorem addI64_eq_iff {a b : Int} : addI64 a b = a + b ↔ FitsI64 (a + b) := bmod_eq_self_iff

theorem addI64_addI64 (a b c : Int) : addI64 (addI64 a b) c = (a + b + c).bmod (2 ^ 64) := by
  rw [addI64, addI64, Int.bmod_add_bmod]

theorem foldl_addI64 {v : Int} (vs : List Int) (hv : v.bmod (2 ^ 64) = v) :
    vs.foldl addI64 v = (v + vs.sum).bmod (2 ^ 64) := by
  induction vs generalizing v with
  | nil => rw [List.foldl_nil, List.sum_nil, Int.add_zero, hv]
  | cons w ws ih =>
    rw [List.foldl_cons, ih (by rw [addI64, Int.bmod_bmod]), addI64, Int.bmod_add_bmod,
      List.sum_cons, Int.add_assoc]

namespace Hub

/-! ### Reports of an agent -/

/-- The traffic of one user in a report. -/
structure UserTraffic where
  clientId : String
  uploadBytes : Int
  downloadBytes : Int

/-- A user that is online. -/
structure OnlineUser where
  clientId : String
  ipAddress : String
  inboundTag : String
  deriving DecidableEq

/-- The times of an online report: when its handler starts, when it was made, and the clock
when the loop is at an entry. -/
structure OnlineTimes where
  now : DateTime
  timestamp : Option DateTime
  entryAt : OnlineUser × Uuid → DateTime

/-- A handler during which the clock does not move. -/
def OnlineTimes.still (now : DateTime) : OnlineTimes := ⟨now, none, fun _ => now⟩

/-- The map from reported identifiers to clients: UUIDs as they are, anything else
by email.  A later entry replaces an earlier one of the same key. -/
def resolveClientIds (db : Db) (raws : List String) : List (String × Uuid) :=
  let parsed := raws.filterMap fun raw => (Uuid.parse raw).map fun id => (raw, id)
  let emails := raws.filter fun raw => (Uuid.parse raw).isNone
  let byEmail := (db.clients.filter fun c => c.email.any (· ∈ emails)).filterMap fun c =>
    c.email.map fun email => (email, c.id)
  parsed ++ byEmail

/-- The client an identifier stands for in a report. -/
def resolve (resolved : List (String × Uuid)) (raw : String) : Option Uuid :=
  resolved.reverse.lookup raw

/-- How a byte count is multiplied by the rate of a node (32-bit floats). -/
abbrev CountBytes := BitVec 32 → Int → Int

/-- The usage coefficient of a node; `1.0` when there is no row. -/
def nodeRate (db : Db) (agentId : Uuid) : BitVec 32 :=
  ((db.nodes.find agentId).map (·.usageCoefficient)).getD 0x3f800000

/-- The hourly record of a client on a node, written or added to. -/
def upsertUsage (db : Db) (agentId clientId : Uuid) (hour : DateTime) (rate : BitVec 32)
    (upload download : Int) (newId : Uuid) : Db :=
  match db.nodeUserUsageRecords.one fun r =>
    r.nodeId = agentId ∧ r.clientId = clientId ∧ r.hourBucket = hour with
  | some record =>
    let records := db.nodeUserUsageRecords.update record.id fun r => { r with
      uploadBytes := addI64 record.uploadBytes upload
      downloadBytes := addI64 record.downloadBytes download }
    { db with nodeUserUsageRecords := records }
  | none =>
    let record := { id := newId, nodeId := agentId, clientId, hourBucket := hour,
                    uploadBytes := upload, downloadBytes := download, rate }
    let records := (db.nodeUserUsageRecords.insert record).getD db.nodeUserUsageRecords
    { db with nodeUserUsageRecords := records }

/-- The counters of a client after a report; a client on hold is skipped. -/
def countTraffic (db : Db) (prefetched : Option Client) (upload download : Int) : Db :=
  match prefetched with
  | none => db
  | some c =>
    if c.status = "on_hold" then db
    else { db with clients := db.clients.update c.id fun r =>
      { r with trafficUsedBytes := addI64 (addI64 c.trafficUsedBytes upload) download } }

/-- One user of a report.  The clients were read once, before the loop. -/
def handleUserTraffic (countBytes : CountBytes) (clients : Table Client)
    (resolved : List (String × Uuid)) (agentId : Uuid) (rate : BitVec 32) (hour : DateTime)
    (db : Db) (user : UserTraffic × Uuid) : Db :=
  match resolve resolved user.1.clientId with
  | none => db
  | some clientId =>
    let countedUpload := countBytes rate user.1.uploadBytes
    let countedDownload := countBytes rate user.1.downloadBytes
    countTraffic (upsertUsage db agentId clientId hour rate countedUpload countedDownload user.2)
      (clients.find clientId) countedUpload countedDownload

/-- The users of a traffic report, each with the id its usage record would get. -/
def handleTraffic (countBytes : CountBytes) (db : Db) (agentId : Uuid)
    (users : List (UserTraffic × Uuid)) (hour : DateTime) : Db :=
  let resolved := resolveClientIds db (users.map (·.1.clientId))
  users.foldl (handleUserTraffic countBytes db.clients resolved agentId (nodeRate db agentId) hour) db

/-- The expiry date of a client on hold that is activated; none is left when the duration is out
of range, where the addition panics. -/
def expireDate (c : Client) (now : DateTime) : Option (Option DateTime) :=
  match c.onHoldExpireDurationSecs with
  | none => some none
  | some secs => (Calendar.checkedAddSeconds now secs).map some

/-- The activation of a client on hold at its first connection; none when it panics. -/
def activateOnHold (db : Db) (prefetched : Option Client) (now : DateTime) : Option Db :=
  match prefetched with
  | none => some db
  | some c =>
    if c.status = "on_hold" then
      (expireDate c now).map fun date =>
        { db with clients := db.clients.update c.id fun r => { r with
            status := "active"
            expiryDate := date
            updatedAt := now } }
    else some db

/-- The row of a connection that is new. -/
def newSession (agentId clientId : Uuid) (times : OnlineTimes) (user : OnlineUser × Uuid) :
    ClientOnlineSession where
  id := user.2
  clientId := clientId
  nodeId := agentId
  ipAddress := user.1.ipAddress
  inboundTag := if user.1.inboundTag = "" then none else some user.1.inboundTag
  connectedAt := times.timestamp.getD (times.entryAt user)
  lastActiveAt := times.now

/-- The session of one connection: refreshed when it is known, inserted otherwise.  Of two
sessions for one connection the map keeps the last. -/
def upsertSession (db : Db) (sessions : List ClientOnlineSession) (agentId clientId : Uuid)
    (times : OnlineTimes) (user : OnlineUser × Uuid) : Db × Option Uuid :=
  match sessions.reverse.find? fun s => s.clientId = clientId ∧ s.ipAddress = user.1.ipAddress with
  | some session =>
    let sessions := db.clientOnlineSessions.update session.id fun r =>
      { r with lastActiveAt := times.now }
    ({ db with clientOnlineSessions := sessions }, some session.id)
  | none =>
    match db.clientOnlineSessions.insert (newSession agentId clientId times user) with
    | some sessions => ({ db with clientOnlineSessions := sessions }, some user.2)
    | none => (db, none)

/-- The loop over the users of an online report: the database, the connections
met so far, the sessions to keep, and whether an activation has panicked. -/
structure OnlineLoop where
  db : Db
  reported : List (Uuid × String)
  kept : List Uuid
  panicked : Bool

-- Named: every definition that looks a connection up uses this one.
instance : LawfulBEq (Uuid × String) := inferInstance

def OnlineLoop.start (db : Db) : OnlineLoop := ⟨db, [], [], false⟩

/-- One user.  After a panic there is no loop any more. -/
def handleOnlineUser (clients : Table Client) (sessions : List ClientOnlineSession)
    (resolved : List (String × Uuid)) (agentId : Uuid) (times : OnlineTimes) (s : OnlineLoop)
    (user : OnlineUser × Uuid) : OnlineLoop :=
  if s.panicked then s
  else
    match resolve resolved user.1.clientId with
    | none => s
    | some clientId =>
      if (clientId, user.1.ipAddress) ∈ s.reported then s
      else
        let reported := (clientId, user.1.ipAddress) :: s.reported
        match activateOnHold s.db (clients.find clientId) (times.entryAt user) with
        | none => ⟨s.db, reported, s.kept, true⟩
        | some db =>
          let (db, kept) := upsertSession db sessions agentId clientId times user
          ⟨db, reported, kept.toList ++ s.kept, false⟩

def onlineLoop (db : Db) (agentId : Uuid) (users : List (OnlineUser × Uuid))
    (times : OnlineTimes) : OnlineLoop :=
  let sessions := db.clientOnlineSessions.filter (·.nodeId = agentId)
  let resolved := resolveClientIds db (users.map (·.1.clientId))
  users.foldl (handleOnlineUser db.clients sessions resolved agentId times) (OnlineLoop.start db)

/-- The users that are online on a node.  Sessions that are not reported go, unless the loop
has panicked. -/
def handleOnlineUsers (db : Db) (agentId : Uuid) (users : List (OnlineUser × Uuid))
    (times : OnlineTimes) : Db :=
  let s := onlineLoop db agentId users times
  if s.panicked then s.db
  else
    { s.db with clientOnlineSessions := s.db.clientOnlineSessions.deleteWhere fun session =>
        session.nodeId = agentId ∧ session.id ∉ s.kept }

/-! ### Periodic checks -/

/-- Whether the period counter of a client is due, by its reset strategy. -/
def shouldReset (now : DateTime) (c : Client) : Bool :=
  let changed := fun (period : Int → Int × Int) =>
    match c.lastTrafficResetTime with
    | some t => period t.dateNaive ≠ period now.dateNaive
    | none => true
  if c.dataLimitResetStrategy = "daily" then changed fun date => (date, 0)
  else if c.dataLimitResetStrategy = "weekly" then changed Calendar.isoWeek
  else if c.dataLimitResetStrategy = "monthly" then changed Calendar.civil
  else if c.dataLimitResetStrategy = "yearly" then changed fun date => (Calendar.year date, 0)
  else false

/-- The row of a client whose period starts over. -/
def resetPeriod (now : DateTime) (c r : Client) : Client :=
  { r with
    allTimeUsedBytes := addI64 c.allTimeUsedBytes c.trafficUsedBytes
    trafficUsedBytes := 0
    lastTrafficResetTime := some now
    status := if c.status = "limited" then "active" else r.status }

def checkClientTrafficResets (now : DateTime) (db : Db) : Db :=
  let clients := db.clients.filter fun c => c.status = "active" ∨ c.status = "limited"
  { db with clients := db.clients.updateEach clients fun c r =>
      if shouldReset now c then resetPeriod now c r else r }

/-- The status a client gets from its expiry date and its limit.  `now` is the
clock when the client is looked at. -/
def limitedStatus (now : DateTime) (c : Client) : Option String :=
  if c.expiryDate.any (·.before now) then some "expired"
  else if 0 < c.trafficLimitBytes ∧ c.trafficLimitBytes ≤ c.trafficUsedBytes then some "limited"
  else none

def checkClientLimits (now : Client → DateTime) (db : Db) : Db :=
  let clients := db.clients.filter fun c => c.status = "active"
  { db with clients := db.clients.updateEach clients fun c r =>
      { r with status := (limitedStatus (now c) c).getD r.status } }

def checkOnHoldTimeouts (now : DateTime) (db : Db) : Db :=
  let clients := db.clients.filter fun c => c.status = "on_hold"
  { db with clients := db.clients.updateEach clients fun c r =>
      if c.onHoldTimeout.any (·.before now) then { r with status := "expired" } else r }

/-- The checks of clients that `run_periodic_checks` makes, each at its own time. -/
def runPeriodicChecks (resetsAt : DateTime) (limitsAt : Client → DateTime) (holdsAt : DateTime)
    (db : Db) : Db :=
  checkOnHoldTimeouts holdsAt (checkClientLimits limitsAt (checkClientTrafficResets resetsAt db))

/-! ### Requests of an administrator -/

def resetClientTraffic (now : DateTime) (id : Uuid) (db : Db) : ApiResult Db :=
  match db.clients.find id with
  | none => .error (.notFound "client not found")
  | some _ => .ok { db with clients := db.clients.update id fun r =>
      { r with trafficUsedBytes := 0, lastTrafficResetTime := some now, updatedAt := now } }

structure CreateClientPayload where
  name : String
  userId : Option Uuid
  email : Option String
  trafficLimitBytes : Option Int
  expiryDate : Option DateTime
  resetDay : Option Int
  dataLimitResetStrategy : Option String
  maxDevices : Option Int
  /-- Each group with the id of its new link. -/
  groupIds : Option (List (Uuid × Uuid))
  onHoldExpireDurationSecs : Option Int
  onHoldTimeout : Option DateTime

/-- The row of a new client: on hold when it has a duration and no expiry date. -/
def CreateClientPayload.client (payload : CreateClientPayload) (now : DateTime)
    (id userId : Uuid) : Client where
  id := id
  userId := payload.userId.getD userId
  name := Text.trim payload.name
  email := payload.email.filter (· ≠ "")
  trafficLimitBytes := payload.trafficLimitBytes.getD 0
  trafficUsedBytes := 0
  allTimeUsedBytes := 0
  expiryDate := payload.expiryDate
  resetDay := payload.resetDay
  dataLimitResetStrategy := payload.dataLimitResetStrategy.getD "no_reset"
  lastTrafficResetTime := none
  maxDevices := payload.maxDevices
  status :=
    if payload.onHoldExpireDurationSecs.isSome ∧ payload.expiryDate.isNone then "on_hold"
    else "active"
  onHoldExpireDurationSecs := payload.onHoldExpireDurationSecs
  onHoldTimeout := payload.onHoldTimeout
  updatedAt := now

structure UpdateClientPayload where
  name : Option String
  email : Option String
  trafficLimitBytes : Option Int
  expiryDate : Option DateTime
  resetDay : Option Int
  dataLimitResetStrategy : Option String
  maxDevices : Option Int
  status : Option String
  /-- Each group with the id of its new link. -/
  groupIds : Option (List (Uuid × Uuid))
  onHoldExpireDurationSecs : Option Int
  onHoldTimeout : Option DateTime

/-- The row after an update; a field without a value stays. -/
def UpdateClientPayload.apply (payload : UpdateClientPayload) (now : DateTime) (c : Client) :
    Client :=
  { c with
    name := (payload.name.map Text.trim).getD c.name
    email := match payload.email with
      | some email => if email = "" then none else some email
      | none => c.email
    trafficLimitBytes := payload.trafficLimitBytes.getD c.trafficLimitBytes
    expiryDate := payload.expiryDate.or c.expiryDate
    resetDay := payload.resetDay.or c.resetDay
    dataLimitResetStrategy := payload.dataLimitResetStrategy.getD c.dataLimitResetStrategy
    maxDevices := payload.maxDevices.or c.maxDevices
    status := payload.status.getD c.status
    onHoldExpireDurationSecs := payload.onHoldExpireDurationSecs.or c.onHoldExpireDurationSecs
    onHoldTimeout := payload.onHoldTimeout.or c.onHoldTimeout
    updatedAt := now }

/-- The group links of a client, replaced. -/
def syncClientGroups (db : Db) (clientId : Uuid) (groupIds : List (Uuid × Uuid)) : Db :=
  let others := db.clientGroupBindings.deleteWhere (·.clientId = clientId)
  { db with clientGroupBindings :=
      groupIds.foldl (fun t g => (t.insert ⟨g.2, clientId, g.1⟩).getD t) others }

/-- A new client with its groups. -/
def createClient (now : DateTime) (id userId : Uuid) (payload : CreateClientPayload) (db : Db) :
    ApiResult Db :=
  if Text.trim payload.name = "" then .error (.badRequest "invalid_name" "client name is required")
  else
    match db.clients.insert (payload.client now id userId) with
    | none => .error (.internal "UNIQUE constraint failed: clients.id")
    | some clients => .ok (match payload.groupIds with
      | some groupIds => syncClientGroups { db with clients := clients } id groupIds
      | none => { db with clients := clients })

def updateClient (now : DateTime) (id : Uuid) (payload : UpdateClientPayload) (db : Db) :
    ApiResult Db :=
  match db.clients.find id with
  | none => .error (.notFound "client not found")
  | some _ =>
    if payload.name.any (Text.trim · = "") then
      .error (.badRequest "invalid_name" "client name cannot be empty")
    else
      let db := { db with clients := db.clients.update id (payload.apply now) }
      .ok (match payload.groupIds with
        | some groupIds => syncClientGroups db id groupIds
        | none => db)

/-- The row of a client.  Its group links stay. -/
def deleteClient (id : Uuid) (db : Db) : ApiResult Db :=
  match db.clients.find id with
  | none => .error (.notFound "client not found")
  | some _ => .ok { db with clients := db.clients.deleteWhere (·.id = id) }

end Hub

end ProxyPanel
