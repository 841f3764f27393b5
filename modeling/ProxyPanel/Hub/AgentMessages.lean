import ProxyPanel.Agent.CoreBinaries
import ProxyPanel.Common.Logging
import ProxyPanel.Hub.TrafficRecords
import ProxyPanel.Lib.Ownership

/-!
# The messages of an agent

`handleAgentMessage` is what the Hub does with a message that is not a registration.
Every handler but one gets the node from the registration of the stream; the report on
a certificate names the certificate itself.  `stream_isolated` says that a stream whose
reports name certificates of its own node writes rows of that node only, and none at
all before it is registered.

Database statements succeed, except that an insertion with a taken id is refused.
-/

namespace ProxyPanel.Hub

open Json Run Table

/-! ### Payloads -/

structure NetInterface where
  rxBytes : BitVec 64
  txBytes : BitVec 64

/-- Percentages and averages are the bits of 32-bit floats. -/
structure HostMetrics where
  timestamp : Int
  cpuPercent : BitVec 32
  memUsed : BitVec 64
  memTotal : BitVec 64
  diskUsed : BitVec 64
  diskTotal : BitVec 64
  net : List NetInterface
  loadAvg1 : BitVec 32
  loadAvg5 : BitVec 32
  loadAvg15 : BitVec 32

/-- A log record; its fields in the order of iteration. -/
structure LogEntry where
  timestamp : Int
  level : String
  target : String
  message : String
  fields : List (String × String)

structure CoreStatusReport where
  coreType : String
  version : String
  running : Bool
  uptimeSec : Int
  activeInbounds : List String
  lastError : String

structure CertStatusReport where
  certId : String
  status : String
  expiresAt : Int
  error : String

/-- A message that is not a registration, with the ids its rows would get. -/
inductive AgentPayload where
  | heartbeat
  | traffic (inbounds : List (InboundTraffic × Uuid)) (users : List (UserTraffic × Uuid))
  | metrics (metrics : HostMetrics) (newId : Uuid)
  | logs (entries : List (LogEntry × Uuid))
  | onlineUsers (users : List (OnlineUser × Uuid)) (times : OnlineTimes)
  | coreStatus (status : CoreStatusReport) (newId : Uuid)
  | certStatus (report : CertStatusReport)
  | coreBinaries (list : CoreBinaryList)
  /-- A message without a payload. -/
  | missing

/-! ### Handlers -/

def handleHeartbeat (db : Db) (agentId : Uuid) (now : DateTime) : Db :=
  { db with nodes := db.nodes.update agentId fun n => { n with lastSeenAt := some now } }

def hostMetric (agentId : Uuid) (metrics : HostMetrics) (now : DateTime) (newId : Uuid) :
    HostMetric where
  id := newId
  nodeId := agentId
  timestamp := (Calendar.fromTimestamp metrics.timestamp).getD now
  cpuPercent := metrics.cpuPercent
  memUsed := metrics.memUsed.toInt
  memTotal := metrics.memTotal.toInt
  diskUsed := metrics.diskUsed.toInt
  diskTotal := metrics.diskTotal.toInt
  netRx := (metrics.net.map (·.rxBytes.toInt)).foldl addI64 0
  netTx := (metrics.net.map (·.txBytes.toInt)).foldl addI64 0
  loadAvg1 := metrics.loadAvg1
  loadAvg5 := metrics.loadAvg5
  loadAvg15 := metrics.loadAvg15

def handleMetrics (db : Db) (agentId : Uuid) (metrics : HostMetrics) (now : DateTime)
    (newId : Uuid) : Db :=
  { db with hostMetrics :=
      (db.hostMetrics.insert (hostMetric agentId metrics now newId)).getD db.hostMetrics }

def insertLog (db : Db) (log : AgentLog) : Db :=
  { db with agentLogs := (db.agentLogs.insert log).getD db.agentLogs }

section Logs

variable (redact : String → String)

def agentLog (agentId : Uuid) (entry : LogEntry) (now : DateTime) (newId : Uuid) : AgentLog where
  id := newId
  nodeId := agentId
  level := Text.toAsciiLowercase entry.level
  target := Logging.sanitizeLogField redact "target" entry.target
  message := Logging.sanitizeLogText redact entry.message
  fields := some (mkObj ((entry.fields.take 32).map fun field =>
    (field.1, str (Logging.sanitizeLogField redact field.1 field.2))))
  createdAt := (Calendar.fromTimestamp entry.timestamp).getD now

def handleLogs (db : Db) (agentId : Uuid) (entries : List (LogEntry × Uuid)) (now : DateTime) : Db :=
  (entries.take 1000).foldl (fun db entry => insertLog db (agentLog redact agentId entry.1 now entry.2)) db

def coreStatusMessage (status : CoreStatusReport) : String :=
  if status.running then "core " ++ status.coreType ++ " v" ++ status.version ++
    " running, uptime " ++ toString status.uptimeSec ++ "s"
  else if status.lastError = "" then "core " ++ status.coreType ++ " v" ++ status.version ++
    " not running (no error captured)"
  else "core " ++ status.coreType ++ " v" ++ status.version ++
    " stopped, last error: " ++ status.lastError

def coreStatusLog (agentId : Uuid) (status : CoreStatusReport) (now : DateTime) (newId : Uuid) :
    AgentLog where
  id := newId
  nodeId := agentId
  level := if status.running then "info" else if status.lastError = "" then "warning" else "error"
  target := "core-" ++ status.coreType
  message := Logging.sanitizeLogText redact (coreStatusMessage status)
  fields := some (mkObj [("core_type", str status.coreType), ("version", str status.version),
    ("running", bool status.running), ("uptime_sec", num status.uptimeSec),
    ("active_inbounds", arr (status.activeInbounds.map str)), ("last_error", str status.lastError)])
  createdAt := now

def handleCoreStatus (db : Db) (agentId : Uuid) (status : CoreStatusReport) (now : DateTime)
    (newId : Uuid) : Db :=
  insertLog db (coreStatusLog redact agentId status now newId)

end Logs

/-- The row of a certificate after a report of the agent. -/
def withCertStatus (report : CertStatusReport) (now : DateTime) (cert : Certificate) : Certificate :=
  if report.status = "active" then
    { cert with
      status := report.status
      updatedAt := now
      expiresAt := if 0 < report.expiresAt then Calendar.fromTimestamp report.expiresAt else none
      lastIssuedAt := some now
      lastError := none }
  else
    { cert with
      status := report.status
      updatedAt := now
      lastError := if report.error = "" then none else some report.error }

/-- The report is applied to the certificate it names, whoever sent it. -/
def applyCertStatus (db : Db) (report : CertStatusReport) (now : DateTime) : Db :=
  match Uuid.parse report.certId with
  | none => db
  | some id =>
    match db.certificates.find id with
    | none => db
    | some cert =>
      { db with certificates := db.certificates.update cert.id (withCertStatus report now) }

/-! ### A stream -/

/-- What the handlers take from outside the Hub. -/
structure StreamEnv where
  countBytes : CountBytes
  redact : String → String

/-- The database, the request that waits for a binary list of each node, and the lists
that were handed to requests. -/
structure StreamState where
  db : Db
  binaryWaiters : Uuid → Option Nat
  replies : List (Nat × CoreBinaryList)

/-- The waiting request of a node gets the list and waits no more. -/
def takeWaiter (s : StreamState) (id : Uuid) (list : CoreBinaryList) : StreamState :=
  match s.binaryWaiters id with
  | none => s
  | some tx => { s with
      binaryWaiters := fun m => if m = id then none else s.binaryWaiters m
      replies := s.replies ++ [(tx, list)] }

/-- A message on a stream that is registered for a node, or not yet. -/
def handleAgentMessage (env : StreamEnv) (registeredId : Option Uuid) (s : StreamState)
    (payload : AgentPayload) (now : DateTime) : StreamState :=
  match payload, registeredId with
  | .heartbeat, some id => { s with db := handleHeartbeat s.db id now }
  | .traffic inbounds users, some id =>
    { s with db := handleTrafficReport env.countBytes s.db id inbounds users now }
  | .metrics metrics newId, some id => { s with db := handleMetrics s.db id metrics now newId }
  | .logs entries, some id => { s with db := handleLogs env.redact s.db id entries now }
  | .onlineUsers users times, some id => { s with db := handleOnlineUsers s.db id users times }
  | .coreStatus status newId, some id =>
    { s with db := handleCoreStatus env.redact s.db id status now newId }
  | .certStatus report, _ => { s with db := applyCertStatus s.db report now }
  | .coreBinaries list, some id => takeWaiter s id list
  | _, _ => s

/-- One message of the stream, at a time. -/
def streamStep (env : StreamEnv) (registeredId : Option Uuid) (s : StreamState)
    (message : AgentPayload × DateTime) : Option StreamState :=
  some (handleAgentMessage env registeredId s message.1 message.2)

/-! ### Isolation -/

/-- Only rows of a node differ. -/
structure DbIsolated (n : Uuid) (db db' : Db) : Prop where
  nodes : SameOutside (·.id = n) db.nodes db'.nodes
  hostMetrics : SameOutside (·.nodeId = n) db.hostMetrics db'.hostMetrics
  trafficRecords : SameOutside (·.nodeId = some n) db.trafficRecords db'.trafficRecords
  usageRecords : SameOutside (·.nodeId = n) db.nodeUserUsageRecords db'.nodeUserUsageRecords
  agentLogs : SameOutside (·.nodeId = n) db.agentLogs db'.agentLogs
  sessions : SameOutside (·.nodeId = n) db.clientOnlineSessions db'.clientOnlineSessions
  certificates : SameOutside (·.nodeId = n) db.certificates db'.certificates

/-- **Nothing of another node differs**: no row, and no waiting request. -/
structure Isolated (n : Uuid) (s s' : StreamState) : Prop where
  rows : DbIsolated n s.db s'.db
  waiters : ∀ m, m ≠ n → s'.binaryWaiters m = s.binaryWaiters m

/-- What a message must meet: a certificate it names belongs to the node the stream is
registered for. -/
def OwnCertificate (registeredId : Option Uuid) (s : StreamState) (message : AgentPayload × DateTime) :
    Prop :=
  match message.1 with
  | .certStatus report => ∀ id, Uuid.parse report.certId = some id →
      ∀ cert, s.db.certificates.find id = some cert → registeredId = some cert.nodeId
  | _ => True

instance (registeredId : Option Uuid) (s : StreamState) :
    (message : AgentPayload × DateTime) → Decidable (OwnCertificate registeredId s message)
  | (.certStatus report, _) => decidable_of_iff
      (((Uuid.parse report.certId).bind s.db.certificates.find).all
        (fun cert => registeredId = some cert.nodeId) = true) (by
      simp only [OwnCertificate, Option.all_bind, Option.all_eq_true, Function.comp,
        decide_eq_true_eq])
  | (.heartbeat, _) | (.traffic .., _) | (.metrics .., _) | (.logs _, _) | (.onlineUsers .., _)
  | (.coreStatus .., _) | (.coreBinaries _, _) | (.missing, _) => .isTrue trivial

theorem DbIsolated.refl (n : Uuid) (db : Db) : DbIsolated n db db :=
  ⟨rfl, rfl, rfl, rfl, rfl, rfl, rfl⟩

theorem DbIsolated.trans {n : Uuid} {db db' db'' : Db} (h : DbIsolated n db db')
    (h' : DbIsolated n db' db'') : DbIsolated n db db'' where
  nodes := h.nodes.trans h'.nodes
  hostMetrics := h.hostMetrics.trans h'.hostMetrics
  trafficRecords := h.trafficRecords.trans h'.trafficRecords
  usageRecords := h.usageRecords.trans h'.usageRecords
  agentLogs := h.agentLogs.trans h'.agentLogs
  sessions := h.sessions.trans h'.sessions
  certificates := h.certificates.trans h'.certificates

/-- A loop whose body writes rows of one node. -/
theorem DbIsolated.foldl {α : Type} {n : Uuid} {f : Db → α → Db}
    (h : ∀ db a, DbIsolated n db (f db a)) (as : List α) (db : Db) :
    DbIsolated n db (as.foldl f db) := by
  induction as generalizing db with
  | nil => exact DbIsolated.refl n db
  | cons a as ih => exact (h db a).trans (ih (f db a))

section Handlers

variable (n : Uuid) (db : Db)

theorem isolated_handleHeartbeat (now : DateTime) : DbIsolated n db (handleHeartbeat db n now) := by
  have hnodes : SameOutside (·.id = n) db.nodes
      (db.nodes.update n fun node => { node with lastSeenAt := some now }) :=
    sameOutside_update fun node _ hk => ⟨decide_eq_true hk, decide_eq_true hk⟩
  exact { DbIsolated.refl n db with nodes := hnodes }

theorem isolated_handleMetrics (metrics : HostMetrics) (now : DateTime) (newId : Uuid) :
    DbIsolated n db (handleMetrics db n metrics now newId) := by
  have hmetrics : SameOutside (·.nodeId = n) db.hostMetrics
      ((db.hostMetrics.insert (hostMetric n metrics now newId)).getD db.hostMetrics) :=
    sameOutside_insert (decide_eq_true rfl)
  exact { DbIsolated.refl n db with hostMetrics := hmetrics }

theorem isolated_insertLog {log : AgentLog} (hlog : log.nodeId = n) :
    DbIsolated n db (insertLog db log) := by
  have hlogs : SameOutside (·.nodeId = n) db.agentLogs
      ((db.agentLogs.insert log).getD db.agentLogs) := sameOutside_insert (decide_eq_true hlog)
  exact { DbIsolated.refl n db with agentLogs := hlogs }

theorem isolated_handleLogs (redact : String → String) (entries : List (LogEntry × Uuid))
    (now : DateTime) : DbIsolated n db (handleLogs redact db n entries now) :=
  DbIsolated.foldl (fun db _ => isolated_insertLog n db rfl) _ db

theorem isolated_upsertTraffic (config : Option Uuid) (hour : DateTime) (inbound : InboundTraffic)
    (newId : Uuid) : DbIsolated n db (upsertTraffic db n config hour inbound newId) := by
  have hrecords : SameOutside (·.nodeId = some n) db.trafficRecords
      ((db.trafficRecords.upsert (isInboundRecord n config hour) (addTraffic inbound)
        (inboundRecord n config hour inbound newId)).getD db.trafficRecords) := by
    refine sameOutside_upsert (fun r hr => ?_) (fun r hr => hr) (decide_eq_true rfl)
    exact decide_eq_true (of_decide_eq_true hr).1
  exact { DbIsolated.refl n db with trafficRecords := hrecords }

theorem isolated_upsertUsage (clientId : Uuid) (hour : DateTime) (rate : BitVec 32)
    (upload download : Int) (newId : Uuid) :
    DbIsolated n db (upsertUsage db n clientId hour rate upload download newId) := by
  rw [upsertUsage]
  split
  · rename_i record hone
    obtain ⟨hrow, hmatch⟩ := one_eq_some hone
    have hrecord : record.nodeId = n := (of_decide_eq_true hmatch).1
    have hupdate : SameOutside (·.nodeId = n) db.nodeUserUsageRecords
        (db.nodeUserUsageRecords.update record.id fun r => { r with
          uploadBytes := addI64 record.uploadBytes upload
          downloadBytes := addI64 record.downloadBytes download }) := by
      refine sameOutside_update fun r hr hk => ?_
      obtain rfl : r = record := eq_of_key_eq hr hrow hk
      exact ⟨decide_eq_true hrecord, decide_eq_true hrecord⟩
    exact { DbIsolated.refl n db with usageRecords := hupdate }
  · exact { DbIsolated.refl n db with usageRecords := sameOutside_insert (decide_eq_true rfl) }

/-- Clients are not rows of a node. -/
theorem isolated_clients (clients : Table Client) : DbIsolated n db { db with clients := clients } :=
  { DbIsolated.refl n db with }

theorem isolated_handleUserTraffic (countBytes : CountBytes) (clients : Table Client)
    (resolved : List (String × Uuid)) (rate : BitVec 32) (hour : DateTime)
    (user : UserTraffic × Uuid) :
    DbIsolated n db (handleUserTraffic countBytes clients resolved n rate hour db user) := by
  rw [handleUserTraffic]
  cases resolve resolved user.1.clientId with
  | none => exact DbIsolated.refl n db
  | some clientId =>
    dsimp only
    refine (isolated_upsertUsage n db clientId hour rate (countBytes rate user.1.uploadBytes)
      (countBytes rate user.1.downloadBytes) user.2).trans ?_
    cases clients.find clientId with
    | none => exact DbIsolated.refl n _
    | some c =>
      rw [countTraffic]
      split
      · exact DbIsolated.refl n _
      · exact isolated_clients n _ _

theorem isolated_handleTraffic (countBytes : CountBytes) (users : List (UserTraffic × Uuid))
    (hour : DateTime) : DbIsolated n db (handleTraffic countBytes db n users hour) := by
  rw [handleTraffic]
  exact DbIsolated.foldl (fun db user => isolated_handleUserTraffic n db countBytes _ _ _ hour user)
    users db

theorem isolated_handleInbounds (inbounds : List (InboundTraffic × Uuid)) (hour : DateTime) :
    DbIsolated n db (handleInbounds db n inbounds hour) := by
  rw [handleInbounds]
  refine DbIsolated.foldl (fun db inbound => ?_) inbounds db
  rw [handleInbound]
  exact isolated_upsertTraffic n db _ hour inbound.1 inbound.2

theorem isolated_handleTrafficReport (countBytes : CountBytes)
    (inbounds : List (InboundTraffic × Uuid)) (users : List (UserTraffic × Uuid)) (now : DateTime) :
    DbIsolated n db (handleTrafficReport countBytes db n inbounds users now) :=
  (isolated_handleInbounds n db inbounds (hourOf now)).trans
    (isolated_handleTraffic n _ countBytes users (hourOf now))

theorem isolated_deleteSessions {p : ClientOnlineSession → Bool} (h : ∀ r, p r = true → r.nodeId = n) :
    DbIsolated n db { db with clientOnlineSessions := db.clientOnlineSessions.deleteWhere p } :=
  { DbIsolated.refl n db with
    sessions := sameOutside_deleteWhere fun r _ hr => decide_eq_true (h r hr) }

/-- The sessions that were read belong to the node as long as they are there. -/
def SessionsOf (sessions : List ClientOnlineSession) (db : Db) : Prop :=
  ∀ session ∈ sessions, ∀ r ∈ db.clientOnlineSessions.rows, r.id = session.id → r.nodeId = n

variable {n db}

theorem isolated_upsertSession {sessions : List ClientOnlineSession} (h : SessionsOf n sessions db)
    (clientId : Uuid) (times : OnlineTimes) (user : OnlineUser × Uuid) :
    let db' := (upsertSession db sessions n clientId times user).1
    DbIsolated n db db' ∧ SessionsOf n sessions db' := by
  rw [upsertSession]
  split
  · rename_i session hfound
    have hsession := List.mem_reverse.mp (List.mem_of_find?_eq_some hfound)
    refine ⟨{ DbIsolated.refl n db with sessions := sameOutside_update fun r hr hk => ?_ },
      fun known hknown => ?_⟩
    · exact ⟨decide_eq_true (h session hsession r hr hk), decide_eq_true (h session hsession r hr hk)⟩
    · exact forall_mem_update (h known hknown) fun r _ _ hr => hr
  · split
    · rename_i sessions' hinsert
      have hrows := rows_of_insert hinsert
      have hown : SameOutside (fun r => r.nodeId = n) db.clientOnlineSessions
          ((db.clientOnlineSessions.insert (newSession n clientId times user)).getD
            db.clientOnlineSessions) := sameOutside_insert (decide_eq_true rfl)
      rw [hinsert, Option.getD_some] at hown
      refine ⟨{ DbIsolated.refl n db with sessions := hown }, fun known hknown r hr hid => ?_⟩
      rw [hrows, List.mem_append, List.mem_singleton] at hr
      rcases hr with hr | rfl
      · exact h known hknown r hr hid
      · rfl
    · exact ⟨DbIsolated.refl n db, h⟩

theorem isolated_activateOnHold {sessions : List ClientOnlineSession} (h : SessionsOf n sessions db)
    {prefetched : Option Client} {now : DateTime} {db' : Db}
    (hactivate : activateOnHold db prefetched now = some db') :
    DbIsolated n db db' ∧ SessionsOf n sessions db' := by
  rcases activateOnHold_cases hactivate with rfl | ⟨c, date, -, -, -, rfl⟩
  · exact ⟨DbIsolated.refl n db', h⟩
  · exact ⟨isolated_clients n db _, h⟩

theorem isolated_handleOnlineUser {sessions : List ClientOnlineSession} (clients : Table Client)
    (resolved : List (String × Uuid)) (times : OnlineTimes) {s : OnlineLoop}
    (h : SessionsOf n sessions s.db) (user : OnlineUser × Uuid) :
    let s' := handleOnlineUser clients sessions resolved n times s user
    DbIsolated n s.db s'.db ∧ SessionsOf n sessions s'.db := by
  rw [handleOnlineUser]
  split
  · exact ⟨DbIsolated.refl n _, h⟩
  · cases resolve resolved user.1.clientId with
    | none => exact ⟨DbIsolated.refl n _, h⟩
    | some clientId =>
      dsimp only
      split
      · exact ⟨DbIsolated.refl n _, h⟩
      · split
        · exact ⟨DbIsolated.refl n _, h⟩
        · rename_i hactivate
          obtain ⟨hclients, h⟩ := isolated_activateOnHold h hactivate
          obtain ⟨hsession, h⟩ := isolated_upsertSession h clientId times user
          exact ⟨hclients.trans hsession, h⟩

variable (n db) in
theorem isolated_handleOnlineUsers (users : List (OnlineUser × Uuid)) (times : OnlineTimes) :
    DbIsolated n db (handleOnlineUsers db n users times) := by
  have hstart : SessionsOf n (db.clientOnlineSessions.filter (·.nodeId = n)) db := by
    intro session hsession r hr hid
    obtain ⟨hrow, hnode⟩ := mem_filter.mp hsession
    rw [eq_of_key_eq hr hrow hid]
    exact of_decide_eq_true hnode
  have hloop : ∀ (sessions : List ClientOnlineSession) (clients : Table Client)
      (resolved : List (String × Uuid)) (users : List (OnlineUser × Uuid)) (s : OnlineLoop),
      SessionsOf n sessions s.db →
        DbIsolated n s.db (users.foldl (handleOnlineUser clients sessions resolved n times) s).db := by
    intro sessions clients resolved users
    induction users with
    | nil => exact fun s _ => DbIsolated.refl n s.db
    | cons user users ih =>
      intro s h
      obtain ⟨hhead, h⟩ := isolated_handleOnlineUser clients resolved times h user
      exact hhead.trans (ih _ h)
  have hend : DbIsolated n db (onlineLoop db n users times).db := by
    rw [onlineLoop]
    exact hloop _ db.clients _ users (OnlineLoop.start db) hstart
  rw [handleOnlineUsers]
  split
  · exact hend
  · exact hend.trans (isolated_deleteSessions n _ fun r hr => (of_decide_eq_true hr).1)

end Handlers

/-- A report on a certificate writes that certificate. -/
theorem isolated_applyCertStatus {n : Uuid} {db : Db} {report : CertStatusReport} (now : DateTime)
    (h : ∀ id, Uuid.parse report.certId = some id →
      ∀ cert, db.certificates.find id = some cert → cert.nodeId = n) :
    DbIsolated n db (applyCertStatus db report now) := by
  rw [applyCertStatus]
  cases hid : Uuid.parse report.certId with
  | none => exact DbIsolated.refl n db
  | some id =>
    dsimp only
    cases hcert : db.certificates.find id with
    | none => exact DbIsolated.refl n db
    | some cert =>
      have hnode : cert.nodeId = n := h id hid cert hcert
      have hkeep : ∀ r : Certificate, (withCertStatus report now r).nodeId = r.nodeId := by
        intro r
        rw [withCertStatus]
        split <;> rfl
      refine { DbIsolated.refl n db with certificates := sameOutside_update fun r hr hk => ?_ }
      obtain rfl : r = cert := eq_of_key_eq hr (mem_of_find hcert) hk
      exact ⟨decide_eq_true hnode, decide_eq_true ((hkeep r).trans hnode)⟩

/-- A report on a certificate nobody knows changes nothing. -/
theorem applyCertStatus_of_unknown {db : Db} {report : CertStatusReport} (now : DateTime)
    (h : ∀ id, Uuid.parse report.certId = some id → db.certificates.find id = none) :
    applyCertStatus db report now = db := by
  rw [applyCertStatus]
  cases hid : Uuid.parse report.certId with
  | none => rfl
  | some id =>
    dsimp only
    rw [h id hid]

/-! ### Runs -/

theorem Isolated.refl (n : Uuid) (s : StreamState) : Isolated n s s :=
  ⟨DbIsolated.refl n s.db, fun _ _ => rfl⟩

theorem Isolated.trans {n : Uuid} {s s' s'' : StreamState} (h : Isolated n s s')
    (h' : Isolated n s' s'') : Isolated n s s'' :=
  ⟨h.rows.trans h'.rows, fun m hm => (h'.waiters m hm).trans (h.waiters m hm)⟩

theorem isolated_takeWaiter (n : Uuid) (s : StreamState) (list : CoreBinaryList) :
    Isolated n s (takeWaiter s n list) := by
  rw [takeWaiter]
  cases s.binaryWaiters n with
  | none => exact Isolated.refl n s
  | some tx => exact ⟨DbIsolated.refl n s.db, fun m hm => if_neg hm⟩

/-- **One message** on a registered stream. -/
theorem isolated_step {env : StreamEnv} {n : Uuid} {s s' : StreamState}
    {message : AgentPayload × DateTime} (hown : OwnCertificate (some n) s message)
    (h : streamStep env (some n) s message = some s') : Isolated n s s' := by
  obtain ⟨payload, now⟩ := message
  have hwrites : ∀ {db' : Db}, DbIsolated n s.db db' → Isolated n s { s with db := db' } :=
    fun hrows => ⟨hrows, fun _ _ => rfl⟩
  cases h
  cases payload with
  | heartbeat => exact hwrites (isolated_handleHeartbeat n s.db now)
  | traffic inbounds users =>
    exact hwrites (isolated_handleTrafficReport n s.db env.countBytes inbounds users now)
  | metrics metrics newId => exact hwrites (isolated_handleMetrics n s.db metrics now newId)
  | logs entries => exact hwrites (isolated_handleLogs n s.db env.redact entries now)
  | onlineUsers users times => exact hwrites (isolated_handleOnlineUsers n s.db users times)
  | coreStatus status newId => exact hwrites (isolated_insertLog n s.db rfl)
  | certStatus report =>
    refine hwrites (isolated_applyCertStatus now fun id hid cert hcert => ?_)
    exact (Option.some.inj (hown id hid cert hcert)).symm
  | coreBinaries list => exact isolated_takeWaiter n s list
  | missing => exact Isolated.refl n s

/-- One message on a stream that is not registered. -/
theorem unregistered_step {env : StreamEnv} {s s' : StreamState} {message : AgentPayload × DateTime}
    (hown : OwnCertificate none s message) (h : streamStep env none s message = some s') : s' = s := by
  obtain ⟨payload, now⟩ := message
  cases h
  cases payload with
  | certStatus report =>
    have hunknown : applyCertStatus s.db report now = s.db := by
      refine applyCertStatus_of_unknown now fun id hid => ?_
      cases hcert : s.db.certificates.find id with
      | none => rfl
      | some cert => exact nomatch hown id hid cert hcert
    change { s with db := applyCertStatus s.db report now } = s
    rw [hunknown]
  | _ => rfl

/-- **Stream isolation**: when every report on a certificate names one of the node of the
stream (or none that exists), nothing of another node changes, and nothing at all
before the stream is registered. -/
theorem stream_isolated {env : StreamEnv} {registeredId : Option Uuid} {s s' : StreamState}
    {messages : List (AgentPayload × DateTime)}
    (hown : Guarded (streamStep env registeredId) (OwnCertificate registeredId) s messages)
    (hrun : run (streamStep env registeredId) s messages = some s') :
    (∀ n, registeredId = some n → Isolated n s s') ∧ (registeredId = none → s' = s) := by
  constructor
  · rintro n rfl
    refine inv_of_guarded (I := fun t => Isolated n s t) (fun t a t' ht hok hstep => ?_)
      (Isolated.refl n s) hown hrun
    exact ht.trans (isolated_step hok hstep)
  · rintro rfl
    refine inv_of_guarded (I := fun t => t = s) (fun t a t' ht hok hstep => ?_) rfl hown hrun
    rw [unregistered_step hok hstep, ht]

/-! ### A stream of node 1 -/

namespace TwoNodes

def node (n : Nat) : Node where
  id := .ofNat n
  name := "node"
  hostname := ""
  address := ""
  domain := none
  tokenHash := ""
  coresAvailable := .arr []
  usageCoefficient := 0x3f800000
  status := "active"
  parentId := none
  lastSeenAt := none
  updatedAt := ⟨0, 0⟩

def certificate (n nodeId : Nat) : Certificate where
  id := .ofNat n
  nodeId := .ofNat nodeId
  domain := "example.org"
  status := "pending"
  challengeType := "http-01"
  expiresAt := none
  lastIssuedAt := none
  lastError := none
  updatedAt := ⟨0, 0⟩

def state : StreamState where
  db := {
    nodes := ⟨[node 1, node 2], by decide⟩
    certificates := ⟨[certificate 10 1, certificate 11 2], by decide⟩ }
  binaryWaiters := fun _ => some 7
  replies := []

def env : StreamEnv := ⟨fun _ bytes => bytes, id⟩

def failed (n : Nat) : AgentPayload := .certStatus ⟨(Uuid.ofNat n).toStr, "failed", 0, "no such domain"⟩

def messages : List (AgentPayload × DateTime) :=
  [(.heartbeat, ⟨5, 0⟩), (failed 10, ⟨6, 0⟩), (.coreBinaries ⟨[], ""⟩, ⟨7, 0⟩), (failed 12, ⟨8, 0⟩),
    (.coreStatus ⟨"mihomo", "1.19", false, 0, [], "exit status 1"⟩ (.ofNat 20), ⟨9, 0⟩)]

def statusOf (s : StreamState) (n : Nat) : Option String :=
  (s.db.certificates.find (.ofNat n)).map (·.status)

end TwoNodes

theorem stream_isolated_two_nodes : ∃ s',
    run (streamStep TwoNodes.env (some (.ofNat 1))) TwoNodes.state TwoNodes.messages = some s' ∧
      Isolated (.ofNat 1) TwoNodes.state s' := by
  have hchecked : checked (streamStep TwoNodes.env (some (.ofNat 1)))
      (fun s m => decide (OwnCertificate (some (.ofNat 1)) s m)) TwoNodes.state TwoNodes.messages =
        true := by decide
  obtain ⟨hguarded, s', hrun⟩ := guarded_of_checked (I := fun _ => True)
    (fun _ _ _ h => of_decide_eq_true h) (fun _ _ _ _ _ _ => trivial) trivial hchecked
  exact ⟨s', hrun, (stream_isolated hguarded hrun).1 (.ofNat 1) rfl⟩

/-- A stream writes the certificate of another node, even before it is registered. -/
theorem foreign_certificate_written :
    (TwoNodes.state.db.certificates.find (.ofNat 11)).map (·.nodeId) = some (.ofNat 2) ∧
    TwoNodes.statusOf TwoNodes.state 11 = some "pending" ∧
    (∃ s', run (streamStep TwoNodes.env none) TwoNodes.state [(TwoNodes.failed 11, ⟨5, 0⟩)] = some s' ∧
      TwoNodes.statusOf s' 11 = some "failed") ∧
    (∃ s', run (streamStep TwoNodes.env (some (.ofNat 1))) TwoNodes.state
        [(TwoNodes.failed 11, ⟨5, 0⟩)] = some s' ∧
      TwoNodes.statusOf s' 11 = some "failed") := by
  refine ⟨by decide, by decide, ⟨_, rfl, ?_⟩, ⟨_, rfl, ?_⟩⟩
  · decide
  · decide

end ProxyPanel.Hub
