import ProxyPanel.Db.Entities
import ProxyPanel.Lib.Interleave
import ProxyPanel.Lib.Text
import Mathlib.Logic.Function.Basic

/-!
# Certificates that wait for their node

A certificate becomes pending in the database, and a request for it goes to the node if this
is connected; a node that registers is sent the requests of all its pending certificates.
The requests of the API, the registrations, the cleanups of streams and the status reports
take turns, statement by statement (`advance`).  `send_to_agent` holds the map of agents
while it sends, so it is one statement.

The row is written before the request is sent, and the node is entered before its rows are
read.  So a pending certificate of a connected node has been requested on this connection, or
somebody is on the way to do it (`Inv`), and when nobody is under way it has been requested:
`no_stranded_certificate`.
-/

namespace ProxyPanel.Hub.CertificateIssuance

open Run Interleave

/-! ### The store -/

abbrev StreamId := Nat

structure CertIssueRequest where
  certId : String
  domain : String
  challengeType : String
  deriving DecidableEq

/-- The channel to the agent behind a stream, with all that was put into it. -/
structure Channel where
  opened : Bool
  sent : List CertIssueRequest

/-- The database, `state.agents` and the channels. -/
structure Store where
  db : Db
  agents : Uuid → Option StreamId
  channels : StreamId → Channel

def Store.setCertificates (s : Store) (certificates : Table Certificate) : Store :=
  { s with db := { s.db with certificates } }

def Store.setAgent (s : Store) (nodeId : Uuid) (stream : Option StreamId) : Store :=
  { s with agents := Function.update s.agents nodeId stream }

def Store.setChannel (s : Store) (stream : StreamId) (channel : Channel) : Store :=
  { s with channels := Function.update s.channels stream channel }

@[simp] theorem agents_setAgent_self (s : Store) (nodeId : Uuid) (stream : Option StreamId) :
    (s.setAgent nodeId stream).agents nodeId = stream := Function.update_self ..

theorem agents_setAgent_of_ne (s : Store) {nodeId other : Uuid} (h : other ≠ nodeId)
    (stream : Option StreamId) : (s.setAgent nodeId stream).agents other = s.agents other :=
  Function.update_of_ne h _ _

@[simp] theorem channels_setChannel_self (s : Store) (stream : StreamId) (channel : Channel) :
    (s.setChannel stream channel).channels stream = channel := Function.update_self ..

theorem channels_setChannel_of_ne (s : Store) {stream other : StreamId} (h : other ≠ stream)
    (channel : Channel) : (s.setChannel stream channel).channels other = s.channels other :=
  Function.update_of_ne h _ _

/-! ### The calls -/

structure CreateCertificatePayload where
  domain : String
  nodeId : Uuid
  challengeType : Option String

/-- `expiresAt` is the timestamp of the report, if it is one. -/
structure CertStatusReport where
  certId : String
  status : String
  expiresAt : Option DateTime
  error : String

/-- `closeChannel` is the end of the stream behind a channel. -/
inductive Call where
  | createCertificate (payload : CreateCertificatePayload) (newId : Uuid) (now : DateTime)
  | renewCertificate (id : Uuid) (now : DateTime)
  | register (nodeId : Uuid) (stream : StreamId)
  | cleanup (nodeId : Uuid)
  | closeChannel (stream : StreamId)
  | applyCertStatus (report : CertStatusReport) (now : DateTime)

/-- How far a call has come. -/
inductive Phase where
  | waiting
  | checkingNode (domain challengeType : String)
  | findingExisting (domain challengeType : String)
  | writing (existing : Option Certificate) (domain challengeType : String)
  | renewing (cert : Certificate)
  | querying
  /-- The certificates whose requests are still to be sent. -/
  | dispatching (certs : List Certificate)
  | applying (cert : Certificate)
  | done

def pendingRow (challengeType : String) (now : DateTime) (row : Certificate) : Certificate :=
  { row with
    status := "pending", challengeType := challengeType, lastError := none, updatedAt := now }

def renewedRow (now : DateTime) (row : Certificate) : Certificate :=
  { row with status := "pending", lastError := none, updatedAt := now }

def newRow (id nodeId : Uuid) (domain challengeType : String) (now : DateTime) : Certificate :=
  ⟨id, nodeId, domain, "pending", challengeType, none, none, none, now⟩

/-- The row after a status report. -/
def reportedRow (report : CertStatusReport) (now : DateTime) (row : Certificate) : Certificate :=
  if report.status = "active" then
    { row with
      status := report.status, updatedAt := now, expiresAt := report.expiresAt
      lastIssuedAt := some now, lastError := none }
  else
    { row with
      status := report.status, updatedAt := now
      lastError := if report.error = "" then none else some report.error }

/-- An update of one row, and what the call does with the row it gets back.  A row that is
gone is an error. -/
def updateCertificate (s : Store) (id : Uuid) (f : Certificate → Certificate)
    (next : Certificate → Phase) : Phase × Store :=
  match s.db.certificates.find id with
  | none => (.done, s)
  | some row => (next (f row), s.setCertificates (s.db.certificates.update id f))

/-- `push_issue_request`: nothing is sent to a node that is not connected or whose channel
is closed. -/
def pushIssueRequest (s : Store) (cert : Certificate) : Store :=
  match s.agents cert.nodeId with
  | none => s
  | some stream =>
    if (s.channels stream).opened then
      s.setChannel stream
        ⟨true, (s.channels stream).sent ++ [⟨cert.id.toStr, cert.domain, cert.challengeType⟩]⟩
    else s

/-- The pending certificates of a node. -/
def pendingOf (s : Store) (nodeId : Uuid) : List Certificate :=
  s.db.certificates.filter fun cert => cert.nodeId = nodeId ∧ cert.status = "pending"

/-- The next statement of a call, `none` when it has answered. -/
def advance (s : Store) : Call → Phase → Option (Phase × Store)
  | _, .dispatching [] => some (.done, s)
  | _, .dispatching (cert :: certs) => some (.dispatching certs, pushIssueRequest s cert)
  | .createCertificate payload _ _, .waiting =>
    let domain := Text.trim payload.domain
    if domain = "" ∨ ' ' ∈ domain.toList then some (.done, s)
    else if payload.challengeType.getD "http-01" = "http-01" then
      some (.checkingNode domain "http-01", s)
    else some (.done, s)
  | .createCertificate payload _ _, .checkingNode domain challengeType =>
    match s.db.nodes.find payload.nodeId with
    | none => some (.done, s)
    | some _ => some (.findingExisting domain challengeType, s)
  | .createCertificate payload _ _, .findingExisting domain challengeType =>
    let existing := s.db.certificates.one fun cert =>
      cert.nodeId = payload.nodeId ∧ cert.domain = domain
    some (.writing existing domain challengeType, s)
  | .createCertificate _ _ now, .writing (some existing) _ challengeType =>
    some (updateCertificate s existing.id (pendingRow challengeType now) fun row =>
      .dispatching [row])
  | .createCertificate payload newId now, .writing none domain challengeType =>
    let row := newRow newId payload.nodeId domain challengeType now
    match s.db.certificates.insert row with
    | none => some (.done, s)
    | some certificates => some (.dispatching [row], s.setCertificates certificates)
  | .renewCertificate id _, .waiting =>
    match s.db.certificates.find id with
    | none => some (.done, s)
    | some cert => some (.renewing cert, s)
  | .renewCertificate _ now, .renewing cert =>
    some (updateCertificate s cert.id (renewedRow now) fun row => .dispatching [row])
  | .register nodeId stream, .waiting =>
    some (.querying, s.setAgent nodeId (some stream))
  | .register nodeId _, .querying => some (.dispatching (pendingOf s nodeId), s)
  | .cleanup nodeId, .waiting =>
    some (.done, s.setAgent nodeId none)
  | .closeChannel stream, .waiting =>
    some (.done, s.setChannel stream ⟨false, (s.channels stream).sent⟩)
  | .applyCertStatus report _, .waiting =>
    match Uuid.parse report.certId with
    | none => some (.done, s)
    | some id =>
      match s.db.certificates.find id with
      | none => some (.done, s)
      | some cert => some (.applying cert, s)
  | .applyCertStatus report now, .applying cert =>
    some (updateCertificate s cert.id (reportedRow report now) fun _ => .done)
  | _, _ => none

/-! ### Stranded certificates -/

/-- The request of a certificate has been put into the channel. -/
def Requested (s : Store) (stream : StreamId) (cert : Certificate) : Prop :=
  ∃ request ∈ (s.channels stream).sent, request.certId = cert.id.toStr

/-- **No certificate is stranded**: what is pending has been requested on the open channel
of its node. -/
def NoStranded (s : Store) : Prop :=
  ∀ cert ∈ s.db.certificates.rows, cert.status = "pending" → ∀ stream,
    s.agents cert.nodeId = some stream → (s.channels stream).opened = true →
      Requested s stream cert

/-- The call is between two of its statements. -/
def MidStep (c : Call × Phase) : Prop := c.2 ≠ .waiting ∧ c.2 ≠ .done

/-- The reports the agents send. -/
def ReportsOnly (calls : List (Call × Phase)) : Prop :=
  ∀ c ∈ calls, ∀ report now, c.1 = .applyCertStatus report now →
    report.status = "active" ∨ report.status = "failed"

/-! ### The invariant -/

/-- The call will send the request of the certificate. -/
def Owes (c : Call × Phase) (cert : Certificate) : Prop :=
  (c.2 = .querying ∧ ∃ stream, c.1 = .register cert.nodeId stream) ∨
    ∃ certs, c.2 = .dispatching certs ∧ ∃ x ∈ certs, x.id = cert.id ∧ x.nodeId = cert.nodeId

/-- **What holds between two statements.**  A pending certificate of a connected node has
been requested, or a call owes it the request. -/
def Inv (s : State Store Call Phase) : Prop :=
  ∀ cert ∈ s.store.db.certificates.rows, cert.status = "pending" → ∀ stream,
    s.store.agents cert.nodeId = some stream → (s.store.channels stream).opened = true →
      Requested s.store stream cert ∨ ∃ c ∈ s.calls, Owes c cert

theorem Owes.congr {c : Call × Phase} {cert cert' : Certificate} (h : Owes c cert)
    (hid : cert.id = cert'.id) (hnode : cert.nodeId = cert'.nodeId) : Owes c cert' := by
  rcases h with ⟨hphase, stream, hcall⟩ | ⟨certs, hphase, x, hx, hxid, hxnode⟩
  · exact Or.inl ⟨hphase, stream, hnode ▸ hcall⟩
  · exact Or.inr ⟨certs, hphase, x, hx, hxid.trans hid, hxnode.trans hnode⟩

theorem owes_dispatching {call : Call} {cert : Certificate} {certs : List Certificate}
    (h : cert ∈ certs) : Owes (call, .dispatching certs) cert :=
  Or.inr ⟨certs, rfl, cert, h, rfl, rfl⟩

/-- The pending certificate is one from before the statement, and what was requested or owed
by the call then still is. -/
structure Kept (s s' : Store) (call : Call) (phase phase' : Phase) (stream : StreamId)
    (old cert : Certificate) : Prop where
  mem : old ∈ s.db.certificates.rows
  id : old.id = cert.id
  nodeId : old.nodeId = cert.nodeId
  pending : old.status = "pending"
  connected : s.agents old.nodeId = some stream
  opened : (s.channels stream).opened = true
  requested : Requested s stream old → Requested s' stream cert
  owed : Owes (call, phase) old → Requested s' stream cert ∨ Owes (call, phase') cert

/-- A statement keeps the invariant if every pending certificate afterwards has been
requested, is owed by the call, or is kept. -/
theorem inv_of_kept {s : State Store Call Phase} {i : Nat} {call : Call} {phase phase' : Phase}
    {store' : Store} (hi : s.calls[i]? = some (call, phase)) (h : Inv s)
    (hkept : ∀ cert ∈ store'.db.certificates.rows, cert.status = "pending" → ∀ stream,
      store'.agents cert.nodeId = some stream → (store'.channels stream).opened = true →
        Owes (call, phase') cert ∨ ∃ old, Kept s.store store' call phase phase' stream old cert) :
    Inv ⟨store', s.calls.set i (call, phase')⟩ := by
  intro cert hcert hpending stream hconnected hopened
  have hself : (call, phase') ∈ s.calls.set i (call, phase') := mem_set_self hi
  rcases hkept cert hcert hpending stream hconnected hopened with howes | ⟨old, hold⟩
  · exact Or.inr ⟨_, hself, howes⟩
  · rcases h old hold.mem hold.pending stream hold.connected hold.opened with
      hrequested | ⟨c, hc, howes⟩
    · exact Or.inl (hold.requested hrequested)
    · rcases (eq_or_mem_set hi hc : c = (call, phase) ∨ c ∈ s.calls.set i (call, phase')) with
        rfl | hc
      · exact (hold.owed howes).imp_right fun howes => ⟨_, hself, howes⟩
      · exact Or.inr ⟨c, hc, howes.congr hold.id hold.nodeId⟩

/-- A call that owes nothing. -/
def OwesNothing (call : Call) (phase : Phase) : Prop := ∀ cert, ¬ Owes (call, phase) cert

theorem kept_self {s s' : Store} {call : Call} {phase phase' : Phase} {stream : StreamId}
    {cert : Certificate} (hmem : cert ∈ s.db.certificates.rows) (hpending : cert.status = "pending")
    (hconnected : s.agents cert.nodeId = some stream) (hopened : (s.channels stream).opened = true)
    (hsent : (s'.channels stream).sent = (s.channels stream).sent)
    (howes : OwesNothing call phase) : Kept s s' call phase phase' stream cert cert where
  mem := hmem
  id := rfl
  nodeId := rfl
  pending := hpending
  connected := hconnected
  opened := hopened
  requested h := by rwa [Requested, hsent]
  owed h := absurd h (howes cert)

/-- A statement that only reads. -/
theorem inv_of_read {s : State Store Call Phase} {i : Nat} {call : Call} {phase : Phase}
    (hi : s.calls[i]? = some (call, phase)) (h : Inv s) (howes : OwesNothing call phase)
    (phase' : Phase) : Inv ⟨s.store, s.calls.set i (call, phase')⟩ :=
  inv_of_kept hi h fun cert hcert hpending _ hconnected hopened =>
    Or.inr ⟨cert, kept_self hcert hpending hconnected hopened rfl howes⟩

/-- An update of a row that keeps its id and its node.  The row is not pending afterwards, or
the call owes it. -/
theorem inv_of_updateCertificate {s : State Store Call Phase} {i : Nat} {call : Call}
    {phase phase' : Phase} {store' : Store} {id : Uuid} {f : Certificate → Certificate}
    {next : Certificate → Phase} (hi : s.calls[i]? = some (call, phase)) (h : Inv s)
    (howes : OwesNothing call phase) (hid : ∀ row, (f row).id = row.id)
    (hnext : ∀ row, (f row).status = "pending" → Owes (call, next (f row)) (f row))
    (heq : updateCertificate s.store id f next = (phase', store')) :
    Inv ⟨store', s.calls.set i (call, phase')⟩ := by
  rw [updateCertificate] at heq
  split at heq
  · cases heq
    exact inv_of_read hi h howes _
  · rename_i row hrow
    cases heq
    refine inv_of_kept hi h fun cert hcert hpending stream hconnected hopened => ?_
    obtain ⟨old, hold, rfl⟩ := List.mem_map.mp hcert
    by_cases hkey : old.id = id
    · have hsame : old = row := Table.eq_of_key_eq hold (Table.mem_of_find hrow)
        (hkey.trans (Table.key_of_find hrow).symm)
      subst hsame
      have hcond : HasKey.key old = id ∧ HasKey.key (f old) = HasKey.key old := ⟨hkey, hid old⟩
      rw [if_pos hcond] at hpending ⊢
      exact Or.inl (hnext old hpending)
    · have hcond : ¬ (HasKey.key old = id ∧ HasKey.key (f old) = HasKey.key old) :=
        fun hc => hkey hc.1
      rw [if_neg hcond] at hpending hconnected ⊢
      exact Or.inr ⟨old, kept_self hold hpending hconnected hopened rfl howes⟩

theorem owesNothing {call : Call} {phase : Phase} (hquerying : phase ≠ .querying)
    (hdispatching : ∀ certs, phase ≠ .dispatching certs) : OwesNothing call phase := by
  rintro cert (⟨hphase, -⟩ | ⟨certs, hphase, -⟩)
  · exact hquerying hphase
  · exact hdispatching certs hphase

theorem agents_pushIssueRequest (s : Store) (cert : Certificate) :
    (pushIssueRequest s cert).agents = s.agents ∧ (pushIssueRequest s cert).db = s.db := by
  rw [pushIssueRequest]
  split
  · exact ⟨rfl, rfl⟩
  · split <;> exact ⟨rfl, rfl⟩

/-- A push adds to a channel and opens none. -/
theorem channels_pushIssueRequest (s : Store) (cert : Certificate) (stream : StreamId) :
    ((pushIssueRequest s cert).channels stream).opened = (s.channels stream).opened ∧
      ∀ request ∈ (s.channels stream).sent,
        request ∈ ((pushIssueRequest s cert).channels stream).sent := by
  rw [pushIssueRequest]
  split
  · exact ⟨rfl, fun _ h => h⟩
  · rename_i other _
    split
    · rename_i hopened
      by_cases hsame : stream = other
      · subst hsame
        rw [channels_setChannel_self]
        exact ⟨hopened.symm, fun _ h => List.mem_append_left _ h⟩
      · rw [channels_setChannel_of_ne s hsame]
        exact ⟨rfl, fun _ h => h⟩
    · exact ⟨rfl, fun _ h => h⟩

/-- The request goes to the open channel of the node. -/
theorem requested_pushIssueRequest {s : Store} {cert : Certificate} {stream : StreamId}
    (hconnected : s.agents cert.nodeId = some stream)
    (hopened : (s.channels stream).opened = true) :
    Requested (pushIssueRequest s cert) stream cert := by
  rw [pushIssueRequest, hconnected]
  simp only [hopened, if_true]
  rw [Requested, channels_setChannel_self]
  exact ⟨_, List.mem_append_right _ (List.mem_singleton_self _), rfl⟩

/-- The next request of a call is sent. -/
theorem inv_of_dispatch {s : State Store Call Phase} {i : Nat} {call : Call} {x : Certificate}
    {certs : List Certificate} (hi : s.calls[i]? = some (call, .dispatching (x :: certs)))
    (h : Inv s) :
    Inv ⟨pushIssueRequest s.store x, s.calls.set i (call, .dispatching certs)⟩ := by
  refine inv_of_kept hi h fun cert hcert hpending stream hconnected hopened => Or.inr ⟨cert, ?_⟩
  obtain ⟨hagents, hdb⟩ := agents_pushIssueRequest s.store x
  obtain ⟨hsame, hsent⟩ := channels_pushIssueRequest s.store x stream
  rw [hdb] at hcert
  rw [hagents] at hconnected
  rw [hsame] at hopened
  refine ⟨hcert, rfl, rfl, hpending, hconnected, hopened, ?_, ?_⟩
  · rintro ⟨request, hrequest, hid⟩
    exact ⟨request, hsent request hrequest, hid⟩
  · rintro (⟨hphase, -⟩ | ⟨owed, hphase, y, hy, hid, hnode⟩)
    · cases hphase
    · cases hphase
      rcases List.mem_cons.mp hy with rfl | hy
      · -- Now it has been requested.
        obtain ⟨request, hrequest, hrid⟩ :=
          requested_pushIssueRequest (hnode.symm ▸ hconnected) hopened
        exact Or.inl ⟨request, hrequest, hrid.trans (congrArg Uuid.toStr hid)⟩
      · exact Or.inr (Or.inr ⟨certs, rfl, y, hy, hid, hnode⟩)

/-- A new row, which the call owes. -/
theorem inv_of_insert {s : State Store Call Phase} {i : Nat} {call : Call} {phase : Phase}
    {row : Certificate} {certificates : Table Certificate}
    (hi : s.calls[i]? = some (call, phase)) (h : Inv s) (howes : OwesNothing call phase)
    (hinsert : s.store.db.certificates.insert row = some certificates) :
    Inv ⟨s.store.setCertificates certificates,
      s.calls.set i (call, .dispatching [row])⟩ := by
  refine inv_of_kept hi h fun cert hcert hpending stream hconnected hopened => ?_
  have hmem : cert ∈ certificates.rows := hcert
  rw [Table.rows_of_insert hinsert, List.mem_append, List.mem_singleton] at hmem
  rcases hmem with hold | rfl
  · exact Or.inr ⟨cert, kept_self hold hpending hconnected hopened rfl howes⟩
  · exact Or.inl (owes_dispatching (List.mem_singleton_self _))

/-- **One statement keeps the invariant.** -/
theorem inv_step {s s' : State Store Call Phase} {i : Nat} (hreports : ReportsOnly s.calls)
    (h : Inv s) (hstep : step advance s i = some s') : Inv s' := by
  obtain ⟨call, phase, phase', store', hi, hadvance, rfl⟩ := step_cases hstep
  unfold advance at hadvance
  split at hadvance
  · cases hadvance
    refine inv_of_read hi h ?_ _
    rintro cert (⟨hphase, -⟩ | ⟨certs, hphase, x, hx, -⟩)
    · cases hphase
    · cases hphase
      cases hx
  · cases hadvance
    exact inv_of_dispatch hi h
  · -- `create_certificate`, from the payload to the row.
    simp only at hadvance
    split at hadvance
    · cases hadvance
      exact inv_of_read hi h (owesNothing nofun nofun) _
    · split at hadvance <;> cases hadvance <;> exact inv_of_read hi h (owesNothing nofun nofun) _
  · split at hadvance <;> cases hadvance <;> exact inv_of_read hi h (owesNothing nofun nofun) _
  · cases hadvance
    exact inv_of_read hi h (owesNothing nofun nofun) _
  · refine inv_of_updateCertificate hi h (owesNothing nofun nofun) ?_ ?_ (Option.some.inj hadvance)
    · exact fun _ => rfl
    · exact fun _ _ => owes_dispatching (List.mem_singleton_self _)
  · simp only at hadvance
    split at hadvance
    · cases hadvance
      exact inv_of_read hi h (owesNothing nofun nofun) _
    · rename_i certificates hinsert
      cases hadvance
      exact inv_of_insert hi h (owesNothing nofun nofun) hinsert
  · -- `renew_certificate`.
    split at hadvance <;> cases hadvance <;> exact inv_of_read hi h (owesNothing nofun nofun) _
  · refine inv_of_updateCertificate hi h (owesNothing nofun nofun) ?_ ?_ (Option.some.inj hadvance)
    · exact fun _ => rfl
    · exact fun _ _ => owes_dispatching (List.mem_singleton_self _)
  · -- A registration: the node is entered, then its certificates are read.
    rename_i nodeId stream'
    cases hadvance
    refine inv_of_kept hi h fun cert hcert hpending stream hconnected hopened => ?_
    by_cases hnode : cert.nodeId = nodeId
    · exact Or.inl (Or.inl ⟨rfl, stream', by rw [hnode]⟩)
    · rw [agents_setAgent_of_ne _ hnode] at hconnected
      exact Or.inr ⟨cert, kept_self hcert hpending hconnected hopened rfl (owesNothing nofun nofun)⟩
  · rename_i nodeId stream'
    cases hadvance
    refine inv_of_kept hi h fun cert hcert hpending stream hconnected hopened => Or.inr ⟨cert, ?_⟩
    refine ⟨hcert, rfl, rfl, hpending, hconnected, hopened, id, ?_⟩
    rintro (⟨-, other, hcall⟩ | ⟨certs, hphase, -⟩)
    · cases hcall
      exact Or.inr (owes_dispatching (Table.mem_filter.mpr ⟨hcert, by simp [hpending]⟩))
    · cases hphase
  · -- A cleanup.
    rename_i nodeId
    cases hadvance
    refine inv_of_kept hi h fun cert hcert hpending stream hconnected hopened => Or.inr ⟨cert, ?_⟩
    have hnode : cert.nodeId ≠ nodeId := by
      intro heq
      rw [heq, agents_setAgent_self] at hconnected
      cases hconnected
    rw [agents_setAgent_of_ne _ hnode] at hconnected
    exact kept_self hcert hpending hconnected hopened rfl (owesNothing nofun nofun)
  · -- The end of a channel.
    rename_i closed
    cases hadvance
    refine inv_of_kept hi h fun cert hcert hpending stream hconnected hopened => Or.inr ⟨cert, ?_⟩
    have hother : stream ≠ closed := by
      intro heq
      rw [heq, channels_setChannel_self] at hopened
      cases hopened
    rw [channels_setChannel_of_ne _ hother] at hopened
    exact kept_self hcert hpending hconnected hopened
      (by rw [channels_setChannel_of_ne _ hother]) (owesNothing nofun nofun)
  · -- A status report.
    split at hadvance
    · cases hadvance
      exact inv_of_read hi h (owesNothing nofun nofun) _
    · split at hadvance <;> cases hadvance <;> exact inv_of_read hi h (owesNothing nofun nofun) _
  · rename_i report now cert
    refine inv_of_updateCertificate hi h (owesNothing nofun nofun) ?_ ?_ (Option.some.inj hadvance)
    · intro row
      rw [reportedRow]
      split <;> rfl
    · intro row hpending
      have hstatus : (reportedRow report now row).status = report.status := by
        rw [reportedRow]
        split <;> rfl
      rw [hstatus] at hpending
      rcases hreports _ (List.mem_of_getElem? hi) report now rfl with h | h <;>
        rw [h] at hpending <;> exact absurd hpending (by decide)
  · cases hadvance

theorem reportsOnly_step {s s' : State Store Call Phase} {i : Nat} (h : ReportsOnly s.calls)
    (hstep : step advance s i = some s') : ReportsOnly s'.calls := by
  obtain ⟨call, phase, phase', store', hi, -, rfl⟩ := step_cases hstep
  exact forall_mem_set h (fun _ _ hc => hc) fun report now hcall =>
    h _ (List.mem_of_getElem? hi) report now hcall

/-- **No stranded certificate.**  However the calls take turns, whenever none of them is
between two statements every pending certificate of a connected node has been requested on
the open channel of the node. -/
theorem no_stranded_certificate {store : Store} {calls : List Call} (hstart : NoStranded store)
    (hreports : ∀ report now, Call.applyCertStatus report now ∈ calls →
      report.status = "active" ∨ report.status = "failed")
    {is : List Nat} {s : State Store Call Phase}
    (hrun : run (step advance) (start .waiting store calls) is = some s)
    (hquiet : ∀ c ∈ s.calls, ¬ MidStep c) : NoStranded s.store := by
  have hinit : ReportsOnly (start .waiting store calls).calls ∧
      Inv (start .waiting store calls) := by
    refine ⟨fun c hc report now hcall => ?_, fun cert hcert hpending stream hconnected hopened =>
      Or.inl (hstart cert hcert hpending stream hconnected hopened)⟩
    obtain ⟨call, hmem, rfl⟩ := List.mem_map.mp hc
    cases hcall
    exact hreports report now hmem
  obtain ⟨-, hinv⟩ := inv_of_run (I := fun s => ReportsOnly s.calls ∧ Inv s)
    (fun _ _ _ h hstep => ⟨reportsOnly_step h.1 hstep, inv_step h.1 h.2 hstep⟩) hinit hrun
  intro cert hcert hpending stream hconnected hopened
  rcases hinv cert hcert hpending stream hconnected hopened with hrequested | ⟨c, hc, howes⟩
  · exact hrequested
  · refine absurd ?_ (hquiet c hc)
    rcases howes with ⟨hphase, -⟩ | ⟨certs, hphase, -⟩ <;> rw [MidStep, hphase] <;>
      exact ⟨nofun, nofun⟩

/-! ### A renewal beside a registration -/

namespace RenewedOffline

def nodeId : Uuid := .ofNat 1

def certificate : Certificate :=
  ⟨.ofNat 4, nodeId, "example.com", "active", "http-01", none, none, none, default⟩

/-- The node is not connected; stream 7 is open. -/
def store : Store where
  db := { certificates := .single certificate }
  agents _ := none
  channels _ := ⟨true, []⟩

def calls : List Call := [.renewCertificate certificate.id default, .register nodeId 7]

/-- The node is entered after the renewal found nobody to send its request to. -/
def turns : List Nat := [0, 0, 0, 1, 0, 1, 1, 1]

def isDone : Phase → Bool
  | .done => true
  | _ => false

theorem eq_done {phase : Phase} (h : isDone phase = true) : phase = .done := by
  cases phase <;> first | rfl | cases h

theorem noStranded_store : NoStranded store := by
  intro cert _ _ stream hconnected
  cases hconnected

end RenewedOffline

theorem no_stranded_certificate_renewed : ∃ s,
    run (step advance) (start .waiting RenewedOffline.store RenewedOffline.calls)
      RenewedOffline.turns = some s ∧ NoStranded s.store := by
  have hdone : ((run (step advance) (start .waiting RenewedOffline.store RenewedOffline.calls)
      RenewedOffline.turns).any fun s =>
        s.calls.all fun c => RenewedOffline.isDone c.2) = true := by decide
  obtain ⟨s, hs, hall⟩ := (Option.any_eq_true _ _).mp hdone
  refine ⟨s, hs, no_stranded_certificate RenewedOffline.noStranded_store
    (fun _ _ hmem => by simp [RenewedOffline.calls] at hmem) hs fun c hc hmid => ?_⟩
  exact hmid.2 (RenewedOffline.eq_done (List.all_eq_true.mp hall c hc))

end ProxyPanel.Hub.CertificateIssuance
