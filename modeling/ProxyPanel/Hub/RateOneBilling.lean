import ProxyPanel.Hub.ReportedTraffic
import ProxyPanel.Lib.Rounding

/-!
# Billing at rate 1

A node whose coefficient is 1 still multiplies: the reported bytes become a 32-bit
float, are multiplied by `1.0` and cast back.  So an entry keeps the first 24 bits of
its counts.  `billed_throughout_iff` says in which runs of reports nothing is lost.
-/

namespace ProxyPanel

namespace Hub

open Rounding

/-- `1.0` as a 32-bit float. -/
def rateOne : BitVec 32 := 0x3f800000

/-- `(bytes as f32 * 1.0) as i64`: 24 significant bits are kept, and the cast back
stops at the largest `i64`. -/
def countedAtOne (bytes : Int) : Int := min (roundBits 24 bytes.toNat) (2 ^ 63 - 1)

/-- At rate 1 counts that are not negative are converted as 32-bit floats are. -/
def CountsAtOne (countBytes : CountBytes) : Prop :=
  ∀ bytes, 0 ≤ bytes → FitsI64 bytes → countBytes rateOne bytes = countedAtOne bytes

/-- A count that the conversion keeps: 24 significant bits, or the count the cast stops at. -/
def ExactAtOne (bytes : Int) : Prop := Representable 24 bytes.toNat ∨ bytes = 2 ^ 63 - 1

instance (bytes : Int) : Decidable (ExactAtOne bytes) := inferInstanceAs (Decidable (_ ∨ _))

theorem countedAtOne_eq_iff {bytes : Int} (h : 0 ≤ bytes) (hfits : FitsI64 bytes) :
    countedAtOne bytes = bytes ↔ ExactAtOne bytes := by
  obtain ⟨n, rfl⟩ := Int.eq_ofNat_of_zero_le h
  have hround := @roundBits_eq_self_iff 24 n
  rw [FitsI64] at hfits
  rw [countedAtOne, ExactAtOne, Int.toNat_natCast, ← hround]
  by_cases hlargest : n = 2 ^ 63 - 1
  · -- rounded up to the power of two, then cut back
    have hup : roundBits 24 (2 ^ 63 - 1) = 2 ^ 63 := by decide
    rw [hlargest, hup]
    decide
  · have hcases := roundBits_cases 24 n
    omega

/-! ### Runs of reports -/

/-- A traffic report, with the ids its rows would get. -/
structure NodeReport where
  agentId : Uuid
  inbounds : List (InboundTraffic × Uuid)
  users : List (UserTraffic × Uuid)
  now : DateTime

/-- One entry for a client: what was reported and what was counted. -/
structure BilledEntry where
  nodeId : Uuid
  clientId : Uuid
  reported : Int × Int
  counted : Int × Int

/-- The database, and the entries that reports had for clients. -/
structure Billing where
  db : Db
  entries : List BilledEntry

def reportedColumns (user : UserTraffic) : Int × Int := (user.uploadBytes, user.downloadBytes)

/-- The entries of a report that are for a client. -/
def billedEntries (countBytes : CountBytes) (db : Db) (report : NodeReport) : List BilledEntry :=
  let resolved := resolveClientIds db (report.users.map (·.1.clientId))
  report.users.filterMap fun user => (resolve resolved user.1.clientId).map fun id =>
    ⟨report.agentId, id, reportedColumns user.1,
      entryColumns countBytes (nodeRate db report.agentId) user.1⟩

/-- What a report can be: the counts are 64-bit and not negative, the ids it draws new. -/
def WellReported (db : Db) (report : NodeReport) : Prop :=
  FreshRecordIds db report.users ∧ ∀ user ∈ report.users,
    (0 ≤ user.1.uploadBytes ∧ FitsI64 user.1.uploadBytes) ∧
      0 ≤ user.1.downloadBytes ∧ FitsI64 user.1.downloadBytes

instance (x : Int) : Decidable (FitsI64 x) := inferInstanceAs (Decidable (_ ∧ _))

instance (db : Db) (report : NodeReport) : Decidable (WellReported db report) :=
  inferInstanceAs (Decidable (_ ∧ _))

def billStep (countBytes : CountBytes) (s : Billing) (report : NodeReport) : Option Billing :=
  if WellReported s.db report then
    some ⟨handleTrafficReport countBytes s.db report.agentId report.inbounds report.users
        report.now,
      s.entries ++ billedEntries countBytes s.db report⟩
  else none

/-- The bytes that were reported for a client on a node. -/
def reportedFor (entries : List BilledEntry) (n id : Uuid) : Int :=
  ((entries.filter fun e => e.nodeId = n ∧ e.clientId = id).map fun e =>
    e.reported.1 + e.reported.2).sum

/-- **Billing is exact** on a node: every entry is counted as it was reported, and the usage
records of every client have grown by the bytes reported for it. -/
def Billed (n : Uuid) (start : Db) (s : Billing) : Prop :=
  (∀ e ∈ s.entries, e.nodeId = n → e.counted = e.reported) ∧
    ∀ id, nodeUsage s.db n id = nodeUsage start n id + reportedFor s.entries n id

/-- A report that is billed exactly: no count needs more than 24 bits, and no column of a
record wraps. -/
def BillsExactly (n : Uuid) (s : Billing) (report : NodeReport) : Prop :=
  report.agentId = n → ∀ id,
    (∀ user ∈ mentions s.db id report.users,
      ExactAtOne user.uploadBytes ∧ ExactAtOne user.downloadBytes) ∧
    (mentions s.db id report.users = [] ∨ ColumnsFit (hourColumns s.db n id (hourOf report.now))
      ((mentions s.db id report.users).map reportedColumns))

/-! ### The entries of a client -/

theorem reportedFor_append (entries entries' : List BilledEntry) (n id : Uuid) :
    reportedFor (entries ++ entries') n id =
      reportedFor entries n id + reportedFor entries' n id := by
  rw [reportedFor, List.filter_append, List.map_append, List.sum_append]
  rfl

/-- What a report adds for a client is what its entries for the client say. -/
theorem reportedFor_billedEntries (countBytes : CountBytes) (db : Db) (report : NodeReport)
    (n id : Uuid) : reportedFor (billedEntries countBytes db report) n id =
      if report.agentId = n then
        ((mentions db id report.users).map fun u => u.uploadBytes + u.downloadBytes).sum
      else 0 := by
  rw [billedEntries, mentions]
  generalize resolveClientIds db (report.users.map (·.1.clientId)) = resolved
  generalize nodeRate db report.agentId = rate
  induction report.users with
  | nil => split <;> rfl
  | cons u us ih =>
    rw [List.filterMap_cons, List.map_cons, List.filter_cons]
    cases hr : resolve resolved u.1.clientId with
    | none =>
      simp only [Option.map_none, reduceCtorEq, decide_false, Bool.false_eq_true, if_false]
      exact ih
    | some clientId =>
      simp only [Option.map_some, Option.some.injEq]
      rw [reportedFor, List.filter_cons]
      rw [reportedFor] at ih
      by_cases hn : report.agentId = n
      · by_cases hid : clientId = id
        · simp only [hn, hid, and_self, decide_true, if_true, List.map_cons, List.sum_cons]
          rw [hn, if_pos rfl] at ih
          exact congrArg _ ih
        · simp only [hn, hid, and_false, decide_false, Bool.false_eq_true, if_false, if_true]
          rw [hn, if_pos rfl] at ih
          exact ih
      · simp only [hn, false_and, decide_false, Bool.false_eq_true, if_false]
        rw [if_neg hn] at ih
        exact ih

/-- The entries of a report, by client. -/
theorem forall_billedEntries_iff {countBytes : CountBytes} {db : Db} {report : NodeReport}
    {p : Uuid → Int × Int → Int × Int → Prop} :
    (∀ e ∈ billedEntries countBytes db report, p e.nodeId e.counted e.reported) ↔
      ∀ id, ∀ user ∈ mentions db id report.users, p report.agentId
        (entryColumns countBytes (nodeRate db report.agentId) user) (reportedColumns user) := by
  constructor
  · intro h id user huser
    obtain ⟨hmem, hresolve⟩ := List.mem_filter.mp huser
    obtain ⟨u, hu, rfl⟩ := List.mem_map.mp hmem
    refine h ⟨report.agentId, id, _, _⟩ (List.mem_filterMap.mpr ⟨u, hu, ?_⟩)
    rw [of_decide_eq_true hresolve]
    rfl
  · intro h e he
    obtain ⟨u, hu, hentry⟩ := List.mem_filterMap.mp he
    obtain ⟨id, hid, rfl⟩ := Option.map_eq_some_iff.mp hentry
    exact h id u.1 (List.mem_filter.mpr ⟨List.mem_map_of_mem hu, decide_eq_true hid⟩)

/-! ### The records of another node -/

theorem nodeUsage_upsertUsage_of_node_ne {db : Db} {newId n m clientId : Uuid} {hour : DateTime}
    {rate : BitVec 32} {upload download : Int} (hnew : db.nodeUserUsageRecords.find newId = none)
    (hne : m ≠ n) (id : Uuid) :
    nodeUsage (upsertUsage db m clientId hour rate upload download newId) n id =
      nodeUsage db n id := by
  have hzero : ∀ r : NodeUserUsageRecord, r.nodeId = m → usageOn n id r = 0 :=
    fun r hr => if_neg fun h => hne (hr.symm.trans h.1)
  rw [nodeUsage, nodeUsage]
  cases hone : db.nodeUserUsageRecords.one (isUsageRecord m clientId hour) with
  | some record =>
    obtain ⟨hmem, hrecord⟩ := Table.one_eq_some hone
    have hfind : db.nodeUserUsageRecords.find record.id = some record :=
      Table.find_eq_some_iff.mpr ⟨hmem, rfl⟩
    have hsum := Table.sum_update (f := addUsage record upload download) hfind rfl (usageOn n id)
    have hnode : record.nodeId = m := (of_decide_eq_true hrecord).1
    rw [hzero record hnode, hzero (addUsage record upload download record) hnode,
      Int.add_zero, Int.add_zero] at hsum
    rw [records_upsertUsage_of_some hone]
    exact hsum
  | none =>
    rw [rows_upsertUsage_of_none hnew hone, List.map_append, List.sum_append, List.map_singleton,
      List.sum_singleton, hzero _ rfl, Int.add_zero]

/-- A report of another node leaves the records of this one. -/
theorem nodeUsage_handleTraffic_of_ne (countBytes : CountBytes) {db : Db} {m n : Uuid}
    (hne : m ≠ n) {users : List (UserTraffic × Uuid)} (hour : DateTime)
    (hfresh : FreshRecordIds db users) (id : Uuid) :
    nodeUsage (handleTraffic countBytes db m users hour) n id = nodeUsage db n id := by
  rw [handleTraffic]
  generalize resolveClientIds db (users.map (·.1.clientId)) = resolved
  generalize db.clients = clients
  generalize nodeRate db m = rate
  induction users generalizing db with
  | nil => rfl
  | cons u us ih =>
    obtain ⟨hnodup, hnone⟩ := hfresh
    rw [List.map_cons, List.nodup_cons] at hnodup
    have hu := hnone u List.mem_cons_self
    rw [List.foldl_cons, handleUserTraffic]
    cases resolve resolved u.1.clientId with
    | none => exact ih ⟨hnodup.2, fun v hv => hnone v (List.mem_cons_of_mem u hv)⟩
    | some clientId =>
      rw [ih]
      · rw [(usage_countTraffic _ _ _ _ n id hour).2, nodeUsage_upsertUsage_of_node_ne hu hne]
      · refine ⟨hnodup.2, fun v hv => ?_⟩
        rw [nodeUserUsageRecords_countTraffic]
        refine find_upsertUsage_eq_none (hnone v (List.mem_cons_of_mem u hv)) ?_ _ _ _ _ _ _
        exact fun he => hnodup.1 (he ▸ List.mem_map_of_mem hv)

/-! ### One report -/

theorem nodes_handleTraffic (countBytes : CountBytes) (db : Db) (m : Uuid)
    (users : List (UserTraffic × Uuid)) (hour : DateTime) :
    (handleTraffic countBytes db m users hour).nodes = db.nodes := by
  rw [handleTraffic]
  generalize resolveClientIds db (users.map (·.1.clientId)) = resolved
  generalize db.clients = clients
  generalize nodeRate db m = rate
  induction users generalizing db with
  | nil => rfl
  | cons u us ih =>
    rw [List.foldl_cons, ih, handleUserTraffic]
    cases resolve resolved u.1.clientId with
    | none => rfl
    | some clientId =>
      have hcount : ∀ d prefetched up down,
          (countTraffic d prefetched up down).nodes = d.nodes := by
        intro d prefetched up down
        cases prefetched with
        | none => rfl
        | some c =>
          simp only [countTraffic]
          split <;> rfl
      simp only
      rw [hcount, upsertUsage]
      split <;> rfl

/-- A report does not change the rate of a node. -/
theorem nodeRate_billStep {countBytes : CountBytes} {s s' : Billing} {report : NodeReport}
    (h : billStep countBytes s report = some s') (n : Uuid) :
    nodeRate s'.db n = nodeRate s.db n := by
  obtain ⟨records, hinbounds⟩ :=
    handleInbounds_writes s.db report.agentId report.inbounds (hourOf report.now)
  rw [billStep] at h
  split at h
  · cases h
    rw [nodeRate, nodeRate, handleTrafficReport, nodes_handleTraffic, hinbounds]
  · cases h

section Step

variable {countBytes : CountBytes} (hcounts : ∀ rate bytes, FitsI64 (countBytes rate bytes))
  (hone : CountsAtOne countBytes)

include hone in
/-- At rate 1 the columns of an entry are those that were reported if the conversion keeps
both, and only then. -/
theorem entryColumns_eq_iff {user : UserTraffic}
    (hup : 0 ≤ user.uploadBytes ∧ FitsI64 user.uploadBytes)
    (hdown : 0 ≤ user.downloadBytes ∧ FitsI64 user.downloadBytes) :
    entryColumns countBytes rateOne user = reportedColumns user ↔
      ExactAtOne user.uploadBytes ∧ ExactAtOne user.downloadBytes := by
  rw [entryColumns, reportedColumns, Prod.mk.injEq, hone _ hup.1 hup.2, hone _ hdown.1 hdown.2,
    countedAtOne_eq_iff hup.1 hup.2, countedAtOne_eq_iff hdown.1 hdown.2]

include hcounts hone in
/-- **One report keeps billing exact if and only if it is billed exactly.** -/
theorem billed_step {n : Uuid} {start : Db} {s s' : Billing} {report : NodeReport}
    (hrate : nodeRate s.db n = rateOne) (hs : Billed n start s)
    (h : billStep countBytes s report = some s') :
    Billed n start s' ↔ BillsExactly n s report := by
  obtain ⟨records, hinbounds⟩ :=
    handleInbounds_writes s.db report.agentId report.inbounds (hourOf report.now)
  obtain ⟨agentId, inbounds, users, now⟩ := report
  rw [billStep] at h
  split at h
  case isFalse => cases h
  case isTrue hwell =>
  obtain ⟨hfresh, hcolumns⟩ := hwell
  cases h
  rw [Billed, BillsExactly, handleTrafficReport, hinbounds]
  simp only [List.forall_mem_append, reportedFor_append, reportedFor_billedEntries]
  by_cases hn : agentId = n
  · subst hn
    have hentries := @forall_billedEntries_iff countBytes s.db ⟨agentId, inbounds, users, now⟩
      fun m counted reported => m = agentId → counted = reported
    have hexact : ∀ id, ∀ user ∈ mentions s.db id users,
        (entryColumns countBytes (nodeRate s.db agentId) user = reportedColumns user ↔
          ExactAtOne user.uploadBytes ∧ ExactAtOne user.downloadBytes) := by
      intro id user huser
      obtain ⟨u, hu, rfl⟩ := List.mem_map.mp (List.mem_filter.mp huser).1
      rw [hrate]
      exact entryColumns_eq_iff hone (hcolumns u hu).1 (hcolumns u hu).2
    -- with exact entries the records grow as reported if no column wraps
    have hgrowth : ∀ id, (∀ user ∈ mentions s.db id users,
        entryColumns countBytes (nodeRate s.db agentId) user = reportedColumns user) →
        (nodeUsage (handleTraffic countBytes { s.db with trafficRecords := records } agentId users
            (hourOf now)) agentId id =
            nodeUsage start agentId id + (reportedFor s.entries agentId id +
              ((mentions s.db id users).map fun u => u.uploadBytes + u.downloadBytes).sum) ↔
          mentions s.db id users = [] ∨ ColumnsFit (hourColumns s.db agentId id (hourOf now))
            ((mentions s.db id users).map reportedColumns)) := by
      intro id hall
      have hbytes : reportedBytes countBytes s.db agentId id users =
          ((mentions s.db id users).map fun u => u.uploadBytes + u.downloadBytes).sum := by
        refine congrArg List.sum (List.map_congr_left fun user huser => ?_)
        have hcounted := hall user huser
        exact congrArg (fun columns : Int × Int => columns.1 + columns.2) hcounted
      have husage := @nodeUsage_handleTraffic_iff countBytes hcounts
        { s.db with trafficRecords := records } agentId id users (hourOf now) hfresh
      rw [← List.map_congr_left hall, ← Int.add_assoc, ← hs.2 id, ← hbytes]
      exact husage
    rw [and_congr_left' (and_iff_right hs.1)]
    simp only [if_true, forall_const]
    constructor
    · rintro ⟨hcounted, hsum⟩ id
      have hall : ∀ user ∈ mentions s.db id users,
          entryColumns countBytes (nodeRate s.db agentId) user = reportedColumns user :=
        fun user huser => hentries.mp hcounted id user huser rfl
      exact ⟨fun user huser => (hexact id user huser).mp (hall user huser),
        (hgrowth id hall).mp (hsum id)⟩
    · intro h
      have hall : ∀ id, ∀ user ∈ mentions s.db id users,
          entryColumns countBytes (nodeRate s.db agentId) user = reportedColumns user :=
        fun id user huser => (hexact id user huser).mpr ((h id).1 user huser)
      exact ⟨hentries.mpr fun id user huser _ => hall id user huser,
        fun id => (hgrowth id (hall id)).mpr (h id).2⟩
  · refine iff_of_true ⟨⟨hs.1, fun e he hnode => ?_⟩, fun id => ?_⟩ fun he => absurd he hn
    · obtain ⟨u, -, hentry⟩ := List.mem_filterMap.mp he
      obtain ⟨id, -, rfl⟩ := Option.map_eq_some_iff.mp hentry
      exact absurd hnode hn
    · have hkeeps := @nodeUsage_handleTraffic_of_ne countBytes
        { s.db with trafficRecords := records } agentId n hn users (hourOf now) hfresh id
      rw [if_neg hn, Int.add_zero, ← hs.2 id]
      exact hkeeps

include hcounts hone in
/-- **Billing at rate 1 over runs.**  From any state of the hub on, billing on the node is
exact at every point of a run of reports if and only if every report is billed exactly. -/
theorem billed_throughout_iff {n : Uuid} {db : Db} {reports : List NodeReport}
    (hrate : nodeRate db n = rateOne)
    (hrun : (Run.run (billStep countBytes) ⟨db, []⟩ reports).isSome) :
    (∀ reports' s, reports' <+: reports →
        Run.run (billStep countBytes) ⟨db, []⟩ reports' = some s → Billed n db s) ↔
      Run.Guarded (billStep countBytes) (BillsExactly n) ⟨db, []⟩ reports := by
  have hkeepsRate : ∀ s report s', nodeRate s.db n = rateOne →
      billStep countBytes s report = some s' → nodeRate s'.db n = rateOne :=
    fun s report s' hs h => (nodeRate_billStep h n).trans hs
  have hstart : nodeRate db n = rateOne ∧ Billed n db ⟨db, []⟩ :=
    ⟨hrate, nofun, fun id => (Int.add_zero _).symm⟩
  have hiff := Run.forall_prefix_iff_guarded (I := fun s : Billing =>
    nodeRate s.db n = rateOne ∧ Billed n db s) (fun s report s' hs h =>
      (and_iff_right (hkeepsRate s report s' hs.1 h)).trans
        (billed_step hcounts hone hs.1 hs.2 h)) hstart hrun
  rw [← hiff]
  constructor
  · intro h reports' s hprefix hs
    exact ⟨Run.inv_of_run (I := fun s : Billing => nodeRate s.db n = rateOne) hkeepsRate hrate hs,
      h reports' s hprefix hs⟩
  · exact fun h reports' s hprefix hs => (h reports' s hprefix hs).2

end Step

/-! ### A download of 16 MiB and one byte -/

namespace LargeDownload

/-- The conversion of 32-bit floats at rate 1. -/
def countBytes : CountBytes := fun _ bytes =>
  if 0 ≤ bytes then countedAtOne bytes else max (-2 ^ 63) (-roundBits 24 (-bytes).toNat)

theorem fitsI64_countBytes (rate : BitVec 32) (bytes : Int) : FitsI64 (countBytes rate bytes) := by
  simp only [FitsI64, countBytes, countedAtOne]
  split <;> omega

theorem countsAtOne : CountsAtOne countBytes := fun _ h _ => if_pos h

def db : Db where
  nodes := .single TwoHours.node
  clients := .single ManualReset.client

theorem nodeRate_db : nodeRate db TwoHours.node.id = rateOne := by decide

/-- One report of a download by the client. -/
def report (record : Nat) (download : Int) : NodeReport where
  agentId := TwoHours.node.id
  inbounds := []
  users := [(⟨"erin@example.com", 0, download⟩, .ofNat record)]
  now := TwoHours.hours 5

end LargeDownload

/-- **The last byte is lost**: 16777217 bytes are counted as 16777216. -/
theorem large_download_loses_byte :
    nodeRate LargeDownload.db TwoHours.node.id = rateOne ∧ ∃ s,
      Run.run (billStep LargeDownload.countBytes) ⟨LargeDownload.db, []⟩
          [LargeDownload.report 4 16777217] = some s ∧
        ¬ Billed TwoHours.node.id LargeDownload.db s := by
  refine ⟨LargeDownload.nodeRate_db, _, rfl, fun h => ?_⟩
  have hsum := h.2 ManualReset.client.id
  revert hsum
  decide

theorem billed_throughout_iff_large :
    (∀ reports' s, reports' <+: [LargeDownload.report 4 16777216, LargeDownload.report 5 100] →
        Run.run (billStep LargeDownload.countBytes) ⟨LargeDownload.db, []⟩ reports' = some s →
          Billed TwoHours.node.id LargeDownload.db s) ↔
      Run.Guarded (billStep LargeDownload.countBytes) (BillsExactly TwoHours.node.id)
        ⟨LargeDownload.db, []⟩ [LargeDownload.report 4 16777216, LargeDownload.report 5 100] :=
  billed_throughout_iff LargeDownload.fitsI64_countBytes LargeDownload.countsAtOne
    LargeDownload.nodeRate_db (by decide)

end Hub

end ProxyPanel
