import ProxyPanel.Hub.TrafficRecords
import ProxyPanel.Hub.UsageAgreement

/-!
# What one traffic report counts

A report may have several entries for one client.  The usage record of the hour is read
again for each of them, the counter of the client is not: it starts from the row that was
read before the loop.  `reportCounted_iff` says for which reports the counter and the
records of every client grow by what was reported.
-/

namespace ProxyPanel

namespace Hub

/-- What a record counts for a client on a node. -/
def usageOn (n id : Uuid) (r : NodeUserUsageRecord) : Int :=
  if r.nodeId = n ∧ r.clientId = id then r.uploadBytes + r.downloadBytes else 0

/-- The usage of a client on a node, over all its records. -/
def nodeUsage (db : Db) (n id : Uuid) : Int :=
  (db.nodeUserUsageRecords.rows.map (usageOn n id)).sum

/-- The bytes that the entries of a report count for a client. -/
def reportedBytes (countBytes : CountBytes) (db : Db) (n id : Uuid)
    (users : List (UserTraffic × Uuid)) : Int :=
  ((mentions db id users).map (countedBytes countBytes (nodeRate db n))).sum

/-- **A report is counted**: the counter and the records of every client that is not on
hold grow by all that was reported for it, and nothing else of a client changes. -/
def ReportCounted (countBytes : CountBytes) (db : Db) (n : Uuid)
    (users : List (UserTraffic × Uuid)) (after : Db) : Prop :=
  ∀ id, match db.clients.find id with
    | none => after.clients.find id = none
    | some c =>
      if c.status = "on_hold" then after.clients.find id = some c
      else
        after.clients.find id = some { c with
          trafficUsedBytes := c.trafficUsedBytes + reportedBytes countBytes db n id users } ∧
        nodeUsage after n id = nodeUsage db n id + reportedBytes countBytes db n id users

/-! ### The record of the hour -/

def isUsageRecord (n id : Uuid) (hour : DateTime) (r : NodeUserUsageRecord) : Bool :=
  r.nodeId = n ∧ r.clientId = id ∧ r.hourBucket = hour

/-- The two columns of the record of a client on a node in an hour. -/
def hourColumns (db : Db) (n id : Uuid) (hour : DateTime) : Option (Int × Int) :=
  (db.nodeUserUsageRecords.one (isUsageRecord n id hour)).map fun r =>
    (r.uploadBytes, r.downloadBytes)

/-- One entry on top of what the record has. -/
def addColumns (columns : Option (Int × Int)) (v : Int × Int) : Option (Int × Int) :=
  match columns with
  | none => some v
  | some w => some (addI64 w.1 v.1, addI64 w.2 v.2)

/-- The sum of the columns; a record that does not exist counts nothing. -/
def columnsSum (columns : Option (Int × Int)) : Int :=
  (columns.getD (0, 0)).1 + (columns.getD (0, 0)).2

theorem usageOn_of_isUsageRecord {n id : Uuid} {hour : DateTime} {r : NodeUserUsageRecord}
    (h : isUsageRecord n id hour r = true) : usageOn n id r = r.uploadBytes + r.downloadBytes := by
  obtain ⟨hnode, hclient, -⟩ := of_decide_eq_true h
  exact if_pos ⟨hnode, hclient⟩

/-- A record after one more entry. -/
def addUsage (record : NodeUserUsageRecord) (upload download : Int) (r : NodeUserUsageRecord) :
    NodeUserUsageRecord :=
  { r with
    uploadBytes := addI64 record.uploadBytes upload
    downloadBytes := addI64 record.downloadBytes download }

section Upsert

variable {db : Db} {newId n clientId : Uuid} {hour : DateTime} {rate : BitVec 32}
  {upload download : Int}

theorem records_upsertUsage_of_some {record : NodeUserUsageRecord}
    (h : db.nodeUserUsageRecords.one (isUsageRecord n clientId hour) = some record) :
    (upsertUsage db n clientId hour rate upload download newId).nodeUserUsageRecords =
      db.nodeUserUsageRecords.update record.id (addUsage record upload download) := by
  have hone : (db.nodeUserUsageRecords.one fun r =>
      r.nodeId = n ∧ r.clientId = clientId ∧ r.hourBucket = hour) = some record := h
  simp only [upsertUsage, hone]
  rfl

theorem rows_upsertUsage_of_none (hnew : db.nodeUserUsageRecords.find newId = none)
    (h : db.nodeUserUsageRecords.one (isUsageRecord n clientId hour) = none) :
    (upsertUsage db n clientId hour rate upload download newId).nodeUserUsageRecords.rows =
      db.nodeUserUsageRecords.rows ++ [⟨newId, n, clientId, hour, upload, download, rate⟩] := by
  have hone : (db.nodeUserUsageRecords.one fun r =>
      r.nodeId = n ∧ r.clientId = clientId ∧ r.hourBucket = hour) = none := h
  have hfresh : key (⟨newId, n, clientId, hour, upload, download, rate⟩ :
      NodeUserUsageRecord) ∉ db.nodeUserUsageRecords.rows.map key := by
    intro h
    obtain ⟨r, hr, hkey⟩ := List.mem_map.mp h
    exact Table.find_eq_none_iff.mp hnew r hr hkey
  obtain ⟨records, hinsert, hrows⟩ := Table.insert_of_fresh hfresh
  simp only [upsertUsage, hone, hinsert, Option.getD_some]
  exact hrows

/-- An entry for the client adds to its record of the hour, and to no other record. -/
theorem usage_upsertUsage_self (hnew : db.nodeUserUsageRecords.find newId = none) :
    let db' := upsertUsage db n clientId hour rate upload download newId
    hourColumns db' n clientId hour =
        addColumns (hourColumns db n clientId hour) (upload, download) ∧
      nodeUsage db' n clientId + columnsSum (hourColumns db n clientId hour) =
        nodeUsage db n clientId + columnsSum (hourColumns db' n clientId hour) := by
  intro db'
  rw [hourColumns, hourColumns, nodeUsage, nodeUsage]
  cases hone : db.nodeUserUsageRecords.one (isUsageRecord n clientId hour) with
  | some record =>
    obtain ⟨hmem, hrecord⟩ := Table.one_eq_some hone
    have hdb' : db'.nodeUserUsageRecords =
        db.nodeUserUsageRecords.update record.id (addUsage record upload download) :=
      records_upsertUsage_of_some hone
    have hfind : db.nodeUserUsageRecords.find record.id = some record :=
      Table.find_eq_some_iff.mpr ⟨hmem, rfl⟩
    have hsum := Table.sum_update (f := addUsage record upload download) hfind rfl
      (usageOn n clientId)
    have hadded : usageOn n clientId (addUsage record upload download record) =
        addI64 record.uploadBytes upload + addI64 record.downloadBytes download :=
      @usageOn_of_isUsageRecord n clientId hour _ hrecord
    have hone' : db'.nodeUserUsageRecords.one (isUsageRecord n clientId hour) =
        some (addUsage record upload download record) := by
      rw [hdb', Table.one_update (f := addUsage record upload download) (fun _ => rfl)
        (fun _ => rfl), hone, Option.map_some]
      exact congrArg some (if_pos rfl)
    rw [usageOn_of_isUsageRecord hrecord, hadded] at hsum
    rw [hone', hdb']
    exact ⟨rfl, hsum⟩
  | none =>
    have hrows : db'.nodeUserUsageRecords.rows = db.nodeUserUsageRecords.rows ++
        [⟨newId, n, clientId, hour, upload, download, rate⟩] := rows_upsertUsage_of_none hnew hone
    have hone' : db'.nodeUserUsageRecords.one (isUsageRecord n clientId hour) =
        some ⟨newId, n, clientId, hour, upload, download, rate⟩ := by
      rw [Table.one] at hone ⊢
      rw [hrows, List.find?_append, hone, Option.none_or, List.find?_cons_of_pos]
      exact decide_eq_true ⟨rfl, rfl, rfl⟩
    rw [hone', hrows, List.map_append, List.sum_append, List.map_singleton, List.sum_singleton,
      usageOn, if_pos ⟨rfl, rfl⟩]
    exact ⟨rfl, Int.add_zero _⟩

/-- An entry for another client changes nothing for this one. -/
theorem usage_upsertUsage_of_ne (hnew : db.nodeUserUsageRecords.find newId = none) {id : Uuid}
    (hne : clientId ≠ id) :
    let db' := upsertUsage db n clientId hour rate upload download newId
    hourColumns db' n id hour = hourColumns db n id hour ∧
      nodeUsage db' n id = nodeUsage db n id := by
  intro db'
  rw [hourColumns, hourColumns, nodeUsage, nodeUsage]
  cases hone : db.nodeUserUsageRecords.one (isUsageRecord n clientId hour) with
  | some record =>
    obtain ⟨hmem, hrecord⟩ := Table.one_eq_some hone
    obtain ⟨-, hclient, -⟩ := of_decide_eq_true hrecord
    have hdb' : db'.nodeUserUsageRecords =
        db.nodeUserUsageRecords.update record.id (addUsage record upload download) :=
      records_upsertUsage_of_some hone
    have hfind : db.nodeUserUsageRecords.find record.id = some record :=
      Table.find_eq_some_iff.mpr ⟨hmem, rfl⟩
    have hzero : ∀ r : NodeUserUsageRecord, r.clientId = clientId → usageOn n id r = 0 :=
      fun r hr => if_neg fun h => hne (hr.symm.trans h.2)
    rw [hdb']
    constructor
    · rw [Table.one_update (f := addUsage record upload download) (fun _ => rfl) (fun _ => rfl),
        Option.map_map]
      cases hmine : db.nodeUserUsageRecords.one (isUsageRecord n id hour) with
      | none => rfl
      | some r =>
        obtain ⟨hr, hrid⟩ := Table.one_eq_some hmine
        have hother : key r ≠ record.id := by
          intro hkey
          rw [Table.eq_of_key_eq hr hmem hkey] at hrid
          exact hne (hclient.symm.trans (of_decide_eq_true hrid).2.1)
        simp only [Option.map_some, Function.comp, if_neg hother]
    · have hsum := Table.sum_update (f := addUsage record upload download) hfind rfl
        (usageOn n id)
      rw [hzero record hclient, hzero (addUsage record upload download record) hclient,
        Int.add_zero, Int.add_zero] at hsum
      exact hsum
  | none =>
    have hrows : db'.nodeUserUsageRecords.rows = db.nodeUserUsageRecords.rows ++
        [⟨newId, n, clientId, hour, upload, download, rate⟩] := rows_upsertUsage_of_none hnew hone
    rw [Table.one, Table.one, hrows]
    constructor
    · rw [List.find?_append, List.find?_cons_of_neg, List.find?_nil, Option.or_none]
      intro h
      exact hne (of_decide_eq_true h).2.1
    · rw [List.map_append, List.sum_append, List.map_singleton, List.sum_singleton, usageOn,
        if_neg fun h => hne h.2, Int.add_zero]

end Upsert

/-! ### The entries of a report -/

/-- The counted bytes of an entry, by column. -/
def entryColumns (countBytes : CountBytes) (rate : BitVec 32) (user : UserTraffic) : Int × Int :=
  (countBytes rate user.uploadBytes, countBytes rate user.downloadBytes)

theorem usage_countTraffic (db : Db) (prefetched : Option Client) (upload download : Int)
    (n id : Uuid) (hour : DateTime) :
    hourColumns (countTraffic db prefetched upload download) n id hour = hourColumns db n id hour ∧
      nodeUsage (countTraffic db prefetched upload download) n id = nodeUsage db n id := by
  rw [hourColumns, hourColumns, nodeUsage, nodeUsage, nodeUserUsageRecords_countTraffic]
  exact ⟨rfl, rfl⟩

/-- **All entries of a client are added to its record of the hour.** -/
theorem usage_handleTraffic (countBytes : CountBytes) {db : Db} (n id : Uuid)
    {users : List (UserTraffic × Uuid)} (hour : DateTime) (hfresh : FreshRecordIds db users) :
    let db' := handleTraffic countBytes db n users hour
    hourColumns db' n id hour = ((mentions db id users).map
        (entryColumns countBytes (nodeRate db n))).foldl addColumns (hourColumns db n id hour) ∧
      nodeUsage db' n id + columnsSum (hourColumns db n id hour) =
        nodeUsage db n id + columnsSum (hourColumns db' n id hour) := by
  simp only
  rw [handleTraffic, mentions]
  generalize resolveClientIds db (users.map (·.1.clientId)) = resolved
  generalize db.clients = clients
  generalize nodeRate db n = rate
  induction users generalizing db with
  | nil => exact ⟨rfl, rfl⟩
  | cons u us ih =>
    obtain ⟨hnodup, hnone⟩ := hfresh
    rw [List.map_cons, List.nodup_cons] at hnodup
    have hu := hnone u List.mem_cons_self
    rw [List.foldl_cons, List.map_cons, List.filter_cons, handleUserTraffic]
    cases hr : resolve resolved u.1.clientId with
    | none =>
      simp only [reduceCtorEq, decide_false, Bool.false_eq_true, if_false]
      exact ih ⟨hnodup.2, fun v hv => hnone v (List.mem_cons_of_mem u hv)⟩
    | some clientId =>
      simp only [Option.some.injEq]
      generalize hnext : countTraffic (upsertUsage db n clientId hour rate
        (countBytes rate u.1.uploadBytes) (countBytes rate u.1.downloadBytes) u.2)
        (clients.find clientId) (countBytes rate u.1.uploadBytes)
        (countBytes rate u.1.downloadBytes) = next
      have hfreshNext : FreshRecordIds next us := by
        refine ⟨hnodup.2, fun v hv => ?_⟩
        rw [← hnext, nodeUserUsageRecords_countTraffic]
        refine find_upsertUsage_eq_none (hnone v (List.mem_cons_of_mem u hv)) ?_ _ _ _ _ _ _
        exact fun he => hnodup.1 (he ▸ List.mem_map_of_mem hv)
      obtain ⟨hcolumns, hgrowth⟩ := ih hfreshNext
      have hcount := usage_countTraffic (upsertUsage db n clientId hour rate
        (countBytes rate u.1.uploadBytes) (countBytes rate u.1.downloadBytes) u.2)
        (clients.find clientId) (countBytes rate u.1.uploadBytes)
        (countBytes rate u.1.downloadBytes) n id hour
      rw [hnext] at hcount
      by_cases hid : clientId = id
      · subst hid
        have hone := @usage_upsertUsage_self db u.2 n clientId hour rate
          (countBytes rate u.1.uploadBytes) (countBytes rate u.1.downloadBytes) hu
        simp only at hone
        rw [← hcount.1, ← hcount.2] at hone
        simp only [decide_true, if_true, List.map_cons, List.foldl_cons, entryColumns]
        rw [← hone.1]
        refine ⟨hcolumns, ?_⟩
        have hfirst := hone.2
        omega
      · have hone := @usage_upsertUsage_of_ne db u.2 n clientId hour rate
          (countBytes rate u.1.uploadBytes) (countBytes rate u.1.downloadBytes) hu id hid
        simp only at hone
        rw [← hcount.1, ← hcount.2] at hone
        simp only [hid, decide_false, Bool.false_eq_true, if_false]
        rw [← hone.1, ← hone.2]
        exact ⟨hcolumns, hgrowth⟩

/-- The columns of the record after the entries, without the wrap of 64 bits. -/
def columnsAfter (columns : Option (Int × Int)) (entries : List (Int × Int)) : Int × Int :=
  ((columns.getD (0, 0)).1 + (entries.map (·.1)).sum,
    (columns.getD (0, 0)).2 + (entries.map (·.2)).sum)

theorem foldl_addColumns {entries : List (Int × Int)}
    (hentries : ∀ v ∈ entries, FitsI64 v.1 ∧ FitsI64 v.2) (hne : entries ≠ [])
    (columns : Option (Int × Int)) : entries.foldl addColumns columns =
      some ((columnsAfter columns entries).1.bmod (2 ^ 64),
        (columnsAfter columns entries).2.bmod (2 ^ 64)) := by
  induction entries using List.reverseRecOn with
  | nil => exact absurd rfl hne
  | append_singleton entries v ih =>
    rw [List.foldl_append, List.foldl_cons, List.foldl_nil, columnsAfter]
    simp only [List.map_append, List.map_singleton, List.sum_append, List.sum_singleton]
    by_cases hnil : entries = []
    · subst hnil
      obtain ⟨hup, hdown⟩ := hentries v (List.mem_singleton_self v)
      cases columns with
      | none =>
        simp only [List.foldl_nil, addColumns, Option.getD_none, List.map_nil, List.sum_nil,
          Int.zero_add, bmod_eq_self_iff.mpr hup, bmod_eq_self_iff.mpr hdown]
      | some w =>
        simp only [List.foldl_nil, addColumns, Option.getD_some, List.map_nil, List.sum_nil,
          Int.zero_add, addI64]
    · rw [ih (fun w hw => hentries w (List.mem_append_left _ hw)) hnil, addColumns, columnsAfter]
      simp only [addI64, Int.bmod_add_bmod, Int.add_assoc]

/-! ### Which reports are counted -/

/-- The two columns of the record keep their sum: neither wraps. -/
def ColumnsFit (columns : Option (Int × Int)) (entries : List (Int × Int)) : Prop :=
  let after := columnsAfter columns entries
  after.1.bmod (2 ^ 64) + after.2.bmod (2 ^ 64) = after.1 + after.2

/-- One entry of the report counts for a client: those before the last add up to nothing,
and the sums fit in 64 bits. -/
def OneEntryCounts (countBytes : CountBytes) (db : Db) (n : Uuid)
    (users : List (UserTraffic × Uuid)) (hour : DateTime) (id : Uuid) (c : Client) : Prop :=
  let entries := mentions db id users
  let bytes := countedBytes countBytes (nodeRate db n)
  entries = [] ∨
    2 ^ 64 ∣ (entries.dropLast.map bytes).sum ∧
      FitsI64 (c.trafficUsedBytes + (entries.map bytes).sum) ∧
      ColumnsFit (hourColumns db n id hour)
        (entries.map (entryColumns countBytes (nodeRate db n)))

/-- A counter that starts over at the last entry. -/
theorem bmod_add_last_iff {used before last : Int} :
    (used + last).bmod (2 ^ 64) = used + (before + last) ↔
      2 ^ 64 ∣ before ∧ FitsI64 (used + (before + last)) := by
  have hshift : used + (before + last) = (used + last) + before := by omega
  constructor
  · intro h
    have hfits : FitsI64 (used + (before + last)) := by
      rw [← bmod_eq_self_iff, ← h, Int.bmod_bmod]
    have hdiv := Int.dvd_bmod_sub_self (x := used + last) (m := 2 ^ 64)
    rw [h, hshift, Int.add_comm (used + last), Int.add_sub_cancel] at hdiv
    exact ⟨hdiv, hfits⟩
  · rintro ⟨⟨k, rfl⟩, hfits⟩
    rw [← bmod_eq_self_iff.mpr hfits, hshift]
    exact (Int.add_mul_bmod_self_left (used + last) (2 ^ 64) k).symm

theorem sum_countedBytes (countBytes : CountBytes) (rate : BitVec 32) (entries : List UserTraffic) :
    (entries.map (countedBytes countBytes rate)).sum =
      ((entries.map (entryColumns countBytes rate)).map (·.1)).sum +
        ((entries.map (entryColumns countBytes rate)).map (·.2)).sum := by
  induction entries with
  | nil => rfl
  | cons u us ih =>
    simp only [List.map_cons, List.sum_cons]
    rw [ih, countedBytes, entryColumns]
    omega

/-- The counter of a client. -/
theorem find_handleTraffic_iff {countBytes : CountBytes} {db : Db} {n id : Uuid}
    {users : List (UserTraffic × Uuid)} {hour : DateTime} {c : Client}
    (hc : db.clients.find id = some c) (hhold : c.status ≠ "on_hold") :
    (handleTraffic countBytes db n users hour).clients.find id = some { c with
        trafficUsedBytes := c.trafficUsedBytes + reportedBytes countBytes db n id users } ↔
      mentions db id users = [] ∨
        2 ^ 64 ∣ ((mentions db id users).dropLast.map
          (countedBytes countBytes (nodeRate db n))).sum ∧
        FitsI64 (c.trafficUsedBytes + reportedBytes countBytes db n id users) := by
  rw [find_handleTraffic_last, hc, reportedBytes]
  rcases List.eq_nil_or_concat (mentions db id users) with hnil | ⟨before, last, hlast⟩
  · rw [hnil]
    refine iff_of_true ?_ (Or.inl rfl)
    simp only [List.getLast?_nil, List.map_nil, List.sum_nil, Int.add_zero]
  · rw [List.concat_eq_append] at hlast
    rw [hlast, List.getLast?_concat, List.dropLast_concat, List.map_append, List.sum_append,
      List.map_singleton, List.sum_singleton, ← bmod_add_last_iff]
    simp only [Option.map_some, counted, if_neg hhold, addI64_addI64, Option.some.injEq]
    rw [or_iff_right (List.append_ne_nil_of_right_ne_nil _ (List.cons_ne_nil _ _)),
      Int.add_assoc c.trafficUsedBytes]
    exact ⟨fun h => congrArg Client.trafficUsedBytes h, fun h => by rw [← h, countedBytes]⟩

/-- The records of a client. -/
theorem nodeUsage_handleTraffic_iff {countBytes : CountBytes}
    (hcounts : ∀ rate bytes, FitsI64 (countBytes rate bytes)) {db : Db} {n id : Uuid}
    {users : List (UserTraffic × Uuid)} {hour : DateTime} (hfresh : FreshRecordIds db users) :
    nodeUsage (handleTraffic countBytes db n users hour) n id =
        nodeUsage db n id + reportedBytes countBytes db n id users ↔
      mentions db id users = [] ∨ ColumnsFit (hourColumns db n id hour)
        ((mentions db id users).map (entryColumns countBytes (nodeRate db n))) := by
  obtain ⟨hcolumns, hgrowth⟩ := usage_handleTraffic countBytes n id hour hfresh
  rw [reportedBytes]
  by_cases hnil : mentions db id users = []
  · rw [hnil] at hcolumns ⊢
    rw [hcolumns, List.map_nil, List.foldl_nil] at hgrowth
    refine iff_of_true ?_ (Or.inl rfl)
    rw [List.map_nil, List.sum_nil, Int.add_zero]
    omega
  · rw [foldl_addColumns (fun v hv => ?_) (fun h => hnil (List.map_eq_nil_iff.mp h))] at hcolumns
    · rw [hcolumns] at hgrowth
      rw [or_iff_right hnil, ColumnsFit, sum_countedBytes]
      simp only [columnsSum, Option.getD_some] at hgrowth
      simp only [columnsAfter] at hgrowth ⊢
      omega
    · obtain ⟨user, -, rfl⟩ := List.mem_map.mp hv
      exact ⟨hcounts _ _, hcounts _ _⟩

/-! ### The whole report -/

/-- The inbounds of a report are recorded in a table of their own. -/
theorem handleInbounds_writes (db : Db) (n : Uuid) (inbounds : List (InboundTraffic × Uuid))
    (hour : DateTime) :
    ∃ records, handleInbounds db n inbounds hour = { db with trafficRecords := records } := by
  rw [handleInbounds]
  generalize inboundTagMap db n = tagMap
  induction inbounds generalizing db with
  | nil => exact ⟨_, rfl⟩
  | cons inbound rest ih =>
    rw [List.foldl_cons, handleInbound, upsertTraffic]
    exact ih _

/-- **Which reports are counted**: those with one entry that counts for each client. -/
theorem reportCounted_iff {countBytes : CountBytes}
    (hcounts : ∀ rate bytes, FitsI64 (countBytes rate bytes)) {db : Db} {n : Uuid}
    {inbounds : List (InboundTraffic × Uuid)} {users : List (UserTraffic × Uuid)} {now : DateTime}
    (hfresh : FreshRecordIds db users) :
    ReportCounted countBytes db n users
        (handleTrafficReport countBytes db n inbounds users now) ↔
      ∀ id c, db.clients.find id = some c → c.status ≠ "on_hold" →
        OneEntryCounts countBytes db n users (hourOf now) id c := by
  obtain ⟨records, hinbounds⟩ := handleInbounds_writes db n inbounds (hourOf now)
  rw [handleTrafficReport, hinbounds]
  -- the inbounds leave what the users are counted in
  have hone : ∀ id c, db.clients.find id = some c → c.status ≠ "on_hold" →
      ((handleTraffic countBytes { db with trafficRecords := records } n users
          (hourOf now)).clients.find id = some { c with
            trafficUsedBytes := c.trafficUsedBytes + reportedBytes countBytes db n id users } ∧
        nodeUsage (handleTraffic countBytes { db with trafficRecords := records } n users
          (hourOf now)) n id = nodeUsage db n id + reportedBytes countBytes db n id users ↔
        OneEntryCounts countBytes db n users (hourOf now) id c) := by
    intro id c hc hhold
    have hcounter := @find_handleTraffic_iff countBytes { db with trafficRecords := records } n id
      users (hourOf now) c hc hhold
    have husage := @nodeUsage_handleTraffic_iff countBytes hcounts
      { db with trafficRecords := records } n id users (hourOf now) hfresh
    refine (and_congr hcounter husage).trans ?_
    rw [← or_and_left]
    exact or_congr_right and_assoc
  constructor
  · intro h id c hc hhold
    have hclient := h id
    rw [hc] at hclient
    simp only [if_neg hhold] at hclient
    exact (hone id c hc hhold).mp hclient
  · intro h id
    cases hc : db.clients.find id with
    | none =>
      simp only
      rw [find_handleTraffic_last]
      split
      · exact hc
      · rw [show Table.find _ id = none from hc, Option.map_none]
    | some c =>
      simp only
      split
      · rename_i hhold
        rw [find_handleTraffic_last]
        split
        · exact hc
        · rw [show Table.find _ id = some c from hc, Option.map_some, counted, if_pos hhold]
      · rename_i hhold
        exact (hone id c hc hhold).mpr (h id c hc hhold)

/-! ### Two entries for one client -/

namespace TwoEntries

/-- Rate 1, with the saturation of a cast to `i64`. -/
def countBytes : CountBytes := fun _ bytes => max (-2 ^ 63) (min bytes (2 ^ 63 - 1))

theorem fitsI64_countBytes (rate : BitVec 32) (bytes : Int) : FitsI64 (countBytes rate bytes) := by
  rw [FitsI64, countBytes]
  omega

/-- The client by its id and by its email. -/
def users : List (UserTraffic × Uuid) :=
  [(⟨ManualReset.client.id.toStr, 10, 20⟩, .ofNat 4), (⟨"erin@example.com", 10, 20⟩, .ofNat 5)]

def user : List (UserTraffic × Uuid) := [(⟨"erin@example.com", 10, 20⟩, .ofNat 4)]

end TwoEntries

/-- **Of two entries for a client the first is lost.** -/
theorem two_entries_not_counted : ¬ ReportCounted TwoEntries.countBytes ManualReset.db (.ofNat 3)
    TwoEntries.users (handleTrafficReport TwoEntries.countBytes ManualReset.db (.ofNat 3) []
      TwoEntries.users default) := by
  intro h
  have hclient := h ManualReset.client.id
  have hfind : ManualReset.db.clients.find ManualReset.client.id = some ManualReset.client :=
    Table.find_eq_some_iff.mpr ⟨List.mem_singleton_self _, rfl⟩
  rw [hfind] at hclient
  simp only at hclient
  have hused := congrArg (Option.map Client.trafficUsedBytes) hclient.1
  revert hused
  decide +kernel

theorem reportCounted_iff_one_entry :
    ReportCounted TwoEntries.countBytes ManualReset.db (.ofNat 3) TwoEntries.user
        (handleTrafficReport TwoEntries.countBytes ManualReset.db (.ofNat 3) [] TwoEntries.user
          default) ↔
      ∀ id c, ManualReset.db.clients.find id = some c → c.status ≠ "on_hold" →
        OneEntryCounts TwoEntries.countBytes ManualReset.db (.ofNat 3) TwoEntries.user
          (hourOf default) id c :=
  reportCounted_iff TwoEntries.fitsI64_countBytes (by decide +kernel)

end Hub

end ProxyPanel
