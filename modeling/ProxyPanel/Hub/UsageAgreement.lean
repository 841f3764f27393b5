import ProxyPanel.Hub.PeriodicChecks
import ProxyPanel.Hub.SubscriptionAccess
import ProxyPanel.Hub.Usage

/-!
# Reported usage and the limit

Three places say whether a client has used up its limit: the flag of the client
lists, the userinfo header of a subscription and the check that limits the client.
The flag adds all usage records, the header writes the period counter twice, the
check looks at the counter once.  `usageAgrees_iff` puts the agreement of the three
in terms of these numbers, `agrees_throughout_iff` says which runs keep it.
-/

namespace ProxyPanel

namespace Hub

open Text

/-! ### What is reported -/

/-- The group ids of a client. -/
def getClientGroupIds (db : Db) (clientId : Uuid) : List Uuid :=
  (db.clientGroupBindings.filter (·.clientId = clientId)).map (·.groupId)

/-- The usage of a client, from all its records. -/
def getClientTrafficTotal (db : Db) (clientId : Uuid) : Int :=
  ((db.nodeUserUsageRecords.filter (·.clientId = clientId)).map fun r =>
    addI64 r.uploadBytes r.downloadBytes).foldl addI64 0

/-- A client in the answer of a request. -/
structure ClientJson where
  client : Client
  groupIds : List Uuid
  trafficUsedTotal : Int
  isExceeded : Bool

def clientToJson (c : Client) (groupIds : List Uuid) (trafficTotal : Int) : ClientJson where
  client := c
  groupIds := groupIds
  trafficUsedTotal := trafficTotal
  isExceeded := decide (0 < c.trafficLimitBytes ∧ c.trafficLimitBytes ≤ trafficTotal)

def clientJson (db : Db) (c : Client) : ClientJson :=
  clientToJson c (getClientGroupIds db c.id) (getClientTrafficTotal db c.id)

/-- The clients, or one page of them: the number of the page and its size. -/
def listClients (page : Option (Nat × Nat)) (db : Db) : List ClientJson :=
  let clients := match page with
    | some (page, perPage) => (db.clients.rows.drop ((page - 1) * perPage)).take perPage
    | none => db.clients.rows
  clients.map (clientJson db)

def getClient (id : Uuid) (db : Db) : ApiResult ClientJson :=
  match db.clients.find id with
  | none => .error (.notFound "client not found")
  | some c => .ok (clientJson db c)

/-- Whether a userinfo header says that the limit is reached. -/
def userinfoReached (header : String) : Bool :=
  match fieldOf "upload" header, fieldOf "download" header, fieldOf "total" header with
  | some upload, some download, some total => decide (total ≤ upload + download)
  | _, _, _ => false

/-- The check of the limits sets the client to limited if it runs now and finds the
client active and not expired. -/
def WouldBeLimited (db : Db) (id : Uuid) (now : DateTime) : Prop :=
  let clients := db.clients.update id fun c => { c with status := "active", expiryDate := none }
  ((checkClientLimits (fun _ => now) { db with clients := clients }).clients.find id).map
    (·.status) = some "limited"

/-- **The three agree** on a client with a limit. -/
def UsageAgrees (db : Db) (id : Uuid) : Prop :=
  ∀ c, db.clients.find id = some c → 0 < c.trafficLimitBytes → ∀ now,
    (∀ page, ∀ entry ∈ listClients page db, entry.client.id = id →
      (entry.isExceeded = true ↔ WouldBeLimited db id now)) ∧
    (∀ entry, getClient id db = .ok entry →
      (entry.isExceeded = true ↔ WouldBeLimited db id now)) ∧
    (userinfoReached (formatUserinfoHeader c) = true ↔ WouldBeLimited db id now)

/-! ### The header -/

/-- One piece of the header. -/
def piece (key : String) (n : Int) : String := key ++ "=" ++ toString n

theorem not_white_piece {key : String} (hkey : ∀ c ∈ key.toList, isWhite c = false) (n : Int) :
    ∀ c ∈ (piece key n).toList, isWhite c = false := by
  intro c hc
  simp only [piece, String.toList_append, List.mem_append] at hc
  rcases hc with (hc | hc) | hc
  · exact hkey c hc
  · obtain rfl : c = '=' := by simpa using hc
    decide
  · rcases mem_toString hc with rfl | hdigit
    · decide
    · exact isWhite_of_isDigit hdigit

theorem semicolon_not_mem_piece {key : String} (hkey : ';' ∉ key.toList) (n : Int) :
    ';' ∉ (piece key n).toList := by
  intro hc
  simp only [piece, String.toList_append, List.mem_append] at hc
  rcases hc with (hc | hc) | hc
  · exact hkey hc
  · simp at hc
  · rcases mem_toString hc with h | h <;> exact absurd h (by decide)

theorem split_piece {s rest : String} (h : ';' ∉ s.toList) :
    split ';' (s ++ ";" ++ rest) = s :: split ';' rest := by
  have hlist : (s ++ ";" ++ rest).toList = s.toList ++ ';' :: rest.toList := by simp
  rw [split_of_toList hlist h, String.ofList_toList, String.ofList_toList]

theorem semicolon_not_mem_blank {s : String} (h : ';' ∉ s.toList) :
    ';' ∉ (" " ++ s).toList := by
  simpa using h

theorem pieces_formatUserinfoHeader (c : Client) :
    (split ';' (formatUserinfoHeader c)).map trim =
      [piece "upload" c.trafficUsedBytes, piece "download" c.trafficUsedBytes,
        piece "total" c.trafficLimitBytes,
        piece "expire" ((c.expiryDate.map (·.timestamp)).getD 0)] := by
  have hheader : formatUserinfoHeader c = piece "upload" c.trafficUsedBytes ++ ";" ++
      (" " ++ piece "download" c.trafficUsedBytes ++ ";" ++
        (" " ++ piece "total" c.trafficLimitBytes ++ ";" ++
          (" " ++ piece "expire" ((c.expiryDate.map (·.timestamp)).getD 0)))) := by
    apply String.toList_injective
    simp [formatUserinfoHeader, piece]
  have hsep : ∀ key, (key.toList.all fun ch => ch != ';' && !isWhite ch) = true → ∀ n,
      ';' ∉ (piece key n).toList ∧ ∀ ch ∈ (piece key n).toList, isWhite ch = false := by
    intro key hkey n
    simp only [List.all_eq_true, Bool.and_eq_true, bne_iff_ne, Bool.not_eq_true'] at hkey
    exact ⟨semicolon_not_mem_piece (fun h => (hkey _ h).1 rfl) n,
      not_white_piece (fun ch h => (hkey ch h).2) n⟩
  have hupload := hsep "upload" rfl c.trafficUsedBytes
  have hdownload := hsep "download" rfl c.trafficUsedBytes
  have htotal := hsep "total" rfl c.trafficLimitBytes
  have hexpire := hsep "expire" rfl ((c.expiryDate.map (·.timestamp)).getD 0)
  rw [hheader, split_piece hupload.1, split_piece (semicolon_not_mem_blank hdownload.1),
    split_piece (semicolon_not_mem_blank htotal.1),
    split_of_not_mem (semicolon_not_mem_blank hexpire.1)]
  simp only [List.map_cons, List.map_nil]
  rw [trim_of_no_white hupload.2, trim_blank_append hdownload.2, trim_blank_append htotal.2,
    trim_blank_append hexpire.2]

/-- **What the header says**: the period counter as upload and again as download. -/
theorem fieldOf_formatUserinfoHeader (c : Client) :
    fieldOf "upload" (formatUserinfoHeader c) = some c.trafficUsedBytes ∧
      fieldOf "download" (formatUserinfoHeader c) = some c.trafficUsedBytes ∧
      fieldOf "total" (formatUserinfoHeader c) = some c.trafficLimitBytes := by
  have hself : ∀ key n, startsWith (piece key n) (key ++ "=") = true ∧
      parseInt (String.ofList ((piece key n).toList.drop (key ++ "=").toList.length)) = some n := by
    intro key n
    constructor
    · simp [startsWith, piece]
    · have hdrop : (piece key n).toList.drop (key ++ "=").toList.length = (toString n).toList := by
        have hlist : (piece key n).toList = (key ++ "=").toList ++ (toString n).toList := by
          simp [piece]
        rw [hlist, List.drop_left]
      rw [hdrop, String.ofList_toList, parseInt_toString]
  have hupload : startsWith (piece "upload" c.trafficUsedBytes) ("download" ++ "=") = false := by
    simp [startsWith, piece]
    rfl
  have hupload' : startsWith (piece "upload" c.trafficUsedBytes) ("total" ++ "=") = false := by
    simp [startsWith, piece]
    rfl
  have hdownload : startsWith (piece "download" c.trafficUsedBytes) ("total" ++ "=") = false := by
    simp [startsWith, piece]
    rfl
  refine ⟨?_, ?_, ?_⟩
  · simp only [fieldOf, pieces_formatUserinfoHeader, List.findSome?_cons, hself, if_true]
  · simp only [fieldOf, pieces_formatUserinfoHeader, List.findSome?_cons, hself, hupload,
      Bool.false_eq_true, if_false, if_true]
  · simp only [fieldOf, pieces_formatUserinfoHeader, List.findSome?_cons, hself, hupload',
      hdownload, Bool.false_eq_true, if_false, if_true]


theorem userinfoReached_iff (c : Client) :
    userinfoReached (formatUserinfoHeader c) = true ↔
      c.trafficLimitBytes ≤ c.trafficUsedBytes + c.trafficUsedBytes := by
  obtain ⟨hupload, hdownload, htotal⟩ := fieldOf_formatUserinfoHeader c
  rw [userinfoReached, hupload, hdownload, htotal]
  exact decide_eq_true_iff

/-- The header of an answer is that of the client of the subscription. -/
theorem userinfo_serveSubscription {env : AccessEnv} {works : Bool} {now : DateTime}
    {token : String} {params : AccessParams} {userAgent : Option String} {db : Db}
    {response : AccessResponse}
    (h : (serveSubscription env works now token params userAgent db).1 = .ok response) :
    ∃ sub c, activeSubscription db token = .ok sub ∧ db.clients.find sub.clientId = some c ∧
      response.userinfo = some (formatUserinfoHeader c) := by
  rw [serveSubscription] at h
  cases hsub : activeSubscription db token with
  | error e =>
    rw [hsub] at h
    cases h
  | ok sub =>
    rw [hsub] at h
    obtain ⟨⟨target, template⟩, -, h⟩ := Except.bind_eq_ok (show _ >>= _ = _ from h)
    obtain ⟨c, hc, h⟩ := Except.bind_eq_ok (show _ >>= _ = _ from h)
    obtain ⟨content, -, h⟩ := Except.bind_eq_ok (show _ >>= _ = _ from h)
    cases h
    rw [clientOf, clients_touch] at hc
    split at hc
    · cases hc
      exact ⟨sub, c, rfl, by assumption, rfl⟩
    · cases hc

/-! ### The check of the limits -/

theorem wouldBeLimited_iff {db : Db} {id : Uuid} {c : Client} (hc : db.clients.find id = some c)
    (now : DateTime) : WouldBeLimited db id now ↔
      0 < c.trafficLimitBytes ∧ c.trafficLimitBytes ≤ c.trafficUsedBytes := by
  have hrow : (db.clients.update id fun c => { c with
      status := "active", expiryDate := none }).find id =
      some { c with status := "active", expiryDate := none } := by
    refine (find_update_client ?_).trans ?_
    · exact fun _ => rfl
    · rw [hc]
      rfl
  rw [WouldBeLimited, find_checkClientLimits]
  simp only [hrow, Option.map_some, limitRow, if_true, limitedStatus, Option.any_none,
    Bool.false_eq_true, if_false]
  split
  · exact iff_of_true rfl (by assumption)
  · exact iff_of_false (by simp) (by assumption)

/-- On a client that is active and not expired it is the check itself. -/
theorem status_checkClientLimits_iff {db : Db} {id : Uuid} {c : Client} {now : DateTime}
    (hc : db.clients.find id = some c) (hactive : c.status = "active")
    (hexpiry : c.expiryDate.any (·.before now) = false) :
    ((checkClientLimits (fun _ => now) db).clients.find id).map (·.status) = some "limited" ↔
      WouldBeLimited db id now := by
  rw [wouldBeLimited_iff hc, find_checkClientLimits, hc]
  simp only [Option.map_some, limitRow, hactive, if_true, limitedStatus, hexpiry,
    Bool.false_eq_true, if_false]
  split
  · exact iff_of_true rfl (by assumption)
  · exact iff_of_false (by simp) (by assumption)

/-! ### Agreement, in numbers -/

/-- With a limit, both counts have reached it, or half of it and all of it are not used. -/
def AgreesAt (limit used total : Int) : Prop :=
  0 < limit → limit ≤ used ∧ limit ≤ total ∨ 2 * used < limit ∧ total < limit

instance (limit used total : Int) : Decidable (AgreesAt limit used total) :=
  inferInstanceAs (Decidable (_ → _))

theorem isExceeded_clientJson (db : Db) (c : Client) : (clientJson db c).isExceeded = true ↔
    0 < c.trafficLimitBytes ∧ c.trafficLimitBytes ≤ getClientTrafficTotal db c.id :=
  decide_eq_true_iff

/-- An entry of a list is made from a row. -/
theorem mem_listClients {page : Option (Nat × Nat)} {db : Db} {entry : ClientJson}
    (h : entry ∈ listClients page db) : ∃ c ∈ db.clients.rows, entry = clientJson db c := by
  obtain ⟨c, hc, rfl⟩ := List.mem_map.mp h
  refine ⟨c, ?_, rfl⟩
  cases page with
  | none => exact hc
  | some page => exact List.mem_of_mem_drop (List.mem_of_mem_take hc)

/-- **The agreement of the three, in the numbers they look at.** -/
theorem usageAgrees_iff {db : Db} {id : Uuid} {c : Client} (hc : db.clients.find id = some c) :
    UsageAgrees db id ↔
      AgreesAt c.trafficLimitBytes c.trafficUsedBytes (getClientTrafficTotal db id) := by
  obtain rfl : c.id = id := Table.key_of_find hc
  have hget : getClient c.id db = .ok (clientJson db c) := by rw [getClient, hc]
  constructor
  · intro h hlimit
    obtain ⟨-, hflag, hheader⟩ := h c hc hlimit default
    have hflag := hflag _ hget
    rw [isExceeded_clientJson, wouldBeLimited_iff hc] at hflag
    rw [userinfoReached_iff, wouldBeLimited_iff hc] at hheader
    omega
  · intro h c' hc' hlimit now
    cases hc.symm.trans hc'
    have hnumbers := h hlimit
    have hflag : (clientJson db c).isExceeded = true ↔ WouldBeLimited db c.id now := by
      rw [isExceeded_clientJson, wouldBeLimited_iff hc]
      omega
    refine ⟨?_, ?_, ?_⟩
    · intro page entry hentry hid
      obtain ⟨d, hd, rfl⟩ := mem_listClients hentry
      obtain rfl : d = c := Table.eq_of_key_eq hd (Table.mem_of_find hc) hid
      exact hflag
    · intro entry hentry
      cases hget.symm.trans hentry
      exact hflag
    · rw [userinfoReached_iff, wouldBeLimited_iff hc]
      omega

/-! ### The total of the records -/

/-- What a record adds to the usage of a client. -/
def usageOf (clientId : Uuid) (r : NodeUserUsageRecord) : Int :=
  if r.clientId = clientId then r.uploadBytes + r.downloadBytes else 0

theorem foldl_addI64_filter (rows : List NodeUserUsageRecord) (id : Uuid) (v : Int) :
    ((rows.filter (·.clientId = id)).map fun r => addI64 r.uploadBytes r.downloadBytes).foldl
      addI64 (v.bmod (2 ^ 64)) = (v + (rows.map (usageOf id)).sum).bmod (2 ^ 64) := by
  induction rows generalizing v with
  | nil => rw [List.map_nil, List.sum_nil, Int.add_zero]; rfl
  | cons r rows ih =>
    rw [List.filter_cons, List.map_cons, List.sum_cons, usageOf]
    by_cases hr : r.clientId = id
    · simp only [hr, decide_true, if_true, List.map_cons, List.foldl_cons]
      have hfirst : addI64 (v.bmod (2 ^ 64)) (addI64 r.uploadBytes r.downloadBytes) =
          (v + (r.uploadBytes + r.downloadBytes)).bmod (2 ^ 64) := by
        rw [addI64, addI64, Int.bmod_add_bmod, Int.add_bmod_bmod]
      rw [hfirst, ih, Int.add_assoc]
    · simp only [hr, decide_false, Bool.false_eq_true, if_false, Int.zero_add]
      exact ih v

/-- The total is the 64-bit sum over the table. -/
theorem getClientTrafficTotal_eq (db : Db) (id : Uuid) : getClientTrafficTotal db id =
    (db.nodeUserUsageRecords.rows.map (usageOf id)).sum.bmod (2 ^ 64) := by
  have hfold := foldl_addI64_filter db.nodeUserUsageRecords.rows id 0
  rw [Int.zero_add] at hfold
  exact hfold

theorem getClientTrafficTotal_congr {db db' : Db} (id : Uuid)
    (h : db'.nodeUserUsageRecords = db.nodeUserUsageRecords) :
    getClientTrafficTotal db' id = getClientTrafficTotal db id := by
  rw [getClientTrafficTotal, getClientTrafficTotal, h]

/-- A record is written or added to: the total of its client grows by its bytes. -/
theorem total_upsertUsage {db : Db} {newId : Uuid}
    (hnew : db.nodeUserUsageRecords.find newId = none) (agentId clientId : Uuid)
    (hour : DateTime) (rate : BitVec 32) (upload download : Int) (id : Uuid) :
    getClientTrafficTotal (upsertUsage db agentId clientId hour rate upload download newId) id =
      addI64 (getClientTrafficTotal db id) (if clientId = id then upload + download else 0) := by
  rw [getClientTrafficTotal_eq, getClientTrafficTotal_eq, addI64, Int.bmod_add_bmod, upsertUsage]
  cases hone : db.nodeUserUsageRecords.one fun r =>
      r.nodeId = agentId ∧ r.clientId = clientId ∧ r.hourBucket = hour with
  | some record =>
    obtain ⟨hmem, hrecord⟩ := Table.one_eq_some hone
    obtain ⟨-, rfl, -⟩ := of_decide_eq_true hrecord
    have hfind : db.nodeUserUsageRecords.find record.id = some record :=
      Table.find_eq_some_iff.mpr ⟨hmem, rfl⟩
    have hsum := Table.sum_update (f := fun r : NodeUserUsageRecord => { r with
      uploadBytes := addI64 record.uploadBytes upload
      downloadBytes := addI64 record.downloadBytes download }) hfind rfl (usageOf id)
    simp only
    rw [← Int.bmod_add_cancel_right (usageOf id record), hsum, usageOf, usageOf]
    by_cases hid : record.clientId = id
    · simp only [hid, if_true, addI64]
      rw [← Int.add_assoc, Int.add_bmod_bmod, Int.add_right_comm, Int.add_bmod_bmod]
      exact congrArg (Int.bmod · _) (by omega)
    · simp only [hid, if_false, Int.add_zero]
  | none =>
    have hfresh : key (⟨newId, agentId, clientId, hour, upload, download, rate⟩ :
        NodeUserUsageRecord) ∉ db.nodeUserUsageRecords.rows.map key := by
      intro h
      obtain ⟨r, hr, hkey⟩ := List.mem_map.mp h
      exact Table.find_eq_none_iff.mp hnew r hr hkey
    obtain ⟨records, hinsert, hrows⟩ := Table.insert_of_fresh hfresh
    simp only [hinsert, Option.getD_some]
    rw [hrows, List.map_append, List.sum_append, List.map_singleton,
      List.sum_singleton, usageOf]

/-- The ids a report draws are new. -/
def FreshRecordIds (db : Db) (users : List (UserTraffic × Uuid)) : Prop :=
  (users.map (·.2)).Nodup ∧ ∀ user ∈ users, db.nodeUserUsageRecords.find user.2 = none

instance (db : Db) (users : List (UserTraffic × Uuid)) : Decidable (FreshRecordIds db users) :=
  decidable_of_iff ((users.map (·.2)).Nodup ∧
      ∀ user ∈ users, (db.nodeUserUsageRecords.find user.2).isNone = true)
    (by simp only [FreshRecordIds, Option.isNone_iff_eq_none])

theorem find_upsertUsage_eq_none {db : Db} {newId id : Uuid}
    (h : db.nodeUserUsageRecords.find id = none) (hne : newId ≠ id) (agentId clientId : Uuid)
    (hour : DateTime) (rate : BitVec 32) (upload download : Int) :
    (upsertUsage db agentId clientId hour rate upload download
      newId).nodeUserUsageRecords.find id = none := by
  rw [upsertUsage]
  split
  · rename_i record hone
    have hrecord := (Table.one_eq_some hone).1
    refine (Table.find_update_of_ne ?_ _).trans h
    exact fun he => Table.find_eq_none_iff.mp h record hrecord he.symm
  · change ((db.nodeUserUsageRecords.insert ⟨newId, agentId, clientId, hour, upload, download,
      rate⟩).getD db.nodeUserUsageRecords).find id = none
    cases hinsert : db.nodeUserUsageRecords.insert
        ⟨newId, agentId, clientId, hour, upload, download, rate⟩ with
    | none => exact h
    | some records =>
      rw [Option.getD_some]
      exact (Table.find_insert hinsert id).trans ((if_neg hne).trans h)

@[simp] theorem nodeUserUsageRecords_countTraffic (db : Db) (prefetched : Option Client)
    (upload download : Int) :
    (countTraffic db prefetched upload download).nodeUserUsageRecords =
      db.nodeUserUsageRecords := by
  cases prefetched with
  | none => rfl
  | some c =>
    simp only [countTraffic]
    split <;> rfl

/-- **The total after a report**: every entry for the client counts, on hold or not. -/
theorem total_handleTraffic (countBytes : CountBytes) {db : Db} (id agentId : Uuid)
    {users : List (UserTraffic × Uuid)} (hour : DateTime) (hfresh : FreshRecordIds db users) :
    getClientTrafficTotal (handleTraffic countBytes db agentId users hour) id =
      addI64 (getClientTrafficTotal db id)
        ((mentions db id users).map (countedBytes countBytes (nodeRate db agentId))).sum := by
  rw [handleTraffic, mentions]
  generalize resolveClientIds db (users.map (·.1.clientId)) = resolved
  generalize db.clients = clients
  generalize nodeRate db agentId = rate
  have htotal : ∀ d, addI64 (getClientTrafficTotal d id) 0 = getClientTrafficTotal d id := by
    intro d
    rw [getClientTrafficTotal_eq, addI64, Int.add_zero, Int.bmod_bmod]
  induction users generalizing db with
  | nil => exact (htotal db).symm
  | cons u us ih =>
    obtain ⟨hnodup, hnone⟩ := hfresh
    rw [List.map_cons, List.nodup_cons] at hnodup
    have hu := hnone u List.mem_cons_self
    rw [List.foldl_cons, List.map_cons, List.filter_cons, handleUserTraffic]
    cases hr : resolve resolved u.1.clientId with
    | none =>
      simp only [reduceCtorEq, decide_false, Bool.false_eq_true, if_false]
      exact ih ⟨hnodup.2, fun v hv => hnone v (List.mem_cons_of_mem u hv)⟩
    | some clientId =>
      simp only [Option.some.injEq]
      rw [ih]
      · rw [getClientTrafficTotal_congr id (nodeUserUsageRecords_countTraffic _ _ _ _),
          total_upsertUsage hu]
        by_cases hid : clientId = id
        · simp only [hid, decide_true, if_true, List.map_cons, List.sum_cons, countedBytes, addI64]
          rw [Int.bmod_add_bmod, Int.add_assoc]
        · simp only [hid, decide_false, Bool.false_eq_true, if_false, htotal]
      · refine ⟨hnodup.2, fun v hv => ?_⟩
        rw [nodeUserUsageRecords_countTraffic]
        refine find_upsertUsage_eq_none (hnone v (List.mem_cons_of_mem u hv)) ?_ _ _ _ _ _ _
        exact fun he => hnodup.1 (he ▸ List.mem_map_of_mem hv)

/-! ### Runs -/

/-- One operation.  The ids a report draws are new. -/
def usageStep (countBytes : CountBytes) (db : Db) (op : Operation) : Option Db :=
  match op with
  | .trafficReport _ users _ =>
    if FreshRecordIds db users then some (op.apply countBytes db) else none
  | _ => some (op.apply countBytes db)

/-- The period counter after a report: the last entry for the client is added. -/
def usedAfter (countBytes : CountBytes) (db : Db) (id agentId : Uuid)
    (users : List (UserTraffic × Uuid)) (c : Client) : Int :=
  match (mentions db id users).getLast? with
  | none => c.trafficUsedBytes
  | some u => (counted countBytes (nodeRate db agentId) u c).trafficUsedBytes

/-- The total of the records after a report: all entries for the client are added. -/
def totalAfter (countBytes : CountBytes) (db : Db) (id agentId : Uuid)
    (users : List (UserTraffic × Uuid)) : Int :=
  addI64 (getClientTrafficTotal db id)
    ((mentions db id users).map (countedBytes countBytes (nodeRate db agentId))).sum

/-- What an operation must meet: no report takes the client between half its limit and
the limit, a period ends only below the limit, and a new limit suits both counts. -/
def Suits (countBytes : CountBytes) (id : Uuid) (db : Db) (op : Operation) : Prop :=
  ∀ c, db.clients.find id = some c →
    match op with
    | .trafficReport agentId users _ => AgreesAt c.trafficLimitBytes
        (usedAfter countBytes db id agentId users c) (totalAfter countBytes db id agentId users)
    | .periodicChecks resetsAt _ _ => c.status = "active" ∨ c.status = "limited" →
        shouldReset resetsAt c = true → 0 < c.trafficLimitBytes →
        getClientTrafficTotal db id < c.trafficLimitBytes
    | .resetTraffic _ id' => id' = id → 0 < c.trafficLimitBytes →
        getClientTrafficTotal db id < c.trafficLimitBytes
    | .onlineUsers _ _ _ => True
    | .updateClient _ id' payload => id' = id → payload.name.any (Text.trim · = "") = false →
        AgreesAt (payload.trafficLimitBytes.getD c.trafficLimitBytes) c.trafficUsedBytes
          (getClientTrafficTotal db id)

theorem nodeUserUsageRecords_handleOnlineUsers (db : Db) (agentId : Uuid)
    (users : List (OnlineUser × Uuid)) (times : OnlineTimes) :
    (handleOnlineUsers db agentId users times).nodeUserUsageRecords = db.nodeUserUsageRecords := by
  refine @keeps_handleOnlineUsers (fun d => d.nodeUserUsageRecords = db.nodeUserUsageRecords) db
    agentId users times (fun d t hd => hd) (fun d d' clientId user _ hd hd' => ?_) rfl
  rcases activateOnHold_cases hd' with rfl | ⟨c, date, -, -, -, rfl⟩
  · exact hd
  · exact hd

/-- The records are written by reports only. -/
theorem nodeUserUsageRecords_apply {countBytes : CountBytes} {db : Db} {op : Operation}
    (h : ∀ agentId users hour, op ≠ .trafficReport agentId users hour) :
    (op.apply countBytes db).nodeUserUsageRecords = db.nodeUserUsageRecords := by
  cases op with
  | trafficReport agentId users hour => exact absurd rfl (h agentId users hour)
  | periodicChecks resetsAt limitsAt holdsAt => rfl
  | resetTraffic now id' =>
    rw [Operation.apply, resetClientTraffic]
    split <;> rfl
  | onlineUsers agentId users times =>
    exact nodeUserUsageRecords_handleOnlineUsers db agentId users times
  | updateClient now id' payload =>
    rw [Operation.apply, updateClient]
    split
    · rfl
    · split
      · rfl
      · simp only [Except.toOption, Option.getD_some]
        split <;> rfl

theorem agreesAt_zero_iff {limit total : Int} :
    AgreesAt limit 0 total ↔ (0 < limit → total < limit) := by
  rw [AgreesAt]
  constructor
  · intro h hlimit
    have := h hlimit
    omega
  · intro h hlimit
    have := h hlimit
    omega

/-- The numbers of a client after the periodic checks. -/
theorem exists_find_runPeriodicChecks {db : Db} {id : Uuid} {c : Client}
    (hc : db.clients.find id = some c) (resetsAt : DateTime) (limitsAt : Client → DateTime)
    (holdsAt : DateTime) : ∃ c',
      (runPeriodicChecks resetsAt limitsAt holdsAt db).clients.find id = some c' ∧
        c'.trafficLimitBytes = c.trafficLimitBytes ∧
        c'.trafficUsedBytes = if (c.status = "active" ∨ c.status = "limited") ∧
          shouldReset resetsAt c = true then 0 else c.trafficUsedBytes := by
  have hhold : ∀ d, (holdRow holdsAt d).trafficLimitBytes = d.trafficLimitBytes ∧
      (holdRow holdsAt d).trafficUsedBytes = d.trafficUsedBytes := by
    intro d
    rw [holdRow]
    split <;> exact ⟨rfl, rfl⟩
  have hlimit : ∀ d now, (limitRow now d).trafficLimitBytes = d.trafficLimitBytes ∧
      (limitRow now d).trafficUsedBytes = d.trafficUsedBytes := by
    intro d now
    rw [limitRow]
    split <;> exact ⟨rfl, rfl⟩
  rw [find_runPeriodicChecks, hc, Option.map_some]
  refine ⟨_, rfl, ?_, ?_⟩
  · rw [checkedRow, (hhold _).1, (hlimit _ _).1, resetRow]
    split <;> rfl
  · rw [checkedRow, (hhold _).2, (hlimit _ _).2, resetRow]
    split <;> rfl

theorem usageAgrees_iff_of_numbers {db' : Db} {id : Uuid} {c' : Client} {limit used total : Int}
    (hc' : db'.clients.find id = some c') (hlimit : c'.trafficLimitBytes = limit)
    (hused : c'.trafficUsedBytes = used) (htotal : getClientTrafficTotal db' id = total) :
    UsageAgrees db' id ↔ AgreesAt limit used total := by
  rw [usageAgrees_iff hc', hlimit, hused, htotal]

/-- **One operation keeps the agreement if and only if it suits.** -/
theorem usageAgrees_step {countBytes : CountBytes} {id : Uuid} {db db' : Db} {op : Operation}
    (hclient : ∃ c, db.clients.find id = some c) (hs : UsageAgrees db id)
    (h : usageStep countBytes db op = some db') :
    (∃ c, db'.clients.find id = some c) ∧ (UsageAgrees db' id ↔ Suits countBytes id db op) := by
  obtain ⟨c, hc⟩ := hclient
  have hbefore := (usageAgrees_iff hc).mp hs
  have hsame : (∀ agentId users hour, op ≠ .trafficReport agentId users hour) →
      getClientTrafficTotal (op.apply countBytes db) id = getClientTrafficTotal db id :=
    fun hop => getClientTrafficTotal_congr id (nodeUserUsageRecords_apply hop)
  rw [Suits]
  simp only [hc, Option.some.injEq, forall_eq']
  cases op with
  | trafficReport agentId users hour =>
    simp only [usageStep] at h
    split at h
    · rename_i hfresh
      cases h
      have htotal := total_handleTraffic countBytes id agentId hour hfresh
      have hrow := find_handleTraffic_last countBytes db id agentId users hour
      rw [hc] at hrow
      simp only [usedAfter, totalAfter]
      cases hlast : (mentions db id users).getLast? with
      | none =>
        rw [hlast] at hrow
        exact ⟨⟨c, hrow⟩, usageAgrees_iff_of_numbers hrow rfl rfl htotal⟩
      | some u =>
        rw [hlast] at hrow
        refine ⟨⟨_, hrow⟩, usageAgrees_iff_of_numbers hrow ?_ rfl htotal⟩
        rw [counted]
        split <;> rfl
    · cases h
  | periodicChecks resetsAt limitsAt holdsAt =>
    cases h
    obtain ⟨c', hc', hlimit, hused⟩ := exists_find_runPeriodicChecks hc resetsAt limitsAt holdsAt
    refine ⟨⟨c', hc'⟩, (usageAgrees_iff_of_numbers hc' hlimit hused (hsame fun _ _ _ hop => by cases hop)).trans ?_⟩
    split
    · rename_i hdue
      simp only [hdue.1, hdue.2, forall_const]
      exact agreesAt_zero_iff
    · rename_i hdue
      exact iff_of_true hbefore fun hstatus hreset => absurd ⟨hstatus, hreset⟩ hdue
  | resetTraffic now id' =>
    cases h
    have hrow := find_resetClientTraffic db id id' now
    rw [hc, Option.map_some] at hrow
    by_cases hid : id' = id
    · rw [if_pos hid] at hrow
      refine ⟨⟨_, hrow⟩, (usageAgrees_iff_of_numbers hrow rfl rfl (hsame fun _ _ _ hop => by cases hop)).trans ?_⟩
      simp only [hid, forall_const]
      exact agreesAt_zero_iff
    · rw [if_neg hid] at hrow
      refine ⟨⟨_, hrow⟩, (usageAgrees_iff_of_numbers hrow rfl rfl (hsame fun _ _ _ hop => by cases hop)).trans ?_⟩
      exact iff_of_true hbefore fun he => absurd he hid
  | onlineUsers agentId users times =>
    cases h
    obtain ⟨c', hc', hrow⟩ := find_handleOnlineUsers_of_find agentId users times hc
    have hnumbers : c'.trafficLimitBytes = c.trafficLimitBytes ∧
        c'.trafficUsedBytes = c.trafficUsedBytes := by
      rcases hrow with rfl | ⟨-, -, rfl⟩
      · exact ⟨rfl, rfl⟩
      · exact ⟨rfl, rfl⟩
    refine ⟨⟨c', hc'⟩,
      (usageAgrees_iff_of_numbers hc' hnumbers.1 hnumbers.2 (hsame fun _ _ _ hop => by cases hop)).trans ?_⟩
    exact iff_of_true hbefore trivial
  | updateClient now id' payload =>
    cases h
    have hrow := find_updateClient db id id' now payload
    rw [hc, Option.map_some] at hrow
    by_cases hid : id' = id ∧ payload.name.any (Text.trim · = "") = false
    · rw [if_pos hid] at hrow
      refine ⟨⟨_, hrow⟩, (usageAgrees_iff_of_numbers hrow rfl rfl (hsame fun _ _ _ hop => by cases hop)).trans ?_⟩
      simp only [hid.1, hid.2, forall_const]
      exact Iff.rfl
    · rw [if_neg hid] at hrow
      refine ⟨⟨_, hrow⟩, (usageAgrees_iff_of_numbers hrow rfl rfl (hsame fun _ _ _ hop => by cases hop)).trans ?_⟩
      exact iff_of_true hbefore fun he hname => absurd ⟨he, hname⟩ hid

/-- **Reported usage over runs.**  From a client without usage on, the flag, the header
and the check agree at every point of a run if and only if every operation suits. -/
theorem agrees_throughout_iff_suits {countBytes : CountBytes} {id : Uuid} {db : Db} {c : Client}
    {ops : List Operation} (hc : db.clients.find id = some c) (hused : c.trafficUsedBytes = 0)
    (hrecords : ∀ r ∈ db.nodeUserUsageRecords.rows, r.clientId ≠ id)
    (hrun : (Run.run (usageStep countBytes) db ops).isSome) :
    (∀ ops' db', ops' <+: ops → Run.run (usageStep countBytes) db ops' = some db' →
        UsageAgrees db' id) ↔
      Run.Guarded (usageStep countBytes) (Suits countBytes id) db ops := by
  have htotal : getClientTrafficTotal db id = 0 := by
    have hnone : db.nodeUserUsageRecords.filter (·.clientId = id) = [] :=
      List.filter_eq_nil_iff.mpr fun r hr h => hrecords r hr (of_decide_eq_true h)
    rw [getClientTrafficTotal, hnone]
    rfl
  have hstart : UsageAgrees db id := by
    rw [usageAgrees_iff hc, hused, htotal, agreesAt_zero_iff]
    exact fun h => h
  have hkeep : ∀ s op s', (∃ c, s.clients.find id = some c) ∧ UsageAgrees s id →
      Suits countBytes id s op → usageStep countBytes s op = some s' →
      (∃ c, s'.clients.find id = some c) ∧ UsageAgrees s' id := by
    intro s op s' hs hok h
    obtain ⟨hclient, hiff⟩ := usageAgrees_step hs.1 hs.2 h
    exact ⟨hclient, hiff.mpr hok⟩
  constructor
  · refine Run.guarded_of_forall_prefix hkeep ?_ ⟨⟨c, hc⟩, hstart⟩ hrun
    exact fun s op s' hs h hagrees => (usageAgrees_step hs.1 hs.2 h).2.mp hagrees
  · rintro h ops' db' ⟨rest, rfl⟩ hrun'
    exact (Run.inv_of_guarded hkeep ⟨⟨c, hc⟩, hstart⟩ (Run.guarded_append h).1 hrun').2

/-! ### A report between half the limit and the limit -/

theorem not_usageAgrees {db : Db} {id : Uuid} {limit used total : Int}
    (hrow : (db.clients.find id).map (fun c => (c.trafficLimitBytes, c.trafficUsedBytes)) =
      some (limit, used)) (htotal : getClientTrafficTotal db id = total)
    (h : ¬ AgreesAt limit used total) : ¬ UsageAgrees db id := by
  obtain ⟨c, hc, hnumbers⟩ := Option.map_eq_some_iff.mp hrow
  obtain ⟨hlimit, hused⟩ := Prod.mk.inj hnumbers
  rw [usageAgrees_iff_of_numbers hc hlimit hused htotal]
  exact h

namespace HalfUsed

def client : Client := { ManualReset.client with trafficLimitBytes := 100 }

def db : Db where
  clients := .single client

/-- One report of the client's traffic. -/
def report (upload download : Int) : Operation :=
  .trafficReport (.ofNat 3) [(⟨"erin@example.com", upload, download⟩, .ofNat 4)] default

theorem find_client : db.clients.find client.id = some client :=
  Table.find_eq_some_iff.mpr ⟨List.mem_singleton_self _, rfl⟩

theorem run_report : ∃ db',
    Run.run (usageStep ManualReset.countBytes) db [report 20 40] = some db' ∧
    (db'.clients.find client.id).map (fun c => (c.trafficLimitBytes, c.trafficUsedBytes)) =
      some (100, 60) ∧ getClientTrafficTotal db' client.id = 60 := by
  refine ⟨_, rfl, ?_, ?_⟩
  · decide
  · decide

theorem run_reset : ∃ db', Run.run (usageStep ManualReset.countBytes) db
      [report 200 40, .resetTraffic default client.id] = some db' ∧
    (db'.clients.find client.id).map (fun c => (c.trafficLimitBytes, c.trafficUsedBytes)) =
      some (100, 0) ∧ getClientTrafficTotal db' client.id = 240 := by
  refine ⟨_, rfl, ?_, ?_⟩
  · decide
  · decide

theorem suits_report : Suits ManualReset.countBytes client.id db (report 10 20) := by
  intro c hc
  cases find_client.symm.trans hc
  change AgreesAt _ _ _
  decide

end HalfUsed

/-- **Sixty bytes of a hundred**: the header says that the limit is reached, and the
check would not limit the client. -/
theorem half_used_reads_as_reached : ∃ db',
    Run.run (usageStep ManualReset.countBytes) HalfUsed.db [HalfUsed.report 20 40] = some db' ∧
      ¬ UsageAgrees db' HalfUsed.client.id := by
  obtain ⟨db', hrun, hrow, htotal⟩ := HalfUsed.run_report
  exact ⟨db', hrun, not_usageAgrees hrow htotal (by decide)⟩

/-- **A reset leaves the flag**: the records of the period before still count. -/
theorem reset_leaves_exceeded : ∃ db',
    Run.run (usageStep ManualReset.countBytes) HalfUsed.db
      [HalfUsed.report 200 40, .resetTraffic default HalfUsed.client.id] = some db' ∧
      ¬ UsageAgrees db' HalfUsed.client.id := by
  obtain ⟨db', hrun, hrow, htotal⟩ := HalfUsed.run_reset
  exact ⟨db', hrun, not_usageAgrees hrow htotal (by decide)⟩

theorem agrees_throughout_iff_suits_small : ∃ db',
    Run.run (usageStep ManualReset.countBytes) HalfUsed.db [HalfUsed.report 10 20] = some db' ∧
      UsageAgrees db' HalfUsed.client.id := by
  have hguarded : Run.Guarded (usageStep ManualReset.countBytes)
      (Suits ManualReset.countBytes HalfUsed.client.id) HalfUsed.db [HalfUsed.report 10 20] :=
    ⟨HalfUsed.suits_report, fun _ _ => trivial⟩
  have hagrees := (agrees_throughout_iff_suits HalfUsed.find_client rfl
    (fun _ h => absurd h List.not_mem_nil) rfl).mpr hguarded
  exact ⟨_, rfl, hagrees _ _ (List.prefix_refl _) rfl⟩

end Hub

end ProxyPanel
