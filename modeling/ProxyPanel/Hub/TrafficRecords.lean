import ProxyPanel.Hub.Identifiers
import ProxyPanel.Hub.Listeners
import ProxyPanel.Hub.Usage
import ProxyPanel.Lib.Tally

/-!
# Hourly traffic of a node

A traffic report has one entry for each inbound.  Its tag is looked up among the
configs bound to the node, and the bytes are added to the row of the node, the config
and the hour.  A run handles reports one after another and remembers their entries;
`aggregated_of_run` says that the rows are the totals of these entries, as far as 64
bits go, and `attributed` that the tag of an emitted inbound finds its own config.
-/

namespace ProxyPanel

instance (x : Int) : Decidable (FitsI64 x) := inferInstanceAs (Decidable (_ ∧ _))

namespace Hub

open Json Query Run Tally

/-! ### The handler -/

/-- The traffic of one inbound in a report; byte counts are 64-bit. -/
structure InboundTraffic where
  tag : String
  uploadBytes : Int
  downloadBytes : Int
  upload_fits : FitsI64 uploadBytes
  download_fits : FitsI64 downloadBytes

/-- The instant with minutes, seconds and nanoseconds set to zero. -/
def hourOf (now : DateTime) : DateTime := ⟨now.nanos / 3600000000000 * 3600000000000, 0⟩

/-- The tags of the configs bound to a node. -/
def inboundTagMap (db : Db) (agentId : Uuid) : List (String × Uuid) :=
  let bindings := db.nodeBindings.filter (·.nodeId = agentId)
  let configIds := bindings.map (·.protocolConfigId)
  (db.protocolConfigs.filter (·.id ∈ configIds)).map fun c => (configTag c, c.id)

/-- The record of a node, a config and an hour, without a client. -/
def isInboundRecord (agentId : Uuid) (protocolConfigId : Option Uuid) (hour : DateTime)
    (r : TrafficRecord) : Bool :=
  r.nodeId = some agentId ∧ r.clientId = none ∧ r.hourBucket = hour ∧
    r.protocolConfigId = protocolConfigId

/-- The bytes of an entry on top of those that were read. -/
def addTraffic (inbound : InboundTraffic) (record r : TrafficRecord) : TrafficRecord :=
  { r with
    uploadBytes := addI64 record.uploadBytes inbound.uploadBytes
    downloadBytes := addI64 record.downloadBytes inbound.downloadBytes }

def inboundRecord (agentId : Uuid) (protocolConfigId : Option Uuid) (hour : DateTime)
    (inbound : InboundTraffic) (newId : Uuid) : TrafficRecord where
  id := newId
  nodeId := some agentId
  protocolConfigId
  clientId := none
  hourBucket := hour
  uploadBytes := inbound.uploadBytes
  downloadBytes := inbound.downloadBytes

/-- The hourly record of a config on a node, written or added to. -/
def upsertTraffic (db : Db) (agentId : Uuid) (protocolConfigId : Option Uuid) (hour : DateTime)
    (inbound : InboundTraffic) (newId : Uuid) : Db :=
  let records := db.trafficRecords.upsert (isInboundRecord agentId protocolConfigId hour)
    (addTraffic inbound) (inboundRecord agentId protocolConfigId hour inbound newId)
  { db with trafficRecords := records.getD db.trafficRecords }

def handleInbound (tagMap : List (String × Uuid)) (agentId : Uuid) (hour : DateTime) (db : Db)
    (inbound : InboundTraffic × Uuid) : Db :=
  upsertTraffic db agentId (resolve tagMap inbound.1.tag) hour inbound.1 inbound.2

/-- The inbounds of a report, each with the id its record would get. -/
def handleInbounds (db : Db) (agentId : Uuid) (inbounds : List (InboundTraffic × Uuid))
    (hour : DateTime) : Db :=
  inbounds.foldl (handleInbound (inboundTagMap db agentId) agentId hour) db

/-- A traffic report: its inbounds, then its users. -/
def handleTrafficReport (countBytes : CountBytes) (db : Db) (agentId : Uuid)
    (inbounds : List (InboundTraffic × Uuid)) (users : List (UserTraffic × Uuid))
    (now : DateTime) : Db :=
  handleTraffic countBytes (handleInbounds db agentId inbounds (hourOf now)) agentId users (hourOf now)

/-! ### Runs -/

/-- What a record of an inbound counts. -/
structure TrafficKey where
  nodeId : Uuid
  protocolConfigId : Option Uuid
  hour : DateTime
  deriving DecidableEq

def keyOf (r : TrafficRecord) : Option TrafficKey :=
  if r.clientId = none then r.nodeId.map (⟨·, r.protocolConfigId, r.hourBucket⟩) else none

/-- A database, and the entries of all reports handled so far with what they were
resolved to. -/
structure TrafficLog where
  db : Db
  handled : List (TrafficKey × InboundTraffic)

inductive TrafficEvent where
  | report (agentId : Uuid) (inbounds : List (InboundTraffic × Uuid))
      (users : List (UserTraffic × Uuid)) (now : DateTime)
  /-- Other writes in between, to the other tables. -/
  | change (db : Db)

/-- No node and no client is deleted, which would take it out of the records that name it. -/
def KeepsReferents (db db' : Db) : Prop :=
  (∀ n ∈ db.nodes.rows, (db'.nodes.find n.id).isSome = true) ∧
    ∀ c ∈ db.clients.rows, (db'.clients.find c.id).isSome = true

instance (db db' : Db) : Decidable (KeepsReferents db db') :=
  inferInstanceAs (Decidable (_ ∧ _))

/-- New ids, as a random draw gives them. -/
def FreshIds (t : Table TrafficRecord) (ids : List Uuid) : Prop :=
  ids.Nodup ∧ ∀ id ∈ ids, t.find id = none

instance (t : Table TrafficRecord) (ids : List Uuid) : Decidable (FreshIds t ids) :=
  decidable_of_iff (ids.Nodup ∧ ∀ id ∈ ids, (t.find id).isNone = true)
    (by simp only [FreshIds, Option.isNone_iff_eq_none])

/-- The entries of a report, resolved. -/
def resolvedEntries (db : Db) (agentId : Uuid) (inbounds : List InboundTraffic) (now : DateTime) :
    List (TrafficKey × InboundTraffic) :=
  inbounds.map fun i => (⟨agentId, resolve (inboundTagMap db agentId) i.tag, hourOf now⟩, i)

/-- One step without a database error: no drawn id is taken, and only reports write
`traffic_records`, as long as nothing is deleted that its rows name. -/
def trafficStep (countBytes : CountBytes) (s : TrafficLog) : TrafficEvent → Option TrafficLog
  | .report agentId inbounds users now =>
    if FreshIds s.db.trafficRecords (inbounds.map (·.2)) then
      some ⟨handleTrafficReport countBytes s.db agentId inbounds users now,
        s.handled ++ resolvedEntries s.db agentId (inbounds.map (·.1)) now⟩
    else none
  | .change db =>
    if KeepsReferents s.db db then some ⟨{ db with trafficRecords := s.db.trafficRecords }, s.handled⟩
    else none

/-- The records of a node, a config and an hour. -/
def recordsOf (db : Db) (k : TrafficKey) : List TrafficRecord :=
  db.trafficRecords.filter fun r => keyOf r = some k

/-- The entries that were handled for a node, a config and an hour. -/
def TrafficLog.entriesOf (s : TrafficLog) (k : TrafficKey) : List InboundTraffic :=
  (s.handled.filter fun e => e.1 = k).map (·.2)

/-- **One record for each node, config and hour with traffic**, with the sums of its
entries in 64-bit arithmetic. -/
def Aggregated (s : TrafficLog) : Prop :=
  ∀ k, (recordsOf s.db k).length ≤ 1 ∧ (recordsOf s.db k = [] ↔ s.entriesOf k = []) ∧
    ∀ r ∈ recordsOf s.db k,
      r.uploadBytes = ((s.entriesOf k).map InboundTraffic.uploadBytes).sum.bmod (2 ^ 64) ∧
      r.downloadBytes = ((s.entriesOf k).map InboundTraffic.downloadBytes).sum.bmod (2 ^ 64)

/-! ### Totals -/

/-- Upload and download of an entry. -/
def InboundTraffic.bytes (i : InboundTraffic) : Int × Int := (i.uploadBytes, i.downloadBytes)

def addBytes (a b : Int × Int) : Int × Int := (addI64 a.1 b.1, addI64 a.2 b.2)

def trafficLayout : Layout TrafficRecord TrafficKey (Int × Int) where
  group := keyOf
  total := fun r => (r.uploadBytes, r.downloadBytes)

def TrafficLog.Tallied (s : TrafficLog) : Prop :=
  Tally.Tallied trafficLayout addBytes s.db.trafficRecords (s.handled.map fun e => (e.1, e.2.bytes))

theorem foldl_addBytes (v : Int × Int) (vs : List (Int × Int)) :
    vs.foldl addBytes v = ((vs.map Prod.fst).foldl addI64 v.1, (vs.map Prod.snd).foldl addI64 v.2) := by
  induction vs generalizing v with
  | nil => rfl
  | cons w ws ih => exact ih (addBytes v w)

/-- The total of entries is their sum in 64-bit arithmetic. -/
theorem totals_bytes (es : List InboundTraffic) :
    totals addBytes (es.map InboundTraffic.bytes) = if es = [] then [] else
      [((es.map InboundTraffic.uploadBytes).sum.bmod (2 ^ 64),
        (es.map InboundTraffic.downloadBytes).sum.bmod (2 ^ 64))] := by
  cases es with
  | nil => rfl
  | cons e es =>
    have hup : e.uploadBytes.bmod (2 ^ 64) = e.uploadBytes := bmod_eq_self_iff.mpr e.upload_fits
    have hdown : e.downloadBytes.bmod (2 ^ 64) = e.downloadBytes :=
      bmod_eq_self_iff.mpr e.download_fits
    have hfst : (es.map InboundTraffic.bytes).map Prod.fst = es.map InboundTraffic.uploadBytes :=
      List.map_map
    have hsnd : (es.map InboundTraffic.bytes).map Prod.snd = es.map InboundTraffic.downloadBytes :=
      List.map_map
    rw [if_neg (List.cons_ne_nil e es), List.map_cons, totals, foldl_addBytes, hfst, hsnd,
      InboundTraffic.bytes, foldl_addI64 _ hup, foldl_addI64 _ hdown]
    rfl

/-- The entries of a key, as the tally sees them. -/
theorem valuesOf_handled (handled : List (TrafficKey × InboundTraffic)) (k : TrafficKey) :
    valuesOf (handled.map fun e => (e.1, e.2.bytes)) k =
      ((handled.filter fun e => e.1 = k).map (·.2)).map InboundTraffic.bytes := by
  rw [valuesOf, List.filter_map, List.map_map, List.map_map]
  rfl

theorem aggregated_of_tallied {s : TrafficLog} (h : s.Tallied) : Aggregated s := by
  intro k
  have hrows := h k
  rw [valuesOf_handled, ← TrafficLog.entriesOf, totals_bytes] at hrows
  change (recordsOf s.db k).map trafficLayout.total = _ at hrows
  by_cases hnil : s.entriesOf k = []
  · rw [if_pos hnil, List.map_eq_nil_iff] at hrows
    rw [hrows]
    exact ⟨Nat.zero_le 1, iff_of_true rfl hnil, nofun⟩
  · rw [if_neg hnil] at hrows
    obtain ⟨r, hone, htotal⟩ := List.map_eq_singleton_iff.mp hrows
    rw [hone]
    refine ⟨Nat.le_refl 1, iff_of_false (List.cons_ne_nil r []) hnil, fun r' hr' => ?_⟩
    cases List.mem_singleton.mp hr'
    exact ⟨congrArg Prod.fst htotal, congrArg Prod.snd htotal⟩

/-! ### Steps -/

theorem keyOf_eq_some_iff {r : TrafficRecord} {k : TrafficKey} : keyOf r = some k ↔
    r.nodeId = some k.nodeId ∧ r.clientId = none ∧ r.hourBucket = k.hour ∧
      r.protocolConfigId = k.protocolConfigId := by
  rw [keyOf]
  by_cases hclient : r.clientId = none
  · rw [if_pos hclient, Option.map_eq_some_iff]
    constructor
    · rintro ⟨n, hn, rfl⟩
      exact ⟨hn, hclient, rfl, rfl⟩
    · rintro ⟨hn, -, hhour, hconfig⟩
      exact ⟨k.nodeId, hn, by rw [hhour, hconfig]⟩
  · rw [if_neg hclient]
    exact iff_of_false (fun h => nomatch h) fun h => hclient h.2.1

/-- The users of a report write clients and usage records only. -/
theorem handleUserTraffic_writes (countBytes : CountBytes) (clients : Table Client)
    (resolved : List (String × Uuid)) (agentId : Uuid) (rate : BitVec 32) (hour : DateTime) (db : Db)
    (user : UserTraffic × Uuid) : ∃ clients' records,
      handleUserTraffic countBytes clients resolved agentId rate hour db user =
        { db with clients := clients', nodeUserUsageRecords := records } := by
  have husage : ∀ clientId up down, ∃ records,
      upsertUsage db agentId clientId hour rate up down user.2 =
        { db with nodeUserUsageRecords := records } := by
    intro clientId up down
    rw [upsertUsage]
    split <;> exact ⟨_, rfl⟩
  rw [handleUserTraffic]
  cases resolve resolved user.1.clientId with
  | none => exact ⟨_, _, rfl⟩
  | some clientId =>
    dsimp only
    obtain ⟨records, hrecords⟩ := husage clientId (countBytes rate user.1.uploadBytes)
      (countBytes rate user.1.downloadBytes)
    rw [hrecords]
    cases clients.find clientId with
    | none => exact ⟨_, _, rfl⟩
    | some c =>
      rw [countTraffic]
      split <;> exact ⟨_, _, rfl⟩

theorem handleTraffic_writes (countBytes : CountBytes) (db : Db) (agentId : Uuid)
    (users : List (UserTraffic × Uuid)) (hour : DateTime) : ∃ clients records,
      handleTraffic countBytes db agentId users hour =
        { db with clients := clients, nodeUserUsageRecords := records } := by
  rw [handleTraffic]
  generalize resolveClientIds db (users.map (·.1.clientId)) = resolved
  generalize nodeRate db agentId = rate
  generalize db.clients = prefetched
  induction users generalizing db with
  | nil => exact ⟨_, _, rfl⟩
  | cons u us ih =>
    obtain ⟨clients', records', hhead⟩ :=
      handleUserTraffic_writes countBytes prefetched resolved agentId rate hour db u
    obtain ⟨clients, records, htail⟩ := ih { db with clients := clients', nodeUserUsageRecords := records' }
    rw [List.foldl_cons, hhead, htail]
    exact ⟨clients, records, rfl⟩

theorem trafficRecords_handleTraffic (countBytes : CountBytes) (db : Db) (agentId : Uuid)
    (users : List (UserTraffic × Uuid)) (hour : DateTime) :
    (handleTraffic countBytes db agentId users hour).trafficRecords = db.trafficRecords := by
  obtain ⟨_, _, h⟩ := handleTraffic_writes countBytes db agentId users hour
  rw [h]

/-- One entry of a report, with a fresh id. -/
theorem tallied_handleInbound (tagMap : List (String × Uuid)) (agentId : Uuid) (hour : DateTime)
    {db : Db} {inbound : InboundTraffic × Uuid} {entries : List (TrafficKey × Int × Int)}
    (h : Tally.Tallied trafficLayout addBytes db.trafficRecords entries)
    (hfresh : db.trafficRecords.find inbound.2 = none) :
    Tally.Tallied trafficLayout addBytes (handleInbound tagMap agentId hour db inbound).trafficRecords
      (entries ++ [(⟨agentId, resolve tagMap inbound.1.tag, hour⟩, inbound.1.bytes)]) ∧
    ∀ id, db.trafficRecords.find id = none → inbound.2 ≠ id →
      (handleInbound tagMap agentId hour db inbound).trafficRecords.find id = none := by
  rw [handleInbound, upsertTraffic]
  generalize resolve tagMap inbound.1.tag = config
  obtain ⟨u, hu⟩ : ∃ u, db.trafficRecords.upsert (isInboundRecord agentId config hour)
      (addTraffic inbound.1) (inboundRecord agentId config hour inbound.1 inbound.2) = some u :=
    Table.exists_upsert _ _ hfresh
  dsimp only
  rw [hu, Option.getD_some]
  refine ⟨tallied_upsert h (fun r => ?_) (fun _ => rfl) (fun _ => rfl) (fun _ => rfl) rfl rfl hu,
    fun id hid hne => Table.find_upsert_eq_none hid hne hu⟩
  have hkey := keyOf_eq_some_iff (r := r) (k := ⟨agentId, config, hour⟩)
  exact decide_eq_true_iff.trans hkey.symm

/-- **The entries of a report**, each with a fresh id. -/
theorem tallied_handleInbounds {db : Db} {agentId : Uuid} {inbounds : List (InboundTraffic × Uuid)}
    {now : DateTime} {handled : List (TrafficKey × InboundTraffic)}
    (h : TrafficLog.Tallied ⟨db, handled⟩)
    (hfresh : FreshIds db.trafficRecords (inbounds.map (·.2))) :
    TrafficLog.Tallied ⟨handleInbounds db agentId inbounds (hourOf now),
      handled ++ resolvedEntries db agentId (inbounds.map (·.1)) now⟩ := by
  rw [handleInbounds, resolvedEntries]
  generalize inboundTagMap db agentId = tagMap
  induction inbounds generalizing db handled with
  | nil =>
    rw [List.map_nil, List.map_nil, List.append_nil]
    exact h
  | cons inbound inbounds ih =>
    obtain ⟨hnodup, hnone⟩ := hfresh
    rw [List.map_cons, List.nodup_cons] at hnodup
    obtain ⟨htallied, hkeep⟩ := tallied_handleInbound tagMap agentId (hourOf now) h
      (hnone inbound.2 List.mem_cons_self)
    rw [List.foldl_cons, List.map_cons, List.map_cons, List.append_cons]
    refine ih ?_ ⟨hnodup.2, fun id hid => ?_⟩
    · rw [TrafficLog.Tallied, List.map_append]
      exact htallied
    · have hne : inbound.2 ≠ id := fun he => hnodup.1 (he ▸ hid)
      exact hkeep id (hnone id (List.mem_cons_of_mem inbound.2 hid)) hne

theorem tallied_step {countBytes : CountBytes} {s : TrafficLog} {e : TrafficEvent} {s' : TrafficLog}
    (h : s.Tallied) (hstep : trafficStep countBytes s e = some s') : s'.Tallied := by
  cases e with
  | change db =>
    rw [trafficStep] at hstep
    split at hstep
    · cases hstep
      exact h
    · cases hstep
  | report agentId inbounds users now =>
    rw [trafficStep] at hstep
    split at hstep
    · rename_i hfresh
      cases hstep
      rw [TrafficLog.Tallied, handleTrafficReport, trafficRecords_handleTraffic]
      exact tallied_handleInbounds h hfresh
    · cases hstep

/-! ### The tags of a node -/

/-- The tag of an emitted inbound. -/
def inboundTag : CoreType → Json → Option String
  | .singBox, inbound => inbound.getStr "tag"
  | .mihomo, inbound => inbound.getStr "name"

/-- Whatever the names are, a tag belongs to one config. -/
theorem id_eq_of_configTag_eq {c c' : ProtocolConfig} (h : configTag c = configTag c') :
    c.id = c'.id := by
  have hlength : ∀ id : Uuid, id.toStr.toList.length = 36 := by
    intro id
    rw [Uuid.toStr, String.toList_ofList]
    exact Uuid.length_hyphenate ((List.length_map _).trans id.length_eq)
  have hlist := congrArg String.toList h
  rw [configTag, configTag, String.toList_append, String.toList_append (s := c'.name ++ "-")] at hlist
  have hsuffix := (List.append_inj' hlist (by rw [hlength, hlength])).2
  exact Uuid.toStr_injective (String.toList_injective hsuffix)

theorem mem_inboundTagMap {db : Db} {agentId : Uuid} {e : String × Uuid} :
    e ∈ inboundTagMap db agentId ↔ ∃ c ∈ db.protocolConfigs.rows,
      (∃ b ∈ db.nodeBindings.rows, b.nodeId = agentId ∧ b.protocolConfigId = c.id) ∧
        (configTag c, c.id) = e := by
  simp only [inboundTagMap, List.mem_map, Table.mem_filter, decide_eq_true_eq, and_assoc]

/-- The tag of a config that is bound to the node finds that config. -/
theorem resolve_configTag {db : Db} {agentId : Uuid} {b : NodeBinding} {c : ProtocolConfig}
    (hb : b ∈ db.nodeBindings.rows) (hnode : b.nodeId = agentId)
    (hc : db.protocolConfigs.find b.protocolConfigId = some c) :
    resolve (inboundTagMap db agentId) (configTag c) = some c.id := by
  have hkey : c.id = b.protocolConfigId := Table.key_of_find hc
  refine resolve_eq_some (mem_inboundTagMap.mpr ⟨c, Table.mem_of_find hc,
    ⟨b, hb, hnode, hkey.symm⟩, rfl⟩) fun id' h => ?_
  obtain ⟨c', -, -, he⟩ := mem_inboundTagMap.mp h
  rw [Prod.mk.injEq] at he
  rw [← he.2, id_eq_of_configTag_eq he.1]

theorem isObject_mergedSettings (config : ProtocolConfig) (b : NodeBinding) :
    (mergedSettings config b).isObject = config.settings.isObject := by
  rw [mergedSettings]
  split
  · exact isObject_setAll _ _
  · rfl

theorem inboundTag_buildInbound {core : CoreType} {protocol : ProtocolType} {settings inbound : Json}
    {tls : Option Json} (h : buildInbound core protocol settings tls = .ok inbound) {tag : String}
    (htag : settings.getStr "tag" = some tag) : inboundTag core inbound = some tag := by
  cases core with
  | singBox => exact SingBox.getStr_tag_buildInbound h htag
  | mihomo => exact Mihomo.getStr_name_buildInbound h htag

/-- An inbound carries the tag of the config of its binding. -/
theorem inboundTag_inboundFor {db : Db} {nodeId : Uuid} {core : CoreType} {b : NodeBinding}
    {config : ProtocolConfig} {inbound : Json} (h : inboundFor db nodeId core b = some inbound)
    (hconfig : db.protocolConfigs.find b.protocolConfigId = some config)
    (hobject : config.settings.isObject = true) : inboundTag core inbound = some (configTag config) := by
  obtain ⟨config', protocol, tls, hconfig', -, -, -, hbuild⟩ := inboundFor_eq_some h
  cases hconfig.symm.trans hconfig'
  refine inboundTag_buildInbound hbuild ?_
  have hset : (((injected db b config.protocolType (mergedSettings config b)).set "port"
      (num config.listenPort)).set "listen" (str config.listenAddress)).isObject = true := by
    rw [isObject_set, isObject_set, isObject_injected, isObject_mergedSettings, hobject]
  rw [withListen, getStr, get_set_self hset]
  rfl

/-- The inbound comes from an active binding of the node; its tag is the tag of the config
of that binding, and reports of that tag go to that config. -/
def Attributed (db : Db) (nodeId : Uuid) (core : CoreType) (inbound : Json) : Prop :=
  ∃ binding ∈ activeBindings db nodeId, ∃ config,
    db.protocolConfigs.find binding.protocolConfigId = some config ∧
    inboundFor db nodeId core binding = some inbound ∧
    (config.settings.isObject = true → inboundTag core inbound = some (configTag config)) ∧
    resolve (inboundTagMap db nodeId) (configTag config) = some config.id

/-- **Every emitted inbound** is attributed to its own config. -/
theorem attributed_of_emitted {gen : GenEnv} {db : Db} {nodeId : Uuid} {core : CoreType}
    {out : Json × Option String} (h : (generateNodeConfig gen nodeId core).exec db = .ok out)
    {inbound : Json} (hmem : inbound ∈ emitted core out.1) : Attributed db nodeId core inbound := by
  rw [emitted_generateNodeConfig h] at hmem
  obtain ⟨b, hb, hinbound⟩ := List.mem_filterMap.mp hmem
  obtain ⟨config, -, -, hconfig, -⟩ := inboundFor_eq_some hinbound
  obtain ⟨hrow, hactive⟩ := Table.mem_filter.mp hb
  have hnode : b.nodeId = nodeId := (of_decide_eq_true hactive).1
  exact ⟨b, hb, config, hconfig, hinbound, inboundTag_inboundFor hinbound hconfig,
    resolve_configTag hrow hnode hconfig⟩

/-! ### The result -/

/-- **Hourly aggregation**: after any run of reports from an empty table the records are
the sums of the reported bytes in 64-bit arithmetic, and the tag of every inbound that
is emitted finds its own config. -/
theorem hourly_aggregation {countBytes : CountBytes} {db : Db} (hempty : db.trafficRecords.rows = [])
    {es : List TrafficEvent} {s : TrafficLog}
    (hrun : run (trafficStep countBytes) ⟨db, []⟩ es = some s) :
    Aggregated s ∧ ∀ (gen : GenEnv) (nodeId : Uuid) (core : CoreType) (out : Json × Option String),
      (generateNodeConfig gen nodeId core).exec s.db = .ok out →
        ∀ inbound ∈ emitted core out.1, Attributed s.db nodeId core inbound := by
  have hstart : TrafficLog.Tallied ⟨db, []⟩ := tallied_nil hempty
  refine ⟨aggregated_of_tallied ?_, fun gen nodeId core out h inbound => attributed_of_emitted h⟩
  exact inv_of_run (I := TrafficLog.Tallied) (fun _ _ _ => tallied_step) hstart hrun

/-! ### Two hours, and a sum that does not fit -/

namespace TwoHours

/-- The rate 1. -/
def countBytes : CountBytes := fun _ bytes => bytes

def node : Node where
  id := .ofNat 1
  name := "node"
  hostname := ""
  address := ""
  domain := none
  tokenHash := ""
  coresAvailable := .arr []
  usageCoefficient := 0x3f800000
  status := "active"
  parentId := none
  lastSeenAt := none
  updatedAt := ⟨0, 0⟩

/-- A config whose name looks like the tag of another. -/
def config (n : Nat) (name : String) : ProtocolConfig where
  id := .ofNat n
  name := name
  protocolType := "vless_reality"
  coreType := "sing-box"
  listenPort := 443
  listenAddress := "::"
  settings := .obj []
  tlsSettings := none
  updatedAt := ⟨0, 0⟩

def binding (n configId : Nat) : NodeBinding := ⟨.ofNat n, .ofNat 1, .ofNat configId, none, true⟩

def db : Db where
  nodes := ⟨[node], by decide⟩
  nodeBindings := ⟨[binding 3 10, binding 4 11], by decide⟩
  protocolConfigs := ⟨[config 10 "a", config 11 ("a-" ++ (Uuid.ofNat 10).toStr)], by decide⟩

def entry (tag : String) (up down : Int) (h : FitsI64 up ∧ FitsI64 down) : InboundTraffic :=
  ⟨tag, up, down, h.1, h.2⟩

def tag (n : Nat) (name : String) : String := name ++ "-" ++ (Uuid.ofNat n).toStr

def hours (n : Int) : DateTime := ⟨n * 3600000000000 + 1, 0⟩

/-- Two reports, and a binding that is deleted between them. -/
def events : List TrafficEvent :=
  [.report (.ofNat 1) [(entry (tag 10 "a") 100 200 (by decide), .ofNat 20),
      (entry (tag 11 (tag 10 "a")) 7 8 (by decide), .ofNat 21),
      (entry (tag 10 "a") 50 60 (by decide), .ofNat 22)] [] (hours 5),
    .change { db with nodeBindings := ⟨[binding 3 10], by decide⟩ },
    .report (.ofNat 1) [(entry "api" 1 1 (by decide), .ofNat 23),
      (entry (tag 10 "a") 9 9 (by decide), .ofNat 24)] [] (hours 6)]

/-- The largest count, and one byte more in the same hour. -/
def overflow : List TrafficEvent :=
  [.report (.ofNat 1) [(entry (tag 10 "a") (2 ^ 63 - 1) 0 (by decide), .ofNat 20)] [] (hours 5),
    .report (.ofNat 1) [(entry (tag 10 "a") 1 0 (by decide), .ofNat 21)] [] (hours 5)]

end TwoHours

theorem hourly_aggregation_two_hours : ∃ s,
    run (trafficStep TwoHours.countBytes) ⟨TwoHours.db, []⟩ TwoHours.events = some s ∧
      Aggregated s := by
  obtain ⟨s, hs⟩ : ∃ s, run (trafficStep TwoHours.countBytes) ⟨TwoHours.db, []⟩ TwoHours.events =
      some s := Option.isSome_iff_exists.mp (by decide)
  exact ⟨s, hs, (hourly_aggregation rfl hs).1⟩

/-- A row wraps around when its sum does not fit in 64 bits. -/
theorem record_wraps : ∃ s,
    run (trafficStep TwoHours.countBytes) ⟨TwoHours.db, []⟩ TwoHours.overflow = some s ∧
      ∃ k, ∃ r ∈ recordsOf s.db k,
        r.uploadBytes = -2 ^ 63 ∧
        ((s.entriesOf k).map InboundTraffic.uploadBytes).sum = 2 ^ 63 := by
  have heval : (run (trafficStep TwoHours.countBytes) ⟨TwoHours.db, []⟩ TwoHours.overflow).any
      (fun s => (recordsOf s.db ⟨.ofNat 1, some (.ofNat 10), hourOf (TwoHours.hours 5)⟩).any
        fun r => r.uploadBytes = -2 ^ 63 ∧ ((s.entriesOf ⟨.ofNat 1, some (.ofNat 10),
          hourOf (TwoHours.hours 5)⟩).map InboundTraffic.uploadBytes).sum = 2 ^ 63) = true := by
    decide
  obtain ⟨s, hs, heval⟩ := (Option.any_eq_true _ _).mp heval
  obtain ⟨r, hr, h⟩ := List.any_eq_true.mp heval
  exact ⟨s, hs, _, r, hr, of_decide_eq_true h⟩

end Hub

end ProxyPanel
