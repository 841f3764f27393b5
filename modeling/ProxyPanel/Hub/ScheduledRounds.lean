import ProxyPanel.Hub.PendingCompleteness
import ProxyPanel.Hub.PeriodicChecks
import ProxyPanel.Hub.ProxyNodes
import ProxyPanel.Hub.Scheduler

/-!
# A run of the periodic checks

`run_periodic_checks` changes clients in three passes and pushes in two rounds, one after
the limits and one at the end.  A round goes over the nodes that have an active binding, in
the order of a hash set.  What a node is offered depends on the database alone (`offer`),
and a node that has the version of the offer is not sent it again, so a round in any order
does to each connection what its offer does (`agents_pushUpdatedConfigs`).  Clients on hold
are in no configuration (`offer_checkOnHoldTimeouts`), so the second round sends nothing that
the first one has sent (`agents_before_reconcile`).

* `upToDate_runScheduled`: what a run leaves;
* `users_runScheduled`: who may connect after a run that affects clients.
-/

namespace ProxyPanel.Hub

open Json Query

/-! ### The rounds -/

/-- `push_updated_configs_for_clients`, with the nodes in the order of the set. -/
def pushUpdatedConfigs (env : HubEnv) (nodes : List Uuid) (s : HubState) : HubState :=
  nodes.foldl (fun s nodeId =>
    pushConfigForCore env (pushConfigForCore env s nodeId .singBox) nodeId .mihomo) s

/-- The nodes that have an active binding. -/
def boundNodes (db : Db) : List Uuid := (db.nodeBindings.filter (·.isActive)).map (·.nodeId)

/-- The clients whose traffic is reset. -/
def resetClients (now : DateTime) (db : Db) : List Uuid :=
  (db.clients.filter fun c => (c.status = "active" ∨ c.status = "limited") ∧
    shouldReset now c = true).map (·.id)

/-- The clients that expire or reach their limit. -/
def limitedClients (now : Client → DateTime) (db : Db) : List Uuid :=
  (db.clients.filter fun c => c.status = "active" ∧ (limitedStatus (now c) c).isSome = true).map
    (·.id)

/-- The clients that were on hold for too long. -/
def timedOutClients (now : DateTime) (db : Db) : List Uuid :=
  (db.clients.filter fun c => c.status = "on_hold" ∧
    c.onHoldTimeout.any (·.before now) = true).map (·.id)

/-- The part of `cleanup_old_records` on tables of the model: sessions after ten minutes, and
the logs of agents after seven days, in the first five minutes of an hour. -/
def cleanupOldRecords (now : DateTime) (db : Db) : Db :=
  let db := { db with clientOnlineSessions := db.clientOnlineSessions.deleteWhere fun r =>
    r.lastActiveAt.before (now.addSeconds (-600)) }
  if now.timestamp % 3600 / 60 < 5 then
    { db with agentLogs := db.agentLogs.deleteWhere fun r =>
      r.createdAt.before (now.addSeconds (-604800)) }
  else db

/-- `reconcile_orphan_cores` for a node and core: a core without an active binding that has a
version is stopped, and when the stop is sent the version is recorded as empty. -/
def reconcileCore (s : HubState) (nodeId : Uuid) (core : CoreType) : HubState :=
  let bindings := s.db.nodeBindings.filter fun b => b.nodeId = nodeId ∧ b.isActive
  match (checkBindingsForCore core bindings).exec s.db with
  | .ok false =>
    if (agentConfigVersion s nodeId core).isSome then
      match sendToAgent s nodeId (.coreStop core.proto) with
      | .ok s' => setAgentConfigVersion s' nodeId core ""
      | .error _ => s
    else s
  | _ => s

def reconcileOrphanCores (agents : List Uuid) (s : HubState) : HubState :=
  agents.foldl (fun s nodeId => reconcileCore (reconcileCore s nodeId .singBox) nodeId .mihomo) s

/-- The instants a run on a database reads, and the orders in which it goes over the two sets of
nodes and over the agents. -/
structure CheckRun (db : Db) where
  resetsAt : DateTime
  limitsAt : Client → DateTime
  holdsAt : DateTime
  cleanupAt : DateTime
  firstNodes : List Uuid
  secondNodes : List Uuid
  agents : List Uuid
  first_visits : ∀ n, n ∈ firstNodes ↔ n ∈ boundNodes db
  second_visits : ∀ n, n ∈ secondNodes ↔ n ∈ boundNodes db

/-- The clients that the passes of a run affect. -/
def CheckRun.affected {db : Db} (r : CheckRun db) : List Uuid :=
  let reset := checkClientTrafficResets r.resetsAt db
  let limited := checkClientLimits r.limitsAt reset
  limitedClients r.limitsAt reset ++ resetClients r.resetsAt db ++ timedOutClients r.holdsAt limited

/-- `run_periodic_checks`. -/
def runScheduled (env : HubEnv) (s : HubState) (r : CheckRun s.db) : HubState :=
  let reset := checkClientTrafficResets r.resetsAt s.db
  let limited := { s with db := checkClientLimits r.limitsAt reset }
  let first := if limitedClients r.limitsAt reset = [] then limited
    else pushUpdatedConfigs env r.firstNodes limited
  let held := { first with db := checkOnHoldTimeouts r.holdsAt first.db }
  let second := if r.affected = [] then held else pushUpdatedConfigs env r.secondNodes held
  reconcileOrphanCores r.agents { second with db := cleanupOldRecords r.cleanupAt second.db }

/-! ### What a node is offered -/

/-- The message the scheduler has for a node and core, if it has one. -/
def offer (env : HubEnv) (db : Db) (nodeId : Uuid) (core : CoreType) : Option ConfigPush :=
  ((prepareScheduled env nodeId core).exec db).toOption.join

/-- A connection after a message is sent and its version recorded. -/
def AgentConnection.sent (core : CoreType) (message : ConfigPush) (conn : AgentConnection) :
    AgentConnection where
  outbox := conn.outbox ++ [.configPush message]
  receiverAlive := conn.receiverAlive
  configVersions := Function.update conn.configVersions core.toStr (some message.configVersion)

/-- A connection after an offer. -/
def AgentConnection.offered (core : CoreType) (message : Option ConfigPush)
    (conn : AgentConnection) : AgentConnection :=
  match message with
  | none => conn
  | some message =>
    if conn.configVersions core.toStr = some message.configVersion then conn
    else if conn.receiverAlive then conn.sent core message
    else conn

/-- An offer that is made again changes nothing. -/
theorem offered_offered (core : CoreType) (message : Option ConfigPush) (conn : AgentConnection) :
    (conn.offered core message).offered core message = conn.offered core message := by
  cases message with
  | none => rfl
  | some message =>
    by_cases hsame : conn.configVersions core.toStr = some message.configVersion
    · have hkept : conn.offered core (some message) = conn := if_pos hsame
      rw [hkept, hkept]
    · by_cases halive : conn.receiverAlive = true
      · have hsent : conn.offered core (some message) = conn.sent core message :=
          (if_neg hsame).trans (if_pos halive)
        rw [hsent]
        exact if_pos (Function.update_self _ _ _)
      · have hkept : conn.offered core (some message) = conn :=
          (if_neg hsame).trans (if_neg halive)
        rw [hkept, hkept]

/-- **The offer of a node**: what is generated for it, if this has inbounds. -/
theorem offer_eq (env : HubEnv) (db : Db) (nodeId : Uuid) (core : CoreType) :
    offer env db nodeId core =
      if (checkBindingsForCore core (activeBindings db nodeId)).exec db = .ok true then
        (produced env.toGenEnv db nodeId core).bind fun out =>
          if hasInbounds out.1 then some (configPush env core false none out.1 out.2.1 out.2.2)
          else none
      else none := by
  rw [offer, prepareScheduled, exec_read_bind, exec_bind]
  change ((checkBindingsForCore core (activeBindings db nodeId)).exec db >>= _).toOption.join = _
  cases (checkBindingsForCore core (activeBindings db nodeId)).exec db with
  | error e => rfl
  | ok bound =>
    cases bound with
    | false => rfl
    | true =>
      rw [if_pos rfl]
      change ((generateNodeConfig env.toGenEnv nodeId core >>= _ : Program _).exec db).toOption.join
        = _
      rw [exec_bind, produced]
      cases (generateNodeConfig env.toGenEnv nodeId core).exec db with
      | error e => rfl
      | ok out =>
        change ((if hasInbounds out.1 = true then _ else _ : Program _).exec db).toOption.join = _
        dsimp only
        by_cases hinbounds : hasInbounds out.1 = true
        · rw [if_pos hinbounds, exec_bind]
          cases (coreBuildIdOf core out.2).exec db with
          | error e => rfl
          | ok buildId => exact (if_pos hinbounds).symm
        · rw [if_neg hinbounds]
          cases (coreBuildIdOf core out.2).exec db with
          | error e => rfl
          | ok buildId => exact (if_neg hinbounds).symm

/-- A mihomo configuration has `listeners`, and no `inbounds`. -/
theorem hasInbounds_mihomo {gen : GenEnv} {db : Db} {nodeId : Uuid} {out : Json × Option String}
    (h : (generateNodeConfig gen nodeId .mihomo).exec db = .ok out) :
    hasInbounds out.1 = false := by
  obtain ⟨ibs, config, _, hconfig, hrules, _⟩ := generateNodeConfig_ok h
  rw [hasInbounds, getArr, get_applyRelayRules (by decide) hrules,
    Mihomo.get_inbounds_buildFullConfig hconfig]
  rfl

/-- **mihomo is never offered anything.** -/
theorem offer_mihomo (env : HubEnv) (db : Db) (nodeId : Uuid) :
    offer env db nodeId .mihomo = none := by
  have hout : ((produced env.toGenEnv db nodeId .mihomo).bind fun out =>
      if hasInbounds out.1 then some (configPush env .mihomo false none out.1 out.2.1 out.2.2)
      else none) = none := by
    rw [produced]
    cases hgen : (generateNodeConfig env.toGenEnv nodeId .mihomo).exec db with
    | error e => rfl
    | ok out =>
      cases hbuild : (coreBuildIdOf .mihomo out.2).exec db with
      | error e =>
        simp only [hbuild]
        rfl
      | ok buildId =>
        simp only [hbuild]
        exact if_neg (by rw [hasInbounds_mihomo hgen]; exact Bool.false_ne_true)
  rw [offer_eq, hout, ite_self]

/-- **An offer rests on what a generation reads.** -/
theorem offer_congr {env : HubEnv} {db db' : Db} {nodeId : Uuid} {core : CoreType}
    (hbindings : db'.nodeBindings = db.nodeBindings)
    (hconfigs : db'.protocolConfigs = db.protocolConfigs)
    (hproduced : produced env.toGenEnv db' nodeId core = produced env.toGenEnv db nodeId core) :
    offer env db' nodeId core = offer env db nodeId core := by
  have hcheck : ∀ bindings : List NodeBinding,
      (checkBindingsForCore core bindings).exec db' =
        (checkBindingsForCore core bindings).exec db := by
    intro bindings
    induction bindings with
    | nil => rfl
    | cons b bs ih =>
      rw [checkBindingsForCore, exec_read_bind, exec_read_bind, hconfigs]
      split
      · rfl
      · exact ih
  rw [offer_eq, offer_eq, hcheck, hproduced, activeBindings, activeBindings, hbindings]

/-- Markers change no offer. -/
theorem offer_of_sameContents {env : HubEnv} {db db' : Db} (h : SameContents db db') (nodeId : Uuid)
    (core : CoreType) : offer env db' nodeId core = offer env db nodeId core := by
  have hproduced : produced env.toGenEnv db' nodeId core = produced env.toGenEnv db nodeId core :=
    produced_of_sameContents h
  obtain ⟨rows, rfl⟩ := h
  exact offer_congr rfl rfl hproduced

/-! ### What a push does to the connections -/

/-- A delivery to a live agent, and one that fails. -/
theorem deliver_cases (s : HubState) (nodeId : Uuid) (core : CoreType) (message : ConfigPush) :
    (∃ conn, s.agents nodeId = some conn ∧ conn.receiverAlive = true ∧
      deliver s nodeId core message = .ok ⟨clearPending s.db nodeId core,
        Function.update s.agents nodeId (some (conn.sent core message))⟩) ∨
    ((∀ conn, s.agents nodeId = some conn → conn.receiverAlive = false) ∧
      ∃ e, deliver s nodeId core message = .error e) := by
  rw [deliver, sendToAgent]
  cases hconn : s.agents nodeId with
  | none => exact Or.inr ⟨(fun conn h => by cases h), _, rfl⟩
  | some conn =>
    dsimp only
    by_cases halive : conn.receiverAlive = true
    · rw [if_pos halive]
      refine Or.inl ⟨conn, rfl, halive, ?_⟩
      refine congrArg Except.ok ?_
      simp only [setAgentConfigVersion, HubState.setAgent, Function.update_self, Option.map_some,
        Function.update_idem, AgentConnection.sent]
    · rw [if_neg halive]
      refine Or.inr ⟨fun conn' h => ?_, _, rfl⟩
      cases h
      exact Bool.eq_false_of_not_eq_true halive

/-- **The push of one core**: the connection of the node gets the offer, no other is touched. -/
theorem agents_pushConfigForCore (env : HubEnv) (s : HubState) (nodeId : Uuid) (core : CoreType)
    (n : Uuid) : (pushConfigForCore env s nodeId core).agents n =
      if n = nodeId then (s.agents n).map (·.offered core (offer env s.db nodeId core))
      else s.agents n := by
  have hnone : s.agents n = if n = nodeId then (s.agents n).map (·.offered core none)
      else s.agents n := by
    change _ = if n = nodeId then (s.agents n).map id else s.agents n
    rw [Option.map_id, id_eq, ite_self]
  rw [pushConfigForCore, offer]
  cases (prepareScheduled env nodeId core).exec s.db with
  | error e => exact hnone
  | ok message =>
    cases message with
    | none => exact hnone
    | some message =>
      dsimp only
      change _ = if n = nodeId then (s.agents n).map (·.offered core (some message))
        else s.agents n
      rcases deliver_cases s nodeId core message with
        ⟨conn, hconn, halive, hdeliver⟩ | ⟨hdead, e, hdeliver⟩
      · rw [hdeliver, agentConfigVersion, hconn, Option.bind_some]
        by_cases hsame : conn.configVersions core.toStr = some message.configVersion
        · rw [if_pos hsame]
          by_cases hn : n = nodeId
          · rw [if_pos hn, hn, hconn, Option.map_some, AgentConnection.offered]
            exact congrArg some (if_pos hsame).symm
          · exact (if_neg hn).symm
        · rw [if_neg hsame]
          by_cases hn : n = nodeId
          · rw [if_pos hn, hn, hconn, Option.map_some, AgentConnection.offered]
            refine (Function.update_self ..).trans (congrArg some ?_)
            exact ((if_neg hsame).trans (if_pos halive)).symm
          · exact (Function.update_of_ne hn ..).trans (if_neg hn).symm
      · rw [hdeliver, ite_self]
        by_cases hn : n = nodeId
        · rw [if_pos hn, hn]
          cases hconn : s.agents nodeId with
          | none => rfl
          | some conn =>
            rw [Option.map_some, AgentConnection.offered, hdead conn hconn]
            exact congrArg some (ite_self _).symm
        · exact (if_neg hn).symm

theorem sameContents_pushConfigForCore (env : HubEnv) (s : HubState) (nodeId : Uuid)
    (core : CoreType) : SameContents s.db (pushConfigForCore env s nodeId core).db := by
  rw [pushConfigForCore]
  cases (prepareScheduled env nodeId core).exec s.db with
  | error e => exact .refl s.db
  | ok message =>
    cases message with
    | none => exact .refl s.db
    | some message =>
      dsimp only
      split
      · exact .refl s.db
      · rcases deliver_cases s nodeId core message with
          ⟨conn, hconn, halive, hdeliver⟩ | ⟨hdead, e, hdeliver⟩
        · rw [hdeliver]
          exact sameContents_clearPending s.db nodeId core
        · rw [hdeliver]
          exact .refl s.db

/-! ### What a round does to the connections -/

theorem sameContents_pushUpdatedConfigs (env : HubEnv) (nodes : List Uuid) (s : HubState) :
    SameContents s.db (pushUpdatedConfigs env nodes s).db := by
  induction nodes generalizing s with
  | nil => exact .refl s.db
  | cons nodeId nodes ih =>
    exact ((sameContents_pushConfigForCore env s nodeId .singBox).trans
      (sameContents_pushConfigForCore env _ nodeId .mihomo)).trans (ih _)

/-- **A round, in any order**: every node of the list gets its offer, no other is touched. -/
theorem agents_pushUpdatedConfigs (env : HubEnv) (nodes : List Uuid) (s : HubState) (n : Uuid) :
    (pushUpdatedConfigs env nodes s).agents n =
      if n ∈ nodes then (s.agents n).map (·.offered .singBox (offer env s.db n .singBox))
      else s.agents n := by
  induction nodes generalizing s with
  | nil => exact (if_neg List.not_mem_nil).symm
  | cons nodeId nodes ih =>
    have hcontents := (sameContents_pushConfigForCore env s nodeId .singBox).trans
      (sameContents_pushConfigForCore env _ nodeId .mihomo)
    set s' := pushConfigForCore env (pushConfigForCore env s nodeId .singBox) nodeId .mihomo
      with hs'
    set offered := AgentConnection.offered .singBox (offer env s.db n .singBox) with hoffered
    have hagents : s'.agents n = if n = nodeId then (s.agents n).map offered else s.agents n := by
      rw [hs', agents_pushConfigForCore, offer_mihomo, agents_pushConfigForCore]
      by_cases hn : n = nodeId
      · rw [if_pos hn, if_pos hn, if_pos hn, hoffered, hn]
        exact congrFun Option.map_id _
      · rw [if_neg hn, if_neg hn, if_neg hn]
    have hrest := ih s'
    rw [offer_of_sameContents hcontents, hagents] at hrest
    refine hrest.trans ?_
    by_cases hn : n = nodeId
    · have hmem : n ∈ nodeId :: nodes := hn ▸ List.mem_cons_self
      have htwice : ((s.agents n).map offered).map offered = (s.agents n).map offered := by
        rw [Option.map_map]
        exact congrArg (Option.map · _) (funext fun conn => offered_offered _ _ conn)
      rw [if_pos hn, if_pos hmem, htwice, ite_self]
    · rw [if_neg hn]
      exact ite_congr (propext (List.mem_cons.trans (or_iff_right hn)).symm)
        (fun _ => rfl) fun _ => rfl

/-! ### What the passes change -/

/-- **Clients on hold are in no configuration.** -/
theorem offer_checkOnHoldTimeouts (env : HubEnv) (now : DateTime) (db : Db) (n : Uuid)
    (core : CoreType) : offer env (checkOnHoldTimeouts now db) n core = offer env db n core := by
  have hclients : ∀ members : List Uuid, (checkOnHoldTimeouts now db).clients.filter
      (fun c => c.id ∈ members ∧ c.status = "active") =
        db.clients.filter fun c => c.id ∈ members ∧ c.status = "active" := by
    intro members
    refine Table.filter_updateEach_filter_of_not (fun c r => by split <;> rfl) fun c hc => ?_
    have hhold : c.status = "on_hold" := of_decide_eq_true hc
    split <;> simp [hhold]
  exact offer_congr rfl rfl (SameReads.produced_eq
    ⟨rfl, rfl, rfl, fun _ => rfl, rfl, fun _ _ => rfl, fun _ _ => rfl, fun _ _ => hclients _, rfl,
      fun _ _ => rfl, fun _ _ _ _ => rfl⟩)

theorem offer_cleanupOldRecords (env : HubEnv) (now : DateTime) (db : Db) (n : Uuid)
    (core : CoreType) : offer env (cleanupOldRecords now db) n core = offer env db n core := by
  rw [cleanupOldRecords]
  split
  · exact offer_congr rfl rfl (SameReads.produced_eq
      ⟨rfl, rfl, rfl, fun _ => rfl, rfl, fun _ _ => rfl, fun _ _ => rfl, fun _ _ => rfl, rfl,
        fun _ _ => rfl, fun _ _ _ _ => rfl⟩)
  · exact offer_congr rfl rfl (SameReads.produced_eq
      ⟨rfl, rfl, rfl, fun _ => rfl, rfl, fun _ _ => rfl, fun _ _ => rfl, fun _ _ => rfl, rfl,
        fun _ _ => rfl, fun _ _ _ _ => rfl⟩)

/-- Without a reset the first pass changes nothing. -/
theorem checkClientTrafficResets_of_nil {now : DateTime} {db : Db}
    (h : resetClients now db = []) : checkClientTrafficResets now db = db := by
  have hnone := List.filter_eq_nil_iff.mp (List.map_eq_nil_iff.mp h)
  have hclients : (checkClientTrafficResets now db).clients = db.clients := by
    refine Table.updateEach_filter_eq_self (fun c r => by split <;> rfl) fun c hc hstatus => ?_
    have hreset : shouldReset now c ≠ true := fun hreset =>
      hnone c hc (decide_eq_true ⟨of_decide_eq_true hstatus, hreset⟩)
    exact if_neg hreset
  exact congrArg (fun clients => { db with clients }) hclients

/-- Without a limited client the second pass changes nothing. -/
theorem checkClientLimits_of_nil {now : Client → DateTime} {db : Db}
    (h : limitedClients now db = []) : checkClientLimits now db = db := by
  have hnone := List.filter_eq_nil_iff.mp (List.map_eq_nil_iff.mp h)
  have hclients : (checkClientLimits now db).clients = db.clients := by
    refine Table.updateEach_filter_eq_self (fun _ _ => rfl) fun c hc hstatus => ?_
    have hstays : limitedStatus (now c) c = none := by
      cases hlimited : limitedStatus (now c) c with
      | none => rfl
      | some status =>
        refine absurd (decide_eq_true ⟨of_decide_eq_true hstatus, ?_⟩) (hnone c hc)
        rw [hlimited]
        rfl
    rw [hstays]
    rfl
  exact congrArg (fun clients => { db with clients }) hclients

/-- A node that is offered something has an active binding. -/
theorem mem_boundNodes_of_offer {env : HubEnv} {db : Db} {n : Uuid} {core : CoreType}
    {message : ConfigPush} (h : offer env db n core = some message) :
    n ∈ boundNodes db ∧
      (checkBindingsForCore core (activeBindings db n)).exec db = .ok true := by
  rw [offer_eq] at h
  by_cases hbound : (checkBindingsForCore core (activeBindings db n)).exec db = .ok true
  · refine ⟨?_, hbound⟩
    cases hbindings : activeBindings db n with
    | nil =>
      rw [hbindings] at hbound
      cases hbound
    | cons b bs =>
      have hb : b ∈ db.nodeBindings.rows.filter fun b => b.nodeId = n ∧ b.isActive := by
        change b ∈ activeBindings db n
        rw [hbindings]
        exact List.mem_cons_self
      obtain ⟨hmem, hnode⟩ := List.mem_filter.mp hb
      obtain ⟨hn, hactive⟩ := of_decide_eq_true hnode
      exact List.mem_map.mpr ⟨b, List.mem_filter.mpr ⟨hmem, hactive⟩, hn⟩
  · rw [if_neg hbound] at h
    cases h

/-! ### What a reconciliation leaves -/

/-- The stop that a node is sent for a core: one if the core has no active binding, has a
version, and the agent is there. -/
def stopOf (db : Db) (n : Uuid) (conn : AgentConnection) (core : CoreType) : List HubMessage :=
  match (checkBindingsForCore core (activeBindings db n)).exec db with
  | .ok false =>
    if (conn.configVersions core.toStr).isSome ∧ conn.receiverAlive = true then
      [.coreStop core.proto]
    else []
  | _ => []

/-- The stops of a node, each time the reconciliation comes to it. -/
def stopsFor (db : Db) (n : Uuid) (conn : AgentConnection) : List HubMessage :=
  stopOf db n conn .singBox ++ stopOf db n conn .mihomo

/-- What the reconciliation does to the connection of a node. -/
structure CoresReconciled (db : Db) (n : Uuid) (stops : List HubMessage)
    (conn conn' : AgentConnection) : Prop where
  outbox : conn'.outbox = conn.outbox ++ stops
  receiverAlive : conn'.receiverAlive = conn.receiverAlive
  recorded : ∀ core : CoreType, (conn'.configVersions core.toStr).isSome =
    (conn.configVersions core.toStr).isSome
  versions : ∀ core, (checkBindingsForCore core (activeBindings db n)).exec db = .ok true →
    conn'.configVersions core.toStr = conn.configVersions core.toStr

theorem CoresReconciled.refl (db : Db) (n : Uuid) (conn : AgentConnection) :
    CoresReconciled db n [] conn conn :=
  ⟨(List.append_nil _).symm, rfl, fun _ => rfl, fun _ _ => rfl⟩

theorem CoresReconciled.trans {db : Db} {n : Uuid} {stops stops' : List HubMessage}
    {conn conn' conn'' : AgentConnection} (h : CoresReconciled db n stops conn conn')
    (h' : CoresReconciled db n stops' conn' conn'') :
    CoresReconciled db n (stops ++ stops') conn conn'' where
  outbox := by rw [h'.outbox, h.outbox, List.append_assoc]
  receiverAlive := h'.receiverAlive.trans h.receiverAlive
  recorded := fun core => (h'.recorded core).trans (h.recorded core)
  versions := fun core hbound => (h'.versions core hbound).trans (h.versions core hbound)

/-- A stopped core still has a version, so it is stopped again the next time. -/
theorem CoresReconciled.stopOf_eq {db : Db} {n : Uuid} {stops : List HubMessage}
    {conn conn' : AgentConnection} (h : CoresReconciled db n stops conn conn') (core : CoreType) :
    stopOf db n conn' core = stopOf db n conn core := by
  rw [stopOf, stopOf, h.recorded, h.receiverAlive]

theorem db_reconcileCore (s : HubState) (nodeId : Uuid) (core : CoreType) :
    (reconcileCore s nodeId core).db = s.db := by
  rw [reconcileCore]
  split
  · split
    · rw [sendToAgent]
      cases s.agents nodeId with
      | none => rfl
      | some conn =>
        dsimp only
        cases conn.receiverAlive with
        | false => rfl
        | true => rfl
    · rfl
  · rfl

theorem agents_reconcileCore_of_ne (s : HubState) {n nodeId : Uuid} (hn : n ≠ nodeId)
    (core : CoreType) : (reconcileCore s nodeId core).agents n = s.agents n := by
  rw [reconcileCore]
  split
  · split
    · rw [sendToAgent]
      cases s.agents nodeId with
      | none => rfl
      | some conn =>
        dsimp only
        cases conn.receiverAlive with
        | false => rfl
        | true => exact (Function.update_of_ne hn ..).trans (Function.update_of_ne hn ..)
    · rfl
  · rfl

/-- A connection after the stop of a core is sent. -/
def AgentConnection.stopped (conn : AgentConnection) (core : CoreType) : AgentConnection :=
  { conn with
    outbox := conn.outbox ++ [.coreStop core.proto]
    configVersions := Function.update conn.configVersions core.toStr (some "") }

/-- The stop of a core without bindings that has a version. -/
theorem CoresReconciled.stopped {db : Db} {n : Uuid} {conn : AgentConnection} {core : CoreType}
    (hbound : (checkBindingsForCore core (activeBindings db n)).exec db = .ok false)
    (hversion : (conn.configVersions core.toStr).isSome = true) :
    CoresReconciled db n [.coreStop core.proto] conn (conn.stopped core) where
  outbox := rfl
  receiverAlive := rfl
  recorded := by
    intro core'
    by_cases hcore : core' = core
    · subst hcore
      simp only [AgentConnection.stopped, Function.update_self, hversion, Option.isSome_some]
    · have hne : core'.toStr ≠ core.toStr := fun h => hcore (CoreType.toStr_injective h)
      simp only [AgentConnection.stopped, Function.update_of_ne hne]
  versions := by
    intro core' hbound'
    have hne : core'.toStr ≠ core.toStr := by
      intro heq
      rw [CoreType.toStr_injective heq] at hbound'
      cases hbound'.symm.trans hbound
    simp only [AgentConnection.stopped, Function.update_of_ne hne]

/-- A node that is there is sent its stop, or there is none to send. -/
theorem agents_reconcileCore_self {s : HubState} {n : Uuid} {conn : AgentConnection}
    (hconn : s.agents n = some conn) (core : CoreType) :
    ∃ conn', (reconcileCore s n core).agents n = some conn' ∧
      CoresReconciled s.db n (stopOf s.db n conn core) conn conn' := by
  have hkept : stopOf s.db n conn core = [] → ∃ conn', s.agents n = some conn' ∧
      CoresReconciled s.db n (stopOf s.db n conn core) conn conn' := by
    intro h
    rw [h]
    exact ⟨conn, hconn, .refl s.db n conn⟩
  have hbindings : (s.db.nodeBindings.filter fun b => b.nodeId = n ∧ b.isActive) =
      activeBindings s.db n := rfl
  rw [reconcileCore, hbindings, agentConfigVersion, hconn, Option.bind_some]
  cases hbound : (checkBindingsForCore core (activeBindings s.db n)).exec s.db with
  | error e => exact hkept (by rw [stopOf, hbound])
  | ok bound =>
    cases bound with
    | true => exact hkept (by rw [stopOf, hbound])
    | false =>
      dsimp only
      by_cases hversion : (conn.configVersions core.toStr).isSome = true
      · rw [if_pos hversion, sendToAgent, hconn]
        dsimp only
        by_cases halive : conn.receiverAlive = true
        · have hstop : stopOf s.db n conn core = [.coreStop core.proto] := by
            rw [stopOf, hbound]
            exact if_pos ⟨hversion, halive⟩
          rw [if_pos halive, hstop]
          refine ⟨conn.stopped core, ?_, .stopped hbound hversion⟩
          simp [setAgentConfigVersion, HubState.setAgent, AgentConnection.stopped]
        · rw [if_neg halive]
          refine hkept ?_
          rw [stopOf, hbound]
          exact if_neg fun h => halive h.2
      · rw [if_neg hversion]
        refine hkept ?_
        rw [stopOf, hbound]
        exact if_neg fun h => hversion h.1

/-- **One core of one node.** -/
theorem reconciled_reconcileCore {s : HubState} (nodeId : Uuid) (core : CoreType) {n : Uuid}
    {conn : AgentConnection} (hconn : s.agents n = some conn) :
    ∃ conn', (reconcileCore s nodeId core).agents n = some conn' ∧
      CoresReconciled s.db n (if n = nodeId then stopOf s.db n conn core else []) conn conn' := by
  by_cases hn : n = nodeId
  · subst hn
    rw [if_pos rfl]
    exact agents_reconcileCore_self hconn core
  · rw [if_neg hn, agents_reconcileCore_of_ne s hn core]
    exact ⟨conn, hconn, .refl s.db n conn⟩

/-- **The reconciliation**, over any list of agents. -/
theorem reconciled_reconcileOrphanCores (agents : List Uuid) {s : HubState} {n : Uuid}
    {conn : AgentConnection} (hconn : s.agents n = some conn) :
    (reconcileOrphanCores agents s).db = s.db ∧
    ∃ conn', (reconcileOrphanCores agents s).agents n = some conn' ∧
      CoresReconciled s.db n (List.replicate (agents.count n) (stopsFor s.db n conn)).flatten
        conn conn' := by
  induction agents generalizing s conn with
  | nil => exact ⟨rfl, conn, hconn, .refl s.db n conn⟩
  | cons nodeId agents ih =>
    obtain ⟨conn₁, hconn₁, h₁⟩ := reconciled_reconcileCore nodeId .singBox hconn
    obtain ⟨conn₂, hconn₂, h₂⟩ := reconciled_reconcileCore nodeId .mihomo hconn₁
    obtain ⟨hdb, conn', hconn', h'⟩ := ih hconn₂
    rw [db_reconcileCore, db_reconcileCore] at h'
    rw [db_reconcileCore, h₁.stopOf_eq] at h₂
    have h₁₂ := h₁.trans h₂
    refine ⟨hdb.trans ((db_reconcileCore ..).trans (db_reconcileCore ..)), conn', hconn', ?_⟩
    have hall := h₁₂.trans h'
    have hstops : stopsFor s.db n conn₂ = stopsFor s.db n conn := by
      rw [stopsFor, stopsFor, h₁₂.stopOf_eq, h₁₂.stopOf_eq]
    rw [hstops] at hall
    by_cases hn : n = nodeId
    · rw [if_pos hn, if_pos hn] at hall
      rw [← hn, List.count_cons_self, List.replicate_succ, List.flatten_cons]
      exact hall
    · rw [if_neg hn, if_neg hn] at hall
      rw [List.count_cons_of_ne (Ne.symm hn)]
      exact hall

/-! ### What a run leaves -/

/-- The connection of a node, while it lives, has the version of its offer. -/
def UpToDate (env : HubEnv) (s : HubState) (n : Uuid) : Prop :=
  ∀ conn, s.agents n = some conn → conn.receiverAlive = true →
    ∀ message, offer env s.db n .singBox = some message →
      conn.configVersions CoreType.singBox.toStr = some message.configVersion

/-- What the rounds do to the connection of a node. -/
theorem agents_rounds {env : HubEnv} {s : HubState} {nodes : List Uuid}
    (hnodes : ∀ n, n ∈ nodes ↔ n ∈ boundNodes s.db) (n : Uuid) :
    (pushUpdatedConfigs env nodes s).agents n =
      (s.agents n).map (·.offered .singBox (offer env s.db n .singBox)) := by
  rw [agents_pushUpdatedConfigs]
  split
  · rfl
  · rename_i hn
    have hnone : offer env s.db n .singBox = none := by
      cases hoffer : offer env s.db n .singBox with
      | none => rfl
      | some message => exact absurd ((hnodes n).mpr (mem_boundNodes_of_offer hoffer).1) hn
    rw [hnone]
    exact (congrFun Option.map_id _).symm

theorem boundNodes_of_sameContents {db db' : Db} (h : SameContents db db') :
    boundNodes db' = boundNodes db := by
  obtain ⟨_, rfl⟩ := h
  rfl

/-- A round that is skipped, or is made. -/
theorem sameContents_round (env : HubEnv) (s : HubState) (nodes clients : List Uuid) :
    SameContents s.db (if clients = [] then s else pushUpdatedConfigs env nodes s).db := by
  split
  · exact .refl s.db
  · exact sameContents_pushUpdatedConfigs env nodes s

theorem agents_round {env : HubEnv} {s : HubState} {nodes : List Uuid} (clients : List Uuid)
    (hnodes : ∀ n, n ∈ nodes ↔ n ∈ boundNodes s.db) (n : Uuid) :
    (if clients = [] then s else pushUpdatedConfigs env nodes s).agents n =
      if clients = [] then s.agents n
      else (s.agents n).map (·.offered .singBox (offer env s.db n .singBox)) := by
  split
  · rfl
  · exact agents_rounds hnodes n

/-- **Both rounds of a run offer a node the same, so the second sends nothing again.** -/
theorem agents_before_reconcile (env : HubEnv) {s : HubState} (r : CheckRun s.db) :
    ∃ cleaned : HubState, runScheduled env s r = reconcileOrphanCores r.agents cleaned ∧
      (r.affected = [] → ∀ n core, offer env cleaned.db n core = offer env s.db n core) ∧
      ∀ n, cleaned.agents n = if r.affected = [] then s.agents n
        else (s.agents n).map (·.offered .singBox (offer env cleaned.db n .singBox)) := by
  set reset := checkClientTrafficResets r.resetsAt s.db with hreset
  set limited : HubState := { s with db := checkClientLimits r.limitsAt reset } with hlimited
  set first := if limitedClients r.limitsAt reset = [] then limited
    else pushUpdatedConfigs env r.firstNodes limited with hfirst
  set held : HubState := { first with db := checkOnHoldTimeouts r.holdsAt first.db } with hheld
  set second := if r.affected = [] then held
    else pushUpdatedConfigs env r.secondNodes held with hsecond
  have hfirstContents : SameContents limited.db first.db := sameContents_round ..
  have hsecondContents : SameContents held.db second.db := sameContents_round ..
  have hheldOffer : ∀ n core, offer env held.db n core = offer env limited.db n core :=
    fun n core => (offer_checkOnHoldTimeouts env r.holdsAt first.db n core).trans
      (offer_of_sameContents hfirstContents n core)
  have hoffer : ∀ n core, offer env (cleanupOldRecords r.cleanupAt second.db) n core =
      offer env limited.db n core := fun n core =>
    (offer_cleanupOldRecords env r.cleanupAt second.db n core).trans
      ((offer_of_sameContents hsecondContents n core).trans (hheldOffer n core))
  have hheldNodes : ∀ n, n ∈ r.secondNodes ↔ n ∈ boundNodes held.db := by
    intro n
    rw [show boundNodes held.db = boundNodes first.db from rfl,
      boundNodes_of_sameContents hfirstContents]
    exact r.second_visits n
  have hfirstAgents : ∀ n, first.agents n = if limitedClients r.limitsAt reset = [] then s.agents n
      else (s.agents n).map (·.offered .singBox (offer env limited.db n .singBox)) :=
    agents_round _ r.first_visits
  have hsecondAgents : ∀ n, second.agents n = if r.affected = [] then first.agents n
      else (first.agents n).map (·.offered .singBox (offer env held.db n .singBox)) :=
    agents_round _ hheldNodes
  refine ⟨{ second with db := cleanupOldRecords r.cleanupAt second.db }, rfl, ?_, fun n => ?_⟩
  · intro hnone n core
    obtain ⟨hboth, _⟩ := List.append_eq_nil_iff.mp hnone
    obtain ⟨hnoLimited, hnoReset⟩ := List.append_eq_nil_iff.mp hboth
    have hsame : limited.db = s.db :=
      (checkClientLimits_of_nil hnoLimited).trans (checkClientTrafficResets_of_nil hnoReset)
    rw [hoffer, hsame]
  · change second.agents n = _
    rw [hoffer, hsecondAgents, hfirstAgents, hheldOffer]
    by_cases hnone : r.affected = []
    · have hnoLimited : limitedClients r.limitsAt reset = [] :=
        (List.append_eq_nil_iff.mp (List.append_eq_nil_iff.mp hnone).1).1
      rw [if_pos hnone, if_pos hnone, if_pos hnoLimited]
    · rw [if_neg hnone, if_neg hnone]
      split
      · rfl
      · rw [Option.map_map]
        exact congrArg (Option.map · _) (funext fun conn => offered_offered _ _ conn)

/-- What an offer does to the outbox. -/
theorem outbox_offered (core : CoreType) (message : Option ConfigPush) (conn : AgentConnection) :
    (conn.offered core message).outbox = conn.outbox ∨
    ∃ m, message = some m ∧ conn.configVersions core.toStr ≠ some m.configVersion ∧
      (conn.offered core message).outbox = conn.outbox ++ [.configPush m] := by
  cases message with
  | none => exact Or.inl rfl
  | some m =>
    by_cases hsame : conn.configVersions core.toStr = some m.configVersion
    · exact Or.inl (congrArg AgentConnection.outbox (if_pos hsame))
    · by_cases halive : conn.receiverAlive = true
      · refine Or.inr ⟨m, rfl, hsame, ?_⟩
        exact congrArg AgentConnection.outbox ((if_neg hsame).trans (if_pos halive))
      · exact Or.inl (congrArg AgentConnection.outbox ((if_neg hsame).trans (if_neg halive)))

/-- A core that is stopped has no offer, and an offer for one core does not touch the version of
the other. -/
theorem stopOf_offered {env : HubEnv} {db : Db} {n : Uuid} (conn : AgentConnection)
    (core core' : CoreType) :
    stopOf db n (conn.offered core (offer env db n core)) core' = stopOf db n conn core' := by
  cases hoffer : offer env db n core with
  | none => rfl
  | some m =>
    rw [AgentConnection.offered]
    split
    · rfl
    · split
      · by_cases hcore : core' = core
        · rw [hcore, stopOf, stopOf, (mem_boundNodes_of_offer hoffer).2]
        · have hne : core'.toStr ≠ core.toStr := fun h => hcore (CoreType.toStr_injective h)
          rw [stopOf, stopOf, AgentConnection.sent]
          simp only [Function.update_of_ne hne]
      · rfl

theorem receiverAlive_offered (core : CoreType) (message : Option ConfigPush)
    (conn : AgentConnection) : (conn.offered core message).receiverAlive = conn.receiverAlive := by
  cases message with
  | none => rfl
  | some m =>
    simp only [AgentConnection.offered]
    split
    · rfl
    · split <;> rfl

/-- A live connection has the version of what it was offered. -/
theorem configVersions_offered {core : CoreType} {message : ConfigPush} {conn : AgentConnection}
    (halive : conn.receiverAlive = true) :
    (conn.offered core (some message)).configVersions core.toStr = some message.configVersion := by
  by_cases hsame : conn.configVersions core.toStr = some message.configVersion
  · exact (congrArg (AgentConnection.configVersions · core.toStr) (if_pos hsame)).trans hsame
  · have hsent : conn.offered core (some message) = conn.sent core message :=
      (if_neg hsame).trans (if_pos halive)
    rw [hsent]
    exact Function.update_self ..

/-- **The connection of a node after a run**: as before or offered the final offer, and then
reconciled. -/
theorem agents_runScheduled (env : HubEnv) {s : HubState} (r : CheckRun s.db) {n : Uuid}
    {conn : AgentConnection} (hconn : s.agents n = some conn) :
    (r.affected = [] → offer env (runScheduled env s r).db n .singBox =
      offer env s.db n .singBox) ∧
    ∃ conn', (runScheduled env s r).agents n = some conn' ∧
      CoresReconciled (runScheduled env s r).db n
        (List.replicate (r.agents.count n) (stopsFor (runScheduled env s r).db n conn)).flatten
        (if r.affected = [] then conn
          else conn.offered .singBox (offer env (runScheduled env s r).db n .singBox)) conn' := by
  obtain ⟨cleaned, hrun, hkept, hagents⟩ := agents_before_reconcile env r
  set conn₁ := if r.affected = [] then conn
    else conn.offered .singBox (offer env cleaned.db n .singBox) with hconn₁
  have hcleaned : cleaned.agents n = some conn₁ := by
    rw [hagents, hconn, hconn₁]
    split <;> rfl
  have hstops : stopsFor cleaned.db n conn₁ = stopsFor cleaned.db n conn := by
    rw [hconn₁]
    split
    · rfl
    · rw [stopsFor, stopsFor, stopOf_offered, stopOf_offered]
  obtain ⟨hdb, conn', hconn', h⟩ := reconciled_reconcileOrphanCores r.agents hcleaned
  rw [hstops] at h
  rw [hrun, hdb]
  exact ⟨fun hnone => hkept hnone n .singBox, conn', hconn', h⟩

/-- After a run that affects clients a live agent has the version of its offer. -/
theorem version_runScheduled (env : HubEnv) {s : HubState} (r : CheckRun s.db) {n : Uuid}
    {conn conn' : AgentConnection} {message : ConfigPush} (hconn : s.agents n = some conn)
    (hconn' : (runScheduled env s r).agents n = some conn') (halive : conn'.receiverAlive = true)
    (haffected : r.affected ≠ [])
    (hoffer : offer env (runScheduled env s r).db n .singBox = some message) :
    conn'.configVersions CoreType.singBox.toStr = some message.configVersion := by
  obtain ⟨_, conn'', hconn'', h⟩ := agents_runScheduled env r hconn
  obtain rfl : conn' = conn'' := Option.some.inj (hconn'.symm.trans hconn'')
  rw [if_neg haffected, hoffer] at h
  have halive' : conn.receiverAlive = true :=
    ((receiverAlive_offered ..).symm.trans h.receiverAlive.symm).trans halive
  rw [h.versions .singBox (mem_boundNodes_of_offer hoffer).2]
  exact configVersions_offered halive'

/-- **What a run leaves.**  A node that is connected is sent at most one configuration, its
offer by the database at the end, and only in a run that affects clients and to an agent that
has another version; after it come the stops of its orphan cores, each time the reconciliation
comes to the agent, and nothing else.  After a run that affects clients every live agent has the
version of its offer, and a run that affects none leaves up to date who was. -/
theorem upToDate_runScheduled (env : HubEnv) (s : HubState) (r : CheckRun s.db) {n : Uuid}
    {conn : AgentConnection} (hconn : s.agents n = some conn) :
    (∃ conn' pushes, (runScheduled env s r).agents n = some conn' ∧
      conn'.receiverAlive = conn.receiverAlive ∧
      conn'.outbox = conn.outbox ++ pushes.map .configPush ++
        (List.replicate (r.agents.count n) (stopsFor (runScheduled env s r).db n conn)).flatten ∧
      (pushes = [] ∨
        r.affected ≠ [] ∧ ∃ m, offer env (runScheduled env s r).db n .singBox = some m ∧
          conn.configVersions CoreType.singBox.toStr ≠ some m.configVersion ∧ pushes = [m])) ∧
    (r.affected ≠ [] ∨ UpToDate env s n → UpToDate env (runScheduled env s r) n) := by
  obtain ⟨hkept, conn', hconn', h⟩ := agents_runScheduled env r hconn
  refine ⟨?_, ?_⟩
  · by_cases hnone : r.affected = []
    · rw [if_pos hnone] at h
      refine ⟨conn', [], hconn', h.receiverAlive, ?_, Or.inl rfl⟩
      rw [h.outbox, List.map_nil, List.append_nil]
    · rw [if_neg hnone] at h
      have halive := h.receiverAlive.trans (receiverAlive_offered ..)
      rcases outbox_offered .singBox (offer env (runScheduled env s r).db n .singBox) conn with
        hsame | ⟨m, hm, hversion, hsent⟩
      · refine ⟨conn', [], hconn', halive, ?_, Or.inl rfl⟩
        rw [h.outbox, hsame, List.map_nil, List.append_nil]
      · refine ⟨conn', [m], hconn', halive, ?_, Or.inr ⟨hnone, m, hm, hversion, rfl⟩⟩
        rw [h.outbox, hsent]
        rfl
  · intro hcase conn'' hconn'' halive message hmessage
    by_cases hnone : r.affected = []
    · have hbefore : UpToDate env s n := hcase.resolve_left fun hsome => hsome hnone
      obtain rfl : conn' = conn'' := Option.some.inj (hconn'.symm.trans hconn'')
      rw [if_pos hnone] at h
      rw [h.versions .singBox (mem_boundNodes_of_offer hmessage).2]
      rw [hkept hnone] at hmessage
      exact hbefore conn hconn (h.receiverAlive.symm.trans halive) message hmessage
    · exact version_runScheduled env r hconn hconn'' halive hnone hmessage

/-! ### A client that has expired -/

namespace ExpiredClient

/-- An active client whose expiry date is over. -/
def client : Client := { OnHold.client with status := "active", expiryDate := some default }

def state : HubState where
  db := { PresetUser.db with
    protocolConfigs := .single { PresetUser.config with coreType := "sing-box" }
    clients := .single client
    clientGroupBindings := .single ⟨.ofNat 20, client.id, .ofNat 21⟩
    nodeBindingGroupBindings := .single ⟨.ofNat 22, PresetUser.binding.id, .ofNat 21⟩ }
  agents _ := some ⟨[], true, fun _ => none⟩

def run : CheckRun state.db where
  resetsAt := default
  limitsAt _ := ⟨1, 0⟩
  holdsAt := default
  cleanupAt := default
  firstNodes := boundNodes state.db
  secondNodes := (boundNodes state.db).reverse
  agents := [PresetUser.node]
  first_visits _ := Iff.rfl
  second_visits _ := List.mem_reverse

end ExpiredClient

theorem upToDate_runScheduled_expired : ExpiredClient.run.affected ≠ [] ∧
    (offer MihomoPush.env ExpiredClient.state.db PresetUser.node .singBox).isSome = true ∧
    UpToDate MihomoPush.env
      (runScheduled MihomoPush.env ExpiredClient.state ExpiredClient.run) PresetUser.node := by
  have haffected : ExpiredClient.run.affected ≠ [] := by decide
  exact ⟨haffected, by decide, (upToDate_runScheduled MihomoPush.env ExpiredClient.state
    ExpiredClient.run rfl).2 (Or.inl haffected)⟩

/-! ### Who may connect after a run -/

/-- The tables that a run writes. -/
theorem db_runScheduled (env : HubEnv) (s : HubState) (r : CheckRun s.db) :
    ∃ pending sessions logs, (runScheduled env s r).db =
      { runPeriodicChecks r.resetsAt r.limitsAt r.holdsAt s.db with
        nodePendingUpdates := pending, clientOnlineSessions := sessions, agentLogs := logs } := by
  have hreconcile : ∀ (agents : List Uuid) (s : HubState),
      (reconcileOrphanCores agents s).db = s.db := by
    intro agents
    induction agents with
    | nil => exact fun _ => rfl
    | cons nodeId agents ih =>
      exact fun s => (ih _).trans ((db_reconcileCore ..).trans (db_reconcileCore ..))
  have hcleanup : ∀ db : Db, ∃ sessions logs, cleanupOldRecords r.cleanupAt db =
      { db with clientOnlineSessions := sessions, agentLogs := logs } := by
    intro db
    rw [cleanupOldRecords]
    split
    · exact ⟨_, _, rfl⟩
    · exact ⟨_, db.agentLogs, rfl⟩
  set limited : HubState := { s with
    db := checkClientLimits r.limitsAt (checkClientTrafficResets r.resetsAt s.db) } with hlimited
  set first := if limitedClients r.limitsAt (checkClientTrafficResets r.resetsAt s.db) = []
    then limited else pushUpdatedConfigs env r.firstNodes limited with hfirst
  set held : HubState := { first with db := checkOnHoldTimeouts r.holdsAt first.db } with hheld
  obtain ⟨pending₁, hfirstDb⟩ : SameContents limited.db first.db := sameContents_round ..
  obtain ⟨pending₂, hsecondDb⟩ := sameContents_round env held r.secondNodes r.affected
  obtain ⟨sessions, logs, hcleanedDb⟩ := hcleanup
    (if r.affected = [] then held else pushUpdatedConfigs env r.secondNodes held).db
  refine ⟨pending₂, sessions, logs, ?_⟩
  calc (runScheduled env s r).db
      = cleanupOldRecords r.cleanupAt
          (if r.affected = [] then held else pushUpdatedConfigs env r.secondNodes held).db :=
        hreconcile ..
    _ = { setPendingUpdates (checkOnHoldTimeouts r.holdsAt (setPendingUpdates limited.db pending₁))
            pending₂ with clientOnlineSessions := sessions, agentLogs := logs } := by
        rw [hcleanedDb, hsecondDb, hheld, hfirstDb]
    _ = _ := rfl

/-- A client that is active after a run is neither expired nor over its limit. -/
theorem checkedRow_active {resetsAt limitsAt holdsAt : DateTime} {c : Client}
    (h : (checkedRow resetsAt limitsAt holdsAt c).status = "active") :
    ¬ Expired limitsAt (checkedRow resetsAt limitsAt holdsAt c) ∧
      ¬ OverLimit (checkedRow resetsAt limitsAt holdsAt c) := by
  have expired_ne_active : ("expired" : String) ≠ "active" := by decide
  have limited_ne_active : ("limited" : String) ≠ "active" := by decide
  rw [checkedRow] at h ⊢
  rcases holdRow_cases holdsAt (limitRow limitsAt (resetRow resetsAt c)) with
    ⟨_, _, hrow⟩ | ⟨hrow, _⟩
  · rw [hrow] at h
    exact absurd h expired_ne_active
  · rw [hrow] at h ⊢
    rcases limitRow_cases limitsAt (resetRow resetsAt c) with
      ⟨_, hrow, _⟩ | ⟨_, hrow, _⟩ | ⟨hrow, hrest⟩
    · rw [hrow] at h
      exact absurd h expired_ne_active
    · rw [hrow] at h
      exact absurd h limited_ne_active
    · rw [hrow] at h ⊢
      exact hrest h

/-- What is offered was generated. -/
theorem generated_of_offer {env : HubEnv} {db : Db} {n : Uuid} {core : CoreType}
    {message : ConfigPush} (h : offer env db n core = some message) :
    ∃ out, (generateNodeConfig env.toGenEnv n core).exec db = .ok out ∧
      message.configJson = out.1.render := by
  have hbound := (mem_boundNodes_of_offer h).2
  rw [offer_eq, if_pos hbound, produced] at h
  cases hgen : (generateNodeConfig env.toGenEnv n core).exec db with
  | error e =>
    rw [hgen] at h
    cases h
  | ok out =>
    rw [hgen] at h
    obtain ⟨out', hout', h⟩ := Option.bind_eq_some_iff.mp h
    obtain ⟨buildId, _, rfl⟩ := Option.map_eq_some_iff.mp hout'
    by_cases hinbounds : hasInbounds out.1 = true
    · rw [if_pos hinbounds] at h
      cases h
      exact ⟨out, rfl, rfl⟩
    · rw [if_neg hinbounds] at h
      cases h

/-- The users of a sing-box inbound into which clients are injected. -/
theorem mem_credentials_of_members {db : Db} {n : Uuid} {binding : NodeBinding} {inbound : Json}
    (hinbound : inboundFor db n .singBox binding = some inbound)
    (hmembers : groupMembers db binding.id ≠ [])
    (hobject : ∀ config, db.protocolConfigs.find binding.protocolConfigId = some config →
      (mergedSettings config binding).isObject = true) {v : String} :
    v ∈ Builder.credentials inbound ↔ ∃ c ∈ authorizedClients db binding.id, c.id.toStr = v := by
  obtain ⟨config, protocol, tls, hconfig, _, hprotocol, _, hbuild⟩ := inboundFor_eq_some hinbound
  have hnotMap : ¬ (CoreType.singBox = .mihomo ∧ protocol.isVless = false) :=
    fun h => absurd h.1 (by decide)
  rw [credentials_buildInbound hbuild, builtCredentials_withListen,
    ← ProtocolType.toStr_of_fromStr? hprotocol,
    mem_builtCredentials_injected hmembers (hobject config hconfig), acceptedClients,
    if_neg hnotMap]

/-- **Who may connect after a run that affects clients.**  A live agent with an offer has the
version of a configuration in which each inbound with injected users accepts a client if and
only if the client is in a group of the binding and the checks of the run left it active, and
then it is neither expired nor over its limit. -/
theorem users_runScheduled (env : HubEnv) (s : HubState) (r : CheckRun s.db) {n : Uuid}
    {conn : AgentConnection} {message : ConfigPush} (hconn : s.agents n = some conn)
    (halive : conn.receiverAlive = true) (haffected : r.affected ≠ [])
    (hoffer : offer env (runScheduled env s r).db n .singBox = some message) :
    ∃ out, (generateNodeConfig env.toGenEnv n .singBox).exec (runScheduled env s r).db = .ok out ∧
      message.configJson = out.1.render ∧
      agentConfigVersion (runScheduled env s r) n .singBox = some message.configVersion ∧
      ∀ binding ∈ activeBindings s.db n, groupMembers s.db binding.id ≠ [] →
        (∀ config, s.db.protocolConfigs.find binding.protocolConfigId = some config →
          (mergedSettings config binding).isObject = true) →
        ∀ inbound, inboundFor (runScheduled env s r).db n .singBox binding = some inbound →
          inbound ∈ emitted .singBox out.1 ∧
          ∀ c ∈ s.db.clients.rows,
            let checked := checkedRow r.resetsAt (r.limitsAt (resetRow r.resetsAt c)) r.holdsAt c
            (c.id.toStr ∈ Builder.credentials inbound ↔
              SharesGroup s.db c.id binding.id ∧ checked.status = "active") ∧
            (c.id.toStr ∈ Builder.credentials inbound →
              ¬ Expired (r.limitsAt (resetRow r.resetsAt c)) checked ∧ ¬ OverLimit checked) := by
  obtain ⟨out, hout, hjson⟩ := generated_of_offer hoffer
  have hversion : agentConfigVersion (runScheduled env s r) n .singBox =
      some message.configVersion := by
    obtain ⟨_, conn', hconn', h⟩ := agents_runScheduled env r hconn
    rw [if_neg haffected] at h
    have halive' : conn'.receiverAlive = true :=
      (h.receiverAlive.trans (receiverAlive_offered ..)).trans halive
    rw [agentConfigVersion, hconn', Option.bind_some]
    exact version_runScheduled env r hconn hconn' halive' haffected hoffer
  obtain ⟨pending, sessions, logs, hdb⟩ := db_runScheduled env s r
  refine ⟨out, hout, hjson, hversion, fun binding hbinding hmembers hobject inbound hinbound => ?_⟩
  have hbindings : activeBindings (runScheduled env s r).db n = activeBindings s.db n := by
    rw [hdb]
    rfl
  have hmembers' : groupMembers (runScheduled env s r).db binding.id =
      groupMembers s.db binding.id := by
    rw [hdb]
    rfl
  have hconfigs : (runScheduled env s r).db.protocolConfigs = s.db.protocolConfigs := by
    rw [hdb]
    rfl
  have hcredentials : ∀ v, v ∈ Builder.credentials inbound ↔
      ∃ c ∈ authorizedClients (runScheduled env s r).db binding.id, c.id.toStr = v := fun v =>
    mem_credentials_of_members hinbound (hmembers'.symm ▸ hmembers) (hconfigs.symm ▸ hobject)
  refine ⟨?_, fun c hc => ?_⟩
  · rw [emitted_generateNodeConfig hout, List.mem_filterMap]
    exact ⟨binding, hbindings.symm ▸ hbinding, hinbound⟩
  set checked := checkedRow r.resetsAt (r.limitsAt (resetRow r.resetsAt c)) r.holdsAt c
    with hchecked
  have hfind : (runScheduled env s r).db.clients.find c.id = some checked := by
    rw [hdb]
    change (runPeriodicChecks r.resetsAt r.limitsAt r.holdsAt s.db).clients.find c.id = _
    have hrow : s.db.clients.find c.id = some c := Table.find_eq_some_iff.mpr ⟨hc, rfl⟩
    rw [find_runPeriodicChecks, hrow]
    rfl
  have hid : checked.id = c.id := Table.key_of_find hfind
  have hiff : c.id.toStr ∈ Builder.credentials inbound ↔
      SharesGroup s.db c.id binding.id ∧ checked.status = "active" := by
    rw [hcredentials]
    constructor
    · rintro ⟨d, hd, hdc⟩
      obtain ⟨hrow, hshares, hactive⟩ := mem_authorizedClients.mp hd
      rw [Uuid.toStr_inj] at hdc
      have hdchecked : d = checked :=
        eq_of_id_eq hrow (Table.mem_of_find hfind) (hdc.trans hid.symm)
      rw [← mem_groupMembers, hmembers', hdc, mem_groupMembers] at hshares
      exact ⟨hshares, hdchecked ▸ hactive⟩
    · rintro ⟨hshares, hactive⟩
      refine ⟨checked, mem_authorizedClients.mpr ⟨Table.mem_of_find hfind, ?_, hactive⟩,
        congrArg Uuid.toStr hid⟩
      rw [← mem_groupMembers, hmembers', hid, mem_groupMembers]
      exact hshares
  exact ⟨hiff, fun hmem => checkedRow_active (hiff.mp hmem).2⟩

/-- The expired client is in no inbound of the configuration that the agent has the version of. -/
theorem users_runScheduled_expired : ∃ message inbound,
    agentConfigVersion (runScheduled MihomoPush.env ExpiredClient.state ExpiredClient.run)
      PresetUser.node .singBox = some (ConfigPush.configVersion message) ∧
    inboundFor (runScheduled MihomoPush.env ExpiredClient.state ExpiredClient.run).db
      PresetUser.node .singBox PresetUser.binding = some inbound ∧
    ExpiredClient.client.id.toStr ∉ Builder.credentials inbound := by
  have hsome : (offer MihomoPush.env
      (runScheduled MihomoPush.env ExpiredClient.state ExpiredClient.run).db
      PresetUser.node .singBox).isSome = true := by decide
  have hemits : (inboundFor (runScheduled MihomoPush.env ExpiredClient.state ExpiredClient.run).db
      PresetUser.node .singBox PresetUser.binding).isSome = true := by decide
  have hobject : (mergedSettings { PresetUser.config with coreType := "sing-box" }
      PresetUser.binding).isObject = true := by decide
  obtain ⟨message, hmessage⟩ := Option.isSome_iff_exists.mp hsome
  obtain ⟨inbound, hinbound⟩ := Option.isSome_iff_exists.mp hemits
  obtain ⟨out, _, _, hversion, hbindings⟩ := users_runScheduled MihomoPush.env ExpiredClient.state
    ExpiredClient.run rfl rfl (by decide) hmessage
  obtain ⟨_, hclients⟩ := hbindings PresetUser.binding List.mem_cons_self (by decide)
    (fun config hconfig => by cases hconfig; exact hobject) inbound hinbound
  obtain ⟨hiff, _⟩ := hclients ExpiredClient.client List.mem_cons_self
  exact ⟨message, inbound, hversion, hinbound, fun hmem =>
    absurd (hiff.mp hmem).2 (by decide)⟩

end ProxyPanel.Hub
