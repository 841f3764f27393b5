import Mathlib.Logic.Function.Basic
import ProxyPanel.Hub.Access

/-!
# Pushing a configuration

The hub keeps one connection for each registered agent: the sending half of its
channel and the configuration versions it is expected to run.  A push validates
the ports of the node, generates the configuration, sends it, records its version
and clears the pending marker.
-/

namespace ProxyPanel.Hub

open Json Query

/-- What a push takes from outside: the generator's environment and the hash that
gives a configuration its version. -/
structure HubEnv extends GenEnv where
  configVersionOf : String → String

/-- The message that carries a configuration to an agent. -/
structure ConfigPush where
  configJson : String
  targetCore : Nat
  restartRequired : Bool
  configVersion : String
  coreVersion : String
  coreBuildId : String
  deriving DecidableEq, Repr

/-- The messages to an agent that are about its cores. -/
inductive HubMessage where
  | configPush (push : ConfigPush)
  | coreStop (coreType : Nat)
  deriving DecidableEq, Repr

/-- A registered agent: the messages in its channel, whether the receiving half
is still there, and the recorded configuration versions. -/
structure AgentConnection where
  outbox : List HubMessage
  receiverAlive : Bool
  configVersions : String → Option String

structure HubState where
  db : Db
  agents : Uuid → Option AgentConnection

/-- The version also changes when the build of a pinned rolling tag changes. -/
def pushVersionOf (env : HubEnv) (configStr buildId : String) : String :=
  if buildId = "" then env.configVersionOf configStr
  else env.configVersionOf (configStr ++ "#build:" ++ buildId)

/-! ### Port conflicts -/

/-- Address and port of a binding, with its overrides. -/
def listenOf (config : ProtocolConfig) (binding : NodeBinding) : String × Nat :=
  let port := (config.listenPort % 65536).toNat
  match binding.overrideSettings with
  | some overrides =>
    ((overrides.getStr "listen_address").getD config.listenAddress,
      ((overrides.getU64 "listen_port").map (· % 65536)).getD port)
  | none => (config.listenAddress, port)

/-- One binding of the check.  `used` are the addresses, ports and cores so far. -/
def checkPort (used : List (String × Nat × CoreType)) (binding : NodeBinding) :
    Program (List (String × Nat × CoreType)) := do
  match ← read (·.protocolConfigs.find binding.protocolConfigId) with
  | none => return used
  | some config =>
    let (listen, port) := listenOf config binding
    let core := parseCoreType config.coreType
    if (listen, port, core) ∈ used then
      throw (.validation ("port conflict on " ++ listen ++ ":" ++ toString port ++
        ": multiple inbounds target " ++ core.debug))
    else return (listen, port, core) :: used

/-- No two active bindings of the node listen on one address and port for one core. -/
def validateNodePortConflicts (nodeId : Uuid) : Program Unit := do
  let bindings ← read (·.nodeBindings.filter fun b => b.nodeId = nodeId ∧ b.isActive)
  let _ ← loop checkPort [] bindings
  return ()

/-- `map_err`. -/
def mapErr {α : Type} (f : PanelError → PanelError) : Program α → Program α
  | .pure a => .pure a
  | .throw e => .throw (f e)
  | .ask k => .ask fun db => mapErr f (k db)

theorem exec_mapErr {α : Type} (f : PanelError → PanelError) (m : Program α) (db : Db) :
    (mapErr f m).exec db = (m.exec db).mapError f := by
  induction m with
  | pure a => rfl
  | throw e => rfl
  | ask k ih => exact ih db

/-- What a binding listens on, when its config exists. -/
def portUse (db : Db) (binding : NodeBinding) : Option (String × Nat × CoreType) :=
  (db.protocolConfigs.find binding.protocolConfigId).map fun config =>
    ((listenOf config binding).1, (listenOf config binding).2, parseCoreType config.coreType)

/-- The active bindings of a node listen on different addresses or ports for one core. -/
def NoPortConflict (db : Db) (nodeId : Uuid) : Prop :=
  ((activeBindings db nodeId).filterMap (portUse db)).Nodup

instance (db : Db) (nodeId : Uuid) : Decidable (NoPortConflict db nodeId) :=
  inferInstanceAs (Decidable (List.Nodup _))

theorem exec_loop_checkPort (db : Db) (bindings : List NodeBinding)
    (used : List (String × Nat × CoreType)) :
    (∃ used', (loop checkPort used bindings).exec db = .ok used') ↔
      (bindings.filterMap (portUse db)).Nodup ∧
        ∀ use ∈ bindings.filterMap (portUse db), use ∉ used := by
  induction bindings generalizing used with
  | nil => exact iff_of_true ⟨used, rfl⟩ ⟨List.nodup_nil, fun _ h => absurd h List.not_mem_nil⟩
  | cons b bs ih =>
    rw [loop, exec_bind, checkPort, exec_read_bind, List.filterMap_cons, portUse]
    cases hconfig : db.protocolConfigs.find b.protocolConfigId with
    | none => exact ih used
    | some config =>
      simp only [Option.map_some]
      generalize hu : ((listenOf config b).1, (listenOf config b).2,
        parseCoreType config.coreType) = use
      by_cases hmem : use ∈ used
      · rw [if_pos hmem]
        refine iff_of_false ?_ (fun h => h.2 use List.mem_cons_self hmem)
        rintro ⟨used', h⟩
        cases h
      · rw [if_neg hmem]
        change (∃ used', (loop checkPort (use :: used) bs).exec db = .ok used') ↔ _
        rw [ih, List.nodup_cons]
        constructor
        · rintro ⟨hnd, hdisj⟩
          refine ⟨⟨fun h => hdisj use h List.mem_cons_self, hnd⟩, fun x hx => ?_⟩
          rcases List.mem_cons.mp hx with rfl | hx
          · exact hmem
          · exact fun h => hdisj x hx (List.mem_cons_of_mem use h)
        · rintro ⟨⟨hnot, hnd⟩, hdisj⟩
          refine ⟨hnd, fun x hx h => ?_⟩
          rcases List.mem_cons.mp h with rfl | h
          · exact hnot hx
          · exact hdisj x (List.mem_cons_of_mem use hx) h

/-- The port check succeeds exactly when there is no conflict. -/
theorem exec_validateNodePortConflicts (db : Db) (nodeId : Uuid) :
    (validateNodePortConflicts nodeId).exec db = .ok () ↔ NoPortConflict db nodeId := by
  have hloop := exec_loop_checkPort db (activeBindings db nodeId) []
  rw [validateNodePortConflicts, exec_read_bind, exec_bind]
  change ((loop checkPort [] (activeBindings db nodeId)).exec db >>= fun _ => .ok ()) = .ok () ↔ _
  cases h : (loop checkPort [] (activeBindings db nodeId)).exec db with
  | error e =>
    refine iff_of_false (fun hc => by cases hc) (fun hnd => ?_)
    obtain ⟨used', hused⟩ := hloop.mpr ⟨hnd, fun _ _ => List.not_mem_nil⟩
    rw [h] at hused
    cases hused
  | ok used' => exact iff_of_true rfl (hloop.mp ⟨used', h⟩).1

/-! ### The message -/

/-- The message for a generated configuration. -/
def configPush (env : HubEnv) (core : CoreType) (restart : Bool) (version : Option String)
    (config : Json) (coreVersion : Option String) (buildId : String) : ConfigPush where
  configJson := config.render
  targetCore := core.proto
  restartRequired := restart
  configVersion := (version.filter (fun v => v ≠ "")).getD (pushVersionOf env config.render buildId)
  coreVersion := coreVersion.getD ""
  coreBuildId := buildId

/-- The statements of `push_node_config` up to the send. -/
def preparePush (env : HubEnv) (nodeId : Uuid) (core : CoreType) (restart : Bool)
    (version : Option String) : Program ConfigPush := do
  mapErr (fun e => .validation ("node " ++ nodeId.toStr ++ " port conflict: " ++ e.toStr))
    (validateNodePortConflicts nodeId)
  let (config, coreVersion) ← generateNodeConfig env.toGenEnv nodeId core
  let buildId ← coreBuildIdOf core coreVersion
  return configPush env core restart version config coreVersion buildId

/-! ### Sending -/

def HubState.setAgent (s : HubState) (nodeId : Uuid) (conn : Option AgentConnection) : HubState :=
  { s with agents := Function.update s.agents nodeId conn }

def sendToAgent (s : HubState) (nodeId : Uuid) (message : HubMessage) : PanelResult HubState :=
  match s.agents nodeId with
  | some conn =>
    if conn.receiverAlive then
      .ok (s.setAgent nodeId (some { conn with outbox := conn.outbox ++ [message] }))
    else .error (.internal "agent channel closed: channel closed")
  | none => .error (.internal ("agent " ++ nodeId.toStr ++ " not connected"))

def agentConfigVersion (s : HubState) (nodeId : Uuid) (core : CoreType) : Option String :=
  (s.agents nodeId).bind (·.configVersions core.toStr)

def setAgentConfigVersion (s : HubState) (nodeId : Uuid) (core : CoreType) (version : String) :
    HubState :=
  s.setAgent nodeId ((s.agents nodeId).map fun conn =>
    { conn with configVersions := Function.update conn.configVersions core.toStr (some version) })

/-- Clear the pending marker of a node and core. -/
def clearPending (db : Db) (nodeId : Uuid) (core : CoreType) : Db :=
  { db with nodePendingUpdates := db.nodePendingUpdates.deleteWhere fun r =>
      r.nodeId = nodeId ∧ r.coreType = core.toStr }

/-- Send, record the version, clear the marker. -/
def deliver (s : HubState) (nodeId : Uuid) (core : CoreType) (message : ConfigPush) :
    PanelResult HubState := do
  let s ← sendToAgent s nodeId (.configPush message)
  let s := setAgentConfigVersion s nodeId core message.configVersion
  return { s with db := clearPending s.db nodeId core }

/-- Push the generated configuration of a core to the agent of a node. -/
def pushNodeConfig (env : HubEnv) (s : HubState) (nodeId : Uuid) (core : CoreType) (restart : Bool)
    (version : Option String) : PanelResult HubState := do
  let message ← (preparePush env nodeId core restart version).exec s.db
  match deliver s nodeId core message with
  | .ok s => return s
  | .error e => throw (.internal ("failed to push config: " ++ e.toStr))

end ProxyPanel.Hub
