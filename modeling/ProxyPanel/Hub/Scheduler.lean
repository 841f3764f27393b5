import ProxyPanel.Hub.Push

/-!
# The scheduled push

The scheduler pushes the configuration of a core on its own.  Its pipeline repeats
that of `pushNodeConfig` with other guards; `scheduled_eq_manual_iff` says exactly
when both send the same.
-/

namespace ProxyPanel.Hub

open Json Query

/-- Whether an active binding of the node is for the core.  A binding without a
config counts as one for sing-box. -/
def checkBindingsForCore (core : CoreType) : List NodeBinding → Program Bool
  | [] => return false
  | binding :: bindings => do
    let config ← read (·.protocolConfigs.find binding.protocolConfigId)
    if parseCoreType ((config.map (·.coreType)).getD "") = core then return true
    else checkBindingsForCore core bindings

/-- The check that the core has at least one inbound. -/
def hasInbounds (config : Json) : Bool :=
  match config.getArr "inbounds" with
  | some inbounds => !inbounds.isEmpty
  | none => false

/-- The statements of the scheduler's `push_config_for_core` up to the send, `none`
where it returns without sending. -/
def prepareScheduled (env : HubEnv) (nodeId : Uuid) (core : CoreType) :
    Program (Option ConfigPush) := do
  let bindings ← read (·.nodeBindings.filter fun b => b.nodeId = nodeId ∧ b.isActive)
  if ← checkBindingsForCore core bindings then
    let (config, coreVersion) ← generateNodeConfig env.toGenEnv nodeId core
    if hasInbounds config then
      let buildId ← coreBuildIdOf core coreVersion
      return some (configPush env core false none config coreVersion buildId)
    else return none
  else return none

/-- The scheduler's push of one core.  Every error is logged. -/
def pushConfigForCore (env : HubEnv) (s : HubState) (nodeId : Uuid) (core : CoreType) : HubState :=
  match (prepareScheduled env nodeId core).exec s.db with
  | .ok (some message) =>
    if agentConfigVersion s nodeId core = some message.configVersion then s
    else
      match deliver s nodeId core message with
      | .ok s' => s'
      | .error _ => s
  | _ => s

/-! ### Comparison -/

/-- The messages in the channel of a node. -/
def messagesTo (s : HubState) (nodeId : Uuid) : List HubMessage :=
  ((s.agents nodeId).map (·.outbox)).getD []

theorem exec_checkBindingsForCore {db : Db} {core : CoreType} {bindings : List NodeBinding}
    (h : ∃ b ∈ bindings, ∃ config, db.protocolConfigs.find b.protocolConfigId = some config ∧
      parseCoreType config.coreType = core) :
    (checkBindingsForCore core bindings).exec db = .ok true := by
  induction bindings with
  | nil =>
    obtain ⟨b, hb, _⟩ := h
    exact absurd hb List.not_mem_nil
  | cons b bs ih =>
    rw [checkBindingsForCore, exec_read_bind]
    split
    · rfl
    · rename_i hcore
      refine ih ?_
      obtain ⟨b', hb', config, hconfig, hcore'⟩ := h
      rcases List.mem_cons.mp hb' with rfl | hb'
      · rw [hconfig] at hcore
        exact absurd hcore' hcore
      · exact ⟨b', hb', config, hconfig, hcore'⟩

/-- The scheduler's check sees the inbounds of sing-box and never those of mihomo. -/
theorem hasInbounds_generated {gen : GenEnv} {nodeId : Uuid} {core : CoreType} {db : Db}
    {out : Json × Option String} (h : (generateNodeConfig gen nodeId core).exec db = .ok out)
    (hemitted : emitted core out.1 ≠ []) : hasInbounds out.1 = true ↔ core = .singBox := by
  rw [hasInbounds]
  cases core with
  | singBox =>
    refine iff_of_true ?_ rfl
    rw [emitted, inboundsKey] at hemitted
    cases harr : out.1.getArr "inbounds" with
    | none => rw [harr] at hemitted; exact absurd rfl hemitted
    | some inbounds => rw [harr] at hemitted; simpa using hemitted
  | mihomo =>
    obtain ⟨ibs, config, _, hconfig, hrules, _⟩ := generateNodeConfig_ok h
    have hnone : out.1.getArr "inbounds" = none := by
      rw [getArr, get_applyRelayRules (by decide) hrules,
        Mihomo.get_inbounds_buildFullConfig hconfig]
      rfl
    rw [hnone]
    exact iff_of_false Bool.false_ne_true (fun hc => by cases hc)

/-- The channel of a live agent after a delivery. -/
theorem deliver_ok {s : HubState} {nodeId : Uuid} {conn : AgentConnection}
    (hconn : s.agents nodeId = some conn) (halive : conn.receiverAlive = true) (core : CoreType)
    (message : ConfigPush) : ∃ s', deliver s nodeId core message = .ok s' ∧
      messagesTo s' nodeId = messagesTo s nodeId ++ [.configPush message] := by
  refine ⟨_, by rw [deliver, sendToAgent, hconn]; simp only [halive, if_true]; rfl, ?_⟩
  simp [messagesTo, setAgentConfigVersion, HubState.setAgent, hconn]

/-- What the scheduler prepares for a generated configuration. -/
theorem exec_prepareScheduled {env : HubEnv} {nodeId : Uuid} {core : CoreType} {db : Db}
    {out : Json × Option String} {buildId : String} {binding : NodeBinding} {inbound : Json}
    (hactive : binding ∈ activeBindings db nodeId)
    (hinbound : inboundFor db nodeId core binding = some inbound)
    (hgen : (generateNodeConfig env.toGenEnv nodeId core).exec db = .ok out)
    (hbuild : (coreBuildIdOf core out.2).exec db = .ok buildId) :
    (prepareScheduled env nodeId core).exec db =
      .ok (if core = .singBox then some (configPush env core false none out.1 out.2 buildId)
        else none) := by
  have hcheck : (checkBindingsForCore core (activeBindings db nodeId)).exec db = .ok true := by
    obtain ⟨config, _, _, hconfig, hcore, _⟩ := inboundFor_eq_some hinbound
    exact exec_checkBindingsForCore ⟨binding, hactive, config, hconfig, hcore⟩
  have hemitted : emitted core out.1 ≠ [] := by
    rw [emitted_generateNodeConfig hgen]
    exact List.ne_nil_of_mem (List.mem_filterMap.mpr ⟨binding, hactive, hinbound⟩)
  rw [prepareScheduled, exec_read_bind, exec_bind]
  change ((checkBindingsForCore core (activeBindings db nodeId)).exec db >>= _) = _
  rw [hcheck]
  change (generateNodeConfig env.toGenEnv nodeId core >>= _ : Program _).exec db = _
  rw [exec_bind, hgen]
  change (if hasInbounds out.1 = true then _ else _ : Program (Option ConfigPush)).exec db = _
  by_cases hcore : core = .singBox
  · rw [if_pos ((hasInbounds_generated hgen hemitted).mpr hcore), if_pos hcore, exec_bind, hbuild]
    rfl
  · rw [if_neg (fun h => hcore ((hasInbounds_generated hgen hemitted).mp h)), if_neg hcore]
    rfl

/-- What the manual push prepares for a generated configuration. -/
theorem exec_preparePush {env : HubEnv} {nodeId : Uuid} {core : CoreType} {db : Db}
    {out : Json × Option String} {buildId : String} (restart : Bool) (version : Option String)
    (hgen : (generateNodeConfig env.toGenEnv nodeId core).exec db = .ok out)
    (hbuild : (coreBuildIdOf core out.2).exec db = .ok buildId) :
    (NoPortConflict db nodeId → (preparePush env nodeId core restart version).exec db =
      .ok (configPush env core restart version out.1 out.2 buildId)) ∧
    (¬ NoPortConflict db nodeId →
      ∃ e, (preparePush env nodeId core restart version).exec db = .error e) := by
  rw [preparePush, exec_bind, exec_mapErr, ← exec_validateNodePortConflicts]
  constructor
  · intro hvalid
    rw [hvalid]
    change (generateNodeConfig env.toGenEnv nodeId core >>= _ : Program _).exec db = _
    rw [exec_bind, hgen]
    change (coreBuildIdOf core out.2 >>= _ : Program _).exec db = _
    rw [exec_bind, hbuild]
    rfl
  · intro hinvalid
    cases h : (validateNodePortConflicts nodeId).exec db with
    | error e => exact ⟨_, rfl⟩
    | ok u => exact absurd h hinvalid

/-- **Scheduled push equals manual push** exactly for sing-box without a port
conflict and for mihomo with one: the scheduler does not validate ports, and looks
for `inbounds`, which a mihomo configuration does not have. -/
theorem scheduled_eq_manual_iff {env : HubEnv} {s : HubState} {nodeId : Uuid} {core : CoreType}
    {conn : AgentConnection} {out : Json × Option String} {buildId : String}
    {binding : NodeBinding} {inbound : Json} (hconn : s.agents nodeId = some conn)
    (halive : conn.receiverAlive = true) (hactive : binding ∈ activeBindings s.db nodeId)
    (hinbound : inboundFor s.db nodeId core binding = some inbound)
    (hgen : (generateNodeConfig env.toGenEnv nodeId core).exec s.db = .ok out)
    (hbuild : (coreBuildIdOf core out.2).exec s.db = .ok buildId)
    (hversion : agentConfigVersion s nodeId core ≠ some (pushVersionOf env out.1.render buildId)) :
    (messagesTo (pushConfigForCore env s nodeId core) nodeId =
        match pushNodeConfig env s nodeId core false none with
        | .ok s' => messagesTo s' nodeId
        | .error _ => messagesTo s nodeId) ↔
      (core = .singBox ↔ NoPortConflict s.db nodeId) := by
  have hsched := exec_prepareScheduled hactive hinbound hgen hbuild
  obtain ⟨hprepared, hrefused⟩ := exec_preparePush false none hgen hbuild
  set message := configPush env core false none out.1 out.2 buildId with hmessage
  obtain ⟨s', hs', hsent⟩ := deliver_ok hconn halive core message
  have hscheduled : messagesTo (pushConfigForCore env s nodeId core) nodeId =
      if core = .singBox then messagesTo s nodeId ++ [.configPush message]
      else messagesTo s nodeId := by
    rw [pushConfigForCore, hsched]
    by_cases hcore : core = .singBox
    · have hnew : agentConfigVersion s nodeId core ≠ some message.configVersion := hversion
      simp only [if_pos hcore, if_neg hnew, hs', hsent]
    · simp only [if_neg hcore]
  have hmanual : (match pushNodeConfig env s nodeId core false none with
      | .ok s' => messagesTo s' nodeId
      | .error _ => messagesTo s nodeId) =
      if NoPortConflict s.db nodeId then messagesTo s nodeId ++ [.configPush message]
      else messagesTo s nodeId := by
    rw [pushNodeConfig]
    by_cases hport : NoPortConflict s.db nodeId
    · rw [hprepared hport, if_pos hport, ← hsent]
      change (match (match deliver s nodeId core message with
        | .ok s => (Pure.pure s : PanelResult HubState)
        | .error _ => _) with
        | .ok s' => messagesTo s' nodeId
        | .error _ => messagesTo s nodeId) = _
      rw [hs']
      rfl
    · obtain ⟨e, he⟩ := hrefused hport
      rw [he, if_neg hport]
      rfl
  rw [hscheduled, hmanual]
  by_cases hcore : core = .singBox <;> by_cases hport : NoPortConflict s.db nodeId <;>
    simp [hcore, hport]

/-! ### A mihomo node -/

namespace MihomoPush

def env : HubEnv := { PresetUser.gen with configVersionOf := fun _ => "f961bc20989301e2" }

def state : HubState := ⟨PresetUser.db, fun _ => some ⟨[], true, fun _ => none⟩⟩

end MihomoPush

/-- The manual push sends the configuration of a mihomo node, the scheduler nothing. -/
theorem mihomo_not_scheduled :
    messagesTo (pushConfigForCore MihomoPush.env MihomoPush.state PresetUser.node .mihomo)
      PresetUser.node ≠
    match pushNodeConfig MihomoPush.env MihomoPush.state PresetUser.node .mihomo false none with
    | .ok s' => messagesTo s' PresetUser.node
    | .error _ => messagesTo MihomoPush.state PresetUser.node := by
  decide

theorem scheduled_eq_manual_iff_mihomo :
    (messagesTo (pushConfigForCore MihomoPush.env MihomoPush.state PresetUser.node .mihomo)
      PresetUser.node =
        match pushNodeConfig MihomoPush.env MihomoPush.state PresetUser.node .mihomo false none with
        | .ok s' => messagesTo s' PresetUser.node
        | .error _ => messagesTo MihomoPush.state PresetUser.node) ↔
      (CoreType.mihomo = .singBox ↔ NoPortConflict MihomoPush.state.db PresetUser.node) := by
  obtain ⟨out, hout⟩ := PresetUser.exists_generated
  have hsome : (inboundFor PresetUser.db PresetUser.node .mihomo PresetUser.binding).isSome = true := by
    decide
  obtain ⟨inbound, hinbound⟩ := Option.isSome_iff_exists.mp hsome
  obtain ⟨_, _, _, _, _, hversion, _⟩ := generateNodeConfig_ok hout
  have hbuild : (coreBuildIdOf .mihomo out.2).exec MihomoPush.state.db = .ok "" := by
    rw [hversion]
    rfl
  have hactive : PresetUser.binding ∈ activeBindings MihomoPush.state.db PresetUser.node := by
    simp [activeBindings, MihomoPush.state, PresetUser.db, PresetUser.binding]
  exact @scheduled_eq_manual_iff MihomoPush.env MihomoPush.state PresetUser.node .mihomo _ out ""
    PresetUser.binding inbound rfl rfl hactive hinbound hout hbuild
    (by simp [agentConfigVersion, MihomoPush.state])

end ProxyPanel.Hub
