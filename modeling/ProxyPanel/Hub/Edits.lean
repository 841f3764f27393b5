import ProxyPanel.Hub.Marker

/-!
# Edits of the administrator

The handlers that change what nodes run: protocol configs, bindings, relay rules and the
active core version.  Each checks its request, writes rows and, some of them, calls
`mark_pending` for the nodes it takes to be affected; an error of that call is logged.  A
handler that fails keeps the rows it has written.
-/

namespace ProxyPanel.Hub

open Json

/-- A request handler: an error leaves the rows as they are at that point. -/
abbrev Handler (α : Type) := EStateM ApiError Db α

namespace Handler

variable {α β : Type} {db db' : Db}

/-- A result that needs no statement. -/
def lift (r : ApiResult α) : Handler α :=
  match r with
  | .ok a => pure a
  | .error e => throw e

/-- `ok_or_else`. -/
def orThrow (e : ApiError) (o : Option α) : Handler α := lift (o.elim (.error e) .ok)

theorem bind_eq_ok {m : Handler α} {f : α → Handler β} {b : β} :
    (m >>= f) db = .ok b db' ↔ ∃ a db₁, m db = .ok a db₁ ∧ f a db₁ = .ok b db' := by
  change EStateM.bind m f db = _ ↔ _
  rw [EStateM.bind]
  cases m db with
  | ok a db₁ => exact ⟨fun h => ⟨a, db₁, rfl, h⟩, fun ⟨_, _, hm, h⟩ => by cases hm; exact h⟩
  | error e db₁ => exact ⟨fun h => (nomatch h), fun ⟨_, _, hm, _⟩ => (nomatch hm)⟩

theorem lift_eq_ok {r : ApiResult α} {a : α} :
    lift r db = .ok a db' ↔ r = .ok a ∧ db' = db := by
  cases r with
  | ok b =>
    change EStateM.Result.ok b db = .ok a db' ↔ _
    simp only [EStateM.Result.ok.injEq, Except.ok.injEq, eq_comm (a := db')]
  | error e =>
    change EStateM.Result.error e db = .ok a db' ↔ _
    simp

theorem orThrow_eq_ok {e : ApiError} {o : Option α} {a : α} :
    orThrow e o db = .ok a db' ↔ o = some a ∧ db' = db := by
  rw [orThrow, lift_eq_ok]
  cases o <;> simp

theorem pure_eq_ok {a b : α} : (pure a : Handler α) db = .ok b db' ↔ b = a ∧ db' = db := by
  change EStateM.Result.ok a db = .ok b db' ↔ _
  simp only [EStateM.Result.ok.injEq, eq_comm]

theorem throw_eq_ok {e : ApiError} {a : α} : (throw e : Handler α) db = .ok a db' ↔ False :=
  ⟨fun h => (nomatch h), False.elim⟩

theorem get_eq_ok {a : Db} : (get : Handler Db) db = .ok a db' ↔ a = db ∧ db' = db := by
  change EStateM.Result.ok db db = .ok a db' ↔ _
  simp only [EStateM.Result.ok.injEq, eq_comm]

theorem set_eq_ok {s : Db} {u : PUnit} : (set s : Handler PUnit) db = .ok u db' ↔ db' = s := by
  change EStateM.Result.ok ⟨⟩ s = .ok u db' ↔ _
  simp only [EStateM.Result.ok.injEq, eq_comm, true_and]

theorem modify_eq_ok {f : Db → Db} {u : PUnit} :
    (modify f : Handler PUnit) db = .ok u db' ↔ db' = f db := by
  change EStateM.Result.ok ⟨⟩ (f db) = .ok u db' ↔ _
  simp only [EStateM.Result.ok.injEq, eq_comm, true_and]

theorem bind_eq_error {m : Handler α} {f : α → Handler β} {e : ApiError} :
    (m >>= f) db = .error e db' ↔ m db = .error e db' ∨
      ∃ a db₁, m db = .ok a db₁ ∧ f a db₁ = .error e db' := by
  change EStateM.bind m f db = _ ↔ _
  rw [EStateM.bind]
  cases m db with
  | ok a db₁ =>
    constructor
    · exact fun h => Or.inr ⟨a, db₁, rfl, h⟩
    · rintro (h | ⟨_, _, hm, h⟩)
      · cases h
      · cases hm
        exact h
  | error e' db₁ =>
    constructor
    · exact fun h => Or.inl (by cases h; rfl)
    · rintro (h | ⟨_, _, hm, -⟩)
      · cases h
        rfl
      · cases hm

theorem lift_eq_error {r : ApiResult α} {e : ApiError} :
    lift r db = .error e db' ↔ r = .error e ∧ db' = db := by
  cases r with
  | ok b =>
    change EStateM.Result.ok b db = .error e db' ↔ _
    simp
  | error e' =>
    change EStateM.Result.error e' db = .error e db' ↔ _
    simp only [EStateM.Result.error.injEq, Except.error.injEq, eq_comm (a := db')]

theorem orThrow_eq_error {e e' : ApiError} {o : Option α} :
    orThrow e o db = .error e' db' ↔ o = none ∧ e' = e ∧ db' = db := by
  rw [orThrow, lift_eq_error]
  cases o <;> simp [eq_comm]

theorem get_eq_error {e : ApiError} : (get : Handler Db) db = .error e db' ↔ False :=
  ⟨fun h => (nomatch h), False.elim⟩

theorem set_eq_error {s : Db} {e : ApiError} :
    (set s : Handler PUnit) db = .error e db' ↔ False :=
  ⟨fun h => (nomatch h), False.elim⟩

theorem modify_eq_error {f : Db → Db} {e : ApiError} :
    (modify f : Handler PUnit) db = .error e db' ↔ False :=
  ⟨fun h => (nomatch h), False.elim⟩

/-- The rows a handler leaves, whatever its answer. -/
def rowsAfter (handler : Handler Unit) (db : Db) : Db :=
  match handler db with
  | .ok () db' => db'
  | .error _ db' => db'

end Handler

open Handler

/-! ### Marks -/

/-- What handlers take from outside: the clock and the identifiers of new markers. -/
structure EditEnv where
  now : DateTime
  markerId : Uuid → CoreType → Uuid

/-- The marker of one node. -/
def markNode (env : EditEnv) (coreType : CoreType) (updateType : String) (db : Db)
    (nodeId : Uuid) : Option Db :=
  match findPending db nodeId coreType with
  | some row => updatePending db row.id updateType env.now
  | none => insertPending db
      ⟨env.markerId nodeId coreType, nodeId, coreType.toStr, updateType, env.now⟩

/-- `mark_pending`.  An error ends the call and keeps the markers written so far. -/
def markPending (env : EditEnv) (coreType : CoreType) (updateType : String) :
    List Uuid → Db → Db
  | [], db => db
  | nodeId :: nodeIds, db =>
    match markNode env coreType updateType db nodeId with
    | some db => markPending env coreType updateType nodeIds db
    | none => db

/-- The calls for both cores. -/
def markBoth (env : EditEnv) (nodeIds : List Uuid) (db : Db) : Db :=
  [CoreType.singBox, CoreType.mihomo].foldl
    (fun db coreType => markPending env coreType "config" nodeIds db) db

theorem SameContents.trans {db db' db'' : Db} (h : SameContents db db') (h' : SameContents db' db'') :
    SameContents db db'' := by
  obtain ⟨rows, rfl⟩ := h
  obtain ⟨rows', rfl⟩ := h'
  exact ⟨rows', rfl⟩

/-- Marks change markers, whether or not all of them are set. -/
theorem sameContents_markPending (env : EditEnv) (coreType : CoreType) (updateType : String)
    (nodeIds : List Uuid) (db : Db) :
    SameContents db (markPending env coreType updateType nodeIds db) := by
  induction nodeIds generalizing db with
  | nil => exact .refl db
  | cons nodeId nodeIds ih =>
    rw [markPending]
    split
    next db₁ hmark =>
      refine SameContents.trans ?_ (ih db₁)
      rw [markNode] at hmark
      split at hmark
      · exact sameContents_of_updatePending hmark
      · exact sameContents_of_insertPending hmark
    next => exact .refl db

theorem sameContents_markBoth (env : EditEnv) (nodeIds : List Uuid) (db : Db) :
    SameContents db (markBoth env nodeIds db) :=
  (sameContents_markPending ..).trans (sameContents_markPending ..)

/-- The nodes with an active binding to a config. -/
def nodesUsingConfig (db : Db) (configId : Uuid) : List Uuid :=
  ((db.nodeBindings.filter fun b => b.protocolConfigId = configId ∧ b.isActive).map
    (·.nodeId)).dedup

/-- The nodes with an active binding to a config whose stored core type is the core's. -/
def nodesWithBindings (db : Db) (coreType : CoreType) : List Uuid :=
  ((db.nodeBindings.filter fun b => b.isActive ∧
    (db.protocolConfigs.find b.protocolConfigId).any (·.coreType = coreType.toStr)).map
      (·.nodeId)).dedup

/-! ### Protocol configs -/

def validateProtocol (protocolType coreType : String) : ApiResult (ProtocolType × CoreType) :=
  match ProtocolType.fromStr? protocolType with
  | none => .error (.badRequest "invalid_protocol_type" "unknown protocol type")
  | some protocol =>
    match CoreType.fromStr? coreType with
    | none => .error (.badRequest "invalid_core_type" "unknown core type")
    | some core =>
      if core ∈ protocol.validFor then .ok (protocol, core)
      else .error (.badRequest "incompatible_core_type"
        (protocol.toStr ++ " does not support core " ++ core.toStr))

structure CreateConfigPayload where
  name : String
  protocolType : String
  coreType : String
  listenPort : Option Nat := none
  listenAddress : Option String := none
  settings : Option Json := none
  tlsSettings : Option Json := none

/-- The row of a new config.  The port is cut to 32 bits. -/
def CreateConfigPayload.config (payload : CreateConfigPayload) (now : DateTime) (id : Uuid)
    (protocol : ProtocolType) (core : CoreType) : ProtocolConfig where
  id := id
  name := payload.name
  protocolType := protocol.toStr
  coreType := core.toStr
  listenPort := ((payload.listenPort.getD 443 : Nat) : Int).bmod (2 ^ 32)
  listenAddress := payload.listenAddress.getD "0.0.0.0"
  settings := payload.settings.getD (mkObj [])
  tlsSettings := payload.tlsSettings
  updatedAt := now

def createConfig (env : EditEnv) (id : Uuid) (payload : CreateConfigPayload) : Handler Unit := do
  let (protocol, core) ← lift (validateProtocol payload.protocolType payload.coreType)
  let db ← get
  let protocolConfigs ← orThrow (.internal "database operation failed")
    (db.protocolConfigs.insert (payload.config env.now id protocol core))
  set { db with protocolConfigs }

structure UpdateConfigPayload where
  name : Option String := none
  protocolType : Option String := none
  coreType : Option String := none
  listenPort : Option Nat := none
  listenAddress : Option String := none
  settings : Option Json := none
  tlsSettings : Option Json := none

namespace UpdateConfigPayload

/-- The types are checked together when one of them is given. -/
def validate (payload : UpdateConfigPayload) (config : ProtocolConfig) : ApiResult Unit :=
  if payload.protocolType.isSome ∨ payload.coreType.isSome then
    (validateProtocol (payload.protocolType.getD config.protocolType)
      (payload.coreType.getD config.coreType)).map fun _ => ()
  else .ok ()

/-- The row after an update.  The TLS settings are always replaced. -/
def apply (payload : UpdateConfigPayload) (now : DateTime) (c : ProtocolConfig) : ProtocolConfig :=
  { c with
    name := payload.name.getD c.name
    protocolType := payload.protocolType.getD c.protocolType
    coreType := payload.coreType.getD c.coreType
    listenPort := (payload.listenPort.map fun port => (port : Int).bmod (2 ^ 32)).getD c.listenPort
    listenAddress := payload.listenAddress.getD c.listenAddress
    settings := payload.settings.getD c.settings
    tlsSettings := payload.tlsSettings
    updatedAt := now }

end UpdateConfigPayload

def updateConfig (env : EditEnv) (id : Uuid) (payload : UpdateConfigPayload) : Handler Unit := do
  let config ← orThrow (.notFound "protocol config not found") ((← get).protocolConfigs.find id)
  lift (payload.validate config)
  modify fun db =>
    { db with protocolConfigs := db.protocolConfigs.update id (payload.apply env.now) }
  modify fun db => markPending env (parseCoreType (payload.apply env.now config).coreType) "config"
    (nodesUsingConfig db id) db

/-- The bindings to the config go first, whether or not there is such a config. -/
def deleteConfig (env : EditEnv) (id : Uuid) : Handler Unit := do
  let bindings := (← get).nodeBindings.filter (·.protocolConfigId = id)
  let affectedNodes := (bindings.map (·.nodeId)).dedup
  let bindingIds := bindings.map (·.id)
  modify fun db => { db with
    nodeBindingGroupBindings := db.nodeBindingGroupBindings.deleteWhere (·.nodeBindingId ∈ bindingIds)
    nodeBindings := db.nodeBindings.deleteWhere (·.id ∈ bindingIds) }
  let _ ← orThrow (.notFound "protocol config not found") ((← get).protocolConfigs.find id)
  modify fun db => { db with protocolConfigs := db.protocolConfigs.deleteWhere (·.id = id) }
  modify (markBoth env affectedNodes)

/-! ### Bindings -/

/-- A managed certificate must belong to the node, and a domain is for sing-box only. -/
def validateTlsOverride (db : Db) (nodeId protocolConfigId : Uuid)
    (overrideSettings : Option Json) : ApiResult Unit :=
  match overrideSettings.bind (·.get "tls_settings") with
  | none => .ok ()
  | some tls => do
    match tls.getStr "cert_id" with
    | none => pure ()
    | some raw =>
      match Uuid.parse raw with
      | none => throw (.badRequest "invalid_cert_id" "invalid cert id")
      | some certId =>
        match db.certificates.find certId with
        | none => throw (.notFound "certificate not found")
        | some cert =>
          if cert.nodeId ≠ nodeId then
            throw (.badRequest "cert_node_mismatch"
              "certificate does not belong to the binding's node")
    if (tls.getStr "domain").any (· ≠ "") ∧
        ((db.protocolConfigs.find protocolConfigId).map (·.coreType)).getD "" ≠ "sing-box" then
      throw (.badRequest "acme_singbox_only"
        "built-in ACME is only available for sing-box protocols; use a managed certificate instead")

structure CreateBindingPayload where
  nodeId : Uuid
  protocolConfigId : Uuid
  overrideSettings : Option Json := none
  isActive : Option Bool := none

def CreateBindingPayload.binding (payload : CreateBindingPayload) (id : Uuid) : NodeBinding where
  id := id
  nodeId := payload.nodeId
  protocolConfigId := payload.protocolConfigId
  overrideSettings := payload.overrideSettings
  isActive := payload.isActive.getD true

/-- The insertion of a binding.  Node and config are unique. -/
def insertBinding (db : Db) (b : NodeBinding) : Option Db :=
  if db.nodeBindings.rows.any fun r =>
      r.nodeId = b.nodeId ∧ r.protocolConfigId = b.protocolConfigId then none
  else (db.nodeBindings.insert b).map fun nodeBindings => { db with nodeBindings }

def createBinding (id : Uuid) (payload : CreateBindingPayload) : Handler Unit := do
  let _ ← orThrow (.notFound "node not found") ((← get).nodes.find payload.nodeId)
  let _ ← orThrow (.notFound "protocol config not found")
    ((← get).protocolConfigs.find payload.protocolConfigId)
  lift (validateTlsOverride (← get) payload.nodeId payload.protocolConfigId
    payload.overrideSettings)
  set (← orThrow (.internal "database operation failed")
    (insertBinding (← get) (payload.binding id)))

structure UpdateBindingPayload where
  isActive : Option Bool := none
  overrideSettings : Option Json := none

def UpdateBindingPayload.apply (payload : UpdateBindingPayload) (b : NodeBinding) : NodeBinding :=
  { b with
    isActive := payload.isActive.getD b.isActive
    overrideSettings := payload.overrideSettings.or b.overrideSettings }

def updateBinding (id : Uuid) (payload : UpdateBindingPayload) : Handler Unit := do
  let db ← get
  let binding ← orThrow (.notFound "binding not found") (db.nodeBindings.find id)
  lift (if payload.overrideSettings.isSome then
      validateTlsOverride db binding.nodeId binding.protocolConfigId payload.overrideSettings
    else .ok ())
  modify fun db => { db with nodeBindings := db.nodeBindings.update id payload.apply }

/-- The group links of the binding go first, whether or not there is such a binding. -/
def deleteBinding (id : Uuid) : Handler Unit := do
  modify fun db => { db with
    nodeBindingGroupBindings := db.nodeBindingGroupBindings.deleteWhere (·.nodeBindingId = id) }
  let _ ← orThrow (.notFound "binding not found") ((← get).nodeBindings.find id)
  modify fun db => { db with nodeBindings := db.nodeBindings.deleteWhere (·.id = id) }

/-! ### Relay rules -/

/-- The identifiers of a new relay client; `linkId` is for the copy of a group link. -/
structure RelayIds where
  clientId : Uuid
  userId : Uuid
  emailId : Uuid
  linkId : Uuid → Uuid

def relayClient (now : DateTime) (ids : RelayIds) (ruleName : String) : Client where
  id := ids.clientId
  userId := ids.userId
  name := "relay-" ++ ruleName
  email := some ("relay-" ++ ids.emailId.short ++ "@relay.internal")
  trafficLimitBytes := 0
  trafficUsedBytes := 0
  allTimeUsedBytes := 0
  expiryDate := none
  resetDay := none
  dataLimitResetStrategy := "no_reset"
  lastTrafficResetTime := none
  maxDevices := none
  status := "active"
  onHoldExpireDurationSecs := none
  onHoldTimeout := none
  updatedAt := now

/-- The group links of the exit binding, copied for the client. -/
def copyLinks (ids : RelayIds) : List NodeBindingGroupBinding → Handler Unit
  | [] => pure ()
  | link :: links => do
    let db ← get
    let clientGroupBindings ← orThrow (.internal "database operation failed")
      (db.clientGroupBindings.insert ⟨ids.linkId link.id, ids.clientId, link.groupId⟩)
    set { db with clientGroupBindings }
    copyLinks ids links

/-- A client for a relay rule, in the groups of the exit binding. -/
def provisionRelayClient (env : EditEnv) (ids : RelayIds) (ruleName : String)
    (exitBindingId : Uuid) : Handler Unit := do
  let db ← get
  let clients ← orThrow (.internal "database operation failed")
    (db.clients.insert (relayClient env.now ids ruleName))
  set { db with clients }
  copyLinks ids (db.nodeBindingGroupBindings.filter (·.nodeBindingId = exitBindingId))

def withoutRelayClient (db : Db) (relayClientId : Uuid) : Db :=
  { db with
    clientGroupBindings := db.clientGroupBindings.deleteWhere (·.clientId = relayClientId)
    clients := db.clients.deleteWhere (·.id = relayClientId) }

/-- What a rule matches, as it is sent. -/
def validateMatch (matchType : String) (matchConfig : Json) : ApiResult Unit :=
  if matchType = "inline" then
    let entries (k : String) := ((matchConfig.getArr k).map (·.length)).getD 0
    if entries "domains" + entries "domain_suffixes" = 0 then
      .error (.badRequest "invalid_match_config" ("inline match_config must contain at least " ++
        "one entry in 'domains' or 'domain_suffixes'"))
    else .ok ()
  else if matchType = "rule_set" then
    match matchConfig.getStr "library" with
    | some libraryName =>
      if (libraryLookup libraryName).isNone then
        .error (.badRequest "unknown_rule_set_library"
          ("unknown library rule set: " ++ libraryName))
      else .ok ()
    | none =>
      match matchConfig.get "custom" with
      | some custom =>
        let url (k : String) := ((custom.get k).bind (·.getStr "url")).getD ""
        if url "singbox" = "" ∨ url "mihomo" = "" then
          .error (.badRequest "invalid_custom_rule_set"
            "custom rule_set must have non-empty singbox.url and mihomo.url")
        else .ok ()
      | none => .error (.badRequest "invalid_match_config"
          "rule_set match_config must have 'library' or 'custom'")
  else .error (.badRequest "invalid_match_type" "match_type must be 'inline' or 'rule_set'")

def validateRelayPayload (db : Db) (nodeId exitBindingId : Uuid) (matchType : String)
    (matchConfig : Json) : ApiResult Unit :=
  match db.nodes.find nodeId with
  | none => .error (.notFound "node not found")
  | some _ =>
  match db.nodeBindings.find exitBindingId with
  | none => .error (.notFound "exit binding not found")
  | some exitBinding =>
  if exitBinding.nodeId = nodeId then
    .error (.badRequest "self_relay" "exit binding belongs to the same node as the entry node")
  else
  match db.protocolConfigs.find exitBinding.protocolConfigId with
  | none => .error (.badRequest "protocol_config_missing"
      "exit binding's protocol config not found")
  | some config =>
  if config.coreType ∉ ["sing-box", "mihomo"] then
    .error (.badRequest "unsupported_core" "exit binding core type must be sing-box or mihomo")
  else if config.protocolType ∉ ["vless_reality", "hysteria2", "anytls"] then
    .error (.badRequest "unsupported_protocol"
      "exit binding protocol type must be vless_reality, hysteria2, or anytls")
  else validateMatch matchType matchConfig

/-- The node of a binding. -/
def nodeOfBinding (db : Db) (bindingId : Uuid) : Option Uuid :=
  (db.nodeBindings.find bindingId).map (·.nodeId)

structure CreateRelayRulePayload where
  nodeId : Uuid
  exitBindingId : Uuid
  name : String
  matchType : String
  matchConfig : Json
  enabled : Option Bool := none
  sortOrder : Option Int := none

def CreateRelayRulePayload.rule (payload : CreateRelayRulePayload) (now : DateTime)
    (id relayClientId : Uuid) : RelayRule where
  id := id
  nodeId := payload.nodeId
  exitBindingId := payload.exitBindingId
  relayClientId := relayClientId
  name := Text.trim payload.name
  matchType := payload.matchType
  matchConfig := payload.matchConfig
  enabled := payload.enabled.getD true
  sortOrder := payload.sortOrder.getD 0
  updatedAt := now

def createRelayRule (env : EditEnv) (ids : RelayIds) (id : Uuid) (payload : CreateRelayRulePayload) :
    Handler Unit := do
  if Text.trim payload.name = "" then throw (.badRequest "invalid_name" "name is required")
  lift (validateRelayPayload (← get) payload.nodeId payload.exitBindingId payload.matchType
    payload.matchConfig)
  provisionRelayClient env ids payload.name payload.exitBindingId
  let db ← get
  let relayRules ← orThrow (.internal "database operation failed")
    (db.relayRules.insert (payload.rule env.now id ids.clientId))
  set { db with relayRules }
  modify fun db => markBoth env ([payload.nodeId, (nodeOfBinding db payload.exitBindingId).getD
    .nil].filter (· ≠ .nil)) db

structure UpdateRelayRulePayload where
  name : Option String := none
  matchType : Option String := none
  matchConfig : Option Json := none
  enabled : Option Bool := none
  sortOrder : Option Int := none
  exitBindingId : Option Uuid := none

namespace UpdateRelayRulePayload

/-- Whether the rule leaves its exit for another one. -/
def movesExit (payload : UpdateRelayRulePayload) (rule : RelayRule) : Bool :=
  payload.exitBindingId.any (· ≠ rule.exitBindingId)

def apply (payload : UpdateRelayRulePayload) (now : DateTime) (newClientId : Uuid) (r : RelayRule) :
    RelayRule :=
  { r with
    name := (payload.name.map Text.trim).getD r.name
    matchType := payload.matchType.getD r.matchType
    matchConfig := payload.matchConfig.getD r.matchConfig
    enabled := payload.enabled.getD r.enabled
    sortOrder := payload.sortOrder.getD r.sortOrder
    exitBindingId := payload.exitBindingId.getD r.exitBindingId
    relayClientId := if payload.movesExit r then newClientId else r.relayClientId
    updatedAt := now }

end UpdateRelayRulePayload

/-- The nodes of a rule: its own, and those of the exits that are others. -/
def affectedNodes (nodeId : Uuid) (exits : List (Option Uuid)) : List Uuid :=
  exits.foldl (fun nodes exit => match exit with
    | some exit => if exit ≠ nodeId ∧ exit ∉ nodes then nodes ++ [exit] else nodes
    | none => nodes) [nodeId]

/-- A rule with another exit gets another client. -/
def reprovision (env : EditEnv) (ids : RelayIds) (payload : UpdateRelayRulePayload)
    (rule : RelayRule) : Handler Unit :=
  if payload.movesExit rule then do
    modify (withoutRelayClient · rule.relayClientId)
    provisionRelayClient env ids (payload.name.getD rule.name)
      (payload.exitBindingId.getD rule.exitBindingId)
  else pure ()

/-- The new name is checked after the client has been replaced. -/
def updateRelayRule (env : EditEnv) (ids : RelayIds) (id : Uuid)
    (payload : UpdateRelayRulePayload) : Handler Unit := do
  let db ← get
  let rule ← orThrow (.notFound "relay rule not found") (db.relayRules.find id)
  let exitBindingId := payload.exitBindingId.getD rule.exitBindingId
  lift (validateRelayPayload db rule.nodeId exitBindingId
    (payload.matchType.getD rule.matchType) (payload.matchConfig.getD rule.matchConfig))
  reprovision env ids payload rule
  lift (if payload.name.any (Text.trim · = "") then
      .error (.badRequest "invalid_name" "name cannot be empty")
    else .ok ())
  modify fun db =>
    { db with relayRules := db.relayRules.update id (payload.apply env.now ids.clientId) }
  modify fun db => markBoth env (affectedNodes rule.nodeId
    [nodeOfBinding db rule.exitBindingId, nodeOfBinding db exitBindingId]) db

def deleteRelayRule (env : EditEnv) (id : Uuid) : Handler Unit := do
  let db ← get
  let rule ← orThrow (.notFound "relay rule not found") (db.relayRules.find id)
  let exitNodeId := nodeOfBinding db rule.exitBindingId
  modify fun db => { db with relayRules := db.relayRules.deleteWhere (·.id = id) }
  modify (withoutRelayClient · rule.relayClientId)
  modify (markBoth env (affectedNodes rule.nodeId [exitNodeId]))

/-! ### Core versions -/

/-- One version of a core is active.  Versions are told apart by the stored core type. -/
def activateVersion (row : CoreVersion) (db : Db) : Db :=
  let deactivated := db.coreVersions.updateEach
    (db.coreVersions.filter (·.coreType = row.coreType)) fun _ v => { v with isActive := false }
  { db with coreVersions := deactivated.update row.id fun v => { v with isActive := true } }

def activateCoreVersion (env : EditEnv) (id : Uuid) : Handler Unit := do
  let row ← orThrow (.notFound "core version not found") ((← get).coreVersions.find id)
  let core ← orThrow (.badRequest "invalid_core_type" "unknown core type")
    (CoreType.fromStr? row.coreType)
  modify (activateVersion row)
  modify fun db => markPending env core "core" (nodesWithBindings db core) db

/-! ### Certificates -/

structure CreateCertificatePayload where
  domain : String
  nodeId : Uuid
  challengeType : Option String := none

/-- A certificate that is asked for again is pending again. -/
def reissued (now : DateTime) (challengeType : String) (c : Certificate) : Certificate :=
  { c with status := "pending", challengeType, lastError := none, updatedAt := now }

def createCertificate (env : EditEnv) (id : Uuid) (payload : CreateCertificatePayload) :
    Handler Unit := do
  let domain := Text.trim payload.domain
  lift (if domain = "" ∨ Text.contains domain " " = true then
      .error (.badRequest "invalid_domain" "domain is required")
    else .ok ())
  let challengeType := payload.challengeType.getD "http-01"
  lift (if challengeType = "http-01" then .ok ()
    else .error (.badRequest "invalid_challenge_type"
      ("unsupported challenge type: " ++ challengeType)))
  let db ← get
  let _ ← orThrow (.notFound "node not found") (db.nodes.find payload.nodeId)
  let certificates ← orThrow (.internal "database operation failed")
    (db.certificates.upsert (fun c => c.nodeId = payload.nodeId ∧ c.domain = domain)
      (fun _ => reissued env.now challengeType)
      ⟨id, payload.nodeId, domain, "pending", challengeType, none, none, none, env.now⟩)
  set { db with certificates }

/-- Nothing asks who still names the certificate. -/
def deleteCertificate (id : Uuid) : Handler Unit := do
  let db ← get
  let _ ← orThrow (.notFound "certificate not found") (db.certificates.find id)
  set { db with certificates := db.certificates.deleteWhere (·.id = id) }

/-! ### What a successful request has done -/

section Done

variable {env : EditEnv} {ids : RelayIds} {id : Uuid} {db db' : Db}

theorem createConfig_ok {payload : CreateConfigPayload}
    (h : createConfig env id payload db = .ok () db') : ∃ protocol core protocolConfigs,
      db.protocolConfigs.insert (payload.config env.now id protocol core) =
        some protocolConfigs ∧ db' = { db with protocolConfigs } := by
  simp only [createConfig, bind_eq_ok, get_eq_ok, orThrow_eq_ok, lift_eq_ok, set_eq_ok] at h
  obtain ⟨⟨protocol, core⟩, _, ⟨-, rfl⟩, _, _, ⟨rfl, rfl⟩, protocolConfigs, _, ⟨hinsert, rfl⟩, rfl⟩ := h
  exact ⟨protocol, core, protocolConfigs, hinsert, rfl⟩

theorem updateConfig_ok {payload : UpdateConfigPayload}
    (h : updateConfig env id payload db = .ok () db') : ∃ config,
      db.protocolConfigs.find id = some config ∧
      db' = markPending env (parseCoreType (payload.apply env.now config).coreType) "config"
        (nodesUsingConfig db id)
        { db with protocolConfigs := db.protocolConfigs.update id (payload.apply env.now) } := by
  simp only [updateConfig, bind_eq_ok, get_eq_ok, orThrow_eq_ok, lift_eq_ok, modify_eq_ok] at h
  obtain ⟨_, _, ⟨rfl, rfl⟩, config, _, ⟨hconfig, rfl⟩, _, _, ⟨-, rfl⟩, _, _, rfl, rfl⟩ := h
  exact ⟨config, hconfig, rfl⟩

theorem createConfig_error {payload : CreateConfigPayload} {e : ApiError}
    (h : createConfig env id payload db = .error e db') : db' = db := by
  simp only [createConfig, bind_eq_error, get_eq_error, get_eq_ok, orThrow_eq_error,
    orThrow_eq_ok, lift_eq_error, lift_eq_ok, set_eq_error, false_or, and_false, exists_false,
    or_false] at h
  rcases h with ⟨-, rfl⟩ | ⟨_, _, ⟨-, rfl⟩, _, _, ⟨rfl, rfl⟩, -, -, rfl⟩ <;> rfl

theorem updateConfig_error {payload : UpdateConfigPayload} {e : ApiError}
    (h : updateConfig env id payload db = .error e db') : db' = db := by
  simp only [updateConfig, bind_eq_error, get_eq_error, get_eq_ok, orThrow_eq_error,
    orThrow_eq_ok, lift_eq_error, lift_eq_ok, modify_eq_error, modify_eq_ok, false_or, and_false,
    exists_false, or_false] at h
  obtain ⟨_, _, ⟨rfl, rfl⟩, ⟨-, -, rfl⟩ | ⟨_, _, ⟨-, rfl⟩, -, rfl⟩⟩ := h <;> rfl

/-- The bindings to a config. -/
def bindingsOfConfig (db : Db) (configId : Uuid) : List NodeBinding :=
  db.nodeBindings.filter (·.protocolConfigId = configId)

theorem deleteConfig_ok (h : deleteConfig env id db = .ok () db') :
    db' = markBoth env ((bindingsOfConfig db id).map (·.nodeId)).dedup
      { db with
        nodeBindingGroupBindings := db.nodeBindingGroupBindings.deleteWhere
          (·.nodeBindingId ∈ (bindingsOfConfig db id).map (·.id))
        nodeBindings := db.nodeBindings.deleteWhere (·.id ∈ (bindingsOfConfig db id).map (·.id))
        protocolConfigs := db.protocolConfigs.deleteWhere (·.id = id) } := by
  simp only [deleteConfig, bind_eq_ok, get_eq_ok, orThrow_eq_ok, modify_eq_ok] at h
  obtain ⟨_, _, ⟨rfl, rfl⟩, _, _, rfl, _, _, ⟨rfl, rfl⟩, _, _, ⟨-, rfl⟩, _, _, rfl, rfl⟩ := h
  rfl

theorem createBinding_ok {payload : CreateBindingPayload}
    (h : createBinding id payload db = .ok () db') :
    (db.protocolConfigs.find payload.protocolConfigId).isSome = true ∧
      ∃ nodeBindings, db.nodeBindings.insert (payload.binding id) = some nodeBindings ∧
        db' = { db with nodeBindings } := by
  simp only [createBinding, bind_eq_ok, get_eq_ok, orThrow_eq_ok, lift_eq_ok, set_eq_ok] at h
  obtain ⟨_, _, ⟨rfl, rfl⟩, _, _, ⟨-, rfl⟩, _, _, ⟨rfl, rfl⟩, config, _, ⟨hconfig, rfl⟩, _, _,
    ⟨rfl, rfl⟩, _, _, ⟨-, rfl⟩, _, _, ⟨rfl, rfl⟩, inserted, _, ⟨hinserted, rfl⟩, rfl⟩ := h
  refine ⟨by rw [hconfig]; rfl, ?_⟩
  rw [insertBinding] at hinserted
  split at hinserted
  · cases hinserted
  · obtain ⟨nodeBindings, hinsert, rfl⟩ := Option.map_eq_some_iff.mp hinserted
    exact ⟨nodeBindings, hinsert, rfl⟩

theorem updateBinding_ok {payload : UpdateBindingPayload}
    (h : updateBinding id payload db = .ok () db') : ∃ binding,
      db.nodeBindings.find id = some binding ∧
      db' = { db with nodeBindings := db.nodeBindings.update id payload.apply } := by
  simp only [updateBinding, bind_eq_ok, get_eq_ok, orThrow_eq_ok, lift_eq_ok, modify_eq_ok] at h
  obtain ⟨_, _, ⟨rfl, rfl⟩, binding, _, ⟨hbinding, rfl⟩, _, _, ⟨-, rfl⟩, rfl⟩ := h
  exact ⟨binding, hbinding, rfl⟩

theorem createBinding_error {payload : CreateBindingPayload} {e : ApiError}
    (h : createBinding id payload db = .error e db') : db' = db := by
  simp only [createBinding, bind_eq_error, get_eq_error, get_eq_ok, orThrow_eq_error,
    orThrow_eq_ok, lift_eq_error, lift_eq_ok, set_eq_error, false_or, and_false, exists_false,
    or_false] at h
  obtain ⟨_, _, ⟨rfl, rfl⟩, ⟨-, -, rfl⟩ | ⟨_, _, ⟨-, rfl⟩, _, _, ⟨rfl, rfl⟩, ⟨-, -, rfl⟩ | ⟨_, _,
    ⟨-, rfl⟩, _, _, ⟨rfl, rfl⟩, ⟨-, rfl⟩ | ⟨_, _, ⟨-, rfl⟩, _, _, ⟨rfl, rfl⟩, -, -, rfl⟩⟩⟩⟩ := h <;> rfl

theorem updateBinding_error {payload : UpdateBindingPayload} {e : ApiError}
    (h : updateBinding id payload db = .error e db') : db' = db := by
  simp only [updateBinding, bind_eq_error, get_eq_error, get_eq_ok, orThrow_eq_error,
    orThrow_eq_ok, lift_eq_error, modify_eq_error, false_or, and_false, exists_false, or_false] at h
  obtain ⟨_, _, ⟨rfl, rfl⟩, ⟨-, -, rfl⟩ | ⟨_, _, ⟨-, rfl⟩, -, rfl⟩⟩ := h <;> rfl

theorem deleteBinding_ok (h : deleteBinding id db = .ok () db') : ∃ binding,
    db.nodeBindings.find id = some binding ∧
    db' = { db with
      nodeBindingGroupBindings :=
        db.nodeBindingGroupBindings.deleteWhere (·.nodeBindingId = id)
      nodeBindings := db.nodeBindings.deleteWhere (·.id = id) } := by
  simp only [deleteBinding, bind_eq_ok, get_eq_ok, orThrow_eq_ok, modify_eq_ok] at h
  obtain ⟨_, _, rfl, _, _, ⟨rfl, rfl⟩, binding, _, ⟨hbinding, rfl⟩, rfl⟩ := h
  exact ⟨binding, hbinding, rfl⟩

/-- The group links of a binding that does not exist are deleted all the same. -/
theorem deleteBinding_error {e : ApiError} (h : deleteBinding id db = .error e db') :
    db.nodeBindings.find id = none ∧ db' = { db with
      nodeBindingGroupBindings :=
        db.nodeBindingGroupBindings.deleteWhere (·.nodeBindingId = id) } := by
  simp only [deleteBinding, bind_eq_error, get_eq_error, get_eq_ok, orThrow_eq_error,
    modify_eq_error, modify_eq_ok, false_or, and_false, exists_false, or_false] at h
  obtain ⟨_, _, rfl, _, _, ⟨rfl, rfl⟩, hnone, -, rfl⟩ := h
  exact ⟨hnone, rfl⟩

theorem activateCoreVersion_ok (h : activateCoreVersion env id db = .ok () db') : ∃ row core,
    db.coreVersions.find id = some row ∧ CoreType.fromStr? row.coreType = some core ∧
      db' = markPending env core "core" (nodesWithBindings db core) (activateVersion row db) := by
  simp only [activateCoreVersion, bind_eq_ok, get_eq_ok, orThrow_eq_ok, modify_eq_ok] at h
  obtain ⟨_, _, ⟨rfl, rfl⟩, row, _, ⟨hrow, rfl⟩, core, _, ⟨hcore, rfl⟩, _, _, rfl, rfl⟩ := h
  exact ⟨row, core, hrow, hcore, rfl⟩

/-- The copies of the links of a binding. -/
theorem copyLinks_ok {links : List NodeBindingGroupBinding}
    (h : copyLinks ids links db = .ok () db') : ∃ clientGroupBindings,
      db' = { db with clientGroupBindings } ∧
      clientGroupBindings.rows = db.clientGroupBindings.rows ++
        links.map fun link => ⟨ids.linkId link.id, ids.clientId, link.groupId⟩ := by
  induction links generalizing db with
  | nil =>
    rw [copyLinks, pure_eq_ok] at h
    exact ⟨db.clientGroupBindings, h.2, (List.append_nil _).symm⟩
  | cons link links ih =>
    simp only [copyLinks, bind_eq_ok, get_eq_ok, orThrow_eq_ok, set_eq_ok] at h
    obtain ⟨_, _, ⟨rfl, rfl⟩, inserted, _, ⟨hinserted, rfl⟩, _, _, rfl, h⟩ := h
    obtain ⟨clientGroupBindings, hdb, hrows⟩ := ih h
    refine ⟨clientGroupBindings, hdb, hrows.trans ?_⟩
    rw [Table.rows_of_insert hinserted, List.map_cons, List.append_assoc, List.singleton_append]

/-- A relay client and its links, written. -/
structure Provisioned (env : EditEnv) (ids : RelayIds) (ruleName : String) (exitBindingId : Uuid)
    (db : Db) (clients : Table Client) (clientGroupBindings : Table ClientGroupBinding) :
    Prop where
  client : db.clients.insert (relayClient env.now ids ruleName) = some clients
  links : clientGroupBindings.rows = db.clientGroupBindings.rows ++
    (db.nodeBindingGroupBindings.filter (·.nodeBindingId = exitBindingId)).map
      fun link => ⟨ids.linkId link.id, ids.clientId, link.groupId⟩

theorem provisionRelayClient_ok {ruleName : String} {exitBindingId : Uuid}
    (h : provisionRelayClient env ids ruleName exitBindingId db = .ok () db') :
    ∃ clients clientGroupBindings,
      Provisioned env ids ruleName exitBindingId db clients clientGroupBindings ∧
        db' = { db with clients, clientGroupBindings } := by
  simp only [provisionRelayClient, bind_eq_ok, get_eq_ok, orThrow_eq_ok, set_eq_ok] at h
  obtain ⟨_, _, ⟨rfl, rfl⟩, clients, _, ⟨hclients, rfl⟩, _, _, rfl, h⟩ := h
  obtain ⟨clientGroupBindings, rfl, hrows⟩ := copyLinks_ok h
  exact ⟨clients, clientGroupBindings, ⟨hclients, hrows⟩, rfl⟩

theorem validateRelayPayload_ok {nodeId exitBindingId : Uuid} {matchType : String}
    {matchConfig : Json} {u : Unit}
    (h : validateRelayPayload db nodeId exitBindingId matchType matchConfig = .ok u) :
    (db.nodes.find nodeId).isSome = true ∧
      ∃ exit, db.nodeBindings.find exitBindingId = some exit ∧ exit.nodeId ≠ nodeId := by
  rw [validateRelayPayload] at h
  split at h
  · cases h
  · rename_i node hnode
    split at h
    · cases h
    · rename_i exit hexit
      split at h
      · cases h
      · rename_i hself
        exact ⟨by rw [hnode]; rfl, exit, hexit, hself⟩

theorem createRelayRule_ok {payload : CreateRelayRulePayload}
    (h : createRelayRule env ids id payload db = .ok () db') :
    (db.nodes.find payload.nodeId).isSome = true ∧ ∃ clients clientGroupBindings relayRules,
      Provisioned env ids payload.name payload.exitBindingId db clients clientGroupBindings ∧
      db.relayRules.insert (payload.rule env.now id ids.clientId) = some relayRules ∧
      db' = markBoth env ([payload.nodeId, (nodeOfBinding db payload.exitBindingId).getD
        .nil].filter (· ≠ .nil)) { db with clients, clientGroupBindings, relayRules } := by
  rw [createRelayRule] at h
  split at h
  · simp only [bind_eq_ok, throw_eq_ok, false_and, exists_false] at h
  · simp only [bind_eq_ok, get_eq_ok, orThrow_eq_ok, lift_eq_ok, set_eq_ok, modify_eq_ok] at h
    obtain ⟨_, _, ⟨rfl, rfl⟩, _, _, ⟨hvalid, rfl⟩, _, _, hclient, _, _, ⟨rfl, rfl⟩, relayRules, _,
      ⟨hrules, rfl⟩, _, _, rfl, rfl⟩ := h
    obtain ⟨clients, clientGroupBindings, hprovisioned, rfl⟩ := provisionRelayClient_ok hclient
    exact ⟨(validateRelayPayload_ok hvalid).1, clients, clientGroupBindings, relayRules,
      hprovisioned, hrules, rfl⟩

/-- The clients after an update: as they were, or with another relay client. -/
def Reprovisioned (env : EditEnv) (ids : RelayIds) (payload : UpdateRelayRulePayload)
    (rule : RelayRule) (db : Db) (clients : Table Client)
    (clientGroupBindings : Table ClientGroupBinding) : Prop :=
  if payload.movesExit rule then
    Provisioned env ids (payload.name.getD rule.name)
      (payload.exitBindingId.getD rule.exitBindingId)
      (withoutRelayClient db rule.relayClientId) clients clientGroupBindings
  else clients = db.clients ∧ clientGroupBindings = db.clientGroupBindings

theorem reprovision_ok {payload : UpdateRelayRulePayload} {rule : RelayRule}
    (h : reprovision env ids payload rule db = .ok () db') : ∃ clients clientGroupBindings,
      Reprovisioned env ids payload rule db clients clientGroupBindings ∧
        db' = { db with clients, clientGroupBindings } := by
  simp only [Reprovisioned]
  rw [reprovision] at h
  split at h
  · rename_i hmoves
    simp only [bind_eq_ok, modify_eq_ok] at h
    obtain ⟨_, _, rfl, h⟩ := h
    obtain ⟨clients, clientGroupBindings, hprovisioned, rfl⟩ := provisionRelayClient_ok h
    refine ⟨clients, clientGroupBindings, ?_, rfl⟩
    rw [if_pos hmoves]
    exact hprovisioned
  · rename_i hmoves
    rw [pure_eq_ok] at h
    refine ⟨db.clients, db.clientGroupBindings, ?_, h.2⟩
    rw [if_neg hmoves]
    exact ⟨rfl, rfl⟩

theorem updateRelayRule_ok {payload : UpdateRelayRulePayload}
    (h : updateRelayRule env ids id payload db = .ok () db') : ∃ rule,
      db.relayRules.find id = some rule ∧ ∃ clients clientGroupBindings,
        Reprovisioned env ids payload rule db clients clientGroupBindings ∧
        db' = markBoth env (affectedNodes rule.nodeId [nodeOfBinding db rule.exitBindingId,
            nodeOfBinding db (payload.exitBindingId.getD rule.exitBindingId)])
          { db with
            clients, clientGroupBindings
            relayRules := db.relayRules.update id (payload.apply env.now ids.clientId) } := by
  simp only [updateRelayRule, bind_eq_ok, get_eq_ok, orThrow_eq_ok, lift_eq_ok,
    modify_eq_ok] at h
  obtain ⟨_, _, ⟨rfl, rfl⟩, rule, _, ⟨hrule, rfl⟩, _, _, ⟨-, rfl⟩, _, _, hclient, _, _, ⟨-, rfl⟩,
    _, _, rfl, rfl⟩ := h
  obtain ⟨clients, clientGroupBindings, hclients, rfl⟩ := reprovision_ok hclient
  exact ⟨rule, hrule, clients, clientGroupBindings, hclients, rfl⟩

theorem deleteRelayRule_ok (h : deleteRelayRule env id db = .ok () db') : ∃ rule,
    db.relayRules.find id = some rule ∧
      db' = markBoth env (affectedNodes rule.nodeId [nodeOfBinding db rule.exitBindingId])
        (withoutRelayClient { db with relayRules := db.relayRules.deleteWhere (·.id = id) }
          rule.relayClientId) := by
  simp only [deleteRelayRule, bind_eq_ok, get_eq_ok, orThrow_eq_ok, modify_eq_ok] at h
  obtain ⟨_, _, ⟨rfl, rfl⟩, rule, _, ⟨hrule, rfl⟩, _, _, rfl, _, _, rfl, rfl⟩ := h
  exact ⟨rule, hrule, rfl⟩

/-- The node of a rule that is updated exists. -/
theorem exists_node_of_updateRelayRule {payload : UpdateRelayRulePayload} {rule : RelayRule}
    (hrule : db.relayRules.find id = some rule)
    (h : updateRelayRule env ids id payload db = .ok () db') :
    (db.nodes.find rule.nodeId).isSome = true := by
  simp only [updateRelayRule, bind_eq_ok, get_eq_ok, orThrow_eq_ok, lift_eq_ok,
    modify_eq_ok] at h
  obtain ⟨_, _, ⟨rfl, rfl⟩, rule', _, ⟨hrule', rfl⟩, _, _, ⟨hvalid, rfl⟩, -⟩ := h
  cases hrule.symm.trans hrule'
  exact (validateRelayPayload_ok hvalid).1

theorem createCertificate_ok {payload : CreateCertificatePayload}
    (h : createCertificate env id payload db = .ok () db') : ∃ challengeType certificates,
      db.certificates.upsert
        (fun c => c.nodeId = payload.nodeId ∧ c.domain = Text.trim payload.domain)
        (fun _ => reissued env.now challengeType)
        ⟨id, payload.nodeId, Text.trim payload.domain, "pending", challengeType, none, none, none,
          env.now⟩ = some certificates ∧ db' = { db with certificates } := by
  simp only [createCertificate, bind_eq_ok, get_eq_ok, orThrow_eq_ok, lift_eq_ok, set_eq_ok] at h
  obtain ⟨_, _, ⟨-, rfl⟩, _, _, ⟨-, rfl⟩, _, _, ⟨rfl, rfl⟩, _, _, ⟨-, rfl⟩, certificates, _,
    ⟨hupsert, rfl⟩, rfl⟩ := h
  exact ⟨_, certificates, hupsert, rfl⟩

theorem deleteCertificate_ok (h : deleteCertificate id db = .ok () db') :
    db' = { db with certificates := db.certificates.deleteWhere (·.id = id) } := by
  simp only [deleteCertificate, bind_eq_ok, get_eq_ok, orThrow_eq_ok, set_eq_ok] at h
  obtain ⟨_, _, ⟨rfl, rfl⟩, _, _, ⟨-, rfl⟩, rfl⟩ := h
  rfl

end Done

end ProxyPanel.Hub
