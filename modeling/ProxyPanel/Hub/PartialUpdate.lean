import ProxyPanel.Hub.GroupAccess
import ProxyPanel.Hub.PortAgreement
import ProxyPanel.Hub.Templates

/-!
# Partial updates

Seven routes write one row from a payload whose fields may be absent.  A column
of the row is written in one of two ways: when its field is present, and then it
holds the given value (`Column`), or always.

* `partial_update_frame`: a call that returns `Ok` leaves every other column of
  the row alone and writes the given values, the name of a client or of a relay
  rule without the blanks around it, and an empty email as no email.
* Left out are the columns that are written in a way of their own: the TLS
  settings of a config and the description of a group are written when their
  field is absent as well, a port that does not fit the column is cut, and an
  expiry date that is not a date is stored as none.
-/

namespace ProxyPanel

namespace Hub

open Templates (UpdateTemplatePayload enabledOf turnedOff)

/-! ### The update of a template -/

/-- `enforce_unique_enabled_template`: the other enabled templates of the format go off. -/
def enforceUniqueEnabledTemplate (templates : Table SubscriptionTemplate) (id format : String)
    (enabled : Bool) : Table SubscriptionTemplate :=
  if enabled then
    (((enabledOf templates format).filter (·.id ≠ id)).map (·.id)).foldl
      (fun templates other => templates.update other turnedOff) templates
  else templates

def updateTemplate (id : String) (payload : UpdateTemplatePayload) (db : Db) : ApiResult Db :=
  match db.subscriptionTemplates.find id with
  | none => .error (.notFound "subscription template not found")
  | some template =>
    match payload.validate template with
    | .error e => .error e
    | .ok () => .ok { db with
        subscriptionTemplates := enforceUniqueEnabledTemplate
          (db.subscriptionTemplates.update id payload.apply) id (payload.newFormat template)
          (payload.newEnabled template) }

theorem updateTemplate_ok {id : String} {payload : UpdateTemplatePayload} {db db' : Db}
    (h : updateTemplate id payload db = .ok db') : ∃ template,
      db.subscriptionTemplates.find id = some template ∧ payload.validate template = .ok () ∧
      db' = { db with
        subscriptionTemplates := enforceUniqueEnabledTemplate
          (db.subscriptionTemplates.update id payload.apply) id (payload.newFormat template)
          (payload.newEnabled template) } := by
  rw [updateTemplate] at h
  split at h
  · cases h
  · rename_i template htemplate
    split at h
    · cases h
    · rename_i hvalid
      cases h
      exact ⟨template, htemplate, hvalid, rfl⟩

section Stepwise

open Templates (Call Write)

/-- The templates a call still has to disable, one statement each. -/
theorem run_disable (call : Call) (others : List String) (t : Table SubscriptionTemplate)
    (writes : List Write) (hrows : ∀ other ∈ others, t.find other ≠ none) :
    Run.run Templates.step ⟨t, [(call, Templates.disable others)], writes⟩
        (List.replicate others.length 0) =
      some ⟨others.foldl (fun t other => t.update other turnedOff) t, [(call, .finished)],
        writes⟩ := by
  induction others generalizing t with
  | nil => rfl
  | cons other others ih =>
    have hkept : ∀ o, (t.update other turnedOff).find o = none → t.find o = none := by
      intro o ho
      by_cases hother : o = other
      · rw [hother, Table.find_update_self (f := turnedOff) fun _ => rfl] at ho
        rw [hother]
        exact Option.map_eq_none_iff.mp ho
      · rwa [Table.find_update_of_ne hother] at ho
    have hstep : Templates.step ⟨t, [(call, Templates.disable (other :: others))], writes⟩ 0 =
        some ⟨t.update other turnedOff, [(call, Templates.disable others)], writes⟩ := by
      obtain ⟨r, hr⟩ := Option.ne_none_iff_exists'.mp (hrows other List.mem_cons_self)
      cases call <;> simp [Templates.step, Templates.advance, Templates.disable, hr]
    rw [List.length_cons, List.replicate_succ, Run.run_cons, hstep, Option.bind_some,
      ih _ fun o ho h => hrows o (List.mem_cons_of_mem _ ho) (hkept o h), List.foldl_cons]

/-- **The statements of a call that runs alone.**  They end with the tables of
`updateTemplate`. -/
theorem run_updateTemplate {id : String} {payload : UpdateTemplatePayload} {db db' : Db}
    (h : updateTemplate id payload db = .ok db') : ∃ steps writes,
      Run.run Templates.step (Templates.start db.subscriptionTemplates [.update id payload]) steps =
        some ⟨db'.subscriptionTemplates, [(.update id payload, .finished)], writes⟩ := by
  obtain ⟨template, htemplate, hvalid, rfl⟩ := updateTemplate_ok h
  let call : Call := .update id payload
  let updated := db.subscriptionTemplates.update id payload.apply
  let write : Write := ⟨some template, some (payload.apply template)⟩
  have hfound : Templates.step (Templates.start db.subscriptionTemplates [call]) 0 =
      some ⟨db.subscriptionTemplates, [(call, .found template)], []⟩ := by
    simp [Templates.step, Templates.start, call, Templates.advance, htemplate, hvalid]
  have hwritten : Templates.step ⟨db.subscriptionTemplates, [(call, .found template)], []⟩ 0 =
      some ⟨updated, [(call, Templates.enforce id (payload.newFormat template)
        (payload.newEnabled template))], [write]⟩ := by
    simp [Templates.step, call, Templates.advance, htemplate, updated, write]
  rw [enforceUniqueEnabledTemplate]
  cases henabled : payload.newEnabled template with
  | false =>
    refine ⟨[0, 0], [write], ?_⟩
    rw [Run.run_cons, hfound, Option.bind_some, Run.run_cons, hwritten, Option.bind_some, henabled]
    rfl
  | true =>
    let others := ((enabledOf updated (payload.newFormat template)).filter (·.id ≠ id)).map (·.id)
    have hothers : Templates.step
        ⟨updated, [(call, .written id (payload.newFormat template))], [write]⟩ 0 =
        some ⟨updated, [(call, Templates.disable others)], [write]⟩ := by
      simp [Templates.step, call, Templates.advance, others]
    have hrows : ∀ other ∈ others, updated.find other ≠ none := by
      intro other hother hnone
      obtain ⟨r, hr, rfl⟩ := List.mem_map.mp hother
      have hr' : r ∈ updated.rows := (Table.mem_filter.mp (List.mem_filter.mp hr).1).1
      exact Table.find_eq_none_iff.mp hnone r hr' rfl
    refine ⟨0 :: 0 :: 0 :: List.replicate others.length 0, [write], ?_⟩
    rw [Run.run_cons, hfound, Option.bind_some, Run.run_cons, hwritten, Option.bind_some, henabled,
      Templates.enforce, if_pos rfl, Run.run_cons, hothers, Option.bind_some,
      run_disable _ _ _ _ hrows, if_pos rfl]

end Stepwise

/-! ### Columns -/

/-- A column after an update: the given value, or the value it had. -/
def Column {α : Type} (given : Option α) (before after : α) : Prop := after = given.getD before

/-- A column that may be null, and that no payload empties. -/
theorem column_or {α : Type} (given before : Option α) :
    Column (given.map some) before (given.or before) := by
  cases given <;> rfl

/-- The columns of a client, with the name and the email that are given. -/
structure ClientColumns (payload : UpdateClientPayload) (name : Option String)
    (email : Option (Option String)) (c c' : Client) : Prop where
  id : c'.id = c.id
  userId : c'.userId = c.userId
  name : Column name c.name c'.name
  email : Column email c.email c'.email
  trafficLimitBytes : Column payload.trafficLimitBytes c.trafficLimitBytes c'.trafficLimitBytes
  trafficUsedBytes : c'.trafficUsedBytes = c.trafficUsedBytes
  allTimeUsedBytes : c'.allTimeUsedBytes = c.allTimeUsedBytes
  expiryDate : Column (payload.expiryDate.map some) c.expiryDate c'.expiryDate
  resetDay : Column (payload.resetDay.map some) c.resetDay c'.resetDay
  dataLimitResetStrategy : Column payload.dataLimitResetStrategy c.dataLimitResetStrategy
    c'.dataLimitResetStrategy
  lastTrafficResetTime : c'.lastTrafficResetTime = c.lastTrafficResetTime
  maxDevices : Column (payload.maxDevices.map some) c.maxDevices c'.maxDevices
  status : Column payload.status c.status c'.status
  onHoldExpireDurationSecs : Column (payload.onHoldExpireDurationSecs.map some)
    c.onHoldExpireDurationSecs c'.onHoldExpireDurationSecs
  onHoldTimeout : Column (payload.onHoldTimeout.map some) c.onHoldTimeout c'.onHoldTimeout

/-- The columns of a config, but for the port and the TLS settings. -/
structure ConfigColumns (payload : UpdateConfigPayload) (c c' : ProtocolConfig) : Prop where
  id : c'.id = c.id
  name : Column payload.name c.name c'.name
  protocolType : Column payload.protocolType c.protocolType c'.protocolType
  coreType : Column payload.coreType c.coreType c'.coreType
  listenAddress : Column payload.listenAddress c.listenAddress c'.listenAddress
  settings : Column payload.settings c.settings c'.settings

structure BindingColumns (payload : UpdateBindingPayload) (b b' : NodeBinding) : Prop where
  id : b'.id = b.id
  nodeId : b'.nodeId = b.nodeId
  protocolConfigId : b'.protocolConfigId = b.protocolConfigId
  overrideSettings : Column (payload.overrideSettings.map some) b.overrideSettings
    b'.overrideSettings
  isActive : Column payload.isActive b.isActive b'.isActive

/-- The columns of a group, but for the description. -/
structure GroupColumns (payload : UpdateGroupPayload) (g g' : NodeGroup) : Prop where
  id : g'.id = g.id
  name : Column payload.name g.name g'.name
  labels : Column (payload.labels.map some) g.labels g'.labels

structure TemplateColumns (payload : UpdateTemplatePayload) (t t' : SubscriptionTemplate) :
    Prop where
  id : t'.id = t.id
  name : Column payload.name t.name t'.name
  format : Column payload.format t.format t'.format
  baseConfig : Column (payload.baseConfig.map some) t.baseConfig t'.baseConfig
  filterRules : Column (payload.filterRules.map some) t.filterRules t'.filterRules
  isEnabled : Column payload.isEnabled t.isEnabled t'.isEnabled
  isBuiltin : t'.isBuiltin = t.isBuiltin
  customHeaders : Column (payload.customHeaders.map some) t.customHeaders t'.customHeaders

/-- The columns of a subscription, but for the expiry date. -/
structure SubscriptionColumns (payload : UpdateSubscriptionPayload) (s s' : Subscription) :
    Prop where
  id : s'.id = s.id
  clientId : s'.clientId = s.clientId
  token : s'.token = s.token
  urlPath : s'.urlPath = s.urlPath
  isActive : Column payload.isActive s.isActive s'.isActive
  lastAccessedAt : s'.lastAccessedAt = s.lastAccessedAt

/-- The columns of a relay rule, with the name that is given.  Its client comes from its exit. -/
structure RelayRuleColumns (payload : UpdateRelayRulePayload) (name : Option String)
    (r r' : RelayRule) : Prop where
  id : r'.id = r.id
  nodeId : r'.nodeId = r.nodeId
  exitBindingId : Column payload.exitBindingId r.exitBindingId r'.exitBindingId
  name : Column name r.name r'.name
  matchType : Column payload.matchType r.matchType r'.matchType
  matchConfig : Column payload.matchConfig r.matchConfig r'.matchConfig
  enabled : Column payload.enabled r.enabled r'.enabled
  sortOrder : Column payload.sortOrder r.sortOrder r'.sortOrder

/-! ### Updates -/

/-- One of the calls.  `expireAt` of a subscription is `some none` for a text that is not a date. -/
inductive Update where
  | client (id : Uuid) (payload : UpdateClientPayload)
  | config (id : Uuid) (payload : UpdateConfigPayload)
  | binding (id : Uuid) (payload : UpdateBindingPayload)
  | group (id : Uuid) (payload : UpdateGroupPayload)
  | template (id : String) (payload : UpdateTemplatePayload)
  | subscription (id : Uuid) (payload : UpdateSubscriptionPayload)
  | relayRule (id : Uuid) (payload : UpdateRelayRulePayload)

/-- A route that leaves the tables alone when it fails. -/
def ofResult (route : Db → ApiResult Db) : Handler Unit := fun db =>
  match route db with
  | .ok db' => .ok () db'
  | .error e => .error e db

theorem ofResult_ok {route : Db → ApiResult Db} {db db' : Db}
    (h : ofResult route db = .ok () db') : route db = .ok db' := by
  rw [ofResult] at h
  split at h
  · rename_i db₁ hroute
    cases h
    exact hroute
  · cases h

namespace Update

def run (env : EditEnv) (ids : RelayIds) : Update → Handler Unit
  | .client id payload => ofResult (updateClient env.now id payload)
  | .config id payload => updateConfig env id payload
  | .binding id payload => updateBinding id payload
  | .group id payload => ofResult (updateGroup env.now id payload)
  | .template id payload => ofResult (updateTemplate id payload)
  | .subscription id payload => ofResult (updateSubscription id payload)
  | .relayRule id payload => updateRelayRule env ids id payload

/-- A field that the column cannot hold. -/
def Unrepresentable : Update → Prop
  | .config _ payload => ∃ port, payload.listenPort = some port ∧ 2147483647 < port
  | .subscription _ payload => payload.expireAt = some none
  | _ => False

end Update

/-- The row of a key is there before and after, and `holds` holds of the two. -/
def RowKept {ρ κ : Type} [HasKey ρ κ] [DecidableEq κ] (t t' : Table ρ) (k : κ)
    (holds : ρ → ρ → Prop) : Prop :=
  ∃ r r', t.find k = some r ∧ t'.find k = some r' ∧ holds r r'

section RowKept

variable {ρ κ : Type} [HasKey ρ κ] [DecidableEq κ] {t t' : Table ρ} {k : κ} {holds : ρ → ρ → Prop}

theorem rowKept_update {r : ρ} {f : ρ → ρ} (hkey : ∀ r, HasKey.key (f r) = HasKey.key r)
    (hr : t.find k = some r) (hholds : holds r (f r)) : RowKept t (t.update k f) k holds :=
  ⟨r, f r, hr, by rw [Table.find_update_self hkey, hr, Option.map_some], hholds⟩

theorem RowKept.imp {holds' : ρ → ρ → Prop} (h : RowKept t t' k holds)
    (himp : ∀ r r', holds r r' → holds' r r') : RowKept t t' k holds' := by
  obtain ⟨r, r', hr, hr', hholds⟩ := h
  exact ⟨r, r', hr, hr', himp r r' hholds⟩

/-- What a column holds afterwards, when the rows decide it. -/
theorem RowKept.column {α : Type} {f g : ρ → α} (h : RowKept t t' k holds)
    (hcolumn : ∀ r r', holds r r' → f r' = g r) : (t'.find k).map f = (t.find k).map g := by
  obtain ⟨r, r', hr, hr', hholds⟩ := h
  rw [hr, hr', Option.map_some, Option.map_some, hcolumn r r' hholds]

end RowKept

/-- The given values are in the row, and the other columns are as they were. -/
def Update.AsGiven (db db' : Db) : Update → Prop
  | .client id p => RowKept db.clients db'.clients id (ClientColumns p p.name (p.email.map some))
  | .config id p => RowKept db.protocolConfigs db'.protocolConfigs id fun c c' =>
      ConfigColumns p c c' ∧ Column (p.listenPort.map Int.ofNat) c.listenPort c'.listenPort ∧
        Column (p.tlsSettings.map some) c.tlsSettings c'.tlsSettings
  | .binding id p => RowKept db.nodeBindings db'.nodeBindings id (BindingColumns p)
  | .group id p => RowKept db.nodeGroups db'.nodeGroups id fun g g' =>
      GroupColumns p g g' ∧ Column (p.description.map some) g.description g'.description
  | .template id p =>
      RowKept db.subscriptionTemplates db'.subscriptionTemplates id (TemplateColumns p)
  | .subscription id p => RowKept db.subscriptions db'.subscriptions id fun s s' =>
      SubscriptionColumns p s s' ∧ Column p.expireAt s.expireAt s'.expireAt
  | .relayRule id p => RowKept db.relayRules db'.relayRules id (RelayRuleColumns p p.name)

/-- Every call that returns `Ok` writes the fields that are given and no other, and a
field that the column cannot hold is refused. -/
def PartialUpdate (env : EditEnv) (ids : RelayIds) (db : Db) (u : Update) : Prop :=
  (∀ db', u.run env ids db = .ok () db' → u.AsGiven db db') ∧
    (u.Unrepresentable → ∃ e, u.run env ids db = .error e db)

/-- The columns, with the names and the email as they are stored, and without those
that are written in a way of their own. -/
def Update.AsStored (db db' : Db) : Update → Prop
  | .client id p => RowKept db.clients db'.clients id (ClientColumns p (p.name.map Text.trim)
      (p.email.map fun email => (some email).filter (· ≠ "")))
  | .config id p => RowKept db.protocolConfigs db'.protocolConfigs id fun c c' =>
      ConfigColumns p c c' ∧
        ((∀ port, p.listenPort = some port → port ≤ 2147483647) →
          Column (p.listenPort.map Int.ofNat) c.listenPort c'.listenPort) ∧
        ((p.tlsSettings = none → c.tlsSettings = none) →
          Column (p.tlsSettings.map some) c.tlsSettings c'.tlsSettings)
  | .binding id p => RowKept db.nodeBindings db'.nodeBindings id (BindingColumns p)
  | .group id p => RowKept db.nodeGroups db'.nodeGroups id fun g g' =>
      GroupColumns p g g' ∧ ((p.description = none → g.description = none) →
        Column (p.description.map some) g.description g'.description)
  | .template id p =>
      RowKept db.subscriptionTemplates db'.subscriptionTemplates id (TemplateColumns p)
  | .subscription id p => RowKept db.subscriptions db'.subscriptions id fun s s' =>
      SubscriptionColumns p s s' ∧ (p.expireAt ≠ some none →
        Column p.expireAt s.expireAt s'.expireAt)
  | .relayRule id p =>
      RowKept db.relayRules db'.relayRules id (RelayRuleColumns p (p.name.map Text.trim))

/-! ### What is stored -/

theorem clientColumns_apply (payload : UpdateClientPayload) (now : DateTime) (c : Client) :
    ClientColumns payload (payload.name.map Text.trim)
      (payload.email.map fun email => (some email).filter (· ≠ "")) c (payload.apply now c) where
  id := rfl
  userId := rfl
  name := rfl
  email := by
    rw [UpdateClientPayload.apply]
    cases payload.email with
    | none => rfl
    | some email =>
      rw [Column, Option.map_some, Option.getD_some, Option.filter_some]
      by_cases h : email = "" <;> simp [h]
  trafficLimitBytes := rfl
  trafficUsedBytes := rfl
  allTimeUsedBytes := rfl
  expiryDate := column_or _ _
  resetDay := column_or _ _
  dataLimitResetStrategy := rfl
  lastTrafficResetTime := rfl
  maxDevices := column_or _ _
  status := rfl
  onHoldExpireDurationSecs := column_or _ _
  onHoldTimeout := column_or _ _

theorem configColumns_apply (payload : UpdateConfigPayload) (now : DateTime) (c : ProtocolConfig) :
    ConfigColumns payload c (payload.apply now c) :=
  ⟨rfl, rfl, rfl, rfl, rfl, rfl⟩

/-- A port that fits the column is stored as it is. -/
theorem listenPort_apply_of_fits {payload : UpdateConfigPayload} (now : DateTime)
    (c : ProtocolConfig) (hfits : ∀ port, payload.listenPort = some port → port ≤ 2147483647) :
    Column (payload.listenPort.map Int.ofNat) c.listenPort (payload.apply now c).listenPort := by
  rw [Column, PortAgreement.listenPort_apply]
  cases hport : payload.listenPort with
  | none => rw [Option.map_none, Option.map_none]
  | some port =>
    have hle := hfits port hport
    rw [Option.map_some, Option.map_some, Option.getD_some, Option.getD_some]
    exact Int.bmod_eq_of_le (by omega) (by omega)

theorem bindingColumns_apply (payload : UpdateBindingPayload) (b : NodeBinding) :
    BindingColumns payload b (payload.apply b) :=
  ⟨rfl, rfl, rfl, column_or _ _, rfl⟩

theorem groupColumns_apply (payload : UpdateGroupPayload) (now : DateTime) (g : NodeGroup) :
    GroupColumns payload g (payload.apply now g) :=
  ⟨rfl, rfl, column_or _ _⟩

theorem templateColumns_apply (payload : UpdateTemplatePayload) (t : SubscriptionTemplate) :
    TemplateColumns payload t (payload.apply t) :=
  ⟨rfl, rfl, rfl, column_or _ _, column_or _ _, rfl, rfl, column_or _ _⟩

theorem relayRuleColumns_apply (payload : UpdateRelayRulePayload) (now : DateTime)
    (newClientId : Uuid) (r : RelayRule) :
    RelayRuleColumns payload (payload.name.map Text.trim) r (payload.apply now newClientId r) :=
  ⟨rfl, rfl, rfl, rfl, rfl, rfl, rfl, rfl⟩

/-- A column that is always replaced, when that does not lose a value. -/
theorem column_of_replaced {α : Type} {given before : Option α}
    (h : given = none → before = none) : Column (given.map some) before given := by
  cases given with
  | none => exact (h rfl).symm
  | some a => rfl

/-- The enabled template of a format is not among the others. -/
theorem find_enforceUniqueEnabledTemplate (t : Table SubscriptionTemplate) (id format : String)
    (enabled : Bool) : (enforceUniqueEnabledTemplate t id format enabled).find id = t.find id := by
  rw [enforceUniqueEnabledTemplate]
  split
  · have hne : ∀ other ∈ ((enabledOf t format).filter (·.id ≠ id)).map (·.id), id ≠ other := by
      intro other hother
      obtain ⟨r, hr, rfl⟩ := List.mem_map.mp hother
      exact fun h => of_decide_eq_true (List.mem_filter.mp hr).2 h.symm
    generalize ((enabledOf t format).filter (·.id ≠ id)).map (·.id) = others at hne
    induction others generalizing t with
    | nil => rfl
    | cons other others ih =>
      rw [List.foldl_cons,
        ih (t.update other turnedOff) fun o ho => hne o (List.mem_cons_of_mem _ ho),
        Table.find_update_of_ne (hne other List.mem_cons_self)]
  · rfl

theorem updateClient_ok {now : DateTime} {id : Uuid} {payload : UpdateClientPayload} {db db' : Db}
    (h : updateClient now id payload db = .ok db') : (∃ c, db.clients.find id = some c) ∧
      db'.clients = db.clients.update id (payload.apply now) := by
  rw [updateClient] at h
  split at h
  · cases h
  · rename_i c hc
    split at h
    · cases h
    · cases h
      refine ⟨⟨c, hc⟩, ?_⟩
      cases payload.groupIds with
      | none => rfl
      | some groupIds => rfl

theorem updateSubscription_ok {id : Uuid} {payload : UpdateSubscriptionPayload} {db db' : Db}
    (h : updateSubscription id payload db = .ok db') : ∃ s, db.subscriptions.find id = some s ∧
      db' = { db with subscriptions := db.subscriptions.update id fun s => { s with
        isActive := payload.isActive.getD s.isActive
        expireAt := payload.expireAt.getD s.expireAt } } := by
  rw [updateSubscription] at h
  split at h
  · cases h
  · rename_i s hs
    cases h
    exact ⟨s, hs, rfl⟩

/-- **Partial update frame.**  A call that returns `Ok` writes the columns whose
fields are present and leaves the others. -/
theorem partial_update_frame {env : EditEnv} {ids : RelayIds} {db db' : Db} {u : Update}
    (h : u.run env ids db = .ok () db') : u.AsStored db db' := by
  cases u with
  | client id payload =>
    obtain ⟨⟨c, hc⟩, hclients⟩ := updateClient_ok (ofResult_ok h)
    rw [Update.AsStored, hclients]
    exact rowKept_update (fun _ => rfl) hc (clientColumns_apply payload env.now c)
  | config id payload =>
    obtain ⟨c, hc, rfl⟩ := updateConfig_ok h
    obtain ⟨rows, hrows⟩ := sameContents_markPending env
      (parseCoreType (payload.apply env.now c).coreType) "config" (nodesUsingConfig db id)
      { db with protocolConfigs := db.protocolConfigs.update id (payload.apply env.now) }
    rw [hrows]
    exact rowKept_update (fun _ => rfl) hc ⟨configColumns_apply payload env.now c,
      listenPort_apply_of_fits env.now c, column_of_replaced⟩
  | binding id payload =>
    obtain ⟨b, hb, rfl⟩ := updateBinding_ok h
    exact rowKept_update (fun _ => rfl) hb (bindingColumns_apply payload b)
  | group id payload =>
    obtain ⟨⟨g, hg⟩, nodeGroups, rfl, hdb⟩ := updateGroup_ok (ofResult_ok h)
    have hgroups : db'.nodeGroups = db.nodeGroups.update id (payload.apply env.now) := by
      rw [hdb]
      cases payload.bindingIds <;> rfl
    rw [Update.AsStored, hgroups]
    exact rowKept_update (fun _ => rfl) hg
      ⟨groupColumns_apply payload env.now g, column_of_replaced⟩
  | template id payload =>
    obtain ⟨t, ht, -, rfl⟩ := updateTemplate_ok (ofResult_ok h)
    obtain ⟨r, r', hr, hr', hcolumns⟩ := rowKept_update (f := payload.apply)
      (fun _ => rfl) ht (templateColumns_apply payload t)
    exact ⟨r, r', hr, (find_enforceUniqueEnabledTemplate ..).trans hr', hcolumns⟩
  | subscription id payload =>
    obtain ⟨s, hs, rfl⟩ := updateSubscription_ok (ofResult_ok h)
    exact rowKept_update (fun _ => rfl) hs ⟨⟨rfl, rfl, rfl, rfl, rfl, rfl⟩, fun _ => rfl⟩
  | relayRule id payload =>
    obtain ⟨r, hr, clients, clientGroupBindings, -, rfl⟩ := updateRelayRule_ok h
    obtain ⟨rows, hrows⟩ := sameContents_markBoth env
      (affectedNodes r.nodeId [nodeOfBinding db r.exitBindingId,
        nodeOfBinding db (payload.exitBindingId.getD r.exitBindingId)])
      { db with
        clients, clientGroupBindings
        relayRules := db.relayRules.update id (payload.apply env.now ids.clientId) }
    rw [hrows]
    exact rowKept_update (fun _ => rfl) hr (relayRuleColumns_apply payload env.now ids.clientId r)

/-! ### What is not stored as it is given -/

namespace Rewritten

open StaleExit (env)

def client : Client := { OnHold.client with email := some "dave@example.com" }

def config : ProtocolConfig :=
  { StaleExit.config with tlsSettings := some (Json.mkObj [("domain", .str "example.com")]) }

def group : NodeGroup := ⟨.ofNat 70, "eu", some "Europe", none, default⟩

def subscription : Subscription := ⟨.ofNat 71, client.id, "k", "/sub/k", some default, true, none⟩

def db : Db where
  nodes := StaleExit.db.nodes
  protocolConfigs := .single config
  nodeBindings := StaleExit.db.nodeBindings
  relayRules := StaleExit.db.relayRules
  clients := .single client
  nodeGroups := .single group
  subscriptions := .single subscription

def ids : RelayIds := ⟨.ofNat 72, .ofNat 73, .ofNat 74, fun _ => .ofNat 75⟩

def noChange : UpdateClientPayload :=
  ⟨none, none, none, none, none, none, none, none, none, none, none⟩

/-- A name with blanks. -/
def blankedName : Update := .client client.id { noChange with name := some " dave " }

def emptyEmail : Update := .client client.id { noChange with email := some "" }

def blankedRule : Update := .relayRule StaleExit.rule.id { name := some " hop " }

/-- Another name for the config, no TLS settings. -/
def configName : Update := .config config.id { name := some "other" }

/-- A port of more than 32 bits. -/
def configPort : Update := .config config.id { listenPort := some 4294967297 }

/-- Another name for the group, no description. -/
def groupName : Update := .group group.id { name := some "europe" }

/-- An expiry date that is not a date. -/
def expiry : Update := .subscription subscription.id { expireAt := some none }

theorem refuted {u : Update} {db' : Db} (hrun : u.run env ids db = .ok () db')
    (h : ¬ u.AsGiven db db') : ¬ PartialUpdate env ids db u :=
  fun hupdate => h (hupdate.1 db' hrun)

end Rewritten

open Rewritten in
/-- The names and the email are rewritten; TLS settings and a description are
lost; a port and a date that do not fit are not refused. -/
theorem rewritten_values :
    ¬ PartialUpdate StaleExit.env ids db blankedName ∧
    ¬ PartialUpdate StaleExit.env ids db emptyEmail ∧
    ¬ PartialUpdate StaleExit.env ids db blankedRule ∧
    ¬ PartialUpdate StaleExit.env ids db configName ∧
    ¬ PartialUpdate StaleExit.env ids db configPort ∧
    ¬ PartialUpdate StaleExit.env ids db groupName ∧
    ¬ PartialUpdate StaleExit.env ids db expiry := by
  refine ⟨?_, ?_, ?_, ?_, ?_, ?_, ?_⟩
  · refine refuted rfl fun h => ?_
    exact absurd (h.column (g := fun _ => " dave ") fun _ _ hc => hc.name) (by decide)
  · refine refuted rfl fun h => ?_
    exact absurd (h.column (g := fun _ => some "") fun _ _ hc => hc.email) (by decide)
  · refine refuted rfl fun h => ?_
    exact absurd (h.column (g := fun _ => " hop ") fun _ _ hr => hr.name) (by decide)
  · refine refuted rfl fun h => ?_
    exact absurd (h.column (g := fun c => c.tlsSettings.isSome)
      fun _ _ hc => congrArg Option.isSome hc.2.2) (by decide)
  · refine refuted rfl fun h => ?_
    exact absurd (h.column (g := fun _ => 4294967297) fun _ _ hc => hc.2.1) (by decide)
  · refine refuted rfl fun h => ?_
    exact absurd (h.column fun _ _ hg => hg.2) (by decide)
  · refine fun h => ?_
    obtain ⟨e, he⟩ := h.2 rfl
    cases he

open Rewritten in
/-- The other columns of the config stay under its new name. -/
theorem partial_update_frame_config : ∃ db', configName.run StaleExit.env ids db = .ok () db' ∧
    configName.AsStored db db' :=
  ⟨_, rfl, partial_update_frame (show configName.run StaleExit.env ids db = _ from rfl)⟩

end Hub

end ProxyPanel
