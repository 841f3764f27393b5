import ProxyPanel.Hub.NodeGroups
import ProxyPanel.Hub.ProxyNodes
import ProxyPanel.Hub.Edits
import ProxyPanel.Lib.Run

/-!
# Access through groups that exist

A client gets into a binding through the two tables of links.  Neither injection nor the
subscription looks at the table of groups, so what keeps access inside the groups that
exist is an invariant of the routes that write links and groups: `Inv`, kept by every
request of `Spares`.  A deleted group with members is the request it is not kept by
(`deleted_group_grants`).
-/

namespace ProxyPanel.Hub

open Json Query Handler

/-! ### The subscription routes -/

structure CreateSubscriptionPayload where
  clientId : Uuid
  /-- Each group with the id of its new link. -/
  groupIds : Option (List (Uuid × Uuid)) := none

/-- The subscription of a client, written unless there is one. -/
def ensureDefaultSubscription (id clientId : Uuid) (token : String) (db : Db) : Option Db :=
  match db.subscriptions.one (·.clientId = clientId) with
  | some _ => some db
  | none =>
    (db.subscriptions.insert ⟨id, clientId, token, "/sub/" ++ token, none, true, none⟩).map
      fun subscriptions => { db with subscriptions }

/-- The groups of the client are replaced whether or not there is such a client. -/
def createSubscription (id : Uuid) (token : String) (payload : CreateSubscriptionPayload)
    (db : Db) : ApiResult Db :=
  let groupIds := payload.groupIds.getD []
  if (db.subscriptions.one (·.clientId = payload.clientId)).isNone ∧ groupIds = [] then
    .error (.badRequest "subscription_groups_required"
      "select at least one node group before enabling the subscription")
  else
    let grouped := if groupIds = [] then db else syncClientGroups db payload.clientId groupIds
    match ensureDefaultSubscription id payload.clientId token grouped with
    | some db => .ok db
    | none => .error (.internal "database operation failed")

structure UpdateSubscriptionPayload where
  isActive : Option Bool := none
  /-- The text as a time, if it is one. -/
  expireAt : Option (Option DateTime) := none

def updateSubscription (id : Uuid) (payload : UpdateSubscriptionPayload) (db : Db) :
    ApiResult Db :=
  match db.subscriptions.find id with
  | none => .error (.notFound "subscription not found")
  | some _ => .ok { db with subscriptions := db.subscriptions.update id fun s =>
      { s with
        isActive := payload.isActive.getD s.isActive
        expireAt := payload.expireAt.getD s.expireAt } }

def deleteSubscription (id : Uuid) (db : Db) : ApiResult Db :=
  match db.subscriptions.find id with
  | none => .error (.notFound "subscription not found")
  | some _ => .ok { db with subscriptions := db.subscriptions.deleteWhere (·.id = id) }

namespace GroupAccess

/-! ### Access -/

/-- A group that exists has the client and the binding. -/
def Contained (db : Db) (clientId bindingId : Uuid) : Prop :=
  ∃ g ∈ db.nodeGroups.rows, g.id ∈ clientGroupIds db clientId ∧ g.id ∈ bindingGroupIds db bindingId

/-- The config of the binding's node is generated with an inbound of the binding, and that
inbound has the client's credential. -/
def Accepted (gen : GenEnv) (db : Db) (client : Client) (binding : NodeBinding) : Prop :=
  ∃ core out inbound, (generateNodeConfig gen binding.nodeId core).exec db = .ok out ∧
    binding ∈ activeBindings db binding.nodeId ∧
    inboundFor db binding.nodeId core binding = some inbound ∧ inbound ∈ emitted core out.1 ∧
    client.id.toStr ∈ Builder.credentials inbound

/-- The groups a filter names. -/
def allowedGroups (db : Db) (filterRules : Option Json) : List Uuid :=
  let groupNames := filterNames filterRules "node_groups"
  if groupNames = [] then [] else (db.nodeGroups.filter (·.name ∈ groupNames)).map (·.id)

/-- The node a subscription with a filter lists for a binding. -/
def listed (substitute : Substitution) (db : Db) (client : Client) (filterRules : Option Json)
    (binding : NodeBinding) : Option ProxyNode :=
  if client.status = "limited" ∨ client.status = "expired" then none
  else match (proxyNode substitute client (clientGroupIds db client.id)
      (filterNames filterRules "protocols") (allowedGroups db filterRules) binding).exec db with
    | .ok node => node
    | .error _ => none

/-- A subscription lists exactly the listed nodes of the active bindings. -/
theorem exec_buildProxyNodes_filtered (substitute : Substitution) (db : Db) (client : Client)
    (filterRules : Option Json) : (buildProxyNodes substitute client filterRules).exec db =
      .ok ((db.nodeBindings.filter (·.isActive)).filterMap
        (listed substitute db client filterRules)) := by
  rw [buildProxyNodes]
  by_cases hdenied : client.status = "limited" ∨ client.status = "expired"
  · have hnone : ∀ b, listed substitute db client filterRules b = none := fun b => by
      rw [listed, if_pos hdenied]
    rw [if_pos hdenied, show listed substitute db client filterRules = fun _ => none
      from funext hnone, List.filterMap_none]
    rfl
  · have hcollect : (collect (proxyNode substitute client (clientGroupIds db client.id)
        (filterNames filterRules "protocols") (allowedGroups db filterRules))
        (db.nodeBindings.filter (·.isActive))).exec db = .ok ((db.nodeBindings.filter
          (·.isActive)).filterMap (listed substitute db client filterRules)) := by
      refine exec_collect_some (fun b _ => ?_)
      obtain ⟨o, ho, _⟩ := exec_proxyNode substitute client (filterNames filterRules "protocols")
        (allowedGroups db filterRules) b db
      rw [listed, if_neg hdenied, ho]
    rw [if_neg hdenied, exec_read_bind]
    rw [allowedGroups] at hcollect
    by_cases hnames : filterNames filterRules "node_groups" = []
    · simp only [if_pos hnames] at hcollect ⊢
      exact hcollect
    · simp only [if_neg hnames] at hcollect ⊢
      exact hcollect

/-- **Access only through groups that exist**: a client that an inbound of a binding accepts,
or whose subscription lists the binding, shares a group with it. -/
def OnlyThroughGroups (gen : GenEnv) (substitute : Substitution) (db : Db) : Prop :=
  ∀ client ∈ db.clients.rows, ∀ binding ∈ db.nodeBindings.rows,
    (Accepted gen db client binding ∨
      ∃ filterRules, (listed substitute db client filterRules binding).isSome) →
    Contained db client.id binding.id

/-! ### Requests -/

/-- The requests of the node-group, client, binding and subscription routes that write, with
the identifiers drawn for them.  The template routes write templates only. -/
inductive Request where
  | createGroup (now : DateTime) (id : Uuid) (payload : CreateGroupPayload)
  | updateGroup (now : DateTime) (id : Uuid) (payload : UpdateGroupPayload)
  | deleteGroup (id : Uuid)
  | createClient (now : DateTime) (id userId : Uuid) (payload : CreateClientPayload)
  | updateClient (now : DateTime) (id : Uuid) (payload : UpdateClientPayload)
  | deleteClient (id : Uuid)
  | resetClientTraffic (now : DateTime) (id : Uuid)
  | createBinding (id : Uuid) (payload : CreateBindingPayload)
  | updateBinding (id : Uuid) (payload : UpdateBindingPayload)
  | deleteBinding (id : Uuid)
  | createSubscription (id : Uuid) (token : String) (payload : CreateSubscriptionPayload)
  | updateSubscription (id : Uuid) (payload : UpdateSubscriptionPayload)
  | deleteSubscription (id : Uuid)
  | templates (rows : Table SubscriptionTemplate)

def handle (db : Db) : Request → Db
  | .createGroup now id payload => (createGroup now id payload db).toOption.getD db
  | .updateGroup now id payload => (updateGroup now id payload db).toOption.getD db
  | .deleteGroup id => (deleteGroup id db).toOption.getD db
  | .createClient now id userId payload => (createClient now id userId payload db).toOption.getD db
  | .updateClient now id payload => (updateClient now id payload db).toOption.getD db
  | .deleteClient id => (deleteClient id db).toOption.getD db
  | .resetClientTraffic now id => (resetClientTraffic now id db).toOption.getD db
  | .createBinding id payload => rowsAfter (createBinding id payload) db
  | .updateBinding id payload => rowsAfter (updateBinding id payload) db
  | .deleteBinding id => rowsAfter (deleteBinding id) db
  | .createSubscription id token payload =>
    (createSubscription id token payload db).toOption.getD db
  | .updateSubscription id payload => (updateSubscription id payload db).toOption.getD db
  | .deleteSubscription id => (deleteSubscription id db).toOption.getD db
  | .templates rows => { db with subscriptionTemplates := rows }

/-- The users a binding would have from its settings. -/
def presetUsers (db : Db) (binding : NodeBinding) : List String :=
  match db.protocolConfigs.find binding.protocolConfigId with
  | none => []
  | some config =>
    match ProtocolType.fromStr? config.protocolType with
    | none => []
    | some protocol =>
      builtCredentials (parseCoreType config.coreType) protocol (mergedSettings config binding)

/-- Identifiers that are drawn are new: those of links among the links, that of a client or a
binding also among the ends of links, and that of a client in the settings of bindings. -/
def fresh (db : Db) : Request → Bool
  | .createGroup _ _ payload => NewBindingLinks db (payload.bindingIds.getD [])
  | .updateGroup _ _ payload => NewBindingLinks db (payload.bindingIds.getD [])
  | .createClient _ id _ payload => NewClientLinks db (payload.groupIds.getD []) ∧
      clientGroupIds db id = [] ∧ ∀ b ∈ db.nodeBindings.rows, id.toStr ∉ presetUsers db b
  | .updateClient _ _ payload => NewClientLinks db (payload.groupIds.getD [])
  | .createSubscription _ _ payload => NewClientLinks db (payload.groupIds.getD [])
  | .createBinding id _ => bindingGroupIds db id = []
  | _ => true

def step (db : Db) (request : Request) : Option Db :=
  if fresh db request then some (handle db request) else none

/-! ### What every request must leave alone -/

/-- A group that exists, or that no binding is in. -/
def Harmless (db : Db) (groupId : Uuid) : Prop :=
  (∃ g, db.nodeGroups.find groupId = some g) ∨
    ∀ b ∈ db.nodeBindings.rows, groupId ∉ bindingGroupIds db b.id

/-- No client is a user of the settings of the binding. -/
def NoClientPreset (db : Db) (binding : NodeBinding) : Prop :=
  ∀ c ∈ db.clients.rows, c.id.toStr ∉ presetUsers db binding

/-- **The requests that keep access inside the groups.**  A group is deleted when no client
shares it with a binding, clients are put into groups that exist or have no binding, and the
settings of a binding hold no client's identifier. -/
def Spares (db : Db) : Request → Prop
  | .deleteGroup id => ∀ c ∈ db.clients.rows, ∀ b ∈ db.nodeBindings.rows,
      id ∈ clientGroupIds db c.id → id ∉ bindingGroupIds db b.id
  | .createClient _ _ _ payload => Text.trim payload.name ≠ "" →
      ∀ g ∈ (payload.groupIds.getD []).map Prod.fst, Harmless db g
  | .updateClient _ id payload => (∃ c, db.clients.find id = some c) →
      (∀ name, payload.name = some name → Text.trim name ≠ "") →
      ∀ g ∈ (payload.groupIds.getD []).map Prod.fst, Harmless db g
  | .createSubscription _ _ payload => (∃ c, db.clients.find payload.clientId = some c) →
      ∀ g ∈ (payload.groupIds.getD []).map Prod.fst, Harmless db g
  | .createBinding id payload => NoClientPreset db (payload.binding id)
  | .updateBinding id payload => ∀ b, db.nodeBindings.find id = some b →
      NoClientPreset db (payload.apply b)
  | _ => True

/-- A group that a client of the table shares with a binding of the table exists, and no
client's identifier is in the settings of a binding. -/
structure Inv (db : Db) : Prop where
  exist : ∀ c ∈ db.clients.rows, ∀ b ∈ db.nodeBindings.rows, ∀ g ∈ clientGroupIds db c.id,
    g ∈ bindingGroupIds db b.id → ∃ row, db.nodeGroups.find g = some row
  preset : ∀ b ∈ db.nodeBindings.rows, NoClientPreset db b

section Kept

variable {db db' : Db}

theorem presetUsers_congr (hconfigs : db'.protocolConfigs = db.protocolConfigs)
    (binding : NodeBinding) : presetUsers db' binding = presetUsers db binding := by
  rw [presetUsers, presetUsers, hconfigs]

theorem clientGroupIds_mono (h : db'.clientGroupBindings.rows ⊆ db.clientGroupBindings.rows)
    (clientId : Uuid) : clientGroupIds db' clientId ⊆ clientGroupIds db clientId := by
  intro g hg
  obtain ⟨link, hlink, hclient, hgroup⟩ := mem_clientGroupIds.mp hg
  exact mem_clientGroupIds.mpr ⟨link, h hlink, hclient, hgroup⟩

theorem bindingGroupIds_mono
    (h : db'.nodeBindingGroupBindings.rows ⊆ db.nodeBindingGroupBindings.rows)
    (bindingId : Uuid) : bindingGroupIds db' bindingId ⊆ bindingGroupIds db bindingId := by
  intro g hg
  obtain ⟨link, hlink, hbinding, hgroup⟩ := mem_bindingGroupIds.mp hg
  exact mem_bindingGroupIds.mpr ⟨link, h hlink, hbinding, hgroup⟩

/-- Clients, bindings and links may go and groups may come. -/
theorem inv_of_subset (hI : Inv db)
    (hclients : ∀ c ∈ db'.clients.rows, ∃ d ∈ db.clients.rows, d.id = c.id)
    (hbindings : db'.nodeBindings.rows ⊆ db.nodeBindings.rows)
    (hclientLinks : db'.clientGroupBindings.rows ⊆ db.clientGroupBindings.rows)
    (hbindingLinks : db'.nodeBindingGroupBindings.rows ⊆ db.nodeBindingGroupBindings.rows)
    (hgroups : ∀ g row, db.nodeGroups.find g = some row → ∃ row', db'.nodeGroups.find g = some row')
    (hconfigs : db'.protocolConfigs = db.protocolConfigs) : Inv db' := by
  constructor
  · intro c hc b hb g hgc hgb
    obtain ⟨d, hd, hid⟩ := hclients c hc
    have hgd := clientGroupIds_mono hclientLinks c.id hgc
    rw [← hid] at hgd
    obtain ⟨row, hrow⟩ := hI.exist d hd b (hbindings hb) g hgd
      (bindingGroupIds_mono hbindingLinks b.id hgb)
    exact hgroups g row hrow
  · intro b hb c hc
    obtain ⟨d, hd, hid⟩ := hclients c hc
    rw [presetUsers_congr hconfigs, ← hid]
    exact hI.preset b (hbindings hb) d hd

theorem exists_of_mem_update {clients : Table Client} {id : Uuid} {f : Client → Client}
    (hf : ∀ r, (f r).id = r.id) :
    ∀ c ∈ (clients.update id f).rows, ∃ d ∈ clients.rows, d.id = c.id := by
  intro c hc
  obtain ⟨d, hd, rfl⟩ := List.mem_map.mp hc
  refine ⟨d, hd, ?_⟩
  split
  · exact (hf d).symm
  · rfl

/-- The rows of clients change and go, nobody is new. -/
theorem inv_clients (hI : Inv db) {clients : Table Client}
    (h : ∀ c ∈ clients.rows, ∃ d ∈ db.clients.rows, d.id = c.id) : Inv { db with clients } :=
  inv_of_subset hI h (fun _ h => h) (fun _ h => h) (fun _ h => h) (fun _ row h => ⟨row, h⟩) rfl

theorem inv_nodeGroups (hI : Inv db) {nodeGroups : Table NodeGroup}
    (h : ∀ g row, db.nodeGroups.find g = some row → ∃ row', nodeGroups.find g = some row') :
    Inv { db with nodeGroups } :=
  inv_of_subset hI (fun c hc => ⟨c, hc, rfl⟩) (fun _ h => h) (fun _ h => h) (fun _ h => h) h rfl

/-- The bindings of a group that exists are replaced. -/
theorem inv_syncGroupBindings (hI : Inv db) {id : Uuid} {bindingIds : List (Uuid × Uuid)}
    (hnew : NewBindingLinks db bindingIds) (hgroup : ∃ row, db.nodeGroups.find id = some row) :
    Inv (syncGroupBindings db id bindingIds) := by
  refine ⟨fun c hc b hb g hgc hgb => ?_, hI.preset⟩
  rw [mem_bindingGroupIds_sync hnew] at hgb
  by_cases hg : g = id
  · exact hg ▸ hgroup
  · rw [if_neg hg] at hgb
    exact hI.exist c hc b hb g hgc hgb

/-- The groups of a client are replaced by harmless ones. -/
theorem inv_syncClientGroups (hI : Inv db) {id : Uuid} {groupIds : List (Uuid × Uuid)}
    (hnew : NewClientLinks db groupIds)
    (hharmless : (∃ c, db.clients.find id = some c) → ∀ g ∈ groupIds.map Prod.fst, Harmless db g) :
    Inv (syncClientGroups db id groupIds) := by
  refine ⟨fun c hc b hb g hgc hgb => ?_, hI.preset⟩
  rw [mem_clientGroupIds_sync hnew] at hgc
  by_cases hid : c.id = id
  · rw [if_pos hid] at hgc
    have hrow : ∃ c, db.clients.find id = some c := ⟨c, Table.find_eq_some_iff.mpr ⟨hc, hid⟩⟩
    rcases hharmless hrow g hgc with hexists | hnone
    · exact hexists
    · exact absurd hgb (hnone b hb)
  · rw [if_neg hid] at hgc
    exact hI.exist c hc b hb g hgc hgb

theorem inv_createGroup {now : DateTime} {id : Uuid} {payload : CreateGroupPayload} (hI : Inv db)
    (hfresh : fresh db (.createGroup now id payload) = true)
    (h : createGroup now id payload db = .ok db') : Inv db' := by
  obtain ⟨nodeGroups, hinsert, rfl⟩ := createGroup_ok h
  have hgrown : Inv { db with nodeGroups } := by
    refine inv_nodeGroups hI fun g row hrow => ?_
    rw [Table.find_insert hinsert]
    split
    · exact ⟨_, rfl⟩
    · exact ⟨row, hrow⟩
  have hgroup : ∃ row, nodeGroups.find id = some row :=
    ⟨_, (Table.find_insert hinsert id).trans (if_pos rfl)⟩
  cases hids : payload.bindingIds with
  | none => exact hgrown
  | some bindingIds =>
    have hnew : NewBindingLinks db bindingIds := by simpa [fresh, hids] using hfresh
    exact inv_syncGroupBindings hgrown hnew hgroup

theorem inv_updateGroup {now : DateTime} {id : Uuid} {payload : UpdateGroupPayload} (hI : Inv db)
    (hfresh : fresh db (.updateGroup now id payload) = true)
    (h : updateGroup now id payload db = .ok db') : Inv db' := by
  obtain ⟨⟨row, hrow⟩, nodeGroups, hgroups, rfl⟩ := updateGroup_ok h
  have hfound : ∀ g row, db.nodeGroups.find g = some row →
      ∃ row', nodeGroups.find g = some row' := by
    intro g row hrow
    by_cases hg : g = id
    · subst hg
      rw [hgroups, Table.find_update_self (f := payload.apply now) fun _ => rfl, hrow]
      exact ⟨_, rfl⟩
    · rw [hgroups, Table.find_update_of_ne hg]
      exact ⟨row, hrow⟩
  have hgrown : Inv { db with nodeGroups } := inv_nodeGroups hI hfound
  cases hids : payload.bindingIds with
  | none => exact hgrown
  | some bindingIds =>
    have hnew : NewBindingLinks db bindingIds := by simpa [fresh, hids] using hfresh
    exact inv_syncGroupBindings hgrown hnew (hfound id row hrow)

theorem inv_deleteGroup {id : Uuid} (hI : Inv db) (hspares : Spares db (.deleteGroup id))
    (h : deleteGroup id db = .ok db') : Inv db' := by
  obtain ⟨nodeGroups, hgroups, rfl⟩ := deleteGroup_ok h
  refine ⟨fun c hc b hb g hgc hgb => ?_, hI.preset⟩
  obtain ⟨row, hrow⟩ := hI.exist c hc b hb g hgc hgb
  have hne : g ≠ id := fun hg => hspares c hc b hb (hg ▸ hgc) (hg ▸ hgb)
  have hkept : ∀ r, db.nodeGroups.find g = some r → decide (r.id = id) = false := by
    intro r hr
    have hkey : r.id = g := Table.key_of_find hr
    rw [hkey, decide_eq_false hne]
  exact ⟨row, by rw [hgroups, Table.find_deleteWhere_of_not hkept, hrow]⟩

theorem inv_createClient {now : DateTime} {id userId : Uuid} {payload : CreateClientPayload}
    (hI : Inv db) (hfresh : fresh db (.createClient now id userId payload) = true)
    (hspares : Spares db (.createClient now id userId payload))
    (h : createClient now id userId payload db = .ok db') : Inv db' := by
  simp only [fresh, decide_eq_true_eq] at hfresh
  obtain ⟨hnew, hnone, hunused⟩ := hfresh
  rw [createClient] at h
  split at h
  · cases h
  · rename_i hname
    split at h
    · cases h
    · rename_i clients hinsert
      cases h
      have hrows := Table.rows_of_insert hinsert
      have hgrown : Inv { db with clients } := by
        constructor
        · intro c hc b hb g hgc hgb
          change c ∈ clients.rows at hc
          rw [hrows, List.mem_append, List.mem_singleton] at hc
          rcases hc with hc | rfl
          · exact hI.exist c hc b hb g hgc hgb
          · change g ∈ clientGroupIds db id at hgc
            rw [hnone] at hgc
            cases hgc
        · intro b hb c hc
          change c ∈ clients.rows at hc
          rw [hrows, List.mem_append, List.mem_singleton] at hc
          rcases hc with hc | rfl
          · exact hI.preset b hb c hc
          · exact hunused b hb
      cases hids : payload.groupIds with
      | none => exact hgrown
      | some groupIds =>
        rw [hids] at hnew
        refine inv_syncClientGroups hgrown hnew fun _ g hg => ?_
        exact hspares hname g (by rw [hids]; exact hg)

theorem inv_updateClient {now : DateTime} {id : Uuid} {payload : UpdateClientPayload}
    (hI : Inv db) (hfresh : fresh db (.updateClient now id payload) = true)
    (hspares : Spares db (.updateClient now id payload))
    (h : updateClient now id payload db = .ok db') : Inv db' := by
  rw [updateClient] at h
  split at h
  · cases h
  · rename_i c hc
    split at h
    · cases h
    · rename_i hname
      cases h
      have hgrown : Inv { db with clients := db.clients.update id (payload.apply now) } :=
        inv_clients hI (exists_of_mem_update fun _ => rfl)
      cases hids : payload.groupIds with
      | none => exact hgrown
      | some groupIds =>
        have hnew : NewClientLinks db groupIds := by simpa [fresh, hids] using hfresh
        have hnamed : ∀ name, payload.name = some name → Text.trim name ≠ "" := by
          intro name hsome
          simpa [hsome] using hname
        refine inv_syncClientGroups hgrown hnew fun _ g hg => ?_
        exact hspares ⟨c, hc⟩ hnamed g (by rw [hids]; exact hg)

theorem inv_deleteClient {id : Uuid} (hI : Inv db) (h : deleteClient id db = .ok db') :
    Inv db' := by
  rw [deleteClient] at h
  split at h
  · cases h
  · cases h
    exact inv_clients hI fun c hc => ⟨c, (Table.mem_deleteWhere.mp hc).1, rfl⟩

theorem inv_resetClientTraffic {now : DateTime} {id : Uuid} (hI : Inv db)
    (h : resetClientTraffic now id db = .ok db') : Inv db' := by
  rw [resetClientTraffic] at h
  split at h
  · cases h
  · cases h
    exact inv_clients hI (exists_of_mem_update fun _ => rfl)

theorem inv_createBinding {id : Uuid} {payload : CreateBindingPayload} (hI : Inv db)
    (hfresh : fresh db (.createBinding id payload) = true)
    (hspares : Spares db (.createBinding id payload))
    (h : createBinding id payload db = .ok () db') : Inv db' := by
  obtain ⟨-, nodeBindings, hinsert, rfl⟩ := createBinding_ok h
  have hnone : bindingGroupIds db id = [] := of_decide_eq_true hfresh
  have hrows := Table.rows_of_insert hinsert
  constructor
  · intro c hc b hb g hgc hgb
    change b ∈ nodeBindings.rows at hb
    rw [hrows, List.mem_append, List.mem_singleton] at hb
    rcases hb with hb | rfl
    · exact hI.exist c hc b hb g hgc hgb
    · change g ∈ bindingGroupIds db id at hgb
      rw [hnone] at hgb
      cases hgb
  · intro b hb
    change b ∈ nodeBindings.rows at hb
    rw [hrows, List.mem_append, List.mem_singleton] at hb
    rcases hb with hb | rfl
    · exact hI.preset b hb
    · exact hspares

theorem inv_updateBinding {id : Uuid} {payload : UpdateBindingPayload} (hI : Inv db)
    (hspares : Spares db (.updateBinding id payload))
    (h : updateBinding id payload db = .ok () db') : Inv db' := by
  obtain ⟨binding, hbinding, rfl⟩ := updateBinding_ok h
  constructor
  · intro c hc b hb g hgc hgb
    obtain ⟨b₀, hb₀, rfl⟩ := List.mem_map.mp hb
    refine hI.exist c hc b₀ hb₀ g hgc ?_
    split at hgb <;> exact hgb
  · refine Table.forall_mem_update hI.preset fun b₀ hb₀ hkey _ => ?_
    exact hspares b₀ (Table.find_eq_some_iff.mpr ⟨hb₀, hkey⟩)

theorem inv_rowsAfter_deleteBinding {id : Uuid} (hI : Inv db) :
    Inv (rowsAfter (deleteBinding id) db) := by
  rw [rowsAfter]
  split
  · rename_i db' hok
    obtain ⟨-, -, rfl⟩ := deleteBinding_ok hok
    exact inv_of_subset hI (fun c hc => ⟨c, hc, rfl⟩)
      (fun _ h => (Table.mem_deleteWhere.mp h).1) (fun _ h => h)
      (fun _ h => (Table.mem_deleteWhere.mp h).1) (fun _ row h => ⟨row, h⟩) rfl
  · rename_i e db' herror
    obtain ⟨-, rfl⟩ := deleteBinding_error herror
    exact inv_of_subset hI (fun c hc => ⟨c, hc, rfl⟩) (fun _ h => h) (fun _ h => h)
      (fun _ h => (Table.mem_deleteWhere.mp h).1) (fun _ row h => ⟨row, h⟩) rfl

/-- Subscriptions and templates do not matter. -/
theorem inv_subscriptions (hI : Inv db) (subscriptions : Table Subscription)
    (subscriptionTemplates : Table SubscriptionTemplate) :
    Inv { db with subscriptions, subscriptionTemplates } := ⟨hI.exist, hI.preset⟩

theorem inv_createSubscription {id : Uuid} {token : String} {payload : CreateSubscriptionPayload}
    (hI : Inv db) (hfresh : fresh db (.createSubscription id token payload) = true)
    (hspares : Spares db (.createSubscription id token payload))
    (h : createSubscription id token payload db = .ok db') : Inv db' := by
  rw [createSubscription] at h
  simp only at h
  split at h
  · cases h
  · have hgrouped : Inv (if payload.groupIds.getD [] = [] then db
        else syncClientGroups db payload.clientId (payload.groupIds.getD [])) := by
      split
      · exact hI
      · exact inv_syncClientGroups hI (of_decide_eq_true hfresh) hspares
    generalize (if payload.groupIds.getD [] = [] then db
        else syncClientGroups db payload.clientId (payload.groupIds.getD [])) = grouped
      at h hgrouped
    split at h
    · rename_i db₁ hensure
      cases h
      rw [ensureDefaultSubscription] at hensure
      split at hensure
      · cases hensure
        exact hgrouped
      · obtain ⟨subscriptions, -, rfl⟩ := Option.map_eq_some_iff.mp hensure
        exact inv_subscriptions hgrouped subscriptions _
    · cases h

theorem inv_updateSubscription {id : Uuid} {payload : UpdateSubscriptionPayload} (hI : Inv db)
    (h : updateSubscription id payload db = .ok db') : Inv db' := by
  rw [updateSubscription] at h
  split at h
  · cases h
  · cases h
    exact inv_subscriptions hI _ _

theorem inv_deleteSubscription {id : Uuid} (hI : Inv db)
    (h : deleteSubscription id db = .ok db') : Inv db' := by
  rw [deleteSubscription] at h
  split at h
  · cases h
  · cases h
    exact inv_subscriptions hI _ _

/-- A request that writes all its rows or none. -/
theorem inv_getD {r : ApiResult Db} (hI : Inv db) (h : ∀ db', r = .ok db' → Inv db') :
    Inv (r.toOption.getD db) := by
  cases r with
  | ok db' => exact h db' rfl
  | error e => exact hI

/-- **Every request that spares the groups keeps the invariant.** -/
theorem inv_step {request : Request} (hI : Inv db) (hspares : Spares db request)
    (h : step db request = some db') : Inv db' := by
  rw [step] at h
  split at h
  next hfresh =>
    cases h
    cases request with
    | createGroup now id payload => exact inv_getD hI fun _ h => inv_createGroup hI hfresh h
    | updateGroup now id payload => exact inv_getD hI fun _ h => inv_updateGroup hI hfresh h
    | deleteGroup id => exact inv_getD hI fun _ h => inv_deleteGroup hI hspares h
    | createClient now id userId payload =>
      exact inv_getD hI fun _ h => inv_createClient hI hfresh hspares h
    | updateClient now id payload =>
      exact inv_getD hI fun _ h => inv_updateClient hI hfresh hspares h
    | deleteClient id => exact inv_getD hI fun _ h => inv_deleteClient hI h
    | resetClientTraffic now id => exact inv_getD hI fun _ h => inv_resetClientTraffic hI h
    | createBinding id payload =>
      rw [handle, rowsAfter]
      split
      · rename_i db' hok
        exact inv_createBinding hI hfresh hspares hok
      · rename_i e db' herror
        rwa [createBinding_error herror]
    | updateBinding id payload =>
      rw [handle, rowsAfter]
      split
      · rename_i db' hok
        exact inv_updateBinding hI hspares hok
      · rename_i e db' herror
        rwa [updateBinding_error herror]
    | deleteBinding id => exact inv_rowsAfter_deleteBinding hI
    | createSubscription id token payload =>
      exact inv_getD hI fun _ h => inv_createSubscription hI hfresh hspares h
    | updateSubscription id payload => exact inv_getD hI fun _ h => inv_updateSubscription hI h
    | deleteSubscription id => exact inv_getD hI fun _ h => inv_deleteSubscription hI h
    | templates rows => exact inv_subscriptions hI _ rows
  next => cases h

end Kept

/-! ### Access in a state -/

/-- What lets a client into a binding in a state of the invariant is a group they share. -/
theorem sharesGroup_of_accepted {gen : GenEnv} {db : Db} {client : Client} {binding : NodeBinding}
    (hI : Inv db) (hclient : client ∈ db.clients.rows) (hbinding : binding ∈ db.nodeBindings.rows)
    (h : Accepted gen db client binding) : SharesGroup db client.id binding.id := by
  obtain ⟨core, out, inbound, -, -, hinbound, -, hcred⟩ := h
  obtain ⟨config, protocol, tls, hconfig, hcore, hprotocol, -, hbuild⟩ :=
    inboundFor_eq_some hinbound
  rw [mem_credentials_inboundFor hclient hprotocol hbuild] at hcred
  by_cases hmembers : groupMembers db binding.id = []
  · -- the users of the settings are left in place, and no client is among them
    rw [if_pos hmembers] at hcred
    refine absurd ?_ (hI.preset binding hbinding client hclient)
    rw [presetUsers, hconfig]
    simp only [hprotocol, hcore]
    exact hcred
  · rw [if_neg hmembers] at hcred
    exact (mem_authorizedClients.mp (acceptedClients_subset _ _ _ _ hcred.2)).2.1

theorem sharesGroup_of_listed {substitute : Substitution} {db : Db} {client : Client}
    {filterRules : Option Json} {binding : NodeBinding}
    (h : (listed substitute db client filterRules binding).isSome) :
    SharesGroup db client.id binding.id := by
  rw [listed] at h
  split at h
  · cases h
  · obtain ⟨o, ho, hiff⟩ := exec_proxyNode substitute client (filterNames filterRules "protocols")
      (allowedGroups db filterRules) binding db
    rw [ho] at h
    exact (hiff.mp h).2.2.1

theorem onlyThroughGroups_of_inv (gen : GenEnv) (substitute : Substitution) {db : Db}
    (hI : Inv db) : OnlyThroughGroups gen substitute db := by
  intro client hclient binding hbinding haccess
  have hshares : SharesGroup db client.id binding.id := by
    rcases haccess with haccepted | ⟨filterRules, hlisted⟩
    · exact sharesGroup_of_accepted hI hclient hbinding haccepted
    · exact sharesGroup_of_listed hlisted
  obtain ⟨g, hgb, hgc⟩ := hshares
  obtain ⟨row, hrow⟩ := hI.exist client hclient binding hbinding g hgc hgb
  have hkey : row.id = g := Table.key_of_find hrow
  exact ⟨row, Table.mem_of_find hrow, hkey ▸ hgc, hkey ▸ hgb⟩

/-- **Every run that spares the groups**, from tables that hold no client. -/
theorem onlyThroughGroups_of_spares (gen : GenEnv) (substitute : Substitution) {db db' : Db}
    {requests : List Request} (hstart : db.clients.rows = [])
    (hspares : Run.Guarded step Spares db requests) (hrun : Run.run step db requests = some db') :
    OnlyThroughGroups gen substitute db' := by
  have hinv : Inv db := by
    constructor
    · intro c hc
      rw [hstart] at hc
      cases hc
    · intro b _ c hc
      rw [hstart] at hc
      cases hc
  exact onlyThroughGroups_of_inv gen substitute
    (Run.inv_of_guarded (fun _ _ _ hI hok h => inv_step hI hok h) hinv hspares hrun)

/-! ### A deleted group -/

namespace DeletedGroup

def config : ProtocolConfig := PresetUser.config

/-- A node and a config. -/
def start : Db where
  nodes := .single OnHold.node
  protocolConfigs := .single config

def group : Uuid := .ofNat 60
def binding : Uuid := .ofNat 61
def client : Uuid := .ofNat 62

/-- A binding, a group that has it and a client of the group. -/
def setUp : List Request := [
  .createBinding binding ⟨OnHold.node.id, config.id, none, none⟩,
  .createGroup default group ⟨"eu", none, none, some [(binding, .ofNat 63)]⟩,
  .createClient default client (.ofNat 64)
    ⟨"alice", none, none, none, none, none, none, none, some [(group, .ofNat 65)], none, none⟩]

/-- The tables after a list of requests. -/
def after (requests : List Request) : Db := (Run.run step start requests).getD start

theorem run_deleted : Run.run step start (setUp ++ [.deleteGroup group]) =
    some (after (setUp ++ [.deleteGroup group])) := by
  have hsome : (Run.run step start (setUp ++ [.deleteGroup group])).isSome = true := by
    decide
  obtain ⟨db, hdb⟩ := Option.isSome_iff_exists.mp hsome
  rw [after, hdb, Option.getD_some]

end DeletedGroup

open DeletedGroup in
/-- The client of a group that is deleted keeps its place in the inbound. -/
theorem deleted_group_grants : ∃ db, Run.run step start (setUp ++ [.deleteGroup group]) = some db ∧
    ¬ OnlyThroughGroups PresetUser.gen OnHold.substitute db := by
  refine ⟨_, run_deleted, fun honly => ?_⟩
  have hgone : (after (setUp ++ [.deleteGroup group])).nodeGroups.rows.length = 0 := by
    decide
  have hlisted : ((after (setUp ++ [.deleteGroup group])).clients.rows.any fun c =>
      (after (setUp ++ [.deleteGroup group])).nodeBindings.rows.any fun b =>
        (listed OnHold.substitute (after (setUp ++ [.deleteGroup group])) c none b).isSome) = true := by
    decide
  obtain ⟨c, hc, h⟩ := List.any_eq_true.mp hlisted
  obtain ⟨b, hb, hsome⟩ := List.any_eq_true.mp h
  obtain ⟨g, hg, -⟩ := honly c hc b hb (Or.inr ⟨none, hsome⟩)
  rw [List.length_eq_zero_iff.mp hgone] at hg
  cases hg

namespace DeletedGroup

/-- Enough of `Spares` for the requests here. -/
def spared (db : Db) : Request → Bool
  | .createBinding _ _ => db.clients.rows.isEmpty
  | .createGroup _ _ _ => true
  | .createClient _ _ _ payload =>
    ((payload.groupIds.getD []).map Prod.fst).all fun g => (db.nodeGroups.find g).isSome
  | .deleteClient _ => true
  | .deleteGroup _ => db.clients.rows.isEmpty
  | _ => false

theorem spares_of_spared (db : Db) (request : Request) (h : spared db request = true) :
    Spares db request := by
  cases request with
  | createBinding id payload =>
    intro c hc
    rw [List.isEmpty_iff.mp h] at hc
    cases hc
  | createClient now id userId payload =>
    intro _ g hg
    exact Or.inl (Option.isSome_iff_exists.mp (List.all_eq_true.mp h g hg))
  | deleteGroup id =>
    intro c hc
    rw [List.isEmpty_iff.mp h] at hc
    cases hc
  | createGroup now id payload => trivial
  | deleteClient id => trivial
  | _ => exact absurd h Bool.false_ne_true

end DeletedGroup

open DeletedGroup in
/-- The group is deleted after its client. -/
theorem onlyThroughGroups_of_spares_emptied : ∃ db,
    Run.run step start (setUp ++ [.deleteClient client, .deleteGroup group]) = some db ∧
      OnlyThroughGroups PresetUser.gen OnHold.substitute db := by
  have hchecked : Run.checked step spared start
      (setUp ++ [.deleteClient client, .deleteGroup group]) = true := by decide
  obtain ⟨hspares, db, hrun⟩ := Run.guarded_of_checked (I := fun _ => True)
    (fun db request _ h => spares_of_spared db request h) (fun _ _ _ _ _ _ => trivial) trivial
    hchecked
  exact ⟨db, hrun, onlyThroughGroups_of_spares PresetUser.gen OnHold.substitute rfl hspares hrun⟩

end GroupAccess

end ProxyPanel.Hub
