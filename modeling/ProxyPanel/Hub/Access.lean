import Mathlib.Data.List.Perm.Subperm
import ProxyPanel.Hub.ConfigGen

/-!
# Who may use a binding

The purpose of client injection, stated on its own: a client is authorized for a
binding when it is active and shares a group with it.  The injected `clients`
array is compared with that set; `credentials_inboundFor` gives the credentials
of an emitted inbound in terms of the database, for both builders.
-/

namespace ProxyPanel.Hub

open Json Builder Query

/-! ### Groups and authorization -/

/-- The groups a binding is linked to. -/
def bindingGroupIds (db : Db) (bindingId : Uuid) : List Uuid :=
  (db.nodeBindingGroupBindings.filter (·.nodeBindingId = bindingId)).map (·.groupId)

/-- The groups a client belongs to. -/
def clientGroupIds (db : Db) (clientId : Uuid) : List Uuid :=
  (db.clientGroupBindings.filter (·.clientId = clientId)).map (·.groupId)

def SharesGroup (db : Db) (clientId bindingId : Uuid) : Prop :=
  ∃ g ∈ bindingGroupIds db bindingId, g ∈ clientGroupIds db clientId

/-- The identifiers that are linked to a group of the binding. -/
def groupMembers (db : Db) (bindingId : Uuid) : List Uuid :=
  (db.clientGroupBindings.filter (·.groupId ∈ bindingGroupIds db bindingId)).map (·.clientId)

/-- The clients a binding is for, in the order of the table. -/
def authorizedClients (db : Db) (bindingId : Uuid) : List Client :=
  db.clients.filter fun c => c.id ∈ groupMembers db bindingId ∧ c.status = "active"

theorem mem_groupMembers {db : Db} {clientId bindingId : Uuid} :
    clientId ∈ groupMembers db bindingId ↔ SharesGroup db clientId bindingId := by
  simp only [groupMembers, SharesGroup, clientGroupIds, List.mem_map, Table.mem_filter,
    decide_eq_true_eq]
  constructor
  · rintro ⟨link, ⟨hlink, hgroup⟩, rfl⟩
    exact ⟨link.groupId, hgroup, link, ⟨hlink, rfl⟩, rfl⟩
  · rintro ⟨_, hgroup, link, ⟨hlink, rfl⟩, rfl⟩
    exact ⟨link, ⟨hlink, hgroup⟩, rfl⟩

theorem mem_authorizedClients {db : Db} {bindingId : Uuid} {c : Client} :
    c ∈ authorizedClients db bindingId ↔
      c ∈ db.clients.rows ∧ SharesGroup db c.id bindingId ∧ c.status = "active" := by
  simp [authorizedClients, mem_groupMembers]

/-- Clients are told apart by their identifiers. -/
theorem nodup_authorizedClients (db : Db) (bindingId : Uuid) :
    ((authorizedClients db bindingId).map (·.id)).Nodup :=
  db.clients.nodup.sublist (List.filter_sublist.map HasKey.key)

theorem eq_of_id_eq {db : Db} {c d : Client} (hc : c ∈ db.clients.rows) (hd : d ∈ db.clients.rows)
    (h : c.id = d.id) : c = d := Table.eq_of_key_eq hc hd h

/-! ### Injection -/

/-- The settings after injection. -/
def injected (db : Db) (binding : NodeBinding) (protocolType : String) (settings : Json) : Json :=
  if groupMembers db binding.id = [] then settings
  else settings.set "clients"
    (arr ((authorizedClients db binding.id).map (clientToProtocolEntry · protocolType)))

theorem exec_injectBindingClients (db : Db) (binding : NodeBinding) (protocolType : String)
    (settings : Json) : (injectBindingClients binding protocolType settings).exec db =
      .ok (injected db binding protocolType settings) := by
  rw [injectBindingClients, exec_read_bind, injected]
  change (if bindingGroupIds db binding.id = [] then _ else _ : Program Json).exec db = _
  by_cases hgroups : bindingGroupIds db binding.id = []
  · have hmembers : groupMembers db binding.id = [] := by
      simp [groupMembers, hgroups, Table.filter]
    rw [if_pos hgroups, if_pos hmembers]
    rfl
  · rw [if_neg hgroups, exec_read_bind]
    change (if groupMembers db binding.id = [] then _ else _ : Program Json).exec db = _
    by_cases hmembers : groupMembers db binding.id = []
    · rw [if_pos hmembers, if_pos hmembers]
      rfl
    · rw [if_neg hmembers, if_neg hmembers]
      rfl

/-- What an emitted inbound of a binding was built from. -/
theorem inboundFor_eq_some {db : Db} {nodeId : Uuid} {core : CoreType} {binding : NodeBinding}
    {inbound : Json} (h : inboundFor db nodeId core binding = some inbound) :
    ∃ config protocol tls, db.protocolConfigs.find binding.protocolConfigId = some config ∧
      parseCoreType config.coreType = core ∧
      ProtocolType.fromStr? config.protocolType = some protocol ∧
      (resolveManagedCertTls nodeId (SettingsHelper.mergeTlsSettings config.tlsSettings
        (overrideTls binding))).exec db = .ok tls ∧
      buildInbound core protocol (withListen config
        (injected db binding config.protocolType (mergedSettings config binding))) tls
        = .ok inbound := by
  rw [inboundFor] at h
  split at h
  · rename_i ib hib
    rw [bindingInbound, exec_read_bind] at hib
    cases hconfig : db.protocolConfigs.find binding.protocolConfigId with
    | none => rw [hconfig] at hib; cases hib
    | some config =>
      rw [hconfig] at hib
      by_cases hcore : parseCoreType config.coreType = core
      · simp only [hcore, ne_eq, not_true_eq_false, if_false] at hib
        rw [exec_bind, exec_lift] at hib
        obtain ⟨protocol, hprotocol, hib⟩ := Except.bind_eq_ok hib
        rw [exec_bind, exec_injectBindingClients] at hib
        obtain ⟨settings, hsettings, hib⟩ := Except.bind_eq_ok hib
        rw [exec_bind] at hib
        obtain ⟨tls, htls, hib⟩ := Except.bind_eq_ok hib
        cases hsettings
        cases hib
        refine ⟨config, protocol, tls, rfl, hcore, parseProtocolType_eq_ok.mp hprotocol, htls, ?_⟩
        simp only at h
        cases hbuild : buildInbound core protocol (withListen config
            (injected db binding config.protocolType (mergedSettings config binding))) tls with
        | ok inbound' => rw [hbuild] at h; simpa [Except.toOption] using h
        | error e => rw [hbuild] at h; cases h
      · simp only [hcore, ne_eq, not_false_eq_true, if_true] at hib
        cases hib
  · cases h

/-! ### Credentials of an emitted inbound -/

/-- Where the builder of a core looks for the UUID of a client. -/
def uuidKeys : CoreType → List String
  | .singBox => ["id"]
  | .mihomo => ["id", "uuid"]

/-- The passwords the builder of a core takes from the settings. -/
def builtPasswords (core : CoreType) (settings : Json) : List String :=
  match core with
  | .singBox => settingsCredentials ["password"] "password" settings
  | .mihomo => (Mihomo.passwordUsers settings).filterMap (fun e => e.2.asStr)

/-- The credentials the builder of a core takes from the settings. -/
def builtCredentials (core : CoreType) (protocol : ProtocolType) (settings : Json) : List String :=
  if protocol.isVless then settingsCredentials (uuidKeys core) "uuid" settings
  else builtPasswords core settings

theorem credentials_buildInbound {core : CoreType} {protocol : ProtocolType} {settings : Json}
    {tls : Option Json} {inbound : Json} (h : buildInbound core protocol settings tls = .ok inbound) :
    credentials inbound = builtCredentials core protocol settings := by
  cases core with
  | singBox => exact SingBox.credentials_buildInbound h
  | mihomo => exact Mihomo.credentials_buildInbound h

/-- Only `clients` and the placeholders count. -/
theorem builtCredentials_congr (core : CoreType) (protocol : ProtocolType) {s t : Json}
    (h : ∀ k ∈ ["clients", "uuid", "password"], s.get k = t.get k) :
    builtCredentials core protocol s = builtCredentials core protocol t := by
  have hclients := h "clients" (by decide)
  have huuid := h "uuid" (by decide)
  have hpassword := h "password" (by decide)
  rw [builtCredentials, builtCredentials]
  split
  · exact settingsCredentials_congr hclients huuid
  · cases core with
    | singBox => exact settingsCredentials_congr hclients hpassword
    | mihomo =>
      rw [builtPasswords, builtPasswords, Mihomo.passwordUsers, Mihomo.passwordUsers, getArr, getArr,
        getStrAny_singleton, getStrAny_singleton, getStr, getStr, hclients, hpassword]

theorem builtCredentials_withListen (core : CoreType) (protocol : ProtocolType)
    (config : ProtocolConfig) (settings : Json) :
    builtCredentials core protocol (withListen config settings)
      = builtCredentials core protocol settings := by
  refine builtCredentials_congr core protocol (fun k hk => ?_)
  simp only [List.mem_cons, List.not_mem_nil, or_false] at hk
  rcases hk with rfl | rfl | rfl <;>
    rw [withListen, get_set_of_ne _ (by decide), get_set_of_ne _ (by decide),
      get_set_of_ne _ (by decide)]

/-- The settings hold no user of their own. -/
def NoPresetUsers (core : CoreType) (protocol : ProtocolType) (settings : Json) : Prop :=
  match settings.getArr "clients" with
  | some clients =>
    if core = .mihomo ∧ protocol.isVless = false then
      ∀ c ∈ clients, (c.getStr "password").getD "" = ""
    else clients = []
  | none => (settings.getStr (if protocol.isVless then "uuid" else "password")).getD "" = ""

theorem builtCredentials_eq_nil_iff (core : CoreType) (protocol : ProtocolType) (settings : Json) :
    builtCredentials core protocol settings = [] ↔ NoPresetUsers core protocol settings := by
  rw [builtCredentials, NoPresetUsers]
  cases hclients : settings.getArr "clients" with
  | some clients =>
    cases hvless : protocol.isVless with
    | true => simp [settingsCredentials_eq_nil_iff, hclients]
    | false =>
      cases core with
      | singBox => simp [builtPasswords, settingsCredentials_eq_nil_iff, hclients]
      | mihomo => simpa [builtPasswords] using Mihomo.passwordUsers_eq_nil_iff hclients
  | none =>
    cases hvless : protocol.isVless with
    | true => simp [settingsCredentials_eq_nil_iff, hclients]
    | false =>
      cases core with
      | singBox => simp [builtPasswords, settingsCredentials_eq_nil_iff, hclients]
      | mihomo =>
        simp [builtPasswords, Mihomo.passwordUsers_of_not_array hclients,
          settingsCredentials_eq_nil_iff, hclients]

theorem noPresetUsers_of_not_isObject (core : CoreType) (protocol : ProtocolType) {settings : Json}
    (h : settings.isObject = false) : NoPresetUsers core protocol settings := by
  rw [NoPresetUsers, getArr, getStr, get_of_not_isObject h, get_of_not_isObject h]
  rfl

/-! ### Credentials after injection -/

/-- The name a client has in the user map of a password listener. -/
def clientName (c : Client) : String := c.email.getD c.id.toStr

/-- The keys of the clients of a binding in that map. -/
def clientKeys (db : Db) (bindingId : Uuid) : List String :=
  Mihomo.passwordKeys [] ((authorizedClients db bindingId).map clientName)

theorem getStr_clientToProtocolEntry_id {protocolType : String}
    (h : Text.startsWith protocolType "vless" = true) (c : Client) :
    (clientToProtocolEntry c protocolType).getStr "id" = some c.id.toStr := by
  have hbase : ∀ flow : String, (mkObj [("id", str c.id.toStr),
      ("email", str (c.email.getD c.id.toStr)), ("flow", str flow)]).getStr "id"
      = some c.id.toStr := fun flow => by rw [getStr, get_mkObj]; rfl
  simp only [clientToProtocolEntry, h, if_true]
  split
  · split
    · rw [getStr_set_of_ne _ (by decide), hbase]
    · exact hbase _
  · exact hbase _

theorem clientToProtocolEntry_password {protocol : ProtocolType} (h : protocol.isVless = false)
    (c : Client) : clientToProtocolEntry c protocol.toStr =
      mkObj [("name", str (clientName c)), ("password", str c.id.toStr)] := by
  cases protocol with
  | vlessReality => cases h
  | vlessXhttp => cases h
  | hysteria2 => rfl
  | anytls => rfl

theorem startsWith_vless {protocol : ProtocolType} (h : protocol.isVless = true) :
    Text.startsWith protocol.toStr "vless" = true := by
  cases protocol with
  | vlessReality => decide
  | vlessXhttp => decide
  | hysteria2 => cases h
  | anytls => cases h

theorem namedPassword_clientToProtocolEntry {protocol : ProtocolType}
    (h : protocol.isVless = false) (c : Client) :
    Mihomo.namedPassword (clientToProtocolEntry c protocol.toStr)
      = some (clientName c, c.id.toStr) := by
  have hname : (mkObj [("name", str (clientName c)), ("password", str c.id.toStr)]).getStrAny
      ["name", "email"] = some (clientName c) := by
    rw [getStrAny, List.findSome?_cons, getStr, get_mkObj]
    rfl
  have hpassword : (mkObj [("name", str (clientName c)), ("password", str c.id.toStr)]).getStrAny
      ["password"] = some c.id.toStr := by
    rw [getStrAny_singleton, getStr, get_mkObj]
    rfl
  rw [clientToProtocolEntry_password h, Mihomo.namedPassword, hname, hpassword]
  simp [c.id.toStr_ne_empty]

/-- The clients of a binding under their keys in the user map. -/
def keyedClients (db : Db) (bindingId : Uuid) : List (String × Client) :=
  (clientKeys db bindingId).zip (authorizedClients db bindingId)

theorem map_snd_keyedClients (db : Db) (bindingId : Uuid) :
    (keyedClients db bindingId).map Prod.snd = authorizedClients db bindingId :=
  List.map_snd_zip (by simp [clientKeys, Mihomo.length_passwordKeys])

theorem map_fst_keyedClients (db : Db) (bindingId : Uuid) :
    (keyedClients db bindingId).map Prod.fst = clientKeys db bindingId :=
  List.map_fst_zip (by simp [clientKeys, Mihomo.length_passwordKeys])

/-- The keyed passwords of the injected entries are those of the clients. -/
theorem keyed_injected {protocol : ProtocolType} (h : protocol.isVless = false) (db : Db)
    (bindingId : Uuid) :
    Mihomo.keyed [] (((authorizedClients db bindingId).map
      (clientToProtocolEntry · protocol.toStr)).filterMap Mihomo.namedPassword)
      = (keyedClients db bindingId).map (Prod.map id (fun c => c.id.toStr)) := by
  have hnamed : ((authorizedClients db bindingId).map
      (clientToProtocolEntry · protocol.toStr)).filterMap Mihomo.namedPassword
      = ((authorizedClients db bindingId).map fun c => (clientName c, c)).map
        (Prod.map id (fun c => c.id.toStr)) := by
    rw [List.filterMap_map, List.map_map]
    simp only [Function.comp_def, namedPassword_clientToProtocolEntry h, List.filterMap_eq_map']
    rfl
  rw [hnamed, Mihomo.keyed_map]
  refine congrArg _ ?_
  rw [Mihomo.keyed, List.map_map, List.map_map, keyedClients, clientKeys]
  simp [Function.comp_def]

/-- The clients that keep their place in the user map. -/
def keptClients (db : Db) (bindingId : Uuid) : List Client :=
  (lastEntries (keyedClients db bindingId)).map Prod.snd

/-- The clients whose credential an inbound accepts after injection. -/
def acceptedClients (core : CoreType) (protocol : ProtocolType) (db : Db) (bindingId : Uuid) :
    List Client :=
  if core = .mihomo ∧ protocol.isVless = false then keptClients db bindingId
  else authorizedClients db bindingId

theorem getArr_clients_of_injected {db : Db} {binding : NodeBinding} {settings : Json}
    (hmembers : groupMembers db binding.id ≠ []) (hobj : settings.isObject = true)
    (protocolType : String) :
    (injected db binding protocolType settings).getArr "clients" =
      some ((authorizedClients db binding.id).map (clientToProtocolEntry · protocolType)) := by
  rw [injected, if_neg hmembers, getArr, get_set_self hobj]
  rfl

/-- An array of users has the clients in their order. -/
theorem builtCredentials_injected {core : CoreType} {protocol : ProtocolType}
    (harray : ¬ (core = .mihomo ∧ protocol.isVless = false)) {db : Db} {binding : NodeBinding}
    {settings : Json} (hmembers : groupMembers db binding.id ≠ [])
    (hobj : settings.isObject = true) :
    builtCredentials core protocol (injected db binding protocol.toStr settings) =
      (authorizedClients db binding.id).map (·.id.toStr) := by
  have hclients := getArr_clients_of_injected hmembers hobj protocol.toStr
  rw [builtCredentials]
  cases hvless : protocol.isVless with
  | true =>
    have hid : ∀ c, ((clientToProtocolEntry c protocol.toStr).getStrAny (uuidKeys core)).getD ""
        = c.id.toStr := by
      intro c
      have h := getStr_clientToProtocolEntry_id (startsWith_vless hvless) c
      cases core <;> simp [uuidKeys, getStrAny, h]
    rw [if_pos rfl, settingsCredentials, hclients]
    simp only [List.map_map, Function.comp_def, hid]
  | false =>
    cases core with
    | singBox =>
      have hpassword : ∀ c, ((clientToProtocolEntry c protocol.toStr).getStrAny ["password"]).getD ""
          = c.id.toStr := by
        intro c
        rw [clientToProtocolEntry_password hvless, getStrAny_singleton, getStr, get_mkObj]
        rfl
      rw [if_neg Bool.false_ne_true, builtPasswords, settingsCredentials, hclients]
      simp only [List.map_map, Function.comp_def, hpassword]
    | mihomo => exact absurd ⟨rfl, hvless⟩ harray

/-- **Credentials after injection** into settings that are an object. -/
theorem mem_builtCredentials_injected {core : CoreType} {protocol : ProtocolType} {db : Db}
    {binding : NodeBinding} {settings : Json} (hmembers : groupMembers db binding.id ≠ [])
    (hobj : settings.isObject = true) {s : String} :
    s ∈ builtCredentials core protocol (injected db binding protocol.toStr settings) ↔
      ∃ c ∈ acceptedClients core protocol db binding.id, c.id.toStr = s := by
  rw [acceptedClients]
  by_cases hmap : core = .mihomo ∧ protocol.isVless = false
  · obtain ⟨rfl, hvless⟩ := hmap
    have hclients := getArr_clients_of_injected hmembers hobj protocol.toStr
    rw [if_pos ⟨rfl, hvless⟩, builtCredentials, hvless, if_neg Bool.false_ne_true, builtPasswords,
      Mihomo.mem_passwordUsers hclients, keyed_injected hvless, lastEntries_map, keptClients]
    simp only [List.map_map, List.mem_map, exists_exists_and_eq_and]
    rfl
  · rw [if_neg hmap, builtCredentials_injected hmap hmembers hobj, List.mem_map]

/-! ### The users of an inbound -/

/-- The inbound accepts exactly the authorized clients of the binding. -/
def UsersExact (db : Db) (binding : NodeBinding) (inbound : Json) : Prop :=
  ∀ s, s ∈ credentials inbound ↔ ∃ c ∈ db.clients.rows,
    c.status = "active" ∧ SharesGroup db c.id binding.id ∧ c.id.toStr = s

/-- Injection replaces the users of the settings, or there are none to replace;
and no two clients share a key of a user map. -/
def InjectionReaches (db : Db) (core : CoreType) (binding : NodeBinding) : Prop :=
  ∀ config protocol, db.protocolConfigs.find binding.protocolConfigId = some config →
    ProtocolType.fromStr? config.protocolType = some protocol →
    if groupMembers db binding.id = [] then
      NoPresetUsers core protocol (mergedSettings config binding)
    else if (mergedSettings config binding).isObject then
      core = .mihomo → protocol.isVless = false → (clientKeys db binding.id).Nodup
    else authorizedClients db binding.id = []

theorem usersExact_iff_authorized {db : Db} {binding : NodeBinding} {inbound : Json} :
    UsersExact db binding inbound ↔ ∀ s, s ∈ credentials inbound ↔
      ∃ c ∈ authorizedClients db binding.id, c.id.toStr = s := by
  refine forall_congr' fun s => iff_congr Iff.rfl (exists_congr fun c => ?_)
  rw [mem_authorizedClients]
  constructor
  · rintro ⟨hc, hactive, hshares, hs⟩
    exact ⟨⟨hc, hshares, hactive⟩, hs⟩
  · rintro ⟨⟨hc, hshares, hactive⟩, hs⟩
    exact ⟨hc, hactive, hshares, hs⟩

/-- Two lists of clients of the table with the same credentials have the same
members. -/
theorem sameIds_iff_subset {db : Db} {bindingId : Uuid} {cs : List Client}
    (hsub : cs.Sublist (authorizedClients db bindingId)) :
    (∀ s, (∃ c ∈ cs, c.id.toStr = s) ↔ ∃ c ∈ authorizedClients db bindingId, c.id.toStr = s) ↔
      cs = authorizedClients db bindingId := by
  constructor
  · intro h
    have hnodup : (authorizedClients db bindingId).Nodup :=
      (nodup_authorizedClients db bindingId).of_map
    have hsubset : authorizedClients db bindingId ⊆ cs := by
      intro c hc
      obtain ⟨d, hd, hid⟩ := (h c.id.toStr).mpr ⟨c, hc, rfl⟩
      have hdc : d = c := eq_of_id_eq (mem_authorizedClients.mp (hsub.subset hd)).1
        (mem_authorizedClients.mp hc).1 (Uuid.toStr_injective hid)
      exact hdc ▸ hd
    exact hsub.eq_of_length_le (hnodup.subperm hsubset).length_le
  · rintro rfl s
    exact Iff.rfl

theorem keptClients_sublist (db : Db) (bindingId : Uuid) :
    (keptClients db bindingId).Sublist (authorizedClients db bindingId) := by
  have h := (lastEntries_sublist (keyedClients db bindingId)).map Prod.snd
  rwa [map_snd_keyedClients] at h

theorem keptClients_eq_iff {db : Db} {bindingId : Uuid} :
    keptClients db bindingId = authorizedClients db bindingId ↔ (clientKeys db bindingId).Nodup := by
  rw [← map_fst_keyedClients, ← lastEntries_eq_self_iff]
  constructor
  · intro h
    have hlen := congrArg List.length h
    rw [keptClients, List.length_map, ← map_snd_keyedClients, List.length_map] at hlen
    exact (lastEntries_sublist _).eq_of_length hlen
  · intro h
    rw [keptClients, h, map_snd_keyedClients]

/-- **Authorized users exactly.**  The emitted inbounds are those of the bindings,
and each accepts exactly the authorized clients if and only if injection reaches
it. -/
theorem usersExact_iff_injectionReaches {gen : GenEnv} {nodeId : Uuid} {core : CoreType} {db : Db}
    {out : Json × Option String} (h : (generateNodeConfig gen nodeId core).exec db = .ok out) :
    emitted core out.1 = (activeBindings db nodeId).filterMap (inboundFor db nodeId core) ∧
      ∀ binding ∈ activeBindings db nodeId, ∀ inbound,
        inboundFor db nodeId core binding = some inbound →
          (UsersExact db binding inbound ↔ InjectionReaches db core binding) := by
  refine ⟨emitted_generateNodeConfig h, fun binding _ inbound hinbound => ?_⟩
  obtain ⟨config, protocol, tls, hconfig, -, hprotocol, -, hbuild⟩ := inboundFor_eq_some hinbound
  have hcred : credentials inbound = builtCredentials core protocol
      (injected db binding protocol.toStr (mergedSettings config binding)) := by
    rw [credentials_buildInbound hbuild, builtCredentials_withListen,
      ProtocolType.toStr_of_fromStr? hprotocol]
  have hreach : InjectionReaches db core binding ↔ (if groupMembers db binding.id = [] then
      NoPresetUsers core protocol (mergedSettings config binding)
    else if (mergedSettings config binding).isObject then
      core = .mihomo → protocol.isVless = false → (clientKeys db binding.id).Nodup
    else authorizedClients db binding.id = []) := by
    constructor
    · intro hr
      exact hr config protocol hconfig hprotocol
    · intro hr config' protocol' hconfig' hprotocol'
      rw [hconfig] at hconfig'
      cases hconfig'
      rw [hprotocol] at hprotocol'
      cases hprotocol'
      exact hr
  rw [usersExact_iff_authorized, hreach, hcred]
  by_cases hmembers : groupMembers db binding.id = []
  · -- nobody is authorized, and the settings are left as they are
    have hnone : authorizedClients db binding.id = [] := by
      simp [authorizedClients, hmembers, Table.filter]
    rw [if_pos hmembers, injected, if_pos hmembers, hnone, ← builtCredentials_eq_nil_iff,
      List.eq_nil_iff_forall_not_mem]
    simp
  · rw [if_neg hmembers]
    by_cases hobj : (mergedSettings config binding).isObject = true
    · rw [if_pos hobj]
      simp only [mem_builtCredentials_injected hmembers hobj]
      rw [acceptedClients]
      by_cases hmap : core = .mihomo ∧ protocol.isVless = false
      · rw [if_pos hmap, sameIds_iff_subset (keptClients_sublist db binding.id),
          keptClients_eq_iff]
        exact ⟨fun hnd _ _ => hnd, fun hnd => hnd hmap.1 hmap.2⟩
      · rw [if_neg hmap]
        exact iff_of_true (fun s => Iff.rfl) (fun hc hv => absurd ⟨hc, hv⟩ hmap)
    · -- nothing can be injected, and no user can be read
      have hnot : (mergedSettings config binding).isObject = false := by simpa using hobj
      have hnil : builtCredentials core protocol
          (injected db binding protocol.toStr (mergedSettings config binding)) = [] := by
        rw [injected, if_neg hmembers, set_of_not_isObject hnot, builtCredentials_eq_nil_iff]
        exact noPresetUsers_of_not_isObject core protocol hnot
      rw [if_neg hobj, hnil, List.eq_nil_iff_forall_not_mem]
      simp

/-! ### A binding without groups -/

namespace PresetUser

def node : Uuid := .ofNat 1

/-- A REALITY config with a UUID left in its settings. -/
def config : ProtocolConfig where
  id := .ofNat 2
  name := "reality"
  protocolType := "vless_reality"
  coreType := "mihomo"
  listenPort := 443
  listenAddress := "0.0.0.0"
  settings := mkObj [("reality_dest", str "example.com:443"), ("reality_private_key", str "key"),
    ("uuid", str "a4a4a4a4-a4a4-a4a4-a4a4-a4a4a4a4a4a4")]
  tlsSettings := none
  updatedAt := default

def binding : NodeBinding := ⟨.ofNat 3, node, config.id, none, true⟩

/-- One active binding, no groups and no clients. -/
def db : Db where
  protocolConfigs := .single config
  nodeBindings := .single binding

def gen : GenEnv := ⟨{}, fun _ => .ok ()⟩

theorem exists_generated : ∃ out, (generateNodeConfig gen node .mihomo).exec db = .ok out := by
  have hok : ((generateNodeConfig gen node .mihomo).exec db).toBool = true := by decide
  cases h : (generateNodeConfig gen node .mihomo).exec db with
  | ok out => exact ⟨out, rfl⟩
  | error e => rw [h] at hok; cases hok

end PresetUser

/-- The listener of a binding without groups accepts the UUID of the settings. -/
theorem preset_uuid_accepted : ∃ out inbound,
    (generateNodeConfig PresetUser.gen PresetUser.node .mihomo).exec PresetUser.db = .ok out ∧
      inbound ∈ emitted .mihomo out.1 ∧
      inboundFor PresetUser.db PresetUser.node .mihomo PresetUser.binding = some inbound ∧
      ¬ UsersExact PresetUser.db PresetUser.binding inbound := by
  obtain ⟨out, hout⟩ := PresetUser.exists_generated
  have hcred : (inboundFor PresetUser.db PresetUser.node .mihomo PresetUser.binding).map credentials
      = some ["a4a4a4a4-a4a4-a4a4-a4a4-a4a4a4a4a4a4"] := by decide
  obtain ⟨inbound, hinbound, hcred⟩ := Option.map_eq_some_iff.mp hcred
  refine ⟨out, inbound, hout, ?_, hinbound, fun hexact => ?_⟩
  · rw [emitted_generateNodeConfig hout, List.mem_filterMap]
    exact ⟨PresetUser.binding, by simp [activeBindings, PresetUser.db, PresetUser.binding], hinbound⟩
  · have hmem := (hexact "a4a4a4a4-a4a4-a4a4-a4a4-a4a4a4a4a4a4").mp (by rw [hcred]; simp)
    obtain ⟨c, hc, _⟩ := hmem
    exact absurd hc List.not_mem_nil

theorem usersExact_iff_injectionReaches_preset : ∃ out inbound,
    (generateNodeConfig PresetUser.gen PresetUser.node .mihomo).exec PresetUser.db = .ok out ∧
      inboundFor PresetUser.db PresetUser.node .mihomo PresetUser.binding = some inbound ∧
      (UsersExact PresetUser.db PresetUser.binding inbound ↔
        InjectionReaches PresetUser.db .mihomo PresetUser.binding) := by
  obtain ⟨out, hout⟩ := PresetUser.exists_generated
  have hsome : (inboundFor PresetUser.db PresetUser.node .mihomo PresetUser.binding).isSome = true := by
    decide
  obtain ⟨inbound, hinbound⟩ := Option.isSome_iff_exists.mp hsome
  refine ⟨out, inbound, hout, hinbound, ?_⟩
  exact (usersExact_iff_injectionReaches hout).2 PresetUser.binding
    (by simp [activeBindings, PresetUser.db, PresetUser.binding]) inbound hinbound

end ProxyPanel.Hub
