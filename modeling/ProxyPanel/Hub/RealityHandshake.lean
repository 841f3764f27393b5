import ProxyPanel.Hub.EffectiveSettings
import ProxyPanel.Hub.RelayCredentials
import ProxyPanel.Subscription.Fields

/-!
# The REALITY handshake

What a client of a REALITY inbound is given in a subscription or as a relay hop, and what the
inbound accepts.  Nine readings of the same loosely typed settings are involved; each is said
once (`handshake_emit`, `handshake_build`, `exists_user_iff`) and `handshakeAccepted_iff` says
for which settings they meet.
-/

namespace ProxyPanel.Hub.RealityHandshake

open Json Builder Query SettingsHelper Subscription EffectiveSettings

/-- The parameters a client uses. -/
@[ext]
structure Handshake where
  flow : String
  shortId : String
  serverName : String

/-- Read off an outbound of sing-box. -/
def ofOutbound (j : Json) : Handshake where
  flow := (j.getStr "flow").getD ""
  shortId := (((j.get "tls").bind (·.get "reality")).bind (·.getStr "short_id")).getD ""
  serverName := ((j.get "tls").bind (·.getStr "server_name")).getD ""

/-- Read off a proxy of Clash. -/
def ofProxy (j : Json) : Handshake where
  flow := (j.getStr "flow").getD ""
  shortId := ((j.get "reality-opts").bind (·.getStr "short-id")).getD ""
  serverName := (j.getStr "servername").getD ""

/-- Read off a share link. -/
def ofLink (l : Link) : Handshake where
  flow := (param "flow" l.params).getD ""
  shortId := ((param "sid" l.params).bind Text.formDecode).getD ""
  serverName := ((param "sni" l.params).bind Text.formDecode).getD ""

/-- The handshake of a client of a subscription. -/
def ofOutput (format : SubscriptionFormat) : Output → Handshake
  | .json j =>
    match format with
    | .singBox => ofOutbound j
    | _ => ofProxy j
  | .link l => ofLink l

/-- The handshake of a relay hop. -/
def ofHop (core : CoreType) (outbound : Json) : Handshake :=
  match core with
  | .singBox => ofOutbound outbound
  | .mihomo => ofProxy outbound

/-- **The inbound accepts the handshake** of a client: its user has the flow, and it answers to
the short id and the server name. -/
def Accepted (core : CoreType) (inbound : Json) (id : String) (h : Handshake) : Prop :=
  (∃ user ∈ Inbound.users inbound, user.getStr "uuid" = some id ∧ Inbound.flow user = h.flow) ∧
    h.shortId ∈ Inbound.shortIds core inbound ∧ h.serverName ∈ Inbound.serverNames core inbound

/-! ### What is offered -/

/-- What every subscription format offers. -/
def offered (settings : Json) : Handshake where
  flow := (settings.getStr "flow").getD ""
  shortId := (firstShortId settings).getD ""
  serverName := (firstServerName settings).getD ""

theorem getStr_ite_flow {j : Json} (hobject : j.isObject = true) (hnone : j.getStr "flow" = none)
    (flow : String) :
    ((if flow = "" then j else j.setIndex "flow" (str flow)).getStr "flow").getD "" = flow := by
  by_cases hempty : flow = ""
  · rw [if_pos hempty, hnone, hempty]
    rfl
  · rw [if_neg hempty, getStr, get_setIndex_self hobject]
    rfl

theorem ofOutbound_singbox {node : ProxyNode} {uuid : String} {j : Json}
    (h : singboxVlessReality node uuid = .ok j) : ofOutbound j = offered node.settings := by
  simp only [singboxVlessReality] at h
  obtain ⟨key, -, h⟩ := Except.bind_eq_ok h
  cases h
  refine Handshake.ext ?_ ?_ ?_
  · change ((get _ "flow").bind asStr).getD "" = _
    rw [get_setIndex_of_ne _ (by decide), get_ite_setIndex_of_ne _ (by decide)]
    exact getStr_ite_flow (isObject_mkObj _) (by rw [getStr, get_mkObj]; rfl) _
  · simp only [ofOutbound]
    rw [get_setIndex_self (isObject_ite_setIndex (isObject_ite_setIndex (isObject_mkObj _) _ _) _ _),
      Option.bind_some, get_mkObj]
    change ((getStr (if _ then _ else _) "short_id").getD "") = _
    rw [getStr, get_ite_setIndex_of_ne _ (by decide), get_mkObj]
    rfl
  · simp only [ofOutbound]
    rw [get_setIndex_self (isObject_ite_setIndex (isObject_ite_setIndex (isObject_mkObj _) _ _) _ _),
      Option.bind_some, getStr, get_mkObj]
    rfl

theorem ofProxy_clash {node : ProxyNode} (hreality : node.protocol = .vlessReality) (uuid : String) :
    ofProxy (clashVless node uuid) = offered node.settings := by
  have hobject : ∀ flow (base : List (String × Json)), (if flow = "" then mkObj base else
      (mkObj base).setIndex "flow" (str flow)).isObject = true := fun flow base =>
    isObject_ite_setIndex (isObject_mkObj _) _ _
  refine Handshake.ext ?_ ?_ ?_
  · simp only [clashVless]
    change ((get _ "flow").bind asStr).getD "" = _
    rw [clashTransport_get (by decide), hreality, clashVlessReality, get_setIndex_of_ne _ (by decide),
      get_setIndex_of_ne _ (by decide), get_setIndex_of_ne _ (by decide),
      get_setIndex_of_ne _ (by decide)]
    exact getStr_ite_flow (isObject_mkObj _) (by rw [getStr, get_mkObj]; rfl) _
  · simp only [ofProxy, clashVless]
    rw [clashTransport_get (by decide), hreality, clashVlessReality,
      get_setIndex_self (isObject_setIndex (isObject_setIndex (isObject_setIndex (hobject _ _) _ _)
        _ _) _ _), Option.bind_some, getStr, get_mkObj]
    rfl
  · simp only [clashVless]
    change ((get _ "servername").bind asStr).getD "" = _
    rw [clashTransport_get (by decide), hreality, clashVlessReality, get_setIndex_of_ne _ (by decide),
      get_setIndex_of_ne _ (by decide),
      get_setIndex_self (isObject_setIndex (hobject _ _) _ _)]
    rfl

/-- The transport of a link has no parameter of the handshake. -/
theorem param_linkTransport {key : String} (hkey : key ∈ ["flow", "sid", "sni"]) (network : String)
    (settings : Json) : param key (linkTransport network settings) = none := by
  have hne : ∀ k : String, k ∉ ["flow", "sid", "sni"] → k ≠ key := fun k hk heq => hk (heq ▸ hkey)
  have hplain : ∀ k v, '=' ∉ k.toList → k ∉ ["flow", "sid", "sni"] →
      param key (plainParam k v) = none := fun k v hchars hk => by
    rw [param_plainParam hchars, if_neg (hne k hk)]
  have hencoded : ∀ k v, '=' ∉ k.toList → k ∉ ["flow", "sid", "sni"] →
      param key (encodedParam k v) = none := fun k v hchars hk => by
    rw [param_encodedParam hchars, if_neg (hne k hk)]
  unfold linkTransport
  split
  · rw [param_append, hencoded _ _ (by decide) (by decide), hencoded _ _ (by decide) (by decide)]
    rfl
  · split
    · exact hencoded _ _ (by decide) (by decide)
    · split
      · rw [param_append, param_append, hencoded _ _ (by decide) (by decide),
          hencoded _ _ (by decide) (by decide), hplain _ _ (by decide) (by decide)]
        rfl
      · split
        · rw [param_append, hencoded _ _ (by decide) (by decide), hplain _ _ (by decide) (by decide)]
          rfl
        · rfl

theorem bind_formDecode (v : Option String) : (v.map Text.formEncode).bind Text.formDecode = v := by
  cases v with
  | none => rfl
  | some v => rw [Option.map_some, Option.bind_some, Text.formDecode_formEncode]

theorem getD_filter_nonEmpty (v : Option String) : (v.filter nonEmpty).getD "" = v.getD "" := by
  cases v with
  | none => rfl
  | some v =>
    by_cases hempty : v = ""
    · rw [Option.filter_some, if_neg (by simp [nonEmpty, hempty]), hempty]
      rfl
    · rw [Option.filter_some, if_pos (by simp [nonEmpty, hempty])]

theorem ofLink_reality {node : ProxyNode} (hreality : node.protocol = .vlessReality) {id : String}
    {l : Link} (h : vlessLink node id = .ok l) : ofLink l = offered node.settings := by
  simp only [vlessLink, hreality] at h
  obtain ⟨security, hsecurity, h⟩ := Except.bind_eq_ok h
  simp only [linkReality] at hsecurity
  obtain ⟨key, -, hsecurity⟩ := Except.bind_eq_ok hsecurity
  cases hsecurity
  cases h
  have hflow : ∀ key flow, param key (if flow = "" then [] else plainParam "flow" (some flow)) =
      if flow = "" then none else if "flow" = key then some flow else none := by
    intro key flow
    split
    · rfl
    · exact param_plainParam (by decide) _ _
  have hsecurity : ∀ k ∈ ["flow", "sid", "sni"], param k ["security=reality"] = none := by
    decide
  have htype := param_plainParam (k := "type") (by decide)
  have hfp := param_plainParam (k := "fp") (by decide)
  have hsni := param_encodedParam (k := "sni") (by decide)
  have hpbk := param_encodedParam (k := "pbk") (by decide)
  have hsid := param_encodedParam (k := "sid") (by decide)
  have hspx := param_encodedParam (k := "spx") (by decide)
  refine Handshake.ext ?_ ?_ ?_
  · simp only [ofLink, param_append, htype, hflow, @param_linkTransport "flow" (by decide),
      hsecurity "flow" (by decide), hsni, hpbk, hsid, hspx, hfp, String.reduceEq, reduceIte,
      Option.or_none, Option.none_or]
    split
    · rename_i hempty
      exact hempty.symm
    · rfl
  · simp only [ofLink, param_append, htype, hflow, @param_linkTransport "sid" (by decide),
      hsecurity "sid" (by decide), hsni, hpbk, hsid, hspx, hfp, String.reduceEq, reduceIte,
      Option.or_none, Option.none_or, ite_self, bind_formDecode, getD_filter_nonEmpty]
    rfl
  · simp only [ofLink, param_append, htype, hflow, @param_linkTransport "sni" (by decide),
      hsecurity "sni" (by decide), hsni, hpbk, hsid, hspx, hfp, String.reduceEq, reduceIte,
      Option.or_none, Option.none_or, ite_self, bind_formDecode, getD_filter_nonEmpty]
    rfl

/-- **Every format offers the same.** -/
theorem ofOutput_emit {format : SubscriptionFormat} {node : ProxyNode} {out : Output}
    (hreality : node.protocol = .vlessReality) (h : emit format node = .ok out) :
    ofOutput format out = offered node.settings := by
  rcases emit_cases h with ⟨rfl, j, hj, rfl⟩ | ⟨rfl, j, hj, rfl⟩ | ⟨rfl, l, hl, rfl⟩
  · rw [buildOutbound, hreality] at hj
    obtain ⟨uuid, -, hj⟩ := Except.bind_eq_ok hj
    exact ofOutbound_singbox hj
  · rw [buildProxy, hreality] at hj
    obtain ⟨uuid, -, hj⟩ := Except.bind_eq_ok hj
    cases hj
    exact ofProxy_clash hreality uuid
  · rw [buildLink, hreality] at hl
    obtain ⟨id, -, hl⟩ := Except.bind_eq_ok hl
    exact ofLink_reality hreality hl

/-- What a relay hop offers. -/
def relayOffered (settings : Json) : Handshake where
  flow := RelayHop.flow settings
  shortId := RelayHop.shortId settings
  serverName := (RelayHop.firstStringSetting settings ["reality_server_names", "server_names"]).getD ""

theorem realityKeys_ok {settings : Json} {keys : String × String}
    (h : RelayHop.realityKeys settings = .ok keys) :
    RelayHop.firstStringSetting settings ["reality_server_names", "server_names"] = some keys.2 := by
  rw [RelayHop.realityKeys] at h
  split at h
  · cases h
  · split at h
    · cases h
    · rename_i name hname
      cases h
      exact hname

theorem getStr_setNonEmpty {j : Json} (hobject : j.isObject = true) {k : String}
    (hnone : j.getStr k = none) (s : String) : ((RelayHop.setNonEmpty j k s).getStr k).getD "" = s := by
  rw [RelayHop.setNonEmpty]
  by_cases hempty : s = ""
  · rw [if_pos hempty, hnone, hempty]
    rfl
  · rw [if_neg hempty, getStr, get_setIndex_self hobject]
    rfl

/-- **Both relay builders offer the same.** -/
theorem ofHop_build {core : CoreType} {hop : RelayHop} {outbound : Json}
    (hreality : hop.protocol = .vlessReality) (h : hop.build core = .ok outbound) :
    ofHop core outbound = relayOffered hop.settings := by
  have hplain : ∀ es : List (String × Json), es.reverse.lookup "flow" = none →
      (mkObj es).getStr "flow" = none := fun es hes => by rw [getStr, get_mkObj, hes]; rfl
  cases core with
  | singBox =>
    simp only [RelayHop.build, RelayHop.buildSingboxOutbound, hreality] at h
    obtain ⟨⟨key, name⟩, hkeys, h⟩ := Except.bind_eq_ok h
    cases h
    refine Handshake.ext ?_ ?_ ?_
    · exact getStr_setNonEmpty (isObject_mkObj _) (hplain _ rfl) _
    · simp only [ofHop, ofOutbound]
      rw [get_setNonEmpty _ (by decide), get_mkObj]
      change (((mkObj _).get "reality").bind _).getD "" = _
      rw [get_mkObj]
      exact getStr_setNonEmpty (isObject_mkObj _) (by rw [getStr, get_mkObj]; rfl) _
    · simp only [ofHop, ofOutbound, relayOffered, realityKeys_ok hkeys]
      rw [get_setNonEmpty _ (by decide), get_mkObj]
      change ((mkObj _).getStr "server_name").getD "" = _
      rw [getStr, get_mkObj]
      rfl
  | mihomo =>
    simp only [RelayHop.build, RelayHop.buildMihomoProxy, hreality] at h
    obtain ⟨⟨key, name⟩, hkeys, h⟩ := Except.bind_eq_ok h
    cases h
    refine Handshake.ext ?_ ?_ ?_
    · exact getStr_setNonEmpty (isObject_mkObj _) (hplain _ rfl) _
    · simp only [ofHop, ofProxy]
      rw [get_setNonEmpty _ (by decide), get_mkObj]
      exact getStr_setNonEmpty (isObject_mkObj _) (by rw [getStr, get_mkObj]; rfl) _
    · simp only [ofHop, ofProxy, relayOffered, realityKeys_ok hkeys, getStr]
      rw [get_setNonEmpty _ (by decide), get_mkObj]
      rfl

/-! ### The users of the inbound -/

/-- The user of a REALITY inbound for an entry of `clients`. -/
def userOf (core : CoreType) (settings entry : Json) : Json :=
  match core with
  | .singBox =>
    let flow := (settings.getStr "flow").getD ""
    if flow = "" then SingBox.vlessUser entry
    else (SingBox.vlessUser entry).setIndex "flow" (str flow)
  | .mihomo => Mihomo.buildUser true ((settings.getStrAny ["flow"]).getD "")
      ((entry.getStrAny ["id", "uuid"]).getD "") ((entry.getStrAny ["email", "name"]).getD "")
      ((entry.getStrAny ["flow"]).getD "")

theorem get_users_transport (j value : Json) : (match value with
    | null => j
    | transport => j.setIndex "transport" transport).get "users" = j.get "users" := by
  cases value with
  | null => rfl
  | _ => exact get_setIndex_of_ne _ (by decide) _

theorem users_buildInbound {core : CoreType} {settings inbound : Json} {tls : Option Json}
    {clients : List Json} (hclients : settings.getArr "clients" = some clients)
    (h : buildInbound core .vlessReality settings tls = .ok inbound) :
    Inbound.users inbound = clients.map (userOf core settings) := by
  cases core with
  | singBox =>
    change SingBox.buildVlessInbound settings = _ at h
    simp only [SingBox.buildVlessInbound, SingBox.vlessClientsToUsers, hclients] at h
    have hbase : ∀ users, (SingBox.inboundBase "vless" "vless-in" settings users).get "users" =
        some (arr users) := fun users => by rw [SingBox.inboundBase, get_mkObj]; rfl
    split at h
    · cases h
      rw [Inbound.users, getArr, get_setIndex_of_ne _ (by decide)]
      refine (congrArg (fun users => (Option.bind users asArray).getD [])
        ((get_users_transport _ _).trans (hbase _))).trans ?_
      simp only [Option.bind_some, asArray, Option.getD_some]
      by_cases hempty : (settings.getStr "flow").getD "" = ""
      · rw [if_pos hempty]
        exact List.map_congr_left fun c _ => (if_pos hempty).symm
      · rw [if_neg hempty, List.map_map]
        exact List.map_congr_left fun c _ => (if_neg hempty).symm
    · cases h
  | mihomo =>
    change Mihomo.buildVlessRealityListener settings = _ at h
    rw [Mihomo.buildVlessRealityListener] at h
    split at h
    · cases h
      have hobject : ∀ a b : Json, ((Mihomo.listenerBase settings "vless-reality-in").setIndex "type"
          a).isObject = true := fun a b => isObject_setIndex (isObject_mkObj _) _ _
      rw [Inbound.users, getArr, get_setIndex_of_ne _ (by decide), Mihomo.listenerWith,
        get_setIndex_self (hobject _ null), Mihomo.vlessUsers, hclients]
      rfl
    · cases h

/-- The entry of a client with an identifier and a flow. -/
theorem getStr_entry (c : Client) :
    (clientToProtocolEntry c "vless_reality").getStr "id" = some c.id.toStr ∧
      (clientToProtocolEntry c "vless_reality").getStr "flow" = some "xtls-rprx-vision" := by
  have hvless : Text.startsWith "vless_reality" "vless" = true := @startsWith_vless .vlessReality rfl
  refine ⟨getStr_clientToProtocolEntry_id hvless c, ?_⟩
  have hbase : (mkObj [("id", str c.id.toStr), ("email", str (c.email.getD c.id.toStr)),
      ("flow", str "xtls-rprx-vision")]).getStr "flow" = some "xtls-rprx-vision" := by
    rw [getStr, get_mkObj]
    rfl
  simp only [clientToProtocolEntry, hvless, if_true]
  split
  · split
    · rw [getStr_set_of_ne _ (by decide), hbase]
    · exact hbase
  · exact hbase

theorem flow_setIndex {user : Json} (hobject : user.isObject = true) (flow : String) :
    Inbound.flow (user.setIndex "flow" (str flow)) = flow := by
  rw [Inbound.flow, getStr, get_setIndex_self hobject]
  rfl

theorem getStr_uuid_setIndex (user : Json) (flow : String) :
    (user.setIndex "flow" (str flow)).getStr "uuid" = user.getStr "uuid" := by
  rw [getStr, get_setIndex_of_ne _ (by decide), getStr]

/-- The user of a client that is injected. -/
theorem userOf_entry (core : CoreType) (settings : Json) (c : Client) :
    (userOf core settings (clientToProtocolEntry c "vless_reality")).getStr "uuid" =
        some c.id.toStr ∧
      Inbound.flow (userOf core settings (clientToProtocolEntry c "vless_reality")) =
        userFlow core settings := by
  obtain ⟨hid, hflow⟩ := getStr_entry c
  cases core with
  | singBox =>
    have huser : SingBox.vlessUser (clientToProtocolEntry c "vless_reality") =
        (mkObj [("uuid", str c.id.toStr),
          ("name", strOr (clientToProtocolEntry c "vless_reality") "email" "")]).setIndex "flow"
          (str "xtls-rprx-vision") := by
      rw [SingBox.vlessUser, hflow, strOr, hid]
      rfl
    have huuid : (SingBox.vlessUser (clientToProtocolEntry c "vless_reality")).getStr "uuid" =
        some c.id.toStr := by
      rw [huser, getStr_uuid_setIndex, getStr, get_mkObj]
      rfl
    simp only [userOf, userFlow]
    split
    · refine ⟨huuid, ?_⟩
      rw [huser]
      exact flow_setIndex (isObject_mkObj _) _
    · refine ⟨(getStr_uuid_setIndex _ _).trans huuid, flow_setIndex ?_ _⟩
      rw [huser]
      exact isObject_setIndex (isObject_mkObj _) _ _
  | mihomo =>
    have hids : (clientToProtocolEntry c "vless_reality").getStrAny ["id", "uuid"] =
        some c.id.toStr := by
      rw [getStrAny, List.findSome?_cons, hid]
    have huser : userOf .mihomo settings (clientToProtocolEntry c "vless_reality") =
        (mkObj [("username", str (((clientToProtocolEntry c "vless_reality").getStrAny
          ["email", "name"]).getD "")), ("uuid", str c.id.toStr)]).setIndex "flow"
          (str "xtls-rprx-vision") := by
      have hflows : (clientToProtocolEntry c "vless_reality").getStrAny ["flow"] =
          some "xtls-rprx-vision" := by rw [getStrAny_singleton, hflow]
      rw [userOf, hids, hflows]
      rfl
    rw [huser]
    refine ⟨?_, flow_setIndex (isObject_mkObj _) _⟩
    rw [getStr_uuid_setIndex, getStr, get_mkObj]
    rfl

/-- REALITY needs settings that are an object. -/
theorem isObject_of_built {core : CoreType} {settings inbound : Json} {tls : Option Json}
    (h : buildInbound core .vlessReality settings tls = .ok inbound) : settings.isObject = true := by
  by_contra hobject
  have hnone : settings.getStrAny ["reality_dest", "dest"] = none := by
    have hget := get_of_not_isObject (j := settings) (by simpa using hobject)
    simp only [getStrAny, List.findSome?_cons, List.findSome?_nil, getStr, hget, Option.bind_none]
  cases core with
  | singBox =>
    obtain ⟨realityTls, -, htls⟩ := @exists_realityTls _ _ tls h
    rw [SingBox.buildRealityTls, hnone] at htls
    cases htls
  | mihomo =>
    change Mihomo.buildVlessRealityListener settings = _ at h
    rw [Mihomo.buildVlessRealityListener, hnone] at h
    cases h

theorem isObject_withListen (config : ProtocolConfig) (settings : Json) :
    (withListen config settings).isObject = settings.isObject := by
  rw [withListen, isObject_set, isObject_set, isObject_set]

theorem get_withListen (config : ProtocolConfig) (settings : Json) {k : String}
    (hk : k ∉ ["port", "listen", "tag"]) : (withListen config settings).get k = settings.get k := by
  simp only [List.mem_cons, List.not_mem_nil, or_false, not_or] at hk
  rw [withListen, get_set_of_ne _ hk.2.2, get_set_of_ne _ hk.2.1, get_set_of_ne _ hk.1]

theorem userFlow_congr (core : CoreType) {s s' : Json} (h : s'.get "flow" = s.get "flow") :
    userFlow core s' = userFlow core s := by
  cases core with
  | singBox => rw [userFlow, userFlow, getStr, getStr, h]
  | mihomo => rfl

/-- **The user of a client** that is injected has the flow of `userFlow`. -/
theorem exists_user_iff {db : Db} {core : CoreType} {binding : NodeBinding} {config : ProtocolConfig}
    {inbound : Json} {client : Client} {flow : String}
    (hconfig : db.protocolConfigs.find binding.protocolConfigId = some config)
    (hreality : config.protocolType = "vless_reality")
    (hinbound : inboundFor db binding.nodeId core binding = some inbound)
    (hclient : client ∈ authorizedClients db binding.id) :
    (∃ user ∈ Inbound.users inbound, user.getStr "uuid" = some client.id.toStr ∧
        Inbound.flow user = flow) ↔ userFlow core (mergedSettings config binding) = flow := by
  obtain ⟨config', protocol, tls, hconfig', -, hprotocol, -, hbuilt⟩ := inboundFor_eq_some hinbound
  cases hconfig.symm.trans hconfig'
  have hvless : ProtocolType.fromStr? "vless_reality" = some .vlessReality :=
    ProtocolType.fromStr?_toStr .vlessReality
  rw [hreality] at hprotocol hbuilt
  cases hvless.symm.trans hprotocol
  have hmembers : groupMembers db binding.id ≠ [] :=
    List.ne_nil_of_mem (mem_groupMembers.mpr (mem_authorizedClients.mp hclient).2.1)
  have hobject : (mergedSettings config binding).isObject = true := by
    have hlisten := isObject_of_built hbuilt
    rw [isObject_withListen, injected, if_neg hmembers, isObject_set] at hlisten
    exact hlisten
  have hclients : (withListen config (injected db binding "vless_reality"
      (mergedSettings config binding))).getArr "clients" =
        some ((authorizedClients db binding.id).map (clientToProtocolEntry · "vless_reality")) := by
    rw [getArr, get_withListen _ _ (by decide), injected, if_neg hmembers, get_set_self hobject]
    rfl
  have hflow : (withListen config (injected db binding "vless_reality"
      (mergedSettings config binding))).get "flow" = (mergedSettings config binding).get "flow" := by
    rw [get_withListen _ _ (by decide), injected, if_neg hmembers, get_set_of_ne _ (by decide)]
  rw [users_buildInbound hclients hbuilt, ← userFlow_congr core hflow]
  constructor
  · rintro ⟨user, huser, -, rfl⟩
    rw [List.map_map] at huser
    obtain ⟨c, -, rfl⟩ := List.mem_map.mp huser
    exact (userOf_entry core _ c).2.symm
  · rintro rfl
    refine ⟨_, List.mem_map_of_mem (List.mem_map_of_mem hclient), userOf_entry core _ client⟩

/-! ### When they meet -/

/-- `x` is one of the entries, or the default where there are none. -/
def OneOf (x : String) (entries : List String) (default : String) : Prop :=
  if entries = [] then x = default else x ∈ entries

theorem mem_ite_iff (x : String) (entries : List String) (default : String) :
    x ∈ (if entries = [] then [default] else entries) ↔ OneOf x entries default := by
  rw [OneOf]
  split
  · exact List.mem_singleton
  · rfl

/-- The entries of the string under the first of two keys that has one. -/
def entriesOfText (settings : Json) (k k' : String) : List String :=
  Text.commaPieces ((settings.getStrAny [k, k']).getD "")

/-- The entries under the first of two keys that is there, if it has a string. -/
def entriesOfFirst (settings : Json) (k k' : String) : List String :=
  match ((settings.get k).or (settings.get k')).bind asStr with
  | some s => Text.commaPieces s
  | none => []

/-- The settings give the clients of a subscription what the inbound asks for. -/
def SubscriptionFits (core : CoreType) (settings : Json) : Prop :=
  match core with
  | .singBox =>
    (settings.getStr "flow").getD "" ≠ "" ∧
      ((firstShortId settings).isSome ∨
        entriesOfFirst settings "reality_short_id" "short_id" = []) ∧
      ((firstServerName settings).isSome ∨ destHost settings = "")
  | .mihomo =>
    (settings.getStr "flow").getD "" = "xtls-rprx-vision" ∧
      OneOf ((firstShortId settings).getD "")
        (entriesOfText settings "reality_short_id" "short_id") "" ∧
      OneOf ((firstServerName settings).getD "")
        (entriesOfText settings "reality_server_names" "server_names") (destHost settings)

/-- The settings give a relay hop what the inbound asks for. -/
def RelayFits (core : CoreType) (settings : Json) : Prop :=
  let shortId := RelayHop.shortId settings
  let serverName :=
    (RelayHop.firstStringSetting settings ["reality_server_names", "server_names"]).getD ""
  match core with
  | .singBox =>
    (settings.getStr "flow").getD "" ≠ "" ∧
      (match firstShortId settings with
        | some first => shortId = first
        | none => OneOf shortId (entriesOfFirst settings "reality_short_id" "short_id") "") ∧
      serverName = (firstServerName settings).getD (destHost settings)
  | .mihomo =>
    (settings.getStr "flow").getD "" = "xtls-rprx-vision" ∧
      OneOf shortId (entriesOfText settings "reality_short_id" "short_id") "" ∧
      OneOf serverName (entriesOfText settings "reality_server_names" "server_names")
        (destHost settings)

theorem userFlow_eq_iff (core : CoreType) (settings : Json) :
    userFlow core settings = (settings.getStr "flow").getD "" ↔
      match core with
      | .singBox => (settings.getStr "flow").getD "" ≠ ""
      | .mihomo => (settings.getStr "flow").getD "" = "xtls-rprx-vision" := by
  cases core with
  | singBox =>
    simp only [userFlow]
    split
    · rename_i hempty
      rw [hempty]
      decide
    · rename_i hset
      exact iff_of_true rfl hset
  | mihomo => exact eq_comm

theorem relayFlow_eq (settings : Json) : RelayHop.flow settings = (settings.getStr "flow").getD "" := by
  rw [RelayHop.flow, RelayHop.strSetting]
  cases hflow : settings.getStr "flow" with
  | none => simp [hflow]
  | some flow => by_cases hempty : flow = "" <;> simp [hflow, hempty]

/-- Whether sing-box accepts a short id. -/
theorem mem_shortIds_singBox (settings : Json) (x : String) : x ∈ shortIds .singBox settings ↔
    match firstShortId settings with
    | some first => x = first
    | none => OneOf x (entriesOfFirst settings "reality_short_id" "short_id") "" := by
  unfold shortIds
  cases firstShortId settings with
  | some first =>
    simp only [List.cons_ne_nil, if_false]
    exact List.mem_singleton
  | none => exact mem_ite_iff _ _ _

theorem not_mem_entriesOfFirst (settings : Json) (k k' : String) :
    "" ∉ entriesOfFirst settings k k' := by
  rw [entriesOfFirst]
  split
  · simp [Text.commaPieces]
  · exact List.not_mem_nil

/-- What a subscription offers is accepted when the settings fit. -/
theorem offered_iff (core : CoreType) (settings : Json) :
    (userFlow core settings = (offered settings).flow ∧
      (offered settings).shortId ∈ shortIds core settings ∧
      (offered settings).serverName ∈ serverNames core settings) ↔ SubscriptionFits core settings := by
  rw [offered, userFlow_eq_iff]
  cases core with
  | singBox =>
    refine and_congr_right fun _ => and_congr ?_ ?_
    · rw [mem_shortIds_singBox]
      cases hfirst : firstShortId settings with
      | some first => exact iff_of_true (by simp) (.inl rfl)
      | none =>
        simp only [Option.getD_none, Option.isSome_none, Bool.false_eq_true, false_or, OneOf]
        split
        · rename_i hnil
          exact iff_of_true trivial hnil
        · rename_i hne
          exact iff_of_false (not_mem_entriesOfFirst _ _ _) hne
    · rw [serverNames, List.mem_singleton]
      cases firstServerName settings with
      | some name => exact iff_of_true (by simp) (.inl rfl)
      | none => exact ⟨fun h => .inr h.symm, fun h => (h.resolve_left fun hc => by cases hc).symm⟩
  | mihomo => exact and_congr_right fun _ => and_congr (mem_ite_iff _ _ _) (mem_ite_iff _ _ _)

/-- What a relay hop offers is accepted when the settings fit. -/
theorem relayOffered_iff (core : CoreType) (settings : Json) :
    (userFlow core settings = (relayOffered settings).flow ∧
      (relayOffered settings).shortId ∈ shortIds core settings ∧
      (relayOffered settings).serverName ∈ serverNames core settings) ↔ RelayFits core settings := by
  simp only [relayOffered, relayFlow_eq, userFlow_eq_iff]
  cases core with
  | singBox =>
    rw [mem_shortIds_singBox, serverNames, List.mem_singleton]
    rfl
  | mihomo => exact and_congr_right fun _ => and_congr (mem_ite_iff _ _ _) (mem_ite_iff _ _ _)

/-- The hop of a rule for an exit has the settings of its config. -/
theorem settings_relayHop {db : Db} {rule : RelayRule} {hop : RelayHop}
    (h : relayHop db rule = some hop) {b : NodeBinding} {c : ProtocolConfig}
    (hexit : ExitOf db rule.exitBindingId b c) : hop.settings = c.settings := by
  simp only [relayHop, hexit.binding, hexit.config, Option.bind_eq_bind, Option.bind_some,
    Option.bind_eq_some_iff] at h
  obtain ⟨node, _, protocol, hprotocol, h⟩ := h
  cases h
  rfl

section

variable {db : Db} {binding : NodeBinding} {config : ProtocolConfig} {inbound : Json}

/-- The inbound accepts the handshakes that the settings of its config describe. -/
theorem accepted_iff (hconfig : db.protocolConfigs.find binding.protocolConfigId = some config)
    (hreality : config.protocolType = "vless_reality") (hoverride : binding.overrideSettings = none)
    (hinbound : inboundFor db binding.nodeId (parseCoreType config.coreType) binding = some inbound)
    {client : Client} (hclient : client ∈ authorizedClients db binding.id) (h : Handshake) :
    Accepted (parseCoreType config.coreType) inbound client.id.toStr h ↔
      userFlow (parseCoreType config.coreType) config.settings = h.flow ∧
        h.shortId ∈ shortIds (parseCoreType config.coreType) config.settings ∧
        h.serverName ∈ serverNames (parseCoreType config.coreType) config.settings := by
  have hsettings : mergedSettings config binding = config.settings := by
    rw [mergedSettings, hoverride]
    rfl
  have hvless : ProtocolType.fromStr? config.protocolType = some .vlessReality := by
    rw [hreality]
    exact ProtocolType.fromStr?_toStr .vlessReality
  have hread := parametersOf_inboundFor hconfig hvless hinbound
  rw [hsettings] at hread
  have hids : Inbound.shortIds (parseCoreType config.coreType) inbound =
      shortIds (parseCoreType config.coreType) config.settings :=
    congrArg Parameters.shortIds hread
  have hnames : Inbound.serverNames (parseCoreType config.coreType) inbound =
      serverNames (parseCoreType config.coreType) config.settings :=
    congrArg Parameters.serverNames hread
  rw [Accepted, exists_user_iff hconfig hreality hinbound hclient, hsettings, hids, hnames]

/-- What a client of the config is given in any format. -/
theorem ofOutput_accessibleNode {substitute : Substitution} {client : Client} {node : Node}
    {pn : ProxyNode} {format : SubscriptionFormat} {out : Output}
    (hnode : (accessibleNode substitute client binding config node .vlessReality).exec db = .ok pn)
    (hout : emit format pn = .ok out) : ofOutput format out = offered config.settings := by
  have hget := fun (k : String) => get_settings_of_accessibleNode hnode (k := k)
  rw [ofOutput_emit (accessibleNode_ok hnode).1 hout]
  simp only [offered, getStr, firstShortId, firstServerName, hget "flow" (by decide),
    hget "short_id" (by decide), hget "reality_short_id" (by decide),
    hget "server_names" (by decide), hget "reality_server_names" (by decide)]

/-- **When the handshake of REALITY succeeds**: for every client among the users of the inbound
and every subscription format, and for every relay rule to the binding whose client is among
the users and both relay builders. -/
theorem handshakeAccepted_iff (hbinding : db.nodeBindings.find binding.id = some binding)
    (hconfig : db.protocolConfigs.find binding.protocolConfigId = some config)
    (hreality : config.protocolType = "vless_reality") (hoverride : binding.overrideSettings = none)
    (hinbound : inboundFor db binding.nodeId (parseCoreType config.coreType) binding = some inbound) :
    (∀ client ∈ authorizedClients db binding.id, ∀ substitute node pn format out,
      (accessibleNode substitute client binding config node .vlessReality).exec db = .ok pn →
      emit format pn = .ok out →
      (Accepted (parseCoreType config.coreType) inbound client.id.toStr (ofOutput format out) ↔
        SubscriptionFits (parseCoreType config.coreType) config.settings)) ∧
    (∀ client ∈ authorizedClients db binding.id, ∀ rule hop core outbound,
      rule.exitBindingId = binding.id → rule.relayClientId = client.id →
      relayHop db rule = some hop → hop.build core = .ok outbound →
      (Accepted (parseCoreType config.coreType) inbound client.id.toStr (ofHop core outbound) ↔
        RelayFits (parseCoreType config.coreType) config.settings)) := by
  constructor
  · intro client hclient substitute node pn format out hnode hout
    rw [accepted_iff hconfig hreality hoverride hinbound hclient, ofOutput_accessibleNode hnode hout,
      offered_iff]
  · intro client hclient rule hop core outbound hexit _ hhop hbuild
    have hexitOf : ExitOf db rule.exitBindingId binding config := ⟨hexit ▸ hbinding, hconfig⟩
    have hprotocol : hop.protocol = .vlessReality := by
      have hread := (relayHop_exit hhop hexitOf).2
      rw [hreality] at hread
      exact Option.some.inj (hread.symm.trans (ProtocolType.fromStr?_toStr .vlessReality))
    rw [accepted_iff hconfig hreality hoverride hinbound hclient, ofHop_build hprotocol hbuild,
      settings_relayHop hhop hexitOf, relayOffered_iff]

end

namespace Vision

/-- A REALITY config of sing-box, with more settings. -/
def config (more : List (String × Json)) : ProtocolConfig :=
  { PresetUser.config with
    coreType := "sing-box"
    settings := mkObj ([("reality_dest", str "example.com:443"), ("reality_private_key", str "key"),
      ("public_key", str "public"), ("server_names", str "example.com"), ("short_id", str "ab")] ++
        more) }

/-- A config that names the flow, as its clients have it. -/
def named : ProtocolConfig := config [("flow", str "xtls-rprx-vision")]

def client : Client := { OnHold.client with status := "active" }

/-- The client is in the group of the binding. -/
def db (config : ProtocolConfig) : Db where
  nodes := .single OnHold.node
  protocolConfigs := .single config
  nodeBindings := .single PresetUser.binding
  clients := .single client
  clientGroupBindings := .single ⟨.ofNat 20, client.id, .ofNat 21⟩
  nodeBindingGroupBindings := .single ⟨.ofNat 22, PresetUser.binding.id, .ofNat 21⟩

theorem mem_authorizedClients_client (config : ProtocolConfig) :
    client ∈ authorizedClients (db config) PresetUser.binding.id := by
  have hgroups : bindingGroupIds (db config) PresetUser.binding.id = [.ofNat 21] := rfl
  have hmember : clientGroupIds (db config) client.id = [.ofNat 21] := rfl
  refine mem_authorizedClients.mpr ⟨List.mem_singleton_self _, ⟨.ofNat 21, ?_, ?_⟩, rfl⟩
  · rw [hgroups]
    exact List.mem_singleton_self _
  · rw [hmember]
    exact List.mem_singleton_self _

/-- The node of the client becomes a proxy of Clash. -/
def clash (config : ProtocolConfig) : Option Output :=
  match (accessibleNode OnHold.substitute client PresetUser.binding config OnHold.node
      .vlessReality).exec (db config) with
  | .ok pn => (emit .clash pn).toOption
  | .error _ => none

theorem exists_output {config : ProtocolConfig} (h : (clash config).isSome = true) : ∃ pn out,
    (accessibleNode OnHold.substitute client PresetUser.binding config OnHold.node
        .vlessReality).exec (db config) = .ok pn ∧ emit .clash pn = .ok out := by
  rw [clash] at h
  split at h
  · rename_i pn hpn
    cases hout : emit .clash pn with
    | error e =>
      rw [hout] at h
      cases h
    | ok out => exact ⟨pn, out, hpn, hout⟩
  · cases h

theorem exists_inbound {config : ProtocolConfig} (h : (inboundFor (db config)
    PresetUser.binding.nodeId (parseCoreType config.coreType) PresetUser.binding).isSome = true) :
    ∃ inbound, inboundFor (db config) PresetUser.binding.nodeId (parseCoreType config.coreType)
      PresetUser.binding = some inbound :=
  Option.isSome_iff_exists.mp h

end Vision

/-- With the flow in the settings the handshake succeeds. -/
theorem handshakeAccepted_iff_named : ∃ inbound pn out,
    inboundFor (Vision.db Vision.named) PresetUser.node .singBox PresetUser.binding = some inbound ∧
      (accessibleNode OnHold.substitute Vision.client PresetUser.binding Vision.named OnHold.node
        .vlessReality).exec (Vision.db Vision.named) = .ok pn ∧
      emit .clash pn = .ok out ∧
      Accepted .singBox inbound Vision.client.id.toStr (ofOutput .clash out) := by
  obtain ⟨inbound, hinbound⟩ := @Vision.exists_inbound Vision.named (by decide)
  obtain ⟨pn, out, hpn, hout⟩ := @Vision.exists_output Vision.named (by decide)
  have hfits : SubscriptionFits .singBox Vision.named.settings :=
    ⟨by decide, .inl (by decide), .inl (by decide)⟩
  exact ⟨inbound, pn, out, hinbound, hpn, hout, ((handshakeAccepted_iff
    (Table.find_eq_some_iff.mpr ⟨List.mem_singleton_self _, rfl⟩)
    (Table.find_eq_some_iff.mpr ⟨List.mem_singleton_self _, rfl⟩) rfl rfl hinbound).1 _
    (Vision.mem_authorizedClients_client _) _ _ _ _ _ hpn hout).mpr hfits⟩

/-- Without a flow in the settings the inbound has one for its users and the clients do not. -/
theorem flow_is_not_subscribed : ¬ ∀ (db : Db) (binding : NodeBinding) (config : ProtocolConfig)
    (inbound : Json), db.nodeBindings.find binding.id = some binding →
    db.protocolConfigs.find binding.protocolConfigId = some config →
    config.protocolType = "vless_reality" → binding.overrideSettings = none →
    inboundFor db binding.nodeId (parseCoreType config.coreType) binding = some inbound →
    ∀ client ∈ authorizedClients db binding.id, ∀ substitute node pn format out,
      (accessibleNode substitute client binding config node .vlessReality).exec db = .ok pn →
      emit format pn = .ok out →
      Accepted (parseCoreType config.coreType) inbound client.id.toStr (ofOutput format out) := by
  intro h
  obtain ⟨inbound, hinbound⟩ := @Vision.exists_inbound (Vision.config []) (by decide)
  obtain ⟨pn, out, hpn, hout⟩ := @Vision.exists_output (Vision.config []) (by decide)
  have hconfig : (Vision.db (Vision.config [])).protocolConfigs.find
      PresetUser.binding.protocolConfigId = some (Vision.config []) :=
    Table.find_eq_some_iff.mpr ⟨List.mem_singleton_self _, rfl⟩
  have hmember := Vision.mem_authorizedClients_client (Vision.config [])
  have haccepted := h (Vision.db (Vision.config [])) PresetUser.binding (Vision.config []) inbound
    (Table.find_eq_some_iff.mpr ⟨List.mem_singleton_self _, rfl⟩) hconfig rfl rfl hinbound _ hmember _ _
    pn .clash out hpn hout
  rw [accepted_iff hconfig rfl rfl hinbound hmember, ofOutput_accessibleNode hpn hout,
    offered_iff] at haccepted
  have hflow : ((Vision.config []).settings.getStr "flow").getD "" = "" := by decide
  have hcore : parseCoreType (Vision.config []).coreType = .singBox := by decide
  rw [hcore] at haccepted
  exact haccepted.1 hflow

end ProxyPanel.Hub.RealityHandshake
