import ProxyPanel.Subscription.Fields

/-!
# The connection an output describes

Server, TLS server name, ALPN and fingerprint of the outputs as a client reads them, and
where each builder takes them from.  The formats do not agree on the order of their sources:
`serverName_emit`, `alpn_emit` and `fingerprint_emit` have the table of each.
-/

namespace ProxyPanel.Subscription

open Json Builder SettingsHelper

/-! ### Reading an output -/

def Output.server : Output → Option String
  | .json value => value.getStr "server"
  | .link l => some l.server

/-- A parameter of a link, decoded. -/
def decodedParam (key : String) (l : Link) : Option String :=
  (param key l.params).bind Text.formDecode

/-- The strings of an array. -/
def strings (value : Json) (key : String) : Option (List String) :=
  (value.getArr key).map fun items => items.filterMap asStr

/-- The TLS server name. -/
def serverName (format : SubscriptionFormat) : Output → Option String
  | .json value =>
    match format with
    | .singBox => (value.get "tls").bind (·.getStr "server_name")
    | _ => (value.getStr "servername").or (value.getStr "sni")
  | .link l => decodedParam "sni" l

def alpn (format : SubscriptionFormat) : Output → Option (List String)
  | .json value =>
    match format with
    | .singBox => (value.get "tls").bind (strings · "alpn")
    | _ => strings value "alpn"
  | .link l => (decodedParam "alpn" l).map (Text.split ',')

/-- The fingerprint of the client that is imitated. -/
def fingerprint (format : SubscriptionFormat) : Output → Option String
  | .json value =>
    match format with
    | .singBox => ((value.get "tls").bind (·.get "utls")).bind (·.getStr "fingerprint")
    | _ => value.getStr "client-fingerprint"
  | .link l => param "fp" l.params

section Read

variable (j : Json)

theorem serverName_singBox : serverName .singBox (.json j) =
    (j.get "tls").bind (·.getStr "server_name") := rfl

theorem serverName_clash : serverName .clash (.json j) =
    (j.getStr "servername").or (j.getStr "sni") := rfl

theorem alpn_singBox : alpn .singBox (.json j) = (j.get "tls").bind (strings · "alpn") := rfl

theorem alpn_clash : alpn .clash (.json j) = strings j "alpn" := rfl

theorem fingerprint_singBox : fingerprint .singBox (.json j) =
    ((j.get "tls").bind (·.get "utls")).bind (·.getStr "fingerprint") := rfl

theorem fingerprint_clash : fingerprint .clash (.json j) = j.getStr "client-fingerprint" := rfl

end Read

/-! ### The sources -/

def serverNameFor (format : SubscriptionFormat) (node : ProxyNode) : Option String :=
  match node.protocol, format with
  | .vlessReality, .base64 => (firstServerName node.settings).filter nonEmpty
  | .vlessReality, _ => some ((firstServerName node.settings).getD "")
  | .vlessXhttp, .base64 => node.tls.bind fun _ => tlsOrSetting node "serverName" "sni"
  | .vlessXhttp, _ => some ((node.tls.bind (·.getStr "serverName")).getD node.server)
  | _, .singBox => some ((tlsOrSetting node "serverName" "sni").getD "")
  | _, .clash => some (((node.settings.getStr "sni").or
      (node.tls.bind (·.getStr "serverName"))).getD node.server)
  | _, .base64 => some ((tlsOrSetting node "serverName" "sni").getD node.server)

def alpnFor (format : SubscriptionFormat) (node : ProxyNode) : Option (List String) :=
  match node.protocol, format with
  | .hysteria2, .base64 =>
    some (Text.split ',' ((tlsOrSetting node "alpn" "alpn").getD "h3"))
  | .hysteria2, _ => some ["h3"]
  | .anytls, .base64 => (tlsOrSetting node "alpn" "alpn").map (Text.split ',')
  | .vlessXhttp, .base64 =>
    (node.tls.bind fun _ => tlsOrSetting node "alpn" "alpn").map (Text.split ',')
  | _, _ => none

def fingerprintFor (format : SubscriptionFormat) (node : ProxyNode) : Option String :=
  match node.protocol, format with
  | .vlessReality, .clash =>
    (firstOr node.settings "client_fingerprint" "fingerprint" "chrome").asStr
  | .vlessReality, _ => some ((node.settings.getStr "fingerprint").getD "chrome")
  | .vlessXhttp, .base64 => node.tls.bind fun _ => tlsOrSetting node "fingerprint" "fingerprint"
  | _, _ => none

/-! ### sing-box -/

section Outbound

variable {node : ProxyNode} {j : Json}

theorem singboxVlessReality_get {uuid : String} (h : singboxVlessReality node uuid = .ok j) :
    j.get "server" = some (str node.server) ∧ ∃ reality, j.get "tls" = some (mkObj [
      ("enabled", bool true),
      ("server_name", str ((firstServerName node.settings).getD "")),
      ("utls", mkObj [("enabled", bool true),
        ("fingerprint", strOr node.settings "fingerprint" "chrome")]),
      ("reality", reality)]) := by
  simp only [singboxVlessReality] at h
  obtain ⟨key, -, h⟩ := Except.bind_eq_ok h
  cases h
  constructor
  · rw [get_setIndex_of_ne _ (by decide), get_ite_setIndex_of_ne _ (by decide),
      get_ite_setIndex_of_ne _ (by decide), get_mkObj]
    rfl
  · exact ⟨_, get_setIndex_self (isObject_ite_setIndex (isObject_ite_setIndex
      (isObject_mkObj _) _ _) _ _) _ _⟩

/-- What the outbounds of the two password protocols have in common. -/
theorem outbound_get (h : buildOutbound node = .ok j) (hreality : node.protocol ≠ .vlessReality) :
    j.get "server" = some (str node.server) ∧ j.get "tls" = some (mkObj (singboxServerTls node ++
      if node.protocol = .hysteria2 then [("alpn", strs ["h3"])] else [])) := by
  rw [buildOutbound] at h
  cases hp : node.protocol with
  | vlessReality => exact absurd hp hreality
  | vlessXhttp =>
    rw [hp] at h
    cases h
  | hysteria2 =>
    rw [hp] at h
    obtain ⟨password, -, h⟩ := Except.bind_eq_ok h
    cases h
    rw [singboxHysteria2_get (by decide), singboxHysteria2_get (by decide), get_mkObj, get_mkObj]
    exact ⟨rfl, rfl⟩
  | anytls =>
    rw [hp] at h
    obtain ⟨password, -, h⟩ := Except.bind_eq_ok h
    cases h
    rw [singboxAnytls, get_mkObj, get_mkObj]
    exact ⟨rfl, rfl⟩

theorem read_buildOutbound (h : buildOutbound node = .ok j) :
    (Output.json j).server = some node.server ∧
      serverName .singBox (.json j) = serverNameFor .singBox node ∧
      alpn .singBox (.json j) = alpnFor .singBox node ∧
      fingerprint .singBox (.json j) = fingerprintFor .singBox node := by
  by_cases hreality : node.protocol = .vlessReality
  · have h' := h
    rw [buildOutbound, hreality] at h'
    obtain ⟨uuid, -, h'⟩ := Except.bind_eq_ok h'
    obtain ⟨hserver, reality, htls⟩ := singboxVlessReality_get h'
    refine ⟨?_, ?_, ?_, ?_⟩
    · rw [Output.server, getStr, hserver]
      rfl
    · unfold serverNameFor
      rw [serverName_singBox, htls, hreality, Option.bind_some, getStr, get_mkObj]
      rfl
    · unfold alpnFor
      rw [alpn_singBox, htls, hreality, Option.bind_some, strings, getArr, get_mkObj]
      rfl
    · unfold fingerprintFor
      rw [fingerprint_singBox, htls, hreality, Option.bind_some, get_mkObj]
      change (mkObj [("enabled", bool true),
        ("fingerprint", strOr node.settings "fingerprint" "chrome")]).getStr "fingerprint" = _
      rw [getStr, get_mkObj]
      rfl
  · obtain ⟨hserver, htls⟩ := outbound_get h hreality
    refine ⟨?_, ?_, ?_, ?_⟩
    · rw [Output.server, getStr, hserver]
      rfl
    · unfold serverNameFor
      rw [serverName_singBox, htls, Option.bind_some, getStr, get_mkObj]
      cases hp : node.protocol with
      | vlessReality => exact absurd hp hreality
      | vlessXhttp =>
        rw [buildOutbound, hp] at h
        cases h
      | hysteria2 => rfl
      | anytls => rfl
    · unfold alpnFor
      rw [alpn_singBox, htls, Option.bind_some, strings, getArr, get_mkObj]
      cases hp : node.protocol with
      | vlessReality => exact absurd hp hreality
      | vlessXhttp => rfl
      | hysteria2 => rfl
      | anytls => rfl
    · unfold fingerprintFor
      rw [fingerprint_singBox, htls, Option.bind_some, get_mkObj]
      cases hp : node.protocol with
      | vlessReality => exact absurd hp hreality
      | vlessXhttp => rfl
      | hysteria2 => rfl
      | anytls => rfl

end Outbound

/-! ### Clash -/

section Proxy

variable {node : ProxyNode} {j : Json}

/-- The base of a VLESS proxy, with the flow if there is one. -/
theorem clashVless_reality (hp : node.protocol = .vlessReality) (uuid : String) :
    (clashVless node uuid).get "servername" =
        some (str ((firstServerName node.settings).getD "")) ∧
      (clashVless node uuid).get "client-fingerprint" =
        some (firstOr node.settings "client_fingerprint" "fingerprint" "chrome") := by
  simp only [clashVless]
  rw [clashTransport_get (by decide), clashTransport_get (by decide), hp]
  constructor
  · rw [clashVlessReality, get_setIndex_of_ne _ (by decide), get_setIndex_of_ne _ (by decide)]
    exact get_setIndex_self (isObject_setIndex (isObject_ite_setIndex (isObject_mkObj _) _ _) _ _)
      _ _
  · rw [clashVlessReality, get_setIndex_of_ne _ (by decide)]
    exact get_setIndex_self (isObject_setIndex (isObject_setIndex
      (isObject_ite_setIndex (isObject_mkObj _) _ _) _ _) _ _) _ _

theorem clashVless_xhttp (hp : node.protocol = .vlessXhttp) (uuid : String) :
    (clashVless node uuid).get "servername" =
        some (str ((node.tls.bind (·.getStr "serverName")).getD node.server)) ∧
      (clashVless node uuid).get "client-fingerprint" = none := by
  simp only [clashVless]
  rw [clashTransport_get (by decide), clashTransport_get (by decide), hp]
  constructor
  · rw [clashVlessXhttp, get_setIndex_of_ne _ (by decide)]
    exact get_setIndex_self (isObject_setIndex (isObject_setIndex
      (isObject_ite_setIndex (isObject_mkObj _) _ _) _ _) _ _) _ _
  · rw [clashVlessXhttp, get_setIndex_of_ne _ (by decide), get_setIndex_of_ne _ (by decide),
      get_setIndex_of_ne _ (by decide), get_setIndex_of_ne _ (by decide),
      get_ite_setIndex_of_ne _ (by decide), get_mkObj]
    rfl

theorem clashVless_base (uuid : String) :
    (clashVless node uuid).get "server" = some (str node.server) ∧
      (clashVless node uuid).get "alpn" = none := by
  obtain ⟨network, hserver⟩ := @clashVless_get "server" (by decide) node uuid
  obtain ⟨network', halpn⟩ := @clashVless_get "alpn" (by decide) node uuid
  rw [hserver, halpn, get_mkObj, get_mkObj]
  exact ⟨rfl, rfl⟩

theorem read_clashVless (uuid : String)
    (hvless : node.protocol = .vlessReality ∨ node.protocol = .vlessXhttp) :
    (Output.json (clashVless node uuid)).server = some node.server ∧
      serverName .clash (.json (clashVless node uuid)) = serverNameFor .clash node ∧
      alpn .clash (.json (clashVless node uuid)) = alpnFor .clash node ∧
      fingerprint .clash (.json (clashVless node uuid)) = fingerprintFor .clash node := by
  obtain ⟨hserver, halpn⟩ := @clashVless_base node uuid
  unfold serverNameFor alpnFor fingerprintFor
  rw [Output.server, serverName_clash, alpn_clash, fingerprint_clash, strings, getArr]
  simp only [getStr]
  rw [hserver, halpn]
  rcases hvless with hp | hp
  · obtain ⟨hname, hfingerprint⟩ := clashVless_reality hp uuid
    rw [hname, hfingerprint, hp]
    exact ⟨rfl, rfl, rfl, rfl⟩
  · obtain ⟨hname, hfingerprint⟩ := clashVless_xhttp hp uuid
    rw [hname, hfingerprint, hp]
    exact ⟨rfl, rfl, rfl, rfl⟩

theorem read_buildProxy (h : buildProxy node = .ok j) :
    (Output.json j).server = some node.server ∧
      serverName .clash (.json j) = serverNameFor .clash node ∧
      alpn .clash (.json j) = alpnFor .clash node ∧
      fingerprint .clash (.json j) = fingerprintFor .clash node := by
  rw [buildProxy] at h
  cases hp : node.protocol with
  | vlessReality =>
    rw [hp] at h
    obtain ⟨uuid, -, h⟩ := Except.bind_eq_ok h
    cases h
    exact read_clashVless uuid (Or.inl hp)
  | vlessXhttp =>
    rw [hp] at h
    obtain ⟨uuid, -, h⟩ := Except.bind_eq_ok h
    cases h
    exact read_clashVless uuid (Or.inr hp)
  | hysteria2 =>
    rw [hp] at h
    obtain ⟨password, -, h⟩ := Except.bind_eq_ok h
    cases h
    unfold serverNameFor alpnFor fingerprintFor
    have hget := fun k hk => @clashHysteria2_get k hk node password
    rw [Output.server, serverName_clash, alpn_clash, fingerprint_clash, strings, getArr, hp]
    simp only [getStr]
    rw [hget "server" (by decide), hget "servername" (by decide), hget "sni" (by decide),
      hget "alpn" (by decide), hget "client-fingerprint" (by decide)]
    simp only [get_mkObj]
    exact ⟨rfl, rfl, rfl, rfl⟩
  | anytls =>
    rw [hp] at h
    obtain ⟨password, -, h⟩ := Except.bind_eq_ok h
    cases h
    unfold serverNameFor alpnFor fingerprintFor
    rw [Output.server, serverName_clash, alpn_clash, fingerprint_clash, strings, getArr,
      clashAnytls, hp]
    simp only [getStr, get_mkObj]
    exact ⟨rfl, rfl, rfl, rfl⟩

end Proxy

/-! ### Share links -/

section Links

variable {node : ProxyNode} {l : Link} {key : String}

/-- A parameter that a transport does not have. -/
theorem param_linkTransport
    (hkey : key ∉ ["path", "host", "serviceName", "mode", "seed", "headerType"]) (network : String)
    (settings : Json) : param key (linkTransport network settings) = none := by
  simp only [List.mem_cons, List.not_mem_nil, or_false, not_or] at hkey
  obtain ⟨hpath, hhost, hservice, hmode, hseed, htype⟩ := hkey
  have hencoded : ∀ k ∈ ["path", "host", "serviceName", "seed"], k ≠ key → ∀ v,
      param key (encodedParam k v) = none := by
    intro k hk hne v
    rw [param_encodedParam, if_neg hne]
    simp only [List.mem_cons, List.not_mem_nil, or_false] at hk
    rcases hk with rfl | rfl | rfl | rfl <;> decide
  have hplain : ∀ k ∈ ["mode", "headerType"], k ≠ key → ∀ v, param key (plainParam k v) = none := by
    intro k hk hne v
    rw [param_plainParam, if_neg hne]
    simp only [List.mem_cons, List.not_mem_nil, or_false] at hk
    rcases hk with rfl | rfl <;> decide
  unfold linkTransport
  split
  · rw [param_append, hencoded "path" (by decide) (Ne.symm hpath),
      hencoded "host" (by decide) (Ne.symm hhost)]
    rfl
  · split
    · exact hencoded "serviceName" (by decide) (Ne.symm hservice) _
    · split
      · rw [param_append, param_append, hencoded "path" (by decide) (Ne.symm hpath),
          hencoded "host" (by decide) (Ne.symm hhost), hplain "mode" (by decide) (Ne.symm hmode)]
        rfl
      · split
        · rw [param_append, hencoded "seed" (by decide) (Ne.symm hseed),
            hplain "headerType" (by decide) (Ne.symm htype)]
          rfl
        · rfl

/-- What comes before the security of a VLESS link has none of these parameters. -/
theorem param_vlessParams (hkey : key ∈ ["sni", "fp", "alpn"]) (network flow : String)
    (settings : Json) (security : List String) :
    param key (plainParam "type" (some network) ++
      (if flow = "" then [] else plainParam "flow" (some flow)) ++ linkTransport network settings ++
      security) = param key security := by
  have htransport : key ∉ ["path", "host", "serviceName", "mode", "seed", "headerType"] := by
    simp only [List.mem_cons, List.not_mem_nil, or_false] at hkey
    rcases hkey with rfl | rfl | rfl <;> decide
  have htype : "type" ≠ key := by rintro rfl; revert hkey; decide
  have hflow : "flow" ≠ key := by rintro rfl; revert hkey; decide
  have hflows : param key (if flow = "" then [] else plainParam "flow" (some flow)) = none := by
    split
    · rfl
    · rw [param_plainParam (by decide), if_neg hflow]
  rw [param_append, param_append, param_append, param_plainParam (by decide), if_neg htype, hflows,
    param_linkTransport htransport]
  rfl

theorem param_realityLink (hp : node.protocol = .vlessReality) {id : String}
    (h : vlessLink node id = .ok l) (hkey : key ∈ ["sni", "fp", "alpn"]) :
    l.server = node.server ∧ ∃ security, linkReality node.settings = .ok security ∧
      param key l.params = param key security := by
  simp only [vlessLink, hp] at h
  obtain ⟨security, hsecurity, h⟩ := Except.bind_eq_ok h
  cases h
  exact ⟨rfl, security, hsecurity, param_vlessParams hkey _ _ _ _⟩

theorem param_xhttpLink (hp : node.protocol = .vlessXhttp) {id : String}
    (h : vlessLink node id = .ok l) (hkey : key ∈ ["sni", "fp", "alpn"]) :
    l.server = node.server ∧ param key l.params = param key (linkTls node) := by
  simp only [vlessLink, hp] at h
  obtain ⟨security, hsecurity, h⟩ := Except.bind_eq_ok h
  cases hsecurity
  cases h
  exact ⟨rfl, param_vlessParams hkey _ _ _ _⟩

theorem param_linkReality {security : List String} (h : linkReality node.settings = .ok security) :
    param "sni" security =
        ((firstServerName node.settings).filter nonEmpty).map Text.formEncode ∧
      param "fp" security = some ((node.settings.getStr "fingerprint").getD "chrome") ∧
      param "alpn" security = none := by
  have hsecurity : ∀ key ∈ ["sni", "fp", "alpn"], param key ["security=reality"] = none := by decide
  obtain ⟨publicKey, -, h⟩ := Except.bind_eq_ok h
  cases h
  simp only [param_append]
  rw [hsecurity "sni" (by decide), hsecurity "fp" (by decide), hsecurity "alpn" (by decide)]
  simp only [param_encodedParam (show '=' ∉ "sni".toList by decide),
    param_encodedParam (show '=' ∉ "pbk".toList by decide),
    param_encodedParam (show '=' ∉ "sid".toList by decide),
    param_encodedParam (show '=' ∉ "spx".toList by decide),
    param_plainParam (show '=' ∉ "fp".toList by decide)]
  refine ⟨?_, ?_, ?_⟩
  · simp
  · simp
  · simp

theorem param_linkTls :
    param "sni" (linkTls node) =
        (node.tls.bind fun _ => tlsOrSetting node "serverName" "sni").map Text.formEncode ∧
      param "fp" (linkTls node) =
        (node.tls.bind fun _ => tlsOrSetting node "fingerprint" "fingerprint") ∧
      param "alpn" (linkTls node) =
        (node.tls.bind fun _ => tlsOrSetting node "alpn" "alpn").map Text.formEncode := by
  have hsecurity : ∀ key ∈ ["sni", "fp", "alpn"], param key ["security=tls"] = none := by decide
  rw [linkTls]
  cases htls : node.tls with
  | none => exact ⟨rfl, rfl, rfl⟩
  | some tls =>
    simp only [param_append, Option.bind_some]
    rw [hsecurity "sni" (by decide), hsecurity "fp" (by decide), hsecurity "alpn" (by decide)]
    simp only [param_encodedParam (show '=' ∉ "sni".toList by decide),
      param_encodedParam (show '=' ∉ "alpn".toList by decide),
      param_plainParam (show '=' ∉ "fp".toList by decide)]
    refine ⟨?_, ?_, ?_⟩
    · simp
    · simp
    · simp

theorem param_linkVerify_key (hkey : key ∈ ["sni", "fp", "alpn"]) (rest : List String) :
    param key (linkVerify node ++ rest) = (if key = "sni" then
      some (Text.formEncode ((tlsOrSetting node "serverName" "sni").getD node.server))
      else none).or (param key rest) := by
  have hinsecure : "insecure" ≠ key := by rintro rfl; revert hkey; decide
  rw [param_append, linkVerify, param_append, param_encodedParam (by decide),
    param_plainParam (by decide), if_neg hinsecure, Option.or_none]
  by_cases hsni : key = "sni"
  · rw [if_pos hsni.symm, if_pos hsni]
    rfl
  · rw [if_neg (Ne.symm hsni), if_neg hsni]

/-- A parameter is read back as it was. -/
theorem decode_map (v : Option String) : (v.map Text.formEncode).bind Text.formDecode = v := by
  cases v with
  | none => rfl
  | some v => rw [Option.map_some, Option.bind_some, Text.formDecode_formEncode]

theorem param_hysteria2Link (password : String) :
    param "sni" (hysteria2Link node password).params =
        some (Text.formEncode ((tlsOrSetting node "serverName" "sni").getD node.server)) ∧
      param "fp" (hysteria2Link node password).params = none ∧
      param "alpn" (hysteria2Link node password).params =
        some (Text.formEncode ((tlsOrSetting node "alpn" "alpn").getD "h3")) := by
  have hmbps : ∀ key ∈ ["sni", "fp", "alpn"], ∀ v, param key (plainParam "upmbps" v) = none ∧
      param key (plainParam "downmbps" v) = none := by
    intro key hkey v
    have hne : "upmbps" ≠ key ∧ "downmbps" ≠ key := by
      constructor <;> · rintro rfl; revert hkey; decide
    rw [param_plainParam (by decide), param_plainParam (by decide), if_neg hne.1, if_neg hne.2]
    exact ⟨rfl, rfl⟩
  have hparam : ∀ key ∈ ["sni", "fp", "alpn"], param key (hysteria2Link node password).params =
      (if key = "sni" then some (Text.formEncode ((tlsOrSetting node "serverName" "sni").getD
        node.server)) else none).or (if "alpn" = key then
          some (Text.formEncode ((tlsOrSetting node "alpn" "alpn").getD "h3")) else none) := by
    intro key hkey
    simp only [hysteria2Link, List.append_assoc]
    rw [param_linkVerify_key hkey, param_append, param_append, param_append,
      (hmbps key hkey _).1, (hmbps key hkey _).2, Option.none_or, Option.none_or,
      @param_encodedParam "alpn" (by decide)]
    refine congrArg _ ?_
    split
    · have hne : "obfs" ≠ key ∧ "obfs-password" ≠ key := by
        constructor <;> · rintro rfl; revert hkey; decide
      rw [param_append, param_plainParam (by decide), param_encodedParam (by decide),
        if_neg hne.1, if_neg hne.2]
      rfl
    · rfl
  refine ⟨?_, ?_, ?_⟩
  · rw [hparam "sni" (by decide)]
    rfl
  · rw [hparam "fp" (by decide)]
    rfl
  · rw [hparam "alpn" (by decide)]
    rfl

theorem param_anytlsLink (password : String) :
    param "sni" (anytlsLink node password).params =
        some (Text.formEncode ((tlsOrSetting node "serverName" "sni").getD node.server)) ∧
      param "fp" (anytlsLink node password).params = none ∧
      param "alpn" (anytlsLink node password).params =
        (tlsOrSetting node "alpn" "alpn").map Text.formEncode := by
  simp only [anytlsLink]
  rw [param_linkVerify_key (by decide), param_linkVerify_key (by decide),
    param_linkVerify_key (by decide), param_encodedParam (by decide),
    param_encodedParam (by decide), param_encodedParam (by decide)]
  exact ⟨rfl, rfl, rfl⟩

theorem read_buildLink (h : buildLink node = .ok l) :
    (Output.link l).server = some node.server ∧
      serverName .base64 (.link l) = serverNameFor .base64 node ∧
      alpn .base64 (.link l) = alpnFor .base64 node ∧
      fingerprint .base64 (.link l) = fingerprintFor .base64 node := by
  rw [buildLink] at h
  unfold serverNameFor alpnFor fingerprintFor serverName alpn fingerprint decodedParam
  simp only
  cases hp : node.protocol with
  | vlessReality =>
    rw [hp] at h
    obtain ⟨id, -, h⟩ := Except.bind_eq_ok h
    obtain ⟨hserver, security, hsecurity, hsni⟩ := @param_realityLink _ _ "sni" hp _ h (by decide)
    obtain ⟨-, security', hsecurity', hfp⟩ := @param_realityLink _ _ "fp" hp _ h (by decide)
    obtain ⟨-, security'', hsecurity'', halpn⟩ := @param_realityLink _ _ "alpn" hp _ h (by decide)
    cases hsecurity.symm.trans hsecurity'
    cases hsecurity.symm.trans hsecurity''
    obtain ⟨hsni', hfp', halpn'⟩ := param_linkReality hsecurity
    rw [hsni, hfp, halpn, hsni', hfp', halpn', decode_map]
    exact ⟨congrArg some hserver, rfl, rfl, rfl⟩
  | vlessXhttp =>
    rw [hp] at h
    obtain ⟨id, -, h⟩ := Except.bind_eq_ok h
    obtain ⟨hserver, hsni⟩ := @param_xhttpLink _ _ "sni" hp _ h (by decide)
    obtain ⟨-, hfp⟩ := @param_xhttpLink _ _ "fp" hp _ h (by decide)
    obtain ⟨-, halpn⟩ := @param_xhttpLink _ _ "alpn" hp _ h (by decide)
    obtain ⟨hsni', hfp', halpn'⟩ := @param_linkTls node
    rw [hsni, hfp, halpn, hsni', hfp', halpn', decode_map, decode_map]
    exact ⟨congrArg some hserver, rfl, rfl, rfl⟩
  | hysteria2 =>
    rw [hp] at h
    obtain ⟨password, -, h⟩ := Except.bind_eq_ok h
    cases h
    obtain ⟨hsni, hfp, halpn⟩ := @param_hysteria2Link node password
    rw [hsni, hfp, halpn, Option.bind_some, Option.bind_some, Text.formDecode_formEncode,
      Text.formDecode_formEncode]
    exact ⟨rfl, rfl, rfl, rfl⟩
  | anytls =>
    rw [hp] at h
    obtain ⟨password, -, h⟩ := Except.bind_eq_ok h
    cases h
    obtain ⟨hsni, hfp, halpn⟩ := @param_anytlsLink node password
    rw [hsni, hfp, halpn, Option.bind_some, Text.formDecode_formEncode, decode_map]
    exact ⟨rfl, rfl, rfl, rfl⟩

end Links

/-- **What each format says about a connection**, from the settings of the node. -/
theorem read_emit {format : SubscriptionFormat} {node : ProxyNode} {out : Output}
    (h : emit format node = .ok out) :
    out.server = some node.server ∧ serverName format out = serverNameFor format node ∧
      alpn format out = alpnFor format node ∧
      fingerprint format out = fingerprintFor format node := by
  rcases emit_cases h with ⟨rfl, j, hj, rfl⟩ | ⟨rfl, j, hj, rfl⟩ | ⟨rfl, l, hl, rfl⟩
  · exact read_buildOutbound hj
  · exact read_buildProxy hj
  · exact read_buildLink hl

end ProxyPanel.Subscription
