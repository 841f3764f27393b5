import ProxyPanel.Config.Builder
import ProxyPanel.Lib.Query

/-!
# Subscription formats

A proxy node becomes a sing-box outbound, a Clash proxy or a share link.  Each
format reads the credential of the client through `clientUuid` or
`clientPassword` and the rest of the settings by key; `emit_congr` is that fact.
-/

namespace ProxyPanel

/-- A node of a subscription, as the output formats receive it. -/
structure ProxyNode where
  name : String
  protocol : ProtocolType
  server : String
  port : Nat
  settings : Json
  tls : Option Json

inductive SubscriptionFormat where
  | base64
  | clash
  | singBox
  deriving DecidableEq, Repr

namespace Subscription

open Json Builder SettingsHelper

/-- A share link.  `user` is the credential before it is encoded. -/
structure Link where
  scheme : String
  user : String
  encodeUser : Bool
  server : String
  port : Nat
  params : List String
  name : String

/-- What one node becomes. -/
inductive Output where
  | json (value : Json)
  | link (link : Link)

/-- The UUID or password an output carries. -/
def Output.credential : Output → Option String
  | json value => value.getStrAny ["uuid", "password"]
  | link l => some l.user

/-- A fragment with spaces as `%20`. -/
def encodeFragment (s : String) : String :=
  String.ofList ((Text.formEncode s).toList.flatMap fun c => if c = '+' then ['%', '2', '0'] else [c])

/-- The text of a link. -/
def Link.render (l : Link) : String :=
  l.scheme ++ "://" ++ (if l.encodeUser then Text.formEncode l.user else l.user) ++ "@" ++ l.server ++
    ":" ++ toString l.port ++ "?" ++ "&".intercalate l.params ++ "#" ++ encodeFragment l.name

/-- The value, or a subscription error. -/
def required (message : String) : Option String → PanelResult String
  | some s => .ok s
  | none => .error (.subscription message)

/-- The first string of a key of the TLS settings, then of a key of the settings. -/
def tlsOrSetting (node : ProxyNode) (tlsKey settingsKey : String) : Option String :=
  (node.tls.bind (·.getStr tlsKey)).or (node.settings.getStr settingsKey)

def skipVerify (node : ProxyNode) : Bool :=
  ((node.settings.get "skip_cert_verify").bind asBool).getD (!tlsHasRealCertificate node.tls)

/-! ### sing-box -/

/-- `j` with `k` set when there is a value. -/
def setSome (j : Json) (k : String) : Option Json → Json
  | some v => j.setIndex k v
  | none => j

def singboxVlessReality (node : ProxyNode) (uuid : String) : PanelResult Json := do
  let flow := (node.settings.getStr "flow").getD ""
  let network := (node.settings.getStr "network").getD "tcp"
  let outbound := mkObj [("type", str "vless"), ("tag", str node.name), ("server", str node.server),
    ("server_port", num node.port), ("uuid", str uuid), ("packet_encoding", str "xudp")]
  let outbound := if flow = "" then outbound else outbound.setIndex "flow" (str flow)
  let transport := setSome (setSome (mkObj [("type", str network)]) "path"
    ((node.settings.getStr "path").map str)) "host" ((node.settings.getStr "host").map str)
  let outbound := if network = "tcp" then outbound else outbound.setIndex "transport" transport
  let publicKey ← required "missing REALITY public_key" (getNonEmpty node.settings "public_key")
  let spiderX := (node.settings.getStr "spider_x").getD ""
  let reality := mkObj [("enabled", bool true), ("public_key", str publicKey),
    ("short_id", str ((firstShortId node.settings).getD ""))]
  let reality := if spiderX = "" then reality else reality.setIndex "spider_x" (str spiderX)
  return outbound.setIndex "tls" (mkObj [("enabled", bool true),
    ("server_name", str ((firstServerName node.settings).getD "")),
    ("utls", mkObj [("enabled", bool true), ("fingerprint", strOr node.settings "fingerprint" "chrome")]),
    ("reality", reality)])

def singboxServerTls (node : ProxyNode) : List (String × Json) :=
  [("enabled", bool true), ("server_name", str ((tlsOrSetting node "serverName" "sni").getD "")),
    ("insecure", bool (skipVerify node))]

def singboxHysteria2 (node : ProxyNode) (password : String) : Json :=
  let outbound := mkObj [("type", str "hysteria2"), ("tag", str node.name),
    ("server", str node.server), ("server_port", num node.port), ("password", str password),
    ("tls", mkObj (singboxServerTls node ++ [("alpn", strs ["h3"])]))]
  let outbound := setSome outbound "up_mbps" ((node.settings.getU64 "up_mbps").map fun n => num n)
  let outbound := setSome outbound "down_mbps" ((node.settings.getU64 "down_mbps").map fun n => num n)
  match node.settings.getStr "obfs_type", node.settings.getStr "obfs_password" with
  | some type, some password =>
    if type = "none" then outbound
    else outbound.setIndex "obfs" (mkObj [("type", str type), ("password", str password)])
  | _, _ => outbound

def singboxAnytls (node : ProxyNode) (password : String) : Json :=
  mkObj [("type", str "anytls"), ("tag", str node.name), ("server", str node.server),
    ("server_port", num node.port), ("password", str password),
    ("tls", mkObj (singboxServerTls node))]

def buildOutbound (node : ProxyNode) : PanelResult Json :=
  match node.protocol with
  | .vlessReality => do
    singboxVlessReality node (← required "missing vless uuid" (clientUuid node.settings))
  | .hysteria2 => do
    return singboxHysteria2 node
      (← required "missing hysteria2 password" (clientPassword node.settings))
  | .anytls => do
    return singboxAnytls node (← required "missing anytls password" (clientPassword node.settings))
  | .vlessXhttp => .error (.subscription "sing-box does not support the vless xhttp transport")

/-! ### Clash -/

/-- The string of the first key that is there, or a default. -/
def firstOr (settings : Json) (k k' default : String) : Json :=
  str ((((settings.get k).or (settings.get k')).bind asStr).getD default)

def clashTransport (network : String) (settings : Json) (tls : Option Json) (proxy : Json) : Json :=
  if network = "ws" then
    proxy.setIndex "ws-opts" (mkObj [("path", strOr settings "path" "/"),
      ("headers", mkObj [("Host", strOr settings "host" "")])])
  else if network = "grpc" then
    proxy.setIndex "grpc-opts" (mkObj [("grpc-service-name", strOr settings "service_name" "")])
  else if network = "tcp" then
    match tls with
    | some tls => setSome (proxy.setIndex "tls" (bool true)) "sni" ((tls.getStr "serverName").map str)
    | none => proxy
  else proxy

def clashVlessReality (node : ProxyNode) (proxy : Json) : Json :=
  (((proxy.setIndex "tls" (bool true)).setIndex
    "servername" (str ((firstServerName node.settings).getD ""))).setIndex
    "client-fingerprint" (firstOr node.settings "client_fingerprint" "fingerprint" "chrome")).setIndex
    "reality-opts" (mkObj [("enabled", bool true), ("public-key", strOr node.settings "public_key" ""),
      ("short-id", str ((firstShortId node.settings).getD ""))])

def clashVlessXhttp (node : ProxyNode) (proxy : Json) : Json :=
  (((proxy.setIndex "tls" (bool true)).setIndex "xhttp-opts" (mkObj [
      ("mode", firstOr node.settings "xhttp_mode" "mode" "auto"),
      ("host", firstOr node.settings "xhttp_host" "host" ""),
      ("path", firstOr node.settings "xhttp_path" "path" "/")])).setIndex
    "servername" (str ((node.tls.bind (·.getStr "serverName")).getD node.server))).setIndex
    "skip-cert-verify" (bool (!tlsHasRealCertificate node.tls))

def clashVless (node : ProxyNode) (uuid : String) : Json :=
  let flow := (node.settings.getStr "flow").getD ""
  let network := match node.protocol with
    | .vlessXhttp => "xhttp"
    | _ => (node.settings.getStr "network").getD "tcp"
  let proxy := mkObj [("name", str node.name), ("type", str "vless"), ("server", str node.server),
    ("port", num node.port), ("uuid", str uuid), ("network", str network), ("udp", bool true)]
  let proxy := if flow = "" then proxy else proxy.setIndex "flow" (str flow)
  let proxy := match node.protocol with
    | .vlessReality => clashVlessReality node proxy
    | .vlessXhttp => clashVlessXhttp node proxy
    | _ => proxy
  clashTransport network node.settings node.tls proxy

/-- The SNI of a Clash proxy: settings before TLS settings. -/
def clashSni (node : ProxyNode) : Json :=
  str (((node.settings.getStr "sni").or (node.tls.bind (·.getStr "serverName"))).getD node.server)

def clashHysteria2 (node : ProxyNode) (password : String) : Json :=
  let proxy := mkObj [("name", str node.name), ("type", str "hysteria2"), ("server", str node.server),
    ("port", num node.port), ("password", str password), ("sni", clashSni node),
    ("skip-cert-verify", bool (skipVerify node)), ("alpn", strs ["h3"]),
    ("up", u64Or node.settings "up_mbps" 100), ("down", u64Or node.settings "down_mbps" 100),
    ("udp", bool true)]
  match node.settings.getStr "obfs_type" with
  | some type =>
    if type = "none" then proxy
    else setSome (proxy.setIndex "obfs" (str type)) "obfs-password"
      ((node.settings.getStr "obfs_password").map str)
  | none => proxy

def clashAnytls (node : ProxyNode) (password : String) : Json :=
  mkObj [("name", str node.name), ("type", str "anytls"), ("server", str node.server),
    ("port", num node.port), ("password", str password), ("sni", clashSni node),
    ("skip-cert-verify", bool (skipVerify node)), ("udp", bool true)]

def buildProxy (node : ProxyNode) : PanelResult Json :=
  match node.protocol with
  | .vlessReality | .vlessXhttp => do
    return clashVless node (← required "missing vless uuid" (clientUuid node.settings))
  | .hysteria2 => do
    return clashHysteria2 node
      (← required "missing hysteria2 password" (clientPassword node.settings))
  | .anytls => do
    return clashAnytls node (← required "missing anytls password" (clientPassword node.settings))

/-! ### Share links -/

/-- `key=value`, encoded, when there is a value. -/
def encodedParam (key : String) : Option String → List String
  | some v => [key ++ "=" ++ Text.formEncode v]
  | none => []

/-- `key=value` as it is, when there is a value. -/
def plainParam (key : String) : Option String → List String
  | some v => [key ++ "=" ++ v]
  | none => []

def linkTransport (network : String) (settings : Json) : List String :=
  if network = "ws" then
    encodedParam "path" (settings.getStr "path") ++ encodedParam "host" (settings.getStr "host")
  else if network = "grpc" then encodedParam "serviceName" (settings.getStr "service_name")
  else if network = "xhttp" then
    encodedParam "path" ((settings.getStr "xhttp_path").or (settings.getStr "path")) ++
      encodedParam "host" ((settings.getStr "xhttp_host").or (settings.getStr "host")) ++
      plainParam "mode" ((settings.getStr "xhttp_mode").or (settings.getStr "mode"))
  else if network = "kcp" ∨ network = "mkcp" then
    encodedParam "seed" (settings.getStr "seed") ++
      plainParam "headerType" (settings.getStr "header_type")
  else []

def linkReality (settings : Json) : PanelResult (List String) := do
  let publicKey ← required "missing REALITY public_key" (getNonEmpty settings "public_key")
  return ["security=reality"] ++ encodedParam "sni" ((firstServerName settings).filter nonEmpty) ++
    encodedParam "pbk" (some publicKey) ++
    encodedParam "sid" ((firstShortId settings).filter nonEmpty) ++
    encodedParam "spx" (getNonEmpty settings "spider_x") ++
    plainParam "fp" (some ((settings.getStr "fingerprint").getD "chrome"))

def linkTls (node : ProxyNode) : List String :=
  match node.tls with
  | none => []
  | some _ => ["security=tls"] ++ encodedParam "sni" (tlsOrSetting node "serverName" "sni") ++
      plainParam "fp" (tlsOrSetting node "fingerprint" "fingerprint") ++
      encodedParam "alpn" (tlsOrSetting node "alpn" "alpn")

def vlessLink (node : ProxyNode) (id : String) : PanelResult Link := do
  let flow := (node.settings.getStr "flow").getD ""
  let network := match node.protocol with
    | .vlessXhttp => "xhttp"
    | _ => (node.settings.getStr "network").getD "tcp"
  let security ← match node.protocol with
    | .vlessReality => linkReality node.settings
    | _ => .ok (linkTls node)
  return {
    scheme := "vless"
    user := id
    encodeUser := false
    server := node.server
    port := node.port
    params := plainParam "type" (some network) ++ (if flow = "" then [] else plainParam "flow" (some flow))
      ++ linkTransport network node.settings ++ security
    name := node.name }

/-- Server name and whether to skip verification. -/
def linkVerify (node : ProxyNode) : List String :=
  encodedParam "sni" (some ((tlsOrSetting node "serverName" "sni").getD node.server)) ++
    plainParam "insecure" (some (if skipVerify node then "1" else "0"))

def hysteria2Link (node : ProxyNode) (password : String) : Link where
  scheme := "hysteria2"
  user := password
  encodeUser := true
  server := node.server
  port := node.port
  params := linkVerify node ++
    plainParam "upmbps" ((node.settings.getU64 "up_mbps").map fun n => toString n) ++
    plainParam "downmbps" ((node.settings.getU64 "down_mbps").map fun n => toString n) ++
    (match (node.settings.getStr "obfs_type").filter (fun t => t ≠ "none") with
      | some type => plainParam "obfs" (some type) ++
          encodedParam "obfs-password" (node.settings.getStr "obfs_password")
      | none => []) ++
    encodedParam "alpn" (some ((tlsOrSetting node "alpn" "alpn").getD "h3"))
  name := node.name

def anytlsLink (node : ProxyNode) (password : String) : Link where
  scheme := "anytls"
  user := password
  encodeUser := true
  server := node.server
  port := node.port
  params := linkVerify node ++ encodedParam "alpn" (tlsOrSetting node "alpn" "alpn")
  name := node.name

def buildLink (node : ProxyNode) : PanelResult Link :=
  match node.protocol with
  | .vlessReality | .vlessXhttp => do
    vlessLink node (← required "missing vless id" (clientUuid node.settings))
  | .hysteria2 => do
    return hysteria2Link node
      (← required "missing hysteria2 password" (clientPassword node.settings))
  | .anytls => do
    return anytlsLink node (← required "missing anytls password" (clientPassword node.settings))

/-! ### Subscriptions -/

/-- What a node becomes in a format. -/
def emit (format : SubscriptionFormat) (node : ProxyNode) : PanelResult Output :=
  match format with
  | .singBox => .json <$> buildOutbound node
  | .clash => .json <$> buildProxy node
  | .base64 => .link <$> buildLink node

/-- The sing-box generator leaves out the protocols it does not support. -/
def isSupported (format : SubscriptionFormat) (protocol : ProtocolType) : Bool :=
  match format with
  | .singBox => protocol ≠ .vlessXhttp
  | _ => true

/-- A whole subscription.  `render` puts outputs and names into the template of
the format and writes them as text. -/
def generateSubscription (render : List Output → List String → PanelResult String)
    (format : SubscriptionFormat) (nodes : List ProxyNode) : PanelResult String := do
  let supported := nodes.filter fun n => isSupported format n.protocol
  let outputs ← supported.mapM (emit format)
  render outputs (supported.map (·.name))

/-! ### What an output depends on -/

/-- The keys a credential is read from. -/
def credentialKeys : List String := ["clients", "id", "uuid", "password"]

/-- The credential the formats read for a protocol. -/
def credentialOf (protocol : ProtocolType) (settings : Json) : Option String :=
  if protocol.isVless then clientUuid settings else clientPassword settings

/-- The UUID or password of a JSON output. -/
abbrev jsonCredential (j : Json) : Option String := j.getStrAny ["uuid", "password"]

theorem jsonCredential_mkObj (es : List (String × Json)) : jsonCredential (mkObj es) =
    ((es.reverse.lookup "uuid").bind asStr).or ((es.reverse.lookup "password").bind asStr) := by
  simp only [jsonCredential, getStrAny, List.findSome?_cons, getStr, get_mkObj, List.findSome?_nil]
  cases (es.reverse.lookup "uuid").bind asStr with
  | some _ => rfl
  | none => cases (es.reverse.lookup "password").bind asStr <;> rfl

theorem jsonCredential_setIndex (j : Json) {k : String} (h : k ∉ ["uuid", "password"]) (v : Json) :
    jsonCredential (j.setIndex k v) = jsonCredential j := by
  have hget : ∀ k' ∈ ["uuid", "password"], (j.setIndex k v).getStr k' = j.getStr k' := by
    intro k' hk'
    have hne : k' ≠ k := fun he => h (he ▸ hk')
    rw [getStr, getStr, get_setIndex_of_ne j hne]
  simp only [jsonCredential, getStrAny, List.findSome?_cons, hget "uuid" (by decide),
    hget "password" (by decide), List.findSome?_nil]

theorem jsonCredential_setSome (j : Json) {k : String} (h : k ∉ ["uuid", "password"])
    (v : Option Json) : jsonCredential (setSome j k v) = jsonCredential j := by
  cases v with
  | none => rfl
  | some v => exact jsonCredential_setIndex j h v

theorem jsonCredential_ite_setIndex {p : Prop} [Decidable p] {j : Json} {k : String}
    {c : Option String} (h : k ∉ ["uuid", "password"]) (v : Json) (hj : jsonCredential j = c) :
    jsonCredential (if p then j else j.setIndex k v) = c := by
  split
  · exact hj
  · exact (jsonCredential_setIndex j h v).trans hj

theorem required_eq_ok {message : String} {o : Option String} {s : String}
    (h : required message o = .ok s) : o = some s := by
  cases o with
  | none => cases h
  | some _ => exact congrArg some (Except.ok.inj h)

theorem credential_singboxVlessReality {node : ProxyNode} {uuid : String} {j : Json}
    (h : singboxVlessReality node uuid = .ok j) : jsonCredential j = some uuid := by
  simp only [singboxVlessReality] at h
  obtain ⟨key, -, h⟩ := Except.bind_eq_ok h
  cases h
  rw [jsonCredential_setIndex _ (by decide)]
  exact jsonCredential_ite_setIndex (by decide) _ (jsonCredential_ite_setIndex (by decide) _
    (jsonCredential_mkObj _))

theorem credential_singboxHysteria2 (node : ProxyNode) (password : String) :
    jsonCredential (singboxHysteria2 node password) = some password := by
  simp only [singboxHysteria2]
  split
  · split
    · rw [jsonCredential_setSome _ (by decide), jsonCredential_setSome _ (by decide)]
      exact jsonCredential_mkObj _
    · rw [jsonCredential_setIndex _ (by decide), jsonCredential_setSome _ (by decide),
        jsonCredential_setSome _ (by decide)]
      exact jsonCredential_mkObj _
  · rw [jsonCredential_setSome _ (by decide), jsonCredential_setSome _ (by decide)]
    exact jsonCredential_mkObj _

theorem credential_clashTransport (network : String) (settings : Json) (tls : Option Json)
    (proxy : Json) : jsonCredential (clashTransport network settings tls proxy) =
      jsonCredential proxy := by
  unfold clashTransport
  split
  · exact jsonCredential_setIndex _ (by decide) _
  · split
    · exact jsonCredential_setIndex _ (by decide) _
    · split
      · split
        · rw [jsonCredential_setSome _ (by decide), jsonCredential_setIndex _ (by decide)]
        · rfl
      · rfl

theorem credential_clashVless (node : ProxyNode) (uuid : String) :
    jsonCredential (clashVless node uuid) = some uuid := by
  simp only [clashVless]
  rw [credential_clashTransport]
  cases node.protocol with
  | vlessReality =>
    simp only [clashVlessReality]
    rw [jsonCredential_setIndex _ (by decide), jsonCredential_setIndex _ (by decide),
      jsonCredential_setIndex _ (by decide), jsonCredential_setIndex _ (by decide)]
    exact jsonCredential_ite_setIndex (by decide) _ (jsonCredential_mkObj _)
  | vlessXhttp =>
    simp only [clashVlessXhttp]
    rw [jsonCredential_setIndex _ (by decide), jsonCredential_setIndex _ (by decide),
      jsonCredential_setIndex _ (by decide), jsonCredential_setIndex _ (by decide)]
    exact jsonCredential_ite_setIndex (by decide) _ (jsonCredential_mkObj _)
  | hysteria2 => exact jsonCredential_ite_setIndex (by decide) _ (jsonCredential_mkObj _)
  | anytls => exact jsonCredential_ite_setIndex (by decide) _ (jsonCredential_mkObj _)

theorem credential_clashHysteria2 (node : ProxyNode) (password : String) :
    jsonCredential (clashHysteria2 node password) = some password := by
  simp only [clashHysteria2]
  split
  · split
    · exact jsonCredential_mkObj _
    · rw [jsonCredential_setSome _ (by decide), jsonCredential_setIndex _ (by decide)]
      exact jsonCredential_mkObj _
  · exact jsonCredential_mkObj _

theorem credential_buildOutbound {node : ProxyNode} {j : Json} (h : buildOutbound node = .ok j) :
    ∃ c, credentialOf node.protocol node.settings = some c ∧ jsonCredential j = some c := by
  rw [buildOutbound] at h
  cases hp : node.protocol with
  | vlessReality =>
    rw [hp] at h
    obtain ⟨uuid, huuid, h⟩ := Except.bind_eq_ok h
    exact ⟨uuid, required_eq_ok huuid, credential_singboxVlessReality h⟩
  | vlessXhttp => rw [hp] at h; cases h
  | hysteria2 =>
    rw [hp] at h
    obtain ⟨password, hpassword, h⟩ := Except.bind_eq_ok h
    cases h
    exact ⟨password, required_eq_ok hpassword, credential_singboxHysteria2 node password⟩
  | anytls =>
    rw [hp] at h
    obtain ⟨password, hpassword, h⟩ := Except.bind_eq_ok h
    cases h
    exact ⟨password, required_eq_ok hpassword, jsonCredential_mkObj _⟩

theorem credential_buildProxy {node : ProxyNode} {j : Json} (h : buildProxy node = .ok j) :
    ∃ c, credentialOf node.protocol node.settings = some c ∧ jsonCredential j = some c := by
  rw [buildProxy] at h
  cases hp : node.protocol with
  | vlessReality | vlessXhttp =>
    rw [hp] at h
    obtain ⟨uuid, huuid, h⟩ := Except.bind_eq_ok h
    cases h
    exact ⟨uuid, required_eq_ok huuid, credential_clashVless node uuid⟩
  | hysteria2 =>
    rw [hp] at h
    obtain ⟨password, hpassword, h⟩ := Except.bind_eq_ok h
    cases h
    exact ⟨password, required_eq_ok hpassword, credential_clashHysteria2 node password⟩
  | anytls =>
    rw [hp] at h
    obtain ⟨password, hpassword, h⟩ := Except.bind_eq_ok h
    cases h
    exact ⟨password, required_eq_ok hpassword, jsonCredential_mkObj _⟩

theorem user_vlessLink {node : ProxyNode} {id : String} {l : Link} (h : vlessLink node id = .ok l) :
    l.user = id := by
  simp only [vlessLink] at h
  split at h <;>
  · obtain ⟨security, -, h⟩ := Except.bind_eq_ok h
    cases h
    rfl

theorem credential_buildLink {node : ProxyNode} {l : Link} (h : buildLink node = .ok l) :
    credentialOf node.protocol node.settings = some l.user := by
  rw [buildLink] at h
  cases hp : node.protocol with
  | vlessReality | vlessXhttp =>
    rw [hp] at h
    obtain ⟨uuid, huuid, h⟩ := Except.bind_eq_ok h
    rw [user_vlessLink h]
    exact required_eq_ok huuid
  | hysteria2 | anytls =>
    rw [hp] at h
    obtain ⟨password, hpassword, h⟩ := Except.bind_eq_ok h
    cases h
    exact required_eq_ok hpassword

/-- Every output carries the credential the helpers read. -/
theorem credential_emit {format : SubscriptionFormat} {node : ProxyNode} {out : Output}
    (h : emit format node = .ok out) :
    ∃ c, credentialOf node.protocol node.settings = some c ∧ out.credential = some c := by
  cases format with
  | singBox =>
    cases hj : buildOutbound node with
    | error e => rw [emit, hj] at h; cases h
    | ok j => rw [emit, hj] at h; cases h; exact credential_buildOutbound hj
  | clash =>
    cases hj : buildProxy node with
    | error e => rw [emit, hj] at h; cases h
    | ok j => rw [emit, hj] at h; cases h; exact credential_buildProxy hj
  | base64 =>
    cases hl : buildLink node with
    | error e => rw [emit, hl] at h; cases h
    | ok l => rw [emit, hl] at h; cases h; exact ⟨l.user, credential_buildLink hl, rfl⟩

/-- A Clash proxy needs nothing but a credential. -/
theorem emit_clash_of_credential {node : ProxyNode} {c : String}
    (h : credentialOf node.protocol node.settings = some c) :
    ∃ out, emit .clash node = .ok out ∧ out.credential = some c := by
  have hout : ∃ out, emit .clash node = .ok out := by
    rw [credentialOf] at h
    rw [emit, buildProxy]
    cases hp : node.protocol <;> rw [hp] at h
    · rw [show clientUuid node.settings = some c from h]
      exact ⟨_, rfl⟩
    · rw [show clientUuid node.settings = some c from h]
      exact ⟨_, rfl⟩
    · rw [show clientPassword node.settings = some c from h]
      exact ⟨_, rfl⟩
    · rw [show clientPassword node.settings = some c from h]
      exact ⟨_, rfl⟩
  obtain ⟨out, hout⟩ := hout
  obtain ⟨c', hc', hcredential⟩ := credential_emit hout
  exact ⟨out, hout, hcredential.trans (hc'.symm.trans h)⟩

section Congr

variable {node : ProxyNode} {settings : Json}
  (hget : ∀ k, k ∉ credentialKeys → settings.get k = node.settings.get k)
  (hcredential : credentialOf node.protocol settings = credentialOf node.protocol node.settings)

include hget hcredential

theorem buildOutbound_congr :
    buildOutbound { node with settings := settings } = buildOutbound node := by
  simp only [buildOutbound]
  cases hp : node.protocol with
  | vlessReality =>
    rw [hp] at hcredential
    have huuid : clientUuid settings = clientUuid node.settings := hcredential
    simp (disch := decide) only [huuid, singboxVlessReality, getNonEmpty, firstServerName,
      firstShortId, strOr, getStr, hget]
    rfl
  | vlessXhttp => rfl
  | hysteria2 =>
    rw [hp] at hcredential
    have hpassword : clientPassword settings = clientPassword node.settings := hcredential
    simp (disch := decide) only [hpassword, singboxHysteria2, singboxServerTls, skipVerify,
      tlsOrSetting, getStr, getU64, hget]
  | anytls =>
    rw [hp] at hcredential
    have hpassword : clientPassword settings = clientPassword node.settings := hcredential
    simp (disch := decide) only [hpassword, singboxAnytls, singboxServerTls, skipVerify,
      tlsOrSetting, getStr, hget]

theorem buildProxy_congr : buildProxy { node with settings := settings } = buildProxy node := by
  simp only [buildProxy]
  cases hp : node.protocol with
  | vlessReality | vlessXhttp =>
    rw [hp] at hcredential
    have huuid : clientUuid settings = clientUuid node.settings := hcredential
    simp (disch := decide) only [huuid, hp, clashVless, clashVlessReality, clashVlessXhttp,
      clashTransport, firstServerName, firstShortId, firstOr, strOr, getStr, hget]
  | hysteria2 =>
    rw [hp] at hcredential
    have hpassword : clientPassword settings = clientPassword node.settings := hcredential
    simp (disch := decide) only [hpassword, clashHysteria2, clashSni, skipVerify, u64Or, getStr,
      getU64, hget]
  | anytls =>
    rw [hp] at hcredential
    have hpassword : clientPassword settings = clientPassword node.settings := hcredential
    simp (disch := decide) only [hpassword, clashAnytls, clashSni, skipVerify, getStr, hget]

theorem buildLink_congr : buildLink { node with settings := settings } = buildLink node := by
  simp only [buildLink]
  cases hp : node.protocol with
  | vlessReality | vlessXhttp =>
    rw [hp] at hcredential
    have huuid : clientUuid settings = clientUuid node.settings := hcredential
    simp (disch := decide) only [huuid, hp, vlessLink, linkTransport, linkReality, linkTls,
      tlsOrSetting, getNonEmpty, firstServerName, firstShortId, getStr, hget]
    rfl
  | hysteria2 =>
    rw [hp] at hcredential
    have hpassword : clientPassword settings = clientPassword node.settings := hcredential
    simp (disch := decide) only [hpassword, hysteria2Link, linkVerify, skipVerify, tlsOrSetting,
      getStr, getU64, hget]
    rfl
  | anytls =>
    rw [hp] at hcredential
    have hpassword : clientPassword settings = clientPassword node.settings := hcredential
    simp (disch := decide) only [hpassword, anytlsLink, linkVerify, skipVerify, tlsOrSetting,
      getStr, hget]
    rfl

/-- Besides the credential, an output depends on the other keys of the settings. -/
theorem emit_congr (format : SubscriptionFormat) :
    emit format { node with settings := settings } = emit format node := by
  cases format with
  | singBox => exact congrArg (Output.json <$> ·) (buildOutbound_congr hget hcredential)
  | clash => exact congrArg (Output.json <$> ·) (buildProxy_congr hget hcredential)
  | base64 => exact congrArg (Output.link <$> ·) (buildLink_congr hget hcredential)

end Congr

/-- A subscription depends on its nodes through their names, protocols and outputs. -/
theorem generateSubscription_congr {render : List Output → List String → PanelResult String}
    {format : SubscriptionFormat} {n n' : ProxyNode} (hname : n'.name = n.name)
    (hprotocol : n'.protocol = n.protocol) (hemit : emit format n' = emit format n)
    (before after : List ProxyNode) :
    generateSubscription render format (before ++ n' :: after) =
      generateSubscription render format (before ++ n :: after) := by
  simp only [generateSubscription, List.filter_append, List.filter_cons, hprotocol]
  cases isSupported format n.protocol with
  | false => rfl
  | true => simp [List.mapM_append, List.mapM_cons, hemit, hname]

end Subscription

end ProxyPanel
