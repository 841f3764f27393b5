import Mathlib.Data.List.Basic
import ProxyPanel.Lib.Query
import ProxyPanel.Config.Builder

/-!
# The sing-box configuration builder

Each inbound carries its users as an array of objects.  They come from the
`clients` array of the settings; without one, a single user comes from the
placeholder `uuid` or `password` when it is not empty.  `get_users_…` says that
the inbound that is built carries exactly these users.
-/

namespace ProxyPanel.SingBox

open Json Builder

/-! ### Users -/

/-- A user of a VLESS inbound. -/
def vlessUser (c : Json) : Json :=
  let user := mkObj [("uuid", strOr c "id" ""), ("name", strOr c "email" "")]
  match c.getStr "flow" with
  | some flow => if flow = "" then user else user.setIndex "flow" (str flow)
  | none => user

/-- `clients` (id, email, flow) as users (uuid, name, flow). -/
def vlessClientsToUsers (settings : Json) : List Json :=
  match settings.getArr "clients" with
  | some clients => clients.map vlessUser
  | none =>
    let uuid := (settings.getStr "uuid").getD ""
    if uuid = "" then [] else [mkObj [("uuid", str uuid), ("name", str "")]]

def passwordUser (c : Json) : Json :=
  mkObj [("name", strOr c "name" ""), ("password", strOr c "password" "")]

/-- `clients` with a password as users (name, password). -/
def passwordClientsToUsers (settings : Json) : List Json :=
  match settings.getArr "clients" with
  | some clients => clients.map passwordUser
  | none =>
    let password := (settings.getStr "password").getD ""
    if password = "" then [] else [mkObj [("name", str ""), ("password", str password)]]

/-! ### Transport and TLS -/

/-- The transport object, `null` for plain TCP. -/
def buildTransport (network : String) (settings : Json) : Json :=
  if network = "ws" then
    let host := (settings.getStr "host").getD ""
    mkObj [("type", str "ws"), ("path", strOr settings "path" "/"),
      ("headers", if host = "" then mkObj [] else mkObj [("Host", str host)])]
  else if network = "grpc" then
    mkObj [("type", str "grpc"), ("service_name", strOr settings "service_name" "")]
  else if network = "httpupgrade" ∨ network = "xhttp" then
    mkObj [("type", str "httpupgrade"),
      ("path", str ((settings.getStrAny ["path", "xhttp_path"]).getD "/")),
      ("host", str ((settings.getStrAny ["host", "xhttp_host"]).getD ""))]
  else null

/-- The TLS object with REALITY, when destination and private key are there. -/
def buildRealityTls (settings : Json) : Option Json := do
  let dest ← settings.getStrAny ["reality_dest", "dest"]
  if dest = "" then none
  let privateKey ← settings.getStrAny ["reality_private_key", "private_key"]
  if privateKey = "" then none
  let (server, serverPort) := match Text.rsplitOnce ':' dest with
    | some (host, port) => (host, (Text.parseUnsigned (2 ^ 64 - 1) port).getD 443)
    | none => (dest, 443)
  let serverName := (SettingsHelper.firstServerName settings).getD server
  let shortIds := match SettingsHelper.firstShortId settings with
    | some id => [id]
    | none =>
      match ((settings.get "reality_short_id").or (settings.get "short_id")).bind asStr with
      | some s => Text.commaPieces s
      | none => []
  return mkObj [("enabled", bool true), ("server_name", str serverName),
    ("reality", mkObj [("enabled", bool true),
      ("handshake", mkObj [("server", str server), ("server_port", num serverPort)]),
      ("private_key", str privateKey),
      ("short_id", if shortIds = [] then strs [""] else strs shortIds)])]

/-- The certificate of a server: managed, given as files, or by ACME. -/
def buildServerTls (tls : Option Json) : PanelResult Json :=
  match tls with
  | none => .error (.validation "TLS configuration is required")
  | some tls =>
    let managed := (tls.getStr "managed_domain").getD ""
    let certFile := (tls.getStr "certFile").getD ""
    let keyFile := (tls.getStr "keyFile").getD ""
    let domain := (tls.getStr "domain").getD ""
    if managed ≠ "" then
      .ok (mkObj [("enabled", bool true),
        ("certificate_path", str ("certs/" ++ managed ++ ".crt")),
        ("key_path", str ("certs/" ++ managed ++ ".key"))])
    else if certFile ≠ "" ∧ keyFile ≠ "" then
      .ok (mkObj [("enabled", bool true), ("certificate_path", str certFile),
        ("key_path", str keyFile)])
    else if domain ≠ "" then
      .ok (mkObj [("enabled", bool true),
        ("acme", mkObj [("domain", strs [domain]), ("data_directory", str "acme")])])
    else .error (.validation "TLS requires certFile+keyFile or a domain for ACME")

/-! ### Inbounds -/

/-- The fields every inbound starts with. -/
def inboundBase (type tag : String) (settings : Json) (users : List Json) : Json :=
  mkObj [("type", str type), ("tag", strOr settings "tag" tag),
    ("listen", strOr settings "listen" "::"), ("listen_port", u64Or settings "port" 443),
    ("users", arr users)]

def buildVlessInbound (settings : Json) : PanelResult Json :=
  let flow := (settings.getStr "flow").getD ""
  let network := (settings.getStr "network").getD "tcp"
  -- a flow of the settings overrides the flow of every user
  let users := if flow = "" then vlessClientsToUsers settings
    else (vlessClientsToUsers settings).map (·.setIndex "flow" (str flow))
  let inbound := inboundBase "vless" "vless-in" settings users
  let inbound := match buildTransport network settings with
    | null => inbound
    | transport => inbound.setIndex "transport" transport
  match buildRealityTls settings with
  | some tls => .ok (inbound.setIndex "tls" tls)
  | none => .error (.validation "VLESS+REALITY requires reality_dest and reality_private_key")

def buildHysteria2Inbound (settings : Json) (tls : Option Json) : PanelResult Json := do
  let obfsType := (settings.getStr "obfs_type").getD "none"
  let obfsPassword := (settings.getStr "obfs_password").getD ""
  let tls ← buildServerTls tls
  let inbound := (((inboundBase "hysteria2" "hy2-in" settings (passwordClientsToUsers settings)).set
    "tls" (tls.setIndex "alpn" (strs ["h3"]))).set
    "up_mbps" (u64Or settings "up_mbps" 100)).set "down_mbps" (u64Or settings "down_mbps" 100)
  return if obfsType ≠ "none" ∧ obfsPassword ≠ "" then
      inbound.setIndex "obfs" (mkObj [("type", str obfsType), ("password", str obfsPassword)])
    else inbound

def buildAnytlsInbound (settings : Json) (tls : Option Json) : PanelResult Json := do
  let tls ← buildServerTls tls
  let inbound := (inboundBase "anytls" "anytls-in" settings (passwordClientsToUsers settings)).set
    "tls" tls
  return match settings.getStr "masquerade" with
    | some masquerade =>
      if masquerade = "" then inbound else inbound.setIndex "masquerade" (str masquerade)
    | none => inbound

def buildInbound (protocol : ProtocolType) (settings : Json) (tls : Option Json) :
    PanelResult Json :=
  match protocol with
  | .vlessReality => buildVlessInbound settings
  | .hysteria2 => buildHysteria2Inbound settings tls
  | .anytls => buildAnytlsInbound settings tls
  | .vlessXhttp => .error (.config
      ("protocol " ++ protocol.debug ++ " not supported by sing-box"))

/-- The protocols whose inbound may be left out for want of a certificate. -/
def needsTls : ProtocolType → Bool
  | .hysteria2 => true
  | .anytls => true
  | _ => false

/-! ### The API services -/

/-- The numbers in a version text; those that do not fit 32 bits are ignored. -/
def versionParts (v : String) : List Nat :=
  (Text.digitRuns v).filterMap (Text.parseUnsigned (2 ^ 32 - 1))

def versionGte (version target : String) : Bool := ¬ versionParts version < versionParts target

/-- The greatest version the inbounds ask for. -/
def effectiveVersion (inbounds : List InboundConfig) : String :=
  match (inbounds.filterMap (·.coreVersion)).filter (fun v => v ≠ "") with
  | [] => "1.14.0"
  | v :: vs => vs.foldl (fun best v => if versionParts v < versionParts best then best else v) v

def apiListen (env : Env) : String :=
  (env.singboxApiListen.or env.singboxHttpApiListen).getD "127.0.0.1:9090"

def apiSecret (env : Env) : String := env.singboxApiSecret.getD ""

def withSecret (env : Env) (api : Json) : Json :=
  if apiSecret env = "" then api else api.setIndex "secret" (str (apiSecret env))

/-- Host and port of a listen address, port 9090 when it has none. -/
def splitListenAddr (listen : String) : String × Nat :=
  match Text.rsplitOnce ':' listen with
  | some (addr, port) => (addr, (Text.parseUnsigned (2 ^ 16 - 1) port).getD 9090)
  | none => (listen, 9090)

/-- The API service of sing-box 1.14 and later. -/
def buildApiService (env : Env) : Json :=
  let (addr, port) := splitListenAddr (apiListen env)
  arr [withSecret env (mkObj [("type", str "api"), ("listen", str addr),
    ("listen_port", num port)])]

/-- The Clash API the 1.14 service needs beside it. -/
def buildClashApiExperimental (env : Env) : Json :=
  mkObj [("clash_api", withSecret env
    (mkObj [("external_controller", str (env.singboxClashApiListen.getD "127.0.0.1:9091"))]))]

/-- The Clash API of older versions. -/
def buildLegacyApiServices (env : Env) : Json :=
  mkObj [("clash_api", withSecret env (mkObj [("external_controller", str (apiListen env))]))]

def buildRoute : Json :=
  mkObj [("auto_detect_interface", bool true),
    ("rules", arr [mkObj [("protocol", str "bittorrent"), ("outbound", str "block")]])]

def buildFullConfig (env : Env) (inbounds : List InboundConfig) : PanelResult Json := do
  let values ← buildInbounds (fun ib => buildInbound ib.protocol ib.settings ib.tls) needsTls inbounds
  let config := mkObj [("log", mkObj [("level", str "warning"), ("timestamp", bool true)]),
    ("inbounds", arr values),
    ("outbounds", arr [mkObj [("type", str "direct"), ("tag", str "direct")],
      mkObj [("type", str "block"), ("tag", str "block")]]),
    ("route", buildRoute)]
  return if versionGte (effectiveVersion inbounds) "1.14.0" then
      (config.setIndex "services" (buildApiService env)).setIndex
        "experimental" (buildClashApiExperimental env)
    else config.setIndex "experimental" (buildLegacyApiServices env)


/-! ### Where an inbound listens -/

/-- The fields of an inbound that say where it listens. -/
def listenFields (settings : Json) : Json :=
  mkObj [("listen", strOr settings "listen" "::"), ("listen_port", u64Or settings "port" 443)]

theorem get_inboundBase (type tag : String) (settings : Json) (users : List Json) {k : String}
    (hk : k ∈ ["listen", "listen_port"]) :
    (inboundBase type tag settings users).get k = (listenFields settings).get k := by
  simp only [List.mem_cons, List.not_mem_nil, or_false] at hk
  rcases hk with rfl | rfl <;> rw [inboundBase, get_mkObj, listenFields, get_mkObj] <;> rfl

/-- No later step of a builder names or moves the inbound. -/
theorem get_buildInbound_base {protocol : ProtocolType} {settings inbound : Json} {tls : Option Json}
    (h : buildInbound protocol settings tls = .ok inbound) {k : String}
    (hk : k ∈ ["tag", "listen", "listen_port"]) :
    ∃ type tag users, inbound.get k = (inboundBase type tag settings users).get k := by
  have hne : ∀ k' : String, k' ∉ ["tag", "listen", "listen_port"] → k ≠ k' := by
    intro k' hk' heq
    exact hk' (heq ▸ hk)
  cases protocol with
  | vlessReality =>
    simp only [buildInbound, buildVlessInbound] at h
    cases htls : buildRealityTls settings with
    | none =>
      rw [htls] at h
      cases h
    | some tls =>
      rw [htls] at h
      cases h
      rw [get_setIndex_of_ne _ (hne "tls" (by decide))]
      split
      · exact ⟨_, _, _, rfl⟩
      · rw [get_setIndex_of_ne _ (hne "transport" (by decide))]
        exact ⟨_, _, _, rfl⟩
  | vlessXhttp => cases h
  | hysteria2 =>
    obtain ⟨cert, -, h⟩ := Except.bind_eq_ok (show _ >>= _ = _ from h)
    cases h
    split
    · rw [get_setIndex_of_ne _ (hne "obfs" (by decide)), get_set_of_ne _ (hne "down_mbps" (by decide)),
        get_set_of_ne _ (hne "up_mbps" (by decide)), get_set_of_ne _ (hne "tls" (by decide))]
      exact ⟨_, _, _, rfl⟩
    · rw [get_set_of_ne _ (hne "down_mbps" (by decide)), get_set_of_ne _ (hne "up_mbps" (by decide)),
        get_set_of_ne _ (hne "tls" (by decide))]
      exact ⟨_, _, _, rfl⟩
  | anytls =>
    obtain ⟨cert, -, h⟩ := Except.bind_eq_ok (show _ >>= _ = _ from h)
    have hbase : ((inboundBase "anytls" "anytls-in" settings (passwordClientsToUsers settings)).set
        "tls" cert).get k =
        (inboundBase "anytls" "anytls-in" settings (passwordClientsToUsers settings)).get k :=
      get_set_of_ne _ (hne "tls" (by decide)) cert
    cases h
    split
    · split
      · exact ⟨_, _, _, hbase⟩
      · rw [get_setIndex_of_ne _ (hne "masquerade" (by decide))]
        exact ⟨_, _, _, hbase⟩
    · exact ⟨_, _, _, hbase⟩

theorem get_buildInbound {protocol : ProtocolType} {settings inbound : Json} {tls : Option Json}
    (h : buildInbound protocol settings tls = .ok inbound) {k : String}
    (hk : k ∈ ["listen", "listen_port"]) : inbound.get k = (listenFields settings).get k := by
  obtain ⟨type, tag, users, hget⟩ := get_buildInbound_base h (List.mem_cons_of_mem _ hk)
  rw [hget, get_inboundBase _ _ _ _ hk]

/-- An inbound keeps the tag of its settings. -/
theorem getStr_tag_buildInbound {protocol : ProtocolType} {settings inbound : Json}
    {tls : Option Json} (h : buildInbound protocol settings tls = .ok inbound) {tag : String}
    (htag : settings.getStr "tag" = some tag) : inbound.getStr "tag" = some tag := by
  obtain ⟨type, name, users, hget⟩ := get_buildInbound_base (k := "tag") h (by decide)
  rw [getStr, hget, inboundBase, strOr, htag, get_mkObj]
  rfl

/-- The certificate a server can use: managed, given as files, or by ACME. -/
def hasCertificate (tls : Option Json) : Prop :=
  ∃ settings, tls = some settings ∧ ((settings.getStr "managed_domain").getD "" ≠ "" ∨
    ((settings.getStr "certFile").getD "" ≠ "" ∧ (settings.getStr "keyFile").getD "" ≠ "") ∨
    (settings.getStr "domain").getD "" ≠ "")

theorem exists_buildServerTls {tls : Option Json} :
    (∃ cert, buildServerTls tls = .ok cert) ↔ hasCertificate tls := by
  cases tls with
  | none =>
    refine iff_of_false ?_ ?_
    · rintro ⟨cert, h⟩
      cases h
    · rintro ⟨settings, h, -⟩
      cases h
  | some settings =>
    simp only [buildServerTls, hasCertificate, Option.some.injEq, exists_eq_left']
    split
    · rename_i hmanaged
      exact iff_of_true ⟨_, rfl⟩ (Or.inl hmanaged)
    · rename_i hmanaged
      split
      · rename_i hfiles
        exact iff_of_true ⟨_, rfl⟩ (Or.inr (Or.inl hfiles))
      · rename_i hfiles
        split
        · rename_i hdomain
          exact iff_of_true ⟨_, rfl⟩ (Or.inr (Or.inr hdomain))
        · rename_i hdomain
          refine iff_of_false ?_ (not_or.mpr ⟨hmanaged, not_or.mpr ⟨hfiles, hdomain⟩⟩)
          rintro ⟨cert, h⟩
          cases h

/-- The password protocols need a certificate, and nothing else. -/
theorem exists_buildInbound {protocol : ProtocolType} (h : needsTls protocol = true)
    (settings : Json) (tls : Option Json) :
    (∃ inbound, buildInbound protocol settings tls = .ok inbound) ↔ hasCertificate tls := by
  rw [← exists_buildServerTls]
  constructor
  · rintro ⟨inbound, hbuild⟩
    cases protocol with
    | vlessReality => cases h
    | vlessXhttp => cases h
    | hysteria2 =>
      obtain ⟨cert, hcert, -⟩ := Except.bind_eq_ok (show _ >>= _ = _ from hbuild)
      exact ⟨cert, hcert⟩
    | anytls =>
      obtain ⟨cert, hcert, -⟩ := Except.bind_eq_ok (show _ >>= _ = _ from hbuild)
      exact ⟨cert, hcert⟩
  · rintro ⟨cert, hcert⟩
    cases protocol with
    | vlessReality => cases h
    | vlessXhttp => cases h
    | hysteria2 =>
      simp only [buildInbound, buildHysteria2Inbound, hcert]
      exact ⟨_, rfl⟩
    | anytls =>
      simp only [buildInbound, buildAnytlsInbound, hcert]
      exact ⟨_, rfl⟩

/-! ### The users of an inbound that is built -/

theorem isObject_vlessUser (c : Json) : (vlessUser c).isObject = true := by
  rw [vlessUser]
  split
  · split
    · exact isObject_mkObj _
    · exact isObject_setIndex (isObject_mkObj _) _ _
  · exact isObject_mkObj _

theorem userCredential_vlessUser (c : Json) :
    userCredential (vlessUser c) = some ((c.getStr "id").getD "") := by
  have hbase : userCredential (mkObj [("uuid", strOr c "id" ""), ("name", strOr c "email" "")])
      = some ((c.getStr "id").getD "") := by
    simp [userCredential, getStrAny, getStr, get_mkObj, strOr, List.lookup_cons, asStr]
  rw [vlessUser]
  split
  · split
    · exact hbase
    · rw [userCredential_setIndex (isObject_mkObj _) (by decide), hbase]
  · exact hbase

theorem userCredential_passwordUser (c : Json) :
    userCredential (passwordUser c) = some ((c.getStr "password").getD "") := by
  simp [userCredential, passwordUser, getStrAny, getStr, get_mkObj, strOr, List.lookup_cons, List.lookup_nil, asStr]

theorem filterMap_vlessClientsToUsers (settings : Json) :
    (vlessClientsToUsers settings).filterMap userCredential
      = settingsCredentials ["id"] "uuid" settings := by
  rw [vlessClientsToUsers, settingsCredentials]
  cases settings.getArr "clients" with
  | some clients =>
    simp only [List.filterMap_map, Function.comp_def, userCredential_vlessUser,
      getStrAny_singleton, List.filterMap_eq_map']
  | none =>
    simp only
    split
    · rfl
    · simp [userCredential, getStrAny, getStr, get_mkObj, List.lookup_cons, asStr]

theorem filterMap_passwordClientsToUsers (settings : Json) :
    (passwordClientsToUsers settings).filterMap userCredential
      = settingsCredentials ["password"] "password" settings := by
  rw [passwordClientsToUsers, settingsCredentials]
  cases settings.getArr "clients" with
  | some clients =>
    simp only [List.filterMap_map, Function.comp_def, userCredential_passwordUser,
      getStrAny_singleton, List.filterMap_eq_map']
  | none =>
    simp only
    split
    · rfl
    · simp [userCredential, getStrAny, getStr, get_mkObj, List.lookup_cons, List.lookup_nil, asStr]

theorem isObject_of_mem_vlessClientsToUsers {settings user : Json}
    (h : user ∈ vlessClientsToUsers settings) : user.isObject = true := by
  rw [vlessClientsToUsers] at h
  split at h
  · obtain ⟨c, _, rfl⟩ := List.mem_map.mp h
    exact isObject_vlessUser c
  · simp only at h
    split at h
    · cases h
    · rw [List.mem_singleton.mp h]
      exact isObject_mkObj _

theorem credentials_inboundBase (type tag : String) (settings : Json) (users : List Json) :
    credentials (inboundBase type tag settings users) = users.filterMap userCredential := by
  simp [credentials, inboundBase, get_mkObj]

/-- A flow for every user changes no credential. -/
theorem filterMap_flow (flow : String) (settings : Json) :
    ((vlessClientsToUsers settings).map (·.setIndex "flow" (str flow))).filterMap userCredential
      = (vlessClientsToUsers settings).filterMap userCredential := by
  rw [List.filterMap_map]
  refine List.filterMap_congr (fun user huser => ?_)
  exact userCredential_setIndex (isObject_of_mem_vlessClientsToUsers huser) (by decide) _

theorem credentials_buildVlessInbound {settings inbound : Json}
    (h : buildVlessInbound settings = .ok inbound) :
    credentials inbound = settingsCredentials ["id"] "uuid" settings := by
  have hobj : ∀ users, (inboundBase "vless" "vless-in" settings users).isObject = true :=
    fun users => isObject_mkObj _
  have husers : ∀ flow : String, credentials (inboundBase "vless" "vless-in" settings
      (if flow = "" then vlessClientsToUsers settings
        else (vlessClientsToUsers settings).map (·.setIndex "flow" (str flow))))
      = settingsCredentials ["id"] "uuid" settings := by
    intro flow
    rw [credentials_inboundBase, ← filterMap_vlessClientsToUsers]
    split
    · rfl
    · exact filterMap_flow flow settings
  rw [buildVlessInbound] at h
  cases htls : buildRealityTls settings with
  | none => simp only [htls] at h; cases h
  | some tls =>
    simp only [htls] at h
    cases h
    split
    · rw [credentials_setIndex (hobj _) (by decide), husers]
    · rw [credentials_setIndex (isObject_setIndex (hobj _) _ _) (by decide),
        credentials_setIndex (hobj _) (by decide), husers]

theorem credentials_buildHysteria2Inbound {settings inbound : Json} {tls : Option Json}
    (h : buildHysteria2Inbound settings tls = .ok inbound) :
    credentials inbound = settingsCredentials ["password"] "password" settings := by
  rw [buildHysteria2Inbound] at h
  obtain ⟨cert, _, h⟩ := Except.bind_eq_ok h
  have hset : ∀ (v : Json) (k : String) (x : Json), k ≠ "users" →
      credentials (v.set k x) = credentials v :=
    fun v k x hk => credentials_congr (get_set_of_ne v (Ne.symm hk) x)
  have hbase : credentials ((((inboundBase "hysteria2" "hy2-in" settings
      (passwordClientsToUsers settings)).set "tls" (cert.setIndex "alpn" (strs ["h3"]))).set
      "up_mbps" (u64Or settings "up_mbps" 100)).set "down_mbps" (u64Or settings "down_mbps" 100))
      = settingsCredentials ["password"] "password" settings := by
    rw [hset _ _ _ (by decide), hset _ _ _ (by decide), hset _ _ _ (by decide),
      credentials_inboundBase, filterMap_passwordClientsToUsers]
  cases h
  split
  · rw [credentials_setIndex (by rfl) (by decide), hbase]
  · exact hbase

theorem credentials_buildAnytlsInbound {settings inbound : Json} {tls : Option Json}
    (h : buildAnytlsInbound settings tls = .ok inbound) :
    credentials inbound = settingsCredentials ["password"] "password" settings := by
  rw [buildAnytlsInbound] at h
  obtain ⟨cert, _, h⟩ := Except.bind_eq_ok h
  have hbase : credentials ((inboundBase "anytls" "anytls-in" settings
      (passwordClientsToUsers settings)).set "tls" cert)
      = settingsCredentials ["password"] "password" settings := by
    rw [credentials_congr (get_set_of_ne _ (by decide) _), credentials_inboundBase,
      filterMap_passwordClientsToUsers]
  cases h
  split
  · split
    · exact hbase
    · rw [credentials_setIndex (by rfl) (by decide), hbase]
  · exact hbase

/-- **The users of an inbound.**  Whatever is built from the settings accepts the
credentials the settings hold. -/
theorem credentials_buildInbound {protocol : ProtocolType} {settings inbound : Json}
    {tls : Option Json} (h : buildInbound protocol settings tls = .ok inbound) :
    credentials inbound = if protocol.isVless then settingsCredentials ["id"] "uuid" settings
      else settingsCredentials ["password"] "password" settings := by
  cases protocol with
  | vlessReality => exact credentials_buildVlessInbound h
  | vlessXhttp => cases h
  | hysteria2 => exact credentials_buildHysteria2Inbound h
  | anytls => exact credentials_buildAnytlsInbound h

/-! ### The full configuration -/

/-- The inbounds of a full configuration are those whose builder succeeded. -/
theorem getArr_buildFullConfig {env : Env} {inbounds : List InboundConfig} {config : Json}
    (h : buildFullConfig env inbounds = .ok config) : config.getArr "inbounds" =
      some (inbounds.filterMap fun ib => (buildInbound ib.protocol ib.settings ib.tls).toOption) := by
  obtain ⟨values, hvalues, h⟩ := Except.bind_eq_ok (show _ >>= _ = _ from h)
  rw [← buildInbounds_ok hvalues]
  cases h
  rw [getArr]
  split
  · rw [get_setIndex_of_ne _ (by decide), get_setIndex_of_ne _ (by decide), get_mkObj]
    rfl
  · rw [get_setIndex_of_ne _ (by decide), get_mkObj]
    rfl

end ProxyPanel.SingBox
