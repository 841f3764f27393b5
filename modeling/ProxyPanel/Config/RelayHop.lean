import ProxyPanel.Config.Builder

/-!
# Relay hops

The outbound of one relay hop, for sing-box and for mihomo, from the protocol
settings of the exit binding.
-/

namespace ProxyPanel

/-- The inputs of one relay hop. -/
structure RelayHop where
  tag : String
  protocol : ProtocolType
  settings : Json
  server : String
  port : Nat
  credential : String
  tlsSni : Option String

namespace RelayHop

open Json Builder

/-- The first non-empty string under the keys. -/
def strSetting (settings : Json) (keys : List String) : Option String :=
  (keys.filterMap settings.getStr).find? (fun s => s ≠ "")

/-- The first string under one key: of a comma-separated string or of an array. -/
def firstOfKey (settings : Json) (key : String) : Option String :=
  match settings.get key with
  | some (str s) =>
    if s = "" then none else some (Text.trim ((Text.split ',' s).head?.getD s))
  | some (arr xs) => (xs.filterMap asStr).find? (fun s => s ≠ "")
  | _ => none

def firstStringSetting (settings : Json) (keys : List String) : Option String :=
  keys.findSome? (firstOfKey settings)

/-- Obfuscation type and password, when both are set. -/
def obfs (settings : Json) : Option (String × String) :=
  let type := (strSetting settings ["obfs_type"]).getD "none"
  let password := (strSetting settings ["obfs_password"]).getD ""
  if type ≠ "none" ∧ password ≠ "" then some (type, password) else none

/-- Public key and server name of a REALITY exit. -/
def realityKeys (settings : Json) : PanelResult (String × String) :=
  match strSetting settings ["public_key"] with
  | none => .error (.config "vless_reality relay requires settings.public_key")
  | some publicKey =>
    match firstStringSetting settings ["reality_server_names", "server_names"] with
    | none => .error (.config "vless_reality relay requires server_names")
    | some serverName => .ok (publicKey, serverName)

def requireSni (hop : RelayHop) (protocol : String) : PanelResult String :=
  match hop.tlsSni with
  | some sni => .ok sni
  | none => .error (.config (protocol ++ " relay requires TLS SNI"))

def unsupported (protocol : ProtocolType) : PanelError :=
  .config ("protocol " ++ protocol.debug ++ " cannot be a relay exit")

/-- `j` with `k` set to a string, unless the string is empty. -/
def setNonEmpty (j : Json) (k s : String) : Json := if s = "" then j else j.setIndex k (str s)

def shortId (settings : Json) : String :=
  (firstStringSetting settings ["reality_short_id", "short_id"]).getD ""

def flow (settings : Json) : String := (strSetting settings ["flow"]).getD ""

def buildSingboxOutbound (hop : RelayHop) : PanelResult Json :=
  match hop.protocol with
  | .vlessReality => do
    let (publicKey, serverName) ← realityKeys hop.settings
    let reality := setNonEmpty (mkObj [("enabled", bool true), ("public_key", str publicKey)])
      "short_id" (shortId hop.settings)
    return setNonEmpty (mkObj [("type", str "vless"), ("tag", str hop.tag), ("server", str hop.server),
      ("server_port", num hop.port), ("uuid", str hop.credential),
      ("tls", mkObj [("enabled", bool true), ("server_name", str serverName),
        ("reality", reality)])]) "flow" (flow hop.settings)
  | .hysteria2 => do
    let sni ← requireSni hop "hysteria2"
    let out := mkObj [("type", str "hysteria2"), ("tag", str hop.tag), ("server", str hop.server),
      ("server_port", num hop.port), ("password", str hop.credential),
      ("tls", mkObj [("enabled", bool true), ("server_name", str sni)]),
      ("up_mbps", u64Or hop.settings "up_mbps" 100),
      ("down_mbps", u64Or hop.settings "down_mbps" 100)]
    return match obfs hop.settings with
      | some (type, password) =>
        out.setIndex "obfs" (mkObj [("type", str type), ("password", str password)])
      | none => out
  | .anytls => do
    let sni ← requireSni hop "anytls"
    return mkObj [("type", str "anytls"), ("tag", str hop.tag), ("server", str hop.server),
      ("server_port", num hop.port), ("password", str hop.credential),
      ("tls", mkObj [("enabled", bool true), ("server_name", str sni)])]
  | .vlessXhttp => .error (unsupported .vlessXhttp)

def buildMihomoProxy (hop : RelayHop) : PanelResult Json :=
  match hop.protocol with
  | .vlessReality => do
    let (publicKey, serverName) ← realityKeys hop.settings
    return setNonEmpty (mkObj [("name", str hop.tag), ("type", str "vless"),
      ("server", str hop.server), ("port", num hop.port), ("uuid", str hop.credential),
      ("network", str "tcp"), ("tls", bool true), ("servername", str serverName),
      ("reality-opts", setNonEmpty (mkObj [("public-key", str publicKey)]) "short-id"
        (shortId hop.settings))]) "flow" (flow hop.settings)
  | .hysteria2 => do
    let sni ← requireSni hop "hysteria2"
    let out := mkObj [("name", str hop.tag), ("type", str "hysteria2"), ("server", str hop.server),
      ("port", num hop.port), ("password", str hop.credential), ("sni", str sni),
      ("up", u64Or hop.settings "up_mbps" 100), ("down", u64Or hop.settings "down_mbps" 100)]
    return match obfs hop.settings with
      | some (type, password) =>
        (out.setIndex "obfs" (str type)).setIndex "obfs-password" (str password)
      | none => out
  | .anytls => do
    let sni ← requireSni hop "anytls"
    return mkObj [("name", str hop.tag), ("type", str "anytls"), ("server", str hop.server),
      ("port", num hop.port), ("password", str hop.credential), ("sni", str sni)]
  | .vlessXhttp => .error (unsupported .vlessXhttp)

/-- The outbound in the format of a core. -/
def build (core : CoreType) (hop : RelayHop) : PanelResult Json :=
  match core with
  | .singBox => buildSingboxOutbound hop
  | .mihomo => buildMihomoProxy hop

end RelayHop

end ProxyPanel
