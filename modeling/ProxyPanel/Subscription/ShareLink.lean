import Mathlib.Data.List.Forall2
import ProxyPanel.Lib.Base64
import ProxyPanel.Lib.Uri
import ProxyPanel.Subscription.Formats

/-!
# Share links read back

A base64 subscription is one link a line.  A client decodes the body, parses every line
as a URI and expects what the node has: credential, server, port, parameters and name.

`paramsOf` lists the parameters of a node with their values.  Some values are written as
they are (`rawKeys`), the others form-encoded, where a blank is written as `+`.

* `readable_iff`: which link reads as its node.
* `roundTrips_iff`: which subscriptions read as their nodes.
-/

namespace ProxyPanel.Subscription.ShareLink

open Json Builder SettingsHelper

/-! ### The body -/

def body (links : List Link) : String := Base64.encode ("\n".intercalate (links.map Link.render))

def generate (nodes : List ProxyNode) : PanelResult String := do
  let links ← nodes.mapM buildLink
  return body links

/-- The links among outputs. -/
def linksOf (outputs : List Output) : List Link :=
  outputs.filterMap fun out => match out with
    | .json _ => none
    | .link l => some l

/-- The base64 format has no template: the names are not used. -/
theorem generate_eq (nodes : List ProxyNode) :
    generateSubscription (fun outputs _ => .ok (body (linksOf outputs))) .base64 nodes =
      generate nodes := by
  have hemit : ∀ ns : List ProxyNode, ns.mapM (emit .base64) =
      (ns.mapM buildLink).map fun links => links.map .link := by
    intro ns
    induction ns with
    | nil => rfl
    | cons n ns ih =>
      rw [List.mapM_cons, List.mapM_cons, ih, emit]
      cases buildLink n with
      | error e => rfl
      | ok l =>
        cases ns.mapM buildLink with
        | error e => rfl
        | ok ls => rfl
  have hlinks : ∀ ls : List Link, linksOf (ls.map .link) = ls := by
    intro ls
    rw [linksOf, List.filterMap_map]
    exact List.filterMap_some
  have hall : nodes.filter (fun n => isSupported .base64 n.protocol) = nodes :=
    List.filter_eq_self.mpr fun n _ => rfl
  rw [generateSubscription, hall, hemit, generate]
  cases nodes.mapM buildLink with
  | error e => rfl
  | ok ls =>
    change Except.ok (body (linksOf (ls.map .link))) = Except.ok (body ls)
    rw [hlinks]

/-! ### The parameters of a node -/

/-- The keys whose values are written as they are. -/
def rawKeys : List String :=
  ["type", "flow", "mode", "headerType", "security", "fp", "insecure", "upmbps", "downmbps", "obfs"]

def given (key : String) (value : Option String) : List (String × String) :=
  (value.map fun v => (key, v)).toList

def transportParams (network : String) (settings : Json) : List (String × String) :=
  if network = "ws" then
    given "path" (settings.getStr "path") ++ given "host" (settings.getStr "host")
  else if network = "grpc" then given "serviceName" (settings.getStr "service_name")
  else if network = "xhttp" then
    given "path" ((settings.getStr "xhttp_path").or (settings.getStr "path")) ++
      given "host" ((settings.getStr "xhttp_host").or (settings.getStr "host")) ++
      given "mode" ((settings.getStr "xhttp_mode").or (settings.getStr "mode"))
  else if network = "kcp" ∨ network = "mkcp" then
    given "seed" (settings.getStr "seed") ++ given "headerType" (settings.getStr "header_type")
  else []

def realityParams (settings : Json) : List (String × String) :=
  [("security", "reality")] ++ given "sni" ((firstServerName settings).filter nonEmpty) ++
    given "pbk" (getNonEmpty settings "public_key") ++
    given "sid" ((firstShortId settings).filter nonEmpty) ++
    given "spx" (getNonEmpty settings "spider_x") ++
    [("fp", (settings.getStr "fingerprint").getD "chrome")]

def tlsParams (node : ProxyNode) : List (String × String) :=
  match node.tls with
  | none => []
  | some _ => [("security", "tls")] ++ given "sni" (tlsOrSetting node "serverName" "sni") ++
      given "fp" (tlsOrSetting node "fingerprint" "fingerprint") ++
      given "alpn" (tlsOrSetting node "alpn" "alpn")

def vlessParams (node : ProxyNode) (network : String) (security : List (String × String)) :
    List (String × String) :=
  let flow := (node.settings.getStr "flow").getD ""
  [("type", network)] ++ (if flow = "" then [] else [("flow", flow)]) ++
    transportParams network node.settings ++ security

def verifyParams (node : ProxyNode) : List (String × String) :=
  [("sni", (tlsOrSetting node "serverName" "sni").getD node.server),
    ("insecure", if skipVerify node then "1" else "0")]

def hysteria2Params (node : ProxyNode) : List (String × String) :=
  verifyParams node ++
    given "upmbps" ((node.settings.getU64 "up_mbps").map fun n => toString n) ++
    given "downmbps" ((node.settings.getU64 "down_mbps").map fun n => toString n) ++
    (match (node.settings.getStr "obfs_type").filter (fun t => t ≠ "none") with
      | some type =>
        [("obfs", type)] ++ given "obfs-password" (node.settings.getStr "obfs_password")
      | none => []) ++
    [("alpn", (tlsOrSetting node "alpn" "alpn").getD "h3")]

/-- The parameters of the link of a node, before they are written. -/
def paramsOf (node : ProxyNode) : List (String × String) :=
  match node.protocol with
  | .vlessReality => vlessParams node ((node.settings.getStr "network").getD "tcp")
      (realityParams node.settings)
  | .vlessXhttp => vlessParams node "xhttp" (tlsParams node)
  | .hysteria2 => hysteria2Params node
  | .anytls => verifyParams node ++ given "alpn" (tlsOrSetting node "alpn" "alpn")

/-- The text of a value. -/
def valueText (kv : String × String) : String :=
  if kv.1 ∈ rawKeys then kv.2 else Text.formEncode kv.2

def paramText (kv : String × String) : String := kv.1 ++ "=" ++ valueText kv

section Params

variable {key : String}

theorem plainParam_eq (h : key ∈ rawKeys) (v : Option String) :
    plainParam key v = (given key v).map paramText := by
  cases v with
  | none => rfl
  | some v =>
    rw [given, Option.map_some, Option.toList_some, List.map_singleton, paramText, valueText,
      if_pos h]
    rfl

theorem encodedParam_eq (h : key ∉ rawKeys) (v : Option String) :
    encodedParam key v = (given key v).map paramText := by
  cases v with
  | none => rfl
  | some v =>
    rw [given, Option.map_some, Option.toList_some, List.map_singleton, paramText, valueText,
      if_neg h]
    rfl

theorem linkTransport_eq (network : String) (settings : Json) :
    linkTransport network settings = (transportParams network settings).map paramText := by
  unfold linkTransport transportParams
  split
  · rw [encodedParam_eq (by decide), encodedParam_eq (by decide), List.map_append]
  · split
    · rw [encodedParam_eq (by decide)]
    · split
      · rw [encodedParam_eq (by decide), encodedParam_eq (by decide), plainParam_eq (by decide),
          List.map_append, List.map_append]
      · split
        · rw [encodedParam_eq (by decide), plainParam_eq (by decide), List.map_append]
        · rfl

theorem linkReality_eq {settings : Json} {params : List String}
    (h : linkReality settings = .ok params) : params = (realityParams settings).map paramText := by
  obtain ⟨publicKey, hkey, h⟩ := Except.bind_eq_ok h
  cases h
  rw [realityParams, required_eq_ok hkey, encodedParam_eq (by decide), encodedParam_eq (by decide),
    encodedParam_eq (by decide), encodedParam_eq (by decide), plainParam_eq (by decide)]
  simp only [List.map_append]
  rfl

theorem linkTls_eq (node : ProxyNode) : linkTls node = (tlsParams node).map paramText := by
  unfold linkTls tlsParams
  cases node.tls with
  | none => rfl
  | some tls =>
    simp only
    rw [encodedParam_eq (by decide), encodedParam_eq (by decide), plainParam_eq (by decide)]
    simp only [List.map_append]
    rfl

theorem linkVerify_eq (node : ProxyNode) : linkVerify node = (verifyParams node).map paramText := by
  rw [linkVerify, encodedParam_eq (by decide), plainParam_eq (by decide)]
  rfl

theorem params_vlessLink {node : ProxyNode} {id : String} {l : Link} (h : vlessLink node id = .ok l)
    (hvless : node.protocol = .vlessReality ∨ node.protocol = .vlessXhttp) :
    l.params = (paramsOf node).map paramText := by
  have hjoin : ∀ network security, plainParam "type" (some network) ++
      (if (node.settings.getStr "flow").getD "" = "" then []
        else plainParam "flow" (some ((node.settings.getStr "flow").getD ""))) ++
      linkTransport network node.settings ++ security.map paramText =
        (vlessParams node network security).map paramText := by
    intro network security
    rw [vlessParams, plainParam_eq (by decide), plainParam_eq (by decide), linkTransport_eq]
    simp only [List.map_append]
    split <;> rfl
  rw [paramsOf]
  rcases hvless with hp | hp
  · simp only [vlessLink, hp] at h
    obtain ⟨security, hsecurity, h⟩ := Except.bind_eq_ok h
    cases h
    simp only [hp]
    rw [linkReality_eq hsecurity, hjoin]
  · simp only [vlessLink, hp] at h
    obtain ⟨security, hsecurity, h⟩ := Except.bind_eq_ok h
    cases hsecurity
    cases h
    simp only [hp]
    rw [linkTls_eq, hjoin]

theorem params_hysteria2Link (node : ProxyNode) (password : String) :
    (hysteria2Link node password).params = (hysteria2Params node).map paramText := by
  simp only [hysteria2Link, hysteria2Params]
  rw [linkVerify_eq, plainParam_eq (by decide), plainParam_eq (by decide),
    encodedParam_eq (by decide)]
  cases (node.settings.getStr "obfs_type").filter (fun t => t ≠ "none") with
  | none =>
    simp only [List.map_append]
    rfl
  | some type =>
    simp only
    rw [plainParam_eq (by decide), encodedParam_eq (by decide)]
    simp only [List.map_append]
    rfl

end Params

/-! ### The text of a link -/

/-- The scheme of the links of a protocol. -/
def scheme : ProtocolType → String
  | .vlessReality | .vlessXhttp => "vless"
  | .hysteria2 => "hysteria2"
  | .anytls => "anytls"

/-- **What the link of a node is made of.** -/
theorem buildLink_eq {node : ProxyNode} {l : Link} (h : buildLink node = .ok l) :
    ∃ c, credentialOf node.protocol node.settings = some c ∧
      l = ⟨scheme node.protocol, c, !node.protocol.isVless, node.server, node.port,
        (paramsOf node).map paramText, node.name⟩ := by
  have hvless : ∀ id, (node.protocol = .vlessReality ∨ node.protocol = .vlessXhttp) →
      vlessLink node id = .ok l → l = ⟨"vless", id, false, node.server, node.port,
        (paramsOf node).map paramText, node.name⟩ := by
    intro id hp hlink
    have hparams := params_vlessLink hlink hp
    simp only [vlessLink] at hlink
    split at hlink <;>
    · obtain ⟨security, -, hlink⟩ := Except.bind_eq_ok hlink
      cases hlink
      exact congrArg (fun params =>
        (⟨"vless", id, false, node.server, node.port, params, node.name⟩ : Link)) hparams
  rw [buildLink] at h
  cases hp : node.protocol with
  | vlessReality =>
    rw [hp] at h
    obtain ⟨uuid, huuid, h⟩ := Except.bind_eq_ok h
    exact ⟨uuid, required_eq_ok huuid, hvless uuid (Or.inl hp) h⟩
  | vlessXhttp =>
    rw [hp] at h
    obtain ⟨uuid, huuid, h⟩ := Except.bind_eq_ok h
    exact ⟨uuid, required_eq_ok huuid, hvless uuid (Or.inr hp) h⟩
  | hysteria2 =>
    rw [hp] at h
    obtain ⟨password, hpassword, h⟩ := Except.bind_eq_ok h
    cases h
    refine ⟨password, required_eq_ok hpassword, ?_⟩
    have hparams : paramsOf node = hysteria2Params node := by rw [paramsOf, hp]
    rw [hparams, ← params_hysteria2Link node password]
    rfl
  | anytls =>
    rw [hp] at h
    obtain ⟨password, hpassword, h⟩ := Except.bind_eq_ok h
    cases h
    refine ⟨password, required_eq_ok hpassword, ?_⟩
    have hparams : paramsOf node =
        verifyParams node ++ given "alpn" (tlsOrSetting node "alpn" "alpn") := by
      rw [paramsOf, hp]
    rw [hparams, List.map_append, ← linkVerify_eq, ← encodedParam_eq (by decide)]
    rfl

def piece (kv : String × String) : Uri.Piece := ⟨kv.1, kv.2, (valueText kv).toList⟩

theorem text_piece (kv : String × String) : (piece kv).text = (valueText kv).toList := by
  simp only [piece]

/-- The link of a node as a URI. -/
def composed (node : ProxyNode) (c : String) : Uri.Composed where
  scheme := scheme node.protocol
  user := c
  userText := (if node.protocol.isVless then c else Text.formEncode c).toList
  host := node.server
  port := node.port
  pieces := (paramsOf node).map piece
  name := node.name
  nameText := (encodeFragment node.name).toList

theorem nameText_composed (node : ProxyNode) (c : String) :
    (composed node c).nameText = (encodeFragment node.name).toList := by
  simp only [composed]

/-- What a client is to read: the credential, the server, the port, the parameters and
the name of the node. -/
def components (node : ProxyNode) (c : String) : Uri.Components :=
  ⟨scheme node.protocol, c, node.server, node.port, paramsOf node, node.name⟩

theorem components_composed (node : ProxyNode) (c : String) :
    (composed node c).components = components node c := by
  rw [Uri.Composed.components, composed, components]
  simp only
  rw [List.map_map]
  exact congrArg (fun ps => (⟨_, _, _, _, ps, _⟩ : Uri.Components)) (List.map_id (paramsOf node))

theorem chars_piece (kv : String × String) : (piece kv).chars = (paramText kv).toList := by
  rw [Uri.Piece.chars, paramText, String.toList_append, String.toList_append, List.append_assoc]
  rfl

theorem render_eq {node : ProxyNode} {l : Link} (h : buildLink node = .ok l) :
    ∃ c, credentialOf node.protocol node.settings = some c ∧ l.render = (composed node c).text := by
  obtain ⟨c, hc, rfl⟩ := buildLink_eq h
  refine ⟨c, hc, String.toList_inj.mp ?_⟩
  have huser : (if (!node.protocol.isVless) = true then Text.formEncode c else c) =
      if node.protocol.isVless then c else Text.formEncode c := by
    cases node.protocol.isVless <;> rfl
  have hquery : ("&".intercalate ((paramsOf node).map paramText)).toList =
      Uri.queryText ((paramsOf node).map piece) := by
    rw [String.toList_intercalate, Uri.queryText, List.map_map, List.map_map]
    refine congrArg _ (List.map_congr_left fun kv _ => ?_)
    exact (chars_piece kv).symm
  have hport : (toString node.port).toList = Nat.toDigits 10 node.port := Nat.toList_repr
  rw [Link.render, Uri.Composed.text, String.toList_ofList, composed]
  simp only [String.toList_append, Uri.address, hquery, hport, huser, List.append_assoc]
  rfl

/-! ### The name -/

theorem plus_not_mem {b : UInt8} (hb : b ≠ 0x20) : '+' ∉ Text.formEncodeByte b := by
  have hlt : b.toNat < 256 := UInt8.toNat_lt b
  have hhex : ∀ n < 16, '+' ≠ Text.upperHexDigit n := by decide
  simp only [Text.formEncodeByte]
  split
  · rename_i hplain
    intro hc
    rw [← List.mem_singleton.mp hc] at hplain
    exact absurd hplain (by decide)
  · split
    · rename_i hblank
      have hbyte := Text.toNat_ofNat_byte _ hlt
      rw [hblank] at hbyte
      exact absurd (UInt8.toNat_inj.mp hbyte.symm) hb
    · intro hc
      simp only [List.mem_cons, List.not_mem_nil, or_false] at hc
      rcases hc with hc | hc | hc
      · exact absurd hc (by decide)
      · exact hhex _ (by omega) hc
      · exact hhex _ (by omega) hc

/-- What `encodeFragment` makes of a form-encoded character. -/
def fragmentChar (c : Char) : List Char := if c = '+' then ['%', '2', '0'] else [c]

theorem flatMap_fragmentChar {cs : List Char} (h : '+' ∉ cs) : cs.flatMap fragmentChar = cs := by
  have hsame : ∀ c ∈ cs, fragmentChar c = [c] := by
    intro c hc
    refine if_neg ?_
    rintro rfl
    exact h hc
  rw [List.flatMap_def, List.map_congr_left hsame, ← List.flatMap_def, List.flatMap_singleton']

theorem percentBytes_fragment (b : UInt8) (cs : List Char) :
    Uri.percentBytes ((Text.formEncodeByte b).flatMap fragmentChar ++ cs) =
      b :: Uri.percentBytes cs := by
  by_cases hb : b = 0x20
  · rw [hb]
    change Uri.percentBytes ('%' :: '2' :: '0' :: cs) = _
    rw [Uri.percentBytes]
    rfl
  · rw [flatMap_fragmentChar (plus_not_mem hb), Uri.percentBytes_formEncodeByte, Uri.plusByte,
      if_neg hb]

/-- **Every name is read back**: its blanks are written as `%20`. -/
theorem decode_encodeFragment (s : String) : Uri.decode (encodeFragment s).toList = some s := by
  have hbytes : ∀ bs : List UInt8,
      Uri.percentBytes ((bs.flatMap Text.formEncodeByte).flatMap fragmentChar) = bs := by
    intro bs
    induction bs with
    | nil => rfl
    | cons b bs ih =>
      rw [List.flatMap_cons, List.flatMap_append, percentBytes_fragment, ih]
  have hchars : (encodeFragment s).toList =
      ((Text.utf8 s.toList).flatMap Text.formEncodeByte).flatMap fragmentChar := by
    rw [encodeFragment, String.toList_ofList, Text.formEncode, String.toList_ofList]
    rfl
  rw [Uri.decode_eq_some_iff, Uri.percentDecode, hchars, hbytes, Text.ofUtf8_utf8]

theorem newline_not_mem_encodeFragment (s : String) : '\n' ∉ (encodeFragment s).toList := by
  rw [encodeFragment, String.toList_ofList, List.mem_flatMap]
  rintro ⟨c, hc, hmem⟩
  have hencoded := Uri.isEncoded_of_mem hc
  split at hmem
  · exact absurd hmem (by decide)
  · rw [← List.mem_singleton.mp hmem] at hencoded
    exact absurd hencoded (by decide)

/-! ### The components of a link -/

/-- The keys of the parameters. -/
def keys : List String :=
  rawKeys ++ ["sni", "path", "host", "serviceName", "seed", "pbk", "sid", "spx", "alpn",
    "obfs-password"]

theorem mem_given {key : String} {value : Option String} {kv : String × String}
    (h : kv ∈ given key value) : kv.1 = key := by
  cases value with
  | none => cases h
  | some v => rw [List.mem_singleton.mp h]

section Keys

variable {P : String × String → Prop}

theorem forall_append {ps qs : List (String × String)} (hps : ∀ kv ∈ ps, P kv)
    (hqs : ∀ kv ∈ qs, P kv) : ∀ kv ∈ ps ++ qs, P kv := by
  intro kv hkv
  rcases List.mem_append.mp hkv with hkv | hkv
  · exact hps kv hkv
  · exact hqs kv hkv

end Keys

theorem key_given {key : String} (h : key ∈ keys) (value : Option String) :
    ∀ kv ∈ given key value, kv.1 ∈ keys := by
  intro kv hkv
  rw [mem_given hkv]
  exact h

theorem key_transportParams (network : String) (settings : Json) :
    ∀ kv ∈ transportParams network settings, kv.1 ∈ keys := by
  unfold transportParams
  split
  · exact forall_append (key_given (by decide) _) (key_given (by decide) _)
  · split
    · exact key_given (by decide) _
    · split
      · exact forall_append (forall_append (key_given (by decide) _) (key_given (by decide) _))
          (key_given (by decide) _)
      · split
        · exact forall_append (key_given (by decide) _) (key_given (by decide) _)
        · exact List.forall_mem_nil _

theorem key_single {key : String} (h : key ∈ keys) (value : String) :
    ∀ kv ∈ [(key, value)], kv.1 ∈ keys := key_given h (some value)

theorem key_vlessParams {node : ProxyNode} {network : String} {security : List (String × String)}
    (h : ∀ kv ∈ security, kv.1 ∈ keys) : ∀ kv ∈ vlessParams node network security, kv.1 ∈ keys := by
  refine forall_append (forall_append (forall_append (key_single (by decide) _) ?_)
    (key_transportParams _ _)) h
  split
  · exact List.forall_mem_nil _
  · exact key_single (by decide) _

theorem key_verifyParams (node : ProxyNode) : ∀ kv ∈ verifyParams node, kv.1 ∈ keys :=
  forall_append (key_single (by decide) _) (key_single (by decide) _)

/-- Every parameter has one of the keys. -/
theorem key_paramsOf (node : ProxyNode) : ∀ kv ∈ paramsOf node, kv.1 ∈ keys := by
  rw [paramsOf]
  cases node.protocol with
  | vlessReality =>
    refine key_vlessParams ?_
    exact forall_append (forall_append (forall_append (forall_append (forall_append
      (key_single (by decide) _) (key_given (by decide) _)) (key_given (by decide) _))
      (key_given (by decide) _)) (key_given (by decide) _)) (key_single (by decide) _)
  | vlessXhttp =>
    refine key_vlessParams ?_
    rw [tlsParams]
    cases node.tls with
    | none => exact List.forall_mem_nil _
    | some tls =>
      exact forall_append (forall_append (forall_append (key_single (by decide) _)
        (key_given (by decide) _)) (key_given (by decide) _)) (key_given (by decide) _)
  | hysteria2 =>
    refine forall_append (forall_append (forall_append (forall_append (key_verifyParams node)
      (key_given (by decide) _)) (key_given (by decide) _)) ?_) (key_single (by decide) _)
    split
    · exact forall_append (key_single (by decide) _) (key_given (by decide) _)
    · exact List.forall_mem_nil _
  | anytls => exact forall_append (key_verifyParams node) (key_given (by decide) _)

/-- No node is without parameters. -/
theorem paramsOf_ne_nil (node : ProxyNode) : paramsOf node ≠ [] := by
  rw [paramsOf]
  cases node.protocol with
  | vlessReality | vlessXhttp => exact List.cons_ne_nil _ _
  | hysteria2 | anytls => exact List.cons_ne_nil _ _

theorem ok_key : ∀ key ∈ keys,
    (['=', '&', '#', '\n'].all fun c => !key.toList.contains c) = true ∧
      Uri.hasEscape key.toList = false := by
  decide

theorem free_key {key : String} (h : key ∈ keys) : Uri.Free ['=', '&', '#', '\n'] key.toList := by
  intro c hc hmem
  have hstop := List.all_eq_true.mp (ok_key key h).1 c hc
  rw [List.contains_iff_mem.mpr hmem] at hstop
  cases hstop

theorem ok_piece {kv : String × String} (h : kv.1 ∈ keys) : (piece kv).Ok where
  key := fun c hc => free_key h c (List.mem_append_left ['\n'] hc)
  plain := (ok_key kv.1 h).2
  text := by
    rw [text_piece, valueText]
    split
    · exact Or.inr rfl
    · exact Or.inl (Uri.free_formEncode (by decide) kv.2)

theorem free_or_self_user (node : ProxyNode) (c : String) :
    Uri.Free ['/', '?', '#', '@'] (composed node c).userText ∨
      (composed node c).userText = c.toList := by
  simp only [composed]
  split
  · exact Or.inr rfl
  · exact Or.inl (Uri.free_formEncode (by decide) c)

theorem ok_composed (node : ProxyNode) (c : String) : (composed node c).Ok where
  scheme := by
    change ':' ∉ (scheme node.protocol).toList
    cases node.protocol <;> decide
  user := free_or_self_user node c
  pieces := by
    intro p hp
    obtain ⟨kv, hkv, rfl⟩ := List.mem_map.mp hp
    exact ok_piece (key_paramsOf node kv hkv)
  nonempty := fun h => paramsOf_ne_nil node (List.map_eq_nil_iff.mp h)
  name := by
    rw [nameText_composed, decode_encodeFragment]
    rfl

/-! ### Which links are read back -/

/-- A text that is read back as it is written: no delimiter, no line break, no escape. -/
def Plain (stops : List Char) (s : String) : Prop :=
  Uri.Free ('\n' :: stops) s.toList ∧ Uri.hasEscape s.toList = false

/-- A text that is written as it is when `raw`, and form-encoded otherwise. -/
def WrittenReads (stops : List Char) (raw : Prop) (s : String) : Prop :=
  (raw → Plain stops s) ∧ (¬raw → ' ' ∉ s.toList)

/-- A VLESS link has the UUID as it is, the others have the password form-encoded. -/
def CredentialReads (node : ProxyNode) : Prop :=
  ∀ c, credentialOf node.protocol node.settings = some c →
    WrittenReads ['/', '?', '#', '@'] (node.protocol.isVless = true) c

/-- A host as it stands before a port: colons only between brackets. -/
def ServerReads (server : String) : Prop := Uri.HostReads server.toList ∧ '\n' ∉ server.toList

def ParamReads (kv : String × String) : Prop := WrittenReads ['&', '#'] (kv.1 ∈ rawKeys) kv.2

/-- The nodes whose links are read back. -/
structure Readable (node : ProxyNode) : Prop where
  credential : CredentialReads node
  server : ServerReads node.server
  params : ∀ kv ∈ paramsOf node, ParamReads kv

/-- A line that is read as a node. -/
def Reads (node : ProxyNode) (line : String) : Prop :=
  ∃ c, credentialOf node.protocol node.settings = some c ∧
    Uri.parse line = some (components node c)

/-- A text as it is, or form-encoded. -/
theorem text_reads_iff {stops : List Char} (hstops : ('\n' :: stops).all (!Uri.isEncoded ·) = true)
    (raw : Prop) [Decidable raw] (s : String) :
    (Uri.Free stops (if raw then s else Text.formEncode s).toList ∧
        Uri.decode (if raw then s else Text.formEncode s).toList = some s) ∧
      '\n' ∉ (if raw then s else Text.formEncode s).toList ↔ WrittenReads stops raw s := by
  by_cases hraw : raw
  · rw [if_pos hraw, Uri.decode_eq_some_iff, Uri.percentDecode_self_iff]
    constructor
    · rintro ⟨⟨hfree, hplain⟩, hline⟩
      exact ⟨fun _ => ⟨List.forall_mem_cons.mpr ⟨hline, hfree⟩, hplain⟩, fun h => absurd hraw h⟩
    · intro h
      obtain ⟨hfree, hplain⟩ := h.1 hraw
      obtain ⟨hline, hfree⟩ := List.forall_mem_cons.mp hfree
      exact ⟨⟨hfree, hplain⟩, hline⟩
  · obtain ⟨hline, hfree⟩ := List.forall_mem_cons.mp (Uri.free_formEncode hstops s)
    rw [if_neg hraw, Uri.decode_formEncode_iff]
    exact ⟨fun h => ⟨fun h' => absurd h' hraw, fun _ => h.1.2⟩,
      fun h => ⟨⟨hfree, h.2 hraw⟩, hline⟩⟩

theorem piece_reads_iff (kv : String × String) :
    (piece kv).Reads ∧ '\n' ∉ (piece kv).text ↔ ParamReads kv :=
  text_reads_iff (by decide) (kv.1 ∈ rawKeys) kv.2

theorem newline_chars_iff {kv : String × String} (h : kv.1 ∈ keys) :
    '\n' ∈ (piece kv).chars ↔ '\n' ∈ (piece kv).text := by
  have hkey : '\n' ∉ (piece kv).key.toList := free_key h '\n' (by decide)
  rw [Uri.Piece.chars, List.mem_append, or_iff_right hkey, List.mem_cons,
    or_iff_right (by decide)]

/-- The line breaks of a link. -/
theorem newline_text_iff (node : ProxyNode) (c : String) :
    '\n' ∉ (composed node c).text.toList ↔ '\n' ∉ (composed node c).userText ∧
      '\n' ∉ node.server.toList ∧ ∀ kv ∈ paramsOf node, '\n' ∉ (piece kv).text := by
  have hscheme : '\n' ∉ (composed node c).scheme.toList := by
    change '\n' ∉ (scheme node.protocol).toList
    cases node.protocol <;> decide
  have hport : '\n' ∉ Nat.toDigits 10 (composed node c).port := fun hc =>
    absurd (Nat.isDigit_of_mem_toDigits (by decide) (by decide) hc) (by decide)
  have hname : '\n' ∉ (composed node c).nameText := by
    rw [nameText_composed]
    exact newline_not_mem_encodeFragment node.name
  have hquery : '\n' ∈ Uri.queryText (composed node c).pieces ↔
      ∃ kv ∈ paramsOf node, '\n' ∈ (piece kv).text := by
    rw [Uri.mem_queryText_iff (by decide)]
    constructor
    · rintro ⟨p, hp, hc⟩
      obtain ⟨kv, hkv, rfl⟩ := List.mem_map.mp hp
      exact ⟨kv, hkv, (newline_chars_iff (key_paramsOf node kv hkv)).mp hc⟩
    · rintro ⟨kv, hkv, hc⟩
      exact ⟨piece kv, List.mem_map_of_mem hkv,
        (newline_chars_iff (key_paramsOf node kv hkv)).mpr hc⟩
  rw [Uri.Composed.text, String.toList_ofList, Uri.address]
  simp only [List.mem_append, List.mem_cons, hscheme, hport, hname, hquery, not_or, not_exists,
    not_and]
  constructor
  · rintro ⟨-, -, -, -, huser, -, hserver, -, -, -, hparams, -⟩
    exact ⟨huser, hserver, hparams⟩
  · rintro ⟨huser, hserver, hparams⟩
    exact ⟨not_false, by decide, by decide, by decide, huser, by decide, hserver, by decide,
      not_false, by decide, hparams, by decide, not_false⟩

/-- **The link of a node is read back on its line if and only if the node is readable.** -/
theorem readable_iff {node : ProxyNode} {l : Link} (h : buildLink node = .ok l) :
    Readable node ↔ Reads node l.render ∧ '\n' ∉ l.render.toList := by
  obtain ⟨c, hc, hrender⟩ := render_eq h
  have hcredential : ∀ c', credentialOf node.protocol node.settings = some c' → c' = c :=
    fun c' hc' => Option.some.inj (hc'.symm.trans hc)
  have hreads : Reads node l.render ↔ (composed node c).Reads := by
    rw [← Uri.Composed.parse_iff (ok_composed node c), ← hrender, components_composed]
    constructor
    · rintro ⟨c', hc', hparse⟩
      rwa [hcredential c' hc'] at hparse
    · exact fun hparse => ⟨c, hc, hparse⟩
  have huser : (Uri.Free ['/', '?', '#', '@'] (composed node c).userText ∧
      Uri.decode (composed node c).userText = some c) ∧ '\n' ∉ (composed node c).userText ↔
        WrittenReads ['/', '?', '#', '@'] (node.protocol.isVless = true) c := by
    simp only [composed]
    exact text_reads_iff (by decide) _ c
  rw [hreads, hrender, newline_text_iff]
  constructor
  · rintro ⟨hcred, ⟨hhost, hline⟩, hparams⟩
    obtain ⟨⟨hfree, hdecode⟩, huserLine⟩ := huser.mpr (hcred c hc)
    refine ⟨⟨hfree, hdecode, hhost, ?_⟩, huserLine, hline, fun kv hkv =>
      ((piece_reads_iff kv).mpr (hparams kv hkv)).2⟩
    intro p hp
    obtain ⟨kv, hkv, rfl⟩ := List.mem_map.mp hp
    exact ((piece_reads_iff kv).mpr (hparams kv hkv)).1
  · rintro ⟨⟨hfree, hdecode, hhost, hpieces⟩, huserLine, hline, hlines⟩
    refine ⟨fun c' hc' => ?_, ⟨hhost, hline⟩, fun kv hkv => ?_⟩
    · rw [hcredential c' hc']
      exact huser.mp ⟨⟨hfree, hdecode⟩, huserLine⟩
    · exact (piece_reads_iff kv).mp ⟨hpieces _ (List.mem_map_of_mem hkv), hlines kv hkv⟩

/-! ### Subscriptions read back -/

/-- The body decodes to one line a node, and every line is read as its node. -/
def RoundTrips (nodes : List ProxyNode) (body : String) : Prop :=
  ∃ text, Base64.decode body = some text ∧ List.Forall₂ Reads nodes (Text.lines text)

theorem render_ne_empty {node : ProxyNode} {l : Link} (h : buildLink node = .ok l) :
    l.render ≠ "" := by
  obtain ⟨c, -, hrender⟩ := render_eq h
  intro hempty
  have hlist := congrArg String.toList (hrender.symm.trans hempty)
  rw [Uri.Composed.text, String.toList_ofList] at hlist
  exact absurd (List.append_eq_nil_iff.mp hlist).2 (List.cons_ne_nil _ _)

theorem forall₂_of_mapM {nodes : List ProxyNode} {links : List Link}
    (h : nodes.mapM buildLink = .ok links) :
    List.Forall₂ (fun node l => buildLink node = .ok l) nodes links := by
  induction nodes generalizing links with
  | nil =>
    cases h
    exact List.Forall₂.nil
  | cons node nodes ih =>
    rw [List.mapM_cons] at h
    obtain ⟨l, hl, h⟩ := Except.bind_eq_ok h
    obtain ⟨ls, hls, h⟩ := Except.bind_eq_ok h
    cases h
    exact List.Forall₂.cons hl (ih hls)

section Links

variable {nodes : List ProxyNode} {links : List Link}
  (h : List.Forall₂ (fun node l => buildLink node = .ok l) nodes links)

include h

theorem forall_render_ne_empty : ∀ x ∈ links.map Link.render, x ≠ "" := by
  induction h with
  | nil => exact List.forall_mem_nil _
  | cons hl _ ih => exact List.forall_mem_cons.mpr ⟨render_ne_empty hl, ih⟩

theorem forall_readable_iff : (∀ node ∈ nodes, Readable node) ↔
    List.Forall₂ Reads nodes (links.map Link.render) ∧
      ∀ x ∈ links.map Link.render, '\n' ∉ x.toList := by
  induction h with
  | nil =>
    exact ⟨fun _ => ⟨List.Forall₂.nil, List.forall_mem_nil _⟩, fun _ => List.forall_mem_nil _⟩
  | cons hl _ ih =>
    rw [List.map_cons, List.forall_mem_cons, List.forall₂_cons, List.forall_mem_cons, ih,
      readable_iff hl]
    constructor
    · rintro ⟨⟨hreads, hline⟩, hall, hlines⟩
      exact ⟨⟨hreads, hall⟩, hline, hlines⟩
    · rintro ⟨⟨hreads, hall⟩, hline, hlines⟩
      exact ⟨⟨hreads, hline⟩, hall, hlines⟩

/-- **The body of links is read back if and only if every node is readable.** -/
theorem roundTrips_body_iff : RoundTrips nodes (body links) ↔ ∀ node ∈ nodes, Readable node := by
  have hne := forall_render_ne_empty h
  rw [forall_readable_iff h, RoundTrips, body, Base64.decode_encode]
  constructor
  · rintro ⟨text, htext, hall⟩
    cases htext
    have hlength : (Text.lines ("\n".intercalate (links.map Link.render))).length =
        (links.map Link.render).length := by
      rw [← hall.length_eq, List.length_map, h.length_eq]
    have hlines := Text.not_mem_of_length_lines hne hlength
    rw [Text.lines_joined fun x hx => ⟨hne x hx, hlines x hx⟩] at hall
    exact ⟨hall, hlines⟩
  · rintro ⟨hall, hlines⟩
    refine ⟨_, rfl, ?_⟩
    rwa [Text.lines_joined fun x hx => ⟨hne x hx, hlines x hx⟩]

end Links

/-- **A subscription is read back if and only if every node is readable.** -/
theorem roundTrips_iff {nodes : List ProxyNode} {body : String} (h : generate nodes = .ok body) :
    RoundTrips nodes body ↔ ∀ node ∈ nodes, Readable node := by
  obtain ⟨links, hlinks, h⟩ := Except.bind_eq_ok h
  cases h
  exact roundTrips_body_iff (forall₂_of_mapM hlinks)

/-! ### One node -/

namespace OneNode

def node (server password : String) : ProxyNode where
  name := "hk 1"
  protocol := .hysteria2
  server := server
  port := 443
  settings := mkObj [("clients", arr [mkObj [("password", str password)]])]
  tls := none

def bodyOf (server password : String) : String :=
  body [hysteria2Link (node server password) password]

theorem readable_of_roundTrips {server password : String}
    (hlink : buildLink (node server password) = .ok (hysteria2Link (node server password) password))
    (h : RoundTrips [node server password] (bodyOf server password)) :
    Readable (node server password) :=
  (roundTrips_body_iff (List.Forall₂.cons hlink List.Forall₂.nil)).mp h _
    (List.mem_singleton.mpr rfl)

/-- A blank of a password is read as a plus sign, and an IPv6 address without brackets
runs into the port. -/
theorem not_roundTrips :
    (generate [node "1.2.3.4" "my secret"] = .ok (bodyOf "1.2.3.4" "my secret") ∧
      ¬RoundTrips [node "1.2.3.4" "my secret"] (bodyOf "1.2.3.4" "my secret")) ∧
    (generate [node "2001:db8::1" "secret"] = .ok (bodyOf "2001:db8::1" "secret") ∧
      ¬RoundTrips [node "2001:db8::1" "secret"] (bodyOf "2001:db8::1" "secret")) := by
  refine ⟨⟨rfl, fun h => ?_⟩, rfl, fun h => ?_⟩
  · have hcredential := (readable_of_roundTrips rfl h).credential "my secret" rfl
    exact hcredential.2 (by decide) (by decide)
  · exact absurd (readable_of_roundTrips rfl h).server.1.isHost (by decide)

theorem readable_node : Readable (node "[2001:db8::1]" "secret") where
  credential := by
    intro c hc
    cases hc
    exact ⟨fun h => absurd h (by decide), fun _ => by decide⟩
  server := ⟨⟨by decide, by decide, by decide⟩, by decide⟩
  params := by
    have hencoded : ∀ key ∉ rawKeys, ∀ value : String, ' ' ∉ value.toList →
        ParamReads (key, value) := fun key hkey value hvalue =>
      ⟨fun h => absurd h hkey, fun _ => hvalue⟩
    intro kv hkv
    rcases List.mem_cons.mp hkv with rfl | hkv
    · exact hencoded "sni" (by decide) "[2001:db8::1]" (by decide)
    · rcases List.mem_cons.mp hkv with rfl | hkv
      · exact ⟨fun _ => ⟨by decide, by decide⟩, fun h => absurd (by decide) h⟩
      · rw [List.mem_singleton.mp hkv]
        exact hencoded "alpn" (by decide) "h3" (by decide)

/-- With brackets the address is read back, and so is the blank of the name. -/
theorem roundTrips_node :
    RoundTrips [node "[2001:db8::1]" "secret"] (bodyOf "[2001:db8::1]" "secret") := by
  have hbody : generate [node "[2001:db8::1]" "secret"] =
      .ok (bodyOf "[2001:db8::1]" "secret") := rfl
  refine (roundTrips_iff hbody).mpr ?_
  rw [List.forall_mem_singleton]
  exact readable_node

end OneNode

end ProxyPanel.Subscription.ShareLink
