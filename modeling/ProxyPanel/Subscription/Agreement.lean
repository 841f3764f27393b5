import ProxyPanel.Subscription.Connection
import ProxyPanel.Subscription.ShareLink

/-!
# Three formats, one connection

A Hysteria2 or AnyTLS node becomes a sing-box outbound, a Clash proxy and a share link.
A client connects with the server, the port, the credential, the TLS server name, the
verification flag, the ALPN list and the obfuscation it reads there.  An empty server
name stands for the server, an empty ALPN text for no protocol.

`sameConnection_iff` is when the three are the same connection: the link is read back,
the two sources of the server name do not disagree, the ALPN is the one that is fixed in
the other formats, and an obfuscation has a password.
-/

namespace ProxyPanel.Subscription.Agreement

open Json Builder SettingsHelper ShareLink

/-! ### The connection -/

/-- What a client connects with. -/
structure Connection where
  server : String
  port : Nat
  credential : String
  serverName : String
  skipVerify : Bool
  alpn : List String
  obfuscation : Option String × Option String

/-- A server name that is not there or empty is the server. -/
def named (server : String) (name : Option String) : String := (name.filter nonEmpty).getD server

def protocolsOf (text : String) : List String := if text = "" then [] else Text.split ',' text

/-- Type and password of the obfuscation. -/
def obfuscation (format : SubscriptionFormat) (value : Json) : Option String × Option String :=
  match format with
  | .singBox =>
    ((value.get "obfs").bind (·.getStr "type"), (value.get "obfs").bind (·.getStr "password"))
  | _ => (value.getStr "obfs", value.getStr "obfs-password")

/-- The connection of a sing-box outbound or of a Clash proxy. -/
def ofJson (format : SubscriptionFormat) (value : Json) : Option Connection :=
  (Output.json value).server.bind fun server => (Output.json value).port.bind fun port =>
    (Output.json value).credential.bind fun credential =>
      (skipFlag format (.json value)).map fun skipVerify =>
        ⟨server, port, credential, named server (serverName format (.json value)), skipVerify,
          (alpn format (.json value)).getD [], obfuscation format value⟩

def ofUri (u : Uri.Components) : Connection where
  server := u.host
  port := u.port
  credential := u.userinfo
  serverName := named u.host (u.query.lookup "sni")
  skipVerify := u.query.lookup "insecure" = some "1"
  alpn := protocolsOf ((u.query.lookup "alpn").getD "")
  obfuscation := (u.query.lookup "obfs", u.query.lookup "obfs-password")

/-- The connection of a line, if there is exactly one. -/
def ofLines : List String → Option Connection
  | [line] => (Uri.parse line).map ofUri
  | _ => none

/-- The connection of a base64 subscription with one link. -/
def ofBody (body : String) : Option Connection :=
  (Base64.decode body).bind fun text => ofLines (Text.lines text)

/-- The outputs of the three formats are one connection. -/
def SameConnection (outbound proxy : Json) (body : String) : Prop :=
  ∃ c, ofJson .singBox outbound = some c ∧ ofJson .clash proxy = some c ∧ ofBody body = some c

/-! ### What the node has -/

/-- The protocols with a password. -/
def HasPassword (node : ProxyNode) : Prop := node.protocol = .hysteria2 ∨ node.protocol = .anytls

def obfsType (node : ProxyNode) : Option String :=
  if node.protocol = .hysteria2 then (node.settings.getStr "obfs_type").filter (fun t => t ≠ "none")
  else none

def obfsPassword (node : ProxyNode) : Option String :=
  (obfsType node).bind fun _ => node.settings.getStr "obfs_password"

def tlsName (node : ProxyNode) : Option String := node.tls.bind (·.getStr "serverName")

/-- The ALPN of sing-box and Clash, as text. -/
def fixedAlpn (node : ProxyNode) : String := if node.protocol = .hysteria2 then "h3" else ""

/-- The ALPN of the link, as text. -/
def linkAlpn (node : ProxyNode) : String :=
  (tlsOrSetting node "alpn" "alpn").getD (if node.protocol = .hysteria2 then "h3" else "")

/-- When the three formats agree. -/
structure Agreeable (node : ProxyNode) : Prop where
  readable : Readable node
  serverName : ∀ t s, tlsName node = some t → node.settings.getStr "sni" = some s →
    named node.server (some t) = named node.server (some s)
  alpn : linkAlpn node = fixedAlpn node
  obfuscation : obfsType node ≠ none → node.settings.getStr "obfs_password" ≠ none

section Named

variable {server : String}

theorem named_some_of_ne {name : String} (h : name ≠ "") : named server (some name) = name := by
  have hname : nonEmpty name = true := decide_eq_true h
  rw [named, Option.filter_some, if_pos hname, Option.getD_some]

theorem named_getD_empty (name : Option String) :
    named server (some (name.getD "")) = named server name := by
  cases name <;> rfl

theorem named_getD_server (name : Option String) :
    named server (some (name.getD server)) = named server name := by
  cases name with
  | some name => rfl
  | none =>
    by_cases h : server = ""
    · rw [Option.getD_none, h]
      rfl
    · exact named_some_of_ne h

end Named

/-! ### sing-box and Clash -/

section Formats

variable {node : ProxyNode} {j : Json}

theorem isObject_setSome {k : String} (h : j.isObject = true) (v : Option Json) :
    (setSome j k v).isObject = true := by
  cases v with
  | none => exact h
  | some v => exact isObject_setIndex h k v

theorem obfsType_of_anytls (hp : node.protocol = .anytls) : obfsType node = none := by
  rw [obfsType, hp]
  exact if_neg (by decide)

theorem obfsPassword_of_none (h : obfsType node = none) : obfsPassword node = none := by
  rw [obfsPassword, h, Option.bind_none]

theorem obfsType_of_getStr {type : String} (hp : node.protocol = .hysteria2)
    (htype : node.settings.getStr "obfs_type" = some type) :
    obfsType node = if type = "none" then none else some type := by
  rw [obfsType, if_pos hp, htype, Option.filter_some]
  by_cases h : type = "none" <;> simp [h]

theorem get_singboxHysteria2 (hp : node.protocol = .hysteria2) (password : String) :
    (singboxHysteria2 node password).get "obfs" = (obfsType node).bind fun type =>
      (node.settings.getStr "obfs_password").map fun pw =>
        mkObj [("type", str type), ("password", str pw)] := by
  simp only [singboxHysteria2]
  cases htype : node.settings.getStr "obfs_type" with
  | none =>
    rw [obfsType, if_pos hp, htype, Option.filter_none, Option.bind_none]
    simp only
    rw [get_setSome_of_ne _ (by decide), get_setSome_of_ne _ (by decide), get_mkObj]
    rfl
  | some type =>
    rw [obfsType_of_getStr hp htype]
    cases node.settings.getStr "obfs_password" with
    | none =>
      simp only
      rw [get_setSome_of_ne _ (by decide), get_setSome_of_ne _ (by decide), get_mkObj]
      split <;> rfl
    | some pw =>
      simp only
      split
      · rw [get_setSome_of_ne _ (by decide), get_setSome_of_ne _ (by decide), get_mkObj]
        rfl
      · exact get_setIndex_self (isObject_setSome (isObject_setSome (isObject_mkObj _) _) _) _ _

theorem get_clashHysteria2 (hp : node.protocol = .hysteria2) (password : String) :
    (clashHysteria2 node password).get "obfs" = (obfsType node).map str ∧
      (clashHysteria2 node password).get "obfs-password" = (obfsPassword node).map str := by
  simp only [clashHysteria2]
  cases htype : node.settings.getStr "obfs_type" with
  | none =>
    have hnone : obfsType node = none := by
      rw [obfsType, if_pos hp, htype, Option.filter_none]
    rw [obfsPassword_of_none hnone, hnone]
    simp only
    rw [get_mkObj, get_mkObj]
    exact ⟨rfl, rfl⟩
  | some type =>
    rw [obfsPassword, obfsType_of_getStr hp htype]
    simp only
    split
    · rw [get_mkObj, get_mkObj]
      exact ⟨rfl, rfl⟩
    · rw [get_setSome_of_ne _ (by decide), Option.bind_some]
      refine ⟨get_setIndex_self (isObject_mkObj _) _ _, ?_⟩
      cases node.settings.getStr "obfs_password" with
      | none =>
        rw [Option.map_none, setSome, get_setIndex_of_ne _ (by decide), get_mkObj]
        rfl
      | some pw => exact get_setIndex_self (isObject_setIndex (isObject_mkObj _) _ _) _ _

theorem obfuscation_outbound (hp : HasPassword node) (h : buildOutbound node = .ok j) :
    obfuscation .singBox j =
      ((obfsPassword node).bind fun _ => obfsType node, obfsPassword node) := by
  rw [buildOutbound] at h
  rcases hp with hp | hp
  · rw [hp] at h
    obtain ⟨password, -, h⟩ := Except.bind_eq_ok h
    cases h
    simp only [obfuscation, get_singboxHysteria2 hp, obfsPassword]
    cases obfsType node with
    | none => rfl
    | some type =>
      cases node.settings.getStr "obfs_password" with
      | none => rfl
      | some pw =>
        simp only [Option.bind_some, Option.map_some, getStr, get_mkObj]
        rfl
  · rw [hp] at h
    obtain ⟨password, -, h⟩ := Except.bind_eq_ok h
    cases h
    have hnone := obfsType_of_anytls hp
    simp only [obfuscation]
    rw [obfsPassword_of_none hnone, singboxAnytls, get_mkObj]
    rfl

theorem obfuscation_proxy (hp : HasPassword node) (h : buildProxy node = .ok j) :
    obfuscation .clash j = (obfsType node, obfsPassword node) := by
  rw [buildProxy] at h
  rcases hp with hp | hp
  · rw [hp] at h
    obtain ⟨password, -, h⟩ := Except.bind_eq_ok h
    cases h
    obtain ⟨htype, hpassword⟩ := get_clashHysteria2 hp password
    simp only [obfuscation, getStr]
    rw [htype, hpassword]
    cases obfsType node <;> cases obfsPassword node <;> rfl
  · rw [hp] at h
    obtain ⟨password, -, h⟩ := Except.bind_eq_ok h
    cases h
    have hnone := obfsType_of_anytls hp
    simp only [obfuscation, getStr]
    rw [obfsPassword_of_none hnone, hnone, clashAnytls, get_mkObj, get_mkObj]
    rfl

/-- The connection of an output, but for the obfuscation, from what each format says. -/
theorem ofJson_emit {format : SubscriptionFormat} (hport : node.port < 2 ^ 64)
    (hp : HasPassword node) (h : emit format node = .ok (.json j)) {c : String}
    (hc : credentialOf node.protocol node.settings = some c) :
    ofJson format j = some ⟨node.server, node.port, c,
      named node.server (serverNameFor format node), skipVerify node,
      (alpnFor format node).getD [], obfuscation format j⟩ := by
  obtain ⟨hserver, hname, halpn, -⟩ := read_emit h
  obtain ⟨c', hc', hcredential⟩ := credential_emit h
  cases hc.symm.trans hc'
  have hskip : skipFlag format (.json j) = some (skipVerify node) := by
    rw [skipFlag_emit (by rcases hp with hp | hp <;> rw [hp] <;> decide) h,
      if_neg (by rcases hp with hp | hp <;> rw [hp] <;> decide)]
  rw [ofJson, hserver, port_emit hport h, hcredential, hskip, hname, halpn]
  rfl

theorem ofJson_outbound (hport : node.port < 2 ^ 64) (hp : HasPassword node)
    (h : buildOutbound node = .ok j) {c : String}
    (hc : credentialOf node.protocol node.settings = some c) :
    ofJson .singBox j = some ⟨node.server, node.port, c,
      named node.server (tlsOrSetting node "serverName" "sni"), skipVerify node,
      protocolsOf (fixedAlpn node),
      ((obfsPassword node).bind fun _ => obfsType node, obfsPassword node)⟩ := by
  have hemit : emit .singBox node = .ok (.json j) := by rw [emit, h]; rfl
  have hname : named node.server (serverNameFor .singBox node) =
      named node.server (tlsOrSetting node "serverName" "sni") := by
    unfold serverNameFor
    rcases hp with hp | hp <;> rw [hp] <;> exact named_getD_empty _
  have halpn : (alpnFor .singBox node).getD [] = protocolsOf (fixedAlpn node) := by
    unfold alpnFor fixedAlpn
    rcases hp with hp | hp <;> rw [hp] <;> rfl
  rw [ofJson_emit hport hp hemit hc, obfuscation_outbound hp h, hname, halpn]

theorem ofJson_proxy (hport : node.port < 2 ^ 64) (hp : HasPassword node)
    (h : buildProxy node = .ok j) {c : String}
    (hc : credentialOf node.protocol node.settings = some c) :
    ofJson .clash j = some ⟨node.server, node.port, c,
      named node.server ((node.settings.getStr "sni").or (tlsName node)), skipVerify node,
      protocolsOf (fixedAlpn node), (obfsType node, obfsPassword node)⟩ := by
  have hemit : emit .clash node = .ok (.json j) := by rw [emit, h]; rfl
  have hname : named node.server (serverNameFor .clash node) =
      named node.server ((node.settings.getStr "sni").or (tlsName node)) := by
    unfold serverNameFor
    rcases hp with hp | hp <;> rw [hp] <;> exact named_getD_server _
  have halpn : (alpnFor .clash node).getD [] = protocolsOf (fixedAlpn node) := by
    unfold alpnFor fixedAlpn
    rcases hp with hp | hp <;> rw [hp] <;> rfl
  rw [ofJson_emit hport hp hemit hc, obfuscation_proxy hp h, hname, halpn]

end Formats

/-! ### The link -/

section Link

variable {node : ProxyNode} {l : Link}

theorem lookup_given (key k : String) (value : Option String) :
    (given k value).lookup key = if k = key then value else none := by
  cases value with
  | none => rw [ite_self]; rfl
  | some v =>
    rw [given, Option.map_some, Option.toList_some, List.lookup_singleton]
    by_cases h : k = key
    · rw [if_pos h, if_pos (beq_iff_eq.mpr h.symm)]
    · rw [if_neg h, if_neg fun heq => h (beq_iff_eq.mp heq).symm]

theorem verifyParams_eq (node : ProxyNode) : verifyParams node =
    given "sni" (some ((tlsOrSetting node "serverName" "sni").getD node.server)) ++
      given "insecure" (some (if skipVerify node then "1" else "0")) := rfl

/-- The parameters of a Hysteria2 link, with the two of the obfuscation apart. -/
theorem hysteria2Params_eq (hp : node.protocol = .hysteria2) : hysteria2Params node =
    verifyParams node ++
      given "upmbps" ((node.settings.getU64 "up_mbps").map fun n => toString n) ++
      given "downmbps" ((node.settings.getU64 "down_mbps").map fun n => toString n) ++
      (given "obfs" (obfsType node) ++ given "obfs-password" (obfsPassword node)) ++
      given "alpn" (some (linkAlpn node)) := by
  rw [hysteria2Params, obfsPassword, obfsType, if_pos hp, linkAlpn, if_pos hp]
  cases (node.settings.getStr "obfs_type").filter (fun t => t ≠ "none") with
  | none => rfl
  | some type => rfl

/-- The parameters of a link with a password, key by key. -/
theorem lookup_paramsOf (hp : HasPassword node) :
    (paramsOf node).lookup "sni" = some ((tlsOrSetting node "serverName" "sni").getD node.server) ∧
      (paramsOf node).lookup "insecure" = some (if skipVerify node then "1" else "0") ∧
      ((paramsOf node).lookup "alpn").getD "" = linkAlpn node ∧
      (paramsOf node).lookup "obfs" = obfsType node ∧
      (paramsOf node).lookup "obfs-password" = obfsPassword node := by
  rcases hp with hp | hp
  · rw [show paramsOf node = hysteria2Params node by rw [paramsOf, hp], hysteria2Params_eq hp,
      verifyParams_eq]
    simp only [List.lookup_append, lookup_given]
    refine ⟨?_, ?_, ?_, ?_, ?_⟩ <;> simp
  · rw [show paramsOf node = verifyParams node ++ given "alpn" (tlsOrSetting node "alpn" "alpn") by
      rw [paramsOf, hp], verifyParams_eq, obfsPassword_of_none (obfsType_of_anytls hp),
      obfsType_of_anytls hp, linkAlpn, hp,
      if_neg (show ¬ProtocolType.anytls = .hysteria2 by decide)]
    simp only [List.lookup_append, lookup_given]
    refine ⟨?_, ?_, ?_, ?_, ?_⟩ <;> simp

theorem sublist_given (key : String) (value : Option String) :
    ((given key value).map Prod.fst).Sublist [key] := by
  cases value with
  | none => exact List.nil_sublist _
  | some v => exact List.Sublist.refl _

/-- No key is given twice. -/
theorem nodup_keys (hp : HasPassword node) : ((paramsOf node).map Prod.fst).Nodup := by
  have hall : ["sni", "insecure", "upmbps", "downmbps", "obfs", "obfs-password", "alpn"].Nodup := by
    decide
  refine List.Nodup.sublist ?_ hall
  rcases hp with hp | hp
  · rw [show paramsOf node = hysteria2Params node by rw [paramsOf, hp], hysteria2Params_eq hp,
      verifyParams_eq]
    simp only [List.map_append]
    exact List.Sublist.append (List.Sublist.append (List.Sublist.append (List.Sublist.append
      (List.Sublist.append (sublist_given _ _) (sublist_given _ _)) (sublist_given _ _))
      (sublist_given _ _)) (List.Sublist.append (sublist_given _ _) (sublist_given _ _)))
      (sublist_given _ _)
  · rw [show paramsOf node = verifyParams node ++ given "alpn" (tlsOrSetting node "alpn" "alpn") by
      rw [paramsOf, hp], verifyParams_eq]
    simp only [List.map_append]
    refine List.Sublist.trans (List.Sublist.append (List.Sublist.append (sublist_given _ _)
      (sublist_given _ _)) (sublist_given _ _)) ?_
    decide

/-- The connection of one link is that of its line. -/
theorem ofBody_eq_some_iff {c : Connection} (h : buildLink node = .ok l) :
    ofBody (body [l]) = some c ↔
      '\n' ∉ l.render.toList ∧ (Uri.parse l.render).map ofUri = some c := by
  have hne := render_ne_empty h
  have htext : "\n".intercalate ([l].map Link.render) = l.render := String.intercalate_singleton
  rw [ofBody, body, Base64.decode_encode, Option.bind_some, htext, Text.lines, if_neg hne]
  by_cases hline : '\n' ∈ l.render.toList
  · obtain ⟨xs, ys, -, hsplit⟩ := Text.split_of_mem hline
    have hrest := Text.one_le_length_split '\n' (String.ofList ys)
    rw [hsplit]
    cases hpieces : Text.split '\n' (String.ofList ys) with
    | nil =>
      rw [hpieces] at hrest
      exact absurd hrest (by decide)
    | cons z zs =>
      constructor
      · intro hc
        cases hc
      · exact fun hc => absurd hline hc.1
  · rw [Text.split_of_not_mem hline]
    exact ⟨fun hc => ⟨hline, hc⟩, fun hc => hc.2⟩

/-! ### A link that agrees is read back -/

/-- What a client reads of a form-encoded text. -/
def plusText (s : String) : String := String.ofList (s.toList.map Uri.plusChar)

theorem eq_of_plusText {s t : String} (ht : '+' ∉ t.toList) (h : plusText s = t) : s = t := by
  have hmap : ∀ xs ys : List Char, '+' ∉ ys → xs.map Uri.plusChar = ys → xs = ys := by
    intro xs
    induction xs with
    | nil => exact fun ys _ hys => hys
    | cons x xs ih =>
      intro ys hys hmap
      rw [List.map_cons] at hmap
      cases ys with
      | nil => cases hmap
      | cons y ys =>
        obtain ⟨hx, hxs⟩ := List.cons.inj hmap
        rw [List.mem_cons, not_or] at hys
        have hchar : Uri.plusChar x = x := by
          refine if_neg ?_
          rintro rfl
          exact hys.1 hx
        rw [hchar.symm.trans hx, ih ys hys.2 hxs]
  refine String.toList_inj.mp (hmap _ _ ht ?_)
  rw [← h, plusText, String.toList_ofList]

theorem protocolsOf_inj {v w : String} (hw : ',' ∉ w.toList) (h : protocolsOf v = protocolsOf w) :
    v = w := by
  have hone := Text.one_le_length_split ',' v
  rw [protocolsOf, protocolsOf, Text.split_of_not_mem hw] at h
  by_cases hempty : v = ""
  · rw [if_pos hempty] at h
    split at h
    · rename_i hw'
      exact hempty.trans hw'.symm
    · cases h
  · rw [if_neg hempty] at h
    split at h
    · rw [h] at hone
      exact absurd hone (by decide)
    · by_cases hcomma : ',' ∈ v.toList
      · obtain ⟨xs, ys, -, hsplit⟩ := Text.split_of_mem hcomma
        have hrest := Text.one_le_length_split ',' (String.ofList ys)
        rw [hsplit] at h
        rw [(List.cons.inj h).2] at hrest
        exact absurd hrest (by decide)
      · rw [Text.split_of_not_mem hcomma] at h
        exact (List.cons.inj h).1

/-- The server name that is read is the one that is meant only if it is the same text. -/
theorem eq_of_named {server name : String}
    (h : named server (some (plusText name)) = named server (some name)) :
    plusText name = name := by
  by_cases hempty : plusText name = ""
  · rw [eq_of_plusText (t := "") (by decide) hempty]
    rfl
  · rw [named_some_of_ne hempty] at h
    by_cases hname : name = ""
    · exact absurd (by rw [hname]; rfl) hempty
    · rwa [named_some_of_ne hname] at h

/-- A value that is found under its key and read from its text is the one that is meant. -/
def Settled (query : List (String × String)) (kv : String × String) : Prop :=
  ∀ v, query.lookup kv.1 = some v →
    Uri.decode ((valueText kv).toList.takeWhile Uri.inPiece) = some v → v = kv.2

theorem decode_encoded {key : String} (hkey : key ∉ rawKeys) (value : String) :
    Uri.decode ((valueText (key, value)).toList.takeWhile Uri.inPiece) = some (plusText value) := by
  have hfree : Uri.Free ['&', '#'] (Text.formEncode value).toList :=
    Uri.free_formEncode (by decide) value
  rw [valueText, if_neg hkey, List.takeWhile_eq_self_iff.mpr (Uri.inPiece_of_free hfree)]
  exact Uri.decode_formEncode value

theorem settled_plain {query : List (String × String)} {key value : String} (hkey : key ∈ rawKeys)
    (h : Plain ['&', '#'] value) : Settled query (key, value) := by
  intro v _ hdecode
  rw [valueText, if_pos hkey,
    List.takeWhile_eq_self_iff.mpr (Uri.inPiece_of_free (List.forall_mem_cons.mp h.1).2),
    Uri.decode_eq_some_iff.mpr (Uri.percentDecode_self_iff.mpr h.2)] at hdecode
  exact (Option.some.inj hdecode).symm

theorem settled_given {query : List (String × String)} {key : String} {value : Option String}
    (h : ∀ v, value = some v → Settled query (key, v)) :
    ∀ kv ∈ given key value, Settled query kv := by
  intro kv hkv
  cases value with
  | none => cases hkv
  | some v =>
    rw [List.mem_singleton.mp hkv]
    exact h v rfl

theorem hasEscape_of_not_mem {cs : List Char} (h : '%' ∉ cs) : Uri.hasEscape cs = false := by
  fun_induction Uri.hasEscape cs with
  | case1 x y cs ih => exact absurd List.mem_cons_self h
  | case2 c cs hshape ih => exact ih fun hc => h (List.mem_cons_of_mem _ hc)
  | case3 => rfl

/-- Numbers are read back. -/
theorem plain_toString (n : Nat) : Plain ['&', '#'] (toString n) := by
  have hlist : (toString n).toList = Nat.toDigits 10 n := Nat.toList_repr
  have hdigit : ∀ c ∈ (toString n).toList, c.isDigit = true := by
    rw [hlist]
    exact fun c hc => Nat.isDigit_of_mem_toDigits (by decide) (by decide) hc
  have hstop : ∀ c, c.isDigit = false → c ∉ (toString n).toList := by
    intro c hc hmem
    rw [hdigit c hmem] at hc
    cases hc
  refine ⟨?_, hasEscape_of_not_mem (hstop '%' (by decide))⟩
  intro c hc
  simp only [List.mem_cons, List.not_mem_nil, or_false] at hc
  rcases hc with rfl | rfl | rfl <;> exact hstop _ (by decide)

section Query

variable {query : List (String × String)}
  (hname : named node.server (query.lookup "sni") =
    named node.server (tlsOrSetting node "serverName" "sni"))
  (halpn : protocolsOf ((query.lookup "alpn").getD "") = protocolsOf (fixedAlpn node))
  (htype : query.lookup "obfs" = obfsType node)
  (hpassword : query.lookup "obfs-password" = obfsPassword node)

include hname in
theorem settled_verifyParams : ∀ kv ∈ verifyParams node, Settled query kv := by
  rw [verifyParams_eq]
  refine ShareLink.forall_append (settled_given ?_) (settled_given ?_)
  · rintro name heq v hv hdecode
    cases heq
    simp only at hv
    rw [decode_encoded (by decide)] at hdecode
    cases hdecode
    rw [hv] at hname
    exact eq_of_named (hname.trans (named_getD_server _).symm)
  · rintro flag heq
    cases heq
    exact settled_plain (by decide) (by split <;> exact ⟨by decide, by decide⟩)

include halpn in
theorem settled_alpn : Settled query ("alpn", linkAlpn node) := by
  have hfixed : ',' ∉ (fixedAlpn node).toList ∧ '+' ∉ (fixedAlpn node).toList := by
    rw [fixedAlpn]
    split <;> decide
  intro v hv hdecode
  rw [decode_encoded (by decide)] at hdecode
  cases hdecode
  simp only at hv
  rw [hv, Option.getD_some] at halpn
  have hread := protocolsOf_inj hfixed.1 halpn
  rw [hread, eq_of_plusText hfixed.2 hread]

include hname halpn htype hpassword in
theorem settled_paramsOf (hp : HasPassword node) : ∀ kv ∈ paramsOf node, Settled query kv := by
  rcases hp with hp | hp
  · rw [show paramsOf node = hysteria2Params node by rw [paramsOf, hp], hysteria2Params_eq hp]
    have hmbps : ∀ key ∈ ["upmbps", "downmbps"], ∀ n : Option Nat,
        ∀ kv ∈ given key (n.map fun n => toString n), Settled query kv := by
      intro key hkey n
      refine settled_given fun v hv => ?_
      obtain ⟨n, -, rfl⟩ := Option.map_eq_some_iff.mp hv
      refine settled_plain ?_ (plain_toString n)
      simp only [List.mem_cons, List.not_mem_nil, or_false] at hkey
      rcases hkey with rfl | rfl <;> decide
    refine ShareLink.forall_append (ShareLink.forall_append (ShareLink.forall_append
      (ShareLink.forall_append (settled_verifyParams hname) (hmbps _ (by decide) _))
      (hmbps _ (by decide) _)) (ShareLink.forall_append (settled_given ?_) (settled_given ?_)))
      (settled_given ?_)
    · rintro type heq v hv -
      simp only at hv
      rw [htype, heq] at hv
      exact (Option.some.inj hv).symm
    · rintro pw heq v hv -
      simp only at hv
      rw [hpassword, heq] at hv
      exact (Option.some.inj hv).symm
    · rintro text heq
      cases heq
      exact settled_alpn halpn
  · rw [show paramsOf node = verifyParams node ++ given "alpn" (tlsOrSetting node "alpn" "alpn") by
      rw [paramsOf, hp]]
    refine ShareLink.forall_append (settled_verifyParams hname) (settled_given ?_)
    intro text heq
    have hlink : linkAlpn node = text := by rw [linkAlpn, heq, Option.getD_some]
    rw [← hlink]
    exact settled_alpn halpn

end Query

/-- A link that is read as the connection of the other formats is read back. -/
theorem readable_of_connection (hp : HasPassword node) (h : buildLink node = .ok l)
    (hline : '\n' ∉ l.render.toList) {u : Uri.Components} (hparse : Uri.parse l.render = some u)
    (hserver : u.host = node.server) (hport : u.port = node.port)
    (hcredential : credentialOf node.protocol node.settings = some u.userinfo)
    (hname : named node.server (u.query.lookup "sni") =
      named node.server (tlsOrSetting node "serverName" "sni"))
    (halpn : protocolsOf ((u.query.lookup "alpn").getD "") = protocolsOf (fixedAlpn node))
    (htype : u.query.lookup "obfs" = obfsType node)
    (hpassword : u.query.lookup "obfs-password" = obfsPassword node) :
    Readable node ∧ u = components node u.userinfo := by
  obtain ⟨c, hc, hrender⟩ := render_eq h
  cases hc.symm.trans hcredential
  rw [hrender] at hparse
  have hkeys : ((composed node u.userinfo).pieces.map Uri.Piece.key).Nodup := by
    have hsame : (composed node u.userinfo).pieces.map Uri.Piece.key =
        (paramsOf node).map Prod.fst := by
      simp only [composed, List.map_map]
      rfl
    rw [hsame]
    exact nodup_keys hp
  have hreads : (composed node u.userinfo).Reads := by
    refine Uri.Composed.reads_of_parse (ok_composed _ _) hkeys hparse rfl hserver hport ?_
    intro p hmem
    obtain ⟨kv, hkv, rfl⟩ := List.mem_map.mp hmem
    rw [text_piece]
    exact settled_paramsOf hname halpn htype hpassword hp kv hkv
  have hcomponents := (Uri.Composed.parse_iff (ok_composed node u.userinfo)).mpr hreads
  rw [components_composed] at hcomponents
  refine ⟨(readable_iff h).mpr ⟨⟨u.userinfo, hc, ?_⟩, hline⟩, ?_⟩
  · rw [hrender]
    exact hcomponents
  · exact Option.some.inj (hparse.symm.trans hcomponents)

end Link

/-! ### The same connection -/

section Same

variable {node : ProxyNode}

/-- The two orders of the sources of the server name. -/
theorem named_or_comm_iff : named node.server (tlsOrSetting node "serverName" "sni") =
      named node.server ((node.settings.getStr "sni").or (tlsName node)) ↔
    ∀ t s, tlsName node = some t → node.settings.getStr "sni" = some s →
      named node.server (some t) = named node.server (some s) := by
  rw [tlsOrSetting, ← tlsName]
  cases tlsName node with
  | none => simp
  | some t =>
    cases node.settings.getStr "sni" with
    | none => simp
    | some s => simp

/-- An obfuscation that sing-box has is one with a password. -/
theorem obfuscation_iff : ((obfsPassword node).bind fun _ => obfsType node) = obfsType node ↔
    (obfsType node ≠ none → node.settings.getStr "obfs_password" ≠ none) := by
  rw [obfsPassword]
  cases obfsType node with
  | none => simp
  | some type => cases node.settings.getStr "obfs_password" <;> simp

/-- What a client reads in a link that is read back. -/
theorem ofUri_components (hp : HasPassword node) (c : String) : ofUri (components node c) =
    ⟨node.server, node.port, c, named node.server (tlsOrSetting node "serverName" "sni"),
      skipVerify node, protocolsOf (linkAlpn node), (obfsType node, obfsPassword node)⟩ := by
  obtain ⟨hsni, hinsecure, halpn, htype, hpassword⟩ := lookup_paramsOf hp
  have hskip : decide ((paramsOf node).lookup "insecure" = some "1") = skipVerify node := by
    rw [hinsecure]
    cases skipVerify node <;> decide
  rw [ofUri, components]
  simp only
  rw [hskip, hsni, halpn, htype, hpassword, named_getD_server]

/-- **The three formats agree if and only if the node is agreeable.** -/
theorem sameConnection_of_link {outbound proxy : Json} {l : Link} (hp : HasPassword node)
    (hport : node.port < 2 ^ 16) (houtbound : buildOutbound node = .ok outbound)
    (hproxy : buildProxy node = .ok proxy) (hlink : buildLink node = .ok l) :
    SameConnection outbound proxy (body [l]) ↔ Agreeable node := by
  obtain ⟨c, hc, -⟩ := render_eq hlink
  have hwide : node.port < 2 ^ 64 := Nat.lt_trans hport (by decide)
  rw [SameConnection, ofJson_outbound hwide hp houtbound hc, ofJson_proxy hwide hp hproxy hc]
  constructor
  · rintro ⟨x, hsingbox, hclash, hbody⟩
    obtain ⟨hline, hmap⟩ := (ofBody_eq_some_iff hlink).mp hbody
    obtain ⟨u, hparse, hu⟩ := Option.map_eq_some_iff.mp hmap
    cases hsingbox
    simp only [Option.some.injEq, Connection.mk.injEq, Prod.mk.injEq] at hclash
    obtain ⟨-, -, -, hnames, -, -, htypes, -⟩ := hclash
    simp only [ofUri, Connection.mk.injEq, Prod.mk.injEq] at hu
    obtain ⟨hserver, huport, hcredential, hname, -, halpn, htype, hpassword⟩ := hu
    rw [← hcredential] at hc
    rw [hserver] at hname
    rw [← htypes] at htype
    obtain ⟨hreadable, hcomponents⟩ := readable_of_connection hp hlink hline hparse hserver huport
      hc hname halpn htype hpassword
    have hquery : u.query = paramsOf node := congrArg Uri.Components.query hcomponents
    have hfixed : ',' ∉ (fixedAlpn node).toList := by
      rw [fixedAlpn]
      split <;> decide
    rw [hquery, (lookup_paramsOf hp).2.2.1] at halpn
    exact ⟨hreadable, named_or_comm_iff.mp hnames.symm, protocolsOf_inj hfixed halpn,
      obfuscation_iff.mp htypes.symm⟩
  · intro h
    obtain ⟨⟨c', hc', hparse⟩, hline⟩ := (readable_iff hlink).mp h.readable
    cases hc.symm.trans hc'
    refine ⟨_, rfl, ?_, (ofBody_eq_some_iff hlink).mpr ⟨hline, ?_⟩⟩
    · rw [named_or_comm_iff.mpr h.serverName, obfuscation_iff.mpr h.obfuscation]
    · rw [hparse, Option.map_some, ofUri_components hp, h.alpn, obfuscation_iff.mpr h.obfuscation]

/-- **The three formats are one connection if and only if the node is agreeable.** -/
theorem sameConnection_iff {outbound proxy : Json} {body : String} (hp : HasPassword node)
    (hport : node.port < 2 ^ 16) (houtbound : buildOutbound node = .ok outbound)
    (hproxy : buildProxy node = .ok proxy) (hbody : generate [node] = .ok body) :
    SameConnection outbound proxy body ↔ Agreeable node := by
  obtain ⟨links, hlinks, hbody⟩ := Except.bind_eq_ok hbody
  cases hbody
  rw [List.mapM_cons] at hlinks
  obtain ⟨l, hl, hlinks⟩ := Except.bind_eq_ok hlinks
  cases hlinks
  exact sameConnection_of_link hp hport houtbound hproxy hl

end Same

/-- A node with no TLS settings of its own is one connection in the three formats. -/
theorem sameConnection_oneNode :
    SameConnection (singboxHysteria2 (OneNode.node "[2001:db8::1]" "secret") "secret")
      (clashHysteria2 (OneNode.node "[2001:db8::1]" "secret") "secret")
      (OneNode.bodyOf "[2001:db8::1]" "secret") := by
  have hagreeable : Agreeable (OneNode.node "[2001:db8::1]" "secret") := by
    refine ⟨OneNode.readable_node, ?_, by decide, fun h => absurd (by decide) h⟩
    intro t s ht
    cases ht
  exact (sameConnection_iff (Or.inl rfl) (by decide) rfl rfl rfl).mpr hagreeable

/-! ### Two server names -/

namespace TwoNames

def node : ProxyNode where
  name := "hk 1"
  protocol := .anytls
  server := "1.2.3.4"
  port := 443
  settings := mkObj [("clients", arr [mkObj [("password", str "secret")]]),
    ("sni", str "b.example.com")]
  tls := some (mkObj [("serverName", str "a.example.com")])

/-- sing-box and the link have the one of the TLS settings, Clash has the other. -/
theorem not_sameConnection : ∃ outbound proxy body, buildOutbound node = .ok outbound ∧
    buildProxy node = .ok proxy ∧ generate [node] = .ok body ∧
      ¬SameConnection outbound proxy body := by
  refine ⟨singboxAnytls node "secret", clashAnytls node "secret", body [anytlsLink node "secret"],
    rfl, rfl, rfl, fun h => ?_⟩
  have hport : node.port < 2 ^ 16 := by decide
  have hagreeable := (sameConnection_of_link (Or.inr rfl) hport rfl rfl rfl).mp h
  exact absurd (hagreeable.serverName "a.example.com" "b.example.com" rfl rfl) (by decide)

end TwoNames

end ProxyPanel.Subscription.Agreement
