import ProxyPanel.Subscription.Formats

/-!
# What a client reads in a subscription

The fields of the outputs that a client connects with, read the way a client reads
them: keys of a sing-box outbound or of a Clash proxy, parameters of a share link.
A builder writes each field once, so `get_setSome_of_ne` and `get_setIndex_of_ne`
find it, and `param_append` finds a parameter among those of a link.
-/

namespace ProxyPanel.Subscription

open Json Builder SettingsHelper

/-! ### Parameters of a link -/

/-- The value of a parameter `key=value`. -/
def paramOf (key p : String) : Option String :=
  if p.toList.takeWhile (· ≠ '=') = key.toList then
    some (String.ofList ((p.toList.dropWhile (· ≠ '=')).drop 1))
  else none

/-- The first value of a parameter. -/
def param (key : String) (params : List String) : Option String := params.findSome? (paramOf key)

theorem paramOf_pair {k : String} (hk : '=' ∉ k.toList) (key v : String) :
    paramOf key (k ++ "=" ++ v) = if k = key then some v else none := by
  have hne : ∀ c ∈ k.toList, decide (c ≠ '=') = true := by
    intro c hc
    exact decide_eq_true fun heq => hk (heq ▸ hc)
  have hlist : (k ++ "=" ++ v).toList = k.toList ++ '=' :: v.toList := by
    rw [String.toList_append, String.toList_append, List.append_assoc]
    rfl
  have hkey : (k ++ "=" ++ v).toList.takeWhile (· ≠ '=') = k.toList := by
    rw [hlist, List.takeWhile_append_of_pos hne]
    simp
  have hrest : (k ++ "=" ++ v).toList.dropWhile (· ≠ '=') = '=' :: v.toList := by
    rw [hlist, List.dropWhile_append_of_pos hne]
    simp
  rw [paramOf, hkey, hrest]
  by_cases heq : k = key
  · rw [if_pos heq, if_pos (congrArg String.toList heq)]
    exact congrArg some (String.ofList_toList)
  · rw [if_neg heq, if_neg fun hsame => heq (String.toList_inj.mp hsame)]

theorem param_append (key : String) (ps qs : List String) :
    param key (ps ++ qs) = (param key ps).or (param key qs) := List.findSome?_append

theorem param_plainParam {k : String} (hk : '=' ∉ k.toList) (key : String) (v : Option String) :
    param key (plainParam k v) = if k = key then v else none := by
  cases v with
  | none =>
    rw [ite_self]
    rfl
  | some v =>
    rw [param, plainParam, List.findSome?_singleton, paramOf_pair hk]

theorem param_encodedParam {k : String} (hk : '=' ∉ k.toList) (key : String) (v : Option String) :
    param key (encodedParam k v) = if k = key then v.map Text.formEncode else none := by
  cases v with
  | none =>
    rw [Option.map_none, ite_self]
    rfl
  | some v =>
    rw [param, encodedParam, List.findSome?_singleton, paramOf_pair hk]
    rfl

/-! ### Keys of an object -/

theorem get_setSome_of_ne (j : Json) {k k' : String} (h : k' ≠ k) (v : Option Json) :
    (setSome j k v).get k' = j.get k' := by
  cases v with
  | none => rfl
  | some v => exact get_setIndex_of_ne j h v

theorem get_ite_setIndex_of_ne {p : Prop} [Decidable p] (j : Json) {k k' : String} (h : k' ≠ k)
    (v : Json) : (if p then j else j.setIndex k v).get k' = j.get k' := by
  split
  · rfl
  · exact get_setIndex_of_ne j h v

/-! ### The port -/

/-- The port an output names. -/
def Output.port : Output → Option Nat
  | .json value => (value.getU64 "server_port").or (value.getU64 "port")
  | .link l => some l.port

theorem singboxVlessReality_port {node : ProxyNode} {uuid : String} {j : Json}
    (h : singboxVlessReality node uuid = .ok j) : j.get "server_port" = some (num node.port) := by
  simp only [singboxVlessReality] at h
  obtain ⟨key, -, h⟩ := Except.bind_eq_ok h
  cases h
  rw [get_setIndex_of_ne _ (by decide), get_ite_setIndex_of_ne _ (by decide),
    get_ite_setIndex_of_ne _ (by decide), get_mkObj]
  rfl

theorem singboxHysteria2_get {k : String} (hk : k ∉ ["up_mbps", "down_mbps", "obfs"])
    (node : ProxyNode) (password : String) :
    (singboxHysteria2 node password).get k = (mkObj [("type", str "hysteria2"), ("tag", str node.name),
      ("server", str node.server), ("server_port", num node.port), ("password", str password),
      ("tls", mkObj (singboxServerTls node ++ [("alpn", strs ["h3"])]))]).get k := by
  simp only [List.mem_cons, List.not_mem_nil, or_false, not_or] at hk
  simp only [singboxHysteria2]
  split
  · split
    · rw [get_setSome_of_ne _ hk.2.1, get_setSome_of_ne _ hk.1]
    · rw [get_setIndex_of_ne _ hk.2.2, get_setSome_of_ne _ hk.2.1, get_setSome_of_ne _ hk.1]
  · rw [get_setSome_of_ne _ hk.2.1, get_setSome_of_ne _ hk.1]

theorem clashTransport_get {k : String} (hk : k ∉ ["ws-opts", "grpc-opts", "tls", "sni"])
    (network : String) (settings : Json) (tls : Option Json) (proxy : Json) :
    (clashTransport network settings tls proxy).get k = proxy.get k := by
  simp only [List.mem_cons, List.not_mem_nil, or_false, not_or] at hk
  unfold clashTransport
  split
  · exact get_setIndex_of_ne _ hk.1 _
  · split
    · exact get_setIndex_of_ne _ hk.2.1 _
    · split
      · split
        · rw [get_setSome_of_ne _ hk.2.2.2, get_setIndex_of_ne _ hk.2.2.1]
        · rfl
      · rfl

/-- The keys of a Clash proxy that only some builders add. -/
def addedKeys : List String :=
  ["flow", "tls", "servername", "client-fingerprint", "reality-opts", "xhttp-opts",
    "skip-cert-verify", "ws-opts", "grpc-opts", "sni"]

theorem clashVless_get {k : String} (hk : k ∉ addedKeys) (node : ProxyNode) (uuid : String) :
    ∃ network, (clashVless node uuid).get k = (mkObj [("name", str node.name), ("type", str "vless"),
      ("server", str node.server), ("port", num node.port), ("uuid", str uuid),
      ("network", str network), ("udp", bool true)]).get k := by
  have hne : ∀ k' ∈ addedKeys, k ≠ k' := fun k' hk' heq => hk (heq ▸ hk')
  have htransport : k ∉ ["ws-opts", "grpc-opts", "tls", "sni"] := by
    intro hmem
    revert hk
    simp only [List.mem_cons, List.not_mem_nil, or_false] at hmem
    rcases hmem with rfl | rfl | rfl | rfl <;> decide
  simp only [clashVless]
  rw [clashTransport_get htransport]
  cases node.protocol with
  | vlessReality =>
    rw [clashVlessReality, get_setIndex_of_ne _ (hne "reality-opts" (by decide)),
      get_setIndex_of_ne _ (hne "client-fingerprint" (by decide)),
      get_setIndex_of_ne _ (hne "servername" (by decide)),
      get_setIndex_of_ne _ (hne "tls" (by decide)),
      get_ite_setIndex_of_ne _ (hne "flow" (by decide))]
    exact ⟨_, rfl⟩
  | vlessXhttp =>
    rw [clashVlessXhttp, get_setIndex_of_ne _ (hne "skip-cert-verify" (by decide)),
      get_setIndex_of_ne _ (hne "servername" (by decide)),
      get_setIndex_of_ne _ (hne "xhttp-opts" (by decide)),
      get_setIndex_of_ne _ (hne "tls" (by decide)),
      get_ite_setIndex_of_ne _ (hne "flow" (by decide))]
    exact ⟨_, rfl⟩
  | hysteria2 =>
    rw [get_ite_setIndex_of_ne _ (hne "flow" (by decide))]
    exact ⟨_, rfl⟩
  | anytls =>
    rw [get_ite_setIndex_of_ne _ (hne "flow" (by decide))]
    exact ⟨_, rfl⟩

theorem clashHysteria2_get {k : String} (hk : k ∉ ["obfs", "obfs-password"]) (node : ProxyNode)
    (password : String) : (clashHysteria2 node password).get k =
      (mkObj [("name", str node.name), ("type", str "hysteria2"), ("server", str node.server),
        ("port", num node.port), ("password", str password), ("sni", clashSni node),
        ("skip-cert-verify", bool (skipVerify node)), ("alpn", strs ["h3"]),
        ("up", u64Or node.settings "up_mbps" 100), ("down", u64Or node.settings "down_mbps" 100),
        ("udp", bool true)]).get k := by
  simp only [List.mem_cons, List.not_mem_nil, or_false, not_or] at hk
  simp only [clashHysteria2]
  split
  · split
    · rfl
    · rw [get_setSome_of_ne _ hk.2, get_setIndex_of_ne _ hk.1]
  · rfl

theorem port_eq_of_server {j : Json} {port : Nat} (hport : port < 2 ^ 64)
    (h : j.get "server_port" = some (num port)) : (Output.json j).port = some port := by
  have hu64 : j.getU64 "server_port" = some port := by
    rw [getU64, h, Option.bind_some, asU64, if_pos ⟨Int.natCast_nonneg _, by exact_mod_cast hport⟩,
      Int.toNat_natCast]
  rw [Output.port, hu64]
  rfl

theorem port_eq_of_port {j : Json} {port : Nat} (hport : port < 2 ^ 64)
    (hnone : j.get "server_port" = none) (h : j.get "port" = some (num port)) :
    (Output.json j).port = some port := by
  have hu64 : j.getU64 "port" = some port := by
    rw [getU64, h, Option.bind_some, asU64, if_pos ⟨Int.natCast_nonneg _, by exact_mod_cast hport⟩,
      Int.toNat_natCast]
  have hnone' : j.getU64 "server_port" = none := by rw [getU64, hnone]; rfl
  rw [Output.port, hnone', hu64]
  rfl

theorem port_buildOutbound {node : ProxyNode} {j : Json} (hport : node.port < 2 ^ 64)
    (h : buildOutbound node = .ok j) : (Output.json j).port = some node.port := by
  refine port_eq_of_server hport ?_
  rw [buildOutbound] at h
  cases hp : node.protocol with
  | vlessReality =>
    rw [hp] at h
    obtain ⟨uuid, -, h⟩ := Except.bind_eq_ok h
    exact singboxVlessReality_port h
  | vlessXhttp =>
    rw [hp] at h
    cases h
  | hysteria2 =>
    rw [hp] at h
    obtain ⟨password, -, h⟩ := Except.bind_eq_ok h
    cases h
    rw [singboxHysteria2_get (by decide), get_mkObj]
    rfl
  | anytls =>
    rw [hp] at h
    obtain ⟨password, -, h⟩ := Except.bind_eq_ok h
    cases h
    rw [singboxAnytls, get_mkObj]
    rfl

theorem port_buildProxy {node : ProxyNode} {j : Json} (hport : node.port < 2 ^ 64)
    (h : buildProxy node = .ok j) : (Output.json j).port = some node.port := by
  have hvless : ∀ uuid, (Output.json (clashVless node uuid)).port = some node.port := by
    intro uuid
    obtain ⟨network, hserver⟩ := clashVless_get (k := "server_port") (by decide) node uuid
    obtain ⟨network', hget⟩ := clashVless_get (k := "port") (by decide) node uuid
    refine port_eq_of_port hport ?_ ?_
    · rw [hserver, get_mkObj]
      rfl
    · rw [hget, get_mkObj]
      rfl
  rw [buildProxy] at h
  cases hp : node.protocol with
  | vlessReality =>
    rw [hp] at h
    obtain ⟨uuid, -, h⟩ := Except.bind_eq_ok h
    cases h
    exact hvless uuid
  | vlessXhttp =>
    rw [hp] at h
    obtain ⟨uuid, -, h⟩ := Except.bind_eq_ok h
    cases h
    exact hvless uuid
  | hysteria2 =>
    rw [hp] at h
    obtain ⟨password, -, h⟩ := Except.bind_eq_ok h
    cases h
    refine port_eq_of_port hport ?_ ?_
    · rw [clashHysteria2_get (by decide), get_mkObj]
      rfl
    · rw [clashHysteria2_get (by decide), get_mkObj]
      rfl
  | anytls =>
    rw [hp] at h
    obtain ⟨password, -, h⟩ := Except.bind_eq_ok h
    cases h
    refine port_eq_of_port hport ?_ ?_
    · rw [clashAnytls, get_mkObj]
      rfl
    · rw [clashAnytls, get_mkObj]
      rfl

theorem port_buildLink {node : ProxyNode} {l : Link} (h : buildLink node = .ok l) :
    l.port = node.port := by
  have hvless : ∀ id, vlessLink node id = .ok l → l.port = node.port := by
    intro id hlink
    simp only [vlessLink] at hlink
    split at hlink <;>
    · obtain ⟨security, -, hlink⟩ := Except.bind_eq_ok hlink
      cases hlink
      rfl
  rw [buildLink] at h
  cases hp : node.protocol with
  | vlessReality =>
    rw [hp] at h
    obtain ⟨uuid, -, h⟩ := Except.bind_eq_ok h
    exact hvless uuid h
  | vlessXhttp =>
    rw [hp] at h
    obtain ⟨uuid, -, h⟩ := Except.bind_eq_ok h
    exact hvless uuid h
  | hysteria2 =>
    rw [hp] at h
    obtain ⟨password, -, h⟩ := Except.bind_eq_ok h
    cases h
    rfl
  | anytls =>
    rw [hp] at h
    obtain ⟨password, -, h⟩ := Except.bind_eq_ok h
    cases h
    rfl

/-- What a node becomes, format by format. -/
theorem emit_cases {format : SubscriptionFormat} {node : ProxyNode} {out : Output}
    (h : emit format node = .ok out) :
    (format = .singBox ∧ ∃ j, buildOutbound node = .ok j ∧ out = .json j) ∨
    (format = .clash ∧ ∃ j, buildProxy node = .ok j ∧ out = .json j) ∨
    (format = .base64 ∧ ∃ l, buildLink node = .ok l ∧ out = .link l) := by
  cases format with
  | singBox =>
    cases hj : buildOutbound node with
    | error e => rw [emit, hj] at h; cases h
    | ok j => rw [emit, hj] at h; cases h; exact .inl ⟨rfl, j, rfl, rfl⟩
  | clash =>
    cases hj : buildProxy node with
    | error e => rw [emit, hj] at h; cases h
    | ok j => rw [emit, hj] at h; cases h; exact .inr (.inl ⟨rfl, j, rfl, rfl⟩)
  | base64 =>
    cases hl : buildLink node with
    | error e => rw [emit, hl] at h; cases h
    | ok l => rw [emit, hl] at h; cases h; exact .inr (.inr ⟨rfl, l, rfl, rfl⟩)

/-- **Every format names the port of the node.** -/
theorem port_emit {format : SubscriptionFormat} {node : ProxyNode} {out : Output}
    (hport : node.port < 2 ^ 64) (h : emit format node = .ok out) : out.port = some node.port := by
  rcases emit_cases h with ⟨-, j, hj, rfl⟩ | ⟨-, j, hj, rfl⟩ | ⟨-, l, hl, rfl⟩
  · exact port_buildOutbound hport hj
  · exact port_buildProxy hport hj
  · exact congrArg some (port_buildLink hl)

/-! ### Certificate verification -/

/-- Whether an output tells the client to skip verification; `none` if it does not say. -/
def skipFlag (format : SubscriptionFormat) : Output → Option Bool
  | .json value =>
    match format with
    | .singBox => ((value.get "tls").bind (·.get "insecure")).bind asBool
    | _ => (value.get "skip-cert-verify").bind asBool
  | .link l => (param "insecure" l.params).map fun v => decide (v = "1")

theorem skipFlag_singboxHysteria2 (node : ProxyNode) (password : String) :
    skipFlag .singBox (.json (singboxHysteria2 node password)) = some (skipVerify node) := by
  have htls : (singboxHysteria2 node password).get "tls" =
      some (mkObj (singboxServerTls node ++ [("alpn", strs ["h3"])])) := by
    rw [singboxHysteria2_get (by decide), get_mkObj]
    rfl
  simp only [skipFlag, htls, Option.bind_some, get_mkObj]
  rfl

theorem skipFlag_singboxAnytls (node : ProxyNode) (password : String) :
    skipFlag .singBox (.json (singboxAnytls node password)) = some (skipVerify node) := by
  have htls : (singboxAnytls node password).get "tls" = some (mkObj (singboxServerTls node)) := by
    rw [singboxAnytls, get_mkObj]
    rfl
  simp only [skipFlag, htls, Option.bind_some, get_mkObj]
  rfl

theorem skipFlag_clashHysteria2 (node : ProxyNode) (password : String) :
    skipFlag .clash (.json (clashHysteria2 node password)) = some (skipVerify node) := by
  simp only [skipFlag]
  rw [clashHysteria2_get (by decide), get_mkObj]
  rfl

theorem skipFlag_clashAnytls (node : ProxyNode) (password : String) :
    skipFlag .clash (.json (clashAnytls node password)) = some (skipVerify node) := by
  simp only [skipFlag]
  rw [clashAnytls, get_mkObj]
  rfl

theorem isObject_ite_setIndex {p : Prop} [Decidable p] {j : Json} (h : j.isObject = true) (k : String)
    (v : Json) : (if p then j else j.setIndex k v).isObject = true := by
  split
  · exact h
  · exact isObject_setIndex h k v

theorem skipFlag_clashXhttp {node : ProxyNode} (hprotocol : node.protocol = .vlessXhttp)
    (uuid : String) : skipFlag .clash (.json (clashVless node uuid)) =
      some (!tlsHasRealCertificate node.tls) := by
  have hget : (clashVless node uuid).get "skip-cert-verify" =
      some (bool (!tlsHasRealCertificate node.tls)) := by
    simp only [clashVless]
    rw [clashTransport_get (by decide), hprotocol]
    refine get_setIndex_self (isObject_setIndex (isObject_setIndex (isObject_setIndex
      (isObject_ite_setIndex (isObject_mkObj _) _ _) _ _) _ _) _ _) _ _
  simp only [skipFlag, hget]
  rfl

theorem param_linkVerify (node : ProxyNode) (rest : List String) :
    param "insecure" (linkVerify node ++ rest) = some (if skipVerify node then "1" else "0") := by
  rw [param_append, linkVerify, param_append, param_encodedParam (by decide),
    param_plainParam (by decide)]
  rfl

theorem skipFlag_link {node : ProxyNode} {l : Link} {rest : List String}
    (h : l.params = linkVerify node ++ rest) (format : SubscriptionFormat) :
    skipFlag format (.link l) = some (skipVerify node) := by
  rw [skipFlag, h, param_linkVerify]
  cases skipVerify node <;> decide

/-- The links of VLESS have no such parameter. -/
theorem skipFlag_xhttpLink {node : ProxyNode} (hprotocol : node.protocol = .vlessXhttp) {id : String}
    {l : Link} (h : vlessLink node id = .ok l) (format : SubscriptionFormat) :
    skipFlag format (.link l) = none := by
  have hplain : ∀ k ∈ ["type", "flow", "mode", "fp"], ∀ v, param "insecure" (plainParam k v) = none := by
    intro k hk v
    simp only [List.mem_cons, List.not_mem_nil, or_false] at hk
    rcases hk with rfl | rfl | rfl | rfl <;> exact param_plainParam (by decide) _ _
  have hencoded : ∀ k ∈ ["path", "host", "sni", "alpn"], ∀ v,
      param "insecure" (encodedParam k v) = none := by
    intro k hk v
    simp only [List.mem_cons, List.not_mem_nil, or_false] at hk
    rcases hk with rfl | rfl | rfl | rfl <;> exact param_encodedParam (by decide) _ _
  have hflow : param "insecure" (if (node.settings.getStr "flow").getD "" = "" then []
      else plainParam "flow" (some ((node.settings.getStr "flow").getD ""))) = none := by
    split
    · rfl
    · exact hplain "flow" (by decide) _
  have htransport : param "insecure" (linkTransport "xhttp" node.settings) = none := by
    rw [linkTransport, if_neg (by decide), if_neg (by decide), if_pos rfl, param_append, param_append,
      hencoded "path" (by decide), hencoded "host" (by decide), hplain "mode" (by decide)]
    rfl
  have htls : param "insecure" (linkTls node) = none := by
    rw [linkTls]
    cases node.tls with
    | none => rfl
    | some tls =>
      have hsecurity : param "insecure" ["security=tls"] = none := by decide
      dsimp only
      rw [param_append, param_append, param_append, hsecurity, hencoded "sni" (by decide),
        hplain "fp" (by decide), hencoded "alpn" (by decide)]
      rfl
  simp only [vlessLink, hprotocol] at h
  obtain ⟨security, hsecurity, h⟩ := Except.bind_eq_ok h
  cases hsecurity
  cases h
  rw [skipFlag, param_append, param_append, param_append, hplain "type" (by decide), hflow, htransport,
    htls]
  rfl

/-- **What an output says about verification.**  A Clash proxy for XHTTP goes by the certificate
alone and its link says nothing; everything else goes by `skipVerify`. -/
theorem skipFlag_emit {format : SubscriptionFormat} {node : ProxyNode} {out : Output}
    (hreality : node.protocol ≠ .vlessReality) (h : emit format node = .ok out) :
    skipFlag format out =
      if node.protocol = .vlessXhttp then
        if format = .base64 then none else some (!tlsHasRealCertificate node.tls)
      else some (skipVerify node) := by
  rcases emit_cases h with ⟨rfl, j, hj, rfl⟩ | ⟨rfl, j, hj, rfl⟩ | ⟨rfl, l, hl, rfl⟩
  · rw [buildOutbound] at hj
    cases hp : node.protocol with
    | vlessReality => exact absurd hp hreality
    | vlessXhttp =>
      rw [hp] at hj
      cases hj
    | hysteria2 =>
      rw [hp] at hj
      obtain ⟨password, -, hj⟩ := Except.bind_eq_ok hj
      cases hj
      exact skipFlag_singboxHysteria2 node password
    | anytls =>
      rw [hp] at hj
      obtain ⟨password, -, hj⟩ := Except.bind_eq_ok hj
      cases hj
      exact skipFlag_singboxAnytls node password
  · rw [buildProxy] at hj
    cases hp : node.protocol with
    | vlessReality => exact absurd hp hreality
    | vlessXhttp =>
      rw [hp] at hj
      obtain ⟨uuid, -, hj⟩ := Except.bind_eq_ok hj
      cases hj
      exact skipFlag_clashXhttp hp uuid
    | hysteria2 =>
      rw [hp] at hj
      obtain ⟨password, -, hj⟩ := Except.bind_eq_ok hj
      cases hj
      exact skipFlag_clashHysteria2 node password
    | anytls =>
      rw [hp] at hj
      obtain ⟨password, -, hj⟩ := Except.bind_eq_ok hj
      cases hj
      exact skipFlag_clashAnytls node password
  · rw [buildLink] at hl
    cases hp : node.protocol with
    | vlessReality => exact absurd hp hreality
    | vlessXhttp =>
      rw [hp] at hl
      obtain ⟨id, -, hl⟩ := Except.bind_eq_ok hl
      exact skipFlag_xhttpLink hp hl .base64
    | hysteria2 =>
      rw [hp] at hl
      obtain ⟨password, -, hl⟩ := Except.bind_eq_ok hl
      cases hl
      exact skipFlag_link (by simp only [hysteria2Link, List.append_assoc]; rfl) .base64
    | anytls =>
      rw [hp] at hl
      obtain ⟨password, -, hl⟩ := Except.bind_eq_ok hl
      cases hl
      exact skipFlag_link rfl .base64

end ProxyPanel.Subscription
