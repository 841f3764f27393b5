import ProxyPanel.Hub.ProxyNodes
import ProxyPanel.Subscription.Connection

/-!
# The host entry of a node

An active `inbound_host` row of a config on a node replaces address and port of the nodes in a
subscription.  Its `sni` goes into a copy of the settings; its `alpn` and `fingerprint` go into
a copy of the TLS settings that is dropped.  Which value a client sees depends on the order in
which its format asks settings and TLS settings: `hostWins_iff`.
-/

namespace ProxyPanel.Hub

open Json Query Builder SettingsHelper Subscription

/-! ### TLS settings -/

def mergedTls (cfg : ProtocolConfig) (binding : NodeBinding) : Option Json :=
  mergeTlsSettings cfg.tlsSettings (overrideTls binding)

/-- The certificate of the node that the settings refer to. -/
def managedCertificate (db : Db) (nodeId : Uuid) (tls : Json) : Option Certificate :=
  ((tls.getStr "cert_id").bind Uuid.parse).bind fun certId =>
    (db.certificates.find certId).filter (·.nodeId = nodeId)

/-- The server name for clients: the domain of a managed certificate, or `serverName`, or the
ACME domain if that is empty. -/
def subscriptionName (db : Db) (nodeId : Uuid) (tls : Json) : Option String :=
  let own := match managedCertificate db nodeId tls with
    | some cert => some cert.domain
    | none => tls.getStr "serverName"
  match getNonEmpty tls "domain" with
  | some domain => if (own.filter nonEmpty).isSome then own else some domain
  | none => own

theorem isObject_of_getStr {j : Json} {k v : String} (h : j.getStr k = some v) :
    j.isObject = true := by
  by_contra hobject
  rw [getStr, get_of_not_isObject ((Bool.not_eq_true _).mp hobject)] at h
  cases h

theorem getStr_set_self {j : Json} (h : j.isObject = true) (k v : String) :
    (j.set k (str v)).getStr k = some v := by
  rw [getStr, get_set_self h]
  rfl

/-- What a step of the resolution leaves: the name, and all other keys. -/
def NameIs (name : Option String) (tls tls' : Json) : Prop :=
  tls'.getStr "serverName" = name ∧
    ∀ k, k ≠ "serverName" → k ≠ "cert_id" → tls'.get k = tls.get k

theorem exec_withCertificateName (db : Db) (nodeId : Uuid) (tls : Json) : ∃ tls',
    (withCertificateName nodeId tls).exec db = .ok tls' ∧
      NameIs (match managedCertificate db nodeId tls with
        | some cert => some cert.domain
        | none => tls.getStr "serverName") tls tls' := by
  unfold withCertificateName managedCertificate
  cases hid : (tls.getStr "cert_id").bind Uuid.parse with
  | none => exact ⟨tls, rfl, rfl, fun _ _ _ => rfl⟩
  | some certId =>
    obtain ⟨text, htext, -⟩ := Option.bind_eq_some_iff.mp hid
    have hobject := isObject_of_getStr htext
    rw [Option.bind_some]
    simp only [exec_read_bind]
    cases hcert : db.certificates.find certId with
    | none => exact ⟨tls, rfl, rfl, fun _ _ _ => rfl⟩
    | some cert =>
      by_cases hnode : cert.nodeId = nodeId
      · have hkept : (some cert).filter (·.nodeId = nodeId) = some cert := by simp [hnode]
        refine ⟨(tls.set "serverName" (str cert.domain)).remove "cert_id", ?_, ?_, ?_⟩
        · simp only [if_pos hnode]
          rfl
        · rw [hkept, getStr, get_remove_of_ne _ (by decide), get_set_self hobject]
          rfl
        · intro k hname hcertId
          rw [get_remove_of_ne _ hcertId, get_set_of_ne _ hname]
      · have hdropped : (some cert).filter (·.nodeId = nodeId) = none := by simp [hnode]
        refine ⟨tls, ?_, ?_, fun _ _ _ => rfl⟩
        · simp only [if_neg hnode]
          rfl
        · rw [hdropped]

theorem nameIs_withDomainName (tls : Json) :
    NameIs (match getNonEmpty tls "domain" with
      | some domain => if (getNonEmpty tls "serverName").isSome then tls.getStr "serverName"
        else some domain
      | none => tls.getStr "serverName") tls (withDomainName tls) := by
  unfold withDomainName
  cases hdomain : getNonEmpty tls "domain" with
  | none => exact ⟨rfl, fun _ _ _ => rfl⟩
  | some domain =>
    simp only
    split
    · exact ⟨rfl, fun _ _ _ => rfl⟩
    · have hobject := isObject_of_getStr (Option.filter_eq_some_iff.mp hdomain).1
      exact ⟨getStr_set_self hobject _ _, fun k hname _ => get_set_of_ne _ hname _⟩

/-- **The TLS settings of a node**: the server name is resolved, everything else is merged. -/
theorem exec_resolveSubscriptionTls {db : Db} {nodeId : Uuid} {tls out : Option Json}
    (h : (resolveSubscriptionTls nodeId tls).exec db = .ok out) :
    out.isSome = tls.isSome ∧
      (out.bind (·.getStr "serverName")) = tls.bind (subscriptionName db nodeId) ∧
      ∀ k, k ≠ "serverName" → k ≠ "cert_id" →
        (out.bind (·.getStr k)) = tls.bind (·.getStr k) := by
  cases tls with
  | none =>
    cases h
    exact ⟨rfl, rfl, fun _ _ _ => rfl⟩
  | some tls =>
    obtain ⟨tls', hexec, hname, hrest⟩ := exec_withCertificateName db nodeId tls
    simp only [resolveSubscriptionTls, exec_bind, hexec] at h
    cases h
    obtain ⟨hname', hrest'⟩ := nameIs_withDomainName tls'
    have hdomain : getNonEmpty tls' "domain" = getNonEmpty tls "domain" := by
      rw [getNonEmpty, getStr, hrest "domain" (by decide) (by decide)]
      rfl
    refine ⟨rfl, ?_, ?_⟩
    · rw [Option.bind_some, Option.bind_some, hname', subscriptionName, hdomain, ← hname]
      cases getNonEmpty tls "domain" <;> rfl
    · intro k hk hk'
      rw [Option.bind_some, Option.bind_some, getStr, hrest' k hk hk', hrest k hk hk', getStr]

/-! ### Settings -/

/-- A value that is set when there is one. -/
def setOpt (j : Json) (k : String) (v : Option String) : Json :=
  match v with
  | some v => j.set k (str v)
  | none => j

theorem isObject_setOpt (j : Json) (k : String) (v : Option String) :
    (setOpt j k v).isObject = j.isObject := by
  cases v with
  | some v => exact isObject_set j k _
  | none => rfl

theorem getStr_setOpt_of_ne (j : Json) {k key : String} (h : key ≠ k) (v : Option String) :
    (setOpt j k v).getStr key = j.getStr key := by
  cases v with
  | some v => exact getStr_set_of_ne j h _
  | none => rfl

theorem getStr_setOpt_self {j : Json} (h : j.isObject = true) (k : String) (v : Option String) :
    (setOpt j k v).getStr k = v.or (j.getStr k) := by
  cases v with
  | some v => exact getStr_set_self h k v
  | none => rfl

theorem withHost_some (settings : Json) (host : InboundHost) :
    withHost settings (some host) =
      setOpt (setOpt (setOpt settings "sni" host.sni) "host" host.host) "path" host.path := rfl

theorem isObject_withHost (settings : Json) (hostOverride : Option InboundHost) :
    (withHost settings hostOverride).isObject = settings.isObject := by
  cases hostOverride with
  | none => rfl
  | some host => rw [withHost_some, isObject_setOpt, isObject_setOpt, isObject_setOpt]

theorem getStr_sni_withHost {settings : Json} (h : settings.isObject = true) (host : InboundHost) :
    (withHost settings (some host)).getStr "sni" = host.sni.or (settings.getStr "sni") := by
  rw [withHost_some, getStr_setOpt_of_ne _ (by decide), getStr_setOpt_of_ne _ (by decide),
    getStr_setOpt_self h]

/-- A node with output has settings to write a credential into. -/
theorem isObject_settings_of_emit {format : SubscriptionFormat} {pn : ProxyNode} {out : Output}
    (h : emit format pn = .ok out) : pn.settings.isObject = true := by
  by_contra hobject
  have hget := get_of_not_isObject ((Bool.not_eq_true _).mp hobject)
  obtain ⟨c, hc, -⟩ := credential_emit h
  rw [Subscription.credentialOf, clientUuid, clientPassword, entryUuid, getNonEmpty, getStr,
    getArr] at hc
  simp only [hget] at hc
  split at hc <;> cases hc

/-! ### Where the values of a node come from -/

section Sources

variable (db : Db) (cfg : ProtocolConfig) (binding : NodeBinding) (used : InboundHost)

/-- The server name of the TLS settings. -/
def tlsName : Option String := (mergedTls cfg binding).bind (subscriptionName db binding.nodeId)

/-- The server name of the settings: that of the host entry, if it has one. -/
def settingsName : Option String := used.sni.or (cfg.settings.getStr "sni")

/-- A text of the TLS settings, or of the settings. -/
def tlsOrSettings (key : String) : Option String :=
  ((mergedTls cfg binding).bind (·.getStr key)).or (cfg.settings.getStr key)

end Sources

/-- **The values of a node with a host entry.**  Of the entry there is the address, the port and
the server name of the settings. -/
structure FromHost (db : Db) (cfg : ProtocolConfig) (binding : NodeBinding) (used : InboundHost)
    (pn : ProxyNode) : Prop where
  server : pn.server = used.address
  port : pn.port = (used.port % 65536).toNat
  hasTls : pn.tls.isSome = (mergedTls cfg binding).isSome
  resolvedName : (pn.tls.bind (·.getStr "serverName")) = tlsName db cfg binding
  ownName : pn.settings.getStr "sni" = settingsName cfg used
  tls : ∀ k, k ≠ "serverName" → k ≠ "cert_id" →
    (pn.tls.bind (·.getStr k)) = (mergedTls cfg binding).bind (·.getStr k)
  settings : ∀ k, k ∉ ["clients", "id", "sni", "host", "path"] →
    pn.settings.get k = cfg.settings.get k

section Node

variable {substitute : Substitution} {client : Client} {binding : NodeBinding}
variable {cfg : ProtocolConfig} {node : Node} {protocol : ProtocolType} {db : Db} {pn : ProxyNode}
variable {format : SubscriptionFormat} {out : Output} {used : InboundHost}

theorem fromHost_accessibleNode
    (hused : db.inboundHosts.one (fun h =>
      h.protocolConfigId = cfg.id ∧ h.nodeId = node.id ∧ h.isActive) = some used)
    (h : (accessibleNode substitute client binding cfg node protocol).exec db = .ok pn)
    (hout : emit format pn = .ok out) : FromHost db cfg binding used pn := by
  obtain ⟨-, hsettings, hserver, htls⟩ := accessibleNode_ok h
  obtain ⟨hsome, hname, hrest⟩ := exec_resolveSubscriptionTls htls
  rw [hused] at hsettings hserver
  have hobject :
      (injectClientCredentials cfg.settings client cfg.protocolType).isObject = true := by
    rw [← isObject_withHost _ (some used), ← hsettings]
    exact isObject_settings_of_emit hout
  have hplace : pn.server = used.address ∧ pn.port = (used.port % 65536).toNat := by
    generalize pn.server = server, pn.port = port at hserver ⊢
    cases hserver
    exact ⟨rfl, rfl⟩
  refine ⟨hplace.1, hplace.2, hsome, hname, ?_, hrest,
    fun k hk => get_settings_of_accessibleNode h hk⟩
  rw [hsettings, getStr_sni_withHost hobject, settingsName, getStr,
    get_injectClientCredentials _ _ _ (by decide), getStr]

theorem FromHost.tlsOrSetting_eq (h : FromHost db cfg binding used pn) {k : String}
    (hname : k ≠ "serverName") (hk : k ∉ ["cert_id", "clients", "id", "sni", "host", "path"]) :
    tlsOrSetting pn k k = tlsOrSettings cfg binding k := by
  obtain ⟨hcertId, hsettings⟩ : k ≠ "cert_id" ∧ k ∉ ["clients", "id", "sni", "host", "path"] := by
    simpa only [List.mem_cons, not_or] using hk
  rw [tlsOrSetting, tlsOrSettings, h.tls k hname hcertId, getStr,
    h.settings k hsettings, getStr]

end Node

/-! ### When the entry wins -/

section Conditions

variable (db : Db) (cfg : ProtocolConfig) (binding : NodeBinding) (used : InboundHost)
variable (protocol : ProtocolType) (format : SubscriptionFormat)

/-- The server name a client sees is this one. -/
def SniWins (sni : String) : Prop :=
  match protocol, format with
  | .vlessReality, .base64 => (firstServerName cfg.settings).filter nonEmpty = some sni
  | .vlessReality, _ => (firstServerName cfg.settings).getD "" = sni
  | .vlessXhttp, .base64 => (mergedTls cfg binding).isSome ∧
    (tlsName db cfg binding).or (settingsName cfg used) = some sni
  | .vlessXhttp, _ => (tlsName db cfg binding).getD used.address = sni
  | _, .singBox => ((tlsName db cfg binding).or (settingsName cfg used)).getD "" = sni
  | _, .clash => ((settingsName cfg used).or (tlsName db cfg binding)).getD used.address = sni
  | _, .base64 => ((tlsName db cfg binding).or (settingsName cfg used)).getD used.address = sni

/-- Config and binding happen to name these protocols: the entry is not asked. -/
def AlpnWins (alpn : String) : Prop :=
  match protocol, format with
  | .hysteria2, .base64 =>
    Text.split ',' ((tlsOrSettings cfg binding "alpn").getD "h3") = Text.split ',' alpn
  | .hysteria2, _ => ["h3"] = Text.split ',' alpn
  | .anytls, .base64 =>
    (tlsOrSettings cfg binding "alpn").map (Text.split ',') = some (Text.split ',' alpn)
  | .vlessXhttp, .base64 => (mergedTls cfg binding).isSome ∧
    (tlsOrSettings cfg binding "alpn").map (Text.split ',') = some (Text.split ',' alpn)
  | _, _ => True

/-- Config and binding happen to have this fingerprint: the entry is not asked. -/
def FingerprintWins (fingerprint : String) : Prop :=
  match protocol, format with
  | .vlessReality, .clash => (((cfg.settings.get "client_fingerprint").or
      (cfg.settings.get "fingerprint")).bind asStr).getD "chrome" = fingerprint
  | .vlessReality, _ => (cfg.settings.getStr "fingerprint").getD "chrome" = fingerprint
  | .vlessXhttp, .base64 => (mergedTls cfg binding).isSome ∧
    tlsOrSettings cfg binding "fingerprint" = some fingerprint
  | _, _ => True

end Conditions

/-- Outputs with a list of application protocols. -/
def carriesAlpn (protocol : ProtocolType) (format : SubscriptionFormat) : Bool :=
  match protocol, format with
  | .hysteria2, _ => true
  | .anytls, .base64 => true
  | .vlessXhttp, .base64 => true
  | _, _ => false

/-- Outputs with the fingerprint of a client. -/
def carriesFingerprint (protocol : ProtocolType) (format : SubscriptionFormat) : Bool :=
  match protocol, format with
  | .vlessReality, _ => true
  | .vlessXhttp, .base64 => true
  | _, _ => false

/-- What a client sees is what the host entry says. -/
structure HostWins (host : InboundHost) (protocol : ProtocolType) (format : SubscriptionFormat)
    (out : Output) : Prop where
  server : out.server = some host.address
  port : ∃ port : Nat, out.port = some port ∧ (port : Int) = host.port
  sni : ∀ sni, host.sni = some sni → serverName format out = some sni
  alpn : ∀ a, host.alpn = some a → carriesAlpn protocol format = true →
    alpn format out = some (Text.split ',' a)
  fingerprint : ∀ fp, host.fingerprint = some fp → carriesFingerprint protocol format = true →
    fingerprint format out = some fp

theorem bind_const_eq_some {α β : Type} {o : Option α} {x : Option β} {v : β} :
    (o.bind fun _ => x) = some v ↔ o.isSome = true ∧ x = some v := by
  cases o with
  | none => exact iff_of_false nofun fun h => Bool.noConfusion h.1
  | some _ => exact ⟨fun h => ⟨rfl, h⟩, fun h => h.2⟩

section Wins

variable {db : Db} {cfg : ProtocolConfig} {binding : NodeBinding} {used : InboundHost}
variable {pn : ProxyNode} {format : SubscriptionFormat} {out : Output}

theorem FromHost.firstServerName_eq (h : FromHost db cfg binding used pn) :
    firstServerName pn.settings = firstServerName cfg.settings := by
  rw [firstServerName, firstServerName,
    h.settings "server_names" (by decide), h.settings "reality_server_names" (by decide)]

theorem FromHost.serverName_iff (h : FromHost db cfg binding used pn) {sni : String} :
    serverNameFor format pn = some sni ↔
      SniWins db cfg binding used pn.protocol format sni := by
  have hname : tlsOrSetting pn "serverName" "sni" =
      (tlsName db cfg binding).or (settingsName cfg used) := by
    rw [tlsOrSetting, h.resolvedName, h.ownName]
  unfold serverNameFor SniWins
  rw [h.firstServerName_eq, hname, h.resolvedName, h.ownName, h.server, ← h.hasTls]
  cases pn.protocol with
  | vlessReality =>
    cases format with
    | base64 => exact Iff.rfl
    | _ => exact Option.some_inj
  | vlessXhttp =>
    cases format with
    | base64 => exact bind_const_eq_some
    | _ => exact Option.some_inj
  | _ => cases format <;> exact Option.some_inj

theorem FromHost.alpn_iff (h : FromHost db cfg binding used pn) {a : String} :
    (carriesAlpn pn.protocol format = true →
      alpnFor format pn = some (Text.split ',' a)) ↔
      AlpnWins cfg binding pn.protocol format a := by
  unfold carriesAlpn alpnFor AlpnWins
  rw [h.tlsOrSetting_eq (by decide) (by decide), ← h.hasTls, Option.map_bind]
  cases pn.protocol with
  | vlessReality => exact iff_of_true nofun trivial
  | vlessXhttp =>
    cases format with
    | base64 => exact (forall_prop_of_true rfl).trans bind_const_eq_some
    | _ => exact iff_of_true nofun trivial
  | hysteria2 => cases format <;> exact (forall_prop_of_true rfl).trans Option.some_inj
  | anytls =>
    cases format with
    | base64 => exact forall_prop_of_true rfl
    | _ => exact iff_of_true nofun trivial

theorem FromHost.fingerprint_iff (h : FromHost db cfg binding used pn) {fp : String} :
    (carriesFingerprint pn.protocol format = true → fingerprintFor format pn = some fp) ↔
      FingerprintWins cfg binding pn.protocol format fp := by
  unfold carriesFingerprint fingerprintFor FingerprintWins
  rw [h.tlsOrSetting_eq (by decide) (by decide), ← h.hasTls, firstOr, getStr,
    h.settings "fingerprint" (by decide), h.settings "client_fingerprint" (by decide), getStr]
  cases pn.protocol with
  | vlessReality => cases format <;> exact (forall_prop_of_true rfl).trans Option.some_inj
  | vlessXhttp =>
    cases format with
    | base64 => exact (forall_prop_of_true rfl).trans bind_const_eq_some
    | _ => exact iff_of_true (fun hc => by cases hc) trivial
  | _ => exact iff_of_true (fun hc => by cases format <;> cases hc) trivial

end Wins

/-- The name of the entry in use is shown by Clash; elsewhere a name of the TLS settings is
shown instead. -/
theorem sniWins_of_entry {db : Db} {cfg : ProtocolConfig} {binding : NodeBinding}
    {used : InboundHost} {protocol : ProtocolType} {format : SubscriptionFormat} {sni : String}
    (hprotocol : protocol.isVless = false) (hsni : used.sni = some sni) :
    SniWins db cfg binding used protocol format sni ↔
      format = .clash ∨ ∀ name, tlsName db cfg binding = some name → name = sni := by
  have hname : settingsName cfg used = some sni := by
    rw [settingsName, hsni]
    rfl
  have hor : ∀ default, ((tlsName db cfg binding).or (some sni)).getD default = sni ↔
      ∀ name, tlsName db cfg binding = some name → name = sni := by
    intro default
    cases tlsName db cfg binding with
    | none => exact iff_of_true rfl nofun
    | some name => simp
  unfold SniWins
  rw [hname]
  cases protocol with
  | vlessReality => cases hprotocol
  | vlessXhttp => cases hprotocol
  | _ =>
    cases format with
    | clash => exact iff_of_true rfl (Or.inl rfl)
    | _ => exact (hor _).trans (or_iff_right nofun).symm

/-- **When a host entry wins**, for every node and every format: the first active entry has its
address and port, and the format asks the entry, or config and binding have its value anyway. -/
theorem hostWins_iff {substitute : Substitution} {client : Client} {binding : NodeBinding}
    {cfg : ProtocolConfig} {node : Node} {protocol : ProtocolType} {db : Db} {pn : ProxyNode}
    {format : SubscriptionFormat} {out : Output} {host : InboundHost}
    (hhost : host ∈ db.inboundHosts.rows)
    (hentry : host.protocolConfigId = cfg.id ∧ host.nodeId = node.id ∧ host.isActive = true)
    (hnode : (accessibleNode substitute client binding cfg node protocol).exec db = .ok pn)
    (hout : emit format pn = .ok out) :
    HostWins host protocol format out ↔ ∃ used,
      db.inboundHosts.one (fun h =>
        h.protocolConfigId = cfg.id ∧ h.nodeId = node.id ∧ h.isActive) = some used ∧
      used.address = host.address ∧ ((used.port % 65536).toNat : Int) = host.port ∧
      (∀ sni, host.sni = some sni → SniWins db cfg binding used protocol format sni) ∧
      (∀ a, host.alpn = some a → AlpnWins cfg binding protocol format a) ∧
      ∀ fp, host.fingerprint = some fp → FingerprintWins cfg binding protocol format fp := by
  obtain ⟨used, hused⟩ : ∃ used, db.inboundHosts.one (fun h =>
      h.protocolConfigId = cfg.id ∧ h.nodeId = node.id ∧ h.isActive) = some used := by
    rw [← Option.isSome_iff_exists, Table.one, List.find?_isSome]
    exact ⟨host, hhost, decide_eq_true hentry⟩
  have hfrom := fromHost_accessibleNode hused hnode hout
  have hprotocol : pn.protocol = protocol := (accessibleNode_ok hnode).1
  obtain ⟨hserver, hname, halpn, hfingerprint⟩ := read_emit hout
  have hport : out.port = some pn.port := by
    refine port_emit ?_ hout
    have := hfrom.port
    omega
  have hsni_iff := fun sni => @FromHost.serverName_iff _ _ _ _ _ format hfrom sni
  have halpn_iff := fun a => @FromHost.alpn_iff _ _ _ _ _ format hfrom a
  have hfp_iff := fun fp => @FromHost.fingerprint_iff _ _ _ _ _ format hfrom fp
  rw [hprotocol] at hsni_iff halpn_iff hfp_iff
  rw [← hname] at hsni_iff
  rw [← halpn] at halpn_iff
  rw [← hfingerprint] at hfp_iff
  rw [hfrom.server] at hserver
  rw [hfrom.port] at hport
  constructor
  · rintro ⟨haddress, ⟨port, hport', hplace⟩, hsni, ha, hfp⟩
    rw [hserver, Option.some_inj] at haddress
    cases hport.symm.trans hport'
    exact ⟨used, hused, haddress, hplace, fun sni h => (hsni_iff sni).mp (hsni sni h),
      fun a h => (halpn_iff a).mp (ha a h), fun fp h => (hfp_iff fp).mp (hfp fp h)⟩
  · rintro ⟨used', hused', haddress, hplace, hsni, ha, hfp⟩
    cases hused.symm.trans hused'
    exact ⟨hserver.trans (congrArg some haddress), ⟨_, hport, hplace⟩,
      fun sni h => (hsni_iff sni).mpr (hsni sni h), fun a h => (halpn_iff a).mpr (ha a h),
      fun fp h => (hfp_iff fp).mpr (hfp fp h)⟩

/-! ### A name in the TLS settings -/

theorem eq_ok_of_toOption {ε α : Type} {x : Except ε α} {a : α} (h : x.toOption = some a) :
    x = .ok a := by
  cases x with
  | error e => cases h
  | ok b =>
    cases h
    rfl

namespace TlsName

def config : ProtocolConfig :=
  { PresetUser.config with
    protocolType := "hysteria2", coreType := "sing-box", settings := mkObj [],
    tlsSettings := some (mkObj [("serverName", str "node.example.com")]) }

def host : InboundHost where
  id := .ofNat 30
  protocolConfigId := config.id
  nodeId := OnHold.node.id
  remark := "front"
  address := "192.0.2.80"
  port := 8443
  sni := some "cdn.example.com"
  host := none
  path := none
  alpn := none
  fingerprint := none
  isActive := true

/-- A binding with one config and one host entry. -/
def db : Db where
  nodes := .single OnHold.node
  protocolConfigs := .single config
  nodeBindings := .single PresetUser.binding
  inboundHosts := .single host

theorem exists_node : ∃ pn out,
    (accessibleNode OnHold.substitute OnHold.client PresetUser.binding config OnHold.node
      .hysteria2).exec db = .ok pn ∧
    emit .singBox pn = .ok out ∧ serverName .singBox out = some "node.example.com" := by
  have hseen : ((accessibleNode OnHold.substitute OnHold.client PresetUser.binding config
      OnHold.node .hysteria2).exec db).toOption.bind (fun pn =>
        (emit .singBox pn).toOption.bind (serverName .singBox)) = some "node.example.com" := by
    decide
  obtain ⟨pn, hpn, hseen⟩ := Option.bind_eq_some_iff.mp hseen
  obtain ⟨out, hout, hseen⟩ := Option.bind_eq_some_iff.mp hseen
  exact ⟨pn, out, eq_ok_of_toOption hpn, eq_ok_of_toOption hout, hseen⟩

theorem host_mem : host ∈ db.inboundHosts.rows := List.mem_singleton_self _

end TlsName

/-- A sing-box client of a node whose TLS settings have a server name sees that one. -/
theorem tls_name_wins : ∃ pn out,
    (accessibleNode OnHold.substitute OnHold.client PresetUser.binding TlsName.config OnHold.node
      .hysteria2).exec TlsName.db = .ok pn ∧
    emit .singBox pn = .ok out ∧ TlsName.host ∈ TlsName.db.inboundHosts.rows ∧
    TlsName.host.protocolConfigId = TlsName.config.id ∧
    TlsName.host.nodeId = OnHold.node.id ∧ TlsName.host.isActive = true ∧
    ¬ HostWins TlsName.host .hysteria2 .singBox out := by
  obtain ⟨pn, out, hpn, hout, hseen⟩ := TlsName.exists_node
  refine ⟨pn, out, hpn, hout, TlsName.host_mem, rfl, rfl, rfl, fun h => ?_⟩
  have hname := h.sni "cdn.example.com" rfl
  rw [hseen] at hname
  exact absurd hname (by decide)

theorem hostWins_iff_tls_name : ∃ pn out,
    (accessibleNode OnHold.substitute OnHold.client PresetUser.binding TlsName.config OnHold.node
      .hysteria2).exec TlsName.db = .ok pn ∧
    emit .singBox pn = .ok out ∧
    (HostWins TlsName.host .hysteria2 .singBox out ↔ ∃ used,
      TlsName.db.inboundHosts.one (fun h => h.protocolConfigId = TlsName.config.id ∧
        h.nodeId = OnHold.node.id ∧ h.isActive) = some used ∧
      used.address = TlsName.host.address ∧
      ((used.port % 65536).toNat : Int) = TlsName.host.port ∧
      (∀ sni, TlsName.host.sni = some sni →
        SniWins TlsName.db TlsName.config PresetUser.binding used .hysteria2 .singBox sni) ∧
      (∀ a, TlsName.host.alpn = some a →
        AlpnWins TlsName.config PresetUser.binding .hysteria2 .singBox a) ∧
      ∀ fp, TlsName.host.fingerprint = some fp →
        FingerprintWins TlsName.config PresetUser.binding .hysteria2 .singBox fp) := by
  obtain ⟨pn, out, hpn, hout, -⟩ := TlsName.exists_node
  exact ⟨pn, out, hpn, hout, hostWins_iff TlsName.host_mem ⟨rfl, rfl, rfl⟩ hpn hout⟩

end ProxyPanel.Hub
