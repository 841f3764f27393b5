import ProxyPanel.Hub.Listeners
import ProxyPanel.Hub.ProxyNodes
import ProxyPanel.Subscription.Fields

/-!
# Whether clients verify the certificate

The server and the subscription resolve the TLS settings of a binding on their own.  A managed
certificate becomes the domain of the certificate on the server and a server name in the
subscription, which then finds neither files nor a domain and tells clients to skip
verification.  `skipsOnlyWhenTold_iff` says when an output skips only because the settings say
so; `managed_of_not_real` says that only a managed certificate is affected.
-/

namespace ProxyPanel.Hub.CertificateVerification

open Json Query Subscription SettingsHelper

/-- The TLS settings of a binding before either side resolves them. -/
def bindingTls (config : ProtocolConfig) (binding : NodeBinding) : Option Json :=
  mergeTlsSettings config.tlsSettings (overrideTls binding)

/-- The inbound of the binding has a certificate its core accepts: managed, given as files
or, for sing-box, by ACME. -/
def ServerCertified (db : Db) (config : ProtocolConfig) (binding : NodeBinding) : Prop :=
  ∃ tls, (resolveManagedCertTls binding.nodeId (bindingTls config binding)).exec db = .ok tls ∧
    HasCertificate (parseCoreType config.coreType) tls

/-- **Verification is not silently disabled**: an output that carries the flag tells the client
to skip exactly when the settings do. -/
def SkipsOnlyWhenTold (db : Db) (config : ProtocolConfig) (binding : NodeBinding)
    (format : SubscriptionFormat) (out : Output) : Prop :=
  ServerCertified db config binding → ∀ skips, skipFlag format out = some skips →
    (skips = true ↔ config.settings.get "skip_cert_verify" = some (bool true))

/-- The settings say whether to skip, or the TLS settings name files or an ACME domain.  A Clash
proxy for XHTTP looks at the TLS settings only, so there the two have to agree. -/
def FlagKept (config : ProtocolConfig) (binding : NodeBinding) (protocol : ProtocolType)
    (format : SubscriptionFormat) : Prop :=
  if protocol = .vlessXhttp then
    format = .base64 ∨ (config.settings.get "skip_cert_verify" = some (bool true) ↔
      tlsHasRealCertificate (bindingTls config binding) = false)
  else
    (∃ b, config.settings.get "skip_cert_verify" = some (bool b)) ∨
      tlsHasRealCertificate (bindingTls config binding) = true

/-! ### The two sides -/

theorem tlsHasRealCertificate_congr {t t' : Json}
    (h : ∀ k ∈ ["certFile", "keyFile", "domain"], t'.get k = t.get k) :
    tlsHasRealCertificate (some t') = tlsHasRealCertificate (some t) := by
  simp only [tlsHasRealCertificate, getNonEmpty, getStr]
  rw [h "certFile" (by decide), h "keyFile" (by decide), h "domain" (by decide)]

theorem real_withDomainName (tls : Json) :
    tlsHasRealCertificate (some (withDomainName tls)) = tlsHasRealCertificate (some tls) := by
  rw [withDomainName]
  split
  · split
    · rfl
    · refine tlsHasRealCertificate_congr fun k hk => get_set_of_ne _ ?_ _
      simp only [List.mem_cons, List.not_mem_nil, or_false] at hk
      rcases hk with rfl | rfl | rfl <;> decide
  · rfl

theorem real_withCertificateName {nodeId : Uuid} {tls tls' : Json} {db : Db}
    (h : (withCertificateName nodeId tls).exec db = .ok tls') :
    tlsHasRealCertificate (some tls') = tlsHasRealCertificate (some tls) := by
  rw [withCertificateName] at h
  split at h
  · cases h
    rfl
  · rw [exec_read_bind] at h
    split at h
    · cases h
      rfl
    · split at h
      · cases h
        refine tlsHasRealCertificate_congr fun k hk => ?_
        have hne : k ≠ "cert_id" ∧ k ≠ "serverName" := by
          simp only [List.mem_cons, List.not_mem_nil, or_false] at hk
          rcases hk with rfl | rfl | rfl <;> decide
        rw [get_remove_of_ne _ hne.1, get_set_of_ne _ hne.2]
      · cases h
        rfl

/-- A managed certificate adds nothing the subscription takes for a certificate. -/
theorem real_resolveSubscriptionTls {nodeId : Uuid} {tls tls' : Option Json} {db : Db}
    (h : (resolveSubscriptionTls nodeId tls).exec db = .ok tls') :
    tlsHasRealCertificate tls' = tlsHasRealCertificate tls := by
  cases tls with
  | none =>
    cases h
    rfl
  | some tls =>
    rw [resolveSubscriptionTls, exec_bind] at h
    obtain ⟨named, hnamed, h⟩ := Except.bind_eq_ok h
    cases h
    rw [real_withDomainName, real_withCertificateName hnamed]

theorem real_iff {tls : Json} : tlsHasRealCertificate (some tls) = true ↔
    ((tls.getStr "certFile").getD "" ≠ "" ∧ (tls.getStr "keyFile").getD "" ≠ "") ∨
      (tls.getStr "domain").getD "" ≠ "" := by
  have hnonEmpty : ∀ k, (getNonEmpty tls k).isSome = true ↔ (tls.getStr k).getD "" ≠ "" := by
    intro k
    rw [getNonEmpty]
    cases tls.getStr k with
    | none => simp
    | some v => simp [nonEmpty, Option.filter]
  rw [tlsHasRealCertificate, Bool.or_eq_true, Bool.and_eq_true, hnonEmpty, hnonEmpty, hnonEmpty]

/-- A certified server whose clients find no certificate has a managed one. -/
theorem managed_of_not_real {db : Db} {config : ProtocolConfig} {binding : NodeBinding}
    (hserver : ServerCertified db config binding)
    (hreal : tlsHasRealCertificate (bindingTls config binding) = false) :
    ∃ tls, bindingTls config binding = some tls ∧
      ((∃ raw, tls.getStr "cert_id" = some raw) ∨ (tls.getStr "managed_domain").getD "" ≠ "") := by
  obtain ⟨resolved, hresolved, hcert⟩ := hserver
  cases htls : bindingTls config binding with
  | none =>
    rw [htls] at hresolved
    cases hresolved
    cases hcore : parseCoreType config.coreType with
    | singBox =>
      rw [hcore] at hcert
      obtain ⟨tls, hnone, -⟩ := hcert
      cases hnone
    | mihomo =>
      rw [hcore] at hcert
      obtain ⟨tls, hnone, -⟩ := hcert
      cases hnone
  | some tls =>
    refine ⟨tls, rfl, ?_⟩
    cases hid : tls.getStr "cert_id" with
    | some raw => exact .inl ⟨raw, rfl⟩
    | none =>
      right
      have hnot := mt real_iff.mpr (by rw [← htls, hreal]; decide)
      rw [htls, resolveManagedCertTls] at hresolved
      simp only [hid] at hresolved
      cases hresolved
      cases hcore : parseCoreType config.coreType with
      | singBox =>
        rw [hcore] at hcert
        obtain ⟨tls', heq, hmanaged | hreal⟩ := hcert
        · cases heq
          exact hmanaged
        · cases heq
          exact absurd hreal hnot
      | mihomo =>
        rw [hcore] at hcert
        obtain ⟨tls', heq, hmanaged | hfiles⟩ := hcert
        · cases heq
          rwa [getStrAny_singleton] at hmanaged
        · cases heq
          rw [getStrAny_singleton, getStrAny_singleton] at hfiles
          exact absurd (.inl hfiles) hnot

/-! ### The flag -/

/-- **When clients skip verification only because they are told to**: for every node of a
subscription and every format it is written in. -/
theorem skipsOnlyWhenTold_iff {db : Db} {substitute : Substitution} {client : Client}
    {binding : NodeBinding} {config : ProtocolConfig} {node : Node} {protocol : ProtocolType}
    {pn : ProxyNode} {format : SubscriptionFormat} {out : Output}
    (hreality : protocol ≠ .vlessReality)
    (hnode : (accessibleNode substitute client binding config node protocol).exec db = .ok pn)
    (hout : emit format pn = .ok out) :
    SkipsOnlyWhenTold db config binding format out ↔
      (ServerCertified db config binding → FlagKept config binding protocol format) := by
  obtain ⟨hprotocol, -, -, htls⟩ := accessibleNode_ok hnode
  have hreal : tlsHasRealCertificate pn.tls = tlsHasRealCertificate (bindingTls config binding) :=
    real_resolveSubscriptionTls htls
  have hsetting := get_settings_of_accessibleNode hnode (k := "skip_cert_verify") (by decide)
  have hflag := skipFlag_emit (hprotocol ▸ hreality) hout
  rw [hprotocol, hreal] at hflag
  refine imp_congr_right fun _ => ?_
  rw [hflag, FlagKept]
  by_cases hxhttp : protocol = .vlessXhttp
  · rw [if_pos hxhttp, if_pos hxhttp]
    by_cases hformat : format = .base64
    · rw [if_pos hformat]
      exact iff_of_true nofun (.inl hformat)
    · rw [if_neg hformat, or_iff_right hformat]
      cases tlsHasRealCertificate (bindingTls config binding) <;> simp
  · rw [if_neg hxhttp, if_neg hxhttp, skipVerify, hsetting, hreal]
    cases hvalue : config.settings.get "skip_cert_verify" with
    | none => simp
    | some value =>
      cases value <;>
        cases tlsHasRealCertificate (bindingTls config binding) <;> simp [asBool]

namespace ManagedCertificate

def config (tls : Json) : ProtocolConfig :=
  { PresetUser.config with
    protocolType := "hysteria2", coreType := "sing-box", settings := mkObj [], tlsSettings := some tls }

def certificate : Certificate where
  id := .ofNat 4
  nodeId := PresetUser.node
  domain := "example.com"
  status := "issued"
  challengeType := "http-01"
  expiresAt := none
  lastIssuedAt := none
  lastError := none
  updatedAt := default

/-- A binding with one config, on a node with a certificate. -/
def db (tls : Json) : Db where
  nodes := .single OnHold.node
  protocolConfigs := .single (config tls)
  nodeBindings := .single PresetUser.binding
  certificates := .single certificate

/-- TLS settings that name the certificate. -/
def managed : Json := mkObj [("cert_id", str certificate.id.toStr)]

/-- TLS settings that name files. -/
def files : Json := mkObj [("certFile", str "/etc/ssl/node.crt"), ("keyFile", str "/etc/ssl/node.key")]

/-- What the Clash subscription of the client says about verification. -/
def clashFlag (tls : Json) : Option Bool :=
  match (accessibleNode OnHold.substitute OnHold.client PresetUser.binding (config tls) OnHold.node .hysteria2).exec (db tls) with
  | .ok pn => (emit .clash pn).toOption.bind (skipFlag .clash)
  | .error _ => none

theorem exists_output {tls : Json} {skips : Bool} (h : clashFlag tls = some skips) : ∃ pn out,
    (accessibleNode OnHold.substitute OnHold.client PresetUser.binding (config tls) OnHold.node .hysteria2).exec (db tls) = .ok pn ∧
      emit .clash pn = .ok out ∧ skipFlag .clash out = some skips := by
  rw [clashFlag] at h
  split at h
  · rename_i pn hpn
    cases hout : emit .clash pn with
    | error e =>
      rw [hout] at h
      cases h
    | ok out =>
      rw [hout] at h
      exact ⟨pn, out, hpn, hout, h⟩
  · cases h

theorem serverCertified_managed : ServerCertified (db managed) (config managed) PresetUser.binding := by
  refine ⟨some (mkObj [("managed_domain", str "example.com")]), ?_, ?_⟩
  · have hid : managed.getStr "cert_id" = some certificate.id.toStr := by decide
    have hparse : Uuid.parse certificate.id.toStr = some certificate.id := by decide
    have hfind : (db managed).certificates.find certificate.id = some certificate :=
      Table.find_eq_some_iff.mpr ⟨List.mem_singleton_self _, rfl⟩
    change (resolveManagedCertTls PresetUser.node (some managed)).exec (db managed) = _
    simp only [resolveManagedCertTls, hid, hparse, exec_read_bind, hfind]
    rfl
  · have hcore : parseCoreType (config managed).coreType = .singBox := by decide
    rw [hcore]
    exact ⟨_, rfl, .inl (by decide)⟩

end ManagedCertificate

/-- With certificate files clients verify. -/
theorem skipsOnlyWhenTold_iff_files : ∃ pn out,
    (accessibleNode OnHold.substitute OnHold.client PresetUser.binding
        (ManagedCertificate.config ManagedCertificate.files) OnHold.node .hysteria2).exec
        (ManagedCertificate.db ManagedCertificate.files) = .ok pn ∧
      emit .clash pn = .ok out ∧
      SkipsOnlyWhenTold (ManagedCertificate.db ManagedCertificate.files)
        (ManagedCertificate.config ManagedCertificate.files) PresetUser.binding .clash out := by
  obtain ⟨pn, out, hpn, hout, -⟩ := ManagedCertificate.exists_output
    (show ManagedCertificate.clashFlag ManagedCertificate.files = some false by decide)
  exact ⟨pn, out, hpn, hout, (skipsOnlyWhenTold_iff (by decide) hpn hout).mpr fun _ =>
    .inr (by decide)⟩

/-- A managed certificate is issued to the node and clients are told not to verify it. -/
theorem managed_certificate_skips : ¬ ∀ (db : Db) (substitute : Substitution) (client : Client)
    (binding : NodeBinding) (config : ProtocolConfig) (node : Node) (protocol : ProtocolType)
    (pn : ProxyNode) (format : SubscriptionFormat) (out : Output), protocol ≠ .vlessReality →
    (accessibleNode substitute client binding config node protocol).exec db = .ok pn →
    emit format pn = .ok out → SkipsOnlyWhenTold db config binding format out := by
  intro h
  obtain ⟨pn, out, hpn, hout, hflag⟩ := ManagedCertificate.exists_output
    (show ManagedCertificate.clashFlag ManagedCertificate.managed = some true by decide)
  have htold := (h _ _ _ _ _ _ _ pn .clash out (by decide) hpn hout
    ManagedCertificate.serverCertified_managed true hflag).mp rfl
  have hsettings : (ManagedCertificate.config ManagedCertificate.managed).settings.get
      "skip_cert_verify" = none := by decide
  rw [hsettings] at htold
  cases htold

end ProxyPanel.Hub.CertificateVerification
