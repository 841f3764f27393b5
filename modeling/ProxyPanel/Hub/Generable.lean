import ProxyPanel.Hub.Listeners
import ProxyPanel.Hub.PendingCompleteness
import ProxyPanel.Hub.RelayClosure

/-!
# When the generation of a node succeeds

A generation fails on an active binding without a usable config or certificate, and on an
enabled rule whose exit lacks a key or a server name.  `generates_iff_ready` says so in terms of
the rows: the first part is `BindingReady`, the second `ExitReady`, which no core and no entry node
has a part in.
-/

namespace ProxyPanel.Hub

open Json Query Builder

/-- A generation that does not fail. -/
def Generates (gen : GenEnv) (db : Db) (nodeId : Uuid) (core : CoreType) : Prop :=
  ∃ out, (generateNodeConfig gen nodeId core).exec db = .ok out

/-- A generation up to the check against the JSON Schema. -/
def assembled (env : Env) (nodeId : Uuid) (core : CoreType) : Program (Json × Option String) := do
  let version ← effectiveCoreVersion core
  let bindings ← read (·.nodeBindings.filter fun b => b.nodeId = nodeId ∧ b.isActive)
  let inbounds ← collect (bindingInbound nodeId core version) bindings
  let config ← lift (buildFullConfig env core inbounds)
  let config ← applyRelayRules nodeId core config
  return (config, version)

/-- The check, for sing-box. -/
def schemaChecked (gen : GenEnv) (core : CoreType) (out : Json × Option String) :
    Program (Json × Option String) :=
  if core = .singBox then do
    lift (gen.validateSingboxConfig out.1)
    return out
  else return out

theorem generateNodeConfig_eq (gen : GenEnv) (nodeId : Uuid) (core : CoreType) :
    generateNodeConfig gen nodeId core = assembled gen.env nodeId core >>= schemaChecked gen core := by
  simp only [generateNodeConfig, assembled, schemaChecked, bind_assoc, pure_bind]

/-- What is assembled for a node passes the check. -/
def SchemaPasses (gen : GenEnv) (db : Db) (nodeId : Uuid) : Prop :=
  ∀ out, (assembled gen.env nodeId .singBox).exec db = .ok out →
    gen.validateSingboxConfig out.1 = .ok ()

/-! ### What a binding needs -/

/-- What the builder of a core needs of the settings; want of a certificate is no failure. -/
def Buildable (core : CoreType) (protocol : ProtocolType) (settings : Json) : Prop :=
  match protocol with
  | .vlessReality => (settings.getStrAny ["reality_dest", "dest"]).getD "" ≠ "" ∧
      (settings.getStrAny ["reality_private_key", "private_key"]).getD "" ≠ ""
  | .vlessXhttp => core = .mihomo
  | .hysteria2 => True
  | .anytls => True

/-- The certificate that TLS settings name. -/
def certificateOf (tls : Option Json) : Option Uuid :=
  (tls.bind (·.getStr "cert_id")).bind Uuid.parse

/-- A certificate that is named is one of the node. -/
def CertificateFound (db : Db) (nodeId : Uuid) (tls : Option Json) : Prop :=
  ∀ raw, tls.bind (·.getStr "cert_id") = some raw → ∃ certId cert, Uuid.parse raw = some certId ∧
    db.certificates.find certId = some cert ∧ cert.nodeId = nodeId

/-- A binding that its node can be configured with. -/
def BindingReady (db : Db) (b : NodeBinding) : Prop :=
  ∃ config protocol, db.protocolConfigs.find b.protocolConfigId = some config ∧
    ProtocolType.fromStr? config.protocolType = some protocol ∧
    Buildable (parseCoreType config.coreType) protocol (mergedSettings config b) ∧
    CertificateFound db b.nodeId
      (SettingsHelper.mergeTlsSettings config.tlsSettings (overrideTls b))

theorem exists_resolveManagedCertTls {db : Db} {nodeId : Uuid} {tls : Option Json} :
    (∃ resolved, (resolveManagedCertTls nodeId tls).exec db = .ok resolved) ↔
      CertificateFound db nodeId tls := by
  have herror : ∀ {e : PanelError} {r : Except PanelError (Option Json)}, r = .error e →
      ¬ ∃ resolved, r = .ok resolved := by
    rintro e r rfl ⟨resolved, h⟩
    cases h
  cases tls with
  | none => exact iff_of_true ⟨none, rfl⟩ fun raw h => nomatch h
  | some tls =>
    rw [CertificateFound, Option.bind_some, resolveManagedCertTls]
    cases hid : tls.getStr "cert_id" with
    | none => exact iff_of_true ⟨some tls, rfl⟩ fun raw h => nomatch h
    | some raw =>
      cases hparse : Uuid.parse raw with
      | none =>
        simp only [hparse]
        refine iff_of_false (herror rfl) fun h => ?_
        obtain ⟨certId, cert, hparse', -⟩ := h raw rfl
        rw [hparse] at hparse'
        cases hparse'
      | some certId =>
        simp only [hparse, exec_read_bind]
        cases hfind : db.certificates.find certId with
        | none =>
          refine iff_of_false (herror rfl) fun h => ?_
          obtain ⟨certId', cert, hparse', hcert, -⟩ := h raw rfl
          cases hparse.symm.trans hparse'
          rw [hfind] at hcert
          cases hcert
        | some cert =>
          dsimp only
          by_cases hnode : cert.nodeId = nodeId
          · rw [if_neg (not_not.mpr hnode)]
            refine iff_of_true ⟨_, rfl⟩ fun raw' hraw => ?_
            cases hraw
            exact ⟨certId, cert, hparse, hfind, hnode⟩
          · rw [if_pos hnode]
            refine iff_of_false (herror rfl) fun h => ?_
            obtain ⟨certId', cert', hparse', hcert, hnode'⟩ := h raw rfl
            cases hparse.symm.trans hparse'
            cases hfind.symm.trans hcert
            exact hnode hnode'

/-- Want of a certificate is told by its text. -/
theorem buildServerTls_error {tls : Option Json} {e : PanelError}
    (h : SingBox.buildServerTls tls = .error e) : Text.contains e.toStr "TLS" = true := by
  rw [SingBox.buildServerTls.eq_def] at h
  split at h
  · cases h
    decide
  · dsimp only at h
    split at h
    · cases h
    · split at h
      · cases h
      · split at h
        · cases h
        · cases h
          decide

theorem applyCertTls_error {listener : Json} {tls : Option Json} {e : PanelError}
    (h : Mihomo.applyCertTls listener tls = .error e) : Text.contains e.toStr "TLS" = true := by
  rw [Mihomo.applyCertTls.eq_def] at h
  split at h
  · cases h
    decide
  · dsimp only at h
    split at h
    · cases h
    · split at h
      · cases h
      · cases h
        decide

theorem exists_buildRealityTls {settings : Json} :
    (∃ tls, SingBox.buildRealityTls settings = some tls) ↔
      Buildable .singBox .vlessReality settings := by
  rw [SingBox.buildRealityTls, Buildable]
  cases settings.getStrAny ["reality_dest", "dest"] with
  | none => simp
  | some dest =>
    cases settings.getStrAny ["reality_private_key", "private_key"] with
    | none => by_cases hempty : dest = "" <;> simp [hempty]
    | some key =>
      by_cases hdest : dest = ""
      · simp [hdest]
      · by_cases hkey : key = "" <;> simp [hdest, hkey]

theorem exists_buildVlessRealityListener {settings : Json} :
    (∃ listener, Mihomo.buildVlessRealityListener settings = .ok listener) ↔
      Buildable .mihomo .vlessReality settings := by
  have hset : ∀ value : Option String, value.getD "" ≠ "" ↔
      (value.filter SettingsHelper.nonEmpty).isSome = true := by
    intro value
    cases value with
    | none => simp
    | some s => by_cases hs : s = "" <;> simp [hs, SettingsHelper.nonEmpty, Option.filter]
  rw [Buildable, hset, hset, Mihomo.buildVlessRealityListener.eq_def]
  cases (settings.getStrAny ["reality_dest", "dest"]).filter SettingsHelper.nonEmpty with
  | none => exact iff_of_false (by rintro ⟨listener, h⟩; cases h) fun h => nomatch h.1
  | some dest =>
    cases (settings.getStrAny ["reality_private_key", "private_key"]).filter
        SettingsHelper.nonEmpty with
    | none => exact iff_of_false (by rintro ⟨listener, h⟩; cases h) fun h => nomatch h.2
    | some key => exact iff_of_true ⟨_, rfl⟩ ⟨rfl, rfl⟩

/-- The builders of the other protocols fail with their certificate only. -/
theorem buildInbound_error {core : CoreType} {protocol : ProtocolType}
    (h : needsTls core protocol = true) {settings : Json} {tls : Option Json} {e : PanelError}
    (he : buildInbound core protocol settings tls = .error e) :
    Text.contains e.toStr "TLS" = true := by
  have hbind : ∀ {α : Type} {x : PanelResult α} {f : α → Json},
      (x >>= fun a => Pure.pure (f a)) = .error e → x = .error e := by
    intro α x f hx
    cases x with
    | error e' => exact congrArg Except.error (Except.error.inj hx)
    | ok a => cases hx
  cases core with
  | singBox =>
    cases protocol with
    | vlessReality => cases h
    | vlessXhttp => cases h
    | hysteria2 => exact buildServerTls_error (hbind (show _ >>= _ = _ from he))
    | anytls => exact buildServerTls_error (hbind (show _ >>= _ = _ from he))
  | mihomo =>
    cases protocol with
    | vlessReality => cases h
    | vlessXhttp => exact applyCertTls_error (hbind (show _ >>= _ = _ from he))
    | hysteria2 => exact applyCertTls_error (hbind (show _ >>= _ = _ from he))
    | anytls => exact applyCertTls_error he

/-- The error of a builder that is no want of a certificate. -/
theorem error_iff {r : PanelResult Json} {needs : Bool} (htext : ∀ e, r = .error e → needs = true →
    Text.contains e.toStr "TLS" = true) :
    (∀ e, r = .error e → needs = true ∧ Text.contains e.toStr "TLS" = true) ↔
      (∃ inbound, r = .ok inbound) ∨ needs = true := by
  cases r with
  | ok inbound => exact iff_of_true nofun (.inl ⟨inbound, rfl⟩)
  | error e =>
    constructor
    · intro h
      exact .inr (h e rfl).1
    · rintro (⟨inbound, h⟩ | h) e' he
      · cases h
      · exact ⟨h, htext e' he h⟩

/-- The builder of a core fails for want of a certificate or because of the settings. -/
theorem buildable_iff {core : CoreType} {protocol : ProtocolType} {settings : Json}
    {tls : Option Json} :
    (∀ e, buildInbound core protocol settings tls = .error e →
      needsTls core protocol = true ∧ Text.contains e.toStr "TLS" = true) ↔
      Buildable core protocol settings := by
  rw [error_iff fun e he hneeds => buildInbound_error hneeds he]
  cases core with
  | singBox =>
    cases protocol with
    | vlessReality =>
      rw [← exists_buildRealityTls]
      simp only [needsTls, SingBox.needsTls, Bool.false_eq_true, or_false]
      change (∃ inbound, SingBox.buildVlessInbound settings = .ok inbound) ↔ _
      simp only [SingBox.buildVlessInbound]
      cases SingBox.buildRealityTls settings with
      | none => simp
      | some tls => simp
    | vlessXhttp => exact iff_of_false (by rintro (⟨_, h⟩ | h) <;> cases h) fun h => by cases h
    | hysteria2 => exact iff_of_true (.inr rfl) trivial
    | anytls => exact iff_of_true (.inr rfl) trivial
  | mihomo =>
    cases protocol with
    | vlessReality =>
      simp only [needsTls, Mihomo.needsTls, Bool.false_eq_true, or_false]
      exact exists_buildVlessRealityListener
    | vlessXhttp => exact iff_of_true (.inr rfl) rfl
    | hysteria2 => exact iff_of_true (.inr rfl) trivial
    | anytls => exact iff_of_true (.inr rfl) trivial

theorem buildable_set {core : CoreType} {protocol : ProtocolType} {k : String}
    (hk : k ∉ ["reality_dest", "dest", "reality_private_key", "private_key"]) (settings v : Json) :
    Buildable core protocol (settings.set k v) ↔ Buildable core protocol settings := by
  have hdest : k ∉ ["reality_dest", "dest"] := fun h => hk (List.mem_append_left _ h)
  have hkey : k ∉ ["reality_private_key", "private_key"] := fun h =>
    hk (List.mem_append_right ["reality_dest", "dest"] h)
  cases protocol with
  | vlessReality =>
    rw [Buildable, Buildable, getStrAny_set_of_not_mem _ hdest, getStrAny_set_of_not_mem _ hkey]
  | vlessXhttp => exact Iff.rfl
  | hysteria2 => exact Iff.rfl
  | anytls => exact Iff.rfl

/-- Neither the clients nor the place of an inbound matter. -/
theorem buildable_withListen {db : Db} {core : CoreType} {protocol : ProtocolType}
    {config : ProtocolConfig} {b : NodeBinding} {settings : Json} :
    Buildable core protocol (withListen config (injected db b config.protocolType settings)) ↔
      Buildable core protocol settings := by
  rw [withListen, buildable_set (by decide), buildable_set (by decide), buildable_set (by decide),
    injected]
  split
  · exact Iff.rfl
  · exact buildable_set (by decide) _ _

/-- What the generation for one core asks of a binding. -/
def ReadyFor (db : Db) (core : CoreType) (b : NodeBinding) : Prop :=
  ∃ config, db.protocolConfigs.find b.protocolConfigId = some config ∧
    (parseCoreType config.coreType = core → ∃ protocol,
      ProtocolType.fromStr? config.protocolType = some protocol ∧
      Buildable core protocol (mergedSettings config b) ∧
      CertificateFound db b.nodeId
        (SettingsHelper.mergeTlsSettings config.tlsSettings (overrideTls b)))

theorem bindingReady_iff {db : Db} {b : NodeBinding} :
    BindingReady db b ↔ ∀ core, ReadyFor db core b := by
  constructor
  · rintro ⟨config, protocol, hconfig, hprotocol, hbuildable, hcert⟩ core
    exact ⟨config, hconfig, fun hcore => ⟨protocol, hprotocol, hcore ▸ hbuildable, hcert⟩⟩
  · intro h
    obtain ⟨config, hconfig, -⟩ := h .singBox
    obtain ⟨config', hconfig', hready⟩ := h (parseCoreType config.coreType)
    cases hconfig.symm.trans hconfig'
    obtain ⟨protocol, hprotocol, hbuildable, hcert⟩ := hready rfl
    exact ⟨config, protocol, hconfig, hprotocol, hbuildable, hcert⟩

/-- An inbound that does not fail the configuration. -/
def InboundPasses (core : CoreType) (ib : InboundConfig) : Prop :=
  ∀ e, buildInbound core ib.protocol ib.settings ib.tls = .error e →
    needsTls core ib.protocol = true ∧ Text.contains e.toStr "TLS" = true

theorem readyFor_iff {db : Db} {core : CoreType} {b : NodeBinding} {version : Option String} :
    (∃ o, (bindingInbound b.nodeId core version b).exec db = .ok o ∧
      ∀ ib, o = some ib → InboundPasses core ib) ↔ ReadyFor db core b := by
  have herror : ∀ {e : PanelError} {r : PanelResult (Option InboundConfig)}, r = .error e →
      ¬ ∃ o, r = .ok o ∧ ∀ ib, o = some ib → InboundPasses core ib := by
    rintro e r rfl ⟨o, h, -⟩
    cases h
  cases hconfig : db.protocolConfigs.find b.protocolConfigId with
  | none =>
    refine iff_of_false (herror (by rw [bindingInbound, exec_read_bind, hconfig]; rfl)) ?_
    rintro ⟨config, h, -⟩
    rw [hconfig] at h
    cases h
  | some config =>
    by_cases hcore : parseCoreType config.coreType = core
    · have hready : ReadyFor db core b ↔ ∃ protocol,
          ProtocolType.fromStr? config.protocolType = some protocol ∧
          Buildable core protocol (mergedSettings config b) ∧
          CertificateFound db b.nodeId
            (SettingsHelper.mergeTlsSettings config.tlsSettings (overrideTls b)) := by
        constructor
        · rintro ⟨config', hconfig', h⟩
          cases hconfig.symm.trans hconfig'
          exact h hcore
        · exact fun h => ⟨config, hconfig, fun _ => h⟩
      rw [hready, ← exists_resolveManagedCertTls]
      cases hprotocol : parseProtocolType config.protocolType with
      | error e =>
        refine iff_of_false (herror (e := e) ?_) ?_
        · rw [bindingInbound, exec_read_bind, hconfig]
          dsimp only
          rw [if_neg (not_not.mpr hcore), exec_bind, exec_lift, hprotocol]
          rfl
        · rintro ⟨protocol, h, -⟩
          rw [parseProtocolType_eq_ok.mpr h] at hprotocol
          cases hprotocol
      | ok protocol =>
        have hfrom := parseProtocolType_eq_ok.mp hprotocol
        cases htls : (resolveManagedCertTls b.nodeId
            (SettingsHelper.mergeTlsSettings config.tlsSettings (overrideTls b))).exec db with
        | error e =>
          refine iff_of_false (herror (e := e) ?_) ?_
          · rw [bindingInbound, exec_read_bind, hconfig]
            dsimp only
            rw [if_neg (not_not.mpr hcore), exec_bind, exec_lift, hprotocol]
            change (injectBindingClients b config.protocolType (mergedSettings config b) >>=
              _).exec db = _
            rw [exec_bind, exec_injectBindingClients]
            change (resolveManagedCertTls b.nodeId _ >>= _).exec db = _
            rw [exec_bind, htls]
            rfl
          · rintro ⟨protocol', -, -, resolved, h⟩
            cases h
        | ok tls =>
          rw [exec_bindingInbound hconfig hcore htls, hprotocol]
          constructor
          · rintro ⟨o, ho, hpasses⟩
            cases ho
            exact ⟨protocol, hfrom, buildable_withListen.mp (buildable_iff.mp (hpasses _ rfl)),
              tls, rfl⟩
          · rintro ⟨protocol', hfrom', hbuildable, -⟩
            cases hfrom.symm.trans hfrom'
            refine ⟨_, rfl, fun ib hib => ?_⟩
            cases hib
            exact buildable_iff.mpr (buildable_withListen.mpr hbuildable)
    · refine iff_of_true ⟨none, ?_, fun ib h => by cases h⟩
        ⟨config, hconfig, fun h => absurd h hcore⟩
      rw [bindingInbound, exec_read_bind, hconfig]
      dsimp only
      rw [if_pos hcore]
      rfl

/-! ### What a relay rule needs -/

/-- What the outbound to an exit is built from: key and server name, or the name of the
certificate, if there is one. -/
def Dialable (protocol : ProtocolType) (settings : Json) (named : Prop) : Prop :=
  match protocol with
  | .vlessReality => (RelayHop.strSetting settings ["public_key"]).isSome = true ∧
      (RelayHop.firstStringSetting settings ["reality_server_names", "server_names"]).isSome = true
  | .hysteria2 => named
  | .anytls => named
  | .vlessXhttp => False

/-- The TLS override of a binding, and never that of its config, names a certificate that is
there, or else a domain. -/
def SniFound (db : Db) (b : NodeBinding) : Prop :=
  ∃ tls, overrideTls b = some tls ∧
    ((∃ certId, certificateOf (some tls) = some certId ∧
      (db.certificates.find certId).isSome = true) ∨ (tls.getStr "domain").getD "" ≠ "")

def relaySni (db : Db) (b : NodeBinding) : Option String :=
  ((resolveRelaySni b).exec db).toOption.join

theorem relaySni_isSome {db : Db} {b : NodeBinding} :
    (relaySni db b).isSome = true ↔ SniFound db b := by
  have hdomain : ∀ domain : Option String,
      (domain.filter fun s => s ≠ "").isSome = true ↔ domain.getD "" ≠ "" := by
    intro domain
    cases domain with
    | none => simp
    | some s => by_cases hs : s = "" <;> simp [hs, Option.filter]
  rw [relaySni, resolveRelaySni, SniFound, overrideTls]
  cases b.overrideSettings.bind (·.get "tls_settings") with
  | none => simp [Except.toOption]
  | some tls =>
    simp only [Option.some.injEq, exists_eq_left', certificateOf, Option.bind_some]
    cases (tls.getStr "cert_id").bind Uuid.parse with
    | none =>
      simp only [exec_pure, Except.toOption, Option.join_some, hdomain]
      simp
    | some certId =>
      simp only [exec_read_bind, Option.some.injEq, exists_eq_left']
      cases db.certificates.find certId with
      | none =>
        simp only [exec_pure, Except.toOption, Option.join_some, hdomain]
        simp
      | some cert => exact iff_of_true rfl (.inl rfl)

/-- An exit that rules can be applied for, or are skipped for. -/
def ExitReady (db : Db) (exitBindingId : Uuid) : Prop :=
  ∀ b config protocol, db.nodeBindings.find exitBindingId = some b →
    db.protocolConfigs.find b.protocolConfigId = some config →
    (db.nodes.find b.nodeId).isSome = true →
    ProtocolType.fromStr? config.protocolType = some protocol →
    Dialable protocol config.settings (SniFound db b)

theorem exists_realityKeys {settings : Json} {named : Prop} :
    (∃ keys, RelayHop.realityKeys settings = .ok keys) ↔
      Dialable .vlessReality settings named := by
  rw [RelayHop.realityKeys, Dialable]
  cases RelayHop.strSetting settings ["public_key"] with
  | none => simp
  | some key =>
    cases RelayHop.firstStringSetting settings ["reality_server_names", "server_names"] with
    | none => simp
    | some name => simp

theorem exists_bind_pure {ε α β : Type} {x : Except ε α} {f : α → β} :
    (∃ b, (x >>= fun a => Pure.pure (f a)) = .ok b) ↔ ∃ a, x = .ok a := by
  cases x with
  | error e => exact iff_of_false (by rintro ⟨b, h⟩; cases h) (by rintro ⟨a, h⟩; cases h)
  | ok a => exact iff_of_true ⟨f a, rfl⟩ ⟨a, rfl⟩

theorem exists_requireSni {hop : RelayHop} {protocol : String} :
    (∃ sni, hop.requireSni protocol = .ok sni) ↔ hop.tlsSni.isSome = true := by
  rw [RelayHop.requireSni]
  cases hop.tlsSni <;> simp

theorem exists_buildHop {core : CoreType} {hop : RelayHop} :
    (∃ outbound, hop.build core = .ok outbound) ↔
      Dialable hop.protocol hop.settings (hop.tlsSni.isSome = true) := by
  cases core with
  | singBox =>
    rw [RelayHop.build, RelayHop.buildSingboxOutbound.eq_def]
    cases hop.protocol with
    | vlessReality => exact exists_bind_pure.trans exists_realityKeys
    | vlessXhttp => exact iff_of_false (by rintro ⟨_, h⟩; cases h) nofun
    | hysteria2 => exact exists_bind_pure.trans exists_requireSni
    | anytls => exact exists_bind_pure.trans exists_requireSni
  | mihomo =>
    rw [RelayHop.build, RelayHop.buildMihomoProxy.eq_def]
    cases hop.protocol with
    | vlessReality => exact exists_bind_pure.trans exists_realityKeys
    | vlessXhttp => exact iff_of_false (by rintro ⟨_, h⟩; cases h) nofun
    | hysteria2 => exact exists_bind_pure.trans exists_requireSni
    | anytls => exact exists_bind_pure.trans exists_requireSni

theorem exitReady_iff {db : Db} {core : CoreType} {rule : RelayRule} {config : Json} :
    (∃ config', (applyRelayRule core config rule).exec db = .ok config') ↔
      ExitReady db rule.exitBindingId := by
  have hhop : (∃ config', (applyRelayRule core config rule).exec db = .ok config') ↔
      ∀ hop, relayHop db rule = some hop → ∃ outbound, hop.build core = .ok outbound := by
    rw [exec_applyRelayRule]
    cases relayHop db rule with
    | none => exact iff_of_true ⟨config, rfl⟩ fun hop h => nomatch h
    | some hop =>
      simp only [Option.some.injEq, forall_eq']
      cases hop.build core with
      | error e => exact iff_of_false (by rintro ⟨_, h⟩; cases h) (by rintro ⟨_, h⟩; cases h)
      | ok outbound => exact iff_of_true ⟨_, rfl⟩ ⟨outbound, rfl⟩
  rw [hhop]
  constructor
  · intro h b exitCfg protocol hbinding hconfig hnode hprotocol
    obtain ⟨exitNode, hnode⟩ := Option.isSome_iff_exists.mp hnode
    cases hsome : relayHop db rule with
    | none =>
      simp only [relayHop, hbinding, Option.bind_eq_bind, Option.bind_some, hconfig, hnode,
        hprotocol] at hsome
      cases hsome
    | some hop =>
      have hdial := exists_buildHop.mp (h hop hsome)
      simp only [relayHop, hbinding, Option.bind_eq_bind, Option.bind_some, hconfig, hnode,
        hprotocol] at hsome
      cases hsome
      rw [← relaySni_isSome]
      exact hdial
  · intro h hop hsome
    simp only [relayHop, Option.bind_eq_bind, Option.bind_eq_some_iff] at hsome
    obtain ⟨b, hbinding, exitCfg, hconfig, exitNode, hnode, protocol, hprotocol, hsome⟩ := hsome
    cases hsome
    have hdial := h b exitCfg protocol hbinding hconfig (Option.isSome_iff_exists.mpr ⟨_, hnode⟩)
      hprotocol
    rw [← relaySni_isSome] at hdial
    exact exists_buildHop.mpr hdial

/-! ### When a node is not blocked -/

theorem exists_buildFullConfig {env : Env} {core : CoreType} {ibs : List InboundConfig} :
    (∃ config, buildFullConfig env core ibs = .ok config) ↔ ∀ ib ∈ ibs, InboundPasses core ib := by
  refine Iff.trans ?_ exists_buildInbounds_iff
  constructor
  · rintro ⟨config, h⟩
    exact exists_buildInbounds h
  · rintro ⟨values, h⟩
    cases core with
    | singBox =>
      exact exists_bind_pure.mpr ⟨values, h⟩
    | mihomo =>
      exact exists_bind_pure.mpr ⟨values, h⟩

/-- What a generation reads for a node and a core is ready: the active bindings, and the exits
of the enabled rules. -/
def AllReady (db : Db) (nodeId : Uuid) (core : CoreType) : Prop :=
  (∀ b ∈ activeBindings db nodeId, ReadyFor db core b) ∧
    ∀ rule ∈ enabledRules db nodeId, ExitReady db rule.exitBindingId

theorem exists_applyRelayRules {db : Db} {nodeId : Uuid} {core : CoreType} (config : Json) :
    (∃ config', (applyRelayRules nodeId core config).exec db = .ok config') ↔
      ∀ rule ∈ enabledRules db nodeId, ExitReady db rule.exitBindingId := by
  rw [applyRelayRules, exec_read_bind]
  exact exists_exec_loop (P := fun rule : RelayRule => ExitReady db rule.exitBindingId)
    (fun rule _ config => exitReady_iff) config

theorem readyFor_active_iff {db : Db} {nodeId : Uuid} {core : CoreType} {b : NodeBinding}
    (hb : b ∈ activeBindings db nodeId) :
    (∃ o, (bindingInbound nodeId core (pinnedVersion db core) b).exec db = .ok o ∧
      ∀ ib, o = some ib → InboundPasses core ib) ↔ ReadyFor db core b := by
  rw [← (mem_activeBindings.mp hb).2.1]
  exact readyFor_iff

/-- A generation that succeeds has read rows that are ready. -/
theorem allReady_of_generates {gen : GenEnv} {db : Db} {nodeId : Uuid} {core : CoreType}
    (h : Generates gen db nodeId core) : AllReady db nodeId core := by
  obtain ⟨out, h⟩ := h
  obtain ⟨ibs, config, hibs, hconfig, happlied, -⟩ := generateNodeConfig_ok h
  refine ⟨fun b hb => (readyFor_active_iff hb).mp ?_,
    (exists_applyRelayRules config).mp ⟨_, happlied⟩⟩
  obtain ⟨o, ho, hmem⟩ := exec_collect_mem hibs hb
  exact ⟨o, ho, fun ib hib => exists_buildFullConfig.mp ⟨config, hconfig⟩ ib (hmem ib hib)⟩

/-- From rows that are ready a configuration is assembled. -/
theorem exists_assembled {env : Env} {db : Db} {nodeId : Uuid} {core : CoreType}
    (h : AllReady db nodeId core) : ∃ out, (assembled env nodeId core).exec db = .ok out := by
  obtain ⟨hbindings, hexits⟩ := h
  obtain ⟨ibs, hibs⟩ := exists_exec_collect.mpr fun b hb =>
    ((readyFor_active_iff hb).mpr (hbindings b hb)).imp fun o ho => ho.1
  obtain ⟨config, hconfig⟩ := (@exists_buildFullConfig env core ibs).mpr fun ib hib => by
    obtain ⟨b, hb, hexec⟩ := exists_of_mem_collect hibs hib
    obtain ⟨o, ho, hpasses⟩ := (readyFor_active_iff hb).mpr (hbindings b hb)
    rw [hexec] at ho
    cases ho
    exact hpasses ib rfl
  obtain ⟨config', hconfig'⟩ := (exists_applyRelayRules config).mpr hexits
  refine ⟨(config', pinnedVersion db core), ?_⟩
  rw [assembled, exec_bind_of_ok (exec_effectiveCoreVersion db core), exec_read_bind]
  refine (exec_bind_of_ok hibs _).trans ?_
  refine (exec_bind_of_ok ((exec_lift _ db).trans hconfig) _).trans ?_
  exact exec_bind_of_ok hconfig' _

/-- A sing-box configuration that is generated has passed the check. -/
theorem schemaPasses_of_generates {gen : GenEnv} {db : Db} {nodeId : Uuid}
    (h : Generates gen db nodeId .singBox) : SchemaPasses gen db nodeId := by
  obtain ⟨out, h⟩ := h
  intro out' hassembled
  rw [generateNodeConfig_eq, exec_bind_of_ok hassembled, schemaChecked, if_pos rfl, exec_bind,
    exec_lift] at h
  obtain ⟨_, hvalid, -⟩ := Except.bind_eq_ok h
  exact hvalid

/-- **When the generation succeeds**: every active binding is ready for the core, the exit of
every enabled rule is ready, and what is assembled for sing-box passes the check. -/
theorem generates_iff_ready {gen : GenEnv} {db : Db} {nodeId : Uuid} {core : CoreType} :
    Generates gen db nodeId core ↔
      AllReady db nodeId core ∧ (core = .singBox → SchemaPasses gen db nodeId) := by
  constructor
  · refine fun h => ⟨allReady_of_generates h, ?_⟩
    rintro rfl
    exact schemaPasses_of_generates h
  · rintro ⟨hready, hschema⟩
    obtain ⟨out, hassembled⟩ := @exists_assembled gen.env _ _ _ hready
    rw [Generates, generateNodeConfig_eq, exec_bind_of_ok hassembled, schemaChecked]
    split
    · rename_i hcore
      cases hcore
      rw [exec_bind_of_ok ((exec_lift _ db).trans (hschema rfl _ hassembled))]
      exact ⟨_, rfl⟩
    · exact ⟨_, rfl⟩

theorem generates_iff {gen : GenEnv} {db : Db} {nodeId : Uuid} (hschema : SchemaPasses gen db nodeId)
    {core : CoreType} : Generates gen db nodeId core ↔ AllReady db nodeId core :=
  generates_iff_ready.trans (and_iff_left fun _ => hschema)

/-- No node is blocked. -/
def NoneBlocked (gen : GenEnv) (db : Db) : Prop :=
  ∀ nodeId core, (db.nodes.find nodeId).isSome = true → Generates gen db nodeId core

/-- The rows that a generation for some node reads are ready. -/
structure Ready (db : Db) : Prop where
  bindings : ∀ b ∈ db.nodeBindings.rows, b.isActive = true →
    (db.nodes.find b.nodeId).isSome = true → BindingReady db b
  exits : ∀ rule ∈ db.relayRules.rows, rule.enabled = true →
    (db.nodes.find rule.nodeId).isSome = true → ExitReady db rule.exitBindingId

theorem ready_of_noneBlocked {gen : GenEnv} {db : Db} (h : NoneBlocked gen db) : Ready db := by
  refine ⟨fun b hb hactive hnode => bindingReady_iff.mpr fun core => ?_,
    fun rule hrule henabled hnode => ?_⟩
  · exact (allReady_of_generates (h b.nodeId core hnode)).1 b
      (mem_activeBindings.mpr ⟨hb, rfl, hactive⟩)
  · exact (allReady_of_generates (h rule.nodeId .singBox hnode)).2 rule
      (mem_enabledRules.mpr ⟨hrule, rfl, henabled⟩)

theorem noneBlocked_iff {gen : GenEnv} {db : Db}
    (hschema : ∀ nodeId, (db.nodes.find nodeId).isSome = true → SchemaPasses gen db nodeId) :
    NoneBlocked gen db ↔ Ready db := by
  refine ⟨ready_of_noneBlocked, fun h nodeId core hnode => ?_⟩
  refine (generates_iff (hschema nodeId hnode)).mpr ⟨fun b hb => ?_, fun rule hrule => ?_⟩
  · obtain ⟨hmem, rfl, hactive⟩ := mem_activeBindings.mp hb
    exact bindingReady_iff.mp (h.bindings b hmem hactive hnode) core
  · obtain ⟨hmem, rfl, henabled⟩ := mem_enabledRules.mp hrule
    exact h.exits rule hmem henabled hnode

end ProxyPanel.Hub
