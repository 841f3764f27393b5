import ProxyPanel.Hub.Push

/-!
# Where a binding listens

An emitted inbound has the address and the port of its protocol config, whatever the binding
overrides (`listenPair_inbound`).  When the generation for a node succeeds, a binding of the core
is left out only for want of a certificate (`exists_buildInbound_of_generated`).
-/

namespace ProxyPanel.Hub

open Json Query Builder

/-- Address and port of an emitted inbound. -/
def listenPair (core : CoreType) (inbound : Json) : Option (String × String) := do
  let listen ← inbound.getStr "listen"
  let port ← match core with
    | .singBox => (inbound.getU64 "listen_port").map toString
    | .mihomo => inbound.getStr "port"
  return (listen, port)

/-- The address of an inbound whose settings name none. -/
def defaultListen : CoreType → String
  | .singBox => "::"
  | .mihomo => "0.0.0.0"

/-- Address and port of the inbound of a binding: those of its config. -/
def listenPlace (config : ProtocolConfig) (binding : NodeBinding) : String × Nat :=
  if (mergedSettings config binding).isObject then
    (config.listenAddress, ((num config.listenPort).asU64).getD 443)
  else (defaultListen (parseCoreType config.coreType), 443)

/-- The certificate the builder of a core accepts. -/
def HasCertificate : CoreType → Option Json → Prop
  | .singBox => SingBox.hasCertificate
  | .mihomo => Mihomo.hasCertificate

/-! ### The pair of an inbound -/

theorem getU64_lt {j : Json} {k : String} {n : Nat} (h : j.getU64 k = some n) : n < 2 ^ 64 := by
  rw [getU64] at h
  obtain ⟨value, -, hvalue⟩ := Option.bind_eq_some_iff.mp h
  cases value with
  | num m =>
    rw [asU64] at hvalue
    split at hvalue
    · cases hvalue
      omega
    · cases hvalue
  | _ => cases hvalue

theorem asU64_num_getD (o : Option Nat) (h : ∀ n, o = some n → n < 2 ^ 64) :
    (num ((o.getD 443 : Nat) : Int)).asU64 = some (o.getD 443) := by
  have hlt : o.getD 443 < 2 ^ 64 := by
    cases o with
    | none => decide
    | some n => exact h n rfl
  rw [asU64, if_pos ⟨Int.natCast_nonneg _, by exact_mod_cast hlt⟩, Int.toNat_natCast]

theorem listenPair_buildInbound {core : CoreType} {protocol : ProtocolType} {settings inbound : Json}
    {tls : Option Json} (h : buildInbound core protocol settings tls = .ok inbound) :
    listenPair core inbound = some ((settings.getStr "listen").getD (defaultListen core),
      toString ((settings.getU64 "port").getD 443)) := by
  cases core with
  | singBox =>
    have hlisten : inbound.get "listen" = some (strOr settings "listen" "::") := by
      rw [SingBox.get_buildInbound h (by decide), SingBox.listenFields, get_mkObj]
      rfl
    have hport : inbound.get "listen_port" = some (u64Or settings "port" 443) := by
      rw [SingBox.get_buildInbound h (by decide), SingBox.listenFields, get_mkObj]
      rfl
    have hu64 := asU64_num_getD (settings.getU64 "port") fun n => getU64_lt
    rw [listenPair, getStr, hlisten, getU64, hport, Option.bind_some, Option.bind_some, u64Or, hu64]
    rfl
  | mihomo =>
    have hlisten : inbound.get "listen" = some (strOr settings "listen" "0.0.0.0") := by
      rw [Mihomo.get_buildInbound h (by decide), Mihomo.listenFields, get_mkObj]
      rfl
    have hport : inbound.get "port" =
        some (str (toString ((settings.getU64 "port").getD 443))) := by
      rw [Mihomo.get_buildInbound h (by decide), Mihomo.listenFields, get_mkObj]
      rfl
    rw [listenPair, getStr, hlisten]
    dsimp only
    rw [getStr, hport]
    rfl

theorem isObject_injected (db : Db) (binding : NodeBinding) (protocolType : String)
    (settings : Json) : (injected db binding protocolType settings).isObject = settings.isObject := by
  rw [injected]
  split
  · rfl
  · exact isObject_set _ _ _

/-- The inbound of a binding listens where its config says. -/
theorem listenPair_inbound {core : CoreType} {protocol : ProtocolType} {db : Db}
    {config : ProtocolConfig} {binding : NodeBinding} {protocolType : String} {tls : Option Json}
    {inbound : Json} (hcore : parseCoreType config.coreType = core)
    (h : buildInbound core protocol (withListen config
      (injected db binding protocolType (mergedSettings config binding))) tls = .ok inbound) :
    listenPair core inbound = some ((listenPlace config binding).1,
      toString (listenPlace config binding).2) := by
  rw [listenPair_buildInbound h, listenPlace, ← isObject_injected db binding protocolType, hcore]
  generalize injected db binding protocolType (mergedSettings config binding) = settings
  by_cases hobj : settings.isObject = true
  · have hport : ((settings.set "port" (num config.listenPort)).set "listen"
        (str config.listenAddress)).isObject = true := by
      rw [isObject_set, isObject_set, hobj]
    have hlisten : (withListen config settings).getStr "listen" = some config.listenAddress := by
      rw [withListen, getStr_set_of_ne _ (by decide), getStr, get_set_self]
      · rfl
      · rw [isObject_set, hobj]
    have hportOf : (withListen config settings).getU64 "port" = (num config.listenPort).asU64 := by
      rw [withListen, getU64, get_set_of_ne _ (by decide), get_set_of_ne _ (by decide),
        get_set_self hobj, Option.bind_some]
    rw [if_pos hobj, hlisten, hportOf, Option.getD_some]
  · have hnot : settings.isObject = false := by simpa using hobj
    rw [if_neg hobj, withListen, set_of_not_isObject hnot, set_of_not_isObject hnot,
      set_of_not_isObject hnot, getStr, getU64, get_of_not_isObject hnot, get_of_not_isObject hnot]
    rfl

/-! ### The bindings that are emitted -/

section

variable {gen : GenEnv} {db : Db} {nodeId : Uuid}

/-- The inbound of a binding, from its config and certificate. -/
theorem exec_bindingInbound {core : CoreType} {version : Option String} {binding : NodeBinding}
    {config : ProtocolConfig} {tls : Option Json}
    (hconfig : db.protocolConfigs.find binding.protocolConfigId = some config)
    (hcore : parseCoreType config.coreType = core)
    (htls : (resolveManagedCertTls nodeId
      (SettingsHelper.mergeTlsSettings config.tlsSettings (overrideTls binding))).exec db = .ok tls) :
    (bindingInbound nodeId core version binding).exec db =
      (parseProtocolType config.protocolType).bind fun protocol => .ok (some {
        tag := configTag config
        protocol
        listen := config.listenAddress
        port := (config.listenPort % 65536).toNat
        settings := withListen config
          (injected db binding config.protocolType (mergedSettings config binding))
        tls
        coreVersion := version }) := by
  rw [bindingInbound, exec_read_bind, hconfig]
  dsimp only
  rw [if_neg (not_not.mpr hcore), exec_bind, exec_lift]
  cases parseProtocolType config.protocolType with
  | error e => rfl
  | ok protocol =>
    change (injectBindingClients binding config.protocolType (mergedSettings config binding) >>=
      _).exec db = _
    rw [exec_bind, exec_injectBindingClients]
    change (resolveManagedCertTls nodeId _ >>= _).exec db = _
    rw [exec_bind, htls]
    rfl

/-- The protocols of a core whose inbound may be left out. -/
def needsTls : CoreType → ProtocolType → Bool
  | .singBox => SingBox.needsTls
  | .mihomo => Mihomo.needsTls

theorem exists_buildInbounds {env : Env} {core : CoreType} {ibs : List InboundConfig} {config : Json}
    (h : buildFullConfig env core ibs = .ok config) : ∃ values,
      buildInbounds (fun ib => buildInbound core ib.protocol ib.settings ib.tls) (needsTls core) ibs =
        .ok values := by
  cases core with
  | singBox =>
    obtain ⟨values, hvalues, -⟩ := Except.bind_eq_ok (show _ >>= _ = _ from h)
    exact ⟨values, hvalues⟩
  | mihomo =>
    obtain ⟨values, hvalues, -⟩ := Except.bind_eq_ok (show _ >>= _ = _ from h)
    exact ⟨values, hvalues⟩

theorem exists_buildInbound {core : CoreType} {protocol : ProtocolType}
    (h : needsTls core protocol = true) (settings : Json) (tls : Option Json) :
    (∃ inbound, buildInbound core protocol settings tls = .ok inbound) ↔ HasCertificate core tls := by
  cases core with
  | singBox => exact SingBox.exists_buildInbound h settings tls
  | mihomo => exact Mihomo.exists_buildInbound h settings tls

theorem ne_vlessReality_of_needsTls {core : CoreType} {protocol : ProtocolType}
    (h : needsTls core protocol = true) : protocol ≠ .vlessReality := by
  rintro rfl
  cases core <;> cases h

theorem eq_vlessReality_of_built {core : CoreType} {protocol : ProtocolType} {settings inbound : Json}
    {tls : Option Json} (h : needsTls core protocol = false)
    (hbuild : buildInbound core protocol settings tls = .ok inbound) : protocol = .vlessReality := by
  cases core with
  | singBox =>
    cases protocol with
    | vlessReality => rfl
    | vlessXhttp => exact nomatch (show Except.error _ = Except.ok inbound from hbuild)
    | hysteria2 => cases h
    | anytls => cases h
  | mihomo => cases protocol <;> first | rfl | cases h

/-- When generation succeeds, a binding of the core is left out only for want of a certificate. -/
theorem exists_buildInbound_of_generated {core : CoreType} {out : Json × Option String}
    (h : (generateNodeConfig gen nodeId core).exec db = .ok out) {binding : NodeBinding}
    (hbinding : binding ∈ activeBindings db nodeId) {config : ProtocolConfig} {tls : Option Json}
    (hconfig : db.protocolConfigs.find binding.protocolConfigId = some config)
    (hcore : parseCoreType config.coreType = core)
    (htls : (resolveManagedCertTls nodeId
      (SettingsHelper.mergeTlsSettings config.tlsSettings (overrideTls binding))).exec db = .ok tls) :
    (inboundFor db nodeId core binding).isSome = true ↔
      (config.protocolType = "vless_reality" ∨ HasCertificate core tls) := by
  obtain ⟨ibs, built, hibs, hfull, -⟩ := generateNodeConfig_ok h
  obtain ⟨values, hvalues⟩ := exists_buildInbounds hfull
  obtain ⟨o, hexec, hmem⟩ := exec_collect_mem hibs hbinding
  obtain ⟨protocol, hprotocol, hsome⟩ := Except.bind_eq_ok
    (show _ >>= _ = _ from (exec_bindingInbound hconfig hcore htls).symm.trans hexec)
  cases hsome
  have hfrom := parseProtocolType_eq_ok.mp hprotocol
  have hreality : config.protocolType = "vless_reality" ↔ protocol = .vlessReality := by
    rw [← ProtocolType.toStr_of_fromStr? hfrom]
    cases protocol <;> decide
  generalize withListen config (injected db binding config.protocolType
    (mergedSettings config binding)) = settings at hexec hmem
  have hsome : (inboundFor db nodeId core binding).isSome = true ↔
      ∃ inbound, buildInbound core protocol settings tls = .ok inbound := by
    rw [inboundFor, hexec]
    dsimp only
    cases buildInbound core protocol settings tls with
    | ok inbound => exact iff_of_true rfl ⟨inbound, rfl⟩
    | error e =>
      refine iff_of_false (by simp [Except.toOption]) ?_
      rintro ⟨inbound, h⟩
      cases h
  rw [hsome, hreality]
  cases hneeds : needsTls core protocol with
  | true =>
    rw [exists_buildInbound hneeds]
    exact (or_iff_right (ne_vlessReality_of_needsTls hneeds)).symm
  | false =>
    cases hbuild : buildInbound core protocol settings tls with
    | ok inbound => exact iff_of_true ⟨inbound, rfl⟩ (Or.inl (eq_vlessReality_of_built hneeds hbuild))
    | error e =>
      have hskipped := buildInbounds_error_skipped hvalues (hmem _ rfl) hbuild
      rw [hneeds] at hskipped
      cases hskipped.1

end

end ProxyPanel.Hub
