import Mathlib.Tactic.NormNum
import ProxyPanel.Hub.Listeners
import ProxyPanel.Hub.ProxyNodes
import ProxyPanel.Hub.RelayCredentials
import ProxyPanel.Subscription.Fields

/-!
# One port for a binding

The port of a protocol config is read in four places.  Subscriptions and relay hops cut
it to 16 bits, the builders write it as it is or 443 for a negative one, and the check
for port conflicts cuts it to 16 bits after an override that nobody else reads.
`portsAgree_iff` says for which configs and bindings the four are one port.
-/

namespace ProxyPanel.Hub.PortAgreement

open Json Query RelayCredentials Subscription

/-- The rows the routes of protocol configs write. -/
inductive Routed : ProtocolConfig → Prop where
  | create {payload : CreateConfigPayload} {protocol : ProtocolType} {core : CoreType}
      (now : DateTime) (id : Uuid)
      (h : validateProtocol payload.protocolType payload.coreType = .ok (protocol, core)) :
      Routed (payload.config now id protocol core)
  | update {config : ProtocolConfig} {payload : UpdateConfigPayload} (now : DateTime)
      (hconfig : Routed config) (h : payload.validate config = .ok ()) :
      Routed (payload.apply now config)

/-- **One port everywhere**: what the subscription of a client advertises in any format, what
a relay hop to the binding dials, where the inbound listens and what the check for conflicts
reads. -/
def PortsAgree (db : Db) (client : Client) (config : ProtocolConfig) (node : Node)
    (binding : NodeBinding) (inbound : Json) : Prop :=
  ∃ port, 1 ≤ port ∧ port ≤ 65535 ∧
    (∀ substitute protocol pn,
      (accessibleNode substitute client binding config node protocol).exec db = .ok pn →
      pn.port = port ∧ ∀ format out, emit format pn = .ok out → out.port = some port) ∧
    (∀ rule hop core outbound, rule.exitBindingId = binding.id → relayHop db rule = some hop →
      hop.build core = .ok outbound → dialedPort core outbound = some port) ∧
    (∃ listen, listenPair (parseCoreType config.coreType) inbound = some (listen, toString port)) ∧
    (∃ listen, portUse db binding = some (listen, port, parseCoreType config.coreType))

/-- The port is in range where the builder writes it and 443 where it does not, and the
override that only the check reads asks for the same port. -/
def PortKept (config : ProtocolConfig) (binding : NodeBinding) : Prop :=
  (if config.settings.isObject = true ∧ 0 ≤ config.listenPort then
    1 ≤ config.listenPort ∧ config.listenPort ≤ 65535
  else config.listenPort % 65536 = 443) ∧
  ∀ n, binding.overrideSettings.bind (·.getU64 "listen_port") = some n →
    (n : Int) % 65536 = config.listenPort % 65536

instance (config : ProtocolConfig) (binding : NodeBinding) : Decidable (PortKept config binding) :=
  inferInstanceAs (Decidable (_ ∧ ∀ n, _ = some n → _))

/-! ### The four readings -/

/-- The range of a 32-bit column. -/
def InColumn (n : Int) : Prop := -2147483648 ≤ n ∧ n < 2147483648

theorem inColumn_bmod (n : Int) : InColumn (n.bmod 4294967296) := by
  have hle := @Int.le_bmod n 4294967296 (by decide)
  have hlt := @Int.bmod_lt n 4294967296 (by decide)
  constructor <;> omega

theorem listenPort_config (payload : CreateConfigPayload) (now : DateTime) (id : Uuid)
    (protocol : ProtocolType) (core : CoreType) :
    (payload.config now id protocol core).listenPort =
      Int.bmod (payload.listenPort.getD 443) 4294967296 := by
  simp only [CreateConfigPayload.config, Nat.reducePow]

theorem listenPort_apply (payload : UpdateConfigPayload) (now : DateTime) (config : ProtocolConfig) :
    (payload.apply now config).listenPort =
      (payload.listenPort.map fun port : Nat => Int.bmod port 4294967296).getD config.listenPort := by
  simp only [UpdateConfigPayload.apply, Nat.reducePow]
  cases payload.listenPort <;> rfl

/-- A stored port fits 32 bits. -/
theorem Routed.inColumn {config : ProtocolConfig} (h : Routed config) : InColumn config.listenPort := by
  induction h with
  | create now id h =>
    rw [listenPort_config]
    exact inColumn_bmod _
  | @update config payload now hconfig h ih =>
    rw [listenPort_apply]
    cases payload.listenPort with
    | none => exact ih
    | some n =>
      rw [Option.map_some, Option.getD_some]
      exact inColumn_bmod n

theorem isObject_mergedSettings (config : ProtocolConfig) (binding : NodeBinding) :
    (mergedSettings config binding).isObject = config.settings.isObject := by
  rw [mergedSettings]
  split
  · exact isObject_setAll _ _
  · rfl

theorem advertised_port {db : Db} {substitute : Substitution} {client : Client}
    {binding : NodeBinding} {config : ProtocolConfig} {node : Node} {protocol : ProtocolType}
    {pn : ProxyNode}
    (hhost : db.inboundHosts.one (fun h =>
      h.protocolConfigId = config.id ∧ h.nodeId = node.id ∧ h.isActive) = none)
    (h : (accessibleNode substitute client binding config node protocol).exec db = .ok pn) :
    pn.port = (config.listenPort % 65536).toNat := by
  obtain ⟨-, -, hserver, -⟩ := accessibleNode_ok h
  rw [hhost] at hserver
  generalize pn.server = server, pn.port = port at hserver ⊢
  simp only [effectiveServer] at hserver
  split at hserver
  · cases hserver
    rfl
  · rw [exec_read_bind] at hserver
    split at hserver <;>
    · cases hserver
      rfl

/-- What the builder writes is the port cut to 16 bits exactly when it need not be cut. -/
theorem listenPlace_eq_iff {config : ProtocolConfig} {binding : NodeBinding}
    (hrange : InColumn config.listenPort) :
    ((1 ≤ (config.listenPort % 65536).toNat ∧
      (listenPlace config binding).2 = (config.listenPort % 65536).toNat) ↔
    if config.settings.isObject = true ∧ 0 ≤ config.listenPort then
      1 ≤ config.listenPort ∧ config.listenPort ≤ 65535
    else config.listenPort % 65536 = 443) := by
  have hu64 : ((num config.listenPort).asU64).getD 443 =
      if 0 ≤ config.listenPort then config.listenPort.toNat else 443 := by
    rw [asU64]
    by_cases hnonneg : 0 ≤ config.listenPort
    · rw [if_pos ⟨hnonneg, hrange.2.trans (by norm_num)⟩, if_pos hnonneg, Option.getD_some]
    · rw [if_neg fun h => hnonneg h.1, if_neg hnonneg, Option.getD_none]
  rw [listenPlace, isObject_mergedSettings]
  by_cases hobj : config.settings.isObject = true
  · by_cases hnonneg : 0 ≤ config.listenPort
    · rw [if_pos hobj, if_pos ⟨hobj, hnonneg⟩, hu64, if_pos hnonneg]
      omega
    · rw [if_pos hobj, if_neg fun h => hnonneg h.2, hu64, if_neg hnonneg]
      omega
  · rw [if_neg hobj, if_neg fun h => hobj h.1]
    omega

/-- What the check reads is the port cut to 16 bits, unless an override says otherwise. -/
theorem listenOf_eq_iff (config : ProtocolConfig) (binding : NodeBinding) :
    (listenOf config binding).2 = (config.listenPort % 65536).toNat ↔
    ∀ n, binding.overrideSettings.bind (·.getU64 "listen_port") = some n →
      (n : Int) % 65536 = config.listenPort % 65536 := by
  rw [listenOf]
  cases binding.overrideSettings with
  | none => exact iff_of_true rfl fun _ h => by cases h
  | some overrides =>
    cases hport : overrides.getU64 "listen_port" with
    | none =>
      refine iff_of_true ?_ ?_
      · simp only [hport]
        rfl
      · intro n hn
        rw [Option.bind_some, hport] at hn
        cases hn
    | some n =>
      simp only [hport, Option.bind_some, Option.some.injEq, Option.map_some, Option.getD_some]
      constructor
      · rintro h m rfl
        omega
      · intro h
        have hn := h n rfl
        omega

/-- **When the port of a binding is one port**: for a config of the routes, any override, a
node without a host entry for the config and the inbound that is emitted for the binding. -/
theorem portsAgree_iff {db : Db} {client : Client} {config : ProtocolConfig} {node : Node}
    {binding : NodeBinding} {inbound : Json} (hrouted : Routed config)
    (hbinding : db.nodeBindings.find binding.id = some binding)
    (hconfig : db.protocolConfigs.find binding.protocolConfigId = some config)
    (hhost : db.inboundHosts.one (fun h =>
      h.protocolConfigId = config.id ∧ h.nodeId = node.id ∧ h.isActive) = none)
    (hinbound : inboundFor db binding.nodeId (parseCoreType config.coreType) binding = some inbound) :
    PortsAgree db client config node binding inbound ↔ PortKept config binding := by
  obtain ⟨config', protocol, tls, hconfig', hcore, -, -, hbuilt⟩ := inboundFor_eq_some hinbound
  cases hconfig.symm.trans hconfig'
  have hplace := listenPair_inbound hcore hbuilt
  have huse : portUse db binding = some ((listenOf config binding).1, (listenOf config binding).2,
      parseCoreType config.coreType) := by
    rw [portUse, hconfig, Option.map_some]
  rw [PortKept, ← listenPlace_eq_iff hrouted.inColumn, ← listenOf_eq_iff]
  constructor
  · rintro ⟨port, hlow, hhigh, hadvertised, -, ⟨listen, hpair⟩, address, hchecked⟩
    obtain ⟨pn, hpn⟩ := succeeds_accessibleNode (fun _ _ _ _ _ => "") client binding config node
      protocol db
    have hport : (config.listenPort % 65536).toNat = port :=
      (advertised_port hhost hpn).symm.trans (hadvertised _ _ pn hpn).1
    have hbound : (listenPlace config binding).2 = port := by
      rw [hplace] at hpair
      exact Text.toString_injective (Prod.mk.inj (Option.some.inj hpair)).2
    have hread : (listenOf config binding).2 = port := by
      rw [huse] at hchecked
      exact (Prod.mk.inj (Prod.mk.inj (Option.some.inj hchecked)).2).1
    rw [hport]
    exact ⟨⟨hlow, hbound⟩, hread⟩
  · rintro ⟨⟨hlow, hbound⟩, hchecked⟩
    refine ⟨(config.listenPort % 65536).toNat, hlow, by omega, ?_, ?_, ?_, ?_⟩
    · intro substitute protocol pn hpn
      have hport := advertised_port hhost hpn
      refine ⟨hport, fun format out hout => ?_⟩
      rw [port_emit (by omega) hout, hport]
    · intro rule hop core outbound hexit hhop hbuild
      have hexitOf : ExitOf db rule.exitBindingId binding config := ⟨hexit ▸ hbinding, hconfig⟩
      have hport := (relayHop_exit hhop hexitOf).1
      rw [dialedPort_build hbuild (by omega), hport]
    · exact ⟨_, by rw [hplace, hbound]⟩
    · exact ⟨_, by rw [huse, hchecked]⟩

namespace OnePort

def payload : CreateConfigPayload where
  name := "reality"
  protocolType := "vless_reality"
  coreType := "mihomo"
  listenPort := some 443
  settings := some (mkObj [("reality_dest", str "example.com:443"), ("reality_private_key", str "key")])

def config : ProtocolConfig := payload.config default (.ofNat 2) .vlessReality .mihomo

theorem routed : Routed config := .create default (.ofNat 2) rfl

def node : Node where
  id := .ofNat 1
  name := "node"
  hostname := "node"
  address := "192.0.2.1"
  domain := none
  tokenHash := ""
  coresAvailable := arr []
  usageCoefficient := 0x3f800000
  status := "online"
  parentId := none
  lastSeenAt := none
  updatedAt := default

def binding (overrides : Option Json) : NodeBinding := ⟨.ofNat 3, node.id, config.id, overrides, true⟩

/-- An override of the port. -/
def moved : Json := mkObj [("listen_port", num 8443)]

/-- One binding of the config, with an override. -/
def db (overrides : Option Json) : Db where
  protocolConfigs := .single config
  nodeBindings := .single (binding overrides)

def client : Client := relayClient default ⟨.ofNat 5, .ofNat 6, .ofNat 7, fun id => id⟩ "guest"

theorem exists_inbound (overrides : Option Json) (h : (inboundFor (db overrides)
    (binding overrides).nodeId (parseCoreType config.coreType) (binding overrides)).isSome = true) :
    ∃ inbound, inboundFor (db overrides) (binding overrides).nodeId
      (parseCoreType config.coreType) (binding overrides) = some inbound :=
  Option.isSome_iff_exists.mp h

end OnePort

/-- Without an override the port is one. -/
theorem portsAgree_iff_preset : ∃ inbound,
    inboundFor (OnePort.db none) OnePort.node.id .mihomo (OnePort.binding none) = some inbound ∧
      PortsAgree (OnePort.db none) OnePort.client OnePort.config OnePort.node (OnePort.binding none)
        inbound := by
  obtain ⟨inbound, hinbound⟩ := OnePort.exists_inbound none (by decide)
  refine ⟨inbound, hinbound, (portsAgree_iff OnePort.routed ?_ ?_ rfl hinbound).mpr ?_⟩
  · exact Table.find_eq_some_iff.mpr ⟨List.mem_singleton_self _, rfl⟩
  · exact Table.find_eq_some_iff.mpr ⟨List.mem_singleton_self _, rfl⟩
  · decide

/-- An override of the port moves the port that is checked, and no other one. -/
theorem override_is_checked_only : ¬ ∀ (db : Db) (client : Client) (config : ProtocolConfig)
    (node : Node) (binding : NodeBinding) (inbound : Json), Routed config →
    db.nodeBindings.find binding.id = some binding → binding.isActive = true →
    db.protocolConfigs.find binding.protocolConfigId = some config →
    db.inboundHosts.one (fun h =>
      h.protocolConfigId = config.id ∧ h.nodeId = node.id ∧ h.isActive) = none →
    inboundFor db binding.nodeId (parseCoreType config.coreType) binding = some inbound →
    PortsAgree db client config node binding inbound := by
  intro h
  obtain ⟨inbound, hinbound⟩ := OnePort.exists_inbound
    (some OnePort.moved) (by decide)
  obtain ⟨port, -, -, hadvertised, -, -, address, hchecked⟩ := h (OnePort.db _) OnePort.client
    OnePort.config OnePort.node (OnePort.binding _) inbound OnePort.routed
    (Table.find_eq_some_iff.mpr ⟨List.mem_singleton_self _, rfl⟩) rfl
    (Table.find_eq_some_iff.mpr ⟨List.mem_singleton_self _, rfl⟩) rfl hinbound
  obtain ⟨pn, hpn⟩ := succeeds_accessibleNode (fun _ _ _ _ _ => "") OnePort.client
    (OnePort.binding (some OnePort.moved)) OnePort.config OnePort.node .vlessReality
    (OnePort.db (some OnePort.moved))
  have hread : portUse (OnePort.db (some OnePort.moved)) (OnePort.binding (some OnePort.moved)) =
      some ("0.0.0.0", 8443, .mihomo) := by decide
  have hport : pn.port = 443 := (advertised_port rfl hpn).trans (by decide)
  rw [hread] at hchecked
  have hsame := (hadvertised _ _ pn hpn).1
  rw [hport, ← (Prod.mk.inj (Prod.mk.inj (Option.some.inj hchecked)).2).1] at hsame
  exact absurd hsame (by decide)

end ProxyPanel.Hub.PortAgreement
