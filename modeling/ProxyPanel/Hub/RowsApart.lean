import Mathlib.Data.List.Perm.Basic
import ProxyPanel.Hub.RowOrder

/-!
# Rows that are told apart

The converse to `orderInvariant_of_settled`.  Two inbounds that are emitted, two clients of one
inbound, or two rules that are applied stand in the configuration in the order of their rows;
reading the rows in another order shows it.
-/

namespace ProxyPanel.Hub

open Json Query Builder

/-- Rows that a configuration tells apart: a node has one binding for a config, settings are
objects, and rules differ in the part of their identifiers that tags are made of. -/
structure RowsApart (db : Db) (nodeId : Uuid) : Prop where
  bindings : ∀ b ∈ activeBindings db nodeId, ∀ b' ∈ activeBindings db nodeId,
    b.protocolConfigId = b'.protocolConfigId → b = b'
  settings : ∀ b ∈ activeBindings db nodeId, ∀ config,
    db.protocolConfigs.find b.protocolConfigId = some config → config.settings.isObject = true
  rules : ((enabledRules db nodeId).map (·.id.short)).Nodup

section Apart

variable {env : HubEnv} {db d : Db} {nodeId : Uuid} {core : CoreType} {b : NodeBinding}

/-! ### Generations in every order -/

/-- A generation without an order has one configuration in every order. -/
theorem exists_generated (hschema : SchemaPasses env.toGenEnv db nodeId)
    (hinvariant : OrderInvariant env db nodeId core) (hready : AllReady db nodeId core) :
    ∃ out, ∀ d, Reordered db d → (generateNodeConfig env.toGenEnv nodeId core).exec d = .ok out := by
  obtain ⟨out, hout⟩ := (generates_iff hschema).mpr hready
  refine ⟨out, fun d hd => ?_⟩
  have hsame := hinvariant.config _ _ (yields_exec _ (Reordered.refl db)) (yields_exec _ hd)
  rw [hout] at hsame
  cases hout' : (generateNodeConfig env.toGenEnv nodeId core).exec d with
  | error e =>
    rw [hout'] at hsame
    cases hsame
  | ok out' =>
    rw [hout'] at hsame
    rw [Option.some.inj hsame]

/-! ### The inbounds that are emitted -/

theorem inboundFor_of_sameClients (h : Reordered db d)
    (hclients : authorizedClients d b.id = authorizedClients db b.id) :
    inboundFor d nodeId core b = inboundFor db nodeId core b := by
  have hexec : (bindingInbound nodeId core (pinnedVersion db core) b).exec d =
      (bindingInbound nodeId core (pinnedVersion db core) b).exec db := by
    rw [bindingInbound, exec_read_bind, exec_read_bind, h.protocolConfigs]
    cases db.protocolConfigs.find b.protocolConfigId with
    | none => rfl
    | some config =>
      dsimp only
      split
      · rfl
      · simp only [exec_bind, exec_lift, exec_injectBindingClients, injected_of_perm h hclients,
          exec_resolveManagedCertTls_congr h.certificates]
        rfl
  rw [inboundFor, inboundFor, h.pinnedVersion, hexec]

/-- What is ready and not left out is emitted. -/
theorem exists_inboundFor (hb : b.nodeId = nodeId) (hready : ReadyFor db core b)
    (hemitted : Emitted db core b) : ∃ inbound, inboundFor db nodeId core b = some inbound := by
  obtain ⟨config, hconfig, hcore, hcertified⟩ := hemitted
  obtain ⟨config', hconfig', hneeds⟩ := hready
  cases hconfig.symm.trans hconfig'
  obtain ⟨protocol, hprotocol, hbuildable, hfound⟩ := hneeds hcore
  subst hb
  obtain ⟨tls, htls⟩ := exists_resolveManagedCertTls.mpr hfound
  obtain ⟨inbound, hinbound⟩ : ∃ inbound, buildInbound core protocol (withListen config
      (injected db b config.protocolType (mergedSettings config b))) tls = .ok inbound := by
    cases htlsNeeds : needsTls core protocol with
    | true =>
      refine (exists_buildInbound htlsNeeds _ _).mpr ((hasCertificate_resolved htls).mpr ?_)
      refine hcertified.resolve_left fun hreality => ?_
      exact ne_vlessReality_of_needsTls htlsNeeds
        (Option.some.inj (hprotocol.symm.trans (by rw [hreality]; rfl)))
    | false =>
      have herror := (@buildable_iff _ _ _ tls).mpr
        ((@buildable_withListen db _ _ config b _).mpr hbuildable)
      cases hbuild : buildInbound core protocol (withListen config
          (injected db b config.protocolType (mergedSettings config b))) tls with
      | ok inbound => exact ⟨inbound, rfl⟩
      | error e =>
        have htrue := (herror e hbuild).1
        rw [htlsNeeds] at htrue
        cases htrue
  exact ⟨inbound, by rw [inboundFor_eq hconfig hcore hprotocol htls, hinbound]; rfl⟩

/-- An inbound comes from one binding. -/
theorem binding_of_inbound (hapart : RowsApart db nodeId) {b b' : NodeBinding} {inbound : Json}
    (hb : b ∈ activeBindings db nodeId) (hb' : b' ∈ activeBindings db nodeId)
    (h : inboundFor db nodeId core b = some inbound)
    (h' : inboundFor db nodeId core b' = some inbound) : b = b' := by
  obtain ⟨config, -, -, hconfig, -⟩ := inboundFor_eq_some h
  obtain ⟨config', -, -, hconfig', -⟩ := inboundFor_eq_some h'
  have htag := inboundTag_inboundFor h hconfig (hapart.settings _ hb _ hconfig)
  rw [inboundTag_inboundFor h' hconfig' (hapart.settings _ hb' _ hconfig')] at htag
  refine hapart.bindings _ hb _ hb' ?_
  rw [← Table.key_of_find hconfig, ← Table.key_of_find hconfig']
  exact (id_eq_of_configTag_eq (Option.some.inj htag)).symm

theorem nodup_inbounds (hapart : RowsApart db nodeId) :
    ((activeBindings db nodeId).filterMap (inboundFor db nodeId core)).Nodup := by
  have hnodup : (activeBindings db nodeId).Nodup := (db.nodeBindings.nodup.of_map).filter _
  refine List.pairwise_filterMap.mpr (hnodup.imp_of_mem fun hb hb' hne inbound hinbound
    inbound' hinbound' heq => hne ?_)
  subst heq
  exact binding_of_inbound hapart hb hb' hinbound hinbound'

/-- The bindings in reverse. -/
def reversedBindings (db : Db) : Db :=
  { db with nodeBindings :=
      ⟨db.nodeBindings.rows.reverse, (List.map_reverse ..).symm ▸ List.nodup_reverse.mpr db.nodeBindings.nodup⟩ }

theorem reordered_reversedBindings (db : Db) : Reordered db (reversedBindings db) :=
  ⟨rfl, List.reverse_perm _, .refl _, .refl _, .refl _, .refl _⟩

theorem length_inbounds_le_one (hapart : RowsApart db nodeId) {out : Json × Option String}
    (hout : ∀ d, Reordered db d → (generateNodeConfig env.toGenEnv nodeId core).exec d = .ok out) :
    ((activeBindings db nodeId).filterMap (inboundFor db nodeId core)).length ≤ 1 := by
  refine Table.length_le_one_of_reverse (nodup_inbounds hapart) ?_
  have hreversed := reordered_reversedBindings db
  have hemitted := emitted_generateNodeConfig (hout _ hreversed)
  rw [emitted_generateNodeConfig (hout db (.refl db))] at hemitted
  have hsame : inboundFor (reversedBindings db) nodeId core = inboundFor db nodeId core :=
    funext fun b => inboundFor_of_sameClients hreversed rfl
  have hactive : activeBindings (reversedBindings db) nodeId = (activeBindings db nodeId).reverse :=
    List.filter_reverse
  rw [hsame, hactive, List.filterMap_reverse] at hemitted
  exact hemitted.symm

/-! ### The clients of an inbound -/

/-- Any order of the clients of a binding is one of the rows. -/
theorem exists_reordered_clients {cs : List Client} (h : cs.Perm (authorizedClients db b.id)) :
    ∃ d, Reordered db d ∧ authorizedClients d b.id = cs := by
  have hperm : (cs ++ db.clients.rows.filter fun c =>
      !decide (c.id ∈ groupMembers db b.id ∧ c.status = "active")).Perm db.clients.rows :=
    (h.append_right _).trans (List.filter_append_perm _ _)
  have hnodup : ((cs ++ db.clients.rows.filter fun c =>
      !decide (c.id ∈ groupMembers db b.id ∧ c.status = "active")).map HasKey.key).Nodup :=
    ((hperm.map HasKey.key).nodup_iff).mpr db.clients.nodup
  refine ⟨{ db with clients := ⟨_, hnodup⟩ }, ⟨rfl, .refl _, .refl _, .refl _, hperm, .refl _⟩, ?_⟩
  have hall : cs.filter (fun c => decide (c.id ∈ groupMembers db b.id ∧ c.status = "active")) = cs := by
    refine List.filter_eq_self.mpr fun c hc => ?_
    exact (List.mem_filter.mp (h.mem_iff.mp hc)).2
  change (cs ++ db.clients.rows.filter _).filter _ = cs
  rw [List.filter_append, List.filter_filter]
  have hnone : (db.clients.rows.filter fun c =>
      decide (c.id ∈ groupMembers db b.id ∧ c.status = "active") &&
        !decide (c.id ∈ groupMembers db b.id ∧ c.status = "active")) = [] := by
    refine List.filter_eq_nil_iff.mpr fun c _ => ?_
    simp only [Bool.and_not_self, Bool.false_eq_true, not_false_eq_true]
  refine (congrArg₂ (· ++ ·) hall hnone).trans (List.append_nil cs)

/-- What was built for a binding with clients. -/
theorem exists_built {inbound : Json} {config : ProtocolConfig} {protocol : ProtocolType}
    (hconfig : db.protocolConfigs.find b.protocolConfigId = some config)
    (hprotocol : ProtocolType.fromStr? config.protocolType = some protocol)
    (h : Reordered db d) (hinbound : inboundFor d nodeId core b = some inbound) :
    ∃ tls, buildInbound core protocol (withListen config
      (injected d b protocol.toStr (mergedSettings config b))) tls = .ok inbound := by
  obtain ⟨config', protocol', tls, hconfig', -, hprotocol', -, hbuild⟩ := inboundFor_eq_some hinbound
  rw [h.protocolConfigs] at hconfig'
  cases hconfig.symm.trans hconfig'
  cases hprotocol.symm.trans hprotocol'
  rw [← ProtocolType.toStr_of_fromStr? hprotocol] at hbuild
  exact ⟨tls, hbuild⟩

/-- **Clients** of an inbound that is the same in every order. -/
theorem clientsSettled_of_same {inbound : Json}
    (hsame : ∀ d, Reordered db d → inboundFor d nodeId core b = some inbound) :
    ClientsSettled db core b := by
  refine or_iff_not_imp_left.mpr fun hlength config hconfig => ?_
  refine or_iff_not_imp_left.mpr fun hobject => ?_
  have hobject : (mergedSettings config b).isObject = true := Bool.eq_true_of_not_eq_false hobject
  obtain ⟨config', protocol, -, hconfig', -, hprotocol, -⟩ := inboundFor_eq_some (hsame db (.refl db))
  cases hconfig.symm.trans hconfig'
  have hmembers : ∀ {d}, Reordered db d → groupMembers d b.id ≠ [] := by
    intro d hd hnone
    rw [hd.groupMembers_eq_nil] at hnone
    refine hlength ?_
    simp [authorizedClients, hnone, Table.filter]
  have hids : ((authorizedClients db b.id).map (·.id.toStr)).Nodup := by
    have hnodup := (nodup_authorizedClients db b.id).map Uuid.toStr_injective
    rwa [List.map_map] at hnodup
  have hbuilt := fun d hd => exists_built hconfig hprotocol hd (hsame d hd)
  have hmap : core = .mihomo ∧ protocol.isVless = false := by
    by_contra harray
    have hcredentials : ∀ d, Reordered db d →
        credentials inbound = (authorizedClients d b.id).map (·.id.toStr) := by
      intro d hd
      obtain ⟨tls, hbuild⟩ := hbuilt d hd
      rw [credentials_buildInbound hbuild, builtCredentials_withListen,
        builtCredentials_injected harray (hmembers hd) hobject]
    obtain ⟨d, hd, hclients⟩ := exists_reordered_clients (b := b)
      (List.reverse_perm (authorizedClients db b.id))
    have hreverse := (hcredentials d hd).symm.trans (hcredentials db (.refl db))
    rw [hclients, List.map_reverse] at hreverse
    have hone := Table.length_le_one_of_reverse hids hreverse
    rw [List.length_map] at hone
    exact hlength hone
  obtain ⟨rfl, hvless⟩ := hmap
  have husers : ∀ d, Reordered db d → inbound.get "users" = some (obj (Mihomo.userMap
      ((authorizedClients d b.id).map fun c => (clientName c, c.id.toStr)))) := by
    intro d hd
    obtain ⟨tls, hbuild⟩ := hbuilt d hd
    rw [Mihomo.get_users_buildInbound hvless hbuild, Mihomo.passwordUsers_eq_userMap
      (getArr_clients_injected hobject (hmembers hd)), filterMap_namedPassword_entries hvless]
  have hperm : ∀ named', named'.Perm ((authorizedClients db b.id).map fun c =>
      (clientName c, c.id.toStr)) → Mihomo.userMap named' = Mihomo.userMap
        ((authorizedClients db b.id).map fun c => (clientName c, c.id.toStr)) := by
    intro named' hnamed
    obtain ⟨cs, rfl, hcs⟩ : Relation.Comp (· = List.map (fun c => (clientName c, c.id.toStr)) ·)
        List.Perm named' (authorizedClients db b.id) := by
      rw [List.eq_map_comp_perm]
      exact hnamed
    obtain ⟨d, hd, hclients⟩ := exists_reordered_clients (b := b) hcs
    have hsame := (husers d hd).symm.trans (husers db (.refl db))
    rw [hclients] at hsame
    injection hsame with hsame
    injection hsame
  obtain ⟨hne, hnodup⟩ := Mihomo.names_of_forall_perm (by rwa [List.map_map])
    (by rw [List.length_map]; omega) hperm
  refine ⟨rfl, ?_, fun c hc => hne _ (List.mem_map_of_mem hc), by rwa [List.map_map] at hnodup⟩
  rw [← ProtocolType.toStr_of_fromStr? hprotocol]
  cases protocol with
  | vlessReality => cases hvless
  | vlessXhttp => cases hvless
  | hysteria2 => exact .head _
  | anytls => exact .tail _ (.head _)

/-! ### The rules of a node -/

/-- The rules in reverse. -/
def reversedRules (db : Db) : Db :=
  { db with relayRules :=
      ⟨db.relayRules.rows.reverse, (List.map_reverse ..).symm ▸ List.nodup_reverse.mpr db.relayRules.nodup⟩ }

theorem reordered_reversedRules (db : Db) : Reordered db (reversedRules db) :=
  ⟨rfl, .refl _, .refl _, .refl _, .refl _, List.reverse_perm _⟩

theorem length_rules_le_one (hapart : RowsApart db nodeId) {out : Json × Option String}
    (hout : ∀ d, Reordered db d → (generateNodeConfig env.toGenEnv nodeId core).exec d = .ok out) :
    (appliedRules db nodeId).length ≤ 1 := by
  have htags : ∀ {d rules}, Reordered db d → rules.Perm (enabledRules db nodeId) →
      enabledRules d nodeId = rules → (outbounds core out.1).filterMap (outboundTag core) =
        baseTags core ++ (rules.filter fun rule => (relayHop db rule).isSome).map relayTag := by
    intro d rules hd hperm hrules
    obtain ⟨ibs, config, -, hbuilt, happlied, -⟩ := generateNodeConfig_ok (hout d hd)
    rw [applyRelayRules, exec_read_bind] at happlied
    change (loop (applyRelayRule core) config (enabledRules d nodeId)).exec d = .ok out.1 at happlied
    rw [(respects_loop (respects_applyRelayRule core) _ _).exec_eq (hd.sameFinds (.refl db)),
      hrules] at happlied
    refine (relayed_of_loop hbuilt happlied rfl ?_).1
    refine (List.filter_sublist.map _).nodup ?_
    exact ((hperm.map _).nodup_iff).mpr hapart.rules
  have hforward := htags (.refl db) (.refl _) rfl
  have hbackward := htags (reordered_reversedRules db) (List.reverse_perm _)
    (List.filter_reverse : enabledRules (reversedRules db) nodeId = (enabledRules db nodeId).reverse)
  rw [hforward] at hbackward
  have hreverse := List.append_cancel_left hbackward
  rw [List.filter_reverse, List.map_reverse] at hreverse
  have hnodup : ((appliedRules db nodeId).map relayTag).Nodup := by
    have hshort : ((appliedRules db nodeId).map (·.id.short)).Nodup :=
      (List.filter_sublist.map _).nodup hapart.rules
    refine List.pairwise_map.mpr ((List.pairwise_map.mp hshort).imp fun hne heq => hne ?_)
    have hlist := congrArg String.toList heq
    rw [relayTag, relayTag, String.toList_append, String.toList_append] at hlist
    exact String.toList_inj.mp (List.append_cancel_left hlist)
  have hone := Table.length_le_one_of_reverse hnodup hreverse.symm
  rwa [List.length_map] at hone

/-! ### The result -/

/-- **Without an order** at most one row of a kind comes into the configuration. -/
theorem settled_of_orderInvariant (hschema : SchemaPasses env.toGenEnv db nodeId)
    (hapart : RowsApart db nodeId) (hinvariant : OrderInvariant env db nodeId core)
    (hready : AllReady db nodeId core) : Settled db nodeId core := by
  obtain ⟨out, hout⟩ := exists_generated hschema hinvariant hready
  have hone : ∀ {α : Type} {l : List α}, l.length ≤ 1 → ∀ a ∈ l, ∀ a' ∈ l, a = a' := by
    intro α l hlength a ha a' ha'
    match l, hlength with
    | [x], _ => rw [List.mem_singleton.mp ha, List.mem_singleton.mp ha']
  have hinbounds := hone (length_inbounds_le_one hapart hout)
  have hexists : ∀ d, Reordered db d → ∀ b ∈ activeBindings db nodeId, Emitted db core b →
      ∃ inbound, inboundFor d nodeId core b = some inbound := by
    intro d hd b hb hemitted
    refine exists_inboundFor (mem_activeBindings.mp hb).2.1 (hd.readyFor.mpr (hready.1 b hb)) ?_
    simpa only [Emitted, Certified, hd.protocolConfigs, hd.certificates] using hemitted
  constructor
  · intro b hb b' hb' hemitted hemitted'
    obtain ⟨inbound, hinbound⟩ := hexists db (.refl db) b hb hemitted
    obtain ⟨inbound', hinbound'⟩ := hexists db (.refl db) b' hb' hemitted'
    have hsame := hinbounds inbound (List.mem_filterMap.mpr ⟨b, hb, hinbound⟩) inbound'
      (List.mem_filterMap.mpr ⟨b', hb', hinbound'⟩)
    subst hsame
    exact binding_of_inbound hapart hb hb' hinbound hinbound'
  · intro b hb hemitted
    obtain ⟨inbound, hinbound⟩ := hexists db (.refl db) b hb hemitted
    refine @clientsSettled_of_same db nodeId core b inbound fun d hd => ?_
    obtain ⟨inbound', hinbound'⟩ := hexists d hd b hb hemitted
    rw [hinbound']
    refine congrArg some (hinbounds inbound' ?_ inbound (List.mem_filterMap.mpr ⟨b, hb, hinbound⟩))
    rw [← emitted_generateNodeConfig (hout db (.refl db)), emitted_generateNodeConfig (hout d hd)]
    exact List.mem_filterMap.mpr ⟨b, (hd.activeBindings nodeId).mem_iff.mpr hb, hinbound'⟩
  · intro rule hrule rule' hrule' happlied happlied'
    exact hone (length_rules_le_one hapart hout) rule
      (List.mem_filter.mpr ⟨hrule, isSome_relayHop.mpr happlied⟩) rule'
      (List.mem_filter.mpr ⟨hrule', isSome_relayHop.mpr happlied'⟩)

/-- **Row order** does not matter exactly where a generation fails anyway, or at most one
binding, one client of its inbound and one relay rule come into the configuration; clients may
be more in a user map, under names of their own. -/
theorem orderInvariant_iff_settled (env : HubEnv) (db : Db) (nodeId : Uuid) (core : CoreType) :
    ((AllReady db nodeId core → Settled db nodeId core) → OrderInvariant env db nodeId core) ∧
      (SchemaPasses env.toGenEnv db nodeId → RowsApart db nodeId →
        OrderInvariant env db nodeId core →
        AllReady db nodeId core → Settled db nodeId core) :=
  ⟨orderInvariant_of_settled, settled_of_orderInvariant⟩

end Apart

/-! ### Two rules -/

namespace SwappedRules

/-- The rule that comes first is to be the second. -/
def db : Db :=
  { TwoRelays.db with
    relayRules := ⟨[{ TwoRelays.inlineRule with sortOrder := 1 }, TwoRelays.libraryRule],
      by decide⟩ }

/-- The outbounds of the rules, as they are generated. -/
def tags (d : Db) : Option (List String) :=
  ((generateNodeConfig MihomoPush.env.toGenEnv TwoRelays.entry.id .mihomo).exec d).toOption.map
    fun out => (outbounds .mihomo out.1).filterMap (outboundTag .mihomo)

theorem tags_db : tags db = some ["relay-00000005", "relay-00000006"] := by decide

theorem tags_reversed : tags (reversedRules db) = some ["relay-00000006", "relay-00000005"] := by
  decide

end SwappedRules

theorem swapped_rules_swap_outbounds : ¬ ∀ (env : HubEnv) (db : Db) (nodeId : Uuid) (core : CoreType),
    OrderInvariant env db nodeId core := by
  intro h
  have hinvariant := h MihomoPush.env SwappedRules.db TwoRelays.entry.id .mihomo
  have hsame := hinvariant.config _ _ (yields_exec _ (Reordered.refl SwappedRules.db))
    (yields_exec _ (reordered_reversedRules SwappedRules.db))
  have htags : SwappedRules.tags SwappedRules.db = SwappedRules.tags (reversedRules SwappedRules.db) :=
    congrArg (Option.map fun out : Json × Option String =>
      (outbounds .mihomo out.1).filterMap (outboundTag .mihomo)) hsame
  rw [SwappedRules.tags_db, SwappedRules.tags_reversed] at htags
  exact absurd htags (by decide)

theorem orderInvariant_iff_settled_preset :
    OrderInvariant MihomoPush.env PresetUser.db PresetUser.node .mihomo ∧
      Settled PresetUser.db PresetUser.node .mihomo := by
  have hactive : activeBindings PresetUser.db PresetUser.node = [PresetUser.binding] := by
    simp [activeBindings, PresetUser.db, PresetUser.binding, Table.filter]
  have hrules : enabledRules PresetUser.db PresetUser.node = [] := rfl
  have hsettled : Settled PresetUser.db PresetUser.node .mihomo := by
    refine ⟨fun b hb b' hb' _ _ => ?_, fun b _ _ => .inl ?_, fun rule hrule => ?_⟩
    · rw [hactive] at hb hb'
      rw [List.mem_singleton.mp hb, List.mem_singleton.mp hb']
    · exact Nat.zero_le 1
    · rw [hrules] at hrule
      cases hrule
  have hall := orderInvariant_iff_settled MihomoPush.env PresetUser.db PresetUser.node .mihomo
  have hinvariant := hall.1 fun _ => hsettled
  have hapart : RowsApart PresetUser.db PresetUser.node := by
    refine ⟨fun b hb b' hb' _ => ?_, fun b hb config hconfig => ?_, ?_⟩
    · rw [hactive] at hb hb'
      rw [List.mem_singleton.mp hb, List.mem_singleton.mp hb']
    · have hmem : config ∈ PresetUser.db.protocolConfigs.rows := Table.mem_of_find hconfig
      cases List.mem_singleton.mp hmem
      rfl
    · rw [hrules]
      exact List.nodup_nil
  have hschema : SchemaPasses MihomoPush.env.toGenEnv PresetUser.db PresetUser.node :=
    fun _ _ => rfl
  obtain ⟨out, hout⟩ := PresetUser.exists_generated
  exact ⟨hinvariant, hall.2 hschema hapart hinvariant ((generates_iff hschema).mp ⟨out, hout⟩)⟩

end ProxyPanel.Hub
