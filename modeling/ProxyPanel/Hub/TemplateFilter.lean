import ProxyPanel.Hub.GroupAccess

/-!
# The filter of a template

The rules of a template name protocols and node groups.  `build_proxy_nodes` resolves the
names of the groups to identifiers and takes an empty set of either for no restriction, so
that rules with names of which none resolves let everything through.
`filterSound_iff` says when the listed bindings are those that satisfy the rules.
-/

namespace ProxyPanel.Hub

open Json Query
open GroupAccess (allowedGroups listed exec_buildProxyNodes_filtered)

/-! ### What the rules say -/

/-- The rules do not have the key, or have an empty array. -/
def unrestricted (filterRules : Option Json) (key : String) : Bool :=
  match filterRules.bind (·.get key) with
  | none => true
  | some (.arr []) => true
  | some _ => false

/-- The name of the protocol of a binding. -/
def protocolName (db : Db) (binding : NodeBinding) : Option String :=
  (db.protocolConfigs.find binding.protocolConfigId).bind fun cfg =>
    (ProtocolType.fromStr? cfg.protocolType).map (·.toStr)

/-- A binding satisfies the rules: each key restricts nothing or names the protocol, or a
group that exists and has the binding. -/
def permitted (db : Db) (filterRules : Option Json) (binding : NodeBinding) : Bool :=
  (unrestricted filterRules "protocols" ||
    (protocolName db binding).any (· ∈ filterNames filterRules "protocols")) &&
  (unrestricted filterRules "node_groups" ||
    db.nodeGroups.rows.any fun group => group.name ∈ filterNames filterRules "node_groups" ∧
      group.id ∈ bindingGroupIds db binding.id)

/-- **The filter is sound**: with rules those bindings are listed that are listed without
them and satisfy them. -/
def FilterSound (substitute : Substitution) (db : Db) (client : Client)
    (filterRules : Option Json) : Prop :=
  (buildProxyNodes substitute client none).exec db =
      .ok ((db.nodeBindings.filter (·.isActive)).filterMap (listedNode substitute db client)) ∧
    (buildProxyNodes substitute client filterRules).exec db =
      .ok (((db.nodeBindings.filter (·.isActive)).filter (permitted db filterRules)).filterMap
        (listedNode substitute db client))

/-! ### What the code makes of them -/

/-- The test of the code: an empty set restricts nothing. -/
def passes (db : Db) (filterRules : Option Json) (binding : NodeBinding) : Bool :=
  ((filterNames filterRules "protocols").isEmpty ||
    (protocolName db binding).any (· ∈ filterNames filterRules "protocols")) &&
  ((allowedGroups db filterRules).isEmpty ||
    (bindingGroupIds db binding.id).any (· ∈ allowedGroups db filterRules))

/-- A key that is there and not empty resolves to the empty set. -/
def FailsOpen (db : Db) (filterRules : Option Json) : Prop :=
  (unrestricted filterRules "protocols" = false ∧ filterNames filterRules "protocols" = []) ∨
    (unrestricted filterRules "node_groups" = false ∧ allowedGroups db filterRules = [])

theorem filterNames_of_unrestricted {filterRules : Option Json} {key : String}
    (h : unrestricted filterRules key = true) : filterNames filterRules key = [] := by
  unfold unrestricted at h
  cases filterRules with
  | none => rfl
  | some rules =>
    rw [Option.bind_some] at h
    rw [filterNames, Option.bind_some, getArr]
    split at h
    · rename_i hnone
      rw [hnone]
      rfl
    · rename_i hempty
      rw [hempty]
      rfl
    · cases h

theorem any_allowedGroups {db : Db} {filterRules : Option Json} {binding : NodeBinding} :
    (bindingGroupIds db binding.id).any (· ∈ allowedGroups db filterRules) =
      db.nodeGroups.rows.any fun group => group.name ∈ filterNames filterRules "node_groups" ∧
        group.id ∈ bindingGroupIds db binding.id := by
  rw [Bool.eq_iff_iff, List.any_eq_true, List.any_eq_true, allowedGroups]
  simp only [decide_eq_true_eq]
  constructor
  · rintro ⟨g, hg, hallowed⟩
    split at hallowed
    · cases hallowed
    · obtain ⟨group, hgroup, rfl⟩ := List.mem_map.mp hallowed
      obtain ⟨hrow, hname⟩ := Table.mem_filter.mp hgroup
      exact ⟨group, hrow, of_decide_eq_true hname, hg⟩
  · rintro ⟨group, hrow, hname, hg⟩
    refine ⟨group.id, hg, ?_⟩
    rw [if_neg (List.ne_nil_of_mem hname)]
    exact List.mem_map.mpr ⟨group, Table.mem_filter.mpr ⟨hrow, decide_eq_true hname⟩, rfl⟩

/-- What satisfies the rules passes. -/
theorem passes_of_permitted {db : Db} {filterRules : Option Json} {binding : NodeBinding}
    (h : permitted db filterRules binding = true) : passes db filterRules binding = true := by
  rw [permitted, Bool.and_eq_true, Bool.or_eq_true, Bool.or_eq_true] at h
  rw [passes, Bool.and_eq_true, Bool.or_eq_true, Bool.or_eq_true, any_allowedGroups]
  obtain ⟨hprotocol, hgroups⟩ := h
  refine ⟨hprotocol.imp_left fun hfree => ?_, hgroups.imp_left fun hfree => ?_⟩
  · rw [filterNames_of_unrestricted hfree]
    rfl
  · rw [allowedGroups, filterNames_of_unrestricted hfree]
    rfl

/-- What passes satisfies the rules unless they fail open; then nothing does. -/
theorem permitted_iff_of_passes {db : Db} {filterRules : Option Json} {binding : NodeBinding}
    (h : passes db filterRules binding = true) :
    permitted db filterRules binding = true ↔ ¬FailsOpen db filterRules := by
  rw [passes, Bool.and_eq_true, Bool.or_eq_true, Bool.or_eq_true, any_allowedGroups,
    List.isEmpty_iff, List.isEmpty_iff] at h
  rw [permitted, Bool.and_eq_true, Bool.or_eq_true, Bool.or_eq_true]
  obtain ⟨hprotocol, hgroups⟩ := h
  constructor
  · rintro ⟨hp, hg⟩ (⟨hrestricts, hnil⟩ | ⟨hrestricts, hnil⟩)
    · rw [hrestricts, hnil] at hp
      rcases hp with hp | hp
      · cases hp
      · cases hname : protocolName db binding <;> rw [hname] at hp <;> simp at hp
    · rw [hrestricts, ← any_allowedGroups, hnil] at hg
      simp at hg
  · intro hopen
    rw [FailsOpen, not_or, not_and, not_and] at hopen
    refine ⟨?_, ?_⟩
    · by_cases hfree : unrestricted filterRules "protocols" = true
      · exact Or.inl hfree
      · exact Or.inr (hprotocol.resolve_left (hopen.1 ((Bool.not_eq_true _).mp hfree)))
    · by_cases hfree : unrestricted filterRules "node_groups" = true
      · exact Or.inl hfree
      · exact Or.inr (hgroups.resolve_left (hopen.2 ((Bool.not_eq_true _).mp hfree)))

/-- The two sets only keep nodes from being listed. -/
theorem exec_proxyNode_restricted (substitute : Substitution) (db : Db) (client : Client)
    (groupIds : List Uuid) (protocols : List String) (groups : List Uuid)
    (binding : NodeBinding) :
    (proxyNode substitute client groupIds protocols groups binding).exec db =
      if (protocols.isEmpty || (protocolName db binding).any (· ∈ protocols)) &&
          (groups.isEmpty || (bindingGroupIds db binding.id).any (· ∈ groups)) then
        (proxyNode substitute client groupIds [] [] binding).exec db
      else .ok none := by
  simp only [proxyNode, exec_read_bind, protocolName]
  cases hcfg : db.protocolConfigs.find binding.protocolConfigId with
  | none => exact (ite_self _).symm
  | some cfg =>
    cases hnode : db.nodes.find binding.nodeId with
    | none => exact (ite_self _).symm
    | some node =>
      simp only [Option.bind_some]
      cases hprotocol : ProtocolType.fromStr? cfg.protocolType with
      | none => exact (ite_self _).symm
      | some protocol =>
        simp only [Option.map_some, Option.any_some]
        have hfree : ¬(([] : List String) ≠ [] ∧ protocol.toStr ∉ ([] : List String)) :=
          fun h => h.1 rfl
        rw [if_neg hfree]
        by_cases hp : protocols ≠ [] ∧ protocol.toStr ∉ protocols
        · have hfails : (protocols.isEmpty || decide (protocol.toStr ∈ protocols)) = false := by
            rw [Bool.or_eq_false_iff, decide_eq_false_iff_not]
            exact ⟨List.isEmpty_eq_false_iff.mpr hp.1, hp.2⟩
          rw [if_pos hp, hfails, Bool.false_and, if_neg Bool.false_ne_true]
          rfl
        · have hpasses : (protocols.isEmpty || decide (protocol.toStr ∈ protocols)) = true := by
            rw [Bool.or_eq_true, decide_eq_true_eq, List.isEmpty_iff]
            exact or_iff_not_imp_left.mpr fun hne => not_not.mp fun hmem => hp ⟨hne, hmem⟩
          rw [if_neg hp, hpasses, Bool.true_and, exec_read_bind, exec_read_bind]
          by_cases hclient : groupIds = []
          · rw [if_pos hclient, if_pos hclient]
            exact (ite_self _).symm
          rw [if_neg hclient, if_neg hclient]
          split
          · exact (ite_self _).symm
          have hnil : ∀ p : Prop, ¬(([] : List Uuid) ≠ [] ∧ p) := fun _ h => h.1 rfl
          rw [if_neg (hnil _)]
          change (if groups ≠ [] ∧ ¬(bindingGroupIds db binding.id).any (· ∈ groups) = true
            then _ else _ : Program (Option ProxyNode)).exec db = _
          by_cases hgroups : groups ≠ [] ∧ ¬(bindingGroupIds db binding.id).any (· ∈ groups) = true
          · have hfails : (groups.isEmpty ||
                (bindingGroupIds db binding.id).any (· ∈ groups)) = false := by
              rw [Bool.or_eq_false_iff]
              exact ⟨List.isEmpty_eq_false_iff.mpr hgroups.1, (Bool.not_eq_true _).mp hgroups.2⟩
            rw [if_pos hgroups, hfails, if_neg Bool.false_ne_true]
            rfl
          · have hpasses : (groups.isEmpty ||
                (bindingGroupIds db binding.id).any (· ∈ groups)) = true := by
              rw [Bool.or_eq_true, List.isEmpty_iff]
              exact or_iff_not_imp_left.mpr fun hne => not_not.mp fun hany => hgroups ⟨hne, hany⟩
            rw [if_neg hgroups, hpasses, if_pos rfl]

/-- A node that is listed without rules is listed with them if its binding passes. -/
theorem listed_eq (substitute : Substitution) (db : Db) (client : Client)
    (filterRules : Option Json) (binding : NodeBinding) :
    listed substitute db client filterRules binding =
      if passes db filterRules binding = true then listedNode substitute db client binding
      else none := by
  rw [listed, listedNode]
  by_cases hdenied : client.status = "limited" ∨ client.status = "expired"
  · rw [if_pos hdenied, if_pos hdenied, ite_self]
  rw [if_neg hdenied, if_neg hdenied, exec_proxyNode_restricted, ← passes]
  by_cases hpasses : passes db filterRules binding = true
  · rw [if_pos hpasses]
    exact (if_pos hpasses).symm
  · rw [if_neg hpasses]
    exact (if_neg hpasses).symm

/-! ### Soundness -/

/-- Two filters of which one keeps what the other does keep the same images if they agree on
what has one. -/
theorem filterMap_filter_eq_iff {α β : Type} {p q : α → Bool} (himp : ∀ a, p a = true → q a = true)
    (f : α → Option β) (l : List α) :
    (l.filter q).filterMap f = (l.filter p).filterMap f ↔
      ∀ a ∈ l, q a = true → (f a).isSome = true → p a = true := by
  induction l with
  | nil => exact iff_of_true rfl nofun
  | cons a l ih =>
    rw [List.forall_mem_cons, ← ih]
    by_cases hq : q a = true
    · rw [List.filter_cons_of_pos hq]
      by_cases hp : p a = true
      · rw [List.filter_cons_of_pos hp, List.filterMap_cons, List.filterMap_cons]
        cases f a with
        | none => exact ⟨fun h => ⟨fun _ _ => hp, h⟩, fun h => h.2⟩
        | some b => exact ⟨fun h => ⟨fun _ _ => hp, List.tail_eq_of_cons_eq h⟩,
            fun h => congrArg (b :: ·) h.2⟩
      · rw [List.filter_cons_of_neg hp, List.filterMap_cons]
        cases hf : f a with
        | none => exact ⟨fun h => ⟨fun _ hsome => (nomatch hsome), h⟩, fun h => h.2⟩
        | some b =>
          -- the longer list has one more image
          have hle := ((List.monotone_filter_right l himp).filterMap f).length_le
          refine iff_of_false (fun h => ?_) (fun h => hp (h.1 hq rfl))
          have hlength := congrArg List.length h
          rw [List.length_cons] at hlength
          omega
    · have hp : ¬p a = true := fun h => hq (himp a h)
      rw [List.filter_cons_of_neg hq, List.filter_cons_of_neg hp]
      exact ⟨fun h => ⟨fun h' => absurd h' hq, h⟩, fun h => h.2⟩

theorem filterMap_ite {α β : Type} (q : α → Bool) (f : α → Option β) (l : List α) :
    (l.filterMap fun a => if q a = true then f a else none) = (l.filter q).filterMap f := by
  rw [List.filterMap_filter]

theorem listable_iff {db : Db} {client : Client} {filterRules : Option Json}
    {binding : NodeBinding} : Listable db client (filterNames filterRules "protocols")
      (allowedGroups db filterRules) binding ↔
    Listable db client [] [] binding ∧ passes db filterRules binding = true := by
  have hprotocol : protocolName db binding = ((db.protocolConfigs.find
      binding.protocolConfigId).bind fun cfg =>
        (ProtocolType.fromStr? cfg.protocolType).map (·.toStr)) := rfl
  rw [passes, Bool.and_eq_true, Bool.or_eq_true, Bool.or_eq_true, List.isEmpty_iff,
    List.isEmpty_iff, Listable, Listable]
  constructor
  · rintro ⟨⟨cfg, protocol, hcfg, hp, hnames⟩, hnode, hshares, hgroups⟩
    refine ⟨⟨⟨cfg, protocol, hcfg, hp, Or.inl rfl⟩, hnode, hshares, Or.inl rfl⟩, ?_, ?_⟩
    · rw [hprotocol, hcfg, Option.bind_some, hp, Option.map_some, Option.any_some,
        decide_eq_true_eq]
      exact hnames
    · rw [List.any_eq_true]
      simp only [decide_eq_true_eq]
      exact hgroups
  · rintro ⟨⟨⟨cfg, protocol, hcfg, hp, -⟩, hnode, hshares, -⟩, hnames, hgroups⟩
    rw [hprotocol, hcfg, Option.bind_some, hp, Option.map_some, Option.any_some,
      decide_eq_true_eq] at hnames
    rw [List.any_eq_true] at hgroups
    simp only [decide_eq_true_eq] at hgroups
    exact ⟨⟨cfg, protocol, hcfg, hp, hnames⟩, hnode, hshares, hgroups⟩

/-- **When a filter is sound**: unless its names resolve to nothing, and then only if no
binding that the client may use passes what is left of the rules. -/
theorem filterSound_iff (substitute : Substitution) (db : Db) (client : Client)
    (filterRules : Option Json) :
    FilterSound substitute db client filterRules ↔ (FailsOpen db filterRules →
      client.status = "limited" ∨ client.status = "expired" ∨
        ∀ binding ∈ db.nodeBindings.filter (·.isActive),
          ¬Listable db client (filterNames filterRules "protocols")
            (allowedGroups db filterRules) binding) := by
  have hlist : (db.nodeBindings.filter (·.isActive)).filterMap
      (listed substitute db client filterRules) =
      ((db.nodeBindings.filter (·.isActive)).filter (passes db filterRules)).filterMap
        (listedNode substitute db client) := by
    rw [← filterMap_ite]
    exact congrArg (List.filterMap · _) (funext fun b => listed_eq substitute db client _ b)
  rw [FilterSound, and_iff_right (exec_buildProxyNodes substitute db client),
    exec_buildProxyNodes_filtered, Except.ok.injEq, hlist,
    filterMap_filter_eq_iff fun _ => passes_of_permitted]
  constructor
  · intro h hopen
    by_cases hlimited : client.status = "limited"
    · exact Or.inl hlimited
    by_cases hexpired : client.status = "expired"
    · exact Or.inr (Or.inl hexpired)
    refine Or.inr (Or.inr fun binding hbinding hlistable => ?_)
    obtain ⟨hfree, hpasses⟩ := listable_iff.mp hlistable
    have hsome := (isSome_listedNode substitute db client binding).mpr
      ⟨not_or.mpr ⟨hlimited, hexpired⟩, hfree⟩
    exact (permitted_iff_of_passes hpasses).mp (h binding hbinding hpasses hsome) hopen
  · intro h binding hbinding hpasses hsome
    obtain ⟨hdenied, hfree⟩ := (isSome_listedNode substitute db client binding).mp hsome
    refine (permitted_iff_of_passes hpasses).mpr fun hopen => ?_
    rcases h hopen with hlimited | hexpired | hnone
    · exact hdenied (Or.inl hlimited)
    · exact hdenied (Or.inr hexpired)
    · exact hnone binding hbinding (listable_iff.mpr ⟨hfree, hpasses⟩)

namespace UnknownGroup

/-- Rules that name one group, which does not exist. -/
def rules : Json := .obj [("node_groups", .arr [.str "premium"])]

def client : Client := { OnHold.client with status := "active" }

/-- The binding is listed though nothing satisfies the rules. -/
theorem listed_unfiltered : FailsOpen OnHold.db (some rules) ∧
    (GroupAccess.listed OnHold.substitute OnHold.db client (some rules)
      PresetUser.binding).isSome = true ∧
    permitted OnHold.db (some rules) PresetUser.binding = false ∧
    ¬FilterSound OnHold.substitute OnHold.db client (some rules) := by
  refine ⟨Or.inr (by decide), by decide, by decide, fun h => ?_⟩
  have hone : ((buildProxyNodes OnHold.substitute client (some rules)).exec OnHold.db).map
      (·.length) = .ok 1 := by decide
  have hnone : (OnHold.db.nodeBindings.filter (·.isActive)).filter
      (permitted OnHold.db (some rules)) = [] := by decide
  rw [h.2, hnone] at hone
  cases hone

end UnknownGroup

end ProxyPanel.Hub
