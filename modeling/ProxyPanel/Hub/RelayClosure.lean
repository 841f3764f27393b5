import ProxyPanel.Hub.ConfigGen

/-!
# What relay rules add to a configuration

A configuration is read as its outbounds, its routing entries and its declared rule
sets.  `Routed` says that a configuration is the one of `build_full_config` with some
outbounds, entries and rule sets added; applying a rule adds those of the rule
(`routed_addRelay`), and the rest is read off the lists.
-/

namespace ProxyPanel.Hub

open Json Query

/-! ### Reading a configuration -/

/-- The outbounds of sing-box, the proxies of mihomo. -/
def outbounds (core : CoreType) (config : Json) : List Json :=
  match core with
  | .singBox => (config.getArr "outbounds").getD []
  | .mihomo => (config.getArr "proxies").getD []

def outboundTag (core : CoreType) (outbound : Json) : Option String :=
  match core with
  | .singBox => outbound.getStr "tag"
  | .mihomo => outbound.getStr "name"

def routeRules (core : CoreType) (config : Json) : List Json :=
  match core with
  | .singBox => ((config.get "route").bind (·.getArr "rules")).getD []
  | .mihomo => (config.getArr "rules").getD []

/-- The outbound a routing entry refers to; in mihomo the trimmed text after the last comma. -/
def ruleTarget (core : CoreType) (rule : Json) : Option String :=
  match core with
  | .singBox => rule.getStr "outbound"
  | .mihomo => (rule.asStr.bind (Text.rsplitOnce ',')).map fun p => Text.trim p.2

/-- The rule sets a routing entry refers to. -/
def ruleSetRefs (core : CoreType) (rule : Json) : List String :=
  match core with
  | .singBox => ((rule.getArr "rule_set").getD []).filterMap asStr
  | .mihomo =>
    match (rule.asStr.map (Text.split ',')).getD [] with
    | kind :: name :: _ => if kind = "RULE-SET" then [Text.trim name] else []
    | _ => []

/-- The tags of the rule sets that are declared. -/
def declaredSets (core : CoreType) (config : Json) : List String :=
  match core with
  | .singBox =>
    (((config.get "route").bind (·.getArr "rule_set")).getD []).filterMap (·.getStr "tag")
  | .mihomo => (((config.get "rule-providers").bind asObject).getD []).map Prod.fst

/-- A final rule of mihomo. -/
def isMatch (rule : Json) : Bool :=
  match rule.asStr with
  | some s => Text.startsWith s "MATCH"
  | none => false

/-! ### What a rule contributes -/

def relayTag (rule : RelayRule) : String := "relay-" ++ rule.id.short
def ruleSetTag (rule : RelayRule) : String := "rs-" ++ rule.id.short

/-- The entries of a specification: the domains first, then the suffixes. -/
def specEntries (tag rsTag : String) : CoreType → MatchSpec → List Json
  | .singBox, .inline domains suffixes =>
    let r := mkObj [("outbound", str tag)]
    let r := if domains = [] then r else r.setIndex "domain" (Builder.strs domains)
    [if suffixes = [] then r else r.setIndex "domain_suffix" (Builder.strs suffixes)]
  | .singBox, .ruleSet _ _ => [mkObj [("rule_set", Builder.strs [rsTag]), ("outbound", str tag)]]
  | .mihomo, .inline domains suffixes =>
    domains.map (fun d => str ("DOMAIN," ++ d ++ ", " ++ tag)) ++
      suffixes.map (fun s => str ("DOMAIN-SUFFIX," ++ s ++ ", " ++ tag))
  | .mihomo, .ruleSet _ _ => [str ("RULE-SET," ++ rsTag ++ ", " ++ tag)]

/-- The routing entries of a rule. -/
def ruleEntries (core : CoreType) (rule : RelayRule) : List Json :=
  match matchSpec rule core with
  | some spec => specEntries (relayTag rule) (ruleSetTag rule) core spec
  | none => []

/-- The rule sets a rule declares. -/
def ruleSets (core : CoreType) (rule : RelayRule) : List String :=
  match matchSpec rule core with
  | some (.ruleSet _ _) => [ruleSetTag rule]
  | _ => []

/-- The hop of a rule, `none` when the rule is skipped. -/
def relayHop (db : Db) (rule : RelayRule) : Option RelayHop := do
  let binding ← db.nodeBindings.find rule.exitBindingId
  let exitCfg ← db.protocolConfigs.find binding.protocolConfigId
  let exitNode ← db.nodes.find binding.nodeId
  let protocol ← ProtocolType.fromStr? exitCfg.protocolType
  return {
    tag := relayTag rule
    protocol
    settings := exitCfg.settings
    server := exitNode.domain.getD exitNode.address
    port := (exitCfg.listenPort % 65536).toNat
    credential := rule.relayClientId.toStr
    tlsSni := ((resolveRelaySni binding).exec db).toOption.join }

/-- The rules of a node that are applied, in the order of the database. -/
def appliedRules (db : Db) (nodeId : Uuid) : List RelayRule :=
  (db.relayRules.filter fun r => r.nodeId = nodeId ∧ r.enabled).filter fun r =>
    (relayHop db r).isSome

theorem resolveRelaySni_ok (db : Db) (binding : NodeBinding) :
    ∃ sni, (resolveRelaySni binding).exec db = .ok sni := by
  rw [resolveRelaySni]
  split
  · exact ⟨_, rfl⟩
  · simp only
    split
    · exact ⟨_, rfl⟩
    · simp only [exec_read_bind]
      split
      · exact ⟨_, rfl⟩
      · exact ⟨_, rfl⟩

/-- A rule is skipped, or its outbound is built and added with its entries. -/
theorem exec_applyRelayRule (core : CoreType) (config : Json) (rule : RelayRule) (db : Db) :
    (applyRelayRule core config rule).exec db =
      match relayHop db rule with
      | none => .ok config
      | some hop => (hop.build core).map (addRelay core config (relayTag rule) (ruleSetTag rule) rule) := by
  simp only [applyRelayRule, exec_read_bind]
  cases hbinding : db.nodeBindings.find rule.exitBindingId with
  | none => simp only [relayHop, hbinding]; rfl
  | some binding =>
    simp only [exec_read_bind]
    cases hconfig : db.protocolConfigs.find binding.protocolConfigId with
    | none => simp only [relayHop, hbinding, Option.bind_eq_bind, Option.bind_some, hconfig]; rfl
    | some exitCfg =>
      simp only [exec_read_bind]
      cases hnode : db.nodes.find binding.nodeId with
      | none =>
        simp only [relayHop, hbinding, Option.bind_eq_bind, Option.bind_some, hconfig, hnode]; rfl
      | some exitNode =>
        simp only [relayHop, hbinding, Option.bind_eq_bind, Option.bind_some, hconfig, hnode]
        cases hprotocol : ProtocolType.fromStr? exitCfg.protocolType with
        | none => rfl
        | some protocol =>
          simp only [Option.bind_some]
          obtain ⟨sni, hsni⟩ := resolveRelaySni_ok db binding
          have hjoin : ((resolveRelaySni binding).exec db).toOption.join = sni := by
            rw [hsni]
            rfl
          rw [exec_bind, hjoin, hsni]
          change (lift _ >>= _).exec db = Except.map _ (RelayHop.build core _)
          rw [exec_bind, exec_lift, relayTag, ruleSetTag]
          cases RelayHop.build core _ <;> rfl

theorem getStr_setNonEmpty (j : Json) {k k' : String} (h : k' ≠ k) (s : String) :
    (RelayHop.setNonEmpty j k s).getStr k' = j.getStr k' := by
  rw [RelayHop.setNonEmpty]
  split
  · rfl
  · rw [getStr, get_setIndex_of_ne _ h, getStr]

theorem tag_buildSingboxOutbound {hop : RelayHop} {outbound : Json}
    (h : hop.buildSingboxOutbound = .ok outbound) : outbound.getStr "tag" = some hop.tag := by
  unfold RelayHop.buildSingboxOutbound at h
  split at h
  · obtain ⟨keys, _, h⟩ := Except.bind_eq_ok (show _ >>= _ = _ from h)
    cases h
    rw [getStr_setNonEmpty _ (by decide), getStr, get_mkObj]
    rfl
  · obtain ⟨sni, _, h⟩ := Except.bind_eq_ok (show _ >>= _ = _ from h)
    cases h
    split
    · rw [getStr, get_setIndex_of_ne _ (by decide), get_mkObj]
      rfl
    · rw [getStr, get_mkObj]
      rfl
  · obtain ⟨sni, _, h⟩ := Except.bind_eq_ok (show _ >>= _ = _ from h)
    cases h
    rw [getStr, get_mkObj]
    rfl
  · cases h

theorem tag_buildMihomoProxy {hop : RelayHop} {outbound : Json}
    (h : hop.buildMihomoProxy = .ok outbound) : outbound.getStr "name" = some hop.tag := by
  unfold RelayHop.buildMihomoProxy at h
  split at h
  · obtain ⟨keys, _, h⟩ := Except.bind_eq_ok (show _ >>= _ = _ from h)
    cases h
    rw [getStr_setNonEmpty _ (by decide), getStr, get_mkObj]
    rfl
  · obtain ⟨sni, _, h⟩ := Except.bind_eq_ok (show _ >>= _ = _ from h)
    cases h
    split
    · rw [getStr, get_setIndex_of_ne _ (by decide), get_setIndex_of_ne _ (by decide), get_mkObj]
      rfl
    · rw [getStr, get_mkObj]
      rfl
  · obtain ⟨sni, _, h⟩ := Except.bind_eq_ok (show _ >>= _ = _ from h)
    cases h
    rw [getStr, get_mkObj]
    rfl
  · cases h

/-- An outbound that is built carries the tag of its hop. -/
theorem tag_build {core : CoreType} {hop : RelayHop} {outbound : Json}
    (h : hop.build core = .ok outbound) : outboundTag core outbound = some hop.tag := by
  cases core with
  | singBox => exact tag_buildSingboxOutbound h
  | mihomo => exact tag_buildMihomoProxy h

/-! ### Adding to the lists -/

/-- What relay rules added: outbounds, routing entries and rule sets. -/
structure Routing where
  outbounds : List Json
  rules : List Json
  sets : List String

/-- The routing after an applied rule. -/
def Routing.add (r : Routing) (core : CoreType) (rule : RelayRule) (outbound : Json) : Routing where
  outbounds := r.outbounds ++ [outbound]
  rules := r.rules ++ ruleEntries core rule
  sets := r.sets ++ ruleSets core rule

def baseOutbounds : List Json :=
  [mkObj [("type", str "direct"), ("tag", str "direct")],
    mkObj [("type", str "block"), ("tag", str "block")]]

def baseRule : Json := mkObj [("protocol", str "bittorrent"), ("outbound", str "block")]

def finalRule : Json := str "MATCH,DIRECT"

/-- A base configuration with this routing added. -/
def Routed (core : CoreType) (config : Json) (r : Routing) : Prop :=
  match core with
  | .singBox => config.isObject = true ∧ config.getArr "outbounds" = some (baseOutbounds ++ r.outbounds) ∧
      ∃ route, config.get "route" = some route ∧ route.isObject = true ∧
        route.getArr "rules" = some (baseRule :: r.rules) ∧
        ((route.getArr "rule_set").getD []).filterMap (·.getStr "tag") = r.sets
  | .mihomo => config.isObject = true ∧ (config.getArr "proxies").getD [] = r.outbounds ∧
      config.getArr "rules" = some (r.rules ++ [finalRule]) ∧
      (∀ rule ∈ r.rules, isMatch rule = false) ∧ (declaredSets .mihomo config).Perm r.sets

theorem routed_buildFullConfig {env : Env} {core : CoreType} {ibs : List InboundConfig} {config : Json}
    (h : buildFullConfig env core ibs = .ok config) : Routed core config ⟨[], [], []⟩ := by
  cases core with
  | singBox =>
    obtain ⟨values, _, h⟩ := Except.bind_eq_ok (show _ >>= _ = _ from h)
    cases h
    split
    · refine ⟨rfl, ?_, SingBox.buildRoute, ?_, rfl, rfl, rfl⟩
      · rw [getArr, get_setIndex_of_ne _ (by decide), get_setIndex_of_ne _ (by decide), get_mkObj]
        rfl
      · rw [get_setIndex_of_ne _ (by decide), get_setIndex_of_ne _ (by decide), get_mkObj]
        rfl
    · refine ⟨rfl, ?_, SingBox.buildRoute, ?_, rfl, rfl, rfl⟩
      · rw [getArr, get_setIndex_of_ne _ (by decide), get_mkObj]
        rfl
      · rw [get_setIndex_of_ne _ (by decide), get_mkObj]
        rfl
  | mihomo =>
    refine ⟨?_, ?_, ?_, fun rule hrule => absurd hrule List.not_mem_nil, ?_⟩
    · obtain ⟨values, _, h⟩ := Except.bind_eq_ok (show _ >>= _ = _ from h)
      cases h
      split <;> rfl
    · rw [getArr, Mihomo.get_buildFullConfig h (by decide), get_mkObj]
      rfl
    · rw [getArr, Mihomo.get_buildFullConfig h (by decide), get_mkObj]
      rfl
    · rw [declaredSets, Mihomo.get_buildFullConfig h (by decide), get_mkObj]
      exact .refl _

/-! ### The entries of a rule -/

/-- A mihomo entry of a rule has one of three forms. -/
theorem mem_specEntries_mihomo {tag rsTag : String} {spec : MatchSpec} {entry : Json}
    (h : entry ∈ specEntries tag rsTag .mihomo spec) :
    ∃ kind value, entry = str (kind ++ "," ++ value ++ ", " ++ tag) ∧
      (kind = "DOMAIN" ∨ kind = "DOMAIN-SUFFIX" ∨
        kind = "RULE-SET" ∧ value = rsTag ∧ ∃ url extra, spec = .ruleSet url extra) := by
  cases spec with
  | inline domains suffixes =>
    rcases List.mem_append.mp h with h | h
    · obtain ⟨d, -, rfl⟩ := List.mem_map.mp h
      exact ⟨"DOMAIN", d, rfl, .inl rfl⟩
    · obtain ⟨s, -, rfl⟩ := List.mem_map.mp h
      exact ⟨"DOMAIN-SUFFIX", s, rfl, .inr (.inl rfl)⟩
  | ruleSet url extra =>
    cases List.mem_singleton.mp h
    exact ⟨"RULE-SET", rsTag, rfl, .inr (.inr ⟨rfl, rfl, url, extra, rfl⟩)⟩

theorem isMatch_of_mem_specEntries {tag rsTag : String} {spec : MatchSpec} {entry : Json}
    (h : entry ∈ specEntries tag rsTag .mihomo spec) : isMatch entry = false := by
  obtain ⟨kind, value, rfl, hkind⟩ := mem_specEntries_mihomo h
  rw [isMatch, asStr]
  simp only
  rw [Text.startsWith, String.toList_append, String.toList_append, String.toList_append,
    String.toList_append]
  rcases hkind with rfl | rfl | ⟨rfl, _⟩ <;> rfl

theorem target_mihomo {tag : String} (htag : ∀ c ∈ tag.toList, Text.isWhite c = false ∧ c ≠ ',')
    (kind value : String) :
    ruleTarget .mihomo (str (kind ++ "," ++ value ++ ", " ++ tag)) = some tag := by
  have hlist : (kind ++ "," ++ value ++ ", " ++ tag).toList =
      (kind ++ "," ++ value).toList ++ ',' :: (" " ++ tag).toList := by
    simp [String.toList_append]
  have hcomma : ',' ∉ (" " ++ tag).toList := by
    intro h
    rw [String.toList_append, List.mem_append] at h
    rcases h with h | h
    · exact absurd h (by decide)
    · exact (htag _ h).2 rfl
  rw [ruleTarget, asStr]
  simp only [Option.bind_some, Text.rsplitOnce_of_toList hlist hcomma, Option.map_some,
    String.ofList_toList]
  rw [Text.trim_blank_append fun c hc => (htag c hc).1]

theorem refs_mihomo {tag rsTag : String}
    (hrs : ∀ c ∈ rsTag.toList, Text.isWhite c = false ∧ c ≠ ',') {spec : MatchSpec} {entry : Json}
    (h : entry ∈ specEntries tag rsTag .mihomo spec) {name : String}
    (hname : name ∈ ruleSetRefs .mihomo entry) :
    name = rsTag ∧ ∃ url extra, spec = .ruleSet url extra := by
  obtain ⟨kind, value, rfl, hkind⟩ := mem_specEntries_mihomo h
  have hlist : (kind ++ "," ++ value ++ ", " ++ tag).toList =
      kind.toList ++ ',' :: (value ++ ", " ++ tag).toList := by
    simp [String.toList_append]
  have hfirst : ',' ∉ kind.toList := by
    rcases hkind with rfl | rfl | ⟨rfl, -⟩ <;> decide
  have hlist' : (String.ofList (value ++ ", " ++ tag).toList).toList =
      value.toList ++ ',' :: (" " ++ tag).toList := by
    simp [String.toList_append]
  simp only [ruleSetRefs, asStr, Option.map_some, Option.getD_some, Text.split_of_toList hlist hfirst,
    String.ofList_toList] at hname
  rcases hkind with rfl | rfl | ⟨rfl, rfl, hspec⟩
  · split at hname
    · rw [if_neg (by simp_all)] at hname
      cases hname
    · cases hname
  · split at hname
    · rw [if_neg (by simp_all)] at hname
      cases hname
    · cases hname
  · rw [← String.ofList_toList (s := value ++ ", " ++ tag),
      Text.split_of_toList hlist' (fun hc => (hrs _ hc).2 rfl)] at hname
    simp only [if_pos, List.mem_singleton, String.ofList_toList,
      Text.trim_of_no_white fun c hc => (hrs c hc).1] at hname
    exact ⟨hname, hspec⟩

theorem target_singBox {tag rsTag : String} {spec : MatchSpec} {entry : Json}
    (h : entry ∈ specEntries tag rsTag .singBox spec) : ruleTarget .singBox entry = some tag := by
  cases spec with
  | inline domains suffixes =>
    cases List.mem_singleton.mp h
    have hdomain : (mkObj [("outbound", str tag)]).getStr "outbound" = some tag := rfl
    have hset : ∀ (j : Json) {k : String}, "outbound" ≠ k → ∀ v,
        (j.setIndex k v).getStr "outbound" = j.getStr "outbound" := by
      intro j k hk v
      rw [getStr, get_setIndex_of_ne _ hk, getStr]
    rw [ruleTarget]
    split
    · split
      · exact hdomain
      · rw [hset _ (by decide), hdomain]
    · split
      · rw [hset _ (by decide), hdomain]
      · rw [hset _ (by decide), hset _ (by decide), hdomain]
  | ruleSet url extra =>
    cases List.mem_singleton.mp h
    rw [ruleTarget, getStr, get_mkObj]
    rfl

theorem refs_singBox {tag rsTag : String} {spec : MatchSpec} {entry : Json}
    (h : entry ∈ specEntries tag rsTag .singBox spec) {name : String}
    (hname : name ∈ ruleSetRefs .singBox entry) :
    name = rsTag ∧ ∃ url extra, spec = .ruleSet url extra := by
  cases spec with
  | inline domains suffixes =>
    cases List.mem_singleton.mp h
    have hnone : (mkObj [("outbound", str tag)]).getArr "rule_set" = none := rfl
    have hset : ∀ (j : Json) {k : String}, "rule_set" ≠ k → ∀ v,
        (j.setIndex k v).getArr "rule_set" = j.getArr "rule_set" := by
      intro j k hk v
      rw [getArr, get_setIndex_of_ne _ hk, getArr]
    exfalso
    rw [ruleSetRefs] at hname
    split at hname
    · split at hname
      · rw [hnone] at hname
        cases hname
      · rw [hset _ (by decide), hnone] at hname
        cases hname
    · split at hname
      · rw [hset _ (by decide), hnone] at hname
        cases hname
      · rw [hset _ (by decide), hset _ (by decide), hnone] at hname
        cases hname
  | ruleSet url extra =>
    cases List.mem_singleton.mp h
    rw [ruleSetRefs, getArr, get_mkObj] at hname
    exact ⟨List.mem_singleton.mp hname, url, extra, rfl⟩

theorem plain_short {u : Uuid} {c : Char} (h : c ∈ u.short.toList) :
    Text.isWhite c = false ∧ c ≠ ',' := by
  rcases Uuid.mem_short h with rfl | ⟨d, rfl⟩
  · decide
  · clear h
    revert d
    decide

theorem plain_of_all {s : String}
    (h : s.toList.all (fun c => !Text.isWhite c && decide (c ≠ ',')) = true) {c : Char}
    (hc : c ∈ s.toList) : Text.isWhite c = false ∧ c ≠ ',' := by
  have hplain := List.all_eq_true.mp h c hc
  rw [Bool.and_eq_true, Bool.not_eq_true', decide_eq_true_eq] at hplain
  exact hplain

/-- A tag of a rule has neither white space nor commas. -/
theorem plain_relayTag (rule : RelayRule) :
    ∀ c ∈ (relayTag rule).toList, Text.isWhite c = false ∧ c ≠ ',' := by
  intro c hc
  rw [relayTag, String.toList_append, List.mem_append] at hc
  rcases hc with hc | hc
  · exact plain_of_all (by decide) hc
  · exact plain_short hc

theorem plain_ruleSetTag (rule : RelayRule) :
    ∀ c ∈ (ruleSetTag rule).toList, Text.isWhite c = false ∧ c ≠ ',' := by
  intro c hc
  rw [ruleSetTag, String.toList_append, List.mem_append] at hc
  rcases hc with hc | hc
  · exact plain_of_all (by decide) hc
  · exact plain_short hc

/-- **Every entry of a rule refers to the outbound of the rule.** -/
theorem target_ruleEntries {core : CoreType} {rule : RelayRule} {entry : Json}
    (h : entry ∈ ruleEntries core rule) : ruleTarget core entry = some (relayTag rule) := by
  unfold ruleEntries at h
  split at h
  · cases core with
    | singBox => exact target_singBox h
    | mihomo =>
      obtain ⟨kind, value, rfl, _⟩ := mem_specEntries_mihomo h
      exact target_mihomo (plain_relayTag rule) kind value
  · cases h

/-- An entry refers to a rule set only if its rule declares it. -/
theorem refs_ruleEntries {core : CoreType} {rule : RelayRule} {entry : Json}
    (h : entry ∈ ruleEntries core rule) {name : String} (hname : name ∈ ruleSetRefs core entry) :
    name ∈ ruleSets core rule := by
  unfold ruleEntries at h
  split at h
  next spec hspec =>
    have hrefs : name = ruleSetTag rule ∧ ∃ url extra, spec = .ruleSet url extra := by
      cases core with
      | singBox => exact refs_singBox h hname
      | mihomo => exact refs_mihomo (plain_ruleSetTag rule) h hname
    obtain ⟨rfl, url, extra, rfl⟩ := hrefs
    rw [ruleSets, hspec]
    exact List.mem_singleton_self _
  · cases h

theorem isMatch_of_mem_ruleEntries {rule : RelayRule} {entry : Json}
    (h : entry ∈ ruleEntries .mihomo rule) : isMatch entry = false := by
  unfold ruleEntries at h
  split at h
  · exact isMatch_of_mem_specEntries h
  · cases h

/-! ### Adding a rule -/

theorem getArr_ensureArr {j : Json} (h : j.isObject = true) (k : String) :
    (ensureArr j k).isObject = true ∧ (ensureArr j k).getArr k = some ((j.getArr k).getD []) := by
  rw [ensureArr]
  split
  next harr =>
    refine ⟨h, ?_⟩
    cases hk : j.get k with
    | none =>
      rw [hk] at harr
      cases harr
    | some v =>
      rw [hk] at harr
      cases v with
      | arr xs =>
        rw [getArr, hk]
        rfl
      | _ => cases harr
  next harr =>
    refine ⟨isObject_setIndex h k _, ?_⟩
    rw [getArr_eq_some_iff.mpr (get_setIndex_self h k _)]
    cases hk : j.getArr k with
    | none => rfl
    | some xs =>
      rw [getArr_eq_some_iff.mp hk] at harr
      exact absurd rfl harr

/-- An entry is inserted in front of the final rule. -/
theorem insertRule_routed {config : Json} {rules : List Json} (h : config.isObject = true)
    (hrules : config.getArr "rules" = some (rules ++ [finalRule]))
    (hmatch : ∀ rule ∈ rules, isMatch rule = false) (entry : String) :
    (insertRule config entry).isObject = true ∧
      (insertRule config entry).getArr "rules" = some (rules ++ [str entry] ++ [finalRule]) := by
  refine ⟨isObject_modify h _ _, getArr_modify h hrules ?_⟩
  have hpos : (rules ++ [finalRule]).findIdx isMatch = rules.length := by
    rw [List.findIdx_append, List.findIdx_eq_length_of_false hmatch, if_neg (Nat.lt_irrefl _)]
    exact Nat.zero_add _
  change arr ((rules ++ [finalRule]).take ((rules ++ [finalRule]).findIdx isMatch) ++
    str entry :: (rules ++ [finalRule]).drop ((rules ++ [finalRule]).findIdx isMatch)) = _
  rw [hpos, List.take_left, List.drop_left, List.append_assoc]
  rfl

theorem foldl_insertRule_routed (entry : String → String) (hentry : ∀ d, isMatch (str (entry d)) = false)
    (ds : List String) {config : Json} {rules : List Json} (h : config.isObject = true)
    (hrules : config.getArr "rules" = some (rules ++ [finalRule]))
    (hmatch : ∀ rule ∈ rules, isMatch rule = false) :
    (ds.foldl (fun c d => insertRule c (entry d)) config).isObject = true ∧
      (ds.foldl (fun c d => insertRule c (entry d)) config).getArr "rules" =
        some (rules ++ ds.map (fun d => str (entry d)) ++ [finalRule]) := by
  induction ds generalizing config rules with
  | nil =>
    rw [List.map_nil, List.append_nil]
    exact ⟨h, hrules⟩
  | cons d ds ih =>
    obtain ⟨hobject, hinserted⟩ := insertRule_routed h hrules hmatch (entry d)
    have hmatch' : ∀ rule ∈ rules ++ [str (entry d)], isMatch rule = false := by
      intro rule hrule
      rcases List.mem_append.mp hrule with hrule | hrule
      · exact hmatch rule hrule
      · cases List.mem_singleton.mp hrule
        exact hentry d
    obtain ⟨hobject', hrest⟩ := ih hobject hinserted hmatch'
    refine ⟨hobject', ?_⟩
    rw [List.foldl_cons, hrest, List.map_cons, List.append_assoc rules]
    rfl

/-- The providers are an object, made if there was none. -/
theorem get_ensureObj_providers {config : Json} (h : config.isObject = true) :
    (ensureObj config "rule-providers").isObject = true ∧
      ∃ es, (ensureObj config "rule-providers").get "rule-providers" = some (obj es) ∧
        es.map Prod.fst = declaredSets .mihomo config := by
  rw [ensureObj]
  split
  next hobj =>
    cases hk : config.get "rule-providers" with
    | none =>
      rw [hk] at hobj
      cases hobj
    | some v =>
      rw [hk] at hobj
      cases v with
      | obj es =>
        refine ⟨h, es, rfl, ?_⟩
        rw [declaredSets, hk]
        rfl
      | _ => cases hobj
  next hobj =>
    refine ⟨isObject_setIndex h _ _, [], get_setIndex_self h _ _, ?_⟩
    cases hk : config.get "rule-providers" with
    | none =>
      rw [declaredSets, hk]
      rfl
    | some v =>
      rw [declaredSets, hk]
      rw [hk] at hobj
      cases v with
      | obj es => exact absurd rfl hobj
      | _ => rfl

/-- The declared rule sets after a new provider. -/
theorem declaredSets_provider {config : Json} (h : config.isObject = true) {name : String}
    (hfresh : name ∉ declaredSets .mihomo config) (provider : Json) :
    ((ensureObj config "rule-providers").modify "rule-providers"
      (·.setIndex name provider)).isObject = true ∧
    (declaredSets .mihomo ((ensureObj config "rule-providers").modify "rule-providers"
      (·.setIndex name provider))).Perm (name :: declaredSets .mihomo config) := by
  obtain ⟨hobject, es, hget, hkeys⟩ := get_ensureObj_providers h
  refine ⟨isObject_modify hobject _ _, ?_⟩
  rw [← hkeys] at hfresh
  rw [declaredSets, get_modify_self hobject, hget, ← hkeys]
  exact keys_insertEntry hfresh

theorem declaredSets_congr (config : Json) {config' : Json}
    (h : config'.get "rule-providers" = config.get "rule-providers") :
    declaredSets .mihomo config' = declaredSets .mihomo config := by
  rw [declaredSets, h, declaredSets]

theorem isMatch_of_append {rules : List Json} (hmatch : ∀ rule ∈ rules, isMatch rule = false)
    {rule : RelayRule} {entry : Json} (h : entry ∈ rules ++ ruleEntries .mihomo rule) :
    isMatch entry = false := by
  rcases List.mem_append.mp h with h | h
  · exact hmatch entry h
  · exact isMatch_of_mem_ruleEntries h

theorem routed_proxy {config : Json} {r : Routing} (h : Routed .mihomo config r) (proxy : Json) :
    Routed .mihomo ((ensureArr config "proxies").modify "proxies" (·.push proxy))
      ⟨r.outbounds ++ [proxy], r.rules, r.sets⟩ := by
  obtain ⟨hobject, hproxies, hrules, hmatch, hsets⟩ := h
  obtain ⟨hensured, harr⟩ := getArr_ensureArr hobject "proxies"
  refine ⟨isObject_modify hensured _ _, ?_, ?_, hmatch, ?_⟩
  · rw [getArr_modify_push hensured harr, hproxies]
    rfl
  · rw [getArr, get_modify_of_ne _ (by decide), get_ensureArr_of_ne _ (by decide), ← getArr, hrules]
  · rw [declaredSets_congr config
      (by rw [get_modify_of_ne _ (by decide), get_ensureArr_of_ne _ (by decide)])]
    exact hsets

theorem isMatch_line {kind : String} (hkind : kind = "DOMAIN," ∨ kind = "DOMAIN-SUFFIX,")
    (d tag : String) : isMatch (str (kind ++ d ++ ", " ++ tag)) = false := by
  rw [isMatch, asStr]
  simp only
  rw [Text.startsWith, String.toList_append, String.toList_append, String.toList_append]
  rcases hkind with rfl | rfl <;> rfl

/-- **The entries of a rule are inserted in front of the final rule.** -/
theorem rules_applyMihomoRelayRule {config : Json} {rules : List Json} (rule : RelayRule)
    (h : config.isObject = true) (hrules : config.getArr "rules" = some (rules ++ [finalRule]))
    (hmatch : ∀ rule ∈ rules, isMatch rule = false) :
    (applyMihomoRelayRule config (relayTag rule) (ruleSetTag rule) rule).isObject = true ∧
      (applyMihomoRelayRule config (relayTag rule) (ruleSetTag rule) rule).getArr "rules" =
        some (rules ++ ruleEntries .mihomo rule ++ [finalRule]) := by
  unfold applyMihomoRelayRule
  cases hspec : matchSpec rule .mihomo with
  | none =>
    have hentries : ruleEntries .mihomo rule = [] := by rw [ruleEntries, hspec]
    rw [hentries, List.append_nil]
    exact ⟨h, hrules⟩
  | some spec =>
    have hentries : ruleEntries .mihomo rule =
        specEntries (relayTag rule) (ruleSetTag rule) .mihomo spec := by rw [ruleEntries, hspec]
    have hmatch' : ∀ entry ∈ rules ++ ruleEntries .mihomo rule, isMatch entry = false :=
      fun entry h => isMatch_of_append hmatch h
    cases spec with
    | inline domains suffixes =>
      obtain ⟨hobject', hdomains⟩ := foldl_insertRule_routed
        (fun d => "DOMAIN," ++ d ++ ", " ++ relayTag rule)
        (fun d => isMatch_line (.inl rfl) d _) domains h hrules hmatch
      have hmatchDomains : ∀ entry ∈ rules ++
          domains.map (fun d => str ("DOMAIN," ++ d ++ ", " ++ relayTag rule)),
          isMatch entry = false := by
        intro entry hentry
        refine hmatch' entry ?_
        rw [hentries]
        exact (List.append_assoc _ _ _) ▸ List.mem_append_left _ hentry
      obtain ⟨hobject'', hsuffixes⟩ := foldl_insertRule_routed
        (fun s => "DOMAIN-SUFFIX," ++ s ++ ", " ++ relayTag rule)
        (fun s => isMatch_line (.inr rfl) s _) suffixes hobject' hdomains hmatchDomains
      refine ⟨hobject'', ?_⟩
      rw [hsuffixes, hentries, List.append_assoc rules]
      rfl
    | ruleSet url extra =>
      have hrules' : ∀ provider, ((ensureObj config "rule-providers").modify "rule-providers"
          (·.setIndex (ruleSetTag rule) provider)).getArr "rules" =
          some (rules ++ [finalRule]) := by
        intro provider
        rw [getArr, get_modify_of_ne _ (by decide), get_ensureObj_of_ne _ (by decide), ← getArr,
          hrules]
      have hensured : (ensureObj config "rule-providers").isObject = true := by
        rw [ensureObj]
        split
        · exact h
        · exact isObject_setIndex h _ _
      rw [hentries]
      exact insertRule_routed (isObject_modify hensured _ _) (hrules' _) hmatch
        ("RULE-SET," ++ ruleSetTag rule ++ ", " ++ relayTag rule)

theorem routed_applyMihomoRelayRule {config : Json} {r : Routing} {rule : RelayRule}
    (h : Routed .mihomo config r) (hfresh : ruleSetTag rule ∉ r.sets) :
    Routed .mihomo (applyMihomoRelayRule config (relayTag rule) (ruleSetTag rule) rule)
      ⟨r.outbounds, r.rules ++ ruleEntries .mihomo rule, r.sets ++ ruleSets .mihomo rule⟩ := by
  obtain ⟨hobject, hproxies, hrules, hmatch, hsets⟩ := h
  obtain ⟨hobject', hinserted⟩ := rules_applyMihomoRelayRule rule hobject hrules hmatch
  refine ⟨hobject', ?_, hinserted, fun entry h => isMatch_of_append hmatch h, ?_⟩
  · have hkeeps : (applyMihomoRelayRule config (relayTag rule) (ruleSetTag rule) rule).getArr
        "proxies" = config.getArr "proxies" := by
      unfold applyMihomoRelayRule
      split
      · simp only
        rw [getArr,
          get_foldl_insertRule (fun s => "DOMAIN-SUFFIX," ++ s ++ ", " ++ relayTag rule) _ _
          (by decide), get_foldl_insertRule (fun d => "DOMAIN," ++ d ++ ", " ++ relayTag rule) _ _
          (by decide), getArr]
      · simp only
        rw [insertRule, getArr, get_modify_of_ne _ (by decide), get_modify_of_ne _ (by decide),
          get_ensureObj_of_ne _ (by decide), getArr]
      · rfl
    rw [hkeeps]
    exact hproxies
  · unfold applyMihomoRelayRule
    cases hspec : matchSpec rule .mihomo with
    | none =>
      have hdeclared : ruleSets .mihomo rule = [] := by rw [ruleSets, hspec]
      rw [hdeclared, List.append_nil]
      exact hsets
    | some spec =>
      cases spec with
      | inline domains suffixes =>
        have hdeclared : ruleSets .mihomo rule = [] := by rw [ruleSets, hspec]
        rw [hdeclared, List.append_nil, declaredSets_congr config
          (by rw [get_foldl_insertRule (fun s => "DOMAIN-SUFFIX," ++ s ++ ", " ++ relayTag rule) _ _
            (by decide), get_foldl_insertRule (fun d => "DOMAIN," ++ d ++ ", " ++ relayTag rule) _ _
            (by decide)])]
        exact hsets
      | ruleSet url extra =>
        have hdeclared : ruleSets .mihomo rule = [ruleSetTag rule] := by rw [ruleSets, hspec]
        obtain ⟨-, hkeys⟩ := declaredSets_provider hobject
          (fun hmem => hfresh (hsets.mem_iff.mp hmem)) (mkObj [("type", str "http"),
            ("behavior", str extra), ("format", str "yaml"), ("url", str url),
            ("path", str ("./ruleset/" ++ ruleSetTag rule ++ ".yaml"))])
        have hinsert : ∀ c entry,
            declaredSets .mihomo (insertRule c entry) = declaredSets .mihomo c :=
          fun c entry => declaredSets_congr c (by rw [insertRule, get_modify_of_ne _ (by decide)])
        rw [hdeclared, hinsert]
        exact hkeys.trans ((hsets.cons _).trans (List.perm_append_singleton _ _).symm)

theorem routed_outbound {config : Json} {r : Routing} (h : Routed .singBox config r)
    (outbound : Json) : Routed .singBox (config.modify "outbounds" (·.push outbound))
      ⟨r.outbounds ++ [outbound], r.rules, r.sets⟩ := by
  obtain ⟨hobject, houtbounds, route, hroute, hrest⟩ := h
  refine ⟨isObject_modify hobject _ _, ?_, route, ?_, hrest⟩
  · rw [getArr_modify_push hobject houtbounds, List.append_assoc]
  · rw [get_modify_of_ne _ (by decide), hroute]

theorem routed_applySingboxRelayRule {config : Json} {r : Routing} {rule : RelayRule}
    (h : Routed .singBox config r) :
    Routed .singBox (applySingboxRelayRule config (relayTag rule) (ruleSetTag rule) rule)
      ⟨r.outbounds, r.rules ++ ruleEntries .singBox rule, r.sets ++ ruleSets .singBox rule⟩ := by
  obtain ⟨hobject, houtbounds, route, hroute, hisObject, hrules, hsets⟩ := h
  -- A route that is changed stays under its key, and the outbounds are elsewhere.
  have hmodify : ∀ {f : Json → Json} {rules : List Json} {sets : List String},
      (f route).isObject = true → (f route).getArr "rules" = some (baseRule :: rules) →
      (((f route).getArr "rule_set").getD []).filterMap (·.getStr "tag") = sets →
      Routed .singBox (config.modify "route" f) ⟨r.outbounds, rules, sets⟩ := by
    intro f rules sets hf hfrules hfsets
    refine ⟨isObject_modify hobject _ _, ?_, f route, ?_, hf, hfrules, hfsets⟩
    · rw [getArr, get_modify_of_ne _ (by decide), ← getArr, houtbounds]
    · rw [get_modify_self hobject, hroute]
      rfl
  unfold applySingboxRelayRule
  cases hspec : matchSpec rule .singBox with
  | none =>
    have hentries : ruleEntries .singBox rule = [] := by rw [ruleEntries, hspec]
    have hdeclared : ruleSets .singBox rule = [] := by rw [ruleSets, hspec]
    rw [hentries, hdeclared, List.append_nil, List.append_nil]
    exact ⟨hobject, houtbounds, route, hroute, hisObject, hrules, hsets⟩
  | some spec =>
    have hentries : ruleEntries .singBox rule =
        specEntries (relayTag rule) (ruleSetTag rule) .singBox spec := by rw [ruleEntries, hspec]
    cases spec with
    | inline domains suffixes =>
      have hdeclared : ruleSets .singBox rule = [] := by rw [ruleSets, hspec]
      rw [hentries, hdeclared, List.append_nil]
      refine hmodify (isObject_modify hisObject _ _) (getArr_modify_push hisObject hrules _) ?_
      rw [getArr, get_modify_of_ne _ (by decide)]
      exact hsets
    | ruleSet url extra =>
      have hdeclared : ruleSets .singBox rule = [ruleSetTag rule] := by rw [ruleSets, hspec]
      rw [hentries, hdeclared]
      obtain ⟨hensured, harr⟩ := getArr_ensureArr hisObject "rule_set"
      have hrules' : ∀ f, ((ensureArr route "rule_set").modify "rule_set" f).getArr "rules" =
          some (baseRule :: r.rules) := by
        intro f
        rw [getArr, get_modify_of_ne _ (by decide), get_ensureArr_of_ne _ (by decide), ← getArr,
          hrules]
      have hpushed := fun f => getArr_modify_push (isObject_modify hensured "rule_set" f) (hrules' f)
        (mkObj [("rule_set", Builder.strs [ruleSetTag rule]), ("outbound", str (relayTag rule))])
      have htag : (mkObj [("type", str "remote"), ("tag", str (ruleSetTag rule)),
          ("format", str extra), ("url", str url)]).getStr "tag" = some (ruleSetTag rule) := by
        rw [getStr, get_mkObj]
        rfl
      refine hmodify (isObject_modify (isObject_modify hensured _ _) _ _) (hpushed _) ?_
      rw [getArr, get_modify_of_ne _ (by decide), ← getArr, getArr_modify_push hensured harr,
        Option.getD_some, List.filterMap_append, hsets,
        List.filterMap_cons_some (f := fun x : Json => x.getStr "tag") htag,
        List.filterMap_nil]

/-- **An applied rule adds its outbound, its entries and its rule set.** -/
theorem routed_addRelay {core : CoreType} {config : Json} {r : Routing} {rule : RelayRule}
    (h : Routed core config r) (hfresh : ruleSetTag rule ∉ r.sets) (outbound : Json) :
    Routed core (addRelay core config (relayTag rule) (ruleSetTag rule) rule outbound)
      (r.add core rule outbound) := by
  cases core with
  | singBox => exact routed_applySingboxRelayRule (routed_outbound h outbound)
  | mihomo => exact routed_applyMihomoRelayRule (routed_proxy h outbound) hfresh

/-! ### Applying all rules -/

theorem ruleSetTag_inj {rule rule' : RelayRule} (h : ruleSetTag rule = ruleSetTag rule') :
    rule.id.short = rule'.id.short := by
  have hlist := congrArg String.toList h
  rw [ruleSetTag, ruleSetTag, String.toList_append, String.toList_append] at hlist
  exact String.toList_inj.mp (List.append_cancel_left hlist)

theorem mem_ruleSets {core : CoreType} {rule : RelayRule} {name : String}
    (h : name ∈ ruleSets core rule) : name = ruleSetTag rule := by
  unfold ruleSets at h
  split at h
  · exact List.mem_singleton.mp h
  · cases h

theorem flatMap_ruleSets_sublist (core : CoreType) (rules : List RelayRule) :
    (rules.flatMap (ruleSets core)).Sublist (rules.map ruleSetTag) := by
  induction rules with
  | nil => exact .slnil
  | cons rule rules ih =>
    rw [List.flatMap_cons, List.map_cons]
    unfold ruleSets
    split
    · exact ih.cons_cons _
    · exact ih.cons _

/-- The routing after a list of rules, as far as they are applied. -/
theorem routed_loop {core : CoreType} {db : Db} {rules : List RelayRule}
    (hdistinct : (rules.map (·.id.short)).Nodup) {config config' : Json} {r : Routing}
    (h : Routed core config r) (hfresh : ∀ rule ∈ rules, ruleSetTag rule ∉ r.sets)
    (hrun : (loop (applyRelayRule core) config rules).exec db = .ok config') :
    ∃ r', Routed core config' r' ∧
      r'.outbounds.filterMap (outboundTag core) = r.outbounds.filterMap (outboundTag core) ++
        (rules.filter fun rule => (relayHop db rule).isSome).map relayTag ∧
      r'.rules = r.rules ++
        (rules.filter fun rule => (relayHop db rule).isSome).flatMap (ruleEntries core) ∧
      r'.sets = r.sets ++
        (rules.filter fun rule => (relayHop db rule).isSome).flatMap (ruleSets core) ∧
      (∀ outbound ∈ r.outbounds, outbound ∈ r'.outbounds) ∧
      ∀ rule ∈ rules, ∀ hop, relayHop db rule = some hop →
        ∃ outbound ∈ r'.outbounds, hop.build core = .ok outbound := by
  induction rules generalizing config r with
  | nil =>
    cases hrun
    refine ⟨r, h, ?_, ?_, ?_, fun _ hmem => hmem, fun _ hrule => (nomatch hrule)⟩ <;> simp
  | cons rule rules ih =>
    rw [loop, exec_bind, exec_applyRelayRule] at hrun
    rw [List.map_cons, List.nodup_cons] at hdistinct
    cases hhop : relayHop db rule with
    | none =>
      simp only [hhop] at hrun
      obtain ⟨r', hr', hadded, hrules, hsets, hkept, hbuilt⟩ := ih hdistinct.2 h
        (fun x hx => hfresh x (List.mem_cons_of_mem rule hx)) hrun
      rw [List.filter_cons_of_neg (by rw [hhop]; exact Bool.false_ne_true)]
      refine ⟨r', hr', hadded, hrules, hsets, hkept, fun x hx hop hx' => ?_⟩
      rcases List.mem_cons.mp hx with rfl | hx
      · rw [hhop] at hx'
        cases hx'
      · exact hbuilt x hx hop hx'
    | some hop =>
      simp only [hhop] at hrun
      have htag : hop.tag = relayTag rule := by
        simp only [relayHop, Option.bind_eq_bind, Option.bind_eq_some_iff] at hhop
        obtain ⟨_, _, _, _, _, _, _, _, hhop⟩ := hhop
        cases hhop
        rfl
      cases hbuild : hop.build core with
      | error e =>
        rw [hbuild] at hrun
        cases hrun
      | ok outbound =>
        rw [hbuild] at hrun
        have hadded := routed_addRelay h (hfresh rule List.mem_cons_self) outbound
        have hfresh' : ∀ x ∈ rules, ruleSetTag x ∉ (r.add core rule outbound).sets := by
          intro x hx hmem
          rcases List.mem_append.mp hmem with hmem | hmem
          · exact hfresh x (List.mem_cons_of_mem rule hx) hmem
          · have hshort := ruleSetTag_inj (mem_ruleSets hmem)
            exact hdistinct.1 (List.mem_map.mpr ⟨x, hx, hshort⟩)
        obtain ⟨r', hr', houtbounds, hrules, hsets, hkept, hbuilt⟩ :=
          ih hdistinct.2 hadded hfresh' hrun
        rw [List.filter_cons_of_pos (by rw [hhop]; rfl)]
        refine ⟨r', hr', ?_, ?_, ?_, fun o ho => hkept o (List.mem_append_left _ ho),
          fun x hx hop' hx' => ?_⟩
        · rw [houtbounds, Routing.add, List.filterMap_append,
            List.filterMap_cons_some (tag_build hbuild), List.filterMap_nil, htag, List.map_cons,
            List.append_assoc]
          rfl
        · rw [hrules, Routing.add, List.flatMap_cons, List.append_assoc]
        · rw [hsets, Routing.add, List.flatMap_cons, List.append_assoc]
        · rcases List.mem_cons.mp hx with rfl | hx
          · rw [hhop] at hx'
            cases hx'
            exact ⟨outbound, hkept _ (List.mem_append_right _ (List.mem_singleton_self _)), hbuild⟩
          · exact hbuilt x hx hop' hx'

/-- The outbounds and the routing entries with those of the base. -/
def Routing.allOutbounds (r : Routing) : CoreType → List Json
  | .singBox => baseOutbounds ++ r.outbounds
  | .mihomo => r.outbounds

def Routing.allRules (r : Routing) : CoreType → List Json
  | .singBox => baseRule :: r.rules
  | .mihomo => r.rules ++ [finalRule]

theorem Routed.outbounds_eq {core : CoreType} {config : Json} {r : Routing}
    (h : Routed core config r) : outbounds core config = r.allOutbounds core := by
  cases core with
  | singBox =>
    obtain ⟨hobject, houtbounds, _⟩ := h
    rw [outbounds, houtbounds]
    rfl
  | mihomo =>
    obtain ⟨_, hproxies, _⟩ := h
    exact hproxies

theorem Routed.routeRules_eq {core : CoreType} {config : Json} {r : Routing}
    (h : Routed core config r) : routeRules core config = r.allRules core := by
  cases core with
  | singBox =>
    obtain ⟨_, _, route, hroute, _, hrules, _⟩ := h
    rw [routeRules, hroute, Option.bind_some, hrules]
    rfl
  | mihomo =>
    obtain ⟨_, _, hrules, _⟩ := h
    rw [routeRules, hrules]
    rfl

theorem Routed.declaredSets_perm {core : CoreType} {config : Json} {r : Routing}
    (h : Routed core config r) : (declaredSets core config).Perm r.sets := by
  cases core with
  | singBox =>
    obtain ⟨_, _, route, hroute, _, _, hsets⟩ := h
    rw [declaredSets, hroute, Option.bind_some, hsets]
  | mihomo =>
    obtain ⟨_, _, _, _, hsets⟩ := h
    exact hsets

/-- Every routing entry that refers to a rule set is one that was added. -/
theorem refs_base {core : CoreType} {r : Routing} {entry : Json} (h : entry ∈ r.allRules core)
    {name : String} (hname : name ∈ ruleSetRefs core entry) : entry ∈ r.rules := by
  cases core with
  | singBox =>
    rcases List.mem_cons.mp h with rfl | h
    · rw [ruleSetRefs, getArr, baseRule, get_mkObj] at hname
      cases hname
    · exact h
  | mihomo =>
    rcases List.mem_append.mp h with h | h
    · exact h
    · cases List.mem_singleton.mp h
      rw [show ruleSetRefs .mihomo finalRule = [] by decide] at hname
      cases hname

theorem mem_allOutbounds {core : CoreType} {r : Routing} {outbound : Json}
    (h : outbound ∈ r.outbounds) : outbound ∈ r.allOutbounds core := by
  cases core with
  | singBox => exact List.mem_append_right _ h
  | mihomo => exact h

/-- **An applied rule has its outbound in the configuration.** -/
theorem exists_mem_outbounds {env : Env} {core : CoreType} {ibs : List InboundConfig}
    {base config : Json} {nodeId : Uuid} {db : Db} (hbase : buildFullConfig env core ibs = .ok base)
    (hdistinct : ((db.relayRules.filter fun r => r.nodeId = nodeId ∧ r.enabled).map
      fun r => r.id.short).Nodup)
    (hrun : (applyRelayRules nodeId core base).exec db = .ok config) {rule : RelayRule}
    (hrule : rule ∈ db.relayRules.rows) (hnode : rule.nodeId = nodeId) (henabled : rule.enabled = true)
    {hop : RelayHop} (hhop : relayHop db rule = some hop) :
    ∃ outbound ∈ outbounds core config, hop.build core = .ok outbound := by
  rw [applyRelayRules, exec_bind, exec_read] at hrun
  obtain ⟨r, hrouted, -, -, -, -, hbuilt⟩ :=
    routed_loop hdistinct (routed_buildFullConfig hbase) (fun _ _ => List.not_mem_nil) hrun
  have hmem : rule ∈ db.relayRules.filter fun r => r.nodeId = nodeId ∧ r.enabled :=
    Table.mem_filter.mpr ⟨hrule, decide_eq_true ⟨hnode, henabled⟩⟩
  obtain ⟨outbound, houtbound, hbuild⟩ := hbuilt rule hmem hop hhop
  rw [hrouted.outbounds_eq]
  exact ⟨outbound, mem_allOutbounds houtbound, hbuild⟩

/-- The routing entries that relay rules add, in the order of the rules. -/
def addedEntries (core : CoreType) (db : Db) (nodeId : Uuid) : List Json :=
  (appliedRules db nodeId).flatMap (ruleEntries core)

/-- The routing entries after relay rules: sing-box has them at the end, mihomo before
the final rule. -/
def withEntries (entries base : List Json) : CoreType → List Json
  | .singBox => base ++ entries
  | .mihomo => entries ++ base

/-- **Relay rules close the configuration.**  Inbounds, outbounds and routing entries of the
base stay in their order; the entries of the relay rules stand in the order of the rules and
refer to outbounds that are there; every rule set that is referred to is declared once; and
the final rule of mihomo is the only one of its kind and the last. -/
theorem relay_closure {env : Env} {core : CoreType} {ibs : List InboundConfig}
    {base config : Json} {nodeId : Uuid} {db : Db}
    (hbase : buildFullConfig env core ibs = .ok base)
    (hdistinct : ((db.relayRules.filter fun r => r.nodeId = nodeId ∧ r.enabled).map
      fun r => r.id.short).Nodup)
    (hrun : (applyRelayRules nodeId core base).exec db = .ok config) :
    config.get (inboundsKey core) = base.get (inboundsKey core) ∧
      outbounds core base <+: outbounds core config ∧
      routeRules core config =
        withEntries (addedEntries core db nodeId) (routeRules core base) core ∧
      (∀ entry ∈ addedEntries core db nodeId, ∃ tag, ruleTarget core entry = some tag ∧
        ∃ outbound ∈ outbounds core config, outboundTag core outbound = some tag) ∧
      (∀ entry ∈ routeRules core config, ∀ name ∈ ruleSetRefs core entry,
        (declaredSets core config).count name = 1) ∧
      (core = .mihomo → ∃ rules final, routeRules core config = rules ++ [final] ∧
        isMatch final = true ∧ ∀ rule ∈ rules, isMatch rule = false) := by
  have hbaseRouted := routed_buildFullConfig hbase
  have hkeep := get_applyRelayRules (inboundsKey_not_mem_relayKeys core) hrun
  rw [applyRelayRules, exec_bind, exec_read] at hrun
  obtain ⟨r, hrouted, houtbounds, hrules, hsets, -, -⟩ :=
    routed_loop hdistinct hbaseRouted (fun _ _ => List.not_mem_nil) hrun
  simp only [List.filterMap_nil, List.nil_append] at houtbounds hrules hsets
  have hadded : r.rules = addedEntries core db nodeId := hrules
  refine ⟨hkeep, ?_, ?_, ?_, ?_, ?_⟩
  · rw [hbaseRouted.outbounds_eq, hrouted.outbounds_eq]
    cases core with
    | singBox => exact ⟨r.outbounds, rfl⟩
    | mihomo => exact List.nil_prefix
  · rw [hbaseRouted.routeRules_eq, hrouted.routeRules_eq, ← hadded]
    cases core <;> rfl
  · intro entry hentry
    obtain ⟨rule, hrule, hentry⟩ := List.mem_flatMap.mp hentry
    have htag : relayTag rule ∈ r.outbounds.filterMap (outboundTag core) := by
      rw [houtbounds]
      exact List.mem_map_of_mem hrule
    obtain ⟨outbound, hmem, houtbound⟩ := List.mem_filterMap.mp htag
    refine ⟨relayTag rule, target_ruleEntries hentry, outbound, ?_, houtbound⟩
    rw [hrouted.outbounds_eq]
    exact mem_allOutbounds hmem
  · intro entry hentry name hname
    rw [hrouted.routeRules_eq] at hentry
    have hmem : entry ∈ addedEntries core db nodeId := hadded ▸ refs_base hentry hname
    obtain ⟨rule, hrule, hentry⟩ := List.mem_flatMap.mp hmem
    have hname' : name ∈ r.sets := by
      rw [hsets]
      exact List.mem_flatMap.mpr ⟨rule, hrule, refs_ruleEntries hentry hname⟩
    have hnodup : r.sets.Nodup := by
      rw [hsets]
      refine (flatMap_ruleSets_sublist core _).nodup ((List.filter_sublist.map ruleSetTag).nodup ?_)
      exact List.pairwise_map.mpr ((List.pairwise_map.mp hdistinct).imp
        fun hne heq => hne (ruleSetTag_inj heq))
    rw [hrouted.declaredSets_perm.count_eq]
    exact List.count_eq_one_of_mem hnodup hname'
  · rintro rfl
    obtain ⟨_, _, _, hmatch, _⟩ := id hrouted
    exact ⟨r.rules, finalRule, hrouted.routeRules_eq, by decide, hmatch⟩

namespace TwoRelays

def entry : Node where
  id := .ofNat 1
  name := "entry"
  hostname := "entry"
  address := "192.0.2.1"
  domain := none
  tokenHash := ""
  coresAvailable := arr []
  usageCoefficient := 0x3f800000
  status := "online"
  parentId := none
  lastSeenAt := none
  updatedAt := default

def exit : Node := { entry with id := .ofNat 2, name := "exit", address := "192.0.2.2" }

def exitConfig : ProtocolConfig where
  id := .ofNat 3
  name := "reality"
  protocolType := "vless_reality"
  coreType := "mihomo"
  listenPort := 443
  listenAddress := "0.0.0.0"
  settings := mkObj [("public_key", str "key"), ("reality_server_names", str "example.com")]
  tlsSettings := none
  updatedAt := default

def binding : NodeBinding := ⟨.ofNat 4, exit.id, exitConfig.id, none, true⟩

/-- Domains with a comma and a suffix. -/
def inlineRule : RelayRule where
  id := .ofNat (5 * 16 ^ 24)
  nodeId := entry.id
  exitBindingId := binding.id
  relayClientId := .ofNat 7
  name := "inline"
  matchType := "inline"
  matchConfig := mkObj [("domains", arr [str "a.org,b.org"]), ("domain_suffixes", arr [str "c.org"])]
  enabled := true
  sortOrder := 0
  updatedAt := default

/-- A rule set of the library. -/
def libraryRule : RelayRule :=
  { inlineRule with
    id := .ofNat (6 * 16 ^ 24)
    matchType := "rule_set"
    matchConfig := mkObj [("library", str "netflix")] }

def db : Db where
  nodes := ⟨[entry, exit], by decide⟩
  protocolConfigs := .single exitConfig
  nodeBindings := .single binding
  relayRules := ⟨[inlineRule, libraryRule], by decide⟩

/-- The mihomo configuration of a node without inbounds. -/
def base : Json := mkObj [("log-level", str "warning"), ("mode", str "rule"),
  ("allow-lan", bool false), ("external-controller", str "127.0.0.1:9093"),
  ("listeners", arr []), ("rules", Builder.strs ["MATCH,DIRECT"])]

end TwoRelays

theorem relay_closure_two_relays : ∃ config,
    (applyRelayRules TwoRelays.entry.id .mihomo TwoRelays.base).exec TwoRelays.db = .ok config ∧
      routeRules .mihomo config = [str "DOMAIN,a.org,b.org, relay-00000005",
        str "DOMAIN-SUFFIX,c.org, relay-00000005", str "RULE-SET,rs-00000006, relay-00000006",
        str "MATCH,DIRECT"] ∧
      (declaredSets .mihomo config).count "rs-00000006" = 1 := by
  have hbase : buildFullConfig {} .mihomo [] = .ok TwoRelays.base := rfl
  obtain ⟨config, hrun⟩ : ∃ config, (applyRelayRules TwoRelays.entry.id .mihomo
      TwoRelays.base).exec TwoRelays.db = .ok config := ⟨_, rfl⟩
  have hclosure := relay_closure hbase (by decide) hrun
  have hrules : routeRules .mihomo config = [str "DOMAIN,a.org,b.org, relay-00000005",
      str "DOMAIN-SUFFIX,c.org, relay-00000005", str "RULE-SET,rs-00000006, relay-00000006",
      str "MATCH,DIRECT"] := by
    rw [hclosure.2.2.1]
    rfl
  refine ⟨config, hrun, hrules, hclosure.2.2.2.2.1 (str "RULE-SET,rs-00000006, relay-00000006") ?_ _ ?_⟩
  · rw [hrules]
    exact .tail _ (.tail _ (.head _))
  · decide

end ProxyPanel.Hub
