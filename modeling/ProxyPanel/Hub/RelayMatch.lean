import Mathlib.Data.List.Count
import ProxyPanel.Hub.Edits
import ProxyPanel.Hub.RelayClosure

/-!
# What a relay rule matches

A relay rule is accepted by its number of entries and applied by its non-empty strings;
for mihomo each of them is put into a text that is split at commas again.
`routesAsGiven_iff` says for which accepted rules the entries that are added match what
was given, no more and no less.
-/

namespace ProxyPanel.Hub

open Json

/-! ### Reading a routing entry -/

/-- What a routing entry matches. -/
inductive Criterion where
  | exact (name : String)
  | suffix (name : String)
  | ruleSet (tag : String)
  deriving DecidableEq

/-- The parts of a rule of mihomo, trimmed. -/
def ruleParts (entry : Json) : List String :=
  ((entry.asStr.map (Text.split ',')).getD []).map Text.trim

/-- What the entry matches: any of these.  A rule of mihomo has a type, a value and a target. -/
def criteria (core : CoreType) (entry : Json) : List Criterion :=
  match core with
  | .singBox =>
    let names (k : String) := ((entry.getArr k).getD []).filterMap asStr
    (names "domain").map .exact ++ (names "domain_suffix").map .suffix ++
      (names "rule_set").map .ruleSet
  | .mihomo =>
    match ruleParts entry with
    | [kind, value, _] =>
      if kind = "DOMAIN" then [.exact value]
      else if kind = "DOMAIN-SUFFIX" then [.suffix value]
      else if kind = "RULE-SET" then [.ruleSet value]
      else []
    | _ => []

/-- The entries among these that match by a criterion. -/
def carriers (core : CoreType) (emitted : List Json) (c : Criterion) : List Json :=
  emitted.filter fun entry => c ∈ criteria core entry

/-- The configuration declares a rule set with this tag and address. -/
def DeclaresSet (core : CoreType) (config : Json) (tag url : String) : Prop :=
  match core with
  | .singBox => ∃ set ∈ ((config.get "route").bind (·.getArr "rule_set")).getD [],
      set.getStr "tag" = some tag ∧ set.getStr "url" = some url
  | .mihomo => ∃ provider, (config.get "rule-providers").bind (·.get tag) = some provider ∧
      provider.getStr "url" = some url

/-! ### What is given -/

/-- The entries under a key, of any type. -/
def givenEntries (matchConfig : Json) (k : String) : List Json := (matchConfig.getArr k).getD []

/-- The address of the rule set that is given for a core: of the library, or the custom one. -/
def givenUrl (core : CoreType) (matchConfig : Json) : Option String :=
  match matchConfig.getStr "library" with
  | some name => (libraryLookup name).map fun e =>
    match core with
    | .singBox => e.2.1
    | .mihomo => e.2.2.2.1
  | none =>
    let k := match core with
      | .singBox => "singbox"
      | .mihomo => "mihomo"
    ((matchConfig.get "custom").bind (·.get k)).bind (·.getStr "url")

/-- A criterion that the rule asks for. -/
def Asked (rule : RelayRule) (c : Criterion) : Prop :=
  if rule.matchType = "inline" then
    (∃ d, c = .exact d ∧ str d ∈ givenEntries rule.matchConfig "domains") ∨
      ∃ s, c = .suffix s ∧ str s ∈ givenEntries rule.matchConfig "domain_suffixes"
  else c = .ruleSet (ruleSetTag rule)

/-- A given entry is a name, and exactly one of the entries matches by it. -/
def AppearsOnce (core : CoreType) (emitted : List Json) (f : String → Criterion) (e : Json) :
    Prop :=
  ∃ d, e = str d ∧ (carriers core emitted (f d)).length = 1

/-- **The entries match what was given**: each leads to the outbound of the rule and
matches only what was asked for, and everything that was given is in exactly one. -/
structure MatchesGiven (core : CoreType) (rule : RelayRule) (config' : Json)
    (emitted : List Json) : Prop where
  target : ∀ entry ∈ emitted, ruleTarget core entry = some (relayTag rule)
  parts : core = .mihomo →
    ∀ entry ∈ emitted, ∃ kind value, ruleParts entry = [kind, value, relayTag rule]
  asked : ∀ entry ∈ emitted, ∀ c ∈ criteria core entry, Asked rule c
  domains : rule.matchType = "inline" →
    ∀ e ∈ givenEntries rule.matchConfig "domains", AppearsOnce core emitted .exact e
  suffixes : rule.matchType = "inline" →
    ∀ e ∈ givenEntries rule.matchConfig "domain_suffixes", AppearsOnce core emitted .suffix e
  ruleSet : rule.matchType ≠ "inline" →
    (carriers core emitted (.ruleSet (ruleSetTag rule))).length = 1 ∧
      ∃ url, givenUrl core rule.matchConfig = some url ∧
        DeclaresSet core config' (ruleSetTag rule) url

/-- **A rule is applied as given**: it has a specification, and it inserts entries that
match what was given. -/
def RoutesAsGiven (core : CoreType) (rule : RelayRule) (config config' : Json) : Prop :=
  (matchSpec rule core).isSome ∧ ∃ front emitted back,
    routeRules core config = front ++ back ∧
    routeRules core config' = front ++ emitted ++ back ∧
    MatchesGiven core rule config' emitted

/-! ### Which hosts are routed -/

/-- A host is matched.  `under` is what a core takes a suffix to match, `sets` what is in
the rule sets. -/
def Criterion.Matches (under : String → String → Prop) (sets : String → String → Prop)
    (host : String) : Criterion → Prop
  | .exact name => host = name
  | .suffix name => under name host
  | .ruleSet tag => sets tag host

/-- The entries match a host if and only if it was asked for. -/
theorem MatchesGiven.matches_iff {core : CoreType} {rule : RelayRule} {config' : Json}
    {emitted : List Json} (h : MatchesGiven core rule config' emitted)
    (under sets : String → String → Prop) (host : String) :
    (∃ entry ∈ emitted, ∃ c ∈ criteria core entry, c.Matches under sets host) ↔
      ∃ c, Asked rule c ∧ c.Matches under sets host := by
  have hcarried : ∀ c, (carriers core emitted c).length = 1 →
      ∃ entry ∈ emitted, c ∈ criteria core entry := by
    intro c hone
    have hpos : 0 < (carriers core emitted c).length := by omega
    obtain ⟨entry, hentry⟩ := List.exists_mem_of_length_pos hpos
    obtain ⟨hmem, hc⟩ := List.mem_filter.mp hentry
    exact ⟨entry, hmem, of_decide_eq_true hc⟩
  have honce : ∀ f : String → Criterion, ∀ name, AppearsOnce core emitted f (str name) →
      ∃ entry ∈ emitted, f name ∈ criteria core entry := by
    rintro f name ⟨d, hd, hone⟩
    cases hd
    exact hcarried _ hone
  constructor
  · rintro ⟨entry, hentry, c, hc, hmatches⟩
    exact ⟨c, h.asked entry hentry c hc, hmatches⟩
  · rintro ⟨c, hasked, hmatches⟩
    obtain ⟨entry, hentry, hc⟩ : ∃ entry ∈ emitted, c ∈ criteria core entry := by
      rw [Asked] at hasked
      split at hasked
      · rename_i hinline
        rcases hasked with ⟨d, rfl, hd⟩ | ⟨s, rfl, hs⟩
        · exact honce .exact d (h.domains hinline _ hd)
        · exact honce .suffix s (h.suffixes hinline _ hs)
      · rename_i hset
        rw [hasked]
        exact hcarried _ (h.ruleSet hset).1
    exact ⟨entry, hentry, c, hc, hmatches⟩

/-! ### The names that are used -/

theorem mem_strList {matchConfig : Json} {k d : String} :
    d ∈ strList (matchConfig.get k) ↔ d ≠ "" ∧ str d ∈ givenEntries matchConfig k := by
  have hentries : ((matchConfig.get k).bind asArray).getD [] = givenEntries matchConfig k := rfl
  rw [strList, hentries, List.mem_filter, List.mem_filterMap, decide_eq_true_iff, and_comm]
  refine and_congr_right fun _ => ⟨?_, fun h => ⟨str d, h, rfl⟩⟩
  rintro ⟨e, he, hstr⟩
  cases e with
  | str d' =>
    cases hstr
    exact he
  | _ => cases hstr

/-- If all entries are non-empty names, all of them are used. -/
theorem givenEntries_eq {matchConfig : Json} {k : String}
    (h : ∀ e ∈ givenEntries matchConfig k, ∃ d, e = str d ∧ d ≠ "") :
    givenEntries matchConfig k = (strList (matchConfig.get k)).map str := by
  have hentries : ((matchConfig.get k).bind asArray).getD [] = givenEntries matchConfig k := rfl
  rw [strList, hentries]
  generalize givenEntries matchConfig k = es at h
  induction es with
  | nil => rfl
  | cons e es ih =>
    obtain ⟨d, rfl, hd⟩ := h e List.mem_cons_self
    have hfirst : ((str d :: es).filterMap asStr).filter (fun s => s ≠ "") =
        d :: (es.filterMap asStr).filter (fun s => s ≠ "") :=
      List.filter_cons_of_pos (decide_eq_true hd)
    rw [hfirst, List.map_cons, ← ih fun e' he' => h e' (List.mem_cons_of_mem _ he')]

/-! ### What a sing-box entry matches -/

theorem names_strs (xs : List String) : (xs.map str).filterMap asStr = xs := by
  induction xs with
  | nil => rfl
  | cons x xs ih => exact congrArg (x :: ·) ih

section SetNames

variable {j : Json} (k : String) (xs : List String)

theorem isObject_setNames (h : j.isObject = true) :
    (if xs = [] then j else j.setIndex k (Builder.strs xs)).isObject = true := by
  split
  · exact h
  · exact isObject_setIndex h _ _

/-- The names under a key that is only set when there are some. -/
theorem getArr_setNames_self (h : j.isObject = true) (hnone : j.getArr k = none) :
    ((if xs = [] then j else j.setIndex k (Builder.strs xs)).getArr k).getD [] = xs.map str := by
  split
  · rename_i hxs
    rw [hnone, hxs]
    rfl
  · rw [Builder.strs, getArr_eq_some_iff.mpr (get_setIndex_self h _ _)]
    rfl

theorem getArr_setNames_of_ne {k' : String} (h : k' ≠ k) :
    (if xs = [] then j else j.setIndex k (Builder.strs xs)).getArr k' = j.getArr k' := by
  split
  · rfl
  · rw [getArr, get_setIndex_of_ne _ h, getArr]

end SetNames

theorem criteria_inline_singBox (tag rsTag : String) (domains suffixes : List String) :
    ∃ entry, specEntries tag rsTag .singBox (.inline domains suffixes) = [entry] ∧
      criteria .singBox entry = domains.map .exact ++ suffixes.map .suffix := by
  refine ⟨_, rfl, ?_⟩
  have hobject : (mkObj [("outbound", str tag)]).isObject = true := rfl
  have hdomain := getArr_setNames_self "domain" domains hobject rfl
  have hsuffix := getArr_setNames_self "domain_suffix" suffixes
    (isObject_setNames "domain" domains hobject)
    ((getArr_setNames_of_ne "domain" domains (by decide)).trans rfl)
  simp only [criteria]
  rw [hsuffix, getArr_setNames_of_ne _ _ (by decide), hdomain,
    getArr_setNames_of_ne _ _ (by decide), getArr_setNames_of_ne _ _ (by decide), names_strs,
    names_strs]
  exact List.append_nil _

theorem criteria_ruleSet_singBox (tag rsTag : String) :
    criteria .singBox (mkObj [("rule_set", Builder.strs [rsTag]), ("outbound", str tag)]) =
      [.ruleSet rsTag] := by
  simp only [criteria, getArr, get_mkObj]
  rfl

/-! ### What a mihomo entry matches -/

/-- A line of three parts. -/
def line (kind value tag : String) : Json := str (kind ++ "," ++ value ++ ", " ++ tag)

theorem split_line {kind : String} (hkind : ',' ∉ kind.toList) (value tag : String) :
    Text.split ',' (kind ++ "," ++ value ++ ", " ++ tag) =
      kind :: Text.split ',' (value ++ ", " ++ tag) := by
  have hlist : (kind ++ "," ++ value ++ ", " ++ tag).toList =
      kind.toList ++ ',' :: (value ++ ", " ++ tag).toList := by
    simp
  rw [Text.split_of_toList hlist hkind, String.ofList_toList, String.ofList_toList]

/-- A value without a comma is the second part, trimmed. -/
theorem ruleParts_line {kind value tag : String} (hkind : ',' ∉ kind.toList)
    (hvalue : ',' ∉ value.toList) (htag : ∀ c ∈ tag.toList, Text.isWhite c = false ∧ c ≠ ',') :
    ruleParts (line kind value tag) = [Text.trim kind, Text.trim value, tag] := by
  have hlist : (value ++ ", " ++ tag).toList = value.toList ++ ',' :: (" " ++ tag).toList := by
    simp
  have hlast : ',' ∉ (" " ++ tag).toList := by
    intro h
    rw [String.toList_append, List.mem_append] at h
    rcases h with h | h
    · exact absurd h (by decide)
    · exact (htag _ h).2 rfl
  rw [ruleParts, line, asStr]
  simp only [Option.map_some, Option.getD_some]
  rw [split_line hkind, Text.split_of_toList hlist hvalue, String.ofList_toList,
    String.ofList_toList, Text.split_of_not_mem hlast]
  simp only [List.map_cons, List.map_nil, Text.trim_blank_append fun c hc => (htag c hc).1]

/-- A value with a comma gives more parts. -/
theorem length_ruleParts_line {kind value : String} (hkind : ',' ∉ kind.toList)
    (hvalue : ',' ∈ value.toList) (tag : String) :
    4 ≤ (ruleParts (line kind value tag)).length := by
  obtain ⟨xs, ys, hxy, hxs⟩ := List.eq_append_cons_of_mem hvalue
  have hlist : (value ++ ", " ++ tag).toList = xs ++ ',' :: (ys ++ ',' :: ' ' :: tag.toList) := by
    simp [hxy]
  have hrest : ',' ∈ (String.ofList (ys ++ ',' :: ' ' :: tag.toList)).toList := by simp
  obtain ⟨zs, ws, -, hsplit⟩ := Text.split_of_mem hrest
  have hone := Text.one_le_length_split ',' (String.ofList ws)
  rw [ruleParts, line, asStr]
  simp only [Option.map_some, Option.getD_some]
  rw [split_line hkind, Text.split_of_toList hlist hxs, hsplit]
  simp only [List.map_cons, List.length_cons, List.length_map]
  omega

section Lines

variable {tag : String} (htag : ∀ c ∈ tag.toList, Text.isWhite c = false ∧ c ≠ ',')

include htag in
theorem criteria_line_exact {d : String} (hd : ',' ∉ d.toList) :
    criteria .mihomo (line "DOMAIN" d tag) = [.exact (Text.trim d)] := by
  have htrim : Text.trim "DOMAIN" = "DOMAIN" := by decide
  simp only [criteria, @ruleParts_line "DOMAIN" d tag (by decide) hd htag, htrim, if_true]

include htag in
theorem criteria_line_suffix {d : String} (hd : ',' ∉ d.toList) :
    criteria .mihomo (line "DOMAIN-SUFFIX" d tag) = [.suffix (Text.trim d)] := by
  have htrim : Text.trim "DOMAIN-SUFFIX" = "DOMAIN-SUFFIX" := by decide
  simp only [criteria, @ruleParts_line "DOMAIN-SUFFIX" d tag (by decide) hd htag, htrim,
    String.reduceEq, if_false, if_true]

include htag in
theorem criteria_line_ruleSet {rsTag : String}
    (hrs : ∀ c ∈ rsTag.toList, Text.isWhite c = false ∧ c ≠ ',') :
    criteria .mihomo (line "RULE-SET" rsTag tag) = [.ruleSet rsTag] := by
  have htrim : Text.trim "RULE-SET" = "RULE-SET" := by decide
  have hcomma : ',' ∉ rsTag.toList := fun hc => (hrs _ hc).2 rfl
  simp only [criteria, @ruleParts_line "RULE-SET" rsTag tag (by decide) hcomma htag, htrim,
    Text.trim_of_no_white fun c hc => (hrs c hc).1, String.reduceEq, if_false, if_true]

end Lines

theorem length_carriers_map {core : CoreType} {f : String → Json} {g : String → Criterion}
    {ds : List String} (h : ∀ d ∈ ds, criteria core (f d) = [g d]) (c : Criterion) :
    (carriers core (ds.map f) c).length = (ds.map g).count c := by
  induction ds with
  | nil => rfl
  | cons d ds ih =>
    have hrest := ih fun d' hd' => h d' (List.mem_cons_of_mem d hd')
    rw [carriers] at hrest
    rw [carriers, List.map_cons, List.map_cons, List.filter_cons, h d List.mem_cons_self,
      List.count_cons, ← hrest]
    by_cases hc : c = g d
    · simp [hc]
    · have hne : (g d == c) = false := beq_false_of_ne fun he => hc he.symm
      simp [hc, hne]

/-! ### Which entries appear once -/

section Entries

variable {matchConfig : Json} {k : String} {core : CoreType} {emitted : List Json}
  {f : String → Criterion}

/-- Where the names that are used appear once, all of them are used. -/
theorem appearsOnce_iff_of_used
    (hused : ∀ d, (carriers core emitted (f d)).length = 1 ↔ d ∈ strList (matchConfig.get k)) :
    (∀ e ∈ givenEntries matchConfig k, AppearsOnce core emitted f e) ↔
      ∀ e ∈ givenEntries matchConfig k, ∃ d, e = str d ∧ d ≠ "" := by
  refine forall₂_congr fun e he => exists_congr fun d => and_congr_right ?_
  rintro rfl
  rw [hused, mem_strList, and_iff_left he]

/-- Where an entry appears as often as it is trimmed out of the names, all entries are
trimmed already and different. -/
theorem appearsOnce_iff_of_count (hcount : ∀ d, (carriers core emitted (f d)).length =
      ((strList (matchConfig.get k)).map Text.trim).count d) :
    (∀ e ∈ givenEntries matchConfig k, AppearsOnce core emitted f e) ↔
      (∀ e ∈ givenEntries matchConfig k, ∃ d, e = str d ∧ d ≠ "" ∧ Text.trim d = d) ∧
        (givenEntries matchConfig k).Nodup := by
  have hmap : (∀ d, str d ∈ givenEntries matchConfig k → Text.trim d = d) →
      (strList (matchConfig.get k)).map Text.trim = strList (matchConfig.get k) := by
    intro h
    rw [List.map_congr_left (g := id) fun d hd => h d (mem_strList.mp hd).2, List.map_id]
  have hinj : Function.Injective str := fun a b h => Json.str.inj h
  constructor
  · intro h
    have htrim : ∀ d, str d ∈ givenEntries matchConfig k → Text.trim d = d := by
      intro d hd
      obtain ⟨d', hd', hone⟩ := h _ hd
      cases hd'
      rw [hcount] at hone
      have hmem : d ∈ (strList (matchConfig.get k)).map Text.trim :=
        List.count_pos_iff.mp (by omega)
      obtain ⟨x, -, rfl⟩ := List.mem_map.mp hmem
      exact Text.trim_trim x
    rw [hmap htrim] at hcount
    have hall : ∀ e ∈ givenEntries matchConfig k, ∃ d, e = str d ∧ d ≠ "" ∧ Text.trim d = d := by
      intro e he
      obtain ⟨d, rfl, hone⟩ := h e he
      rw [hcount] at hone
      have hmem : d ∈ strList (matchConfig.get k) := List.count_pos_iff.mp (by omega)
      exact ⟨d, rfl, (mem_strList.mp hmem).1, htrim d he⟩
    refine ⟨hall, ?_⟩
    rw [givenEntries_eq fun e he => (hall e he).imp fun d hd => ⟨hd.1, hd.2.1⟩]
    refine List.Nodup.map hinj (List.nodup_iff_count_eq_one.mpr fun d hd => ?_)
    obtain ⟨d', hd', hone⟩ := h _ (mem_strList.mp hd).2
    cases hd'
    rw [← hcount, hone]
  · rintro ⟨hall, hnodup⟩ e he
    have hentries := givenEntries_eq fun e he => (hall e he).imp fun d hd => ⟨hd.1, hd.2.1⟩
    rw [hmap fun d hd => by obtain ⟨d', hd', -, htrim⟩ := hall _ hd; cases hd'; exact htrim]
      at hcount
    rw [hentries] at hnodup
    obtain ⟨d, rfl, hd, -⟩ := hall e he
    refine ⟨d, rfl, ?_⟩
    rw [hcount]
    exact List.nodup_iff_count_eq_one.mp (List.Nodup.of_map _ hnodup) d (mem_strList.mpr ⟨hd, he⟩)

end Entries

/-! ### Names -/

/-- What the entries of an accepted rule must be: names that are not empty.  For mihomo they
have no comma and no white space around them, and no name is given twice. -/
def WellGiven (core : CoreType) (rule : RelayRule) : Prop :=
  rule.matchType = "inline" → ∀ k ∈ ["domains", "domain_suffixes"],
    (∀ e ∈ givenEntries rule.matchConfig k, ∃ d, e = str d ∧ d ≠ "" ∧
      (core = .mihomo → ',' ∉ d.toList ∧ Text.trim d = d)) ∧
    (core = .mihomo → (givenEntries rule.matchConfig k).Nodup)

section Inline

variable {rule : RelayRule} {config' : Json}

theorem matchSpec_inline (h : rule.matchType = "inline") (core : CoreType) :
    matchSpec rule core =
      if strList (rule.matchConfig.get "domains") = [] ∧
        strList (rule.matchConfig.get "domain_suffixes") = [] then none
      else some (.inline (strList (rule.matchConfig.get "domains"))
        (strList (rule.matchConfig.get "domain_suffixes"))) := by
  unfold matchSpec
  exact if_pos h

theorem asked_inline (h : rule.matchType = "inline") (c : Criterion) : Asked rule c ↔
    (∃ d, c = .exact d ∧ str d ∈ givenEntries rule.matchConfig "domains") ∨
      ∃ s, c = .suffix s ∧ str s ∈ givenEntries rule.matchConfig "domain_suffixes" := by
  rw [Asked, if_pos h]

/-- For sing-box every name that is used is in the one entry. -/
theorem matchesGiven_singBox_iff (h : rule.matchType = "inline")
    (hspec : matchSpec rule .singBox = some (.inline (strList (rule.matchConfig.get "domains"))
      (strList (rule.matchConfig.get "domain_suffixes")))) :
    MatchesGiven .singBox rule config' (ruleEntries .singBox rule) ↔ WellGiven .singBox rule := by
  obtain ⟨entry, hentry, hcriteria⟩ := criteria_inline_singBox (relayTag rule) (ruleSetTag rule)
    (strList (rule.matchConfig.get "domains")) (strList (rule.matchConfig.get "domain_suffixes"))
  have hentries : ruleEntries .singBox rule = [entry] := by
    rw [ruleEntries, hspec]
    exact hentry
  have hcarried : ∀ c, (carriers .singBox [entry] c).length = 1 ↔ c ∈ criteria .singBox entry := by
    intro c
    rw [carriers, List.filter_cons]
    by_cases hc : c ∈ criteria .singBox entry
    · simp [hc]
    · simp [hc]
  have hexact : ∀ d, (carriers .singBox [entry] (.exact d)).length = 1 ↔
      d ∈ strList (rule.matchConfig.get "domains") := by
    intro d
    rw [hcarried, hcriteria]
    simp
  have hsuffix : ∀ s, (carriers .singBox [entry] (.suffix s)).length = 1 ↔
      s ∈ strList (rule.matchConfig.get "domain_suffixes") := by
    intro s
    rw [hcarried, hcriteria]
    simp
  have hdomains := appearsOnce_iff_of_used hexact
  have hsuffixes := appearsOnce_iff_of_used hsuffix
  rw [hentries]
  constructor
  · intro hgiven _ k hk
    refine ⟨fun e he => ?_, fun hc => by cases hc⟩
    have hname : ∃ d, e = str d ∧ d ≠ "" := by
      simp only [List.mem_cons, List.not_mem_nil, or_false] at hk
      rcases hk with rfl | rfl
      · exact hdomains.mp (hgiven.domains h) e he
      · exact hsuffixes.mp (hgiven.suffixes h) e he
    exact hname.imp fun d hd => ⟨hd.1, hd.2, fun hc => by cases hc⟩
  · intro hwell
    have hnames : ∀ k ∈ ["domains", "domain_suffixes"],
        ∀ e ∈ givenEntries rule.matchConfig k, ∃ d, e = str d ∧ d ≠ "" :=
      fun k hk e he => ((hwell h k hk).1 e he).imp fun d hd => ⟨hd.1, hd.2.1⟩
    refine ⟨fun e he => target_ruleEntries (hentries ▸ he), (fun hc => by cases hc), ?_, fun _ => ?_, fun _ => ?_,
      fun hne => absurd h hne⟩
    · intro e he c hc
      cases List.mem_singleton.mp he
      rw [hcriteria, List.mem_append, List.mem_map, List.mem_map] at hc
      rw [asked_inline h]
      rcases hc with ⟨d, hd, rfl⟩ | ⟨s, hs, rfl⟩
      · exact Or.inl ⟨d, rfl, (mem_strList.mp hd).2⟩
      · exact Or.inr ⟨s, rfl, (mem_strList.mp hs).2⟩
    · exact hdomains.mpr (hnames _ (by decide))
    · exact hsuffixes.mpr (hnames _ (by decide))

/-- The lines of a rule for mihomo, by criterion, when no name has a comma. -/
theorem length_carriers_lines {domains suffixes : List String} {tag : String}
    (htag : ∀ c ∈ tag.toList, Text.isWhite c = false ∧ c ≠ ',')
    (hdomains : ∀ d ∈ domains, ',' ∉ d.toList) (hsuffixes : ∀ s ∈ suffixes, ',' ∉ s.toList) :
    let lines := domains.map (line "DOMAIN" · tag) ++ suffixes.map (line "DOMAIN-SUFFIX" · tag)
    (∀ d, (carriers .mihomo lines (.exact d)).length = (domains.map Text.trim).count d) ∧
      ∀ s, (carriers .mihomo lines (.suffix s)).length = (suffixes.map Text.trim).count s := by
  intro lines
  have hsplit : ∀ c, (carriers .mihomo lines c).length =
      (domains.map fun d => Criterion.exact (Text.trim d)).count c +
        (suffixes.map fun s => Criterion.suffix (Text.trim s)).count c := by
    intro c
    rw [← length_carriers_map (fun d hd => criteria_line_exact htag (hdomains d hd)) c,
      ← length_carriers_map (fun s hs => criteria_line_suffix htag (hsuffixes s hs)) c]
    rw [carriers, List.filter_append, List.length_append]
    rfl
  have hcount : ∀ (f : String → Criterion), Function.Injective f →
      ∀ (xs : List String) (x : String),
        (xs.map fun d => f (Text.trim d)).count (f x) = (xs.map Text.trim).count x := by
    intro f hf xs x
    rw [← List.count_map_of_injective _ f hf, List.map_map]
    rfl
  constructor
  · intro d
    have hnone : (suffixes.map fun s => Criterion.suffix (Text.trim s)).count (.exact d) = 0 :=
      List.count_eq_zero.mpr (by simp)
    rw [hsplit, hcount _ (fun a b h => Criterion.exact.inj h), hnone, Nat.add_zero]
  · intro s
    have hnone : (domains.map fun d => Criterion.exact (Text.trim d)).count (.suffix s) = 0 :=
      List.count_eq_zero.mpr (by simp)
    rw [hsplit, hcount _ (fun a b h => Criterion.suffix.inj h), hnone, Nat.zero_add]

/-- For mihomo every name is on a line of its own. -/
theorem matchesGiven_mihomo_iff (h : rule.matchType = "inline")
    (hspec : matchSpec rule .mihomo = some (.inline (strList (rule.matchConfig.get "domains"))
      (strList (rule.matchConfig.get "domain_suffixes")))) :
    MatchesGiven .mihomo rule config' (ruleEntries .mihomo rule) ↔ WellGiven .mihomo rule := by
  have htag := plain_relayTag rule
  have hentries : ruleEntries .mihomo rule =
      (strList (rule.matchConfig.get "domains")).map (line "DOMAIN" · (relayTag rule)) ++
        (strList (rule.matchConfig.get "domain_suffixes")).map
          (line "DOMAIN-SUFFIX" · (relayTag rule)) := by
    rw [ruleEntries, hspec]
    rfl
  -- with no comma in a name, a name appears as often as it is trimmed out of the names
  have honce : (∀ d ∈ strList (rule.matchConfig.get "domains"), ',' ∉ d.toList) →
      (∀ s ∈ strList (rule.matchConfig.get "domain_suffixes"), ',' ∉ s.toList) →
      ((∀ e ∈ givenEntries rule.matchConfig "domains",
          AppearsOnce .mihomo (ruleEntries .mihomo rule) .exact e) ↔
        (∀ e ∈ givenEntries rule.matchConfig "domains",
            ∃ d, e = str d ∧ d ≠ "" ∧ Text.trim d = d) ∧
          (givenEntries rule.matchConfig "domains").Nodup) ∧
      ((∀ e ∈ givenEntries rule.matchConfig "domain_suffixes",
          AppearsOnce .mihomo (ruleEntries .mihomo rule) .suffix e) ↔
        (∀ e ∈ givenEntries rule.matchConfig "domain_suffixes",
            ∃ d, e = str d ∧ d ≠ "" ∧ Text.trim d = d) ∧
          (givenEntries rule.matchConfig "domain_suffixes").Nodup) := by
    intro hdomains hsuffixes
    rw [hentries]
    obtain ⟨hexact, hsuffix⟩ := length_carriers_lines htag hdomains hsuffixes
    exact ⟨appearsOnce_iff_of_count hexact, appearsOnce_iff_of_count hsuffix⟩
  constructor
  · intro hgiven _ k hk
    have hcomma : ∀ kind, ',' ∉ kind.toList → ∀ name,
        line kind name (relayTag rule) ∈ ruleEntries .mihomo rule → ',' ∉ name.toList := by
      intro kind hkind name hmem hname
      obtain ⟨kind', value, hparts⟩ := hgiven.parts rfl _ hmem
      have hlength := length_ruleParts_line hkind hname (relayTag rule)
      rw [hparts] at hlength
      simp at hlength
    have hdomains : ∀ d ∈ strList (rule.matchConfig.get "domains"), ',' ∉ d.toList := by
      intro d hd
      refine hcomma "DOMAIN" (by decide) d ?_
      rw [hentries]
      exact List.mem_append_left _ (List.mem_map_of_mem hd)
    have hsuffixes : ∀ s ∈ strList (rule.matchConfig.get "domain_suffixes"), ',' ∉ s.toList := by
      intro s hs
      refine hcomma "DOMAIN-SUFFIX" (by decide) s ?_
      rw [hentries]
      exact List.mem_append_right _ (List.mem_map_of_mem hs)
    obtain ⟨hfirst, hsecond⟩ := honce hdomains hsuffixes
    simp only [List.mem_cons, List.not_mem_nil, or_false] at hk
    rcases hk with rfl | rfl
    · obtain ⟨hnames, hnodup⟩ := hfirst.mp (hgiven.domains h)
      refine ⟨fun e he => ?_, fun _ => hnodup⟩
      obtain ⟨d, rfl, hd, htrim⟩ := hnames e he
      exact ⟨d, rfl, hd, fun _ => ⟨hdomains d (mem_strList.mpr ⟨hd, he⟩), htrim⟩⟩
    · obtain ⟨hnames, hnodup⟩ := hsecond.mp (hgiven.suffixes h)
      refine ⟨fun e he => ?_, fun _ => hnodup⟩
      obtain ⟨d, rfl, hd, htrim⟩ := hnames e he
      exact ⟨d, rfl, hd, fun _ => ⟨hsuffixes d (mem_strList.mpr ⟨hd, he⟩), htrim⟩⟩
  · intro hwell
    have hname : ∀ k ∈ ["domains", "domain_suffixes"], ∀ d ∈ strList (rule.matchConfig.get k),
        str d ∈ givenEntries rule.matchConfig k ∧ ',' ∉ d.toList ∧ Text.trim d = d := by
      intro k hk d hd
      have hmem := (mem_strList.mp hd).2
      obtain ⟨d', hd', -, hplain⟩ := (hwell h k hk).1 _ hmem
      cases hd'
      exact ⟨hmem, hplain rfl⟩
    have hnames : ∀ k ∈ ["domains", "domain_suffixes"],
        (∀ e ∈ givenEntries rule.matchConfig k, ∃ d, e = str d ∧ d ≠ "" ∧ Text.trim d = d) ∧
          (givenEntries rule.matchConfig k).Nodup :=
      fun k hk => ⟨fun e he => ((hwell h k hk).1 e he).imp
        fun d hd => ⟨hd.1, hd.2.1, (hd.2.2 rfl).2⟩, (hwell h k hk).2 rfl⟩
    have hdomains := hname "domains" (by decide)
    have hsuffixes := hname "domain_suffixes" (by decide)
    obtain ⟨hfirst, hsecond⟩ := honce (fun d hd => (hdomains d hd).2.1)
      (fun s hs => (hsuffixes s hs).2.1)
    refine ⟨fun e he => target_ruleEntries he, fun _ e he => ?_, fun e he c hc => ?_,
      fun _ => hfirst.mpr (hnames _ (by decide)), fun _ => hsecond.mpr (hnames _ (by decide)),
      fun hne => absurd h hne⟩
    · rw [hentries, List.mem_append, List.mem_map, List.mem_map] at he
      rcases he with ⟨d, hd, rfl⟩ | ⟨s, hs, rfl⟩
      · exact ⟨_, _, ruleParts_line (by decide) (hdomains d hd).2.1 htag⟩
      · exact ⟨_, _, ruleParts_line (by decide) (hsuffixes s hs).2.1 htag⟩
    · rw [hentries, List.mem_append, List.mem_map, List.mem_map] at he
      rw [asked_inline h]
      rcases he with ⟨d, hd, rfl⟩ | ⟨s, hs, rfl⟩
      · obtain ⟨hmem, hplain, htrim⟩ := hdomains d hd
        rw [criteria_line_exact htag hplain, htrim, List.mem_singleton] at hc
        exact Or.inl ⟨d, hc, hmem⟩
      · obtain ⟨hmem, hplain, htrim⟩ := hsuffixes s hs
        rw [criteria_line_suffix htag hplain, htrim, List.mem_singleton] at hc
        exact Or.inr ⟨s, hc, hmem⟩

end Inline

/-! ### Rule sets -/

/-- An accepted rule that is not inline has the rule set that is given, for either core. -/
theorem exists_ruleSet {rule : RelayRule} (hne : rule.matchType ≠ "inline")
    (h : validateMatch rule.matchType rule.matchConfig = .ok ()) (core : CoreType) :
    ∃ url extra, matchSpec rule core = some (.ruleSet url extra) ∧
      givenUrl core rule.matchConfig = some url := by
  rw [validateMatch, if_neg hne] at h
  unfold matchSpec givenUrl
  simp only [if_neg hne]
  split at h
  case isFalse => cases h
  cases hlibrary : rule.matchConfig.getStr "library" with
  | some name =>
    simp only [hlibrary] at h ⊢
    cases hlookup : libraryLookup name with
    | none =>
      rw [hlookup] at h
      cases h
    | some e => cases core <;> exact ⟨_, _, rfl, rfl⟩
  | none =>
    simp only [hlibrary] at h ⊢
    cases hcustom : rule.matchConfig.get "custom" with
    | none =>
      rw [hcustom] at h
      cases h
    | some custom =>
      simp only [hcustom] at h
      split at h
      · cases h
      · rename_i hurls
        rw [not_or] at hurls
        have hsome : ∀ k, ((custom.get k).bind (·.getStr "url")).getD "" ≠ "" →
            ∃ url, (custom.get k).bind (·.getStr "url") = some url := by
          intro k hk
          cases hurl : (custom.get k).bind (·.getStr "url") with
          | none =>
            rw [hurl] at hk
            exact absurd rfl hk
          | some url => exact ⟨url, rfl⟩
        cases core with
        | singBox =>
          obtain ⟨url, hurl⟩ := hsome "singbox" hurls.1
          refine ⟨url, ((custom.get "singbox").bind (·.getStr "format")).getD "binary", ?_, hurl⟩
          simp only [Option.bind_eq_bind, Option.bind_some, hurl]
          rfl
        | mihomo =>
          obtain ⟨url, hurl⟩ := hsome "mihomo" hurls.2
          refine ⟨url, ((custom.get "mihomo").bind (·.getStr "behavior")).getD "domain", ?_, hurl⟩
          simp only [Option.bind_eq_bind, Option.bind_some, hurl]
          rfl

/-- The configuration with the rule declares its rule set. -/
theorem declaresSet_addRelay {core : CoreType} {config : Json} {r : Routing} {rule : RelayRule}
    (h : Routed core config r) {url extra : String}
    (hspec : matchSpec rule core = some (.ruleSet url extra)) (outbound : Json) :
    DeclaresSet core (addRelay core config (relayTag rule) (ruleSetTag rule) rule outbound)
      (ruleSetTag rule) url := by
  cases core with
  | singBox =>
    obtain ⟨hobject, -, route, hroute, hisObject, -⟩ := routed_outbound h outbound
    obtain ⟨hensured, harr⟩ := getArr_ensureArr hisObject "rule_set"
    rw [addRelay, applySingboxRelayRule, hspec]
    simp only [DeclaresSet, get_modify_self hobject, hroute, Option.getD_some, Option.bind_some]
    rw [getArr, get_modify_of_ne _ (by decide), ← getArr, getArr_modify_push hensured harr,
      Option.getD_some]
    refine ⟨_, List.mem_append_right _ (List.mem_singleton_self _), ?_⟩
    constructor
    · rw [getStr, get_mkObj]
      rfl
    · rw [getStr, get_mkObj]
      rfl
  | mihomo =>
    obtain ⟨hobject, -⟩ := routed_proxy h outbound
    obtain ⟨hensured, es, hproviders, -⟩ := get_ensureObj_providers hobject
    rw [addRelay, applyMihomoRelayRule, hspec]
    simp only [DeclaresSet]
    rw [insertRule, get_modify_of_ne _ (by decide), get_modify_self hensured, hproviders]
    have hobj : (obj es).isObject = true := rfl
    refine ⟨_, get_setIndex_self hobj _ _, ?_⟩
    rw [getStr, get_mkObj]
    rfl

theorem matchesGiven_ruleSet {core : CoreType} {rule : RelayRule} {config' : Json}
    (hne : rule.matchType ≠ "inline") {url extra : String}
    (hspec : matchSpec rule core = some (.ruleSet url extra))
    (hurl : givenUrl core rule.matchConfig = some url)
    (hdeclares : DeclaresSet core config' (ruleSetTag rule) url) :
    MatchesGiven core rule config' (ruleEntries core rule) := by
  obtain ⟨entry, hentry, hparts, hcriteria⟩ : ∃ entry, ruleEntries core rule = [entry] ∧
      (core = .mihomo → ∃ kind value, ruleParts entry = [kind, value, relayTag rule]) ∧
      criteria core entry = [.ruleSet (ruleSetTag rule)] := by
    rw [ruleEntries, hspec]
    have hrs := plain_ruleSetTag rule
    cases core with
    | singBox => exact ⟨_, rfl, (fun h => by cases h), criteria_ruleSet_singBox _ _⟩
    | mihomo =>
      refine ⟨line "RULE-SET" (ruleSetTag rule) (relayTag rule), rfl, fun _ => ?_,
        criteria_line_ruleSet (plain_relayTag rule) hrs⟩
      exact ⟨_, _, ruleParts_line (by decide) (fun hc => (hrs _ hc).2 rfl) (plain_relayTag rule)⟩
  refine ⟨fun e he => target_ruleEntries he, ?_, ?_, fun h => absurd h hne, fun h => absurd h hne,
    fun _ => ⟨?_, url, hurl, hdeclares⟩⟩
  · intro hcore e he
    rw [hentry, List.mem_singleton] at he
    exact he ▸ hparts hcore
  · intro e he c hc
    rw [hentry, List.mem_singleton] at he
    rw [he, hcriteria, List.mem_singleton] at hc
    rw [Asked, if_neg hne]
    exact hc
  · rw [hentry, carriers, List.filter_cons_of_pos (by rw [hcriteria]; simp)]
    rfl

/-! ### The configuration with the rule -/

/-- **The entries of a rule are inserted at one place.** -/
theorem routeRules_addRelay {core : CoreType} {config : Json} {r : Routing}
    (h : Routed core config r) (rule : RelayRule) (outbound : Json) : ∃ front back,
      routeRules core config = front ++ back ∧
      routeRules core (addRelay core config (relayTag rule) (ruleSetTag rule) rule outbound) =
        front ++ ruleEntries core rule ++ back := by
  cases core with
  | singBox =>
    have hadded := @routed_applySingboxRelayRule _ _ rule (routed_outbound h outbound)
    refine ⟨baseRule :: r.rules, [], ?_, ?_⟩
    · rw [h.routeRules_eq, List.append_nil]
      rfl
    · rw [addRelay, hadded.routeRules_eq, List.append_nil]
      rfl
  | mihomo =>
    obtain ⟨hobject, -, hrules, hmatch, -⟩ := routed_proxy h outbound
    obtain ⟨-, hadded⟩ := rules_applyMihomoRelayRule rule hobject hrules hmatch
    refine ⟨r.rules, [finalRule], h.routeRules_eq, ?_⟩
    rw [addRelay, routeRules, hadded]
    rfl

theorem MatchesGiven.perm {core : CoreType} {rule : RelayRule} {config' : Json}
    {emitted emitted' : List Json} (h : MatchesGiven core rule config' emitted)
    (hperm : emitted.Perm emitted') : MatchesGiven core rule config' emitted' := by
  have hlength : ∀ c, (carriers core emitted' c).length = (carriers core emitted c).length :=
    fun c => (hperm.filter _).length_eq.symm
  have honce : ∀ f e, AppearsOnce core emitted f e → AppearsOnce core emitted' f e := by
    rintro f e ⟨d, rfl, hone⟩
    exact ⟨d, rfl, (hlength _).trans hone⟩
  refine ⟨fun e he => h.target e (hperm.mem_iff.mpr he),
    fun hcore e he => h.parts hcore e (hperm.mem_iff.mpr he),
    fun e he => h.asked e (hperm.mem_iff.mpr he),
    fun hinline e he => honce _ _ (h.domains hinline e he),
    fun hinline e he => honce _ _ (h.suffixes hinline e he), fun hset => ?_⟩
  exact ⟨(hlength _).trans (h.ruleSet hset).1, (h.ruleSet hset).2⟩

theorem validateMatch_of_validateRelayPayload {db : Db} {nodeId exitBindingId : Uuid}
    {matchType : String} {matchConfig : Json}
    (h : validateRelayPayload db nodeId exitBindingId matchType matchConfig = .ok ()) :
    validateMatch matchType matchConfig = .ok () := by
  unfold validateRelayPayload at h
  split at h
  · cases h
  split at h
  · cases h
  split at h
  · cases h
  split at h
  · cases h
  split at h
  · cases h
  split at h
  · cases h
  exact h

/-- An accepted inline rule has an entry. -/
theorem exists_entry {rule : RelayRule} (hinline : rule.matchType = "inline")
    (h : validateMatch rule.matchType rule.matchConfig = .ok ()) :
    ∃ k ∈ ["domains", "domain_suffixes"], ∃ e, e ∈ givenEntries rule.matchConfig k := by
  have hlength : ∀ k, ((rule.matchConfig.getArr k).map (·.length)).getD 0 =
      (givenEntries rule.matchConfig k).length := by
    intro k
    rw [givenEntries]
    cases rule.matchConfig.getArr k <;> rfl
  rw [validateMatch, if_pos hinline] at h
  simp only [hlength] at h
  split at h
  · cases h
  · rename_i hsome
    by_cases hdomains : (givenEntries rule.matchConfig "domains").length = 0
    · obtain ⟨e, he⟩ := List.exists_mem_of_length_pos
        (by omega : 0 < (givenEntries rule.matchConfig "domain_suffixes").length)
      exact ⟨_, by decide, e, he⟩
    · obtain ⟨e, he⟩ := List.exists_mem_of_length_pos (Nat.pos_of_ne_zero hdomains)
      exact ⟨_, by decide, e, he⟩

theorem routesAsGiven_iff_of_validateMatch {core : CoreType} {rule : RelayRule} {config : Json}
    {r : Routing} (h : Routed core config r)
    (hmatch : validateMatch rule.matchType rule.matchConfig = .ok ()) (outbound : Json) :
    RoutesAsGiven core rule config
        (addRelay core config (relayTag rule) (ruleSetTag rule) rule outbound) ↔
      WellGiven core rule := by
  obtain ⟨front, back, hbefore, hafter⟩ := routeRules_addRelay h rule outbound
  have hroutes : RoutesAsGiven core rule config
        (addRelay core config (relayTag rule) (ruleSetTag rule) rule outbound) ↔
      (matchSpec rule core).isSome ∧ MatchesGiven core rule
        (addRelay core config (relayTag rule) (ruleSetTag rule) rule outbound)
        (ruleEntries core rule) := by
    refine and_congr_right fun _ => ⟨?_, fun hgiven => ⟨front, _, back, hbefore, hafter, hgiven⟩⟩
    rintro ⟨front', emitted, back', hbefore', hafter', hgiven⟩
    refine hgiven.perm ?_
    -- what was inserted is what the two lists of entries differ by
    have hsame : (emitted ++ (front' ++ back')).Perm
        (ruleEntries core rule ++ (front' ++ back')) := by
      have hwhole := hafter'.symm.trans hafter
      have hrest := hbefore'.symm.trans hbefore
      calc (emitted ++ (front' ++ back')).Perm (front' ++ emitted ++ back') := by
            rw [List.append_assoc]
            exact List.perm_append_comm_assoc _ _ _
        _ = front ++ ruleEntries core rule ++ back := hwhole
        List.Perm _ (ruleEntries core rule ++ (front ++ back)) := by
            rw [List.append_assoc]
            exact List.perm_append_comm_assoc _ _ _
        _ = ruleEntries core rule ++ (front' ++ back') := by rw [hrest]
    exact (List.perm_append_right_iff _).mp hsame
  rw [hroutes]
  by_cases hinline : rule.matchType = "inline"
  · have hspec := matchSpec_inline hinline core
    split at hspec
    case isTrue hempty =>
      rw [hspec]
      refine iff_of_false (fun hsome => nomatch hsome.1) fun hwell => ?_
      obtain ⟨k, hk, e, he⟩ := exists_entry hinline hmatch
      have hentries := givenEntries_eq fun e he =>
        ((hwell hinline k hk).1 e he).imp fun d hd => ⟨hd.1, hd.2.1⟩
      have hnone : strList (rule.matchConfig.get k) = [] := by
        simp only [List.mem_cons, List.not_mem_nil, or_false] at hk
        rcases hk with rfl | rfl
        · exact hempty.1
        · exact hempty.2
      rw [hentries, hnone] at he
      cases he
    case isFalse =>
      rw [and_iff_right (by rw [hspec]; rfl)]
      cases core with
      | singBox => exact matchesGiven_singBox_iff hinline hspec
      | mihomo => exact matchesGiven_mihomo_iff hinline hspec
  · obtain ⟨url, extra, hspec, hurl⟩ := exists_ruleSet hinline hmatch core
    refine iff_of_true ⟨by rw [hspec]; rfl, ?_⟩ fun h => absurd h hinline
    exact matchesGiven_ruleSet hinline hspec hurl (declaresSet_addRelay h hspec outbound)

/-- **Which accepted rules are applied as given.**  For every accepted rule, either core and
every configuration that rules are applied to. -/
theorem routesAsGiven_iff {db : Db} {core : CoreType} {rule : RelayRule} {config : Json}
    {r : Routing} {nodeId exitBindingId : Uuid} (h : Routed core config r)
    (haccepted : validateRelayPayload db nodeId exitBindingId rule.matchType rule.matchConfig =
      .ok ()) (outbound : Json) :
    RoutesAsGiven core rule config
        (addRelay core config (relayTag rule) (ruleSetTag rule) rule outbound) ↔
      WellGiven core rule :=
  routesAsGiven_iff_of_validateMatch h (validateMatch_of_validateRelayPayload haccepted) outbound

/-! ### A name with a comma -/

namespace TwoRelays

theorem routed_base : Routed .mihomo base ⟨[], [], []⟩ :=
  routed_buildFullConfig (show buildFullConfig {} .mihomo [] = .ok base from rfl)

theorem accepted_inlineRule : validateRelayPayload db inlineRule.nodeId inlineRule.exitBindingId
    inlineRule.matchType inlineRule.matchConfig = .ok () := rfl

/-- A domain and a suffix. -/
def plainRule : RelayRule :=
  { inlineRule with
    matchConfig := mkObj [("domains", arr [str "a.org"]), ("domain_suffixes", arr [str "c.org"])] }

theorem accepted_plainRule : validateRelayPayload db plainRule.nodeId plainRule.exitBindingId
    plainRule.matchType plainRule.matchConfig = .ok () := rfl

end TwoRelays

/-- **A comma in a name is accepted**, and mihomo reads the rule for another domain. -/
theorem comma_rule_not_as_given :
    validateRelayPayload TwoRelays.db TwoRelays.inlineRule.nodeId TwoRelays.inlineRule.exitBindingId
        TwoRelays.inlineRule.matchType TwoRelays.inlineRule.matchConfig = .ok () ∧
      Routed .mihomo TwoRelays.base ⟨[], [], []⟩ ∧
      ¬ RoutesAsGiven .mihomo TwoRelays.inlineRule TwoRelays.base
        (addRelay .mihomo TwoRelays.base (relayTag TwoRelays.inlineRule)
          (ruleSetTag TwoRelays.inlineRule) TwoRelays.inlineRule null) := by
  refine ⟨TwoRelays.accepted_inlineRule, TwoRelays.routed_base, ?_⟩
  rw [routesAsGiven_iff_of_validateMatch TwoRelays.routed_base
    (validateMatch_of_validateRelayPayload TwoRelays.accepted_inlineRule)]
  intro hwell
  obtain ⟨d, hd, -, hplain⟩ := (hwell rfl "domains" (by decide)).1 (str "a.org,b.org")
    (List.mem_singleton_self _)
  cases hd
  exact (hplain rfl).1 (by decide)

theorem routesAsGiven_iff_plainRule :
    RoutesAsGiven .mihomo TwoRelays.plainRule TwoRelays.base
        (addRelay .mihomo TwoRelays.base (relayTag TwoRelays.plainRule)
          (ruleSetTag TwoRelays.plainRule) TwoRelays.plainRule null) ↔
      WellGiven .mihomo TwoRelays.plainRule :=
  routesAsGiven_iff TwoRelays.routed_base TwoRelays.accepted_plainRule null

end ProxyPanel.Hub
