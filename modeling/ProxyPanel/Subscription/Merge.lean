import ProxyPanel.Subscription.Formats

/-!
# Merging into a base configuration

A base configuration without placeholders is parsed, the generated nodes are appended to one
of its arrays and the document is written again.  Assigning under a key of a value that is
neither an object nor `null` panics.  sing-box replaces a value that is no array by a new
array, Clash leaves it and drops the nodes.  `merge_keeps` is what both generators keep.
-/

namespace ProxyPanel.Subscription.Merge

open Json

/-! ### Outcomes -/

/-- A call that may panic. -/
inductive Call (α : Type) where
  | panicked
  | returned (result : PanelResult α)

/-- What is done with a value that may not be there after a panic. -/
def Call.orPanic {α β : Type} (f : α → PanelResult β) : Option α → Call β
  | none => .panicked
  | some a => .returned (f a)

/-- The libraries for the two texts, the schema and the templates with placeholders. -/
structure Texts where
  parseJson : String → Except String Json
  printJson : Json → String
  validate : Json → Except String Unit
  renderTemplate : String → List Json → List String → PanelResult Json
  parseYaml : String → Except String Json
  printYaml : Json → Except String String
  renderYamlTemplate : String → List Json → List String → PanelResult String

/-- `value[key] = v`: `null` becomes an object, any other value that is none panics. -/
def indexAssign (value : Json) (key : String) (v : Json) : Option Json :=
  match value with
  | .null => some (.obj [(key, v)])
  | .obj entries => some (Json.set (.obj entries) key v)
  | _ => none

/-! ### sing-box -/

/-- The outbounds of the base, followed by those of the nodes. -/
def mergeOutbounds (config : Json) (nodeOutbounds : List Json) : Option Json :=
  match config.get "outbounds" with
  | some (.arr outbounds) => some (config.set "outbounds" (.arr (outbounds ++ nodeOutbounds)))
  | _ => indexAssign config "outbounds" (.arr nodeOutbounds)

def validate (t : Texts) (config : Json) : PanelResult Unit :=
  (t.validate config).mapError fun e => .subscription ("sing-box schema: " ++ e)

def hasOutboundPlaceholder (base : String) : Bool :=
  Text.contains base "<OUTBOUND_REPLACE>" || Text.contains base "<NODE_REPLACE>"

/-- The document is checked and written. -/
def finishJson (t : Texts) (config : Json) : PanelResult String := do
  validate t config
  return t.printJson config

def generateSingbox (t : Texts) (nodes : List ProxyNode) (baseConfig : Option String) :
    Call String :=
  let supported := nodes.filter fun node => isSupported .singBox node.protocol
  match supported.mapM buildOutbound with
  | .error e => .returned (.error e)
  | .ok nodeOutbounds =>
    match baseConfig with
    | some base =>
      if hasOutboundPlaceholder base then
        .returned (t.renderTemplate base nodeOutbounds (supported.map (·.name)) >>= finishJson t)
      else
        match t.parseJson base with
        | .error e =>
          .returned (.error (.subscription ("failed to parse sing-box template json: " ++ e)))
        | .ok config => Call.orPanic (finishJson t) (mergeOutbounds config nodeOutbounds)
    | none =>
      let outbounds := if nodeOutbounds = [] then
          [mkObj [("type", .str "direct"), ("tag", .str "direct")]]
        else nodeOutbounds
      .returned (finishJson t (.obj [("outbounds", .arr outbounds)]))

/-! ### Clash -/

def defaultProxyGroups (proxyNames : List String) : Json :=
  .arr [mkObj [("name", .str "Proxy"), ("type", .str "select"),
    ("proxies", .arr (proxyNames.map .str))]]

/-- An entry that is not there is assigned. -/
def assignMissing (value : Json) (key : String) (v : Json) : Option Json :=
  if (value.get key).isNone then indexAssign value key v else some value

/-- The nodes are appended to an array, and to nothing else. -/
def appendProxies (base : Json) (proxies : List Json) : Json :=
  match base.get "proxies" with
  | some (.arr baseProxies) => base.set "proxies" (.arr (baseProxies ++ proxies))
  | _ => base

def mergeProxies (base : Json) (proxies : List Json) (proxyNames : List String) : Option Json := do
  let base ← assignMissing base "proxies" (.arr [])
  assignMissing (appendProxies base proxies) "proxy-groups" (defaultProxyGroups proxyNames)

def hasProxyPlaceholder (base : String) : Bool :=
  Text.contains (Text.trim base) "<PROXY_REPLACE>" ||
    Text.contains (Text.trim base) "<NODE_REPLACE>"

def finishYaml (t : Texts) (value : Json) : PanelResult String :=
  (t.printYaml value).mapError fun e => .subscription ("failed to serialize clash yaml: " ++ e)

def generateClash (t : Texts) (nodes : List ProxyNode) (baseConfig : Option String) :
    Call String :=
  let proxyNames := nodes.map (·.name)
  match nodes.mapM buildProxy with
  | .error e => .returned (.error e)
  | .ok proxies =>
    match baseConfig with
    | some base =>
      if hasProxyPlaceholder base then .returned (t.renderYamlTemplate base proxies proxyNames)
      else
        match t.parseYaml base with
        | .error e =>
          .returned (.error (.subscription ("failed to parse clash template yaml: " ++ e)))
        | .ok value => Call.orPanic (finishYaml t) (mergeProxies value proxies proxyNames)
    | none => .returned (finishYaml t (mkObj [("proxies", .arr proxies),
        ("proxy-groups", defaultProxyGroups proxyNames)]))

/-! ### What a merge keeps -/

/-- A value that can be assigned to under a key. -/
def IsDocument (value : Json) : Prop := value = .null ∨ value.isObject = true

/-- The items of an array of the document; a value that is no array has none. -/
def itemsOf (value : Json) (key : String) : List Json := (value.getArr key).getD []

/-- The entries of the base under other keys are there, and under the key the items of the base
are followed by what was generated. -/
structure Keeps (key : String) (base doc : Json) (generated : List Json) : Prop where
  entries : ∀ k v, k ≠ key → base.get k = some v → doc.get k = some v
  items : doc.get key = some (.arr (itemsOf base key ++ generated))

section Assign

variable {value doc : Json} {key : String} {v : Json}

theorem indexAssign_eq_none_iff : indexAssign value key v = none ↔ ¬IsDocument value := by
  cases value with
  | null => exact iff_of_false nofun (fun h => h (Or.inl rfl))
  | obj entries => exact iff_of_false nofun (fun h => h (Or.inr rfl))
  | bool b => exact iff_of_true rfl (by rintro (h | h) <;> cases h)
  | num n => exact iff_of_true rfl (by rintro (h | h) <;> cases h)
  | float text => exact iff_of_true rfl (by rintro (h | h) <;> cases h)
  | str s => exact iff_of_true rfl (by rintro (h | h) <;> cases h)
  | arr items => exact iff_of_true rfl (by rintro (h | h) <;> cases h)

theorem indexAssign_spec (h : indexAssign value key v = some doc) :
    doc.isObject = true ∧ doc.get key = some v ∧
      ∀ k w, k ≠ key → value.get k = some w → doc.get k = some w := by
  cases value with
  | null =>
    cases h
    exact ⟨rfl, by simp [Json.get], fun k w _ hw => nomatch hw⟩
  | obj entries =>
    cases h
    exact ⟨isObject_set _ _ _, get_set_self rfl key v, fun k w hk hw => by
      rw [get_set_of_ne _ hk]; exact hw⟩
  | bool b => cases h
  | num n => cases h
  | float text => cases h
  | str s => cases h
  | arr items => cases h

theorem isDocument_of_get {w : Json} (h : value.get key = some w) : value.isObject = true := by
  cases value with
  | obj entries => rfl
  | null => cases h
  | bool b => cases h
  | num n => cases h
  | float text => cases h
  | str s => cases h
  | arr items => cases h

theorem itemsOf_eq_nil (h : ∀ items, value.get key ≠ some (.arr items)) :
    itemsOf value key = [] := by
  rw [itemsOf, getArr]
  cases hget : value.get key with
  | none => rfl
  | some w =>
    cases w with
    | arr items => exact absurd hget (h items)
    | _ => rfl

end Assign

/-- **Merging into sing-box**: only a value that is neither an object nor `null` panics. -/
theorem mergeOutbounds_spec (config : Json) (nodeOutbounds : List Json) :
    (mergeOutbounds config nodeOutbounds = none ↔ ¬IsDocument config) ∧
      ∀ doc, mergeOutbounds config nodeOutbounds = some doc →
        Keeps "outbounds" config doc nodeOutbounds := by
  unfold mergeOutbounds
  split
  · rename_i outbounds hget
    refine ⟨iff_of_false nofun (fun h => h (Or.inr (isDocument_of_get hget))), fun doc hdoc => ?_⟩
    cases hdoc
    refine ⟨fun k w hk hw => by rw [get_set_of_ne _ hk]; exact hw, ?_⟩
    rw [get_set_self (isDocument_of_get hget), itemsOf, getArr, hget]
    rfl
  · rename_i hnone
    refine ⟨indexAssign_eq_none_iff, fun doc hdoc => ?_⟩
    obtain ⟨-, hkey, hrest⟩ := indexAssign_spec hdoc
    refine ⟨hrest, ?_⟩
    rw [itemsOf_eq_nil hnone, List.nil_append]
    exact hkey

theorem assignMissing_spec {value doc : Json} {key : String} {v : Json}
    (h : assignMissing value key v = some doc) : doc.isObject = true ∧
      doc.get key = some ((value.get key).getD v) ∧
      ∀ k w, k ≠ key → value.get k = some w → doc.get k = some w := by
  unfold assignMissing at h
  cases hget : value.get key with
  | none =>
    rw [hget, Option.isNone_none, if_pos rfl] at h
    exact indexAssign_spec h
  | some w =>
    rw [hget, Option.isNone_some, if_neg Bool.false_ne_true] at h
    cases h
    exact ⟨isDocument_of_get hget, hget, fun _ _ _ h => h⟩

theorem assignMissing_eq_none_iff {value : Json} {key : String} {v : Json} :
    assignMissing value key v = none ↔ ¬IsDocument value := by
  unfold assignMissing
  cases hget : value.get key with
  | none => exact indexAssign_eq_none_iff
  | some w => exact iff_of_false nofun (fun h => h (Or.inr (isDocument_of_get hget)))

theorem appendProxies_spec {base : Json} (h : base.isObject = true) (proxies : List Json) :
    (appendProxies base proxies).isObject = true ∧
      (∀ items, base.get "proxies" = some (.arr items) →
        (appendProxies base proxies).get "proxies" = some (.arr (items ++ proxies))) ∧
      ∀ k, k ≠ "proxies" → (appendProxies base proxies).get k = base.get k := by
  unfold appendProxies
  split
  · rename_i items hget
    refine ⟨by rw [isObject_set]; exact h, fun items' hitems => ?_,
      fun k hk => get_set_of_ne _ hk _⟩
    cases hget.symm.trans hitems
    exact get_set_self h _ _
  · rename_i hnone
    exact ⟨h, fun items hitems => absurd hitems (hnone items), fun _ _ => rfl⟩

/-- **Merging into Clash**: likewise, and the nodes are appended if `proxies` is an array or not
there. -/
theorem mergeProxies_spec (base : Json) (proxies : List Json) (proxyNames : List String) :
    (mergeProxies base proxies proxyNames = none ↔ ¬IsDocument base) ∧
      ∀ doc, mergeProxies base proxies proxyNames = some doc →
        (∀ v, base.get "proxies" = some v → v.isArray = true) →
        Keeps "proxies" base doc proxies := by
  unfold mergeProxies
  cases hfirst : assignMissing base "proxies" (.arr []) with
  | none => exact ⟨iff_of_true rfl (assignMissing_eq_none_iff.mp hfirst), nofun⟩
  | some value =>
    have hdocument : IsDocument base := not_not.mp fun h =>
      nomatch hfirst.symm.trans (assignMissing_eq_none_iff.mpr h)
    obtain ⟨hobject, hproxies, hentries⟩ := assignMissing_spec hfirst
    obtain ⟨happended, hitems, hothers⟩ := appendProxies_spec hobject proxies
    refine ⟨iff_of_false (fun h => ?_) (not_not.mpr hdocument), fun doc hdoc harray => ?_⟩
    · exact assignMissing_eq_none_iff.mp h (Or.inr happended)
    obtain ⟨-, hgroups, hrest⟩ := assignMissing_spec hdoc
    have hvalue : value.get "proxies" = some (.arr (itemsOf base "proxies")) := by
      rw [hproxies, itemsOf, getArr]
      cases hbase : base.get "proxies" with
      | none => rfl
      | some v =>
        cases v with
        | arr items => rfl
        | _ => cases harray _ hbase
    refine ⟨fun k w hk hw => ?_, ?_⟩
    · have happend : (appendProxies value proxies).get k = some w := by
        rw [hothers k hk]
        exact hentries k w hk hw
      by_cases hkey : k = "proxy-groups"
      · rw [hkey] at happend ⊢
        rw [hgroups, happend, Option.getD_some]
      · exact hrest k w hkey happend
    · exact hrest _ _ (by decide) (hitems _ hvalue)

/-! ### The generators -/

section Generate

variable {t : Texts} {nodes : List ProxyNode} {base : String}

/-- A sing-box base that is merged, or an error before that. -/
theorem generateSingbox_merge (hplaceholder : hasOutboundPlaceholder base = false) :
    (∃ e, generateSingbox t nodes (some base) = .returned (.error e)) ∨
    ∃ config outbounds, t.parseJson base = .ok config ∧
      (nodes.filter fun node => isSupported .singBox node.protocol).mapM buildOutbound =
        .ok outbounds ∧
      generateSingbox t nodes (some base) =
        Call.orPanic (finishJson t) (mergeOutbounds config outbounds) := by
  cases hnodes : (nodes.filter fun node => isSupported .singBox node.protocol).mapM
    buildOutbound with
  | error e =>
    refine Or.inl ⟨e, ?_⟩
    simp only [generateSingbox, hnodes]
  | ok outbounds =>
    cases hparse : t.parseJson base with
    | error e =>
      refine Or.inl ⟨.subscription ("failed to parse sing-box template json: " ++ e), ?_⟩
      simp only [generateSingbox, hnodes, hplaceholder, hparse, Bool.false_eq_true, if_false]
    | ok config =>
      refine Or.inr ⟨config, outbounds, rfl, rfl, ?_⟩
      simp only [generateSingbox, hnodes, hplaceholder, hparse, Bool.false_eq_true, if_false]

theorem generateClash_merge (hplaceholder : hasProxyPlaceholder base = false) :
    (∃ e, generateClash t nodes (some base) = .returned (.error e)) ∨
    ∃ value proxies, t.parseYaml base = .ok value ∧ nodes.mapM buildProxy = .ok proxies ∧
      generateClash t nodes (some base) =
        Call.orPanic (finishYaml t) (mergeProxies value proxies (nodes.map (·.name))) := by
  cases hnodes : nodes.mapM buildProxy with
  | error e =>
    refine Or.inl ⟨e, ?_⟩
    simp only [generateClash, hnodes]
  | ok proxies =>
    cases hparse : t.parseYaml base with
    | error e =>
      refine Or.inl ⟨.subscription ("failed to parse clash template yaml: " ++ e), ?_⟩
      simp only [generateClash, hnodes, hplaceholder, hparse, Bool.false_eq_true, if_false]
    | ok value =>
      refine Or.inr ⟨value, proxies, rfl, rfl, ?_⟩
      simp only [generateClash, hnodes, hplaceholder, hparse, Bool.false_eq_true, if_false]

theorem finishJson_cases (t : Texts) (doc : Json) :
    (∃ e, finishJson t doc = .error e) ∨ finishJson t doc = .ok (t.printJson doc) := by
  unfold finishJson validate
  cases t.validate doc with
  | error e => exact Or.inl ⟨_, rfl⟩
  | ok _ => exact Or.inr rfl

theorem finishYaml_cases (t : Texts) (doc : Json) : (∃ e, finishYaml t doc = .error e) ∨
    ∃ text, t.printYaml doc = .ok text ∧ finishYaml t doc = .ok text := by
  unfold finishYaml
  cases t.printYaml doc with
  | error e => exact Or.inl ⟨_, rfl⟩
  | ok text => exact Or.inr ⟨text, rfl, rfl⟩

end Generate

/-- The base parses to a document, if it parses. -/
def ParsesToDocument (parsed : Except String Json) : Prop :=
  ∀ value, parsed = .ok value → IsDocument value

/-- **The merge path keeps everything.**  For a base without placeholders that is an object or
`null` neither generator panics, and a result that is no error has the entries of the base, the
items of its array and after them every node once and in order.  For Clash `proxies` has to be an
array or missing. -/
theorem merge_keeps (t : Texts) (nodes : List ProxyNode) (base : String) :
    (hasOutboundPlaceholder base = false → ParsesToDocument (t.parseJson base) →
      (∃ e, generateSingbox t nodes (some base) = .returned (.error e)) ∨
      ∃ config outbounds doc, t.parseJson base = .ok config ∧
        (nodes.filter fun node => isSupported .singBox node.protocol).mapM buildOutbound =
          .ok outbounds ∧ Keeps "outbounds" config doc outbounds ∧
        generateSingbox t nodes (some base) = .returned (.ok (t.printJson doc))) ∧
    (hasProxyPlaceholder base = false → ParsesToDocument (t.parseYaml base) →
      (∀ value v, t.parseYaml base = .ok value → value.get "proxies" = some v →
        v.isArray = true) →
      (∃ e, generateClash t nodes (some base) = .returned (.error e)) ∨
      ∃ value proxies doc text, t.parseYaml base = .ok value ∧
        nodes.mapM buildProxy = .ok proxies ∧ Keeps "proxies" value doc proxies ∧
        t.printYaml doc = .ok text ∧
        generateClash t nodes (some base) = .returned (.ok text)) := by
  constructor
  · intro hplaceholder hdocument
    rcases @generateSingbox_merge t nodes base hplaceholder with
      herror | ⟨config, outbounds, hparse, hnodes, heq⟩
    · exact Or.inl herror
    obtain ⟨hpanics, hkeeps⟩ := mergeOutbounds_spec config outbounds
    cases hmerge : mergeOutbounds config outbounds with
    | none => exact absurd (hdocument config hparse) (hpanics.mp hmerge)
    | some doc =>
      rw [hmerge, Call.orPanic] at heq
      rw [heq]
      rcases finishJson_cases t doc with ⟨e, he⟩ | hok
      · exact Or.inl ⟨e, by rw [he]⟩
      · exact Or.inr ⟨config, outbounds, doc, hparse, hnodes, hkeeps doc hmerge, by rw [hok]⟩
  · intro hplaceholder hdocument harray
    rcases @generateClash_merge t nodes base hplaceholder with
      herror | ⟨value, proxies, hparse, hnodes, heq⟩
    · exact Or.inl herror
    obtain ⟨hpanics, hkeeps⟩ := mergeProxies_spec value proxies (nodes.map (·.name))
    cases hmerge : mergeProxies value proxies (nodes.map (·.name)) with
    | none => exact absurd (hdocument value hparse) (hpanics.mp hmerge)
    | some doc =>
      rw [hmerge, Call.orPanic] at heq
      rw [heq]
      rcases finishYaml_cases t doc with ⟨e, he⟩ | ⟨text, htext, hok⟩
      · exact Or.inl ⟨e, by rw [he]⟩
      · exact Or.inr ⟨value, proxies, doc, text, hparse, hnodes,
          hkeeps doc hmerge fun v => harray value v hparse, htext, by rw [hok]⟩

namespace NoArray

def node : ProxyNode where
  name := "tokyo"
  protocol := .anytls
  server := "192.0.2.1"
  port := 443
  settings := mkObj [("password", .str "secret")]
  tls := none

/-- A base whose outbounds are an object. -/
def baseText : String := "\x7b\"outbounds\":\x7b\"direct\":true\x7d\x7d"

def baseValue : Json := .obj [("outbounds", .obj [("direct", .bool true)])]

def baseOfArray : String := "[]"

/-- A base with an entry in each array. -/
def listedText : String :=
  "\x7b\"log\":true,\"outbounds\":[\x7b\"tag\":\"direct\"\x7d]," ++
    "\"proxies\":[\x7b\"name\":\"direct\"\x7d]\x7d"

def listedValue : Json :=
  .obj [("log", .bool true), ("outbounds", .arr [.obj [("tag", .str "direct")]]),
    ("proxies", .arr [.obj [("name", .str "direct")]])]

/-- The three bases are parsed. -/
def parsed (text : String) : Except String Json :=
  if text = baseText then .ok baseValue
  else if text = listedText then .ok listedValue
  else .ok (.arr [])

def texts : Texts where
  parseJson := parsed
  printJson := render
  validate _ := .ok ()
  renderTemplate _ _ _ := .ok .null
  parseYaml := parsed
  printYaml doc := .ok doc.render
  renderYamlTemplate _ _ _ := .ok ""

def outbound : Json := singboxAnytls node "secret"

/-- The object is replaced by an array with the node; a base that is an array panics. -/
theorem replaced :
    generateSingbox texts [node] (some baseText) =
        .returned (.ok (texts.printJson (.obj [("outbounds", .arr [outbound])]))) ∧
      mergeOutbounds baseValue [outbound] = some (.obj [("outbounds", .arr [outbound])]) ∧
      generateSingbox texts [node] (some baseOfArray) = .panicked ∧
      generateClash texts [node] (some baseOfArray) = .panicked := by
  refine ⟨?_, rfl, ?_, ?_⟩
  · rfl
  · rfl
  · rfl

theorem keeps_sample :
    (∃ config outbounds doc, texts.parseJson listedText = .ok config ∧
      Keeps "outbounds" config doc outbounds ∧ doc.get "log" = some (.bool true) ∧
      itemsOf config "outbounds" ≠ [] ∧
      generateSingbox texts [node] (some listedText) = .returned (.ok (texts.printJson doc))) ∧
    ∃ value proxies doc text, texts.parseYaml listedText = .ok value ∧
      Keeps "proxies" value doc proxies ∧ doc.get "log" = some (.bool true) ∧
      itemsOf value "proxies" ≠ [] ∧
      generateClash texts [node] (some listedText) = .returned (.ok text) := by
  have hparsed : parsed listedText = .ok listedValue := rfl
  have hdocument : ParsesToDocument (parsed listedText) := by
    rintro value hvalue
    cases hparsed.symm.trans hvalue
    exact Or.inr rfl
  have harray : ∀ value v, parsed listedText = .ok value → value.get "proxies" = some v →
      v.isArray = true := by
    rintro value v hvalue hv
    cases hparsed.symm.trans hvalue
    cases hv
    rfl
  have hkeeps := merge_keeps texts [node] listedText
  constructor
  · rcases hkeeps.1 rfl hdocument with
      ⟨e, he⟩ | ⟨config, outbounds, doc, hparse, -, hdoc, hok⟩
    · cases he
    · refine ⟨config, outbounds, doc, hparse, hdoc, hdoc.entries _ _ (by decide) ?_, ?_, hok⟩ <;>
        cases hparsed.symm.trans hparse
      · rfl
      · decide
  · rcases hkeeps.2 rfl hdocument harray with
      ⟨e, he⟩ | ⟨value, proxies, doc, text, hparse, -, hdoc, -, hok⟩
    · cases he
    · refine ⟨value, proxies, doc, text, hparse, hdoc, hdoc.entries _ _ (by decide) ?_, ?_, hok⟩ <;>
        cases hparsed.symm.trans hparse
      · rfl
      · decide

end NoArray

end ProxyPanel.Subscription.Merge
