import ProxyPanel.Lib.Search
import ProxyPanel.Lib.Splice
import ProxyPanel.Subscription.Merge
import Mathlib.Data.List.TakeWhile

/-!
# Rendering a sing-box template

A template is JSON text with two markers, which are replaced in the text: first the one for the
outbounds, then, in what that gives, the one for the names.  For a template in which the markers
stand as items of arrays, and for outbounds that do not bring the second marker with them, this
is the substitution in the template's value: `renderTemplate_eq` and, for the whole generator,
`generateSingbox_template`.  Names may hold anything, the markers too.
-/

namespace ProxyPanel.Subscription.Rendering

open Builder Json JsonText Merge SettingsHelper

/-! ### The renderer -/

/-- `str::replace`. -/
def replace (s p new : String) : String :=
  String.ofList (replaceAll p.toList new.toList s.toList)

/-- The text without the brackets around it. -/
def stripBrackets (json : String) : String :=
  match json.toList with
  | '[' :: cs => if cs.getLast? = some ']' then String.ofList cs.dropLast else json
  | _ => json

/-- Without elements the marker goes, with the comma beside it. -/
def splicePlaceholder (template quotedMarker inner : String) : String :=
  if Text.trim inner = "" then
    let template := replace template (quotedMarker ++ ", ") ""
    let template := replace template (quotedMarker ++ ",") ""
    let template := replace template (", " ++ quotedMarker) ""
    let template := replace template ("," ++ quotedMarker) ""
    replace template quotedMarker "null"
  else replace template quotedMarker inner

def renderTemplate (parseJson : String → Except String Json) (baseStr : String)
    (outbounds : List Json) (nodeNames : List String) : PanelResult Json :=
  let outboundsInner := stripBrackets (render (.arr outbounds))
  let namesInner := stripBrackets (render (.arr (nodeNames.map .str)))
  let rendered := splicePlaceholder baseStr "\"<OUTBOUND_REPLACE>\"" outboundsInner
  let rendered := splicePlaceholder rendered "\"<NODE_REPLACE>\"" namesInner
  (parseJson rendered).mapError fun e =>
    .subscription ("failed to render subscription template: " ++ e)

/-! ### Templates -/

def outboundMark : List Char := "<OUTBOUND_REPLACE>".toList

def nodeMark : List Char := "<NODE_REPLACE>".toList

theorem marker_outboundMark : Marker outboundMark where
  ne_nil := by decide
  noQuote := by decide
  plain := by decide
  begins c hc := by
    cases hc
    decide

theorem marker_nodeMark : Marker nodeMark where
  ne_nil := by decide
  noQuote := by decide
  plain := by decide
  begins c hc := by
    cases hc
    decide

/-- A JSON document in which the markers are items of arrays, with space around it. -/
structure Template (readScalar : List Char → Option Json) where
  before : List Char
  doc : Doc
  after : List Char
  spaceBefore : before.all isSpace = true
  spaceAfter : after.all isSpace = true
  wellFormed : doc.WellFormed readScalar
  cleanOutbounds : doc.Clean outboundMark
  cleanNodes : doc.Clean nodeMark
  depth : doc.depth ≤ 124

def Template.text {readScalar : List Char → Option Json} (template : Template readScalar) :
    String :=
  String.ofList (template.before ++ (template.doc.chars ++ template.after))

/-- The value with the outbounds and the names in the place of the markers. -/
def rendered (value : Json) (outbounds : List Json) (nodeNames : List String) : Json :=
  substitute "<NODE_REPLACE>" (nodeNames.map .str)
    (substitute "<OUTBOUND_REPLACE>" outbounds value)

/-- The parser reads constants and machine words as they are written, and every document whose
nesting is within its limit. -/
structure ParserReads (parseJson : String → Except String Json)
    (readScalar : List Char → Option Json) : Prop where
  bools : ∀ b, ScalarReads readScalar (.bool b)
  nums : ∀ n : Int, -2 ^ 63 ≤ n → n < 2 ^ 64 → ScalarReads readScalar (.num n)
  docs : ∀ (d : Doc) (before after : List Char), d.WellFormed readScalar → d.depth ≤ 127 →
    before.all isSpace = true → after.all isSpace = true →
    parseJson (String.ofList (before ++ (d.chars ++ after))) = .ok d.value

/-! ### The outbounds of nodes -/

section Outbounds

variable {parseJson : String → Except String Json} {readScalar : List Char → Option Json}

theorem laysObject_setSome {n : Nat} {j : Json} (h : LaysObject readScalar n j) (k : String)
    {o : Option Json} (ho : ∀ v ∈ o, Lays readScalar n v) :
    LaysObject readScalar n (setSome j k o) := by
  cases o with
  | none => exact h
  | some v => exact h.setIndex k (ho v rfl)

theorem laysObject_ite {n : Nat} {j v : Json} (h : LaysObject readScalar n j) (c : Prop)
    [Decidable c] (k : String) (hv : Lays readScalar n v) :
    LaysObject readScalar n (if c then j else j.setIndex k v) := by
  split_ifs
  · exact h
  · exact h.setIndex k hv

theorem lays_u64 (h : ParserReads parseJson readScalar) {n u : Nat} (hu : u < 2 ^ 64) :
    Lays readScalar n (.num u) :=
  lays_num (h.nums u (by omega) (by exact_mod_cast hu))

theorem getU64_lt {j : Json} {k : String} {n : Nat} (h : j.getU64 k = some n) : n < 2 ^ 64 := by
  obtain ⟨v, -, hv⟩ := Option.bind_eq_some_iff.mp h
  cases v with
  | num i =>
    rw [asU64] at hv
    split_ifs at hv with hrange
    cases hv
    omega
  | null => cases hv
  | bool b => cases hv
  | float t => cases hv
  | str s => cases hv
  | arr xs => cases hv
  | obj es => cases hv

theorem lays_strs {n : Nat} (ss : List String) : Lays readScalar (n + 1) (strs ss) := by
  refine lays_arr fun x hx => ?_
  obtain ⟨s, -, rfl⟩ := List.mem_map.mp hx
  exact lays_str s

theorem lays_strOr {n : Nat} (j : Json) (k d : String) : Lays readScalar n (strOr j k d) :=
  lays_str _

theorem lays_strOption {n : Nat} (o : Option String) :
    ∀ v ∈ o.map Json.str, Lays readScalar n v := by
  intro v hv
  obtain ⟨s, -, rfl⟩ := Option.map_eq_some_iff.mp hv
  exact lays_str s

theorem lays_u64Option (h : ParserReads parseJson readScalar) {n : Nat} (j : Json) (k : String) :
    ∀ v ∈ (j.getU64 k).map (fun u => Json.num u), Lays readScalar n v := by
  intro v hv
  obtain ⟨u, hu, rfl⟩ := Option.map_eq_some_iff.mp hv
  obtain ⟨n, hn, hu⟩ := Option.bind_eq_some_iff.mp hu
  cases hu
  exact lays_u64 h (getU64_lt hn)

variable {node : ProxyNode}

theorem laysObject_vlessReality (h : ParserReads parseJson readScalar) (hport : node.port < 2 ^ 16)
    {uuid : String} {j : Json} (hbuild : singboxVlessReality node uuid = .ok j) :
    LaysObject readScalar 2 j := by
  have hbool (n : Nat) (b : Bool) : Lays readScalar n (.bool b) := lays_bool (h.bools b)
  rw [singboxVlessReality] at hbuild
  cases hkey : required "missing REALITY public_key" (getNonEmpty node.settings "public_key") with
  | error e =>
    rw [hkey] at hbuild
    cases hbuild
  | ok publicKey =>
    rw [hkey] at hbuild
    cases hbuild
    refine LaysObject.setIndex ?_ "tls" (LaysObject.lays (laysObject_mkObj ?_))
    · -- the transport and the flow are set on the node's own fields
      have hnode : LaysObject readScalar 2 (mkObj [("type", str "vless"), ("tag", str node.name),
          ("server", str node.server), ("server_port", num node.port), ("uuid", str uuid),
          ("packet_encoding", str "xudp")]) := by
        refine laysObject_mkObj ?_
        simp only [List.forall_mem_cons, List.not_mem_nil, false_imp_iff, implies_true, and_true]
        exact ⟨lays_str _, lays_str _, lays_str _, lays_u64 h (by omega), lays_str _, lays_str _⟩
      have htransport (network : String) : LaysObject readScalar 1
          (setSome (setSome (mkObj [("type", str network)]) "path"
            ((node.settings.getStr "path").map str)) "host"
            ((node.settings.getStr "host").map str)) := by
        refine laysObject_setSome (laysObject_setSome (laysObject_mkObj ?_) "path"
          (lays_strOption _)) "host" (lays_strOption _)
        exact List.forall_mem_singleton.mpr (lays_str _)
      exact laysObject_ite (laysObject_ite hnode _ "flow" (lays_str _)) _ "transport"
        (htransport _).lays
    · have hreality : LaysObject readScalar 0 (mkObj [("enabled", bool true),
          ("public_key", str publicKey),
          ("short_id", str ((firstShortId node.settings).getD ""))]) := by
        refine laysObject_mkObj ?_
        simp only [List.forall_mem_cons, List.not_mem_nil, false_imp_iff, implies_true, and_true]
        exact ⟨hbool 0 true, lays_str _, lays_str _⟩
      have hutls : LaysObject readScalar 0 (mkObj [("enabled", bool true),
          ("fingerprint", strOr node.settings "fingerprint" "chrome")]) := by
        refine laysObject_mkObj ?_
        simp only [List.forall_mem_cons, List.not_mem_nil, false_imp_iff, implies_true, and_true]
        exact ⟨hbool 0 true, lays_strOr _ _ _⟩
      simp only [List.forall_mem_cons, List.not_mem_nil, false_imp_iff, implies_true, and_true]
      exact ⟨hbool 1 true, lays_str _, hutls.lays,
        (laysObject_ite hreality _ "spider_x" (lays_str _)).lays⟩

theorem lays_serverTls (h : ParserReads parseJson readScalar) (extra : List (String × Json))
    (hextra : ∀ e ∈ extra, Lays readScalar 1 e.2) :
    Lays readScalar 2 (mkObj (singboxServerTls node ++ extra)) := by
  refine LaysObject.lays (laysObject_mkObj fun e he => ?_)
  rcases List.mem_append.mp he with he | he
  · have htls : ∀ e ∈ singboxServerTls node, Lays readScalar 1 e.2 := by
      simp only [singboxServerTls, List.forall_mem_cons, List.not_mem_nil, false_imp_iff,
        implies_true, and_true]
      exact ⟨lays_bool (h.bools true), lays_str _, lays_bool (h.bools _)⟩
    exact htls e he
  · exact hextra e he

theorem laysObject_hysteria2 (h : ParserReads parseJson readScalar) (hport : node.port < 2 ^ 16)
    (password : String) : LaysObject readScalar 2 (singboxHysteria2 node password) := by
  have hnode : LaysObject readScalar 2 (mkObj [("type", str "hysteria2"), ("tag", str node.name),
      ("server", str node.server), ("server_port", num node.port), ("password", str password),
      ("tls", mkObj (singboxServerTls node ++ [("alpn", strs ["h3"])]))]) := by
    refine laysObject_mkObj ?_
    simp only [List.forall_mem_cons, List.not_mem_nil, false_imp_iff, implies_true, and_true]
    exact ⟨lays_str _, lays_str _, lays_str _, lays_u64 h (by omega), lays_str _,
      lays_serverTls h _ (List.forall_mem_singleton.mpr (lays_strs _))⟩
  have hspeed := laysObject_setSome (laysObject_setSome hnode "up_mbps" (lays_u64Option h
    node.settings "up_mbps")) "down_mbps" (lays_u64Option h node.settings "down_mbps")
  rw [singboxHysteria2]
  split
  · split_ifs
    · exact hspeed
    · refine hspeed.setIndex "obfs" ((LaysObject.lays (laysObject_mkObj ?_)).mono (Nat.le_refl 2))
      simp only [List.forall_mem_cons, List.not_mem_nil, false_imp_iff, implies_true, and_true]
      exact ⟨lays_str _, lays_str _⟩
  · exact hspeed

theorem laysObject_anytls (h : ParserReads parseJson readScalar) (hport : node.port < 2 ^ 16)
    (password : String) : LaysObject readScalar 2 (singboxAnytls node password) := by
  have htls := @lays_serverTls _ _ node h [] (List.forall_mem_nil _)
  rw [List.append_nil] at htls
  refine laysObject_mkObj ?_
  simp only [List.forall_mem_cons, List.not_mem_nil, false_imp_iff, implies_true, and_true]
  exact ⟨lays_str _, lays_str _, lays_str _, lays_u64 h (by omega), lays_str _, htls⟩

/-- **Every outbound is laid out** with a depth of at most three. -/
theorem laysObject_buildOutbound (h : ParserReads parseJson readScalar)
    (hport : node.port < 2 ^ 16) {j : Json} (hbuild : buildOutbound node = .ok j) :
    LaysObject readScalar 2 j := by
  rw [buildOutbound] at hbuild
  cases hprotocol : node.protocol with
  | vlessReality =>
    rw [hprotocol] at hbuild
    cases huuid : required "missing vless uuid" (clientUuid node.settings) with
    | error e =>
      simp only [huuid] at hbuild
      cases hbuild
    | ok uuid =>
      simp only [huuid] at hbuild
      exact laysObject_vlessReality h hport hbuild
  | vlessXhttp =>
    rw [hprotocol] at hbuild
    cases hbuild
  | hysteria2 =>
    rw [hprotocol] at hbuild
    cases hpassword : required "missing hysteria2 password" (clientPassword node.settings) with
    | error e =>
      simp only [hpassword] at hbuild
      cases hbuild
    | ok password =>
      simp only [hpassword] at hbuild
      cases hbuild
      exact laysObject_hysteria2 h hport password
  | anytls =>
    rw [hprotocol] at hbuild
    cases hpassword : required "missing anytls password" (clientPassword node.settings) with
    | error e =>
      simp only [hpassword] at hbuild
      cases hbuild
    | ok password =>
      simp only [hpassword] at hbuild
      cases hbuild
      exact laysObject_anytls h hport password

end Outbounds

/-! ### The splice on a template -/

section Rendered

variable {parseJson : String → Except String Json} {readScalar : List Char → Option Json}

theorem trim_ne_empty {s : String} {c : Char} {cs : List Char} (hs : s.toList = c :: cs)
    (hc : Text.isWhite c = false) : Text.trim s ≠ "" := by
  have hkept : (c :: cs).dropWhile Text.isWhite = c :: cs :=
    List.dropWhile_cons_of_neg (by rw [hc]; exact Bool.false_ne_true)
  intro htrim
  have hempty : ((c :: cs).reverse.dropWhile Text.isWhite).reverse = [] := by
    rw [← hkept, ← hs]
    have hlist := congrArg String.toList htrim
    rw [Text.trim, String.toList_ofList] at hlist
    exact hlist
  have hall : ∀ x ∈ (c :: cs).reverse, Text.isWhite x = true :=
    List.dropWhile_eq_nil_iff.mp (List.reverse_eq_nil_iff.mp hempty)
  have hwhite := hall c (List.mem_reverse.mpr List.mem_cons_self)
  rw [hc] at hwhite
  cases hwhite

/-- The elements between the brackets. -/
theorem stripBrackets_render (xs : List Json) :
    stripBrackets (render (.arr xs)) = String.ofList (joined (docs xs)) := by
  have hchars : (render (.arr xs)).toList = '[' :: (joined (docs xs) ++ [']']) := by
    rw [← chars_ofJson, Doc.ofJson, Doc.chars_ofDocs]
  rw [stripBrackets, hchars]
  change (if (joined (docs xs) ++ [']']).getLast? = some ']' then
    String.ofList (joined (docs xs) ++ [']']).dropLast else _) = _
  rw [List.getLast?_concat, if_pos rfl, List.dropLast_concat]

/-- The elements begin with a quote or with a bracket. -/
theorem splicePlaceholder_docs (template quotedMarker : String) {x : Json} (xs : List Json)
    (hx : x.isObject = true ∨ ∃ s, x = .str s) :
    splicePlaceholder template quotedMarker (stripBrackets (render (.arr (x :: xs)))) =
      replace template quotedMarker (String.ofList (joined (docs (x :: xs)))) := by
  have hfirst : ∃ c cs, joined (docs (x :: xs)) = c :: cs ∧ Text.isWhite c = false := by
    have hdoc : ∃ c cs, (Doc.ofJson x).chars = c :: cs ∧ Text.isWhite c = false := by
      rcases hx with hx | ⟨s, rfl⟩
      · obtain ⟨es, rfl⟩ := exists_entries_of_isObject hx
        rw [Doc.ofJson, Doc.chars_ofEntries]
        exact ⟨'\x7b', _, rfl, by decide⟩
      · rw [Doc.ofJson, Doc.chars, quoted]
        exact ⟨'"', _, rfl, by decide⟩
    obtain ⟨c, cs, hcs, hc⟩ := hdoc
    rw [docs]
    cases docs xs with
    | nil => exact ⟨c, cs, by rw [joined_singleton, hcs], hc⟩
    | cons d ds => exact ⟨c, _, by rw [joined_cons, hcs, List.cons_append], hc⟩
  obtain ⟨c, cs, hcs, hc⟩ := hfirst
  rw [stripBrackets_render, splicePlaceholder, if_neg]
  exact trim_ne_empty (by rw [String.toList_ofList, hcs]) hc

theorem replace_chars (s : List Char) (p : String) (new : List Char) :
    replace (String.ofList s) p (String.ofList new) =
      String.ofList (replaceAll p.toList new s) := by
  rw [replace, String.toList_ofList, String.toList_ofList]

/-- The replacement on a document with space around it. -/
theorem replaceAll_template {m : List Char} (hm : Marker m) {d : Doc} {before after : List Char}
    (hbefore : before.all isSpace = true) (hafter : after.all isSpace = true)
    (h : d.WellFormed readScalar) (hclean : d.Clean m) (first : Doc) (more : List Doc) :
    replaceAll (quoted m) (joined (first :: more)) (before ++ (d.chars ++ after)) =
      before ++ ((Doc.splice m first more d).chars ++ after) := by
  have hend : replaceAll (quoted m) (joined (first :: more)) after = after := by
    rw [← List.append_nil after, replaceAll_plain (not_mem_of_isSpace hafter)]
    rfl
  rw [replaceAll_plain (not_mem_of_isSpace hbefore),
    replaceAll_chars hm after h hclean (follows_of_isSpace hafter), hend]

/-- **Rendering is the substitution in the value.** -/
theorem renderTemplate_eq (hreads : ParserReads parseJson readScalar)
    (template : Template readScalar) {outbounds : List Json} {nodeNames : List String}
    (houtbounds : outbounds ≠ []) (hnames : nodeNames ≠ [])
    (hlays : ∀ o ∈ outbounds, LaysObject readScalar 2 o)
    (hsilent : ∀ o ∈ outbounds, ¬ quoted nodeMark <:+: o.render.toList) :
    renderTemplate parseJson template.text outbounds nodeNames =
      .ok (rendered template.doc.value outbounds nodeNames) := by
  obtain ⟨o, os, rfl⟩ := List.exists_cons_of_ne_nil houtbounds
  obtain ⟨name, ns, rfl⟩ := List.exists_cons_of_ne_nil hnames
  have hobject : o.isObject = true := by
    obtain ⟨es, rfl, -⟩ := hlays o List.mem_cons_self
    rfl
  -- the documents that are spliced
  have hlaid : CanonicalItems readScalar (o :: os) :=
    canonicalItems_iff.mpr fun x hx => (hlays x hx).lays.canonical
  have hnamed : CanonicalItems readScalar ((name :: ns).map Json.str) := by
    refine canonicalItems_iff.mpr fun x hx => ?_
    obtain ⟨s, -, rfl⟩ := List.mem_map.mp hx
    exact (lays_str (n := 0) s).canonical
  have houtDepth : ∀ d ∈ docs (o :: os), d.depth ≤ 3 := by
    intro d hd
    obtain ⟨x, hx, rfl⟩ := mem_docs hd
    exact (hlays x hx).lays.depth
  have hnameDepth : ∀ d ∈ docs ((name :: ns).map Json.str), d.depth ≤ 0 := by
    intro d hd
    obtain ⟨x, hx, rfl⟩ := mem_docs hd
    obtain ⟨s, -, rfl⟩ := List.mem_map.mp hx
    exact (lays_str s : Lays readScalar 0 (.str s)).depth
  -- the document after each of the two replacements
  have hclean : ∀ d ∈ docs (o :: os), d.isMark nodeMark = true ∨ d.Clean nodeMark :=
    fun d hd => Or.inr (clean_docs marker_nodeMark hsilent d hd)
  have hfirst := wellFormed_splice (m := outboundMark) (wellFormed_docs hlaid) template.wellFormed
  have hnodes := clean_splice (m := outboundMark) hclean template.cleanNodes
  have hsecond := wellFormed_splice (m := nodeMark) (wellFormed_docs hnamed) hfirst
  have hdepth := depth_splice (m := outboundMark) houtDepth template.doc
  have hdepth' := depth_splice (m := nodeMark) hnameDepth
    (Doc.splice outboundMark (Doc.ofJson o) (docs os) template.doc)
  have hlimit := template.depth
  have hparse := hreads.docs _ template.before template.after hsecond (by omega)
    template.spaceBefore template.spaceAfter
  -- the text after each of the two replacements
  have hpass : splicePlaceholder template.text "\"<OUTBOUND_REPLACE>\""
      (stripBrackets (render (.arr (o :: os)))) = String.ofList (template.before ++
        ((Doc.splice outboundMark (Doc.ofJson o) (docs os) template.doc).chars ++
          template.after)) := by
    rw [splicePlaceholder_docs _ _ os (Or.inl hobject), Template.text, replace_chars]
    exact congrArg String.ofList (replaceAll_template marker_outboundMark template.spaceBefore
      template.spaceAfter template.wellFormed template.cleanOutbounds (Doc.ofJson o) (docs os))
  have hpass' := splicePlaceholder_docs (String.ofList (template.before ++
    ((Doc.splice outboundMark (Doc.ofJson o) (docs os) template.doc).chars ++ template.after)))
    "\"<NODE_REPLACE>\"" (ns.map Json.str) (Or.inr ⟨name, rfl⟩)
  have hreplaced := replaceAll_template marker_nodeMark template.spaceBefore template.spaceAfter
    hfirst hnodes (Doc.ofJson (.str name)) (docs (ns.map Json.str))
  have hvalue : (Doc.splice nodeMark (Doc.ofJson (.str name)) (docs (ns.map Json.str))
      (Doc.splice outboundMark (Doc.ofJson o) (docs os) template.doc)).value =
        rendered template.doc.value (o :: os) (name :: ns) := by
    rw [value_splice hfirst hnodes, value_splice template.wellFormed template.cleanOutbounds]
    exact congrArg₂ (fun new inner => substitute "<NODE_REPLACE>" new
      (substitute "<OUTBOUND_REPLACE>" inner template.doc.value)) (value_docs hnamed)
      (value_docs hlaid)
  have htext : splicePlaceholder (splicePlaceholder template.text "\"<OUTBOUND_REPLACE>\""
      (stripBrackets (render (.arr (o :: os))))) "\"<NODE_REPLACE>\""
      (stripBrackets (render (.arr ((name :: ns).map Json.str)))) =
        String.ofList (template.before ++ ((Doc.splice nodeMark (Doc.ofJson (.str name))
          (docs (ns.map Json.str)) (Doc.splice outboundMark (Doc.ofJson o) (docs os)
            template.doc)).chars ++ template.after)) := by
    rw [hpass, List.map_cons, hpass', replace_chars]
    exact congrArg String.ofList hreplaced
  rw [renderTemplate, htext]
  refine (congrArg (Except.mapError _) hparse).trans ?_
  rw [hvalue]
  rfl

theorem outbounds_of_mapM {nodes : List ProxyNode} {outbounds : List Json}
    (h : nodes.mapM buildOutbound = .ok outbounds) :
    (∀ o ∈ outbounds, ∃ node ∈ nodes, buildOutbound node = .ok o) ∧
      outbounds.length = nodes.length := by
  induction nodes generalizing outbounds with
  | nil =>
    cases h
    exact ⟨List.forall_mem_nil _, rfl⟩
  | cons node nodes ih =>
    rw [List.mapM_cons] at h
    obtain ⟨o, ho, h⟩ := Except.bind_eq_ok h
    obtain ⟨os, hos, h⟩ := Except.bind_eq_ok h
    cases h
    obtain ⟨hfrom, hlength⟩ := ih hos
    refine ⟨List.forall_mem_cons.mpr ⟨⟨node, List.mem_cons_self, ho⟩, fun x hx => ?_⟩,
      congrArg Nat.succ hlength⟩
    obtain ⟨n, hn, hx⟩ := hfrom x hx
    exact ⟨n, List.mem_cons_of_mem node hn, hx⟩

/-- **A sing-box subscription from a template** is the template's value with the outbounds and
the names of its nodes in the place of the markers, checked and written. -/
theorem generateSingbox_template {t : Texts}
    (hrender : t.renderTemplate = renderTemplate t.parseJson)
    (hreads : ParserReads t.parseJson readScalar) (template : Template readScalar)
    (hplaceholder : hasOutboundPlaceholder template.text = true) {nodes : List ProxyNode}
    (hports : ∀ node ∈ nodes, node.port < 2 ^ 16) {outbounds : List Json}
    (hbuild : (nodes.filter fun node => isSupported .singBox node.protocol).mapM buildOutbound =
      .ok outbounds) (hne : outbounds ≠ [])
    (hsilent : ∀ o ∈ outbounds, ¬ quoted nodeMark <:+: o.render.toList) :
    generateSingbox t nodes (some template.text) =
      .returned (finishJson t (rendered template.doc.value outbounds
        ((nodes.filter fun node => isSupported .singBox node.protocol).map (·.name)))) := by
  obtain ⟨hbuilt, hlength⟩ := outbounds_of_mapM hbuild
  have hlays : ∀ o ∈ outbounds, LaysObject readScalar 2 o := by
    intro o ho
    obtain ⟨node, hnode, ho⟩ := hbuilt o ho
    exact laysObject_buildOutbound hreads (hports node (List.mem_of_mem_filter hnode)) ho
  have hnames : (nodes.filter fun node =>
      isSupported .singBox node.protocol).map (·.name) ≠ [] := by
    intro hnil
    rw [List.map_eq_nil_iff.mp hnil] at hlength
    exact hne (List.length_eq_zero_iff.mp hlength)
  rw [generateSingbox]
  simp only [hbuild, hplaceholder, if_true]
  rw [hrender, renderTemplate_eq hreads template hne hnames hlays hsilent]
  rfl

end Rendered

namespace OneTemplate

/-- The constants and the integers. -/
def readScalar (text : List Char) : Option Json :=
  if text = "null".toList then some .null
  else if text = "true".toList then some (.bool true)
  else if text = "false".toList then some (.bool false)
  else (Text.parseInt (String.ofList text)).map Json.num

def parseJson (text : String) : Except String Json :=
  match JsonText.parse readScalar text.toList with
  | some value => .ok value
  | none => .error "expected value"

theorem parserReads : ParserReads parseJson readScalar where
  bools b := by cases b <;> exact ⟨by decide, by decide, rfl⟩
  nums n _ _ := by
    have hchar : ∀ c ∈ (toString n).toList, c = '-' ∨ c.isDigit = true := fun c => Text.mem_toString
    have hne (word : String) (c : Char) (hc : c ∈ word.toList) (hminus : c ≠ '-')
        (hdigit : c.isDigit = false) : (toString n).toList ≠ word.toList := by
      intro heq
      rw [← heq] at hc
      rcases hchar c hc with h | h
      · exact hminus h
      · rw [hdigit] at h
        cases h
    refine ⟨fun hnil => ?_, List.all_eq_true.mpr fun c hc => ?_, ?_⟩
    · have hparse := Text.parseInt_toString n
      rw [← String.ofList_toList (s := toString n)] at hparse
      rw [render] at hnil
      rw [hnil] at hparse
      cases hparse
    · rcases hchar c hc with rfl | hdigit
      · decide
      · rw [isScalarChar, Char.isAlphanum, hdigit, Bool.or_true, Bool.true_or, Bool.true_or,
          Bool.true_or]
    · rw [render, readScalar, if_neg (hne "null" 'n' (by decide) (by decide) (by decide)),
        if_neg (hne "true" 't' (by decide) (by decide) (by decide)),
        if_neg (hne "false" 'f' (by decide) (by decide) (by decide)), String.ofList_toList,
        Text.parseInt_toString]
      rfl
  docs d before after h _ hbefore hafter := by
    rw [parseJson, String.toList_ofList, parse_chars h hbefore hafter]

def node : ProxyNode where
  name := "<NODE_REPLACE>, \"b\""
  protocol := .anytls
  server := "s"
  port := 443
  settings := .obj [("password", .str "secret")]
  tls := none

theorem silent {m raw : List Char} (h : Text.isInfixOf (quoted m) (quoted raw) = false) :
    Silent m raw := fun hin => by
  rw [Text.isInfixOf_iff.mpr hin] at h
  cases h

/-- A group of the nodes after the nodes themselves. -/
def group : Doc := .object (.last [] "outbounds".toList [] [' '] (.array
  (.cons [] (.text "direct".toList) [] (.last [' '] (.text nodeMark) []))) [])

def template : Template readScalar where
  before := ['\n']
  doc := .object (.last [' '] "outbounds".toList [] [' '] (.array
    (.cons ['\n'] (.text outboundMark) [] (.last ['\n'] group ['\n']))) [' '])
  after := ['\n']
  spaceBefore := rfl
  spaceAfter := rfl
  wellFormed := by
    refine ⟨rfl, ⟨rfl, rfl⟩, rfl, rfl, ⟨rfl, ⟨rfl, rfl⟩, rfl, rfl, ⟨?_, rfl⟩⟩, rfl⟩
    refine ⟨rfl, ⟨rfl, rfl⟩, rfl, rfl, ⟨rfl, ⟨rfl, rfl⟩, rfl, rfl, ⟨rfl, rfl⟩, rfl⟩, rfl⟩
  cleanOutbounds := ⟨silent rfl, Or.inl rfl, Or.inr ⟨silent rfl,
    Or.inr ⟨silent rfl, by decide⟩, Or.inr ⟨silent rfl, by decide⟩⟩⟩
  cleanNodes := ⟨silent rfl, Or.inr ⟨silent rfl, by decide⟩, Or.inr ⟨silent rfl,
    Or.inr ⟨silent rfl, by decide⟩, Or.inl rfl⟩⟩
  depth := by decide

def texts : Texts where
  parseJson := parseJson
  printJson := render
  validate _ := .ok ()
  renderTemplate := renderTemplate parseJson
  parseYaml _ := .error ""
  printYaml doc := .ok doc.render
  renderYamlTemplate _ _ _ := .ok ""

def outbound : Json := singboxAnytls node "secret"

theorem renders : texts.renderTemplate = renderTemplate texts.parseJson := by rw [texts]

theorem hasPlaceholder : hasOutboundPlaceholder template.text = true := by
  rw [hasOutboundPlaceholder, Text.contains, Text.contains, Template.text, String.toList_ofList]
  decide

theorem built : ([node].filter fun node => isSupported .singBox node.protocol).mapM buildOutbound =
    .ok [outbound] := rfl

theorem notInOutbound : ¬ quoted nodeMark <:+: outbound.render.toList := by
  intro hin
  rw [← chars_ofJson] at hin
  have hfound := Text.isInfixOf_iff.mpr hin
  revert hfound
  decide

end OneTemplate

/-- A name that holds the second marker inside. -/
theorem generateSingbox_template_quotedName :
    generateSingbox OneTemplate.texts [OneTemplate.node] (some OneTemplate.template.text) =
      .returned (finishJson OneTemplate.texts (rendered OneTemplate.template.doc.value
        [OneTemplate.outbound] [OneTemplate.node.name])) :=
  generateSingbox_template OneTemplate.renders OneTemplate.parserReads OneTemplate.template
    OneTemplate.hasPlaceholder (List.forall_mem_singleton.mpr (by decide)) OneTemplate.built
    (List.cons_ne_nil _ _) (List.forall_mem_singleton.mpr OneTemplate.notInOutbound)

end ProxyPanel.Subscription.Rendering
