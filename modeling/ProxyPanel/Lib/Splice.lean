import ProxyPanel.Lib.JsonCompact
import Mathlib.Data.List.Infix

/-!
# Splicing documents into a text

A program that fills a template replaces a quoted marker in its text by the texts of values
with commas between them.  `replaceAll` is the replacement on texts, `Doc.splice` the same on
documents and `substitute` on values.  In a document in which the marker stands as an item of
arrays and nowhere else (`Doc.Clean`) the three agree: `replaceAll_chars` and `value_splice`.
-/

namespace ProxyPanel.JsonText

open Json

/-! ### Replacing in a text -/

/-- The replacement after some characters of an occurrence. -/
def replaceFrom (p new : List Char) : Nat → List Char → List Char
  | _, [] => []
  | k + 1, _ :: cs => replaceFrom p new k cs
  | 0, c :: cs =>
    if p.isPrefixOf (c :: cs) then new ++ replaceFrom p new (p.length - 1) cs
    else c :: replaceFrom p new 0 cs

/-- Every occurrence of `p`, which is not empty, from the left and not overlapping. -/
def replaceAll (p new cs : List Char) : List Char := replaceFrom p new 0 cs

section Replace

variable {p new : List Char}

theorem replaceFrom_append (xs cs : List Char) :
    replaceFrom p new xs.length (xs ++ cs) = replaceFrom p new 0 cs := by
  induction xs with
  | nil => rfl
  | cons x xs ih => rw [List.length_cons, List.cons_append, replaceFrom, ih]

theorem replaceAll_match (hp : p ≠ []) (cs : List Char) :
    replaceAll p new (p ++ cs) = new ++ replaceAll p new cs := by
  obtain ⟨c, ps, rfl⟩ := List.exists_cons_of_ne_nil hp
  have hstarts : (c :: ps).isPrefixOf (c :: (ps ++ cs)) = true :=
    List.isPrefixOf_iff_prefix.mpr (List.prefix_append (c :: ps) cs)
  rw [replaceAll, List.cons_append, replaceFrom, if_pos hstarts, List.length_cons,
    Nat.add_sub_cancel, replaceFrom_append, replaceAll]

/-- A text that no occurrence begins in is kept. -/
theorem replaceAll_keep {xs cs : List Char} (h : ∀ t, t ≠ [] → t <:+ xs → ¬ p <+: t ++ cs) :
    replaceAll p new (xs ++ cs) = xs ++ replaceAll p new cs := by
  induction xs with
  | nil => rfl
  | cons x xs ih =>
    have hhead : ¬ p.isPrefixOf (x :: (xs ++ cs)) = true := fun hstarts =>
      h (x :: xs) (List.cons_ne_nil x xs) (List.suffix_refl _)
        (List.isPrefixOf_iff_prefix.mp hstarts)
    have htail := ih fun t ht hsuffix => h t ht (hsuffix.trans (List.suffix_cons x xs))
    rw [replaceAll] at htail
    rw [replaceAll, List.cons_append, replaceFrom, if_neg hhead, htail, List.cons_append]

/-- A text without quotes is kept. -/
theorem replaceAll_plain {m xs : List Char} (h : '"' ∉ xs) (cs : List Char) :
    replaceAll (quoted m) new (xs ++ cs) = xs ++ replaceAll (quoted m) new cs := by
  refine replaceAll_keep fun t ht hsuffix hstarts => ?_
  obtain ⟨c, t, rfl⟩ := List.exists_cons_of_ne_nil ht
  rw [quoted, List.cons_append, List.cons_prefix_cons] at hstarts
  rw [hstarts.1] at h
  exact h (hsuffix.subset List.mem_cons_self)

end Replace

/-! ### Markers -/

/-- A text that may stand between quotes and that nothing after a value begins with. -/
structure Marker (m : List Char) : Prop where
  ne_nil : m ≠ []
  noQuote : '"' ∉ m
  plain : escape (textOf m) = m
  begins : ∀ c ∈ m.head?, isDelimiter c = false

/-- The quoted marker does not occur in a string literal. -/
def Silent (m raw : List Char) : Prop := ¬ quoted m <:+: quoted raw

theorem prefix_of_prefix_rest {m us rest : List Char} (hm : '"' ∉ m)
    (h : m ++ ['"'] <+: us ++ '"' :: rest) : m ++ ['"'] <+: us ++ ['"'] := by
  induction m generalizing us with
  | nil =>
    cases us with
    | nil => exact List.prefix_refl _
    | cons u us =>
      obtain ⟨rfl, -⟩ := List.cons_prefix_cons.mp h
      exact ⟨us ++ ['"'], rfl⟩
  | cons c m ih =>
    cases us with
    | nil =>
      obtain ⟨rfl, -⟩ := List.cons_prefix_cons.mp h
      exact absurd List.mem_cons_self hm
    | cons u us =>
      obtain ⟨rfl, htail⟩ := List.cons_prefix_cons.mp h
      exact List.cons_prefix_cons.mpr ⟨rfl, ih (fun hmem => hm (List.mem_cons_of_mem c hmem)) htail⟩

/-- A literal in which the quoted marker does not occur is kept. -/
theorem replaceAll_quoted {m raw new rest : List Char} (hm : Marker m) (h : Silent m raw)
    (hrest : Follows rest) : replaceAll (quoted m) new (quoted raw ++ rest) =
      quoted raw ++ replaceAll (quoted m) new rest := by
  refine replaceAll_keep fun t ht hsuffix hstarts => ?_
  have hliteral : quoted raw = ('"' :: raw) ++ ['"'] := rfl
  rw [hliteral, List.suffix_concat_iff] at hsuffix
  obtain ⟨us, rfl, hus⟩ := hsuffix.resolve_left ht
  rw [List.append_assoc, List.singleton_append] at hstarts
  cases us with
  | nil =>
    -- the last quote of the literal would begin the occurrence
    obtain ⟨-, htail⟩ := List.cons_prefix_cons.mp hstarts
    obtain ⟨c, cs, rfl⟩ := List.exists_cons_of_ne_nil hm.ne_nil
    obtain ⟨r, hr⟩ := htail
    have hc : isDelimiter c = true := hrest c (by rw [← hr]; rfl)
    rw [hm.begins c rfl] at hc
    cases hc
  | cons u us =>
    obtain ⟨rfl, htail⟩ := List.cons_prefix_cons.mp hstarts
    have hinside : quoted m <+: ('"' :: us) ++ ['"'] :=
      List.cons_prefix_cons.mpr ⟨rfl, prefix_of_prefix_rest hm.noQuote htail⟩
    have hsuffix : ('"' :: us) ++ ['"'] <:+ quoted raw :=
      List.suffix_concat_iff.mpr (Or.inr ⟨'"' :: us, rfl, hus⟩)
    exact h (hinside.isInfix.trans hsuffix.isInfix)

/-! ### Markers in a document -/

def Doc.isMark (m : List Char) : Doc → Bool
  | .text raw => raw = m
  | .scalar .. | .emptyArray _ | .array _ | .emptyObject _ | .object _ => false

theorem Doc.eq_of_isMark {m : List Char} {d : Doc} (h : d.isMark m = true) : d = .text m := by
  cases d with
  | text raw => rw [of_decide_eq_true h]
  | scalar text value => cases h
  | emptyArray space => cases h
  | array items => cases h
  | emptyObject space => cases h
  | object entries => cases h

section Clean

variable (m : List Char)

mutual
/-- The marker stands as an item of arrays only. -/
def Doc.Clean : Doc → Prop
  | .text raw => Silent m raw ∧ textOf raw ≠ textOf m
  | .array items => items.Clean
  | .object entries => entries.Clean
  | .scalar .. | .emptyArray _ | .emptyObject _ => True

def Items.Clean : Items → Prop
  | .last _ item _ => item.isMark m = true ∨ item.Clean
  | .cons _ item _ rest => (item.isMark m = true ∨ item.Clean) ∧ rest.Clean

def Entries.Clean : Entries → Prop
  | .last _ raw _ _ value _ => Silent m raw ∧ value.Clean
  | .cons _ raw _ _ value _ rest => Silent m raw ∧ value.Clean ∧ rest.Clean
end

end Clean

section Splice

variable (m : List Char) (first : Doc) (more : List Doc)

mutual
/-- Every marker replaced by documents, of which there is one at least. -/
def Doc.splice : Doc → Doc
  | .array items => .array items.splice
  | .object entries => .object entries.splice
  | .scalar text value => .scalar text value
  | .text raw => .text raw
  | .emptyArray space => .emptyArray space
  | .emptyObject space => .emptyObject space

def Items.splice : Items → Items
  | .last before item after =>
    if item.isMark m then Items.ofDocs before first more after none
    else .last before item.splice after
  | .cons before item after rest =>
    if item.isMark m then Items.ofDocs before first more after (some rest.splice)
    else .cons before item.splice after rest.splice

def Entries.splice : Entries → Entries
  | .last before raw between gap value after => .last before raw between gap value.splice after
  | .cons before raw between gap value after rest =>
    .cons before raw between gap value.splice after rest.splice
end

end Splice

section Substitute

variable (mark : String) (new : List Json)

mutual
/-- Every item of an array that is the marker replaced by values. -/
def substitute : Json → Json
  | .arr xs => .arr (substituteItems xs)
  | .obj es => .obj (substituteEntries es)
  | .null => .null
  | .bool b => .bool b
  | .num n => .num n
  | .float t => .float t
  | .str s => .str s

def substituteItems : List Json → List Json
  | [] => []
  | x :: xs => (if x.asStr = some mark then new else [substitute x]) ++ substituteItems xs

def substituteEntries : List (String × Json) → List (String × Json)
  | [] => []
  | (k, v) :: es => (k, substitute v) :: substituteEntries es
end

end Substitute

/-! ### The replacement of a text is the one of the document -/

theorem not_mem_of_isSpace {space : List Char} (h : space.all isSpace = true) : '"' ∉ space := by
  intro hmem
  have hspace : isSpace '"' = true := List.all_eq_true.mp h '"' hmem
  revert hspace
  decide

theorem not_mem_of_isScalarChar {text : List Char} (h : text.all isScalarChar = true) :
    '"' ∉ text := by
  intro hmem
  have hscalar : isScalarChar '"' = true := List.all_eq_true.mp h '"' hmem
  revert hscalar
  decide

section Replaced

variable {readScalar : List Char → Option Json} {m : List Char} {first : Doc} {more : List Doc}

/-- One punctuation character. -/
theorem replaceAll_cons {c : Char} (hc : c ≠ '"') (new cs : List Char) :
    replaceAll (quoted m) new (c :: cs) = c :: replaceAll (quoted m) new cs :=
  replaceAll_plain (fun h => hc (List.mem_singleton.mp h).symm : '"' ∉ [c]) cs

theorem replaceAll_mark (new cs : List Char) :
    replaceAll (quoted m) new (quoted m ++ cs) = new ++ replaceAll (quoted m) new cs :=
  replaceAll_match (List.cons_ne_nil _ _) cs

mutual
theorem replaceAll_chars (hm : Marker m) : ∀ {d : Doc} (rest : List Char),
    d.WellFormed readScalar → d.Clean m → Follows rest →
    replaceAll (quoted m) (joined (first :: more)) (d.chars ++ rest) =
      (Doc.splice m first more d).chars ++ replaceAll (quoted m) (joined (first :: more)) rest
  | .scalar text value, rest, h, _, _ => by
    rw [Doc.WellFormed] at h
    rw [Doc.splice, Doc.chars, replaceAll_plain (not_mem_of_isScalarChar h.2.1)]
  | .text raw, rest, _, hclean, hrest => by
    rw [Doc.Clean] at hclean
    rw [Doc.splice, Doc.chars, replaceAll_quoted hm hclean.1 hrest]
  | .emptyArray space, rest, h, _, _ => by
    rw [Doc.WellFormed] at h
    simp only [Doc.splice, Doc.chars, List.cons_append, List.append_assoc, List.nil_append]
    rw [replaceAll_cons (by decide), replaceAll_plain (not_mem_of_isSpace h),
      replaceAll_cons (by decide)]
  | .array items, rest, h, hclean, _ => by
    rw [Doc.WellFormed] at h
    rw [Doc.Clean] at hclean
    simp only [Doc.splice, Doc.chars, List.cons_append, List.append_assoc, List.nil_append]
    rw [replaceAll_cons (by decide), replaceAll_itemsChars hm (']' :: rest) h hclean
      (follows_cons (by decide) rest), replaceAll_cons (by decide)]
  | .emptyObject space, rest, h, _, _ => by
    rw [Doc.WellFormed] at h
    simp only [Doc.splice, Doc.chars, List.cons_append, List.append_assoc, List.nil_append]
    rw [replaceAll_cons (by decide), replaceAll_plain (not_mem_of_isSpace h),
      replaceAll_cons (by decide)]
  | .object entries, rest, h, hclean, _ => by
    rw [Doc.WellFormed] at h
    rw [Doc.Clean] at hclean
    simp only [Doc.splice, Doc.chars, List.cons_append, List.append_assoc, List.nil_append]
    rw [replaceAll_cons (by decide), replaceAll_entriesChars hm ('\x7d' :: rest) h hclean
      (follows_cons (by decide) rest), replaceAll_cons (by decide)]

theorem replaceAll_itemsChars (hm : Marker m) : ∀ {items : Items} (rest : List Char),
    items.WellFormed readScalar → items.Clean m → Follows rest →
    replaceAll (quoted m) (joined (first :: more)) (items.chars ++ rest) =
      (items.splice m first more).chars ++ replaceAll (quoted m) (joined (first :: more)) rest
  | .last before item after, rest, h, hclean, hrest => by
    rw [Items.WellFormed] at h
    obtain ⟨hbefore, hitem, hafter⟩ := h
    rw [Items.Clean] at hclean
    rw [Items.chars, List.append_assoc, List.append_assoc,
      replaceAll_plain (not_mem_of_isSpace hbefore), Items.splice]
    by_cases hmark : item.isMark m = true
    · rw [if_pos hmark, chars_ofDocs, Doc.eq_of_isMark hmark, Doc.chars, replaceAll_mark,
        replaceAll_plain (not_mem_of_isSpace hafter)]
      simp only [restChars, List.append_assoc, List.nil_append]
    · rw [if_neg hmark, replaceAll_chars hm (after ++ rest) hitem (hclean.resolve_left hmark)
        (follows_space hafter hrest), replaceAll_plain (not_mem_of_isSpace hafter)]
      simp only [Items.chars, List.append_assoc]
  | .cons before item after others, rest, h, hclean, hrest => by
    rw [Items.WellFormed] at h
    obtain ⟨hbefore, hitem, hafter, hothers⟩ := h
    rw [Items.Clean] at hclean
    have hmore := replaceAll_itemsChars hm rest hothers hclean.2 hrest
    simp only [Items.chars, List.append_assoc, List.cons_append]
    rw [replaceAll_plain (not_mem_of_isSpace hbefore), Items.splice]
    by_cases hmark : item.isMark m = true
    · rw [if_pos hmark, chars_ofDocs, Doc.eq_of_isMark hmark, Doc.chars, replaceAll_mark,
        replaceAll_plain (not_mem_of_isSpace hafter), replaceAll_cons (by decide), hmore]
      simp only [restChars, List.append_assoc, List.cons_append]
    · rw [if_neg hmark, replaceAll_chars hm _ hitem (hclean.1.resolve_left hmark)
        (follows_append hafter (by decide) _), replaceAll_plain (not_mem_of_isSpace hafter),
        replaceAll_cons (by decide), hmore]
      simp only [Items.chars, List.append_assoc, List.cons_append]

theorem replaceAll_entriesChars (hm : Marker m) : ∀ {entries : Entries} (rest : List Char),
    entries.WellFormed readScalar → entries.Clean m → Follows rest →
    replaceAll (quoted m) (joined (first :: more)) (entries.chars ++ rest) =
      (entries.splice m first more).chars ++ replaceAll (quoted m) (joined (first :: more)) rest
  | .last before raw between gap value after, rest, h, hclean, hrest => by
    rw [Entries.WellFormed] at h
    obtain ⟨hbefore, hkey, hbetween, hgap, hvalue, hafter⟩ := h
    rw [Entries.Clean] at hclean
    simp only [Entries.chars, Entries.splice, List.append_assoc, List.cons_append]
    rw [replaceAll_plain (not_mem_of_isSpace hbefore), replaceAll_quoted hm hclean.1
      (follows_append hbetween (by decide) _), replaceAll_plain (not_mem_of_isSpace hbetween),
      replaceAll_cons (by decide), replaceAll_plain (not_mem_of_isSpace hgap),
      replaceAll_chars hm _ hvalue hclean.2 (follows_space hafter hrest),
      replaceAll_plain (not_mem_of_isSpace hafter)]
  | .cons before raw between gap value after others, rest, h, hclean, hrest => by
    rw [Entries.WellFormed] at h
    obtain ⟨hbefore, hkey, hbetween, hgap, hvalue, hafter, hothers⟩ := h
    rw [Entries.Clean] at hclean
    have hmore := replaceAll_entriesChars hm rest hothers hclean.2.2 hrest
    simp only [Entries.chars, Entries.splice, List.append_assoc, List.cons_append]
    rw [replaceAll_plain (not_mem_of_isSpace hbefore), replaceAll_quoted hm hclean.1
      (follows_append hbetween (by decide) _), replaceAll_plain (not_mem_of_isSpace hbetween),
      replaceAll_cons (by decide), replaceAll_plain (not_mem_of_isSpace hgap),
      replaceAll_chars hm _ hvalue hclean.2.1 (follows_append hafter (by decide) _),
      replaceAll_plain (not_mem_of_isSpace hafter), replaceAll_cons (by decide), hmore]
end

end Replaced

/-! ### The values after a splice -/

section Values

variable {readScalar : List Char → Option Json} {m : List Char} {first : Doc} {more : List Doc}

theorem insertEntry_map (f : Json → Json) (k : String) (v : Json) (es : List (String × Json)) :
    (insertEntry k v es).map (Prod.map id f) = insertEntry k (f v) (es.map (Prod.map id f)) := by
  induction es with
  | nil => rfl
  | cons e es ih =>
    obtain ⟨l, w⟩ := e
    rw [insertEntry, List.map_cons, Prod.map_apply, id_eq, insertEntry]
    split_ifs
    · rfl
    · rfl
    · rw [List.map_cons, ih]
      rfl

theorem substituteEntries_eq (mark : String) (new : List Json) (es : List (String × Json)) :
    substituteEntries mark new es = es.map (Prod.map id (substitute mark new)) := by
  induction es with
  | nil => rfl
  | cons e es ih =>
    obtain ⟨k, v⟩ := e
    rw [substituteEntries, ih]
    rfl

theorem substitute_mkObj (mark : String) (new : List Json) (es : List (String × Json)) :
    substitute mark new (mkObj es) = mkObj (substituteEntries mark new es) := by
  have hfold : ∀ acc : List (String × Json),
      (es.foldl (fun acc e => insertEntry e.1 e.2 acc) acc).map
          (Prod.map id (substitute mark new)) =
        (es.map (Prod.map id (substitute mark new))).foldl
          (fun acc e => insertEntry e.1 e.2 acc) (acc.map (Prod.map id (substitute mark new))) := by
    induction es with
    | nil => exact fun acc => rfl
    | cons e es ih =>
      intro acc
      rw [List.foldl_cons, ih, insertEntry_map]
      rfl
  rw [mkObj, substitute, substituteEntries_eq, substituteEntries_eq, hfold]
  rfl

theorem substitute_of_isScalar {j : Json} (h : isScalar j = true) (mark : String)
    (new : List Json) : substitute mark new j = j ∧ j.asStr = none := by
  cases j with
  | null => exact ⟨rfl, rfl⟩
  | bool b => exact ⟨rfl, rfl⟩
  | num n => exact ⟨rfl, rfl⟩
  | float t => exact ⟨rfl, rfl⟩
  | str s => cases h
  | arr xs => cases h
  | obj es => cases h

/-- A value that is no marker is no string of the marker. -/
theorem asStr_value_ne {d : Doc} (h : d.WellFormed readScalar) (hclean : d.Clean m) :
    d.value.asStr ≠ some (textOf m) := by
  cases d with
  | scalar text value =>
    rw [Doc.WellFormed] at h
    rw [Doc.value, (substitute_of_isScalar h.2.2.2 "" []).2]
    exact fun heq => by cases heq
  | text raw =>
    rw [Doc.Clean] at hclean
    rw [Doc.value]
    exact fun heq => hclean.2 (Option.some.inj heq)
  | emptyArray space => exact fun heq => by cases heq
  | array items => exact fun heq => by cases heq
  | emptyObject space => exact fun heq => by cases heq
  | object entries => exact fun heq => by cases heq

mutual
/-- **The value of the spliced document** has the new values in the place of the markers. -/
theorem value_splice : ∀ {d : Doc}, d.WellFormed readScalar → d.Clean m →
    (Doc.splice m first more d).value =
      substitute (textOf m) ((first :: more).map Doc.value) d.value
  | .scalar text value, h, _ => by
    rw [Doc.WellFormed] at h
    rw [Doc.splice, Doc.value, (substitute_of_isScalar h.2.2.2 _ _).1]
  | .text raw, _, _ => by rw [Doc.splice, Doc.value, substitute]
  | .emptyArray space, _, _ => by rw [Doc.splice, Doc.value, substitute, substituteItems]
  | .array items, h, hclean => by
    rw [Doc.WellFormed] at h
    rw [Doc.Clean] at hclean
    rw [Doc.splice, Doc.value, Doc.value, values_splice h hclean, substitute]
  | .emptyObject space, _, _ => by
    rw [Doc.splice, Doc.value, substitute_mkObj, substituteEntries]
  | .object entries, h, hclean => by
    rw [Doc.WellFormed] at h
    rw [Doc.Clean] at hclean
    rw [Doc.splice, Doc.value, Doc.value, pairs_splice h hclean, substitute_mkObj]

theorem values_splice : ∀ {items : Items}, items.WellFormed readScalar → items.Clean m →
    (items.splice m first more).values =
      substituteItems (textOf m) ((first :: more).map Doc.value) items.values
  | .last before item after, h, hclean => by
    rw [Items.WellFormed] at h
    rw [Items.Clean] at hclean
    rw [Items.splice, Items.values, substituteItems, substituteItems, List.append_nil]
    by_cases hmark : item.isMark m = true
    · rw [if_pos hmark, values_ofDocs, Doc.eq_of_isMark hmark, Doc.value, asStr, if_pos rfl]
      exact List.append_nil _
    · have hitem := hclean.resolve_left hmark
      rw [if_neg hmark, Items.values, value_splice h.2.1 hitem, if_neg (asStr_value_ne h.2.1 hitem)]
  | .cons before item after others, h, hclean => by
    rw [Items.WellFormed] at h
    rw [Items.Clean] at hclean
    have hothers := values_splice h.2.2.2 hclean.2
    rw [Items.splice, Items.values, substituteItems]
    by_cases hmark : item.isMark m = true
    · rw [if_pos hmark, values_ofDocs, Doc.eq_of_isMark hmark, Doc.value, asStr,
        if_pos rfl, Option.map_some, Option.getD_some, hothers]
    · have hitem := hclean.1.resolve_left hmark
      rw [if_neg hmark, Items.values, value_splice h.2.1 hitem, if_neg (asStr_value_ne h.2.1 hitem),
        hothers, List.singleton_append]

theorem pairs_splice : ∀ {entries : Entries}, entries.WellFormed readScalar → entries.Clean m →
    (entries.splice m first more).pairs =
      substituteEntries (textOf m) ((first :: more).map Doc.value) entries.pairs
  | .last before raw between gap value after, h, hclean => by
    rw [Entries.WellFormed] at h
    rw [Entries.Clean] at hclean
    rw [Entries.splice, Entries.pairs, Entries.pairs, value_splice h.2.2.2.2.1 hclean.2,
      substituteEntries, substituteEntries]
  | .cons before raw between gap value after others, h, hclean => by
    rw [Entries.WellFormed] at h
    rw [Entries.Clean] at hclean
    rw [Entries.splice, Entries.pairs, Entries.pairs, value_splice h.2.2.2.2.1 hclean.2.1,
      pairs_splice h.2.2.2.2.2.2 hclean.2.2, substituteEntries]
end

end Values

/-! ### What a splice keeps -/

section Kept

variable {readScalar : List Char → Option Json} {m : List Char} {first : Doc} {more : List Doc}

mutual
theorem wellFormed_splice (hnew : ∀ d ∈ first :: more, d.WellFormed readScalar) :
    ∀ {d : Doc}, d.WellFormed readScalar → (Doc.splice m first more d).WellFormed readScalar
  | .scalar text value, h => by
    rw [Doc.splice]
    exact h
  | .text raw, h => by
    rw [Doc.splice]
    exact h
  | .emptyArray space, h => by
    rw [Doc.splice]
    exact h
  | .array items, h => by
    rw [Doc.WellFormed] at h
    rw [Doc.splice, Doc.WellFormed]
    exact wellFormed_itemsSplice hnew h
  | .emptyObject space, h => by
    rw [Doc.splice]
    exact h
  | .object entries, h => by
    rw [Doc.WellFormed] at h
    rw [Doc.splice, Doc.WellFormed]
    exact wellFormed_entriesSplice hnew h

theorem wellFormed_itemsSplice (hnew : ∀ d ∈ first :: more, d.WellFormed readScalar) :
    ∀ {items : Items}, items.WellFormed readScalar →
      (items.splice m first more).WellFormed readScalar
  | .last before item after, h => by
    rw [Items.WellFormed] at h
    rw [Items.splice]
    by_cases hmark : item.isMark m = true
    · rw [if_pos hmark]
      exact wellFormed_ofItems h.1 hnew h.2.2 fun items hitems => by cases hitems
    · rw [if_neg hmark, Items.WellFormed]
      exact ⟨h.1, wellFormed_splice hnew h.2.1, h.2.2⟩
  | .cons before item after others, h => by
    rw [Items.WellFormed] at h
    have hothers := wellFormed_itemsSplice hnew h.2.2.2
    rw [Items.splice]
    by_cases hmark : item.isMark m = true
    · rw [if_pos hmark]
      refine wellFormed_ofItems h.1 hnew h.2.2.1 fun items hitems => ?_
      cases hitems
      exact hothers
    · rw [if_neg hmark, Items.WellFormed]
      exact ⟨h.1, wellFormed_splice hnew h.2.1, h.2.2.1, hothers⟩

theorem wellFormed_entriesSplice (hnew : ∀ d ∈ first :: more, d.WellFormed readScalar) :
    ∀ {entries : Entries}, entries.WellFormed readScalar →
      (entries.splice m first more).WellFormed readScalar
  | .last before raw between gap value after, h => by
    rw [Entries.WellFormed] at h
    obtain ⟨hbefore, hkey, hbetween, hgap, hvalue, hafter⟩ := h
    rw [Entries.splice, Entries.WellFormed]
    exact ⟨hbefore, hkey, hbetween, hgap, wellFormed_splice hnew hvalue, hafter⟩
  | .cons before raw between gap value after others, h => by
    rw [Entries.WellFormed] at h
    obtain ⟨hbefore, hkey, hbetween, hgap, hvalue, hafter, hothers⟩ := h
    rw [Entries.splice, Entries.WellFormed]
    exact ⟨hbefore, hkey, hbetween, hgap, wellFormed_splice hnew hvalue, hafter,
      wellFormed_entriesSplice hnew hothers⟩
end

variable {m' : List Char}

theorem clean_ofDocs (before : List Char) {first : Doc} {more : List Doc} (after : List Char)
    {rest : Option Items} (hdocs : ∀ d ∈ first :: more, d.isMark m = true ∨ d.Clean m)
    (hrest : ∀ items ∈ rest, items.Clean m) :
    (Items.ofDocs before first more after rest).Clean m := by
  induction more generalizing before first with
  | nil =>
    cases rest with
    | none =>
      rw [Items.ofDocs, Items.Clean]
      exact hdocs first List.mem_cons_self
    | some rest =>
      rw [Items.ofDocs, Items.Clean]
      exact ⟨hdocs first List.mem_cons_self, hrest rest rfl⟩
  | cons next more ih =>
    rw [Items.ofDocs, Items.Clean]
    exact ⟨hdocs first List.mem_cons_self,
      ih [] fun d hd => hdocs d (List.mem_cons_of_mem first hd)⟩

theorem isMark_splice {d : Doc} (h : d.isMark m' = true) :
    (Doc.splice m first more d).isMark m' = true := by
  rw [Doc.eq_of_isMark h, Doc.splice]
  exact decide_eq_true rfl

mutual
/-- A splice keeps the places of another marker, when the new documents bring none elsewhere. -/
theorem clean_splice (hnew : ∀ d ∈ first :: more, d.isMark m' = true ∨ d.Clean m') :
    ∀ {d : Doc}, d.Clean m' → (Doc.splice m first more d).Clean m'
  | .scalar text value, h => by
    rw [Doc.splice]
    exact h
  | .text raw, h => by
    rw [Doc.splice]
    exact h
  | .emptyArray space, h => by
    rw [Doc.splice]
    exact h
  | .array items, h => by
    rw [Doc.Clean] at h
    rw [Doc.splice, Doc.Clean]
    exact clean_itemsSplice hnew h
  | .emptyObject space, h => by
    rw [Doc.splice]
    exact h
  | .object entries, h => by
    rw [Doc.Clean] at h
    rw [Doc.splice, Doc.Clean]
    exact clean_entriesSplice hnew h

theorem clean_itemsSplice (hnew : ∀ d ∈ first :: more, d.isMark m' = true ∨ d.Clean m') :
    ∀ {items : Items}, items.Clean m' → (items.splice m first more).Clean m'
  | .last before item after, h => by
    rw [Items.Clean] at h
    rw [Items.splice]
    by_cases hmark : item.isMark m = true
    · rw [if_pos hmark]
      exact clean_ofDocs before after hnew fun items hitems => by cases hitems
    · rw [if_neg hmark, Items.Clean]
      exact h.imp isMark_splice (clean_splice hnew)
  | .cons before item after others, h => by
    rw [Items.Clean] at h
    have hothers := clean_itemsSplice hnew h.2
    rw [Items.splice]
    by_cases hmark : item.isMark m = true
    · rw [if_pos hmark]
      refine clean_ofDocs before after hnew fun items hitems => ?_
      cases hitems
      exact hothers
    · rw [if_neg hmark, Items.Clean]
      exact ⟨h.1.imp isMark_splice (clean_splice hnew), hothers⟩

theorem clean_entriesSplice (hnew : ∀ d ∈ first :: more, d.isMark m' = true ∨ d.Clean m') :
    ∀ {entries : Entries}, entries.Clean m' → (entries.splice m first more).Clean m'
  | .last before raw between gap value after, h => by
    rw [Entries.Clean] at h
    rw [Entries.splice, Entries.Clean]
    exact ⟨h.1, clean_splice hnew h.2⟩
  | .cons before raw between gap value after others, h => by
    rw [Entries.Clean] at h
    rw [Entries.splice, Entries.Clean]
    exact ⟨h.1, clean_splice hnew h.2.1, clean_entriesSplice hnew h.2.2⟩
end

mutual
theorem depth_splice {n : Nat} (hnew : ∀ d ∈ first :: more, d.depth ≤ n) :
    ∀ d : Doc, (Doc.splice m first more d).depth ≤ d.depth + n
  | .scalar text value => by
    rw [Doc.splice]
    exact Nat.le_add_right _ n
  | .text raw => by
    rw [Doc.splice]
    exact Nat.le_add_right _ n
  | .emptyArray space => by
    rw [Doc.splice]
    exact Nat.le_add_right _ n
  | .array items => by
    have hitems := depth_itemsSplice hnew items
    rw [Doc.splice, Doc.depth, Doc.depth]
    omega
  | .emptyObject space => by
    rw [Doc.splice]
    exact Nat.le_add_right _ n
  | .object entries => by
    have hentries := depth_entriesSplice hnew entries
    rw [Doc.splice, Doc.depth, Doc.depth]
    omega

theorem depth_itemsSplice {n : Nat} (hnew : ∀ d ∈ first :: more, d.depth ≤ n) :
    ∀ items : Items, (items.splice m first more).depth ≤ items.depth + n
  | .last before item after => by
    have hitem := depth_splice hnew item
    rw [Items.splice]
    by_cases hmark : item.isMark m = true
    · rw [if_pos hmark]
      exact depth_ofDocs before after (fun d hd => Nat.le_add_left_of_le (hnew d hd))
        fun items hitems => by cases hitems
    · rw [if_neg hmark, Items.depth, Items.depth]
      exact hitem
  | .cons before item after others => by
    have hitem := depth_splice hnew item
    have hothers := depth_itemsSplice hnew others
    have hmax := Nat.le_max_right item.depth others.depth
    rw [Items.splice, Items.depth]
    by_cases hmark : item.isMark m = true
    · rw [if_pos hmark]
      refine depth_ofDocs before after (fun d hd => Nat.le_add_left_of_le (hnew d hd))
        fun items hitems => ?_
      cases hitems
      omega
    · rw [if_neg hmark, Items.depth]
      omega

theorem depth_entriesSplice {n : Nat} (hnew : ∀ d ∈ first :: more, d.depth ≤ n) :
    ∀ entries : Entries, (entries.splice m first more).depth ≤ entries.depth + n
  | .last before raw between gap value after => by
    rw [Entries.splice, Entries.depth, Entries.depth]
    exact depth_splice hnew value
  | .cons before raw between gap value after others => by
    have hvalue := depth_splice hnew value
    have hothers := depth_entriesSplice hnew others
    rw [Entries.splice, Entries.depth, Entries.depth]
    omega
end

end Kept

/-! ### Values that do not have the marker in their text -/

section Written

variable {m : List Char}

theorem infix_intercalate_of_mem {l : List Char} {ls : List (List Char)} (h : l ∈ ls) :
    l <:+: [','].intercalate ls := by
  induction ls with
  | nil => cases h
  | cons x ls ih =>
    cases ls with
    | nil =>
      rw [List.mem_singleton.mp h]
      exact ⟨[], [], by simp [List.intercalate]⟩
    | cons y ls =>
      have hcons : [','].intercalate (x :: y :: ls) = x ++ ',' :: [','].intercalate (y :: ls) := by
        simp [List.intercalate]
      rw [hcons]
      rcases List.mem_cons.mp h with rfl | h
      · exact (List.prefix_append l _).isInfix
      · exact (ih h).trans ((List.suffix_cons _ _).trans (List.suffix_append x _)).isInfix

/-- What stands in brackets stands in the whole. -/
theorem infix_brackets (l r : Char) (cs : List Char) : cs <:+: l :: (cs ++ [r]) :=
  ⟨[l], [r], by rw [List.singleton_append, List.cons_append]⟩

theorem infix_items {x : Json} {xs : List Json} (h : x ∈ xs) :
    x.render.toList <:+: (Json.arr xs).render.toList := by
  have hmem : x.render.toList ∈ (docs xs).map Doc.chars := by
    induction xs with
    | nil => cases h
    | cons y xs ih =>
      rw [docs, List.map_cons, chars_ofJson]
      rcases List.mem_cons.mp h with rfl | h
      · exact List.mem_cons_self
      · exact List.mem_cons_of_mem _ (ih h)
  rw [← chars_ofJson (.arr xs), Doc.ofJson, Doc.chars_ofDocs]
  exact (infix_intercalate_of_mem hmem).trans (infix_brackets '[' ']' _)

theorem infix_entries {k : String} {v : Json} {es : List (String × Json)} (h : (k, v) ∈ es) :
    quoted (escape k) <:+: (Json.obj es).render.toList ∧
      v.render.toList <:+: (Json.obj es).render.toList := by
  have hmem : quoted (escape k) ++ ':' :: v.render.toList ∈ (entryDocs es).map entryChars := by
    induction es with
    | nil => cases h
    | cons e es ih =>
      obtain ⟨l, w⟩ := e
      rw [entryDocs, List.map_cons, entryChars, chars_ofJson]
      rcases List.mem_cons.mp h with heq | h
      · cases heq
        exact List.mem_cons_self
      · exact List.mem_cons_of_mem _ (ih h)
  rw [← chars_ofJson (.obj es), Doc.ofJson, Doc.chars_ofEntries]
  have hentry := (infix_intercalate_of_mem hmem).trans (infix_brackets '\x7b' '\x7d' _)
  exact ⟨(List.prefix_append _ _).isInfix.trans hentry,
    ((List.suffix_cons _ _).trans (List.suffix_append _ _)).isInfix.trans hentry⟩

theorem clean_text (hm : Marker m) {s : String} (h : Silent m (escape s)) :
    (Doc.text (escape s)).Clean m := by
  rw [Doc.Clean]
  refine ⟨h, fun heq => h ?_⟩
  rw [textOf_escape] at heq
  rw [heq, hm.plain]

theorem clean_array {ds : List Doc} (h : ∀ d ∈ ds, d.Clean m) : (Doc.ofDocs ds).Clean m := by
  cases ds with
  | nil =>
    rw [Doc.ofDocs, Doc.Clean]
    trivial
  | cons first more =>
    rw [Doc.ofDocs, Doc.Clean]
    exact clean_ofDocs [] [] (fun d hd => Or.inr (h d hd)) fun items hitems => by cases hitems

theorem clean_object {es : List (List Char × Doc)} (h : ∀ e ∈ es, Silent m e.1 ∧ e.2.Clean m) :
    (Doc.ofEntries es).Clean m := by
  cases es with
  | nil =>
    rw [Doc.ofEntries, Doc.Clean]
    trivial
  | cons e more =>
    obtain ⟨raw, value⟩ := e
    rw [Doc.ofEntries, Doc.Clean]
    induction more generalizing raw value with
    | nil =>
      rw [Entries.ofDocs, Entries.Clean]
      exact h _ List.mem_cons_self
    | cons e more ih =>
      obtain ⟨key, next⟩ := e
      rw [Entries.ofDocs, Entries.Clean]
      have hfirst := h _ List.mem_cons_self
      exact ⟨hfirst.1, hfirst.2, ih key next fun e he => h e (List.mem_cons_of_mem _ he)⟩

mutual
/-- **A value without the quoted marker in its text** has it in no string. -/
theorem clean_ofJson (hm : Marker m) : ∀ {j : Json}, ¬ quoted m <:+: j.render.toList →
    (Doc.ofJson j).Clean m
  | .null, _ => by
    rw [Doc.ofJson, Doc.Clean]
    trivial
  | .bool b, _ => by
    rw [Doc.ofJson, Doc.Clean]
    trivial
  | .num n, _ => by
    rw [Doc.ofJson, Doc.Clean]
    trivial
  | .float t, _ => by
    rw [Doc.ofJson, Doc.Clean]
    trivial
  | .str s, h => by
    rw [render, toList_renderStr] at h
    rw [Doc.ofJson]
    exact clean_text hm h
  | .arr xs, h => by
    rw [Doc.ofJson]
    exact clean_array (clean_docs hm fun x hx hin => h (hin.trans (infix_items hx)))
  | .obj es, h => by
    rw [Doc.ofJson]
    exact clean_object (clean_entryDocs hm fun k v he =>
      ⟨fun hin => h (hin.trans (infix_entries he).1),
        fun hin => h (hin.trans (infix_entries he).2)⟩)

theorem clean_docs (hm : Marker m) : ∀ {xs : List Json},
    (∀ x ∈ xs, ¬ quoted m <:+: x.render.toList) → ∀ d ∈ docs xs, d.Clean m
  | [], _, d, hd => by cases hd
  | x :: xs, h, d, hd => by
    rw [docs] at hd
    rcases List.mem_cons.mp hd with rfl | hd
    · exact clean_ofJson hm (h x List.mem_cons_self)
    · exact clean_docs hm (fun y hy => h y (List.mem_cons_of_mem x hy)) d hd

theorem clean_entryDocs (hm : Marker m) : ∀ {es : List (String × Json)},
    (∀ k v, (k, v) ∈ es → Silent m (escape k) ∧ ¬ quoted m <:+: v.render.toList) →
      ∀ e ∈ entryDocs es, Silent m e.1 ∧ e.2.Clean m
  | [], _, e, he => by cases he
  | (k, v) :: es, h, e, he => by
    rw [entryDocs] at he
    rcases List.mem_cons.mp he with rfl | he
    · have hfirst := h k v List.mem_cons_self
      exact ⟨hfirst.1, clean_ofJson hm hfirst.2⟩
    · exact clean_entryDocs hm (fun l w hl => h l w (List.mem_cons_of_mem _ hl)) e he
end

end Written

end ProxyPanel.JsonText
