import ProxyPanel.Lib.Json
import ProxyPanel.Lib.Text
import Mathlib.Data.List.Infix

/-!
# Words in the text of a JSON value

A program that looks for a word in the compact text of a value looks in the strings
of the value, wherever they stand: `contains_render_iff`.  This takes a word which no
punctuation of the format occurs in, and which is not to be found in a number or in
one of the constants; `PathWord` asks for a slash in it.
-/

namespace ProxyPanel

namespace Text

theorem isInfixOf_iff {w cs : List Char} : isInfixOf w cs = true ↔ w <:+: cs := by
  induction cs with
  | nil => rw [isInfixOf, List.isEmpty_iff, List.infix_nil]
  | cons c cs ih =>
    rw [isInfixOf, Bool.or_eq_true, ih, List.isPrefixOf_iff_prefix, List.infix_cons_iff]

theorem contains_iff {s p : String} : contains s p = true ↔ p.toList <:+: s.toList :=
  isInfixOf_iff

/-- A word without the character in the middle stands on one side of it. -/
theorem infix_append_cons_iff {c : Char} {w : List Char} (hne : w ≠ []) (hc : c ∉ w)
    (a b : List Char) : w <:+: a ++ c :: b ↔ w <:+: a ∨ w <:+: b := by
  have hstart : ∀ {l : List Char}, c ∉ l → l <+: c :: b → l = [] := by
    intro l hl h
    cases l with
    | nil => rfl
    | cons x l =>
      obtain ⟨rfl, -⟩ := List.cons_prefix_cons.mp h
      exact absurd List.mem_cons_self hl
  rw [List.infix_append_iff, List.infix_cons_iff]
  constructor
  · rintro (h | (h | h) | ⟨l, r, rfl, hl, hr⟩)
    · exact Or.inl h
    · exact absurd (hstart hc h) hne
    · exact Or.inr h
    · have hr : r = [] := hstart (fun h => hc (List.mem_append_right l h)) hr
      rw [hr, List.append_nil]
      exact Or.inl hl.isInfix
  · rintro (h | h)
    · exact Or.inl h
    · exact Or.inr (Or.inl (Or.inr h))

theorem infix_cons_iff_of_not_mem {c : Char} {w : List Char} (hne : w ≠ []) (hc : c ∉ w)
    (b : List Char) : w <:+: c :: b ↔ w <:+: b := by
  rw [← List.nil_append (c :: b), infix_append_cons_iff hne hc, List.infix_nil]
  exact ⟨fun h => h.resolve_left hne, Or.inr⟩

theorem infix_concat_iff_of_not_mem {c : Char} {w : List Char} (hne : w ≠ []) (hc : c ∉ w)
    (a : List Char) : w <:+: a ++ [c] ↔ w <:+: a := by
  rw [infix_append_cons_iff hne hc, List.infix_nil]
  exact ⟨fun h => h.resolve_right hne, Or.inl⟩

/-- A word without the separator stands in one of the pieces. -/
theorem infix_intercalate_iff {c : Char} {w : List Char} (hne : w ≠ []) (hc : c ∉ w)
    (ls : List (List Char)) : w <:+: [c].intercalate ls ↔ ∃ l ∈ ls, w <:+: l := by
  induction ls with
  | nil => simpa [List.intercalate] using hne
  | cons l ls ih =>
    cases ls with
    | nil => simp [List.intercalate]
    | cons m ls =>
      have hcons : [c].intercalate (l :: m :: ls) = l ++ c :: [c].intercalate (m :: ls) := by
        simp [List.intercalate]
      rw [hcons, infix_append_cons_iff hne hc, ih]
      exact (List.exists_mem_cons_iff _ _ _).symm

end Text

namespace Json

/-- A word that occurs in the text of a value only inside its strings. -/
structure PathWord (w : List Char) : Prop where
  slash : '/' ∈ w
  plain : ∀ c ∈ ['"', ',', ':', '[', ']', '\x7b', '\x7d'], c ∉ w

theorem PathWord.ne_nil {w : List Char} (h : PathWord w) : w ≠ [] :=
  List.ne_nil_of_mem h.slash

/-- A text without a slash does not contain the word. -/
theorem PathWord.not_infix {w cs : List Char} (h : PathWord w) (hcs : '/' ∉ cs) : ¬ w <:+: cs :=
  fun hw => hcs (hw.subset h.slash)

mutual
/-- The contents of the strings of a value as its text has them, keys and numbers with
a fraction included. -/
def texts : Json → List (List Char)
  | null => []
  | bool _ => []
  | num _ => []
  | float t => [t.toList]
  | str s => [s.toList.flatMap escapeChar]
  | arr xs => textsOfItems xs
  | obj es => textsOfEntries es

def textsOfItems : List Json → List (List Char)
  | [] => []
  | x :: xs => texts x ++ textsOfItems xs

def textsOfEntries : List (String × Json) → List (List Char)
  | [] => []
  | (k, v) :: es => k.toList.flatMap escapeChar :: (texts v ++ textsOfEntries es)
end

/-- A character that stands for itself in a string literal. -/
theorem escapeChar_of_plain {c : Char} (hcontrol : 32 ≤ c.toNat) (hquote : c ≠ '"')
    (hbackslash : c ≠ '\\') : escapeChar c = [c] := by
  rw [escapeChar, if_neg hquote, if_neg hbackslash, if_neg (by omega), if_neg (by omega),
    if_neg (by omega), if_neg (by omega), if_neg (by omega), if_neg (by omega)]

theorem infix_renderStr_iff {w : List Char} (h : PathWord w) (s : String) :
    w <:+: (renderStr s).toList ↔ w <:+: s.toList.flatMap escapeChar := by
  have hquote : '"' ∉ w := h.plain '"' (by simp)
  have hlist : (renderStr s).toList = '"' :: (s.toList.flatMap escapeChar ++ ['"']) := by
    simp [renderStr]
  rw [hlist, Text.infix_cons_iff_of_not_mem h.ne_nil hquote,
    Text.infix_concat_iff_of_not_mem h.ne_nil hquote]

/-- Brackets around pieces with commas between them. -/
theorem infix_brackets_iff {w : List Char} (h : PathWord w) {l r : Char} (hl : l ∉ w) (hr : r ∉ w)
    (pieces : List String) :
    w <:+: l :: ((",".intercalate pieces).toList ++ [r]) ↔
      ∃ p ∈ pieces.map String.toList, w <:+: p := by
  rw [Text.infix_cons_iff_of_not_mem h.ne_nil hl, Text.infix_concat_iff_of_not_mem h.ne_nil hr,
    String.toList_intercalate]
  exact Text.infix_intercalate_iff h.ne_nil (h.plain ',' (by simp)) _

mutual
/-- **Where the words of a rendered value are**: in its strings. -/
theorem infix_render_iff {w : List Char} (h : PathWord w) :
    ∀ j : Json, w <:+: (render j).toList ↔ ∃ t ∈ texts j, w <:+: t
  | null => by
    rw [render, texts]
    exact iff_of_false (h.not_infix (by decide)) (by simp)
  | bool b => by
    rw [render, texts]
    refine iff_of_false (h.not_infix ?_) (by simp)
    cases b <;> decide
  | num n => by
    rw [render, texts]
    refine iff_of_false (h.not_infix fun hslash => ?_) (by simp)
    rcases Text.mem_toString hslash with heq | hdigit
    · exact absurd heq (by decide)
    · exact absurd hdigit (by decide)
  | float t => by simp [render, texts]
  | str s => by rw [render, infix_renderStr_iff h, texts]; simp
  | arr xs => by
    have hlist : (render (arr xs)).toList =
        '[' :: ((",".intercalate (renderItems xs)).toList ++ [']']) := by simp [render]
    rw [hlist, infix_brackets_iff h (h.plain '[' (by simp)) (h.plain ']' (by simp)), texts]
    exact infix_renderItems_iff h xs
  | obj es => by
    have hlist : (render (obj es)).toList =
        '\x7b' :: ((",".intercalate (renderEntries es)).toList ++ ['\x7d']) := by simp [render]
    rw [hlist, infix_brackets_iff h (h.plain '\x7b' (by simp)) (h.plain '\x7d' (by simp)), texts]
    exact infix_renderEntries_iff h es

theorem infix_renderItems_iff {w : List Char} (h : PathWord w) : ∀ xs : List Json,
    (∃ p ∈ (renderItems xs).map String.toList, w <:+: p) ↔ ∃ t ∈ textsOfItems xs, w <:+: t
  | [] => by simp [renderItems, textsOfItems]
  | x :: xs => by
    rw [renderItems, List.map_cons, List.exists_mem_cons_iff, infix_render_iff h x,
      infix_renderItems_iff h xs, textsOfItems]
    simp only [List.mem_append, or_and_right, exists_or]

theorem infix_renderEntries_iff {w : List Char} (h : PathWord w) : ∀ es : List (String × Json),
    (∃ p ∈ (renderEntries es).map String.toList, w <:+: p) ↔ ∃ t ∈ textsOfEntries es, w <:+: t
  | [] => by simp [renderEntries, textsOfEntries]
  | (k, v) :: es => by
    have hlist : (renderStr k ++ ":" ++ render v).toList =
        (renderStr k).toList ++ ':' :: (render v).toList := by simp
    rw [renderEntries, List.map_cons, List.exists_mem_cons_iff, hlist,
      Text.infix_append_cons_iff h.ne_nil (h.plain ':' (by simp)), infix_renderStr_iff h,
      infix_render_iff h v, infix_renderEntries_iff h es, textsOfEntries]
    simp only [List.mem_cons, List.mem_append, or_and_right, exists_or, exists_eq_left, or_assoc]
end

/-- The search for a word in the compact text. -/
theorem contains_render_iff {p : String} (h : PathWord p.toList) (j : Json) :
    Text.contains j.render p = true ↔ ∃ t ∈ texts j, p.toList <:+: t := by
  rw [Text.contains_iff, infix_render_iff h]

end Json

end ProxyPanel
