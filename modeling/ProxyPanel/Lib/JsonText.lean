import ProxyPanel.Lib.Json

/-!
# Texts of JSON

A `Doc` is a JSON text with its layout: the tokens as they are written and the space between
them.  `chars` is the text and `value` what it stands for; the texts of scalars are read by a
function that is a parameter.  `parse` reads a text, and `parse_chars` says that it reads every
well-formed document with any space around it.
-/

namespace ProxyPanel.JsonText

open Json

/-! ### Characters -/

def isSpace (c : Char) : Bool := c = ' ' || c = '\t' || c = '\n' || c = '\r'

/-- The characters of a number or of a constant. -/
def isScalarChar (c : Char) : Bool := c.isAlphanum || c = '+' || c = '-' || c = '.'

/-- What ends a value. -/
def isDelimiter (c : Char) : Bool := isSpace c || c = ',' || c = ':' || c = ']' || c = '\x7d'

def hexDigitValue (c : Char) : Option Nat :=
  if c.isDigit then some (c.toNat - 48)
  else if 'a' ≤ c ∧ c ≤ 'f' then some (c.toNat - 87)
  else if 'A' ≤ c ∧ c ≤ 'F' then some (c.toNat - 55)
  else none

/-- The code unit of four hexadecimal digits. -/
def codeUnit (a b c d : Char) : Option Nat := do
  return (← hexDigitValue a) * 4096 + (← hexDigitValue b) * 256 + (← hexDigitValue c) * 16 +
    (← hexDigitValue d)

/-- The character of a short escape. -/
def shortEscape (c : Char) : Option Char :=
  if c = '"' ∨ c = '\\' ∨ c = '/' then some c
  else if c = 'b' then some (Char.ofNat 8)
  else if c = 't' then some '\t'
  else if c = 'n' then some '\n'
  else if c = 'f' then some (Char.ofNat 12)
  else if c = 'r' then some '\r'
  else none

/-- The text of what stands between two quotes. -/
def unescape : List Char → Option (List Char)
  | [] => some []
  | '\\' :: 'u' :: a :: b :: c :: d :: cs =>
    match codeUnit a b c d with
    | none => none
    | some unit =>
      if 0xD800 ≤ unit ∧ unit < 0xDC00 then
        match cs with
        | '\\' :: 'u' :: e :: f :: g :: h :: cs =>
          match codeUnit e f g h with
          | none => none
          | some low =>
            if 0xDC00 ≤ low ∧ low < 0xE000 then
              (unescape cs).map
                (Char.ofNat (0x10000 + (unit - 0xD800) * 1024 + (low - 0xDC00)) :: ·)
            else none
        | _ => none
      else if 0xDC00 ≤ unit ∧ unit < 0xE000 then none
      else (unescape cs).map (Char.ofNat unit :: ·)
  | '\\' :: c :: cs =>
    match shortEscape c with
    | some c => (unescape cs).map (c :: ·)
    | none => none
  | ['\\'] => none
  | c :: cs => if c = '"' ∨ c.toNat < 32 then none else (unescape cs).map (c :: ·)

/-- What stands before the next quote that is not escaped, and what follows it. -/
def readRaw : List Char → Option (List Char × List Char)
  | [] => none
  | '"' :: cs => some ([], cs)
  | '\\' :: c :: cs => (readRaw cs).map fun (raw, rest) => ('\\' :: c :: raw, rest)
  | c :: cs => (readRaw cs).map fun (raw, rest) => (c :: raw, rest)

/-- No quote that is not escaped, and no backslash at the end. -/
def closed : List Char → Bool
  | [] => true
  | '\\' :: _ :: cs => closed cs
  | c :: cs => c ≠ '"' && c ≠ '\\' && closed cs

/-! ### Documents -/

mutual
inductive Doc where
  | scalar (text : List Char) (value : Json)
  | text (raw : List Char)
  | emptyArray (space : List Char)
  | array (items : Items)
  | emptyObject (space : List Char)
  | object (entries : Entries)

/-- Items of an array, each with the space before and after it. -/
inductive Items where
  | last (before : List Char) (item : Doc) (after : List Char)
  | cons (before : List Char) (item : Doc) (after : List Char) (rest : Items)

/-- Entries of an object: space, the key, space, a colon, space, the value and space. -/
inductive Entries where
  | last (before raw between gap : List Char) (value : Doc) (after : List Char)
  | cons (before raw between gap : List Char) (value : Doc) (after : List Char) (rest : Entries)
end

def quoted (raw : List Char) : List Char := '"' :: (raw ++ ['"'])

mutual
def Doc.chars : Doc → List Char
  | .scalar text _ => text
  | .text raw => quoted raw
  | .emptyArray space => '[' :: (space ++ [']'])
  | .array items => '[' :: (items.chars ++ [']'])
  | .emptyObject space => '\x7b' :: (space ++ ['\x7d'])
  | .object entries => '\x7b' :: (entries.chars ++ ['\x7d'])

def Items.chars : Items → List Char
  | .last before item after => before ++ (item.chars ++ after)
  | .cons before item after rest => before ++ (item.chars ++ (after ++ ',' :: rest.chars))

def Entries.chars : Entries → List Char
  | .last before raw between gap value after =>
    before ++ (quoted raw ++ (between ++ ':' :: (gap ++ (value.chars ++ after))))
  | .cons before raw between gap value after rest =>
    before ++ (quoted raw ++ (between ++ ':' :: (gap ++ (value.chars ++
      (after ++ ',' :: rest.chars)))))
end

def textOf (raw : List Char) : String := String.ofList ((unescape raw).getD [])

mutual
def Doc.value : Doc → Json
  | .scalar _ value => value
  | .text raw => str (textOf raw)
  | .emptyArray _ => arr []
  | .array items => arr items.values
  | .emptyObject _ => mkObj []
  | .object entries => mkObj entries.pairs

def Items.values : Items → List Json
  | .last _ item _ => [item.value]
  | .cons _ item _ rest => item.value :: rest.values

def Entries.pairs : Entries → List (String × Json)
  | .last _ raw _ _ value _ => [(textOf raw, value.value)]
  | .cons _ raw _ _ value _ rest => (textOf raw, value.value) :: rest.pairs
end

/-! ### Well-formed documents -/

/-- A string literal. -/
def Literal (raw : List Char) : Prop := closed raw = true ∧ (unescape raw).isSome = true

/-- Neither a string, nor an array, nor an object. -/
def isScalar : Json → Bool
  | .null | .bool _ | .num _ | .float _ => true
  | .str _ | .arr _ | .obj _ => false

section WellFormed

variable (readScalar : List Char → Option Json)

mutual
def Doc.WellFormed : Doc → Prop
  | .scalar text value =>
    text ≠ [] ∧ text.all isScalarChar = true ∧ readScalar text = some value ∧ isScalar value = true
  | .text raw => Literal raw
  | .emptyArray space => space.all isSpace = true
  | .array items => items.WellFormed
  | .emptyObject space => space.all isSpace = true
  | .object entries => entries.WellFormed

def Items.WellFormed : Items → Prop
  | .last before item after =>
    before.all isSpace = true ∧ item.WellFormed ∧ after.all isSpace = true
  | .cons before item after rest =>
    before.all isSpace = true ∧ item.WellFormed ∧ after.all isSpace = true ∧ rest.WellFormed

def Entries.WellFormed : Entries → Prop
  | .last before raw between gap value after =>
    before.all isSpace = true ∧ Literal raw ∧ between.all isSpace = true ∧
      gap.all isSpace = true ∧ value.WellFormed ∧ after.all isSpace = true
  | .cons before raw between gap value after rest =>
    before.all isSpace = true ∧ Literal raw ∧ between.all isSpace = true ∧
      gap.all isSpace = true ∧ value.WellFormed ∧ after.all isSpace = true ∧ rest.WellFormed
end

end WellFormed

mutual
/-- The steps a reader makes. -/
def Doc.size : Doc → Nat
  | .scalar .. | .text _ | .emptyArray _ | .emptyObject _ => 1
  | .array items => items.size + 1
  | .object entries => entries.size + 1

def Items.size : Items → Nat
  | .last _ item _ => item.size + 1
  | .cons _ item _ rest => item.size + rest.size + 1

def Entries.size : Entries → Nat
  | .last _ _ _ _ value _ => value.size + 1
  | .cons _ _ _ _ value _ rest => value.size + rest.size + 1
end

/-! ### Reading -/

def skipSpace (cs : List Char) : List Char := cs.dropWhile isSpace

/-- The rest of a string literal. -/
def parseText (cs : List Char) : Option (String × List Char) :=
  (readRaw cs).bind fun (raw, rest) => (unescape raw).map fun text => (String.ofList text, rest)

/-- The key of an entry and its colon. -/
def parseKey (cs : List Char) : Option (String × List Char) :=
  match skipSpace cs with
  | '"' :: rest =>
    (parseText rest).bind fun (key, rest) =>
      match skipSpace rest with
      | ':' :: rest => some (key, rest)
      | _ => none
  | _ => none

section Parse

variable (readScalar : List Char → Option Json)

mutual
def parseValue : Nat → List Char → Option (Json × List Char)
  | 0, _ => none
  | n + 1, cs =>
    match skipSpace cs with
    | '"' :: rest => (parseText rest).map fun (text, rest) => (str text, rest)
    | '[' :: rest =>
      match skipSpace rest with
      | ']' :: rest => some (arr [], rest)
      | _ => (parseItems n rest).map fun (items, rest) => (arr items, rest)
    | '\x7b' :: rest =>
      match skipSpace rest with
      | '\x7d' :: rest => some (mkObj [], rest)
      | _ => (parseEntries n rest).map fun (entries, rest) => (mkObj entries, rest)
    | cs => (readScalar (cs.takeWhile isScalarChar)).map fun value =>
        (value, cs.dropWhile isScalarChar)

def parseItems : Nat → List Char → Option (List Json × List Char)
  | 0, _ => none
  | n + 1, cs =>
    (parseValue n cs).bind fun (item, rest) =>
      match skipSpace rest with
      | ',' :: rest => (parseItems n rest).map fun (items, rest) => (item :: items, rest)
      | ']' :: rest => some ([item], rest)
      | _ => none

def parseEntries : Nat → List Char → Option (List (String × Json) × List Char)
  | 0, _ => none
  | n + 1, cs =>
    (parseKey cs).bind fun (key, rest) =>
      (parseValue n rest).bind fun (value, rest) =>
        match skipSpace rest with
        | ',' :: rest =>
          (parseEntries n rest).map fun (entries, rest) => ((key, value) :: entries, rest)
        | '\x7d' :: rest => some ([(key, value)], rest)
        | _ => none
end

/-- The value of a whole text. -/
def parse (cs : List Char) : Option Json :=
  match parseValue readScalar (cs.length + 1) cs with
  | some (value, rest) => if skipSpace rest = [] then some value else none
  | none => none

end Parse

/-! ### Every document is read -/

theorem skipSpace_append {space : List Char} (h : space.all isSpace = true) (cs : List Char) :
    skipSpace (space ++ cs) = skipSpace cs := by
  rw [skipSpace, List.dropWhile_append_of_pos fun c hc => List.all_eq_true.mp h c hc, ← skipSpace]

theorem skipSpace_cons {c : Char} (h : isSpace c = false) (cs : List Char) :
    skipSpace (c :: cs) = c :: cs :=
  List.dropWhile_cons_of_neg (by rw [h]; exact Bool.false_ne_true)

theorem readRaw_append {raw : List Char} (h : closed raw = true) (rest : List Char) :
    readRaw (raw ++ '"' :: rest) = some (raw, rest) := by
  fun_induction closed raw with
  | case1 => rfl
  | case2 c cs ih =>
    simp only [List.cons_append, readRaw, ih h, Option.map_some]
  | case3 c cs hnot ih =>
    simp only [Bool.and_eq_true, decide_eq_true_eq] at h
    obtain ⟨⟨hquote, hslash⟩, hrest⟩ := h
    rw [List.cons_append, readRaw, ih hrest]
    · rfl
    · exact hquote
    · exact fun _ _ hc _ => hslash hc

theorem parseText_append {raw : List Char} (h : Literal raw) (rest : List Char) :
    parseText (raw ++ '"' :: rest) = some (textOf raw, rest) := by
  obtain ⟨text, htext⟩ := Option.isSome_iff_exists.mp h.2
  rw [parseText, readRaw_append h.1, Option.bind_some, textOf]
  dsimp only
  rw [htext]
  rfl

theorem parseKey_append {before raw between : List Char} (hbefore : before.all isSpace = true)
    (hraw : Literal raw) (hbetween : between.all isSpace = true) (rest : List Char) :
    parseKey (before ++ (quoted raw ++ (between ++ ':' :: rest))) = some (textOf raw, rest) := by
  have hquote : skipSpace (before ++ (quoted raw ++ (between ++ ':' :: rest))) =
      '"' :: (raw ++ '"' :: (between ++ ':' :: rest)) := by
    rw [skipSpace_append hbefore, quoted, List.cons_append, List.append_assoc,
      skipSpace_cons (by decide), List.singleton_append]
  rw [parseKey, hquote]
  change (parseText (raw ++ '"' :: (between ++ ':' :: rest))).bind _ = _
  rw [parseText_append hraw, Option.bind_some]
  dsimp only
  rw [skipSpace_append hbetween, skipSpace_cons (by decide)]
  rfl

theorem ne_of_isScalarChar {c d : Char} (hc : isScalarChar c = true)
    (hd : isScalarChar d = false) : c ≠ d := by
  rintro rfl
  rw [hc] at hd
  cases hd

theorem isSpace_iff {c : Char} : isSpace c = true ↔ c = ' ' ∨ c = '\t' ∨ c = '\n' ∨ c = '\r' := by
  simp only [isSpace, Bool.or_eq_true, decide_eq_true_eq, or_assoc]

theorem not_isScalarChar_of_isSpace {c : Char} (h : isSpace c = true) : isScalarChar c = false := by
  rcases isSpace_iff.mp h with rfl | rfl | rfl | rfl <;> decide

theorem not_isSpace_of_isScalarChar {c : Char} (h : isScalarChar c = true) : isSpace c = false := by
  cases hspace : isSpace c with
  | false => rfl
  | true =>
    rw [not_isScalarChar_of_isSpace hspace] at h
    cases h

theorem not_isScalarChar_of_isDelimiter {c : Char} (h : isDelimiter c = true) :
    isScalarChar c = false := by
  simp only [isDelimiter, Bool.or_eq_true, decide_eq_true_eq] at h
  rcases h with (((h | rfl) | rfl) | rfl) | rfl
  · exact not_isScalarChar_of_isSpace h
  · decide
  · decide
  · decide
  · decide

/-- What may follow a value. -/
def Follows (rest : List Char) : Prop := ∀ c ∈ rest.head?, isDelimiter c = true

theorem follows_nil : Follows [] := fun c hc => by cases hc

theorem follows_of_isSpace {space : List Char} (h : space.all isSpace = true) : Follows space := by
  cases space with
  | nil => exact follows_nil
  | cons c cs =>
    intro d hd
    cases hd
    have hc : isSpace c = true := List.all_eq_true.mp h c List.mem_cons_self
    simp [isDelimiter, hc]

theorem follows_cons {c : Char} (hc : isDelimiter c = true) (rest : List Char) :
    Follows (c :: rest) := by
  intro d hd
  cases hd
  exact hc

theorem follows_space {space rest : List Char} (h : space.all isSpace = true)
    (hrest : Follows rest) : Follows (space ++ rest) := by
  cases space with
  | nil => exact hrest
  | cons e es =>
    intro d hd
    exact follows_of_isSpace h d hd

theorem follows_append {space : List Char} (h : space.all isSpace = true) {c : Char}
    (hc : isDelimiter c = true) (rest : List Char) : Follows (space ++ c :: rest) :=
  follows_space h (follows_cons hc rest)

theorem takeWhile_scalar {text rest : List Char} (h : text.all isScalarChar = true)
    (hrest : Follows rest) : (text ++ rest).takeWhile isScalarChar = text ∧
      (text ++ rest).dropWhile isScalarChar = rest := by
  have hall : ∀ c ∈ text, isScalarChar c = true := List.all_eq_true.mp h
  rw [List.takeWhile_append_of_pos hall, List.dropWhile_append_of_pos hall]
  cases rest with
  | nil => exact ⟨List.append_nil text, rfl⟩
  | cons c cs =>
    have hc : ¬ isScalarChar c = true := by
      rw [not_isScalarChar_of_isDelimiter (hrest c rfl)]
      exact Bool.false_ne_true
    rw [List.takeWhile_cons_of_neg hc, List.dropWhile_cons_of_neg hc, List.append_nil]
    exact ⟨rfl, rfl⟩

/-! ### The branches of the reader -/

section Branches

variable (readScalar : List Char → Option Json) {cs rest more : List Char} (n : Nat)

-- The equations of the reader are made once, here, and not by each proof that asks for them.
attribute [local simp] parseValue parseItems parseEntries

theorem parseValue_quote (h : skipSpace cs = '"' :: rest) : parseValue readScalar (n + 1) cs =
    (parseText rest).map fun (text, rest) => (str text, rest) := by
  rw [parseValue, h]
  rfl

theorem parseValue_emptyArray (h : skipSpace cs = '[' :: rest)
    (hend : skipSpace rest = ']' :: more) :
    parseValue readScalar (n + 1) cs = some (arr [], more) := by
  rw [parseValue, h]
  change (match skipSpace rest with
    | ']' :: rest => some (arr [], rest)
    | _ => (parseItems readScalar n rest).map fun (items, rest) => (arr items, rest)) = _
  rw [hend]
  rfl

theorem parseValue_array {c : Char} (h : skipSpace cs = '[' :: rest)
    (hmore : skipSpace rest = c :: more) (hc : c ≠ ']') : parseValue readScalar (n + 1) cs =
      (parseItems readScalar n rest).map fun (items, rest) => (arr items, rest) := by
  rw [parseValue, h]
  change (match skipSpace rest with
    | ']' :: rest => some (arr [], rest)
    | _ => (parseItems readScalar n rest).map fun (items, rest) => (arr items, rest)) = _
  rw [hmore]
  split
  · rename_i heq
    exact absurd (List.cons.inj heq).1 hc
  · rfl

theorem parseValue_emptyObject (h : skipSpace cs = '\x7b' :: rest)
    (hend : skipSpace rest = '\x7d' :: more) :
    parseValue readScalar (n + 1) cs = some (mkObj [], more) := by
  rw [parseValue, h]
  change (match skipSpace rest with
    | '\x7d' :: rest => some (mkObj [], rest)
    | _ => (parseEntries readScalar n rest).map fun (entries, rest) => (mkObj entries, rest)) = _
  rw [hend]
  rfl

theorem parseValue_object (h : skipSpace cs = '\x7b' :: rest)
    (hmore : skipSpace rest = '"' :: more) : parseValue readScalar (n + 1) cs =
      (parseEntries readScalar n rest).map fun (entries, rest) => (mkObj entries, rest) := by
  rw [parseValue, h]
  change (match skipSpace rest with
    | '\x7d' :: rest => some (mkObj [], rest)
    | _ => (parseEntries readScalar n rest).map fun (entries, rest) => (mkObj entries, rest)) = _
  rw [hmore]
  rfl

theorem parseValue_scalar {c : Char} (h : skipSpace cs = c :: rest) (hc : isScalarChar c = true) :
    parseValue readScalar (n + 1) cs =
      (readScalar ((c :: rest).takeWhile isScalarChar)).map fun value =>
        (value, (c :: rest).dropWhile isScalarChar) := by
  rw [parseValue, h]
  split
  · rename_i heq
    exact absurd (List.cons.inj heq).1 (ne_of_isScalarChar hc (by decide))
  · rename_i heq
    exact absurd (List.cons.inj heq).1 (ne_of_isScalarChar hc (by decide))
  · rename_i heq
    exact absurd (List.cons.inj heq).1 (ne_of_isScalarChar hc (by decide))
  · rfl

theorem parseItems_last {item : Json} (h : parseValue readScalar n cs = some (item, rest))
    (hend : skipSpace rest = ']' :: more) :
    parseItems readScalar (n + 1) cs = some ([item], more) := by
  rw [parseItems, h, Option.bind_some]
  dsimp only
  rw [hend]
  rfl

theorem parseItems_cons {item : Json} (h : parseValue readScalar n cs = some (item, rest))
    (hmore : skipSpace rest = ',' :: more) : parseItems readScalar (n + 1) cs =
      (parseItems readScalar n more).map fun (items, rest) => (item :: items, rest) := by
  rw [parseItems, h, Option.bind_some]
  dsimp only
  rw [hmore]
  rfl

theorem parseEntries_last {key : String} {value : Json} {afterKey : List Char}
    (hkey : parseKey cs = some (key, afterKey))
    (hvalue : parseValue readScalar n afterKey = some (value, rest))
    (hend : skipSpace rest = '\x7d' :: more) :
    parseEntries readScalar (n + 1) cs = some ([(key, value)], more) := by
  rw [parseEntries, hkey, Option.bind_some]
  dsimp only
  rw [hvalue, Option.bind_some]
  dsimp only
  rw [hend]
  rfl

theorem parseEntries_cons {key : String} {value : Json} {afterKey : List Char}
    (hkey : parseKey cs = some (key, afterKey))
    (hvalue : parseValue readScalar n afterKey = some (value, rest))
    (hmore : skipSpace rest = ',' :: more) : parseEntries readScalar (n + 1) cs =
      (parseEntries readScalar n more).map fun (entries, rest) =>
        ((key, value) :: entries, rest) := by
  rw [parseEntries, hkey, Option.bind_some]
  dsimp only
  rw [hvalue, Option.bind_some]
  dsimp only
  rw [hmore]
  rfl

end Branches

section Reads

variable {readScalar : List Char → Option Json}

/-- A document begins with a character that is no space and closes nothing. -/
theorem exists_chars_eq_cons {d : Doc} (h : d.WellFormed readScalar) :
    ∃ c cs, d.chars = c :: cs ∧ isSpace c = false ∧ c ≠ ']' ∧ c ≠ '\x7d' := by
  cases d with
  | scalar text value =>
    rw [Doc.WellFormed] at h
    obtain ⟨c, cs, rfl⟩ := List.exists_cons_of_ne_nil h.1
    have hc : isScalarChar c = true := List.all_eq_true.mp h.2.1 c List.mem_cons_self
    exact ⟨c, cs, by rw [Doc.chars], not_isSpace_of_isScalarChar hc,
      ne_of_isScalarChar hc (by decide), ne_of_isScalarChar hc (by decide)⟩
  | text raw => exact ⟨'"', _, by rw [Doc.chars, quoted], by decide, by decide, by decide⟩
  | emptyArray space => exact ⟨'[', _, by rw [Doc.chars], by decide, by decide, by decide⟩
  | array items => exact ⟨'[', _, by rw [Doc.chars], by decide, by decide, by decide⟩
  | emptyObject space => exact ⟨'\x7b', _, by rw [Doc.chars], by decide, by decide, by decide⟩
  | object entries => exact ⟨'\x7b', _, by rw [Doc.chars], by decide, by decide, by decide⟩

theorem size_pos (d : Doc) : 0 < d.size := by
  cases d <;> rw [Doc.size] <;> exact Nat.succ_pos _

theorem exists_succ_of_le {k n : Nat} (hk : 0 < k) (hn : k ≤ n) : ∃ m, n = m + 1 :=
  Nat.exists_eq_succ_of_ne_zero (Nat.ne_of_gt (Nat.lt_of_lt_of_le hk hn))

/-- Items do not begin with the end of the array. -/
theorem exists_skipSpace_items {items : Items} (h : items.WellFormed readScalar)
    (rest : List Char) : ∃ c cs, skipSpace (items.chars ++ rest) = c :: cs ∧ c ≠ ']' := by
  cases items with
  | last before item after =>
    rw [Items.WellFormed] at h
    obtain ⟨c, cs, hchars, hspace, hclose, _⟩ := exists_chars_eq_cons h.2.1
    refine ⟨c, cs ++ (after ++ rest), ?_, hclose⟩
    rw [Items.chars, List.append_assoc, skipSpace_append h.1, hchars, List.cons_append,
      List.cons_append, skipSpace_cons hspace, List.append_assoc]
  | cons before item after others =>
    rw [Items.WellFormed] at h
    obtain ⟨c, cs, hchars, hspace, hclose, _⟩ := exists_chars_eq_cons h.2.1
    refine ⟨c, cs ++ ((after ++ ',' :: others.chars) ++ rest), ?_, hclose⟩
    rw [Items.chars, List.append_assoc, skipSpace_append h.1, hchars, List.cons_append,
      List.cons_append, skipSpace_cons hspace, List.append_assoc]

/-- Entries begin with a key. -/
theorem exists_skipSpace_entries {entries : Entries} (h : entries.WellFormed readScalar)
    (rest : List Char) : ∃ cs, skipSpace (entries.chars ++ rest) = '"' :: cs := by
  cases entries with
  | last before raw between gap value after =>
    rw [Entries.WellFormed] at h
    rw [Entries.chars, List.append_assoc, skipSpace_append h.1, quoted, List.cons_append,
      List.cons_append, skipSpace_cons (by decide)]
    exact ⟨_, rfl⟩
  | cons before raw between gap value after others =>
    rw [Entries.WellFormed] at h
    rw [Entries.chars, List.append_assoc, skipSpace_append h.1, quoted, List.cons_append,
      List.cons_append, skipSpace_cons (by decide)]
    exact ⟨_, rfl⟩

mutual
theorem parseValue_chars : ∀ {d : Doc} {n : Nat} (rest : List Char), d.WellFormed readScalar →
    d.size ≤ n → Follows rest → ∀ {space : List Char}, space.all isSpace = true →
    parseValue readScalar n (space ++ (d.chars ++ rest)) = some (d.value, rest)
  | .scalar text value, n, rest, h, hn, hrest, space, hspace => by
    obtain ⟨m, rfl⟩ := exists_succ_of_le (size_pos _) hn
    rw [Doc.WellFormed] at h
    obtain ⟨htake, hdrop⟩ := takeWhile_scalar h.2.1 hrest
    obtain ⟨c, cs, rfl⟩ := List.exists_cons_of_ne_nil h.1
    have hc : isScalarChar c = true := List.all_eq_true.mp h.2.1 c List.mem_cons_self
    have hskip : skipSpace (space ++ (c :: cs ++ rest)) = c :: (cs ++ rest) := by
      rw [skipSpace_append hspace, List.cons_append,
        skipSpace_cons (not_isSpace_of_isScalarChar hc)]
    rw [Doc.chars, parseValue_scalar readScalar m hskip hc, ← List.cons_append, htake, hdrop,
      h.2.2.1]
    rfl
  | .text raw, n, rest, h, hn, hrest, space, hspace => by
    obtain ⟨m, rfl⟩ := exists_succ_of_le (size_pos _) hn
    rw [Doc.WellFormed] at h
    have hskip : skipSpace (space ++ (quoted raw ++ rest)) = '"' :: (raw ++ '"' :: rest) := by
      rw [skipSpace_append hspace, quoted, List.cons_append, List.append_assoc,
        skipSpace_cons (by decide), List.singleton_append]
    rw [Doc.chars, parseValue_quote readScalar m hskip, parseText_append h]
    rfl
  | .emptyArray inner, n, rest, h, hn, hrest, space, hspace => by
    obtain ⟨m, rfl⟩ := exists_succ_of_le (size_pos _) hn
    rw [Doc.WellFormed] at h
    have hskip : skipSpace (space ++ ('[' :: (inner ++ [']']) ++ rest)) =
        '[' :: (inner ++ ']' :: rest) := by
      rw [skipSpace_append hspace, List.cons_append, List.append_assoc, skipSpace_cons (by decide),
        List.singleton_append]
    have hend : skipSpace (inner ++ ']' :: rest) = ']' :: rest := by
      rw [skipSpace_append h, skipSpace_cons (by decide)]
    rw [Doc.chars, parseValue_emptyArray readScalar m hskip hend, Doc.value]
  | .array items, n, rest, h, hn, hrest, space, hspace => by
    obtain ⟨m, rfl⟩ := exists_succ_of_le (size_pos _) hn
    rw [Doc.WellFormed] at h
    rw [Doc.size] at hn
    have hskip : skipSpace (space ++ ('[' :: (items.chars ++ [']']) ++ rest)) =
        '[' :: (items.chars ++ ']' :: rest) := by
      rw [skipSpace_append hspace, List.cons_append, List.append_assoc, skipSpace_cons (by decide),
        List.singleton_append]
    obtain ⟨c, cs, hmore, hc⟩ := exists_skipSpace_items h (']' :: rest)
    rw [Doc.chars, parseValue_array readScalar m hskip hmore hc,
      parseItems_chars rest h (Nat.le_of_succ_le_succ hn), Doc.value]
    rfl
  | .emptyObject inner, n, rest, h, hn, hrest, space, hspace => by
    obtain ⟨m, rfl⟩ := exists_succ_of_le (size_pos _) hn
    rw [Doc.WellFormed] at h
    have hskip : skipSpace (space ++ ('\x7b' :: (inner ++ ['\x7d']) ++ rest)) =
        '\x7b' :: (inner ++ '\x7d' :: rest) := by
      rw [skipSpace_append hspace, List.cons_append, List.append_assoc, skipSpace_cons (by decide),
        List.singleton_append]
    have hend : skipSpace (inner ++ '\x7d' :: rest) = '\x7d' :: rest := by
      rw [skipSpace_append h, skipSpace_cons (by decide)]
    rw [Doc.chars, parseValue_emptyObject readScalar m hskip hend, Doc.value]
  | .object entries, n, rest, h, hn, hrest, space, hspace => by
    obtain ⟨m, rfl⟩ := exists_succ_of_le (size_pos _) hn
    rw [Doc.WellFormed] at h
    rw [Doc.size] at hn
    have hskip : skipSpace (space ++ ('\x7b' :: (entries.chars ++ ['\x7d']) ++ rest)) =
        '\x7b' :: (entries.chars ++ '\x7d' :: rest) := by
      rw [skipSpace_append hspace, List.cons_append, List.append_assoc, skipSpace_cons (by decide),
        List.singleton_append]
    obtain ⟨cs, hmore⟩ := exists_skipSpace_entries h ('\x7d' :: rest)
    rw [Doc.chars, parseValue_object readScalar m hskip hmore,
      parseEntries_chars rest h (Nat.le_of_succ_le_succ hn), Doc.value]
    rfl

theorem parseItems_chars : ∀ {items : Items} {n : Nat} (rest : List Char),
    items.WellFormed readScalar → items.size ≤ n →
    parseItems readScalar n (items.chars ++ ']' :: rest) = some (items.values, rest)
  | .last before item after, n, rest, h, hn => by
    rw [Items.size] at hn
    obtain ⟨m, rfl⟩ := exists_succ_of_le (Nat.succ_pos _) hn
    rw [Items.WellFormed] at h
    obtain ⟨hbefore, hitem, hafter⟩ := h
    have hread := parseValue_chars (after ++ ']' :: rest) hitem (Nat.le_of_succ_le_succ hn)
      (follows_append hafter (by decide) rest) hbefore
    have hend : skipSpace (after ++ ']' :: rest) = ']' :: rest := by
      rw [skipSpace_append hafter, skipSpace_cons (by decide)]
    rw [Items.chars, List.append_assoc, List.append_assoc, parseItems_last readScalar m hread hend,
      Items.values]
  | .cons before item after others, n, rest, h, hn => by
    rw [Items.size] at hn
    obtain ⟨m, rfl⟩ := exists_succ_of_le (Nat.succ_pos _) hn
    have hn := Nat.le_of_succ_le_succ hn
    rw [Items.WellFormed] at h
    obtain ⟨hbefore, hitem, hafter, hothers⟩ := h
    have hread := parseValue_chars (after ++ ',' :: (others.chars ++ ']' :: rest)) hitem
      (Nat.le_trans (Nat.le_add_right _ _) hn) (follows_append hafter (by decide) _) hbefore
    have hmore : skipSpace (after ++ ',' :: (others.chars ++ ']' :: rest)) =
        ',' :: (others.chars ++ ']' :: rest) := by
      rw [skipSpace_append hafter, skipSpace_cons (by decide)]
    rw [Items.chars, List.append_assoc, List.append_assoc, List.append_assoc, List.cons_append,
      parseItems_cons readScalar m hread hmore,
      parseItems_chars rest hothers (Nat.le_trans (Nat.le_add_left _ _) hn), Items.values]
    rfl

theorem parseEntries_chars : ∀ {entries : Entries} {n : Nat} (rest : List Char),
    entries.WellFormed readScalar → entries.size ≤ n →
    parseEntries readScalar n (entries.chars ++ '\x7d' :: rest) = some (entries.pairs, rest)
  | .last before raw between gap value after, n, rest, h, hn => by
    rw [Entries.size] at hn
    obtain ⟨m, rfl⟩ := exists_succ_of_le (Nat.succ_pos _) hn
    rw [Entries.WellFormed] at h
    obtain ⟨hbefore, hkey, hbetween, hgap, hvalue, hafter⟩ := h
    have hread := parseValue_chars (after ++ '\x7d' :: rest) hvalue (Nat.le_of_succ_le_succ hn)
      (follows_append hafter (by decide) rest) hgap
    have hend : skipSpace (after ++ '\x7d' :: rest) = '\x7d' :: rest := by
      rw [skipSpace_append hafter, skipSpace_cons (by decide)]
    simp only [Entries.chars, List.append_assoc, List.cons_append]
    rw [parseEntries_last readScalar m (parseKey_append hbefore hkey hbetween _) hread hend,
      Entries.pairs]
  | .cons before raw between gap value after others, n, rest, h, hn => by
    rw [Entries.size] at hn
    obtain ⟨m, rfl⟩ := exists_succ_of_le (Nat.succ_pos _) hn
    have hn := Nat.le_of_succ_le_succ hn
    rw [Entries.WellFormed] at h
    obtain ⟨hbefore, hkey, hbetween, hgap, hvalue, hafter, hothers⟩ := h
    have hread := parseValue_chars (after ++ ',' :: (others.chars ++ '\x7d' :: rest)) hvalue
      (Nat.le_trans (Nat.le_add_right _ _) hn) (follows_append hafter (by decide) _) hgap
    have hmore : skipSpace (after ++ ',' :: (others.chars ++ '\x7d' :: rest)) =
        ',' :: (others.chars ++ '\x7d' :: rest) := by
      rw [skipSpace_append hafter, skipSpace_cons (by decide)]
    simp only [Entries.chars, List.append_assoc, List.cons_append]
    rw [parseEntries_cons readScalar m (parseKey_append hbefore hkey hbetween _) hread hmore,
      parseEntries_chars rest hothers (Nat.le_trans (Nat.le_add_left _ _) hn), Entries.pairs]
    rfl
end

mutual
theorem Doc.size_le : ∀ {d : Doc}, d.WellFormed readScalar → d.size ≤ d.chars.length
  | .scalar text value, h => by
    rw [Doc.WellFormed] at h
    rw [Doc.size, Doc.chars]
    exact List.length_pos_iff.mpr h.1
  | .text raw, _ => by
    simp only [Doc.size, Doc.chars, quoted, List.length_cons]
    omega
  | .emptyArray inner, _ => by
    simp only [Doc.size, Doc.chars, List.length_cons]
    omega
  | .array items, h => by
    rw [Doc.WellFormed] at h
    have hitems := Items.size_le h
    simp only [Doc.size, Doc.chars, List.length_cons, List.length_append, List.length_nil]
    omega
  | .emptyObject inner, _ => by
    simp only [Doc.size, Doc.chars, List.length_cons]
    omega
  | .object entries, h => by
    rw [Doc.WellFormed] at h
    have hentries := Entries.size_le h
    simp only [Doc.size, Doc.chars, List.length_cons, List.length_append, List.length_nil]
    omega

theorem Items.size_le : ∀ {items : Items}, items.WellFormed readScalar →
    items.size ≤ items.chars.length + 1
  | .last before item after, h => by
    rw [Items.WellFormed] at h
    have hitem := Doc.size_le h.2.1
    simp only [Items.size, Items.chars, List.length_append]
    omega
  | .cons before item after rest, h => by
    rw [Items.WellFormed] at h
    have hitem := Doc.size_le h.2.1
    have hrest := Items.size_le h.2.2.2
    simp only [Items.size, Items.chars, List.length_append, List.length_cons]
    omega

theorem Entries.size_le : ∀ {entries : Entries}, entries.WellFormed readScalar →
    entries.size ≤ entries.chars.length + 1
  | .last before raw between gap value after, h => by
    rw [Entries.WellFormed] at h
    have hvalue := Doc.size_le h.2.2.2.2.1
    simp only [Entries.size, Entries.chars, quoted, List.length_append, List.length_cons]
    omega
  | .cons before raw between gap value after rest, h => by
    rw [Entries.WellFormed] at h
    have hvalue := Doc.size_le h.2.2.2.2.1
    have hrest := Entries.size_le h.2.2.2.2.2.2
    simp only [Entries.size, Entries.chars, quoted, List.length_append, List.length_cons]
    omega
end

/-- **Every document is read as its value**, with any space around it. -/
theorem parse_chars {d : Doc} (h : d.WellFormed readScalar) {before after : List Char}
    (hbefore : before.all isSpace = true) (hafter : after.all isSpace = true) :
    parse readScalar (before ++ (d.chars ++ after)) = some d.value := by
  have hsize : d.size ≤ (before ++ (d.chars ++ after)).length + 1 := by
    have := Doc.size_le h
    simp only [List.length_append]
    omega
  have hend : skipSpace after = [] := by
    rw [← List.append_nil after, skipSpace_append hafter]
    rfl
  rw [parse, parseValue_chars after h hsize (follows_of_isSpace hafter) hbefore]
  exact if_pos hend

end Reads

/-! ### Depth -/

mutual
/-- How deep arrays and objects stand in each other. -/
def Doc.depth : Doc → Nat
  | .scalar .. | .text _ => 0
  | .emptyArray _ | .emptyObject _ => 1
  | .array items => items.depth + 1
  | .object entries => entries.depth + 1

def Items.depth : Items → Nat
  | .last _ item _ => item.depth
  | .cons _ item _ rest => max item.depth rest.depth

def Entries.depth : Entries → Nat
  | .last _ _ _ _ value _ => value.depth
  | .cons _ _ _ _ value _ rest => max value.depth rest.depth
end

end ProxyPanel.JsonText
