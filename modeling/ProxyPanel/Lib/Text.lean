import Mathlib.Algebra.Ring.Int.Defs
import Mathlib.Algebra.Ring.Nat
import Mathlib.Tactic.Common

/-!
# Text

Strings as the standard library of the source language reads them.  Everything
goes through `String.toList`, so a statement about a string is a statement about
a list of characters: `split` and `trim` on one side, `List.splitOn` and
`List.dropWhile` on the other.
-/

namespace ProxyPanel.Text

/-- The characters with the Unicode property `White_Space`, which `trim` removes. -/
def isWhite (c : Char) : Bool :=
  (9 ≤ c.toNat && c.toNat ≤ 13) || c.toNat == 0x20 || c.toNat == 0x85 || c.toNat == 0xA0 ||
    c.toNat == 0x1680 || (0x2000 ≤ c.toNat && c.toNat ≤ 0x200A) || c.toNat == 0x2028 ||
    c.toNat == 0x2029 || c.toNat == 0x202F || c.toNat == 0x205F || c.toNat == 0x3000

def trim (s : String) : String :=
  String.ofList ((s.toList.dropWhile isWhite).reverse.dropWhile isWhite).reverse

def split (c : Char) (s : String) : List String :=
  (s.toList.splitOn c).map String.ofList

/-- The pieces of a comma-separated string, trimmed, without the empty ones. -/
def commaPieces (s : String) : List String :=
  ((split ',' s).map trim).filter (fun p => p ≠ "")

/-- The text before and after the last `c`. -/
def rsplitOnce (c : Char) (s : String) : Option (String × String) :=
  if c ∈ s.toList then
    let tail := (s.toList.reverse.takeWhile (· ≠ c)).reverse
    some (String.ofList (s.toList.take (s.toList.length - tail.length - 1)), String.ofList tail)
  else none

def startsWith (s p : String) : Bool := p.toList.isPrefixOf s.toList

/-- ASCII letters in lower case, every other character as it is. -/
def toAsciiLowercase (s : String) : String := String.ofList (s.toList.map Char.toLower)

def isInfixOf (p : List Char) : List Char → Bool
  | [] => p.isEmpty
  | c :: cs => p.isPrefixOf (c :: cs) || isInfixOf p cs

def contains (s p : String) : Bool := isInfixOf p.toList s.toList

/-- An unsigned decimal number of at most `max`, with an optional `+` in front. -/
def parseUnsigned (max : Nat) (s : String) : Option Nat :=
  let digits := match s.toList with
    | '+' :: rest => rest
    | cs => cs
  if digits ≠ [] ∧ digits.all Char.isDigit then
    let n := digits.foldl (fun n c => 10 * n + (c.toNat - '0'.toNat)) 0
    if n ≤ max then some n else none
  else none

/-- A decimal number without a sign. -/
def digitsValue (cs : List Char) : Option Nat :=
  if cs ≠ [] ∧ cs.all Char.isDigit then some (Nat.ofDigitChars 10 cs 0) else none

/-- A decimal number with an optional minus sign. -/
def parseInt (s : String) : Option Int :=
  match s.toList with
  | '-' :: cs => (digitsValue cs).map fun n => -(n : Int)
  | cs => (digitsValue cs).map fun n => (n : Int)

/-- The maximal runs of decimal digits, in order. -/
def digitRuns (s : String) : List String :=
  ((s.toList.splitOnP (fun c => !c.isDigit)).map String.ofList).filter (fun p => p ≠ "")

/-- The number after `key=` in one of the pieces between semicolons. -/
def fieldOf (key header : String) : Option Int :=
  ((split ';' header).map trim).findSome? fun piece =>
    if startsWith piece (key ++ "=") then
      parseInt (String.ofList (piece.toList.drop (key ++ "=").toList.length))
    else none

def upperHexDigit (n : Nat) : Char := if n < 10 then Char.ofNat (48 + n) else Char.ofNat (55 + n)

/-- One byte of a form-encoded string. -/
def formEncodeByte (b : UInt8) : List Char :=
  let c := Char.ofNat b.toNat
  if c.isAlphanum || c = '*' || c = '-' || c = '.' || c = '_' then [c]
  else if c = ' ' then ['+']
  else ['%', upperHexDigit (b.toNat / 16), upperHexDigit (b.toNat % 16)]

/-- `application/x-www-form-urlencoded`, byte by byte. -/
def formEncode (s : String) : String :=
  String.ofList ((s.toList.flatMap String.utf8EncodeChar).flatMap formEncodeByte)

/-! ### Reading a form-encoded string -/

def hexValue (c : Char) : Nat := if c.isDigit then c.toNat - 48 else c.toNat - 55

/-- The bytes behind form-encoded characters. -/
def formDecodeBytes : List Char → List UInt8
  | [] => []
  | '%' :: x :: y :: cs => UInt8.ofNat (16 * hexValue x + hexValue y) :: formDecodeBytes cs
  | c :: cs => (if c = '+' then 0x20 else UInt8.ofNat c.toNat) :: formDecodeBytes cs

/-- The string a form-encoded string stands for. -/
def formDecode (s : String) : Option String :=
  (formDecodeBytes s.toList).toByteArray.utf8Decode?.map fun cs => String.ofList cs.toList

theorem hexValue_upperHexDigit : ∀ n < 16, hexValue (upperHexDigit n) = n := by decide

theorem toNat_ofNat_byte : ∀ n < 256, (Char.ofNat n).toNat = n := by decide +kernel

theorem formDecodeBytes_byte (b : UInt8) (cs : List Char) :
    formDecodeBytes (formEncodeByte b ++ cs) = b :: formDecodeBytes cs := by
  have hlt : b.toNat < 256 := UInt8.toNat_lt b
  have hbyte : (Char.ofNat b.toNat).toNat = b.toNat := toNat_ofNat_byte _ hlt
  simp only [formEncodeByte]
  split
  · rename_i hplain
    generalize Char.ofNat b.toNat = c at hbyte hplain
    have hpercent : c ≠ '%' := by
      rintro rfl
      exact absurd hplain (by decide)
    have hplus : c ≠ '+' := by
      rintro rfl
      exact absurd hplain (by decide)
    rw [List.singleton_append, formDecodeBytes, if_neg hplus, hbyte, UInt8.ofNat_toNat]
    intro x y rest heq
    exact absurd heq hpercent
  · split
    · rename_i hblank
      have hb : b = 0x20 := by
        rw [hblank] at hbyte
        exact UInt8.toNat_inj.mp hbyte.symm
      rw [hb, List.singleton_append, formDecodeBytes, if_pos rfl]
      intro x y rest heq
      exact absurd heq (by decide)
    · rw [List.cons_append, List.cons_append, List.singleton_append, formDecodeBytes,
        hexValue_upperHexDigit _ (by omega), hexValue_upperHexDigit _ (by omega), Nat.div_add_mod,
        UInt8.ofNat_toNat]

theorem formDecodeBytes_flatMap (bs : List UInt8) :
    formDecodeBytes (bs.flatMap formEncodeByte) = bs := by
  induction bs with
  | nil => rfl
  | cons b bs ih => rw [List.flatMap_cons, formDecodeBytes_byte, ih]

/-- **Encoding loses nothing.** -/
theorem formDecode_formEncode (s : String) : formDecode (formEncode s) = some s := by
  rw [formDecode, formEncode, String.toList_ofList, formDecodeBytes_flatMap]
  change s.toList.utf8Encode.utf8Decode?.map _ = _
  rw [List.utf8Decode?_utf8Encode, Option.map_some, String.ofList_toList]

/-! ### Pieces -/

/-- What stands after the last `c`. -/
theorem rsplitOnce_of_toList {c : Char} {s : String} {xs ys : List Char}
    (h : s.toList = xs ++ c :: ys) (hys : c ∉ ys) :
    rsplitOnce c s = some (String.ofList xs, String.ofList ys) := by
  have hmem : c ∈ s.toList := by
    rw [h]
    exact List.mem_append_right _ List.mem_cons_self
  have htail : (s.toList.reverse.takeWhile (· ≠ c)).reverse = ys := by
    rw [h, List.reverse_append, List.reverse_cons, List.append_assoc,
      List.takeWhile_append_of_pos (by
        intro x hx
        simpa using fun hxc : x = c => hys (hxc ▸ List.mem_reverse.mp hx))]
    simp
  have hlen : (xs ++ c :: ys).length - ys.length - 1 = xs.length := by
    simp only [List.length_append, List.length_cons]
    omega
  rw [rsplitOnce, if_pos hmem]
  simp only [htail]
  rw [h, hlen, List.take_left]

/-- The piece before the first `c`, and the pieces of the rest. -/
theorem split_of_toList {c : Char} {s : String} {xs ys : List Char} (h : s.toList = xs ++ c :: ys)
    (hxs : c ∉ xs) : split c s = String.ofList xs :: split c (String.ofList ys) := by
  have hne : ∀ x ∈ xs, (x == c) = false := by
    intro x hx
    refine beq_false_of_ne fun hxc => hxs ?_
    rwa [← hxc]
  rw [split, h, List.splitOn, List.splitOnP_append_cons_of_forall_mem hne c (beq_self_eq_true c),
    List.map_cons, split, String.toList_ofList, List.splitOn]

/-- A text without the separator is one piece. -/
theorem split_of_not_mem {c : Char} {s : String} (h : c ∉ s.toList) : split c s = [s] := by
  have hne : ∀ x ∈ s.toList, (x == c) = false := by
    intro x hx
    refine beq_false_of_ne fun hxc => h ?_
    rwa [← hxc]
  rw [split, List.splitOn, List.splitOnP_eq_singleton hne, List.map_singleton,
    String.ofList_toList]

theorem dropWhile_of_no_white {cs : List Char} (h : ∀ c ∈ cs, isWhite c = false) :
    cs.dropWhile isWhite = cs := by
  cases cs with
  | nil => rfl
  | cons c cs => rw [List.dropWhile_cons_of_neg (by rw [h c List.mem_cons_self]; simp)]

theorem trim_of_no_white {s : String} (h : ∀ c ∈ s.toList, isWhite c = false) : trim s = s := by
  rw [trim, dropWhile_of_no_white h, dropWhile_of_no_white fun c hc => h c (List.mem_reverse.mp hc),
    List.reverse_reverse, String.ofList_toList]

/-- A text without white space, after a blank. -/
theorem trim_blank_append {s : String} (h : ∀ c ∈ s.toList, isWhite c = false) :
    trim (" " ++ s) = s := by
  have hlist : (" " ++ s).toList = ' ' :: s.toList := by simp
  rw [trim, hlist, List.dropWhile_cons_of_pos (by decide)]
  exact trim_of_no_white h

/-- A number is its decimal text. -/
theorem toString_injective {m n : Nat} (h : toString m = toString n) : m = n := by
  have hdigits : Nat.toDigits 10 m = Nat.toDigits 10 n := by
    rw [← Nat.toList_repr, ← Nat.toList_repr]
    exact congrArg String.toList h
  rw [← Nat.ofDigitChars_ten_toDigits (n := m), hdigits, Nat.ofDigitChars_ten_toDigits]

/-! ### Integers -/

theorem digitsValue_toDigits (n : Nat) : digitsValue (Nat.toDigits 10 n) = some n := by
  have hdigits : (Nat.toDigits 10 n).all Char.isDigit = true :=
    List.all_eq_true.mpr fun c hc => Nat.isDigit_of_mem_toDigits (by decide) (by decide) hc
  rw [digitsValue, if_pos ⟨Nat.toDigits_ne_nil, hdigits⟩, Nat.ofDigitChars_ten_toDigits]

theorem toList_toString_ofNat (n : Nat) : (toString (n : Int)).toList = Nat.toDigits 10 n :=
  Nat.toList_repr

theorem toList_toString_negSucc (n : Nat) :
    (toString (Int.negSucc n)).toList = '-' :: Nat.toDigits 10 (n + 1) := by
  change ("-" ++ Nat.repr (n + 1)).toList = _
  rw [String.toList_append, Nat.toList_repr]
  rfl

theorem parseInt_toString (n : Int) : parseInt (toString n) = some n := by
  cases n with
  | ofNat n =>
    have hlist : (toString (Int.ofNat n)).toList = Nat.toDigits 10 n := toList_toString_ofNat n
    rw [parseInt, hlist]
    have hhead : ∀ cs, Nat.toDigits 10 n ≠ '-' :: cs := by
      intro cs hcs
      have hdigit : Char.isDigit '-' = true :=
        Nat.isDigit_of_mem_toDigits (b := 10) (n := n) (by decide) (by decide)
          (hcs ▸ List.mem_cons_self)
      exact absurd hdigit (by decide)
    split
    · rename_i cs hcs
      exact absurd hcs (hhead cs)
    · rw [digitsValue_toDigits]
      rfl
  | negSucc n =>
    rw [parseInt, toList_toString_negSucc]
    simp only [digitsValue_toDigits]
    rfl

/-- The characters of an integer are digits and a minus sign. -/
theorem mem_toString {n : Int} {c : Char} (hc : c ∈ (toString n).toList) :
    c = '-' ∨ c.isDigit = true := by
  cases n with
  | ofNat n =>
    rw [show (toString (Int.ofNat n)).toList = Nat.toDigits 10 n from toList_toString_ofNat n] at hc
    exact Or.inr (Nat.isDigit_of_mem_toDigits (by decide) (by decide) hc)
  | negSucc n =>
    rw [toList_toString_negSucc, List.mem_cons] at hc
    exact hc.imp_right fun h => Nat.isDigit_of_mem_toDigits (by decide) (by decide) h

theorem isWhite_of_isDigit {c : Char} (h : c.isDigit = true) : isWhite c = false := by
  have hrange : 48 ≤ c.toNat ∧ c.toNat ≤ 57 := by
    simp only [Char.isDigit, Bool.and_eq_true, decide_eq_true_eq, ge_iff_le,
      UInt32.le_iff_toNat_le] at h
    exact h
  obtain ⟨hlo, hhi⟩ := hrange
  simp only [isWhite, Bool.or_eq_false_iff, Bool.and_eq_false_iff, beq_eq_false_iff_ne,
    decide_eq_false_iff_not]
  omega

@[simp] theorem startsWith_self (s : String) : startsWith s s = true := by
  simp [startsWith]

example : commaPieces " a.com, ,b.com" = ["a.com", "b.com"] := by decide
example : rsplitOnce ':' "[::1]:443" = some ("[::1]", "443") := by decide
example : formEncode "a b/c" = "a+b%2Fc" := by decide

/-! ### What trimming and splitting leave -/

theorem dropWhile_of_prefix {xs ys : List Char} (h : ys <+: xs.dropWhile isWhite) :
    ys.dropWhile isWhite = ys := by
  cases ys with
  | nil => rfl
  | cons y ys =>
    obtain ⟨zs, hzs⟩ := h
    have hhead := List.head?_dropWhile_not isWhite xs
    rw [← hzs] at hhead
    exact List.dropWhile_cons_of_neg (Bool.eq_false_iff.mp hhead)

/-- What is trimmed stays as it is. -/
theorem trim_trim (s : String) : trim (trim s) = trim s := by
  have hleft : ((s.toList.dropWhile isWhite).reverse.dropWhile isWhite).reverse.dropWhile isWhite =
      ((s.toList.dropWhile isWhite).reverse.dropWhile isWhite).reverse := by
    have hprefix : ((s.toList.dropWhile isWhite).reverse.dropWhile isWhite).reverse <+:
        s.toList.dropWhile isWhite := by
      rw [← List.reverse_suffix, List.reverse_reverse]
      exact List.dropWhile_suffix _
    exact dropWhile_of_prefix hprefix
  rw [trim, trim, String.toList_ofList, hleft, List.reverse_reverse,
    dropWhile_of_prefix (List.prefix_refl _)]

theorem one_le_length_split (c : Char) (s : String) : 1 ≤ (split c s).length := by
  rw [split, List.length_map]
  exact List.length_pos_iff.mpr (List.splitOnP_ne_nil _ _)

/-- A separator gives one more piece. -/
theorem split_of_mem {c : Char} {s : String} (h : c ∈ s.toList) : ∃ xs ys,
    s.toList = xs ++ c :: ys ∧ split c s = String.ofList xs :: split c (String.ofList ys) := by
  obtain ⟨xs, ys, hs, hxs⟩ := List.eq_append_cons_of_mem h
  exact ⟨xs, ys, hs, split_of_toList hs hxs⟩

/-! ### Lines -/

/-- The lines of a text.  The empty text has none. -/
def lines (s : String) : List String := if s = "" then [] else split '\n' s

theorem splitOn_intercalate {c : Char} {xs : List (List Char)} (hne : xs ≠ []) :
    ([c].intercalate xs).splitOn c = xs.flatMap (·.splitOn c) := by
  induction xs with
  | nil => exact absurd rfl hne
  | cons x xs ih =>
    cases xs with
    | nil => rw [List.intercalate_singleton, List.flatMap_singleton]
    | cons y ys =>
      rw [List.intercalate_cons_cons, List.append_assoc, List.singleton_append,
        List.splitOn_append_cons_self, ih (List.cons_ne_nil y ys)]
      rfl

/-- Joined texts are as many pieces as there are texts only if none has the separator. -/
theorem not_mem_of_length_flatMap {c : Char} {xs : List (List Char)}
    (h : (xs.flatMap (·.splitOn c)).length ≤ xs.length) : ∀ x ∈ xs, c ∉ x := by
  have hle : ∀ ys : List (List Char), ys.length ≤ (ys.flatMap (·.splitOn c)).length := by
    intro ys
    induction ys with
    | nil => exact Nat.le_refl 0
    | cons y ys ih =>
      have hpos := List.length_pos_iff.mpr (List.splitOn_ne_nil c y)
      rw [List.flatMap_cons, List.length_append, List.length_cons]
      omega
  induction xs with
  | nil => exact List.forall_mem_nil _
  | cons x xs ih =>
    rw [List.flatMap_cons, List.length_append, List.length_cons] at h
    have hpos := List.length_pos_iff.mpr (List.splitOn_ne_nil c x)
    have hrest := hle xs
    refine List.forall_mem_cons.mpr ⟨fun hc => ?_, ih (by omega)⟩
    obtain ⟨ys, zs, rfl, -⟩ := List.eq_append_cons_of_mem hc
    rw [List.splitOn_append_cons_self, List.length_append] at h
    have hys := List.length_pos_iff.mpr (List.splitOn_ne_nil c ys)
    have hzs := List.length_pos_iff.mpr (List.splitOn_ne_nil c zs)
    omega

section Joined

variable {xs : List String}

theorem joined_ne_empty (hxs : ∀ x ∈ xs, x ≠ "") (hne : xs ≠ []) : "\n".intercalate xs ≠ "" := by
  obtain ⟨x, xs, rfl⟩ := List.exists_cons_of_ne_nil hne
  intro h
  have hlist := congrArg String.toList h
  rw [String.toList_intercalate, List.map_cons] at hlist
  refine hxs x List.mem_cons_self (String.toList_inj.mp ?_)
  cases xs with
  | nil => rwa [List.map_nil, List.intercalate_singleton] at hlist
  | cons y ys =>
    rw [List.map_cons, List.intercalate_cons_cons, List.append_assoc] at hlist
    exact (List.append_eq_nil_iff.mp hlist).1

/-- Joined lines are the lines of the text. -/
theorem lines_joined (hxs : ∀ x ∈ xs, x ≠ "" ∧ '\n' ∉ x.toList) :
    lines ("\n".intercalate xs) = xs := by
  by_cases hne : xs = []
  · rw [hne]
    rfl
  · rw [lines, if_neg (joined_ne_empty (fun x hx => (hxs x hx).1) hne), split,
      String.toList_intercalate]
    have hfree : ∀ y ∈ xs.map String.toList, '\n' ∉ y := by
      intro y hy
      obtain ⟨x, hx, rfl⟩ := List.mem_map.mp hy
      exact (hxs x hx).2
    have hsplit : ("\n".toList.intercalate (xs.map String.toList)).splitOn '\n' =
        xs.map String.toList :=
      List.splitOn_intercalate '\n' hfree (fun h => hne (List.map_eq_nil_iff.mp h))
    rw [hsplit, List.map_map]
    exact (List.map_congr_left fun x _ => String.ofList_toList).trans (List.map_id xs)

/-- Texts that are as many lines as there are texts are lines. -/
theorem not_mem_of_length_lines (hxs : ∀ x ∈ xs, x ≠ "")
    (h : (lines ("\n".intercalate xs)).length = xs.length) : ∀ x ∈ xs, '\n' ∉ x.toList := by
  by_cases hne : xs = []
  · rw [hne]
    exact List.forall_mem_nil _
  · have hmap : xs.map String.toList ≠ [] := fun hnil => hne (List.map_eq_nil_iff.mp hnil)
    have hsplit : ("\n".intercalate xs).toList.splitOn '\n' =
        (xs.map String.toList).flatMap (·.splitOn '\n') := by
      rw [String.toList_intercalate]
      exact splitOn_intercalate hmap
    rw [lines, if_neg (joined_ne_empty hxs hne), split, List.length_map, hsplit] at h
    intro x hx
    refine not_mem_of_length_flatMap ?_ x.toList (List.mem_map_of_mem hx)
    rw [h, List.length_map]

end Joined

/-! ### Bytes -/

def utf8 (cs : List Char) : List UInt8 := cs.flatMap String.utf8EncodeChar

/-- The text of bytes, when they are UTF-8. -/
def ofUtf8 (bs : List UInt8) : Option (List Char) := bs.toByteArray.utf8Decode?.map Array.toList

theorem utf8_append (xs ys : List Char) : utf8 (xs ++ ys) = utf8 xs ++ utf8 ys :=
  List.flatMap_append

theorem ofUtf8_utf8 (cs : List Char) : ofUtf8 (utf8 cs) = some cs := by
  change cs.utf8Encode.utf8Decode?.map _ = _
  rw [List.utf8Decode?_utf8Encode, Option.map_some, List.toList_toArray]

theorem ofUtf8_eq_some_iff {bs : List UInt8} {cs : List Char} :
    ofUtf8 bs = some cs ↔ bs = utf8 cs := by
  constructor
  · intro h
    have hsome : bs.toByteArray.utf8Decode?.isSome = true := by
      rw [ofUtf8, Option.map_eq_some_iff] at h
      obtain ⟨a, ha, -⟩ := h
      rw [ha]
      rfl
    obtain ⟨ds, hds⟩ := ByteArray.isSome_utf8Decode?_iff.mp hsome
    have hbytes : bs = utf8 ds := by
      have hdata := congrArg (fun b : ByteArray => b.data.toList) hds
      simpa [List.utf8Encode, utf8] using hdata
    rw [hbytes, ofUtf8_utf8, Option.some.injEq] at h
    rw [hbytes, h]
  · rintro rfl
    exact ofUtf8_utf8 cs

end ProxyPanel.Text
