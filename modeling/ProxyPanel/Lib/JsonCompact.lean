import ProxyPanel.Lib.JsonText

/-!
# The compact layout

`Doc.ofJson` lays a value out as `Json.render` writes it: `chars_ofJson`.  A value whose objects
have sorted keys and whose scalars are read from their texts is `Canonical`; its layout is
well-formed (`wellFormed_ofJson`) and stands for it (`value_ofJson`), so `parse_render` reads it
back.
-/

namespace ProxyPanel.JsonText

open Json

/-! ### The compact layout -/

/-- Items without space between them: the space before the first, the space after the last, and
the items that follow. -/
def Items.ofDocs (before : List Char) (first : Doc) (more : List Doc) (after : List Char)
    (rest : Option Items) : Items :=
  match more, rest with
  | [], none => .last before first after
  | [], some rest => .cons before first after rest
  | next :: more, rest => .cons before first [] (Items.ofDocs [] next more after rest)

/-- The texts of documents with commas between them. -/
def joined (docs : List Doc) : List Char := [','].intercalate (docs.map Doc.chars)

/-- What follows a value of an array. -/
def restChars : Option Items → List Char
  | none => []
  | some rest => ',' :: rest.chars

theorem joined_singleton (d : Doc) : joined [d] = d.chars := by simp [joined, List.intercalate]

theorem joined_cons (d e : Doc) (ds : List Doc) :
    joined (d :: e :: ds) = d.chars ++ ',' :: joined (e :: ds) := by
  simp [joined, List.intercalate]

theorem chars_ofDocs (before : List Char) (first : Doc) (more : List Doc) (after : List Char)
    (rest : Option Items) : (Items.ofDocs before first more after rest).chars =
      before ++ (joined (first :: more) ++ (after ++ restChars rest)) := by
  induction more generalizing before first with
  | nil =>
    cases rest with
    | none => rw [Items.ofDocs, Items.chars, joined_singleton, restChars, List.append_nil]
    | some rest => rw [Items.ofDocs, Items.chars, joined_singleton, restChars]
  | cons next more ih =>
    rw [Items.ofDocs, Items.chars, ih, joined_cons, List.nil_append, List.nil_append,
      List.append_assoc, List.cons_append]

/-- The array of documents. -/
def Doc.ofDocs : List Doc → Doc
  | [] => .emptyArray []
  | first :: more => .array (Items.ofDocs [] first more [] none)

theorem Doc.chars_ofDocs (docs : List Doc) :
    (Doc.ofDocs docs).chars = '[' :: (joined docs ++ [']']) := by
  cases docs with
  | nil => rfl
  | cons first more =>
    rw [Doc.ofDocs, Doc.chars, JsonText.chars_ofDocs, restChars, List.nil_append, List.append_nil,
      List.append_nil]

def Entries.ofDocs (raw : List Char) (value : Doc) : List (List Char × Doc) → Entries
  | [] => .last [] raw [] [] value []
  | (key, next) :: more => .cons [] raw [] [] value [] (Entries.ofDocs key next more)

/-- The object of documents. -/
def Doc.ofEntries : List (List Char × Doc) → Doc
  | [] => .emptyObject []
  | (raw, value) :: more => .object (Entries.ofDocs raw value more)

def entryChars (e : List Char × Doc) : List Char := quoted e.1 ++ ':' :: e.2.chars

theorem Entries.chars_ofDocs (raw : List Char) (value : Doc) (more : List (List Char × Doc)) :
    (Entries.ofDocs raw value more).chars =
      [','].intercalate (((raw, value) :: more).map entryChars) := by
  induction more generalizing raw value with
  | nil => simp [Entries.ofDocs, Entries.chars, entryChars, List.intercalate]
  | cons e more ih =>
    obtain ⟨key, next⟩ := e
    rw [Entries.ofDocs, Entries.chars, ih]
    simp [entryChars, List.intercalate]

theorem Doc.chars_ofEntries (es : List (List Char × Doc)) : (Doc.ofEntries es).chars =
    '\x7b' :: ([','].intercalate (es.map entryChars) ++ ['\x7d']) := by
  cases es with
  | nil => rfl
  | cons e more =>
    obtain ⟨raw, value⟩ := e
    rw [Doc.ofEntries, Doc.chars, Entries.chars_ofDocs]

def escape (s : String) : List Char := s.toList.flatMap escapeChar

mutual
/-- The layout of `Json.render`. -/
def Doc.ofJson : Json → Doc
  | .null => .scalar (render .null).toList .null
  | .bool b => .scalar (render (.bool b)).toList (.bool b)
  | .num n => .scalar (render (.num n)).toList (.num n)
  | .float t => .scalar (render (.float t)).toList (.float t)
  | .str s => .text (escape s)
  | .arr xs => Doc.ofDocs (docs xs)
  | .obj es => Doc.ofEntries (entryDocs es)

def docs : List Json → List Doc
  | [] => []
  | x :: xs => Doc.ofJson x :: docs xs

def entryDocs : List (String × Json) → List (List Char × Doc)
  | [] => []
  | (k, v) :: es => (escape k, Doc.ofJson v) :: entryDocs es
end

theorem toList_renderStr (s : String) : (renderStr s).toList = quoted (escape s) := by
  simp [renderStr, quoted, escape]

mutual
/-- **The compact layout is the rendered text.** -/
theorem chars_ofJson : ∀ j : Json, (Doc.ofJson j).chars = j.render.toList
  | .null => by rw [Doc.ofJson, Doc.chars]
  | .bool b => by rw [Doc.ofJson, Doc.chars]
  | .num n => by rw [Doc.ofJson, Doc.chars]
  | .float t => by rw [Doc.ofJson, Doc.chars]
  | .str s => by rw [Doc.ofJson, Doc.chars, render, toList_renderStr]
  | .arr xs => by
    rw [Doc.ofJson, Doc.chars_ofDocs, joined, chars_docs xs]
    simp [render, String.toList_intercalate]
  | .obj es => by
    rw [Doc.ofJson, Doc.chars_ofEntries, chars_entryDocs es]
    simp [render, String.toList_intercalate]

theorem chars_docs : ∀ xs : List Json, (docs xs).map Doc.chars = (renderItems xs).map String.toList
  | [] => rfl
  | x :: xs => by
    rw [docs, renderItems, List.map_cons, List.map_cons, chars_ofJson x, chars_docs xs]

theorem chars_entryDocs : ∀ es : List (String × Json),
    (entryDocs es).map entryChars = (renderEntries es).map String.toList
  | [] => rfl
  | (k, v) :: es => by
    rw [entryDocs, renderEntries, List.map_cons, List.map_cons, entryChars, chars_ofJson v,
      chars_entryDocs es]
    simp [toList_renderStr]
end

/-! ### String literals -/

theorem codeUnit_hexDigit {n : Nat} (h : n < 32) :
    codeUnit '0' '0' (hexDigit (n / 16)) (hexDigit (n % 16)) = some n := by
  revert n
  decide

/-- A character that escapes nothing. -/
theorem unescape_cons {c : Char} (hslash : c ≠ '\\') (cs : List Char) : unescape (c :: cs) =
    if c = '"' ∨ c.toNat < 32 then none else (unescape cs).map (c :: ·) := by
  rw [unescape]
  · exact fun _ _ _ _ _ h => absurd h hslash
  · exact fun _ _ h => absurd h hslash
  · exact fun h => absurd h hslash

theorem unescape_escapeChar (c : Char) (cs : List Char) :
    unescape (escapeChar c ++ cs) = (unescape cs).map (c :: ·) := by
  have hof (n : Nat) (h : c.toNat = n) : c = Char.ofNat n := by rw [← h, Char.ofNat_toNat]
  rw [escapeChar]
  split_ifs with hquote hslash h8 h9 h10 h12 h13 hcontrol
  · rw [hquote]
    rfl
  · rw [hslash]
    rfl
  · rw [hof 8 h8]
    rfl
  · rw [hof 9 h9]
    rfl
  · rw [hof 10 h10]
    rfl
  · rw [hof 12 h12]
    rfl
  · rw [hof 13 h13]
    rfl
  · have hunit : ¬ (0xD800 ≤ c.toNat ∧ c.toNat < 0xDC00) := by omega
    have hlow : ¬ (0xDC00 ≤ c.toNat ∧ c.toNat < 0xE000) := by omega
    simp only [List.cons_append, List.nil_append]
    rw [unescape, codeUnit_hexDigit hcontrol]
    dsimp only
    rw [if_neg hunit, if_neg hlow, Char.ofNat_toNat]
  · rw [List.singleton_append, unescape_cons hslash, if_neg]
    rintro (h | h)
    · exact hquote h
    · exact hcontrol h

theorem unescape_escape (cs : List Char) : unescape (cs.flatMap escapeChar) = some cs := by
  induction cs with
  | nil => rfl
  | cons c cs ih => rw [List.flatMap_cons, unescape_escapeChar, ih, Option.map_some]

theorem hexDigit_plain {n : Nat} (h : n < 16) : hexDigit n ≠ '"' ∧ hexDigit n ≠ '\\' := by
  revert n
  decide

theorem closed_cons {c : Char} (hquote : c ≠ '"') (hslash : c ≠ '\\') (cs : List Char) :
    closed (c :: cs) = closed cs := by
  rw [closed]
  · simp [hquote, hslash]
  · exact fun _ _ h => absurd h hslash

theorem closed_escapeChar (c : Char) (cs : List Char) :
    closed (escapeChar c ++ cs) = closed cs := by
  rw [escapeChar]
  split_ifs with hquote hslash h8 h9 h10 h12 h13 hcontrol
  · rfl
  · rfl
  · rfl
  · rfl
  · rfl
  · rfl
  · rfl
  · obtain ⟨hq, hs⟩ := hexDigit_plain (by omega : c.toNat / 16 < 16)
    obtain ⟨hq', hs'⟩ := hexDigit_plain (by omega : c.toNat % 16 < 16)
    simp only [List.cons_append, List.nil_append]
    rw [closed, closed_cons (by decide) (by decide), closed_cons (by decide) (by decide),
      closed_cons hq hs, closed_cons hq' hs']
  · exact closed_cons hquote hslash cs

theorem closed_escape (cs : List Char) : closed (cs.flatMap escapeChar) = true := by
  induction cs with
  | nil => rfl
  | cons c cs ih => rw [List.flatMap_cons, closed_escapeChar, ih]

theorem literal_escape (s : String) : Literal (escape s) := by
  refine ⟨closed_escape s.toList, ?_⟩
  rw [escape, unescape_escape]
  rfl

theorem textOf_escape (s : String) : textOf (escape s) = s := by
  rw [textOf, escape, unescape_escape, Option.getD_some, String.ofList_toList]

/-! ### The compact layout is read as the value -/

theorem values_ofDocs (before : List Char) (first : Doc) (more : List Doc) (after : List Char)
    (rest : Option Items) : (Items.ofDocs before first more after rest).values =
      (first :: more).map Doc.value ++ (rest.map Items.values).getD [] := by
  induction more generalizing before first with
  | nil => cases rest <;> rfl
  | cons next more ih =>
    rw [Items.ofDocs, Items.values, ih]
    rfl

theorem depth_ofDocs {n : Nat} (before : List Char) {first : Doc} {more : List Doc}
    (after : List Char) {rest : Option Items} (hdocs : ∀ d ∈ first :: more, d.depth ≤ n)
    (hrest : ∀ items ∈ rest, items.depth ≤ n) :
    (Items.ofDocs before first more after rest).depth ≤ n := by
  induction more generalizing before first with
  | nil =>
    cases rest with
    | none =>
      rw [Items.ofDocs, Items.depth]
      exact hdocs first List.mem_cons_self
    | some rest =>
      rw [Items.ofDocs, Items.depth]
      exact Nat.max_le.mpr ⟨hdocs first List.mem_cons_self, hrest rest rfl⟩
  | cons next more ih =>
    rw [Items.ofDocs, Items.depth]
    exact Nat.max_le.mpr ⟨hdocs first List.mem_cons_self,
      ih [] fun d hd => hdocs d (List.mem_cons_of_mem first hd)⟩

theorem Doc.value_ofDocs (ds : List Doc) : (Doc.ofDocs ds).value = arr (ds.map Doc.value) := by
  cases ds with
  | nil => rw [Doc.ofDocs, Doc.value, List.map_nil]
  | cons first more =>
    rw [Doc.ofDocs, Doc.value, values_ofDocs]
    simp

theorem Entries.pairs_ofDocs (raw : List Char) (value : Doc) (more : List (List Char × Doc)) :
    (Entries.ofDocs raw value more).pairs =
      ((raw, value) :: more).map fun e => (textOf e.1, e.2.value) := by
  induction more generalizing raw value with
  | nil => rfl
  | cons e more ih =>
    obtain ⟨key, next⟩ := e
    rw [Entries.ofDocs, Entries.pairs, ih]
    rfl

theorem Doc.value_ofEntries (es : List (List Char × Doc)) :
    (Doc.ofEntries es).value = mkObj (es.map fun e => (textOf e.1, e.2.value)) := by
  cases es with
  | nil => rfl
  | cons e more =>
    obtain ⟨raw, value⟩ := e
    rw [Doc.ofEntries, Doc.value, Entries.pairs_ofDocs]

/-- Sorted entries are an object as they stand. -/
theorem mkObj_of_sortedKeys {es : List (String × Json)} (h : SortedKeys es) :
    mkObj es = obj es := by
  have hnodup : (es.map Prod.fst).Nodup := by
    refine List.Pairwise.imp (fun hlt heq => ?_) h
    rw [heq] at hlt
    exact String.lt_irrefl _ hlt
  refine congrArg obj (SortedKeys.eq_of_mem_iff (sortedKeys_foldl_insertEntry id es sortedKeys_nil)
    h fun e => (mem_foldl_insertEntry id es sortedKeys_nil).trans ?_)
  rw [lastEntries_eq_self_iff.mpr hnodup]
  simp

section Canonical

variable (readScalar : List Char → Option Json)

/-- A scalar is read from the text it is written as. -/
def ScalarReads (j : Json) : Prop :=
  j.render.toList ≠ [] ∧ j.render.toList.all isScalarChar = true ∧
    readScalar j.render.toList = some j

mutual
/-- The objects have sorted keys and the scalars are read from their texts. -/
def Canonical : Json → Prop
  | .null => ScalarReads readScalar .null
  | .bool b => ScalarReads readScalar (.bool b)
  | .num n => ScalarReads readScalar (.num n)
  | .float t => ScalarReads readScalar (.float t)
  | .str _ => True
  | .arr xs => CanonicalItems xs
  | .obj es => SortedKeys es ∧ CanonicalEntries es

def CanonicalItems : List Json → Prop
  | [] => True
  | x :: xs => Canonical x ∧ CanonicalItems xs

def CanonicalEntries : List (String × Json) → Prop
  | [] => True
  | (_, v) :: es => Canonical v ∧ CanonicalEntries es
end

end Canonical

section Compact

variable {readScalar : List Char → Option Json}

mutual
theorem value_ofJson : ∀ {j : Json}, Canonical readScalar j → (Doc.ofJson j).value = j
  | .null, _ => by rw [Doc.ofJson, Doc.value]
  | .bool b, _ => by rw [Doc.ofJson, Doc.value]
  | .num n, _ => by rw [Doc.ofJson, Doc.value]
  | .float t, _ => by rw [Doc.ofJson, Doc.value]
  | .str s, _ => by rw [Doc.ofJson, Doc.value, textOf_escape]
  | .arr xs, h => by
    rw [Canonical] at h
    rw [Doc.ofJson, Doc.value_ofDocs, value_docs h]
  | .obj es, h => by
    rw [Canonical] at h
    rw [Doc.ofJson, Doc.value_ofEntries, value_entryDocs h.2, mkObj_of_sortedKeys h.1]

theorem value_docs : ∀ {xs : List Json}, CanonicalItems readScalar xs →
    (docs xs).map Doc.value = xs
  | [], _ => rfl
  | x :: xs, h => by
    rw [CanonicalItems] at h
    rw [docs, List.map_cons, value_ofJson h.1, value_docs h.2]

theorem value_entryDocs : ∀ {es : List (String × Json)}, CanonicalEntries readScalar es →
    (entryDocs es).map (fun e => (textOf e.1, e.2.value)) = es
  | [], _ => rfl
  | (k, v) :: es, h => by
    rw [CanonicalEntries] at h
    rw [entryDocs, List.map_cons, value_ofJson h.1, value_entryDocs h.2, textOf_escape]
end

theorem wellFormed_ofItems {before : List Char} {first : Doc} {more : List Doc} {after : List Char}
    {rest : Option Items} (hbefore : before.all isSpace = true)
    (hdocs : ∀ d ∈ first :: more, d.WellFormed readScalar) (hafter : after.all isSpace = true)
    (hrest : ∀ items ∈ rest, items.WellFormed readScalar) :
    (Items.ofDocs before first more after rest).WellFormed readScalar := by
  have hfirst := hdocs first List.mem_cons_self
  induction more generalizing before first with
  | nil =>
    cases rest with
    | none =>
      rw [Items.ofDocs, Items.WellFormed]
      exact ⟨hbefore, hfirst, hafter⟩
    | some rest =>
      rw [Items.ofDocs, Items.WellFormed]
      exact ⟨hbefore, hfirst, hafter, hrest rest rfl⟩
  | cons next more ih =>
    rw [Items.ofDocs, Items.WellFormed]
    have hmore : ∀ d ∈ next :: more, d.WellFormed readScalar :=
      fun d hd => hdocs d (List.mem_cons_of_mem first hd)
    exact ⟨hbefore, hfirst, rfl, ih rfl hmore (hmore next List.mem_cons_self)⟩

theorem wellFormed_ofDocs {ds : List Doc} (h : ∀ d ∈ ds, d.WellFormed readScalar) :
    (Doc.ofDocs ds).WellFormed readScalar := by
  cases ds with
  | nil =>
    rw [Doc.ofDocs, Doc.WellFormed]
    rfl
  | cons first more =>
    rw [Doc.ofDocs, Doc.WellFormed]
    exact wellFormed_ofItems rfl h rfl fun items hitems => by cases hitems

theorem wellFormed_entries {raw : List Char} {value : Doc} {more : List (List Char × Doc)}
    (h : ∀ e ∈ (raw, value) :: more, Literal e.1 ∧ e.2.WellFormed readScalar) :
    (Entries.ofDocs raw value more).WellFormed readScalar := by
  have hfirst := h (raw, value) List.mem_cons_self
  induction more generalizing raw value with
  | nil =>
    rw [Entries.ofDocs, Entries.WellFormed]
    exact ⟨rfl, hfirst.1, rfl, rfl, hfirst.2, rfl⟩
  | cons e more ih =>
    obtain ⟨key, next⟩ := e
    rw [Entries.ofDocs, Entries.WellFormed]
    have hmore := fun e he => h e (List.mem_cons_of_mem (raw, value) he)
    exact ⟨rfl, hfirst.1, rfl, rfl, hfirst.2, rfl, ih hmore (hmore _ List.mem_cons_self)⟩

theorem wellFormed_ofEntries {es : List (List Char × Doc)}
    (h : ∀ e ∈ es, Literal e.1 ∧ e.2.WellFormed readScalar) :
    (Doc.ofEntries es).WellFormed readScalar := by
  cases es with
  | nil =>
    rw [Doc.ofEntries, Doc.WellFormed]
    rfl
  | cons e more =>
    obtain ⟨raw, value⟩ := e
    rw [Doc.ofEntries, Doc.WellFormed]
    exact wellFormed_entries h

mutual
theorem wellFormed_ofJson : ∀ {j : Json}, Canonical readScalar j →
    (Doc.ofJson j).WellFormed readScalar
  | .null, h => by
    rw [Canonical] at h
    rw [Doc.ofJson, Doc.WellFormed]
    exact ⟨h.1, h.2.1, h.2.2, rfl⟩
  | .bool b, h => by
    rw [Canonical] at h
    rw [Doc.ofJson, Doc.WellFormed]
    exact ⟨h.1, h.2.1, h.2.2, rfl⟩
  | .num n, h => by
    rw [Canonical] at h
    rw [Doc.ofJson, Doc.WellFormed]
    exact ⟨h.1, h.2.1, h.2.2, rfl⟩
  | .float t, h => by
    rw [Canonical] at h
    rw [Doc.ofJson, Doc.WellFormed]
    exact ⟨h.1, h.2.1, h.2.2, rfl⟩
  | .str s, _ => by
    rw [Doc.ofJson, Doc.WellFormed]
    exact literal_escape s
  | .arr xs, h => by
    rw [Canonical] at h
    rw [Doc.ofJson]
    exact wellFormed_ofDocs (wellFormed_docs h)
  | .obj es, h => by
    rw [Canonical] at h
    rw [Doc.ofJson]
    exact wellFormed_ofEntries (wellFormed_entryDocs h.2)

theorem wellFormed_docs : ∀ {xs : List Json}, CanonicalItems readScalar xs →
    ∀ d ∈ docs xs, d.WellFormed readScalar
  | [], _, d, hd => by cases hd
  | x :: xs, h, d, hd => by
    rw [CanonicalItems] at h
    rw [docs] at hd
    rcases List.mem_cons.mp hd with rfl | hd
    · exact wellFormed_ofJson h.1
    · exact wellFormed_docs h.2 d hd

theorem wellFormed_entryDocs : ∀ {es : List (String × Json)}, CanonicalEntries readScalar es →
    ∀ e ∈ entryDocs es, Literal e.1 ∧ e.2.WellFormed readScalar
  | [], _, e, he => by cases he
  | (k, v) :: es, h, e, he => by
    rw [CanonicalEntries] at h
    rw [entryDocs] at he
    rcases List.mem_cons.mp he with rfl | he
    · exact ⟨literal_escape k, wellFormed_ofJson h.1⟩
    · exact wellFormed_entryDocs h.2 e he
end

/-- **A canonical value is read from its rendered text.** -/
theorem parse_render {j : Json} (h : Canonical readScalar j) :
    parse readScalar j.render.toList = some j := by
  have hspace : ([] : List Char).all isSpace = true := rfl
  have hread := parse_chars (wellFormed_ofJson h) hspace hspace
  rw [List.nil_append, List.append_nil, chars_ofJson, value_ofJson h] at hread
  exact hread

end Compact

/-! ### Values built by a program -/

theorem depth_entries {n : Nat} {raw : List Char} {value : Doc} {more : List (List Char × Doc)}
    (h : ∀ e ∈ (raw, value) :: more, e.2.depth ≤ n) :
    (Entries.ofDocs raw value more).depth ≤ n := by
  have hfirst := h (raw, value) List.mem_cons_self
  induction more generalizing raw value with
  | nil =>
    rw [Entries.ofDocs, Entries.depth]
    exact hfirst
  | cons e more ih =>
    obtain ⟨key, next⟩ := e
    rw [Entries.ofDocs, Entries.depth]
    have hmore := fun e he => h e (List.mem_cons_of_mem (raw, value) he)
    exact Nat.max_le.mpr ⟨hfirst, ih hmore (hmore _ List.mem_cons_self)⟩

theorem depth_ofEntries {n : Nat} {es : List (List Char × Doc)} (h : ∀ e ∈ es, e.2.depth ≤ n) :
    (Doc.ofEntries es).depth ≤ n + 1 := by
  cases es with
  | nil =>
    rw [Doc.ofEntries, Doc.depth]
    exact Nat.le_add_left 1 n
  | cons e more =>
    obtain ⟨raw, value⟩ := e
    rw [Doc.ofEntries, Doc.depth]
    exact Nat.succ_le_succ (depth_entries h)

theorem Doc.depth_ofDocs {n : Nat} {ds : List Doc} (h : ∀ d ∈ ds, d.depth ≤ n) :
    (Doc.ofDocs ds).depth ≤ n + 1 := by
  cases ds with
  | nil =>
    rw [Doc.ofDocs, Doc.depth]
    exact Nat.le_add_left 1 n
  | cons first more =>
    rw [Doc.ofDocs, Doc.depth]
    exact Nat.succ_le_succ (JsonText.depth_ofDocs [] [] h fun items hitems => by cases hitems)

theorem mem_docs {xs : List Json} {d : Doc} (h : d ∈ docs xs) : ∃ x ∈ xs, d = Doc.ofJson x := by
  induction xs with
  | nil => cases h
  | cons x xs ih =>
    rw [docs] at h
    rcases List.mem_cons.mp h with rfl | h
    · exact ⟨x, List.mem_cons_self, rfl⟩
    · obtain ⟨y, hy, hd⟩ := ih h
      exact ⟨y, List.mem_cons_of_mem x hy, hd⟩

theorem mem_entryDocs {es : List (String × Json)} {e : List Char × Doc} (h : e ∈ entryDocs es) :
    ∃ x ∈ es, e = (escape x.1, Doc.ofJson x.2) := by
  induction es with
  | nil => cases h
  | cons x es ih =>
    obtain ⟨k, v⟩ := x
    rw [entryDocs] at h
    rcases List.mem_cons.mp h with rfl | h
    · exact ⟨(k, v), List.mem_cons_self, rfl⟩
    · obtain ⟨y, hy, he⟩ := ih h
      exact ⟨y, List.mem_cons_of_mem (k, v) hy, he⟩

section Lays

variable {readScalar : List Char → Option Json} {n : Nat}

theorem canonicalItems_iff {xs : List Json} :
    CanonicalItems readScalar xs ↔ ∀ x ∈ xs, Canonical readScalar x := by
  induction xs with
  | nil => simp [CanonicalItems]
  | cons x xs ih => rw [CanonicalItems, ih, List.forall_mem_cons]

theorem canonicalEntries_iff {es : List (String × Json)} :
    CanonicalEntries readScalar es ↔ ∀ e ∈ es, Canonical readScalar e.2 := by
  induction es with
  | nil => simp [CanonicalEntries]
  | cons e es ih =>
    obtain ⟨k, v⟩ := e
    rw [CanonicalEntries, ih, List.forall_mem_cons]

/-- A canonical value of at most some depth. -/
structure Lays (readScalar : List Char → Option Json) (n : Nat) (j : Json) : Prop where
  canonical : Canonical readScalar j
  depth : (Doc.ofJson j).depth ≤ n

theorem Lays.mono {m : Nat} {j : Json} (h : Lays readScalar n j) (hm : n ≤ m) :
    Lays readScalar m j :=
  ⟨h.canonical, Nat.le_trans h.depth hm⟩

theorem lays_str (s : String) : Lays readScalar n (.str s) := by
  constructor
  · rw [Canonical]
    trivial
  · rw [Doc.ofJson, Doc.depth]
    exact Nat.zero_le n

theorem lays_bool {b : Bool} (h : ScalarReads readScalar (.bool b)) :
    Lays readScalar n (.bool b) := by
  constructor
  · rw [Canonical]
    exact h
  · rw [Doc.ofJson, Doc.depth]
    exact Nat.zero_le n

theorem lays_num {i : Int} (h : ScalarReads readScalar (.num i)) : Lays readScalar n (.num i) := by
  constructor
  · rw [Canonical]
    exact h
  · rw [Doc.ofJson, Doc.depth]
    exact Nat.zero_le n

theorem lays_arr {xs : List Json} (h : ∀ x ∈ xs, Lays readScalar n x) :
    Lays readScalar (n + 1) (.arr xs) := by
  constructor
  · rw [Canonical, canonicalItems_iff]
    exact fun x hx => (h x hx).canonical
  · rw [Doc.ofJson]
    refine Doc.depth_ofDocs fun d hd => ?_
    obtain ⟨x, hx, rfl⟩ := mem_docs hd
    exact (h x hx).depth

theorem lays_obj {es : List (String × Json)} (hsorted : SortedKeys es)
    (h : ∀ e ∈ es, Lays readScalar n e.2) : Lays readScalar (n + 1) (.obj es) := by
  constructor
  · rw [Canonical, canonicalEntries_iff]
    exact ⟨hsorted, fun e he => (h e he).canonical⟩
  · rw [Doc.ofJson]
    refine depth_ofEntries fun e he => ?_
    obtain ⟨x, hx, rfl⟩ := mem_entryDocs he
    exact (h x hx).depth

/-- An object with sorted keys, every entry of which is laid out. -/
def LaysObject (readScalar : List Char → Option Json) (n : Nat) (j : Json) : Prop :=
  ∃ es, j = .obj es ∧ SortedKeys es ∧ ∀ e ∈ es, Lays readScalar n e.2

theorem LaysObject.lays {j : Json} (h : LaysObject readScalar n j) : Lays readScalar (n + 1) j := by
  obtain ⟨es, rfl, hsorted, hes⟩ := h
  exact lays_obj hsorted hes

theorem laysObject_mkObj {es : List (String × Json)} (h : ∀ e ∈ es, Lays readScalar n e.2) :
    LaysObject readScalar n (mkObj es) := by
  refine ⟨_, rfl, sortedKeys_foldl_insertEntry id es sortedKeys_nil, fun e he => ?_⟩
  rcases (mem_foldl_insertEntry id es sortedKeys_nil).mp he with ⟨x, hx, rfl⟩ | ⟨hnil, _⟩
  · exact h x ((lastEntries_sublist es).subset hx)
  · cases hnil

theorem LaysObject.setIndex {j : Json} (h : LaysObject readScalar n j) (k : String) {v : Json}
    (hv : Lays readScalar n v) : LaysObject readScalar n (j.setIndex k v) := by
  obtain ⟨es, rfl, hsorted, hes⟩ := h
  refine ⟨insertEntry k v es, rfl, sortedKeys_insertEntry k v hsorted, fun e he => ?_⟩
  rcases (mem_insertEntry hsorted).mp he with rfl | ⟨_, he⟩
  · exact hv
  · exact hes e he

end Lays

end ProxyPanel.JsonText
