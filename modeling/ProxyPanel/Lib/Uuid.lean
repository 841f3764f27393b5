import Mathlib.Algebra.Ring.Int.Defs
import Mathlib.Algebra.Ring.Nat
import Mathlib.Data.List.Basic
import Mathlib.Tactic.Common

/-!
# UUIDs

A UUID is its thirty-two hexadecimal digits.  `toStr` is the hyphenated lower-case
spelling and `parse` accepts the spellings a UUID library accepts: simple,
hyphenated, braced and URN, in either letter case.  `toStr_injective` says that a
UUID is its spelling; it is what makes a printed identifier a credential of one
client only.
-/

namespace ProxyPanel

structure Uuid where
  digits : List (Fin 16)
  length_eq : digits.length = 32
  deriving DecidableEq

namespace Uuid

def nil : Uuid := ⟨List.replicate 32 0, rfl⟩

instance : Inhabited Uuid := ⟨nil⟩

/-- The UUID with the digits of a number. -/
def ofNat (n : Nat) : Uuid :=
  ⟨(List.range 32).map (fun i => Fin.ofNat 16 (n / 16 ^ (31 - i))), by simp⟩

def hexChar (d : Fin 16) : Char :=
  if d.val < 10 then Char.ofNat (48 + d.val) else Char.ofNat (87 + d.val)

def hexDigit? (c : Char) : Option (Fin 16) :=
  if '0' ≤ c ∧ c ≤ '9' then some (Fin.ofNat 16 (c.toNat - 48))
  else if 'a' ≤ c ∧ c ≤ 'f' then some (Fin.ofNat 16 (c.toNat - 87))
  else if 'A' ≤ c ∧ c ≤ 'F' then some (Fin.ofNat 16 (c.toNat - 55))
  else none

def hyphenate (cs : List Char) : List Char :=
  cs.take 8 ++ '-' :: (cs.drop 8).take 4 ++ '-' :: (cs.drop 12).take 4 ++
    '-' :: (cs.drop 16).take 4 ++ '-' :: cs.drop 20

def toStr (u : Uuid) : String := String.ofList (hyphenate (u.digits.map hexChar))

def ofDigits (ds : List (Fin 16)) : Option Uuid :=
  if h : ds.length = 32 then some ⟨ds, h⟩ else none

def parseSimple (cs : List Char) : Option Uuid := (cs.mapM hexDigit?).bind ofDigits

def parseHyphenated (cs : List Char) : Option Uuid :=
  let body := cs.filter (· ≠ '-')
  if hyphenate body = cs then parseSimple body else none

/-- Parsing, by the length of the text. -/
def parse (s : String) : Option Uuid :=
  let cs := s.toList
  if cs.length = 32 then parseSimple cs
  else if cs.length = 36 then parseHyphenated cs
  else if cs.length = 38 ∧ cs.head? = some '\x7b' ∧ cs.getLast? = some '\x7d' then
    parseHyphenated (cs.drop 1).dropLast
  else if cs.length = 45 ∧ cs.take 9 = "urn:uuid:".toList then parseHyphenated (cs.drop 9)
  else none

/-- The first eight characters of the spelling. -/
def short (u : Uuid) : String := String.ofList (u.toStr.toList.take 8)

theorem hexChar_injective : Function.Injective hexChar := by
  intro a b
  revert a b
  decide

theorem hexChar_ne_hyphen (d : Fin 16) : hexChar d ≠ '-' := by revert d; decide

/-- Removing the hyphens undoes `hyphenate`. -/
theorem filter_hyphenate {cs : List Char} (h : ∀ c ∈ cs, c ≠ '-') :
    (hyphenate cs).filter (· ≠ '-') = cs := by
  have hall : cs.filter (· ≠ '-') = cs := List.filter_eq_self.mpr (fun c hc => by simpa using h c hc)
  have hsplit : hyphenate cs = cs.take 8 ++ '-' :: (cs.drop 8).take 4 ++ '-' :: (cs.drop 12).take 4
      ++ '-' :: (cs.drop 16).take 4 ++ '-' :: cs.drop 20 := rfl
  have hjoin : cs.take 8 ++ (cs.drop 8).take 4 ++ (cs.drop 12).take 4 ++ (cs.drop 16).take 4
      ++ cs.drop 20 = cs := by
    have step : ∀ m n, cs.take m ++ (cs.drop m).take n = cs.take (m + n) := fun m n => by
      rw [← List.take_add]
    rw [step 8 4, step 12 4, step 16 4, List.take_append_drop]
  rw [hsplit]
  have hdrop : ∀ (xs ys : List Char), (xs ++ '-' :: ys).filter (· ≠ '-')
      = xs.filter (· ≠ '-') ++ ys.filter (· ≠ '-') := by
    intro xs ys
    rw [List.filter_append, List.filter_cons_of_neg (by simp)]
  rw [hdrop, hdrop, hdrop, hdrop, ← List.filter_append, ← List.filter_append, ← List.filter_append,
    ← List.filter_append, hjoin, hall]

theorem toStr_injective : Function.Injective toStr := by
  intro u v h
  have hlist : hyphenate (u.digits.map hexChar) = hyphenate (v.digits.map hexChar) := by
    simpa [toStr] using congrArg String.toList h
  have hno : ∀ w : Uuid, ∀ c ∈ w.digits.map hexChar, c ≠ '-' := by
    intro w c hc
    obtain ⟨d, _, rfl⟩ := List.mem_map.mp hc
    exact hexChar_ne_hyphen d
  have hmap : u.digits.map hexChar = v.digits.map hexChar := by
    rw [← filter_hyphenate (hno u), ← filter_hyphenate (hno v), hlist]
  have hdigits : u.digits = v.digits := List.map_injective_iff.mpr hexChar_injective hmap
  cases u; cases v; cases hdigits; rfl

@[simp] theorem toStr_inj {u v : Uuid} : u.toStr = v.toStr ↔ u = v := toStr_injective.eq_iff

theorem hexDigit?_hexChar (d : Fin 16) : hexDigit? (hexChar d) = some d := by revert d; decide

theorem length_hyphenate {cs : List Char} (h : cs.length = 32) : (hyphenate cs).length = 36 := by
  simp only [hyphenate, List.length_append, List.length_cons, List.length_take, List.length_drop]
  omega

/-- **A printed UUID is parsed back.** -/
theorem parse_toStr (u : Uuid) : parse u.toStr = some u := by
  have hno : ∀ c ∈ u.digits.map hexChar, c ≠ '-' := by
    intro c hc
    obtain ⟨d, -, rfl⟩ := List.mem_map.mp hc
    exact hexChar_ne_hyphen d
  have hlength : (hyphenate (u.digits.map hexChar)).length = 36 :=
    length_hyphenate (by rw [List.length_map, u.length_eq])
  have hdigits : (u.digits.map hexChar).mapM hexDigit? = some u.digits := by
    induction u.digits with
    | nil => rfl
    | cons d ds ih =>
      rw [List.map_cons, List.mapM_cons, hexDigit?_hexChar, ih]
      rfl
  have hsimple : parseSimple (u.digits.map hexChar) = some u := by
    rw [parseSimple, hdigits, Option.bind_some, ofDigits, dif_pos u.length_eq]
  have hlist : u.toStr.toList = hyphenate (u.digits.map hexChar) := by simp [toStr]
  have hhyphenated : parseHyphenated (hyphenate (u.digits.map hexChar)) = some u := by
    rw [parseHyphenated, filter_hyphenate hno, if_pos rfl, hsimple]
  rw [parse, hlist, if_neg (by omega), if_pos hlength, hhyphenated]

theorem mem_hyphenate {cs : List Char} {c : Char} (h : c ∈ hyphenate cs) : c = '-' ∨ c ∈ cs := by
  simp only [hyphenate, List.mem_append, List.mem_cons] at h
  rcases h with (((h | h | h) | h | h) | h | h) | h | h
  · exact .inr (List.mem_of_mem_take h)
  · exact .inl h
  · exact .inr (List.mem_of_mem_drop (List.mem_of_mem_take h))
  · exact .inl h
  · exact .inr (List.mem_of_mem_drop (List.mem_of_mem_take h))
  · exact .inl h
  · exact .inr (List.mem_of_mem_drop (List.mem_of_mem_take h))
  · exact .inl h
  · exact .inr (List.mem_of_mem_drop h)

/-- The characters of a spelling. -/
theorem mem_toStr {u : Uuid} {c : Char} (h : c ∈ u.toStr.toList) : c = '-' ∨ ∃ d, c = hexChar d := by
  rw [toStr, String.toList_ofList] at h
  rcases mem_hyphenate h with h | h
  · exact .inl h
  · obtain ⟨d, -, rfl⟩ := List.mem_map.mp h
    exact .inr ⟨d, rfl⟩

theorem mem_short {u : Uuid} {c : Char} (h : c ∈ u.short.toList) :
    c = '-' ∨ ∃ d, c = hexChar d := by
  rw [short, String.toList_ofList] at h
  exact mem_toStr (List.mem_of_mem_take h)

theorem toStr_ne_empty (u : Uuid) : u.toStr ≠ "" := by
  intro h
  have hlist : hyphenate (u.digits.map hexChar) = [] := by
    simpa [toStr] using congrArg String.toList h
  simp [hyphenate] at hlist

example : (ofNat 0xa4a4).toStr = "00000000-0000-0000-0000-00000000a4a4" := by decide
example : parse "\x7b00000000-0000-0000-0000-00000000A4A4\x7d" = some (ofNat 0xa4a4) := by
  decide

end Uuid

end ProxyPanel
