import ProxyPanel.Lib.Text

/-!
# Base64

The standard alphabet with padding.  Three bytes are four digits; one or two
bytes at the end are padded to four characters.  `decode_encode` is the round
trip of a text through its bytes.
-/

namespace ProxyPanel.Base64

def digit (n : Nat) : Char :=
  if n < 26 then Char.ofNat (65 + n) else if n < 52 then Char.ofNat (71 + n)
  else if n < 62 then Char.ofNat (n - 4) else if n = 62 then '+' else '/'

def value (c : Char) : Option Nat :=
  if 65 ≤ c.toNat ∧ c.toNat ≤ 90 then some (c.toNat - 65)
  else if 97 ≤ c.toNat ∧ c.toNat ≤ 122 then some (c.toNat - 71)
  else if 48 ≤ c.toNat ∧ c.toNat ≤ 57 then some (c.toNat + 4)
  else if c = '+' then some 62 else if c = '/' then some 63 else none

def encodeBytes : List UInt8 → List Char
  | a :: b :: c :: bs =>
    digit (a.toNat / 4) :: digit (a.toNat % 4 * 16 + b.toNat / 16) ::
      digit (b.toNat % 16 * 4 + c.toNat / 64) :: digit (c.toNat % 64) :: encodeBytes bs
  | [a, b] =>
    [digit (a.toNat / 4), digit (a.toNat % 4 * 16 + b.toNat / 16), digit (b.toNat % 16 * 4), '=']
  | [a] => [digit (a.toNat / 4), digit (a.toNat % 4 * 16), '=', '=']
  | [] => []

/-- The bits of the digits.  Padding ends the text, and the bits it cuts are zero. -/
def decodeBytes : List Char → Option (List UInt8)
  | [] => some []
  | x :: y :: z :: w :: cs =>
    match value x, value y, value z, value w with
    | some p, some q, some r, some s => (decodeBytes cs).map fun bs =>
        .ofNat (p * 4 + q / 16) :: .ofNat (q % 16 * 16 + r / 4) :: .ofNat (r % 4 * 64 + s) :: bs
    | some p, some q, some r, none =>
      if w = '=' ∧ cs = [] ∧ r % 4 = 0 then
        some [.ofNat (p * 4 + q / 16), .ofNat (q % 16 * 16 + r / 4)]
      else none
    | some p, some q, none, none =>
      if z = '=' ∧ w = '=' ∧ cs = [] ∧ q % 16 = 0 then some [.ofNat (p * 4 + q / 16)] else none
    | _, _, _, _ => none
  | _ => none

/-- The Base64 text of the UTF-8 bytes of a text. -/
def encode (s : String) : String := String.ofList (encodeBytes (Text.utf8 s.toList))

def decode (s : String) : Option String :=
  ((decodeBytes s.toList).bind Text.ofUtf8).map String.ofList

/-! ### The round trip -/

theorem value_digit : ∀ n < 64, value (digit n) = some n := by decide

theorem value_pad : value '=' = none := by decide

theorem ofNat_eq_of_toNat {b : UInt8} {n : Nat} (h : n = b.toNat) : UInt8.ofNat n = b := by
  rw [h, UInt8.ofNat_toNat]

theorem decodeBytes_encodeBytes (bs : List UInt8) : decodeBytes (encodeBytes bs) = some bs := by
  fun_induction encodeBytes bs with
  | case1 a b c bs ih =>
    have ha : a.toNat < 256 := UInt8.toNat_lt a
    have hb : b.toNat < 256 := UInt8.toNat_lt b
    have hc : c.toNat < 256 := UInt8.toNat_lt c
    rw [decodeBytes, value_digit _ (by omega), value_digit _ (by omega), value_digit _ (by omega),
      value_digit _ (by omega), ih]
    simp only [Option.map_some]
    rw [ofNat_eq_of_toNat (b := a) (by omega), ofNat_eq_of_toNat (b := b) (by omega),
      ofNat_eq_of_toNat (b := c) (by omega)]
  | case2 a b =>
    have ha : a.toNat < 256 := UInt8.toNat_lt a
    have hb : b.toNat < 256 := UInt8.toNat_lt b
    rw [decodeBytes, value_digit _ (by omega), value_digit _ (by omega), value_digit _ (by omega),
      value_pad]
    simp only
    rw [if_pos ⟨trivial, trivial, by omega⟩, ofNat_eq_of_toNat (b := a) (by omega),
      ofNat_eq_of_toNat (b := b) (by omega)]
  | case3 a =>
    have ha : a.toNat < 256 := UInt8.toNat_lt a
    rw [decodeBytes, value_digit _ (by omega), value_digit _ (by omega), value_pad]
    simp only
    rw [if_pos ⟨trivial, trivial, trivial, by omega⟩, ofNat_eq_of_toNat (b := a) (by omega)]
  | case4 => rfl

/-- **Encoding loses nothing.** -/
theorem decode_encode (s : String) : decode (encode s) = some s := by
  rw [decode, encode, String.toList_ofList, decodeBytes_encodeBytes, Option.bind_some,
    Text.ofUtf8_utf8, Option.map_some, String.ofList_toList]

example : encode "M" = "TQ==" ∧ encode "Man" = "TWFu" := by decide

end ProxyPanel.Base64
