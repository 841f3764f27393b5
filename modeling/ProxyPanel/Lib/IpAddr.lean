import Mathlib.Tactic.Common

/-!
# Internet addresses

The addresses of the standard library of the source language, read and printed
by its rules: no leading zeros in an octet, one `::` that stands for at least one
group, and a dotted quad only at the end.  A printed address shows its first
longest run of at least two zero groups as `::`.
-/

namespace ProxyPanel

structure Ipv4Addr where
  a : UInt8
  b : UInt8
  c : UInt8
  d : UInt8
  deriving DecidableEq, Repr

structure Ipv6Addr where
  segments : List UInt16
  length_eq : segments.length = 8
  deriving DecidableEq, Repr

inductive IpAddr where
  | v4 (addr : Ipv4Addr)
  | v6 (addr : Ipv6Addr)
  deriving DecidableEq, Repr

namespace IpAddr

/-! ### Reading -/

def toDigit (radix : Nat) (c : Char) : Option Nat :=
  let value :=
    if c.isDigit then some (c.toNat - 48)
    else if c.isUpper then some (c.toNat - 55)
    else if c.isLower then some (c.toNat - 87)
    else none
  value.filter (· < radix)

def readChar (c : Char) : List Char → Option (List Char)
  | [] => none
  | x :: cs => if x = c then some cs else none

/-- A number of at most `maxDigits` digits and at most `max`. -/
def readNumber (radix maxDigits max : Nat) (allowZeroPrefix : Bool) (cs : List Char) :
    Option (Nat × List Char) :=
  let digits := cs.takeWhile (fun c => (toDigit radix c).isSome)
  let value := (digits.filterMap (toDigit radix)).foldl (fun n d => radix * n + d) 0
  if digits = [] ∨ maxDigits < digits.length ∨ max < value then none
  else if !allowZeroPrefix && digits.head? == some '0' && 1 < digits.length then none
  else some (value, cs.drop digits.length)

def readOctet (cs : List Char) : Option (UInt8 × List Char) :=
  (readNumber 10 3 255 false cs).map fun (n, rest) => (UInt8.ofNat n, rest)

def readGroup (cs : List Char) : Option (UInt16 × List Char) :=
  (readNumber 16 4 65535 true cs).map fun (n, rest) => (UInt16.ofNat n, rest)

def readIpv4 (cs : List Char) : Option (Ipv4Addr × List Char) := do
  let (a, cs) ← readOctet cs
  let cs ← readChar '.' cs
  let (b, cs) ← readOctet cs
  let cs ← readChar '.' cs
  let (c, cs) ← readOctet cs
  let cs ← readChar '.' cs
  let (d, cs) ← readOctet cs
  pure (⟨a, b, c, d⟩, cs)

/-- The colon before every group but the first one. -/
def readSeparator (first : Bool) (cs : List Char) : Option (List Char) :=
  if first then some cs else readChar ':' cs

/-- At most so many groups, and whether the last two are a dotted quad.  A dotted
quad needs two groups. -/
def readGroups : Nat → Bool → List Char → List UInt16 × Bool × List Char
  | 0, _, cs => ([], false, cs)
  | n + 1, first, cs =>
    match if 0 < n then (readSeparator first cs).bind readIpv4 else none with
    | some (quad, rest) =>
      ([256 * quad.a.toUInt16 + quad.b.toUInt16, 256 * quad.c.toUInt16 + quad.d.toUInt16], true,
        rest)
    | none =>
      match (readSeparator first cs).bind readGroup with
      | some (group, rest) =>
        let (groups, quad, rest) := readGroups n false rest
        (group :: groups, quad, rest)
      | none => ([], false, cs)

def ofGroups (groups : List UInt16) : Option Ipv6Addr :=
  if h : groups.length = 8 then some ⟨groups, h⟩ else none

def readIpv6 (cs : List Char) : Option (Ipv6Addr × List Char) :=
  let (head, quad, rest) := readGroups 8 true cs
  if head.length = 8 then (ofGroups head).map (·, rest)
  else if quad then none
  else do
    let rest ← readChar ':' rest
    let rest ← readChar ':' rest
    let (tail, _, rest) := readGroups (7 - head.length) true rest
    let addr ← ofGroups (head ++ List.replicate (8 - head.length - tail.length) 0 ++ tail)
    pure (addr, rest)

def readIpAddr (cs : List Char) : Option (IpAddr × List Char) :=
  match readIpv4 cs with
  | some (addr, rest) => some (.v4 addr, rest)
  | none => (readIpv6 cs).map fun (addr, rest) => (.v6 addr, rest)

/-- The address a whole text denotes. -/
def parse (s : String) : Option IpAddr :=
  match readIpAddr s.toList with
  | some (ip, []) => some ip
  | _ => none

@[simp] theorem parse_empty : parse "" = none := by decide

/-! ### Printing -/

def dottedQuad (addr : Ipv4Addr) : String :=
  ".".intercalate ([addr.a, addr.b, addr.c, addr.d].map fun octet => toString octet.toNat)

/-- Start and length of the first longest run of zero groups. -/
def longestZeros (segments : List UInt16) : Nat × Nat :=
  let step := fun (state : Nat × (Nat × Nat) × (Nat × Nat)) (segment : UInt16) =>
    let (i, current, longest) := state
    if segment = 0 then
      let current := if current.2 = 0 then (i, 1) else (current.1, current.2 + 1)
      (i + 1, current, if longest.2 < current.2 then current else longest)
    else (i + 1, (0, 0), longest)
  (segments.foldl step (0, (0, 0), (0, 0))).2.2

def hexGroups (groups : List UInt16) : String :=
  ":".intercalate (groups.map fun group => String.ofList (Nat.toDigits 16 group.toNat))

def colonGroups (addr : Ipv6Addr) : String :=
  match addr.segments with
  | [0, 0, 0, 0, 0, 0xffff, hi, lo] =>
    "::ffff:" ++ dottedQuad
      ⟨(hi / 256).toUInt8, (hi % 256).toUInt8, (lo / 256).toUInt8, (lo % 256).toUInt8⟩
  | segments =>
    let (start, len) := longestZeros segments
    if 1 < len then
      hexGroups (segments.take start) ++ "::" ++ hexGroups (segments.drop (start + len))
    else hexGroups segments

def toStr : IpAddr → String
  | .v4 addr => dottedQuad addr
  | .v6 addr => colonGroups addr

example : (parse "2001:db8:0:0:1::7").map toStr = some "2001:db8::1:0:0:7" := by decide
example : (parse "::ffff:10.0.0.1").map toStr = some "::ffff:10.0.0.1" := by decide
example : parse "10.0.0.01" = none := by decide

end IpAddr

end ProxyPanel
