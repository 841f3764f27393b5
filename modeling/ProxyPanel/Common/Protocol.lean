import Mathlib.Tactic.Common

/-!
# Cores, protocols and errors

The enumerations shared by every crate, with the texts they are written and read
as.  A core type that is stored in a database row is text; `parseCoreType` and
`CoreType.toStr` are the two directions, and they are not inverse: every unknown
text, the alias `singbox` among them, reads as sing-box.
-/

namespace ProxyPanel

/-- Which core a protocol config targets. -/
inductive CoreType where
  | singBox
  | mihomo
  deriving DecidableEq, Repr, Inhabited

inductive ProtocolType where
  | vlessReality
  | vlessXhttp
  | hysteria2
  | anytls
  deriving DecidableEq, Repr

/-- The errors the modelled functions raise. -/
inductive PanelError where
  | database (msg : String)
  | config (msg : String)
  | validation (msg : String)
  | notFound (msg : String)
  | core (msg : String)
  | subscription (msg : String)
  | release (msg : String)
  | serialization (msg : String)
  | internal (msg : String)
  deriving DecidableEq, Repr

abbrev PanelResult (α : Type) := Except PanelError α

namespace PanelError

/-- The displayed text. -/
def toStr : PanelError → String
  | database m => "database error: " ++ m
  | config m => "configuration error: " ++ m
  | validation m => "validation error: " ++ m
  | notFound m => "not found: " ++ m
  | core m => "core management error: " ++ m
  | subscription m => "subscription error: " ++ m
  | release m => "release query error: " ++ m
  | serialization m => "serialization error: " ++ m
  | internal m => "internal error: " ++ m

end PanelError

/-- An error response of the HTTP API. -/
structure ApiError where
  status : Nat
  code : String
  message : String
  deriving DecidableEq, Repr

namespace ApiError

def badRequest (code message : String) : ApiError := ⟨400, code, message⟩
def notFound (message : String) : ApiError := ⟨404, "not_found", message⟩
def internal (message : String) : ApiError := ⟨500, "internal_error", message⟩

/-- What an update of a row that is gone is answered. -/
def dbConflict : ApiError := badRequest "db_conflict" "conflicting database operation"

end ApiError

abbrev ApiResult (α : Type) := Except ApiError α

namespace CoreType

def toStr : CoreType → String
  | singBox => "sing-box"
  | mihomo => "mihomo"

/-- The `Debug` text. -/
def debug : CoreType → String
  | singBox => "SingBox"
  | mihomo => "Mihomo"

/-- `FromStr`. -/
def fromStr? (s : String) : Option CoreType :=
  if s = "sing-box" ∨ s = "singbox" then some singBox
  else if s = "mihomo" then some mihomo
  else none

/-- The number of the core in the wire protocol. -/
def proto : CoreType → Nat
  | singBox => 2
  | mihomo => 4

theorem toStr_injective : Function.Injective toStr := by
  intro a b h
  cases a <;> cases b <;> first | rfl | exact absurd h (by decide)

@[simp] theorem toStr_inj {a b : CoreType} : a.toStr = b.toStr ↔ a = b := toStr_injective.eq_iff

end CoreType

namespace ProtocolType

def toStr : ProtocolType → String
  | vlessReality => "vless_reality"
  | vlessXhttp => "vless_xhttp"
  | hysteria2 => "hysteria2"
  | anytls => "anytls"

/-- The `Debug` text. -/
def debug : ProtocolType → String
  | vlessReality => "VlessReality"
  | vlessXhttp => "VlessXhttp"
  | hysteria2 => "Hysteria2"
  | anytls => "Anytls"

/-- `FromStr`. -/
def fromStr? (s : String) : Option ProtocolType :=
  if s = "vless_reality" then some vlessReality
  else if s = "vless_xhttp" then some vlessXhttp
  else if s = "hysteria2" then some hysteria2
  else if s = "anytls" then some anytls
  else none

/-- `CoreType::valid_for`. -/
def validFor : ProtocolType → List CoreType
  | vlessReality => [.singBox, .mihomo]
  | vlessXhttp => [.mihomo]
  | hysteria2 => [.singBox, .mihomo]
  | anytls => [.singBox, .mihomo]

/-- The VLESS protocols authenticate with a UUID, the others with a password. -/
def isVless : ProtocolType → Bool
  | vlessReality => true
  | vlessXhttp => true
  | hysteria2 => false
  | anytls => false

@[simp] theorem fromStr?_toStr (p : ProtocolType) : fromStr? p.toStr = some p := by
  cases p <;> decide

theorem toStr_of_fromStr? {s : String} {p : ProtocolType} (h : fromStr? s = some p) :
    p.toStr = s := by
  rw [fromStr?] at h
  split at h
  · rename_i hs; cases h; exact hs.symm
  · split at h
    · rename_i hs; cases h; exact hs.symm
    · split at h
      · rename_i hs; cases h; exact hs.symm
      · split at h
        · rename_i hs; cases h; exact hs.symm
        · cases h

end ProtocolType

/-- A stored core type as the config generator reads it. -/
def parseCoreType (s : String) : CoreType :=
  if s = "sing-box" ∨ s = "singbox" then .singBox
  else if s = "mihomo" then .mihomo
  else .singBox

@[simp] theorem parseCoreType_toStr (c : CoreType) : parseCoreType c.toStr = c := by
  cases c <;> decide

/-- A stored protocol type, or the error for an unknown one. -/
def parseProtocolType (s : String) : PanelResult ProtocolType :=
  match ProtocolType.fromStr? s with
  | some p => .ok p
  | none => .error (.validation ("unknown protocol type: " ++ s))

theorem parseProtocolType_eq_ok {s : String} {p : ProtocolType} :
    parseProtocolType s = .ok p ↔ ProtocolType.fromStr? s = some p := by
  rw [parseProtocolType]
  cases ProtocolType.fromStr? s <;> simp

end ProxyPanel
