import ProxyPanel.Lib.Text

/-!
# Log records

Texts that are stored in the log of a node are redacted and bounded.  The redaction by
regular expressions is a parameter; `utf8Size_takeBytes` is the bound.
-/

namespace ProxyPanel.Logging

def maxLogText : Nat := 8192

/-- The longest prefix of whole characters with at most `n` bytes. -/
def takeBytes : Nat → List Char → List Char
  | _, [] => []
  | n, c :: cs => if c.utf8Size ≤ n then c :: takeBytes (n - c.utf8Size) cs else []

def sanitizeLogText (redact : String → String) (text : String) : String :=
  let value := redact text
  if maxLogText < value.utf8ByteSize then
    String.ofList (takeBytes maxLogText value.toList) ++ " [truncated]"
  else value

def sensitive (name : String) : Bool :=
  ["token", "password", "passwd", "secret", "authorization", "api_key", "apikey", "credential"].any
    (Text.contains (Text.toAsciiLowercase name))

def sanitizeLogField (redact : String → String) (name value : String) : String :=
  if sensitive name then "[REDACTED]"
  else String.ofList (takeBytes 512 (sanitizeLogText redact value).toList)

theorem utf8Size_takeBytes (n : Nat) (cs : List Char) :
    ((takeBytes n cs).map Char.utf8Size).sum ≤ n := by
  induction cs generalizing n with
  | nil => exact Nat.zero_le n
  | cons c cs ih =>
    rw [takeBytes]
    split
    · have hrest := ih (n - c.utf8Size)
      rw [List.map_cons, List.sum_cons]
      omega
    · exact Nat.zero_le n

end ProxyPanel.Logging
