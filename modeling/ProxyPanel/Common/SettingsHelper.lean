import ProxyPanel.Lib.Json
import ProxyPanel.Lib.Text

/-!
# Reading protocol settings

The helpers shared by the builders and the subscription formats.  Settings come
from a form or from raw JSON, so each value may be a string, a comma-separated
string or an array.  `clientUuid` and `clientPassword` look at the first element
of a `clients` array before the top-level placeholder.
-/

namespace ProxyPanel.SettingsHelper

open Json

/-- The strings of a comma-separated string or of an array, trimmed. -/
def names (raw : Json) (item : Json → Option String) : List String :=
  match raw.asStr with
  | some s => Text.commaPieces s
  | none =>
    match raw.asArray with
    | some xs => (xs.filterMap item).filter (fun s => s ≠ "")
    | none => []

def firstServerName (settings : Json) : Option String :=
  ((settings.get "server_names").or (settings.get "reality_server_names")).bind fun raw =>
    (names raw fun v => v.asStr.map Text.trim).head?

def firstShortId (settings : Json) : Option String :=
  ((settings.get "short_id").or (settings.get "reality_short_id")).bind fun raw =>
    (names raw fun v => (v.asStr.map Text.trim).or
      (v.asU64.map fun n => String.ofList (Nat.toDigits 16 n))).head?

def nonEmpty (s : String) : Bool := s ≠ ""

/-- The string under a key, unless it is empty. -/
def getNonEmpty (j : Json) (k : String) : Option String := (j.getStr k).filter nonEmpty

/-- The UUID of one entry, `id` before `uuid`. -/
def entryUuid (c : Json) : Option String :=
  (((c.get "id").or (c.get "uuid")).bind asStr).filter nonEmpty

def clientUuid (settings : Json) : Option String :=
  (((settings.getArr "clients").bind fun arr => arr.head?.bind entryUuid)).or (entryUuid settings)

def clientPassword (settings : Json) : Option String :=
  ((settings.getArr "clients").bind fun arr => arr.head?.bind (getNonEmpty · "password")).or
    (getNonEmpty settings "password")

/-- Protocol-level TLS settings with the binding-level ones on top. -/
def mergeTlsSettings (base overrideTls : Option Json) : Option Json :=
  match base, overrideTls with
  | some base, some upper =>
    match base, upper with
    | .obj es, .obj overrides => some ((Json.obj es).setAll overrides)
    | _, upper => some upper
  | none, some upper => some upper
  | base, none => base

/-- Whether clients can verify the certificate. -/
def tlsHasRealCertificate (tls : Option Json) : Bool :=
  match tls with
  | none => false
  | some t => ((getNonEmpty t "certFile").isSome && (getNonEmpty t "keyFile").isSome) ||
      (getNonEmpty t "domain").isSome

example : clientUuid (mkObj [("id", .str "placeholder"),
    ("clients", .arr [mkObj [("id", .str "first")]])]) = some "first" := by decide
example : firstServerName (mkObj [("server_names", .str "example.com, www.example.com")]) =
    some "example.com" := by decide

end ProxyPanel.SettingsHelper
