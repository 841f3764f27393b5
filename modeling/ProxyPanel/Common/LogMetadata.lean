import ProxyPanel.Common.Logging
import ProxyPanel.Lib.Search
import Mathlib.Data.List.Forall2

/-!
# Metadata of log records

Metadata is any JSON value.  `clean` goes at most five levels down, keeps the first entries of
an object or array, redacts by key and cuts what remains at a byte.  The cut steps back to the
start of a character: `sanitizeField_eq` says that it always finds one, and
`sanitizeLogMetadata_safe` is what a reader of the logs can rely on.
-/

namespace ProxyPanel.Logging

open Json

/-! ### Cutting at a byte -/

/-- Whether a character starts, or the text ends, at a byte. -/
def isCharBoundary : Nat → List Char → Bool
  | 0, _ => true
  | _ + 1, [] => false
  | n + 1, c :: cs =>
    decide (c.utf8Size ≤ n + 1) && isCharBoundary (n + 1 - c.utf8Size) cs

/-- The text before a byte.  A byte inside a character is a panic. -/
def truncate (n : Nat) (cs : List Char) : Option (List Char) :=
  if isCharBoundary n cs then some (takeBytes n cs) else none

/-- The loop that steps back to a boundary.  A step below zero is a panic. -/
def stepBack (cs : List Char) : Nat → Option Nat
  | 0 => if isCharBoundary 0 cs then some 0 else none
  | n + 1 => if isCharBoundary (n + 1) cs then some (n + 1) else stepBack cs n

theorem takeBytes_succ_of_not_boundary {n : Nat} {cs : List Char}
    (h : isCharBoundary (n + 1) cs = false) : takeBytes (n + 1) cs = takeBytes n cs := by
  induction cs generalizing n with
  | nil => rfl
  | cons c cs ih =>
    rw [takeBytes, takeBytes]
    by_cases hfits : c.utf8Size ≤ n + 1
    · rw [isCharBoundary, decide_eq_true hfits, Bool.true_and] at h
      obtain ⟨k, hk⟩ : ∃ k, n + 1 - c.utf8Size = k + 1 := by
        refine Nat.exists_eq_succ_of_ne_zero fun hzero => ?_
        rw [hzero, isCharBoundary] at h
        cases h
      have hrest : n - c.utf8Size = k := by omega
      rw [if_pos hfits, if_pos (by omega), hk, hrest]
      rw [hk] at h
      exact congrArg _ (ih h)
    · rw [if_neg hfits, if_neg (by omega)]

/-- **The loop ends at a boundary**, and drops no character that fits. -/
theorem stepBack_spec (cs : List Char) (n : Nat) : ∃ m, stepBack cs n = some m ∧
    isCharBoundary m cs = true ∧ takeBytes m cs = takeBytes n cs := by
  induction n with
  | zero =>
    have hstart : isCharBoundary 0 cs = true := by
      unfold isCharBoundary
      rfl
    exact ⟨0, by rw [stepBack, if_pos hstart], hstart, rfl⟩
  | succ n ih =>
    rw [stepBack]
    cases hboundary : isCharBoundary (n + 1) cs with
    | true => exact ⟨n + 1, rfl, hboundary, rfl⟩
    | false =>
      obtain ⟨m, hm, hstart, htake⟩ := ih
      exact ⟨m, hm, hstart, htake.trans (takeBytes_succ_of_not_boundary hboundary).symm⟩

theorem takeBytes_of_le {n : Nat} {cs : List Char} (h : (cs.map Char.utf8Size).sum ≤ n) :
    takeBytes n cs = cs := by
  induction cs generalizing n with
  | nil => rfl
  | cons c cs ih =>
    rw [List.map_cons, List.sum_cons] at h
    rw [takeBytes, if_pos (by omega), ih (by omega)]

theorem takeBytes_prefix (n : Nat) (cs : List Char) : takeBytes n cs <+: cs := by
  induction cs generalizing n with
  | nil => exact List.nil_prefix
  | cons c cs ih =>
    rw [takeBytes]
    split
    · exact List.cons_prefix_cons.mpr ⟨rfl, ih _⟩
    · exact List.nil_prefix

/-! ### Fields -/

section Sanitize

variable (sanitize : String → String)

/-- `sanitize_log_field` over any sanitizer of texts; `none` is a panic. -/
def sanitizeField (name value : String) : Option String :=
  if sensitive name then some "[REDACTED]"
  else
    let value := sanitize value
    (stepBack value.toList (min value.utf8ByteSize 512)).bind fun cut =>
      (truncate cut value.toList).map String.ofList

/-- The bytes of a text are those of its characters. -/
theorem utf8ByteSize_ofList (cs : List Char) :
    (String.ofList cs).utf8ByteSize = (cs.map Char.utf8Size).sum := by
  induction cs with
  | nil => simp
  | cons c cs ih =>
    have hone : (String.ofList [c]).utf8ByteSize = c.utf8Size := by
      rw [← String.singleton_eq_ofList, String.utf8ByteSize_singleton]
    rw [← List.singleton_append, String.ofList_append, String.utf8ByteSize_append, hone, ih,
      List.singleton_append, List.map_cons, List.sum_cons]

theorem utf8Size_toList (s : String) : (s.toList.map Char.utf8Size).sum = s.utf8ByteSize := by
  rw [← utf8ByteSize_ofList, String.ofList_toList]

/-- **No field panics**, and its text is what `sanitize_log_field` should keep. -/
theorem sanitizeField_eq (name value : String) : sanitizeField sanitize name value =
    some (if sensitive name then "[REDACTED]"
      else String.ofList (takeBytes 512 (sanitize value).toList)) := by
  unfold sanitizeField
  by_cases hname : sensitive name = true
  · rw [if_pos hname, if_pos hname]
  · rw [if_neg hname, if_neg hname]
    generalize sanitize value = text
    obtain ⟨cut, hcut, hstart, htake⟩ := stepBack_spec text.toList (min text.utf8ByteSize 512)
    have hmin : takeBytes (min text.utf8ByteSize 512) text.toList = takeBytes 512 text.toList := by
      rcases Nat.le_total text.utf8ByteSize 512 with hshort | hlong
      · rw [Nat.min_eq_left hshort, takeBytes_of_le (utf8Size_toList text).le,
          takeBytes_of_le ((utf8Size_toList text).trans_le hshort)]
      · rw [Nat.min_eq_right hlong]
    simp only
    rw [hcut, Option.bind_some, truncate, if_pos hstart, htake, hmin, Option.map_some]

/-! ### Values -/

def maxFields : Nat := 32

/-- `left` counts down what `depth` counts up to 4. -/
def clean : Nat → Json → Option Json
  | 0, _ => some (str "[metadata truncated]")
  | _ + 1, str value => (sanitizeField sanitize "value" value).map str
  | left + 1, obj values => do
    let values ← (values.take maxFields).mapM fun entry => do
      let value ← if sensitive entry.1 then some (str "[REDACTED]") else clean left entry.2
      return (entry.1, value)
    return obj values
  | left + 1, arr values => do return arr (← (values.take maxFields).mapM (clean left))
  | _ + 1, value => some value

def sanitizeLogMetadata (value : Json) : Option Json := clean sanitize 5 value

end Sanitize

/-! ### What is in the result -/

/-- A value inside another, below so many objects and arrays. -/
inductive Inside : Nat → Json → Json → Prop where
  | self (whole : Json) : Inside 0 whole whole
  | item {n : Nat} {part item : Json} {items : List Json} :
    item ∈ items → Inside n part item → Inside (n + 1) part (arr items)
  | entry {n : Nat} {part value : Json} {key : String} {entries : List (String × Json)} :
    (key, value) ∈ entries → Inside n part value → Inside (n + 1) part (obj entries)

def sensitiveWords : List String :=
  ["token", "password", "passwd", "secret", "authorization", "api_key", "apikey", "credential"]

/-- A piece of the key is one of the words, whatever the case of its letters. -/
def HasSensitiveWord (key : String) : Prop :=
  ∃ word ∈ sensitiveWords, ∃ piece, piece <:+: key.toList ∧ piece.map Char.toLower = word.toList

theorem sensitive_iff (key : String) : sensitive key = true ↔ HasSensitiveWord key := by
  rw [sensitive, List.any_eq_true, HasSensitiveWord]
  refine exists_congr fun word => and_congr_right fun _ => ?_
  rw [Text.contains_iff, Text.toAsciiLowercase, String.toList_ofList, List.infix_map_iff]
  exact exists_congr fun piece => and_congr_right fun _ => eq_comm

/-- What a part of sanitized metadata is like; `given` are the texts that were to be logged. -/
structure Safe (sanitize : String → String) (given : String → Prop) (part : Json) : Prop where
  entries : ∀ es, part = obj es → es.length ≤ 32
  redacted : ∀ es, part = obj es → ∀ key value, (key, value) ∈ es → HasSensitiveWord key →
    value = str "[REDACTED]"
  items : ∀ items, part = arr items → items.length ≤ 32
  bytes : ∀ text, part = str text → text.utf8ByteSize ≤ 512
  cut : ∀ text, part = str text → text = "[REDACTED]" ∨ text = "[metadata truncated]" ∨
    ∃ value, given value ∧ text.toList <+: (sanitize value).toList

section Result

variable {sanitize : String → String} {given : String → Prop}

theorem safe_str {text : String} (hbytes : text.utf8ByteSize ≤ 512)
    (hcut : text = "[REDACTED]" ∨ text = "[metadata truncated]" ∨
      ∃ value, given value ∧ text.toList <+: (sanitize value).toList) :
    Safe sanitize given (str text) where
  entries := nofun
  redacted := nofun
  items := nofun
  bytes := fun _ h => by cases h; exact hbytes
  cut := fun _ h => by cases h; exact hcut

/-- Results below `left` objects and arrays. -/
def SafeBelow (sanitize : String → String) (given : String → Prop) (left : Nat) (out : Json) :
    Prop :=
  ∀ n part, Inside n part out → n ≤ left ∧ Safe sanitize given part

theorem safeBelow_self {left : Nat} {out : Json} (hself : Safe sanitize given out)
    (hleaf : ∀ n part, Inside (n + 1) part out → False) : SafeBelow sanitize given left out := by
  intro n part h
  cases n with
  | zero =>
    cases h
    exact ⟨Nat.zero_le _, hself⟩
  | succ n => exact (hleaf n part h).elim

theorem safeBelow_str {left : Nat} {text : String} (h : Safe sanitize given (str text)) :
    SafeBelow sanitize given left (str text) :=
  safeBelow_self h (fun _ _ hin => by cases hin)

theorem safeBelow_redacted (left : Nat) :
    SafeBelow sanitize given left (str "[REDACTED]") :=
  safeBelow_str (safe_str (by decide) (Or.inl rfl))

theorem safeBelow_field {left : Nat} {value : String} (h : given value) : ∃ text,
    sanitizeField sanitize "value" value = some text ∧
      SafeBelow sanitize given left (str text) := by
  refine ⟨_, sanitizeField_eq sanitize "value" value, safeBelow_str (safe_str ?_ ?_)⟩
  · rw [if_neg (by decide), utf8ByteSize_ofList]
    exact utf8Size_takeBytes 512 _
  · rw [if_neg (by decide), String.toList_ofList]
    exact Or.inr (Or.inr ⟨value, h, takeBytes_prefix 512 _⟩)

/-- A map over a list that succeeds on each element. -/
theorem mapM_eq_some {α β : Type} {f : α → Option β} {p : α → β → Prop} {as : List α}
    (h : ∀ a ∈ as, ∃ b, f a = some b ∧ p a b) :
    ∃ bs, as.mapM f = some bs ∧ List.Forall₂ p as bs := by
  induction as with
  | nil => exact ⟨[], rfl, .nil⟩
  | cons a as ih =>
    obtain ⟨b, hb, hp⟩ := h a List.mem_cons_self
    obtain ⟨bs, hbs, hall⟩ := ih fun a' ha' => h a' (List.mem_cons_of_mem a ha')
    refine ⟨b :: bs, ?_, .cons hp hall⟩
    rw [List.mapM_cons, hb, hbs]
    rfl

theorem exists_mem_of_forall₂ {α β : Type} {p : α → β → Prop} {as : List α} {bs : List β}
    (h : List.Forall₂ p as bs) {b : β} (hb : b ∈ bs) : ∃ a ∈ as, p a b := by
  induction h with
  | nil => cases hb
  | cons hp _ ih =>
    rcases List.mem_cons.mp hb with rfl | hb
    · exact ⟨_, List.mem_cons_self, hp⟩
    · obtain ⟨a, ha, hpa⟩ := ih hb
      exact ⟨a, List.mem_cons_of_mem _ ha, hpa⟩

theorem safeBelow_obj {left : Nat} {es : List (String × Json)} (hlength : es.length ≤ 32)
    (hentries : ∀ e ∈ es, SafeBelow sanitize given left e.2 ∧
      (HasSensitiveWord e.1 → e.2 = str "[REDACTED]")) :
    SafeBelow sanitize given (left + 1) (obj es) := by
  intro n part h
  cases h with
  | self =>
    refine ⟨Nat.zero_le _, ?_, ?_, nofun, nofun, nofun⟩
    · rintro _ ⟨⟩
      exact hlength
    · rintro _ ⟨⟩ key value hmem
      exact (hentries _ hmem).2
  | entry hmem hin =>
    obtain ⟨hdepth, hsafe⟩ := (hentries _ hmem).1 _ _ hin
    exact ⟨Nat.succ_le_succ hdepth, hsafe⟩

theorem safeBelow_arr {left : Nat} {items : List Json} (hlength : items.length ≤ 32)
    (hitems : ∀ item ∈ items, SafeBelow sanitize given left item) :
    SafeBelow sanitize given (left + 1) (arr items) := by
  intro n part h
  cases h with
  | self =>
    refine ⟨Nat.zero_le _, nofun, nofun, ?_, nofun, nofun⟩
    rintro _ ⟨⟩
    exact hlength
  | item hmem hin =>
    obtain ⟨hdepth, hsafe⟩ := hitems _ hmem _ _ hin
    exact ⟨Nat.succ_le_succ hdepth, hsafe⟩

/-- A scalar that is no text stays as it is. -/
theorem safeBelow_scalar {left : Nat} {value : Json} (hobj : ∀ es, value ≠ obj es)
    (harr : ∀ items, value ≠ arr items) (hstr : ∀ text, value ≠ str text) :
    SafeBelow sanitize given left value := by
  refine safeBelow_self ⟨fun es h => absurd h (hobj es), fun es h => absurd h (hobj es),
    fun items h => absurd h (harr items), fun text h => absurd h (hstr text),
    fun text h => absurd h (hstr text)⟩ fun n part h => ?_
  cases h with
  | item => exact harr _ rfl
  | entry => exact hobj _ rfl

/-- One case for each kind of value; the induction is on the levels that are left. -/
theorem clean_spec (left : Nat) (value : Json)
    (hgiven : ∀ n text, Inside n (str text) value → given text) : ∃ out,
    clean sanitize left value = some out ∧ SafeBelow sanitize given left out := by
  induction left generalizing value with
  | zero => exact ⟨_, rfl, safeBelow_str (safe_str (by decide) (Or.inr (Or.inl rfl)))⟩
  | succ left ih =>
    cases value with
    | str text =>
      obtain ⟨out, hout, hsafe⟩ :=
        @safeBelow_field sanitize given (left + 1) text (hgiven 0 text (.self _))
      exact ⟨str out, by rw [clean, hout, Option.map_some], hsafe⟩
    | obj es =>
      have hentry : ∀ e ∈ es.take maxFields, ∃ e' : String × Json,
          (do
            let value ← if sensitive e.1 then some (str "[REDACTED]")
              else clean sanitize left e.2
            return (e.1, value) : Option (String × Json)) = some e' ∧
          SafeBelow sanitize given left e'.2 ∧
            (HasSensitiveWord e'.1 → e'.2 = str "[REDACTED]") := by
        intro e he
        by_cases hkey : sensitive e.1 = true
        · rw [if_pos hkey]
          exact ⟨(e.1, str "[REDACTED]"), rfl, safeBelow_redacted left, fun _ => rfl⟩
        · obtain ⟨out, hout, hsafe⟩ := ih e.2 fun n text hin =>
            hgiven (n + 1) text (.entry (List.mem_of_mem_take he) hin)
          rw [if_neg hkey, hout]
          exact ⟨(e.1, out), rfl, hsafe, fun hword => absurd ((sensitive_iff _).mpr hword) hkey⟩
      obtain ⟨es', hes', hall⟩ := mapM_eq_some hentry
      refine ⟨obj es', by rw [clean, hes']; rfl, safeBelow_obj ?_ fun e' he' => ?_⟩
      · rw [← hall.length_eq]
        exact List.length_take_le _ _
      · obtain ⟨_, -, hsafe⟩ := exists_mem_of_forall₂ hall he'
        exact hsafe
    | arr items =>
      obtain ⟨items', hitems', hall⟩ := mapM_eq_some fun item hitem =>
        ih item fun n text hin => hgiven (n + 1) text (.item (List.mem_of_mem_take hitem) hin)
      refine ⟨arr items', by rw [clean, hitems']; rfl, safeBelow_arr ?_ fun item' hitem' => ?_⟩
      · rw [← hall.length_eq]
        exact List.length_take_le _ _
      · obtain ⟨_, -, hsafe⟩ := exists_mem_of_forall₂ hall hitem'
        exact hsafe
    | null => exact ⟨_, rfl, safeBelow_scalar nofun nofun nofun⟩
    | bool b => exact ⟨_, rfl, safeBelow_scalar nofun nofun nofun⟩
    | num n => exact ⟨_, rfl, safeBelow_scalar nofun nofun nofun⟩
    | float text => exact ⟨_, rfl, safeBelow_scalar nofun nofun nofun⟩

end Result

/-- **Sanitized metadata is bounded and redacted**, whatever the value and whatever the
sanitizer of texts does, and sanitizing never panics. -/
theorem sanitizeLogMetadata_safe (sanitize : String → String) (value : Json) : ∃ out,
    sanitizeLogMetadata sanitize value = some out ∧ ∀ n part, Inside n part out →
      n ≤ 5 ∧ Safe sanitize (fun text => ∃ m, Inside m (str text) value) part :=
  clean_spec 5 value fun n _ h => ⟨n, h⟩

example : sanitizeLogMetadata id (obj [("nested", obj [("Api_Key", str "hidden"), ("n", num 2)])]) =
    some (obj [("nested", obj [("Api_Key", str "[REDACTED]"), ("n", num 2)])]) := by rfl

end ProxyPanel.Logging
