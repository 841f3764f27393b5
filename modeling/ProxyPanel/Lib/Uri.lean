import Mathlib.Data.List.TakeWhile
import ProxyPanel.Lib.Text

/-!
# URIs

The generic syntax `scheme://userinfo@host:port?query#fragment`, read from left
to right: the authority ends at the first `/`, `?` or `#`, the query at the first
`#`.  A component is percent-decoded after it is cut out, and `+` stands for
itself.

* `percentDecode_self_iff`: a text that has no percent escape reads as itself.
* `eq_of_percentDecode`: no proper beginning of a text reads as the text.
* `decode_formEncode_iff`: which form-encoded texts read as the text.
* `Composed.parse_iff`: when the components of a composed URI are read back.
-/

namespace ProxyPanel.Uri

/-! ### Percent-encoding -/

def hexDigit (c : Char) : Option Nat :=
  if 48 ≤ c.toNat ∧ c.toNat ≤ 57 then some (c.toNat - 48)
  else if 65 ≤ c.toNat ∧ c.toNat ≤ 70 then some (c.toNat - 55)
  else if 97 ≤ c.toNat ∧ c.toNat ≤ 102 then some (c.toNat - 87)
  else none

/-- The byte of two hexadecimal digits. -/
def escaped (x y : Char) : Option UInt8 :=
  (hexDigit x).bind fun a => (hexDigit y).map fun b => .ofNat (16 * a + b)

/-- The bytes of a text.  A percent sign without two digits stands for itself. -/
def percentBytes : List Char → List UInt8
  | '%' :: x :: y :: cs =>
    match escaped x y with
    | some b => b :: percentBytes cs
    | none => String.utf8EncodeChar '%' ++ percentBytes (x :: y :: cs)
  | c :: cs => String.utf8EncodeChar c ++ percentBytes cs
  | [] => []

def percentDecode (cs : List Char) : Option (List Char) := Text.ofUtf8 (percentBytes cs)

/-- A percent sign and two hexadecimal digits. -/
def hasEscape : List Char → Bool
  | '%' :: x :: y :: cs => (escaped x y).isSome || hasEscape (x :: y :: cs)
  | _ :: cs => hasEscape cs
  | [] => false

theorem percentBytes_of_no_escape {cs : List Char} (h : hasEscape cs = false) :
    percentBytes cs = Text.utf8 cs := by
  fun_induction percentBytes cs with
  | case1 x y cs b hb ih =>
    rw [hasEscape, hb] at h
    cases h
  | case2 x y cs hb ih =>
    rw [hasEscape, hb] at h
    rw [ih h]
    rfl
  | case3 c cs hshape ih =>
    have hrest : hasEscape cs = false := by
      rwa [hasEscape] at h
      exact hshape
    rw [ih hrest]
    rfl
  | case4 => rfl

theorem length_utf8_cons (c : Char) (cs : List Char) :
    (Text.utf8 (c :: cs)).length = (String.utf8EncodeChar c).length + (Text.utf8 cs).length :=
  List.length_append

theorem one_le_length_utf8EncodeChar (c : Char) : 1 ≤ (String.utf8EncodeChar c).length :=
  List.length_pos_iff.mpr String.utf8EncodeChar_ne_nil

/-- An escape has three characters and stands for one byte. -/
theorem length_percentBytes (cs : List Char) :
    (percentBytes cs).length + (hasEscape cs).toNat ≤ (Text.utf8 cs).length := by
  fun_induction percentBytes cs with
  | case1 x y cs b hb ih =>
    have hpercent := one_le_length_utf8EncodeChar '%'
    have hx := one_le_length_utf8EncodeChar x
    have hy := one_le_length_utf8EncodeChar y
    have hescape := Bool.toNat_le (hasEscape ('%' :: x :: y :: cs))
    rw [length_utf8_cons, length_utf8_cons, length_utf8_cons, List.length_cons]
    omega
  | case2 x y cs hb ih =>
    rw [length_utf8_cons, List.length_append, hasEscape, hb]
    simp only [Option.isSome_none, Bool.false_or]
    omega
  | case3 c cs hshape ih =>
    rw [length_utf8_cons, List.length_append, hasEscape]
    · omega
    · exact hshape
  | case4 => rfl

theorem length_of_percentDecode {cs v : List Char} (h : percentDecode cs = some v) :
    (Text.utf8 v).length + (hasEscape cs).toNat ≤ (Text.utf8 cs).length := by
  rw [← Text.ofUtf8_eq_some_iff.mp h]
  exact length_percentBytes cs

/-- **A text reads as itself if and only if it has no escape.** -/
theorem percentDecode_self_iff {cs : List Char} :
    percentDecode cs = some cs ↔ hasEscape cs = false := by
  constructor
  · intro h
    have hlength := length_of_percentDecode h
    cases hescape : hasEscape cs with
    | false => rfl
    | true =>
      rw [hescape, Bool.toNat_true] at hlength
      omega
  · intro h
    rw [percentDecode, percentBytes_of_no_escape h, Text.ofUtf8_utf8]

/-- **No proper beginning of a text reads as the text.** -/
theorem eq_of_percentDecode {xs v : List Char} (h : percentDecode xs = some v) (hxs : xs <+: v) :
    xs = v := by
  obtain ⟨ys, rfl⟩ := hxs
  have hlength := length_of_percentDecode h
  rw [Text.utf8_append, List.length_append] at hlength
  cases ys with
  | nil => rw [List.append_nil]
  | cons y ys =>
    have hy := one_le_length_utf8EncodeChar y
    rw [length_utf8_cons] at hlength
    omega

/-- The text a component stands for. -/
def decode (cs : List Char) : Option String := (percentDecode cs).map String.ofList

theorem decode_eq_some_iff {cs : List Char} {s : String} :
    decode cs = some s ↔ percentDecode cs = some s.toList := by
  rw [decode, Option.map_eq_some_iff]
  constructor
  · rintro ⟨v, hv, rfl⟩
    rw [hv, String.toList_ofList]
  · exact fun h => ⟨s.toList, h, String.ofList_toList⟩

/-! ### Cutting -/

/-- What stands before and after the first `c`. -/
def cut (c : Char) (cs : List Char) : Option (List Char × List Char) :=
  match cs.dropWhile (· ≠ c) with
  | _ :: rest => some (cs.takeWhile (· ≠ c), rest)
  | [] => none

section Stop

variable {p : Char → Bool} {xs ys : List Char} {c : Char}

theorem takeWhile_before_stop (hc : p c = false) :
    (xs ++ c :: ys).takeWhile p = xs.takeWhile p := by
  induction xs with
  | nil => exact List.takeWhile_cons_of_neg (by rw [hc]; decide)
  | cons x xs ih =>
    rw [List.cons_append, List.takeWhile_cons, List.takeWhile_cons, ih]

theorem takeWhile_append_stop (hxs : ∀ x ∈ xs, p x = true) (hc : p c = false) :
    (xs ++ c :: ys).takeWhile p = xs := by
  rw [takeWhile_before_stop hc, List.takeWhile_eq_self_iff.mpr hxs]

theorem dropWhile_append_stop (hxs : ∀ x ∈ xs, p x = true) (hc : p c = false) :
    (xs ++ c :: ys).dropWhile p = c :: ys := by
  rw [List.dropWhile_append_of_pos hxs, List.dropWhile_cons_of_neg (by rw [hc]; decide)]

theorem ne_of_not_mem (h : c ∉ xs) : ∀ x ∈ xs, decide (x ≠ c) = true :=
  fun _ hx => decide_eq_true fun hxc => h (hxc ▸ hx)

end Stop

theorem cut_eq_some_iff {c : Char} {cs xs ys : List Char} :
    cut c cs = some (xs, ys) ↔ cs = xs ++ c :: ys ∧ c ∉ xs := by
  constructor
  · intro h
    rw [cut] at h
    split at h
    · rename_i d rest hdrop
      cases h
      have hd : d = c := by
        have hhead := List.head?_dropWhile_not (fun x => decide (x ≠ c)) cs
        rw [hdrop] at hhead
        simpa using hhead
      refine ⟨?_, fun hc => ?_⟩
      · rw [hd] at hdrop
        rw [← hdrop]
        exact List.takeWhile_append_dropWhile.symm
      · have hne := List.mem_takeWhile_imp hc
        simp at hne
    · cases h
  · rintro ⟨rfl, hc⟩
    have hxs := ne_of_not_mem hc
    have hstop : decide (c ≠ c) = false := by simp
    rw [cut, dropWhile_append_stop hxs hstop, takeWhile_append_stop hxs hstop]

theorem cut_eq_none_iff {c : Char} {cs : List Char} : cut c cs = none ↔ c ∉ cs := by
  constructor
  · intro h hc
    obtain ⟨xs, ys, rfl, hxs⟩ := List.eq_append_cons_of_mem hc
    rw [cut_eq_some_iff.mpr ⟨rfl, hxs⟩] at h
    cases h
  · intro h
    cases hcut : cut c cs with
    | none => rfl
    | some parts =>
      obtain ⟨rfl, -⟩ := cut_eq_some_iff.mp (show cut c cs = some (parts.1, parts.2) from hcut)
      exact absurd (List.mem_append_right _ List.mem_cons_self) h

/-- Two texts that are cut at the same character: one begins with the other. -/
theorem cut_cases {c : Char} {xs ys rs ts : List Char} (h : xs ++ c :: rs = ys ++ c :: ts)
    (hxs : c ∉ xs) : (xs = ys ∧ rs = ts) ∨ ∃ zs, ys = xs ++ c :: zs := by
  rcases List.append_eq_append_iff.mp h with ⟨zs, hys, hrs⟩ | ⟨zs, hxs', hts⟩
  · cases zs with
    | nil =>
      rw [List.nil_append, List.cons.injEq] at hrs
      rw [List.append_nil] at hys
      exact Or.inl ⟨hys.symm, hrs.2⟩
    | cons z zs =>
      rw [List.cons_append, List.cons.injEq] at hrs
      rw [← hrs.1] at hys
      exact Or.inr ⟨zs, hys⟩
  · cases zs with
    | nil =>
      rw [List.nil_append, List.cons.injEq] at hts
      rw [List.append_nil] at hxs'
      exact Or.inl ⟨hxs', hts.2.symm⟩
    | cons z zs =>
      rw [List.cons_append, List.cons.injEq] at hts
      refine absurd ?_ hxs
      rw [hxs', ← hts.1]
      exact List.mem_append_right _ List.mem_cons_self

/-! ### The syntax -/

/-- Host and port.  An address between brackets may have colons. -/
def hostPort : List Char → Option (List Char × List Char)
  | '[' :: cs =>
    match cut ']' cs with
    | some (ip, ':' :: port) => some ('[' :: (ip ++ [']']), port)
    | _ => none
  | cs => cut ':' cs

/-- Whether a text can stand before the colon of the port. -/
def isHost : List Char → Bool
  | '[' :: cs => (cut ']' cs).any (·.2 = [])
  | cs => ':' ∉ cs

/-- User information, host and port, with one `@` in between. -/
def authority (cs : List Char) : Option (String × String × Nat) :=
  (cut '@' cs).bind fun (userinfo, address) =>
    if '@' ∈ address then none
    else (hostPort address).bind fun (host, port) =>
      (decode userinfo).bind fun userinfo => (decode host).bind fun host =>
        (Text.digitsValue port).map fun port => (userinfo, host, port)

def pair (piece : List Char) : Option (String × String) :=
  let (key, value) := (cut '=' piece).getD (piece, [])
  (decode key).bind fun key => (decode value).map fun value => (key, value)

def pairs (cs : List Char) : Option (List (String × String)) := (cs.splitOn '&').mapM pair

/-- The query of what follows the authority. -/
def query (cs : List Char) : Option (List (String × String)) :=
  match cs.dropWhile fun c => c ≠ '?' ∧ c ≠ '#' with
  | '?' :: cs => pairs (cs.takeWhile (· ≠ '#'))
  | _ => some []

/-- The fragment of what follows the authority. -/
def fragment (cs : List Char) : Option String :=
  match cut '#' cs with
  | some (_, cs) => decode cs
  | none => some ""

/-- Whether a character belongs to the authority. -/
def inAuthority (c : Char) : Bool := c ≠ '/' ∧ c ≠ '?' ∧ c ≠ '#'

/-- The components, decoded. -/
structure Components where
  scheme : String
  userinfo : String
  host : String
  port : Nat
  query : List (String × String)
  fragment : String

def parse (text : String) : Option Components :=
  match cut ':' text.toList with
  | some (scheme, '/' :: '/' :: cs) =>
    (authority (cs.takeWhile inAuthority)).bind fun (userinfo, host, port) =>
      (query (cs.dropWhile inAuthority)).bind fun query =>
        (fragment (cs.dropWhile inAuthority)).map fun fragment =>
          ⟨String.ofList scheme, userinfo, host, port, query, fragment⟩
  | _ => none

/-! ### Hosts -/

theorem isHost_bracket_iff {cs : List Char} :
    isHost ('[' :: cs) = true ↔ ∃ ip, cs = ip ++ [']'] ∧ ']' ∉ ip := by
  rw [isHost, Option.any_eq_true]
  constructor
  · rintro ⟨⟨ip, rest⟩, hcut, hrest⟩
    cases of_decide_eq_true hrest
    exact ⟨ip, cut_eq_some_iff.mp hcut⟩
  · rintro ⟨ip, hcs⟩
    exact ⟨(ip, []), cut_eq_some_iff.mpr hcs, rfl⟩

theorem isHost_of_ne {cs : List Char} (h : ∀ ip, cs ≠ '[' :: ip) :
    isHost cs = true ↔ ':' ∉ cs := by
  rw [isHost, decide_eq_true_eq]
  exact h

theorem hostPort_eq_some_iff {cs host port : List Char} :
    hostPort cs = some (host, port) ↔ cs = host ++ ':' :: port ∧ isHost host = true := by
  by_cases hbracket : ∃ ip, cs = '[' :: ip
  · obtain ⟨ip, rfl⟩ := hbracket
    rw [hostPort]
    constructor
    · intro h
      split at h
      · rename_i ip' port' hcut
        obtain ⟨rfl, hip⟩ := cut_eq_some_iff.mp hcut
        cases h
        refine ⟨by simp, isHost_bracket_iff.mpr ⟨ip', rfl, hip⟩⟩
      · cases h
    · rintro ⟨hcs, hhost⟩
      cases host with
      | nil =>
        rw [List.nil_append, List.cons.injEq] at hcs
        exact absurd hcs.1 (by decide)
      | cons c host =>
        rw [List.cons_append, List.cons.injEq] at hcs
        obtain ⟨rfl, rfl⟩ := hcs
        obtain ⟨ip, rfl, hip⟩ := isHost_bracket_iff.mp hhost
        rw [List.append_assoc, List.singleton_append, cut_eq_some_iff.mpr ⟨rfl, hip⟩]
        rfl
  · have hcut : hostPort cs = cut ':' cs := by
      rw [hostPort]
      exact fun ip h => hbracket ⟨ip, h⟩
    rw [hcut, cut_eq_some_iff]
    refine and_congr_right fun hcs => ?_
    rw [isHost_of_ne]
    rintro ip rfl
    exact hbracket ⟨_, hcs⟩

/-! ### The authority -/

/-- A text without any of these characters. -/
def Free (stops text : List Char) : Prop := ∀ c ∈ stops, c ∉ text

instance (stops text : List Char) : Decidable (Free stops text) :=
  List.decidableBAll (fun c => c ∉ text) stops

theorem inAuthority_iff {c : Char} : inAuthority c = true ↔ c ∉ ['/', '?', '#'] := by
  simp [inAuthority]

theorem inAuthority_of_free {cs : List Char} (h : Free ['/', '?', '#', '@'] cs) :
    ∀ c ∈ cs, inAuthority c = true := by
  intro c hc
  rw [inAuthority_iff]
  intro hstop
  exact h c (List.mem_append_left ['@'] hstop) hc

theorem inAuthority_of_isDigit {c : Char} (h : c.isDigit = true) : inAuthority c = true := by
  rw [inAuthority_iff]
  intro hstop
  simp only [List.mem_cons, List.not_mem_nil, or_false] at hstop
  rcases hstop with rfl | rfl | rfl <;> exact absurd h (by decide)

theorem free_of_forall {cs : List Char} (h : ∀ c ∈ cs, inAuthority c = true) (hat : '@' ∉ cs) :
    Free ['/', '?', '#', '@'] cs := by
  intro c hc hmem
  rcases List.mem_append.mp (show c ∈ ['/', '?', '#'] ++ ['@'] from hc) with hstop | hstop
  · exact inAuthority_iff.mp (h c hmem) hstop
  · exact hat (List.mem_singleton.mp hstop ▸ hmem)

/-- A host that is written as it is, and read back. -/
structure HostReads (host : List Char) : Prop where
  free : Free ['/', '?', '#', '@'] host
  isHost : Uri.isHost host = true
  plain : hasEscape host = false

section Authority

variable {U H tail : List Char} {user : String} {n : Nat}

/-- The authority of a URI, up to what follows it. -/
def address (H : List Char) (n : Nat) (tail : List Char) : List Char :=
  H ++ ':' :: (Nat.toDigits 10 n ++ '?' :: tail)

theorem authority_of_free (hU : Free ['/', '?', '#', '@'] U) (hH : Free ['/', '?', '#', '@'] H) :
    (U ++ '@' :: address H n tail).takeWhile inAuthority =
        U ++ '@' :: (H ++ ':' :: Nat.toDigits 10 n) ∧
      (U ++ '@' :: address H n tail).dropWhile inAuthority = '?' :: tail := by
  have hcs : U ++ '@' :: address H n tail =
      (U ++ '@' :: (H ++ ':' :: Nat.toDigits 10 n)) ++ '?' :: tail := by
    simp [address]
  have hin : ∀ c ∈ U ++ '@' :: (H ++ ':' :: Nat.toDigits 10 n), inAuthority c = true := by
    intro c hc
    rcases List.mem_append.mp hc with hc | hc
    · exact inAuthority_of_free hU c hc
    · rcases List.mem_cons.mp hc with rfl | hc
      · rfl
      · rcases List.mem_append.mp hc with hc | hc
        · exact inAuthority_of_free hH c hc
        · rcases List.mem_cons.mp hc with rfl | hc
          · rfl
          · exact inAuthority_of_isDigit
              (Nat.isDigit_of_mem_toDigits (by decide) (by decide) hc)
  rw [hcs]
  exact ⟨takeWhile_append_stop hin rfl, dropWhile_append_stop hin rfl⟩

/-- The components of an authority are read back when they have no delimiters. -/
theorem authority_reads (hU : Free ['/', '?', '#', '@'] U) (hdecode : decode U = some user)
    (hH : HostReads H) :
    authority (U ++ '@' :: (H ++ ':' :: Nat.toDigits 10 n)) = some (user, String.ofList H, n) := by
  have hat : '@' ∉ H ++ ':' :: Nat.toDigits 10 n := by
    intro h
    rcases List.mem_append.mp h with h | h
    · exact hH.free '@' (by decide) h
    · rcases List.mem_cons.mp h with h | h
      · exact absurd h (by decide)
      · exact absurd (Nat.isDigit_of_mem_toDigits (by decide) (by decide) h) (by decide)
  have hhost : decode H = some (String.ofList H) := by
    rw [decode, percentDecode_self_iff.mpr hH.plain, Option.map_some]
  rw [authority, cut_eq_some_iff.mpr ⟨rfl, hU '@' (by decide)⟩, Option.bind_some]
  simp only
  rw [if_neg hat, hostPort_eq_some_iff.mpr ⟨rfl, hH.isHost⟩, Option.bind_some]
  simp only
  rw [hdecode, hhost, Text.digitsValue_toDigits]
  rfl

/-- The host that is read is the host that was written, if it is the same text. -/
theorem host_of_address {host port rest : List Char} {n : Nat}
    (h : host ++ ':' :: (port ++ rest) = address H n tail) (hmark : '?' ∉ host)
    (hdecode : percentDecode host = some H) : host = H := by
  rcases List.append_eq_append_iff.mp h with ⟨zs, hH, -⟩ | ⟨zs, hhost, hrest⟩
  · exact eq_of_percentDecode hdecode ⟨zs, hH.symm⟩
  · cases zs with
    | nil => rw [hhost, List.append_nil]
    | cons z zs =>
      exfalso
      rw [List.cons_append, List.cons.injEq] at hrest
      have hzs : '?' ∉ zs := fun hmem =>
        hmark (hhost ▸ List.mem_append_right _ (List.mem_cons_of_mem _ hmem))
      rcases List.append_eq_append_iff.mp hrest.2 with ⟨ws, hzs', hws⟩ | ⟨ws, hdigits, hws⟩
      · cases ws with
        | nil =>
          rw [List.nil_append, List.cons.injEq] at hws
          exact absurd hws.1 (by decide)
        | cons w ws =>
          rw [List.cons_append, List.cons.injEq] at hws
          rw [hzs', ← hws.1] at hzs
          exact hzs (List.mem_append_right _ List.mem_cons_self)
      · cases ws with
        | nil =>
          rw [List.nil_append, List.cons.injEq] at hws
          exact absurd hws.1 (by decide)
        | cons w ws =>
          rw [List.cons_append, List.cons.injEq] at hws
          have hcolon : ':' ∈ Nat.toDigits 10 n := by
            rw [hdigits, hws.1]
            exact List.mem_append_right _ List.mem_cons_self
          exact absurd (Nat.isDigit_of_mem_toDigits (by decide) (by decide) hcolon) (by decide)

/-- **The components of an authority are read back only then.**  The user
information is free of delimiters or written as it is; the host is written as it is. -/
theorem free_of_authority (hU : Free ['/', '?', '#', '@'] U ∨ U = user.toList)
    (h : authority ((U ++ '@' :: address H n tail).takeWhile inAuthority) =
      some (user, String.ofList H, n)) :
    (Free ['/', '?', '#', '@'] U ∧ decode U = some user) ∧ HostReads H := by
  rw [authority, Option.bind_eq_some_iff] at h
  obtain ⟨⟨U', H'⟩, hcut, h⟩ := h
  obtain ⟨hcs, hatU⟩ := cut_eq_some_iff.mp hcut
  simp only at h
  split at h
  · cases h
  rename_i hatH
  simp only [Option.bind_eq_some_iff, Option.map_eq_some_iff, Prod.mk.injEq] at h
  obtain ⟨⟨host, port⟩, hhost, _, huser, _, hserver, _, -, hreadUser, hreadHost, -⟩ := h
  rw [hreadUser] at huser
  rw [hreadHost] at hserver
  obtain ⟨rfl, hisHost⟩ := hostPort_eq_some_iff.mp hhost
  have hin : ∀ c ∈ U' ++ '@' :: (host ++ ':' :: port), inAuthority c = true := by
    intro c hc
    rw [← hcs] at hc
    exact List.mem_takeWhile_imp hc
  have hwhole := @List.takeWhile_append_dropWhile _ inAuthority (U ++ '@' :: address H n tail)
  rw [hcs, List.append_assoc, List.cons_append] at hwhole
  have hfreeU : Free ['/', '?', '#', '@'] U' :=
    free_of_forall (fun c hc => hin c (List.mem_append_left _ hc)) hatU
  have hfreeH : Free ['/', '?', '#', '@'] (host ++ ':' :: port) :=
    free_of_forall (fun c hc => hin c (List.mem_append_right _ (List.mem_cons_of_mem _ hc))) hatH
  rcases cut_cases hwhole hatU with ⟨rfl, hrest⟩ | ⟨zs, hzs⟩
  · refine ⟨⟨hfreeU, huser⟩, ?_⟩
    rw [List.append_assoc, List.cons_append] at hrest
    have hdecode : percentDecode host = some H := by
      rw [decode_eq_some_iff, String.toList_ofList] at hserver
      exact hserver
    have hmark : '?' ∉ host := fun hc => hfreeH '?' (by decide) (List.mem_append_left _ hc)
    cases host_of_address hrest hmark hdecode
    exact ⟨fun c hc hmem => hfreeH c hc (List.mem_append_left _ hmem), hisHost,
      percentDecode_self_iff.mp hdecode⟩
  · exfalso
    rcases hU with hfree | hraw
    · refine hfree '@' (by decide) ?_
      rw [hzs]
      exact List.mem_append_right _ List.mem_cons_self
    · have hprefix : U' <+: user.toList := ⟨'@' :: zs, by rw [← hraw, hzs]⟩
      have heq := eq_of_percentDecode (decode_eq_some_iff.mp huser) hprefix
      have hlength := congrArg List.length (hraw.symm.trans hzs)
      rw [heq, List.length_append, List.length_cons] at hlength
      omega

end Authority

/-! ### The query -/

/-- A parameter of a query: what it means, and the text its value is written as. -/
structure Piece where
  key : String
  value : String
  text : List Char

namespace Piece

def pair (p : Piece) : String × String := (p.key, p.value)

def chars (p : Piece) : List Char := p.key.toList ++ '=' :: p.text

/-- The key is plain; the value is written as it is, if not free of delimiters. -/
structure Ok (p : Piece) : Prop where
  key : Free ['=', '&', '#'] p.key.toList
  plain : hasEscape p.key.toList = false
  text : Free ['&', '#'] p.text ∨ p.text = p.value.toList

def Reads (p : Piece) : Prop := Free ['&', '#'] p.text ∧ decode p.text = some p.value

end Piece

def queryText (ps : List Piece) : List Char := ['&'].intercalate (ps.map Piece.chars)

/-- Whether a character belongs to a parameter. -/
def inPiece (c : Char) : Bool := c ≠ '&' ∧ c ≠ '#'

theorem inPiece_iff {c : Char} : inPiece c = true ↔ c ∉ ['&', '#'] := by
  simp [inPiece]

theorem inPiece_of_free {cs : List Char} (h : Free ['&', '#'] cs) : ∀ c ∈ cs, inPiece c = true :=
  fun c hc => inPiece_iff.mpr fun hstop => h c hstop hc

theorem Piece.Ok.inPiece {p : Piece} (h : p.Ok) :
    ∀ c ∈ p.key.toList ++ ['='], Uri.inPiece c = true := by
  intro c hc
  rcases List.mem_append.mp hc with hc | hc
  · exact inPiece_of_free (fun c' hstop => h.key c' (List.mem_cons_of_mem _ hstop)) c hc
  · cases List.mem_singleton.mp hc
    rfl

section Query

variable {p : Piece} {ps : List Piece} {cs rest : List Char}

theorem pair_key (hp : p.Ok) (value : List Char) :
    pair (p.key.toList ++ '=' :: value) = (decode value).map fun v => (p.key, v) := by
  have hkey : decode p.key.toList = some p.key :=
    decode_eq_some_iff.mpr (percentDecode_self_iff.mpr hp.plain)
  rw [pair, cut_eq_some_iff.mpr ⟨rfl, hp.key '=' (by decide)⟩]
  simp only [Option.getD_some]
  rw [hkey, Option.bind_some]

/-- The first parameter of a query. -/
theorem pair_of_pairs {qs : List (String × String)}
    (h : pairs (cs.takeWhile (· ≠ '#')) = some qs) :
    ∃ kv kvs, qs = kv :: kvs ∧ pair (cs.takeWhile inPiece) = some kv := by
  have hfirst : (cs.takeWhile (· ≠ '#')).takeWhile (· ≠ '&') = cs.takeWhile inPiece := by
    rw [List.takeWhile_takeWhile]
    refine congrArg (List.takeWhile · cs) (funext fun c => ?_)
    simp [inPiece]
  obtain ⟨pieces, hpieces⟩ : ∃ pieces, (cs.takeWhile (· ≠ '#')).splitOn '&' =
      (cs.takeWhile (· ≠ '#')).takeWhile (· ≠ '&') :: pieces := by
    cases hcut : cut '&' (cs.takeWhile (· ≠ '#')) with
    | none =>
      have hfree := cut_eq_none_iff.mp hcut
      refine ⟨[], ?_⟩
      rw [List.splitOn_eq_singleton hfree, List.takeWhile_eq_self_iff.mpr (ne_of_not_mem hfree)]
    | some parts =>
      obtain ⟨heq, hfree⟩ := cut_eq_some_iff.mp
        (show cut '&' (cs.takeWhile (· ≠ '#')) = some (parts.1, parts.2) from hcut)
      rw [heq, List.splitOn_append_cons_self_of_not_mem hfree,
        takeWhile_append_stop (ne_of_not_mem hfree) rfl]
      exact ⟨_, rfl⟩
  rw [pairs, hpieces, hfirst, List.mapM_cons] at h
  simp only [bind, Option.bind_eq_some_iff] at h
  obtain ⟨kv, hkv, kvs, -, heq⟩ := h
  exact ⟨kv, kvs, (Option.some.inj heq).symm, hkv⟩

/-- The first parameter ends at the first delimiter. -/
theorem pair_first (hp : p.Ok) {c : Char} (hc : inPiece c = false) :
    pair ((p.chars ++ c :: rest).takeWhile inPiece) =
      (decode (p.text.takeWhile inPiece)).map fun v => (p.key, v) := by
  have hshape : p.chars ++ c :: rest = (p.key.toList ++ ['=']) ++ (p.text ++ c :: rest) := by
    simp [Piece.chars]
  have hstop : (p.chars ++ c :: rest).takeWhile inPiece =
      p.key.toList ++ '=' :: p.text.takeWhile inPiece := by
    rw [hshape, List.takeWhile_append_of_pos hp.inPiece, takeWhile_before_stop hc]
    simp
  rw [hstop, pair_key hp]

/-- A value is read from the beginning of its text only if this is the whole text. -/
theorem reads_of_value (hp : p.Ok) (h : decode (p.text.takeWhile inPiece) = some p.value) :
    p.Reads := by
  have hwhole : p.text.takeWhile inPiece = p.text := by
    rcases hp.text with hfree | hraw
    · exact List.takeWhile_eq_self_iff.mpr (inPiece_of_free hfree)
    · refine (eq_of_percentDecode (decode_eq_some_iff.mp h) ?_).trans hraw.symm
      rw [← hraw]
      exact List.takeWhile_prefix _
  rw [hwhole] at h
  refine ⟨fun c hstop hmem => ?_, h⟩
  exact inPiece_iff.mp (List.takeWhile_eq_self_iff.mp hwhole c hmem) hstop

theorem queryText_singleton : queryText [p] = p.chars := List.intercalate_singleton

theorem queryText_cons_cons (q : Piece) :
    queryText (p :: q :: ps) = p.chars ++ '&' :: queryText (q :: ps) := by
  rw [queryText, List.map_cons, List.map_cons, List.intercalate_cons_cons, List.append_assoc]
  rfl

/-- What follows the first parameter is a delimiter. -/
theorem queryText_cons (F : List Char) : ∃ c rest,
    queryText (p :: ps) ++ '#' :: F = p.chars ++ c :: rest ∧ inPiece c = false := by
  cases ps with
  | nil => exact ⟨'#', F, by rw [queryText_singleton], rfl⟩
  | cons q ps =>
    refine ⟨'&', queryText (q :: ps) ++ '#' :: F, ?_, rfl⟩
    rw [queryText_cons_cons, List.append_assoc]
    rfl

theorem Piece.Reads.free (hp : p.Ok) (h : p.Reads) : ∀ c ∈ p.chars, Uri.inPiece c = true := by
  intro c hc
  have hshape : p.chars = (p.key.toList ++ ['=']) ++ p.text := by
    simp [Piece.chars]
  rw [hshape] at hc
  rcases List.mem_append.mp hc with hc | hc
  · exact hp.inPiece c hc
  · exact inPiece_of_free h.1 c hc

theorem Piece.Reads.pair_chars (hp : p.Ok) (h : p.Reads) : Uri.pair p.chars = some p.pair := by
  rw [Piece.chars, pair_key hp, h.2]
  rfl

theorem pairs_singleton (hp : p.Ok) (h : p.Reads) (F : List Char) :
    pairs ((queryText [p] ++ '#' :: F).takeWhile (· ≠ '#')) = some [p.pair] := by
  have hfree := h.free hp
  have hmark := ne_of_not_mem (c := '#') fun hc => inPiece_iff.mp (hfree _ hc) (by decide)
  have hamp : '&' ∉ p.chars := fun hc => inPiece_iff.mp (hfree _ hc) (by decide)
  rw [queryText_singleton, takeWhile_append_stop hmark rfl, pairs, List.splitOn_eq_singleton hamp,
    List.mapM_cons, h.pair_chars hp]
  rfl

theorem pairs_cons_cons (hp : p.Ok) (h : p.Reads) (q : Piece) (F : List Char) :
    pairs ((queryText (p :: q :: ps) ++ '#' :: F).takeWhile (· ≠ '#')) =
      (pairs ((queryText (q :: ps) ++ '#' :: F).takeWhile (· ≠ '#'))).map (p.pair :: ·) := by
  have hfree := h.free hp
  have hmark := ne_of_not_mem (c := '#') fun hc => inPiece_iff.mp (hfree _ hc) (by decide)
  have hamp : '&' ∉ p.chars := fun hc => inPiece_iff.mp (hfree _ hc) (by decide)
  have hsplit : (queryText (p :: q :: ps) ++ '#' :: F).takeWhile (· ≠ '#') =
      p.chars ++ '&' :: (queryText (q :: ps) ++ '#' :: F).takeWhile (· ≠ '#') := by
    rw [queryText_cons_cons, List.append_assoc, List.takeWhile_append_of_pos hmark,
      List.cons_append, List.takeWhile_cons_of_pos (by decide)]
  rw [hsplit, pairs, List.splitOn_append_cons_self_of_not_mem hamp, List.mapM_cons,
    h.pair_chars hp, pairs]
  cases ((queryText (q :: ps) ++ '#' :: F).takeWhile (· ≠ '#')).splitOn '&' |>.mapM pair with
  | none => rfl
  | some kvs => rfl

/-- The value of the first parameter, up to the first delimiter. -/
theorem pairs_head (hp : p.Ok) {F : List Char} {qs : List (String × String)}
    (h : pairs ((queryText (p :: ps) ++ '#' :: F).takeWhile (· ≠ '#')) = some qs) :
    ∃ v kvs, qs = (p.key, v) :: kvs ∧ decode (p.text.takeWhile inPiece) = some v := by
  obtain ⟨c, rest, hshape, hc⟩ := @queryText_cons p ps F
  rw [hshape] at h
  obtain ⟨kv, kvs, rfl, hpair⟩ := pair_of_pairs h
  rw [pair_first hp hc, Option.map_eq_some_iff] at hpair
  obtain ⟨v, hv, rfl⟩ := hpair
  exact ⟨v, kvs, rfl, hv⟩

/-- **A query is read back if and only if every value is.** -/
theorem pairs_iff (hps : ∀ p ∈ ps, p.Ok) (hne : ps ≠ []) (F : List Char) :
    pairs ((queryText ps ++ '#' :: F).takeWhile (· ≠ '#')) = some (ps.map Piece.pair) ↔
      ∀ p ∈ ps, p.Reads := by
  induction ps with
  | nil => exact absurd rfl hne
  | cons p ps ih =>
    have hp := hps p List.mem_cons_self
    -- the first parameter is read, or the query is not read back
    by_cases hreads : p.Reads
    · cases ps with
      | nil =>
        rw [pairs_singleton hp hreads]
        simpa using hreads
      | cons q ps =>
        rw [pairs_cons_cons hp hreads, List.map_cons, List.forall_mem_cons, and_iff_right hreads,
          ← ih (fun q' hq => hps q' (List.mem_cons_of_mem _ hq)) (List.cons_ne_nil q ps),
          Option.map_eq_some_iff]
        constructor
        · rintro ⟨kvs, hkvs, heq⟩
          rw [hkvs, List.cons.inj heq |>.2]
        · exact fun h => ⟨_, h, rfl⟩
    · constructor
      · intro h
        obtain ⟨v, kvs, heq, hv⟩ := pairs_head hp h
        cases heq
        exact absurd (reads_of_value hp hv) hreads
      · intro h
        exact absurd (h p List.mem_cons_self) hreads

/-- A query that is read as it should be, key by key: what is found under a key and is
what the beginning of its text stands for is the value. -/
theorem reads_of_lookup (hps : ∀ p ∈ ps, p.Ok) (hkeys : (ps.map Piece.key).Nodup) {F : List Char}
    {qs : List (String × String)}
    (h : pairs ((queryText ps ++ '#' :: F).takeWhile (· ≠ '#')) = some qs)
    (hvalue : ∀ p ∈ ps, ∀ v, qs.lookup p.key = some v →
      decode (p.text.takeWhile inPiece) = some v → v = p.value) : ∀ p ∈ ps, p.Reads := by
  induction ps generalizing qs with
  | nil => exact List.forall_mem_nil _
  | cons p ps ih =>
    have hp := hps p List.mem_cons_self
    obtain ⟨hfresh, hnodup⟩ := List.nodup_cons.mp hkeys
    obtain ⟨v, kvs, rfl, hv⟩ := pairs_head hp h
    have hsame := hvalue p List.mem_cons_self v List.lookup_cons_self hv
    have hreads := reads_of_value hp (hsame ▸ hv)
    refine List.forall_mem_cons.mpr ⟨hreads, ?_⟩
    cases ps with
    | nil => exact List.forall_mem_nil _
    | cons q ps =>
      rw [pairs_cons_cons hp hreads, Option.map_eq_some_iff] at h
      obtain ⟨kvs', hkvs, heq⟩ := h
      cases (List.cons.inj heq).2
      refine ih (fun q' hq => hps q' (List.mem_cons_of_mem _ hq)) hnodup hkvs ?_
      intro q' hq w hw hdecode
      refine hvalue q' (List.mem_cons_of_mem _ hq) w ?_ hdecode
      have hne : q'.key ≠ p.key := fun heq => hfresh (heq ▸ List.mem_map_of_mem hq)
      rw [List.lookup_cons, beq_eq_false_iff_ne.mpr hne]
      exact hw

theorem mem_queryText_iff {c : Char} (hamp : c ≠ '&') :
    c ∈ queryText ps ↔ ∃ p ∈ ps, c ∈ p.chars := by
  induction ps with
  | nil => simp [queryText]
  | cons p ps ih =>
    cases ps with
    | nil => simp [queryText_singleton]
    | cons q ps =>
      rw [queryText_cons_cons, List.mem_append, List.mem_cons, ih, or_iff_right hamp]
      simp [or_and_right, exists_or]

end Query

/-! ### Form-encoded components -/

/-- A form-encoded blank is read as a plus sign. -/
def plusByte (b : UInt8) : UInt8 := if b = 0x20 then 0x2B else b

def plusChar (c : Char) : Char := if c = ' ' then '+' else c

theorem ne_blank_of_range {n : Nat} (hlo : 128 ≤ n) (hhi : n < 256) : UInt8.ofNat n ≠ 0x20 := by
  intro heq
  have hnat := congrArg UInt8.toNat heq
  rw [UInt8.toNat_ofNat', Nat.mod_eq_of_lt hhi] at hnat
  have hblank : (0x20 : UInt8).toNat = 32 := rfl
  omega

/-- A blank is the only character with the byte of a blank. -/
theorem ne_blank_of_mem {c : Char} (hc : c ≠ ' ') : ∀ b ∈ String.utf8EncodeChar c, b ≠ 0x20 := by
  simp only [String.utf8EncodeChar]
  split
  · rename_i hsmall
    rw [List.forall_mem_singleton]
    intro heq
    have hnat := congrArg UInt8.toNat heq
    rw [UInt8.toNat_ofNat', Nat.mod_eq_of_lt (by omega)] at hnat
    exact hc (Char.ext (UInt32.toNat_inj.mp hnat))
  · split
    · simp only [List.forall_mem_cons]
      exact ⟨ne_blank_of_range (by omega) (by omega), ne_blank_of_range (by omega) (by omega),
        List.forall_mem_nil _⟩
    · split
      · simp only [List.forall_mem_cons]
        exact ⟨ne_blank_of_range (by omega) (by omega), ne_blank_of_range (by omega) (by omega),
          ne_blank_of_range (by omega) (by omega), List.forall_mem_nil _⟩
      · simp only [List.forall_mem_cons]
        exact ⟨ne_blank_of_range (by omega) (by omega), ne_blank_of_range (by omega) (by omega),
          ne_blank_of_range (by omega) (by omega), ne_blank_of_range (by omega) (by omega),
          List.forall_mem_nil _⟩

theorem map_plusByte (c : Char) :
    (String.utf8EncodeChar c).map plusByte = String.utf8EncodeChar (plusChar c) := by
  by_cases hc : c = ' '
  · rw [hc]
    rfl
  · have hplain : ∀ b ∈ String.utf8EncodeChar c, plusByte b = b := fun b hb =>
      if_neg (ne_blank_of_mem hc b hb)
    rw [plusChar, if_neg hc, List.map_congr_left hplain, List.map_id']

theorem hexDigit_upperHexDigit : ∀ n < 16, hexDigit (Text.upperHexDigit n) = some n := by decide

theorem lt_of_isAlphanum {c : Char} (h : c.isAlphanum = true) : c.toNat < 128 := by
  have hle : ∀ hi : UInt32, hi.toNat < 128 → c.val ≤ hi → c.toNat < 128 := fun hi hhi hc =>
    Nat.lt_of_le_of_lt (UInt32.le_iff_toNat_le.mp hc) hhi
  rcases (Bool.or_eq_true _ _).mp h with hletter | hdigit
  · rcases (Bool.or_eq_true _ _).mp hletter with hupper | hlower
    · exact hle 90 (by decide) (of_decide_eq_true hupper).2
    · exact hle 122 (by decide) (of_decide_eq_true ((Bool.and_eq_true _ _).mp hlower).2)
  · exact hle 57 (by decide) (of_decide_eq_true ((Bool.and_eq_true _ _).mp hdigit).2)

/-- The characters that form-encoding leaves as they are. -/
theorem lt_of_unreserved {c : Char}
    (h : (c.isAlphanum || c = '*' || c = '-' || c = '.' || c = '_') = true) : c.toNat < 128 := by
  simp only [Bool.or_eq_true, decide_eq_true_eq] at h
  rcases h with (((h | rfl) | rfl) | rfl) | rfl
  · exact lt_of_isAlphanum h
  · decide
  · decide
  · decide
  · decide

theorem utf8EncodeChar_of_lt {c : Char} (h : c.toNat < 128) :
    String.utf8EncodeChar c = [UInt8.ofNat c.toNat] := by
  rw [String.utf8EncodeChar]
  exact if_pos (Nat.le_of_lt_succ h)

theorem percentBytes_cons {c : Char} (hc : c ≠ '%') (cs : List Char) :
    percentBytes (c :: cs) = String.utf8EncodeChar c ++ percentBytes cs := by
  rw [percentBytes]
  rintro x y rest rfl
  exact absurd rfl hc

theorem percentBytes_formEncodeByte (b : UInt8) (cs : List Char) :
    percentBytes (Text.formEncodeByte b ++ cs) = plusByte b :: percentBytes cs := by
  have hlt : b.toNat < 256 := UInt8.toNat_lt b
  have hbyte : (Char.ofNat b.toNat).toNat = b.toNat := Text.toNat_ofNat_byte _ hlt
  simp only [Text.formEncodeByte]
  split
  · rename_i hplain
    have hpercent : Char.ofNat b.toNat ≠ '%' := by
      intro heq
      rw [heq] at hplain
      exact absurd hplain (by decide)
    have hblank : b ≠ 0x20 := by
      rintro rfl
      exact absurd hplain (by decide)
    rw [List.singleton_append, percentBytes_cons hpercent,
      utf8EncodeChar_of_lt (lt_of_unreserved hplain), hbyte, UInt8.ofNat_toNat, plusByte,
      if_neg hblank, List.singleton_append]
  · split
    · rename_i hblank
      have hb : b = 0x20 := by
        rw [hblank] at hbyte
        exact UInt8.toNat_inj.mp hbyte.symm
      rw [hb, List.singleton_append, percentBytes_cons (by decide)]
      rfl
    · rename_i hblank
      have hb : b ≠ 0x20 := by
        rintro rfl
        exact hblank rfl
      rw [List.cons_append, List.cons_append, List.singleton_append, percentBytes, escaped,
        hexDigit_upperHexDigit _ (by omega), hexDigit_upperHexDigit _ (by omega)]
      simp only [Option.bind_some, Option.map_some]
      rw [Nat.div_add_mod, UInt8.ofNat_toNat, plusByte, if_neg hb]

theorem percentBytes_flatMap (bs : List UInt8) :
    percentBytes (bs.flatMap Text.formEncodeByte) = bs.map plusByte := by
  induction bs with
  | nil => rfl
  | cons b bs ih => rw [List.flatMap_cons, percentBytes_formEncodeByte, ih, List.map_cons]

theorem utf8_plus (cs : List Char) : (Text.utf8 cs).map plusByte = Text.utf8 (cs.map plusChar) := by
  induction cs with
  | nil => rfl
  | cons c cs ih =>
    rw [Text.utf8, List.flatMap_cons, List.map_append, map_plusByte]
    exact congrArg _ ih

/-- What a form-encoded text reads as. -/
theorem decode_formEncode (s : String) :
    decode (Text.formEncode s).toList = some (String.ofList (s.toList.map plusChar)) := by
  have hbytes : percentBytes (Text.formEncode s).toList =
      Text.utf8 (s.toList.map plusChar) := by
    rw [Text.formEncode, String.toList_ofList, percentBytes_flatMap, ← utf8_plus]
    rfl
  rw [decode_eq_some_iff, percentDecode, hbytes, Text.ofUtf8_utf8, String.toList_ofList]

/-- **A form-encoded text reads as the text if and only if it has no blank.** -/
theorem decode_formEncode_iff {s : String} :
    decode (Text.formEncode s).toList = some s ↔ ' ' ∉ s.toList := by
  rw [decode_formEncode, Option.some.injEq, ← String.toList_inj, String.toList_ofList]
  constructor
  · intro h hmem
    have hsame := List.map_inj_left.mp (h.trans (List.map_id s.toList).symm) ' ' hmem
    exact absurd hsame (by decide)
  · intro h
    refine (List.map_congr_left fun c hc => ?_).trans (List.map_id s.toList)
    refine if_neg ?_
    rintro rfl
    exact h hc

/-- The characters of a form-encoded text. -/
def isEncoded (c : Char) : Bool :=
  c.isAlphanum || c = '*' || c = '-' || c = '.' || c = '_' || c = '+' || c = '%'

theorem isEncoded_of_mem {s : String} {c : Char} (h : c ∈ (Text.formEncode s).toList) :
    isEncoded c = true := by
  rw [Text.formEncode, String.toList_ofList, List.mem_flatMap] at h
  obtain ⟨b, -, hc⟩ := h
  have hlt : b.toNat < 256 := UInt8.toNat_lt b
  have hhex : ∀ n < 16, isEncoded (Text.upperHexDigit n) = true := by decide
  simp only [Text.formEncodeByte] at hc
  split at hc
  · rename_i hplain
    rw [List.mem_singleton.mp hc, isEncoded, hplain]
    rfl
  · split at hc
    · rw [List.mem_singleton.mp hc]
      rfl
    · simp only [List.mem_cons, List.not_mem_nil, or_false] at hc
      rcases hc with rfl | rfl | rfl
      · rfl
      · exact hhex _ (by omega)
      · exact hhex _ (by omega)

theorem free_formEncode {stops : List Char} (h : stops.all (!isEncoded ·) = true) (s : String) :
    Free stops (Text.formEncode s).toList := by
  intro c hc hmem
  have hstop := List.all_eq_true.mp h c hc
  rw [isEncoded_of_mem hmem] at hstop
  cases hstop

/-! ### Composed URIs -/

/-- What a URI is composed of: the components, and the texts of those that are encoded. -/
structure Composed where
  scheme : String
  user : String
  userText : List Char
  host : String
  port : Nat
  pieces : List Piece
  name : String
  nameText : List Char

namespace Composed

def text (u : Composed) : String :=
  String.ofList (u.scheme.toList ++ ':' :: '/' :: '/' :: (u.userText ++
    '@' :: address u.host.toList u.port (queryText u.pieces ++ '#' :: u.nameText)))

def components (u : Composed) : Components :=
  ⟨u.scheme, u.user, u.host, u.port, u.pieces.map Piece.pair, u.name⟩

structure Ok (u : Composed) : Prop where
  scheme : ':' ∉ u.scheme.toList
  user : Free ['/', '?', '#', '@'] u.userText ∨ u.userText = u.user.toList
  pieces : ∀ p ∈ u.pieces, p.Ok
  nonempty : u.pieces ≠ []
  name : decode u.nameText = some u.name

/-- Every component stands for what it means. -/
structure Reads (u : Composed) : Prop where
  free : Free ['/', '?', '#', '@'] u.userText
  user : decode u.userText = some u.user
  host : HostReads u.host.toList
  pieces : ∀ p ∈ u.pieces, p.Reads

variable {u : Composed}

theorem parse_text (h : u.Ok) : parse u.text =
    (authority ((u.userText ++ '@' :: address u.host.toList u.port
      (queryText u.pieces ++ '#' :: u.nameText)).takeWhile inAuthority)).bind
      fun (userinfo, host, port) =>
        (query ((u.userText ++ '@' :: address u.host.toList u.port
          (queryText u.pieces ++ '#' :: u.nameText)).dropWhile inAuthority)).bind fun query =>
          (fragment ((u.userText ++ '@' :: address u.host.toList u.port
            (queryText u.pieces ++ '#' :: u.nameText)).dropWhile inAuthority)).map fun fragment =>
              ⟨u.scheme, userinfo, host, port, query, fragment⟩ := by
  rw [parse, text, String.toList_ofList, cut_eq_some_iff.mpr ⟨rfl, h.scheme⟩]
  simp only
  rw [String.ofList_toList]

theorem fragment_reads (h : u.Ok) (hreads : u.Reads) :
    fragment ('?' :: (queryText u.pieces ++ '#' :: u.nameText)) = some u.name := by
  have hfree : '#' ∉ '?' :: queryText u.pieces := by
    intro hc
    rcases List.mem_cons.mp hc with hc | hc
    · exact absurd hc (by decide)
    · obtain ⟨p, hp, hc⟩ := (mem_queryText_iff (by decide)).mp hc
      exact inPiece_iff.mp ((hreads.pieces p hp).free (h.pieces p hp) _ hc) (by decide)
  rw [fragment, ← List.cons_append, cut_eq_some_iff.mpr ⟨rfl, hfree⟩]
  exact h.name

/-- What is read of a composed URI, when user, host and port are right. -/
theorem reads_of_parse (h : u.Ok) (hkeys : (u.pieces.map Piece.key).Nodup) {c : Components}
    (hparse : parse u.text = some c) (huser : c.userinfo = u.user) (hhost : c.host = u.host)
    (hport : c.port = u.port) (hvalue : ∀ p ∈ u.pieces, ∀ v, c.query.lookup p.key = some v →
      decode (p.text.takeWhile inPiece) = some v → v = p.value) : u.Reads := by
  rw [parse_text h] at hparse
  simp only [Option.bind_eq_some_iff, Option.map_eq_some_iff] at hparse
  obtain ⟨⟨user, host, port⟩, hauthority, qs, hquery, name, -, rfl⟩ := hparse
  cases huser
  cases hport
  rw [show host = String.ofList u.host.toList from hhost.trans String.ofList_toList.symm]
    at hauthority
  obtain ⟨⟨hfree, huser⟩, hhost⟩ := free_of_authority h.user hauthority
  rw [(authority_of_free hfree hhost.free).2] at hquery
  exact ⟨hfree, huser, hhost, reads_of_lookup h.pieces hkeys hquery hvalue⟩

/-- **A composed URI is read back if and only if every component stands for what it
means.** -/
theorem parse_iff (h : u.Ok) : parse u.text = some u.components ↔ u.Reads := by
  rw [parse_text h]
  constructor
  · intro hparse
    simp only [Option.bind_eq_some_iff, Option.map_eq_some_iff] at hparse
    obtain ⟨⟨user, host, port⟩, hauthority, qs, hquery, name, -, hcomponents⟩ := hparse
    cases hcomponents
    obtain ⟨⟨hfree, huser⟩, hhost⟩ :=
      free_of_authority h.user (by rw [String.ofList_toList]; exact hauthority)
    rw [(authority_of_free hfree hhost.free).2] at hquery
    exact ⟨hfree, huser, hhost, (pairs_iff h.pieces h.nonempty _).mp hquery⟩
  · intro hreads
    obtain ⟨htake, hdrop⟩ := @authority_of_free u.userText u.host.toList
      (queryText u.pieces ++ '#' :: u.nameText) u.port hreads.free hreads.host.free
    have hquery : query ('?' :: (queryText u.pieces ++ '#' :: u.nameText)) =
        some (u.pieces.map Piece.pair) := (pairs_iff h.pieces h.nonempty _).mpr hreads.pieces
    rw [htake, hdrop, authority_reads hreads.free hreads.user hreads.host, Option.bind_some]
    simp only
    rw [hquery, fragment_reads h hreads, String.ofList_toList]
    rfl

end Composed

end ProxyPanel.Uri
