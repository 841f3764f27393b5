import ProxyPanel.Common.Protocol
import ProxyPanel.Common.SettingsHelper

/-!
# What the configuration builders share

Both builders turn a list of inbounds into JSON with the same loop: an inbound
whose builder fails is left out when its protocol needs a certificate and the
error speaks of TLS, and is an error of the whole configuration otherwise.
`buildInbounds` is that loop and `buildInbounds_ok` says what it emits.
-/

namespace ProxyPanel

/-- The environment variables the builders read; an unset one is `none`. -/
structure Env where
  singboxApiListen : Option String := none
  singboxHttpApiListen : Option String := none
  singboxClashApiListen : Option String := none
  singboxApiSecret : Option String := none
  mihomoApiListen : Option String := none
  mihomoApiSecret : Option String := none

/-- An inbound as the builders receive it. -/
structure InboundConfig where
  tag : String
  protocol : ProtocolType
  listen : String
  port : Nat
  settings : Json
  tls : Option Json
  coreVersion : Option String

namespace Builder

open Json

/-- The string under a key, or a default. -/
def strOr (j : Json) (k default : String) : Json := str ((j.getStr k).getD default)

/-- The unsigned integer under a key, or a default. -/
def u64Or (j : Json) (k : String) (default : Nat) : Json := num ((j.getU64 k).getD default)

/-- An array of strings. -/
def strs (ss : List String) : Json := arr (ss.map str)

def buildInbounds (build : InboundConfig → PanelResult Json) (needsTls : ProtocolType → Bool) :
    List InboundConfig → PanelResult (List Json)
  | [] => .ok []
  | ib :: ibs =>
    match build ib with
    | .ok value => do return value :: (← buildInbounds build needsTls ibs)
    | .error e =>
      if needsTls ib.protocol && Text.contains e.toStr "TLS" then buildInbounds build needsTls ibs
      else .error e

/-- **What the loop emits.**  In order, the inbounds whose builder succeeded. -/
theorem buildInbounds_ok {build : InboundConfig → PanelResult Json} {needsTls : ProtocolType → Bool}
    {ibs : List InboundConfig} {values : List Json}
    (h : buildInbounds build needsTls ibs = .ok values) :
    values = ibs.filterMap (fun ib => (build ib).toOption) := by
  induction ibs generalizing values with
  | nil => cases h; rfl
  | cons ib ibs ih =>
    rw [buildInbounds] at h
    cases hb : build ib with
    | ok value =>
      simp only [hb] at h
      cases hrest : buildInbounds build needsTls ibs with
      | error e => rw [hrest] at h; cases h
      | ok rest =>
        rw [hrest] at h
        cases h
        simp [hb, Except.toOption, ih hrest]
    | error e =>
      simp only [hb] at h
      split at h
      · rw [ih h]
        simp [hb, Except.toOption]
      · cases h

/-- An error that is not left out fails the whole. -/
theorem buildInbounds_error_skipped {build : InboundConfig → PanelResult Json}
    {needsTls : ProtocolType → Bool} {ibs : List InboundConfig} {values : List Json}
    (h : buildInbounds build needsTls ibs = .ok values) {ib : InboundConfig} (hib : ib ∈ ibs)
    {e : PanelError} (he : build ib = .error e) :
    needsTls ib.protocol = true ∧ Text.contains e.toStr "TLS" = true := by
  induction ibs generalizing values with
  | nil => cases hib
  | cons jb ibs ih =>
    rw [buildInbounds] at h
    rcases List.mem_cons.mp hib with rfl | hib
    · simp only [he] at h
      split at h
      · rename_i hskip; simpa using hskip
      · cases h
    · cases hb : build jb with
      | ok value =>
        simp only [hb] at h
        cases hrest : buildInbounds build needsTls ibs with
        | error e => rw [hrest] at h; cases h
        | ok rest => exact ih hrest hib
      | error e' =>
        simp only [hb] at h
        split at h
        · exact ih h hib
        · cases h

/-- The loop succeeds when every error may be left out. -/
theorem exists_buildInbounds_iff {build : InboundConfig → PanelResult Json}
    {needsTls : ProtocolType → Bool} {ibs : List InboundConfig} :
    (∃ values, buildInbounds build needsTls ibs = .ok values) ↔ ∀ ib ∈ ibs, ∀ e, build ib = .error e →
      needsTls ib.protocol = true ∧ Text.contains e.toStr "TLS" = true := by
  constructor
  · rintro ⟨values, h⟩ ib hib e he
    exact buildInbounds_error_skipped h hib he
  · intro h
    induction ibs with
    | nil => exact ⟨[], rfl⟩
    | cons ib ibs ih =>
      obtain ⟨values, hvalues⟩ := ih fun jb hjb => h jb (List.mem_cons_of_mem ib hjb)
      rw [buildInbounds]
      cases hb : build ib with
      | ok value => exact ⟨value :: values, by simp only [hvalues]; rfl⟩
      | error e =>
        obtain ⟨hneeds, htext⟩ := h ib List.mem_cons_self e hb
        exact ⟨values, by simp only [hneeds, htext, Bool.and_self, if_true, hvalues]⟩

/-! ### What an inbound accepts -/

/-- The credential of one user object. -/
def userCredential (user : Json) : Option String := user.getStrAny ["uuid", "password"]

/-- The credentials an emitted inbound accepts: its users are an array of
objects, or a map from names to passwords. -/
def credentials (inbound : Json) : List String :=
  match inbound.get "users" with
  | some (arr users) => users.filterMap userCredential
  | some (obj entries) => entries.filterMap (fun e => e.2.asStr)
  | _ => []

/-- The credentials the settings hold: one for each element of `clients`, under
the first of `keys`, or else the placeholder unless it is empty. -/
def settingsCredentials (keys : List String) (placeholder : String) (settings : Json) :
    List String :=
  match settings.getArr "clients" with
  | some clients => clients.map (fun c => (c.getStrAny keys).getD "")
  | none =>
    let credential := (settings.getStr placeholder).getD ""
    if credential = "" then [] else [credential]

theorem settingsCredentials_congr {keys : List String} {placeholder : String} {s t : Json}
    (hclients : s.get "clients" = t.get "clients") (hplace : s.get placeholder = t.get placeholder) :
    settingsCredentials keys placeholder s = settingsCredentials keys placeholder t := by
  rw [settingsCredentials, settingsCredentials, getArr, getArr, getStr, getStr, hclients, hplace]

theorem settingsCredentials_eq_nil_iff {keys : List String} {placeholder : String}
    {settings : Json} : settingsCredentials keys placeholder settings = [] ↔
      match settings.getArr "clients" with
      | some clients => clients = []
      | none => (settings.getStr placeholder).getD "" = "" := by
  rw [settingsCredentials]
  cases settings.getArr "clients" with
  | some clients => simp
  | none => simp only; split <;> simp_all

theorem userCredential_setIndex {user : Json} (hu : user.isObject = true) {k : String}
    (h : k ∉ ["uuid", "password"]) (x : Json) :
    userCredential (user.setIndex k x) = userCredential user := by
  rw [setIndex_of_isObject hu]
  exact getStrAny_set_of_not_mem user h x

theorem credentials_congr {v w : Json} (h : v.get "users" = w.get "users") :
    credentials v = credentials w := by
  rw [credentials, credentials, h]

theorem credentials_setIndex {v : Json} (hv : v.isObject = true) {k : String} (h : k ≠ "users")
    (x : Json) : credentials (v.setIndex k x) = credentials v := by
  refine credentials_congr ?_
  rw [setIndex_of_isObject hv, get_set_of_ne v (Ne.symm h)]

/-- `w` is an object that accepts what `v` accepts. -/
def SameUsers (v w : Json) : Prop := w.isObject = true ∧ credentials w = credentials v

theorem SameUsers.setIndex {v w : Json} (h : SameUsers v w) {k : String} (hk : k ≠ "users")
    (x : Json) : SameUsers v (w.setIndex k x) :=
  ⟨isObject_setIndex h.1 k x, (credentials_setIndex h.1 hk x).trans h.2⟩

end Builder

end ProxyPanel
