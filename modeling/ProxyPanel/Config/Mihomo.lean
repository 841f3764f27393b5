import Mathlib.Data.List.Nodup
import ProxyPanel.Lib.Query
import ProxyPanel.Config.Builder

/-!
# The mihomo configuration builder

VLESS users are an array, the users of the password protocols a map from names
to passwords: of two clients with one name the later one stays.  `passwordKeys`
is the rule that names the entries of that map, and `mem_credentials_…` says
which credentials survive it.
-/

namespace ProxyPanel.Mihomo

open Json Builder

def apiListen (env : Env) : String := env.mihomoApiListen.getD "127.0.0.1:9093"

/-- The fields every listener starts with.  The port is a string. -/
def listenerBase (settings : Json) (defaultName : String) : Json :=
  mkObj [("name", strOr settings "tag" defaultName), ("listen", strOr settings "listen" "0.0.0.0"),
    ("port", str (toString ((settings.getU64 "port").getD 443)))]

def commaList (value : Option String) : List String := Text.commaPieces (value.getD "")

/-! ### Users -/

/-- A VLESS user; `flow` is that of REALITY only. -/
def buildUser (withFlow : Bool) (defaultFlow uuid name flow : String) : Json :=
  let user := mkObj [("username", str name), ("uuid", str uuid)]
  let effectiveFlow := if flow = "" then defaultFlow else flow
  if withFlow ∧ effectiveFlow ≠ "" then user.setIndex "flow" (str effectiveFlow) else user

def vlessUsers (settings : Json) (withFlow : Bool) : List Json :=
  let defaultFlow := if withFlow then (settings.getStrAny ["flow"]).getD "" else ""
  match settings.getArr "clients" with
  | some clients => clients.map fun c =>
    buildUser withFlow defaultFlow ((c.getStrAny ["id", "uuid"]).getD "")
      ((c.getStrAny ["email", "name"]).getD "") ((c.getStrAny ["flow"]).getD "")
  | none =>
    let uuid := (settings.getStrAny ["uuid"]).getD ""
    if uuid = "" then [] else [buildUser withFlow defaultFlow uuid "" ""]

/-- The map entry of one client.  A client without a name is numbered. -/
def addPasswordUser (map : List (String × Json)) (c : Json) : List (String × Json) :=
  let password := (c.getStrAny ["password"]).getD ""
  if password = "" then map
  else
    let name := (c.getStrAny ["name", "email"]).getD ""
    let key := if name = "" then "user" ++ toString (map.length + 1) else name
    insertEntry key (str password) map

def passwordUsers (settings : Json) : List (String × Json) :=
  match settings.getArr "clients" with
  | some clients => clients.foldl addPasswordUser []
  | none =>
    let password := (settings.getStrAny ["password"]).getD ""
    if password = "" then [] else [("default", str password)]

/-! ### Listeners -/

/-- A managed certificate or certificate files; ACME is not accepted. -/
def applyCertTls (listener : Json) (tls : Option Json) : PanelResult Json :=
  match tls with
  | none => .error (.validation "TLS configuration is required")
  | some tls =>
    let managed := (tls.getStrAny ["managed_domain"]).getD ""
    let cert := (tls.getStrAny ["certFile"]).getD ""
    let key := (tls.getStrAny ["keyFile"]).getD ""
    if managed ≠ "" then
      .ok ((listener.setIndex "certificate" (str ("certs/" ++ managed ++ ".crt"))).setIndex
        "private-key" (str ("certs/" ++ managed ++ ".key")))
    else if cert ≠ "" ∧ key ≠ "" then
      .ok ((listener.setIndex "certificate" (str cert)).setIndex "private-key" (str key))
    else .error (.validation "mihomo TLS requires a managed certificate or certFile+keyFile")

/-- Name, address, type and users of a listener. -/
def listenerWith (name type : String) (settings users : Json) : Json :=
  ((listenerBase settings name).setIndex "type" (str type)).setIndex "users" users

def realityError : PanelError :=
  .validation "VLESS+REALITY requires reality_dest and reality_private_key"

def buildVlessRealityListener (settings : Json) : PanelResult Json :=
  match (settings.getStrAny ["reality_dest", "dest"]).filter SettingsHelper.nonEmpty,
    (settings.getStrAny ["reality_private_key", "private_key"]).filter SettingsHelper.nonEmpty with
  | some dest, some privateKey =>
    let names := commaList (settings.getStrAny ["reality_server_names", "server_names"])
    let serverNames := if names = [] then
        [match Text.rsplitOnce ':' dest with
          | some (host, _) => host
          | none => dest]
      else names
    let shortIds := commaList (settings.getStrAny ["reality_short_id", "short_id"])
    .ok ((listenerWith "vless-reality-in" "vless" settings (arr (vlessUsers settings true))).setIndex
      "reality-config" (mkObj [("dest", str dest), ("private-key", str privateKey),
        ("server-names", strs serverNames),
        ("short-id", if shortIds = [] then strs [""] else strs shortIds)]))
  | _, _ => .error realityError

def buildVlessXhttpListener (settings : Json) (tls : Option Json) : PanelResult Json := do
  let listener ← applyCertTls
    (listenerWith "vless-xhttp-in" "vless" settings (arr (vlessUsers settings false))) tls
  return listener.setIndex "xhttp-config" (mkObj [
    ("path", str ((settings.getStrAny ["xhttp_path", "path"]).getD "/")),
    ("host", str ((settings.getStrAny ["xhttp_host", "host"]).getD "")),
    ("mode", str ((settings.getStrAny ["xhttp_mode", "mode"]).getD "auto"))])

def buildHysteria2Listener (settings : Json) (tls : Option Json) : PanelResult Json := do
  let listener ← applyCertTls
    (listenerWith "hy2-in" "hysteria2" settings (obj (passwordUsers settings))) tls
  let listener := ((listener.setIndex "alpn" (strs ["h3"])).setIndex
    "up" (str (toString ((settings.getU64 "up_mbps").getD 100)))).setIndex
    "down" (str (toString ((settings.getU64 "down_mbps").getD 100)))
  let obfsType := (settings.getStrAny ["obfs_type"]).getD "none"
  let obfsPassword := (settings.getStrAny ["obfs_password"]).getD ""
  let listener := if obfsType ≠ "none" ∧ obfsPassword ≠ "" then
      (listener.setIndex "obfs" (str obfsType)).setIndex "obfs-password" (str obfsPassword)
    else listener
  return match (settings.getStrAny ["masquerade"]).filter SettingsHelper.nonEmpty with
    | some masquerade => listener.setIndex "masquerade" (str masquerade)
    | none => listener

def buildAnytlsListener (settings : Json) (tls : Option Json) : PanelResult Json :=
  applyCertTls (listenerWith "anytls-in" "anytls" settings (obj (passwordUsers settings))) tls

def buildInbound (protocol : ProtocolType) (settings : Json) (tls : Option Json) :
    PanelResult Json :=
  match protocol with
  | .vlessReality => buildVlessRealityListener settings
  | .vlessXhttp => buildVlessXhttpListener settings tls
  | .hysteria2 => buildHysteria2Listener settings tls
  | .anytls => buildAnytlsListener settings tls

/-- The protocols whose listener may be left out for want of a certificate. -/
def needsTls : ProtocolType → Bool
  | .vlessReality => false
  | _ => true

def buildFullConfig (env : Env) (inbounds : List InboundConfig) : PanelResult Json := do
  let listeners ← buildInbounds (fun ib => buildInbound ib.protocol ib.settings ib.tls) needsTls
    inbounds
  let config := mkObj [("log-level", str "warning"), ("mode", str "rule"), ("allow-lan", bool false),
    ("external-controller", str (apiListen env)), ("listeners", arr listeners),
    ("rules", strs ["MATCH,DIRECT"])]
  let secret := env.mihomoApiSecret.getD ""
  return if secret = "" then config else config.setIndex "secret" (str secret)


/-! ### The users of a listener that is built -/

/-- The keys under which named passwords enter the map; `taken` are the keys that
are already there. -/
def passwordKeys (taken : List String) : List String → List String
  | [] => []
  | name :: names =>
    let key := if name = "" then "user" ++ toString (taken.length + 1) else name
    key :: passwordKeys (if key ∈ taken then taken else key :: taken) names

/-- Names that are not empty are the keys. -/
theorem passwordKeys_of_ne_empty {names : List String} (h : ∀ name ∈ names, name ≠ "")
    (taken : List String) : passwordKeys taken names = names := by
  induction names generalizing taken with
  | nil => rfl
  | cons name names ih =>
    rw [passwordKeys, if_neg (h name List.mem_cons_self)]
    exact congrArg (name :: ·) (ih (fun n hn => h n (List.mem_cons_of_mem name hn)) _)

/-- Name and password of a client that has one. -/
def namedPassword (c : Json) : Option (String × String) :=
  let password := (c.getStrAny ["password"]).getD ""
  if password = "" then none else some ((c.getStrAny ["name", "email"]).getD "", password)

/-- Named passwords with their keys. -/
def keyed {α : Type} (taken : List String) (named : List (String × α)) : List (String × α) :=
  (passwordKeys taken (named.map Prod.fst)).zip (named.map Prod.snd)

theorem length_passwordKeys (taken names : List String) :
    (passwordKeys taken names).length = names.length := by
  induction names generalizing taken with
  | nil => rfl
  | cons name names ih => rw [passwordKeys, List.length_cons, ih, List.length_cons]

theorem map_fst_keyed {α : Type} (taken : List String) (named : List (String × α)) :
    (keyed taken named).map Prod.fst = passwordKeys taken (named.map Prod.fst) :=
  List.map_fst_zip (by simp [length_passwordKeys])

theorem map_snd_keyed {α : Type} (taken : List String) (named : List (String × α)) :
    (keyed taken named).map Prod.snd = named.map Prod.snd :=
  List.map_snd_zip (by simp [length_passwordKeys])

theorem keyed_map {α β : Type} (f : α → β) (taken : List String) (named : List (String × α)) :
    keyed taken (named.map (Prod.map id f)) = (keyed taken named).map (Prod.map id f) := by
  have hfst : (named.map (Prod.map id f)).map Prod.fst = named.map Prod.fst := by
    rw [List.map_map]
    rfl
  have hsnd : (named.map (Prod.map id f)).map Prod.snd = (named.map Prod.snd).map f := by
    rw [List.map_map, List.map_map]
    rfl
  rw [keyed, keyed, hfst, hsnd, List.zip_map_right]

/-- The map is what inserting the named passwords under their keys gives. -/
theorem foldl_addPasswordUser (clients : List Json) {map : List (String × Json)}
    {taken : List String} (hsorted : SortedKeys map) (hlen : taken.length = map.length)
    (hmem : ∀ k, k ∈ taken ↔ k ∈ map.map Prod.fst) :
    clients.foldl addPasswordUser map =
      (keyed taken (clients.filterMap namedPassword)).foldl
        (fun acc e => insertEntry e.1 (str e.2) acc) map := by
  induction clients generalizing map taken with
  | nil => rfl
  | cons c clients ih =>
    rw [List.foldl_cons, List.filterMap_cons]
    by_cases hp : (c.getStrAny ["password"]).getD "" = ""
    · have hadd : addPasswordUser map c = map := by simp [addPasswordUser, hp]
      have hnone : namedPassword c = none := by simp [namedPassword, hp]
      rw [hadd, hnone]
      exact ih hsorted hlen hmem
    · have hsome : namedPassword c = some ((c.getStrAny ["name", "email"]).getD "",
          (c.getStrAny ["password"]).getD "") := by simp [namedPassword, hp]
      rw [hsome]
      generalize hname : (c.getStrAny ["name", "email"]).getD "" = name
      generalize hkey : (if name = "" then "user" ++ toString (taken.length + 1) else name) = key
      have hadd : addPasswordUser map c
          = insertEntry key (str ((c.getStrAny ["password"]).getD "")) map := by
        simp only [addPasswordUser, hp, if_false, hname, ← hlen, hkey]
      have hkeyed : ∀ named : List (String × String), ∀ p, keyed taken ((name, p) :: named)
          = (key, p) :: keyed (if key ∈ taken then taken else key :: taken) named := by
        intro named p
        simp only [keyed, List.map_cons, passwordKeys, hkey, List.zip_cons_cons]
      rw [hadd, hkeyed, List.foldl_cons]
      refine ih (sortedKeys_insertEntry _ _ hsorted) ?_ ?_
      · rw [length_insertEntry _ _ hsorted]
        by_cases hk : key ∈ taken
        · rw [if_pos hk, if_pos ((hmem key).mp hk), hlen]
        · rw [if_neg hk, if_neg (fun h => hk ((hmem key).mpr h)), List.length_cons, hlen]
      · intro k
        have hins : k ∈ (insertEntry key (str ((c.getStrAny ["password"]).getD "")) map).map Prod.fst
            ↔ k = key ∨ k ∈ map.map Prod.fst := by
          simp only [List.mem_map, mem_insertEntry hsorted]
          constructor
          · rintro ⟨e, rfl | ⟨_, he⟩, rfl⟩
            · exact Or.inl rfl
            · exact Or.inr ⟨e, he, rfl⟩
          · rintro (rfl | ⟨e, he, rfl⟩)
            · exact ⟨_, Or.inl rfl, rfl⟩
            · by_cases heq : e.1 = key
              · exact ⟨_, Or.inl rfl, heq.symm⟩
              · exact ⟨e, Or.inr ⟨heq, he⟩, rfl⟩
        rw [hins, ← hmem]
        by_cases hk : key ∈ taken
        · rw [if_pos hk]
          exact ⟨Or.inr, fun h => h.elim (fun heq => heq ▸ hk) id⟩
        · rw [if_neg hk, List.mem_cons]

/-- **The passwords that survive the map**: those whose key no later client takes. -/
theorem mem_passwordUsers {settings : Json} {clients : List Json}
    (h : settings.getArr "clients" = some clients) {s : String} :
    s ∈ (passwordUsers settings).filterMap (fun e => e.2.asStr) ↔
      s ∈ (lastEntries (keyed [] (clients.filterMap namedPassword))).map Prod.snd := by
  have hkeys : ∀ k, k ∈ ([] : List String) ↔ k ∈ ([] : List (String × Json)).map Prod.fst := by simp
  have hfold := foldl_addPasswordUser clients sortedKeys_nil rfl hkeys
  simp only [passwordUsers, h, hfold, List.mem_filterMap, List.mem_map,
    mem_foldl_insertEntry str _ sortedKeys_nil]
  constructor
  · rintro ⟨e, ⟨x, hx, rfl⟩ | ⟨he, _⟩, hs⟩
    · exact ⟨x, hx, by simpa [asStr] using hs⟩
    · exact absurd he List.not_mem_nil
  · rintro ⟨x, hx, rfl⟩
    exact ⟨(x.1, str x.2), Or.inl ⟨x, hx, rfl⟩, rfl⟩

theorem passwordUsers_of_not_array {settings : Json} (h : settings.getArr "clients" = none) :
    (passwordUsers settings).filterMap (fun e => e.2.asStr)
      = settingsCredentials ["password"] "password" settings := by
  simp only [passwordUsers, settingsCredentials, h, getStrAny_singleton]
  split <;> rfl

theorem namedPassword_eq_none_iff {c : Json} :
    namedPassword c = none ↔ (c.getStr "password").getD "" = "" := by
  simp only [namedPassword, getStrAny_singleton]
  split <;> simp_all

theorem passwordUsers_eq_nil_iff {settings : Json} {clients : List Json}
    (h : settings.getArr "clients" = some clients) :
    (passwordUsers settings).filterMap (fun e => e.2.asStr) = [] ↔
      ∀ c ∈ clients, (c.getStr "password").getD "" = "" := by
  rw [List.eq_nil_iff_forall_not_mem]
  simp only [mem_passwordUsers h]
  rw [← List.eq_nil_iff_forall_not_mem, List.map_eq_nil_iff, lastEntries_eq_nil_iff]
  have hkeyed : keyed [] (clients.filterMap namedPassword) = [] ↔
      clients.filterMap namedPassword = [] := by
    rw [← List.map_eq_nil_iff (f := Prod.snd), map_snd_keyed, List.map_eq_nil_iff]
  rw [hkeyed, List.filterMap_eq_nil_iff]
  exact forall₂_congr fun c _ => namedPassword_eq_none_iff

theorem userCredential_buildUser (withFlow : Bool) (defaultFlow uuid name flow : String) :
    userCredential (buildUser withFlow defaultFlow uuid name flow) = some uuid := by
  have hbase : userCredential (mkObj [("username", str name), ("uuid", str uuid)]) = some uuid := by
    simp [userCredential, getStrAny, getStr, get_mkObj, asStr]
  simp only [buildUser]
  split
  · split
    · rw [userCredential_setIndex (isObject_mkObj _) (by decide), hbase]
    · exact hbase
  · split
    · rw [userCredential_setIndex (isObject_mkObj _) (by decide), hbase]
    · exact hbase

theorem filterMap_vlessUsers (settings : Json) (withFlow : Bool) :
    (vlessUsers settings withFlow).filterMap userCredential
      = settingsCredentials ["id", "uuid"] "uuid" settings := by
  rw [vlessUsers, settingsCredentials]
  cases settings.getArr "clients" with
  | some clients =>
    simp only [List.filterMap_map, Function.comp_def, userCredential_buildUser,
      List.filterMap_eq_map']
  | none =>
    simp only [getStrAny_singleton]
    split
    · rfl
    · simp [userCredential_buildUser]

theorem credentials_listenerWith (name type : String) (settings users : Json) :
    credentials (listenerWith name type settings users) = credentials (mkObj [("users", users)]) := by
  have hobj : ((listenerBase settings name).setIndex "type" (str type)).isObject = true := rfl
  refine credentials_congr ?_
  rw [listenerWith, setIndex_of_isObject hobj, get_set_self hobj, get_mkObj]
  rfl

theorem credentials_arr (users : List Json) :
    credentials (mkObj [("users", arr users)]) = users.filterMap userCredential := rfl

theorem credentials_obj (entries : List (String × Json)) :
    credentials (mkObj [("users", obj entries)]) = entries.filterMap (fun e => e.2.asStr) := rfl

theorem sameUsers_applyCertTls {listener out : Json} {tls : Option Json}
    (hobj : listener.isObject = true) (h : applyCertTls listener tls = .ok out) :
    SameUsers listener out := by
  have hpair : ∀ x y : Json, SameUsers listener
      ((listener.setIndex "certificate" x).setIndex "private-key" y) := fun x y =>
    (SameUsers.setIndex ⟨hobj, rfl⟩ (by decide) x).setIndex (by decide) y
  cases tls with
  | none => cases h
  | some tls =>
    simp only [applyCertTls] at h
    split at h
    · cases h; exact hpair _ _
    · split at h
      · cases h; exact hpair _ _
      · cases h

theorem credentials_buildHysteria2Listener {settings inbound : Json} {tls : Option Json}
    (h : buildHysteria2Listener settings tls = .ok inbound) :
    credentials inbound = (passwordUsers settings).filterMap (fun e => e.2.asStr) := by
  obtain ⟨listener, hl, h⟩ := Except.bind_eq_ok (show _ >>= _ = _ from h)
  have hrates := (((sameUsers_applyCertTls rfl hl).setIndex (k := "alpn") (by decide)
    (strs ["h3"])).setIndex (k := "up") (by decide)
    (str (toString ((settings.getU64 "up_mbps").getD 100)))).setIndex (k := "down") (by decide)
    (str (toString ((settings.getU64 "down_mbps").getD 100)))
  have hobfs : ∀ (c : Prop) [Decidable c] (x y : Json) {v w : Json}, SameUsers v w →
      SameUsers v (if c then (w.setIndex "obfs" x).setIndex "obfs-password" y else w) := by
    intro c _ x y v w hw
    split
    · exact (hw.setIndex (by decide) x).setIndex (by decide) y
    · exact hw
  have hbase := credentials_listenerWith "hy2-in" "hysteria2" settings (obj (passwordUsers settings))
  cases h
  rw [← credentials_obj, ← hbase]
  split
  · exact ((hobfs _ _ _ hrates).setIndex (by decide) _).2
  · exact (hobfs _ _ _ hrates).2

/-- **The users of a listener.**  VLESS listeners accept the credentials the
settings hold, password listeners the values of the user map. -/
theorem credentials_buildInbound {protocol : ProtocolType} {settings inbound : Json}
    {tls : Option Json} (h : buildInbound protocol settings tls = .ok inbound) :
    credentials inbound = if protocol.isVless then settingsCredentials ["id", "uuid"] "uuid" settings
      else (passwordUsers settings).filterMap (fun e => e.2.asStr) := by
  have hobj : ∀ name type users, (listenerWith name type settings users).isObject = true :=
    fun name type users => rfl
  cases protocol with
  | vlessReality =>
    simp only [buildInbound, buildVlessRealityListener] at h
    split at h
    · cases h
      rw [credentials_setIndex (hobj _ _ _) (by decide), credentials_listenerWith,
        credentials_arr, filterMap_vlessUsers]
      rfl
    · cases h
  | vlessXhttp =>
    obtain ⟨listener, hl, h⟩ := Except.bind_eq_ok (show _ >>= _ = _ from h)
    cases h
    rw [((sameUsers_applyCertTls (hobj _ _ _) hl).setIndex (by decide) _).2,
      credentials_listenerWith, credentials_arr, filterMap_vlessUsers]
    rfl
  | hysteria2 => exact credentials_buildHysteria2Listener h
  | anytls =>
    rw [(sameUsers_applyCertTls (hobj _ _ _) (show applyCertTls _ _ = _ from h)).2,
      credentials_listenerWith, credentials_obj]
    rfl

theorem get_applyCertTls {listener out : Json} {tls : Option Json}
    (h : applyCertTls listener tls = .ok out) {k : String} (hk : k ∉ ["certificate", "private-key"]) :
    out.get k = listener.get k := by
  simp only [List.mem_cons, List.not_mem_nil, or_false, not_or] at hk
  have hpair : ∀ x y : Json,
      ((listener.setIndex "certificate" x).setIndex "private-key" y).get k = listener.get k := by
    intro x y
    rw [get_setIndex_of_ne _ hk.2, get_setIndex_of_ne _ hk.1]
  cases tls with
  | none => cases h
  | some tls =>
    simp only [applyCertTls] at h
    split at h
    · cases h
      exact hpair _ _
    · split at h
      · cases h
        exact hpair _ _
      · cases h

/-! ### Users in another order -/

theorem keyed_of_ne_empty {α : Type} {named : List (String × α)} (h : ∀ n ∈ named, n.1 ≠ "") :
    keyed [] named = named := by
  have hfst : ∀ name ∈ named.map Prod.fst, name ≠ "" := by
    intro name hname
    obtain ⟨n, hn, rfl⟩ := List.mem_map.mp hname
    exact h n hn
  rw [keyed, passwordKeys_of_ne_empty hfst]
  exact (List.zip_of_prod rfl rfl).symm

/-- The user map of named passwords. -/
def userMap (named : List (String × String)) : List (String × Json) :=
  (keyed [] named).foldl (fun acc e => insertEntry e.1 (str e.2) acc) []

theorem passwordUsers_eq_userMap {settings : Json} {clients : List Json}
    (h : settings.getArr "clients" = some clients) :
    passwordUsers settings = userMap (clients.filterMap namedPassword) := by
  have hkeys : ∀ k, k ∈ ([] : List String) ↔ k ∈ ([] : List (String × Json)).map Prod.fst := by simp
  rw [passwordUsers, h]
  exact foldl_addPasswordUser clients sortedKeys_nil rfl hkeys

theorem mem_userMap {named : List (String × String)} {e : String × Json} :
    e ∈ userMap named ↔ ∃ x ∈ lastEntries (keyed [] named), e = (x.1, str x.2) := by
  rw [userMap, mem_foldl_insertEntry str _ sortedKeys_nil]
  simp only [List.not_mem_nil, false_and, or_false]

/-- Named passwords may come in any order. -/
theorem passwordUsers_perm {s t : Json} {clients clients' : List Json}
    (hs : s.getArr "clients" = some clients) (ht : t.getArr "clients" = some clients')
    (hperm : clients.Perm clients') (hnames : ∀ named ∈ clients.filterMap namedPassword, named.1 ≠ "")
    (hkeys : ((clients.filterMap namedPassword).map Prod.fst).Nodup) :
    passwordUsers s = passwordUsers t := by
  have hnamed := hperm.filterMap namedPassword
  rw [passwordUsers_eq_userMap hs, passwordUsers_eq_userMap ht, userMap, userMap,
    keyed_of_ne_empty hnames, keyed_of_ne_empty fun n hn => hnames n (hnamed.mem_iff.mpr hn)]
  exact foldl_insertEntry_perm str hnamed hkeys

/-- The key of the last of some clients; without a name it is a number from two on. -/
theorem exists_passwordKeys_concat (names : List String) (name : String) (taken : List String) :
    ∃ keys n, passwordKeys taken (names ++ [name]) =
      keys ++ [if name = "" then "user" ++ toString n else name] ∧
      (names ≠ [] ∨ taken ≠ [] → 2 ≤ n) := by
  induction names generalizing taken with
  | nil =>
    refine ⟨[], taken.length + 1, rfl, ?_⟩
    rintro (h | h)
    · exact absurd rfl h
    · have := List.length_pos_iff.mpr h
      omega
  | cons a as ih =>
    rw [List.cons_append, passwordKeys]
    generalize (if a = "" then "user" ++ toString (taken.length + 1) else a) = key
    obtain ⟨keys, n, hkeys, hn⟩ := ih (if key ∈ taken then taken else key :: taken)
    refine ⟨key :: keys, n, congrArg (List.cons key) hkeys, fun _ => hn (.inr ?_)⟩
    split
    · rename_i hmem
      exact List.ne_nil_of_mem hmem
    · exact List.cons_ne_nil _ _

/-- A client that comes last has its entry. -/
theorem mem_userMap_concat (named : List (String × String)) (c : String × String) :
    ∃ n, (if c.1 = "" then "user" ++ toString n else c.1, str c.2) ∈ userMap (named ++ [c]) ∧
      (named ≠ [] → 2 ≤ n) := by
  obtain ⟨keys, n, hkeys, hn⟩ := exists_passwordKeys_concat (named.map Prod.fst) c.1 []
  have hlength : keys.length = (named.map Prod.snd).length := by
    have h := congrArg List.length hkeys
    rw [length_passwordKeys, List.length_append, List.length_append, List.length_map] at h
    rw [List.length_map]
    simpa using h.symm
  refine ⟨n, mem_userMap.mpr ⟨(if c.1 = "" then "user" ++ toString n else c.1, c.2), ?_, rfl⟩, fun h => hn (.inl (by simpa using h))⟩
  rw [keyed, List.map_append, List.map_append, List.map_singleton, List.map_singleton, hkeys,
    List.zip_append hlength]
  exact mem_lastEntries_concat _ _

/-- **Named passwords that may come in any order** have names of their own. -/
theorem names_of_forall_perm {named : List (String × String)} (hids : (named.map Prod.snd).Nodup)
    (hlength : 2 ≤ named.length)
    (h : ∀ named', named'.Perm named → userMap named' = userMap named) :
    (∀ c ∈ named, c.1 ≠ "") ∧ (named.map Prod.fst).Nodup := by
  have hlast : ∀ c rest, (rest ++ [c]).Perm named →
      ∃ n, (if c.1 = "" then "user" ++ toString n else c.1, str c.2) ∈ userMap named ∧
        (rest ≠ [] → 2 ≤ n) := by
    intro c rest hperm
    rw [← h _ hperm]
    exact mem_userMap_concat rest c
  have hne : ∀ c ∈ named, c.1 ≠ "" := by
    intro c hc hempty
    have hperm := (List.perm_append_comm.trans (List.perm_cons_erase hc).symm :
      (named.erase c ++ [c]).Perm named)
    have hrest : named.erase c ≠ [] := by
      intro hnil
      have hlen := hperm.length_eq
      rw [hnil, List.length_append, List.length_nil, List.length_singleton] at hlen
      omega
    obtain ⟨n, hmem, hn⟩ := hlast c _ hperm
    have htwo := hn hrest
    rw [if_pos hempty] at hmem
    -- in front the same client has the number one
    have hfront : (c :: named.erase c).Perm named := (List.perm_cons_erase hc).symm
    rw [← h _ hfront, mem_userMap] at hmem
    obtain ⟨x, hx, heq⟩ := hmem
    rw [Prod.mk.injEq] at heq
    have hid : c.2 = x.2 := by
      have := heq.2
      injection this
    have hx' := (lastEntries_sublist _).subset hx
    have hkeyed : keyed [] (c :: named.erase c) = ("user1", c.2) ::
        keyed ["user1"] (named.erase c) := by
      simp only [keyed, List.map_cons, passwordKeys, hempty, List.zip_cons_cons]
      rfl
    rw [hkeyed] at hx'
    have hsnd : (("user1", c.2) :: keyed ["user1"] (named.erase c)).map Prod.snd =
        (c :: named.erase c).map Prod.snd := by
      rw [List.map_cons, map_snd_keyed, List.map_cons]
    have hnodup : ((("user1", c.2) :: keyed ["user1"] (named.erase c)).map Prod.snd).Nodup := by
      rw [hsnd]
      exact ((hfront.map Prod.snd).nodup_iff).mpr hids
    have hsame := List.inj_on_of_nodup_map hnodup hx' List.mem_cons_self hid.symm
    have hkey : "user" ++ toString n = "user1" := by rw [heq.1, hsame]
    have hone : toString n = toString 1 := by
      have hlist := congrArg String.toList hkey
      rw [String.toList_append] at hlist
      exact String.toList_injective (List.append_cancel_left (show
        "user".toList ++ _ = "user".toList ++ (toString 1).toList from hlist))
    have := Text.toString_injective hone
    omega
  refine ⟨hne, (List.Nodup.of_map _ hids).map_on fun c hc c' hc' hname => ?_⟩
  by_contra hdiff
  have hmem' : c' ∈ named.erase c := (List.mem_erase_of_ne (Ne.symm hdiff)).mpr hc'
  have hperm : (c :: c' :: (named.erase c).erase c').Perm named :=
    ((List.perm_cons_erase hmem').symm.cons c).trans (List.perm_cons_erase hc).symm
  have hfirst : (((named.erase c).erase c' ++ [c']) ++ [c]).Perm named := by
    refine (List.perm_append_comm.trans ?_).trans hperm
    exact (@List.perm_append_comm _ ((named.erase c).erase c') [c']).cons c
  have hsecond : (((named.erase c).erase c' ++ [c]) ++ [c']).Perm named := by
    refine (List.perm_append_comm.trans ?_).trans ((List.Perm.swap c c' _).trans hperm)
    exact (@List.perm_append_comm _ ((named.erase c).erase c') [c]).cons c'
  obtain ⟨_, hmem₁, -⟩ := hlast c _ hfirst
  obtain ⟨_, hmem₂, -⟩ := hlast c' _ hsecond
  rw [if_neg (hne c hc)] at hmem₁
  rw [if_neg (hne c' hc'), ← hname] at hmem₂
  have hsorted := sortedKeys_foldl_insertEntry str (keyed [] named) sortedKeys_nil
  have hkeys : ((userMap named).map Prod.fst).Nodup :=
    hsorted.imp fun hlt heq => by
      rw [heq] at hlt
      exact String.lt_irrefl _ hlt
  have hsame := List.inj_on_of_nodup_map hkeys hmem₁ hmem₂ rfl
  rw [Prod.mk.injEq] at hsame
  have hid : c.2 = c'.2 := by
    have := hsame.2
    injection this
  exact hdiff (List.inj_on_of_nodup_map hids hc hc' hid)

/-- The users of a password listener are the user map. -/
theorem get_users_buildInbound {protocol : ProtocolType} (hvless : protocol.isVless = false)
    {settings inbound : Json} {tls : Option Json}
    (h : buildInbound protocol settings tls = .ok inbound) :
    inbound.get "users" = some (obj (passwordUsers settings)) := by
  have hlistener : ∀ {name type : String} {listener : Json},
      applyCertTls (listenerWith name type settings (obj (passwordUsers settings))) tls =
        .ok listener → listener.get "users" = some (obj (passwordUsers settings)) := by
    intro name type listener hl
    rw [get_applyCertTls hl (by decide), listenerWith, get_setIndex_self rfl]
  cases protocol with
  | vlessReality => cases hvless
  | vlessXhttp => cases hvless
  | hysteria2 =>
    obtain ⟨listener, hl, h⟩ := Except.bind_eq_ok (show _ >>= _ = _ from h)
    have hobfs : ∀ (c : Prop) [Decidable c] (x y v : Json),
        (if c then (v.setIndex "obfs" x).setIndex "obfs-password" y else v).get "users" =
          v.get "users" := by
      intro c _ x y v
      split
      · rw [get_setIndex_of_ne _ (by decide), get_setIndex_of_ne _ (by decide)]
      · rfl
    have hrates : ∀ x y z : Json, (((listener.setIndex "alpn" x).setIndex "up" y).setIndex
        "down" z).get "users" = some (obj (passwordUsers settings)) := by
      intro x y z
      rw [get_setIndex_of_ne _ (by decide), get_setIndex_of_ne _ (by decide),
        get_setIndex_of_ne _ (by decide), hlistener hl]
    cases h
    split
    · rw [get_setIndex_of_ne _ (by decide), hobfs, hrates]
    · rw [hobfs, hrates]
  | anytls => exact hlistener h

/-- The password listeners take their users from the user map only. -/
theorem buildInbound_congr {protocol : ProtocolType} (h : protocol.isVless = false) {s t : Json}
    (hget : ∀ k, k ≠ "clients" → s.get k = t.get k) (husers : passwordUsers s = passwordUsers t)
    (tls : Option Json) : buildInbound protocol s tls = buildInbound protocol t tls := by
  have hstr : ∀ k, k ≠ "clients" → s.getStr k = t.getStr k := by
    intro k hk
    rw [getStr, getStr, hget k hk]
  have hnum : ∀ k, k ≠ "clients" → s.getU64 k = t.getU64 k := by
    intro k hk
    rw [getU64, getU64, hget k hk]
  have hbase : ∀ name type users, listenerWith name type s users = listenerWith name type t users := by
    intro name type users
    rw [listenerWith, listenerWith, listenerBase, listenerBase, strOr, strOr, strOr, strOr,
      hstr "tag" (by decide), hstr "listen" (by decide), hnum "port" (by decide)]
  cases protocol with
  | vlessReality => cases h
  | vlessXhttp => cases h
  | hysteria2 =>
    simp only [buildInbound, buildHysteria2Listener, husers, hbase, getStrAny_singleton,
      hstr "obfs_type" (by decide), hstr "obfs_password" (by decide), hstr "masquerade" (by decide),
      hnum "up_mbps" (by decide), hnum "down_mbps" (by decide)]
  | anytls => simp only [buildInbound, buildAnytlsListener, husers, hbase]

/-! ### Where a listener listens -/

/-- The fields of a listener that say where it listens. -/
def listenFields (settings : Json) : Json :=
  mkObj [("listen", strOr settings "listen" "0.0.0.0"),
    ("port", str (toString ((settings.getU64 "port").getD 443)))]

theorem get_listenerWith (name type : String) (settings users : Json) {k : String}
    (hk : k ∈ ["listen", "port"]) :
    (listenerWith name type settings users).get k = (listenFields settings).get k := by
  simp only [List.mem_cons, List.not_mem_nil, or_false] at hk
  rcases hk with rfl | rfl <;>
    rw [listenerWith, get_setIndex_of_ne _ (by decide), get_setIndex_of_ne _ (by decide),
      listenerBase, get_mkObj, listenFields, get_mkObj] <;> rfl

/-- No later step of a builder names or moves the listener. -/
theorem get_buildInbound_base {protocol : ProtocolType} {settings inbound : Json} {tls : Option Json}
    (h : buildInbound protocol settings tls = .ok inbound) {k : String}
    (hk : k ∈ ["name", "listen", "port"]) :
    ∃ name type users, inbound.get k = (listenerWith name type settings users).get k := by
  have hne : ∀ k' : String, k' ∉ ["name", "listen", "port"] → k ≠ k' := by
    intro k' hk' heq
    exact hk' (heq ▸ hk)
  have hcert : ∀ {name type : String} {users listener : Json},
      applyCertTls (listenerWith name type settings users) tls = .ok listener →
      listener.get k = (listenerWith name type settings users).get k :=
    fun hl => get_applyCertTls hl (by
      simp [hne "certificate" (by decide), hne "private-key" (by decide)])
  cases protocol with
  | vlessReality =>
    simp only [buildInbound, buildVlessRealityListener] at h
    split at h
    · cases h
      rw [get_setIndex_of_ne _ (hne "reality-config" (by decide))]
      exact ⟨_, _, _, rfl⟩
    · cases h
  | vlessXhttp =>
    obtain ⟨listener, hl, h⟩ := Except.bind_eq_ok (show _ >>= _ = _ from h)
    cases h
    rw [get_setIndex_of_ne _ (hne "xhttp-config" (by decide))]
    exact ⟨_, _, _, hcert hl⟩
  | hysteria2 =>
    obtain ⟨listener, hl, h⟩ := Except.bind_eq_ok (show _ >>= _ = _ from h)
    have hobfs : ∀ (c : Prop) [Decidable c] (x y v : Json),
        (if c then (v.setIndex "obfs" x).setIndex "obfs-password" y else v).get k = v.get k := by
      intro c _ x y v
      split
      · rw [get_setIndex_of_ne _ (hne "obfs-password" (by decide)),
          get_setIndex_of_ne _ (hne "obfs" (by decide))]
      · rfl
    have hrates : ∀ x y z : Json, (((listener.setIndex "alpn" x).setIndex "up" y).setIndex
        "down" z).get k = listener.get k := by
      intro x y z
      rw [get_setIndex_of_ne _ (hne "down" (by decide)), get_setIndex_of_ne _ (hne "up" (by decide)),
        get_setIndex_of_ne _ (hne "alpn" (by decide))]
    cases h
    split
    · rw [get_setIndex_of_ne _ (hne "masquerade" (by decide)), hobfs, hrates]
      exact ⟨_, _, _, hcert hl⟩
    · rw [hobfs, hrates]
      exact ⟨_, _, _, hcert hl⟩
  | anytls => exact ⟨_, _, _, hcert (show applyCertTls _ _ = _ from h)⟩

theorem get_buildInbound {protocol : ProtocolType} {settings inbound : Json} {tls : Option Json}
    (h : buildInbound protocol settings tls = .ok inbound) {k : String}
    (hk : k ∈ ["listen", "port"]) : inbound.get k = (listenFields settings).get k := by
  obtain ⟨name, type, users, hget⟩ := get_buildInbound_base h (List.mem_cons_of_mem _ hk)
  rw [hget, get_listenerWith _ _ _ _ hk]

/-- A listener keeps the tag of its settings as its name. -/
theorem getStr_name_buildInbound {protocol : ProtocolType} {settings inbound : Json}
    {tls : Option Json} (h : buildInbound protocol settings tls = .ok inbound) {tag : String}
    (htag : settings.getStr "tag" = some tag) : inbound.getStr "name" = some tag := by
  obtain ⟨name, type, users, hget⟩ := get_buildInbound_base (k := "name") h (by decide)
  rw [getStr, hget, listenerWith, get_setIndex_of_ne _ (by decide), get_setIndex_of_ne _ (by decide),
    listenerBase, strOr, htag, get_mkObj]
  rfl

/-- The certificate a listener can use: managed, or given as files. -/
def hasCertificate (tls : Option Json) : Prop :=
  ∃ settings, tls = some settings ∧ ((settings.getStrAny ["managed_domain"]).getD "" ≠ "" ∨
    ((settings.getStrAny ["certFile"]).getD "" ≠ "" ∧ (settings.getStrAny ["keyFile"]).getD "" ≠ ""))

theorem exists_applyCertTls {listener : Json} {tls : Option Json} :
    (∃ out, applyCertTls listener tls = .ok out) ↔ hasCertificate tls := by
  cases tls with
  | none =>
    refine iff_of_false ?_ ?_
    · rintro ⟨out, h⟩
      cases h
    · rintro ⟨settings, h, -⟩
      cases h
  | some settings =>
    simp only [applyCertTls, hasCertificate, Option.some.injEq, exists_eq_left']
    split
    · rename_i hmanaged
      exact iff_of_true ⟨_, rfl⟩ (Or.inl hmanaged)
    · rename_i hmanaged
      split
      · rename_i hfiles
        exact iff_of_true ⟨_, rfl⟩ (Or.inr hfiles)
      · rename_i hfiles
        refine iff_of_false ?_ (not_or.mpr ⟨hmanaged, hfiles⟩)
        rintro ⟨out, h⟩
        cases h

/-- Protocols other than REALITY need a certificate, and nothing else. -/
theorem exists_buildInbound {protocol : ProtocolType} (h : needsTls protocol = true)
    (settings : Json) (tls : Option Json) :
    (∃ inbound, buildInbound protocol settings tls = .ok inbound) ↔ hasCertificate tls := by
  cases protocol with
  | vlessReality => cases h
  | vlessXhttp =>
    rw [← exists_applyCertTls]
    constructor
    · rintro ⟨inbound, hbuild⟩
      obtain ⟨listener, hl, -⟩ := Except.bind_eq_ok (show _ >>= _ = _ from hbuild)
      exact ⟨listener, hl⟩
    · rintro ⟨listener, hl⟩
      simp only [buildInbound, buildVlessXhttpListener, hl]
      exact ⟨_, rfl⟩
  | hysteria2 =>
    rw [← exists_applyCertTls]
    constructor
    · rintro ⟨inbound, hbuild⟩
      obtain ⟨listener, hl, -⟩ := Except.bind_eq_ok (show _ >>= _ = _ from hbuild)
      exact ⟨listener, hl⟩
    · rintro ⟨listener, hl⟩
      simp only [buildInbound, buildHysteria2Listener, hl]
      exact ⟨_, rfl⟩
  | anytls => exact exists_applyCertTls

/-! ### The full configuration -/

/-- The keys of a configuration before its relay rules. -/
theorem get_buildFullConfig {env : Env} {inbounds : List InboundConfig} {config : Json}
    (h : buildFullConfig env inbounds = .ok config) {k : String} (hk : k ≠ "secret") :
    config.get k = (mkObj [("log-level", str "warning"), ("mode", str "rule"),
      ("allow-lan", bool false), ("external-controller", str (apiListen env)),
      ("listeners", arr (inbounds.filterMap fun ib =>
        (buildInbound ib.protocol ib.settings ib.tls).toOption)),
      ("rules", strs ["MATCH,DIRECT"])]).get k := by
  obtain ⟨listeners, hlisteners, h⟩ := Except.bind_eq_ok (show _ >>= _ = _ from h)
  rw [← buildInbounds_ok hlisteners]
  cases h
  split
  · rfl
  · rw [get_setIndex_of_ne _ hk]

/-- The listeners of a full configuration are those whose builder succeeded. -/
theorem getArr_buildFullConfig {env : Env} {inbounds : List InboundConfig} {config : Json}
    (h : buildFullConfig env inbounds = .ok config) : config.getArr "listeners" =
      some (inbounds.filterMap fun ib => (buildInbound ib.protocol ib.settings ib.tls).toOption) := by
  rw [getArr, get_buildFullConfig h (by decide), get_mkObj]
  rfl

/-- A mihomo configuration has no `inbounds`. -/
theorem get_inbounds_buildFullConfig {env : Env} {inbounds : List InboundConfig} {config : Json}
    (h : buildFullConfig env inbounds = .ok config) : config.get "inbounds" = none := by
  rw [get_buildFullConfig h (by decide), get_mkObj]
  rfl

end ProxyPanel.Mihomo
