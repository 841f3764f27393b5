import ProxyPanel.Hub.ProxyNodes

/-!
# The injected users on both cores

For hysteria2 and anytls sing-box gets the injected clients as a list of users, mihomo as a
map from their names, where a later client of the same name replaces an earlier one and a
client without a name is numbered.  `usersAgree_iff`: both accept the same passwords under
the injected names exactly if every client has a name of its own.
-/

namespace ProxyPanel.Hub

open Json Builder

/-! ### Names and passwords -/

/-- The users of a mihomo listener, by name and password. -/
def mihomoUsers (settings : Json) : List (String × String) :=
  (Mihomo.passwordUsers settings).filterMap fun user => user.2.asStr.map (user.1, ·)

/-- The users of a sing-box inbound. -/
def singboxUsers (settings : Json) : List (String × String) :=
  (SingBox.passwordClientsToUsers settings).filterMap fun user =>
    (user.getStr "password").map ((user.getStr "name").getD "", ·)

/-- The name that is injected for a client and its password. -/
def injectedUser (c : Client) : String × String := (clientName c, c.id.toStr)

/-- **Both cores agree**: they accept the same passwords, every client can authenticate on
either, and each password is attributed to the name that was injected for it. -/
structure UsersAgree (clients : List Client) (settings : Json) : Prop where
  passwords : ∀ password, password ∈ (mihomoUsers settings).map Prod.snd ↔
    password ∈ (singboxUsers settings).map Prod.snd
  authenticates : ∀ c ∈ clients, c.id.toStr ∈ (mihomoUsers settings).map Prod.snd ∧
    c.id.toStr ∈ (singboxUsers settings).map Prod.snd
  attributed : ∀ user, user ∈ mihomoUsers settings ∨ user ∈ singboxUsers settings →
    user ∈ clients.map injectedUser

/-! ### The map -/

theorem nodup_keys_lastEntries {α : Type} (es : List (String × α)) :
    ((lastEntries es).map Prod.fst).Nodup := by
  induction es with
  | nil => exact List.nodup_nil
  | cons e es ih =>
    rw [lastEntries_cons]
    split
    · exact ih
    · rename_i hkey
      rw [List.map_cons, List.nodup_cons]
      exact ⟨fun h => hkey (((lastEntries_sublist es).map Prod.fst).subset h), ih⟩

/-- A generated key is not empty. -/
theorem ne_empty_of_mem_passwordKeys {names taken : List String} {key : String}
    (h : key ∈ Mihomo.passwordKeys taken names) : key ≠ "" := by
  induction names generalizing taken with
  | nil => cases h
  | cons name names ih =>
    rw [Mihomo.passwordKeys] at h
    rcases List.mem_cons.mp h with rfl | hrest
    · split
      · intro hempty
        have hlength := congrArg (·.toList.length) hempty
        simp at hlength
      · assumption
    · exact ih hrest

section Injected

variable {protocol : ProtocolType} {settings : Json} {clients : List Client}

theorem singboxUsers_injected (hvless : protocol.isVless = false)
    (hclients : settings.getArr "clients" =
      some (clients.map (clientToProtocolEntry · protocol.toStr))) :
    singboxUsers settings = clients.map injectedUser := by
  have huser : ∀ c, ((SingBox.passwordUser (clientToProtocolEntry c protocol.toStr)).getStr
      "password").map (((SingBox.passwordUser (clientToProtocolEntry c protocol.toStr)).getStr
        "name").getD "", ·) = some (injectedUser c) := by
    intro c
    rw [clientToProtocolEntry_password hvless]
    simp [SingBox.passwordUser, strOr, getStr, get_mkObj, List.lookup_cons, asStr, injectedUser]
  rw [singboxUsers, SingBox.passwordClientsToUsers, hclients]
  simp only [List.map_map, List.filterMap_map, Function.comp_def, huser, List.filterMap_eq_map']

theorem mem_mihomoUsers_injected (hvless : protocol.isVless = false)
    (hclients : settings.getArr "clients" =
      some (clients.map (clientToProtocolEntry · protocol.toStr))) {user : String × String} :
    user ∈ mihomoUsers settings ↔
      user ∈ lastEntries (Mihomo.keyed [] (clients.map injectedUser)) := by
  have hnamed : (clients.map (clientToProtocolEntry · protocol.toStr)).filterMap
      Mihomo.namedPassword = clients.map injectedUser := by
    rw [List.filterMap_map]
    simp only [Function.comp_def, namedPassword_clientToProtocolEntry hvless,
      List.filterMap_eq_map']
    rfl
  rw [mihomoUsers, Mihomo.passwordUsers_eq_userMap hclients, hnamed, List.mem_filterMap]
  constructor
  · rintro ⟨e, he, huser⟩
    obtain ⟨x, hx, rfl⟩ := Mihomo.mem_userMap.mp he
    cases huser
    exact hx
  · intro h
    exact ⟨_, Mihomo.mem_userMap.mpr ⟨user, h, rfl⟩, rfl⟩

theorem mem_of_mem_mihomoUsers (hvless : protocol.isVless = false)
    (hclients : settings.getArr "clients" =
      some (clients.map (clientToProtocolEntry · protocol.toStr))) {user : String × String}
    (h : user ∈ mihomoUsers settings) : user.1 ≠ "" ∧ ∃ c ∈ clients, user.2 = c.id.toStr := by
  have hkeyed := (lastEntries_sublist _).subset ((mem_mihomoUsers_injected hvless hclients).mp h)
  have hfst : user.1 ∈ (Mihomo.keyed [] (clients.map injectedUser)).map Prod.fst :=
    List.mem_map_of_mem hkeyed
  have hsnd : user.2 ∈ (Mihomo.keyed [] (clients.map injectedUser)).map Prod.snd :=
    List.mem_map_of_mem hkeyed
  rw [Mihomo.map_fst_keyed] at hfst
  rw [Mihomo.map_snd_keyed, List.map_map] at hsnd
  obtain ⟨c, hc, hid⟩ := List.mem_map.mp hsnd
  exact ⟨ne_empty_of_mem_passwordKeys hfst, c, hc, hid.symm⟩

/-- **When both cores agree on the injected users**: every client has a name, and no two have
the same. -/
theorem usersAgree_iff (hvless : protocol.isVless = false)
    (hids : (clients.map (·.id)).Nodup) (hclients : settings.getArr "clients" =
      some (clients.map (clientToProtocolEntry · protocol.toStr))) :
    UsersAgree clients settings ↔
      (∀ c ∈ clients, clientName c ≠ "") ∧ (clients.map clientName).Nodup := by
  have hsingbox := singboxUsers_injected hvless hclients
  have hinj : ∀ c ∈ clients, ∀ c' ∈ clients, c.id.toStr = c'.id.toStr → c = c' :=
    fun c hc c' hc' h => List.inj_on_of_nodup_map hids hc hc' (Uuid.toStr_injective h)
  constructor
  · intro h
    have hentry : ∀ c ∈ clients, injectedUser c ∈ mihomoUsers settings := by
      intro c hc
      obtain ⟨user, huser, hid⟩ := List.mem_map.mp (h.authenticates c hc).1
      obtain ⟨c', hc', rfl⟩ := List.mem_map.mp (h.attributed user (Or.inl huser))
      rw [hinj c hc c' hc' hid.symm]
      exact huser
    refine ⟨fun c hc => (mem_of_mem_mihomoUsers hvless hclients (hentry c hc)).1, ?_⟩
    refine List.Nodup.map_on (fun c hc c' hc' hname => ?_) hids.of_map
    -- one name has one password in the map
    have hone := List.inj_on_of_nodup_map (nodup_keys_lastEntries _)
      ((mem_mihomoUsers_injected hvless hclients).mp (hentry c hc))
      ((mem_mihomoUsers_injected hvless hclients).mp (hentry c' hc')) hname
    exact hinj c hc c' hc' (congrArg Prod.snd hone)
  · rintro ⟨hnames, hnodup⟩
    have hkeyed : Mihomo.keyed [] (clients.map injectedUser) = clients.map injectedUser := by
      refine Mihomo.keyed_of_ne_empty fun user huser => ?_
      obtain ⟨c, hc, rfl⟩ := List.mem_map.mp huser
      exact hnames c hc
    have hlast : lastEntries (clients.map injectedUser) = clients.map injectedUser := by
      refine lastEntries_eq_self_iff.mpr ?_
      rw [List.map_map]
      exact hnodup
    have hmihomo : ∀ user, user ∈ mihomoUsers settings ↔ user ∈ clients.map injectedUser :=
      fun user => by rw [mem_mihomoUsers_injected hvless hclients, hkeyed, hlast]
    have hmap : ∀ password, password ∈ (mihomoUsers settings).map Prod.snd ↔
        password ∈ (clients.map injectedUser).map Prod.snd := fun password => by
      rw [List.mem_map, List.mem_map]
      exact exists_congr fun user => and_congr_left' (hmihomo user)
    have hmem : ∀ c ∈ clients, c.id.toStr ∈ (clients.map injectedUser).map Prod.snd :=
      fun c hc => List.mem_map_of_mem (List.mem_map_of_mem hc)
    refine ⟨fun password => ?_, fun c hc => ⟨?_, ?_⟩, fun user huser => ?_⟩
    · rw [hmap, hsingbox]
    · exact (hmap _).mpr (hmem c hc)
    · rw [hsingbox]
      exact hmem c hc
    · rcases huser with huser | huser
      · exact (hmihomo user).mp huser
      · rw [hsingbox] at huser
        exact huser

end Injected

namespace SameEmail

def first : Client := { OnHold.client with status := "active" }
def second : Client := { first with id := .ofNat 12, name := "carol-phone" }

/-- What is injected for two clients of one email. -/
def settings : Json :=
  mkObj [("clients", .arr ([first, second].map (clientToProtocolEntry · "hysteria2")))]

/-- sing-box has both clients, mihomo only the second. -/
theorem one_replaced :
    singboxUsers settings = [first, second].map injectedUser ∧
      mihomoUsers settings = [injectedUser second] ∧ ¬UsersAgree [first, second] settings := by
  have hmihomo : mihomoUsers settings = [injectedUser second] := by decide
  refine ⟨by decide, hmihomo, fun h => ?_⟩
  have hfirst := (h.authenticates first List.mem_cons_self).1
  rw [hmihomo] at hfirst
  exact absurd hfirst (by decide)

def renamed : Client := { second with email := none }

def apart : Json :=
  mkObj [("clients", .arr ([first, renamed].map (clientToProtocolEntry · "hysteria2")))]

theorem renamed_agree : UsersAgree [first, renamed] apart :=
  (@usersAgree_iff .hysteria2 apart [first, renamed] rfl (by decide) rfl).mpr (by decide)

end SameEmail

end ProxyPanel.Hub
