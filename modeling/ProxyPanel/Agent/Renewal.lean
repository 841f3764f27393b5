import ProxyPanel.Agent.Client
import ProxyPanel.Hub.CertificateVerification
import ProxyPanel.Lib.Search

/-!
# A renewed certificate and the core that uses it

After a renewal the agent restarts the cores whose last configuration names the files of
the domain, and it recognises such a configuration by a search in its text:
`restartCoresUsing` looks for `certs/<domain>/<domain>`.  The files are
`certs/<domain>.crt` and `certs/<domain>.key` (`certFilePaths`), and this is also how the
server TLS of a managed certificate names them (`buildServerTls`).  What is searched for
is in neither, so the renewal of a managed certificate never restarts sing-box for it:
`references_buildServerTls` and `not_mentions_buildServerTls`.
`restartedIfReferenced_iff` says for which configurations the restart is right.
-/

namespace ProxyPanel.Agent.Renewal

open Json
open SingBox (buildServerTls)

/-! ### Paths -/

/-- A path, as the standard library compares them: the pieces between slashes, without
the empty ones and the dots. -/
structure Path where
  absolute : Bool
  components : List String
  deriving DecidableEq, Repr

def Path.ofString (s : String) : Path :=
  ⟨Text.startsWith s "/", (Text.split '/' s).filter fun c => c ≠ "" ∧ c ≠ "."⟩

/-- An absolute path replaces the directory. -/
def Path.join (dir p : Path) : Path :=
  if p.absolute then p else ⟨dir.absolute, dir.components ++ p.components⟩

def certDir : String := "certs"

/-- The certificate and the key that `issue_certificate` writes. -/
def certFilePaths (dataDir : Path) (domain : String) : Path × Path :=
  let dir := dataDir.join (.ofString certDir)
  (dir.join (.ofString (domain ++ ".crt")), dir.join (.ofString (domain ++ ".key")))

/-! ### What a configuration names -/

mutual
/-- The values of `certificate_path` and `key_path`, at any depth. -/
def certificatePaths : Json → List String
  | arr xs => pathsOfItems xs
  | obj es => pathsOfEntries es
  | _ => []

def pathsOfItems : List Json → List String
  | [] => []
  | x :: xs => certificatePaths x ++ pathsOfItems xs

def pathsOfEntries : List (String × Json) → List String
  | [] => []
  | (k, v) :: es =>
    (if k = "certificate_path" ∨ k = "key_path" then v.asStr.toList else []) ++
      (certificatePaths v ++ pathsOfEntries es)
end

/-- The file behind a path of the configuration: sing-box runs in the data directory, which
is taken from the working directory of the agent. -/
def coreFile (workingDir dataDir : Path) (p : String) : Path :=
  (workingDir.join dataDir).join (.ofString p)

/-- One of the paths is a file that is written for the domain. -/
def References (workingDir dataDir : Path) (domain : String) (config : Json) : Prop :=
  ∃ p ∈ certificatePaths config,
    coreFile workingDir dataDir p = workingDir.join (certFilePaths dataDir domain).1 ∨
      coreFile workingDir dataDir p = workingDir.join (certFilePaths dataDir domain).2

instance (workingDir dataDir : Path) (domain : String) (config : Json) :
    Decidable (References workingDir dataDir domain config) :=
  inferInstanceAs (Decidable (∃ _ ∈ _, _))

/-! ### The restart -/

def needle (domain : String) : String := certDir ++ "/" ++ domain ++ "/" ++ domain

def allCores : List CoreType := [.singBox, .mihomo]

/-- The restarts that are asked for after a renewal, with their configurations. -/
def restartsFor (domain : String) (s : AgentState) : List (CoreType × Json) :=
  allCores.filterMap fun core =>
    (s.snapshots core).bind fun snapshot =>
      if core = .mihomo then none
      else if !Text.contains snapshot.config.render (needle domain) then none
      else if s.managers core then some (core, snapshot.config) else none

def restartCoresUsing (o : Outcomes) (domain : String) (s : AgentState) : AgentState :=
  (restartsFor domain s).foldl (fun s (core, config) =>
    s.setProcess core (CoreManager.restart o config (s.processes core)).1) s

/-- sing-box is restarted with its last configuration exactly when this names a file of
the domain. -/
def RestartedIfReferenced (workingDir dataDir : Path) (domain : String) (s : AgentState)
    (config : Json) : Prop :=
  (CoreType.singBox, config) ∈ restartsFor domain s ↔
    References workingDir dataDir domain config

/-! ### Where the search succeeds -/

/-- Letters, digits, hyphens and dots. -/
def IsDomainName (domain : String) : Prop :=
  domain ≠ "" ∧ ∀ c ∈ domain.toList, c.isAlphanum = true ∨ c = '-' ∨ c = '.'

instance (domain : String) : Decidable (IsDomainName domain) :=
  @instDecidableAnd _ _ inferInstance (List.decidableBAll _ _)

/-- One of the strings of the configuration has `certs/<domain>/<domain>` in it. -/
def Mentions (domain : String) (config : Json) : Prop :=
  ∃ t ∈ config.texts, (needle domain).toList <:+: t

instance (domain : String) (config : Json) : Decidable (Mentions domain config) :=
  inferInstanceAs (Decidable (∃ _ ∈ _, _))

theorem toList_needle (domain : String) : (needle domain).toList =
    "certs".toList ++ '/' :: (domain.toList ++ '/' :: domain.toList) := by
  simp [needle, certDir]

theorem IsDomainName.not_mem {domain : String} (h : IsDomainName domain) {c : Char}
    (hc : c.isAlphanum = false) (hhyphen : c ≠ '-') (hdot : c ≠ '.') : c ∉ domain.toList := by
  intro hmem
  rcases h.2 c hmem with halpha | heq | heq
  · rw [hc] at halpha
    cases halpha
  · exact hhyphen heq
  · exact hdot heq

theorem pathWord_needle {domain : String} (h : IsDomainName domain) :
    PathWord (needle domain).toList := by
  refine ⟨?_, fun c hc => ?_⟩
  · rw [toList_needle]
    simp
  · have hcases : c.isAlphanum = false ∧ c ≠ '-' ∧ c ≠ '.' ∧ c ≠ '/' ∧ c ∉ "certs".toList := by
      simp only [List.mem_cons, List.not_mem_nil, or_false] at hc
      rcases hc with rfl | rfl | rfl | rfl | rfl | rfl | rfl <;> decide
    obtain ⟨halpha, hhyphen, hdot, hslash, hcerts⟩ := hcases
    have hdomain : c ∉ domain.toList := h.not_mem halpha hhyphen hdot
    rw [toList_needle]
    simp only [List.mem_append, List.mem_cons, not_or]
    exact ⟨hcerts, hslash, hdomain, hslash, hdomain⟩

/-- **When sing-box is restarted**: a string of its last configuration has what is searched
for, and the core is registered. -/
theorem mem_restartsFor_iff {domain : String} (hdomain : IsDomainName domain) {s : AgentState}
    {snapshot : PersistedConfig} (hsnapshot : s.snapshots .singBox = some snapshot) :
    (CoreType.singBox, snapshot.config) ∈ restartsFor domain s ↔
      s.managers .singBox = true ∧ Mentions domain snapshot.config := by
  have hmihomo : ∀ x : Option PersistedConfig, (x.bind fun snapshot =>
      if CoreType.mihomo = .mihomo then (none : Option (CoreType × Json))
      else if !Text.contains snapshot.config.render (needle domain) then none
      else if s.managers .mihomo then some (.mihomo, snapshot.config) else none) = none := by
    intro x
    cases x with
    | none => rfl
    | some snapshot => rfl
  rw [Mentions, ← contains_render_iff (pathWord_needle hdomain), restartsFor, allCores,
    List.filterMap_cons, hsnapshot, Option.bind_some, if_neg (by decide),
    List.filterMap_cons, hmihomo, List.filterMap_nil]
  cases Text.contains snapshot.config.render (needle domain) <;>
    cases s.managers .singBox <;> simp

/-- mihomo is left alone. -/
theorem processes_mihomo_restartCoresUsing (o : Outcomes) (domain : String) (s : AgentState) :
    (restartCoresUsing o domain s).processes .mihomo = s.processes .mihomo := by
  have hcore : ∀ r ∈ restartsFor domain s, r.1 = .singBox := by
    intro r hr
    obtain ⟨core, -, hr⟩ := List.mem_filterMap.mp hr
    obtain ⟨snapshot, -, hr⟩ := Option.bind_eq_some_iff.mp hr
    cases core with
    | mihomo => simp at hr
    | singBox =>
      grind
  rw [restartCoresUsing]
  generalize restartsFor domain s = restarts at hcore
  induction restarts generalizing s with
  | nil => rfl
  | cons r restarts ih =>
    rw [List.foldl_cons, ih _ fun r' hr' => hcore r' (List.mem_cons_of_mem r hr')]
    simp [AgentState.setProcess, hcore r List.mem_cons_self]

/-! ### Managed certificates -/

/-- What is searched for has two slashes. -/
theorem not_infix_needle {domain : String} {t : List Char} (h : t.count '/' < 2) :
    ¬ (needle domain).toList <:+: t := by
  intro hinfix
  have hcount := hinfix.sublist.count_le '/'
  rw [toList_needle] at hcount
  simp only [List.count_append, List.count_cons_self] at hcount
  omega

/-- **No restart for paths with a single slash**, the shape of a managed certificate. -/
theorem not_mentions_of_slashes {domain : String} {config : Json}
    (h : ∀ t ∈ config.texts, t.count '/' < 2) : ¬ Mentions domain config := by
  rintro ⟨t, ht, hinfix⟩
  exact not_infix_needle (h t ht) hinfix

/-- The server TLS of a managed certificate. -/
def managedTls (domain : String) : Json :=
  obj [("certificate_path", str ("certs/" ++ domain ++ ".crt")), ("enabled", bool true),
    ("key_path", str ("certs/" ++ domain ++ ".key"))]

theorem mkObj_managedTls (domain : String) :
    mkObj [("enabled", bool true), ("certificate_path", str ("certs/" ++ domain ++ ".crt")),
      ("key_path", str ("certs/" ++ domain ++ ".key"))] = managedTls domain := by
  have hcertificate : "certificate_path" ≠ "enabled" ∧ "certificate_path" < "enabled" := by
    decide +kernel
  have hkey : "key_path" ≠ "certificate_path" ∧ ¬ "key_path" < "certificate_path" ∧
      "key_path" ≠ "enabled" ∧ ¬ "key_path" < "enabled" := by
    decide +kernel
  simp only [mkObj, managedTls, List.foldl_cons, List.foldl_nil, insertEntry, hcertificate, hkey,
    if_true, if_false]

theorem buildServerTls_managed {tls : Json} {domain : String}
    (h : tls.getStr "managed_domain" = some domain) (hne : domain ≠ "") :
    buildServerTls (some tls) = .ok (managedTls domain) := by
  simp only [buildServerTls, h, Option.getD_some]
  rw [if_pos hne]
  exact congrArg Except.ok (mkObj_managedTls domain)

theorem IsDomainName.escaped {domain : String} (h : IsDomainName domain) :
    domain.toList.flatMap escapeChar = domain.toList := by
  have hplain : ∀ c ∈ domain.toList, escapeChar c = [c] := by
    intro c hc
    have hrange : 32 ≤ c.toNat ∧ c ≠ '"' ∧ c ≠ '\\' := by
      refine ⟨?_, fun heq => ?_, fun heq => ?_⟩
      · rcases h.2 c hc with halpha | rfl | rfl
        · have hne : ∀ n < 32, (Char.ofNat n).isAlphanum = false := by decide
          by_contra hlt
          have hfalse := hne c.toNat (by omega)
          rw [Char.ofNat_toNat, halpha] at hfalse
          cases hfalse
        · decide
        · decide
      · exact h.not_mem (by decide) (by decide) (by decide) (heq ▸ hc)
      · exact h.not_mem (by decide) (by decide) (by decide) (heq ▸ hc)
    exact escapeChar_of_plain hrange.1 hrange.2.1 hrange.2.2
  rw [List.flatMap_congr hplain]
  exact List.flatMap_singleton' _

theorem Path.join_assoc (a b c : Path) : a.join (b.join c) = (a.join b).join c := by
  cases hc : c.absolute with
  | true => simp [join, hc]
  | false => cases hb : b.absolute <;> simp [join, hc, hb]

theorem Path.join_relative_inj {a : Path} {xs ys : List String} :
    a.join ⟨false, xs⟩ = a.join ⟨false, ys⟩ ↔ xs = ys := by
  simp [join]

/-- The name of a file of the domain is one piece of a path. -/
theorem IsDomainName.no_slash {domain : String} (h : IsDomainName domain) (extension : String)
    (hext : '/' ∉ extension.toList) : '/' ∉ (domain ++ extension).toList := by
  rw [String.toList_append, List.mem_append, not_or]
  exact ⟨h.not_mem (by decide) (by decide) (by decide), hext⟩

/-- A name with an extension of at least two characters. -/
theorem isComponent_append (domain : String) {extension : String}
    (hext : 1 < extension.toList.length) :
    domain ++ extension ≠ "" ∧ domain ++ extension ≠ "." := by
  have hlength : 1 < (domain ++ extension).toList.length := by
    rw [String.toList_append, List.length_append]
    omega
  refine ⟨fun heq => ?_, fun heq => ?_⟩ <;> rw [heq] at hlength <;> exact absurd hlength (by decide)

theorem ofString_name {name : String} (hslash : '/' ∉ name.toList) (hne : name ≠ "" ∧ name ≠ ".") :
    Path.ofString name = ⟨false, [name]⟩ := by
  have hstart : Text.startsWith name "/" = false := by
    rw [Text.startsWith, Bool.eq_false_iff, ne_eq, List.isPrefixOf_iff_prefix]
    exact fun hstart => hslash (hstart.subset (by decide))
  rw [Path.ofString, hstart, Text.split_of_not_mem hslash, List.filter_cons_of_pos (by simp [hne]),
    List.filter_nil]

theorem ofString_certs {name : String} (hslash : '/' ∉ name.toList)
    (hne : name ≠ "" ∧ name ≠ ".") :
    Path.ofString ("certs/" ++ name) = ⟨false, ["certs", name]⟩ := by
  have hlist : ("certs/" ++ name).toList = "certs".toList ++ '/' :: name.toList := by simp
  have hstart : Text.startsWith ("certs/" ++ name) "/" = false := by
    rw [Text.startsWith, hlist]
    rfl
  rw [Path.ofString, hstart, Text.split_of_toList hlist (by decide), String.ofList_toList,
    String.ofList_toList, Text.split_of_not_mem hslash]
  simp [hne]

/-- The files of a domain, in the data directory. -/
theorem certFilePaths_eq {dataDir : Path} {domain : String} (h : IsDomainName domain) :
    certFilePaths dataDir domain =
      (dataDir.join ⟨false, ["certs", domain ++ ".crt"]⟩,
        dataDir.join ⟨false, ["certs", domain ++ ".key"]⟩) := by
  have hcerts : Path.ofString certDir = ⟨false, ["certs"]⟩ := by decide
  have hcrt := ofString_name (h.no_slash ".crt" (by decide)) (isComponent_append _ (by decide))
  have hkey := ofString_name (h.no_slash ".key" (by decide)) (isComponent_append _ (by decide))
  simp only [certFilePaths, hcerts, hcrt, hkey, ← Path.join_assoc]
  rfl

/-- **A managed certificate names the files of its domain** and of no other. -/
theorem references_buildServerTls {workingDir dataDir : Path} {tls out : Json}
    {domain managed : String} (hdomain : IsDomainName domain) (hmanaged : IsDomainName managed)
    (htls : tls.getStr "managed_domain" = some managed) (h : buildServerTls (some tls) = .ok out) :
    References workingDir dataDir domain out ↔ managed = domain := by
  rw [buildServerTls_managed htls hmanaged.1] at h
  cases h
  have hcrt := ofString_certs (hmanaged.no_slash ".crt" (by decide))
    (isComponent_append _ (by decide))
  have hkey := ofString_certs (hmanaged.no_slash ".key" (by decide))
    (isComponent_append _ (by decide))
  have hpaths : certificatePaths (managedTls managed) =
      ["certs/" ++ managed ++ ".crt", "certs/" ++ managed ++ ".key"] := by
    simp [managedTls, certificatePaths, pathsOfEntries, asStr]
  have hmixed : managed ++ ".crt" ≠ domain ++ ".key" ∧ managed ++ ".key" ≠ domain ++ ".crt" := by
    constructor <;> intro heq
    · have hlast := congrArg (fun t : String => t.toList.getLast?) heq
      simp at hlast
    · have hlast := congrArg (fun t : String => t.toList.getLast?) heq
      simp at hlast
  rw [References, hpaths]
  simp only [List.mem_cons, List.not_mem_nil, or_false, exists_eq_or_imp, exists_eq_left, coreFile,
    certFilePaths_eq hdomain, Path.join_assoc, String.append_assoc, hcrt, hkey,
    Path.join_relative_inj, List.cons.injEq, true_and, and_true, hmixed.1, hmixed.2, false_or]
  rw [String.append_left_inj, String.append_left_inj, or_self]

/-- **And it does not have what is searched for.** -/
theorem not_mentions_buildServerTls {tls out : Json} {domain managed : String}
    (hmanaged : IsDomainName managed) (htls : tls.getStr "managed_domain" = some managed)
    (h : buildServerTls (some tls) = .ok out) : ¬ Mentions domain out := by
  rw [buildServerTls_managed htls hmanaged.1] at h
  cases h
  have hslash : '/' ∉ managed.toList := hmanaged.not_mem (by decide) (by decide) (by decide)
  refine not_mentions_of_slashes fun t ht => ?_
  have hfile : ∀ extension : String, extension.toList.flatMap escapeChar = extension.toList →
      '/' ∉ extension.toList →
      (("certs/" ++ managed ++ extension).toList.flatMap escapeChar).count '/' = 1 := by
    intro extension hescaped hext
    rw [String.toList_append, String.toList_append, List.flatMap_append, List.flatMap_append,
      hmanaged.escaped, hescaped, List.count_append, List.count_append,
      List.count_eq_zero_of_not_mem hslash, List.count_eq_zero_of_not_mem hext]
    decide
  simp only [managedTls, texts, textsOfEntries, List.mem_append, List.mem_cons, List.not_mem_nil,
    or_false, false_or] at ht
  rcases ht with rfl | rfl | rfl | rfl | rfl
  · decide
  · rw [hfile ".crt" (by decide) (by decide)]
    decide
  · decide
  · decide
  · rw [hfile ".key" (by decide) (by decide)]
    decide

/-! ### Which configurations are restarted when they should be -/

/-- **When sing-box is restarted as it should be**: a registered core whose last configuration
has `certs/<domain>/<domain>` somewhere in it and names a file of the domain, or neither. -/
theorem restartedIfReferenced_iff {workingDir dataDir : Path} {domain : String}
    (hdomain : IsDomainName domain) {s : AgentState} {snapshot : PersistedConfig}
    (hsnapshot : s.snapshots .singBox = some snapshot) :
    RestartedIfReferenced workingDir dataDir domain s snapshot.config ↔
      (s.managers .singBox = true ∧ Mentions domain snapshot.config ∧
          References workingDir dataDir domain snapshot.config) ∨
        (¬ (s.managers .singBox = true ∧ Mentions domain snapshot.config) ∧
          ¬ References workingDir dataDir domain snapshot.config) := by
  rw [RestartedIfReferenced, mem_restartsFor_iff hdomain hsnapshot, ← and_assoc]
  exact iff_iff_and_or_not_and_not

/-! ### A managed certificate is renewed -/

namespace ManagedCore

open Hub Hub.CertificateVerification

def dataDir : Path := .ofString "/var/lib/proxy-panel/agent"

/-- sing-box with its last configuration. -/
def agent (config : Json) : AgentState where
  managers core := core = .singBox
  processes core := if core = .singBox then some config else none
  snapshots core := if core = .singBox then some ⟨"sing-box", config, ""⟩ else none

/-- The configuration names a file of the domain, and all its paths are short. -/
def Managed (config : Json) : Prop :=
  References dataDir dataDir "example.com" config ∧ ∀ t ∈ config.texts, t.count '/' < 2

instance (config : Json) : Decidable (Managed config) :=
  inferInstanceAs (Decidable (_ ∧ ∀ _ ∈ _, _))

theorem exists_generated : ∃ out,
    (generateNodeConfig PresetUser.gen PresetUser.node .singBox).exec
      (ManagedCertificate.db ManagedCertificate.managed) = .ok out ∧
      Managed out.1 := by
  have heval : ((generateNodeConfig PresetUser.gen PresetUser.node .singBox).exec
      (ManagedCertificate.db ManagedCertificate.managed)).toOption.map
        (fun out => decide (Managed out.1)) = some true := by decide +kernel
  cases hout : (generateNodeConfig PresetUser.gen PresetUser.node .singBox).exec
      (ManagedCertificate.db ManagedCertificate.managed) with
  | error e =>
    rw [hout] at heval
    cases heval
  | ok out =>
    rw [hout] at heval
    exact ⟨out, rfl, of_decide_eq_true (Option.some.inj heval)⟩

/-- The certificate of another domain, which ends as this one does. -/
def other : Json := managedTls "www.example.com"

end ManagedCore

/-- sing-box keeps the old certificate of its managed domain. -/
theorem managed_renewal_restarts_nothing : ¬ ∀ (gen : Hub.GenEnv) (nodeId : Uuid) (db : Db)
    (out : Json × Option String) (workingDir dataDir : Path) (domain : String) (s : AgentState)
    (version : String), (Hub.generateNodeConfig gen nodeId .singBox).exec db = .ok out →
    IsDomainName domain → s.managers .singBox = true →
    s.snapshots .singBox = some ⟨"sing-box", out.1, version⟩ →
    RestartedIfReferenced workingDir dataDir domain s out.1 := by
  intro h
  obtain ⟨out, hout, hreferences, hslashes⟩ := ManagedCore.exists_generated
  have hname : IsDomainName "example.com" := by decide
  have hrestarted := (h _ _ _ out ManagedCore.dataDir ManagedCore.dataDir "example.com"
    (ManagedCore.agent out.1) "" hout hname rfl rfl).mpr hreferences
  have hsnapshot : (ManagedCore.agent out.1).snapshots .singBox =
      some ⟨"sing-box", out.1, ""⟩ := rfl
  exact not_mentions_of_slashes hslashes ((mem_restartsFor_iff hname hsnapshot).mp hrestarted).2

/-- sing-box stays up when the certificate of another domain is renewed. -/
theorem restartedIfReferenced_iff_other :
    RestartedIfReferenced ManagedCore.dataDir ManagedCore.dataDir "example.com"
      (ManagedCore.agent ManagedCore.other) ManagedCore.other := by
  have hsnapshot : (ManagedCore.agent ManagedCore.other).snapshots .singBox =
      some ⟨"sing-box", ManagedCore.other, ""⟩ := rfl
  exact (restartedIfReferenced_iff (by decide) hsnapshot).mpr
    (.inr ⟨fun h => not_mentions_of_slashes (by decide +kernel) h.2, by decide +kernel⟩)

end ProxyPanel.Agent.Renewal
