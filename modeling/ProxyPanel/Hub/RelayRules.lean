import ProxyPanel.Config.RelayHop
import ProxyPanel.Hub.CoreVersions

/-!
# Relay rules

A relay rule of a node routes some domains to the inbound of another node's
binding.  Applying it adds an outbound and routing entries to the generated
configuration.  `get_applyRelayRules` says that it leaves the inbounds alone.
-/

namespace ProxyPanel.Hub

open Json Query

/-- What a rule matches, for one core. -/
inductive MatchSpec where
  | inline (domains suffixes : List String)
  /-- `extra` is the format (sing-box) or the behavior (mihomo). -/
  | ruleSet (url extra : String)

/-- Name, sing-box URL and format, mihomo URL and behavior. -/
def ruleSetLibrary : List (String × String × String × String × String) :=
  ["netflix", "disney", "openai", "youtube", "tiktok", "hbo", "primevideo"].map fun name =>
    (name,
      "https://raw.githubusercontent.com/SagerNet/sing-geosite/rule-set/geosite-" ++ name ++ ".srs",
      "binary",
      "https://raw.githubusercontent.com/MetaCubeX/meta-rules-dat/meta/geo/geosite/" ++ name ++
        ".yaml",
      "classical")

def libraryLookup (name : String) : Option (String × String × String × String × String) :=
  ruleSetLibrary.find? (fun e => e.1 = name)

/-- The non-empty strings of an array. -/
def strList (v : Option Json) : List String :=
  (((v.bind asArray).getD []).filterMap asStr).filter (fun s => s ≠ "")

def matchSpec (rule : RelayRule) (coreType : CoreType) : Option MatchSpec :=
  let cfg := rule.matchConfig
  if rule.matchType = "inline" then
    let domains := strList (cfg.get "domains")
    let suffixes := strList (cfg.get "domain_suffixes")
    if domains = [] ∧ suffixes = [] then none else some (.inline domains suffixes)
  else
    match cfg.getStr "library" with
    | some lib =>
      (libraryLookup lib).map fun e =>
        match coreType with
        | .singBox => .ruleSet e.2.1 e.2.2.1
        | .mihomo => .ruleSet e.2.2.2.1 e.2.2.2.2
    | none => do
      let custom ← cfg.get "custom"
      let (keyUrl, keyExtra, extra) := match coreType with
        | .singBox => ("singbox", "format", "binary")
        | .mihomo => ("mihomo", "behavior", "domain")
      let url ← (custom.get keyUrl).bind (·.getStr "url")
      return .ruleSet url (((custom.get keyUrl).bind (·.getStr keyExtra)).getD extra)

/-- `k` holds an array, an empty one if it held none before. -/
def ensureArr (j : Json) (k : String) : Json :=
  if ((j.get k).map isArray).getD false then j else j.setIndex k (arr [])

def ensureObj (j : Json) (k : String) : Json :=
  if ((j.get k).map isObject).getD false then j else j.setIndex k (mkObj [])

def applySingboxRelayRule (config : Json) (tag rsTag : String) (rule : RelayRule) : Json :=
  match matchSpec rule .singBox with
  | some (.inline domains suffixes) =>
    let r := mkObj [("outbound", str tag)]
    let r := if domains = [] then r else r.setIndex "domain" (Builder.strs domains)
    let r := if suffixes = [] then r else r.setIndex "domain_suffix" (Builder.strs suffixes)
    config.modify "route" (·.modify "rules" (·.push r))
  | some (.ruleSet url extra) =>
    config.modify "route" fun route =>
      ((ensureArr route "rule_set").modify "rule_set" (·.push (mkObj [("type", str "remote"),
        ("tag", str rsTag), ("format", str extra), ("url", str url)]))).modify "rules"
        (·.push (mkObj [("rule_set", Builder.strs [rsTag]), ("outbound", str tag)]))
  | none => config

/-- A rule in front of the final `MATCH`. -/
def insertRule (config : Json) (entry : String) : Json :=
  config.modify "rules" fun
    | arr rules =>
      let pos := rules.findIdx (fun r => match r.asStr with
        | some s => Text.startsWith s "MATCH"
        | none => false)
      arr (rules.take pos ++ str entry :: rules.drop pos)
    | j => j

def applyMihomoRelayRule (config : Json) (tag rsTag : String) (rule : RelayRule) : Json :=
  match matchSpec rule .mihomo with
  | some (.inline domains suffixes) =>
    let config := domains.foldl (fun c d => insertRule c ("DOMAIN," ++ d ++ ", " ++ tag)) config
    suffixes.foldl (fun c s => insertRule c ("DOMAIN-SUFFIX," ++ s ++ ", " ++ tag)) config
  | some (.ruleSet url extra) =>
    let config := (ensureObj config "rule-providers").modify "rule-providers"
      (·.setIndex rsTag (mkObj [("type", str "http"), ("behavior", str extra),
        ("format", str "yaml"), ("url", str url), ("path", str ("./ruleset/" ++ rsTag ++ ".yaml"))]))
    insertRule config ("RULE-SET," ++ rsTag ++ ", " ++ tag)
  | none => config

/-- The outbound of a rule and its routing entries, in the format of a core. -/
def addRelay (coreType : CoreType) (config : Json) (tag rsTag : String) (rule : RelayRule)
    (outbound : Json) : Json :=
  match coreType with
  | .singBox =>
    applySingboxRelayRule (config.modify "outbounds" (·.push outbound)) tag rsTag rule
  | .mihomo =>
    applyMihomoRelayRule ((ensureArr config "proxies").modify "proxies" (·.push outbound))
      tag rsTag rule

/-- The server name for a relay exit: the domain of the managed certificate of
the binding's TLS override, else its `domain`. -/
def resolveRelaySni (binding : NodeBinding) : Program (Option String) :=
  match binding.overrideSettings.bind (·.get "tls_settings") with
  | none => return none
  | some tls => do
    let domain := (tls.getStr "domain").filter (fun s => s ≠ "")
    match (tls.getStr "cert_id").bind Uuid.parse with
    | none => return domain
    | some certId =>
      match ← read (·.certificates.find certId) with
      | some cert => return some cert.domain
      | none => return domain

/-- One rule.  A rule whose exit is gone or has an unknown protocol is skipped. -/
def applyRelayRule (coreType : CoreType) (config : Json) (rule : RelayRule) : Program Json := do
  let tag := "relay-" ++ rule.id.short
  let rsTag := "rs-" ++ rule.id.short
  match ← read (·.nodeBindings.find rule.exitBindingId) with
  | none => return config
  | some binding =>
  match ← read (·.protocolConfigs.find binding.protocolConfigId) with
  | none => return config
  | some exitCfg =>
  match ← read (·.nodes.find binding.nodeId) with
  | none => return config
  | some exitNode =>
  match ProtocolType.fromStr? exitCfg.protocolType with
  | none => return config
  | some protocol =>
    let tlsSni ← resolveRelaySni binding
    let hop : RelayHop := {
      tag, protocol
      settings := exitCfg.settings
      server := exitNode.domain.getD exitNode.address
      port := (exitCfg.listenPort % 65536).toNat
      credential := rule.relayClientId.toStr
      tlsSni }
    let outbound ← lift (hop.build coreType)
    return addRelay coreType config tag rsTag rule outbound

/-- The relay rules of a node applied to its generated configuration. -/
def applyRelayRules (nodeId : Uuid) (coreType : CoreType) (config : Json) : Program Json := do
  let rules ← read (·.relayRules.filter (fun r => r.nodeId = nodeId ∧ r.enabled))
  loop (applyRelayRule coreType) config rules

/-! ### What a rule leaves alone -/

/-- The keys of a configuration that relay rules write. -/
def relayKeys : CoreType → List String
  | .singBox => ["outbounds", "route"]
  | .mihomo => ["proxies", "rules", "rule-providers"]

theorem get_ensureArr_of_ne (j : Json) {k k' : String} (h : k' ≠ k) :
    (ensureArr j k).get k' = j.get k' := by
  rw [ensureArr]
  split
  · rfl
  · exact get_setIndex_of_ne j h _

theorem get_ensureObj_of_ne (j : Json) {k k' : String} (h : k' ≠ k) :
    (ensureObj j k).get k' = j.get k' := by
  rw [ensureObj]
  split
  · rfl
  · exact get_setIndex_of_ne j h _

theorem get_foldl_insertRule (entry : String → String) (ds : List String) (config : Json)
    {k : String} (h : k ≠ "rules") :
    (ds.foldl (fun c d => insertRule c (entry d)) config).get k = config.get k := by
  induction ds generalizing config with
  | nil => rfl
  | cons d ds ih => rw [List.foldl_cons, ih, insertRule, get_modify_of_ne _ h]

theorem get_addRelay {coreType : CoreType} {k : String} (h : k ∉ relayKeys coreType)
    (config : Json) (tag rsTag : String) (rule : RelayRule) (outbound : Json) :
    (addRelay coreType config tag rsTag rule outbound).get k = config.get k := by
  cases coreType with
  | singBox =>
    simp only [relayKeys, List.mem_cons, List.not_mem_nil, or_false, not_or] at h
    rw [addRelay, applySingboxRelayRule]
    split
    · rw [get_modify_of_ne _ h.2, get_modify_of_ne _ h.1]
    · rw [get_modify_of_ne _ h.2, get_modify_of_ne _ h.1]
    · rw [get_modify_of_ne _ h.1]
  | mihomo =>
    simp only [relayKeys, List.mem_cons, List.not_mem_nil, or_false, not_or] at h
    obtain ⟨hproxies, hrules, hproviders⟩ := h
    rw [addRelay, applyMihomoRelayRule]
    split
    · simp only
      rw [get_foldl_insertRule (fun s => "DOMAIN-SUFFIX," ++ s ++ ", " ++ tag) _ _ hrules,
        get_foldl_insertRule (fun d => "DOMAIN," ++ d ++ ", " ++ tag) _ _ hrules,
        get_modify_of_ne _ hproxies, get_ensureArr_of_ne _ hproxies]
    · simp only
      rw [insertRule, get_modify_of_ne _ hrules, get_modify_of_ne _ hproviders,
        get_ensureObj_of_ne _ hproviders, get_modify_of_ne _ hproxies,
        get_ensureArr_of_ne _ hproxies]
    · rw [get_modify_of_ne _ hproxies, get_ensureArr_of_ne _ hproxies]

theorem get_applyRelayRule {coreType : CoreType} {k : String} (h : k ∉ relayKeys coreType)
    {config config' : Json} {rule : RelayRule} {db : Db}
    (hrun : (applyRelayRule coreType config rule).exec db = .ok config') :
    config'.get k = config.get k := by
  simp only [applyRelayRule, exec_read_bind] at hrun
  split at hrun
  · cases hrun; rfl
  simp only [exec_read_bind] at hrun
  split at hrun
  · cases hrun; rfl
  simp only [exec_read_bind] at hrun
  split at hrun
  · cases hrun; rfl
  split at hrun
  · cases hrun; rfl
  rw [exec_bind] at hrun
  obtain ⟨sni, _, hrun⟩ := Except.bind_eq_ok hrun
  rw [exec_bind, exec_lift] at hrun
  obtain ⟨outbound, _, hrun⟩ := Except.bind_eq_ok hrun
  cases hrun
  exact get_addRelay h _ _ _ _ _

/-- **Relay rules leave the rest of the configuration alone**, its inbounds in
particular. -/
theorem get_applyRelayRules {nodeId : Uuid} {coreType : CoreType} {k : String}
    (h : k ∉ relayKeys coreType) {config config' : Json} {db : Db}
    (hrun : (applyRelayRules nodeId coreType config).exec db = .ok config') :
    config'.get k = config.get k := by
  rw [applyRelayRules, exec_bind, exec_read] at hrun
  exact exec_loop_inv (P := fun c => c.get k = config.get k)
    (fun rule _ c c' hc hstep => (get_applyRelayRule h hstep).trans hc) rfl hrun

end ProxyPanel.Hub
