import ProxyPanel.Hub.SubscriptionAccess

/-!
# The template of a request

A request names a format and perhaps a template.  The name is looked up whatever the format, and
the format as it is spelled.  `Selection` is what the content is made from; `baseConfigFits_iff`
says when its base config is one for the format, `spellingAgnostic_iff` when another spelling
selects the same.
-/

namespace ProxyPanel.Hub.TemplateChoice

open Json Query Subscription

/-! ### Looking up a template -/

/-- The first enabled template that is stored under a format, as it is spelled. -/
def storedUnder (db : Db) (format : String) : Option SubscriptionTemplate :=
  (db.subscriptionTemplates.filter fun t => t.format = format ∧ t.isEnabled).head?

/-- The first enabled template of the name that a request gives. -/
def namedTemplate (db : Db) (name : Option String) : Option SubscriptionTemplate :=
  name.bind fun name => db.subscriptionTemplates.one fun t => t.name = name ∧ t.isEnabled

theorem findTemplateForFormat_eq (db : Db) (format : String) (name : Option String) :
    findTemplateForFormat db format name =
      (namedTemplate db name).or (storedUnder db (Text.toAsciiLowercase format)) := rfl

theorem enabled_of_namedTemplate {db : Db} {name : Option String} {t : SubscriptionTemplate}
    (h : namedTemplate db name = some t) :
    t ∈ db.subscriptionTemplates.rows ∧ t.isEnabled = true := by
  obtain ⟨n, -, h⟩ := Option.bind_eq_some_iff.mp h
  obtain ⟨hmem, hrow⟩ := Table.one_eq_some h
  exact ⟨hmem, (of_decide_eq_true hrow).2⟩

theorem of_storedUnder {db : Db} {format : String} {t : SubscriptionTemplate}
    (h : storedUnder db format = some t) :
    t ∈ db.subscriptionTemplates.rows ∧ t.format = format ∧ t.isEnabled = true := by
  obtain ⟨hmem, hrow⟩ := Table.mem_filter.mp (List.mem_of_head? h)
  exact ⟨hmem, of_decide_eq_true hrow⟩

/-! ### Spellings -/

/-- The spellings of a format, in lower case. -/
def spellings : TargetFormat → List String
  | .base64 => ["base64", "default"]
  | .json => ["json"]
  | .clash => ["clash", "yaml"]
  | .singBox => ["sing-box", "singbox"]
  | .v2rayNg => ["v2rayng"]

theorem fromStr?_eq_some_iff {s : String} {target : TargetFormat} :
    TargetFormat.fromStr? s = some target ↔ Text.toAsciiLowercase s ∈ spellings target := by
  simp only [TargetFormat.fromStr?]
  generalize Text.toAsciiLowercase s = s
  constructor
  · intro h
    split at h
    · rename_i hs
      cases h
      rcases hs with rfl | rfl <;> decide
    split at h
    · rename_i hs
      cases h
      rw [hs]
      decide
    split at h
    · rename_i hs
      cases h
      rcases hs with rfl | rfl <;> decide
    split at h
    · rename_i hs
      cases h
      rcases hs with rfl | rfl <;> decide
    split at h
    · rename_i hs
      cases h
      rw [hs]
      decide
    · cases h
  · intro h
    cases target with
    | base64 =>
      rcases List.mem_cons.mp h with rfl | h
      · rfl
      · cases List.mem_singleton.mp h
        rfl
    | json =>
      cases List.mem_singleton.mp h
      rfl
    | clash =>
      rcases List.mem_cons.mp h with rfl | h
      · rfl
      · cases List.mem_singleton.mp h
        rfl
    | singBox =>
      rcases List.mem_cons.mp h with rfl | h
      · rfl
      · cases List.mem_singleton.mp h
        rfl
    | v2rayNg =>
      cases List.mem_singleton.mp h
      rfl

/-- A spelling in lower case is one already. -/
theorem toAsciiLowercase_spelling {s : String} {target : TargetFormat} (h : s ∈ spellings target) :
    Text.toAsciiLowercase s = s := by
  cases target with
  | base64 => revert s; decide
  | json => revert s; decide
  | clash => revert s; decide
  | singBox => revert s; decide
  | v2rayNg => revert s; decide

/-! ### What the content is made from -/

/-- The arguments of the generator.  Links and descriptions are made without a base config. -/
structure Selection where
  target : TargetFormat
  baseConfig : Option String
  filterRules : Option Json

/-- The base config where the generator looks at it. -/
def usedConfig (target : TargetFormat) (baseConfig : Option String) : Option String :=
  match target with
  | .clash | .singBox => baseConfig
  | _ => none

def selectionOf (chosen : TargetFormat × Option SubscriptionTemplate) : Selection where
  target := chosen.1
  baseConfig := usedConfig chosen.1 (chosen.2.bind (·.baseConfig))
  filterRules := chosen.2.bind (·.filterRules)

/-- What a request selects. -/
def selection (db : Db) (params : AccessParams) (userAgent : Option String) : ApiResult Selection :=
  (targetOf db params (detectSubscriptionFormat params userAgent)).map selectionOf

theorem generateContent_usedConfig (env : AccessEnv) (target : TargetFormat)
    (nodes : List ProxyNode) (baseConfig : Option String) :
    generateContent env target nodes (usedConfig target baseConfig) =
      generateContent env target nodes baseConfig := by
  cases target <;> rfl

/-- The content of a selection. -/
def contentOf (env : AccessEnv) (db : Db) (sub : Subscription) (chosen : Selection) :
    ApiResult Content := do
  let client ← clientOf db sub
  contentFor env db client chosen.filterRules (.ok chosen.target) chosen.baseConfig

theorem contentFor_usedConfig (env : AccessEnv) (db : Db) (client : Client)
    (filterRules : Option Json) (target : TargetFormat) (baseConfig : Option String) :
    contentFor env db client filterRules (.ok target) (usedConfig target baseConfig) =
      contentFor env db client filterRules (.ok target) baseConfig := by
  rw [contentFor, contentFor]
  cases ((buildProxyNodes env.substitute client filterRules).exec db).mapError fun _ =>
    ApiError.internal "database operation failed" with
  | error e => rfl
  | ok nodes =>
    exact congrArg (Except.mapError fun e : PanelError =>
      ApiError.internal ("subscription generation failed: " ++ e.toStr))
      (generateContent_usedConfig env target nodes baseConfig)

/-- **The content is made from the selection.** -/
theorem respond_eq (env : AccessEnv) (db : Db) (sub : Subscription) (params : AccessParams)
    (userAgent : Option String) : (respond env db sub params userAgent).map (·.body) =
      (selection db params userAgent >>= contentOf env db sub).map (·.text) := by
  rw [respond, selection]
  cases targetOf db params (detectSubscriptionFormat params userAgent) with
  | error e => rfl
  | ok chosen =>
    obtain ⟨target, template⟩ := chosen
    change Except.map _ (clientOf db sub >>= _) = Except.map _ (clientOf db sub >>= _)
    cases clientOf db sub with
    | error e => rfl
    | ok client =>
      have hcontent := contentFor_usedConfig env db client (template.bind (·.filterRules)) target
        (template.bind (·.baseConfig))
      change Except.map _ (contentFor env db client _ _ _ >>= _) = Except.map _ (contentFor env db
        client (template.bind (·.filterRules)) (.ok target)
          (usedConfig target (template.bind (·.baseConfig))))
      rw [hcontent]
      cases contentFor env db client (template.bind (·.filterRules)) (.ok target)
        (template.bind (·.baseConfig)) <;> rfl

/-! ### Base config and format -/

/-- The base config of a request is that of an enabled template of the format. -/
def BaseConfigFits (db : Db) (params : AccessParams) (userAgent : Option String) : Prop :=
  ∀ target template base,
    targetOf db params (detectSubscriptionFormat params userAgent) = .ok (target, template) →
    template.bind (·.baseConfig) = some base → ∃ t, template = some t ∧
      t ∈ db.subscriptionTemplates.rows ∧ t.isEnabled = true ∧
      TargetFormat.fromStr? t.format = some target

/-- A template that is asked for by name is one of the format, or has no base config. -/
def NameFits (db : Db) (name : Option String) (format : String) : Prop :=
  ∀ target t base, TargetFormat.fromStr? format = some target → namedTemplate db name = some t →
    t.baseConfig = some base → TargetFormat.fromStr? t.format = some target

section Choice

variable {db : Db} {userAgent : Option String} {format : String} {target : TargetFormat}

theorem targetOf_of_named (params : AccessParams) {t : SubscriptionTemplate}
    (h : TargetFormat.fromStr? format = some target)
    (hnamed : namedTemplate db params.template = some t) :
    targetOf db params format = .ok (target, some t) := by
  simp only [targetOf, h, findTemplateForFormat_eq, hnamed, Option.some_or]

theorem targetOf_of_stored (params : AccessParams) {t : SubscriptionTemplate}
    (h : TargetFormat.fromStr? format = some target)
    (hnamed : namedTemplate db params.template = none)
    (hstored : storedUnder db (Text.toAsciiLowercase format) = some t) :
    targetOf db params format = .ok (target, some t) := by
  simp only [targetOf, h, findTemplateForFormat_eq, hnamed, Option.none_or, hstored]

theorem targetOf_of_none (params : AccessParams) (h : TargetFormat.fromStr? format = some target)
    (hnamed : namedTemplate db params.template = none)
    (hstored : storedUnder db (Text.toAsciiLowercase format) = none) :
    targetOf db params format =
      .ok (if target = .base64 then (target, none) else (.base64, storedUnder db "base64")) := by
  have hbase : Text.toAsciiLowercase "base64" = "base64" := by decide
  simp only [targetOf, h, findTemplateForFormat_eq, hnamed, Option.none_or, hstored, hbase]
  by_cases htarget : target = .base64
  · rw [if_neg (not_not.mpr htarget), if_pos htarget]
  · rw [if_pos htarget, if_neg htarget]

/-- What is stored under a spelling is of the format. -/
theorem fromStr?_of_storedUnder {s : String} {t : SubscriptionTemplate} (hs : s ∈ spellings target)
    (h : storedUnder db s = some t) : TargetFormat.fromStr? t.format = some target := by
  rw [(of_storedUnder h).2.1]
  exact fromStr?_eq_some_iff.mpr (by rwa [toAsciiLowercase_spelling hs])

theorem baseConfigFits_iff {params : AccessParams} : BaseConfigFits db params userAgent ↔
    NameFits db params.template (detectSubscriptionFormat params userAgent) := by
  generalize hformat : detectSubscriptionFormat params userAgent = format
  constructor
  · intro h target t base htarget hnamed hbase
    obtain ⟨t', ht', -, -, hfits⟩ := h target (some t) base
      (hformat ▸ targetOf_of_named params htarget hnamed) hbase
    cases ht'
    exact hfits
  · intro h target template base hchosen hbase
    rw [hformat] at hchosen
    cases hparse : TargetFormat.fromStr? format with
    | none =>
      rw [targetOf, hparse] at hchosen
      cases hchosen
    | some requested =>
      cases hnamed : namedTemplate db params.template with
      | some t =>
        rw [targetOf_of_named params hparse hnamed] at hchosen
        cases hchosen
        obtain ⟨hmem, henabled⟩ := enabled_of_namedTemplate hnamed
        exact ⟨t, rfl, hmem, henabled, h _ t base hparse hnamed hbase⟩
      | none =>
        cases hstored : storedUnder db (Text.toAsciiLowercase format) with
        | some t =>
          rw [targetOf_of_stored params hparse hnamed hstored] at hchosen
          cases hchosen
          obtain ⟨hmem, -, henabled⟩ := of_storedUnder hstored
          exact ⟨t, rfl, hmem, henabled,
            fromStr?_of_storedUnder (fromStr?_eq_some_iff.mp hparse) hstored⟩
        | none =>
          rw [targetOf_of_none params hparse hnamed hstored] at hchosen
          by_cases hbase64 : requested = .base64
          · rw [if_pos hbase64] at hchosen
            cases hchosen
            cases hbase
          · rw [if_neg hbase64] at hchosen
            cases hchosen
            obtain ⟨t, ht, -⟩ := Option.bind_eq_some_iff.mp hbase
            obtain ⟨hmem, -, henabled⟩ := of_storedUnder ht
            exact ⟨t, ht, hmem, henabled, fromStr?_of_storedUnder (.head _) ht⟩

/-! ### Spelling -/

/-- Requests that spell one format differently select the same. -/
def SpellingAgnostic (db : Db) (name : Option String) (target : TargetFormat) : Prop :=
  ∀ s s' userAgent, TargetFormat.fromStr? s = some target → TargetFormat.fromStr? s' = some target →
    selection db ⟨some s, name⟩ userAgent = selection db ⟨some s', name⟩ userAgent

/-- Templates, or the want of one, that serve a format alike.  Links do without a template. -/
structure Interchangeable (target : TargetFormat) (a b : Option SubscriptionTemplate) : Prop where
  found : target = .base64 ∨ a.isSome = b.isSome
  baseConfig : usedConfig target (a.bind (·.baseConfig)) = usedConfig target (b.bind (·.baseConfig))
  filterRules : a.bind (·.filterRules) = b.bind (·.filterRules)

/-- A template is asked for by name, or those of the spellings are interchangeable. -/
def SpellingsAgree (db : Db) (name : Option String) (target : TargetFormat) : Prop :=
  (namedTemplate db name).isSome = true ∨ ∀ s ∈ spellings target, ∀ s' ∈ spellings target,
    Interchangeable target (storedUnder db s) (storedUnder db s')

/-- What is selected without a name. -/
def unnamedSelection (db : Db) (target : TargetFormat) (stored : Option SubscriptionTemplate) :
    Selection :=
  match stored with
  | some t => selectionOf (target, some t)
  | none => selectionOf (if target = .base64 then (target, none) else (.base64, storedUnder db "base64"))

theorem selection_of_unnamed {s : String} {name : Option String}
    (hs : Text.toAsciiLowercase s ∈ spellings target) (hnamed : namedTemplate db name = none) :
    selection db ⟨some s, name⟩ userAgent =
      .ok (unnamedSelection db target (storedUnder db (Text.toAsciiLowercase s))) := by
  have hlower := toAsciiLowercase_spelling hs
  have hparse : TargetFormat.fromStr? (Text.toAsciiLowercase s) = some target :=
    fromStr?_eq_some_iff.mpr (by rwa [hlower])
  rw [selection, detectSubscriptionFormat]
  cases hstored : storedUnder db (Text.toAsciiLowercase s) with
  | some t =>
    rw [targetOf_of_stored ⟨some s, name⟩ hparse hnamed (by rw [hlower, hstored])]
    rfl
  | none =>
    rw [targetOf_of_none ⟨some s, name⟩ hparse hnamed (by rw [hlower, hstored])]
    rfl

theorem interchangeable_iff (db : Db) {a b : Option SubscriptionTemplate} :
    Interchangeable target a b ↔ unnamedSelection db target a = unnamedSelection db target b := by
  constructor
  · rintro ⟨hfound, hbase, hfilter⟩
    cases a with
    | some t =>
      cases b with
      | some t' => exact congrArg₂ (Selection.mk target) hbase hfilter
      | none =>
        rcases hfound with rfl | hfound
        · exact congrArg (Selection.mk .base64 none) hfilter
        · cases hfound
    | none =>
      cases b with
      | some t' =>
        rcases hfound with rfl | hfound
        · exact congrArg (Selection.mk .base64 none) hfilter
        · cases hfound
      | none => rfl
  · intro h
    have hnone : ∀ {t : SubscriptionTemplate}, unnamedSelection db target (some t) =
        unnamedSelection db target none → Interchangeable target (some t) none := by
      intro t h
      by_cases htarget : target = .base64
      · subst htarget
        exact ⟨.inl rfl, rfl, congrArg Selection.filterRules h⟩
      · have hsame := congrArg Selection.target h
        rw [unnamedSelection, unnamedSelection, if_neg htarget] at hsame
        exact absurd hsame htarget
    cases a with
    | some t =>
      cases b with
      | some t' =>
        exact ⟨.inr rfl, congrArg Selection.baseConfig h, congrArg Selection.filterRules h⟩
      | none => exact hnone h
    | none =>
      cases b with
      | some t' =>
        obtain ⟨hfound, hbase, hfilter⟩ := hnone h.symm
        exact ⟨hfound.imp_right Eq.symm, hbase.symm, hfilter.symm⟩
      | none => exact ⟨.inr rfl, rfl, rfl⟩

theorem spellingAgnostic_iff {name : Option String} :
    SpellingAgnostic db name target ↔ SpellingsAgree db name target := by
  cases hnamed : namedTemplate db name with
  | some t =>
    refine iff_of_true (fun s s' userAgent hs hs' => ?_) (.inl (by rw [hnamed]; rfl))
    have hselected : ∀ s, TargetFormat.fromStr? s = some target →
        selection db ⟨some s, name⟩ userAgent = .ok (selectionOf (target, some t)) := by
      intro s hs
      have hspelling := fromStr?_eq_some_iff.mp hs
      have hparse : TargetFormat.fromStr? (Text.toAsciiLowercase s) = some target :=
        fromStr?_eq_some_iff.mpr (by rwa [toAsciiLowercase_spelling hspelling])
      rw [selection, detectSubscriptionFormat, targetOf_of_named ⟨some s, name⟩ hparse hnamed]
      rfl
    rw [hselected s hs, hselected s' hs']
  | none =>
    constructor
    · intro h
      refine .inr fun s hs s' hs' => (interchangeable_iff db).mpr ?_
      have hlower := toAsciiLowercase_spelling hs
      have hlower' := toAsciiLowercase_spelling hs'
      have hsame := h s s' none (fromStr?_eq_some_iff.mpr (by rwa [hlower]))
        (fromStr?_eq_some_iff.mpr (by rwa [hlower']))
      rw [selection_of_unnamed (by rwa [hlower]) hnamed,
        selection_of_unnamed (by rwa [hlower']) hnamed, hlower, hlower'] at hsame
      exact Except.ok.inj hsame
    · rintro h s s' userAgent hs hs'
      have hagree := h.resolve_left (by rw [hnamed]; exact Bool.false_ne_true)
      have hspelling := fromStr?_eq_some_iff.mp hs
      have hspelling' := fromStr?_eq_some_iff.mp hs'
      rw [selection_of_unnamed hspelling hnamed, selection_of_unnamed hspelling' hnamed]
      exact congrArg Except.ok ((interchangeable_iff db).mp (hagree _ hspelling _ hspelling'))

/-! ### The result -/

/-- The content does not depend on how the format is spelled. -/
def SameContent (db : Db) (name : Option String) (target : TargetFormat) : Prop :=
  ∀ env sub s s' userAgent, TargetFormat.fromStr? s = some target →
    TargetFormat.fromStr? s' = some target →
    (respond env db sub ⟨some s, name⟩ userAgent).map (·.body) =
      (respond env db sub ⟨some s', name⟩ userAgent).map (·.body)

/-- **Template and format.**  The base config is one for the format exactly when a template
asked for by name is; another spelling of the format selects the same exactly when the
templates stored under the spellings serve it alike, and then the content is the same. -/
theorem template_matches_iff (db : Db) (params : AccessParams) (userAgent : Option String) :
    (BaseConfigFits db params userAgent ↔
      NameFits db params.template (detectSubscriptionFormat params userAgent)) ∧
    (∀ target, SpellingAgnostic db params.template target ↔
      SpellingsAgree db params.template target) ∧
    ∀ target, SpellingsAgree db params.template target → SameContent db params.template target := by
  refine ⟨baseConfigFits_iff, fun target => spellingAgnostic_iff, fun target h => ?_⟩
  intro env sub s s' userAgent' hs hs'
  rw [respond_eq, respond_eq, spellingAgnostic_iff.mpr h s s' userAgent' hs hs']

end Choice

namespace Yaml

/-- The only template is one for Clash. -/
def template : SubscriptionTemplate := ⟨"t", "mine", "clash", some "base", none, true, false, none⟩

def db : Db :=
  { Revoked.db none "active" none with
    subscriptionTemplates := .single template }

/-- The text tells the format. -/
def env : AccessEnv :=
  { Revoked.env with render := fun format _ _ _ => .ok (if format = .clash then "proxies:" else "") }

def sub : Subscription := ⟨.ofNat 23, ManualReset.client.id, "k", "/sub/k", none, true, none⟩

def served (format name : Option String) : Option String :=
  ((respond env db sub ⟨format, name⟩ none).toOption).map (·.body)

theorem served_clash : served (some "clash") none = some "proxies:" := by decide

theorem served_yaml : served (some "yaml") none = some "" := by decide

end Yaml

/-- The alias of a format finds no template, and a name finds one of another format. -/
theorem yaml_is_not_clash :
    (¬ ∀ (db : Db) (name : Option String) (target : TargetFormat), SameContent db name target) ∧
      ¬ ∀ (db : Db) (params : AccessParams) (userAgent : Option String),
        BaseConfigFits db params userAgent := by
  constructor
  · intro h
    have hsame := h Yaml.db none .clash Yaml.env Yaml.sub "clash" "yaml" none (by decide)
      (by decide)
    have hbody : Yaml.served (some "clash") none = Yaml.served (some "yaml") none := by
      have hoption := congrArg Except.toOption hsame
      revert hoption
      simp only [Yaml.served]
      cases respond Yaml.env Yaml.db Yaml.sub ⟨some "clash", none⟩ none <;>
        cases respond Yaml.env Yaml.db Yaml.sub ⟨some "yaml", none⟩ none <;> exact id
    rw [Yaml.served_clash, Yaml.served_yaml] at hbody
    exact absurd hbody (by decide)
  · intro h
    have hchosen : targetOf Yaml.db ⟨some "sing-box", some "mine"⟩ "sing-box" =
        .ok (.singBox, some Yaml.template) :=
      targetOf_of_named ⟨some "sing-box", some "mine"⟩ (by decide) rfl
    have hlower : detectSubscriptionFormat ⟨some "sing-box", some "mine"⟩ none = "sing-box" := by
      decide
    obtain ⟨t, ht, -, -, hfits⟩ := h Yaml.db ⟨some "sing-box", some "mine"⟩ none .singBox
      (some Yaml.template) "base" (hlower ▸ hchosen) rfl
    cases ht
    exact absurd hfits (by decide)

end ProxyPanel.Hub.TemplateChoice
