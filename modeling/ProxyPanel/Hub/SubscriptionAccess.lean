import ProxyPanel.Hub.PeriodicChecks
import ProxyPanel.Hub.ProxyNodes

/-!
# The public subscription endpoints

`serve_subscription` and `serve_subscription_qr` answer whoever knows a token.
Both look at `is_active`, and `build_proxy_nodes` looks at two values of the status of the
client; `expire_at` and `expiry_date` are read by neither.  An expiry date acts through
the status, which the periodic checks set.

`granted_of_emits` says what a response with a node implies, `emits_qr` that the
QR endpoint asks for nothing else.
-/

namespace ProxyPanel

namespace Hub

open Json Query Subscription

/-! ### Formats -/

/-- The formats a request may name. -/
inductive TargetFormat where
  | base64
  | json
  | clash
  | singBox
  | v2rayNg
  deriving DecidableEq, Repr

namespace TargetFormat

def fromStr? (s : String) : Option TargetFormat :=
  let s := Text.toAsciiLowercase s
  if s = "base64" ∨ s = "default" then some base64
  else if s = "json" then some json
  else if s = "clash" ∨ s = "yaml" then some clash
  else if s = "sing-box" ∨ s = "singbox" then some singBox
  else if s = "v2rayng" then some v2rayNg
  else none

def contentType : TargetFormat → String
  | json | singBox | v2rayNg => "application/json"
  | clash => "application/x-yaml"
  | base64 => "text/plain; charset=utf-8"

end TargetFormat

/-- A node as a subscription writes it. -/
inductive Written where
  | output (value : Output)
  | description (value : Json)

/-- The text of a subscription and the nodes it was made from. -/
structure Content where
  written : List Written
  text : String

/-- What comes from other crates: the template engine of each format, JSON text, and
the QR code of a text as an SVG image. -/
structure AccessEnv where
  render : SubscriptionFormat → Option String → List Output → List String → PanelResult String
  pretty : Json → String
  qrCode : String → Except String String
  substitute : Substitution

/-- The generic description of a node. -/
def describe (node : ProxyNode) : Json :=
  mkObj [("type", str node.protocol.toStr), ("tag", str node.name), ("server", str node.server),
    ("server_port", num node.port), ("settings", node.settings)]

/-- The nodes in one of the formats of proxy software. -/
def writeNodes (env : AccessEnv) (format : SubscriptionFormat) (baseConfig : Option String)
    (nodes : List ProxyNode) : PanelResult Content := do
  let supported := nodes.filter fun n => isSupported format n.protocol
  let outputs ← supported.mapM (emit format)
  return ⟨outputs.map .output, ← env.render format baseConfig outputs (supported.map (·.name))⟩

/-- `generate_subscription`.  Links have no template. -/
def generateContent (env : AccessEnv) (format : TargetFormat) (nodes : List ProxyNode)
    (baseConfig : Option String) : PanelResult Content :=
  match format with
  | .base64 | .v2rayNg => writeNodes env .base64 none nodes
  | .clash => writeNodes env .clash baseConfig nodes
  | .singBox => writeNodes env .singBox baseConfig nodes
  | .json => .ok ⟨nodes.map fun n => .description (describe n), env.pretty (arr (nodes.map describe))⟩

/-! ### Requests -/

/-- The query of a request. -/
structure AccessParams where
  format : Option String
  template : Option String

structure AccessResponse where
  contentType : String
  userinfo : Option String
  written : List Written
  body : String

/-- Format of the request: the parameter, else a guess from the user agent. -/
def detectSubscriptionFormat (params : AccessParams) (userAgent : Option String) : String :=
  match params.format with
  | some format => Text.toAsciiLowercase format
  | none =>
    let ua := Text.toAsciiLowercase (userAgent.getD "")
    if Text.contains ua "clash" ∨ Text.contains ua "mihomo" then "clash"
    else if Text.contains ua "sing-box" ∨ Text.contains ua "singbox" then "sing-box"
    else if Text.contains ua "v2rayng" ∨ Text.contains ua "v2ray" then "v2rayng"
    else "base64"

/-- The enabled template of a name, else the first enabled one of the format. -/
def findTemplateForFormat (db : Db) (format : String) (templateName : Option String) :
    Option SubscriptionTemplate :=
  let named := templateName.bind fun name =>
    db.subscriptionTemplates.one fun t => t.name = name ∧ t.isEnabled
  named.or (db.subscriptionTemplates.filter fun t => t.format = Text.toAsciiLowercase format ∧ t.isEnabled).head?

/-- Format and template of a request; base64 when no template of the format is enabled. -/
def targetOf (db : Db) (params : AccessParams) (format : String) :
    ApiResult (TargetFormat × Option SubscriptionTemplate) :=
  match TargetFormat.fromStr? format with
  | none => .error (.badRequest "invalid_format" "unknown subscription format")
  | some target =>
    match findTemplateForFormat db format params.template with
    | some template => .ok (target, some template)
    | none =>
      if target ≠ .base64 then .ok (.base64, findTemplateForFormat db "base64" params.template)
      else .ok (target, none)

def formatUserinfoHeader (client : Client) : String :=
  let upload := toString client.trafficUsedBytes
  let expire := (client.expiryDate.map (·.timestamp)).getD 0
  "upload=" ++ upload ++ "; download=" ++ upload ++ "; total=" ++ toString client.trafficLimitBytes ++
    "; expire=" ++ toString expire

def subscriptionOf (db : Db) (token : String) : ApiResult Subscription :=
  match db.subscriptions.one (·.token = token) with
  | some sub => .ok sub
  | none => .error (.notFound "subscription not found")

/-- The subscription of a token, when it may be used. -/
def activeSubscription (db : Db) (token : String) : ApiResult Subscription := do
  let sub ← subscriptionOf db token
  if sub.isActive then .ok sub
  else .error ⟨403, "subscription_inactive", "subscription is inactive"⟩

/-- The time of the access is noted; whether that works is not looked at. -/
def touch (works : Bool) (now : DateTime) (sub : Subscription) (db : Db) : Db :=
  if works then
    { db with subscriptions := db.subscriptions.update sub.id fun r =>
      { r with lastAccessedAt := some now } }
  else db

/-- The content of a subscription for a client. -/
def contentFor (env : AccessEnv) (db : Db) (client : Client) (filterRules : Option Json)
    (target : ApiResult TargetFormat) (baseConfig : Option String) : ApiResult Content := do
  let nodes ← ((buildProxyNodes env.substitute client filterRules).exec db).mapError fun _ =>
    .internal "database operation failed"
  let format ← target
  (generateContent env format nodes baseConfig).mapError fun e =>
    .internal ("subscription generation failed: " ++ e.toStr)

/-- The client of a subscription. -/
def clientOf (db : Db) (sub : Subscription) : ApiResult Client :=
  match db.clients.find sub.clientId with
  | some client => .ok client
  | none => .error (.notFound "client not found")

/-- What `serve_subscription` answers once the access is noted. -/
def respond (env : AccessEnv) (db : Db) (sub : Subscription) (params : AccessParams)
    (userAgent : Option String) : ApiResult AccessResponse := do
  let (target, template) ← targetOf db params (detectSubscriptionFormat params userAgent)
  let client ← clientOf db sub
  let content ← contentFor env db client (template.bind (·.filterRules)) (.ok target)
    (template.bind (·.baseConfig))
  return ⟨target.contentType, some (formatUserinfoHeader client), content.written, content.text⟩

def serveSubscription (env : AccessEnv) (works : Bool) (now : DateTime) (token : String)
    (params : AccessParams) (userAgent : Option String) (db : Db) : ApiResult AccessResponse × Db :=
  match activeSubscription db token with
  | .error e => (.error e, db)
  | .ok sub => (respond env (touch works now sub db) sub params userAgent, touch works now sub db)

/-- The subscription is read a second time; whether it is active was settled by then. -/
def buildSubscriptionLink (env : AccessEnv) (db : Db) (token format : String) :
    ApiResult Content := do
  let sub ← subscriptionOf db token
  let client ← clientOf db sub
  contentFor env db client none
    (match TargetFormat.fromStr? format with
      | some target => .ok target
      | none => .error (.badRequest "invalid_format" "unknown subscription format")) none

/-- The QR code of a content. -/
def qrResponse (env : AccessEnv) (content : Content) : ApiResult AccessResponse :=
  match env.qrCode content.text with
  | .ok svg => .ok ⟨"image/svg+xml", none, content.written, svg⟩
  | .error e => .error (.internal ("failed to generate QR code: " ++ e))

def serveSubscriptionQr (env : AccessEnv) (works : Bool) (now : DateTime) (token : String)
    (params : AccessParams) (db : Db) : ApiResult AccessResponse × Db :=
  match activeSubscription db token with
  | .error e => (.error e, db)
  | .ok sub =>
    let db := touch works now sub db
    (buildSubscriptionLink env db token (params.format.getD "base64") >>= qrResponse env, db)

/-! ### What a response implies -/

/-- The nodes of an answer; an error has none. -/
def writtenBy : ApiResult AccessResponse → List Written
  | .ok response => response.written
  | .error _ => []

/-- The answer has a proxy node. -/
def Emits (r : ApiResult AccessResponse) : Prop := (writtenBy r).isEmpty = false

instance (r : ApiResult AccessResponse) : Decidable (Emits r) := inferInstanceAs (Decidable (_ = _))

/-- What both endpoints look at. -/
structure Granted (db : Db) (token : String) (sub : Subscription) (client : Client) : Prop where
  found : db.subscriptions.one (·.token = token) = some sub
  active : sub.isActive = true
  owner : db.clients.find sub.clientId = some client
  notLimited : client.status ≠ "limited"
  notExpired : client.status ≠ "expired"

theorem emits_iff {r : ApiResult AccessResponse} :
    Emits r ↔ ∃ response, r = .ok response ∧ response.written ≠ [] := by
  cases r with
  | error e =>
    refine iff_of_false (fun h => by cases h) ?_
    rintro ⟨_, h, _⟩
    cases h
  | ok response =>
    constructor
    · intro h
      exact ⟨response, rfl, fun hnil => by rw [Emits, writtenBy, hnil] at h; cases h⟩
    · rintro ⟨_, h, hne⟩
      cases h
      cases hw : response.written with
      | nil => exact absurd hw hne
      | cons _ _ => rw [Emits, writtenBy, hw]; rfl

theorem mapError_eq_ok {ε ε' α : Type} {f : ε → ε'} {x : Except ε α} {a : α}
    (h : x.mapError f = .ok a) : x = .ok a := by
  cases x with
  | error e => cases h
  | ok b => cases h; rfl

/-- No nodes, nothing written. -/
theorem written_of_nil {env : AccessEnv} {format : TargetFormat} {baseConfig : Option String}
    {content : Content} (h : generateContent env format [] baseConfig = .ok content) :
    content.written = [] := by
  have hwrite : ∀ f base, writeNodes env f base [] = .ok content → content.written = [] := by
    intro f base h
    obtain ⟨outputs, houtputs, h⟩ := Except.bind_eq_ok (show _ >>= _ = _ from h)
    cases houtputs
    obtain ⟨text, -, h⟩ := Except.bind_eq_ok (show _ >>= _ = _ from h)
    cases h
    rfl
  cases format with
  | json => cases h; rfl
  | base64 => exact hwrite _ _ h
  | clash => exact hwrite _ _ h
  | singBox => exact hwrite _ _ h
  | v2rayNg => exact hwrite _ _ h

theorem exec_buildProxyNodes_of_denied {substitute : Substitution} {client : Client}
    {filterRules : Option Json} {db : Db}
    (h : client.status = "limited" ∨ client.status = "expired") :
    (buildProxyNodes substitute client filterRules).exec db = .ok [] := by
  rw [buildProxyNodes, if_pos h]
  rfl

/-- A content with a node is for a client that is neither limited nor expired. -/
theorem status_of_contentFor {env : AccessEnv} {db : Db} {client : Client}
    {filterRules : Option Json} {target : ApiResult TargetFormat} {baseConfig : Option String}
    {content : Content} (h : contentFor env db client filterRules target baseConfig = .ok content)
    (hne : content.written ≠ []) : client.status ≠ "limited" ∧ client.status ≠ "expired" := by
  rw [← not_or]
  intro hdenied
  rw [contentFor, exec_buildProxyNodes_of_denied hdenied] at h
  obtain ⟨nodes, hnodes, h⟩ := Except.bind_eq_ok (show _ >>= _ = _ from h)
  cases hnodes
  obtain ⟨format, -, h⟩ := Except.bind_eq_ok (show _ >>= _ = _ from h)
  exact hne (written_of_nil (mapError_eq_ok h))

@[simp] theorem clients_touch (works : Bool) (now : DateTime) (sub : Subscription) (db : Db) :
    (touch works now sub db).clients = db.clients := by
  rw [touch]
  split <;> rfl

/-- Noting the access changes no other column of a subscription. -/
theorem one_touch (works : Bool) (now : DateTime) (sub : Subscription) (db : Db) (token : String) :
    ((touch works now sub db).subscriptions.one (·.token = token)).map (·.clientId) =
      (db.subscriptions.one (·.token = token)).map (·.clientId) := by
  have hone := Table.one_update (t := db.subscriptions) (k := sub.id)
    (f := fun r => { r with lastAccessedAt := some now }) (p := fun r => r.token = token)
    (fun _ => rfl) (fun _ => rfl)
  rw [touch]
  split
  · refine (congrArg (Option.map _) hone).trans ?_
    rw [Option.map_map]
    refine congrArg (Option.map · _) (funext fun r => ?_)
    simp only [Function.comp]
    split <;> rfl
  · rfl

theorem subscriptionOf_eq_ok {db : Db} {token : String} {sub : Subscription}
    (h : subscriptionOf db token = .ok sub) :
    db.subscriptions.one (·.token = token) = some sub := by
  rw [subscriptionOf] at h
  split at h
  · cases h
    assumption
  · cases h

theorem activeSubscription_eq_ok {db : Db} {token : String} {sub : Subscription}
    (h : activeSubscription db token = .ok sub) :
    db.subscriptions.one (·.token = token) = some sub ∧ sub.isActive = true := by
  obtain ⟨found, hfound, h⟩ := Except.bind_eq_ok (show _ >>= _ = _ from h)
  split at h
  · rename_i hactive
    cases h
    exact ⟨subscriptionOf_eq_ok hfound, hactive⟩
  · cases h

theorem clientOf_eq_ok {db : Db} {sub : Subscription} {client : Client}
    (h : clientOf db sub = .ok client) : db.clients.find sub.clientId = some client := by
  rw [clientOf] at h
  split at h
  · cases h
    assumption
  · cases h

theorem granted_of_serveSubscription {env : AccessEnv} {works : Bool} {now : DateTime}
    {token : String} {params : AccessParams} {userAgent : Option String} {db : Db}
    (h : Emits (serveSubscription env works now token params userAgent db).1) :
    ∃ sub client, Granted db token sub client := by
  rw [serveSubscription] at h
  cases hsub : activeSubscription db token with
  | error e => rw [hsub] at h; cases h
  | ok sub =>
    rw [hsub] at h
    obtain ⟨response, hresponse, hne⟩ := emits_iff.mp h
    obtain ⟨⟨target, template⟩, -, hresponse⟩ := Except.bind_eq_ok (show _ >>= _ = _ from hresponse)
    obtain ⟨client, hclient, hresponse⟩ := Except.bind_eq_ok (show _ >>= _ = _ from hresponse)
    obtain ⟨content, hcontent, hresponse⟩ := Except.bind_eq_ok (show _ >>= _ = _ from hresponse)
    cases hresponse
    obtain ⟨hfound, hactive⟩ := activeSubscription_eq_ok hsub
    obtain ⟨hlimited, hexpired⟩ := status_of_contentFor hcontent hne
    refine ⟨sub, client, hfound, hactive, ?_, hlimited, hexpired⟩
    rw [← clientOf_eq_ok hclient, clients_touch]

theorem granted_of_serveSubscriptionQr {env : AccessEnv} {works : Bool} {now : DateTime}
    {token : String} {params : AccessParams} {db : Db}
    (h : Emits (serveSubscriptionQr env works now token params db).1) :
    ∃ sub client, Granted db token sub client := by
  rw [serveSubscriptionQr] at h
  cases hsub : activeSubscription db token with
  | error e => rw [hsub] at h; cases h
  | ok sub =>
    rw [hsub] at h
    obtain ⟨response, hresponse, hne⟩ := emits_iff.mp h
    obtain ⟨content, hlink, hqr⟩ := Except.bind_eq_ok (show _ >>= _ = _ from hresponse)
    obtain ⟨again, hagain, hlink⟩ := Except.bind_eq_ok (show _ >>= _ = _ from hlink)
    obtain ⟨client, hclient, hcontent⟩ := Except.bind_eq_ok (show _ >>= _ = _ from hlink)
    have hwritten : content.written ≠ [] := by
      rw [qrResponse] at hqr
      split at hqr
      · cases hqr
        exact hne
      · cases hqr
    obtain ⟨hfound, hactive⟩ := activeSubscription_eq_ok hsub
    obtain ⟨hlimited, hexpired⟩ := status_of_contentFor hcontent hwritten
    -- The second read finds the row of the first one.
    have hsame : again.clientId = sub.clientId := by
      have hone := one_touch works now sub db token
      rw [subscriptionOf_eq_ok hagain, hfound] at hone
      exact Option.some.inj hone
    refine ⟨sub, client, hfound, hactive, ?_, hlimited, hexpired⟩
    rw [← hsame, ← clientOf_eq_ok hclient, clients_touch]

/-- **Who gets a node.**  An answer with a node is for an active subscription whose client
exists and is neither limited nor expired.  After a periodic check that looked at the
clients at `u` or later, no active client's expiry date was over at `u`. -/
theorem granted_of_emits (env : AccessEnv) (works : Bool) (now : DateTime) (token : String)
    (params : AccessParams) (userAgent : Option String) (countBytes : CountBytes) (db : Db) :
    (Emits (serveSubscription env works now token params userAgent db).1 ∨
        Emits (serveSubscriptionQr env works now token params db).1 →
      ∃ sub client, Granted db token sub client) ∧
      ∀ u, CheckedSince countBytes u db → ExpiryEnforced u db := by
  refine ⟨fun h => ?_, fun u hchecked => expiryEnforced_of_checkedSince hchecked⟩
  rcases h with h | h
  · exact granted_of_serveSubscription h
  · exact granted_of_serveSubscriptionQr h

/-! ### What is not looked at -/

/-- **Nothing else is asked for.**  A granted subscription shows the nodes of its client as
JSON whenever there is one and the text fits into a QR code, whatever `expire_at` and
`expiry_date` say. -/
theorem emits_qr {env : AccessEnv} {db : Db} {token : String} {sub : Subscription}
    {client : Client} {binding : NodeBinding} {svg : String} (hg : Granted db token sub client)
    (hbinding : binding ∈ db.nodeBindings.filter (·.isActive))
    (hlistable : Listable db client [] [] binding)
    (hqr : env.qrCode (env.pretty (arr (((db.nodeBindings.filter (·.isActive)).filterMap
      (listedNode env.substitute db client)).map describe))) = .ok svg) (now : DateTime) :
    Emits (serveSubscriptionQr env false now token ⟨some "json", none⟩ db).1 := by
  have hactive : activeSubscription db token = .ok sub := by
    rw [activeSubscription, subscriptionOf, hg.found]
    exact if_pos hg.active
  generalize hnodes : (db.nodeBindings.filter (·.isActive)).filterMap
    (listedNode env.substitute db client) = nodes at hqr
  have hcontent : buildSubscriptionLink env db token "json" =
      .ok ⟨nodes.map fun n => .description (describe n), env.pretty (arr (nodes.map describe))⟩ := by
    rw [buildSubscriptionLink, subscriptionOf, hg.found]
    show clientOf db sub >>= _ = _
    rw [clientOf, hg.owner]
    show contentFor env db client none _ none = _
    rw [contentFor, exec_buildProxyNodes, hnodes]
    rfl
  -- The listed binding is one of the nodes.
  have hne : nodes ≠ [] := by
    obtain ⟨node, hnode⟩ := Option.isSome_iff_exists.mp
      ((isSome_listedNode env.substitute db client binding).mpr
        ⟨not_or.mpr ⟨hg.notLimited, hg.notExpired⟩, hlistable⟩)
    rw [← hnodes]
    exact List.ne_nil_of_mem (List.mem_filterMap.mpr ⟨binding, hbinding, hnode⟩)
  rw [emits_iff, serveSubscriptionQr, hactive]
  refine ⟨⟨"image/svg+xml", none, nodes.map fun n => .description (describe n), svg⟩, ?_, ?_⟩
  · show buildSubscriptionLink env db token "json" >>= qrResponse env = _
    rw [hcontent]
    show qrResponse env _ = _
    rw [qrResponse, hqr]
  · simpa using hne

/-- The five conditions under which a token should give access at `t`. -/
def AccessDue (db : Db) (token : String) (t : DateTime) : Prop :=
  ∃ sub client, db.subscriptions.one (·.token = token) = some sub ∧ sub.isActive = true ∧
    (∀ date, sub.expireAt = some date → date.before t = false) ∧
    db.clients.find sub.clientId = some client ∧
    (client.status = "active" ∨ client.status = "on_hold") ∧ ¬ Expired t client

namespace Revoked

/-- A REALITY config that every format can write. -/
def config : ProtocolConfig :=
  { PresetUser.config with settings := mkObj [("public_key", str "key")] }

def node : Node where
  id := PresetUser.node
  name := "n1"
  hostname := "n1"
  address := "192.0.2.1"
  domain := none
  tokenHash := ""
  coresAvailable := arr []
  usageCoefficient := 0x3f800000
  status := "online"
  parentId := none
  lastSeenAt := none
  updatedAt := default

def past : DateTime := ⟨0, 0⟩
def now : DateTime := ⟨1, 0⟩

/-- One binding and one client that share a group, and a subscription. -/
def db (expireAt : Option DateTime) (status : String) (expiryDate : Option DateTime) : Db where
  nodes := .single node
  protocolConfigs := .single config
  nodeBindings := .single PresetUser.binding
  clients := .single { ManualReset.client with status, expiryDate }
  clientGroupBindings := .single ⟨.ofNat 20, ManualReset.client.id, .ofNat 21⟩
  nodeBindingGroupBindings :=
    .single ⟨.ofNat 22, PresetUser.binding.id, .ofNat 21⟩
  subscriptions :=
    .single ⟨.ofNat 23, ManualReset.client.id, "k", "/sub/k", expireAt, true, none⟩

def env : AccessEnv where
  render := fun _ _ _ names => .ok ("\n".intercalate names)
  pretty := fun _ => "[{}]"
  qrCode := fun _ => .ok "<svg/>"
  substitute := fun remark _ _ _ _ => remark

/-- What a check leaves of an active client whose expiry date is to come. -/
def checked : Db :=
  runPeriodicChecks now (fun _ => now) now (db none "active" (some (now.addSeconds 86400)))

def served (db : Db) : ApiResult AccessResponse :=
  (serveSubscription env true now "k" ⟨none, none⟩ none db).1

def servedQr (db : Db) : ApiResult AccessResponse :=
  (serveSubscriptionQr env true now "k" ⟨none, none⟩ db).1

/-- Both endpoints give nodes to a token that should have no access. -/
def Leaks (db : Db) : Prop :=
  Emits (served db) ∧ Emits (servedQr db) ∧ ¬ AccessDue db "k" now

end Revoked

/-- An expired subscription, a disabled client and a client whose expiry date is over get
their nodes. -/
theorem revoked_access_served :
    Revoked.Leaks (Revoked.db (some Revoked.past) "active" none) ∧
      Revoked.Leaks (Revoked.db none "disabled" none) ∧
      Revoked.Leaks (Revoked.db none "active" (some Revoked.past)) := by
  have hemits : ∀ db ∈ [Revoked.db (some Revoked.past) "active" none,
      Revoked.db none "disabled" none, Revoked.db none "active" (some Revoked.past)],
      Emits (Revoked.served db) ∧ Emits (Revoked.servedQr db) := by decide
  simp only [List.forall_mem_cons] at hemits
  obtain ⟨⟨hexpired, hexpiredQr⟩, ⟨hdisabled, hdisabledQr⟩, ⟨hover, hoverQr⟩, -⟩ := hemits
  refine ⟨⟨hexpired, hexpiredQr, ?_⟩, ⟨hdisabled, hdisabledQr, ?_⟩, hover, hoverQr, ?_⟩ <;>
    rintro ⟨sub, client, hsub, -, hexpire, hclient, hstatus, hdate⟩ <;> cases hsub <;>
    cases hclient
  · exact absurd (hexpire Revoked.past rfl) (by decide)
  · exact absurd hstatus (by decide)
  · exact hdate rfl

/-- An active client whose expiry date is to come, after a check. -/
theorem granted_of_emits_active :
    (∃ sub client, Granted Revoked.checked "k" sub client) ∧
      ExpiryEnforced Revoked.now Revoked.checked := by
  obtain ⟨hgranted, henforced⟩ := granted_of_emits Revoked.env true Revoked.now "k" ⟨none, none⟩
    none ManualReset.countBytes Revoked.checked
  refine ⟨hgranted (Or.inl (by decide)), henforced _ ?_⟩
  exact ⟨_, _, _, _, [], fun _ => rfl, trivial, rfl⟩

end Hub

end ProxyPanel
