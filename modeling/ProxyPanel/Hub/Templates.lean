import ProxyPanel.Common.Protocol
import ProxyPanel.Db.Entities
import ProxyPanel.Lib.Run
import ProxyPanel.Lib.Text

/-!
# Templates written by several requests at once

`create_template`, `update_template` and `delete_template` take no transaction: each is a
sequence of statements on the table of templates, `advance` is one of them and `step` lets
one of the requests in progress make its next one.  A request writes its own row (a `Write`)
and then disables the other enabled templates of its format that it reads.

`oneEnabled_of_faithful`: at most one template of a format stays enabled if every request
writes what it takes its row to be.  `Held` says which template stays enabled.
-/

namespace ProxyPanel.Hub.Templates

open Run

/-! ### The requests -/

structure CreateTemplatePayload where
  name : String
  format : Option String := none
  baseConfig : Option String := none
  filterRules : Option Json := none
  customHeaders : Option Json := none

def CreateTemplatePayload.template (payload : CreateTemplatePayload) (id : String) :
    SubscriptionTemplate where
  id := id
  name := payload.name
  format := payload.format.getD "base64"
  baseConfig := payload.baseConfig
  filterRules := payload.filterRules
  customHeaders := payload.customHeaders
  isBuiltin := false
  isEnabled := true

structure UpdateTemplatePayload where
  name : Option String := none
  format : Option String := none
  baseConfig : Option String := none
  filterRules : Option Json := none
  customHeaders : Option Json := none
  isEnabled : Option Bool := none

namespace UpdateTemplatePayload

/-- Builtin templates may only have their flag changed. -/
def validate (payload : UpdateTemplatePayload) (template : SubscriptionTemplate) :
    ApiResult Unit :=
  if template.isBuiltin ∧ (payload.name.isSome ∨ payload.format.isSome ∨
      payload.baseConfig.isSome ∨ payload.filterRules.isSome ∨ payload.customHeaders.isSome) then
    .error (.badRequest "builtin_readonly" "builtin templates can only be enabled or disabled")
  else if payload.name.any (Text.trim · = "") then
    .error (.badRequest "invalid_name" "template name is required")
  else .ok ()

/-- The columns that are set; the others keep what they hold at that moment. -/
def apply (payload : UpdateTemplatePayload) (t : SubscriptionTemplate) : SubscriptionTemplate :=
  { t with
    name := payload.name.getD t.name
    format := payload.format.getD t.format
    baseConfig := payload.baseConfig.or t.baseConfig
    filterRules := payload.filterRules.or t.filterRules
    customHeaders := payload.customHeaders.or t.customHeaders
    isEnabled := payload.isEnabled.getD t.isEnabled }

/-- The format and the flag the request goes on with, from the row it found. -/
def newFormat (payload : UpdateTemplatePayload) (template : SubscriptionTemplate) : String :=
  payload.format.getD template.format

def newEnabled (payload : UpdateTemplatePayload) (template : SubscriptionTemplate) : Bool :=
  payload.isEnabled.getD template.isEnabled

end UpdateTemplatePayload

/-- A request, with the identifier drawn for a new template. -/
inductive Call where
  | create (id : String) (payload : CreateTemplatePayload)
  | update (id : String) (payload : UpdateTemplatePayload)
  | delete (id : String)

/-- How far a request has come. -/
inductive Phase where
  | waiting
  /-- The row is found, the write is next. -/
  | found (template : SubscriptionTemplate)
  /-- The row is written and enabled, the others of the format are still to be read. -/
  | written (id format : String)
  /-- The templates still to be disabled. -/
  | disabling (others : List String)
  | finished
  | failed (error : ApiError)

/-- What a request does to its own row. -/
structure Write where
  before : Option SubscriptionTemplate
  after : Option SubscriptionTemplate

structure Move where
  phase : Phase
  templates : Table SubscriptionTemplate
  write : Option Write := none

/-- The loop over the templates to disable. -/
def disable (others : List String) : Phase :=
  if others = [] then .finished else .disabling others

/-- `enforce_unique_enabled_template` does nothing for a disabled template. -/
def enforce (id format : String) (enabled : Bool) : Phase :=
  if enabled then .written id format else .finished

/-- The enabled templates of a format. -/
def enabledOf (templates : Table SubscriptionTemplate) (format : String) :
    List SubscriptionTemplate :=
  templates.filter fun t => t.format = format ∧ t.isEnabled

def turnedOff (t : SubscriptionTemplate) : SubscriptionTemplate := { t with isEnabled := false }

/-- The next statement of a request, `none` when it has answered.  An update of a row that is
gone is an error. -/
def advance (templates : Table SubscriptionTemplate) : Call → Phase → Option Move
  | .create id payload, .waiting =>
    if Text.trim payload.name = "" then
      some ⟨.failed (.badRequest "invalid_name" "template name is required"), templates, none⟩
    else match templates.insert (payload.template id) with
      | none => some ⟨.failed (.internal "database operation failed"), templates, none⟩
      | some inserted => some ⟨.written id (payload.template id).format, inserted,
          some ⟨none, some (payload.template id)⟩⟩
  | .update id payload, .waiting =>
    match templates.find id with
    | none => some ⟨.failed (.notFound "subscription template not found"), templates, none⟩
    | some template =>
      match payload.validate template with
      | .error e => some ⟨.failed e, templates, none⟩
      | .ok () => some ⟨.found template, templates, none⟩
  | .update id payload, .found template =>
    match templates.find id with
    | none => some ⟨.failed .dbConflict, templates, none⟩
    | some row => some ⟨enforce id (payload.newFormat template) (payload.newEnabled template),
        templates.update id payload.apply, some ⟨some row, some (payload.apply row)⟩⟩
  | .delete id, .waiting =>
    match templates.find id with
    | none => some ⟨.failed (.notFound "subscription template not found"), templates, none⟩
    | some template =>
      if template.isBuiltin then some ⟨.failed
        (.badRequest "builtin_protected" "builtin templates cannot be deleted"), templates, none⟩
      else some ⟨.found template, templates, none⟩
  | .delete id, .found _ =>
    match templates.find id with
    | none => some ⟨.failed (.notFound "subscription template not found"), templates, none⟩
    | some row => some ⟨.finished, templates.deleteWhere (·.id = id), some ⟨some row, none⟩⟩
  | _, .written id format =>
    some ⟨disable (((enabledOf templates format).filter (·.id ≠ id)).map (·.id)), templates, none⟩
  | _, .disabling (other :: others) =>
    match templates.find other with
    | none => some ⟨.failed .dbConflict, templates, none⟩
    | some _ => some ⟨disable others, templates.update other turnedOff, none⟩
  | _, _ => none

/-! ### Interleavings -/

/-- The requests in progress and the writes they have made. -/
structure State where
  templates : Table SubscriptionTemplate
  calls : List (Call × Phase)
  writes : List Write := []

/-- The next statement of one of the requests. -/
def step (s : State) (i : Nat) : Option State :=
  match s.calls[i]? with
  | none => none
  | some (call, phase) => (advance s.templates call phase).map fun move =>
    ⟨move.templates, s.calls.set i (call, move.phase), s.writes ++ move.write.toList⟩

/-- The requests, none of them started. -/
def start (templates : Table SubscriptionTemplate) (calls : List Call) : State :=
  ⟨templates, calls.map fun call => (call, .waiting), []⟩

/-- All requests have answered, with success. -/
def Finished (s : State) : Prop := ∀ c ∈ s.calls, c.2 = .finished

/-- At most one template of each format is enabled. -/
def OneEnabled (templates : Table SubscriptionTemplate) : Prop :=
  ∀ format, (enabledOf templates format).length ≤ 1

/-- A request has left a template of the format enabled. -/
def Enables (writes : List Write) (format : String) : Prop :=
  ∃ w ∈ writes, ∃ t, w.after = some t ∧ t.isEnabled = true ∧ t.format = format

/-- A request has disabled, deleted or moved an enabled template of the format. -/
def TakesOut (writes : List Write) (format : String) : Prop :=
  ∃ w ∈ writes, (∃ t, w.before = some t ∧ t.isEnabled = true ∧ t.format = format) ∧
    ∀ t, w.after = some t → ¬ (t.isEnabled = true ∧ t.format = format)

/-- **What the requests promise together**: one enabled template of a format at most, and one
at least where a template was enabled and none was taken out. -/
def Unique (s : State) : Prop :=
  OneEnabled s.templates ∧ ∀ format, Enables s.writes format → ¬ TakesOut s.writes format →
    (enabledOf s.templates format).length = 1

/-- An update writes a row whose flag and format are those the request goes on with. -/
def faithful (s : State) (i : Nat) : Bool :=
  match s.calls[i]? with
  | some (.update id payload, .found template) => (s.templates.find id).all fun row =>
    (payload.apply row).isEnabled = payload.newEnabled template ∧
      (payload.newEnabled template → (payload.apply row).format = payload.newFormat template)
  | _ => true

/-- Whether a request in this phase will leave an enabled template as it is. -/
def spares (t : SubscriptionTemplate) : Phase → Bool
  | .written id format => format = t.format → id = t.id
  | .disabling others => t.id ∉ others
  | _ => true

/-- No request has still to disable the template that a write leaves enabled. -/
def undisturbed (s : State) (i : Nat) : Bool :=
  match s.calls[i]? with
  | none => true
  | some (call, phase) =>
    match ((advance s.templates call phase).bind (·.write)).bind (·.after) with
    | none => true
    | some t => t.isEnabled → s.calls.all fun c => spares t c.2

/-! ### One statement -/

/-- What one statement can do. -/
inductive Statement (t : Table SubscriptionTemplate) : Call → Phase → Move → Prop
  | refused {call : Call} {phase : Phase} (e : ApiError) :
    Statement t call phase ⟨.failed e, t, none⟩
  | looked {call : Call} (template : SubscriptionTemplate) :
    Statement t call .waiting ⟨.found template, t, none⟩
  | inserted {id : String} {payload : CreateTemplatePayload} {u : Table SubscriptionTemplate}
    (h : t.insert (payload.template id) = some u) : Statement t (.create id payload) .waiting
      ⟨.written id (payload.template id).format, u, some ⟨none, some (payload.template id)⟩⟩
  | updated {id : String} {payload : UpdateTemplatePayload} {template row : SubscriptionTemplate}
    (h : t.find id = some row) : Statement t (.update id payload) (.found template)
      ⟨enforce id (payload.newFormat template) (payload.newEnabled template),
        t.update id payload.apply, some ⟨some row, some (payload.apply row)⟩⟩
  | deleted {id : String} {template row : SubscriptionTemplate} (h : t.find id = some row) :
    Statement t (.delete id) (.found template)
      ⟨.finished, t.deleteWhere (·.id = id), some ⟨some row, none⟩⟩
  | others {call : Call} {id format : String} : Statement t call (.written id format)
      ⟨disable (((enabledOf t format).filter (·.id ≠ id)).map (·.id)), t, none⟩
  | disabled {call : Call} {other : String} {others : List String} :
    Statement t call (.disabling (other :: others))
      ⟨disable others, t.update other turnedOff, none⟩

theorem statement_of_advance {t : Table SubscriptionTemplate} {call : Call} {phase : Phase}
    {move : Move} (h : advance t call phase = some move) : Statement t call phase move := by
  revert h
  fun_cases advance t call phase <;> intro h <;> cases h
  all_goals first
    | exact .refused _
    | exact .looked _
    | exact .inserted ‹_›
    | exact .updated ‹_›
    | exact .deleted ‹_›
    | exact .others
    | exact .disabled

/-- A step is a statement of one of the requests. -/
theorem step_cases {s s' : State} {i : Nat} (h : step s i = some s') :
    ∃ call phase move, s.calls[i]? = some (call, phase) ∧
      Statement s.templates call phase move ∧
      s' = ⟨move.templates, s.calls.set i (call, move.phase), s.writes ++ move.write.toList⟩ := by
  rw [step] at h
  split at h
  · cases h
  · rename_i call phase hcall
    obtain ⟨move, hmove, rfl⟩ := Option.map_eq_some_iff.mp h
    exact ⟨call, phase, move, hcall, statement_of_advance hmove, rfl⟩

/-- A request other than the one that moves stays as it is. -/
theorem eq_or_mem_set {α : Type} {l : List α} {i : Nat} {a b c : α} (hi : l[i]? = some a)
    (hc : c ∈ l) : c = a ∨ c ∈ l.set i b := by
  obtain ⟨j, hj⟩ := List.mem_iff_getElem?.mp hc
  by_cases hij : i = j
  · subst hij
    exact Or.inl (Option.some.inj (hj.symm.trans hi))
  · exact Or.inr (List.mem_iff_getElem?.mpr ⟨j, by rw [List.getElem?_set_ne hij, hj]⟩)

theorem mem_set_self {α : Type} {l : List α} {i : Nat} {a : α} (b : α) (hi : l[i]? = some a) :
    b ∈ l.set i b :=
  List.mem_set (List.getElem?_eq_some_iff.mp hi).1 b

@[simp] theorem mem_enabledOf {t : Table SubscriptionTemplate} {format : String}
    {r : SubscriptionTemplate} :
    r ∈ enabledOf t format ↔ r ∈ t.rows ∧ r.format = format ∧ r.isEnabled = true := by
  simp [enabledOf]

theorem mem_enabledOf_insert {t u : Table SubscriptionTemplate} {format : String}
    {r x : SubscriptionTemplate} (h : t.insert r = some u) :
    x ∈ enabledOf u format ↔
      x ∈ enabledOf t format ∨ x = r ∧ r.format = format ∧ r.isEnabled = true := by
  rw [mem_enabledOf, mem_enabledOf, Table.rows_of_insert h, List.mem_append, List.mem_singleton]
  constructor
  · rintro ⟨hx | rfl, hf⟩
    · exact Or.inl ⟨hx, hf⟩
    · exact Or.inr ⟨rfl, hf⟩
  · rintro (⟨hx, hf⟩ | ⟨rfl, hf⟩)
    · exact ⟨Or.inl hx, hf⟩
    · exact ⟨Or.inr rfl, hf⟩

/-- An enabled template after an update is the updated one or was there before. -/
theorem mem_enabledOf_update {t : Table SubscriptionTemplate} {id format : String}
    {f : SubscriptionTemplate → SubscriptionTemplate} {x : SubscriptionTemplate}
    (hf : ∀ r, (f r).id = r.id) (hx : x ∈ enabledOf (t.update id f) format) :
    (x ∈ enabledOf t format ∧ x.id ≠ id) ∨ ∃ row, t.find id = some row ∧ x = f row ∧
      (f row).format = format ∧ (f row).isEnabled = true := by
  obtain ⟨hrow, hformat, henabled⟩ := mem_enabledOf.mp hx
  obtain ⟨row, hr, hrx⟩ := List.mem_map.mp hrow
  by_cases hid : row.id = id
  · rw [if_pos ⟨hid, hf row⟩] at hrx
    subst hrx
    exact Or.inr ⟨row, Table.find_eq_some_iff.mpr ⟨hr, hid⟩, rfl, hformat, henabled⟩
  · rw [if_neg fun h => hid h.1] at hrx
    subst hrx
    exact Or.inl ⟨mem_enabledOf.mpr ⟨hr, hformat, henabled⟩, hid⟩

/-- A template that is not updated. -/
theorem mem_enabledOf_update_of_ne {t : Table SubscriptionTemplate} {id format : String}
    {f : SubscriptionTemplate → SubscriptionTemplate} {x : SubscriptionTemplate}
    (hx : x ∈ enabledOf t format) (hne : x.id ≠ id) : x ∈ enabledOf (t.update id f) format := by
  obtain ⟨hrow, hf⟩ := mem_enabledOf.mp hx
  exact mem_enabledOf.mpr ⟨List.mem_map.mpr ⟨x, hrow, if_neg fun h => hne h.1⟩, hf⟩

/-- A template that is disabled is enabled no more, and no other one is. -/
theorem mem_enabledOf_turnedOff {t : Table SubscriptionTemplate} {other format : String}
    {r : SubscriptionTemplate} (hr : r ∈ enabledOf (t.update other turnedOff) format) :
    r ∈ enabledOf t format ∧ r.id ≠ other := by
  rcases mem_enabledOf_update (f := turnedOff) (fun _ => rfl) hr with h | ⟨_, _, _, _, henabled⟩
  · exact h
  · cases henabled

theorem id_apply (payload : UpdateTemplatePayload) (t : SubscriptionTemplate) :
    (payload.apply t).id = t.id := rfl

/-! ### At most one -/

/-- A request that failed, or that has still to read the templates of the format. -/
def Pending (format : String) : Phase → Prop
  | .failed _ => True
  | .written _ g => g = format
  | _ => False

/-- The enabled templates of a format are one and those a request has still to disable. -/
def Covers (format : String) (t : Table SubscriptionTemplate) (others : List String) : Prop :=
  ∃ id, ∀ r ∈ enabledOf t format, r.id = id ∨ r.id ∈ others

/-- A request will see to the format, or there is nothing left to do. -/
def Covered (format : String) (s : State) : Prop :=
  (∃ c ∈ s.calls, Pending format c.2) ∨ Covers format s.templates [] ∨
    ∃ c ∈ s.calls, ∃ others, c.2 = .disabling others ∧ Covers format s.templates others

theorem Covers.mono {format : String} {t u : Table SubscriptionTemplate} {others : List String}
    (h : Covers format t others) (hsub : ∀ r ∈ enabledOf u format, r ∈ enabledOf t format) :
    Covers format u others := by
  obtain ⟨id, hid⟩ := h
  exact ⟨id, fun r hr => hid r (hsub r hr)⟩

/-- A request in neither of the two phases moves and no template of the format is new. -/
theorem covered_of_subset {format : String} {s : State} {i : Nat} {call : Call} {phase : Phase}
    {move : Move} {writes : List Write} (hi : s.calls[i]? = some (call, phase))
    (hphase : ¬ Pending format phase ∧ ∀ others, phase ≠ .disabling others)
    (hsub : ∀ r ∈ enabledOf move.templates format, r ∈ enabledOf s.templates format)
    (h : Covered format s) :
    Covered format ⟨move.templates, s.calls.set i (call, move.phase), writes⟩ := by
  rcases h with ⟨c, hc, hpending⟩ | hnone | ⟨c, hc, others, hothers, hcovers⟩
  · rcases eq_or_mem_set (b := (call, move.phase)) hi hc with rfl | hc
    · exact absurd hpending hphase.1
    · exact Or.inl ⟨c, hc, hpending⟩
  · exact Or.inr (Or.inl (hnone.mono hsub))
  · rcases eq_or_mem_set (b := (call, move.phase)) hi hc with rfl | hc
    · exact absurd hothers (hphase.2 others)
    · exact Or.inr (Or.inr ⟨c, hc, others, hothers, hcovers.mono hsub⟩)

/-- What `faithful` says of an update that is next. -/
theorem enforces_of_faithful {s : State} {i : Nat} {id : String} {payload : UpdateTemplatePayload}
    {template row : SubscriptionTemplate} (hfaithful : faithful s i = true)
    (hi : s.calls[i]? = some (.update id payload, .found template))
    (hrow : s.templates.find id = some row) :
    (payload.apply row).isEnabled = payload.newEnabled template ∧
      (payload.newEnabled template = true →
        (payload.apply row).format = payload.newFormat template) := by
  rw [faithful, hi] at hfaithful
  simp only [hrow, Option.all_some, decide_eq_true_eq] at hfaithful
  exact hfaithful

/-- A statement that disables one of the templates it still has to. -/
theorem Covers.disable {format other : String} {t : Table SubscriptionTemplate}
    {others : List String} (h : Covers format t (other :: others)) :
    Covers format (t.update other turnedOff) others := by
  obtain ⟨id, hid⟩ := h
  refine ⟨id, fun r hr => ?_⟩
  obtain ⟨hr, hne⟩ := mem_enabledOf_turnedOff hr
  exact (hid r hr).imp_right fun h => (List.mem_cons.mp h).resolve_left hne

theorem covered_step {format : String} {s s' : State} {i : Nat} (hcovered : Covered format s)
    (hfaithful : faithful s i = true) (h : step s i = some s') : Covered format s' := by
  obtain ⟨call, phase, move, hi, hstatement, rfl⟩ := step_cases h
  cases hstatement with
  | refused e => exact Or.inl ⟨_, mem_set_self _ hi, trivial⟩
  | looked template =>
    exact covered_of_subset hi ⟨id, fun _ => nofun⟩ (fun _ h => h) hcovered
  | @inserted id payload u hinsert =>
    by_cases hformat : (payload.template id).format = format
    · exact Or.inl ⟨_, mem_set_self _ hi, hformat⟩
    · refine covered_of_subset hi ⟨fun h => h, fun _ => nofun⟩ (fun r hr => ?_) hcovered
      rcases (mem_enabledOf_insert hinsert).mp hr with hr | ⟨-, hf, -⟩
      · exact hr
      · exact absurd hf hformat
  | @updated id payload template row hrow =>
    obtain ⟨henabled, hnew⟩ := enforces_of_faithful hfaithful hi hrow
    by_cases hinto : (payload.apply row).isEnabled = true ∧ (payload.apply row).format = format
    · refine Or.inl ⟨_, mem_set_self _ hi, ?_⟩
      have hgoes : payload.newEnabled template = true := henabled.symm.trans hinto.1
      change Pending format (enforce id _ _)
      rw [hgoes]
      exact (hnew hgoes).symm.trans hinto.2
    · refine covered_of_subset hi ⟨fun h => h, fun _ => nofun⟩ (fun r hr => ?_) hcovered
      rcases mem_enabledOf_update (id_apply payload) hr with ⟨hr, -⟩ | ⟨row', hrow', -, hf, he⟩
      · exact hr
      · cases hrow.symm.trans hrow'
        exact absurd ⟨he, hf⟩ hinto
  | deleted hrow =>
    refine covered_of_subset hi ⟨fun h => h, fun _ => nofun⟩ (fun r hr => ?_) hcovered
    obtain ⟨hr, hf⟩ := mem_enabledOf.mp hr
    exact mem_enabledOf.mpr ⟨(Table.mem_deleteWhere.mp hr).1, hf⟩
  | @others call id g =>
    by_cases hg : g = format
    · -- the enabled templates of the format are the own one and those that were read
      subst hg
      have hcovers : Covers g s.templates
          (((enabledOf s.templates g).filter (·.id ≠ id)).map (·.id)) := by
        refine ⟨id, fun r hr => ?_⟩
        by_cases hid : r.id = id
        · exact Or.inl hid
        · exact Or.inr (List.mem_map.mpr ⟨r, List.mem_filter.mpr ⟨hr, by simpa using hid⟩, rfl⟩)
      generalize ((enabledOf s.templates g).filter (·.id ≠ id)).map (·.id) = others at hcovers
      by_cases hnil : others = []
      · exact Or.inr (Or.inl (hnil ▸ hcovers))
      · exact Or.inr (Or.inr ⟨_, mem_set_self _ hi, others, if_neg hnil, hcovers⟩)
    · exact covered_of_subset hi ⟨hg, fun _ => nofun⟩ (fun _ h => h) hcovered
  | @disabled call other others =>
    have hshrinks : ∀ r ∈ enabledOf (s.templates.update other turnedOff) format,
        r ∈ enabledOf s.templates format := fun r hr => (mem_enabledOf_turnedOff hr).1
    rcases hcovered with ⟨c, hc, hpending⟩ | hnone | ⟨c, hc, rest, hrest, hcovers⟩
    · rcases eq_or_mem_set (b := (call, disable others)) hi hc with rfl | hc
      · exact absurd hpending fun h => h
      · exact Or.inl ⟨c, hc, hpending⟩
    · exact Or.inr (Or.inl (hnone.mono hshrinks))
    · rcases eq_or_mem_set (b := (call, disable others)) hi hc with rfl | hc
      · cases hrest
        by_cases hnil : others = []
        · exact Or.inr (Or.inl (hnil ▸ hcovers.disable))
        · exact Or.inr (Or.inr ⟨_, mem_set_self _ hi, others, if_neg hnil, hcovers.disable⟩)
      · exact Or.inr (Or.inr ⟨c, hc, rest, hrest, hcovers.mono hshrinks⟩)

theorem length_enabledOf_le_one {format : String} {t : Table SubscriptionTemplate} :
    (enabledOf t format).length ≤ 1 ↔ Covers format t [] := by
  constructor
  · intro h
    match hrows : enabledOf t format, h with
    | [], _ => exact ⟨"", fun r hr => by rw [hrows] at hr; cases hr⟩
    | [r], _ =>
      refine ⟨r.id, fun r' hr' => Or.inl ?_⟩
      rw [hrows, List.mem_singleton] at hr'
      rw [hr']
  · rintro ⟨id, hid⟩
    refine Table.length_le_one (t.nodup.of_map.filter _) fun a ha b hb => ?_
    have hone : a.id = b.id :=
      ((hid a ha).resolve_right List.not_mem_nil).trans
        ((hid b hb).resolve_right List.not_mem_nil).symm
    exact Table.eq_of_key_eq (mem_enabledOf.mp ha).1 (mem_enabledOf.mp hb).1 hone

/-- When every request has answered with success, nothing is left to do. -/
theorem covers_of_finished {format : String} {s : State} (hfinished : Finished s)
    (h : Covered format s) : Covers format s.templates [] := by
  rcases h with ⟨c, hc, hpending⟩ | hnone | ⟨c, hc, others, hothers, -⟩
  · rw [hfinished c hc] at hpending
    exact absurd hpending fun h => h
  · exact hnone
  · rw [hfinished c hc] at hothers
    cases hothers

/-- **At most one template of a format is enabled** after requests that write what they take
their rows to be, in any order of their statements. -/
theorem oneEnabled_of_faithful {templates : Table SubscriptionTemplate} {calls : List Call}
    {order : List Nat} {s : State} (hone : OneEnabled templates)
    (hfaithful : Guarded step (fun s i => faithful s i = true) (start templates calls) order)
    (hrun : run step (start templates calls) order = some s) (hfinished : Finished s) :
    OneEnabled s.templates := by
  intro format
  have hstart : Covered format (start templates calls) :=
    Or.inr (Or.inl (length_enabledOf_le_one.mp (hone format)))
  have hcovered := inv_of_guarded (fun _ _ _ hI hok h => covered_step hI hok h) hstart hfaithful hrun
  exact length_enabledOf_le_one.mpr (covers_of_finished hfinished hcovered)

/-! ### At least one -/

/-- An enabled template of the format that no request has still to disable. -/
def Held (format : String) (s : State) : Prop :=
  ∃ t ∈ enabledOf s.templates format, ∀ c ∈ s.calls, spares t c.2 = true

/-- The write leaves an enabled template of the format. -/
def Leaves (format : String) (write : Option Write) : Prop :=
  ∃ w ∈ write, ∃ t, w.after = some t ∧ t.isEnabled = true ∧ t.format = format

theorem enables_append {writes : List Write} {write : Option Write} {format : String} :
    Enables (writes ++ write.toList) format ↔ Enables writes format ∨ Leaves format write := by
  simp only [Enables, Leaves, List.mem_append, Option.mem_toList, Option.mem_def, or_and_right,
    exists_or]

theorem takesOut_append {writes : List Write} {write : Option Write} {format : String}
    (h : ¬ TakesOut (writes ++ write.toList) format) : ¬ TakesOut writes format ∧
      ∀ w ∈ write, ∀ t, w.before = some t → t.isEnabled = true → t.format = format →
        Leaves format write := by
  refine ⟨fun ⟨w, hw, hout⟩ => h ⟨w, List.mem_append_left _ hw, hout⟩, ?_⟩
  intro w hw t hbefore henabled hformat
  by_contra hleaves
  exact h ⟨w, List.mem_append_right _ (Option.mem_toList.mpr hw), ⟨t, hbefore, henabled, hformat⟩,
    fun u hafter hu => hleaves ⟨w, hw, u, hafter, hu⟩⟩

/-- The other requests and the phase the request comes to spare the template. -/
theorem spares_set {s : State} {i : Nat} {t : SubscriptionTemplate} {call : Call} {phase : Phase}
    (hspares : ∀ c ∈ s.calls, spares t c.2 = true) (hphase : spares t phase = true) :
    ∀ c ∈ s.calls.set i (call, phase), spares t c.2 = true := by
  intro c hc
  rcases List.mem_or_eq_of_mem_set hc with hc | rfl
  · exact hspares c hc
  · exact hphase

theorem spares_enforce {t : SubscriptionTemplate} {id format : String} (enabled : Bool)
    (h : enabled = true → format = t.format → id = t.id) :
    spares t (enforce id format enabled) = true := by
  cases enabled with
  | true => exact decide_eq_true (h rfl)
  | false => rfl

theorem spares_disable {t : SubscriptionTemplate} {others : List String} (h : t.id ∉ others) :
    spares t (disable others) = true := by
  rw [disable]
  split
  · rfl
  · simpa [spares] using h

/-- **A write that leaves an enabled template** when no request has still to disable it. -/
theorem held_of_leaves {format : String} {s s' : State} {i : Nat}
    (hundisturbed : undisturbed s i = true) {call : Call} {phase : Phase} {move : Move}
    (hi : s.calls[i]? = some (call, phase)) (hadvance : advance s.templates call phase = some move)
    (hleaves : Leaves format move.write)
    (hs' : s' = ⟨move.templates, s.calls.set i (call, move.phase),
      s.writes ++ move.write.toList⟩) : Held format s' := by
  subst hs'
  obtain ⟨w, hw, t, hafter, henabled, hformat⟩ := hleaves
  have hspares : ∀ c ∈ s.calls, spares t c.2 = true := by
    rw [undisturbed, hi] at hundisturbed
    simp only [hadvance, Option.bind_some, Option.mem_def.mp hw, hafter] at hundisturbed
    have hall := of_decide_eq_true hundisturbed henabled
    exact List.all_eq_true.mp hall
  cases statement_of_advance hadvance with
  | @inserted id payload u hinsert =>
    cases hw
    cases hafter
    refine ⟨payload.template id, (mem_enabledOf_insert hinsert).mpr (Or.inr ⟨rfl, hformat, rfl⟩), ?_⟩
    exact spares_set hspares (spares_enforce true fun _ _ => rfl)
  | @updated id payload template row hrow =>
    cases hw
    cases hafter
    have hkey : row.id = id := Table.key_of_find hrow
    refine ⟨payload.apply row, mem_enabledOf.mpr ⟨?_, hformat, henabled⟩, ?_⟩
    · exact List.mem_map.mpr ⟨row, Table.mem_of_find hrow, if_pos ⟨hkey, rfl⟩⟩
    · exact spares_set hspares (spares_enforce _ fun _ _ => hkey.symm)
  | deleted hrow =>
    cases hw
    cases hafter
  | _ => cases hw

/-- **A template stays enabled** through a statement that neither enables another one nor
takes it out. -/
theorem held_step {format : String} {s s' : State} {i : Nat} (hheld : Held format s)
    (hfaithful : faithful s i = true) {call : Call} {phase : Phase} {move : Move}
    (hi : s.calls[i]? = some (call, phase)) (hstatement : Statement s.templates call phase move)
    (hnone : ¬ Leaves format move.write)
    (hkept : ∀ w ∈ move.write, ∀ t, w.before = some t → t.isEnabled = true →
      t.format = format → Leaves format move.write)
    (hs' : s' = ⟨move.templates, s.calls.set i (call, move.phase),
      s.writes ++ move.write.toList⟩) : Held format s' := by
  subst hs'
  obtain ⟨t, ht, hspares⟩ := hheld
  obtain ⟨hrow, hformat, henabled⟩ := mem_enabledOf.mp ht
  have hown : spares t phase = true := hspares _ (List.mem_of_getElem? hi)
  -- the row of a write is another one, since the write would take it out
  have hother : ∀ {w : Write} {row : SubscriptionTemplate}, w ∈ move.write → w.before = some row →
      row ∈ s.templates.rows → t.id ≠ row.id := by
    intro w row hw hbefore hr hid
    obtain rfl : t = row := Table.eq_of_key_eq hrow hr hid
    exact hnone (hkept w hw t hbefore henabled hformat)
  cases hstatement with
  | refused e => exact ⟨t, ht, spares_set hspares rfl⟩
  | looked template => exact ⟨t, ht, spares_set hspares rfl⟩
  | @inserted id payload u hinsert =>
    refine ⟨t, (mem_enabledOf_insert hinsert).mpr (Or.inl ht), spares_set hspares ?_⟩
    refine spares_enforce true fun _ hf => ?_
    exact absurd ⟨_, rfl, _, rfl, rfl, hf.trans hformat⟩ hnone
  | @updated id payload template row hfind =>
    obtain ⟨hflag, hnew⟩ := enforces_of_faithful hfaithful hi hfind
    have hkey : row.id = id := Table.key_of_find hfind
    have hne : t.id ≠ id := hkey ▸ hother rfl rfl (Table.mem_of_find hfind)
    refine ⟨t, mem_enabledOf_update_of_ne ht hne, spares_set hspares ?_⟩
    refine spares_enforce _ fun hgoes hf => ?_
    exact absurd ⟨_, rfl, _, rfl, hflag.trans hgoes, (hnew hgoes).trans (hf.trans hformat)⟩ hnone
  | @deleted id template row hfind =>
    have hkey : row.id = id := Table.key_of_find hfind
    have hne : t.id ≠ id := hkey ▸ hother rfl rfl (Table.mem_of_find hfind)
    refine ⟨t, mem_enabledOf.mpr ⟨?_, hformat, henabled⟩, spares_set hspares rfl⟩
    exact Table.mem_deleteWhere.mpr ⟨hrow, decide_eq_false hne⟩
  | @others call id g =>
    refine ⟨t, ht, spares_set hspares (spares_disable fun hmem => ?_)⟩
    obtain ⟨r, hr, hid⟩ := List.mem_map.mp hmem
    obtain ⟨hr, hne⟩ := List.mem_filter.mp hr
    obtain ⟨hr, hg, -⟩ := mem_enabledOf.mp hr
    obtain rfl : r = t := Table.eq_of_key_eq hr hrow hid
    have hself : id = r.id := by
      have h := of_decide_eq_true hown
      exact h hg.symm
    simp [hself] at hne
  | @disabled call other others =>
    have hnot : t.id ∉ other :: others := of_decide_eq_true hown
    rw [List.mem_cons, not_or] at hnot
    refine ⟨t, mem_enabledOf_update_of_ne ht hnot.1, spares_set hspares ?_⟩
    exact spares_disable hnot.2

/-- What holds of a format that a request has enabled and none has taken out. -/
def HeldIfEnabled (format : String) (s : State) : Prop :=
  Enables s.writes format → ¬ TakesOut s.writes format → Held format s

theorem heldIfEnabled_step {format : String} {s s' : State} {i : Nat}
    (hI : HeldIfEnabled format s) (hfaithful : faithful s i = true)
    (hundisturbed : undisturbed s i = true) (h : step s i = some s') :
    HeldIfEnabled format s' := by
  rw [step] at h
  split at h
  · cases h
  · rename_i call phase hi
    obtain ⟨move, hadvance, hs'⟩ := Option.map_eq_some_iff.mp h
    intro henables htakes
    by_cases hleaves : Leaves format move.write
    · exact held_of_leaves hundisturbed hi hadvance hleaves hs'.symm
    · rw [← hs'] at henables htakes
      obtain ⟨hbefore, hkept⟩ := takesOut_append htakes
      have hheld := hI ((enables_append.mp henables).resolve_right hleaves) hbefore
      exact held_step hheld hfaithful hi (statement_of_advance hadvance) hleaves hkept hs'.symm

/-- **One enabled template of a format**, after requests that write what they take their rows
to be and leave no template enabled that another one has still to disable. -/
theorem unique_of_undisturbed {templates : Table SubscriptionTemplate} {calls : List Call}
    {order : List Nat} {s : State} (hone : OneEnabled templates)
    (hfaithful : Guarded step (fun s i => faithful s i = true) (start templates calls) order)
    (hundisturbed : Guarded step (fun s i => undisturbed s i = true) (start templates calls) order)
    (hrun : run step (start templates calls) order = some s) (hfinished : Finished s) :
    Unique s := by
  have hatMost := oneEnabled_of_faithful hone hfaithful hrun hfinished
  refine ⟨hatMost, fun format henables htakes => ?_⟩
  have hstart : HeldIfEnabled format (start templates calls) := by
    rintro ⟨w, hw, -⟩
    cases hw
  have hheld := inv_of_guarded (I := HeldIfEnabled format)
    (fun _ _ _ hI hok h => heldIfEnabled_step hI hok.1 hok.2 h) hstart
    (guarded_and hfaithful hundisturbed) hrun
  obtain ⟨t, ht, -⟩ := hheld henables htakes
  exact Nat.le_antisymm (hatMost format) (List.length_pos_of_mem ht)

/-! ### Two templates created at once -/

namespace TwoCreated

def calls : List Call := [.create "a" ⟨"first", some "clash", none, none, none⟩,
  .create "b" ⟨"second", some "clash", none, none, none⟩]

/-- Both are written before either reads the others. -/
def interleaved : List Nat := [0, 1, 0, 1, 0, 1]

/-- One after the other. -/
def sequential : List Nat := [0, 0, 1, 1, 1]

def succeeded : Phase → Bool
  | .finished => true
  | _ => false

theorem finished_of_succeeded {s : State} (h : s.calls.all (fun c => succeeded c.2) = true) :
    Finished s := by
  intro c hc
  have hphase := List.all_eq_true.mp h c hc
  cases hp : c.2 with
  | finished => rfl
  | _ => rw [hp] at hphase; cases hphase

theorem oneEnabled_empty : OneEnabled ∅ := fun _ => Nat.zero_le _

/-- A template has been enabled and none taken out. -/
def enabledOnly (writes : List Write) (format : String) : Bool :=
  writes.all fun w => w.before.isNone ∧ w.after.any fun t => t.isEnabled ∧ t.format = format

theorem enables_of_enabledOnly {writes : List Write} {format : String} (hne : writes ≠ [])
    (h : enabledOnly writes format = true) : Enables writes format ∧ ¬ TakesOut writes format := by
  have hall : ∀ w ∈ writes, w.before.isNone = true ∧
      (w.after.any fun t => t.isEnabled ∧ t.format = format) = true := by
    simpa [enabledOnly] using h
  constructor
  · obtain ⟨w, hw⟩ := List.exists_mem_of_ne_nil writes hne
    obtain ⟨t, hafter, ht⟩ := (Option.any_eq_true _ _).mp (hall w hw).2
    exact ⟨w, hw, t, hafter, of_decide_eq_true ht⟩
  · rintro ⟨w, hw, ⟨t, hbefore, -⟩, -⟩
    rw [Option.isNone_iff_eq_none.mp (hall w hw).1] at hbefore
    cases hbefore

end TwoCreated

open TwoCreated in
/-- Each disables the other. -/
theorem created_templates_disable_each_other : OneEnabled (∅ : Table SubscriptionTemplate) ∧
    ∃ s, run step (start ∅ calls) interleaved = some s ∧ Finished s ∧ ¬ Unique s := by
  have hrun : (run step (start ∅ calls) interleaved).any (fun s =>
      s.calls.all (fun c => succeeded c.2) && (!s.writes.isEmpty && enabledOnly s.writes "clash") &&
        (enabledOf s.templates "clash").isEmpty) = true := by decide
  obtain ⟨s, hs, h⟩ := (Option.any_eq_true _ _).mp hrun
  simp only [Bool.and_eq_true, Bool.not_eq_true', List.isEmpty_eq_false_iff,
    List.isEmpty_iff] at h
  obtain ⟨⟨hfinished, hne, honly⟩, hnone⟩ := h
  refine ⟨oneEnabled_empty, s, hs, finished_of_succeeded hfinished, fun hunique => ?_⟩
  obtain ⟨henables, htakes⟩ := enables_of_enabledOnly hne honly
  have hone := hunique.2 "clash" henables htakes
  rw [hnone] at hone
  cases hone

open TwoCreated in
theorem unique_of_undisturbed_sequential :
    ∃ s, run step (start ∅ calls) sequential = some s ∧ Unique s := by
  have hchecked : checked step (fun s i => faithful s i && undisturbed s i) (start ∅ calls)
      sequential = true := by decide
  obtain ⟨hfaithful, -⟩ := guarded_of_checked (I := fun _ => True)
    (fun s i _ h => (Bool.and_eq_true_iff.mp h).1) (fun _ _ _ _ _ _ => trivial) trivial hchecked
  obtain ⟨hundisturbed, -⟩ := guarded_of_checked (I := fun _ => True)
    (fun s i _ h => (Bool.and_eq_true_iff.mp h).2) (fun _ _ _ _ _ _ => trivial) trivial hchecked
  have hrun : (run step (start ∅ calls) sequential).any (fun s =>
      s.calls.all fun c => succeeded c.2) = true := by decide
  obtain ⟨s, hs, hfinished⟩ := (Option.any_eq_true _ _).mp hrun
  exact ⟨s, hs, unique_of_undisturbed oneEnabled_empty hfaithful hundisturbed hs
    (finished_of_succeeded hfinished)⟩

/-! ### A template moved while it is enabled -/

namespace MovedWhileEnabled

def templates : Table SubscriptionTemplate :=
  ⟨[⟨"x", "mine", "clash", none, none, false, false, none⟩,
    ⟨"y", "other", "singbox", none, none, true, false, none⟩], by decide⟩

def calls : List Call := [.update "x" ⟨none, some "singbox", none, none, none, none⟩,
  .update "x" ⟨none, none, none, none, none, some true⟩]

/-- The first update finds the template disabled and writes after the second has answered. -/
def order : List Nat := [0, 1, 1, 1, 0]

end MovedWhileEnabled

open MovedWhileEnabled in
/-- The first update goes on with the flag it found, so nobody disables the other template. -/
theorem moved_template_stays_enabled : ∃ s, run step (start templates calls) order = some s ∧
    Finished s ∧ (enabledOf s.templates "singbox").length = 2 := by
  have hrun : (run step (start templates calls) order).any (fun s =>
      s.calls.all (fun c => TwoCreated.succeeded c.2) &&
        (enabledOf s.templates "singbox").length == 2) = true := by decide
  obtain ⟨s, hs, h⟩ := (Option.any_eq_true _ _).mp hrun
  rw [Bool.and_eq_true, beq_iff_eq] at h
  exact ⟨s, hs, TwoCreated.finished_of_succeeded h.1, h.2⟩

end ProxyPanel.Hub.Templates
