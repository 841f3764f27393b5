import ProxyPanel.Hub.PeriodicChecks

/-!
# When traffic is reset

A client with a strategy is reset by the first periodic check of each day, ISO week,
month or year.  The code keeps the time of the last reset only and compares its period
with the present one; `OnTime` says what that time knows about the checks so far, and
`resets_on_schedule` is about every run.
-/

namespace ProxyPanel

namespace Hub

/-! ### Periods -/

/-- What a strategy compares of two dates. -/
def period (strategy : String) (date : Int) : Int × Int :=
  if strategy = "daily" then (date, 0)
  else if strategy = "weekly" then Calendar.isoWeek date
  else if strategy = "monthly" then Calendar.civil date
  else (Calendar.year date, 0)

def SamePeriod (strategy : String) (t u : DateTime) : Prop :=
  period strategy t.dateNaive = period strategy u.dateNaive

instance (strategy : String) (t u : DateTime) : Decidable (SamePeriod strategy t u) :=
  inferInstanceAs (Decidable (_ = _))

/-- The strategies that reset. -/
def periodic : List String := ["daily", "weekly", "monthly", "yearly"]

theorem shouldReset_eq {c : Client} (h : c.dataLimitResetStrategy ∈ periodic) (now : DateTime) :
    shouldReset now c = match c.lastTrafficResetTime with
      | some t => decide (¬ SamePeriod c.dataLimitResetStrategy t now)
      | none => true := by
  simp only [periodic, List.mem_cons, List.not_mem_nil, or_false] at h
  rw [shouldReset]
  cases c.lastTrafficResetTime with
  | none => rcases h with h | h | h | h <;> simp [h]
  | some t => rcases h with h | h | h | h <;> simp [h, SamePeriod, period]

/-- A date between two of a period is in that period. -/
theorem period_of_between {strategy : String} {a b d : Int} (ha : a ≤ d) (hb : d ≤ b)
    (h : period strategy a = period strategy b) : period strategy d = period strategy a := by
  by_cases hdaily : strategy = "daily"
  · simp only [period, hdaily, if_true, Prod.mk.injEq, and_true] at h ⊢
    omega
  by_cases hweekly : strategy = "weekly"
  · simp only [period, hweekly, if_true] at h ⊢
    exact Calendar.isoWeek_of_between ha hb h
  by_cases hmonthly : strategy = "monthly"
  · simp only [period, hmonthly, if_true] at h ⊢
    exact Calendar.civil_of_between ha hb h
  · simp only [period, hdaily, hweekly, hmonthly, if_false, Prod.mk.injEq, and_true] at h ⊢
    exact Calendar.year_of_between ha hb h

theorem dateNaive_mono {t u : DateTime} (ht : t.offset = 0) (hu : u.offset = 0)
    (h : t.nanos ≤ u.nanos) : t.dateNaive ≤ u.dateNaive := by
  rw [DateTime.dateNaive, DateTime.dateNaive, ht, hu, DateTime.timestamp, DateTime.timestamp]
  omega

/-! ### Runs -/

/-- The database and the instants of the checks so far. -/
structure Cadence where
  db : Db
  checks : List DateTime

/-- The instants of the checks with this operation. -/
def Operation.checks (checks : List DateTime) : Operation → List DateTime
  | .periodicChecks resetsAt _ _ => resetsAt :: checks
  | _ => checks

def cadenceStep (countBytes : CountBytes) (s : Cadence) (op : Operation) : Option Cadence :=
  some ⟨op.apply countBytes s.db, op.checks s.checks⟩

/-- **A regular operation.**  The client is active or limited, checks are made at instants
in UTC that do not go back, nobody resets the client by hand or changes its strategy. -/
def Regular (id : Uuid) (strategy : String) (s : Cadence) (op : Operation) : Prop :=
  (∀ c, s.db.clients.find id = some c → c.status = "active" ∨ c.status = "limited") ∧
    match op with
    | .periodicChecks resetsAt _ _ =>
        resetsAt.offset = 0 ∧ ∀ t ∈ s.checks, t.nanos ≤ resetsAt.nanos
    | .resetTraffic _ id' => id' ≠ id
    | .updateClient _ id' payload => id' = id → payload.dataLimitResetStrategy.all (· = strategy)
    | .trafficReport _ _ _ | .onlineUsers _ _ _ => True

/-- The period counter starts over. -/
def StartsOver (now : DateTime) (c c' : Client) : Prop :=
  c'.allTimeUsedBytes = addI64 c.allTimeUsedBytes c.trafficUsedBytes ∧ c'.trafficUsedBytes = 0 ∧
    c'.lastTrafficResetTime = some now

/-- Counters and the time of the last reset stay. -/
def GoesOn (c c' : Client) : Prop :=
  c'.allTimeUsedBytes = c.allTimeUsedBytes ∧ c'.trafficUsedBytes = c.trafficUsedBytes ∧
    c'.lastTrafficResetTime = c.lastTrafficResetTime

/-- A check resets the client if it is the first one of its period, and only then. -/
def OnSchedule (id : Uuid) (strategy : String) (s : Cadence) (now : DateTime) (db' : Db) : Prop :=
  ∃ c c', s.db.clients.find id = some c ∧ db'.clients.find id = some c' ∧
    ((∀ t ∈ s.checks, ¬ SamePeriod strategy t now) → StartsOver now c c') ∧
    ((∃ t ∈ s.checks, SamePeriod strategy t now) → GoesOn c c')

/-- What the last reset knows: it is in the period of the latest check. -/
structure OnTime (id : Uuid) (strategy : String) (s : Cadence) : Prop where
  utc : ∀ t ∈ s.checks, t.offset = 0
  client : ∃ c, s.db.clients.find id = some c ∧ c.dataLimitResetStrategy = strategy ∧
    match c.lastTrafficResetTime with
    | none => s.checks = []
    | some last => last ∈ s.checks ∧ ∃ latest ∈ s.checks, SamePeriod strategy last latest ∧
        ∀ t ∈ s.checks, t.nanos ≤ latest.nanos

/-! ### One operation -/

/-- The row of the client after a check. -/
theorem find_apply_periodicChecks (countBytes : CountBytes) {db : Db} {id : Uuid} {c : Client}
    (hc : db.clients.find id = some c) (resetsAt : DateTime) (limitsAt : Client → DateTime)
    (holdsAt : DateTime) : ∃ status,
      (Operation.apply countBytes db (.periodicChecks resetsAt limitsAt holdsAt)).clients.find id =
        some { resetRow resetsAt c with status := status } := by
  obtain ⟨status, hrow⟩ :=
    checkedRow_eq resetsAt (limitsAt (resetRow resetsAt c)) holdsAt c
  refine ⟨status, ?_⟩
  change (runPeriodicChecks resetsAt limitsAt holdsAt db).clients.find id = _
  rw [find_runPeriodicChecks, hc, Option.map_some, hrow]

/-- Other regular operations leave the schedule of the client and its total alone. -/
theorem find_apply_of_regular (countBytes : CountBytes) {id : Uuid} {strategy : String}
    {s : Cadence} {op : Operation} {c : Client} (hc : s.db.clients.find id = some c)
    (hstrategy : c.dataLimitResetStrategy = strategy) (hop : Regular id strategy s op)
    (hcheck : ∀ resetsAt limitsAt holdsAt, op ≠ .periodicChecks resetsAt limitsAt holdsAt) :
    ∃ c', (op.apply countBytes s.db).clients.find id = some c' ∧
      c'.dataLimitResetStrategy = strategy ∧
      c'.lastTrafficResetTime = c.lastTrafficResetTime ∧
      c'.allTimeUsedBytes = c.allTimeUsedBytes ∧
      (c'.trafficUsedBytes = c.trafficUsedBytes ∨ ∃ agentId users hour,
        op = .trafficReport agentId users hour ∧
        CountedBy countBytes (nodeRate s.db agentId) (mentions s.db id users) c
          c'.trafficUsedBytes) := by
  cases op with
  | trafficReport agentId users hour =>
    obtain ⟨used, hfind, hused⟩ := find_handleTraffic_of_find countBytes agentId users hour hc
    exact ⟨_, hfind, hstrategy, rfl, rfl, Or.inr ⟨agentId, users, hour, rfl, hused⟩⟩
  | periodicChecks resetsAt limitsAt holdsAt => exact absurd rfl (hcheck resetsAt limitsAt holdsAt)
  | resetTraffic now id' =>
    refine ⟨c, ?_, hstrategy, rfl, rfl, Or.inl rfl⟩
    change ((resetClientTraffic now id' s.db).toOption.getD s.db).clients.find id = _
    rw [find_resetClientTraffic, hc, Option.map_some, if_neg hop.2]
  | onlineUsers agentId users times =>
    obtain ⟨c', hc', hrow⟩ := find_handleOnlineUsers_of_find agentId users times hc
    rcases hrow with rfl | ⟨-, now, rfl⟩
    · exact ⟨c', hc', hstrategy, rfl, rfl, Or.inl rfl⟩
    · exact ⟨_, hc', hstrategy, rfl, rfl, Or.inl rfl⟩
  | updateClient now id' payload =>
    have hfind := find_updateClient s.db id id' now payload
    rw [hc, Option.map_some] at hfind
    refine ⟨_, hfind, ?_, ?_, ?_, Or.inl ?_⟩
    · split
      · rename_i h
        have hkeeps := hop.2 h.1
        rw [UpdateClientPayload.apply]
        cases hnew : payload.dataLimitResetStrategy with
        | none => exact hstrategy
        | some σ =>
          rw [hnew] at hkeeps
          exact of_decide_eq_true hkeeps
      · exact hstrategy
    · split <;> rfl
    · split <;> rfl
    · split <;> rfl

/-- The last reset is due to be repeated exactly when no check was made in the period. -/
theorem shouldReset_iff {id : Uuid} {strategy : String} {s : Cadence} {c : Client}
    (hperiodic : strategy ∈ periodic) (hs : OnTime id strategy s)
    (hc : s.db.clients.find id = some c) {now : DateTime} (hutc : now.offset = 0)
    (hnow : ∀ t ∈ s.checks, t.nanos ≤ now.nanos) :
    shouldReset now c = true ↔ ∀ t ∈ s.checks, ¬ SamePeriod strategy t now := by
  obtain ⟨c₀, hc₀, rfl, hlast⟩ := hs.client
  cases hc.symm.trans hc₀
  rw [shouldReset_eq hperiodic]
  cases hreset : c.lastTrafficResetTime with
  | none =>
    rw [hreset] at hlast
    have hnone : s.checks = [] := hlast
    rw [hnone]
    exact iff_of_true rfl (fun t ht => absurd ht List.not_mem_nil)
  | some last =>
    rw [hreset] at hlast
    obtain ⟨hmem, latest, hlatest, hsame, hmax⟩ := hlast
    dsimp only
    rw [decide_eq_true_eq]
    constructor
    · intro hdue t ht htnow
      -- The latest check lies between `t` and now.
      have hbetween : period c.dataLimitResetStrategy latest.dateNaive =
          period c.dataLimitResetStrategy t.dateNaive :=
        period_of_between (dateNaive_mono (hs.utc t ht) (hs.utc latest hlatest) (hmax t ht))
          (dateNaive_mono (hs.utc latest hlatest) hutc (hnow latest hlatest)) htnow
      exact hdue (hsame.trans (hbetween.trans htnow))
    · exact fun hall => hall last hmem

theorem OnTime.step {countBytes : CountBytes} {id : Uuid} {strategy : String} {s s' : Cadence}
    {op : Operation} (hperiodic : strategy ∈ periodic) (hs : OnTime id strategy s)
    (hop : Regular id strategy s op) (h : cadenceStep countBytes s op = some s') :
    OnTime id strategy s' := by
  have hclient := hs.client
  obtain ⟨c, hc, hstrategy, hlast⟩ := hclient
  cases h
  by_cases hcheck : ∃ resetsAt limitsAt holdsAt, op = .periodicChecks resetsAt limitsAt holdsAt
  · obtain ⟨now, limitsAt, holdsAt, rfl⟩ := hcheck
    obtain ⟨hutc, hnow⟩ := hop.2
    obtain ⟨status, hrow⟩ := find_apply_periodicChecks countBytes hc now limitsAt
      holdsAt
    have hmax : ∀ t ∈ now :: s.checks, t.nanos ≤ now.nanos := by
      intro t ht
      rcases List.mem_cons.mp ht with rfl | ht
      · exact Int.le_refl _
      · exact hnow t ht
    refine ⟨fun t ht => ?_, _, hrow, ?_⟩
    · rcases List.mem_cons.mp ht with rfl | ht
      · exact hutc
      · exact hs.utc t ht
    by_cases hdue : shouldReset now c = true
    · have hreset : resetRow now c = resetPeriod now c c := if_pos ⟨hop.1 c hc, hdue⟩
      rw [hreset]
      exact ⟨hstrategy, List.mem_cons_self, now, List.mem_cons_self, rfl, hmax⟩
    · have hsame : resetRow now c = c := if_neg fun h => hdue h.2
      rw [shouldReset_iff hperiodic hs hc hutc hnow] at hdue
      push Not at hdue
      obtain ⟨t, ht, htnow⟩ := hdue
      rw [hsame]
      refine ⟨hstrategy, ?_⟩
      dsimp only
      cases hreset : c.lastTrafficResetTime with
      | none =>
        rw [hreset] at hlast
        have hnone : s.checks = [] := hlast
        rw [hnone] at ht
        exact absurd ht List.not_mem_nil
      | some last =>
        rw [hreset] at hlast
        obtain ⟨hmem, latest, hlatest, hlastLatest, hlatestMax⟩ := hlast
        have hbetween : period strategy latest.dateNaive = period strategy t.dateNaive :=
          period_of_between (dateNaive_mono (hs.utc t ht) (hs.utc latest hlatest)
            (hlatestMax t ht)) (dateNaive_mono (hs.utc latest hlatest) hutc (hnow latest hlatest))
            htnow
        exact ⟨List.mem_cons_of_mem now hmem, now, List.mem_cons_self,
          hlastLatest.trans (hbetween.trans htnow), hmax⟩
  · have hne : ∀ r l o, op ≠ .periodicChecks r l o := fun r l o heq => hcheck ⟨r, l, o, heq⟩
    obtain ⟨c', hc', hstrategy', hlast', -⟩ := find_apply_of_regular countBytes hc
      hstrategy hop hne
    have hchecks : op.checks s.checks = s.checks := by
      cases op <;> first | rfl | exact absurd rfl (hne _ _ _)
    refine ⟨?_, c', hc', hstrategy', ?_⟩
    · rw [hchecks]
      exact hs.utc
    · rw [hlast', hchecks]
      exact hlast

/-- A check of a client that is on time keeps to the schedule. -/
theorem onSchedule_of_onTime {countBytes : CountBytes} {id : Uuid} {strategy : String}
    {s : Cadence} (hperiodic : strategy ∈ periodic) (hs : OnTime id strategy s) {now : DateTime}
    {limitsAt : Client → DateTime} {holdsAt : DateTime}
    (hop : Regular id strategy s (.periodicChecks now limitsAt holdsAt)) :
    OnSchedule id strategy s now
      (Operation.apply countBytes s.db (.periodicChecks now limitsAt holdsAt)) := by
  obtain ⟨c, hc, -, -⟩ := hs.client
  obtain ⟨status, hrow⟩ := find_apply_periodicChecks countBytes hc now limitsAt
    holdsAt
  have hiff := shouldReset_iff hperiodic hs hc hop.2.1 hop.2.2
  refine ⟨c, _, hc, hrow, fun hfirst => ?_, fun ⟨t, ht, htnow⟩ => ?_⟩
  · have hreset : resetRow now c = resetPeriod now c c := if_pos ⟨hop.1 c hc, hiff.mpr hfirst⟩
    rw [hreset]
    exact ⟨rfl, rfl, rfl⟩
  · have hsame : resetRow now c = c := if_neg fun h => hiff.mp h.2 t ht htnow
    rw [hsame]
    exact ⟨rfl, rfl, rfl⟩

/-! ### The total -/

/-- An operation counts no negative bytes, and the 64-bit sums of the client do not
overflow. -/
def CountsUp (countBytes : CountBytes) (id : Uuid) (s : Cadence) (op : Operation) : Prop :=
  ∀ c, s.db.clients.find id = some c →
    match op with
    | .trafficReport agentId users _ => ∀ user ∈ mentions s.db id users,
        0 ≤ countBytes (nodeRate s.db agentId) user.uploadBytes ∧
          0 ≤ countBytes (nodeRate s.db agentId) user.downloadBytes ∧
          FitsI64 (c.trafficUsedBytes + countBytes (nodeRate s.db agentId) user.uploadBytes +
            countBytes (nodeRate s.db agentId) user.downloadBytes)
    | .periodicChecks _ _ _ => FitsI64 (c.allTimeUsedBytes + c.trafficUsedBytes)
    | _ => True

/-- The total of a client. -/
def allTime (id : Uuid) (db : Db) : Option Int := (db.clients.find id).map (·.allTimeUsedBytes)

/-- The total does not fall. -/
def Grows (id : Uuid) (db db' : Db) : Prop :=
  ∀ total total', allTime id db = some total → allTime id db' = some total' → total ≤ total'

/-- A counter that is not negative stays so, and the total grows. -/
theorem grows_step {countBytes : CountBytes} {id : Uuid} {strategy : String} {s : Cadence}
    {op : Operation} (hs : OnTime id strategy s) (hop : Regular id strategy s op)
    (hup : CountsUp countBytes id s op)
    (hused : ∀ c, s.db.clients.find id = some c → 0 ≤ c.trafficUsedBytes) :
    Grows id s.db (op.apply countBytes s.db) ∧
      ∀ c, (op.apply countBytes s.db).clients.find id = some c → 0 ≤ c.trafficUsedBytes := by
  obtain ⟨c, hc, hstrategy, -⟩ := hs.client
  have hnonneg := hused c hc
  have hgrows : ∀ c', (op.apply countBytes s.db).clients.find id = some c' →
      c.allTimeUsedBytes ≤ c'.allTimeUsedBytes → 0 ≤ c'.trafficUsedBytes →
      Grows id s.db (op.apply countBytes s.db) ∧
        ∀ c, (op.apply countBytes s.db).clients.find id = some c → 0 ≤ c.trafficUsedBytes := by
    intro c' hc' htotal hused'
    constructor
    · intro total total' h h'
      rw [allTime, hc] at h
      rw [allTime, hc'] at h'
      cases h
      cases h'
      exact htotal
    · intro c'' hc''
      cases hc'.symm.trans hc''
      exact hused'
  by_cases hcheck : ∃ resetsAt limitsAt holdsAt, op = .periodicChecks resetsAt limitsAt holdsAt
  · obtain ⟨now, limitsAt, holdsAt, rfl⟩ := hcheck
    obtain ⟨status, hrow⟩ := find_apply_periodicChecks countBytes hc now limitsAt
      holdsAt
    refine hgrows _ hrow ?_ ?_
    · rcases resetRow_cases now c with hsame | ⟨-, -, hreset, -⟩
      · exact Int.le_of_eq (by rw [hsame])
      · have hsum : addI64 c.allTimeUsedBytes c.trafficUsedBytes =
          c.allTimeUsedBytes + c.trafficUsedBytes := addI64_eq_iff.mpr (hup c hc)
        rw [hreset, resetPeriod, hsum]
        exact Int.le_add_of_nonneg_right hnonneg
    · rcases resetRow_cases now c with hsame | ⟨-, -, hreset, -⟩
      · rw [hsame]
        exact hnonneg
      · rw [hreset]
        exact Int.le_refl 0
  · obtain ⟨c', hc', -, -, htotal, hcounter⟩ := find_apply_of_regular countBytes hc
      hstrategy hop (fun r l o heq => hcheck ⟨r, l, o, heq⟩)
    refine hgrows c' hc' (Int.le_of_eq htotal.symm) ?_
    rcases hcounter with hsame | ⟨agentId, users, hour, rfl, hsame | ⟨user, hmem, -, hnew⟩⟩
    · rw [hsame]
      exact hnonneg
    · rw [hsame]
      exact hnonneg
    · obtain ⟨hupload, hdownload, hfits⟩ := hup c hc user hmem
      rw [hnew, addI64_addI64, bmod_eq_self_iff.mpr hfits]
      omega

/-- **Resets over runs.**  From the creation of a client with a strategy on, a regular
check resets it exactly if no earlier check fell into the same period; and while
operations count up, its total does not fall. -/
theorem resets_on_schedule {countBytes : CountBytes} {id : Uuid} {strategy : String} {db : Db}
    {c : Client} {ops : List Operation} {s : Cadence} (hperiodic : strategy ∈ periodic)
    (hc : db.clients.find id = some c) (hstrategy : c.dataLimitResetStrategy = strategy)
    (hnew : c.lastTrafficResetTime = none ∧ c.trafficUsedBytes = 0)
    (hregular : Run.Guarded (cadenceStep countBytes) (Regular id strategy) ⟨db, []⟩ ops)
    (hrun : Run.run (cadenceStep countBytes) ⟨db, []⟩ ops = some s) :
    (∀ now limitsAt holdsAt, Regular id strategy s (.periodicChecks now limitsAt holdsAt) →
      OnSchedule id strategy s now
        (Operation.apply countBytes s.db (.periodicChecks now limitsAt holdsAt))) ∧
    (Run.Guarded (cadenceStep countBytes) (CountsUp countBytes id) ⟨db, []⟩ ops →
      ∀ op, Regular id strategy s op → CountsUp countBytes id s op →
        Grows id s.db (op.apply countBytes s.db)) := by
  have hstart : OnTime id strategy ⟨db, []⟩ := by
    refine ⟨fun t ht => absurd ht List.not_mem_nil, c, hc, hstrategy, ?_⟩
    rw [hnew.1]
  constructor
  · intro now limitsAt holdsAt hop
    have hs : OnTime id strategy s := Run.inv_of_guarded (I := OnTime id strategy)
      (fun s op s' hs hop h => hs.step hperiodic hop h) hstart hregular hrun
    exact onSchedule_of_onTime hperiodic hs hop
  · intro hup op hop hcounts
    have hboth : Run.Guarded (cadenceStep countBytes)
        (fun s op => Regular id strategy s op ∧ CountsUp countBytes id s op) ⟨db, []⟩ ops :=
      Run.guarded_and hregular hup
    have hinv : OnTime id strategy s ∧
        ∀ c, s.db.clients.find id = some c → 0 ≤ c.trafficUsedBytes := by
      refine Run.inv_of_guarded (I := fun s => OnTime id strategy s ∧
        ∀ c, s.db.clients.find id = some c → 0 ≤ c.trafficUsedBytes)
        (fun s op s' hs hop h => ?_) ⟨hstart, fun c' hc' => ?_⟩ hboth hrun
      · refine ⟨hs.1.step hperiodic hop.1 h, ?_⟩
        cases h
        exact (grows_step hs.1 hop.1 hop.2 hs.2).2
      · cases hc.symm.trans hc'
        exact Int.le_of_eq hnew.2.symm
    exact (grows_step hinv.1 hop hcounts hinv.2).1

/-! ### A total that overflows -/

namespace Overflow

/-- A report of `2 ^ 62` bytes up and down. -/
def report : Operation :=
  .trafficReport (.ofNat 3) [(⟨"erin@example.com", 2 ^ 62, 2 ^ 62⟩, .ofNat 4)] default

def check (now : DateTime) : Operation := .periodicChecks now (fun _ => now) now

theorem find_client : ManualReset.db.clients.find ManualReset.client.id = some ManualReset.client :=
  Table.find_eq_some_iff.mpr ⟨List.mem_singleton_self _, rfl⟩

theorem regular_of_status {s : Cadence} {op : Operation}
    (hstatus : (s.db.clients.find ManualReset.client.id).all (·.status = "active") = true)
    (hop : match op with
      | .periodicChecks resetsAt _ _ => resetsAt.offset = 0 ∧ ∀ t ∈ s.checks, t.nanos ≤ resetsAt.nanos
      | .trafficReport _ _ _ => True
      | _ => False) : Regular ManualReset.client.id "monthly" s op := by
  refine ⟨fun c hc => ?_, ?_⟩
  · rw [hc] at hstatus
    exact Or.inl (of_decide_eq_true hstatus)
  · cases op <;> first | exact hop | exact False.elim hop

end Overflow

/-- **Byte counts that are not negative can make the total fall**: their sum overflows. -/
theorem all_time_falls : ∃ s, Run.run (cadenceStep ManualReset.countBytes) ⟨ManualReset.db, []⟩
      [Overflow.report] = some s ∧
    Run.Guarded (cadenceStep ManualReset.countBytes) (Regular ManualReset.client.id "monthly")
      ⟨ManualReset.db, []⟩ [Overflow.report] ∧
    Regular ManualReset.client.id "monthly" s (Overflow.check default) ∧
    (0 : Int) ≤ ManualReset.countBytes 0x3f800000 (2 ^ 62) ∧
    ¬ Grows ManualReset.client.id s.db
      ((Overflow.check default).apply ManualReset.countBytes s.db) := by
  have htotals : (allTime ManualReset.client.id
      (Overflow.report.apply ManualReset.countBytes ManualReset.db),
      allTime ManualReset.client.id ((Overflow.check default).apply ManualReset.countBytes
        (Overflow.report.apply ManualReset.countBytes ManualReset.db))) =
      (some 0, some (-2 ^ 63)) := by decide
  obtain ⟨hbefore, hafter⟩ := Prod.mk.inj htotals
  refine ⟨_, rfl, ⟨Overflow.regular_of_status (by decide) trivial, fun _ _ => trivial⟩,
    Overflow.regular_of_status (by decide) ⟨rfl, fun t ht => absurd ht List.not_mem_nil⟩,
    by decide, fun h => ?_⟩
  exact absurd (h 0 (-2 ^ 63) hbefore hafter) (by decide)

/-- The check of a month and another one in the same month. -/
theorem resets_on_schedule_monthly : ∃ s,
    Run.run (cadenceStep ManualReset.countBytes) ⟨ManualReset.db, []⟩ [Overflow.check default] =
      some s ∧
    OnSchedule ManualReset.client.id "monthly" s default
      ((Overflow.check default).apply ManualReset.countBytes s.db) := by
  have hregular : Run.Guarded (cadenceStep ManualReset.countBytes)
      (Regular ManualReset.client.id "monthly") ⟨ManualReset.db, []⟩ [Overflow.check default] :=
    ⟨Overflow.regular_of_status (by decide) ⟨rfl, fun t ht => absurd ht List.not_mem_nil⟩,
      fun _ _ => trivial⟩
  refine ⟨_, rfl, (resets_on_schedule (by decide) Overflow.find_client rfl ⟨rfl, rfl⟩ hregular
    rfl).1 default _ default ?_⟩
  refine Overflow.regular_of_status (by decide) ⟨rfl, fun t ht => ?_⟩
  cases List.mem_singleton.mp ht
  exact Int.le_refl _

end Hub

end ProxyPanel
