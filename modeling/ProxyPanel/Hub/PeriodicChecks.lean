import ProxyPanel.Hub.Usage

/-!
# The periodic checks

`run_periodic_checks` makes three passes over the clients: resets, limits and
expiry, clients on hold.  Each pass treats a client by itself, so the whole is a
function of one row (`checkedRow`).  `periodicChecks_spec` is about one instant for
all passes, `limitedMeansOver_of_guarded` about runs.
-/

namespace ProxyPanel

namespace Hub

/-! ### One row -/

/-- The reset of a period. -/
def resetRow (now : DateTime) (c : Client) : Client :=
  if (c.status = "active" ∨ c.status = "limited") ∧ shouldReset now c = true then
    resetPeriod now c c
  else c

/-- Expiry and limit. -/
def limitRow (now : DateTime) (c : Client) : Client :=
  if c.status = "active" then { c with status := (limitedStatus now c).getD c.status } else c

/-- The end of the time on hold. -/
def holdRow (now : DateTime) (c : Client) : Client :=
  if c.status = "on_hold" ∧ c.onHoldTimeout.any (·.before now) = true then
    { c with status := "expired" }
  else c

/-- A row after the three passes. -/
def checkedRow (resetsAt limitsAt holdsAt : DateTime) (c : Client) : Client :=
  holdRow holdsAt (limitRow limitsAt (resetRow resetsAt c))

theorem find_checkClientLimits (db : Db) (id : Uuid) (now : Client → DateTime) :
    (checkClientLimits now db).clients.find id =
      (db.clients.find id).map fun c => limitRow (now c) c := by
  have hid : ∀ c r : Client,
      key { r with status := (limitedStatus (now c) c).getD r.status } = key r := fun _ _ => rfl
  refine (Table.find_updateEach_filter hid id).trans ?_
  refine congrArg (Option.map · _) (funext fun c => ?_)
  simp only [limitRow, decide_eq_true_eq]

theorem find_checkOnHoldTimeouts (db : Db) (id : Uuid) (now : DateTime) :
    (checkOnHoldTimeouts now db).clients.find id =
      (db.clients.find id).map (holdRow now) := by
  have hid : ∀ c r : Client, key (if c.onHoldTimeout.any (·.before now) then
      { r with status := "expired" } else r) = key r := fun c r => by split <;> rfl
  refine (Table.find_updateEach_filter hid id).trans ?_
  refine congrArg (Option.map · _) (funext fun c => ?_)
  by_cases hstatus : c.status = "on_hold"
  · simp only [holdRow, hstatus, decide_true, if_true, true_and]
  · simp only [holdRow, hstatus, decide_false, Bool.false_eq_true, if_false, false_and]

/-- The three passes treat each client by itself. -/
theorem find_runPeriodicChecks (db : Db) (id : Uuid) (resetsAt : DateTime)
    (limitsAt : Client → DateTime) (holdsAt : DateTime) :
    (runPeriodicChecks resetsAt limitsAt holdsAt db).clients.find id =
      (db.clients.find id).map fun c =>
        checkedRow resetsAt (limitsAt (resetRow resetsAt c)) holdsAt c := by
  rw [runPeriodicChecks, find_checkOnHoldTimeouts, find_checkClientLimits,
    find_checkClientTrafficResets, Option.map_map, Option.map_map]
  rfl

/-! ### The rules -/

/-- The expiry date is over. -/
def Expired (now : DateTime) (c : Client) : Prop := c.expiryDate.any (·.before now) = true

/-- The counter of the period has reached the limit. -/
def OverLimit (c : Client) : Prop := 0 < c.trafficLimitBytes ∧ c.trafficLimitBytes ≤ c.trafficUsedBytes

/-- The time on hold is over. -/
def HeldTooLong (now : DateTime) (c : Client) : Prop :=
  c.onHoldTimeout.any (·.before now) = true

/-- The changes of status that the rules allow. -/
inductive Moves (now : DateTime) (c : Client) : String → Prop
  | stay : Moves now c c.status
  | reset (h : c.status = "limited") (hdue : shouldReset now c = true) : Moves now c "active"
  | expire (h : c.status = "active" ∨ c.status = "limited" ∧ shouldReset now c = true)
      (hexpired : Expired now c) : Moves now c "expired"
  | limit (h : c.status = "active") (hover : OverLimit c) : Moves now c "limited"
  | release (h : c.status = "on_hold") (hheld : HeldTooLong now c) : Moves now c "expired"

theorem limitedStatus_cases (now : DateTime) (c : Client) :
    (limitedStatus now c = some "expired" ∧ Expired now c) ∨
      (limitedStatus now c = some "limited" ∧ OverLimit c ∧ ¬ Expired now c) ∨
      (limitedStatus now c = none ∧ ¬ Expired now c ∧ ¬ OverLimit c) := by
  rw [limitedStatus]
  by_cases hexpired : c.expiryDate.any (·.before now) = true
  · exact Or.inl ⟨if_pos hexpired, hexpired⟩
  · rw [if_neg hexpired]
    by_cases hover : 0 < c.trafficLimitBytes ∧ c.trafficLimitBytes ≤ c.trafficUsedBytes
    · exact Or.inr (Or.inl ⟨if_pos hover, hover, hexpired⟩)
    · exact Or.inr (Or.inr ⟨if_neg hover, hexpired, hover⟩)

/-- What the limit pass leaves: an active row is neither expired nor over its limit. -/
theorem limitRow_cases (now : DateTime) (c : Client) :
    (c.status = "active" ∧ limitRow now c = { c with status := "expired" } ∧ Expired now c) ∨
      (c.status = "active" ∧ limitRow now c = { c with status := "limited" } ∧ OverLimit c) ∨
      (limitRow now c = c ∧ (c.status = "active" → ¬ Expired now c ∧ ¬ OverLimit c)) := by
  rw [limitRow]
  by_cases hactive : c.status = "active"
  · rw [if_pos hactive]
    rcases limitedStatus_cases now c with ⟨h, hexpired⟩ | ⟨h, hover, -⟩ | ⟨h, hrest⟩
    · exact Or.inl ⟨hactive, by rw [h]; rfl, hexpired⟩
    · exact Or.inr (Or.inl ⟨hactive, by rw [h]; rfl, hover⟩)
    · exact Or.inr (Or.inr ⟨by rw [h]; rfl, fun _ => hrest⟩)
  · rw [if_neg hactive]
    exact Or.inr (Or.inr ⟨rfl, fun h => absurd h hactive⟩)

theorem holdRow_cases (now : DateTime) (c : Client) :
    (c.status = "on_hold" ∧ HeldTooLong now c ∧ holdRow now c = { c with status := "expired" }) ∨
      (holdRow now c = c ∧ (c.status = "on_hold" → ¬ HeldTooLong now c)) := by
  rw [holdRow]
  by_cases h : c.status = "on_hold" ∧ c.onHoldTimeout.any (·.before now) = true
  · exact Or.inl ⟨h.1, h.2, if_pos h⟩
  · exact Or.inr ⟨if_neg h, fun hstatus hheld => h ⟨hstatus, hheld⟩⟩

theorem holdRow_of_ne {now : DateTime} {c : Client} (h : c.status ≠ "on_hold") :
    holdRow now c = c := if_neg fun hc => h hc.1

/-- Nothing is due at the instant of a reset. -/
theorem shouldReset_of_lastReset {now : DateTime} {c : Client}
    (h : c.lastTrafficResetTime = some now) : shouldReset now c = false := by
  rw [shouldReset]
  simp only [h, ne_eq, not_true_eq_false, decide_false, ite_self]

theorem shouldReset_resetRow (now : DateTime) (c : Client) :
    ¬ (((resetRow now c).status = "active" ∨ (resetRow now c).status = "limited") ∧
      shouldReset now (resetRow now c) = true) := by
  rw [resetRow]
  by_cases hdue : (c.status = "active" ∨ c.status = "limited") ∧ shouldReset now c = true
  · rw [if_pos hdue, shouldReset_of_lastReset (c := resetPeriod now c c) rfl]
    exact fun h => Bool.false_ne_true h.2
  · rw [if_neg hdue]
    exact hdue

/-- No rule applies to the row. -/
structure Quiet (now : DateTime) (c : Client) : Prop where
  reset : ¬ ((c.status = "active" ∨ c.status = "limited") ∧ shouldReset now c = true)
  limit : c.status = "active" → ¬ Expired now c ∧ ¬ OverLimit c
  hold : c.status = "on_hold" → ¬ HeldTooLong now c

theorem checkedRow_of_quiet {now : DateTime} {c : Client} (h : Quiet now c) :
    checkedRow now now now c = c := by
  have hreset : resetRow now c = c := if_neg h.reset
  have hlimit : limitRow now c = c := by
    rcases limitRow_cases now c with ⟨hactive, -, hexpired⟩ | ⟨hactive, -, hover⟩ | ⟨hsame, -⟩
    · exact absurd hexpired (h.limit hactive).1
    · exact absurd hover (h.limit hactive).2
    · exact hsame
  have hhold : holdRow now c = c := if_neg fun hc => h.hold hc.1 hc.2
  rw [checkedRow, hreset, hlimit, hhold]

theorem quiet_expired (now : DateTime) (c : Client) : Quiet now { c with status := "expired" } := by
  have hactive : "expired" ≠ "active" := by decide
  have hlimited : "expired" ≠ "limited" := by decide
  have hhold : "expired" ≠ "on_hold" := by decide
  exact ⟨fun h => h.1.elim hactive hlimited, fun h => absurd h hactive, fun h => absurd h hhold⟩

theorem holdRow_expired (now : DateTime) (c : Client) :
    holdRow now { c with status := "expired" } = { c with status := "expired" } :=
  holdRow_of_ne (c := { c with status := "expired" }) (by decide : "expired" ≠ "on_hold")

theorem holdRow_limited (now : DateTime) (c : Client) :
    holdRow now { c with status := "limited" } = { c with status := "limited" } :=
  holdRow_of_ne (c := { c with status := "limited" }) (by decide : "limited" ≠ "on_hold")

/-- The passes leave nothing to do. -/
theorem quiet_checkedRow (now : DateTime) (c : Client) : Quiet now (checkedRow now now now c) := by
  have hdue := shouldReset_resetRow now c
  rw [checkedRow]
  generalize resetRow now c = r at hdue ⊢
  rcases limitRow_cases now r with ⟨-, hrow, -⟩ | ⟨hactive, hrow, -⟩ | ⟨hrow, hlimit⟩
  · rw [hrow, holdRow_expired]
    exact quiet_expired now r
  · have hnotActive : "limited" ≠ "active" := by decide
    have hnotHold : "limited" ≠ "on_hold" := by decide
    rw [hrow, holdRow_limited]
    exact ⟨fun h => hdue ⟨Or.inl hactive, h.2⟩, fun h => absurd h hnotActive,
      fun h => absurd h hnotHold⟩
  · rw [hrow]
    rcases holdRow_cases now r with ⟨-, -, hheld⟩ | ⟨hsame, hhold⟩
    · rw [hheld]
      exact quiet_expired now r
    · rw [hsame]
      exact ⟨hdue, hlimit, hhold⟩

/-- A reset leaves an active row or none at all. -/
theorem resetRow_cases (now : DateTime) (c : Client) :
    resetRow now c = c ∨ ((c.status = "active" ∨ c.status = "limited") ∧
      shouldReset now c = true ∧ resetRow now c = resetPeriod now c c ∧
      (resetRow now c).status = "active") := by
  by_cases hdue : (c.status = "active" ∨ c.status = "limited") ∧ shouldReset now c = true
  · have hrow : resetRow now c = resetPeriod now c c := if_pos hdue
    refine Or.inr ⟨hdue.1, hdue.2, hrow, ?_⟩
    rw [hrow, resetPeriod]
    rcases hdue.1 with hactive | hlimited
    · simp only [hactive]
      rfl
    · simp only [hlimited, if_true]
  · exact Or.inl (if_neg hdue)

/-- After the reset the passes change the status only. -/
theorem checkedRow_eq (resetsAt limitsAt holdsAt : DateTime) (c : Client) : ∃ status,
    checkedRow resetsAt limitsAt holdsAt c = { resetRow resetsAt c with status := status } := by
  rw [checkedRow]
  generalize resetRow resetsAt c = r
  have hlimit : ∃ status, limitRow limitsAt r = { r with status := status } := by
    rcases limitRow_cases limitsAt r with ⟨-, hrow, -⟩ | ⟨-, hrow, -⟩ | ⟨hrow, -⟩
    · exact ⟨_, hrow⟩
    · exact ⟨_, hrow⟩
    · exact ⟨r.status, hrow⟩
  obtain ⟨status, hrow⟩ := hlimit
  rw [hrow]
  rcases holdRow_cases holdsAt { r with status := status } with ⟨-, -, hrow⟩ | ⟨hrow, -⟩
  · exact ⟨_, hrow⟩
  · exact ⟨_, hrow⟩

/-- The status after the passes is one the rules allow. -/
theorem moves_checkedRow (now : DateTime) (c : Client) :
    Moves now c (checkedRow now now now c).status := by
  rw [checkedRow]
  rcases resetRow_cases now c with hreset | ⟨hstatus, hdue, hreset, hactive⟩
  · rw [hreset]
    rcases limitRow_cases now c with ⟨hactive, hrow, hexpired⟩ | ⟨hactive, hrow, hover⟩ | ⟨hrow, -⟩
    · rw [hrow, holdRow_expired]
      exact .expire (Or.inl hactive) hexpired
    · rw [hrow, holdRow_limited]
      exact .limit hactive hover
    · rw [hrow]
      rcases holdRow_cases now c with ⟨hhold, hheld, hrow⟩ | ⟨hsame, -⟩
      · rw [hrow]
        exact .release hhold hheld
      · rw [hsame]
        exact .stay
  · have hnotOver : ¬ OverLimit (resetRow now c) := by
      rw [hreset]
      exact fun h => absurd (Int.lt_of_lt_of_le h.1 h.2) (Int.lt_irrefl 0)
    have hdate : (resetRow now c).expiryDate = c.expiryDate := by rw [hreset]; rfl
    rcases limitRow_cases now (resetRow now c) with ⟨-, hrow, hexpired⟩ | ⟨-, -, hover⟩ | ⟨hrow, -⟩
    · rw [hrow, holdRow_expired]
      rw [Expired, hdate] at hexpired
      exact .expire (hstatus.imp id fun h => ⟨h, hdue⟩) hexpired
    · exact absurd hover hnotOver
    · rw [hrow, holdRow_of_ne (by rw [hactive]; decide), hactive]
      rcases hstatus with h | h
      · exact h ▸ .stay
      · exact .reset h hdue

/-- **One pass of the checks.**  After the checks at an instant no active client is
expired or over its limit and no client is on hold for too long; every status that
changed was changed by a rule, and another pass at the same instant changes no row. -/
theorem periodicChecks_spec (now : DateTime) (db : Db) :
    (∀ c ∈ (runPeriodicChecks now (fun _ => now) now db).clients.rows, c.status = "active" →
      ¬ Expired now c ∧ ¬ OverLimit c) ∧
    (∀ c ∈ (runPeriodicChecks now (fun _ => now) now db).clients.rows, c.status = "on_hold" →
      ¬ HeldTooLong now c) ∧
    (∀ id c c', db.clients.find id = some c →
      (runPeriodicChecks now (fun _ => now) now db).clients.find id = some c' →
        Moves now c c'.status) ∧
    ∀ id, (runPeriodicChecks now (fun _ => now) now
        (runPeriodicChecks now (fun _ => now) now db)).clients.find id =
      (runPeriodicChecks now (fun _ => now) now db).clients.find id := by
  have hrow : ∀ id c', (runPeriodicChecks now (fun _ => now) now db).clients.find id = some c' →
      ∃ c, db.clients.find id = some c ∧ c' = checkedRow now now now c := by
    intro id c' h
    rw [find_runPeriodicChecks] at h
    obtain ⟨c, hc, hchecked⟩ := Option.map_eq_some_iff.mp h
    exact ⟨c, hc, hchecked.symm⟩
  have hquiet : ∀ c ∈ (runPeriodicChecks now (fun _ => now) now db).clients.rows, Quiet now c := by
    rw [Table.forall_mem_iff_find]
    intro id c' h
    obtain ⟨c, -, rfl⟩ := hrow id c' h
    exact quiet_checkedRow now c
  refine ⟨fun c hc => (hquiet c hc).limit, fun c hc => (hquiet c hc).hold, ?_, ?_⟩
  · intro id c c' hc hc'
    obtain ⟨c₀, hc₀, rfl⟩ := hrow id c' hc'
    cases hc.symm.trans hc₀
    exact moves_checkedRow now c
  · intro id
    rw [find_runPeriodicChecks (runPeriodicChecks now (fun _ => now) now db)]
    cases hc : (runPeriodicChecks now (fun _ => now) now db).clients.find id with
    | none => rfl
    | some c => rw [Option.map_some, checkedRow_of_quiet (hquiet c (Table.mem_of_find hc))]

/-! ### What reports do to every row -/

/-- What counting keeps holds of every client after a report. -/
theorem forall_handleTraffic {P : Client → Prop} {countBytes : CountBytes} {db : Db}
    (agentId : Uuid) (users : List (UserTraffic × Uuid)) (hour : DateTime)
    (hdb : ∀ c ∈ db.clients.rows, P c)
    (hcount : ∀ r used, P r → P { r with trafficUsedBytes := used }) :
    ∀ c ∈ (handleTraffic countBytes db agentId users hour).clients.rows, P c := by
  rw [handleTraffic]
  generalize resolveClientIds db (users.map (·.1.clientId)) = resolved
  have hloop : ∀ (clients : Table Client) (rate : BitVec 32) (us : List (UserTraffic × Uuid)) (d : Db),
      (∀ c ∈ d.clients.rows, P c) → ∀ c ∈ (us.foldl (handleUserTraffic countBytes clients resolved
        agentId rate hour) d).clients.rows, P c := by
    intro clients rate us
    induction us with
    | nil => exact fun d hd => hd
    | cons u us ih =>
      intro d hd
      rw [List.foldl_cons]
      refine ih _ ?_
      rw [handleUserTraffic]
      split
      · exact hd
      simp only [countTraffic]
      split
      · rw [clients_upsertUsage]
        exact hd
      · split
        · rw [clients_upsertUsage]
          exact hd
        · simp only [clients_upsertUsage]
          exact Table.forall_mem_update hd (fun r _ _ hr => hcount r _ hr)
  exact hloop db.clients _ users db hdb

/-- What activation keeps holds of every client after an online report. -/
theorem forall_handleOnlineUsers {P : Client → Prop} {db : Db} (agentId : Uuid)
    (users : List (OnlineUser × Uuid)) (times : OnlineTimes) (hdb : ∀ c ∈ db.clients.rows, P c)
    (hactivate : ∀ c ∈ db.clients.rows, c.status = "on_hold" → ∀ user ∈ users, ∀ date,
      expireDate c (times.entryAt user) = some date → ∀ r, P r → P { r with
        status := "active"
        expiryDate := date
        updatedAt := times.entryAt user }) :
    ∀ c ∈ (handleOnlineUsers db agentId users times).clients.rows, P c := by
  refine @keeps_handleOnlineUsers (fun d => ∀ c ∈ d.clients.rows, P c) db agentId users times
    (fun d t hd => hd) (fun d d' clientId user huser hd hd' => ?_) hdb
  rcases activateOnHold_cases hd' with rfl | ⟨c, date, hc, hhold, hdate, rfl⟩
  · exact hd
  · exact Table.forall_mem_update hd fun r _ _ hr =>
      hactivate c (Table.mem_of_find hc) hhold user huser date hdate r hr

/-! ### Limited clients over runs -/

/-- A client is limited only when it is over its limit. -/
def LimitedMeansOver (db : Db) : Prop := ∀ c ∈ db.clients.rows, c.status = "limited" → OverLimit c

/-- **What keeps a limited client over its limit.**  A report does not take its counter
below the limit, an administrator does not reset its counter, and gives it no other limit
than one it is over.  Updates do not set the status. -/
def KeepsLimited (countBytes : CountBytes) (db : Db) : Operation → Prop
  | .trafficReport agentId users _ => ∀ c ∈ db.clients.rows, c.status = "limited" →
      ∀ user ∈ mentions db c.id users, c.trafficLimitBytes ≤
        addI64 (addI64 c.trafficUsedBytes (countBytes (nodeRate db agentId) user.uploadBytes))
          (countBytes (nodeRate db agentId) user.downloadBytes)
  | .resetTraffic _ id => ∀ c ∈ db.clients.rows, c.status = "limited" → c.id ≠ id
  | .updateClient _ id payload => payload.status = none ∧
      ∀ c ∈ db.clients.rows, c.status = "limited" → c.id = id →
        ∀ limit, payload.trafficLimitBytes = some limit →
          0 < limit ∧ limit ≤ c.trafficUsedBytes
  | .periodicChecks _ _ _ | .onlineUsers _ _ _ => True

/-- The database after an operation, as a step. -/
def operationStep (countBytes : CountBytes) (db : Db) (op : Operation) : Option Db :=
  some (op.apply countBytes db)

theorem limitedMeansOver_handleTraffic {countBytes : CountBytes} {db : Db} {agentId : Uuid}
    {users : List (UserTraffic × Uuid)} {hour : DateTime} (hdb : LimitedMeansOver db)
    (hkeeps : KeepsLimited countBytes db (.trafficReport agentId users hour)) :
    LimitedMeansOver (handleTraffic countBytes db agentId users hour) := by
  rw [handleTraffic]
  simp only [KeepsLimited, mentions] at hkeeps
  generalize resolveClientIds db (users.map (·.1.clientId)) = resolved at hkeeps ⊢
  -- A row keeps the status and the limit of the row that was read before the loop.
  have hloop : ∀ (us : List (UserTraffic × Uuid)) (d : Db), (∀ u ∈ us, u ∈ users) →
      (∀ r ∈ d.clients.rows, ∃ c, db.clients.find r.id = some c ∧ c.status = r.status ∧
        c.trafficLimitBytes = r.trafficLimitBytes ∧ (r.status = "limited" → OverLimit r)) →
      LimitedMeansOver (us.foldl (handleUserTraffic countBytes db.clients resolved agentId
        (nodeRate db agentId) hour) d) := by
    intro us
    induction us with
    | nil =>
      intro d _ hrows r hr hlimited
      obtain ⟨c, -, -, -, hover⟩ := hrows r hr
      exact hover hlimited
    | cons u us ih =>
      intro d hsub hrows
      rw [List.foldl_cons]
      refine ih _ (fun v hv => hsub v (List.mem_cons_of_mem u hv)) ?_
      rw [handleUserTraffic]
      split
      · exact hrows
      rename_i clientId hresolve
      simp only [countTraffic]
      cases hc : db.clients.find clientId with
      | none =>
        rw [clients_upsertUsage]
        exact hrows
      | some c =>
        simp only
        split
        · rw [clients_upsertUsage]
          exact hrows
        obtain rfl : c.id = clientId := Table.key_of_find hc
        simp only [clients_upsertUsage]
        refine Table.forall_mem_update hrows (fun r _ hkey hr => ?_)
        obtain ⟨c', hc', hstatus, hlimit, -⟩ := hr
        have hid : r.id = c.id := hkey
        rw [hid] at hc'
        cases hc.symm.trans hc'
        refine ⟨c, hid ▸ hc, hstatus, hlimit, fun hlimited => ?_⟩
        have hmem := Table.mem_of_find hc
        have hclimited := hstatus.trans hlimited
        refine ⟨hlimit ▸ (hdb c hmem hclimited).1, ?_⟩
        rw [← hlimit]
        refine hkeeps c hmem hclimited u.1 (List.mem_filter.mpr ⟨?_, by simpa using hresolve⟩)
        exact List.mem_map_of_mem (hsub u List.mem_cons_self)
  refine hloop users db (fun _ h => h) (fun r hr => ⟨r, ?_, rfl, rfl, hdb r hr⟩)
  exact Table.find_eq_some_iff.mpr ⟨hr, rfl⟩

theorem limitedMeansOver_handleOnlineUsers {db : Db} (hdb : LimitedMeansOver db) (agentId : Uuid)
    (users : List (OnlineUser × Uuid)) (times : OnlineTimes) :
    LimitedMeansOver (handleOnlineUsers db agentId users times) :=
  forall_handleOnlineUsers agentId users times hdb
    (fun _ _ _ _ _ _ _ _ _ hlimited => absurd hlimited (by decide : "active" ≠ "limited"))

theorem overLimit_checkedRow {resetsAt limitsAt holdsAt : DateTime} {c : Client}
    (hc : c.status = "limited" → OverLimit c)
    (h : (checkedRow resetsAt limitsAt holdsAt c).status = "limited") :
    OverLimit (checkedRow resetsAt limitsAt holdsAt c) := by
  have hreset : (resetRow resetsAt c).status = "limited" → OverLimit (resetRow resetsAt c) := by
    rcases resetRow_cases resetsAt c with hsame | ⟨-, -, -, hactive⟩
    · rw [hsame]
      exact hc
    · rw [hactive]
      exact fun h => absurd h (by decide)
  have hlimit : (limitRow limitsAt (resetRow resetsAt c)).status = "limited" →
      OverLimit (limitRow limitsAt (resetRow resetsAt c)) := by
    rcases limitRow_cases limitsAt (resetRow resetsAt c) with
      ⟨-, hrow, -⟩ | ⟨-, hrow, hover⟩ | ⟨hrow, -⟩
    · rw [hrow]
      exact fun h => absurd h (by decide : "expired" ≠ "limited")
    · rw [hrow]
      exact fun _ => hover
    · rw [hrow]
      exact hreset
  rw [checkedRow] at h ⊢
  rcases holdRow_cases holdsAt (limitRow limitsAt (resetRow resetsAt c)) with
    ⟨-, -, hrow⟩ | ⟨hrow, -⟩
  · rw [hrow] at h
    exact absurd h (by decide : "expired" ≠ "limited")
  · rw [hrow] at h ⊢
    exact hlimit h

theorem limitedMeansOver_runPeriodicChecks {db : Db} (hdb : LimitedMeansOver db)
    (resetsAt : DateTime) (limitsAt : Client → DateTime) (holdsAt : DateTime) :
    LimitedMeansOver (runPeriodicChecks resetsAt limitsAt holdsAt db) := by
  rw [LimitedMeansOver, Table.forall_mem_iff_find]
  intro id r hr
  rw [find_runPeriodicChecks] at hr
  obtain ⟨c, hc, rfl⟩ := Option.map_eq_some_iff.mp hr
  exact overLimit_checkedRow (hdb c (Table.mem_of_find hc))

theorem limitedMeansOver_updateClient {countBytes : CountBytes} {db : Db} {now : DateTime}
    {id : Uuid} {payload : UpdateClientPayload} (hdb : LimitedMeansOver db)
    (hkeeps : KeepsLimited countBytes db (.updateClient now id payload)) :
    LimitedMeansOver ((updateClient now id payload db).toOption.getD db) := by
  obtain ⟨hstatus, hlimit⟩ := hkeeps
  have hrow : LimitedMeansOver { db with clients := db.clients.update id (payload.apply now) } := by
    refine Table.forall_mem_update hdb (fun r hr hkey hover hlimited => ?_)
    have hsame : (payload.apply now r).status = r.status := by
      rw [UpdateClientPayload.apply, hstatus]
      rfl
    rw [hsame] at hlimited
    rw [OverLimit, UpdateClientPayload.apply]
    cases hnew : payload.trafficLimitBytes with
    | none => exact hover hlimited
    | some limit => exact hlimit r hr hlimited hkey limit hnew
  rw [updateClient]
  split
  · exact hdb
  · split
    · exact hdb
    · simp only [Except.toOption, Option.getD_some]
      split
      · exact hrow
      · exact hrow

theorem limitedMeansOver_resetClientTraffic {countBytes : CountBytes} {db : Db} {now : DateTime}
    {id : Uuid} (hdb : LimitedMeansOver db)
    (hkeeps : KeepsLimited countBytes db (.resetTraffic now id)) :
    LimitedMeansOver ((resetClientTraffic now id db).toOption.getD db) := by
  rw [resetClientTraffic]
  split
  · exact hdb
  · exact Table.forall_mem_update hdb
      (fun r hr hkey _ hlimited => absurd hkey (hkeeps r hr hlimited))

theorem limitedMeansOver_apply {countBytes : CountBytes} {db : Db} {op : Operation}
    (hdb : LimitedMeansOver db) (hkeeps : KeepsLimited countBytes db op) :
    LimitedMeansOver (op.apply countBytes db) := by
  cases op with
  | trafficReport agentId users hour => exact limitedMeansOver_handleTraffic hdb hkeeps
  | periodicChecks resetsAt limitsAt holdsAt =>
    exact limitedMeansOver_runPeriodicChecks hdb resetsAt limitsAt holdsAt
  | resetTraffic now id => exact limitedMeansOver_resetClientTraffic hdb hkeeps
  | onlineUsers agentId users times =>
    exact limitedMeansOver_handleOnlineUsers hdb agentId users times
  | updateClient now id payload => exact limitedMeansOver_updateClient hdb hkeeps

/-- **Limited means over the limit** in every state of a run of operations that keep
limited clients over their limits, in particular after each periodic check. -/
theorem limitedMeansOver_of_guarded {countBytes : CountBytes} {db db' : Db}
    {ops : List Operation} (hdb : LimitedMeansOver db)
    (hok : Run.Guarded (operationStep countBytes) (KeepsLimited countBytes) db ops)
    (hrun : Run.run (operationStep countBytes) db ops = some db') : LimitedMeansOver db' := by
  refine Run.inv_of_guarded (I := LimitedMeansOver) (fun d op d' hd hkeeps h => ?_) hdb hok hrun
  cases h
  exact limitedMeansOver_apply hd hkeeps

/-! ### Expiry over runs -/

/-- No active client was expired at `u`. -/
def ExpiryEnforced (u : DateTime) (db : Db) : Prop :=
  ∀ c ∈ db.clients.rows, c.status = "active" → ¬ Expired u c

/-- **What keeps expired clients out.**  Later checks come later, a client on hold is
activated for a time that is not over at `u`, and an administrator sets neither a status
nor an expiry date before `u`. -/
def KeepsExpiry (u : DateTime) (db : Db) : Operation → Prop
  | .periodicChecks _ limitsAt _ => ∀ c, (limitsAt c).before u = false
  | .onlineUsers _ users times => ∀ c ∈ db.clients.rows, c.status = "on_hold" →
      ∀ user ∈ users, ∀ date, expireDate c (times.entryAt user) = some (some date) →
        date.before u = false
  | .updateClient _ _ payload => payload.status = none ∧
      ∀ date, payload.expiryDate = some date → date.before u = false
  | .trafficReport _ _ _ | .resetTraffic _ _ => True

theorem expired_iff {u : DateTime} {c : Client} :
    Expired u c ↔ ∃ date, c.expiryDate = some date ∧ date.before u = true := by
  rw [Expired]
  cases c.expiryDate with
  | none => simp
  | some date => simp

/-- A date that is over is over later. -/
theorem Expired.mono {u u' : DateTime} {c : Client} (h : Expired u c) (hle : u'.before u = false) :
    Expired u' c := by
  obtain ⟨date, hdate, hbefore⟩ := expired_iff.mp h
  refine expired_iff.mpr ⟨date, hdate, ?_⟩
  simp only [DateTime.before, decide_eq_true_eq, decide_eq_false_iff_not] at hbefore hle ⊢
  omega

/-- The checks leave no active client whose date was over when the row was looked at. -/
theorem not_expired_checkedRow {resetsAt limitsAt holdsAt : DateTime} {c : Client}
    (h : (checkedRow resetsAt limitsAt holdsAt c).status = "active") :
    ¬ Expired limitsAt (checkedRow resetsAt limitsAt holdsAt c) := by
  rw [checkedRow] at h ⊢
  rcases holdRow_cases holdsAt (limitRow limitsAt (resetRow resetsAt c)) with
    ⟨-, -, hrow⟩ | ⟨hrow, -⟩
  · rw [hrow] at h
    exact absurd h (by decide : "expired" ≠ "active")
  · rw [hrow] at h ⊢
    rcases limitRow_cases limitsAt (resetRow resetsAt c) with
      ⟨-, hlimit, -⟩ | ⟨-, hlimit, -⟩ | ⟨hlimit, hrest⟩
    · rw [hlimit] at h
      exact absurd h (by decide : "expired" ≠ "active")
    · rw [hlimit] at h
      exact absurd h (by decide : "limited" ≠ "active")
    · rw [hlimit] at h ⊢
      exact (hrest h).1

theorem expiryEnforced_runPeriodicChecks {u resetsAt holdsAt : DateTime}
    {limitsAt : Client → DateTime} (hlate : ∀ c, (limitsAt c).before u = false) (db : Db) :
    ExpiryEnforced u (runPeriodicChecks resetsAt limitsAt holdsAt db) := by
  rw [ExpiryEnforced, Table.forall_mem_iff_find]
  intro id r hr hactive hexpired
  rw [find_runPeriodicChecks] at hr
  obtain ⟨c, -, rfl⟩ := Option.map_eq_some_iff.mp hr
  exact not_expired_checkedRow hactive (hexpired.mono (hlate _))

theorem expiryEnforced_updateClient {u now : DateTime} {id : Uuid} {payload : UpdateClientPayload}
    {db : Db} (hdb : ExpiryEnforced u db) (hkeeps : KeepsExpiry u db (.updateClient now id payload)) :
    ExpiryEnforced u ((updateClient now id payload db).toOption.getD db) := by
  rw [ExpiryEnforced, Table.forall_mem_iff_find]
  intro id' r hr
  rw [find_updateClient] at hr
  obtain ⟨c, hc, rfl⟩ := Option.map_eq_some_iff.mp hr
  have hkept := hdb c (Table.mem_of_find hc)
  split
  · have hstatus : (payload.apply now c).status = c.status := by
      rw [UpdateClientPayload.apply, hkeeps.1]
      rfl
    rw [hstatus]
    intro hactive hexpired
    cases hdate : payload.expiryDate with
    | none =>
      rw [Expired, UpdateClientPayload.apply, hdate] at hexpired
      exact hkept hactive hexpired
    | some date =>
      rw [Expired, UpdateClientPayload.apply, hdate] at hexpired
      have hbefore : date.before u = true := hexpired
      rw [hkeeps.2 date hdate] at hbefore
      cases hbefore
  · exact hkept

/-- One operation keeps expired clients out. -/
theorem expiryEnforced_apply {countBytes : CountBytes} {u : DateTime} {db : Db} {op : Operation}
    (hdb : ExpiryEnforced u db) (hkeeps : KeepsExpiry u db op) :
    ExpiryEnforced u (op.apply countBytes db) := by
  cases op with
  | trafficReport agentId users hour =>
    exact forall_handleTraffic agentId users hour hdb (fun _ _ h => h)
  | periodicChecks resetsAt limitsAt holdsAt => exact expiryEnforced_runPeriodicChecks hkeeps db
  | resetTraffic now id =>
    rw [Operation.apply, resetClientTraffic]
    split
    · exact hdb
    · exact Table.forall_mem_update hdb (fun _ _ _ h => h)
  | onlineUsers agentId users times =>
    refine forall_handleOnlineUsers agentId users times hdb
      (fun c hc hhold user huser date hexpire r _ _ hexpired => ?_)
    obtain ⟨date, rfl, hbefore⟩ := expired_iff.mp hexpired
    rw [hkeeps c hc hhold user huser date hexpire] at hbefore
    cases hbefore
  | updateClient now id payload => exact expiryEnforced_updateClient hdb hkeeps

/-- A state that follows a periodic check which looked at the clients at `u` or later. -/
def CheckedSince (countBytes : CountBytes) (u : DateTime) (db : Db) : Prop :=
  ∃ db₀ resetsAt limitsAt holdsAt ops, (∀ c, (limitsAt c).before u = false) ∧
    Run.Guarded (operationStep countBytes) (KeepsExpiry u)
      (runPeriodicChecks resetsAt limitsAt holdsAt db₀) ops ∧
    Run.run (operationStep countBytes) (runPeriodicChecks resetsAt limitsAt holdsAt db₀) ops = some db

theorem expiryEnforced_of_checkedSince {countBytes : CountBytes} {u : DateTime} {db : Db}
    (h : CheckedSince countBytes u db) : ExpiryEnforced u db := by
  obtain ⟨db₀, resetsAt, limitsAt, holdsAt, ops, hlate, hok, hrun⟩ := h
  refine Run.inv_of_guarded (I := ExpiryEnforced u) (fun d op d' hd hkeeps h => ?_)
    (expiryEnforced_runPeriodicChecks hlate db₀) hok hrun
  cases h
  exact expiryEnforced_apply hd hkeeps

/-! ### A client that stays limited -/

namespace StuckLimited

/-- A client with a limit and no resets. -/
def client : Client :=
  { ManualReset.client with trafficLimitBytes := 100, dataLimitResetStrategy := "no_reset" }

def db : Db where
  clients := .single client

def checks : Operation := .periodicChecks default (fun _ => default) default

/-- The client uses more than its limit and is limited. -/
def limited : List Operation :=
  [.trafficReport (.ofNat 3) [(⟨"erin@example.com", 70, 80⟩, .ofNat 4)] default, checks]

/-- An administrator resets the counter. -/
def reset : List Operation := limited ++ [.resetTraffic default client.id, checks]

theorem limitedMeansOver_db : LimitedMeansOver db := by
  intro c hc hlimited
  cases List.mem_singleton.mp hc
  exact absurd hlimited (by decide : "active" ≠ "limited")

end StuckLimited

/-- **A manual reset leaves a client limited** that is not over its limit any more. -/
theorem reset_client_stays_limited : ∃ db', Run.run (operationStep ManualReset.countBytes)
      StuckLimited.db StuckLimited.reset = some db' ∧
    LimitedMeansOver StuckLimited.db ∧ ¬ LimitedMeansOver db' := by
  refine ⟨_, rfl, StuckLimited.limitedMeansOver_db, fun h => ?_⟩
  have hrow : ((StuckLimited.reset.foldl (fun d op => op.apply ManualReset.countBytes d)
      StuckLimited.db).clients.find StuckLimited.client.id).map
        (fun c => (c.status, c.trafficUsedBytes)) = some ("limited", 0) := by decide
  obtain ⟨c, hc, hpair⟩ := Option.map_eq_some_iff.mp hrow
  obtain ⟨hstatus, hused⟩ := Prod.mk.inj hpair
  have hover := h c (Table.mem_of_find hc) hstatus
  rw [OverLimit, hused] at hover
  omega

theorem limitedMeansOver_of_guarded_limited : ∃ db', Run.run (operationStep ManualReset.countBytes)
      StuckLimited.db StuckLimited.limited = some db' ∧ LimitedMeansOver db' := by
  have hguarded : Run.Guarded (operationStep ManualReset.countBytes)
      (KeepsLimited ManualReset.countBytes) StuckLimited.db StuckLimited.limited := by
    refine ⟨fun c hc hlimited => ?_, fun _ _ => ⟨trivial, fun _ _ => trivial⟩⟩
    cases List.mem_singleton.mp hc
    exact absurd hlimited (by decide : "active" ≠ "limited")
  exact ⟨_, rfl, limitedMeansOver_of_guarded StuckLimited.limitedMeansOver_db hguarded rfl⟩

end Hub

end ProxyPanel
