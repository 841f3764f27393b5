import ProxyPanel.Hub.RateLimiter

/-!
# Polling a rate limiter

A rejected call writes its bucket back with the moment of the call and drops what had
flowed in as a fraction of a token.  So a client that asks again too soon starts from
zero each time.  `admits_iff_rested` says when the call of a key that has waited for one
token is let through: when it really waited, asking included.
-/

namespace ProxyPanel.Hub.RateLimiter

open Run

/-! ### Calls one after another -/

/-- A call on its own: time passes up to its moment, it reads the clock, it updates. -/
def callActions (s : State) (c : Call) : List Action :=
  [.tick (c.now - s.time), .read c.key c.limit] ++
    if c.limit = 0 then [] else [.update s.pending.length]

def check (s : State) (c : Call) : Option State := run step s (callActions s c)

/-- The next call is let through. -/
def Admits (s : State) (c : Call) : Prop := (locked c.key c.limit c.now s.buckets).1 = true

instance (s : State) (c : Call) : Decidable (Admits s c) := inferInstanceAs (Decidable (_ = _))

/-- The key had no call let through in the time in which one token flows in. -/
def Waited (limit : Nat) (s : State) (c : Call) : Prop :=
  ∀ t ∈ admissions c.key s.answers, t ≤ c.now - 60 / limit

instance (limit : Nat) (s : State) (c : Call) : Decidable (Waited limit s c) :=
  inferInstanceAs (Decidable (∀ t ∈ admissions c.key s.answers, t ≤ c.now - 60 / limit))

/-- **A key that waited is let through.** -/
def NotStarved (s : State) (c : Call) : Prop := Waited c.limit s c → Admits s c

/-- The tokens that flowed in, as they are cast. -/
def refill (limit : Nat) (now : Instant) (b : BucketState) : Nat :=
  asU64 (durationSince now b.lastUpdate / window * limit)

/-- The key was not rejected either in the time in which one token flows in, and the sum of
the tokens does not wrap around to zero. -/
def Rested (s : State) (c : Call) : Prop :=
  Waited c.limit s c →
    (∀ a ∈ s.answers, a.key = c.key → a.allowed = false → a.time ≤ c.now - 60 / c.limit) ∧
    ∀ b, (cleanup c.now s.buckets).find c.key = some b → b.tokens + refill c.limit c.now b ≠ 2 ^ 64

/-- What a call makes of a state without pending calls. -/
theorem check_eq_some {s s' : State} {c : Call} (hpending : s.pending = [])
    (h : check s c = some s') : s.time ≤ c.now ∧ s' =
      if c.limit = 0 then { s with time := c.now }
      else { s with
        time := c.now
        buckets := (locked c.key c.limit c.now s.buckets).2
        answers := s.answers ++ [⟨c.key, c.now, (locked c.key c.limit c.now s.buckets).1⟩] } := by
  rw [check, callActions, List.cons_append, run_cons, step] at h
  have hnow : s.time + (c.now - s.time) = c.now := by ring
  split at h
  · rename_i htime
    refine ⟨sub_nonneg.mp htime, ?_⟩
    simp only [Option.bind_some, List.cons_append, List.nil_append, run_cons, step, hnow,
      hpending] at h
    split at h
    · rename_i hlimit
      rw [if_pos hlimit]
      simp only [Option.bind_some, run_nil] at h
      cases h
      rw [hpending]
    · rename_i hlimit
      rw [if_neg hlimit]
      simp only [Option.bind_some, run_cons, step, List.length_nil] at h
      cases h
      rw [hpending]
      rfl
  · cases h

/-! ### What a bucket remembers -/

/-- A clean-up leaves the bucket of a key or removes one that is an hour old. -/
theorem find_cleanup (now : Instant) (key : String) (buckets : Table BucketState) :
    (cleanup now buckets).find key = buckets.find key ∨
      (cleanup now buckets).find key = none ∧
        ∃ b, buckets.find key = some b ∧ b.lastUpdate ≤ now - 3600 := by
  rw [cleanup]
  split
  · rw [Table.find_deleteWhere]
    cases buckets.find key with
    | none => exact Or.inl rfl
    | some b =>
      by_cases hfresh : durationSince now b.lastUpdate < bucketMaxAge
      · exact Or.inl (by simp [Option.filter, hfresh])
      · refine Or.inr ⟨by simp [Option.filter, hfresh], b, rfl, ?_⟩
        rcases le_max_iff.mp (not_lt.mp hfresh) with h | h
        · rw [bucketMaxAge] at h
          linarith
        · exact absurd h (by decide)
  · exact Or.inl rfl

/-- The bucket of a key was written at its last call, and is empty if that was rejected. -/
def Written (limit : Nat) (answers : List Answer) (key : String) (b : BucketState) : Prop :=
  b.tokens ≤ limit ∧ (∀ a ∈ answers, a.key = key → a.time ≤ b.lastUpdate) ∧
    ∃ a ∈ answers, a.key = key ∧ a.time = b.lastUpdate ∧ (a.allowed = true ∨ b.tokens = 0)

/-- No call is waiting, and the bucket of the key, if it is there, is that of its last call;
one that was removed is an hour old. -/
structure Recorded (key : String) (limit : Nat) (s : State) : Prop where
  idle : s.pending = []
  removed : s.buckets.find key = none → ∀ a ∈ s.answers, a.key = key → a.time ≤ s.time - 3600
  written : ∀ b, s.buckets.find key = some b → Written limit s.answers key b

theorem recorded_initial (key : String) (limit : Nat) (start : Instant) :
    Recorded key limit { time := start } :=
  ⟨rfl, nofun, nofun⟩

/-- The call of another key at most removes the bucket. -/
theorem recorded_of_ne {key : String} {limit : Nat} {s : State} (hs : Recorded key limit s)
    {c : Call} (hne : c.key ≠ key) (htime : s.time ≤ c.now) (allowed : Bool) :
    Recorded key limit { s with
      time := c.now
      buckets := (locked c.key c.limit c.now s.buckets).2
      answers := s.answers ++ [⟨c.key, c.now, allowed⟩] } := by
  have hfind : (locked c.key c.limit c.now s.buckets).2.find key =
      (cleanup c.now s.buckets).find key := by
    rw [locked_eq, Table.find_put, if_neg]
    exact fun heq => hne ((key_credited c.key c.limit c.now s.buckets).symm.trans heq)
  have hanswers : ∀ a ∈ s.answers ++ [⟨c.key, c.now, allowed⟩], a.key = key → a ∈ s.answers := by
    intro a ha hkey
    rcases List.mem_append.mp ha with ha | ha
    · exact ha
    · cases List.mem_singleton.mp ha
      exact absurd hkey hne
  refine ⟨hs.idle, fun hnone a ha hkey => ?_, fun b hb => ?_⟩
  · rw [hfind] at hnone
    show a.time ≤ c.now - 3600
    rcases find_cleanup c.now key s.buckets with hsame | ⟨-, b, hb, hage⟩
    · have hold := hs.removed (hsame.symm.trans hnone) a (hanswers a ha hkey) hkey
      linarith
    · exact ((hs.written b hb).2.1 a (hanswers a ha hkey) hkey).trans hage
  · rw [hfind] at hb
    rcases find_cleanup c.now key s.buckets with hsame | ⟨hnone, -⟩
    · obtain ⟨htokens, hlast, a, ha, hwrote⟩ := hs.written b (hsame.symm.trans hb)
      exact ⟨htokens, fun a ha hkey => hlast a (hanswers a ha hkey) hkey, a,
        List.mem_append_left _ ha, hwrote⟩
    · rw [hnone] at hb
      cases hb

/-- The call of the key itself writes the bucket. -/
theorem recorded_self {key : String} {limit : Nat} {s : State} {now : Instant}
    (hs : Recorded key limit s) (hpast : ∀ a ∈ s.answers, a.time ≤ now) :
    Recorded key limit { s with
      time := now
      buckets := (locked key limit now s.buckets).2
      answers := s.answers ++ [⟨key, now, (locked key limit now s.buckets).1⟩] } := by
  have hfind : (locked key limit now s.buckets).2.find key =
      some { credited key limit now s.buckets with
        tokens := (credited key limit now s.buckets).tokens - 1 } := by
    rw [locked_eq, Table.find_put, if_pos]
    exact key_credited key limit now s.buckets
  refine ⟨hs.idle, fun hnone => ?_, fun b hb => ?_⟩
  · cases hfind.symm.trans hnone
  · cases hfind.symm.trans hb
    have hcap : (credited key limit now s.buckets).tokens ≤ limit := tokens_replenished_le _ _ _
    refine ⟨(Nat.sub_le _ _).trans hcap, fun a ha hkey => ?_,
      _, List.mem_append_right _ (List.mem_singleton_self _), rfl, rfl, ?_⟩
    · rcases List.mem_append.mp ha with ha | ha
      · exact hpast a ha
      · cases List.mem_singleton.mp ha
        exact le_refl _
    · rw [locked_eq]
      by_cases hpos : 0 < (credited key limit now s.buckets).tokens
      · exact Or.inl (decide_eq_true hpos)
      · refine Or.inr ?_
        show (credited key limit now s.buckets).tokens - 1 = 0
        omega

/-- **One call keeps what the bucket remembers.** -/
theorem recorded_step {key : String} {limit : Nat} {s s' : State} {c : Call}
    (hs : Recorded key limit s ∧ ∀ a ∈ s.answers, a.time ≤ s.time)
    (hfixed : c.key = key → c.limit = limit) (h : check s c = some s') :
    Recorded key limit s' ∧ ∀ a ∈ s'.answers, a.time ≤ s'.time := by
  obtain ⟨hrecorded, hpast⟩ := hs
  obtain ⟨htime, rfl⟩ := check_eq_some hrecorded.idle h
  have hpast' : ∀ a ∈ s.answers, a.time ≤ c.now := fun a ha => (hpast a ha).trans htime
  split
  · refine ⟨⟨hrecorded.idle, fun hnone a ha hkey => ?_, hrecorded.written⟩, hpast'⟩
    have hold := hrecorded.removed hnone a ha hkey
    show a.time ≤ c.now - 3600
    linarith
  · refine ⟨?_, fun a ha => ?_⟩
    · by_cases hkey : c.key = key
      · have hself := recorded_self hrecorded hpast'
        rw [hfixed hkey, hkey]
        exact hself
      · exact recorded_of_ne hrecorded hkey htime _
    · rcases List.mem_append.mp ha with ha | ha
      · exact hpast' a ha
      · cases List.mem_singleton.mp ha
        exact le_refl _

/-! ### When a call is let through -/

/-- A token flowed in if and only if the time of one token has passed. -/
theorem refill_pos_iff {limit : Nat} (hlimit : 0 < limit) {now : Instant} {b : BucketState}
    (h : b.lastUpdate ≤ now) : 0 < refill limit now b ↔ b.lastUpdate ≤ now - 60 / limit := by
  have helapsed : durationSince now b.lastUpdate = now - b.lastUpdate :=
    max_eq_left (sub_nonneg.mpr h)
  have hpos : (0 : ℚ) < limit := Nat.cast_pos.mpr hlimit
  have hcast : 0 < refill limit now b ↔ 1 ≤ (now - b.lastUpdate) / 60 * limit := by
    rw [refill, asU64, helapsed, window, ← Nat.floor_pos]
    omega
  rw [hcast, div_mul_eq_mul_div, le_div_iff₀ (by norm_num), one_mul, ← div_le_iff₀ hpos]
  exact le_sub_comm

/-- The tokens that an update finds. -/
theorem tokens_credited {key : String} {limit : Nat} (hfits : limit < 2 ^ 64) (now : Instant)
    (buckets : Table BucketState) : (credited key limit now buckets).tokens =
      match (cleanup now buckets).find key with
      | none => limit
      | some b => min ((b.tokens + refill limit now b) % 2 ^ 64) limit := by
  rw [credited, entry]
  cases (cleanup now buckets).find key with
  | none =>
    have hzero : durationSince now now = 0 := by rw [durationSince, sub_self, max_self]
    show min ((limit + asU64 (durationSince now now / window * limit)) % 2 ^ 64) limit = limit
    rw [hzero, zero_div, zero_mul, asU64, Nat.floor_zero, Nat.zero_min, Nat.add_zero,
      Nat.mod_eq_of_lt hfits, Nat.min_self]
  | some b => rfl

theorem admits_iff (s : State) (c : Call) :
    Admits s c ↔ 0 < (credited c.key c.limit c.now s.buckets).tokens := by
  rw [Admits, locked_eq]
  exact decide_eq_true_iff

/-- A key that waited is let through if and only if it rested. -/
theorem notStarved_iff_of_recorded {s : State} {c : Call} (hlimit : 0 < c.limit)
    (hfits : c.limit < 2 ^ 64) (hs : Recorded c.key c.limit s)
    (hpast : ∀ a ∈ s.answers, a.time ≤ s.time) (htime : s.time ≤ c.now) :
    NotStarved s c ↔ Rested s c := by
  refine imp_congr_right fun hwaited => ?_
  have hminute : (60 : ℚ) / c.limit ≤ 60 :=
    div_le_self (by norm_num) (Nat.one_le_cast.mpr hlimit)
  rw [admits_iff, tokens_credited hfits]
  rcases find_cleanup c.now c.key s.buckets with hsame | ⟨hnone, b, hb, hage⟩
  · rw [hsame]
    cases hb : s.buckets.find c.key with
    | none =>
      refine iff_of_true hlimit ⟨fun a ha hkey _ => ?_, nofun⟩
      have hold := hs.removed hb a ha hkey
      linarith
    | some b =>
      obtain ⟨htokens, hlast, a, ha, hkey, hat, hallowed⟩ := hs.written b hb
      have hnow : b.lastUpdate ≤ c.now := hat ▸ (hpast a ha).trans htime
      have hrefill := refill_pos_iff hlimit hnow
      have hcast : refill c.limit c.now b < 2 ^ 64 :=
        Nat.lt_of_le_pred (by decide) (Nat.min_le_right _ _)
      have hsum : 0 < min ((b.tokens + refill c.limit c.now b) % 2 ^ 64) c.limit ↔
          0 < b.tokens + refill c.limit c.now b ∧ b.tokens + refill c.limit c.now b ≠ 2 ^ 64 := by
        omega
      simp only [Option.some.injEq, forall_eq']
      rw [hsum]
      refine and_congr_left fun _ => ?_
      constructor
      · -- a rejected call since then would have emptied the bucket
        intro hpos a' ha' hkey' hrejected
        by_contra hlate
        have hzero : ¬ 0 < refill c.limit c.now b := by
          rw [hrefill]
          have hbefore := hlast a' ha' hkey'
          linarith
        rcases hallowed with hallowed | hempty
        · have hmem : a.time ∈ admissions c.key s.answers :=
            List.mem_map_of_mem (List.mem_filter.mpr ⟨ha, by simp [hkey, hallowed]⟩)
          have hwait := hwaited _ hmem
          rw [hat, ← hrefill] at hwait
          exact hzero hwait
        · omega
      · intro hrejected
        refine Nat.add_pos_right _ (hrefill.mpr ?_)
        rw [← hat]
        cases hwas : a.allowed with
        | false => exact hrejected a ha hkey hwas
        | true =>
          exact hwaited _ (List.mem_map_of_mem (List.mem_filter.mpr ⟨ha, by simp [hkey, hwas]⟩))
  · rw [hnone]
    refine iff_of_true hlimit ⟨fun a ha hkey _ => ?_, nofun⟩
    have hold := (hs.written b hb).2.1 a ha hkey
    linarith

/-- **Which keys starve.**  After any calls one after another, of this key with its limit
and of others with any, a call of a key that waited is let through if and only if the key
was not rejected either while it waited (and the sum of the tokens does not wrap). -/
theorem notStarved_iff_rested {start : Instant} {calls : List Call} {s : State} {c : Call}
    (hlimit : 0 < c.limit) (hfits : c.limit < 2 ^ 64)
    (hfixed : ∀ d ∈ calls, d.key = c.key → d.limit = c.limit)
    (hrun : run check { time := start } calls = some s) (htime : s.time ≤ c.now) :
    NotStarved s c ↔ Rested s c := by
  have hguarded : Guarded check (fun _ d => d.key = c.key → d.limit = c.limit)
      { time := start } calls := guarded_of_forall (fun d hd _ => hfixed d hd) _
  have hinv : Recorded c.key c.limit s ∧ ∀ a ∈ s.answers, a.time ≤ s.time :=
    inv_of_guarded (I := fun s => Recorded c.key c.limit s ∧ ∀ a ∈ s.answers, a.time ≤ s.time)
      (fun _ _ _ hs hok h => recorded_step hs hok h)
      ⟨recorded_initial c.key c.limit start, nofun⟩ hguarded hrun
  exact notStarved_iff_of_recorded hlimit hfits hinv.1 hinv.2 htime

/-! ### A client that polls -/

namespace Polling

/-- One call a second of a key that may make two a minute. -/
def call (second : ℚ) : Call := ⟨"key", 2, second⟩

def calls : List Call := [call 0, call 0, call 20, call 40, call 60]

end Polling

/-- **Two a minute, asked every twenty seconds**: after a minute without an admission the
next call is rejected again. -/
theorem polling_starves : ∃ s, run check { time := 0 } Polling.calls = some s ∧
    s.time ≤ (Polling.call 80).now ∧ ¬ NotStarved s (Polling.call 80) := by
  have hrun : (run check { time := 0 } Polling.calls).any (fun s =>
      decide (s.time ≤ 80 ∧ Waited 2 s (Polling.call 80) ∧ ¬ Admits s (Polling.call 80))) =
        true := by
    decide +kernel
  obtain ⟨s, hs, hafter⟩ := Option.any_eq_true _ _ |>.mp hrun
  obtain ⟨htime, hwaited, hrejected⟩ := of_decide_eq_true hafter
  exact ⟨s, hs, htime, fun h => hrejected (h hwaited)⟩

theorem notStarved_iff_rested_polling : ∃ s,
    run check { time := 0 } [Polling.call 0, Polling.call 0, Polling.call 20] = some s ∧
      (NotStarved s (Polling.call 50) ↔ Rested s (Polling.call 50)) := by
  have hrun : (run check { time := 0 }
      [Polling.call 0, Polling.call 0, Polling.call 20]).any (fun s => decide (s.time ≤ 50)) =
        true := by
    decide +kernel
  obtain ⟨s, hs, hafter⟩ := Option.any_eq_true _ _ |>.mp hrun
  have htime : s.time ≤ (Polling.call 50).now := of_decide_eq_true hafter
  exact ⟨s, hs, notStarved_iff_rested (by decide) (by decide) (by decide) hs htime⟩

end ProxyPanel.Hub.RateLimiter
