import Mathlib.Data.Rat.Floor
import ProxyPanel.Lib.Run
import ProxyPanel.Lib.Table
import ProxyPanel.Lib.TokenBucket

/-!
# The rate limiter

`RateLimiter::check` reads the clock, waits for the lock and then updates the bucket of
its key; between the two any number of other calls can do both.  `step` takes the
reading and the locked update as steps of their own and `tick` lets time pass between
them.  A bucket is credited up to the reading and not up to the update, so a reading
that is old when the lock is free counts time twice: once for the calls that came
before it, and once more for those after it.  `rateBounded_of_timely` is the bound for
the runs in which no update does that.
-/

namespace ProxyPanel.Hub.RateLimiter

open Run TokenBucket

/-- Seconds of the monotonic clock. -/
abbrev Instant := ℚ

structure BucketState where
  key : String
  tokens : Nat
  lastUpdate : Instant
deriving DecidableEq

instance : HasKey BucketState String := ⟨BucketState.key⟩

def window : ℚ := 60

def bucketMaxAge : ℚ := 3600

/-- No time at all if the other moment is later. -/
def durationSince (now earlier : Instant) : ℚ := max (now - earlier) 0

/-- The cast of a float that is not negative. -/
def asU64 (x : ℚ) : Nat := min ⌊x⌋₊ (2 ^ 64 - 1)

def cleanup (now : Instant) (buckets : Table BucketState) : Table BucketState :=
  if 1000 < buckets.rows.length then
    buckets.deleteWhere fun bucket => !decide (durationSince now bucket.lastUpdate < bucketMaxAge)
  else buckets

/-- The bucket of a key, a full one if there is none. -/
def entry (key : String) (limit : Nat) (now : Instant) (buckets : Table BucketState) :
    BucketState :=
  (buckets.find key).getD ⟨key, limit, now⟩

def replenished (limit : Nat) (now : Instant) (bucket : BucketState) : BucketState :=
  let elapsed := durationSince now bucket.lastUpdate
  let replenish := asU64 (elapsed / window * limit)
  { bucket with tokens := min ((bucket.tokens + replenish) % 2 ^ 64) limit, lastUpdate := now }

/-- What `check` does while it holds the lock, with the reading it took before. -/
def locked (key : String) (limit : Nat) (now : Instant) (buckets : Table BucketState) :
    Bool × Table BucketState :=
  let buckets := cleanup now buckets
  let bucket := replenished limit now (entry key limit now buckets)
  if 0 < bucket.tokens then (true, buckets.put { bucket with tokens := bucket.tokens - 1 })
  else (false, buckets.put bucket)

/-! ### Concurrent calls -/

/-- A call between its reading of the clock and its update. -/
structure Call where
  key : String
  limit : Nat
  now : Instant

structure Answer where
  key : String
  time : Instant
  allowed : Bool

structure State where
  time : Instant
  buckets : Table BucketState := ∅
  pending : List Call := []
  answers : List Answer := []

inductive Action where
  | tick (d : ℚ)
  | read (key : String) (limit : Nat)
  | update (i : Nat)

def State.update (s : State) (i : Nat) (c : Call) : State :=
  let result := locked c.key c.limit c.now s.buckets
  { s with
    buckets := result.2
    pending := s.pending.eraseIdx i
    answers := s.answers ++ [⟨c.key, s.time, result.1⟩] }

/-- A call without a limit is let through before it reads the clock. -/
def step (s : State) : Action → Option State
  | .tick d => if 0 ≤ d then some { s with time := s.time + d } else none
  | .read key limit =>
    if limit = 0 then some s
    else some { s with pending := s.pending ++ [⟨key, limit, s.time⟩] }
  | .update i => s.pending[i]?.map fun c => s.update i c

/-! ### What is to hold -/

/-- The moments at which calls of a key were let through. -/
def admissions (key : String) (answers : List Answer) : List Instant :=
  (answers.filter fun a => decide (a.key = key) && a.allowed).map Answer.time

/-- **The limit is the number of calls let through each minute**, beside one full bucket. -/
def RateBounded (key : String) (limit : Nat) (s : State) : Prop :=
  ∀ start length : ℚ, 0 ≤ length →
    (during start length (admissions key s.answers) : ℚ) ≤ limit + limit * length / 60

/-- An update at `time` with an older reading credits no time twice: the bucket was not
written with a later reading, and would not be full before `time`. -/
def InTime (limit : Nat) (now time : Instant) : Option BucketState → Prop
  | none => now = time
  | some b => b.lastUpdate ≤ now ∧ (now = time ∨
      (b.tokens + ⌊limit * (now - b.lastUpdate) / 60⌋₊ : ℚ) + limit * (time - now) / 60 ≤ limit)

instance (limit : Nat) (now time : Instant) : DecidablePred (InTime limit now time)
  | none => inferInstanceAs (Decidable (_ = _))
  | some _ => inferInstanceAs (Decidable (_ ∧ _))

/-- The updates of a key are in time. -/
def Timely (key : String) (limit : Nat) (s : State) : Action → Prop
  | .update i => ∀ c, s.pending[i]? = some c → c.key = key →
    InTime limit c.now s.time ((cleanup c.now s.buckets).find key)
  | _ => True

/-! ### One update -/

/-- What the bucket of a key is good for: a missing one is made full. -/
def held (limit : Nat) (now : Instant) : Option BucketState → ℚ
  | none => limit
  | some b => level (limit : ℚ) (limit / 60) b.tokens b.lastUpdate now

theorem held_le (limit : Nat) (now : Instant) (b : Option BucketState) : held limit now b ≤ limit := by
  cases b with
  | none => exact le_refl _
  | some b => exact level_le _ _

theorem rate_nonneg (limit : Nat) : (0 : ℚ) ≤ limit / 60 := by positivity

theorem held_wait (limit : Nat) {now now' : Instant} (h : now ≤ now') (b : Option BucketState) :
    held limit now' b ≤ held limit now b + limit / 60 * (now' - now) := by
  cases b with
  | none => exact le_add_of_nonneg_right (mul_nonneg (rate_nonneg limit) (sub_nonneg.mpr h))
  | some b => exact level_wait (rate_nonneg limit) _ _ h

/-- A bucket that is old enough to be removed is full anyway. -/
theorem held_of_stale {limit : Nat} {now time : Instant} {b : BucketState} (htime : now ≤ time)
    (h : bucketMaxAge ≤ durationSince now b.lastUpdate) : held limit time (some b) = limit := by
  have hage : 3600 ≤ now - b.lastUpdate := by
    rcases le_max_iff.mp h with h | h
    · exact h
    · exact absurd h (by decide)
  have hflow : (limit : ℚ) / 60 * 3600 ≤ limit / 60 * (time - b.lastUpdate) :=
    mul_le_mul_of_nonneg_left (by linarith) (rate_nonneg limit)
  have htokens : (0 : ℚ) ≤ b.tokens := Nat.cast_nonneg _
  have hlimit : (0 : ℚ) ≤ limit := Nat.cast_nonneg _
  refine min_eq_right ?_
  linarith

theorem held_cleanup {limit : Nat} {now time : Instant} (htime : now ≤ time) (key : String)
    (buckets : Table BucketState) :
    held limit time ((cleanup now buckets).find key) = held limit time (buckets.find key) := by
  rw [cleanup]
  split
  · rw [Table.find_deleteWhere]
    cases hfind : buckets.find key with
    | none => rfl
    | some b =>
      by_cases hfresh : durationSince now b.lastUpdate < bucketMaxAge
      · simp [Option.filter, hfresh]
      · rw [held_of_stale htime (not_lt.mp hfresh)]
        simp [Option.filter, hfresh, held]
  · rfl

theorem asU64_le {x : ℚ} : asU64 x ≤ ⌊x⌋₊ := Nat.min_le_left _ _

theorem tokens_replenished_le (limit : Nat) (now : Instant) (b : BucketState) :
    (replenished limit now b).tokens ≤ limit := Nat.min_le_right _ _

theorem tokens_replenished {limit : Nat} {now : Instant} {b : BucketState}
    (h : b.lastUpdate ≤ now) :
    (replenished limit now b).tokens ≤ b.tokens + ⌊(limit : ℚ) * (now - b.lastUpdate) / 60⌋₊ := by
  have helapsed : durationSince now b.lastUpdate = now - b.lastUpdate :=
    max_eq_left (sub_nonneg.mpr h)
  have hproduct : (now - b.lastUpdate) / window * limit =
      (limit : ℚ) * (now - b.lastUpdate) / 60 := by
    rw [window]; ring
  calc (replenished limit now b).tokens
      ≤ (b.tokens + asU64 (durationSince now b.lastUpdate / window * limit)) % 2 ^ 64 :=
        Nat.min_le_left _ _
    _ ≤ b.tokens + asU64 (durationSince now b.lastUpdate / window * limit) := Nat.mod_le _ _
    _ ≤ b.tokens + ⌊(limit : ℚ) * (now - b.lastUpdate) / 60⌋₊ := by
        rw [helapsed, hproduct]
        exact Nat.add_le_add_left asU64_le _

/-- **An update in time credits nothing twice**: what the bucket holds after it, counted
from the reading, it held before. -/
theorem replenished_le_held {key : String} {limit : Nat} {now time : Instant}
    {found : Option BucketState} (hnow : now ≤ time)
    (h : InTime limit now time found) :
    ((replenished limit now (found.getD ⟨key, limit, now⟩)).tokens : ℚ) +
      limit / 60 * (time - now) ≤ held limit time found := by
  have hcap : ((replenished limit now (found.getD ⟨key, limit, now⟩)).tokens : ℚ) ≤ limit :=
    Nat.cast_le.mpr (tokens_replenished_le _ _ _)
  cases found with
  | none =>
    cases h
    rw [sub_self, mul_zero, add_zero]
    exact hcap
  | some b =>
    obtain ⟨hlast, hroom⟩ := h
    have htokens : ((replenished limit now b).tokens : ℚ) ≤
        b.tokens + ⌊(limit : ℚ) * (now - b.lastUpdate) / 60⌋₊ := by
      exact_mod_cast tokens_replenished hlast
    have hfloor : (⌊(limit : ℚ) * (now - b.lastUpdate) / 60⌋₊ : ℚ) ≤
        limit * (now - b.lastUpdate) / 60 := by
      refine Nat.floor_le ?_
      have hage : 0 ≤ now - b.lastUpdate := sub_nonneg.mpr hlast
      positivity
    refine le_min ?_ ?_
    · have hsplit : (limit : ℚ) / 60 * (time - b.lastUpdate) =
          limit * (now - b.lastUpdate) / 60 + limit / 60 * (time - now) := by ring
      show ((replenished limit now b).tokens : ℚ) + limit / 60 * (time - now) ≤ _
      linarith
    · rcases hroom with rfl | hroom
      · rw [sub_self, mul_zero, add_zero]
        exact hcap
      · have hflow : (limit : ℚ) / 60 * (time - now) = limit * (time - now) / 60 := by ring
        show ((replenished limit now b).tokens : ℚ) + limit / 60 * (time - now) ≤ _
        linarith

/-! ### All runs -/

/-- The calls of the key carry its limit, no reading is ahead of the clock, and what was
let through is paid for. -/
structure Inv (key : String) (limit : Nat) (s : State) : Prop where
  fixed : ∀ c ∈ s.pending, c.key = key → c.limit = limit
  past : ∀ c ∈ s.pending, c.now ≤ s.time
  metered : Metered (limit : ℚ) (limit / 60) s.time (held limit s.time (s.buckets.find key))
    (admissions key s.answers)

theorem inv_initial (key : String) (limit : Nat) (start : Instant) :
    Inv key limit { time := start } := by
  refine ⟨nofun, nofun, ?_⟩
  exact metered_nil (Nat.cast_nonneg _) (rate_nonneg limit) (le_refl _)

theorem admissions_append (key : String) (answers : List Answer) (a : Answer) :
    admissions key (answers ++ [a]) =
      admissions key answers ++ if a.key = key ∧ a.allowed = true then [a.time] else [] := by
  rw [admissions, List.filter_append, List.map_append]
  refine congrArg _ ?_
  by_cases h : a.key = key ∧ a.allowed = true
  · rw [if_pos h, List.filter_cons_of_pos (by simpa using h)]
    rfl
  · rw [if_neg h, List.filter_cons_of_neg (by simpa using h)]
    rfl

/-- The bucket of a key as an update finds it, credited up to its reading. -/
def credited (key : String) (limit : Nat) (now : Instant) (buckets : Table BucketState) :
    BucketState :=
  replenished limit now (entry key limit now (cleanup now buckets))

/-- An update writes the credited bucket back with one token less, if it has one. -/
theorem locked_eq (key : String) (limit : Nat) (now : Instant) (buckets : Table BucketState) :
    locked key limit now buckets = (decide (0 < (credited key limit now buckets).tokens),
      (cleanup now buckets).put { credited key limit now buckets with
        tokens := (credited key limit now buckets).tokens - 1 }) := by
  show (if 0 < (credited key limit now buckets).tokens then _ else _) = _
  by_cases hpos : 0 < (credited key limit now buckets).tokens
  · rw [if_pos hpos, decide_eq_true hpos]
    rfl
  · have hzero : (credited key limit now buckets).tokens - 1 =
        (credited key limit now buckets).tokens := by omega
    rw [if_neg hpos, decide_eq_false hpos, hzero]
    rfl

theorem key_entry (key : String) (limit : Nat) (now : Instant) (buckets : Table BucketState) :
    (entry key limit now buckets).key = key := by
  rw [entry]
  cases h : buckets.find key with
  | none => rfl
  | some b => exact Table.key_of_find h

theorem key_credited (key : String) (limit : Nat) (now : Instant) (buckets : Table BucketState) :
    (credited key limit now buckets).key = key := key_entry key limit now _

/-- A call for another key at most removes a bucket that is full again. -/
theorem held_locked_of_ne {key key' : String} (hne : key' ≠ key) (limit limit' : Nat)
    {now time : Instant} (hnow : now ≤ time) (buckets : Table BucketState) :
    held limit time ((locked key' limit' now buckets).2.find key) =
      held limit time (buckets.find key) := by
  rw [← held_cleanup hnow key buckets, locked_eq, Table.find_put, if_neg]
  exact fun heq => hne ((key_credited key' limit' now buckets).symm.trans heq)

/-- A call for the key in time is let through only if the bucket pays for it. -/
theorem metered_locked {key : String} {limit : Nat} {now time : Instant}
    {buckets : Table BucketState} {admitted : List Instant} (hnow : now ≤ time)
    (hmetered : Metered (limit : ℚ) (limit / 60) time (held limit time (buckets.find key)) admitted)
    (htimely : InTime limit now time ((cleanup now buckets).find key)) :
    Metered (limit : ℚ) (limit / 60) time
      (held limit time ((locked key limit now buckets).2.find key))
      (admitted ++ if (locked key limit now buckets).1 = true then [time] else []) := by
  have hheld : ((credited key limit now buckets).tokens : ℚ) + limit / 60 * (time - now) ≤
      held limit time (buckets.find key) := by
    rw [← held_cleanup hnow key buckets]
    exact replenished_le_held hnow htimely
  have hflow : 0 ≤ (limit : ℚ) / 60 * (time - now) :=
    mul_nonneg (rate_nonneg limit) (sub_nonneg.mpr hnow)
  have hfind : (locked key limit now buckets).2.find key =
      some { credited key limit now buckets with
        tokens := (credited key limit now buckets).tokens - 1 } := by
    rw [locked_eq, Table.find_put, if_pos]
    exact key_credited key limit now buckets
  have hafter : held limit time ((locked key limit now buckets).2.find key) ≤
      ((credited key limit now buckets).tokens - 1 : Nat) + limit / 60 * (time - now) := by
    rw [hfind]
    exact min_le_left _ _
  have hrest : 0 ≤ held limit time ((locked key limit now buckets).2.find key) := by
    rw [hfind]
    exact le_min (add_nonneg (Nat.cast_nonneg _) hflow) (Nat.cast_nonneg _)
  rw [show (locked key limit now buckets).1 = decide (0 < (credited key limit now buckets).tokens)
    by rw [locked_eq]]
  by_cases hpos : 0 < (credited key limit now buckets).tokens
  · rw [if_pos (decide_eq_true hpos)]
    have hone : (((credited key limit now buckets).tokens - 1 : Nat) : ℚ) + 1 =
        (credited key limit now buckets).tokens := by exact_mod_cast Nat.sub_add_cancel hpos
    exact hmetered.pay (rate_nonneg limit) (by linarith) hrest
  · rw [if_neg (by simpa using hpos), List.append_nil]
    have hfewer : (((credited key limit now buckets).tokens - 1 : Nat) : ℚ) ≤
        (credited key limit now buckets).tokens := Nat.cast_le.mpr (Nat.sub_le _ _)
    exact hmetered.of_le (by linarith)

theorem inv_update {key : String} {limit : Nat} {s : State} (h : Inv key limit s) {i : Nat}
    {c : Call} (hc : s.pending[i]? = some c) (htimely : Timely key limit s (.update i)) :
    Inv key limit (s.update i c) := by
  have hmem : c ∈ s.pending := List.mem_of_getElem? hc
  have hsub : ∀ d ∈ s.pending.eraseIdx i, d ∈ s.pending := fun d hd => List.mem_of_mem_eraseIdx hd
  refine ⟨fun d hd => h.fixed d (hsub d hd), fun d hd => h.past d (hsub d hd), ?_⟩
  show Metered _ _ s.time (held limit s.time ((locked c.key c.limit c.now s.buckets).2.find key))
    (admissions key (s.answers ++ [_]))
  rw [admissions_append]
  by_cases hkey : c.key = key
  · have hresult := metered_locked (h.past c hmem) h.metered (htimely c hc hkey)
    rw [hkey, h.fixed c hmem hkey]
    simpa using hresult
  · rw [if_neg fun hboth => hkey hboth.1, List.append_nil,
      held_locked_of_ne hkey limit c.limit (h.past c hmem)]
    exact h.metered

theorem inv_step {key : String} {limit : Nat} (s : State) (a : Action) (s' : State)
    (h : Inv key limit s)
    (hok : Timely key limit s a ∧ ∀ l, a = .read key l → l = limit) (hstep : step s a = some s') :
    Inv key limit s' := by
  cases a with
  | tick d =>
    rw [step] at hstep
    split at hstep
    · rename_i hd
      cases hstep
      have hlater : s.time ≤ s.time + d := le_add_of_nonneg_right hd
      exact ⟨h.fixed, fun c hc => (h.past c hc).trans hlater,
        h.metered.wait (rate_nonneg limit) hlater (held_wait limit hlater _) (held_le _ _ _)⟩
    · cases hstep
  | read key' l =>
    rw [step] at hstep
    split at hstep
    · cases hstep
      exact h
    · cases hstep
      refine ⟨fun c hc hkey => ?_, fun c hc => ?_, h.metered⟩
      · rcases List.mem_append.mp hc with hc | hc
        · exact h.fixed c hc hkey
        · cases List.mem_singleton.mp hc
          exact hok.2 l (by rw [← hkey])
      · rcases List.mem_append.mp hc with hc | hc
        · exact h.past c hc
        · cases List.mem_singleton.mp hc
          exact le_refl _
  | update i =>
    obtain ⟨c, hc, rfl⟩ := Option.map_eq_some_iff.mp hstep
    exact inv_update h hc hok.1

/-- **The bound of a key** in the runs in which its updates are in time: in every window
the calls let through are one full bucket and the limit for each minute, whatever the
calls for other keys do. -/
theorem rateBounded_of_timely (key : String) (limit : Nat) (start : Instant) (as : List Action)
    (s : State) (hfixed : ∀ l, Action.read key l ∈ as → l = limit)
    (htimely : Guarded step (Timely key limit) { time := start } as)
    (hrun : run step { time := start } as = some s) : RateBounded key limit s := by
  have hreads : Guarded step (fun _ a => ∀ l, a = .read key l → l = limit) { time := start } as :=
    guarded_of_forall (fun a ha _ l hl => hfixed l (by rw [← hl]; exact ha)) _
  have hinv : Inv key limit s :=
    inv_of_guarded inv_step (inv_initial key limit start) (guarded_and htimely hreads) hrun
  intro opening length hlength
  have hbound := hinv.metered.during_le opening length hlength
  rwa [div_mul_eq_mul_div] at hbound

/-- Two calls a minute apart, each updated when it read the clock. -/
def punctual : List Action := [.read "key" 1, .update 0, .tick 60, .read "key" 1, .update 0]

theorem rateBounded_of_timely_punctual : ∃ s, run step { time := 0 } punctual = some s ∧
    (admissions "key" s.answers).length = 2 ∧ RateBounded "key" 1 s := by
  have hrun : (run step { time := 0 } punctual).any fun s =>
      (admissions "key" s.answers).length == 2 := by decide +kernel
  obtain ⟨s, hs, hlength⟩ := Option.any_eq_true _ _ |>.mp hrun
  refine ⟨s, hs, by simpa using hlength,
    rateBounded_of_timely "key" 1 0 punctual s (by simp [punctual]) ?_ hs⟩
  refine ⟨trivial, fun t ht => ?_⟩
  cases ht
  refine ⟨fun c hc _ => ?_, fun t ht => ?_⟩
  · cases hc
    decide
  · cases ht
    refine ⟨trivial, fun t ht => ?_⟩
    cases ht
    refine ⟨trivial, fun t ht => ?_⟩
    cases ht
    refine ⟨fun c hc _ => ?_, fun t ht => trivial⟩
    cases hc
    decide +kernel

/-- The first call reads the clock and waits for the lock while a second one, a minute
later, makes the bucket; its update then sets the bucket back by that minute. -/
def overtaken : List Action :=
  [.read "key" 1, .tick 60, .read "key" 1, .update 1, .update 0, .read "key" 1, .update 0]

/-- Two calls of a key that may make one each minute are let through at one moment. -/
theorem overtaken_admits_two : ¬ ∀ (key : String) (limit : Nat) (start : Instant)
    (as : List Action) (s : State), 0 < limit → (∀ l, Action.read key l ∈ as → l = limit) →
    run step { time := start } as = some s → RateBounded key limit s := by
  intro h
  have hrun : (run step { time := 0 } overtaken).any fun s =>
      during 60 0 (admissions "key" s.answers) == 2 := by decide +kernel
  obtain ⟨s, hs, htwo⟩ := Option.any_eq_true _ _ |>.mp hrun
  have hbound := h "key" 1 0 overtaken s (by decide) (by simp [overtaken]) hs 60 0 (le_refl _)
  rw [beq_iff_eq.mp htwo] at hbound
  norm_num at hbound

end ProxyPanel.Hub.RateLimiter
