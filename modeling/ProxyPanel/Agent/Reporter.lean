import Mathlib.Algebra.Order.BigOperators.Group.List
import Mathlib.Algebra.Order.Group.Int
import ProxyPanel.Lib.Growth

/-!
# The traffic reporter of the agent

The API of a core gives cumulative counters: two totals for the whole kernel and two
for each live connection.  The reporter keeps the last sample and reports what came
since: `total_delta` for the totals, `user_deltas` for each user.  A sample is a map
from connection ids, and nothing depends on the order a map is iterated in.

`deltas_conserved` is the conservation law: over samples of steady connections, what
is reported for a user adds up to the last counters of the connections of the user.
Byte counts are 64-bit and wrap, so what a user transfers between two samples has to
fit (`Fits`).
-/

namespace ProxyPanel.Agent.Reporter

open Growth

/-! ### What the core gives -/

structure Connection where
  id : String
  user : String
  uplinkTotal : Int64
  downlinkTotal : Int64

structure ConnectionEvent where
  type : Int
  connection : Option Connection

instance : HasKey Connection String := ⟨Connection.id⟩

/-- Bytes reported for a user. -/
structure UserDelta where
  user : String
  upload : Int64
  download : Int64
  deriving DecidableEq

instance : HasKey UserDelta String := ⟨UserDelta.user⟩

/-! ### Deltas -/

def saturatingSub (a b : Int64) : Int64 := Int64.ofIntClamp (a.toInt - b.toInt)

/-- What came since the last totals; the first sample counts in full. -/
def totalDelta (prev : Option (Int64 × Int64)) (cur : Int64 × Int64) : Int64 × Int64 :=
  match prev with
  | some (up, down) => (max (saturatingSub cur.1 up) 0, max (saturatingSub cur.2 down) 0)
  | none => cur

/-- The connections of a sample: those that are open and have a user. -/
def connectionSnapshot (events : List ConnectionEvent) : Table Connection :=
  events.foldl (fun snapshot event =>
    if event.type = 2 then snapshot
    else
      match event.connection with
      | none => snapshot
      | some conn => if conn.user = "" then snapshot else snapshot.put conn) ∅

/-- What came over a connection since the last sample. -/
def connectionDelta (prev : Table Connection) (conn : Connection) : Int64 × Int64 :=
  match prev.find conn.id with
  | some before => (max (saturatingSub conn.uplinkTotal before.uplinkTotal) 0,
      max (saturatingSub conn.downlinkTotal before.downlinkTotal) 0)
  | none => (conn.uplinkTotal, conn.downlinkTotal)

/-- One connection of `user_deltas`. -/
def addConnection (prev : Table Connection) (perUser : Table UserDelta) (conn : Connection) :
    Table UserDelta :=
  let (dup, ddown) := connectionDelta prev conn
  if dup = 0 ∧ ddown = 0 then perUser
  else
    let entry := (perUser.find conn.user).getD ⟨conn.user, 0, 0⟩
    perUser.put ⟨conn.user, entry.upload + dup, entry.download + ddown⟩

def userDeltas (prev snapshot : Table Connection) : Table UserDelta :=
  snapshot.rows.foldl (addConnection prev) ∅

/-! ### The sampling state -/

structure SingboxTrafficState where
  prevTotal : Option (Int64 × Int64) := none
  prevConns : Table Connection := ∅

structure InboundTraffic where
  tag : String
  uploadBytes : Int64
  downloadBytes : Int64
  deriving DecidableEq

structure UserTraffic where
  clientId : String
  email : String
  uploadBytes : Int64
  downloadBytes : Int64
  deriving DecidableEq

/-- The node-level entry of a core, when there is something to report. -/
def inboundEntry (tag : String) (delta : Int64 × Int64) : List InboundTraffic :=
  if 0 < delta.1 ∨ 0 < delta.2 then [⟨tag, delta.1, delta.2⟩] else []

/-- `collect_singbox_traffic_grpc`, once the status and the connections are read. -/
def collectSingboxTrafficGrpc (state : SingboxTrafficState) (status : Int64 × Int64)
    (events : List ConnectionEvent) :
    SingboxTrafficState × List InboundTraffic × List UserTraffic :=
  let snapshot := connectionSnapshot events
  (⟨some status, snapshot⟩,
    inboundEntry "sing-box" (totalDelta state.prevTotal status),
    (userDeltas state.prevConns snapshot).rows.map fun d => ⟨d.user, d.user, d.upload, d.download⟩)

/-- `collect_mihomo_traffic`, once a sample is read. -/
def collectMihomoTraffic (state : Option (Int64 × Int64)) (sample : Int64 × Int64) :
    Option (Int64 × Int64) × List InboundTraffic :=
  (some sample, inboundEntry "mihomo" (totalDelta state sample))

/-! ### Runs of samples -/

/-- What is reported for each sample, from a sample before them. -/
def reports : Table Connection → List (Table Connection) → List (Table UserDelta)
  | _, [] => []
  | prev, snapshot :: samples => userDeltas prev snapshot :: reports snapshot samples

/-- What is reported for each pair of totals. -/
def totalReports : Option (Int64 × Int64) → List (Int64 × Int64) → List (Int64 × Int64)
  | _, [] => []
  | prev, cur :: totals => totalDelta prev cur :: totalReports (some cur) totals

inductive Direction where
  | up
  | down

namespace Direction

def of : Direction → Int64 × Int64 → Int64
  | up, p => p.1
  | down, p => p.2

/-- The counter of a connection. -/
def total (d : Direction) (conn : Connection) : Int64 := d.of (conn.uplinkTotal, conn.downlinkTotal)

/-- The bytes a report has for a user. -/
def reported (d : Direction) (u : String) (report : Table UserDelta) : Int64 :=
  match report.find u with
  | some delta => d.of (delta.upload, delta.download)
  | none => 0

end Direction

/-- Each connection id is there for one stretch of samples, keeps its user, and has
counters that are not negative and do not decrease. -/
structure Steady (samples : List (Table Connection)) : Prop where
  contiguous : ∀ id, Contiguous (samples.map (·.find id))
  sameUser : ∀ s ∈ samples, ∀ t ∈ samples, ∀ c ∈ s.rows, ∀ c' ∈ t.rows, c.id = c'.id →
    c.user = c'.user
  nonneg : ∀ s ∈ samples, ∀ c ∈ s.rows, ∀ d : Direction, 0 ≤ d.total c
  monotone : samples.Pairwise fun s t => ∀ c ∈ s.rows, ∀ c' ∈ t.rows, c.id = c'.id →
    ∀ d : Direction, d.total c ≤ d.total c'

/-- The last sample of a connection. -/
def lastSampled (samples : List (Table Connection)) (id : String) : Option Connection :=
  samples.reverse.findSome? (·.find id)

def connectionIds (samples : List (Table Connection)) : Finset String :=
  (samples.flatMap fun s => s.rows.map (·.id)).toFinset

/-- The last counters of the connections of a user, taken together. -/
def lastCounters (samples : List (Table Connection)) (u : String) (d : Direction) : Int :=
  ∑ id ∈ connectionIds samples,
    match lastSampled samples id with
    | some conn => if conn.user = u then (d.total conn).toInt else 0
    | none => 0

/-- What the connections of a user transferred between two samples. -/
def transferred (u : String) (d : Direction) (prev snapshot : Table Connection) : Int :=
  ((snapshot.rows.filter (·.user = u)).map fun conn =>
    (d.total conn).toInt - ((prev.find conn.id).map fun before => (d.total before).toInt).getD 0).sum

/-- What a user transfers between two samples fits 64 bits. -/
def Fits (samples : List (Table Connection)) (u : String) : Prop :=
  ∀ p ∈ (∅ :: samples).zip samples, ∀ d, transferred u d p.1 p.2 < 2 ^ 63

/-! ### Arithmetic -/

theorem toInt_max_zero (x : Int64) : (max x 0).toInt = max x.toInt 0 := by
  by_cases h : x ≤ 0
  · have hmax : max x 0 = 0 := if_pos h
    have hle : x.toInt ≤ 0 := Int64.le_iff_toInt_le.mp h
    rw [hmax, Int.max_eq_right hle]
    rfl
  · have hmax : max x 0 = x := if_neg h
    have hlt : ¬ x.toInt ≤ 0 := fun hle => h (Int64.le_iff_toInt_le.mpr hle)
    rw [hmax, Int.max_eq_left (by omega)]

/-- A counter that did not decrease grew by the difference, when the difference fits. -/
theorem toInt_growth {a b : Int64} (hba : b ≤ a) (hfits : a.toInt - b.toInt < 2 ^ 63) :
    (max (saturatingSub a b) 0).toInt = a.toInt - b.toInt := by
  have hle : b.toInt ≤ a.toInt := Int64.le_iff_toInt_le.mp hba
  have hclamp : (saturatingSub a b).toInt = a.toInt - b.toInt :=
    Int64.toInt_ofIntClamp (by rw [Int64.toInt_minValue]; omega)
      (by rw [Int64.toInt_maxValue]; omega)
  rw [toInt_max_zero, hclamp, Int.max_eq_left (by omega)]

theorem toInt_nonneg {a : Int64} : 0 ≤ a ↔ 0 ≤ a.toInt := Int64.le_iff_toInt_le

theorem bmod_of_fits {x : Int} (hlo : -2 ^ 63 ≤ x) (hhi : x < 2 ^ 63) : x.bmod (2 ^ 64) = x :=
  Int.bmod_eq_of_le (by omega) (by omega)

/-! ### What is reported for a user -/

theorem reported_put (d : Direction) (t : Table UserDelta) (delta : UserDelta) (u : String) :
    d.reported u (t.put delta) =
      if delta.user = u then d.of (delta.upload, delta.download) else d.reported u t := by
  rw [Direction.reported, Table.find_put]
  by_cases h : delta.user = u
  · rw [if_pos (show key delta = u from h), if_pos h]
  · rw [if_neg (show ¬ key delta = u from h), if_neg h, Direction.reported]

/-- One connection adds its delta to its user. -/
theorem reported_addConnection (d : Direction) (prev : Table Connection) (t : Table UserDelta)
    (conn : Connection) (u : String) : d.reported u (addConnection prev t conn) =
      if conn.user = u then d.reported u t + d.of (connectionDelta prev conn)
      else d.reported u t := by
  rw [addConnection]
  rcases connectionDelta prev conn with ⟨dup, ddown⟩
  dsimp only
  by_cases hzero : dup = 0 ∧ ddown = 0
  · -- a delta of nothing is skipped
    have hnone : d.of (dup, ddown) = 0 := by
      cases d with
      | up => exact hzero.1
      | down => exact hzero.2
    rw [if_pos hzero, hnone, Int64.add_zero, ite_self]
  · rw [if_neg hzero, reported_put]
    by_cases huser : conn.user = u
    · rw [if_pos huser, if_pos huser, huser, Direction.reported]
      cases t.find u with
      | some entry => cases d <;> rfl
      | none => cases d <;> rfl
    · rw [if_neg huser, if_neg huser]

theorem toInt_reported_foldl (d : Direction) (prev : Table Connection) (u : String)
    (conns : List Connection) (t : Table UserDelta) :
    (d.reported u (conns.foldl (addConnection prev) t)).toInt = ((d.reported u t).toInt +
      ((conns.filter (·.user = u)).map fun conn => (d.of (connectionDelta prev conn)).toInt).sum).bmod
        (2 ^ 64) := by
  induction conns generalizing t with
  | nil =>
    rw [List.foldl_nil, List.filter_nil, List.map_nil, List.sum_nil, Int.add_zero]
    exact (bmod_of_fits (Int64.le_toInt _) (Int64.toInt_lt _)).symm
  | cons conn conns ih =>
    rw [List.foldl_cons, ih, reported_addConnection]
    by_cases h : conn.user = u
    · rw [if_pos h, List.filter_cons_of_pos (by simpa using h), List.map_cons, List.sum_cons,
        Int64.toInt_add, Int.bmod_add_bmod, Int.add_assoc]
    · rw [if_neg h, List.filter_cons_of_neg (by simpa using h)]

theorem toInt_reported (d : Direction) (prev snapshot : Table Connection) (u : String) :
    (d.reported u (userDeltas prev snapshot)).toInt =
      ((snapshot.rows.filter (·.user = u)).map fun conn =>
        (d.of (connectionDelta prev conn)).toInt).sum.bmod (2 ^ 64) := by
  rw [userDeltas, toInt_reported_foldl]
  change ((0 : Int64).toInt + _).bmod _ = _
  rw [Int64.toInt_zero, Int.zero_add]

/-- A user is reported when a connection of the user has a delta. -/
theorem isSome_find_foldl (prev : Table Connection) (u : String) (conns : List Connection)
    (t : Table UserDelta) : ((conns.foldl (addConnection prev) t).find u).isSome = true ↔
      (t.find u).isSome = true ∨
        ∃ conn ∈ conns, conn.user = u ∧ connectionDelta prev conn ≠ (0, 0) := by
  induction conns generalizing t with
  | nil => simp
  | cons conn conns ih =>
    have hstep : ((addConnection prev t conn).find u).isSome = true ↔ (t.find u).isSome = true ∨
        conn.user = u ∧ connectionDelta prev conn ≠ (0, 0) := by
      rw [addConnection]
      rcases connectionDelta prev conn with ⟨dup, ddown⟩
      dsimp only
      by_cases hzero : dup = 0 ∧ ddown = 0
      · rw [if_pos hzero]
        exact ⟨Or.inl, fun h => h.elim id fun h => absurd (Prod.ext hzero.1 hzero.2) h.2⟩
      · have hne : (dup, ddown) ≠ ((0, 0) : Int64 × Int64) := fun h => hzero (Prod.mk.inj h)
        rw [if_neg hzero, Table.find_put]
        by_cases huser : conn.user = u
        · rw [if_pos (show key _ = u from huser)]
          exact iff_of_true rfl (Or.inr ⟨huser, hne⟩)
        · rw [if_neg (show ¬ key _ = u from huser)]
          exact ⟨Or.inl, fun h => h.elim id fun h => absurd h.1 huser⟩
    rw [List.foldl_cons, ih, hstep]
    simp only [List.mem_cons, exists_eq_or_imp, or_assoc]

/-- An entry is what is reported in both directions. -/
theorem find_eq_some_of_isSome {t : Table UserDelta} {u : String} (h : (t.find u).isSome = true) :
    t.find u = some ⟨u, Direction.up.reported u t, Direction.down.reported u t⟩ := by
  obtain ⟨delta, hdelta⟩ := Option.isSome_iff_exists.mp h
  have huser : delta.user = u := Table.key_of_find hdelta
  rw [Direction.reported, Direction.reported, hdelta]
  cases delta
  cases huser
  rfl

/-- **The order in which maps are iterated does not matter.** -/
theorem find_userDeltas_congr {prev prev' snapshot snapshot' : Table Connection}
    (hprev : prev.rows.Perm prev'.rows) (hsnapshot : snapshot.rows.Perm snapshot'.rows)
    (u : String) : (userDeltas prev snapshot).find u = (userDeltas prev' snapshot').find u := by
  have hdelta : connectionDelta prev = connectionDelta prev' := by
    funext conn
    rw [connectionDelta, connectionDelta, Table.find_congr_perm hprev]
  have hreported : ∀ d : Direction, d.reported u (userDeltas prev snapshot) =
      d.reported u (userDeltas prev' snapshot') := by
    intro d
    refine Int64.toInt_inj.mp ?_
    rw [toInt_reported, toInt_reported, hdelta]
    exact congrArg (Int.bmod · _) (((hsnapshot.filter _).map _).sum_eq)
  have hsome : ((userDeltas prev snapshot).find u).isSome = true ↔
      ((userDeltas prev' snapshot').find u).isSome = true := by
    rw [userDeltas, userDeltas, isSome_find_foldl, isSome_find_foldl, hdelta]
    simp only [hsnapshot.mem_iff]
  by_cases h : ((userDeltas prev snapshot).find u).isSome = true
  · rw [find_eq_some_of_isSome h, find_eq_some_of_isSome (hsome.mp h), hreported, hreported]
  · have h' : ¬ ((userDeltas prev' snapshot').find u).isSome = true := fun h' => h (hsome.mpr h')
    rw [Option.not_isSome_iff_eq_none.mp h, Option.not_isSome_iff_eq_none.mp h']

/-! ### Steady connections -/

/-- The counter of a connection, when it counts for a user. -/
def counterFor (u : String) (d : Direction) (conn : Connection) : Option Int :=
  if conn.user = u then some (d.total conn).toInt else none

/-- What one sample means to the next: a connection that stays keeps its user, and
its counters do not decrease. -/
def Follows (s t : Table Connection) : Prop :=
  ∀ c ∈ s.rows, ∀ c' ∈ t.rows, c.id = c'.id → c.user = c'.user ∧ ∀ d : Direction, d.total c ≤ d.total c'

/-- No counter of a sample is negative. -/
def Nonneg (s : Table Connection) : Prop := ∀ c ∈ s.rows, ∀ d : Direction, 0 ≤ d.total c

section Step

variable {prev snapshot : Table Connection} {u : String} {d : Direction}

theorem toInt_connectionDelta (hprev : Nonneg prev) (hfollows : Follows prev snapshot)
    {conn : Connection} (hconn : conn ∈ snapshot.rows) :
    (d.of (connectionDelta prev conn)).toInt = (d.total conn).toInt -
      ((prev.find conn.id).map fun before => (d.total before).toInt).getD 0 := by
  rw [connectionDelta]
  cases hbefore : prev.find conn.id with
  | none =>
    rw [Option.map_none, Option.getD_none, Int.sub_zero]
    cases d <;> rfl
  | some before =>
    have hmem := Table.mem_of_find hbefore
    have hid : before.id = conn.id := Table.key_of_find hbefore
    have hle := (hfollows before hmem conn hconn hid).2 d
    have hnonneg := toInt_nonneg.mp (hprev before hmem d)
    have hlt := Int64.toInt_lt (d.total conn)
    rw [Option.map_some, Option.getD_some, ← toInt_growth hle (by omega)]
    cases d <;> rfl

theorem connectionDelta_nonneg (hprev : Nonneg prev) (hsnapshot : Nonneg snapshot)
    (hfollows : Follows prev snapshot) {conn : Connection} (hconn : conn ∈ snapshot.rows) :
    0 ≤ (d.of (connectionDelta prev conn)).toInt := by
  rw [toInt_connectionDelta hprev hfollows hconn]
  cases hbefore : prev.find conn.id with
  | none =>
    have h := toInt_nonneg.mp (hsnapshot conn hconn d)
    rw [Option.map_none, Option.getD_none]
    omega
  | some before =>
    have hle := Int64.le_iff_toInt_le.mp
      ((hfollows before (Table.mem_of_find hbefore) conn hconn (Table.key_of_find hbefore)).2 d)
    rw [Option.map_some, Option.getD_some]
    omega

theorem transferred_eq (hprev : Nonneg prev) (hfollows : Follows prev snapshot) :
    ((snapshot.rows.filter (·.user = u)).map fun conn =>
      (d.of (connectionDelta prev conn)).toInt).sum = transferred u d prev snapshot := by
  refine congrArg List.sum (List.map_congr_left fun conn hconn => ?_)
  exact toInt_connectionDelta hprev hfollows (List.mem_filter.mp hconn).1

theorem transferred_nonneg (hprev : Nonneg prev) (hsnapshot : Nonneg snapshot)
    (hfollows : Follows prev snapshot) : 0 ≤ transferred u d prev snapshot := by
  rw [← transferred_eq hprev hfollows]
  refine List.sum_nonneg fun x hx => ?_
  obtain ⟨conn, hconn, rfl⟩ := List.mem_map.mp hx
  exact connectionDelta_nonneg hprev hsnapshot hfollows (List.mem_filter.mp hconn).1

/-- **What is reported is what was transferred**, when it fits. -/
theorem toInt_reported_eq (hprev : Nonneg prev) (hsnapshot : Nonneg snapshot)
    (hfollows : Follows prev snapshot) (hfits : transferred u d prev snapshot < 2 ^ 63) :
    (d.reported u (userDeltas prev snapshot)).toInt = transferred u d prev snapshot := by
  have hnonneg : 0 ≤ transferred u d prev snapshot := transferred_nonneg hprev hsnapshot hfollows
  rw [toInt_reported, transferred_eq hprev hfollows, bmod_of_fits (by omega) hfits]

/-- What was transferred is what the counters of the user grew by. -/
theorem transferred_eq_added (hfollows : Follows prev snapshot) :
    transferred u d prev snapshot = added (counterFor u d) prev snapshot := by
  rw [transferred, added]
  have hrow : ∀ conn ∈ snapshot.rows,
      growth (counter (counterFor u d) (key conn) prev) (counterFor u d conn) =
        if conn.user = u then (d.total conn).toInt -
          ((prev.find conn.id).map fun before => (d.total before).toInt).getD 0 else 0 := by
    intro conn hconn
    by_cases huser : conn.user = u
    · rw [if_pos huser, counterFor, if_pos huser, growth, counter]
      change _ - ((prev.find conn.id).bind (counterFor u d)).getD 0 = _
      cases hbefore : prev.find conn.id with
      | none => rfl
      | some before =>
        have hsame := (hfollows before (Table.mem_of_find hbefore) conn hconn
          (Table.key_of_find hbefore)).1
        rw [Option.bind_some, counterFor, if_pos (hsame.trans huser)]
        rfl
    · rw [if_neg huser, counterFor, if_neg huser, growth]
  rw [List.map_congr_left hrow, List.sum_map_ite, List.map_const', List.sum_replicate, nsmul_zero,
    Int.add_zero]

end Step

/-! ### Runs -/

theorem reports_eq_map (prev : Table Connection) (samples : List (Table Connection)) :
    reports prev samples = ((prev :: samples).zip samples).map fun p => userDeltas p.1 p.2 := by
  induction samples generalizing prev with
  | nil => rfl
  | cons snapshot samples ih => rw [reports, ih, List.zip_cons_cons, List.map_cons]

/-- The sample after a run of samples is compared with the last of them. -/
theorem reports_append (prev : Table Connection) (samples : List (Table Connection))
    (next : Table Connection) : reports prev (samples ++ [next]) =
      reports prev samples ++ [userDeltas (samples.getLast?.getD prev) next] := by
  induction samples generalizing prev with
  | nil => rfl
  | cons snapshot samples ih =>
    rw [List.cons_append, reports, ih, reports, List.getLast?_cons, List.cons_append, Option.getD_some]

theorem totalReports_append (prev : Option (Int64 × Int64)) (totals : List (Int64 × Int64))
    (next : Int64 × Int64) : totalReports prev (totals ++ [next]) =
      totalReports prev totals ++ [totalDelta (totals.getLast?.or prev) next] := by
  induction totals generalizing prev with
  | nil => rfl
  | cons cur totals ih =>
    rw [List.cons_append, totalReports, ih, totalReports, List.getLast?_cons, List.cons_append]
    cases totals.getLast? <;> rfl

section Run

variable {samples : List (Table Connection)}

theorem Steady.pairwise (h : Steady samples) : (∅ :: samples).Pairwise Follows := by
  refine List.pairwise_cons.mpr ⟨fun t _ c hc => absurd hc List.not_mem_nil, ?_⟩
  refine h.monotone.imp_of_mem fun {s t} hs ht hmono c hc c' hc' hid => ?_
  exact ⟨h.sameUser s hs t ht c hc c' hc' hid, hmono c hc c' hc' hid⟩

theorem Steady.nonneg_of_mem (h : Steady samples) {s : Table Connection}
    (hs : s ∈ ∅ :: samples) : Nonneg s := by
  rcases List.mem_cons.mp hs with rfl | hs
  · exact fun c hc => absurd hc List.not_mem_nil
  · exact h.nonneg s hs

theorem Steady.of_append {rest : List (Table Connection)} (h : Steady (samples ++ rest)) :
    Steady samples where
  contiguous id := by
    have hall := h.contiguous id
    rw [List.map_append] at hall
    exact hall.of_append
  sameUser s hs t ht := h.sameUser s (List.mem_append_left _ hs) t (List.mem_append_left _ ht)
  nonneg s hs := h.nonneg s (List.mem_append_left _ hs)
  monotone := (List.pairwise_append.mp h.monotone).1

theorem Fits.of_append {rest : List (Table Connection)} {u : String} (h : Fits (samples ++ rest) u) :
    Fits samples u := fun p hp =>
  h p (mem_zip_mono (List.prefix_append (∅ :: samples) rest)
    (List.prefix_append samples rest) hp)

/-- The facts of one step of the run. -/
theorem Steady.step (h : Steady samples) {p : Table Connection × Table Connection}
    (hp : p ∈ (∅ :: samples).zip samples) :
    Nonneg p.1 ∧ Nonneg p.2 ∧ Follows p.1 p.2 :=
  ⟨h.nonneg_of_mem (List.of_mem_zip hp).1,
    h.nonneg_of_mem (List.mem_cons_of_mem _ (List.of_mem_zip hp).2),
    rel_of_mem_zip h.pairwise hp⟩

/-- The counters of a user are there for one stretch of samples. -/
theorem Steady.contiguous_counter (h : Steady samples) (u : String) (d : Direction) (id : String) :
    Contiguous ((∅ :: samples).map (counter (counterFor u d) id)) := by
  refine contiguous_none_cons ?_
  intro i j k hij hjk a c ha hc
  rw [List.getElem?_map] at ha hc ⊢
  obtain ⟨s, hs, hsa⟩ := Option.map_eq_some_iff.mp ha
  obtain ⟨t, ht, htc⟩ := Option.map_eq_some_iff.mp hc
  obtain ⟨conn, hconn, hvalue⟩ := Option.bind_eq_some_iff.mp hsa
  obtain ⟨conn', hconn', -⟩ := Option.bind_eq_some_iff.mp htc
  obtain ⟨between, hbetween⟩ := h.contiguous id i j k hij hjk conn conn'
    (by rw [List.getElem?_map, hs, Option.map_some, hconn])
    (by rw [List.getElem?_map, ht, Option.map_some, hconn'])
  rw [List.getElem?_map] at hbetween
  obtain ⟨m, hm, hfind⟩ := Option.map_eq_some_iff.mp hbetween
  have huser : conn.user = u := by
    by_contra hne
    rw [counterFor, if_neg hne] at hvalue
    cases hvalue
  have hsame : conn.user = between.user :=
    h.sameUser s (List.mem_of_getElem? hs) m (List.mem_of_getElem? hm) conn
      (Table.mem_of_find hconn) between (Table.mem_of_find hfind)
      ((Table.key_of_find hconn).trans (Table.key_of_find hfind).symm)
  refine ⟨(d.total between).toInt, ?_⟩
  rw [hm, Option.map_some, counter, hfind, Option.bind_some, counterFor,
    if_pos (hsame.symm.trans huser)]

theorem lastSampled_cons (s : Table Connection) (samples : List (Table Connection)) (id : String) :
    lastSampled (s :: samples) id = (lastSampled samples id).or (s.find id) := by
  rw [lastSampled, List.reverse_cons, List.findSome?_append, lastSampled]
  cases hlast : samples.reverse.findSome? (·.find id) with
  | some c => rfl
  | none =>
    rw [List.findSome?_cons]
    cases s.find id <;> rfl

theorem mem_of_lastSampled {id : String} {c : Connection} (h : lastSampled samples id = some c) :
    ∃ s ∈ samples, c ∈ s.rows ∧ c.id = id := by
  obtain ⟨s, hs, hfind⟩ := List.exists_of_findSome?_eq_some h
  exact ⟨s, List.mem_reverse.mp hs, Table.mem_of_find hfind, Table.key_of_find hfind⟩

/-- The last value of a counter is that of the last sample of the connection. -/
theorem lastValue_counter (hsame : ∀ s ∈ samples, ∀ t ∈ samples, ∀ c ∈ s.rows, ∀ c' ∈ t.rows,
      c.id = c'.id → c.user = c'.user) (u : String) (d : Direction) (id : String) :
    lastValue (samples.map (counter (counterFor u d) id)) =
      (lastSampled samples id).bind (counterFor u d) := by
  induction samples with
  | nil => rfl
  | cons s samples ih =>
    rw [List.map_cons, lastValue, lastSampled_cons, ih fun s hs t ht =>
      hsame s (List.mem_cons_of_mem _ hs) t (List.mem_cons_of_mem _ ht), counter]
    cases hlast : lastSampled samples id with
    | none => rw [Option.bind_none, Option.none_or, Option.none_or]
    | some c =>
      rw [Option.some_or, Option.bind_some, counterFor]
      by_cases huser : c.user = u
      · rw [if_pos huser, Option.some_or]
      · -- the connection is of another user in every sample
        rw [if_neg huser, Option.none_or, Option.bind_eq_none_iff]
        intro c' hc'
        obtain ⟨t, ht, hc, hid⟩ := mem_of_lastSampled hlast
        have huser' := hsame t (List.mem_cons_of_mem _ ht) s List.mem_cons_self c hc c'
          (Table.mem_of_find hc') (hid.trans (Table.key_of_find hc').symm)
        rw [counterFor, if_neg (huser' ▸ huser)]

theorem mem_connectionIds {s : Table Connection} (hs : s ∈ samples) {c : Connection}
    (hc : c ∈ s.rows) : c.id ∈ connectionIds samples :=
  List.mem_toFinset.mpr (List.mem_flatMap.mpr ⟨s, hs, List.mem_map.mpr ⟨c, hc, rfl⟩⟩)

/-- **What is reported for a user adds up to the last counters.** -/
theorem sum_reported (h : Steady samples) {u : String} (hfits : Fits samples u) (d : Direction) :
    ((reports ∅ samples).map fun report => (d.reported u report).toInt).sum =
      lastCounters samples u d := by
  have hsteps : (reports ∅ samples).map (fun report => (d.reported u report).toInt) =
      ((∅ :: samples).zip samples).map fun p => added (counterFor u d) p.1 p.2 := by
    rw [reports_eq_map, List.map_map]
    refine List.map_congr_left fun p hp => ?_
    obtain ⟨hprev, hsnapshot, hfollows⟩ := h.step hp
    exact (toInt_reported_eq hprev hsnapshot hfollows (hfits p hp d)).trans
      (transferred_eq_added hfollows)
  rw [hsteps, sum_tables (counterFor u d) (fun s hs c hc => mem_connectionIds hs hc)
    (h.contiguous_counter u d), lastCounters]
  refine Finset.sum_congr rfl fun id _ => ?_
  have hempty : counter (counterFor u d) id ∅ = none := rfl
  rw [hempty, Option.getD_none, Int.sub_zero, List.map_cons, lastValue, hempty, Option.or_none,
    lastValue_counter h.sameUser]
  cases lastSampled samples id with
  | none => rfl
  | some c =>
    rw [Option.bind_some, counterFor]
    by_cases huser : c.user = u
    · rw [if_pos huser]
      exact (if_pos huser).symm
    · rw [if_neg huser]
      exact (if_neg huser).symm

theorem reported_nonneg (h : Steady samples) {u : String} (hfits : Fits samples u) (d : Direction)
    {report : Table UserDelta} (hreport : report ∈ reports ∅ samples) :
    0 ≤ d.reported u report := by
  rw [reports_eq_map] at hreport
  obtain ⟨p, hp, rfl⟩ := List.mem_map.mp hreport
  obtain ⟨hprev, hsnapshot, hfollows⟩ := h.step hp
  rw [toInt_nonneg, toInt_reported_eq hprev hsnapshot hfollows (hfits p hp d)]
  exact transferred_nonneg hprev hsnapshot hfollows

end Run

/-! ### Totals -/

/-- What a direction of the totals grew by fits 64 bits in each sample. -/
def TotalsFit (totals : List (Int64 × Int64)) : Prop :=
  ∀ p ∈ totals.zip totals.tail, ∀ d : Direction, (d.of p.2).toInt - (d.of p.1).toInt < 2 ^ 63

theorem TotalsFit.of_append {totals rest : List (Int64 × Int64)} (h : TotalsFit (totals ++ rest)) :
    TotalsFit totals := by
  have htail : totals.tail <+: (totals ++ rest).tail := by
    cases totals with
    | nil => exact List.nil_prefix
    | cons first totals => exact List.prefix_append totals rest
  exact fun p hp => h p (mem_zip_mono (List.prefix_append totals rest) htail hp)

theorem sum_totalReports_from {prev : Int64 × Int64} {totals : List (Int64 × Int64)}
    (hmono : (prev :: totals).Pairwise fun p q => ∀ d : Direction, d.of p ≤ d.of q)
    (hfits : TotalsFit (prev :: totals)) (d : Direction) :
    ((totalReports (some prev) totals).map fun report => (d.of report).toInt).sum =
      (d.of ((prev :: totals).getLast (List.cons_ne_nil _ _))).toInt - (d.of prev).toInt := by
  induction totals generalizing prev with
  | nil => exact (Int.sub_self _).symm
  | cons cur totals ih =>
    obtain ⟨hle, hmono⟩ := List.pairwise_cons.mp hmono
    have hdelta : (d.of (totalDelta (some prev) cur)).toInt =
        (d.of cur).toInt - (d.of prev).toInt := by
      have hgrowth := toInt_growth (hle cur List.mem_cons_self d)
        (hfits (prev, cur) List.mem_cons_self d)
      rw [← hgrowth]
      cases d <;> rfl
    rw [totalReports, List.map_cons, List.sum_cons, hdelta,
      ih hmono fun p hp => hfits p (List.mem_cons_of_mem _ hp), List.getLast_cons_cons]
    omega

/-- The last totals of a run of samples, 0 before the first. -/
def lastTotal (totals : List (Int64 × Int64)) (d : Direction) : Int :=
  ((totals.getLast?).map fun total => (d.of total).toInt).getD 0

/-- **The deltas of the totals add up to the last totals.** -/
theorem sum_totalReports {totals : List (Int64 × Int64)}
    (hmono : totals.Pairwise fun p q => ∀ d : Direction, d.of p ≤ d.of q)
    (hfits : TotalsFit totals) (d : Direction) :
    ((totalReports none totals).map fun report => (d.of report).toInt).sum = lastTotal totals d := by
  cases totals with
  | nil => rfl
  | cons first totals =>
    rw [totalReports, List.map_cons, List.sum_cons, sum_totalReports_from hmono hfits, totalDelta,
      lastTotal, List.getLast?_eq_getLast_of_ne_nil (List.cons_ne_nil _ _), Option.map_some,
      Option.getD_some]
    omega

/-! ### Conservation -/

/-- **Deltas are conserved.**  Over samples of steady connections, what is reported for
a user adds up to the last counters of the connections of the user, and nothing that is
reported is negative; the order in which maps are iterated does not matter; and the
deltas of totals that do not decrease add up to the last totals. -/
theorem deltas_conserved {samples : List (Table Connection)} (h : Steady samples) {u : String}
    (hfits : Fits samples u) {totals : List (Int64 × Int64)}
    (hmono : totals.Pairwise fun p q => ∀ d : Direction, d.of p ≤ d.of q)
    (htotals : TotalsFit totals) :
    (∀ d : Direction, ((reports ∅ samples).map fun report => (d.reported u report).toInt).sum =
      lastCounters samples u d) ∧
    (∀ report ∈ reports ∅ samples, ∀ d : Direction, 0 ≤ d.reported u report) ∧
    (∀ prev prev' snapshot snapshot' : Table Connection, prev.rows.Perm prev'.rows →
      snapshot.rows.Perm snapshot'.rows →
        (userDeltas prev snapshot).find u = (userDeltas prev' snapshot').find u) ∧
    ∀ d : Direction, ((totalReports none totals).map fun report => (d.of report).toInt).sum =
      lastTotal totals d :=
  ⟨sum_reported h hfits, fun _ hreport d => reported_nonneg h hfits d hreport,
    fun _ _ _ _ hprev hsnapshot => find_userDeltas_congr hprev hsnapshot u,
    sum_totalReports hmono htotals⟩

/-- At most two samples of connections of one user. -/
theorem steady_of_one_user {samples : List (Table Connection)} (hlength : samples.length ≤ 2)
    (huser : ∀ s ∈ samples, ∀ c ∈ s.rows, c.user = "alice")
    (hnonneg : ∀ s ∈ samples, ∀ c ∈ s.rows, 0 ≤ c.uplinkTotal ∧ 0 ≤ c.downlinkTotal)
    (hmono : samples.Pairwise fun s t => ∀ c ∈ s.rows, ∀ c' ∈ t.rows, c.id = c'.id →
      c.uplinkTotal ≤ c'.uplinkTotal ∧ c.downlinkTotal ≤ c'.downlinkTotal) : Steady samples where
  contiguous _ := contiguous_of_length_le (by rwa [List.length_map])
  sameUser s hs t ht c hc c' hc' _ := by rw [huser s hs c hc, huser t ht c' hc']
  nonneg s hs c hc d := by
    cases d with
    | up => exact (hnonneg s hs c hc).1
    | down => exact (hnonneg s hs c hc).2
  monotone := by
    refine hmono.imp fun h c hc c' hc' hid d => ?_
    cases d with
    | up => exact (h c hc c' hc' hid).1
    | down => exact (h c hc c' hc' hid).2

namespace TwoSamples

def first : Table Connection := .single ⟨"c1", "alice", 10, 20⟩

def second : Table Connection := ⟨[⟨"c1", "alice", 30, 60⟩, ⟨"c2", "alice", 5, 7⟩], by decide⟩

/-- The second sample, iterated the other way. -/
def secondReversed : Table Connection :=
  ⟨[⟨"c2", "alice", 5, 7⟩, ⟨"c1", "alice", 30, 60⟩], by decide⟩

theorem steady : Steady [first, second] :=
  steady_of_one_user (by decide) (by decide) (by decide) (by decide)

theorem fits : Fits [first, second] "alice" := by
  intro p hp d
  have hboth : p = (∅, first) ∨ p = (first, second) := by simpa using hp
  rcases hboth with rfl | rfl <;> cases d <;> decide

end TwoSamples

theorem deltas_conserved_two_samples :
    (∀ d : Direction, ((reports ∅ [TwoSamples.first, TwoSamples.second]).map fun report =>
      (d.reported "alice" report).toInt).sum =
        lastCounters [TwoSamples.first, TwoSamples.second] "alice" d) ∧
    (∀ report ∈ reports ∅ [TwoSamples.first, TwoSamples.second], ∀ d : Direction,
      0 ≤ d.reported "alice" report) ∧
    (userDeltas TwoSamples.first TwoSamples.second).find "alice" =
      (userDeltas TwoSamples.first TwoSamples.secondReversed).find "alice" ∧
    ∀ d : Direction, ((totalReports none [(100, 200), (150, 260)]).map fun report =>
      (d.of report).toInt).sum = lastTotal [(100, 200), (150, 260)] d := by
  have hmono : [((100, 200) : Int64 × Int64), (150, 260)].Pairwise
      fun p q => ∀ d : Direction, d.of p ≤ d.of q := by
    refine List.pairwise_pair.mpr fun d => ?_
    cases d <;> decide
  have htotals : TotalsFit [(100, 200), (150, 260)] := by
    intro p hp d
    rw [List.mem_singleton.mp hp]
    cases d <;> decide
  obtain ⟨hsum, hnonneg, horder, htotal⟩ :=
    deltas_conserved TwoSamples.steady TwoSamples.fits hmono htotals
  exact ⟨hsum, hnonneg, horder _ _ _ _ (List.Perm.refl _) (List.Perm.swap _ _ _), htotal⟩

namespace Overflow

/-- Two connections of one user whose counters are as large as they can be. -/
def sample : Table Connection :=
  ⟨[⟨"c1", "alice", Int64.maxValue, 0⟩, ⟨"c2", "alice", Int64.maxValue, 0⟩], by decide⟩

/-- Totals that start at the least and end at the greatest 64-bit number. -/
def totals : List (Int64 × Int64) := [(Int64.minValue, 0), (Int64.maxValue, 0)]

end Overflow

/-- The delta of the user wraps, and the difference of the totals saturates. -/
theorem deltas_overflow :
    (Steady [Overflow.sample] ∧ ∃ report ∈ reports ∅ [Overflow.sample],
      Direction.up.reported "alice" report = -2) ∧
    (Overflow.totals.Pairwise fun p q => ∀ d : Direction, d.of p ≤ d.of q) ∧
      ((totalReports none Overflow.totals).map fun report => (Direction.up.of report).toInt).sum ≠
        lastTotal Overflow.totals .up := by
  have hsteady : Steady [Overflow.sample] :=
    steady_of_one_user (by decide) (by decide) (by decide) (by decide)
  refine ⟨⟨hsteady, userDeltas ∅ Overflow.sample, List.mem_singleton_self _, by decide⟩, ?_,
    by decide⟩
  refine List.pairwise_pair.mpr fun d => ?_
  cases d <;> decide

end ProxyPanel.Agent.Reporter
