import ProxyPanel.Agent.Reporter
import ProxyPanel.Lib.Run

/-!
# From samples to delivered reports

The reporter task of a stream samples sing-box, then mihomo, and sends what it
collected on the channel of the stream, which the stream transmits in order.  The
sampling state belongs to the process and outlives the stream; the task and the
channel do not.  `Accounted` says that every delta computed from the sampling state
is in exactly one report that was transmitted or is on its way on a live stream, so
that nothing the core counted is missing from them (`lastCounters_le`).

A sample moves the baseline before its report is sent, so a stream that ends
in between takes the delta with it (`disconnect_loses_report`).
`accounted_of_guarded` excludes that.
-/

namespace ProxyPanel.Agent.Delivery

open Growth Reporter

/-! ### Reports -/

structure TrafficReport where
  timestamp : Int
  inbounds : List InboundTraffic
  users : List UserTraffic

/-- What the reporter holds: deltas from the sampling state, and the entries of the
legacy HTTP API when gRPC failed. -/
structure Collected where
  users : Option (Table UserDelta)
  singboxTotal : Option (Int64 × Int64)
  http : List InboundTraffic × List UserTraffic
  mihomoTotal : Option (Int64 × Int64)

/-- The entries of user deltas. -/
def userEntries (deltas : Table UserDelta) : List UserTraffic :=
  deltas.rows.map fun d => ⟨d.user, d.user, d.upload, d.download⟩

/-- `collect_traffic_report`, from what was collected. -/
def Collected.report (c : Collected) (timestamp : Int) : TrafficReport where
  timestamp := timestamp
  inbounds := c.singboxTotal.toList.flatMap (inboundEntry "sing-box") ++ c.http.1 ++
    c.mihomoTotal.toList.flatMap (inboundEntry "mihomo")
  users := c.users.toList.flatMap userEntries ++ c.http.2

/-! ### The agent -/

/-- Where the reporter task is.  It awaits between its steps, and can be aborted there. -/
inductive Phase where
  | waiting
  /-- sing-box is sampled, mihomo is not -/
  | sampled (c : Collected)
  | sending (c : Collected)
  | stopped

/-- What a phase holds. -/
def Phase.inHand : Phase → List Collected
  | sampled c => [c]
  | sending c => [c]
  | _ => []

/-- A stream: its reporter, the reports in its channel, and whether the receiving
half of the channel is there. -/
structure Stream where
  phase : Phase
  queue : List Collected
  receiverAlive : Bool

structure State where
  singbox : SingboxTrafficState
  mihomo : Option (Int64 × Int64)
  stream : Option Stream
  /-- Reports handed to a live stream, in order. -/
  delivered : List Collected
  /-- The samples taken so far, which no step reads. -/
  samples : List (Table Connection)
  singboxTotals : List (Int64 × Int64)
  mihomoTotals : List (Int64 × Int64)

def initial : State := ⟨{}, none, none, [], [], [], []⟩

/-- How sing-box answers. -/
inductive SingboxAnswer where
  | grpc (status : Int64 × Int64) (events : List ConnectionEvent)
  | http (inbounds : List InboundTraffic) (users : List UserTraffic)
  | failed

inductive Action where
  | connect
  | sampleSingbox (answer : SingboxAnswer)
  | sampleMihomo (answer : Option (Int64 × Int64))
  | send
  | transmit
  | dropReceiver
  | disconnect

/-- The sing-box part of a collection. -/
def sampleSingbox (st : State) (stream : Stream) : SingboxAnswer → State
  | .grpc status events =>
    let snapshot := connectionSnapshot events
    { st with
      singbox := (collectSingboxTrafficGrpc st.singbox status events).1
      stream := some { stream with phase := .sampled ⟨some (userDeltas st.singbox.prevConns snapshot),
        some (totalDelta st.singbox.prevTotal status), ([], []), none⟩ }
      samples := st.samples ++ [snapshot]
      singboxTotals := st.singboxTotals ++ [status] }
  | .http inbounds users =>
    { st with stream := some { stream with phase := .sampled ⟨none, none, (inbounds, users), none⟩ } }
  | .failed =>
    { st with stream := some { stream with phase := .sampled ⟨none, none, ([], []), none⟩ } }

/-- The mihomo part. -/
def sampleMihomo (st : State) (stream : Stream) (c : Collected) : Option (Int64 × Int64) → State
  | some sample =>
    { st with
      mihomo := (collectMihomoTraffic st.mihomo sample).1
      stream := some { stream with
        phase := .sending { c with mihomoTotal := some (totalDelta st.mihomo sample) } }
      mihomoTotals := st.mihomoTotals ++ [sample] }
  | none => { st with stream := some { stream with phase := .sending c } }

def step (st : State) : Action → Option State
  | .connect =>
    match st.stream with
    | none => some { st with stream := some ⟨.waiting, [], true⟩ }
    | some _ => none
  | .sampleSingbox answer =>
    match st.stream with
    | some ⟨.waiting, queue, alive⟩ => some (sampleSingbox st ⟨.waiting, queue, alive⟩ answer)
    | _ => none
  | .sampleMihomo answer =>
    match st.stream with
    | some ⟨.sampled c, queue, alive⟩ => some (sampleMihomo st ⟨.sampled c, queue, alive⟩ c answer)
    | _ => none
  | .send =>
    match st.stream with
    | some ⟨.sending c, queue, true⟩ =>
      some { st with stream := some ⟨.waiting, queue ++ [c], true⟩ }
    | some ⟨.sending _, queue, false⟩ => some { st with stream := some ⟨.stopped, queue, false⟩ }
    | _ => none
  | .transmit =>
    match st.stream with
    | some ⟨phase, c :: queue, true⟩ =>
      some { st with stream := some ⟨phase, queue, true⟩, delivered := st.delivered ++ [c] }
    | _ => none
  | .dropReceiver =>
    match st.stream with
    | some stream => some { st with stream := some ⟨stream.phase, [], false⟩ }
    | none => none
  | .disconnect =>
    match st.stream with
    | some _ => some { st with stream := none }
    | none => none

/-- The reports on their way: those in the channel, then the one in hand. -/
def State.inFlight (st : State) : List Collected :=
  match st.stream with
  | some stream => stream.queue ++ stream.phase.inHand
  | none => []

/-- The reports that were handed to a live stream or are on their way. -/
def State.handed (st : State) : List Collected := st.delivered ++ st.inFlight

/-! ### What must hold -/

/-- What reports have for a user. -/
def bytesFor (u : String) (d : Direction) (reports : List Collected) : Int :=
  ((reports.filterMap (·.users)).map fun deltas => (d.reported u deltas).toInt).sum

/-- What deltas of totals add up to. -/
def bytesOf (d : Direction) (deltas : List (Int64 × Int64)) : Int :=
  (deltas.map fun delta => (d.of delta).toInt).sum

/-- **No sampled byte is lost.**  Each delta computed from the sampling state is in
exactly one report, in order; a report that is not delivered yet is on a live stream;
and with what the next sample reports, no counter that was sampled is missed. -/
structure Accounted (st : State) : Prop where
  users : st.handed.filterMap (·.users) = reports ∅ st.samples
  singboxTotals : st.handed.filterMap (·.singboxTotal) = totalReports none st.singboxTotals
  mihomoTotals : st.handed.filterMap (·.mihomoTotal) = totalReports none st.mihomoTotals
  live : st.inFlight ≠ [] → ∃ stream, st.stream = some stream ∧ stream.receiverAlive = true
  userBytes : ∀ u next, Steady (st.samples ++ [next]) → Fits (st.samples ++ [next]) u → ∀ d,
    lastCounters st.samples u d ≤ bytesFor u d st.handed +
      (d.reported u (userDeltas st.singbox.prevConns next)).toInt
  singboxBytes : ∀ next : Int64 × Int64,
    ((st.singboxTotals ++ [next]).Pairwise fun p q => ∀ d : Direction, d.of p ≤ d.of q) →
    TotalsFit (st.singboxTotals ++ [next]) → ∀ d : Direction, 0 ≤ d.of next →
    lastTotal st.singboxTotals d ≤ bytesOf d (st.handed.filterMap (·.singboxTotal)) +
      (d.of (totalDelta st.singbox.prevTotal next)).toInt
  mihomoBytes : ∀ next : Int64 × Int64,
    ((st.mihomoTotals ++ [next]).Pairwise fun p q => ∀ d : Direction, d.of p ≤ d.of q) →
    TotalsFit (st.mihomoTotals ++ [next]) → ∀ d : Direction, 0 ≤ d.of next →
    lastTotal st.mihomoTotals d ≤ bytesOf d (st.handed.filterMap (·.mihomoTotal)) +
      (d.of (totalDelta st.mihomo next)).toInt

/-- A stream ends only with nothing on its way, and a sample is taken only on a stream
whose receiver is there. -/
def Allowed (st : State) : Action → Prop
  | .sampleSingbox _ => st.stream.any (·.receiverAlive) = true
  | .dropReceiver => st.inFlight = []
  | .disconnect => st.inFlight = []
  | _ => True

instance (st : State) (a : Action) : Decidable (Allowed st a) :=
  match a with
  | .sampleSingbox _ => inferInstanceAs (Decidable (_ = true))
  | .dropReceiver => inferInstanceAs (Decidable (st.inFlight = []))
  | .disconnect => inferInstanceAs (Decidable (st.inFlight = []))
  | .connect => instDecidableTrue
  | .sampleMihomo _ => instDecidableTrue
  | .send => instDecidableTrue
  | .transmit => instDecidableTrue

/-! ### The invariant -/

/-- Every delta is in one report; reports on their way are on a live stream; the
baseline is the last sample. -/
structure Inv (st : State) : Prop where
  users : st.handed.filterMap (·.users) = reports ∅ st.samples
  singboxTotals : st.handed.filterMap (·.singboxTotal) = totalReports none st.singboxTotals
  mihomoTotals : st.handed.filterMap (·.mihomoTotal) = totalReports none st.mihomoTotals
  live : st.inFlight ≠ [] → ∃ stream, st.stream = some stream ∧ stream.receiverAlive = true
  /-- mihomo is sampled once for a report -/
  pending : ∀ stream c, st.stream = some stream → stream.phase = .sampled c → c.mihomoTotal = none
  prevConns : st.singbox.prevConns = st.samples.getLast?.getD ∅
  prevTotal : st.singbox.prevTotal = st.singboxTotals.getLast?
  mihomo : st.mihomo = st.mihomoTotals.getLast?

theorem inv_initial : Inv initial :=
  ⟨rfl, rfl, rfl, fun h => absurd rfl h, fun _ _ h => (nomatch h), rfl, rfl, rfl⟩

section

variable {st st' : State}

/-- A stream at work: what it holds is handed, in order. -/
theorem handed_of_stream {stream : Stream} (h : st.stream = some stream) :
    st.handed = st.delivered ++ (stream.queue ++ stream.phase.inHand) := by
  rw [State.handed, State.inFlight, h]

/-- A step that neither samples nor loses a report. -/
theorem Inv.same (hi : Inv st) (hhanded : st'.handed = st.handed)
    (hlive : st'.inFlight ≠ [] → ∃ stream, st'.stream = some stream ∧ stream.receiverAlive = true)
    (hpending : ∀ stream c, st'.stream = some stream → stream.phase = .sampled c →
      c.mihomoTotal = none)
    (hsingbox : st'.singbox = st.singbox ∧ st'.samples = st.samples ∧
      st'.singboxTotals = st.singboxTotals)
    (hmihomo : st'.mihomo = st.mihomo ∧ st'.mihomoTotals = st.mihomoTotals) : Inv st' := by
  obtain ⟨hstate, hsamples, htotals⟩ := hsingbox
  obtain ⟨hbase, hmtotals⟩ := hmihomo
  constructor
  · rw [hhanded, hsamples, hi.users]
  · rw [hhanded, htotals, hi.singboxTotals]
  · rw [hhanded, hmtotals, hi.mihomoTotals]
  · exact hlive
  · exact hpending
  · rw [hstate, hsamples, hi.prevConns]
  · rw [hstate, htotals, hi.prevTotal]
  · rw [hbase, hmtotals, hi.mihomo]

/-- Without gRPC the report holds no delta of sing-box. -/
theorem Inv.collected (hi : Inv st) {queue : List Collected}
    (hstream : st.stream = some ⟨.waiting, queue, true⟩)
    (http : List InboundTraffic × List UserTraffic) :
    Inv { st with stream := some ⟨.sampled ⟨none, none, http, none⟩, queue, true⟩ } := by
  have hhanded : st.delivered ++ (queue ++ [⟨none, none, http, none⟩]) =
      st.handed ++ [⟨none, none, http, none⟩] := by
    rw [handed_of_stream hstream, List.append_assoc]
    exact congrArg (st.delivered ++ · ) (congrArg (· ++ _) (List.append_nil queue).symm)
  constructor
  · change (st.delivered ++ (queue ++ [_])).filterMap _ = _
    rw [hhanded, List.filterMap_append, hi.users]
    exact List.append_nil _
  · change (st.delivered ++ (queue ++ [_])).filterMap _ = _
    rw [hhanded, List.filterMap_append, hi.singboxTotals]
    exact List.append_nil _
  · change (st.delivered ++ (queue ++ [_])).filterMap _ = _
    rw [hhanded, List.filterMap_append, hi.mihomoTotals]
    exact List.append_nil _
  · exact fun _ => ⟨_, rfl, rfl⟩
  · intro stream c hst hphase
    cases hst
    cases hphase
    rfl
  · exact hi.prevConns
  · exact hi.prevTotal
  · exact hi.mihomo

/-- A sample of sing-box adds its deltas to what is in hand. -/
theorem Inv.sampleSingbox (hi : Inv st) {queue : List Collected}
    (hstream : st.stream = some ⟨.waiting, queue, true⟩) (answer : SingboxAnswer) :
    Inv (sampleSingbox st ⟨.waiting, queue, true⟩ answer) := by
  have hbefore : st.handed = st.delivered ++ queue := by
    rw [handed_of_stream hstream]
    exact congrArg _ (List.append_nil queue)
  have hafter : ∀ c : Collected, st.delivered ++ (queue ++ [c]) = st.handed ++ [c] := by
    intro c
    rw [hbefore, List.append_assoc]
  cases answer with
  | grpc status events =>
    constructor
    · change (st.delivered ++ (queue ++ [_])).filterMap _ = reports ∅ (st.samples ++ [_])
      rw [hafter, List.filterMap_append, hi.users, reports_append, hi.prevConns]
      rfl
    · change (st.delivered ++ (queue ++ [_])).filterMap _ =
        totalReports none (st.singboxTotals ++ [status])
      rw [hafter, List.filterMap_append, hi.singboxTotals, totalReports_append, hi.prevTotal,
        Option.or_none]
      rfl
    · change (st.delivered ++ (queue ++ [_])).filterMap _ = totalReports none st.mihomoTotals
      rw [hafter, List.filterMap_append, hi.mihomoTotals]
      exact List.append_nil _
    · exact fun _ => ⟨_, rfl, rfl⟩
    · intro stream c hst hphase
      cases hst
      cases hphase
      rfl
    · change connectionSnapshot events = (st.samples ++ [_]).getLast?.getD ∅
      rw [List.getLast?_concat]
      rfl
    · change some status = (st.singboxTotals ++ [status]).getLast?
      rw [List.getLast?_concat]
    · exact hi.mihomo
  | http inbounds users => exact hi.collected hstream (inbounds, users)
  | failed => exact hi.collected hstream ([], [])

/-- The last report can be replaced by one with the same part. -/
theorem filterMap_last {β : Type} {f : Collected → Option β} {c c' : Collected} (h : f c = f c')
    (reports : List Collected) : (reports ++ [c]).filterMap f = (reports ++ [c']).filterMap f := by
  rw [List.filterMap_append, List.filterMap_append, List.filterMap_cons, List.filterMap_cons, h]

/-- A sample of mihomo adds its delta to what is in hand. -/
theorem Inv.sampleMihomo (hi : Inv st) {c : Collected} {queue : List Collected} {alive : Bool}
    (hstream : st.stream = some ⟨.sampled c, queue, alive⟩) (answer : Option (Int64 × Int64)) :
    Inv (sampleMihomo st ⟨.sampled c, queue, alive⟩ c answer) := by
  have hbefore : st.handed = st.delivered ++ queue ++ [c] := by
    rw [handed_of_stream hstream, List.append_assoc]
    rfl
  have halive : alive = true := by
    have hne : st.inFlight ≠ [] := by
      rw [State.inFlight, hstream]
      exact List.append_ne_nil_of_right_ne_nil queue (List.cons_ne_nil c [])
    obtain ⟨stream, hst, halive⟩ := hi.live hne
    cases hstream.symm.trans hst
    exact halive
  have hnone : c.mihomoTotal = none := hi.pending _ c hstream rfl
  cases answer with
  | none =>
    refine hi.same (handed_of_stream hstream).symm (fun _ => ⟨_, rfl, halive⟩) ?_
      ⟨rfl, rfl, rfl⟩ ⟨rfl, rfl⟩
    intro stream c' hst hphase
    cases hst
    cases hphase
  | some sample =>
    have hafter : ∀ c' : Collected, st.delivered ++ (queue ++ [c']) = st.delivered ++ queue ++ [c'] :=
      fun c' => (List.append_assoc _ _ _).symm
    -- the other parts of what is in hand stay
    constructor
    · change (st.delivered ++ (queue ++ [_])).filterMap _ = reports ∅ st.samples
      rw [hafter, ← hi.users, hbefore]
      refine filterMap_last ?_ _
      rfl
    · change (st.delivered ++ (queue ++ [_])).filterMap _ = totalReports none st.singboxTotals
      rw [hafter, ← hi.singboxTotals, hbefore]
      refine filterMap_last ?_ _
      rfl
    · change (st.delivered ++ (queue ++ [_])).filterMap _ =
        totalReports none (st.mihomoTotals ++ [sample])
      have hprevious : (st.delivered ++ queue).filterMap (·.mihomoTotal) =
          totalReports none st.mihomoTotals := by
        have hlast : [c].filterMap (·.mihomoTotal) = [] := List.filterMap_cons_none hnone
        rw [← hi.mihomoTotals, hbefore]
        generalize st.delivered ++ queue = earlier
        rw [List.filterMap_append, hlast, List.append_nil]
      rw [hafter]
      generalize st.delivered ++ queue = earlier at hprevious ⊢
      rw [List.filterMap_append, hprevious, totalReports_append, Option.or_none, ← hi.mihomo]
      rfl
    · exact fun _ => ⟨_, rfl, halive⟩
    · intro stream c' hst hphase
      cases hst
      cases hphase
    · exact hi.prevConns
    · exact hi.prevTotal
    · change some sample = (st.mihomoTotals ++ [sample]).getLast?
      rw [List.getLast?_concat]

/-- **Every allowed step keeps the invariant.** -/
theorem Inv.step (hi : Inv st) {a : Action} (hok : Allowed st a)
    (h : Delivery.step st a = some st') : Inv st' := by
  cases a with
  | connect =>
    cases hstream : st.stream with
    | some stream =>
      rw [Delivery.step, hstream] at h
      cases h
    | none =>
      rw [Delivery.step, hstream] at h
      cases h
      refine hi.same ?_ (fun hne => absurd rfl hne) ?_ ⟨rfl, rfl, rfl⟩ ⟨rfl, rfl⟩
      · rw [State.handed, State.handed, State.inFlight, State.inFlight, hstream]
        rfl
      · intro stream c hst hphase
        cases hst
        cases hphase
  | sampleSingbox answer =>
    rw [Delivery.step] at h
    split at h
    · rename_i queue alive hstream
      have halive : alive = true := by
        have hany : st.stream.any (·.receiverAlive) = true := hok
        rw [hstream] at hany
        exact hany
      cases halive
      cases h
      exact hi.sampleSingbox hstream answer
    · cases h
  | sampleMihomo answer =>
    rw [Delivery.step] at h
    split at h
    · rename_i c queue alive hstream
      cases h
      exact hi.sampleMihomo hstream answer
    · cases h
  | send =>
    rw [Delivery.step] at h
    split at h
    · rename_i c queue hstream
      cases h
      refine hi.same ?_ (fun _ => ⟨_, rfl, rfl⟩) ?_ ⟨rfl, rfl, rfl⟩ ⟨rfl, rfl⟩
      · rw [handed_of_stream hstream]
        exact congrArg (st.delivered ++ ·) (List.append_nil _)
      · intro stream c' hst hphase
        cases hst
        cases hphase
    · -- what is in hand is on a live stream
      rename_i c queue hstream
      have hne : st.inFlight ≠ [] := by
        rw [State.inFlight, hstream]
        exact List.append_ne_nil_of_right_ne_nil queue (List.cons_ne_nil c [])
      obtain ⟨stream, hst, halive⟩ := hi.live hne
      cases hstream.symm.trans hst
      cases halive
    · cases h
  | transmit =>
    rw [Delivery.step] at h
    split at h
    · rename_i phase c queue hstream
      cases h
      refine hi.same ?_ (fun _ => ⟨_, rfl, rfl⟩) ?_ ⟨rfl, rfl, rfl⟩ ⟨rfl, rfl⟩
      · rw [handed_of_stream hstream]
        exact List.append_assoc _ [c] _
      · intro stream c' hst hphase
        cases hst
        exact hi.pending _ c' hstream hphase
    · cases h
  | dropReceiver =>
    have hempty : st.inFlight = [] := hok
    rw [Delivery.step] at h
    split at h
    · rename_i stream hstream
      cases h
      rw [State.inFlight, hstream] at hempty
      obtain ⟨hqueue, hhand⟩ := List.append_eq_nil_iff.mp hempty
      refine hi.same ?_ (fun hne => absurd hhand hne) ?_ ⟨rfl, rfl, rfl⟩ ⟨rfl, rfl⟩
      · rw [handed_of_stream hstream, hqueue]
        rfl
      · intro stream' c hst hphase
        cases hst
        exact hi.pending stream c hstream hphase
    · cases h
  | disconnect =>
    have hempty : st.inFlight = [] := hok
    rw [Delivery.step] at h
    split at h
    · cases h
      refine hi.same ?_ (fun hne => absurd rfl hne) (fun _ _ hst => nomatch hst) ⟨rfl, rfl, rfl⟩
        ⟨rfl, rfl⟩
      rw [State.handed, State.handed, hempty]
      rfl
    · cases h

/-! ### Nothing is lost -/

theorem totalDelta_nonneg {prev : Option (Int64 × Int64)} {next : Int64 × Int64} {d : Direction}
    (h : 0 ≤ d.of next) : 0 ≤ (d.of (totalDelta prev next)).toInt := by
  cases prev with
  | none => exact toInt_nonneg.mp h
  | some before =>
    have hmax : ∀ x : Int64, 0 ≤ (max x 0).toInt := by
      intro x
      rw [toInt_max_zero]
      exact Int.le_max_right _ _
    cases d with
    | up => exact hmax _
    | down => exact hmax _

/-- The counters of a user are in the reports. -/
theorem Inv.lastCounters_le (hi : Inv st) {u : String} {next : Table Connection}
    (hsteady : Steady (st.samples ++ [next])) (hfits : Fits (st.samples ++ [next]) u)
    (d : Direction) : lastCounters st.samples u d ≤ bytesFor u d st.handed +
      (d.reported u (userDeltas st.singbox.prevConns next)).toInt := by
  have hsum : bytesFor u d st.handed = lastCounters st.samples u d := by
    rw [bytesFor, hi.users]
    exact sum_reported hsteady.of_append hfits.of_append d
  have hnext : 0 ≤ (d.reported u (userDeltas st.singbox.prevConns next)).toInt := by
    refine toInt_nonneg.mp (reported_nonneg hsteady hfits d ?_)
    rw [reports_append, hi.prevConns]
    exact List.mem_append_right _ (List.mem_singleton_self _)
  rw [hsum]
  exact Int.le_add_of_nonneg_right hnext

/-- Totals are in the reports. -/
theorem lastTotal_le {totals : List (Int64 × Int64)} {next : Int64 × Int64}
    (hmono : (totals ++ [next]).Pairwise fun p q => ∀ d : Direction, d.of p ≤ d.of q)
    (hfits : TotalsFit (totals ++ [next])) {d : Direction} (hnext : 0 ≤ d.of next)
    (prev : Option (Int64 × Int64)) :
    lastTotal totals d ≤ bytesOf d (totalReports none totals) +
      (d.of (totalDelta prev next)).toInt := by
  have hsum : bytesOf d (totalReports none totals) = lastTotal totals d :=
    sum_totalReports (List.pairwise_append.mp hmono).1 hfits.of_append d
  rw [hsum]
  exact Int.le_add_of_nonneg_right (totalDelta_nonneg hnext)

theorem Inv.accounted (hi : Inv st) : Accounted st where
  users := hi.users
  singboxTotals := hi.singboxTotals
  mihomoTotals := hi.mihomoTotals
  live := hi.live
  userBytes _ _ hsteady hfits d := hi.lastCounters_le hsteady hfits d
  singboxBytes next hmono hfits d hnext := by
    rw [hi.singboxTotals]
    exact lastTotal_le hmono hfits hnext _
  mihomoBytes next hmono hfits d hnext := by
    rw [hi.mihomoTotals]
    exact lastTotal_le hmono hfits hnext _

/-- **No sampled byte is lost** in a run in which a stream ends only with nothing on
its way, and a sample is taken only on a stream whose receiver is there. -/
theorem accounted_of_guarded {as : List Action} (hok : Run.Guarded step Allowed initial as)
    (hrun : Run.run step initial as = some st) : Accounted st :=
  (Run.inv_of_guarded (fun _ _ _ hi hok h => hi.step hok h) inv_initial hok hrun).accounted

end

/-- A channel is emptied by transmitting. -/
theorem exists_transmitted (st : State) {phase : Phase} {queue : List Collected}
    (hstream : st.stream = some ⟨phase, queue, true⟩) (hphase : phase.inHand = []) :
    ∃ as st', Run.run step st as = some st' ∧ st'.delivered = st.handed ∧ st'.inFlight = [] := by
  induction queue generalizing st with
  | nil =>
    refine ⟨[], st, rfl, ?_, ?_⟩
    · rw [handed_of_stream hstream, hphase]
      exact (List.append_nil _).symm
    · rw [State.inFlight, hstream]
      exact hphase
  | cons c queue ih =>
    obtain ⟨as, st', hrun, hdelivered, hempty⟩ := ih
      { st with stream := some ⟨phase, queue, true⟩, delivered := st.delivered ++ [c] } rfl
    refine ⟨.transmit :: as, st', ?_, ?_, hempty⟩
    · rw [Run.run_cons, step, hstream]
      exact hrun
    · rw [hdelivered, handed_of_stream rfl, handed_of_stream hstream]
      exact List.append_assoc _ [c] _

/-- **What is on its way on a live stream is delivered**, without another sample, once
the reporter goes on and the stream transmits. -/
theorem exists_delivered {st : State} {stream : Stream} (hstream : st.stream = some stream)
    (halive : stream.receiverAlive = true) :
    ∃ as st', Run.run step st as = some st' ∧ st'.delivered = st.handed ∧ st'.inFlight = [] := by
  obtain ⟨phase, queue, alive⟩ := stream
  cases halive
  have hsent : ∀ (st : State) (c : Collected), st.stream = some ⟨.sending c, queue, true⟩ →
      ∃ as st', Run.run step st as = some st' ∧ st'.delivered = st.handed ∧ st'.inFlight = [] := by
    intro st c hst
    obtain ⟨as, st', hrun, hdelivered, hempty⟩ := exists_transmitted
      { st with stream := some ⟨.waiting, queue ++ [c], true⟩ } rfl rfl
    refine ⟨.send :: as, st', ?_, ?_, hempty⟩
    · rw [Run.run_cons, step, hst]
      exact hrun
    · rw [hdelivered, handed_of_stream rfl, handed_of_stream hst]
      exact congrArg (st.delivered ++ ·) (List.append_nil _)
  cases phase with
  | waiting => exact exists_transmitted _ hstream rfl
  | stopped => exact exists_transmitted _ hstream rfl
  | sending c => exact hsent st c hstream
  | sampled c =>
    obtain ⟨as, st', hrun, hdelivered, hempty⟩ :=
      hsent { st with stream := some ⟨.sending c, queue, true⟩ } c rfl
    refine ⟨.sampleMihomo none :: as, st', ?_, ?_, hempty⟩
    · rw [Run.run_cons, step, hstream]
      exact hrun
    · rw [hdelivered, handed_of_stream rfl, handed_of_stream hstream]
      rfl

/-! ### A stream that ends too early -/

namespace EarlyEnd

def event : ConnectionEvent := ⟨0, some ⟨"c1", "alice", 10, 20⟩⟩

/-- The stream ends after the sample. -/
def lost : List Action :=
  [.connect, .sampleSingbox (.grpc (10, 20) [event]), .sampleMihomo none, .disconnect]

/-- The stream ends after the report is transmitted. -/
def delivered : List Action :=
  [.connect, .sampleSingbox (.grpc (10, 20) [event]), .sampleMihomo (some (1, 2)), .send, .transmit,
    .disconnect, .connect]

/-- The state after the lost sample. -/
def after : State where
  singbox := ⟨some (10, 20), connectionSnapshot [event]⟩
  mihomo := none
  stream := none
  delivered := []
  samples := [connectionSnapshot [event]]
  singboxTotals := [(10, 20)]
  mihomoTotals := []

theorem fits : Fits (after.samples ++ [connectionSnapshot [event]]) "alice" := by
  intro p hp d
  have hboth : p = (∅, connectionSnapshot [event]) ∨
      p = (connectionSnapshot [event], connectionSnapshot [event]) := by simpa [after] using hp
  rcases hboth with rfl | rfl <;> cases d <;> decide

end EarlyEnd

/-- **The report of a sample is lost with its stream**: ten bytes were sampled, no report
is left, and the next sample of the same connection has nothing to report. -/
theorem disconnect_loses_report : Run.run step initial EarlyEnd.lost = some EarlyEnd.after ∧
    EarlyEnd.after.handed = [] ∧ lastCounters EarlyEnd.after.samples "alice" .up = 10 ∧
    (Direction.up.reported "alice" (userDeltas EarlyEnd.after.singbox.prevConns
      (connectionSnapshot [EarlyEnd.event]))).toInt = 0 ∧ ¬ Accounted EarlyEnd.after := by
  have hlast : lastCounters EarlyEnd.after.samples "alice" .up = 10 := by decide
  have hnext : (Direction.up.reported "alice" (userDeltas EarlyEnd.after.singbox.prevConns
      (connectionSnapshot [EarlyEnd.event]))).toInt = 0 := by decide
  refine ⟨rfl, rfl, hlast, hnext, fun h => ?_⟩
  have hbytes := h.userBytes "alice" (connectionSnapshot [EarlyEnd.event])
    (steady_of_one_user (by decide) (by decide) (by decide) (by decide)) EarlyEnd.fits .up
  rw [hlast, hnext] at hbytes
  exact absurd hbytes (by decide)

theorem accounted_of_guarded_delivered : ∃ st,
    Run.run step initial EarlyEnd.delivered = some st ∧ Accounted st := by
  have hchecked : Run.checked step (fun st a => decide (Allowed st a)) initial
      EarlyEnd.delivered = true := by decide
  obtain ⟨hok, st, hrun⟩ := Run.guarded_of_checked (I := fun _ => True)
    (fun _ _ _ h => of_decide_eq_true h) (fun _ _ _ _ _ _ => trivial) trivial hchecked
  exact ⟨st, hrun, accounted_of_guarded hok hrun⟩

end ProxyPanel.Agent.Delivery
