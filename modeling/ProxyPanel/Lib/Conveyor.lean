import Mathlib.Data.List.Perm.Basic
import Mathlib.Tactic.Common

/-!
# A buffer that carriers empty

Items are put into a buffer with room for `capacity` of them, and one that finds no room is
dropped.  Carriers take items out one by one, at most `limit` for a batch, and send each
batch off; the batches of a carrier arrive in their order.  A carrier may stop and lose the
batch it has not sent, and what it has sent may be cut off, at any moment and beside any
number of other carriers.

`Inv` says that nothing arrives twice or out of the order of its carrier (`order`), and that
each item is in one place (`conserved`).  `inv_step`: every step of every carrier keeps it.
-/

namespace ProxyPanel.Conveyor

variable {α : Type}

structure Carrier (α : Type) where
  running : Bool
  collecting : List α
  inFlight : List (List α)

/-- What a carrier holds, the oldest first. -/
def Carrier.load (c : Carrier α) : List α := c.inFlight.flatten ++ c.collecting

/-- `emitted`, `dropped`, `lost` and `delivered` are the history; what is delivered keeps the
number of its carrier. -/
structure State (α : Type) where
  emitted : List α := []
  buffer : List α := []
  dropped : List α := []
  carriers : List (Carrier α) := []
  delivered : List (Nat × α) := []
  lost : List α := []

inductive Action (α : Type) where
  | emit (item : α)
  | start
  | collect (i : Nat)
  | dispatch (i : Nat)
  | deliver (i : Nat)
  | stop (i : Nat)
  | cut (i : Nat)

def emit (capacity : Nat) (item : α) (s : State α) : State α :=
  if s.buffer.length < capacity then
    { s with emitted := s.emitted ++ [item], buffer := s.buffer ++ [item] }
  else { s with emitted := s.emitted ++ [item], dropped := s.dropped ++ [item] }

/-- A carrier takes the oldest item. -/
def collect (limit i : Nat) (c : Carrier α) (s : State α) : Option (State α) :=
  match s.buffer with
  | [] => none
  | item :: rest =>
    if c.running = true ∧ c.collecting.length < limit then
      some { s with
        buffer := rest
        carriers := s.carriers.set i { c with collecting := c.collecting ++ [item] } }
    else none

/-- A carrier sends its batch off. -/
def dispatch (i : Nat) (c : Carrier α) (s : State α) : Option (State α) :=
  if c.running = true ∧ c.collecting ≠ [] then
    some { s with
      carriers := s.carriers.set i
        { c with collecting := [], inFlight := c.inFlight ++ [c.collecting] } }
  else none

/-- The oldest batch of a carrier arrives. -/
def deliver (i : Nat) (c : Carrier α) (s : State α) : Option (State α) :=
  match c.inFlight with
  | [] => none
  | batch :: rest =>
    some { s with
      delivered := s.delivered ++ batch.map (i, ·)
      carriers := s.carriers.set i { c with inFlight := rest } }

def stop (i : Nat) (c : Carrier α) (s : State α) : State α :=
  { s with
    lost := s.lost ++ c.collecting
    carriers := s.carriers.set i { c with running := false, collecting := [] } }

def cut (i : Nat) (c : Carrier α) (s : State α) : State α :=
  { s with
    lost := s.lost ++ c.inFlight.flatten
    carriers := s.carriers.set i { c with inFlight := [] } }

def step (capacity limit : Nat) (s : State α) : Action α → Option (State α)
  | .emit item => some (emit capacity item s)
  | .start => some { s with carriers := s.carriers ++ [⟨true, [], []⟩] }
  | .collect i => s.carriers[i]?.bind fun c => collect limit i c s
  | .dispatch i => s.carriers[i]?.bind fun c => dispatch i c s
  | .deliver i => s.carriers[i]?.bind fun c => deliver i c s
  | .stop i => s.carriers[i]?.map fun c => stop i c s
  | .cut i => s.carriers[i]?.map fun c => cut i c s

/-- What a carrier has delivered. -/
def deliveredBy (i : Nat) (s : State α) : List α :=
  (s.delivered.filter (·.1 = i)).map (·.2)

/-- Every item that is somewhere. -/
def everywhere (s : State α) : List α :=
  s.delivered.map (·.2) ++ s.carriers.flatMap (·.load) ++ s.buffer ++ s.dropped ++ s.lost

structure Inv (capacity limit : Nat) (s : State α) : Prop where
  order : ∀ i c, s.carriers[i]? = some c →
    (deliveredBy i s ++ c.load ++ s.buffer).Sublist s.emitted
  waiting : s.buffer.Sublist s.emitted
  known : ∀ d ∈ s.delivered, d.1 < s.carriers.length
  conserved : (everywhere s).Perm s.emitted
  room : s.buffer.length ≤ capacity
  batches : ∀ c ∈ s.carriers, c.collecting.length ≤ limit ∧
    ∀ batch ∈ c.inFlight, batch ≠ [] ∧ batch.length ≤ limit

theorem inv_initial (capacity limit : Nat) : Inv capacity limit ({} : State α) where
  order i c h := by cases h
  waiting := List.Sublist.slnil
  known d h := absurd h List.not_mem_nil
  conserved := List.Perm.refl []
  room := Nat.zero_le capacity
  batches c h := absurd h List.not_mem_nil

/-! ### One carrier of many -/

/-- The items of the carriers after one of them is replaced. -/
theorem perm_flatMap_set {β : Type} {cs : List β} {i : Nat} {c : β} (h : cs[i]? = some c) (c' : β)
    (f : β → List α) : ((cs.set i c').flatMap f ++ f c).Perm (cs.flatMap f ++ f c') := by
  induction cs generalizing i with
  | nil => cases h
  | cons d ds ih =>
    cases i with
    | zero =>
      cases h
      rw [List.set_cons_zero, List.flatMap_cons, List.flatMap_cons]
      have hswap : (f c' ++ (ds.flatMap f ++ f c)).Perm ((ds.flatMap f ++ f c) ++ f c') :=
        List.perm_append_comm
      rw [List.append_assoc]
      exact hswap.trans (List.perm_append_comm.append_right (f c'))
    | succ i =>
      rw [List.set_cons_succ, List.flatMap_cons, List.flatMap_cons, List.append_assoc,
        List.append_assoc]
      exact (ih h).append_left (f d)

/-- What every step of a carrier does: its line loses items at most, and an item that leaves a
place comes to another. -/
structure Handover (limit i : Nat) (c c' : Carrier α) (s s' : State α) : Prop where
  carriers : s'.carriers = s.carriers.set i c'
  emitted : s'.emitted = s.emitted
  dropped : s'.dropped = s.dropped
  buffer : s'.buffer.Sublist s.buffer
  others : ∀ j, j ≠ i → deliveredBy j s' = deliveredBy j s
  known : ∀ d ∈ s'.delivered, d ∈ s.delivered ∨ d.1 = i
  line : (deliveredBy i s' ++ c'.load ++ s'.buffer).Sublist
    (deliveredBy i s ++ c.load ++ s.buffer)
  moved : (s'.delivered.map (·.2) ++ c'.load ++ s'.buffer ++ s'.lost).Perm
    (s.delivered.map (·.2) ++ c.load ++ s.buffer ++ s.lost)
  collecting : c.collecting.length ≤ limit → c'.collecting.length ≤ limit
  inFlight : ∀ batch ∈ c'.inFlight,
    batch ∈ c.inFlight ∨ batch ≠ [] ∧ batch.length ≤ c.collecting.length

/-- **A step of a carrier keeps the invariant.** -/
theorem Inv.handover {capacity limit i : Nat} {c c' : Carrier α} {s s' : State α}
    (h : Inv capacity limit s) (hc : s.carriers[i]? = some c)
    (hstep : Handover limit i c c' s s') : Inv capacity limit s' where
  order j d hd := by
    rw [hstep.emitted]
    rw [hstep.carriers] at hd
    by_cases hj : j = i
    · subst hj
      rw [List.getElem?_set_self (List.getElem?_eq_some_iff.mp hc).1] at hd
      cases hd
      exact hstep.line.trans (h.order j c hc)
    · rw [List.getElem?_set_ne (Ne.symm hj)] at hd
      rw [hstep.others j hj]
      exact ((List.Sublist.refl _).append hstep.buffer).trans (h.order j d hd)
  waiting := by
    rw [hstep.emitted]
    exact hstep.buffer.trans h.waiting
  known d hd := by
    rw [hstep.carriers, List.length_set]
    rcases hstep.known d hd with hold | hnew
    · exact h.known d hold
    · rw [hnew]
      exact (List.getElem?_eq_some_iff.mp hc).1
  conserved := by
    rw [hstep.emitted]
    refine List.Perm.trans ?_ h.conserved
    have hset := perm_flatMap_set hc c' (fun c => c.load)
    have hmoved := hstep.moved
    classical
    rw [List.perm_iff_count] at hset hmoved ⊢
    intro item
    have hset := hset item
    have hmoved := hmoved item
    rw [everywhere, everywhere, hstep.carriers, hstep.dropped]
    simp only [List.count_append] at hset hmoved ⊢
    omega
  room := Nat.le_trans hstep.buffer.length_le h.room
  batches d hd := by
    rw [hstep.carriers] at hd
    obtain ⟨hcollecting, hinFlight⟩ := h.batches c (List.mem_of_getElem? hc)
    rcases List.mem_or_eq_of_mem_set hd with hold | rfl
    · exact h.batches d hold
    · refine ⟨hstep.collecting hcollecting, fun batch hbatch => ?_⟩
      rcases hstep.inFlight batch hbatch with hold | ⟨hne, hle⟩
      · exact hinFlight batch hold
      · exact ⟨hne, Nat.le_trans hle hcollecting⟩

/-! ### The steps -/

theorem inv_emit {capacity limit : Nat} (item : α) {s : State α} (h : Inv capacity limit s) :
    Inv capacity limit (emit capacity item s) := by
  rw [emit]
  split
  · rename_i hroom
    refine ⟨fun i c hc => ?_, ?_, h.known, ?_, ?_, h.batches⟩
    · change (deliveredBy i s ++ c.load ++ (s.buffer ++ [item])).Sublist (s.emitted ++ [item])
      rw [← List.append_assoc]
      exact (h.order i c hc).append_right [item]
    · exact h.waiting.append_right [item]
    · refine List.Perm.trans ?_ (h.conserved.append_right [item])
      classical
      refine List.perm_iff_count.mpr fun x => ?_
      simp only [everywhere, List.count_append]
      omega
    · rw [List.length_append]
      exact hroom
  · refine ⟨fun i c hc => ?_, ?_, h.known, ?_, h.room, h.batches⟩
    · exact (h.order i c hc).trans (List.sublist_append_left _ _)
    · exact h.waiting.trans (List.sublist_append_left _ _)
    · refine List.Perm.trans ?_ (h.conserved.append_right [item])
      classical
      refine List.perm_iff_count.mpr fun x => ?_
      simp only [everywhere, List.count_append]
      omega

theorem inv_start {capacity limit : Nat} {s : State α} (h : Inv capacity limit s) :
    Inv capacity limit { s with carriers := s.carriers ++ [⟨true, [], []⟩] } where
  order i c hc := by
    rw [List.getElem?_append] at hc
    split at hc
    · exact h.order i c hc
    · rename_i hnew
      have hc : c = ⟨true, [], []⟩ := (List.mem_singleton.mp (List.mem_of_getElem? hc))
      have hnone : deliveredBy i s = [] := by
        rw [deliveredBy, List.map_eq_nil_iff, List.filter_eq_nil_iff]
        intro d hd hi
        exact hnew (of_decide_eq_true hi ▸ h.known d hd)
      change (deliveredBy i s ++ c.load ++ s.buffer).Sublist s.emitted
      rw [hnone, hc]
      exact h.waiting
  waiting := h.waiting
  known d hd := by
    rw [List.length_append]
    exact Nat.lt_add_right 1 (h.known d hd)
  conserved := by
    rw [everywhere, List.flatMap_append, List.flatMap_singleton]
    refine List.Perm.trans (List.Perm.of_eq ?_) h.conserved
    rw [Carrier.load, List.flatten_nil, List.append_nil, List.append_nil, everywhere]
  room := h.room
  batches c hc := by
    rcases List.mem_append.mp hc with hold | hnew
    · exact h.batches c hold
    · obtain rfl := List.mem_singleton.mp hnew
      exact ⟨Nat.zero_le limit, fun batch hbatch => absurd hbatch List.not_mem_nil⟩

section Carriers

variable {limit i : Nat} {c : Carrier α} {s s' : State α}

theorem deliveredBy_congr (h : s'.delivered = s.delivered) (j : Nat) :
    deliveredBy j s' = deliveredBy j s := by
  rw [deliveredBy, deliveredBy, h]

theorem handover_collect (h : collect limit i c s = some s') :
    ∃ c', Handover limit i c c' s s' := by
  rw [collect] at h
  split at h
  · cases h
  · rename_i item rest hbuffer
    split at h
    · rename_i hguard
      cases h
      refine ⟨_, rfl, rfl, rfl, ?_, fun j _ => deliveredBy_congr rfl j, fun d hd => Or.inl hd, ?_,
        ?_, fun _ => ?_, fun batch hbatch => Or.inl hbatch⟩
      · rw [hbuffer]
        exact List.sublist_cons_self item rest
      · rw [deliveredBy_congr rfl i, hbuffer, Carrier.load, Carrier.load]
        simp only [List.append_assoc, List.singleton_append]
        exact List.Sublist.refl _
      · rw [hbuffer, Carrier.load, Carrier.load]
        simp only [List.append_assoc, List.cons_append]
        exact List.Perm.refl _
      · rw [List.length_append]
        exact hguard.2
    · cases h

theorem handover_dispatch (h : dispatch i c s = some s') :
    ∃ c', Handover limit i c c' s s' := by
  rw [dispatch] at h
  split at h
  · rename_i hguard
    cases h
    have hload : ({ c with
        collecting := [], inFlight := c.inFlight ++ [c.collecting] } : Carrier α).load = c.load := by
      rw [Carrier.load, Carrier.load, List.flatten_append, List.flatten_singleton, List.append_nil]
    refine ⟨_, rfl, rfl, rfl, List.Sublist.refl _, fun j _ => deliveredBy_congr rfl j,
      fun d hd => Or.inl hd, ?_, ?_, fun _ => Nat.zero_le limit, fun batch hbatch => ?_⟩
    · rw [hload]
      exact List.Sublist.refl _
    · rw [hload]
    · rcases List.mem_append.mp hbatch with hold | hnew
      · exact Or.inl hold
      · obtain rfl := List.mem_singleton.mp hnew
        exact Or.inr ⟨hguard.2, Nat.le_refl _⟩
  · cases h

theorem handover_deliver (h : deliver i c s = some s') :
    ∃ c', Handover limit i c c' s s' := by
  rw [deliver] at h
  split at h
  · cases h
  · rename_i batch rest hinFlight
    cases h
    refine ⟨_, rfl, rfl, rfl, List.Sublist.refl _, fun j hj => ?_, fun d hd => ?_, ?_, ?_, id,
      fun other hother => Or.inl (hinFlight ▸ List.mem_cons_of_mem _ hother)⟩
    · have hnone : (batch.map (i, ·)).filter (·.1 = j) = [] := by
        rw [List.filter_eq_nil_iff]
        intro d hd hj'
        obtain ⟨item, _, rfl⟩ := List.mem_map.mp hd
        exact hj (of_decide_eq_true hj').symm
      rw [deliveredBy, deliveredBy, List.filter_append, hnone, List.append_nil]
    · rcases List.mem_append.mp hd with hold | hnew
      · exact Or.inl hold
      · obtain ⟨item, _, rfl⟩ := List.mem_map.mp hnew
        exact Or.inr rfl
    · have hall : (batch.map (i, ·)).filter (·.1 = i) = batch.map (i, ·) := by
        rw [List.filter_eq_self]
        intro d hd
        obtain ⟨item, _, rfl⟩ := List.mem_map.mp hd
        exact decide_eq_true rfl
      rw [deliveredBy, deliveredBy, List.filter_append, hall, List.map_append, List.map_map,
        Carrier.load, Carrier.load, hinFlight, List.flatten_cons]
      simp only [Function.comp_def, List.map_id', List.append_assoc]
      exact List.Sublist.refl _
    · rw [List.map_append, List.map_map, Carrier.load, Carrier.load, hinFlight, List.flatten_cons]
      simp only [Function.comp_def, List.map_id', List.append_assoc]
      exact List.Perm.refl _

theorem handover_stop (i : Nat) (c : Carrier α) (s : State α) :
    ∃ c', Handover limit i c c' s (stop i c s) := by
  refine ⟨_, rfl, rfl, rfl, List.Sublist.refl _, fun j _ => deliveredBy_congr rfl j,
    fun d hd => Or.inl hd, ?_, ?_, fun _ => Nat.zero_le limit, fun batch hbatch => Or.inl hbatch⟩
  · have hload : (c.inFlight.flatten ++ []).Sublist c.load := by
      rw [List.append_nil]
      exact List.sublist_append_left _ _
    exact ((List.Sublist.refl _).append hload).append_right s.buffer
  · classical
    refine List.perm_iff_count.mpr fun x => ?_
    simp only [stop, Carrier.load, List.append_nil, List.count_append]
    omega

theorem handover_cut (i : Nat) (c : Carrier α) (s : State α) :
    ∃ c', Handover limit i c c' s (cut i c s) := by
  refine ⟨_, rfl, rfl, rfl, List.Sublist.refl _, fun j _ => deliveredBy_congr rfl j,
    fun d hd => Or.inl hd, ?_, ?_, id, fun batch hbatch => absurd hbatch List.not_mem_nil⟩
  · exact ((List.Sublist.refl _).append (List.sublist_append_right _ _)).append_right s.buffer
  · classical
    refine List.perm_iff_count.mpr fun x => ?_
    simp only [cut, Carrier.load, List.flatten_nil, List.nil_append, List.count_append]
    omega

end Carriers

theorem inv_step {capacity limit : Nat} (s : State α) (a : Action α) (s' : State α)
    (h : Inv capacity limit s) (hstep : step capacity limit s a = some s') :
    Inv capacity limit s' := by
  cases a with
  | emit item =>
    cases hstep
    exact inv_emit item h
  | start =>
    cases hstep
    exact inv_start h
  | collect i =>
    obtain ⟨c, hc, hstep⟩ := Option.bind_eq_some_iff.mp hstep
    obtain ⟨c', hover⟩ := handover_collect hstep
    exact h.handover hc hover
  | dispatch i =>
    obtain ⟨c, hc, hstep⟩ := Option.bind_eq_some_iff.mp hstep
    obtain ⟨c', hover⟩ := handover_dispatch hstep
    exact h.handover hc hover
  | deliver i =>
    obtain ⟨c, hc, hstep⟩ := Option.bind_eq_some_iff.mp hstep
    obtain ⟨c', hover⟩ := handover_deliver hstep
    exact h.handover hc hover
  | stop i =>
    obtain ⟨c, hc, rfl⟩ := Option.map_eq_some_iff.mp hstep
    obtain ⟨c', hover⟩ := handover_stop i c s
    exact h.handover hc hover
  | cut i =>
    obtain ⟨c, hc, rfl⟩ := Option.map_eq_some_iff.mp hstep
    obtain ⟨c', hover⟩ := handover_cut i c s
    exact h.handover hc hover

end ProxyPanel.Conveyor
