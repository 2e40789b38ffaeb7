import Geocast.Proofs.History
import Geocast.Proofs.Queue.Contents
import Mathlib.Data.List.Nodup

/-!
# What each queue holds

The queues of a router are many: one for broadcast packets, and in two families one for each
address (`Lane`). An operation puts a parcel into one of them or empties some, and leaves the others
as they are (`lane_enqueue`, `lane_drop`). So each of them, taken for itself, holds the latest of the
parcels that were put into it since it was last emptied, as many as it has room for, whatever
happens to the others in between; and what comes out when some are emptied is what these held, queue
by queue. The main result is `holds_latest`.
-/

namespace Geocast

/-- One of the queues of a router. -/
inductive Lane
  | broadcast
  | unicast (a : Address)
  | lookup (a : Address)
deriving DecidableEq, Repr

namespace Lane

/-- The queue that a parcel of a family and an address goes to. -/
def ofKind (kind : QueueKind) (a : Address) : Lane :=
  match kind with
  | .broadcast => .broadcast
  | .unicast => .unicast a
  | .lookup => .lookup a

/-- The family of a queue. -/
def kind : Lane → QueueKind
  | .broadcast => .broadcast
  | .unicast _ => .unicast
  | .lookup _ => .lookup

/-- Whether a queue is one of a family, or the one of an address in it. -/
def selected (kind : QueueKind) (a : Option Address) (lane : Lane) : Bool :=
  a.elim (decide (lane.kind = kind)) fun a => decide (lane = ofKind kind a)

theorem kind_ofKind (kind : QueueKind) (a : Address) : (ofKind kind a).kind = kind := by
  cases kind <;> rfl

theorem kind_of_selected {kind : QueueKind} {a : Option Address} {lane : Lane}
    (h : selected kind a lane = true) : lane.kind = kind := by
  cases a with
  | none => exact of_decide_eq_true h
  | some a =>
    rw [of_decide_eq_true (p := lane = ofKind kind a) h]
    exact kind_ofKind kind a

end Lane

namespace PacketQueues

open Lane

/-- What can be done to the queues. -/
inductive Operation
  | enqueue (kind : QueueKind) (a : Address) (p : Parcel)
  | flush (kind : QueueKind) (a : Option Address) (purge : Bool) (now : Nat)
  | clear

/-- What the queues answer to an operation. -/
inductive Answer
  | enqueued (overflow : Bool)
  | flushed (out : Flushed)
  | cleared (count : Nat)

/-- Does what is asked. -/
def perform (q : PacketQueues) : Operation → Answer × PacketQueues
  | .enqueue kind a p => let (overflow, q) := q.enqueue kind a p; (.enqueued overflow, q)
  | .flush kind a purge now => let (out, q) := q.flush kind a purge now; (.flushed out, q)
  | .clear => let (count, q) := q.clear; (.cleared count, q)

/-- What a row of operations makes of the queues. -/
def after (q : PacketQueues) (ops : List Operation) : PacketQueues := (feed perform q ops).2

/-- The parcels of one queue. -/
def lane (q : PacketQueues) : Lane → List Parcel
  | .broadcast => q.broadcast
  | .unicast a => q.queue .unicast a
  | .lookup a => q.queue .lookup a

/-! ## One operation, seen from one queue -/

section

variable (q : PacketQueues)

/-- A parcel comes into the queue of its family and address. -/
theorem lane_enqueue (kind : QueueKind) (a : Address) (p : Parcel) (l : Lane) :
    (q.enqueue kind a p).2.lane l =
      if l = ofKind kind a then push (q.capacity kind) (q.lane l) p else q.lane l := by
  have hqueue (hkind : kind ≠ .broadcast) (b : Address) :
      (q.enqueue kind a p).2.queue kind b =
        if b = a then push (q.capacity kind) (q.queue kind b) p else q.queue kind b := by
    rw [queue_enqueue q hkind]
    split
    · next heq => rw [heq]
    · rfl
  cases kind <;> cases l
  case broadcast.broadcast => rfl
  case unicast.unicast b =>
    refine (hqueue (by decide) b).trans (ite_congr ?_ (fun _ => rfl) fun _ => rfl)
    simp [ofKind]
  case lookup.lookup b =>
    refine (hqueue (by decide) b).trans (ite_congr ?_ (fun _ => rfl) fun _ => rfl)
    simp [ofKind]
  all_goals rfl

/-- Taking parcels out empties the queues that are selected. -/
theorem lane_drop (kind : QueueKind) (a : Option Address) (l : Lane) :
    (q.drop kind a).lane l = if selected kind a l then [] else q.lane l := by
  have herase (m : AddressMap (List Parcel)) (a b : Address) :
      ((m.erase a).get? b).getD [] = if b = a then [] else (m.get? b).getD [] := by
    split
    · next heq =>
      rw [heq, AddressMap.get?_erase_self]
      rfl
    · next hne => rw [AddressMap.get?_erase_of_ne _ hne]
  cases kind <;> cases a <;> cases l
  case unicast.some.unicast a b =>
    refine (herase q.unicast a b).trans (ite_congr ?_ (fun _ => rfl) fun _ => rfl)
    simp [selected, ofKind]
  case lookup.some.lookup a b =>
    refine (herase q.lookup a b).trans (ite_congr ?_ (fun _ => rfl) fun _ => rfl)
    simp [selected, ofKind]
  all_goals rfl

/-- Nothing is left when all is cleared. -/
theorem lane_clear (l : Lane) : q.clear.2.lane l = [] := by
  cases l <;> rfl

/-- No operation changes how much room a queue has. -/
theorem capacity_perform (op : Operation) (kind : QueueKind) :
    (q.perform op).2.capacity kind = q.capacity kind := by
  cases op with
  | enqueue kind' a p => cases kind' <;> cases kind <;> rfl
  | flush kind' a purge now => cases kind' <;> cases a <;> cases kind <;> rfl
  | clear => cases kind <;> rfl

/-- The queue that a parcel is put into gives up its oldest exactly if that is said. -/
theorem enqueue_evicts {kind : QueueKind} (positive : 0 < q.capacity kind) (a : Address)
    (p : Parcel) :
    ((q.enqueue kind a p).1 = true → ∃ oldest rest, q.lane (ofKind kind a) = oldest :: rest ∧
      (q.enqueue kind a p).2.lane (ofKind kind a) = rest ++ [p]) ∧
    ((q.enqueue kind a p).1 = false →
      (q.enqueue kind a p).2.lane (ofKind kind a) = q.lane (ofKind kind a) ++ [p]) := by
  have hlane : q.queue kind a = q.lane (ofKind kind a) := by cases kind <;> rfl
  have hanswer : (q.enqueue kind a p).1 =
      decide (q.capacity kind ≤ (q.lane (ofKind kind a)).length) := by
    rw [← hlane]
    rfl
  rw [lane_enqueue, if_pos rfl, hanswer]
  unfold push
  constructor
  · intro hfull
    have hle := of_decide_eq_true hfull
    cases hparcels : q.lane (ofKind kind a) with
    | nil =>
      rw [hparcels, List.length_nil] at hle
      omega
    | cons oldest rest =>
      rw [hparcels] at hle
      exact ⟨oldest, rest, rfl, by rw [if_pos hle]; rfl⟩
  · intro hroom
    rw [if_neg (of_decide_eq_false hroom)]

end

/-! ## What was put into a queue -/

/-- What was put into a queue since it was last emptied, with one operation more. -/
def putNext (l : Lane) (ps : List Parcel) : Operation → List Parcel
  | .enqueue kind a p => if l = ofKind kind a then ps ++ [p] else ps
  | .flush kind a _ _ => if selected kind a l then [] else ps
  | .clear => []

/-- What was put into a queue since it was last emptied, in the order in which it was. -/
def put (l : Lane) (ops : List Operation) : List Parcel := ops.foldl (putNext l) []

/-- One operation more leaves in a queue the latest of what was put into it. -/
theorem lane_perform {q : PacketQueues} {l : Lane} (positive : 0 < q.capacity l.kind)
    {ps : List Parcel} (h : q.lane l = ps.rtake (q.capacity l.kind)) (op : Operation) :
    (q.perform op).2.lane l = (putNext l ps op).rtake (q.capacity l.kind) := by
  cases op with
  | enqueue kind a p =>
    show (q.enqueue kind a p).2.lane l = (if l = ofKind kind a then ps ++ [p] else ps).rtake _
    rw [lane_enqueue]
    split
    · next heq =>
      have hkind : kind = l.kind := heq ▸ (kind_ofKind kind a).symm
      rw [hkind, rtake_concat positive, h]
      rfl
    · exact h
  | flush kind a purge now =>
    show (q.drop kind a).lane l = (if selected kind a l then [] else ps).rtake _
    rw [lane_drop]
    split
    · rw [List.rtake_nil]
    · exact h
  | clear => exact (lane_clear q l).trans (List.rtake_nil _).symm

/-- By induction on the operations, the last one last. -/
theorem lane_after {q : PacketQueues} (hempty : ∀ l, q.lane l = [])
    (positive : ∀ kind, 0 < q.capacity kind) (ops : List Operation) :
    (∀ kind, (q.after ops).capacity kind = q.capacity kind) ∧
    ∀ l, (q.after ops).lane l = (put l ops).rtake (q.capacity l.kind) := by
  induction ops using List.reverseRecOn with
  | nil => exact ⟨fun _ => rfl, fun l => (hempty l).trans (List.rtake_nil _).symm⟩
  | append_singleton ops op ih =>
    obtain ⟨hcapacity, hlane⟩ := ih
    have hafter : q.after (ops ++ [op]) = ((q.after ops).perform op).2 := by
      unfold after
      rw [feed_concat]
    have hput (l : Lane) : put l (ops ++ [op]) = putNext l (put l ops) op :=
      List.foldl_concat ..
    rw [hafter]
    refine ⟨fun kind => (capacity_perform _ op kind).trans (hcapacity kind), fun l => ?_⟩
    have hl := hcapacity l.kind
    rw [hput, ← hl]
    exact lane_perform (hl ▸ positive l.kind) (hl ▸ hlane l) op

/-! ## All queues together -/

/-- Every queue that can hold anything, each once, in the order in which they are emptied. -/
def lanes (q : PacketQueues) : List Lane :=
  .broadcast :: (q.unicast.keys.map Lane.unicast ++ q.lookup.keys.map Lane.lookup)

/-- No queue is emptied twice. -/
theorem nodup_lanes (q : PacketQueues) : q.lanes.Nodup := by
  have hunicast : (q.unicast.keys.map Lane.unicast).Nodup :=
    List.Nodup.map (fun _ _ h => Lane.unicast.inj h) q.unicast.nodup
  have hlookup : (q.lookup.keys.map Lane.lookup).Nodup :=
    List.Nodup.map (fun _ _ h => Lane.lookup.inj h) q.lookup.nodup
  unfold lanes
  rw [List.nodup_cons, List.nodup_append]
  refine ⟨by simp, hunicast, hlookup, ?_⟩
  intro l hl l' hl'
  obtain ⟨a, -, rfl⟩ := List.mem_map.mp hl
  obtain ⟨b, -, rfl⟩ := List.mem_map.mp hl'
  simp

/-- None that holds something is left out. -/
theorem mem_lanes (q : PacketQueues) {l : Lane} (h : q.lane l ≠ []) : l ∈ q.lanes := by
  have hkey {m : AddressMap (List Parcel)} {a : Address} (h : (m.get? a).getD [] ≠ []) :
      a ∈ m.keys := by
    cases hget : m.get? a with
    | none =>
      rw [hget] at h
      exact absurd rfl h
    | some parcels =>
      exact List.mem_map_of_mem ((AddressMap.get?_eq_some_iff m a parcels).mp hget)
  unfold lanes
  cases l with
  | broadcast => exact List.mem_cons_self
  | unicast a =>
    refine List.mem_cons_of_mem _ (List.mem_append_left _ ?_)
    exact List.mem_map_of_mem (hkey h)
  | lookup a =>
    refine List.mem_cons_of_mem _ (List.mem_append_right _ ?_)
    exact List.mem_map_of_mem (hkey h)

section

variable {q : PacketQueues} {m : AddressMap (List Parcel)} {make : Address → Lane}
  (hlane : ∀ a, q.lane (make a) = (m.get? a).getD [])
include hlane

/-- The queues of a family, one after the other. -/
theorem flatMap_family : (m.keys.map make).flatMap q.lane = m.values.flatten := by
  have hentry : ∀ entry ∈ m.toList, q.lane (make entry.1) = entry.2 := by
    intro entry hentry
    rw [hlane, (AddressMap.get?_eq_some_iff m entry.1 entry.2).mpr hentry]
    rfl
  unfold AddressMap.keys AddressMap.values
  rw [List.map_map, List.flatMap_def, List.map_map]
  exact congrArg List.flatten (List.map_congr_left hentry)

/-- The queue of one address in a family. -/
theorem flatMap_address (hinj : Function.Injective make) (a : Address) :
    ((m.keys.map make).filter fun l => decide (l = make a)).flatMap q.lane =
      (m.get? a).getD [] := by
  have hfilter : (m.keys.map make).filter (fun l => decide (l = make a)) =
      ((m.get? a).map fun _ => make a).toList := by
    unfold AddressMap.keys AddressMap.get?
    rw [List.map_map, List.filter_map]
    have hsame : (fun l => decide (l = make a)) ∘ make ∘ Prod.fst =
        fun e : Address × List Parcel => decide (e.1 = a) := by
      funext e
      simp [hinj.eq_iff]
    rw [hsame, AddressMap.filter_key_eq m.nodup a]
    cases (m.toList.find? (·.1 = a)).map Prod.snd <;> rfl
  rw [hfilter]
  have ha := hlane a
  cases hget : m.get? a with
  | none => rfl
  | some parcels =>
    rw [hget] at ha
    simp [ha]

end

/-- What is taken out is what the selected queues hold, one after the other. -/
theorem select_eq (q : PacketQueues) (kind : QueueKind) (a : Option Address) :
    q.select kind a = (q.lanes.filter (selected kind a)).flatMap q.lane := by
  -- queues of the other families drop out
  have hother (make : Address → Lane) (hne : ∀ b, (make b).kind ≠ kind) (keys : List Address) :
      (keys.map make).filter (selected kind a) = [] := by
    refine List.filter_eq_nil_iff.mpr fun l hl hselected => ?_
    obtain ⟨b, -, rfl⟩ := List.mem_map.mp hl
    exact hne b (kind_of_selected hselected)
  unfold lanes
  cases kind with
  | broadcast =>
    have hfirst : selected .broadcast a .broadcast = true := by cases a <;> rfl
    rw [List.filter_cons_of_pos hfirst, List.filter_append,
      hother .unicast (fun _ => by simp [Lane.kind]) q.unicast.keys,
      hother .lookup (fun _ => by simp [Lane.kind]) q.lookup.keys]
    exact (List.append_nil q.broadcast).symm
  | unicast =>
    have hfirst : ¬ selected .unicast a .broadcast = true := fun h =>
      absurd (kind_of_selected h) (by decide)
    rw [List.filter_cons_of_neg hfirst, List.filter_append,
      hother .lookup (fun _ => by simp [Lane.kind]) q.lookup.keys, List.append_nil]
    cases a with
    | none =>
      rw [List.filter_eq_self.mpr fun l hl => by obtain ⟨b, -, rfl⟩ := List.mem_map.mp hl; rfl]
      exact (flatMap_family fun _ => rfl).symm
    | some a => exact (flatMap_address (fun _ => rfl) (fun _ _ => Lane.unicast.inj) a).symm
  | lookup =>
    have hfirst : ¬ selected .lookup a .broadcast = true := fun h =>
      absurd (kind_of_selected h) (by decide)
    rw [List.filter_cons_of_neg hfirst, List.filter_append,
      hother .unicast (fun _ => by simp [Lane.kind]) q.unicast.keys, List.nil_append]
    cases a with
    | none =>
      rw [List.filter_eq_self.mpr fun l hl => by obtain ⟨b, -, rfl⟩ := List.mem_map.mp hl; rfl]
      exact (flatMap_family fun _ => rfl).symm
    | some a => exact (flatMap_address (fun _ => rfl) (fun _ _ => Lane.lookup.inj) a).symm

/-- A length is what the queues that it is asked of hold together. -/
theorem length_eq (q : PacketQueues) (kind : QueueKind) (a : Option Address) :
    q.length kind a =
      ((q.lanes.filter (selected kind a)).map fun l => (q.lane l).length).sum := by
  unfold length
  rw [select_eq, List.length_flatMap]

/-- Every queue is one of exactly one family. -/
theorem total_eq (q : PacketQueues) : q.total = (q.lanes.map fun l => (q.lane l).length).sum := by
  unfold total
  rw [length_eq, length_eq, length_eq]
  generalize q.lanes = ls
  induction ls with
  | nil => rfl
  | cons l rest ih =>
    rw [List.map_cons, List.sum_cons, ← ih]
    cases l <;> simp [selected, Lane.kind] <;> omega

/-- What comes out is handed out, has expired, or is thrown away. -/
theorem ready_add_expired_add_purged (drained : List Parcel) (purge : Bool) (now : Nat) :
    (Flushed.ofDrained drained purge now).ready.length +
      (Flushed.ofDrained drained purge now).expired +
      (Flushed.ofDrained drained purge now).purged = drained.length := by
  unfold Flushed.ofDrained
  cases purge with
  | true => simp
  | false =>
    have hsplit := List.length_eq_length_filter_add (l := drained) (fun p => p.isExpired now)
    simp only [Bool.false_eq_true, if_false]
    omega

/-- New queues are empty and have room. -/
theorem empty_of_made {broadcast unicast lookup : Nat} {q : PacketQueues}
    (hmade : ofCapacities? broadcast unicast lookup = some q)
    (positive : 0 < broadcast ∧ 0 < unicast ∧ 0 < lookup) :
    (∀ l, q.lane l = []) ∧ ∀ kind, 0 < q.capacity kind := by
  unfold ofCapacities? at hmade
  split at hmade
  · obtain rfl := Option.some.inj hmade
    refine ⟨fun l => by cases l <;> rfl, fun kind => ?_⟩
    cases kind with
    | broadcast => exact positive.1
    | unicast => exact positive.2.1
    | lookup => exact positive.2.2
  · exact absurd hmade (by simp)

/-- After every row of operations on empty queues, each with room for some parcels: a queue holds
exactly the latest of the parcels that were put into it since it was last emptied, as many as it
has room for and in that order. A parcel more goes to the end of its queue, which gives up its
oldest exactly if that is said. A flush empties the selected queues and no other; what it hands out
is, queue by queue and in order, what has not expired, and nothing of what is thrown away; and the
parcels that it takes out are all accounted for. The numbers of parcels that are told are those
that the queues hold. -/
theorem holds_latest {broadcast unicast lookup : Nat} {q₀ : PacketQueues}
    (hmade : ofCapacities? broadcast unicast lookup = some q₀)
    (positive : 0 < broadcast ∧ 0 < unicast ∧ 0 < lookup) (ops : List Operation) :
    let q := q₀.after ops
    let held (l : Lane) := (put l ops).rtake (q₀.capacity l.kind)
    let count (ls : List Lane) :=
      (ls.map fun l => min (q₀.capacity l.kind) (put l ops).length).sum
    (∀ l, q.lane l = held l) ∧
    (∀ kind a p,
      let target := ofKind kind a
      let r := q.enqueue kind a p
      (r.1 = true → ∃ oldest rest,
        q.lane target = oldest :: rest ∧ r.2.lane target = rest ++ [p]) ∧
      (r.1 = false → r.2.lane target = q.lane target ++ [p]) ∧
      ∀ l, l ≠ target → r.2.lane l = q.lane l) ∧
    q.lanes.Nodup ∧ (∀ l, held l ≠ [] → l ∈ q.lanes) ∧
    (∀ kind a purge now,
      let drained := q.lanes.filter (selected kind a)
      let r := q.flush kind a purge now
      (∀ l, r.2.lane l = if selected kind a l then [] else q.lane l) ∧
      r.1.ready = (if purge then [] else
        drained.flatMap fun l => (held l).filter fun p => !p.isExpired now) ∧
      r.1.ready.length + r.1.expired + r.1.purged = count drained ∧
      r.1.purged = (if purge then count drained else 0) ∧
      q.length kind a = count drained) ∧
    q.clear.1 = count q.lanes ∧ ∀ l, q.clear.2.lane l = [] := by
  intro q held count
  obtain ⟨hempty, hroom⟩ := empty_of_made hmade positive
  obtain ⟨hcapacity, hlane⟩ := lane_after hempty hroom ops
  have hcount (ls : List Lane) : (ls.map fun l => (q.lane l).length).sum = count ls := by
    refine congrArg List.sum (List.map_congr_left fun l _ => ?_)
    rw [hlane, length_rtake]
  have hselect (kind : QueueKind) (a : Option Address) :
      (q.select kind a).length = count (q.lanes.filter (selected kind a)) :=
    (q.length_eq kind a).trans (hcount _)
  refine ⟨hlane, ?_, q.nodup_lanes, ?_, ?_, ?_, q.lane_clear⟩
  · intro kind a p
    have hpositive : 0 < q.capacity kind := hcapacity kind ▸ hroom kind
    obtain ⟨hfull, hrest⟩ := q.enqueue_evicts hpositive a p
    refine ⟨hfull, hrest, fun l hl => ?_⟩
    exact (q.lane_enqueue kind a p l).trans (if_neg hl)
  · intro l hl
    exact q.mem_lanes ((hlane l).symm ▸ hl)
  · intro kind a purge now
    refine ⟨q.lane_drop kind a, ?_, ?_, ?_, hselect kind a⟩
    · -- what is drained is what the queues hold, one after the other
      show (Flushed.ofDrained (q.select kind a) purge now).ready = _
      unfold Flushed.ofDrained
      cases purge with
      | true => rfl
      | false =>
        have hheld : q.lane = held := funext hlane
        show (q.select kind a).filter _ = _
        rw [select_eq, List.filter_flatMap, hheld]
        rfl
    · rw [← hselect]
      exact ready_add_expired_add_purged (q.select kind a) purge now
    · rw [← hselect]
      cases purge <;> rfl
  · rw [← hcount]
    exact q.total_eq

/-- Two broadcast parcels push out a third, one station's parcel is taken out and another's stays,
which then comes out alone, for it has not expired. -/
theorem holds_latest_of_full :
    let parcel (n : UInt8) : Parcel := { frame := [n], lifetime := 1000 }
    let near : Address := { kind := 1 }
    let far : Address := { kind := 2 }
    let ops : List Operation := [
      .enqueue .broadcast near (parcel 1), .enqueue .unicast near (parcel 2),
      .enqueue .broadcast far (parcel 3), .enqueue .unicast far (parcel 4),
      .enqueue .broadcast near (parcel 5), .flush .unicast (some near) false 0]
    ∃ q₀, ofCapacities? 2 1 1 = some q₀ ∧
      (q₀.after ops).lane .broadcast = [parcel 3, parcel 5] ∧
      (q₀.after ops).lane (.unicast near) = [] ∧
      ((q₀.after ops).flush .unicast none false 999).1.ready = [parcel 4] ∧
      (q₀.after ops).clear.1 = 3 := by
  intro parcel near far ops
  obtain ⟨q₀, hmade⟩ : ∃ q₀, ofCapacities? 2 1 1 = some q₀ := ⟨_, rfl⟩
  obtain ⟨hlane, -, -, -, hflush, hclear, -⟩ := holds_latest hmade (by decide) ops
  obtain ⟨-, hready, -⟩ := hflush .unicast none false 999
  obtain rfl := Option.some.inj hmade
  refine ⟨_, rfl, ?_, ?_, ?_, ?_⟩
  · rw [hlane]
    decide
  · rw [hlane]
    decide
  · rw [hready]
    decide
  · rw [hclear]
    decide

end PacketQueues

end Geocast
