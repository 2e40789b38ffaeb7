import Geocast.Proofs.Queue.Contents
import Geocast.Proofs.Router.Lookups

/-!
# What counters and records say

The record of a router tells what it did, and its counters should tell how often. `Logged` says that
between two states they have moved along with each other: as many frames were counted as were handed
to the link, as many parcels as gave way in a full queue, and the number of the next packet went on
by one for each that was given out. Each function that forwards packets has one lemma to that effect.
None of them touches what frames that come in, beacons and requests are counted by, or takes a packet
off its timer.
-/

namespace Geocast

/-- What the counters tell of frames that came in. -/
def Stats.reception (s : Stats) : Nat × Nat × Nat × Nat × Nat × Nat :=
  (s.packetsReceived, s.packetsDelivered, s.packetsForwarded, s.duplicates, s.malformed,
    s.contentionsCancelled)

/-- What the counters tell of beacons and requests, by their type. -/
def Stats.signals (s : Stats) : PacketType → Nat
  | .beacon => s.beaconsSent
  | .locationRequest => s.requestsSent
  | _ => 0

namespace PacketQueues

/-- A queue has the room that it was given, whatever is put in. -/
theorem capacity_enqueue (q : PacketQueues) (kind : QueueKind) (a : Address) (p : Parcel) :
    (q.enqueue kind a p).2.capacity = q.capacity := by
  cases kind <;> rfl

/-- It keeps that room when packets are taken out. -/
theorem capacity_drop (q : PacketQueues) (kind : QueueKind) (a : Option Address) :
    (q.drop kind a).capacity = q.capacity := by
  cases kind <;> cases a <;> rfl

end PacketQueues

namespace Router

variable {α : Type}

/-- How many frames are counted as sent beyond those that were. -/
def sentExcess (r : Router α) : Int := r.stats.packetsSent - r.emissions.length

/-- How many parcels are counted as evicted beyond those that were. -/
def evictedExcess (r : Router α) : Int := r.stats.queueOverflows - r.evicted.length

/-- The number of the next packet is how many were given out, as far as it can count. -/
def Counts (r : Router α) : Prop := r.sequence = ⟨UInt16.ofNat r.issued.length⟩

/-- Some numbers were given out, each in its turn. -/
structure Issues (taken : List (Option Origin)) (r s : Router α) : Prop where
  issued : s.issued = r.issued ++ taken
  counts : r.Counts → s.Counts

/-- Counters and record have moved along with each other while some numbers were given out. -/
structure Logged (taken : List (Option Origin)) (r s : Router α) : Prop
    extends Issues taken r s where
  capacity : s.queues.capacity = r.queues.capacity
  reception : s.stats.reception = r.stats.reception
  signals : s.stats.signals = r.stats.signals
  sent : s.sentExcess = r.sentExcess
  evicted : (∀ kind, 0 < r.queues.capacity kind) → s.evictedExcess = r.evictedExcess
  timers : ∀ c ∈ r.contention.contenders, c ∈ s.contention.contenders

/-- Where the counter stays no number was given out. -/
theorem Issues.none {r s : Router α} (hissued : s.issued = r.issued)
    (hsequence : s.sequence = r.sequence) : Issues [] r s where
  issued := hissued.trans (List.append_nil _).symm
  counts := by
    intro h
    unfold Counts
    rw [hsequence, hissued]
    exact h

namespace Logged

variable {r s t : Router α} {taken taken' : List (Option Origin)}

/-- Nothing has changed that is recorded or counted apart. -/
theorem of_same {dropped reordered resolved expired : Nat}
    (hcapacity : s.queues.capacity = r.queues.capacity) (hissued : s.issued = r.issued)
    (hsequence : s.sequence = r.sequence) (hemissions : s.emissions = r.emissions)
    (hevicted : s.evicted = r.evicted) (hcontention : s.contention = r.contention)
    (hstats : s.stats = { r.stats with
      packetsDropped := dropped
      reordered := reordered
      lookupsResolved := resolved
      lookupsExpired := expired }) : Logged [] r s where
  toIssues := .none hissued hsequence
  capacity := hcapacity
  reception := hstats ▸ rfl
  signals := hstats ▸ rfl
  sent := by
    unfold sentExcess
    rw [hemissions, hstats]
  evicted := fun _ => by
    unfold evictedExcess
    rw [hevicted, hstats]
  timers := hcontention ▸ fun _ => id

theorem refl (r : Router α) : Logged [] r r := .of_same rfl rfl rfl rfl rfl rfl rfl

theorem trans (h : Logged taken r s) (h' : Logged taken' s t) : Logged (taken ++ taken') r t where
  capacity := h'.capacity.trans h.capacity
  issued := by rw [h'.issued, h.issued, List.append_assoc]
  counts := h'.counts ∘ h.counts
  reception := h'.reception.trans h.reception
  signals := h'.signals.trans h.signals
  sent := h'.sent.trans h.sent
  evicted := fun hroom => (h'.evicted (h.capacity ▸ hroom)).trans (h.evicted hroom)
  timers := fun c hc => h'.timers c (h.timers c hc)

/-- What gives out no number adds none. -/
theorem then_nothing (h : Logged taken r s) (h' : Logged [] s t) : Logged taken r t :=
  List.append_nil taken ▸ h.trans h'

end Logged

/-! ## Sending and parking -/

/-- A number is given out with a packet to bear it, or without one. -/
theorem useSequence_logged (r : Router α) (taker : Option Origin) :
    Logged [taker] r (r.useSequence taker) where
  capacity := rfl
  issued := rfl
  counts := fun h => by
    show r.sequence.next = ⟨UInt16.ofNat (r.issued ++ [taker]).length⟩
    rw [h, List.length_append, List.length_singleton]
    exact congrArg SequenceNumber.mk (UInt16.ofNat_add _ 1).symm
  reception := rfl
  signals := rfl
  sent := rfl
  evicted := fun _ => rfl
  timers := fun _ => id

/-- A packet that is numbered bears the next number. -/
theorem number_logged (r : Router α) (p : Packet) :
    Logged [some (r.originNow p)] r (r.number p) :=
  useSequence_logged r _

/-- A frame is counted as sent when it is. -/
theorem emit_logged (r : Router α) (target : LinkTarget) (frame : Bytes) (outlet : Outlet)
    (origin : Origin) : Logged [] r (r.emit target frame outlet origin) where
  capacity := rfl
  issued := (List.append_nil _).symm
  counts := id
  reception := rfl
  signals := rfl
  sent := by
    unfold sentExcess emit
    dsimp only
    rw [List.length_append, List.length_singleton]
    omega
  evicted := fun _ => rfl
  timers := fun _ => id

theorem emitParcels_logged (r : Router α) (parcels : List Parcel) :
    Logged [] r (r.emitParcels parcels) := by
  induction parcels generalizing r with
  | nil => exact .refl r
  | cons p rest ih => exact (emit_logged r .broadcast p.frame p.outlet p.origin).trans (ih _)

/-- What falls out of a full queue is recorded and counted, in every queue that has room at all. -/
theorem enqueue_logged (r : Router α) (kind : QueueKind) (a : Address) (p : Parcel) :
    Logged [] r (r.enqueue kind a p) where
  capacity := PacketQueues.capacity_enqueue _ _ _ _
  issued := (List.append_nil _).symm
  counts := id
  reception := rfl
  signals := rfl
  sent := rfl
  evicted := fun hroom => by
    have hoverflow := PacketQueues.length_overflow (q := r.queues) a p (hroom kind)
    unfold evictedExcess enqueue count
    dsimp only
    rw [List.length_append, List.length_map, hoverflow]
    split <;> omega
  timers := fun _ => id

/-- Parcels that waited too long are no packets pushed out. -/
theorem giveUp_logged (r : Router α) (kind : QueueKind) (parcels : List Parcel) :
    Logged [] r (r.giveUp kind parcels) :=
  .of_same rfl rfl rfl rfl rfl rfl rfl

/-- A packet that is dispatched is counted where it is sent, or where it pushes another out. -/
theorem dispatch_logged (r : Router α) (decision : Decision) (o : Outgoing) :
    Logged [] r (r.dispatch decision o).2 := by
  obtain ⟨_, hgone⟩ := exists_dispatched r decision o
  generalize r.dispatch decision o = done at hgone ⊢
  cases hgone with
  | sent target => exact emit_logged r target o.frame o.outlet o.origin
  | parked _ _ => exact enqueue_logged r _ _ _
  | kept => exact enqueue_logged r _ _ _
  | @deferred timeout _ _ _ hfree =>
    have hperm := ContentionQueue.schedule_perm hfree (o.toParcel r.now) timeout r.now
    exact {
      capacity := rfl
      issued := (List.append_nil _).symm
      counts := id
      reception := rfl
      signals := rfl
      sent := rfl
      evicted := fun _ => rfl
      timers := fun c hc => hperm.mem_iff.mpr (List.mem_cons_of_mem _ hc) }
  | refused _ _ _ => exact .refl r
  | discarded _ => exact .refl r

/-- A packet gets a number and goes on its way. -/
theorem number_dispatch_logged (r : Router α) (p : Packet) (decision : Decision) (o : Outgoing) :
    Logged [some (r.originNow p)] r ((r.number p).dispatch decision o).2 :=
  (number_logged r p).then_nothing (dispatch_logged _ _ _)

/-! ## Taking out -/

theorem drop_logged (r : Router α) (kind : QueueKind) (a : Option Address) :
    Logged [] r { r with queues := r.queues.drop kind a } :=
  .of_same (PacketQueues.capacity_drop _ _ _) rfl rfl rfl rfl rfl rfl

/-- No number is given out when the queue for neighbours empties. -/
theorem flushBroadcast_logged (r : Router α) : Logged [] r r.flushBroadcast :=
  ((drop_logged r .broadcast none).trans (emitParcels_logged _ _)).trans (giveUp_logged _ _ _)

variable [Scalar α]

theorem releaseOrDrop_logged (r : Router α) (kind : QueueKind) (parcel : Parcel) :
    Logged [] r (r.releaseOrDrop kind parcel) := by
  have hnoted (decision : Decision) (frame : Bytes) :
      Logged [] r (r.noteRelease kind parcel decision frame) :=
    .of_same rfl rfl rfl rfl rfl rfl rfl
  have hone : Logged [] r (r.releaseOne kind parcel).2 := by
    unfold releaseOne
    split
    · exact .refl r
    · split
      · exact (hnoted _ _).trans (dispatch_logged _ _ _)
      · exact .refl r
  unfold releaseOrDrop
  split
  · next heq =>
    rw [heq] at hone
    exact hone.trans (.of_same rfl rfl rfl rfl rfl rfl rfl)
  · next heq =>
    rw [heq] at hone
    exact hone

/-- Nor when parcels are forwarded anew, which have their numbers. -/
theorem release_logged (r : Router α) (kind : QueueKind) (parcels : List Parcel) :
    Logged [] r (r.release kind parcels) := by
  induction parcels generalizing r with
  | nil => exact .refl r
  | cons p rest ih => exact (releaseOrDrop_logged r kind p).trans (ih _)

/-- Nor for those that waited for a way. -/
theorem flushUnicast_logged (r : Router α) : Logged [] r r.flushUnicast :=
  ((drop_logged r .unicast none).trans (giveUp_logged _ _ _)).trans (release_logged _ _ _)

/-! ## Lookups -/

/-- Nor at either end of a lookup. -/
theorem resolveLookup_logged (r : Router α) (target : Address) :
    Logged [] r (r.resolveLookup target) := by
  cases hl : r.lookups.inFlight.get? target with
  | none =>
    rw [resolveLookup_idle hl]
    exact .refl r
  | some l =>
    have hended : Logged [] r (r.resolving target l) :=
      .of_same (PacketQueues.capacity_drop _ _ _) rfl rfl rfl rfl rfl rfl
    rw [resolveLookup_eq hl]
    exact hended.trans (release_logged _ _ _)

omit [Scalar α] in
theorem expireLookup_logged (r : Router α) (target : Address) :
    Logged [] r (r.expireLookup target) := by
  unfold expireLookup
  split
  · exact .refl r
  · exact .of_same (PacketQueues.capacity_drop _ _ _) rfl rfl rfl rfl rfl rfl

omit [Scalar α] in
/-- A packet that is to wait for the place of a station gets a number, and waits. -/
theorem await_logged (r : Router α) (target : Address) (p : Parcel) :
    Logged [some p.origin] r (r.await target p).2 := by
  have hparked : Logged [some p.origin] r
      ((r.useSequence (some p.origin)).enqueue .lookup target p) :=
    (useSequence_logged r _).then_nothing (enqueue_logged _ _ _ _)
  have hbegun := hparked.then_nothing (t :=
    ((r.useSequence (some p.origin)).enqueue .lookup target p).openLookup target) (by
      unfold openLookup
      split
      · exact .refl _
      · exact .of_same rfl rfl rfl rfl rfl rfl rfl)
  refine hbegun.then_nothing ?_
  unfold await subscribe
  split
  · exact .refl _
  · exact .of_same rfl rfl rfl rfl rfl rfl rfl

end Router

end Geocast
