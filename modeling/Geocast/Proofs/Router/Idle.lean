import Geocast.Proofs.Router.Requests

/-!
# Routers with nothing parked

A router is `Idle` when nothing waits in it but for a lookup and no timer but that of the beacon is
due. As long as no lookup asks, timers do nothing but announce it and end the loops of lookups that
are over (`Idle.settle_announces`), and a packet that it hears directly sets nothing free but what
waited for the station heard (`Idle.accept_eq`).
-/

namespace Geocast.Router

variable {α : Type}

/-- Nothing is parked but for lookups, and the table is not due to be swept. -/
structure Idle (r : Router α) : Prop where
  running : r.phase = .running
  contention : r.contention = {}
  broadcast : r.queues.broadcast = []
  unicast : r.queues.unicast = .empty
  sweep : r.now < r.sweepDue
  tended : r.lookups.Tended

/-- The station is where it was, with its settings and at the same time. -/
structure Stays (r s : Router α) : Prop where
  config : s.config = r.config
  geometry : s.geometry = r.geometry
  base : s.base = r.base
  position : s.position = r.position
  now : s.now = r.now
  lifetime : s.table.lifetime = r.table.lifetime

namespace Stays

variable {r s : Router α}

theorem refl (r : Router α) : Stays r r := by constructor <;> rfl

theorem clock (h : Stays r s) : s.clock = r.clock := by
  unfold Router.clock
  rw [h.base, h.now]

theorem here (h : Stays r s) : s.here = r.here := by
  unfold Router.here fix
  rw [h.position, h.now]

theorem localPosition (h : Stays r s) : s.localPosition = r.localPosition := by
  unfold Router.localPosition fix
  rw [h.position, h.now, h.config]

theorem fresh (h : Stays r s) (stamp : Timestamp) :
    s.table.Fresh stamp s.clock ↔ r.table.Fresh stamp r.clock := by
  rw [h.clock]
  exact LocationTable.fresh_congr h.lifetime stamp r.clock

end Stays

/-- To give up nothing changes nothing. -/
theorem giveUp_nil (r : Router α) (kind : QueueKind) : r.giveUp kind [] = r := by
  show ({ r with expired := r.expired ++ [] } : Router α) = r
  rw [List.append_nil]

/-- The timer of the beacon sends one or none. -/
theorem fireBeacon_eq {r : Router α} (hrunning : r.phase = .running) :
    ∃ beacons stats beaconDue beaconRound,
      (∀ e ∈ beacons, e.frame = r.beaconPacket.encode) ∧ r.fireBeacon =
        { r with emissions := r.emissions ++ beacons, stats, beaconDue, beaconRound } := by
  have hserves : r.refusal? = none := (running_iff r).mpr hrunning
  unfold fireBeacon
  split
  · unfold sendBeacon
    rw [hserves]
    refine ⟨[⟨r.now, .broadcast, r.beaconPacket.encode, .link, r.originNow r.beaconPacket⟩],
      _, _, _, fun e he => ?_, rfl⟩
    rw [List.mem_singleton.mp he]
  · refine ⟨[], r.stats, r.beaconDue, r.beaconRound, nofun, ?_⟩
    rw [List.append_nil]

/-- No lookup has begun or ended, and no loop has begun. -/
structure Rests (s t : LookupService) : Prop where
  inFlight : t.inFlight = s.inFlight
  loops : ∀ loop ∈ t.loops, loop ∈ s.loops
  tended : t.Tended

theorem Rests.trans {s t u : LookupService} (h : Rests s t) (h' : Rests t u) : Rests s u where
  inFlight := h'.inFlight.trans h.inFlight
  loops := fun loop hloop => h.loops loop (h'.loops loop hloop)
  tended := h'.tended

/-- A loop that finds its lookup over ends, and changes nothing else. -/
theorem continueLookup_of_over {r : Router α} (h : r.lookups.Tended) {key : LookupKey}
    (hover : r.lookups.flying? key = none) :
    ∃ lookups, Rests r.lookups lookups ∧ r.continueLookup key = { r with lookups } := by
  have hcomplete := h.isComplete_iff.mpr hover
  have hlookups := LookupService.endLoop_takeNotice hover
  refine ⟨(r.lookups.takeNotice key).endLoop key, ?_, if_pos hcomplete⟩
  exact {
    inFlight := by rw [hlookups]
    loops := by
      rw [hlookups]
      exact fun loop hloop => (List.mem_filter.mp hloop).1
    tended := h.tends (.late hcomplete) }

/-- Loops whose lookups are over end, and that is all that they do. -/
theorem continueLookups_of_over {r : Router α} (h : r.lookups.Tended) {keys : List LookupKey}
    (hover : ∀ key ∈ keys, r.lookups.flying? key = none) :
    ∃ lookups, Rests r.lookups lookups ∧ keys.foldl continueLookup r = { r with lookups } := by
  induction keys generalizing r with
  | nil => exact ⟨r.lookups, ⟨rfl, fun _ => id, h⟩, rfl⟩
  | cons key rest ih =>
    obtain ⟨lookups, hrests, hended⟩ := continueLookup_of_over h (hover key List.mem_cons_self)
    obtain ⟨lookups', hrests', hrest⟩ := ih (r := { r with lookups }) hrests.tended fun k hk => by
      rw [LookupService.flying?_congr (congrArg (·.get? k.target) hrests.inFlight)]
      exact hover k (List.mem_cons_of_mem _ hk)
    exact ⟨lookups', hrests.trans hrests', by rw [List.foldl_cons, hended, hrest]⟩

namespace Idle

variable {r : Router α}

/-- No timer of a contention runs out where none runs. -/
theorem fireContention (h : r.Idle) : r.fireContention = r := by
  unfold Router.fireContention
  rw [h.contention]
  show ({ r with contention := {} } : Router α) = r
  rw [← h.contention]

/-- The sweep waits for its time. -/
theorem fireSweep (h : r.Idle) : r.fireSweep = r := by
  have hnotdue : ¬ r.sweepDue ≤ r.now := Nat.not_le.mpr h.sweep
  unfold Router.fireSweep
  rw [if_neg hnotdue]

/-- Nothing is taken out of an empty queue. -/
theorem broadcast_ready (h : r.Idle) (purge : Bool) :
    r.queues.flush .broadcast none purge r.now = ({}, r.queues) := by
  have hqueues : { r.queues with broadcast := [] } = r.queues := by rw [← h.broadcast]
  unfold PacketQueues.flush PacketQueues.select PacketQueues.drop
  dsimp only
  rw [h.broadcast, hqueues]
  cases purge <;> rfl

/-- So nothing is sent when a neighbour is heard. -/
theorem flushBroadcast (h : r.Idle) : r.flushBroadcast = r := by
  have hlapsed : r.queues.lapsed .broadcast none r.now = [] :=
    congrArg (List.filter _) h.broadcast
  unfold Router.flushBroadcast
  dsimp only
  rw [hlapsed, h.broadcast_ready]
  exact giveUp_nil r .broadcast

/-- And nothing is sent to stations that become known. -/
theorem flushUnicast [Scalar α] (h : r.Idle) : r.flushUnicast = r := by
  have hselect : r.queues.select .unicast none = [] := by
    show r.queues.unicast.values.flatten = []
    rw [h.unicast]
    rfl
  have hqueues : { r.queues with unicast := .empty } = r.queues := by rw [← h.unicast]
  have hlapsed : r.queues.lapsed .unicast none r.now = [] :=
    congrArg (List.filter _) hselect
  unfold Router.flushUnicast PacketQueues.flush PacketQueues.drop
  dsimp only
  rw [hlapsed, hselect, hqueues]
  exact giveUp_nil r .unicast

/-! ## Timers and frames -/

/-- All that timers do is to announce the station and to go on with lookups. -/
theorem settle_eq (h : r.Idle) :
    r.settle = (r.lookups.woken r.now).foldl continueLookup r.fireBeacon := by
  have hdue : r.fireBeacon.lookups = r.lookups ∧ r.fireBeacon.now = r.now := by
    obtain ⟨beacons, stats, due, round, _, heq⟩ := fireBeacon_eq h.running
    rw [heq]
    exact ⟨rfl, rfl⟩
  rw [Router.settle_eq h.running, h.fireContention, h.fireSweep, hdue.1, hdue.2]

/-- As long as every lookup in flight has time left, all that they do is to announce the station,
and to end loops whose lookups are over. -/
theorem settle_announces (h : r.Idle)
    (hlater : ∀ a l, r.lookups.inFlight.get? a = some l →
      ∀ due, ⟨l.key, due⟩ ∈ r.lookups.loops → r.now < due) :
    ∃ beacons stats beaconDue beaconRound lookups,
      (∀ e ∈ beacons, e.frame = r.beaconPacket.encode) ∧ Rests r.lookups lookups ∧ r.settle =
        { r with emissions := r.emissions ++ beacons, stats, beaconDue, beaconRound, lookups } := by
  obtain ⟨beacons, stats, due, round, hbeacons, hfired⟩ := fireBeacon_eq h.running
  -- a loop that wakes up early has been told that its lookup is over
  have hover (key : LookupKey) (hkey : key ∈ r.lookups.woken r.now) :
      r.fireBeacon.lookups.flying? key = none := by
    rw [hfired, Option.eq_none_iff_forall_ne_some]
    intro l hl
    obtain ⟨hget, _⟩ := LookupService.flying?_eq_some_iff.mp hl
    obtain ⟨due', hloop⟩ := h.tended.looped _ l hget
    obtain rfl := h.tended.key_of_flying hl
    have hwoken := (h.tended.mem_woken_of_get? hget hloop r.now).mp hkey
    exact absurd (hlater _ l hget due' hloop) (Nat.not_lt.mpr hwoken)
  have htended : r.fireBeacon.lookups.Tended := by
    rw [hfired]
    exact h.tended
  obtain ⟨lookups, hrests, hended⟩ := continueLookups_of_over htended hover
  rw [h.settle_eq, hended, hfired]
  rw [hfired] at hrests
  exact ⟨beacons, stats, due, round, lookups, hbeacons, hrests, rfl⟩

variable [Scalar α] {a : Arrival}

/-- Of what is held, hearing a packet sets free only what waited for the place of its source. -/
theorem accept_eq (h : (r.resolveLookup a.source.address).Idle) :
    r.accept a = (r.resolveLookup a.source.address).handle a := by
  unfold accept
  dsimp only
  split
  · rw [h.flushBroadcast, h.flushUnicast]
  · rfl

end Idle

variable [Scalar α] {r : Router α} {a : Arrival} {frame : Bytes}

omit [Scalar α] in
/-- What is learnt does not depend on the counters. -/
theorem learn_arrived (r : Router α) (a : Arrival) :
    r.arrived.learn a =
      ((r.learn a).1, { r.arrived with table := (r.learn a).2.table }) := by
  unfold learn
  dsimp only
  split <;> rfl

omit [Scalar α] in
/-- Where no timer runs, none is ended. -/
theorem overhear_of_untimed (h : r.contention = {}) (key : ContentionKey) :
    ∃ stats, r.overhear key = { r with stats } := by
  cases r
  cases h
  exact ⟨_, rfl⟩

/-- A packet that was seen before changes nothing but the table and the counters. -/
theorem receive_seen (h : r.Idle) (hjudge : r.judge frame = .ok a) {n : SequenceNumber}
    (hseen : (r.learn a).1 = some (n, .duplicate)) :
    ∃ stats, r.receive frame = (.drop (.duplicatePacket a.source.address n),
      { r with table := (r.learn a).2.table, stats, arrivals := r.arrivals + 1 }) := by
  have hlearn := learn_arrived r a
  rw [receive_of_judge h.running hjudge]
  rcases process_cases r.arrived a with ⟨m, s, hlearn', hprocess⟩ | ⟨check, s, f, hlearn', hnew, _⟩
  · rw [hlearn] at hlearn'
    obtain ⟨hcheck, rfl⟩ := Prod.mk.inj hlearn'
    obtain rfl : n = m := (Prod.mk.inj (Option.some.inj (hseen.symm.trans hcheck))).1
    obtain ⟨stats, hoverhear⟩ := overhear_of_untimed
      (r := { r.arrived with table := (r.learn a).2.table }) h.contention (a.source.address, n)
    rw [hprocess, hoverhear]
    exact ⟨_, rfl⟩
  · rw [hlearn] at hlearn'
    exact absurd ((Prod.mk.inj hlearn').1.symm.trans hseen) (hnew n)

/-- A packet that was not seen before is accepted by a router that has learnt of its source. -/
theorem receive_new (hrunning : r.phase = .running) (hjudge : r.judge frame = .ok a)
    (hnew : ∀ n, (r.learn a).1 ≠ some (n, .duplicate)) :
    ∃ stats, r.receive frame =
      let m : Router α :=
        { r with table := (r.learn a).2.table, stats, arrivals := r.arrivals + 1 }
      ((m.accept a).1, (m.accept a).2.tally (m.accept a).1) := by
  have hlearn := learn_arrived r a
  rw [receive_of_judge hrunning hjudge]
  rcases process_cases r.arrived a with ⟨n, s, hlearn', _⟩ | ⟨check, s, f, hlearn', _, hprocess⟩
  · rw [hlearn] at hlearn'
    exact absurd (Prod.mk.inj hlearn').1 (hnew n)
  · rw [hlearn] at hlearn'
    obtain ⟨_, rfl⟩ := Prod.mk.inj hlearn'
    rw [hprocess]
    exact ⟨_, rfl⟩

end Geocast.Router
