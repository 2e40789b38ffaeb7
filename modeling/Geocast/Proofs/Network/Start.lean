import Geocast.Proofs.Network.Seeker
import Geocast.Proofs.Router.Waiting

/-!
# Two stations at the start

A router that was made and started knows nobody and keeps nothing (`Started.blank`). So it is ready
to be sought (`Blank.host`). What it is asked to send to a station it keeps (`Blank.poised`), and
asks for the place of that one as soon as timers act (`Poised.settle`).
-/

namespace Geocast.Router

variable {α : Type} [Scalar α]

/-- A router that was made and started, and has heard nothing and was asked for nothing since; its
timers may have acted. -/
inductive Started : Router α → Prop
  | start {geometry : Geometry α} {config : Config α} {base : Timestamp} {position : Nat → Fix}
      {jitter : Nat → Nat} {r : Router α} :
      make geometry config base position jitter = .ok r → Started r.start.2
  | settle {r : Router α} : Started r → Started r.settle

/-- A running router that knows nobody and keeps nothing, and at most announced itself. -/
structure Blank (r : Router α) : Prop where
  idle : r.Idle
  valid : Valid r.config
  own : r.table.own = r.config.address
  stations : r.table.stations = .empty
  lookups : r.lookups = {}
  waiting : r.queues.lookup = .empty
  room : r.queues.lookupCapacity = r.config.lookupCapacity
  untold : r.completions = []
  sequence : r.sequence = {}
  beacons : ∀ e ∈ r.emissions, ∀ peer payload, Signal.beacon.Rides r peer payload e.frame

omit [Scalar α] in
theorem Blank.unasking {r : Router α} (h : r.Blank) (c : Address) :
    r.lookups.inFlight.get? c = none := by
  rw [h.lookups]
  rfl

omit [Scalar α] in
/-- Without lookups, timers only announce the station. -/
theorem Blank.settle_eq {r : Router α} (h : r.Blank) : r.settle = r.fireBeacon := by
  rw [h.idle.settle_eq, h.lookups]
  rfl

theorem Started.blank {r : Router α} (h : Started r) : Blank r := by
  induction h with
  | start hmade =>
    obtain ⟨hfault, rfl⟩ := eq_of_make hmade
    exact {
      idle := ⟨rfl, rfl, rfl, rfl, by
        show 0 < 0 + max _ 1 * 1000
        omega, .empty⟩
      valid := of_fault?_eq_none hfault
      own := rfl
      stations := rfl
      lookups := rfl
      waiting := rfl
      room := rfl
      untold := rfl
      sequence := rfl
      beacons := fun e he => nomatch he }
  -- when timers act, at most a beacon goes out
  | @settle r _ ih =>
    obtain ⟨beacons, stats, due, round, hbeacons, heq⟩ := fireBeacon_eq ih.idle.running
    rw [ih.settle_eq, heq]
    exact {
      idle := ⟨ih.idle.running, ih.idle.contention, ih.idle.broadcast, ih.idle.unicast,
        ih.idle.sweep, ih.idle.tended⟩
      valid := ih.valid
      own := ih.own
      stations := ih.stations
      lookups := ih.lookups
      waiting := ih.waiting
      room := ih.room
      untold := ih.untold
      sequence := ih.sequence
      beacons := by
        intro e he peer payload
        refine Signal.Rides.of_stays (s := r) (by constructor <;> rfl) ?_
        rcases List.mem_append.mp he with hold | hnew
        · exact ih.beacons e hold peer payload
        · exact hbeacons e hnew ▸ beaconPacket_rides r peer payload }

namespace Blank

variable {a : Router α} {peer : LongPosition}

omit [Scalar α] in
/-- Of nobody is anything known or remembered. -/
theorem expects (h : a.Blank) (v : LongPosition) : a.table.Expects v where
  entry := by
    rw [h.stations]
    exact fun e he => nomatch he
  alone := by
    rw [h.stations]
    exact fun b _ => rfl

omit [Scalar α] in
theorem remembered (h : a.Blank) (c : Address) : a.remembered c = {} := by
  unfold Router.remembered LocationTable.find?
  rw [h.stations]
  rfl

omit [Scalar α] in
/-- A station at the start has heard nothing of the one that seeks it. -/
theorem host (h : a.Blank) (v : LongPosition) : Host a v [] a where
  idle := h.idle
  stays := .refl a
  own := h.own
  unasking := h.unasking
  expects := h.expects v
  numbers := by
    rw [h.remembered]
    rfl
  capacity := by
    rw [h.remembered]
  signals := fun e he => ⟨.beacon, .inl rfl, h.beacons e he v []⟩

end Blank

/-! ## The beginning of a search -/

variable {a r : Router α} {peer : LongPosition} {target : Address}

/-- It keeps what it was asked to send, and has not asked for the place of the other station yet. -/
structure Poised (a : Router α) (peer : LongPosition) (payload : Bytes) (handle : Nat)
    (r : Router α) : Prop extends Facing a peer r where
  pristine : r.remembered peer.address = {}
  second : r.sequence = ⟨1⟩
  sent : r.emissions = a.emissions
  lookup : ∃ l, r.lookups.inFlight.get? peer.address = some l ∧ l.requests = 0 ∧
    l.waiters = [handle] ∧ r.lookups.loops = [⟨l.key, r.now⟩]
  others : ∀ c, c ≠ peer.address → r.lookups.inFlight.get? c = none
  kept : ∃ x, r.queues.queue .lookup peer.address = [x] ∧ Letter a peer payload x r.now
  rest : ∀ c, c ≠ peer.address → r.queues.queue .lookup c = []
  untold : r.completions = []

/-- The lookup that a transmission begins, once it waits for it. -/
def opening (r : Router α) (target : Address) : Lookup :=
  { r.fresh target with waiters := [r.handles] }

omit [Scalar α] in
/-- A packet for a station that nobody asks for yet begins the search. -/
theorem await_eq (r : Router α) (p : Parcel) (h : r.lookups.isPending target = false) :
    ∃ issued evicted stats, r.await target p = (some r.handles, { r with
      sequence := r.sequence.next
      queues := (r.queues.enqueue .lookup target p).2
      table := (r.table.insertPending target r.clock).2
      lookups := { r.lookups with
        inFlight := (r.lookups.inFlight.insert target (r.fresh target)).insert
          target (r.opening target)
        started := r.lookups.started + 1
        loops := r.lookups.loops ++ [⟨(r.fresh target).key, r.now⟩] }
      handles := r.handles + 1
      issued, evicted, stats }) := by
  unfold await
  rw [openLookup_idle ((r.useSequence (some p.origin)).enqueue .lookup target p) target h,
    subscribe_eq _ (AddressMap.get?_insert_self _ _ _)]
  exact ⟨_, _, _, rfl⟩

omit [Scalar α] in
/-- What waits for the place of a station is a letter of the one that sends it. -/
theorem unresolvedParcel_letter (hfirst : a.sequence = {}) (q : Request)
    (small : (a.draft q).payload.length ≤ Packet.maxPayload)
    (hlifetime : 0 < (a.draft q).lifetime.millis) (peer : LongPosition) :
    Letter a peer q.payload (a.unresolvedParcel (a.draft q) small peer.address) a.now where
  good := by
    show decide ((a.draft q).lifetime.millis ≤ a.now - a.now) = false
    exact decide_eq_false (by omega)
  packet := ⟨a.unresolvedPacket (a.draft q) small peer.address,
    Packet.decode_encode (unresolvedPacket_sendable a (a.draft q) small peer.address),
    (unresolvedPacket_drafted a (maxHops_draft a q) small peer.address).toOwn, rfl,
    hfirst ▸ rfl, rfl⟩

omit [Scalar α] in
/-- The loop of a lookup that has not asked yet asks now. -/
theorem continueLookup_asks (h : r.lookups.Tended) (hretries : 1 ≤ r.config.maxRequests)
    {l : Lookup} (hl : r.lookups.inFlight.get? target = some l) (hnew : l.requests = 0) :
    ∃ e issued stats, e.frame = (r.requestPacket target).encode ∧
      r.continueLookup l.key = { r with
        lookups := { r.lookups with
          inFlight := r.lookups.inFlight.insert target { l with requests := 1 }
          loops := (r.lookups.sleep l.key (r.now + r.config.retransmitMillis)).loops }
        emissions := r.emissions ++ [e]
        sequence := r.sequence.next
        issued, stats } := by
  have hflying := h.flying_of_get? hl
  have hnext : r.nextOf l = some { l with requests := 1 } := by
    have hmore : l.requests < r.config.maxRequests := by omega
    unfold nextOf
    rw [if_pos hmore, hnew]
  rcases r.continueLookup_cases h l.key with ⟨hnone, _⟩ | ⟨l', hl', hcases⟩
  · exact nomatch hnone.symm.trans hflying
  · obtain rfl := Option.some.inj (hl'.symm.trans hflying)
    rw [show l'.key.target = target from h.named target l' hl] at hcases
    rcases hcases with ⟨l'', hnext', heq⟩ | ⟨hlast, _⟩
    · obtain rfl := Option.some.inj (hnext'.symm.trans hnext)
      exact ⟨_, _, _, rfl, heq⟩
    · exact nomatch hlast.symm.trans hnext

omit [Scalar α] in
/-- The first request of a search goes out as soon as timers act. -/
theorem settle_asks (h : r.Idle) (hretries : 1 ≤ r.config.maxRequests) {l : Lookup}
    (hl : r.lookups.inFlight.get? target = some l) (hnew : l.requests = 0)
    (honly : r.lookups.loops = [⟨l.key, r.now⟩]) :
    ∃ beacons e issued stats beaconDue beaconRound,
      (∀ e ∈ beacons, e.frame = r.beaconPacket.encode) ∧
      e.frame = (r.requestPacket target).encode ∧
      r.settle = { r with
        lookups := { r.lookups with
          inFlight := r.lookups.inFlight.insert target { l with requests := 1 }
          loops := [⟨l.key, r.now + r.config.retransmitMillis⟩] }
        emissions := r.emissions ++ beacons ++ [e]
        sequence := r.sequence.next
        issued, stats, beaconDue, beaconRound } := by
  -- the loop of the new lookup is the only one, and its time has come at once
  have hwoken : r.lookups.woken r.now = [l.key] := by
    have hwakes : r.lookups.wakes r.now ⟨l.key, r.now⟩ = true :=
      Bool.or_eq_true_iff.mpr (.inl (decide_eq_true (Nat.le_refl _)))
    unfold LookupService.woken
    rw [honly, List.filter_singleton, hwakes]
    rfl
  have hasleep (due : Nat) : (r.lookups.sleep l.key due).loops = [⟨l.key, due⟩] := by
    unfold LookupService.sleep
    rw [honly, List.map_singleton, if_pos rfl]
  obtain ⟨beacons, stats, beaconDue, beaconRound, hbeacons, heq⟩ := fireBeacon_eq h.running
  have hfired : r.fireBeacon.config = r.config ∧ r.fireBeacon.lookups = r.lookups := by
    rw [heq]
    exact ⟨rfl, rfl⟩
  obtain ⟨e, issued, stats', hframe, hasked⟩ := continueLookup_asks (r := r.fireBeacon)
    (hfired.2 ▸ h.tended) (hfired.1 ▸ hretries) (hfired.2 ▸ hl) hnew
  rw [h.settle_eq, hwoken, List.foldl_cons, List.foldl_nil, hasked, heq, ← hasleep]
  rw [heq] at hframe
  exact ⟨beacons, e, issued, stats', beaconDue, beaconRound, hbeacons, hframe, rfl⟩

/-- What is to be sent to a station of which nothing is known waits for its place. -/
theorem transmit_unknown {q : Request} (hrunning : r.phase = .running)
    (hstation : q.destination = .station target)
    (small : (r.draft q).payload.length ≤ Packet.maxPayload)
    (hunknown : r.table.findPosition? target r.clock = none) :
    r.transmit q =
      (.ok (.queued (r.await target (r.unresolvedParcel (r.draft q) small target)).1),
        (r.await target (r.unresolvedParcel (r.draft q) small target)).2) := by
  have hserves : r.refusal? = none := (running_iff r).mpr hrunning
  unfold transmit
  rw [hserves]
  dsimp only
  rw [dif_pos small, hstation]
  exact transmitStation_unknown r _ small hserves hunknown

omit [Scalar α] in
/-- The first request of a station has its second number. -/
theorem requestPacket_rides (hsecond : r.sequence = ⟨1⟩) (peer : LongPosition) (payload : Bytes) :
    Signal.request.Rides r peer payload (r.requestPacket peer.address).encode :=
  ⟨_, rfl, requestPacket_sendable r peer.address, originate_own r rfl _ _ _ _ rfl id, by
    show Extended.locationRequest ⟨r.sequence, r.localPosition, peer.address⟩ = _
    rw [hsecond]⟩

omit [Scalar α] in
/-- In its table there is nothing but the placeholder of a station that it asks for. -/
theorem Blank.placeholder (h : a.Blank) {c : Address} {e : Entry}
    (he : (a.table.insertPending target a.clock).2.stations.get? c = some e) :
    c = target ∧ e = .placeholder target a.clock := by
  rcases LocationTable.insertPending_get? he with hold | ⟨hc, _, he⟩
  · rw [h.stations] at hold
    exact nomatch hold
  · exact ⟨hc, he⟩

omit [Scalar α] in
/-- What it keeps for that station is all that waits. -/
theorem Blank.queue (h : a.Blank) (target c : Address) (x : Parcel) :
    (a.queues.enqueue .lookup target x).2.queue .lookup c = if c = target then [x] else [] := by
  have hempty (c : Address) : a.queues.queue .lookup c = [] := by
    show (a.queues.lookup.get? c).getD [] = []
    rw [h.waiting]
    rfl
  have hroom : ¬ a.queues.lookupCapacity ≤ 0 := Nat.not_le.mpr (h.room ▸ h.valid.lookup)
  rw [queue_enqueue, hempty, hempty]
  unfold PacketQueues.push
  rw [List.length_nil, if_neg hroom, List.nil_append]

/-- A station at the start keeps what it is asked to send to another one. -/
theorem Blank.poised (h : a.Blank) (peer : LongPosition) {q : Request}
    (hstation : q.destination = .station peer.address)
    (hsize : q.payload.length ≤ Packet.maxPayload) (hlifetime : 0 < (a.draft q).lifetime.millis) :
    (a.transmit q).1 = .ok (.queued (some a.handles)) ∧
      Poised a peer q.payload a.handles (a.transmit q).2 := by
  have hunknown : a.table.findPosition? peer.address a.clock = none := by
    unfold LocationTable.findPosition? LocationTable.find?
    rw [h.stations]
    rfl
  have hidle : a.lookups.isPending peer.address = false := by
    unfold LookupService.isPending
    rw [h.lookups]
    rfl
  generalize hx : a.unresolvedParcel (a.draft q) hsize peer.address = x
  have hletter : Letter a peer q.payload x a.now :=
    hx ▸ unresolvedParcel_letter h.sequence q hsize hlifetime peer
  obtain ⟨_, _, _, hawait⟩ := await_eq a x hidle
  have hhandle : (a.await peer.address x).1 = some a.handles := congrArg Prod.fst hawait
  have hs := congrArg Prod.snd hawait
  have htended := await_tended h.idle.tended peer.address x
  rw [transmit_unknown h.idle.running hstation hsize hunknown, hx]
  refine ⟨by rw [hhandle], ?_⟩
  dsimp only at hs ⊢
  -- the state is named, so that only what is said of it here gets unfolded
  generalize (a.await peer.address x).2 = s at hs htended ⊢
  have htable : s.table = (a.table.insertPending peer.address a.clock).2 := hs ▸ rfl
  have hqueues : s.queues = (a.queues.enqueue .lookup peer.address x).2 := hs ▸ rfl
  have hqueue (c : Address) : s.queues.queue .lookup c = if c = peer.address then [x] else [] :=
    hqueues ▸ h.queue peer.address c x
  have hentry {c : Address} {e : Entry} (he : s.table.stations.get? c = some e) :
      c = peer.address ∧ e = .placeholder peer.address a.clock := h.placeholder (htable ▸ he)
  have hinFlight : s.lookups.inFlight = (a.lookups.inFlight.insert peer.address
      (a.fresh peer.address)).insert peer.address (a.opening peer.address) :=
    hs ▸ rfl
  have hloops : s.lookups.loops = a.lookups.loops ++ [⟨(a.fresh peer.address).key, a.now⟩] :=
    hs ▸ rfl
  rw [h.lookups] at hloops
  have hnow : s.now = a.now := hs ▸ rfl
  exact {
    idle := by
      subst hs
      exact ⟨h.idle.running, h.idle.contention, h.idle.broadcast, h.idle.unicast, h.idle.sweep,
        htended⟩
    stays := by
      subst hs
      exact ⟨rfl, rfl, rfl, rfl, rfl, LocationTable.insertPending_lifetime _ _ _⟩
    own := by
      have hconfig : s.config = a.config := hs ▸ rfl
      rw [htable, LocationTable.insertPending_own, h.own, hconfig]
    expects := by
      refine ⟨fun e he => .inl ?_, fun c hc => ?_⟩
      · rw [(hentry he).2]
        rfl
      · rw [Option.eq_none_iff_forall_ne_some]
        exact fun e he => hc (hentry he).1
    pristine := by
      unfold Router.remembered
      cases hfind : s.table.find? peer.address s.clock with
      | none => rfl
      | some e =>
        rw [(hentry ((LocationTable.find?_eq_some_iff _ _ _ _).mp hfind).1).2]
        rfl
    second := by
      subst hs
      exact congrArg SequenceNumber.next h.sequence
    sent := hs ▸ rfl
    lookup := ⟨a.opening peer.address, hinFlight ▸ AddressMap.get?_insert_self _ _ _, rfl, rfl,
      hnow ▸ hloops⟩
    others := by
      intro c hc
      rw [hinFlight, AddressMap.get?_insert_of_ne _ _ hc, AddressMap.get?_insert_of_ne _ _ hc,
        h.lookups]
      rfl
    kept := ⟨x, (hqueue _).trans (if_pos rfl), hnow ▸ hletter⟩
    rest := fun c hc => (hqueue c).trans (if_neg hc)
    untold := by
      subst hs
      exact h.untold }

/-- As soon as timers act, it asks. -/
theorem Poised.settle {payload : Bytes} {handle : Nat} (h : Poised a peer payload handle r)
    (hblank : a.Blank) (hretries : 1 ≤ a.config.maxRequests) :
    ∃ script, Seeking a peer payload handle script r.settle := by
  obtain ⟨l, hl, hnew, hwaiters, honly⟩ := h.lookup
  obtain ⟨beacons, e, _, _, _, _, hbeacons, hframe, hsettle⟩ :=
    settle_asks h.idle (h.stays.config ▸ hretries) hl hnew honly
  have htended := (settle_works r).tended h.idle.tended
  -- the announcements first, and then the request
  refine ⟨announcements (a.emissions ++ beacons) ++ [(Signal.request, e)], ?_⟩
  have hcount (s : Signal) (hs : s ≠ .beacon) :
      ((announcements (a.emissions ++ beacons) ++ [(Signal.request, e)]).map Prod.fst).count s =
        if s = .request then 1 else 0 := by
    rw [List.map_append, List.count_append, count_announcements _ hs, List.map_singleton,
      List.count_singleton, Nat.zero_add]
    cases s <;> rfl
  have hpositive := hblank.valid.retransmit
  rw [hsettle] at htended ⊢
  exact {
    toFacing := by apply h.toFacing.of_same <;> first | rfl | exact htended
    sent := by
      rw [List.map_append, snd_announcements, ← h.sent]
      rfl
    rides := by
      intro x hx
      rcases List.mem_append.mp hx with hbeacon | hrequest
      · obtain ⟨v, hv, rfl⟩ := List.mem_map.mp hbeacon
        refine ⟨nofun, ?_⟩
        rcases List.mem_append.mp hv with hold | hlate
        · exact hblank.beacons v hold peer payload
        · exact (hbeacons v hlate ▸ beaconPacket_rides r peer payload).of_stays h.stays
      · obtain rfl := List.mem_singleton.mp hrequest
        exact ⟨nofun, (hframe ▸ requestPacket_rides h.second peer payload).of_stays h.stays⟩
    asked := hcount .request nofun
    lookup := by
      refine ⟨_, AddressMap.get?_insert_self _ _ _, hwaiters, fun due hloop => ?_⟩
      have hdue : due = r.now + r.config.retransmitMillis :=
        congrArg RetryLoop.due (List.mem_singleton.mp hloop)
      show r.now < due
      rw [hdue, h.stays.config]
      omega
    others := fun c hc => (AddressMap.get?_insert_of_ne _ _ hc).trans (h.others c hc)
    kept := h.kept
    rest := h.rest
    untold := h.untold
    unsent := hcount .message nofun
    pristine := h.pristine }

end Geocast.Router
