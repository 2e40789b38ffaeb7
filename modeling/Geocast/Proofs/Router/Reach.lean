import Geocast.Proofs.Forwarding.Greedy
import Geocast.Proofs.Router.Filed
import Geocast.Proofs.Router.Resolution
import Geocast.Proofs.Router.Stations

/-!
# Packets for a station in reach

A packet for a station that the router itself hears should go out at once. It does, whether it is
sent, relayed or comes out of a queue, but for one kind of packet: one whose class lets it wait,
where no neighbour, the station itself included, is strictly nearer to where the packet says that
the station is. Then it is parked (`neighbor_reached`). Where the packet says what the table says,
that happens only at the very place of the station.
-/

namespace Geocast

variable {α : Type} [Scalar α]

/-- Distances to any place are in one total order, none is less than zero, and zero is the distance
exactly between a place and itself. -/
structure Geometry.Measures (g : Geometry α) : Prop where
  ranks : ∀ goal, Scalar.Ranks fun p => g.distance p goal
  nonneg : ∀ p q, Scalar.lt (g.distance p q) Scalar.zero = false
  zero_iff : ∀ p q, g.distance p q = Scalar.zero ↔ p = q

/-- No other place is as near to a place as that place itself. -/
theorem Geometry.Measures.nearer {g : Geometry α} (h : g.Measures) {p goal : Point}
    (hne : p ≠ goal) : Scalar.lt (g.distance goal goal) (g.distance p goal) = true := by
  have hranks := h.ranks goal
  have hzero := (h.zero_iff goal goal).mpr rfl
  have hnot : Scalar.before (g.distance p goal) (g.distance goal goal) = false := by
    rw [← hranks.agree p goal, hzero]
    exact h.nonneg p goal
  rw [hranks.agree goal p]
  cases hbefore : Scalar.before (g.distance goal goal) (g.distance p goal) with
  | true => rfl
  | false =>
    -- else both would be at no distance
    have hsame := hranks.total goal p hbefore hnot
    exact absurd ((h.zero_iff p goal).mp (hsame.symm.trans hzero)) hne

/-- Distances on the grid are of this kind. -/
theorem gridGeometry_measures : gridGeometry.Measures where
  ranks := fun goal => Scalar.ranks_rat fun p => gridGeometry.distance p goal
  nonneg := fun p q => decide_eq_false (not_lt.mpr Rat.natCast_nonneg)
  zero_iff := by
    intro p q
    show ((_ : Nat) : ℚ) = ((0 : Nat) : ℚ) ↔ p = q
    rw [Rat.natCast_inj]
    constructor
    · intro hzero
      have hlatitude : p.latitude = q.latitude := Int32.toInt_inj.mp (by omega)
      have hlongitude : p.longitude = q.longitude := Int32.toInt_inj.mp (by omega)
      cases p
      cases q
      exact congr (congrArg Point.mk hlatitude) hlongitude
    · rintro rfl
      omega

namespace Router

/-! ## What is decided -/

omit [Scalar α] in
/-- A station is known from an entry as a neighbour whose place is known. -/
structure Meets (r : Router α) (a : Address) (e : Entry) : Prop where
  stored : r.table.stations.get? a = some e
  live : r.table.Fresh e.position.timestamp r.clock
  placed : e.pending = false
  neighbor : e.neighbor = true

/-- A packet on its way to some place stalls: its class lets it wait, and no neighbour is strictly
nearer to the place than the router. -/
def Stalls (r : Router α) (c : TrafficClass) (goal : Point) : Prop :=
  c.storeCarryForward = true ∧ ∀ a e, r.Meets a e →
    Scalar.lt (r.geometry.distance e.position.point goal) (r.geometry.distance r.here goal) = false

variable {m n r s t : Router α} {a : Address} {c : TrafficClass} {e : Entry} {goal : Point}

omit [Scalar α] in
/-- The neighbours that are on offer are the stations that are met. -/
theorem offers_iff_meets (r : Router α) (here : Point) (sender : Option Point) (c : TrafficClass)
    (e : Entry) : (r.surroundings here sender c).Offers e ↔ ∃ a, r.Meets a e := by
  constructor
  · rintro ⟨⟨a, hstored⟩, hlive, hplaced, hneighbor⟩
    exact ⟨a, hstored, hlive, hplaced, hneighbor⟩
  · rintro ⟨a, hstored, hlive, hplaced, hneighbor⟩
    exact ⟨⟨a, hstored⟩, hlive, hplaced, hneighbor⟩

/-- A packet stalls when none of those on offer makes progress. -/
theorem stalls_iff (r : Router α) (sender : Option Point) (c : TrafficClass) (goal : Point) :
    r.Stalls c goal ↔ c.storeCarryForward = true ∧
      ¬∃ e, (r.surroundings r.here sender c).Offers e ∧
        r.forwarder.Advances (r.surroundings r.here sender c) goal e := by
  refine and_congr_right fun _ => ?_
  simp only [offers_iff_meets, not_exists, not_and]
  constructor
  · rintro h e ⟨a, hmeets⟩
    exact Bool.eq_false_iff.mp (h a e hmeets)
  · intro h a e hmeets
    exact Bool.eq_false_iff.mpr (h e ⟨a, hmeets⟩)

/-- At the place where the table has a neighbour, nothing stalls but at that place itself. -/
theorem Meets.not_stalls (h : r.Meets a e) (hmeasures : r.geometry.Measures)
    (hapart : r.here ≠ e.position.point) (c : TrafficClass) :
    ¬ r.Stalls c e.position.point := by
  rintro ⟨-, hnone⟩
  have hnearer := hmeasures.nearer hapart
  rw [hnone a e h] at hnearer
  exact absurd hnearer Bool.false_ne_true

omit [Scalar α] in
/-- The place of a station that is met is known. -/
theorem Meets.findPosition? (h : r.Meets a e) : r.table.findPosition? a r.clock = some e :=
  (LocationTable.findPosition?_eq_some_iff _ _ _ _).mpr ⟨h.stored, h.live, h.placed⟩

omit [Scalar α] in
/-- Where a packet says what the table says, it is on its way to the place that the table has. -/
theorem Meets.point_refreshed (h : r.Meets a e) {d : ShortPosition} (hnames : d.address = a)
    (hpoint : d.point = e.position.point) (nothing : Bool) :
    (r.refreshed d nothing).point = e.position.point := by
  unfold refreshed
  rw [hnames, h.findPosition?]
  dsimp only
  split
  · rfl
  · exact hpoint

/-- What is decided for a packet by whether it stalls: it is kept, or goes out. -/
structure Chooses (r : Router α) (c : TrafficClass) (goal : Point) (decision : Decision) :
    Prop where
  out : ¬ r.Stalls c goal → decision = .broadcast ∨ ∃ b, decision = .unicast b
  kept : r.Stalls c goal → decision = .buffer

/-- Where there is a neighbour, greedy forwarding keeps only what stalls. -/
theorem toward_chooses (hgreedy : r.config.effectiveNonArea = .greedy)
    (hranks : Scalar.Ranks fun p => r.geometry.distance p goal) (hmeets : r.Meets a e)
    (sender : Option Point) (c : TrafficClass) :
    r.Chooses c goal
      (r.forwarder.timed (r.forwarder.toward (r.surroundings r.here sender c) goal)) := by
  have htoward : r.forwarder.toward (r.surroundings r.here sender c) goal =
      r.forwarder.greedy (r.surroundings r.here sender c) goal := by
    unfold Forwarder.toward
    rw [show r.forwarder.nonArea = .greedy from hgreedy]
  have hoffers := (offers_iff_meets r r.here sender c e).mpr ⟨a, hmeets⟩
  rw [htoward]
  -- without progress, the class alone tells what is kept from what is broadcast
  by_cases hadvances : ∃ e, (r.surroundings r.here sender c).Offers e ∧
      r.forwarder.Advances (r.surroundings r.here sender c) goal e
  · obtain ⟨e', -, -, hunicast⟩ := Forwarder.greedy_of_advances (f := r.forwarder) hranks hadvances
    rw [hunicast]
    refine ⟨fun _ => .inr ⟨_, rfl⟩, fun hstalls => ?_⟩
    exact absurd hadvances ((stalls_iff r sender c goal).mp hstalls).2
  · rw [Forwarder.greedy_of_not_advances hadvances]
    constructor
    · intro hgoes
      have hclass : ¬ (r.surroundings r.here sender c).trafficClass.storeCarryForward = true :=
        fun hclass => hgoes ((stalls_iff r sender c goal).mpr ⟨hclass, hadvances⟩)
      rw [if_neg hclass, if_pos (Forwarder.hasNeighbors_iff.mpr ⟨e, hoffers⟩)]
      exact .inl rfl
    · rintro ⟨hclass, -⟩
      exact congrArg r.forwarder.timed (if_pos hclass)

/-! ## What is done -/

/-- A frame is handed to the link, and nothing comes to wait. -/
structure HandsOut (r : Router α) (frame : Bytes) (s : Router α) : Prop where
  sent : ∃ e : Emission, e.frame = frame ∧ s.emissions = r.emissions ++ [e]
  queues : s.queues = r.queues
  contention : s.contention = r.contention

/-- A frame is put into the queue of a station, and nothing is handed to the link. -/
structure SetsAside (r : Router α) (a : Address) (frame : Bytes) (s : Router α) : Prop where
  queued : ∃ p : Parcel, p.frame = frame ∧ s.queues = (r.queues.enqueue .unicast a p).2
  emissions : s.emissions = r.emissions
  contention : s.contention = r.contention

/-- What becomes of a packet for a station that is taken to be at some place: it goes out at once,
and only if it stalls it is parked, in the queue of that station. -/
structure Proceeds (r : Router α) (a : Address) (c : TrafficClass) (goal : Point) (frame : Bytes)
    (outcome : Except RoutingError TransmitOutcome) (s : Router α) : Prop where
  out : ¬ r.Stalls c goal → outcome = .ok .sent ∧ r.HandsOut frame s
  kept : r.Stalls c goal → outcome = .ok (.queued none) ∧ r.SetsAside a frame s

/-- Whatever has been noted since the decision, a packet is dispatched as it was decided. -/
theorem Chooses.proceeds {decision : Decision} (h : r.Chooses c goal decision)
    (hemissions : n.emissions = r.emissions) (hqueues : n.queues = r.queues)
    (hcontention : n.contention = r.contention) {o : Outgoing} (hgoal : o.destination = some a)
    {frame : Bytes} (hframe : o.frame = frame) :
    r.Proceeds a c goal frame (n.dispatch decision o).1 (n.dispatch decision o).2 := by
  have hsent (target : LinkTarget) : r.HandsOut frame (n.emit target o.frame o.outlet o.origin) :=
    ⟨⟨_, hframe, congrArg (· ++ _) hemissions⟩, hqueues, hcontention⟩
  constructor
  · intro hgoes
    rcases h.out hgoes with rfl | ⟨b, rfl⟩
    · exact ⟨rfl, hsent _⟩
    · exact ⟨rfl, hsent _⟩
  · intro hstalls
    rw [h.kept hstalls]
    unfold dispatch
    dsimp only
    rw [hgoal]
    have hqueued : (n.enqueue .unicast a (o.toParcel n.now)).queues =
        (r.queues.enqueue .unicast a (o.toParcel n.now)).2 := by
      rw [← hqueues]
      rfl
    exact ⟨rfl, ⟨_, hframe, hqueued⟩, hemissions, hcontention⟩

/-- Counting what became of a frame changes nothing of it. -/
theorem Proceeds.tally {frame : Bytes} {outcome : Except RoutingError TransmitOutcome}
    (h : r.Proceeds a c goal frame outcome s) (received : ReceiveOutcome) :
    r.Proceeds a c goal frame outcome (s.tally received) where
  out := fun hgoes =>
    have ⟨houtcome, hout⟩ := h.out hgoes
    ⟨houtcome, hout.sent, hout.queues, hout.contention⟩
  kept := fun hstalls =>
    have ⟨houtcome, hkept⟩ := h.kept hstalls
    ⟨houtcome, hkept.queued, hkept.emissions, hkept.contention⟩

/-! ## The three ways by which a packet comes -/

/-- The packet by which a request for a station of known place is served. -/
def resolvedPacket (r : Router α) (d : Draft) (small : d.payload.length ≤ Packet.maxPayload)
    (destination : ShortPosition) : Packet :=
  r.packetOf d small .geoUnicast (.unicast {
    sequence := r.sequence
    source := r.localPosition
    destination }) rfl

/-- A packet for a station of known place sets out with that place in it. -/
theorem transmit_known {q : Request} (hrunning : r.phase = .running)
    (hstation : q.destination = .station a)
    (small : (r.draft q).payload.length ≤ Packet.maxPayload)
    (hknown : r.table.findPosition? a r.clock = some e) :
    r.transmit q =
      (r.number (r.resolvedPacket (r.draft q) small e.position.toShort)).dispatch
        (r.forwarder.timed (r.forwarder.toward
          (r.surroundings r.here none q.trafficClass) e.position.point))
        (.ofPacket (r.resolvedPacket (r.draft q) small e.position.toShort) (r.draft q).outlet
          (some a) (r.originNow (r.resolvedPacket (r.draft q) small e.position.toShort))) := by
  have hserves : r.refusal? = none := (running_iff r).mpr hrunning
  unfold transmit
  rw [hserves]
  dsimp only
  rw [dif_pos small, hstation]
  unfold transmitStation
  dsimp only
  rw [hknown]
  rfl

/-- What the router sends to a neighbour, which it takes to be where the table says. -/
theorem transmit_proceeds (hrunning : r.phase = .running)
    (hgreedy : r.config.effectiveNonArea = .greedy) (hmeasures : r.geometry.Measures)
    (hkeyed : r.Keyed) {q : Request} (hstation : q.destination = .station a)
    (small : q.payload.length ≤ Packet.maxPayload) (hmeets : r.Meets a e) :
    ∃ frame, Packet.goal? frame = some a ∧
      r.Proceeds a q.trafficClass e.position.point frame (r.transmit q).1 (r.transmit q).2 := by
  have hknown := hmeets.findPosition?
  have hsendable : (r.resolvedPacket (r.draft q) small e.position.toShort).Sendable :=
    originate_sendable r rfl _ _ _ _ small rfl
  refine ⟨(r.resolvedPacket (r.draft q) small e.position.toShort).encode, ?_, ?_⟩
  · rw [Packet.goal?_of_decode (Packet.decode_encode hsendable) rfl]
    exact congrArg some (hkeyed a e hmeets.stored)
  · rw [transmit_known hrunning hstation small hknown]
    refine Chooses.proceeds (toward_chooses hgreedy (hmeasures.ranks _) hmeets none _)
      ?_ ?_ ?_ ?_ ?_ <;> rfl

/-- What comes out of a queue, for a neighbour that is taken to be where the packet says or, if that
is newer or the packet does not say, the table. -/
theorem releaseOne_proceeds (hgreedy : m.config.effectiveNonArea = .greedy)
    (hmeasures : m.geometry.Measures) (hmeets : m.Meets a e) (kind : QueueKind) {parcel : Parcel}
    {p : Packet} {u : UnicastHeader} (hdecode : Packet.decode parcel.frame = .ok p)
    (is_unicast : p.extended = .unicast u) (hnames : u.destination.address = a) :
    m.Proceeds a p.common.trafficClass
      (m.refreshed u.destination (isUnresolved u.destination)).point
      (m.onward parcel p u is_unicast).1.encode (m.releaseOne kind parcel).1
      (m.releaseOne kind parcel).2 := by
  subst hnames
  rw [releaseOne_of_unicast m kind is_unicast hdecode]
  refine Chooses.proceeds (toward_chooses hgreedy (hmeasures.ranks _) hmeets _ _)
    ?_ ?_ ?_ ?_ ?_ <;> rfl

/-- A packet of another station for a third one goes on with the newer of two places. -/
theorem receiveUnicast_dispatch (arrival : Arrival) {u : UnicastHeader}
    (is_unicast : arrival.packet.extended = .unicast u)
    (hother : u.destination.address ≠ t.config.address)
    (hhops : arrival.packet.basic.remainingHops ≠ 0) :
    (t.receiveUnicast arrival u is_unicast).2 =
      (t.dispatch
        (t.forwarder.timed (t.forwarder.toward (t.surroundings t.here (some arrival.source.point)
          arrival.packet.common.trafficClass) (t.refreshed u.destination false).point))
        (.ofPacket (arrival.packet.withDestination u is_unicast (t.refreshed u.destination false))
          .link (some u.destination.address) (t.originNow (arrival.packet.withDestination u
            is_unicast (t.refreshed u.destination false))))).2 := by
  unfold receiveUnicast
  rw [if_neg hother, if_neg hhops]
  dsimp only
  split
  · next heq => exact (congrArg Prod.snd heq).symm
  · next heq => exact (congrArg Prod.snd heq).symm

/-- What the router relays, for a neighbour that is taken to be where the packet says or, if that is
newer, the table. -/
theorem receiveUnicast_proceeds (arrival : Arrival)
    (hgreedy : t.config.effectiveNonArea = .greedy) (hmeasures : t.geometry.Measures)
    (hmeets : t.Meets a e)
    {u : UnicastHeader} (is_unicast : arrival.packet.extended = .unicast u)
    (hnames : u.destination.address = a) (hother : a ≠ t.config.address)
    (hhops : arrival.packet.basic.remainingHops ≠ 0) :
    ∃ outcome, (t.receiveUnicast arrival u is_unicast).1 = .forward ∧
      t.Proceeds a arrival.packet.common.trafficClass (t.refreshed u.destination false).point
        (arrival.packet.withDestination u is_unicast (t.refreshed u.destination false)).encode
        outcome (t.receiveUnicast arrival u is_unicast).2 := by
  subst hnames
  have houtcome := receiveUnicast_outcome t arrival u is_unicast
  rw [if_neg hother, if_neg hhops] at houtcome
  rw [receiveUnicast_dispatch arrival is_unicast hother hhops]
  refine ⟨(t.dispatch _ _).1, houtcome, Chooses.proceeds
    (toward_chooses hgreedy (hmeasures.ranks _) hmeets _ _) ?_ ?_ ?_ ?_ ?_⟩ <;> rfl

/-- Handling a packet changes nothing of what the router knows. -/
theorem Readies.agrees {frame : Bytes} {arrival : Arrival} (h : r.Readies frame arrival t) :
    Agrees t (r.receive frame).2 := by
  rw [h.receive]
  have hforwards := handle_forwards t (sendable_of_judge h.judged)
  exact hforwards.alike.agrees.trans ⟨rfl, rfl, rfl, rfl, rfl⟩

/-- What is learnt of the source of a packet leaves other neighbours as they were. -/
theorem Readies.meets {frame : Bytes} {arrival : Arrival} (h : r.Readies frame arrival t)
    (hrunning : r.phase = .running) (hother : a ≠ arrival.source.address)
    (hmeets : r.Meets a e) : t.Meets a e := by
  have hlearned := receive_agrees hrunning h.judged
  have hhandled := h.agrees
  have htable : t.table = (r.arrived.learn arrival).2.table :=
    hhandled.table.symm.trans hlearned.table
  have hclock : t.clock = r.clock := by
    obtain ⟨table, hrest⟩ := learn_rest r.arrived arrival
    have hbase := hhandled.base.symm.trans hlearned.base
    have hnow := hhandled.now.symm.trans hlearned.now
    rw [hrest] at hbase hnow
    unfold clock
    rw [hbase, hnow]
    rfl
  refine ⟨?_, ?_, hmeets.placed, hmeets.neighbor⟩
  · rw [htable, learn_others hother]
    exact hmeets.stored
  · rw [htable, hclock, LocationTable.fresh_congr (learn_lifetime r.arrived arrival)]
    exact hmeets.live

/-! ## The main result -/

/-- A packet of some source for a station is relayed, if the station is a neighbour when what its
frame sets in motion is done, which changes nothing of a neighbour that is not the source: it goes
on with one hop less, and is held back only if it stalls by where it or, if that is newer, the table
has the station then. -/
def Relays (r : Router α) (a : Address) (frame : Bytes) (p : Packet) (v : LongPosition)
    (u : UnicastHeader) : Prop :=
  ∃ arrival t, r.Readies frame arrival t ∧
    (v.address ≠ a → ∀ e, r.Meets a e → t.Meets a e) ∧
    ∀ e, t.Meets a e → (r.receive frame).1 = .forward ∧ ∃ q outcome, p.Passed 1 q ∧
      t.Proceeds a p.common.trafficClass (t.refreshed u.destination false).point q.encode outcome
        (r.receive frame).2

/-- A packet for a station is never held back while the station is a neighbour, but where it stalls.
If the router sends it, it stalls by where the table has the station. If it is relayed, that is by
where the packet or, if that is newer, the table has it. If it comes out of a queue, in whatever
state, that is by the same two, or by the table alone if the packet does not say. -/
structure ReachesNeighbor (r : Router α) (a : Address) : Prop where
  transmit : ∀ q e, q.destination = .station a → q.payload.length ≤ Packet.maxPayload →
    r.Meets a e → ∃ frame, Packet.goal? frame = some a ∧
      r.Proceeds a q.trafficClass e.position.point frame (r.transmit q).1 (r.transmit q).2
  receive : ∀ frame p v u, Packet.decode frame = .ok p → p.source? = some v →
    v.address ≠ r.config.address → p.extended = .unicast u → u.destination.address = a →
    p.basic.remainingHops ≠ 0 → p.basic.remainingHops ≠ 1 →
    (∀ n, p.sequence? = some n → (r.remembered v.address).contains n = false) →
    r.Relays a frame p v u
  release : ∀ kind, kind ≠ .broadcast → ∀ parcel ∈ r.queues.queue kind a,
    ∃ p u, ∃ is_unicast : p.extended = .unicast u, Packet.decode parcel.frame = .ok p ∧
      u.destination.address = a ∧
      ∀ m : Router α, m.config = r.config → m.geometry = r.geometry → ∀ e, m.Meets a e →
        m.Proceeds a p.common.trafficClass
          (m.refreshed u.destination (isUnresolved u.destination)).point
          (m.onward parcel p u is_unicast).1.encode (m.releaseOne kind parcel).1
          (m.releaseOne kind parcel).2
  direct : ∀ m : Router α, m.geometry = r.geometry → ∀ e, m.Meets a e →
    m.here ≠ e.position.point → ∀ c, ¬ m.Stalls c e.position.point

/-- A frame with such a packet is relayed as described. -/
theorem receive_relays (reach : Reachable r) (hrunning : r.phase = .running)
    (hgreedy : r.config.effectiveNonArea = .greedy) (hmeasures : r.geometry.Measures)
    {frame : Bytes} {p : Packet} {v : LongPosition} {u : UnicastHeader}
    (hdecode : Packet.decode frame = .ok p) (hsource : p.source? = some v)
    (hother : v.address ≠ r.config.address) (is_unicast : p.extended = .unicast u)
    (hnames : u.destination.address = a) (hhops : p.basic.remainingHops ≠ 0)
    (hlast : p.basic.remainingHops ≠ 1)
    (hfresh : ∀ n, p.sequence? = some n → (r.remembered v.address).contains n = false) :
    r.Relays a frame p v u := by
  -- the source is learnt of and its lookup ended before the packet is handled, in `t`
  have hjudge := judge_of_decode (r := r) hdecode hsource hother hhops
  obtain ⟨t, hready⟩ := receive_readies reach hrunning hjudge hfresh
  refine ⟨_, t, hready, fun hsource e hmeets => hready.meets hrunning hsource.symm hmeets, ?_⟩
  intro e hmeets
  have hconfig : t.config = r.config := hready.steady.config
  have hgeometry : t.geometry = r.geometry := hready.steady.geometry
  have hrelayed : p.relayed.extended = .unicast u := is_unicast
  -- the table has no entry of the router itself
  have haway : a ≠ t.config.address := by
    intro hown
    have halone := (reach.step (.receive r frame)).orderly.fitted.alone
    rw [hready.agrees.table, hready.agrees.config, ← hown, hmeets.stored] at halone
    exact nomatch halone
  have hleft : p.relayed.basic.remainingHops ≠ 0 := fun hzero =>
    hlast ((Packet.remainingHops_relayed_eq_zero_iff p).mp hzero)
  obtain ⟨outcome, houtcome, hproceeds⟩ := receiveUnicast_proceeds
    ⟨p.relayed, v, isDirect p, frame.length⟩ (hconfig ▸ hgreedy) (hgeometry ▸ hmeasures) hmeets
    hrelayed hnames haway hleft
  rw [← handle_of_unicast hrelayed] at houtcome hproceeds
  rw [hready.receive]
  refine ⟨houtcome, _, outcome, (Packet.passed_relayed hhops).trans
    (Packet.passed_withDestination hrelayed (hready.keyed.refreshed u.destination false)), ?_⟩
  exact hproceeds.tally _

/-- In every state that a running router can come to whose packets move greedily, and whatever way
there is to measure distances, as long as it tells places apart: a packet for a station that is a
neighbour goes out at once, whatever its class and whatever it says of the place of the station,
unless it stalls there. -/
theorem neighbor_reached (reach : Reachable r) (hrunning : r.phase = .running)
    (hgreedy : r.config.effectiveNonArea = .greedy) (hmeasures : r.geometry.Measures)
    (a : Address) : r.ReachesNeighbor a where
  transmit := fun _ _ hstation small hmeets =>
    transmit_proceeds hrunning hgreedy hmeasures reach.keyed hstation small hmeets
  receive := fun _ _ _ _ hdecode hsource hother is_unicast hnames hhops hlast hfresh =>
    receive_relays reach hrunning hgreedy hmeasures hdecode hsource hother is_unicast hnames hhops
      hlast hfresh
  release := by
    intro kind hkind parcel hparcel
    obtain ⟨p, u, hdecode, is_unicast, hnames⟩ := reach.filed.letter hkind hparcel
    refine ⟨p, u, is_unicast, hdecode, hnames, fun m hconfig hgeometry e hmeets => ?_⟩
    exact releaseOne_proceeds (hconfig ▸ hgreedy) (hgeometry ▸ hmeasures) hmeets kind hdecode
      is_unicast hnames
  direct := fun _ hgeometry _ hmeets hapart c =>
    hmeets.not_stalls (hgeometry ▸ hmeasures) hapart c

/-! ## Neighbours on a grid -/

/-- The standard settings with an address, and without beacons. -/
def gridConfig : Config ℚ :=
  { Config.standard with address := trialStation 10, beaconEnabled := false }

/-- A router on the grid, at its origin, that has heard a station on its equator. -/
def gridMeeting (longitude : Int32) : Router ℚ :=
  ((trialStarted gridGeometry gridConfig).receive (trialBeacon 11 100000 longitude).encode).2

/-- The grid's router can come to be. -/
theorem gridMeeting_reachable (longitude : Int32) : Reachable (gridMeeting longitude) := by
  have hfault : gridConfig.fault?.isNone = true := by decide +kernel
  have hstarted := trialStarted_reachable gridGeometry (Option.isNone_iff_eq_none.mp hfault)
    (by decide +kernel)
  exact hstarted.step (.receive _ _)

/-- What is known of the station there. -/
def gridNeighbor (longitude : Int32) : Entry :=
  ((gridMeeting longitude).table.stations.get? (trialStation 11)).getD default

/-- It has met the station that it heard. -/
theorem gridMeeting_meets {longitude : Int32}
    (hheard : ((gridMeeting longitude).table.stations.get? (trialStation 11)).isSome = true)
    (hlive : (gridMeeting longitude).table.Fresh (gridNeighbor longitude).position.timestamp
      (gridMeeting longitude).clock)
    (hknown : (gridNeighbor longitude).pending = false ∧
      (gridNeighbor longitude).neighbor = true) :
    (gridMeeting longitude).Meets (trialStation 11) (gridNeighbor longitude) where
  stored := by
    obtain ⟨e, he⟩ := Option.isSome_iff_exists.mp hheard
    unfold gridNeighbor
    rw [he]
    rfl
  live := hlive
  placed := hknown.1
  neighbor := hknown.2

/-- A letter of a third station for that one, which its class lets wait. -/
def gridLetter : Packet where
  basic := { lifetime := ⟨0xf1⟩, remainingHops := 3 }
  common := { type := .geoUnicast, trafficClass := ⟨128⟩, mobile := true, maxHops := 5 }
  extended := .unicast {
    sequence := ⟨7⟩
    source := trialPosition 12 100000 5000
    destination := { address := trialStation 11, timestamp := ⟨100000⟩, point := ⟨0, 20000⟩ } }
  payload := []
  fits := rfl
  declared := rfl

/-- The letter can be read back from the frame that it comes in. -/
theorem decode_gridLetter : Packet.decode gridLetter.encode = .ok gridLetter := by
  have hhops : (3 : UInt8) ≤ 5 := by decide
  refine Packet.decode_encode ⟨UInt8.le_refl _, nofun, hhops, fun v hv => ?_⟩
  obtain rfl := Option.some.inj hv
  exact trialPosition_compact 12 100000 5000

/-- A router on the grid that has nobody to relay the letter to, and keeps it. -/
def gridHolding : Router ℚ :=
  ((trialStarted gridGeometry gridConfig).receive gridLetter.encode).2

/-- A router that keeps the letter can come to be. -/
theorem gridHolding_reachable : Reachable gridHolding := by
  have hfault : gridConfig.fault?.isNone = true := by decide +kernel
  have hstarted := trialStarted_reachable gridGeometry (Option.isNone_iff_eq_none.mp hfault)
    (by decide +kernel)
  exact hstarted.step (.receive _ _)

/-- Packets for a neighbour at some distance go out, although their class lets them wait: one that
the router sends, one that it relays, and one that it kept while it had no neighbour. -/
theorem neighbor_reached_of_apart :
    let r := gridMeeting 20000
    let q : Request := { trialRequest 11 1 with trafficClass := ⟨128⟩ }
    (Reachable r ∧ r.phase = .running ∧ r.config.effectiveNonArea = .greedy ∧
      r.geometry.Measures ∧ r.Meets (trialStation 11) (gridNeighbor 20000)) ∧
    (r.transmit q).1 = .ok .sent ∧
    ((r.receive gridLetter.encode).1 = .forward ∧ ∃ t : Router ℚ, ∃ q, gridLetter.Passed 1 q ∧
      t.HandsOut q.encode (r.receive gridLetter.encode).2) ∧
    ∃ parcel ∈ gridHolding.queues.queue .unicast (trialStation 11),
      (r.releaseOne .unicast parcel).1 = .ok .sent := by
  intro r q
  have hreach : Reachable r := gridMeeting_reachable 20000
  have hrunning : r.phase = .running := by decide +kernel
  have hgreedy : r.config.effectiveNonArea = .greedy := by decide +kernel
  have hmeets : r.Meets (trialStation 11) (gridNeighbor 20000) :=
    gridMeeting_meets (by decide +kernel) (by decide +kernel) (by decide +kernel)
  have hplace : (gridNeighbor 20000).position.point = ⟨0, 20000⟩ := by decide +kernel
  have hhere : r.here ≠ (gridNeighbor 20000).position.point := by decide +kernel
  have hreached := neighbor_reached hreach hrunning hgreedy gridGeometry_measures (trialStation 11)
  have hkept := neighbor_reached gridHolding_reachable (by decide +kernel) (by decide +kernel)
    gridGeometry_measures (trialStation 11)
  refine ⟨⟨hreach, hrunning, hgreedy, gridGeometry_measures, hmeets⟩, ?_, ?_, ?_⟩
  · obtain ⟨_, _, hproceeds⟩ := hreached.transmit q _ rfl (by decide) hmeets
    exact (hproceeds.out (hreached.direct r rfl _ hmeets hhere q.trafficClass)).1
  · obtain ⟨_, t, hready, hstays, hrelays⟩ := hreached.receive _ _ _ _ decode_gridLetter rfl
      (by decide +kernel) rfl rfl (by decide) (by decide) (by decide +kernel)
    have hmeets' := hstays (by decide) _ hmeets
    obtain ⟨hforward, p, _, hpassed, hproceeds⟩ := hrelays _ hmeets'
    rw [hmeets'.point_refreshed rfl hplace.symm] at hproceeds
    -- the router has not moved while the frame was taken in
    have hhere' : t.here = r.here := by
      unfold Router.here fix
      rw [hready.steady.position, hready.steady.now]
      rfl
    exact ⟨hforward, t, p, hpassed, (hproceeds.out
      (hreached.direct t hready.steady.geometry _ hmeets' (hhere' ▸ hhere) _)).2⟩
  · -- the router that kept the letter releases it to the one that has met the station
    have hwaits : ∃ parcel ∈ gridHolding.queues.queue .unicast (trialStation 11),
        parcel.frame = gridLetter.relayed.encode := by decide +kernel
    obtain ⟨parcel, hparcel, hframe⟩ := hwaits
    obtain ⟨p, u, is_unicast, hdecode, hnames, hrelease⟩ :=
      hkept.release .unicast nofun parcel hparcel
    have hsendable := (Packet.sendable_of_decode decode_gridLetter).relayed (by decide)
    rw [hframe, Packet.decode_encode hsendable] at hdecode
    obtain rfl := Except.ok.inj hdecode
    obtain rfl := Extended.unicast.inj is_unicast
    have hproceeds := hrelease r rfl rfl _ hmeets
    rw [hmeets.point_refreshed rfl hplace.symm] at hproceeds
    exact ⟨parcel, hparcel, (hproceeds.out (hreached.direct r rfl _ hmeets hhere _)).1⟩

/-- A packet for a neighbour at the very place of the router is parked, if its class lets it
wait. -/
theorem not_forall_neighbor_reached :
    ¬ ∀ r : Router ℚ, Reachable r → r.phase = .running →
      r.config.effectiveNonArea = .greedy → r.geometry.Measures →
      ∀ a e, r.Meets a e → ∀ q, q.destination = .station a →
        q.payload.length ≤ Packet.maxPayload →
        (r.transmit q).1 = .ok .sent ∧ (r.transmit q).2.queues.queue .unicast a =
          r.queues.queue .unicast a := by
  intro h
  have hmeets : (gridMeeting 0).Meets (trialStation 11) (gridNeighbor 0) :=
    gridMeeting_meets (by decide +kernel) (by decide +kernel) (by decide +kernel)
  have hsent := h (gridMeeting 0) (gridMeeting_reachable 0) (by decide +kernel)
    (by decide +kernel) gridGeometry_measures _ _ hmeets
    { trialRequest 11 1 with trafficClass := ⟨128⟩ } rfl (by decide)
  revert hsent
  decide +kernel

end Router

end Geocast
