import Geocast.Proofs.Network.Descent
import Geocast.Proofs.Router.Idle
import Geocast.Proofs.Router.Learn

/-!
# What two stations send each other

Two stations that hear nobody else send four kinds of packets: each announces itself, one asks for
the place of the other and gets an answer, and once it has heard of the other in any way it sends
the packet that it was asked to send. `Signal.Rides` says which frames these are. A station that
knows nobody but the other one hands a packet for it to the link at once, greedily or by
contention (`dispatch_toward_known`).
-/

namespace Geocast

/-! ## Frames of a station's own -/

/-- The kinds of packets that two stations send each other. -/
inductive Signal
  /-- Where the sender is. -/
  | beacon
  /-- Where is the other station? -/
  | request
  /-- Here it is. -/
  | reply
  /-- What was to be sent. -/
  | message
deriving DecidableEq, Repr

/-- The number that the first of two stations gives a packet: what it was asked to send was numbered
before the request that had to go first. -/
def Signal.number? : Signal → Option SequenceNumber
  | request => some ⟨1⟩
  | message => some ⟨0⟩
  | beacon | reply => none

/-- A packet of a station for another one, by its kind. -/
def Signal.Fits (own peer : LongPosition) (payload : Bytes) (p : Packet) : Signal → Prop
  | beacon => p.extended = .beacon own
  | request => p.extended = .locationRequest ⟨⟨1⟩, own, peer.address⟩
  | reply => ∃ n, p.common.type = .locationReply ∧ p.extended = .unicast ⟨n, own, peer.toShort⟩
  | message => p.common.type = .geoUnicast ∧ p.extended = .unicast ⟨⟨0⟩, own, peer.toShort⟩ ∧
      p.payload = payload

/-- A frame by which a station itself sends a packet of some kind to another one. -/
def Signal.Rides {α : Type} (r : Router α) (peer : LongPosition) (payload : Bytes) (s : Signal)
    (frame : Bytes) : Prop :=
  ∃ p, frame = p.encode ∧ p.Sendable ∧ r.Own p ∧ s.Fits r.localPosition peer payload p

theorem Router.Own.of_stays {α : Type} {r s : Router α} (h : Stays r s) {p : Packet}
    (hown : s.Own p) : r.Own p where
  source := h.localPosition ▸ hown.source
  full := hown.full
  hops := h.config ▸ hown.hops

/-- A station that has stayed where it was sends what it would have sent before. -/
theorem Signal.Rides.of_stays {α : Type} {r s : Router α} (h : Router.Stays r s)
    {peer : LongPosition} {payload : Bytes} {signal : Signal} {frame : Bytes}
    (hrides : signal.Rides s peer payload frame) : signal.Rides r peer payload frame := by
  obtain ⟨p, hframe, hsendable, hown, hfits⟩ := hrides
  exact ⟨p, hframe, hsendable, hown.of_stays h, h.localPosition ▸ hfits⟩

theorem Router.beaconPacket_rides {α : Type} (r : Router α) (peer : LongPosition)
    (payload : Bytes) : Signal.beacon.Rides r peer payload r.beaconPacket.encode :=
  ⟨_, rfl, originate_sendable r rfl _ _ _ _ _ rfl, originate_own r rfl _ _ _ _ rfl
    fun _ => by decide, rfl⟩

/-- What another router finds when it looks at a packet of a station's own. -/
theorem Router.judge_own {α : Type} {r s : Router α} {p : Packet} (hsendable : p.Sendable)
    (hown : s.Own p) (hvalid : s.config.hopLimit ≠ 0)
    (hother : s.config.address ≠ r.config.address) :
    r.judge p.encode = .ok {
      packet := p.relayed
      source := s.localPosition
      direct := true
      length := p.encode.length } := by
  have hdirect : isDirect p = true := decide_eq_true (.inr (.inr hown.full))
  rw [judge_of_decode (Packet.decode_encode hsendable) hown.source hother (hown.hops hvalid),
    hdirect]

/-! ## A table with one station -/

namespace LocationTable

/-- Of nobody but one station is anything known, and of that one nothing but where it is. -/
structure Expects (t : LocationTable) (v : LongPosition) : Prop where
  entry : ∀ e, t.stations.get? v.address = some e → e.pending = true ∨ e.position = v
  alone : ∀ b, b ≠ v.address → t.stations.get? b = none

/-- Nobody but one station is known, and that one is a neighbour. -/
structure KnowsOnly (t : LocationTable) (v : LongPosition) (now : Timestamp) : Prop where
  entry : ∃ e, t.stations.get? v.address = some e ∧ e.pending = false ∧ e.position = v
  alone : ∀ b, b ≠ v.address → t.stations.get? b = none
  neighbor : t.hasNeighbors now = true

variable {t : LocationTable} {v : LongPosition} {now : Timestamp}

theorem KnowsOnly.expects (h : t.KnowsOnly v now) : t.Expects v where
  entry := by
    intro e he
    obtain ⟨e', he', _, hposition⟩ := h.entry
    obtain rfl := Option.some.inj (he.symm.trans he')
    exact .inr hposition
  alone := h.alone

theorem KnowsOnly.position (h : t.KnowsOnly v now) {e : Entry} (he : e ∈ t.neighbors now) :
    e.position = v := by
  obtain ⟨e', he', _, hposition⟩ := h.entry
  have hvalue : e ∈ t.stations.values := (List.mem_filter.mp (List.mem_filter.mp he).1).1
  obtain ⟨b, hb⟩ := (AddressMap.mem_values_iff _ _).mp hvalue
  by_cases hsame : b = v.address
  · subst hsame
    obtain rfl := Option.some.inj (hb.symm.trans he')
    exact hposition
  · rw [h.alone b hsame] at hb
    exact nomatch hb

/-- The one station is the nearest to any place. -/
theorem KnowsOnly.nearest {α : Type} [Scalar α] (h : t.KnowsOnly v now) (distance : Point → α) :
    ∃ e, t.nearest? distance now = some (e, distance v.point) := by
  have hsome : t.neighbors now ≠ [] := by
    have hneighbor := h.neighbor
    unfold hasNeighbors at hneighbor
    intro hnone
    rw [hnone] at hneighbor
    exact nomatch hneighbor
  unfold nearest?
  obtain ⟨e, x, hfound⟩ :=
    Scalar.exists_leastBy? (fun e : Entry => distance e.position.point) hsome
  obtain ⟨hmem, rfl⟩ := Scalar.mem_of_leastBy? hfound
  refine ⟨e, ?_⟩
  rw [hfound, h.position hmem]

end LocationTable

/-! ## The way to a known station -/

/-- Between some places distances are not negative, and zero exactly where the places are equal. -/
def Geometry.Separates {α : Type} [Scalar α] (g : Geometry α) (places : List Point) : Prop :=
  ∀ p ∈ places, ∀ q ∈ places, (p = q → g.distance p q = Scalar.zero) ∧
    (p ≠ q → Scalar.lt Scalar.zero (g.distance p q) = true)

namespace Router

variable {α : Type} [Scalar α] {r : Router α}

/-- A packet of the station's own for the one station that it knows goes out at once. -/
theorem dispatch_toward_known {v : LongPosition} (hknows : r.table.KnowsOnly v r.clock)
    (hplaces : r.geometry.Separates [r.here, v.point]) (hapart : r.here ≠ v.point)
    (trafficClass : TrafficClass) (s : Router α) (o : Outgoing) :
    ∃ target, s.dispatch (r.forwarder.timed (r.forwarder.toward
        (r.surroundings r.here none trafficClass) v.point)) o =
      (.ok .sent, s.emit target o.frame o.outlet o.origin) := by
  have hthere : r.geometry.distance v.point v.point = Scalar.zero :=
    (hplaces _ (by simp) _ (by simp)).1 rfl
  have hfar : Scalar.lt Scalar.zero (r.geometry.distance r.here v.point) = true :=
    (hplaces _ (by simp) _ (by simp)).2 hapart
  have hnearer : Scalar.lt (r.forwarder.geometry.distance v.point v.point)
      (r.forwarder.geometry.distance r.here v.point) = true := by
    show Scalar.lt (r.geometry.distance v.point v.point) (r.geometry.distance r.here v.point) = true
    rw [hthere, hfar]
  obtain ⟨e, hnearest⟩ := hknows.nearest (r.forwarder.geometry.distance · v.point)
  unfold Forwarder.toward
  cases r.forwarder.nonArea with
  | contention => exact ⟨.broadcast, rfl⟩
  | greedy =>
    -- the one neighbour is at the destination, so it makes all the progress there is
    have hunicast : r.forwarder.greedy (r.surroundings r.here none trafficClass) v.point =
        .unicast e.address := by
      unfold Forwarder.greedy
      have hnearest' : (r.surroundings r.here none trafficClass).table.nearest?
          (r.forwarder.geometry.distance · v.point)
          (r.surroundings r.here none trafficClass).now = _ := hnearest
      rw [hnearest']
      exact if_pos hnearer
    dsimp only
    rw [hunicast]
    exact ⟨.unicast e.address.mac, rfl⟩

/-! ## Hearing the other station -/

omit [Scalar α] in
theorem keptPosition_of_expects {v : LongPosition} (h : r.table.Expects v) :
    r.keptPosition v = v := by
  unfold keptPosition
  cases hfind : r.table.find? v.address r.clock with
  | none => rfl
  | some e =>
    have hentry := h.entry e ((LocationTable.find?_eq_some_iff _ _ _ _).mp hfind).1
    show LocationTable.keptPosition e v = v
    unfold LocationTable.keptPosition
    split
    · rfl
    · next hkept =>
      rcases hentry with hpending | hposition
      · rw [hpending, Bool.true_or] at hkept
        exact absurd rfl hkept
      · exact hposition

variable {a : Arrival}

omit [Scalar α] in
/-- Whoever hears the other station directly knows it. -/
theorem learn_knows (hexpects : r.table.Expects a.source) (hother : a.source.address ≠ r.table.own)
    (hdirect : a.direct = true) (hfresh : r.table.Fresh a.source.timestamp r.clock) :
    (r.learn a).2.table.KnowsOnly a.source r.clock where
  entry := by
    obtain ⟨e, hget, hpending, hposition, _⟩ := (learn_learned hother).entry
    exact ⟨e, hget, hpending, hposition.trans (keptPosition_of_expects hexpects)⟩
  alone := fun b hb => ((learn_learned hother).others b hb).trans (hexpects.alone b hb)
  neighbor := by
    refine learn_hasNeighbors hother hdirect ?_
    rw [keptPosition_of_expects hexpects]
    exact hfresh

omit [Scalar α] in
/-- And remembers the number of what was heard. -/
theorem remembered_learn (hexpects : r.table.Expects a.source)
    (hother : a.source.address ≠ r.table.own)
    (hfresh : r.table.Fresh a.source.timestamp r.clock) {s : Router α}
    (htable : s.table = (r.learn a).2.table) (hclock : s.clock = r.clock) :
    s.remembered a.source.address = a.packet.sequence?.elim (r.remembered a.source.address)
      fun n => ((r.remembered a.source.address).observe n).2 := by
  have hlearned := learn_learned (r := r) hother
  obtain ⟨e, hget, _, hposition, _⟩ := hlearned.entry
  have hfind : s.table.find? a.source.address s.clock = some e := by
    rw [LocationTable.find?_eq_some_iff, htable, hclock, hposition,
      LocationTable.fresh_congr hlearned.lifetime, keptPosition_of_expects hexpects]
    exact ⟨hget, hfresh⟩
  unfold remembered
  rw [hfind]
  exact hlearned.numbers e hget

/-! ## A station that hears one other station -/

omit [Scalar α] in
/-- A station, as it has become of `a`, that keeps nothing but for lookups, and knows nobody but the
station at `v`. -/
structure Facing (a : Router α) (v : LongPosition) (r : Router α) : Prop where
  idle : r.Idle
  stays : Stays a r
  own : r.table.own = r.config.address
  expects : r.table.Expects v

namespace Facing

variable {a s : Router α} {v : LongPosition}

omit [Scalar α] in
/-- What a station sends and counts, and what it does for lookups, makes no difference to that. -/
theorem of_same (h : Facing a v r) (hphase : s.phase = r.phase)
    (hcontention : s.contention = r.contention)
    (hbroadcast : s.queues.broadcast = r.queues.broadcast)
    (hunicast : s.queues.unicast = r.queues.unicast) (hsweep : s.sweepDue = r.sweepDue)
    (hconfig : s.config = r.config) (hgeometry : s.geometry = r.geometry) (hbase : s.base = r.base)
    (hposition : s.position = r.position) (hnow : s.now = r.now) (htable : s.table = r.table)
    (htended : s.lookups.Tended) : Facing a v s where
  idle := ⟨hphase.trans h.idle.running, hcontention.trans h.idle.contention,
    hbroadcast.trans h.idle.broadcast, hunicast.trans h.idle.unicast, hsweep ▸ hnow ▸ h.idle.sweep,
    htended⟩
  stays := ⟨hconfig.trans h.stays.config, hgeometry.trans h.stays.geometry,
    hbase.trans h.stays.base, hposition.trans h.stays.position, hnow.trans h.stays.now,
    htable ▸ h.stays.lifetime⟩
  own := by rw [htable, hconfig, h.own]
  expects := htable ▸ h.expects

omit [Scalar α] in
/-- Whatever it hears of the other station, from then on it knows that one. -/
theorem hears (h : Facing a v r) (hother : v.address ≠ a.config.address)
    (hfresh : a.table.Fresh v.timestamp a.clock) {x : Arrival} (hsource : x.source = v)
    (hdirect : x.direct = true) (stats : Stats) :
    (r.learn x).2.table.KnowsOnly v r.clock ∧
      Facing a v { r with table := (r.learn x).2.table, stats, arrivals := r.arrivals + 1 } := by
  subst hsource
  have hforeign : x.source.address ≠ r.table.own := by
    rw [h.own, h.stays.config]
    exact hother
  have hlearned := learn_learned (r := r) hforeign
  have hknows := learn_knows h.expects hforeign hdirect ((h.stays.fresh _).mpr hfresh)
  exact ⟨hknows, {
    idle := ⟨h.idle.running, h.idle.contention, h.idle.broadcast, h.idle.unicast, h.idle.sweep,
      h.idle.tended⟩
    stays := ⟨h.stays.config, h.stays.geometry, h.stays.base, h.stays.position, h.stays.now,
      hlearned.lifetime.trans h.stays.lifetime⟩
    own := hlearned.own.trans h.own
    expects := hknows.expects }⟩

end Facing

end Router

end Geocast
