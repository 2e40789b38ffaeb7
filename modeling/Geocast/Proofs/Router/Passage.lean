import Geocast.Proofs.Forwarding.Decision
import Geocast.Proofs.Location.Table
import Geocast.Proofs.Router.Forward

/-!
# Sending and receiving as elementary steps

Whatever a router makes of a request or of a packet that it accepted is a row of elementary
steps: the packets of its own can be sent, those that it decoded can be sent again, and each goes
out through `dispatch` at once. Which packets begin their way is said along with it: without an
arrival only the router's `Own`, and upon one also the packet that the router then `PassesOn`. Only
two things are left over, and are not forwarding: that the table learns of a source, and that a
packet waits for a lookup.
-/

namespace Geocast

/-- Packets of this type announce a station or ask for one. -/
def PacketType.isSignal : PacketType → Bool
  | .beacon | .locationRequest => true
  | _ => false

/-- Whether a packet announces a station or asks for one. -/
def Packet.isSignal (p : Packet) : Bool := p.common.type.isSignal

namespace Router

variable {α : Type}

/-! ## Packets of the router's own -/

/-- The speed that a router writes of itself always fits, since it is clamped. -/
theorem compact_localPosition (r : Router α) : r.localPosition.Compact :=
  LongPosition.compact_toLongPosition r.fix r.config.address

/-- A packet of the router's own can be sent when the router is its source. -/
theorem originate_sendable (r : Router α) {type : PacketType} {extended : Extended}
    (fits : extended.fits type = true) (lifetime : Lifetime) (maxHops : UInt8)
    (next : CommonNext) (trafficClass : TrafficClass) {payload : Bytes}
    (small : payload.length ≤ Packet.maxPayload)
    (source : extended.source? = some r.localPosition) :
    (r.originate type extended fits lifetime maxHops next trafficClass payload small).Sendable where
  version := UInt8.le_refl _
  plain := by
    intro h
    cases h
  hops := UInt8.le_refl _
  source := by
    intro v hv
    obtain rfl := Option.some.inj (source.symm.trans hv)
    exact compact_localPosition r

/-- A packet of the router's own as it begins its way: the router is its source, and it has all its
hops left. -/
structure Own (r : Router α) (p : Packet) : Prop where
  source : p.source? = some r.localPosition
  full : p.basic.remainingHops = p.common.maxHops
  hops : r.config.hopLimit ≠ 0 → p.basic.remainingHops ≠ 0

/-- A packet that is put together here is of the router's own, with all its hops left. -/
theorem originate_own (r : Router α) {type : PacketType} {extended : Extended}
    (fits : extended.fits type = true) (lifetime : Lifetime) {maxHops : UInt8}
    (next : CommonNext) (trafficClass : TrafficClass) {payload : Bytes}
    (small : payload.length ≤ Packet.maxPayload)
    (source : extended.source? = some r.localPosition)
    (hops : r.config.hopLimit ≠ 0 → maxHops ≠ 0) :
    r.Own (r.originate type extended fits lifetime maxHops next trafficClass payload small) where
  source := source
  full := rfl
  hops := hops

/-- A packet goes out in the instant in which it is made. -/
theorem starts_ofPacket {P : Router α → Packet → Prop} {r s : Router α} {p : Packet}
    (h : p.Sendable) (begins : P s p) (same : s.originNow p = r.originNow p) (outlet : Outlet)
    {destination : Option Address} (heading : s.Heading p destination) {decision : Decision}
    (wait : decision = .buffer → s.MayWait p) :
    s.Starts P decision (.ofPacket p outlet destination (r.originNow p)) :=
  ⟨p, outlet, destination, h, begins, heading, wait, by rw [same]⟩

/-! ## Packets for one station -/

/-- A packet is on its way to the station that it names. -/
theorem heading_of_eq {r : Router α} {p : Packet} {u : UnicastHeader} {a : Address}
    (is_unicast : p.extended = .unicast u) (h : r.Keyed → u.destination.address = a) :
    r.Heading p (some a) := by
  intro b hb
  obtain rfl := Option.some.inj hb
  exact ⟨u, is_unicast, h⟩

/-- A station is found in the table under its own address. -/
theorem Keyed.findPosition? {r : Router α} (h : r.Keyed) {a : Address} {e : Entry}
    (hfind : r.table.findPosition? a r.clock = some e) : e.position.address = a :=
  h a e ((LocationTable.findPosition?_eq_some_iff _ _ _ _).mp hfind).1

/-- What is now known of where a station is, is about that station. -/
theorem Keyed.refreshed {r : Router α} (h : r.Keyed) (d : ShortPosition) (nothing : Bool) :
    (r.refreshed d nothing).address = d.address := by
  unfold Router.refreshed
  split
  · next e hfind =>
    split
    · exact h.findPosition? hfind
    · rfl
  · rfl

/-! ## Judging a frame -/

/-- What is known of a frame that was found worth a closer look. -/
theorem judge_ok {r : Router α} {frame : Bytes} {a : Arrival} (h : r.judge frame = .ok a) :
    ∃ p, Packet.decode frame = .ok p ∧ p.source? = some a.source ∧
      a.source.address ≠ r.config.address ∧ p.basic.remainingHops ≠ 0 ∧
      a.packet = p.relayed := by
  unfold judge at h
  split at h
  · exact absurd h (by simp)
  · exact absurd h (by simp)
  · next p hdecode =>
    split at h
    · exact absurd h (by simp)
    · next source hsource =>
      split at h
      · exact absurd h (by simp)
      · next hother =>
        split at h
        · exact absurd h (by simp)
        · next hhops =>
          obtain rfl := Except.ok.inj h
          exact ⟨p, hdecode, hsource, hother, hhops, rfl⟩

/-- Which frames are found worth a closer look. -/
theorem judge_of_decode {r : Router α} {frame : Bytes} {p : Packet} {source : LongPosition}
    (hdecode : Packet.decode frame = .ok p) (hsource : p.source? = some source)
    (hother : source.address ≠ r.config.address) (hhops : p.basic.remainingHops ≠ 0) :
    r.judge frame =
      .ok { packet := p.relayed, source, direct := isDirect p, length := frame.length } := by
  unfold judge
  simp only [hdecode, hsource, if_neg hother, if_neg hhops]

/-- A packet that was read can be written once more. -/
theorem sendable_of_judge {r : Router α} {frame : Bytes} {a : Arrival}
    (h : r.judge frame = .ok a) : a.packet.Sendable := by
  obtain ⟨p, hdecode, _, _, hhops, hpacket⟩ := judge_ok h
  rw [hpacket]
  exact (Packet.sendable_of_decode hdecode).relayed hhops

/-- Only a packet that waits for a lookup gets a handle. -/
theorem dispatch_handle (r : Router α) (decision : Decision) (o : Outgoing) (handle : Nat) :
    (r.dispatch decision o).1 ≠ .ok (.queued (some handle)) := by
  obtain ⟨_, hgone⟩ := exists_dispatched r decision o
  generalize r.dispatch decision o = done at hgone ⊢
  cases hgone <;> simp

variable [Scalar α]

/-! ## Packets that wait for a way -/

/-- Towards a place a packet only waits if it may. -/
theorem mayWait_of_toward {r : Router α} {p : Packet} {trafficClass : TrafficClass}
    (hclass : p.common.trafficClass = trafficClass) {here goal : Point} {sender : Option Point}
    (h : r.forwarder.timed (r.forwarder.toward (r.surroundings here sender trafficClass) goal) =
      .buffer) : r.MayWait p :=
  ⟨Forwarder.greedy_of_toward (f := r.forwarder) h, hclass ▸ Forwarder.patient_of_toward h⟩

/-- A packet for an area waits only where its class asks for it. -/
theorem mayWait_of_into {r : Router α} {p : Packet} {trafficClass : TrafficClass}
    (hclass : p.common.trafficClass = trafficClass) {here : Point} {sender : Option Point}
    {area : Area} (h : r.forwarder.timed (r.forwarder.into
      (r.surroundings here sender trafficClass) area) = .buffer) : r.MayWait p :=
  ⟨Forwarder.greedy_of_into (f := r.forwarder) h, hclass ▸ Forwarder.patient_of_into h⟩

/-! ## Numbering packets and sending them -/

/-- Numbering a packet and sending it on its way. -/
theorem number_dispatch_forwards {P : Router α → Packet → Prop} (r : Router α)
    {decision : Decision} {p : Packet} (h : p.Sendable) (begins : P (r.number p) p)
    (outlet : Outlet) {destination : Option Address} (heading : r.Heading p destination)
    (wait : decision = .buffer → r.MayWait p) :
    Forwards P r ((r.number p).dispatch decision
      (.ofPacket p outlet destination (r.originNow p))).2 :=
  .tail (.single (.number r _))
    (.dispatch _ decision (starts_ofPacket h begins rfl outlet heading wait))

/-- A location request is a packet of the router's own that begins its way. -/
theorem sendLocationRequest_forwards (r : Router α) (target : Address) :
    Forwards Own r (r.sendLocationRequest target) := by
  have hsendable : (r.originate .locationRequest (.locationRequest
      { sequence := r.sequence, source := r.localPosition, requested := target }) rfl
      r.defaultLifetime r.config.hopLimit .any {} [] (Nat.zero_le _)).Sendable :=
    originate_sendable r rfl _ _ _ _ _ rfl
  exact .tail (.tail (.single (.number r _)) (.emit (r.number _) .broadcast .link hsendable
      (originate_own (r.number _) rfl _ _ _ _ rfl id)))
    (.count _ (fun s => { s with requestsSent := s.requestsSent + 1 }) fun _ => rfl)

/-- So is the answer to one. -/
theorem sendLocationReply_forwards (r : Router α) (requester : LongPosition) :
    Forwards Own r (r.sendLocationReply requester).2 :=
  number_dispatch_forwards r (originate_sendable r rfl _ _ _ _ _ rfl)
    (originate_own (r.number _) rfl _ _ _ _ rfl id) .link (heading_of_eq rfl fun _ => rfl)
    fun hbuffer => mayWait_of_toward rfl hbuffer

/-- And so is a beacon. -/
theorem sendBeacon_forwards (r : Router α) : Forwards Own r r.sendBeacon.2 := by
  have hsendable : (r.originate .beacon (.beacon r.localPosition) rfl r.defaultLifetime 1 .any {}
      [] (Nat.zero_le _)).Sendable := originate_sendable r rfl _ _ _ _ _ rfl
  unfold sendBeacon
  split
  · exact .refl
  · exact .tail (.single (.emit r .broadcast .link hsendable
        (originate_own r rfl _ _ _ _ rfl fun _ => by decide)))
      (.count _ (fun s => { s with beaconsSent := s.beaconsSent + 1 }) fun _ => rfl)

/-! ## Requests to send -/

omit [Scalar α] in
/-- Every packet that is asked for may travel at least one hop. -/
theorem maxHops_draft (r : Router α) (q : Request) : (r.draft q).maxHops ≠ 0 := by
  show (if (1 : UInt8) ≤ q.maxHops.getD r.config.hopLimit then _ else 1) ≠ 0
  split
  · next hle =>
    intro hzero
    rw [hzero] at hle
    exact absurd hle (by decide)
  · decide

/-- A packet of the router's own as a draft has it. -/
structure Drafted (d : Draft) (r : Router α) (p : Packet) : Prop extends Own r p where
  lifetime : p.basic.lifetime = d.lifetime
  payload : p.payload = d.payload

/-- The packet by which a request for a station of unknown place is served. -/
def unresolvedPacket (r : Router α) (d : Draft) (small : d.payload.length ≤ Packet.maxPayload)
    (target : Address) : Packet :=
  r.packetOf d small .geoUnicast (.unicast {
    sequence := r.sequence
    source := r.localPosition
    destination := { address := target } }) rfl

omit [Scalar α] in
/-- It can be read once it is sent on. -/
theorem unresolvedPacket_sendable (r : Router α) (d : Draft)
    (small : d.payload.length ≤ Packet.maxPayload) (target : Address) :
    (r.unresolvedPacket d small target).Sendable :=
  originate_sendable r rfl _ _ _ _ small rfl

omit [Scalar α] in
/-- It is as the request has it. -/
theorem unresolvedPacket_drafted {d : Draft} (r : Router α) (hhops : d.maxHops ≠ 0)
    (small : d.payload.length ≤ Packet.maxPayload) (target : Address) :
    r.Drafted d (r.unresolvedPacket d small target) :=
  ⟨originate_own r rfl _ _ _ small rfl fun _ => hhops, rfl, rfl⟩

omit [Scalar α] in
/-- It names the station that it waits for. -/
theorem unresolvedPacket_heading (r : Router α) (d : Draft)
    (small : d.payload.length ≤ Packet.maxPayload) (target : Address) :
    r.Heading (r.unresolvedPacket d small target) (some target) :=
  heading_of_eq rfl fun _ => rfl

/-- The parcel in which such a packet waits for the lookup. -/
def unresolvedParcel (r : Router α) (d : Draft) (small : d.payload.length ≤ Packet.maxPayload)
    (target : Address) : Parcel :=
  let p := r.unresolvedPacket d small target
  (Outgoing.ofPacket p d.outlet (some target)
    { r.originNow p with handle := some r.handles }).toParcel r.now

/-- A running router with a lookup for a station: the one in flight, or else a new one, whose loop
sends the first request at once. -/
def openLookup (r : Router α) (target : Address) : Router α :=
  match r.lookups.begin? target with
  | none => r
  | some (l, lookups) => { r with
      lookups := lookups.spawn l.key r.now
      table := (r.table.insertPending target r.clock).2 }

omit [Scalar α] in
/-- As long as a router runs, a lookup can be started. -/
theorem startLookup_of_serves {r : Router α} (hserves : r.refusal? = none) (target : Address) :
    r.startLookup target = (.ok (), r.openLookup target) := by
  unfold startLookup openLookup
  rw [hserves]
  cases r.lookups.begin? target <;> rfl

/-- Parks a packet until the place of its destination is known. -/
def await (r : Router α) (target : Address) (p : Parcel) : Option Nat × Router α :=
  (((r.useSequence (some p.origin)).enqueue .lookup target p).openLookup target).subscribe target

/-- A packet for a station of unknown place is parked, and its sender gets a handle. -/
theorem transmitStation_unknown (r : Router α) (d : Draft)
    (small : d.payload.length ≤ Packet.maxPayload) {target : Address}
    (hserves : r.refusal? = none) (unknown : r.table.findPosition? target r.clock = none) :
    r.transmitStation d small target =
      (.ok (.queued (r.await target (r.unresolvedParcel d small target)).1),
        (r.await target (r.unresolvedParcel d small target)).2) := by
  have hserves' : ((r.useSequence (some (r.unresolvedParcel d small target).origin)).enqueue
      .lookup target (r.unresolvedParcel d small target)).refusal? = none := hserves
  have hstarts := startLookup_of_serves hserves' target
  unfold transmitStation
  simp only [unknown, Option.isSome_none, Bool.false_eq_true, if_false]
  split
  · next heq =>
    exact nomatch congrArg Prod.fst (hstarts.symm.trans heq)
  · next heq =>
    obtain rfl := congrArg Prod.snd (hstarts.symm.trans heq)
    rfl

/-- A packet that a router makes for a request: as the request has it, neither a beacon nor a
request for a place, and with the number of the next packet if packets of its kind are numbered. -/
structure Composes (r : Router α) (q : Request) (p : Packet) : Prop
    extends Drafted (r.draft q) r p where
  sendable : p.Sendable
  unsigned : p.isSignal = false
  sequence : p.sequence? = if isNumbered q.destination then some r.sequence else none

omit [Scalar α] in
/-- A packet of any layout that was put together for a request is one such packet. -/
theorem packetOf_composes (r : Router α) (q : Request) {d : Draft}
    (hlifetime : d.lifetime = (r.draft q).lifetime) (hpayload : d.payload = (r.draft q).payload)
    (hhops : d.maxHops ≠ 0) (small : d.payload.length ≤ Packet.maxPayload) {type : PacketType}
    {extended : Extended} (fits : extended.fits type = true)
    (hsource : extended.source? = some r.localPosition) (hunsigned : type.isSignal = false)
    (hsequence : extended.sequence? = if isNumbered q.destination then some r.sequence else none) :
    r.Composes q (r.packetOf d small type extended fits) where
  toOwn := originate_own r fits _ _ _ small hsource fun _ => hhops
  lifetime := hlifetime
  payload := hpayload
  sendable := originate_sendable r fits _ _ _ _ small hsource
  unsigned := hunsigned
  sequence := hsequence

/-- What a router makes of a request to send: it refuses it, or it composes a packet, numbers it and
sends it on its way at once, or keeps it until the place of its destination is known. What the
station sends itself is never contended for. -/
inductive Serves (r : Router α) (q : Request) :
    Except RoutingError TransmitOutcome × Router α → Prop
  | refused {e : RoutingError} : r.refusal? = some e → Serves r q (.error e, r)
  | tooLarge : r.refusal? = none → Packet.maxPayload < q.payload.length →
      Serves r q (.error (.malformedPacket (.payloadTooLarge q.payload.length)),
        if isNumbered q.destination then r.useSequence none else r)
  | dispatched {p : Packet} {s : Router α} {decision : Decision} {outlet : Outlet}
      {destination : Option Address} : r.refusal? = none →
      q.payload.length ≤ Packet.maxPayload → r.Composes q p →
      s = (if isNumbered q.destination then r.number p else r) →
      decision.isPrompt = true → (decision = .buffer → r.MayWait p) → r.Heading p destination →
      Serves r q (s.dispatch decision (.ofPacket p outlet destination (r.originNow p)))
  | awaited {target : Address} (small : (r.draft q).payload.length ≤ Packet.maxPayload) :
      r.refusal? = none → q.destination = .station target →
      r.table.findPosition? target r.clock = none →
      r.Composes q (r.unresolvedPacket (r.draft q) small target) →
      Serves r q (.ok (.queued (r.await target (r.unresolvedParcel (r.draft q) small target)).1),
        (r.await target (r.unresolvedParcel (r.draft q) small target)).2)

/-- What is sent by the station itself is not contended for. -/
theorem toward_own_isPrompt (r : Router α) (here : Point) (trafficClass : TrafficClass)
    (goal : Point) :
    (r.forwarder.timed (r.forwarder.toward (r.surroundings here none trafficClass) goal)).isPrompt =
      true :=
  Forwarder.toward_isPrompt _ _ rfl

/-- Each kind of destination is served in this way. -/
theorem transmit_serves (r : Router α) (q : Request) : r.Serves q (r.transmit q) := by
  have hhops := maxHops_draft r q
  unfold transmit
  split
  · next hrefusal => exact .refused hrefusal
  · next hserves =>
    dsimp only
    split
    · next small =>
      -- by whom the packet is for, which decides how it is made and forwarded
      split
      · next hdestination =>
        have hcomposes : r.Composes q (r.packetOf { r.draft q with maxHops := 1 } small
            .singleHopBroadcast (.singleHop { source := r.localPosition }) rfl) :=
          packetOf_composes r q (d := { r.draft q with maxHops := 1 }) rfl rfl
            (by decide : (1 : UInt8) ≠ 0) small rfl rfl rfl (by rw [hdestination]; rfl)
        unfold transmitSingleHop
        exact .dispatched hserves small hcomposes (by rw [hdestination]; rfl) rfl nofun
          (heading_none _ _)
      · next hdestination =>
        refine .dispatched hserves small (packetOf_composes r q rfl rfl hhops small rfl rfl rfl
          (by rw [hdestination]; rfl)) (by rw [hdestination]; rfl) ?_ ?_ (heading_none _ _)
        · split <;> rfl
        · split <;> exact nofun
      · next area hdestination =>
        exact .dispatched hserves small (packetOf_composes r q rfl rfl hhops small _ rfl rfl
          (by rw [hdestination]; rfl)) (by rw [hdestination]; rfl) (Forwarder.into_isPrompt _ _ rfl)
          (fun hbuffer => mayWait_of_into rfl hbuffer) (heading_none _ _)
      · next area hdestination =>
        exact .dispatched hserves small (packetOf_composes r q rfl rfl hhops small _ rfl rfl
          (by rw [hdestination]; rfl)) (by rw [hdestination]; rfl) (Forwarder.into_isPrompt _ _ rfl)
          (fun hbuffer => mayWait_of_into rfl hbuffer) (heading_none _ _)
      · next target hdestination =>
        have hcomposes (destination : ShortPosition) : r.Composes q (r.packetOf (r.draft q) small
            .geoUnicast (.unicast {
              sequence := r.sequence, source := r.localPosition, destination }) rfl) :=
          packetOf_composes r q rfl rfl hhops small rfl rfl rfl (by rw [hdestination]; rfl)
        cases hknown : r.table.findPosition? target r.clock with
        | none =>
          rw [transmitStation_unknown r _ small hserves hknown]
          exact .awaited small hserves hdestination hknown (hcomposes _)
        | some e =>
          unfold transmitStation
          simp only [hknown, Option.isSome_some, if_true]
          exact .dispatched hserves small (hcomposes _) (by rw [hdestination]; rfl)
            (toward_own_isPrompt r _ _ _) (fun hbuffer => mayWait_of_toward rfl hbuffer)
            (heading_of_eq rfl fun hkeyed => hkeyed.findPosition? hknown)
    · next hlarge => exact .tooLarge hserves (Nat.lt_of_not_le hlarge)

/-- A request is served by forwarding, and gets no handle, or its packet waits for the place of a
station. -/
theorem transmit_cases (r : Router α) (q : Request) :
    (Forwards (Drafted (r.draft q)) r (r.transmit q).2 ∧
      ∀ handle, (r.transmit q).1 ≠ .ok (.queued (some handle))) ∨
      ∃ target small, q.destination = .station target ∧
        r.table.findPosition? target r.clock = none ∧
        r.transmit q =
          (.ok (.queued (r.await target (r.unresolvedParcel (r.draft q) small target)).1),
            (r.await target (r.unresolvedParcel (r.draft q) small target)).2) := by
  have hserves := transmit_serves r q
  generalize r.transmit q = done at hserves ⊢
  cases hserves with
  | refused _ => exact .inl ⟨.refl, fun _ => nofun⟩
  | tooLarge _ _ =>
    refine .inl ⟨?_, fun _ => nofun⟩
    split
    · exact .single (.number r none)
    · exact .refl
  | @dispatched p s decision outlet destination _ _ hcomposes hs _ hwait hheading =>
    refine .inl ⟨?_, dispatch_handle _ _ _⟩
    subst hs
    split
    · exact number_dispatch_forwards r hcomposes.sendable
        ⟨⟨hcomposes.source, hcomposes.full, hcomposes.hops⟩, hcomposes.lifetime, hcomposes.payload⟩
        outlet hheading hwait
    · exact .single (.dispatch r decision
        (starts_ofPacket hcomposes.sendable hcomposes.toDrafted rfl outlet hheading hwait))
  | @awaited target small _ hdestination hunknown _ =>
    exact .inr ⟨target, small, hdestination, hunknown, rfl⟩

/-! ## Packets that arrive -/

/-- A router passes a packet on that arrived: only one with a number and hops left, as it is or, if
it is for one station, with what is now known of where that station is. -/
structure PassesOn (r : Router α) (a : Arrival) (p : Packet) : Prop where
  numbered : a.packet.sequence?.isSome = true
  hops : a.packet.basic.remainingHops ≠ 0
  packet : p = a.packet ∨ ∃ u is_unicast,
    p = a.packet.withDestination u is_unicast (r.refreshed u.destination false)

/-- The packets that begin their way upon an arrival. -/
def Takes (a : Arrival) (r : Router α) (p : Packet) : Prop := r.Own p ∨ r.PassesOn a p

variable {a : Arrival}

/-- The router's own packets may begin their way upon any arrival. -/
theorem Forwards.takes {r s : Router α} (h : Forwards Own r s) : Forwards (Takes a) r s :=
  h.mono fun _ _ _ => .inl

/-- A packet for everybody is passed on, if it has hops left. -/
theorem rebroadcast_forwards (r : Router α) (h : a.packet.Sendable)
    (hnumbered : a.packet.sequence?.isSome = true) :
    Forwards (Takes a) r (r.rebroadcast a).2 := by
  unfold rebroadcast
  split
  · exact .refl
  · next hhops =>
    exact .single (.dispatch r .broadcast
      (starts_ofPacket h (.inr ⟨hnumbered, hhops, .inl rfl⟩) rfl .link (heading_none _ _) nofun))

/-- A packet for one station is passed on towards where that station is now. -/
theorem receiveUnicast_forwards (r : Router α) (h : a.packet.Sendable)
    (u : UnicastHeader) (is_unicast : a.packet.extended = .unicast u) :
    Forwards (Takes a) r (r.receiveUnicast a u is_unicast).2 := by
  have hnumbered : a.packet.sequence?.isSome = true := by
    rw [Packet.sequence?_eq is_unicast]
    rfl
  -- the destination may be brought up to date, but it stays the same station
  have hheading : r.Heading (a.packet.withDestination u is_unicast
      (r.refreshed u.destination false)) (some u.destination.address) :=
    heading_of_eq rfl fun hkeyed => hkeyed.refreshed u.destination false
  have hstep (hhops : a.packet.basic.remainingHops ≠ 0) (sender : Option Point) (goal : Point) :=
    Forward.dispatch r (r.forwarder.timed (r.forwarder.toward
        (r.surroundings r.here sender a.packet.common.trafficClass) goal))
      (starts_ofPacket (P := Takes a)
        (h.withDestination u is_unicast (r.refreshed u.destination false))
        (.inr ⟨hnumbered, hhops, .inr ⟨u, is_unicast, rfl⟩⟩) rfl .link hheading
        fun hbuffer => mayWait_of_toward rfl hbuffer)
  unfold receiveUnicast
  split
  · exact .refl
  · split
    · exact .refl
    · next hhops =>
      dsimp only
      split
      · next heq =>
        have hs := congrArg Prod.snd heq
        subst hs
        exact .single (hstep hhops _ _)
      · next heq =>
        have hs := congrArg Prod.snd heq
        subst hs
        exact .single (hstep hhops _ _)

/-- A request is passed on, or a reply of the router's own begins its way. -/
theorem receiveLocationRequest_forwards (r : Router α) (h : a.packet.Sendable)
    (hnumbered : a.packet.sequence?.isSome = true) (requested : Address) :
    Forwards (Takes a) r (r.receiveLocationRequest a requested).2 := by
  have hreply := (sendLocationReply_forwards r a.source).takes (a := a)
  unfold receiveLocationRequest
  split
  · split
    · next heq =>
      rw [heq] at hreply
      exact hreply
    · next heq =>
      rw [heq] at hreply
      exact hreply
  · exact rebroadcast_forwards r h hnumbered

/-- A packet for an area is passed on as it is. -/
theorem receiveArea_forwards (r : Router α) (h : a.packet.Sendable)
    (hnumbered : a.packet.sequence?.isSome = true) (area : Area) (anycast : Bool) :
    Forwards (Takes a) r (r.receiveArea a area anycast).2 := by
  unfold receiveArea
  dsimp only
  split
  · exact .refl
  · split
    · exact .refl
    · next hhops =>
      exact .single (.dispatch r _
        (starts_ofPacket h (.inr ⟨hnumbered, hhops, .inl rfl⟩) rfl .link (heading_none _ _)
          fun hbuffer => mayWait_of_into rfl hbuffer))

/-- Whatever its layout, a packet begins only such ways. -/
theorem handle_forwards (r : Router α) (h : a.packet.Sendable) :
    Forwards (Takes a) r (r.handle a).2 := by
  -- whatever may be passed on has a layout with a number
  have hnumbered (e : Extended) (layout : a.packet.extended = e) (hsome : e.sequence?.isSome) :
      a.packet.sequence?.isSome = true := by
    rwa [Packet.sequence?_eq layout]
  unfold handle
  split
  · exact .refl
  · exact .refl
  · exact .refl
  · next layout => exact rebroadcast_forwards r h (hnumbered _ layout rfl)
  · exact receiveUnicast_forwards r h _ _
  · next layout => exact receiveLocationRequest_forwards r h (hnumbered _ layout rfl) _
  · next layout => exact receiveArea_forwards r h (hnumbered _ layout rfl) _ _

/-- Once the packets that waited for the source are on their way, accepting a packet is
forwarding. -/
theorem accept_forwards (r : Router α) (h : a.packet.Sendable) :
    Forwards (Takes a) (r.resolveLookup a.source.address) (r.accept a).2 := by
  unfold accept
  dsimp only
  split
  · exact .trans (.tail (.single (.flushBroadcast _)) (.flushUnicast _)) (handle_forwards _ h)
  · exact handle_forwards _ h

end Router

end Geocast
