import Geocast.Router.Search

/-!
# Receiving

A frame is first judged on its own: whether it is a packet, whether it comes from another station
and may still travel. Then the table learns of its source, and a packet seen before is dropped,
together with a copy that waits on a contention timer. What is left resolves a lookup, releases
packets that waited for a neighbour, and is delivered, relayed or answered by its type.
-/

namespace Geocast.Router

variable {α : Type} [Scalar α]

/-- A packet that was found worth a closer look, one hop further on than it came. -/
structure Arrival where
  packet : Packet
  source : LongPosition
  /-- Whether the source itself sent the frame. -/
  direct : Bool
  /-- The length of the frame. -/
  length : Nat

/-- Whether a frame comes from the source of its packet: no relay has lowered its hop limit. -/
def isDirect (p : Packet) : Bool :=
  p.common.type = .beacon ∨ p.common.type = .singleHopBroadcast ∨
    p.basic.remainingHops = p.common.maxHops

/-- Judges a frame on its own. -/
def judge (r : Router α) (frame : Bytes) : Except RoutingError Arrival :=
  match Packet.decode frame with
  | .error .securedUnsupported => .error .unsupportedSecurity
  | .error e => .error (.malformedPacket e)
  | .ok p =>
    match p.source? with
    | none => .error (.malformedPacket (.invalidType PacketType.any.codes.1))
    | some source =>
      if source.address = r.config.address then .error .ownPacket
      else if p.basic.remainingHops = 0 then .error .hopLimitExhausted
      else .ok { packet := p.relayed, source, direct := isDirect p, length := frame.length }

/-- Lets the table learn of the source of a packet, and of its number, if it has one. -/
def learn (r : Router α) (a : Arrival) : Option (SequenceNumber × SequenceCheck) × Router α :=
  let address := a.source.address
  let table := (r.table.update a.source a.direct r.clock).2.recordFrame address a.length r.clock
  match a.packet.sequence? with
  | none => (none, { r with table })
  | some n =>
    -- a stale entry was made anew just now, so that it remembers no number
    let (check, table) := table.checkSequence address n
    (some (n, check), { r with table })

/-- Takes the copy of a packet seen before off its contention timer. -/
def overhear (r : Router α) (key : ContentionKey) : Router α :=
  let (cancelled, contention) := r.contention.cancel key
  { r with contention }.count fun s => { s with
    contentionsCancelled := s.contentionsCancelled + if cancelled then 1 else 0 }

/-- Delivers a packet. -/
def deliver (a : Arrival) (forwarded : Bool) : ReceiveOutcome :=
  .consume (.ofPacket a.packet a.source forwarded)

/-- Relays a packet at once, if it may travel further, and says whether it did. -/
def rebroadcast (r : Router α) (a : Arrival) : Bool × Router α :=
  if a.packet.basic.remainingHops = 0 then (false, r)
  else
    let (result, r) := r.dispatch .broadcast
      (.ofPacket a.packet .link none (r.originNow a.packet))
    (result.isOk, r)

/-- Handles a packet for one station. -/
def receiveUnicast (r : Router α) (a : Arrival) (h : UnicastHeader)
    (is_unicast : a.packet.extended = .unicast h) : ReceiveOutcome × Router α :=
  if h.destination.address = r.config.address then (deliver a false, r)
  else if a.packet.basic.remainingHops = 0 then (.drop .hopLimitExhausted, r)
  else
    -- the table may know better than the packet where its destination is by now
    let destination := r.refreshed h.destination false
    let p := a.packet.withDestination h is_unicast destination
    let decision := r.forwarder.timed <| r.forwarder.toward
      (r.surroundings r.here (some a.source.point) p.common.trafficClass) destination.point
    match r.dispatch decision
        (.ofPacket p .link (some h.destination.address) (r.originNow p)) with
    | (.ok _, r) => (.forward, r)
    | (.error e, r) => (.drop e, r)

/-- Handles a request for the position of a station. -/
def receiveLocationRequest (r : Router α) (a : Arrival) (requested : Address) :
    ReceiveOutcome × Router α :=
  if requested = r.config.address then
    match r.sendLocationReply a.source with
    | (.ok _, r) => (deliver a false, r)
    | (.error e, r) => (.drop e, r)
  else
    let (relayed, r) := r.rebroadcast a
    (if relayed then .forward else .drop .hopLimitExhausted, r)

/-- Handles a packet for an area: stations in the area deliver it, and an anycast packet goes no
further than the first of them. -/
def receiveArea (r : Router α) (a : Arrival) (area : Area) (anycast : Bool) :
    ReceiveOutcome × Router α :=
  let inside := (r.geometry.relativePosition r.here area).isWithin
  if inside && anycast then (deliver a false, r)
  else if a.packet.basic.remainingHops = 0 then
    (if inside then deliver a false else .drop .hopLimitExhausted, r)
  else
    let decision := r.forwarder.timed <| r.forwarder.into
      (r.surroundings r.here (some a.source.point) a.packet.common.trafficClass) area
    let (result, r) := r.dispatch decision
      (.ofPacket a.packet .link none (r.originNow a.packet))
    let outcome := match inside, result with
      | true, result => deliver a result.isOk
      | false, .ok _ => .forward
      | false, .error e => .drop e
    (outcome, r)

/-- Whether a packet is for some station of an area. -/
def isAnycast : PacketType → Bool
  | .geoAnycast _ => true
  | _ => false

/-- Handles a packet by its type. -/
def handle (r : Router α) (a : Arrival) : ReceiveOutcome × Router α :=
  match layout : a.packet.extended with
  | .any => (.drop (.malformedPacket (.headerMismatch a.packet.common.type)), r)
  | .beacon _ | .singleHop _ => (deliver a false, r)
  | .topological _ =>
    let (relayed, r) := r.rebroadcast a
    (deliver a relayed, r)
  | .unicast h => r.receiveUnicast a h layout
  | .locationRequest h => r.receiveLocationRequest a h.requested
  | .area h => r.receiveArea a h.area (isAnycast a.packet.common.type)

/-- Goes on with a packet that was not seen before. -/
def accept (r : Router α) (a : Arrival) : ReceiveOutcome × Router α :=
  -- what a lookup sets free may come to wait for a neighbour, and then goes out with the rest
  let r := r.resolveLookup a.source.address
  let r := if a.direct then r.flushBroadcast.flushUnicast else r
  r.handle a

/-- Goes on with a packet once the table knows of it. -/
def process (r : Router α) (a : Arrival) : ReceiveOutcome × Router α :=
  match r.learn a with
  | (some (n, .duplicate), r) =>
    -- nothing else is done for a duplicate, even if it comes from a neighbour
    (.drop (.duplicatePacket a.source.address n), r.overhear (a.source.address, n))
  | (some (_, .reordered), r) =>
    (r.count fun s => { s with reordered := s.reordered + 1 }).accept a
  | (_, r) => r.accept a

/-- Counts what became of a frame. -/
def tally (r : Router α) (outcome : ReceiveOutcome) : Router α :=
  r.count fun s => match outcome with
    | .forward => { s with packetsForwarded := s.packetsForwarded + 1 }
    | .consume i => { s with
        packetsDelivered := s.packetsDelivered + 1
        packetsForwarded := s.packetsForwarded + if i.forwarded then 1 else 0 }
    | .drop (.duplicatePacket _ _) => { s with duplicates := s.duplicates + 1 }
    | .drop (.malformedPacket _) | .drop .unsupportedSecurity => { s with
        malformed := s.malformed + 1
        packetsDropped := s.packetsDropped + 1 }
    | .drop _ => { s with packetsDropped := s.packetsDropped + 1 }

/-- Takes note that a frame comes in. -/
def noteArrival (r : Router α) : Router α := { r with arrivals := r.arrivals + 1 }

/-- Takes in a frame. -/
def receive (r : Router α) (frame : Bytes) : ReceiveOutcome × Router α :=
  let r := r.noteArrival
  let (outcome, r) : ReceiveOutcome × Router α :=
    match r.refusal? with
    | some e => (.drop e, r)
    | none =>
      let r := r.count fun s => { s with packetsReceived := s.packetsReceived + 1 }
      match r.judge frame with
      | .error e => (.drop e, r)
      | .ok a => r.process a
  (outcome, r.tally outcome)

end Geocast.Router
