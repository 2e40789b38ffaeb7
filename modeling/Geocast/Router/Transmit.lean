import Geocast.Router.Search

/-!
# Sending

A request becomes a packet with the next number of the station, if its type has one, and is
forwarded like any other. A packet for a station whose place is unknown waits for a lookup, and
the request gets a handle by which its completion is told.
-/

namespace Geocast.Router

variable {α : Type} [Scalar α]

/-- The settings of a packet to be sent, taken from its request. -/
structure Draft where
  lifetime : Lifetime
  maxHops : UInt8
  next : CommonNext
  trafficClass : TrafficClass
  payload : Bytes
  outlet : Outlet

/-- The settings of a request, with what it leaves out taken from the configuration. Every packet
may travel at least one hop. -/
def draft (r : Router α) (q : Request) : Draft where
  lifetime := .ofMillis (q.lifetimeMillis.getD r.config.packetLifetimeMillis)
  maxHops := max 1 (q.maxHops.getD r.config.hopLimit)
  next := q.next
  trafficClass := q.trafficClass
  payload := q.payload
  outlet := q.own.elim .link .own

/-- The packet of a draft. -/
def packetOf (r : Router α) (d : Draft) (small : d.payload.length ≤ Packet.maxPayload)
    (type : PacketType) (extended : Extended) (fits : extended.fits type = true) : Packet :=
  r.originate type extended fits d.lifetime d.maxHops d.next d.trafficClass d.payload small

/-- Sends to whoever hears it directly. -/
def transmitSingleHop (r : Router α) (d : Draft)
    (small : d.payload.length ≤ Packet.maxPayload) :
    Except RoutingError TransmitOutcome × Router α :=
  let p := r.packetOf { d with maxHops := 1 } small .singleHopBroadcast
    (.singleHop { source := r.localPosition }) rfl
  r.dispatch .broadcast (.ofPacket p d.outlet none (r.originNow p))

/-- Sends to everybody within some hops; without a neighbour it waits for one if its class says
so. -/
def transmitTopological (r : Router α) (d : Draft)
    (small : d.payload.length ≤ Packet.maxPayload) :
    Except RoutingError TransmitOutcome × Router α :=
  let p := r.packetOf d small .topologicalBroadcast
    (.topological { sequence := r.sequence, source := r.localPosition }) rfl
  let decision :=
    if !r.table.hasNeighbors r.clock && d.trafficClass.storeCarryForward then .bufferBroadcast
    else .broadcast
  (r.number p).dispatch decision (.ofPacket p d.outlet none (r.originNow p))

/-- Sends to the stations, or some station, of an area. -/
def transmitArea (r : Router α) (d : Draft) (small : d.payload.length ≤ Packet.maxPayload)
    (area : Area) (anycast : Bool) : Except RoutingError TransmitOutcome × Router α :=
  let source := r.localPosition
  let header : AreaHeader := { sequence := r.sequence, source, area }
  let p :=
    if anycast then
      r.packetOf d small (.geoAnycast area.shape) (.area header) (beq_self_eq_true area.shape)
    else
      r.packetOf d small (.geoBroadcast area.shape) (.area header) (beq_self_eq_true area.shape)
  let decision := r.forwarder.timed <|
    r.forwarder.into (r.surroundings source.point none d.trafficClass) area
  (r.number p).dispatch decision (.ofPacket p d.outlet none (r.originNow p))

/-- Gives out a handle for a transmission that waits on the lookup for a station. -/
def subscribe (r : Router α) (target : Address) : Option Nat × Router α :=
  match r.lookups.subscribe? target r.handles with
  | none => (none, r)
  | some lookups => (some r.handles, { r with lookups, handles := r.handles + 1 })

/-- Sends to one station, or keeps the packet until the station's place is known. -/
def transmitStation (r : Router α) (d : Draft) (small : d.payload.length ≤ Packet.maxPayload)
    (target : Address) : Except RoutingError TransmitOutcome × Router α :=
  let source := r.localPosition
  let known := r.table.findPosition? target r.clock
  let destination := known.elim { address := target } fun e => e.position.toShort
  let header : UnicastHeader := { sequence := r.sequence, source, destination }
  let p := r.packetOf d small .geoUnicast (.unicast header) rfl
  if known.isSome then
    let decision := r.forwarder.timed <|
      r.forwarder.toward (r.surroundings source.point none d.trafficClass) destination.point
    (r.number p).dispatch decision (.ofPacket p d.outlet (some target) (r.originNow p))
  else
    let origin := { r.originNow p with handle := some r.handles }
    let outgoing := Outgoing.ofPacket p d.outlet (some target) origin
    -- the packet waits before its lookup begins, which may fail late
    match ((r.useSequence (some origin)).enqueue .lookup target
        (outgoing.toParcel r.now)).startLookup target with
    | (.error e, r) => (.error e, r)
    | (.ok (), r) =>
      let (handle, r) := r.subscribe target
      (.ok (.queued handle), r)

/-- Whether packets for a destination are numbered. -/
def isNumbered : Destination → Bool
  | .singleHop => false
  | _ => true

/-- Serves a request to send. A payload that is too long is refused, but still uses up the number
that its packet would have had. -/
def transmit (r : Router α) (q : Request) : Except RoutingError TransmitOutcome × Router α :=
  match r.refusal? with
  | some e => (.error e, r)
  | none =>
    let d := r.draft q
    if small : d.payload.length ≤ Packet.maxPayload then
      match q.destination with
      | .singleHop => r.transmitSingleHop d small
      | .topological => r.transmitTopological d small
      | .areaBroadcast area => r.transmitArea d small area false
      | .areaAnycast area => r.transmitArea d small area true
      | .station target => r.transmitStation d small target
    else
      (.error (.malformedPacket (.payloadTooLarge d.payload.length)),
        if isNumbered q.destination then r.useSequence none else r)

/-- Announces the station to its neighbours. -/
def sendBeacon (r : Router α) : Except RoutingError Unit × Router α :=
  match r.refusal? with
  | some e => (.error e, r)
  | none =>
    let p := r.originate .beacon (.beacon r.localPosition) rfl r.defaultLifetime 1 .any {} []
      (Nat.zero_le _)
    (.ok (), (r.emit .broadcast p.encode .link (r.originNow p)).count fun s =>
      { s with beaconsSent := s.beaconsSent + 1 })

end Geocast.Router
