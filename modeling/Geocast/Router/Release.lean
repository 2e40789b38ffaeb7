import Geocast.Router.State

/-!
# Releasing packets that wait

When a neighbour is heard, packets that wait for any neighbour go out, and packets that wait for
a way to their destination are forwarded anew. When a lookup is resolved, the packets that waited
for it are forwarded for the first time. A packet for one station leaves with what is left of its
lifetime and with the newest position known of its destination.
-/

namespace Geocast.Router

variable {α : Type} [Scalar α]

/-- Broadcasts what waits for a neighbour. -/
def flushBroadcast (r : Router α) : Router α :=
  let lapsed := r.queues.lapsed .broadcast none r.now
  let (flushed, queues) := r.queues.flush .broadcast none false r.now
  ({ r with queues }.emitParcels flushed.ready).giveUp .broadcast lapsed

/-- What is known of the place of a packet's destination: what the table says, if that is newer
than what the packet says or the packet says nothing, and else what the packet says. -/
def refreshed (r : Router α) (destination : ShortPosition) (nothing : Bool) : ShortPosition :=
  match r.table.findPosition? destination.address r.clock with
  | some e =>
    if nothing || e.position.timestamp.newerThan destination.timestamp then e.position.toShort
    else destination
  | none => destination

/-- Whether a destination was written down before its place was known. -/
def isUnresolved (destination : ShortPosition) : Bool :=
  destination.point.latitude = 0 ∧ destination.point.longitude = 0

/-- Takes note of a parcel that is forwarded anew. -/
def noteRelease (r : Router α) (kind : QueueKind) (parcel : Parcel) (decision : Decision)
    (frame : Bytes) : Router α :=
  { r with released := r.released ++ [{ time := r.now, kind, parcel, decision, frame }] }

/-- What a packet for one station that has waited goes on as, and what is decided for it. -/
def onward (r : Router α) (parcel : Parcel) (p : Packet) (h : UnicastHeader)
    (is_unicast : p.extended = .unicast h) : Packet × Decision :=
  let destination := r.refreshed h.destination (isUnresolved h.destination)
  let lifetime := Lifetime.ofMillis (parcel.remaining r.now)
  -- an own packet has no sender to make progress on
  let sender := if h.source.address = r.config.address then none else some h.source.point
  ((p.withLifetime lifetime).withDestination h is_unicast destination,
    r.forwarder.timed <| r.forwarder.toward
      (r.surroundings r.here sender p.common.trafficClass) destination.point)

/-- Forwards a packet for one station that has waited in a queue of some family. -/
def releaseOne (r : Router α) (kind : QueueKind) (parcel : Parcel) :
    Except RoutingError TransmitOutcome × Router α :=
  match Packet.decode parcel.frame with
  | .error e => (.error (.malformedPacket e), r)
  | .ok p =>
    match is_unicast : p.extended with
    | .unicast h =>
      let (p', decision) := r.onward parcel p h is_unicast
      let outgoing := Outgoing.ofPacket p' parcel.outlet (some h.destination.address) parcel.origin
      (r.noteRelease kind parcel decision p'.encode).dispatch decision
        { outgoing with releases := parcel.releases ++ [r.now] }
    | _ => (.error (.malformedPacket (.headerMismatch p.common.type)), r)

/-- Forwards a packet for one station that has waited, and counts it as lost if that fails. -/
def releaseOrDrop (r : Router α) (kind : QueueKind) (parcel : Parcel) : Router α :=
  match r.releaseOne kind parcel with
  | (.error _, r) => r.countDropped 1
  | (.ok _, r) => r

/-- Forwards packets for one station each, in order. -/
def release (r : Router α) (kind : QueueKind) (parcels : List Parcel) : Router α :=
  parcels.foldl (fun r p => r.releaseOrDrop kind p) r

/-- Forwards anew what waits for a way to its destination. -/
def flushUnicast (r : Router α) : Router α :=
  let lapsed := r.queues.lapsed .unicast none r.now
  let (flushed, queues) := r.queues.flush .unicast none false r.now
  ({ r with queues }.giveUp .unicast lapsed).release .unicast flushed.ready

/-- Forwards what waited for the position of a station. -/
def flushLookup (r : Router α) (target : Address) : Router α :=
  let lapsed := r.queues.lapsed .lookup (some target) r.now
  let (flushed, queues) := r.queues.flush .lookup (some target) false r.now
  ({ r with queues }.giveUp .lookup lapsed).release .lookup flushed.ready

end Geocast.Router
