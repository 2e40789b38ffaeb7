import Geocast.Forwarding
import Geocast.Lookup
import Geocast.Queue.Contention
import Geocast.Queue.PacketQueues
import Geocast.Router.Message

/-!
# The state of a router

A router is a value; everything it does is a function from one state to the next. Frames handed
to the link, numbers given out, transmissions completed, and parcels that were forwarded anew, had
waited too long or gave way to others are kept as a record in the state, oldest first. Time is
counted in whole milliseconds since the router was made.
-/

namespace Geocast

/-- How often things happened. -/
structure Stats where
  packetsReceived : Nat := 0
  packetsDelivered : Nat := 0
  packetsForwarded : Nat := 0
  packetsSent : Nat := 0
  packetsDropped : Nat := 0
  packetsQueued : Nat := 0
  duplicates : Nat := 0
  reordered : Nat := 0
  malformed : Nat := 0
  queueOverflows : Nat := 0
  beaconsSent : Nat := 0
  requestsSent : Nat := 0
  lookupsResolved : Nat := 0
  lookupsExpired : Nat := 0
  contentionsCancelled : Nat := 0
deriving DecidableEq, Repr, Inhabited

/-- Every counter with the name under which it is reported. -/
def Stats.toList (s : Stats) : List (String × Nat) :=
  [("packets_received", s.packetsReceived), ("packets_delivered", s.packetsDelivered),
    ("packets_forwarded", s.packetsForwarded), ("packets_sent", s.packetsSent),
    ("packets_dropped", s.packetsDropped), ("packets_queued", s.packetsQueued),
    ("duplicates", s.duplicates), ("reordered", s.reordered), ("malformed", s.malformed),
    ("queue_overflows", s.queueOverflows), ("beacons_sent", s.beaconsSent),
    ("ls_requests_sent", s.requestsSent), ("ls_resolved", s.lookupsResolved),
    ("ls_expired", s.lookupsExpired), ("cbf_cancelled", s.contentionsCancelled)]

/-- A frame handed to the link. -/
structure Emission where
  time : Nat
  target : LinkTarget
  frame : Bytes
  outlet : Outlet := .link
  /-- The packet that the frame carries, as it was when the router took it over. -/
  origin : Origin
deriving DecidableEq, Repr, Inhabited

instance instDecidableEqOutcome {ε β : Type} [DecidableEq ε] [DecidableEq β] :
    DecidableEq (Except ε β)
  | .ok a, .ok b => decidable_of_decidable_of_iff (p := a = b) ⟨congrArg _, Except.ok.inj⟩
  | .error a, .error b => decidable_of_decidable_of_iff (p := a = b) ⟨congrArg _, Except.error.inj⟩
  | .ok _, .error _ => isFalse fun h => by cases h
  | .error _, .ok _ => isFalse fun h => by cases h

/-- A transmission that had to wait for a lookup, and how it ended. -/
structure Completion where
  handle : Nat
  result : Except RoutingError Unit
deriving DecidableEq, Repr

/-- A parcel that was taken out of a queue and forwarded anew, what was decided for it, and the
frame that it went on as. -/
structure Release where
  time : Nat
  kind : QueueKind
  parcel : Parcel
  decision : Decision
  frame : Bytes
deriving DecidableEq, Repr, Inhabited

/-- A parcel whose lifetime had passed when it was taken out of a queue. -/
structure Expiry where
  time : Nat
  kind : QueueKind
  parcel : Parcel
deriving DecidableEq, Repr, Inhabited

/-- A parcel that gave way to another in a full queue. -/
structure Eviction where
  time : Nat
  kind : QueueKind
  parcel : Parcel
deriving DecidableEq, Repr, Inhabited

/-- How far a router has come. It is started once and stopped for good. -/
inductive Phase
  | created | running | stopped
deriving DecidableEq, Repr, Inhabited

/-- A router. -/
structure Router (α : Type) where
  config : Config α
  geometry : Geometry α
  /-- The router's clock when it was made. -/
  base : Timestamp
  /-- What the positioning device reports at each time. -/
  position : Nat → Fix
  /-- How much longer than the interval the station waits before each beacon. -/
  jitter : Nat → Nat := fun _ => 0
  now : Nat := 0
  phase : Phase := .created
  table : LocationTable
  queues : PacketQueues
  contention : ContentionQueue := {}
  lookups : LookupService := {}
  /-- The number of the next packet. -/
  sequence : SequenceNumber := {}
  /-- When the table is swept next. -/
  sweepDue : Nat := 0
  /-- When the next beacon is due. -/
  beaconDue : Nat := 0
  /-- The number of beacon intervals waited for so far. -/
  beaconRound : Nat := 0
  stats : Stats := {}
  emissions : List Emission := []
  completions : List Completion := []
  released : List Release := []
  expired : List Expiry := []
  evicted : List Eviction := []
  /-- The numbers given out, by the packets that got them; a packet that was refused has none. -/
  issued : List (Option Origin) := []
  /-- The number of handles given out. -/
  handles : Nat := 0
  /-- The number of frames that came in. -/
  arrivals : Nat := 0

/-- Why there is no router with some settings. -/
inductive SetupError (α : Type)
  | config (e : ConfigError α)
  /-- The queues are longer than any memory. -/
  | noRoom
deriving DecidableEq, Repr

/-- A packet on its way out. -/
structure Outgoing where
  frame : Bytes
  outlet : Outlet := .link
  lifetime : Nat
  /-- The station that the packet is for, if it is for one. -/
  destination : Option Address := none
  /-- Under what the packet can wait on a contention timer. -/
  key : Option ContentionKey := none
  origin : Origin
  /-- When the packet was forwarded anew, latest last. -/
  releases : List Nat := []
deriving DecidableEq, Repr, Inhabited

namespace Outgoing

/-- Source and number of a packet, if it has both. -/
def keyOf (p : Packet) : Option ContentionKey := do
  let source ← p.source?
  let sequence ← p.sequence?
  return (source.address, sequence)

/-- A packet on its way out, of a given origin. -/
def ofPacket (p : Packet) (outlet : Outlet) (destination : Option Address) (origin : Origin) :
    Outgoing where
  frame := p.encode
  outlet := outlet
  lifetime := p.basic.lifetime.millis
  destination := destination
  key := keyOf p
  origin := origin

/-- The packet as a parcel that waits from now on. -/
def toParcel (o : Outgoing) (now : Nat) : Parcel where
  frame := o.frame
  outlet := o.outlet
  enqueuedAt := now
  lifetime := o.lifetime
  origin := o.origin
  releases := o.releases

end Outgoing

namespace Router

variable {α : Type} [Scalar α]

/-- A router with the given settings, unless they are at fault or ask for queues for which there
can be no room. -/
def make (geometry : Geometry α) (config : Config α) (base : Timestamp) (position : Nat → Fix)
    (jitter : Nat → Nat) : Except (SetupError α) (Router α) :=
  match config.fault? with
  | some e => .error (.config e)
  | none =>
    match PacketQueues.ofCapacities? config.broadcastCapacity config.unicastCapacity
        config.lookupCapacity with
    | none => .error .noRoom
    | some queues => .ok {
        config, geometry, base, position, jitter, queues
        table := .make config.address config.tableLifetimeMillis }

/-- The router's clock. -/
def clock (r : Router α) : Timestamp := r.base.addMillis (UInt32.ofNat r.now)

/-- What the positioning device reports now. -/
def fix (r : Router α) : Fix := r.position r.now

/-- Where the station is. -/
def here (r : Router α) : Point := r.fix.point

/-- The position vector by which the station announces itself. -/
def localPosition (r : Router α) : LongPosition := r.fix.toLongPosition r.config.address

/-- The rules by which the router forwards. -/
def forwarder (r : Router α) : Forwarder α := .ofConfig r.geometry r.config

/-- What a decision about a packet is taken on, for a station at `here`. -/
def surroundings (r : Router α) (here : Point) (sender : Option Point)
    (trafficClass : TrafficClass) : Surroundings where
  table := r.table
  here := here
  sender := sender
  trafficClass := trafficClass
  now := r.clock

/-- Why the router does not serve, unless it is running. -/
def refusal? (r : Router α) : Option RoutingError :=
  match r.phase with
  | .created => some .notRunning
  | .running => none
  | .stopped => some .shuttingDown

/-- Whether the router serves. -/
def isRunning (r : Router α) : Bool := r.phase = .running

/-- Changes the counters. -/
def count (r : Router α) (f : Stats → Stats) : Router α := { r with stats := f r.stats }

/-- Counts packets that are lost. -/
def countDropped (r : Router α) (n : Nat) : Router α :=
  r.count fun s => { s with packetsDropped := s.packetsDropped + n }

/-- Gives up parcels whose lifetime has passed. -/
def giveUp (r : Router α) (kind : QueueKind) (parcels : List Parcel) : Router α :=
  { r with expired := r.expired ++ parcels.map (Expiry.mk r.now kind) }.countDropped parcels.length

/-- Uses up the number of the next packet, for the packet of a given origin. -/
def useSequence (r : Router α) (taker : Option Origin) : Router α :=
  { r with sequence := r.sequence.next, issued := r.issued ++ [taker] }

/-- A packet of the router's own, which starts with all its hops left. -/
def originate (r : Router α) (type : PacketType) (extended : Extended)
    (fits : extended.fits type = true) (lifetime : Lifetime) (maxHops : UInt8)
    (next : CommonNext) (trafficClass : TrafficClass) (payload : Bytes)
    (small : payload.length ≤ Packet.maxPayload) : Packet :=
  .ofParts { lifetime, remainingHops := maxHops }
    { next, type, trafficClass, mobile := r.config.mobile, maxHops } extended payload fits small

/-- The origin of a packet that the router takes over now. -/
def originNow (r : Router α) (p : Packet) : Origin :=
  { time := r.now, arrival := r.arrivals, frame := p.encode }

/-- Uses up the number of the next packet for one that begins its way with it now. -/
def number (r : Router α) (p : Packet) : Router α := r.useSequence (some (r.originNow p))

/-- Hands a frame to the link. -/
def emit (r : Router α) (target : LinkTarget) (frame : Bytes) (outlet : Outlet)
    (origin : Origin) : Router α :=
  { r with
    emissions := r.emissions ++ [⟨r.now, target, frame, outlet, origin⟩]
    stats := { r.stats with packetsSent := r.stats.packetsSent + 1 } }

/-- Broadcasts parcels, one after the other. -/
def emitParcels (r : Router α) (parcels : List Parcel) : Router α :=
  parcels.foldl (fun r p => r.emit .broadcast p.frame p.outlet p.origin) r

/-- Puts a parcel into a queue. -/
def enqueue (r : Router α) (kind : QueueKind) (a : Address) (p : Parcel) : Router α :=
  let (overflow, queues) := r.queues.enqueue kind a p
  let lost := if overflow then 1 else 0
  let evicted := r.evicted ++ (r.queues.overflow kind a).map (Eviction.mk r.now kind)
  { r with queues, evicted }.count fun s => { s with
    packetsQueued := s.packetsQueued + 1
    queueOverflows := s.queueOverflows + lost
    packetsDropped := s.packetsDropped + lost }

/-- Tells waiting transmissions how they ended. -/
def complete (r : Router α) (waiters : List Nat) (result : Except RoutingError Unit) :
    Router α :=
  { r with completions := r.completions ++ waiters.map (⟨·, result⟩) }

/-- Hands a packet to the link. -/
def send (r : Router α) (target : LinkTarget) (o : Outgoing) :
    Except RoutingError TransmitOutcome × Router α :=
  (.ok .sent, r.emit target o.frame o.outlet o.origin)

/-- Does with a packet what was decided. -/
def dispatch (r : Router α) (decision : Decision) (o : Outgoing) :
    Except RoutingError TransmitOutcome × Router α :=
  match decision with
  | .unicast nextHop => r.send (.unicast nextHop.mac) o
  | .broadcast => r.send .broadcast o
  | .buffer =>
    match o.destination with
    | some a => (.ok (.queued none), r.enqueue .unicast a (o.toParcel r.now))
    | none => (.ok (.queued none), r.enqueue .broadcast r.config.address (o.toParcel r.now))
  | .bufferBroadcast =>
    (.ok (.queued none), r.enqueue .broadcast r.config.address (o.toParcel r.now))
  | .defer timeout =>
    match o.key with
    | some key =>
      let contention := (r.contention.schedule key (o.toParcel r.now) timeout r.now).2
      (.ok (.queued none), { r with contention })
    | none => r.send .broadcast o
  | .discard reason => (.error reason, r)

end Router

end Geocast
