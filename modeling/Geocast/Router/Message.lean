import Geocast.Error
import Geocast.Packet

/-!
# What goes in and out of a router

Requests to send, indications of what arrived, and what became of either.
-/

namespace Geocast

/-- Whom a request to send is for. -/
inductive Destination
  | station (address : Address)
  /-- Every station within an area. -/
  | areaBroadcast (area : Area)
  /-- Some station within an area. -/
  | areaAnycast (area : Area)
  /-- Whoever hears it directly. -/
  | singleHop
  /-- Everybody within some hops. -/
  | topological
deriving DecidableEq, Repr, Inhabited

/-- A request to send. What is not given is taken from the configuration. -/
structure Request where
  destination : Destination
  payload : Bytes := []
  next : CommonNext := .btpB
  trafficClass : TrafficClass := {}
  lifetimeMillis : Option Nat := none
  maxHops : Option UInt8 := none
  /-- The request's own way out, instead of the common link. -/
  own : Option Nat := none
deriving DecidableEq, Repr, Inhabited

/-- What became of a request: sent, or kept, with a handle if its completion will be told. -/
inductive TransmitOutcome
  | sent
  | queued (handle : Option Nat)
deriving DecidableEq, Repr, Inhabited

/-- What the upper layer learns of a packet that arrived. -/
structure Indication where
  type : PacketType
  next : CommonNext
  source : LongPosition
  destination : Option Address := none
  area : Option Area := none
  trafficClass : TrafficClass
  remainingHops : UInt8
  lifetime : Lifetime
  payload : Bytes
  /-- Whether the packet was also sent on. -/
  forwarded : Bool
deriving DecidableEq, Repr, Inhabited

namespace Indication

/-- The station that a packet names as its goal. -/
def destinationOf : Extended → Option Address
  | .unicast h => some h.destination.address
  | .locationRequest h => some h.requested
  | _ => none

/-- The area that a packet names as its goal. -/
def areaOf : Extended → Option Area
  | .area h => some h.area
  | _ => none

/-- The indication of a packet from a source. -/
def ofPacket (p : Packet) (source : LongPosition) (forwarded : Bool) : Indication where
  type := p.common.type
  next := p.common.next
  source := source
  destination := destinationOf p.extended
  area := areaOf p.extended
  trafficClass := p.common.trafficClass
  remainingHops := p.basic.remainingHops
  lifetime := p.basic.lifetime
  payload := p.payload
  forwarded := forwarded

end Indication

/-- What became of a frame that arrived. -/
inductive ReceiveOutcome
  | forward
  | consume (indication : Indication)
  | drop (reason : RoutingError)
deriving DecidableEq, Repr, Inhabited

/-- To whom the link hands a frame. -/
inductive LinkTarget
  | broadcast
  | unicast (mac : MacAddress)
deriving DecidableEq, Repr, Inhabited

/-- The text of a link target. -/
def LinkTarget.text : LinkTarget → String
  | broadcast => "broadcast"
  | unicast mac => mac.text

end Geocast
