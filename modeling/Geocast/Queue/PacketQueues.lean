import Geocast.AddressMap
import Geocast.Queue.Parcel

/-!
# Packet queues

A router keeps packets in three families of queues: one queue for packets that wait for any
neighbour, one for each destination of packets that wait for a way there, and one for each
station whose position is being asked for. Every queue is first in, first out, and gives up its
oldest parcel when it is full.
-/

namespace Geocast

/-- The families of queues. -/
inductive QueueKind
  | broadcast | unicast | lookup
deriving DecidableEq, Repr, Inhabited

/-- The parcels of all queues, and how many each queue holds at most. -/
structure PacketQueues where
  broadcastCapacity : Nat
  unicastCapacity : Nat
  lookupCapacity : Nat
  broadcast : List Parcel := []
  unicast : AddressMap (List Parcel) := .empty
  lookup : AddressMap (List Parcel) := .empty
deriving Inhabited

/-- What came out of a queue: parcels that are still good, and how many were not. -/
structure Flushed where
  ready : List Parcel := []
  expired : Nat := 0
  purged : Nat := 0
deriving DecidableEq, Repr, Inhabited

namespace Flushed

/-- The outcome of taking parcels out of a queue, all for nothing or those that are still
good. -/
def ofDrained (drained : List Parcel) (purge : Bool) (now : Nat) : Flushed :=
  if purge then { purged := drained.length }
  else {
    ready := drained.filter fun p => !p.isExpired now
    expired := (drained.filter (·.isExpired now)).length }

end Flushed

namespace PacketQueues

/-- The greatest number of parcels of 96 bytes that fit into less than 2^63 bytes. -/
def maxBroadcast : Nat := 0x7fffffffffffffff / 96

/-- Empty queues of given capacities. Room for all broadcast parcels is set aside at once, which
fails where there can be none. -/
def ofCapacities? (broadcast unicast lookup : Nat) : Option PacketQueues :=
  if broadcast ≤ maxBroadcast then
    some { broadcastCapacity := broadcast, unicastCapacity := unicast, lookupCapacity := lookup }
  else none

/-- How many parcels a queue of a family holds at most. -/
def capacity (q : PacketQueues) : QueueKind → Nat
  | .broadcast => q.broadcastCapacity
  | .unicast => q.unicastCapacity
  | .lookup => q.lookupCapacity

/-- The queue of a family for an address. -/
def queue (q : PacketQueues) (kind : QueueKind) (a : Address) : List Parcel :=
  match kind with
  | .broadcast => q.broadcast
  | .unicast => (q.unicast.get? a).getD []
  | .lookup => (q.lookup.get? a).getD []

/-- The same queues with one of them replaced. -/
def setQueue (q : PacketQueues) (kind : QueueKind) (a : Address) (parcels : List Parcel) :
    PacketQueues :=
  match kind with
  | .broadcast => { q with broadcast := parcels }
  | .unicast => { q with unicast := q.unicast.insert a parcels }
  | .lookup => { q with lookup := q.lookup.insert a parcels }

/-- A parcel at the end of a queue; a full queue gives up its oldest. -/
def push (capacity : Nat) (parcels : List Parcel) (p : Parcel) : List Parcel :=
  (if capacity ≤ parcels.length then parcels.drop 1 else parcels) ++ [p]

/-- What falls out of a queue when a parcel is put in. -/
def overflow (q : PacketQueues) (kind : QueueKind) (a : Address) : List Parcel :=
  if q.capacity kind ≤ (q.queue kind a).length then (q.queue kind a).take 1 else []

/-- Puts a parcel into a queue, and says whether the queue was full. -/
def enqueue (q : PacketQueues) (kind : QueueKind) (a : Address) (p : Parcel) :
    Bool × PacketQueues :=
  let parcels := q.queue kind a
  (decide (q.capacity kind ≤ parcels.length),
    q.setQueue kind a (push (q.capacity kind) parcels p))

/-- The parcels of a family, or of one address in it. -/
def select (q : PacketQueues) (kind : QueueKind) (a : Option Address) : List Parcel :=
  match kind, a with
  | .broadcast, _ => q.broadcast
  | .unicast, none => q.unicast.values.flatten
  | .lookup, none => q.lookup.values.flatten
  | kind, some a => q.queue kind a

/-- The parcels of a family, or of one address in it, whose lifetime has passed. -/
def lapsed (q : PacketQueues) (kind : QueueKind) (a : Option Address) (now : Nat) :
    List Parcel :=
  (q.select kind a).filter (·.isExpired now)

/-- The queues without the parcels of a family, or of one address in it. -/
def drop (q : PacketQueues) (kind : QueueKind) (a : Option Address) : PacketQueues :=
  match kind, a with
  | .broadcast, _ => { q with broadcast := [] }
  | .unicast, none => { q with unicast := .empty }
  | .lookup, none => { q with lookup := .empty }
  | .unicast, some a => { q with unicast := q.unicast.erase a }
  | .lookup, some a => { q with lookup := q.lookup.erase a }

/-- Takes out the parcels of a family, or of one address in it: for nothing, or those that are
still good. -/
def flush (q : PacketQueues) (kind : QueueKind) (a : Option Address) (purge : Bool) (now : Nat) :
    Flushed × PacketQueues :=
  (.ofDrained (q.select kind a) purge now, q.drop kind a)

/-- The number of parcels of a family, or of one address in it. -/
def length (q : PacketQueues) (kind : QueueKind) (a : Option Address) : Nat :=
  (q.select kind a).length

/-- The number of all parcels. -/
def total (q : PacketQueues) : Nat :=
  q.length .broadcast none + q.length .unicast none + q.length .lookup none

/-- Whether there are no parcels. -/
def isEmpty (q : PacketQueues) : Bool := q.total == 0

/-- Takes out everything, and says how much it was. -/
def clear (q : PacketQueues) : Nat × PacketQueues :=
  (q.total, { q with broadcast := [], unicast := .empty, lookup := .empty })

end PacketQueues

end Geocast
