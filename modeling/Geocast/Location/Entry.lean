import Geocast.Location.DuplicateList
import Geocast.Position

/-!
# What is known of one station

An entry holds the last position vector of a station, whether it is a direct neighbour, and the
numbers of its packets. An entry can also be a mere placeholder for a station whose position is
being asked for. An entry ages by the stamp of its vector; a stamp slightly ahead of the clock
counts as fresh.
-/

namespace Geocast

/-- What is known of one station. -/
structure Entry where
  address : Address
  position : LongPosition
  neighbor : Bool := false
  /-- A placeholder, whose position is not known yet. -/
  pending : Bool := false
  /-- Nothing came from the station since the entry was made. -/
  isNew : Bool := true
  /-- The smoothed rate at which bytes come from the station, per second. -/
  rate : Float := 0.0
  lastSequence : Option SequenceNumber := none
  duplicates : DuplicateList := {}
  lastReception : Option Timestamp := none
deriving Inhabited

namespace Entry

/-- How far ahead of the clock a stamp may be and still count as fresh, in milliseconds. -/
def maxSkew : UInt32 := 1000

/-- The weight of the past in the smoothed rate. -/
def smoothing : Float := 0.9

/-- The entry of a station that was heard of. -/
def ofPosition (position : LongPosition) (neighbor : Bool) : Entry :=
  { address := position.address, position, neighbor }

/-- The placeholder of a station whose position is being asked for. -/
def placeholder (address : Address) (now : Timestamp) : Entry :=
  { ofPosition { address, timestamp := now } false with pending := true }

/-- Whether the position of the station is known. -/
def hasPosition (e : Entry) : Bool := !e.pending

/-- The milliseconds since the stamp of the position vector; none for a stamp that is not too far
ahead. -/
def age (e : Entry) (now : Timestamp) : UInt32 :=
  if e.position.timestamp.millis - now.millis ≤ maxSkew then 0
  else now.millis - e.position.timestamp.millis

/-- Takes note of a frame of some length. The rate needs a time between two frames, so the first
frame, and one that came in the same millisecond, leave it alone. -/
def recordFrame (e : Entry) (length : Nat) (now : Timestamp) : Entry :=
  let elapsed := e.lastReception.elim 0 fun last => now.millisSince last
  let rate :=
    if elapsed = 0 then e.rate
    else smoothing * e.rate +
      (1.0 - smoothing) * (Float.ofNat length * 1000.0 / elapsed.toFloat)
  { e with rate, lastReception := some now }

/-- Takes note of a packet number, and says whether it lies ahead of all before it. -/
def observeSequence (e : Entry) (n : SequenceNumber) : Bool × Entry :=
  if e.lastSequence.all fun last => n.newerThan last then
    (true, { e with lastSequence := some n })
  else (false, e)

end Entry

end Geocast
