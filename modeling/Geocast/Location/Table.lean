import Geocast.AddressMap
import Geocast.Location.Entry
import Geocast.Scalar

/-!
# The location table

The table holds an entry for each station heard of, other than the own one. An entry older than
the lifetime of the table is stale: nothing sees it, and it goes away when something new is
heard of the station or when the table is swept.
-/

namespace Geocast

/-- What a position vector did to the table. -/
structure TableUpdate where
  created : Bool := false
  positionUpdated : Bool := false
  resolvedPending : Bool := false
deriving DecidableEq, Repr, Inhabited

/-- What the number of a packet says of it. -/
inductive SequenceCheck
  | inOrder | reordered | duplicate
deriving DecidableEq, Repr, Inhabited

/-- The name of a sequence check. -/
def SequenceCheck.name : SequenceCheck → String
  | inOrder => "InOrder"
  | reordered => "Reordered"
  | duplicate => "Duplicate"

/-- The stations heard of. -/
structure LocationTable where
  own : Address
  lifetime : UInt32
  stations : AddressMap Entry := .empty
deriving Inhabited

namespace LocationTable

/-- An empty table whose entries live so many milliseconds, at most 2^32 - 1. -/
def make (own : Address) (lifetimeMillis : Nat) : LocationTable where
  own := own
  lifetime := UInt32.ofNat (min lifetimeMillis 0xffffffff)

/-- The number of entries, stale ones included. -/
def size (t : LocationTable) : Nat := t.stations.size

/-- Whether there are no entries. -/
def isEmpty (t : LocationTable) : Bool := t.stations.isEmpty

/-- Whether an entry is not older than the lifetime of the table. -/
def isLive (t : LocationTable) (e : Entry) (now : Timestamp) : Bool := e.age now ≤ t.lifetime

/-- The live entry of a station. -/
def find? (t : LocationTable) (a : Address) (now : Timestamp) : Option Entry :=
  (t.stations.get? a).filter (t.isLive · now)

/-- The live entry of a station whose position is known. -/
def findPosition? (t : LocationTable) (a : Address) (now : Timestamp) : Option Entry :=
  (t.find? a now).filter Entry.hasPosition

/-- The table with the live entry of a station changed, if there is one. -/
def modifyLive? (t : LocationTable) (a : Address) (now : Timestamp) (f : Entry → Entry) :
    Option LocationTable :=
  (t.find? a now).map fun e => { t with stations := t.stations.insert a (f e) }

/-- Takes in a position vector. A live entry keeps the newer of the two vectors and what it knows
of the station's packets; a stale one is made anew. The own station has no entry. -/
def update (t : LocationTable) (position : LongPosition) (neighbor : Bool) (now : Timestamp) :
    TableUpdate × LocationTable :=
  let a := position.address
  if a = t.own then ({}, t)
  else match t.find? a now with
    | some e =>
      let positionUpdated := e.pending || position.timestamp.newerThan e.position.timestamp
      let e' := { e with
        position := if positionUpdated then position else e.position
        neighbor := e.neighbor || neighbor
        pending := false
        isNew := false }
      ({ positionUpdated, resolvedPending := e.pending },
        { t with stations := t.stations.insert a e' })
    | none =>
      -- a stale entry goes with all that it remembered of the station's packets
      ({ created := true, positionUpdated := true },
        { t with stations := (t.stations.erase a).insert a (.ofPosition position neighbor) })

/-- Puts in a placeholder for a station of which nothing live is known, and says whether it
did. -/
def insertPending (t : LocationTable) (a : Address) (now : Timestamp) : Bool × LocationTable :=
  if a = t.own ∨ (t.find? a now).isSome then (false, t)
  else (true, { t with stations := t.stations.insert a (.placeholder a now) })

/-- Takes away the placeholder of a station. -/
def cancelPending (t : LocationTable) (a : Address) : LocationTable :=
  if (t.stations.get? a).any Entry.pending then { t with stations := t.stations.erase a } else t

/-- Takes note of the number of a packet from a station, if the station has an entry. -/
def checkSequence (t : LocationTable) (a : Address) (n : SequenceNumber) :
    SequenceCheck × LocationTable :=
  match t.stations.get? a with
  | none => (.inOrder, t)
  | some e =>
    let (known, duplicates) := e.duplicates.observe n
    let e := { e with duplicates }
    if known then (.duplicate, { t with stations := t.stations.insert a e })
    else
      let (ahead, e) := e.observeSequence n
      (if ahead then .inOrder else .reordered, { t with stations := t.stations.insert a e })

/-- Takes note of a frame from a station with a live entry. -/
def recordFrame (t : LocationTable) (a : Address) (length : Nat) (now : Timestamp) :
    LocationTable :=
  (t.modifyLive? a now (·.recordFrame length now)).getD t

/-- The live entries. -/
def entries (t : LocationTable) (now : Timestamp) : List Entry :=
  t.stations.values.filter (t.isLive · now)

/-- The live entries of direct neighbours whose position is known. -/
def neighbors (t : LocationTable) (now : Timestamp) : List Entry :=
  (t.entries now).filter fun e => e.neighbor && e.hasPosition

/-- Whether a direct neighbour is known. -/
def hasNeighbors (t : LocationTable) (now : Timestamp) : Bool := !(t.neighbors now).isEmpty

/-- The neighbour at the least distance, with that distance. -/
def nearest? {α : Type} [Scalar α] (t : LocationTable) (distance : Point → α)
    (now : Timestamp) : Option (Entry × α) :=
  Scalar.leastBy? (fun e : Entry => distance e.position.point) (t.neighbors now)

/-- Takes an entry out. -/
def remove (t : LocationTable) (a : Address) : Option Entry × LocationTable :=
  (t.stations.get? a, { t with stations := t.stations.erase a })

/-- Takes out all stale entries, and says how many they were. -/
def purgeStale (t : LocationTable) (now : Timestamp) : Nat × LocationTable :=
  let stations := t.stations.filter fun _ e => t.isLive e now
  (t.stations.size - stations.size, { t with stations })

end LocationTable

end Geocast
