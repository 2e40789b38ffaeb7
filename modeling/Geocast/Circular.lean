/-!
# Numbers that wrap around

Timestamps count milliseconds modulo 2^32 and sequence numbers count packets modulo 2^16. Such
numbers have no first and no last; what they have is a direction: one is newer than another when
it lies ahead of it by less than half the circle. At exactly half the circle the smaller number
counts as the newer one, so that of two different numbers always one is newer.
-/

namespace Geocast

/-- Milliseconds since the start of 2004, modulo 2^32. -/
structure Timestamp where
  millis : UInt32 := 0
deriving DecidableEq, Repr, Inhabited

namespace Timestamp

/-- How far ahead a newer timestamp may lie: less than half the circle. -/
def maxForward : UInt32 := 0x7fffffff

/-- Whether `a` lies ahead of `b` on the circle. -/
def newerThan (a b : Timestamp) : Bool :=
  (b.millis < a.millis && a.millis - b.millis ≤ maxForward) ||
    (a.millis < b.millis && maxForward < b.millis - a.millis)

/-- The timestamp some milliseconds later. -/
def addMillis (a : Timestamp) (n : UInt32) : Timestamp := ⟨a.millis + n⟩

/-- The milliseconds from an earlier timestamp, and 0 if it is not earlier. -/
def millisSince (a earlier : Timestamp) : UInt32 :=
  if a.newerThan earlier then a.millis - earlier.millis else 0

/-- Seconds from 1970 to the start of 2004. -/
def epochSeconds : Int := 1072915200

/-- The timestamp of an instant given in nanoseconds since 1970: the milliseconds since the start
of 2004, cut toward zero, modulo 2^32. -/
def ofUnixNanos (nanos : Int) : Timestamp :=
  let millis := (nanos - epochSeconds * 1000000000).tdiv 1000000
  ⟨UInt32.ofNat (millis % 4294967296).toNat⟩

/-- The seconds since 1970 that a calendar of the years -262143 to 262142 has. -/
def hasCalendarDate (secs : Int) : Bool := -8334601228800 ≤ secs && secs ≤ 8210266876799

/-- The timestamp of an instant given in whole seconds since 1970 and further nanoseconds, if the
calendar has it: only the last second of a minute may be twice as long. -/
def ofUnix? (secs : Int) (nanos : Nat) : Option Timestamp :=
  let length := if secs % 60 = 59 then 2000000000 else 1000000000
  if hasCalendarDate secs && decide (nanos < length) then
    some (ofUnixNanos (secs * 1000000000 + nanos))
  else none

/-- The timestamp of an instant given in milliseconds since the start of 2004. -/
def ofMillis (millis : Int) : Timestamp := ⟨UInt32.ofNat (millis % 4294967296).toNat⟩

/-- A timestamp in decimal with its unit. -/
def text (a : Timestamp) : String := toString a.millis.toNat ++ "ms"

end Timestamp

/-- The number of a packet among those of its source, modulo 2^16. -/
structure SequenceNumber where
  value : UInt16 := 0
deriving DecidableEq, Repr, Inhabited

namespace SequenceNumber

/-- How far ahead a newer number may lie: less than half the circle. -/
def maxForward : UInt16 := 0x7fff

/-- Whether `a` lies ahead of `b` on the circle. -/
def newerThan (a b : SequenceNumber) : Bool :=
  (b.value < a.value && a.value - b.value ≤ maxForward) ||
    (a.value < b.value && maxForward < b.value - a.value)

/-- The number after this one. -/
def next (a : SequenceNumber) : SequenceNumber := ⟨a.value + 1⟩

/-- A sequence number in decimal. -/
def text (a : SequenceNumber) : String := toString a.value.toNat

end SequenceNumber

end Geocast
