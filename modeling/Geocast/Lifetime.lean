/-!
# Packet lifetimes

A lifetime travels in one byte: six bits of multiplier over two bits of time base. The four bases
overlap, so a span of time has several near encodings; `ofMillis` takes the greatest value that
does not exceed the span, and of equal values the one with the finest base.
-/

namespace Geocast

/-- How long a packet may live, in its one-byte form. -/
structure Lifetime where
  raw : UInt8 := 0
deriving DecidableEq, Repr, Inhabited

namespace Lifetime

/-- The time bases in milliseconds, finest first; the position in the list is the code. -/
def bases : List Nat := [50, 1000, 10000, 100000]

/-- The greatest multiplier that fits into six bits. -/
def maxMultiplier : Nat := 63

/-- The longest lifetime that can be written. -/
def maxMillis : Nat := maxMultiplier * 100000

/-- The six high bits. -/
def multiplier (l : Lifetime) : Nat := l.raw.toNat / 4

/-- The code of the time base, in the two low bits. -/
def base (l : Lifetime) : Nat := l.raw.toNat % 4

/-- The milliseconds that a lifetime stands for. -/
def millis (l : Lifetime) : Nat := l.multiplier * bases.getD l.base 0

/-- The lifetime with the given multiplier and code of the time base. -/
def make (multiplier base : Nat) : Lifetime := ⟨UInt8.ofNat (4 * multiplier + base)⟩

/-- The greatest lifetime of one time base that does not exceed a span of time. -/
def fitting (millis base : Nat) : Lifetime :=
  make (min (millis / bases.getD base 1) maxMultiplier) base

/-- The greatest lifetime that does not exceed a span of time, with the finest base that reaches
it. -/
def ofMillis (millis : Nat) : Lifetime :=
  [0, 1, 2, 3].foldl (fun best base =>
    let next := fitting millis base
    if best.millis < next.millis then next else best) ⟨0⟩

/-- The lifetime of a span of nanoseconds, cut to whole milliseconds of at most 64 bits. -/
def ofNanos (nanos : Nat) : Lifetime := ofMillis (min (nanos / 1000000) 0xffffffffffffffff)

/-- The lifetime of whole seconds and further nanoseconds, if together they have no more than 64
bits of whole seconds. -/
def ofSeconds? (secs nanos : Nat) : Option Lifetime :=
  let total := secs * 1000000000 + nanos
  if total / 1000000000 ≤ 0xffffffffffffffff then some (ofNanos total) else none

end Lifetime

end Geocast
