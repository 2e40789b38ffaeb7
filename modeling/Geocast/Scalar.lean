import Geocast.Number.Binary

/-!
# The arithmetic of distances and times

Forwarding compares distances and turns them into waiting times. It does so for any type of
numbers with the operations below, so that its rules can be read over floats, which is how a
router runs, and over exact fractions.
-/

namespace Geocast

/-- Numbers in which distances are measured. -/
class Scalar (α : Type) extends Add α, Sub α, Mul α, Div α where
  ofNat : Nat → α
  /-- Strictly less; nothing is less than, or greater than, what is not a number. -/
  lt : α → α → Bool
  /-- At most; false for what is not a number. -/
  le : α → α → Bool
  /-- Neither infinite nor undefined. -/
  isFinite : α → Bool
  /-- Strictly before in a total order of all values. -/
  before : α → α → Bool
  /-- A number of seconds as the nearest number of nanoseconds. -/
  nanos : α → Nat

namespace Scalar

variable {α : Type} [Scalar α]

/-- The number zero. -/
def zero : α := ofNat 0

/-- Whether two numbers are equal; what is not a number equals nothing. -/
def eq (x y : α) : Bool := le x y && le y x

/-- Whether a value is a number, finite or not. -/
def isNumber (x : α) : Bool := le x x

/-- The lesser of two numbers; a value that is not a number gives way to the other. -/
def min (x y : α) : α := if lt y x || !isNumber x then y else x

/-- The greater of two numbers; a value that is not a number gives way to the other. -/
def max (x y : α) : α := if lt x y || !isNumber x then y else x

/-- The number between two bounds that is nearest to the given one. -/
def clamp (x lower upper : α) : α :=
  if lt x lower then lower else if lt upper x then upper else x

/-- A number of milliseconds as seconds. -/
def seconds (millis : Nat) : α :=
  ofNat (millis / 1000) + ofNat (millis % 1000 * 1000000) / ofNat 1000000000

/-- The first element with the least value in the total order, with that value. -/
def leastBy? {β : Type} (value : β → α) : List β → Option (β × α)
  | [] => none
  | x :: xs => some <| xs.foldl (fun best y =>
      if before (value y) best.2 then (y, value y) else best) (x, value x)

end Scalar

/-- Floats, as a router computes with them. -/
instance : Scalar Float where
  ofNat n := (Number.Binary.mk n 0).toFloat
  lt x y := x < y
  le x y := x ≤ y
  isFinite x := x.isFinite
  before x y := decide (Number.totalRank x < Number.totalRank y)
  nanos x :=
    match Number.Value.ofFloat x with
    | .finite false b => Number.roundHalfEven (b.num * 1000000000) b.den
    | _ => 0

end Geocast
