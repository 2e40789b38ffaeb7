/-!
# Floating-point numbers as exact binary fractions

A finite 64-bit float is a whole number times a power of two. Rounding and printing are done on
that pair in exact arithmetic of whole numbers, so no step here rounds twice.
-/

namespace Geocast.Number

/-- The whole number nearest to a quotient; a tie goes to the even neighbour. -/
def roundHalfEven (num den : Nat) : Nat :=
  let floor := num / den
  let rest := num % den
  if 2 * rest < den then floor
  else if den < 2 * rest then floor + 1
  else if floor % 2 = 0 then floor else floor + 1

/-- The bit that the mantissa of a float has in front of those that are written, 52 places up. -/
def hiddenBit : Nat := 0x10000000000000

/-- The bit that tells negative floats from positive ones. -/
def signBit : Nat := 0x8000000000000000

/-- A non-negative fraction: `mantissa * 2 ^ exponent`. -/
structure Binary where
  mantissa : Nat
  exponent : Int
deriving DecidableEq, Repr

namespace Binary

/-- The numerator of the value as a quotient of whole numbers. -/
def num (b : Binary) : Nat := b.mantissa <<< b.exponent.toNat

/-- The denominator of the value as a quotient of whole numbers. -/
def den (b : Binary) : Nat := 1 <<< (-b.exponent).toNat

/-- The float nearest to a binary fraction; a tie goes to the even mantissa, and what is too
large becomes infinite. -/
def toFloat (b : Binary) : Float :=
  let length : Int := if b.mantissa = 0 then 0 else b.mantissa.log2 + 1
  let place := max (b.exponent + length - 53) (-1074)
  let kept :=
    if place ≤ b.exponent then b.mantissa <<< (b.exponent - place).toNat
    else roundHalfEven b.mantissa (1 <<< (place - b.exponent).toNat)
  let bits := if b.mantissa = 0 then 0 else (place + 1074).toNat * hiddenBit + kept
  Float.ofBits (UInt64.ofNat (min bits (2047 * hiddenBit)))

/-- The float nearest to a quotient. Below the last bit that counts, a remainder is kept as one
odd bit, which is all that rounding needs to know of it. -/
def ofQuotient (num den : Nat) : Float :=
  let shift := 66 + den.log2 - num.log2
  let scaled := num <<< shift
  toFloat ⟨2 * (scaled / den) + (if scaled % den = 0 then 0 else 1), -(shift : Int) - 1⟩

end Binary

/-- What a float stands for. -/
inductive Value
  | nan
  | infinite (negative : Bool)
  | finite (negative : Bool) (magnitude : Binary)
deriving DecidableEq, Repr

/-- The number that the bits of a float encode. -/
def Value.ofFloat (x : Float) : Value :=
  let bits : Nat := x.toBits.toNat
  let negative := decide (signBit ≤ bits)
  let exponent : Nat := bits / hiddenBit % 2048
  let fraction : Nat := bits % hiddenBit
  if exponent = 2047 then if fraction = 0 then .infinite negative else .nan
  else if exponent = 0 then .finite negative ⟨fraction, -1074⟩
  else .finite negative ⟨fraction + hiddenBit, (exponent : Int) - 1075⟩

/-- The place of a float in a total order of all floats: negative before positive, also for
zero, and what is not a number before all others. -/
def totalRank (x : Float) : Int :=
  let bits : Nat := x.toBits.toNat
  if x.isNaN then -(signBit : Int)
  else if bits < signBit then bits else signBit - 1 - bits

end Geocast.Number
