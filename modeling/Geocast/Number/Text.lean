import Geocast.Number.Binary

/-!
# Numbers as text

`fixed` writes a float with a given number of decimals, correctly rounded from its exact value.
`shortest` finds the fewest digits that read back as the same float; the two layouts that use it
differ only in where the point goes. `ofDecimal?` reads decimal text, correctly rounded.
-/

namespace Geocast.Number

/-- A power of ten. -/
def tenTo (n : Nat) : Nat := Nat.pow 10 n

/-- The decimal digits of a whole number. -/
def digits (n : Nat) : List Char := Nat.toDigits 10 n

/-- A sign in front of digits. -/
def signed (negative : Bool) (cs : List Char) : String :=
  String.ofList (if negative then '-' :: cs else cs)

/-- Digits with a point so many places before their end, with zeros in front where needed. -/
def pointBefore (places : Nat) (ds : List Char) : List Char :=
  let padded := List.replicate (places + 1 - ds.length) '0' ++ ds
  let whole := padded.take (padded.length - places)
  if places = 0 then whole else whole ++ '.' :: padded.drop (padded.length - places)

/-- A finite number with a fixed number of decimals, a tie going to the even digit. A number that
is written as zero has no sign. -/
def fixedPoint (places : Nat) (negative : Bool) (b : Binary) : String :=
  let n := roundHalfEven (b.num * tenTo places) b.den
  signed (negative && n != 0) (pointBefore places (digits n))

/-- A number of at least one with ten significant digits and a power of ten, as in
`1.800000000e15`. -/
def tenDigits (negative : Bool) (b : Binary) : String :=
  let exponent := (digits (b.num / b.den)).length - 1
  let n := roundHalfEven (b.num * tenTo 9) (b.den * tenTo exponent)
  let (n, exponent) := if n = tenTo 10 then (tenTo 9, exponent + 1) else (n, exponent)
  signed negative (pointBefore 9 (digits n) ++ 'e' :: digits exponent)

/-- A float with a fixed number of decimals; from 10^15 on with ten significant digits. -/
def fixed (places : Nat) (x : Float) : String :=
  match Value.ofFloat x with
  | .nan => "NaN"
  | .infinite negative => signed negative "inf".toList
  | .finite negative b =>
    if b.num < tenTo 15 * b.den then fixedPoint places negative b else tenDigits negative b

/-- The greatest power of ten that does not exceed a positive quotient. -/
def decimalExponent (num den : Nat) : Int :=
  let guess : Int := (digits num).length - (digits den).length
  if den * tenTo guess.toNat ≤ num * tenTo (-guess).toNat then guess else guess - 1

/-- A positive decimal number: `significand * 10 ^ exponent`. -/
structure Decimal where
  significand : Nat
  exponent : Int
deriving DecidableEq, Repr

/-- The same number without zeros at the end of its digits. -/
def Decimal.trim (d : Decimal) : Decimal :=
  let rec go : Nat → Nat → Int → Decimal
    | 0, n, e => ⟨n, e⟩
    | k + 1, n, e => if n % 10 = 0 ∧ n ≠ 0 then go k (n / 10) (e + 1) else ⟨n, e⟩
  go (digits d.significand).length d.significand d.exponent

/-- The decimal number with so many digits that lies nearest to a positive binary fraction, if it
lies in the interval of numbers that round to that fraction. The ends of the interval belong to
it when the mantissa is even. -/
def nearestWith (b : Binary) (count : Nat) : Option Decimal :=
  let quarter : Binary := ⟨4 * b.mantissa, b.exponent - 2⟩
  let below : Binary :=
    if b.mantissa = hiddenBit ∧ -1074 < b.exponent then ⟨4 * b.mantissa - 1, b.exponent - 2⟩
    else ⟨4 * b.mantissa - 2, b.exponent - 2⟩
  let above : Binary := ⟨4 * b.mantissa + 2, b.exponent - 2⟩
  let place := decimalExponent b.num b.den - count + 1
  let scale := tenTo (-place).toNat
  let den := quarter.den * tenTo place.toNat
  let inside (n : Nat) : Bool :=
    if b.mantissa % 2 = 0 then below.num * scale ≤ n * den && n * den ≤ above.num * scale
    else below.num * scale < n * den && n * den < above.num * scale
  let value := quarter.num * scale
  let low := value / den
  let distanceLow := value - low * den
  let distanceHigh := (low + 1) * den - value
  let lowFirst := distanceLow < distanceHigh || (distanceLow == distanceHigh && low % 2 == 0)
  let (first, second) := if lowFirst then (low, low + 1) else (low + 1, low)
  if inside first then some ⟨first, place⟩
  else if inside second then some ⟨second, place⟩
  else none

/-- The fewest digits that read back as the same float, and of those the nearest. -/
def shortest (b : Binary) : Decimal :=
  if b.mantissa = 0 then ⟨0, 0⟩
  else ((List.range' 1 17).findSome? (nearestWith b)).elim ⟨0, 0⟩ Decimal.trim

/-- A decimal number without a power of ten. -/
def Decimal.positional (d : Decimal) : List Char :=
  if 0 ≤ d.exponent then digits d.significand ++ List.replicate d.exponent.toNat '0'
  else pointBefore (-d.exponent).toNat (digits d.significand)

/-- A float by its shortest digits, never with a power of ten. -/
def plain (x : Float) : String :=
  match Value.ofFloat x with
  | .nan => "NaN"
  | .infinite negative => signed negative "inf".toList
  | .finite negative b => signed negative (shortest b).positional

/-- A decimal number as a configuration file shows it: positional, with at least one decimal,
while the point stands no more than four places before and sixteen behind the first digit, and
otherwise with a power of ten. -/
def Decimal.configured (d : Decimal) : List Char :=
  let ds := digits d.significand
  let point : Int := ds.length + d.exponent
  if 0 ≤ d.exponent ∧ point ≤ 16 then d.positional ++ ['.', '0']
  else if -5 < point ∧ point ≤ 16 then d.positional
  else
    let mantissa := if ds.length = 1 then ds else pointBefore (ds.length - 1) ds
    let power := point - 1
    mantissa ++ 'e' :: (if power < 0 then '-' :: digits (-power).toNat else digits power.toNat)

/-- A float as a configuration file shows it. -/
def configured (x : Float) : String :=
  match Value.ofFloat x with
  | .nan => ".nan"
  | .infinite negative => if negative then "-.inf" else ".inf"
  | .finite negative b => signed negative (shortest b).configured

/-- The value of a run of decimal digits. -/
def digitsValue (cs : List Char) : Nat :=
  cs.foldl (fun n c => 10 * n + (c.toNat - 48)) 0

/-- The float nearest to `n * 10 ^ exponent`. -/
def ofScientific (n : Nat) (exponent : Int) : Float :=
  if n = 0 then 0.0
  else if 400 < (digits n).length + exponent then 1.0 / 0.0
  else if (digits n).length + exponent < -400 then 0.0
  else Binary.ofQuotient (n * tenTo exponent.toNat) (tenTo (-exponent).toNat)

/-- Reads the power of ten at the end of a decimal number; no text stands for the power 0. -/
def readPower? : List Char → Option Int
  | [] => some 0
  | e :: cs =>
    if e = 'e' ∨ e = 'E' then
      let (negative, ds) := match cs with
        | '-' :: rest => (true, rest)
        | '+' :: rest => (false, rest)
        | _ => (false, cs)
      if ds ≠ [] ∧ ds.all Char.isDigit then
        some (if negative then -(digitsValue ds : Int) else digitsValue ds)
      else none
    else none

/-- Reads an unsigned decimal number: digits with at most one point, at least one digit, and
perhaps a power of ten. -/
def readUnsigned? (cs : List Char) : Option Float :=
  let whole := cs.takeWhile Char.isDigit
  let rest := cs.dropWhile Char.isDigit
  let (fraction, rest) := match rest with
    | '.' :: more => (more.takeWhile Char.isDigit, more.dropWhile Char.isDigit)
    | _ => ([], rest)
  if whole = [] ∧ fraction = [] then none
  else (readPower? rest).map fun power =>
    ofScientific (digitsValue (whole ++ fraction)) (power - fraction.length)

/-- Reads a decimal number with at most one sign. -/
def ofDecimal? : List Char → Option Float
  | '-' :: cs => (readUnsigned? cs).map Float.neg
  | '+' :: cs => readUnsigned? cs
  | cs => readUnsigned? cs

end Geocast.Number
