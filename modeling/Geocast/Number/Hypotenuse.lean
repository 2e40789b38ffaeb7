import Geocast.Number.Binary

/-!
# The hypotenuse in floating-point arithmetic

The square root of a sum of squares loses accuracy when the squares are rounded. One step of
Newton's method makes up for it; what the square of the root exceeds the sum by is put together
from differences that floats hold exactly or nearly so. Legs of extreme size are scaled first.
-/

namespace Geocast.Number

/-- The number two to a power. -/
def twoTo (exponent : Int) : Float := Binary.toFloat ⟨1, exponent⟩

/-- What the square of `h` exceeds the sum of the squares of `a` and `b` by, where `h` is near its
root and `b` is not greater than `a`. It is measured from the leg that is nearer to half of `h` or
greater. -/
def excess (h a b : Float) : Float :=
  if h ≤ 2.0 * b then
    let d := h - b
    a * (2.0 * d - a) + (d - 2.0 * (a - b)) * d
  else
    let d := h - a
    2.0 * d * (a - 2.0 * b) + ((4.0 * d - b) * b + d * d)

/-- The hypotenuse over two legs of moderate size, the longer one first. -/
def correctedRoot (a b : Float) : Float :=
  let h := (a * a + b * b).sqrt
  h - excess h a b / (2.0 * h)

/-- The hypotenuse over two finite legs that are not negative, the longer one first. A leg of less
than the last bit of the other only rounds it. -/
def orderedHypotenuse (a b : Float) : Float :=
  let lastBit := twoTo (-54)
  let scale := twoTo 600
  if twoTo 511 < a then
    if b ≤ a * lastBit then a + b else correctedRoot (a / scale) (b / scale) * scale
  else if b < twoTo (-459) then
    if b / lastBit ≤ a then a + b else correctedRoot (a * scale) (b * scale) / scale
  else if b ≤ a * lastBit then a + b
  else correctedRoot a b

/-- The length of the hypotenuse over two legs. It is infinite over an infinite leg, whatever the
other one is. -/
def hypotenuse (x y : Float) : Float :=
  if x.isInf || y.isInf then 1.0 / 0.0
  else if x.isNaN || y.isNaN then 0.0 / 0.0
  else if x.abs < y.abs then orderedHypotenuse y.abs x.abs
  else orderedHypotenuse x.abs y.abs

end Geocast.Number
