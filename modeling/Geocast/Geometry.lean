import Geocast.Position
import Geocast.Scalar

/-!
# Areas and the measuring of places

An area's rule is a polynomial in the coordinates of a point: positive inside, zero on the edge,
negative outside. The coordinates have their origin at the centre of the area and their axes
along its extents. How coordinates and distances come from points on the earth is left open: a
`Geometry` is any way to measure them, and forwarding needs no more than that.
-/

namespace Geocast

/-- Where a point lies relative to an area. -/
inductive RelativePosition
  | inside | onBoundary | outside
deriving DecidableEq, Repr, Inhabited

namespace RelativePosition

/-- Whether the point belongs to the area, its edge included. -/
def isWithin : RelativePosition → Bool
  | outside => false
  | _ => true

/-- The name of a relative position. -/
def name : RelativePosition → String
  | inside => "Inside"
  | onBoundary => "OnBoundary"
  | outside => "Outside"

end RelativePosition

namespace Shape

variable {α : Type} [Scalar α]

/-- The rule of a shape with extents `a` and `b` at the point `(x, y)`. -/
def value (shape : Shape) (x y a b : α) : α :=
  match shape with
  | circle => a * a - (x * x + y * y)
  | rectangle => Scalar.min (a * a - x * x) (b * b - y * y)
  | ellipse => a * a * (b * b) - (b * b * (x * x) + a * a * (y * y))

/-- Where a point lies relative to a shape, by the sign of the shape's rule. -/
def relativePosition (shape : Shape) (x y a b : α) : RelativePosition :=
  let f := shape.value x y a b
  if Scalar.lt Scalar.zero f then .inside
  else if Scalar.eq f Scalar.zero then .onBoundary
  else .outside

end Shape

/-- A way to measure places. -/
structure Geometry (α : Type) where
  /-- The distance between two points. -/
  distance : Point → Point → α
  /-- Where a point lies relative to an area. -/
  relativePosition : Point → Area → RelativePosition
  /-- How far a point lies from the edge of an area, seen from the centre; negative outside. -/
  toBoundary : Point → Area → α

end Geocast
