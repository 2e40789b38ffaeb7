import Geocast.Geometry
import Geocast.Number.Hypotenuse

/-!
# Measuring on a sphere

Distances run along great circles of a sphere, by the haversine formula. An area is measured in
the plane: a point's coordinates come from its distance and bearing from the centre, turned by
the rotation of the area.
-/

namespace Geocast.Sphere

/-- The radius of the earth in metres. -/
def radius : Float := 6371000.0

/-- The ratio of a circle's circumference to its diameter. -/
def pi : Float := 3.141592653589793

/-- The unit of an angle. -/
inductive AngleUnit
  | degrees | microDegrees | tenthMicroDegrees
deriving DecidableEq, Repr, Inhabited

namespace AngleUnit

/-- The size of the unit in degrees. -/
def size : AngleUnit → Float
  | degrees => 1.0
  | microDegrees => 1e-6
  | tenthMicroDegrees => 1e-7

/-- A number of units in degrees. -/
def toDegrees (u : AngleUnit) (x : Float) : Float := x * u.size

/-- A number of units in radians. -/
def toRadians (u : AngleUnit) (x : Float) : Float := u.toDegrees x * (pi / 180.0)

/-- A number of degrees in the unit. -/
def ofDegrees (u : AngleUnit) (x : Float) : Float := x / u.size

end AngleUnit

/-- A place in some unit of angle. -/
structure Place where
  latitude : Float
  longitude : Float
deriving Inhabited

/-- The length of the great circle from one place to another, in metres. Between places that face
each other across the earth, rounding may take the haversine above one, and then the length is not
a number. -/
def distance (u : AngleUnit) (p q : Place) : Float :=
  let phi1 := u.toRadians p.latitude
  let phi2 := u.toRadians q.latitude
  let halfPhi := (u.toRadians (q.latitude - p.latitude) / 2.0).sin
  let halfLambda := (u.toRadians (q.longitude - p.longitude) / 2.0).sin
  let a := halfPhi * halfPhi + phi1.cos * phi2.cos * (halfLambda * halfLambda)
  radius * (2.0 * Float.atan2 a.sqrt (1.0 - a).sqrt)

/-- The direction in which a great circle leaves the first place for the second, in degrees from
north. -/
def bearing (u : AngleUnit) (p q : Place) : Float :=
  let phi1 := u.toRadians p.latitude
  let phi2 := u.toRadians q.latitude
  let lambda := u.toRadians (q.longitude - p.longitude)
  let y := lambda.sin * phi2.cos
  let x := phi1.cos * phi2.sin - phi1.sin * phi2.cos * lambda.cos
  let angle := Float.atan2 y x * (180.0 / pi)
  if angle < 0.0 then angle + 360.0 else angle

/-- The coordinates of a place around a centre, with the first axis turned from north by the
rotation in degrees. -/
def coordinates (u : AngleUnit) (centre : Place) (rotation : Float) (observer : Place) :
    Float × Float :=
  let d := distance u centre observer
  if d == 0.0 then (0.0, 0.0)
  else
    let phi := (bearing u centre observer - rotation) * (pi / 180.0)
    (d * phi.cos, d * phi.sin)

/-- How far a point lies from the edge of a shape along the ray from the centre; negative
outside. -/
def toBoundary (shape : Shape) (x y a b : Float) : Float :=
  let r := Number.hypotenuse x y
  let (cx, cy) := if r == 0.0 then (1.0, 0.0) else (x / r, y / r)
  let edge := match shape with
    | .circle => a
    | .ellipse =>
      if a == 0.0 || b == 0.0 then 0.0
      else 1.0 / (cx * cx / (a * a) + cy * cy / (b * b)).sqrt
    | .rectangle =>
      let along := if cx == 0.0 then 1.0 / 0.0 else a / cx.abs
      let across := if cy == 0.0 then 1.0 / 0.0 else b / cy.abs
      Scalar.min along across
  edge - r

/-- A point as a place in tenths of a micro-degree. -/
def placeOf (p : Point) : Place := ⟨Float.ofInt p.latitude.toInt, Float.ofInt p.longitude.toInt⟩

/-- A 16-bit extent as a float. -/
def extent (n : UInt16) : Float := n.toFloat

/-- The coordinates of a point in an area. -/
def areaCoordinates (p : Point) (area : Area) : Float × Float :=
  coordinates .tenthMicroDegrees (placeOf area.centre) (extent area.angle) (placeOf p)

/-- Points, areas and distances on the sphere. -/
def geometry : Geometry Float where
  distance p q := distance .tenthMicroDegrees (placeOf p) (placeOf q)
  relativePosition p area :=
    let (x, y) := areaCoordinates p area
    area.shape.relativePosition x y (extent area.a) (extent area.b)
  toBoundary p area :=
    let (x, y) := areaCoordinates p area
    toBoundary area.shape x y (extent area.a) (extent area.b)

end Geocast.Sphere
