import Geocast.Address
import Geocast.Circular

/-!
# Positions and areas

Coordinates are signed tenths of a micro-degree. A long position vector says where a station was
at what time and how it moved; the short one leaves out the movement. In the long form the speed
shares a 16-bit field with the accuracy flag and keeps fifteen bits, in two's complement.
-/

namespace Geocast

/-- A place, in tenths of a micro-degree. -/
structure Point where
  latitude : Int32 := 0
  longitude : Int32 := 0
deriving DecidableEq, Repr, Inhabited

/-- The form of an area. -/
inductive Shape
  | circle | rectangle | ellipse
deriving DecidableEq, Repr, Inhabited

namespace Shape

/-- The wire code of a shape. -/
def code : Shape → UInt8
  | circle => 0
  | rectangle => 1
  | ellipse => 2

/-- The shape of a wire code. -/
def ofCode? : Nat → Option Shape
  | 0 => some circle
  | 1 => some rectangle
  | 2 => some ellipse
  | _ => none

/-- The name of a shape. -/
def name : Shape → String
  | circle => "Circle"
  | rectangle => "Rectangle"
  | ellipse => "Ellipse"

end Shape

/-- A destination area: a shape around a centre, with two extents in metres and a rotation in
degrees. A circle uses only the first extent. -/
structure Area where
  centre : Point := {}
  a : UInt16 := 0
  b : UInt16 := 0
  angle : UInt16 := 0
  shape : Shape := .circle
deriving DecidableEq, Repr, Inhabited

namespace Point

/-- The eight bytes of a point. -/
def toBytes (p : Point) : Bytes := Bytes.ofInt32 p.latitude ++ Bytes.ofInt32 p.longitude

/-- Takes eight bytes. -/
def read : Reader Point := do
  let latitude ← Reader.int32
  let longitude ← Reader.int32
  return ⟨latitude, longitude⟩

end Point

/-- Where a station was at what time. -/
structure ShortPosition where
  address : Address := {}
  timestamp : Timestamp := {}
  point : Point := {}
deriving DecidableEq, Repr, Inhabited

namespace ShortPosition

/-- The length of the encoding. -/
def size : Nat := 20

/-- The encoding: address, timestamp, latitude, longitude. -/
def toBytes (v : ShortPosition) : Bytes :=
  v.address.toBytes ++ Bytes.ofUInt32 v.timestamp.millis ++ v.point.toBytes

/-- Takes one short position vector. -/
def read : Reader ShortPosition := do
  let address ← Address.read
  let millis ← Reader.uint32
  let point ← Point.read
  return ⟨address, ⟨millis⟩, point⟩

end ShortPosition

/-- Where a station was at what time, and how it moved. -/
structure LongPosition where
  address : Address := {}
  timestamp : Timestamp := {}
  point : Point := {}
  accurate : Bool := false
  speed : Int16 := 0
  heading : UInt16 := 0
deriving DecidableEq, Repr, Inhabited

namespace LongPosition

/-- The length of the encoding. -/
def size : Nat := 24

/-- The least speed that fits into fifteen bits. -/
def minSpeed : Int := -16384

/-- The greatest speed that fits into fifteen bits. -/
def maxSpeed : Int := 16383

/-- The speed nearest to the given one that fits into fifteen bits. -/
def clampSpeed (speed : Int32) : Int16 :=
  Int16.ofInt (max minSpeed (min maxSpeed speed.toInt))

/-- The field shared by the accuracy flag and the low fifteen bits of the speed. -/
def motion (accurate : Bool) (speed : Int16) : UInt16 :=
  UInt16.ofNat ((if accurate then 32768 else 0) + speed.toUInt16.toNat % 32768)

/-- The speed in a motion field: fifteen bits in two's complement. -/
def speedOf (motion : UInt16) : Int16 :=
  let low := motion.toNat % 32768
  Int16.ofInt (if low < 16384 then low else low - 32768)

/-- The encoding: address, timestamp, latitude, longitude, motion, heading. -/
def toBytes (v : LongPosition) : Bytes :=
  v.address.toBytes ++ Bytes.ofUInt32 v.timestamp.millis ++ v.point.toBytes ++
    Bytes.ofUInt16 (motion v.accurate v.speed) ++ Bytes.ofUInt16 v.heading

/-- Takes one long position vector. -/
def read : Reader LongPosition := do
  let address ← Address.read
  let millis ← Reader.uint32
  let point ← Point.read
  let motion ← Reader.uint16
  let heading ← Reader.uint16
  return {
    address, timestamp := ⟨millis⟩, point, heading
    accurate := 32768 ≤ motion
    speed := speedOf motion }

/-- The vector without the movement. -/
def toShort (v : LongPosition) : ShortPosition := ⟨v.address, v.timestamp, v.point⟩

end LongPosition

/-- What a positioning device reports: a point, the movement and the time of the measurement. -/
structure Fix where
  point : Point := {}
  speed : Int32 := 0
  heading : UInt16 := 0
  timestamp : Timestamp := {}
  accurate : Bool := true
deriving DecidableEq, Repr, Inhabited

/-- The position vector by which a station announces a fix. -/
def Fix.toLongPosition (f : Fix) (address : Address) : LongPosition where
  address := address
  timestamp := f.timestamp
  point := f.point
  accurate := f.accurate
  speed := LongPosition.clampSpeed f.speed
  heading := f.heading

end Geocast
