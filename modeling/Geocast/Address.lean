import Geocast.Bytes

/-!
# Station addresses

A station is known by eight bytes: a byte with the manual bit and the station type, a reserved
byte, and the six bytes of its link address. All 64 bits of an address read from the wire are
kept, and two addresses are the same station exactly when all of them agree.
-/

namespace Geocast

/-- A link address of six octets. -/
structure MacAddress where
  a : UInt8 := 0
  b : UInt8 := 0
  c : UInt8 := 0
  d : UInt8 := 0
  e : UInt8 := 0
  f : UInt8 := 0
deriving DecidableEq, Repr, Inhabited

namespace MacAddress

/-- The address that every station on the link listens to. -/
def broadcast : MacAddress := ⟨255, 255, 255, 255, 255, 255⟩

/-- The six octets in transmission order. -/
def toBytes (m : MacAddress) : Bytes := [m.a, m.b, m.c, m.d, m.e, m.f]

/-- Takes six octets. -/
def read : Reader MacAddress := do
  let a ← Reader.octet
  let b ← Reader.octet
  let c ← Reader.octet
  let d ← Reader.octet
  let e ← Reader.octet
  let f ← Reader.octet
  return ⟨a, b, c, d, e, f⟩

/-- The octets in hexadecimal with colons between them: `02:00:00:00:00:0a`. -/
def text (m : MacAddress) : String :=
  String.ofList ([':'].intercalate (m.toBytes.map Bytes.hexDigits))

end MacAddress

/-- What kind of road user or equipment a station is. -/
inductive StationType
  | unknown | pedestrian | cyclist | moped | motorcycle | passengerCar | bus | lightTruck
  | heavyTruck | trailer | specialVehicle | tram | roadSideUnit
deriving DecidableEq, Repr, Inhabited

namespace StationType

/-- The five-bit code of a station type. -/
def code : StationType → UInt8
  | unknown => 0
  | pedestrian => 1
  | cyclist => 2
  | moped => 3
  | motorcycle => 4
  | passengerCar => 5
  | bus => 6
  | lightTruck => 7
  | heavyTruck => 8
  | trailer => 9
  | specialVehicle => 10
  | tram => 11
  | roadSideUnit => 15

/-- The station type of a code, of which only the low five bits count; a code that is not
assigned stands for an unknown station. -/
def ofCode (n : UInt8) : StationType :=
  match n.toNat % 32 with
  | 1 => pedestrian
  | 2 => cyclist
  | 3 => moped
  | 4 => motorcycle
  | 5 => passengerCar
  | 6 => bus
  | 7 => lightTruck
  | 8 => heavyTruck
  | 9 => trailer
  | 10 => specialVehicle
  | 11 => tram
  | 15 => roadSideUnit
  | _ => unknown

/-- The name of a station type. -/
def name : StationType → String
  | unknown => "Unknown"
  | pedestrian => "Pedestrian"
  | cyclist => "Cyclist"
  | moped => "Moped"
  | motorcycle => "Motorcycle"
  | passengerCar => "PassengerCar"
  | bus => "Bus"
  | lightTruck => "LightTruck"
  | heavyTruck => "HeavyTruck"
  | trailer => "Trailer"
  | specialVehicle => "SpecialVehicle"
  | tram => "Tram"
  | roadSideUnit => "RoadSideUnit"

end StationType

/-- The address of a station. -/
structure Address where
  /-- The manual bit, five bits of station type and two reserved bits. -/
  kind : UInt8 := 0
  reserved : UInt8 := 0
  mac : MacAddress := {}
deriving DecidableEq, Repr, Inhabited

namespace Address

/-- The address of a station of the given type, with the reserved bits clear. -/
def make (manual : Bool) (station : StationType) (mac : MacAddress) : Address where
  kind := UInt8.ofNat ((if manual then 128 else 0) + 4 * station.code.toNat)
  mac := mac

/-- Whether the address was configured by hand. -/
def isManual (a : Address) : Bool := 128 ≤ a.kind

/-- What the address says of its station. -/
def station (a : Address) : StationType := .ofCode (a.kind / 4)

/-- The eight bytes of an address. -/
def toBytes (a : Address) : Bytes := a.kind :: a.reserved :: a.mac.toBytes

/-- Takes eight bytes. -/
def read : Reader Address := do
  let kind ← Reader.octet
  let reserved ← Reader.octet
  let mac ← MacAddress.read
  return ⟨kind, reserved, mac⟩

/-- The address that exactly eight bytes stand for. -/
def ofBytes? (bytes : Bytes) : Option Address :=
  match read bytes with
  | some (a, []) => some a
  | _ => none

/-- Addresses in the order of their bytes. -/
instance : Ord Address where
  compare a b := compare a.toBytes b.toBytes

/-- A station is shown by its link address. -/
def text (a : Address) : String := a.mac.text

/-- All eight bytes in hexadecimal. -/
def toHex (a : Address) : String := Bytes.toHex a.toBytes

theorem read_append (a : Address) (rest : Bytes) : read (a.toBytes ++ rest) = some (a, rest) := rfl

end Address

end Geocast
