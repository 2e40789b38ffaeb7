import Geocast.Position

/-!
# Packet types and what can be wrong with a packet

The type of a packet decides the layout of its extended header. A type travels as two four-bit
codes, of which the second holds the shape of an area or tells two related types apart. Every
way in which a frame can fail to be a packet is a cause of its own.
-/

namespace Geocast

/-- What kind of packet a frame is. -/
inductive PacketType
  | any
  | beacon
  | geoUnicast
  | geoAnycast (shape : Shape)
  | geoBroadcast (shape : Shape)
  | singleHopBroadcast
  | topologicalBroadcast
  | locationRequest
  | locationReply
deriving DecidableEq, Repr, Inhabited

namespace PacketType

/-- The name of a packet type, with the shape of its area. -/
def name : PacketType → String
  | any => "Any"
  | beacon => "Beacon"
  | geoUnicast => "GeoUnicast"
  | geoAnycast s => "GeoAnycast(" ++ s.name ++ ")"
  | geoBroadcast s => "GeoBroadcast(" ++ s.name ++ ")"
  | singleHopBroadcast => "SingleHopBroadcast"
  | topologicalBroadcast => "TopologicallyScopedBroadcast"
  | locationRequest => "LocationServiceRequest"
  | locationReply => "LocationServiceReply"

/-- The two codes of a packet type. -/
def codes : PacketType → UInt8 × UInt8
  | any => (0, 0)
  | beacon => (1, 0)
  | geoUnicast => (2, 0)
  | geoAnycast s => (3, s.code)
  | geoBroadcast s => (4, s.code)
  | singleHopBroadcast => (5, 0)
  | topologicalBroadcast => (5, 1)
  | locationRequest => (6, 0)
  | locationReply => (6, 1)

/-- Whether packets of this type may be relayed. -/
def isMultiHop : PacketType → Bool
  | any | beacon | singleHopBroadcast => false
  | _ => true

end PacketType

/-- Why bytes or headers do not make a packet. -/
inductive PacketError
  | tooShort (needed actual : Nat)
  | unsupportedVersion (version : UInt8)
  | invalidBasicNext (code : UInt8)
  | invalidCommonNext (code : UInt8)
  | invalidType (code : UInt8)
  | invalidSubtype (code subtype : UInt8)
  | hopLimitMismatch (remaining max : UInt8)
  | payloadLengthMismatch (declared available : Nat)
  | securedUnsupported
  | headerMismatch (type : PacketType)
  | payloadTooLarge (size : Nat)
deriving DecidableEq, Repr, Inhabited

namespace PacketError

/-- The text of a packet error. -/
def message : PacketError → String
  | tooShort needed actual => s!"Packet too short: {actual} bytes (need {needed})"
  | unsupportedVersion v => s!"Unsupported protocol version: {v}"
  | invalidBasicNext n => s!"Invalid basic header next header: {n}"
  | invalidCommonNext n => s!"Invalid common header next header: {n}"
  | invalidType n => s!"Invalid header type: {n}"
  | invalidSubtype n s => s!"Invalid header subtype {s} for header type {n}"
  | hopLimitMismatch r m => s!"Remaining hop limit {r} exceeds maximum hop limit {m}"
  | payloadLengthMismatch d a => s!"Payload length {d} exceeds available {a} bytes"
  | securedUnsupported => "Secured packets are not supported"
  | headerMismatch t => "Extended header does not match header type " ++ t.name
  | payloadTooLarge n => s!"Payload too large: {n} bytes (max: 65535)"

end PacketError

namespace PacketType

/-- The packet type of two codes. -/
def ofCodes (code subtype : UInt8) : Except PacketError PacketType :=
  match code.toNat, subtype.toNat with
  | 0, 0 => .ok any
  | 1, 0 => .ok beacon
  | 2, 0 => .ok geoUnicast
  | 3, s => ((Shape.ofCode? s).map geoAnycast).elim (.error (.invalidSubtype code subtype)) .ok
  | 4, s => ((Shape.ofCode? s).map geoBroadcast).elim (.error (.invalidSubtype code subtype)) .ok
  | 5, 0 => .ok singleHopBroadcast
  | 5, 1 => .ok topologicalBroadcast
  | 6, 0 => .ok locationRequest
  | 6, 1 => .ok locationReply
  | n, _ => .error (if n ≤ 6 then .invalidSubtype code subtype else .invalidType code)

theorem ofCodes_codes (t : PacketType) : ofCodes t.codes.1 t.codes.2 = .ok t := by
  cases t with
  | geoAnycast s => cases s <;> rfl
  | geoBroadcast s => cases s <;> rfl
  | _ => rfl

end PacketType

/-- The short position vector at the front of a byte string. -/
def ShortPosition.decode (bytes : Bytes) : Except PacketError ShortPosition :=
  match ShortPosition.read bytes with
  | some (v, _) => .ok v
  | none => .error (.tooShort ShortPosition.size bytes.length)

/-- The long position vector at the front of a byte string. -/
def LongPosition.decode (bytes : Bytes) : Except PacketError LongPosition :=
  match LongPosition.read bytes with
  | some (v, _) => .ok v
  | none => .error (.tooShort LongPosition.size bytes.length)

end Geocast
