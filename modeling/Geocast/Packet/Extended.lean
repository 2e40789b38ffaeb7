import Geocast.Packet.Header

/-!
# Extended headers

Behind the common header stands the part that differs from type to type: who sent the packet,
under which number, and where it is meant to go. A header `fits` a packet type when its layout
is the one the type calls for; for an area the shape is part of the type.
-/

namespace Geocast

/-- The header of a packet for one station, and of the answer to a location request. -/
structure UnicastHeader where
  sequence : SequenceNumber := {}
  source : LongPosition := {}
  destination : ShortPosition := {}
deriving DecidableEq, Repr, Inhabited

/-- The header of a packet for an area. -/
structure AreaHeader where
  sequence : SequenceNumber := {}
  source : LongPosition := {}
  area : Area := {}
deriving DecidableEq, Repr, Inhabited

/-- The header of a packet for whoever hears it directly. -/
structure SingleHopHeader where
  source : LongPosition := {}
  mediaDependent : UInt32 := 0
deriving DecidableEq, Repr, Inhabited

/-- The header of a packet for everybody within some hops. -/
structure TopologicalHeader where
  sequence : SequenceNumber := {}
  source : LongPosition := {}
deriving DecidableEq, Repr, Inhabited

/-- The header of a question for the position of a station. -/
structure LocationRequestHeader where
  sequence : SequenceNumber := {}
  source : LongPosition := {}
  requested : Address := {}
deriving DecidableEq, Repr, Inhabited

/-- The part of a packet that depends on its type. -/
inductive Extended
  | any
  | beacon (source : LongPosition)
  | unicast (header : UnicastHeader)
  | area (header : AreaHeader)
  | singleHop (header : SingleHopHeader)
  | topological (header : TopologicalHeader)
  | locationRequest (header : LocationRequestHeader)
deriving DecidableEq, Repr, Inhabited

namespace Extended

/-- Whether the layout is the one that a packet type calls for. -/
def fits : Extended → PacketType → Bool
  | any, .any => true
  | beacon _, .beacon => true
  | unicast _, .geoUnicast => true
  | unicast _, .locationReply => true
  | area h, .geoAnycast s => h.area.shape == s
  | area h, .geoBroadcast s => h.area.shape == s
  | singleHop _, .singleHopBroadcast => true
  | topological _, .topologicalBroadcast => true
  | locationRequest _, .locationRequest => true
  | _, _ => false

/-- The length of the encoding. -/
def size : Extended → Nat
  | any => 0
  | beacon _ => 24
  | unicast _ => 48
  | area _ => 46
  | singleHop _ => 28
  | topological _ => 28
  | locationRequest _ => 36

/-- The length that the extended header of a packet type has. -/
def sizeOf : PacketType → Nat
  | .any => 0
  | .beacon => 24
  | .geoUnicast | .locationReply => 48
  | .geoAnycast _ | .geoBroadcast _ => 46
  | .singleHopBroadcast => 28
  | .topologicalBroadcast => 28
  | .locationRequest => 36

/-- The station that sent the packet first. -/
def source? : Extended → Option LongPosition
  | any => none
  | beacon source => some source
  | unicast h => some h.source
  | area h => some h.source
  | singleHop h => some h.source
  | topological h => some h.source
  | locationRequest h => some h.source

/-- The number that the source gave the packet. -/
def sequence? : Extended → Option SequenceNumber
  | unicast h => some h.sequence
  | area h => some h.sequence
  | topological h => some h.sequence
  | locationRequest h => some h.sequence
  | _ => none

/-- The encoding; gaps are reserved bytes. -/
def toBytes : Extended → Bytes
  | any => []
  | beacon source => source.toBytes
  | unicast h =>
    Bytes.ofUInt16 h.sequence.value ++ [0, 0] ++ h.source.toBytes ++ h.destination.toBytes
  | area h =>
    Bytes.ofUInt16 h.sequence.value ++ [0, 0, 0, 0] ++ h.source.toBytes ++
      h.area.centre.toBytes ++ Bytes.ofUInt16 h.area.a ++ Bytes.ofUInt16 h.area.b ++
      Bytes.ofUInt16 h.area.angle ++ [0, 0]
  | singleHop h => h.source.toBytes ++ Bytes.ofUInt32 h.mediaDependent
  | topological h => Bytes.ofUInt16 h.sequence.value ++ [0, 0] ++ h.source.toBytes
  | locationRequest h =>
    Bytes.ofUInt16 h.sequence.value ++ [0, 0] ++ h.source.toBytes ++ h.requested.toBytes

/-- Takes a sequence number and the reserved bytes behind it. -/
def readSequence (gap : Nat) : Reader SequenceNumber := do
  let value ← Reader.uint16
  Reader.skip gap
  return ⟨value⟩

/-- Takes the header of an area packet, whose shape the packet type has already told. -/
def readArea (shape : Shape) : Reader { h : AreaHeader // h.area.shape = shape } := do
  let sequence ← readSequence 4
  let source ← LongPosition.read
  let centre ← Point.read
  let a ← Reader.uint16
  let b ← Reader.uint16
  let angle ← Reader.uint16
  Reader.skip 2
  return ⟨{ sequence, source, area := { centre, a, b, angle, shape } }, rfl⟩

/-- Takes the header of a packet for one station. -/
def readUnicast : Reader UnicastHeader := do
  let sequence ← readSequence 2
  let source ← LongPosition.read
  let destination ← ShortPosition.read
  return { sequence, source, destination }

/-- Takes the extended header that a packet type calls for. -/
def read : (type : PacketType) → Reader { e : Extended // e.fits type = true }
  | .any => return ⟨any, rfl⟩
  | .beacon => return ⟨beacon (← LongPosition.read), rfl⟩
  | .geoUnicast => return ⟨unicast (← readUnicast), rfl⟩
  | .locationReply => return ⟨unicast (← readUnicast), rfl⟩
  | .geoAnycast shape => do
    let ⟨header, shape_eq⟩ ← readArea shape
    return ⟨area header, by simp [fits, shape_eq]⟩
  | .geoBroadcast shape => do
    let ⟨header, shape_eq⟩ ← readArea shape
    return ⟨area header, by simp [fits, shape_eq]⟩
  | .singleHopBroadcast => do
    let source ← LongPosition.read
    let mediaDependent ← Reader.uint32
    return ⟨singleHop { source, mediaDependent }, rfl⟩
  | .topologicalBroadcast => do
    let sequence ← readSequence 2
    let source ← LongPosition.read
    return ⟨topological { sequence, source }, rfl⟩
  | .locationRequest => do
    let sequence ← readSequence 2
    let source ← LongPosition.read
    let requested ← Address.read
    return ⟨locationRequest { sequence, source, requested }, rfl⟩

end Extended

end Geocast
