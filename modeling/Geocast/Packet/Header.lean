import Geocast.Lifetime
import Geocast.Packet.Error

/-!
# Basic and common headers

Every packet opens with a basic header of four bytes, which says how the rest is protected and
how long and how far the packet may still travel, and, if it is not secured, a common header of
eight bytes, which says what the packet is. Reserved bits are written as zero and not looked at
when read.
-/

namespace Geocast

/-- What follows the basic header. -/
inductive BasicNext
  | any | common | secured
deriving DecidableEq, Repr, Inhabited

namespace BasicNext

/-- The four-bit code. -/
def code : BasicNext → UInt8
  | any => 0
  | common => 1
  | secured => 2

/-- What a code says of the bytes after the basic header. -/
def ofCode (n : UInt8) : Except PacketError BasicNext :=
  match n.toNat with
  | 0 => .ok any
  | 1 => .ok common
  | 2 => .ok secured
  | _ => .error (.invalidBasicNext n)

/-- The name of the protection. -/
def name : BasicNext → String
  | any => "Any"
  | common => "Common"
  | secured => "Secured"

end BasicNext

/-- The protocol of the payload. -/
inductive CommonNext
  | any | btpA | btpB | ipv6
deriving DecidableEq, Repr, Inhabited

namespace CommonNext

/-- The four-bit code. -/
def code : CommonNext → UInt8
  | any => 0
  | btpA => 1
  | btpB => 2
  | ipv6 => 3

/-- The payload protocol of a code. -/
def ofCode (n : UInt8) : Except PacketError CommonNext :=
  match n.toNat with
  | 0 => .ok any
  | 1 => .ok btpA
  | 2 => .ok btpB
  | 3 => .ok ipv6
  | _ => .error (.invalidCommonNext n)

/-- The name of the payload protocol. -/
def name : CommonNext → String
  | any => "Any"
  | btpA => "BtpA"
  | btpB => "BtpB"
  | ipv6 => "Ipv6"

end CommonNext

/-- How a packet is to be treated on its way: a store-carry-forward bit, a channel-offload bit
and six bits that name the class. -/
structure TrafficClass where
  raw : UInt8 := 0
deriving DecidableEq, Repr, Inhabited

namespace TrafficClass

/-- The class with the given bits; of the name only the low six bits count. -/
def make (storeCarryForward offload : Bool) (id : UInt8) : TrafficClass :=
  ⟨UInt8.ofNat ((if storeCarryForward then 128 else 0) + (if offload then 64 else 0) +
    id.toNat % 64)⟩

/-- Whether a packet without a way forward is to be kept until there is one. -/
def storeCarryForward (c : TrafficClass) : Bool := 128 ≤ c.raw

/-- Whether a packet may move to another channel. -/
def offload (c : TrafficClass) : Bool := 64 ≤ c.raw % 128

/-- The name of the class. -/
def id (c : TrafficClass) : UInt8 := c.raw % 64

end TrafficClass

/-- The header that every packet opens with. -/
structure BasicHeader where
  version : UInt8 := 1
  next : BasicNext := .common
  lifetime : Lifetime := {}
  remainingHops : UInt8 := 0
deriving DecidableEq, Repr, Inhabited

namespace BasicHeader

/-- The length of the encoding. -/
def size : Nat := 4

/-- The newest protocol version that is understood. -/
def maxVersion : UInt8 := 1

/-- Version and next header, a reserved byte, lifetime, remaining hop limit. -/
def toBytes (h : BasicHeader) : Bytes :=
  [h.version * 16 + h.next.code, 0, h.lifetime.raw, h.remainingHops]

/-- The basic header at the front of a byte string. -/
def decode (bytes : Bytes) : Except PacketError BasicHeader :=
  match bytes with
  | first :: _ :: lifetime :: hops :: _ =>
    if maxVersion < first / 16 then .error (.unsupportedVersion (first / 16))
    else match BasicNext.ofCode (first % 16) with
      | .error e => .error e
      | .ok next => .ok ⟨first / 16, next, ⟨lifetime⟩, hops⟩
  | _ => .error (.tooShort size bytes.length)

end BasicHeader

/-- The header that says what a packet is. -/
structure CommonHeader where
  next : CommonNext := .any
  type : PacketType := .any
  trafficClass : TrafficClass := {}
  mobile : Bool := false
  payloadLength : UInt16 := 0
  maxHops : UInt8 := 0
deriving DecidableEq, Repr, Inhabited

namespace CommonHeader

/-- The length of the encoding. -/
def size : Nat := 8

/-- Next header, packet type, traffic class, mobile flag, payload length, maximum hop limit, a
reserved byte. -/
def toBytes (h : CommonHeader) : Bytes :=
  [h.next.code * 16, h.type.codes.1 * 16 + h.type.codes.2, h.trafficClass.raw,
    if h.mobile then 128 else 0] ++ Bytes.ofUInt16 h.payloadLength ++ [h.maxHops, 0]

/-- The common header at the front of a byte string. -/
def decode (bytes : Bytes) : Except PacketError CommonHeader :=
  match bytes with
  | next :: type :: trafficClass :: flags :: high :: low :: hops :: _ :: _ =>
    match CommonNext.ofCode (next / 16) with
    | .error e => .error e
    | .ok next =>
      match PacketType.ofCodes (type / 16) (type % 16) with
      | .error e => .error e
      | .ok type => .ok {
          next, type
          trafficClass := ⟨trafficClass⟩
          mobile := 128 ≤ flags
          payloadLength := UInt16.ofNat (256 * high.toNat + low.toNat)
          maxHops := hops }
  | _ => .error (.tooShort size bytes.length)

end CommonHeader

end Geocast
