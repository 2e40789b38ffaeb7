import Geocast.Packet.Extended

/-!
# Packets

A packet is a basic header, a common header, the extended header that its type calls for, and a
payload whose length the common header declares. `decode` reports the first rule that a frame
breaks, from the front to the back, and takes no notice of bytes behind the declared payload.
-/

namespace Geocast

/-- A packet whose headers agree with each other and with the payload. -/
structure Packet where
  basic : BasicHeader
  common : CommonHeader
  extended : Extended
  payload : Bytes
  /-- The extended header is the one that the packet type calls for. -/
  fits : extended.fits common.type = true
  /-- The common header declares the length of the payload. -/
  declared : common.payloadLength.toNat = payload.length
deriving DecidableEq, Repr

namespace Packet

/-- The longest payload that a packet can carry. -/
def maxPayload : Nat := 65535

/-- The length of the two headers that every packet has. -/
def fixedSize : Nat := BasicHeader.size + CommonHeader.size

/-- The length of all headers. -/
def headerSize (p : Packet) : Nat := fixedSize + p.extended.size

/-- The station that sent the packet first. -/
def source? (p : Packet) : Option LongPosition := p.extended.source?

/-- The number that the source gave the packet. -/
def sequence? (p : Packet) : Option SequenceNumber := p.extended.sequence?

/-- Which number a packet has is told by its extended header. -/
theorem sequence?_eq {p : Packet} {e : Extended} (h : p.extended = e) :
    p.sequence? = e.sequence? :=
  congrArg Extended.sequence? h

/-- The packet of fitting headers and a payload that is not too long; the declared length is set
to that of the payload. -/
def ofParts (basic : BasicHeader) (common : CommonHeader) (extended : Extended) (payload : Bytes)
    (fits : extended.fits common.type = true) (small : payload.length ≤ maxPayload) : Packet where
  basic := basic
  common := { common with payloadLength := UInt16.ofNat payload.length }
  extended := extended
  payload := payload
  fits := fits
  declared := by
    simp only [maxPayload] at small
    simp only [UInt16.toNat_ofNat', Nat.reducePow]
    omega

/-- Puts headers and payload together, if they can make a packet. -/
def assemble (basic : BasicHeader) (common : CommonHeader) (extended : Extended)
    (payload : Bytes) : Except PacketError Packet :=
  if small : payload.length ≤ maxPayload then
    if fits : extended.fits common.type = true then
      .ok (ofParts basic common extended payload fits small)
    else .error (.headerMismatch common.type)
  else .error (.payloadTooLarge payload.length)

/-- The frame of a packet. -/
def encode (p : Packet) : Bytes :=
  p.basic.toBytes ++ p.common.toBytes ++ p.extended.toBytes ++ p.payload

/-- Reads everything behind the common header. -/
def decodeBody (basic : BasicHeader) (common : CommonHeader) (bytes : Bytes) :
    Except PacketError Packet :=
  match Extended.read common.type bytes with
  | none => .error (.tooShort (Extended.sizeOf common.type) bytes.length)
  | some (⟨extended, fits⟩, rest) =>
    if enough : common.payloadLength.toNat ≤ rest.length then
      .ok {
        basic, common, extended, fits
        payload := rest.take common.payloadLength.toNat
        declared := by simp only [List.length_take]; omega }
    else .error (.payloadLengthMismatch common.payloadLength.toNat rest.length)

/-- Reads a frame. -/
def decode (bytes : Bytes) : Except PacketError Packet :=
  match BasicHeader.decode bytes with
  | .error e => .error e
  | .ok basic =>
    if basic.next = .secured then .error .securedUnsupported
    else match CommonHeader.decode (bytes.drop BasicHeader.size) with
      | .error e => .error e
      | .ok common =>
        if common.maxHops < basic.remainingHops then
          .error (.hopLimitMismatch basic.remainingHops common.maxHops)
        else decodeBody basic common (bytes.drop fixedSize)

/-- The same packet with another lifetime. -/
def withLifetime (p : Packet) (lifetime : Lifetime) : Packet :=
  { p with basic := { p.basic with lifetime } }

/-- The same packet one hop further on. -/
def relayed (p : Packet) : Packet :=
  { p with basic := { p.basic with remainingHops := p.basic.remainingHops - 1 } }

/-- The same packet for one station, with what is now known of where that station is. -/
def withDestination (p : Packet) (h : UnicastHeader) (is_unicast : p.extended = .unicast h)
    (destination : ShortPosition) : Packet :=
  { p with
    extended := .unicast { h with destination }
    fits := by
      have fits := p.fits
      rw [is_unicast] at fits
      cases type_eq : p.common.type <;> rw [type_eq] at fits <;> simp_all [Extended.fits] }

end Packet

end Geocast
