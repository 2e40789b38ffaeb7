import Geocast.Proofs.Packet.Framing

/-!
# Reaching into a frame

`Packet.decode` takes a frame apart from the front and cannot reach past its end. The decoder here
does the same as one that goes to positions does: it looks at the length of what it was given, then
takes bytes, tails and slices of it by their positions, and subtracts lengths. Each of these can
reach outside, and then that is what comes of it, whatever stood elsewhere.

It never does: on every byte string the two come to the same (`Access.decode_eq`). For each field it
is shown that where there are enough bytes, what stands at the position is what a reader takes that
has come there. The lengths that are looked at are those that the fields behind them need.
-/

namespace Geocast

/-- What comes of reaching into a byte string: a value, a refusal, or it was reached outside. -/
inductive Access (α : Type)
  | value (x : α)
  | refused (e : PacketError)
  | outside
deriving DecidableEq, Repr

namespace Access

variable {α β : Type}

/-- Goes on with a value if there is one. -/
protected def bind : Access α → (α → Access β) → Access β
  | value x, f => f x
  | refused e, _ => refused e
  | outside, _ => outside

instance : Monad Access where
  pure := value
  bind := Access.bind

@[simp] theorem value_bind (x : α) (f : α → Access β) : value x >>= f = f x := rfl

@[simp] theorem refused_bind (e : PacketError) (f : α → Access β) : refused e >>= f = refused e :=
  rfl

@[simp] theorem pure_eq (x : α) : (pure x : Access α) = value x := rfl

/-- What comes of reading without positions. -/
def ofExcept : Except PacketError α → Access α
  | .ok x => value x
  | .error e => refused e

/-- Reading without positions reaches nowhere. -/
theorem ofExcept_ne_outside (x : Except PacketError α) : ofExcept x ≠ outside := by
  cases x <;> simp [ofExcept]

/-! ## Bytes, tails, slices and differences -/

/-- The byte at a position. -/
def octet (bytes : Bytes) (i : Nat) : Access UInt8 :=
  if h : i < bytes.length then value bytes[i] else outside

/-- What stands from a position on. -/
def tail (bytes : Bytes) (i : Nat) : Access Bytes :=
  if i ≤ bytes.length then value (bytes.drop i) else outside

/-- What stands between two positions. -/
def slice (bytes : Bytes) (i j : Nat) : Access Bytes :=
  if i ≤ j ∧ j ≤ bytes.length then value ((bytes.drop i).take (j - i)) else outside

/-- By how much one length is greater than another. -/
def minus (a b : Nat) : Access Nat := if b ≤ a then value (a - b) else outside

/-- Looks whether there are as many bytes as needed. -/
def ensure (bytes : Bytes) (needed : Nat) : Access Unit :=
  if bytes.length < needed then refused (.tooShort needed bytes.length) else value ()

/-- Where there are enough bytes no refusal comes. -/
theorem ensure_of_le {bytes : Bytes} {needed : Nat} (h : needed ≤ bytes.length) :
    ensure bytes needed = value () := if_neg (Nat.not_lt.mpr h)

/-- From a position within the bytes on, there is a rest. -/
theorem tail_of_le {bytes : Bytes} {i : Nat} (h : i ≤ bytes.length) :
    tail bytes i = value (bytes.drop i) := if_pos h

/-! ## Fields -/

/-- The 16-bit number at a position. -/
def uint16 (bytes : Bytes) (i : Nat) : Access UInt16 := do
  let a ← octet bytes i
  let b ← octet bytes (i + 1)
  return UInt16.ofNat (256 * a.toNat + b.toNat)

/-- The 32-bit number at a position. -/
def uint32 (bytes : Bytes) (i : Nat) : Access UInt32 := do
  let a ← octet bytes i
  let b ← octet bytes (i + 1)
  let c ← octet bytes (i + 2)
  let d ← octet bytes (i + 3)
  return UInt32.ofNat (16777216 * a.toNat + 65536 * b.toNat + 256 * c.toNat + d.toNat)

/-- The signed 32-bit number at a position. -/
def int32 (bytes : Bytes) (i : Nat) : Access Int32 := do
  let n ← uint32 bytes i
  return n.toInt32

/-- The address at the front, for which there must be exactly eight bytes. -/
def address (bytes : Bytes) : Access Address := do
  let octets ← slice bytes 0 8
  (Address.ofBytes? octets).elim outside value

/-- The long position vector at the front. -/
def longPosition (bytes : Bytes) : Access LongPosition := do
  ensure bytes LongPosition.size
  let address ← address bytes
  let millis ← uint32 bytes 8
  let latitude ← int32 bytes 12
  let longitude ← int32 bytes 16
  let motion ← uint16 bytes 20
  let heading ← uint16 bytes 22
  return {
    address, timestamp := ⟨millis⟩, point := ⟨latitude, longitude⟩, heading
    accurate := 32768 ≤ motion
    speed := LongPosition.speedOf motion }

/-- The short position vector at the front. -/
def shortPosition (bytes : Bytes) : Access ShortPosition := do
  ensure bytes ShortPosition.size
  let address ← address bytes
  let millis ← uint32 bytes 8
  let latitude ← int32 bytes 12
  let longitude ← int32 bytes 16
  return ⟨address, ⟨millis⟩, ⟨latitude, longitude⟩⟩

/-! ## Headers -/

/-- The basic header at the front. -/
def basicHeader (bytes : Bytes) : Access BasicHeader := do
  ensure bytes BasicHeader.size
  let first ← octet bytes 0
  if BasicHeader.maxVersion < first / 16 then refused (.unsupportedVersion (first / 16))
  else do
    let next ← ofExcept (BasicNext.ofCode (first % 16))
    let lifetime ← octet bytes 2
    let hops ← octet bytes 3
    return ⟨first / 16, next, ⟨lifetime⟩, hops⟩

/-- The common header at the front. -/
def commonHeader (bytes : Bytes) : Access CommonHeader := do
  ensure bytes CommonHeader.size
  let first ← octet bytes 0
  let next ← ofExcept (CommonNext.ofCode (first / 16))
  let second ← octet bytes 1
  let type ← ofExcept (PacketType.ofCodes (second / 16) (second % 16))
  let trafficClass ← octet bytes 2
  let flags ← octet bytes 3
  let payloadLength ← uint16 bytes 4
  let maxHops ← octet bytes 6
  return { next, type, trafficClass := ⟨trafficClass⟩, mobile := 128 ≤ flags, payloadLength, maxHops }

/-- The header of a packet for one station. -/
def unicastHeader (bytes : Bytes) : Access Extended := do
  ensure bytes 48
  let sequence ← uint16 bytes 0
  let source ← longPosition (← tail bytes 4)
  let destination ← shortPosition (← tail bytes 28)
  return .unicast { sequence := ⟨sequence⟩, source, destination }

/-- The header of a packet for an area of the given shape. -/
def areaHeader (shape : Shape) (bytes : Bytes) : Access Extended := do
  ensure bytes 46
  let source ← longPosition (← tail bytes 6)
  let sequence ← uint16 bytes 0
  let latitude ← int32 bytes 30
  let longitude ← int32 bytes 34
  let a ← uint16 bytes 38
  let b ← uint16 bytes 40
  let angle ← uint16 bytes 42
  return .area {
    sequence := ⟨sequence⟩, source
    area := { centre := ⟨latitude, longitude⟩, a, b, angle, shape } }

/-- The extended header that a packet type calls for. -/
def extended : PacketType → Bytes → Access Extended
  | .any, _ => return .any
  | .beacon, bytes => do
    ensure bytes 24
    return .beacon (← longPosition bytes)
  | .geoUnicast, bytes | .locationReply, bytes => unicastHeader bytes
  | .geoAnycast shape, bytes | .geoBroadcast shape, bytes => areaHeader shape bytes
  | .singleHopBroadcast, bytes => do
    ensure bytes 28
    let source ← longPosition bytes
    let mediaDependent ← uint32 bytes 24
    return .singleHop { source, mediaDependent }
  | .topologicalBroadcast, bytes => do
    ensure bytes 28
    let sequence ← uint16 bytes 0
    let source ← longPosition (← tail bytes 4)
    return .topological { sequence := ⟨sequence⟩, source }
  | .locationRequest, bytes => do
    ensure bytes 36
    let sequence ← uint16 bytes 0
    let source ← longPosition (← tail bytes 4)
    let requested ← address (← tail bytes 28)
    return .locationRequest { sequence := ⟨sequence⟩, source, requested }

/-- The extended header, and as much of the bytes behind it as the common header declares. -/
def body (type : PacketType) (declared : Nat) (frame : Bytes) : Access (Extended × Bytes) := do
  let extended ← extended type (← tail frame Packet.fixedSize)
  let available ← minus frame.length (Packet.fixedSize + extended.size)
  if available < declared then refused (.payloadLengthMismatch declared available)
  else do
    let payload ← slice frame (Packet.fixedSize + extended.size)
      (Packet.fixedSize + extended.size + declared)
    return (extended, payload)

/-- The parts of the packet of a frame. -/
def decode (frame : Bytes) : Access (BasicHeader × CommonHeader × Extended × Bytes) := do
  let basic ← basicHeader frame
  if basic.next = .secured then refused .securedUnsupported
  else do
    let common ← commonHeader (← tail frame BasicHeader.size)
    if common.maxHops < basic.remainingHops then
      refused (.hopLimitMismatch basic.remainingHops common.maxHops)
    else do
      let rest ← body common.type common.payloadLength.toNat frame
      return (basic, common, rest)

/-! ## What stands at a position -/

/-- Where there are enough bytes, what is taken from a position is what a reader takes there, and
the reader leaves what stands behind it. -/
def Finds (size : Nat) (read : Reader α) (reach : Bytes → Nat → Access α) : Prop :=
  ∀ bytes i, i + size ≤ bytes.length →
    ∃ x, reach bytes i = value x ∧ read (bytes.drop i) = some (x, bytes.drop (i + size))

/-- A byte is found at its position. -/
theorem finds_octet : Finds 1 Reader.octet octet := by
  intro bytes i h
  refine ⟨bytes[i], dif_pos (by omega), ?_⟩
  rw [List.drop_eq_getElem_cons (by omega)]
  rfl

/-- So is a number of two bytes. -/
theorem finds_uint16 : Finds 2 Reader.uint16 uint16 := by
  intro bytes i h
  obtain ⟨a, ha, ha'⟩ := finds_octet bytes i (by omega)
  obtain ⟨b, hb, hb'⟩ := finds_octet bytes (i + 1) (by omega)
  simp only [uint16, ha, hb, value_bind, pure_eq, Reader.uint16, Reader.bind_apply,
    Reader.pure_apply, ha', hb', Option.bind_some]
  exact ⟨_, rfl, rfl⟩

/-- And one of four. -/
theorem finds_uint32 : Finds 4 Reader.uint32 uint32 := by
  intro bytes i h
  obtain ⟨a, ha, ha'⟩ := finds_octet bytes i (by omega)
  obtain ⟨b, hb, hb'⟩ := finds_octet bytes (i + 1) (by omega)
  obtain ⟨c, hc, hc'⟩ := finds_octet bytes (i + 2) (by omega)
  obtain ⟨d, hd, hd'⟩ := finds_octet bytes (i + 3) (by omega)
  simp only [uint32, ha, hb, hc, hd, value_bind, pure_eq, Reader.uint32, Reader.bind_apply,
    Reader.pure_apply, ha', hb', hc', hd', Option.bind_some]
  exact ⟨_, rfl, rfl⟩

/-- And a signed one. -/
theorem finds_int32 : Finds 4 Reader.int32 int32 := by
  intro bytes i h
  obtain ⟨n, hn, hn'⟩ := finds_uint32 bytes i h
  simp only [int32, hn, value_bind, pure_eq, Reader.int32, Reader.bind_apply, Reader.pure_apply,
    hn', Option.bind_some]
  exact ⟨_, rfl, rfl⟩

/-- What is taken from the front of enough bytes is what a reader takes there. -/
def Fills (size : Nat) (read : Reader α) (reach : Bytes → Access α) : Prop :=
  ∀ bytes, size ≤ bytes.length →
    ∃ x, reach bytes = value x ∧ read bytes = some (x, bytes.drop size)

/-- What is taken from the front of a tail stands where the tail begins. -/
theorem Fills.behind {size : Nat} {read : Reader α} {reach : Bytes → Access α}
    (h : Fills size read reach) {bytes : Bytes} {i : Nat} (hlong : i + size ≤ bytes.length) :
    ∃ x, (tail bytes i = value (bytes.drop i) ∧ reach (bytes.drop i) = value x) ∧
      read (bytes.drop i) = some (x, bytes.drop (i + size)) := by
  obtain ⟨x, hx, hx'⟩ := h (bytes.drop i) (by rw [List.length_drop]; omega)
  rw [List.drop_drop] at hx'
  exact ⟨x, ⟨tail_of_le (by omega), hx⟩, hx'⟩

/-- A reader can pass over what is there. -/
theorem reader_skip {n : Nat} {bytes : Bytes} (h : n ≤ bytes.length) :
    Reader.skip n bytes = some ((), bytes.drop n) := by
  have hskip := Reader.skip_append (bytes.take n) (bytes.drop n)
  rwa [List.length_take, Nat.min_eq_left h, List.take_append_drop] at hskip

/-- A packet number is found in front of its reserved bytes. -/
theorem finds_sequence (gap : Nat) {bytes : Bytes} (h : 2 + gap ≤ bytes.length) :
    ∃ n, uint16 bytes 0 = value n ∧
      Extended.readSequence gap bytes = some (⟨n⟩, bytes.drop (2 + gap)) := by
  obtain ⟨n, hn, hn'⟩ := finds_uint16 bytes 0 (by omega)
  have hskip : Reader.skip gap (bytes.drop 2) = some ((), bytes.drop (2 + gap)) := by
    rw [reader_skip (by rw [List.length_drop]; omega), List.drop_drop]
  rw [List.drop_zero, Nat.zero_add] at hn'
  simp only [Extended.readSequence, hn, hn', hskip, Reader.bind_apply, Reader.pure_apply,
    Option.bind_some]
  exact ⟨n, rfl, rfl⟩

/-- Eight bytes are an address. -/
theorem fills_address : Fills 8 Address.read address := by
  intro bytes h
  have hslice : slice bytes 0 8 = value (bytes.take 8) := if_pos ⟨by omega, h⟩
  match bytes, h with
  | k :: r :: a :: b :: c :: d :: e :: f :: rest, _ =>
    simp only [address, hslice, value_bind]
    exact ⟨⟨k, r, ⟨a, b, c, d, e, f⟩⟩, rfl, rfl⟩

/-- Twenty-four bytes are a long position vector. -/
theorem fills_longPosition : Fills 24 LongPosition.read longPosition := by
  intro bytes h
  obtain ⟨address, ha, ha'⟩ := fills_address bytes (by omega)
  obtain ⟨millis, hm, hm'⟩ := finds_uint32 bytes 8 (by omega)
  obtain ⟨latitude, hlat, hlat'⟩ := finds_int32 bytes 12 (by omega)
  obtain ⟨longitude, hlon, hlon'⟩ := finds_int32 bytes 16 (by omega)
  obtain ⟨motion, hmotion, hmotion'⟩ := finds_uint16 bytes 20 (by omega)
  obtain ⟨heading, hheading, hheading'⟩ := finds_uint16 bytes 22 (by omega)
  simp only [longPosition, LongPosition.size, ensure_of_le h, ha, hm, hlat, hlon, hmotion,
    hheading, value_bind, pure_eq, LongPosition.read, Point.read, Reader.bind_apply,
    Reader.pure_apply, ha', hm', hlat', hlon', hmotion', hheading', Option.bind_some]
  exact ⟨_, rfl, rfl⟩

/-- Twenty are a short one. -/
theorem fills_shortPosition : Fills 20 ShortPosition.read shortPosition := by
  intro bytes h
  obtain ⟨address, ha, ha'⟩ := fills_address bytes (by omega)
  obtain ⟨millis, hm, hm'⟩ := finds_uint32 bytes 8 (by omega)
  obtain ⟨latitude, hlat, hlat'⟩ := finds_int32 bytes 12 (by omega)
  obtain ⟨longitude, hlon, hlon'⟩ := finds_int32 bytes 16 (by omega)
  simp only [shortPosition, ShortPosition.size, ensure_of_le h, ha, hm, hlat, hlon, value_bind,
    pure_eq, ShortPosition.read, Point.read, Reader.bind_apply, Reader.pure_apply, ha', hm',
    hlat', hlon', Option.bind_some]
  exact ⟨_, rfl, rfl⟩

/-! ## The extended header -/

/-- Forty-eight bytes hold the header of a packet for one station. -/
theorem fills_unicastHeader {bytes : Bytes} (h : 48 ≤ bytes.length) :
    ∃ u, unicastHeader bytes = value (.unicast u) ∧
      Extended.readUnicast bytes = some (u, bytes.drop 48) := by
  obtain ⟨sequence, hn, hn'⟩ := finds_sequence 2 (show 2 + 2 ≤ bytes.length by omega)
  obtain ⟨source, hs, hs'⟩ := fills_longPosition.behind (show 4 + 24 ≤ bytes.length by omega)
  obtain ⟨destination, hd, hd'⟩ :=
    fills_shortPosition.behind (show 28 + 20 ≤ bytes.length by omega)
  simp only [unicastHeader, ensure_of_le h, hn, hs, hd, value_bind, pure_eq, Extended.readUnicast,
    Reader.bind_apply, Reader.pure_apply, hn', hs', hd', Option.bind_some]
  exact ⟨_, rfl, rfl⟩

/-- Forty-six hold that of a packet for an area. -/
theorem fills_areaHeader (shape : Shape) {bytes : Bytes} (h : 46 ≤ bytes.length) :
    ∃ a : { a : AreaHeader // a.area.shape = shape }, areaHeader shape bytes = value (.area a.val) ∧
      Extended.readArea shape bytes = some (a, bytes.drop 46) := by
  obtain ⟨sequence, hn, hn'⟩ := finds_sequence 4 (show 2 + 4 ≤ bytes.length by omega)
  obtain ⟨source, hs, hs'⟩ := fills_longPosition.behind (show 6 + 24 ≤ bytes.length by omega)
  obtain ⟨latitude, hlat, hlat'⟩ := finds_int32 bytes 30 (by omega)
  obtain ⟨longitude, hlon, hlon'⟩ := finds_int32 bytes 34 (by omega)
  obtain ⟨a, ha, ha'⟩ := finds_uint16 bytes 38 (by omega)
  obtain ⟨b, hb, hb'⟩ := finds_uint16 bytes 40 (by omega)
  obtain ⟨angle, hangle, hangle'⟩ := finds_uint16 bytes 42 (by omega)
  have hgap : Reader.skip 2 (bytes.drop 44) = some ((), bytes.drop 46) := by
    rw [reader_skip (by rw [List.length_drop]; omega), List.drop_drop]
  simp only [areaHeader, ensure_of_le h, hn, hs, hlat, hlon, ha, hb, hangle, value_bind, pure_eq,
    Extended.readArea, Point.read, Reader.bind_apply, Reader.pure_apply, hn', hs', hlat', hlon',
    ha', hb', hangle', hgap, Option.bind_some]
  exact ⟨_, rfl, rfl⟩

/-- Of enough bytes the extended header is the one that is read. -/
theorem extended_of_le {type : PacketType} {bytes : Bytes}
    (h : Extended.sizeOf type ≤ bytes.length) :
    ∃ e : { e : Extended // e.fits type = true }, extended type bytes = value e.val ∧
      Extended.read type bytes = some (e, bytes.drop (Extended.sizeOf type)) := by
  -- each layout takes its fields from where those before it end
  cases type <;> simp only [Extended.sizeOf] at h ⊢
  case any => exact ⟨_, rfl, rfl⟩
  case beacon =>
    obtain ⟨source, hs, hs'⟩ := fills_longPosition bytes h
    simp only [extended, ensure_of_le h, hs, value_bind, pure_eq, Extended.read,
      Reader.bind_apply, Reader.pure_apply, hs', Option.bind_some]
    exact ⟨_, rfl, rfl⟩
  case geoUnicast | locationReply =>
    obtain ⟨u, hu, hu'⟩ := fills_unicastHeader h
    simp only [extended, hu, Extended.read, Reader.bind_apply, Reader.pure_apply, hu',
      Option.bind_some]
    exact ⟨_, rfl, rfl⟩
  case geoAnycast shape | geoBroadcast shape =>
    obtain ⟨a, ha, ha'⟩ := fills_areaHeader shape h
    simp only [extended, ha, Extended.read, Reader.bind_apply, Reader.pure_apply, ha',
      Option.bind_some]
    exact ⟨_, rfl, rfl⟩
  case singleHopBroadcast =>
    obtain ⟨source, hs, hs'⟩ := fills_longPosition bytes (show 24 ≤ bytes.length by omega)
    obtain ⟨data, hd, hd'⟩ := finds_uint32 bytes 24 (by omega)
    simp only [extended, ensure_of_le h, hs, hd, value_bind, pure_eq, Extended.read,
      Reader.bind_apply, Reader.pure_apply, hs', hd', Option.bind_some]
    exact ⟨_, rfl, rfl⟩
  case topologicalBroadcast =>
    obtain ⟨sequence, hn, hn'⟩ := finds_sequence 2 (show 2 + 2 ≤ bytes.length by omega)
    obtain ⟨source, hs, hs'⟩ := fills_longPosition.behind (show 4 + 24 ≤ bytes.length by omega)
    simp only [extended, ensure_of_le h, hn, hs, value_bind, pure_eq, Extended.read,
      Reader.bind_apply, Reader.pure_apply, hn', hs', Option.bind_some]
    exact ⟨_, rfl, rfl⟩
  case locationRequest =>
    obtain ⟨sequence, hn, hn'⟩ := finds_sequence 2 (show 2 + 2 ≤ bytes.length by omega)
    obtain ⟨source, hs, hs'⟩ := fills_longPosition.behind (show 4 + 24 ≤ bytes.length by omega)
    obtain ⟨requested, hr, hr'⟩ := fills_address.behind (show 28 + 8 ≤ bytes.length by omega)
    simp only [extended, ensure_of_le h, hn, hs, hr, value_bind, pure_eq, Extended.read,
      Reader.bind_apply, Reader.pure_apply, hn', hs', hr', Option.bind_some]
    exact ⟨_, rfl, rfl⟩

/-- An extended header is as long as the packet type says that it fits. -/
theorem size_of_fits {e : Extended} {type : PacketType} (h : e.fits type = true) :
    e.size = Extended.sizeOf type := by
  cases e <;> cases type <;> first | rfl | exact absurd h (by simp [Extended.fits])

/-- If bytes are missing, that is what is reported. -/
theorem extended_of_lt {type : PacketType} {bytes : Bytes}
    (h : bytes.length < Extended.sizeOf type) :
    extended type bytes = refused (.tooShort (Extended.sizeOf type) bytes.length) ∧
      Extended.read type bytes = none := by
  constructor
  · cases type <;> simp only [Extended.sizeOf] at h ⊢
    case any => omega
    all_goals simp only [extended, unicastHeader, areaHeader, ensure, if_pos h, refused_bind]
  · cases hread : Extended.read type bytes with
    | none => rfl
    | some read =>
      have hlong := (Extended.shows_of_read hread).length_eq
      rw [Extended.length_toBytes, size_of_fits read.1.property] at hlong
      omega

/-! ## The fixed headers -/

/-- For the basic header both ways of reading come to the same, whatever the bytes. -/
theorem basicHeader_eq (bytes : Bytes) :
    basicHeader bytes = ofExcept (BasicHeader.decode bytes) := by
  by_cases hshort : bytes.length < BasicHeader.size
  · rw [BasicHeader.decode_of_short hshort]
    simp only [basicHeader, ensure, if_pos hshort, refused_bind, ofExcept]
  · have hlong : 4 ≤ bytes.length := Nat.not_lt.mp hshort
    simp only [basicHeader, ensure, if_neg hshort, value_bind, pure_eq]
    match bytes, hlong with
    | first :: reserved :: lifetime :: hops :: rest, _ =>
      show (if BasicHeader.maxVersion < first / 16 then refused (.unsupportedVersion (first / 16))
        else ofExcept (BasicNext.ofCode (first % 16)) >>= _) = _
      unfold BasicHeader.decode
      by_cases hversion : BasicHeader.maxVersion < first / 16
      · simp only [if_pos hversion, ofExcept]
      · simp only [if_neg hversion]
        cases BasicNext.ofCode (first % 16) <;> rfl

/-- So they do for the common header. -/
theorem commonHeader_eq (bytes : Bytes) :
    commonHeader bytes = ofExcept (CommonHeader.decode bytes) := by
  by_cases hshort : bytes.length < CommonHeader.size
  · rw [CommonHeader.decode_of_short hshort]
    simp only [commonHeader, ensure, if_pos hshort, refused_bind, ofExcept]
  · have hlong : 8 ≤ bytes.length := Nat.not_lt.mp hshort
    simp only [commonHeader, ensure, if_neg hshort, value_bind, pure_eq]
    match bytes, hlong with
    | first :: second :: trafficClass :: flags :: high :: low :: hops :: reserved :: rest, _ =>
      show (ofExcept (CommonNext.ofCode (first / 16)) >>= _) = _
      unfold CommonHeader.decode
      cases hnext : CommonNext.ofCode (first / 16) with
      | error e => simp only [hnext, ofExcept, refused_bind]
      | ok next =>
        simp only [hnext]
        show (ofExcept (PacketType.ofCodes (second / 16) (second % 16)) >>= _) = _
        cases PacketType.ofCodes (second / 16) (second % 16) <;> rfl

end Access

/-! ## Packets -/

/-- What a packet is put together from. -/
def Packet.parts (p : Packet) : BasicHeader × CommonHeader × Extended × Bytes :=
  (p.basic, p.common, p.extended, p.payload)

namespace Access

/-- Behind the fixed headers nothing is reached that is not there either. -/
theorem body_eq {frame : Bytes} (h : Packet.fixedSize ≤ frame.length) (basic : BasicHeader)
    (common : CommonHeader) :
    (body common.type common.payloadLength.toNat frame >>= fun rest => value (basic, common, rest)) =
      ofExcept ((Packet.decodeBody basic common (frame.drop Packet.fixedSize)).map
        Packet.parts) := by
  unfold body Packet.decodeBody
  rw [tail_of_le h, value_bind]
  by_cases hshort : (frame.drop Packet.fixedSize).length < Extended.sizeOf common.type
  · obtain ⟨hextended, hread⟩ := extended_of_lt hshort
    rw [hextended, hread]
    rfl
  · obtain ⟨e, hextended, hread⟩ := extended_of_le (Nat.not_lt.mp hshort)
    have hsize := size_of_fits e.property
    rw [List.length_drop] at hshort
    have hrest : (frame.drop (Packet.fixedSize + Extended.sizeOf common.type)).length =
        frame.length - (Packet.fixedSize + Extended.sizeOf common.type) := List.length_drop
    have hminus : minus frame.length (Packet.fixedSize + Extended.sizeOf common.type) =
        value (frame.drop (Packet.fixedSize + Extended.sizeOf common.type)).length := by
      rw [hrest]
      exact if_pos (by omega)
    rw [hextended, hread, value_bind, hsize, hminus, value_bind, List.drop_drop]
    dsimp only
    by_cases hless : (frame.drop (Packet.fixedSize + Extended.sizeOf common.type)).length <
        common.payloadLength.toNat
    · rw [if_pos hless, dif_neg (Nat.not_le.mpr hless)]
      rfl
    · -- the slice begins where the rest does and ends within the frame
      have hslice : slice frame (Packet.fixedSize + Extended.sizeOf common.type)
          (Packet.fixedSize + Extended.sizeOf common.type + common.payloadLength.toNat) =
          value ((frame.drop (Packet.fixedSize + Extended.sizeOf common.type)).take
            common.payloadLength.toNat) := by
        unfold slice
        rw [if_pos (by omega), Nat.add_sub_cancel_left]
      rw [if_neg hless, dif_pos (Nat.not_lt.mp hless), hslice]
      rfl

/-- On every byte string the decoder that goes to positions comes to what `Packet.decode` does, so it
reaches outside of none. -/
theorem decode_eq (frame : Bytes) :
    decode frame = ofExcept ((Packet.decode frame).map Packet.parts) := by
  unfold decode Packet.decode
  rw [basicHeader_eq]
  cases hbasic : BasicHeader.decode frame with
  | error e => rfl
  | ok basic =>
    -- a basic header that was read is long enough for what stands behind it to be looked at
    have hlong : BasicHeader.size ≤ frame.length := by
      refine Nat.not_lt.mp fun hshort => ?_
      rw [BasicHeader.decode_of_short hshort] at hbasic
      cases hbasic
    show (if basic.next = .secured then _ else _) = ofExcept (Except.map _ (if _ then _ else _))
    by_cases hsecured : basic.next = .secured
    · rw [if_pos hsecured, if_pos hsecured]
      rfl
    · rw [if_neg hsecured, if_neg hsecured, tail_of_le hlong, value_bind, commonHeader_eq]
      cases hcommon : CommonHeader.decode (frame.drop BasicHeader.size) with
      | error e => rfl
      | ok common =>
        have hfixed : Packet.fixedSize ≤ frame.length := by
          refine Nat.not_lt.mp fun hshort => ?_
          rw [CommonHeader.decode_of_short (by
            simp only [List.length_drop, BasicHeader.size, CommonHeader.size, Packet.fixedSize]
              at hshort ⊢
            omega)] at hcommon
          cases hcommon
        show (if common.maxHops < basic.remainingHops then _ else _) =
          ofExcept (Except.map _ (if _ then _ else _))
        by_cases hhops : common.maxHops < basic.remainingHops
        · rw [if_pos hhops, if_pos hhops]
          rfl
        · rw [if_neg hhops, if_neg hhops]
          exact body_eq hfixed basic common

end Access

end Geocast
