import Geocast.Proofs.Packet.RoundTrip

/-!
# What a frame says

A frame has bits that nobody looks at: the reserved ones, and whatever stands behind the payload.
All others are read, and written back where they were read: the frame of a packet that was decoded
is the one that it was decoded from, with the reserved bits cleared and nothing behind the payload
(`encode_of_decode`). So two frames are read as the same packet exactly when they differ in such
bits only (`encode_canonical` says both).

Which bits count is said by masks that follow the layout. The proof is the reverse of the one that
reading undoes writing: for each reader, what it took from a byte string is what its writer makes
of the value read, and where there are gaps, it is so under the mask.
-/

namespace Geocast

/-! ## Masks -/

namespace Bytes

/-- The mask of so many bytes of which every bit counts. -/
def kept (n : Nat) : Bytes := List.replicate n 255

/-- The mask of so many reserved bytes. -/
def cleared (n : Nat) : Bytes := List.replicate n 0

/-- A byte string with only the bits of a mask left. -/
def masked (mask bytes : Bytes) : Bytes := List.zipWith (· &&& ·) mask bytes

/-- A mask applies to each part of a byte string by itself. -/
theorem masked_append {mask bytes : Bytes} (h : mask.length = bytes.length)
    (mask' bytes' : Bytes) :
    masked (mask ++ mask') (bytes ++ bytes') = masked mask bytes ++ masked mask' bytes' :=
  List.zipWith_append h

theorem and_full (b : UInt8) : 255 &&& b = b := by
  apply UInt8.toNat.inj
  rw [UInt8.toNat_and, Nat.and_comm]
  exact Nat.and_two_pow_sub_one_of_lt_two_pow b.toNat_lt

/-- Where every bit counts, none is cleared. -/
theorem masked_kept (bytes : Bytes) : masked (kept bytes.length) bytes = bytes := by
  induction bytes with
  | nil => rfl
  | cons b bytes ih =>
    show (255 &&& b) :: masked (kept bytes.length) bytes = b :: bytes
    rw [and_full, ih]

/-- Reserved bytes become zero. -/
theorem masked_cleared (bytes : Bytes) :
    masked (cleared bytes.length) bytes = cleared bytes.length := by
  induction bytes with
  | nil => rfl
  | cons b bytes ih =>
    show (0 &&& b) :: masked (cleared bytes.length) bytes = 0 :: cleared bytes.length
    rw [UInt8.zero_and, ih]

/-- Under a mask, what a byte string has in front of a rest is what was written. -/
def Shows (mask written bytes rest : Bytes) : Prop :=
  ∃ raw, bytes = raw ++ rest ∧ raw.length = mask.length ∧ masked mask raw = written

/-- What is shown under two masks one after the other is shown under both together. -/
theorem Shows.append {mask mask' written written' bytes middle rest : Bytes}
    (h : Shows mask written bytes middle) (h' : Shows mask' written' middle rest) :
    Shows (mask ++ mask') (written ++ written') bytes rest := by
  obtain ⟨raw, rfl, hlength, rfl⟩ := h
  obtain ⟨raw', rfl, hlength', rfl⟩ := h'
  refine ⟨raw ++ raw', (List.append_assoc _ _ _).symm, ?_, masked_append hlength.symm _ _⟩
  rw [List.length_append, List.length_append, hlength, hlength']

/-- What was written is as long as its mask, and the rest is what remains. -/
theorem Shows.length_eq {mask written bytes rest : Bytes} (h : Shows mask written bytes rest) :
    written.length = mask.length ∧ bytes.length = mask.length + rest.length := by
  obtain ⟨raw, rfl, hlength, rfl⟩ := h
  unfold masked
  rw [List.length_zipWith, List.length_append, hlength, Nat.min_self]
  exact ⟨rfl, rfl⟩

/-- What is read whole. -/
theorem Shows.kept {written bytes rest : Bytes} {n : Nat} (h : bytes = written ++ rest)
    (hlength : written.length = n) : Shows (kept n) written bytes rest := by
  subst hlength
  exact ⟨written, h, List.length_replicate.symm, masked_kept written⟩

end Bytes

open Bytes (kept cleared masked masked_append masked_cleared Shows)

/-- Which bits of a basic header count: all but those of its second byte. -/
def BasicHeader.mask : Bytes := kept 1 ++ cleared 1 ++ kept 2

/-- Which bits of a common header count: of the first byte the high half, of the fourth the highest
bit, and the last not at all. -/
def CommonHeader.mask : Bytes := [0xf0] ++ kept 2 ++ [0x80] ++ kept 3 ++ cleared 1

/-- Which bits of the extended header of a packet type count. -/
def Extended.mask : PacketType → Bytes
  | .any => []
  | .beacon => kept 24
  | .geoUnicast | .locationReply => kept 2 ++ cleared 2 ++ kept 24 ++ kept 20
  | .geoAnycast _ | .geoBroadcast _ =>
    kept 2 ++ cleared 4 ++ kept 24 ++ kept 8 ++ kept 2 ++ kept 2 ++ kept 2 ++ cleared 2
  | .singleHopBroadcast => kept 24 ++ kept 4
  | .topologicalBroadcast => kept 2 ++ cleared 2 ++ kept 24
  | .locationRequest => kept 2 ++ cleared 2 ++ kept 24 ++ kept 8

namespace Packet

/-- Which bits of the headers of a packet type count. -/
def mask (type : PacketType) : Bytes := BasicHeader.mask ++ CommonHeader.mask ++ Extended.mask type

/-- A frame of some type with the reserved bits of its headers cleared. -/
def canonical (type : PacketType) (frame : Bytes) : Bytes :=
  masked (mask type) frame ++ frame.drop (mask type).length

end Packet

/-! ## What readers take -/

namespace Reader

/-- Two readers succeed one after the other if there is something in between. -/
theorem bind_eq_some_iff {α β : Type} {f : Reader α} {g : α → Reader β} {bytes rest : Bytes}
    {y : β} : (f >>= g) bytes = some (y, rest) ↔
      ∃ x middle, f bytes = some (x, middle) ∧ g x middle = some (y, rest) := by
  rw [bind_apply, Option.bind_eq_some_iff, Prod.exists]

theorem pure_eq_some_iff {α : Type} {x y : α} {bytes rest : Bytes} :
    (pure x : Reader α) bytes = some (y, rest) ↔ x = y ∧ bytes = rest := by
  rw [pure_apply, Option.some.injEq, Prod.mk.injEq]

/-- A byte that was read is the first of those that were there. -/
theorem eq_of_octet {bytes rest : Bytes} {b : UInt8} (h : octet bytes = some (b, rest)) :
    bytes = b :: rest := by
  cases bytes with
  | nil => exact absurd h (by simp [octet])
  | cons c bytes =>
    obtain ⟨rfl, rfl⟩ := Prod.mk.inj (Option.some.inj h)
    rfl

/-- Of skipped bytes only their number is known. -/
theorem eq_of_skip {n : Nat} {bytes rest : Bytes} (h : skip n bytes = some ((), rest)) :
    ∃ gap, gap.length = n ∧ bytes = gap ++ rest := by
  induction n generalizing bytes with
  | zero =>
    obtain ⟨_, rfl⟩ := Prod.mk.inj (Option.some.inj h)
    exact ⟨[], rfl, rfl⟩
  | succ n ih =>
    obtain ⟨b, tail, hoctet, htail⟩ := bind_eq_some_iff.mp h
    obtain ⟨gap, hlength, rfl⟩ := ih htail
    exact ⟨b :: gap, by rw [List.length_cons, hlength], eq_of_octet hoctet⟩

theorem eq_of_uint16 {bytes rest : Bytes} {n : UInt16} (h : uint16 bytes = some (n, rest)) :
    bytes = Bytes.ofUInt16 n ++ rest := by
  simp only [uint16, bind_eq_some_iff, pure_eq_some_iff] at h
  obtain ⟨a, _, ha, b, _, hb, rfl, rfl⟩ := h
  have hlt := a.toNat_lt
  have hlt' := b.toNat_lt
  have hnumber : (UInt16.ofNat (256 * a.toNat + b.toNat)).toNat = 256 * a.toNat + b.toNat := by
    rw [UInt16.toNat_ofNat']
    omega
  rw [eq_of_octet ha, eq_of_octet hb]
  unfold Bytes.ofUInt16
  rw [hnumber, show (256 * a.toNat + b.toNat) / 256 = a.toNat by omega,
    show (256 * a.toNat + b.toNat) % 256 = b.toNat by omega, UInt8.ofNat_toNat,
    UInt8.ofNat_toNat]
  rfl

theorem eq_of_uint32 {bytes rest : Bytes} {n : UInt32} (h : uint32 bytes = some (n, rest)) :
    bytes = Bytes.ofUInt32 n ++ rest := by
  simp only [uint32, bind_eq_some_iff, pure_eq_some_iff] at h
  obtain ⟨a, _, ha, b, _, hb, c, _, hc, d, _, hd, rfl, rfl⟩ := h
  have hlt := a.toNat_lt
  have hlt' := b.toNat_lt
  have hlt'' := c.toNat_lt
  have hlt''' := d.toNat_lt
  generalize hvalue : 16777216 * a.toNat + 65536 * b.toNat + 256 * c.toNat + d.toNat = value
  have hnumber : (UInt32.ofNat value).toNat = value := by
    rw [UInt32.toNat_ofNat']
    omega
  rw [eq_of_octet ha, eq_of_octet hb, eq_of_octet hc, eq_of_octet hd]
  unfold Bytes.ofUInt32
  rw [hnumber, show value / 16777216 = a.toNat by omega,
    show value / 65536 % 256 = b.toNat by omega, show value / 256 % 256 = c.toNat by omega,
    show value % 256 = d.toNat by omega]
  simp only [UInt8.ofNat_toNat, List.cons_append, List.nil_append]

theorem eq_of_int32 {bytes rest : Bytes} {n : Int32} (h : int32 bytes = some (n, rest)) :
    bytes = Bytes.ofInt32 n ++ rest := by
  simp only [int32, bind_eq_some_iff, pure_eq_some_iff] at h
  obtain ⟨m, _, hm, rfl, rfl⟩ := h
  unfold Bytes.ofInt32
  rw [eq_of_uint32 hm, UInt32.toUInt32_toInt32]

end Reader

open Reader (bind_eq_some_iff pure_eq_some_iff eq_of_octet eq_of_skip eq_of_uint16 eq_of_uint32
  eq_of_int32)

/-- A link address has no reserved bits. -/
theorem MacAddress.eq_of_read {bytes rest : Bytes} {m : MacAddress}
    (h : MacAddress.read bytes = some (m, rest)) : bytes = m.toBytes ++ rest := by
  simp only [MacAddress.read, bind_eq_some_iff, pure_eq_some_iff] at h
  obtain ⟨_, _, ha, _, _, hb, _, _, hc, _, _, hd, _, _, he, _, _, hf, rfl, rfl⟩ := h
  rw [eq_of_octet ha, eq_of_octet hb, eq_of_octet hc, eq_of_octet hd, eq_of_octet he,
    eq_of_octet hf]
  rfl

/-- All 64 bits of an address are read. -/
theorem Address.eq_of_read {bytes rest : Bytes} {a : Address}
    (h : Address.read bytes = some (a, rest)) : bytes = a.toBytes ++ rest := by
  simp only [Address.read, bind_eq_some_iff, pure_eq_some_iff] at h
  obtain ⟨_, _, hkind, _, _, hreserved, _, _, hmac, rfl, rfl⟩ := h
  rw [eq_of_octet hkind, eq_of_octet hreserved, MacAddress.eq_of_read hmac]
  rfl

/-- Nor has a place. -/
theorem Point.eq_of_read {bytes rest : Bytes} {p : Point}
    (h : Point.read bytes = some (p, rest)) : bytes = p.toBytes ++ rest := by
  simp only [Point.read, bind_eq_some_iff, pure_eq_some_iff] at h
  obtain ⟨_, _, hlatitude, _, _, hlongitude, rfl, rfl⟩ := h
  rw [eq_of_int32 hlatitude, eq_of_int32 hlongitude, ← List.append_assoc]
  rfl

/-- Nor has a short position vector. -/
theorem ShortPosition.eq_of_read {bytes rest : Bytes} {v : ShortPosition}
    (h : ShortPosition.read bytes = some (v, rest)) : bytes = v.toBytes ++ rest := by
  simp only [ShortPosition.read, bind_eq_some_iff, pure_eq_some_iff] at h
  obtain ⟨_, _, haddress, _, _, hmillis, _, _, hpoint, rfl, rfl⟩ := h
  rw [Address.eq_of_read haddress, eq_of_uint32 hmillis, Point.eq_of_read hpoint]
  simp only [ShortPosition.toBytes, List.append_assoc]

namespace LongPosition

/-- The field of the flag and the speed is written as it was read. -/
theorem motion_speedOf (m : UInt16) : motion (decide (32768 ≤ m)) (speedOf m) = m := by
  have hlt := m.toNat_lt
  have hbits := toNat_toUInt16 (speedOf m)
  have hspeed := toInt_speedOf m
  rw [Int.bmod_def] at hspeed
  -- whatever its sign, the low fifteen bits of the speed are those of the field
  have hlow : (speedOf m).toUInt16.toNat % 32768 = m.toNat % 32768 := by
    split at hspeed <;> split at hbits <;> omega
  apply UInt16.toNat.inj
  unfold motion
  rw [UInt16.toNat_ofNat', hlow]
  by_cases hflag : 32768 ≤ m
  · have hle : 32768 ≤ m.toNat := UInt16.le_iff_toNat_le.mp hflag
    rw [if_pos (decide_eq_true hflag)]
    omega
  · have hnle : ¬ 32768 ≤ m.toNat := fun hle => hflag (UInt16.le_iff_toNat_le.mpr hle)
    rw [if_neg (by simpa using hflag)]
    omega

/-- Nor has a long one, whose speed shares its field with the accuracy. -/
theorem eq_of_read {bytes rest : Bytes} {v : LongPosition}
    (h : LongPosition.read bytes = some (v, rest)) : bytes = v.toBytes ++ rest := by
  simp only [LongPosition.read, bind_eq_some_iff, pure_eq_some_iff] at h
  obtain ⟨_, _, haddress, _, _, hmillis, _, _, hpoint, _, _, hmotion, _, _, hheading, rfl, rfl⟩ := h
  rw [Address.eq_of_read haddress, eq_of_uint32 hmillis, Point.eq_of_read hpoint,
    eq_of_uint16 hmotion, eq_of_uint16 hheading]
  simp only [LongPosition.toBytes, List.append_assoc, motion_speedOf]

end LongPosition

/-! ## Extended headers -/

namespace Extended

/-- Reserved bytes are shown as zeros. -/
theorem shows_of_skip {n : Nat} {bytes rest : Bytes} (h : Reader.skip n bytes = some ((), rest)) :
    Shows (cleared n) (cleared n) bytes rest := by
  obtain ⟨gap, rfl, rfl⟩ := eq_of_skip h
  exact ⟨gap, rfl, List.length_replicate.symm, masked_cleared gap⟩

/-- A packet number is shown, with the reserved bytes behind it cleared. -/
theorem shows_of_readSequence {gap : Nat} {n : SequenceNumber} {bytes rest : Bytes}
    (h : readSequence gap bytes = some (n, rest)) :
    Shows (kept 2 ++ cleared gap) (Bytes.ofUInt16 n.value ++ cleared gap) bytes rest := by
  simp only [readSequence, bind_eq_some_iff, pure_eq_some_iff] at h
  obtain ⟨_, _, hvalue, _, _, hskip, rfl, rfl⟩ := h
  exact (Shows.kept (eq_of_uint16 hvalue) rfl).append (shows_of_skip hskip)

/-- The header of a packet for one station is shown under its mask. -/
theorem shows_of_readUnicast {h : UnicastHeader} {bytes rest : Bytes}
    (hread : readUnicast bytes = some (h, rest)) :
    Shows (mask .geoUnicast) (unicast h).toBytes bytes rest := by
  simp only [readUnicast, bind_eq_some_iff, pure_eq_some_iff] at hread
  obtain ⟨_, _, hsequence, _, _, hsource, _, _, hdestination, rfl, rfl⟩ := hread
  exact ((shows_of_readSequence hsequence).append
    (.kept (LongPosition.eq_of_read hsource) rfl)).append
    (.kept (ShortPosition.eq_of_read hdestination) rfl)

/-- So is that of a packet for an area. -/
theorem shows_of_readArea {shape : Shape} {h : { h : AreaHeader // h.area.shape = shape }}
    {bytes rest : Bytes} (hread : readArea shape bytes = some (h, rest)) :
    Shows (mask (.geoBroadcast shape)) (area h.val).toBytes bytes rest := by
  simp only [readArea, bind_eq_some_iff, pure_eq_some_iff] at hread
  obtain ⟨_, _, hsequence, _, _, hsource, _, _, hcentre, _, _, ha, _, _, hb, _, _, hangle, _, _,
    hskip, rfl, rfl⟩ := hread
  have hfront := (shows_of_readSequence hsequence).append
    (.kept (LongPosition.eq_of_read hsource) rfl)
  exact ((((hfront.append (.kept (Point.eq_of_read hcentre) rfl)).append
    (.kept (eq_of_uint16 ha) rfl)).append (.kept (eq_of_uint16 hb) rfl)).append
    (.kept (eq_of_uint16 hangle) rfl)).append (shows_of_skip hskip)

/-- Under the mask of its type an extended header is what the one read from it is written as. -/
theorem shows_of_read {type : PacketType} {e : { e : Extended // e.fits type = true }}
    {bytes rest : Bytes} (hread : read type bytes = some (e, rest)) :
    Shows (mask type) e.val.toBytes bytes rest := by
  cases type <;> simp only [read, bind_eq_some_iff, pure_eq_some_iff] at hread
  case any =>
    obtain ⟨rfl, rfl⟩ := hread
    exact ⟨[], rfl, rfl, rfl⟩
  case beacon =>
    obtain ⟨_, _, hsource, rfl, rfl⟩ := hread
    exact .kept (LongPosition.eq_of_read hsource) rfl
  case geoUnicast | locationReply =>
    obtain ⟨_, _, hunicast, rfl, rfl⟩ := hread
    exact shows_of_readUnicast hunicast
  case geoAnycast shape | geoBroadcast shape =>
    obtain ⟨_, _, harea, rfl, rfl⟩ := hread
    exact shows_of_readArea harea
  case singleHopBroadcast =>
    obtain ⟨_, _, hsource, _, _, hdata, rfl, rfl⟩ := hread
    exact (Shows.kept (LongPosition.eq_of_read hsource) rfl).append (.kept (eq_of_uint32 hdata) rfl)
  case topologicalBroadcast =>
    obtain ⟨_, _, hsequence, _, _, hsource, rfl, rfl⟩ := hread
    exact (shows_of_readSequence hsequence).append (.kept (LongPosition.eq_of_read hsource) rfl)
  case locationRequest =>
    obtain ⟨_, _, hsequence, _, _, hsource, _, _, hrequested, rfl, rfl⟩ := hread
    exact ((shows_of_readSequence hsequence).append
      (.kept (LongPosition.eq_of_read hsource) rfl)).append
      (.kept (Address.eq_of_read hrequested) rfl)

end Extended

/-! ## The two fixed headers -/

/-- Every number below 256 is put together from its halves. -/
theorem byte_of_halves (b : UInt8) : b / 16 * 16 + b % 16 = b := by
  have hlt := b.toNat_lt
  have hsixteen : (16 : UInt8).toNat = 16 := rfl
  apply UInt8.toNat.inj
  rw [UInt8.toNat_add, UInt8.toNat_mul, UInt8.toNat_div, UInt8.toNat_mod, hsixteen]
  omega

/-- The high half of a byte. -/
theorem and_high (b : UInt8) : 0xf0 &&& b = b / 16 * 16 := by
  have hall : ∀ n < 256, 240 &&& n = n / 16 * 16 := by decide +kernel
  have hlt := b.toNat_lt
  have hsixteen : (16 : UInt8).toNat = 16 := rfl
  apply UInt8.toNat.inj
  rw [UInt8.toNat_and, UInt8.toNat_mul, UInt8.toNat_div, hsixteen,
    show (0xf0 : UInt8).toNat = 240 from rfl, hall b.toNat hlt]
  omega

/-- The highest bit of a byte. -/
theorem and_highest (b : UInt8) :
    0x80 &&& b = if decide (128 ≤ b) = true then 128 else 0 := by
  have hall : ∀ n < 256, 128 &&& n = if 128 ≤ n then 128 else 0 := by decide +kernel
  apply UInt8.toNat.inj
  rw [UInt8.toNat_and, show (0x80 : UInt8).toNat = 128 from rfl, hall b.toNat b.toNat_lt]
  by_cases hflag : 128 ≤ b
  · have hle : 128 ≤ b.toNat := UInt8.le_iff_toNat_le.mp hflag
    rw [if_pos hle, if_pos (decide_eq_true hflag)]
    rfl
  · have hnle : ¬ 128 ≤ b.toNat := fun hle => hflag (UInt8.le_iff_toNat_le.mpr hle)
    rw [if_neg hnle, if_neg (by simpa using hflag)]
    rfl

/-- Different codes stand for different kinds of protection. -/
theorem BasicNext.code_of_ofCode {n : UInt8} {next : BasicNext} (h : ofCode n = .ok next) :
    next.code = n := by
  unfold ofCode at h
  split at h <;> cases h
  all_goals exact UInt8.toNat.inj (by simp_all [code])

/-- A code that has a meaning is the code of it. -/
theorem CommonNext.code_of_ofCode {n : UInt8} {next : CommonNext} (h : ofCode n = .ok next) :
    next.code = n := by
  unfold ofCode at h
  split at h <;> cases h
  all_goals exact UInt8.toNat.inj (by simp_all [code])

/-- The same for the codes of shapes. -/
theorem Shape.code_of_ofCode? {n : UInt8} {shape : Shape} (h : ofCode? n.toNat = some shape) :
    shape.code = n := by
  unfold ofCode? at h
  split at h <;> cases h
  all_goals exact UInt8.toNat.inj (by simp_all [code])

/-- And for those of packet types. -/
theorem PacketType.codes_of_ofCodes {n s : UInt8} {type : PacketType}
    (h : ofCodes n s = .ok type) : type.codes = (n, s) := by
  have harea {make : Shape → PacketType} {e : PacketError}
      (h : ((Shape.ofCode? s.toNat).map make).elim (.error e) Except.ok = .ok type) :
      ∃ shape, type = make shape ∧ shape.code = s := by
    cases hshape : Shape.ofCode? s.toNat with
    | none =>
      rw [hshape] at h
      exact nomatch h
    | some shape =>
      rw [hshape] at h
      exact ⟨shape, (Except.ok.inj h).symm, Shape.code_of_ofCode? hshape⟩
  unfold ofCodes at h
  split at h
  case h_4 hn =>
    obtain ⟨shape, rfl, rfl⟩ := harea h
    exact Prod.ext (UInt8.toNat.inj hn.symm) rfl
  case h_5 hn =>
    obtain ⟨shape, rfl, rfl⟩ := harea h
    exact Prod.ext (UInt8.toNat.inj hn.symm) rfl
  case h_10 => exact nomatch h
  all_goals
    next hn hs =>
    obtain rfl := Except.ok.inj h
    exact Prod.ext (UInt8.toNat.inj hn.symm) (UInt8.toNat.inj hs.symm)

/-- What was read as a basic header is shown under its mask. -/
theorem BasicHeader.shows_of_decode {bytes : Bytes} {h : BasicHeader}
    (hdecode : decode bytes = .ok h) : Shows mask h.toBytes bytes (bytes.drop size) := by
  unfold decode at hdecode
  split at hdecode
  · next first reserved lifetime hops rest =>
    split at hdecode
    · exact absurd hdecode (by simp)
    · split at hdecode
      · exact absurd hdecode (by simp)
      · next next hnext =>
        obtain rfl := Except.ok.inj hdecode
        refine ⟨[first, reserved, lifetime, hops], rfl, rfl, ?_⟩
        show [255 &&& first, 0 &&& reserved, 255 &&& lifetime, 255 &&& hops] =
          [first / 16 * 16 + next.code, 0, lifetime, hops]
        rw [BasicNext.code_of_ofCode hnext, byte_of_halves, UInt8.zero_and, Bytes.and_full,
          Bytes.and_full, Bytes.and_full]
  · exact absurd hdecode (by simp)

/-- So is what was read as a common header. -/
theorem CommonHeader.shows_of_decode {bytes : Bytes} {h : CommonHeader}
    (hdecode : decode bytes = .ok h) : Shows mask h.toBytes bytes (bytes.drop size) := by
  unfold decode at hdecode
  split at hdecode
  · next next type trafficClass flags high low hops reserved rest =>
    split at hdecode
    · exact absurd hdecode (by simp)
    · next next' hnext =>
      split at hdecode
      · exact absurd hdecode (by simp)
      · next type' htype =>
        obtain rfl := Except.ok.inj hdecode
        have hlength := @eq_of_uint16 [high, low] [] _ rfl
        refine ⟨[next, type, trafficClass, flags, high, low, hops, reserved], rfl, rfl, ?_⟩
        show [0xf0 &&& next, 255 &&& type, 255 &&& trafficClass, 0x80 &&& flags, 255 &&& high,
          255 &&& low, 255 &&& hops, 0 &&& reserved] = _
        unfold toBytes
        dsimp only
        rw [List.append_nil] at hlength
        rw [← hlength, CommonNext.code_of_ofCode hnext, PacketType.codes_of_ofCodes htype,
          byte_of_halves, UInt8.zero_and, and_high, and_highest]
        simp only [Bytes.and_full, List.cons_append, List.nil_append]
  · exact absurd hdecode (by simp)

/-! ## Packets -/

namespace Packet

/-- A packet that was decoded stands in front of its frame, under the mask of its type, with its
payload behind it. -/
theorem shows_of_decode {frame : Bytes} {p : Packet} (h : decode frame = .ok p) :
    ∃ trailing, Shows (mask p.common.type)
      (p.basic.toBytes ++ p.common.toBytes ++ p.extended.toBytes) frame
      (p.payload ++ trailing) := by
  obtain ⟨hbasic, _, hcommon, _, rest, hread, hpayload⟩ := decode_ok h
  have hheaders := (BasicHeader.shows_of_decode hbasic).append
    (CommonHeader.shows_of_decode hcommon)
  rw [List.drop_drop] at hheaders
  refine ⟨rest.drop p.common.payloadLength.toNat, ?_⟩
  rw [hpayload, List.take_append_drop]
  exact hheaders.append (Extended.shows_of_read hread)

/-- What is masked of a frame is as long as the headers of the packet that it was decoded as. -/
theorem length_mask_of_decode {frame : Bytes} {p : Packet} (h : decode frame = .ok p) :
    (mask p.common.type).length = p.headerSize := by
  obtain ⟨trailing, hshows⟩ := shows_of_decode h
  rw [← hshows.length_eq.1, List.length_append, Extended.length_toBytes]
  rfl

/-- The frame of a packet is the front of any frame that it was decoded from, with the reserved
bits cleared. -/
theorem encode_of_decode {frame : Bytes} {p : Packet} (h : decode frame = .ok p) :
    p.headerSize + p.payload.length ≤ frame.length ∧
      p.encode = canonical p.common.type (frame.take (p.headerSize + p.payload.length)) := by
  have hmask := length_mask_of_decode h
  obtain ⟨trailing, raw, rfl, hlength, hmasked⟩ := shows_of_decode h
  have hsize : raw.length = p.headerSize := hlength.trans hmask
  have hfront : (raw ++ (p.payload ++ trailing)).take (p.headerSize + p.payload.length) =
      raw ++ p.payload := by
    rw [← List.append_assoc, ← hsize, ← List.length_append, List.take_left]
  -- the mask ends where the payload begins
  have hheaders : masked (mask p.common.type) (raw ++ p.payload) =
      masked (mask p.common.type) raw := by
    have hsplit := masked_append hlength.symm [] p.payload
    rw [List.append_nil] at hsplit
    exact hsplit.trans (List.append_nil _)
  constructor
  · simp only [List.length_append, hsize]
    omega
  · unfold canonical
    rw [hfront, hheaders, hmasked, ← hlength, List.drop_left]
    rfl

/-- The two fixed headers are masked alike in all packets. -/
theorem take_canonical (type : PacketType) (frame : Bytes) :
    (canonical type frame).take fixedSize =
      masked (BasicHeader.mask ++ CommonHeader.mask) (frame.take fixedSize) := by
  have hmask : (mask type).take fixedSize = BasicHeader.mask ++ CommonHeader.mask := by
    unfold mask
    exact List.take_left' rfl
  have hlong : fixedSize ≤ (mask type).length := by
    unfold mask
    rw [List.length_append]
    exact Nat.le_add_right _ _
  -- what is not masked stands behind the fixed headers, if there is anything
  have hbehind : (frame.drop (mask type).length).take
      (fixedSize - (masked (mask type) frame).length) = [] := by
    unfold masked
    rw [List.length_zipWith]
    by_cases hshort : frame.length ≤ (mask type).length
    · rw [List.drop_eq_nil_of_le hshort, List.take_nil]
    · rw [show fixedSize - min (mask type).length frame.length = 0 by omega, List.take_zero]
  unfold canonical
  rw [List.take_append, hbehind, List.append_nil]
  unfold masked
  rw [List.take_zipWith, hmask]

/-- The fixed headers of a packet can be told from its frame. -/
theorem headers_eq_of_take {p q : Packet} (hp : p.Sendable) (hq : q.Sendable)
    (h : p.encode.take fixedSize = q.encode.take fixedSize) :
    p.basic = q.basic ∧ p.common = q.common := by
  have hfront : p.basic.toBytes ++ p.common.toBytes = q.basic.toBytes ++ q.common.toBytes := h
  have hbasic := BasicHeader.decode_append p.basic p.common.toBytes hp.version
  rw [hfront, BasicHeader.decode_append q.basic _ hq.version] at hbasic
  have hcommon := CommonHeader.decode_append p.common []
  rw [List.append_nil, show p.common.toBytes = q.common.toBytes from
    congrArg (List.drop BasicHeader.size) hfront, ← List.append_nil q.common.toBytes,
    CommonHeader.decode_append] at hcommon
  exact ⟨(Except.ok.inj hbasic).symm, (Except.ok.inj hcommon).symm⟩

/-- Two frames agree on every bit that a packet of some type and length is read from: they differ in
reserved bits at most, and behind that length. -/
def Agree (type : PacketType) (length : Nat) (frame frame' : Bytes) : Prop :=
  canonical type (frame.take length) = canonical type (frame'.take length)

instance (type : PacketType) (length : Nat) (frame frame' : Bytes) :
    Decidable (Agree type length frame frame') := inferInstanceAs (Decidable (_ = _))

/-- Frames that agree are decoded as one packet. -/
theorem eq_of_agree {frame frame' : Bytes} {p p' : Packet} (h : decode frame = .ok p)
    (h' : decode frame' = .ok p')
    (hagree : Agree p.common.type (p.headerSize + p.payload.length) frame frame') : p' = p := by
  have hencode := (encode_of_decode h).2
  have hencode' := (encode_of_decode h').2
  have hsendable := sendable_of_decode h
  have hsendable' := sendable_of_decode h'
  have hmask := length_mask_of_decode h
  have hmask' := length_mask_of_decode h'
  -- the fixed headers say which bits count and how long the packet is
  have hfixed (n : Nat) (hn : fixedSize ≤ n) (t : PacketType) (b : Bytes) :
      (canonical t (b.take n)).take fixedSize =
        masked (BasicHeader.mask ++ CommonHeader.mask) (b.take fixedSize) := by
    rw [take_canonical, List.take_take, Nat.min_eq_left hn]
  have hle : fixedSize ≤ p.headerSize + p.payload.length :=
    Nat.le_trans (Nat.le_add_right _ _) (Nat.le_add_right _ _)
  have hle' : fixedSize ≤ p'.headerSize + p'.payload.length :=
    Nat.le_trans (Nat.le_add_right _ _) (Nat.le_add_right _ _)
  have htake : p'.encode.take fixedSize = p.encode.take fixedSize := by
    rw [hencode, hagree, hencode', hfixed _ hle, hfixed _ hle']
  obtain ⟨_, hcommon⟩ := headers_eq_of_take hsendable' hsendable htake
  have hlength : p'.headerSize + p'.payload.length = p.headerSize + p.payload.length := by
    rw [← hmask, ← hmask', ← p.declared, ← p'.declared, hcommon]
  have hframe : p'.encode = p.encode := by
    rw [hencode, hencode', hagree, hcommon, hlength]
  have hdecode := decode_encode hsendable'
  rw [hframe, decode_encode hsendable] at hdecode
  exact (Except.ok.inj hdecode).symm

/-- The frame of a packet that was decoded is the front of the frame that it was decoded from, as
long as its headers and its payload, with the reserved bits cleared and all others as they were; and
whatever else is decoded, it is the same packet exactly when it agrees on those bits. -/
theorem encode_canonical {frame : Bytes} {p : Packet} (h : decode frame = .ok p) :
    p.headerSize + p.payload.length ≤ frame.length ∧
      p.encode = canonical p.common.type (frame.take (p.headerSize + p.payload.length)) ∧
      ∀ {frame' p'}, decode frame' = .ok p' →
        (p' = p ↔ Agree p.common.type (p.headerSize + p.payload.length) frame frame') := by
  obtain ⟨hlong, hencode⟩ := encode_of_decode h
  refine ⟨hlong, hencode, fun {frame' p'} h' => ⟨fun heq => ?_, eq_of_agree h h'⟩⟩
  have hencode' := (encode_of_decode h').2
  rw [heq] at hencode'
  exact hencode.symm.trans hencode'

/-- A beacon in whose frame every reserved bit is set, with two bytes behind it. -/
def noisyBeacon : Bytes :=
  [0x11, 0xff, 0xf1, 1, 0x0f, 0x10, 0, 0xff, 0, 0, 1, 0xff] ++ List.replicate 20 0xab ++
    [0xc0, 0x00, 1, 2] ++ [3, 4]

/-- It is read as if those bits were clear, and the two bytes not there. -/
theorem encode_canonical_of_noise :
    let clear : Bytes := [0x11, 0, 0xf1, 1, 0, 0x10, 0, 0x80, 0, 0, 1, 0] ++
      List.replicate 20 0xab ++ [0xc0, 0x00, 1, 2]
    ∃ p, decode noisyBeacon = .ok p ∧ p.encode = clear ∧ decode clear = .ok p := by
  intro clear
  have hread : ∃ p, decode noisyBeacon = .ok p ∧ p.common.type = .beacon ∧
      p.headerSize + p.payload.length = 36 := ⟨_, rfl, rfl, rfl⟩
  have hread' : ∃ p, decode clear = .ok p := ⟨_, rfl⟩
  obtain ⟨p, hdecode, htype, hlength⟩ := hread
  obtain ⟨p', hdecode'⟩ := hread'
  obtain ⟨_, hencode, hagree⟩ := encode_canonical hdecode
  rw [htype, hlength] at hencode hagree
  obtain rfl := (hagree hdecode').mpr (by decide +kernel)
  exact ⟨p', hdecode, hencode.trans (by decide +kernel), hdecode'⟩

end Packet

end Geocast
