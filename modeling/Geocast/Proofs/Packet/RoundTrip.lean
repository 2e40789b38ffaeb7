import Geocast.Packet

/-!
# Reading a packet that was written

The last theorems say that `decode` undoes `encode` on every packet that a router can send, and
that what `decode` returns is such a packet. A packet can be sent when its version is understood,
it is not secured, it has no more hops left than it may make, and the speed of its source fits
into fifteen bits; everything else about a packet survives the wire unconditionally.

The proof follows the layout. Readers are sequences of readers, so one law about `bind` and one
`_append` lemma for each field carry the whole extended header; the two fixed headers are lists of
bytes whose packed halves come apart by division.
-/

namespace Geocast

namespace Reader

variable {α β : Type}

/-- Readers are run one after the other, each on what the one before left. -/
theorem bind_apply (f : Reader α) (g : α → Reader β) (bytes : Bytes) :
    (f >>= g) bytes = (f bytes).bind fun x => g x.1 x.2 := rfl

theorem pure_apply (x : α) (bytes : Bytes) : (pure x : Reader α) bytes = some (x, bytes) := rfl

/-- Bytes that are skipped are not looked at. -/
theorem skip_append (gap rest : Bytes) : skip gap.length (gap ++ rest) = some ((), rest) := by
  induction gap with
  | nil => rfl
  | cons _ _ ih => exact ih

end Reader

/-! ## Position vectors -/

/-- A place can be read back, whatever follows. -/
theorem Point.read_append (p : Point) (rest : Bytes) :
    Point.read (p.toBytes ++ rest) = some (p, rest) := by
  simp only [Point.read, Point.toBytes, List.append_assoc, Reader.bind_apply,
    Reader.int32_append, Option.bind_some, Reader.pure_apply]

/-- And so can a short position vector. -/
theorem ShortPosition.read_append (v : ShortPosition) (rest : Bytes) :
    ShortPosition.read (v.toBytes ++ rest) = some (v, rest) := by
  simp only [ShortPosition.read, ShortPosition.toBytes, List.append_assoc, Reader.bind_apply,
    Address.read_append, Reader.uint32_append, Point.read_append, Option.bind_some,
    Reader.pure_apply]

namespace LongPosition

/-- The speed fits into fifteen bits. -/
def Compact (v : LongPosition) : Prop := minSpeed ≤ v.speed.toInt ∧ v.speed.toInt ≤ maxSpeed

instance (v : LongPosition) : Decidable v.Compact := inferInstanceAs (Decidable (_ ∧ _))

/-- The highest bit of the field tells whether the position is accurate. -/
theorem accurate_motion (accurate : Bool) (speed : Int16) :
    decide (32768 ≤ motion accurate speed) = accurate := by
  have hlow : speed.toUInt16.toNat % 32768 < 32768 := Nat.mod_lt _ (by omega)
  rw [Bool.eq_iff_iff, decide_eq_true_iff, UInt16.le_iff_toNat_le]
  unfold motion
  rw [UInt16.toNat_ofNat']
  cases accurate <;> simp <;> omega

/-- The sixteen bits of a signed number, read without a sign. -/
theorem toNat_toUInt16 (s : Int16) :
    (s.toUInt16.toNat : Int) = if 0 ≤ s.toInt then s.toInt else s.toInt + 65536 := by
  have hlt : s.toUInt16.toNat < 65536 := s.toUInt16.toNat_lt
  have hint : s.toInt = if 2 * s.toUInt16.toNat < 65536 then (s.toUInt16.toNat : Int)
      else (s.toUInt16.toNat : Int) - 65536 := BitVec.toInt_eq_toNat_cond s.toBitVec
  split at hint <;> split <;> omega

/-- The remainder modulo 2^15 that is nearest to zero fits into fifteen bits. -/
theorem bmod_fits (x : Int) : minSpeed ≤ x.bmod 32768 ∧ x.bmod 32768 ≤ maxSpeed := by
  have hmin : -((32768 : Nat) / 2 : Int) ≤ x.bmod 32768 := Int.le_bmod (by decide)
  have hmax : x.bmod 32768 < ((32768 : Nat) + 1 : Int) / 2 := Int.bmod_lt (by decide)
  unfold minSpeed maxSpeed
  omega

/-- A speed within the fifteen bits stands for itself. -/
theorem bmod_eq_self {n : Int} (hmin : minSpeed ≤ n) (hmax : n ≤ maxSpeed) :
    n.bmod 32768 = n := by
  unfold minSpeed at hmin
  unfold maxSpeed at hmax
  exact Int.bmod_eq_of_le_mul_two (by omega) (by omega)

/-- The speed in a field is the remainder of its bits that is nearest to zero. -/
theorem toInt_speedOf (m : UInt16) : (speedOf m).toInt = (m.toNat : Int).bmod 32768 := by
  have hspeed : (speedOf m).toInt = if m.toNat % 32768 < 16384 then
      ((m.toNat % 32768 : Nat) : Int) else ((m.toNat % 32768 : Nat) : Int) - 32768 :=
    Int16.toInt_ofInt_of_le (by split <;> omega) (by split <;> omega)
  rw [hspeed, Int.bmod_def]
  split <;> split <;> omega

/-- The highest bit says whether the place is accurate, the other fifteen are those of the speed. -/
theorem toNat_motion_mod (accurate : Bool) (speed : Int16) :
    (motion accurate speed).toNat % 32768 = speed.toUInt16.toNat % 32768 := by
  unfold motion
  rw [UInt16.toNat_ofNat']
  cases accurate <;> simp

/-- Whatever a speed is, the one that comes back differs from it by a multiple of 2^15. -/
theorem toInt_speedOf_motion (accurate : Bool) (speed : Int16) :
    (speedOf (motion accurate speed)).toInt = speed.toInt.bmod 32768 := by
  have hlow := toNat_motion_mod accurate speed
  have hbits := toNat_toUInt16 speed
  have hsame : ((motion accurate speed).toNat : Int) % (32768 : Nat) =
      speed.toInt % (32768 : Nat) := by
    split at hbits <;> omega
  rw [toInt_speedOf, ← Int.emod_bmod, hsame, Int.emod_bmod]

/-- And the fifteen others tell the speed, if it fits. -/
theorem speedOf_motion (accurate : Bool) {speed : Int16} (hmin : minSpeed ≤ speed.toInt)
    (hmax : speed.toInt ≤ maxSpeed) : speedOf (motion accurate speed) = speed := by
  rw [← Int16.toInt_inj, toInt_speedOf_motion]
  exact bmod_eq_self hmin hmax

/-- What the wire carries of a vector: all of it but the speed beyond fifteen bits. -/
def carried (v : LongPosition) : LongPosition :=
  { v with speed := speedOf (motion v.accurate v.speed) }

/-- A vector whose speed fits is carried whole. -/
theorem carried_of_compact {v : LongPosition} (compact : v.Compact) : v.carried = v := by
  unfold carried
  rw [speedOf_motion v.accurate compact.1 compact.2]

/-- What is read back of any vector is what the wire carries of it. -/
theorem read_append_carried (v : LongPosition) (rest : Bytes) :
    LongPosition.read (v.toBytes ++ rest) = some (v.carried, rest) := by
  simp only [LongPosition.read, LongPosition.toBytes, List.append_assoc, Reader.bind_apply,
    Address.read_append, Reader.uint32_append, Point.read_append, Reader.uint16_append,
    Option.bind_some, Reader.pure_apply, accurate_motion, carried]

/-- A vector whose speed fits can be read back. -/
theorem read_append (v : LongPosition) (rest : Bytes) (compact : v.Compact) :
    LongPosition.read (v.toBytes ++ rest) = some (v, rest) := by
  rw [read_append_carried, carried_of_compact compact]

/-- Every speed that can be read fits into fifteen bits. -/
theorem compact_speedOf (m : UInt16) :
    minSpeed ≤ (speedOf m).toInt ∧ (speedOf m).toInt ≤ maxSpeed := by
  rw [toInt_speedOf]
  exact bmod_fits m.toNat

/-- A speed that does not fit becomes the nearest one that does. -/
theorem toInt_clampSpeed (speed : Int32) :
    (clampSpeed speed).toInt = max minSpeed (min maxSpeed speed.toInt) := by
  unfold clampSpeed minSpeed maxSpeed
  exact Int16.toInt_ofInt_of_le (by omega) (by omega)

/-- A fix is announced with a speed that fits. -/
theorem compact_toLongPosition (f : Fix) (a : Address) : (f.toLongPosition a).Compact := by
  show minSpeed ≤ (clampSpeed f.speed).toInt ∧ (clampSpeed f.speed).toInt ≤ maxSpeed
  rw [toInt_clampSpeed]
  unfold minSpeed maxSpeed
  omega

/-- Every vector that was read has a speed that fits. -/
theorem compact_of_read {bytes rest : Bytes} {v : LongPosition}
    (h : LongPosition.read bytes = some (v, rest)) : v.Compact := by
  simp only [LongPosition.read, Reader.bind_apply, Option.bind_eq_some_iff, Reader.pure_apply,
    Option.some.injEq, Prod.mk.injEq] at h
  obtain ⟨_, _, _, _, _, _, motion, _, _, _, rfl, _⟩ := h
  exact compact_speedOf motion.1

end LongPosition

/-! ## Extended headers -/

namespace Extended

/-- A packet number can be read back over the reserved bytes behind it. -/
theorem readSequence_append (n : SequenceNumber) (gap rest : Bytes) :
    readSequence gap.length (Bytes.ofUInt16 n.value ++ (gap ++ rest)) = some (n, rest) := by
  unfold readSequence
  rw [Reader.bind_apply, Reader.uint16_append, Option.bind_some, Reader.bind_apply,
    Reader.skip_append]
  rfl

/-- The two reserved bytes of most headers. -/
theorem readSequence_two (n : SequenceNumber) (rest : Bytes) :
    readSequence 2 (Bytes.ofUInt16 n.value ++ ([0, 0] ++ rest)) = some (n, rest) :=
  readSequence_append n [0, 0] rest

/-- The four reserved bytes of an area header. -/
theorem readSequence_four (n : SequenceNumber) (rest : Bytes) :
    readSequence 4 (Bytes.ofUInt16 n.value ++ ([0, 0, 0, 0] ++ rest)) = some (n, rest) :=
  readSequence_append n [0, 0, 0, 0] rest

/-- The header of a packet for one station can be read back. -/
theorem readUnicast_append (h : UnicastHeader) (rest : Bytes) (compact : h.source.Compact) :
    readUnicast ((unicast h).toBytes ++ rest) = some (h, rest) := by
  unfold readUnicast toBytes
  simp only [List.append_assoc, Reader.bind_apply, readSequence_two,
    LongPosition.read_append _ _ compact, ShortPosition.read_append, Option.bind_some,
    Reader.pure_apply]

/-- And that of a packet for an area, if its shape is known. -/
theorem readArea_append (h : AreaHeader) (rest : Bytes) (compact : h.source.Compact) :
    readArea h.area.shape ((area h).toBytes ++ rest) = some (⟨h, rfl⟩, rest) := by
  have hskip : Reader.skip 2 ([0, 0] ++ rest) = some ((), rest) := Reader.skip_append [0, 0] rest
  unfold readArea toBytes
  simp only [List.append_assoc, Reader.bind_apply, readSequence_four,
    LongPosition.read_append _ _ compact, Point.read_append, Reader.uint16_append, hskip,
    Option.bind_some, Reader.pure_apply]

/-- An extended header takes as many bytes as its layout says. -/
theorem length_toBytes (e : Extended) : e.toBytes.length = e.size := by
  cases e <;> rfl

/-- Reading an extended header by the type that it fits gives it back. -/
theorem read_append (e : Extended) {type : PacketType} (fits : e.fits type = true) (rest : Bytes)
    (compact : ∀ v, e.source? = some v → v.Compact) :
    read type (e.toBytes ++ rest) = some (⟨e, fits⟩, rest) := by
  -- a header is read by the rules of the types that it fits
  cases e with
  | any =>
    cases type <;> simp only [Extended.fits, Bool.false_eq_true] at fits
    rfl
  | beacon source =>
    cases type <;> simp only [Extended.fits, Bool.false_eq_true] at fits
    have hread : LongPosition.read ((beacon source).toBytes ++ rest) = some (source, rest) :=
      LongPosition.read_append source rest (compact source rfl)
    simp only [read, Reader.bind_apply, hread, Option.bind_some, Reader.pure_apply]
  | unicast h =>
    have hread := readUnicast_append h rest (compact _ rfl)
    cases type <;> simp only [Extended.fits, Bool.false_eq_true] at fits
    all_goals simp only [read, Reader.bind_apply, hread, Option.bind_some, Reader.pure_apply]
  | area h =>
    have hread := readArea_append h rest (compact _ rfl)
    cases type <;> simp only [Extended.fits, Bool.false_eq_true, beq_iff_eq] at fits
    all_goals
      subst fits
      simp only [read, Reader.bind_apply, hread, Option.bind_some, Reader.pure_apply]
  | singleHop h =>
    cases type <;> simp only [Extended.fits, Bool.false_eq_true] at fits
    simp only [read, toBytes, List.append_assoc, Reader.bind_apply,
      LongPosition.read_append _ _ (compact _ rfl), Reader.uint32_append, Option.bind_some,
      Reader.pure_apply]
  | topological h =>
    cases type <;> simp only [Extended.fits, Bool.false_eq_true] at fits
    simp only [read, toBytes, List.append_assoc, Reader.bind_apply, readSequence_two,
      LongPosition.read_append _ _ (compact _ rfl), Option.bind_some, Reader.pure_apply]
  | locationRequest h =>
    cases type <;> simp only [Extended.fits, Bool.false_eq_true] at fits
    simp only [read, toBytes, List.append_assoc, Reader.bind_apply, readSequence_two,
      LongPosition.read_append _ _ (compact _ rfl), Address.read_append, Option.bind_some,
      Reader.pure_apply]

/-- The source that was read of a packet for one station has a speed that fits. -/
theorem compact_of_readUnicast {bytes rest : Bytes} {h : UnicastHeader}
    (hread : readUnicast bytes = some (h, rest)) : h.source.Compact := by
  simp only [readUnicast, Reader.bind_apply, Option.bind_eq_some_iff, Reader.pure_apply,
    Option.some.injEq, Prod.mk.injEq] at hread
  obtain ⟨_, _, source, hsource, _, _, rfl, _⟩ := hread
  exact LongPosition.compact_of_read hsource

/-- So has that of a packet for an area. -/
theorem compact_of_readArea {bytes rest : Bytes} {shape : Shape}
    {h : { h : AreaHeader // h.area.shape = shape }}
    (hread : readArea shape bytes = some (h, rest)) : h.val.source.Compact := by
  simp only [readArea, Reader.bind_apply, Option.bind_eq_some_iff, Reader.pure_apply,
    Option.some.injEq, Prod.mk.injEq] at hread
  obtain ⟨_, _, source, hsource, _, _, _, _, _, _, _, _, _, _, rfl, _⟩ := hread
  exact LongPosition.compact_of_read hsource

/-- Whoever is read as the source of a packet has a speed that fits. -/
theorem compact_of_read {type : PacketType} {bytes rest : Bytes}
    {e : { e : Extended // e.fits type = true }} (hread : read type bytes = some (e, rest))
    {v : LongPosition} (hv : e.val.source? = some v) : v.Compact := by
  -- whatever the type, the source is what a long vector was read as
  cases type <;>
    simp only [read, Reader.bind_apply, Option.bind_eq_some_iff, Reader.pure_apply,
      Option.some.injEq, Prod.mk.injEq] at hread
  case any =>
    obtain ⟨rfl, _⟩ := hread
    exact absurd hv (by simp [source?])
  case beacon =>
    obtain ⟨source, hsource, rfl, _⟩ := hread
    obtain rfl := Option.some.inj hv
    exact LongPosition.compact_of_read hsource
  case geoUnicast | locationReply =>
    obtain ⟨h, hh, rfl, _⟩ := hread
    obtain rfl := Option.some.inj hv
    exact compact_of_readUnicast hh
  case geoAnycast shape | geoBroadcast shape =>
    obtain ⟨h, hh, rfl, _⟩ := hread
    obtain rfl := Option.some.inj hv
    exact compact_of_readArea hh
  case singleHopBroadcast =>
    obtain ⟨source, hsource, _, _, rfl, _⟩ := hread
    obtain rfl := Option.some.inj hv
    exact LongPosition.compact_of_read hsource
  case topologicalBroadcast =>
    obtain ⟨_, _, source, hsource, rfl, _⟩ := hread
    obtain rfl := Option.some.inj hv
    exact LongPosition.compact_of_read hsource
  case locationRequest =>
    obtain ⟨_, _, source, hsource, _, _, rfl, _⟩ := hread
    obtain rfl := Option.some.inj hv
    exact LongPosition.compact_of_read hsource

end Extended

/-! ## The two fixed headers -/

/-- Two four-bit numbers share a byte. -/
theorem halves_of_byte {a b : UInt8} (ha : a.toNat < 16) (hb : b.toNat < 16) :
    (a * 16 + b) / 16 = a ∧ (a * 16 + b) % 16 = b := by
  have hsixteen : (16 : UInt8).toNat = 16 := rfl
  have hsum : (a * 16 + b).toNat = 16 * a.toNat + b.toNat := by
    rw [UInt8.toNat_add, UInt8.toNat_mul, hsixteen]
    omega
  constructor
  · apply UInt8.toNat.inj
    rw [UInt8.toNat_div, hsum, hsixteen]
    omega
  · apply UInt8.toNat.inj
    rw [UInt8.toNat_mod, hsum, hsixteen]
    omega

/-- A code tells its meaning. -/
theorem BasicNext.ofCode_code (n : BasicNext) : ofCode n.code = .ok n := by cases n <;> rfl

/-- It fits into the half of a byte. -/
theorem BasicNext.code_lt (n : BasicNext) : n.code.toNat < 16 := by cases n <;> decide

theorem CommonNext.ofCode_code (n : CommonNext) : ofCode n.code = .ok n := by cases n <;> rfl

theorem CommonNext.code_lt (n : CommonNext) : n.code.toNat < 16 := by cases n <;> decide

/-- Type and subtype fit into half a byte each. -/
theorem PacketType.codes_lt (t : PacketType) : t.codes.1.toNat < 16 ∧ t.codes.2.toNat < 16 := by
  cases t with
  | geoAnycast s => cases s <;> decide
  | geoBroadcast s => cases s <;> decide
  | _ => decide

/-- A basic header can be read back if its version is one that is understood. -/
theorem BasicHeader.decode_append (h : BasicHeader) (rest : Bytes)
    (hversion : h.version ≤ maxVersion) : decode (h.toBytes ++ rest) = .ok h := by
  have hlt : h.version.toNat < 16 := by
    have hle : h.version.toNat ≤ 1 := UInt8.le_iff_toNat_le.mp hversion
    omega
  obtain ⟨hversions, hcodes⟩ := halves_of_byte hlt h.next.code_lt
  have hnot : ¬ maxVersion < h.version := UInt8.not_lt.mpr hversion
  show (if maxVersion < (h.version * 16 + h.next.code) / 16 then _ else _) = _
  rw [hversions, if_neg hnot, hcodes, BasicNext.ofCode_code]

/-- A common header can be read back. -/
theorem CommonHeader.decode_append (h : CommonHeader) (rest : Bytes) :
    decode (h.toBytes ++ rest) = .ok h := by
  have hzero : (0 : UInt8).toNat < 16 := by decide
  obtain ⟨hnext, _⟩ := halves_of_byte h.next.code_lt hzero
  rw [UInt8.add_zero] at hnext
  obtain ⟨htype, hsubtype⟩ := halves_of_byte h.type.codes_lt.1 h.type.codes_lt.2
  have hmobile : decide (128 ≤ if h.mobile then (128 : UInt8) else 0) = h.mobile := by
    cases h.mobile <;> decide
  have hlength : UInt16.ofNat (256 * (UInt8.ofNat (h.payloadLength.toNat / 256)).toNat +
      (UInt8.ofNat (h.payloadLength.toNat % 256)).toNat) = h.payloadLength := by
    have hread := Reader.uint16_append h.payloadLength []
    exact congrArg Prod.fst (Option.some.inj hread)
  unfold decode toBytes Bytes.ofUInt16
  simp only [List.cons_append, List.nil_append, hnext, CommonNext.ofCode_code, htype, hsubtype,
    PacketType.ofCodes_codes, hmobile, hlength]

/-- What was read has such a version. -/
theorem BasicHeader.version_of_decode {bytes : Bytes} {h : BasicHeader}
    (hdecode : decode bytes = .ok h) : h.version ≤ maxVersion := by
  unfold decode at hdecode
  split at hdecode
  · split at hdecode
    · exact absurd hdecode (by simp)
    · next hversion =>
      split at hdecode
      · exact absurd hdecode (by simp)
      · obtain rfl := Except.ok.inj hdecode
        exact UInt8.not_lt.mp hversion
  · exact absurd hdecode (by simp)

/-! ## Packets -/

namespace Packet

/-- What a router may send: everything that survives the wire. -/
structure Sendable (p : Packet) : Prop where
  version : p.basic.version ≤ BasicHeader.maxVersion
  plain : p.basic.next ≠ .secured
  hops : p.basic.remainingHops ≤ p.common.maxHops
  source : ∀ v, p.source? = some v → v.Compact

/-- Decoding a frame gives back the packet that was encoded, whatever stands behind it. -/
theorem decode_encode_append {p : Packet} (h : p.Sendable) (trailing : Bytes) :
    decode (p.encode ++ trailing) = .ok p := by
  have hframe : p.encode ++ trailing = p.basic.toBytes ++ (p.common.toBytes ++
      (p.extended.toBytes ++ (p.payload ++ trailing))) := by
    simp only [encode, List.append_assoc]
  -- the common header and the rest are read from where they begin
  have hcommon : (p.encode ++ trailing).drop BasicHeader.size =
      p.common.toBytes ++ (p.extended.toBytes ++ (p.payload ++ trailing)) := by
    rw [hframe]
    rfl
  have hbody : (p.encode ++ trailing).drop fixedSize =
      p.extended.toBytes ++ (p.payload ++ trailing) := by
    rw [hframe]
    rfl
  have henough : p.payload.length ≤ (p.payload ++ trailing).length := by
    rw [List.length_append]
    omega
  unfold decode
  rw [hcommon, hbody, hframe, BasicHeader.decode_append _ _ h.version]
  simp only [if_neg h.plain, CommonHeader.decode_append, if_neg (UInt8.not_lt.mpr h.hops)]
  unfold decodeBody
  rw [Extended.read_append p.extended p.fits (p.payload ++ trailing) h.source]
  simp only [p.declared, henough, dite_true, List.take_left]

/-- What a router may send can be read by every station. -/
theorem decode_encode {p : Packet} (h : p.Sendable) : decode p.encode = .ok p := by
  have hdecode := decode_encode_append h []
  rwa [List.append_nil] at hdecode

/-- What was found of a frame that gave a packet: each header in its place, the payload behind them,
and no rule broken. -/
theorem decode_ok {frame : Bytes} {p : Packet} (h : decode frame = .ok p) :
    BasicHeader.decode frame = .ok p.basic ∧ p.basic.next ≠ .secured ∧
      CommonHeader.decode (frame.drop BasicHeader.size) = .ok p.common ∧
      p.basic.remainingHops ≤ p.common.maxHops ∧
      ∃ rest, Extended.read p.common.type (frame.drop fixedSize) =
          some (⟨p.extended, p.fits⟩, rest) ∧
        p.payload = rest.take p.common.payloadLength.toNat := by
  -- each check that could refuse the frame was passed
  unfold decode at h
  split at h
  · exact absurd h (by simp)
  · next basic hbasic =>
    split at h
    · exact absurd h (by simp)
    · next hplain =>
      split at h
      · exact absurd h (by simp)
      · next common hcommon =>
        split at h
        · exact absurd h (by simp)
        · next hhops =>
          unfold decodeBody at h
          split at h
          · exact absurd h (by simp)
          · next rest hread =>
            split at h
            · obtain rfl := Except.ok.inj h
              exact ⟨hbasic, hplain, hcommon, UInt8.not_lt.mp hhops, rest, hread, rfl⟩
            · exact absurd h (by simp)

/-- What was decoded can be sent again. -/
theorem sendable_of_decode {frame : Bytes} {p : Packet} (h : decode frame = .ok p) :
    p.Sendable := by
  obtain ⟨hbasic, hplain, _, hhops, _, hread, _⟩ := decode_ok h
  exact {
    version := BasicHeader.version_of_decode hbasic
    plain := hplain
    hops := hhops
    source := fun _ hv => Extended.compact_of_read hread hv }

/-- A packet may still be sent when its lifetime was set anew. -/
theorem Sendable.withLifetime {p : Packet} (h : p.Sendable) (lifetime : Lifetime) :
    (p.withLifetime lifetime).Sendable :=
  { version := h.version, plain := h.plain, hops := h.hops, source := h.source }

/-- It may still be sent when its destination was found somewhere else. -/
theorem Sendable.withDestination {p : Packet} (h : p.Sendable) (u : UnicastHeader)
    (is_unicast : p.extended = .unicast u) (destination : ShortPosition) :
    (p.withDestination u is_unicast destination).Sendable where
  version := h.version
  plain := h.plain
  hops := h.hops
  source := fun v hv => h.source v (by rw [source?, is_unicast]; exact hv)

/-- A packet that may travel further is sent on with a hop less. -/
theorem remainingHops_relayed {p : Packet} (hops : p.basic.remainingHops ≠ 0) :
    p.relayed.basic.remainingHops.toNat + 1 = p.basic.remainingHops.toNat := by
  have hpos : 1 ≤ p.basic.remainingHops.toNat := by
    refine Nat.one_le_iff_ne_zero.mpr fun hzero => hops (UInt8.toNat.inj hzero)
  have hless : (p.basic.remainingHops - 1).toNat = p.basic.remainingHops.toNat - 1 :=
    UInt8.toNat_sub_of_le _ _ (UInt8.le_iff_toNat_le.mpr hpos)
  show (p.basic.remainingHops - 1).toNat + 1 = _
  omega

/-- And it may still be sent when it has come a hop further. -/
theorem Sendable.relayed {p : Packet} (h : p.Sendable) (hops : p.basic.remainingHops ≠ 0) :
    p.relayed.Sendable where
  version := h.version
  plain := h.plain
  hops := by
    have hless := remainingHops_relayed hops
    have hmax : p.basic.remainingHops.toNat ≤ p.common.maxHops.toNat :=
      UInt8.le_iff_toNat_le.mp h.hops
    rw [UInt8.le_iff_toNat_le]
    show p.relayed.basic.remainingHops.toNat ≤ p.common.maxHops.toNat
    omega
  source := h.source

/-- A frame is as long as its packet says: nothing stands behind the payload. -/
theorem length_encode (p : Packet) : p.encode.length = p.headerSize + p.payload.length := by
  unfold encode headerSize
  simp only [List.length_append, Extended.length_toBytes]
  rfl

end Packet

end Geocast
