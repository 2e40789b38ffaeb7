import Geocast.Proofs.Packet.RoundTrip
import Mathlib.Data.Int.ModEq
import Mathlib.Data.Nat.Bitwise

/-!
# How a station moves, on the wire

A long position vector comes back from the wire as it was, but for a speed that does not fit into
fifteen bits: of that the remainder modulo 2^15 is left that fits. There is one such remainder only
(`fits_and_modEq_iff`), so a vector survives just if its speed fits (`carried_eq_self_iff`). A fix
is announced with the speed nearest to its own among those that fit, so what is announced always
survives (`survives_wire`).

The field that the speed shares with the accuracy flag is written and read by division; the first
part says which masks and shifts that comes to.
-/

namespace Geocast

namespace LongPosition

/-! ## The bits of the motion field -/

theorem toNat_and_mask (m : UInt16) : (m &&& 0x7fff).toNat = m.toNat % 32768 := by
  rw [UInt16.toNat_and]
  exact Nat.and_two_pow_sub_one_eq_mod m.toNat 15

/-- The flag is the highest bit, and the speed keeps its lower fifteen. -/
theorem motion_eq_or (accurate : Bool) (speed : Int16) :
    motion accurate speed = (accurate.toUInt16 <<< 15) ||| (speed.toUInt16 &&& 0x7fff) := by
  have hlow : speed.toUInt16.toNat % 32768 < 2 ^ 15 := Nat.mod_lt _ (by decide)
  have hflag : (accurate.toUInt16 <<< 15).toNat = accurate.toNat <<< 15 := by
    cases accurate <;> rfl
  apply UInt16.toNat.inj
  rw [UInt16.toNat_or, toNat_and_mask, hflag, ← Nat.shiftLeft_add_eq_or_of_lt hlow,
    Nat.shiftLeft_eq]
  unfold motion
  rw [UInt16.toNat_ofNat']
  cases accurate <;> simp <;> omega

theorem accurate_eq_and (m : UInt16) : decide (32768 ≤ m) = (m &&& 0x8000 != 0) := by
  have hlt := m.toNat_lt
  have hbit : (m &&& 0x8000).toNat = (m.toNat.testBit 15).toNat * 32768 := by
    rw [UInt16.toNat_and]
    exact Nat.and_two_pow m.toNat 15
  have hle : 32768 ≤ m ↔ 32768 ≤ m.toNat := UInt16.le_iff_toNat_le
  rw [Bool.eq_iff_iff, decide_eq_true_iff, bne_iff_ne, ne_eq, ← UInt16.toNat_inj, hbit, hle,
    Nat.testBit_eq_decide_div_mod_eq]
  by_cases h : m.toNat / 2 ^ 15 % 2 = 1
  · rw [decide_eq_true h]
    simp
    omega
  · rw [decide_eq_false h]
    simp
    omega

/-- Shifted up by one, the highest of the fifteen bits is the sign, and on the way back it is
kept. -/
theorem speedOf_eq_shift (m : UInt16) :
    speedOf m = ((m &&& 0x7fff) <<< 1).toInt16 >>> 1 := by
  have hfield : ((m &&& 0x7fff) <<< 1).toNat = 2 * (m.toNat % 32768) := by
    rw [UInt16.toNat_shiftLeft, toNat_and_mask, Nat.shiftLeft_eq]
    show m.toNat % 32768 * 2 ^ 1 % 65536 = _
    omega
  have hsigned : ((m &&& 0x7fff) <<< 1).toInt16.toInt =
      (((m &&& 0x7fff) <<< 1).toNat : Int).bmod 65536 := BitVec.toInt_eq_toNat_bmod _
  have hshifted : (((m &&& 0x7fff) <<< 1).toInt16 >>> 1).toInt =
      ((m &&& 0x7fff) <<< 1).toInt16.toInt / 2 := by
    show (((m &&& 0x7fff) <<< 1).toInt16 >>> 1).toBitVec.toInt = _
    rw [Int16.toBitVec_shiftRight]
    show (((m &&& 0x7fff) <<< 1).toInt16.toBitVec.sshiftRight 1).toInt = _
    rw [BitVec.toInt_sshiftRight, Int.shiftRight_eq_div_pow]
    rfl
  -- what is twice a number modulo 2^16 is twice what the number is modulo 2^15
  rw [← Int16.toInt_inj, toInt_speedOf, hshifted, hsigned, hfield, Int.bmod_def, Int.bmod_def]
  split <;> split <;> omega

/-! ## Speeds beyond fifteen bits -/

/-- A number fits into the fifteen bits of a speed. -/
def Fits (n : Int) : Prop := minSpeed ≤ n ∧ n ≤ maxSpeed

instance (n : Int) : Decidable (Fits n) := inferInstanceAs (Decidable (_ ∧ _))

/-- There is one number only that fits and differs from a given one by a multiple of 2^15. -/
theorem fits_and_modEq_iff (n x : Int) :
    Fits n ∧ n ≡ x [ZMOD 32768] ↔ n = x.bmod 32768 := by
  constructor
  · rintro ⟨⟨hmin, hmax⟩, hsame⟩
    have hsame : n % (32768 : Nat) = x % (32768 : Nat) := hsame
    calc n = n.bmod 32768 := (bmod_eq_self hmin hmax).symm
      _ = (n % (32768 : Nat)).bmod 32768 := (Int.emod_bmod n 32768).symm
      _ = (x % (32768 : Nat)).bmod 32768 := by rw [hsame]
      _ = x.bmod 32768 := Int.emod_bmod x 32768
  · rintro rfl
    exact ⟨bmod_fits x, Int.bmod_emod⟩

theorem carried_eq_self_iff (v : LongPosition) : v.carried = v ↔ v.Compact := by
  refine ⟨fun hsame => ?_, carried_of_compact⟩
  have hcompact : v.carried.Compact := compact_speedOf (motion v.accurate v.speed)
  rwa [hsame] at hcompact

theorem decode_append_carried (v : LongPosition) (rest : Bytes) :
    LongPosition.decode (v.toBytes ++ rest) = .ok v.carried := by
  unfold LongPosition.decode
  rw [read_append_carried]

/-! ## Speeds that are announced -/

/-- Every other number that fits is further away from the speed. -/
theorem natAbs_sub_clampSpeed_lt (speed : Int32) {n : Int} (hn : Fits n)
    (hother : n ≠ (clampSpeed speed).toInt) :
    (speed.toInt - (clampSpeed speed).toInt).natAbs < (speed.toInt - n).natAbs := by
  obtain ⟨hmin, hmax⟩ := hn
  rw [toInt_clampSpeed] at hother ⊢
  unfold minSpeed at *
  unfold maxSpeed at *
  omega

/-- A vector comes back from the wire with some speed, and as it was otherwise. -/
structure ComesBack (v : LongPosition) (s : Int16) : Prop where
  /-- That speed, and no other, fits and differs from its own by a multiple of 2^15. -/
  speed_iff : ∀ n, Fits n ∧ n ≡ v.speed.toInt [ZMOD 32768] ↔ n = s.toInt
  decoded : ∀ rest, LongPosition.decode (v.toBytes ++ rest) = .ok { v with speed := s }
  same_iff : ∀ rest, LongPosition.decode (v.toBytes ++ rest) = .ok v ↔ Fits v.speed.toInt

/-- A fix is announced with some speed, and as it is otherwise. -/
structure Announces (f : Fix) (a : Address) (s : Int16) : Prop where
  vector : f.toLongPosition a = ⟨a, f.timestamp, f.point, f.accurate, s, f.heading⟩
  decoded : ∀ rest,
    LongPosition.decode ((f.toLongPosition a).toBytes ++ rest) = .ok (f.toLongPosition a)
  fits : Fits s.toInt
  /-- Every other speed that fits is further away from that of the fix. -/
  nearest : ∀ n, Fits n → n ≠ s.toInt →
    (f.speed.toInt - s.toInt).natAbs < (f.speed.toInt - n).natAbs

/-- In the field for the movement the flag is the highest bit, and the others are the speed in two's
complement. -/
structure MotionBits : Prop where
  written : ∀ accurate speed,
    motion accurate speed = (accurate.toUInt16 <<< 15) ||| (speed.toUInt16 &&& 0x7fff)
  flag : ∀ m : UInt16, decide (32768 ≤ m) = (m &&& 0x8000 != 0)
  speed : ∀ m : UInt16, speedOf m = ((m &&& 0x7fff) <<< 1).toInt16 >>> 1

theorem comesBack_carried (v : LongPosition) : ComesBack v v.carried.speed where
  speed_iff := by
    intro n
    have hspeed : v.carried.speed.toInt = v.speed.toInt.bmod 32768 :=
      toInt_speedOf_motion v.accurate v.speed
    rw [hspeed]
    exact fits_and_modEq_iff n v.speed.toInt
  decoded := decode_append_carried v
  same_iff := by
    intro rest
    rw [decode_append_carried, Except.ok.injEq]
    exact v.carried_eq_self_iff

theorem announces_clampSpeed (f : Fix) (a : Address) : Announces f a (clampSpeed f.speed) where
  vector := rfl
  decoded := by
    intro rest
    rw [decode_append_carried, carried_of_compact (compact_toLongPosition f a)]
  fits := compact_toLongPosition f a
  nearest := fun _ hn hother => natAbs_sub_clampSpeed_lt f.speed hn hother

/-- Whatever a vector is, it comes back from the wire with the one speed that fits into fifteen bits
and differs from its own by a multiple of 2^15, and as it was otherwise; so it comes back as it was
just if its speed fits. A fix is announced by a vector that comes back as it was, with the speed
nearest to that of the fix among those that fit. In the field for the movement the flag is the
highest bit, and the others are the speed in two's complement. -/
theorem survives_wire :
    (∀ v : LongPosition, ∃ s, ComesBack v s) ∧
      (∀ (f : Fix) (a : Address), ∃ s, Announces f a s) ∧ MotionBits :=
  ⟨fun v => ⟨_, comesBack_carried v⟩, fun f a => ⟨_, announces_clampSpeed f a⟩,
    motion_eq_or, accurate_eq_and, speedOf_eq_shift⟩

/-- At 200 metres a second the speed does not fit and comes back negative, with the flag and the
heading as they were. A fix with a speed far beyond what fits is announced with the greatest one. -/
theorem survives_wire_of_fast :
    let v : LongPosition := { accurate := true, speed := 20000, heading := 2705 }
    let f : Fix := { speed := 100000 }
    (LongPosition.decode v.toBytes = .ok { v with speed := -12768 } ∧
        LongPosition.decode v.toBytes ≠ .ok v) ∧
      LongPosition.decode (f.toLongPosition {}).toBytes = .ok (f.toLongPosition {}) ∧
      (f.toLongPosition {}).speed = 16383 ∧
      (Fits 16382 ∧ (16382 : Int) ≠ (16383 : Int16).toInt ∧
        (100000 - 16383 : Int).natAbs < (100000 - 16382 : Int).natAbs) := by
  intro v f
  obtain ⟨hvectors, hfixes, -⟩ := survives_wire
  obtain ⟨s, hback⟩ := hvectors v
  have hdecode := hback.decoded []
  have hsurvives := hback.same_iff []
  rw [List.append_nil] at hdecode hsurvives
  have hwrapped : -12768 = s.toInt := (hback.speed_iff (-12768)).mp ⟨by decide, by decide⟩
  obtain rfl : (-12768 : Int16) = s := Int16.toInt_inj.mp hwrapped
  have hlost : ¬ Fits v.speed.toInt := by decide
  obtain ⟨t, hannounced⟩ := hfixes f {}
  have hfix := hannounced.decoded []
  rw [List.append_nil] at hfix
  obtain rfl : 16383 = t := congrArg speed hannounced.vector
  have hfits : Fits 16382 := by decide
  exact ⟨⟨hdecode, fun h => hlost (hsurvives.mp h)⟩, hfix, congrArg speed hannounced.vector, hfits,
    by decide, hannounced.nearest 16382 hfits (by decide)⟩

end LongPosition

end Geocast
