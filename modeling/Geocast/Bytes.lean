/-!
# Byte strings

Frames are lists of bytes, and numbers in them stand most significant byte first. A `Reader`
takes a value from the front of a byte string and leaves the rest; it fails exactly when the
bytes run out. Every reader here has a writer beside it, and the `_append` lemmas say that
reading what was written gives the value back and leaves what followed it alone.
-/

namespace Geocast

/-- A byte string. -/
abbrev Bytes := List UInt8

/-- Takes a value from the front of a byte string and leaves the rest, or fails because the
bytes ran out. -/
abbrev Reader (α : Type) := StateT Bytes Option α

namespace Bytes

/-- A 16-bit number, most significant byte first. -/
def ofUInt16 (n : UInt16) : Bytes :=
  [UInt8.ofNat (n.toNat / 256), UInt8.ofNat (n.toNat % 256)]

/-- A 32-bit number, most significant byte first. -/
def ofUInt32 (n : UInt32) : Bytes :=
  [UInt8.ofNat (n.toNat / 16777216), UInt8.ofNat (n.toNat / 65536 % 256),
    UInt8.ofNat (n.toNat / 256 % 256), UInt8.ofNat (n.toNat % 256)]

/-- A signed 32-bit number in two's complement, most significant byte first. -/
def ofInt32 (n : Int32) : Bytes := ofUInt32 n.toUInt32

/-- The lowercase hexadecimal digit of a number below 16. -/
def hexDigit (n : Nat) : Char :=
  if n < 10 then Char.ofNat (48 + n) else Char.ofNat (87 + n)

/-- The two hexadecimal digits of a byte. -/
def hexDigits (b : UInt8) : List Char := [hexDigit (b.toNat / 16), hexDigit (b.toNat % 16)]

/-- A byte string as lowercase hexadecimal text. -/
def toHex (bytes : Bytes) : String := String.ofList (bytes.flatMap hexDigits)

/-- The value of a hexadecimal digit of either case. -/
def hexValue? (c : Char) : Option Nat :=
  if '0' ≤ c ∧ c ≤ '9' then some (c.toNat - 48)
  else if 'a' ≤ c ∧ c ≤ 'f' then some (c.toNat - 87)
  else if 'A' ≤ c ∧ c ≤ 'F' then some (c.toNat - 55)
  else none

/-- The bytes that pairs of hexadecimal digits stand for. -/
def ofHexDigits? : List Char → Option Bytes
  | [] => some []
  | [_] => none
  | a :: b :: rest => do
    let high ← hexValue? a
    let low ← hexValue? b
    let bytes ← ofHexDigits? rest
    return UInt8.ofNat (16 * high + low) :: bytes

/-- Reads hexadecimal text of either case; `none` on an odd number of digits or any other
character. -/
def ofHex? (text : String) : Option Bytes := ofHexDigits? text.toList

end Bytes

namespace Reader

/-- The next byte. -/
def octet : Reader UInt8
  | [] => none
  | b :: rest => some (b, rest)

/-- Passes over bytes whose value does not matter. -/
def skip : Nat → Reader Unit
  | 0 => pure ()
  | n + 1 => do
    let _ ← octet
    skip n

/-- A 16-bit number, most significant byte first. -/
def uint16 : Reader UInt16 := do
  let a ← octet
  let b ← octet
  return UInt16.ofNat (256 * a.toNat + b.toNat)

/-- A 32-bit number, most significant byte first. -/
def uint32 : Reader UInt32 := do
  let a ← octet
  let b ← octet
  let c ← octet
  let d ← octet
  return UInt32.ofNat (16777216 * a.toNat + 65536 * b.toNat + 256 * c.toNat + d.toNat)

/-- A signed 32-bit number in two's complement, most significant byte first. -/
def int32 : Reader Int32 := do
  let n ← uint32
  return n.toInt32

theorem uint16_append (n : UInt16) (rest : Bytes) :
    uint16 (Bytes.ofUInt16 n ++ rest) = some (n, rest) := by
  have h := n.toNat_lt
  have read : uint16 (Bytes.ofUInt16 n ++ rest) = some (UInt16.ofNat (256 *
      (UInt8.ofNat (n.toNat / 256)).toNat + (UInt8.ofNat (n.toNat % 256)).toNat), rest) := rfl
  rw [read, Option.some.injEq, Prod.mk.injEq]
  refine ⟨UInt16.toNat.inj ?_, rfl⟩
  simp only [UInt16.toNat_ofNat', UInt8.toNat_ofNat', Nat.reducePow]
  omega

theorem uint32_append (n : UInt32) (rest : Bytes) :
    uint32 (Bytes.ofUInt32 n ++ rest) = some (n, rest) := by
  have h := n.toNat_lt
  have read : uint32 (Bytes.ofUInt32 n ++ rest) = some (UInt32.ofNat (16777216 *
      (UInt8.ofNat (n.toNat / 16777216)).toNat +
      65536 * (UInt8.ofNat (n.toNat / 65536 % 256)).toNat +
      256 * (UInt8.ofNat (n.toNat / 256 % 256)).toNat +
      (UInt8.ofNat (n.toNat % 256)).toNat), rest) := rfl
  rw [read, Option.some.injEq, Prod.mk.injEq]
  refine ⟨UInt32.toNat.inj ?_, rfl⟩
  simp only [UInt32.toNat_ofNat', UInt8.toNat_ofNat', Nat.reducePow]
  omega

theorem int32_append (n : Int32) (rest : Bytes) :
    int32 (Bytes.ofInt32 n ++ rest) = some (n, rest) := by
  have read : int32 (Bytes.ofInt32 n ++ rest) =
      (uint32 (Bytes.ofUInt32 n.toUInt32 ++ rest)).bind fun x => some (x.1.toInt32, x.2) := rfl
  rw [read, uint32_append]
  simp only [Option.bind, Int32.toInt32_toUInt32]

end Reader

end Geocast
