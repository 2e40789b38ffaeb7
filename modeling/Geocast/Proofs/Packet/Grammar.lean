import Geocast.Proofs.Packet.Access

/-!
# The rules of a frame

A frame is a packet when it keeps nine rules. Each of them is said here of the bytes alone, by the
positions at which they stand, and with it what is reported of a frame that breaks it. A frame is
decoded exactly when it keeps them all (`decode_of_kept`), and otherwise what is reported is the
first rule broken (`decode_of_first_broken`): a rule may speak of a position that is there only
because an earlier rule is kept.

The proof goes through the parts of the decoder, one lemma for each header.
-/

namespace Geocast

namespace Packet

/-! ## What stands where -/

/-- The byte at a position of a frame that is long enough. -/
def octetAt (frame : Bytes) (position : Nat) : UInt8 := frame.getD position 0

/-- The version of the protocol. -/
def versionOf (frame : Bytes) : UInt8 := octetAt frame 0 / 16

/-- The code of what stands behind the basic header. -/
def protectionOf (frame : Bytes) : UInt8 := octetAt frame 0 % 16

/-- How many hops the packet may still make. -/
def hopsLeftOf (frame : Bytes) : UInt8 := octetAt frame 3

/-- The code of the protocol of the payload. -/
def protocolOf (frame : Bytes) : UInt8 := octetAt frame 4 / 16

/-- The code of the packet type. -/
def typeOf (frame : Bytes) : UInt8 := octetAt frame 5 / 16

/-- The code that tells packets of one type apart. -/
def subtypeOf (frame : Bytes) : UInt8 := octetAt frame 5 % 16

/-- The declared length of the payload. -/
def declaredOf (frame : Bytes) : Nat := 256 * (octetAt frame 8).toNat + (octetAt frame 9).toNat

/-- How many hops the packet could make at first. -/
def hopLimitOf (frame : Bytes) : UInt8 := octetAt frame 10

/-- The pairs of codes that are assigned, with the length of the extended header. -/
def layouts : List ((UInt8 × UInt8) × Nat) :=
  [((0, 0), 0), ((1, 0), 24), ((2, 0), 48),
    ((3, 0), 46), ((3, 1), 46), ((3, 2), 46),
    ((4, 0), 46), ((4, 1), 46), ((4, 2), 46),
    ((5, 0), 28), ((5, 1), 28), ((6, 0), 36), ((6, 1), 48)]

/-- The length of the extended header that a frame calls for, if its codes are assigned. -/
def layoutOf? (frame : Bytes) : Option Nat := layouts.lookup (typeOf frame, subtypeOf frame)

/-- The length of the extended header that a frame with assigned codes calls for. -/
def extendedOf (frame : Bytes) : Nat := (layoutOf? frame).getD 0

/-! ## The rules -/

/-- What a frame has to keep, in the order in which it is looked at. -/
inductive Rule
  | basicHeader | version | protection | commonHeader | protocol | type | hops | extendedHeader
  | payload
deriving DecidableEq, Repr

namespace Rule

/-- All rules, the first one first. -/
def all : List Rule :=
  [basicHeader, version, protection, commonHeader, protocol, type, hops, extendedHeader, payload]

/-- Whether a frame keeps a rule. -/
def Kept (frame : Bytes) : Rule → Prop
  | basicHeader => 4 ≤ frame.length
  | version => versionOf frame ≤ 1
  | protection => protectionOf frame = 0 ∨ protectionOf frame = 1
  | commonHeader => 12 ≤ frame.length
  | protocol => protocolOf frame ≤ 3
  | type => (layoutOf? frame).isSome = true
  | hops => hopsLeftOf frame ≤ hopLimitOf frame
  | extendedHeader => 12 + extendedOf frame ≤ frame.length
  | payload => 12 + extendedOf frame + declaredOf frame ≤ frame.length

instance (frame : Bytes) : DecidablePred (Kept frame)
  | basicHeader | commonHeader | extendedHeader | payload => inferInstanceAs (Decidable (_ ≤ _))
  | version | protocol | hops => inferInstanceAs (Decidable (_ ≤ _))
  | protection => inferInstanceAs (Decidable (_ ∨ _))
  | type => inferInstanceAs (Decidable (_ = _))

/-- What is reported of a frame that breaks a rule. -/
def report (frame : Bytes) : Rule → PacketError
  | basicHeader => .tooShort 4 frame.length
  | version => .unsupportedVersion (versionOf frame)
  | protection =>
    if protectionOf frame = 2 then .securedUnsupported else .invalidBasicNext (protectionOf frame)
  | commonHeader => .tooShort 8 (frame.length - 4)
  | protocol => .invalidCommonNext (protocolOf frame)
  | type =>
    if typeOf frame ≤ 6 then .invalidSubtype (typeOf frame) (subtypeOf frame)
    else .invalidType (typeOf frame)
  | hops => .hopLimitMismatch (hopsLeftOf frame) (hopLimitOf frame)
  | extendedHeader => .tooShort (extendedOf frame) (frame.length - 12)
  | payload => .payloadLengthMismatch (declaredOf frame) (frame.length - (12 + extendedOf frame))

/-- The first rule that a frame breaks. -/
def firstBroken? (frame : Bytes) : Option Rule := all.find? fun r => ¬ r.Kept frame

theorem mem_all (r : Rule) : r ∈ all := by cases r <;> decide

/-- No rule is broken exactly when all are kept. -/
theorem firstBroken?_eq_none_iff {frame : Bytes} :
    firstBroken? frame = none ↔ ∀ r : Rule, r.Kept frame := by
  unfold firstBroken?
  rw [List.find?_eq_none]
  constructor
  · intro h r
    simpa using h r (mem_all r)
  · intro h r _
    simpa using h r

/-- The rules that are looked at before one. -/
def before (r : Rule) : List Rule := all.takeWhile (· ≠ r)

/-- Whether a frame comes to be looked at by a rule: it keeps all before. -/
def Reached (frame : Bytes) (r : Rule) : Prop := ∀ q ∈ r.before, q.Kept frame

theorem Reached.mono {frame : Bytes} {r r' : Rule} (h : r.Reached frame)
    (hbefore : ∀ q ∈ r'.before, q ∈ r.before) : r'.Reached frame :=
  fun q hq => h q (hbefore q hq)

/-- The first rule that is broken is reached. -/
theorem reached_of_firstBroken? {frame : Bytes} {r : Rule} (h : firstBroken? frame = some r) :
    ¬ r.Kept frame ∧ r.Reached frame := by
  obtain ⟨hbroken, front, behind, hall, hfront⟩ := List.find?_eq_some_iff_append.mp h
  have hbroken : ¬ r.Kept frame := by simpa using hbroken
  have hkept : ∀ q ∈ front, q.Kept frame := by
    intro q hq
    simpa using hfront q hq
  refine ⟨hbroken, fun q hq => hkept q ?_⟩
  -- the rule itself is not among those kept, so it stands where they end
  have hnot : ∀ q ∈ front, decide (q ≠ r) = true := by
    intro q hq
    refine decide_eq_true fun heq => hbroken (heq ▸ hkept q hq)
  unfold before at hq
  rw [hall, List.takeWhile_append_of_pos hnot] at hq
  simpa using hq

end Rule

/-! ## Codes -/

end Packet

/-- The codes 0 and 1 stand for packets that are not secured. -/
theorem BasicNext.ofCode_of_lt {n : UInt8} (h : n = 0 ∨ n = 1) :
    ∃ next, ofCode n = .ok next ∧ next ≠ .secured := by
  rcases h with rfl | rfl
  · exact ⟨any, rfl, by decide⟩
  · exact ⟨common, rfl, by decide⟩

/-- No other code but that of secured packets has a meaning. -/
theorem BasicNext.ofCode_of_other {n : UInt8} (h : ¬ (n = 0 ∨ n = 1)) (hsecured : n ≠ 2) :
    ofCode n = .error (.invalidBasicNext n) := by
  unfold ofCode
  split
  · next hn => exact absurd (.inl (UInt8.toNat.inj hn)) h
  · next hn => exact absurd (.inr (UInt8.toNat.inj hn)) h
  · next hn => exact absurd (UInt8.toNat.inj hn) hsecured
  · rfl

/-- The codes up to 3 name a protocol. -/
theorem CommonNext.ofCode_of_le {n : UInt8} (h : n ≤ 3) : ∃ next, ofCode n = .ok next := by
  have hcases : n.toNat = 0 ∨ n.toNat = 1 ∨ n.toNat = 2 ∨ n.toNat = 3 := by
    have hle : n.toNat ≤ 3 := UInt8.le_iff_toNat_le.mp h
    omega
  unfold ofCode
  rcases hcases with hn | hn | hn | hn <;> rw [hn] <;> exact ⟨_, rfl⟩

/-- No other does. -/
theorem CommonNext.ofCode_of_not_le {n : UInt8} (h : ¬ n ≤ 3) :
    ofCode n = .error (.invalidCommonNext n) := by
  have hless : 3 < n.toNat := Nat.not_le.mp fun hle => h (UInt8.le_iff_toNat_le.mpr hle)
  unfold ofCode
  split
  · omega
  · omega
  · omega
  · omega
  · rfl

/-- The codes of a packet type are assigned, with the length of its extended header. -/
theorem PacketType.lookup_codes (t : PacketType) :
    Packet.layouts.lookup t.codes = some (Extended.sizeOf t) := by
  cases t with
  | geoAnycast s => cases s <;> rfl
  | geoBroadcast s => cases s <;> rfl
  | _ => rfl

/-- A pair of codes that is assigned has a type whose header is that long. -/
theorem PacketType.ofCodes_of_assigned {n s : UInt8} {size : Nat}
    (h : Packet.layouts.lookup (n, s) = some size) :
    ∃ t, ofCodes n s = .ok t ∧ Extended.sizeOf t = size := by
  obtain ⟨_, _, hsplit, _⟩ := List.lookup_eq_some_iff.mp h
  have hmem : ((n, s), size) ∈ Packet.layouts := by
    rw [hsplit]
    exact List.mem_append_right _ List.mem_cons_self
  simp only [Packet.layouts, List.mem_cons, Prod.mk.injEq, List.not_mem_nil, or_false] at hmem
  rcases hmem with ⟨⟨rfl, rfl⟩, rfl⟩ | ⟨⟨rfl, rfl⟩, rfl⟩ | ⟨⟨rfl, rfl⟩, rfl⟩ | ⟨⟨rfl, rfl⟩, rfl⟩ |
    ⟨⟨rfl, rfl⟩, rfl⟩ | ⟨⟨rfl, rfl⟩, rfl⟩ | ⟨⟨rfl, rfl⟩, rfl⟩ | ⟨⟨rfl, rfl⟩, rfl⟩ |
    ⟨⟨rfl, rfl⟩, rfl⟩ | ⟨⟨rfl, rfl⟩, rfl⟩ | ⟨⟨rfl, rfl⟩, rfl⟩ | ⟨⟨rfl, rfl⟩, rfl⟩ |
    ⟨⟨rfl, rfl⟩, rfl⟩
  all_goals exact ⟨_, rfl, rfl⟩

/-- Of any other pair the type is at fault, or the subtype. -/
theorem PacketType.ofCodes_of_unassigned {n s : UInt8}
    (h : Packet.layouts.lookup (n, s) = none) :
    ofCodes n s = .error (if n ≤ 6 then .invalidSubtype n s else .invalidType n) := by
  -- codes that a type has are assigned
  have hnone (t : PacketType) : t.codes ≠ (n, s) := by
    intro hcodes
    have hlookup := lookup_codes t
    rw [hcodes, h] at hlookup
    exact nomatch hlookup
  have hsix : n ≤ 6 ↔ n.toNat ≤ 6 := UInt8.le_iff_toNat_le
  have harea {found : Option PacketType} {e e' : PacketError}
      (h : found.elim (.error e') Except.ok = .error e) : e = e' := by
    cases found with
    | none => exact (Except.error.inj h).symm
    | some _ => exact nomatch h
  cases hread : ofCodes n s with
  | ok t => exact absurd (codes_of_ofCodes hread) (hnone t)
  | error e =>
    congr 1
    unfold ofCodes at hread
    split at hread
    case h_4 hn | h_5 hn =>
      rw [if_pos (hsix.mpr (by omega))]
      exact harea hread
    case h_10 =>
      rw [← Except.error.inj hread]
      simp only [hsix]
    all_goals exact nomatch hread

namespace Packet

/-! ## The headers -/

/-- A basic header that is there is read byte by byte. -/
theorem basicHeader_decode {frame : Bytes} (h : Rule.Kept frame .basicHeader) :
    BasicHeader.decode frame =
      if 1 < versionOf frame then .error (.unsupportedVersion (versionOf frame))
      else (BasicNext.ofCode (protectionOf frame)).map fun next =>
        ⟨versionOf frame, next, ⟨octetAt frame 2⟩, hopsLeftOf frame⟩ := by
  match frame, h with
  | first :: reserved :: lifetime :: hops :: rest, _ =>
    unfold BasicHeader.decode
    show (if 1 < first / 16 then _ else _) = if 1 < first / 16 then _ else
      Except.map _ (BasicNext.ofCode (first % 16))
    by_cases hversion : 1 < first / 16
    · rw [if_pos hversion, if_pos hversion]
      rfl
    · rw [if_neg hversion, if_neg hversion]
      cases BasicNext.ofCode (first % 16) <;> rfl

/-- So is a common header. -/
theorem commonHeader_decode {frame : Bytes} (h : Rule.Kept frame .commonHeader) :
    CommonHeader.decode (frame.drop BasicHeader.size) =
      (CommonNext.ofCode (protocolOf frame)).bind fun next =>
        (PacketType.ofCodes (typeOf frame) (subtypeOf frame)).map fun type =>
          { next, type, trafficClass := ⟨octetAt frame 6⟩, mobile := 128 ≤ octetAt frame 7
            payloadLength := UInt16.ofNat (declaredOf frame), maxHops := hopLimitOf frame } := by
  match frame, h with
  | _ :: _ :: _ :: _ :: next :: type :: trafficClass :: flags :: high :: low :: hops :: _ :: rest, _ =>
    show CommonHeader.decode (next :: type :: trafficClass :: flags :: high :: low :: hops :: _) =
      (CommonNext.ofCode (next / 16)).bind fun next =>
        (PacketType.ofCodes (type / 16) (type % 16)).map _
    unfold CommonHeader.decode
    dsimp only
    cases CommonNext.ofCode (next / 16) with
    | error e => rfl
    | ok next =>
      dsimp only [Except.bind]
      cases PacketType.ofCodes (type / 16) (type % 16) <;> rfl

/-- What can come of the bytes behind the fixed headers. -/
theorem decodeBody_cases {basic : BasicHeader} {common : CommonHeader} {bytes : Bytes} :
    (∃ p, decodeBody basic common bytes = .ok p) ∧
        Extended.sizeOf common.type + common.payloadLength.toNat ≤ bytes.length ∨
      decodeBody basic common bytes =
          .error (.tooShort (Extended.sizeOf common.type) bytes.length) ∧
        bytes.length < Extended.sizeOf common.type ∨
      decodeBody basic common bytes = .error (.payloadLengthMismatch common.payloadLength.toNat
          (bytes.length - Extended.sizeOf common.type)) ∧
        Extended.sizeOf common.type ≤ bytes.length ∧
        bytes.length < Extended.sizeOf common.type + common.payloadLength.toNat := by
  unfold decodeBody
  by_cases hshort : bytes.length < Extended.sizeOf common.type
  · rw [(Access.extended_of_lt hshort).2]
    exact .inr (.inl ⟨rfl, hshort⟩)
  · obtain ⟨e, _, hread⟩ := Access.extended_of_le (Nat.not_lt.mp hshort)
    have hrest : (bytes.drop (Extended.sizeOf common.type)).length =
      bytes.length - Extended.sizeOf common.type := List.length_drop
    rw [hread, ← hrest]
    dsimp only
    by_cases henough : common.payloadLength.toNat ≤ (bytes.drop (Extended.sizeOf common.type)).length
    · rw [dif_pos henough]
      exact .inl ⟨⟨_, rfl⟩, by omega⟩
    · rw [dif_neg henough]
      exact .inr (.inr ⟨rfl, by omega, by omega⟩)

theorem declaredOf_lt (frame : Bytes) : declaredOf frame < 65536 := by
  have hhigh := (octetAt frame 8).toNat_lt
  have hlow := (octetAt frame 9).toNat_lt
  unfold declaredOf
  omega

variable {frame : Bytes} {basic : BasicHeader} {common : CommonHeader}

/-- A fault in the basic header is what is reported of the frame. -/
theorem decode_of_basic_error {e : PacketError} (h : BasicHeader.decode frame = .error e) :
    decode frame = .error e := by
  unfold decode
  rw [h]

/-- So is one in the common header, if the basic header is sound. -/
theorem decode_of_common_error {e : PacketError} (hbasic : BasicHeader.decode frame = .ok basic)
    (hplain : basic.next ≠ .secured)
    (h : CommonHeader.decode (frame.drop BasicHeader.size) = .error e) :
    decode frame = .error e := by
  unfold decode
  rw [hbasic]
  simp only [if_neg hplain, h]

/-- With both headers sound, hops and the rest of the frame are looked at. -/
theorem decode_of_headers (hbasic : BasicHeader.decode frame = .ok basic)
    (hplain : basic.next ≠ .secured)
    (hcommon : CommonHeader.decode (frame.drop BasicHeader.size) = .ok common) :
    decode frame = if common.maxHops < basic.remainingHops then
      .error (.hopLimitMismatch basic.remainingHops common.maxHops)
      else decodeBody basic common (frame.drop fixedSize) := by
  unfold decode
  rw [hbasic]
  simp only [if_neg hplain, hcommon]

/-- Whoever comes to the common header has a basic header that is in order. -/
theorem basic_of_reached (h : Rule.Reached frame .commonHeader) :
    ∃ basic, BasicHeader.decode frame = .ok basic ∧ basic.next ≠ .secured ∧
      basic.remainingHops = hopsLeftOf frame := by
  have hversion : versionOf frame ≤ 1 := h .version (by decide)
  obtain ⟨next, hnext, hne⟩ := BasicNext.ofCode_of_lt (h .protection (by decide))
  refine ⟨⟨versionOf frame, next, ⟨octetAt frame 2⟩, hopsLeftOf frame⟩, ?_, hne, rfl⟩
  rw [basicHeader_decode (h .basicHeader (by decide)), if_neg (UInt8.not_lt.mpr hversion), hnext]
  rfl

/-- Whoever comes to the hop limits has a common header that is in order. -/
theorem common_of_reached (h : Rule.Reached frame .hops) :
    ∃ common, CommonHeader.decode (frame.drop BasicHeader.size) = .ok common ∧
      common.maxHops = hopLimitOf frame ∧ common.payloadLength.toNat = declaredOf frame ∧
      Extended.sizeOf common.type = extendedOf frame := by
  obtain ⟨next, hnext⟩ := CommonNext.ofCode_of_le (h .protocol (by decide))
  obtain ⟨size, hsize⟩ := Option.isSome_iff_exists.mp (h .type (by decide))
  obtain ⟨type, hread, hsizeOf⟩ := PacketType.ofCodes_of_assigned hsize
  rw [commonHeader_decode (h .commonHeader (by decide)), hnext, hread]
  refine ⟨_, rfl, rfl, ?_, ?_⟩
  · show (UInt16.ofNat (declaredOf frame)).toNat = declaredOf frame
    rw [UInt16.toNat_ofNat']
    exact Nat.mod_eq_of_lt (declaredOf_lt frame)
  · show Extended.sizeOf type = (layoutOf? frame).getD 0
    rw [hsizeOf, hsize]
    rfl

/-- Whoever comes to the extended header is refused for its length or the payload's, or not at
all. -/
theorem decode_of_reached (h : Rule.Reached frame .extendedHeader) :
    (∃ p, decode frame = .ok p) ∧ 12 + extendedOf frame + declaredOf frame ≤ frame.length ∨
      decode frame = .error (Rule.report frame .extendedHeader) ∧
        frame.length < 12 + extendedOf frame ∨
      decode frame = .error (Rule.report frame .payload) ∧ 12 + extendedOf frame ≤ frame.length ∧
        frame.length < 12 + extendedOf frame + declaredOf frame := by
  obtain ⟨basic, hbasic, hne, hleft⟩ := basic_of_reached (h.mono (by decide))
  obtain ⟨common, hcommon, hlimit, hdeclared, hsize⟩ := common_of_reached (h.mono (by decide))
  have hhops : hopsLeftOf frame ≤ hopLimitOf frame := h .hops (by decide)
  have hlong : 12 ≤ frame.length := h .commonHeader (by decide)
  have hlength : (frame.drop fixedSize).length = frame.length - 12 := List.length_drop
  have hbody := @decodeBody_cases basic common (frame.drop fixedSize)
  rw [hsize, hdeclared, hlength] at hbody
  rw [decode_of_headers hbasic hne hcommon, hleft, hlimit, if_neg (UInt8.not_lt.mpr hhops)]
  rcases hbody with ⟨hp, henough⟩ | ⟨hshort, hless⟩ | ⟨hmismatch, henough, hless⟩
  · exact .inl ⟨hp, by omega⟩
  · exact .inr (.inl ⟨hshort, by omega⟩)
  · rw [Nat.sub_sub] at hmismatch
    exact .inr (.inr ⟨hmismatch, by omega, by omega⟩)

/-- Whatever rule a frame breaks first, that one is reported. -/
theorem decode_of_first_broken {r : Rule} (hbroken : ¬ r.Kept frame) (h : r.Reached frame) :
    decode frame = .error (r.report frame) := by
  cases r with
  | basicHeader =>
    exact decode_of_basic_error (BasicHeader.decode_of_short (Nat.not_le.mp hbroken))
  | version =>
    refine decode_of_basic_error ?_
    rw [basicHeader_decode (h .basicHeader (by decide)), if_pos (UInt8.not_le.mp hbroken)]
    rfl
  | protection =>
    have hversion : versionOf frame ≤ 1 := h .version (by decide)
    have hbasic := basicHeader_decode (h .basicHeader (by decide))
    rw [if_neg (UInt8.not_lt.mpr hversion)] at hbasic
    unfold Rule.report
    -- a secured packet is told apart from a code without a meaning
    by_cases hsecured : protectionOf frame = 2
    · rw [hsecured] at hbasic
      unfold decode
      rw [hbasic, if_pos hsecured]
      rfl
    · rw [BasicNext.ofCode_of_other hbroken hsecured] at hbasic
      rw [if_neg hsecured]
      exact decode_of_basic_error hbasic
  | commonHeader =>
    obtain ⟨basic, hbasic, hne, _⟩ := basic_of_reached h
    have hless : frame.length < 12 := Nat.not_le.mp hbroken
    have hlong : 4 ≤ frame.length := h .basicHeader (by decide)
    have hlength : (frame.drop BasicHeader.size).length = frame.length - 4 := List.length_drop
    have hshort : (frame.drop BasicHeader.size).length < CommonHeader.size := by
      simp only [hlength, CommonHeader.size]
      omega
    rw [decode_of_common_error hbasic hne (CommonHeader.decode_of_short hshort), hlength]
    rfl
  | protocol =>
    obtain ⟨basic, hbasic, hne, _⟩ := basic_of_reached (h.mono (by decide))
    refine decode_of_common_error hbasic hne ?_
    rw [commonHeader_decode (h .commonHeader (by decide)), CommonNext.ofCode_of_not_le hbroken]
    rfl
  | type =>
    obtain ⟨basic, hbasic, hne, _⟩ := basic_of_reached (h.mono (by decide))
    obtain ⟨next, hnext⟩ := CommonNext.ofCode_of_le (h .protocol (by decide))
    refine decode_of_common_error hbasic hne ?_
    rw [commonHeader_decode (h .commonHeader (by decide)), hnext,
      PacketType.ofCodes_of_unassigned (Option.not_isSome_iff_eq_none.mp hbroken)]
    rfl
  | hops =>
    obtain ⟨basic, hbasic, hne, hleft⟩ := basic_of_reached (h.mono (by decide))
    obtain ⟨common, hcommon, hlimit, _⟩ := common_of_reached h
    rw [decode_of_headers hbasic hne hcommon, hleft, hlimit, if_pos (UInt8.not_le.mp hbroken)]
    rfl
  | extendedHeader =>
    have hless : frame.length < 12 + extendedOf frame := Nat.not_le.mp hbroken
    -- of what may come of sound headers only one goes with this length
    rcases decode_of_reached h with ⟨_, henough⟩ | ⟨hshort, _⟩ | ⟨_, henough, _⟩
    · omega
    · exact hshort
    · omega
  | payload =>
    have hlong : 12 + extendedOf frame ≤ frame.length := h .extendedHeader (by decide)
    have hless : frame.length < 12 + extendedOf frame + declaredOf frame := Nat.not_le.mp hbroken
    rcases decode_of_reached (h.mono (by decide)) with ⟨_, henough⟩ | ⟨_, hshort⟩ | ⟨hmismatch, _⟩
    · omega
    · omega
    · exact hmismatch

/-- A frame that keeps all rules is decoded. -/
theorem decode_of_kept (h : ∀ r : Rule, r.Kept frame) : ∃ p, decode frame = .ok p := by
  have henough : 12 + extendedOf frame + declaredOf frame ≤ frame.length := h .payload
  rcases decode_of_reached fun r _ => h r with ⟨hp, _⟩ | ⟨_, hshort⟩ | ⟨_, _, hless⟩
  · exact hp
  · omega
  · omega

/-- A frame is decoded exactly when it keeps all rules, and otherwise what is reported is the first
one that it breaks; and a decoder that reaches for bytes, tails and slices by their positions comes
to the same without ever reaching outside. -/
theorem decode_classified (frame : Bytes) :
    ((∃ p, decode frame = .ok p) ↔ ∀ r : Rule, r.Kept frame) ∧
      (∀ e, decode frame = .error e ↔
        ∃ r, Rule.firstBroken? frame = some r ∧ r.report frame = e) ∧
      Access.decode frame = .ofExcept ((decode frame).map parts) ∧
      Access.decode frame ≠ .outside := by
  have hreaches := Access.decode_eq frame
  have hinside : Access.decode frame ≠ .outside := by
    rw [hreaches]
    exact Access.ofExcept_ne_outside _
  cases hfirst : Rule.firstBroken? frame with
  | none =>
    have hkept := Rule.firstBroken?_eq_none_iff.mp hfirst
    obtain ⟨p, hp⟩ := decode_of_kept hkept
    refine ⟨⟨fun _ => hkept, decode_of_kept⟩, fun e => ?_, hreaches, hinside⟩
    rw [hp]
    simp
  | some r =>
    obtain ⟨hbroken, hreached⟩ := Rule.reached_of_firstBroken? hfirst
    have herror := decode_of_first_broken hbroken hreached
    refine ⟨⟨fun ⟨p, hp⟩ => ?_, decode_of_kept⟩, fun e => ?_, hreaches, hinside⟩
    · rw [herror] at hp
      exact nomatch hp
    · rw [herror]
      simp

/-- Of all that is wrong with twelve such bytes, the protocol of the payload is reported. -/
example : Rule.firstBroken? (0x11 :: List.replicate 11 0xff) = some .protocol := by decide

end Packet

end Geocast
