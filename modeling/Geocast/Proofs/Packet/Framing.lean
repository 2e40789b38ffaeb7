import Geocast.Proofs.Packet.Canonical

/-!
# Where a frame ends

The frame of a packet is read back whatever stands behind it, and no part of it that ends sooner is
taken for a frame: it is refused as too short, or because its payload is
(`assembled_decode_append`). So no frame is the front of another one.

A part of a frame either ends within the header at its front or has that header whole, and then goes
on with a part of what stands behind it. The proof takes the frame apart in this way.
-/

namespace Geocast

/-- Whether a frame was refused because bytes are missing at its end. -/
def PacketError.isShortage : PacketError → Bool
  | tooShort _ _ | payloadLengthMismatch _ _ => true
  | _ => false

/-- A front part of two byte strings ends within the first, or has it whole. -/
theorem Bytes.within_or_beyond {s a b : Bytes} (h : s <+: a ++ b) :
    s.length < a.length ∨ ∃ s', s = a ++ s' ∧ s' <+: b := by
  obtain ⟨u, hu⟩ := h
  rcases List.append_eq_append_iff.mp hu with ⟨a', rfl, rfl⟩ | ⟨s', rfl, rfl⟩
  · cases a' with
    | nil => exact .inr ⟨[], by rw [List.append_nil, List.append_nil], List.nil_prefix⟩
    | cons c a' =>
      left
      rw [List.length_append, List.length_cons]
      omega
  · exact .inr ⟨s', rfl, List.prefix_append _ _⟩

theorem BasicHeader.decode_of_short {bytes : Bytes} (h : bytes.length < size) :
    decode bytes = .error (.tooShort size bytes.length) := by
  unfold decode
  split
  · simp only [List.length_cons, size] at h
    omega
  · rfl

theorem CommonHeader.decode_of_short {bytes : Bytes} (h : bytes.length < size) :
    decode bytes = .error (.tooShort size bytes.length) := by
  unfold decode
  split
  · simp only [List.length_cons, size] at h
    omega
  · rfl

namespace Packet

/-- What stands behind the common header cannot be cut either. -/
theorem decodeBody_of_short {p : Packet} (h : p.Sendable) {s : Bytes}
    (hshort : s.length < (p.extended.toBytes ++ p.payload).length) :
    ∃ e, decodeBody p.basic p.common s = .error e ∧ e.isShortage = true := by
  unfold decodeBody
  split
  · exact ⟨_, rfl, rfl⟩
  · next rest hread =>
    have hwhole := (Extended.shows_of_read
      (Extended.read_append p.extended p.fits p.payload h.source)).length_eq.2
    have hpart := (Extended.shows_of_read hread).length_eq.2
    have hdeclared := p.declared
    have hless : ¬ p.common.payloadLength.toNat ≤ rest.length := by omega
    rw [dif_neg hless]
    exact ⟨_, rfl, rfl⟩

/-- Of a frame that is cut something is missing. -/
theorem decode_of_prefix {p : Packet} (h : p.Sendable) {s : Bytes} (hfront : s <+: p.encode)
    (hcut : s ≠ p.encode) : ∃ e, decode s = .error e ∧ e.isShortage = true := by
  have hframe : p.encode = p.basic.toBytes ++ (p.common.toBytes ++
      (p.extended.toBytes ++ p.payload)) := by
    simp only [encode, List.append_assoc]
  rw [hframe] at hfront hcut
  unfold decode
  rcases Bytes.within_or_beyond hfront with hshort | ⟨s', rfl, hrest⟩
  · rw [BasicHeader.decode_of_short hshort]
    exact ⟨_, rfl, rfl⟩
  · rw [BasicHeader.decode_append _ _ h.version]
    simp only [if_neg h.plain]
    rw [show (p.basic.toBytes ++ s').drop BasicHeader.size = s' from rfl]
    rcases Bytes.within_or_beyond hrest with hshort | ⟨body, rfl, hbody⟩
    · rw [CommonHeader.decode_of_short hshort]
      exact ⟨_, rfl, rfl⟩
    · rw [CommonHeader.decode_append]
      simp only [if_neg (UInt8.not_lt.mpr h.hops)]
      rw [show (p.basic.toBytes ++ (p.common.toBytes ++ body)).drop fixedSize = body from rfl]
      refine decodeBody_of_short h (Nat.lt_of_le_of_ne hbody.length_le fun hlength => hcut ?_)
      rw [hbody.eq_of_length hlength]

/-- Headers that can be sent and a payload that is not too long make a packet, and its frame is as
long as its headers and its payload, is read back whatever stands behind it, and is not read at all
if it is cut. -/
theorem assembled_decode_append {basic : BasicHeader} {common : CommonHeader}
    {extended : Extended} {payload : Bytes} (version : basic.version ≤ 1)
    (next : basic.next = .any ∨ basic.next = .common)
    (hops : basic.remainingHops ≤ common.maxHops)
    (speeds : ∀ v, extended.source? = some v → -16384 ≤ v.speed.toInt ∧ v.speed.toInt ≤ 16383)
    (fits : extended.fits common.type = true) (small : payload.length ≤ maxPayload) :
    ∃ p, assemble basic common extended payload = .ok p ∧ p.basic = basic ∧
      p.common = { common with payloadLength := UInt16.ofNat payload.length } ∧
      p.extended = extended ∧ p.payload = payload ∧
      (∀ trailing, decode (p.encode ++ trailing) = .ok p) ∧
      p.encode.length = p.headerSize + p.payload.length ∧
      ∀ s, s <+: p.encode → s ≠ p.encode → ∃ e, decode s = .error e ∧ e.isShortage = true := by
  have hassemble : assemble basic common extended payload =
      .ok (ofParts basic common extended payload fits small) := by
    unfold assemble
    rw [dif_pos small, dif_pos fits]
  have hsendable : (ofParts basic common extended payload fits small).Sendable := {
    version := version
    plain := by
      intro hsecured
      rcases next with hnext | hnext <;> exact absurd (hnext.symm.trans hsecured) (by simp)
    hops := hops
    source := speeds }
  exact ⟨_, hassemble, rfl, rfl, rfl, rfl, decode_encode_append hsendable, length_encode _,
    fun _ => decode_of_prefix hsendable⟩

/-- So it is of a packet for an ellipse whose source drives backwards. -/
theorem assembled_decode_append_of_ellipse :
    let source : LongPosition := { speed := -16384, accurate := true }
    let area : Area := { a := 300, b := 100, angle := 45, shape := .ellipse }
    let common : CommonHeader := { next := .btpB, type := .geoBroadcast .ellipse, maxHops := 5 }
    ∃ p, assemble { remainingHops := 3 } common (.area { sequence := ⟨7⟩, source, area }) [1, 2] =
        .ok p ∧
      decode (p.encode ++ [3]) = .ok p ∧ p.encode.length = 60 ∧
      ∃ e, decode (p.encode.take 59) = .error e ∧ e.isShortage = true := by
  intro source area common
  have hspeed : -16384 ≤ source.speed.toInt ∧ source.speed.toInt ≤ 16383 := by decide
  obtain ⟨p, hassemble, _, _, hextended, hpayload, hdecode, hlength, hcut⟩ :=
    @assembled_decode_append { remainingHops := 3 } common
      (.area { sequence := ⟨7⟩, source, area }) [1, 2] (by decide) (.inr rfl) (by decide)
      (fun v hv => Option.some.inj hv ▸ hspeed) rfl (by decide)
  have hsixty : p.encode.length = 60 := by
    rw [hlength, headerSize, hextended, hpayload]
    rfl
  refine ⟨p, hassemble, hdecode [3], hsixty, hcut _ (List.take_prefix _ _) fun hall => ?_⟩
  have hshort := congrArg List.length hall
  rw [List.length_take, hsixty] at hshort
  exact absurd hshort (by decide)

end Packet

end Geocast
