import Geocast.Proofs.Router.Relay

/-!
# What a router sends

A receiver takes a frame for one that came straight from its source when no hop was used up, or when
its type is never relayed. `emitted_wellFormed` says that this is sound between routers: whatever
a router sends can be read and has a hop left, no hop is used up exactly when the router is the
source, and what it relays is of a type that is.
-/

namespace Geocast.Router

variable {α : Type} [Scalar α] {s : Router α}

/-- The packet of a frame that was sent is the router's own, with no hop used up, or it is numbered
and a hop was. -/
theorem Reachable.emitted (reach : Reachable s) {e : Emission} (he : e ∈ s.emissions) :
    ∃ (q : Packet) (v : LongPosition), q.Sendable ∧ e.frame = q.encode ∧ q.source? = some v ∧
      q.basic.remainingHops ≠ 0 ∧
      (v.address = s.config.address ∧ q.basic.remainingHops = q.common.maxHops ∨
        v.address ≠ s.config.address ∧ q.basic.remainingHops ≠ q.common.maxHops ∧
          q.sequence?.isSome = true) := by
  obtain ⟨_, q, _, hpassed, hsendable, hframe, hwhence⟩ := reach.sent he
  have hhops := hpassed.remainingHops_eq
  rcases hwhence with hown | ⟨r, frame, received, hreach, hleads, htook⟩
  · obtain ⟨v, hsource, hhome⟩ := hown.source
    refine ⟨q, v, hsendable, hframe, hpassed.source?.trans hsource, hhops ▸ hown.hops,
      .inl ⟨hhome, ?_⟩⟩
    rw [hhops, hpassed.common]
    exact hown.full
  · obtain ⟨v, hsource, hother⟩ := htook.source
    have hconfig : s.config = r.config :=
      (Leads.later (.head (.receive r frame) hleads)).config
    refine ⟨q, v, hsendable, hframe, (hpassed.source?.trans htook.passed.source?).trans hsource,
      hhops ▸ htook.hops, .inr ⟨hconfig ▸ hother, ?_, hpassed.sequence? ▸ htook.numbered⟩⟩
    -- what was received had no more hops left than it might make
    have hmost := UInt8.le_iff_toNat_le.mp (Packet.sendable_of_decode htook.decoded).hops
    have hless := htook.passed.hops
    rw [hhops, hpassed.common, htook.passed.common]
    intro hfull
    rw [hfull] at hless
    omega

omit [Scalar α] in
/-- Whom a router takes for the sender of a frame depends on the packet alone. -/
theorem direct_of_judge {r : Router α} {q : Packet} (hsendable : q.Sendable) {a : Arrival}
    (h : r.judge q.encode = .ok a) : q.source? = some a.source ∧ a.direct = isDirect q := by
  obtain ⟨q', hdecode, hsource, hother, hhops, _⟩ := judge_ok h
  obtain rfl := Except.ok.inj ((Packet.decode_encode hsendable).symm.trans hdecode)
  rw [judge_of_decode hdecode hsource hother hhops] at h
  exact ⟨hsource, congrArg Arrival.direct (Except.ok.inj h).symm⟩

/-- In every state that a router can come to, each frame that it has handed to the link decodes,
with nothing behind the payload and at least a hop left. No hop is used up exactly when the router
is the source, and what has another source is neither a beacon nor for whoever hears it directly.
So whichever router receives the frame takes it for one that its source has sent exactly when that
is so. -/
theorem emitted_wellFormed (reach : Reachable s) {e : Emission} (he : e ∈ s.emissions) :
    ∃ q v, Packet.decode e.frame = .ok q ∧ e.frame.length = q.headerSize + q.payload.length ∧
      1 ≤ q.basic.remainingHops ∧ q.source? = some v ∧
      (v.address = s.config.address ↔ q.basic.remainingHops = q.common.maxHops) ∧
      (v.address ≠ s.config.address →
        q.common.type ≠ .beacon ∧ q.common.type ≠ .singleHopBroadcast) ∧
      ∀ (r : Router α) (a : Arrival), r.judge e.frame = .ok a →
        (a.direct = true ↔ a.source.address = s.config.address) := by
  obtain ⟨q, v, hsendable, hframe, hsource, hhops, hsender⟩ := reach.emitted he
  have hpositive : 1 ≤ q.basic.remainingHops := by
    rw [UInt8.le_iff_toNat_le]
    exact Nat.one_le_iff_ne_zero.mpr fun hzero => hhops (UInt8.toNat.inj hzero)
  refine ⟨q, v, hframe ▸ Packet.decode_encode hsendable, hframe ▸ q.length_encode, hpositive,
    hsource, ?_, ?_, ?_⟩
  · rcases hsender with ⟨hhome, hfull⟩ | ⟨hother, hspent, _⟩
    · exact iff_of_true hhome hfull
    · exact iff_of_false hother hspent
  · intro hother
    rcases hsender with ⟨hhome, _⟩ | ⟨_, _, hnumbered⟩
    · exact absurd hhome hother
    · exact Packet.type_of_numbered hnumbered
  · intro r a hjudge
    rw [hframe] at hjudge
    obtain ⟨hsource', hdirect⟩ := direct_of_judge hsendable hjudge
    obtain rfl := Option.some.inj (hsource.symm.trans hsource')
    rw [hdirect]
    unfold isDirect
    rw [decide_eq_true_iff]
    rcases hsender with ⟨hhome, hfull⟩ | ⟨hother, hspent, hnumbered⟩
    · exact iff_of_true (.inr (.inr hfull)) hhome
    · obtain ⟨hbeacon, hsingle⟩ := Packet.type_of_numbered hnumbered
      refine iff_of_false ?_ hother
      rintro (htype | htype | hfull)
      · exact hbeacon htype
      · exact hsingle htype
      · exact hspent hfull

/-- A relayed packet is not taken for one that its source has sent. -/
theorem emitted_wellFormed_of_relayed :
    ∃ e ∈ trialRelayed.emissions, ∃ q, Packet.decode e.frame = .ok q ∧
      1 ≤ q.basic.remainingHops ∧ q.basic.remainingHops ≠ q.common.maxHops := by
  obtain ⟨q, v, hdecode, _, hhops, hsource, hfull, _⟩ :=
    emitted_wellFormed trialRelayed_reachable trialEmission_mem
  refine ⟨trialEmission, trialEmission_mem, q, hdecode, hhops, fun hequal => ?_⟩
  obtain rfl := Except.ok.inj (decode_trialEmission.symm.trans hdecode)
  obtain rfl := Option.some.inj hsource
  exact absurd (hfull.mpr hequal) (by decide +kernel)

end Geocast.Router
