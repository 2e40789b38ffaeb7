import Geocast.Proofs.Queue.Stay
import Geocast.Proofs.Router.Frames

/-!
# How packets age in a router

While a packet waits, its time runs out. Each time it is forwarded anew it is written down again,
with what is then left of its lifetime, and it waits from then on for no longer than that. `Aging`
ties every frame that is held or was sent to the releases at which its packet was written, and so to
the lifetime with which the router took the packet over. It holds in every state that a router can
come to (`Reachable.aging`).
-/

namespace Geocast

/-- The stay of a packet when the router took it over, as the packet itself said then. -/
def Origin.stay? (o : Origin) : Option Stay :=
  match Packet.decode o.frame with
  | .ok p => some ⟨o.time, p.basic.lifetime.millis⟩
  | .error _ => none

theorem Origin.stay?_of_decode {o : Origin} {p : Packet} (h : Packet.decode o.frame = .ok p) :
    o.stay? = some ⟨o.time, p.basic.lifetime.millis⟩ := by
  unfold Origin.stay?
  rw [h]

namespace Router

/-- A frame is a packet as it was taken over, or as it was written at the last of some releases,
which is on record. -/
def Written (records : List Release) (o : Origin) (frame : Bytes) (times : List Nat) : Prop :=
  times = [] ∧ frame = o.frame ∨
    ∃ e ∈ records, e.parcel.origin = o ∧ e.frame = frame ∧ times = e.parcel.releases ++ [e.time]

theorem Written.mono {records later : List Release} {o : Origin} {frame : Bytes} {times : List Nat}
    (h : Written records o frame times) (hlater : records ⊆ later) :
    Written later o frame times :=
  h.imp_right fun ⟨e, he, hrecord⟩ => ⟨e, hlater he, hrecord⟩

/-- What is known of a frame whose packet was released at some times: it was written at the last of
them, it says how long it may stay from then on, and that is what the releases have left of the
stay of its origin. -/
structure Aged (records : List Release) (o : Origin) (frame : Bytes) (times : List Nat)
    (stay : Stay) : Prop where
  whole : ∃ first, o.stay? = some first ∧ first.Lasts times ∧ first.after times = stay
  written : Written records o frame times
  carries : ∃ q : Packet, q.Sendable ∧ frame = q.encode ∧ q.basic.lifetime.millis = stay.lifetime

theorem Aged.mono {records later : List Release} {o : Origin} {frame : Bytes} {times : List Nat}
    {stay : Stay} (h : Aged records o frame times stay) (hlater : records ⊆ later) :
    Aged later o frame times stay :=
  ⟨h.whole, h.written.mono hlater, h.carries⟩

variable {α : Type}

/-- Every frame that is held has aged as its releases say, and so had every frame that was sent,
at once or before its time was up, and every frame that was given up, when it was. -/
structure Aging (r : Router α) : Prop where
  held : ∀ p, r.Holds p →
    Aged r.released p.origin p.frame p.releases p.stay ∧ p.enqueuedAt ≤ r.now
  expired : ∀ e ∈ r.expired,
    Aged r.released e.parcel.origin e.parcel.frame e.parcel.releases e.parcel.stay ∧
      e.parcel.enqueuedAt ≤ e.time ∧ e.parcel.isExpired e.time = true
  sent : ∀ e ∈ r.emissions, ∃ times stay, Aged r.released e.origin e.frame times stay ∧
    stay.since ≤ e.time ∧ (e.time = stay.since ∨ e.time < stay.deadline)

/-- What is held live has some of its stay left, by its releases. -/
theorem Aging.live {r : Router α} (h : Aging r) {p : Parcel} (hlive : r.HoldsLive p) :
    r.now < p.stay.deadline := by
  have hsince := (h.held p hlive.1).2
  rw [← Nat.not_le, ← Parcel.isExpired_iff hsince, hlive.2]
  exact Bool.false_ne_true

variable [Scalar α] {P : Router α → Packet → Prop} {r s : Router α}

/-- What sets out is as old as its releases say, and stays from now on. -/
theorem Aging.setsOut (h : Aging r) {records : List Release} {o : Outgoing}
    (hsets : r.SetsOut P records o) :
    Aged records o.origin o.frame o.releases ⟨r.now, o.lifetime⟩ := by
  cases hsets with
  | @begins p _ outlet handle hsendable _ _ =>
    refine ⟨⟨_, ?_, trivial, rfl⟩, .inl ⟨rfl, rfl⟩, p, hsendable, rfl, rfl⟩
    exact Origin.stay?_of_decode (Packet.decode_encode hsendable)
  | @anew q p u is_unicast e hlive hdecode he htime hparcel hframe =>
    obtain ⟨⟨⟨first, hfirst, hlasts, hafter⟩, _, q', hsendable, hwritten, _⟩, hsince⟩ :=
      h.held q hlive.1
    have hgood := h.live hlive
    rw [hwritten, Packet.decode_encode hsendable] at hdecode
    obtain rfl := Except.ok.inj hdecode
    refine ⟨⟨first, hfirst, ?_, ?_⟩, .inr ⟨e, he, ?_, hframe, ?_⟩,
      _, onward_sendable r q hsendable u is_unicast, rfl, rfl⟩
    · -- it was still good when it was taken out
      refine hlasts.concat ?_ ?_
      · rw [hafter]
        exact hsince
      · rw [hafter]
        exact hgood
    · show first.after (q.releases ++ [r.now]) = _
      rw [Stay.after_concat, hafter]
      rfl
    · rw [hparcel]
      rfl
    · rw [hparcel, htime]
      rfl

/-- A frame that stays ages by waiting only, and one that is released by one release more. -/
theorem Aging.conveys (h : Aging r) (hconveys : Conveys P r s) (hnow : r.now ≤ s.now) :
    Aging s where
  held := by
    intro p hp
    rcases hconveys.held hp with hp | ⟨o, ho, rfl⟩
    · obtain ⟨haged, hsince⟩ := h.held p hp
      -- it only waited
      exact ⟨haged.mono hconveys.released, Nat.le_trans hsince hnow⟩
    · exact ⟨h.setsOut ho, hnow⟩
  expired := by
    intro e he
    rcases hconveys.expired e he with he | ⟨hheld, htime, hgone⟩
    · obtain ⟨haged, hsince⟩ := h.expired e he
      exact ⟨haged.mono hconveys.released, hsince⟩
    · obtain ⟨haged, hsince⟩ := h.held _ hheld
      rw [htime]
      exact ⟨haged.mono hconveys.released, hsince, hgone⟩
  sent := by
    intro e he
    rcases hconveys.sent e he with he | ⟨htime, hleaves⟩
    · obtain ⟨times, stay, haged, hsent⟩ := h.sent e he
      exact ⟨times, stay, haged.mono hconveys.released, hsent⟩
    · rw [htime]
      generalize e.origin = origin at hleaves
      generalize e.frame = frame at hleaves
      cases hleaves with
      | setsOut ho => exact ⟨_, _, h.setsOut ho, Nat.le_refl _, .inl rfl⟩
      | @asIs p hlive =>
        obtain ⟨haged, hsince⟩ := h.held p hlive.1
        exact ⟨_, _, haged.mono hconveys.released, hsince, .inr (h.live hlive)⟩

/-- No move makes a frame younger. -/
theorem Aging.move (hmove : Move P r s) (h : Aging r) : Aging s := by
  have hnow := hmove.forth.1
  cases hmove with
  | work hwork => exact h.conveys hwork.conveys hnow
  | hear hheard =>
    obtain ⟨table, _, hconveys⟩ := hheard.conveys (P := P)
    exact Aging.conveys (r := { r with table }) ⟨h.held, h.expired, h.sent⟩ hconveys hnow

/-- In every reachable state frames have aged as their releases say. -/
theorem Reachable.aging (reach : Reachable r) : Aging r := by
  refine reach.invariant (fun hmade => ?_) fun hmove h => h.move hmove
  have hnone := not_holds_of_make hmade
  obtain ⟨_, rfl⟩ := eq_of_make hmade
  constructor
  · exact fun p hp => absurd hp (hnone p)
  · exact fun e he => absurd he List.not_mem_nil
  · exact fun e he => absurd he List.not_mem_nil

end Router

end Geocast
