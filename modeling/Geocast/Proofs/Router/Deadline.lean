import Geocast.Proofs.Router.Aging
import Geocast.Proofs.Router.Relay

/-!
# The deadline of a packet

A router accepts a packet with a lifetime, and from then on its time runs. Whatever the router sends
of it later, it sends before that time is up: no release, and no move from one queue to another,
puts off the deadline of what is held (`sent_before_deadline`).

What is sent should also say how much of the lifetime is left, so that the next station does not
start it over. But only what is forwarded anew is written again. What waits for a neighbour or on a
timer goes out as it came in, and `charged_iff` says when the lifetime that goes out is nevertheless
not more than what is left.
-/

namespace Geocast.Router

variable {α : Type} [Scalar α] {s : Router α}

/-- The stay of an accepted packet begins when it is accepted, and may last for its lifetime. -/
theorem Accepted.stay? {o : Origin} {lifetime : Lifetime} (h : s.Accepted o lifetime) :
    o.stay? = some ⟨o.time, lifetime.millis⟩ := by
  obtain ⟨p, hdecode, _⟩ := h.whence
  rw [Origin.stay?_of_decode hdecode, h.lifetime_eq hdecode]

/-- What is known of a frame that was sent: with which lifetime its packet was accepted, and how its
stay went until then. -/
theorem Reachable.sent_stay (reach : Reachable s) {e : Emission} (he : e ∈ s.emissions) :
    ∃ lifetime times, s.Accepted e.origin lifetime ∧
      (⟨e.origin.time, lifetime.millis⟩ : Stay).Lasts times ∧
      ∃ stay, stay = (⟨e.origin.time, lifetime.millis⟩ : Stay).after times ∧
        Aged s.released e.origin e.frame times stay ∧ stay.since ≤ e.time ∧
        (e.time = stay.since ∨ e.time < stay.deadline) := by
  obtain ⟨_, ⟨lifetime, haccepted⟩, _⟩ := reach.accepted.sent e he
  obtain ⟨times, stay, haged, hsent⟩ := reach.aging.sent e he
  obtain ⟨first, hfirst, hlasts, hafter⟩ := haged.whole
  obtain rfl := Option.some.inj (haccepted.stay?.symm.trans hfirst)
  exact ⟨lifetime, times, haccepted, hlasts, stay, hafter.symm, haged, hsent⟩

/-- In every state that a router can come to: each frame that it has handed to the link carries a
packet that it accepted, and was handed out in that instant or before the lifetime had passed with
which it was accepted. Nothing that it holds may stay any longer than that, whatever queues it came
through. -/
theorem sent_before_deadline (reach : Reachable s) :
    (∀ e ∈ s.emissions, ∃ lifetime, s.Accepted e.origin lifetime ∧
      (∃ p q, Packet.decode e.origin.frame = .ok p ∧ Packet.decode e.frame = .ok q ∧
        p.Passed 0 q) ∧
      e.origin.time ≤ e.time ∧
      (e.origin.time < e.time → e.time < e.origin.time + lifetime.millis)) ∧
    ∀ p, s.Holds p → ∃ lifetime, s.Accepted p.origin lifetime ∧
      p.stay.deadline ≤ p.origin.time + lifetime.millis := by
  constructor
  · intro e he
    obtain ⟨p, q, hdecode, hpassed, hsendable, hframe, _⟩ := reach.sent he
    obtain ⟨lifetime, times, haccepted, hlasts, stay, rfl, _, hsince, hsent⟩ := reach.sent_stay he
    refine ⟨lifetime, haccepted, ?_, Nat.le_trans hlasts.since_le hsince, ?_⟩
    · exact ⟨p, q, hdecode, hframe ▸ Packet.decode_encode hsendable, hpassed⟩
    · intro hlater
      rcases hsent with hatonce | hgood
      · -- it was forwarded anew just then, while it was still good
        have hreleased : times ≠ [] := by
          rintro rfl
          exact absurd hatonce (Nat.ne_of_gt hlater)
        rw [hatonce]
        exact hlasts.since_lt hreleased
      · exact Nat.lt_of_lt_of_le hgood hlasts.deadline_le
  · intro p hp
    obtain ⟨⟨lifetime, haccepted⟩, _⟩ := reach.accepted.held p hp
    obtain ⟨⟨⟨first, hfirst, hlasts, hafter⟩, _⟩, _⟩ := reach.aging.held p hp
    obtain rfl := Option.some.inj (haccepted.stay?.symm.trans hfirst)
    refine ⟨lifetime, haccepted, ?_⟩
    rw [← hafter]
    exact hlasts.deadline_le

/-- A router to try things on which has heard a neighbour, a millisecond after a message began to
wait for one. -/
def trialHeard : Router Float :=
  (trialWaiting []).run [.advance 1, .receive (trialBeacon 11 100000 10000).encode]

theorem trialHeard_reachable : Reachable trialHeard :=
  (trialWaiting_reachable []).leads (leads_run _ _)

/-- The message goes out before its lifetime has passed. -/
theorem sent_before_deadline_of_waiting :
    ∃ e ∈ trialHeard.emissions, ∃ lifetime, trialHeard.Accepted e.origin lifetime ∧
      e.origin.time < e.time ∧ e.time < e.origin.time + lifetime.millis := by
  have hsent : ∃ e ∈ trialHeard.emissions, e.origin.time < e.time := by decide +kernel
  obtain ⟨e, he, hlater⟩ := hsent
  obtain ⟨lifetime, haccepted, _, _, hbefore⟩ :=
    (sent_before_deadline trialHeard_reachable).1 e he
  exact ⟨e, he, lifetime, haccepted, hlater, hbefore hlater⟩

/-- In every state that a router can come to, a frame that it has handed to the link was written when
its packet was accepted or at the last of some releases. The lifetime that it says, what the
releases cut off, and the time until it was written are together the lifetime with which the packet
was accepted. So what it says is no more than what was left exactly when the time since it was
written is no more than what the releases cut off. -/
theorem charged_iff (reach : Reachable s) {e : Emission} (he : e ∈ s.emissions) :
    ∃ lifetime q times, s.Accepted e.origin lifetime ∧ Packet.decode e.frame = .ok q ∧
      Written s.released e.origin e.frame times ∧
      q.basic.lifetime.millis + Stay.losses ⟨e.origin.time, lifetime.millis⟩ times +
        (times.getLastD e.origin.time - e.origin.time) = lifetime.millis ∧
      (q.basic.lifetime.millis + (e.time - e.origin.time) ≤ lifetime.millis ↔
        e.time - times.getLastD e.origin.time ≤
          Stay.losses ⟨e.origin.time, lifetime.millis⟩ times) := by
  obtain ⟨lifetime, times, haccepted, hlasts, stay, hstay, haged, hsince, _⟩ := reach.sent_stay he
  obtain ⟨q, hsendable, hframe, hsays⟩ := haged.carries
  have hlosses := Stay.deadline_after_add_losses hlasts
  have hwritten := hlasts.since_le
  rw [← hstay] at hlosses hwritten
  have hlast : stay.since = times.getLastD e.origin.time := by
    rw [hstay]
    exact Stay.since_after _ times
  unfold Stay.deadline at hlosses
  rw [hlast] at hlosses hwritten hsince
  dsimp only at hlosses hwritten
  refine ⟨lifetime, q, times, haccepted, hframe ▸ Packet.decode_encode hsendable, haged.written,
    ?_, ?_⟩
  · omega
  · omega

/-- A router to try things on that has found the station which it had something for, a millisecond
after it began to ask. -/
def trialFound : Router Float :=
  (trialStarted trialGeometry trialConfig).run
    [.transmit (trialRequest 12 7), .advance 1, .receive (trialBeacon 12 100001 10000).encode]

theorem trialFound_reachable : Reachable trialFound :=
  (trialConfig_reachable trialGeometry).leads (leads_run _ _)

/-- What waited for that station is written anew as it goes out, and says no more than what is left
of its lifetime. -/
theorem charged_of_released :
    ∃ e ∈ trialFound.emissions, e.origin.time < e.time ∧
      ∃ lifetime q times, trialFound.Accepted e.origin lifetime ∧ Packet.decode e.frame = .ok q ∧
        Written trialFound.released e.origin e.frame times ∧
        q.basic.lifetime.millis + (e.time - e.origin.time) ≤ lifetime.millis ∧
        e.time - times.getLastD e.origin.time ≤
          Stay.losses ⟨e.origin.time, lifetime.millis⟩ times := by
  have hsent : ∃ e ∈ trialFound.emissions, e.origin.time < e.time ∧
      (Packet.decode e.origin.frame).toOption.any (fun p =>
        (Packet.decode e.frame).toOption.any fun q =>
          q.basic.lifetime.millis + (e.time - e.origin.time) ≤ p.basic.lifetime.millis) = true := by
    decide +kernel
  obtain ⟨e, he, hlater, hless⟩ := hsent
  obtain ⟨lifetime, q, times, haccepted, hdecode, hwritten, _, hiff⟩ :=
    charged_iff trialFound_reachable he
  obtain ⟨p, hdecode', _⟩ := haccepted.whence
  rw [hdecode, hdecode'] at hless
  have hcharged : q.basic.lifetime.millis + (e.time - e.origin.time) ≤ lifetime.millis := by
    rw [← haccepted.lifetime_eq hdecode']
    exact of_decide_eq_true hless
  exact ⟨e, he, hlater, lifetime, q, times, haccepted, hdecode, hwritten, hcharged,
    hiff.mp hcharged⟩

/-- A message that waited for a millisecond goes out with its whole lifetime. -/
theorem not_forall_charged :
    ¬ ∀ r : Router Float, Reachable r → ∀ e ∈ r.emissions, ∀ lifetime q,
      r.Accepted e.origin lifetime → Packet.decode e.frame = .ok q →
        q.basic.lifetime.millis + (e.time - e.origin.time) ≤ lifetime.millis := by
  intro h
  have hsent : ∃ e ∈ trialHeard.emissions, e.origin.time < e.time ∧ e.frame = e.origin.frame := by
    decide +kernel
  obtain ⟨e, he, hlater, hsame⟩ := hsent
  obtain ⟨_, ⟨lifetime, haccepted⟩, _⟩ := trialHeard_reachable.accepted.sent e he
  obtain ⟨p, hdecode, _⟩ := haccepted.whence
  have hlifetime := haccepted.lifetime_eq hdecode
  have hcharged := h trialHeard trialHeard_reachable e he lifetime p haccepted (hsame ▸ hdecode)
  rw [hlifetime] at hcharged
  omega

end Geocast.Router
