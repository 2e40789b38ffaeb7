import Geocast.Proofs.Router.Aging

/-!
# When packets are given up

A packet for one station that is parked should be given up only when the lifetime with which the
router took it over has passed. But each time it is taken out and parked again it loses what a
lifetime of one byte cannot hold, and so it can be given up early: by how much, and therefore
exactly when that happens, is `expiry_on_time_iff`.
-/

namespace Geocast

/-- A parcel came into a queue with the stay of its origin, and has only been taken out and parked
again since, each time while it was still good. -/
def Parcel.Kept (p : Parcel) (now : Nat) : Prop :=
  ∃ s, p.origin.stay? = some s ∧ s.Lasts p.releases ∧ s.after p.releases = p.stay ∧
    p.enqueuedAt ≤ now

theorem Parcel.Kept.mono {p : Parcel} {now later : Nat} (h : p.Kept now) (hle : now ≤ later) :
    p.Kept later := by
  obtain ⟨s, hstay, hlasts, hafter, hpast⟩ := h
  exact ⟨s, hstay, hlasts, hafter, Nat.le_trans hpast hle⟩

/-- A parcel whose time is up has waited for the whole lifetime of its packet exactly when the cuts
are made up for by how long it is overdue. -/
theorem Parcel.Kept.onTime_iff {p : Parcel} {now : Nat} {s : Stay} (h : p.Kept now)
    (hstay : p.origin.stay? = some s) (hgone : p.isExpired now = true) :
    s.lifetime ≤ now - s.since ↔ s.losses p.releases ≤ now - p.stay.deadline := by
  obtain ⟨s', hstay', hlasts, hafter, hpast⟩ := h
  obtain rfl := Option.some.inj (hstay.symm.trans hstay')
  have hlosses := Stay.deadline_after_add_losses hlasts
  have hsince : s.since ≤ p.enqueuedAt := by
    have hsince := hlasts.since_le
    rwa [hafter] at hsince
  have hdeadline := (isExpired_iff hpast).mp hgone
  have hwhole : s.deadline = s.since + s.lifetime := rfl
  rw [hafter] at hlosses
  omega

namespace Router

variable {α : Type}

/-- A parcel is in a queue for packets of one station each. -/
def Parked (r : Router α) (p : Parcel) : Prop :=
  ∃ a, p ∈ r.queues.queue .unicast a ∨ p ∈ r.queues.queue .lookup a

/-- What is parked for one station, or was given up there, has only lost of the stay of its origin
by being taken out and parked again. -/
structure Timely (r : Router α) : Prop where
  parked : ∀ p, r.Parked p → p.Kept r.now
  expired : ∀ e ∈ r.expired, e.kind ≠ .broadcast →
    e.parcel.Kept e.time ∧ e.parcel.isExpired e.time = true

variable [Scalar α]

theorem Reachable.timely {r : Router α} (reach : Reachable r) : Timely r where
  parked := by
    rintro p ⟨a, hp⟩
    have hheld : r.Holds p := .inl (hp.elim (⟨.unicast, a, ·⟩) (⟨.lookup, a, ·⟩))
    obtain ⟨⟨⟨s, hstay, hlasts, hafter⟩, _⟩, hpast⟩ := reach.aging.held p hheld
    exact ⟨s, hstay, hlasts, hafter, hpast⟩
  expired := by
    intro e he _
    obtain ⟨⟨⟨s, hstay, hlasts, hafter⟩, _⟩, hpast, hgone⟩ := reach.aging.expired e he
    exact ⟨⟨s, hstay, hlasts, hafter, hpast⟩, hgone⟩

/-- In every state that a router can come to: a parcel for one station that was given up had waited
for the whole lifetime with which the router took its packet over exactly when it was overdue for at
least as long as all that was cut off at its releases, and a parcel that is parked can no longer be
found expired before that exactly when it is overdue for so long already. -/
theorem expiry_on_time_iff {r : Router α} (reach : Reachable r) :
    (∀ e ∈ r.expired, e.kind ≠ .broadcast → ∃ s, e.parcel.origin.stay? = some s ∧
      (s.lifetime ≤ e.time - s.since ↔
        s.losses e.parcel.releases ≤ e.time - e.parcel.stay.deadline)) ∧
    ∀ p, r.Parked p → ∃ s, p.origin.stay? = some s ∧
      ((∀ now, r.now ≤ now → p.isExpired now = true → s.lifetime ≤ now - s.since) ↔
        s.losses p.releases ≤ r.now - p.stay.deadline) := by
  have htimely := reach.timely
  constructor
  · intro e he hkind
    obtain ⟨hkept, hgone⟩ := htimely.expired e he hkind
    have ⟨s, hstay, _⟩ := hkept
    exact ⟨s, hstay, hkept.onTime_iff hstay hgone⟩
  · intro p hp
    have hkept := htimely.parked p hp
    have ⟨s, hstay, _, _, hpast⟩ := hkept
    refine ⟨s, hstay, fun h => ?_, fun h now hnow hgone => ?_⟩
    · -- the first instant from now on in which the parcel is expired
      let now := max r.now p.stay.deadline
      have hnow : r.now ≤ now := Nat.le_max_left _ _
      have hgone : p.isExpired now = true :=
        (Parcel.isExpired_iff (Nat.le_trans hpast hnow)).mpr (Nat.le_max_right _ _)
      have hlosses := ((hkept.mono hnow).onTime_iff hstay hgone).mp (h now hnow hgone)
      show s.losses p.releases ≤ _
      omega
    · refine ((hkept.mono hnow).onTime_iff hstay hgone).mpr ?_
      exact Nat.le_trans h (Nat.sub_le_sub_right hnow _)

/-- A request for a station that was heard of over another one, which may wait for 50 milliseconds
until some neighbour is nearer. -/
def trialPatience : List Command :=
  [.receive (trialPacket 13 100000 20000).encode,
    .transmit { trialRequest 13 1 with trafficClass := ⟨128⟩, lifetimeMillis := some 50 }]

/-- A packet that was never taken out is given up when its lifetime has passed. -/
theorem expiry_on_time_of_unreleased :
    let r := (trialStarted trialGeometry trialConfig).run
      (trialPatience ++ [.advance 50, .receive (trialBeacon 11 100000 (-10000)).encode])
    Reachable r ∧ ∃ e ∈ r.expired, ∃ s, e.parcel.origin.stay? = some s ∧
      s.lifetime ≤ e.time - s.since := by
  intro r
  have hreach : Reachable r := (trialConfig_reachable trialGeometry).leads (leads_run _ _)
  have hexpired : r.expired.length = 1 := by decide +kernel
  obtain ⟨e, he⟩ := List.exists_mem_of_length_pos (hexpired ▸ Nat.one_pos)
  have hevent : ∀ e ∈ r.expired, e.kind ≠ .broadcast ∧ e.parcel.releases = [] := by decide +kernel
  obtain ⟨hkind, hreleases⟩ := hevent e he
  obtain ⟨s, hstay, hiff⟩ := (expiry_on_time_iff hreach).1 e he hkind
  refine ⟨hreach, e, he, s, hstay, hiff.mpr ?_⟩
  rw [hreleases]
  exact Nat.zero_le _

/-- A packet that was taken out after a millisecond has lost the other 49, and is given up when the
next neighbour is heard. -/
theorem not_forall_expiry_on_time :
    ¬ ∀ r : Router Float, Reachable r → ∀ e ∈ r.expired, e.kind ≠ .broadcast →
      ∀ p, Packet.decode e.parcel.origin.frame = .ok p →
        p.basic.lifetime.millis ≤ e.time - e.parcel.origin.time := by
  intro h
  let r := (trialStarted trialGeometry trialConfig).run
    (trialPatience ++ [.advance 1, .receive (trialBeacon 11 100000 (-10000)).encode,
      .receive (trialBeacon 11 100000 (-10000)).encode])
  have hreach : Reachable r := (trialConfig_reachable trialGeometry).leads (leads_run _ _)
  have hexpired : ∃ e ∈ r.expired, e.kind ≠ .broadcast ∧ e.time = 1 ∧
      e.parcel.origin.stay? = some ⟨0, 50⟩ := by decide +kernel
  obtain ⟨e, he, hkind, htime, hstay⟩ := hexpired
  unfold Origin.stay? at hstay
  split at hstay
  · next p hdecode =>
    injection hstay with hstay
    injection hstay with hsince hlifetime
    have hontime := h r hreach e he hkind p hdecode
    rw [hsince, hlifetime, htime] at hontime
    exact absurd hontime (by decide)
  · exact absurd hstay (by simp)

end Router

end Geocast
