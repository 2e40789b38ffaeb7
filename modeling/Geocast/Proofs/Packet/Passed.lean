import Geocast.Proofs.Packet.RoundTrip

/-!
# A packet on its way

From station to station a packet loses hops and lifetime, and a packet for one station may come to
say better where that station is. Everything else stays. `Passed` says so of any stretch of the way,
so that the pieces of a way compose (`Passed.trans`).
-/

namespace Geocast

namespace Packet

/-- The same packet for one station, or answer to a location request, with perhaps another place of
the same station. -/
def Redirects (p q : Packet) : Prop :=
  (p.common.type = .geoUnicast ∨ p.common.type = .locationReply) ∧
    ∃ u d, p.extended = .unicast u ∧ q.extended = .unicast { u with destination := d } ∧
      d.address = u.destination.address

/-- What a packet is after some more hops. -/
structure Passed (hops : Nat) (p q : Packet) : Prop where
  version : q.basic.version = p.basic.version
  next : q.basic.next = p.basic.next
  hops : q.basic.remainingHops.toNat + hops = p.basic.remainingHops.toNat
  lifetime : q.basic.lifetime.millis ≤ p.basic.lifetime.millis
  common : q.common = p.common
  extended : q.extended = p.extended ∨ p.Redirects q
  payload : q.payload = p.payload

theorem Passed.refl (p : Packet) : p.Passed 0 p where
  version := rfl
  next := rfl
  hops := Nat.add_zero _
  lifetime := Nat.le_refl _
  common := rfl
  extended := .inl rfl
  payload := rfl

theorem Passed.trans {p q s : Packet} {m n : Nat} (h : p.Passed m q) (h' : q.Passed n s) :
    p.Passed (m + n) s where
  version := h'.version.trans h.version
  next := h'.next.trans h.next
  hops := by
    have hhops := h.hops
    have hhops' := h'.hops
    omega
  lifetime := Nat.le_trans h'.lifetime h.lifetime
  common := h'.common.trans h.common
  extended := by
    unfold Redirects
    rcases h.extended with hsame | ⟨htype, u, d, hu, hd, haddress⟩
    · have hredirects := h'.extended
      unfold Redirects at hredirects
      rwa [hsame, h.common] at hredirects
    · -- what was redirected twice was redirected to the last place
      rcases h'.extended with hsame' | ⟨_, u', d', hu', hd', haddress'⟩
      · exact .inr ⟨htype, u, d, hu, hsame'.trans hd, haddress⟩
      · obtain rfl := Extended.unicast.inj (hd.symm.trans hu')
        exact .inr ⟨htype, u, d', hu, hd', haddress'.trans haddress⟩
  payload := h'.payload.trans h.payload

/-- The source stays. -/
theorem Passed.source? {p q : Packet} {hops : Nat} (h : p.Passed hops q) :
    q.source? = p.source? := by
  unfold Packet.source?
  rcases h.extended with hsame | ⟨_, u, d, hu, hd, _⟩
  · rw [hsame]
  · rw [hu, hd]
    rfl

/-- So does the number. -/
theorem Passed.sequence? {p q : Packet} {hops : Nat} (h : p.Passed hops q) :
    q.sequence? = p.sequence? := by
  unfold Packet.sequence?
  rcases h.extended with hsame | ⟨_, u, d, hu, hd, _⟩
  · rw [hsame]
  · rw [hu, hd]
    rfl

/-- Without a hop none is used up. -/
theorem Passed.remainingHops_eq {p q : Packet} (h : p.Passed 0 q) :
    q.basic.remainingHops = p.basic.remainingHops := UInt8.toNat.inj h.hops

/-! ## The pieces of a way -/

/-- To be relayed is one hop. -/
theorem passed_relayed {p : Packet} (hops : p.basic.remainingHops ≠ 0) : p.Passed 1 p.relayed where
  version := rfl
  next := rfl
  hops := remainingHops_relayed hops
  lifetime := Nat.le_refl _
  common := rfl
  extended := .inl rfl
  payload := rfl

theorem remainingHops_relayed_eq_zero_iff (p : Packet) :
    p.relayed.basic.remainingHops = 0 ↔ p.basic.remainingHops = 1 := by
  show p.basic.remainingHops - 1 = 0 ↔ _
  constructor
  · intro h
    rw [← UInt8.sub_add_cancel p.basic.remainingHops 1, h]
    rfl
  · intro h
    rw [h]
    rfl

/-- A packet may lose of its lifetime while it waits. -/
theorem passed_withLifetime {p : Packet} {lifetime : Lifetime}
    (less : lifetime.millis ≤ p.basic.lifetime.millis) : p.Passed 0 (p.withLifetime lifetime) where
  version := rfl
  next := rfl
  hops := Nat.add_zero _
  lifetime := less
  common := rfl
  extended := .inl rfl
  payload := rfl

/-- Only a packet for one station and the answer to a location request name one. -/
theorem type_of_unicast {p : Packet} {u : UnicastHeader} (is_unicast : p.extended = .unicast u) :
    p.common.type = .geoUnicast ∨ p.common.type = .locationReply := by
  have fits := p.fits
  rw [is_unicast] at fits
  cases type_eq : p.common.type <;> rw [type_eq] at fits <;> simp_all [Extended.fits]

/-- Only packets that may travel further than a hop have a number. -/
theorem type_of_numbered {p : Packet} (h : p.sequence?.isSome = true) :
    p.common.type ≠ .beacon ∧ p.common.type ≠ .singleHopBroadcast := by
  have fits := p.fits
  have hnone (e : Extended) (he : p.extended = e) (hunnumbered : e.sequence? = none) : False := by
    unfold Packet.sequence? at h
    rw [he, hunnumbered] at h
    exact absurd h Bool.false_ne_true
  constructor
  · intro htype
    cases layout : p.extended <;> rw [htype, layout] at fits
    case beacon => exact hnone _ layout rfl
    all_goals exact absurd fits Bool.false_ne_true
  · intro htype
    cases layout : p.extended <;> rw [htype, layout] at fits
    case singleHop => exact hnone _ layout rfl
    all_goals exact absurd fits Bool.false_ne_true

/-- And learn where its destination has gone. -/
theorem passed_withDestination {p : Packet} {u : UnicastHeader}
    (is_unicast : p.extended = .unicast u) {destination : ShortPosition}
    (same : destination.address = u.destination.address) :
    p.Passed 0 (p.withDestination u is_unicast destination) where
  version := rfl
  next := rfl
  hops := Nat.add_zero _
  lifetime := Nat.le_refl _
  common := rfl
  extended := .inr ⟨type_of_unicast is_unicast, u, destination, is_unicast, rfl, same⟩
  payload := rfl

end Packet

end Geocast
