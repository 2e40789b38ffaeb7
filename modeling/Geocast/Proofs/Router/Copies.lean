import Geocast.Proofs.Router.Overhearing

/-!
# The copies that a frame leaves

What began its way with the frame that came in last is told from all else by the number of that
frame (`Router.copies`). A frame that brings a packet not seen before first sets everything in
motion that waited for its source or for a neighbour, all of which began its way earlier; then the
packet itself is handled (`receive_readies`). So a packet that ends at a station leaves no copy there
(`Readies.ended`), one that is passed on goes on from one place unless it is lost (`Readies.passed`),
and a request for the station's own place leaves the answer (`Readies.answered`).
-/

namespace Geocast.Router

variable {α : Type}

/-- The packets that began their way with the frame that came in last, in all places. -/
def copies (r : Router α) : Multiset Origin :=
  (r.emitted + r.held).filter (·.arrival = r.arrivals)

/-- Every packet that is anywhere began its way before the frame that came in last. -/
def Earlier (r : Router α) : Prop := ∀ o ∈ r.emitted + r.held, o.arrival ≠ r.arrivals

/-- With the frame that came in last one packet began its way, and it goes on from a place. -/
structure GoesOn (r : Router α) (p : Packet) (place : Place) : Prop where
  stands : r.StandsAt p place
  alone : r.copies = {r.originNow p}

/-- A frame is on the link, in a queue or on a timer. -/
def Bears (r : Router α) (frame : Bytes) : Prop :=
  frame ∈ r.emissions.map Emission.frame ∨
    frame ∈ (r.queues.stock + r.contention.stock).map Parcel.frame

instance (r : Router α) (frame : Bytes) : Decidable (r.Bears frame) :=
  inferInstanceAs (Decidable (_ ∨ _))

variable {r s : Router α} {p : Packet} {place : Place}

/-- Then the frame that came in last has begun nothing yet. -/
theorem Earlier.copies (h : r.Earlier) : r.copies = 0 := Multiset.filter_eq_nil.mpr h

/-- Nor has it while no new packet begins its way. -/
theorem Dealt.earlier {gain : Int} (h : Dealt 0 gain r s)
    (hearlier : ∀ o ∈ r.emitted + r.held, o.arrival ≠ s.arrivals) : s.Earlier := by
  intro o ho
  have hbefore := Multiset.mem_of_le h.kept ho
  rw [add_zero] at hbefore
  exact hearlier o hbefore

/-- One that begins its way is the first under the number of the frame. -/
theorem GoesOn.of_dealt {gain : Int} (hearlier : r.Earlier) (harrivals : s.arrivals = r.arrivals)
    (h : Dealt {s.originNow p} gain r s) (hstands : s.StandsAt p place) : s.GoesOn p place where
  stands := hstands
  alone := by
    refine le_antisymm ?_ ?_
    · -- nothing else is under this number
      have hkept := Multiset.filter_le_filter (·.arrival = s.arrivals) h.kept
      rw [Multiset.filter_add _ (r.emitted + r.held), harrivals,
        Multiset.filter_eq_nil.mpr hearlier, zero_add, ← harrivals] at hkept
      exact hkept.trans (Multiset.filter_le _ _)
    · exact Multiset.singleton_le.mpr (Multiset.mem_filter.mpr ⟨hstands.mem, rfl⟩)

variable [Scalar α]

omit [Scalar α] in
/-- A packet that is passed on contends as the one that arrived. -/
theorem PassesOn.keyOf {a : Arrival} (h : r.PassesOn a p) :
    Outgoing.keyOf p = Outgoing.keyOf a.packet := by
  rcases h.packet with rfl | ⟨u, is_unicast, rfl⟩
  · rfl
  · exact keyOf_withDestination a.packet u is_unicast _

/-- A packet that is passed on goes on from one place, but for one that is to wait on a timer that
runs for a copy of it: that one is in no place. -/
structure Carries (r : Router α) (frame : Bytes) (p : Packet) : Prop where
  kept : r.forgets frame = false → ∃ place, (r.receive frame).2.GoesOn p place
  lost : r.forgets frame = true → (r.receive frame).2.copies = 0 ∧
    (r.receive frame).2.contention = r.contention ∧
    (Outgoing.keyOf p).any r.contention.contains = true

/-- What a frame sets in motion is done, and what is left is to handle its packet. -/
structure Readies (r : Router α) (frame : Bytes) (a : Arrival) (t : Router α) : Prop where
  judged : r.judge frame = .ok a
  steady : Steady r.noteArrival t
  sound : t.Sound
  keyed : Keyed t
  earlier : t.Earlier
  receive : r.receive frame = ((t.handle a).1, (t.handle a).2.tally (t.handle a).1)

variable {frame : Bytes} {a : Arrival} {t : Router α}

omit [Scalar α] in
/-- To count the outcome moves no packet. -/
theorem StandsAt.tally (h : s.StandsAt p place) (outcome : ReceiveOutcome) :
    (s.tally outcome).StandsAt p place := by
  cases place <;> exact h

/-- A frame that brings a packet not seen before comes to the handling of that packet. -/
theorem receive_readies (reach : Reachable r) (hrunning : r.phase = .running)
    (hjudge : r.judge frame = .ok a)
    (hfresh : ∀ n, a.packet.sequence? = some n →
      (r.remembered a.source.address).contains n = false) : ∃ t, r.Readies frame a t := by
  have horderly := reach.orderly
  obtain ⟨_, _, _, hother, _⟩ := judge_ok hjudge
  rcases receive_seen_or_accepted hrunning hjudge (horderly.fitted.own ▸ hother) with
    ⟨n, hn, hseen, _⟩ | ⟨_, f, hreceive⟩
  · rw [hfresh n hn] at hseen
    exact absurd hseen Bool.false_ne_true
  · obtain ⟨table, hlearn⟩ := learn_rest r.arrived a
    rw [hlearn] at hreceive
    -- nothing has changed yet that has to do with packets, but the number of frames
    let u : Router α := ({ r.arrived with table } : Router α).count f
    have hsound : u.Sound := reach.sound.of_same rfl rfl rfl
    have hsteady : Steady r.noteArrival u := ⟨rfl, rfl, rfl, rfl, rfl, rfl⟩
    obtain ⟨t, hsteady', hready, _, haccept⟩ := accept_handle hsound horderly.addressed a
    have harrivals : t.arrivals = r.arrivals + 1 := hsteady'.arrivals
    have htable : (r.receive frame).2.table = t.table := by
      rw [hreceive, haccept]
      exact (handle_forwards t (sendable_of_judge hjudge)).alike.table
    refine ⟨t, hjudge, hsteady.trans hsteady', hready.sound, ?_, hready.earlier fun o ho => ?_,
      haccept ▸ hreceive⟩
    · have hkeyed := (reach.step (.receive r frame)).keyed
      unfold Keyed at hkeyed
      rwa [htable] at hkeyed
    · have hsomewhere : r.places o ≠ 0 := Multiset.count_ne_zero.mpr ho
      have hknown : ¬ r.arrivals < o.arrival := fun hlater =>
        hsomewhere (reach.places_of_later hlater)
      omega

namespace Readies

/-- Handling a packet moves neither the time nor the number of frames. -/
theorem originNow (h : r.Readies frame a t) (p : Packet) :
    (t.handle a).2.originNow p = t.originNow p := by
  have halike := (handle_forwards t (sendable_of_judge h.judged)).alike
  unfold Router.originNow
  rw [halike.now, halike.arrivals]

/-- The outcome of a frame is that of its packet. -/
theorem outcome (h : r.Readies frame a t) : (r.receive frame).1 = (t.handle a).1 := by
  rw [h.receive]

/-- What a frame loses without a trace is told by that outcome. -/
theorem forgets_eq (h : r.Readies frame a t) :
    r.forgets frame = ((t.handle a).1.isRelayed && t.mislays a) := by
  unfold forgets
  rw [h.judged, h.receive, h.steady.mislays]
  rfl

/-- Where handling a packet changes nothing, the frame leaves no copy. -/
theorem copies_of_same (h : r.Readies frame a t) (hsame : (t.handle a).2 = t) :
    (r.receive frame).2.copies = 0 := by
  rw [h.receive, hsame]
  exact h.earlier.copies

/-- A packet that was sent to a place goes on from there when the frame is done. -/
theorem goesOn (h : r.Readies frame a t) (hsent : t.Sent p (some place) (t.handle a).2) :
    (r.receive frame).2.GoesOn p place := by
  have halike := (handle_forwards t (sendable_of_judge h.judged)).alike
  obtain ⟨hdealt, hstands⟩ := hsent.of_some
  have hgoes := GoesOn.of_dealt h.earlier halike.arrivals (h.originNow p ▸ hdealt) hstands
  rw [h.receive]
  exact ⟨hgoes.stands.tally _, hgoes.alone⟩

/-! ## The three ways in which a packet can end up -/

/-- A packet that is neither passed on nor answered leaves no copy. -/
theorem ended (h : r.Readies frame a t) (hunrelayed : (r.receive frame).1.isRelayed = false)
    (hunanswered : ((r.receive frame).1.isDelivered && a.packet.isRequest) = false) :
    (r.receive frame).2.copies = 0 := by
  rw [h.outcome] at hunrelayed hunanswered
  have hhandled := handle_handled h.sound (sendable_of_judge h.judged)
  generalize hresult : t.handle a = result at hunrelayed hunanswered hhandled
  cases hhandled with
  | ended => exact h.copies_of_same (by rw [hresult])
  | passed hrelayed => exact nomatch hunrelayed.symm.trans hrelayed
  | answered hrequest =>
    rw [hrequest] at hunanswered
    exact nomatch hunanswered

/-- A packet that is passed on goes where it heads. -/
theorem passed (h : r.Readies frame a t) (hrelayed : (r.receive frame).1.isRelayed = true) :
    ∃ p, t.PassesOn a p ∧ r.Carries frame p ∧
      (a.packet.isFlooded = true → (r.receive frame).2.GoesOn p (.link .broadcast)) := by
  have hforgets : r.forgets frame = t.mislays a := by
    rw [h.forgets_eq, ← h.outcome, hrelayed, Bool.true_and]
  rw [h.outcome] at hrelayed
  have hhandled := handle_handled h.sound (sendable_of_judge h.judged)
  generalize hresult : t.handle a = result at hrelayed hhandled
  cases hhandled with
  | ended hunrelayed => exact nomatch hunrelayed.symm.trans hrelayed
  | answered => exact nomatch hrelayed
  | @passed outcome p place? s _ _ hpasses hheads hsent =>
    have hgoes {place : Place} (hplace : place? = some place) :
        (r.receive frame).2.GoesOn p place := by
      rw [hplace] at hsent
      exact h.goesOn (hresult ▸ hsent)
    -- it comes to no place exactly if it is mislaid
    have hmislaid : place?.isNone = r.forgets frame := hheads.mislaid.trans hforgets.symm
    refine ⟨p, hpasses, ⟨fun hkept => ?_, fun hlost => ?_⟩,
      fun hflooded => hgoes (hheads.flooded hflooded)⟩
    · rw [hkept, Option.isNone_eq_false_iff, Option.isSome_iff_exists] at hmislaid
      obtain ⟨place, hplace⟩ := hmislaid
      exact ⟨place, hgoes hplace⟩
    · rw [hlost, Option.isNone_iff_eq_none] at hmislaid
      rw [hmislaid] at hsent
      have hsame : (t.handle a).2 = t := hresult ▸ hsent.of_none
      refine ⟨h.copies_of_same hsame, ?_, ?_⟩
      · rw [h.receive, hsame]
        exact h.steady.contention
      · rw [hforgets, h.steady.mislays] at hlost
        have hwaits := (Bool.and_eq_true_iff.mp hlost).2
        rwa [← hpasses.keyOf] at hwaits

/-- A request for the station's own place leaves one answer, sent or parked. -/
theorem answered (h : r.Readies frame a t) (hdelivered : (r.receive frame).1.isDelivered = true)
    (hrequest : a.packet.isRequest = true) :
    ∃ place, place.isTimer = false ∧
      (r.receive frame).2.GoesOn (t.replyPacket a.source) place := by
  rw [h.outcome] at hdelivered
  have hhandled := handle_handled h.sound (sendable_of_judge h.judged)
  generalize hresult : t.handle a = result at hdelivered hhandled
  cases hhandled with
  | ended _ hunasked => exact nomatch (hunasked hdelivered).symm.trans hrequest
  | passed _ hunasked => exact nomatch (hunasked hdelivered).symm.trans hrequest
  | answered _ hpatient hsent => exact ⟨_, hpatient, h.goesOn (hresult ▸ hsent)⟩

end Readies

end Geocast.Router
