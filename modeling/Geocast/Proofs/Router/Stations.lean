import Geocast.Proofs.Router.Copies

/-!
# Packets for stations

A packet that is for no area is for the stations around, for everybody within some hops, for one
station, or asks for the place of one. The stations around deliver theirs and pass it on to nobody.
What is for everybody is delivered in any case, and broadcast while it has hops left. What is for one
station, or asks for one, ends there, and every other station passes it on or drops it for its hops
only (`Router.stationOutcome`). A request that has come to the station it asks for leaves one answer,
to the station that asked (`station_settled`).

As for an area, a packet that is passed on goes on from one place, unless a timer runs for another
copy of it.
-/

namespace Geocast.Router

variable {α : Type} [Scalar α]

/-- What is to become of a packet that is for no area. -/
def stationOutcome (r : Router α) (p : Packet) (v : LongPosition) : ReceiveOutcome :=
  let delivered := .consume (.ofPacket p.relayed v false)
  let passed := if p.basic.remainingHops = 1 then .drop .hopLimitExhausted else .forward
  match p.extended with
  | .topological _ => .consume (.ofPacket p.relayed v (p.basic.remainingHops ≠ 1))
  | .unicast u => if u.destination.address = r.config.address then delivered else passed
  | .locationRequest u => if u.requested = r.config.address then delivered else passed
  | _ => delivered

/-- A packet asks for the place of the router. -/
def IsAsked (r : Router α) (p : Packet) : Prop :=
  ∃ u, p.extended = .locationRequest u ∧ u.requested = r.config.address

/-- A packet is the answer of a router to a station that asked for its place. -/
structure Answers (r : Router α) (q : Packet) (requester : LongPosition) : Prop where
  type : q.common.type = .locationReply
  letter : ∃ u, q.extended = .unicast u ∧ u.source = r.localPosition ∧
    u.destination = requester.toShort

/-- A packet that is for no area is settled: its outcome is the one that it is to have, and it leaves
one copy if it was passed on, the answer if it asked for the router, and else nothing. -/
structure StationSettled (r : Router α) (frame : Bytes) (p : Packet) (v : LongPosition) : Prop where
  outcome : (r.receive frame).1 = r.stationOutcome p v
  ended : (r.receive frame).1.isRelayed = false → ¬ r.IsAsked p → (r.receive frame).2.copies = 0
  flooded : (r.receive frame).1.isRelayed = true → p.isFlooded = true →
    (r.receive frame).2.GoesOn p.relayed (.link .broadcast)
  passed : (r.receive frame).1.isRelayed = true → ∃ q, p.Passed 1 q ∧ r.Carries frame q
  answered : r.IsAsked p → ∃ q place, r.Answers q v ∧ place.isTimer = false ∧
    (r.receive frame).2.GoesOn q place

variable {r t : Router α} {a : Arrival} {frame : Bytes} {p : Packet} {v : LongPosition}

/-! ## How each packet ends -/

theorem isRequest_iff (p : Packet) :
    p.isRequest = true ↔ ∃ u, p.extended = .locationRequest u := by
  unfold Packet.isRequest
  split
  · next u layout => exact iff_of_true rfl ⟨u, layout⟩
  · next hother => exact iff_of_false Bool.false_ne_true fun ⟨u, hu⟩ => hother u hu

omit [Scalar α] in
theorem rebroadcast_fst (r : Router α) (a : Arrival) :
    (r.rebroadcast a).1 = decide (a.packet.basic.remainingHops ≠ 0) := by
  unfold rebroadcast
  split
  · next hhops => rw [decide_eq_false (not_not_intro hhops)]
  · next hhops => rw [decide_eq_true hhops]; rfl

theorem receiveUnicast_outcome (r : Router α) (a : Arrival) (u : UnicastHeader)
    (is_unicast : a.packet.extended = .unicast u) :
    (r.receiveUnicast a u is_unicast).1 =
      if u.destination.address = r.config.address then deliver a false
      else if a.packet.basic.remainingHops = 0 then .drop .hopLimitExhausted
      else .forward := by
  unfold receiveUnicast
  split
  · rfl
  · split
    · rfl
    · dsimp only
      split
      · rfl
      · next heq =>
        have hdiscard := Plan.discard_of_timed (discard_of_dispatch heq)
        exact absurd hdiscard (Forwarder.toward_ne_discard _ _ _ _)

theorem receiveLocationRequest_outcome (h : r.Sound) (a : Arrival) (requested : Address) :
    (r.receiveLocationRequest a requested).1 =
      if requested = r.config.address then deliver a false
      else if a.packet.basic.remainingHops = 0 then .drop .hopLimitExhausted
      else .forward := by
  unfold receiveLocationRequest
  split
  · obtain ⟨hok, _⟩ := sendLocationReply_sent h a.source
    split
    · rfl
    · next heq =>
      rw [heq] at hok
      exact absurd hok Bool.false_ne_true
  · dsimp only
    rw [rebroadcast_fst]
    by_cases hhops : a.packet.basic.remainingHops = 0
    · rw [if_pos hhops, decide_eq_false (not_not_intro hhops)]
      rfl
    · rw [if_neg hhops, decide_eq_true hhops]
      rfl

/-- Whatever is not for an area ends as it is to end. -/
theorem handle_outcome (h : t.Sound) (hsource : p.source? = some v)
    (hlayout : ∀ u, p.extended ≠ .area u) (hpacket : a.packet = p.relayed) (hfrom : a.source = v) :
    (t.handle a).1 = t.stationOutcome p v := by
  have hextended : a.packet.extended = p.extended := by rw [hpacket]; rfl
  have hdelivered (forwarded : Bool) :
      deliver a forwarded = .consume (.ofPacket p.relayed v forwarded) := by
    unfold deliver
    rw [hpacket, hfrom]
  -- the hop to this router was taken off before
  have hlast : a.packet.basic.remainingHops = 0 ↔ p.basic.remainingHops = 1 := by
    rw [hpacket]
    exact Packet.remainingHops_relayed_eq_zero_iff p
  unfold stationOutcome
  cases layout : p.extended with
  | any =>
    unfold Packet.source? at hsource
    rw [layout] at hsource
    exact nomatch hsource
  | area u => exact absurd layout (hlayout u)
  | beacon w => rw [handle_beacon (hextended.trans layout), hdelivered]
  | singleHop u => rw [handle_singleHop (hextended.trans layout), hdelivered]
  | topological u =>
    rw [handle_topological (hextended.trans layout)]
    dsimp only
    rw [rebroadcast_fst, hdelivered]
    simp only [ne_eq, hlast]
  | unicast u =>
    rw [handle_of_unicast (hextended.trans layout), receiveUnicast_outcome, hdelivered]
    simp only [hlast]
  | locationRequest u =>
    rw [handle_of_request (hextended.trans layout), receiveLocationRequest_outcome h, hdelivered]
    simp only [hlast]

omit [Scalar α] in
theorem delivered_of_isAsked (h : r.IsAsked p) : (r.stationOutcome p v).isDelivered = true := by
  obtain ⟨u, layout, hhere⟩ := h
  unfold stationOutcome
  rw [layout]
  dsimp only
  rw [if_pos hhere]
  rfl

omit [Scalar α] in
theorem isAsked_of_delivered (hdelivered : (r.stationOutcome p v).isDelivered = true)
    (hrequest : ∃ u, p.extended = .locationRequest u) : r.IsAsked p := by
  obtain ⟨u, layout⟩ := hrequest
  unfold stationOutcome at hdelivered
  rw [layout] at hdelivered
  dsimp only at hdelivered
  split at hdelivered
  · next hhere => exact ⟨u, layout, hhere⟩
  · -- a packet that is passed on or dropped is not delivered
    split at hdelivered <;> exact nomatch hdelivered

/-- In every state that a running router can come to, a packet for no area that another station sent
and that was not seen before is settled. -/
theorem station_settled (reach : Reachable r) (hrunning : r.phase = .running)
    (hdecode : Packet.decode frame = .ok p) (hsource : p.source? = some v)
    (hother : v.address ≠ r.config.address) (hhops : p.basic.remainingHops ≠ 0)
    (hlayout : ∀ u, p.extended ≠ .area u)
    (hfresh : ∀ n, p.sequence? = some n → (r.remembered v.address).contains n = false) :
    r.StationSettled frame p v := by
  have hjudge := judge_of_decode (r := r) hdecode hsource hother hhops
  obtain ⟨t, hready⟩ := receive_readies reach hrunning hjudge hfresh
  have hconfig : t.config = r.config := hready.steady.config
  have houtcome : (r.receive frame).1 = r.stationOutcome p v := by
    rw [hready.outcome, handle_outcome hready.sound hsource hlayout rfl rfl]
    unfold stationOutcome
    rw [hconfig]
  -- a delivered request is one for this station
  have hunanswered (hunasked : ¬ r.IsAsked p) :
      ((r.receive frame).1.isDelivered && p.relayed.isRequest) = false := by
    rw [Bool.eq_false_iff, ne_eq, Bool.and_eq_true, isRequest_iff, houtcome]
    exact fun ⟨hdelivered, hrequest⟩ => hunasked (isAsked_of_delivered hdelivered hrequest)
  refine ⟨houtcome, fun hended hother => hready.ended hended (hunanswered hother), ?_, ?_, ?_⟩
  · intro hrelayed hflooded
    obtain ⟨q, hpasses, _, hgoes⟩ := hready.passed hrelayed
    rcases hpasses.packet with rfl | ⟨u, is_unicast, _⟩
    · exact hgoes hflooded
    · unfold Packet.isFlooded at hflooded
      rw [show p.extended = .unicast u from is_unicast] at hflooded
      exact nomatch hflooded
  · intro hrelayed
    obtain ⟨q, hpasses, hcarries, _⟩ := hready.passed hrelayed
    exact ⟨q, (Packet.passed_relayed hhops).trans (hready.keyed.passesOn hpasses), hcarries⟩
  · intro hhere
    have hdelivered : (r.receive frame).1.isDelivered = true := houtcome ▸ delivered_of_isAsked hhere
    have hrequest : p.relayed.isRequest = true :=
      (isRequest_iff _).mpr (hhere.imp fun _ hasks => hasks.1)
    -- the answer begins its way where a letter to the asking station would
    obtain ⟨place, hpatient, hgoes⟩ := hready.answered hdelivered hrequest
    have hlocal : t.localPosition = r.localPosition := by
      unfold localPosition fix
      rw [hready.steady.position, hready.steady.now, hconfig]
      rfl
    exact ⟨_, place, ⟨rfl, _, rfl, hlocal, rfl⟩, hpatient, hgoes⟩

/-! ## Letters that stations contend for -/

/-- A letter that is for another station is forwarded, and goes on from one place. -/
theorem station_settled_of_letter :
    ∃ q place, (trialLetter 7).Passed 1 q ∧
      ((trialContender 0).receive (trialLetter 7).encode).2.GoesOn q place := by
  have hsettled := station_settled (trialContender_reachable 0) (by decide +kernel)
    (decode_trialLetter 7) rfl (by decide) (by decide) nofun fun n hn => by
      obtain rfl := Option.some.inj hn
      decide +kernel
  obtain ⟨q, hpassed, hcarries⟩ := hsettled.passed (by decide +kernel)
  obtain ⟨place, hgoes⟩ := hcarries.kept (by decide +kernel)
  exact ⟨q, place, hpassed, hgoes⟩

/-- The fourth byte of a frame says how many hops are left. -/
theorem remainingHops_of_encode (q : Packet) : q.encode[3]? = some q.basic.remainingHops := rfl

/-- The first of 21 letters is not remembered when another station relays it. It is forwarded once
more, but no frame with one hop less is anywhere. -/
theorem not_forall_station_kept :
    ¬ ∀ r : Router Float, Reachable r → r.phase = .running →
      ∀ frame p, Packet.decode frame = .ok p → ∀ v, p.source? = some v →
        v.address ≠ r.config.address → p.basic.remainingHops ≠ 0 →
        (∀ u, p.extended ≠ .area u) →
        (∀ n, p.sequence? = some n → (r.remembered v.address).contains n = false) →
        (r.receive frame).1.isRelayed = true →
        ∃ q, p.Passed 1 q ∧ (r.receive frame).2.Bears q.encode := by
  intro h
  have hhops : (trialLetter 7).basic.remainingHops ≠ 0 := by decide
  have hsendable := (Packet.sendable_of_decode (decode_trialLetter 7)).relayed hhops
  -- all that is anywhere has two hops left, and the copy would have one
  have hfacts : (trialContender 21).phase = .running ∧
      trialStation 11 ≠ (trialContender 21).config.address ∧
      ((trialContender 21).remembered (trialStation 11)).contains ⟨7⟩ = false ∧
      ((trialContender 21).receive (trialLetter 7).relayed.encode).1.isRelayed = true ∧
      (∀ f ∈ ((trialContender 21).receive (trialLetter 7).relayed.encode).2.emissions.map
        Emission.frame, f[3]? = some 2) ∧
      ∀ f ∈ (((trialContender 21).receive (trialLetter 7).relayed.encode).2.queues.stock +
        ((trialContender 21).receive (trialLetter 7).relayed.encode).2.contention.stock).map
          Parcel.frame, f[3]? = some 2 := by
    decide +kernel
  obtain ⟨hrunning, hother, hfresh, hrelayed, hsent, hheld⟩ := hfacts
  obtain ⟨q, hpassed, hbears⟩ := h (trialContender 21) (trialContender_reachable 21) hrunning _ _
    (Packet.decode_encode hsendable) _ rfl hother (by decide) nofun (fun n hn => by
      obtain rfl := Option.some.inj hn
      exact hfresh) hrelayed
  have hcopy : q.basic.remainingHops = 2 := by
    have hframe := hbears.elim (hsent _) (hheld _)
    rw [remainingHops_of_encode] at hframe
    exact Option.some.inj hframe
  have hless := hpassed.hops
  rw [hcopy] at hless
  exact absurd hless (by decide)

end Geocast.Router
