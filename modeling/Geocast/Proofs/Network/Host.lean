import Geocast.Proofs.Location.DuplicateList
import Geocast.Proofs.Network.Signal

/-!
# The station that is sought

A station that hears packets of one other station only keeps nothing back: it announces itself, it
answers the request for its place, and it delivers what is for it. `Host` says what it knows once it
has heard some packets; every further one is new to it, and is delivered (`Host.receive`).
-/

namespace Geocast

/-- What the upper layer is told when a packet for one station arrives. -/
def ReceiveOutcome.unicast? : ReceiveOutcome → Option Indication
  | consume i => if i.type = .geoUnicast then some i else none
  | _ => none

namespace Router

variable {α : Type}

/-- The station sought, as it has become of `b`, once it has heard packets of some kinds from the
station at `v` and from nobody else. -/
structure Host (b : Router α) (v : LongPosition) (heard : List Signal) (r : Router α) : Prop
    extends Facing b v r where
  unasking : ∀ c, r.lookups.inFlight.get? c = none
  numbers : (r.remembered v.address).seen.map Prod.fst = heard.filterMap Signal.number?
  capacity : (r.remembered v.address).capacity = 20
  signals : ∀ e ∈ r.emissions, ∃ s : Signal, (s = .beacon ∨ s = .reply) ∧ s.Rides b v [] e.frame

namespace Host

variable {b r : Router α} {v : LongPosition} {heard : List Signal}

/-- What a host sends, and counts, and when it will announce itself, makes no difference to what it
knows. -/
theorem vary (h : Host b v heard r) {emissions : List Emission}
    (hsignals : ∀ e ∈ emissions, ∃ s : Signal, (s = .beacon ∨ s = .reply) ∧ s.Rides b v [] e.frame)
    (sequence : SequenceNumber) (issued : List (Option Origin)) (beaconDue beaconRound : Nat)
    (stats : Stats) :
    Host b v heard { r with emissions, sequence, issued, beaconDue, beaconRound, stats } where
  toFacing := by apply h.toFacing.of_same <;> first | rfl | exact h.idle.tended
  unasking := h.unasking
  numbers := h.numbers
  capacity := h.capacity
  signals := hsignals

/-- Nor does it that a loop ends. -/
theorem rests (h : Host b v heard r) {lookups : LookupService} (hrests : Rests r.lookups lookups) :
    Host b v heard { r with lookups } where
  toFacing := by apply h.toFacing.of_same <;> first | rfl | exact hrests.tended
  unasking := fun c => (congrArg (·.get? c) hrests.inFlight).trans (h.unasking c)
  numbers := h.numbers
  capacity := h.capacity
  signals := h.signals

/-- Timers announce the station, if they do anything. -/
theorem settle (h : Host b v heard r) :
    Host b v heard r.settle ∧ r.emissions <+: r.settle.emissions := by
  obtain ⟨beacons, stats, due, round, lookups, hbeacons, hrests, heq⟩ :=
    h.idle.settle_announces fun c l hl => nomatch (h.unasking c).symm.trans hl
  rw [heq]
  refine ⟨(h.rests hrests).vary (fun e he => ?_) r.sequence r.issued due round stats,
    List.prefix_append _ _⟩
  rcases List.mem_append.mp he with hold | hnew
  · exact h.signals e hold
  · exact ⟨.beacon, .inl rfl, hbeacons e hnew ▸ (beaconPacket_rides r v []).of_stays h.stays⟩

end Host

/-! ## Packets for the station -/

variable [Scalar α] {r : Router α} {a : Arrival}

theorem handle_unicast {u : UnicastHeader} (h : a.packet.extended = .unicast u)
    (hhere : u.destination.address = r.config.address) : r.handle a = (deliver a false, r) := by
  rw [handle_of_unicast h]
  unfold receiveUnicast
  rw [if_pos hhere]

omit [Scalar α] in
theorem replyPacket_rides (r : Router α) (peer : LongPosition) (payload : Bytes) :
    Signal.reply.Rides r peer payload (r.replyPacket peer).encode :=
  ⟨_, rfl, replyPacket_sendable r peer, replyPacket_own r peer, r.sequence, rfl, rfl⟩

/-- A request for the own place is answered at once by a station that knows who asks. -/
theorem handle_request {u : LocationRequestHeader} (h : a.packet.extended = .locationRequest u)
    (hhere : u.requested = r.config.address) (hknows : r.table.KnowsOnly a.source r.clock)
    (hplaces : r.geometry.Separates [r.here, a.source.point]) (hapart : r.here ≠ a.source.point) :
    ∃ target issued stats, r.handle a = (deliver a false, { r with
      emissions := r.emissions ++ [⟨r.now, target, (r.replyPacket a.source).encode, .link,
        r.originNow (r.replyPacket a.source)⟩]
      sequence := r.sequence.next
      issued, stats }) := by
  obtain ⟨target, hsent⟩ := dispatch_toward_known hknows hplaces hapart {} (r.number _)
    (.ofPacket (r.replyPacket a.source) .link (some a.source.address)
      (r.originNow (r.replyPacket a.source)))
  have hreply : r.sendLocationReply a.source = _ := hsent
  rw [handle_of_request h]
  unfold receiveLocationRequest
  rw [if_pos hhere, hreply]
  exact ⟨target, _, _, rfl⟩

/-! ## Hearing the other station -/

namespace Host

variable {a b : Router α} {heard : List Signal} {payload frame : Bytes} {s : Signal} {p : Packet}

omit [Scalar α] in
theorem sequence?_of_fits {own peer : LongPosition} (h : s.Fits own peer payload p)
    (hasked : s ≠ .reply) : p.sequence? = s.number? := by
  unfold Packet.sequence?
  cases s with
  | beacon => rw [show p.extended = _ from h]; rfl
  | request => rw [show p.extended = _ from h]; rfl
  | reply => exact absurd rfl hasked
  | message => rw [h.2.1]; rfl

omit [Scalar α] in
/-- A packet of the other station that was not heard before is new to a host, and then it is known
to have been heard. -/
theorem hears (h : Host b a.localPosition heard r) (hother : a.config.address ≠ b.config.address)
    (hfresh : b.table.Fresh a.localPosition.timestamp b.clock)
    (hnew : ∀ n, s.number? = some n → n ∉ heard.filterMap Signal.number?)
    (hroom : (heard.filterMap Signal.number?).length < 20) {x : Arrival}
    (hsource : x.source = a.localPosition) (hdirect : x.direct = true)
    (hsequence : x.packet.sequence? = s.number?) (stats : Stats) :
    (∀ n, (r.learn x).1 ≠ some (n, .duplicate)) ∧
      (r.learn x).2.table.KnowsOnly a.localPosition r.clock ∧
      Host b a.localPosition (heard ++ [s])
        { r with table := (r.learn x).2.table, stats, arrivals := r.arrivals + 1 } := by
  have hforeign : x.source.address ≠ r.table.own := by
    rw [hsource, h.own, h.stays.config]
    exact hother
  have hexpects : r.table.Expects x.source := hsource ▸ h.expects
  have hseen : r.table.Fresh x.source.timestamp r.clock :=
    (h.stays.fresh _).mpr (hsource ▸ hfresh)
  obtain ⟨hknows, hfacing⟩ := h.toFacing.hears hother hfresh hsource hdirect stats
  -- the numbers remembered are those heard
  have hunknown (n : SequenceNumber) (hn : s.number? = some n) :
      (r.remembered x.source.address).contains n = false := by
    rw [Bool.eq_false_iff, ne_eq, DuplicateList.contains_iff, hsource, h.numbers]
    exact hnew n hn
  refine ⟨fun n hdup => ?_, hknows, ?_⟩
  · obtain ⟨hn, hcontains⟩ := ((learn_learned hforeign).duplicate n).mp hdup
    rw [hunknown n (hsequence ▸ hn)] at hcontains
    exact nomatch hcontains
  · generalize hm : ({ r with table := (r.learn x).2.table, stats, arrivals := r.arrivals + 1 } :
      Router α) = m
    have hremembered := remembered_learn hexpects hforeign hseen (s := m) (hm ▸ rfl) (hm ▸ rfl)
    rw [hsequence, hsource] at hremembered
    subst hm
    exact {
      toFacing := hfacing
      unasking := h.unasking
      numbers := by
        rw [hremembered, List.filterMap_append, ← h.numbers]
        cases hn : s.number? with
        | none => simp [hn]
        | some n =>
          have hlength : (r.remembered a.localPosition.address).seen.length < 20 := by
            rw [← List.length_map Prod.fst, h.numbers]
            exact hroom
          rw [Option.elim_some, DuplicateList.numbers_observe (hsource ▸ hunknown n hn)
            (h.capacity ▸ hlength)]
          simp [hn]
      capacity := by
        rw [hremembered]
        cases s.number? with
        | none => exact h.capacity
        | some n => exact (DuplicateList.capacity_observe _ n).trans h.capacity
      signals := h.signals }

/-- A router without lookups goes on with a packet at once. -/
theorem accept_eq (h : Host b a.localPosition heard r) (x : Arrival) : r.accept x = r.handle x := by
  have hsame : r.resolveLookup x.source.address = r := resolveLookup_idle (h.unasking _)
  have hidle : (r.resolveLookup x.source.address).Idle := hsame.symm ▸ h.idle
  rw [hidle.accept_eq, hsame]

/-- What a host makes of a packet of some kind: it delivers it, and answers a request. -/
structure Accepts (b : Router α) (v : LongPosition) (payload : Bytes) (heard : List Signal)
    (s : Signal) (r : Router α) (result : ReceiveOutcome × Router α) : Prop where
  host : Host b v heard result.2
  sent : ∃ new, result.2.emissions = r.emissions ++ new ∧
    new.length = if s = .request then 1 else 0
  delivered : result.1.unicast?.map (fun i => (i.payload, i.destination)) =
    if s = .message then some (payload, some b.config.address) else none

/-- What a host knows suffices for every kind of packet. -/
theorem handles (h : Host b a.localPosition heard r)
    (hknows : r.table.KnowsOnly a.localPosition r.clock)
    (hplaces : b.geometry.Separates [b.here, a.here]) (hapart : b.here ≠ a.here)
    (hasked : s ≠ .reply) (hfits : s.Fits a.localPosition b.localPosition payload p) {x : Arrival}
    (hpacket : x.packet = p.relayed) (hsource : x.source = a.localPosition) :
    Accepts b a.localPosition payload heard s r (r.handle x) := by
  have hextended : x.packet.extended = p.extended := by rw [hpacket]; rfl
  have htypes : x.packet.common.type = p.common.type := by rw [hpacket]; rfl
  have haddress : b.config.address = r.config.address := by rw [h.stays.config]
  -- whatever is not for one station is of another type
  have hsilent (hlayout : p.extended.fits .geoUnicast = false) :
      (deliver x false).unicast? = none := by
    refine if_neg fun htype => ?_
    have hfits := p.fits
    rw [htypes.symm.trans htype, hlayout] at hfits
    exact nomatch hfits
  cases s with
  | reply => exact absurd rfl hasked
  | beacon =>
    have hlayout : p.extended = .beacon a.localPosition := hfits
    rw [handle_beacon (hextended.trans hlayout)]
    exact ⟨h, ⟨[], (List.append_nil _).symm, rfl⟩, congrArg _ (hsilent (hlayout ▸ rfl))⟩
  | request =>
    have hlayout : p.extended = .locationRequest ⟨⟨1⟩, a.localPosition, b.config.address⟩ := hfits
    have hplaces' : r.geometry.Separates [r.here, x.source.point] := by
      rw [h.stays.geometry, h.stays.here, hsource]
      exact hplaces
    have hapart' : r.here ≠ x.source.point := by
      rw [h.stays.here, hsource]
      exact hapart
    obtain ⟨target, issued, stats, hhandle⟩ := handle_request (hextended.trans hlayout) haddress
      (hsource ▸ hknows) hplaces' hapart'
    have hreply := (replyPacket_rides r x.source []).of_stays h.stays
    rw [hhandle]
    refine ⟨h.vary (fun e he => ?_) r.sequence.next issued r.beaconDue r.beaconRound stats,
      ⟨[_], rfl, rfl⟩, congrArg _ (hsilent (hlayout ▸ rfl))⟩
    rcases List.mem_append.mp he with hold | hanswer
    · exact h.signals e hold
    · obtain rfl := List.mem_singleton.mp hanswer
      exact ⟨.reply, .inr rfl, hsource ▸ hreply⟩
  | message =>
    obtain ⟨htype, hlayout, hpayload⟩ := hfits
    have hdelivered : (deliver x false).unicast? =
        some (.ofPacket x.packet x.source false) := if_pos (htypes.trans htype)
    rw [handle_unicast (hextended.trans hlayout) haddress]
    refine ⟨h, ⟨[], (List.append_nil _).symm, rfl⟩, (congrArg _ hdelivered).trans ?_⟩
    show some (x.packet.payload, Indication.destinationOf x.packet.extended) = _
    rw [hpacket]
    show some (p.payload, Indication.destinationOf p.extended) = _
    rw [hlayout, hpayload]
    rfl

/-- A packet that a host has not heard before is heard from then on. -/
theorem receive (h : Host b a.localPosition heard r)
    (hother : a.config.address ≠ b.config.address) (hvalid : a.config.hopLimit ≠ 0)
    (hfresh : b.table.Fresh a.localPosition.timestamp b.clock)
    (hplaces : b.geometry.Separates [b.here, a.here]) (hapart : b.here ≠ a.here)
    (hnew : ∀ n, s.number? = some n → n ∉ heard.filterMap Signal.number?)
    (hroom : (heard.filterMap Signal.number?).length < 20) (hasked : s ≠ .reply)
    (hrides : s.Rides a b.localPosition payload frame) :
    Accepts b a.localPosition payload (heard ++ [s]) s r (r.receive frame) := by
  obtain ⟨p, rfl, hsendable, hown, hfits⟩ := hrides
  have hjudge := judge_own (r := r) hsendable hown hvalid (h.stays.config ▸ hother)
  generalize hx : Arrival.mk p.relayed a.localPosition true p.encode.length = x at hjudge
  have hpacket : x.packet = p.relayed := hx ▸ rfl
  have hsource : x.source = a.localPosition := hx ▸ rfl
  have hheard := h.hears hother hfresh hnew hroom hsource (hx ▸ rfl)
    (hpacket ▸ sequence?_of_fits hfits hasked)
  obtain ⟨stats, hreceive⟩ := receive_new h.idle.running hjudge (hheard {}).1
  obtain ⟨_, hknows, hm⟩ := hheard stats
  have haccepts := hm.handles hknows hplaces hapart hasked hfits hpacket hsource
  dsimp only at hreceive
  rw [hm.accept_eq] at hreceive
  rw [hreceive]
  exact ⟨haccepts.host.vary haccepts.host.signals _ _ _ _ _, haccepts.sent, haccepts.delivered⟩

end Host

end Router

end Geocast
