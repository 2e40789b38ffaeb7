import Geocast.Proofs.Router.Copies

/-!
# Packets for an area

A station delivers a packet for an area exactly when it lies in the area or on its edge, whatever is
then decided about passing the packet on. What becomes of the packet depends on four things only:
whether the station lies in the area, whether the packet is for any one station, whether this was
the last hop, and whether the source lies in the area (`Router.areaOutcome`). The area is looked at
twice, when the packet is delivered and when it is forwarded, and both agree (`area_settled`).

A packet that the station says it passed on goes on from one place, unless a timer runs for another
copy of it. Such a copy can be one whose number the table has forgotten, and then the packet is in
no place at all (`not_forall_area_kept`).
-/

namespace Geocast

namespace Forwarder

variable {α : Type} [Scalar α] {f : Forwarder α} {s : Surroundings} {area : Area}

/-- A station in an area carries a packet for it on. -/
theorem into_suits_of_inside (h : (f.geometry.relativePosition s.here area).isWithin = true) :
    ∃ contended, (f.timed (f.into s area)).Suits contended := by
  rcases into_suits f s area with ⟨e, hdiscard⟩ | hsuits
  · exact nomatch (outside_of_discard hdiscard).symm.trans h
  · exact ⟨_, hsuits⟩

/-- A station outside an area carries a packet on that does not come from inside. -/
theorem into_of_outside (h : (f.geometry.relativePosition s.here area).isWithin = false) :
    f.into s area =
      if s.sender.any fun p => (f.geometry.relativePosition p area).isWithin then
        .discard .senderInsideArea
      else f.toward s area.centre := by
  unfold into
  rw [h, if_neg Bool.false_ne_true]

end Forwarder

namespace Router

variable {α : Type} [Scalar α]

/-- Whether a point lies in an area or on its edge. -/
def covers (r : Router α) (area : Area) (point : Point) : Bool :=
  (r.geometry.relativePosition point area).isWithin

/-- What is to become of a packet for an area: the stations in the area deliver it, and it goes on
while it has hops left and has not come to any one of them yet; the stations around pass it on
unless it was in the area already. -/
def areaOutcome (r : Router α) (p : Packet) (u : AreaHeader) : ReceiveOutcome :=
  if r.covers u.area r.here then
    .consume (.ofPacket p.relayed u.source
      (!isAnycast p.common.type && p.basic.remainingHops ≠ 1))
  else if p.basic.remainingHops = 1 then .drop .hopLimitExhausted
  else if r.covers u.area u.source.point then .drop .senderInsideArea
  else .forward

/-- A packet for an area is settled: its outcome is the one that it is to have, it is delivered
exactly in the area, and it leaves one copy if it was passed on, and else none. -/
structure AreaSettled (r : Router α) (frame : Bytes) (p : Packet) (u : AreaHeader) : Prop where
  outcome : (r.receive frame).1 = r.areaOutcome p u
  delivered : (r.receive frame).1.isDelivered = r.covers u.area r.here
  ended : (r.receive frame).1.isRelayed = false → (r.receive frame).2.copies = 0
  passed : (r.receive frame).1.isRelayed = true → r.Carries frame p.relayed

variable {r : Router α} {frame : Bytes} {p : Packet}

theorem receiveArea_of_inside (a : Arrival) {area : Area} (hinside : r.covers area r.here = true)
    (anycast : Bool) :
    (r.receiveArea a area anycast).1 =
      deliver a (!anycast && a.packet.basic.remainingHops ≠ 0) := by
  unfold receiveArea
  rw [show (r.geometry.relativePosition r.here area).isWithin = true from hinside]
  cases anycast with
  | true => rfl
  | false =>
    dsimp only
    rw [Bool.and_false, if_neg Bool.false_ne_true]
    by_cases hhops : a.packet.basic.remainingHops = 0
    · rw [if_pos hhops, hhops]
      rfl
    · let here := r.surroundings r.here (some a.source.point) a.packet.common.trafficClass
      have hcarried : ∃ contended, (r.forwarder.timed (r.forwarder.into here area)).Suits contended :=
        Forwarder.into_suits_of_inside hinside
      obtain ⟨_, hsuits⟩ := hcarried
      rw [if_neg hhops, dispatch_isOk hsuits, decide_eq_true hhops]
      rfl

theorem receiveArea_of_outside (a : Arrival) {area : Area}
    (houtside : r.covers area r.here = false) (anycast : Bool) :
    (r.receiveArea a area anycast).1 =
      if a.packet.basic.remainingHops = 0 then .drop .hopLimitExhausted
      else if r.covers area a.source.point then .drop .senderInsideArea
      else .forward := by
  unfold receiveArea
  rw [show (r.geometry.relativePosition r.here area).isWithin = false from houtside]
  dsimp only
  rw [Bool.false_and, if_neg Bool.false_ne_true]
  by_cases hhops : a.packet.basic.remainingHops = 0
  · rw [if_pos hhops, if_pos hhops]
    rfl
  · rw [if_neg hhops, if_neg hhops]
    let here := r.surroundings r.here (some a.source.point) a.packet.common.trafficClass
    have hinto : r.forwarder.into here area =
        if r.covers area a.source.point then .discard .senderInsideArea
        else r.forwarder.toward here area.centre := Forwarder.into_of_outside houtside
    by_cases hreturned : r.covers area a.source.point = true
    · rw [if_pos hreturned, hinto, if_pos hreturned]
      rfl
    · rw [if_neg hreturned, hinto, if_neg hreturned]
      have hsuits := Forwarder.toward_suits r.forwarder here area.centre rfl
      -- towards the area there is always something that can be done
      have hok := dispatch_isOk (r := r) hsuits (.ofPacket a.packet .link none
        (r.originNow a.packet))
      generalize r.dispatch _ _ = served at hok ⊢
      obtain ⟨result, s⟩ := served
      cases result with
      | error e => exact absurd hok Bool.false_ne_true
      | ok outcome => rfl

theorem receiveArea_outcome (a : Arrival) (area : Area) (anycast : Bool) :
    (r.receiveArea a area anycast).1 =
      if r.covers area r.here then deliver a (!anycast && a.packet.basic.remainingHops ≠ 0)
      else if a.packet.basic.remainingHops = 0 then .drop .hopLimitExhausted
      else if r.covers area a.source.point then .drop .senderInsideArea
      else .forward := by
  cases hinside : r.covers area r.here with
  | true => exact receiveArea_of_inside a hinside anycast
  | false => exact receiveArea_of_outside a hinside anycast

omit [Scalar α] in
/-- The outcome that a packet for an area is to have says by itself where it is delivered. -/
theorem isDelivered_areaOutcome (r : Router α) (p : Packet) (u : AreaHeader) :
    (r.areaOutcome p u).isDelivered = r.covers u.area r.here := by
  unfold areaOutcome
  split
  · next hinside => exact hinside.symm
  · next houtside =>
    rw [Bool.eq_false_iff.mpr houtside]
    split
    · rfl
    · split <;> rfl

/-- In every state that a running router can come to, a packet for an area that another station sent
and that was not seen before is settled. -/
theorem area_settled (reach : Reachable r) (hrunning : r.phase = .running)
    (hdecode : Packet.decode frame = .ok p) {u : AreaHeader} (hlayout : p.extended = .area u)
    (hother : u.source.address ≠ r.config.address) (hhops : p.basic.remainingHops ≠ 0)
    (hfresh : (r.remembered u.source.address).contains u.sequence = false) :
    r.AreaSettled frame p u := by
  have hsource : p.source? = some u.source := by
    unfold Packet.source?
    rw [hlayout]
    rfl
  have hnumber : p.relayed.sequence? = some u.sequence := by
    unfold Packet.sequence? Packet.relayed
    rw [hlayout]
    rfl
  have hjudge := judge_of_decode (r := r) hdecode hsource hother hhops
  obtain ⟨t, hready⟩ := receive_readies reach hrunning hjudge fun n hn => by
    obtain rfl := Option.some.inj (hnumber.symm.trans hn)
    exact hfresh
  -- the station looks at the area from where it was when the frame came in
  have hcovers (point : Point) : t.covers u.area point = r.covers u.area point := by
    unfold covers
    rw [hready.steady.geometry]
    rfl
  have houtcome : (r.receive frame).1 = r.areaOutcome p u := by
    have hhere : t.here = r.here := hready.steady.here
    rw [hready.outcome, handle_of_area (u := u) hlayout, receiveArea_outcome, hcovers, hcovers, hhere]
    simp only [ne_eq, Packet.remainingHops_relayed_eq_zero_iff]
    rfl
  have hdelivered := congrArg ReceiveOutcome.isDelivered houtcome
  rw [isDelivered_areaOutcome] at hdelivered
  have hrequest : p.relayed.isRequest = false := by
    unfold Packet.isRequest Packet.relayed
    rw [hlayout]
  refine ⟨houtcome, hdelivered, fun hended => hready.ended hended ?_, fun hpassed => ?_⟩
  · rw [hrequest, Bool.and_false]
  · obtain ⟨q, hpasses, hcarries, _⟩ := hready.passed hpassed
    rcases hpasses.packet with rfl | ⟨w, is_unicast, _⟩
    · exact hcarries
    · exact nomatch hlayout.symm.trans is_unicast

/-! ## Notices that stations outside contend for -/

/-- Places measured as by a station for which every place lies outside of every area. -/
def trialOutskirts : Geometry Float :=
  { trialGeometry with relativePosition := fun _ _ => .outside }

/-- A packet of a station for an area, which came over another one. -/
def trialNotice (sequence : UInt16) : Packet where
  basic := { lifetime := ⟨0xf1⟩, remainingHops := 3 }
  common := { type := .geoBroadcast .circle, mobile := true, maxHops := 5 }
  extended := .area {
    sequence := ⟨sequence⟩
    source := trialPosition 11 100000 10000
    area := { centre := ⟨0, 20000⟩, a := 50 } }
  payload := []
  fits := rfl
  declared := rfl

theorem trialNotice_sendable (sequence : UInt16) : (trialNotice sequence).Sendable := by
  have hhops : (3 : UInt8) ≤ 5 := by decide
  refine ⟨UInt8.le_refl _, nofun, hhops, fun v hv => ?_⟩
  obtain rfl := Option.some.inj hv
  exact trialPosition_compact 11 100000 10000

/-- A router to try things on, once so many notices of one station have come in. -/
def trialBystander (notices : Nat) : Router Float :=
  (trialStarted trialOutskirts trialContending).run
    ((List.range notices).map fun i => .receive (trialNotice (.ofNat (7 + i))).encode)

theorem trialBystander_reachable (notices : Nat) : Reachable (trialBystander notices) := by
  have hfault : trialContending.fault?.isNone = true := by decide +kernel
  have hstarted := trialStarted_reachable trialOutskirts (Option.isNone_iff_eq_none.mp hfault)
    (by decide +kernel)
  exact hstarted.leads (leads_run _ _)

/-- The first notice is forwarded, and goes on from one place. -/
theorem area_settled_of_notice :
    ∃ place, ((trialBystander 0).receive (trialNotice 7).encode).2.GoesOn
      (trialNotice 7).relayed place := by
  have hsettled := area_settled (trialBystander_reachable 0) (by decide +kernel)
    (Packet.decode_encode (trialNotice_sendable 7)) rfl (by decide) (by decide) (by decide +kernel)
  exact (hsettled.passed (by decide +kernel)).kept (by decide +kernel)

/-- The first of 21 notices is not remembered when another station relays it. It is forwarded once
more, but the copy that it leaves is in no place. -/
theorem not_forall_area_kept :
    ¬ ∀ r : Router Float, Reachable r → r.phase = .running →
      ∀ frame p, Packet.decode frame = .ok p → ∀ u, p.extended = .area u →
        u.source.address ≠ r.config.address → p.basic.remainingHops ≠ 0 →
        (r.remembered u.source.address).contains u.sequence = false →
        (r.receive frame).1.isRelayed = true → (r.receive frame).2.Bears p.relayed.encode := by
  intro h
  have hhops : (trialNotice 7).basic.remainingHops ≠ 0 := by decide
  -- all that has to be computed of the router, at once
  have hfacts : (trialBystander 21).phase = .running ∧
      trialStation 11 ≠ (trialBystander 21).config.address ∧
      ((trialBystander 21).remembered (trialStation 11)).contains ⟨7⟩ = false ∧
      ((trialBystander 21).receive (trialNotice 7).relayed.encode).1.isRelayed = true ∧
      ¬ ((trialBystander 21).receive (trialNotice 7).relayed.encode).2.Bears
        (trialNotice 7).relayed.relayed.encode := by
    decide +kernel
  obtain ⟨hrunning, hother, hfresh, hrelayed, hnowhere⟩ := hfacts
  exact hnowhere (h (trialBystander 21) (trialBystander_reachable 21) hrunning _ _
    (Packet.decode_encode ((trialNotice_sendable 7).relayed hhops)) _ rfl hother (by decide) hfresh
    hrelayed)

end Router

end Geocast
