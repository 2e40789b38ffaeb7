import Geocast.Proofs.Packet.Passed
import Geocast.Proofs.Router.Logged
import Geocast.Proofs.Router.Serving

/-!
# The account of frames

A frame is dropped unread, brings a packet that was seen before, or one that is accepted (`Reads`).
What is accepted begins the way of one packet if it is passed on or answered: of the packet that
came, or of the answer (`Handled`). `receive_dealt` says what becomes of it and of everything that
the frame set in motion. A packet that is to wait on a timer that runs for another copy of it is
the one that is lost without a trace (`Router.mislays`).
-/

namespace Geocast

namespace ReceiveOutcome

/-- A packet was sent on, delivered here or not. -/
def isRelayed : ReceiveOutcome → Bool
  | .forward => true
  | .consume indication => indication.forwarded
  | .drop _ => false

/-- A frame was dropped, but not because its packet was seen before. -/
def isRejected : ReceiveOutcome → Bool
  | .forward | .consume _ => false
  | .drop (.duplicatePacket _ _) => false
  | .drop _ => true

/-- A packet was delivered. -/
def isDelivered : ReceiveOutcome → Bool
  | .consume _ => true
  | .forward | .drop _ => false

end ReceiveOutcome

/-- Whether a packet is for everybody within some hops or asks for a station. -/
def Packet.isFlooded (p : Packet) : Bool :=
  match p.extended with
  | .topological _ | .locationRequest _ => true
  | _ => false

/-- A packet with another place for its destination contends as the same one. -/
theorem keyOf_withDestination (p : Packet) (u : UnicastHeader) (is_unicast : p.extended = .unicast u)
    (d : ShortPosition) :
    Outgoing.keyOf (p.withDestination u is_unicast d) = Outgoing.keyOf p := by
  unfold Outgoing.keyOf Packet.source? Packet.sequence?
  rw [is_unicast]
  rfl

namespace Router

variable {α : Type} [Scalar α] {r : Router α}

/-! ## Packets that arrive -/

/-- Whether stations contend for a packet that arrived where the router is. -/
def contends (r : Router α) (a : Arrival) : Bool :=
  match a.packet.extended with
  | .unicast _ => r.config.effectiveNonArea = .contention
  | .area h => r.forwarder.contends r.here h.area
  | _ => false

/-- Whether a packet that is passed on is lost without a trace: it is to wait on a timer, but one
runs for a copy of it. -/
def mislays (r : Router α) (a : Arrival) : Bool :=
  r.contends a && (Outgoing.keyOf a.packet).any r.contention.contains

/-- Where a packet goes that is passed on: nowhere only if it is mislaid, and if it is for everybody
or asks for a station, to whoever hears it. -/
structure Heads (r : Router α) (a : Arrival) (place? : Option Place) : Prop where
  mislaid : place?.isNone = r.mislays a
  flooded : a.packet.isFlooded = true → place? = some (.link .broadcast)

/-- What becomes of a packet: it ends here, it is passed on, or it asks for the place of the router
and is answered. -/
inductive Handled (r : Router α) (a : Arrival) : ReceiveOutcome × Router α → Prop
  | ended {outcome : ReceiveOutcome} :
      outcome.isRelayed = false → (outcome.isDelivered = true → a.packet.isRequest = false) →
      Handled r a (outcome, r)
  | passed {outcome : ReceiveOutcome} {p : Packet} {place? : Option Place} {s : Router α} :
      outcome.isRelayed = true → (outcome.isDelivered = true → a.packet.isRequest = false) →
      r.PassesOn a p → r.Heads a place? → Sent r p place? s → Handled r a (outcome, s)
  | answered {place : Place} {s : Router α} :
      a.packet.isRequest = true → place.isTimer = false →
      Sent r (r.replyPacket a.source) (some place) s → Handled r a (deliver a false, s)

variable {a : Arrival}

omit [Scalar α] in
/-- A packet with hops left is told to everybody in earshot. -/
theorem rebroadcast_sent (h : r.Sound) (hsendable : a.packet.Sendable)
    (hhops : a.packet.basic.remainingHops ≠ 0) :
    (r.rebroadcast a).1 = true ∧
      Sent r a.packet (some (.link .broadcast)) (r.rebroadcast a).2 := by
  have hgreedy : (.broadcast : Decision) = .buffer → r.config.effectiveNonArea = .greedy := nofun
  unfold rebroadcast
  rw [if_neg hhops]
  exact ⟨rfl, dispatch_sent h hsendable hgreedy none⟩

omit [Scalar α] in
/-- A packet that stations contend for, or do not, goes where the decision leads. -/
theorem dispatch_heads (h : r.Sound) (hflooded : a.packet.isFlooded = false) {p : Packet}
    (hsendable : p.Sendable) (hkey : Outgoing.keyOf p = Outgoing.keyOf a.packet)
    {decision : Decision} (hsuits : decision.Suits (r.contends a))
    (hgreedy : decision = .buffer → r.config.effectiveNonArea = .greedy)
    (destination : Option Address) :
    (r.dispatch decision (.ofPacket p .link destination (r.originNow p))).1.isOk = true ∧
      ∃ place?, r.Heads a place? ∧ Sent r p place?
        (r.dispatch decision (.ofPacket p .link destination (r.originNow p))).2 := by
  refine ⟨dispatch_isOk hsuits _, _, ⟨?_, fun hflood => ?_⟩,
    dispatch_sent h hsendable hgreedy destination⟩
  · rw [place?_isNone hsuits]
    show (r.contends a && (Outgoing.keyOf p).any r.contention.contains) = r.mislays a
    rw [hkey]
    rfl
  · exact nomatch hflooded.symm.trans hflood

omit [Scalar α] in
/-- A packet that no one contends for is passed on as long as it has hops left. -/
theorem rebroadcast_handled (h : r.Sound) (hsendable : a.packet.Sendable)
    (hnumbered : a.packet.sequence?.isSome = true) (hfree : r.contends a = false) :
    (r.rebroadcast a).1 = false ∧ (r.rebroadcast a).2 = r ∨
      (r.rebroadcast a).1 = true ∧ r.PassesOn a a.packet ∧ r.Heads a (some (.link .broadcast)) ∧
        Sent r a.packet (some (.link .broadcast)) (r.rebroadcast a).2 := by
  by_cases hhops : a.packet.basic.remainingHops = 0
  · unfold rebroadcast
    rw [if_pos hhops]
    exact .inl ⟨rfl, rfl⟩
  · obtain ⟨hrelayed, hsent⟩ := rebroadcast_sent h hsendable hhops
    have hkept : r.mislays a = false := by
      unfold mislays
      rw [hfree, Bool.false_and]
    exact .inr ⟨hrelayed, ⟨hnumbered, hhops, .inl rfl⟩, ⟨hkept.symm, fun _ => rfl⟩, hsent⟩

/-- A packet for one station ends at it; at every other router it goes on, or its hops are used
up. -/
theorem receiveUnicast_handled (h : r.Sound) (hsendable : a.packet.Sendable) (u : UnicastHeader)
    (is_unicast : a.packet.extended = .unicast u) :
    Handled r a (r.receiveUnicast a u is_unicast) := by
  have hrequest : a.packet.isRequest = false :=
    Packet.isRequest_eq_false fun _ h => nomatch is_unicast.symm.trans h
  have hflooded : a.packet.isFlooded = false := by
    unfold Packet.isFlooded
    rw [is_unicast]
  unfold receiveUnicast
  split
  · exact .ended rfl fun _ => hrequest
  · split
    · exact .ended rfl fun _ => hrequest
    · next hhops =>
      have hsequence : a.packet.sequence? = some u.sequence := Packet.sequence?_eq is_unicast
      have hcontends : r.contends a =
          (decide (r.config.effectiveNonArea = .contention) && true) := by
        unfold contends
        rw [is_unicast, Bool.and_true]
      -- it is contended for under the same key, wherever its destination is now
      obtain ⟨hok, place?, hheads, hsent⟩ := dispatch_heads h hflooded
        (hsendable.withDestination u is_unicast (r.refreshed u.destination false))
        (keyOf_withDestination a.packet u is_unicast _)
        (Forwarder.toward_suits r.forwarder
          (r.surroundings r.here (some a.source.point)
            (a.packet.withDestination u is_unicast
              (r.refreshed u.destination false)).common.trafficClass)
          (r.refreshed u.destination false).point hcontends.symm)
        (Forwarder.greedy_of_toward (f := r.forwarder)) (some u.destination.address)
      dsimp only
      split
      · next heq =>
        rw [heq] at hsent
        exact .passed rfl (fun _ => hrequest) ⟨hsequence ▸ rfl, hhops, .inr ⟨u, is_unicast, rfl⟩⟩
          hheads hsent
      · next heq =>
        rw [heq] at hok
        exact absurd hok Bool.false_ne_true

/-- A request is answered by the one that it asks for, and passed on by all others. -/
theorem receiveLocationRequest_handled (h : r.Sound) (hsendable : a.packet.Sendable)
    {u : LocationRequestHeader} (hlayout : a.packet.extended = .locationRequest u) :
    Handled r a (r.receiveLocationRequest a u.requested) := by
  have hrequest : a.packet.isRequest = true := by
    unfold Packet.isRequest
    rw [hlayout]
  unfold receiveLocationRequest
  split
  · obtain ⟨hok, place, hpatient, hsent⟩ := sendLocationReply_sent h a.source
    split
    · next heq =>
      rw [heq] at hsent
      exact .answered hrequest hpatient hsent
    · next heq =>
      rw [heq] at hok
      exact absurd hok Bool.false_ne_true
  · have hsequence : a.packet.sequence?.isSome = true := by
      rw [Packet.sequence?_eq hlayout]
      rfl
    have hfree : r.contends a = false := by
      unfold contends
      rw [hlayout]
    rcases rebroadcast_handled h hsendable hsequence hfree with
      ⟨hrelayed, hsame⟩ | ⟨hrelayed, hpasses, hheads, hsent⟩
    · dsimp only
      rw [hrelayed, hsame]
      exact .ended rfl nofun
    · dsimp only
      rw [hrelayed]
      exact .passed rfl nofun hpasses hheads hsent

/-- A packet for an area ends at who is not to pass it on, and waits or goes on at all others. -/
theorem receiveArea_handled (h : r.Sound) (hsendable : a.packet.Sendable) {u : AreaHeader}
    (hlayout : a.packet.extended = .area u) (anycast : Bool) :
    Handled r a (r.receiveArea a u.area anycast) := by
  have hrequest : a.packet.isRequest = false :=
    Packet.isRequest_eq_false fun _ h => nomatch hlayout.symm.trans h
  have hflooded : a.packet.isFlooded = false := by
    unfold Packet.isFlooded
    rw [hlayout]
  have hsequence : a.packet.sequence?.isSome = true := by
    rw [Packet.sequence?_eq hlayout]
    rfl
  have hcontends : r.contends a = (r.forwarder.contends r.here u.area && true) := by
    unfold contends
    rw [hlayout, Bool.and_true]
  unfold receiveArea
  dsimp only
  split
  · exact .ended rfl fun _ => hrequest
  · split
    · split
      · exact .ended rfl fun _ => hrequest
      · exact .ended rfl nofun
    · next hhops =>
      -- outside the area a packet of a sender inside is not brought back
      rcases Forwarder.into_suits r.forwarder
        (r.surroundings r.here (some a.source.point) a.packet.common.trafficClass) u.area with
        ⟨e, hdiscard⟩ | hsuits
      · have houtside := Forwarder.outside_of_discard hdiscard
        unfold Forwarder.timed
        rw [hdiscard, show (r.geometry.relativePosition r.here u.area).isWithin = false from
          houtside]
        exact .ended rfl nofun
      · have hsuits' : Plan.Suits (r.contends a) (r.forwarder.timed (r.forwarder.into
            (r.surroundings r.here (some a.source.point) a.packet.common.trafficClass) u.area)) :=
          hcontends ▸ hsuits
        obtain ⟨hok, place?, hheads, hsent⟩ := dispatch_heads h hflooded hsendable rfl hsuits'
          (Forwarder.greedy_of_into (f := r.forwarder)) none
        generalize r.dispatch _ _ = served at hok hsent ⊢
        obtain ⟨result, t⟩ := served
        cases result with
        | error e => exact absurd hok Bool.false_ne_true
        | ok outcome =>
          cases (r.geometry.relativePosition r.here u.area).isWithin with
          | true =>
            exact .passed rfl (fun _ => hrequest) ⟨hsequence, hhops, .inl rfl⟩ hheads hsent
          | false => exact .passed rfl nofun ⟨hsequence, hhops, .inl rfl⟩ hheads hsent

/-! ## The layout of a packet decides how it is handled -/

/-- What every station delivers, and passes on to nobody. -/
theorem handle_beacon {v : LongPosition} (h : a.packet.extended = .beacon v) :
    r.handle a = (deliver a false, r) := by
  unfold handle
  split <;> next layout => first | rfl | exact nomatch layout.symm.trans h

/-- A packet for the neighbours ends at each of them. -/
theorem handle_singleHop {u : SingleHopHeader} (h : a.packet.extended = .singleHop u) :
    r.handle a = (deliver a false, r) := by
  unfold handle
  split <;> next layout => first | rfl | exact nomatch layout.symm.trans h

/-- A packet for everybody within some hops is delivered and passed on. -/
theorem handle_topological {u : TopologicalHeader} (h : a.packet.extended = .topological u) :
    r.handle a = (deliver a (r.rebroadcast a).1, (r.rebroadcast a).2) := by
  unfold handle
  split <;> next layout => first | rfl | exact nomatch layout.symm.trans h

/-- A packet in the layout of a unicast is treated as one. -/
theorem handle_of_unicast {u : UnicastHeader} (h : a.packet.extended = .unicast u) :
    r.handle a = r.receiveUnicast a u h := by
  unfold handle
  split
  case h_5 u' layout =>
    obtain rfl := Extended.unicast.inj (layout.symm.trans h)
    rfl
  all_goals next layout => exact nomatch layout.symm.trans h

/-- And so is one in that of a location request. -/
theorem handle_of_request {u : LocationRequestHeader}
    (h : a.packet.extended = .locationRequest u) :
    r.handle a = r.receiveLocationRequest a u.requested := by
  unfold handle
  split
  case h_6 u' layout =>
    obtain rfl := Extended.locationRequest.inj (layout.symm.trans h)
    rfl
  all_goals next layout => exact nomatch layout.symm.trans h

/-- And one in that of a packet for an area. -/
theorem handle_of_area {u : AreaHeader} (h : a.packet.extended = .area u) :
    r.handle a = r.receiveArea a u.area (isAnycast a.packet.common.type) := by
  unfold handle
  split
  case h_7 u' layout =>
    obtain rfl := Extended.area.inj (layout.symm.trans h)
    rfl
  all_goals next layout => exact nomatch layout.symm.trans h

/-- A packet without a layout of its own is malformed here. -/
theorem handle_of_any (h : a.packet.extended = .any) :
    r.handle a = (.drop (.malformedPacket (.headerMismatch a.packet.common.type)), r) := by
  unfold handle
  split <;> next layout => first | rfl | exact nomatch layout.symm.trans h

/-- A packet of whatever layout ends here, goes on or is answered. -/
theorem handle_handled (h : r.Sound) (hsendable : a.packet.Sendable) :
    Handled r a (r.handle a) := by
  cases layout : a.packet.extended with
  | any =>
    rw [handle_of_any layout]
    exact .ended rfl nofun
  | beacon v =>
    rw [handle_beacon layout]
    exact .ended rfl fun _ => Packet.isRequest_eq_false fun _ h =>
      nomatch layout.symm.trans h
  | singleHop u =>
    rw [handle_singleHop layout]
    exact .ended rfl fun _ => Packet.isRequest_eq_false fun _ h =>
      nomatch layout.symm.trans h
  | topological u =>
    have hrequest := Packet.isRequest_eq_false fun _ h => nomatch layout.symm.trans h
    have hsequence : a.packet.sequence?.isSome = true := by
      rw [Packet.sequence?_eq layout]
      rfl
    -- a packet for everybody is relayed at once
    have hfree : r.contends a = false := by
      unfold contends
      rw [layout]
    rw [handle_topological layout]
    rcases rebroadcast_handled h hsendable hsequence hfree with
      ⟨hrelayed, hsame⟩ | ⟨hrelayed, hpasses, hheads, hsent⟩
    · rw [hrelayed, hsame]
      exact .ended rfl fun _ => hrequest
    · rw [hrelayed]
      exact .passed rfl (fun _ => hrequest) hpasses hheads hsent
  | unicast u =>
    rw [handle_of_unicast layout]
    exact receiveUnicast_handled h hsendable u layout
  | locationRequest u =>
    rw [handle_of_request layout]
    exact receiveLocationRequest_handled h hsendable layout
  | area u =>
    rw [handle_of_area layout]
    exact receiveArea_handled h hsendable layout _

/-! ## Frames that are taken in -/

/-- What begins its way when a frame is taken in: at most one packet, the router's own or the one
under the number of the frame, and no beacon and no request in the router's name. -/
structure Begun (r : Router α) (arrival : Nat) (new : Multiset Origin) : Prop where
  few : new.card ≤ 1
  whence : ∀ o ∈ new, r.Homemade o ∨ o.arrival = arrival
  unsigned : ∀ o ∈ new, r.isSignal o.frame = false

omit [Scalar α] in
/-- Where no packet begins its way, none does that should not. -/
theorem Quiet.begun {new : Multiset Origin} (h : r.Quiet new) (arrival : Nat) :
    r.Begun arrival new :=
  ⟨h.few, fun o ho => .inl (h.own o ho), h.unsigned⟩

omit [Scalar α] in
theorem Begun.of_config {s : Router α} {arrival : Nat} {new : Multiset Origin}
    (h : s.Begun arrival new) (hconfig : s.config = r.config) : r.Begun arrival new where
  few := h.few
  whence := fun o ho => (h.whence o ho).imp_left (·.of_config hconfig.symm)
  unsigned := fun o ho => by
    have hunsigned := h.unsigned o ho
    unfold isSignal isOwn at hunsigned ⊢
    rwa [hconfig] at hunsigned

omit [Scalar α] in
/-- A packet that is passed on can be read by the next station. -/
theorem PassesOn.sendable {p : Packet} (h : r.PassesOn a p) (hsendable : a.packet.Sendable) :
    p.Sendable := by
  rcases h.packet with rfl | ⟨u, is_unicast, rfl⟩
  · exact hsendable
  · exact hsendable.withDestination u is_unicast _

omit [Scalar α] in
/-- It still has the source that it came from. -/
theorem PassesOn.source? {p : Packet} (h : r.PassesOn a p) : p.source? = a.packet.source? := by
  rcases h.packet with rfl | ⟨u, is_unicast, rfl⟩
  · rfl
  · unfold Packet.source?
    rw [is_unicast]
    rfl

/-- What is to be accounted for when a packet has come to its outcome: the packet if it was passed
on, and the answer if it asked for one, but not what was lost without a trace. -/
def dues (r : Router α) (a : Arrival) (outcome : ReceiveOutcome) : Int :=
  outcome.isRelayed.toNat + (outcome.isDelivered && a.packet.isRequest).toNat -
    (outcome.isRelayed && r.mislays a).toNat

omit [Scalar α] in
/-- A packet that was not delivered, or asks for nothing, is not answered. -/
theorem unasked_of {outcome : ReceiveOutcome}
    (h : outcome.isDelivered = true → a.packet.isRequest = false) :
    (outcome.isDelivered && a.packet.isRequest) = false := by
  cases hdelivered : outcome.isDelivered with
  | false => rfl
  | true => exact h hdelivered

omit [Scalar α] in
/-- Whatever becomes of a packet, each one that begins its way here is accounted for. -/
theorem Handled.dealt {result : ReceiveOutcome × Router α} (hsound : r.Sound)
    (h : Handled r a result) (hsendable : a.packet.Sendable)
    (hsource : a.packet.source? = some a.source)
    (hother : a.source.address ≠ r.config.address) :
    ∃ new, r.Begun r.arrivals new ∧ Dealt new (r.dues a result.1) r result.2 := by
  cases h with
  | ended hrelayed hrequest =>
    refine ⟨0, (Quiet.zero r).begun _, ?_⟩
    unfold dues
    rw [hrelayed, unasked_of hrequest]
    exact .refl hsound
  | @passed outcome p place? s hrelayed hrequest hpasses hheads hsent =>
    refine ⟨{r.originNow p}, ⟨Nat.le_of_eq (Multiset.card_singleton _), ?_, ?_⟩, ?_⟩
    · intro o ho
      obtain rfl := Multiset.mem_singleton.mp ho
      exact .inr rfl
    · intro o ho
      obtain rfl := Multiset.mem_singleton.mp ho
      exact isSignal_eq_false_of_foreign (hpasses.sendable hsendable)
        (hpasses.source?.trans hsource) hother
    · have hdealt := hsent.dealt hsound
      rw [hheads.mislaid] at hdealt
      unfold dues
      rw [hrelayed, unasked_of hrequest, Bool.true_and]
      -- a packet that is mislaid is owed nothing, though its outcome says it was passed on
      cases hmislays : r.mislays a with
      | true =>
        rw [hmislays] at hdealt
        exact hdealt
      | false =>
        rw [hmislays] at hdealt
        exact hdealt
  | @answered place s hrequest _ hsent =>
    have hquiet : r.Quiet {r.originNow (r.replyPacket a.source)} :=
      .singleton (replyPacket_sendable r _) (replyPacket_own r _) rfl none
    refine ⟨_, hquiet.begun _, ?_⟩
    unfold dues
    rw [hrequest]
    exact hsent.dealt hsound

/-- Where and when a router is and which timers run, by which it decides whether to contend. -/
structure Steady (r s : Router α) : Prop where
  config : s.config = r.config
  geometry : s.geometry = r.geometry
  position : s.position = r.position
  now : s.now = r.now
  arrivals : s.arrivals = r.arrivals
  contention : s.contention = r.contention

omit [Scalar α] in
theorem Steady.refl (r : Router α) : Steady r r := by constructor <;> rfl

omit [Scalar α] in
theorem Steady.trans {s t : Router α} (h : Steady r s) (h' : Steady s t) : Steady r t where
  config := h'.config.trans h.config
  geometry := h'.geometry.trans h.geometry
  position := h'.position.trans h.position
  now := h'.now.trans h.now
  arrivals := h'.arrivals.trans h.arrivals
  contention := h'.contention.trans h.contention

omit [Scalar α] in
theorem Alike.steady {s : Router α} (h : Alike r s) (hcontention : s.contention = r.contention) :
    Steady r s :=
  ⟨h.config, h.geometry, h.position, h.now, h.arrivals, hcontention⟩

omit [Scalar α] in
theorem Steady.here {s : Router α} (h : Steady r s) : s.here = r.here := by
  unfold Router.here fix
  rw [h.position, h.now]

omit [Scalar α] in
/-- It loses the same packets without a trace. -/
theorem Steady.mislays {s : Router α} (h : Steady r s) (a : Arrival) :
    s.mislays a = r.mislays a := by
  unfold Router.mislays contends forwarder
  rw [h.config, h.geometry, h.here, h.contention]

omit [Scalar α] in
/-- And owes the same account of them. -/
theorem Steady.dues {s : Router α} (h : Steady r s) (a : Arrival) (outcome : ReceiveOutcome) :
    s.dues a outcome = r.dues a outcome := by
  unfold Router.dues
  rw [h.mislays]

/-- The end of a lookup moves no router and touches no timer of a contention. -/
theorem resolveLookup_steady (haddressed : Addressed r) (target : Address) :
    Steady r (r.resolveLookup target) := by
  have hcontention := resolveLookup_contention haddressed target
  cases hl : r.lookups.inFlight.get? target with
  | none =>
    rw [resolveLookup_idle hl]
    exact .refl r
  | some l =>
    rw [resolveLookup_eq hl] at hcontention ⊢
    have hsame := release_alike (r.resolving target l) .lookup
      (r.queues.ready .lookup (some target) r.now)
    exact ⟨hsame.config, hsame.geometry, hsame.position, hsame.now, hsame.arrivals, hcontention⟩

omit [Scalar α] in
/-- Nor does the queue for neighbours when it empties. -/
theorem flushBroadcast_steady (r : Router α) : Steady r r.flushBroadcast := by
  refine (flushBroadcast_alike r).steady ?_
  have hsame (parcels : List Parcel) (r : Router α) :
      (r.emitParcels parcels).contention = r.contention := by
    induction parcels generalizing r with
    | nil => rfl
    | cons p rest ih => exact ih _
  exact hsame (r.queues.ready .broadcast none r.now) { r with queues := r.queues.drop .broadcast none }

/-- What is left of accepting a packet once all that waited for it has gone on. -/
theorem accept_handle (h : r.Sound) (haddressed : Addressed r) (a : Arrival) :
    ∃ s, Steady r s ∧ Dealt 0 0 r s ∧ Logged [] r s ∧ r.accept a = s.handle a := by
  have hresolved := resolveLookup_dealt h haddressed a.source.address
  have hsteady := resolveLookup_steady haddressed a.source.address
  have hlogged := resolveLookup_logged r a.source.address
  unfold accept
  dsimp only
  split
  · have hbroadcast := flushBroadcast_dealt hresolved.sound
    have hunicast := flushUnicast_dealt hbroadcast.sound
    exact ⟨_, (hsteady.trans (flushBroadcast_steady _)).trans ((flushUnicast_alike _).steady
        (flushUnicast_contention hbroadcast.sound)),
      (hresolved.then_nothing hbroadcast rfl).then_nothing hunicast rfl,
      (hlogged.trans (flushBroadcast_logged _)).trans (flushUnicast_logged _), rfl⟩
  · exact ⟨_, hsteady, hresolved, hlogged, rfl⟩

/-- A packet that is taken in is accounted for, with all that its arrival sets free. -/
theorem accept_dealt (h : r.Sound) (haddressed : Addressed r) (hsendable : a.packet.Sendable)
    (hsource : a.packet.source? = some a.source) (hother : a.source.address ≠ r.config.address) :
    ∃ new, r.Begun r.arrivals new ∧ Dealt new (r.dues a (r.accept a).1) r (r.accept a).2 := by
  obtain ⟨s, hsteady, hready, _, heq⟩ := accept_handle h haddressed a
  obtain ⟨new, hbegun, hdealt⟩ := (handle_handled hready.sound hsendable).dealt hready.sound
    hsendable hsource (hsteady.config ▸ hother)
  rw [heq]
  rw [hsteady.dues] at hdealt
  exact ⟨new, hsteady.arrivals ▸ hbegun.of_config hsteady.config,
    hready.after_nothing hdealt (Int.zero_add _)⟩

/-! ## Whole receptions -/

omit [Scalar α] in
/-- A frame that is rejected adds one to what was dropped. -/
theorem tally_dealt (h : r.Sound) (outcome : ReceiveOutcome) :
    Dealt 0 outcome.isRejected.toNat r (r.tally outcome) := by
  refine count_dealt h ?_
  unfold Stats.closed ReceiveOutcome.isRejected
  split
  · simp
  · simp
  · simp
  · simp
    omega
  · simp
    omega
  · next reason _ _ _ =>
    cases reason <;> simp_all <;> omega

omit [Scalar α] in
/-- Whether a packet was seen before is not asked before its headers are judged. -/
theorem judge_ne_duplicate {frame : Bytes} {e : RoutingError} (h : r.judge frame = .error e)
    (b : Address) (n : SequenceNumber) : e ≠ .duplicatePacket b n := by
  rintro rfl
  unfold judge at h
  split at h
  · exact nomatch h
  · exact nomatch h
  · split at h
    · exact nomatch h
    · split at h
      · exact nomatch h
      · split at h <;> exact nomatch h

/-- A router that has counted a frame and learnt of its source. -/
def informed (r : Router α) (table : LocationTable) (f : Stats → Stats) : Router α :=
  ({ r.arrived with table } : Router α).count f

/-- What becomes of a frame: it is dropped unread, its packet was seen before, or is accepted. -/
inductive Reads (r : Router α) (frame : Bytes) : ReceiveOutcome × Router α → Prop
  | unread {e : RoutingError} {f : Stats → Stats} : (∀ b n, e ≠ .duplicatePacket b n) →
      (r.phase ≠ .running ∧ f = id ∨ r.phase = .running ∧ f = fun s => { s with
        packetsReceived := s.packetsReceived + 1 }) →
      Reads r frame (.drop e, (r.noteArrival.count f).tally (.drop e))
  | seen {a : Arrival} {n : SequenceNumber} {table : LocationTable} : r.phase = .running →
      r.judge frame = .ok a →
      Reads r frame (.drop (.duplicatePacket a.source.address n),
        ((r.informed table id).overhear (a.source.address, n)).tally
          (.drop (.duplicatePacket a.source.address n)))
  | accepted {a : Arrival} {table : LocationTable} {f : Stats → Stats} : r.phase = .running →
      r.judge frame = .ok a → a.packet.Sendable → a.packet.source? = some a.source →
      a.source.address ≠ r.config.address →
      (∀ c : Stats, f c = { c with reordered := (f c).reordered }) →
      Reads r frame (((r.informed table f).accept a).1,
        ((r.informed table f).accept a).2.tally ((r.informed table f).accept a).1)

/-- The three ways that a frame may go, with all that each entails. -/
theorem receive_reads (r : Router α) (frame : Bytes) : r.Reads frame (r.receive frame) := by
  cases hrefusal : r.noteArrival.refusal? with
  | some e =>
    have heq : r.receive frame = (.drop e, (r.noteArrival.count id).tally (.drop e)) := by
      unfold receive
      simp only [hrefusal]
      rfl
    have hstill : r.phase ≠ .running := fun hrunning =>
      nomatch hrefusal.symm.trans ((running_iff r).mpr hrunning)
    rw [heq]
    refine .unread ?_ (.inl ⟨hstill, rfl⟩)
    rintro b n rfl
    unfold refusal? at hrefusal
    split at hrefusal <;> exact nomatch hrefusal
  | none =>
    have hrunning := (running_iff r).mp hrefusal
    cases hjudge : r.judge frame with
    | error e =>
      rw [receive_of_judge_error hrunning hjudge]
      exact .unread (judge_ne_duplicate hjudge) (.inr ⟨hrunning, rfl⟩)
    | ok a =>
      rw [receive_of_judge hrunning hjudge]
      rcases process_forms r.arrived a with
        ⟨n, s, hlearn, hprocess⟩ | ⟨_, s, f, hf, hlearn, _, hprocess⟩
      · obtain ⟨table, rfl⟩ := eq_of_learn hlearn
        have hseen : r.Reads frame (.drop (.duplicatePacket a.source.address n),
            ((r.informed table id).overhear (a.source.address, n)).tally
              (.drop (.duplicatePacket a.source.address n))) := .seen hrunning hjudge
        rw [hprocess]
        exact hseen
      · obtain ⟨table, rfl⟩ := eq_of_learn hlearn
        obtain ⟨p, _, hsource, hother, hhops, hpacket⟩ := judge_ok hjudge
        have hsource' : a.packet.source? = some a.source := by
          rw [hpacket, (Packet.passed_relayed hhops).source?, hsource]
        rw [hprocess]
        exact .accepted hrunning hjudge (sendable_of_judge hjudge) hsource' hother hf

/-- What a frame adds to the account of the packets that a router has taken over. -/
def due (r : Router α) (frame : Bytes) : Int :=
  match r.judge frame with
  | .ok a => r.dues a (r.receive frame).1
  | .error _ => 0

/-- What is dropped adds nothing to the account. -/
theorem due_of_drop {frame : Bytes} {e : RoutingError} (h : (r.receive frame).1 = .drop e) :
    r.due frame = 0 := by
  unfold due
  rw [h]
  split <;> rfl

/-- Taking in a frame begins the way of one packet at most, and nothing is lost without a trace but
what the frame brought. -/
theorem receive_dealt (h : r.Sound) (haddressed : Addressed r) (frame : Bytes) :
    ∃ new, r.Begun (r.arrivals + 1) new ∧
      Dealt new (r.due frame + (r.receive frame).1.isRejected.toNat) r (r.receive frame).2 := by
  have hnothing : r.Begun (r.arrivals + 1) 0 := (Quiet.zero r).begun _
  have hdue {e : RoutingError} (hdropped : (r.receive frame).1 = .drop e) : r.due frame = 0 :=
    due_of_drop hdropped
  have hreads := receive_reads r frame
  have hjudged (a : Arrival) (hjudge : r.judge frame = .ok a) :
      r.due frame = r.dues a (r.receive frame).1 := by
    unfold due
    rw [hjudge]
  generalize r.receive frame = done at hreads hdue hjudged ⊢
  cases hreads with
  | @unread e f _ hf =>
    have hnoted : Dealt 0 0 r (r.noteArrival.count f) := by
      rcases hf with ⟨_, rfl⟩ | ⟨_, rfl⟩
      · exact .idle h rfl rfl rfl rfl rfl
      · exact .idle h rfl rfl rfl rfl rfl
    rw [hdue rfl]
    exact ⟨0, hnothing, hnoted.then_nothing (tally_dealt hnoted.sound _) rfl⟩
  | @seen a n table _ _ =>
    -- at most a copy is taken off its timer
    have hinformed : Dealt 0 0 r (r.informed table id) := .idle h rfl rfl rfl rfl rfl
    have hoverheard := hinformed.then_nothing
      (overhear_dealt hinformed.sound (a.source.address, n)) rfl
    rw [hdue rfl]
    exact ⟨0, hnothing, hoverheard.then_nothing (tally_dealt hoverheard.sound _) rfl⟩
  | @accepted a table f _ hjudge hsendable hsource hother hf =>
    have hclosed : (f r.arrived.stats).closed = r.arrived.stats.closed :=
      (congrArg Stats.closed (hf _)).trans rfl
    have hinformed : Dealt 0 0 r (r.informed table f) := .idle h rfl rfl rfl rfl hclosed
    obtain ⟨new, hbegun, hdealt⟩ := accept_dealt hinformed.sound haddressed hsendable hsource hother
    have haccepted := hinformed.after_nothing hdealt (Int.zero_add _)
    rw [hjudged a hjudge]
    exact ⟨new, hbegun.of_config rfl, haccepted.then_nothing (tally_dealt haccepted.sound _) rfl⟩

/-! ## Routers that start and stop -/

/-- A new router holds nothing that it could not account for. -/
theorem Sound.made {geometry : Geometry α} {config : Config α} {base : Timestamp}
    {position : Nat → Fix} {jitter : Nat → Nat}
    (h : make geometry config base position jitter = .ok r) : r.Sound := by
  obtain ⟨hfault, rfl⟩ := eq_of_make h
  have hvalid := of_fault?_eq_none hfault
  exact {
    within := {
      capacity := fun kind => by cases kind <;> rfl
      positive := fun kind => by
        cases kind with
        | broadcast => exact hvalid.broadcast
        | unicast => exact hvalid.unicast
        | lookup => exact hvalid.lookup
      short := fun kind _ => by cases kind <;> exact Nat.zero_le _ }
    greedy := fun _ => rfl
    distinct := List.Pairwise.nil
    keyed := fun _ hc => absurd hc List.not_mem_nil }

omit [Scalar α] in
/-- Nor does a stopped one. -/
theorem Sound.stop (h : r.Sound) : r.stop.Sound := by
  by_cases hstopped : r.phase = .stopped
  · rwa [stop_of_stopped hstopped]
  · rw [stop_eq hstopped]
    exact {
      within := h.within.clear
      greedy := fun _ => rfl
      distinct := List.Pairwise.nil
      keyed := fun _ hc => absurd hc List.not_mem_nil }

end Router

end Geocast
