import Geocast.Proofs.Router.Handling
import Geocast.Proofs.Router.Places

/-!
# The account of requests

A request to send begins the way of one packet if it is served, and of none if it is refused
(`transmit_served`). The packet is the router's own, and neither a beacon nor a request; the same is
true of the answer to a station that asks for the place of the router.
-/

namespace Geocast

/-- Whether a packet asks for the place of a station. -/
def Packet.isRequest (p : Packet) : Bool :=
  match p.extended with
  | .locationRequest _ => true
  | _ => false

theorem Packet.isRequest_eq_false {p : Packet} (h : ∀ u, p.extended ≠ .locationRequest u) :
    p.isRequest = false := by
  unfold isRequest
  split
  · next u layout => exact absurd layout (h u)
  · rfl

namespace Router

variable {α : Type} {r : Router α}

/-! ## Requests to send -/

/-- A packet of another layout than a request asks for nothing. -/
theorem asks_eq_false_of_ne {p : Packet} (h : p.Sendable)
    (hquiet : ∀ u, p.extended ≠ .locationRequest u) (a : Address) : r.asks a p.encode = false := by
  rw [Bool.eq_false_iff, ne_eq, asks_encode r a h]
  exact fun ⟨u, hu, _⟩ => hquiet u hu

/-- What begins its way when a router serves a request or answers one: at most a packet of its own,
which is neither a beacon nor a request. -/
structure Quiet (r : Router α) (new : Multiset Origin) : Prop where
  few : new.card ≤ 1
  own : ∀ o ∈ new, r.Homemade o
  unsigned : ∀ o ∈ new, r.isSignal o.frame = false

theorem Quiet.zero (r : Router α) : r.Quiet 0 :=
  ⟨Nat.zero_le _, fun _ h => absurd h (Multiset.notMem_zero _),
    fun _ h => absurd h (Multiset.notMem_zero _)⟩

/-- A packet of the router's own that is no signal may begin its way so. -/
theorem Quiet.singleton {p : Packet} (h : p.Sendable) (hown : r.Own p)
    (hquiet : p.isSignal = false) (handle : Option Nat) :
    r.Quiet {{ r.originNow p with handle }} where
  few := Nat.le_of_eq (Multiset.card_singleton _)
  own := fun o ho => by
    obtain rfl := Multiset.mem_singleton.mp ho
    exact .of_own rfl h hown handle
  unsigned := fun o ho => by
    obtain rfl := Multiset.mem_singleton.mp ho
    exact isSignal_eq_false h hquiet

/-- A request is refused, and then nothing begins its way, or it is served, and then one packet
does. -/
def Served {ε β : Type} (r : Router α) (result : Except ε β) (s : Router α) : Prop :=
  ∃ new, r.Quiet new ∧ Dealt new (if result.isOk then 1 else 0) r s

/-- A packet of the router's own goes its way in the instant in which it is made. -/
theorem dispatch_served {s : Router α} (h : Dealt 0 0 r s) {decision : Decision} {p : Packet}
    (hsendable : p.Sendable) (hown : r.Own p) (hquiet : p.isSignal = false) (outlet : Outlet)
    (destination : Option Address) (hprompt : decision.isPrompt = true)
    (hgreedy : decision = .buffer → r.config.effectiveNonArea = .greedy) :
    Served r (s.dispatch decision (.ofPacket p outlet destination (r.originNow p))).1
      (s.dispatch decision (.ofPacket p outlet destination (r.originNow p))).2 := by
  obtain ⟨hok, hdealt⟩ := dispatch_prompt_dealt h.sound
    (.ofPacket p outlet destination (r.originNow p)) hprompt (by rwa [h.config])
  refine ⟨_, .singleton hsendable hown hquiet none, ?_⟩
  rw [hok]
  exact h.after_nothing hdealt rfl

/-- A packet that is parked begins its way, and counts as taken over. -/
theorem await_dealt (h : r.Sound) (target : Address) (p : Parcel) :
    Dealt {p.origin} 1 r (r.await target p).2 := by
  have hnumbered := useSequence_dealt h (some p.origin)
  have hparked := hnumbered.after_nothing
    (enqueue_dealt hnumbered.sound .lookup target p nofun) (Int.zero_add 1)
  have hbegun := hparked.then_nothing (t :=
    ((r.useSequence (some p.origin)).enqueue .lookup target p).openLookup target) (by
      unfold openLookup
      split
      · exact .refl hparked.sound
      · exact .idle hparked.sound rfl rfl rfl rfl rfl) (Int.add_zero 1)
  refine hbegun.then_nothing ?_ (Int.add_zero 1)
  unfold await subscribe
  split
  · exact .refl hbegun.sound
  · exact .idle hbegun.sound rfl rfl rfl rfl rfl

variable [Scalar α]

/-- A router serves a request to send or refuses it. -/
theorem transmit_served (h : r.Sound) (q : Request) :
    Served r (r.transmit q).1 (r.transmit q).2 := by
  have hserves := transmit_serves r q
  generalize r.transmit q = done at hserves ⊢
  cases hserves with
  | refused _ => exact ⟨0, .zero r, .refl h⟩
  | tooLarge _ _ =>
    refine ⟨0, .zero r, ?_⟩
    split
    · exact useSequence_dealt h none
    · exact .refl h
  | @dispatched p s decision outlet destination _ _ hcomposes hs hprompt hwait _ =>
    have hnumbered : Dealt 0 0 r s := by
      rw [hs]
      split
      · exact number_dealt h p
      · exact .refl h
    exact dispatch_served hnumbered hcomposes.sendable hcomposes.toOwn hcomposes.unsigned outlet
      destination hprompt fun hbuffer => (hwait hbuffer).1
  | @awaited target small _ _ _ hcomposes =>
    exact ⟨_, .singleton hcomposes.sendable hcomposes.toOwn hcomposes.unsigned (some r.handles),
      await_dealt h target (r.unresolvedParcel (r.draft q) small target)⟩

/-! ## Answers -/

theorem fits_unicast (h : UnicastHeader) : (Extended.unicast h).fits .locationReply = true := rfl

/-- The packet by which a station tells another one where it is. -/
def replyPacket (r : Router α) (peer : LongPosition) : Packet :=
  let header : UnicastHeader :=
    { sequence := r.sequence, source := r.localPosition, destination := peer.toShort }
  r.originate .locationReply (.unicast header) (fits_unicast header) r.defaultLifetime
    r.config.hopLimit .any {} [] (Nat.zero_le _)

omit [Scalar α] in
/-- It can be read by every station. -/
theorem replyPacket_sendable (r : Router α) (peer : LongPosition) :
    (r.replyPacket peer).Sendable :=
  originate_sendable r rfl _ _ _ _ _ rfl

omit [Scalar α] in
/-- It is the router's own. -/
theorem replyPacket_own (r : Router α) (peer : LongPosition) : r.Own (r.replyPacket peer) :=
  originate_own r rfl _ _ _ _ rfl id

/-- A router answers a request for its place: the answer is sent or parked. -/
theorem sendLocationReply_sent (h : r.Sound) (requester : LongPosition) :
    (r.sendLocationReply requester).1.isOk = true ∧ ∃ place, place.isTimer = false ∧
      Sent r (r.replyPacket requester) (some place) (r.sendLocationReply requester).2 := by
  have hnumbered := number_dealt h (r.replyPacket requester)
  have hprompt := toward_own_isPrompt r r.localPosition.point {} requester.point
  let here := r.surroundings r.localPosition.point none {}
  have hgreedy (h : r.forwarder.timed (r.forwarder.toward here requester.point) = .buffer) :=
    Forwarder.greedy_of_toward (f := r.forwarder) h
  have hsent := dispatch_sent hnumbered.sound (replyPacket_sendable r requester) hgreedy
    (some requester.address)
  obtain ⟨place, hplace, hpatient⟩ := place?_of_prompt
    (r := r.number (r.replyPacket requester)) hprompt
    (.ofPacket (r.replyPacket requester) .link (some requester.address)
      ((r.number (r.replyPacket requester)).originNow (r.replyPacket requester)))
  refine ⟨dispatch_isOk ((Plan.suits_false_iff _).mpr hprompt) _, place, hpatient, ?_⟩
  rw [hplace] at hsent
  obtain ⟨hdealt, hstands⟩ := hsent.of_some
  exact .goes (hnumbered.after_nothing hdealt) hstands

end Router

end Geocast
