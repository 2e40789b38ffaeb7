import Geocast.Proofs.Router.Account
import Geocast.Proofs.Router.Frames

/-!
# Where a packet goes on

What is decided for a packet tells where it goes: to the link, into a queue or on a timer
(`Router.place?`). Nowhere goes a packet that is discarded, and one that is to wait on a timer that
runs for another copy of it. Dispatching it puts it there, or changes nothing (`dispatch_sent`).
-/

namespace Geocast

namespace PacketQueues

/-- What is in a queue is in stock. -/
theorem mem_stock_of_queue {q : PacketQueues} {kind : QueueKind} {a : Address} {p : Parcel}
    (h : p ∈ q.queue kind a) : p ∈ q.stock := by
  unfold stock
  rw [Multiset.mem_add, Multiset.mem_add]
  cases kind with
  | broadcast => exact .inl (.inl h)
  | unicast =>
    rw [stockOf_eq q.unicast a]
    exact .inl (.inr (Multiset.mem_add.mpr (.inl h)))
  | lookup =>
    rw [stockOf_eq q.lookup a]
    exact .inr (Multiset.mem_add.mpr (.inl h))

/-- A queue holds at least the parcel that came last. -/
theorem mem_queue_enqueue (q : PacketQueues) (kind : QueueKind) (a : Address) (p : Parcel) :
    p ∈ (q.enqueue kind a p).2.queue kind a := by
  have hlast (capacity : Nat) (parcels : List Parcel) : p ∈ push capacity parcels p :=
    List.mem_append_right _ List.mem_cons_self
  cases kind with
  | broadcast => exact hlast _ _
  | unicast =>
    show p ∈ ((q.unicast.insert a _).get? a).getD []
    rw [AddressMap.get?_insert_self]
    exact hlast _ _
  | lookup =>
    show p ∈ ((q.lookup.insert a _).get? a).getD []
    rw [AddressMap.get?_insert_self]
    exact hlast _ _

end PacketQueues

namespace Router

variable {α : Type}

/-- A packet that begins its way now is at a place. -/
def StandsAt (r : Router α) (p : Packet) : Place → Prop
  | .link target => ∃ e ∈ r.emissions, e.time = r.now ∧ e.target = target ∧ e.frame = p.encode ∧
      e.origin = r.originNow p
  | .queue kind a => ∃ q ∈ r.queues.queue kind a, q.frame = p.encode ∧ q.origin = r.originNow p
  | .timer key => Outgoing.keyOf p = some key ∧ ∃ c ∈ r.contention.contenders, c.key = key ∧
      c.parcel.frame = p.encode ∧ c.parcel.origin = r.originNow p

/-- What becomes of a packet by where it goes: it begins its way there, or nothing changes. -/
inductive Sent (r : Router α) (p : Packet) : Option Place → Router α → Prop
  | goes {place : Place} {s : Router α} : Dealt {r.originNow p} 1 r s → s.StandsAt p place →
      Sent r p (some place) s
  | lost : Sent r p none r

variable {r s : Router α} {p : Packet} {place : Place}

/-- A packet that goes to a place begins its way there. -/
theorem Sent.dealt (h : r.Sound) {place? : Option Place} (hsent : Sent r p place? s) :
    Dealt {r.originNow p} (if place?.isNone then 0 else 1) r s := by
  cases hsent with
  | goes hdealt _ => exact hdealt
  | lost => exact (Dealt.refl h).weaken (Multiset.zero_le _)

theorem Sent.of_some (h : Sent r p (some place) s) :
    Dealt {r.originNow p} 1 r s ∧ s.StandsAt p place := by
  cases h with
  | goes hdealt hstands => exact ⟨hdealt, hstands⟩

theorem Sent.of_none (h : Sent r p none s) : s = r := by
  cases h with
  | lost => rfl

/-- What is at a place is on the link or held. -/
theorem StandsAt.mem (h : r.StandsAt p place) : r.originNow p ∈ r.emitted + r.held := by
  rw [Multiset.mem_add]
  cases place with
  | link target =>
    obtain ⟨e, he, _, _, _, horigin⟩ := h
    exact .inl (horigin ▸ Multiset.mem_coe.mpr (List.mem_map_of_mem he))
  | queue kind a =>
    obtain ⟨q, hq, _, horigin⟩ := h
    refine .inr (Multiset.mem_map.mpr ⟨q, Multiset.mem_add.mpr (.inl ?_), horigin⟩)
    exact PacketQueues.mem_stock_of_queue hq
  | timer key =>
    obtain ⟨_, c, hc, _, _, horigin⟩ := h
    refine .inr (Multiset.mem_map.mpr ⟨c.parcel, Multiset.mem_add.mpr (.inr ?_), horigin⟩)
    exact Multiset.mem_coe.mpr (List.mem_map_of_mem hc)

/-- A packet that is handed to the link is there. -/
theorem standsAt_emit (r : Router α) (target : LinkTarget) (p : Packet) (outlet : Outlet) :
    (r.emit target p.encode outlet (r.originNow p)).StandsAt p (.link target) :=
  ⟨_, List.mem_append_right _ List.mem_cons_self, rfl, rfl, rfl, rfl⟩

/-- One that is put into a queue is in it. -/
theorem standsAt_enqueue (r : Router α) (kind : QueueKind) (a : Address) {o : Outgoing}
    (hframe : o.frame = p.encode) (horigin : o.origin = r.originNow p) :
    (r.enqueue kind a (o.toParcel r.now)).StandsAt p (.queue kind a) :=
  ⟨_, PacketQueues.mem_queue_enqueue r.queues kind a (o.toParcel r.now), hframe, horigin⟩

/-- One that is put on a timer is there, if no copy was. -/
theorem standsAt_schedule (r : Router α) {key : ContentionKey}
    (hkey : Outgoing.keyOf p = some key) (hfree : r.contention.contains key = false)
    {parcel : Parcel} (hframe : parcel.frame = p.encode) (horigin : parcel.origin = r.originNow p)
    {timeout : Nat} :
    ({ r with contention := (r.contention.schedule key parcel timeout r.now).2 } :
      Router α).StandsAt p (.timer key) := by
  have hperm := ContentionQueue.schedule_perm hfree parcel timeout r.now
  exact ⟨hkey, _, hperm.mem_iff.mpr List.mem_cons_self, rfl, hframe, horigin⟩

/-! ## Where a decision leads -/

/-- A packet that is not discarded goes nowhere only if a timer runs for a copy of it. -/
theorem place?_isNone {decision : Decision} {contended : Bool} (h : decision.Suits contended)
    (o : Outgoing) :
    (r.place? decision o).isNone = (contended && o.key.any r.contention.contains) := by
  cases decision with
  | defer timeout =>
    obtain rfl : contended = true := h
    unfold place? refuses
    dsimp only
    rw [Bool.true_and]
    cases o.key.any r.contention.contains <;> rfl
  | discard reason => exact h.elim
  | _ =>
    obtain rfl : contended = false := h
    rfl

/-- Only what is contended for waits on a timer. -/
theorem place?_of_prompt {decision : Decision} (hprompt : decision.isPrompt = true)
    (o : Outgoing) : ∃ place, r.place? decision o = some place ∧ place.isTimer = false := by
  cases decision with
  | buffer =>
    refine ⟨_, rfl, ?_⟩
    cases o.destination <;> rfl
  | defer timeout => exact absurd hprompt Bool.false_ne_true
  | discard reason => exact absurd hprompt Bool.false_ne_true
  | _ => exact ⟨_, rfl, rfl⟩

/-- A packet for which there is a plan is never turned down. -/
theorem dispatch_isOk {decision : Decision} {contended : Bool} (h : decision.Suits contended)
    (o : Outgoing) : (r.dispatch decision o).1.isOk = true := by
  obtain ⟨_, hgone⟩ := exists_dispatched r decision o
  generalize r.dispatch decision o = done at hgone ⊢
  cases hgone with
  | discarded hdiscard =>
    rw [hdiscard] at h
    exact h.elim
  | _ => rfl

/-- A packet that is dispatched for the first time begins its way where it goes. -/
theorem Dispatched.begins (h : r.Sound) (hsendable : p.Sendable) {decision : Decision}
    (hgreedy : decision = .buffer → r.config.effectiveNonArea = .greedy) {o : Outgoing}
    (hframe : o.frame = p.encode) (horigin : o.origin = r.originNow p)
    (hkeyed : o.key = Outgoing.keyOf p) {place? : Option Place}
    {done : Except RoutingError TransmitOutcome × Router α}
    (hgone : Dispatched r decision o place? done) : Sent r p place? done.2 := by
  cases hgone with
  | sent target =>
    rw [hframe, horigin]
    exact .goes (emit_dealt h target _ _ _) (standsAt_emit r target p o.outlet)
  | @parked a hbuffer _ =>
    have hdealt := enqueue_dealt h .unicast a (o.toParcel r.now) fun _ => hgreedy hbuffer
    exact .goes (horigin ▸ hdealt) (standsAt_enqueue r _ a hframe horigin)
  | kept =>
    have hdealt := enqueue_dealt h .broadcast r.config.address (o.toParcel r.now) nofun
    exact .goes (horigin ▸ hdealt) (standsAt_enqueue r _ _ hframe horigin)
  | @deferred timeout key _ hkey hfree =>
    have hdecode : Packet.decode (o.toParcel r.now).origin.frame = .ok p :=
      (congrArg (Packet.decode ·.frame) horigin).trans (Packet.decode_encode hsendable)
    have hnamed : Outgoing.keyOf p = some key := hkeyed.symm.trans hkey
    have hdealt := schedule_dealt h hfree hdecode hnamed timeout
    exact .goes (horigin ▸ hdealt) (standsAt_schedule r hnamed hfree hframe horigin)
  | refused _ _ _ => exact .lost
  | discarded _ => exact .lost

/-- Whatever is decided for a packet, it begins its way where that leads, or nothing changes. -/
theorem dispatch_sent (h : r.Sound) (hsendable : p.Sendable) {decision : Decision}
    (hgreedy : decision = .buffer → r.config.effectiveNonArea = .greedy)
    (destination : Option Address) :
    Sent r p (r.place? decision (.ofPacket p .link destination (r.originNow p)))
      (r.dispatch decision (.ofPacket p .link destination (r.originNow p))).2 :=
  (dispatch_dispatched r decision _).begins h hsendable hgreedy rfl rfl rfl

end Router

end Geocast
