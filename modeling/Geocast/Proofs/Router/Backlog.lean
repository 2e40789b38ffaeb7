import Geocast.Proofs.Router.Duplicates
import Geocast.Proofs.Router.Ledger

/-!
# What waits for a neighbour

Packets that wait for any neighbour go out when a frame comes in from one (`Flushes`). What a frame
sets in motion besides is of packets from other queues, or begins its way with it; `Adds` keeps that
apart. A frame whose number is remembered flushes nothing, although its source counts as a neighbour
from then on; any other flushes all that is left once the packets that waited for the place of its
source have gone on (`direct_flushes`).
-/

namespace Geocast

/-- What a queue keeps of parcels that are put into it one after the other: the latest. -/
theorem PacketQueues.foldl_push {capacity : Nat} (positive : 0 < capacity) {parcels : List Parcel}
    (hshort : parcels.length ≤ capacity) (parked : List Parcel) :
    parked.foldl (push capacity) parcels =
      (parcels ++ parked).drop (parcels.length + parked.length - capacity) := by
  induction parked generalizing parcels with
  | nil =>
    rw [List.append_nil, List.length_nil, Nat.add_zero, Nat.sub_eq_zero_of_le hshort, List.drop_zero,
      List.foldl_nil]
  | cons p rest ih =>
    have hpushed : push capacity parcels p =
        (parcels ++ [p]).drop (parcels.length + 1 - capacity) := by
      unfold push
      split
      · next hfull =>
        have hone : parcels.length + 1 - capacity = 1 := by omega
        rw [hone, List.drop_append_of_le_length (by omega)]
      · next hroom =>
        have hnone : parcels.length + 1 - capacity = 0 := by omega
        rw [hnone, List.drop_zero]
    -- the queue stays as long as it may, so the next push finds it so
    have hlength : (push capacity parcels p).length =
        parcels.length + 1 - (parcels.length + 1 - capacity) := by
      rw [hpushed, List.length_drop, List.length_append, List.length_singleton]
    rw [List.foldl_cons, ih (length_push positive hshort p), hlength, hpushed,
      ← List.drop_append_of_le_length (by rw [List.length_append, List.length_singleton]; omega),
      List.drop_drop, List.append_assoc, List.singleton_append, List.length_cons]
    congr 1
    omega

namespace Router

variable {α : Type}

/-- How a parcel that waited for a neighbour goes on the link. -/
def broadcastOf (r : Router α) (p : Parcel) : Emission :=
  ⟨r.now, .broadcast, p.frame, p.outlet, p.origin⟩

/-- Whatever has been sent, given up or parked since is of packets of some kind, and no other packet
has been put into a queue. -/
structure Adds (P : Origin → Prop) (r s : Router α) : Prop where
  now : s.now = r.now
  room : s.queues.broadcastCapacity = r.queues.broadcastCapacity
  emissions : ∃ out, s.emissions = r.emissions ++ out ∧ ∀ e ∈ out, P e.origin
  expired : ∃ gone, s.expired = r.expired ++ gone ∧ ∀ e ∈ gone, P e.parcel.origin
  backlog : ∃ parked : List Parcel, s.queues.broadcast =
    parked.foldl (PacketQueues.push r.queues.broadcastCapacity) r.queues.broadcast ∧
    ∀ p ∈ parked, P p.origin
  queued : ∀ a, ∀ p ∈ s.queues.queue .unicast a, p ∈ r.queues.queue .unicast a ∨ P p.origin

namespace Adds

variable {P Q : Origin → Prop} {r s t : Router α}

/-- Nothing has been sent, given up or parked. -/
theorem of_same (now : s.now = r.now) (queues : s.queues = r.queues)
    (emissions : s.emissions = r.emissions) (expired : s.expired = r.expired) : Adds P r s where
  now := now
  room := by rw [queues]
  emissions := ⟨[], by rw [emissions, List.append_nil], fun _ h => absurd h List.not_mem_nil⟩
  expired := ⟨[], by rw [expired, List.append_nil], fun _ h => absurd h List.not_mem_nil⟩
  backlog := ⟨[], by rw [queues, List.foldl_nil], fun _ h => absurd h List.not_mem_nil⟩
  queued := fun _ _ hp => .inl (queues ▸ hp)

theorem refl (r : Router α) : Adds P r r := .of_same rfl rfl rfl rfl

theorem mono (h : Adds P r s) (hsubset : ∀ o, P o → Q o) : Adds Q r s where
  now := h.now
  room := h.room
  emissions := h.emissions.imp fun _ h => h.imp_right fun h e he => hsubset _ (h e he)
  expired := h.expired.imp fun _ h => h.imp_right fun h e he => hsubset _ (h e he)
  backlog := h.backlog.imp fun _ h => h.imp_right fun h p hp => hsubset _ (h p hp)
  queued := fun a p hp => (h.queued a p hp).imp_right (hsubset _)

theorem trans (h : Adds P r s) (h' : Adds P s t) : Adds P r t where
  now := h'.now.trans h.now
  room := h'.room.trans h.room
  emissions := by
    obtain ⟨early, hearly, hP⟩ := h.emissions
    obtain ⟨late, hlate, hP'⟩ := h'.emissions
    refine ⟨early ++ late, by rw [hlate, hearly, List.append_assoc], fun e he => ?_⟩
    exact (List.mem_append.mp he).elim (hP e) (hP' e)
  expired := by
    obtain ⟨early, hearly, hP⟩ := h.expired
    obtain ⟨late, hlate, hP'⟩ := h'.expired
    refine ⟨early ++ late, by rw [hlate, hearly, List.append_assoc], fun e he => ?_⟩
    exact (List.mem_append.mp he).elim (hP e) (hP' e)
  backlog := by
    obtain ⟨early, hearly, hP⟩ := h.backlog
    obtain ⟨late, hlate, hP'⟩ := h'.backlog
    refine ⟨early ++ late, by rw [hlate, hearly, h.room, List.foldl_append], fun p hp => ?_⟩
    exact (List.mem_append.mp hp).elim (hP p) (hP' p)
  queued := fun a p hp => (h'.queued a p hp).elim (h.queued a p) .inr

end Adds

variable {P : Origin → Prop} {r : Router α}

/-- A frame that is sent is of its packet. -/
theorem emit_adds (r : Router α) (target : LinkTarget) (frame : Bytes) (outlet : Outlet)
    {origin : Origin} (h : P origin) : Adds P r (r.emit target frame outlet origin) :=
  { Adds.refl (P := P) r with
    emissions := ⟨_, rfl, fun e he => by
      obtain rfl := List.mem_singleton.mp he
      exact h⟩ }

/-- A parcel that is parked is of its packet. -/
theorem enqueue_adds (r : Router α) (kind : QueueKind) (a : Address) {p : Parcel}
    (h : P p.origin) : Adds P r (r.enqueue kind a p) where
  now := rfl
  room := by cases kind <;> rfl
  emissions := ⟨[], (List.append_nil _).symm, fun _ h => absurd h List.not_mem_nil⟩
  expired := ⟨[], (List.append_nil _).symm, fun _ h => absurd h List.not_mem_nil⟩
  backlog := by
    cases kind with
    | broadcast =>
      refine ⟨[p], rfl, fun q hq => ?_⟩
      obtain rfl := List.mem_singleton.mp hq
      exact h
    | unicast => exact ⟨[], rfl, fun _ h => absurd h List.not_mem_nil⟩
    | lookup => exact ⟨[], rfl, fun _ h => absurd h List.not_mem_nil⟩
  queued := fun b q hq => by
    rcases PacketQueues.mem_enqueue hq with hq | ⟨rfl, _⟩
    · exact .inl hq
    · exact .inr h

/-- A packet that is dispatched is sent or parked. -/
theorem dispatch_adds (r : Router α) (decision : Decision) {o : Outgoing} (h : P o.origin) :
    Adds P r (r.dispatch decision o).2 := by
  obtain ⟨_, hgone⟩ := exists_dispatched r decision o
  generalize r.dispatch decision o = done at hgone ⊢
  cases hgone with
  | sent target => exact emit_adds r target _ _ h
  | parked _ _ => exact enqueue_adds r _ _ h
  | kept => exact enqueue_adds r _ _ h
  | deferred _ _ _ => exact .of_same rfl rfl rfl rfl
  | refused _ _ _ => exact .refl r
  | discarded _ => exact .refl r

/-- What is given up is of the packets that waited. -/
theorem giveUp_adds (r : Router α) (kind : QueueKind) {parcels : List Parcel}
    (h : ∀ p ∈ parcels, P p.origin) : Adds P r (r.giveUp kind parcels) :=
  { Adds.refl (P := P) r with
    expired := ⟨_, rfl, fun e he => by
      obtain ⟨p, hp, rfl⟩ := List.mem_map.mp he
      exact h p hp⟩ }

/-- To empty another queue than that for neighbours adds nothing. -/
theorem drop_adds (r : Router α) {kind : QueueKind} (a : Option Address) (h : kind ≠ .broadcast) :
    Adds P r { r with queues := r.queues.drop kind a } where
  now := rfl
  room := by cases kind <;> cases a <;> rfl
  emissions := ⟨[], (List.append_nil _).symm, fun _ h => absurd h List.not_mem_nil⟩
  expired := ⟨[], (List.append_nil _).symm, fun _ h => absurd h List.not_mem_nil⟩
  backlog := by
    refine ⟨[], ?_, fun _ h => absurd h List.not_mem_nil⟩
    cases kind with
    | broadcast => exact absurd rfl h
    | unicast => cases a <;> rfl
    | lookup => cases a <;> rfl
  queued := fun _ _ hp => .inl (PacketQueues.mem_drop hp)

variable [Scalar α]

/-- A parcel that is forwarded anew is of the packet that it was of. -/
theorem releaseOrDrop_adds (r : Router α) (kind : QueueKind) {p : Parcel} (h : P p.origin) :
    Adds P r (r.releaseOrDrop kind p) := by
  obtain ⟨f, hdrop⟩ := releaseOrDrop_eq r kind p
  rw [hdrop]
  refine Adds.trans (s := (r.releaseOne kind p).2) ?_ (.of_same rfl rfl rfl rfl)
  rcases releaseOne_cases r kind p with ⟨_, heq, _⟩ | ⟨q, u, is_unicast, _, heq, _⟩
  · rw [heq]
    exact .refl r
  · rw [heq]
    have hnoted : Adds P r (r.noteRelease kind p (r.onward p q u is_unicast).2
        (r.onward p q u is_unicast).1.encode) := .of_same rfl rfl rfl rfl
    exact hnoted.trans (dispatch_adds _ _ h)

/-- So are many of them. -/
theorem release_adds (r : Router α) (kind : QueueKind) {parcels : List Parcel}
    (h : ∀ p ∈ parcels, P p.origin) : Adds P r (r.release kind parcels) := by
  induction parcels generalizing r with
  | nil => exact .refl r
  | cons p rest ih =>
    exact (releaseOrDrop_adds r kind (h p List.mem_cons_self)).trans
      (ih _ fun q hq => h q (List.mem_cons_of_mem _ hq))

/-- What comes out of some queues goes on or is given up. -/
theorem flush_adds (r : Router α) (kind : QueueKind) (a : Option Address) (hkind : kind ≠ .broadcast) :
    Adds (fun o => ∃ p ∈ r.queues.select kind a, p.origin = o) r
      (({ r with queues := r.queues.drop kind a }.giveUp kind
        (r.queues.lapsed kind a r.now)).release kind (r.queues.ready kind a r.now)) := by
  refine ((drop_adds r a hkind).trans (giveUp_adds _ kind ?_)).trans (release_adds _ kind ?_)
  · exact fun p hp => ⟨p, (List.mem_filter.mp hp).1, rfl⟩
  · exact fun p hp => ⟨p, (List.mem_filter.mp hp).1, rfl⟩

/-- When a lookup ends with success, what waited for it goes on. -/
theorem resolveLookup_adds (r : Router α) (target : Address) :
    Adds (fun o => ∃ p ∈ r.queues.queue .lookup target, p.origin = o) r
      (r.resolveLookup target) := by
  cases hl : r.lookups.inFlight.get? target with
  | none =>
    rw [resolveLookup_idle hl]
    exact .refl r
  | some l =>
    obtain ⟨lookups, heq⟩ := exists_resolveLookup_eq hl
    rw [heq]
    let s : Router α := (({ r with lookups } : Router α).complete l.waiters (.ok ())).count
      fun c => { c with lookupsResolved := c.lookupsResolved + 1 }
    have hended : Adds (fun o => ∃ p ∈ r.queues.queue .lookup target, p.origin = o) r s :=
      .of_same rfl rfl rfl rfl
    exact hended.trans (flush_adds s .lookup (some target) nofun)

/-! ## Where there is a neighbour, nothing waits for one -/

/-- With a neighbour in sight, nothing that is forwarded anew waits for one. -/
theorem releaseOrDrop_backlog (r : Router α) (kind : QueueKind) (p : Parcel)
    (hneighbor : r.table.hasNeighbors r.clock = true) :
    (r.releaseOrDrop kind p).queues.broadcast = r.queues.broadcast := by
  obtain ⟨f, hdrop⟩ := releaseOrDrop_eq r kind p
  rw [hdrop]
  show (r.releaseOne kind p).2.queues.broadcast = _
  rcases releaseOne_cases r kind p with ⟨_, heq, _⟩ | ⟨q, u, is_unicast, _, heq, _⟩
  · rw [heq]
  · rw [heq]
    have hdecision : (r.onward p q u is_unicast).2 ≠ .bufferBroadcast :=
      Forwarder.toward_ne_bufferBroadcast r.forwarder _ hneighbor
    cases hcase : (r.onward p q u is_unicast).2 with
    | bufferBroadcast => exact absurd hcase hdecision
    | _ => rfl

/-- And so for all that are released together. -/
theorem release_backlog (r : Router α) (kind : QueueKind) (parcels : List Parcel)
    (hneighbor : r.table.hasNeighbors r.clock = true) :
    (r.release kind parcels).queues.broadcast = r.queues.broadcast := by
  induction parcels generalizing r with
  | nil => rfl
  | cons p rest ih =>
    have hsame := releaseOrDrop_alike r kind p
    refine (ih _ ?_).trans (releaseOrDrop_backlog r kind p hneighbor)
    rw [hsame.table, hsame.clock]
    exact hneighbor

/-- What waited for a place does not come to wait for a neighbour, if there is one. -/
theorem resolveLookup_backlog (r : Router α) (target : Address)
    (h : r.lookups.isPending target = true → r.table.hasNeighbors r.clock = true) :
    (r.resolveLookup target).queues.broadcast = r.queues.broadcast := by
  cases hl : r.lookups.inFlight.get? target with
  | none => rw [resolveLookup_idle hl]
  | some l =>
    rw [resolveLookup_eq hl]
    exact release_backlog (r.resolving target l) .lookup _
      (h ((isPending_iff r target).mpr ⟨l, hl⟩))

/-! ## What begins with a frame -/

variable {a : Arrival}

omit [Scalar α] in
/-- What is passed on to everybody is of the frame that came in. -/
theorem rebroadcast_adds (r : Router α) (a : Arrival) :
    Adds (·.arrival = r.arrivals) r (r.rebroadcast a).2 := by
  unfold rebroadcast
  split
  · exact .refl r
  · exact dispatch_adds r _ rfl

/-- A packet for one station adds itself, or what it sets free. -/
theorem receiveUnicast_adds (r : Router α) (u : UnicastHeader)
    (is_unicast : a.packet.extended = .unicast u) :
    Adds (·.arrival = r.arrivals) r (r.receiveUnicast a u is_unicast).2 := by
  have hsent (decision : Decision) (p : Packet) (destination : Option Address) :
      Adds (·.arrival = r.arrivals) r
        (r.dispatch decision (.ofPacket p .link destination (r.originNow p))).2 :=
    dispatch_adds r _ rfl
  unfold receiveUnicast
  split
  · exact .refl r
  · split
    · exact .refl r
    · dsimp only
      split
      · next heq => exact congrArg Prod.snd heq ▸ hsent _ _ _
      · next heq => exact congrArg Prod.snd heq ▸ hsent _ _ _

/-- A request adds itself or its answer. -/
theorem receiveLocationRequest_adds (r : Router α) (a : Arrival) (requested : Address) :
    Adds (·.arrival = r.arrivals) r (r.receiveLocationRequest a requested).2 := by
  have hreply : Adds (·.arrival = r.arrivals) r (r.sendLocationReply a.source).2 := by
    have hnumbered (p : Packet) : Adds (·.arrival = r.arrivals) r (r.number p) :=
      .of_same rfl rfl rfl rfl
    exact (hnumbered _).trans (dispatch_adds _ _ rfl)
  unfold receiveLocationRequest
  split
  · split
    · next heq => exact congrArg Prod.snd heq ▸ hreply
    · next heq => exact congrArg Prod.snd heq ▸ hreply
  · exact rebroadcast_adds r a

/-- A packet for an area adds itself. -/
theorem receiveArea_adds (r : Router α) (a : Arrival) (area : Area) (anycast : Bool) :
    Adds (·.arrival = r.arrivals) r (r.receiveArea a area anycast).2 := by
  unfold receiveArea
  dsimp only
  split
  · exact .refl r
  · split
    · exact .refl r
    · exact dispatch_adds r _ rfl

/-- Whatever its layout, a packet adds only what came of this frame. -/
theorem handle_adds (r : Router α) (a : Arrival) :
    Adds (·.arrival = r.arrivals) r (r.handle a).2 := by
  unfold handle
  split
  · exact .refl r
  · exact .refl r
  · exact .refl r
  · exact rebroadcast_adds r a
  · exact receiveUnicast_adds r _ _
  · exact receiveLocationRequest_adds r a _
  · exact receiveArea_adds r a _ _

/-! ## The flush -/

/-- An origin is of a packet that does not wait for a neighbour: it is in some other queue, or begins
its way with the next frame. -/
def Elsewhere (r : Router α) (o : Origin) : Prop :=
  (∃ kind b, kind ≠ .broadcast ∧ ∃ p ∈ r.queues.queue kind b, p.origin = o) ∨
    o.arrival = r.arrivals + 1

/-- Parcels that waited for a neighbour have left: those that are still good are broadcast, each
once and in order, and the others are given up, in order as well. All else that has been sent, given
up or put into their queue since is of other packets. -/
structure Flushes (r s : Router α) (parcels : List Parcel) : Prop where
  sent : ∃ early late, s.emissions = r.emissions ++ early ++
    (parcels.filter fun p => !p.isExpired r.now).map r.broadcastOf ++ late ∧
    ∀ e ∈ early ++ late, r.Elsewhere e.origin
  expired : ∃ early late, s.expired = r.expired ++ early ++
    (parcels.filter (·.isExpired r.now)).map (Expiry.mk r.now .broadcast) ++ late ∧
    ∀ e ∈ early ++ late, r.Elsewhere e.parcel.origin
  left : ∀ p ∈ s.queues.broadcast, r.Elsewhere p.origin

omit [Scalar α] in
/-- Counting a reception sends nothing and parks nothing. -/
theorem Flushes.tally {r s : Router α} {parcels : List Parcel} (h : r.Flushes s parcels)
    (outcome : ReceiveOutcome) : r.Flushes (s.tally outcome) parcels :=
  { sent := h.sent, expired := h.expired, left := h.left }

omit [Scalar α] in
/-- Nothing flushes parcels without a trace. -/
theorem Flushes.nil_of_same {r s : Router α} {parcels : List Parcel} (h : r.Flushes s parcels)
    (hemissions : s.emissions = r.emissions) (hexpired : s.expired = r.expired) :
    parcels = [] := by
  have hempty {β : Type} {xs early mid late : List β} (h : xs = xs ++ early ++ mid ++ late) :
      mid = [] := by
    have hlength := congrArg List.length h
    simp only [List.length_append] at hlength
    exact List.eq_nil_of_length_eq_zero (by omega)
  obtain ⟨_, _, hsent, _⟩ := h.sent
  obtain ⟨_, _, hgone, _⟩ := h.expired
  rw [hemissions] at hsent
  rw [hexpired] at hgone
  have hgood := List.map_eq_nil_iff.mp (hempty hsent)
  have hlapsed := List.map_eq_nil_iff.mp (hempty hgone)
  rw [List.filter_eq_nil_iff] at hgood hlapsed
  rw [List.eq_nil_iff_forall_not_mem]
  intro p hp
  have hlive := hgood p hp
  have hdead := hlapsed p hp
  cases hcase : p.isExpired r.now with
  | true => exact hdead hcase
  | false => exact hlive (by rw [hcase]; rfl)

omit [Scalar α] in
/-- Parcels that waited for a neighbour are broadcast one by one, in order. -/
theorem emitParcels_emissions (r : Router α) (parcels : List Parcel) :
    (r.emitParcels parcels).emissions = r.emissions ++ parcels.map r.broadcastOf ∧
      (r.emitParcels parcels).queues = r.queues ∧ (r.emitParcels parcels).expired = r.expired := by
  induction parcels generalizing r with
  | nil => exact ⟨(List.append_nil _).symm, rfl, rfl⟩
  | cons p rest ih =>
    obtain ⟨hemissions, hqueues, hexpired⟩ :=
      ih (r.emit .broadcast p.frame p.outlet p.origin)
    refine ⟨hemissions.trans ?_, hqueues, hexpired⟩
    show (r.emissions ++ [_]) ++ rest.map r.broadcastOf = _
    rw [List.append_assoc]
    rfl

omit [Scalar α] in
/-- Whatever is in a queue was there or has been put in. -/
theorem mem_foldl_push {capacity : Nat} {parcels parked : List Parcel} {p : Parcel}
    (h : p ∈ parked.foldl (PacketQueues.push capacity) parcels) : p ∈ parcels ∨ p ∈ parked := by
  induction parked generalizing parcels with
  | nil => exact .inl h
  | cons q rest ih =>
    rcases ih h with h | h
    · rcases PacketQueues.mem_push h with h | rfl
      · exact .inl h
      · exact .inr List.mem_cons_self
    · exact .inr (List.mem_cons_of_mem _ h)

omit [Scalar α] in
/-- What is broadcast, given up and left when the packets that wait for a neighbour go out. -/
theorem flushBroadcast_queue (r : Router α) :
    r.flushBroadcast.emissions = r.emissions ++
      (r.queues.broadcast.filter fun p => !p.isExpired r.now).map r.broadcastOf ∧
    r.flushBroadcast.expired = r.expired ++
      (r.queues.broadcast.filter (·.isExpired r.now)).map (Expiry.mk r.now .broadcast) ∧
    r.flushBroadcast.queues = r.queues.drop .broadcast none := by
  let taken : Router α := { r with queues := r.queues.drop .broadcast none }
  obtain ⟨hemissions, hqueues, hexpired⟩ :=
    emitParcels_emissions taken (r.queues.ready .broadcast none r.now)
  have hnow := (emitParcels_alike taken (r.queues.ready .broadcast none r.now)).now
  have hgone : r.flushBroadcast.expired =
      (taken.emitParcels (r.queues.ready .broadcast none r.now)).expired ++
        (r.queues.broadcast.filter (·.isExpired r.now)).map
          (Expiry.mk (taken.emitParcels (r.queues.ready .broadcast none r.now)).now .broadcast) :=
    rfl
  rw [hexpired, hnow] at hgone
  exact ⟨hemissions, hgone, hqueues⟩

omit [Scalar α] in
/-- A flush stays one when packets that were elsewhere are dealt with before and after it. -/
theorem Adds.flushes {r t s : Router α} (hbefore : Adds r.Elsewhere r t)
    (hafter : Adds r.Elsewhere t.flushBroadcast s) : r.Flushes s t.queues.broadcast := by
  obtain ⟨hsent, hgone, hqueues⟩ := flushBroadcast_queue t
  have hbroadcast : t.broadcastOf = r.broadcastOf := by
    funext p
    unfold broadcastOf
    rw [hbefore.now]
  rw [hbefore.now, hbroadcast] at hsent
  rw [hbefore.now] at hgone
  refine { sent := ?_, expired := ?_, left := ?_ }
  · obtain ⟨early, hearly, hP⟩ := hbefore.emissions
    obtain ⟨late, hlate, hP'⟩ := hafter.emissions
    refine ⟨early, late, ?_, fun e he => (List.mem_append.mp he).elim (hP e) (hP' e)⟩
    rw [hlate, hsent, hearly]
  · obtain ⟨early, hearly, hP⟩ := hbefore.expired
    obtain ⟨late, hlate, hP'⟩ := hafter.expired
    refine ⟨early, late, ?_, fun e he => (List.mem_append.mp he).elim (hP e) (hP' e)⟩
    rw [hlate, hgone, hearly]
  · intro p hp
    obtain ⟨parked, hparked, hP⟩ := hafter.backlog
    rw [hparked, hqueues] at hp
    exact (mem_foldl_push hp).elim (fun hp => absurd hp List.not_mem_nil) (hP p)

/-- Everything that follows on a flush is of packets that were elsewhere. -/
theorem Adds.rest {r t : Router α} (hbefore : Adds r.Elsewhere r t)
    (harrivals : t.arrivals = r.arrivals + 1) :
    Adds r.Elsewhere t.flushBroadcast (t.flushBroadcast.flushUnicast.handle a).2 := by
  have hunicast : Adds r.Elsewhere t.flushBroadcast t.flushBroadcast.flushUnicast := by
    refine (flush_adds t.flushBroadcast .unicast none nofun).mono fun o ⟨p, hp, ho⟩ => ?_
    obtain ⟨b, hb⟩ := PacketQueues.mem_select hp
    rw [(flushBroadcast_queue t).2.2] at hb
    rcases hbefore.queued b p (PacketQueues.mem_drop hb) with hp | hp
    · exact .inl ⟨.unicast, b, nofun, p, hp, ho⟩
    · exact ho ▸ hp
  refine hunicast.trans ((handle_adds _ a).mono fun o ho => .inr (ho.trans ?_))
  exact ((flushUnicast_alike _).arrivals.trans (flushBroadcast_alike t).arrivals).trans harrivals

/-- Accepting a packet that came from its source itself flushes what waits for a neighbour once the
lookup for the source has ended. -/
theorem accept_flushes (r : Router α) (table : LocationTable) (f : Stats → Stats)
    (hdirect : a.direct = true) :
    r.Flushes ((({ r.arrived with table } : Router α).count f).accept a).2
      ((({ r.arrived with table } : Router α).count f).resolveLookup
        a.source.address).queues.broadcast := by
  let m : Router α := ({ r.arrived with table } : Router α).count f
  have hheard : Adds r.Elsewhere r m := .of_same rfl rfl rfl rfl
  have hresolved : Adds r.Elsewhere m (m.resolveLookup a.source.address) :=
    (resolveLookup_adds m a.source.address).mono fun o ⟨p, hp, ho⟩ =>
      .inl ⟨.lookup, _, nofun, p, hp, ho⟩
  have hbefore := hheard.trans hresolved
  have haccept : m.accept a =
      ((m.resolveLookup a.source.address).flushBroadcast.flushUnicast).handle a := by
    unfold accept
    dsimp only
    rw [if_pos hdirect]
  show r.Flushes (m.accept a).2 _
  rw [haccept]
  exact hbefore.flushes (hbefore.rest (resolveLookup_kept m a.source.address).2.1)

/-- In every state that a running router can come to, take a frame that can be read, comes from
another station that itself has sent it, and may still travel. If its number is remembered, then all
that waits for a neighbour still waits, and nothing has been sent or given up. Otherwise all of it is
broadcast, in order and each packet once, or given up because its lifetime has passed; but it may
have been joined at the end by packets that waited for the place of that station, and given way to
those at the front, if a lookup for the station was in flight and its stamp is not fresh. -/
theorem direct_flushes {r : Router α} (reach : Reachable r) (hrunning : r.phase = .running)
    {frame : Bytes} {p : Packet} (hdecode : Packet.decode frame = .ok p) {v : LongPosition}
    (hsource : p.source? = some v) (hother : v.address ≠ r.config.address)
    (hhops : p.basic.remainingHops ≠ 0) (hdirect : isDirect p = true) :
    (∃ n, p.sequence? = some n ∧ (r.remembered v.address).contains n = true ∧
      (r.receive frame).2.queues.broadcast = r.queues.broadcast ∧
      (r.receive frame).2.emissions = r.emissions ∧
      (r.receive frame).2.expired = r.expired) ∨
    ((∀ n, p.sequence? = some n → (r.remembered v.address).contains n = false) ∧
      ∃ parked : List Parcel,
        (∀ q ∈ parked, ∃ q' ∈ r.queues.queue .lookup v.address, q'.origin = q.origin) ∧
        (parked ≠ [] → r.lookups.isPending v.address = true ∧
          ¬ r.table.Fresh v.timestamp r.clock) ∧
        r.Flushes (r.receive frame).2 ((r.queues.broadcast ++ parked).drop
          (r.queues.broadcast.length + parked.length - r.queues.broadcastCapacity))) := by
  have hown := reach.orderly.fitted.own
  obtain ⟨a, hjudge, hfrom, hstraight, hpacket⟩ : ∃ a, r.judge frame = .ok a ∧ a.source = v ∧
      a.direct = true ∧ a.packet.sequence? = p.sequence? :=
    ⟨_, judge_of_decode hdecode hsource hother hhops, rfl, hdirect,
      (Packet.passed_relayed hhops).sequence?⟩
  have hstranger : a.source.address ≠ r.table.own := by
    rw [hfrom, hown]
    exact hother
  rw [← hpacket, ← hfrom]
  obtain ⟨table, hlearn⟩ := learn_rest r.arrived a
  rcases receive_seen_or_accepted hrunning hjudge hstranger with
    ⟨n, hn, hseen, hreceive⟩ | ⟨hunseen, f, hreceive⟩
  · rw [hlearn] at hreceive
    rw [hreceive]
    exact .inl ⟨n, hn, hseen, rfl, rfl, rfl⟩
  · have hflushes := accept_flushes (a := a) r table f hstraight
    have hcapacity : r.queues.broadcastCapacity = r.config.capacity .broadcast :=
      reach.sound.within.capacity .broadcast
    have hshort : r.queues.broadcast.length ≤ r.queues.broadcastCapacity :=
      hcapacity ▸ reach.sound.within.short .broadcast {}
    have hroom : 0 < r.queues.broadcastCapacity := reach.sound.room .broadcast
    rw [hlearn] at hreceive
    refine .inr ⟨hunseen, ?_⟩
    rw [hreceive]
    -- what a lookup sets free waits for a neighbour only if the source is none yet
    by_cases hstale : r.lookups.isPending a.source.address = true ∧
        ¬ r.table.Fresh a.source.timestamp r.clock
    · obtain ⟨parked, hparked, hwaited⟩ := (resolveLookup_adds
        (({ r.arrived with table } : Router α).count f) a.source.address).backlog
      refine ⟨parked, hwaited, fun _ => hstale, ?_⟩
      rw [← PacketQueues.foldl_push hroom hshort]
      rw [hparked] at hflushes
      exact hflushes.tally _
    · -- then the station is a neighbour when the lookup ends
      refine ⟨[], fun _ h => absurd h List.not_mem_nil, fun h => absurd rfl h, ?_⟩
      have hsame := resolveLookup_backlog (({ r.arrived with table } : Router α).count f)
        a.source.address fun hpending => ?_
      · rw [hsame] at hflushes
        rw [List.append_nil, List.length_nil, Nat.add_zero, Nat.sub_eq_zero_of_le hshort,
          List.drop_zero]
        exact hflushes.tally _
      · have hfresh : r.table.Fresh a.source.timestamp r.clock :=
          by_contra fun h => hstale ⟨hpending, h⟩
        have hneighbor := learn_hasNeighbors (r := r.arrived) hstranger hstraight
          ((fresh_keptPosition_iff r a.source).mpr (.inl hfresh))
        rw [hlearn] at hneighbor
        exact hneighbor

/-! ## A message that waits for a neighbour -/

/-- A beacon comes in. -/
theorem direct_flushes_of_beacon :
    (trialWaiting []).Flushes
      ((trialWaiting []).receive (trialBeacon 11 100000 10000).encode).2
      (trialWaiting []).queues.broadcast := by
  have hcases := direct_flushes (trialWaiting_reachable []) (by decide +kernel)
    (decode_trialBeacon 11 100000 10000) rfl (by decide +kernel) (by decide) rfl
  rcases hcases with ⟨_, hnumber, _⟩ | ⟨_, parked, _, hstale, hflushes⟩
  · exact nomatch hnumber
  · have hnone : (trialWaiting []).lookups.isPending (trialStation 11) = false := by
      decide +kernel
    obtain rfl : parked = [] := by_contra fun h =>
      absurd (hnone.symm.trans (hstale h).1) Bool.false_ne_true
    have hshort : (trialWaiting []).queues.broadcast.length ≤
        (trialWaiting []).queues.broadcastCapacity := by decide +kernel
    rw [List.append_nil, List.length_nil, Nat.add_zero, Nat.sub_eq_zero_of_le hshort,
      List.drop_zero] at hflushes
    exact hflushes

/-- The packet of `trialPacket`, straight from its source. -/
def trialFirsthand : Packet :=
  { trialPacket 11 100000 10000 with basic := { lifetime := ⟨0xf1⟩, remainingHops := 5 } }

/-- The packet can be read back from the frame that it comes in. -/
theorem decode_trialFirsthand :
    Packet.decode trialFirsthand.encode = .ok trialFirsthand := by
  refine Packet.decode_encode ⟨UInt8.le_refl _, nofun, UInt8.le_refl _, fun v hv => ?_⟩
  obtain rfl := Option.some.inj hv
  exact trialPosition_compact 11 100000 10000

/-- A packet comes in over another station, and then from its source itself. -/
theorem not_forall_direct_flushes :
    ¬ ∀ r : Router Float, Reachable r → r.phase = .running →
      ∀ frame p, Packet.decode frame = .ok p → ∀ v, p.source? = some v →
        v.address ≠ r.config.address → p.basic.remainingHops ≠ 0 → isDirect p = true →
        r.Flushes (r.receive frame).2 r.queues.broadcast := by
  intro h
  let r := trialWaiting [.receive (trialPacket 11 100000 10000).encode]
  have hflushes := h r (trialWaiting_reachable _) (by decide +kernel) _ _ decode_trialFirsthand _
    rfl (by decide +kernel) (by decide) rfl
  have hempty := hflushes.nil_of_same (by decide +kernel) (by decide +kernel)
  have hwaits : r.queues.broadcast ≠ [] := by decide +kernel
  exact hwaits hempty

end Router

end Geocast
