import Geocast.Proofs.Router.Record

/-!
# Where frames come from

A router holds frames in queues and on timers, and hands them to the link. A move brings a frame to
any of these places in three ways only: its packet begins its way, or was held, still good, and is
forwarded anew, or was held, still good, and goes out as it is. What comes to wait does so where it
belongs, and what is given up was held and had lapsed. `Work.conveys` and `Hear.conveys` say so once
for all kinds of moves, so that an invariant of frames has to be looked at for these ways only.
-/

namespace Geocast

/-- Where a packet may wait by what is said of it: anything for any neighbour, and else for the
station that it is for, or on the timer of its key. -/
def Outgoing.BelongsAt (o : Outgoing) : Place → Prop
  | .link _ => True
  | .queue kind a => kind = .broadcast ∨ o.destination = some a
  | .timer key => o.key = some key

namespace Router

variable {α : Type}

/-- A parcel is in some queue or on a timer. -/
def Holds (r : Router α) (p : Parcel) : Prop :=
  (∃ kind a, p ∈ r.queues.queue kind a) ∨ p ∈ r.contention.parcels

/-- A parcel waits at a place. On the link none does. -/
def HoldsAt (r : Router α) : Place → Parcel → Prop
  | .link _, _ => False
  | .queue kind a, p => p ∈ r.queues.queue kind a
  | .timer key, p => ∃ c ∈ r.contention.contenders, c.key = key ∧ c.parcel = p

/-- What is held is held somewhere. -/
theorem holds_iff (r : Router α) (p : Parcel) : r.Holds p ↔ ∃ place, r.HoldsAt place p := by
  constructor
  · rintro (⟨kind, a, hp⟩ | hp)
    · exact ⟨.queue kind a, hp⟩
    · obtain ⟨c, hc, heq⟩ := List.mem_map.mp hp
      exact ⟨.timer c.key, c, hc, rfl, heq⟩
  · rintro ⟨_ | ⟨kind, a⟩ | key, hp⟩
    · exact hp.elim
    · exact .inl ⟨kind, a, hp⟩
    · obtain ⟨c, hc, _, rfl⟩ := hp
      exact .inr (List.mem_map_of_mem hc)

/-- What waits in queues and on timers of which there are no others than before. -/
theorem HoldsAt.of_subset {r s : Router α} {place : Place} {p : Parcel} (h : s.HoldsAt place p)
    (hqueues : ∀ kind a, s.queues.queue kind a ⊆ r.queues.queue kind a)
    (hcontention : s.contention.contenders ⊆ r.contention.contenders) : r.HoldsAt place p := by
  cases place with
  | link target => exact h
  | queue kind a => exact hqueues kind a h
  | timer key =>
    obtain ⟨c, hc, hkey⟩ := h
    exact ⟨c, hcontention hc, hkey⟩

/-- Where queues and timers stay, so does what waits. -/
theorem HoldsAt.of_same {r s : Router α} {place : Place} {p : Parcel} (h : s.HoldsAt place p)
    (hqueues : s.queues = r.queues) (hcontention : s.contention = r.contention) :
    r.HoldsAt place p := by
  refine h.of_subset (fun kind a => ?_) ?_
  · rw [hqueues]
    exact List.Subset.refl _
  · rw [hcontention]
    exact List.Subset.refl _

/-- A queue that is emptied lets nothing new wait. -/
theorem drop_holdsAt {r : Router α} {kind : QueueKind} {a : Option Address} {place : Place}
    {p : Parcel} (h : ({ r with queues := r.queues.drop kind a } : Router α).HoldsAt place p) :
    r.HoldsAt place p :=
  h.of_subset (fun _ _ _ => PacketQueues.mem_drop) fun _ => id

/-- What is still good in a queue is held. -/
theorem holds_of_ready {r : Router α} {kind : QueueKind} {a : Option Address} {now : Nat}
    {p : Parcel} (h : p ∈ r.queues.ready kind a now) : r.Holds p := by
  obtain ⟨b, hb⟩ := PacketQueues.mem_select (List.mem_filter.mp h).1
  exact .inl ⟨kind, b, hb⟩

/-- A parcel is held and its lifetime has not passed. -/
def HoldsLive (r : Router α) (p : Parcel) : Prop := r.Holds p ∧ p.isExpired r.now = false

/-- And its lifetime has not passed. -/
theorem holdsLive_of_ready {r : Router α} {kind : QueueKind} {a : Option Address} {p : Parcel}
    (h : p ∈ r.queues.ready kind a r.now) : r.HoldsLive p :=
  ⟨holds_of_ready h, by simpa using (List.mem_filter.mp h).2⟩

/-- A packet whose timer has run out and that may still be sent was held live. -/
theorem holdsLive_of_fired {r : Router α} {p : Parcel} (h : p ∈ (r.contention.fire r.now).1) :
    r.HoldsLive p :=
  ⟨.inr (ContentionQueue.mem_fired h), by simpa using (List.mem_filter.mp h).2⟩

/-- What waited too long was held, and its lifetime has passed. -/
theorem lapsed_of_select {r : Router α} {kind : QueueKind} {a : Option Address} {p : Parcel}
    (h : p ∈ r.queues.lapsed kind a r.now) : r.Holds p ∧ p.isExpired r.now = true := by
  obtain ⟨hselect, hgone⟩ := List.mem_filter.mp h
  obtain ⟨b, hb⟩ := PacketQueues.mem_select hselect
  exact ⟨.inl ⟨kind, b, hb⟩, hgone⟩

variable [Scalar α]

/-- What sets out in a state: a packet that begins its way, if it is one that may, or one that was
held live and is forwarded anew, which is on record. -/
inductive SetsOut (P : Router α → Packet → Prop) (r : Router α) (records : List Release) :
    Outgoing → Prop
  | begins {p : Packet} {destination : Option Address} (outlet : Outlet) (handle : Option Nat) :
      p.Sendable → P r p → r.Heading p destination →
      SetsOut P r records (.ofPacket p outlet destination { r.originNow p with handle })
  | anew {q : Parcel} {p : Packet} {u : UnicastHeader} (is_unicast : p.extended = .unicast u)
      {e : Release} :
      r.HoldsLive q → Packet.decode q.frame = .ok p → e ∈ records → e.time = r.now →
      e.parcel = q → e.frame = (r.onward q p u is_unicast).1.encode →
      SetsOut P r records (r.onwardOutgoing q p u is_unicast)

/-- How a frame that is sent in a state comes to be: what sets out is sent at once, or what was held
live is sent as it is. -/
inductive Leaves (P : Router α → Packet → Prop) (r : Router α) (records : List Release) :
    Origin → Bytes → Prop
  | setsOut {o : Outgoing} : r.SetsOut P records o → Leaves P r records o.origin o.frame
  | asIs {p : Parcel} : r.HoldsLive p → Leaves P r records p.origin p.frame

/-- All frames that are held, sent or given up in `s` were so in `r`, or became so since, in the
instant of `r`; those that are held were at the same place, or belong there. -/
structure Conveys (P : Router α → Packet → Prop) (r s : Router α) : Prop where
  kept : ∀ place p, s.HoldsAt place p → r.HoldsAt place p ∨
    ∃ o, r.SetsOut P s.released o ∧ o.BelongsAt place ∧ p = o.toParcel r.now
  sent : ∀ e ∈ s.emissions, e ∈ r.emissions ∨ e.time = r.now ∧ r.Leaves P s.released e.origin e.frame
  expired : ∀ e ∈ s.expired, e ∈ r.expired ∨
    r.Holds e.parcel ∧ e.time = r.now ∧ e.parcel.isExpired r.now = true
  released : r.released ⊆ s.released

variable {P : Router α → Packet → Prop} {r s m : Router α} {records later : List Release}

theorem SetsOut.mono {o : Outgoing} (h : r.SetsOut P records o) (hlater : records ⊆ later) :
    r.SetsOut P later o := by
  cases h with
  | begins outlet handle hsendable hbegins hheading =>
    exact .begins outlet handle hsendable hbegins hheading
  | anew is_unicast hlive hdecode he htime hparcel hframe =>
    exact .anew is_unicast hlive hdecode (hlater he) htime hparcel hframe

theorem Leaves.mono {o : Origin} {frame : Bytes} (h : r.Leaves P records o frame)
    (hlater : records ⊆ later) : r.Leaves P later o frame := by
  cases h with
  | setsOut h => exact .setsOut (h.mono hlater)
  | asIs h => exact .asIs h

namespace Conveys

theorem refl (r : Router α) : Conveys P r r :=
  ⟨fun _ _ => .inl, fun _ => .inl, fun _ => .inl, fun _ => id⟩

/-- What is held was held, or has set out since. -/
theorem held (h : Conveys P r s) {p : Parcel} (hp : s.Holds p) :
    r.Holds p ∨ ∃ o, r.SetsOut P s.released o ∧ p = o.toParcel r.now := by
  obtain ⟨place, hp⟩ := (holds_iff s p).mp hp
  rcases h.kept place p hp with hp | ⟨o, ho, _, heq⟩
  · exact .inl ((holds_iff r p).mpr ⟨place, hp⟩)
  · exact .inr ⟨o, ho, heq⟩

/-- Losing frames is no harm, nor is keeping a record. -/
theorem less (h : Conveys P r m) (hkept : ∀ place p, s.HoldsAt place p → m.HoldsAt place p)
    (hsent : s.emissions = m.emissions) (hexpired : s.expired = m.expired)
    (hreleased : m.released ⊆ s.released) : Conveys P r s where
  kept := by
    intro place p hp
    rcases h.kept place p (hkept place p hp) with hp | ⟨o, ho, hbelongs, rfl⟩
    · exact .inl hp
    · exact .inr ⟨o, ho.mono hreleased, hbelongs, rfl⟩
  sent := by
    intro e he
    rw [hsent] at he
    rcases h.sent e he with he | ⟨htime, hleaves⟩
    · exact .inl he
    · exact .inr ⟨htime, hleaves.mono hreleased⟩
  expired := fun e he => h.expired e (hexpired ▸ he)
  released := fun _ he => hreleased (h.released he)

/-- Whatever changes but queues, timers and frames on the link. -/
theorem of_same (hqueues : s.queues = r.queues) (hcontention : s.contention = r.contention)
    (hsent : s.emissions = r.emissions) (hexpired : s.expired = r.expired)
    (hreleased : s.released = r.released) : Conveys P r s := by
  exact (refl r).less (fun _ _ hp => hp.of_same hqueues hcontention) hsent hexpired
    fun _ he => hreleased ▸ he

/-- A frame is sent on that leaves now. -/
theorem emit (h : Conveys P r m) (hnow : m.now = r.now) (target : LinkTarget) (outlet : Outlet)
    {o : Origin} {frame : Bytes} (hleaves : r.Leaves P m.released o frame) :
    Conveys P r (m.emit target frame outlet o) where
  kept := h.kept
  sent := by
    intro e he
    rcases List.mem_append.mp he with he | he
    · exact h.sent e he
    · obtain rfl := List.mem_singleton.mp he
      exact .inr ⟨hnow, hleaves⟩
  expired := h.expired
  released := h.released

/-- What is given up was held and its lifetime has passed. -/
theorem giveUp (h : Conveys P r m) (hnow : m.now = r.now) (kind : QueueKind) {parcels : List Parcel}
    (hlapsed : ∀ p ∈ parcels, r.Holds p ∧ p.isExpired r.now = true) :
    Conveys P r (m.giveUp kind parcels) where
  kept := h.kept
  sent := h.sent
  expired := by
    intro e he
    rcases List.mem_append.mp he with he | he
    · exact h.expired e he
    · obtain ⟨p, hp, rfl⟩ := List.mem_map.mp he
      exact .inr ⟨(hlapsed p hp).1, hnow, (hlapsed p hp).2⟩
  released := h.released

/-- Parcels that were held live are sent as they are. -/
theorem emitParcels (h : Conveys P r m) (hnow : m.now = r.now) {parcels : List Parcel}
    (hlive : ∀ p ∈ parcels, r.HoldsLive p) : Conveys P r (m.emitParcels parcels) := by
  induction parcels generalizing m with
  | nil => exact h
  | cons p rest ih =>
    exact ih (h.emit hnow .broadcast p.outlet (.asIs (hlive p List.mem_cons_self))) hnow
      fun q hq => hlive q (List.mem_cons_of_mem _ hq)

/-- What sets out and belongs into a queue comes to wait there. -/
theorem enqueue (h : Conveys P r m) (hnow : m.now = r.now) (kind : QueueKind) (a : Address)
    {o : Outgoing} (hsets : r.SetsOut P m.released o) (hbelongs : o.BelongsAt (.queue kind a)) :
    Conveys P r (m.enqueue kind a (o.toParcel m.now)) where
  kept := by
    intro place p hp
    cases place with
    | link target => exact hp.elim
    | queue kind' b =>
      rcases PacketQueues.mem_enqueue hp with hp | ⟨rfl, rfl, hb⟩
      · exact h.kept _ p hp
      · -- in its own queue, it belongs there as it belongs where it was put
        refine .inr ⟨o, hsets, ?_, by rw [hnow]⟩
        rcases hb with hb | rfl
        · exact .inl hb
        · exact hbelongs
    | timer key => exact h.kept _ p hp
  sent := h.sent
  expired := h.expired
  released := h.released

/-- Whatever is decided for what sets out, it goes on as the frame that it is. -/
theorem dispatch (h : Conveys P r m) (hnow : m.now = r.now) (decision : Decision) {o : Outgoing}
    (hsets : r.SetsOut P m.released o) : Conveys P r (m.dispatch decision o).2 := by
  obtain ⟨_, hgone⟩ := exists_dispatched m decision o
  generalize m.dispatch decision o = done at hgone ⊢
  cases hgone with
  | sent target => exact h.emit hnow target o.outlet (.setsOut hsets)
  | parked _ hgoal => exact h.enqueue hnow _ _ hsets (.inr hgoal)
  | kept => exact h.enqueue hnow _ _ hsets (.inl rfl)
  | @deferred timeout key _ hkey _ =>
    refine ⟨?_, h.sent, h.expired, h.released⟩
    intro place p hp
    cases place with
    | link target => exact hp.elim
    | queue kind a => exact h.kept _ p hp
    | timer key' =>
      obtain ⟨c, hc, rfl, rfl⟩ := hp
      rcases ContentionQueue.mem_schedule hc with hc | ⟨hsame, hparcel⟩
      · exact h.kept (.timer c.key) c.parcel ⟨c, hc, rfl, rfl⟩
      · exact .inr ⟨o, hsets, hsame ▸ hkey, by rw [hparcel, hnow]⟩
  | refused _ _ _ => exact h
  | discarded _ => exact h

end Conveys

/-! ## Forwarding anew -/

/-- Two states in which the same is decided for what waits, at the same time. -/
structure Decides (r m : Router α) : Prop where
  now : m.now = r.now
  onward : ∀ q p u, ∀ is_unicast : p.extended = .unicast u,
    m.onward q p u is_unicast = r.onward q p u is_unicast

theorem Alike.decides (h : Alike r m) : Decides r m := ⟨h.now, fun _ _ _ _ => h.onward _ _ _ _⟩

theorem Decides.trans (h : Decides r m) (h' : Decides m s) : Decides r s :=
  ⟨h'.now.trans h.now, fun q p u is_unicast =>
    (h'.onward q p u is_unicast).trans (h.onward q p u is_unicast)⟩

/-- A parcel that is released is forwarded anew, or dropped. -/
theorem Conveys.releaseOrDrop (h : Conveys P r m) (hdecides : Decides r m) (kind : QueueKind)
    {parcel : Parcel} (hlive : r.HoldsLive parcel) :
    Conveys P r (m.releaseOrDrop kind parcel) := by
  obtain ⟨f, hdrop⟩ := releaseOrDrop_eq m kind parcel
  have hone : Conveys P r (m.releaseOne kind parcel).2 := by
    rcases releaseOne_cases m kind parcel with ⟨_, heq, _⟩ | ⟨p, u, is_unicast, hdecode, heq, _⟩
    · rw [heq]
      exact h
    · rw [heq]
      have hsame := hdecides.onward parcel p u is_unicast
      have houtgoing : m.onwardOutgoing parcel p u is_unicast =
          r.onwardOutgoing parcel p u is_unicast := by
        unfold onwardOutgoing
        rw [hsame, hdecides.now]
      rw [houtgoing]
      -- the release is on record before the packet goes on
      have hnoted : Conveys P r (m.noteRelease kind parcel (m.onward parcel p u is_unicast).2
          (m.onward parcel p u is_unicast).1.encode) :=
        h.less (fun _ _ => id) rfl rfl fun _ => List.mem_append_left _
      refine hnoted.dispatch hdecides.now _ ?_
      exact .anew is_unicast hlive hdecode (List.mem_append_right _ List.mem_cons_self)
        hdecides.now rfl (by rw [hsame])
  rw [hdrop]
  exact ⟨hone.kept, hone.sent, hone.expired, hone.released⟩

/-- So are many of them, one after the other. -/
theorem Conveys.release (h : Conveys P r m) (hdecides : Decides r m) (kind : QueueKind)
    {parcels : List Parcel} (hlive : ∀ p ∈ parcels, r.HoldsLive p) :
    Conveys P r (m.release kind parcels) := by
  induction parcels generalizing m with
  | nil => exact h
  | cons p rest ih =>
    exact ih (h.releaseOrDrop hdecides kind (hlive p List.mem_cons_self))
      (hdecides.trans (releaseOrDrop_alike m kind p).decides)
      fun q hq => hlive q (List.mem_cons_of_mem _ hq)

/-- Taking out what waits and forwarding it anew, from a state in which less is held. -/
theorem Conveys.flush (h : Conveys P r m) (hdecides : Decides r m) (kind : QueueKind)
    (a : Option Address) (hsame : ∀ p, m.Holds p → r.Holds p) :
    Conveys P r (({ m with queues := m.queues.drop kind a }.giveUp kind
      (m.queues.lapsed kind a m.now)).release kind (m.queues.ready kind a m.now)) := by
  have htaken : Conveys P r { m with queues := m.queues.drop kind a } :=
    h.less (fun _ _ hp => drop_holdsAt hp) rfl rfl fun _ => id
  have hlapsed : ∀ p ∈ m.queues.lapsed kind a m.now, r.Holds p ∧ p.isExpired r.now = true :=
    fun p hp => hdecides.now ▸ (lapsed_of_select hp).imp_left (hsame p)
  have hgiven := htaken.giveUp hdecides.now kind hlapsed
  refine hgiven.release ⟨hdecides.now, hdecides.onward⟩ kind fun p hp => ?_
  have hlive := holdsLive_of_ready hp
  exact ⟨hsame p hlive.1, hdecides.now ▸ hlive.2⟩

/-! ## Routers as they were made -/

/-- A new router holds nothing at any place. -/
theorem not_holdsAt_of_make {geometry : Geometry α} {config : Config α} {base : Timestamp}
    {position : Nat → Fix} {jitter : Nat → Nat}
    (h : make geometry config base position jitter = .ok r) (place : Place) (p : Parcel) :
    ¬ r.HoldsAt place p := by
  obtain ⟨_, rfl⟩ := eq_of_make h
  intro hp
  cases place with
  | link target => exact hp
  | queue kind a => cases kind <;> exact absurd hp List.not_mem_nil
  | timer key =>
    obtain ⟨c, hc, _⟩ := hp
    exact absurd hc List.not_mem_nil

/-- It holds nothing at all. -/
theorem not_holds_of_make {geometry : Geometry α} {config : Config α} {base : Timestamp}
    {position : Nat → Fix} {jitter : Nat → Nat}
    (h : make geometry config base position jitter = .ok r) (p : Parcel) : ¬ r.Holds p := by
  intro hp
  obtain ⟨place, hp⟩ := (holds_iff r p).mp hp
  exact not_holdsAt_of_make h place p hp

/-! ## Each kind of move -/

/-- No step of forwarding makes up a frame. -/
theorem Forward.conveys (h : Forward P r s) : Conveys P r s := by
  cases h with
  | count => exact .of_same rfl rfl rfl rfl rfl
  | number => exact .of_same rfl rfl rfl rfl rfl
  | overhear key =>
    have hfewer : (r.contention.cancel key).2.contenders ⊆ r.contention.contenders :=
      List.filter_sublist.subset
    exact (Conveys.refl r).less (fun _ _ hp => hp.of_subset (fun _ _ _ => id) hfewer) rfl rfl
      fun _ => id
  | emit target outlet hsendable hbegins =>
    exact (Conveys.refl r).emit rfl target outlet
      (.setsOut (.begins outlet none hsendable hbegins (heading_none r _)))
  | dispatch decision hstarts =>
    obtain ⟨p, outlet, destination, hsendable, hbegins, hheading, -, rfl⟩ := hstarts
    exact (Conveys.refl r).dispatch rfl decision (.begins outlet none hsendable hbegins hheading)
  | flushBroadcast =>
    -- what was taken out is sent if it is live, and given up otherwise
    have htaken : Conveys P r { r with queues := r.queues.drop .broadcast none } :=
      (Conveys.refl r).less (fun _ _ hp => drop_holdsAt hp) rfl rfl fun _ => id
    have hlive : ∀ p ∈ r.queues.ready .broadcast none r.now, r.HoldsLive p :=
      fun p hp => holdsLive_of_ready hp
    have hsent := htaken.emitParcels rfl hlive
    exact hsent.giveUp (emitParcels_alike _ _).now .broadcast fun p hp => lapsed_of_select hp
  | flushUnicast =>
    exact (Conveys.refl r).flush (Alike.refl r).decides .unicast none fun _ => id
  | fireContention =>
    have hfewer : (r.contention.fire r.now).2.contenders ⊆ r.contention.contenders :=
      List.filter_sublist.subset
    have htaken : Conveys P r { r with contention := (r.contention.fire r.now).2 } :=
      (Conveys.refl r).less (fun _ _ hp => hp.of_subset (fun _ _ _ => id) hfewer) rfl rfl
        fun _ => id
    exact htaken.emitParcels rfl fun p hp => holdsLive_of_fired hp
  | scheduleBeacon due round => exact .of_same rfl rfl rfl rfl rfl

/-- Ending a lookup conveys what waited for it, from a state in which less is held. -/
theorem Conveys.resolveLookup (h : Conveys P r m) (hdecides : Decides r m)
    (hsame : ∀ p, m.Holds p → r.Holds p) (target : Address) :
    Conveys P r (m.resolveLookup target) := by
  cases hl : m.lookups.inFlight.get? target with
  | none =>
    rw [resolveLookup_idle hl]
    exact h
  | some l =>
    obtain ⟨lookups, heq⟩ := exists_resolveLookup_eq hl
    rw [heq]
    have htold : Conveys P r ((({ m with lookups } : Router α).complete l.waiters (.ok ())).count
        fun c => { c with lookupsResolved := c.lookupsResolved + 1 }) :=
      h.less (fun _ _ => id) rfl rfl fun _ => id
    exact htold.flush ⟨hdecides.now, hdecides.onward⟩ .lookup (some target) hsame

/-- A packet that is heard conveys what waited for its source, as is decided with what is then known
of the stations. -/
theorem Hear.conveys (h : Hear r s) :
    ∃ table, s.table = table ∧ Conveys P { r with table } s := by
  rcases h.forms with ⟨table, rfl⟩ | ⟨table, f, target, rfl⟩
  · exact ⟨table, rfl, .refl _⟩
  · refine ⟨table, ?_, ?_⟩
    · cases hl : r.lookups.inFlight.get? target with
      | none => rw [resolveLookup_idle (r := ({ r with table } : Router α).count f) hl]; rfl
      | some l => exact (resolveLookup_ended (r := ({ r with table } : Router α).count f) hl).2
    · have hcounted : Conveys P { r with table } (({ r with table } : Router α).count f) :=
        .of_same rfl rfl rfl rfl rfl
      exact hcounted.resolveLookup ⟨rfl, fun _ _ _ _ => rfl⟩ (fun _ => id) target

/-- Nor does any other elementary step. -/
theorem Work.conveys (h : Work P r s) : Conveys P r s := by
  cases h with
  | forward h => exact h.conveys
  | @await target d small hbegins _ =>
    have hawaited := (await_awaited r target (r.unresolvedParcel d small target)).2
    have hqueued := (Conveys.refl r).enqueue rfl .lookup target
      (.begins d.outlet (some r.handles) (unresolvedPacket_sendable r d small target) hbegins
        (unresolvedPacket_heading r d small target)) (.inr rfl)
    exact hqueued.less (fun _ _ hp => hp.of_same hawaited.queues hawaited.contention)
      hawaited.emissions hawaited.expired fun _ he => hawaited.released ▸ he
  | tend htends => exact .of_same rfl rfl rfl rfl rfl
  | @expire target l _ =>
    unfold expireLookup
    split
    · exact .refl r
    · exact (Conveys.refl r).less (fun _ _ hp => drop_holdsAt (r := r) hp) rfl rfl fun _ => id
  | sweep due => exact .of_same rfl rfl rfl rfl rfl
  | start => exact .of_same rfl rfl rfl rfl rfl
  | stop hrunning =>
    rw [stop_eq hrunning]
    -- a stop leaves nothing in any place
    refine (Conveys.refl r).less (fun place p hp => hp.of_subset (fun kind a => ?_) ?_) rfl rfl
      fun _ => id
    · cases kind <;> exact List.nil_subset _
    · exact List.nil_subset _
  | reposition position => exact .of_same rfl rfl rfl rfl rfl
  | pass => exact .of_same rfl rfl rfl rfl rfl
  | arrive => exact .of_same rfl rfl rfl rfl rfl
  | clear => exact .of_same rfl rfl rfl rfl rfl

end Router

end Geocast
