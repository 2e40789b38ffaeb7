import Geocast.Proofs.Packet.RoundTrip
import Geocast.Proofs.Queue.Membership
import Geocast.Router.Run
import Mathlib.Logic.Relation

/-!
# What forwarding does to a router

Everything a router does with packets comes down to a few elementary steps (`Forward`): it counts,
numbers, sends, parks and releases. None of them touches the location table, the lookups or what
waits for a lookup (`Alike`). The second half cuts receiving, sending and the timers into such
steps once, so that an invariant has to be looked at for each step only.
-/

namespace Geocast

/-- The parcels of a family, or of one address in it, that are still good. -/
def PacketQueues.ready (q : PacketQueues) (kind : QueueKind) (a : Option Address) (now : Nat) :
    List Parcel :=
  (q.select kind a).filter fun p => !p.isExpired now

/-- Where a packet can be once it is on its way. -/
inductive Place
  | link (target : LinkTarget)
  | queue (kind : QueueKind) (a : Address)
  | timer (key : ContentionKey)

/-- Whether a packet waits there for others to relay it first. -/
def Place.isTimer : Place → Bool
  | timer _ => true
  | link _ | queue _ _ => false

/-- What the counters tell of lookups that ended: how many found their station, and how many were
given up. -/
def Stats.searches (s : Stats) : Nat × Nat := (s.lookupsResolved, s.lookupsExpired)

namespace Router

variable {α : Type}

/-- What forwarding leaves alone. -/
structure Alike (r s : Router α) : Prop where
  config : s.config = r.config
  geometry : s.geometry = r.geometry
  base : s.base = r.base
  position : s.position = r.position
  now : s.now = r.now
  phase : s.phase = r.phase
  table : s.table = r.table
  lookups : s.lookups = r.lookups
  handles : s.handles = r.handles
  completions : s.completions = r.completions
  arrivals : s.arrivals = r.arrivals
  waiting : s.queues.lookup = r.queues.lookup
  room : s.queues.lookupCapacity = r.queues.lookupCapacity
  searches : s.stats.searches = r.stats.searches

namespace Alike

variable {r s t : Router α}

theorem refl (r : Router α) : Alike r r := by constructor <;> rfl

theorem trans (h : Alike r s) (h' : Alike s t) : Alike r t where
  config := h'.config.trans h.config
  geometry := h'.geometry.trans h.geometry
  base := h'.base.trans h.base
  position := h'.position.trans h.position
  now := h'.now.trans h.now
  phase := h'.phase.trans h.phase
  table := h'.table.trans h.table
  lookups := h'.lookups.trans h.lookups
  handles := h'.handles.trans h.handles
  completions := h'.completions.trans h.completions
  arrivals := h'.arrivals.trans h.arrivals
  waiting := h'.waiting.trans h.waiting
  room := h'.room.trans h.room
  searches := h'.searches.trans h.searches

theorem clock (h : Alike r s) : s.clock = r.clock := by
  unfold Router.clock
  rw [h.base, h.now]

theorem queue (h : Alike r s) (a : Address) :
    s.queues.queue .lookup a = r.queues.queue .lookup a := by
  show (s.queues.lookup.get? a).getD [] = (r.queues.lookup.get? a).getD []
  rw [h.waiting]

end Alike

/-! ## Where a packet goes -/

/-- Whether a packet is to wait on a timer that already runs for another copy of it. Then it is not
put there, and is lost. -/
def refuses (r : Router α) (decision : Decision) (o : Outgoing) : Bool :=
  match decision with
  | .defer _ => o.key.any r.contention.contains
  | _ => false

/-- Where a packet goes by what is decided for it, if it goes anywhere. -/
def place? (r : Router α) (decision : Decision) (o : Outgoing) : Option Place :=
  if r.refuses decision o then none
  else match decision with
    | .unicast nextHop => some (.link (.unicast nextHop.mac))
    | .broadcast => some (.link .broadcast)
    | .buffer => some (o.destination.elim (.queue .broadcast r.config.address) (.queue .unicast))
    | .bufferBroadcast => some (.queue .broadcast r.config.address)
    | .defer _ => some (o.key.elim (.link .broadcast) .timer)
    | .discard _ => none

/-- What becomes of a packet that is dispatched, by where it goes: it is handed to the link, waits in
a queue or on a timer, or goes nowhere and changes nothing. -/
inductive Dispatched (r : Router α) (decision : Decision) (o : Outgoing) :
    Option Place → Except RoutingError TransmitOutcome × Router α → Prop
  | sent (target : LinkTarget) :
      Dispatched r decision o (some (.link target))
        (.ok .sent, r.emit target o.frame o.outlet o.origin)
  | parked {a : Address} : decision = .buffer → o.destination = some a →
      Dispatched r decision o (some (.queue .unicast a))
        (.ok (.queued none), r.enqueue .unicast a (o.toParcel r.now))
  | kept : Dispatched r decision o (some (.queue .broadcast r.config.address))
      (.ok (.queued none), r.enqueue .broadcast r.config.address (o.toParcel r.now))
  | deferred {timeout : Nat} {key : ContentionKey} : decision = .defer timeout →
      o.key = some key → r.contention.contains key = false →
      Dispatched r decision o (some (.timer key)) (.ok (.queued none), { r with
        contention := (r.contention.schedule key (o.toParcel r.now) timeout r.now).2 })
  | refused {timeout : Nat} {key : ContentionKey} : decision = .defer timeout →
      o.key = some key → r.contention.contains key = true →
      Dispatched r decision o none (.ok (.queued none), r)
  | discarded {reason : RoutingError} : decision = .discard reason →
      Dispatched r decision o none (.error reason, r)

/-- A packet goes where the decision sends it, unless a timer runs for its copy. -/
theorem dispatch_dispatched (r : Router α) (decision : Decision) (o : Outgoing) :
    Dispatched r decision o (r.place? decision o) (r.dispatch decision o) := by
  unfold place? refuses dispatch
  cases decision with
  | unicast nextHop => exact .sent _
  | broadcast => exact .sent _
  | buffer =>
    -- a packet for no one station waits for any neighbour
    dsimp only
    cases hgoal : o.destination with
    | none => exact .kept
    | some a => exact .parked rfl hgoal
  | bufferBroadcast => exact .kept
  | defer timeout =>
    dsimp only
    cases hkey : o.key with
    | none => exact .sent _
    | some key =>
      rw [Option.any_some]
      dsimp only
      cases hcontains : r.contention.contains key with
      | false => exact .deferred rfl hkey hcontains
      | true =>
        rw [ContentionQueue.schedule_of_contains hcontains]
        exact .refused rfl hkey hcontains
  | discard reason => exact .discarded rfl

/-- Wherever it goes, it is treated as such a packet is. -/
theorem exists_dispatched (r : Router α) (decision : Decision) (o : Outgoing) :
    ∃ place?, Dispatched r decision o place? (r.dispatch decision o) :=
  ⟨_, dispatch_dispatched r decision o⟩

/-! ## What each function leaves alone -/

/-- Forwarding may count, but not lookups. -/
theorem count_alike (r : Router α) {f : Stats → Stats} (hf : ∀ c, (f c).searches = c.searches) :
    Alike r (r.count f) :=
  ⟨rfl, rfl, rfl, rfl, rfl, rfl, rfl, rfl, rfl, rfl, rfl, rfl, rfl, hf r.stats⟩

theorem emit_alike (r : Router α) (target : LinkTarget) (frame : Bytes) (outlet : Outlet)
    (origin : Origin) : Alike r (r.emit target frame outlet origin) := by
  constructor <;> rfl

theorem emitParcels_alike (r : Router α) (parcels : List Parcel) :
    Alike r (r.emitParcels parcels) := by
  induction parcels generalizing r with
  | nil => exact .refl r
  | cons p rest ih => exact (emit_alike r .broadcast p.frame p.outlet p.origin).trans (ih _)

/-- Only the queues of lookups hold what waits for one. -/
theorem enqueue_alike (r : Router α) {kind : QueueKind} (a : Address) (p : Parcel)
    (h : kind ≠ .lookup) : Alike r (r.enqueue kind a p) := by
  cases kind with
  | broadcast => constructor <;> rfl
  | unicast => constructor <;> rfl
  | lookup => exact absurd rfl h

/-- Taking parcels out of any queue but those of the lookups. -/
theorem drop_alike (r : Router α) {kind : QueueKind} (h : kind ≠ .lookup) :
    Alike r { r with queues := r.queues.drop kind none } := by
  cases kind with
  | broadcast => constructor <;> rfl
  | unicast => constructor <;> rfl
  | lookup => exact absurd rfl h

theorem giveUp_alike (r : Router α) (kind : QueueKind) (parcels : List Parcel) :
    Alike r (r.giveUp kind parcels) := by
  constructor <;> rfl

theorem noteRelease_alike (r : Router α) (kind : QueueKind) (parcel : Parcel)
    (decision : Decision) (frame : Bytes) :
    Alike r (r.noteRelease kind parcel decision frame) := by
  constructor <;> rfl

/-- To dispatch a packet leaves table and lookups alone. -/
theorem dispatch_alike (r : Router α) (decision : Decision) (o : Outgoing) :
    Alike r (r.dispatch decision o).2 := by
  obtain ⟨_, hgone⟩ := exists_dispatched r decision o
  generalize r.dispatch decision o = done at hgone ⊢
  cases hgone with
  | sent target => exact emit_alike r target o.frame o.outlet o.origin
  | parked _ _ => exact enqueue_alike r _ _ (by simp)
  | kept => exact enqueue_alike r _ _ (by simp)
  | deferred _ _ _ => constructor <;> rfl
  | refused _ _ _ => exact .refl r
  | discarded _ => exact .refl r

/-- So does the queue for neighbours when it empties. -/
theorem flushBroadcast_alike (r : Router α) : Alike r r.flushBroadcast :=
  ((drop_alike r (by simp)).trans (emitParcels_alike _ _)).trans (giveUp_alike _ _ _)

/-- The timers of a contention leave them alone as well when they run out. -/
theorem fireContention_alike (r : Router α) : Alike r r.fireContention := by
  have htaken : Alike r { r with contention := (r.contention.fire r.now).2 } := by
    constructor <;> rfl
  exact htaken.trans (emitParcels_alike _ _)

variable [Scalar α]

theorem releaseOne_alike (r : Router α) (kind : QueueKind) (parcel : Parcel) :
    Alike r (r.releaseOne kind parcel).2 := by
  unfold releaseOne
  split
  · exact .refl r
  · split
    · exact (noteRelease_alike r _ _ _ _).trans (dispatch_alike _ _ _)
    · exact .refl r

/-- A parcel that is lost is counted, and nothing else. -/
theorem releaseOrDrop_eq (r : Router α) (kind : QueueKind) (parcel : Parcel) :
    ∃ f, r.releaseOrDrop kind parcel = (r.releaseOne kind parcel).2.count f := by
  unfold releaseOrDrop
  split
  · next heq =>
    rw [heq]
    exact ⟨_, rfl⟩
  · next heq =>
    rw [heq]
    exact ⟨id, rfl⟩

/-- A parcel that is forwarded anew does, too. -/
theorem releaseOrDrop_alike (r : Router α) (kind : QueueKind) (parcel : Parcel) :
    Alike r (r.releaseOrDrop kind parcel) := by
  have hone := releaseOne_alike r kind parcel
  unfold releaseOrDrop
  split
  · next heq =>
    rw [heq] at hone
    exact hone.trans (count_alike _ fun _ => rfl)
  · next heq =>
    rw [heq] at hone
    exact hone

/-- And many of them do. -/
theorem release_alike (r : Router α) (kind : QueueKind) (parcels : List Parcel) :
    Alike r (r.release kind parcels) := by
  induction parcels generalizing r with
  | nil => exact .refl r
  | cons p rest ih => exact (releaseOrDrop_alike r kind p).trans (ih _)

/-- What waited for a way leaves table and lookups alone. -/
theorem flushUnicast_alike (r : Router α) : Alike r r.flushUnicast :=
  ((drop_alike r (by simp)).trans (giveUp_alike _ _ _)).trans (release_alike _ _ _)

/-! ## Elementary steps -/

/-- Every entry of the table is for the station that its position vector names. -/
def Keyed (r : Router α) : Prop :=
  ∀ a e, r.table.stations.get? a = some e → e.position.address = a

/-- A packet that is on its way to a station names that station, if the table, which may have said
where it is, knows stations by their own address. -/
def Heading (r : Router α) (p : Packet) (destination : Option Address) : Prop :=
  ∀ a, destination = some a →
    ∃ u, p.extended = .unicast u ∧ (r.Keyed → u.destination.address = a)

omit [Scalar α] in
/-- A packet that waits for nobody in particular names no station. -/
theorem heading_none (r : Router α) (p : Packet) : r.Heading p none := by
  intro a h
  cases h

/-- A packet may wait until a way to its destination shows: packets move greedily, and its class
asks for it. -/
def MayWait (r : Router α) (p : Packet) : Prop :=
  r.config.effectiveNonArea = .greedy ∧ p.common.trafficClass.storeCarryForward = true

/-- A packet that has just begun its way out of a router, one of those that may: its origin is the
packet as it is now, and if it is to wait, then it may. -/
def Starts (r : Router α) (P : Router α → Packet → Prop) (decision : Decision) (o : Outgoing) :
    Prop :=
  ∃ p outlet destination, p.Sendable ∧ P r p ∧ r.Heading p destination ∧
    (decision = .buffer → r.MayWait p) ∧ o = .ofPacket p outlet destination (r.originNow p)

/-- One elementary step of forwarding, in which a packet may begin its way if `P` holds of it in the
state in which it does. -/
inductive Forward (P : Router α → Packet → Prop) : Router α → Router α → Prop
  | count (r : Router α) (f : Stats → Stats) :
      (∀ c, (f c).searches = c.searches) → Forward P r (r.count f)
  | number (r : Router α) (taker : Option Origin) : Forward P r (r.useSequence taker)
  | overhear (r : Router α) (key : ContentionKey) : Forward P r (r.overhear key)
  | emit (r : Router α) (target : LinkTarget) {p : Packet} (outlet : Outlet) :
      p.Sendable → P r p → Forward P r (r.emit target p.encode outlet (r.originNow p))
  | dispatch (r : Router α) (decision : Decision) {o : Outgoing} :
      r.Starts P decision o → Forward P r (r.dispatch decision o).2
  | flushBroadcast (r : Router α) : Forward P r r.flushBroadcast
  | flushUnicast (r : Router α) : Forward P r r.flushUnicast
  | fireContention (r : Router α) : Forward P r r.fireContention
  | scheduleBeacon (r : Router α) (due round : Nat) :
      Forward P r { r with beaconDue := due, beaconRound := round }

/-- Some steps of forwarding, one after the other. -/
abbrev Forwards (P : Router α → Packet → Prop) : Router α → Router α → Prop :=
  Relation.ReflTransGen (Forward P)

variable {P Q : Router α → Packet → Prop}

theorem Forward.mono {r s : Router α} (h : Forward P r s) (hsubset : ∀ p, P r p → Q r p) :
    Forward Q r s := by
  cases h with
  | count f hf => exact .count r f hf
  | number taker => exact .number r taker
  | overhear key => exact .overhear r key
  | emit target outlet hsendable hbegins =>
    exact .emit r target outlet hsendable (hsubset _ hbegins)
  | dispatch decision hstarts =>
    obtain ⟨p, outlet, destination, hsendable, hbegins, hheading, hwait, rfl⟩ := hstarts
    exact .dispatch r decision
      ⟨p, outlet, destination, hsendable, hsubset _ hbegins, hheading, hwait, rfl⟩
  | flushBroadcast => exact .flushBroadcast r
  | flushUnicast => exact .flushUnicast r
  | fireContention => exact .fireContention r
  | scheduleBeacon due round => exact .scheduleBeacon r due round

/-- One step of forwarding leaves table and lookups alone. -/
theorem Forward.alike {r s : Router α} (h : Forward P r s) : Alike r s := by
  cases h with
  | count f hf => exact count_alike r hf
  | number taker => constructor <;> rfl
  | overhear key => constructor <;> rfl
  | emit target outlet _ _ => exact emit_alike r target _ outlet _
  | dispatch decision _ => exact dispatch_alike r decision _
  | flushBroadcast => exact flushBroadcast_alike r
  | flushUnicast => exact flushUnicast_alike r
  | fireContention => exact fireContention_alike r
  | scheduleBeacon due round => constructor <;> rfl

/-- Any number of steps does. -/
theorem Forwards.alike {r s : Router α} (h : Forwards P r s) : Alike r s := by
  induction h with
  | refl => exact .refl r
  | tail _ step ih => exact ih.trans step.alike

/-- Which packets begin their way need only be known in states that forwarding comes to. -/
theorem Forwards.mono {r s : Router α} (h : Forwards P r s)
    (hsubset : ∀ m p, Alike r m → P m p → Q m p) : Forwards Q r s := by
  induction h with
  | refl => exact .refl
  | tail hsteps hstep ih => exact ih.tail (hstep.mono fun p => hsubset _ p (Forwards.alike hsteps))

end Router

end Geocast
