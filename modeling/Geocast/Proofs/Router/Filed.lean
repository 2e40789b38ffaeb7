import Geocast.Proofs.Router.Overhearing

/-!
# What waits is what it says

A frame comes to wait with a lifetime, a station or a key beside it, each of which was read off the
packet before it was written, and moves from one queue to another or on a timer. `Filed` says that
they always agree with the frame itself: it decodes to a packet that says how long it may wait and
that it may do so where it does. So what comes out of a queue for one station can always be
forwarded, and a router that stopped at the first packet that cannot be would never stop
(`parked_coherent`).
-/

namespace Geocast

/-- Where a packet may wait by what it says: anything for any neighbour, and else for the station
that it names, or on the timer of its source and number. -/
def Packet.BelongsAt (p : Packet) : Place → Prop
  | .link _ => True
  | .queue kind a => kind = .broadcast ∨ ∃ u, p.extended = .unicast u ∧ u.destination.address = a
  | .timer key => Outgoing.keyOf p = some key

/-- A frame declares itself that it may wait so long at a place. -/
def Declares (frame : Bytes) (lifetime : Nat) (place : Place) : Prop :=
  ∃ p, Packet.decode frame = .ok p ∧ p.basic.lifetime.millis = lifetime ∧ p.BelongsAt place

namespace Router

variable {α : Type}

/-- Every frame that waits declares that it may. -/
def Filed (r : Router α) : Prop :=
  ∀ place p, r.HoldsAt place p → Declares p.frame p.lifetime place

/-- Where queues and timers stay, so does what frames declare. -/
theorem Filed.of_same {r s : Router α} (h : r.Filed) (hqueues : s.queues = r.queues)
    (hcontention : s.contention = r.contention) : s.Filed :=
  fun place p hp => h place p (hp.of_same hqueues hcontention)

/-- What waits for one station is a packet for one station. -/
theorem Filed.letter {r : Router α} (h : r.Filed) {kind : QueueKind} {a : Address} {p : Parcel}
    (hkind : kind ≠ .broadcast) (hp : p ∈ r.queues.queue kind a) :
    ∃ q u, Packet.decode p.frame = .ok q ∧ q.extended = .unicast u ∧
      u.destination.address = a := by
  obtain ⟨q, hdecode, _, hbelongs⟩ := h (.queue kind a) p hp
  obtain ⟨u, is_unicast, hnames⟩ := hbelongs.resolve_left hkind
  exact ⟨q, u, hdecode, is_unicast, hnames⟩

variable [Scalar α] {P : Router α → Packet → Prop} {r s : Router α}

/-! ## Nothing comes to wait that does not declare it -/

/-- What sets out declares itself what is said of it. -/
theorem SetsOut.declares {records : List Release} {o : Outgoing} (hsets : r.SetsOut P records o)
    (hkeyed : r.Keyed) {place : Place} (hbelongs : o.BelongsAt place) :
    Declares o.frame o.lifetime place := by
  cases hsets with
  | @begins p destination outlet handle hsendable _ hheading =>
    refine ⟨p, Packet.decode_encode hsendable, rfl, ?_⟩
    cases place with
    | link target => trivial
    | queue kind a =>
      refine hbelongs.imp_right fun hgoal => ?_
      obtain ⟨u, is_unicast, hnames⟩ := hheading a hgoal
      exact ⟨u, is_unicast, hnames hkeyed⟩
    | timer key => exact hbelongs
  | @anew q p u is_unicast _ _ hdecode =>
    have hsendable := onward_sendable r q (Packet.sendable_of_decode hdecode) u is_unicast
    refine ⟨_, Packet.decode_encode hsendable, rfl, ?_⟩
    cases place with
    | link target => trivial
    | queue kind a =>
      -- whatever is now known of the place of a station, its address is the same
      refine hbelongs.imp_right fun hgoal => ⟨_, rfl, ?_⟩
      exact (hkeyed.refreshed _ _).trans (Option.some.inj hgoal)
    | timer key => exact hbelongs

/-- A frame that came to a place belongs there, and says so itself. -/
theorem Filed.conveys (h : r.Filed) (hkeyed : r.Keyed) (hconveys : Conveys P r s) :
    s.Filed := by
  intro place p hp
  rcases hconveys.kept place p hp with hp | ⟨o, ho, hbelongs, rfl⟩
  · exact h place p hp
  · exact ho.declares hkeyed hbelongs

/-- No move files a frame where it does not belong. -/
theorem Filed.move (hmove : Move P r s) (h : r.Filed) (hkeyed : r.Keyed) (hfitted : Fitted r) :
    s.Filed := by
  cases hmove with
  | work hwork => exact h.conveys hkeyed hwork.conveys
  | hear hheard =>
    have hkeyed' : s.Keyed := hkeyed.move (.hear (P := P) hheard) hfitted
    obtain ⟨table, htable, hconveys⟩ := hheard.conveys (P := P)
    have hsame : Filed { r with table } := h.of_same rfl rfl
    exact hsame.conveys (htable ▸ hkeyed') hconveys

/-- In every reachable state each frame is where it may wait. -/
theorem Reachable.filed (reach : Reachable r) : r.Filed := by
  refine reach.invariant_keyed (fun hmade place p hp => ?_) fun hmove hfitted hkeyed h =>
    h.move hmove hkeyed hfitted
  exact absurd hp (not_holdsAt_of_make hmade place p)

/-! ## Stopping where a release fails -/

/-- A packet for one station is released wherever it waited, and in whatever state. -/
theorem releaseOne_isOk (r : Router α) (kind : QueueKind) {parcel : Parcel} {p : Packet}
    {u : UnicastHeader} (hdecode : Packet.decode parcel.frame = .ok p)
    (is_unicast : p.extended = .unicast u) : (r.releaseOne kind parcel).1.isOk = true := by
  rw [releaseOne_of_unicast r kind is_unicast hdecode]
  exact dispatch_isOk (Forwarder.toward_suits _ _ _ rfl) _

/-- Forwards packets for one station each, in order, up to the first that cannot be. -/
def tryRelease (r : Router α) (kind : QueueKind) (parcels : List Parcel) :
    Except RoutingError (Router α) :=
  parcels.foldlM (fun r p =>
    match r.releaseOne kind p with
    | (.error e, _) => .error e
    | (.ok _, r) => .ok r) r

/-- Forwards what waits in a family of queues, or for one address in it, up to the first packet that
cannot be. -/
def tryFlush (r : Router α) (kind : QueueKind) (a : Option Address) :
    Except RoutingError (Router α) :=
  let lapsed := r.queues.lapsed kind a r.now
  let (flushed, queues) := r.queues.flush kind a false r.now
  ({ r with queues }.giveUp kind lapsed).tryRelease kind flushed.ready

/-- Ends a lookup with success, if one is in flight, unless a packet that waited for it cannot be
forwarded. -/
def tryResolveLookup (r : Router α) (target : Address) : Except RoutingError (Router α) :=
  match r.lookups.finish? target .resolved with
  | none => .ok r
  | some (l, lookups) =>
    let r := ({ r with lookups }.complete l.waiters (l.report .resolved)).count fun s =>
      { s with lookupsResolved := s.lookupsResolved + 1 }
    r.tryFlush .lookup (some target)

/-- Goes on with a packet that was not seen before, unless one that waited cannot be forwarded. -/
def tryAccept (r : Router α) (a : Arrival) : Except RoutingError (ReceiveOutcome × Router α) := do
  let r ← r.tryResolveLookup a.source.address
  let r ← if a.direct then r.flushBroadcast.tryFlush .unicast none else .ok r
  return r.handle a

/-- Goes on with a packet once the table knows of it, unless one that waited cannot be forwarded. -/
def tryProcess (r : Router α) (a : Arrival) : Except RoutingError (ReceiveOutcome × Router α) :=
  match r.learn a with
  | (some (n, .duplicate), r) =>
    .ok (.drop (.duplicatePacket a.source.address n), r.overhear (a.source.address, n))
  | (some (_, .reordered), r) =>
    (r.count fun s => { s with reordered := s.reordered + 1 }).tryAccept a
  | (_, r) => r.tryAccept a

/-- Takes in a frame, unless a packet that waited and should go out upon it cannot be forwarded. -/
def tryReceive (r : Router α) (frame : Bytes) :
    Except RoutingError (ReceiveOutcome × Router α) := do
  let r := r.noteArrival
  let (outcome, r) ←
    match r.refusal? with
    | some e => .ok (.drop e, r)
    | none =>
      let r := r.count fun s => { s with packetsReceived := s.packetsReceived + 1 }
      match r.judge frame with
      | .error e => .ok (.drop e, r)
      | .ok a => r.tryProcess a
  return (outcome, r.tally outcome)

/-- Letters for one station can always be forwarded. -/
theorem tryRelease_eq (r : Router α) (kind : QueueKind) {parcels : List Parcel}
    (hletters : ∀ p ∈ parcels, ∃ q u, Packet.decode p.frame = .ok q ∧ q.extended = .unicast u) :
    r.tryRelease kind parcels = .ok (r.release kind parcels) := by
  induction parcels generalizing r with
  | nil => rfl
  | cons p rest ih =>
    obtain ⟨q, u, hdecode, is_unicast⟩ := hletters p List.mem_cons_self
    have hone := releaseOne_isOk r kind hdecode is_unicast
    have hrest := ih (r.releaseOrDrop kind p) fun q hq => hletters q (List.mem_cons_of_mem _ hq)
    show (r.tryRelease kind (p :: rest)) = .ok ((r.releaseOrDrop kind p).release kind rest)
    rw [← hrest]
    unfold tryRelease releaseOrDrop
    rw [List.foldlM_cons]
    cases heq : r.releaseOne kind p with
    | mk outcome t =>
      rw [heq] at hone
      cases outcome with
      | ok _ => rfl
      | error e => exact absurd hone Bool.false_ne_true

/-- So no release of what waits for a station fails. -/
theorem tryFlush_eq (h : r.Filed) (kind : QueueKind) (a : Option Address)
    (hkind : kind ≠ .broadcast) :
    r.tryFlush kind a = .ok (({ r with queues := r.queues.drop kind a }.giveUp kind
      (r.queues.lapsed kind a r.now)).release kind (r.queues.ready kind a r.now)) := by
  refine tryRelease_eq _ kind fun p hp => ?_
  obtain ⟨b, hb⟩ := PacketQueues.mem_select (List.mem_filter.mp hp).1
  obtain ⟨q, u, hdecode, is_unicast, _⟩ := h.letter hkind hb
  exact ⟨q, u, hdecode, is_unicast⟩

/-- Nor does one at the end of a lookup. -/
theorem tryResolveLookup_eq (h : r.Filed) (target : Address) :
    r.tryResolveLookup target = .ok (r.resolveLookup target) := by
  unfold tryResolveLookup resolveLookup
  cases r.lookups.finish? target .resolved with
  | none => rfl
  | some ended =>
    refine tryFlush_eq (h.of_same ?_ ?_) .lookup (some target) (by decide)
    · rfl
    · rfl

/-- What is parked before a packet is accepted, and once its lookup has ended, can be released. -/
theorem tryAccept_eq {a : Arrival} (h : r.Filed)
    (hresolved : (r.resolveLookup a.source.address).Filed)
    (hkeyed : (r.resolveLookup a.source.address).Keyed) :
    r.tryAccept a = .ok (r.accept a) := by
  unfold tryAccept accept
  rw [tryResolveLookup_eq h]
  generalize r.resolveLookup a.source.address = s at hresolved hkeyed
  dsimp only [bind, Except.bind]
  split
  · have hflushed : s.flushBroadcast.Filed :=
      hresolved.conveys hkeyed (Forward.flushBroadcast (P := fun _ _ => False) s).conveys
    rw [tryFlush_eq hflushed .unicast none (by decide)]
    rfl
  · rfl

/-- Nor does any that a packet sets off. -/
theorem tryProcess_eq {frame : Bytes} {a : Arrival} (hjudge : r.judge frame = .ok a)
    (h : r.Filed) (hkeyed : r.Keyed) (hfitted : Fitted r) :
    r.tryProcess a = .ok (r.process a) := by
  -- the table is another one, but what waits is the same
  have haccept (f : Stats → Stats) {s : Router α}
      {check : Option (SequenceNumber × SequenceCheck)} (hlearn : r.learn a = (check, s))
      (hnew : ∀ n, check ≠ some (n, .duplicate)) :
      (s.count f).tryAccept a = .ok ((s.count f).accept a) := by
    have hheard : Move (fun _ _ => False) r ((s.count f).resolveLookup a.source.address) :=
      .hear (.resolve f hjudge hlearn hnew)
    obtain ⟨table, hrest⟩ := learn_rest r a
    rw [hlearn] at hrest
    have hsame : s.Filed := by
      subst hrest
      exact h.of_same rfl rfl
    exact tryAccept_eq (hsame.of_same rfl rfl) (h.move hheard hkeyed hfitted)
      (hkeyed.move hheard hfitted)
  unfold tryProcess process
  cases hlearn : r.learn a with
  | mk check s =>
    rcases check with _ | ⟨n, _ | _ | _⟩
    · exact haccept id hlearn (by simp)
    · exact haccept id hlearn (by simp)
    · exact haccept _ hlearn (by simp)
    · rfl

/-- So in every reachable state a frame is taken in without a failure. -/
theorem tryReceive_eq (reach : Reachable r) (frame : Bytes) :
    r.tryReceive frame = .ok (r.receive frame) := by
  unfold tryReceive receive
  dsimp only
  cases r.noteArrival.refusal? with
  | some e => rfl
  | none =>
    cases hjudge : (r.noteArrival.count _).judge frame with
    | error e => rfl
    | ok a =>
      have hfitted := reach.orderly.fitted
      have hprocess := tryProcess_eq hjudge (reach.filed.of_same rfl rfl) reach.keyed
        ⟨hfitted.own, hfitted.alone, hfitted.room, hfitted.positive, hfitted.hops⟩
      dsimp only
      rw [hprocess]
      rfl

/-! ## What is known of all that waits -/

/-- What waits in queues and on timers is what it is filed as, and no queue holds more than it
may. -/
structure Coherent (r : Router α) : Prop where
  letters : ∀ kind a parcel, kind ≠ .broadcast → parcel ∈ r.queues.queue kind a →
    ∃ p u, Packet.decode parcel.frame = .ok p ∧
      (p.common.type = .geoUnicast ∨ p.common.type = .locationReply) ∧
      p.extended = .unicast u ∧ u.destination.address = a
  lifetimes : ∀ parcel, r.Holds parcel →
    ∃ p, Packet.decode parcel.frame = .ok p ∧ p.basic.lifetime.millis = parcel.lifetime
  keys : ∀ c ∈ r.contention.contenders, ∃ p v n, Packet.decode c.parcel.frame = .ok p ∧
    p.source? = some v ∧ p.sequence? = some n ∧ c.key = (v.address, n)
  room : ∀ kind a, (r.queues.queue kind a).length ≤ r.config.capacity kind

omit [Scalar α] in
theorem Filed.coherent (h : r.Filed) (hsound : r.Sound) : r.Coherent where
  letters := by
    intro kind a parcel hkind hp
    obtain ⟨p, u, hdecode, is_unicast, hnames⟩ := h.letter hkind hp
    exact ⟨p, u, hdecode, Packet.type_of_unicast is_unicast, is_unicast, hnames⟩
  lifetimes := by
    intro parcel hp
    obtain ⟨place, hp⟩ := (holds_iff r parcel).mp hp
    obtain ⟨p, hdecode, hlifetime, _⟩ := h place parcel hp
    exact ⟨p, hdecode, hlifetime⟩
  keys := by
    intro c hc
    obtain ⟨p, hdecode, _, hkey⟩ := h (.timer c.key) c.parcel ⟨c, hc, rfl, rfl⟩
    obtain ⟨v, n, hkey⟩ := Outgoing.keyOf_eq_some_iff.mp hkey
    exact ⟨p, v, n, hdecode, hkey⟩
  room := hsound.within.short

/-- In every state that a router can come to: what waits for one station is a packet for that
station, every frame that waits says how long it may, every timer runs under the source and number
of its packet, and no queue holds more than the settings allow. So whatever waits for one station can
be released in any state, and a router that stopped at the first release that fails would take in
every frame as it does. -/
theorem parked_coherent (reach : Reachable r) :
    r.Coherent ∧
    (∀ kind a parcel, kind ≠ .broadcast → parcel ∈ r.queues.queue kind a →
      ∀ s : Router α, (s.releaseOne kind parcel).1.isOk = true) ∧
    ∀ frame, r.tryReceive frame = .ok (r.receive frame) := by
  refine ⟨reach.filed.coherent reach.sound, fun kind a parcel hkind hp s => ?_, tryReceive_eq reach⟩
  obtain ⟨p, u, hdecode, is_unicast, _⟩ := reach.filed.letter hkind hp
  exact releaseOne_isOk s kind hdecode is_unicast

/-- A packet that waits for a lookup goes out when the station is heard. -/
theorem parked_coherent_of_waiting :
    let r := ((trialStarted trialGeometry trialConfig).transmit (trialRequest 12 1)).2
    let frame := (trialBeacon 12 100000 10000).encode
    Reachable r ∧ r.queues.queue .lookup (trialStation 12) ≠ [] ∧ r.Coherent ∧
      (r.receive frame).2.released ≠ [] ∧ r.tryReceive frame = .ok (r.receive frame) := by
  intro r frame
  have hreach : Reachable r := (trialConfig_reachable trialGeometry).step (.transmit _ _)
  obtain ⟨hcoherent, _, hreceive⟩ := parked_coherent hreach
  exact ⟨hreach, by decide +kernel, hcoherent, by decide +kernel, hreceive frame⟩

end Router

end Geocast
