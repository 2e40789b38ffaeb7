import Geocast.Proofs.Router.Requests

/-!
# What the counters count

Every counter of a router is how often something happened since it was made: so many frames were
handed to the link, so many of them beacons and requests of its own, so many parcels fell out of full
queues, and so many frames came in with one outcome or another (`counters_agree`). The first kind is
kept exact by whatever sends or parks a packet (`Exact`), the second changes when a frame comes in,
by what comes of it, and at no other time (`act_reception`).
-/

namespace Geocast

/-- A frame was dropped because it is no packet that a router can read. -/
def ReceiveOutcome.isMalformed : ReceiveOutcome → Bool
  | .drop (.malformedPacket _) | .drop .unsupportedSecurity => true
  | _ => false

/-- Does not set the counters back. -/
def Action.keepsStats : Action → Bool
  | .clearStats => false
  | _ => true

namespace Router

variable {α : Type} {r s t : Router α}

/-! ## Beacons and requests on the link -/

/-- What a router has handed to the link of packets of its own of some type. -/
def signalsSent (r : Router α) (type : PacketType) : List Emission :=
  r.emissions.filter fun e => r.isOwn type e.origin.frame

/-- How many packets of a type are counted beyond those that were sent. -/
def signalExcess (r : Router α) (type : PacketType) : Int :=
  r.stats.signals type - (r.signalsSent type).length

/-- No packet that a router holds is a beacon or a request of its own. -/
def Unsigned (r : Router α) : Prop := ∀ o ∈ r.held, r.isSignal o.frame = false

/-- Which packets are its own a router tells by its settings. -/
theorem isOwn_of_config (h : s.config = r.config) (type : PacketType) (frame : Bytes) :
    s.isOwn type frame = r.isOwn type frame := by
  unfold isOwn
  rw [h]

/-- And which of them are signals. -/
theorem isSignal_of_config (h : s.config = r.config) (frame : Bytes) :
    s.isSignal frame = r.isSignal frame := by
  unfold isSignal
  rw [isOwn_of_config h, isOwn_of_config h]

/-- A frame that is no signal is no beacon and no location request of the router's. -/
theorem isOwn_of_not_isSignal {frame : Bytes} (h : r.isSignal frame = false) {type : PacketType}
    (htype : type.isSignal = true) : r.isOwn type frame = false := by
  obtain ⟨hbeacon, hrequest⟩ := Bool.or_eq_false_iff.mp h
  cases type with
  | beacon => exact hbeacon
  | locationRequest => exact hrequest
  | _ => exact nomatch htype

/-- No signal comes to wait unless one is taken in. -/
theorem Dealt.unsigned {new : Multiset Origin} {gain : Int} (h : Dealt new gain r s)
    (hr : r.Unsigned) (hnew : ∀ o ∈ new, r.isSignal o.frame = false) : s.Unsigned := by
  intro o ho
  rw [isSignal_of_config h.config]
  rcases Multiset.mem_add.mp (h.mem_held ho) with hold | hbegun
  · exact hr o hold
  · exact hnew o hbegun

/-- What goes out is no announcement if none is on its way. -/
theorem Dealt.signalsSent {new : Multiset Origin} {gain : Int} (h : Dealt new gain r s)
    {type : PacketType} (hr : ∀ o ∈ r.held, r.isOwn type o.frame = false)
    (hnew : ∀ o ∈ new, r.isOwn type o.frame = false) :
    s.signalsSent type = r.signalsSent type := by
  obtain ⟨out, hout⟩ := h.log
  have hnone : out.filter (fun e => r.isOwn type e.origin.frame) = [] := by
    rw [List.filter_eq_nil_iff]
    intro e he
    rw [Bool.not_eq_true]
    rcases Multiset.mem_add.mp (h.mem_emissions hout.symm he) with hold | hbegun
    · exact hr _ hold
    · exact hnew _ hbegun
  unfold Router.signalsSent
  simp only [isOwn_of_config h.config]
  rw [← hout, List.filter_append, hnone, List.append_nil]

/-- What goes out is one signal more exactly if its frame is one. -/
theorem signalsSent_emit (r : Router α) (type : PacketType) (target : LinkTarget)
    (frame : Bytes) (outlet : Outlet) (origin : Origin) :
    (r.emit target frame outlet origin).signalsSent type = r.signalsSent type ++
      if r.isOwn type origin.frame then [⟨r.now, target, frame, outlet, origin⟩] else [] := by
  unfold signalsSent
  show (r.emissions ++ [_]).filter (fun e : Emission => r.isOwn type e.origin.frame) = _
  rw [List.filter_append, List.filter_cons, List.filter_nil]

/-! ## What is sent is counted -/

/-- A router counts what it sends as exactly in one state as in the other. -/
structure Exact (r s : Router α) : Prop where
  config : s.config = r.config
  sent : s.sentExcess = r.sentExcess
  evicted : s.evictedExcess = r.evictedExcess
  signals : ∀ type, type.isSignal = true → s.signalExcess type = r.signalExcess type
  unsigned : s.Unsigned

namespace Exact

/-- Where nothing goes out, is lost or comes to wait, and the counters stay, all counts agree. -/
theorem of_same (hr : r.Unsigned) (hconfig : s.config = r.config)
    (hheld : s.held ≤ r.held) (hemissions : s.emissions = r.emissions)
    (hevicted : s.evicted = r.evicted) (hsent : s.stats.packetsSent = r.stats.packetsSent)
    (hoverflows : s.stats.queueOverflows = r.stats.queueOverflows)
    (hsignals : s.stats.signals = r.stats.signals) : Exact r s where
  config := hconfig
  sent := by rw [sentExcess, sentExcess, hsent, hemissions]
  evicted := by rw [evictedExcess, evictedExcess, hoverflows, hevicted]
  signals := fun type _ => by
    unfold signalExcess signalsSent
    simp only [isOwn_of_config hconfig]
    rw [hsignals, hemissions]
  unsigned := fun o ho => by
    rw [isSignal_of_config hconfig]
    exact hr o (Multiset.mem_of_le hheld ho)

theorem refl (hr : r.Unsigned) : Exact r r :=
  .of_same hr rfl (le_refl _) rfl rfl rfl rfl rfl

theorem trans (h : Exact r s) (h' : Exact s t) : Exact r t where
  config := h'.config.trans h.config
  sent := h'.sent.trans h.sent
  evicted := h'.evicted.trans h.evicted
  signals := fun type htype => (h'.signals type htype).trans (h.signals type htype)
  unsigned := h'.unsigned

/-- What is not a beacon or a request is counted as it goes out and as it falls out of a queue. -/
theorem of_logged {taken : List (Option Origin)} {new : Multiset Origin} {gain : Int}
    (hsound : r.Sound) (hlogged : Logged taken r s) (hdealt : Dealt new gain r s)
    (hr : r.Unsigned) (hnew : ∀ o ∈ new, r.isSignal o.frame = false) : Exact r s where
  config := hdealt.config
  sent := hlogged.sent
  evicted := hlogged.evicted hsound.room
  signals := fun type htype => by
    unfold signalExcess
    rw [hlogged.signals, hdealt.signalsSent
      (fun o ho => isOwn_of_not_isSignal (hr o ho) htype)
      (fun o ho => isOwn_of_not_isSignal (hnew o ho) htype)]
  unsigned := hdealt.unsigned hr hnew

/-- A beacon or a request that goes out is counted as a frame and under its type. -/
theorem of_signal (hr : r.Unsigned) {p : Packet} (hsendable : p.Sendable) (hown : r.Own p)
    (target : LinkTarget) (outlet : Outlet) (f : Stats → Stats)
    (hsent : ∀ c, (f c).packetsSent = c.packetsSent)
    (hoverflows : ∀ c, (f c).queueOverflows = c.queueOverflows)
    (hsignals : ∀ c type, type.isSignal = true →
      (f c).signals type = c.signals type + if p.common.type = type then 1 else 0) :
    Exact r ((r.emit target p.encode outlet (r.originNow p)).count f) where
  config := rfl
  sent := by
    show (((f _).packetsSent : Nat) : Int) - (r.emissions ++ [_]).length = r.sentExcess
    rw [hsent, List.length_append, List.length_singleton, sentExcess]
    show ((r.stats.packetsSent + 1 : Nat) : Int) - _ = _
    omega
  evicted := by
    show (((f _).queueOverflows : Nat) : Int) - r.evicted.length = r.evictedExcess
    rw [hoverflows]
    rfl
  signals := fun type htype => by
    -- what the counters tell by the type, the log tells by reading the frame
    have hthis : r.isOwn type p.encode = decide (p.common.type = type) := by
      rw [Bool.eq_iff_iff, isOwn_encode r type hsendable, decide_eq_true_iff]
      exact ⟨And.left, fun h => ⟨h, r.localPosition, hown.source, rfl⟩⟩
    show (((f _).signals type : Nat) : Int) -
      ((r.emit target p.encode outlet (r.originNow p)).signalsSent type).length =
        r.signalExcess type
    rw [hsignals _ _ htype, signalsSent_emit, List.length_append, apply_ite List.length]
    show ((r.stats.signals type + _ : Nat) : Int) -
      ((_ + if r.isOwn type p.encode = true then 1 else 0 : Nat) : Int) = _
    rw [hthis]
    simp only [decide_eq_true_eq]
    unfold signalExcess
    omega
  unsigned := hr

end Exact

/-! ## Timers -/

/-- The packets that contended and go out are counted as sent when they do. -/
theorem fireContention_exact (h : r.Sound) (hr : r.Unsigned) : Exact r r.fireContention := by
  have hlogged := emitParcels_logged { r with contention := (r.contention.fire r.now).2 }
    (r.contention.fire r.now).1
  have hdealt := fireContention_dealt h
  have hnothing : ∀ o ∈ (0 : Multiset Origin), r.isSignal o.frame = false :=
    fun _ ho => absurd ho (Multiset.notMem_zero _)
  exact {
    config := hdealt.config
    sent := hlogged.sent
    evicted := hlogged.evicted h.room
    signals := fun type htype => by
      unfold signalExcess
      rw [hdealt.signalsSent (fun o ho => isOwn_of_not_isSignal (hr o ho) htype)
        (fun o ho => isOwn_of_not_isSignal (hnothing o ho) htype)]
      exact congrArg (fun n : Nat => (n : Int) - _) (congrFun hlogged.signals type)
    unsigned := hdealt.unsigned hr hnothing }

variable [Scalar α]

omit [Scalar α] in
/-- A beacon counts as one packet sent and one beacon. -/
theorem sendBeacon_exact (hr : r.Unsigned) : Exact r r.sendBeacon.2 := by
  unfold sendBeacon
  split
  · exact .refl hr
  · refine .of_signal hr (beaconPacket_sendable r) (beaconPacket_own r) .broadcast .link
      (fun s => { s with beaconsSent := s.beaconsSent + 1 }) (fun _ => rfl) (fun _ => rfl)
      fun c type htype => ?_
    cases type with
    | beacon => rfl
    | locationRequest => rfl
    | _ => exact nomatch htype

omit [Scalar α] in
/-- A location request counts as one packet sent and one request. -/
theorem sendLocationRequest_exact (hr : r.Unsigned) (target : Address) :
    Exact r (r.sendLocationRequest target) := by
  have hnumbered : Exact r (r.number (r.requestPacket target)) :=
    .of_same hr rfl (le_refl _) rfl rfl rfl rfl rfl
  refine hnumbered.trans (.of_signal hnumbered.unsigned (requestPacket_sendable r target)
    (originate_own (r.number _) rfl _ _ _ _ rfl id) .broadcast .link
    (fun s => { s with requestsSent := s.requestsSent + 1 }) (fun _ => rfl) (fun _ => rfl)
    fun c type htype => ?_)
  cases type with
  | beacon => rfl
  | locationRequest => rfl
  | _ => exact nomatch htype

omit [Scalar α] in
/-- A loop that goes on counts the request that it sends, or what it throws away when it gives its
lookup up. -/
theorem continueLookup_exact (h : r.Sound) (hr : r.Unsigned) (key : LookupKey) :
    Exact r (r.continueLookup key) := by
  rcases r.continueLookup_forms key with ⟨_, heq⟩ | ⟨_, _, heq⟩ | ⟨_, _, heq⟩
  · rw [heq]
    exact .of_same hr rfl (le_refl _) rfl rfl rfl rfl rfl
  · have hasked := sendLocationRequest_exact hr key.target
    rw [heq]
    exact hasked.trans (.of_same hasked.unsigned rfl (le_refl _) rfl rfl rfl rfl rfl)
  · have hexpired : Exact r (r.expireLookup key.target) :=
      .of_logged h (expireLookup_logged r key.target) (expireLookup_dealt h key.target) hr
        fun _ ho => absurd ho (Multiset.notMem_zero _)
    rw [heq]
    exact hexpired.trans (.of_same hexpired.unsigned rfl (le_refl _) rfl rfl rfl rfl rfl)

omit [Scalar α] in
/-- So do all loops that wake up at once. -/
theorem continueLookups_exact (h : r.Sound) (hr : r.Unsigned) (keys : List LookupKey) :
    Exact r (keys.foldl continueLookup r) := by
  induction keys generalizing r with
  | nil => exact .refl hr
  | cons key rest ih =>
    have hfirst := continueLookup_exact h hr key
    exact hfirst.trans (ih (continueLookup_dealt h key).sound hfirst.unsigned)

omit [Scalar α] in
/-- The three other timers count what they do. -/
theorem fireOthers_exact (h : r.Sound) (hr : r.Unsigned) :
    Exact r r.fireContention.fireSweep.fireBeacon := by
  have hfired := fireContention_exact h hr
  have hswept : Exact r r.fireContention.fireSweep := by
    refine hfired.trans ?_
    unfold fireSweep
    split
    · exact .of_same hfired.unsigned rfl (le_refl _) rfl rfl rfl rfl rfl
    · exact .refl hfired.unsigned
  refine hswept.trans ?_
  unfold fireBeacon
  split
  · have hsent := sendBeacon_exact hswept.unsigned
    exact hsent.trans (.of_same hsent.unsigned rfl (le_refl _) rfl rfl rfl rfl rfl)
  · exact .refl hswept.unsigned

omit [Scalar α] in
/-- And so do all timers together. -/
theorem settle_exact (h : r.Sound) (hr : r.Unsigned) : Exact r r.settle := by
  by_cases hrunning : r.phase = .running
  · have hfirst := fireOthers_exact h hr
    obtain ⟨_, hothers⟩ := fireOthers_dealt h
    rw [settle_eq hrunning]
    exact hfirst.trans (continueLookups_exact hothers.sound hfirst.unsigned _)
  · rw [settle_of_not_running hrunning]
    exact .refl hr

/-! ## Requests to send -/

/-- A request that is served leaves a record of the packet that it made. -/
theorem transmit_logged (r : Router α) (q : Request) :
    ∃ taken, Logged taken r (r.transmit q).2 := by
  have hserves := transmit_serves r q
  generalize r.transmit q = done at hserves ⊢
  cases hserves with
  | refused _ => exact ⟨_, .refl r⟩
  | tooLarge _ _ =>
    dsimp only
    split
    · exact ⟨_, useSequence_logged r none⟩
    · exact ⟨_, .refl r⟩
  | @dispatched p s decision outlet destination _ _ _ hs _ _ _ =>
    have hnumbered : ∃ taken, Logged taken r s := by
      rw [hs]
      split
      · exact ⟨_, number_logged r p⟩
      · exact ⟨_, .refl r⟩
    obtain ⟨taken, hnumbered⟩ := hnumbered
    exact ⟨taken, hnumbered.then_nothing (dispatch_logged _ _ _)⟩
  | awaited small _ _ _ _ => exact ⟨_, await_logged r _ _⟩

/-- It counts that packet where it goes out, or where it is thrown away. -/
theorem transmit_exact (h : r.Sound) (hr : r.Unsigned) (q : Request) :
    Exact r (r.transmit q).2 := by
  obtain ⟨new, hquiet, hdealt⟩ := transmit_served h q
  obtain ⟨taken, hlogged⟩ := transmit_logged r q
  exact .of_logged h hlogged hdealt hr hquiet.unsigned

/-! ## Frames that come in -/

/-- The number that goes to the answer, if a packet that came to an outcome asked for one. -/
def replies (r : Router α) (a : Arrival) (outcome : ReceiveOutcome) : List (Option Origin) :=
  if outcome.isDelivered && a.packet.isRequest then
    [some (r.originNow (r.replyPacket a.source))]
  else []

variable {a : Arrival}

omit [Scalar α] in
/-- Only a location request is answered. -/
theorem replies_of_not_request (r : Router α) (h : a.packet.isRequest = false)
    (outcome : ReceiveOutcome) : r.replies a outcome = [] := by
  unfold replies
  rw [h, Bool.and_false]
  rfl

omit [Scalar α] in
/-- Passing a packet on takes in no packet of the router's own. -/
theorem rebroadcast_logged (r : Router α) (a : Arrival) : Logged [] r (r.rebroadcast a).2 := by
  unfold rebroadcast
  split
  · exact .refl r
  · exact dispatch_logged r _ _

/-- Nor does a packet for one station. -/
theorem receiveUnicast_logged (r : Router α) (a : Arrival) (u : UnicastHeader)
    (is_unicast : a.packet.extended = .unicast u) :
    Logged [] r (r.receiveUnicast a u is_unicast).2 := by
  unfold receiveUnicast
  split
  · exact .refl r
  · split
    · exact .refl r
    · dsimp only
      split
      · next heq => exact congrArg Prod.snd heq ▸ dispatch_logged r _ _
      · next heq => exact congrArg Prod.snd heq ▸ dispatch_logged r _ _

/-- Nor one for an area. -/
theorem receiveArea_logged (r : Router α) (a : Arrival) (area : Area) (anycast : Bool) :
    Logged [] r (r.receiveArea a area anycast).2 := by
  unfold receiveArea
  dsimp only
  split
  · exact .refl r
  · split
    · exact .refl r
    · exact dispatch_logged r _ _

/-- Who asks for the place of the router gets an answer with a number of its own. -/
theorem receiveLocationRequest_logged (r : Router α) (hrequest : a.packet.isRequest = true)
    (requested : Address) :
    Logged (r.replies a (r.receiveLocationRequest a requested).1) r
      (r.receiveLocationRequest a requested).2 := by
  have hprompt := toward_own_isPrompt r r.localPosition.point {} a.source.point
  -- an answer always finds a way out, so the number that it takes is never lost
  have hok : (r.sendLocationReply a.source).1.isOk = true :=
    dispatch_isOk ((Plan.suits_false_iff _).mpr hprompt) _
  have hreply : Logged [some (r.originNow (r.replyPacket a.source))] r
      (r.sendLocationReply a.source).2 := number_dispatch_logged r _ _ _
  unfold receiveLocationRequest replies
  split
  · split
    · next heq =>
      rw [heq] at hreply
      rw [hrequest]
      exact hreply
    · next heq =>
      rw [heq] at hok
      exact absurd hok Bool.false_ne_true
  · have hunanswered (relayed : Bool) :
        r.replies a (if relayed then .forward else .drop .hopLimitExhausted) = [] := by
      cases relayed <;> rfl
    have hrelayed := rebroadcast_logged r a
    unfold replies at hunanswered
    dsimp only
    rw [hunanswered]
    exact hrelayed

/-- The only packet of its own that a router makes for an arrival is its reply. -/
theorem handle_logged (r : Router α) (a : Arrival) :
    Logged (r.replies a (r.handle a).1) r (r.handle a).2 := by
  -- only a request can be answered, and so take a number
  have hunasked (hlayout : ∀ u, a.packet.extended ≠ .locationRequest u)
      {done : ReceiveOutcome × Router α} (h : Logged [] r done.2) :
      Logged (r.replies a done.1) r done.2 := by
    rw [replies_of_not_request r (Packet.isRequest_eq_false hlayout)]
    exact h
  cases layout : a.packet.extended with
  | any =>
    rw [handle_of_any layout]
    exact hunasked (fun _ h => nomatch layout.symm.trans h) (.refl r)
  | beacon v =>
    rw [handle_beacon layout]
    exact hunasked (fun _ h => nomatch layout.symm.trans h) (.refl r)
  | singleHop u =>
    rw [handle_singleHop layout]
    exact hunasked (fun _ h => nomatch layout.symm.trans h) (.refl r)
  | topological u =>
    rw [handle_topological layout]
    exact hunasked (fun _ h => nomatch layout.symm.trans h) (rebroadcast_logged r a)
  | unicast u =>
    rw [handle_of_unicast layout]
    exact hunasked (fun _ h => nomatch layout.symm.trans h) (receiveUnicast_logged r a u layout)
  | locationRequest u =>
    have hrequest : a.packet.isRequest = true := by
      unfold Packet.isRequest
      rw [layout]
    rw [handle_of_request layout]
    exact receiveLocationRequest_logged r hrequest u.requested
  | area u =>
    rw [handle_of_area layout]
    exact hunasked (fun _ h => nomatch layout.symm.trans h) (receiveArea_logged r a u.area _)

/-- Nothing of what begins its way when a packet is accepted is a beacon or a request. -/
theorem accept_exact (h : r.Sound) (haddressed : Addressed r) (hr : r.Unsigned)
    (hsendable : a.packet.Sendable) (hsource : a.packet.source? = some a.source)
    (hother : a.source.address ≠ r.config.address) : Exact r (r.accept a).2 := by
  obtain ⟨s, hsteady, hready, hlogged, heq⟩ := accept_handle h haddressed a
  have hwaiting : Exact r s :=
    .of_logged h hlogged hready hr fun _ ho => absurd ho (Multiset.notMem_zero _)
  obtain ⟨new, hbegun, hdealt⟩ := (handle_handled hready.sound hsendable).dealt hready.sound
    hsendable hsource (hsteady.config ▸ hother)
  rw [heq]
  exact hwaiting.trans
    (.of_logged hready.sound (handle_logged s a) hdealt hwaiting.unsigned hbegun.unsigned)

omit [Scalar α] in
/-- The outcome is counted in counters that tell of nothing sent or lost. -/
theorem tally_exact (hr : r.Unsigned) (outcome : ReceiveOutcome) :
    Exact r (r.tally outcome) := by
  have hsame : (r.tally outcome).stats.packetsSent = r.stats.packetsSent ∧
      (r.tally outcome).stats.queueOverflows = r.stats.queueOverflows ∧
      (r.tally outcome).stats.signals = r.stats.signals := by
    unfold tally count
    dsimp only
    split <;> exact ⟨rfl, rfl, rfl⟩
  exact .of_same hr rfl (le_refl _) rfl rfl hsame.1 hsame.2.1 hsame.2.2

omit [Scalar α] in
/-- A packet that is no longer passed on was neither sent nor lost. -/
theorem overhear_exact (hr : r.Unsigned) (key : ContentionKey) : Exact r (r.overhear key) := by
  have hheld := overhear_held r key
  exact .of_same hr rfl (hheld ▸ Multiset.le_add_right _ _) rfl rfl rfl rfl rfl

omit [Scalar α] in
/-- What the table learns is not counted, except that a packet was late. -/
theorem informed_exact (hr : r.Unsigned) (table : LocationTable) {f : Stats → Stats}
    (hf : ∀ c : Stats, f c = { c with reordered := (f c).reordered }) :
    Exact r (r.informed table f) :=
  .of_same hr rfl (le_refl _) rfl rfl ((congrArg Stats.packetsSent (hf _)).trans rfl)
    ((congrArg Stats.queueOverflows (hf _)).trans rfl)
    ((congrArg Stats.signals (hf _)).trans rfl)

/-- Whatever a frame makes the router send or lose is counted. -/
theorem receive_exact (h : r.Sound) (haddressed : Addressed r) (hr : r.Unsigned)
    (frame : Bytes) : Exact r (r.receive frame).2 := by
  have hreads := receive_reads r frame
  generalize r.receive frame = done at hreads ⊢
  cases hreads with
  | @unread e f _ hf =>
    have hnoted : Exact r (r.noteArrival.count f) := by
      rcases hf with ⟨_, rfl⟩ | ⟨_, rfl⟩
      · exact .of_same hr rfl (le_refl _) rfl rfl rfl rfl rfl
      · exact .of_same hr rfl (le_refl _) rfl rfl rfl rfl rfl
    exact hnoted.trans (tally_exact hnoted.unsigned _)
  | @seen a n table _ _ =>
    have hinformed := informed_exact hr table (f := id) fun _ => rfl
    have hoverheard := overhear_exact hinformed.unsigned (a.source.address, n)
    exact hinformed.trans (hoverheard.trans
      (tally_exact hoverheard.unsigned (.drop (.duplicatePacket a.source.address n))))
  | @accepted a table f _ _ hsendable hsource hother hf =>
    have hinformed := informed_exact hr table hf
    have haccepted : Exact r ((r.informed table f).accept a).2 := hinformed.trans
      (accept_exact (h.of_same rfl rfl rfl) haddressed hinformed.unsigned hsendable hsource hother)
    exact haccepted.trans (tally_exact haccepted.unsigned _)

/-! ## Actions -/

/-- Every action but setting the counters back counts what it sends. -/
theorem act_exact (reach : Reachable r) (hr : r.Unsigned) {action : Action}
    (hkeeps : action.keepsStats = true) : Exact r (r.act action) := by
  cases action with
  | start =>
    show Exact r r.start.2
    unfold Router.start
    split
    · exact .of_same hr rfl (le_refl _) rfl rfl rfl rfl rfl
    · exact .refl hr
    · exact .refl hr
  | stop =>
    show Exact r r.stop
    by_cases hstopped : r.phase = .stopped
    · rw [stop_of_stopped hstopped]
      exact .refl hr
    · rw [stop_eq hstopped]
      exact .of_same hr rfl (Multiset.zero_le _) rfl rfl rfl rfl rfl
  | receive frame => exact receive_exact reach.sound reach.orderly.addressed hr frame
  | transmit q => exact transmit_exact reach.sound hr q
  | beacon => exact sendBeacon_exact hr
  | reposition position => exact .of_same hr rfl (le_refl _) rfl rfl rfl rfl rfl
  | clearStats => exact nomatch hkeeps
  | settle => exact settle_exact reach.sound hr
  | tick =>
    have hpassed : Exact r { r with now := r.now + 1 } :=
      .of_same hr rfl (le_refl _) rfl rfl rfl rfl rfl
    exact hpassed.trans (settle_exact (reach.sound.of_same rfl rfl rfl) hpassed.unsigned)
  | wake key =>
    show Exact r (r.wakeLoop key)
    unfold wakeLoop
    split
    · exact continueLookup_exact reach.sound hr key
    · exact .refl hr

/-- In no reachable state does a signal wait: beacons and requests go out at once. -/
theorem Reachable.unsigned (reach : Reachable r) : r.Unsigned := by
  refine reach.invariant_acts (fun hmade => ?_) fun {r} reach hr action => ?_
  · obtain ⟨_, rfl⟩ := eq_of_make hmade
    exact fun _ ho => absurd ho (Multiset.notMem_zero _)
  · by_cases hkeeps : action.keepsStats = true
    · exact (act_exact reach hr hkeeps).unsigned
    · cases action with
      | clearStats => exact hr
      | _ => exact absurd rfl hkeeps

/-! ## What comes in is counted -/

/-- How many packets a frame takes off their timers. -/
def silences (r : Router α) (frame : Bytes) : Nat :=
  r.contention.contenders.countP fun c =>
    decide (c ∉ (r.receive frame).2.contention.contenders)

/-- How often each of what the counters tell of frames happens when one comes in. -/
def heard (r : Router α) (frame : Bytes) : Nat × Nat × Nat × Nat × Nat × Nat :=
  (r.isRunning.toNat, (r.receive frame).1.isDelivered.toNat,
    (r.receive frame).1.isRelayed.toNat, (r.receive frame).1.isDuplicate.toNat,
    (r.receive frame).1.isMalformed.toNat, r.silences frame)

/-- A frame that takes no packet off its timer silences none. -/
theorem silences_eq_zero {frame : Bytes} (h : ∀ c ∈ r.contention.contenders,
    c ∈ (r.receive frame).2.contention.contenders) : r.silences frame = 0 := by
  unfold silences
  rw [List.countP_eq_zero]
  exact fun c hc hgone => of_decide_eq_true hgone (h c hc)

omit [Scalar α] in
/-- The outcome of a frame is counted in the one counter that is for it. -/
theorem tally_reception (r : Router α) (outcome : ReceiveOutcome) :
    (r.tally outcome).stats.reception = r.stats.reception +
      (0, outcome.isDelivered.toNat, outcome.isRelayed.toNat, outcome.isDuplicate.toNat,
        outcome.isMalformed.toNat, 0) := by
  cases outcome with
  | forward => rfl
  | consume indication =>
    obtain ⟨_, _, _, _, _, _, _, _, _, forwarded⟩ := indication
    cases forwarded <;> rfl
  | drop e => cases e <;> rfl

/-- What is counted when a frame comes in, if it is counted what came of it last. -/
theorem reception_of_tally {frame : Bytes} {outcome : ReceiveOutcome}
    (heq : r.receive frame = (outcome, s.tally outcome))
    (hcounted : s.stats.reception = r.stats.reception +
      (r.isRunning.toNat, 0, 0, 0, 0, r.silences frame)) :
    (r.receive frame).2.stats.reception = r.stats.reception + r.heard frame := by
  have houtcome : (r.receive frame).1 = outcome := congrArg Prod.fst heq
  have htallied : (r.receive frame).2 = s.tally outcome := congrArg Prod.snd heq
  unfold heard
  rw [houtcome, htallied, tally_reception, hcounted, Stats.reception]
  simp only [Prod.mk_add_mk, Nat.add_zero]

omit [Scalar α] in
/-- What an overheard copy takes off its timer. -/
theorem countP_overheard {q : ContentionQueue} (h : q.Distinct) (key : ContentionKey) :
    q.contenders.countP (fun c => decide (c ∉ (q.cancel key).2.contenders)) =
      if (q.cancel key).1 then 1 else 0 := by
  rw [← ContentionQueue.length_overheard h key, ContentionQueue.overheard, List.length_map,
    ← List.countP_eq_length_filter]
  refine List.countP_congr fun c hc => ?_
  unfold ContentionQueue.cancel
  simp [hc]

/-- Each frame that comes in is counted once by what it is and what becomes of it. -/
theorem receive_reception (h : r.Sound) (haddressed : Addressed r) (frame : Bytes) :
    (r.receive frame).2.stats.reception = r.stats.reception + r.heard frame := by
  have hruns (hrunning : r.phase = .running) : r.isRunning.toNat = 1 :=
    congrArg Bool.toNat (decide_eq_true hrunning)
  have hreads := receive_reads r frame
  generalize hdone : r.receive frame = done at hreads
  rw [← hdone]
  cases hreads with
  | @unread e f _ hf =>
    refine reception_of_tally hdone ?_
    rw [silences_eq_zero fun c hc => hdone ▸ hc]
    rcases hf with ⟨hstill, rfl⟩ | ⟨hrunning, rfl⟩
    · rw [show r.isRunning.toNat = 0 from congrArg Bool.toNat (decide_eq_false hstill)]
      rfl
    · rw [hruns hrunning]
      rfl
  | @seen a n table hrunning _ =>
    -- a copy is taken off its timer, if there is one
    have hsilenced : r.silences frame =
        if (r.contention.cancel (a.source.address, n)).1 then 1 else 0 := by
      rw [← countP_overheard h.distinct, silences, hdone]
      rfl
    refine reception_of_tally hdone ?_
    rw [hruns hrunning, hsilenced]
    rfl
  | @accepted a table f hrunning _ _ _ _ hf =>
    have hinformed : (r.informed table f).stats.reception = r.arrived.stats.reception :=
      (congrArg Stats.reception (hf _)).trans rfl
    obtain ⟨s, _, _, hready, haccept⟩ := accept_handle (r := r.informed table f)
      (h.of_same rfl rfl rfl) haddressed a
    have hlogged := hready.trans (handle_logged s a)
    rw [haccept] at hdone
    refine reception_of_tally hdone ?_
    rw [silences_eq_zero fun c hc => hdone ▸ hlogged.timers c hc, hlogged.reception, hinformed,
      hruns hrunning]
    rfl

omit [Scalar α] in
/-- A loop that goes on counts nothing as received. -/
theorem continueLookup_reception (r : Router α) (key : LookupKey) :
    (r.continueLookup key).stats.reception = r.stats.reception := by
  rcases r.continueLookup_forms key with ⟨_, heq⟩ | ⟨_, _, heq⟩ | ⟨_, _, heq⟩
  · rw [heq]
  · rw [heq]
    rfl
  · rw [heq]
    exact (expireLookup_logged r key.target).reception

omit [Scalar α] in
/-- Nor does any other timer. -/
theorem settle_reception (r : Router α) : r.settle.stats.reception = r.stats.reception := by
  have hlookups (keys : List LookupKey) (r : Router α) :
      (keys.foldl continueLookup r).stats.reception = r.stats.reception := by
    induction keys generalizing r with
    | nil => rfl
    | cons key rest ih => exact (ih _).trans (continueLookup_reception r key)
  have hfired : r.fireContention.stats.reception = r.stats.reception :=
    (emitParcels_logged { r with contention := (r.contention.fire r.now).2 } _).reception
  have hsweep (r : Router α) : r.fireSweep.stats.reception = r.stats.reception := by
    unfold fireSweep
    split <;> rfl
  have hbeacon (r : Router α) : r.fireBeacon.stats.reception = r.stats.reception := by
    unfold fireBeacon sendBeacon
    split
    · split <;> rfl
    · rfl
  by_cases hrunning : r.phase = .running
  · rw [settle_eq hrunning, hlookups, hbeacon, hsweep, hfired]
  · rw [settle_of_not_running hrunning]

/-- What is counted when a frame comes in, and in no other action. -/
def inReception (f : Router α → Bytes → Nat) (r : Router α) : Action → Nat
  | .receive frame => f r frame
  | _ => 0

/-- One of the counters of frames that come in goes on by what it counts. -/
theorem act_reception (reach : Reachable r)
    {part : Nat × Nat × Nat × Nat × Nat × Nat → Nat}
    (hpart : ∀ x y, part (x + y) = part x + part y) {action : Action}
    (hkeeps : action.keepsStats = true) :
    part (r.act action).stats.reception = part r.stats.reception +
      inReception (fun r frame => part (r.heard frame)) r action := by
  cases action with
  | start =>
    show part r.start.2.stats.reception = part r.stats.reception
    unfold Router.start
    split <;> rfl
  | stop =>
    show part r.stop.stats.reception = part r.stats.reception
    by_cases hstopped : r.phase = .stopped
    · rw [stop_of_stopped hstopped]
    · rw [stop_eq hstopped]
  | receive frame =>
    refine Eq.trans ?_ (hpart _ _)
    exact congrArg part (receive_reception reach.sound reach.orderly.addressed frame)
  | transmit q =>
    obtain ⟨_, hlogged⟩ := transmit_logged r q
    exact congrArg part hlogged.reception
  | beacon =>
    show part r.sendBeacon.2.stats.reception = part r.stats.reception
    unfold sendBeacon
    split <;> rfl
  | reposition position => rfl
  | clearStats => exact nomatch hkeeps
  | settle => exact congrArg part (settle_reception r)
  | tick => exact congrArg part (settle_reception { r with now := r.now + 1 })
  | wake key =>
    show part (r.wakeLoop key).stats.reception = part r.stats.reception
    unfold wakeLoop
    split
    · exact congrArg part (continueLookup_reception r key)
    · rfl

/-! ## Runs -/

/-- Over many actions, all that is sent or lost is counted, as long as the counters are not
cleared. -/
theorem acts_exact (reach : Reachable r) {actions : List Action}
    (hkeep : actions.all Action.keepsStats = true) : Exact r (r.acts actions) := by
  induction actions generalizing r with
  | nil => exact .refl reach.unsigned
  | cons action rest ih =>
    obtain ⟨hfirst, hrest⟩ := Bool.and_eq_true_iff.mp hkeep
    exact (act_exact reach reach.unsigned hfirst).trans (ih (reach.act action) hrest)

/-- And each counter of frames received gains what the frames bring, one after the other. -/
theorem acts_reception (reach : Reachable r)
    {part : Nat × Nat × Nat × Nat × Nat × Nat → Nat}
    (hpart : ∀ x y, part (x + y) = part x + part y) {actions : List Action}
    (hkeep : actions.all Action.keepsStats = true) :
    part (r.acts actions).stats.reception = part r.stats.reception +
      sumAlong (inReception fun r frame => part (r.heard frame)) r actions := by
  induction actions generalizing r with
  | nil => rfl
  | cons action rest ih =>
    obtain ⟨hfirst, hrest⟩ := Bool.and_eq_true_iff.mp hkeep
    have hall := ih (reach.act action) hrest
    rw [act_reception reach hpart hfirst] at hall
    rw [sumAlong_cons, ← Nat.add_assoc]
    exact hall

/-- A frame that was sent is a beacon or a request exactly if the packet was as it began its way. -/
theorem Reachable.length_signalsSent (reach : Reachable r) (type : PacketType) :
    (r.signalsSent type).length = r.emissions.countP fun e => r.isOwn type e.frame := by
  unfold signalsSent
  rw [← List.countP_eq_length_filter]
  refine List.countP_congr fun e he => ?_
  obtain ⟨p, q, horigin, hpassed, hsendable, hframe, _⟩ := reach.sent he
  unfold isOwn
  rw [hframe, Packet.decode_encode hsendable, horigin]
  dsimp only
  rw [hpassed.source?, hpassed.common]

/-- How many frames that come in on a run come to outcomes of a kind. -/
def outcomes (kind : ReceiveOutcome → Bool) (r : Router α) (actions : List Action) : Nat :=
  sumAlong (inReception fun r frame => (kind (r.receive frame).1).toNat) r actions

/-- Every counter is how often something happened on a run. -/
structure CountersAgree (r : Router α) (actions : List Action) : Prop where
  sent : (r.acts actions).stats.packetsSent = (r.acts actions).emissions.length
  requests : (r.acts actions).stats.requestsSent =
    (r.acts actions).emissions.countP fun e => (r.acts actions).isOwn .locationRequest e.frame
  beacons : (r.acts actions).stats.beaconsSent =
    (r.acts actions).emissions.countP fun e => (r.acts actions).isOwn .beacon e.frame
  received : (r.acts actions).stats.packetsReceived =
    sumAlong (inReception fun r _ => r.isRunning.toNat) r actions
  delivered : (r.acts actions).stats.packetsDelivered =
    outcomes ReceiveOutcome.isDelivered r actions
  forwarded : (r.acts actions).stats.packetsForwarded =
    outcomes ReceiveOutcome.isRelayed r actions
  duplicates : (r.acts actions).stats.duplicates = outcomes ReceiveOutcome.isDuplicate r actions
  malformed : (r.acts actions).stats.malformed = outcomes ReceiveOutcome.isMalformed r actions
  cancelled : (r.acts actions).stats.contentionsCancelled =
    sumAlong (inReception silences) r actions
  evicted : (r.acts actions).stats.queueOverflows = (r.acts actions).evicted.length

/-- On a run of a router from when it was made, in which its counters are not set back, they are in
each state what they should be: as many frames sent as were handed to the link, of them as many
beacons and requests as are of the router's own, as many frames received as came in while it ran,
delivered, forwarded and dropped as copies or as unreadable by their outcomes, as many timers
cancelled as packets that a frame has taken off them, and as many overflows as parcels that fell out
of full queues. -/
theorem counters_agree {geometry : Geometry α} {config : Config α} {base : Timestamp}
    {position : Nat → Fix} {jitter : Nat → Nat}
    (made : make geometry config base position jitter = .ok r) {actions : List Action}
    (hkeep : actions.all Action.keepsStats = true) : r.CountersAgree actions := by
  have reach : Reachable r := .made made
  have hexact := acts_exact reach hkeep
  have hfresh : r.stats = {} ∧ r.emissions = [] ∧ r.evicted = [] := by
    obtain ⟨_, rfl⟩ := eq_of_make made
    exact ⟨rfl, rfl, rfl⟩
  obtain ⟨hstats, hemissions, hevicted⟩ := hfresh
  have hsignals (type : PacketType) (htype : type.isSignal = true) :
      (r.acts actions).stats.signals type =
        (r.acts actions).emissions.countP fun e => (r.acts actions).isOwn type e.frame := by
    have hsame := hexact.signals type htype
    have hzero : r.signalExcess type = 0 := by
      unfold signalExcess signalsSent
      rw [hstats, hemissions]
      cases type <;> rfl
    have hreach : Reachable (r.acts actions) := reach.leads ((leads_iff _ _).mpr ⟨actions, rfl⟩)
    rw [← hreach.length_signalsSent]
    unfold signalExcess at hsame hzero
    omega
  -- each counter of frames is one part of what reception adds up to
  have hcounted (part : Nat × Nat × Nat × Nat × Nat × Nat → Nat)
      (hpart : ∀ x y, part (x + y) = part x + part y) (hzero : part (0, 0, 0, 0, 0, 0) = 0) :
      part (r.acts actions).stats.reception =
        sumAlong (inReception fun r frame => part (r.heard frame)) r actions := by
    have hall := acts_reception reach hpart hkeep
    rw [hstats] at hall
    exact hall.trans ((congrArg (· + _) hzero).trans (Nat.zero_add _))
  have hsent := hexact.sent
  have hoverflows := hexact.evicted
  unfold sentExcess at hsent
  unfold evictedExcess at hoverflows
  rw [hstats, hemissions] at hsent
  rw [hstats, hevicted] at hoverflows
  exact {
    sent := Int.ofNat.inj (Int.sub_eq_zero.mp hsent)
    requests := hsignals .locationRequest rfl
    beacons := hsignals .beacon rfl
    received := hcounted (·.1) (fun _ _ => rfl) rfl
    delivered := hcounted (·.2.1) (fun _ _ => rfl) rfl
    forwarded := hcounted (·.2.2.1) (fun _ _ => rfl) rfl
    duplicates := hcounted (·.2.2.2.1) (fun _ _ => rfl) rfl
    malformed := hcounted (·.2.2.2.2.1) (fun _ _ => rfl) rfl
    cancelled := hcounted (·.2.2.2.2.2) (fun _ _ => rfl) rfl
    evicted := Int.ofNat.inj (Int.sub_eq_zero.mp hoverflows) }

/-- A letter that comes in a second time is counted as a copy, and the first is taken off its
timer. -/
theorem counters_agree_of_copy :
    outcomes ReceiveOutcome.isDuplicate (trial trialGeometry trialContending)
        [.start, .receive (trialLetter 7).encode, .receive (trialLetter 7).encode] = 1 ∧
      (trial trialGeometry trialContending).CountersAgree
        [.start, .receive (trialLetter 7).encode, .receive (trialLetter 7).encode] := by
  have hfault : trialContending.fault?.isNone = true := by decide +kernel
  have hmade := trial_made trialGeometry (Option.isNone_iff_eq_none.mp hfault) (by decide +kernel)
  have hcopies : outcomes ReceiveOutcome.isDuplicate (trial trialGeometry trialContending)
      [.start, .receive (trialLetter 7).encode, .receive (trialLetter 7).encode] = 1 := by
    decide +kernel
  exact ⟨hcopies, counters_agree hmade rfl⟩

end Router

end Geocast
