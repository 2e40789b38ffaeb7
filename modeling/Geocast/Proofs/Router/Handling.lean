import Geocast.Proofs.Router.Account
import Geocast.Proofs.Router.Waiting

/-!
# The account of what a router does

What comes out of a queue begins its way anew and is accounted for like any other packet
(`flush_dealt`). From there on each thing that a router does has its account: timers send beacons
and requests only, a request to send begins the way of one packet or of none, and so does a frame
that is taken in. In between nothing comes up twice, and nothing disappears but what the counters
leave out.
-/

namespace Geocast

namespace Router

variable {α : Type}

/-- A frame is a request of the router's own for the place of a station. -/
def asks (r : Router α) (a : Address) (frame : Bytes) : Bool :=
  match Packet.decode frame with
  | .error _ => false
  | .ok p =>
    match p.extended with
    | .locationRequest h => h.source.address = r.config.address ∧ h.requested = a
    | _ => false

/-- For a packet that can be read, this is told by its header. -/
theorem asks_encode (r : Router α) (a : Address) {p : Packet} (h : p.Sendable) :
    r.asks a p.encode = true ↔ ∃ u, p.extended = .locationRequest u ∧
      u.source.address = r.config.address ∧ u.requested = a := by
  unfold asks
  rw [Packet.decode_encode h]
  dsimp only
  split
  · next u hu => simp [hu]
  · next hother => exact ⟨nofun, fun ⟨u, hu, _⟩ => absurd hu (hother u)⟩

/-- A frame is of a packet of some type of the router's own. -/
def isOwn (r : Router α) (type : PacketType) (frame : Bytes) : Bool :=
  match Packet.decode frame with
  | .error _ => false
  | .ok p => decide (p.common.type = type) &&
      p.source?.any fun v => decide (v.address = r.config.address)

/-- And so is whether it is of the router's own. -/
theorem isOwn_encode (r : Router α) (type : PacketType) {p : Packet} (h : p.Sendable) :
    r.isOwn type p.encode = true ↔
      p.common.type = type ∧ ∃ v, p.source? = some v ∧ v.address = r.config.address := by
  unfold isOwn
  rw [Packet.decode_encode h]
  simp [Option.any_eq_true]

/-- A frame is of a beacon or a request of the router's own. -/
def isSignal (r : Router α) (frame : Bytes) : Bool :=
  r.isOwn .beacon frame || r.isOwn .locationRequest frame

/-- A packet that is neither beacon nor request is no signal. -/
theorem isSignal_eq_false {r : Router α} {p : Packet} (h : p.Sendable)
    (hquiet : p.isSignal = false) : r.isSignal p.encode = false := by
  unfold Packet.isSignal at hquiet
  rw [isSignal, Bool.or_eq_false_iff, Bool.eq_false_iff, Bool.eq_false_iff, ne_eq, ne_eq,
    isOwn_encode r _ h, isOwn_encode r _ h]
  constructor
  · rintro ⟨htype, _⟩
    rw [htype] at hquiet
    exact absurd hquiet (by decide)
  · rintro ⟨htype, _⟩
    rw [htype] at hquiet
    exact absurd hquiet (by decide)

/-- Nor is a packet of any other station. -/
theorem isSignal_eq_false_of_foreign {r : Router α} {p : Packet} (h : p.Sendable)
    {v : LongPosition} (hsource : p.source? = some v) (hother : v.address ≠ r.config.address) :
    r.isSignal p.encode = false := by
  have hforeign (type : PacketType) : r.isOwn type p.encode = false := by
    rw [Bool.eq_false_iff, ne_eq, isOwn_encode r type h]
    rintro ⟨_, v', hsource', hown⟩
    obtain rfl := Option.some.inj (hsource.symm.trans hsource')
    exact hother hown
  rw [isSignal, hforeign, hforeign]
  rfl

/-- Who asks for a station sends a request. -/
theorem asks_eq_false {r : Router α} {frame : Bytes} (h : r.isSignal frame = false) (a : Address) :
    r.asks a frame = false := by
  have hrequest : r.isOwn .locationRequest frame = false := (Bool.or_eq_false_iff.mp h).2
  unfold isOwn at hrequest
  unfold asks
  split
  · rfl
  · next p hdecode =>
    rw [hdecode] at hrequest
    dsimp only at hrequest
    split
    · next u layout =>
      have htype : p.common.type = .locationRequest := by
        have hfits := p.fits
        rw [layout] at hfits
        revert hfits
        cases p.common.type <;> simp [Extended.fits]
      have hsource : p.source? = some u.source := by
        unfold Packet.source?
        rw [layout]
        rfl
      rw [htype, hsource] at hrequest
      simp only [decide_true, Bool.true_and, Option.any_some, decide_eq_false_iff_not] at hrequest
      exact decide_eq_false fun hasks => hrequest hasks.1
    · rfl

/-- A packet of the router's own. -/
def Homemade (r : Router α) (o : Origin) : Prop :=
  ∃ (p : Packet) (v : LongPosition), p.Sendable ∧ o.frame = p.encode ∧ p.source? = some v ∧
    v.address = r.config.address

/-- A packet that begins its way as the router's own is one of its own. -/
theorem Homemade.of_own {r s : Router α} {p : Packet} (hconfig : s.config = r.config)
    (h : p.Sendable) (hown : s.Own p) (handle : Option Nat) :
    r.Homemade { s.originNow p with handle } :=
  ⟨p, s.localPosition, h, rfl, hown.source, congrArg Config.address hconfig⟩

theorem Homemade.of_config {r s : Router α} {o : Origin} (h : r.Homemade o)
    (hconfig : s.config = r.config) : s.Homemade o := by
  unfold Homemade
  rw [hconfig]
  exact h

variable [Scalar α] {r : Router α}

/-! ## Forwarding anew -/

/-- A parcel that is forwarded anew will not be contended for. -/
def Promptly (r : Router α) (parcel : Parcel) : Prop :=
  ∀ p u, p.extended = .unicast u → Packet.decode parcel.frame = .ok p →
    u.source.address = r.config.address ∨ r.config.effectiveNonArea = .greedy

omit [Scalar α] in
theorem Promptly.of_config {s : Router α} {parcel : Parcel} (h : r.Promptly parcel)
    (hconfig : s.config = r.config) : s.Promptly parcel := by
  unfold Promptly
  rw [hconfig]
  exact h

/-- What is decided for it when it is released needs no timer. -/
theorem onward_isPrompt {parcel : Parcel} (h : r.Promptly parcel) {p : Packet}
    {u : UnicastHeader} (is_unicast : p.extended = .unicast u)
    (hdecode : Packet.decode parcel.frame = .ok p) :
    (r.onward parcel p u is_unicast).2.isPrompt = true := by
  unfold onward
  dsimp only
  rw [← Plan.suits_false_iff]
  refine Forwarder.toward_suits r.forwarder _ _ ?_
  rcases h p u is_unicast hdecode with hown | hgreedy
  · show (_ && Option.isSome (if u.source.address = r.config.address then _ else _)) = false
    rw [if_pos hown]
    exact Bool.and_false _
  · show (decide (r.config.effectiveNonArea = .contention) && _) = false
    rw [hgreedy]
    rfl

omit [Scalar α] in
/-- Only a packet that is contended for waits on a timer. -/
theorem dispatch_contention (r : Router α) {decision : Decision} (hprompt : decision.isPrompt = true)
    (o : Outgoing) : (r.dispatch decision o).2.contention = r.contention := by
  obtain ⟨_, hgone⟩ := exists_dispatched r decision o
  generalize r.dispatch decision o = done at hgone ⊢
  cases hgone with
  | deferred hdefer _ _ =>
    rw [hdefer] at hprompt
    exact absurd hprompt Bool.false_ne_true
  | _ => rfl

/-- A parcel that is forwarded anew is on its way again, or lost and counted. -/
theorem releaseOrDrop_dealt (h : r.Sound) (kind : QueueKind) {parcel : Parcel}
    (hprompt : r.Promptly parcel) :
    Dealt {parcel.origin} 1 r (r.releaseOrDrop kind parcel) := by
  unfold releaseOrDrop
  rcases releaseOne_cases r kind parcel with ⟨e, heq, _⟩ | ⟨p, u, is_unicast, hdecode, heq, _⟩
  · rw [heq]
    -- a parcel that cannot be read is dropped and counted
    refine (count_dealt h ?_).weaken (Multiset.zero_le _)
    unfold Stats.closed
    dsimp only
    omega
  · have hnoted : (r.noteRelease kind parcel (r.onward parcel p u is_unicast).2
        (r.onward parcel p u is_unicast).1.encode).Sound := h.of_same rfl rfl rfl
    obtain ⟨hok, hdealt⟩ := dispatch_prompt_dealt hnoted (r.onwardOutgoing parcel p u is_unicast)
      (onward_isPrompt hprompt is_unicast hdecode)
      (fun hbuffer => Forwarder.greedy_of_toward (f := r.forwarder) hbuffer)
    have hall := (Dealt.idle h rfl rfl rfl rfl rfl : Dealt 0 0 r (r.noteRelease kind parcel
      (r.onward parcel p u is_unicast).2 (r.onward parcel p u is_unicast).1.encode)).after_nothing
        hdealt (Int.zero_add 1)
    rw [heq]
    split
    · next herror =>
      rw [herror] at hok
      exact absurd hok Bool.false_ne_true
    · next hdone =>
      rw [hdone] at hall
      exact hall

/-- All parcels that are released are accounted for. -/
theorem release_dealt (h : r.Sound) (kind : QueueKind) {parcels : List Parcel}
    (hprompt : ∀ p ∈ parcels, r.Promptly p) :
    Dealt (originsOf parcels) parcels.length r (r.release kind parcels) := by
  induction parcels generalizing r with
  | nil => exact .refl h
  | cons p rest ih =>
    have hfirst := releaseOrDrop_dealt h kind (hprompt p List.mem_cons_self)
    exact hfirst.cons (ih hfirst.sound fun q hq =>
      (hprompt q (List.mem_cons_of_mem _ hq)).of_config hfirst.config)

/-- Whatever comes out of a queue is on its way again, or lost and counted. -/
theorem flush_dealt (h : r.Sound) (kind : QueueKind) (a : Option Address)
    (hprompt : ∀ p ∈ r.queues.ready kind a r.now, r.Promptly p) :
    Dealt 0 0 r (({ r with queues := r.queues.drop kind a }.giveUp kind
      (r.queues.lapsed kind a r.now)).release kind (r.queues.ready kind a r.now)) := by
  have hgiven := giveUp_dealt (h.drop kind a) kind (r.queues.lapsed kind a r.now)
  exact (hgiven.after_nothing (release_dealt hgiven.sound kind hprompt) rfl).of_flushed

/-- None of them is put on a timer. -/
theorem release_contention (r : Router α) (kind : QueueKind) (parcels : List Parcel)
    (hprompt : ∀ p ∈ parcels, r.Promptly p) :
    (r.release kind parcels).contention = r.contention := by
  have hone {r : Router α} {p : Parcel} (h : r.Promptly p) :
      (r.releaseOrDrop kind p).contention = r.contention := by
    obtain ⟨f, hdrop⟩ := releaseOrDrop_eq r kind p
    rw [hdrop]
    rcases releaseOne_cases r kind p with ⟨_, heq, _⟩ | ⟨q, u, is_unicast, hdecode, heq, _⟩
    · rw [heq]
      rfl
    · rw [heq]
      exact dispatch_contention _ (onward_isPrompt h is_unicast hdecode) _
  induction parcels generalizing r with
  | nil => rfl
  | cons p rest ih =>
    refine (ih (r.releaseOrDrop kind p) fun q hq => ?_).trans (hone (hprompt p List.mem_cons_self))
    exact (hprompt q (List.mem_cons_of_mem _ hq)).of_config (releaseOrDrop_alike r kind p).config

omit [Scalar α] in
/-- Where packets are contended for, none waits for a way to its destination. -/
theorem promptly_of_unicast (h : r.Sound) {p : Parcel}
    (hp : p ∈ r.queues.ready .unicast none r.now) : r.Promptly p := by
  cases hnonArea : r.config.effectiveNonArea with
  | greedy => exact fun _ _ _ _ => .inr hnonArea
  | contention =>
    have hempty : r.queues.unicast.values.flatten = [] :=
      (Multiset.coe_eq_zero _).mp (h.greedy hnonArea)
    have hselect : r.queues.select .unicast none = [] := hempty
    unfold PacketQueues.ready at hp
    rw [hselect] at hp
    exact absurd hp List.not_mem_nil

omit [Scalar α] in
/-- What waits for a lookup is the router's own. -/
theorem promptly_of_lookup (haddressed : Addressed r) {target : Address} {p : Parcel}
    (hp : p ∈ r.queues.ready .lookup (some target) r.now) : r.Promptly p := by
  intro q u hu hdecode
  obtain ⟨q', u', hdecode', hu', _, hown⟩ := haddressed target p (List.mem_filter.mp hp).1
  obtain rfl := Except.ok.inj (hdecode.symm.trans hdecode')
  obtain rfl := Extended.unicast.inj (hu.symm.trans hu')
  exact .inl hown

/-- What waited for a way is accounted for when it is looked at once more. -/
theorem flushUnicast_dealt (h : r.Sound) : Dealt 0 0 r r.flushUnicast :=
  flush_dealt h .unicast none fun _ => promptly_of_unicast h

/-- And no timer is touched then. -/
theorem flushUnicast_contention (h : r.Sound) : r.flushUnicast.contention = r.contention := by
  have hsame := release_contention ({ r with queues := r.queues.drop .unicast none }.giveUp .unicast
    (r.queues.lapsed .unicast none r.now)) .unicast (r.queues.ready .unicast none r.now)
    fun _ hp => (promptly_of_unicast h hp).of_config rfl
  exact hsame

/-! ## Lookups -/

/-- What waited for a place is accounted for when the place is known. -/
theorem resolveLookup_dealt (h : r.Sound) (haddressed : Addressed r) (target : Address) :
    Dealt 0 0 r (r.resolveLookup target) := by
  cases hl : r.lookups.inFlight.get? target with
  | none =>
    rw [resolveLookup_idle hl]
    exact .refl h
  | some l =>
    obtain ⟨lookups, heq⟩ := exists_resolveLookup_eq hl
    rw [heq]
    let s : Router α := (({ r with lookups } : Router α).complete l.waiters (.ok ())).count
      fun c => { c with lookupsResolved := c.lookupsResolved + 1 }
    have hended : Dealt 0 0 r s := .idle h rfl rfl rfl rfl rfl
    exact hended.then_nothing (flush_dealt hended.sound .lookup (some target) fun _ hp =>
      promptly_of_lookup haddressed hp)

/-- And no timer is touched then either. -/
theorem resolveLookup_contention (haddressed : Addressed r) (target : Address) :
    (r.resolveLookup target).contention = r.contention := by
  cases hl : r.lookups.inFlight.get? target with
  | none => rw [resolveLookup_idle hl]
  | some l =>
    rw [resolveLookup_eq hl]
    exact release_contention (r.resolving target l) .lookup _ fun _ hp =>
      (promptly_of_lookup haddressed hp).of_config rfl

omit [Scalar α] in
/-- So is what waited in vain. -/
theorem expireLookup_dealt (h : r.Sound) (target : Address) :
    Dealt 0 0 r (r.expireLookup target) := by
  cases hl : r.lookups.inFlight.get? target with
  | none =>
    rw [expireLookup_idle hl]
    exact .refl h
  | some l =>
    have hcounted : Dealt 0 (r.queues.select .lookup (some target)).length
        { r with queues := r.queues.drop .lookup (some target) } (r.expireLookup target) := by
      unfold expireLookup LookupService.finish?
      rw [hl]
      refine .of_same (h.drop .lookup (some target)) rfl rfl rfl rfl ?_
      show Stats.closed { r.stats with
        lookupsExpired := r.stats.lookupsExpired + 1
        packetsDropped := r.stats.packetsDropped +
          (r.queues.select .lookup (some target)).length } = r.stats.closed + _
      unfold Stats.closed
      dsimp only
      omega
    have hall := hcounted.of_taken (drop_held r .lookup (some target)) rfl rfl rfl
      (Multiset.zero_le _)
    rwa [card_originsOf, Int.sub_self] at hall

theorem fits_locationRequest (h : LocationRequestHeader) :
    (Extended.locationRequest h).fits .locationRequest = true := rfl

/-- The packet by which a router asks for the place of a station. -/
def requestPacket (r : Router α) (target : Address) : Packet :=
  let header : LocationRequestHeader :=
    { sequence := r.sequence, source := r.localPosition, requested := target }
  r.originate .locationRequest (.locationRequest header) (fits_locationRequest header)
    r.defaultLifetime r.config.hopLimit .any {} [] (Nat.zero_le _)

omit [Scalar α] in
/-- It can be read by every station. -/
theorem requestPacket_sendable (r : Router α) (target : Address) :
    (r.requestPacket target).Sendable :=
  originate_sendable r rfl _ _ _ _ _ rfl

omit [Scalar α] in
/-- One packet begins its way, the request. -/
theorem sendLocationRequest_dealt (h : r.Sound) (target : Address) :
    Dealt {r.originNow (r.requestPacket target)} 0 r (r.sendLocationRequest target) := by
  have hnumbered := number_dealt h (r.requestPacket target)
  have hsent := signal_dealt hnumbered.sound .broadcast (r.requestPacket target).encode .link
    (r.originNow (r.requestPacket target)) (fun s => { s with requestsSent := s.requestsSent + 1 })
    fun s => by
      unfold Stats.closed
      dsimp only
      omega
  exact hnumbered.after_nothing hsent

omit [Scalar α] in
/-- A loop that goes on lets at most a request begin its way. -/
theorem continueLookup_dealt (h : r.Sound) (key : LookupKey) :
    Dealt {r.originNow (r.requestPacket key.target)} 0 r (r.continueLookup key) := by
  have hlookups {s : Router α} (hsound : s.Sound) (lookups : LookupService) :
      Dealt 0 0 s { s with lookups } := .idle hsound rfl rfl rfl rfl rfl
  rcases r.continueLookup_forms key with ⟨_, heq⟩ | ⟨_, _, heq⟩ | ⟨_, _, heq⟩
  · rw [heq]
    exact (hlookups h _).weaken (Multiset.zero_le _)
  · have hsent := sendLocationRequest_dealt h key.target
    rw [heq]
    exact hsent.then_nothing (hlookups hsent.sound _)
  · have hexpired := expireLookup_dealt h key.target
    rw [heq]
    exact (hexpired.trans (hlookups hexpired.sound _)).weaken (Multiset.zero_le _)

theorem fits_beacon (v : LongPosition) : (Extended.beacon v).fits .beacon = true := rfl

/-- The packet by which a router announces itself. -/
def beaconPacket (r : Router α) : Packet :=
  r.originate .beacon (.beacon r.localPosition) (fits_beacon _) r.defaultLifetime 1 .any {} []
    (Nat.zero_le _)

omit [Scalar α] in
/-- It can be read by every station. -/
theorem beaconPacket_sendable (r : Router α) : r.beaconPacket.Sendable :=
  originate_sendable r rfl _ _ _ _ _ rfl

omit [Scalar α] in
/-- It is the router's own. -/
theorem beaconPacket_own (r : Router α) : r.Own r.beaconPacket :=
  originate_own r rfl _ _ _ _ rfl fun _ => (by decide : (1 : UInt8) ≠ 0)

omit [Scalar α] in
/-- One packet begins its way, the beacon. -/
theorem sendBeacon_dealt (h : r.Sound) :
    Dealt {r.originNow r.beaconPacket} 0 r r.sendBeacon.2 := by
  unfold sendBeacon
  split
  · exact (Dealt.refl h).weaken (Multiset.zero_le _)
  · refine signal_dealt h .broadcast r.beaconPacket.encode .link (r.originNow r.beaconPacket)
      (fun s => { s with beaconsSent := s.beaconsSent + 1 }) fun s => ?_
    unfold Stats.closed
    dsimp only
    omega

/-! ## Timers -/

/-- How many packets whose timers have ended waited too long, while the router runs. -/
def lapsing (r : Router α) : Nat :=
  if r.isRunning then (r.contention.lapsed r.now).length else 0

omit [Scalar α] in
/-- So it is when the beacon's timer has run out. -/
theorem fireBeacon_dealt (h : r.Sound) :
    Dealt {r.originNow r.beaconPacket} 0 r r.fireBeacon := by
  unfold fireBeacon
  split
  · have hdealt := sendBeacon_dealt h
    exact hdealt.then_nothing (.idle hdealt.sound rfl rfl rfl rfl rfl)
  · exact (Dealt.refl h).weaken (Multiset.zero_le _)

omit [Scalar α] in
/-- A sweep of the table concerns no packet. -/
theorem fireSweep_dealt (h : r.Sound) : Dealt 0 0 r r.fireSweep := by
  unfold fireSweep
  split
  · exact .idle h rfl rfl rfl rfl rfl
  · exact .refl h

omit [Scalar α] in
/-- The request is of the router's own. -/
theorem homemade_request (r : Router α) (target : Address) :
    r.Homemade (r.originNow (r.requestPacket target)) :=
  ⟨_, r.localPosition, requestPacket_sendable r target, rfl, rfl, rfl⟩

omit [Scalar α] in
/-- All loops that wake up at once let their own requests begin their way, and no more. -/
theorem continueLookups_dealt (h : r.Sound) (keys : List LookupKey) :
    ∃ new, (∀ o ∈ new, r.Homemade o) ∧ Dealt new 0 r (keys.foldl continueLookup r) := by
  induction keys generalizing r with
  | nil => exact ⟨0, fun _ ho => absurd ho (Multiset.notMem_zero _), .refl h⟩
  | cons key rest ih =>
    have hfirst := continueLookup_dealt h key
    obtain ⟨new, hnew, hrest⟩ := ih hfirst.sound
    refine ⟨_, fun o ho => ?_, hfirst.trans hrest⟩
    rcases Multiset.mem_add.mp ho with ho | ho
    · obtain rfl := Multiset.mem_singleton.mp ho
      exact homemade_request r key.target
    · exact (hnew o ho).of_config hfirst.config.symm

omit [Scalar α] in
/-- A loop that has its turn sends at most a request. -/
theorem wakeLoop_dealt (h : r.Sound) (key : LookupKey) :
    ∃ new, (∀ o ∈ new, r.Homemade o) ∧ Dealt new 0 r (r.wakeLoop key) := by
  unfold wakeLoop
  split
  · refine ⟨_, fun o ho => ?_, continueLookup_dealt h key⟩
    obtain rfl := Multiset.mem_singleton.mp ho
    exact homemade_request r key.target
  · exact ⟨0, fun _ ho => absurd ho (Multiset.notMem_zero _), .refl h⟩

omit [Scalar α] in
/-- When timers act, only beacons and requests begin their way, and nothing is lost without a trace
but packets that waited too long on their timers. -/
theorem settle_dealt (h : r.Sound) :
    ∃ new, (∀ o ∈ new, r.Homemade o) ∧ Dealt new (-r.lapsing) r r.settle := by
  unfold settle lapsing
  split
  · have hfired := fireContention_dealt h
    have hswept := hfired.then_nothing (fireSweep_dealt hfired.sound) (Int.add_zero _)
    have hbeacon := fireBeacon_dealt hswept.sound
    have hannounced := hswept.after_nothing hbeacon (Int.add_zero _)
    obtain ⟨new, hnew, hlookups⟩ := continueLookups_dealt hannounced.sound
      (r.fireContention.fireSweep.fireBeacon.lookups.woken
        r.fireContention.fireSweep.fireBeacon.now)
    have hall := hannounced.trans hlookups
    rw [Int.add_zero] at hall
    refine ⟨_, fun o ho => ?_, hall⟩
    rcases Multiset.mem_add.mp ho with ho | ho
    · obtain rfl := Multiset.mem_singleton.mp ho
      exact .of_own hswept.config (beaconPacket_sendable _) (beaconPacket_own _) none
    · exact (hnew o ho).of_config hannounced.config.symm
  · exact ⟨0, fun _ ho => absurd ho (Multiset.notMem_zero _), .refl h⟩

end Router

end Geocast
