import Geocast.Proofs.Router.Counters

/-!
# The numbers of a router's own packets

Every numbered packet that a router makes, on request, in search of a station or in answer to one,
takes the next value of one counter (`Creates`), and a packet that is refused because it is too long
uses one up. `Numbering` is what all actions preserve: the packet that was numbered when so many were
before it has that number, and every numbered packet of the router's own that is on the link or held
is one of them. So the number goes with the packet wherever it waits in between, and two that are
fewer than 65536 apart have different ones (`numbers_in_turn`).
-/

namespace Geocast

/-- Makes no packet that is numbered, in whatever state. -/
def Action.isUnnumbered : Action → Bool
  | .transmit _ | .receive _ | .settle | .tick | .wake _ => false
  | .start | .stop | .beacon | .reposition _ | .clearStats => true

namespace Router

variable {α : Type} {r s : Router α}

/-- The number of the packet in a frame, if it is one of the router's own. -/
def numberOf (r : Router α) (frame : Bytes) : Option SequenceNumber :=
  match Packet.decode frame with
  | .error _ => none
  | .ok p =>
    if p.source?.any fun v => decide (v.address = r.config.address) then p.sequence? else none

/-- Which numbers are a router's own is a matter of its settings. -/
theorem numberOf_of_config (h : s.config = r.config) (frame : Bytes) :
    s.numberOf frame = r.numberOf frame := by
  unfold numberOf
  rw [h]

/-- A packet of its own is read with the number that it bears. -/
theorem numberOf_of_own {p : Packet} (h : p.Sendable) (hown : r.Own p) :
    r.numberOf p.encode = p.sequence? := by
  unfold numberOf
  rw [Packet.decode_encode h]
  dsimp only
  rw [hown.source]
  exact if_pos (decide_eq_true rfl)

/-- A packet of another station has no number of the router's. -/
theorem numberOf_of_foreign {p : Packet} (h : p.Sendable) {v : LongPosition}
    (hsource : p.source? = some v) (hother : v.address ≠ r.config.address) :
    r.numberOf p.encode = none := by
  unfold numberOf
  rw [Packet.decode_encode h]
  dsimp only
  rw [hsource]
  simp [hother]

/-- The requests for places that a router has handed to the link, by their origins. -/
def inquiries (r : Router α) : List (Option Origin) :=
  (r.signalsSent .locationRequest).map fun e => some e.origin

/-- The number that goes to the packet which is made when so many were given out. -/
def nth (n : Nat) : SequenceNumber := ⟨UInt16.ofNat n⟩

/-- Numbers come round after 65536 of them. -/
theorem nth_ne {i j : Nat} (h : i < j) (hnear : j < i + 65536) : nth i ≠ nth j := by
  intro heq
  have hvalues : (UInt16.ofNat i).toNat = (UInt16.ofNat j).toNat :=
    congrArg (fun n : SequenceNumber => n.value.toNat) heq
  rw [UInt16.toNat_ofNat', UInt16.toNat_ofNat'] at hvalues
  omega

/-! ## What all actions preserve -/

/-- Every numbered packet of a router's own has the number that was its turn. -/
structure Numbering (r : Router α) : Prop where
  counts : r.Counts
  turn : ∀ i o, r.issued[i]? = some (some o) → r.numberOf o.frame = some (nth i)
  known : ∀ o ∈ r.emitted + r.held, r.numberOf o.frame ≠ none → some o ∈ r.issued

namespace Numbering

/-- Some numbers are given out, each to the packet whose turn it is, and none but these packets is
numbered of those that begin their way. -/
theorem step (h : r.Numbering) {taken : List (Option Origin)} {new : Multiset Origin} {gain : Int}
    (hissues : Issues taken r s) (hdealt : Dealt new gain r s)
    (hturn : ∀ i o, taken[i]? = some (some o) →
      r.numberOf o.frame = some (nth (r.issued.length + i)))
    (hknown : ∀ o ∈ new, r.numberOf o.frame ≠ none → some o ∈ taken) : s.Numbering where
  counts := hissues.counts h.counts
  turn := by
    intro i o ho
    rw [numberOf_of_config hdealt.config]
    rw [hissues.issued] at ho
    -- a packet that has a number keeps it, and those that get one now come after
    by_cases hold : i < r.issued.length
    · rw [List.getElem?_append_left hold] at ho
      exact h.turn i o ho
    · rw [List.getElem?_append_right (by omega)] at ho
      have hnumber := hturn _ o ho
      rwa [show r.issued.length + (i - r.issued.length) = i by omega] at hnumber
  known := by
    intro o ho hnumbered
    rw [numberOf_of_config hdealt.config] at hnumbered
    rw [hissues.issued, List.mem_append]
    rcases Multiset.mem_add.mp (Multiset.mem_of_le hdealt.kept ho) with hold | hnew
    · exact .inl (h.known o hold hnumbered)
    · exact .inr (hknown o hnew hnumbered)

/-- No number is given out, and no numbered packet of the router's own begins its way. -/
theorem silently (h : r.Numbering) {new : Multiset Origin} {gain : Int} (hissues : Issues [] r s)
    (hdealt : Dealt new gain r s) (hnew : ∀ o ∈ new, r.numberOf o.frame = none) : s.Numbering :=
  h.step hissues hdealt (fun _ _ ho => nomatch ho)
    fun o ho hnumbered => absurd (hnew o ho) hnumbered

/-- The next number is given to a packet that begins its way. -/
theorem singly (h : r.Numbering) {o : Origin} {gain : Int} (hissues : Issues [some o] r s)
    (hdealt : Dealt {o} gain r s) (hnumber : r.numberOf o.frame = some r.sequence) :
    s.Numbering := by
  refine h.step hissues hdealt (fun i o' ho => ?_) fun o' ho _ => ?_
  · obtain ⟨rfl, rfl⟩ : i = 0 ∧ o = o' := by
      cases i with
      | zero => simpa using ho
      | succ i => simp at ho
    rw [hnumber, Nat.add_zero]
    exact congrArg some h.counts
  · obtain rfl := Multiset.mem_singleton.mp ho
    exact List.mem_singleton.mpr rfl

/-- Nothing has changed that has to do with numbers, but that packets may have been lost. -/
theorem of_same (h : r.Numbering) (hconfig : s.config = r.config) (hissued : s.issued = r.issued)
    (hsequence : s.sequence = r.sequence) (hemissions : s.emissions = r.emissions)
    (hheld : s.held ≤ r.held) : s.Numbering where
  counts := (Issues.none hissued hsequence).counts h.counts
  turn := by
    intro i o ho
    rw [numberOf_of_config hconfig]
    exact h.turn i o (hissued ▸ ho)
  known := by
    intro o ho hnumbered
    rw [numberOf_of_config hconfig] at hnumbered
    rw [hissued]
    refine h.known o (Multiset.mem_of_le ?_ ho) hnumbered
    unfold emitted
    rw [hemissions]
    exact add_le_add_right hheld _

end Numbering

/-! ## Timers -/

/-- What timers send has taken its numbers in the order in which it went out. -/
structure Inquires (taken : List (Option Origin)) (r s : Router α) : Prop where
  inquiries : s.inquiries = r.inquiries ++ taken
  issued : s.issued = r.issued ++ taken
  numbering : s.Numbering

theorem Inquires.trans {t : Router α} {taken taken' : List (Option Origin)}
    (h : Inquires taken r s) (h' : Inquires taken' s t) : Inquires (taken ++ taken') r t where
  inquiries := by rw [h'.inquiries, h.inquiries, List.append_assoc]
  issued := by rw [h'.issued, h.issued, List.append_assoc]
  numbering := h'.numbering

theorem Inquires.refl (h : r.Numbering) : Inquires [] r r :=
  ⟨(List.append_nil _).symm, (List.append_nil _).symm, h⟩

/-- Nothing that begins its way is numbered or asks for a place. -/
theorem Inquires.of_silent (h : r.Numbering) (hr : r.Unsigned) {new : Multiset Origin} {gain : Int}
    (hissues : Issues [] r s) (hdealt : Dealt new gain r s)
    (hnew : ∀ o ∈ new, r.numberOf o.frame = none ∧ r.isOwn .locationRequest o.frame = false) :
    Inquires [] r s where
  inquiries := by
    unfold Router.inquiries
    rw [hdealt.signalsSent (fun o ho => isOwn_of_not_isSignal (hr o ho) rfl)
      fun o ho => (hnew o ho).2, List.append_nil]
  issued := hissues.issued
  numbering := h.silently hissues hdealt fun o ho => (hnew o ho).1

/-- A request takes the next number and goes out at once. -/
theorem sendLocationRequest_inquires (h : r.Numbering) (hsound : r.Sound) (target : Address) :
    Inquires [some (r.originNow (r.requestPacket target))] r (r.sendLocationRequest target) := by
  have hsendable := requestPacket_sendable r target
  have hissues := (number_logged r (r.requestPacket target)).toIssues
  have hown : (r.number (r.requestPacket target)).isOwn .locationRequest
      (r.originNow (r.requestPacket target)).frame = true :=
    (isOwn_encode _ _ hsendable).mpr ⟨rfl, r.localPosition, rfl, rfl⟩
  have hsent := signalsSent_emit (r.number (r.requestPacket target)) .locationRequest .broadcast
    (r.requestPacket target).encode .link (r.originNow (r.requestPacket target))
  rw [if_pos hown] at hsent
  refine ⟨?_, hissues.issued, ?_⟩
  · show (Router.signalsSent ((r.number (r.requestPacket target)).emit .broadcast
      (r.requestPacket target).encode .link (r.originNow (r.requestPacket target)))
        .locationRequest).map _ = _
    rw [hsent, List.map_append]
    rfl
  · refine h.singly ⟨hissues.issued, hissues.counts⟩ (sendLocationRequest_dealt hsound target) ?_
    exact numberOf_of_own hsendable (originate_own r rfl _ _ _ _ rfl id)

/-- A loop that goes on makes a request with the next number, or none. -/
theorem continueLookup_inquires (h : r.Numbering) (hsound : r.Sound) (hr : r.Unsigned)
    (key : LookupKey) : ∃ taken, Inquires taken r (r.continueLookup key) := by
  rcases r.continueLookup_forms key with ⟨_, heq⟩ | ⟨_, _, heq⟩ | ⟨_, _, heq⟩
  · rw [heq]
    exact ⟨[], (List.append_nil _).symm, (List.append_nil _).symm,
      h.of_same rfl rfl rfl rfl (le_refl _)⟩
  · have hasked := sendLocationRequest_inquires h hsound key.target
    rw [heq]
    exact ⟨_, hasked.inquiries, hasked.issued,
      hasked.numbering.of_same rfl rfl rfl rfl (le_refl _)⟩
  · have hexpired : Inquires [] r (r.expireLookup key.target) :=
      .of_silent h hr (expireLookup_logged r key.target).toIssues
        (expireLookup_dealt hsound key.target) fun _ ho => absurd ho (Multiset.notMem_zero _)
    rw [heq]
    exact ⟨[], hexpired.inquiries, hexpired.issued,
      hexpired.numbering.of_same rfl rfl rfl rfl (le_refl _)⟩

/-- Loops that wake up together take their numbers in turn. -/
theorem continueLookups_inquires (h : r.Numbering) (hsound : r.Sound) (hr : r.Unsigned)
    (keys : List LookupKey) : ∃ taken, Inquires taken r (keys.foldl continueLookup r) := by
  induction keys generalizing r with
  | nil => exact ⟨[], .refl h⟩
  | cons key rest ih =>
    obtain ⟨first, hfirst⟩ := continueLookup_inquires h hsound hr key
    obtain ⟨later, hlater⟩ := ih hfirst.numbering (continueLookup_dealt hsound key).sound
      (continueLookup_exact hsound hr key).unsigned
    exact ⟨first ++ later, hfirst.trans hlater⟩

/-- Timers that have nothing to do with lookups number nothing. -/
theorem fireOthers_issues (r : Router α) :
    Issues [] r r.fireContention.fireSweep.fireBeacon := by
  have hsweep {s : Router α} (h : Issues [] r s) : Issues [] r s.fireSweep := by
    unfold fireSweep
    split
    · exact ⟨h.issued, h.counts⟩
    · exact h
  have hbeacon {s : Router α} (h : Issues [] r s) : Issues [] r s.fireBeacon := by
    unfold fireBeacon sendBeacon
    split
    · split
      · exact ⟨h.issued, h.counts⟩
      · exact ⟨h.issued, h.counts⟩
    · exact h
  have hfired := emitParcels_logged { r with contention := (r.contention.fire r.now).2 }
    (r.contention.fire r.now).1
  exact hbeacon (hsweep ⟨hfired.issued, hfired.counts⟩)

/-- A beacon has no number. -/
theorem beaconPacket_unnumbered (r : Router α) :
    r.numberOf r.beaconPacket.encode = none ∧
      r.isOwn .locationRequest r.beaconPacket.encode = false := by
  refine ⟨numberOf_of_own (beaconPacket_sendable r) (beaconPacket_own r), ?_⟩
  rw [Bool.eq_false_iff, ne_eq, isOwn_encode r _ (beaconPacket_sendable r)]
  exact nofun

/-- So do all timers that act together. -/
theorem settle_inquires (h : r.Numbering) (hsound : r.Sound) (hr : r.Unsigned) :
    ∃ taken, Inquires taken r r.settle := by
  by_cases hrunning : r.phase = .running
  · obtain ⟨_, hothers⟩ := fireOthers_dealt hsound
    have hfirst : Inquires [] r r.fireContention.fireSweep.fireBeacon := by
      refine .of_silent h hr (fireOthers_issues r) hothers fun o ho => ?_
      obtain rfl := Multiset.mem_singleton.mp ho
      have hfired := fireContention_dealt hsound
      have hconfig : r.config = r.fireContention.fireSweep.config := by
        rw [(fireSweep_dealt hfired.sound).config, hfired.config]
      rw [numberOf_of_config hconfig, isOwn_of_config hconfig]
      exact beaconPacket_unnumbered _
    have hunsigned := (fireOthers_exact hsound hr).unsigned
    obtain ⟨later, hlater⟩ := continueLookups_inquires hfirst.numbering hothers.sound hunsigned
      (r.fireContention.fireSweep.fireBeacon.lookups.woken
        r.fireContention.fireSweep.fireBeacon.now)
    rw [settle_eq hrunning]
    exact ⟨_, hfirst.trans hlater⟩
  · rw [settle_of_not_running hrunning]
    exact ⟨[], .refl h⟩

/-! ## Requests to send -/

variable [Scalar α]

/-- Which packets are numbered in an action, in the order in which they are made: the packet of a
request, if its kind is numbered, or nothing in its place if it is too long; the answer to a station
that asks for the place of the router; and the requests for places that go out when timers act. -/
inductive Creates (r : Router α) : Action → List (Option Origin) → Prop
  | composed {q : Request} {p : Packet} {handle : Option Nat} : r.isRunning = true →
      isNumbered q.destination = true → q.payload.length ≤ Packet.maxPayload → r.Composes q p →
      Creates r (.transmit q) [some { r.originNow p with handle }]
  | tooLarge {q : Request} : r.isRunning = true → isNumbered q.destination = true →
      Packet.maxPayload < q.payload.length → Creates r (.transmit q) [none]
  | unnumbered {q : Request} : (r.isRunning && isNumbered q.destination) = false →
      Creates r (.transmit q) []
  | answered {frame : Bytes} {a : Arrival} : r.judge frame = .ok a → r.answers frame = true →
      Creates r (.receive frame) [some (r.noteArrival.originNow (r.replyPacket a.source))]
  | received {frame : Bytes} : r.answers frame = false → Creates r (.receive frame) []
  | inquired {action : Action} {taken : List (Option Origin)} : action.letsTimersAct = true →
      (r.act action).inquiries = r.inquiries ++ taken → Creates r action taken
  | idle {action : Action} : action.isUnnumbered = true → Creates r action []

/-- A request that is served takes at most one number, for the packet that it makes. -/
theorem transmit_numbering (h : r.Numbering) (hsound : r.Sound) (q : Request) :
    ∃ taken, r.Creates (.transmit q) taken ∧ (r.transmit q).2.issued = r.issued ++ taken ∧
      (r.transmit q).2.Numbering := by
  have hruns (hserves : r.refusal? = none) : r.isRunning = true :=
    decide_eq_true ((running_iff r).mp hserves)
  have hserves := transmit_serves r q
  generalize r.transmit q = done at hserves ⊢
  cases hserves with
  | @refused e hrefusal =>
    have hstill : r.isRunning = false := decide_eq_false fun hrunning =>
      nomatch hrefusal.symm.trans ((running_iff r).mpr hrunning)
    exact ⟨[], .unnumbered (by rw [hstill, Bool.false_and]), (List.append_nil _).symm, h⟩
  | tooLarge hserves hlarge =>
    cases hnumbered : isNumbered q.destination with
    | true =>
      have hissues := (useSequence_logged r none).toIssues
      refine ⟨[none], .tooLarge (hruns hserves) hnumbered hlarge, hissues.issued,
        h.step hissues (useSequence_dealt hsound none) (fun i o ho => ?_)
          fun _ ho => absurd ho (Multiset.notMem_zero _)⟩
      cases i <;> simp at ho
    | false =>
      exact ⟨[], .unnumbered (by rw [hnumbered, Bool.and_false]), (List.append_nil _).symm, h⟩
  | @dispatched p s decision outlet destination hserves small hcomposes hs hprompt hwait _ =>
    have hgreedy (hbuffer : decision = .buffer) := (hwait hbuffer).1
    -- the packet has the number that was next, or none, by whether its kind is numbered
    have hsequence := hcomposes.sequence
    have hnumber : r.numberOf (r.originNow p).frame = p.sequence? :=
      numberOf_of_own hcomposes.sendable hcomposes.toOwn
    cases hnumbered : isNumbered q.destination with
    | true =>
      rw [hnumbered, if_pos rfl] at hs hsequence
      rw [hs]
      have hissues := (number_dispatch_logged r p decision
        (.ofPacket p outlet destination (r.originNow p))).toIssues
      obtain ⟨_, hdealt⟩ := dispatch_prompt_dealt (number_dealt hsound p).sound
        (.ofPacket p outlet destination (r.originNow p)) hprompt hgreedy
      have hall := (number_dealt hsound p).after_nothing hdealt rfl
      exact ⟨[some { r.originNow p with handle := none }],
        .composed (hruns hserves) hnumbered small hcomposes, hissues.issued,
        h.singly hissues hall (hnumber.trans hsequence)⟩
    | false =>
      rw [hnumbered, if_neg Bool.false_ne_true] at hs hsequence
      rw [hs]
      have hissues := (dispatch_logged r decision
        (.ofPacket p outlet destination (r.originNow p))).toIssues
      obtain ⟨_, hdealt⟩ := dispatch_prompt_dealt hsound
        (.ofPacket p outlet destination (r.originNow p)) hprompt hgreedy
      refine ⟨[], .unnumbered (by rw [hnumbered, Bool.and_false]), hissues.issued,
        h.silently hissues hdealt fun o ho => ?_⟩
      obtain rfl := Multiset.mem_singleton.mp ho
      exact hnumber.trans hsequence
  | @awaited target small hserves hdestination _ hcomposes =>
    have hnumbered : isNumbered q.destination = true := by
      rw [hdestination]
      rfl
    have hsequence := hcomposes.sequence
    rw [hnumbered] at hsequence
    have hissues := (await_logged r target
      (r.unresolvedParcel (r.draft q) small target)).toIssues
    exact ⟨_, .composed (hruns hserves) hnumbered small hcomposes, hissues.issued,
      h.singly hissues (await_dealt hsound target _)
        ((numberOf_of_own hcomposes.sendable hcomposes.toOwn).trans hsequence)⟩

/-! ## Frames that come in -/

variable {a : Arrival}

omit [Scalar α] in
/-- An answer is made from settings, place, time and the number that is next. -/
theorem replyPacket_congr (hconfig : s.config = r.config) (hposition : s.position = r.position)
    (hnow : s.now = r.now) (hsequence : s.sequence = r.sequence) (peer : LongPosition) :
    s.replyPacket peer = r.replyPacket peer := by
  have hlocal : s.localPosition = r.localPosition := by
    unfold localPosition fix
    rw [hconfig, hposition, hnow]
  unfold replyPacket originate defaultLifetime
  simp only [hconfig, hsequence, hlocal]

omit [Scalar α] in
/-- Of what begins its way upon an arrival, only an answer is numbered by the router. -/
theorem Handled.numbering {done : ReceiveOutcome × Router α} (h : Handled r a done)
    (hnumbering : r.Numbering) (hsound : r.Sound) (hissues : Issues (r.replies a done.1) r done.2)
    (hsendable : a.packet.Sendable) (hsource : a.packet.source? = some a.source)
    (hother : a.source.address ≠ r.config.address) : done.2.Numbering := by
  cases h with
  | ended _ _ => exact hnumbering
  | @passed outcome p place? s _ hrequest hpasses _ hsent =>
    have hnone : r.replies a outcome = [] := by
      unfold replies
      rw [unasked_of hrequest]
      rfl
    rw [hnone] at hissues
    refine hnumbering.silently hissues (hsent.dealt hsound) fun o ho => ?_
    obtain rfl := Multiset.mem_singleton.mp ho
    exact numberOf_of_foreign (hpasses.sendable hsendable) (hpasses.source?.trans hsource) hother
  | @answered place s hrequest _ hsent =>
    have hone : r.replies a (deliver a false) = [some (r.originNow (r.replyPacket a.source))] := by
      unfold replies
      rw [hrequest]
      rfl
    rw [hone] at hissues
    exact hnumbering.singly hissues (hsent.dealt hsound)
      (numberOf_of_own (replyPacket_sendable r a.source) (replyPacket_own r a.source))

/-- What waited goes on under the number that it has, and only then an answer is numbered. -/
theorem accept_numbering (h : r.Numbering) (hsound : r.Sound) (haddressed : Addressed r)
    (hsendable : a.packet.Sendable) (hsource : a.packet.source? = some a.source)
    (hother : a.source.address ≠ r.config.address) :
    (r.accept a).2.issued = r.issued ++ r.replies a (r.accept a).1 ∧
      (r.accept a).2.Numbering := by
  obtain ⟨s, hsteady, hready, hlogged, heq⟩ := accept_handle hsound haddressed a
  have hnumbering : s.Numbering :=
    h.silently hlogged.toIssues hready fun _ ho => absurd ho (Multiset.notMem_zero _)
  -- no number is given out until the packet itself is handled
  have hissued : s.issued = r.issued := hlogged.issued.trans (List.append_nil _)
  have hsequence : s.sequence = r.sequence := by
    rw [hnumbering.counts, h.counts, hissued]
  have hreplies (outcome : ReceiveOutcome) : s.replies a outcome = r.replies a outcome := by
    unfold replies originNow
    rw [replyPacket_congr hsteady.config hsteady.position hsteady.now hsequence, hsteady.now,
      hsteady.arrivals]
  have hissues := (handle_logged s a).toIssues
  rw [heq, ← hissued, ← hreplies]
  exact ⟨hissues.issued, (handle_handled hready.sound hsendable).numbering hnumbering hready.sound
    hissues hsendable hsource (hsteady.config ▸ hother)⟩

/-- A frame that is not delivered asked for nothing that would be answered. -/
theorem answers_eq_false {frame : Bytes} (h : (r.receive frame).1.isDelivered = false) :
    r.answers frame = false := by
  unfold answers
  split
  · rw [h, Bool.false_and]
  · rfl

omit [Scalar α] in
/-- What is counted of a frame takes no number. -/
theorem tally_numbering (h : r.Numbering) (outcome : ReceiveOutcome) :
    (r.tally outcome).issued = r.issued ∧ (r.tally outcome).Numbering :=
  ⟨rfl, h.of_same rfl rfl rfl rfl (le_refl _)⟩

omit [Scalar α] in
/-- Nor does a packet that was heard from another station. -/
theorem overhear_numbering (h : r.Numbering) (key : ContentionKey) :
    (r.overhear key).issued = r.issued ∧ (r.overhear key).Numbering := by
  have hheld := overhear_held r key
  exact ⟨rfl, h.of_same rfl rfl rfl rfl (hheld ▸ Multiset.le_add_right _ _)⟩

omit [Scalar α] in
/-- Nor does what the table learns. -/
theorem informed_numbering (h : r.Numbering) (table : LocationTable) (f : Stats → Stats) :
    (r.informed table f).issued = r.issued ∧ (r.informed table f).Numbering :=
  ⟨rfl, h.of_same rfl rfl rfl rfl (le_refl _)⟩

/-- A frame takes at most one number, for the answer to it. -/
theorem receive_numbering (h : r.Numbering) (hsound : r.Sound) (haddressed : Addressed r)
    (frame : Bytes) : ∃ taken, r.Creates (.receive frame) taken ∧
      (r.receive frame).2.issued = r.issued ++ taken ∧ (r.receive frame).2.Numbering := by
  have hreads := receive_reads r frame
  have hidle (hdropped : (r.receive frame).1.isDelivered = false) :
      r.Creates (.receive frame) [] := .received (answers_eq_false hdropped)
  have hjudged (a : Arrival) (hjudge : r.judge frame = .ok a) :
      r.answers frame = ((r.receive frame).1.isDelivered && a.packet.isRequest) := by
    unfold answers
    rw [hjudge]
  generalize r.receive frame = done at hreads hidle hjudged ⊢
  cases hreads with
  | @unread e f _ _ =>
    have hnoted : (r.noteArrival.count f).Numbering := h.of_same rfl rfl rfl rfl (le_refl _)
    obtain ⟨htallied, hlater⟩ := tally_numbering hnoted (.drop e)
    exact ⟨[], hidle rfl, htallied.trans (List.append_nil _).symm, hlater⟩
  | @seen a n table _ _ =>
    obtain ⟨hinformed, hknows⟩ := informed_numbering h table id
    obtain ⟨hoverheard, hhears⟩ := overhear_numbering hknows (a.source.address, n)
    obtain ⟨htallied, hlater⟩ :=
      tally_numbering hhears (.drop (.duplicatePacket a.source.address n))
    have hsame := htallied.trans (hoverheard.trans hinformed)
    exact ⟨[], hidle rfl, hsame.trans (List.append_nil _).symm, hlater⟩
  | @accepted a table f _ hjudge hsendable hsource hother _ =>
    obtain ⟨hinformed, hknows⟩ := informed_numbering h table f
    obtain ⟨hissued, haccepted⟩ := accept_numbering hknows (hsound.of_same rfl rfl rfl)
      haddressed hsendable hsource hother
    have hanswers := hjudged a hjudge
    rw [hinformed] at hissued
    generalize (r.informed table f).accept a = accepted at hissued haccepted hanswers ⊢
    obtain ⟨htallied, hlater⟩ := tally_numbering haccepted accepted.1
    -- a number is taken exactly where an answer is made
    unfold replies at hissued
    split at hissued
    · next hasked =>
      exact ⟨_, .answered hjudge (hanswers.trans hasked), htallied.trans hissued, hlater⟩
    · next hunasked =>
      exact ⟨_, .received (hanswers.trans (Bool.eq_false_iff.mpr hunasked)),
        htallied.trans hissued, hlater⟩

/-! ## Actions -/

/-- Where nothing is numbered every number stays with its packet. -/
theorem unnumbered_numbering (h : r.Numbering) (hsound : r.Sound) {action : Action}
    (hunnumbered : action.isUnnumbered = true) :
    (r.act action).issued = r.issued ∧ (r.act action).Numbering := by
  cases action with
  | start =>
    show r.start.2.issued = r.issued ∧ r.start.2.Numbering
    unfold Router.start
    split
    · exact ⟨rfl, h.of_same rfl rfl rfl rfl (le_refl _)⟩
    · exact ⟨rfl, h⟩
    · exact ⟨rfl, h⟩
  | stop =>
    show r.stop.issued = r.issued ∧ r.stop.Numbering
    by_cases hstopped : r.phase = .stopped
    · rw [stop_of_stopped hstopped]
      exact ⟨rfl, h⟩
    · rw [stop_eq hstopped]
      exact ⟨rfl, h.of_same rfl rfl rfl rfl (Multiset.zero_le _)⟩
  | beacon =>
    have hissues : Issues [] r r.sendBeacon.2 := by
      unfold sendBeacon
      split
      · exact .none rfl rfl
      · exact .none rfl rfl
    refine ⟨hissues.issued.trans (List.append_nil _), ?_⟩
    refine h.silently hissues (sendBeacon_dealt hsound) fun o ho => ?_
    obtain rfl := Multiset.mem_singleton.mp ho
    exact (beaconPacket_unnumbered r).1
  | reposition position => exact ⟨rfl, h.of_same rfl rfl rfl rfl (le_refl _)⟩
  | clearStats => exact ⟨rfl, h.of_same rfl rfl rfl rfl (le_refl _)⟩
  -- whatever else a router does may number a packet
  | _ => exact nomatch hunnumbered

/-- Every action gives the next numbers to what it makes, and to nothing else. -/
theorem act_numbering (reach : Reachable r) (h : r.Numbering) (action : Action) :
    ∃ taken, r.Creates action taken ∧ (r.act action).issued = r.issued ++ taken ∧
      (r.act action).Numbering := by
  have hidle (hunnumbered : action.isUnnumbered = true) : ∃ taken, r.Creates action taken ∧
      (r.act action).issued = r.issued ++ taken ∧ (r.act action).Numbering := by
    obtain ⟨hissued, hlater⟩ := unnumbered_numbering h reach.sound hunnumbered
    exact ⟨[], .idle hunnumbered, by rw [hissued, List.append_nil], hlater⟩
  cases action with
  | receive frame => exact receive_numbering h reach.sound reach.orderly.addressed frame
  | transmit q => exact transmit_numbering h reach.sound q
  | settle =>
    obtain ⟨taken, hinquires⟩ := settle_inquires h reach.sound reach.unsigned
    exact ⟨taken, .inquired rfl hinquires.inquiries, hinquires.issued, hinquires.numbering⟩
  | tick =>
    -- the clock moves before timers act, and no number with it
    have hpassed : ({ r with now := r.now + 1 } : Router α).Numbering :=
      h.of_same rfl rfl rfl rfl (le_refl _)
    obtain ⟨taken, hinquires⟩ := settle_inquires hpassed (reach.sound.of_same rfl rfl rfl)
      reach.unsigned
    exact ⟨taken, .inquired rfl hinquires.inquiries, hinquires.issued, hinquires.numbering⟩
  | wake key =>
    have hinquires : ∃ taken, Inquires taken r (r.wakeLoop key) := by
      unfold wakeLoop
      split
      · exact continueLookup_inquires h reach.sound reach.unsigned key
      · exact ⟨[], .refl h⟩
    obtain ⟨taken, hinquires⟩ := hinquires
    exact ⟨taken, .inquired rfl hinquires.inquiries, hinquires.issued, hinquires.numbering⟩
  | _ => exact hidle rfl

/-- In every reachable state each packet has the number that was its turn. -/
theorem Reachable.numbering (reach : Reachable r) : r.Numbering := by
  refine reach.invariant_acts (fun hmade => ?_) fun {r} reach h action => ?_
  · obtain ⟨_, rfl⟩ := eq_of_make hmade
    exact ⟨rfl, nofun, fun _ ho => absurd ho (Multiset.notMem_zero _)⟩
  · obtain ⟨_, _, _, hlater⟩ := act_numbering reach h action
    exact hlater

/-! ## Runs -/

/-- Which packets are numbered on a run, in the order in which they are made. -/
inductive CreatesAlong : Router α → List Action → List (Option Origin) → Prop
  | nil (r : Router α) : CreatesAlong r [] []
  | cons {r : Router α} {action : Action} {rest : List Action}
      {first later : List (Option Origin)} : r.Creates action first →
      CreatesAlong (r.act action) rest later → CreatesAlong r (action :: rest) (first ++ later)

/-- On a run the numbers are given out action by action. -/
theorem acts_creates (reach : Reachable r) (actions : List Action) :
    ∃ taken, CreatesAlong r actions taken ∧ (r.acts actions).issued = r.issued ++ taken := by
  induction actions generalizing r with
  | nil => exact ⟨[], .nil r, (List.append_nil _).symm⟩
  | cons action rest ih =>
    obtain ⟨first, hfirst, hissued, _⟩ := act_numbering reach reach.numbering action
    obtain ⟨later, hlater, hrest⟩ := ih (reach.act action)
    refine ⟨first ++ later, .cons hfirst hlater, ?_⟩
    show ((r.act action).acts rest).issued = _
    rw [hrest, hissued, List.append_assoc]

/-- A frame that was sent has the number that its packet had as it began its way. -/
theorem Reachable.numberOf_frame (reach : Reachable r) {e : Emission} (he : e ∈ r.emissions) :
    r.numberOf e.frame = r.numberOf e.origin.frame := by
  obtain ⟨p, q, horigin, hpassed, hsendable, hframe, _⟩ := reach.sent he
  unfold numberOf
  rw [hframe, Packet.decode_encode hsendable, horigin]
  dsimp only
  rw [hpassed.source?, hpassed.sequence?]

/-- What numbers tell of the packets that a router has made on a run. -/
structure NumbersInTurn (r : Router α) (actions : List Action) : Prop where
  /-- Numbers go to the packets that are made, one after the other. -/
  created : CreatesAlong r actions (r.acts actions).issued
  /-- The next number is how many went before. -/
  next : (r.acts actions).sequence = nth (r.acts actions).issued.length
  /-- A packet has the number whose turn it was. -/
  turn : ∀ i o, (r.acts actions).issued[i]? = some (some o) →
    (r.acts actions).numberOf o.frame = some (nth i)
  /-- Two packets that were made near to each other have different numbers. -/
  apart : ∀ i j o o', i < j → j < i + 65536 → (r.acts actions).issued[i]? = some (some o) →
    (r.acts actions).issued[j]? = some (some o') →
    (r.acts actions).numberOf o.frame ≠ (r.acts actions).numberOf o'.frame
  /-- Every frame that is sent of a packet has the number of the packet. -/
  carried : ∀ e ∈ (r.acts actions).emissions, ∀ i,
    (r.acts actions).issued[i]? = some (some e.origin) →
    (r.acts actions).numberOf e.frame = some (nth i)
  /-- Every frame that is sent with a number of the router's own is of a packet that got it. -/
  earned : ∀ e ∈ (r.acts actions).emissions, ∀ n, (r.acts actions).numberOf e.frame = some n →
    ∃ i, (r.acts actions).issued[i]? = some (some e.origin) ∧ n = nth i

/-- On every run of a router from when it was made, the numbered packets that it makes on request, in
search of a station and in answer to one take the values of one counter, which comes round after
65536, in the order in which they are made, and a request that is refused for its length uses one up.
So two that are made fewer than 65536 numbers apart have different ones; and whatever is handed to
the link in the router's own name has the number with which its packet was made. -/
theorem numbers_in_turn {geometry : Geometry α} {config : Config α} {base : Timestamp}
    {position : Nat → Fix} {jitter : Nat → Nat}
    (made : make geometry config base position jitter = .ok r) (actions : List Action) :
    r.NumbersInTurn actions := by
  have reach : Reachable (r.acts actions) :=
    (Reachable.made made).leads ((leads_iff _ _).mpr ⟨actions, rfl⟩)
  have hnumbering := reach.numbering
  obtain ⟨taken, hcreates, hissued⟩ := acts_creates (.made made) actions
  have hfresh : r.issued = [] := by
    obtain ⟨_, rfl⟩ := eq_of_make made
    rfl
  rw [hfresh, List.nil_append] at hissued
  exact {
    created := hissued ▸ hcreates
    next := hnumbering.counts
    turn := hnumbering.turn
    apart := by
      intro i j o o' hless hnear ho ho' heq
      rw [hnumbering.turn i o ho, hnumbering.turn j o' ho'] at heq
      exact nth_ne hless hnear (Option.some.inj heq)
    carried := by
      intro e he i hi
      rw [reach.numberOf_frame he]
      exact hnumbering.turn i e.origin hi
    earned := by
      intro e he n hn
      rw [reach.numberOf_frame he] at hn
      have hnumbered : (r.acts actions).numberOf e.origin.frame ≠ none := by
        rw [hn]
        exact nofun
      have hknown := hnumbering.known e.origin (Multiset.mem_add.mpr
        (.inl (Multiset.mem_coe.mpr (List.mem_map_of_mem he)))) hnumbered
      obtain ⟨i, hi⟩ := List.mem_iff_getElem?.mp hknown
      refine ⟨i, hi, ?_⟩
      rw [hnumbering.turn i e.origin hi] at hn
      exact (Option.some.inj hn).symm }

/-- A letter for a station of unknown place, a request for that place, and a message to everybody;
then the station is heard, and the letter goes out. -/
def trialParked : List Action :=
  [.start, .transmit (trialRequest 12 7), .settle, .transmit trialPatient,
    .receive (trialBeacon 12 100000 10000).encode]

/-- The letter was numbered first of three packets. It is sent after the request, with that number. -/
theorem numbers_in_turn_of_parked :
    ((trial trialGeometry trialConfig).acts trialParked).issued.length = 3 ∧
      ∃ e ∈ ((trial trialGeometry trialConfig).acts trialParked).emissions.drop 1,
        ((trial trialGeometry trialConfig).acts trialParked).numberOf e.frame = some (nth 0) := by
  have hfault : trialConfig.fault?.isNone = true := by decide +kernel
  have hmade := trial_made trialGeometry (Option.isNone_iff_eq_none.mp hfault) (by decide +kernel)
  have hturn := numbers_in_turn hmade trialParked
  have hletter : ∃ e ∈ ((trial trialGeometry trialConfig).acts trialParked).emissions.drop 1,
      ((trial trialGeometry trialConfig).acts trialParked).issued[0]? = some (some e.origin) := by
    decide +kernel
  obtain ⟨e, he, hfirst⟩ := hletter
  exact ⟨by decide +kernel, e, he, hturn.carried e (List.mem_of_mem_drop he) 0 hfirst⟩

end Router

end Geocast
