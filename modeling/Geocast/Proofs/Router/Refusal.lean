import Geocast.Proofs.Router.Reception
import Mathlib.Order.WellFounded

/-!
# What a router refuses

A frame can be bad in itself, whatever the router knows: it does not decode, names no source, comes
from the router, or has no hops left. Such a frame is dropped for the first of these flaws, and
leaves no trace but in the counters (`flawed_dropped`). A lookup is refused by a router that stopped
after it took the packet for the lookup, and then nothing of either is left
(`startLookup_of_refusal`). A request to send is refused by a router that does not run, and for a
payload that no packet can carry; nothing later on the way of a packet of the router's own can fail,
its lookup included, so a request that is refused has no effect, but that it may use up a number
(`transmit_refused_iff`).
-/

namespace Geocast

/-- What can be wrong with a frame in itself. -/
inductive Flaw
  | undecodable (cause : PacketError)
  | sourceless
  | own
  | exhausted
deriving DecidableEq, Repr

namespace Flaw

/-- The place of a flaw in the order in which flaws are looked for. -/
def rank : Flaw → Nat
  | undecodable _ => 0
  | sourceless => 1
  | own => 2
  | exhausted => 3

/-- For what a frame with a flaw is dropped. -/
def error : Flaw → RoutingError
  | undecodable .securedUnsupported => .unsupportedSecurity
  | undecodable cause => .malformedPacket cause
  | sourceless => .malformedPacket (.invalidType PacketType.any.codes.1)
  | own => .ownPacket
  | exhausted => .hopLimitExhausted

/-- Whether a frame with a flaw counts as malformed. -/
def isMalformed : Flaw → Bool
  | undecodable _ | sourceless => true
  | own | exhausted => false

end Flaw

/-- Only packets of the type for anything name no source. -/
theorem Packet.source?_eq_none_iff (p : Packet) : p.source? = none ↔ p.common.type = .any := by
  have hfits := p.fits
  unfold Packet.source? Extended.source?
  cases hextended : p.extended <;> cases htype : p.common.type <;>
    simp_all [Extended.fits]

namespace Router

variable {α : Type}

/-- A frame has a flaw. -/
def HasFlaw (r : Router α) (frame : Bytes) : Flaw → Prop
  | .undecodable cause => Packet.decode frame = .error cause
  | .sourceless => ∃ p, Packet.decode frame = .ok p ∧ p.common.type = .any
  | .own => ∃ p v, Packet.decode frame = .ok p ∧ p.source? = some v ∧ v.address = r.config.address
  | .exhausted => ∃ p, Packet.decode frame = .ok p ∧ p.basic.remainingHops = 0

/-- The first flaw of a frame. -/
structure FirstFlaw (r : Router α) (frame : Bytes) (flaw : Flaw) : Prop where
  has : r.HasFlaw frame flaw
  first : ∀ other, r.HasFlaw frame other → flaw.rank ≤ other.rank

variable {r : Router α} {frame : Bytes}

theorem exists_firstFlaw (h : ∃ flaw, r.HasFlaw frame flaw) : ∃ flaw, r.FirstFlaw frame flaw := by
  obtain ⟨flaw, hhas, hfirst⟩ :=
    (measure Flaw.rank).wf.has_min {flaw | r.HasFlaw frame flaw} h
  exact ⟨flaw, hhas, fun other hother => Nat.le_of_not_lt (hfirst other hother)⟩

/-- A frame is judged by its first flaw. -/
theorem FirstFlaw.judge {flaw : Flaw} (h : r.FirstFlaw frame flaw) :
    r.judge frame = .error flaw.error := by
  obtain ⟨hhas, hfirst⟩ := h
  unfold Router.judge
  cases flaw with
  | undecodable cause =>
    rw [show Packet.decode frame = .error cause from hhas]
    cases cause <;> rfl
  | sourceless =>
    obtain ⟨p, hdecode, htype⟩ := hhas
    rw [hdecode]
    dsimp only
    rw [p.source?_eq_none_iff.mpr htype]
    rfl
  | own =>
    obtain ⟨p, v, hdecode, hsource, hown⟩ := hhas
    rw [hdecode]
    dsimp only
    rw [hsource]
    dsimp only
    rw [if_pos hown]
    rfl
  | exhausted =>
    obtain ⟨p, hdecode, hhops⟩ := hhas
    rw [hdecode]
    dsimp only
    cases hsource : p.source? with
    | none =>
      have hle := hfirst .sourceless ⟨p, hdecode, p.source?_eq_none_iff.mp hsource⟩
      exact absurd hle (by decide)
    | some v =>
      have hforeign : v.address ≠ r.config.address := fun hown =>
        absurd (hfirst .own ⟨p, v, hdecode, hsource, hown⟩) (by decide)
      dsimp only
      rw [if_neg hforeign, if_pos hhops]
      rfl

variable [Scalar α]

/-- A running router drops a frame that is bad in itself, for the first of its flaws. But for the
counters of frames that came, were dropped and were malformed, and the number of the frame, the
router is as it was: nothing is sent, and table, queues, timers, lookups, handles and the number of
the next packet are the same. -/
theorem flawed_dropped (hrunning : r.phase = .running) (hflawed : ∃ flaw, r.HasFlaw frame flaw) :
    ∃ flaw, r.HasFlaw frame flaw ∧ (∀ other, r.HasFlaw frame other → flaw.rank ≤ other.rank) ∧
      r.receive frame = (.drop flaw.error, { r with
        arrivals := r.arrivals + 1
        stats := { r.stats with
          packetsReceived := r.stats.packetsReceived + 1
          packetsDropped := r.stats.packetsDropped + 1
          malformed := r.stats.malformed + flaw.isMalformed.toNat } }) := by
  obtain ⟨flaw, hflaw⟩ := exists_firstFlaw hflawed
  refine ⟨flaw, hflaw.has, hflaw.first, ?_⟩
  rw [receive_of_judge_error hrunning hflaw.judge]
  cases flaw with
  | undecodable cause => cases cause <;> rfl
  | sourceless => rfl
  | own => rfl
  | exhausted => rfl

/-- A beacon in the router's own name is dropped as its own. -/
theorem flawed_dropped_of_own :
    (trialStarted trialGeometry trialConfig).phase = .running ∧
      (trialStarted trialGeometry trialConfig).receive (trialBeacon 10 100000 0).encode =
        (.drop .ownPacket, { trialStarted trialGeometry trialConfig with
          arrivals := 1
          stats := { packetsReceived := 1, packetsDropped := 1 } }) := by
  have hdecode := decode_trialBeacon 10 100000 0
  have hflawed : ∃ flaw, (trialStarted trialGeometry trialConfig).HasFlaw
      (trialBeacon 10 100000 0).encode flaw := ⟨.own, _, _, hdecode, rfl, rfl⟩
  obtain ⟨flaw, hhas, _, heq⟩ := flawed_dropped rfl hflawed
  refine ⟨rfl, heq.trans ?_⟩
  cases flaw with
  | undecodable cause => exact nomatch hdecode.symm.trans hhas
  | sourceless =>
    obtain ⟨p, hdecode', htype⟩ := hhas
    obtain rfl := Except.ok.inj (hdecode.symm.trans hdecode')
    exact nomatch htype
  | own => rfl
  | exhausted =>
    obtain ⟨p, hdecode', hhops⟩ := hhas
    obtain rfl := Except.ok.inj (hdecode.symm.trans hdecode')
    exact absurd hhops (by decide)

/-! ## Lookups that begin too late -/

/-- What is left when a lookup that began too late was given up: neither the lookup nor a loop of it,
and nothing that waits for the station. All else is as it was. -/
structure Withdrawn (r : Router α) (a : Address) (s : Router α) : Prop where
  idle : s.lookups.inFlight.get? a = none
  others : ∀ b, b ≠ a → s.lookups.inFlight.get? b = r.lookups.inFlight.get? b
  loops : s.lookups.loops = r.lookups.loops
  empty : s.queues.queue .lookup a = []
  waiting : ∀ kind b, kind ≠ .lookup ∨ b ≠ a → s.queues.queue kind b = r.queues.queue kind b
  rest : s = { r with lookups := s.lookups, queues := s.queues }

omit [Scalar α] in
theorem abortLookup_eq {a : Address} {l : Lookup} (h : r.lookups.inFlight.get? a = some l) :
    r.abortLookup a = { r with
      lookups := { r.lookups with
        inFlight := r.lookups.inFlight.erase a
        ended := l.finished .aborted :: r.lookups.ended }
      queues := r.queues.drop .lookup (some a)
      completions := r.completions ++ l.waiters.map (⟨·, .error .shuttingDown⟩) } := by
  unfold abortLookup LookupService.finish?
  rw [h]
  rfl

omit [Scalar α] in
/-- A lookup that begins after the router has stopped is given up at once. -/
theorem startLookup_of_refusal {e : RoutingError} (hrefusal : r.refusal? = some e) {a : Address}
    (hidle : r.lookups.isPending a = false) :
    (r.startLookup a).1 = .error e ∧ r.Withdrawn a (r.startLookup a).2 := by
  have hbegin : r.lookups.begin? a = some (r.fresh a, { r.lookups with
      inFlight := r.lookups.inFlight.insert a (r.fresh a)
      started := r.lookups.started + 1 }) := if_neg (Bool.eq_false_iff.mp hidle)
  unfold startLookup
  rw [hbegin]
  dsimp only
  rw [hrefusal]
  dsimp only
  rw [abortLookup_eq (AddressMap.get?_insert_self _ _ _)]
  exact ⟨rfl, {
    idle := AddressMap.get?_erase_self _ _
    others := by
      intro b hb
      show ((r.lookups.inFlight.insert a (r.fresh a)).erase a).get? b = _
      rw [AddressMap.get?_erase_of_ne _ hb, AddressMap.get?_insert_of_ne _ _ hb]
    loops := rfl
    empty := by
      show ((r.queues.lookup.erase a).get? a).getD [] = []
      rw [AddressMap.get?_erase_self]
      rfl
    waiting := by
      intro kind b hother
      cases kind with
      | broadcast => rfl
      | unicast => rfl
      | lookup =>
        have hb : b ≠ a := hother.resolve_left fun hkind => hkind rfl
        show ((r.queues.lookup.erase a).get? b).getD [] = _
        rw [AddressMap.get?_erase_of_ne _ hb]
        rfl
    -- nobody waits for a lookup that has just begun
    rest := congrArg (fun completions => ({ r with
      lookups := { r.lookups with
        inFlight := (r.lookups.inFlight.insert a (r.fresh a)).erase a
        ended := (r.fresh a).finished .aborted :: r.lookups.ended
        started := r.lookups.started + 1 }
      queues := r.queues.drop .lookup (some a)
      completions } : Router α)) (List.append_nil r.completions) }⟩

omit [Scalar α] in
/-- To start a lookup fails exactly where a new one would begin and the router does not serve. -/
theorem startLookup_refused_iff (r : Router α) (a : Address) (e : RoutingError) :
    (r.startLookup a).1 = .error e ↔ r.refusal? = some e ∧ r.lookups.isPending a = false := by
  cases hpending : r.lookups.isPending a with
  | true =>
    have hnone : r.lookups.begin? a = none := if_pos hpending
    unfold startLookup
    rw [hnone]
    simp
  | false =>
    cases hrefusal : r.refusal? with
    | some e' =>
      rw [(startLookup_of_refusal hrefusal hpending).1]
      simp
    | none =>
      rw [startLookup_of_serves hrefusal]
      simp

/-! ## Requests to send -/

/-- Why a request to send is refused. -/
inductive Declines (r : Router α) (q : Request) : RoutingError → Prop
  | notRunning : r.phase = .created → Declines r q .notRunning
  | shuttingDown : r.phase = .stopped → Declines r q .shuttingDown
  | tooLarge : r.phase = .running → 65535 < q.payload.length →
      Declines r q (.malformedPacket (.payloadTooLarge q.payload.length))

omit [Scalar α] in
theorem declines_iff (r : Router α) (q : Request) (e : RoutingError) :
    r.Declines q e ↔ r.refusal? = some e ∨ r.refusal? = none ∧
      Packet.maxPayload < q.payload.length ∧
        e = .malformedPacket (.payloadTooLarge q.payload.length) := by
  constructor
  · intro h
    cases h with
    | notRunning hcreated => exact .inl (by rw [refusal?, hcreated])
    | shuttingDown hstopped => exact .inl (by rw [refusal?, hstopped])
    | tooLarge hrunning hlarge => exact .inr ⟨(running_iff r).mpr hrunning, hlarge, rfl⟩
  · rintro (hrefusal | ⟨hserves, hlarge, rfl⟩)
    · unfold refusal? at hrefusal
      split at hrefusal
      · next hcreated => exact Option.some.inj hrefusal ▸ .notRunning hcreated
      · exact nomatch hrefusal
      · next hstopped => exact Option.some.inj hrefusal ▸ .shuttingDown hstopped
    · exact .tooLarge ((running_iff r).mp hserves) hlarge

/-- A request to send is refused exactly by a router that does not run and for a payload of more
than 65535 octets, and then the router is as it was, but that the number of the next packet may have
been used up: nothing is sent, and table, queues, timers, lookups, handles and counters are the
same. -/
theorem transmit_refused_iff (r : Router α) (q : Request) :
    (∀ e, (r.transmit q).1 = .error e ↔ r.Declines q e) ∧
      ((r.transmit q).1.isOk = true ∨ ∃ e s, r.transmit q = (.error e, s) ∧
        (s = r ∨ s = { r with sequence := r.sequence.next, issued := r.issued ++ [none] })) := by
  -- whatever is decided for a packet of the router's own, it is sent or kept
  have hserved {result : Except RoutingError TransmitOutcome} (hserves : r.refusal? = none)
      (small : q.payload.length ≤ Packet.maxPayload) (hok : result.isOk = true) (e : RoutingError) :
      result = .error e ↔ r.Declines q e := by
    rw [declines_iff, hserves]
    refine iff_of_false (fun herror => ?_) fun h => ?_
    · rw [herror] at hok
      exact absurd hok Bool.false_ne_true
    · rcases h with hrefusal | ⟨_, hlarge, _⟩
      · exact nomatch hrefusal
      · exact absurd small (Nat.not_le_of_lt hlarge)
  have hserves := transmit_serves r q
  generalize r.transmit q = done at hserves ⊢
  cases hserves with
  | @refused e hrefusal =>
    refine ⟨fun e' => ?_, .inr ⟨e, r, rfl, .inl rfl⟩⟩
    rw [declines_iff, hrefusal]
    simp
  | tooLarge hserves hlarge =>
    refine ⟨fun e => ?_, .inr ⟨_, _, rfl, ?_⟩⟩
    · rw [declines_iff, hserves]
      simp [hlarge, eq_comm]
    · split
      · exact .inr rfl
      · exact .inl rfl
  | @dispatched p s decision outlet destination hserves small _ _ hprompt _ _ =>
    have hok := dispatch_isOk (r := s) ((Plan.suits_false_iff decision).mpr hprompt)
      (.ofPacket p outlet destination (r.originNow p))
    exact ⟨hserved hserves small hok, .inl hok⟩
  | awaited small hserves _ _ _ => exact ⟨hserved hserves small rfl, .inl rfl⟩

end Router

end Geocast
