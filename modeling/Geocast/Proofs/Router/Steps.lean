import Geocast.Geometry.Sphere
import Geocast.Proofs.Lookup
import Geocast.Proofs.Router.Learn
import Geocast.Proofs.Router.Passage

/-!
# Runs of a router

A `Step` is one thing that a router can be made to do from outside (an `Action`), or a millisecond
that passes; the reachable states are those that steps lead to from a router as it was made. Each
step is a row of smaller moves: forwarding, the few things that touch the table or the lookups
(`Work`), and the one that a frame adds (`Hear`). An invariant is therefore shown for moves, and
`Reachable.invariant` carries it to every reachable state; `Reachable.invariant_acts` does so for
those that hold between actions only. Which packets begin their way in a step is kept as well
(`Begins`): only the router's own, or one that the step takes in.
-/

namespace Geocast

/-- One thing that a router can be made to do, with what it is given for it. -/
inductive Action
  | start
  | stop
  | receive (frame : Bytes)
  | transmit (request : Request)
  | beacon
  | reposition (position : Nat → Fix)
  | clearStats
  | settle
  | tick
  /-- One loop that asks for a station has its turn, before any other timer. -/
  | wake (key : LookupKey)

namespace Router

variable {α : Type} [Scalar α]

/-- What one loop does when it has its turn: it goes on if it wakes up, and as long as the router
runs. -/
def wakeLoop (r : Router α) (key : LookupKey) : Router α :=
  if r.isRunning ∧ key ∈ r.lookups.woken r.now then r.continueLookup key else r

/-- One thing that a router can be made to do. -/
inductive Step : Router α → Router α → Prop
  | start (r : Router α) : Step r r.start.2
  | stop (r : Router α) : Step r r.stop
  | receive (r : Router α) (frame : Bytes) : Step r (r.receive frame).2
  | transmit (r : Router α) (q : Request) : Step r (r.transmit q).2
  | beacon (r : Router α) : Step r r.sendBeacon.2
  | reposition (r : Router α) (position : Nat → Fix) : Step r { r with position }
  | clearStats (r : Router α) : Step r { r with stats := {} }
  | settle (r : Router α) : Step r r.settle
  | tick (r : Router α) : Step r r.tick
  | wake (r : Router α) (key : LookupKey) : Step r (r.wakeLoop key)

/-- What an action makes of a router. -/
def act (r : Router α) : Action → Router α
  | .start => r.start.2
  | .stop => r.stop
  | .receive frame => (r.receive frame).2
  | .transmit request => (r.transmit request).2
  | .beacon => r.sendBeacon.2
  | .reposition position => { r with position }
  | .clearStats => { r with stats := {} }
  | .settle => r.settle
  | .tick => r.tick
  | .wake key => r.wakeLoop key

/-- The steps of a router are its actions. -/
theorem step_iff (r s : Router α) : Step r s ↔ ∃ action, s = r.act action := by
  constructor
  · intro h
    cases h with
    | start => exact ⟨.start, rfl⟩
    | stop => exact ⟨.stop, rfl⟩
    | receive frame => exact ⟨.receive frame, rfl⟩
    | transmit q => exact ⟨.transmit q, rfl⟩
    | beacon => exact ⟨.beacon, rfl⟩
    | reposition position => exact ⟨.reposition position, rfl⟩
    | clearStats => exact ⟨.clearStats, rfl⟩
    | settle => exact ⟨.settle, rfl⟩
    | tick => exact ⟨.tick, rfl⟩
    | wake key => exact ⟨.wake key, rfl⟩
  · rintro ⟨action, rfl⟩
    cases action with
    | start => exact .start r
    | stop => exact .stop r
    | receive frame => exact .receive r frame
    | transmit q => exact .transmit r q
    | beacon => exact .beacon r
    | reposition position => exact .reposition r position
    | clearStats => exact .clearStats r
    | settle => exact .settle r
    | tick => exact .tick r
    | wake key => exact .wake r key

/-- What an action makes of a router is a step. -/
theorem step_act (r : Router α) (action : Action) : Step r (r.act action) :=
  (step_iff r _).mpr ⟨action, rfl⟩

/-- Some steps, one after the other. -/
abbrev Leads : Router α → Router α → Prop := Relation.ReflTransGen Step

/-- The states that a router can come to. -/
inductive Reachable : Router α → Prop
  | made {geometry : Geometry α} {config : Config α} {base : Timestamp} {position : Nat → Fix}
      {jitter : Nat → Nat} {r : Router α} :
      make geometry config base position jitter = .ok r → Reachable r
  | step {r s : Router α} : Reachable r → Step r s → Reachable s

/-- Reachable states stay reachable however many steps are taken. -/
theorem Reachable.leads {r s : Router α} (h : Reachable r) (hsteps : Leads r s) :
    Reachable s := by
  induction hsteps with
  | refl => exact h
  | tail _ hstep ih => exact ih.step hstep

/-- The same for one action. -/
theorem Reachable.act {r : Router α} (h : Reachable r) (action : Action) :
    Reachable (r.act action) :=
  h.step (step_act r action)

/-- What holds of every router as it was made, and outlasts every action, always holds. -/
theorem Reachable.invariant_acts {I : Router α → Prop}
    (made : ∀ {geometry config base position jitter r},
      make geometry config base position jitter = .ok r → I r)
    (act : ∀ {r}, Reachable r → I r → ∀ action, I (r.act action)) {r : Router α}
    (h : Reachable r) : I r := by
  induction h with
  | made hmade => exact made hmade
  | step reach hstep ih =>
    obtain ⟨action, rfl⟩ := (step_iff _ _).mp hstep
    exact act reach ih action

/-! ## Moves -/

/-- One elementary step that looks at no arriving packet, in which a packet may begin its way if `P`
holds of it in the state in which it does. -/
inductive Work (P : Router α → Packet → Prop) : Router α → Router α → Prop
  | forward {r s : Router α} : Forward P r s → Work P r s
  | await (r : Router α) {target : Address} (d : Draft)
      (small : d.payload.length ≤ Packet.maxPayload) :
      P r (r.unresolvedPacket d small target) →
      r.table.findPosition? target r.clock = none →
      Work P r (r.await target (r.unresolvedParcel d small target)).2
  | tend (r : Router α) {lookups : LookupService} :
      r.lookups.Tends lookups → Work P r { r with lookups }
  | expire (r : Router α) {target : Address} {l : Lookup} :
      r.lookups.inFlight.get? target = some l → Work P r (r.expireLookup target)
  | sweep (r : Router α) (due : Nat) :
      Work P r { r with table := (r.table.purgeStale r.clock).2, sweepDue := due }
  | start (r : Router α) (sweepDue beaconDue beaconRound : Nat) :
      r.phase = .created → Work P r { r with phase := .running, sweepDue, beaconDue, beaconRound }
  | stop (r : Router α) : r.phase ≠ .stopped → Work P r r.stop
  | reposition (r : Router α) (position : Nat → Fix) : Work P r { r with position }
  | pass (r : Router α) : Work P r { r with now := r.now + 1 }
  | arrive (r : Router α) : Work P r r.noteArrival
  | clear (r : Router α) : Work P r { r with stats := {} }

/-- Some elementary steps, one after the other. -/
abbrev Works (P : Router α → Packet → Prop) : Router α → Router α → Prop :=
  Relation.ReflTransGen (Work P)

/-- What a packet does before it is looked at any further: the table learns of its source, and
unless the packet was seen before, the lookup for its source ends and what waited goes out. -/
inductive Hear : Router α → Router α → Prop
  | again {r s : Router α} {frame : Bytes} {a : Arrival} {n : SequenceNumber} :
      r.judge frame = .ok a → r.learn a = (some (n, .duplicate), s) → Hear r s
  | resolve {r s : Router α} {frame : Bytes} {a : Arrival}
      {check : Option (SequenceNumber × SequenceCheck)} (f : Stats → Stats) :
      r.judge frame = .ok a → r.learn a = (check, s) → (∀ n, check ≠ some (n, .duplicate)) →
      Hear r ((s.count f).resolveLookup a.source.address)

/-- One elementary step of whatever kind. -/
inductive Move (P : Router α → Packet → Prop) (r s : Router α) : Prop
  | work : Work P r s → Move P r s
  | hear : Hear r s → Move P r s

variable {P Q : Router α → Packet → Prop}

/-- Forwarding is one kind of elementary step. -/
theorem Forwards.works {r s : Router α} (h : Forwards P r s) : Works P r s :=
  Relation.ReflTransGen.mono (fun _ _ => .forward) _ _ h

theorem Work.mono {r s : Router α} (h : Work P r s) (hsubset : ∀ p, P r p → Q r p) :
    Work Q r s := by
  cases h with
  | forward h => exact .forward (h.mono hsubset)
  | await d small hbegins hunknown => exact .await r d small (hsubset _ hbegins) hunknown
  | tend htends => exact .tend r htends
  | expire hl => exact .expire r hl
  | sweep due => exact .sweep r due
  | start sweepDue beaconDue beaconRound hcreated =>
    exact .start r sweepDue beaconDue beaconRound hcreated
  | stop hrunning => exact .stop r hrunning
  | reposition position => exact .reposition r position
  | pass => exact .pass r
  | arrive => exact .arrive r
  | clear => exact .clear r

theorem Works.mono {r s : Router α} (h : Works P r s) (hsubset : ∀ m p, P m p → Q m p) :
    Works Q r s :=
  Relation.ReflTransGen.mono (fun _ _ h => h.mono (hsubset _)) _ _ h

/-! ## Timers and requests are work -/

/-- The beacon's timer sends a packet of the router's own, and is wound up again. -/
theorem fireBeacon_works (r : Router α) : Works Own r r.fireBeacon := by
  unfold fireBeacon
  split
  · exact (sendBeacon_forwards r).works.tail (.forward (.scheduleBeacon _ _ _))
  · exact .refl

/-- The sweep of the table is one elementary step, or none is due. -/
theorem fireSweep_works (r : Router α) : Works Own r r.fireSweep := by
  unfold fireSweep
  split
  · exact .single (.sweep r _)
  · exact .refl

omit [Scalar α] in
/-- Where no lookup is in flight there is none to give up. -/
theorem expireLookup_idle {r : Router α} {target : Address}
    (h : r.lookups.inFlight.get? target = none) : r.expireLookup target = r := by
  unfold expireLookup LookupService.finish?
  rw [h]
  rfl

/-- To give a lookup up is one elementary step, or none was in flight. -/
theorem expireLookup_works (r : Router α) (target : Address) :
    Works Own r (r.expireLookup target) := by
  cases hl : r.lookups.inFlight.get? target with
  | none => rw [expireLookup_idle hl]
  | some l => exact .single (.expire r hl)

/-- Only a router that was just made starts; at any other time nothing happens. -/
theorem start_works (r : Router α) : Works Own r r.start.2 := by
  unfold Router.start
  split
  · next hcreated => exact .single (.start r _ _ _ hcreated)
  · exact .refl
  · exact .refl

omit [Scalar α] in
/-- A router that was stopped does not stop once more. -/
theorem stop_of_stopped {r : Router α} (h : r.phase = .stopped) : r.stop = r := if_pos h

/-- A stop is one elementary step, unless there was one before. -/
theorem stop_works (r : Router α) : Works Own r r.stop := by
  by_cases hstopped : r.phase = .stopped
  · rw [stop_of_stopped hstopped]
  · exact .single (.stop r hstopped)

omit [Scalar α] in
/-- A loop that goes on finds its lookup ended, or asks once more, or gives its lookup up. -/
theorem continueLookup_forms (r : Router α) (key : LookupKey) :
    r.lookups.isComplete key = true ∧ r.continueLookup key =
        { r with lookups := (r.lookups.takeNotice key).endLoop key } ∨
      r.lookups.isComplete key = false ∧ r.lookups.requestsSent key < r.config.maxRequests ∧
        r.continueLookup key = { r.sendLocationRequest key.target with
          lookups := (r.lookups.recordRequest key).sleep key
            (r.now + r.config.retransmitMillis) } ∨
      r.lookups.isComplete key = false ∧ r.config.maxRequests ≤ r.lookups.requestsSent key ∧
        r.continueLookup key = { r.expireLookup key.target with
          lookups := (r.expireLookup key.target).lookups.endLoop key } := by
  unfold continueLookup
  split
  · next hcomplete => exact .inl ⟨hcomplete, rfl⟩
  · next hgoing =>
    have hgoing' := Bool.eq_false_iff.mpr hgoing
    split
    · next hmore => exact .inr (.inl ⟨hgoing', hmore, rfl⟩)
    · next hall => exact .inr (.inr ⟨hgoing', Nat.le_of_not_lt hall, rfl⟩)

omit [Scalar α] in
/-- When a lookup was given up, none is in flight for its station. -/
theorem expireLookup_get? (r : Router α) (target : Address) :
    (r.expireLookup target).lookups.inFlight.get? target = none := by
  unfold expireLookup LookupService.finish?
  cases hl : r.lookups.inFlight.get? target with
  | none => exact hl
  | some l => exact AddressMap.get?_erase_self _ _

/-- Each of the three things that a loop does when it wakes up is made of elementary steps. -/
theorem continueLookup_works (r : Router α) (key : LookupKey) :
    Works Own r (r.continueLookup key) := by
  rcases r.continueLookup_forms key with ⟨hcomplete, heq⟩ | ⟨_, _, heq⟩ | ⟨_, _, heq⟩
  · rw [heq]
    exact .single (.tend r (.late hcomplete))
  · rw [heq]
    exact (sendLocationRequest_forwards r key.target).works.tail (.tend _ (.ask key _))
  · have hnone : (r.expireLookup key.target).lookups.flying? key = none := by
      unfold LookupService.flying?
      rw [expireLookup_get?]
      rfl
    rw [heq]
    exact (expireLookup_works r key.target).tail (.tend _ (.leave hnone))

/-- So is the turn of all loops that wake up at once. -/
theorem continueLookups_works (r : Router α) (keys : List LookupKey) :
    Works Own r (keys.foldl continueLookup r) := by
  induction keys generalizing r with
  | nil => exact .refl
  | cons key rest ih => exact (continueLookup_works r key).trans (ih _)

/-- And that of one of them. -/
theorem wakeLoop_works (r : Router α) (key : LookupKey) : Works Own r (r.wakeLoop key) := by
  unfold wakeLoop
  split
  · exact continueLookup_works r key
  · exact .refl

/-- The timers that are due are worked off in their order: contention, sweep, beacon and
lookups. -/
theorem settle_works (r : Router α) : Works Own r r.settle := by
  unfold settle
  split
  · have hswept : Works Own r r.fireContention.fireSweep :=
      .head (.forward (.fireContention r)) (fireSweep_works _)
    exact (hswept.trans (fireBeacon_works _)).trans (continueLookups_works _ _)
  · exact .refl

/-- What begins its way when a request is served is as the request has it. -/
theorem transmit_works (r : Router α) (q : Request) :
    Works (Drafted (r.draft q)) r (r.transmit q).2 := by
  rcases transmit_cases r q with ⟨h, _⟩ | ⟨target, small, _, hunknown, heq⟩
  · exact h.works
  · rw [heq]
    exact .single (.await r (r.draft q) small
      (unresolvedPacket_drafted r (maxHops_draft r q) small target) hunknown)

/-! ## What arrives -/

/-- A packet goes on its way unless it was seen before. At most it is counted as reordered. -/
theorem process_forms (r : Router α) (a : Arrival) :
    (∃ n s, r.learn a = (some (n, .duplicate), s) ∧
      r.process a = (.drop (.duplicatePacket a.source.address n),
        s.overhear (a.source.address, n))) ∨
    ∃ check s f, (∀ c : Stats, f c = { c with reordered := (f c).reordered }) ∧
      r.learn a = (check, s) ∧ (∀ n, check ≠ some (n, .duplicate)) ∧
      r.process a = (s.count f).accept a := by
  unfold process
  split
  · next n s heq => exact .inl ⟨n, s, heq, rfl⟩
  · next n s heq =>
    exact .inr ⟨_, s, fun c => { c with reordered := c.reordered + 1 }, fun _ => rfl, heq, by simp,
      rfl⟩
  · next check s hdup _ heq =>
    refine .inr ⟨check, s, id, fun _ => rfl, heq, fun n h => ?_, rfl⟩
    subst h
    exact hdup n rfl

theorem process_cases (r : Router α) (a : Arrival) :
    (∃ n s, r.learn a = (some (n, .duplicate), s) ∧
      r.process a = (.drop (.duplicatePacket a.source.address n),
        s.overhear (a.source.address, n))) ∨
    ∃ check s f, r.learn a = (check, s) ∧ (∀ n, check ≠ some (n, .duplicate)) ∧
      r.process a = (s.count f).accept a :=
  (process_forms r a).imp_right fun ⟨check, s, f, _, h⟩ => ⟨check, s, f, h⟩

/-- A router that has taken note of a frame and counted it. -/
def arrived (r : Router α) : Router α :=
  r.noteArrival.count fun s => { s with packetsReceived := s.packetsReceived + 1 }

theorem tally_forward (r : Router α) (outcome : ReceiveOutcome) :
    Forward P r (r.tally outcome) := by
  refine .count r _ fun c => ?_
  split <;> rfl

omit [Scalar α] in
theorem running_iff (r : Router α) : r.refusal? = none ↔ r.phase = .running := by
  unfold refusal?
  cases r.phase <;> simp

theorem receive_of_judge {r : Router α} {frame : Bytes} {a : Arrival}
    (hrunning : r.phase = .running) (hjudge : r.judge frame = .ok a) :
    r.receive frame =
      ((r.arrived.process a).1, (r.arrived.process a).2.tally (r.arrived.process a).1) := by
  have hrefusal : r.noteArrival.refusal? = none := (running_iff r).mpr hrunning
  have hjudge' : r.arrived.judge frame = .ok a := hjudge
  unfold arrived at hjudge' ⊢
  unfold receive
  simp only [hrefusal, hjudge']

/-- A running router drops a frame that is not worth a closer look. -/
theorem receive_of_judge_error {r : Router α} {frame : Bytes} {e : RoutingError}
    (hrunning : r.phase = .running) (hjudge : r.judge frame = .error e) :
    r.receive frame = (.drop e, r.arrived.tally (.drop e)) := by
  have hrefusal : r.noteArrival.refusal? = none := (running_iff r).mpr hrunning
  have hjudge' : r.arrived.judge frame = .error e := hjudge
  unfold arrived at hjudge' ⊢
  unfold receive
  simp only [hrefusal, hjudge']

/-- To count a frame as received is a step that touches the counters only. -/
theorem arrived_forward (r : Router α) : Forward P r.noteArrival r.arrived :=
  .count _ (fun s => { s with packetsReceived := s.packetsReceived + 1 }) fun _ => rfl

/-- Only a running router looks at a frame, and only at one that is worth it. -/
theorem receive_cases (r : Router α) (frame : Bytes) :
    (Forwards Own r.noteArrival (r.receive frame).2 ∧ ∃ e, (r.receive frame).1 = .drop e) ∨
    ∃ a, r.phase = .running ∧ r.judge frame = .ok a := by
  cases hrefusal : r.noteArrival.refusal? with
  | some e =>
    have heq : r.receive frame = (.drop e, r.noteArrival.tally (.drop e)) := by
      unfold receive
      simp only [hrefusal]
    rw [heq]
    exact .inl ⟨.single (tally_forward _ _), e, rfl⟩
  | none =>
    cases hjudge : r.judge frame with
    | ok a => exact .inr ⟨a, (running_iff r).mp hrefusal, rfl⟩
    | error e =>
      rw [receive_of_judge_error ((running_iff r).mp hrefusal) hjudge]
      exact .inl ⟨.tail (.single (arrived_forward r)) (tally_forward _ _), e, rfl⟩

/-- The end of a lookup takes no time, counts no frame and neither starts nor stops the router. -/
theorem resolveLookup_kept (r : Router α) (target : Address) :
    (r.resolveLookup target).now = r.now ∧ (r.resolveLookup target).arrivals = r.arrivals ∧
      (r.resolveLookup target).phase = r.phase := by
  unfold resolveLookup
  split
  · exact ⟨rfl, rfl, rfl⟩
  · exact ⟨(release_alike _ .lookup _).now, (release_alike _ .lookup _).arrivals,
      (release_alike _ .lookup _).phase⟩

/-- Nor does what is done for a packet before it is looked at any further. -/
theorem Hear.kept {r s : Router α} (h : Hear r s) :
    s.now = r.now ∧ s.arrivals = r.arrivals ∧ s.phase = r.phase := by
  cases h with
  | again _ hlearn =>
    obtain ⟨table, rfl⟩ := eq_of_learn hlearn
    exact ⟨rfl, rfl, rfl⟩
  | resolve f _ hlearn _ =>
    obtain ⟨table, rfl⟩ := eq_of_learn hlearn
    exact resolveLookup_kept _ _

/-- The packets that begin their way when a router takes in a frame: its own, or that of the frame,
passed on in the same instant, before another frame comes in. -/
def Upon (r : Router α) (frame : Bytes) (m : Router α) (p : Packet) : Prop :=
  m.Own p ∨ ∃ a, r.phase = .running ∧ r.judge frame = .ok a ∧ m.now = r.now ∧
    m.arrivals = r.arrivals + 1 ∧ m.PassesOn a p

/-- A frame is forwarding, with at most one packet heard among it. -/
theorem receive_forms (r : Router α) (frame : Bytes) :
    ∃ s t, Forwards (r.Upon frame) r.noteArrival s ∧ (s = t ∨ Hear s t) ∧
      Forwards (r.Upon frame) t (r.receive frame).2 := by
  rcases receive_cases r frame with ⟨h, _⟩ | ⟨a, hrunning, hjudge⟩
  · exact ⟨r.noteArrival, _, .refl, .inl rfl, h.mono fun _ _ _ => .inl⟩
  · -- the frame is counted, its packet is heard, and all that follows is forwarding
    rw [receive_of_judge hrunning hjudge]
    rcases process_cases r.arrived a with
      ⟨n, s, hlearn, hprocess⟩ | ⟨_, s, f, hlearn, hnew, hprocess⟩
    · rw [hprocess]
      exact ⟨r.arrived, s, .single (arrived_forward r), .inr (.again hjudge hlearn),
        .tail (.single (.overhear s _))
          (tally_forward _ (.drop (.duplicatePacket a.source.address n)))⟩
    · have hhear : Hear r.arrived ((s.count f).resolveLookup a.source.address) :=
        .resolve f hjudge hlearn hnew
      have hupon : Forwards (r.Upon frame) ((s.count f).resolveLookup a.source.address)
          ((s.count f).accept a).2 :=
        (accept_forwards (s.count f) (sendable_of_judge hjudge)).mono fun m p hm hp =>
          hp.imp id fun hp => ⟨a, hrunning, hjudge, hm.now.trans hhear.kept.1,
            hm.arrivals.trans hhear.kept.2.1, hp⟩
      rw [hprocess]
      exact ⟨r.arrived, _, .single (arrived_forward r), .inr hhear, hupon.tail (tally_forward _ _)⟩

/-- A frame is a row of moves. -/
theorem receive_moves (r : Router α) (frame : Bytes) :
    Relation.ReflTransGen (Move (r.Upon frame)) r (r.receive frame).2 := by
  have hforwards {s t : Router α} (h : Forwards (r.Upon frame) s t) :
      Relation.ReflTransGen (Move (r.Upon frame)) s t :=
    Relation.ReflTransGen.mono (fun _ _ => .work) _ _ h.works
  obtain ⟨s, t, hbefore, hheard, hafter⟩ := receive_forms r frame
  refine .head (.work (.arrive r)) ((hforwards hbefore).trans (.trans ?_ (hforwards hafter)))
  rcases hheard with rfl | hheard
  · exact .refl
  · exact .single (.hear hheard)

theorem Move.mono {r s : Router α} (h : Move P r s) (hsubset : ∀ p, P r p → Q r p) :
    Move Q r s := by
  cases h with
  | work h => exact .work (h.mono hsubset)
  | hear h => exact .hear h

/-- The packets that begin their way in an action: a request has its own as it asks for it, a frame
brings its own, and all others are the router's. -/
def Draws (r : Router α) : Action → Router α → Packet → Prop
  | .receive frame => r.Upon frame
  | .transmit q => Drafted (r.draft q)
  | _ => Own

/-- Each action is a row of moves, in which no packet begins its way that should not. -/
theorem act_moves (r : Router α) (action : Action) :
    Relation.ReflTransGen (Move (r.Draws action)) r (r.act action) := by
  have hworks {P : Router α → Packet → Prop} {m t : Router α} (h : Works P m t) :
      Relation.ReflTransGen (Move P) m t :=
    Relation.ReflTransGen.mono (fun _ _ => .work) _ _ h
  cases action with
  | start => exact hworks (start_works r)
  | stop => exact hworks (stop_works r)
  | receive frame => exact receive_moves r frame
  | transmit q => exact hworks (transmit_works r q)
  | beacon => exact hworks (sendBeacon_forwards r).works
  | reposition position => exact hworks (.single (.reposition r position))
  | clearStats => exact hworks (.single (.clear r))
  | settle => exact hworks (settle_works r)
  | tick => exact hworks (.head (.pass r) (settle_works _))
  | wake key => exact hworks (wakeLoop_works r key)

/-- The packets that begin their way while `r` becomes `s`: the router's own, or that of a frame
which it takes in. -/
def Begins (r s m : Router α) (p : Packet) : Prop :=
  m.Own p ∨ ∃ frame, s = (r.receive frame).2 ∧ r.Upon frame m p

/-- Every step is a row of moves, in which the packets begin their way that may. -/
theorem Step.moves {r s : Router α} (h : Step r s) :
    Relation.ReflTransGen (Move (r.Begins s)) r s := by
  obtain ⟨action, rfl⟩ := (step_iff r s).mp h
  refine Relation.ReflTransGen.mono (fun m _ hmove => hmove.mono fun p hp => ?_) _ _
    (act_moves r action)
  cases action with
  | receive frame => exact .inr ⟨frame, rfl, hp⟩
  | transmit q => exact .inl hp.toOwn
  | _ => exact .inl hp

/-- What holds of every router as it was made, and outlasts every move, always holds. -/
theorem Reachable.invariant {I : Router α → Prop}
    (made : ∀ {geometry config base position jitter r},
      make geometry config base position jitter = .ok r → I r)
    (move : ∀ {P r s}, Move P r s → I r → I s) {r : Router α} (h : Reachable r) : I r := by
  induction h with
  | made h => exact made h
  | @step r s _ hstep ih =>
    have hmoves := hstep.moves
    clear hstep
    generalize r.Begins s = P at hmoves
    induction hmoves with
    | refl => exact ih
    | tail _ hmove ih => exact move hmove ih

/-- The states that a router passes through, in the middle of a step as well as between steps. -/
def Passing (m : Router α) : Prop :=
  ∃ r P, Reachable r ∧ Relation.ReflTransGen (Move P) r m

/-- A reachable state is passed through. -/
theorem Reachable.passing {r : Router α} (h : Reachable r) : Passing r :=
  ⟨r, fun _ _ => True, h, .refl⟩

/-- What holds of every router as it was made, and outlasts every move, holds amid steps too. -/
theorem Passing.invariant {I : Router α → Prop}
    (made : ∀ {geometry config base position jitter r},
      make geometry config base position jitter = .ok r → I r)
    (move : ∀ {P r s}, Move P r s → I r → I s) {m : Router α} (h : Passing m) : I m := by
  obtain ⟨r, P, reach, hmoves⟩ := h
  induction hmoves with
  | refl => exact reach.invariant made move
  | tail _ hmove ih => exact move hmove ih

/-- A router that was made has the settings that it was made with, and knows and holds nothing. -/
theorem eq_of_make {geometry : Geometry α} {config : Config α} {base : Timestamp}
    {position : Nat → Fix} {jitter : Nat → Nat} {r : Router α}
    (h : make geometry config base position jitter = .ok r) :
    config.fault? = none ∧ r = {
      config, geometry, base, position, jitter
      table := .make config.address config.tableLifetimeMillis
      queues := {
        broadcastCapacity := config.broadcastCapacity
        unicastCapacity := config.unicastCapacity
        lookupCapacity := config.lookupCapacity } } := by
  unfold make PacketQueues.ofCapacities? at h
  split at h
  · exact absurd h (by simp)
  · next hfault =>
    split at h
    · exact absurd h (by simp)
    · next queues hqueues =>
      split at hqueues
      · obtain rfl := Option.some.inj hqueues
        exact ⟨hfault, (Except.ok.inj h).symm⟩
      · exact absurd hqueues (by simp)

/-- What no move lessens is not lessened by many. -/
theorem le_of_moves {f : Router α → Nat} (move : ∀ {r s : Router α}, Move P r s → f r ≤ f s)
    {r s : Router α} (h : Relation.ReflTransGen (Move P) r s) : f r ≤ f s := by
  induction h with
  | refl => exact Nat.le_refl _
  | tail _ hmove ih => exact Nat.le_trans ih (move hmove)

/-- What no move lessens is not lessened on the way. -/
theorem Leads.le_of_moves {f : Router α → Nat}
    (move : ∀ {P : Router α → Packet → Prop} {r s : Router α}, Move P r s → f r ≤ f s)
    {r s : Router α} (h : Leads r s) : f r ≤ f s := by
  induction h with
  | refl => exact Nat.le_refl _
  | tail _ hstep ih => exact Nat.le_trans ih (Router.le_of_moves move hstep.moves)

/-- Time passes a millisecond at a time. -/
theorem leads_advance (r : Router α) (millis : Nat) : Leads r (r.advance millis) := by
  induction millis generalizing r with
  | zero => exact .refl
  | succ millis ih => exact .head (.tick r) (ih _)

/-- A command is a row of steps. -/
theorem leads_execute (r : Router α) (c : Command) : Leads r (r.execute c).2 := by
  cases c with
  | start => exact .single (.start r)
  | stop => exact .single (.stop r)
  | receive frame => exact .single (.receive r frame)
  | transmit q => exact .single (.transmit r q)
  | beacon => exact .single (.beacon r)
  | advance millis => exact leads_advance r millis
  | move position => exact .single (.reposition r position)
  | clearStats => exact .single (.clearStats r)

/-- And so is a command with the timers that are due after it. -/
theorem leads_perform (r : Router α) (c : Command) : Leads r (r.perform c).2 :=
  (leads_execute r c).tail (.settle _)

/-- A run leads from reachable states to reachable ones. -/
theorem leads_run (r : Router α) (commands : List Command) : Leads r (r.run commands) := by
  unfold run
  induction commands generalizing r with
  | nil => exact .refl
  | cons c rest ih => exact (leads_perform r c).trans (ih _)

/-! ## A router to try things on -/

/-- A router as it was made at the stamp 100000. -/
def trial (geometry : Geometry α) (config : Config α) : Router α where
  config := config
  geometry := geometry
  base := ⟨100000⟩
  position := fun _ => {}
  table := .make config.address config.tableLifetimeMillis
  queues := {
    broadcastCapacity := config.broadcastCapacity
    unicastCapacity := config.unicastCapacity
    lookupCapacity := config.lookupCapacity }

/-- Such a router once it is started. -/
def trialStarted (geometry : Geometry α) (config : Config α) : Router α :=
  (trial geometry config).start.2

/-- Such a router is made for all settings that are valid. -/
theorem trial_made (geometry : Geometry α) {config : Config α} (hfault : config.fault? = none)
    (hroom : config.broadcastCapacity ≤ PacketQueues.maxBroadcast) :
    make geometry config ⟨100000⟩ (fun _ => {}) (fun _ => 0) = .ok (trial geometry config) := by
  unfold make PacketQueues.ofCapacities?
  rw [hfault, if_pos hroom]
  rfl

/-- And it can be started. -/
theorem trialStarted_reachable (geometry : Geometry α) {config : Config α}
    (hfault : config.fault? = none)
    (hroom : config.broadcastCapacity ≤ PacketQueues.maxBroadcast) :
    Reachable (trialStarted geometry config) :=
  .step (.made (trial_made geometry hfault hroom)) (.start _)

/-- The standard settings with an address, and without beacons. -/
def trialConfig : Config Float :=
  { Config.standard with address := ⟨0x14, 0, ⟨2, 0, 0, 0, 0, 10⟩⟩, beaconEnabled := false }

/-- Distances along the equator only, which need no trigonometry. -/
def trialGeometry : Geometry Float :=
  { Sphere.geometry with
    distance := fun p q => Float.ofInt (p.longitude.toInt - q.longitude.toInt).natAbs }

/-- Another station, told apart by the last octet of its address. -/
def trialStation (octet : UInt8) : Address := ⟨0x14, 0, ⟨2, 0, 0, 0, 0, octet⟩⟩

/-- By which such a station announces itself. -/
def trialPosition (octet : UInt8) (stamp : UInt32) (longitude : Int32) : LongPosition where
  address := trialStation octet
  timestamp := ⟨stamp⟩
  point := ⟨0, longitude⟩
  accurate := true

/-- Its speed fits into the field of the frame. -/
theorem trialPosition_compact (octet : UInt8) (stamp : UInt32) (longitude : Int32) :
    (trialPosition octet stamp longitude).Compact := by
  have hspeed : LongPosition.minSpeed ≤ (0 : Int16).toInt ∧
      (0 : Int16).toInt ≤ LongPosition.maxSpeed := by decide
  exact hspeed

/-- The beacon of such a station. -/
def trialBeacon (octet : UInt8) (stamp : UInt32) (longitude : Int32) : Packet where
  basic := { lifetime := ⟨0xf1⟩, remainingHops := 1 }
  common := { type := .beacon, mobile := true, maxHops := 1 }
  extended := .beacon (trialPosition octet stamp longitude)
  payload := []
  fits := rfl
  declared := rfl

/-- The beacon can be read back from the frame that it goes out in. -/
theorem decode_trialBeacon (octet : UInt8) (stamp : UInt32) (longitude : Int32) :
    Packet.decode (trialBeacon octet stamp longitude).encode =
      .ok (trialBeacon octet stamp longitude) := by
  refine Packet.decode_encode ⟨UInt8.le_refl _, nofun, UInt8.le_refl _, fun v hv => ?_⟩
  obtain rfl := Option.some.inj hv
  exact trialPosition_compact octet stamp longitude

/-- A packet of such a station for everybody within some hops, which came over another one. -/
def trialPacket (octet : UInt8) (stamp : UInt32) (longitude : Int32) : Packet where
  basic := { lifetime := ⟨0xf1⟩, remainingHops := 3 }
  common := {
    next := .btpB
    type := .topologicalBroadcast
    mobile := true
    payloadLength := 1
    maxHops := 5 }
  extended := .topological { sequence := ⟨7⟩, source := trialPosition octet stamp longitude }
  payload := [0xaa]
  fits := rfl
  declared := rfl

/-- As can the packet. -/
theorem decode_trialPacket (octet : UInt8) (stamp : UInt32) (longitude : Int32) :
    Packet.decode (trialPacket octet stamp longitude).encode =
      .ok (trialPacket octet stamp longitude) := by
  have hhops : (3 : UInt8) ≤ 5 := by decide
  refine Packet.decode_encode ⟨UInt8.le_refl _, nofun, hhops, fun v hv => ?_⟩
  obtain rfl := Option.some.inj hv
  exact trialPosition_compact octet stamp longitude

/-- A request to send a byte to such a station. -/
def trialRequest (octet : UInt8) (byte : UInt8) : Request :=
  { destination := .station (trialStation octet), payload := [byte] }

/-- These settings are valid. -/
theorem trialConfig_reachable (geometry : Geometry Float) :
    Reachable (trialStarted geometry trialConfig) := by
  have hfault : trialConfig.fault?.isNone = true := by decide +kernel
  exact trialStarted_reachable geometry (Option.isNone_iff_eq_none.mp hfault) (by decide +kernel)

/-- A request that everybody within some hops be told, as soon as there is a neighbour. -/
def trialPatient : Request :=
  { destination := .topological, payload := [1], trafficClass := ⟨128⟩ }

/-- A router to try things on once it has done what it was told and such a message waits. -/
def trialWaiting (commands : List Command) : Router Float :=
  ((trialStarted trialGeometry trialConfig).run commands).run [.transmit trialPatient]

/-- Whatever it was told before, a router with such a message is a reachable one. -/
theorem trialWaiting_reachable (commands : List Command) : Reachable (trialWaiting commands) :=
  ((trialConfig_reachable trialGeometry).leads (leads_run _ _)).leads (leads_run _ _)

end Router

end Geocast
