import Geocast.Proofs.Router.Stopped

/-!
# Stopping

To stop a router, its loops are told so and waited for, and then lookups, queues and timers are
cleared, one after the other (`Closing`). A loop may just be awake, or wake up because its time has
come, time may pass, and others may call the router all the while. Nothing comes of all this but a
last sweep of the table (`Closing.Undisturbed`), so that the router comes to be as `stop` makes it.
`stop_final` says how that is, and that nothing changes any more.
-/

namespace Geocast

/-- How far the clean-up of a router that stops has come: its loops are waited for, its lookups were
given up, its queues were cleared, its timers too. -/
inductive Stage
  | joining | aborted | cleared | closed

namespace Router

variable {α : Type} {r s : Router α}

/-! ## The clean-up -/

/-- Lets the loops of a router know that they have to end. None of them will have its turn again: what
they do from now on is said by `Closing`. -/
def halt (r : Router α) : Router α :=
  { r with phase := .stopped, lookups := r.lookups.joinLoops }

/-- Gives up all lookups, and tells those who wait. -/
def abortLookups (r : Router α) : Router α :=
  let (aborted, lookups) := r.lookups.abortAll
  { aborted.foldl (fun r l => r.complete l.waiters (l.report .aborted)) r with lookups }

/-- Drops all packets that wait in queues. -/
def clearQueues (r : Router α) : Router α := { r with queues := r.queues.clear.2 }

/-- Drops all packets on contention timers. -/
def clearContention (r : Router α) : Router α := { r with contention := {} }

/-- What a router that nobody disturbs is at each stage of its clean-up. -/
def stoppedAt (r : Router α) : Stage → Router α
  | .joining => r.halt
  | .aborted => r.halt.abortLookups
  | .cleared => r.halt.abortLookups.clearQueues
  | .closed => r.halt.abortLookups.clearQueues.clearContention

/-- What giving up all lookups tells and counts, at once. -/
theorem abortLookups_eq (r : Router α) : r.abortLookups = { r with
    completions := r.completions ++
      r.lookups.inFlight.values.flatMap fun l => l.waiters.map (⟨·, .error .shuttingDown⟩)
    lookups := r.lookups.abortAll.2 } := by
  unfold abortLookups LookupService.abortAll
  dsimp only
  rw [complete_foldl]
  rfl

/-- That is how a router stops. -/
theorem stop_eq_stoppedAt (hphase : r.phase ≠ .stopped) : r.stop = r.stoppedAt .closed := by
  rw [stop_eq hphase]
  unfold stoppedAt clearContention clearQueues
  rw [abortLookups_eq]
  rfl

/-- At every stage of its clean-up the router counts as stopped. -/
theorem stoppedAt_phase (r : Router α) (stage : Stage) : (r.stoppedAt stage).phase = .stopped := by
  cases stage <;> simp only [stoppedAt, clearContention, clearQueues, abortLookups_eq, halt]

theorem Still.abortLookups (h : Still r s) : Still r.abortLookups s.abortLookups := by
  rw [abortLookups_eq, abortLookups_eq]
  exact {
    config := h.config
    phase := h.phase
    lookups := congrArg (·.abortAll.2) h.lookups
    queues := h.queues
    contention := h.contention
    handles := h.handles
    completions := by
      show s.completions ++ _ = r.completions ++ _
      rw [h.completions, h.lookups]
    emissions := h.emissions }

theorem Still.clearQueues (h : Still r s) : Still r.clearQueues s.clearQueues :=
  { h with queues := congrArg (·.clear.2) h.queues }

theorem Still.clearContention (h : Still r s) : Still r.clearContention s.clearContention :=
  { h with contention := rfl }

/-! ## How a router is stopped -/

variable [Scalar α]

/-- A loop at work: it waits for its time, or it is awake and about to look whether the router still
runs. -/
structure Worker where
  loop : Loop
  awake : Bool

/-- How many steps a loop takes until it ends, once the router does not run any more. -/
def Worker.left (w : Worker) : Nat := if w.awake then 1 else 2

/-- A router that is being stopped, the loops that have not ended, and how far the clean-up has
come. -/
structure Closing (α : Type) where
  router : Router α
  workers : List Worker
  stage : Stage

omit [Scalar α] in
/-- A router that was just told to stop, with some loops at work. -/
def closing (r : Router α) (workers : List Worker) : Closing α := ⟨r.halt, workers, .joining⟩

namespace Closing

variable {workers : List Worker} {c d : Closing α}

/-- How many steps all loops take until they end. -/
def effort (c : Closing α) : Nat := (c.workers.map Worker.left).sum

omit [Scalar α] in
/-- One step of one loop. -/
inductive LoopStep : Closing α → Closing α → Prop
  /-- Its time has come. -/
  | wake (r : Router α) (before after : List Worker) (loop : Loop) (stage : Stage) :
      LoopStep ⟨r, before ++ ⟨loop, false⟩ :: after, stage⟩
        ⟨r.wake loop, before ++ ⟨loop, true⟩ :: after, stage⟩
  /-- It was told to look whether the router still runs. -/
  | call (r : Router α) (before after : List Worker) (loop : Loop) (stage : Stage) :
      LoopStep ⟨r, before ++ ⟨loop, false⟩ :: after, stage⟩
        ⟨r, before ++ ⟨loop, true⟩ :: after, stage⟩
  /-- The router still runs. -/
  | serve {r : Router α} (before after : List Worker) (loop : Loop) (stage : Stage) :
      r.isRunning = true →
      LoopStep ⟨r, before ++ ⟨loop, true⟩ :: after, stage⟩
        ⟨r.serve loop, before ++ ⟨loop, false⟩ :: after, stage⟩
  /-- The router does not run any more. -/
  | quit {r : Router α} (before after : List Worker) (loop : Loop) (stage : Stage) :
      r.isRunning = false →
      LoopStep ⟨r, before ++ ⟨loop, true⟩ :: after, stage⟩ ⟨r, before ++ after, stage⟩

/-- What can happen while a router is being stopped. -/
inductive Step : Closing α → Closing α → Prop
  | loop {c d : Closing α} : LoopStep c d → Step c d
  /-- Time passes, or somebody calls the router, from which new loops may come. -/
  | meanwhile {r s : Router α} (workers : List Worker) (stage : Stage) : Router.Step r s →
      Step ⟨r, workers, stage⟩
        ⟨s, workers ++ (s.loops.filter (· ∉ r.loops)).map (⟨·, true⟩), stage⟩
  /-- All loops have ended, and the lookups are given up. -/
  | abort (r : Router α) : Step ⟨r, [], .joining⟩ ⟨r.abortLookups, [], .aborted⟩
  | clear (r : Router α) (workers : List Worker) :
      Step ⟨r, workers, .aborted⟩ ⟨r.clearQueues, workers, .cleared⟩
  | finish (r : Router α) (workers : List Worker) :
      Step ⟨r, workers, .cleared⟩ ⟨r.clearContention, workers, .closed⟩

/-- Some of that, one thing after the other. -/
abbrev Leads : Closing α → Closing α → Prop := Relation.ReflTransGen Step

/-! ## The loops end -/

omit [Scalar α] in
/-- As long as there is a loop, some loop takes a step. -/
theorem exists_loopStep (h : c.workers ≠ []) : ∃ d, LoopStep c d := by
  obtain ⟨r, workers, stage⟩ := c
  obtain ⟨⟨loop, awake⟩, rest, rfl⟩ := List.exists_cons_of_ne_nil h
  cases awake with
  | false => exact ⟨_, .call r [] rest loop stage⟩
  | true =>
    cases hruns : r.isRunning with
    | true => exact ⟨_, .serve [] rest loop stage hruns⟩
    | false => exact ⟨_, .quit [] rest loop stage hruns⟩

omit [Scalar α] in
/-- Each step of a loop brings it nearer to its end, once the router does not run. -/
theorem LoopStep.effort_lt (h : LoopStep c d) (hruns : c.router.isRunning = false) :
    d.effort < c.effort := by
  cases h with
  | wake => simp [effort, Worker.left]
  | call => simp [effort, Worker.left]
  | serve _ _ _ _ hrunning => exact absurd (hrunning.symm.trans hruns) (by simp)
  | quit => simp [effort, Worker.left]

/-! ## Nothing is noticed of a stop -/

/-- A router that is being stopped is as if nobody had disturbed it, but for sweeps of the table. -/
structure Undisturbed (r : Router α) (c : Closing α) : Prop where
  still : Still (r.stoppedAt c.stage) c.router
  swept : Swept r.table c.router.table
  ended : c.stage ≠ .joining → c.workers = []

omit [Scalar α] in
/-- A router that is being stopped counts as stopped. -/
theorem Undisturbed.phase (h : Undisturbed r c) : c.router.phase = .stopped :=
  h.still.phase.trans (stoppedAt_phase r c.stage)

omit [Scalar α] in
theorem Undisturbed.halted (h : Undisturbed r c) : c.router.isRunning = false := by
  unfold isRunning
  simp [h.phase]

omit [Scalar α] in
/-- A loop that is at its end disturbs nothing but the table. -/
theorem Undisturbed.loopStep (h : Undisturbed r c) (hloop : LoopStep c d) : Undisturbed r d := by
  cases hloop with
  | wake m before after loop stage =>
    obtain ⟨hstill, hswept⟩ := wake_still h.phase loop
    exact ⟨h.still.trans hstill, h.swept.trans hswept,
      fun hstage => absurd (h.ended hstage) (by simp)⟩
  | call m before after loop stage =>
    exact ⟨h.still, h.swept, fun hstage => absurd (h.ended hstage) (by simp)⟩
  | serve before after loop stage hrunning =>
    exact absurd (hrunning.symm.trans h.halted) (by simp)
  | quit before after loop stage hhalted =>
    exact ⟨h.still, h.swept, fun hstage => absurd (h.ended hstage) (by simp)⟩

/-- No loop comes to a router that is being stopped. -/
theorem Undisturbed.step (h : Undisturbed r c) (hstep : Step c d) :
    Undisturbed r d ∧ d.effort ≤ c.effort := by
  cases hstep with
  | loop hloop => exact ⟨h.loopStep hloop, Nat.le_of_lt (hloop.effort_lt h.halted)⟩
  | @meanwhile m m' workers stage hstep =>
    obtain ⟨hstill, htable⟩ := Router.Leads.still (.single hstep) h.phase
    have hnone : m'.loops.filter (· ∉ m.loops) = [] := by
      rw [hstill.loops, List.filter_eq_nil_iff]
      intro loop hloop
      simp [hloop]
    rw [hnone, List.map_nil, List.append_nil]
    exact ⟨⟨h.still.trans hstill, htable ▸ h.swept, h.ended⟩, Nat.le_refl _⟩
  | abort m =>
    exact ⟨⟨h.still.abortLookups, abortLookups_eq m ▸ h.swept, fun _ => rfl⟩, Nat.le_refl _⟩
  | clear m workers =>
    exact ⟨⟨h.still.clearQueues, h.swept, fun _ => h.ended (by simp)⟩, Nat.le_refl _⟩
  | finish m workers =>
    exact ⟨⟨h.still.clearContention, h.swept, fun _ => h.ended (by simp)⟩, Nat.le_refl _⟩

/-- Nor does anything that can happen meanwhile, by induction on what happens. -/
theorem Leads.undisturbed (h : Leads (r.closing workers) c) : Undisturbed r c := by
  induction h with
  | refl => exact ⟨.refl _, .refl, fun hstage => absurd rfl hstage⟩
  | tail _ hstep ih => exact (ih.step hstep).1

/-- All loops can end without doing anything. -/
theorem leads_joined {m : Router α} (hruns : m.isRunning = false) (workers : List Worker)
    (stage : Stage) : Leads ⟨m, workers, stage⟩ ⟨m, [], stage⟩ := by
  induction workers with
  | nil => exact .refl
  | cons w rest ih =>
    obtain ⟨loop, awake⟩ := w
    have hquit : Leads ⟨m, ⟨loop, true⟩ :: rest, stage⟩ ⟨m, [], stage⟩ :=
      .head (.loop (.quit [] rest loop stage hruns)) ih
    cases awake with
    | true => exact hquit
    | false => exact .head (.loop (.call m [] rest loop stage)) hquit

/-- If no loop does anything and nobody calls the router, it stops so. -/
theorem leads_stop (hphase : r.phase ≠ .stopped) (workers : List Worker) :
    Leads (r.closing workers) ⟨r.stop, [], .closed⟩ := by
  have hjoined : Leads (r.closing workers) ⟨r.halt, [], .joining⟩ := leads_joined rfl _ _
  rw [stop_eq_stoppedAt hphase]
  exact ((hjoined.tail (.abort _)).tail (.clear _ _)).tail (.finish _ _)

end Closing

/-! ## Stopping is final -/

/-- A router `r` has been stopped and has become `s`: nothing waits any more and no loop is left,
whoever waited has been told, no frame was sent, and nothing will ever change. -/
structure Finished (r s : Router α) : Prop where
  emptied : Emptied s
  loops : s.loops = []
  told : ∀ n, n < r.handles → r.reports n = [] → s.reports n = [.error .shuttingDown]
  kept : ∀ n, r.reports n ≠ [] → s.reports n = r.reports n
  emissions : s.emissions = r.emissions
  table : Swept r.table s.table
  forever : ∀ t, Leads s t → Still s t ∧ t.table = s.table ∧ t.loops = [] ∧ Refuses t

/-- What is as the stopped router, but for sweeps of its table, has been stopped. -/
theorem Still.finished (h : Still r.stop s) (reach : Reachable r)
    (hswept : Swept r.table s.table) : Finished r s := by
  have hphase : s.phase = .stopped := h.phase.trans (stop_phase r)
  have hemptied : Emptied s := reach.stop_emptied.still h
  have hloops : s.loops = [] := loops_eq_nil (by simp [hphase]) hemptied.loops
  refine ⟨hemptied, hloops, ?_, ?_, h.emissions.trans (stop_emissions r).1, hswept, ?_⟩
  · intro n hn hnone
    rw [h.reports]
    exact reach.stop_told hn hnone
  · intro n htold
    rw [h.reports]
    exact reach.stop_kept htold
  · intro t hleads
    obtain ⟨hstill, htable⟩ := hleads.still hphase
    have hrefuses : Refuses t := refuses_of_stopped (hstill.phase.trans hphase)
    exact ⟨hstill, htable, hstill.loops.trans hloops, hrefuses⟩

/-- To stop a router is final. What works in its background until then are its loops, which have
their turns when timers act. It is told to stop while some loops wait for their time and some are
awake. From then on their steps and whatever else happens may come in any order. As long as there is
a loop, some loop takes a step, each such step brings the end nearer and nothing puts it off, and
when the clean-up is over, no loop is left and the router is as `Finished` says. If no loop does
anything more and nobody calls the router, it is as `stop` makes it. -/
theorem stop_final (reach : Reachable r) :
    r.settle = r.loops.foldl turn r ∧
    Finished r r.stop ∧
    (r.phase ≠ .stopped → ∀ workers,
      Closing.Leads (r.closing workers) ⟨r.stop, [], .closed⟩ ∧
      ∀ c, Closing.Leads (r.closing workers) c →
        (c.workers ≠ [] → ∃ d, Closing.LoopStep c d) ∧
        (∀ d, Closing.LoopStep c d → d.effort < c.effort) ∧
        (∀ d, Closing.Step c d → d.effort ≤ c.effort) ∧
        (c.stage = .closed → c.workers = [] ∧ Finished r c.router)) := by
  refine ⟨settle_eq_turns reach.tended, ?_, ?_⟩
  · have hswept : Swept r.table r.stop.table := by rw [(stop_emissions r).2]
    exact (Still.refl r.stop).finished reach hswept
  · intro hphase workers
    refine ⟨Closing.leads_stop hphase workers, fun c hleads => ?_⟩
    have hundisturbed := hleads.undisturbed
    refine ⟨Closing.exists_loopStep, fun d hloop => hloop.effort_lt hundisturbed.halted,
      fun d hstep => (hundisturbed.step hstep).2, fun hclosed => ?_⟩
    obtain ⟨hstill, hswept, hended⟩ := hundisturbed
    rw [hclosed, ← stop_eq_stoppedAt hphase] at hstill
    exact ⟨hended (by simp [hclosed]), hstill.finished reach hswept⟩

/-- A router with beacons is stopped while a message waits for a neighbour and another one for an
answer. Whether its four loops wait or are awake then, whoever waits is told, and nothing is sent
any more. -/
theorem stop_final_of_waiting :
    let config := { trialConfig with beaconEnabled := true }
    let r := (trialStarted trialGeometry config).run
      [.transmit trialPatient, .transmit (trialRequest 12 1)]
    Reachable r ∧ r.loops.length = 4 ∧ r.queues.total = 2 ∧ r.reports 0 = [] ∧
      r.stop.queues.length .lookup none = 0 ∧ (∀ t, Leads r.stop t → t.emissions = r.emissions) ∧
      ∀ awake c, Closing.Leads (r.closing (r.loops.map (⟨·, awake⟩))) c → c.stage = .closed →
        c.router.reports 0 = [.error .shuttingDown] := by
  intro config r
  have hfault : config.fault?.isNone = true := by decide +kernel
  have reach : Reachable r := (trialStarted_reachable trialGeometry
    (Option.isNone_iff_eq_none.mp hfault) (by decide +kernel)).leads (leads_run _ _)
  have hphase : r.phase ≠ .stopped := by decide +kernel
  have hissued : 0 < r.handles := by decide +kernel
  have hnone : r.reports 0 = [] := by decide +kernel
  obtain ⟨_, hfinished, hcloses⟩ := stop_final reach
  refine ⟨reach, by decide +kernel, by decide +kernel, hnone, hfinished.emptied.queues _ _, ?_, ?_⟩
  · intro t hleads
    exact (hfinished.forever t hleads).1.emissions.trans hfinished.emissions
  · intro awake c hleads hclosed
    obtain ⟨_, _, _, hend⟩ := (hcloses hphase _).2 c hleads
    exact (hend hclosed).2.told 0 hissued hnone

end Router

end Geocast
