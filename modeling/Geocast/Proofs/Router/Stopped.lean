import Geocast.Proofs.Router.Background
import Geocast.Proofs.Router.Fate

/-!
# Routers that were stopped

Nothing that can be done to a router that was stopped changes more than its clock, its place and its
counters (`Leads.still`), and a loop that wakes up late does no more than sweep its table
(`wake_still`). Nothing waits in it (`Reachable.emptied`), and whoever waited when it was stopped has
been told (`Reachable.stop_told`).
-/

namespace Geocast.Router

variable {α : Type} {r s t : Router α}

/-! ## What may change in a router that was stopped -/

/-- A router has stayed as it was in all that can be seen of it, but for its clock, its place, its
counters and its table. -/
structure Still (r s : Router α) : Prop where
  config : s.config = r.config
  phase : s.phase = r.phase
  lookups : s.lookups = r.lookups
  queues : s.queues = r.queues
  contention : s.contention = r.contention
  handles : s.handles = r.handles
  completions : s.completions = r.completions
  emissions : s.emissions = r.emissions

theorem Still.refl (r : Router α) : Still r r := by
  constructor <;> rfl

theorem Still.trans (h : Still r s) (h' : Still s t) : Still r t where
  config := h'.config.trans h.config
  phase := h'.phase.trans h.phase
  lookups := h'.lookups.trans h.lookups
  queues := h'.queues.trans h.queues
  contention := h'.contention.trans h.contention
  handles := h'.handles.trans h.handles
  completions := h'.completions.trans h.completions
  emissions := h'.emissions.trans h.emissions

/-- Its loops are those that it had. -/
theorem Still.loops (h : Still r s) : s.loops = r.loops := by
  unfold Router.loops isRunning
  rw [h.phase, h.config, h.lookups]

/-- And every transmission knows what it knew. -/
theorem Still.reports (h : Still r s) (n : Nat) : s.reports n = r.reports n := by
  unfold Router.reports
  rw [h.completions]

/-- A table that was swept some times. -/
abbrev Swept : LocationTable → LocationTable → Prop :=
  Relation.ReflTransGen fun before after => ∃ clock, after = (before.purgeStale clock).2

/-! ## What is left of a router that was stopped -/

/-- After a stop the router is a stopped one. -/
theorem stop_phase (r : Router α) : r.stop.phase = .stopped := by
  by_cases hphase : r.phase = .stopped
  · rw [stop_of_stopped hphase]
    exact hphase
  · rw [stop_eq hphase]

/-- A stop sends nothing and leaves the table alone. -/
theorem stop_emissions (r : Router α) :
    r.stop.emissions = r.emissions ∧ r.stop.table = r.table := by
  by_cases hphase : r.phase = .stopped
  · rw [stop_of_stopped hphase]
    exact ⟨rfl, rfl⟩
  · rw [stop_eq hphase]
    exact ⟨rfl, rfl⟩

/-- Nothing waits in a router: no packet in a queue or on a timer, no lookup for an answer, and no
loop for its time. -/
structure Emptied (r : Router α) : Prop where
  queues : ∀ kind a, r.queues.length kind a = 0
  contention : r.contention.size = 0
  lookups : r.lookups.size = 0
  loops : r.lookups.loops = []

theorem Emptied.still (h : Emptied r) (hstill : Still r s) : Emptied s where
  queues := by
    intro kind a
    rw [hstill.queues]
    exact h.queues kind a
  contention := by
    rw [hstill.contention]
    exact h.contention
  lookups := by
    rw [hstill.lookups]
    exact h.lookups
  loops := by
    rw [hstill.lookups]
    exact h.loops

/-- When nothing waits, no transmission does. -/
theorem Emptied.waiters (h : Emptied r) (a : Address) : r.waiters a = [] := by
  have hnone : r.lookups.inFlight.toList = [] := List.length_eq_zero_iff.mp h.lookups
  unfold Router.waiters AddressMap.get?
  rw [hnone]
  rfl

/-- The first stop empties every queue, takes every timer and ends every lookup. -/
theorem emptied_of_stop (hphase : r.phase ≠ .stopped) : Emptied r.stop := by
  rw [stop_eq hphase]
  refine ⟨fun kind a => ?_, rfl, rfl, rfl⟩
  cases kind <;> cases a <;> rfl

/-! ## What a stopped router can be made to do -/

variable [Scalar α]

/-- A router refuses to do anything because it was stopped. -/
structure Refuses (r : Router α) : Prop where
  receive : ∀ frame, (r.receive frame).1 = .drop .shuttingDown
  transmit : ∀ q, (r.transmit q).1 = .error .shuttingDown
  beacon : r.sendBeacon.1 = .error .shuttingDown
  start : r.start.1 = .error .shuttingDown

omit [Scalar α] in
theorem refusal_of_stopped (h : r.phase = .stopped) : r.refusal? = some .shuttingDown := by
  unfold refusal?
  rw [h]

/-- A stopped router counts a frame and drops it unread. -/
theorem receive_of_stopped (h : r.phase = .stopped) (frame : Bytes) :
    r.receive frame = (.drop .shuttingDown, r.noteArrival.tally (.drop .shuttingDown)) := by
  have hrefusal : r.noteArrival.refusal? = some .shuttingDown := refusal_of_stopped h
  unfold receive
  simp only [hrefusal]

/-- It refuses requests. -/
theorem transmit_of_stopped (h : r.phase = .stopped) (q : Request) :
    r.transmit q = (.error .shuttingDown, r) := by
  unfold transmit
  simp only [refusal_of_stopped h]

omit [Scalar α] in
/-- It refuses to announce itself. -/
theorem sendBeacon_of_stopped (h : r.phase = .stopped) :
    r.sendBeacon = (.error .shuttingDown, r) := by
  unfold sendBeacon
  simp only [refusal_of_stopped h]

omit [Scalar α] in
/-- It refuses to start again. -/
theorem start_of_stopped (h : r.phase = .stopped) : r.start = (.error .shuttingDown, r) := by
  unfold Router.start
  simp only [h]

/-- That is all that can be asked of it. -/
theorem refuses_of_stopped (h : r.phase = .stopped) : Refuses r where
  receive := by
    intro frame
    rw [receive_of_stopped h frame]
  transmit := by
    intro q
    rw [transmit_of_stopped h q]
  beacon := by rw [sendBeacon_of_stopped h]
  start := by rw [start_of_stopped h]

/-- Nothing that a stopped router can be made to do leaves a trace. -/
theorem act_still (h : r.phase = .stopped) (action : Action) :
    Still r (r.act action) ∧ (r.act action).table = r.table := by
  have hsame (heq : r.act action = r) :
      Still r (r.act action) ∧ (r.act action).table = r.table := by
    rw [heq]
    exact ⟨.refl r, rfl⟩
  -- no timer acts in a router that was stopped
  have hsettle {s : Router α} (hs : s.phase = .stopped) : s.settle = s :=
    settle_of_not_running (by simp [hs])
  cases action with
  | start => exact hsame (congrArg Prod.snd (start_of_stopped h))
  | stop => exact hsame (stop_of_stopped h)
  | receive frame =>
    show Still r (r.receive frame).2 ∧ (r.receive frame).2.table = r.table
    rw [receive_of_stopped h]
    exact ⟨⟨rfl, rfl, rfl, rfl, rfl, rfl, rfl, rfl⟩, rfl⟩
  | transmit q => exact hsame (congrArg Prod.snd (transmit_of_stopped h q))
  | beacon => exact hsame (congrArg Prod.snd (sendBeacon_of_stopped h))
  | reposition position => exact ⟨⟨rfl, rfl, rfl, rfl, rfl, rfl, rfl, rfl⟩, rfl⟩
  | clearStats => exact ⟨⟨rfl, rfl, rfl, rfl, rfl, rfl, rfl, rfl⟩, rfl⟩
  | settle => exact hsame (hsettle h)
  | tick =>
    have htick : r.act .tick = { r with now := r.now + 1 } := hsettle h
    rw [htick]
    exact ⟨⟨rfl, rfl, rfl, rfl, rfl, rfl, rfl, rfl⟩, rfl⟩
  | wake key =>
    have hhalted : ¬r.isRunning = true := by simp [isRunning, h]
    exact hsame (if_neg fun hwakes => hhalted hwakes.1)

/-- However many steps follow, a stopped router does nothing more. -/
theorem Leads.still (h : Leads r s) (hphase : r.phase = .stopped) :
    Still r s ∧ s.table = r.table := by
  induction h with
  | refl => exact ⟨.refl r, rfl⟩
  | tail _ hstep ih =>
    obtain ⟨action, rfl⟩ := (step_iff _ _).mp hstep
    obtain ⟨hstill, htable⟩ := ih
    obtain ⟨hstill', htable'⟩ := act_still (hstill.phase.trans hphase) action
    exact ⟨hstill.trans hstill', htable'.trans htable⟩

omit [Scalar α] in
/-- A loop that wakes up although the router was stopped does no more than sweep the table. -/
theorem wake_still (h : r.phase = .stopped) (loop : Loop) :
    Still r (r.wake loop) ∧ Swept r.table (r.wake loop).table := by
  cases loop with
  | contention => exact ⟨.refl r, .refl⟩
  | sweep =>
    show Still r r.fireSweep ∧ Swept r.table r.fireSweep.table
    unfold fireSweep
    split
    · exact ⟨⟨rfl, rfl, rfl, rfl, rfl, rfl, rfl, rfl⟩, .single ⟨r.clock, rfl⟩⟩
    · exact ⟨.refl r, .refl⟩
  | beacon =>
    -- the beacon itself is refused
    show Still r r.fireBeacon ∧ Swept r.table r.fireBeacon.table
    unfold fireBeacon
    rw [sendBeacon_of_stopped h]
    split
    · exact ⟨⟨rfl, rfl, rfl, rfl, rfl, rfl, rfl, rfl⟩, .refl⟩
    · exact ⟨.refl r, .refl⟩
  | lookup key => exact ⟨.refl r, .refl⟩

/-- A router comes to be stopped only by being told so. -/
theorem act_phase {action : Action} (hother : action ≠ .stop) :
    (r.act action).phase = r.phase ∨ (r.act action).phase = .running := by
  cases action with
  | start =>
    show r.start.2.phase = r.phase ∨ r.start.2.phase = .running
    unfold Router.start
    split
    · exact .inr rfl
    · exact .inl rfl
    · exact .inl rfl
  | stop => exact absurd rfl hother
  | receive frame =>
    -- a frame is forwarding with one packet heard among it, and neither starts or stops
    obtain ⟨m, m', hbefore, hheard, hafter⟩ := receive_forms r frame
    have hphase : m'.phase = m.phase := by
      rcases hheard with rfl | hheard
      · rfl
      · exact hheard.kept.2.2
    exact .inl (hafter.alike.phase.trans (hphase.trans hbefore.alike.phase))
  | transmit q =>
    refine .inl ?_
    show (r.transmit q).2.phase = r.phase
    rcases transmit_cases r q with ⟨hforwards, _⟩ | ⟨target, small, _, _, heq⟩
    · exact hforwards.alike.phase
    · rw [heq]
      exact (await_awaited r target (r.unresolvedParcel (r.draft q) small target)).2.phase
  | beacon => exact .inl (sendBeacon_forwards r).alike.phase
  | reposition position => exact .inl rfl
  | clearStats => exact .inl rfl
  | settle => exact .inl (settle_kept r).2
  | tick => exact .inl (settle_kept { r with now := r.now + 1 }).2
  | wake key =>
    refine .inl ?_
    show (r.wakeLoop key).phase = r.phase
    unfold wakeLoop
    split
    · exact (continueLookup_kept r key).2.2.1
    · rfl

/-- Nothing waits in a router that was stopped, whenever that was. -/
theorem Reachable.emptied (reach : Reachable r) (hphase : r.phase = .stopped) : Emptied r := by
  refine reach.invariant_acts (I := fun r => r.phase = .stopped → Emptied r)
    (fun hmade hphase => ?_) (fun {r} _ ih action hphase => ?_) hphase
  · obtain ⟨_, rfl⟩ := eq_of_make hmade
    exact absurd hphase (by simp)
  · by_cases hstopped : r.phase = .stopped
    · exact (ih hstopped).still (act_still hstopped action).1
    · by_cases haction : action = .stop
      · subst haction
        exact emptied_of_stop hstopped
      · rcases act_phase (r := r) haction with hsame | hrunning
        · exact absurd (hsame.symm.trans hphase) hstopped
        · exact absurd (hrunning.symm.trans hphase) (by simp)

/-- After a stop nothing waits in any router, whether or not it was stopped before. -/
theorem Reachable.stop_emptied (reach : Reachable r) : Emptied r.stop :=
  (reach.step (.stop r)).emptied (stop_phase r)

/-! ## What transmissions are told -/

/-- Every transmission with a handle waits, or has been told how it ended. -/
def Informed (r : Router α) : Prop :=
  ∀ n, n < r.handles → (∃ a, n ∈ r.waiters a) ∨ r.reports n ≠ []

omit [Scalar α] in
/-- A transmission that stops waiting is told how it ended. -/
theorem Concludes.informed {outcome : LookupOutcome} {ended : List Address}
    (h : Concludes outcome ended r s) (hline : InLine r) (hinformed : Informed r) :
    Informed s := by
  intro n hn
  rw [h.handles] at hn
  rcases hinformed n hn with ⟨a, hwaits⟩ | htold
  · by_cases ha : a ∈ ended
    · refine .inr ?_
      rw [h.reports_of_waits hline hwaits ha]
      simp
    · refine .inl ⟨a, ?_⟩
      rw [h.waiters a ha]
      exact hwaits
  · refine .inr ?_
    unfold Router.reports at htold ⊢
    rw [h.told, List.filter_append, List.map_append]
    simp [htold]

/-- One that begins to wait does wait. -/
theorem Joins.informed {q : Request} {target : Address} (h : Joins r q target s)
    (hinformed : Informed r) : Informed s := by
  intro n hn
  rw [h.handles] at hn
  by_cases hlast : n = r.handles
  · refine .inl ⟨target, ?_⟩
    rw [h.waiters, if_pos rfl, hlast]
    simp
  · rcases hinformed n (by omega) with ⟨a, hwaits⟩ | htold
    · refine .inl ⟨a, ?_⟩
      rw [h.waiters]
      split
      · next heq => exact List.mem_append_left _ (heq ▸ hwaits)
      · exact hwaits
    · refine .inr ?_
      unfold Router.reports at htold ⊢
      rwa [h.completions]

/-- No transmission with a handle is ever forgotten. -/
theorem Reachable.informed (reach : Reachable r) : Informed r := by
  refine reach.invariant_acts (fun hmade => ?_) fun {r} reach h action => ?_
  · obtain ⟨_, rfl⟩ := eq_of_make hmade
    intro n hn
    exact absurd hn (Nat.not_lt_zero n)
  · by_cases hclear : action = .clearStats
    · subst hclear
      exact h
    · rcases act_concludes reach.tended hclear with ⟨_, hconcludes, _⟩ | ⟨_, _, _, hjoins⟩
      · exact hconcludes.informed reach.orderly.inLine h
      · exact hjoins.informed h

/-- Whoever has been told nothing when the router stops is told so then. -/
theorem Reachable.stop_told (reach : Reachable r) {n : Nat} (hn : n < r.handles)
    (hnone : r.reports n = []) : r.stop.reports n = [.error .shuttingDown] := by
  obtain ⟨ended, hconcludes⟩ := stop_concludes r
  obtain ⟨a, hwaits⟩ := (reach.informed n hn).resolve_right fun htold => htold hnone
  have ha : a ∈ ended := by
    by_contra habsent
    have hsame := hconcludes.waiters a habsent
    rw [reach.stop_emptied.waiters a] at hsame
    rw [← hsame] at hwaits
    exact absurd hwaits List.not_mem_nil
  rw [hconcludes.reports_of_waits reach.orderly.inLine hwaits ha, hnone]
  rfl

/-- Whoever has been told is told nothing more. -/
theorem Reachable.stop_kept (reach : Reachable r) {n : Nat} (htold : r.reports n ≠ []) :
    r.stop.reports n = r.reports n := by
  obtain ⟨ended, hconcludes⟩ := stop_concludes r
  refine hconcludes.reports_of_absent fun a _ hwaits => htold ?_
  rw [reports_eq_nil_iff]
  intro c hc heq
  exact (reach.told c hc).2 a (heq ▸ hwaits)

end Geocast.Router
