import Geocast.Proofs.Router.Requests

/-!
# The pace of a lookup

A lookup asks at once, then after each retransmission interval, and is given up one interval after
its last request. `Paced` says where in this a lookup is at a time when all timers have acted. A
command that brings no frame of the station (`Calm`) leaves it there (`execute_keeps`), and a
millisecond takes it to the next place when it is due (`Paced.tick`), whatever else a router does at
the same time; so a run without such frames keeps its pace (`Awaits.run`).
-/

namespace Geocast.Router

variable {α : Type}

/-- The times of the first requests of a lookup, each broadcast. -/
def schedule (start interval count : Nat) : List (Nat × LinkTarget) :=
  (List.range count).map fun k => (start + k * interval, .broadcast)

/-- Each request comes one interval after the one before. -/
theorem schedule_succ (start interval count : Nat) :
    schedule start interval (count + 1) =
      schedule start interval count ++ [(start + count * interval, .broadcast)] := by
  unfold schedule
  rw [List.range_succ, List.map_append]
  rfl

/-- A command neither stops the router nor brings a frame of a station that is worth a look. -/
def Calm (r : Router α) (a : Address) : Command → Prop
  | .stop => False
  | .receive frame => ∀ arrival, r.judge frame = .ok arrival → arrival.source.address ≠ a
  | _ => True

theorem Calm.of_config {r s : Router α} {a : Address} {c : Command} (h : r.Calm a c)
    (hconfig : s.config = r.config) : s.Calm a c := by
  cases c with
  | receive frame =>
    intro arrival hjudge
    refine h arrival ?_
    unfold judge at hjudge ⊢
    rwa [hconfig] at hjudge
  | _ => exact h

/-- The lookup for a station is where it was, and no request for the station went out; but more may
wait for it. -/
structure Keeps (a : Address) (r s : Router α) : Prop where
  config : s.config = r.config
  now : s.now = r.now
  phase : s.phase = r.phase
  requests : s.requests a = r.requests a
  line : ∀ l, r.lookups.inFlight.get? a = some l →
    ∃ more, s.lookups.inFlight.get? a = some { l with waiters := l.waiters ++ more }
  loops : ∀ l, r.lookups.inFlight.get? a = some l → ∀ due,
    ⟨l.key, due⟩ ∈ r.lookups.loops → ⟨l.key, due⟩ ∈ s.lookups.loops

/-- All timers have acted, and a lookup that began at a time has asked as often as it should have by
now. Its loop sleeps until it is time to ask again. -/
structure Paced (r : Router α) (a : Address) (start : Nat) (earlier : List (Nat × LinkTarget))
    (l : Lookup) : Prop where
  running : r.phase = .running
  flying : r.lookups.inFlight.get? a = some l
  asked : 0 < l.requests
  few : l.requests ≤ r.config.maxRequests
  asleep : ⟨l.key, start + l.requests * r.config.retransmitMillis⟩ ∈ r.lookups.loops
  begun : start + l.requests * r.config.retransmitMillis ≤ r.now + r.config.retransmitMillis
  ahead : r.now < start + l.requests * r.config.retransmitMillis
  log : r.requests a = earlier ++ schedule start r.config.retransmitMillis l.requests

namespace Paced

variable {r s : Router α} {a : Address} {start : Nat} {earlier : List (Nat × LinkTarget)}
  {l : Lookup}

/-- What leaves a lookup alone leaves it on its schedule. -/
theorem keeps (h : Paced r a start earlier l) (hkeeps : Keeps a r s) :
    ∃ more, Paced s a start earlier { l with waiters := l.waiters ++ more } := by
  obtain ⟨more, hmore⟩ := hkeeps.line l h.flying
  exact ⟨more, {
    running := hkeeps.phase.trans h.running
    flying := hmore
    asked := h.asked
    few := by rw [hkeeps.config]; exact h.few
    asleep := by rw [hkeeps.config]; exact hkeeps.loops l h.flying _ h.asleep
    begun := by rw [hkeeps.config, hkeeps.now]; exact h.begun
    ahead := by rw [hkeeps.config, hkeeps.now]; exact h.ahead
    log := by rw [hkeeps.config, hkeeps.requests]; exact h.log }⟩

/-- How many requests were sent by a time. -/
theorem requests_eq (h : Paced r a start earlier l) :
    l.requests = (r.now - start) / r.config.retransmitMillis + 1 := by
  have hbegun := h.begun
  have hahead := h.ahead
  obtain ⟨k, hk⟩ := Nat.exists_eq_succ_of_ne_zero h.asked.ne'
  rw [hk, Nat.succ_mul] at hbegun hahead
  rw [hk, Nat.succ_eq_add_one]
  congr 1
  refine (Nat.div_eq_of_lt_le ?_ ?_).symm
  · omega
  · rw [Nat.succ_mul]
    omega

end Paced

variable [Scalar α] {r s : Router α} {a : Address} {start : Nat}
  {earlier : List (Nat × LinkTarget)}

theorem Reachable.valid (reach : Reachable r) : Valid r.config := by
  induction reach with
  | made hmade =>
    obtain ⟨hfault, rfl⟩ := eq_of_make hmade
    exact of_fault?_eq_none hfault
  | step _ hstep ih => exact (Leads.later (.single hstep)).config ▸ ih

/-! ## Commands -/

omit [Scalar α] in
/-- What happens to other lookups leaves this one alone. -/
theorem Apart.keeps (h : Apart a r s) : Keeps a r s where
  config := h.config
  now := h.now
  phase := h.phase
  requests := h.requests
  line := fun l hl => ⟨[], by rw [h.flight, hl, List.append_nil]⟩
  loops := fun l hl due => (h.loops l hl due).mpr

omit [Scalar α] in
theorem Keeps.refl (a : Address) (r : Router α) : Keeps a r r := (Apart.refl a r).keeps

/-- A command that lets no time pass leaves a lookup where it is. -/
theorem execute_keeps (reach : Reachable r) (hrunning : r.phase = .running) {c : Command}
    (hcalm : r.Calm a c) (hstill : ∀ millis, c ≠ .advance millis) :
    Keeps a r (r.execute c).2 := by
  -- whatever is done at once sends no request
  have hkeeps (action : Action) (huntimed : action.letsTimersAct = false)
      (hkept : (r.act action).now = r.now ∧ (r.act action).phase = r.phase)
      (hline : ∀ l, r.lookups.inFlight.get? a = some l → ∃ more,
        (r.act action).lookups.inFlight.get? a = some { l with waiters := l.waiters ++ more })
      (hloops : r.lookups.loops <+: (r.act action).lookups.loops) : Keeps a r (r.act action) := by
    have hquiets := act_quiets reach reach.prepared.hushed action huntimed
    exact {
      config := hquiets.config
      now := hkept.1
      phase := hkept.2
      requests := hquiets.requests (reach.act action).faithful a
      line := hline
      loops := fun _ _ _ hloop => hloops.subset hloop }
  have hsame {s : Router α} (h : s.lookups.inFlight.get? a = r.lookups.inFlight.get? a) (l : Lookup)
      (hl : r.lookups.inFlight.get? a = some l) :
      ∃ more, s.lookups.inFlight.get? a = some { l with waiters := l.waiters ++ more } :=
    ⟨[], by rw [h, hl, List.append_nil]⟩
  cases c with
  | start =>
    have hstarted : r.start.2 = r := by
      unfold Router.start
      rw [hrunning]
    show Keeps a r r.start.2
    rw [hstarted]
    exact .refl a r
  | stop => exact hcalm.elim
  | receive frame =>
    obtain ⟨hkept, hflight⟩ := receive_flight r frame
    refine hkeeps (.receive frame) rfl ⟨hkept.1, hkept.2.1⟩ (hsame ?_)
      (hkept.2.2 ▸ List.prefix_rfl)
    rcases hflight with hlookups | ⟨arrival, hjudge, hflight⟩
    · exact congrArg (·.inFlight.get? a) hlookups
    · show (r.receive frame).2.lookups.inFlight.get? a = _
      rw [hflight, AddressMap.get?_erase_of_ne _ (hcalm arrival hjudge).symm]
  | transmit q =>
    obtain ⟨hkept, hflight⟩ := transmit_flight r q
    refine hkeeps (.transmit q) rfl ⟨hkept.1, hkept.2.1⟩ ?_ hkept.2.2
    rcases hflight with hlookups | ⟨target, hothers, ⟨l, hl, htarget⟩, _⟩
    · exact hsame (congrArg (·.inFlight.get? a) hlookups)
    · by_cases ha : a = target
      · subst ha
        intro l' hl'
        rw [hl', Option.getD_some] at hl
        exact ⟨[r.handles], hl ▸ htarget⟩
      · exact hsame (hothers a ha)
  | beacon =>
    have halike := (sendBeacon_forwards r).alike
    exact hkeeps .beacon rfl ⟨halike.now, halike.phase⟩
      (hsame (congrArg (·.inFlight.get? a) halike.lookups))
      (halike.lookups ▸ List.prefix_rfl)
  | advance millis => exact absurd rfl (hstill millis)
  | move position => exact hkeeps (.reposition position) rfl ⟨rfl, rfl⟩ (hsame rfl) List.prefix_rfl
  | clearStats => exact hkeeps .clearStats rfl ⟨rfl, rfl⟩ (hsame rfl) List.prefix_rfl

/-! ## Timers -/

namespace Paced

variable {l : Lookup}

omit [Scalar α] in
/-- The loop of a lookup wakes up when it is time to ask again, and not before. -/
theorem early (h : Paced r a start earlier l) (htended : r.lookups.Tended) {now : Nat}
    (hearly : now < start + l.requests * r.config.retransmitMillis) (l' : Lookup)
    (hl' : r.lookups.inFlight.get? a = some l') (due : Nat)
    (hloop : ⟨l'.key, due⟩ ∈ r.lookups.loops) : now < due := by
  obtain rfl := Option.some.inj (hl'.symm.trans h.flying)
  rwa [htended.due_unique hloop h.asleep]

/-- When timers act again in the same instant, no time has come. -/
theorem settle (h : Paced r a start earlier l) (reach : Reachable r) :
    ∃ more, Paced r.settle a start earlier { l with waiters := l.waiters ++ more } := by
  refine h.keeps (settle_apart reach.prepared (reach.step (.settle r)).faithful ?_).keeps
  exact h.early reach.tended h.ahead

omit [Scalar α] in
/-- A lookup whose loop goes on asks once more if it has not sent all its requests. -/
theorem of_continued (h : Continued a l r s) (hrunning : r.phase = .running)
    (hmore : l.requests < r.config.maxRequests) (hpositive : 0 < r.config.retransmitMillis)
    (htime : r.now = start + l.requests * r.config.retransmitMillis)
    (hlog : r.requests a = earlier ++ schedule start r.config.retransmitMillis l.requests) :
    Paced s a start earlier { l with requests := l.requests + 1 } := by
  have hnext : r.nextOf l = some { l with requests := l.requests + 1 } := if_pos hmore
  -- one request more, one interval later: each field moves along by both
  have hdue : start + (l.requests + 1) * r.config.retransmitMillis =
      r.now + r.config.retransmitMillis := by
    rw [htime, Nat.succ_mul, Nat.add_assoc]
  exact {
    running := h.phase.trans hrunning
    flying := h.flight.trans hnext
    asked := Nat.succ_pos _
    few := by
      rw [h.config]
      exact hmore
    asleep := by
      rw [h.config, hdue]
      exact h.loop _ hnext
    begun := by
      rw [h.config, h.now, hdue]
    ahead := by
      rw [h.config, h.now, hdue]
      exact Nat.lt_add_of_pos_right hpositive
    log := by
      rw [h.requests, h.config, hnext, hlog, schedule_succ, ← htime, List.append_assoc]
      rfl }

/-- As long as its last interval has not passed, a millisecond takes a lookup to where it should be
then. -/
theorem tick (h : Paced r a start earlier l) (reach : Reachable r)
    (hbefore : r.now + 1 < start + r.config.maxRequests * r.config.retransmitMillis) :
    ∃ l', Paced r.tick a start earlier l' ∧ l.waiters <+: l'.waiters := by
  let m : Router α := { r with now := r.now + 1 }
  have hfaithful : Faithful m.settle := (reach.step (.tick r)).faithful
  have hahead := h.ahead
  have hbegun := h.begun
  by_cases hearly : r.now + 1 < start + l.requests * r.config.retransmitMillis
  · -- its loop still sleeps, and the others' concern other lookups
    have hapart : Apart a m m.settle :=
      settle_apart reach.prepared.pass hfaithful (h.early reach.tended hearly)
    have hpassed : Paced m a start earlier l :=
      { h with
        begun := by
          show start + l.requests * r.config.retransmitMillis ≤
            r.now + 1 + r.config.retransmitMillis
          omega
        ahead := hearly }
    obtain ⟨more, hpaced⟩ := hpassed.keeps hapart.keeps
    exact ⟨_, hpaced, List.prefix_append _ _⟩
  · -- it is time to ask again, and not the end yet
    have htime : r.now + 1 = start + l.requests * r.config.retransmitMillis := by omega
    have hmore : l.requests < r.config.maxRequests :=
      Nat.lt_of_mul_lt_mul_right (a := r.config.retransmitMillis) (by omega)
    have hcontinued : Continued a l m m.settle := settle_continued reach.prepared.pass hfaithful
      h.running h.flying h.asleep (Nat.le_of_not_lt hearly)
    exact ⟨_, of_continued hcontinued h.running hmore reach.valid.retransmit htime h.log,
      List.prefix_rfl⟩

/-- When its last interval has passed, a lookup is given up. -/
theorem tick_last (h : Paced r a start earlier l) (reach : Reachable r)
    (hlast : r.now + 1 = start + r.config.maxRequests * r.config.retransmitMillis) :
    r.tick.phase = .running ∧ r.tick.lookups.isPending a = false ∧
      r.tick.requests a =
        earlier ++ schedule start r.config.retransmitMillis r.config.maxRequests ∧
      ∀ n ∈ l.waiters, ⟨n, .error (.lookupTimeout a)⟩ ∈ r.tick.completions := by
  let m : Router α := { r with now := r.now + 1 }
  have hahead := h.ahead
  have hmost := Nat.mul_le_mul_right r.config.retransmitMillis h.few
  have hall : l.requests = r.config.maxRequests :=
    Nat.eq_of_mul_eq_mul_right reach.valid.retransmit (by omega)
  have hcontinued : Continued a l m m.settle := settle_continued reach.prepared.pass
    (reach.step (.tick r)).faithful h.running h.flying h.asleep (by
      show start + l.requests * r.config.retransmitMillis ≤ r.now + 1
      rw [hall, hlast])
  have hnone : m.nextOf l = none := if_neg (Nat.not_lt.mpr (Nat.le_of_eq hall.symm))
  refine ⟨hcontinued.phase.trans h.running, ?_, ?_, hcontinued.told hnone⟩
  · rw [Bool.eq_false_iff]
    intro hpending
    obtain ⟨l', hl'⟩ := (isPending_iff _ a).mp hpending
    exact nomatch (hcontinued.flight.trans hnone).symm.trans hl'
  · have hrequests := hcontinued.requests
    rw [hnone] at hrequests
    rw [← hall, ← h.log]
    exact hrequests.trans (List.append_nil _)

end Paced

/-! ## Runs -/

theorem tick_now (r : Router α) : r.tick.now = r.now + 1 := settle_now _

theorem advance_now (r : Router α) (millis : Nat) : (r.advance millis).now = r.now + millis := by
  induction millis generalizing r with
  | zero => rfl
  | succ millis ih =>
    show (r.tick.advance millis).now = _
    rw [ih, tick_now]
    omega

/-- A lookup is where it should be, and those still wait for it that waited before. -/
def Awaits (r : Router α) (a : Address) (start : Nat) (earlier : List (Nat × LinkTarget))
    (waiting : List Nat) : Prop :=
  ∃ l, Paced r a start earlier l ∧ waiting <+: l.waiters

namespace Awaits

variable {waiting : List Nat}

/-- When timers act the lookup is where it should be. -/
theorem settle (h : Awaits r a start earlier waiting) (reach : Reachable r) :
    Awaits r.settle a start earlier waiting := by
  obtain ⟨l, hpaced, hwaiting⟩ := h
  obtain ⟨more, hpaced'⟩ := hpaced.settle reach
  exact ⟨_, hpaced', hwaiting.trans (List.prefix_append _ _)⟩

/-- So it is after any time short of its last wait, by induction on the milliseconds. -/
theorem advance (h : Awaits r a start earlier waiting) (reach : Reachable r) (millis : Nat)
    (hbefore : r.now + millis < start + r.config.maxRequests * r.config.retransmitMillis) :
    Awaits (r.advance millis) a start earlier waiting := by
  induction millis generalizing r with
  | zero => exact h
  | succ millis ih =>
    obtain ⟨l, hpaced, hwaiting⟩ := h
    obtain ⟨l', hpaced', hwaiting'⟩ := hpaced.tick reach (by omega)
    refine ih ⟨l', hpaced', hwaiting.trans hwaiting'⟩ (reach.step (.tick r)) ?_
    rw [tick_now, (Leads.later (.single (.tick r))).config]
    omega

/-- A command leaves a lookup where it should be when the command is done. -/
theorem perform (h : Awaits r a start earlier waiting) (reach : Reachable r) {c : Command}
    (hcalm : r.Calm a c) (hbefore : (r.perform c).2.now <
      start + r.config.maxRequests * r.config.retransmitMillis) :
    Awaits (r.perform c).2 a start earlier waiting := by
  have hnow : (r.perform c).2.now = (r.execute c).2.now := settle_now _
  rw [hnow] at hbefore
  have hexecuted : Awaits (r.execute c).2 a start earlier waiting := by
    by_cases hadvance : ∃ millis, c = .advance millis
    · obtain ⟨millis, rfl⟩ := hadvance
      exact h.advance reach millis (Nat.lt_of_le_of_lt (Nat.le_of_eq (advance_now r millis).symm)
        hbefore)
    · obtain ⟨l, hpaced, hwaiting⟩ := h
      obtain ⟨more, hpaced'⟩ := hpaced.keeps (execute_keeps reach hpaced.running hcalm
        fun millis heq => hadvance ⟨millis, heq⟩)
      exact ⟨_, hpaced', hwaiting.trans (List.prefix_append _ _)⟩
  exact hexecuted.settle (reach.leads (leads_execute r c))

end Awaits

/-- While no frame of the station comes in and its last interval has not passed, a lookup stays where
it should be. -/
theorem Awaits.run {waiting : List Nat} (h : Awaits r a start earlier waiting)
    (reach : Reachable r) {commands : List Command} (hcalm : ∀ c ∈ commands, r.Calm a c)
    (hbefore : (r.run commands).now <
      start + r.config.maxRequests * r.config.retransmitMillis) :
    Awaits (r.run commands) a start earlier waiting := by
  induction commands generalizing r with
  | nil => exact h
  | cons c rest ih =>
    have hleads := leads_perform r c
    have hconfig := hleads.later.config
    have hnow := (leads_run (r.perform c).2 rest).now_le
    refine ih (h.perform reach (hcalm c List.mem_cons_self) (Nat.lt_of_le_of_lt hnow hbefore))
      (reach.leads hleads) (fun c' hc' => (hcalm c' (List.mem_cons_of_mem _ hc')).of_config hconfig)
      ?_
    rw [hconfig]
    exact hbefore

/-- A request to send that starts a lookup has it ask at once. -/
theorem awaits_of_begins (reach : Reachable r) {q : Request}
    (hidle : r.lookups.isPending a = false)
    (hbegins : (r.transmit q).2.lookups.isPending a = true) (hasks : 1 ≤ r.config.maxRequests) :
    Awaits (r.perform (.transmit q)).2 a r.now (r.requests a) [r.handles] := by
  have hreach : Reachable (r.transmit q).2 := reach.step (.transmit r q)
  have hnone := get?_eq_none_of_idle hidle
  obtain ⟨⟨hnow, hphase, _⟩, hflight⟩ := transmit_flight r q
  have hquiets := act_quiets reach reach.prepared.hushed (.transmit q) rfl
  have hrequests : (r.transmit q).2.requests a = r.requests a := hquiets.requests hreach.faithful a
  have hconfig : (r.transmit q).2.config = r.config := hquiets.config
  have hrunning : r.phase = .running := by
    by_contra hrefused
    obtain ⟨e, he⟩ := Option.ne_none_iff_exists'.mp (mt (running_iff r).mp hrefused)
    have hsame : (r.transmit q).2 = r := by
      unfold transmit
      rw [he]
    rw [hsame, hidle] at hbegins
    exact absurd hbegins Bool.false_ne_true
  -- the lookup is new, and its loop wakes up at once
  have hfresh : (r.transmit q).2.lookups.inFlight.get? a =
        some { r.fresh a with waiters := [r.handles] } ∧
      ⟨(r.fresh a).key, r.now⟩ ∈ (r.transmit q).2.lookups.loops := by
    rcases hflight with hlookups | ⟨target, hothers, ⟨l, hl, htarget⟩, hloop⟩
    · rw [hlookups, hidle] at hbegins
      exact absurd hbegins Bool.false_ne_true
    · by_cases ha : a = target
      · subst ha
        rw [hnone, Option.getD_none] at hl
        rw [htarget, hl]
        exact ⟨rfl, hloop hidle⟩
      · obtain ⟨l', hl'⟩ := (isPending_iff _ a).mp hbegins
        exact nomatch ((hothers a ha).trans hnone).symm.trans hl'
  have hcontinued := settle_continued hreach.prepared (hreach.step (.settle _)).faithful
    (hphase.trans hrunning) hfresh.1 hfresh.2 (Nat.le_of_eq hnow.symm)
  refine ⟨_, .of_continued hcontinued
    (hphase.trans hrunning) (hconfig ▸ hasks) hreach.valid.retransmit ?_ ?_, List.prefix_rfl⟩
  · have hnone : r.now + 0 * (r.transmit q).2.config.retransmitMillis = r.now := by
      rw [Nat.zero_mul, Nat.add_zero]
    exact hnow.trans hnone.symm
  · rw [hrequests]
    exact (List.append_nil _).symm

end Geocast.Router
