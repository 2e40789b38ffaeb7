import Geocast.Proofs.Router.Memory
import Geocast.Proofs.Router.Requests

/-!
# How lookups end

A lookup ends because a packet of its station comes in, because nobody answered its last request, or
because the router stops. Which of these it is depends on the action only, and whatever ends in one
action ends in the same way: those who wait are told so, and nobody else is told anything
(`Concludes`). Every action has its lemma to that effect, and `act_concludes` puts them together:
some lookups end, or one more transmission waits.
-/

namespace Geocast

/-- What those who wait for a station are told. -/
def LookupOutcome.verdict (a : Address) (outcome : LookupOutcome) : Except RoutingError Unit :=
  Lookup.report { target := a } outcome

/-- What the counters tell of lookups when so many more have ended. -/
def LookupOutcome.count (n : Nat) (searches : Nat × Nat) : LookupOutcome → Nat × Nat
  | .resolved => (searches.1 + n, searches.2)
  | .timedOut => (searches.1, searches.2 + n)
  | .aborted => searches

theorem LookupOutcome.count_zero (outcome : LookupOutcome) (searches : Nat × Nat) :
    outcome.count 0 searches = searches := by
  cases outcome <;> rfl

/-- Lookups that end in two groups are counted as if they had in one. -/
theorem LookupOutcome.count_add (outcome : LookupOutcome) (m n : Nat) (searches : Nat × Nat) :
    outcome.count (m + n) searches = outcome.count n (outcome.count m searches) := by
  cases outcome with
  | resolved => exact congrArg (·, searches.2) (Nat.add_assoc _ m n).symm
  | timedOut => exact congrArg (searches.1, ·) (Nat.add_assoc _ m n).symm
  | aborted => rfl

/-- How the lookups end that end in an action, if any do. -/
def Action.outcome : Action → LookupOutcome
  | .receive _ => .resolved
  | .stop => .aborted
  | _ => .timedOut

namespace Router

variable {α : Type} {r s t : Router α} {outcome : LookupOutcome} {ended ended' : List Address}

/-- What some transmissions are told when the lookups for their stations end. -/
def verdicts (r : Router α) (outcome : LookupOutcome) (ended : List Address) : List Completion :=
  ended.flatMap fun a => (r.waiters a).map (⟨·, outcome.verdict a⟩)

/-- Some lookups have ended with one outcome, and nothing else has become of any: each other one is
in flight still, and no new one is, those who waited for an ended one were told, nobody else was, and
the counters have moved along. -/
structure Concludes (outcome : LookupOutcome) (ended : List Address) (r s : Router α) : Prop where
  handles : s.handles = r.handles
  nodup : ended.Nodup
  pending : ∀ a ∈ ended, r.lookups.isPending a = true
  flight : ∀ a, s.lookups.isPending a = true ↔ r.lookups.isPending a = true ∧ a ∉ ended
  same : ∀ a, a ∉ ended → (s.lookups.inFlight.get? a).map Lookup.number =
    (r.lookups.inFlight.get? a).map Lookup.number
  started : s.lookups.started = r.lookups.started
  waiters : ∀ a, a ∉ ended → s.waiters a = r.waiters a
  told : s.completions = r.completions ++ r.verdicts outcome ended
  counted : s.stats.searches = outcome.count ended.length r.stats.searches

namespace Concludes

/-- Nothing has happened to the lookups in flight. -/
theorem of_flight (handles : s.handles = r.handles)
    (inFlight : s.lookups.inFlight = r.lookups.inFlight)
    (started : s.lookups.started = r.lookups.started)
    (completions : s.completions = r.completions)
    (searches : s.stats.searches = r.stats.searches) : Concludes outcome [] r s where
  handles := handles
  nodup := .nil
  pending := fun _ ha => absurd ha List.not_mem_nil
  -- with the same lookups in flight all that is asked of them is the same
  flight := by
    intro a
    rw [isPending_iff, isPending_iff, inFlight]
    simp
  same := by
    intro a _
    rw [inFlight]
  started := started
  waiters := by
    intro a _
    unfold Router.waiters
    rw [inFlight]
  told := by
    rw [completions]
    exact (List.append_nil _).symm
  counted := by
    rw [searches]
    exact (outcome.count_zero _).symm

/-- Nothing has happened to lookups. -/
theorem idle (handles : s.handles = r.handles) (lookups : s.lookups = r.lookups)
    (completions : s.completions = r.completions)
    (searches : s.stats.searches = r.stats.searches) : Concludes outcome [] r s :=
  of_flight handles (by rw [lookups]) (by rw [lookups]) completions searches

theorem of_alike (h : Alike r s) : Concludes outcome [] r s :=
  idle h.handles h.lookups h.completions h.searches

theorem trans (h : Concludes outcome ended r s) (h' : Concludes outcome ended' s t) :
    Concludes outcome (ended ++ ended') r t := by
  have hapart {a : Address} (ha : a ∈ ended') : a ∉ ended :=
    ((h.flight a).mp (h'.pending a ha)).2
  exact {
    handles := h'.handles.trans h.handles
    nodup := List.nodup_append.mpr ⟨h.nodup, h'.nodup, fun a ha b hb heq => hapart hb (heq ▸ ha)⟩
    pending := by
      intro a ha
      rcases List.mem_append.mp ha with ha | ha
      · exact h.pending a ha
      · exact ((h.flight a).mp (h'.pending a ha)).1
    flight := by
      intro a
      rw [h'.flight, h.flight, List.mem_append, not_or, and_assoc]
    same := by
      intro a ha
      rw [List.mem_append, not_or] at ha
      exact (h'.same a ha.2).trans (h.same a ha.1)
    started := h'.started.trans h.started
    waiters := by
      intro a ha
      rw [List.mem_append, not_or] at ha
      exact (h'.waiters a ha.2).trans (h.waiters a ha.1)
    told := by
      -- who is told later waited from the beginning
      have hlater : s.verdicts outcome ended' = r.verdicts outcome ended' := by
        refine List.flatMap_congr fun a ha => ?_
        rw [h.waiters a (hapart ha)]
      rw [h'.told, h.told, hlater, List.append_assoc]
      unfold verdicts
      rw [List.flatMap_append]
    counted := by
      rw [h'.counted, h.counted, List.length_append, outcome.count_add] }

theorem trans_idle (h : Concludes outcome ended r s) (h' : Concludes outcome [] s t) :
    Concludes outcome ended r t := by
  have hboth := h.trans h'
  rwa [List.append_nil] at hboth

/-- The lookup for one station has ended. -/
theorem of_ended {target : Address} {l : Lookup} (hl : r.lookups.inFlight.get? target = some l)
    (h : Ended r target l (outcome.verdict target) s)
    (hcounted : s.stats.searches = outcome.count 1 r.stats.searches) :
    Concludes outcome [target] r s where
  handles := h.handles
  nodup := List.nodup_singleton _
  pending := by
    intro a ha
    rw [List.mem_singleton.mp ha]
    exact (isPending_iff r target).mpr ⟨l, hl⟩
  flight := by
    intro a
    rw [List.mem_singleton, isPending_iff, isPending_iff, h.inFlight]
    by_cases ha : a = target
    · rw [ha, AddressMap.get?_erase_self]
      simp
    · rw [AddressMap.get?_erase_of_ne _ ha]
      simp [ha]
  same := by
    intro a ha
    rw [List.mem_singleton] at ha
    rw [h.inFlight, AddressMap.get?_erase_of_ne _ ha]
  started := h.started
  waiters := by
    intro a ha
    exact (h.left.kept a fun heq => ha (List.mem_singleton.mpr heq)).1
  -- those who waited for the one lookup are those who are told
  told := by
    rw [h.completions]
    unfold verdicts
    rw [List.flatMap_singleton, waiters_of_get? hl]
  counted := hcounted

/-- Of all lookups in flight those have gone that ended, and no other lookup has come in their
place. -/
theorem flying_iff (h : Concludes outcome ended r s) (key : LookupKey) :
    (s.lookups.flying? key).isSome ↔ (r.lookups.flying? key).isSome ∧ key.target ∉ ended := by
  rw [LookupService.isSome_flying?_iff, LookupService.isSome_flying?_iff]
  by_cases hended : key.target ∈ ended
  · have hgone : s.lookups.inFlight.get? key.target = none := by
      rw [Option.eq_none_iff_forall_ne_some]
      exact fun l hl => ((h.flight _).mp ((isPending_iff s _).mpr ⟨l, hl⟩)).2 hended
    rw [hgone]
    simp [hended]
  · rw [h.same _ hended]
    simp [hended]

end Concludes

/-! ## Lookups that are given up -/

/-- A lookup that is given up ends, and those who waited hear that time ran out. -/
theorem expireLookup_concludes (h : r.lookups.Tended) {target : Address} {l : Lookup}
    (hl : r.lookups.inFlight.get? target = some l) :
    Concludes .timedOut [target] r (r.expireLookup target) := by
  have hended := (expireLookup_ended hl).1
  rw [h.named target l hl] at hended
  refine .of_ended hl hended ?_
  unfold expireLookup LookupService.finish?
  rw [hl]
  rfl

/-- A lookup that has asked once more goes on with those who wait for it. -/
theorem Alike.asked (h : Alike r s) {target : Address} {l l' : Lookup}
    (hl : r.lookups.inFlight.get? target = some l)
    (hsame : l'.key = l.key ∧ l'.waiters = l.waiters) (loops : List RetryLoop) :
    Concludes outcome [] r { s with
      lookups := { r.lookups with inFlight := r.lookups.inFlight.insert target l', loops } } := by
  have hget (a : Address) := AddressMap.get?_insert r.lookups.inFlight target a l'
  exact {
    handles := h.handles
    nodup := .nil
    pending := fun _ ha => absurd ha List.not_mem_nil
    -- the lookup stands where it stood, under the same key and with the same waiters
    flight := by
      intro a
      rw [isPending_iff, isPending_iff]
      dsimp only
      rw [hget]
      by_cases ha : a = target
      · simp [ha, hl]
      · simp [ha]
    same := by
      intro a _
      dsimp only
      rw [hget]
      by_cases ha : a = target
      · rw [if_pos ha, ha, hl]
        exact congrArg (some ·.number) hsame.1
      · rw [if_neg ha]
    started := rfl
    waiters := by
      intro a _
      unfold Router.waiters
      dsimp only
      rw [hget]
      by_cases ha : a = target
      · rw [if_pos ha, ha, hl]
        exact hsame.2
      · rw [if_neg ha]
    told := h.completions.trans (List.append_nil _).symm
    counted := h.searches.trans (outcome.count_zero _).symm }

variable [Scalar α]

/-- A loop that goes on ends at most the lookup with its own key, after its last request. -/
theorem continueLookup_concludes (h : r.lookups.Tended) (key : LookupKey) :
    ∃ ended, Concludes .timedOut ended r (r.continueLookup key) ∧
      ∀ a ∈ ended, ∃ l, r.lookups.inFlight.get? a = some l ∧ l.key = key ∧ r.nextOf l = none := by
  rcases r.continueLookup_cases h key with
    ⟨_, ended, heq⟩ | ⟨l, hl, ⟨l', hnext, heq⟩ | ⟨hlast, heq⟩⟩
  · rw [heq]
    exact ⟨[], .of_flight rfl rfl rfl rfl rfl, fun _ ha => absurd ha List.not_mem_nil⟩
  · obtain ⟨hget, _⟩ := LookupService.flying?_eq_some_iff.mp hl
    rw [heq]
    exact ⟨[], (sendLocationRequest_forwards r key.target).alike.asked hget (nextOf_same hnext) _,
      fun _ ha => absurd ha List.not_mem_nil⟩
  · obtain ⟨hget, _⟩ := LookupService.flying?_eq_some_iff.mp hl
    rw [heq]
    refine ⟨[key.target], (expireLookup_concludes h hget).trans_idle
      (.of_flight rfl rfl rfl rfl rfl), fun a ha => ?_⟩
    rw [List.mem_singleton.mp ha]
    exact ⟨l, hget, h.key_of_flying hl, hlast⟩

/-- Of loops that wake up together each ends at most its own lookup, when all requests were
sent. -/
theorem continueLookups_concludes (h : r.lookups.Tended) {keys : List LookupKey}
    (hnodup : keys.Nodup) :
    ∃ ended, Concludes .timedOut ended r (keys.foldl continueLookup r) ∧
      ∀ a ∈ ended, ∃ l, r.lookups.inFlight.get? a = some l ∧ l.key ∈ keys ∧ r.nextOf l = none := by
  induction keys generalizing r with
  | nil => exact ⟨[], .idle rfl rfl rfl rfl, fun _ ha => absurd ha List.not_mem_nil⟩
  | cons key rest ih =>
    obtain ⟨hnew, hnodup⟩ := List.nodup_cons.mp hnodup
    obtain ⟨first, hfirst, hlast⟩ := continueLookup_concludes h key
    obtain ⟨others, hothers, hlasts⟩ := ih ((continueLookup_works r key).tended h) hnodup
    refine ⟨first ++ others, hfirst.trans hothers, fun a ha => ?_⟩
    rcases List.mem_append.mp ha with ha | ha
    · obtain ⟨l, hl, rfl, hnext⟩ := hlast a ha
      exact ⟨l, hl, List.mem_cons_self, hnext⟩
    · -- the lookups whose loops come later have not been touched
      obtain ⟨l', hl', hrest, hnext⟩ := hlasts a ha
      rw [continueLookup_get? h] at hl'
      obtain ⟨l, hl, hl'⟩ := Option.bind_eq_some_iff.mp hl'
      by_cases hkey : l.key = key
      · rw [if_pos hkey] at hl'
        rw [(nextOf_same hl').1, hkey] at hrest
        exact absurd hrest hnew
      · rw [if_neg hkey] at hl'
        obtain rfl := Option.some.inj hl'
        rw [nextOf_congr (continueLookup_kept r key).1] at hnext
        exact ⟨l, hl, List.mem_cons_of_mem _ hrest, hnext⟩

omit [Scalar α] in
/-- A lookup has no further request once it has sent as many as it may. -/
theorem nextOf_eq_none_iff (r : Router α) (l : Lookup) :
    r.nextOf l = none ↔ r.config.maxRequests ≤ l.requests := by
  unfold nextOf
  split
  · next hless => simp [hless]
  · next hall => simpa using hall

/-- Why a lookup ends in an action, and how: a packet of its station is taken in, or its own loop
goes on after the last request, or the router stops. -/
inductive Ends (r : Router α) (key : LookupKey) : Action → LookupOutcome → Prop
  | resolved {frame : Bytes} {arrival : Arrival} :
      r.phase = .running → r.judge frame = .ok arrival → arrival.source.address = key.target →
      (r.receive frame).1.isDuplicate = false → Ends r key (.receive frame) .resolved
  | timedOut {action : Action} {l : Lookup} {due : Nat} :
      action.letsTimersAct = true → (∀ k, action = .wake k → k = key) → r.phase = .running →
      r.lookups.flying? key = some l → ⟨key, due⟩ ∈ r.lookups.loops → due ≤ (r.act action).now →
      r.config.maxRequests ≤ l.requests → Ends r key action .timedOut
  | aborted : Ends r key .stop .aborted

/-- The time of the loop of a lookup has come after its last request. -/
def Overdue (r : Router α) (l : Lookup) : Prop :=
  r.phase = .running ∧ r.config.maxRequests ≤ l.requests ∧
    ∃ due, ⟨l.key, due⟩ ∈ r.lookups.loops ∧ due ≤ r.now

omit [Scalar α] in
/-- A loop that wakes up after the last request has waited its time. -/
theorem overdue_of_woken (h : r.lookups.Tended) (hrunning : r.phase = .running) {a : Address}
    {l : Lookup} (hl : r.lookups.inFlight.get? a = some l) (hwoken : l.key ∈ r.lookups.woken r.now)
    (hlast : r.nextOf l = none) : r.Overdue l := by
  obtain ⟨due, hloop⟩ := h.looped a l hl
  exact ⟨hrunning, (nextOf_eq_none_iff r l).mp hlast, due, hloop,
    (h.mem_woken_of_get? hl hloop r.now).mp hwoken⟩

/-- When timers act, those lookups end whose loops go on after the last request. -/
theorem settle_concludes (h : r.lookups.Tended) :
    ∃ ended, Concludes .timedOut ended r r.settle ∧
      ∀ a ∈ ended, ∃ l, r.lookups.inFlight.get? a = some l ∧ r.Overdue l := by
  by_cases hrunning : r.phase = .running
  · obtain ⟨_, _, hothers⟩ := fireOthers_alike r
    rw [settle_eq hrunning]
    generalize r.fireContention.fireSweep.fireBeacon = s at hothers
    have hsame : s.lookups = r.lookups ∧ s.now = r.now := ⟨hothers.lookups, hothers.now⟩
    have htended : s.lookups.Tended := by rwa [hsame.1]
    obtain ⟨ended, hconcludes, hlast⟩ :=
      continueLookups_concludes htended (htended.nodup_woken s.now)
    refine ⟨ended, ?_, fun a ha => ?_⟩
    · have hbefore : Concludes .timedOut [] r s :=
        .idle hothers.handles hothers.lookups hothers.completions hothers.searches
      exact hbefore.trans hconcludes
    · obtain ⟨l, hl, hwoken, hnext⟩ := hlast a ha
      rw [nextOf_congr hothers.config] at hnext
      rw [hsame.1, hsame.2] at hwoken
      rw [hsame.1] at hl
      exact ⟨l, hl, overdue_of_woken h hrunning hl hwoken hnext⟩
  · rw [settle_of_not_running hrunning]
    exact ⟨[], .idle rfl rfl rfl rfl, fun _ ha => absurd ha List.not_mem_nil⟩

/-- A loop that has its turn ends at most the lookup with its own key. -/
theorem wakeLoop_concludes (h : r.lookups.Tended) (key : LookupKey) :
    ∃ ended, Concludes .timedOut ended r (r.wakeLoop key) ∧
      ∀ a ∈ ended, ∃ l, r.lookups.inFlight.get? a = some l ∧ l.key = key ∧ r.Overdue l := by
  unfold wakeLoop
  split
  · next hwakes =>
    obtain ⟨ended, hconcludes, hlast⟩ := continueLookup_concludes h key
    refine ⟨ended, hconcludes, fun a ha => ?_⟩
    obtain ⟨l, hl, rfl, hnext⟩ := hlast a ha
    exact ⟨l, hl, rfl, overdue_of_woken h (of_decide_eq_true hwakes.1) hl hwakes.2 hnext⟩
  · exact ⟨[], .idle rfl rfl rfl rfl, fun _ ha => absurd ha List.not_mem_nil⟩

/-! ## Lookups that are resolved -/

/-- A lookup whose station was heard ends with success. -/
theorem resolveLookup_concludes {target : Address} {l : Lookup}
    (hl : r.lookups.inFlight.get? target = some l) :
    Concludes .resolved [target] r (r.resolveLookup target) := by
  refine .of_ended hl (resolveLookup_ended hl).1 ?_
  rw [resolveLookup_eq hl]
  exact (release_alike (r.resolving target l) .lookup _).searches

/-- A frame ends at most the lookup for the station that it came from, if its packet is taken in. -/
theorem receive_concludes (r : Router α) (frame : Bytes) :
    ∃ ended, Concludes .resolved ended r (r.receive frame).2 ∧
      ∀ a ∈ ended, ∀ key : LookupKey, key.target = a → Ends r key (.receive frame) .resolved := by
  rcases receive_cases r frame with ⟨hforwards, _⟩ | ⟨arrival, hrunning, hjudge⟩
  · -- a frame that is not looked at ends nothing
    have hnoted : Concludes .resolved [] r r.noteArrival := .idle rfl rfl rfl rfl
    exact ⟨[], hnoted.trans (.of_alike hforwards.alike), fun _ ha => absurd ha List.not_mem_nil⟩
  · have heq := receive_of_judge hrunning hjudge
    rcases process_forms r.arrived arrival with
      ⟨n, s, hlearn, hprocess⟩ | ⟨_, s, f, hf, hlearn, _, hprocess⟩
    · obtain ⟨table, rfl⟩ := eq_of_learn hlearn
      have hlearned : Concludes .resolved [] r ({ r.arrived with table } : Router α) :=
        .idle rfl rfl rfl rfl
      rw [heq, hprocess]
      clear hlearn hprocess
      generalize ({ r.arrived with table } : Router α) = s at hlearned
      -- a packet that was seen before ends nothing either
      have hdropped := (Forward.overhear (P := Own) s (arrival.source.address, n)).alike.trans
        (tally_forward (P := Own) _ (.drop (.duplicatePacket arrival.source.address n))).alike
      exact ⟨[], hlearned.trans (.of_alike hdropped), fun _ ha => absurd ha List.not_mem_nil⟩
    · obtain ⟨table, rfl⟩ := eq_of_learn hlearn
      have hsearches : (f r.arrived.stats).searches = r.arrived.stats.searches :=
        (congrArg Stats.searches (hf _)).trans rfl
      have hcounted : Concludes .resolved [] r (({ r.arrived with table } : Router α).count f) :=
        .idle rfl rfl rfl hsearches
      rw [hprocess] at heq
      clear hlearn hprocess
      generalize ({ r.arrived with table } : Router α).count f = s at *
      have hnew : (r.receive frame).1.isDuplicate = false := by
        rw [heq]
        exact (accept_isNew s arrival).isDuplicate
      have haccepted := (accept_forwards s (sendable_of_judge hjudge)).alike
      have htallied := haccepted.trans
        (tally_forward (P := Own) (s.accept arrival).2 (s.accept arrival).1).alike
      rw [heq]
      -- any other ends the lookup for its source, if there is one
      cases hl : s.lookups.inFlight.get? arrival.source.address with
      | none =>
        rw [resolveLookup_idle hl] at htallied
        exact ⟨[], hcounted.trans (.of_alike htallied), fun _ ha => absurd ha List.not_mem_nil⟩
      | some l =>
        refine ⟨_, (hcounted.trans (resolveLookup_concludes hl)).trans_idle (.of_alike htallied),
          fun a ha key hkey => ?_⟩
        rw [List.mem_singleton.mp ha] at hkey
        exact .resolved hrunning hjudge hkey.symm hnew

/-! ## Lookups that are given up when the router stops -/

omit [Scalar α] in
/-- The stations that are looked for are those with a lookup in flight. -/
theorem mem_keys_iff (r : Router α) (a : Address) :
    a ∈ r.lookups.inFlight.keys ↔ r.lookups.isPending a = true := by
  unfold LookupService.isPending
  rw [AddressMap.contains_iff]
  unfold AddressMap.keys
  simp only [List.mem_map, AddressMap.get?_eq_some_iff, Prod.exists, exists_and_right,
    exists_eq_right]

omit [Scalar α] in
/-- A stop ends every lookup, and all who wait hear that the router shuts down. -/
theorem stop_concludes (r : Router α) : ∃ ended, Concludes .aborted ended r r.stop := by
  by_cases hstopped : r.phase = .stopped
  · rw [stop_of_stopped hstopped]
    exact ⟨[], .idle rfl rfl rfl rfl⟩
  · refine ⟨r.lookups.inFlight.keys, ?_⟩
    rw [stop_eq hstopped]
    exact {
      handles := rfl
      nodup := r.lookups.inFlight.nodup
      pending := fun a ha => (mem_keys_iff r a).mp ha
      flight := by
        intro a
        rw [mem_keys_iff]
        simp [LookupService.abortAll, LookupService.isPending, AddressMap.contains,
          AddressMap.empty]
      same := by
        intro a ha
        rw [mem_keys_iff, Bool.not_eq_true] at ha
        rw [get?_eq_none_of_idle ha]
        rfl
      started := rfl
      waiters := by
        intro a ha
        rw [mem_keys_iff, Bool.not_eq_true] at ha
        rw [waiters_of_idle ha]
        rfl
      told := by
        refine congrArg (r.completions ++ ·) ?_
        unfold AddressMap.values verdicts AddressMap.keys
        -- what each lookup tells is what its station's waiters are told
        rw [List.flatMap_map, List.flatMap_map]
        refine List.flatMap_congr fun e he => ?_
        rw [waiters_of_get? ((AddressMap.get?_eq_some_iff _ e.1 e.2).mpr he)]
        rfl
      counted := rfl }

/-! ## Each action -/

/-- A transmission has come to wait for a station. -/
structure Joins (r : Router α) (q : Request) (target : Address) (s : Router α) : Prop where
  station : q.destination = .station target
  result : (r.transmit q).1 = .ok (.queued (some r.handles))
  handles : s.handles = r.handles + 1
  pending : ∀ a, s.lookups.isPending a = true ↔ r.lookups.isPending a = true ∨ a = target
  others : ∀ a, a ≠ target → s.lookups.inFlight.get? a = r.lookups.inFlight.get? a
  joined : (s.lookups.inFlight.get? target).map Lookup.number =
    some ((r.lookups.inFlight.get? target).getD (r.fresh target)).number
  started : r.lookups.started ≤ s.lookups.started
  waiters : ∀ a, s.waiters a = if a = target then r.waiters target ++ [r.handles] else r.waiters a
  completions : s.completions = r.completions
  searches : s.stats.searches = r.stats.searches

omit [Scalar α] in
/-- To join a lookup ends none, and so is not counted. -/
theorem await_searches (r : Router α) (target : Address) (p : Parcel) :
    (r.await target p).2.stats.searches = r.stats.searches := by
  unfold await openLookup subscribe
  split <;> split <;> rfl

/-- A request ends no lookup. At most one transmission comes to wait. -/
theorem transmit_concludes (r : Router α) (q : Request) :
    Concludes outcome [] r (r.transmit q).2 ∨ ∃ target, Joins r q target (r.transmit q).2 := by
  rcases transmit_cases r q with ⟨hforwards, _⟩ | ⟨target, small, hstation, _, heq⟩
  · exact .inl (.of_alike hforwards.alike)
  · obtain ⟨hhandle, hawaited⟩ :=
      await_awaited r target (r.unresolvedParcel (r.draft q) small target)
    have hsearches := await_searches r target (r.unresolvedParcel (r.draft q) small target)
    have hresult : (r.transmit q).1 = .ok (.queued (some r.handles)) := by
      rw [heq, hhandle]
    rw [heq]
    refine .inr ⟨target, hstation, hresult, hawaited.handles, fun a => ?_, hawaited.others, ?_,
      await_started r target _, hawaited.waiters, hawaited.completions, hsearches⟩
    swap
    · rw [await_get?]
      rfl
    by_cases ha : a = target
    · obtain ⟨l, hl, _⟩ := hawaited.line
      have hpending := (isPending_iff _ target).mpr ⟨l, hl⟩
      rw [ha]
      simp [hpending]
    · rw [isPending_iff, isPending_iff, hawaited.others a ha]
      simp [ha]

/-- In an action, some lookups end, or a transmission comes to wait. -/
theorem act_concludes (h : r.lookups.Tended) {action : Action} (hkept : action ≠ .clearStats) :
    (∃ ended, Concludes action.outcome ended r (r.act action) ∧
      ∀ a ∈ ended, ∀ l, r.lookups.inFlight.get? a = some l → Ends r l.key action action.outcome) ∨
    ∃ q target, action = .transmit q ∧ Joins r q target (r.act action) := by
  have hidle (hconcludes : Concludes action.outcome [] r (r.act action)) :
      (∃ ended, Concludes action.outcome ended r (r.act action) ∧ ∀ a ∈ ended,
        ∀ l, r.lookups.inFlight.get? a = some l → Ends r l.key action action.outcome) ∨
      ∃ q target, action = .transmit q ∧ Joins r q target (r.act action) :=
    .inl ⟨[], hconcludes, fun _ ha => absurd ha List.not_mem_nil⟩
  cases action with
  | start =>
    have hstarted : Concludes .timedOut [] r r.start.2 := by
      unfold Router.start
      split <;> exact .idle rfl rfl rfl rfl
    exact hidle hstarted
  | stop =>
    obtain ⟨ended, hconcludes⟩ := stop_concludes r
    exact .inl ⟨ended, hconcludes, fun _ _ _ _ => .aborted⟩
  | receive frame =>
    obtain ⟨ended, hconcludes, hends⟩ := receive_concludes r frame
    exact .inl ⟨ended, hconcludes, fun a ha l hl => hends a ha l.key (h.named a l hl)⟩
  | transmit q =>
    have hforms : Concludes .timedOut [] r (r.transmit q).2 ∨ ∃ target, Joins r q target _ :=
      transmit_concludes r q
    rcases hforms with hconcludes | ⟨target, hjoins⟩
    · exact hidle hconcludes
    · exact .inr ⟨q, target, rfl, hjoins⟩
  | beacon => exact hidle (.of_alike (sendBeacon_forwards r).alike)
  | reposition position => exact hidle (.idle rfl rfl rfl rfl)
  -- the counters of ended lookups would be lost
  | clearStats => exact absurd rfl hkept
  | settle =>
    obtain ⟨ended, hconcludes, hlast⟩ := settle_concludes h
    refine .inl ⟨ended, hconcludes, fun a ha l hl => ?_⟩
    obtain ⟨l', hl', hrunning, hall, due, hloop, hdue⟩ := hlast a ha
    obtain rfl := Option.some.inj (hl'.symm.trans hl)
    exact .timedOut rfl nofun hrunning (h.flying_of_get? hl) hloop
      (Nat.le_trans hdue (Nat.le_of_eq (settle_now r).symm)) hall
  | tick =>
    obtain ⟨ended, hconcludes, hlast⟩ := settle_concludes (r := { r with now := r.now + 1 }) h
    -- the loop had its time in the millisecond that has just passed
    have hpassed : Concludes .timedOut [] r { r with now := r.now + 1 } := .idle rfl rfl rfl rfl
    refine .inl ⟨ended, hpassed.trans hconcludes, fun a ha l hl => ?_⟩
    obtain ⟨l', hl', hrunning, hall, due, hloop, hdue⟩ := hlast a ha
    obtain rfl := Option.some.inj (hl'.symm.trans hl)
    have hnow : (r.act .tick).now = r.now + 1 := settle_now { r with now := r.now + 1 }
    exact .timedOut rfl nofun hrunning (h.flying_of_get? hl) hloop
      (Nat.le_trans hdue (Nat.le_of_eq hnow.symm)) hall
  | wake key =>
    obtain ⟨ended, hconcludes, hlast⟩ := wakeLoop_concludes h key
    refine .inl ⟨ended, hconcludes, fun a ha l hl => ?_⟩
    obtain ⟨l', hl', rfl, hrunning, hall, due, hloop, hdue⟩ := hlast a ha
    obtain rfl := Option.some.inj (hl'.symm.trans hl)
    refine .timedOut rfl (fun k hk => (Action.wake.inj hk).symm) hrunning (h.flying_of_get? hl)
      hloop (Nat.le_trans hdue (Nat.le_of_eq ?_)) hall
    show r.now = (r.wakeLoop l'.key).now
    unfold wakeLoop
    split
    · exact (continueLookup_kept r l'.key).2.1.symm
    · rfl

end Router

end Geocast
