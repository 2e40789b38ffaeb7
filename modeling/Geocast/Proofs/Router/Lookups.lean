import Geocast.Proofs.Router.Steps

/-!
# What moves do to lookups

A lookup begins when a packet is parked for a station of unknown place, and ends when the station
is heard, when nobody answers, or when the router stops. The theorems say what each of these does
to the transmissions that wait, to their queue and to the table. Seen from the queues there are
only two kinds of moves (`Move.left`): one packet joins, or all those for some stations leave.
-/

namespace Geocast.Router

variable {α : Type}

/-! ## What the moves do to lookups -/

/-- The transmissions that wait for the place of a station, oldest first. -/
def waiters (r : Router α) (a : Address) : List Nat :=
  (r.lookups.inFlight.get? a).elim [] Lookup.waiters

/-- What has changed when a packet was parked until the place of its destination is known. -/
structure Awaited (r : Router α) (target : Address) (p : Parcel) (s : Router α) : Prop where
  config : s.config = r.config
  now : s.now = r.now
  phase : s.phase = r.phase
  completions : s.completions = r.completions
  released : s.released = r.released
  expired : s.expired = r.expired
  emissions : s.emissions = r.emissions
  contention : s.contention = r.contention
  arrivals : s.arrivals = r.arrivals
  handles : s.handles = r.handles + 1
  queues : s.queues = (r.queues.enqueue .lookup target p).2
  table : r.lookups.isPending target = true ∧ s.table = r.table ∨
    r.lookups.isPending target = false ∧ s.table = (r.table.insertPending target r.clock).2
  others : ∀ b, b ≠ target → s.lookups.inFlight.get? b = r.lookups.inFlight.get? b
  line : ∃ l, s.lookups.inFlight.get? target = some l ∧
    l.waiters = r.waiters target ++ [r.handles]

/-- A second packet for a station opens no second lookup. -/
theorem openLookup_pending (r : Router α) (target : Address)
    (h : r.lookups.isPending target = true) : r.openLookup target = r := by
  have hbegin : r.lookups.begin? target = none := if_pos h
  unfold openLookup
  rw [hbegin]

/-- The lookup that begins for a station. -/
def fresh (r : Router α) (target : Address) : Lookup :=
  { target, number := r.lookups.started }

/-- The first one does, under a new number and with a loop that wakes up at once. -/
theorem openLookup_idle (r : Router α) (target : Address)
    (h : r.lookups.isPending target = false) :
    r.openLookup target = { r with
      lookups := { r.lookups with
        inFlight := r.lookups.inFlight.insert target (r.fresh target)
        started := r.lookups.started + 1
        loops := r.lookups.loops ++ [⟨(r.fresh target).key, r.now⟩] }
      table := (r.table.insertPending target r.clock).2 } := by
  have hbegin : r.lookups.begin? target = some (r.fresh target, { r.lookups with
      inFlight := r.lookups.inFlight.insert target (r.fresh target)
      started := r.lookups.started + 1 }) := if_neg (Bool.eq_false_iff.mp h)
  unfold openLookup
  rw [hbegin]
  rfl

/-- Who joins a lookup is the last of those that wait for it. -/
theorem subscribe_eq (r : Router α) {target : Address} {l : Lookup}
    (h : r.lookups.inFlight.get? target = some l) :
    r.subscribe target = (some r.handles, { r with
      lookups := { r.lookups with
        inFlight := r.lookups.inFlight.insert target
          { l with waiters := l.waiters ++ [r.handles] } }
      handles := r.handles + 1 }) := by
  unfold subscribe LookupService.subscribe?
  rw [h]
  rfl

/-- A station is being looked for if a lookup for it is in flight. -/
theorem isPending_iff (r : Router α) (a : Address) :
    r.lookups.isPending a = true ↔ ∃ l, r.lookups.inFlight.get? a = some l :=
  AddressMap.contains_iff _ _

theorem get?_eq_none_of_idle {r : Router α} {a : Address} (h : r.lookups.isPending a = false) :
    r.lookups.inFlight.get? a = none := by
  rw [Option.eq_none_iff_forall_ne_some]
  intro l hl
  rw [(isPending_iff r a).mpr ⟨l, hl⟩] at h
  exact absurd h (by simp)

/-- Those that wait for a station are on record with its lookup. -/
theorem waiters_of_get? {r : Router α} {a : Address} {l : Lookup}
    (h : r.lookups.inFlight.get? a = some l) : r.waiters a = l.waiters := by
  unfold waiters
  rw [h]
  rfl

/-- Without a lookup nobody waits. -/
theorem waiters_of_idle {r : Router α} {a : Address} (h : r.lookups.isPending a = false) :
    r.waiters a = [] := by
  unfold waiters
  rw [get?_eq_none_of_idle h]
  rfl

/-- A packet that is parked has a handle of its own, by which its sender waits. -/
theorem await_awaited (r : Router α) (target : Address) (p : Parcel) :
    (r.await target p).1 = some r.handles ∧ Awaited r target p (r.await target p).2 := by
  unfold await
  generalize hqueued : (r.useSequence (some p.origin)).enqueue .lookup target p = q
  have hlookups : q.lookups = r.lookups := by rw [← hqueued]; rfl
  have hhandles : q.handles = r.handles := by rw [← hqueued]; rfl
  cases hpending : r.lookups.isPending target with
  | true =>
    -- the lookup is in flight, and one more waits for it
    obtain ⟨l, hl⟩ := (isPending_iff r target).mp hpending
    rw [openLookup_pending q target (hlookups ▸ hpending), subscribe_eq q (hlookups ▸ hl)]
    subst hqueued
    refine ⟨rfl, ⟨rfl, rfl, rfl, rfl, rfl, rfl, rfl, rfl, rfl, rfl, rfl,
      .inl ⟨hpending, rfl⟩, ?_, ?_⟩⟩
    · intro b hb
      exact AddressMap.get?_insert_of_ne _ _ hb
    · refine ⟨_, AddressMap.get?_insert_self _ _ _, ?_⟩
      unfold waiters
      rw [hl]
      rfl
  | false =>
    -- the lookup begins, and the table takes in a placeholder
    have hnone := get?_eq_none_of_idle hpending
    rw [openLookup_idle q target (hlookups ▸ hpending),
      subscribe_eq _ (AddressMap.get?_insert_self _ _ _)]
    subst hqueued
    refine ⟨rfl, ⟨rfl, rfl, rfl, rfl, rfl, rfl, rfl, rfl, rfl, rfl, rfl,
      .inr ⟨hpending, rfl⟩, ?_, ?_⟩⟩
    · intro b hb
      exact (AddressMap.get?_insert_of_ne _ _ hb).trans (AddressMap.get?_insert_of_ne _ _ hb)
    · refine ⟨_, AddressMap.get?_insert_self _ _ _, ?_⟩
      unfold waiters
      rw [hnone]
      rfl

/-- What has changed when a lookup has ended and its transmissions know. -/
structure Ended (r : Router α) (target : Address) (l : Lookup) (result : Except RoutingError Unit)
    (s : Router α) : Prop where
  config : s.config = r.config
  base : s.base = r.base
  now : s.now = r.now
  phase : s.phase = r.phase
  handles : s.handles = r.handles
  completions : s.completions = r.completions ++ l.waiters.map (⟨·, result⟩)
  inFlight : s.lookups.inFlight = r.lookups.inFlight.erase target
  started : s.lookups.started = r.lookups.started
  loops : s.lookups.loops = r.lookups.loops
  tended : r.lookups.Tended → s.lookups.Tended
  waiting : s.queues.lookup = r.queues.lookup.erase target
  room : s.queues.lookupCapacity = r.queues.lookupCapacity

/-- When a lookup is given up, those that waited are told that time has run out, and the
placeholder goes. -/
theorem expireLookup_ended {r : Router α} {target : Address} {l : Lookup}
    (h : r.lookups.inFlight.get? target = some l) :
    Ended r target l (.error (.lookupTimeout l.target)) (r.expireLookup target) ∧
      (r.expireLookup target).table = r.table.cancelPending target ∧
      (r.expireLookup target).released = r.released := by
  unfold expireLookup LookupService.finish?
  rw [h]
  exact ⟨⟨rfl, rfl, rfl, rfl, rfl, rfl, rfl, rfl, rfl, (·.finish h .timedOut), rfl, rfl⟩, rfl, rfl⟩

/-- Many lookups that end together are told of one after the other. -/
theorem complete_foldl (lookups : List Lookup) (outcome : LookupOutcome) (r : Router α) :
    lookups.foldl (fun r l => r.complete l.waiters (l.report outcome)) r =
      { r with completions := r.completions ++
          lookups.flatMap fun l => l.waiters.map (⟨·, l.report outcome⟩) } := by
  induction lookups generalizing r with
  | nil => simp only [List.foldl_nil, List.flatMap_nil, List.append_nil]
  | cons l rest ih =>
    rw [List.foldl_cons, ih]
    simp only [complete, List.flatMap_cons, List.append_assoc]

/-- A router that stops, if it has not stopped before. -/
theorem stop_eq {r : Router α} (h : r.phase ≠ .stopped) :
    r.stop = { r with
      phase := .stopped
      completions := r.completions ++
        r.lookups.inFlight.values.flatMap fun l => l.waiters.map (⟨·, .error .shuttingDown⟩)
      lookups := r.lookups.joinLoops.abortAll.2
      queues := r.queues.clear.2
      contention := {} } := by
  unfold stop LookupService.abortAll LookupService.joinLoops
  rw [if_neg h]
  dsimp only
  rw [complete_foldl]
  rfl

/-! ## Who waits after a move -/

/-- No transmission has joined a queue, and those for some stations have left theirs. -/
structure Left (leaving : Address → Prop) (r s : Router α) : Prop where
  config : s.config = r.config
  handles : s.handles = r.handles
  room : s.queues.lookupCapacity = r.queues.lookupCapacity
  kept : ∀ a, ¬ leaving a → s.waiters a = r.waiters a ∧
    s.queues.queue .lookup a = r.queues.queue .lookup a
  gone : ∀ a, leaving a → s.waiters a = [] ∧ s.queues.queue .lookup a = []
  flying : ∀ a, s.lookups.isPending a = true → r.lookups.isPending a = true ∧ ¬ leaving a

namespace Left

variable {leaving : Address → Prop} {r s : Router α}

/-- Nothing that has to do with waiting has changed. -/
theorem of_eq (config : s.config = r.config) (handles : s.handles = r.handles)
    (lookups : s.lookups = r.lookups) (queues : s.queues = r.queues) :
    Left (fun _ => False) r s where
  config := config
  handles := handles
  room := by rw [queues]
  kept := fun _ _ => by
    unfold waiters
    rw [lookups, queues]
    exact ⟨rfl, rfl⟩
  gone := fun _ h => h.elim
  flying := fun _ h => ⟨lookups ▸ h, id⟩

/-- Who still waits has waited before. -/
theorem waiters_subset (h : Left leaving r s) {a : Address} {n : Nat} (hn : n ∈ s.waiters a) :
    n ∈ r.waiters a ∧ ¬ leaving a := by
  by_cases ha : leaving a
  · rw [(h.gone a ha).1] at hn
    exact absurd hn (List.not_mem_nil)
  · rw [(h.kept a ha).1] at hn
    exact ⟨hn, ha⟩

/-- And what is still queued was queued. -/
theorem queue_subset (h : Left leaving r s) {a : Address} {p : Parcel}
    (hp : p ∈ s.queues.queue .lookup a) : p ∈ r.queues.queue .lookup a ∧ ¬ leaving a := by
  by_cases ha : leaving a
  · rw [(h.gone a ha).2] at hp
    exact absurd hp (List.not_mem_nil)
  · rw [(h.kept a ha).2] at hp
    exact ⟨hp, ha⟩

end Left

/-- Forwarding ends no lookup. -/
theorem Alike.left {r s : Router α} (h : Alike r s) : Left (fun _ => False) r s where
  config := h.config
  handles := h.handles
  room := h.room
  kept := fun a _ => ⟨by unfold waiters; rw [h.lookups], h.queue a⟩
  gone := fun _ h => h.elim
  flying := fun _ hflying => ⟨h.lookups ▸ hflying, id⟩

/-- The end of a lookup concerns its own station only. -/
theorem Ended.left {r s : Router α} {target : Address} {l : Lookup}
    {result : Except RoutingError Unit} (h : Ended r target l result s) :
    Left (· = target) r s where
  config := h.config
  handles := h.handles
  room := h.room
  kept := by
    intro a ha
    unfold waiters PacketQueues.queue
    dsimp only
    rw [h.inFlight, h.waiting, AddressMap.get?_erase_of_ne _ ha, AddressMap.get?_erase_of_ne _ ha]
    exact ⟨rfl, rfl⟩
  gone := by
    rintro a rfl
    unfold waiters PacketQueues.queue
    dsimp only
    rw [h.inFlight, h.waiting, AddressMap.get?_erase_self, AddressMap.get?_erase_self]
    exact ⟨rfl, rfl⟩
  flying := by
    -- of all lookups only the one that ended is in flight no longer
    intro a ha
    obtain ⟨l', hl'⟩ := (isPending_iff s a).mp ha
    rw [h.inFlight] at hl'
    by_cases hne : a = target
    · subst hne
      rw [AddressMap.get?_erase_self] at hl'
      exact absurd hl' (by simp)
    · rw [AddressMap.get?_erase_of_ne _ hne] at hl'
      exact ⟨(isPending_iff r a).mpr ⟨l', hl'⟩, hne⟩

/-- Whatever a loop does to its lookup leaves everybody waiting. -/
theorem left_tends (r : Router α) {lookups : LookupService} (h : r.lookups.Tends lookups) :
    Left (fun _ => False) r { r with lookups } where
  config := rfl
  handles := rfl
  room := rfl
  kept := by
    refine fun a _ => ⟨?_, rfl⟩
    have hsame := h.waiters a
    unfold waiters
    dsimp only
    cases hl : r.lookups.inFlight.get? a with
    | none =>
      rw [hl, Option.map_none, Option.map_eq_none_iff] at hsame
      rw [hsame]
    | some l =>
      rw [hl, Option.map_some, Option.map_eq_some_iff] at hsame
      obtain ⟨l', hl', hsame⟩ := hsame
      rw [hl']
      exact hsame
  gone := fun _ h => h.elim
  flying := fun a ha => ⟨(h.isPending a).symm.trans ha, id⟩

variable [Scalar α] {P : Router α → Packet → Prop}

/-- Without a lookup there is none to end with success. -/
theorem resolveLookup_idle {r : Router α} {target : Address}
    (h : r.lookups.inFlight.get? target = none) : r.resolveLookup target = r := by
  unfold resolveLookup LookupService.finish?
  rw [h]
  rfl

/-- A router whose lookup has just ended with success, before it forwards what waited. -/
def resolving (r : Router α) (target : Address) (l : Lookup) : Router α :=
  let lookups : LookupService := { r.lookups with
    inFlight := r.lookups.inFlight.erase target
    ended := l.finished .resolved :: r.lookups.ended }
  let s := ({ r with lookups }.complete l.waiters (.ok ())).count fun c =>
    { c with lookupsResolved := c.lookupsResolved + 1 }
  { s with queues := s.queues.drop .lookup (some target) }.giveUp .lookup
    (r.queues.lapsed .lookup (some target) r.now)

/-- The lookup ends first, and what is still good of its queue is forwarded then. -/
theorem resolveLookup_eq {r : Router α} {target : Address} {l : Lookup}
    (h : r.lookups.inFlight.get? target = some l) :
    r.resolveLookup target =
      (r.resolving target l).release .lookup (r.queues.ready .lookup (some target) r.now) := by
  unfold resolveLookup LookupService.finish?
  rw [h]
  rfl

/-- When a lookup ends with success, those who wait for it are told, and then its queue is flushed. -/
theorem exists_resolveLookup_eq {r : Router α} {target : Address} {l : Lookup}
    (h : r.lookups.inFlight.get? target = some l) :
    ∃ lookups : LookupService, r.resolveLookup target =
      ((({ r with lookups } : Router α).complete l.waiters (.ok ())).count fun c =>
        { c with lookupsResolved := c.lookupsResolved + 1 }).flushLookup target := by
  unfold resolveLookup LookupService.finish?
  rw [h]
  exact ⟨_, rfl⟩

/-- When a place was learnt, those that waited for it are told so. -/
theorem resolveLookup_ended {r : Router α} {target : Address} {l : Lookup}
    (h : r.lookups.inFlight.get? target = some l) :
    Ended r target l (.ok ()) (r.resolveLookup target) ∧
      (r.resolveLookup target).table = r.table := by
  have hsame := release_alike (r.resolving target l) .lookup
    (r.queues.ready .lookup (some target) r.now)
  -- what is released afterwards is forwarding, which leaves alone all that is said here
  rw [resolveLookup_eq h]
  exact ⟨{
    config := hsame.config
    base := hsame.base
    now := hsame.now
    phase := hsame.phase
    handles := hsame.handles
    completions := hsame.completions
    inFlight := congrArg LookupService.inFlight hsame.lookups
    started := by
      rw [hsame.lookups]
      rfl
    loops := by
      rw [hsame.lookups]
      rfl
    tended := fun htended => by
      rw [hsame.lookups]
      exact htended.finish h .resolved
    waiting := hsame.waiting
    room := hsame.room }, hsame.table⟩

/-- An elementary step lets lookups end, or parks one packet more. -/
theorem Work.left {r s : Router α} (h : Work P r s) :
    (∃ leaving, Left leaving r s) ∨
    ∃ target d small, r.table.findPosition? target r.clock = none ∧
      s = (r.await target (r.unresolvedParcel d small target)).2 := by
  cases h with
  | forward h => exact .inl ⟨_, h.alike.left⟩
  | await d small _ hunknown => exact .inr ⟨_, d, small, hunknown, rfl⟩
  | tend htends => exact .inl ⟨_, left_tends r htends⟩
  | expire hl => exact .inl ⟨_, (expireLookup_ended hl).1.left⟩
  | sweep due => exact .inl ⟨_, .of_eq rfl rfl rfl rfl⟩
  | start => exact .inl ⟨_, .of_eq rfl rfl rfl rfl⟩
  | stop hrunning =>
    -- a router that stops has nothing waiting, for whatever station
    rw [stop_eq hrunning]
    exact .inl ⟨fun _ => True, {
      config := rfl
      handles := rfl
      room := rfl
      kept := fun _ h => absurd trivial h
      gone := fun _ _ => ⟨rfl, rfl⟩
      flying := fun _ h => absurd h (by simp [LookupService.abortAll, LookupService.isPending,
        AddressMap.contains, AddressMap.empty]) }⟩
  | reposition position =>
    exact .inl ⟨_, .of_eq rfl rfl rfl rfl⟩
  | pass => exact .inl ⟨_, .of_eq rfl rfl rfl rfl⟩
  | arrive => exact .inl ⟨_, .of_eq rfl rfl rfl rfl⟩
  | clear => exact .inl ⟨_, .of_eq rfl rfl rfl rfl⟩

/-- Hearing a packet changes the table, and may then end the lookup for one station. -/
theorem Hear.forms {r s : Router α} (h : Hear r s) :
    (∃ table, s = { r with table }) ∨
      ∃ table f target, s = (({ r with table } : Router α).count f).resolveLookup target := by
  cases h with
  | again hjudge hlearn => exact .inl (eq_of_learn hlearn)
  | resolve f hjudge hlearn hnew =>
    obtain ⟨table, rfl⟩ := eq_of_learn hlearn
    exact .inr ⟨table, f, _, rfl⟩

/-- A packet that is heard lets lookups end only. -/
theorem Hear.left {r s : Router α} (h : Hear r s) : ∃ leaving, Left leaving r s := by
  rcases h.forms with ⟨table, rfl⟩ | ⟨table, f, target, rfl⟩
  · exact ⟨_, .of_eq rfl rfl rfl rfl⟩
  · cases hl : r.lookups.inFlight.get? target with
    | none =>
      rw [resolveLookup_idle (r := ({ r with table } : Router α).count f) hl]
      exact ⟨_, .of_eq rfl rfl rfl rfl⟩
    | some l =>
      have hleft := (resolveLookup_ended (r := ({ r with table } : Router α).count f) hl).1.left
      exact ⟨_, hleft.config, hleft.handles, hleft.room, hleft.kept, hleft.gone, hleft.flying⟩

/-! ## Settings -/

/-- What the settings of a router say of its parts. -/
structure Fitted (r : Router α) : Prop where
  own : r.table.own = r.config.address
  alone : r.table.stations.get? r.config.address = none
  room : r.queues.lookupCapacity = r.config.lookupCapacity
  positive : 0 < r.config.lookupCapacity
  hops : r.config.hopLimit ≠ 0

/-- What becomes of the table under moves that do not hear a packet: it stays, it loses entries,
or a placeholder comes in. -/
theorem Work.table {r s : Router α} (h : Work P r s) :
    s.table.own = r.table.own ∧ ∀ a e, s.table.stations.get? a = some e →
      r.table.stations.get? a = some e ∨ a ≠ r.table.own ∧ e = .placeholder a r.clock := by
  cases h with
  | forward h =>
    rw [h.alike.table]
    exact ⟨rfl, fun _ _ h => .inl h⟩
  | @await target d small _ hunknown =>
    rcases (await_awaited r target (r.unresolvedParcel d small target)).2.table with ⟨_, h⟩ | ⟨_, h⟩
    · rw [h]
      exact ⟨rfl, fun _ _ h => .inl h⟩
    · rw [h]
      refine ⟨LocationTable.insertPending_own _ _ _, fun a e he => ?_⟩
      -- a packet that is parked may bring a placeholder, the one new kind of entry
      rcases LocationTable.insertPending_get? he with he | ⟨rfl, hother, rfl⟩
      · exact .inl he
      · exact .inr ⟨hother, rfl⟩
  | tend htends => exact ⟨rfl, fun _ _ h => .inl h⟩
  | @expire target l hl =>
    rw [(expireLookup_ended hl).2.1]
    exact ⟨LocationTable.cancelPending_own _ _,
      fun _ _ h => .inl (LocationTable.cancelPending_get? h)⟩
  | sweep due => exact ⟨rfl, fun _ _ h => .inl (LocationTable.purgeStale_get? h)⟩
  | start => exact ⟨rfl, fun _ _ h => .inl h⟩
  | stop hrunning =>
    rw [stop_eq hrunning]
    exact ⟨rfl, fun _ _ h => .inl h⟩
  | reposition position => exact ⟨rfl, fun _ _ h => .inl h⟩
  | pass => exact ⟨rfl, fun _ _ h => .inl h⟩
  | arrive => exact ⟨rfl, fun _ _ h => .inl h⟩
  | clear => exact ⟨rfl, fun _ _ h => .inl h⟩

/-- Who waits after a move of whatever kind. -/
theorem Move.left {r s : Router α} (h : Move P r s) :
    (∃ leaving, Left leaving r s) ∨
    ∃ target d small, r.table.findPosition? target r.clock = none ∧
      s = (r.await target (r.unresolvedParcel d small target)).2 := by
  cases h with
  | work h => exact h.left
  | hear h => exact .inl h.left

/-- What hearing a packet does to the table and to the lookups: it changes what is known of its
source, and no lookup but that for its source ends, if the packet is new. -/
structure Heard (r : Router α) (a : Arrival) (s : Router α) : Prop where
  other : a.source.address ≠ r.config.address
  phase : s.phase = r.phase
  learned : ∃ check, Learned r a check s ∧
    (s.lookups.isPending a.source.address = true → ∃ n, check = some (n, .duplicate))
  flying : ∀ b, b ≠ a.source.address → s.lookups.inFlight.get? b = r.lookups.inFlight.get? b

/-- What hearing a packet does has this form. -/
theorem Hear.heard {r s : Router α} (h : Hear r s) (hown : r.table.own = r.config.address) :
    ∃ a, Heard r a s := by
  cases h with
  | @again _ _ a n hjudge hlearn =>
    obtain ⟨_, _, _, hother, _⟩ := judge_ok hjudge
    have hlearned := learn_learned (hown ▸ hother)
    rw [hlearn] at hlearned
    obtain ⟨table, rfl⟩ := eq_of_learn hlearn
    exact ⟨a, hother, rfl, ⟨_, hlearned, fun _ => ⟨n, rfl⟩⟩, fun _ _ => rfl⟩
  | @resolve s₀ _ a check f hjudge hlearn hnew =>
    obtain ⟨_, _, _, hother, _⟩ := judge_ok hjudge
    have hlearned := learn_learned (hown ▸ hother)
    rw [hlearn] at hlearned
    obtain ⟨table, rfl⟩ := eq_of_learn hlearn
    generalize hbefore : ({ r with table } : Router α).count f = b
    have hphase : b.phase = r.phase := by rw [← hbefore]; rfl
    have hlookups : b.lookups = r.lookups := by rw [← hbefore]; rfl
    replace hlearned : Learned r a check b := hlearned.of_table (by rw [← hbefore]; rfl)
    cases hl : b.lookups.inFlight.get? a.source.address with
    | none =>
      rw [resolveLookup_idle hl]
      -- if a lookup is in flight, the packet ends it, so here none was
      refine ⟨a, hother, hphase, ⟨check, hlearned, fun hpending => ?_⟩, fun _ _ => hlookups ▸ rfl⟩
      obtain ⟨l, hl'⟩ := (isPending_iff _ _).mp hpending
      exact absurd (hl.symm.trans hl') (by simp)
    | some l =>
      obtain ⟨hended, htable⟩ := resolveLookup_ended hl
      refine ⟨a, hother, hended.phase.trans hphase, ⟨check, hlearned.of_table htable, ?_⟩, ?_⟩
      · exact fun hpending => absurd rfl (hended.left.flying _ hpending).2
      · intro c hc
        rw [hended.inFlight, AddressMap.get?_erase_of_ne _ hc, hlookups]

/-- What is certain of settings with which there can be a router. -/
structure Valid (config : Config α) : Prop where
  broadcast : 0 < config.broadcastCapacity
  unicast : 0 < config.unicastCapacity
  lookup : 0 < config.lookupCapacity
  hops : config.hopLimit ≠ 0
  retransmit : 0 < config.retransmitMillis

/-- Settings that leave a queue no room, a packet no hop, or a lookup no time are refused. -/
theorem of_fault?_eq_none {config : Config α} (h : config.fault? = none) : Valid config := by
  unfold Config.fault? at h
  split at h
  · exact absurd h (by simp)
  · split at h
    · exact absurd h (by simp)
    · next hroom =>
      split at h
      · exact absurd h (by simp)
      · split at h
        · exact absurd h (by simp)
        · next hhops =>
          split at h
          · exact absurd h (by simp)
          · next htime =>
            obtain ⟨hbroadcast, hothers⟩ := not_or.mp hroom
            obtain ⟨hunicast, hlookup⟩ := not_or.mp hothers
            exact ⟨Nat.pos_of_ne_zero hbroadcast, Nat.pos_of_ne_zero hunicast,
              Nat.pos_of_ne_zero hlookup, hhops, Nat.pos_of_ne_zero htime⟩

/-- A new router is as its settings say. -/
theorem Fitted.made {geometry : Geometry α} {config : Config α} {base : Timestamp}
    {position : Nat → Fix} {jitter : Nat → Nat} {r : Router α}
    (h : make geometry config base position jitter = .ok r) : Fitted r := by
  obtain ⟨hfault, rfl⟩ := eq_of_make h
  have hvalid := of_fault?_eq_none hfault
  exact ⟨rfl, rfl, rfl, hvalid.lookup, hvalid.hops⟩

/-- And stays so. -/
theorem Fitted.move {r s : Router α} (hmove : Move P r s) (h : Fitted r) : Fitted s := by
  have hconfig : s.config = r.config ∧ s.queues.lookupCapacity = r.queues.lookupCapacity := by
    rcases hmove.left with ⟨_, hleft⟩ | ⟨target, d, small, _, rfl⟩
    · exact ⟨hleft.config, hleft.room⟩
    · have hawaited := (await_awaited r target (r.unresolvedParcel d small target)).2
      rw [hawaited.config, hawaited.queues]
      exact ⟨rfl, rfl⟩
  have htable : s.table.own = r.table.own ∧
      s.table.stations.get? r.config.address = none := by
    cases hmove with
    | work hwork =>
      obtain ⟨hown, hentries⟩ := hwork.table
      refine ⟨hown, Option.eq_none_iff_forall_ne_some.mpr fun e he => ?_⟩
      rcases hentries _ e he with he | ⟨hother, _⟩
      · exact absurd (h.alone.symm.trans he) (by simp)
      · exact hother h.own.symm
    | hear hheard =>
      obtain ⟨a, hheard⟩ := hheard.heard h.own
      -- what is heard is of another station, so the own entry does not come to be
      obtain ⟨_, hlearned, _⟩ := hheard.learned
      exact ⟨hlearned.own, (hlearned.others _ (Ne.symm hheard.other)).trans h.alone⟩
  exact {
    own := by rw [htable.1, hconfig.1, h.own]
    alone := by rw [hconfig.1, htable.2]
    room := by rw [hconfig.2, hconfig.1, h.room]
    positive := by rw [hconfig.1]; exact h.positive
    hops := by rw [hconfig.1]; exact h.hops }

/-- An invariant may lean on what fits together in every router. -/
theorem Reachable.invariant_fitted {I : Router α → Prop}
    (made : ∀ {geometry config base position jitter r},
      make geometry config base position jitter = .ok r → I r)
    (move : ∀ {P r s}, Move P r s → Fitted r → I r → I s) {r : Router α} (h : Reachable r) :
    I r := by
  have hboth : Fitted r ∧ I r := h.invariant (I := fun r => Fitted r ∧ I r)
    (fun hmade => ⟨.made hmade, made hmade⟩)
    fun hmove h => ⟨h.1.move hmove, move hmove h.1 h.2⟩
  exact hboth.2

/-- After a move, an entry is one that was there, a placeholder, or what is known of the source of a
packet from what was known of it before. -/
theorem Move.entry {r s : Router α} (hmove : Move P r s) (hfitted : Fitted r) {b : Address}
    {e : Entry} (he : s.table.stations.get? b = some e) :
    r.table.stations.get? b = some e ∨ e = .placeholder b r.clock ∨
      ∃ a : Arrival, a.source.address = b ∧ e.position = r.keptPosition a.source ∧
        e.duplicates = a.packet.sequence?.elim (r.remembered b) fun n =>
          ((r.remembered b).observe n).2 := by
  cases hmove with
  | work hwork => exact (hwork.table.2 b e he).imp_right fun ⟨_, h⟩ => .inl h
  | hear hheard =>
    obtain ⟨a, hheard⟩ := hheard.heard hfitted.own
    obtain ⟨_, hlearned, _⟩ := hheard.learned
    by_cases hb : b = a.source.address
    · subst hb
      obtain ⟨e', he', _, hposition, _⟩ := hlearned.entry
      obtain rfl := Option.some.inj (he'.symm.trans he)
      exact .inr (.inr ⟨a, rfl, hposition, hlearned.numbers _ he'⟩)
    · exact .inl ((hlearned.others b hb).symm.trans he)

/-! ## Neither the time nor the count of frames goes back -/

/-- Neither time nor the count of frames goes back. -/
theorem Work.forth {r s : Router α} (h : Work P r s) : r.now ≤ s.now ∧ r.arrivals ≤ s.arrivals := by
  cases h with
  | forward h => exact ⟨Nat.le_of_eq h.alike.now.symm, Nat.le_of_eq h.alike.arrivals.symm⟩
  | @await target d small _ _ =>
    have hawaited := (await_awaited r target (r.unresolvedParcel d small target)).2
    exact ⟨Nat.le_of_eq hawaited.now.symm, Nat.le_of_eq hawaited.arrivals.symm⟩
  | expire _ =>
    unfold expireLookup
    split
    · exact ⟨Nat.le_refl _, Nat.le_refl _⟩
    · exact ⟨Nat.le_refl _, Nat.le_refl _⟩
  | stop hrunning =>
    rw [stop_eq hrunning]
    exact ⟨Nat.le_refl _, Nat.le_refl _⟩
  | pass => exact ⟨Nat.le_succ _, Nat.le_refl _⟩
  | arrive => exact ⟨Nat.le_refl _, Nat.le_succ _⟩
  | _ => exact ⟨Nat.le_refl _, Nat.le_refl _⟩

/-- Nor do they when a packet is heard. -/
theorem Move.forth {r s : Router α} (h : Move P r s) : r.now ≤ s.now ∧ r.arrivals ≤ s.arrivals := by
  cases h with
  | work h => exact h.forth
  | hear h => exact ⟨Nat.le_of_eq h.kept.1.symm, Nat.le_of_eq h.kept.2.1.symm⟩

/-- What begins its way on a row of moves does so in the time that they take. -/
theorem moves_within {r s : Router α} (h : Relation.ReflTransGen (Move P) r s) :
    Relation.ReflTransGen (Move fun m p => P m p ∧ r.now ≤ m.now ∧ m.now ≤ s.now) r s := by
  have hrest {m : Router α} (h : Relation.ReflTransGen (Move P) m s) (hlater : r.now ≤ m.now) :
      Relation.ReflTransGen (Move fun m p => P m p ∧ r.now ≤ m.now ∧ m.now ≤ s.now) m s := by
    induction h using Relation.ReflTransGen.head_induction_on with
    | refl => exact .refl
    | head hmove hmoves ih =>
      have hnext := hmove.forth.1
      have hlast := le_of_moves (fun hmove => hmove.forth.1) hmoves
      refine .head (hmove.mono fun p hp => ⟨hp, hlater, ?_⟩) (ih ?_)
      · exact Nat.le_trans hnext hlast
      · exact Nat.le_trans hlater hnext
  exact hrest h (Nat.le_refl _)

/-- Time never goes back. -/
theorem Leads.now_le {r s : Router α} (h : Leads r s) : r.now ≤ s.now :=
  h.le_of_moves fun hmove => hmove.forth.1

/-- Nor does the count of frames. -/
theorem Leads.arrivals_le {r s : Router α} (h : Leads r s) : r.arrivals ≤ s.arrivals :=
  h.le_of_moves fun hmove => hmove.forth.2

end Geocast.Router
