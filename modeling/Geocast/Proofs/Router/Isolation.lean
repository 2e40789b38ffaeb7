import Geocast.Proofs.Router.Flight
import Geocast.Proofs.Router.Waiting

/-!
# A station only touches its own state

Of every other station a router keeps an entry in the table, a lookup, the transmissions that wait
on it, and their packets. A frame may change the table, end a lookup, flush queues and forward the
packets of many stations at once, yet of these four things it changes only those of the station
that it came from; and a lookup that is given up takes along only those of its own target
(`own_station_touched_only`). Packets that wait for a way to their destination, for a neighbour or
on a timer are not kept for a station in this sense.
-/

namespace Geocast.Router

variable {α : Type} {r s t : Router α} {a : Address}

/-- Everything that is kept of a station is as it was: its entry in the table, what waits for its
place, its lookup, in flight or ended, with their loops, and the transmissions that wait on it, of
which none was told anything. -/
structure Untouched (a : Address) (r s : Router α) : Prop where
  entry : s.table.stations.get? a = r.table.stations.get? a
  queue : s.queues.queue .lookup a = r.queues.queue .lookup a
  lookup : s.lookups.inFlight.get? a = r.lookups.inFlight.get? a
  ended : s.lookups.ended.filter (·.target = a) = r.lookups.ended.filter (·.target = a)
  loops : s.lookups.loops.filter (·.key.target = a) = r.lookups.loops.filter (·.key.target = a)
  told : ∃ new, s.completions = r.completions ++ new ∧ ∀ c ∈ new, c.handle ∉ r.waiters a

namespace Untouched

theorem of_same (table : s.table = r.table) (waiting : s.queues.lookup = r.queues.lookup)
    (lookups : s.lookups = r.lookups) (completions : s.completions = r.completions) :
    Untouched a r s where
  entry := by rw [table]
  queue := by
    show (s.queues.lookup.get? a).getD [] = (r.queues.lookup.get? a).getD []
    rw [waiting]
  lookup := by rw [lookups]
  ended := by rw [lookups]
  loops := by rw [lookups]
  told := ⟨[], by rw [completions, List.append_nil], fun _ h => absurd h List.not_mem_nil⟩

theorem of_alike (h : Alike r s) : Untouched a r s :=
  of_same h.table h.waiting h.lookups h.completions

theorem waiters (h : Untouched a r s) : s.waiters a = r.waiters a := by
  unfold Router.waiters
  rw [h.lookup]

theorem trans (h : Untouched a r s) (h' : Untouched a s t) : Untouched a r t where
  entry := h'.entry.trans h.entry
  queue := h'.queue.trans h.queue
  lookup := h'.lookup.trans h.lookup
  ended := h'.ended.trans h.ended
  loops := h'.loops.trans h.loops
  told := by
    obtain ⟨new, hnew, htold⟩ := h.told
    obtain ⟨new', hnew', htold'⟩ := h'.told
    refine ⟨new ++ new', by rw [hnew', hnew, List.append_assoc], fun c hc => ?_⟩
    rcases List.mem_append.mp hc with hc | hc
    · exact htold c hc
    · exact h.waiters ▸ htold' c hc

/-- Nothing but the entry of another station has changed in the table. -/
theorem of_table {table : LocationTable}
    (h : table.stations.get? a = r.table.stations.get? a) : Untouched a r { r with table } where
  entry := h
  queue := rfl
  lookup := rfl
  ended := rfl
  loops := rfl
  told := ⟨[], (List.append_nil _).symm, fun _ h => absurd h List.not_mem_nil⟩

/-- The lookup for another station has ended. -/
theorem of_ended (hline : InLine r) (htended : r.lookups.Tended) {target : Address} (hother : a ≠ target)
    {l : Lookup} (hl : r.lookups.inFlight.get? target = some l)
    {result : Except RoutingError Unit} (hended : Ended r target l result s)
    (hlast : ∃ l', l'.target = l.target ∧ s.lookups.ended = l' :: r.lookups.ended)
    (hentry : s.table.stations.get? a = r.table.stations.get? a) : Untouched a r s where
  entry := hentry
  queue := (hended.left.kept a hother).2
  lookup := by rw [hended.inFlight, AddressMap.get?_erase_of_ne _ hother]
  ended := by
    obtain ⟨l', hsame, hlast⟩ := hlast
    have htarget : ¬l'.target = a := by
      rw [hsame, htended.named target l hl]
      exact Ne.symm hother
    rw [hlast, List.filter_cons_of_neg (by simpa using htarget)]
  loops := by rw [hended.loops]
  told := by
    refine ⟨_, hended.completions, fun c hc hwaits => ?_⟩
    -- nobody waits for two stations
    obtain ⟨n, hn, rfl⟩ := List.mem_map.mp hc
    exact hother (hline.apart a target n hwaits (waiters_of_get? hl ▸ hn))

/-- Of lookups and loops, only those of another station have changed. -/
theorem of_lookups {lookups : LookupService}
    (hflight : lookups.inFlight.get? a = r.lookups.inFlight.get? a)
    (hended : lookups.ended.filter (·.target = a) = r.lookups.ended.filter (·.target = a))
    (hloops : lookups.loops.filter (·.key.target = a) =
      r.lookups.loops.filter (·.key.target = a)) : Untouched a r { r with lookups } where
  entry := rfl
  queue := rfl
  lookup := hflight
  ended := hended
  loops := hloops
  told := ⟨[], (List.append_nil _).symm, fun _ h => absurd h List.not_mem_nil⟩

end Untouched

/-- A lookup that is given up takes its placeholder along, and nothing of another station. -/
theorem expireLookup_untouched (hline : InLine r) (htended : r.lookups.Tended) {target : Address}
    (hother : a ≠ target) : Untouched a r (r.expireLookup target) := by
  cases hl : r.lookups.inFlight.get? target with
  | none =>
    rw [expireLookup_idle hl]
    exact .of_same rfl rfl rfl rfl
  | some l =>
    obtain ⟨hended, htable, -⟩ := expireLookup_ended hl
    have hlast : ∃ l', l'.target = l.target ∧
        (r.expireLookup target).lookups.ended = l' :: r.lookups.ended := by
      unfold expireLookup LookupService.finish?
      rw [hl]
      exact ⟨l.finished .timedOut, rfl, rfl⟩
    have hentry : (r.expireLookup target).table.stations.get? a = r.table.stations.get? a := by
      rw [htable, LocationTable.get?_cancelPending, if_neg (Ne.symm hother)]
    exact .of_ended hline htended hother hl hended hlast hentry

variable [Scalar α]

theorem resolveLookup_untouched (hline : InLine r) (htended : r.lookups.Tended) {target : Address}
    (hother : a ≠ target) : Untouched a r (r.resolveLookup target) := by
  cases hl : r.lookups.inFlight.get? target with
  | none =>
    rw [resolveLookup_idle hl]
    exact .of_same rfl rfl rfl rfl
  | some l =>
    obtain ⟨hended, htable⟩ := resolveLookup_ended hl
    have hlast : ∃ l', l'.target = l.target ∧
        (r.resolveLookup target).lookups.ended = l' :: r.lookups.ended := by
      rw [resolveLookup_eq hl, (release_alike _ _ _).lookups]
      exact ⟨l.finished .resolved, rfl, rfl⟩
    exact .of_ended hline htended hother hl hended hlast (by rw [htable])

/-- Each thing that a frame sets in motion leaves other stations alone: the table learns of the
source, its lookup ends, and all that is sent or parked then is forwarding. -/
theorem receive_untouched (hline : InLine r) (htended : r.lookups.Tended) {frame : Bytes}
    (hother : ∀ p v, Packet.decode frame = .ok p → p.source? = some v → v.address ≠ a) :
    Untouched a r (r.receive frame).2 := by
  have harrives : Untouched a r r.noteArrival := .of_same rfl rfl rfl rfl
  rcases receive_cases r frame with ⟨hforwards, -⟩ | ⟨arrival, hrunning, hjudge⟩
  · exact harrives.trans (.of_alike hforwards.alike)
  · obtain ⟨p, hdecode, hsource, -, -, -⟩ := judge_ok hjudge
    have hsource : a ≠ arrival.source.address := (hother p _ hdecode hsource).symm
    -- the table learns of the source only, which is another station
    have hlearnt {check : Option (SequenceNumber × SequenceCheck)} {s : Router α}
        (hlearn : r.arrived.learn arrival = (check, s)) : Untouched a r s := by
      have hentry := learn_others (r := r.arrived) hsource
      obtain ⟨table, hs⟩ := learn_rest r.arrived arrival
      rw [hlearn] at hs hentry
      obtain rfl : s = { r.arrived with table } := hs
      have harrived : Untouched a r r.arrived := .of_same rfl rfl rfl rfl
      exact harrived.trans (.of_table hentry)
    rw [receive_of_judge hrunning hjudge]
    rcases process_cases r.arrived arrival with
      ⟨n, s, hlearn, hprocess⟩ | ⟨_, s, f, hlearn, -, hprocess⟩
    · rw [hprocess]
      exact (hlearnt hlearn).trans (.of_same rfl rfl rfl rfl)
    · have hheard : Untouched a r (s.count f) :=
        (hlearnt hlearn).trans (.of_same rfl rfl rfl rfl)
      obtain ⟨table, rfl⟩ := eq_of_learn hlearn
      have hline' : InLine (({ r.arrived with table } : Router α).count f) :=
        ⟨hline.line, hline.ordered, hline.issued, hline.apart⟩
      have hresolved := resolveLookup_untouched hline' htended hsource
      have hforwards := accept_forwards (({ r.arrived with table } : Router α).count f)
        (sendable_of_judge hjudge)
      rw [hprocess]
      exact ((hheard.trans hresolved).trans (.of_alike hforwards.alike)).trans
        (.of_same rfl rfl rfl rfl)

/-- A loop that goes on takes nothing of a station other than that of its lookup along, whether it
finds its lookup ended, asks once more, or gives its lookup up. -/
theorem continueLookup_untouched (hline : InLine r) (htended : r.lookups.Tended) {key : LookupKey}
    (hother : a ≠ key.target) : Untouched a r (r.continueLookup key) := by
  rcases r.continueLookup_cases htended key with
    ⟨hnone, _, _⟩ | ⟨l, hl, ⟨l', _, heq⟩ | ⟨_, heq⟩⟩
  · have hlate : r.continueLookup key =
        { r with lookups := (r.lookups.takeNotice key).endLoop key } :=
      if_pos (htended.isComplete_iff.mpr hnone)
    have hrest := LookupService.endLoop_takeNotice hnone
    rw [hlate]
    refine .of_lookups ?_ (LookupService.filter_takeNotice hother) ?_
    · rw [hrest]
    · rw [hrest]
      exact LookupService.filter_endLoop (s := r.lookups) hother
  · have hasked : Untouched a r (r.sendLocationRequest key.target) :=
      .of_alike (sendLocationRequest_forwards r key.target).alike
    rw [heq]
    exact hasked.trans (.of_lookups (AddressMap.get?_insert_of_ne _ _ hother) rfl
      (LookupService.filter_sleep hother _))
  · have hexpired := expireLookup_untouched hline htended hother
    rw [heq]
    exact hexpired.trans (.of_lookups rfl rfl (LookupService.filter_endLoop hother))

/-- In every state that a router passes through: a frame leaves everything that is kept of a
station other than its source as it was, giving up a lookup everything that is kept of a station
other than its target, and a loop that goes on everything that is kept of a station other than that
of its lookup. -/
theorem own_station_touched_only {r : Router α} (hpassing : Passing r) :
    (∀ frame a, (∀ p v, Packet.decode frame = .ok p → p.source? = some v → v.address ≠ a) →
      Untouched a r (r.receive frame).2) ∧
    (∀ target a, a ≠ target → Untouched a r (r.expireLookup target)) ∧
    ∀ key a, a ≠ key.target → Untouched a r (r.continueLookup key) := by
  have hline : InLine r := (hpassing.invariant .made .move : Orderly r).inLine
  have htended : r.lookups.Tended := hpassing.invariant tended_of_made Move.tended
  refine ⟨fun frame a hother => ?_, fun target a hother => ?_, fun key a hother => ?_⟩
  · exact receive_untouched hline htended hother
  · exact expireLookup_untouched hline htended hother
  · exact continueLookup_untouched hline htended hother

/-- Two stations are searched for, and one of them is heard. -/
theorem own_station_touched_only_of_two :
    let r := (((trialStarted trialGeometry trialConfig).transmit (trialRequest 12 1)).2.transmit
      (trialRequest 13 2)).2
    let s := (r.receive (trialBeacon 12 100000 20000).encode).2
    Passing r ∧ s.lookups.isPending (trialStation 12) = false ∧
      Untouched (trialStation 13) r s ∧ s.queues.queue .lookup (trialStation 13) ≠ [] := by
  intro r s
  have hpassing : Passing r :=
    (((trialConfig_reachable trialGeometry).step (.transmit _ _)).step (.transmit _ _)).passing
  have hother : ∀ p v, Packet.decode (trialBeacon 12 100000 20000).encode = .ok p →
      p.source? = some v → v.address ≠ trialStation 13 := by
    intro p v hdecode hsource
    obtain rfl := Except.ok.inj ((decode_trialBeacon 12 100000 20000).symm.trans hdecode)
    obtain rfl := Option.some.inj hsource
    exact fun h => absurd h (by decide)
  exact ⟨hpassing, by decide +kernel, (own_station_touched_only hpassing).1 _ _ hother,
    by decide +kernel⟩

end Geocast.Router
