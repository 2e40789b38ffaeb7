import Geocast.Proofs.Forwarding.Decision
import Geocast.Proofs.Router.Waiting

/-!
# What the end of a lookup lets go

A packet from a station whose lookup is in flight ends the lookup, and what was queued for the
station goes on. It should go on with the place just heard. It does exactly when the stamp of that
place is fresh (`resolved_destination_iff`): the lookup ends whatever the stamp, but the place is
read back from the table, which does not see an entry under a stamp that is not fresh.
-/

namespace Geocast

/-- The station that a frame is for, as the frame describes it, if it is for one. -/
def Packet.destinationOf? (frame : Bytes) : Option ShortPosition :=
  match decode frame with
  | .ok p =>
    match p.extended with
    | .unicast u => some u.destination
    | _ => none
  | .error _ => none

/-- The station that a frame is for, if it is for one. -/
def Packet.goal? (frame : Bytes) : Option Address :=
  (Packet.destinationOf? frame).map ShortPosition.address

theorem Packet.goal?_of_decode {frame : Bytes} {p : Packet} {u : UnicastHeader}
    (hdecode : Packet.decode frame = .ok p) (is_unicast : p.extended = .unicast u) :
    Packet.goal? frame = some u.destination.address := by
  unfold Packet.goal? Packet.destinationOf?
  rw [hdecode]
  dsimp only
  rw [is_unicast]
  rfl

namespace Router

variable {α : Type}

/-- A station that is being asked for is known, once heard, by what was heard. -/
theorem Asking.keptPosition {r : Router α} (h : Asking r) {v : LongPosition}
    (hpending : r.lookups.isPending v.address = true) : r.keptPosition v = v := by
  unfold Router.keptPosition
  cases hfind : r.table.find? v.address r.clock with
  | none => rfl
  | some e =>
    have hget := ((LocationTable.find?_eq_some_iff _ _ _ _).mp hfind).1
    have hplaceholder := h.asked v.address hpending e hget
    show LocationTable.keptPosition e v = v
    unfold LocationTable.keptPosition
    rw [hplaceholder, Bool.true_or, if_pos rfl]

variable [Scalar α]

/-- What a packet does that ends a lookup: who waits is told, and the queue goes on in a table that
knows of the packet. -/
theorem receive_resolves {r : Router α} (horderly : Orderly r) {frame : Bytes} {a : Arrival}
    (hrunning : r.phase = .running) (hjudge : r.judge frame = .ok a)
    (hpending : r.lookups.isPending a.source.address = true) :
    ∃ table rest, table.lifetime = r.table.lifetime ∧
      (∃ e, table.stations.get? a.source.address = some e ∧ e.pending = false ∧
        e.position = a.source) ∧
      (r.receive frame).2.released = r.released ++
        ((r.queues.ready .lookup (some a.source.address) r.now).filterMap
          (({ r with table } : Router α).release? .lookup) ++ rest) ∧
      (∀ e ∈ rest, e.kind ≠ .lookup) ∧
      (∀ e ∈ (r.queues.ready .lookup (some a.source.address) r.now).filterMap
          (({ r with table } : Router α).release? .lookup),
        e.HandedOut (r.receive frame).2.emissions) ∧
      (r.receive frame).2.completions =
        r.completions ++ (r.waiters a.source.address).map (⟨·, .ok ()⟩) ∧
      (r.receive frame).2.lookups.isPending a.source.address = false := by
  obtain ⟨_, _, _, hother, _⟩ := judge_ok hjudge
  have hlearned : Learned r.arrived a (r.arrived.learn a).1 (r.arrived.learn a).2 :=
    learn_learned (horderly.fitted.own ▸ hother)
  rw [receive_of_judge hrunning hjudge]
  rcases process_cases r.arrived a with ⟨n, s, hlearn, _⟩ | ⟨check, s, f, hlearn, _, hprocess⟩
  · -- a packet of a station that is being asked for cannot have been seen before
    rw [hlearn] at hlearned
    have hseen : (r.remembered a.source.address).contains n = true :=
      ((hlearned.duplicate n).mp rfl).2
    rw [horderly.asking.remembered hpending] at hseen
    exact absurd hseen Bool.false_ne_true
  · rw [hlearn] at hlearned
    obtain ⟨table, rfl⟩ := eq_of_learn hlearn
    obtain ⟨e, hget, hknown, hposition, _⟩ := hlearned.entry
    obtain ⟨l, hl⟩ := (isPending_iff r a.source.address).mp hpending
    have hwaiters : r.waiters a.source.address = l.waiters := by
      unfold waiters
      rw [hl]
      rfl
    generalize hbefore : ({ r.arrived with table } : Router α).count f = b at hprocess
    have hlb : b.lookups.inFlight.get? a.source.address = some l := by rw [← hbefore]; exact hl
    obtain ⟨hended, _⟩ := resolveLookup_ended hlb
    obtain ⟨hreleases, hhandedOut⟩ := resolveLookup_released hlb
    have hforwards := accept_forwards b (sendable_of_judge hjudge)
    obtain ⟨hemissions, rest, hrest, hkinds⟩ := hforwards.noted
    have halike := hforwards.alike
    rw [hprocess]
    refine ⟨table, rest, hlearned.lifetime, ⟨e, hget, hknown, ?_⟩, ?_, hkinds, ?_, ?_, ?_⟩
    · exact hposition.trans (horderly.asking.keptPosition hpending)
    · show (b.accept a).2.released = _
      rw [hrest, hreleases, List.append_assoc, ← hbefore]
      rfl
    · intro e he
      rw [← hbefore] at hhandedOut hemissions ⊢
      exact (hhandedOut e he).mono hemissions
    · show (b.accept a).2.completions = _
      rw [halike.completions, hended.completions, hwaiters, ← hbefore]
      rfl
    · show (b.accept a).2.lookups.isPending a.source.address = false
      rw [halike.lookups, Bool.eq_false_iff]
      exact fun hstill => absurd rfl (hended.left.flying _ hstill).2

/-- A packet that was written down before the place of its station was known goes on, at once, with
what the table says by then. -/
theorem release?_unresolved (r : Router α) (kind : QueueKind) {parcel : Parcel} {a : Address}
    (h : ∃ q u, Packet.decode parcel.frame = .ok q ∧ q.extended = .unicast u ∧
      u.destination = { address := a } ∧ u.source.address = r.config.address) :
    ∃ e, r.release? kind parcel = some e ∧ e.decision.isPrompt = true ∧
      Packet.destinationOf? e.frame = some ((r.table.findPosition? a r.clock).elim
        { address := a } fun entry => entry.position.toShort) := by
  obtain ⟨q, u, hdecode, is_unicast, hdestination, hsource⟩ := h
  refine ⟨_, release?_of_unicast r kind is_unicast hdecode, ?_, ?_⟩
  · -- the packet is the router's own, and does not wait for its turn
    unfold onward
    rw [if_pos hsource]
    exact Forwarder.toward_isPrompt _ _ rfl
  · have hsendable := onward_sendable r parcel (Packet.sendable_of_decode hdecode) u is_unicast
    unfold Packet.destinationOf?
    dsimp only
    rw [Packet.decode_encode hsendable]
    -- it says no place itself, so that whatever the table says goes in
    show some (r.refreshed u.destination (isUnresolved u.destination)) = _
    rw [hdestination]
    unfold refreshed
    cases r.table.findPosition? a r.clock with
    | none => rfl
    | some entry => rfl

/-- The records of a queue name its parcels, in order. -/
theorem map_parcel_records {r : Router α} {ready : List Parcel} {rest : List Release}
    (hready : ∀ p ∈ ready, ∃ e, r.release? .lookup p = some e)
    (hrest : ∀ e ∈ rest, e.kind ≠ .lookup) :
    ((ready.filterMap (r.release? .lookup) ++ rest).filter (·.kind = .lookup)).map
      Release.parcel = ready := by
  induction ready with
  | nil =>
    rw [List.filterMap_nil, List.nil_append, List.filter_eq_nil_iff.mpr]
    · rfl
    · exact fun e he => by simpa using hrest e he
  | cons p ready ih =>
    obtain ⟨e, he⟩ := hready p List.mem_cons_self
    obtain ⟨_, hkind, hparcel⟩ := release?_parcel he
    have ih := ih fun q hq => hready q (List.mem_cons_of_mem _ hq)
    have hkept : decide (e.kind = .lookup) = true := decide_eq_true hkind
    rw [List.filterMap_cons_some he, List.cons_append, List.filter_cons, if_pos hkept,
      List.map_cons, hparcel, ih]

/-- Whenever a frame whose source is known by the vector `v` ends the lookup for that source, each
packet queued for it that has not waited too long goes on, handed to the link or parked in another
queue at once, as a packet for that station, and it carries the latitude and longitude of `v`
exactly when the stamp of `v` is fresh or `v` lies at the place that stands for none. -/
theorem resolved_destination_iff {r : Router α} (reach : Reachable r) {frame : Bytes} {p : Packet}
    (hdecode : Packet.decode frame = .ok p) {v : LongPosition} (hsource : p.source? = some v)
    (hpending : r.lookups.isPending v.address = true)
    (hresolved : (r.receive frame).2.lookups.isPending v.address = false) :
    ∃ new, (r.receive frame).2.released = r.released ++ new ∧
      (new.filter (·.kind = .lookup)).map Release.parcel =
        r.queues.ready .lookup (some v.address) r.now ∧
      ∀ e ∈ new, e.kind = .lookup → e.decision.isPrompt = true ∧
        e.HandedOut (r.receive frame).2.emissions ∧
        ∃ d, Packet.destinationOf? e.frame = some d ∧ d.address = v.address ∧
          (d.point = v.point ↔ r.table.Fresh v.timestamp r.clock ∨ v.point = {}) := by
  have horderly := reach.orderly
  rcases receive_cases r frame with ⟨hforwards, _⟩ | ⟨a, hrunning, hjudge⟩
  · -- a frame that is not looked at ends no lookup
    rw [hforwards.alike.lookups] at hresolved
    exact absurd (hpending.symm.trans hresolved) (by simp)
  · obtain ⟨p', hdecode', hsource', _, _, _⟩ := judge_ok hjudge
    obtain rfl := Except.ok.inj (hdecode.symm.trans hdecode')
    obtain rfl := Option.some.inj (hsource.symm.trans hsource')
    obtain ⟨table, rest, hlifetime, ⟨e, hget, hknown, hposition⟩, hreleased, hrest, hhandedOut,
      _, _⟩ := receive_resolves horderly hrunning hjudge hpending
    let s : Router α := { r with table }
    have hrecord (parcel : Parcel)
        (hparcel : parcel ∈ r.queues.ready .lookup (some a.source.address) r.now) :=
      release?_unresolved s .lookup (horderly.addressed a.source.address parcel
        (List.mem_filter.mp hparcel).1)
    refine ⟨_, hreleased, ?_, ?_⟩
    · refine map_parcel_records (fun parcel hparcel => ?_) hrest
      obtain ⟨e', he', _⟩ := hrecord parcel hparcel
      exact ⟨e', he'⟩
    · intro e' he' hkind
      rcases List.mem_append.mp he' with he' | he'
      · obtain ⟨parcel, hparcel, hsome⟩ := List.mem_filterMap.mp he'
        obtain ⟨e'', hsome', hprompt, hdestination⟩ := hrecord parcel hparcel
        obtain rfl := Option.some.inj (hsome.symm.trans hsome')
        refine ⟨hprompt, hhandedOut _ he', _, hdestination, ?_⟩
        -- the place is read back from the table, which sees it only under a fresh stamp
        have hsees (entry : Entry) :
            s.table.findPosition? a.source.address s.clock = some entry ↔
              entry = e ∧ r.table.Fresh a.source.timestamp r.clock := by
          rw [LocationTable.findPosition?_eq_some_iff, LocationTable.fresh_congr hlifetime]
          constructor
          · rintro ⟨hget', hfresh, _⟩
            obtain rfl := Option.some.inj (hget.symm.trans hget')
            exact ⟨rfl, hposition ▸ hfresh⟩
          · rintro ⟨rfl, hfresh⟩
            exact ⟨hget, hposition.symm ▸ hfresh, hknown⟩
        by_cases hfresh : r.table.Fresh a.source.timestamp r.clock
        · rw [(hsees e).mpr ⟨rfl, hfresh⟩, Option.elim_some, hposition]
          exact ⟨rfl, fun _ => .inl hfresh, fun _ => rfl⟩
        · rw [Option.eq_none_iff_forall_ne_some.mpr fun entry h => hfresh ((hsees entry).mp h).2,
            Option.elim_none]
          exact ⟨rfl, fun h => .inr h.symm, fun h => (h.resolve_left hfresh).symm⟩
      · exact absurd hkind (hrest e' he')

/-- A place that is heard under the stamp of the clock goes along. -/
theorem resolved_destination_of_now :
    let r := ((trialStarted trialGeometry trialConfig).transmit (trialRequest 12 1)).2
    let s := (r.receive (trialBeacon 12 100000 20000).encode).2
    Reachable r ∧ r.lookups.isPending (trialStation 12) = true ∧
      s.lookups.isPending (trialStation 12) = false ∧
      ∃ e ∈ s.released, ∃ d, Packet.destinationOf? e.frame = some d ∧ d.point = ⟨0, 20000⟩ := by
  intro r s
  have hreach : Reachable r := (trialConfig_reachable trialGeometry).step (.transmit _ _)
  have hpending : r.lookups.isPending (trialStation 12) = true := by decide +kernel
  have hresolved : s.lookups.isPending (trialStation 12) = false := by decide +kernel
  obtain ⟨new, hreleased, hparcels, hnew⟩ := resolved_destination_iff hreach
    (decode_trialBeacon 12 100000 20000) rfl hpending hresolved
  have hqueued : (r.queues.ready .lookup (some (trialStation 12)) r.now).length = 1 := by
    decide +kernel
  obtain ⟨e, he⟩ := List.exists_mem_of_length_pos (l := new.filter (·.kind = .lookup)) (by
    rw [← List.length_map Release.parcel, hparcels]
    exact hqueued ▸ Nat.one_pos)
  obtain ⟨hmem, hkind⟩ := List.mem_filter.mp he
  obtain ⟨_, _, d, hd, _, hpoint⟩ := hnew e hmem (by simpa using hkind)
  refine ⟨hreach, hpending, hresolved, e, ?_, d, hd, ?_⟩
  · show e ∈ (r.receive _).2.released
    rw [hreleased]
    exact List.mem_append_right _ hmem
  · exact hpoint.mpr (.inl (by decide +kernel))

/-- A place that is heard under a stamp a minute old does not. -/
theorem not_forall_resolved_destination :
    ¬ ∀ r : Router Float, Reachable r → ∀ frame p, Packet.decode frame = .ok p →
      ∀ v, p.source? = some v → r.lookups.isPending v.address = true →
        (r.receive frame).2.lookups.isPending v.address = false → v.point ≠ {} →
        ∀ e ∈ (r.receive frame).2.released.drop r.released.length, e.kind = .lookup →
          (Packet.destinationOf? e.frame).map ShortPosition.point = some v.point := by
  intro h
  have hall := h _ ((trialConfig_reachable Sphere.geometry).step (.transmit _ (trialRequest 12 1)))
    _ _ (decode_trialBeacon 12 40000 20000) _ rfl (by decide +kernel) (by decide +kernel)
    (by decide)
  exact absurd hall (by decide +kernel)

end Router

end Geocast
