import Geocast.Proofs.Router.Lookups

/-!
# Lookups in flight

Which lookups are in flight, for which stations and how far each has come, changes in few ways. A
loop that goes on makes of its own lookup what `nextOf` says, and leaves every other one alone, even
one for the same station (`continueLookup_get?`); a request to send lets one more wait
(`transmit_flight`), and a frame ends the lookup for its source (`receive_flight`). All moves keep
lookups and loops together (`Move.tended`).
-/

namespace Geocast.Router

variable {α : Type} {r s : Router α}

/-! ## Lookups and loops stay together -/

/-- A packet that is parked joins a lookup with a loop, or opens one. -/
theorem await_tended (h : r.lookups.Tended) (target : Address) (p : Parcel) :
    (r.await target p).2.lookups.Tended := by
  unfold await
  generalize hqueued : (r.useSequence (some p.origin)).enqueue .lookup target p = q
  have hlookups : q.lookups = r.lookups := by rw [← hqueued]; rfl
  have htended : q.lookups.Tended := by rwa [hlookups]
  cases hpending : q.lookups.isPending target with
  | true =>
    obtain ⟨l, hl⟩ := (isPending_iff q target).mp hpending
    rw [openLookup_pending q target hpending, subscribe_eq q hl]
    exact htended.replace hl rfl (htended.going _ l hl)
  | false =>
    have hbegin : q.lookups.begin? target = some (q.fresh target, _) :=
      if_neg (Bool.eq_false_iff.mp hpending)
    have hopened := htended.begin hbegin q.now
    rw [openLookup_idle q target hpending, subscribe_eq _ (AddressMap.get?_insert_self _ _ _)]
    exact hopened.replace (AddressMap.get?_insert_self _ _ _) rfl ⟨rfl, rfl⟩

section

variable [Scalar α] {P : Router α → Packet → Prop}

/-- No elementary step leaves a lookup without its loop. -/
theorem Work.tended (h : Work P r s) (htended : r.lookups.Tended) : s.lookups.Tended := by
  cases h with
  | forward hforward => rwa [hforward.alike.lookups]
  | await d small _ _ => exact await_tended htended _ _
  | tend htends => exact htended.tends htends
  | expire hl => exact (expireLookup_ended hl).1.tended htended
  | stop hrunning =>
    rw [stop_eq hrunning]
    exact htended.abortAll
  | _ => exact htended

/-- A packet that is heard ends a lookup, and leaves its loop to find that out. -/
theorem Hear.tended (h : Hear r s) (htended : r.lookups.Tended) : s.lookups.Tended := by
  rcases h.forms with ⟨table, rfl⟩ | ⟨table, f, target, rfl⟩
  · exact htended
  · cases hl : r.lookups.inFlight.get? target with
    | none =>
      rw [resolveLookup_idle (r := ({ r with table } : Router α).count f) hl]
      exact htended
    | some l =>
      exact (resolveLookup_ended (r := ({ r with table } : Router α).count f) hl).1.tended htended

/-- Every lookup in flight keeps its loop, whatever happens. -/
theorem Move.tended (h : Move P r s) (htended : r.lookups.Tended) : s.lookups.Tended := by
  cases h with
  | work h => exact h.tended htended
  | hear h => exact h.tended htended

/-- So lookups and loops stay tied together over many steps. -/
theorem Works.tended (h : Works P r s) (htended : r.lookups.Tended) : s.lookups.Tended := by
  induction h with
  | refl => exact htended
  | tail _ hwork ih => exact hwork.tended ih

/-- A new router has neither. -/
theorem tended_of_made {geometry : Geometry α} {config : Config α} {base : Timestamp}
    {position : Nat → Fix} {jitter : Nat → Nat}
    (h : make geometry config base position jitter = .ok r) : r.lookups.Tended := by
  obtain ⟨_, rfl⟩ := eq_of_make h
  exact .empty

/-- In every reachable state each lookup in flight has its one loop. -/
theorem Reachable.tended (reach : Reachable r) : r.lookups.Tended :=
  reach.invariant tended_of_made Move.tended

end

/-! ## Loops that go on -/

/-- What the loop of a lookup makes of it: one more request, unless all were sent. -/
def nextOf (r : Router α) (l : Lookup) : Option Lookup :=
  if l.requests < r.config.maxRequests then some { l with requests := l.requests + 1 } else none

/-- What a loop does that goes on: it ends if its lookup is not in flight any more, and else the
lookup asks once more, or is given up. -/
theorem continueLookup_cases (h : r.lookups.Tended) (key : LookupKey) :
    r.lookups.flying? key = none ∧
        (∃ ended, r.continueLookup key = { r with lookups := { r.lookups with
          ended, loops := (r.lookups.endLoop key).loops } }) ∨
      ∃ l, r.lookups.flying? key = some l ∧
        ((∃ l', r.nextOf l = some l' ∧ r.continueLookup key =
          { r.sendLocationRequest key.target with
            lookups := { r.lookups with
              inFlight := r.lookups.inFlight.insert key.target l'
              loops := (r.lookups.sleep key (r.now + r.config.retransmitMillis)).loops } }) ∨
        r.nextOf l = none ∧ r.continueLookup key = { r.expireLookup key.target with
          lookups := (r.expireLookup key.target).lookups.endLoop key }) := by
  -- a loop of a lookup in flight cannot find it complete, nor one of an ended lookup find it
  -- going
  have hgoing (hcomplete : r.lookups.isComplete key = false) :
      ∃ l, r.lookups.flying? key = some l := by
    refine Option.ne_none_iff_exists'.mp fun hnone => ?_
    exact Bool.false_ne_true (hcomplete.symm.trans (h.isComplete_iff.mpr hnone))
  unfold nextOf
  rcases r.continueLookup_forms key with
    ⟨hcomplete, heq⟩ | ⟨hcomplete, hmore, heq⟩ | ⟨hcomplete, hall, heq⟩
  · have hnone := h.isComplete_iff.mp hcomplete
    rw [LookupService.endLoop_takeNotice hnone] at heq
    exact .inl ⟨hnone, _, heq⟩
  · obtain ⟨l, hl⟩ := hgoing hcomplete
    rw [LookupService.requestsSent_of_flying hl] at hmore
    refine .inr ⟨l, hl, .inl ⟨_, if_pos hmore, heq.trans ?_⟩⟩
    unfold LookupService.recordRequest LookupService.modify
    rw [hl]
    rfl
  · obtain ⟨l, hl⟩ := hgoing hcomplete
    rw [LookupService.requestsSent_of_flying hl] at hall
    exact .inr ⟨l, hl, .inr ⟨if_neg (Nat.not_lt.mpr hall), heq⟩⟩

/-- A loop that goes on changes the lookup with its own key, and leaves every other one alone. -/
theorem continueLookup_get? (h : r.lookups.Tended) (key : LookupKey) (a : Address) :
    (r.continueLookup key).lookups.inFlight.get? a =
      (r.lookups.inFlight.get? a).bind fun l => if l.key = key then r.nextOf l else some l := by
  -- what is in flight for another station, or under another number, has another key
  have hother (hne : ∀ l, r.lookups.inFlight.get? a = some l → l.key ≠ key) :
      (r.lookups.inFlight.get? a).bind (fun l => if l.key = key then r.nextOf l else some l) =
        r.lookups.inFlight.get? a := by
    cases hl : r.lookups.inFlight.get? a with
    | none => rfl
    | some l => exact if_neg (hne l hl)
  have helsewhere (ha : a ≠ key.target) (l : Lookup) (hl : r.lookups.inFlight.get? a = some l) :
      l.key ≠ key := fun heq =>
    ha ((h.named a l hl).symm.trans (LookupService.key_eq_iff.mp heq).1)
  rcases r.continueLookup_cases h key with ⟨hnone, ended, heq⟩ | ⟨l, hl, hcases⟩
  · rw [heq, hother]
    rintro l hl rfl
    exact nomatch hnone.symm.trans (h.flying_of_get? hl)
  · obtain ⟨hget, _⟩ := LookupService.flying?_eq_some_iff.mp hl
    have hkey := h.key_of_flying hl
    by_cases ha : a = key.target
    · rw [ha, hget, Option.bind_some, if_pos hkey]
      rcases hcases with ⟨l', hnext, heq⟩ | ⟨hlast, heq⟩
      · rw [heq, hnext]
        exact AddressMap.get?_insert_self _ _ _
      · rw [heq, hlast]
        exact expireLookup_get? r key.target
    · rw [hother (helsewhere ha)]
      rcases hcases with ⟨l', _, heq⟩ | ⟨_, heq⟩
      · rw [heq]
        exact AddressMap.get?_insert_of_ne _ _ ha
      · rw [heq]
        show (r.expireLookup key.target).lookups.inFlight.get? a = _
        rw [(expireLookup_ended hget).1.inFlight, AddressMap.get?_erase_of_ne _ ha]

/-- A loop that goes on leaves the other loops asleep. -/
theorem continueLookup_loops (h : r.lookups.Tended) {key k : LookupKey} (hne : k ≠ key)
    (due : Nat) :
    ⟨k, due⟩ ∈ (r.continueLookup key).lookups.loops ↔ ⟨k, due⟩ ∈ r.lookups.loops := by
  rcases r.continueLookup_cases h key with
    ⟨_, ended, heq⟩ | ⟨l, hl, ⟨l', _, heq⟩ | ⟨_, heq⟩⟩
  · rw [heq]
    exact LookupService.mem_endLoop_iff_of_ne hne due
  · rw [heq]
    exact LookupService.mem_sleep_iff_of_ne hne _ due
  · obtain ⟨hget, _⟩ := LookupService.flying?_eq_some_iff.mp hl
    rw [heq]
    refine (LookupService.mem_endLoop_iff_of_ne hne due).trans ?_
    rw [(expireLookup_ended hget).1.loops]

/-- A lookup that asks once more sleeps for a retransmission interval. -/
theorem continueLookup_sleeps (h : r.lookups.Tended) {a : Address} {l l' : Lookup}
    (hl : r.lookups.inFlight.get? a = some l) (hnext : r.nextOf l = some l') :
    ⟨l.key, r.now + r.config.retransmitMillis⟩ ∈ (r.continueLookup l.key).lookups.loops := by
  have hflying := h.flying_of_get? hl
  rcases r.continueLookup_cases h l.key with ⟨hnone, _⟩ | ⟨m, hm, hcases⟩
  · exact nomatch hnone.symm.trans hflying
  obtain rfl := Option.some.inj (hm.symm.trans hflying)
  rcases hcases with ⟨_, _, heq⟩ | ⟨hlast, _⟩
  · obtain ⟨due, hloop⟩ := h.looped a m hl
    rw [heq]
    exact LookupService.mem_sleep hloop
  · exact nomatch hlast.symm.trans hnext

/-- After the last request the loop gives its lookup up and ends. -/
theorem continueLookup_of_last (h : r.lookups.Tended) {a : Address} {l : Lookup}
    (hl : r.lookups.inFlight.get? a = some l) (hlast : r.nextOf l = none) :
    r.continueLookup l.key = { r.expireLookup a with
      lookups := (r.expireLookup a).lookups.endLoop l.key } := by
  have hflying := h.flying_of_get? hl
  rcases r.continueLookup_cases h l.key with ⟨hnone, _⟩ | ⟨m, hm, hcases⟩
  · exact nomatch hnone.symm.trans hflying
  obtain rfl := Option.some.inj (hm.symm.trans hflying)
  rcases hcases with ⟨_, hnext, _⟩ | ⟨_, heq⟩
  · exact nomatch hnext.symm.trans hlast
  · rwa [show m.key.target = a from h.named a m hl] at heq

/-- To give a lookup up takes no time, and takes back nothing that was told. -/
theorem expireLookup_kept (r : Router α) (target : Address) :
    (r.expireLookup target).config = r.config ∧ (r.expireLookup target).now = r.now ∧
      (r.expireLookup target).phase = r.phase ∧
      r.completions <+: (r.expireLookup target).completions := by
  cases hl : r.lookups.inFlight.get? target with
  | none =>
    rw [expireLookup_idle hl]
    exact ⟨rfl, rfl, rfl, List.prefix_rfl⟩
  | some l =>
    have hended := (expireLookup_ended hl).1
    exact ⟨hended.config, hended.now, hended.phase,
      hended.completions ▸ List.prefix_append _ _⟩

/-- Nor does a loop that goes on. -/
theorem continueLookup_kept (r : Router α) (key : LookupKey) :
    (r.continueLookup key).config = r.config ∧ (r.continueLookup key).now = r.now ∧
      (r.continueLookup key).phase = r.phase ∧
      r.completions <+: (r.continueLookup key).completions := by
  rcases r.continueLookup_forms key with ⟨_, heq⟩ | ⟨_, _, heq⟩ | ⟨_, _, heq⟩
  · rw [heq]
    exact ⟨rfl, rfl, rfl, List.prefix_rfl⟩
  · rw [heq]
    exact ⟨rfl, rfl, rfl, List.prefix_rfl⟩
  · rw [heq]
    exact expireLookup_kept r key.target

theorem nextOf_congr (hconfig : s.config = r.config) : s.nextOf = r.nextOf := by
  funext l
  unfold nextOf
  rw [hconfig]

/-- A lookup that asks once more is the same lookup, and those who wait for it still do. -/
theorem nextOf_same {l l' : Lookup} (h : r.nextOf l = some l') :
    l'.key = l.key ∧ l'.waiters = l.waiters := by
  unfold nextOf at h
  split at h
  · obtain rfl := Option.some.inj h
    exact ⟨rfl, rfl⟩
  · exact nomatch h

/-! ## Requests to send and frames -/

/-- The lookup for the station that a packet waits for: the one in flight, or else a new one. -/
theorem await_get? (r : Router α) (target : Address) (p : Parcel) :
    (r.await target p).2.lookups.inFlight.get? target =
      let l := (r.lookups.inFlight.get? target).getD (r.fresh target)
      some { l with waiters := l.waiters ++ [r.handles] } := by
  unfold await
  generalize hqueued : (r.useSequence (some p.origin)).enqueue .lookup target p = q
  have hlookups : q.lookups = r.lookups := by rw [← hqueued]; rfl
  cases hpending : r.lookups.isPending target with
  | true =>
    obtain ⟨l, hl⟩ := (isPending_iff r target).mp hpending
    rw [openLookup_pending q target (hlookups ▸ hpending), subscribe_eq q (hlookups ▸ hl), hl,
      ← hqueued]
    exact AddressMap.get?_insert_self _ _ _
  | false =>
    rw [openLookup_idle q target (hlookups ▸ hpending),
      subscribe_eq _ (AddressMap.get?_insert_self _ _ _), get?_eq_none_of_idle hpending, ← hqueued]
    exact AddressMap.get?_insert_self _ _ _

/-- No loop ends when a packet begins to wait, and a lookup that begins has one that wakes up at
once. -/
theorem await_loops (r : Router α) (target : Address) (p : Parcel) :
    (r.await target p).2.lookups.loops = r.lookups.loops ++
      if r.lookups.isPending target then [] else [⟨(r.fresh target).key, r.now⟩] := by
  unfold await
  generalize hqueued : (r.useSequence (some p.origin)).enqueue .lookup target p = q
  have hlookups : q.lookups = r.lookups := by rw [← hqueued]; rfl
  cases hpending : r.lookups.isPending target with
  | true =>
    obtain ⟨l, hl⟩ := (isPending_iff r target).mp hpending
    rw [openLookup_pending q target (hlookups ▸ hpending), subscribe_eq q (hlookups ▸ hl),
      if_pos rfl, List.append_nil, ← hqueued]
    rfl
  | false =>
    rw [openLookup_idle q target (hlookups ▸ hpending),
      subscribe_eq _ (AddressMap.get?_insert_self _ _ _), ← hqueued]
    rfl

/-- Numbers of lookups are only ever given out. -/
theorem await_started (r : Router α) (target : Address) (p : Parcel) :
    r.lookups.started ≤ (r.await target p).2.lookups.started := by
  unfold await
  generalize hqueued : (r.useSequence (some p.origin)).enqueue .lookup target p = q
  have hlookups : q.lookups = r.lookups := by rw [← hqueued]; rfl
  rw [← hlookups]
  cases hpending : q.lookups.isPending target with
  | true =>
    obtain ⟨l, hl⟩ := (isPending_iff q target).mp hpending
    refine Nat.le_of_eq ?_
    rw [openLookup_pending q target hpending, subscribe_eq q hl]
  | false =>
    rw [openLookup_idle q target hpending, subscribe_eq _ (AddressMap.get?_insert_self _ _ _)]
    exact Nat.le_succ _

variable [Scalar α]

/-- A request to send changes at most the lookup for the station that it is for: it begins, with a
loop that wakes up at once, or one more waits for it. -/
theorem transmit_flight (r : Router α) (q : Request) :
    ((r.transmit q).2.now = r.now ∧ (r.transmit q).2.phase = r.phase ∧
      r.lookups.loops <+: (r.transmit q).2.lookups.loops) ∧
    ((r.transmit q).2.lookups = r.lookups ∨
      ∃ target, (∀ b, b ≠ target →
          (r.transmit q).2.lookups.inFlight.get? b = r.lookups.inFlight.get? b) ∧
        (∃ l, l = (r.lookups.inFlight.get? target).getD (r.fresh target) ∧
          (r.transmit q).2.lookups.inFlight.get? target =
            some { l with waiters := l.waiters ++ [r.handles] }) ∧
        (r.lookups.isPending target = false →
          ⟨(r.fresh target).key, r.now⟩ ∈ (r.transmit q).2.lookups.loops)) := by
  rcases transmit_cases r q with ⟨hforwards, _⟩ | ⟨target, small, _, _, heq⟩
  · have halike := hforwards.alike
    exact ⟨⟨halike.now, halike.phase, halike.lookups ▸ List.prefix_rfl⟩, .inl halike.lookups⟩
  · have hawaited := (await_awaited r target (r.unresolvedParcel (r.draft q) small target)).2
    have hloops := await_loops r target (r.unresolvedParcel (r.draft q) small target)
    rw [heq, hloops]
    refine ⟨⟨hawaited.now, hawaited.phase, List.prefix_append _ _⟩,
      .inr ⟨target, hawaited.others, ⟨_, rfl, await_get? r target _⟩, fun hidle => ?_⟩⟩
    rw [hidle]
    exact List.mem_append_right _ (List.mem_singleton.mpr rfl)

/-- A frame ends at most the lookup for the station that it came from, and no loop. -/
theorem receive_flight (r : Router α) (frame : Bytes) :
    ((r.receive frame).2.now = r.now ∧ (r.receive frame).2.phase = r.phase ∧
      (r.receive frame).2.lookups.loops = r.lookups.loops) ∧
    ((r.receive frame).2.lookups = r.lookups ∨
      ∃ a, r.judge frame = .ok a ∧ (r.receive frame).2.lookups.inFlight =
        r.lookups.inFlight.erase a.source.address) := by
  rcases receive_cases r frame with ⟨hforwards, _⟩ | ⟨a, hrunning, hjudge⟩
  · have halike := hforwards.alike
    exact ⟨⟨halike.now, halike.phase, congrArg (·.loops) halike.lookups⟩, .inl halike.lookups⟩
  · rw [receive_of_judge hrunning hjudge]
    rcases process_cases r.arrived a with ⟨n, s, hlearn, hprocess⟩ | ⟨_, s, f, hlearn, _, hprocess⟩
    · obtain ⟨table, rfl⟩ := eq_of_learn hlearn
      rw [hprocess]
      exact ⟨⟨rfl, rfl, rfl⟩, .inl rfl⟩
    · obtain ⟨table, rfl⟩ := eq_of_learn hlearn
      have halike := (accept_forwards (({ r.arrived with table } : Router α).count f)
        (sendable_of_judge hjudge)).alike
      rw [hprocess]
      -- a lookup ends here, but its loop is left to find that out
      cases hl : r.lookups.inFlight.get? a.source.address with
      | none =>
        rw [resolveLookup_idle (r := ({ r.arrived with table } : Router α).count f) hl] at halike
        exact ⟨⟨halike.now, halike.phase, congrArg (·.loops) halike.lookups⟩, .inl halike.lookups⟩
      | some l =>
        have hended := (resolveLookup_ended
          (r := ({ r.arrived with table } : Router α).count f) hl).1
        exact ⟨⟨halike.now.trans hended.now, halike.phase.trans hended.phase,
          (congrArg (·.loops) halike.lookups).trans hended.loops⟩, .inr ⟨a, hjudge,
          (congrArg LookupService.inFlight halike.lookups).trans hended.inFlight⟩⟩

end Geocast.Router
