import Geocast.Proofs.Router.Waiting

/-!
# Lookups, queues and placeholders agree

Lookups, the queues behind them and the table are changed at different points of sending,
receiving, asking again, giving up and stopping. `Orderly` says in one direction that they agree:
what is queued has a lookup, and a station that is asked for has no known place. The other direction
is that a placeholder is only there while its station is asked for (`Attended`);
`lookups_coherent` puts the two together.
-/

namespace Geocast.Router

variable {α : Type}

/-- Every placeholder is as it was put in, and until the router stops its station is being asked
for. -/
structure Attended (r : Router α) : Prop where
  bare : ∀ a e, r.table.stations.get? a = some e → e.pending = true →
    ∃ stamp, e = .placeholder a stamp
  asked : r.phase ≠ .stopped → ∀ a e, r.table.stations.get? a = some e → e.pending = true →
    r.lookups.isPending a = true

/-- Placeholders that stay, in a router that goes on, need their lookups to stay. -/
theorem Attended.stay {r s : Router α} (h : Attended r)
    (hentries : ∀ a e, s.table.stations.get? a = some e → e.pending = true →
      r.table.stations.get? a = some e)
    (hasked : s.phase ≠ .stopped → r.phase ≠ .stopped ∧
      ∀ a e, s.table.stations.get? a = some e → e.pending = true →
        r.lookups.isPending a = true → s.lookups.isPending a = true) : Attended s where
  bare := fun a e he hpending => h.bare a e (hentries a e he hpending) hpending
  asked := fun hphase a e he hpending =>
    (hasked hphase).2 a e he hpending
      (h.asked (hasked hphase).1 a e (hentries a e he hpending) hpending)

theorem isPending_of_get? {r s : Router α} {a : Address}
    (h : s.lookups.inFlight.get? a = r.lookups.inFlight.get? a)
    (hpending : r.lookups.isPending a = true) : s.lookups.isPending a = true := by
  obtain ⟨l, hl⟩ := (isPending_iff r a).mp hpending
  exact (isPending_iff s a).mpr ⟨l, h.trans hl⟩

theorem Awaited.attended {r s : Router α} {target : Address} {p : Parcel}
    (hawaited : Awaited r target p s) (h : Attended r) : Attended s := by
  have htarget : s.lookups.isPending target = true :=
    (isPending_iff s target).mpr (hawaited.line.imp fun _ => And.left)
  constructor
  · intro a e he hpending
    rcases hawaited.entry he with he | ⟨_, rfl⟩
    · exact h.bare a e he hpending
    · exact ⟨_, rfl⟩
  · intro hrunning a e he hpending
    by_cases ha : a = target
    · exact ha ▸ htarget
    · rcases hawaited.entry he with he | ⟨heq, _⟩
      · exact isPending_of_get? (hawaited.others a ha)
          (h.asked (hawaited.phase ▸ hrunning) a e he hpending)
      · exact absurd heq ha

theorem Heard.attended {r s : Router α} {a : Arrival} (hheard : Heard r a s) (h : Attended r) :
    Attended s := by
  obtain ⟨_, hlearned, _⟩ := hheard.learned
  -- the source has a known place, so that a placeholder is for another station
  have hother (b : Address) (e : Entry) (he : s.table.stations.get? b = some e)
      (hpending : e.pending = true) : b ≠ a.source.address := by
    rintro rfl
    obtain ⟨e', he', hknown, _⟩ := hlearned.entry
    obtain rfl := Option.some.inj (he'.symm.trans he)
    rw [hknown] at hpending
    exact absurd hpending Bool.false_ne_true
  refine h.stay (fun b e he hpending => ?_) fun hphase =>
    ⟨hheard.phase ▸ hphase, fun b e he hpending hasked => ?_⟩
  · rwa [← hlearned.others b (hother b e he hpending)]
  · exact isPending_of_get? (hheard.flying b (hother b e he hpending)) hasked

variable [Scalar α] {P : Router α → Packet → Prop} {r s : Router α}

theorem Work.attended (hwork : Work P r s) (h : Attended r) : Attended s := by
  cases hwork with
  | forward hforward =>
    have halike := hforward.alike
    refine h.stay (fun _ _ he _ => halike.table ▸ he) fun hphase =>
      ⟨halike.phase ▸ hphase, fun _ _ _ _ hasked => halike.lookups ▸ hasked⟩
  | await d small _ _ => exact (await_awaited r _ (r.unresolvedParcel d small _)).2.attended h
  | tend htends =>
    exact h.stay (fun _ _ he _ => he) fun hphase =>
      ⟨hphase, fun a _ _ _ hasked => (htends.isPending a).trans hasked⟩
  | @expire target l hl =>
    obtain ⟨hended, htable, _⟩ := expireLookup_ended hl
    refine h.stay (fun a e he _ => ?_) fun hphase =>
      ⟨hended.phase ▸ hphase, fun a e he hpending hasked => ?_⟩
    · rw [htable] at he
      exact LocationTable.cancelPending_get? he
    · -- the placeholder of the station that nobody asks for any longer is gone
      have ha : a ≠ target := by
        rintro rfl
        rw [htable] at he
        rw [LocationTable.cancelPending_pending he] at hpending
        exact absurd hpending Bool.false_ne_true
      exact isPending_of_get? (by rw [hended.inFlight, AddressMap.get?_erase_of_ne _ ha]) hasked
  | sweep due =>
    exact h.stay (fun _ _ he _ => LocationTable.purgeStale_get? he) fun hphase =>
      ⟨hphase, fun _ _ _ _ => id⟩
  | start _ _ _ hcreated =>
    exact h.stay (fun _ _ he _ => he) fun _ =>
      ⟨by rw [hcreated]; decide, fun _ _ _ _ => id⟩
  | stop hrunning =>
    rw [stop_eq hrunning]
    exact h.stay (fun _ _ he _ => he) fun hphase => absurd rfl hphase
  | reposition position => exact ⟨h.bare, h.asked⟩
  | pass => exact ⟨h.bare, h.asked⟩
  | arrive => exact ⟨h.bare, h.asked⟩
  | clear => exact ⟨h.bare, h.asked⟩

theorem Reachable.attended (reach : Reachable r) : Attended r := by
  refine reach.invariant_fitted (fun hmade => ?_) fun hmove hfitted h => ?_
  · obtain ⟨_, rfl⟩ := eq_of_make hmade
    constructor <;> simp [LocationTable.make, AddressMap.get?_empty]
  · cases hmove with
    | work hwork => exact hwork.attended h
    | hear hheard =>
      obtain ⟨a, hheard⟩ := hheard.heard hfitted.own
      exact hheard.attended h

/-- In every state that a running router can come to, and for every station: if packets wait for
its place, it is being asked for; if the table holds a placeholder for it, it is being asked for,
and the placeholder is no neighbour and remembers no packet; if it is being asked for, the table
holds nothing but a placeholder for it. -/
theorem lookups_coherent (reach : Reachable r) (hrunning : r.phase = .running) (a : Address) :
    (r.queues.queue .lookup a ≠ [] → r.lookups.isPending a = true) ∧
    (∀ e, r.table.stations.get? a = some e → e.pending = true →
      r.lookups.isPending a = true ∧ e.neighbor = false ∧ e.duplicates.seen = [] ∧
        e.lastSequence = none) ∧
    (r.lookups.isPending a = true →
      ∀ e, r.table.stations.get? a = some e → e.pending = true) := by
  have horderly := reach.orderly
  have hattended := reach.attended
  refine ⟨fun hqueue => ?_, fun e he hpending => ?_, horderly.asking.asked a⟩
  · -- whoever has a packet queued waits on a lookup
    obtain ⟨p, hp⟩ := List.exists_mem_of_ne_nil _ hqueue
    obtain ⟨n, hn, _⟩ := horderly.inLine.waits hp
    cases hl : r.lookups.inFlight.get? a with
    | none =>
      unfold waiters at hn
      rw [hl] at hn
      exact absurd hn List.not_mem_nil
    | some l => exact (isPending_iff r a).mpr ⟨l, hl⟩
  · obtain ⟨stamp, rfl⟩ := hattended.bare a e he hpending
    exact ⟨hattended.asked (by rw [hrunning]; decide) a _ he hpending, rfl, rfl, rfl⟩

/-- A packet for a station of unknown place waits for a lookup in flight. -/
theorem lookups_coherent_of_waiting :
    let r := ((trialStarted trialGeometry trialConfig).transmit (trialRequest 12 1)).2
    Reachable r ∧ r.phase = .running ∧ r.queues.queue .lookup (trialStation 12) ≠ [] ∧
      r.lookups.isPending (trialStation 12) = true := by
  intro r
  have hreach : Reachable r := (trialConfig_reachable trialGeometry).step (.transmit _ _)
  have hrunning : r.phase = .running := by decide +kernel
  have hqueue : r.queues.queue .lookup (trialStation 12) ≠ [] := by decide +kernel
  exact ⟨hreach, hrunning, hqueue, (lookups_coherent hreach hrunning (trialStation 12)).1 hqueue⟩

end Geocast.Router
