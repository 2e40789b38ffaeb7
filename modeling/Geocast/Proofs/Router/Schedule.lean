import Geocast.Proofs.Router.Coherence
import Geocast.Proofs.Router.Completion
import Geocast.Proofs.Router.Conclusion
import Geocast.Proofs.Router.Pace

/-!
# The schedule of a lookup

A run that starts a lookup and brings no frame of its station sends the requests of the schedule and
no others. When the last interval ends, nothing is left of the lookup (`GivenUp`); a frame of the
station ends it with success before (`Answered`). Both are said in `lookup_scheduled`.
-/

namespace Geocast.Router

variable {α : Type} [Scalar α] {r s : Router α} {a : Address} {start : Nat}
  {earlier : List (Nat × LinkTarget)}

/-! ## Lookups that end -/

/-- Some lookups have been given up, and each is counted once. -/
def CountsEnded (r s : Router α) : Prop :=
  ∃ ended : List Address, ended.Nodup ∧
    (∀ b, b ∈ ended ↔ r.lookups.isPending b = true ∧ s.lookups.isPending b = false) ∧
    s.stats.lookupsExpired = r.stats.lookupsExpired + ended.length

theorem settle_countsEnded (htended : r.lookups.Tended) : CountsEnded r r.settle := by
  obtain ⟨ended, hconcludes, _⟩ := settle_concludes htended
  refine ⟨ended, hconcludes.nodup, fun b => ?_, congrArg Prod.snd hconcludes.counted⟩
  have hflight := hconcludes.flight b
  constructor
  · intro hb
    refine ⟨hconcludes.pending b hb, ?_⟩
    rw [← Bool.not_eq_true, hflight]
    exact fun h => h.2 hb
  · rintro ⟨hpending, hidle⟩
    by_contra hb
    exact Bool.false_ne_true (hidle.symm.trans (hflight.mpr ⟨hpending, hb⟩))

/-- A lookup was given up: nothing is left of it, those who waited know, and it is counted. -/
structure GivenUp (a : Address) (r s : Router α) : Prop where
  ended : s.lookups.isPending a = false
  emptied : s.queues.queue .lookup a = []
  forgotten : ∀ e, s.table.stations.get? a = some e → e.pending = false
  told : ∀ n ∈ r.waiters a, ⟨n, .error (.lookupTimeout a)⟩ ∈ s.completions
  counted : CountsEnded r s

/-- A lookup was answered: those who waited know and are told nothing else at any time, and no
further request goes out until there is another lookup. -/
structure Answered (a : Address) (r s : Router α) : Prop where
  ended : s.lookups.isPending a = false
  told : ∀ n ∈ r.waiters a, ⟨n, .ok ()⟩ ∈ s.completions
  final : ∀ t, Leads s t → ∀ c ∈ t.completions, c.handle ∈ r.waiters a → c.result = .ok ()
  silent : ∀ t, Relation.ReflTransGen
    (fun m m' => m.lookups.isPending a = false ∧ Step m m') s t → t.requests a = r.requests a

/-- What a lookup leaves when nobody asks for its station any longer. -/
theorem Reachable.cleared (reach : Reachable r) (hrunning : r.phase = .running)
    (hidle : r.lookups.isPending a = false) :
    r.queues.queue .lookup a = [] ∧
      ∀ e, r.table.stations.get? a = some e → e.pending = false := by
  refine ⟨?_, fun e he => ?_⟩
  · rw [List.eq_nil_iff_forall_not_mem]
    intro p hp
    obtain ⟨n, hn, _⟩ := reach.orderly.inLine.waits hp
    rw [waiters_of_idle hidle] at hn
    exact absurd hn List.not_mem_nil
  · rw [Bool.eq_false_iff]
    intro hpending
    have hasked := reach.attended.asked (by rw [hrunning]; decide) a e he hpending
    exact absurd (hidle.symm.trans hasked) Bool.false_ne_true

omit [Scalar α] in
theorem Paced.waiters_eq {l : Lookup} (h : Paced r a start earlier l) : r.waiters a = l.waiters :=
  waiters_of_get? h.flying

theorem Paced.givenUp {l : Lookup} (h : Paced r a start earlier l) (reach : Reachable r)
    (hlast : r.now + 1 = start + r.config.maxRequests * r.config.retransmitMillis) :
    GivenUp a r r.tick := by
  obtain ⟨hrunning, hended, _, htold⟩ := h.tick_last reach hlast
  obtain ⟨hemptied, hforgotten⟩ := (reach.step (.tick r)).cleared hrunning hended
  exact {
    ended := hended
    emptied := hemptied
    forgotten := hforgotten
    told := by
      rw [h.waiters_eq]
      exact htold
    counted := settle_countsEnded (r := { r with now := r.now + 1 }) reach.tended }

/-- A frame of the station ends a lookup with success, once and for all. -/
theorem Paced.answered {l : Lookup} (h : Paced r a start earlier l) (reach : Reachable r)
    {frame : Bytes} {arrival : Arrival} (hjudge : r.judge frame = .ok arrival)
    (hsource : arrival.source.address = a) : Answered a r (r.receive frame).2 := by
  subst hsource
  have hstep : Step r (r.receive frame).2 := .receive r frame
  have hreach := reach.step hstep
  have hpending : r.lookups.isPending arrival.source.address = true :=
    (isPending_iff r _).mpr ⟨l, h.flying⟩
  obtain ⟨_, _, _, _, _, _, _, hcompletions, hended⟩ :=
    receive_resolves reach.orderly h.running hjudge hpending
  have hrequests : (r.receive frame).2.requests arrival.source.address =
      r.requests arrival.source.address :=
    (act_quiets reach reach.prepared.hushed (.receive frame) rfl).requests hreach.faithful _
  refine {
    ended := hended
    told := fun n hn => ?_
    final := fun t hleads c hc hwaited => ?_
    silent := fun t hsteps => ?_ }
  · rw [hcompletions]
    exact List.mem_append_right _ (List.mem_map_of_mem hn)
  · obtain ⟨hissued, habsent⟩ := reach.orderly.inLine.gone (Leads.later (.single hstep)) hwaited
      (waiters_of_idle hended)
    have hearlier := hleads.told hissued habsent hc
    rw [hcompletions] at hearlier
    rcases List.mem_append.mp hearlier with hbefore | hnow
    · exact absurd hwaited ((reach.told c hbefore).2 _)
    · obtain ⟨n, _, rfl⟩ := List.mem_map.mp hnow
      rfl
  · rw [← hrequests]
    have hboth : Reachable t ∧ t.requests arrival.source.address =
        (r.receive frame).2.requests arrival.source.address := by
      -- as long as no lookup begins for the station, no step sends a request for it
      induction hsteps with
      | refl => exact ⟨hreach, rfl⟩
      | tail _ hnext ih =>
        exact ⟨ih.1.step hnext.2, (hnext.2.requests_of_idle ih.1 hnext.1).trans ih.2⟩
    exact hboth.2

/-- What waits at some point of a run that leaves a lookup alone still waits at its end. -/
theorem Awaits.run_advance {waiting : List Nat} (h : Awaits r a start earlier waiting)
    (reach : Reachable r) {commands : List Command} (hcalm : ∀ c ∈ commands, r.Calm a c)
    (millis : Nat) (hbefore : ((r.run commands).advance millis).now <
      start + r.config.maxRequests * r.config.retransmitMillis) :
    Awaits ((r.run commands).advance millis) a start earlier waiting := by
  rw [advance_now] at hbefore
  have hleads := leads_run r commands
  refine (h.run reach hcalm (Nat.lt_of_le_of_lt (Nat.le_add_right _ _) hbefore)).advance
    (reach.leads hleads) millis ?_
  rw [hleads.later.config]
  exact hbefore

/-- Let a request to send start a lookup that may ask at all, and no frame of its station come in
that is worth a look, whatever else the router is told to do. At every time before the end of the
schedule the lookup has asked as often as its schedule says, and nothing else has asked for the
station; nobody who waits leaves. When the last interval ends the lookup is given up, with all its
requests sent. If a frame of the station comes in before, the lookup is answered. -/
theorem lookup_scheduled (reach : Reachable r) {q : Request}
    (hidle : r.lookups.isPending a = false)
    (hbegins : (r.transmit q).2.lookups.isPending a = true) (hasks : 1 ≤ r.config.maxRequests)
    {commands : List Command} (hcalm : ∀ c ∈ commands, r.Calm a c) {millis : Nat}
    (hs : s = (r.run (.transmit q :: commands)).advance millis)
    (hbefore : s.now < r.now + r.config.maxRequests * r.config.retransmitMillis) :
    (s.lookups.isPending a = true ∧
      s.requests a = r.requests a ++ schedule r.now r.config.retransmitMillis
        ((s.now - r.now) / r.config.retransmitMillis + 1) ∧
      r.handles ∈ s.waiters a ∧
      ∀ before, before <+: commands →
        ∀ n ∈ (r.run (.transmit q :: before)).waiters a, n ∈ s.waiters a) ∧
    (s.now + 1 = r.now + r.config.maxRequests * r.config.retransmitMillis →
      GivenUp a s s.tick ∧ s.tick.requests a =
        r.requests a ++ schedule r.now r.config.retransmitMillis r.config.maxRequests) ∧
    ∀ frame arrival, s.judge frame = .ok arrival → arrival.source.address = a →
      Answered a s (s.receive frame).2 := by
  subst hs
  let m := (r.perform (.transmit q)).2
  have hconfig : m.config = r.config := (leads_perform r _).later.config
  have hreach : Reachable m := reach.leads (leads_perform r _)
  have hstart : Awaits m a r.now (r.requests a) [r.handles] :=
    awaits_of_begins reach hidle hbegins hasks
  replace hcalm : ∀ c ∈ commands, m.Calm a c := fun c hc => (hcalm c hc).of_config hconfig
  rw [← hconfig] at hbefore ⊢
  have hleads : Leads m ((m.run commands).advance millis) :=
    (leads_run m commands).trans (leads_advance _ millis)
  have hreach' := hreach.leads hleads
  have hconfig' := hleads.later.config
  obtain ⟨l, hpaced, hfirst⟩ := hstart.run_advance hreach hcalm millis hbefore
  refine ⟨⟨(isPending_iff _ a).mpr ⟨l, hpaced.flying⟩, ?_, ?_, ?_⟩, fun hlast => ?_,
    fun frame arrival hjudge hsource => hpaced.answered hreach' hjudge hsource⟩
  · have hlog := hpaced.log
    rw [hpaced.requests_eq, hconfig'] at hlog
    exact hlog
  · show r.handles ∈ ((m.run commands).advance millis).waiters a
    rw [hpaced.waiters_eq]
    exact hfirst.subset (List.mem_singleton.mpr rfl)
  · -- the run goes on from where they wait
    rintro before ⟨after, rfl⟩ n hn
    have hsplit : m.run (before ++ after) = (m.run before).run after := List.foldl_append
    have hnow : (m.run before).now ≤ ((m.run (before ++ after)).advance millis).now := by
      rw [advance_now, hsplit]
      exact Nat.le_trans (leads_run _ after).now_le (Nat.le_add_right _ _)
    obtain ⟨l', hpaced', _⟩ := hstart.run hreach
      (fun c hc => hcalm c (List.mem_append_left _ hc)) (Nat.lt_of_le_of_lt hnow hbefore)
    have hleads' := leads_run m before
    have hwaits : Awaits (m.run before) a r.now (r.requests a) l'.waiters :=
      ⟨l', hpaced', List.prefix_rfl⟩
    obtain ⟨l'', hpaced'', hwaiting⟩ := hwaits.run_advance (hreach.leads hleads')
      (fun c hc => (hcalm c (List.mem_append_right _ hc)).of_config hleads'.later.config)
      millis (by rw [hleads'.later.config, ← hsplit]; exact hbefore)
    show n ∈ ((m.run (before ++ after)).advance millis).waiters a
    rw [hsplit, hpaced''.waiters_eq]
    exact hwaiting.subset (hpaced'.waiters_eq ▸ hn)
  · rw [← hconfig'] at hlast ⊢
    exact ⟨hpaced.givenUp hreach' hlast, (hpaced.tick_last hreach' hlast).2.2.1⟩

/-- A router to try things on whose lookups ask twice, three milliseconds apart. -/
def trialHasty : Router Float :=
  trialStarted trialGeometry { trialConfig with maxRequests := 2, retransmitMillis := 3 }

/-- Two packets wait for a station, while another one is heard. If the station does not answer, they
are given up after two requests; if it answers in the last millisecond, they are not. -/
theorem lookup_scheduled_of_silence :
    let s := (trialHasty.run [.transmit (trialRequest 12 1), .transmit (trialRequest 12 2),
      .receive (trialBeacon 11 100000 10000).encode]).advance 5
    GivenUp (trialStation 12) s s.tick ∧
      s.tick.requests (trialStation 12) = [(0, .broadcast), (3, .broadcast)] ∧
      Answered (trialStation 12) s (s.receive (trialBeacon 12 100000 20000).encode).2 := by
  intro s
  let config : Config Float := { trialConfig with maxRequests := 2, retransmitMillis := 3 }
  have hfault : config.fault?.isNone = true := by decide +kernel
  have hreach : Reachable trialHasty :=
    trialStarted_reachable trialGeometry (Option.isNone_iff_eq_none.mp hfault) (by decide +kernel)
  have hcalm : ∀ c ∈ [Command.transmit (trialRequest 12 2),
      .receive (trialBeacon 11 100000 10000).encode], trialHasty.Calm (trialStation 12) c := by
    intro c hc
    rcases List.mem_cons.mp hc with rfl | hc
    · trivial
    · obtain rfl := List.mem_singleton.mp hc
      intro arrival hjudge
      obtain ⟨p, hdecode, hsource, _⟩ := judge_ok hjudge
      obtain rfl := Except.ok.inj ((decode_trialBeacon 11 100000 10000).symm.trans hdecode)
      rw [← Option.some.inj hsource]
      decide
  have hs : s = (trialHasty.run (.transmit (trialRequest 12 1) ::
    [.transmit (trialRequest 12 2), .receive (trialBeacon 11 100000 10000).encode])).advance 5 := rfl
  have hnone : trialHasty.requests (trialStation 12) = [] := by decide +kernel
  have hjudge := judge_of_decode (r := s) (decode_trialBeacon 12 100000 20000) rfl
    (by decide +kernel) (by decide)
  obtain ⟨_, hlast, hanswers⟩ := lookup_scheduled hreach (q := trialRequest 12 1) (a := trialStation 12)
    (by decide +kernel) (by decide +kernel) (by decide +kernel) hcalm hs (by decide +kernel)
  obtain ⟨hgiven, hrequests⟩ := hlast (by decide +kernel)
  rw [hnone] at hrequests
  exact ⟨hgiven, hrequests, hanswers _ _ hjudge rfl⟩

end Geocast.Router
