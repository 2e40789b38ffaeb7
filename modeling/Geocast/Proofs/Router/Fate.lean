import Geocast.Proofs.Router.Completion
import Geocast.Proofs.Router.Conclusion
import Mathlib.Data.Finset.Card

/-!
# The fate of a lookup

A lookup that is in flight stays so along a run, or ends once: by a packet of its station, by its own
loop, because nobody answered its last request, or because the router stops (`Fate`). Those who wait
for it are told nothing until then, are told in that very action how it ended, and are told nothing
else ever after, whatever becomes of later lookups for the same station. The loop of a lookup that
has ended may still sleep when the next one for its station begins; it does nothing when it wakes up
but end (`Unmixed`). `one_outcome` says so of every lookup and every transmission, on every run, with
the loops having their turns in any order, and that the counters tell how many lookups have begun.
-/

namespace Geocast.Router

variable {α : Type} {r s : Router α} {a : Address} {n : Nat} {outcome : LookupOutcome}
  {ended : List Address}

/-! ## What a transmission is told -/

/-- All that a transmission was told, in order. -/
def reports (r : Router α) (n : Nat) : List (Except RoutingError Unit) :=
  (r.completions.filter (·.handle = n)).map Completion.result

/-- Who was told nothing has no completion on record. -/
theorem reports_eq_nil_iff (r : Router α) (n : Nat) :
    r.reports n = [] ↔ ∀ c ∈ r.completions, c.handle ≠ n := by
  unfold reports
  rw [List.map_eq_nil_iff, List.filter_eq_nil_iff]
  simp

/-- The end of lookups tells nothing to one who waits for none of them. -/
theorem filter_verdicts_of_absent (habsent : ∀ a ∈ ended, n ∉ r.waiters a) :
    (r.verdicts outcome ended).filter (·.handle = n) = [] := by
  rw [List.filter_eq_nil_iff]
  intro c hc
  obtain ⟨a, ha, hc⟩ := List.mem_flatMap.mp hc
  obtain ⟨m, hm, rfl⟩ := List.mem_map.mp hc
  have hother : m ≠ n := fun heq => habsent a ha (heq ▸ hm)
  simp [hother]

/-- Who waits for one of the lookups is told once, how that one ended. -/
theorem filter_verdicts_of_waits (hline : InLine r) (hn : n ∈ r.waiters a) (hnodup : ended.Nodup)
    (ha : a ∈ ended) :
    (r.verdicts outcome ended).filter (·.handle = n) = [⟨n, outcome.verdict a⟩] := by
  obtain ⟨before, after, rfl⟩ := List.append_of_mem ha
  have hother {b : Address} (hb : b ≠ a) : n ∉ r.waiters b := fun h => hb (hline.apart b a n h hn)
  obtain ⟨_, hafter, hapart⟩ := List.nodup_append.mp hnodup
  have hbefore : (r.verdicts outcome before).filter (·.handle = n) = [] :=
    filter_verdicts_of_absent fun b hb => hother (hapart b hb a List.mem_cons_self)
  have hrest : (r.verdicts outcome after).filter (·.handle = n) = [] :=
    filter_verdicts_of_absent fun b hb => hother fun heq =>
      (List.nodup_cons.mp hafter).1 (heq ▸ hb)
  have honce : (r.waiters a).filter (fun m => decide (m = n)) = [n] := by
    have hdistinct : (r.waiters a).Nodup := (hline.ordered a).imp Nat.ne_of_lt
    rw [List.filter_eq, List.count_eq_one_of_mem hdistinct hn]
    rfl
  have hsplit : r.verdicts outcome (before ++ a :: after) = r.verdicts outcome before ++
      ((r.waiters a).map (⟨·, outcome.verdict a⟩) ++ r.verdicts outcome after) := by
    unfold verdicts
    rw [List.flatMap_append, List.flatMap_cons]
  have hown : ((r.waiters a).map fun m => (⟨m, outcome.verdict a⟩ : Completion)).filter
      (·.handle = n) = [⟨n, outcome.verdict a⟩] := by
    rw [List.filter_map]
    exact congrArg (List.map _) honce
  rw [hsplit, List.filter_append, List.filter_append, hbefore, hrest, hown, List.append_nil,
    List.nil_append]

/-- And so what it knows stays as it was. -/
theorem Concludes.reports_of_absent (h : Concludes outcome ended r s)
    (habsent : ∀ a ∈ ended, n ∉ r.waiters a) : s.reports n = r.reports n := by
  unfold reports
  rw [h.told, List.filter_append, filter_verdicts_of_absent habsent, List.append_nil]

/-- One who waits for a lookup that ends is told of it, once. -/
theorem Concludes.reports_of_waits (h : Concludes outcome ended r s) (hline : InLine r)
    (hn : n ∈ r.waiters a) (ha : a ∈ ended) :
    s.reports n = r.reports n ++ [outcome.verdict a] := by
  unfold reports
  rw [h.told, List.filter_append, filter_verdicts_of_waits hline hn h.nodup ha, List.map_append]
  rfl

/-! ## What an action does to a lookup -/

/-- A lookup is in flight, and some transmissions wait for it and have been told nothing. -/
def Flies (key : LookupKey) (waiting : List Nat) (r : Router α) : Prop :=
  (r.lookups.flying? key).isSome ∧
    ∀ n ∈ waiting, n ∈ r.waiters key.target ∧ r.reports n = []

/-- A lookup has ended, and none under its key will ever begin. -/
def Gone (key : LookupKey) (r : Router α) : Prop :=
  r.lookups.flying? key = none ∧ key.number < r.lookups.started

variable [Scalar α] {waiting : List Nat} {key : LookupKey}

/-- Nobody who waits has been told anything. -/
theorem Reachable.flies (reach : Reachable r) (hflying : (r.lookups.flying? key).isSome) :
    Flies key (r.waiters key.target) r := by
  refine ⟨hflying, fun n hn => ⟨hn, (reports_eq_nil_iff r n).mpr fun c hc heq => ?_⟩⟩
  exact (reach.told c hc).2 key.target (heq ▸ hn)

/-- Who waits nowhere is told nothing more. -/
theorem act_reports (htended : r.lookups.Tended) (habsent : ∀ a, n ∉ r.waiters a)
    (action : Action) : (r.act action).reports n = r.reports n := by
  by_cases hclear : action = .clearStats
  · subst hclear
    rfl
  · rcases act_concludes htended hclear with ⟨ended, hconcludes, _⟩ | ⟨_, _, _, hjoins⟩
    · exact hconcludes.reports_of_absent fun a _ => habsent a
    · unfold reports
      rw [hjoins.completions]

/-- Who waits no longer is told nothing more, on any run. -/
theorem acts_reports (reach : Reachable r) (hissued : n < r.handles)
    (habsent : ∀ a, n ∉ r.waiters a) (actions : List Action) :
    (r.acts actions).reports n = r.reports n := by
  induction actions generalizing r with
  | nil => rfl
  | cons action rest ih =>
    have hlater : Later r (r.act action) := Leads.later (.single (step_act r action))
    obtain ⟨hissued', habsent'⟩ := hlater.absent hissued habsent
    exact (ih (reach.act action) hissued' habsent').trans
      (act_reports reach.tended habsent action)

/-- A transmission that comes to wait ends no lookup, and a lookup that begins for it is new. -/
theorem Joins.flying {q : Request} {target : Address} (h : Joins r q target s) (key : LookupKey) :
    (s.lookups.flying? key).isSome ↔ (r.lookups.flying? key).isSome ∨
      r.lookups.isPending target = false ∧ key = (r.fresh target).key := by
  rw [LookupService.isSome_flying?_iff, LookupService.isSome_flying?_iff]
  by_cases ha : key.target = target
  · rw [ha, h.joined]
    cases hpending : r.lookups.isPending target with
    | true =>
      obtain ⟨l, hl⟩ := (isPending_iff r target).mp hpending
      rw [hl]
      simp
    | false =>
      have hfresh : key = (r.fresh target).key ↔ (r.fresh target).number = key.number := by
        rw [eq_comm, LookupService.key_eq_iff, ha]
        exact and_iff_right rfl
      rw [get?_eq_none_of_idle hpending, hfresh]
      simp
  · have hother : key ≠ (r.fresh target).key := by
      rintro rfl
      exact ha rfl
    rw [h.others _ ha]
    simp [hother]

/-- A key that is past does not come back. -/
theorem Gone.act (h : Gone key r) (htended : r.lookups.Tended) (action : Action) :
    Gone key (r.act action) := by
  obtain ⟨hnone, hold⟩ := h
  by_cases hclear : action = .clearStats
  · subst hclear
    exact ⟨hnone, hold⟩
  · rcases act_concludes htended hclear with ⟨ended, hconcludes, _⟩ | ⟨_, target, _, hjoins⟩
    · refine ⟨?_, hconcludes.started ▸ hold⟩
      rw [← Option.not_isSome_iff_eq_none, hconcludes.flying_iff, hnone]
      simp
    · refine ⟨?_, Nat.lt_of_lt_of_le hold hjoins.started⟩
      have hother : key ≠ (r.fresh target).key := by
        rintro rfl
        exact Nat.lt_irrefl _ hold
      rw [← Option.not_isSome_iff_eq_none, hjoins.flying, hnone]
      simp [hother]

/-- A lookup that has ended never comes back, since keys are not used again. -/
theorem Gone.acts (h : Gone key r) (reach : Reachable r) (actions : List Action) :
    Gone key (r.acts actions) := by
  induction actions generalizing r with
  | nil => exact h
  | cons action rest ih => exact ih (h.act reach.tended action) (reach.act action)

/-- An action leaves a lookup in flight, with all who wait, or ends it for good, and then they
know. -/
theorem Flies.act (reach : Reachable r) (h : Flies key waiting r) (action : Action) :
    Flies key waiting (r.act action) ∨
      Ends r key action action.outcome ∧
        (r.act action).lookups.isPending key.target = false ∧ Gone key (r.act action) ∧
        ∀ n ∈ waiting, (r.act action).reports n = [action.outcome.verdict key.target] ∧
          ∀ b, n ∉ (r.act action).waiters b := by
  obtain ⟨hflying, hwaiting⟩ := h
  have hline := reach.orderly.inLine
  obtain ⟨l, hl⟩ := Option.isSome_iff_exists.mp hflying
  obtain ⟨hget, hnumber⟩ := LookupService.flying?_eq_some_iff.mp hl
  -- to clear the counters is the one action that no account of lookups covers
  by_cases hclear : action = .clearStats
  · subst hclear
    exact .inl ⟨hflying, hwaiting⟩
  · rcases act_concludes reach.tended hclear with ⟨ended, hconcludes, hends⟩ | ⟨_, b, _, hjoins⟩
    · by_cases ha : key.target ∈ ended
      · have hidle : (r.act action).lookups.isPending key.target = false := by
          rw [← Bool.not_eq_true, hconcludes.flight]
          exact fun h => h.2 ha
        -- its number was given out, so no later lookup has it
        have hgone : Gone key (r.act action) := by
          constructor
          · unfold LookupService.flying?
            rw [get?_eq_none_of_idle hidle]
            rfl
          · rw [hconcludes.started, ← hnumber]
            exact reach.tended.counted.1 _ l hget
        have hended := hends _ ha l hget
        rw [reach.tended.key_of_flying hl] at hended
        refine .inr ⟨hended, hidle, hgone, fun n hn => ?_⟩
        obtain ⟨hn, hnone⟩ := hwaiting n hn
        refine ⟨?_, (hline.gone (Leads.later (.single (step_act r action))) hn ?_).2⟩
        · rw [hconcludes.reports_of_waits hline hn ha, hnone]
          rfl
        · exact waiters_of_idle hidle
      · refine .inl ⟨(hconcludes.flying_iff key).mpr ⟨hflying, ha⟩, fun n hn => ?_⟩
        obtain ⟨hn, hnone⟩ := hwaiting n hn
        rw [hconcludes.waiters _ ha]
        refine ⟨hn, (hconcludes.reports_of_absent fun b hb hother => ?_).trans hnone⟩
        exact ha (hline.apart key.target b n hn hother ▸ hb)
    · refine .inl ⟨?_, fun n hn => ?_⟩
      · exact (hjoins.flying key).mpr (.inl hflying)
      · obtain ⟨hn, hnone⟩ := hwaiting n hn
        constructor
        · rw [hjoins.waiters]
          split
          · next heq => exact List.mem_append_left _ (heq ▸ hn)
          · exact hn
        · unfold reports at hnone ⊢
          rw [hjoins.completions]
          exact hnone

/-! ## What a run does to a lookup -/

/-- What becomes of a lookup on a run, and of those who wait for it: it is in flight all along, or it
is until it ends, once and for good, and they are told then and are told nothing else later. -/
inductive Fate (key : LookupKey) (waiting : List Nat) (r : Router α) (actions : List Action) : Prop
  | flies : (∀ before, before <+: actions → Flies key waiting (r.acts before)) →
      Fate key waiting r actions
  | ends {before after : List Action} {action : Action} {outcome : LookupOutcome} :
      actions = before ++ action :: after →
      (∀ early, early <+: before → Flies key waiting (r.acts early)) →
      Ends (r.acts before) key action outcome →
      (r.acts (before ++ [action])).lookups.isPending key.target = false →
      (∀ late, late <+: after → Gone key (r.acts (before ++ action :: late)) ∧
        ∀ n ∈ waiting, (r.acts (before ++ action :: late)).reports n =
          [outcome.verdict key.target]) →
      Fate key waiting r actions

/-- What held at first and holds on the rest of a run held all along. -/
theorem forall_prefix_cons {I : Router α → Prop} {action : Action} {rest : List Action} (h : I r)
    (hrest : ∀ early, early <+: rest → I ((r.act action).acts early)) {early : List Action}
    (hearly : early <+: action :: rest) : I (r.acts early) := by
  rcases List.prefix_cons_iff.mp hearly with rfl | ⟨later, rfl, hlater⟩
  · exact h
  · exact hrest later hlater

/-- Every lookup in flight has such a fate. -/
theorem Flies.fate (reach : Reachable r) (h : Flies key waiting r) (actions : List Action) :
    Fate key waiting r actions := by
  induction actions generalizing r with
  | nil =>
    refine .flies fun before hbefore => ?_
    rw [List.prefix_nil.mp hbefore]
    exact h
  | cons action rest ih =>
    have reach' : Reachable (r.act action) := reach.act action
    rcases h.act reach action with hflies | ⟨hends, hidle, hgone, htold⟩
    · -- the lookup goes on, and its fate is that on the rest of the run
      cases ih reach' hflies with
      | flies hall => exact .flies fun _ => forall_prefix_cons h hall
      | ends hsplit hbefore hends hidle hlate =>
        refine .ends (congrArg (action :: ·) hsplit) (fun _ => forall_prefix_cons h hbefore) hends
          hidle hlate
    · have hfirst : action :: rest = [] ++ action :: rest := rfl
      refine .ends hfirst (fun early hearly => ?_) hends hidle fun late _ =>
        ⟨hgone.acts reach' late, fun n hn => ?_⟩
      · rw [List.prefix_nil.mp hearly]
        exact h
      · obtain ⟨honce, habsent⟩ := htold n hn
        -- who was told waits for nothing any more, and handles are given out once
        have hissued := (reach.orderly.inLine.issued key.target n (h.2 n hn).1)
        have hlater := Leads.later (.single (step_act r action))
        exact (acts_reports reach' (Nat.lt_of_lt_of_le hissued hlater.handles) habsent late).trans
          honce

/-- The action tells how a lookup ends in it. -/
theorem Ends.outcome_eq {action : Action} (h : Ends r key action outcome) :
    outcome = action.outcome := by
  cases h with
  | resolved _ _ _ _ => rfl
  | @timedOut action _ _ htimed _ _ _ _ _ _ =>
    cases action with
    | settle => rfl
    | tick => rfl
    | wake key => rfl
    | _ => exact nomatch htimed
  | aborted => rfl

/-! ## How lookups begin, and how many -/

/-- A lookup begins only when a transmission comes to wait, the first one for its station. -/
theorem begins_of_transmit (htended : r.lookups.Tended) {action : Action}
    (hnone : r.lookups.flying? key = none)
    (hbegins : ((r.act action).lookups.flying? key).isSome) :
    ∃ q, action = .transmit q ∧ q.destination = .station key.target ∧
      r.lookups.isPending key.target = false ∧ key.number = r.lookups.started ∧
      (r.transmit q).1 = .ok (.queued (some r.handles)) ∧
      (r.act action).waiters key.target = [r.handles] := by
  have hclear : action ≠ .clearStats := by
    rintro rfl
    exact absurd hbegins (Option.not_isSome_iff_eq_none.mpr hnone)
  rcases act_concludes htended hclear with ⟨ended, hconcludes, _⟩ | ⟨q, b, haction, hjoins⟩
  · rw [hconcludes.flying_iff, hnone] at hbegins
    exact absurd hbegins.1 Bool.false_ne_true
  · rw [hjoins.flying, hnone] at hbegins
    obtain ⟨hidle, rfl⟩ := hbegins.resolve_left Bool.false_ne_true
    refine ⟨q, haction, hjoins.station, hidle, rfl, hjoins.result, ?_⟩
    rw [hjoins.waiters]
    refine (if_pos rfl).trans ?_
    rw [waiters_of_idle hidle]
    rfl

/-- A transmission that gets a handle waits for its station, and has been told nothing. -/
theorem flies_of_transmit (reach : Reachable r) {q : Request}
    (hqueued : (r.transmit q).1 = .ok (.queued (some n))) :
    ∃ key : LookupKey, q.destination = .station key.target ∧ Flies key [n] (r.transmit q).2 := by
  obtain ⟨a, small, hstation, rfl, hawaited⟩ := transmit_awaited (Prod.ext hqueued rfl)
  obtain ⟨l, hl, hwaiters⟩ := hawaited.line
  have htended : (r.transmit q).2.lookups.Tended := (reach.step (.transmit r q)).tended
  have htarget : l.key.target = a := htended.named a l hl
  refine ⟨l.key, hstation.trans (by rw [htarget]), ?_, fun m hm => ?_⟩
  · rw [htended.flying_of_get? hl]
    rfl
  rw [List.mem_singleton.mp hm, htarget]
  constructor
  · rw [hawaited.waiters, if_pos rfl]
    exact List.mem_append_right _ List.mem_cons_self
  · rw [reports_eq_nil_iff]
    intro c hc
    rw [hawaited.completions] at hc
    exact Nat.ne_of_lt (reach.told c hc).1

omit [Scalar α] in
/-- At most one lookup is in flight for each station. -/
theorem nodup_targets (h : r.lookups.Tended) :
    (r.lookups.inFlight.values.map Lookup.target).Nodup := by
  have hkeys : r.lookups.inFlight.values.map Lookup.target = r.lookups.inFlight.keys := by
    unfold AddressMap.values AddressMap.keys
    rw [List.map_map]
    refine List.map_congr_left fun e he => ?_
    exact h.named e.1 e.2 ((AddressMap.get?_eq_some_iff _ _ _).mpr he)
  rw [hkeys]
  exact r.lookups.inFlight.nodup

/-- The stations for which a lookup is in flight. -/
def flying (r : Router α) : Finset Address := r.lookups.inFlight.keys.toFinset

/-- How many lookups begin in an action. -/
def begun (r : Router α) (action : Action) : Nat := ((r.act action).flying \ r.flying).card

omit [Scalar α] in
/-- The stations in flight are those that are looked for. -/
theorem mem_flying_iff (r : Router α) (a : Address) :
    a ∈ r.flying ↔ r.lookups.isPending a = true := by
  unfold flying
  rw [List.mem_toFinset, mem_keys_iff]

omit [Scalar α] in
/-- There are as many as the lookup service holds. -/
theorem card_flying (r : Router α) : r.flying.card = r.lookups.size := by
  have hnodup : r.lookups.inFlight.keys.Nodup := r.lookups.inFlight.nodup
  unfold flying
  rw [List.toFinset_card_of_nodup hnodup]
  exact List.length_map _

/-- The lookups that have ended, as the counters tell, and those in flight. -/
def searched (r : Router α) : Nat :=
  r.stats.lookupsResolved + r.stats.lookupsExpired + r.lookups.size

omit [Scalar α] in
/-- A lookup that ends moves from those in flight to those that are counted. -/
theorem Concludes.searched (h : Concludes outcome ended r s) (hcounts : outcome ≠ .aborted) :
    s.searched = r.searched ∧ s.flying \ r.flying = ∅ := by
  have hflying : s.flying = r.flying \ ended.toFinset := by
    ext a
    rw [Finset.mem_sdiff, List.mem_toFinset, mem_flying_iff, mem_flying_iff]
    exact h.flight a
  have hsubset : ended.toFinset ⊆ r.flying := by
    intro a ha
    exact (mem_flying_iff r a).mpr (h.pending a (List.mem_toFinset.mp ha))
  -- those that ended were in flight, each once
  have hcard : s.flying.card + ended.length = r.flying.card := by
    rw [hflying, ← List.toFinset_card_of_nodup h.nodup]
    exact Finset.card_sdiff_add_card_eq_card hsubset
  have hcounted := h.counted
  rw [card_flying, card_flying] at hcard
  refine ⟨?_, ?_⟩
  · unfold Router.searched
    cases outcome with
    | resolved =>
      have hresolved : s.stats.lookupsResolved = r.stats.lookupsResolved + ended.length :=
        congrArg Prod.fst hcounted
      have hexpired : s.stats.lookupsExpired = r.stats.lookupsExpired :=
        congrArg Prod.snd hcounted
      omega
    | timedOut =>
      have hresolved : s.stats.lookupsResolved = r.stats.lookupsResolved :=
        congrArg Prod.fst hcounted
      have hexpired : s.stats.lookupsExpired = r.stats.lookupsExpired + ended.length :=
        congrArg Prod.snd hcounted
      omega
    | aborted => exact absurd rfl hcounts
  · rw [hflying]
    exact Finset.sdiff_eq_empty_iff_subset.mpr Finset.sdiff_subset

/-- What an action adds to the lookups that have ended or are in flight are those that begin. -/
theorem act_searched (htended : r.lookups.Tended) {action : Action} (hkeeps : action.keepsCount = true) :
    (r.act action).searched = r.searched + r.begun action := by
  have hclear : action ≠ .clearStats := by
    rintro rfl
    exact nomatch hkeeps
  have hcounts : action.outcome ≠ .aborted := by
    cases action with
    | stop => exact nomatch hkeeps
    | _ => exact nofun
  unfold begun
  rcases act_concludes htended hclear with ⟨ended, hconcludes, _⟩ | ⟨_, target, _, hjoins⟩
  · obtain ⟨hsame, hnone⟩ := hconcludes.searched hcounts
    rw [hsame, hnone]
    rfl
  · have hsubset : r.flying ⊆ (r.act action).flying := by
      intro a ha
      rw [mem_flying_iff] at ha ⊢
      exact (hjoins.pending a).mpr (.inl ha)
    have hcard := Finset.card_sdiff_add_card_eq_card hsubset
    have hresolved := congrArg Prod.fst hjoins.searches
    have hexpired := congrArg Prod.snd hjoins.searches
    rw [card_flying, card_flying] at hcard
    unfold searched
    dsimp only [Stats.searches] at hresolved hexpired
    omega

/-- So on a run there are as many in both as there were, and those that began. -/
theorem acts_searched (reach : Reachable r) {actions : List Action}
    (hkeeps : ∀ action ∈ actions, action.keepsCount = true) :
    (r.acts actions).searched = r.searched + sumAlong begun r actions := by
  induction actions generalizing r with
  | nil => rfl
  | cons action rest ih =>
    have hstep := act_searched reach.tended (hkeeps action List.mem_cons_self)
    have hrest := ih (reach.act action)
      fun action' h => hkeeps action' (List.mem_cons_of_mem _ h)
    rw [sumAlong_cons]
    show ((r.act action).acts rest).searched = _
    omega

/-! ## One lookup, one outcome -/

/-- No two lookups are mixed up, neither those in flight nor by the loops that ask for them: each
lookup in flight is the only one for its station, and has one loop. A loop that wakes up touches no
lookup but its own, so that one whose lookup has ended ends without a trace, even if another lookup
for the same station is in flight by then. -/
structure Unmixed (r : Router α) : Prop where
  single : (r.lookups.inFlight.values.map Lookup.target).Nodup
  looped : ∀ key, (r.lookups.flying? key).isSome → ∃! due, ⟨key, due⟩ ∈ r.lookups.loops
  known : ∀ loop ∈ r.lookups.loops, ∃ l, r.lookups.find? loop.key = some l
  others : ∀ key k l, r.lookups.flying? k = some l → k ≠ key →
    (r.continueLookup key).lookups.flying? k = some l
  late : ∀ key, r.lookups.flying? key = none → ∃ ended, r.continueLookup key =
    { r with lookups := { r.lookups with
      ended, loops := r.lookups.loops.filter fun loop => loop.key ≠ key } }

omit [Scalar α] in
/-- What ties lookups and loops together keeps them from being mixed up. -/
theorem unmixed (h : r.lookups.Tended) : r.Unmixed where
  single := nodup_targets h
  looped := by
    intro key hflying
    obtain ⟨l, hl⟩ := Option.isSome_iff_exists.mp hflying
    obtain ⟨due, hloop⟩ := h.looped _ l (LookupService.flying?_eq_some_iff.mp hl).1
    rw [h.key_of_flying hl] at hloop
    exact ⟨due, hloop, fun due' hloop' => h.due_unique hloop' hloop⟩
  known := h.known
  others := by
    intro key k l hl hne
    obtain ⟨hget, hnumber⟩ := LookupService.flying?_eq_some_iff.mp hl
    have hkey := h.key_of_flying hl
    refine LookupService.flying?_eq_some_iff.mpr ⟨?_, hnumber⟩
    rw [continueLookup_get? h, hget]
    exact if_neg (hkey ▸ hne)
  late := by
    intro key hnone
    rcases r.continueLookup_cases h key with ⟨_, ended, heq⟩ | ⟨l, hl, _⟩
    · exact ⟨ended, heq⟩
    · exact nomatch hnone.symm.trans hl

/-- On every run, in which loops have their turns in whatever order: lookups and loops are not mixed
up, and the lookups that end in one action all end in the same way. Whatever follows, a lookup in
flight ends or is in flight still, and those who wait for it are told when it ends, how it ended, and
nothing else. Every transmission that gets a handle waits for a lookup so, and a lookup begins only
for one. Unless the router stops or its counters are set back, the lookups that have begun are those
that were resolved, those that were given up, and those in flight. -/
theorem one_outcome {geometry : Geometry α} {config : Config α} {base : Timestamp}
    {position : Nat → Fix} {jitter : Nat → Nat} {start : Router α}
    (hmade : make geometry config base position jitter = .ok start) (actions : List Action) :
    (start.acts actions).Unmixed ∧
    (∀ action key outcome, Ends (start.acts actions) key action outcome →
      outcome = action.outcome) ∧
    (∀ key, ((start.acts actions).lookups.flying? key).isSome → ∀ later,
      Fate key ((start.acts actions).waiters key.target) (start.acts actions) later) ∧
    (∀ q n, ((start.acts actions).transmit q).1 = .ok (.queued (some n)) →
      ∃ key : LookupKey, q.destination = .station key.target ∧ ∀ later,
        Fate key [n] ((start.acts actions).transmit q).2 later) ∧
    (∀ action key, (start.acts actions).lookups.flying? key = none →
      (((start.acts actions).act action).lookups.flying? key).isSome →
      ∃ q, action = .transmit q ∧ q.destination = .station key.target ∧
        (start.acts actions).lookups.isPending key.target = false ∧
        key.number = (start.acts actions).lookups.started ∧
        ((start.acts actions).transmit q).1 = .ok (.queued (some (start.acts actions).handles)) ∧
        ((start.acts actions).act action).waiters key.target = [(start.acts actions).handles]) ∧
    ((∀ action ∈ actions, action.keepsCount = true) →
      sumAlong begun start actions = (start.acts actions).stats.lookupsResolved +
        (start.acts actions).stats.lookupsExpired + (start.acts actions).lookups.size) := by
  have reach : Reachable (start.acts actions) :=
    (Reachable.made hmade).leads ((leads_iff _ _).mpr ⟨actions, rfl⟩)
  refine ⟨unmixed reach.tended, fun _ _ _ => Ends.outcome_eq,
    fun key hflying => (reach.flies hflying).fate reach, ?_,
    fun action key => begins_of_transmit reach.tended, fun hkeeps => ?_⟩
  · intro q n hqueued
    obtain ⟨key, hstation, hflies⟩ := flies_of_transmit reach hqueued
    exact ⟨key, hstation, hflies.fate (reach.step (.transmit _ q))⟩
  · have hsearched := acts_searched (.made hmade) hkeeps
    have hnone : start.searched = 0 := by
      obtain ⟨_, rfl⟩ := eq_of_make hmade
      rfl
    rw [hnone, Nat.zero_add] at hsearched
    exact hsearched.symm

/-- A station is asked for and answers with what it knew a minute ago, so that it is asked for once
more. Then the loop of the first lookup wakes up, late: both lookups have begun, the first one was
resolved, and the second one is left alone, whose transmission has been told nothing. -/
theorem one_outcome_of_answered :
    let start := trial trialGeometry trialConfig
    let actions := [.start, .transmit (trialRequest 12 1), .settle,
      .receive (trialBeacon 12 40000 20000).encode, .transmit (trialRequest 12 2)]
    let first : LookupKey := ⟨trialStation 12, 0⟩
    let second : LookupKey := ⟨trialStation 12, 1⟩
    let r := start.acts actions
    sumAlong begun start actions = 2 ∧ r.stats.lookupsResolved = 1 ∧ r.reports 0 = [.ok ()] ∧
      r.lookups.woken r.now = [first, second] ∧
      (∃ ended, r.continueLookup first =
        { r with lookups := { r.lookups with ended, loops := [⟨second, 0⟩] } }) ∧
      ((r.act (.wake first)).lookups.flying? second).isSome ∧
      (r.act (.wake first)).reports 1 = [] := by
  intro start actions first second r
  have hfault : trialConfig.fault?.isNone = true := by decide +kernel
  have hmade := trial_made trialGeometry (Option.isNone_iff_eq_none.mp hfault) (by decide +kernel)
  have hkeeps : actions.all Action.keepsCount = true := rfl
  have hresolved : r.stats.lookupsResolved = 1 := by decide +kernel
  have hgone : r.lookups.flying? first = none := by decide +kernel
  have hloops : r.lookups.loops.filter (·.key ≠ first) = [⟨second, 0⟩] := by decide +kernel
  obtain ⟨hunmixed, _, _, _, _, hcount⟩ := one_outcome hmade actions
  replace hunmixed : r.Unmixed := hunmixed
  obtain ⟨ended, hlate⟩ := hunmixed.late first hgone
  refine ⟨(hcount (List.all_eq_true.mp hkeeps)).trans (by decide +kernel), hresolved, by decide +kernel,
    by decide +kernel, ⟨ended, ?_⟩, by decide +kernel, by decide +kernel⟩
  rw [← hloops]
  exact hlate

end Geocast.Router
