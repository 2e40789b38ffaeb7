import Geocast.Proofs.Router.Resolution

/-!
# Transmissions that are told that they succeeded

A transmission that waits for a lookup should be told of success only if its packet was released
when the lookup ended. But all who wait are told alike, while a packet may have given way to later
ones or waited too long by then. `released_iff_of_completed` says for which the two agree: fewer
transmissions than the queue holds came after it for the same station, and its lifetime had not
passed.
-/

namespace Geocast.Router

variable {α : Type}

/-- Among increasing numbers, one is among the last few exactly when few are greater. -/
theorem mem_drop_iff {numbers : List Nat} (ordered : numbers.Pairwise (· < ·)) {n : Nat}
    (hn : n ∈ numbers) (few : Nat) :
    n ∈ numbers.drop (numbers.length - few) ↔ (numbers.filter (n < ·)).length < few := by
  obtain ⟨before, after, rfl⟩ := List.append_of_mem hn
  obtain ⟨_, hafter, hbefore⟩ := List.pairwise_append.mp ordered
  have hgreater : (before ++ n :: after).filter (n < ·) = after := by
    have hnone : before.filter (n < ·) = [] := by
      refine List.filter_eq_nil_iff.mpr fun m hm => ?_
      have hlt := hbefore m hm n List.mem_cons_self
      simp only [decide_eq_true_eq]
      omega
    have hall : after.filter (n < ·) = after :=
      List.filter_eq_self.mpr fun m hm => decide_eq_true ((List.pairwise_cons.mp hafter).1 m hm)
    rw [List.filter_append, hnone, List.nil_append,
      List.filter_cons_of_neg (by simp), hall]
  have hlength : (before ++ n :: after).length = before.length + 1 + after.length := by
    rw [List.length_append, List.length_cons]
    omega
  rw [hgreater, hlength]
  constructor
  · intro hmem
    refine Nat.lt_of_not_le fun hmany => ?_
    -- all that is left then came after
    have hsplit : before.length + 1 + after.length - few =
        before.length + 1 + (after.length - few) := by omega
    rw [hsplit, ← List.drop_drop] at hmem
    have hlast := List.mem_of_mem_drop hmem
    rw [List.drop_append, List.drop_eq_nil_of_le (Nat.le_succ _), List.nil_append,
      Nat.add_sub_cancel_left, List.drop_one, List.tail_cons] at hlast
    exact absurd ((List.pairwise_cons.mp hafter).1 n hlast) (Nat.lt_irrefl n)
  · intro hfew
    rw [List.drop_append_of_le_length (by omega)]
    exact List.mem_append_right _ List.mem_cons_self

theorem InLine.queued_iff {r : Router α} (h : InLine r) {a : Address} {n : Nat}
    (hn : n ∈ r.waiters a) :
    (∃ p ∈ r.queues.queue .lookup a, p.origin.handle = some n) ↔
      ((r.waiters a).filter (n < ·)).length < r.config.lookupCapacity := by
  have hline := h.line a
  rw [List.length_map, ← List.map_drop] at hline
  rw [← mem_drop_iff (h.ordered a) hn]
  constructor
  · rintro ⟨p, hp, hhandle⟩
    have hmem : p.origin.handle ∈ (r.queues.queue .lookup a).map (fun p => p.origin.handle) :=
      List.mem_map_of_mem hp
    rw [hline, hhandle] at hmem
    obtain ⟨m, hm, heq⟩ := List.mem_map.mp hmem
    exact Option.some.inj heq ▸ hm
  · intro hmem
    have hsome : some n ∈ (r.queues.queue .lookup a).map (fun p => p.origin.handle) := by
      rw [hline]
      exact List.mem_map_of_mem hmem
    obtain ⟨p, hp, hhandle⟩ := List.mem_map.mp hsome
    exact ⟨p, hp, hhandle⟩

/-- A packet that was just queued is the only one of its transmission, then and later. -/
theorem Awaited.only {r s t : Router α} {target a : Address} {p p' : Parcel} (hline : InLine r)
    (h : Awaited r target p s) (hlater : Later s t) (hp' : p' ∈ t.queues.queue .lookup a)
    (hhandle : p'.origin.handle = some r.handles) : p' = p := by
  rcases hlater.parcels a p' hp' with hp' | ⟨n, hn, hle⟩
  · rcases h.queue_subset hp' with hp' | ⟨_, heq⟩
    · obtain ⟨n, hn, heq⟩ := hline.waits hp'
      obtain rfl := Option.some.inj (hhandle.symm.trans heq)
      exact absurd (hline.issued a _ hn) (Nat.lt_irrefl _)
    · exact heq
  · obtain rfl := Option.some.inj (hhandle.symm.trans hn)
    rw [h.handles] at hle
    exact absurd hle (Nat.not_succ_le_self _)

/-- A transmission that just began waits for its station only, then and later. -/
theorem Awaited.target_eq {r s t : Router α} {target a : Address} {p : Parcel} (hline : InLine s)
    (h : Awaited r target p s) (hlater : Later s t) (hn : r.handles ∈ t.waiters a) :
    a = target := by
  rcases hlater.waiters a _ hn with hn | hle
  · refine hline.apart a target _ hn ?_
    rw [h.waiters target, if_pos rfl]
    exact List.mem_append_right _ (List.mem_singleton.mpr rfl)
  · rw [h.handles] at hle
    exact absurd hle (Nat.not_succ_le_self _)

variable [Scalar α]

/-! ## Who is told of success -/

theorem Work.completions {P : Router α → Packet → Prop} {r s : Router α} (h : Work P r s)
    {handle : Nat} (hdone : ⟨handle, .ok ()⟩ ∈ s.completions) :
    ⟨handle, .ok ()⟩ ∈ r.completions := by
  cases h with
  | forward h => exact h.alike.completions ▸ hdone
  | await d small _ _ =>
    exact (await_awaited r _ (r.unresolvedParcel d small _)).2.completions ▸ hdone
  | tend htends => exact hdone
  | expire hl =>
    rw [(expireLookup_ended hl).1.completions] at hdone
    rcases List.mem_append.mp hdone with hdone | hdone
    · exact hdone
    · obtain ⟨_, _, heq⟩ := List.mem_map.mp hdone
      exact nomatch congrArg Completion.result heq
  | sweep due => exact hdone
  | start => exact hdone
  | stop hrunning =>
    rw [stop_eq hrunning] at hdone
    rcases List.mem_append.mp hdone with hdone | hdone
    · exact hdone
    · obtain ⟨_, _, hmem⟩ := List.mem_flatMap.mp hdone
      obtain ⟨_, _, heq⟩ := List.mem_map.mp hmem
      exact nomatch congrArg Completion.result heq
  | reposition position => exact hdone
  | pass => exact hdone
  | arrive => exact hdone
  | clear => exact hdone

theorem Works.completions {P : Router α → Packet → Prop} {r s : Router α} (h : Works P r s)
    {handle : Nat} (hdone : ⟨handle, .ok ()⟩ ∈ s.completions) :
    ⟨handle, .ok ()⟩ ∈ r.completions := by
  induction h with
  | refl => exact hdone
  | tail _ hwork ih => exact ih (hwork.completions hdone)

/-- A packet of a station that nobody asked for tells nobody anything. -/
theorem receive_completions_idle {r : Router α} {frame : Bytes} {a : Arrival}
    (hrunning : r.phase = .running) (hjudge : r.judge frame = .ok a)
    (hidle : r.lookups.isPending a.source.address = false) :
    (r.receive frame).2.completions = r.completions := by
  rw [receive_of_judge hrunning hjudge]
  have hnone := get?_eq_none_of_idle hidle
  rcases process_cases r.arrived a with ⟨n, s, hlearn, hprocess⟩ | ⟨_, s, f, hlearn, _, hprocess⟩
  · obtain ⟨table, rfl⟩ := eq_of_learn hlearn
    rw [hprocess]
    rfl
  · obtain ⟨table, rfl⟩ := eq_of_learn hlearn
    have halike := (accept_forwards (({ r.arrived with table } : Router α).count f)
      (sendable_of_judge hjudge)).alike
    rw [resolveLookup_idle (r := ({ r.arrived with table } : Router α).count f) hnone] at halike
    rw [hprocess]
    exact halike.completions

/-- Only a packet of the station that was asked for tells of success, and it tells those who wait
for that station. -/
theorem Step.completes {r s : Router α} (horderly : Orderly r) (h : Step r s) {handle : Nat}
    (hdone : ⟨handle, .ok ()⟩ ∈ s.completions) (hopen : ⟨handle, .ok ()⟩ ∉ r.completions) :
    ∃ frame a, s = (r.receive frame).2 ∧ r.phase = .running ∧ r.judge frame = .ok a ∧
      r.lookups.isPending a.source.address = true ∧ handle ∈ r.waiters a.source.address := by
  -- whatever is not caused by a packet tells of failure only
  have hworks (h : Works Own r s) : False := hopen (h.completions hdone)
  cases h with
  | receive frame =>
    rcases receive_cases r frame with ⟨hforwards, _⟩ | ⟨a, hrunning, hjudge⟩
    · exact (hworks (.head (.arrive r) hforwards.works)).elim
    · cases hpending : r.lookups.isPending a.source.address with
      | false =>
        rw [receive_completions_idle hrunning hjudge hpending] at hdone
        exact absurd hdone hopen
      | true =>
        obtain ⟨_, _, _, _, _, _, _, hcompletions, _⟩ :=
          receive_resolves horderly hrunning hjudge hpending
        rw [hcompletions] at hdone
        rcases List.mem_append.mp hdone with hdone | hdone
        · exact absurd hdone hopen
        · obtain ⟨n, hn, heq⟩ := List.mem_map.mp hdone
          obtain rfl : n = handle := congrArg Completion.handle heq
          exact ⟨frame, a, rfl, hrunning, hjudge, hpending, hn⟩
  | start => exact (hworks (start_works r)).elim
  | stop => exact (hworks (stop_works r)).elim
  | transmit q => exact (hworks ((transmit_works r q).mono fun _ _ => Drafted.toOwn)).elim
  | beacon => exact (hworks (sendBeacon_forwards r).works).elim
  | reposition position => exact (hworks (.single (.reposition r position))).elim
  | clearStats => exact (hworks (.single (.clear r))).elim
  | settle => exact (hworks (settle_works r)).elim
  | tick => exact (hworks (.head (.pass r) (settle_works _))).elim
  | wake key => exact (hworks (wakeLoop_works r key)).elim

/-! ## Who is told once is told no more -/

variable {P : Router α → Packet → Prop} {r s : Router α}

/-- Only who waits is told anything, and waits no longer then. -/
theorem Move.told (h : Move P r s) {c : Completion} (hc : c ∈ s.completions) :
    c ∈ r.completions ∨ ∃ a, c.handle ∈ r.waiters a ∧ s.waiters a = [] := by
  -- whichever way a lookup ends, it tells those that waited, and they wait no longer
  have hended {r s : Router α} {target : Address} {l : Lookup} {result : Except RoutingError Unit}
      (hl : r.lookups.inFlight.get? target = some l) (h : Ended r target l result s)
      (hc : c ∈ s.completions) :
      c ∈ r.completions ∨ ∃ a, c.handle ∈ r.waiters a ∧ s.waiters a = [] := by
    rw [h.completions] at hc
    refine (List.mem_append.mp hc).imp_right fun hc => ⟨target, ?_, (h.left.gone target rfl).1⟩
    obtain ⟨n, hn, rfl⟩ := List.mem_map.mp hc
    unfold waiters
    rw [hl]
    exact hn
  cases h with
  | work h =>
    cases h with
    | forward h => exact .inl (h.alike.completions ▸ hc)
    | await d small _ _ =>
      exact .inl ((await_awaited r _ (r.unresolvedParcel d small _)).2.completions ▸ hc)
    | expire hl => exact hended hl (expireLookup_ended hl).1 hc
    | stop hrunning =>
      rw [stop_eq hrunning] at hc ⊢
      refine (List.mem_append.mp hc).imp_right fun hc => ?_
      obtain ⟨l, hl, hmem⟩ := List.mem_flatMap.mp hc
      obtain ⟨n, hn, rfl⟩ := List.mem_map.mp hmem
      obtain ⟨a, ha⟩ := (AddressMap.mem_values_iff _ _).mp hl
      refine ⟨a, ?_, rfl⟩
      unfold waiters
      rw [ha]
      exact hn
    | _ => exact .inl hc
  | hear h =>
    rcases h.forms with ⟨table, rfl⟩ | ⟨table, f, target, rfl⟩
    · exact .inl hc
    · cases hl : r.lookups.inFlight.get? target with
      | none =>
        rw [resolveLookup_idle (r := ({ r with table } : Router α).count f) hl] at hc
        exact .inl hc
      | some l =>
        exact hended (r := ({ r with table } : Router α).count f) hl
          (resolveLookup_ended (r := ({ r with table } : Router α).count f) hl).1 hc

/-- Who was told how a transmission ended waits nowhere. -/
def Told (r : Router α) : Prop :=
  ∀ c ∈ r.completions, c.handle < r.handles ∧ ∀ a, c.handle ∉ r.waiters a

theorem Told.move (hmove : Move P r s) (h : Told r) (hline : InLine r) : Told s := by
  intro c hc
  rcases hmove.told hc with hc | ⟨a, hwaited, hgone⟩
  · exact hmove.later.absent (h c hc).1 (h c hc).2
  · exact hline.gone hmove.later hwaited hgone

theorem Reachable.told (reach : Reachable r) : Told r := by
  have hboth : Orderly r ∧ Told r := by
    refine reach.invariant (I := fun r => Orderly r ∧ Told r) (fun hmade => ⟨.made hmade, ?_⟩)
      fun hmove h => ⟨h.1.move hmove, h.2.move hmove h.1.inLine⟩
    obtain ⟨_, rfl⟩ := eq_of_make hmade
    exact fun _ hc => absurd hc List.not_mem_nil
  exact hboth.2

theorem Step.told (h : Step r s) {c : Completion} (hissued : c.handle < r.handles)
    (habsent : ∀ a, c.handle ∉ r.waiters a) (hc : c ∈ s.completions) : c ∈ r.completions := by
  have hmoves := h.moves
  clear h
  generalize r.Begins s = P at hmoves
  induction hmoves using Relation.ReflTransGen.head_induction_on with
  | refl => exact hc
  | head hmove _ ih =>
    obtain ⟨hissued', habsent'⟩ := hmove.later.absent hissued habsent
    rcases hmove.told (ih hissued' habsent') with hc | ⟨a, hwaited, _⟩
    · exact hc
    · exact absurd hwaited (habsent a)

/-- Who waits nowhere is told nothing more. -/
theorem Leads.told (h : Leads r s) {c : Completion} (hissued : c.handle < r.handles)
    (habsent : ∀ a, c.handle ∉ r.waiters a) (hc : c ∈ s.completions) : c ∈ r.completions := by
  induction h with
  | refl => exact hc
  | tail hbefore hstep ih =>
    obtain ⟨hissued', habsent'⟩ := (Leads.later hbefore).absent hissued habsent
    exact ih (hstep.told hissued' habsent' hc)

/-! ## Whose packet was released -/

/-- A parcel was taken out of the queue of a lookup at some time and went on its way at once, to the
link or into another queue. -/
def Forwarded (r : Router α) (p : Parcel) (time : Nat) : Prop :=
  ∃ e ∈ r.released, e.kind = .lookup ∧ e.parcel = p ∧ e.time = time ∧
    e.decision.isPrompt = true ∧ e.HandedOut r.emissions

/-- A request that gets a handle has its packet queued for the station. -/
theorem transmit_awaited {r s : Router α} {q : Request} {n : Nat}
    (h : r.transmit q = (.ok (.queued (some n)), s)) :
    ∃ target small, q.destination = .station target ∧ n = r.handles ∧
      Awaited r target (r.unresolvedParcel (r.draft q) small target) s := by
  rcases transmit_cases r q with ⟨_, hnone⟩ | ⟨target, small, hstation, _, heq⟩
  · exact absurd (congrArg Prod.fst h) (hnone n)
  · obtain ⟨hhandle, hawaited⟩ :=
      await_awaited r target (r.unresolvedParcel (r.draft q) small target)
    rw [heq, hhandle] at h
    injection h with houtcome hs
    injection houtcome with houtcome
    injection houtcome with houtcome
    exact ⟨target, small, hstation, (Option.some.inj houtcome).symm, hs ▸ hawaited⟩

/-- When a lookup ends, what is forwarded for a transmission that waits is what is still in the
queue and has not waited too long. -/
theorem forwarded_iff_ready {r : Router α} (horderly : Orderly r) {frame : Bytes} {a : Arrival}
    (hrunning : r.phase = .running) (hjudge : r.judge frame = .ok a)
    (hpending : r.lookups.isPending a.source.address = true) {p : Parcel} {n : Nat}
    (hn : n ∈ r.waiters a.source.address) (hhandle : p.origin.handle = some n) :
    (r.receive frame).2.Forwarded p r.now ↔
      p ∈ r.queues.ready .lookup (some a.source.address) r.now := by
  obtain ⟨table, rest, _, _, hreleased, hrest, hhandedOut, _, _⟩ :=
    receive_resolves horderly hrunning hjudge hpending
  let s : Router α := { r with table }
  unfold Forwarded
  rw [hreleased]
  constructor
  · rintro ⟨e, he, hkind, rfl, -⟩
    rcases List.mem_append.mp he with he | he
    · -- what was forwarded before has nobody waiting
      exact absurd hn ((horderly.unreleased e he hkind n hhandle).2 _)
    · rcases List.mem_append.mp he with he | he
      · obtain ⟨parcel, hparcel, hrecord⟩ := List.mem_filterMap.mp he
        exact (release?_parcel hrecord).2.2 ▸ hparcel
      · -- nor is it among those that waited for a way
        exact absurd hkind (hrest e he)
  · intro hp
    obtain ⟨e, hrecord, hprompt, _⟩ := release?_unresolved s .lookup
      (horderly.addressed a.source.address p (List.mem_filter.mp hp).1)
    obtain ⟨htime, hkind, hparcel⟩ := release?_parcel hrecord
    have he := List.mem_filterMap.mpr ⟨p, hp, hrecord⟩
    exact ⟨e, List.mem_append_right _ (List.mem_append_left _ he), hkind, hparcel, htime, hprompt,
      hhandedOut e he⟩

/-- Whenever a transmission that waits for the place of a station is told of success, its packet is
one that was queued for the station when the transmission began, and that very packet is taken out
and goes on its way exactly when fewer transmissions than the queue holds came after it for the
station and its lifetime has not passed. -/
theorem released_iff_of_completed {r r₁ r₂ r₃ : Router α} (reach : Reachable r) {q : Request}
    {n : Nat} (hqueued : r.transmit q = (.ok (.queued (some n)), r₁)) (hrun : Leads r₁ r₂)
    (hstep : Step r₂ r₃) (hdone : ⟨n, .ok ()⟩ ∈ r₃.completions)
    (hopen : ⟨n, .ok ()⟩ ∉ r₂.completions) :
    ∃ target, q.destination = .station target ∧ ∃ p ∈ r₁.queues.queue .lookup target,
      p.origin.handle = some n ∧
      (Packet.decode p.frame).map Packet.payload = .ok q.payload ∧
      (r₃.Forwarded p r₂.now ↔
        ((r₂.waiters target).filter (n < ·)).length < r.config.lookupCapacity ∧
          r₂.now - r.now < (r.draft q).lifetime.millis) := by
  obtain ⟨target, small, hstation, rfl, hawaited⟩ := transmit_awaited hqueued
  have hstep₁ : Step r r₁ := by
    have h := Step.transmit r q
    rwa [hqueued] at h
  have hline := reach.orderly.inLine
  have horderly₁ := (reach.step hstep₁).orderly
  have horderly₂ := ((reach.step hstep₁).leads hrun).orderly
  have hlater := hrun.later
  obtain ⟨frame, a, rfl, hrunning, hjudge, hpending, hn⟩ := hstep.completes horderly₂ hdone hopen
  obtain rfl := hawaited.target_eq horderly₁.inLine hlater hn
  have hconfig : r₂.config = r.config := hlater.config.trans hawaited.config
  let p := r.unresolvedParcel (r.draft q) small a.source.address
  have hp : p ∈ r₁.queues.queue .lookup a.source.address := by
    rw [hawaited.queues, queue_enqueue, if_pos rfl]
    exact List.mem_append_right _ (List.mem_singleton.mpr rfl)
  have hdecode := Packet.decode_encode
    (unresolvedPacket_sendable r (r.draft q) small a.source.address)
  refine ⟨_, hstation, p, hp, rfl, congrArg (Except.map Packet.payload) hdecode, ?_⟩
  -- the packet went out if it is still queued and good; it is queued if few came after it
  rw [forwarded_iff_ready horderly₂ hrunning hjudge hpending hn rfl, ← hconfig,
    ← horderly₂.inLine.queued_iff hn]
  have hlive : (!p.isExpired r₂.now) = true ↔ r₂.now - r.now < (r.draft q).lifetime.millis := by
    rw [Bool.not_eq_true', Parcel.isExpired, decide_eq_false_iff_not, Nat.not_le]
    exact Iff.rfl
  have hqueue : p ∈ r₂.queues.queue .lookup a.source.address ↔
      ∃ p' ∈ r₂.queues.queue .lookup a.source.address, p'.origin.handle = some r.handles :=
    ⟨fun h => ⟨p, h, rfl⟩, fun ⟨_, hp', hhandle⟩ =>
      (hawaited.only hline hlater hp' hhandle : _ = p) ▸ hp'⟩
  rw [← hqueue, ← hlive]
  exact List.mem_filter

/-- A packet that had a place in the queue and time left is forwarded when its transmission is told
of success. -/
theorem released_of_alone :
    let r := trialStarted trialGeometry trialConfig
    let r₁ := (r.transmit (trialRequest 12 1)).2
    let r₂ := r₁.tick
    let r₃ := (r₂.receive (trialBeacon 12 100000 20000).encode).2
    Reachable r ∧ (r.transmit (trialRequest 12 1)).1 = .ok (.queued (some 0)) ∧
      ⟨0, .ok ()⟩ ∈ r₃.completions ∧ ⟨0, .ok ()⟩ ∉ r₂.completions ∧
      ∃ p ∈ r₁.queues.queue .lookup (trialStation 12), p.origin.handle = some 0 ∧
        r₃.Forwarded p r₂.now := by
  intro r r₁ r₂ r₃
  have hreach : Reachable r := trialConfig_reachable trialGeometry
  have houtcome : (r.transmit (trialRequest 12 1)).1 = .ok (.queued (some 0)) := by decide +kernel
  have hdone : ⟨0, .ok ()⟩ ∈ r₃.completions := by decide +kernel
  have hopen : ⟨0, .ok ()⟩ ∉ r₂.completions := by decide +kernel
  obtain ⟨target, hstation, p, hp, hhandle, _, hiff⟩ := released_iff_of_completed hreach
    (Prod.ext houtcome rfl) (.single (.tick r₁)) (.receive r₂ _) hdone hopen
  obtain rfl := Destination.station.inj hstation
  exact ⟨hreach, houtcome, hdone, hopen, p, hp, hhandle, hiff.mpr (by decide +kernel)⟩

/-- A packet that gave way to a later one, in a queue for one, is not forwarded, and its
transmission is told of success all the same. -/
theorem not_forall_released_of_completed :
    ¬ ∀ r : Router Float, Reachable r → ∀ q n r₁, r.transmit q = (.ok (.queued (some n)), r₁) →
      ∀ r₂, Leads r₁ r₂ → ∀ r₃, Step r₂ r₃ → ⟨n, .ok ()⟩ ∈ r₃.completions →
        ⟨n, .ok ()⟩ ∉ r₂.completions →
        ∃ e ∈ r₃.released, e.parcel.origin.handle = some n := by
  intro h
  let config := { trialConfig with lookupCapacity := 1 }
  let r := trialStarted trialGeometry config
  have hfault : config.fault?.isNone = true := by decide +kernel
  have hreach : Reachable r :=
    trialStarted_reachable trialGeometry (Option.isNone_iff_eq_none.mp hfault) (by decide +kernel)
  have houtcome : (r.transmit (trialRequest 12 1)).1 = .ok (.queued (some 0)) := by decide +kernel
  let r₁ := (r.transmit (trialRequest 12 1)).2
  let r₂ := (r₁.transmit (trialRequest 12 2)).2
  let r₃ := (r₂.receive (trialBeacon 12 100000 20000).encode).2
  obtain ⟨e, he, hhandle⟩ := h r hreach _ 0 r₁ (Prod.ext houtcome rfl) r₂
    (.single (.transmit r₁ _)) r₃ (.receive r₂ _) (by decide +kernel) (by decide +kernel)
  have hnone : ∀ e ∈ r₃.released, e.parcel.origin.handle ≠ some 0 := by decide +kernel
  exact hnone e he hhandle

end Geocast.Router
