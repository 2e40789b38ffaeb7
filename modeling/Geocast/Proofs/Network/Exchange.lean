import Geocast.Proofs.Network.Start
import Mathlib.Logic.Relation

/-!
# Two stations and the link between them

A link hands every frame that one of two stations sends to the other one, in the order in which
they were sent (`Pair.Delivers`). If the one is asked to send something to the other, of which it
knows nothing, it asks for its place, and what was to be sent goes out upon the first frame that
comes back (`Joined`, which every step preserves). There are only so many frames
(`Joined.delivers`), and once all have arrived the other station has it, once
(`Pair.exchange_completes`).
-/

namespace Geocast

/-! ## What was heard -/

/-- Two kinds of packets of the first station are numbered. -/
theorem Signal.length_numbers (heard : List Signal) :
    (heard.filterMap Signal.number?).length = heard.count .request + heard.count .message := by
  induction heard with
  | nil => rfl
  | cons s rest ih =>
    cases s with
    | request | message =>
      simp only [List.filterMap_cons, Signal.number?, List.length_cons, List.count_cons, ih]
      simp
      omega
    | beacon | reply =>
      simp only [List.filterMap_cons, Signal.number?, List.count_cons, ih]
      simp

/-- No two kinds of packets have one number. -/
theorem Signal.mem_of_number {heard : List Signal} {s : Signal} {n : SequenceNumber}
    (hn : s.number? = some n) (hmem : n ∈ heard.filterMap Signal.number?) : s ∈ heard := by
  obtain ⟨s', hs', hn'⟩ := List.mem_filterMap.mp hmem
  cases s <;> cases s' <;>
    first | exact hs' | exact absurd (hn.trans hn'.symm) (by decide) | exact nomatch hn

/-- What a packet adds to what was delivered. -/
theorem ReceiveOutcome.delivered_singleton {o : ReceiveOutcome} {s : Signal}
    {what : Bytes × Option Address}
    (h : o.unicast?.map (fun i => (i.payload, i.destination)) =
      if s = .message then some what else none) :
    ([o].filterMap ReceiveOutcome.unicast?).map (fun i => (i.payload, i.destination)) =
      List.replicate ([s].count .message) what := by
  by_cases hs : s = .message
  · rw [if_pos hs] at h
    obtain ⟨i, hi, rfl⟩ := Option.map_eq_some_iff.mp h
    rw [List.filterMap_cons_some hi, hs]
    rfl
  · rw [if_neg hs] at h
    have hnone : [s].count .message = 0 :=
      List.count_eq_zero.mpr fun hmem => hs (List.mem_singleton.mp hmem).symm
    rw [List.filterMap_cons_none (Option.map_eq_none_iff.mp h), hnone]
    rfl

/-! ## The link -/

/-- Two stations, and what the link between them has done so far. -/
structure Pair (α : Type) where
  near : Router α
  far : Router α
  /-- How many frames of the far station have come to the near one. -/
  nearTaken : Nat := 0
  /-- How many frames of the near station have come to the far one. -/
  farTaken : Nat := 0
  /-- What the far station made of them. -/
  outcomes : List ReceiveOutcome := []

namespace Pair

variable {α : Type}

/-- The link hands over a frame, the first that it has not handed over yet. -/
inductive Delivers [Scalar α] : Pair α → Pair α → Prop
  | toFar {p : Pair α} {e : Emission} (next : p.near.emissions[p.farTaken]? = some e) :
      Delivers p { p with
        far := (p.far.receive e.frame).2
        farTaken := p.farTaken + 1
        outcomes := p.outcomes ++ [(p.far.receive e.frame).1] }
  | toNear {p : Pair α} {e : Emission} (next : p.far.emissions[p.nearTaken]? = some e) :
      Delivers p { p with
        near := (p.near.receive e.frame).2
        nearTaken := p.nearTaken + 1 }

/-- The link hands over a frame, or the timers of a station act. -/
inductive Step [Scalar α] : Pair α → Pair α → Prop
  | delivers {p p' : Pair α} : Delivers p p' → Step p p'
  | nearSettles (p : Pair α) : Step p { p with near := p.near.settle }
  | farSettles (p : Pair α) : Step p { p with far := p.far.settle }

/-- All frames were handed over. -/
def Quiet (p : Pair α) : Prop :=
  p.near.emissions.length ≤ p.farTaken ∧ p.far.emissions.length ≤ p.nearTaken

/-- What the far station has heard, if that is what the near one sent. -/
def heard (script : List (Signal × Emission)) (p : Pair α) : List Signal :=
  (script.map Prod.fst).take p.farTaken

/-- What the near station sends later does not change what the far one has heard. -/
theorem heard_append {script : List (Signal × Emission)} (more : List (Signal × Emission))
    {p : Pair α} (h : p.farTaken ≤ script.length) : p.heard (script ++ more) = p.heard script := by
  unfold heard
  rw [List.map_append, List.take_append_of_le_length]
  rwa [List.length_map]

/-- How much there is still to hand over, with what the first frame on each side will add. -/
def work (script : List (Signal × Emission)) (p : Pair α) : Nat :=
  (script.length - p.farTaken) + (if Signal.request ∈ p.heard script then 0 else 1) +
    (p.far.emissions.length - p.nearTaken) + (if p.nearTaken = 0 then 1 else 0)

end Pair

/-! ## What the two know of each other -/

/-- Two stations at different places, each of which takes what the other one tells of itself for
fresh. -/
structure Meets {α : Type} [Scalar α] (a b : Router α) : Prop where
  other : b.config.address ≠ a.config.address
  apart : a.here ≠ b.here
  near : a.geometry.Separates [a.here, b.here]
  far : b.geometry.Separates [b.here, a.here]
  nearFresh : a.table.Fresh b.localPosition.timestamp a.clock
  farFresh : b.table.Fresh a.localPosition.timestamp b.clock

/-- The near station seeks the far one until it hears of it, and what the far one has heard is a
part of what the near one has sent. -/
structure Joined {α : Type} (a b : Router α) (payload : Bytes) (handle : Nat)
    (script : List (Signal × Emission)) (p : Pair α) : Prop where
  seeking : p.nearTaken = 0 → Router.Seeking a b.localPosition payload handle script p.near
  found : p.nearTaken ≠ 0 → Router.Found a b.localPosition payload handle script p.near
  host : Router.Host b a.localPosition (p.heard script) p.far
  nearTaken : p.nearTaken ≤ p.far.emissions.length
  farTaken : p.farTaken ≤ script.length
  answered : Signal.request ∈ p.heard script → p.far.emissions ≠ []
  delivered : (p.outcomes.filterMap ReceiveOutcome.unicast?).map
      (fun i => (i.payload, i.destination)) =
    List.replicate ((p.heard script).count .message) (payload, some b.config.address)

namespace Joined

open Router Pair

variable {α : Type} {a b : Router α} {payload : Bytes} {handle : Nat}
  {script : List (Signal × Emission)} {p : Pair α} {e : Emission}

theorem seeker (h : Joined a b payload handle script p) :
    Seeker a b.localPosition payload script p.near := by
  by_cases hnone : p.nearTaken = 0
  · exact (h.seeking hnone).toSeeker
  · exact (h.found hnone).toSeeker

/-- What was to be sent goes out once at most. -/
theorem once (h : Joined a b payload handle script p) :
    (script.map Prod.fst).count .message ≤ 1 := by
  by_cases hnone : p.nearTaken = 0
  · rw [(h.seeking hnone).unsent]
    exact Nat.zero_le 1
  · rw [(h.found hnone).once]

/-- No packet with a number was heard more than once, and none goes out again. -/
theorem number_new (h : Joined a b payload handle script p) {heard : List Signal} {s : Signal}
    (hheard : heard ++ [s] <+: script.map Prod.fst) {n : SequenceNumber} (hn : s.number? = some n) :
    n ∉ heard.filterMap Signal.number? := by
  intro hmem
  have hbefore := List.count_pos_iff.mpr (Signal.mem_of_number hn hmem)
  have hall : heard.count s + 1 ≤ (script.map Prod.fst).count s := by
    have hle := hheard.sublist.count_le s
    rwa [List.count_append, List.count_singleton_self] at hle
  cases s with
  | beacon | reply => exact nomatch hn
  | request =>
    have hone := h.seeker.asked
    omega
  | message =>
    have hone := h.once
    omega

/-- Few packets with a number were heard. -/
theorem few_numbers (h : Joined a b payload handle script p) :
    ((p.heard script).filterMap Signal.number?).length ≤ 2 := by
  have hheard : p.heard script <+: script.map Prod.fst := List.take_prefix _ _
  have hrequests := hheard.sublist.count_le Signal.request
  have hmessages := hheard.sublist.count_le Signal.message
  have hone := h.once
  rw [h.seeker.asked] at hrequests
  rw [Signal.length_numbers]
  omega

/-- What the far station hears next is what the near one has sent next. -/
theorem next_signal (h : Joined a b payload handle script p)
    (next : p.near.emissions[p.farTaken]? = some e) :
    ∃ s : Signal, s ≠ .reply ∧ s.Rides a b.localPosition payload e.frame ∧
      p.farTaken < script.length ∧
      (script.map Prod.fst).take (p.farTaken + 1) = p.heard script ++ [s] := by
  rw [h.seeker.sent, List.getElem?_map] at next
  obtain ⟨⟨s, e'⟩, hx, rfl⟩ := Option.map_eq_some_iff.mp next
  obtain ⟨hasked, hrides⟩ := h.seeker.rides _ (List.mem_of_getElem? hx)
  refine ⟨s, hasked, hrides, (List.getElem?_eq_some_iff.mp hx).1, ?_⟩
  rw [List.take_add_one, List.getElem?_map, hx]
  rfl

variable [Scalar α]

/-- The far station hears the next frame. -/
theorem toFar (hm : Meets a b) (hvalid : a.config.hopLimit ≠ 0)
    (h : Joined a b payload handle script p) (next : p.near.emissions[p.farTaken]? = some e) :
    let p' := { p with
      far := (p.far.receive e.frame).2
      farTaken := p.farTaken + 1
      outcomes := p.outcomes ++ [(p.far.receive e.frame).1] }
    Joined a b payload handle script p' ∧ p'.work script < p.work script := by
  intro p'
  obtain ⟨s, hasked, hrides, hlt, hheard⟩ := h.next_signal next
  have hheard : p'.heard script = p.heard script ++ [s] := hheard
  have hfront : p.heard script ++ [s] <+: script.map Prod.fst := hheard ▸ List.take_prefix _ _
  have hroom : ((p.heard script).filterMap Signal.number?).length < 20 :=
    Nat.lt_of_le_of_lt h.few_numbers (by decide)
  obtain ⟨hhost, ⟨new, hemissions, hlength⟩, hdelivered⟩ := h.host.receive hm.other.symm hvalid
    hm.farFresh hm.far hm.apart.symm (fun n hn => h.number_new hfront hn) hroom hasked hrides
  have hcame : p'.far.emissions.length = p.far.emissions.length + new.length := by
    show (p.far.receive e.frame).2.emissions.length = _
    rw [hemissions, List.length_append]
  have hbefore := h.nearTaken
  refine ⟨{
    seeking := h.seeking
    found := h.found
    host := hheard ▸ hhost
    nearTaken := by
      show p.nearTaken ≤ p'.far.emissions.length
      omega
    farTaken := hlt
    answered := by
      intro hmem
      rw [← List.length_pos_iff, hcame]
      rw [hheard] at hmem
      rcases List.mem_append.mp hmem with hold | hlast
      · have hpositive := List.length_pos_iff.mpr (h.answered hold)
        omega
      · rw [hlength, if_pos (List.mem_singleton.mp hlast).symm]
        omega
    delivered := by
      show ((p.outcomes ++ [_]).filterMap _).map _ = _
      rw [List.filterMap_append, List.map_append, h.delivered, hheard, List.count_append,
        List.replicate_add, ReceiveOutcome.delivered_singleton hdelivered] }, ?_⟩
  -- the measure falls: the frame is taken, and an answer is owed only to a new request
  show script.length - (p.farTaken + 1) + (if _ ∈ p'.heard script then 0 else 1) +
    (p'.far.emissions.length - p.nearTaken) + (if p.nearTaken = 0 then 1 else 0) < _
  unfold work
  rw [hheard, hcame, hlength]
  by_cases hs : s = .request
  · subst hs
    have hnew : Signal.request ∉ p.heard script := fun hmem =>
      h.number_new hfront rfl (List.mem_filterMap.mpr ⟨_, hmem, rfl⟩)
    rw [if_pos rfl, if_pos (List.mem_append_right _ (List.mem_singleton_self _)), if_neg hnew]
    omega
  · have hsame : Signal.request ∈ p.heard script ++ [s] ↔ Signal.request ∈ p.heard script := by
      rw [List.mem_append, List.mem_singleton]
      exact or_iff_left fun heq => hs heq.symm
    rw [if_neg hs]
    simp only [hsame]
    omega

/-- The near station hears the next frame. -/
theorem toNear (hm : Meets a b) (hvalid : b.config.hopLimit ≠ 0)
    (h : Joined a b payload handle script p) (next : p.far.emissions[p.nearTaken]? = some e) :
    let p' := { p with
      near := (p.near.receive e.frame).2
      nearTaken := p.nearTaken + 1 }
    ∃ more, Joined a b payload handle (script ++ more) p' ∧
      p'.work (script ++ more) < p.work script := by
  intro p'
  have hlt : p.nearTaken < p.far.emissions.length := (List.getElem?_eq_some_iff.mp next).1
  obtain ⟨s, hs, hrides⟩ := h.host.signals e (List.mem_of_getElem? next)
  -- only the first frame lets out what was kept
  have hfound : ∃ more, more.length ≤ (if p.nearTaken = 0 then 1 else 0) ∧
      Router.Found a b.localPosition payload handle (script ++ more) p'.near := by
    by_cases hnone : p.nearTaken = 0
    · obtain ⟨e', hfound⟩ := (h.seeking hnone).receive hm.other hvalid hm.nearFresh hm.near hm.apart
        hs hrides
      rw [if_pos hnone]
      exact ⟨[(.message, e')], Nat.le_refl 1, hfound⟩
    · refine ⟨[], Nat.zero_le _, ?_⟩
      rw [List.append_nil]
      exact (h.found hnone).receive hm.other hvalid hm.nearFresh hs hrides
  obtain ⟨more, hlength, hfound⟩ := hfound
  have hheard : p'.heard (script ++ more) = p.heard script := heard_append more h.farTaken
  refine ⟨more, {
    seeking := nofun
    found := fun _ => hfound
    host := hheard ▸ h.host
    nearTaken := hlt
    farTaken := by
      rw [List.length_append]
      exact Nat.le_add_right_of_le h.farTaken
    answered := hheard ▸ h.answered
    delivered := hheard ▸ h.delivered }, ?_⟩
  show (script ++ more).length - p.farTaken + (if _ ∈ p'.heard _ then 0 else 1) +
    (p.far.emissions.length - (p.nearTaken + 1)) + 0 < _
  unfold work
  rw [hheard, List.length_append]
  have hbefore := h.farTaken
  omega

/-- Whatever the link hands over, there is less left. -/
theorem delivers (hm : Meets a b) (ha : a.config.hopLimit ≠ 0) (hb : b.config.hopLimit ≠ 0)
    (h : Joined a b payload handle script p) {p' : Pair α} (hstep : Delivers p p') :
    ∃ more, Joined a b payload handle (script ++ more) p' ∧
      p'.work (script ++ more) < p.work script := by
  cases hstep with
  | toFar next =>
    refine ⟨[], ?_⟩
    rw [List.append_nil]
    exact h.toFar hm ha next
  | toNear next => exact h.toNear hm hb next

omit [Scalar α] in
/-- What timers let the near station send changes nothing. -/
theorem nearSettles (h : Joined a b payload handle script p) :
    ∃ more, Joined a b payload handle (script ++ more) { p with near := p.near.settle } := by
  have hseeks : ∃ more,
      (p.nearTaken = 0 →
        Router.Seeking a b.localPosition payload handle (script ++ more) p.near.settle) ∧
      (p.nearTaken ≠ 0 →
        Router.Found a b.localPosition payload handle (script ++ more) p.near.settle) := by
    by_cases hnone : p.nearTaken = 0
    · obtain ⟨more, hseeking⟩ := (h.seeking hnone).settle
      exact ⟨more, fun _ => hseeking, fun hsome => absurd hnone hsome⟩
    · obtain ⟨more, hfound⟩ := (h.found hnone).settle
      exact ⟨more, fun hzero => absurd hzero hnone, fun _ => hfound⟩
  obtain ⟨more, hseeking, hfound⟩ := hseeks
  have hheard : heard (script ++ more) { p with near := p.near.settle } = p.heard script :=
    heard_append more h.farTaken
  exact ⟨more, {
    seeking := hseeking
    found := hfound
    host := hheard ▸ h.host
    nearTaken := h.nearTaken
    farTaken := by
      rw [List.length_append]
      exact Nat.le_add_right_of_le h.farTaken
    answered := hheard ▸ h.answered
    delivered := hheard ▸ h.delivered }⟩

omit [Scalar α] in
theorem farSettles (h : Joined a b payload handle script p) :
    Joined a b payload handle script { p with far := p.far.settle } where
  seeking := h.seeking
  found := h.found
  host := h.host.settle.1
  nearTaken := h.nearTaken.trans h.host.settle.2.length_le
  farTaken := h.farTaken
  answered := fun hmem hnone => h.answered hmem (List.prefix_nil.mp (hnone ▸ h.host.settle.2))
  delivered := h.delivered

theorem step (hm : Meets a b) (ha : a.config.hopLimit ≠ 0) (hb : b.config.hopLimit ≠ 0)
    (h : Joined a b payload handle script p) {p' : Pair α} (hstep : Step p p') :
    ∃ script, Joined a b payload handle script p' := by
  cases hstep with
  | delivers hdelivers =>
    obtain ⟨more, hjoined, _⟩ := h.delivers hm ha hb hdelivers
    exact ⟨_, hjoined⟩
  | nearSettles =>
    obtain ⟨more, hjoined⟩ := h.nearSettles
    exact ⟨_, hjoined⟩
  | farSettles => exact ⟨script, h.farSettles⟩

/-- What holds of two stations holds of them however the link and the timers go on. -/
theorem run (hm : Meets a b) (ha : a.config.hopLimit ≠ 0) (hb : b.config.hopLimit ≠ 0)
    (h : Joined a b payload handle script p) {p' : Pair α}
    (hrun : Relation.ReflTransGen Pair.Step p p') :
    ∃ script, Joined a b payload handle script p' := by
  induction hrun with
  | refl => exact ⟨script, h⟩
  | tail _ hstep ih =>
    obtain ⟨script', hjoined⟩ := ih
    exact hjoined.step hm ha hb hstep

/-- The link cannot hand over frames for ever. -/
theorem acc (hm : Meets a b) (ha : a.config.hopLimit ≠ 0) (hb : b.config.hopLimit ≠ 0)
    (h : Joined a b payload handle script p) : Acc (fun p' p => Delivers p p') p := by
  induction hwork : p.work script using Nat.strong_induction_on generalizing script p with
  | _ n ih =>
    refine .intro p fun p' hdelivers => ?_
    obtain ⟨more, hjoined, hless⟩ := h.delivers hm ha hb hdelivers
    exact ih _ (hwork ▸ hless) hjoined rfl

end Joined

namespace Pair

variable {α : Type} [Scalar α]

/-- As long as a frame is on its way the link can hand one over. -/
theorem exists_delivers {p : Pair α} (h : ¬ p.Quiet) : ∃ p', Delivers p p' := by
  unfold Quiet at h
  rw [not_and_or, Nat.not_le, Nat.not_le] at h
  rcases h with hlt | hlt
  · exact ⟨_, .toFar (List.getElem?_eq_getElem hlt)⟩
  · exact ⟨_, .toNear (List.getElem?_eq_getElem hlt)⟩

/-- So all frames arrive, if it cannot do so for ever. -/
theorem exists_quiet {p : Pair α} (h : Acc (fun p' p => Delivers p p') p) :
    ∃ p', Relation.ReflTransGen Delivers p p' ∧ p'.Quiet := by
  induction h with
  | intro p _ ih =>
    by_cases hquiet : p.Quiet
    · exact ⟨p, .refl, hquiet⟩
    · obtain ⟨p', hdelivers⟩ := exists_delivers hquiet
      obtain ⟨p'', hrun, hquiet'⟩ := ih p' hdelivers
      exact ⟨p'', .head hdelivers hrun, hquiet'⟩

/-- The far station has what the near one was asked to send to it, and nothing is left to do for
it. -/
structure Completed (p : Pair α) (station : Address) (payload : Bytes) (handle : Nat) : Prop where
  delivered : ∃ i, p.outcomes.filterMap ReceiveOutcome.unicast? = [i] ∧ i.type = .geoUnicast ∧
    i.payload = payload ∧ i.destination = some station
  told : p.near.completions = [⟨handle, .ok ()⟩]
  asked : (p.near.requests station).length = 1
  unasking : ∀ c, p.near.lookups.inFlight.get? c = none
  empty : ∀ kind c, p.near.queues.queue kind c = []
  untimed : p.near.contention = {}

end Pair

/-! ## Nothing is left -/

theorem ReceiveOutcome.type_of_unicast? {o : ReceiveOutcome} {i : Indication}
    (h : o.unicast? = some i) : i.type = .geoUnicast := by
  cases o with
  | consume j =>
    obtain ⟨htype, hsame⟩ := Option.ite_none_right_eq_some.mp h
    exact Option.some.inj hsame ▸ htype
  | forward | drop => exact nomatch h

section

variable {α : Type} {a b r : Router α} {peer : LongPosition} {payload : Bytes} {handle : Nat}
  {script : List (Signal × Emission)} {p : Pair α}

/-- Only one kind of packet asks for a station. -/
theorem Signal.Rides.asks {s : Signal} {frame : Bytes} (h : s.Rides a peer payload frame) :
    a.asks peer.address frame = decide (s = .request) := by
  obtain ⟨p, rfl, hsendable, _, hfits⟩ := h
  rw [Bool.eq_iff_iff, Router.asks_encode a _ hsendable, decide_eq_true_iff]
  constructor
  · rintro ⟨u, hu, _⟩
    cases s with
    | request => rfl
    | beacon => exact nomatch hu.symm.trans hfits
    | reply =>
      obtain ⟨_, _, hlayout⟩ := hfits
      exact nomatch hu.symm.trans hlayout
    | message => exact nomatch hu.symm.trans hfits.2.1
  · rintro rfl
    exact ⟨_, hfits, rfl, rfl⟩

/-- Of all that it sent, the station that seeks another one has asked for it once. -/
theorem Router.Seeker.requests (h : Router.Seeker a peer payload script r) :
    (r.requests peer.address).length = 1 := by
  rw [← h.asked]
  unfold Router.requests List.count
  rw [List.length_map, h.sent, ← List.countP_eq_length_filter, List.countP_map, List.countP_map]
  refine List.countP_congr fun x hx => ?_
  show r.asks peer.address x.2.frame = true ↔ (x.1 == Signal.request) = true
  rw [Router.asks_of_config h.stays.config, (h.rides x hx).2.asks, decide_eq_true_iff, beq_iff_eq]

/-- When all frames have arrived, what was asked for is done. -/
theorem Joined.completed (h : Joined a b payload handle script p) (hquiet : p.Quiet) :
    p.Completed b.config.address payload handle := by
  have hheard : p.heard script = script.map Prod.fst := by
    refine List.take_of_length_le ?_
    have hall := hquiet.1
    rwa [h.seeker.sent, List.length_map, ← List.length_map Prod.fst] at hall
  have hrequest : Signal.request ∈ p.heard script := by
    rw [hheard, ← List.count_pos_iff, h.seeker.asked]
    exact Nat.one_pos
  -- so the far station has answered, and the near one has heard it
  have hfound := h.found (by
    have hpositive := List.length_pos_iff.mpr (h.answered hrequest)
    have hall := hquiet.2
    omega)
  have hdelivered := h.delivered
  rw [hheard, hfound.once] at hdelivered
  obtain ⟨i, hi, hpair⟩ := List.map_eq_singleton_iff.mp hdelivered
  obtain ⟨hpayload, hdestination⟩ := Prod.mk.inj hpair
  exact {
    delivered := by
      obtain ⟨o, _, ho⟩ := List.mem_filterMap.mp (hi ▸ List.mem_singleton_self i)
      exact ⟨i, hi, ReceiveOutcome.type_of_unicast? ho, hpayload, hdestination⟩
    told := hfound.told
    asked := hfound.requests
    unasking := hfound.unasking
    empty := by
      intro kind c
      cases kind with
      | broadcast => exact hfound.idle.broadcast
      | unicast =>
        show (p.near.queues.unicast.get? c).getD [] = []
        rw [hfound.idle.unicast]
        rfl
      | lookup => exact hfound.empty c
    untimed := hfound.idle.contention }

end

namespace Pair

variable {α : Type} [Scalar α]

/-- When a station is asked to send something to another one of which it knows nothing yet, the
other one gets it, once, and the station is told so, after a single request. However the link and the
timers go on, the link runs out of frames, and then this is done. -/
theorem exchange_completes {a b : Router α} (ha : a.Started) (hb : b.Started) (hm : Meets a b)
    (hretries : 1 ≤ a.config.maxRequests) {q : Request}
    (hstation : q.destination = .station b.config.address)
    (hsize : q.payload.length ≤ Packet.maxPayload)
    (hlifetime : 0 < (a.draft q).lifetime.millis) :
    ∃ handle, (a.perform (.transmit q)).1 = .transmitted (.ok (.queued (some handle))) ∧
      ∀ p, Relation.ReflTransGen Step { near := (a.perform (.transmit q)).2, far := b } p →
        Acc (fun p' p => Delivers p p') p ∧
        (∃ p', Relation.ReflTransGen Delivers p p' ∧ p'.Quiet) ∧
        (p.Quiet → p.Completed b.config.address q.payload handle) := by
  have hblank := ha.blank
  have hvalid := hb.blank.valid.hops
  obtain ⟨htransmit, hpoised⟩ := hblank.poised b.localPosition hstation hsize hlifetime
  obtain ⟨script, hseeking⟩ := hpoised.settle hblank hretries
  have hstart : Joined a b q.payload a.handles script
      { near := (a.perform (.transmit q)).2, far := b } := {
    seeking := fun _ => hseeking
    found := fun hsome => absurd rfl hsome
    host := hb.blank.host a.localPosition
    nearTaken := Nat.zero_le _
    farTaken := Nat.zero_le _
    answered := nofun
    delivered := rfl }
  refine ⟨a.handles, congrArg Reply.transmitted htransmit, fun p hrun => ?_⟩
  obtain ⟨script', hjoined⟩ := hstart.run hm hblank.valid.hops hvalid hrun
  have hacc := hjoined.acc hm hblank.valid.hops hvalid
  exact ⟨hacc, exists_quiet hacc, hjoined.completed⟩

/-- The settings of a station with beacons. -/
def trialConfig (octet : UInt8) (nonArea : NonAreaForwarding) : Config Float :=
  { Router.trialConfig with
    address := Router.trialStation octet, nonArea := some nonArea, beaconEnabled := true }

/-- Such a station on the equator, at the longitude that the last octet of its address gives. -/
def trialAlong (octet : UInt8) (nonArea : NonAreaForwarding) : Router Float :=
  { Router.trial Router.trialGeometry (trialConfig octet nonArea) with
    position := fun _ => { timestamp := ⟨100000⟩, point := ⟨0, Int32.ofNat octet.toNat⟩ } }

theorem trialAlong_started {octet : UInt8} {nonArea : NonAreaForwarding}
    (hfault : (trialConfig octet nonArea).fault? = none) :
    (trialAlong octet nonArea).start.2.Started := by
  have hmade : Router.make Router.trialGeometry (trialConfig octet nonArea) ⟨100000⟩
      (trialAlong octet nonArea).position (fun _ => 0) = .ok (trialAlong octet nonArea) := by
    have hroom : (trialConfig octet nonArea).broadcastCapacity ≤ PacketQueues.maxBroadcast := by
      show 64 ≤ _
      decide
    unfold Router.make PacketQueues.ofCapacities?
    rw [hfault, if_pos hroom]
    rfl
  exact .start hmade

/-- A station that forwards greedily sends three bytes to one that contends. -/
theorem exchange_completes_along :
    let a := (trialAlong 10 .greedy).start.2
    let b := (trialAlong 11 .contention).start.2
    let q : Request := { destination := .station b.config.address, payload := [1, 2, 3] }
    Meets a b ∧ 1 ≤ a.config.maxRequests ∧ q.payload.length ≤ Packet.maxPayload ∧
      0 < (a.draft q).lifetime.millis ∧
      ∃ handle, (a.perform (.transmit q)).1 = .transmitted (.ok (.queued (some handle))) ∧
        ∀ p, Relation.ReflTransGen Step { near := (a.perform (.transmit q)).2, far := b } p →
          Acc (fun p' p => Delivers p p') p ∧
          (∃ p', Relation.ReflTransGen Delivers p p' ∧ p'.Quiet) ∧
          (p.Quiet → p.Completed b.config.address q.payload handle) := by
  intro a b q
  have hmeets : Meets a b := {
    other := by decide
    apart := by decide
    near := by
      unfold Geometry.Separates
      decide +kernel
    far := by
      unfold Geometry.Separates
      decide +kernel
    nearFresh := by decide
    farFresh := by decide }
  have ha : a.Started := trialAlong_started (Option.isNone_iff_eq_none.mp (by decide +kernel))
  have hb : b.Started := trialAlong_started (Option.isNone_iff_eq_none.mp (by decide +kernel))
  exact ⟨hmeets, by decide, by decide, by decide,
    exchange_completes ha hb hmeets (by decide) rfl (by decide) (by decide)⟩

end Pair

end Geocast
