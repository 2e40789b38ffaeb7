import Geocast.Proofs.Router.Counters
import Geocast.Proofs.Router.Duplicates
import Geocast.Proofs.Router.Traffic

/-!
# Packets that another station relays first

A packet of another station is in one place at most: on the link, in a queue or on a timer
(`Reachable.alone`). So when it is taken off its timer because a copy of it was overheard, it is
nowhere, and since everything that begins its way later does so under a later number, it never gets
on the link (`Reachable.silenced`). A copy is known for one by the numbers that the table remembers
of its source, and by nothing else (`overheard_silenced_iff`). These are the latest twenty only,
however many packets of the source are on timers.
-/

namespace Geocast.Router

variable {α : Type}

/-- In how many places a packet is. -/
def places (r : Router α) (o : Origin) : Nat := (r.emitted + r.held).count o

theorem places_eq_zero_iff (r : Router α) (o : Origin) :
    r.places o = 0 ↔ (∀ e ∈ r.emissions, e.origin ≠ o) ∧ o ∉ r.held := by
  unfold places
  rw [Multiset.count_eq_zero, Multiset.mem_add, not_or]
  refine and_congr_left fun _ => ?_
  unfold emitted
  rw [Multiset.mem_coe, List.mem_map]
  exact ⟨fun h e he heq => h ⟨e, he, heq⟩, fun h ⟨e, he, heq⟩ => h e he heq⟩

/-- Keeping account of packets is keeping account of each. -/
theorem Dealt.places_le {new : Multiset Origin} {gain : Int} {r s : Router α}
    (h : Dealt new gain r s) (o : Origin) : s.places o ≤ r.places o + new.count o := by
  unfold places
  rw [← Multiset.count_add]
  exact Multiset.count_le_of_le o h.kept

variable [Scalar α] {r s : Router α} {o : Origin}

/-- A packet of another station gets to a place only under the number of a frame that comes in. -/
theorem Step.places_le (hstep : Step r s) (reach : Reachable r) (hforeign : ¬ r.Homemade o) :
    s.places o ≤ r.places o + if o.arrival = r.arrivals + 1 then 1 else 0 := by
  obtain ⟨action, rfl⟩ := (step_iff r s).mp hstep
  by_cases hkeeps : action.keepsCount = true
  · obtain ⟨new, hundertaken, hdealt⟩ := act_dealt reach.sound reach.orderly.addressed hkeeps
    refine Nat.le_trans (hdealt.places_le o) (Nat.add_le_add_left ?_ _)
    split
    · exact hundertaken.once o hforeign
    · next hearlier =>
      refine Nat.le_of_eq (Multiset.count_eq_zero_of_notMem fun ho => ?_)
      exact (hundertaken.whence o ho).elim hforeign hearlier
  · cases action with
    | stop =>
      -- what is on the link stays there, and nothing else is left
      show r.stop.places o ≤ _
      by_cases hstopped : r.phase = .stopped
      · rw [stop_of_stopped hstopped]
        exact Nat.le_add_right _ _
      · rw [stop_eq hstopped]
        refine Nat.le_trans (Multiset.count_le_of_le o ?_) (Nat.le_add_right _ _)
        exact add_le_add_right (Multiset.zero_le _) _
    | clearStats => exact Nat.le_add_right _ _
    | _ => exact absurd rfl hkeeps

/-- Whatever is in some place was taken over by now. -/
theorem Reachable.places_of_later (reach : Reachable r) (hlater : r.arrivals < o.arrival) :
    r.places o = 0 := by
  have hloaded := reach.loaded
  rw [places_eq_zero_iff]
  constructor
  · rintro e he rfl
    obtain ⟨_, hladen⟩ := hloaded.sent e he
    exact absurd hladen.known (Nat.not_le.mpr hlater)
  · intro ho
    obtain ⟨p, hp, rfl⟩ := Multiset.mem_map.mp ho
    have hholds : r.Holds p := by
      rcases Multiset.mem_add.mp hp with hp | hp
      · exact .inl (PacketQueues.exists_of_mem_stock hp)
      · exact .inr hp
    exact absurd (hloaded.held p hholds).known (Nat.not_le.mpr hlater)

/-- A packet of another station is in one place at most. -/
theorem Reachable.alone (reach : Reachable r) (hforeign : ¬ r.Homemade o) : r.places o ≤ 1 := by
  induction reach with
  | made hmade =>
    obtain ⟨_, rfl⟩ := eq_of_make hmade
    exact Nat.zero_le _
  | @step r s reach hstep ih =>
    have hconfig : s.config = r.config := (Leads.later (.single hstep)).config
    have hforeign' : ¬ r.Homemade o := fun h => hforeign (h.of_config hconfig)
    have hle := hstep.places_le reach hforeign'
    split at hle
    · next hnow =>
      rwa [reach.places_of_later (hnow ▸ Nat.lt_succ_self _), Nat.zero_add] at hle
    · exact Nat.le_trans hle (ih hforeign')

/-- A packet of another station that is in no place any longer stays out of all. -/
theorem Leads.places (hleads : Leads r s) (reach : Reachable r) (hforeign : ¬ r.Homemade o)
    (hearlier : o.arrival ≤ r.arrivals) (hgone : r.places o = 0) : s.places o = 0 := by
  induction hleads with
  | refl => exact hgone
  | @tail m t hbefore hstep ih =>
    have hconfig : m.config = r.config := (Leads.later hbefore).config
    have hle := hstep.places_le (reach.leads hbefore)
      fun h => hforeign (h.of_config hconfig.symm)
    rw [ih, if_neg, Nat.add_zero] at hle
    · exact Nat.le_zero.mp hle
    · have hmore := Leads.arrivals_le hbefore
      omega

/-! ## What is overheard -/

omit [Scalar α] in
/-- What is said by a packet of another station is no packet of the router's own. -/
theorem not_homemade {p : Packet} {v : LongPosition} (hframe : Packet.decode o.frame = .ok p)
    (hsource : p.source? = some v) (hother : v.address ≠ r.config.address) : ¬ r.Homemade o := by
  rintro ⟨q, w, hsendable, hencode, hsource', hown⟩
  rw [hencode, Packet.decode_encode hsendable] at hframe
  obtain rfl := Except.ok.inj hframe
  obtain rfl := Option.some.inj (hsource.symm.trans hsource')
  exact hother hown

omit [Scalar α] in
/-- What is taken off its timer is in one place less. -/
theorem overhear_places (r : Router α) {c : Contender} (hc : c ∈ r.contention.contenders) :
    (r.overhear c.key).places c.parcel.origin < r.places c.parcel.origin := by
  have hheld := congrArg (Multiset.count c.parcel.origin) (overhear_held r c.key)
  rw [Multiset.count_add] at hheld
  have htaken : 0 < (originsOf (r.contention.overheard c.key)).count c.parcel.origin := by
    rw [Multiset.count_pos]
    refine Multiset.mem_coe.mpr (List.mem_map_of_mem (List.mem_map_of_mem ?_))
    exact List.mem_filter.mpr ⟨hc, decide_eq_true rfl⟩
  unfold places
  rw [Multiset.count_add, Multiset.count_add]
  show r.emitted.count _ + _ < r.emitted.count _ + _
  omega

omit [Scalar α] in
theorem foreign_of_keyed (h : r.Sound) {c : Contender} (hc : c ∈ r.contention.contenders)
    (hother : c.key.1 ≠ r.config.address) : ¬ r.Homemade c.parcel.origin := by
  obtain ⟨p, hframe, hkey⟩ := h.keyed c hc
  obtain ⟨v, n, hsource, _, hpair⟩ := Outgoing.keyOf_eq_some_iff.mp hkey
  rw [hpair] at hother
  exact not_homemade hframe hsource hother

/-- A packet of another station that a frame takes off its timer never gets on the link. -/
theorem Reachable.silenced (reach : Reachable r) {c : Contender}
    (hc : c ∈ r.contention.contenders) (hother : c.key.1 ≠ r.config.address) {frame : Bytes}
    (hless : (r.receive frame).2.places c.parcel.origin < r.places c.parcel.origin)
    (hleads : Leads (r.receive frame).2 s) : ∀ e ∈ s.emissions, e.origin ≠ c.parcel.origin := by
  have hforeign := foreign_of_keyed reach.sound hc hother
  -- the packet was in this place only, and now is in none
  have hgone : (r.receive frame).2.places c.parcel.origin = 0 :=
    Nat.lt_one_iff.mp (Nat.lt_of_lt_of_le hless (reach.alone hforeign))
  have hstep : Step r (r.receive frame).2 := .receive r frame
  have hearlier : c.parcel.origin.arrival ≤ (r.receive frame).2.arrivals := by
    have hladen := reach.loaded.held c.parcel (.inr (List.mem_map_of_mem hc))
    rw [receive_arrivals]
    exact Nat.le_succ_of_le hladen.known
  have hnowhere := Leads.places hleads (reach.step hstep)
    (fun h => hforeign (h.of_config (Leads.later (.single hstep)).config.symm)) hearlier hgone
  exact ((places_eq_zero_iff _ _).mp hnowhere).1

/-- The packet that waits on a timer is taken off it and never gets on the link, and what it was taken
off for is not delivered. -/
structure Silenced (r : Router α) (frame : Bytes) (key : ContentionKey) : Prop where
  untimed : (r.receive frame).2.contention.contains key = false
  unsent : ∀ c ∈ r.contention.contenders, c.key = key →
    ∀ s, Leads (r.receive frame).2 s → ∀ e ∈ s.emissions, e.origin ≠ c.parcel.origin
  undelivered : (r.receive frame).1.isDelivered = false

variable {frame : Bytes} {p : Packet} {v : LongPosition} {n : SequenceNumber}

/-- A copy of a packet whose number is remembered silences the packet. -/
theorem silenced_of_remembered (reach : Reachable r) (hrunning : r.phase = .running)
    (hdecode : Packet.decode frame = .ok p) (hsource : p.source? = some v)
    (hnumber : p.sequence? = some n) (hhops : p.basic.remainingHops ≠ 0)
    (hremembered : (r.remembered v.address).contains n = true) :
    r.Silenced frame (v.address, n) := by
  have hfitted := reach.orderly.fitted
  -- of the router itself nothing is remembered
  have hother : v.address ≠ r.config.address := fun hown => by
    unfold remembered LocationTable.find? at hremembered
    rw [hown, hfitted.alone] at hremembered
    exact absurd hremembered (by simp [DuplicateList.contains])
  have hjudge := judge_of_decode (r := r) hdecode hsource hother hhops
  have hsequence : p.relayed.sequence? = some n :=
    (Packet.passed_relayed hhops).sequence?.trans hnumber
  rcases receive_seen_or_accepted hrunning hjudge (hfitted.own ▸ hother) with
    ⟨m, hm, _, hreceive⟩ | ⟨hunseen, _⟩
  · obtain rfl := Option.some.inj (hm.symm.trans hsequence)
    obtain ⟨table, hlearn⟩ := learn_rest r.arrived
      { packet := p.relayed, source := v, direct := isDirect p, length := frame.length }
    rw [hlearn] at hreceive
    exact {
      untimed := by
        rw [hreceive]
        show (r.contention.cancel (v.address, m)).2.contains (v.address, m) = false
        unfold ContentionQueue.cancel ContentionQueue.contains
        simp
      unsent := by
        intro c hc hkey s hleads
        refine reach.silenced hc (hkey ▸ hother) ?_ hleads
        rw [hreceive]
        show (({ r.arrived with table } : Router α).overhear (v.address, m)).places _ < _
        rw [← hkey]
        exact overhear_places ({ r.arrived with table } : Router α) hc
      undelivered := by
        rw [hreceive]
        rfl }
  · rw [hunseen n hsequence] at hremembered
    exact absurd hremembered Bool.false_ne_true

/-- To accept a packet leaves everything on its timer. -/
theorem accept_timers (h : r.Sound) (haddressed : Addressed r) (a : Arrival) {c : Contender}
    (hc : c ∈ r.contention.contenders) : c ∈ (r.accept a).2.contention.contenders := by
  obtain ⟨s, _, _, hlogged, haccept⟩ := accept_handle h haddressed a
  rw [haccept]
  exact (handle_logged s a).timers c (hlogged.timers c hc)

/-- A copy of a packet whose number is not remembered takes nothing off its timer: it is accepted
like any other packet, or dropped as one of the router's own. -/
theorem timed_of_unremembered (reach : Reachable r) (hrunning : r.phase = .running)
    (hdecode : Packet.decode frame = .ok p) (hsource : p.source? = some v)
    (hnumber : p.sequence? = some n) (hhops : p.basic.remainingHops ≠ 0)
    (hforgotten : (r.remembered v.address).contains n = false) {c : Contender}
    (hc : c ∈ r.contention.contenders) : c ∈ (r.receive frame).2.contention.contenders := by
  by_cases hown : v.address = r.config.address
  · -- an own packet that comes back is dropped before its number is looked up
    have hjudge : r.judge frame = .error .ownPacket := by
      unfold judge
      simp only [hdecode, hsource, if_pos hown]
    rw [receive_of_judge_error hrunning hjudge]
    exact hc
  · have hjudge := judge_of_decode (r := r) hdecode hsource hown hhops
    have hsequence : p.relayed.sequence? = some n :=
      (Packet.passed_relayed hhops).sequence?.trans hnumber
    rcases receive_seen_or_accepted hrunning hjudge (reach.orderly.fitted.own ▸ hown) with
      ⟨m, hm, hseen, _⟩ | ⟨_, f, hreceive⟩
    · obtain rfl := Option.some.inj (hm.symm.trans hsequence)
      exact nomatch hforgotten.symm.trans hseen
    · obtain ⟨table, hlearn⟩ := learn_rest r.arrived
        { packet := p.relayed, source := v, direct := isDirect p, length := frame.length }
      rw [hlearn] at hreceive
      have htimed := accept_timers (r := ({ r.arrived with table } : Router α).count f)
        (reach.sound.of_same rfl rfl rfl) reach.orderly.addressed
        { packet := p.relayed, source := v, direct := isDirect p, length := frame.length } hc
      rw [hreceive]
      exact htimed

/-- In every state that a running router can come to: when a packet waits on a timer and a copy of
it comes in that may still travel, then the timer is cancelled exactly if the table remembers the
number of the packet. And exactly then is the copy not delivered, and in no later state has the
packet that waited been handed to the link. -/
theorem overheard_silenced_iff (reach : Reachable r) (hrunning : r.phase = .running)
    (hdecode : Packet.decode frame = .ok p) (hsource : p.source? = some v)
    (hnumber : p.sequence? = some n) (hhops : p.basic.remainingHops ≠ 0)
    (hwaits : r.contention.contains (v.address, n) = true) :
    ((r.receive frame).2.contention.contains (v.address, n) = false ↔
        (r.remembered v.address).contains n = true) ∧
      (r.Silenced frame (v.address, n) ↔ (r.remembered v.address).contains n = true) := by
  have hsilenced := silenced_of_remembered reach hrunning hdecode hsource hnumber hhops
  have hremembered (huntimed : (r.receive frame).2.contention.contains (v.address, n) = false) :
      (r.remembered v.address).contains n = true := by
    rw [← Bool.not_eq_false]
    intro hforgotten
    obtain ⟨c, hc, hkey⟩ := List.mem_map.mp ((ContentionQueue.contains_iff _ _).mp hwaits)
    have htimed := timed_of_unremembered reach hrunning hdecode hsource hnumber hhops hforgotten hc
    have hstill := (ContentionQueue.contains_iff _ _).mpr (List.mem_map.mpr ⟨c, htimed, hkey⟩)
    exact Bool.false_ne_true (huntimed.symm.trans hstill)
  exact ⟨⟨hremembered, fun h => (hsilenced h).untimed⟩,
    fun h => hremembered h.untimed, hsilenced⟩

/-! ## Letters that stations contend for -/

theorem decode_trialLetter (sequence : UInt16) :
    Packet.decode (trialLetter sequence).encode = .ok (trialLetter sequence) := by
  have hhops : (3 : UInt8) ≤ 5 := by decide
  refine Packet.decode_encode ⟨UInt8.le_refl _, nofun, hhops, fun v hv => ?_⟩
  obtain rfl := Option.some.inj hv
  exact trialPosition_compact 11 100000 10000

/-- A router to try things on, once so many letters of one station have come in. -/
def trialContender (letters : Nat) : Router Float :=
  (trialStarted trialGeometry trialContending).run
    ((List.range letters).map fun i => .receive (trialLetter (.ofNat (7 + i))).encode)

theorem trialContender_reachable (letters : Nat) : Reachable (trialContender letters) := by
  have hfault : trialContending.fault?.isNone = true := by decide +kernel
  have hstarted := trialStarted_reachable trialGeometry (Option.isNone_iff_eq_none.mp hfault)
    (by decide +kernel)
  exact hstarted.leads (leads_run _ _)

/-- Another station relays a letter first. -/
theorem overheard_silenced_of_letter :
    (trialContender 1).contention.contains (trialStation 11, ⟨7⟩) = true ∧
      (trialContender 1).Silenced (trialLetter 7).encode (trialStation 11, ⟨7⟩) := by
  have hwaits : (trialContender 1).contention.contains (trialStation 11, ⟨7⟩) = true := by
    decide +kernel
  have hremembered : ((trialContender 1).remembered (trialStation 11)).contains ⟨7⟩ = true := by
    decide +kernel
  have hiff := overheard_silenced_iff (trialContender_reachable 1) (by decide +kernel)
    (decode_trialLetter 7) rfl rfl (by decide) hwaits
  exact ⟨hwaits, hiff.2.mpr hremembered⟩

/-- The first of 21 letters is not remembered when it is overheard, and stays on its timer. -/
theorem not_forall_overheard :
    ¬ ∀ r : Router Float, Reachable r → r.phase = .running →
      ∀ frame p, Packet.decode frame = .ok p → ∀ v, p.source? = some v →
        ∀ n, p.sequence? = some n → p.basic.remainingHops ≠ 0 →
        r.contention.contains (v.address, n) = true →
        (r.receive frame).2.contention.contains (v.address, n) = false := by
  intro h
  have hsilenced := h (trialContender 21) (trialContender_reachable 21) (by decide +kernel) _ _
    (decode_trialLetter 7) _ rfl _ rfl (by decide) (by decide +kernel)
  revert hsilenced
  decide +kernel

end Geocast.Router
