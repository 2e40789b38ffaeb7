import Geocast.Proofs.Location.DuplicateList
import Geocast.Proofs.Router.Duplicates
import Geocast.Proofs.Router.History

/-!
# How long a router remembers a packet

The numbers of a station's packets are remembered in its entry of the table, and an entry may be
made anew, taken out and put in again by sending, receiving, sweeping and searching. None of that
happens to the record while the station is seen (`act_recalls`), so that a packet which was taken
in is dropped when it comes again until twenty others have come behind it
(`receive_duplicate_of_watched`). It is not enough that few came since it was received last: a
packet that comes again keeps its old place.
-/

namespace Geocast.Router

variable {α : Type}

/-- Every record of numbers holds up to twenty. -/
def Roomy (r : Router α) : Prop :=
  ∀ a e, r.table.stations.get? a = some e → e.duplicates.capacity = 20

/-- Up to twenty numbers of each station are remembered. -/
theorem Roomy.remembered {r : Router α} (h : Roomy r) (a : Address) :
    (r.remembered a).capacity = 20 := by
  unfold Router.remembered
  cases hfind : r.table.find? a r.clock with
  | none => rfl
  | some e => exact h a e ((LocationTable.find?_eq_some_iff _ _ _ _).mp hfind).1

/-- How many numbers of a station are remembered that came after one. -/
def behind (r : Router α) (a : Address) (n : SequenceNumber) : Nat := (r.remembered a).since n

variable [Scalar α] {P : Router α → Packet → Prop} {r s : Router α}

/-- No move changes how many numbers a record holds. -/
theorem Roomy.move (hmove : Move P r s) (h : Roomy r) (hfitted : Fitted r) : Roomy s := by
  intro b e he
  rcases hmove.entry hfitted he with he | rfl | ⟨a, _, _, hnumbers⟩
  · exact h b e he
  · rfl
  · rw [hnumbers]
    cases a.packet.sequence? with
    | none => exact h.remembered b
    | some n => exact (DuplicateList.capacity_observe _ n).trans (h.remembered b)

/-- So it is in every reachable state. -/
theorem Reachable.roomy (reach : Reachable r) : Roomy r := by
  refine reach.invariant_fitted (fun hmade => ?_) fun hmove hfitted h => h.move hmove hfitted
  obtain ⟨_, rfl⟩ := eq_of_make hmade
  exact fun _ _ he => absurd he (by simp [LocationTable.make, AddressMap.get?_empty])

/-! ## What actions do to an entry -/

/-- A loop that goes on puts no entry in. -/
theorem continueLookup_entry {key : LookupKey} {a : Address} {e : Entry}
    (h : (r.continueLookup key).table.stations.get? a = some e) :
    r.table.stations.get? a = some e := by
  rcases r.continueLookup_forms key with ⟨_, heq⟩ | ⟨_, _, heq⟩ | ⟨_, _, heq⟩
  · rwa [heq] at h
  · rw [heq] at h
    rwa [← (sendLocationRequest_forwards r key.target).alike.table]
  · rw [heq] at h
    replace h : (r.expireLookup key.target).table.stations.get? a = some e := h
    cases hl : r.lookups.inFlight.get? key.target with
    | none => rwa [expireLookup_idle hl] at h
    | some l =>
      rw [(expireLookup_ended hl).2.1] at h
      exact LocationTable.cancelPending_get? h

/-- Timers put no entry in. -/
theorem settle_get? {a : Address} {e : Entry} (h : r.settle.table.stations.get? a = some e) :
    r.table.stations.get? a = some e := by
  -- of all timers only the sweep and the loops of lookups touch the table, to take entries away
  have hlookups (keys : List LookupKey) (r : Router α)
      (h : (keys.foldl continueLookup r).table.stations.get? a = some e) :
      r.table.stations.get? a = some e := by
    induction keys generalizing r with
    | nil => exact h
    | cons key rest ih => exact continueLookup_entry (ih _ h)
  have hbeacon (r : Router α) : r.fireBeacon.table = r.table := by
    unfold fireBeacon
    split
    · exact (sendBeacon_forwards r).alike.table
    · rfl
  have hsweep (r : Router α) (h : r.fireSweep.table.stations.get? a = some e) :
      r.table.stations.get? a = some e := by
    unfold fireSweep at h
    split at h
    · exact LocationTable.purgeStale_get? h
    · exact h
  unfold settle at h
  split at h
  · have hswept := hlookups _ _ h
    rw [hbeacon] at hswept
    have hfired := hsweep _ hswept
    rwa [(fireContention_alike r).table] at hfired
  · exact h

/-- Whatever does not take in a frame puts no entry in, unless it asks for a station of unknown
place. -/
theorem act_get? {action : Action} (hother : ∀ frame, action ≠ .receive frame) {a : Address}
    {e : Entry} (h : (r.act action).table.stations.get? a = some e) :
    r.table.stations.get? a = some e ∨ r.table.findPosition? a r.clock = none := by
  cases action with
  | receive frame => exact absurd rfl (hother frame)
  | start =>
    refine .inl ?_
    unfold act Router.start at h
    dsimp only at h
    split at h <;> exact h
  | stop =>
    refine .inl ?_
    have hact : r.act .stop = r.stop := rfl
    rw [hact] at h
    by_cases hstopped : r.phase = .stopped
    · rwa [stop_of_stopped hstopped] at h
    · rwa [stop_eq hstopped] at h
  | transmit q =>
    have hact : r.act (.transmit q) = (r.transmit q).2 := rfl
    rw [hact] at h
    -- only a placeholder is new, and its station was unknown
    rcases transmit_cases r q with ⟨hforwards, _⟩ | ⟨target, small, _, hunknown, heq⟩
    · rw [hforwards.alike.table] at h
      exact .inl h
    · rw [heq] at h
      rcases (await_awaited r target (r.unresolvedParcel (r.draft q) small target)).2.table with
        ⟨_, htable⟩ | ⟨_, htable⟩
      · rw [htable] at h
        exact .inl h
      · rw [htable] at h
        exact (LocationTable.insertPending_get? h).imp_right fun ⟨heq, _⟩ => heq ▸ hunknown
  | beacon => exact .inl ((sendBeacon_forwards r).alike.table ▸ h)
  | reposition position => exact .inl h
  | clearStats => exact .inl h
  | settle => exact .inl (settle_get? h)
  | tick => exact .inl (settle_get? (r := { r with now := r.now + 1 }) h)
  | wake key =>
    refine .inl ?_
    have hact : r.act (.wake key) = r.wakeLoop key := rfl
    rw [hact] at h
    unfold wakeLoop at h
    split at h
    · exact continueLookup_entry h
    · exact h

omit [Scalar α] in
/-- The place of a station is seen while its entry is fresh. -/
theorem sees_iff (r : Router α) (a : Address) :
    r.sees a = true ↔ ∃ e, r.table.stations.get? a = some e ∧
      r.table.Fresh e.position.timestamp r.clock := by
  unfold sees
  rw [Option.isSome_iff_exists]
  exact exists_congr fun e => LocationTable.find?_eq_some_iff _ _ _ _

omit [Scalar α] in
/-- What is remembered of a station that is seen is in its entry. -/
theorem remembered_of_sees {a : Address} (hsees : r.sees a = true) {e : Entry}
    (hget : r.table.stations.get? a = some e) : r.remembered a = e.duplicates := by
  obtain ⟨e', hget', hfresh⟩ := (sees_iff r a).mp hsees
  obtain rfl := Option.some.inj (hget.symm.trans hget')
  unfold Router.remembered
  rw [(LocationTable.find?_eq_some_iff _ _ _ _).mpr ⟨hget, hfresh⟩]
  rfl

omit [Scalar α] in
/-- Of any other nothing is remembered. -/
theorem remembered_of_not_sees {a : Address} (hsees : r.sees a = false) : r.remembered a = {} := by
  unfold Router.remembered
  rw [Option.isNone_iff_eq_none.mp (Option.isSome_eq_false_iff.mp hsees)]
  rfl

/-- What a router knows of the numbers of a station whose place it knows. -/
structure Knows (r : Router α) (a : Address) (l : DuplicateList) : Prop where
  entry : ∃ e, r.table.stations.get? a = some e ∧ e.pending = false ∧ e.duplicates = l

omit [Scalar α] in
/-- What is known of a station depends on its entry only. -/
theorem Knows.congr {a : Address} {l : DuplicateList} (h : Knows r a l)
    (hget : s.table.stations.get? a = r.table.stations.get? a) : Knows s a l :=
  ⟨hget ▸ h.entry⟩

omit [Scalar α] in
/-- While the station is seen, what is known of it is remembered. -/
theorem Knows.remembered {a : Address} {l : DuplicateList} (h : Knows r a l)
    (hsees : r.sees a = true) : r.remembered a = l := by
  obtain ⟨e, hget, _, rfl⟩ := h.entry
  exact remembered_of_sees hsees hget

/-- Of a packet of the station, its number and the outcome tell whether it was taken in as new. -/
theorem accepts_of_judge {a : Arrival} {frame : Bytes} (hrunning : r.phase = .running)
    (hjudge : r.judge frame = .ok a) :
    accepts a.source.address r (.receive frame) =
      (a.packet.sequence?.isSome && !(r.receive frame).1.isDuplicate) := by
  unfold accepts isRunning
  simp [hjudge, hrunning]

/-- Nothing else is taken in as a packet of the station. -/
theorem accepts_of_not_heard {a : Address} {frame : Bytes}
    (h : ∀ arrival, r.phase = .running → r.judge frame = .ok arrival → arrival.source.address ≠ a) :
    accepts a r (.receive frame) = false := by
  unfold accepts isRunning
  cases hjudge : r.judge frame with
  | error e => simp [hjudge]
  | ok arrival =>
    by_cases hrunning : r.phase = .running
    · simp [hjudge, h arrival hrunning hjudge]
    · simp [hjudge, hrunning]

/-- An outcome of a new packet is none of a duplicate. -/
theorem IsNew.isDuplicate {outcome : ReceiveOutcome} (h : IsNew outcome) :
    outcome.isDuplicate = false := by
  unfold ReceiveOutcome.isDuplicate
  split
  · next a n => exact absurd rfl (h a n)
  · rfl

/-- What an action does to the numbers known of a station: none of them moves, or a new one of a
packet that was not seen before is put behind them. -/
inductive Recalls (r : Router α) (a : Address) (l : DuplicateList) (action : Action) : Prop
  | same (l' : DuplicateList) (hidle : accepts a r action = false)
      (hknows : Knows (r.act action) a l')
      (hsame : ∀ n, l'.since n = l.since n ∧ l'.contains n = l.contains n)
  | new (m : SequenceNumber) (haccepts : accepts a r action = true) (hnew : l.contains m = false)
      (hknows : Knows (r.act action) a (l.observe m).2)

/-- A packet of the station itself. -/
theorem receive_recalls_heard (hown : r.table.own = r.config.address) {a : Arrival}
    {l : DuplicateList} (h : Knows r a.source.address l) (hsees : r.sees a.source.address = true)
    {frame : Bytes} (hrunning : r.phase = .running) (hjudge : r.judge frame = .ok a) :
    Recalls r a.source.address l (.receive frame) := by
  obtain ⟨_, _, _, hother, _⟩ := judge_ok hjudge
  have hlearned := receive_learned hrunning hjudge (hown ▸ hother)
  have hremembered : r.remembered a.source.address = l := h.remembered hsees
  obtain ⟨e, hget, hpending, _⟩ := hlearned.entry
  have hnumbers : e.duplicates = a.packet.sequence?.elim l fun n => (l.observe n).2 := by
    rw [← hremembered]
    exact hlearned.numbers e hget
  have haccepts := accepts_of_judge hrunning hjudge
  cases hsequence : a.packet.sequence? with
  | none =>
    rw [hsequence] at hnumbers haccepts
    exact .same l haccepts ⟨e, hget, hpending, hnumbers⟩ fun _ => ⟨rfl, rfl⟩
  | some m =>
    rw [hsequence] at hnumbers haccepts
    have hknows : Knows (r.act (.receive frame)) a.source.address (l.observe m).2 :=
      ⟨e, hget, hpending, hnumbers⟩
    -- what was remembered decides, before the list takes note of the number
    rcases receive_seen_or_new hrunning hjudge (hown ▸ hother) hsequence with
      ⟨hseen, hdropped, _⟩ | ⟨hunseen, hnew⟩
    · rw [hdropped] at haccepts
      rw [hremembered] at hseen
      exact .same _ haccepts hknows (DuplicateList.observe_known hseen)
    · rw [hnew.isDuplicate] at haccepts
      rw [hremembered] at hunseen
      exact .new m haccepts hunseen hknows

/-- A frame moves no number of a station that is seen, but puts a new one behind them. -/
theorem receive_recalls (hown : r.table.own = r.config.address) {a : Address} {l : DuplicateList}
    (h : Knows r a l) (hsees : r.sees a = true) (frame : Bytes) :
    Recalls r a l (.receive frame) := by
  by_cases hheard : ∃ arrival, r.phase = .running ∧ r.judge frame = .ok arrival ∧
      arrival.source.address = a
  · obtain ⟨arrival, hrunning, hjudge, rfl⟩ := hheard
    exact receive_recalls_heard hown h hsees hrunning hjudge
  · refine .same l (accepts_of_not_heard ?_) (h.congr ?_) fun _ => ⟨rfl, rfl⟩
    · exact fun arrival hrunning hjudge hsource => hheard ⟨arrival, hrunning, hjudge, hsource⟩
    · -- the frame says nothing, or it comes from another station
      rcases receive_cases r frame with ⟨hforwards, _⟩ | ⟨arrival, hrunning, hjudge⟩
      · exact congrArg (·.stations.get? a) hforwards.alike.table
      · obtain ⟨_, _, _, hother, _⟩ := judge_ok hjudge
        exact (receive_learned hrunning hjudge (hown ▸ hother)).others a fun hsource =>
          hheard ⟨arrival, hrunning, hjudge, hsource.symm⟩

/-- Whatever happens to a router that sees a station, what it knows of its numbers stays, but for a
new one, as long as it sees the station. -/
theorem act_recalls (hown : r.table.own = r.config.address) {a : Address} {l : DuplicateList}
    (h : Knows r a l) (hsees : r.sees a = true) {action : Action}
    (hsees' : (r.act action).sees a = true) : Recalls r a l action := by
  by_cases hframe : ∃ frame, action = .receive frame
  · obtain ⟨frame, rfl⟩ := hframe
    exact receive_recalls hown h hsees frame
  · have hother (frame : Bytes) : action ≠ .receive frame := fun heq => hframe ⟨frame, heq⟩
    have hidle : accepts a r action = false := by
      cases action with
      | receive frame => exact absurd rfl (hother frame)
      | _ => rfl
    obtain ⟨e, hget, hpending, hnumbers⟩ := h.entry
    obtain ⟨e', hget', _⟩ := (sees_iff _ _).mp hsees'
    have hkept : r.table.stations.get? a = some e' := by
      rcases act_get? hother hget' with hkept | hunknown
      · exact hkept
      · -- the place of the station is known, so that nothing asks for it
        obtain ⟨e₀, hget₀, hfresh⟩ := (sees_iff _ _).mp hsees
        obtain rfl := Option.some.inj (hget.symm.trans hget₀)
        have hplace := (LocationTable.findPosition?_eq_some_iff _ _ _ _).mpr
          ⟨hget, hfresh, hpending⟩
        exact nomatch hplace.symm.trans hunknown
    exact .same l hidle (h.congr (hget'.trans hkept.symm)) fun _ => ⟨rfl, rfl⟩

omit [Scalar α] in
/-- Behind the last number there is none. -/
theorem Knows.behind_eq_zero {a : Address} {l : DuplicateList} (h : Knows r a l)
    {n : SequenceNumber} (hlast : l.since n = 0) : r.behind a n = 0 := by
  unfold Router.behind
  cases hsees : r.sees a with
  | true =>
    rw [h.remembered hsees]
    exact hlast
  | false =>
    rw [remembered_of_not_sees hsees]
    rfl

/-- The number of a packet is known once it was received, and is the last one if it is new. -/
theorem receive_knows {frame : Bytes} {a : Arrival} {n : SequenceNumber}
    (hrunning : r.phase = .running) (hjudge : r.judge frame = .ok a)
    (hother : a.source.address ≠ r.table.own) (hsequence : a.packet.sequence? = some n) :
    ∃ l, Knows (r.receive frame).2 a.source.address l ∧ l.contains n = true ∧
      ((r.receive frame).1.isDuplicate = false → l.since n = 0) := by
  have hlearned := receive_learned hrunning hjudge hother
  obtain ⟨e, hget, hpending, _, hseen⟩ := hlearned.entry
  refine ⟨e.duplicates, ⟨e, hget, hpending, rfl⟩, hseen n hsequence, fun hnew => ?_⟩
  have hnumbers : e.duplicates = ((r.remembered a.source.address).observe n).2 := by
    have hnumbers := hlearned.numbers e hget
    rwa [hsequence] at hnumbers
  rcases receive_seen_or_new hrunning hjudge hother hsequence with
    ⟨_, hdropped, _⟩ | ⟨hunseen, _⟩
  · rw [hdropped] at hnew
    cases hnew
  · rw [hnumbers]
    exact DuplicateList.since_observe_self hunseen

/-- While a station is seen, a number of it that is known stays known, until its list is full of
numbers that came behind it. -/
theorem Knows.acts {a : Address} {n : SequenceNumber} (actions : List Action)
    {r : Router α} (reach : Reachable r) {l : DuplicateList} (h : Knows r a l)
    (hknown : l.contains n = true) (hwatches : watches a r actions = true)
    (hroom : l.since n + accepted a r actions < 20) :
    (r.acts actions).sees a = true ∧ ∃ l', Knows (r.acts actions) a l' ∧
      l'.contains n = true := by
  induction actions generalizing r l with
  | nil => exact ⟨hwatches, l, h, hknown⟩
  | cons action rest ih =>
    obtain ⟨hsees, hrest⟩ := Bool.and_eq_true_iff.mp hwatches
    have hsees' : (r.act action).sees a = true := sees_of_watches hrest
    have reach' : Reachable (r.act action) := reach.act action
    unfold accepted at hroom
    cases act_recalls reach.orderly.fitted.own h hsees hsees' with
    | same l' hidle hknows hsame =>
      rw [if_neg (Bool.eq_false_iff.mp hidle)] at hroom
      obtain ⟨hsince, hcontains⟩ := hsame n
      exact ih reach' hknows (hcontains.trans hknown) hrest (by omega)
    | new m haccepts hnew hknows =>
      rw [if_pos haccepts] at hroom
      have hcapacity : l.capacity = 20 := h.remembered hsees ▸ reach.roomy.remembered a
      obtain ⟨hkept, hsince⟩ := DuplicateList.observe_new hnew hknown (by omega)
      exact ih reach' hknows hkept hrest (by omega)

/-- In every state that a running router can come to, a numbered packet from another station that
may still travel is remembered for as long as the table sees the station in every state, until
twenty numbers stand behind it: those that stood there when it was taken in, which is none if it was
not a duplicate itself, and those of the packets of the station that were taken in since and were
not seen before. Whatever else happens until then, any packet with that number that may still travel
is dropped as a duplicate, and nothing is handed to the link. -/
theorem receive_duplicate_of_watched {r : Router α} (reach : Reachable r)
    (hrunning : r.phase = .running) {frame : Bytes} {p : Packet}
    (hdecode : Packet.decode frame = .ok p) {v : LongPosition} (hsource : p.source? = some v)
    {n : SequenceNumber} (hsequence : p.sequence? = some n)
    (hother : v.address ≠ r.config.address) (hhops : p.basic.remainingHops ≠ 0) :
    let r₁ := (r.receive frame).2
    ((r.receive frame).1.isDuplicate = false → r₁.behind v.address n = 0) ∧
    ∀ actions, watches v.address r₁ actions = true → (r₁.acts actions).phase = .running →
      r₁.behind v.address n + accepted v.address r₁ actions < 20 →
      ∀ frame' p' v', Packet.decode frame' = .ok p' → p'.source? = some v' →
        v'.address = v.address → p'.sequence? = some n → p'.basic.remainingHops ≠ 0 →
        ((r₁.acts actions).receive frame').1 = .drop (.duplicatePacket v.address n) ∧
          ((r₁.acts actions).receive frame').2.emissions = (r₁.acts actions).emissions := by
  intro r₁
  have hother' : v.address ≠ r.table.own := reach.orderly.fitted.own ▸ hother
  have hjudge := judge_of_decode (r := r) hdecode hsource hother hhops
  obtain ⟨l, hknows, hknown, hlast⟩ := receive_knows hrunning hjudge hother' hsequence
  refine ⟨fun hnew => hknows.behind_eq_zero (hlast hnew), ?_⟩
  intro actions hwatches hrunning₂ hroom frame' p' v' hdecode' hsource' hsame hsequence' hhops'
  have reach₁ : Reachable r₁ := .step reach (.receive r frame)
  have hleads : Leads r₁ (r₁.acts actions) := (leads_iff _ _).mpr ⟨actions, rfl⟩
  unfold behind at hroom
  rw [hknows.remembered (sees_of_watches hwatches)] at hroom
  obtain ⟨hsees, l', hknows', hkept⟩ := hknows.acts actions reach₁ hknown hwatches hroom
  -- the last frame is judged by the address that the router has always had
  have hconfig : (r₁.acts actions).config = r.config :=
    (Leads.later (.head (.receive r frame) hleads)).config
  have hother₂ : v'.address ≠ (r₁.acts actions).config.address := by
    rw [hconfig, hsame]
    exact hother
  have hown₂ : v'.address ≠ (r₁.acts actions).table.own :=
    (reach₁.leads hleads).orderly.fitted.own ▸ hother₂
  have hremembered : ((r₁.acts actions).remembered v'.address).contains n = true := by
    rw [hsame, hknows'.remembered hsees]
    exact hkept
  rw [← hsame]
  exact (receive_duplicate_iff hrunning₂ (judge_of_decode hdecode' hsource' hother₂ hhops') hown₂
    hsequence').mpr hremembered

/-- A packet of the eleventh station with a number of its own. -/
def trialNumbered (n : UInt16) : Packet :=
  { trialPacket 11 100000 10000 with
    extended := .topological { sequence := ⟨n⟩, source := trialPosition 11 100000 10000 }
    fits := rfl
    declared := rfl }

/-- The packet can be read back from its frame, whatever its number. -/
theorem decode_trialNumbered (n : UInt16) :
    Packet.decode (trialNumbered n).encode = .ok (trialNumbered n) := by
  have hhops : (3 : UInt8) ≤ 5 := by decide
  refine Packet.decode_encode ⟨UInt8.le_refl _, nofun, hhops, fun v hv => ?_⟩
  obtain rfl := Option.some.inj hv
  exact trialPosition_compact 11 100000 10000

/-- What takes in packets of the eleventh station. -/
def trialActions (numbers : List UInt16) : List Action :=
  numbers.map fun n => .receive (trialNumbered n).encode

/-- A packet that comes for the first time is dropped when it comes again after another one and a
tick. -/
theorem receive_duplicate_of_watched_tick :
    let r := (trialStarted Sphere.geometry trialConfig).receive (trialNumbered 7).encode
    let actions := trialActions [8] ++ [.tick]
    watches (trialStation 11) r.2 actions = true ∧
      ((r.2.acts actions).receive (trialNumbered 7).encode).1 =
        .drop (.duplicatePacket (trialStation 11) ⟨7⟩) := by
  intro r actions
  have hwatches : watches (trialStation 11) r.2 actions = true := by decide +kernel
  have hlast := (receive_duplicate_of_watched (trialConfig_reachable Sphere.geometry) rfl
    (decode_trialNumbered 7) rfl rfl (by decide +kernel) (by decide)).2 actions hwatches
    (by decide +kernel) (by decide +kernel) _ _ _ (decode_trialNumbered 7) rfl rfl rfl (by decide)
  exact ⟨hwatches, hlast.1⟩

/-- It does not count when a packet came last: a number that comes again after nineteen others
keeps its place before them, and one more puts it out. -/
theorem not_forall_receive_duplicate_of_watched :
    ¬ ∀ r : Router Float, Reachable r → r.phase = .running →
      ∀ frame p, Packet.decode frame = .ok p → ∀ v, p.source? = some v →
        ∀ n, p.sequence? = some n → v.address ≠ r.config.address → p.basic.remainingHops ≠ 0 →
        ∀ actions, watches v.address (r.receive frame).2 actions = true →
          ((r.receive frame).2.acts actions).phase = .running →
          accepted v.address (r.receive frame).2 actions < 20 →
          (((r.receive frame).2.acts actions).receive frame).1 =
            .drop (.duplicatePacket v.address n) := by
  intro h
  let r := trialStarted Sphere.geometry trialConfig
  let before := trialActions [7, 8, 9, 10, 11, 12, 13, 14, 15, 16, 17, 18, 19, 20, 21, 22, 23, 24,
    25, 26]
  have reach : Reachable (r.acts before) :=
    (trialConfig_reachable Sphere.geometry).leads ((leads_iff _ _).mpr ⟨before, rfl⟩)
  have hdrop := h (r.acts before) reach (by decide +kernel) _ _ (decode_trialNumbered 7) _ rfl _ rfl
    (by decide +kernel) (by decide) (trialActions [27]) (by decide +kernel) (by decide +kernel)
    (by decide +kernel)
  exact absurd hdrop (by decide +kernel)

end Geocast.Router
