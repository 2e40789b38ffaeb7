import Geocast.Proofs.Router.Ledger
import Geocast.Proofs.Router.Relay

/-!
# Requests for the places of stations

A router asks for a station when the lookup for it says so, and only then: of all that it holds
nothing asks (`Reachable.hushed`), so whatever else it does leaves the requests as they are
(`Quiets.requests`). When timers act, each loop whose time has come goes on, once, and touches no
lookup but its own (`settle_split`). That is all that the schedule of a lookup needs to know of the
rest of the router.
-/

namespace Geocast

namespace Router

variable {α : Type}

/-- When and to whom a router has sent requests of its own for the place of a station. -/
def requests (r : Router α) (a : Address) : List (Nat × LinkTarget) :=
  (r.emissions.filter fun e => r.asks a e.frame).map fun e => (e.time, e.target)

/-- Nothing that waits in a router asks for a station. -/
def Hushed (r : Router α) : Prop := ∀ o ∈ r.held, ∀ a, r.asks a o.frame = false

/-- A frame that was sent asks for a station only if the packet did as it began its way. -/
def Faithful (r : Router α) : Prop :=
  ∀ e ∈ r.emissions, ∀ a, r.asks a e.origin.frame = false → r.asks a e.frame = false

/-- Which frames ask for a station depends on the settings only. -/
theorem asks_of_config {r s : Router α} (hconfig : s.config = r.config) (a : Address)
    (frame : Bytes) : s.asks a frame = r.asks a frame := by
  unfold asks
  rw [hconfig]

/-- What was sent since does not ask for a station. -/
theorem requests_of_silent {r s : Router α} {a : Address} {out : List Emission}
    (hconfig : s.config = r.config) (hout : s.emissions = r.emissions ++ out)
    (hsilent : ∀ e ∈ out, r.asks a e.frame = false) : s.requests a = r.requests a := by
  have hnone : out.filter (fun e => r.asks a e.frame) = [] := by
    rw [List.filter_eq_nil_iff]
    intro e he
    rw [hsilent e he]
    exact Bool.false_ne_true
  unfold requests
  simp only [asks_of_config hconfig]
  rw [hout, List.filter_append, hnone, List.append_nil]

/-- What was sent or taken in since asks for no station. -/
structure Quiets (r s : Router α) : Prop where
  config : s.config = r.config
  sent : ∃ out, s.emissions = r.emissions ++ out ∧
    ∀ e ∈ out, ∀ a, r.asks a e.origin.frame = false
  hushed : Hushed s

namespace Quiets

variable {r s : Router α}

/-- Nothing was sent, and nothing was taken in. -/
theorem of_same (h : Hushed r) (hconfig : s.config = r.config)
    (hemissions : s.emissions = r.emissions) (hheld : s.held ≤ r.held) : Quiets r s where
  config := hconfig
  sent := ⟨[], by rw [hemissions, List.append_nil], fun _ he => absurd he List.not_mem_nil⟩
  hushed := fun o ho a => by
    rw [asks_of_config hconfig]
    exact h o (Multiset.mem_of_le hheld ho) a

/-- Where nothing that is new asks for a station, nothing that was sent or taken in does. -/
theorem of_dealt (h : Hushed r) {new : Multiset Origin} {gain : Int} (hdealt : Dealt new gain r s)
    (hnew : ∀ o ∈ new, ∀ a, r.asks a o.frame = false) : Quiets r s where
  config := hdealt.config
  sent := by
    obtain ⟨out, hout⟩ := hdealt.log
    refine ⟨out, hout.symm, fun e he a => ?_⟩
    rcases Multiset.mem_add.mp (hdealt.mem_emissions hout.symm he) with ho | ho
    · exact h _ ho a
    · exact hnew _ ho a
  hushed := fun o ho a => by
    rw [asks_of_config hdealt.config]
    rcases Multiset.mem_add.mp (hdealt.mem_held ho) with ho | ho
    · exact h o ho a
    · exact hnew o ho a

/-- A router that was quiet has sent no request. -/
theorem requests (h : Quiets r s) (hfaithful : Faithful s) (a : Address) :
    s.requests a = r.requests a := by
  obtain ⟨out, hout, hsilent⟩ := h.sent
  refine requests_of_silent h.config hout fun e he => ?_
  rw [← asks_of_config h.config]
  refine hfaithful e ?_ a ?_
  · rw [hout]
    exact List.mem_append_right _ he
  · rw [asks_of_config h.config]
    exact hsilent e he a

end Quiets

/-- A router whose record goes on faithfully was faithful before. -/
theorem Faithful.of_prefix {r s : Router α} (h : Faithful s) (hconfig : s.config = r.config)
    (hlog : r.emissions <+: s.emissions) : Faithful r := fun e he a hquiet => by
  rw [← asks_of_config hconfig] at hquiet ⊢
  exact h e (hlog.subset he) a hquiet

variable [Scalar α] {r s : Router α}

/-- In every reachable state a frame asks only if its packet did. -/
theorem Reachable.faithful (reach : Reachable r) : Faithful r := by
  intro e he a hquiet
  obtain ⟨p, q, horigin, hpassed, hsendable, hframe, _⟩ := reach.sent he
  rw [Bool.eq_false_iff, hframe, ne_eq, asks_encode r a hsendable]
  rintro ⟨u, hu, hown, hrequested⟩
  -- a request is passed on as it is
  have hsame : p.extended = .locationRequest u := by
    rcases hpassed.extended with hsame | ⟨_, _, _, _, hunicast, _⟩
    · rw [← hsame, hu]
    · exact nomatch hu.symm.trans hunicast
  have hasks : r.asks a e.origin.frame = true := by
    unfold asks
    rw [horigin]
    dsimp only
    rw [hsame]
    exact decide_eq_true ⟨hown, hrequested⟩
  exact absurd (hasks.symm.trans hquiet) (by simp)

/-! ## Lookups for other stations -/

omit [Scalar α] in
/-- A request for one station is none for another. -/
theorem sendLocationRequest_requests (r : Router α) (target a : Address) :
    (r.sendLocationRequest target).requests a =
      r.requests a ++ if a = target then [(r.now, .broadcast)] else [] := by
  have hasks : r.asks a (r.requestPacket target).encode = decide (a = target) := by
    rw [Bool.eq_iff_iff, asks_encode r a (requestPacket_sendable r target), decide_eq_true_iff]
    constructor
    · rintro ⟨u, hu, _, rfl⟩
      obtain rfl := Extended.locationRequest.inj hu
      rfl
    · rintro rfl
      exact ⟨_, rfl, rfl, rfl⟩
  let e : Emission := ⟨r.now, .broadcast, (r.requestPacket target).encode, .link,
    r.originNow (r.requestPacket target)⟩
  have hsent : (r.sendLocationRequest target).requests a =
      ((r.emissions ++ [e]).filter fun e => r.asks a e.frame).map fun e => (e.time, e.target) := rfl
  rw [hsent, List.filter_append, List.map_append, List.filter_singleton, hasks]
  by_cases htarget : a = target
  · rw [if_pos htarget, decide_eq_true htarget]
    rfl
  · rw [if_neg htarget, decide_eq_false htarget]
    rfl

omit [Scalar α] in
/-- To give a lookup up sends none. -/
theorem expireLookup_requests (r : Router α) (target a : Address) :
    (r.expireLookup target).requests a = r.requests a := by
  unfold expireLookup LookupService.finish?
  cases r.lookups.inFlight.get? target <;> rfl

omit [Scalar α] in
/-- A loop that goes on asks for the station of its lookup if that is in flight and has not sent all
its requests. -/
theorem continueLookup_requests (h : r.lookups.Tended) (key : LookupKey) (a : Address) :
    (r.continueLookup key).requests a = r.requests a ++
      if (r.lookups.inFlight.get? a).any (fun l => l.key = key && (r.nextOf l).isSome) then
        [(r.now, .broadcast)] else [] := by
  -- a request goes out only where the loop's own lookup has one left
  have hquiet (hnone : ∀ l, r.lookups.inFlight.get? a = some l → l.key = key →
      r.nextOf l = none) :
      (r.lookups.inFlight.get? a).any (fun l => l.key = key && (r.nextOf l).isSome) = false := by
    cases hl : r.lookups.inFlight.get? a with
    | none => rfl
    | some l =>
      rw [Option.any_some]
      by_cases hkey : l.key = key
      · rw [hnone l hl hkey, Option.isSome_none, Bool.and_false]
      · rw [decide_eq_false hkey, Bool.false_and]
  rcases r.continueLookup_cases h key with
    ⟨hnone, ended, heq⟩ | ⟨l, hl, ⟨l', hnext, heq⟩ | ⟨hlast, heq⟩⟩
  · rw [heq, hquiet, if_neg Bool.false_ne_true, List.append_nil]
    · rfl
    · rintro l hl rfl
      exact nomatch hnone.symm.trans (h.flying_of_get? hl)
  · obtain ⟨hget, _⟩ := LookupService.flying?_eq_some_iff.mp hl
    have hsent := sendLocationRequest_requests r key.target a
    rw [heq]
    refine hsent.trans ?_
    by_cases ha : a = key.target
    · rw [if_pos ha, ha, hget, Option.any_some, decide_eq_true (h.key_of_flying hl), hnext]
      rfl
    · rw [if_neg ha, hquiet, if_neg Bool.false_ne_true]
      intro m hm hkey
      exact absurd ((h.named a m hm).symm.trans (LookupService.key_eq_iff.mp hkey).1) ha
  · have hsame := expireLookup_requests r key.target a
    rw [heq, hquiet, if_neg Bool.false_ne_true, List.append_nil]
    · exact hsame
    · rintro m hm rfl
      obtain rfl := Option.some.inj ((h.flying_of_get? hm).symm.trans hl)
      exact hlast

/-- Nothing has happened to the lookup for a station that its schedule would notice. -/
structure Apart (a : Address) (r s : Router α) : Prop where
  config : s.config = r.config
  now : s.now = r.now
  phase : s.phase = r.phase
  requests : s.requests a = r.requests a
  flight : s.lookups.inFlight.get? a = r.lookups.inFlight.get? a
  loops : ∀ l, r.lookups.inFlight.get? a = some l → ∀ due,
    ⟨l.key, due⟩ ∈ s.lookups.loops ↔ ⟨l.key, due⟩ ∈ r.lookups.loops
  completions : r.completions <+: s.completions

namespace Apart

variable {a : Address} {r s t : Router α}

omit [Scalar α] in
theorem refl (a : Address) (r : Router α) : Apart a r r :=
  ⟨rfl, rfl, rfl, rfl, rfl, fun _ _ _ => .rfl, List.prefix_rfl⟩

omit [Scalar α] in
theorem trans (h : Apart a r s) (h' : Apart a s t) : Apart a r t where
  config := h'.config.trans h.config
  now := h'.now.trans h.now
  phase := h'.phase.trans h.phase
  requests := h'.requests.trans h.requests
  flight := h'.flight.trans h.flight
  loops := fun l hl due => (h'.loops l (h.flight.trans hl) due).trans (h.loops l hl due)
  completions := h.completions.trans h'.completions

end Apart

omit [Scalar α] in
/-- A loop that goes on leaves the lookups of all other loops alone, whatever they ask for. -/
theorem continueLookup_apart (h : r.lookups.Tended) {key : LookupKey} {a : Address}
    (hother : ∀ l, r.lookups.inFlight.get? a = some l → l.key ≠ key) :
    Apart a r (r.continueLookup key) where
  config := (continueLookup_kept r key).1
  now := (continueLookup_kept r key).2.1
  phase := (continueLookup_kept r key).2.2.1
  requests := by
    have hquiet : (r.lookups.inFlight.get? a).any
        (fun l => l.key = key && (r.nextOf l).isSome) = false := by
      cases hl : r.lookups.inFlight.get? a with
      | none => rfl
      | some l => rw [Option.any_some, decide_eq_false (hother l hl), Bool.false_and]
    rw [continueLookup_requests h, hquiet, if_neg Bool.false_ne_true, List.append_nil]
  flight := by
    rw [continueLookup_get? h]
    cases hl : r.lookups.inFlight.get? a with
    | none => rfl
    | some l => exact if_neg (hother l hl)
  loops := fun l hl => continueLookup_loops h (hother l hl)
  completions := (continueLookup_kept r key).2.2.2

/-- Loops of other lookups leave the one for a station alone. -/
theorem continueLookups_apart (h : r.lookups.Tended) {keys : List LookupKey} {a : Address}
    (hothers : ∀ l, r.lookups.inFlight.get? a = some l → l.key ∉ keys) :
    Apart a r (keys.foldl continueLookup r) := by
  induction keys generalizing r with
  | nil => exact .refl a r
  | cons key rest ih =>
    have hfirst : Apart a r (r.continueLookup key) := continueLookup_apart h fun l hl heq =>
      hothers l hl (List.mem_cons.mpr (.inl heq))
    refine hfirst.trans (ih ((continueLookup_works r key).tended h) fun l hl hmem => ?_)
    exact hothers l (hfirst.flight.symm.trans hl) (List.mem_cons_of_mem _ hmem)

/-! ## When timers act -/

/-- What timers rely on. -/
structure Prepared (r : Router α) : Prop where
  sound : r.Sound
  hushed : Hushed r
  tended : r.lookups.Tended

omit [Scalar α] in
/-- A millisecond changes nothing that timers rely on. -/
theorem Prepared.pass (h : Prepared r) : Prepared { r with now := r.now + 1 } where
  sound := h.sound.of_same rfl rfl rfl
  hushed := h.hushed
  tended := h.tended

omit [Scalar α] in
/-- Timers that have nothing to do with lookups send at most a beacon of the router's own. -/
theorem fireOthers_dealt (h : r.Sound) :
    ∃ gain, Dealt {r.fireContention.fireSweep.originNow r.fireContention.fireSweep.beaconPacket}
      gain r r.fireContention.fireSweep.fireBeacon := by
  have hfired := fireContention_dealt h
  have hswept := hfired.then_nothing (fireSweep_dealt hfired.sound) (Int.add_zero _)
  exact ⟨_, hswept.after_nothing (fireBeacon_dealt hswept.sound) (Int.add_zero _)⟩

omit [Scalar α] in
/-- The timers that are no loops of lookups ask for no station. -/
theorem fireOthers_quiets (h : r.Sound) (hhushed : Hushed r) :
    Quiets r r.fireContention.fireSweep.fireBeacon := by
  obtain ⟨_, hdealt⟩ := fireOthers_dealt h
  refine .of_dealt hhushed hdealt fun o ho a => ?_
  obtain rfl := Multiset.mem_singleton.mp ho
  exact asks_eq_false_of_ne (beaconPacket_sendable _) nofun a

/-- Timers that have nothing to do with lookups sweep the table and do nothing else but forwarding. -/
theorem fireOthers_alike (r : Router α) :
    ∃ table sweepDue, Alike { r with table, sweepDue } r.fireContention.fireSweep.fireBeacon := by
  have hfired := fireContention_alike r
  generalize r.fireContention = s at hfired
  have hswept : ∃ table sweepDue, Alike { r with table, sweepDue } s.fireSweep := by
    unfold fireSweep
    split
    · exact ⟨(s.table.purgeStale s.clock).2, r.sweepDue, { hfired with table := rfl }⟩
    · exact ⟨s.table, r.sweepDue, { hfired with table := rfl }⟩
  obtain ⟨table, sweepDue, hswept⟩ := hswept
  generalize s.fireSweep = t at hswept
  refine ⟨table, sweepDue, hswept.trans ?_⟩
  unfold fireBeacon
  split
  · exact (sendBeacon_forwards t).alike.trans (Forward.scheduleBeacon (P := Own) _ _ _).alike
  · exact .refl t

/-- Nor do they touch a lookup. -/
theorem fireOthers_kept (r : Router α) :
    r.fireContention.fireSweep.fireBeacon.now = r.now ∧
      r.fireContention.fireSweep.fireBeacon.phase = r.phase ∧
      r.fireContention.fireSweep.fireBeacon.lookups = r.lookups ∧
      r.fireContention.fireSweep.fireBeacon.completions = r.completions := by
  obtain ⟨_, _, halike⟩ := fireOthers_alike r
  exact ⟨halike.now, halike.phase, halike.lookups, halike.completions⟩

omit [Scalar α] in
/-- When timers act, those loops go on that are due once the others have acted. -/
theorem settle_eq (hrunning : r.phase = .running) :
    r.settle = (r.fireContention.fireSweep.fireBeacon.lookups.woken
      r.fireContention.fireSweep.fireBeacon.now).foldl continueLookup
        r.fireContention.fireSweep.fireBeacon := by
  have hruns : r.isRunning = true := decide_eq_true hrunning
  unfold settle
  rw [if_pos hruns]
  rfl

omit [Scalar α] in
/-- In a router that does not run no timer acts. -/
theorem settle_of_not_running (h : r.phase ≠ .running) : r.settle = r := by
  unfold settle
  rw [if_neg]
  exact fun hruns => h (of_decide_eq_true hruns)

/-- Timers take no time, and neither start nor stop the router. -/
theorem settle_kept (r : Router α) : r.settle.now = r.now ∧ r.settle.phase = r.phase := by
  have hfold (keys : List LookupKey) (s : Router α) :
      (keys.foldl continueLookup s).now = s.now ∧
        (keys.foldl continueLookup s).phase = s.phase := by
    induction keys generalizing s with
    | nil => exact ⟨rfl, rfl⟩
    | cons key rest ih =>
      obtain ⟨_, hnow, hphase, _⟩ := continueLookup_kept s key
      exact ⟨(ih _).1.trans hnow, (ih _).2.trans hphase⟩
  by_cases hrunning : r.phase = .running
  · obtain ⟨hnow, hphase, _, _⟩ := fireOthers_kept r
    rw [settle_eq hrunning]
    exact ⟨(hfold _ _).1.trans hnow, (hfold _ _).2.trans hphase⟩
  · rw [settle_of_not_running hrunning]
    exact ⟨rfl, rfl⟩

theorem settle_now (r : Router α) : r.settle.now = r.now := (settle_kept r).1

/-- When timers act, the loop of a lookup goes on if its time has come, and nobody else touches the
lookup. -/
theorem settle_split (h : Prepared r) (hfaithful : Faithful r.settle)
    (hrunning : r.phase = .running) (a : Address) :
    (∀ l, r.lookups.inFlight.get? a = some l → ∀ due, ⟨l.key, due⟩ ∈ r.lookups.loops →
      r.now < due) ∧ Apart a r r.settle ∨
      ∃ l due m, r.lookups.inFlight.get? a = some l ∧ ⟨l.key, due⟩ ∈ r.lookups.loops ∧
        due ≤ r.now ∧ m.lookups.Tended ∧ Apart a r m ∧
          Apart a (m.continueLookup l.key) r.settle := by
  have hquiets := fireOthers_quiets h.sound h.hushed
  obtain ⟨_, hothers⟩ := fireOthers_dealt h.sound
  have hsound := hothers.sound
  obtain ⟨hnow, hphase, hlookups, hcompletions⟩ := fireOthers_kept r
  have heq := settle_eq hrunning
  clear hothers
  -- the three timers before the loops matter here only by what they leave alone
  generalize r.fireContention.fireSweep.fireBeacon = s at *
  rw [hlookups, hnow] at heq
  have htended : s.lookups.Tended := by
    rw [hlookups]
    exact h.tended
  have hfirst : Apart a r s := {
    config := hquiets.config
    now := hnow
    phase := hphase
    requests := by
      obtain ⟨_, _, hdealt⟩ := continueLookups_dealt hsound (r.lookups.woken r.now)
      refine hquiets.requests (hfaithful.of_prefix ?_ ?_) a
      · rw [heq, hdealt.config]
      · rw [heq]
        exact hdealt.log
    flight := by rw [hlookups]
    loops := fun _ _ _ => by rw [hlookups]
    completions := hcompletions ▸ List.prefix_rfl }
  rw [heq]
  cases hl : r.lookups.inFlight.get? a with
  | none =>
    -- no loop that wakes up can be for a lookup that is not in flight
    refine .inl ⟨nofun, hfirst.trans (continueLookups_apart htended fun l hl' => ?_)⟩
    exact nomatch hl.symm.trans (hfirst.flight.symm.trans hl')
  | some l =>
    have hflight : s.lookups.inFlight.get? a = some l := hfirst.flight.trans hl
    obtain ⟨due, hloop⟩ := h.tended.looped a l hl
    have hwoken := h.tended.mem_woken_of_get? hl hloop r.now
    by_cases hdue : due ≤ r.now
    · -- each loop that goes on has another key, before and after that of the lookup
      have hnodup := h.tended.nodup_woken r.now
      obtain ⟨before, after, hsplit⟩ := List.append_of_mem (hwoken.mpr hdue)
      rw [hsplit] at hnodup ⊢
      obtain ⟨_, hafter, hapart⟩ := List.nodup_append.mp hnodup
      rw [List.foldl_append, List.foldl_cons]
      have hbefore : Apart a s (before.foldl continueLookup s) := by
        refine continueLookups_apart htended fun m hm hmem => ?_
        obtain rfl := Option.some.inj (hm.symm.trans hflight)
        exact hapart _ hmem _ List.mem_cons_self rfl
      have htended' : (before.foldl continueLookup s).lookups.Tended :=
        (continueLookups_works s before).tended htended
      refine .inr ⟨l, due, _, rfl, hloop, hdue, htended', hfirst.trans hbefore, ?_⟩
      refine continueLookups_apart ((continueLookup_works _ _).tended htended') fun m hm hmem => ?_
      rw [continueLookup_get? htended', hbefore.flight, hflight, Option.bind_some, if_pos rfl] at hm
      rw [(nextOf_same hm).1] at hmem
      exact (List.nodup_cons.mp hafter).1 hmem
    · refine .inl ⟨fun m hm due' hloop' => ?_, hfirst.trans (continueLookups_apart htended ?_)⟩
      · obtain rfl := Option.some.inj hm
        rw [h.tended.due_unique hloop' hloop]
        exact Nat.lt_of_not_le hdue
      · intro m hm hmem
        obtain rfl := Option.some.inj (hm.symm.trans hflight)
        exact hdue (hwoken.mp hmem)

/-- What has become of a lookup whose loop went on when timers acted: it has asked once more, or is
given up, and those who waited for it know. -/
structure Continued (a : Address) (l : Lookup) (r s : Router α) : Prop where
  config : s.config = r.config
  now : s.now = r.now
  phase : s.phase = r.phase
  flight : s.lookups.inFlight.get? a = r.nextOf l
  loop : ∀ l', r.nextOf l = some l' →
    ⟨l'.key, r.now + r.config.retransmitMillis⟩ ∈ s.lookups.loops
  requests : s.requests a =
    r.requests a ++ if (r.nextOf l).isSome then [(r.now, .broadcast)] else []
  told : r.nextOf l = none → ∀ n ∈ l.waiters, ⟨n, .error (.lookupTimeout a)⟩ ∈ s.completions

/-- When timers act, the loop of a lookup goes on if its time has come. -/
theorem settle_continued (h : Prepared r) (hfaithful : Faithful r.settle)
    (hrunning : r.phase = .running) {a : Address} {l : Lookup}
    (hl : r.lookups.inFlight.get? a = some l) {due : Nat} (hloop : ⟨l.key, due⟩ ∈ r.lookups.loops)
    (hdue : due ≤ r.now) : Continued a l r r.settle := by
  rcases settle_split h hfaithful hrunning a with
    ⟨hearly, _⟩ | ⟨l', _, m, hl', _, _, htended, hbefore, hafter⟩
  · exact absurd (hearly l hl due hloop) (Nat.not_lt.mpr hdue)
  obtain rfl := Option.some.inj (hl'.symm.trans hl)
  obtain ⟨hconfig, hnow, hphase, _⟩ := continueLookup_kept m l'.key
  have hflight : m.lookups.inFlight.get? a = some l' := hbefore.flight.trans hl
  have hnext := nextOf_congr hbefore.config
  have hcontinued : (m.continueLookup l'.key).lookups.inFlight.get? a = r.nextOf l' := by
    rw [continueLookup_get? htended, hflight, Option.bind_some, if_pos rfl, hnext]
  -- nothing has happened to the lookup before its loop goes on, and nothing does after
  exact {
    config := hafter.config.trans (hconfig.trans hbefore.config)
    now := hafter.now.trans (hnow.trans hbefore.now)
    phase := hafter.phase.trans (hphase.trans hbefore.phase)
    flight := hafter.flight.trans hcontinued
    loop := by
      intro l'' hl''
      refine (hafter.loops l'' (hcontinued.trans hl'') _).mpr ?_
      rw [(nextOf_same hl'').1, ← hbefore.now, ← hbefore.config]
      rw [← hnext] at hl''
      exact continueLookup_sleeps htended hflight hl''
    requests := by
      rw [hafter.requests, continueLookup_requests htended, hbefore.requests, hbefore.now, hflight,
        Option.any_some, hnext, decide_eq_true rfl, Bool.true_and]
    told := by
      intro hnone n hn
      refine hafter.completions.subset ?_
      rw [← hnext] at hnone
      rw [continueLookup_of_last htended hflight hnone]
      show _ ∈ (m.expireLookup a).completions
      rw [(expireLookup_ended hflight).1.completions, h.tended.named a l' hl]
      exact List.mem_append_right _ (List.mem_map_of_mem hn) }

omit [Scalar α] in
/-- A loop that goes on lets no packet wait anew. -/
theorem continueLookup_held (r : Router α) (key : LookupKey) :
    (r.continueLookup key).held ≤ r.held := by
  have hsame {s : Router α} (hqueues : s.queues = r.queues)
      (hcontention : s.contention = r.contention) : s.held = r.held := by
    unfold held
    rw [hqueues, hcontention]
  rcases r.continueLookup_forms key with ⟨_, heq⟩ | ⟨_, _, heq⟩ | ⟨_, _, heq⟩
  · exact (hsame (by rw [heq]) (by rw [heq])).le
  · exact (hsame (by rw [heq]; rfl) (by rw [heq]; rfl)).le
  · rw [heq]
    show (r.expireLookup key.target).held ≤ r.held
    cases hl : r.lookups.inFlight.get? key.target with
    | none => rw [expireLookup_idle hl]
    | some l =>
      have hdropped : (r.expireLookup key.target).held =
          ({ r with queues := r.queues.drop .lookup (some key.target) } : Router α).held := by
        unfold expireLookup LookupService.finish?
        rw [hl]
        rfl
      rw [hdropped, ← drop_held r .lookup (some key.target)]
      exact Multiset.le_add_right _ _

omit [Scalar α] in
/-- So nothing comes to wait that would ask for a station. -/
theorem continueLookup_hushed (h : Hushed r) (key : LookupKey) :
    Hushed (r.continueLookup key) := by
  intro o ho a
  rw [asks_of_config (continueLookup_kept r key).1]
  exact h o (Multiset.mem_of_le (continueLookup_held r key) ho) a

omit [Scalar α] in
/-- Nor does it when all timers act. -/
theorem settle_hushed (h : Prepared r) : Hushed r.settle := by
  by_cases hrunning : r.phase = .running
  · have hfold (keys : List LookupKey) {s : Router α} (hhushed : Hushed s) :
        Hushed (keys.foldl continueLookup s) := by
      induction keys generalizing s with
      | nil => exact hhushed
      | cons key rest ih => exact ih (continueLookup_hushed hhushed key)
    rw [settle_eq hrunning]
    exact hfold _ (fireOthers_quiets h.sound h.hushed).hushed
  · rw [settle_of_not_running hrunning]
    exact h.hushed

/-! ## Actions -/

/-- Only timers ask for a station. -/
theorem act_quiets (reach : Reachable r) (h : Hushed r) (action : Action)
    (huntimed : action.letsTimersAct = false) : Quiets r (r.act action) := by
  by_cases hkeeps : action.keepsCount = true
  · obtain ⟨new, hundertaken, hdealt⟩ := act_dealt reach.sound reach.orderly.addressed hkeeps
    exact .of_dealt h hdealt (hundertaken.silent huntimed)
  · cases action with
    | stop =>
      show Quiets r r.stop
      by_cases hstopped : r.phase = .stopped
      · rw [stop_of_stopped hstopped]
        exact .of_same h rfl rfl (le_refl _)
      · rw [stop_eq hstopped]
        exact .of_same h rfl rfl (Multiset.zero_le _)
    | clearStats => exact .of_same h rfl rfl (le_refl _)
    | _ => exact absurd rfl hkeeps

/-- What timers rely on holds in every reachable state. -/
theorem Reachable.prepared (reach : Reachable r) : Prepared r := by
  refine ⟨reach.sound, ?_, reach.tended⟩
  refine reach.invariant_acts (fun hmade => ?_) fun {r} reach h action => ?_
  · obtain ⟨_, rfl⟩ := eq_of_make hmade
    exact fun _ ho => absurd ho (Multiset.notMem_zero _)
  · have hprepared : Prepared r := ⟨reach.sound, h, reach.tended⟩
    cases huntimed : action.letsTimersAct with
    | false => exact (act_quiets reach h action huntimed).hushed
    | true =>
      cases action with
      | settle => exact settle_hushed hprepared
      | tick => exact settle_hushed hprepared.pass
      | wake key =>
        show Hushed (r.wakeLoop key)
        unfold wakeLoop
        split
        · exact continueLookup_hushed h key
        · exact h
      | _ => exact nomatch huntimed

/-- When timers act, no lookup notices that is not due. -/
theorem settle_apart (h : Prepared r) (hfaithful : Faithful r.settle) {a : Address}
    (hidle : ∀ l, r.lookups.inFlight.get? a = some l → ∀ due, ⟨l.key, due⟩ ∈ r.lookups.loops →
      r.now < due) : Apart a r r.settle := by
  by_cases hrunning : r.phase = .running
  · rcases settle_split h hfaithful hrunning a with ⟨_, hapart⟩ | ⟨l, due, _, hl, hloop, hle, _⟩
    · exact hapart
    · exact absurd hle (Nat.not_le.mpr (hidle l hl due hloop))
  · rw [settle_of_not_running hrunning]
    exact .refl a r

/-- For a station that no lookup asks for, no request goes out. -/
theorem Step.requests_of_idle (hstep : Step r s) (reach : Reachable r) {a : Address}
    (hidle : r.lookups.isPending a = false) : s.requests a = r.requests a := by
  have hfaithful := (reach.step hstep).faithful
  have hnone := get?_eq_none_of_idle hidle
  obtain ⟨action, rfl⟩ := (step_iff r s).mp hstep
  cases huntimed : action.letsTimersAct with
  | false => exact (act_quiets reach reach.prepared.hushed action huntimed).requests hfaithful a
  | true =>
    cases action with
    | settle =>
      exact (settle_apart reach.prepared hfaithful fun l hl => nomatch hnone.symm.trans hl).requests
    | tick =>
      have hpassed : Apart a { r with now := r.now + 1 } r.tick :=
        settle_apart reach.prepared.pass hfaithful fun l hl => nomatch hnone.symm.trans hl
      exact hpassed.requests
    | wake key =>
      show (r.wakeLoop key).requests a = r.requests a
      unfold wakeLoop
      split
      · exact (continueLookup_apart reach.tended fun l hl => nomatch hnone.symm.trans hl).requests
      · rfl
    | _ => exact nomatch huntimed

end Router

end Geocast
