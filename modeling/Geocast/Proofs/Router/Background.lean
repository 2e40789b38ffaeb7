import Geocast.Proofs.Router.Requests

/-!
# What works in the background

Contention timers, the sweep of the table and beacons each have a loop, and so has every lookup that
began and whose loop has not found it ended yet. A loop waits for its time, wakes up, and looks
whether the router still runs; some loops do their work before they look, others only after (`wake`,
`serve`). `settle_eq_turns` says that these loops are all that works in the background: when timers
act, each has its turn, one after the other.
-/

namespace Geocast

/-- What works in the background of a router. -/
inductive Loop
  | contention
  | sweep
  | beacon
  | lookup (key : LookupKey)
deriving DecidableEq

namespace Router

variable {α : Type} {r s : Router α}

/-- The loops that work in the background of a router. -/
def loops (r : Router α) : List Loop :=
  (if r.isRunning then
    .contention :: .sweep :: if r.config.beaconEnabled then [.beacon] else []
  else []) ++ r.lookups.loops.map fun loop => .lookup loop.key

/-- In a router that does not run and has no loop of a lookup nothing works any longer. -/
theorem loops_eq_nil (hphase : r.phase ≠ .running) (hnone : r.lookups.loops = []) :
    r.loops = [] := by
  have hruns : r.isRunning = false := decide_eq_false hphase
  unfold loops
  rw [hruns, hnone]
  rfl

/-- What a loop does when it wakes up because its time has come: the sweep and a beacon are made
before it looks whether the router still runs. -/
def wake (r : Router α) : Loop → Router α
  | .sweep => r.fireSweep
  | .beacon => r.fireBeacon
  | _ => r

/-- What a loop does once it has seen that the router still runs. -/
def serve (r : Router α) : Loop → Router α
  | .contention => r.fireContention
  | .lookup key => if key ∈ r.lookups.woken r.now then r.continueLookup key else r
  | _ => r

/-- What a loop does when its time comes. -/
def turn (r : Router α) (loop : Loop) : Router α :=
  let r := r.wake loop
  if r.isRunning then r.serve loop else r

/-- While the router runs, the turn of the contention's timers is to act. -/
theorem turn_contention (hruns : r.isRunning = true) : r.turn .contention = r.fireContention :=
  if_pos hruns

/-- A sweep that is due is made, whether or not the router still runs. -/
theorem turn_sweep (r : Router α) : r.turn .sweep = r.fireSweep := ite_self _

/-- And so is a beacon. -/
theorem turn_beacon (r : Router α) : r.turn .beacon = r.fireBeacon := ite_self _

/-- The loop of a lookup goes on only if its time has come and the router runs. -/
theorem turn_lookup [Scalar α] (r : Router α) (key : LookupKey) :
    r.turn (.lookup key) = r.wakeLoop key := by
  show (if r.isRunning then (if key ∈ r.lookups.woken r.now then r.continueLookup key else r)
    else r) = r.wakeLoop key
  unfold wakeLoop
  split
  · next hruns => simp only [hruns, true_and]
  · next hruns => exact (if_neg fun h => hruns h.1).symm

/-! ## Loops do not notice each other -/

/-- A loop that goes on does not touch what another one sees of its own lookup. -/
theorem continueLookup_find? (h : r.lookups.Tended) {key k : LookupKey} (hne : k ≠ key) :
    (r.continueLookup key).lookups.find? k = r.lookups.find? k := by
  have hmodify {f : Lookup → Lookup} (hf : ∀ l, (f l).key = l.key) :
      (r.lookups.modify key f).find? k = r.lookups.find? k := by
    rw [LookupService.find?_modify key hf h.named, if_neg hne]
  rcases r.continueLookup_forms key with
    ⟨_, heq⟩ | ⟨_, _, heq⟩ | ⟨hgoing, _, heq⟩
  · rw [heq]
    exact hmodify (f := fun l => { l with notice := false }) fun _ => rfl
  · rw [heq]
    exact hmodify (f := fun l => { l with requests := l.requests + 1 }) fun _ => rfl
  · obtain ⟨l, hl⟩ : ∃ l, r.lookups.flying? key = some l := by
      refine Option.ne_none_iff_exists'.mp fun hnone => ?_
      exact Bool.false_ne_true (hgoing.symm.trans (h.isComplete_iff.mpr hnone))
    obtain ⟨hget, _⟩ := LookupService.flying?_eq_some_iff.mp hl
    have hfinished := LookupService.find?_finished hget (h.named _ l hget) .timedOut k
    rw [h.key_of_flying hl, if_neg hne] at hfinished
    have hexpired : (r.expireLookup key.target).lookups.find? k = r.lookups.find? k := by
      unfold expireLookup LookupService.finish?
      rw [hget]
      exact hfinished
    rw [heq]
    exact hexpired

/-- A loop that goes on keeps no other from its turn. -/
theorem continueLookup_woken (h : r.lookups.Tended) {key k : LookupKey} (hne : k ≠ key) :
    k ∈ (r.continueLookup key).lookups.woken (r.continueLookup key).now ↔
      k ∈ r.lookups.woken r.now := by
  rw [LookupService.mem_woken_iff, LookupService.mem_woken_iff]
  refine exists_congr fun due => and_congr (continueLookup_loops h hne due) ?_
  unfold LookupService.wakes
  rw [continueLookup_find? h hne, (continueLookup_kept r key).2.1]

variable [Scalar α]

/-- Once the router has stopped, loops that wake up do nothing. -/
theorem turns_of_not_running (hphase : r.phase ≠ .running) (keys : List LookupKey) :
    (keys.map Loop.lookup).foldl turn r = r := by
  induction keys with
  | nil => rfl
  | cons key rest ih =>
    have hturn : r.turn (.lookup key) = r := by
      rw [turn_lookup]
      exact if_neg fun hwakes => hphase (of_decide_eq_true hwakes.1)
    rw [List.map_cons, List.foldl_cons, hturn]
    exact ih

/-- The turns of some loops are the steps of those that wake up. -/
theorem turns_of_running (hphase : r.phase = .running) (h : r.lookups.Tended)
    {keys : List LookupKey} (hnodup : keys.Nodup) :
    (keys.map Loop.lookup).foldl turn r =
      (keys.filter (· ∈ r.lookups.woken r.now)).foldl continueLookup r := by
  induction keys generalizing r with
  | nil => rfl
  | cons key rest ih =>
    have hruns : r.isRunning = true := decide_eq_true hphase
    obtain ⟨hnew, hnodup⟩ := List.nodup_cons.mp hnodup
    rw [List.map_cons, List.foldl_cons, turn_lookup]
    by_cases hwakes : key ∈ r.lookups.woken r.now
    · obtain ⟨_, _, hkept, _⟩ := continueLookup_kept r key
      have hturn : r.wakeLoop key = r.continueLookup key := if_pos ⟨hruns, hwakes⟩
      have hothers : rest.filter (· ∈ (r.continueLookup key).lookups.woken
            (r.continueLookup key).now) = rest.filter (· ∈ r.lookups.woken r.now) := by
        refine List.filter_congr fun k hk => ?_
        have hne : k ≠ key := fun heq => hnew (heq ▸ hk)
        exact decide_eq_decide.mpr (continueLookup_woken h hne)
      rw [hturn, ih (hkept.trans hphase) ((continueLookup_works r key).tended h) hnodup, hothers,
        List.filter_cons_of_pos (by simpa using hwakes), List.foldl_cons]
    · have hturn : r.wakeLoop key = r := if_neg fun h => hwakes h.2
      rw [hturn, ih hphase h hnodup, List.filter_cons_of_neg (by simpa using hwakes)]

omit [Scalar α] in
/-- The loops that wake up are those with a turn in which they go on. -/
theorem woken_eq_filter (h : r.lookups.Tended) (now : Nat) :
    r.lookups.woken now =
      (r.lookups.loops.map RetryLoop.key).filter (· ∈ r.lookups.woken now) := by
  rw [List.filter_map]
  refine congrArg _ (List.filter_congr fun loop hloop => ?_)
  rw [Bool.eq_iff_iff]
  refine Iff.trans ?_ decide_eq_true_iff.symm
  show r.lookups.wakes now loop = true ↔ loop.key ∈ r.lookups.woken now
  rw [LookupService.mem_woken_iff]
  constructor
  · exact fun hwakes => ⟨loop.due, hloop, hwakes⟩
  · rintro ⟨due, hloop', hwakes⟩
    rwa [h.due_unique hloop' hloop] at hwakes

/-- When timers act, every loop has its turn. -/
theorem settle_eq_turns (h : r.lookups.Tended) : r.settle = r.loops.foldl turn r := by
  by_cases hphase : r.phase = .running
  · have hruns : r.isRunning = true := decide_eq_true hphase
    have hothers : (.contention :: .sweep ::
        if r.config.beaconEnabled then [.beacon] else ([] : List Loop)).foldl turn r =
          r.fireContention.fireSweep.fireBeacon := by
      have hconfig : r.fireContention.fireSweep.config = r.config := by
        unfold fireSweep
        split <;> exact (fireContention_alike r).config
      rw [List.foldl_cons, List.foldl_cons, turn_contention hruns, turn_sweep]
      split
      · exact turn_beacon _
      · next hdisabled =>
        refine (if_neg fun hbeacon => hdisabled ?_).symm
        rw [← hconfig]
        exact hbeacon.1
    obtain ⟨_, hphase', hlookups, _⟩ := fireOthers_kept r
    rw [settle_eq hphase]
    unfold loops
    rw [if_pos hruns, List.foldl_append, hothers]
    generalize r.fireContention.fireSweep.fireBeacon = m at hphase' hlookups
    rw [← hlookups] at h
    have hkeys : r.lookups.loops.map (fun loop => Loop.lookup loop.key) =
        (m.lookups.loops.map RetryLoop.key).map Loop.lookup := by
      rw [hlookups, List.map_map]
      rfl
    -- a loop has its turn in vain unless it wakes up, so all may be given one
    rw [hkeys, turns_of_running (hphase'.trans hphase) h h.single, ← woken_eq_filter h]
  · have hruns : r.isRunning = false := decide_eq_false hphase
    have hkeys : r.lookups.loops.map (fun loop => Loop.lookup loop.key) =
        (r.lookups.loops.map RetryLoop.key).map Loop.lookup := by
      rw [List.map_map]
      rfl
    rw [settle_of_not_running hphase]
    unfold loops
    rw [hruns, hkeys]
    exact (turns_of_not_running hphase _).symm

end Router

end Geocast
