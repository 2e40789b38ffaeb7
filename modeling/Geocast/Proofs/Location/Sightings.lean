import Geocast.Proofs.History
import Geocast.Proofs.Location.DuplicateList

/-!
# What a duplicate list remembers

Taking note of a number is a hit if the number is remembered, and a miss if it is not. A list
remembers the numbers of its last misses, as many as it has room for: a hit moves none of them. The
count of a number starts with its last miss. So everything that a list holds can be read off the
sightings that it was made from (`Recalls`), whatever was forgotten in between and came again;
`remembers_last_misses` is the main result.
-/

namespace Geocast.DuplicateList

/-- A number that a list took note of, and whether it was remembered then. -/
structure Sighting where
  number : SequenceNumber
  known : Bool
deriving DecidableEq, Repr

/-- Takes note of a number, and tells the sighting. -/
def sight (l : DuplicateList) (n : SequenceNumber) : Sighting × DuplicateList :=
  (⟨n, (l.observe n).1⟩, (l.observe n).2)

/-- The numbers that were not remembered when they came, in the order in which they came. -/
def misses (s : List Sighting) : List SequenceNumber :=
  (s.filter fun x => !x.known).map Sighting.number

/-- How often a number came since it was last missed, that time included. -/
def times (n : SequenceNumber) (s : List Sighting) : Nat :=
  1 + (s.rtakeWhile fun x => x ≠ ⟨n, false⟩).countP fun x => x.number = n

/-- A number of times as far as it is counted. -/
def counted (k : Nat) : UInt32 := UInt32.ofNat (min k maxCount.toNat)

/-! ## One more sighting -/

section

variable (s : List Sighting) {n : SequenceNumber}

/-- A number that was not remembered is one miss more. -/
theorem misses_concat (x : Sighting) :
    misses (s ++ [x]) = misses s ++ if x.known then [] else [x.number] := by
  unfold misses
  rw [List.filter_append, List.map_append]
  cases hknown : x.known <;> simp [hknown]

/-- A number that is remembered has come once more. -/
theorem times_concat_hit : times n (s ++ [⟨n, true⟩]) = times n s + 1 := by
  unfold times
  rw [List.rtakeWhile_concat_pos _ _ _ (by simp), List.countP_append]
  simp only [List.countP_singleton, decide_true, if_true]
  omega

/-- One that is not is counted from one. -/
theorem times_concat_miss : times n (s ++ [⟨n, false⟩]) = 1 := by
  unfold times
  rw [List.rtakeWhile_concat_neg _ _ _ (by simp)]
  rfl

/-- Other numbers have come as often as before. -/
theorem times_concat_of_ne {m : SequenceNumber} (hne : m ≠ n) (known : Bool) :
    times m (s ++ [⟨n, known⟩]) = times m s := by
  have hother : n ≠ m := fun heq => hne heq.symm
  unfold times
  rw [List.rtakeWhile_concat_pos _ _ _ (by simp [hother]), List.countP_append]
  simp [hother]

end

/-- The count stops at the most that its bits can hold. -/
theorem toNat_counted (k : Nat) : (counted k).toNat = min k maxCount.toNat := by
  have hmax : maxCount.toNat = 4294967295 := rfl
  unfold counted
  rw [UInt32.toNat_ofNat']
  exact Nat.mod_eq_of_lt (by omega)

/-- Up to there it goes up by one each time. -/
theorem bump_counted (k : Nat) : bump (counted k) = counted (k + 1) := by
  have hmax : maxCount.toNat = 4294967295 := rfl
  have hk := toNat_counted k
  have hnext := toNat_counted (k + 1)
  unfold bump
  split
  · next hfull =>
    rw [hfull] at hk
    refine UInt32.toNat_inj.mp ?_
    rw [hfull, hnext]
    omega
  · next hroom =>
    have hless : (counted k).toNat ≠ maxCount.toNat := fun heq => hroom (UInt32.toNat_inj.mp heq)
    refine UInt32.toNat_inj.mp ?_
    rw [UInt32.toNat_add, hnext, hk, show (1 : UInt32).toNat = 1 from rfl]
    omega

/-! ## The whole list, read off the sightings -/

/-- A list holds the numbers of the last misses, each with how often it came since. -/
def Recalls (l : DuplicateList) (s : List Sighting) : Prop :=
  l.seen = ((misses s).rtake l.capacity).map fun n => (n, counted (times n s))

section

variable {l : DuplicateList} {s : List Sighting}

/-- A new list remembers nothing. -/
theorem recalls_ofCapacity (capacity : Nat) : (ofCapacity capacity).Recalls [] := by
  unfold Recalls misses
  rw [List.filter_nil, List.map_nil, List.rtake_nil]
  rfl

theorem Recalls.numbers (h : l.Recalls s) :
    l.seen.map Prod.fst = (misses s).rtake l.capacity := by
  rw [h, List.map_map]
  exact List.map_id _

/-- So a number is remembered exactly if it is among the last that were missed. -/
theorem Recalls.contains_iff (h : l.Recalls s) (n : SequenceNumber) :
    l.contains n = true ↔ n ∈ (misses s).rtake l.capacity := by
  rw [DuplicateList.contains_iff, h.numbers]

/-- And its count is how often it came since then. -/
theorem Recalls.count?_eq_some_iff (h : l.Recalls s) (n : SequenceNumber) (k : UInt32) :
    l.count? n = some k ↔
      n ∈ (misses s).rtake l.capacity ∧ k.toNat = min (times n s) maxCount.toNat := by
  have hfind (numbers : List SequenceNumber) :
      ((numbers.map fun m => (m, counted (times m s))).find? (·.1 = n)).map Prod.snd = some k ↔
        n ∈ numbers ∧ counted (times n s) = k := by
    induction numbers with
    | nil => simp
    | cons m rest ih =>
      by_cases hm : m = n
      · subst hm
        simp
      · have hne : n ≠ m := fun heq => hm heq.symm
        simp only [List.map_cons, List.find?_cons, hm, decide_false, List.mem_cons, hne, false_or]
        exact ih
  unfold count?
  rw [h, hfind, ← toNat_counted, UInt32.toNat_inj, eq_comm (a := k)]

/-- A hit counts, and changes nothing else. -/
theorem Recalls.hit (h : l.Recalls s) {n : SequenceNumber} (hknown : l.contains n = true) :
    (l.observe n).2.Recalls (s ++ [⟨n, true⟩]) := by
  unfold observe
  rw [if_pos hknown]
  show List.map _ l.seen = _
  rw [h, misses_concat, if_pos rfl, List.append_nil, List.map_map]
  refine List.map_congr_left fun m _ => ?_
  dsimp only [Function.comp_apply]
  by_cases hm : m = n
  · subst hm
    rw [if_pos rfl, bump_counted, times_concat_hit]
  · rw [if_neg hm, times_concat_of_ne s hm]

/-- A miss comes last, and the oldest of the others gives way to it if there is no room left. -/
theorem Recalls.miss (h : l.Recalls s) (room : 0 < l.capacity) {n : SequenceNumber}
    (hnew : l.contains n = false) : (l.observe n).2.Recalls (s ++ [⟨n, false⟩]) := by
  have hother (m : SequenceNumber) (hm : m ∈ (misses s).rtake l.capacity) : m ≠ n := by
    rintro rfl
    rw [(h.contains_iff m).mpr hm] at hnew
    exact absurd hnew (by simp)
  have hsame (kept : List SequenceNumber) (hkept : kept ⊆ (misses s).rtake l.capacity) :
      kept.map (fun m => (m, counted (times m s))) =
        kept.map fun m => (m, counted (times m (s ++ [⟨n, false⟩]))) := by
    refine List.map_congr_left fun m hm => ?_
    rw [times_concat_of_ne s (hother m (hkept hm))]
  have hlength : l.seen.length = ((misses s).rtake l.capacity).length := by
    rw [h, List.length_map]
  unfold observe
  rw [if_neg (Bool.eq_false_iff.mp hnew)]
  show (if l.capacity ≤ l.seen.length then l.seen.drop 1 else l.seen) ++ [(n, 1)] = _
  rw [misses_concat, if_neg Bool.false_ne_true, rtake_concat room, ← hlength, List.map_append,
    List.map_singleton, times_concat_miss]
  congr 1
  split
  · rw [← hsame _ (List.drop_subset 1 _), h, List.map_drop]
  · rw [← hsame _ (List.Subset.refl _), h]

/-- Whatever number comes next, the list goes on to hold the last misses. -/
theorem Recalls.sight (h : l.Recalls s) (room : 0 < l.capacity) (n : SequenceNumber) :
    (l.sight n).2.Recalls (s ++ [(l.sight n).1]) := by
  unfold DuplicateList.sight
  rw [observe_fst]
  cases hcontains : l.contains n with
  | true => exact h.hit hcontains
  | false => exact h.miss room hcontains

end

theorem capacity_sight (l : DuplicateList) (n : SequenceNumber) :
    (l.sight n).2.capacity = l.capacity := l.capacity_observe n

theorem map_number_feed (l : DuplicateList) (calls : List SequenceNumber) :
    (feed sight l calls).1.map Sighting.number = calls := by
  induction calls generalizing l with
  | nil => rfl
  | cons n calls ih => exact congrArg (n :: ·) (ih _)

/-- By induction on the calls, last one last: what a list holds goes on with the sightings. -/
theorem recalls_feed (capacity : Nat) (calls : List SequenceNumber) :
    let run := feed sight (ofCapacity capacity) calls
    run.2.Recalls run.1 ∧ run.2.Tidy ∧ run.2.capacity = max capacity 1 := by
  induction calls using List.reverseRecOn with
  | nil => exact ⟨recalls_ofCapacity capacity, tidy_ofCapacity capacity, rfl⟩
  | append_singleton calls n ih =>
    obtain ⟨hrecalls, htidy, hcapacity⟩ := ih
    intro run
    rw [show run = _ from feed_concat sight _ calls n]
    exact ⟨hrecalls.sight htidy.room n, htidy.observe n,
      (capacity_sight _ n).trans hcapacity⟩

/-- After every row of calls on an empty list with room for some numbers, at least for one: the
list holds the numbers of the last misses, as many as there is room for, in the order of those
misses and none of them twice. The next call is a hit exactly if its number is one of them, and
just these have a count: how often the number came since it was last missed, as far as that is
counted. -/
theorem remembers_last_misses (capacity : Nat) (calls : List SequenceNumber) :
    let sightings := (feed sight (ofCapacity capacity) calls).1
    let l := (feed sight (ofCapacity capacity) calls).2
    let remembered := (misses sightings).rtake (max capacity 1)
    sightings.map Sighting.number = calls ∧
    l.seen.map Prod.fst = remembered ∧ l.size ≤ max capacity 1 ∧ remembered.Nodup ∧
    (∀ n, (l.observe n).1 = true ↔ n ∈ remembered) ∧
    ∀ n k, l.count? n = some k ↔
      n ∈ remembered ∧ k.toNat = min (times n sightings) maxCount.toNat := by
  intro sightings l remembered
  obtain ⟨hrecalls, htidy, hcapacity⟩ := recalls_feed capacity calls
  have hcontains (n : SequenceNumber) : l.contains n = true ↔ n ∈ remembered := by
    rw [hrecalls.contains_iff, hcapacity]
  have hnumbers : l.seen.map Prod.fst = remembered := by
    rw [hrecalls.numbers, hcapacity]
  refine ⟨map_number_feed _ calls, hnumbers, ?_, ?_, ?_, ?_⟩
  · rw [← hcapacity]
    exact htidy.fits
  · rw [← hnumbers]
    exact htidy.distinct
  · intro n
    rw [observe_fst, hcontains]
  · intro n k
    rw [hrecalls.count?_eq_some_iff, hcapacity]

/-- A list for two: 1 is forgotten for 3 although it came again, is missed when it comes once more,
and counts from there; 2 is forgotten for it. -/
example :
    let run := feed sight (ofCapacity 2) [⟨1⟩, ⟨2⟩, ⟨1⟩, ⟨3⟩, ⟨1⟩, ⟨1⟩]
    run.1.map Sighting.known = [false, false, true, false, false, true] ∧
      run.2.seen = [(⟨3⟩, 1), (⟨1⟩, 2)] := by decide

end Geocast.DuplicateList
