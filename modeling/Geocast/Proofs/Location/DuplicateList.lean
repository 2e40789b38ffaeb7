import Geocast.Location.DuplicateList

/-!
# How long a number is remembered

A duplicate list forgets a number when it takes note of as many new ones as it can hold. A number
that comes again keeps its place, so what counts is how many numbers stand behind it (`since`): a
known number leaves that alone, a new one adds one, and up to the capacity nothing is forgotten.
-/

namespace Geocast.DuplicateList

/-- How many entries stand behind that of a number. -/
def behind (n : SequenceNumber) : List (SequenceNumber × UInt32) → Nat
  | [] => 0
  | entry :: rest => if entry.1 = n then rest.length else behind n rest

/-- How many numbers a list remembers that it took note of after one. -/
def since (l : DuplicateList) (n : SequenceNumber) : Nat := behind n l.seen

section

variable {n : SequenceNumber} {entries : List (SequenceNumber × UInt32)}

/-- What is kept with the numbers does not matter to their order. -/
theorem behind_map {f : SequenceNumber × UInt32 → SequenceNumber × UInt32}
    (hf : ∀ entry, (f entry).1 = entry.1) : behind n (entries.map f) = behind n entries := by
  induction entries with
  | nil => rfl
  | cons entry rest ih =>
    simp only [List.map_cons, behind, hf, List.length_map, ih]

/-- What joins a list stands behind all that is in it. -/
theorem behind_append_of_mem (h : entries.any (·.1 = n) = true)
    (more : List (SequenceNumber × UInt32)) :
    behind n (entries ++ more) = behind n entries + more.length := by
  induction entries with
  | nil => exact absurd h Bool.false_ne_true
  | cons entry rest ih =>
    by_cases heq : entry.1 = n
    · simp only [List.cons_append, behind, heq, if_true, List.length_append]
    · have hrest : rest.any (·.1 = n) = true := by simpa [heq] using h
      simp only [List.cons_append, behind, heq, if_false, ih hrest]

/-- A new number stands last. -/
theorem behind_concat_of_not_mem (h : entries.any (·.1 = n) = false) (count : UInt32) :
    behind n (entries ++ [(n, count)]) = 0 := by
  induction entries with
  | nil => simp [behind]
  | cons entry rest ih =>
    have hboth : entry.1 ≠ n ∧ rest.any (·.1 = n) = false := by simpa using h
    simp only [List.cons_append, behind, hboth.1, if_false, ih hboth.2]

/-- Of a list that is not short for what stands behind a number, the oldest entry is another
one. -/
theorem behind_drop_one (h : entries.any (·.1 = n) = true)
    (hlong : behind n entries + 1 < entries.length) :
    (entries.drop 1).any (·.1 = n) = true ∧ behind n (entries.drop 1) = behind n entries := by
  cases entries with
  | nil => exact absurd h Bool.false_ne_true
  | cons entry rest =>
    by_cases heq : entry.1 = n
    · simp only [behind, heq, if_true, List.length_cons] at hlong
      omega
    · have hrest : rest.any (·.1 = n) = true := by simpa [heq] using h
      exact ⟨hrest, by simp only [List.drop_one, List.tail_cons, behind, heq, if_false]⟩

end

theorem capacity_observe (l : DuplicateList) (n : SequenceNumber) :
    (l.observe n).2.capacity = l.capacity := by
  unfold observe
  split <;> rfl

/-- A number is contained if the list has taken note of it and not forgotten it. -/
theorem contains_iff (l : DuplicateList) (n : SequenceNumber) :
    l.contains n = true ↔ n ∈ l.seen.map Prod.fst := by
  unfold contains
  simp

/-- Where there is room, a new number comes last, and none is forgotten. -/
theorem numbers_observe {l : DuplicateList} {n : SequenceNumber} (hnew : l.contains n = false)
    (hroom : l.seen.length < l.capacity) :
    (l.observe n).2.seen.map Prod.fst = l.seen.map Prod.fst ++ [n] := by
  have hfits : ¬ l.capacity ≤ l.seen.length := Nat.not_le.mpr hroom
  unfold observe
  rw [if_neg (Bool.eq_false_iff.mp hnew), if_neg hfits, List.map_append]
  rfl

/-- What counts once more stays the same number. -/
theorem fst_counted (n : SequenceNumber) (entry : SequenceNumber × UInt32) :
    (if entry.1 = n then (entry.1, bump entry.2) else entry).1 = entry.1 := by
  split <;> rfl

/-- A known number keeps its place, and so does every other. -/
theorem observe_known {l : DuplicateList} {m : SequenceNumber} (hknown : l.contains m = true)
    (n : SequenceNumber) :
    (l.observe m).2.since n = l.since n ∧ (l.observe m).2.contains n = l.contains n := by
  unfold observe since contains
  unfold contains at hknown
  rw [if_pos hknown]
  refine ⟨behind_map (fst_counted m), ?_⟩
  simp only [List.any_map, Function.comp_def, fst_counted]

/-- Only the number itself comes to be remembered. -/
theorem contains_of_observe {l : DuplicateList} {m n : SequenceNumber}
    (h : (l.observe n).2.contains m = true) : l.contains m = true ∨ m = n := by
  by_cases hknown : l.contains n = true
  · exact .inl ((l.observe_known hknown m).2 ▸ h)
  · unfold observe at h
    rw [if_neg hknown] at h
    obtain ⟨entry, hentry, heq⟩ := List.any_eq_true.mp h
    rcases List.mem_append.mp hentry with hold | hlast
    · refine .inl (List.any_eq_true.mpr ⟨entry, ?_, heq⟩)
      split at hold
      · exact List.mem_of_mem_drop hold
      · exact hold
    · obtain rfl := List.mem_singleton.mp hlast
      exact .inr (of_decide_eq_true heq).symm

/-- A number that was not remembered has nothing behind it. -/
theorem since_observe_self {l : DuplicateList} {n : SequenceNumber}
    (hnew : l.contains n = false) : (l.observe n).2.since n = 0 := by
  unfold observe since
  rw [if_neg (Bool.eq_false_iff.mp hnew)]
  refine behind_concat_of_not_mem ?_ 1
  split
  · rw [Bool.eq_false_iff] at hnew ⊢
    intro h
    obtain ⟨entry, hmem, heq⟩ := List.any_eq_true.mp h
    exact hnew (List.any_eq_true.mpr ⟨entry, List.mem_of_mem_drop hmem, heq⟩)
  · exact hnew

/-- A new number comes behind all that are remembered, and up to the capacity none of those is
forgotten. -/
theorem observe_new {l : DuplicateList} {m n : SequenceNumber} (hnew : l.contains m = false)
    (hknown : l.contains n = true) (hroom : l.since n + 1 < l.capacity) :
    (l.observe m).2.contains n = true ∧ (l.observe m).2.since n = l.since n + 1 := by
  have hkept (entries : List (SequenceNumber × UInt32)) (h : entries.any (·.1 = n) = true) :
      (entries ++ [(m, 1)]).any (·.1 = n) = true ∧
        behind n (entries ++ [(m, 1)]) = behind n entries + 1 :=
    ⟨by rw [List.any_append, h, Bool.true_or], behind_append_of_mem h _⟩
  unfold observe since contains
  unfold since at hroom
  unfold contains at hnew hknown
  rw [if_neg (Bool.eq_false_iff.mp hnew)]
  dsimp only
  split
  · next hfull =>
    obtain ⟨hrest, hbehind⟩ := behind_drop_one hknown (Nat.lt_of_lt_of_le hroom hfull)
    rw [← hbehind]
    exact hkept _ hrest
  · exact hkept _ hknown

/-- A list that remembers no more numbers than it has room for, none of them twice, and each for
having come at least once. -/
structure Tidy (l : DuplicateList) : Prop where
  room : 0 < l.capacity
  fits : l.seen.length ≤ l.capacity
  distinct : (l.seen.map Prod.fst).Nodup
  counted : ∀ entry ∈ l.seen, 1 ≤ entry.2

/-- An empty list is tidy, and has room for one number at least. -/
theorem tidy_ofCapacity (capacity : Nat) : (ofCapacity capacity).Tidy where
  room := Nat.le_max_right capacity 1
  fits := Nat.zero_le _
  distinct := List.nodup_nil
  counted := fun _ h => absurd h List.not_mem_nil

theorem one_le_bump {count : UInt32} (h : 1 ≤ count) : 1 ≤ bump count := by
  unfold bump maxCount
  by_cases hmax : count = 0xffffffff
  · rw [if_pos hmax]
    exact h
  · have hlt := count.toNat_lt
    have hne : count.toNat ≠ 4294967295 := fun heq => hmax (UInt32.toNat_inj.mp heq)
    rw [if_neg hmax, UInt32.le_iff_toNat_le, UInt32.toNat_add]
    rw [UInt32.le_iff_toNat_le] at h
    simp only [UInt32.reduceToNat] at h ⊢
    omega

section

variable {l : DuplicateList} (h : l.Tidy) (n : SequenceNumber)
include h

/-- A known number only counts once more. -/
theorem Tidy.counting : Tidy { l with
    seen := l.seen.map fun entry => if entry.1 = n then (entry.1, bump entry.2) else entry } where
  room := h.room
  fits := by
    rw [List.length_map]
    exact h.fits
  distinct := by
    rw [List.map_map, show Prod.fst ∘ _ = Prod.fst from funext (fst_counted n)]
    exact h.distinct
  counted := by
    intro entry hentry
    obtain ⟨before, hbefore, rfl⟩ := List.mem_map.mp hentry
    split
    · exact one_le_bump (h.counted before hbefore)
    · exact h.counted before hbefore

/-- A new number comes last, where the first ones have given way to make room for it. -/
theorem Tidy.concat (hnew : l.contains n ≠ true) {k : Nat}
    (hroom : l.seen.length - k + 1 ≤ l.capacity) :
    Tidy { l with seen := l.seen.drop k ++ [(n, 1)] } where
  room := h.room
  fits := by
    rw [List.length_append, List.length_drop]
    exact hroom
  distinct := by
    rw [List.map_append, List.nodup_append]
    refine ⟨h.distinct.sublist ((List.drop_sublist k l.seen).map _), by simp, ?_⟩
    intro m hm m' hm'
    obtain rfl : m' = n := by simpa using hm'
    rintro rfl
    obtain ⟨entry, hentry, rfl⟩ := List.mem_map.mp hm
    exact hnew ((contains_iff l _).mpr (List.mem_map_of_mem (List.mem_of_mem_drop hentry)))
  counted := by
    intro entry hentry
    rcases List.mem_append.mp hentry with hold | hlast
    · exact h.counted entry (List.mem_of_mem_drop hold)
    · obtain rfl := List.mem_singleton.mp hlast
      exact UInt32.le_refl 1

/-- A list stays tidy whatever number it takes note of. -/
theorem Tidy.observe : (l.observe n).2.Tidy := by
  have hfits := h.fits
  have hroom := h.room
  unfold DuplicateList.observe
  by_cases hknown : l.contains n = true
  · rw [if_pos hknown]
    exact h.counting n
  · rw [if_neg hknown]
    dsimp only
    by_cases hfull : l.capacity ≤ l.seen.length
    · rw [if_pos hfull]
      exact h.concat n hknown (by omega)
    · rw [if_neg hfull]
      exact h.concat n hknown (k := 0) (by omega)

end

/-- Of three numbers that a list for two takes note of, the second is still remembered after the
third, with one behind it, and the first is not. -/
example :
    let l := [⟨1⟩, ⟨2⟩, ⟨3⟩].foldl (fun l n => (l.observe n).2) (ofCapacity 2)
    l.contains ⟨2⟩ = true ∧ l.since ⟨2⟩ = 1 ∧ l.contains ⟨1⟩ = false := by decide

end Geocast.DuplicateList
