import Geocast.Circular

/-!
# Which packets of a station were seen

A duplicate list remembers the last numbers that were new when they came, each with the times it
came. A number that is already remembered is a duplicate and keeps its place; a new number takes
the place of the oldest when the list is full.
-/

namespace Geocast

/-- The numbers seen, oldest first, each with how often. -/
structure DuplicateList where
  seen : List (SequenceNumber × UInt32) := []
  capacity : Nat := 20
deriving DecidableEq, Repr, Inhabited

namespace DuplicateList

/-- The greatest count that is kept. -/
def maxCount : UInt32 := 0xffffffff

/-- An empty list for so many numbers, at least one. -/
def ofCapacity (capacity : Nat) : DuplicateList := { capacity := max capacity 1 }

/-- The greatest number of entries of eight bytes that fit into less than 2^63 bytes. -/
def maxCapacity : Nat := 0xfffffffffffffff

/-- An empty list for so many numbers, if there can be room for them all. -/
def ofCapacity? (capacity : Nat) : Option DuplicateList :=
  if capacity ≤ maxCapacity then some (ofCapacity capacity) else none

/-- How often a number was seen, if it is remembered. -/
def count? (l : DuplicateList) (n : SequenceNumber) : Option UInt32 :=
  (l.seen.find? (·.1 = n)).map Prod.snd

/-- Whether a number is remembered. -/
def contains (l : DuplicateList) (n : SequenceNumber) : Bool := l.seen.any (·.1 = n)

/-- The number of remembered numbers. -/
def size (l : DuplicateList) : Nat := l.seen.length

/-- Whether nothing is remembered. -/
def isEmpty (l : DuplicateList) : Bool := l.seen.isEmpty

/-- One more, up to the greatest count. -/
def bump (count : UInt32) : UInt32 := if count = maxCount then count else count + 1

/-- Takes note of a number, and says whether it was remembered before. -/
def observe (l : DuplicateList) (n : SequenceNumber) : Bool × DuplicateList :=
  if l.contains n then
    (true, { l with
      seen := l.seen.map fun entry => if entry.1 = n then (entry.1, bump entry.2) else entry })
  else
    let kept := if l.capacity ≤ l.seen.length then l.seen.drop 1 else l.seen
    (false, { l with seen := kept ++ [(n, 1)] })

theorem observe_fst (l : DuplicateList) (n : SequenceNumber) :
    (l.observe n).1 = l.contains n := by
  unfold observe
  split
  · next h => exact h.symm
  · next h => exact (Bool.eq_false_iff.mpr h).symm

/-- Once a number was noted, it is remembered. -/
theorem contains_observe (l : DuplicateList) (n : SequenceNumber) :
    (l.observe n).2.contains n = true := by
  unfold observe
  split
  · next h =>
    obtain ⟨entry, mem, eq⟩ := List.any_eq_true.mp h
    refine List.any_eq_true.mpr ⟨_, List.mem_map.mpr ⟨entry, mem, rfl⟩, ?_⟩
    split <;> exact eq
  · exact List.any_eq_true.mpr
      ⟨(n, 1), List.mem_append_right _ (List.mem_singleton.mpr rfl), decide_eq_true rfl⟩

end DuplicateList

end Geocast
