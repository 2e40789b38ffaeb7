/-!
# Heaps

What is put on a heap comes off again greatest first. How the items lie in it between that does not
show: nothing here but the greatest of them is ever asked for by its place.
-/

namespace Geocast

/-- Items that come out greatest first. -/
structure Heap (α : Type) where
  items : List α := []
deriving Repr, Inhabited

namespace Heap

variable {α : Type}

/-- The number of items. -/
def size (h : Heap α) : Nat := h.items.length

/-- Whether there is no item. -/
def isEmpty (h : Heap α) : Bool := h.items.isEmpty

/-- Puts an item on a heap. -/
def push (h : Heap α) (x : α) : Heap α := ⟨x :: h.items⟩

/-- Keeps the items that pass a test. -/
def retain (h : Heap α) (keep : α → Bool) : Heap α := ⟨h.items.filter keep⟩

/-- The greater of two items, the first if neither is. -/
def greater [Ord α] (x y : α) : α := if compare x y = .lt then y else x

/-- The greatest item. -/
def peek? [Ord α] (h : Heap α) : Option α :=
  match h.items with
  | [] => none
  | x :: xs => some (xs.foldl greater x)

/-- Takes off the greatest item. -/
def pop? [Ord α] [DecidableEq α] (h : Heap α) : Option (α × Heap α) :=
  h.peek?.map fun x => (x, ⟨h.items.erase x⟩)

theorem foldl_greater_mem [Ord α] (x : α) (xs : List α) : xs.foldl greater x ∈ x :: xs := by
  induction xs generalizing x with
  | nil => exact List.mem_cons_self
  | cons y ys ih =>
    rw [List.foldl_cons]
    have hchosen : greater x y = x ∨ greater x y = y := by
      unfold greater
      split
      · exact .inr rfl
      · exact .inl rfl
    rcases List.mem_cons.mp (ih (greater x y)) with heq | hmem
    · rw [heq]
      rcases hchosen with h | h
      · rw [h]
        exact List.mem_cons_self
      · rw [h]
        exact List.mem_cons_of_mem _ List.mem_cons_self
    · exact List.mem_cons_of_mem _ (List.mem_cons_of_mem _ hmem)

theorem mem_of_peek? [Ord α] {h : Heap α} {x : α} (hpeek : h.peek? = some x) : x ∈ h.items := by
  unfold peek? at hpeek
  split at hpeek
  · exact absurd hpeek (by simp)
  · next y ys hitems =>
    obtain rfl := Option.some.inj hpeek
    rw [hitems]
    exact foldl_greater_mem y ys

theorem size_lt_of_pop? [Ord α] [DecidableEq α] {h rest : Heap α} {x : α}
    (hpop : h.pop? = some (x, rest)) : rest.size < h.size := by
  obtain ⟨y, hpeek, heq⟩ := Option.map_eq_some_iff.mp hpop
  obtain ⟨rfl, rfl⟩ := Prod.mk.inj heq
  have hmem := mem_of_peek? hpeek
  have hpositive := List.length_pos_of_mem hmem
  show (h.items.erase y).length < h.items.length
  rw [List.length_erase_of_mem hmem]
  omega

/-- Takes off the greatest item again and again, as long as it passes a test. -/
def popWhile [Ord α] [DecidableEq α] (test : α → Bool) (h : Heap α) : List α × Heap α :=
  match _ : h.pop? with
  | none => ([], h)
  | some (x, rest) =>
    if test x then
      let (xs, rest) := popWhile test rest
      (x :: xs, rest)
    else ([], h)
termination_by h.size
decreasing_by exact size_lt_of_pop? ‹_›

end Heap

end Geocast
