import Geocast.Queue.Heap
import Mathlib.Data.List.Basic

/-!
# What comes off a heap

A heap is read through a row of its items in falling order (`Heap.Row`), of which nothing is kept in
the heap itself. Taking off the greatest item takes the first of that row (`Row.pop?_cons`), so
taking items off as long as they pass a test takes the first part of it (`Row.popWhile`).
-/

namespace Geocast

namespace Heap

variable {α : Type} [Ord α]

section

variable [Std.TransOrd α]

/-- The greater of two is less than neither. -/
theorem isLE_greater (x y : α) :
    (compare x (greater x y)).isLE ∧ (compare y (greater x y)).isLE := by
  unfold greater
  split
  · next hlt =>
    rw [hlt]
    exact ⟨rfl, Std.ReflCmp.isLE_rfl⟩
  · next hnot =>
    refine ⟨Std.ReflCmp.isLE_rfl, ?_⟩
    rw [Std.OrientedOrd.eq_swap (a := y) (b := x)]
    cases hcompare : compare x y with
    | lt => exact absurd hcompare hnot
    | eq => rfl
    | gt => rfl

/-- So the greatest of a list is less than none of it. -/
theorem isLE_foldl_greater (x : α) (xs : List α) :
    ∀ y ∈ x :: xs, (compare y (xs.foldl greater x)).isLE := by
  induction xs generalizing x with
  | nil =>
    intro y hy
    obtain rfl := List.mem_singleton.mp hy
    exact Std.ReflCmp.isLE_rfl
  | cons z zs ih =>
    intro y hy
    obtain ⟨hfirst, hsecond⟩ := isLE_greater x z
    have htop := ih (greater x z) _ List.mem_cons_self
    rcases List.mem_cons.mp hy with rfl | hy
    · exact Std.TransCmp.isLE_trans hfirst htop
    · rcases List.mem_cons.mp hy with rfl | hy
      · exact Std.TransCmp.isLE_trans hsecond htop
      · exact ih (greater x z) y (List.mem_cons_of_mem _ hy)

/-- And what stands at the top of a heap is less than nothing in it. -/
theorem isLE_peek? {h : Heap α} {x : α} (hpeek : h.peek? = some x) :
    ∀ y ∈ h.items, (compare y x).isLE := by
  unfold peek? at hpeek
  split at hpeek
  · exact absurd hpeek (by simp)
  · next z zs hitems =>
    obtain rfl := Option.some.inj hpeek
    rw [hitems]
    exact isLE_foldl_greater z zs

end

/-- The items of a heap from the greatest to the least, no two of them alike in order. -/
structure Row (h : Heap α) (row : List α) : Prop where
  perm : h.items.Perm row
  falling : row.Pairwise fun x y => compare x y = .gt

namespace Row

variable {h : Heap α} {x : α} {row : List α}

/-- What is put into a heap takes its place in the row. -/
theorem push (hrow : h.Row row) {before behind : List α} (hsplit : row = before ++ behind)
    (hbefore : ∀ y ∈ before, compare y x = .gt) (hbehind : ∀ y ∈ behind, compare x y = .gt) :
    (h.push x).Row (before ++ x :: behind) := by
  obtain ⟨hperm, hfalling⟩ := hrow
  subst hsplit
  refine ⟨(hperm.cons x).trans List.perm_middle.symm, ?_⟩
  rw [List.pairwise_append] at hfalling ⊢
  obtain ⟨hfirst, hlast, hboth⟩ := hfalling
  refine ⟨hfirst, List.pairwise_cons.mpr ⟨hbehind, hlast⟩, fun y hy z hz => ?_⟩
  rcases List.mem_cons.mp hz with rfl | hz
  · exact hbefore y hy
  · exact hboth y hy z hz

/-- What is kept keeps its place. -/
theorem retain (hrow : h.Row row) (keep : α → Bool) : (h.retain keep).Row (row.filter keep) :=
  ⟨hrow.perm.filter keep, hrow.falling.sublist List.filter_sublist⟩

variable [DecidableEq α]

/-- An empty row has nothing to give. -/
theorem pop?_nil (hrow : h.Row []) : h.pop? = none := by
  unfold pop? peek?
  rw [List.Perm.eq_nil hrow.perm]
  rfl

variable [Std.TransOrd α]

/-- What comes out is the first of the row, and the rest is left. -/
theorem pop?_cons (hrow : h.Row (x :: row)) : ∃ rest, h.pop? = some (x, rest) ∧ rest.Row row := by
  obtain ⟨hperm, hfalling⟩ := hrow
  obtain ⟨hgreatest, hrest⟩ := List.pairwise_cons.mp hfalling
  obtain ⟨y, hpeek⟩ : ∃ y, h.peek? = some y := by
    unfold peek?
    split
    · next hnil => exact absurd (hnil ▸ hperm).nil_eq (by simp)
    · exact ⟨_, rfl⟩
  -- nothing is greater than what is on top, but the first of the row is greater than all others
  have hle := isLE_peek? hpeek x (hperm.mem_iff.mpr List.mem_cons_self)
  obtain rfl : y = x := by
    rcases List.mem_cons.mp (hperm.mem_iff.mp (mem_of_peek? hpeek)) with heq | hy
    · exact heq
    · rw [hgreatest y hy] at hle
      exact absurd hle (by decide)
  refine ⟨⟨h.items.erase y⟩, ?_, ?_, hrest⟩
  · unfold pop?
    rw [hpeek]
    rfl
  · show (h.items.erase y).Perm row
    have herased := hperm.erase y
    rwa [List.erase_cons_head] at herased

/-- By induction on the row, whose first item is the next to come off. -/
theorem popWhile (hrow : h.Row row) (test : α → Bool) :
    (h.popWhile test).1 = row.takeWhile test ∧
      (h.popWhile test).2.Row (row.dropWhile test) := by
  induction row generalizing h with
  | nil =>
    rw [Heap.popWhile]
    split
    · exact ⟨rfl, hrow⟩
    · next hpop =>
      rw [hrow.pop?_nil] at hpop
      exact absurd hpop (by simp)
  | cons x row ih =>
    obtain ⟨rest, hpop, hrest⟩ := hrow.pop?_cons
    obtain ⟨htaken, hleft⟩ := ih hrest
    rw [Heap.popWhile]
    split
    · next hnone =>
      rw [hpop] at hnone
      exact absurd hnone (by simp)
    · next y others hsome =>
      rw [hpop] at hsome
      -- what comes out of the heap is the first of the row
      obtain ⟨rfl, rfl⟩ := Prod.mk.inj (Option.some.inj hsome)
      rw [List.takeWhile_cons, List.dropWhile_cons]
      cases test x with
      | true => exact ⟨congrArg (x :: ·) htaken, hleft⟩
      | false => exact ⟨rfl, hrow⟩

end Row

end Heap

end Geocast
