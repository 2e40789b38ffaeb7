import Mathlib.Data.List.DropRight

/-!
# Rows of operations, and what is kept of a row

Whatever is done to a store is a row of operations, each with its answer (`feed`). What a bounded
store holds is the end of a row of values: one more value comes last, and if the store is full the
oldest gives way to it (`rtake_concat`).
-/

namespace Geocast

/-- Does a row of operations one after the other: the answers, and what they lead to. -/
def feed {σ ι ο : Type} (step : σ → ι → ο × σ) (s : σ) : List ι → List ο × σ
  | [] => ([], s)
  | i :: is =>
    let (answer, s) := step s i
    let (answers, s) := feed step s is
    (answer :: answers, s)

section

variable {σ ι ο : Type} (step : σ → ι → ο × σ) (s : σ)

theorem feed_append (is js : List ι) :
    feed step s (is ++ js) =
      ((feed step s is).1 ++ (feed step (feed step s is).2 js).1,
        (feed step (feed step s is).2 js).2) := by
  induction is generalizing s with
  | nil => rfl
  | cons i is ih =>
    rw [List.cons_append, feed, feed]
    dsimp only
    rw [ih]
    rfl

theorem feed_concat (is : List ι) (i : ι) :
    feed step s (is ++ [i]) =
      ((feed step s is).1 ++ [(step (feed step s is).2 i).1], (step (feed step s is).2 i).2) := by
  rw [feed_append]
  rfl

end

variable {α : Type}

theorem length_rtake (xs : List α) (n : Nat) : (xs.rtake n).length = min n xs.length := by
  unfold List.rtake
  rw [List.length_drop]
  omega

/-- What is kept of one value more: the oldest gives way if there is no room left. -/
theorem rtake_concat {n : Nat} (positive : 0 < n) (xs : List α) (x : α) :
    (xs ++ [x]).rtake n =
      (if n ≤ (xs.rtake n).length then (xs.rtake n).drop 1 else xs.rtake n) ++ [x] := by
  obtain ⟨m, rfl⟩ : ∃ m, n = m + 1 := ⟨n - 1, by omega⟩
  rw [List.rtake_concat_succ, length_rtake]
  congr 1
  unfold List.rtake
  split
  · next hfull =>
    rw [List.drop_drop]
    congr 1
    omega
  · next hroom =>
    congr 1
    omega

end Geocast
