import Geocast.Scalar
import Mathlib.Algebra.Order.Ring.Unbundled.Rat

/-!
# The least of a list

The search for an element with the least value keeps the best one so far. Whatever the order of the
values is like, what it finds is an element of the list with its own value, and in a list that is
not empty it finds one. Where the values are in one total order (`Scalar.Ranks`), no other element
has less, and if one element alone has the least value, the order of the list does not matter.
-/

namespace Geocast

namespace Scalar

variable {α β : Type} [Scalar α]

/-- By induction on the elements passed: the best so far is the first one or one of those, with
its own value. -/
theorem mem_of_foldl_least {value : β → α} {seen : List β} {best : β × α}
    (hbest : best.2 = value best.1) {b : β} {x : α}
    (h : seen.foldl (fun best y => if before (value y) best.2 then (y, value y) else best) best =
      (b, x)) : (b = best.1 ∨ b ∈ seen) ∧ x = value b := by
  induction seen generalizing best with
  | nil =>
    obtain rfl := h
    exact ⟨.inl rfl, hbest⟩
  | cons y ys ih =>
    rw [List.foldl_cons] at h
    by_cases hbefore : before (value y) best.2 = true
    · rw [if_pos hbefore] at h
      obtain ⟨hplace, hvalue⟩ := ih rfl h
      refine ⟨.inr ?_, hvalue⟩
      rcases hplace with rfl | hlater
      · exact List.mem_cons_self
      · exact List.mem_cons_of_mem _ hlater
    · rw [if_neg hbefore] at h
      obtain ⟨hplace, hvalue⟩ := ih hbest h
      exact ⟨hplace.imp_right (List.mem_cons_of_mem _), hvalue⟩

/-- What is found is one of the elements, with its own value. -/
theorem mem_of_leastBy? {value : β → α} {l : List β} {b : β} {x : α}
    (h : leastBy? value l = some (b, x)) : b ∈ l ∧ x = value b := by
  cases l with
  | nil => exact nomatch h
  | cons first rest =>
    unfold leastBy? at h
    obtain ⟨hplace, hvalue⟩ := mem_of_foldl_least rfl (Option.some.inj h)
    exact ⟨List.mem_cons.mpr hplace, hvalue⟩

/-- Among some elements one is found. -/
theorem exists_leastBy? (value : β → α) {l : List β} (h : l ≠ []) :
    ∃ b x, leastBy? value l = some (b, x) := by
  cases l with
  | nil => exact absurd rfl h
  | cons first rest => exact ⟨_, _, rfl⟩

/-! ## Values in one order -/

/-- The values of a function are told apart by one strict total order, in whichever of the two ways
they are compared. -/
structure Ranks (value : β → α) : Prop where
  agree : ∀ b c, lt (value b) (value c) = before (value b) (value c)
  irrefl : ∀ b, before (value b) (value b) = false
  trans : ∀ b c d, before (value b) (value c) = true → before (value c) (value d) = true →
    before (value b) (value d) = true
  total : ∀ b c, before (value b) (value c) = false → before (value c) (value b) = false →
    value b = value c

namespace Ranks

variable {γ : Type} {value : β → α}

/-- Values told apart by an order still are when they are taken of something else. -/
theorem comp (h : Ranks value) (f : γ → β) : Ranks fun c => value (f c) where
  agree := fun b c => h.agree (f b) (f c)
  irrefl := fun b => h.irrefl (f b)
  trans := fun b c d => h.trans (f b) (f c) (f d)
  total := fun b c => h.total (f b) (f c)

/-- What is before a value is before all that are not before that value. -/
theorem before_of_not_before (h : Ranks value) {b c d : β}
    (hbefore : before (value b) (value c) = true) (hnot : before (value d) (value c) = false) :
    before (value b) (value d) = true := by
  cases hcd : before (value c) (value d) with
  | true => exact h.trans b c d hbefore hcd
  | false => rwa [h.total d c hnot hcd]

end Ranks

/-- An element has the least value of a list. -/
structure IsLeast (value : β → α) (l : List β) (b : β) : Prop where
  mem : b ∈ l
  least : ∀ c ∈ l, before (value c) (value b) = false

/-- By induction on the elements passed: neither they nor the best before them come before the best
in the end. -/
theorem least_of_foldl {value : β → α} (horder : Ranks value) {seen : List β} {best : β × α}
    (hbest : best.2 = value best.1) {b : β} {x : α}
    (h : seen.foldl (fun best y => if before (value y) best.2 then (y, value y) else best) best =
      (b, x)) : ∀ c ∈ best.1 :: seen, before (value c) (value b) = false := by
  induction seen generalizing best with
  | nil =>
    obtain rfl := h
    intro c hc
    obtain rfl := List.mem_singleton.mp hc
    exact horder.irrefl _
  | cons y ys ih =>
    rw [List.foldl_cons] at h
    by_cases hbefore : before (value y) best.2 = true
    · rw [if_pos hbefore] at h
      have hleast := ih rfl h
      intro c hc
      rcases List.mem_cons.mp hc with rfl | hc
      · -- the one that was best comes after the one that took its place
        rw [hbest] at hbefore
        refine Bool.eq_false_iff.mpr fun hless => ?_
        have hy := hleast y List.mem_cons_self
        rw [horder.trans _ _ _ hbefore hless] at hy
        exact absurd hy (by decide)
      · exact hleast c hc
    · rw [if_neg hbefore] at h
      have hleast := ih hbest h
      have hstays := hleast best.1 List.mem_cons_self
      rw [hbest, Bool.not_eq_true] at hbefore
      intro c hc
      rcases List.mem_cons.mp hc with rfl | hc
      · exact hstays
      · rcases List.mem_cons.mp hc with rfl | hc
        · -- otherwise it would have taken the place
          refine Bool.eq_false_iff.mpr fun hless => ?_
          rw [horder.before_of_not_before hless hstays] at hbefore
          exact absurd hbefore (by decide)
        · exact hleast c (List.mem_cons_of_mem _ hc)

/-- What is found as the least is least. -/
theorem isLeast_of_leastBy? {value : β → α} (horder : Ranks value) {l : List β} {b : β} {x : α}
    (h : leastBy? value l = some (b, x)) : IsLeast value l b := by
  refine ⟨(mem_of_leastBy? h).1, ?_⟩
  cases l with
  | nil => exact nomatch h
  | cons first rest =>
    unfold leastBy? at h
    exact least_of_foldl horder rfl (Option.some.inj h)

/-- If one element alone has the least value, it is found in whatever order the list is. -/
theorem leastBy?_perm {value : β → α} (horder : Ranks value) {l l' : List β} (hperm : l.Perm l')
    (hunique : ∀ b c, IsLeast value l b → IsLeast value l c → b = c) :
    leastBy? value l' = leastBy? value l := by
  by_cases hempty : l = []
  · subst hempty
    rw [hperm.nil_eq]
  · have hempty' : l' ≠ [] := fun h => hempty (hperm.trans (.of_eq h)).eq_nil
    obtain ⟨b, x, hfound⟩ := exists_leastBy? value hempty
    obtain ⟨c, y, hfound'⟩ := exists_leastBy? value hempty'
    have hleast := isLeast_of_leastBy? horder hfound'
    have hsame : b = c := hunique b c (isLeast_of_leastBy? horder hfound)
      ⟨hperm.mem_iff.mpr hleast.mem, fun d hd => hleast.least d (hperm.mem_iff.mp hd)⟩
    rw [hfound, hfound', (mem_of_leastBy? hfound).2, (mem_of_leastBy? hfound').2, hsame]

end Scalar

/-! ## Exact fractions -/

/-- Exact fractions, which are all numbers and finite. -/
instance : Scalar ℚ where
  ofNat n := n
  lt x y := decide (x < y)
  le x y := decide (x ≤ y)
  isFinite _ := true
  before x y := decide (x < y)
  nanos x := Number.roundHalfEven (x.num.toNat * 1000000000) x.den

namespace Scalar

variable {x y : ℚ}

@[simp]
theorem zero_rat : (zero : ℚ) = 0 := rfl

@[simp]
theorem lt_rat : lt x y = true ↔ x < y := decide_eq_true_iff

@[simp]
theorem le_rat : le x y = true ↔ x ≤ y := decide_eq_true_iff

@[simp]
theorem isNumber_rat : isNumber x = true := le_rat.mpr (le_refl x)

@[simp]
theorem eq_rat : eq x y = true ↔ x = y := by
  unfold eq
  rw [Bool.and_eq_true, le_rat, le_rat, le_antisymm_iff]

@[simp]
theorem min_rat : Scalar.min x y = Min.min x y := by
  unfold Scalar.min
  rw [isNumber_rat, Bool.not_true, Bool.or_false]
  split
  · next hlt => exact (min_eq_right (le_of_lt (lt_rat.mp hlt))).symm
  · next hnot => exact (min_eq_left (not_lt.mp fun hlt => hnot (lt_rat.mpr hlt))).symm

@[simp]
theorem max_rat : Scalar.max x y = Max.max x y := by
  unfold Scalar.max
  rw [isNumber_rat, Bool.not_true, Bool.or_false]
  split
  · next hlt => exact (max_eq_right (le_of_lt (lt_rat.mp hlt))).symm
  · next hnot => exact (max_eq_left (not_lt.mp fun hlt => hnot (lt_rat.mpr hlt))).symm

end Scalar

/-- Rational numbers are in one order. -/
theorem Scalar.ranks_rat {β : Type} (value : β → ℚ) : Scalar.Ranks value where
  agree := fun _ _ => rfl
  irrefl := fun _ => decide_eq_false (lt_irrefl _)
  trans := fun _ _ _ hbc hcd =>
    decide_eq_true (lt_trans (of_decide_eq_true hbc) (of_decide_eq_true hcd))
  total := fun _ _ hbc hcb =>
    le_antisymm (not_lt.mp (of_decide_eq_false hcb)) (not_lt.mp (of_decide_eq_false hbc))

end Geocast
