import Mathlib.Data.Set.Basic
import Mathlib.Logic.Basic

/-!
# Which of two points of a dial is newer

The points of a dial are numbered around a circle. A point is newer than another one if it lies
ahead of it by less than half the circle; where both lie half the circle ahead of each other, the
one with the smaller number is. What is compared are the two numbers and the difference of the
greater and the smaller one, and by which of them is the smaller one the way forward from one point
to the other is known (`way_cases`). From that come all laws of the order (`ordered`), on a dial of
any size.
-/

namespace Geocast

/-- Points that are numbered around a circle, a test which of two is newer, and a point for every
length that one goes on from another. -/
structure Dial (α κ : Type) where
  half : Nat
  number : α → Nat
  newer : α → α → Bool
  length : κ → Nat
  later : α → κ → α
  number_lt : ∀ a, number a < 2 * half
  number_injective : Function.Injective number
  newer_eq : ∀ a b, newer a b = true ↔
    number b < number a ∧ number a - number b < half ∨
      number a < number b ∧ half ≤ number b - number a
  number_later : ∀ a k, number (later a k) = (number a + length k) % (2 * half)
  exists_length_half : ∃ k, length k = half

namespace Dial

variable {α κ : Type} (d : Dial α κ)

/-- How far one point lies ahead of another: the difference of their numbers modulo the size of the
circle. -/
def way (a b : α) : Nat := (((d.number a : Int) - d.number b) % (2 * d.half : Nat)).toNat

/-- All points of a set lie ahead of one point, which need not be among them, by less than half the
circle. -/
def Narrow (s : Set α) : Prop := ∃ base, ∀ a ∈ s, d.way a base < d.half

/-! ## The way from one point to another -/

/-- Going forward one passes the end of the numbers just if one has to come to a smaller one. -/
theorem way_cases (a b : α) :
    d.number b ≤ d.number a ∧ d.way a b = d.number a - d.number b ∨
      d.number a < d.number b ∧ d.way a b = 2 * d.half - (d.number b - d.number a) := by
  have ha := d.number_lt a
  have hb := d.number_lt b
  unfold way
  rcases Nat.lt_or_ge (d.number a) (d.number b) with hlt | hle
  · refine .inr ⟨hlt, ?_⟩
    rw [Int.emod_eq_add_self_emod, Int.emod_eq_of_lt (by omega) (by omega)]
    omega
  · refine .inl ⟨hle, ?_⟩
    rw [Int.emod_eq_of_lt (by omega) (by omega)]
    omega

/-- What the test finds: less than half ahead, or opposite with the smaller number. -/
theorem newer_iff (a b : α) : d.newer a b = true ↔
    1 ≤ d.way a b ∧ d.way a b ≤ d.half - 1 ∨ d.way a b = d.half ∧ d.number a < d.number b := by
  have ha := d.number_lt a
  have hb := d.number_lt b
  have hway := d.way_cases a b
  rw [d.newer_eq]
  omega

/-- No point is newer than itself. -/
theorem newer_self (a : α) : d.newer a a = false := by
  rw [← Bool.not_eq_true, d.newer_eq]
  omega

/-- Of two different points always one is newer. -/
theorem newer_xor_newer {a b : α} (h : a ≠ b) : Xor (d.newer a b = true) (d.newer b a = true) := by
  have ha := d.number_lt a
  have hb := d.number_lt b
  have hnumbers : d.number a ≠ d.number b := fun hsame => h (d.number_injective hsame)
  unfold Xor
  rw [d.newer_eq, d.newer_eq]
  omega

/-- Among points that lie ahead of one point by less than half the circle, the newer one is the one
further ahead of it. -/
theorem newer_iff_way {a b base : α} (ha : d.way a base < d.half) (hb : d.way b base < d.half) :
    d.newer a b = true ↔ d.way b base < d.way a base := by
  have ha' := d.number_lt a
  have hb' := d.number_lt b
  have hbase := d.number_lt base
  have hfirst := d.way_cases a base
  have hsecond := d.way_cases b base
  rw [d.newer_eq]
  omega

/-! ## Going on from a point -/

variable {d}

/-- Turning the circle leaves the way from one point to another as it is. -/
theorem way_later (a b : α) (k : κ) : d.way (d.later a k) (d.later b k) = d.way a b := by
  unfold way
  rw [d.number_later, d.number_later, Int.natCast_emod, Int.natCast_emod, Int.emod_sub_emod,
    Int.sub_emod_emod, Int.natCast_add, Int.natCast_add, Int.add_sub_add_right]

/-- A point that one comes to within half the circle lies that far ahead. -/
theorem way_later_self {a : α} {k : κ} (h : d.length k < d.half) :
    d.way (d.later a k) a = d.length k := by
  have hgone : ((d.number a + d.length k : Nat) : Int) - d.number a = d.length k := by omega
  unfold way
  rw [d.number_later, Int.natCast_emod, Int.emod_sub_emod, hgone,
    Int.emod_eq_of_lt (by omega) (by omega)]
  exact Int.toNat_natCast _

theorem opposite_symm {a b : α} (h : d.way a b = d.half) : d.way b a = d.half := by
  have ha := d.number_lt a
  have hb := d.number_lt b
  have hforth := d.way_cases a b
  have hback := d.way_cases b a
  omega

/-- Half the circle on from a point is the one opposite it. -/
theorem later_of_opposite {a b : α} {k : κ} (h : d.way a b = d.half) (hk : d.length k = d.half) :
    d.later a k = b := by
  have ha := d.number_lt a
  have hb := d.number_lt b
  refine d.number_injective ?_
  rw [d.number_later, hk]
  rcases d.way_cases a b with ⟨_, hway⟩ | ⟨_, hway⟩
  · rw [Nat.mod_eq_sub_mod (by omega), Nat.mod_eq_of_lt (by omega)]
    omega
  · rw [Nat.mod_eq_of_lt (by omega)]
    omega

/-- A turn of the circle changes no comparison but that of opposite points. -/
theorem newer_later {a b : α} (h : d.way a b ≠ d.half) (k : κ) :
    d.newer (d.later a k) (d.later b k) = d.newer a b := by
  rw [Bool.eq_iff_iff, d.newer_iff, d.newer_iff, way_later]
  simp only [h, false_and, or_false]

/-- Which of two points is newer stays the same however the circle is turned, unless they lie
opposite each other: half a turn exchanges such points. -/
theorem newer_later_iff (a b : α) :
    (∀ k, d.newer (d.later a k) (d.later b k) = d.newer a b) ↔ d.way a b ≠ d.half := by
  refine ⟨fun hturned hopposite => ?_, newer_later⟩
  obtain ⟨k, hk⟩ := d.exists_length_half
  -- half a turn puts each of the two where the other one was
  have hsame : d.newer b a = d.newer a b := by
    have hturned := hturned k
    rwa [later_of_opposite hopposite hk, later_of_opposite (opposite_symm hopposite) hk] at hturned
  have hne : a ≠ b := by
    rintro rfl
    have ha := d.number_lt a
    have hway := d.way_cases a a
    omega
  have hxor := d.newer_xor_newer hne
  rw [hsame, xor_self] at hxor
  exact hxor

/-! ## The laws of the order -/

/-- What it means that the points of a dial are in order, as far as those of a circle can be. -/
structure Ordered (d : Dial α κ) : Prop where
  newer_iff : ∀ a b, d.newer a b = true ↔
    1 ≤ d.way a b ∧ d.way a b ≤ d.half - 1 ∨ d.way a b = d.half ∧ d.number a < d.number b
  irreflexive : ∀ a, d.newer a a = false
  either : ∀ a b, a ≠ b → Xor (d.newer a b = true) (d.newer b a = true)
  turned : ∀ a b, (∀ k, d.newer (d.later a k) (d.later b k) = d.newer a b) ↔ d.way a b ≠ d.half
  transitive : ∀ s, d.Narrow s → ∀ a ∈ s, ∀ b ∈ s, ∀ c ∈ s,
    d.newer a b = true → d.newer b c = true → d.newer a c = true
  ahead : ∀ a k, d.length k < d.half → d.way (d.later a k) a = d.length k ∧
    (d.newer (d.later a k) a = true ↔ d.length k ≠ 0) ∧ d.newer a (d.later a k) = false

theorem ordered (d : Dial α κ) : d.Ordered where
  newer_iff := d.newer_iff
  irreflexive := d.newer_self
  either _ _ := d.newer_xor_newer
  turned := newer_later_iff
  transitive := by
    rintro s ⟨base, hbase⟩ a ha b hb c hc hab hbc
    -- seen from the base, the newer of two points is the one further ahead
    rw [d.newer_iff_way (hbase a ha) (hbase b hb)] at hab
    rw [d.newer_iff_way (hbase b hb) (hbase c hc)] at hbc
    rw [d.newer_iff_way (hbase a ha) (hbase c hc)]
    exact hbc.trans hab
  ahead a k hk := by
    have ha := d.number_lt a
    have hlater := d.number_lt (d.later a k)
    have hway := d.way_cases (d.later a k) a
    rw [way_later_self hk] at hway
    refine ⟨way_later_self hk, ?_, ?_⟩
    · rw [d.newer_eq]
      omega
    · rw [← Bool.not_eq_true, d.newer_eq]
      omega

end Dial

end Geocast
