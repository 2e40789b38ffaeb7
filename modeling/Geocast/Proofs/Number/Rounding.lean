import Geocast.Proofs.Scalar
import Mathlib.Algebra.Order.Field.Basic
import Mathlib.Data.Rat.Cast.Order
import Mathlib.Tactic.FieldSimp
import Mathlib.Tactic.Linarith
import Mathlib.Tactic.Ring

/-!
# Rounding to the nearest whole number

What rounding gives is off by at most half, and by exactly half only where it is even
(`IsNearest`). That settles the number, and it is all that is needed to see that rounding never
changes an order, and keeps apart what differs by more than one.
-/

namespace Geocast

namespace Number

/-- A whole number is nearest to a value, and is even where another one is just as near. -/
structure IsNearest (n : Nat) (x : ℚ) : Prop where
  le_add : x ≤ n + 1 / 2
  sub_le : n - 1 / 2 ≤ x
  even : x = n + 1 / 2 ∨ x = n - 1 / 2 → n % 2 = 0

namespace IsNearest

variable {m n : Nat} {x y : ℚ}

/-- Only a tie could set two roundings apart from their values, and then both would be even. -/
theorem mono (hm : IsNearest m x) (hn : IsNearest n y) (h : x ≤ y) : m ≤ n := by
  by_contra hlt
  have hsucc : n + 1 ≤ m := Nat.lt_of_not_le hlt
  have hcast : (n : ℚ) + 1 ≤ m := by exact_mod_cast hsucc
  have hx := hm.sub_le
  have hy := hn.le_add
  have hnext : (m : ℚ) = n + 1 := by linarith
  have hmeven : m % 2 = 0 := hm.even (.inr (by linarith))
  have hneven : n % 2 = 0 := hn.even (.inl (by linarith))
  have hnext' : m = n + 1 := by exact_mod_cast hnext
  omega

theorem lt (hm : IsNearest m x) (hn : IsNearest n y) (h : x + 1 < y) : m < n := by
  have hcast : (m : ℚ) < n := by
    have hx := hm.sub_le
    have hy := hn.le_add
    linarith
  exact_mod_cast hcast

theorem natCast (n : Nat) : IsNearest n n where
  le_add := by linarith
  sub_le := by linarith
  even := by
    rintro (h | h)
    · linarith
    · linarith

theorem eq (hm : IsNearest m x) (hn : IsNearest n x) : m = n :=
  Nat.le_antisymm (hm.mono hn (le_refl x)) (hn.mono hm (le_refl x))

end IsNearest

/-- By the three cases of the definition: the rest is less than half of the denominator, more than
that, or just half. -/
theorem isNearest_roundHalfEven (num : Nat) {den : Nat} (hden : 0 < den) :
    IsNearest (roundHalfEven num den) (num / den) := by
  have hpos : (0 : ℚ) < den := by exact_mod_cast hden
  have hsplit : (num : ℚ) / den = (num / den : Nat) + (num % den : Nat) / den := by
    have hnum : (den : ℚ) * (num / den : Nat) + (num % den : Nat) = num := by
      exact_mod_cast Nat.div_add_mod num den
    rw [← hnum]
    field_simp
  have hnonneg : 0 ≤ ((num % den : Nat) : ℚ) / den := by positivity
  have hone : ((num % den : Nat) : ℚ) / den < 1 := by
    rw [div_lt_one hpos]
    exact_mod_cast Nat.mod_lt num hden
  -- what is left after the whole part decides, and at one half the parity does
  unfold roundHalfEven
  dsimp only
  rw [hsplit]
  split
  · next hless =>
    have hbelow : ((num % den : Nat) : ℚ) / den < 1 / 2 := by
      have hcast : (2 : ℚ) * (num % den : Nat) < den := by exact_mod_cast hless
      rw [div_lt_iff₀ hpos]
      linarith
    refine ⟨by linarith, by linarith, ?_⟩
    rintro (heq | heq)
    · linarith
    · linarith
  · next hnotless =>
    split
    · next hmore =>
      have habove : 1 / 2 < ((num % den : Nat) : ℚ) / den := by
        have hcast : (den : ℚ) < 2 * (num % den : Nat) := by exact_mod_cast hmore
        rw [lt_div_iff₀ hpos]
        linarith
      refine ⟨?_, ?_, ?_⟩
      all_goals push_cast
      · linarith
      · linarith
      · rintro (heq | heq)
        · linarith
        · linarith
    · next hnotmore =>
      have hhalf : ((num % den : Nat) : ℚ) / den = 1 / 2 := by
        have htwice : 2 * (num % den) = den := by omega
        have hcast : (2 : ℚ) * (num % den : Nat) = den := by exact_mod_cast htwice
        rw [div_eq_iff hpos.ne']
        linarith
      rw [hhalf]
      split
      · next heven => exact ⟨by linarith, by linarith, fun _ => heven⟩
      · next hodd =>
        refine ⟨?_, ?_, fun _ => by omega⟩
        all_goals
          push_cast
          linarith

end Number

/-! ## Seconds and nanoseconds -/

namespace Scalar

theorem isNearest_nanos {x : ℚ} (hx : 0 ≤ x) : Number.IsNearest (nanos x) (x * 1000000000) := by
  have hvalue : ((x.num.toNat * 1000000000 : Nat) : ℚ) / x.den = x * 1000000000 := by
    have hnum : ((x.num.toNat : Nat) : ℚ) = x.num := by
      exact_mod_cast Int.toNat_of_nonneg (Rat.num_nonneg.mpr hx)
    rw [Nat.cast_mul, hnum, mul_div_right_comm, Rat.num_div_den]
    norm_num
  rw [← hvalue]
  exact Number.isNearest_roundHalfEven _ x.den_pos

theorem seconds_eq (millis : Nat) : (seconds millis : ℚ) = millis / 1000 := by
  have hsplit : (1000 : ℚ) * (millis / 1000 : Nat) + (millis % 1000 : Nat) = millis := by
    exact_mod_cast Nat.div_add_mod millis 1000
  show ((millis / 1000 : Nat) : ℚ) + ((millis % 1000 * 1000000 : Nat) : ℚ) / (1000000000 : Nat) = _
  rw [← hsplit]
  push_cast
  ring

/-- Whole milliseconds are whole nanoseconds. -/
theorem nanos_seconds (millis : Nat) : nanos (seconds millis : ℚ) = millis * 1000000 := by
  have hvalue : (seconds millis : ℚ) * 1000000000 = (millis * 1000000 : Nat) := by
    rw [seconds_eq]
    push_cast
    ring
  have hnonneg : (0 : ℚ) ≤ seconds millis := by
    rw [seconds_eq]
    positivity
  have hnearest := isNearest_nanos hnonneg
  rw [hvalue] at hnearest
  exact hnearest.eq (.natCast _)

end Scalar

end Geocast
