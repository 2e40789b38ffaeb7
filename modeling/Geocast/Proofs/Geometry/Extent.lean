import Geocast.Geometry
import Geocast.Proofs.Packet.RoundTrip
import Geocast.Proofs.Scalar
import Mathlib.Algebra.Order.Ring.Abs
import Mathlib.Data.Rat.Cast.Order
import Mathlib.Tactic.Linarith
import Mathlib.Tactic.Positivity
import Mathlib.Tactic.Ring

/-!
# How far an area reaches

The extents of an area span a disc or a box around its centre, and over exact fractions the rule of
a shape should leave no point outside it. For discs and boxes the rule says just that. For an
ellipse it is the equation of the ellipse multiplied by the squares of both extents, which is the
same only while neither is zero: with an extent of zero the rule is zero, and so on the edge, all
along one axis, and with two it is zero everywhere (`not_spans_iff`). Headers carry such extents
like any others, so an area stays within its extents exactly if it is not such an ellipse
(`within_extents_iff`).
-/

namespace Geocast

namespace Shape

variable {shape : Shape} {x y a b : ℚ}

/-- What belongs to a shape is told by the sign of its rule. -/
theorem isWithin_iff :
    (shape.relativePosition x y a b).isWithin = true ↔ 0 ≤ shape.value x y a b := by
  unfold relativePosition
  simp only [Scalar.lt_rat, Scalar.eq_rat, Scalar.zero_rat]
  split
  · next hpositive => exact iff_of_true rfl hpositive.le
  · next hnot =>
    split
    · next hzero => exact iff_of_true rfl hzero.ge
    · next hnonzero =>
      refine iff_of_false (by decide) fun hle => ?_
      rcases hle.lt_or_eq with hpositive | hzero
      · exact hnot hpositive
      · exact hnonzero hzero.symm

/-- The points that the extents of a shape span: a disc, or a box. -/
def Spans (shape : Shape) (x y a b : ℚ) : Prop :=
  match shape with
  | circle => x * x + y * y ≤ a * a
  | rectangle | ellipse => |x| ≤ a ∧ |y| ≤ b

/-- The rule of a disc is the disc. -/
theorem isWithin_circle_iff :
    (circle.relativePosition x y a b).isWithin = true ↔ circle.Spans x y a b :=
  isWithin_iff.trans sub_nonneg

/-- The rule of a box is the box. -/
theorem isWithin_rectangle_iff (ha : 0 ≤ a) (hb : 0 ≤ b) :
    (rectangle.relativePosition x y a b).isWithin = true ↔ rectangle.Spans x y a b := by
  have hx : x * x ≤ a * a ↔ |x| ≤ a := by rw [← abs_le_iff_mul_self_le, abs_of_nonneg ha]
  have hy : y * y ≤ b * b ↔ |y| ≤ b := by rw [← abs_le_iff_mul_self_le, abs_of_nonneg hb]
  rw [isWithin_iff, value, Scalar.min_rat, le_min_iff, sub_nonneg, sub_nonneg, hx, hy, Spans]

/-- The rule of an ellipse is its equation without the fractions. -/
theorem isWithin_ellipse_iff :
    (ellipse.relativePosition x y a b).isWithin = true ↔
      b * b * (x * x) + a * a * (y * y) ≤ a * a * (b * b) :=
  isWithin_iff.trans sub_nonneg

/-- A second extent that is not zero can be divided out again. -/
theorem abs_le_of_ellipse (ha : 0 ≤ a) (hb : 0 < b)
    (h : b * b * (x * x) + a * a * (y * y) ≤ a * a * (b * b)) : |x| ≤ a := by
  have hpart : 0 ≤ a * a * (y * y) := mul_nonneg (mul_self_nonneg a) (mul_self_nonneg y)
  have hscaled : b * b * (x * x) ≤ b * b * (a * a) := by linarith
  have hsquares : x * x ≤ a * a := le_of_mul_le_mul_left hscaled (by positivity)
  rwa [← abs_le_iff_mul_self_le, abs_of_nonneg ha] at hsquares

/-- An ellipse with two extents lies in their box. -/
theorem spans_of_ellipse (ha : 0 < a) (hb : 0 < b)
    (h : b * b * (x * x) + a * a * (y * y) ≤ a * a * (b * b)) : ellipse.Spans x y a b := by
  have hswapped : a * a * (y * y) + b * b * (x * x) ≤ b * b * (a * a) := by linarith
  exact ⟨abs_le_of_ellipse ha.le hb h, abs_le_of_ellipse hb.le ha hswapped⟩

/-- Without an extent an ellipse is where the weighted coordinates are both zero. -/
theorem isWithin_ellipse_iff_of_zero (h : a = 0 ∨ b = 0) :
    (ellipse.relativePosition x y a b).isWithin = true ↔ b * x = 0 ∧ a * y = 0 := by
  have hproduct : a * a * (b * b) = 0 := by rcases h with rfl | rfl <;> ring
  have hsquares : b * b * (x * x) + a * a * (y * y) = b * x * (b * x) + a * y * (a * y) := by ring
  have hnonneg := add_nonneg (mul_self_nonneg (b * x)) (mul_self_nonneg (a * y))
  rw [isWithin_ellipse_iff, hproduct, hsquares, hnonneg.ge_iff_eq', mul_self_add_mul_self_eq_zero]

/-- A point that belongs to a shape without being spanned by its extents lies on the axis, or
anywhere in the plane, where the rule of an ellipse is zero for want of an extent. -/
theorem not_spans_iff (ha : 0 ≤ a) (hb : 0 ≤ b) :
    (shape.relativePosition x y a b).isWithin = true ∧ ¬ shape.Spans x y a b ↔
      shape = ellipse ∧ (a = 0 ∨ b = 0) ∧ b * x = 0 ∧ a * y = 0 ∧ (a < |x| ∨ b < |y|) := by
  cases shape with
  | circle => simp [isWithin_circle_iff]
  | rectangle => simp [isWithin_rectangle_iff ha hb]
  | ellipse =>
    by_cases hzero : a = 0 ∨ b = 0
    · rw [isWithin_ellipse_iff_of_zero hzero, Spans, not_and_or, not_le, not_le]
      simp only [hzero, true_and, and_assoc]
    · obtain ⟨ha', hb'⟩ := not_or.mp hzero
      simp only [hzero, false_and, and_false, iff_false, not_and, not_not]
      intro hwithin
      exact spans_of_ellipse (ha.lt_of_ne' ha') (hb.lt_of_ne' hb') (isWithin_ellipse_iff.mp hwithin)

end Shape

namespace Area

variable {area : Area}

/-- Where a point lies relative to an area, in coordinates of the area. -/
def relativePosition (area : Area) (x y : ℚ) : RelativePosition :=
  area.shape.relativePosition x y area.a.toNat area.b.toNat

/-- The points that the extents of an area span. -/
def Spans (area : Area) (x y : ℚ) : Prop := area.shape.Spans x y area.a.toNat area.b.toNat

/-- An ellipse that one of its extents flattens to a line. -/
def Flat (area : Area) : Prop := area.shape = .ellipse ∧ (area.a = 0 ∨ area.b = 0)

/-- An area is read from a frame of a type. -/
def Arrives (area : Area) (type : PacketType) : Prop :=
  ∃ frame p h, Packet.decode frame = .ok p ∧ p.common.type = type ∧ p.extended = .area h ∧
    h.area = area

/-- Headers take any extents. -/
theorem arrives_of_fits {type : PacketType}
    (h : (Extended.area { area }).fits type = true) : area.Arrives type := by
  let p := Packet.ofParts {} { type } (.area { area }) [] h (Nat.zero_le _)
  have hsendable : p.Sendable := {
    version := show (1 : UInt8) ≤ 1 by decide
    plain := fun hsecured => nomatch hsecured
    hops := show (0 : UInt8) ≤ 0 by decide
    source := by
      intro v hv
      obtain rfl : ({} : LongPosition) = v := Option.some.inj hv
      decide }
  exact ⟨p.encode, p, { area }, Packet.decode_encode hsendable, rfl, rfl, rfl⟩

theorem flat_iff :
    area.Flat ↔ area.shape = .ellipse ∧ ((area.a.toNat : ℚ) = 0 ∨ (area.b.toNat : ℚ) = 0) := by
  have hzero : ∀ n : UInt16, (n.toNat : ℚ) = 0 ↔ n = 0 := fun n => by
    rw [Nat.cast_eq_zero, ← UInt16.toNat_inj, UInt16.toNat_zero]
  rw [Flat, hzero, hzero]

/-- The points of an area that its extents do not span: those beyond them along the line to which
an ellipse is flattened, or anywhere if both are zero. -/
theorem not_spans_iff {x y : ℚ} :
    (area.relativePosition x y).isWithin = true ∧ ¬ area.Spans x y ↔
      area.Flat ∧ area.b.toNat * x = 0 ∧ area.a.toNat * y = 0 ∧
        (area.a.toNat < |x| ∨ area.b.toNat < |y|) := by
  rw [flat_iff, and_assoc]
  exact Shape.not_spans_iff (Nat.cast_nonneg _) (Nat.cast_nonneg _)

/-- There is always such a point: one metre beyond the other extent. -/
theorem exists_not_spans (h : area.Flat) :
    ∃ x y, (area.relativePosition x y).isWithin = true ∧ ¬ area.Spans x y := by
  have hbeyond : ∀ n : Nat, (n : ℚ) < |(n : ℚ) + 1| := fun n =>
    lt_of_lt_of_le (lt_add_one _) (le_abs_self _)
  simp only [not_spans_iff]
  rcases (flat_iff.mp h).2 with ha | hb
  · exact ⟨0, area.b.toNat + 1, h, mul_zero _, by rw [ha, zero_mul], .inr (hbeyond _)⟩
  · exact ⟨area.a.toNat + 1, 0, h, by rw [hb, zero_mul], mul_zero _, .inl (hbeyond _)⟩

/-- Any area arrives in broadcasts and in anycasts, and it stays within its extents exactly if it
is not an ellipse with an extent of zero. The points of such an ellipse that its extents do not
span are those beyond them along its line, or anywhere if both are zero. -/
theorem within_extents_iff (area : Area) :
    area.Arrives (.geoBroadcast area.shape) ∧ area.Arrives (.geoAnycast area.shape) ∧
    ((∀ x y, (area.relativePosition x y).isWithin = true → area.Spans x y) ↔ ¬ area.Flat) ∧
    ∀ x y, (area.relativePosition x y).isWithin = true ∧ ¬ area.Spans x y ↔
      area.Flat ∧ area.b.toNat * x = 0 ∧ area.a.toNat * y = 0 ∧
        (area.a.toNat < |x| ∨ area.b.toNat < |y|) := by
  have hfits : (area.shape == area.shape) = true := beq_self_eq_true _
  refine ⟨arrives_of_fits hfits, arrives_of_fits hfits, ⟨fun hall hflat => ?_, ?_⟩,
    fun x y => not_spans_iff⟩
  · obtain ⟨x, y, hwithin, hnot⟩ := exists_not_spans hflat
    exact hnot (hall x y hwithin)
  · intro hnot x y hwithin
    by_contra hbeyond
    exact hnot (not_spans_iff.mp ⟨hwithin, hbeyond⟩).1

/-- So a point on the edge of an ellipse of 300 by 100 metres is in its box. -/
theorem within_extents_of_ellipse :
    let area : Area := { a := 300, b := 100, shape := .ellipse }
    ¬ area.Flat ∧ area.relativePosition 180 (-80) = .onBoundary ∧ area.Spans 180 (-80) := by
  intro area
  have hsolid : ¬ area.Flat := by
    unfold Flat
    decide
  have hedge : area.relativePosition 180 (-80) = .onBoundary := by
    unfold relativePosition Shape.relativePosition
    decide +kernel
  exact ⟨hsolid, hedge, (within_extents_iff area).2.2.1.mpr hsolid _ _ (hedge ▸ rfl)⟩

/-- But an ellipse without extents, which broadcasts carry as well, takes in what lies a metre from
its centre. -/
theorem not_forall_within_extents :
    ¬ ∀ (area : Area) (x y : ℚ), area.Arrives (.geoBroadcast area.shape) →
      (area.relativePosition x y).isWithin = true → area.Spans x y := by
  intro h
  have hfits : (Extended.area { area := { shape := .ellipse } }).fits (.geoBroadcast .ellipse) =
    true := rfl
  have hspans := (h { shape := .ellipse } 0 1 (arrives_of_fits hfits) (by decide +kernel)).2
  revert hspans
  decide +kernel

end Area

end Geocast
