import Geocast.Circular
import Geocast.Proofs.Dial
import Mathlib.Logic.Function.Iterate

/-!
# Newer, by how far one lies ahead of the other

Which of two numbers on a circle is newer is a matter of the way from the older to the newer one
(`ahead`): less than half the circle. Only at exactly half the circle the numbers themselves
decide. So turning the circle changes nothing as long as no two numbers lie opposite each other
(`Opposite`), and numbers that all lie within half a circle from some point are in order by how far
they lie from it.

Timestamps and sequence numbers are the points of a dial each (`Timestamp.dial`,
`SequenceNumber.dial`), and have the laws of the order from there. The last theorem gathers them,
with what the distance of two timestamps is and that the comparison never subtracts a greater number
from a smaller one (`dials_ordered`).
-/

namespace Geocast

namespace Timestamp

/-- How far one stamp lies ahead of another, going forward on the circle. -/
def ahead (a b : Timestamp) : Nat := (a.millis - b.millis).toNat

/-- Half the circle. -/
def half : Nat := 0x80000000

/-- Two stamps lie opposite each other: the way is the same in both directions. -/
def Opposite (a b : Timestamp) : Prop := a.ahead b = half

instance (a b : Timestamp) : Decidable (a.Opposite b) := inferInstanceAs (Decidable (_ = _))

/-- The newer stamp is ahead by less than half, or the other by at least half: of two opposite
ones the smaller is newer. -/
theorem newerThan_iff_number (a b : Timestamp) : a.newerThan b = true ↔
    b.millis.toNat < a.millis.toNat ∧ a.millis.toNat - b.millis.toNat < half ∨
      a.millis.toNat < b.millis.toNat ∧ half ≤ b.millis.toNat - a.millis.toNat := by
  have ha := a.millis.toNat_lt
  have hb := b.millis.toNat_lt
  unfold newerThan maxForward half
  simp only [Bool.or_eq_true, Bool.and_eq_true, decide_eq_true_eq, UInt32.lt_iff_toNat_lt,
    UInt32.le_iff_toNat_le, UInt32.toNat_sub, UInt32.reduceToNat]
  omega

/-- Timestamps are the points of a dial of 2^32. -/
def dial : Dial Timestamp UInt32 where
  half := half
  number a := a.millis.toNat
  newer := newerThan
  length := UInt32.toNat
  later := addMillis
  number_lt a := a.millis.toNat_lt
  number_injective a b h := by
    cases a
    cases b
    exact congrArg mk (UInt32.toNat.inj h)
  newer_eq := newerThan_iff_number
  number_later a k := UInt32.toNat_add a.millis k
  exists_length_half := ⟨0x80000000, rfl⟩

@[simp] theorem dial_newer : dial.newer = newerThan := rfl

@[simp] theorem dial_later : dial.later = addMillis := rfl

theorem ahead_eq (a b : Timestamp) :
    a.ahead b = (4294967296 - b.millis.toNat + a.millis.toNat) % 4294967296 :=
  UInt32.toNat_sub a.millis b.millis

/-- The way on the dial is what the difference of the machine words says. -/
theorem way_dial (a b : Timestamp) : dial.way a b = a.ahead b := by
  have ha := a.millis.toNat_lt
  have hb := b.millis.toNat_lt
  rw [ahead_eq]
  show (((a.millis.toNat : Int) - b.millis.toNat) % 4294967296).toNat = _
  omega

/-- Which stamp is newer stays the same when the circle is turned, unless they lie opposite each
other. -/
theorem newerThan_addMillis {a b : Timestamp} (h : ¬ a.Opposite b) (k : UInt32) :
    (a.addMillis k).newerThan (b.addMillis k) = a.newerThan b := by
  have hway : dial.way a b ≠ dial.half := by
    rw [way_dial]
    exact h
  exact Dial.newer_later hway k

/-- Among stamps that lie less than half the circle ahead of one point, the newer one is the one
further ahead of it. -/
theorem newerThan_iff_ahead {a b base : Timestamp} (ha : a.ahead base < half)
    (hb : b.ahead base < half) : a.newerThan b = true ↔ b.ahead base < a.ahead base := by
  rw [← way_dial] at ha hb ⊢
  rw [← way_dial]
  exact dial.newer_iff_way ha hb

/-- Less than half the circle is measured as what it is, but only from the older stamp on. -/
theorem millisSince_addMillis (a : Timestamp) {d : UInt32} (h : d.toNat < half) :
    (a.addMillis d).millisSince a = d ∧ a.millisSince (a.addMillis d) = 0 := by
  obtain ⟨-, hnewer, holder⟩ := dial.ordered.ahead a d h
  rw [dial_newer, dial_later] at hnewer holder
  unfold millisSince
  constructor
  · -- no time on is the stamp itself, which is not newer
    by_cases hd : d.toNat = 0
    · rw [if_neg fun h => hnewer.mp h hd]
      exact (UInt32.toNat.inj hd).symm
    · rw [if_pos (hnewer.mpr hd)]
      unfold addMillis
      grind
  · rw [holder]
    exact if_neg Bool.false_ne_true

end Timestamp

namespace SequenceNumber

/-- How far one number lies ahead of another, going forward on the circle. -/
def ahead (a b : SequenceNumber) : Nat := (a.value - b.value).toNat

/-- Half the circle. -/
def half : Nat := 0x8000

/-- Two numbers lie opposite each other: the way is the same in both directions. -/
def Opposite (a b : SequenceNumber) : Prop := a.ahead b = half

instance (a b : SequenceNumber) : Decidable (a.Opposite b) := inferInstanceAs (Decidable (_ = _))

/-- The number some places later. -/
def later (a : SequenceNumber) (n : UInt16) : SequenceNumber := ⟨a.value + n⟩

/-- To go on by the same way keeps numbers apart. -/
theorem later_inj {a b : SequenceNumber} {n : UInt16} : a.later n = b.later n ↔ a = b := by
  constructor
  · intro h
    have hvalue : a.value + n = b.value + n := congrArg value h
    have hsame : a.value = b.value := by grind
    cases a
    cases b
    exact congrArg mk hsame
  · intro h
    rw [h]

/-- Some places later is where so many steps lead to. -/
theorem iterate_next (a : SequenceNumber) (n : Nat) : next^[n] a = a.later (UInt16.ofNat n) := by
  induction n with
  | zero =>
    show a = ⟨a.value + 0⟩
    rw [UInt16.add_zero]
  | succ n ih =>
    rw [Function.iterate_succ_apply', ih]
    unfold next later
    rw [UInt16.ofNat_add, UInt16.add_assoc]
    rfl

/-- The same for packet numbers. -/
theorem newerThan_iff_number (a b : SequenceNumber) : a.newerThan b = true ↔
    b.value.toNat < a.value.toNat ∧ a.value.toNat - b.value.toNat < half ∨
      a.value.toNat < b.value.toNat ∧ half ≤ b.value.toNat - a.value.toNat := by
  have ha := a.value.toNat_lt
  have hb := b.value.toNat_lt
  unfold newerThan maxForward half
  simp only [Bool.or_eq_true, Bool.and_eq_true, decide_eq_true_eq, UInt16.lt_iff_toNat_lt,
    UInt16.le_iff_toNat_le, UInt16.toNat_sub, UInt16.reduceToNat]
  omega

/-- Sequence numbers are the points of a dial of 2^16. -/
def dial : Dial SequenceNumber UInt16 where
  half := half
  number a := a.value.toNat
  newer := newerThan
  length := UInt16.toNat
  later := later
  number_lt a := a.value.toNat_lt
  number_injective a b h := by
    cases a
    cases b
    exact congrArg mk (UInt16.toNat.inj h)
  newer_eq := newerThan_iff_number
  number_later a k := UInt16.toNat_add a.value k
  exists_length_half := ⟨0x8000, rfl⟩

/-- The way on the dial is what the difference of the machine words says. -/
theorem way_dial (a b : SequenceNumber) : dial.way a b = a.ahead b := by
  have ha := a.value.toNat_lt
  have hb := b.value.toNat_lt
  unfold ahead
  rw [UInt16.toNat_sub]
  show (((a.value.toNat : Int) - b.value.toNat) % 65536).toNat = _
  omega

/-- Which number is newer stays the same when the circle is turned, unless they lie opposite each
other. -/
theorem newerThan_later {a b : SequenceNumber} (h : ¬ a.Opposite b) (n : UInt16) :
    (a.later n).newerThan (b.later n) = a.newerThan b := by
  have hway : dial.way a b ≠ dial.half := by
    rw [way_dial]
    exact h
  exact Dial.newer_later hway n

/-- Among numbers that lie less than half the circle ahead of one point, the newer one is the one
further ahead of it. -/
theorem newerThan_iff_ahead {a b base : SequenceNumber} (ha : a.ahead base < half)
    (hb : b.ahead base < half) : a.newerThan b = true ↔ b.ahead base < a.ahead base := by
  rw [← way_dial] at ha hb ⊢
  rw [← way_dial]
  exact dial.newer_iff_way ha hb

end SequenceNumber

/-! ## Comparing without going below zero -/

section Checked

variable {ω : Type} [LT ω] [LE ω] [DecidableLT ω] [DecidableLE ω] [Sub ω]

/-- The difference of two machine words, if it does not go below zero. -/
def difference? (x y : ω) : Option ω := if y ≤ x then some (x - y) else none

/-- Tests by how much one machine word is greater than another, if it is. -/
def excess? (x y : ω) (test : ω → Bool) : Option Bool :=
  if y < x then (difference? x y).map test else some false

/-- The comparison of `newerThan` with every difference checked: one is taken only where it was
found which word is the greater one, and the second one only where the first did not settle the
matter. -/
def newer? (maxForward x y : ω) : Option Bool :=
  (excess? x y fun gap => decide (gap ≤ maxForward)).bind fun ahead =>
    if ahead then some true else excess? y x fun gap => decide (maxForward < gap)

variable [Std.LawfulOrderLT ω]

/-- No difference is taken that would go below zero. -/
theorem excess?_eq (x y : ω) (test : ω → Bool) :
    excess? x y test = some (decide (y < x) && test (x - y)) := by
  unfold excess?
  by_cases h : y < x
  · have hdifference : difference? x y = some (x - y) := if_pos (Std.le_of_lt h)
    rw [if_pos h, hdifference, decide_eq_true h]
    rfl
  · rw [if_neg h, decide_eq_false h]
    rfl

/-- The comparison never goes below zero. -/
theorem newer?_eq (maxForward x y : ω) : newer? maxForward x y =
    some ((decide (y < x) && decide (x - y ≤ maxForward)) ||
      (decide (x < y) && decide (maxForward < y - x))) := by
  unfold newer?
  rw [excess?_eq, excess?_eq, Option.bind_some]
  cases (decide (y < x) && decide (x - y ≤ maxForward)) with
  | false => rfl
  | true => rfl

end Checked

/-- Timestamps and sequence numbers are in order as points of their dials: which of two is newer is
settled by the way from one to the other, and where they lie opposite each other, by the numbers;
none is newer than itself, and of two different ones exactly one is; turning the circle changes that
just for opposite ones; and among all that lie within less than half the circle, what is newer than
a newer one is newer. Less than half the circle on from a timestamp, that is the time since then,
and none has passed the other way round. Some sequence numbers on is where so many steps lead. No
comparison takes a greater number from a smaller one. -/
theorem dials_ordered :
    Timestamp.dial.Ordered ∧ SequenceNumber.dial.Ordered ∧
    (∀ (a : Timestamp) (d : UInt32), d.toNat < Timestamp.half →
      (a.addMillis d).millisSince a = d ∧ a.millisSince (a.addMillis d) = 0) ∧
    (∀ (a : SequenceNumber) (n : Nat), SequenceNumber.next^[n] a = a.later (UInt16.ofNat n)) ∧
    (∀ a b : Timestamp,
      newer? Timestamp.maxForward a.millis b.millis = some (a.newerThan b)) ∧
    ∀ a b : SequenceNumber,
      newer? SequenceNumber.maxForward a.value b.value = some (a.newerThan b) :=
  ⟨Timestamp.dial.ordered, SequenceNumber.dial.ordered,
    fun a _ hd => a.millisSince_addMillis hd, SequenceNumber.iterate_next,
    fun a b => newer?_eq Timestamp.maxForward a.millis b.millis,
    fun a b => newer?_eq SequenceNumber.maxForward a.value b.value⟩

/-- Between the old stamp and the new one the count of milliseconds starts anew. The stamp opposite
the new one is not left in its order by every turn. -/
theorem dials_ordered_of_wrap :
    let old : Timestamp := ⟨4294967290⟩
    let new : Timestamp := ⟨5⟩
    let later : Timestamp := ⟨200⟩
    let opposite : Timestamp := ⟨2147483653⟩
    (Timestamp.dial.way new old = 11 ∧ new.newerThan old = true) ∧
      (new ≠ old ∧ Xor (new.newerThan old = true) (old.newerThan new = true)) ∧
      (Timestamp.dial.Narrow {old, new, later} ∧ later.newerThan new = true ∧
        later.newerThan old = true) ∧
      (new.ahead opposite = Timestamp.half ∧
        ¬ ∀ k, (new.addMillis k).newerThan (opposite.addMillis k) = new.newerThan opposite) ∧
      ((300 : UInt32).toNat < Timestamp.half ∧ (old.addMillis 300).millisSince old = 300 ∧
        old.millisSince (old.addMillis 300) = 0) ∧
      (SequenceNumber.next^[11] ⟨65530⟩ = ⟨5⟩ ∧
        SequenceNumber.newerThan ⟨5⟩ ⟨65530⟩ = true) := by
  intro old new later opposite
  obtain ⟨hstamps, hnumbers, hsince, hsteps, -, -⟩ := dials_ordered
  have hway : Timestamp.dial.way new old = 11 := by decide
  have hnewer : new.newerThan old = true := by
    rw [← Timestamp.dial_newer, hstamps.newer_iff, hway]
    decide
  have heither : Xor (new.newerThan old = true) (old.newerThan new = true) := by
    rw [← Timestamp.dial_newer]
    exact hstamps.either new old (by decide)
  have hnarrow : Timestamp.dial.Narrow {old, new, later} := by
    -- all three lie ahead of the oldest by less than half the circle
    refine ⟨old, ?_⟩
    rintro a (rfl | rfl | rfl)
    · decide
    · decide
    · decide
  have hlast : later.newerThan new = true := by decide
  have htransitive : later.newerThan old = true := by
    have hordered := hstamps.transitive _ hnarrow
    rw [← Timestamp.dial_newer] at hlast hnewer ⊢
    exact hordered later (.inr (.inr rfl)) new (.inr (.inl rfl)) old (.inl rfl) hlast hnewer
  have hopposite : new.ahead opposite = Timestamp.half := by decide
  have hturned : ¬ ∀ k, (new.addMillis k).newerThan (opposite.addMillis k) =
      new.newerThan opposite := by
    rw [← Timestamp.dial_newer, ← Timestamp.dial_later, hstamps.turned, Timestamp.way_dial]
    exact not_not_intro hopposite
  have hnext : SequenceNumber.next^[11] ⟨65530⟩ = ⟨5⟩ := hsteps ⟨65530⟩ 11
  have hahead : SequenceNumber.newerThan ⟨5⟩ ⟨65530⟩ = true :=
    (hnumbers.ahead ⟨65530⟩ 11 (by decide)).2.1.mpr (by decide)
  exact ⟨⟨hway, hnewer⟩, ⟨by decide, heither⟩,
    ⟨hnarrow, hlast, htransitive⟩, ⟨hopposite, hturned⟩,
    ⟨by decide, hsince old 300 (by decide)⟩, hnext, hahead⟩

/-- Stamps that span half the circle need not be in order. -/
example : Timestamp.newerThan ⟨2147483648⟩ ⟨1073741824⟩ = true ∧
    Timestamp.newerThan ⟨1073741824⟩ ⟨0⟩ = true ∧
    Timestamp.newerThan ⟨2147483648⟩ ⟨0⟩ = false := by
  decide

end Geocast
