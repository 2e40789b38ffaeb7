import Geocast.Lifetime
import Mathlib.Data.Nat.Basic
import Mathlib.Order.Bounds.Defs
import Mathlib.Order.Monotone.Defs

/-!
# How well a byte holds a span of time

The four time bases are tried in turn, and a later one counts only if it comes strictly closer. By
induction on the bases tried, what is kept is the greatest value not above the span that any of
them can write, with the finest base that writes it (`IsChoice`). There is one such lifetime only,
so everything about `ofMillis` is read off these three properties; `ofMillis_best` gathers it.
-/

namespace Geocast

namespace Lifetime

/-! ## The two fields of the byte -/

/-- Two bits choose the time base, so there are four of them. -/
theorem base_lt (l : Lifetime) : l.base < 4 := Nat.mod_lt _ (by decide)

/-- The six others are the multiplier. -/
theorem multiplier_le (l : Lifetime) : l.multiplier ≤ maxMultiplier := by
  have hraw := l.raw.toNat_lt
  unfold multiplier maxMultiplier
  omega

/-- Each of the four bases is in the table. -/
theorem bases_getD {base : Nat} (hbase : base < 4) : bases.getD base 0 = bases.getD base 1 := by
  rw [List.getD_eq_getElem?_getD, List.getD_eq_getElem?_getD,
    List.getElem?_eq_getElem (l := bases) hbase, Option.getD_some, Option.getD_some]

/-- None of them is zero. -/
theorem bases_pos (base : Nat) : 0 < bases.getD base 1 := by
  have hall : ∀ unit ∈ bases, 0 < unit := by decide
  rw [List.getD_eq_getElem?_getD]
  cases hunit : bases[base]? with
  | none => exact Nat.one_pos
  | some unit => exact hall unit (List.mem_of_getElem? hunit)

/-- The span of a byte is its multiplier times its base. -/
theorem millis_eq (l : Lifetime) : l.millis = l.multiplier * bases.getD l.base 1 := by
  rw [← bases_getD l.base_lt]
  rfl

/-- The same value is written with the same base in one way only. -/
theorem eq_of_base_of_millis {l l' : Lifetime} (hbase : l.base = l'.base)
    (hmillis : l.millis = l'.millis) : l = l' := by
  rw [millis_eq, millis_eq, hbase] at hmillis
  have hmultiplier : l.multiplier = l'.multiplier :=
    Nat.eq_of_mul_eq_mul_right (bases_pos l'.base) hmillis
  have hraw : l.raw = l'.raw := by
    rw [← UInt8.toNat_inj]
    unfold base at hbase
    unfold multiplier at hmultiplier
    omega
  cases l
  cases l'
  exact congrArg mk hraw

variable {multiplier base : Nat}

/-- A multiplier of six bits and a base of two fill the byte and no more. -/
theorem raw_make (hmultiplier : multiplier ≤ maxMultiplier) (hbase : base < 4) :
    (make multiplier base).raw.toNat = 4 * multiplier + base := by
  have hsmall : multiplier ≤ 63 := hmultiplier
  show (UInt8.ofNat (4 * multiplier + base)).toNat = _
  rw [UInt8.toNat_ofNat']
  exact Nat.mod_eq_of_lt (by omega)

/-- A byte that was put together has the multiplier that it was made of. -/
theorem multiplier_make (hmultiplier : multiplier ≤ maxMultiplier) (hbase : base < 4) :
    (make multiplier base).multiplier = multiplier := by
  unfold Lifetime.multiplier
  rw [raw_make hmultiplier hbase]
  omega

/-- And it has the base. -/
theorem base_make (hmultiplier : multiplier ≤ maxMultiplier) (hbase : base < 4) :
    (make multiplier base).base = base := by
  unfold Lifetime.base
  rw [raw_make hmultiplier hbase]
  omega

/-! ## The greatest value of one base -/

/-- What is written with a base has that base. -/
theorem base_fitting (span : Nat) (hbase : base < 4) : (fitting span base).base = base :=
  base_make (Nat.min_le_right _ _) hbase

/-- It is the span rounded down to a multiple of the base, or the most that the base can hold. -/
theorem millis_fitting (span : Nat) (hbase : base < 4) :
    (fitting span base).millis =
      min (span / bases.getD base 1) maxMultiplier * bases.getD base 1 := by
  rw [millis_eq, base_fitting span hbase]
  congr 1
  exact multiplier_make (Nat.min_le_right _ _) hbase

/-- It never exceeds the span. -/
theorem millis_fitting_le (span : Nat) (hbase : base < 4) : (fitting span base).millis ≤ span := by
  rw [millis_fitting span hbase]
  exact Nat.le_trans (Nat.mul_le_mul_right _ (Nat.min_le_left _ _)) (Nat.div_mul_le_self _ _)

/-- And no other byte of that base comes closer from below. -/
theorem le_millis_fitting {span : Nat} {l : Lifetime} (h : l.millis ≤ span) :
    l.millis ≤ (fitting span l.base).millis := by
  rw [millis_fitting span l.base_lt]
  rw [millis_eq] at h ⊢
  have hquotient : l.multiplier ≤ span / bases.getD l.base 1 :=
    (Nat.le_div_iff_mul_le (bases_pos l.base)).mpr h
  exact Nat.mul_le_mul_right _ (Nat.le_min.mpr ⟨hquotient, l.multiplier_le⟩)

/-! ## The choice among the bases -/

/-- The choice among the first few time bases. -/
def choice (span n : Nat) : Lifetime :=
  (List.range n).foldl (fun best base =>
    let next := fitting span base
    if best.millis < next.millis then next else best) ⟨0⟩

theorem ofMillis_eq_choice (span : Nat) : ofMillis span = choice span 4 := rfl

/-- Another base is chosen only if it holds strictly more than all before it. -/
theorem choice_succ (span n : Nat) : choice span (n + 1) =
    if (choice span n).millis < (fitting span n).millis then fitting span n
    else choice span n := by
  unfold choice
  rw [List.range_succ, List.foldl_append]
  rfl

/-- A lifetime is what the first few time bases have to offer for a span: the greatest value that
does not exceed it, written with the finest of all bases. -/
structure IsChoice (span n : Nat) (best : Lifetime) : Prop where
  le : best.millis ≤ span
  greatest : ∀ l : Lifetime, l.base < n → l.millis ≤ span → l.millis ≤ best.millis
  finest : ∀ l : Lifetime, l.millis = best.millis → best.base ≤ l.base

/-- By induction on the bases tried: a value that a finer base can write too was offered before, so
the next base does not come strictly closer with it. -/
theorem isChoice_choice (span : Nat) {n : Nat} (hn : n ≤ 4) : IsChoice span n (choice span n) := by
  induction n with
  | zero =>
    have hnothing : (⟨0⟩ : Lifetime).millis = 0 ∧ (⟨0⟩ : Lifetime).base = 0 := by decide
    show IsChoice span 0 ⟨0⟩
    refine ⟨?_, fun _ hl => absurd hl (Nat.not_lt_zero _), fun _ _ => ?_⟩
    · rw [hnothing.1]
      exact Nat.zero_le _
    · rw [hnothing.2]
      exact Nat.zero_le _
  | succ n ih =>
    have hbase : n < 4 := hn
    have hbest := ih (Nat.le_of_lt hbase)
    rw [choice_succ]
    split
    · next hcloser =>
      refine ⟨millis_fitting_le span hbase, fun l hl hle => ?_, fun l hl => ?_⟩
      · rcases Nat.lt_succ_iff_lt_or_eq.mp hl with hold | hnew
        · exact Nat.le_trans (hbest.greatest l hold hle) (Nat.le_of_lt hcloser)
        · exact hnew ▸ le_millis_fitting hle
      · rw [base_fitting span hbase]
        -- a finer base with the same span would have been chosen before
        refine Nat.le_of_not_lt fun hfiner => ?_
        have hoffered := hbest.greatest l hfiner (hl ▸ millis_fitting_le span hbase)
        omega
    · next hnot =>
      refine ⟨hbest.le, fun l hl hle => ?_, hbest.finest⟩
      rcases Nat.lt_succ_iff_lt_or_eq.mp hl with hold | hnew
      · exact hbest.greatest l hold hle
      · exact Nat.le_trans (hnew ▸ le_millis_fitting hle) (Nat.le_of_not_lt hnot)

/-- What is written for a span is the choice among all four bases. -/
theorem isChoice_ofMillis (span : Nat) : IsChoice span 4 (ofMillis span) := by
  rw [ofMillis_eq_choice]
  exact isChoice_choice span (Nat.le_refl 4)

/-- There is but one such choice, since byte values agree when base and span do. -/
theorem IsChoice.unique {span : Nat} {l l' : Lifetime} (h : IsChoice span 4 l)
    (h' : IsChoice span 4 l') : l = l' := by
  have hmillis : l.millis = l'.millis :=
    Nat.le_antisymm (h'.greatest l l.base_lt h.le) (h.greatest l' l'.base_lt h'.le)
  exact eq_of_base_of_millis (Nat.le_antisymm (h.finest l' hmillis.symm) (h'.finest l hmillis))
    hmillis

/-! ## What a span becomes -/

/-- A lifetime never stands for more than the span that it was made from. -/
theorem millis_ofMillis_le (span : Nat) : (ofMillis span).millis ≤ span :=
  (isChoice_ofMillis span).le

/-- No byte whose span fits holds more than the one that is written. -/
theorem le_millis_ofMillis {span : Nat} {l : Lifetime} (h : l.millis ≤ span) :
    l.millis ≤ (ofMillis span).millis :=
  (isChoice_ofMillis span).greatest l l.base_lt h

/-- A longer span never becomes a shorter lifetime. -/
theorem millis_ofMillis_mono : Monotone fun span => (ofMillis span).millis :=
  fun span _ hle => le_millis_ofMillis (Nat.le_trans (millis_ofMillis_le span) hle)

/-- What was written once is written again in the same way. -/
theorem ofMillis_millis_ofMillis (span : Nat) : ofMillis (ofMillis span).millis = ofMillis span :=
  (isChoice_ofMillis _).unique
    ⟨Nat.le_refl _, fun _ _ hle => hle, (isChoice_ofMillis span).finest⟩

/-- The byte that is written is the best one of its base. -/
theorem ofMillis_eq_fitting (span : Nat) : ofMillis span = fitting span (ofMillis span).base := by
  have hbase := base_fitting span (ofMillis span).base_lt
  refine eq_of_base_of_millis hbase.symm (Nat.le_antisymm ?_ ?_)
  · exact le_millis_fitting (millis_ofMillis_le span)
  · exact le_millis_ofMillis (millis_fitting_le span (ofMillis span).base_lt)

/-- No byte holds more than 63 times the coarsest base. -/
theorem millis_le_maxMillis (l : Lifetime) : l.millis ≤ maxMillis := by
  have hunit : ∀ base < 4, bases.getD base 1 ≤ 100000 := by decide
  rw [millis_eq]
  exact Nat.mul_le_mul l.multiplier_le (hunit l.base l.base_lt)

/-- All spans from the longest lifetime on are written alike. -/
theorem ofMillis_of_maxMillis_le {span : Nat} (h : maxMillis ≤ span) :
    ofMillis span = ofMillis maxMillis :=
  (isChoice_ofMillis span).unique {
    le := Nat.le_trans (millis_ofMillis_le maxMillis) h
    greatest := fun l hl _ => (isChoice_ofMillis maxMillis).greatest l hl l.millis_le_maxMillis
    finest := (isChoice_ofMillis maxMillis).finest }

/-- Cutting a span to 64 bits makes no difference. -/
theorem ofMillis_min (span : Nat) : ofMillis (min span 0xffffffffffffffff) = ofMillis span := by
  by_cases hspan : span ≤ 0xffffffffffffffff
  · rw [Nat.min_eq_left hspan]
  · have hlong : maxMillis ≤ span :=
      Nat.le_trans (by decide) (Nat.le_of_lt (Nat.lt_of_not_le hspan))
    rw [Nat.min_eq_right (Nat.le_of_lt (Nat.lt_of_not_le hspan)), ofMillis_of_maxMillis_le hlong,
      ofMillis_of_maxMillis_le (by decide)]

/-- Of a duration the whole milliseconds count. -/
theorem ofSeconds?_eq {secs nanos : Nat} (hsecs : secs ≤ 0xffffffffffffffff)
    (hnanos : nanos < 1000000000) :
    ofSeconds? secs nanos = some (ofMillis (secs * 1000 + nanos / 1000000)) := by
  have hwhole : (secs * 1000000000 + nanos) / 1000000000 ≤ 0xffffffffffffffff := by omega
  have hmillis : (secs * 1000000000 + nanos) / 1000000 = secs * 1000 + nanos / 1000000 := by omega
  unfold ofSeconds? ofNanos
  dsimp only
  rw [if_pos hwhole, ofMillis_min, hmillis]

/-- A byte holds a span of milliseconds as well as any byte can. -/
structure BestBelow (span : Nat) (best : Lifetime) : Prop where
  /-- Its value is the greatest that does not exceed the span among those of all 256 bytes. -/
  greatest : IsGreatest {v | v ≤ span ∧ ∃ l : Lifetime, l.millis = v} best.millis
  /-- Of the bytes with that value it has the finest time base. -/
  finest : ∀ l : Lifetime, l.millis = best.millis → l = best ∨ best.base < l.base
  /-- The multiplier of every base that is tried fits into its six bits, and the base into its two. -/
  fields : ∀ base < 4, min (span / bases.getD base 1) maxMultiplier < 64 ∧
    (fitting span base).raw.toNat = 4 * min (span / bases.getD base 1) maxMultiplier + base
  tried : best = fitting span best.base ∧ best.base < 4
  /-- The value of a byte is held as it is. -/
  kept : (∃ l : Lifetime, l.millis = span) → best.millis = span
  saturated : 6300000 ≤ span → best.millis = 6300000
  mono : ∀ longer, span ≤ longer → best.millis ≤ (ofMillis longer).millis
  /-- What was written once is written again in the same way. -/
  idem : ofMillis best.millis = best

/-- A span of milliseconds becomes the greatest value that does not exceed it among those of all
256 bytes, and of the bytes with that value the one with the finest time base. So a value of a byte
becomes itself, all spans from 6,300 seconds on become that, a longer span becomes no less, and what
was written once is written again in the same way. A duration of whole seconds and further
nanoseconds is written as its whole milliseconds are, of which at most 2^64 - 1 count. -/
theorem ofMillis_best (span : Nat) :
    BestBelow span (ofMillis span) ∧
      ∀ secs nanos, secs ≤ 0xffffffffffffffff → nanos < 1000000000 →
        ofSeconds? secs nanos =
          some (ofMillis (min (secs * 1000 + nanos / 1000000) 0xffffffffffffffff)) := by
  have hchoice := isChoice_ofMillis span
  constructor
  · exact {
      greatest := by
        refine ⟨⟨hchoice.le, _, rfl⟩, ?_⟩
        rintro v ⟨hle, l, rfl⟩
        exact le_millis_ofMillis hle
      finest := by
        intro l hl
        rcases Nat.eq_or_lt_of_le (hchoice.finest l hl) with hsame | hcoarser
        · exact .inl (eq_of_base_of_millis hsame.symm hl)
        · exact .inr hcoarser
      fields := fun base hbase =>
        ⟨Nat.lt_succ_of_le (Nat.min_le_right _ _), raw_make (Nat.min_le_right _ _) hbase⟩
      tried := ⟨ofMillis_eq_fitting span, (ofMillis span).base_lt⟩
      kept := by
        rintro ⟨l, rfl⟩
        exact Nat.le_antisymm hchoice.le (le_millis_ofMillis (Nat.le_refl _))
      saturated := by
        intro hlong
        rw [ofMillis_of_maxMillis_le hlong]
        decide
      mono := fun longer hle => millis_ofMillis_mono hle
      idem := ofMillis_millis_ofMillis span }
  · intro secs nanos hsecs hnanos
    rw [ofMillis_min, ofSeconds?_eq hsecs hnanos]

/-- Of three and a half seconds, 63 times 50 milliseconds are kept, which no other byte comes closer
to; the rest of the span would be enough for none of the coarser bases. -/
theorem ofMillis_best_of_overlap :
    (ofMillis 3500).millis = 3150 ∧
      (∀ l : Lifetime, l.millis = 3150 → l = ⟨252⟩ ∨ 0 < l.base) ∧
      (∀ l : Lifetime, l.millis ≤ 3500 → l.millis ≤ 3150) ∧
      (ofMillis 3150).millis = 3150 ∧
      (ofMillis 0xffffffffffffffff).millis = 6300000 ∧
      (ofMillis 3500).millis ≤ (ofMillis 4020).millis ∧
      ofSeconds? 3 500999999 = some ⟨252⟩ := by
  obtain ⟨hbest, hduration⟩ := ofMillis_best 3500
  have hgreatest := hbest.greatest
  have hfinest := hbest.finest
  have hvalue : (ofMillis 3500).millis = 3150 := by decide
  rw [hvalue] at hgreatest hfinest
  refine ⟨hvalue, fun l hl => hfinest l hl, fun l hl => hgreatest.2 ⟨hl, l, rfl⟩,
    (ofMillis_best 3150).1.kept ⟨⟨252⟩, by decide⟩,
    (ofMillis_best 0xffffffffffffffff).1.saturated (by decide), hbest.mono 4020 (by decide), ?_⟩
  rw [hduration 3 500999999 (by decide) (by decide)]
  decide

end Lifetime

end Geocast
