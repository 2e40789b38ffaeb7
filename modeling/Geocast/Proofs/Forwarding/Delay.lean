import Geocast.Proofs.Forwarding.Greedy
import Geocast.Proofs.Number.Rounding
import Mathlib.Order.Interval.Set.Defs

/-!
# Who gets further waits less

A waiting time is given by three rules: the longest without progress, the shortest from the whole
range of communication on, and a line between the two. Over exact fractions the three are one:
what is taken off the longest time is in proportion to the part of the range that the progress
covers (`delaySeconds_eq`), and the bounds to which the line is cut are never reached from outside.
So the time falls with the progress, strictly so within the range, and telling it in whole
nanoseconds keeps the order. Of two stations that wait for the same packet, the one that brought it
further never waits longer (`waits_by_progress`).
-/

namespace Geocast

namespace Forwarder

variable {f : Forwarder ℚ}

/-- Waiting times that can be followed: the bounds are in order, and there is some range. -/
structure Paced (f : Forwarder ℚ) : Prop where
  ordered : f.minDelayMillis ≤ f.maxDelayMillis
  reach : 0 < f.range

/-- Settings with crossed bounds or without a range are refused. -/
theorem paced_ofConfig (geometry : Geometry ℚ) {c : Config ℚ} (h : c.fault? = none) :
    (ofConfig geometry c).Paced := by
  unfold Config.fault? at h
  split at h
  · exact absurd h (by simp)
  · next hordered =>
    split at h
    · exact absurd h (by simp)
    · split at h
      · exact absurd h (by simp)
      · next hreach =>
        rw [Bool.not_eq_true', Bool.not_eq_false] at hreach
        have hpositive : ((0 : Nat) : ℚ) < c.range := of_decide_eq_true hreach
        exact ⟨Nat.le_of_not_lt hordered, by exact_mod_cast hpositive⟩

/-! ## The part of the range that is covered -/

/-- The part of the range of communication that some progress covers, from nothing to all. -/
def covered (f : Forwarder ℚ) (progress : ℚ) : ℚ := max 0 (min progress f.range) / f.range

/-- More progress covers more of the range. -/
theorem covered_mono (h : f.Paced) : Monotone f.covered := by
  intro p q hpq
  unfold covered
  have hreach := h.reach
  gcongr

/-- Without progress nothing is covered. -/
theorem covered_of_nonpos {p : ℚ} (hp : p ≤ 0) : f.covered p = 0 := by
  unfold covered
  rw [max_eq_left (le_trans (min_le_left p f.range) hp), zero_div]

/-- With the whole range in progress all of it is. -/
theorem covered_of_range_le (h : f.Paced) {p : ℚ} (hp : f.range ≤ p) : f.covered p = 1 := by
  unfold covered
  rw [min_eq_right hp, max_eq_right h.reach.le, div_self h.reach.ne']

/-- In between it is the share. -/
theorem covered_of_mem {p : ℚ} (hp : p ∈ Set.Icc 0 f.range) : f.covered p = p / f.range := by
  unfold covered
  rw [min_eq_left hp.2, max_eq_right hp.1]

/-- It is a share at any rate. -/
theorem covered_mem (h : f.Paced) (p : ℚ) : f.covered p ∈ Set.Icc 0 1 := by
  have hreach := h.reach
  unfold covered
  refine ⟨div_nonneg (le_max_left _ _) hreach.le, ?_⟩
  rw [div_le_one hreach]
  exact max_le hreach.le (min_le_right _ _)

/-! ## The exact waiting time -/

/-- The shortest waiting time in seconds. -/
def shortest (f : Forwarder ℚ) : ℚ := f.minDelayMillis / 1000

/-- The longest waiting time in seconds. -/
def longest (f : Forwarder ℚ) : ℚ := f.maxDelayMillis / 1000

/-- The shortest waiting time does not exceed the longest. -/
theorem Paced.shortest_le (h : f.Paced) : f.shortest ≤ f.longest := by
  have hcast : (f.minDelayMillis : ℚ) ≤ f.maxDelayMillis := by exact_mod_cast h.ordered
  unfold shortest longest
  linarith

/-- A value within its bounds is not clamped. -/
theorem clamp_of_mem {x lower upper : ℚ} (hx : x ∈ Set.Icc lower upper) :
    Scalar.clamp x lower upper = x := by
  unfold Scalar.clamp
  rw [if_neg fun hlt => absurd (Scalar.lt_rat.mp hlt) (not_lt.mpr hx.1),
    if_neg fun hlt => absurd (Scalar.lt_rat.mp hlt) (not_lt.mpr hx.2)]

theorem seconds_minDelay : (Scalar.seconds f.minDelayMillis : ℚ) = f.shortest := Scalar.seconds_eq _

theorem seconds_maxDelay : (Scalar.seconds f.maxDelayMillis : ℚ) = f.longest := Scalar.seconds_eq _

/-- What is taken off the longest time never leads below the shortest. -/
theorem line_mem (h : f.Paced) (p : ℚ) :
    f.longest - (f.longest - f.shortest) * f.covered p ∈ Set.Icc f.shortest f.longest := by
  have hspan : 0 ≤ f.longest - f.shortest := sub_nonneg.mpr h.shortest_le
  have hcut := covered_mem h p
  have hnone : 0 ≤ (f.longest - f.shortest) * f.covered p := mul_nonneg hspan hcut.1
  have hall : (f.longest - f.shortest) * f.covered p ≤ f.longest - f.shortest :=
    mul_le_of_le_one_right hspan hcut.2
  constructor
  · linarith
  · linarith

/-- The three rules are one line, from the longest time down to the shortest. -/
theorem delaySeconds_eq (h : f.Paced) (p : ℚ) :
    f.delaySeconds p = f.longest - (f.longest - f.shortest) * f.covered p := by
  unfold delaySeconds
  dsimp only
  rw [seconds_minDelay, seconds_maxDelay]
  split
  · next hnone =>
    have hp : p ≤ 0 := by simpa using hnone
    rw [covered_of_nonpos hp, mul_zero, sub_zero]
  · next hsome =>
    have hp : 0 < p := by simpa using hsome
    split
    · next hwhole =>
      rw [covered_of_range_le h (Scalar.le_rat.mp hwhole)]
      ring
    · next hpart =>
      have hline : f.longest + (f.shortest - f.longest) * p / f.range =
          f.longest - (f.longest - f.shortest) * f.covered p := by
        have hmem : p ∈ Set.Icc 0 f.range :=
          ⟨hp.le, le_of_not_ge fun hge => hpart (Scalar.le_rat.mpr hge)⟩
        rw [covered_of_mem hmem]
        ring
      exact (congrArg (Scalar.clamp · _ _) hline).trans (clamp_of_mem (line_mem h p))

/-- Every waiting time lies within the bounds. -/
theorem delaySeconds_mem (h : f.Paced) (p : ℚ) :
    f.delaySeconds p ∈ Set.Icc f.shortest f.longest := by
  rw [delaySeconds_eq h]
  exact line_mem h p

/-- More progress never waits longer. -/
theorem delaySeconds_antitone (h : f.Paced) : Antitone f.delaySeconds := by
  intro p q hpq
  have hspan : 0 ≤ f.longest - f.shortest := sub_nonneg.mpr h.shortest_le
  have hmore := mul_le_mul_of_nonneg_left (covered_mono h hpq) hspan
  rw [delaySeconds_eq h, delaySeconds_eq h]
  linarith

/-- Within the range it waits shorter, if the bounds lie apart. -/
theorem delaySeconds_strictAntiOn (h : f.Paced) (hapart : f.minDelayMillis < f.maxDelayMillis) :
    StrictAntiOn f.delaySeconds (Set.Icc 0 f.range) := by
  intro p hp q hq hpq
  have hspan : 0 < f.longest - f.shortest := by
    have hcast : (f.minDelayMillis : ℚ) < f.maxDelayMillis := by exact_mod_cast hapart
    unfold shortest longest
    linarith
  have hmore := mul_lt_mul_of_pos_left (div_lt_div_of_pos_right hpq h.reach) hspan
  rw [delaySeconds_eq h, delaySeconds_eq h, covered_of_mem hp, covered_of_mem hq]
  linarith

/-! ## The waiting time in nanoseconds -/

/-- Whichever rule it comes from, a waiting time is the exact one to the nearest nanosecond. -/
theorem delay_eq (f : Forwarder ℚ) (p : ℚ) : f.delay p = Scalar.nanos (f.delaySeconds p) := by
  unfold delay delaySeconds
  dsimp only
  split
  · rw [Scalar.nanos_seconds]
  · split
    · rw [Scalar.nanos_seconds]
    · rfl

/-- The bounds between which a time is sought are never crossed, so there always is one. -/
theorem delay?_eq (h : f.Paced) (p : ℚ) : f.delay? p = some (f.delay p) := by
  have hbounds : Scalar.le (Scalar.seconds f.minDelayMillis : ℚ)
      (Scalar.seconds f.maxDelayMillis) = true := by
    rw [Scalar.le_rat, seconds_minDelay, seconds_maxDelay]
    exact h.shortest_le
  have hdefined : f.hasDelay p = true := by
    unfold hasDelay
    rw [hbounds, Scalar.isNumber_rat, Bool.and_self, Bool.or_true]
  unfold delay?
  rw [if_pos hdefined]

/-- What a packet waits is the exact time to the nearest nanosecond. -/
theorem isNearest_delay (h : f.Paced) (p : ℚ) :
    Number.IsNearest (f.delay p) (f.delaySeconds p * 1000000000) := by
  rw [delay_eq]
  refine Scalar.isNearest_nanos (le_trans ?_ (delaySeconds_mem h p).1)
  unfold shortest
  positivity

/-- What holds of the waiting times for all progress: of the exact ones, in seconds, and of those in
whole nanoseconds that a packet waits. -/
structure FallsWithProgress (f : Forwarder ℚ) : Prop where
  mem : ∀ p, f.delaySeconds p ∈
    Set.Icc ((f.minDelayMillis : ℚ) / 1000) ((f.maxDelayMillis : ℚ) / 1000)
  antitone : Antitone f.delaySeconds
  strictAntiOn : f.minDelayMillis < f.maxDelayMillis →
    StrictAntiOn f.delaySeconds (Set.Icc 0 f.range)
  of_nonpos : ∀ p ≤ 0, f.delaySeconds p = (f.maxDelayMillis : ℚ) / 1000
  of_range_le : ∀ p, f.range ≤ p → f.delaySeconds p = (f.minDelayMillis : ℚ) / 1000
  /-- No bounds are crossed, so there always is a time. -/
  defined : ∀ p, f.delay? p = some (f.delay p)
  nearest : ∀ p, Number.IsNearest (f.delay p) (f.delaySeconds p * 1000000000)
  delay_mem : ∀ p, f.delay p ∈ Set.Icc (f.minDelayMillis * 1000000) (f.maxDelayMillis * 1000000)
  delay_antitone : Antitone f.delay
  delay_of_nonpos : ∀ p ≤ 0, f.delay p = f.maxDelayMillis * 1000000
  delay_of_range_le : ∀ p, f.range ≤ p → f.delay p = f.minDelayMillis * 1000000
  /-- Only times that lie within a nanosecond of each other can be told alike. -/
  delay_lt : ∀ p q, f.delaySeconds q * 1000000000 + 1 < f.delaySeconds p * 1000000000 →
    f.delay q < f.delay p

/-- All of this holds of every forwarder with waiting times that can be followed. -/
theorem fallsWithProgress (h : f.Paced) : f.FallsWithProgress := by
  have hantitone : Antitone f.delay := fun p q hpq =>
    (isNearest_delay h q).mono (isNearest_delay h p)
      (mul_le_mul_of_nonneg_right (delaySeconds_antitone h hpq) (by norm_num))
  have hnone (p : ℚ) (hp : p ≤ 0) : f.delaySeconds p = f.longest := by
    rw [delaySeconds_eq h, covered_of_nonpos hp, mul_zero, sub_zero]
  have hwhole (p : ℚ) (hp : f.range ≤ p) : f.delaySeconds p = f.shortest := by
    rw [delaySeconds_eq h, covered_of_range_le h hp, mul_one, sub_sub_cancel]
  have hnone' (p : ℚ) (hp : p ≤ 0) : f.delay p = f.maxDelayMillis * 1000000 := by
    rw [delay_eq, hnone p hp, ← seconds_maxDelay, Scalar.nanos_seconds]
  have hwhole' (p : ℚ) (hp : f.range ≤ p) : f.delay p = f.minDelayMillis * 1000000 := by
    rw [delay_eq, hwhole p hp, ← seconds_minDelay, Scalar.nanos_seconds]
  refine ⟨delaySeconds_mem h, delaySeconds_antitone h, delaySeconds_strictAntiOn h, hnone, hwhole,
    delay?_eq h, isNearest_delay h, fun p => ⟨?_, ?_⟩, hantitone, hnone', hwhole', fun p q hlt => ?_⟩
  · rw [← hwhole' (max p f.range) (le_max_right _ _)]
    exact hantitone (le_max_left _ _)
  · rw [← hnone' (min p 0) (min_le_right _ _)]
    exact hantitone (min_le_left _ _)
  · exact (isNearest_delay h q).lt (isNearest_delay h p) hlt

/-! ## Two stations that wait for the same packet -/

variable {s s' : Surroundings} {goal : Point} {area : Area} {p : ℚ}

/-- In exact arithmetic every plan can be timed. -/
theorem timed?_eq (h : f.Paced) (plan : Plan ℚ) : f.timed? plan = some (f.timed plan) := by
  cases plan with
  | defer p => exact congrArg (Option.map Plan.defer) (delay?_eq h p)
  | _ => rfl

/-- A packet that waits on a timer does so for the progress that was found. -/
theorem exists_of_timed?_defer {plan : Plan ℚ} {n : Nat} (h : f.timed? plan = some (.defer n)) :
    ∃ p, plan = .defer p ∧ n = f.delay p := by
  have hdecided := timed_of_timed? h
  cases plan with
  | defer p => exact ⟨p, rfl, Plan.defer.inj hdecided⟩
  | _ => exact nomatch hdecided

/-- Outside areas, progress is how much nearer a station is to the goal than the sender. -/
theorem contend_eq_defer (h : f.contend s goal = .defer p) : ∃ sender, s.sender = some sender ∧
    p = f.geometry.distance sender goal - f.geometry.distance s.here goal := by
  unfold contend at h
  cases hsender : s.sender with
  | none =>
    rw [hsender] at h
    exact nomatch h
  | some sender =>
    rw [hsender] at h
    exact ⟨sender, rfl, (Plan.defer.inj h).symm⟩

/-- Greedy forwarding lets no packet wait for its turn. -/
theorem contend_of_toward (h : f.toward s goal = .defer p) : f.contend s goal = .defer p := by
  unfold toward at h
  split at h
  · have hprompt := greedy_isPrompt f s goal
    rw [h] at hprompt
    exact absurd hprompt Bool.false_ne_true
  · exact h

/-- Outside an area the goal is its centre. -/
theorem toward_of_into (houtside : (f.geometry.relativePosition s.here area).isWithin = false)
    (h : f.into s area = .defer p) : f.toward s area.centre = .defer p := by
  unfold into at h
  rw [if_neg (by rw [houtside]; exact Bool.false_ne_true)] at h
  split at h
  · exact nomatch h
  · exact h

/-- Inside it, progress is measured from the boundary. -/
theorem within_of_into (hinside : (f.geometry.relativePosition s.here area).isWithin = true)
    (h : f.into s area = .defer p) : p = f.range - max (f.geometry.toBoundary s.here area) 0 := by
  unfold into within at h
  rw [if_pos hinside] at h
  split at h
  · dsimp only at h
    rw [Scalar.max_rat, Scalar.zero_rat] at h
    exact (Plan.defer.inj h).symm
  · exact nomatch h

/-- The nearer one to the goal has got further since the same sender. -/
theorem delay_le_of_contend (h : f.Paced) (hsender : s.sender = s'.sender)
    (hnearer : f.geometry.distance s.here goal ≤ f.geometry.distance s'.here goal) {q : ℚ}
    (hp : f.contend s goal = .defer p) (hq : f.contend s' goal = .defer q) :
    f.delay p ≤ f.delay q := by
  obtain ⟨sender, hsome, rfl⟩ := contend_eq_defer hp
  obtain ⟨sender', hsome', rfl⟩ := contend_eq_defer hq
  obtain rfl := Option.some.inj (hsome.symm.trans (hsender.trans hsome'))
  exact (fallsWithProgress h).delay_antitone (sub_le_sub_left hnearer _)

/-- With any settings that a router accepts, and however distances are measured: over exact
fractions the waiting time lies between the bounds, falls with the progress, and falls strictly
within the range of communication if the bounds differ; without progress it is the longest, and from
the whole range on the shortest. It is always defined, and in whole nanoseconds it keeps all of
this, but that it can tell times alike that lie within a nanosecond of each other. So each plan
comes to a decision, and of two stations that wait for the same packet from the same sender the one
that is nearer to the goal, or within the area nearer to its edge, never waits longer. -/
theorem waits_by_progress (geometry : Geometry ℚ) {c : Config ℚ} (h : c.fault? = none) :
    let f := ofConfig geometry c
    f.FallsWithProgress ∧ (∀ plan, f.timed? plan = some (f.timed plan)) ∧
    (∀ s s' goal n n', s.sender = s'.sender →
      geometry.distance s.here goal ≤ geometry.distance s'.here goal →
      f.timed? (f.contend s goal) = some (.defer n) →
      f.timed? (f.contend s' goal) = some (.defer n') → n ≤ n') ∧
    (∀ s s' area n n', s.sender = s'.sender →
      (geometry.relativePosition s.here area).isWithin = false →
      (geometry.relativePosition s'.here area).isWithin = false →
      geometry.distance s.here area.centre ≤ geometry.distance s'.here area.centre →
      f.timed? (f.into s area) = some (.defer n) →
      f.timed? (f.into s' area) = some (.defer n') → n ≤ n') ∧
    (∀ s s' area n n', (geometry.relativePosition s.here area).isWithin = true →
      (geometry.relativePosition s'.here area).isWithin = true →
      geometry.toBoundary s.here area ≤ geometry.toBoundary s'.here area →
      f.timed? (f.into s area) = some (.defer n) →
      f.timed? (f.into s' area) = some (.defer n') → n ≤ n') := by
  intro f
  have hpaced : f.Paced := paced_ofConfig geometry h
  refine ⟨fallsWithProgress hpaced, timed?_eq hpaced, ?_, ?_, ?_⟩
  · intro s s' goal n n' hsender hnearer hn hn'
    obtain ⟨p, hp, rfl⟩ := exists_of_timed?_defer hn
    obtain ⟨q, hq, rfl⟩ := exists_of_timed?_defer hn'
    exact delay_le_of_contend hpaced hsender hnearer hp hq
  · intro s s' area n n' hsender houtside houtside' hnearer hn hn'
    obtain ⟨p, hp, rfl⟩ := exists_of_timed?_defer hn
    obtain ⟨q, hq, rfl⟩ := exists_of_timed?_defer hn'
    exact delay_le_of_contend hpaced hsender hnearer
      (contend_of_toward (toward_of_into houtside hp))
      (contend_of_toward (toward_of_into houtside' hq))
  · intro s s' area n n' hinside hinside' hnearer hn hn'
    obtain ⟨p, hp, rfl⟩ := exists_of_timed?_defer hn
    obtain ⟨q, hq, rfl⟩ := exists_of_timed?_defer hn'
    rw [within_of_into hinside hp, within_of_into hinside' hq]
    -- a place beyond the edge counts as one on it
    have hedge := max_le_max_right 0 hnearer
    exact (fallsWithProgress hpaced).delay_antitone (sub_le_sub_left hedge _)

/-- Settings under which packets are contended for, outside areas and within. -/
def contendingConfig : Config ℚ :=
  { Config.standard with nonArea := some .contention, area := some .contention }

/-- A station on the equator that has a packet from a sender at the meridian. -/
def onEquator (longitude : Int32) : Surroundings where
  table := .make {} 20000
  here := ⟨0, longitude⟩
  sender := some {}
  now := {}

/-- Two stations at 300 and at 100 metres from the sender, with a goal and then an area ahead, and
two within an area, at 100 and at 400 metres from its edge. -/
theorem waits_by_progress_of_two :
    let f := ofConfig gridGeometry contendingConfig
    let ahead : Area := { centre := ⟨0, 1000⟩, a := 50 }
    let around : Area := { a := 500 }
    contendingConfig.fault? = none ∧ f.delaySeconds 300 < f.delaySeconds 100 ∧
      f.delaySeconds (-5) = 100 / 1000 ∧ f.delay 1000 = 1000000 ∧ f.delay 300 < f.delay 100 ∧
      f.timed? (f.contend (onEquator 300) ⟨0, 1000⟩) = some (.defer 70300000) ∧
      f.timed? (f.contend (onEquator 100) ⟨0, 1000⟩) = some (.defer 90100000) ∧
      f.timed? (f.into (onEquator 300) ahead) = some (.defer 70300000) ∧
      f.timed? (f.into (onEquator 100) ahead) = some (.defer 90100000) ∧ 70300000 ≤ 90100000 ∧
      f.timed? (f.into (onEquator 400) around) = some (.defer 10900000) ∧
      f.timed? (f.into (onEquator 100) around) = some (.defer 40600000) ∧ 10900000 ≤ 40600000 := by
  intro f ahead around
  have hfault : contendingConfig.fault? = none := by decide +kernel
  obtain ⟨hfalls, -, hcontend, houtside, hinside⟩ := waits_by_progress gridGeometry hfault
  have hnear : f.timed? (f.contend (onEquator 300) ⟨0, 1000⟩) = some (.defer 70300000) := by
    decide +kernel
  have hfar : f.timed? (f.contend (onEquator 100) ⟨0, 1000⟩) = some (.defer 90100000) := by
    decide +kernel
  have hnearArea : f.timed? (f.into (onEquator 300) ahead) = some (.defer 70300000) := by
    decide +kernel
  have hfarArea : f.timed? (f.into (onEquator 100) ahead) = some (.defer 90100000) := by
    decide +kernel
  have hedge : f.timed? (f.into (onEquator 400) around) = some (.defer 10900000) := by
    decide +kernel
  have hmiddle : f.timed? (f.into (onEquator 100) around) = some (.defer 40600000) := by
    decide +kernel
  have hwithin : (100 : ℚ) ∈ Set.Icc 0 f.range ∧ (300 : ℚ) ∈ Set.Icc 0 f.range := by
    constructor <;> constructor <;> decide +kernel
  have hless := hcontend (onEquator 300) (onEquator 100) _ _ _ rfl (by decide +kernel) hnear hfar
  have hless' := houtside (onEquator 300) (onEquator 100) ahead _ _ rfl (by decide +kernel)
    (by decide +kernel) (by decide +kernel) hnearArea hfarArea
  have hless'' := hinside (onEquator 400) (onEquator 100) around _ _ (by decide +kernel)
    (by decide +kernel) (by decide +kernel) hedge hmiddle
  exact ⟨hfault, hfalls.strictAntiOn (by decide) hwithin.1 hwithin.2 (by norm_num),
    hfalls.of_nonpos _ (by norm_num), hfalls.delay_of_range_le _ (by decide +kernel),
    hfalls.delay_lt _ _ (by decide +kernel), hnear, hfar, hnearArea, hfarArea, hless', hedge,
    hmiddle, hless''⟩

end Forwarder

end Geocast
