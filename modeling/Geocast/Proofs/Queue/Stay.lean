import Geocast.Proofs.Lifetime
import Geocast.Queue.Parcel

/-!
# How long a packet may stay

A packet that is taken out of a queue and parked again may stay for what is left of its lifetime, as
far as that can be written in a byte. What the byte cannot hold is cut off, each time anew, and the
cuts add up: `deadline_after_add_losses` says that a packet has lost, over any row of releases,
exactly the sum of its cuts.
-/

namespace Geocast

namespace Lifetime

/-- What is cut off a span of milliseconds when it is written as a lifetime. -/
def cut (span : Nat) : Nat := span - (ofMillis span).millis

theorem millis_add_cut (span : Nat) : (ofMillis span).millis + cut span = span :=
  Nat.add_sub_cancel' (millis_ofMillis_le span)

/-- Half a second can be written; of a millisecond less, all above 450 is cut off. -/
example : cut 500 = 0 ∧ cut 499 = 49 := by decide

end Lifetime

/-- Since when a packet is parked, and how long it may be. -/
structure Stay where
  since : Nat
  lifetime : Nat
deriving DecidableEq, Repr

namespace Stay

/-- When the lifetime has passed. -/
def deadline (s : Stay) : Nat := s.since + s.lifetime

/-- What is left of the lifetime. -/
def left (s : Stay) (now : Nat) : Nat := s.lifetime - (now - s.since)

/-- The stay of a packet that is taken out and parked again. -/
def again (s : Stay) (now : Nat) : Stay := ⟨now, (Lifetime.ofMillis (s.left now)).millis⟩

/-- The stay of a packet that is taken out and parked again at each of the given times. -/
def after (s : Stay) (times : List Nat) : Stay := times.foldl again s

/-- All that was cut off when a packet was taken out and parked again at the given times. -/
def losses (s : Stay) : List Nat → Nat
  | [] => 0
  | now :: times => Lifetime.cut (s.left now) + (s.again now).losses times

/-- A packet was still good each time it was taken out. -/
def Lasts (s : Stay) : List Nat → Prop
  | [] => True
  | now :: times => s.since ≤ now ∧ now < s.deadline ∧ (s.again now).Lasts times

/-- Taking a packet out and parking it again costs what the byte cannot hold. -/
theorem deadline_again_add_cut {s : Stay} {now : Nat} (hsince : s.since ≤ now)
    (hgood : now < s.deadline) :
    (s.again now).deadline + Lifetime.cut (s.left now) = s.deadline := by
  have hcut := Lifetime.millis_add_cut (s.left now)
  unfold deadline at hgood ⊢
  show now + (Lifetime.ofMillis (s.left now)).millis + Lifetime.cut (s.left now) = _
  rw [Nat.add_assoc, hcut]
  unfold left
  omega

/-- A packet has lost the sum of its cuts, however often it was taken out. -/
theorem deadline_after_add_losses {s : Stay} {times : List Nat} (h : s.Lasts times) :
    (s.after times).deadline + s.losses times = s.deadline := by
  induction times generalizing s with
  | nil => rfl
  | cons now times ih =>
    obtain ⟨hsince, hgood, hlasts⟩ := h
    calc (s.after (now :: times)).deadline + s.losses (now :: times)
        = ((s.again now).after times).deadline +
            (Lifetime.cut (s.left now) + (s.again now).losses times) := rfl
      _ = ((s.again now).after times).deadline + (s.again now).losses times +
            Lifetime.cut (s.left now) := by omega
      _ = (s.again now).deadline + Lifetime.cut (s.left now) := by rw [ih hlasts]
      _ = s.deadline := deadline_again_add_cut hsince hgood

theorem Lasts.since_le {s : Stay} {times : List Nat} (h : s.Lasts times) :
    s.since ≤ (s.after times).since := by
  induction times generalizing s with
  | nil => exact Nat.le_refl _
  | cons now times ih => exact Nat.le_trans h.1 (ih h.2.2)

/-- Being taken out and parked again never lets a packet stay longer. -/
theorem Lasts.deadline_le {s : Stay} {times : List Nat} (h : s.Lasts times) :
    (s.after times).deadline ≤ s.deadline := by
  have hlosses := deadline_after_add_losses h
  omega

/-- A packet is only parked again before its time is up. -/
theorem Lasts.since_lt {s : Stay} {times : List Nat} (h : s.Lasts times) (hagain : times ≠ []) :
    (s.after times).since < s.deadline := by
  induction times generalizing s with
  | nil => exact absurd rfl hagain
  | cons now times ih =>
    obtain ⟨hsince, hgood, hlasts⟩ := h
    by_cases hlast : times = []
    · subst hlast
      exact hgood
    · have hagain : (s.again now).deadline ≤ s.deadline :=
        Nat.le_of_add_right_le (Nat.le_of_eq (deadline_again_add_cut hsince hgood))
      exact Nat.lt_of_lt_of_le (ih hlasts hlast) hagain

theorem after_concat (s : Stay) (times : List Nat) (now : Nat) :
    s.after (times ++ [now]) = (s.after times).again now := by
  unfold after
  rw [List.foldl_append, List.foldl_cons, List.foldl_nil]

/-- A packet is parked since it was last taken out. -/
theorem since_after (s : Stay) (times : List Nat) :
    (s.after times).since = times.getLastD s.since := by
  induction times generalizing s with
  | nil => rfl
  | cons now times ih =>
    rw [List.getLastD_cons]
    exact ih (s.again now)

theorem Lasts.concat {s : Stay} {times : List Nat} {now : Nat} (h : s.Lasts times)
    (hsince : (s.after times).since ≤ now) (hgood : now < (s.after times).deadline) :
    s.Lasts (times ++ [now]) := by
  induction times generalizing s with
  | nil => exact ⟨hsince, hgood, trivial⟩
  | cons time times ih => exact ⟨h.1, h.2.1, ih h.2.2 hsince hgood⟩

end Stay

namespace Parcel

/-- Since when a parcel is parked, and how long it may be. -/
def stay (p : Parcel) : Stay := ⟨p.enqueuedAt, p.lifetime⟩

theorem isExpired_iff {p : Parcel} {now : Nat} (h : p.enqueuedAt ≤ now) :
    p.isExpired now = true ↔ p.stay.deadline ≤ now := by
  unfold isExpired Stay.deadline stay
  rw [decide_eq_true_iff]
  dsimp only
  omega

end Parcel

end Geocast
