import Geocast.Proofs.History
import Geocast.Proofs.Queue.Contents
import Geocast.Proofs.Queue.Heap

/-!
# Timers on a heap and in a row

The timers that are kept on a heap are those of a row (`Lined`): the packets in the order in which
they are due, and by turns where they are due together. Each operation takes some packets out of
that row and leaves the others where they are, and a timer that is started puts its packet into it
(`Lined.perform`). So the heap answers as the row does that `ContentionQueue` keeps, and holds the
same packets (`lined_after`).
-/

namespace Geocast

open ContentionQueue (nanosPerMilli isDue)

/-! ## The order in which packets are due -/

namespace Entrant

/-- Whether a packet is due before another, or together with it and had its turn before. -/
def Before (x y : Entrant) : Prop :=
  x.deadline < y.deadline ∨ x.deadline = y.deadline ∧ x.turn < y.turn

instance : Std.TransOrd Entrant :=
  @Std.TransCmp.opposite Entrant
    (compareLex (compareOn fun x => x.deadline) (compareOn Entrant.turn)) inferInstance

/-- Who is due before stands above in the heap. -/
theorem compare_eq_gt {x y : Entrant} : compare x y = .gt ↔ x.Before y := by
  show (compare y.deadline x.deadline).then (compare y.turn x.turn) = .gt ↔ _
  unfold Before
  rw [Ordering.then_eq_gt, Nat.compare_eq_gt, Nat.compare_eq_gt, Nat.compare_eq_eq,
    eq_comm (a := y.deadline)]

theorem Before.deadline_le {x y : Entrant} (h : x.Before y) : x.deadline ≤ y.deadline := by
  unfold Before at h
  omega

theorem Before.ne {x y : Entrant} (h : x.Before y) : x ≠ y := by
  rintro rfl
  unfold Before at h
  omega

end Entrant

/-- Where a test is passed by all that stand before one that passes it, those that pass it come
first. -/
theorem takeWhile_eq_filter {α : Type} {before : α → α → Prop} {test : α → Bool} {xs : List α}
    (hxs : xs.Pairwise before) (htest : ∀ x y, before x y → test y = true → test x = true) :
    xs.takeWhile test = xs.filter test ∧ xs.dropWhile test = xs.filter fun x => !test x := by
  induction xs with
  | nil => exact ⟨rfl, rfl⟩
  | cons x xs ih =>
    obtain ⟨hx, hxs⟩ := List.pairwise_cons.mp hxs
    obtain ⟨htake, hdrop⟩ := ih hxs
    rw [List.takeWhile_cons, List.dropWhile_cons, List.filter_cons, List.filter_cons]
    cases hpass : test x with
    | true => exact ⟨congrArg (x :: ·) htake, hdrop⟩
    | false =>
      have hnone : ∀ y ∈ xs, test y = false := by
        intro y hy
        by_contra hpassed
        have hfirst := htest x y (hx y hy) (Bool.eq_true_of_not_eq_false hpassed)
        rw [hpass] at hfirst
        exact Bool.false_ne_true hfirst
      refine ⟨(List.filter_eq_nil_iff.mpr fun y hy => ?_).symm, congrArg (x :: ·) ?_⟩
      · simp [hnone y hy]
      · exact (List.filter_eq_self.mpr fun y hy => by simp [hnone y hy]).symm

/-! ## What is done to timers -/

namespace ContentionHeap

/-- What can be done to the timers. -/
inductive Operation
  | schedule (key : ContentionKey) (p : Parcel) (timeout now : Nat)
  | cancel (key : ContentionKey)
  | clear
  | fire (now : Nat)
deriving DecidableEq

/-- What the timers answer to an operation. -/
inductive Answer
  | scheduled (started : Bool)
  | cancelled (found : Bool)
  | cleared (count : Nat)
  | fired (sent : List Parcel)
deriving DecidableEq

/-- Does what is asked. -/
def perform (q : ContentionHeap) : Operation → Answer × ContentionHeap
  | .schedule key p timeout now =>
    let (started, q) := q.schedule key p timeout now
    (.scheduled started, q)
  | .cancel key => let (found, q) := q.cancel key; (.cancelled found, q)
  | .clear => let (count, q) := q.clear; (.cleared count, q)
  | .fire now => let (sent, q) := q.fire now; (.fired sent, q)

/-- What a row of operations makes of the timers. -/
def after (q : ContentionHeap) (ops : List Operation) : ContentionHeap := (feed perform q ops).2

/-- The packets on timers, in no order. -/
def pending (q : ContentionHeap) : List Entrant := q.heap.items

/-- A packet with the turn that is next. -/
def entrant (q : ContentionHeap) (key : ContentionKey) (p : Parcel) (timeout now : Nat) :
    Entrant :=
  { deadline := now * nanosPerMilli + timeout, key, parcel := p, turn := q.turns }

end ContentionHeap

open ContentionHeap (Operation Answer)

/-- Does what is asked, with the timers in a row. -/
def ContentionQueue.perform (q : ContentionQueue) : Operation → Answer × ContentionQueue
  | .schedule key p timeout now =>
    let (started, q) := q.schedule key p timeout now
    (.scheduled started, q)
  | .cancel key => let (found, q) := q.cancel key; (.cancelled found, q)
  | .clear => (.cleared q.size, {})
  | .fire now => let (sent, q) := q.fire now; (.fired sent, q)

namespace Entrant

/-- Whether an operation takes a packet off its timer. -/
def leaves (x : Entrant) : Operation → Bool
  | .schedule .. => false
  | .cancel key => decide (x.key = key)
  | .clear => true
  | .fire now => decide (x.deadline ≤ now * nanosPerMilli)

/-- Whether an operation sends a packet that it takes off its timer. -/
def sentBy (x : Entrant) : Operation → Bool
  | .fire now => !x.parcel.isExpired now
  | _ => false

/-- Puts a packet behind all that are due no later. -/
def place (x : Entrant) (row : List Entrant) : List Entrant :=
  row.takeWhile (fun y => decide (y.deadline ≤ x.deadline)) ++
    x :: row.dropWhile fun y => decide (y.deadline ≤ x.deadline)

/-- A packet that is put in its place replaces none. -/
theorem place_perm (x : Entrant) (row : List Entrant) : (x.place row).Perm (x :: row) := by
  unfold place
  refine List.perm_middle.trans ?_
  rw [List.takeWhile_append_dropWhile]

/-- Where a packet is put by its turn is where it is put by its deadline. -/
theorem map_place (x : Entrant) (row : List Entrant) :
    (x.place row).map toContender =
      ContentionQueue.insert x.toContender (row.map toContender) := by
  unfold place
  induction row with
  | nil => rfl
  | cons y row ih =>
    rw [List.takeWhile_cons, List.dropWhile_cons, List.map_cons, ContentionQueue.insert]
    by_cases hle : y.deadline ≤ x.deadline
    · simp only [hle, decide_true, if_true]
      rw [← ih]
      rfl
    · simp only [hle, decide_false, if_false]
      rfl

end Entrant

namespace ContentionHeap

section

variable (q : ContentionHeap) (key : ContentionKey)

theorem contains_iff : q.contains key = true ↔ ∃ x ∈ q.pending, x.key = key := by
  unfold contains
  rw [List.any_eq_true]
  exact exists_congr fun x => and_congr_right fun _ => decide_eq_true_iff

/-- A timer is started unless one is running for the same packet. -/
theorem schedule_eq (p : Parcel) (timeout now : Nat) :
    q.schedule key p timeout now = if q.contains key then (false, q) else
      (true, ⟨q.heap.push (q.entrant key p timeout now), q.turns + 1⟩) := rfl

/-- There are fewer packets after that exactly if there was one to take off. -/
theorem cancel_fst : (q.cancel key).1 = q.contains key := by
  rw [Bool.eq_iff_iff, contains_iff]
  show decide ((q.heap.items.filter _).length < q.heap.items.length) = true ↔ _
  rw [decide_eq_true_iff, List.length_filter_lt_length_iff_exists]
  refine exists_congr fun x => and_congr_right fun _ => ?_
  simp

end

/-- The packets on timers, in the order in which they are due. -/
structure Lined (q : ContentionHeap) (row : List Entrant) : Prop where
  kept : q.heap.Row row
  started : ∀ x ∈ row, x.turn < q.turns
  distinct : (row.map fun x => x.key).Nodup

namespace Lined

theorem empty (turns : Nat) : Lined ⟨{}, turns⟩ [] := ⟨⟨.nil, .nil⟩, by simp, .nil⟩

variable {q : ContentionHeap} {row : List Entrant}

/-- The packets on timers are those of the row. -/
theorem mem_pending (h : q.Lined row) {x : Entrant} : x ∈ q.pending ↔ x ∈ row :=
  h.kept.perm.mem_iff

/-- The row is in order. -/
theorem ordered (h : q.Lined row) : row.Pairwise Entrant.Before :=
  h.kept.falling.imp Entrant.compare_eq_gt.mp

/-- Those that are due by a time come first. -/
theorem split (h : q.Lined row) (time : Nat) :
    let test (x : Entrant) := decide (x.deadline ≤ time)
    row.takeWhile test = row.filter test ∧ row.dropWhile test = row.filter fun x => !test x := by
  intro test
  refine takeWhile_eq_filter h.ordered fun x y hbefore hy => ?_
  exact decide_eq_true (hbefore.deadline_le.trans (of_decide_eq_true hy))

/-- Fewer packets leave no two of one kind, and no turn that has not been. -/
theorem of_filter (h : q.Lined row) {q' : ContentionHeap} {keep : Entrant → Bool}
    (hkept : q'.heap.Row (row.filter keep)) (hturns : q'.turns = q.turns) :
    q'.Lined (row.filter keep) := by
  refine ⟨hkept, fun x hx => ?_, h.distinct.sublist (List.filter_sublist.map _)⟩
  rw [hturns]
  exact h.started x (List.mem_filter.mp hx).1

/-- A packet that comes last goes behind all that are due no later. -/
theorem schedule (h : q.Lined row) {key : ContentionKey} (hfree : q.contains key = false)
    (p : Parcel) (timeout now : Nat) :
    (q.schedule key p timeout now).2.Lined ((q.entrant key p timeout now).place row) := by
  set x := q.entrant key p timeout now with hx
  have hperm := x.place_perm row
  rw [schedule_eq, if_neg (Bool.eq_false_iff.mp hfree), ← hx]
  obtain ⟨hsooner, hlater⟩ := h.split x.deadline
  refine ⟨?_, fun y hy => ?_, ?_⟩
  · -- among those due at the same time the new one comes last, for its turn does
    refine h.kept.push List.takeWhile_append_dropWhile.symm (fun y hy => ?_) fun y hy => ?_
    · rw [hsooner] at hy
      obtain ⟨hy, hdue⟩ := List.mem_filter.mp hy
      have hle := of_decide_eq_true hdue
      have hturn : y.turn < x.turn := h.started y hy
      rw [Entrant.compare_eq_gt]
      unfold Entrant.Before
      omega
    · rw [hlater] at hy
      obtain ⟨-, hle⟩ := List.mem_filter.mp hy
      have hlt : x.deadline < y.deadline := by simpa using hle
      exact Entrant.compare_eq_gt.mpr (.inl hlt)
  · show y.turn < q.turns + 1
    rcases List.mem_cons.mp (hperm.mem_iff.mp hy) with rfl | hy
    · exact Nat.lt_succ_self _
    · exact Nat.lt_succ_of_lt (h.started y hy)
  · refine (hperm.map _).nodup_iff.mpr (List.nodup_cons.mpr ⟨fun hmem => ?_, h.distinct⟩)
    obtain ⟨y, hy, hkey⟩ := List.mem_map.mp hmem
    rw [(q.contains_iff key).mpr ⟨y, h.mem_pending.mpr hy, hkey⟩] at hfree
    exact absurd hfree (by decide)

/-- A packet that is heard from another station leaves its place. -/
theorem cancel (h : q.Lined row) (key : ContentionKey) :
    (q.cancel key).2.Lined (row.filter fun x => !decide (x.key = key)) :=
  h.of_filter (h.kept.retain _) rfl

/-- What is due is the first part of the row, and the rest stays. -/
theorem takeDue (h : q.Lined row) (now : Nat) :
    (q.takeDue now).1 = row.filter (fun x => decide (x.deadline ≤ now * nanosPerMilli)) ∧
    (q.takeDue now).2.Lined
      (row.filter fun x => !decide (x.deadline ≤ now * nanosPerMilli)) := by
  obtain ⟨hdue, hrest⟩ := h.kept.popWhile fun x => isDue now x.toContender
  obtain ⟨htake, hdrop⟩ := h.split (now * nanosPerMilli)
  exact ⟨hdue.trans htake, h.of_filter (hdrop ▸ hrest) rfl⟩

end Lined

/-- What an operation leaves of a row, with the packet that it puts on a timer. -/
def next (q : ContentionHeap) (row : List Entrant) (op : Operation) : List Entrant :=
  match op with
  | .schedule key p timeout now =>
    if q.contains key then row else (q.entrant key p timeout now).place row
  | op => row.filter fun x => !x.leaves op

section

variable {q : ContentionHeap} {row : List Entrant}

/-- Whatever is asked of the timers, they stay in a row. -/
theorem Lined.perform (h : q.Lined row) (op : Operation) :
    (q.perform op).2.Lined (q.next row op) := by
  unfold next
  cases op with
  | schedule key p timeout now =>
    show (q.schedule key p timeout now).2.Lined _
    dsimp only
    split
    · next hrunning => rwa [schedule_eq, if_pos hrunning]
    · next hfree => exact h.schedule (Bool.eq_false_iff.mpr hfree) p timeout now
  | cancel key => exact h.cancel key
  | clear =>
    show (q.clear).2.Lined (row.filter fun _ => false)
    rw [List.filter_false]
    exact .empty q.turns
  | fire now => exact (h.takeDue now).2

/-- The heap and the row answer alike, and hold the same packets after that. -/
theorem Lined.agree (h : q.Lined row) {s : ContentionQueue}
    (hs : s.contenders = row.map Entrant.toContender) (op : Operation) :
    (q.perform op).1 = (s.perform op).1 ∧
    (s.perform op).2.contenders = (q.next row op).map Entrant.toContender := by
  have hcontains (key : ContentionKey) : s.contains key = q.contains key := by
    rw [Bool.eq_iff_iff, q.contains_iff, ContentionQueue.contains_iff, hs, List.map_map,
      List.mem_map]
    exact exists_congr fun x => and_congr_left fun _ => h.mem_pending.symm
  cases op with
  | schedule key p timeout now =>
    have hrow : s.schedule key p timeout now = if q.contains key then (false, s) else
        (true, ⟨(q.next row (.schedule key p timeout now)).map Entrant.toContender⟩) := by
      unfold ContentionQueue.schedule next
      rw [hcontains]
      dsimp only
      split
      · rfl
      · -- by turn and by deadline a packet comes to the same place
        rw [Entrant.map_place, hs]
        rfl
    have hanswer : (q.schedule key p timeout now).1 = (s.schedule key p timeout now).1 := by
      rw [schedule_eq, hrow]
      cases q.contains key <;> rfl
    refine ⟨congrArg Answer.scheduled hanswer, ?_⟩
    show (s.schedule key p timeout now).2.contenders = _
    rw [hrow]
    unfold next
    dsimp only
    split
    · exact hs
    · rfl
  | cancel key =>
    refine ⟨congrArg Answer.cancelled ((q.cancel_fst key).trans (hcontains key).symm), ?_⟩
    show s.contenders.filter _ = (row.filter _).map _
    rw [hs, List.filter_map]
    rfl
  | clear =>
    refine ⟨congrArg Answer.cleared ?_, ?_⟩
    · show q.heap.items.length = s.contenders.length
      rw [hs, List.length_map, h.kept.perm.length_eq]
    · show [] = (row.filter fun _ => false).map _
      rw [List.filter_false]
      rfl
  | fire now =>
    have hdue : s.contenders.filter (isDue now) =
        (q.takeDue now).1.map Entrant.toContender := by
      rw [(h.takeDue now).1, hs, List.filter_map]
      rfl
    refine ⟨congrArg Answer.fired ?_, ?_⟩
    · show _ = ((s.contenders.filter (isDue now)).map _).filter _
      rw [hdue, List.map_map]
      rfl
    · show s.contenders.filter _ = (row.filter _).map _
      rw [hs, List.filter_map]
      rfl

/-- By induction on the operations, the last one last. -/
theorem lined_after (ops : List Operation) :
    ∃ row, (after {} ops).Lined row ∧
      (feed perform {} ops).1 = (feed ContentionQueue.perform {} ops).1 ∧
      (feed ContentionQueue.perform {} ops).2.contenders = row.map Entrant.toContender := by
  induction ops using List.reverseRecOn with
  | nil => exact ⟨[], .empty 0, rfl, rfl⟩
  | append_singleton ops op ih =>
    obtain ⟨row, hlined, hanswers, hcontenders⟩ := ih
    unfold after
    rw [feed_concat, feed_concat]
    obtain ⟨hanswer, hnext⟩ := hlined.agree hcontenders op
    refine ⟨_, hlined.perform op, ?_, hnext⟩
    rw [hanswers]
    exact congrArg (_ ++ [·]) hanswer

end

end ContentionHeap

end Geocast
