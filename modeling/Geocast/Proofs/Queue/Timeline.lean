import Geocast.Proofs.Queue.Timers

/-!
# The life of a packet on a timer

What becomes of a packet is decided by the first operation after its timer was started that takes
it off (`Fate`): it waits until then, comes off then and never again, and is sent then or never.
For a packet that is off its timer does not come back, as its turn has been (`filter_record`). The
main result, `timers_settled`, puts this together with the order in which packets come off.
-/

namespace Geocast

namespace ContentionHeap

open ContentionQueue (nanosPerMilli)

/-- The packets that an operation takes off their timers. -/
def departed (q : ContentionHeap) (op : Operation) : List Entrant :=
  q.pending.filter fun x => !decide (x ∈ (q.perform op).2.pending)

/-- The packets that an operation sends. -/
def broadcast (q : ContentionHeap) : Operation → List Entrant
  | .fire now => (q.takeDue now).1.filter fun x => !x.parcel.isExpired now
  | _ => []

/-- What happens to packets in a row of operations, and at which of them. -/
def record (event : ContentionHeap → Operation → List Entrant) (q : ContentionHeap) :
    List Operation → List (Operation × Entrant)
  | [] => []
  | op :: ops => (event q op).map (op, ·) ++ record event (q.perform op).2 ops

/-- The life of a packet in a row of operations: it stays on its timer as long as none of them takes
it off, the first that does takes it off once and for all, and if that is the end of its timer and
its lifetime has not passed, it is sent then and at no other time. -/
structure Fate (q : ContentionHeap) (x : Entrant) (ops : List Operation) : Prop where
  stays : x ∈ (q.after ops).pending ↔ ops.find? x.leaves = none
  goes : (record departed q ops).filter (fun e => decide (e.2 = x)) =
    ((ops.find? x.leaves).map (·, x)).toList
  sent : (record broadcast q ops).filter (fun e => decide (e.2 = x)) =
    (((ops.find? x.leaves).filter x.sentBy).map (·, x)).toList

theorem turns_le_perform (q : ContentionHeap) (op : Operation) :
    q.turns ≤ (q.perform op).2.turns := by
  cases op with
  | schedule key p timeout now =>
    show q.turns ≤ (q.schedule key p timeout now).2.turns
    unfold schedule
    split
    · exact Nat.le_refl _
    · exact Nat.le_succ _
  | cancel key => exact Nat.le_refl _
  | clear => exact Nat.le_refl _
  | fire now => exact Nat.le_refl _

/-- What is picked of packets that are all different. -/
theorem filter_of_nodup {xs : List Entrant} (hxs : xs.Nodup) {x : Entrant} {found : Prop}
    [Decidable found] (hfound : x ∈ xs ↔ found) :
    xs.filter (fun y => decide (y = x)) = if found then [x] else [] := by
  rw [List.filter_eq, List.Nodup.count hxs]
  by_cases hmem : x ∈ xs
  · rw [if_pos hmem, if_pos (hfound.mp hmem)]
    rfl
  · rw [if_neg hmem, if_neg (mt hfound.mpr hmem)]
    rfl

section

variable {q : ContentionHeap} {row : List Entrant} {x : Entrant}

theorem Lined.nodup_row (h : q.Lined row) : row.Nodup :=
  h.ordered.imp fun hbefore => hbefore.ne

/-- Of the packets that had a turn, those stay that an operation does not take off. -/
theorem Lined.mem_perform (h : q.Lined row) (hturn : x.turn < q.turns) (op : Operation) :
    x ∈ (q.perform op).2.pending ↔ x ∈ q.pending ∧ x.leaves op = false := by
  rw [(h.perform op).mem_pending, h.mem_pending]
  unfold next
  cases op with
  | schedule key p timeout now =>
    have hstays : x.leaves (.schedule key p timeout now) = false := rfl
    have hother : x ≠ q.entrant key p timeout now := by
      rintro rfl
      exact absurd hturn (Nat.lt_irrefl _)
    dsimp only
    split
    · simp [hstays]
    · rw [(Entrant.place_perm _ _).mem_iff, List.mem_cons]
      simp [hstays, hother]
  | cancel key => simp [List.mem_filter]
  | clear => simp [List.mem_filter]
  | fire now => simp [List.mem_filter]

theorem Lined.filter_departed (h : q.Lined row) (hturn : x.turn < q.turns) (op : Operation) :
    (q.departed op).filter (fun y => decide (y = x)) =
      if x ∈ q.pending ∧ x.leaves op = true then [x] else [] := by
  have hnodup : q.pending.Nodup := h.kept.perm.nodup_iff.mpr h.nodup_row
  refine filter_of_nodup (hnodup.filter _) ?_
  rw [List.mem_filter, Bool.not_eq_true', decide_eq_false_iff_not, h.mem_perform hturn]
  by_cases hx : x ∈ q.pending <;> simp [hx]

theorem Lined.filter_broadcast (h : q.Lined row) (op : Operation) :
    (q.broadcast op).filter (fun y => decide (y = x)) =
      if x ∈ q.pending ∧ x.leaves op = true ∧ x.sentBy op = true then [x] else [] := by
  cases op with
  | fire now =>
    have hsent : q.broadcast (.fire now) =
        (row.filter fun y => y.leaves (.fire now)).filter fun y => y.sentBy (.fire now) :=
      congrArg _ (h.takeDue now).1
    rw [hsent]
    refine filter_of_nodup ((h.nodup_row.filter _).filter _) ?_
    rw [List.mem_filter, List.mem_filter, h.mem_pending, and_assoc]
  | schedule key p timeout now => simp [broadcast, Entrant.sentBy]
  | cancel key => simp [broadcast, Entrant.sentBy]
  | clear => simp [broadcast, Entrant.sentBy]

/-- By induction on the operations: a packet that is off its timer does not come back, for its turn
has been. -/
theorem Lined.filter_record {event : ContentionHeap → Operation → List Entrant}
    {keep : Operation → Bool}
    (hevent : ∀ q row, Lined q row → x.turn < q.turns → ∀ op,
      (event q op).filter (fun y => decide (y = x)) =
        if x ∈ q.pending ∧ x.leaves op = true ∧ keep op = true then [x] else [])
    (h : q.Lined row) (hturn : x.turn < q.turns) (ops : List Operation) :
    (record event q ops).filter (fun e => decide (e.2 = x)) =
      if x ∈ q.pending then (((ops.find? x.leaves).filter keep).map (·, x)).toList else [] := by
  induction ops generalizing q row with
  | nil => simp [record]
  | cons op ops ih =>
    have hnext := ih (h.perform op) (hturn.trans_le (q.turns_le_perform op))
    have hfirst : ((event q op).map (op, ·)).filter (fun e => decide (e.2 = x)) =
        ((event q op).filter fun y => decide (y = x)).map (op, ·) := by
      rw [List.filter_map]
      rfl
    rw [record, List.filter_append, hnext, hfirst, hevent q row h hturn, List.find?_cons]
    simp only [h.mem_perform hturn]
    -- off its timer it has nothing more to do with what follows; on it, it goes now or waits on
    by_cases hx : x ∈ q.pending
    · cases hleaves : x.leaves op with
      | true => cases hkeep : keep op <;> simp [hx, hkeep, Option.filter]
      | false => simp [hx]
    · simp [hx]

theorem Lined.mem_after (h : q.Lined row) (hturn : x.turn < q.turns) (ops : List Operation) :
    x ∈ (q.after ops).pending ↔ x ∈ q.pending ∧ ops.find? x.leaves = none := by
  induction ops generalizing q row with
  | nil => simp [after, feed]
  | cons op ops ih =>
    have hnext := ih (h.perform op) (hturn.trans_le (q.turns_le_perform op))
    show x ∈ ((q.perform op).2.after ops).pending ↔ _
    rw [hnext, h.mem_perform hturn, List.find?_cons]
    cases x.leaves op <;> simp

theorem Lined.fate (h : q.Lined row) (hx : x ∈ q.pending) (ops : List Operation) :
    q.Fate x ops := by
  have hturn : x.turn < q.turns := h.started x (h.mem_pending.mp hx)
  refine ⟨?_, ?_, ?_⟩
  · rw [h.mem_after hturn]
    simp [hx]
  · have hevent (q : ContentionHeap) (row : List Entrant) (h : q.Lined row)
        (hturn : x.turn < q.turns) (op : Operation) :
        (departed q op).filter (fun y => decide (y = x)) =
          if x ∈ q.pending ∧ x.leaves op = true ∧ true = true then [x] else [] := by
      rw [h.filter_departed hturn]
      simp
    rw [h.filter_record hevent hturn ops, if_pos hx]
    cases ops.find? x.leaves <;> rfl
  · rw [h.filter_record (fun q row h _ op => h.filter_broadcast op) hturn ops, if_pos hx]

/-- Nothing is sent before the end of its timer. -/
theorem Lined.due_of_mem_broadcast (h : q.Lined row) {op : Operation}
    (hx : x ∈ q.broadcast op) :
    ∃ now, op = .fire now ∧ x.deadline ≤ now * nanosPerMilli := by
  cases op with
  | fire now =>
    have hdue := (List.mem_filter.mp hx).1
    rw [(h.takeDue now).1] at hdue
    exact ⟨now, rfl, of_decide_eq_true (List.mem_filter.mp hdue).2⟩
  | schedule key p timeout now => exact absurd hx List.not_mem_nil
  | cancel key => exact absurd hx List.not_mem_nil
  | clear => exact absurd hx List.not_mem_nil

theorem Lined.due_of_mem_record (h : q.Lined row) {ops : List Operation}
    {e : Operation × Entrant} (he : e ∈ record broadcast q ops) :
    ∃ now, e.1 = .fire now ∧ e.2.deadline ≤ now * nanosPerMilli := by
  induction ops generalizing q row with
  | nil => exact absurd he List.not_mem_nil
  | cons op ops ih =>
    rw [record, List.mem_append] at he
    rcases he with he | he
    · obtain ⟨y, hy, rfl⟩ := List.mem_map.mp he
      exact h.due_of_mem_broadcast hy
    · exact ih (h.perform op) he

/-- A packet that was overheard is not sent any more. -/
theorem Lined.silent_of_cancel (h : q.Lined row) (hx : x ∈ q.pending) (later : List Operation) :
    ∀ e ∈ record broadcast (q.cancel x.key).2 later, e.2 ≠ x := by
  have hsent := (h.fate hx (.cancel x.key :: later)).sent
  have hleaves : x.leaves (.cancel x.key) = true := decide_eq_true rfl
  rw [List.find?_cons_of_pos hleaves] at hsent
  intro e he
  exact of_decide_eq_false (Bool.eq_false_iff.mpr (List.filter_eq_nil_iff.mp hsent e he))

end

/-- After every row of operations, at any times: the timers answered as those do that are kept in a
row, and hold the same packets, in order of time and turn; no two of them are for the same packet. A
timer is not started, and nothing changes, exactly if one is running for the same packet. Otherwise
the packet gets a turn after all that are on timers, and whatever is done then: it stays until the
first operation that takes it off, which is that it is overheard, that all is cleared, or that the
time of the operation is not before the end of its timer; it comes off then and only then, and in
the last case is sent once, if its lifetime has not passed, and in the others never. What comes off
when timers end are exactly the packets that are due, in order of time and turn, and the others stay
as they are. A packet that was overheard is never sent after that, and none is sent before the end
of its timer. -/
theorem timers_settled (ops : List Operation) :
    let q := after {} ops
    let row := feed ContentionQueue.perform {} ops
    (feed perform {} ops).1 = row.1 ∧
    (∃ line, q.pending.Perm line ∧ line.Pairwise Entrant.Before ∧
      line.map Entrant.toContender = row.2.contenders) ∧
    (q.pending.map fun x => x.key).Nodup ∧
    (∀ key p timeout now,
      let x := q.entrant key p timeout now
      let r := q.schedule key p timeout now
      (r.1 = false ↔ ∃ y ∈ q.pending, y.key = key) ∧
      (r.1 = false → r.2 = q) ∧
      (r.1 = true → r.2.pending = x :: q.pending ∧ (∀ y ∈ q.pending, y.turn < x.turn) ∧
        ∀ later, r.2.Fate x later)) ∧
    (∀ now,
      let r := q.takeDue now
      let due (x : Entrant) := decide (x.deadline ≤ now * nanosPerMilli)
      r.1.Perm (q.pending.filter due) ∧ r.1.Pairwise Entrant.Before ∧
      r.2.pending.Perm (q.pending.filter fun x => !due x) ∧
      q.fire now = ((q.broadcast (.fire now)).map fun x => x.parcel, r.2)) ∧
    (∀ x ∈ q.pending, ∀ later,
      ∀ e ∈ record broadcast (q.cancel x.key).2 later, e.2 ≠ x) ∧
    ∀ e ∈ record broadcast {} ops,
      ∃ now, e.1 = .fire now ∧ e.2.deadline ≤ now * nanosPerMilli := by
  intro q row
  obtain ⟨line, hlined, hanswers, hcontenders⟩ := lined_after ops
  have hperm := hlined.kept.perm
  refine ⟨hanswers, ⟨line, hperm, hlined.ordered, hcontenders.symm⟩, ?_, ?_, ?_, ?_, ?_⟩
  · -- what the heap holds is what stands in the row, in some order
    exact (hperm.map _).nodup_iff.mpr hlined.distinct
  · intro key p timeout now x r
    cases hcontains : q.contains key with
    | true =>
      have hr : r = (false, q) := (q.schedule_eq key p timeout now).trans (if_pos hcontains)
      rw [hr]
      have hmem := (q.contains_iff key).mp hcontains
      refine ⟨⟨fun _ => hmem, fun _ => rfl⟩, fun _ => rfl, fun hstarted => ?_⟩
      exact absurd hstarted Bool.false_ne_true
    | false =>
      have hfree := Bool.eq_false_iff.mp hcontains
      have hr : r = (true, ⟨q.heap.push x, q.turns + 1⟩) :=
        (q.schedule_eq key p timeout now).trans (if_neg hfree)
      have hnext : r.2.Lined (x.place line) := hlined.schedule hcontains p timeout now
      rw [hr] at hnext ⊢
      refine ⟨⟨fun hrefused => ?_, fun hmem => ?_⟩, fun hrefused => ?_, ?_⟩
      · exact absurd hrefused.symm Bool.false_ne_true
      · exact absurd ((q.contains_iff key).mpr hmem) hfree
      · exact absurd hrefused.symm Bool.false_ne_true
      · refine fun _ => ⟨rfl, fun y hy => ?_, hnext.fate List.mem_cons_self⟩
        exact hlined.started y (hlined.mem_pending.mp hy)
  · intro now r due
    -- the due ones are the front of the row
    obtain ⟨hdue, hrest⟩ := hlined.takeDue now
    refine ⟨?_, ?_, ?_, ?_⟩
    · show r.1.Perm _
      rw [hdue]
      exact (hperm.filter due).symm
    · show r.1.Pairwise _
      rw [hdue]
      exact hlined.ordered.sublist List.filter_sublist
    · exact hrest.kept.perm.trans (hperm.filter _).symm
    · show (((q.takeDue now).1.map _).filter _, _) = _
      rw [List.filter_map]
      rfl
  · intro x hx later
    exact hlined.silent_of_cancel hx later
  · intro e he
    exact (Lined.empty 0).due_of_mem_record he

/-- Two packets are due together and come off in their turn before one that is due later, though
its timer was started first; a second timer is not started for any of them. One more packet is sent
as soon as its timer has ended, or never if it is overheard by then. -/
theorem timers_settled_of_three :
    let key (n : UInt16) : ContentionKey := ({}, ⟨n⟩)
    let parcel (n : UInt8) : Parcel := { frame := [n], lifetime := 60000 }
    let ops : List Operation := [
      .schedule (key 1) (parcel 1) 80000000 0, .schedule (key 2) (parcel 2) 20000000 0,
      .schedule (key 3) (parcel 3) 15000000 5]
    let q := after {} ops
    let fourth := q.entrant (key 4) (parcel 4) 50000000 10
    let r := q.schedule (key 4) (parcel 4) 50000000 10
    (q.schedule (key 2) (parcel 2) 10000000 10).1 = false ∧
    (q.fire 50).1 = [parcel 2, parcel 3] ∧
    r.1 = true ∧
    (record broadcast r.2 [.fire 59, .fire 60, .fire 61]).filter
      (fun e => decide (e.2 = fourth)) = [(.fire 60, fourth)] ∧
    (record broadcast r.2 [.fire 59, .cancel (key 4), .fire 60]).filter
      (fun e => decide (e.2 = fourth)) = [] := by
  intro key parcel ops q fourth r
  obtain ⟨-, -, -, hschedule, -⟩ := timers_settled ops
  have hstarted : r.1 = true := by decide +kernel
  have hfate := (((hschedule (key 4) (parcel 4) 50000000 10).2.2) hstarted).2.2
  refine ⟨(hschedule (key 2) (parcel 2) 10000000 10).1.mpr ?_, by decide +kernel, hstarted, ?_, ?_⟩
  · let second : Entrant :=
      { deadline := 20000000, key := key 2, parcel := parcel 2, turn := 1 }
    exact ⟨second, by decide +kernel, rfl⟩
  · exact (hfate _).sent.trans (by decide +kernel)
  · exact (hfate _).sent.trans (by decide +kernel)

end ContentionHeap

end Geocast
