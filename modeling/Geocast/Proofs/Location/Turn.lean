import Geocast.Proofs.Circular
import Geocast.Proofs.Location.Operations

/-!
# Where the circles begin does not matter

Stamps and packet numbers live on circles, and what a table does depends on the ways between them
only. A `Turn` shifts all stamps and clocks by one amount and all packet numbers by another; a run
that is turned gives the same answers, turned (`run_turned`). The one thing that is not the same is
which of two opposite stamps or numbers counts as the newer one, so a run must not have to compare
such (`comparisons`). Ages are ways on the circle and need no such condition.
-/

namespace Geocast

/-! ## Values changed in place -/

namespace AddressMap

variable {α β : Type}

/-- A map is the list of its pairs. -/
theorem ext_toList {m m' : AddressMap α} (h : m.toList = m'.toList) : m = m' := by
  cases m
  cases m'
  obtain rfl := h
  rfl

/-- Every value changed, each under its address. -/
def map (f : α → β) (m : AddressMap α) : AddressMap β where
  toList := m.toList.map fun entry => (entry.1, f entry.2)
  nodup := by
    rw [List.map_map]
    exact m.nodup

variable (f : α → β) (m : AddressMap α)

theorem keys_map : (m.map f).toList.map Prod.fst = m.toList.map Prod.fst := by
  show (m.toList.map _).map Prod.fst = _
  rw [List.map_map]
  rfl

theorem values_map : (m.map f).values = m.values.map f := by
  show (m.toList.map _).map Prod.snd = (m.toList.map Prod.snd).map f
  rw [List.map_map, List.map_map]
  rfl

theorem size_map : (m.map f).size = m.size := List.length_map _

/-- What is stored under an address is changed as all values are. -/
theorem get?_map (a : Address) : (m.map f).get? a = (m.get? a).map f := by
  show ((m.toList.map _).find? _).map Prod.snd = ((m.toList.find? _).map Prod.snd).map f
  rw [List.find?_map, Option.map_map, Option.map_map]
  rfl

/-- Values that are changed are kept if those were that they come from. -/
theorem map_filter {keep : Address → α → Bool} {keep' : Address → β → Bool}
    (h : ∀ a v, keep' a (f v) = keep a v) : (m.filter keep).map f = (m.map f).filter keep' := by
  refine ext_toList ?_
  show (m.toList.filter _).map _ = (m.toList.map _).filter _
  rw [List.filter_map]
  congr 1
  refine List.filter_congr fun entry _ => ?_
  exact (h entry.1 entry.2).symm

/-- What is taken out is gone, before or after the change. -/
theorem map_erase (a : Address) : (m.erase a).map f = (m.map f).erase a :=
  m.map_filter f fun _ _ => rfl

/-- By whether the address is new, as it is in both maps or in neither. -/
theorem map_insert (a : Address) (v : α) : (m.insert a v).map f = (m.map f).insert a (f v) := by
  refine ext_toList ?_
  by_cases hknown : a ∈ m.toList.map Prod.fst
  · have hknown' : a ∈ (m.map f).toList.map Prod.fst := (m.keys_map f).symm ▸ hknown
    unfold insert
    rw [dif_pos hknown, dif_pos hknown']
    show (m.toList.map _).map _ = (m.toList.map _).map _
    rw [List.map_map, List.map_map]
    refine List.map_congr_left fun entry _ => ?_
    rw [Function.comp_apply, Function.comp_apply]
    split <;> rfl
  · have hknown' : a ∉ (m.map f).toList.map Prod.fst := (m.keys_map f).symm ▸ hknown
    unfold insert
    rw [dif_neg hknown, dif_neg hknown']
    exact List.map_append

end AddressMap

/-! ## Turning what there is -/

/-- By how much the circle of stamps and the circle of packet numbers are turned. -/
structure Turn where
  millis : UInt32
  places : UInt16

namespace Turn

variable (τ : Turn)

/-- A stamp or a clock, turned. -/
def stamp (s : Timestamp) : Timestamp := s.addMillis τ.millis

/-- A packet number, turned. -/
def number (n : SequenceNumber) : SequenceNumber := n.later τ.places

/-- A position vector with its stamp turned. -/
def position (v : LongPosition) : LongPosition := { v with timestamp := τ.stamp v.timestamp }

/-- A duplicate list with its numbers turned. -/
def duplicates (l : DuplicateList) : DuplicateList :=
  { l with seen := l.seen.map fun entry => (τ.number entry.1, entry.2) }

/-- An entry with its stamps and numbers turned. -/
def entry (e : Entry) : Entry :=
  { e with
    position := τ.position e.position
    lastSequence := e.lastSequence.map τ.number
    duplicates := τ.duplicates e.duplicates
    lastReception := e.lastReception.map τ.stamp }

/-- A table with its entries turned. -/
def table (t : LocationTable) : LocationTable := { t with stations := t.stations.map τ.entry }

/-- An operation with its clock, its stamps and its numbers turned. -/
def operation : LocationTable.Operation → LocationTable.Operation
  | .update v neighbor now => .update (τ.position v) neighbor (τ.stamp now)
  | .insertPending a now => .insertPending a (τ.stamp now)
  | .cancelPending a => .cancelPending a
  | .checkSequence a n => .checkSequence a (τ.number n)
  | .recordFrame a length now => .recordFrame a length (τ.stamp now)
  | .remove a => .remove a
  | .purgeStale now => .purgeStale (τ.stamp now)
  | .find a now => .find a (τ.stamp now)
  | .findPosition a now => .findPosition a (τ.stamp now)
  | .neighbors now => .neighbors (τ.stamp now)
  | .entries now => .entries (τ.stamp now)

/-- An answer with the entries in it turned: flags, checks and counts stay as they are. -/
def answer : LocationTable.Answer → LocationTable.Answer
  | .entry e? => .entry (e?.map τ.entry)
  | .entries es => .entries (es.map τ.entry)
  | answer => answer

end Turn

/-! ## What is compared -/

/-- Two stamps or two numbers, of which it is asked whether the first is newer. -/
inductive Comparison
  | stamps (a b : Timestamp)
  | numbers (a b : SequenceNumber)

/-- The two that are compared lie opposite each other. -/
def Comparison.Opposite : Comparison → Prop
  | .stamps a b => a.Opposite b
  | .numbers a b => a.Opposite b

instance (c : Comparison) : Decidable c.Opposite :=
  match c with
  | .stamps a b => inferInstanceAs (Decidable (a.Opposite b))
  | .numbers a b => inferInstanceAs (Decidable (a.Opposite b))

namespace LocationTable

/-- What an operation asks to be compared: the stamp of a vector with the one it may replace, the
clock with the time of the last frame, a number with the furthest one so far. -/
def comparisons (t : LocationTable) : Operation → List Comparison
  | .update v _ now =>
    match t.find? v.address now with
    | some e => if e.pending then [] else [.stamps v.timestamp e.position.timestamp]
    | none => []
  | .recordFrame a _ now =>
    match t.find? a now with
    | some e => (e.lastReception.map (.stamps now)).toList
    | none => []
  | .checkSequence a n =>
    match t.stations.get? a with
    | some e =>
      if e.duplicates.contains n then [] else (e.lastSequence.map (.numbers n)).toList
    | none => []
  | _ => []

/-- What a row of operations asks to be compared. -/
def allComparisons (t : LocationTable) : List Operation → List Comparison
  | [] => []
  | op :: ops => t.comparisons op ++ (t.perform op).2.allComparisons ops

end LocationTable

/-! ## Turning what is done -/

namespace DuplicateList

variable (τ : Turn) (l : DuplicateList) (n : SequenceNumber)

/-- A turned list remembers the turned numbers. -/
theorem contains_turned : (τ.duplicates l).contains (τ.number n) = l.contains n := by
  show ((l.seen.map _).any _) = l.seen.any _
  rw [List.any_map]
  refine List.any_congr rfl fun entry => ?_
  simp only [Function.comp_apply, Turn.number, SequenceNumber.later_inj]

/-- And forgets, when it is full, the same one. -/
theorem observe_turned :
    (τ.duplicates l).observe (τ.number n) = ((l.observe n).1, τ.duplicates (l.observe n).2) := by
  unfold observe
  rw [contains_turned]
  by_cases hknown : l.contains n = true
  · rw [if_pos hknown, if_pos hknown]
    refine Prod.ext rfl ?_
    unfold Turn.duplicates
    simp only [List.map_map]
    congr 1
    refine List.map_congr_left fun entry _ => ?_
    simp only [Function.comp_apply, Turn.number, SequenceNumber.later_inj]
    split <;> rfl
  · rw [if_neg hknown, if_neg hknown]
    refine Prod.ext rfl ?_
    unfold Turn.duplicates
    simp only [List.length_map, List.map_append]
    split
    · rw [List.map_drop]
      rfl
    · rfl

end DuplicateList

namespace Entry

variable (τ : Turn) {e : Entry}

/-- An entry stays as old as it is, since stamp and clock turn together. -/
theorem age_turned (e : Entry) (now : Timestamp) : (τ.entry e).age (τ.stamp now) = e.age now := by
  have hturned (a b : UInt32) : (a + τ.millis) - (b + τ.millis) = a - b := by grind
  show (if (e.position.timestamp.millis + τ.millis) - (now.millis + τ.millis) ≤ maxSkew then 0
    else (now.millis + τ.millis) - (e.position.timestamp.millis + τ.millis)) = _
  rw [hturned, hturned]
  rfl

/-- Of two stamps the same one is newer, unless they lie opposite each other. -/
theorem refreshed_turned {v : LongPosition}
    (h : e.pending = false → ¬ v.timestamp.Opposite e.position.timestamp) (neighbor : Bool) :
    (τ.entry e).refreshed (τ.position v) neighbor = τ.entry (e.refreshed v neighbor) := by
  have hkept : LocationTable.keptPosition (τ.entry e) (τ.position v) =
      τ.position (LocationTable.keptPosition e v) := by
    show (if e.pending || (τ.stamp v.timestamp).newerThan (τ.stamp e.position.timestamp) then
      τ.position v else τ.position e.position) = _
    unfold LocationTable.keptPosition
    cases hpending : e.pending with
    | true => rfl
    | false =>
      unfold Turn.stamp
      rw [Timestamp.newerThan_addMillis (h hpending)]
      split <;> rfl
  unfold refreshed
  rw [hkept]
  rfl

/-- The rate of frames is measured over the same time. -/
theorem recordFrame_turned {now : Timestamp}
    (h : ∀ last, e.lastReception = some last → ¬ now.Opposite last) (length : Nat) :
    (τ.entry e).recordFrame length (τ.stamp now) = τ.entry (e.recordFrame length now) := by
  have helapsed : ((e.lastReception.map τ.stamp).elim 0 fun last => (τ.stamp now).millisSince last)
      = e.lastReception.elim 0 fun last => now.millisSince last := by
    cases hlast : e.lastReception with
    | none => rfl
    | some last =>
      have hturned : (now.millis + τ.millis) - (last.millis + τ.millis) =
          now.millis - last.millis := by grind
      show (τ.stamp now).millisSince (τ.stamp last) = now.millisSince last
      unfold Timestamp.millisSince Turn.stamp
      rw [Timestamp.newerThan_addMillis (h last hlast)]
      unfold Timestamp.addMillis
      rw [hturned]
  unfold recordFrame
  rw [show (τ.entry e).lastReception = e.lastReception.map τ.stamp from rfl, helapsed]
  rfl

/-- Whether a number is ahead of the furthest one so far. -/
theorem ahead_turned {n : SequenceNumber}
    (h : ∀ last, e.lastSequence = some last → ¬ n.Opposite last) :
    ((τ.entry e).lastSequence.all fun last => (τ.number n).newerThan last) =
      e.lastSequence.all fun last => n.newerThan last := by
  show ((e.lastSequence.map τ.number).all fun last => (τ.number n).newerThan last) = _
  cases hlast : e.lastSequence with
  | none => rfl
  | some last => exact SequenceNumber.newerThan_later (h last hlast) τ.places

/-- A number has the same place among the others, unless it lies opposite the furthest one. -/
theorem check_turned {n : SequenceNumber}
    (h : e.duplicates.contains n = false →
      ∀ last, e.lastSequence = some last → ¬ n.Opposite last) :
    (τ.entry e).check (τ.number n) = e.check n := by
  unfold check
  rw [show (τ.entry e).duplicates = τ.duplicates e.duplicates from rfl,
    DuplicateList.contains_turned]
  cases hknown : e.duplicates.contains n with
  | true => rfl
  | false => rw [ahead_turned τ (h hknown)]

/-- It is then noted at the same place. -/
theorem noted_turned {n : SequenceNumber}
    (h : e.duplicates.contains n = false →
      ∀ last, e.lastSequence = some last → ¬ n.Opposite last) :
    (τ.entry e).noted (τ.number n) = τ.entry (e.noted n) := by
  unfold noted
  rw [show (τ.entry e).duplicates = τ.duplicates e.duplicates from rfl,
    DuplicateList.contains_turned, DuplicateList.observe_turned]
  cases hknown : e.duplicates.contains n with
  | true => rfl
  | false =>
    rw [if_neg Bool.false_ne_true, if_neg Bool.false_ne_true]
    unfold observeSequence
    dsimp only
    rw [ahead_turned τ (h hknown)]
    split <;> rfl

end Entry

namespace LocationTable

variable (τ : Turn) (t : LocationTable)

/-- What is shown is told by the age, and so is shown by the turned table as well. -/
theorem isLive_turned (e : Entry) (now : Timestamp) :
    (τ.table t).isLive (τ.entry e) (τ.stamp now) = t.isLive e now := by
  unfold isLive
  rw [Entry.age_turned]
  rfl

/-- A turned table stores the turned entries. -/
theorem get?_turned (a : Address) :
    (τ.table t).stations.get? a = (t.stations.get? a).map τ.entry :=
  t.stations.get?_map τ.entry a

/-- A turned table finds the turned entry. -/
theorem find?_turned (a : Address) (now : Timestamp) :
    (τ.table t).find? a (τ.stamp now) = (t.find? a now).map τ.entry := by
  unfold find?
  rw [get?_turned]
  cases t.stations.get? a with
  | none => rfl
  | some e =>
    rw [Option.map_some, Option.filter_some, Option.filter_some, isLive_turned]
    split <;> rfl

/-- It shows the same positions as known. -/
theorem findPosition?_turned (a : Address) (now : Timestamp) :
    (τ.table t).findPosition? a (τ.stamp now) = (t.findPosition? a now).map τ.entry := by
  unfold findPosition?
  rw [find?_turned]
  cases t.find? a now with
  | none => rfl
  | some e =>
    rw [Option.map_some, Option.filter_some, Option.filter_some]
    show (if e.hasPosition then some (τ.entry e) else none) = _
    split <;> rfl

/-- It lists its entries in the same order. -/
theorem entries_turned (now : Timestamp) :
    (τ.table t).entries (τ.stamp now) = (t.entries now).map τ.entry := by
  unfold entries
  rw [show (τ.table t).stations.values = t.stations.values.map τ.entry from
    t.stations.values_map τ.entry, List.filter_map]
  congr 1
  refine List.filter_congr fun e _ => ?_
  exact isLive_turned τ t e now

/-- It has the same neighbours. -/
theorem neighbors_turned (now : Timestamp) :
    (τ.table t).neighbors (τ.stamp now) = (t.neighbors now).map τ.entry := by
  unfold neighbors
  rw [entries_turned, List.filter_map]
  rfl

/-- A sweep drops the same entries. -/
theorem purgeStale_turned (now : Timestamp) :
    (τ.table t).purgeStale (τ.stamp now) = ((t.purgeStale now).1, τ.table (t.purgeStale now).2) := by
  have hstations : ((τ.table t).stations.filter fun _ e => (τ.table t).isLive e (τ.stamp now)) =
      (t.stations.filter fun _ e => t.isLive e now).map τ.entry :=
    (t.stations.map_filter τ.entry fun _ e => isLive_turned τ t e now).symm
  have hsize : (τ.table t).stations.size = t.stations.size := t.stations.size_map τ.entry
  unfold purgeStale
  dsimp only
  rw [hstations, hsize, AddressMap.size_map]
  rfl

/-- To store an entry and to turn it can be done in either order. -/
theorem turned_insert (a : Address) (e : Entry) :
    τ.table { t with stations := t.stations.insert a e } =
      { τ.table t with stations := (τ.table t).stations.insert a (τ.entry e) } := by
  unfold Turn.table
  rw [AddressMap.map_insert]

variable {t}

/-- An update of the turned table by the turned vector is the turned update. -/
theorem update_turned {v : LongPosition} {neighbor : Bool} {now : Timestamp}
    (h : ∀ c ∈ t.comparisons (.update v neighbor now), ¬ c.Opposite) :
    (τ.table t).update (τ.position v) neighbor (τ.stamp now) =
      ((t.update v neighbor now).1, τ.table (t.update v neighbor now).2) := by
  by_cases hown : v.address = t.own
  · rw [update_of_own hown, update_of_own (t := τ.table t) (v := τ.position v) hown]
  · have hfind' := find?_turned τ t v.address now
    cases hfind : t.find? v.address now with
    | none =>
      rw [hfind] at hfind'
      rw [update_of_new hown hfind, update_of_new (t := τ.table t) (v := τ.position v) hown hfind']
      unfold Turn.table
      rw [AddressMap.map_insert, AddressMap.map_erase]
      rfl
    | some e =>
      rw [hfind] at hfind'
      have hways : e.pending = false → ¬ v.timestamp.Opposite e.position.timestamp := by
        intro hpending
        refine h (.stamps v.timestamp e.position.timestamp) ?_
        simp [comparisons, hfind, hpending]
      rw [update_of_live hown hfind,
        update_of_live (t := τ.table t) (v := τ.position v) hown hfind', turned_insert,
        Entry.refreshed_turned τ hways]
      have hnewer : (e.pending ||
          (τ.stamp v.timestamp).newerThan (τ.stamp e.position.timestamp)) =
            (e.pending || v.timestamp.newerThan e.position.timestamp) := by
        cases hpending : e.pending with
        | true => rfl
        | false => exact Timestamp.newerThan_addMillis (hways hpending) τ.millis
      rw [← hnewer]
      rfl

/-- The same number is a duplicate, in order or late. -/
theorem checkSequence_turned {a : Address} {n : SequenceNumber}
    (h : ∀ c ∈ t.comparisons (.checkSequence a n), ¬ c.Opposite) :
    (τ.table t).checkSequence a (τ.number n) =
      ((t.checkSequence a n).1, τ.table (t.checkSequence a n).2) := by
  have hget' := get?_turned τ t a
  cases hget : t.stations.get? a with
  | none =>
    rw [hget] at hget'
    rw [checkSequence_of_none hget, checkSequence_of_none hget']
  | some e =>
    rw [hget] at hget'
    have hways : e.duplicates.contains n = false →
        ∀ last, e.lastSequence = some last → ¬ n.Opposite last := by
      intro hnew last hlast
      refine h (.numbers n last) ?_
      simp [comparisons, hget, hnew, hlast]
    rw [checkSequence_of_some hget, checkSequence_of_some hget', turned_insert,
      Entry.check_turned τ hways, Entry.noted_turned τ hways]

/-- A frame is recorded in the same entry. -/
theorem recordFrame_turned {a : Address} {length : Nat} {now : Timestamp}
    (h : ∀ c ∈ t.comparisons (.recordFrame a length now), ¬ c.Opposite) :
    (τ.table t).recordFrame a length (τ.stamp now) = τ.table (t.recordFrame a length now) := by
  have hfind' := find?_turned τ t a now
  cases hfind : t.find? a now with
  | none =>
    rw [hfind] at hfind'
    rw [recordFrame_of_none hfind, recordFrame_of_none hfind']
  | some e =>
    rw [hfind] at hfind'
    have hways : ∀ last, e.lastReception = some last → ¬ now.Opposite last := by
      intro last hlast
      refine h (.stamps now last) ?_
      simp [comparisons, hfind, hlast]
    rw [recordFrame_of_live hfind, recordFrame_of_live hfind', turned_insert,
      Entry.recordFrame_turned τ hways]

variable (t)

/-- A station begins to be looked for in both tables or in neither. -/
theorem insertPending_turned (a : Address) (now : Timestamp) :
    (τ.table t).insertPending a (τ.stamp now) =
      ((t.insertPending a now).1, τ.table (t.insertPending a now).2) := by
  unfold insertPending
  rw [find?_turned, Option.isSome_map]
  by_cases hold : a = t.own ∨ (t.find? a now).isSome
  · have hold' : a = (τ.table t).own ∨ (t.find? a now).isSome := hold
    rw [if_pos hold, if_pos hold']
  · have hold' : ¬ (a = (τ.table t).own ∨ (t.find? a now).isSome) := hold
    rw [if_neg hold, if_neg hold']
    exact Prod.ext rfl (turned_insert τ t a (.placeholder a now)).symm

/-- A lookup that is given up takes the same placeholder away. -/
theorem cancelPending_turned (a : Address) :
    (τ.table t).cancelPending a = τ.table (t.cancelPending a) := by
  unfold cancelPending
  have hpending : ((τ.table t).stations.get? a).any Entry.pending =
      (t.stations.get? a).any Entry.pending := by
    rw [get?_turned]
    cases t.stations.get? a <;> rfl
  rw [hpending]
  split
  · unfold Turn.table
    rw [AddressMap.map_erase]
  · rfl

/-- To remove a station is to remove the turned entry. -/
theorem remove_turned (a : Address) :
    (τ.table t).remove a = ((t.remove a).1.map τ.entry, τ.table (t.remove a).2) := by
  unfold remove
  rw [get?_turned]
  unfold Turn.table
  rw [AddressMap.map_erase]

variable {t}

/-- One operation, by its cases: what comes of it is paired with its answer in the same way before
and after. -/
theorem perform_turned {op : Operation} (h : ∀ c ∈ t.comparisons op, ¬ c.Opposite) :
    (τ.table t).perform (τ.operation op) =
      (τ.answer (t.perform op).1, τ.table (t.perform op).2) := by
  cases op with
  | update v neighbor now => exact congrArg (Prod.map Answer.updated id) (update_turned τ h)
  | insertPending a now =>
    exact congrArg (Prod.map Answer.inserted id) (insertPending_turned τ t a now)
  | cancelPending a => exact congrArg (Prod.mk Answer.done) (cancelPending_turned τ t a)
  | checkSequence a n => exact congrArg (Prod.map Answer.checked id) (checkSequence_turned τ h)
  | recordFrame a length now => exact congrArg (Prod.mk Answer.done) (recordFrame_turned τ h)
  | remove a => exact congrArg (Prod.map Answer.entry id) (remove_turned τ t a)
  | purgeStale now => exact congrArg (Prod.map Answer.purged id) (purgeStale_turned τ t now)
  | find a now => exact congrArg (fun e? => (Answer.entry e?, τ.table t)) (find?_turned τ t a now)
  | findPosition a now =>
    exact congrArg (fun e? => (Answer.entry e?, τ.table t)) (findPosition?_turned τ t a now)
  | neighbors now =>
    exact congrArg (fun es => (Answer.entries es, τ.table t)) (neighbors_turned τ t now)
  | entries now => exact congrArg (fun es => (Answer.entries es, τ.table t)) (entries_turned τ t now)

/-- So a whole row of operations turns, if none of its comparisons is of opposites. -/
theorem performAll_turned {ops : List Operation}
    (h : ∀ c ∈ t.allComparisons ops, ¬ c.Opposite) :
    (τ.table t).performAll (ops.map τ.operation) =
      ((t.performAll ops).1.map τ.answer, τ.table (t.performAll ops).2) := by
  induction ops generalizing t with
  | nil => rfl
  | cons op ops ih =>
    unfold allComparisons at h
    have hstep := perform_turned τ fun c hc => h c (List.mem_append_left _ hc)
    have hrest := ih fun c hc => h c (List.mem_append_right _ hc)
    rw [List.map_cons]
    unfold performAll
    rw [hstep]
    dsimp only
    rw [hrest]
    rfl

/-- A run in which no two opposite stamps and no two opposite numbers are compared can be turned as
one likes: with all stamps and clocks shifted by one amount and all packet numbers by another, the
table that was empty gives the same answers, shifted, and ends up with the same entries, shifted. -/
theorem run_turned (own : Address) (lifetimeMillis : Nat) {ops : List Operation}
    (h : ∀ c ∈ (make own lifetimeMillis).allComparisons ops, ¬ c.Opposite) (τ : Turn) :
    (make own lifetimeMillis).performAll (ops.map τ.operation) =
      (((make own lifetimeMillis).performAll ops).1.map τ.answer,
        τ.table ((make own lifetimeMillis).performAll ops).2) :=
  performAll_turned τ h

/-- The second vector and the second number are newer than the first also where the circles begin
between them. -/
theorem run_turned_across :
    let station : Address := { kind := 1 }
    let ops : List Operation := [
      .update { address := station, timestamp := ⟨1000⟩ } true ⟨1000⟩, .checkSequence station ⟨5⟩,
      .recordFrame station 100 ⟨1000⟩,
      .update { address := station, timestamp := ⟨2000⟩ } false ⟨2000⟩, .checkSequence station ⟨8⟩,
      .recordFrame station 100 ⟨2000⟩, .checkSequence station ⟨6⟩, .neighbors ⟨2000⟩]
    let τ : Turn := ⟨0xfffffa24, 0xfff9⟩
    (∀ c ∈ (make {} 20000).allComparisons ops, ¬ c.Opposite) ∧
      τ.stamp ⟨2000⟩ = ⟨500⟩ ∧ τ.number ⟨8⟩ = ⟨1⟩ ∧
      ((make {} 20000).performAll (ops.map τ.operation)).1 =
        ((make {} 20000).performAll ops).1.map τ.answer := by
  intro station ops τ
  have hways : ∀ c ∈ (make {} 20000).allComparisons ops, ¬ c.Opposite := by decide +kernel
  have hturned := run_turned {} 20000 hways τ
  refine ⟨hways, by decide, by decide, ?_⟩
  rw [hturned]

end LocationTable

end Geocast
