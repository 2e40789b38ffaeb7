import Geocast.Proofs.Location.DuplicateList
import Geocast.Proofs.Location.Operations
import Geocast.Proofs.Scalar

/-!
# What every entry of a table is like

The address of a station stands in three places: as the key of its entry, in the entry, and in its
position vector. They agree in every table that operations can lead to, whatever clocks the
operations were given; the own station has no entry, a placeholder is no neighbour, and the numbers
remembered are in order (`Proper`). Each way in which an entry comes to be or changes keeps that,
and so does a run. What is found among the neighbours is therefore always another station whose
place is known (`proper_after`).
-/

namespace Geocast

/-- An entry as a table may hold it under an address. -/
structure Entry.Proper (own a : Address) (e : Entry) : Prop where
  other : a ≠ own
  address : e.address = a
  position : e.position.address = a
  unheard : e.pending = true → e.neighbor = false
  capacity : e.duplicates.capacity = 20
  tidy : e.duplicates.Tidy

namespace Entry

variable {own a : Address} {e : Entry} {v : LongPosition}

/-- An entry that a vector begins is as it should be. -/
theorem proper_ofPosition (hother : v.address ≠ own) (neighbor : Bool) :
    (ofPosition v neighbor).Proper own v.address where
  other := hother
  address := rfl
  position := rfl
  unheard := fun h => absurd h Bool.false_ne_true
  capacity := rfl
  tidy := DuplicateList.tidy_ofCapacity 20

/-- So is one that begins as a placeholder. -/
theorem proper_placeholder (hother : a ≠ own) (now : Timestamp) :
    (placeholder a now).Proper own a where
  other := hother
  address := rfl
  position := rfl
  unheard := fun _ => rfl
  capacity := rfl
  tidy := DuplicateList.tidy_ofCapacity 20

/-- Either of the two vectors that an entry can keep is one of its station. -/
theorem Proper.refreshed (h : e.Proper own a) (hv : v.address = a) (neighbor : Bool) :
    (e.refreshed v neighbor).Proper own a where
  other := h.other
  address := h.address
  position := by
    show (LocationTable.keptPosition e v).address = a
    unfold LocationTable.keptPosition
    split
    · exact hv
    · exact h.position
  unheard := fun hpending => absurd hpending Bool.false_ne_true
  capacity := h.capacity
  tidy := h.tidy

/-- A number that is noted leaves it so. -/
theorem Proper.noted (h : e.Proper own a) (n : SequenceNumber) : (e.noted n).Proper own a := by
  obtain ⟨last, hnoted⟩ := e.exists_noted_eq n
  rw [hnoted]
  exact { h with
    capacity := (e.duplicates.capacity_observe n).trans h.capacity
    tidy := h.tidy.observe n }

/-- As does a frame that is recorded. -/
theorem Proper.recordFrame (h : e.Proper own a) (length : Nat) (now : Timestamp) :
    (e.recordFrame length now).Proper own a := { h with }

end Entry

namespace LocationTable

/-- A table all of whose entries are as they should be. -/
def Proper (t : LocationTable) : Prop := ∀ a e, t.stations.get? a = some e → e.Proper t.own a

/-- A new table has no entry at all. -/
theorem proper_make (own : Address) (lifetimeMillis : Nat) : (make own lifetimeMillis).Proper := by
  intro a e he
  rw [show (make own lifetimeMillis).stations.get? a = none from rfl] at he
  exact absurd he (by simp)

variable {t : LocationTable}

/-- Whatever an operation does to an entry, it leaves it as it should be. -/
theorem persists_proper (own : Address) : Persists own fun a e => e.Proper own a where
  made := fun _ neighbor hother => Entry.proper_ofPosition hother neighbor
  placeholder := fun _ now hother => Entry.proper_placeholder hother now
  refreshed := fun _ _ _ neighbor h hv => h.refreshed hv neighbor
  noted := fun _ _ n h => h.noted n
  recordFrame := fun _ _ length now h => h.recordFrame length now

theorem Proper.perform (h : t.Proper) (op : Operation) : (t.perform op).2.Proper := by
  unfold Proper
  rw [perform_own]
  exact (persists_proper t.own).perform h op

/-- So a table stays proper over any row of operations. -/
theorem Proper.after (h : t.Proper) (ops : List Operation) : (t.after ops).Proper := by
  induction ops generalizing t with
  | nil => exact h
  | cons op ops ih =>
    rw [after_cons]
    exact ih (h.perform op)

theorem after_own (t : LocationTable) (ops : List Operation) : (t.after ops).own = t.own := by
  induction ops generalizing t with
  | nil => rfl
  | cons op ops ih =>
    rw [after_cons, ih, perform_own]

/-- A neighbour is an entry with a known position. -/
theorem exists_of_mem_neighbors {now : Timestamp} {e : Entry} (h : e ∈ t.neighbors now) :
    ∃ a, t.stations.get? a = some e ∧ e.pending = false := by
  obtain ⟨a, hget, -, hpending, -⟩ := LocationTable.mem_neighbors_iff.mp h
  exact ⟨a, hget, hpending⟩

/-- Neighbours are other stations whose position is known. -/
theorem Proper.neighbor (h : t.Proper) {now : Timestamp} {e : Entry}
    (hmem : e ∈ t.neighbors now) : e.address ≠ t.own ∧ e.pending = false := by
  obtain ⟨a, hget, hpending⟩ := exists_of_mem_neighbors hmem
  have hproper := h a e hget
  exact ⟨hproper.address ▸ hproper.other, hpending⟩

/-- After every row of operations on an empty table: an entry stands under its own address, which
is also that of its position vector and not that of the own station; a placeholder is no
neighbour; and no more than twenty numbers are remembered, each once and for having come at least
once. So neither the neighbours nor the nearest of them, however distances are measured, are ever
the own station or a placeholder. -/
theorem proper_after (own : Address) (lifetimeMillis : Nat) (ops : List Operation) :
    let t := (make own lifetimeMillis).after ops
    (∀ a e, t.stations.get? a = some e →
      e.address = a ∧ e.position.address = a ∧ a ≠ own ∧
      (e.pending = true → e.neighbor = false) ∧
      e.duplicates.seen.length ≤ 20 ∧ (e.duplicates.seen.map Prod.fst).Nodup ∧
      ∀ entry ∈ e.duplicates.seen, 1 ≤ entry.2) ∧
    (∀ now, ∀ e ∈ t.neighbors now, e.address ≠ own ∧ e.pending = false) ∧
    ∀ (α : Type) [Scalar α] (distance : Point → α) now e d,
      t.nearest? distance now = some (e, d) → e.address ≠ own ∧ e.pending = false := by
  intro t
  have hproper : t.Proper := (proper_make own lifetimeMillis).after ops
  have hown : t.own = own := after_own _ ops
  have hneighbor (now : Timestamp) (e : Entry) (hmem : e ∈ t.neighbors now) :
      e.address ≠ own ∧ e.pending = false := hown ▸ hproper.neighbor hmem
  refine ⟨fun a e he => ?_, hneighbor, fun α _ distance now e d hnearest => ?_⟩
  · have h := hproper a e he
    exact ⟨h.address, h.position, hown ▸ h.other, h.unheard, h.capacity ▸ h.tidy.fits,
      h.tidy.distinct, h.tidy.counted⟩
  · exact hneighbor now e (Scalar.mem_of_leastBy? hnearest).1

/-- One station is heard directly, with a number, and another one is being asked for. -/
theorem proper_after_of_heard :
    let station : Address := { kind := 1 }
    let t := (make {} 20000).after [
      .update { address := station, timestamp := ⟨1000⟩ } true ⟨1000⟩, .checkSequence station ⟨7⟩,
      .insertPending { kind := 2 } ⟨1000⟩]
    (∃ e, t.stations.get? station = some e ∧ e.position.address = station ∧
      e.duplicates.seen = [(⟨7⟩, 1)] ∧ (e.duplicates.seen.map Prod.fst).Nodup) ∧
    (∃ e, t.stations.get? { kind := 2 } = some e ∧ e.pending = true ∧ e.neighbor = false) ∧
    ∃ e ∈ t.neighbors ⟨1000⟩, e.address ≠ {} ∧ e.pending = false := by
  intro station t
  obtain ⟨hentry, hneighbor, -⟩ := proper_after {} 20000 [
    .update { address := station, timestamp := ⟨1000⟩ } true ⟨1000⟩, .checkSequence station ⟨7⟩,
    .insertPending { kind := 2 } ⟨1000⟩]
  obtain ⟨e, he, hseen⟩ : ∃ e, t.stations.get? station = some e ∧
      e.duplicates.seen = [(⟨7⟩, 1)] := ⟨_, rfl, rfl⟩
  obtain ⟨-, hposition, -, -, -, hdistinct, -⟩ := hentry station e he
  obtain ⟨asked, hasked, hpending⟩ : ∃ e, t.stations.get? { kind := 2 } = some e ∧
      e.pending = true := ⟨_, rfl, rfl⟩
  obtain ⟨-, -, -, hunheard, -⟩ := hentry { kind := 2 } asked hasked
  obtain ⟨near, hnear⟩ := List.exists_mem_of_ne_nil (t.neighbors ⟨1000⟩) (by decide +kernel)
  exact ⟨⟨e, he, hposition, hseen, hdistinct⟩, ⟨asked, hasked, hpending, hunheard hpending⟩,
    near, hnear, hneighbor ⟨1000⟩ near hnear⟩

end LocationTable

end Geocast
