import Geocast.Location.Table

/-!
# What the table knows of a station

Whether an entry is seen depends only on the stamp of its position vector: the stamp has to be
`Fresh`. When a frame of a station is heard, the table takes in the position vector, takes note of
the length, and looks up the number. Of each of these, and of placeholders and sweeps, one lemma
(`get?_update` and the like) says what becomes of the entry of any station, and the others are read
off it: a live entry keeps its record of numbers, a stale one loses it.
-/

namespace Geocast

namespace LocationTable

/-- Whether an entry with this stamp is seen: the stamp lies no further behind the clock than the
lifetime of the table, or slightly ahead of it. -/
def Fresh (t : LocationTable) (stamp now : Timestamp) : Prop :=
  stamp.millis - now.millis ≤ Entry.maxSkew ∨ now.millis - stamp.millis ≤ t.lifetime

instance (t : LocationTable) (stamp now : Timestamp) : Decidable (t.Fresh stamp now) :=
  inferInstanceAs (Decidable (_ ∨ _))

theorem fresh_congr {t t' : LocationTable} (h : t'.lifetime = t.lifetime)
    (stamp now : Timestamp) : t'.Fresh stamp now ↔ t.Fresh stamp now := by
  unfold Fresh
  rw [h]

/-- Whether a table shows an entry is a question of its stamp alone. -/
theorem isLive_iff (t : LocationTable) (e : Entry) (now : Timestamp) :
    t.isLive e now = true ↔ t.Fresh e.position.timestamp now := by
  unfold isLive Fresh Entry.age
  rw [decide_eq_true_iff]
  split
  · next h => exact ⟨fun _ => .inl h, fun _ => UInt32.zero_le⟩
  · next h => exact ⟨.inr, fun h' => h'.resolve_left h⟩

/-- What is found is what is stored and still fresh. -/
theorem find?_eq_some_iff (t : LocationTable) (a : Address) (now : Timestamp) (e : Entry) :
    t.find? a now = some e ↔
      t.stations.get? a = some e ∧ t.Fresh e.position.timestamp now := by
  unfold find?
  rw [Option.filter_eq_some_iff, isLive_iff]

/-- A position is found only of a station that is not merely asked for. -/
theorem findPosition?_eq_some_iff (t : LocationTable) (a : Address) (now : Timestamp)
    (e : Entry) :
    t.findPosition? a now = some e ↔
      t.stations.get? a = some e ∧ t.Fresh e.position.timestamp now ∧ e.pending = false := by
  unfold findPosition? Entry.hasPosition
  rw [Option.filter_eq_some_iff, find?_eq_some_iff, Bool.not_eq_true', and_assoc]

/-- The vector that is kept of the one known and the one heard. -/
def keptPosition (e : Entry) (v : LongPosition) : LongPosition :=
  if e.pending || v.timestamp.newerThan e.position.timestamp then v else e.position

end LocationTable

/-! ## What becomes of an entry -/

namespace Entry

/-- The entry after another position vector of its station. -/
def refreshed (e : Entry) (v : LongPosition) (neighbor : Bool) : Entry :=
  { e with
    position := LocationTable.keptPosition e v
    neighbor := e.neighbor || neighbor
    pending := false
    isNew := false }

/-- What the number of another packet of its station says of it. -/
def check (e : Entry) (n : SequenceNumber) : SequenceCheck :=
  if e.duplicates.contains n then .duplicate
  else if e.lastSequence.all fun last => n.newerThan last then .inOrder
  else .reordered

/-- The entry after the number of another packet of its station. -/
def noted (e : Entry) (n : SequenceNumber) : Entry :=
  let e' := { e with duplicates := (e.duplicates.observe n).2 }
  if e.duplicates.contains n then e' else (e'.observeSequence n).2

/-- A number is a duplicate exactly when the entry remembers it. -/
theorem check_eq_duplicate_iff (e : Entry) (n : SequenceNumber) :
    e.check n = .duplicate ↔ e.duplicates.contains n = true := by
  unfold check
  split
  · next hknown => exact ⟨fun _ => hknown, fun _ => rfl⟩
  · next hnew =>
    refine ⟨fun hcheck => ?_, fun hknown => absurd hknown hnew⟩
    split at hcheck
    · exact absurd hcheck (by decide)
    · exact absurd hcheck (by decide)

/-- Only the record of numbers changes. -/
theorem exists_noted_eq (e : Entry) (n : SequenceNumber) : ∃ last,
    e.noted n = { e with duplicates := (e.duplicates.observe n).2, lastSequence := last } := by
  unfold noted observeSequence
  dsimp only
  split
  · exact ⟨_, rfl⟩
  · split
    · exact ⟨_, rfl⟩
    · exact ⟨_, rfl⟩

end Entry

namespace LocationTable

variable {t : LocationTable} {v : LongPosition} {a : Address} {now : Timestamp} {e : Entry}

/-! ## Taking in a position vector -/

/-- A table learns nothing of its own station. -/
theorem update_of_own (h : v.address = t.own) (neighbor : Bool) (now : Timestamp) :
    t.update v neighbor now = ({}, t) := by
  unfold update
  rw [if_pos h]

/-- Of a station that the table does not show, the vector begins a new entry, with an empty
duplicate list. -/
theorem update_of_new (hother : v.address ≠ t.own) (h : t.find? v.address now = none)
    (neighbor : Bool) : t.update v neighbor now =
      ({ created := true, positionUpdated := true }, { t with
        stations := (t.stations.erase v.address).insert v.address (.ofPosition v neighbor) }) := by
  unfold update
  rw [if_neg hother]
  dsimp only
  rw [h]

/-- An entry that the table shows keeps what it has and takes the newer vector. -/
theorem update_of_live (hother : v.address ≠ t.own) (h : t.find? v.address now = some e)
    (neighbor : Bool) : t.update v neighbor now =
      ({ positionUpdated := e.pending || v.timestamp.newerThan e.position.timestamp
         resolvedPending := e.pending },
        { t with stations := t.stations.insert v.address (e.refreshed v neighbor) }) := by
  unfold update
  rw [if_neg hother]
  dsimp only
  rw [h]
  rfl

/-- What an update answers is read off the live entry of the station. -/
theorem update_fst (t : LocationTable) (v : LongPosition) (neighbor : Bool) (now : Timestamp) :
    (t.update v neighbor now).1 =
      if v.address = t.own then {}
      else (t.find? v.address now).elim { created := true, positionUpdated := true } fun e =>
        { positionUpdated := e.pending || v.timestamp.newerThan e.position.timestamp
          resolvedPending := e.pending } := by
  by_cases hown : v.address = t.own
  · rw [update_of_own hown, if_pos hown]
  · rw [if_neg hown]
    cases hfind : t.find? v.address now with
    | none => rw [update_of_new hown hfind, Option.elim_none]
    | some e => rw [update_of_live hown hfind, Option.elim_some]

/-- An entry is reported as created exactly if the table did not show one before, be it that a
stale one is stored. -/
theorem created_update_iff (t : LocationTable) (v : LongPosition) (neighbor : Bool)
    (now : Timestamp) : (t.update v neighbor now).1.created = true ↔
      v.address ≠ t.own ∧ t.find? v.address now = none := by
  rw [update_fst]
  split
  · next hown => exact ⟨fun h => absurd h Bool.false_ne_true, fun h => absurd hown h.1⟩
  · next hother => cases t.find? v.address now <;> simp [hother]

theorem update_own (t : LocationTable) (v : LongPosition) (neighbor : Bool) (now : Timestamp) :
    (t.update v neighbor now).2.own = t.own := by
  unfold update
  dsimp only
  split
  · rfl
  · split <;> rfl

theorem update_lifetime (t : LocationTable) (v : LongPosition) (neighbor : Bool)
    (now : Timestamp) : (t.update v neighbor now).2.lifetime = t.lifetime := by
  unfold update
  dsimp only
  split
  · rfl
  · split <;> rfl

/-- The entries of other stations stay as they are. -/
theorem update_get?_of_ne (neighbor : Bool) (now : Timestamp) {b : Address} (h : b ≠ v.address) :
    (t.update v neighbor now).2.stations.get? b = t.stations.get? b := by
  unfold update
  dsimp only
  split
  · rfl
  · split
    · exact AddressMap.get?_insert_of_ne _ _ h
    · exact (AddressMap.get?_insert_of_ne _ _ h).trans (AddressMap.get?_erase_of_ne _ h)

/-- What is stored of a station after an update, whoever the vector is of. -/
theorem get?_update (t : LocationTable) (a : Address) (v : LongPosition) (neighbor : Bool)
    (now : Timestamp) :
    (t.update v neighbor now).2.stations.get? a =
      if v.address = a ∧ a ≠ t.own then
        some <| (t.find? a now).elim (.ofPosition v neighbor) (·.refreshed v neighbor)
      else t.stations.get? a := by
  by_cases ha : v.address = a
  · subst ha
    by_cases hown : v.address = t.own
    · rw [update_of_own hown, if_neg fun h => h.2 hown]
    · rw [if_pos ⟨rfl, hown⟩]
      cases hfind : t.find? v.address now with
      | none =>
        rw [update_of_new hown hfind]
        exact AddressMap.get?_insert_self _ _ _
      | some e =>
        rw [update_of_live hown hfind]
        exact AddressMap.get?_insert_self _ _ _
  · rw [if_neg fun h => ha h.1]
    exact update_get?_of_ne neighbor now (Ne.symm ha)

/-! ## Taking note of a frame -/

/-- A frame of a station that is not shown is not recorded. -/
theorem recordFrame_of_none (h : t.find? a now = none) (length : Nat) :
    t.recordFrame a length now = t := by
  unfold recordFrame modifyLive?
  rw [h]
  rfl

/-- A frame is recorded in the entry of its station. -/
theorem recordFrame_of_live (h : t.find? a now = some e) (length : Nat) :
    t.recordFrame a length now =
      { t with stations := t.stations.insert a (e.recordFrame length now) } := by
  unfold recordFrame modifyLive?
  rw [h]
  rfl

theorem recordFrame_own (t : LocationTable) (a : Address) (length : Nat) (now : Timestamp) :
    (t.recordFrame a length now).own = t.own := by
  unfold recordFrame modifyLive?
  cases t.find? a now <;> rfl

theorem recordFrame_lifetime (t : LocationTable) (a : Address) (length : Nat)
    (now : Timestamp) : (t.recordFrame a length now).lifetime = t.lifetime := by
  unfold recordFrame modifyLive?
  cases t.find? a now <;> rfl

/-- And in no other. -/
theorem recordFrame_get?_of_ne (length : Nat) (now : Timestamp) {a b : Address} (h : b ≠ a) :
    (t.recordFrame a length now).stations.get? b = t.stations.get? b := by
  unfold recordFrame modifyLive?
  cases t.find? a now with
  | none => rfl
  | some e => exact AddressMap.get?_insert_of_ne _ _ h

/-- What is stored of a station after a frame, whoever the frame is of. -/
theorem get?_recordFrame (t : LocationTable) (a b : Address) (length : Nat) (now : Timestamp) :
    (t.recordFrame b length now).stations.get? a =
      if b = a then
        (t.stations.get? a).map fun e => if t.isLive e now then e.recordFrame length now else e
      else t.stations.get? a := by
  by_cases ha : b = a
  · subst ha
    rw [if_pos rfl]
    unfold recordFrame modifyLive? find?
    cases hget : t.stations.get? b with
    | none => exact hget
    | some e =>
      rw [Option.map_some, Option.filter_some]
      split
      · exact AddressMap.get?_insert_self _ _ _
      · exact hget
  · rw [if_neg ha]
    exact recordFrame_get?_of_ne length now (Ne.symm ha)

/-- Only the rate and the time of the last frame change. -/
theorem recordFrame_get?_self (length : Nat) (now : Timestamp) (h : t.stations.get? a = some e) :
    ∃ rate last, (t.recordFrame a length now).stations.get? a =
      some { e with rate := rate, lastReception := last } := by
  rw [get?_recordFrame, if_pos rfl, h, Option.map_some]
  split
  · exact ⟨_, _, rfl⟩
  · exact ⟨e.rate, e.lastReception, rfl⟩

/-! ## Taking note of a number -/

/-- Without an entry every number is in order, and nothing is noted. -/
theorem checkSequence_of_none (h : t.stations.get? a = none) (n : SequenceNumber) :
    t.checkSequence a n = (.inOrder, t) := by
  unfold checkSequence
  rw [h]

/-- With one, the number is checked against what the entry has noted, fresh or stale. -/
theorem checkSequence_of_some (h : t.stations.get? a = some e) (n : SequenceNumber) :
    t.checkSequence a n =
      (e.check n, { t with stations := t.stations.insert a (e.noted n) }) := by
  unfold checkSequence Entry.check Entry.noted Entry.observeSequence
  rw [h, ← DuplicateList.observe_fst]
  dsimp only
  cases (e.duplicates.observe n).1 with
  | true => rfl
  | false =>
    rw [if_neg Bool.false_ne_true, if_neg Bool.false_ne_true, if_neg Bool.false_ne_true]
    by_cases hahead : (e.lastSequence.all fun last => n.newerThan last) = true
    · simp only [hahead, if_true]
    · simp only [hahead, Bool.false_eq_true, if_false]

theorem checkSequence_own (t : LocationTable) (a : Address) (n : SequenceNumber) :
    (t.checkSequence a n).2.own = t.own := by
  unfold checkSequence
  split
  · rfl
  · dsimp only
    split <;> rfl

theorem checkSequence_lifetime (t : LocationTable) (a : Address) (n : SequenceNumber) :
    (t.checkSequence a n).2.lifetime = t.lifetime := by
  unfold checkSequence
  split
  · rfl
  · dsimp only
    split <;> rfl

/-- The entries of other stations stay as they are. -/
theorem checkSequence_get?_of_ne {a b : Address} (n : SequenceNumber) (h : b ≠ a) :
    (t.checkSequence a n).2.stations.get? b = t.stations.get? b := by
  unfold checkSequence
  split
  · rfl
  · dsimp only
    split
    · exact AddressMap.get?_insert_of_ne _ _ h
    · exact AddressMap.get?_insert_of_ne _ _ h

/-- What is stored of a station after a check, whichever number is checked. -/
theorem get?_checkSequence (t : LocationTable) (a b : Address) (n : SequenceNumber) :
    (t.checkSequence b n).2.stations.get? a =
      if b = a then (t.stations.get? a).map (·.noted n) else t.stations.get? a := by
  by_cases ha : b = a
  · subst ha
    rw [if_pos rfl]
    cases hget : t.stations.get? b with
    | none =>
      rw [checkSequence_of_none hget]
      exact hget
    | some e =>
      rw [checkSequence_of_some hget]
      exact AddressMap.get?_insert_self _ _ _
  · rw [if_neg ha]
    exact checkSequence_get?_of_ne n (Ne.symm ha)

/-- The number is a duplicate exactly when the entry remembers it, and only the record of numbers
changes. -/
theorem checkSequence_get?_self (n : SequenceNumber) (h : t.stations.get? a = some e) :
    ((t.checkSequence a n).1 = .duplicate ↔ e.duplicates.contains n = true) ∧
    ∃ last, (t.checkSequence a n).2.stations.get? a =
      some { e with duplicates := (e.duplicates.observe n).2, lastSequence := last } := by
  obtain ⟨last, hnoted⟩ := e.exists_noted_eq n
  rw [get?_checkSequence, if_pos rfl, h, checkSequence_of_some h, Option.map_some, hnoted]
  exact ⟨e.check_eq_duplicate_iff n, last, rfl⟩

/-- The entries that are listed are those that are found. -/
theorem mem_entries_iff : e ∈ t.entries now ↔ ∃ a, t.find? a now = some e := by
  unfold entries find?
  simp only [List.mem_filter, AddressMap.mem_values_iff, Option.filter_eq_some_iff,
    exists_and_right]

/-- The neighbours are those of the entries that were heard directly and whose place is known. -/
theorem mem_neighbors_iff_mem_entries :
    e ∈ t.neighbors now ↔ e ∈ t.entries now ∧ e.pending = false ∧ e.neighbor = true := by
  unfold neighbors Entry.hasPosition
  rw [List.mem_filter, Bool.and_eq_true, Bool.not_eq_true', and_comm (a := e.neighbor = true)]

/-- A neighbour is an entry of a station that was heard directly, is seen, and whose place is
known. -/
theorem mem_neighbors_iff : e ∈ t.neighbors now ↔ ∃ a, t.stations.get? a = some e ∧
    t.Fresh e.position.timestamp now ∧ e.pending = false ∧ e.neighbor = true := by
  rw [mem_neighbors_iff_mem_entries, mem_entries_iff, ← exists_and_right]
  simp only [find?_eq_some_iff, and_assoc]

/-- A neighbour that is seen counts. -/
theorem hasNeighbors_of_get? {a : Address} {e : Entry} (h : t.stations.get? a = some e)
    (hfresh : t.Fresh e.position.timestamp now) (hknown : e.pending = false)
    (hneighbor : e.neighbor = true) : t.hasNeighbors now = true := by
  have hmem : e ∈ t.neighbors now := mem_neighbors_iff.mpr ⟨a, h, hfresh, hknown, hneighbor⟩
  unfold hasNeighbors
  rw [Bool.not_eq_true', List.isEmpty_eq_false_iff]
  exact List.ne_nil_of_mem hmem

/-! ## Placeholders and stale entries -/

theorem insertPending_own (t : LocationTable) (a : Address) (now : Timestamp) :
    (t.insertPending a now).2.own = t.own := by
  unfold insertPending
  split <;> rfl

theorem insertPending_lifetime (t : LocationTable) (a : Address) (now : Timestamp) :
    (t.insertPending a now).2.lifetime = t.lifetime := by
  unfold insertPending
  split <;> rfl

/-- A station that begins to be looked for has a placeholder, unless it is shown or is the table's
own. -/
theorem get?_insertPending (t : LocationTable) (a b : Address) (now : Timestamp) :
    (t.insertPending b now).2.stations.get? a =
      if b = a ∧ a ≠ t.own ∧ t.find? a now = none then some (.placeholder a now)
      else t.stations.get? a := by
  unfold insertPending
  by_cases ha : b = a
  · subst ha
    by_cases hold : b = t.own ∨ (t.find? b now).isSome
    · have hkept : ¬ (b = b ∧ b ≠ t.own ∧ t.find? b now = none) := by
        rintro ⟨-, hother, hnone⟩
        rw [hnone] at hold
        exact hold.elim hother (by simp)
      rw [if_pos hold, if_neg hkept]
    · have hnew : b ≠ t.own ∧ t.find? b now = none := by
        rwa [not_or, Option.not_isSome_iff_eq_none] at hold
      rw [if_neg hold, if_pos ⟨rfl, hnew⟩]
      exact AddressMap.get?_insert_self _ _ _
  · have hkept : ¬ (b = a ∧ a ≠ t.own ∧ t.find? a now = none) := fun h => ha h.1
    rw [if_neg hkept]
    split
    · rfl
    · exact AddressMap.get?_insert_of_ne _ _ (Ne.symm ha)

/-- The only entry that comes in is the placeholder, and never for the own station. -/
theorem insertPending_get? {a b : Address} {e : Entry}
    (h : (t.insertPending a now).2.stations.get? b = some e) :
    t.stations.get? b = some e ∨ b = a ∧ a ≠ t.own ∧ e = .placeholder a now := by
  rw [get?_insertPending] at h
  split at h
  · next hnew =>
    obtain ⟨rfl, hother, -⟩ := hnew
    exact .inr ⟨rfl, hother, (Option.some.inj h).symm⟩
  · exact .inl h

/-- Where no place is known, asking for one leaves no entry but a placeholder. -/
theorem insertPending_pending {a : Address} (hother : t.stations.get? t.own = none)
    (hunknown : t.findPosition? a now = none) {e : Entry}
    (h : (t.insertPending a now).2.stations.get? a = some e) : e.pending = true := by
  rw [get?_insertPending] at h
  split at h
  · obtain rfl := Option.some.inj h
    rfl
  · next hold =>
    have hown : a ≠ t.own := by
      rintro rfl
      rw [hother] at h
      exact absurd h (by simp)
    have hlive : t.find? a now = some e := by
      cases hfind : t.find? a now with
      | none => exact absurd ⟨rfl, hown, hfind⟩ hold
      | some e' =>
        exact ((find?_eq_some_iff t a now e').mp hfind).1.symm.trans h
    -- a live entry whose place is not known is a placeholder already
    cases hpending : e.pending with
    | true => rfl
    | false =>
      have hfind := (find?_eq_some_iff t a now e).mp hlive
      have hposition := (findPosition?_eq_some_iff t a now e).mpr ⟨hfind.1, hfind.2, hpending⟩
      rw [hunknown] at hposition
      exact absurd hposition (by simp)

theorem cancelPending_own (t : LocationTable) (a : Address) :
    (t.cancelPending a).own = t.own := by
  unfold cancelPending
  split <;> rfl

theorem cancelPending_lifetime (t : LocationTable) (a : Address) :
    (t.cancelPending a).lifetime = t.lifetime := by
  unfold cancelPending
  split <;> rfl

/-- When a lookup was given up its placeholder goes, and a position stays. -/
theorem get?_cancelPending (t : LocationTable) (a b : Address) :
    (t.cancelPending b).stations.get? a =
      if b = a then (t.stations.get? a).filter (!·.pending) else t.stations.get? a := by
  unfold cancelPending
  by_cases ha : b = a
  · subst ha
    rw [if_pos rfl]
    cases hget : t.stations.get? b with
    | none =>
      rw [Option.any_none, if_neg Bool.false_ne_true, hget]
      rfl
    | some e =>
      rw [Option.any_some]
      cases hpending : e.pending with
      | true =>
        rw [if_pos rfl, Option.filter_some, hpending]
        exact AddressMap.get?_erase_self _ _
      | false =>
        rw [if_neg Bool.false_ne_true, Option.filter_some, hpending, hget]
        rfl
  · rw [if_neg ha]
    split
    · exact AddressMap.get?_erase_of_ne _ (Ne.symm ha)
    · rfl

/-- Taking a placeholder away adds nothing. -/
theorem cancelPending_get? {a b : Address} {e : Entry}
    (h : (t.cancelPending a).stations.get? b = some e) : t.stations.get? b = some e := by
  rw [get?_cancelPending] at h
  split at h
  · exact (Option.filter_eq_some_iff.mp h).1
  · exact h

/-- Afterwards there is none. -/
theorem cancelPending_pending {a : Address} {e : Entry}
    (h : (t.cancelPending a).stations.get? a = some e) : e.pending = false := by
  rw [get?_cancelPending, if_pos rfl] at h
  simpa using (Option.filter_eq_some_iff.mp h).2

/-- What is removed is gone, and all else stays. -/
theorem get?_remove (t : LocationTable) (a b : Address) :
    (t.remove b).2.stations.get? a = if b = a then none else t.stations.get? a := by
  by_cases ha : b = a
  · subst ha
    rw [if_pos rfl]
    exact AddressMap.get?_erase_self _ _
  · rw [if_neg ha]
    exact AddressMap.get?_erase_of_ne _ (Ne.symm ha)

/-- A sweep leaves what can be found. -/
theorem get?_purgeStale (t : LocationTable) (a : Address) (now : Timestamp) :
    (t.purgeStale now).2.stations.get? a = t.find? a now :=
  AddressMap.get?_filter _ _ _

/-- Sweeping adds nothing. -/
theorem purgeStale_get? {b : Address} {e : Entry}
    (h : (t.purgeStale now).2.stations.get? b = some e) : t.stations.get? b = some e := by
  rw [get?_purgeStale] at h
  exact ((find?_eq_some_iff t b now e).mp h).1

end LocationTable

end Geocast
