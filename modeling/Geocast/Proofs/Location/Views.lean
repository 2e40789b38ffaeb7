import Geocast.Proofs.Location.Integrity
import Geocast.Proofs.Location.Sweep

/-!
# Who is in the table

A table can be asked about a station in several ways: for its entry, for its entry to be changed,
for all entries, by sweeping, and by what a new position vector does. A station is alive if the
stamp of its entry lies at most a second ahead of the clock, or behind it by at most the lifetime
of the table, and whichever way one asks, the answer is whether it is alive (`AnswersAlike`). What
is seen of the whole table, and what a sweep leaves of it, are the entries of the stations that are
(`ShowsLive`). So it is in every table that operations lead to, also where entries were changed in
place (`views_agree`).
-/

namespace Geocast

namespace LocationTable

variable {t t' : LocationTable} {own a : Address} {lifetimeMillis : Nat} {now : Timestamp}
  {e : Entry}

/-! ## Tables that come about -/

/-- What is stored of a station after one live entry was changed, whichever it was. -/
theorem get?_modifyLive {b : Address} {f : Entry → Entry}
    (h : t.modifyLive? b now f = some t') (a : Address) :
    t'.stations.get? a = if b = a then (t.find? a now).map f else t.stations.get? a := by
  obtain ⟨e, he, rfl⟩ := Option.map_eq_some_iff.mp h
  by_cases ha : b = a
  · subst ha
    rw [if_pos rfl, he]
    exact AddressMap.get?_insert_self _ _ _
  · rw [if_neg ha]
    exact AddressMap.get?_insert_of_ne _ _ (Ne.symm ha)

/-- The tables of a station that operations lead to, where live entries may also be changed in
any way that leaves them their address. -/
inductive Reached (own : Address) (lifetimeMillis : Nat) : LocationTable → Prop
  | made : Reached own lifetimeMillis (make own lifetimeMillis)
  | performed {t : LocationTable} (before : Reached own lifetimeMillis t) (op : Operation) :
      Reached own lifetimeMillis (t.perform op).2
  | modified {t t' : LocationTable} {a : Address} {now : Timestamp} {f : Entry → Entry}
      (before : Reached own lifetimeMillis t) (keeps : ∀ e, (f e).address = e.address)
      (found : t.modifyLive? a now f = some t') : Reached own lifetimeMillis t'

/-- Every entry stands under its own address, and that is not the own one. -/
def Addressed (t : LocationTable) : Prop :=
  ∀ a e, t.stations.get? a = some e → a ≠ t.own ∧ e.address = a

/-- No operation moves an entry to another address. -/
theorem persists_addressed (own : Address) :
    Persists own fun a e => a ≠ own ∧ e.address = a where
  made := fun _ _ hother => ⟨hother, rfl⟩
  placeholder := fun _ _ hother => ⟨hother, rfl⟩
  refreshed := fun _ _ _ _ h _ => h
  noted := fun _ e n h => by
    obtain ⟨last, hnoted⟩ := e.exists_noted_eq n
    rwa [hnoted]
  recordFrame := fun _ _ _ _ h => h

namespace Reached

/-- A table stays that of its station. -/
theorem own_eq (h : Reached own lifetimeMillis t) : t.own = own := by
  induction h with
  | made => rfl
  | performed _ op ih => rw [perform_own, ih]
  | modified _ _ found ih =>
    obtain ⟨e, -, rfl⟩ := Option.map_eq_some_iff.mp found
    exact ih

/-- The lifetime is the one that was asked for, or the longest there is. -/
theorem lifetime_eq (h : Reached own lifetimeMillis t) :
    t.lifetime.toNat = min lifetimeMillis 4294967295 := by
  induction h with
  | made => exact UInt32.toNat_ofNat_of_lt (Nat.lt_succ_of_le (Nat.min_le_right _ _))
  | performed _ op ih => rw [perform_lifetime, ih]
  | modified _ _ found ih =>
    obtain ⟨e, -, rfl⟩ := Option.map_eq_some_iff.mp found
    exact ih

/-- So in every such table each entry stands under its address. -/
theorem addressed (h : Reached own lifetimeMillis t) : t.Addressed := by
  induction h with
  | made => exact fun a e he => absurd he (by simp [make, AddressMap.get?_empty])
  | @performed t _ op ih =>
    unfold Addressed
    rw [perform_own]
    exact (persists_addressed t.own).perform ih op
  | @modified t t' b now f before keeps found ih =>
    have hown : t'.own = t.own := by
      obtain ⟨e, -, rfl⟩ := Option.map_eq_some_iff.mp found
      rfl
    intro a e he
    rw [hown]
    rw [get?_modifyLive found] at he
    split at he
    · obtain ⟨e₀, hfind, rfl⟩ := Option.map_eq_some_iff.mp he
      rw [keeps]
      exact ih a e₀ ((find?_eq_some_iff t a now e₀).mp hfind).1
    · exact ih a e he

end Reached

/-! ## One station -/

/-- A station has an entry whose stamp lies at most a second ahead of the clock, or behind it by at
most the lifetime of the table. -/
def Alive (t : LocationTable) (a : Address) (now : Timestamp) : Prop :=
  ∃ e, t.stations.get? a = some e ∧
    (e.position.timestamp.ahead now ≤ 1000 ∨ now.ahead e.position.timestamp ≤ t.lifetime.toNat)

/-- A station is alive if it is found. -/
theorem alive_iff : t.Alive a now ↔ ∃ e, t.find? a now = some e := by
  unfold Alive
  simp only [find?_eq_some_iff, fresh_iff]

theorem isSome_find?_iff : (t.find? a now).isSome = true ↔ t.Alive a now := by
  rw [Option.isSome_iff_exists, alive_iff]

/-- The ways to ask whether a station is alive. -/
structure AnswersAlike (t : LocationTable) (a : Address) (now : Timestamp) : Prop where
  find : (t.find? a now).isSome = true ↔ t.Alive a now
  modify : ∀ f, (t.modifyLive? a now f).isSome = true ↔ t.Alive a now
  listed : (∃ e ∈ t.entries now, e.address = a) ↔ t.Alive a now
  survives : ((t.purgeStale now).2.stations.get? a).isSome = true ↔ t.Alive a now
  update : ∀ v neighbor, v.address = a →
    ((t.update v neighbor now).1.created = false ↔ t.Alive a now)

/-- In a table like that all ways to ask agree. -/
theorem Addressed.answersAlike (h : t.Addressed) (hother : a ≠ t.own) (now : Timestamp) :
    t.AnswersAlike a now where
  find := isSome_find?_iff
  modify f := by
    unfold modifyLive?
    rw [Option.isSome_map, isSome_find?_iff]
  listed := by
    rw [alive_iff]
    constructor
    · rintro ⟨e, he, rfl⟩
      obtain ⟨b, hfind⟩ := mem_entries_iff.mp he
      obtain ⟨hget, -⟩ := (find?_eq_some_iff t b now e).mp hfind
      obtain ⟨-, rfl⟩ := h b e hget
      exact ⟨e, hfind⟩
    · rintro ⟨e, hfind⟩
      obtain ⟨hget, -⟩ := (find?_eq_some_iff t a now e).mp hfind
      exact ⟨e, mem_entries_iff.mpr ⟨a, hfind⟩, (h a e hget).2⟩
  survives := by rw [get?_purgeStale, isSome_find?_iff]
  update v neighbor hv := by
    subst hv
    rw [← Bool.not_eq_true, created_update_iff, ← isSome_find?_iff, Option.isSome_iff_ne_none]
    exact not_and.trans (forall_prop_of_true hother)

/-- With the longest lifetime whatever is stored is alive. -/
theorem alive_iff_of_longest (h : t.lifetime.toNat = 4294967295) :
    t.Alive a now ↔ (t.stations.get? a).isSome = true := by
  have hbehind (stamp : Timestamp) : now.ahead stamp ≤ t.lifetime.toNat := by
    have hmillis := (now.millis - stamp.millis).toNat_lt
    unfold Timestamp.ahead
    omega
  unfold Alive
  rw [Option.isSome_iff_exists]
  simp only [hbehind, or_true, and_true]

/-! ## All of them -/

/-- Each station that is seen stands once among the entries. -/
theorem Addressed.nodup_entries (h : t.Addressed) (now : Timestamp) :
    ((t.entries now).map Entry.address).Nodup := by
  have haddresses : t.stations.values.map Entry.address = t.stations.toList.map Prod.fst := by
    unfold AddressMap.values
    rw [List.map_map]
    refine List.map_congr_left fun x hx => ?_
    exact (h x.1 x.2 ((AddressMap.get?_eq_some_iff t.stations x.1 x.2).mpr hx)).2
  have hstations := t.stations.nodup
  rw [← haddresses] at hstations
  exact hstations.sublist (List.filter_sublist.map _)

/-- What a sweep drops and what is shown make up all that is stored. -/
theorem purgeStale_fst_add (t : LocationTable) (now : Timestamp) :
    (t.purgeStale now).1 + (t.entries now).length = t.size := by
  have hleft : (t.purgeStale now).2.stations.size = (t.entries now).length := by
    rw [← values_purgeStale, AddressMap.values, List.length_map]
    rfl
  have hless : (t.purgeStale now).2.stations.size ≤ t.stations.size := List.length_filter_le _ _
  have hcount : (t.purgeStale now).1 = t.stations.size - (t.purgeStale now).2.stations.size := rfl
  unfold size
  omega

/-- What is seen of a table, and what a sweep leaves of it. -/
structure ShowsLive (t : LocationTable) (now : Timestamp) : Prop where
  /-- Each station that is seen is listed once. -/
  distinct : ((t.entries now).map Entry.address).Nodup
  /-- A sweep takes out as many entries as are not seen. -/
  purged : (t.purgeStale now).1 + (t.entries now).length = t.size
  /-- It leaves the others as they are. -/
  left : (t.purgeStale now).2.stations.values = t.entries now
  survivor : ∀ a, (t.purgeStale now).2.stations.get? a = t.find? a now
  position : ∀ a e, t.findPosition? a now = some e ↔ t.find? a now = some e ∧ e.pending = false
  neighbors : ∀ e, e ∈ t.neighbors now ↔
    e ∈ t.entries now ∧ e.pending = false ∧ e.neighbor = true
  hasNeighbors : t.hasNeighbors now = true ↔ t.neighbors now ≠ []
  /-- A placeholder is put in for another station that is not seen. -/
  inserted : ∀ a, (t.insertPending a now).1 = true ↔ a ≠ t.own ∧ t.find? a now = none

/-- Listing and sweeping agree with what is found. -/
theorem Addressed.showsLive (h : t.Addressed) (now : Timestamp) : t.ShowsLive now where
  distinct := h.nodup_entries now
  purged := t.purgeStale_fst_add now
  left := t.values_purgeStale now
  survivor a := t.get?_purgeStale a now
  position a e := by rw [findPosition?_eq_some_iff, find?_eq_some_iff, and_assoc]
  neighbors e := mem_neighbors_iff_mem_entries
  hasNeighbors := by
    unfold hasNeighbors
    rw [Bool.not_eq_true', List.isEmpty_eq_false_iff]
  inserted a := by
    unfold insertPending
    split
    · next hold =>
      refine iff_of_false Bool.false_ne_true fun hnew => ?_
      rw [hnew.2] at hold
      exact hold.elim hnew.1 (by simp)
    · next hnew =>
      rw [not_or, Option.not_isSome_iff_eq_none] at hnew
      exact iff_of_true rfl hnew

/-- In every table that operations on an empty one lead to, and at every time: all ways to ask
whether another station is alive answer alike, what is seen of the table are the entries of those
that are, and the lifetime by which that is told is the one the table was made with, up to the
longest, with which nothing stored is ever stale. -/
theorem views_agree (h : Reached own lifetimeMillis t) (now : Timestamp) :
    t.own = own ∧ t.lifetime.toNat = min lifetimeMillis 4294967295 ∧
    (∀ a, a ≠ own → t.AnswersAlike a now) ∧ t.ShowsLive now ∧
    (4294967295 ≤ lifetimeMillis →
      ∀ a, t.Alive a now ↔ (t.stations.get? a).isSome = true) := by
  have hown := h.own_eq
  have hlifetime := h.lifetime_eq
  refine ⟨hown, hlifetime, fun a hother => ?_, h.addressed.showsLive now, fun hlong a => ?_⟩
  · exact h.addressed.answersAlike (hown ▸ hother) now
  · exact alive_iff_of_longest (hlifetime.trans (min_eq_right hlong))

/-- One station is heard, the stamp of another one lies a millisecond too far ahead, and a third one
is being asked for. The sweep takes out one of the three entries. -/
theorem views_agree_of_three :
    let station (kind : UInt8) : Address := { kind }
    let heard (kind : UInt8) (millis : UInt32) : Operation :=
      .update { address := station kind, timestamp := ⟨millis⟩ } true ⟨1000⟩
    let t := (make {} 20000).after [heard 1 1000, heard 2 2001, .insertPending (station 3) ⟨1000⟩]
    Reached {} 20000 t ∧ t.lifetime.toNat = 20000 ∧
      t.AnswersAlike (station 1) ⟨1000⟩ ∧ t.Alive (station 1) ⟨1000⟩ ∧
      t.AnswersAlike (station 2) ⟨1000⟩ ∧ ¬ t.Alive (station 2) ⟨1000⟩ ∧
      (t.entries ⟨1000⟩).length = 2 ∧ (t.purgeStale ⟨1000⟩).1 = 1 := by
  intro station heard t
  have hreached : Reached {} 20000 t :=
    ((Reached.made.performed (heard 1 1000)).performed (heard 2 2001)).performed
      (.insertPending (station 3) ⟨1000⟩)
  obtain ⟨-, hlifetime, hstation, hshows, -⟩ := views_agree hreached ⟨1000⟩
  have hfirst := hstation (station 1) (by decide)
  have hsecond := hstation (station 2) (by decide)
  have hentries : (t.entries ⟨1000⟩).length = 2 := by decide +kernel
  have hsize : t.size = 3 := by decide +kernel
  have hpurged := hshows.purged
  exact ⟨hreached, hlifetime, hfirst, hfirst.find.mp (by decide +kernel), hsecond,
    fun halive => absurd (hsecond.find.mpr halive) (by decide +kernel), hentries, by omega⟩

end LocationTable

end Geocast
