import Mathlib.Data.List.MinMax
import Geocast.Proofs.Circular
import Geocast.Proofs.Location.Integrity

/-!
# The freshest position

An entry is made when a station is first heard of or asked for, and again when what was known of it
is stale. What the table was told of the station since then is a row of position vectors (`told`),
empty as long as there is only a placeholder. The entry holds what is left of that row when newer
vectors replace older ones (`map_known?_after`). As newer and older go round a circle, this need not
be the newest of them; it is, and the first of the newest, when the stamps lie within half the
circle (`freshest_after`).
-/

namespace Geocast

namespace LongPosition

/-- The newer of two position vectors, the first one if neither is. -/
def fresher (u v : LongPosition) : LongPosition :=
  if v.timestamp.newerThan u.timestamp then v else u

/-- What is left of a row of position vectors when newer ones replace older ones. -/
def freshest? (vs : List LongPosition) : Option LongPosition :=
  vs.foldl (fun kept? v => some (kept?.elim v (·.fresher v))) none

/-- The next vector replaces what is left if it is newer. -/
theorem freshest?_concat (vs : List LongPosition) (v : LongPosition) :
    freshest? (vs ++ [v]) = some ((freshest? vs).elim v (·.fresher v)) :=
  List.foldl_concat ..

/-- Of some vectors one is always left. -/
theorem freshest?_eq_none_iff {vs : List LongPosition} : freshest? vs = none ↔ vs = [] := by
  cases vs using List.reverseRecOn with
  | nil => exact ⟨fun _ => rfl, fun _ => rfl⟩
  | append_singleton vs v =>
    rw [freshest?_concat]
    simp

/-- Within half a circle, it is the vector whose stamp lies furthest ahead, and the first of those
with that stamp. -/
theorem freshest?_eq_argmax {vs : List LongPosition} {base : Timestamp}
    (h : ∀ v ∈ vs, v.timestamp.ahead base < Timestamp.half) :
    freshest? vs = vs.argmax fun v => v.timestamp.ahead base := by
  induction vs using List.reverseRecOn with
  | nil => rfl
  | append_singleton vs v ih =>
    have hbefore : ∀ u ∈ vs, u.timestamp.ahead base < Timestamp.half := fun u hu =>
      h u (List.mem_append_left _ hu)
    have hlast := h v (List.mem_append_right _ (List.mem_singleton.mpr rfl))
    -- the last vector replaces what is left of the others exactly if it lies further ahead
    rw [freshest?_concat, List.argmax_concat, ih hbefore]
    cases hkept : vs.argmax fun v => v.timestamp.ahead base with
    | none => rfl
    | some u =>
      have hnewer := Timestamp.newerThan_iff_ahead hlast (hbefore u (List.argmax_mem hkept))
      show some (u.fresher v) =
        if u.timestamp.ahead base < v.timestamp.ahead base then some v else some u
      unfold fresher
      rw [apply_ite some]
      exact ite_congr (propext hnewer) (fun _ => rfl) fun _ => rfl

end LongPosition

namespace Entry

/-- The position vector of a station, if its position is known. -/
def known? (e : Entry) : Option LongPosition := if e.pending then none else some e.position

/-- Of a placeholder no position is known. -/
theorem known?_eq_none_iff {e : Entry} : e.known? = none ↔ e.pending = true := by
  unfold known?
  split <;> simp_all

theorem known?_eq_some_iff {e : Entry} {v : LongPosition} :
    e.known? = some v ↔ e.pending = false ∧ e.position = v := by
  unfold known?
  split <;> simp_all

/-- An update leaves the newer of what is known and what is heard. -/
theorem known?_refreshed (e : Entry) (v : LongPosition) (neighbor : Bool) :
    (e.refreshed v neighbor).known? = some (e.known?.elim v (·.fresher v)) := by
  show some (LocationTable.keptPosition e v) = _
  unfold LocationTable.keptPosition known?
  cases e.pending with
  | true => rfl
  | false => rfl

/-- A packet number says nothing of the position. -/
theorem known?_noted (e : Entry) (n : SequenceNumber) : (e.noted n).known? = e.known? := by
  obtain ⟨last, hnoted⟩ := e.exists_noted_eq n
  rw [hnoted]
  rfl

end Entry

namespace LocationTable

open LongPosition

/-! ## What a table was told of a station -/

/-- What a table was told of a station since it made the entry it has of it, when there is one more
operation. An entry is made where nothing live is known of the station, and goes away as a
placeholder that is not needed any more, when it is asked for, or when it is stale. -/
def toldNext (t : LocationTable) (a : Address) (told? : Option (List LongPosition)) :
    Operation → Option (List LongPosition)
  | .update v _ now =>
    if v.address = a ∧ a ≠ t.own then
      if t.find? a now = none then some [v] else told?.map (· ++ [v])
    else told?
  | .insertPending b now =>
    if b = a ∧ a ≠ t.own ∧ t.find? a now = none then some [] else told?
  | .cancelPending b =>
    if b = a ∧ (t.stations.get? a).any Entry.pending = true then none else told?
  | .remove b => if b = a then none else told?
  | .purgeStale now => if t.find? a now = none then none else told?
  | _ => told?

/-- What a table was told of a station since it made the entry it has of it, after a row of
operations; none if it has no entry of it. -/
def told (t : LocationTable) (a : Address) (told? : Option (List LongPosition)) :
    List Operation → Option (List LongPosition)
  | [] => told?
  | op :: ops => (t.perform op).2.told a (t.toldNext a told? op) ops

variable {t : LocationTable} {a : Address} {told? : Option (List LongPosition)}

/-- What was told over a row of operations is told one by one. -/
theorem told_concat (ops : List Operation) (op : Operation) :
    t.told a told? (ops ++ [op]) = (t.after ops).toldNext a (t.told a told? ops) op := by
  induction ops generalizing t told? with
  | nil => rfl
  | cons op' ops ih => exact ih

/-- By the cases of `next`: an entry that stays keeps what is left of the row, and only another
vector makes the row longer. -/
theorem map_known?_perform (h : (t.stations.get? a).map Entry.known? = told?.map freshest?)
    (op : Operation) :
    ((t.perform op).2.stations.get? a).map Entry.known? =
      (t.toldNext a told? op).map freshest? := by
  rw [get?_perform]
  cases op with
  | update v neighbor now =>
    dsimp only [next, toldNext]
    by_cases hv : v.address = a ∧ a ≠ t.own
    · rw [if_pos hv, if_pos hv]
      cases hfind : t.find? a now with
      | none =>
        rw [if_pos rfl]
        rfl
      | some e =>
        -- the entry stays, so there is a row already, and it gets longer by this vector
        rw [((find?_eq_some_iff t a now e).mp hfind).1] at h
        obtain ⟨vs, rfl, hvs⟩ := Option.map_eq_some_iff.mp h.symm
        rw [if_neg (Option.some_ne_none e), Option.map_some, Option.map_some, Option.map_some,
          freshest?_concat, hvs]
        exact congrArg some (e.known?_refreshed v neighbor)
    · rw [if_neg hv, if_neg hv]
      exact h
  | insertPending b now =>
    dsimp only [next, toldNext]
    split
    · rfl
    · exact h
  | cancelPending b =>
    dsimp only [next, toldNext]
    rw [ite_and, apply_ite (Option.map freshest?), apply_ite (Option.map freshest?), ← h]
    by_cases hb : b = a
    · rw [if_pos hb, if_pos hb]
      cases t.stations.get? a with
      | none => rfl
      | some e =>
        rw [Option.any_some, Option.filter_some]
        cases e.pending with
        | true => rfl
        | false => rfl
    · rw [if_neg hb, if_neg hb]
  | checkSequence b n =>
    dsimp only [next, toldNext]
    split
    · rw [Option.map_map, ← h]
      exact congrArg (Option.map · _) (funext fun e => e.known?_noted n)
    · exact h
  | recordFrame b length now =>
    dsimp only [next, toldNext]
    split
    · rw [Option.map_map, ← h]
      refine congrArg (Option.map · _) (funext fun e => ?_)
      dsimp only [Function.comp_apply]
      split <;> rfl
    · exact h
  | remove b =>
    dsimp only [next, toldNext]
    split
    · rfl
    · exact h
  | purgeStale now =>
    dsimp only [next, toldNext]
    cases hfind : t.find? a now with
    | none => rfl
    | some e =>
      rw [if_neg (Option.some_ne_none e), ← h, ((find?_eq_some_iff t a now e).mp hfind).1]
  | find _ _ => exact h
  | findPosition _ _ => exact h
  | neighbors _ => exact h
  | entries _ => exact h

/-- By induction on the operations, what is known is the freshest of what was told. -/
theorem map_known?_after (h : (t.stations.get? a).map Entry.known? = told?.map freshest?)
    (ops : List Operation) :
    ((t.after ops).stations.get? a).map Entry.known? = (t.told a told? ops).map freshest? := by
  induction ops generalizing t told? with
  | nil => exact h
  | cons op ops ih => exact ih (map_known?_perform h op)

/-! ## What an update says it did -/

/-- The vector that came in is stored exactly where that is said, and else the place stays. -/
theorem map_position_update (t : LocationTable) (v : LongPosition) (neighbor : Bool)
    (now : Timestamp) :
    ((t.update v neighbor now).2.stations.get? v.address).map Entry.position =
      if (t.update v neighbor now).1.positionUpdated then some v
      else (t.stations.get? v.address).map Entry.position := by
  by_cases hown : v.address = t.own
  · rw [update_of_own hown]
    rfl
  · cases hfind : t.find? v.address now with
    | none =>
      rw [update_of_new hown hfind, AddressMap.get?_insert_self]
      rfl
    | some e =>
      rw [update_of_live hown hfind, AddressMap.get?_insert_self,
        ((find?_eq_some_iff t v.address now e).mp hfind).1]
      exact apply_ite some _ _ _

variable {v : LongPosition}

/-- An entry that was made is told of its first vector, and any other one of one more. -/
theorem toldNext_update (hown : v.address = t.own → told? = none) (neighbor : Bool)
    (now : Timestamp) :
    t.toldNext v.address told? (.update v neighbor now) =
      if (t.update v neighbor now).1.created then some [v] else told?.map (· ++ [v]) := by
  dsimp only [toldNext]
  by_cases hother : v.address = t.own
  · rw [if_neg fun hboth => hboth.2 hother, update_of_own hother, hown hother]
    rfl
  · have hcreated : t.find? v.address now = none ↔
        (t.update v neighbor now).1.created = true := by
      rw [created_update_iff]
      exact ⟨fun hnone => ⟨hother, hnone⟩, fun hboth => hboth.2⟩
    rw [if_pos ⟨rfl, hother⟩]
    exact ite_congr (propext hcreated) (fun _ => rfl) fun _ => rfl

/-- A placeholder is an entry that was told of nothing yet. -/
theorem resolvedPending_update_iff (hown : v.address = t.own → told? = none)
    (hmap : (t.stations.get? v.address).map Entry.known? = told?.map freshest?) (neighbor : Bool)
    (now : Timestamp) : (t.update v neighbor now).1.resolvedPending = true ↔
      told? = some [] ∧ t.find? v.address now ≠ none := by
  by_cases hother : v.address = t.own
  · rw [update_of_own hother, hown hother]
    simp
  · cases hfind : t.find? v.address now with
    | none =>
      rw [update_of_new hother hfind]
      simp
    | some e =>
      rw [((find?_eq_some_iff t v.address now e).mp hfind).1] at hmap
      obtain ⟨vs, rfl, hvs⟩ := Option.map_eq_some_iff.mp hmap.symm
      rw [update_of_live hother hfind]
      show e.pending = true ↔ _
      rw [← Entry.known?_eq_none_iff, ← hvs, freshest?_eq_none_iff]
      simp

/-! ## From an empty table on -/

section

variable (own : Address) (lifetimeMillis : Nat) (ops : List Operation)

/-- In a new table nothing was told before. -/
theorem map_known?_after_make (a : Address) :
    (((make own lifetimeMillis).after ops).stations.get? a).map Entry.known? =
      ((make own lifetimeMillis).told a none ops).map freshest? :=
  map_known?_after rfl ops

/-- There is a row of vectors exactly where there is an entry. -/
theorem told_make_eq_none_iff (a : Address) :
    (make own lifetimeMillis).told a none ops = none ↔
      ((make own lifetimeMillis).after ops).stations.get? a = none := by
  have hmap := map_known?_after_make own lifetimeMillis ops a
  rw [← Option.map_eq_none_iff, ← hmap, Option.map_eq_none_iff]

/-- Nothing is ever told of the own station. -/
theorem told_make_own : (make own lifetimeMillis).told own none ops = none := by
  rw [told_make_eq_none_iff, Option.eq_none_iff_forall_ne_some]
  intro e he
  have hproper := ((proper_make own lifetimeMillis).after ops) own e he
  exact hproper.other (after_own (make own lifetimeMillis) ops).symm

end

/-- After every row of operations on an empty table, and for every station: what the table was told
of the station since it made its entry tells what the entry holds. If the stamps of the vectors
lie within half the circle ahead of some point, it is the vector whose stamp lies furthest ahead,
and the first of those with that stamp. Of another vector the table says that it was stored exactly
when it is, that it made an entry exactly when the row begins with it, and that a position was
found exactly when it comes first for a placeholder that is seen. -/
theorem freshest_after (own : Address) (lifetimeMillis : Nat) (ops : List Operation) :
    let t := (make own lifetimeMillis).after ops
    let told := (make own lifetimeMillis).told
    (∀ a, told a none ops = none ↔ t.stations.get? a = none) ∧
    (∀ a vs base, told a none ops = some vs → vs ≠ [] →
      (∀ v ∈ vs, v.timestamp.ahead base < Timestamp.half) →
      ∃ e, t.stations.get? a = some e ∧ e.pending = false ∧
        vs.argmax (fun v => v.timestamp.ahead base) = some e.position) ∧
    ∀ v neighbor now,
      let r := t.update v neighbor now
      (r.2.stations.get? v.address).map Entry.position =
        (if r.1.positionUpdated then some v
        else (t.stations.get? v.address).map Entry.position) ∧
      told v.address none (ops ++ [.update v neighbor now]) =
        (if r.1.created then some [v] else (told v.address none ops).map (· ++ [v])) ∧
      (r.1.created = true ↔ v.address ≠ own ∧ t.find? v.address now = none) ∧
      (r.1.resolvedPending = true ↔
        told v.address none ops = some [] ∧ t.find? v.address now ≠ none) := by
  intro t told
  have hown : t.own = own := after_own _ ops
  have hmap (a : Address) := map_known?_after_make own lifetimeMillis ops a
  refine ⟨told_make_eq_none_iff own lifetimeMillis ops, ?_, ?_⟩
  · intro a vs base htold hsome hspan
    have hknown := (hmap a).trans (congrArg (Option.map freshest?) htold)
    obtain ⟨e, he, hfreshest⟩ := Option.map_eq_some_iff.mp hknown
    rw [freshest?_eq_argmax hspan] at hfreshest
    -- within half a circle the freshest is the one furthest ahead
    cases hv : vs.argmax fun v => v.timestamp.ahead base with
    | none => exact absurd (List.argmax_eq_none.mp hv) hsome
    | some v =>
      obtain ⟨hpending, hposition⟩ := Entry.known?_eq_some_iff.mp (hfreshest.trans hv)
      exact ⟨e, he, hpending, congrArg some hposition.symm⟩
  · intro v neighbor now
    have hunheard (h : v.address = t.own) : told v.address none ops = none := by
      rw [h, hown]
      exact told_make_own own lifetimeMillis ops
    refine ⟨map_position_update t v neighbor now, ?_, ?_, ?_⟩
    · exact (told_concat ops _).trans (toldNext_update hunheard neighbor now)
    · rw [created_update_iff, hown]
    · exact resolvedPending_update_iff hunheard (hmap v.address) neighbor now

/-- A station is asked for and heard of four times while its stamps come round: what is kept is the
first of the two vectors with the stamp after the turn. -/
theorem freshest_after_turn :
    let station : Address := { kind := 1 }
    let place (millis : UInt32) (latitude : Int32) : LongPosition :=
      { address := station, timestamp := ⟨millis⟩, point := { latitude } }
    let ops : List Operation := [
      .insertPending station ⟨4294967000⟩,
      .update (place 4294967200 1) true ⟨4294967200⟩, .update (place 100 2) true ⟨100⟩,
      .update (place 4294967290 3) true ⟨110⟩, .update (place 100 4) true ⟨120⟩]
    ∃ e, ((make {} 20000).after ops).stations.get? station = some e ∧
      e.position = place 100 2 := by
  intro station place ops
  obtain ⟨-, hfreshest, -⟩ := freshest_after {} 20000 ops
  have htold : (make {} 20000).told station none ops =
      some [place 4294967200 1, place 100 2, place 4294967290 3, place 100 4] := by decide +kernel
  obtain ⟨e, he, -, hmax⟩ := hfreshest station _ ⟨4294967000⟩ htold (by simp) (by decide)
  exact ⟨e, he, Option.some.inj (hmax.symm.trans (by decide))⟩

end LocationTable

end Geocast
