import Geocast.Proofs.Circular
import Geocast.Proofs.Location.DuplicateList
import Geocast.Proofs.Location.Operations
import Mathlib.Data.List.MinMax

/-!
# What the numbers of a station say of its packets

The numbers of a station's packets go through two records of its entry: a list of the last ones
that were new, and the number that lies furthest ahead (`lastSequence`). A number that the list has
forgotten can come again, but then it does not lie ahead of what came before. So within half a
circle an entry always holds the number that lies furthest ahead of all it was given since it was
made (`Tracks`), and a number that is no duplicate is in order exactly if it lies ahead of all of
them. `classified_after` is the main result.
-/

namespace Geocast

namespace Entry

/-! ## The entry and the numbers it was given -/

/-- The furthest number moves only when one comes that is in order. -/
theorem lastSequence_noted (e : Entry) (n : SequenceNumber) :
    (e.noted n).lastSequence = if e.check n = .inOrder then some n else e.lastSequence := by
  unfold noted check observeSequence
  dsimp only
  split
  · rfl
  · split
    · rfl
    · rfl

/-- A number is in order if it is not remembered and is ahead of the furthest one. -/
theorem check_eq_inOrder_iff (e : Entry) (n : SequenceNumber) :
    e.check n = .inOrder ↔ e.duplicates.contains n = false ∧
      ∀ last, e.lastSequence = some last → n.newerThan last = true := by
  unfold check
  cases e.duplicates.contains n <;> cases e.lastSequence <;> simp

/-- An entry remembers no other numbers than those it was given, and of numbers within half a circle
it holds the one furthest ahead. -/
structure Tracks (e : Entry) (ns : List SequenceNumber) : Prop where
  remembered : ∀ n, e.duplicates.contains n = true → n ∈ ns
  furthest : ∀ base, (∀ m ∈ ns, m.ahead base < SequenceNumber.half) →
    e.lastSequence = ns.argmax fun m => m.ahead base

variable {e : Entry} {ns : List SequenceNumber}

/-- An entry without numbers tracks none. -/
theorem tracks_empty (hduplicates : e.duplicates = {}) (hlast : e.lastSequence = none) :
    e.Tracks [] where
  remembered := by
    intro n hn
    rw [hduplicates] at hn
    exact absurd hn Bool.false_ne_true
  furthest := fun _ _ => hlast

/-- Whether an entry tracks numbers is told by its record of them only. -/
theorem Tracks.congr (h : e.Tracks ns) {e' : Entry} (hduplicates : e'.duplicates = e.duplicates)
    (hlast : e'.lastSequence = e.lastSequence) : e'.Tracks ns where
  remembered := by
    rw [hduplicates]
    exact h.remembered
  furthest := by
    rw [hlast]
    exact h.furthest

section

variable (h : e.Tracks ns) {n base : SequenceNumber}
  (hwindow : ∀ m ∈ ns ++ [n], m.ahead base < SequenceNumber.half)
include h hwindow

/-- Within half a circle, lying ahead of the number that is held is lying ahead of all. -/
theorem Tracks.newer_iff :
    (∀ last, e.lastSequence = some last → n.newerThan last = true) ↔
      ∀ m ∈ ns, n.newerThan m = true := by
  have hbefore : ∀ m ∈ ns, m.ahead base < SequenceNumber.half := fun m hm =>
    hwindow m (List.mem_append_left _ hm)
  have hn := hwindow n (List.mem_append_right _ (List.mem_singleton.mpr rfl))
  rw [h.furthest base hbefore]
  constructor
  · intro hlast m hm
    cases hmax : ns.argmax fun m => m.ahead base with
    | none =>
      rw [List.argmax_eq_none.mp hmax] at hm
      exact absurd hm List.not_mem_nil
    | some last =>
      have hle : m.ahead base ≤ last.ahead base := List.le_of_mem_argmax hm hmax
      have hlt := (SequenceNumber.newerThan_iff_ahead hn (hbefore _ (List.argmax_mem hmax))).mp
        (hlast last hmax)
      exact (SequenceNumber.newerThan_iff_ahead hn (hbefore m hm)).mpr (by omega)
  · intro hall last hmax
    exact hall last (List.argmax_mem hmax)

/-- A number that is remembered was given before, so nothing is newer than itself. -/
theorem Tracks.check_eq_inOrder_iff :
    e.check n = .inOrder ↔ ∀ m ∈ ns, n.newerThan m = true := by
  rw [Entry.check_eq_inOrder_iff, h.newer_iff hwindow]
  refine ⟨fun hboth => hboth.2, fun hall => ⟨?_, hall⟩⟩
  have hn := hwindow n (List.mem_append_right _ (List.mem_singleton.mpr rfl))
  rw [Bool.eq_false_iff]
  intro hcontains
  have hself := hall n (h.remembered n hcontains)
  rw [SequenceNumber.newerThan_iff_ahead hn hn] at hself
  omega

/-- What is held after one number more is the furthest ahead again. -/
theorem Tracks.furthest_noted :
    (e.noted n).lastSequence = (ns ++ [n]).argmax fun m => m.ahead base := by
  have hbefore : ∀ m ∈ ns, m.ahead base < SequenceNumber.half := fun m hm =>
    hwindow m (List.mem_append_left _ hm)
  have hn := hwindow n (List.mem_append_right _ (List.mem_singleton.mpr rfl))
  have hiff : e.check n = .inOrder ↔ ∀ last, e.lastSequence = some last → n.newerThan last = true :=
    (h.check_eq_inOrder_iff hwindow).trans (h.newer_iff hwindow).symm
  rw [lastSequence_noted, List.argmax_concat]
  rw [h.furthest base hbefore] at hiff ⊢
  cases hmax : ns.argmax fun m => m.ahead base with
  | none =>
    rw [if_pos (hiff.mpr fun last hlast => absurd (hmax.symm.trans hlast) (by simp))]
  | some last =>
    have hnewer := SequenceNumber.newerThan_iff_ahead hn (hbefore last (List.argmax_mem hmax))
    have hahead : e.check n = .inOrder ↔ last.ahead base < n.ahead base := by
      rw [hiff, ← hnewer, hmax]
      simp
    exact ite_congr (propext hahead) (fun _ => rfl) fun _ => rfl

end

/-- An entry that takes note of a number goes on to track all of them. -/
theorem Tracks.noted (h : e.Tracks ns) (n : SequenceNumber) : (e.noted n).Tracks (ns ++ [n]) where
  remembered := by
    intro m hm
    obtain ⟨last, hnoted⟩ := e.exists_noted_eq n
    rw [hnoted] at hm
    rcases DuplicateList.contains_of_observe hm with hold | rfl
    · exact List.mem_append_left _ (h.remembered m hold)
    · exact List.mem_append_right _ (List.mem_singleton.mpr rfl)
  furthest := fun _ hwindow => h.furthest_noted hwindow

end Entry

namespace LocationTable

/-! ## The numbers that an entry was given since it was made -/

/-- Whether an operation makes a new entry of a station. -/
def makes (t : LocationTable) (a : Address) : Operation → Bool
  | .update v _ now => decide (v.address = a ∧ a ≠ t.own ∧ t.find? a now = none)
  | .insertPending b now => decide (b = a ∧ a ≠ t.own ∧ t.find? a now = none)
  | _ => false

/-- The number of a station that an operation looks up. -/
def Operation.number? (a : Address) : Operation → Option SequenceNumber
  | .checkSequence b n => if b = a then some n else none
  | _ => none

/-- The numbers of a station that were looked up since its entry was made, with one operation
more. -/
def checkedNext (t : LocationTable) (a : Address) (ns : List SequenceNumber) (op : Operation) :
    List SequenceNumber :=
  if t.makes a op then [] else ns ++ (op.number? a).toList

/-- The numbers of a station that were looked up since its entry was made, after a row of
operations. -/
def checked (t : LocationTable) (a : Address) (ns : List SequenceNumber) :
    List Operation → List SequenceNumber
  | [] => ns
  | op :: ops => (t.perform op).2.checked a (t.checkedNext a ns op) ops

variable {t : LocationTable} {a : Address} {ns : List SequenceNumber}

/-- What an operation makes of the record of numbers of an entry. -/
inductive Keeps (t : LocationTable) (a : Address) (op : Operation) (e' : Entry) : Prop
  | made (makes : t.makes a op = true) (duplicates : e'.duplicates = {})
      (last : e'.lastSequence = none)
  | noted (e : Entry) (n : SequenceNumber) (stays : t.makes a op = false)
      (before : t.stations.get? a = some e) (asked : op = .checkSequence a n)
      (after : e' = e.noted n)
  | kept (e : Entry) (stays : t.makes a op = false) (before : t.stations.get? a = some e)
      (unasked : op.number? a = none) (duplicates : e'.duplicates = e.duplicates)
      (last : e'.lastSequence = e.lastSequence)

/-- By the cases of `next`: an entry is made anew, is given one number more, or keeps its record. -/
theorem keeps_perform {op : Operation} {e' : Entry}
    (he : (t.perform op).2.stations.get? a = some e') : t.Keeps a op e' := by
  rw [get?_perform] at he
  cases op with
  | update v neighbor now =>
    dsimp only [next] at he
    split at he
    · next hupdate =>
      obtain rfl := Option.some.inj he
      -- a stale entry counts as none: the station is begun anew
      cases hfind : t.find? a now with
      | none => exact .made (decide_eq_true ⟨hupdate.1, hupdate.2, hfind⟩) rfl rfl
      | some e =>
        have hget := ((find?_eq_some_iff t a now e).mp hfind).1
        exact .kept e (by simp [makes, hfind]) hget rfl rfl rfl
    · next hother =>
      have hstays : ¬ (v.address = a ∧ a ≠ t.own ∧ t.find? a now = none) := fun hmakes =>
        hother ⟨hmakes.1, hmakes.2.1⟩
      exact .kept e' (decide_eq_false hstays) he rfl rfl rfl
  | insertPending b now =>
    dsimp only [next] at he
    split at he
    · next hnew =>
      obtain rfl := Option.some.inj he
      exact .made (decide_eq_true hnew) rfl rfl
    · next hold => exact .kept e' (decide_eq_false hold) he rfl rfl rfl
  | cancelPending b =>
    dsimp only [next] at he
    split at he
    · exact .kept e' rfl (Option.filter_eq_some_iff.mp he).1 rfl rfl rfl
    · exact .kept e' rfl he rfl rfl rfl
  | checkSequence b n =>
    dsimp only [next] at he
    split at he
    · next hb =>
      obtain ⟨e, hget, rfl⟩ := Option.map_eq_some_iff.mp he
      -- only here does the record of numbers change
      exact .noted e n rfl hget (hb ▸ rfl) rfl
    · next hb => exact .kept e' rfl he (if_neg hb) rfl rfl
  | recordFrame b length now =>
    dsimp only [next] at he
    split at he
    · obtain ⟨e, hget, rfl⟩ := Option.map_eq_some_iff.mp he
      split
      · exact .kept e rfl hget rfl rfl rfl
      · exact .kept e rfl hget rfl rfl rfl
    · exact .kept e' rfl he rfl rfl rfl
  | remove b =>
    dsimp only [next] at he
    split at he
    · exact absurd he (by simp)
    · exact .kept e' rfl he rfl rfl rfl
  | purgeStale now =>
    exact .kept e' rfl ((find?_eq_some_iff t a now e').mp he).1 rfl rfl rfl
  | find _ _ => exact .kept e' rfl he rfl rfl rfl
  | findPosition _ _ => exact .kept e' rfl he rfl rfl rfl
  | neighbors _ => exact .kept e' rfl he rfl rfl rfl
  | entries _ => exact .kept e' rfl he rfl rfl rfl

/-- One operation: the entry tracks the numbers that were looked up since it was made. -/
theorem tracks_perform (h : ∀ e, t.stations.get? a = some e → e.Tracks ns) (op : Operation)
    {e' : Entry} (he : (t.perform op).2.stations.get? a = some e') :
    e'.Tracks (t.checkedNext a ns op) := by
  unfold checkedNext
  cases keeps_perform he with
  | made hmakes hduplicates hlast =>
    rw [if_pos hmakes]
    exact Entry.tracks_empty hduplicates hlast
  | noted e n hstays hbefore hasked hafter =>
    have hnumber : op.number? a = some n := by
      rw [hasked]
      exact if_pos rfl
    rw [if_neg (Bool.eq_false_iff.mp hstays), hnumber, hafter]
    exact (h e hbefore).noted n
  | kept e hstays hbefore hunasked hduplicates hlast =>
    rw [if_neg (Bool.eq_false_iff.mp hstays), hunasked, Option.toList_none, List.append_nil]
    exact (h e hbefore).congr hduplicates hlast

/-- By induction on the operations, the same holds after any row of them. -/
theorem tracks_after (h : ∀ e, t.stations.get? a = some e → e.Tracks ns) (ops : List Operation)
    {e : Entry} (he : (t.after ops).stations.get? a = some e) :
    e.Tracks (t.checked a ns ops) := by
  induction ops generalizing t ns with
  | nil => exact h e he
  | cons op ops ih => exact ih (fun _ => tracks_perform h op) he

/-- Whatever is done to a table, the number that an entry holds moves only to a newer one, and only
where that one is found to be in order. -/
theorem lastSequence_perform {op : Operation} {e e' : Entry} (he : t.stations.get? a = some e)
    (he' : (t.perform op).2.stations.get? a = some e') (hstays : t.makes a op = false) :
    e'.lastSequence = e.lastSequence ∨ ∃ n, op = .checkSequence a n ∧
      (t.checkSequence a n).1 = .inOrder ∧ e'.lastSequence = some n ∧
      ∀ last, e.lastSequence = some last → n.newerThan last = true := by
  cases keeps_perform he' with
  | made hmakes _ _ =>
    rw [hstays] at hmakes
    exact absurd hmakes Bool.false_ne_true
  | noted e₀ n _ hbefore hasked hafter =>
    obtain rfl := Option.some.inj (he.symm.trans hbefore)
    rw [hafter, Entry.lastSequence_noted]
    by_cases hcheck : e.check n = .inOrder
    · have hanswer : (t.checkSequence a n).1 = .inOrder := by
        rw [checkSequence_of_some he]
        exact hcheck
      rw [if_pos hcheck]
      exact .inr ⟨n, hasked, hanswer, rfl, ((e.check_eq_inOrder_iff n).mp hcheck).2⟩
    · rw [if_neg hcheck]
      exact .inl rfl
  | kept e₀ _ hbefore _ _ hlast =>
    obtain rfl := Option.some.inj (he.symm.trans hbefore)
    exact .inl hlast

/-- After every row of operations on an empty table, and for every station with an entry: if the
numbers that were looked up since the entry was made lie within half the circle ahead of some
point, the entry holds the one that lies furthest ahead. Another number within that half that is no
duplicate is in order if it is newer than all of them, and reordered otherwise, whatever the
duplicate list has forgotten. And wherever the numbers lie, what the entry holds stays until the
entry is made anew, but for a number that is found to be in order, which is newer. -/
theorem classified_after (own : Address) (lifetimeMillis : Nat) (ops : List Operation) :
    let t := (make own lifetimeMillis).after ops
    ∀ a e, t.stations.get? a = some e →
      let ns := (make own lifetimeMillis).checked a [] ops
      (∀ base, (∀ m ∈ ns, m.ahead base < SequenceNumber.half) →
        e.lastSequence = ns.argmax fun m => m.ahead base) ∧
      (∀ n base, (∀ m ∈ ns ++ [n], m.ahead base < SequenceNumber.half) →
        (t.checkSequence a n).1 ≠ .duplicate →
        (t.checkSequence a n).1 =
          if ∀ m ∈ ns, n.newerThan m = true then .inOrder else .reordered) ∧
      ∀ op e', (t.perform op).2.stations.get? a = some e' → t.makes a op = false →
        e'.lastSequence = e.lastSequence ∨ ∃ n, op = .checkSequence a n ∧
          (t.checkSequence a n).1 = .inOrder ∧ e'.lastSequence = some n ∧
          ∀ last, e.lastSequence = some last → n.newerThan last = true := by
  intro t a e he ns
  have htracks : e.Tracks ns := by
    refine tracks_after (fun e₀ he₀ => ?_) ops he
    -- in a new table there is no entry, and so nothing that was not looked up
    exact absurd he₀ (by simp [make, AddressMap.get?_empty])
  refine ⟨htracks.furthest, fun n base hwindow hnew => ?_, fun op e' he' hstays => ?_⟩
  · rw [checkSequence_of_some he] at hnew ⊢
    have hinOrder := htracks.check_eq_inOrder_iff hwindow
    split
    · next hall => exact hinOrder.mpr hall
    · next hnot =>
      cases hcheck : e.check n with
      | inOrder => exact absurd (hinOrder.mp hcheck) hnot
      | reordered => rfl
      | duplicate => exact absurd hcheck hnew
  · exact lastSequence_perform he he' hstays

/-- Twenty-one numbers of a station go round the end of the circle. The first of them is forgotten
by then: when it comes again, it is no duplicate, but it is not in order either. -/
theorem classified_after_turn :
    let station : Address := { kind := 1 }
    let numbers := (List.range 21).map fun i => SequenceNumber.mk (65530 + UInt16.ofNat i)
    let ops := .update { address := station } true ⟨0⟩ ::
      numbers.map fun n => Operation.checkSequence station n
    let t := (make {} 20000).after ops
    (t.checkSequence station ⟨65530⟩).1 = .reordered ∧
      (t.checkSequence station ⟨15⟩).1 = .inOrder ∧
      ∃ e, t.stations.get? station = some e ∧ e.lastSequence = some ⟨14⟩ := by
  intro station numbers ops t
  obtain ⟨e, he⟩ : ∃ e, t.stations.get? station = some e :=
    Option.isSome_iff_exists.mp (by decide +kernel)
  have hchecked : (make {} 20000).checked station [] ops = numbers := by decide +kernel
  have hwindow : ∀ n ∈ [⟨65530⟩, ⟨15⟩], ∀ m ∈ numbers ++ [n],
      m.ahead ⟨65530⟩ < SequenceNumber.half := by decide +kernel
  have hnew : ∀ n ∈ [⟨65530⟩, ⟨15⟩], (t.checkSequence station n).1 ≠ .duplicate := by
    decide +kernel
  obtain ⟨hfurthest, hcheck, -⟩ := classified_after {} 20000 ops station e he
  rw [hchecked] at hfurthest hcheck
  refine ⟨?_, ?_, e, he, ?_⟩
  · rw [hcheck ⟨65530⟩ ⟨65530⟩ (hwindow _ (by simp)) (hnew _ (by simp))]
    decide +kernel
  · rw [hcheck ⟨15⟩ ⟨65530⟩ (hwindow _ (by simp)) (hnew _ (by simp))]
    decide +kernel
  · rw [hfurthest ⟨65530⟩ fun m hm =>
      hwindow ⟨15⟩ (by simp) m (List.mem_append_left _ hm)]
    decide +kernel

end LocationTable

end Geocast
