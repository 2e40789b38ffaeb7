import Geocast.Proofs.Circular
import Geocast.Proofs.Location.Operations

/-!
# When sweeping shows

A sweep takes out the entries that are not seen at that moment. It makes no difference later on as
long as they would not be seen later either. An entry whose stamp has been left behind by more than
the lifetime stays out of sight, but one whose stamp lies too far ahead of the clock comes into
sight when the clock comes up to it (`Overtaken`): then it counts whether the table was swept in
between. `sweep_unseen_iff` says that this is the only case.
-/

namespace Geocast

theorem AddressMap.values_filter {α : Type} (m : AddressMap α) (keep : α → Bool) :
    (m.filter fun _ v => keep v).values = m.values.filter keep := by
  unfold values filter
  rw [List.filter_map]
  rfl

namespace LocationTable

/-! ## Stamps between two clocks -/

theorem fresh_iff (t : LocationTable) (stamp now : Timestamp) :
    t.Fresh stamp now ↔ stamp.ahead now ≤ 1000 ∨ now.ahead stamp ≤ t.lifetime.toNat := by
  unfold Fresh Entry.maxSkew Timestamp.ahead
  rw [UInt32.le_iff_toNat_le, UInt32.le_iff_toNat_le]
  rfl

/-- At an earlier time a stamp lies too far ahead of the clock to be fresh, and by a later time the
clock has come up to it and is not past it by more than the lifetime. -/
def Overtaken (t : LocationTable) (stamp earlier later : Timestamp) : Prop :=
  1000 < stamp.ahead earlier ∧ t.lifetime.toNat < earlier.ahead stamp ∧
    stamp.ahead earlier ≤ later.ahead earlier + 1000 ∧
    later.ahead earlier ≤ stamp.ahead earlier + t.lifetime.toNat

instance (t : LocationTable) (stamp earlier later : Timestamp) :
    Decidable (t.Overtaken stamp earlier later) :=
  inferInstanceAs (Decidable (_ ∧ _ ∧ _ ∧ _))

/-- Within half the circle, with a lifetime shorter than that, a stamp that was not fresh can only
become so from ahead: from behind it would have to come round. -/
theorem overtaken_iff {t : LocationTable} {stamp earlier later : Timestamp}
    (hlater : later.ahead earlier < Timestamp.half)
    (hlifetime : t.lifetime.toNat < Timestamp.half) :
    t.Overtaken stamp earlier later ↔ ¬ t.Fresh stamp earlier ∧ t.Fresh stamp later := by
  have hstamp := stamp.millis.toNat_lt
  have hbefore := earlier.millis.toNat_lt
  have hafter := later.millis.toNat_lt
  rw [fresh_iff, fresh_iff]
  unfold Overtaken
  unfold Timestamp.half at hlater hlifetime
  simp only [Timestamp.ahead_eq] at *
  omega

/-! ## What is seen of two tables -/

/-- Two tables that show the same at some time, and to which a position vector makes the same
difference then. -/
structure SeenAlike (s t : LocationTable) (now : Timestamp) : Prop where
  find : ∀ a, s.find? a now = t.find? a now
  findPosition : ∀ a, s.findPosition? a now = t.findPosition? a now
  neighbors : s.neighbors now = t.neighbors now
  update : ∀ v neighbor, (s.update v neighbor now).1 = (t.update v neighbor now).1
  updated : ∀ v neighbor a,
    (s.update v neighbor now).2.find? a now = (t.update v neighbor now).2.find? a now

variable {s t : LocationTable} {now earlier later : Timestamp}

theorem isLive_congr (h : s.lifetime = t.lifetime) (e : Entry) (now : Timestamp) :
    s.isLive e now = t.isLive e now := by
  unfold isLive
  rw [h]

/-- What is seen of the single stations and of all together says everything. -/
theorem seenAlike_of_find (hown : s.own = t.own) (hlifetime : s.lifetime = t.lifetime)
    (hfind : ∀ a, s.find? a now = t.find? a now) (hentries : s.entries now = t.entries now) :
    SeenAlike s t now where
  find := hfind
  findPosition a := by
    unfold findPosition?
    rw [hfind]
  neighbors := by
    unfold neighbors
    rw [hentries]
  update v neighbor := by
    rw [update_fst, update_fst, hown, hfind]
  updated v neighbor a := by
    have hlive (r : LocationTable) (e : Entry) :
        (r.update v neighbor now).2.isLive e now = r.isLive e now :=
      isLive_congr (update_lifetime r v neighbor now) e now
    have hget (r : LocationTable) : (r.update v neighbor now).2.find? a now =
        if v.address = a ∧ a ≠ r.own then
          (some <| (r.find? a now).elim (.ofPosition v neighbor) (·.refreshed v neighbor)).filter
            (r.isLive · now)
        else r.find? a now := by
      rw [find?, get?_update]
      simp only [hlive]
      split <;> rfl
    rw [hget, hget, hown, hfind]
    simp only [isLive_congr hlifetime]

/-! ## Before and after a sweep -/

theorem find?_purgeStale (t : LocationTable) (a : Address) (earlier later : Timestamp) :
    (t.purgeStale earlier).2.find? a later = (t.find? a earlier).filter (t.isLive · later) := by
  rw [find?, get?_purgeStale]
  rfl

/-- What a sweep leaves is what is seen at that moment, in the same order. -/
theorem values_purgeStale (t : LocationTable) (now : Timestamp) :
    (t.purgeStale now).2.stations.values = t.entries now :=
  AddressMap.values_filter t.stations (t.isLive · now)

theorem entries_purgeStale (t : LocationTable) (earlier later : Timestamp) :
    (t.purgeStale earlier).2.entries later = (t.entries later).filter (t.isLive · earlier) := by
  rw [entries, values_purgeStale]
  unfold entries
  rw [List.filter_filter, List.filter_filter]
  refine List.filter_congr fun e _ => ?_
  rw [Bool.and_comm]
  rfl

/-- A sweep at an earlier time shows at a later one exactly where an entry has a stamp that lay too
far ahead of the clock then, so that the entry was taken out, and that the clock has come up to
since, so that the entry would be seen now. -/
theorem sweep_unseen_iff (t : LocationTable) {earlier later : Timestamp}
    (hlater : later.ahead earlier < Timestamp.half)
    (hlifetime : t.lifetime.toNat < Timestamp.half) :
    SeenAlike (t.purgeStale earlier).2 t later ↔
      ∀ a e, t.stations.get? a = some e →
        ¬ t.Overtaken e.position.timestamp earlier later := by
  constructor
  · intro hsame a e he hovertaken
    obtain ⟨hstale, hfresh⟩ := (overtaken_iff hlater hlifetime).mp hovertaken
    have hseen : t.find? a later = some e := (find?_eq_some_iff t a later e).mpr ⟨he, hfresh⟩
    have hgone : t.find? a earlier = none := by
      cases hfind : t.find? a earlier with
      | none => rfl
      | some e' =>
        obtain ⟨he', hfresh'⟩ := (find?_eq_some_iff t a earlier e').mp hfind
        obtain rfl := Option.some.inj (he.symm.trans he')
        exact absurd hfresh' hstale
    have hswept := hsame.find a
    rw [find?_purgeStale, hgone, hseen] at hswept
    exact absurd hswept (by simp)
  · intro hnone
    -- whatever is seen later was seen at the time of the sweep
    have hstays (a : Address) (e : Entry) (he : t.stations.get? a = some e)
        (hlive : t.isLive e later = true) : t.isLive e earlier = true := by
      rw [isLive_iff] at hlive ⊢
      refine Decidable.not_not.mp fun hstale => hnone a e he ?_
      exact (overtaken_iff hlater hlifetime).mpr ⟨hstale, hlive⟩
    refine seenAlike_of_find rfl rfl (fun a => ?_) ?_
    · rw [find?_purgeStale]
      unfold find?
      cases hget : t.stations.get? a with
      | none => rfl
      | some e =>
        cases hlive : t.isLive e later with
        | true => simp only [Option.filter_some, hstays a e hget hlive, hlive, if_true]
        | false => cases t.isLive e earlier <;> simp [Option.filter_some, hlive]
    · rw [entries_purgeStale, List.filter_eq_self]
      intro e he
      obtain ⟨hvalue, hlive⟩ := List.mem_filter.mp he
      obtain ⟨a, ha⟩ := (AddressMap.mem_values_iff _ _).mp hvalue
      exact hstays a e ha hlive

/-- An entry that was left behind before the sweep, and that is gone for good either way. -/
theorem sweep_unseen_of_left_behind :
    let t := (make {} 20000).after [
      .update { address := { kind := 1 }, timestamp := ⟨1000⟩ } true ⟨1000⟩]
    t.find? { kind := 1 } ⟨21001⟩ = none ∧ SeenAlike (t.purgeStale ⟨21001⟩).2 t ⟨30000⟩ := by
  intro t
  have hunseen := @sweep_unseen_iff t ⟨21001⟩ ⟨30000⟩ (by decide) (by decide)
  refine ⟨rfl, hunseen.mpr fun a e he => ?_⟩
  have hmem : (a, e) ∈ t.stations.toList := (AddressMap.get?_eq_some_iff _ a e).mp he
  have hentry : e = .ofPosition { address := { kind := 1 }, timestamp := ⟨1000⟩ } true :=
    congrArg Prod.snd (List.mem_singleton.mp hmem)
  rw [hentry]
  decide

/-- A station whose clock is five seconds ahead is not seen at once. Five seconds later it is,
unless the table was swept before. -/
theorem not_forall_sweep_unseen :
    ¬ ∀ (own : Address) (lifetimeMillis : Nat) (ops : List Operation) (earlier later : Timestamp),
      later.ahead earlier < Timestamp.half →
      (make own lifetimeMillis).lifetime.toNat < Timestamp.half →
      SeenAlike (((make own lifetimeMillis).after ops).purgeStale earlier).2
        ((make own lifetimeMillis).after ops) later := by
  intro h
  have hsame := (h {} 20000 [
    .update { address := { kind := 1 }, timestamp := ⟨105000⟩ } false ⟨100000⟩]
    ⟨100000⟩ ⟨105000⟩ (by decide) (by decide)).find { kind := 1 }
  exact absurd (congrArg Option.isSome hsame) (by decide)

end LocationTable

end Geocast
