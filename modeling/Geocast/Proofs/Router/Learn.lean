import Geocast.Proofs.Location.Table
import Geocast.Router.Receive

/-!
# What a router learns from a packet

`learn_learned` collects what the table does with the source of a packet that came from another
station: nothing but the entry of the source changes, its place is known from then on, and the
packet is a duplicate exactly when its number was remembered.
-/

namespace Geocast.Router

variable {α : Type}

/-- The numbers that the table remembers of a station. -/
def remembered (r : Router α) (a : Address) : DuplicateList :=
  (r.table.find? a r.clock).elim {} Entry.duplicates

/-- The vector by which a station is known once it was heard with the given one. -/
def keptPosition (r : Router α) (v : LongPosition) : LongPosition :=
  (r.table.find? v.address r.clock).elim v (LocationTable.keptPosition · v)

/-- Learning touches nothing but the table. -/
theorem learn_rest (r : Router α) (a : Arrival) :
    ∃ table, (r.learn a).2 = { r with table } := by
  unfold learn
  dsimp only
  split <;> exact ⟨_, rfl⟩

theorem eq_of_learn {r s : Router α} {a : Arrival}
    {check : Option (SequenceNumber × SequenceCheck)} (h : r.learn a = (check, s)) :
    ∃ table, s = { r with table } := by
  have hrest := learn_rest r a
  rwa [h] at hrest

/-- What is left and what is new when the table has learnt of a packet. -/
structure Learned (r : Router α) (a : Arrival)
    (check : Option (SequenceNumber × SequenceCheck)) (s : Router α) : Prop where
  own : s.table.own = r.table.own
  lifetime : s.table.lifetime = r.table.lifetime
  others : ∀ b, b ≠ a.source.address → s.table.stations.get? b = r.table.stations.get? b
  entry : ∃ e, s.table.stations.get? a.source.address = some e ∧ e.pending = false ∧
    e.position = r.keptPosition a.source ∧
    ∀ n, a.packet.sequence? = some n → e.duplicates.contains n = true
  numbers : ∀ e, s.table.stations.get? a.source.address = some e →
    e.duplicates = a.packet.sequence?.elim (r.remembered a.source.address) fun n =>
      ((r.remembered a.source.address).observe n).2
  duplicate : ∀ n, check = some (n, .duplicate) ↔
    a.packet.sequence? = some n ∧ (r.remembered a.source.address).contains n = true

theorem Learned.of_table {r s t : Router α} {a : Arrival}
    {check : Option (SequenceNumber × SequenceCheck)} (h : Learned r a check s)
    (htable : t.table = s.table) : Learned r a check t where
  own := htable ▸ h.own
  lifetime := htable ▸ h.lifetime
  others := htable ▸ h.others
  entry := htable ▸ h.entry
  numbers := htable ▸ h.numbers
  duplicate := h.duplicate

section

variable {r : Router α} {a : Arrival}

theorem learn_own (r : Router α) (a : Arrival) : (r.learn a).2.table.own = r.table.own := by
  have hframe (t : LocationTable) := t.recordFrame_own a.source.address a.length r.clock
  have hupdate := r.table.update_own a.source a.direct r.clock
  unfold learn
  dsimp only
  split
  · exact (hframe _).trans hupdate
  · exact (LocationTable.checkSequence_own _ _ _).trans ((hframe _).trans hupdate)

theorem learn_lifetime (r : Router α) (a : Arrival) :
    (r.learn a).2.table.lifetime = r.table.lifetime := by
  have hframe (t : LocationTable) := t.recordFrame_lifetime a.source.address a.length r.clock
  have hupdate := r.table.update_lifetime a.source a.direct r.clock
  unfold learn
  dsimp only
  split
  · exact (hframe _).trans hupdate
  · exact (LocationTable.checkSequence_lifetime _ _ _).trans ((hframe _).trans hupdate)

/-- Each of the three things that the table does leaves the other stations alone. -/
theorem learn_others {b : Address} (hb : b ≠ a.source.address) :
    (r.learn a).2.table.stations.get? b = r.table.stations.get? b := by
  have hheard : ((r.table.update a.source a.direct r.clock).2.recordFrame a.source.address
      a.length r.clock).stations.get? b = r.table.stations.get? b :=
    (LocationTable.recordFrame_get?_of_ne a.length r.clock hb).trans
      (LocationTable.update_get?_of_ne a.direct r.clock hb)
  unfold learn
  dsimp only
  split
  · exact hheard
  · exact (LocationTable.checkSequence_get?_of_ne _ hb).trans hheard

/-- The entry of the source before its number is looked at. -/
theorem exists_entry_of_update (r : Router α) {v : LongPosition} (hother : v.address ≠ r.table.own)
    (direct : Bool) :
    ∃ e, (r.table.update v direct r.clock).2.stations.get? v.address = some e ∧
      e.pending = false ∧ e.position = r.keptPosition v ∧
      e.duplicates = r.remembered v.address ∧ (direct = true → e.neighbor = true) := by
  unfold keptPosition remembered
  rw [LocationTable.get?_update, if_pos ⟨rfl, hother⟩]
  cases r.table.find? v.address r.clock with
  | none => exact ⟨.ofPosition v direct, rfl, rfl, rfl, rfl, id⟩
  | some e =>
    refine ⟨e.refreshed v direct, rfl, rfl, rfl, rfl, fun hdirect => ?_⟩
    rw [hdirect]
    exact Bool.or_true e.neighbor

/-- The entry of the source, with what the number of the packet is found to be. -/
theorem exists_entry_of_learn (hother : a.source.address ≠ r.table.own) :
    (∃ e, (r.learn a).2.table.stations.get? a.source.address = some e ∧ e.pending = false ∧
      e.position = r.keptPosition a.source ∧
      (e.duplicates = a.packet.sequence?.elim (r.remembered a.source.address) fun n =>
        ((r.remembered a.source.address).observe n).2) ∧
      (a.direct = true → e.neighbor = true)) ∧
    ∀ n, (r.learn a).1 = some (n, .duplicate) ↔
      a.packet.sequence? = some n ∧ (r.remembered a.source.address).contains n = true := by
  obtain ⟨e, hget, hpending, hposition, hduplicates, hneighbor⟩ :=
    exists_entry_of_update r hother a.direct
  obtain ⟨rate, last, hframe⟩ := LocationTable.recordFrame_get?_self a.length r.clock hget
  unfold learn
  dsimp only
  cases a.packet.sequence? with
  | none => exact ⟨⟨_, hframe, hpending, hposition, hduplicates, hneighbor⟩, by simp⟩
  | some n =>
    obtain ⟨hcheck, last, hnumber⟩ := LocationTable.checkSequence_get?_self n hframe
    dsimp only at hcheck
    rw [hduplicates] at hcheck
    refine ⟨⟨_, hnumber, hpending, hposition, ?_, hneighbor⟩, fun m => ?_⟩
    · exact congrArg (fun l => (DuplicateList.observe l n).2) hduplicates
    · simp only [Option.some.injEq, Prod.mk.injEq, hcheck]
      refine and_congr_right fun hm => ?_
      rw [hm]

theorem learn_learned (hother : a.source.address ≠ r.table.own) :
    Learned r a (r.learn a).1 (r.learn a).2 := by
  obtain ⟨⟨e, hget, hpending, hposition, hduplicates, -⟩, hcheck⟩ := exists_entry_of_learn hother
  exact {
    own := learn_own r a
    lifetime := learn_lifetime r a
    others := fun b hb => learn_others hb
    entry := by
      refine ⟨e, hget, hpending, hposition, fun n hn => ?_⟩
      rw [hduplicates, hn]
      exact DuplicateList.contains_observe _ _
    numbers := by
      intro e' he'
      obtain rfl := Option.some.inj (hget.symm.trans he')
      exact hduplicates
    duplicate := hcheck }

/-- Once a station was heard directly and is seen, the router has a neighbour. -/
theorem learn_hasNeighbors (hother : a.source.address ≠ r.table.own) (hdirect : a.direct = true)
    (hfresh : r.table.Fresh (r.keptPosition a.source).timestamp r.clock) :
    (r.learn a).2.table.hasNeighbors r.clock = true := by
  obtain ⟨⟨e, hget, hpending, hposition, -, hneighbor⟩, -⟩ := exists_entry_of_learn hother
  refine LocationTable.hasNeighbors_of_get? hget ?_ hpending (hneighbor hdirect)
  rwa [hposition, LocationTable.fresh_congr (learn_lifetime r a)]

end

end Geocast.Router
