import Geocast.Address

/-!
# What is known by address

An `AddressMap` holds at most one value for each address, in the order in which the addresses
came in. Its observations are `get?` and `toList`; the lemmas say what each operation does to
`get?`.
-/

namespace Geocast

/-- Values by address, at most one for each. -/
structure AddressMap (α : Type) where
  toList : List (Address × α) := []
  /-- No address occurs twice. -/
  nodup : (toList.map Prod.fst).Nodup := by exact List.nodup_nil

namespace AddressMap

variable {α : Type}

/-- The map without values. -/
def empty : AddressMap α := {}

instance : Inhabited (AddressMap α) := ⟨empty⟩

/-- The number of addresses with a value. -/
def size (m : AddressMap α) : Nat := m.toList.length

/-- Whether no address has a value. -/
def isEmpty (m : AddressMap α) : Bool := m.toList.isEmpty

/-- The values, in the order of their addresses' arrival. -/
def values (m : AddressMap α) : List α := m.toList.map Prod.snd

/-- The addresses, in the order of their arrival. -/
def keys (m : AddressMap α) : List Address := m.toList.map Prod.fst

/-- The value of an address. -/
def get? (m : AddressMap α) (a : Address) : Option α :=
  (m.toList.find? (·.1 = a)).map Prod.snd

/-- Whether an address has a value. -/
def contains (m : AddressMap α) (a : Address) : Bool := m.toList.any (·.1 = a)

/-- Keeps the addresses whose value passes a test. -/
def filter (m : AddressMap α) (keep : Address → α → Bool) : AddressMap α where
  toList := m.toList.filter fun entry => keep entry.1 entry.2
  nodup := m.nodup.sublist (List.filter_sublist.map _)

/-- Takes an address away. -/
def erase (m : AddressMap α) (a : Address) : AddressMap α := m.filter fun b _ => b ≠ a

/-- Gives an address a value, in the place of the one it had. -/
def insert (m : AddressMap α) (a : Address) (v : α) : AddressMap α :=
  if known : a ∈ m.toList.map Prod.fst then
    { toList := m.toList.map fun entry => if entry.1 = a then (a, v) else entry
      nodup := by
        have same : (m.toList.map fun entry => if entry.1 = a then (a, v) else entry).map Prod.fst
            = m.toList.map Prod.fst := by
          rw [List.map_map]
          apply List.map_congr_left
          intro entry _
          simp only [Function.comp_apply]
          split <;> simp_all
        rw [same]
        exact m.nodup }
  else
    { toList := m.toList ++ [(a, v)]
      nodup := by
        rw [List.map_append, List.nodup_append]
        refine ⟨m.nodup, by simp, ?_⟩
        intro b hb c hc
        simp only [List.map_cons, List.map_nil, List.mem_singleton] at hc
        subst hc
        exact fun eq => known (eq ▸ hb) }

/-- The empty map has no value of any address. -/
theorem get?_empty (a : Address) : (empty : AddressMap α).get? a = none := rfl

/-- What is taken away is gone. -/
theorem get?_erase_self (m : AddressMap α) (a : Address) : (m.erase a).get? a = none := by
  simp [get?, erase, filter, List.find?_eq_none]

/-- The values of other addresses stay. -/
theorem get?_erase_of_ne (m : AddressMap α) {a b : Address} (h : b ≠ a) :
    (m.erase a).get? b = m.get? b := by
  simp only [get?, erase, filter, List.find?_filter]
  congr 2
  funext entry
  by_cases hb : entry.1 = b
  · simp [hb, h]
  · simp [hb]

theorem find?_map_replace (l : List (Address × α)) (a b : Address) (v : α) :
    ((l.map fun entry => if entry.1 = a then (a, v) else entry).find? (·.1 = b)).map Prod.snd =
      if b = a then (l.find? (·.1 = a)).map fun _ => v else (l.find? (·.1 = b)).map Prod.snd := by
  induction l with
  | nil => simp
  | cons entry rest ih =>
    by_cases ha : entry.1 = a
    · by_cases hb : b = a
      · subst hb
        simp [ha]
      · have hne : ¬ a = b := fun e => hb e.symm
        simp only [List.map_cons, ha, if_true, List.find?_cons, hne, decide_false]
        simpa [hb, hne, ha] using ih
    · by_cases hb : entry.1 = b
      · have hba : ¬ b = a := fun e => ha (hb.trans e)
        simp [hb, hba]
      · simp only [List.map_cons, ha, if_false, List.find?_cons, hb, decide_false]
        exact ih

/-- What is given to an address is its value, and the values of others stay. -/
theorem get?_insert (m : AddressMap α) (a b : Address) (v : α) :
    (m.insert a v).get? b = if b = a then some v else m.get? b := by
  unfold insert
  split
  · next known =>
    -- a known address keeps its place in the list
    simp only [get?]
    rw [find?_map_replace]
    split
    · next eq =>
      obtain ⟨entry, mem, fst_eq⟩ := List.mem_map.mp known
      cases found : m.toList.find? (·.1 = a) with
      | none => exact absurd fst_eq (by simpa using List.find?_eq_none.mp found entry mem)
      | some x => rfl
    · rfl
  · next unknown =>
    -- a new one comes last, so that it is found only where it was not before
    simp only [get?, List.find?_append]
    split
    · next eq =>
      subst eq
      have absent : m.toList.find? (·.1 = b) = none := by
        rw [List.find?_eq_none]
        intro entry mem fst_eq
        exact unknown (List.mem_map.mpr ⟨entry, mem, by simpa using fst_eq⟩)
      simp [absent]
    · next ne =>
      have other : ([(a, v)] : List (Address × α)).find? (·.1 = b) = none := by
        simp [Ne.symm ne]
      simp [other]

theorem find?_eq_some_iff {l : List (Address × α)} (nodup : (l.map Prod.fst).Nodup) (a : Address)
    (v : α) : (l.find? (·.1 = a)).map Prod.snd = some v ↔ (a, v) ∈ l := by
  induction l with
  | nil => simp
  | cons entry rest ih =>
    obtain ⟨b, w⟩ := entry
    rw [List.map_cons, List.nodup_cons] at nodup
    by_cases hb : b = a
    · subst hb
      have absent : (b, v) ∉ rest := fun h => nodup.1 (List.mem_map.mpr ⟨_, h, rfl⟩)
      simp only [List.find?_cons, decide_true, Option.map_some, Option.some.injEq, List.mem_cons,
        Prod.mk.injEq, true_and, absent, or_false]
      exact eq_comm
    · have hne : ¬ a = b := fun e => hb e.symm
      simp only [List.find?_cons, hb, decide_false, List.mem_cons, Prod.mk.injEq, hne, false_and,
        false_or]
      exact ih nodup.2

/-- A value is known for an address exactly when the two stand together in the list. -/
theorem get?_eq_some_iff (m : AddressMap α) (a : Address) (v : α) :
    m.get? a = some v ↔ (a, v) ∈ m.toList :=
  find?_eq_some_iff m.nodup a v

/-- A value stays exactly if it passes the test. -/
theorem get?_filter (m : AddressMap α) (keep : Address → α → Bool) (a : Address) :
    (m.filter keep).get? a = (m.get? a).filter (keep a) := by
  apply Option.ext
  intro v
  rw [get?_eq_some_iff, Option.filter_eq_some_iff, get?_eq_some_iff]
  exact List.mem_filter

/-- The values are those that some address has. -/
theorem mem_values_iff (m : AddressMap α) (v : α) : v ∈ m.values ↔ ∃ a, m.get? a = some v := by
  simp only [values, List.mem_map, get?_eq_some_iff, Prod.exists, exists_eq_right]

/-- An address is contained if it has a value. -/
theorem contains_iff (m : AddressMap α) (a : Address) :
    m.contains a = true ↔ ∃ v, m.get? a = some v := by
  simp only [contains, List.any_eq_true, decide_eq_true_eq, get?_eq_some_iff, Prod.exists,
    exists_and_right, exists_eq_right]

theorem get?_insert_self (m : AddressMap α) (a : Address) (v : α) :
    (m.insert a v).get? a = some v := by
  rw [get?_insert, if_pos rfl]

theorem get?_insert_of_ne (m : AddressMap α) {a b : Address} (v : α) (h : b ≠ a) :
    (m.insert a v).get? b = m.get? b := by
  rw [get?_insert, if_neg h]

end AddressMap

end Geocast
