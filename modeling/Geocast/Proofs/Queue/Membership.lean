import Geocast.Queue.Contention
import Geocast.Queue.PacketQueues

/-!
# What is in a queue

Whatever the operations on queues and contention timers do, a parcel that is there afterwards was
there before or was just put in, what they take out was there, and no queue comes to hold more than
it has room for.
-/

namespace Geocast

namespace PacketQueues

/-- What is in a queue was in it, or came last. -/
theorem mem_push {capacity : Nat} {parcels : List Parcel} {p q : Parcel}
    (h : q ∈ push capacity parcels p) : q ∈ parcels ∨ q = p := by
  unfold push at h
  rcases List.mem_append.mp h with h | h
  · split at h
    · exact .inl (List.mem_of_mem_drop h)
    · exact .inl h
  · exact .inr (List.mem_singleton.mp h)

/-- Putting a parcel in changes one queue only: that of its family, and in it that of its address
where there is one for each. -/
theorem enqueue_cases (q : PacketQueues) (kind kind' : QueueKind) (a b : Address) (p : Parcel) :
    (q.enqueue kind a p).2.queue kind' b = q.queue kind' b ∨
    kind' = kind ∧ (kind = .broadcast ∨ b = a) ∧
      (q.enqueue kind a p).2.queue kind' b = push (q.capacity kind) (q.queue kind' b) p := by
  -- both families by address are the same kind of map
  have hinsert (m : AddressMap (List Parcel)) (capacity : Nat) :
      ((m.insert a (push capacity ((m.get? a).getD []) p)).get? b).getD [] = (m.get? b).getD [] ∨
      b = a ∧ ((m.insert a (push capacity ((m.get? a).getD []) p)).get? b).getD [] =
        push capacity ((m.get? b).getD []) p := by
    rw [AddressMap.get?_insert]
    split
    · next heq => exact .inr ⟨heq, heq ▸ rfl⟩
    · exact .inl rfl
  by_cases hkind : kind' = kind
  · subst hkind
    cases kind' with
    | broadcast => exact .inr ⟨rfl, .inl rfl, rfl⟩
    | unicast =>
      rcases hinsert q.unicast q.unicastCapacity with hsame | ⟨hb, hpushed⟩
      · exact .inl hsame
      · exact .inr ⟨rfl, .inr hb, hpushed⟩
    | lookup =>
      rcases hinsert q.lookup q.lookupCapacity with hsame | ⟨hb, hpushed⟩
      · exact .inl hsame
      · exact .inr ⟨rfl, .inr hb, hpushed⟩
  · refine .inl ?_
    cases kind <;> cases kind' <;> first | rfl | exact absurd rfl hkind

/-- Where there is a queue for each address, a parcel comes to the end of that of its own. -/
theorem queue_enqueue (q : PacketQueues) {kind : QueueKind} (hkind : kind ≠ .broadcast)
    (target a : Address) (p : Parcel) :
    (q.enqueue kind target p).2.queue kind a =
      if a = target then push (q.capacity kind) (q.queue kind target) p else q.queue kind a := by
  have hinsert (m : AddressMap (List Parcel)) (parcels : List Parcel) :
      ((m.insert target parcels).get? a).getD [] =
        if a = target then parcels else (m.get? a).getD [] := by
    rw [AddressMap.get?_insert]
    split
    · rfl
    · rfl
  cases kind with
  | broadcast => exact absurd rfl hkind
  | unicast => exact hinsert q.unicast _
  | lookup => exact hinsert q.lookup _

/-- Taking parcels out empties queues and leaves the others as they are. -/
theorem drop_cases (q : PacketQueues) (kind kind' : QueueKind) (a : Option Address)
    (b : Address) :
    (q.drop kind a).queue kind' b = q.queue kind' b ∨ (q.drop kind a).queue kind' b = [] := by
  have herase (m : AddressMap (List Parcel)) (a : Address) :
      ((m.erase a).get? b).getD [] = (m.get? b).getD [] ∨ ((m.erase a).get? b).getD [] = [] := by
    by_cases hb : b = a
    · rw [hb, AddressMap.get?_erase_self]
      exact .inr rfl
    · rw [AddressMap.get?_erase_of_ne _ hb]
      exact .inl rfl
  by_cases hkind : kind' = kind
  · subst hkind
    cases kind' with
    | broadcast => exact .inr rfl
    | unicast =>
      cases a with
      | none => exact .inr rfl
      | some a => exact herase q.unicast a
    | lookup =>
      cases a with
      | none => exact .inr rfl
      | some a => exact herase q.lookup a
  · refine .inl ?_
    cases kind <;> cases kind' <;> cases a <;> first | rfl | exact absurd rfl hkind

/-- What is in a queue after a parcel was put in was there, or is the parcel, in its queue. -/
theorem mem_enqueue {q : PacketQueues} {kind kind' : QueueKind} {a b : Address}
    {p p' : Parcel} (h : p' ∈ (q.enqueue kind a p).2.queue kind' b) :
    p' ∈ q.queue kind' b ∨ p' = p ∧ kind' = kind ∧ (kind = .broadcast ∨ b = a) := by
  rcases enqueue_cases q kind kind' a b p with hsame | ⟨hkind, hb, hpushed⟩
  · exact .inl (hsame ▸ h)
  · exact (mem_push (hpushed ▸ h)).imp_right fun hp => ⟨hp, hkind, hb⟩

/-- Nothing joins a queue that is emptied. -/
theorem mem_drop {q : PacketQueues} {kind kind' : QueueKind} {a : Option Address}
    {b : Address} {p : Parcel} (h : p ∈ (q.drop kind a).queue kind' b) : p ∈ q.queue kind' b := by
  rcases drop_cases q kind kind' a b with hsame | hempty
  · exact hsame ▸ h
  · rw [hempty] at h
    exact absurd h List.not_mem_nil

/-- A queue that is full makes room for what comes. -/
theorem length_push {capacity : Nat} {parcels : List Parcel} (positive : 0 < capacity)
    (hshort : parcels.length ≤ capacity) (p : Parcel) :
    (push capacity parcels p).length ≤ capacity := by
  unfold push
  rw [List.length_append, List.length_singleton]
  split
  · rw [List.length_drop]
    omega
  · omega

/-- Each queue has the room that it should have, which is some, and holds no more than that. -/
structure Within (q : PacketQueues) (room : QueueKind → Nat) : Prop where
  capacity : ∀ kind, q.capacity kind = room kind
  positive : ∀ kind, 0 < room kind
  short : ∀ kind a, (q.queue kind a).length ≤ room kind

namespace Within

variable {q : PacketQueues} {room : QueueKind → Nat}

/-- So no queue outgrows its room when a parcel is put in. -/
theorem enqueue (h : q.Within room) (kind : QueueKind) (a : Address) (p : Parcel) :
    (q.enqueue kind a p).2.Within room where
  capacity := fun kind' => by
    have hcapacity := h.capacity kind'
    cases kind <;> exact hcapacity
  positive := h.positive
  short := fun kind' b => by
    rcases enqueue_cases q kind kind' a b p with hsame | ⟨rfl, _, hpushed⟩
    · rw [hsame]
      exact h.short kind' b
    · rw [hpushed, h.capacity kind']
      exact length_push (h.positive kind') (h.short kind' b) p

/-- Nor does one when parcels are taken out. -/
theorem drop (h : q.Within room) (kind : QueueKind) (a : Option Address) :
    (q.drop kind a).Within room where
  capacity := fun kind' => by
    have hcapacity := h.capacity kind'
    cases kind <;> cases a <;> exact hcapacity
  positive := h.positive
  short := fun kind' b => by
    rcases drop_cases q kind kind' a b with hsame | hempty
    · rw [hsame]
      exact h.short kind' b
    · rw [hempty]
      exact Nat.zero_le _

theorem clear (h : q.Within room) : q.clear.2.Within room where
  capacity := fun kind => by
    have hcapacity := h.capacity kind
    cases kind <;> exact hcapacity
  positive := h.positive
  short := fun kind _ => by cases kind <;> exact Nat.zero_le _

end Within

/-- What is taken out was in some queue. -/
theorem mem_select {q : PacketQueues} {kind : QueueKind} {a : Option Address} {p : Parcel}
    (h : p ∈ q.select kind a) : ∃ b, p ∈ q.queue kind b := by
  have hvalues {m : AddressMap (List Parcel)} (h : p ∈ m.values.flatten) :
      ∃ b, p ∈ (m.get? b).getD [] := by
    obtain ⟨parcels, hmem, hp⟩ := List.mem_flatten.mp h
    obtain ⟨b, hb⟩ := (AddressMap.mem_values_iff _ _).mp hmem
    exact ⟨b, by rw [hb]; exact hp⟩
  cases kind with
  | broadcast => exact ⟨{}, h⟩
  | unicast =>
    cases a with
    | none => exact hvalues h
    | some a => exact ⟨a, h⟩
  | lookup =>
    cases a with
    | none => exact hvalues h
    | some a => exact ⟨a, h⟩

end PacketQueues

namespace ContentionQueue

/-- The packets on timers. -/
def parcels (q : ContentionQueue) : List Parcel := q.contenders.map Contender.parcel

theorem mem_insert {c d : Contender} {contenders : List Contender} (h : d ∈ insert c contenders) :
    d = c ∨ d ∈ contenders := by
  induction contenders with
  | nil => exact .inl (List.mem_singleton.mp h)
  | cons e rest ih =>
    unfold insert at h
    split at h
    · rcases List.mem_cons.mp h with rfl | h
      · exact .inr List.mem_cons_self
      · exact (ih h).imp_right (List.mem_cons_of_mem _)
    · exact List.mem_cons.mp h

/-- No second timer is started for a packet. -/
theorem schedule_of_contains {q : ContentionQueue} {key : ContentionKey}
    (h : q.contains key = true) (p : Parcel) (timeout now : Nat) :
    (q.schedule key p timeout now).2 = q := by
  unfold schedule
  rw [if_pos h]

/-- Who waits on a timer did so before, or was put there now. -/
theorem mem_schedule {q : ContentionQueue} {key : ContentionKey} {p : Parcel} {c : Contender}
    {timeout now : Nat} (h : c ∈ (q.schedule key p timeout now).2.contenders) :
    c ∈ q.contenders ∨ c.key = key ∧ c.parcel = p := by
  unfold schedule at h
  split at h
  · exact .inl h
  · rcases mem_insert h with rfl | hc
    · exact .inr ⟨rfl, rfl⟩
    · exact .inl hc

/-- What a timer lets go had been on one. -/
theorem mem_fired {q : ContentionQueue} {now : Nat} {p : Parcel} (h : p ∈ (q.fire now).1) :
    p ∈ q.parcels := by
  obtain ⟨c, hc, rfl⟩ := List.mem_map.mp (List.mem_filter.mp h).1
  exact List.mem_map_of_mem (List.mem_filter.mp hc).1

end ContentionQueue

end Geocast
