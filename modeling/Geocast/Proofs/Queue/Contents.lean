import Geocast.Proofs.Queue.Membership
import Mathlib.Algebra.Order.Group.Multiset
import Mathlib.Tactic.Abel

/-!
# How much is in a queue

The parcels of all queues together are a multiset (`stock`), and so are those on timers. Each
operation is an equation between such multisets, so that what is put in, what falls out of a full
queue and what is taken out can be counted: nothing comes up from nowhere, and nothing gets lost
that the operation does not give back.
-/

namespace Geocast

namespace AddressMap

variable {β : Type}

/-- Among entries with different keys, those under one key are the value found there. -/
theorem filter_key_eq {entries : List (Address × β)} (nodup : (entries.map Prod.fst).Nodup)
    (a : Address) :
    entries.filter (fun e => decide (e.1 = a)) =
      (((entries.find? (·.1 = a)).map Prod.snd).map (a, ·)).toList := by
  induction entries with
  | nil => rfl
  | cons entry rest ih =>
    rw [List.map_cons, List.nodup_cons] at nodup
    by_cases ha : entry.1 = a
    · have hrest : rest.filter (fun e => decide (e.1 = a)) = [] := by
        refine List.filter_eq_nil_iff.mpr fun e he heq => nodup.1 ?_
        rw [ha, ← of_decide_eq_true heq]
        exact List.mem_map_of_mem he
      rw [List.filter_cons_of_pos (by simpa using ha), hrest,
        List.find?_cons_of_pos (by simpa using ha)]
      simp [← ha]
    · rw [List.filter_cons_of_neg (by simpa using ha),
        List.find?_cons_of_neg (by simpa using ha), ih nodup.2]

/-- All values are the one of an address and those of the others. -/
theorem values_perm (m : AddressMap β) (a : Address) :
    m.values.Perm ((m.get? a).toList ++ (m.erase a).values) := by
  have hsplit := List.filter_append_perm (fun e : Address × β => decide (e.1 = a)) m.toList
  rw [filter_key_eq m.nodup a] at hsplit
  have hvalues := (hsplit.map Prod.snd).symm
  rw [List.map_append] at hvalues
  refine hvalues.trans (List.Perm.of_eq ?_)
  congr 1
  · unfold get?
    cases (m.toList.find? (·.1 = a)).map Prod.snd <;> rfl
  · unfold values erase filter
    simp only [ne_eq, decide_not]

/-- What an address was given last does not matter once it is taken away. -/
theorem toList_erase_insert (m : AddressMap β) (a : Address) (v : β) :
    ((m.insert a v).erase a).toList = (m.erase a).toList := by
  have hreplace (l : List (Address × β)) :
      (l.map fun e => if e.1 = a then (a, v) else e).filter (fun e => !decide (e.1 = a)) =
        l.filter (fun e => !decide (e.1 = a)) := by
    induction l with
    | nil => rfl
    | cons e rest ih =>
      by_cases he : e.1 = a
      · simp only [List.map_cons, he, if_true, List.filter_cons, decide_true, Bool.not_true,
          Bool.false_eq_true, if_false, ih]
      · simp only [List.map_cons, he, if_false, List.filter_cons, decide_false, Bool.not_false,
          if_true, ih]
  unfold erase filter insert
  simp only [ne_eq, decide_not]
  split
  · exact hreplace _
  · simp

end AddressMap

/-- The parcels of a family of queues. -/
def stockOf (m : AddressMap (List Parcel)) : Multiset Parcel := ↑m.values.flatten

/-- The queue of an address and those of all others. -/
theorem stockOf_eq (m : AddressMap (List Parcel)) (a : Address) :
    stockOf m = ↑((m.get? a).getD []) + stockOf (m.erase a) := by
  have hperm := (m.values_perm a).flatten
  unfold stockOf
  rw [Multiset.coe_eq_coe.mpr hperm, List.flatten_append, ← Multiset.coe_add]
  cases m.get? a <;> simp

/-- A queue that takes the place of another swaps the one's parcels for the other's. -/
theorem stockOf_insert (m : AddressMap (List Parcel)) (a : Address) (parcels : List Parcel) :
    stockOf (m.insert a parcels) + ↑((m.get? a).getD []) = stockOf m + ↑parcels := by
  have hothers : stockOf ((m.insert a parcels).erase a) = stockOf (m.erase a) := by
    unfold stockOf AddressMap.values
    rw [AddressMap.toList_erase_insert]
  rw [stockOf_eq (m.insert a parcels) a, hothers, AddressMap.get?_insert_self, Option.getD_some,
    stockOf_eq m a]
  abel

namespace PacketQueues

/-- All parcels, in whatever queue. -/
def stock (q : PacketQueues) : Multiset Parcel :=
  ↑q.broadcast + stockOf q.unicast + stockOf q.lookup

/-- Every parcel is in some queue. -/
theorem exists_of_mem_stock {q : PacketQueues} {p : Parcel} (h : p ∈ q.stock) :
    ∃ kind a, p ∈ q.queue kind a := by
  have hselect (kind : QueueKind) (h : p ∈ q.select kind none) : ∃ kind a, p ∈ q.queue kind a :=
    ⟨kind, mem_select h⟩
  rcases Multiset.mem_add.mp h with h | h
  · rcases Multiset.mem_add.mp h with h | h
    · exact hselect .broadcast h
    · exact hselect .unicast h
  · exact hselect .lookup h

/-- As many are in stock as the queues count. -/
theorem card_stock (q : PacketQueues) : q.stock.card = q.total := by
  unfold stock total length select stockOf
  rw [Multiset.card_add, Multiset.card_add]
  rfl

/-- What one queue holds is all that changes when it is set. -/
theorem stock_setQueue (q : PacketQueues) (kind : QueueKind) (a : Address)
    (parcels : List Parcel) :
    (q.setQueue kind a parcels).stock + ↑(q.queue kind a) = q.stock + ↑parcels := by
  cases kind with
  | broadcast =>
    show (↑parcels + stockOf q.unicast + stockOf q.lookup) + (↑q.broadcast : Multiset Parcel) =
      (↑q.broadcast + stockOf q.unicast + stockOf q.lookup) + ↑parcels
    abel
  | unicast =>
    have hinsert := stockOf_insert q.unicast a parcels
    show (↑q.broadcast + stockOf (q.unicast.insert a parcels) + stockOf q.lookup) +
        ↑((q.unicast.get? a).getD []) = (↑q.broadcast + stockOf q.unicast + stockOf q.lookup) +
        ↑parcels
    rw [add_right_comm, add_assoc (↑q.broadcast : Multiset Parcel), hinsert]
    abel
  | lookup =>
    have hinsert := stockOf_insert q.lookup a parcels
    show (↑q.broadcast + stockOf q.unicast + stockOf (q.lookup.insert a parcels)) +
        ↑((q.lookup.get? a).getD []) = (↑q.broadcast + stockOf q.unicast + stockOf q.lookup) +
        ↑parcels
    rw [add_assoc, hinsert, ← add_assoc]

/-- A queue with room for any parcel at all gives up one if it is full. -/
theorem length_overflow {q : PacketQueues} {kind : QueueKind} (a : Address) (p : Parcel)
    (positive : 0 < q.capacity kind) :
    (q.overflow kind a).length = if (q.enqueue kind a p).1 then 1 else 0 := by
  show _ = if decide (q.capacity kind ≤ (q.queue kind a).length) then 1 else 0
  unfold overflow
  split
  · next hfull =>
    rw [if_pos (decide_eq_true hfull), List.length_take]
    omega
  · next hroom =>
    rw [if_neg (by simpa using hroom)]
    rfl

/-- A parcel that is put in is added, and what it pushes out leaves. -/
theorem stock_enqueue (q : PacketQueues) (kind : QueueKind) (a : Address) (p : Parcel) :
    (q.enqueue kind a p).2.stock + ↑(q.overflow kind a) = q.stock + {p} := by
  have hpush : (↑(push (q.capacity kind) (q.queue kind a) p) : Multiset Parcel) +
      ↑(q.overflow kind a) = ↑(q.queue kind a) + {p} := by
    unfold push overflow
    split
    · -- what a full queue gives up and what it keeps are all that it held
      have hall : (↑((q.queue kind a).take 1) : Multiset Parcel) + ↑((q.queue kind a).drop 1) =
          ↑(q.queue kind a) := by
        rw [Multiset.coe_add, List.take_append_drop]
      rw [← Multiset.coe_add, Multiset.coe_singleton, add_right_comm, ← hall,
        add_comm (↑((q.queue kind a).drop 1) : Multiset Parcel)]
    · rw [← Multiset.coe_add, Multiset.coe_singleton, Multiset.coe_nil, add_zero]
  have hset := stock_setQueue q kind a (push (q.capacity kind) (q.queue kind a) p)
  have hcancel : (q.enqueue kind a p).2.stock + ↑(q.overflow kind a) + ↑(q.queue kind a) =
      q.stock + {p} + ↑(q.queue kind a) := by
    rw [add_right_comm]
    show (q.setQueue kind a _).stock + ↑(q.queue kind a) + ↑(q.overflow kind a) = _
    rw [hset, add_assoc, hpush]
    abel
  exact add_right_cancel hcancel

/-- What is taken out leaves, and all else stays. -/
theorem stock_drop (q : PacketQueues) (kind : QueueKind) (a : Option Address) :
    (q.drop kind a).stock + ↑(q.select kind a) = q.stock := by
  have hempty : stockOf .empty = 0 := rfl
  cases kind with
  | broadcast =>
    show ((↑([] : List Parcel) : Multiset Parcel) + stockOf q.unicast + stockOf q.lookup) +
      ↑q.broadcast = ↑q.broadcast + stockOf q.unicast + stockOf q.lookup
    rw [Multiset.coe_nil, zero_add]
    abel
  | unicast =>
    cases a with
    | none =>
      show (↑q.broadcast + stockOf .empty + stockOf q.lookup) + stockOf q.unicast =
        ↑q.broadcast + stockOf q.unicast + stockOf q.lookup
      rw [hempty]
      abel
    | some a =>
      show (↑q.broadcast + stockOf (q.unicast.erase a) + stockOf q.lookup) +
        ↑((q.unicast.get? a).getD []) = ↑q.broadcast + stockOf q.unicast + stockOf q.lookup
      -- the queue of one address is a part of its family
      rw [stockOf_eq q.unicast a]
      abel
  | lookup =>
    cases a with
    | none =>
      show (↑q.broadcast + stockOf q.unicast + stockOf .empty) + stockOf q.lookup =
        ↑q.broadcast + stockOf q.unicast + stockOf q.lookup
      rw [hempty]
      abel
    | some a =>
      show (↑q.broadcast + stockOf q.unicast + stockOf (q.lookup.erase a)) +
        ↑((q.lookup.get? a).getD []) = ↑q.broadcast + stockOf q.unicast + stockOf q.lookup
      rw [stockOf_eq q.lookup a]
      abel

end PacketQueues

namespace ContentionQueue

/-- All parcels on timers. -/
def stock (q : ContentionQueue) : Multiset Parcel := ↑q.parcels

theorem card_stock (q : ContentionQueue) : q.stock.card = q.size := by
  show q.parcels.length = _
  unfold parcels size
  rw [List.length_map]

/-- No packet is on two timers. -/
def Distinct (q : ContentionQueue) : Prop := (q.contenders.map Contender.key).Nodup

/-- A contender takes its place among those that wait, and replaces none. -/
theorem insert_perm (c : Contender) (contenders : List Contender) :
    (insert c contenders).Perm (c :: contenders) := by
  induction contenders with
  | nil => exact .refl _
  | cons d rest ih =>
    unfold insert
    split
    · exact (ih.cons d).trans (.swap c d rest)
    · exact .refl _

/-- A key is contained if one of those that wait has it. -/
theorem contains_iff (q : ContentionQueue) (key : ContentionKey) :
    q.contains key = true ↔ key ∈ q.contenders.map Contender.key := by
  unfold contains
  simp [List.any_eq_true, List.mem_map]

/-- A timer is started for a packet for which none runs. -/
theorem schedule_perm {q : ContentionQueue} {key : ContentionKey} (hfree : q.contains key = false)
    (p : Parcel) (timeout now : Nat) : (q.schedule key p timeout now).2.contenders.Perm
      (⟨now * nanosPerMilli + timeout, key, p⟩ :: q.contenders) := by
  unfold schedule
  rw [if_neg (Bool.eq_false_iff.mp hfree)]
  exact insert_perm _ _

/-- A packet that has a timer already is given no second one. -/
theorem Distinct.schedule {q : ContentionQueue} (h : q.Distinct) (key : ContentionKey)
    (p : Parcel) (timeout now : Nat) : (q.schedule key p timeout now).2.Distinct := by
  cases hcontains : q.contains key with
  | true => rwa [schedule_of_contains hcontains]
  | false =>
    refine (((schedule_perm hcontains p timeout now).map Contender.key).nodup_iff).mpr ?_
    rw [List.map_cons, List.nodup_cons, ← contains_iff]
    exact ⟨Bool.eq_false_iff.mp hcontains, h⟩

theorem Distinct.filter {q : ContentionQueue} (h : q.Distinct) (keep : Contender → Bool) :
    Distinct ⟨q.contenders.filter keep⟩ :=
  h.sublist (List.filter_sublist.map _)

/-- What comes off its timer when a copy of it is overheard. -/
def overheard (q : ContentionQueue) (key : ContentionKey) : List Parcel :=
  (q.contenders.filter fun c => decide (c.key = key)).map Contender.parcel

/-- A timer that is cancelled gives up the packet that was on it. -/
theorem stock_cancel (q : ContentionQueue) (key : ContentionKey) :
    (q.cancel key).2.stock + ↑(q.overheard key) = q.stock := by
  unfold cancel overheard stock parcels
  rw [add_comm, Multiset.coe_add, ← List.map_append, Multiset.coe_eq_coe]
  exact (List.filter_append_perm _ _).map _

/-- Taking a packet off its timer takes no other packet with it. -/
theorem length_overheard {q : ContentionQueue} (h : q.Distinct) (key : ContentionKey) :
    (q.overheard key).length = if (q.cancel key).1 then 1 else 0 := by
  show (List.map _ _).length = if q.contains key then 1 else 0
  have hcount : (q.contenders.map Contender.key).count key =
      (q.contenders.filter fun c => decide (c.key = key)).length := by
    rw [List.count, List.countP_map, List.countP_eq_length_filter]
    refine congrArg List.length (List.filter_congr fun c _ => ?_)
    rw [Bool.eq_iff_iff, Function.comp_apply, beq_iff_eq, decide_eq_true_iff]
  rw [List.length_map, ← hcount, List.Nodup.count h]
  exact if_congr (contains_iff q key).symm rfl rfl

/-- Of the packets whose timers have ended, those that waited too long. -/
def lapsed (q : ContentionQueue) (now : Nat) : List Parcel :=
  ((q.contenders.filter (isDue now)).map Contender.parcel).filter (·.isExpired now)

/-- What comes off the timers when they end is handed out or has lapsed. -/
theorem stock_fire (q : ContentionQueue) (now : Nat) :
    (q.fire now).2.stock + ↑(q.fire now).1 + ↑(q.lapsed now) = q.stock := by
  have hdue : (q.contenders.filter (isDue now) ++
      q.contenders.filter fun c => !isDue now c).Perm q.contenders :=
    List.filter_append_perm (isDue now) q.contenders
  unfold fire takeDue lapsed stock parcels
  dsimp only
  rw [add_assoc, Multiset.coe_add, Multiset.coe_add, Multiset.coe_eq_coe]
  refine List.Perm.trans ?_ (hdue.map Contender.parcel)
  rw [List.map_append]
  refine List.perm_append_comm.trans (.append_right _ ?_)
  exact List.perm_append_comm.trans (List.filter_append_perm _ _)

end ContentionQueue

end Geocast
