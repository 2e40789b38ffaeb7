import Geocast.Proofs.Queue.Membership
import Geocast.Proofs.Router.Record

/-!
# What waits for a lookup

Transmissions wait on lookups, their packets wait in queues, and the table holds placeholders: three
containers that nothing in the types ties together. `Orderly` is what ties them, in every reachable
state: a station whose lookup is in flight has no known place, the packets queued for it are the
latest of the transmissions that wait, in order, and no packet of a transmission that still waits
was ever forwarded. Each part is shown for one kind of move at a time.
-/

namespace Geocast.Router

variable {α : Type}

/-! ## Placeholders -/

/-- A station that is being asked for has no entry but a placeholder, and no packet of it is
remembered there. -/
structure Asking (r : Router α) : Prop where
  asked : ∀ a, r.lookups.isPending a = true →
    ∀ e, r.table.stations.get? a = some e → e.pending = true
  pristine : ∀ a e, r.table.stations.get? a = some e → e.pending = true → e.duplicates = {}

/-- No number of a station that is asked for is remembered. -/
theorem Asking.remembered {r : Router α} (h : Asking r) {a : Address}
    (hpending : r.lookups.isPending a = true) : r.remembered a = {} := by
  unfold Router.remembered
  cases hfind : r.table.find? a r.clock with
  | none => rfl
  | some e =>
    have hget := ((LocationTable.find?_eq_some_iff _ _ _ _).mp hfind).1
    exact h.pristine a e hget (h.asked a hpending e hget)

/-- When a packet is parked its station gets a placeholder, and no other entry changes. -/
theorem Awaited.entry {r s : Router α} {target : Address} {p : Parcel}
    (h : Awaited r target p s) {a : Address} {e : Entry}
    (he : s.table.stations.get? a = some e) :
    r.table.stations.get? a = some e ∨ a = target ∧ e = .placeholder a r.clock := by
  rcases h.table with ⟨_, htable⟩ | ⟨_, htable⟩
  · exact .inl (htable ▸ he)
  · rw [htable] at he
    rcases LocationTable.insertPending_get? he with he | ⟨rfl, _, rfl⟩
    · exact .inl he
    · exact .inr ⟨rfl, rfl⟩

/-- A station that begins to be asked for has nothing but that placeholder. -/
theorem Asking.await {r : Router α} (h : Asking r) (hfitted : Fitted r) {target : Address}
    (hunknown : r.table.findPosition? target r.clock = none) (p : Parcel) :
    Asking (r.await target p).2 := by
  have hawaited := (await_awaited r target p).2
  generalize (r.await target p).2 = s at hawaited
  constructor
  · intro a ha e he
    by_cases hne : a = target
    · subst hne
      rcases hawaited.table with ⟨hpending, htable⟩ | ⟨_, htable⟩
      · exact h.asked a hpending e (htable ▸ he)
      · have halone : r.table.stations.get? r.table.own = none := hfitted.own ▸ hfitted.alone
        exact LocationTable.insertPending_pending halone hunknown (htable ▸ he)
    · obtain ⟨l, hl⟩ := (isPending_iff s a).mp ha
      rw [hawaited.others a hne] at hl
      rcases hawaited.entry he with he | ⟨rfl, _⟩
      · exact h.asked a ((isPending_iff r a).mpr ⟨l, hl⟩) e he
      · exact absurd rfl hne
  · intro a e he hpending
    rcases hawaited.entry he with he | ⟨_, rfl⟩
    · exact h.pristine a e he hpending
    · rfl

/-! ## Queues -/

/-- A packet that is queued for one station is queued for no other. -/
theorem queue_enqueue (q : PacketQueues) (target a : Address) (p : Parcel) :
    (q.enqueue .lookup target p).2.queue .lookup a =
      if a = target then PacketQueues.push q.lookupCapacity (q.queue .lookup target) p
      else q.queue .lookup a :=
  q.queue_enqueue (by decide) target a p

/-- A full queue that gives up its oldest keeps the latest of all that ever came. -/
theorem map_push_eq {β : Type} {capacity : Nat} (positive : 0 < capacity) (f : Parcel → β)
    {parcels : List Parcel} {came : List β}
    (h : parcels.map f = came.drop (came.length - capacity)) (p : Parcel) :
    (PacketQueues.push capacity parcels p).map f =
      (came ++ [f p]).drop ((came ++ [f p]).length - capacity) := by
  have hlength : parcels.length = came.length - (came.length - capacity) := by
    rw [← List.length_map f, h, List.length_drop]
  have hle : came.length + 1 - capacity ≤ came.length := by omega
  have hall : (came ++ [f p]).length - capacity = came.length + 1 - capacity := by
    rw [List.length_append, List.length_singleton]
  unfold PacketQueues.push
  rw [List.map_append, List.map_singleton, hall, List.drop_append_of_le_length hle]
  congr 1
  split
  · next hfull =>
    -- the one that falls out came before all that are kept
    rw [List.map_drop, h, List.drop_drop]
    congr 1
    omega
  · next hroom =>
    rw [h]
    congr 1
    omega

/-- The packets queued for a station are the latest of the transmissions that wait for its place,
in the order in which they came, and no transmission waits twice. -/
structure InLine (r : Router α) : Prop where
  line : ∀ a, (r.queues.queue .lookup a).map (fun p => p.origin.handle) =
    ((r.waiters a).map some).drop (((r.waiters a).map some).length - r.config.lookupCapacity)
  ordered : ∀ a, (r.waiters a).Pairwise (· < ·)
  issued : ∀ a, ∀ n ∈ r.waiters a, n < r.handles
  apart : ∀ a b, ∀ n ∈ r.waiters a, n ∈ r.waiters b → a = b

/-- A packet in a queue belongs to a transmission that waits there. -/
theorem InLine.waits {r : Router α} (h : InLine r) {a : Address} {p : Parcel}
    (hp : p ∈ r.queues.queue .lookup a) : ∃ n ∈ r.waiters a, p.origin.handle = some n := by
  have hmem : p.origin.handle ∈ (r.queues.queue .lookup a).map (fun p => p.origin.handle) :=
    List.mem_map_of_mem hp
  rw [h.line a] at hmem
  obtain ⟨n, hn, heq⟩ := List.mem_map.mp (List.mem_of_mem_drop hmem)
  exact ⟨n, hn, heq.symm⟩

/-- Who leaves takes along what is queued, and the line of the others stays. -/
theorem InLine.left {leaving : Address → Prop} {r s : Router α} (h : InLine r)
    (hleft : Left leaving r s) : InLine s where
  line := by
    intro a
    by_cases ha : leaving a
    · rw [(hleft.gone a ha).1, (hleft.gone a ha).2]
      exact List.drop_nil.symm
    · rw [(hleft.kept a ha).1, (hleft.kept a ha).2, hleft.config, h.line a]
  ordered := by
    intro a
    by_cases ha : leaving a
    · rw [(hleft.gone a ha).1]
      exact .nil
    · rw [(hleft.kept a ha).1]
      exact h.ordered a
  issued := fun a n hn => hleft.handles ▸ h.issued a n (hleft.waiters_subset hn).1
  apart := fun a b n ha hb =>
    h.apart a b n (hleft.waiters_subset ha).1 (hleft.waiters_subset hb).1

/-- Who comes last waits last. -/
theorem Awaited.waiters {r s : Router α} {target : Address} {p : Parcel}
    (h : Awaited r target p s) (a : Address) :
    s.waiters a = if a = target then r.waiters target ++ [r.handles] else r.waiters a := by
  split
  · next heq =>
    subst heq
    obtain ⟨l, hl, hline⟩ := h.line
    show (s.lookups.inFlight.get? a).elim [] Lookup.waiters = _
    rw [hl]
    exact hline
  · next hne =>
    show (s.lookups.inFlight.get? a).elim [] Lookup.waiters = _
    rw [h.others a hne]
    rfl

/-- A packet that is parked comes last in line, as does its sender. -/
theorem InLine.await {r s : Router α} (h : InLine r) (hfitted : Fitted r) {target : Address}
    {p : Parcel} (hawaited : Awaited r target p s) (hp : p.origin.handle = some r.handles) :
    InLine s where
  line := by
    intro a
    rw [hawaited.waiters a, hawaited.queues, queue_enqueue, hawaited.config]
    split
    · rw [List.map_append, List.map_singleton, ← hp, hfitted.room]
      exact map_push_eq hfitted.positive _ (h.line target) p
    · exact h.line a
  ordered := by
    intro a
    rw [hawaited.waiters a]
    split
    · refine List.pairwise_append.mpr ⟨h.ordered target, List.pairwise_singleton _ _, ?_⟩
      intro n hn m hm
      rw [List.mem_singleton.mp hm]
      exact h.issued target n hn
    · exact h.ordered a
  issued := by
    intro a n hn
    rw [hawaited.waiters a] at hn
    rw [hawaited.handles]
    split at hn
    · rcases List.mem_append.mp hn with hn | hn
      · exact Nat.lt_succ_of_lt (h.issued target n hn)
      · rw [List.mem_singleton.mp hn]
        exact Nat.lt_succ_self _
    · exact Nat.lt_succ_of_lt (h.issued a n hn)
  apart := by
    -- the new handle waits nowhere yet
    have hnew (b : Address) : r.handles ∉ r.waiters b := fun hb =>
      absurd (h.issued b _ hb) (Nat.lt_irrefl _)
    have hmem (b : Address) (n : Nat) (hn : n ∈ s.waiters b) :
        n ∈ r.waiters b ∨ b = target ∧ n = r.handles := by
      rw [hawaited.waiters b] at hn
      split at hn
      · next heq =>
        rcases List.mem_append.mp hn with hn | hn
        · exact .inl (heq ▸ hn)
        · exact .inr ⟨heq, List.mem_singleton.mp hn⟩
      · exact .inl hn
    intro a b n ha hb
    rcases hmem a n ha with ha | ⟨rfl, rfl⟩
    · rcases hmem b n hb with hb | ⟨_, rfl⟩
      · exact h.apart a b n ha hb
      · exact absurd ha (hnew a)
    · rcases hmem b _ hb with hb | ⟨rfl, _⟩
      · exact absurd hb (hnew b)
      · rfl

/-! ## Handles -/

/-- What is certain of a state that comes after another: the settings are the same, handles are
given out one after the other, and whoever waits then waited before or came since. -/
structure Later (r s : Router α) : Prop where
  config : s.config = r.config
  handles : r.handles ≤ s.handles
  waiters : ∀ a, ∀ n ∈ s.waiters a, n ∈ r.waiters a ∨ r.handles ≤ n
  parcels : ∀ a, ∀ p ∈ s.queues.queue .lookup a, p ∈ r.queues.queue .lookup a ∨
    ∃ n, p.origin.handle = some n ∧ r.handles ≤ n

theorem Later.refl (r : Router α) : Later r r :=
  ⟨rfl, Nat.le_refl _, fun _ _ h => .inl h, fun _ _ h => .inl h⟩

theorem Later.trans {r s t : Router α} (h : Later r s) (h' : Later s t) : Later r t where
  config := h'.config.trans h.config
  handles := Nat.le_trans h.handles h'.handles
  waiters := by
    intro a n hn
    rcases h'.waiters a n hn with hn | hn
    · exact h.waiters a n hn
    · exact .inr (Nat.le_trans h.handles hn)
  parcels := by
    intro a p hp
    rcases h'.parcels a p hp with hp | ⟨n, hhandle, hn⟩
    · exact h.parcels a p hp
    · exact .inr ⟨n, hhandle, Nat.le_trans h.handles hn⟩

/-- Who waits nowhere never waits again. -/
theorem Later.absent {r s : Router α} (h : Later r s) {n : Nat} (hissued : n < r.handles)
    (habsent : ∀ a, n ∉ r.waiters a) : n < s.handles ∧ ∀ a, n ∉ s.waiters a :=
  ⟨Nat.lt_of_lt_of_le hissued h.handles, fun a ha =>
    (h.waiters a n ha).elim (habsent a) fun hnew => absurd hissued (Nat.not_lt.mpr hnew)⟩

/-- Who waited where nobody waits any longer waits nowhere. -/
theorem InLine.gone {r s : Router α} (h : InLine r) (hlater : Later r s) {a : Address} {n : Nat}
    (hn : n ∈ r.waiters a) (hgone : s.waiters a = []) :
    n < s.handles ∧ ∀ b, n ∉ s.waiters b := by
  have hissued := h.issued a n hn
  refine ⟨Nat.lt_of_lt_of_le hissued hlater.handles, fun b hb => ?_⟩
  rcases hlater.waiters b n hb with hb' | hnew
  · obtain rfl := h.apart a b n hn hb'
    rw [hgone] at hb
    exact absurd hb List.not_mem_nil
  · exact absurd hissued (Nat.not_lt.mpr hnew)

/-- When lookups end, nobody new waits. -/
theorem Left.later {leaving : Address → Prop} {r s : Router α} (h : Left leaving r s) :
    Later r s where
  config := h.config
  handles := Nat.le_of_eq h.handles.symm
  waiters := fun _ _ hn => .inl (h.waiters_subset hn).1
  parcels := fun _ _ hp => .inl (h.queue_subset hp).1

/-- The only packet that joins a queue is the one that is parked. -/
theorem Awaited.queue_subset {r s : Router α} {target a : Address} {p q : Parcel}
    (h : Awaited r target p s) (hq : q ∈ s.queues.queue .lookup a) :
    q ∈ r.queues.queue .lookup a ∨ a = target ∧ q = p := by
  rw [h.queues, queue_enqueue] at hq
  split at hq
  · next heq =>
    rcases PacketQueues.mem_push hq with hq | hq
    · exact .inl (heq ▸ hq)
    · exact .inr ⟨heq, hq⟩
  · exact .inl hq

/-- The handle that its sender waits by is a new one. -/
theorem Awaited.later {r s : Router α} {target : Address} {p : Parcel}
    (h : Awaited r target p s) (hp : p.origin.handle = some r.handles) : Later r s where
  config := h.config
  handles := by
    rw [h.handles]
    exact Nat.le_succ _
  waiters := by
    intro a n hn
    rw [h.waiters a] at hn
    split at hn
    · next heq =>
      rcases List.mem_append.mp hn with hn | hn
      · exact .inl (heq ▸ hn)
      · exact .inr (Nat.le_of_eq (List.mem_singleton.mp hn).symm)
    · exact .inl hn
  parcels := by
    intro a q hq
    rcases h.queue_subset hq with hq | ⟨_, rfl⟩
    · exact .inl hq
    · exact .inr ⟨_, hp, Nat.le_refl _⟩

/-! ## Packets of lookups -/

/-- What is queued for a station is a packet of the router's own for that station, written down
before the place of the station was known. -/
def Addressed (r : Router α) : Prop :=
  ∀ a, ∀ p ∈ r.queues.queue .lookup a, ∃ q u, Packet.decode p.frame = .ok q ∧
    q.extended = .unicast u ∧ u.destination = { address := a } ∧
    u.source.address = r.config.address

/-- Nobody waits for a packet that was already released from the queue of a lookup. -/
def Unreleased (r : Router α) : Prop :=
  ∀ e ∈ r.released, e.kind = .lookup → ∀ n, e.parcel.origin.handle = some n →
    n < r.handles ∧ ∀ a, n ∉ r.waiters a

/-- What ties lookups, queues and the table together. -/
structure Orderly (r : Router α) : Prop where
  fitted : Fitted r
  asking : Asking r
  inLine : InLine r
  addressed : Addressed r
  unreleased : Unreleased r

variable [Scalar α] {P : Router α → Packet → Prop}

/-! ## Each kind of move -/

/-- A packet that tells of a station ends its lookup, unless the table has seen it before. -/
theorem Asking.hear {r s : Router α} (hheard : Hear r s) (h : Asking r) (hfitted : Fitted r) :
    Asking s := by
  obtain ⟨leaving, hleft⟩ := hheard.left
  obtain ⟨a, hheard⟩ := hheard.heard hfitted.own
  obtain ⟨check, hlearned, hdup⟩ := hheard.learned
  -- nobody asks for a station that was just heard: of one that is being asked for no number is
  -- remembered, so that its packet is no duplicate and ends the lookup
  have hsource : s.lookups.isPending a.source.address = false := by
    rw [Bool.eq_false_iff]
    intro hpending
    obtain ⟨n, hcheck⟩ := hdup hpending
    have hseen := ((hlearned.duplicate n).mp hcheck).2
    rw [h.remembered (hleft.flying _ hpending).1] at hseen
    exact absurd hseen Bool.false_ne_true
  have hothers (b : Address) (e : Entry) (he : s.table.stations.get? b = some e)
      (hb : b ≠ a.source.address) : r.table.stations.get? b = some e := by
    rwa [hlearned.others b hb] at he
  constructor
  · intro b hb e he
    have hne : b ≠ a.source.address := fun heq => by
      rw [heq, hsource] at hb
      exact absurd hb (by simp)
    exact h.asked b (hleft.flying b hb).1 e (hothers b e he hne)
  · intro b e he hpending
    by_cases hb : b = a.source.address
    · subst hb
      obtain ⟨e', he', hknown, _⟩ := hlearned.entry
      obtain rfl := Option.some.inj (he'.symm.trans he)
      rw [hknown] at hpending
      exact absurd hpending (by simp)
    · exact h.pristine b e (hothers b e he hb) hpending

/-- No move gives an entry with a position to a station that is still asked for. -/
theorem Asking.move {r s : Router α} (hmove : Move P r s) (h : Asking r) (hfitted : Fitted r) :
    Asking s := by
  cases hmove with
  | hear hheard => exact h.hear hheard hfitted
  | work hwork =>
    rcases hwork.left with ⟨leaving, hleft⟩ | ⟨target, d, small, hunknown, rfl⟩
    · obtain ⟨_, hentries⟩ := hwork.table
      constructor
      · intro a ha e he
        rcases hentries a e he with he | ⟨_, rfl⟩
        · exact h.asked a (hleft.flying a ha).1 e he
        · rfl
      · intro a e he hpending
        rcases hentries a e he with he | ⟨_, rfl⟩
        · exact h.pristine a e he hpending
        · rfl
    · exact h.await hfitted hunknown _

/-- No move disturbs the line. -/
theorem InLine.move {r s : Router α} (hmove : Move P r s) (h : InLine r) (hfitted : Fitted r) :
    InLine s := by
  rcases hmove.left with ⟨_, hleft⟩ | ⟨target, d, small, _, rfl⟩
  · exact h.left hleft
  · exact h.await hfitted (await_awaited r target _).2 rfl

/-- A state after a move comes later. -/
theorem Move.later {r s : Router α} (h : Move P r s) : Later r s := by
  rcases h.left with ⟨_, hleft⟩ | ⟨target, d, small, _, rfl⟩
  · exact hleft.later
  · exact (await_awaited r target _).2.later rfl

/-- No move queues a packet where it does not belong. -/
theorem Addressed.move {r s : Router α} (hmove : Move P r s) (h : Addressed r) : Addressed s := by
  rcases hmove.left with ⟨_, hleft⟩ | ⟨target, d, small, _, rfl⟩
  · intro a p hp
    rw [hleft.config]
    exact h a p (hleft.queue_subset hp).1
  · have hawaited := (await_awaited r target (r.unresolvedParcel d small target)).2
    intro a p hp
    rw [hawaited.config]
    rcases hawaited.queue_subset hp with hp | ⟨rfl, rfl⟩
    · exact h a p hp
    · exact ⟨_, _, Packet.decode_encode (unresolvedPacket_sendable r d small a), rfl, rfl, rfl⟩

/-- Elementary steps release from the queues for neighbours and for ways, not from those of
lookups. -/
theorem Work.released {r s : Router α} (h : Work P r s) :
    Noted (·.kind ≠ .lookup) r s := by
  cases h with
  | forward h => exact h.noted.2
  | await d small _ _ => exact .of_eq (await_awaited r _ (r.unresolvedParcel d small _)).2.released
  | tend htends => exact .of_eq rfl
  | expire hl => exact .of_eq (expireLookup_ended hl).2.2
  | sweep due => exact .of_eq rfl
  | start => exact .of_eq rfl
  | stop hrunning =>
    rw [stop_eq hrunning]
    exact .of_eq rfl
  | reposition position => exact .of_eq rfl
  | pass => exact .of_eq rfl
  | arrive => exact .of_eq rfl
  | clear => exact .of_eq rfl

/-- What a move adds to the record of releases from the queue of a lookup was waiting there, and
nobody waits for that lookup any longer. -/
theorem Move.released {r s : Router α} (h : Move P r s) :
    Noted (fun e => e.kind = .lookup →
      ∃ a, e.parcel ∈ r.queues.queue .lookup a ∧ s.waiters a = []) r s := by
  cases h with
  | work h =>
    obtain ⟨new, hnew, hkinds⟩ := h.released
    exact ⟨new, hnew, fun e he hkind => absurd hkind (hkinds e he)⟩
  | hear h =>
    rcases h.forms with ⟨table, rfl⟩ | ⟨table, f, target, rfl⟩
    · exact .of_eq rfl
    · generalize hbefore : ({ r with table } : Router α).count f = b
      have hqueues : b.queues = r.queues := by rw [← hbefore]; rfl
      have hreleased : b.released = r.released := by rw [← hbefore]; rfl
      cases hl : b.lookups.inFlight.get? target with
      | none =>
        rw [resolveLookup_idle hl]
        exact .of_eq hreleased
      | some l =>
        obtain ⟨hreleases, _⟩ := resolveLookup_released hl
        refine ⟨_, hreleased ▸ hreleases, fun e he _ => ⟨target, ?_, ?_⟩⟩
        · obtain ⟨p, hp, hrecord⟩ := List.mem_filterMap.mp he
          rw [(release?_parcel hrecord).2.2, ← hqueues]
          exact (List.mem_filter.mp hp).1
        · exact ((resolveLookup_ended hl).1.left.gone _ rfl).1

/-- What a lookup releases nobody waits for any longer. -/
theorem Unreleased.move {r s : Router α} (hmove : Move P r s) (h : Unreleased r)
    (hline : InLine r) : Unreleased s := by
  have hlater := hmove.later
  obtain ⟨new, hreleased, hnew⟩ := hmove.released
  intro e he hkind n hn
  rw [hreleased] at he
  rcases List.mem_append.mp he with he | he
  · obtain ⟨hissued, habsent⟩ := h e he hkind n hn
    exact hlater.absent hissued habsent
  · -- who waited for what is released now waited there only, and all of them are gone
    obtain ⟨a, hparcel, hgone⟩ := hnew e he hkind
    obtain ⟨m, hm, hhandle⟩ := hline.waits hparcel
    obtain rfl := Option.some.inj (hn.symm.trans hhandle)
    exact hline.gone hlater hm hgone

/-! ## Every reachable state -/

/-- A new router has nothing to put in order. -/
theorem Orderly.made {geometry : Geometry α} {config : Config α} {base : Timestamp}
    {position : Nat → Fix} {jitter : Nat → Nat} {r : Router α}
    (h : make geometry config base position jitter = .ok r) : Orderly r := by
  have hfitted := Fitted.made h
  obtain ⟨_, rfl⟩ := eq_of_make h
  exact {
    fitted := hfitted
    asking := {
      asked := fun _ _ _ he => absurd he (by simp [LocationTable.make, AddressMap.get?_empty])
      pristine := fun _ _ he => absurd he (by simp [LocationTable.make, AddressMap.get?_empty]) }
    inLine := {
      line := fun _ => List.drop_nil.symm
      ordered := fun _ => .nil
      issued := fun _ _ hn => absurd hn List.not_mem_nil
      apart := fun _ _ _ hn => absurd hn List.not_mem_nil }
    addressed := fun _ _ hp => absurd hp List.not_mem_nil
    unreleased := fun _ he => absurd he List.not_mem_nil }

/-- Each part of the order is kept by every move, with the help of the others. -/
theorem Orderly.move {r s : Router α} (hmove : Move P r s) (h : Orderly r) : Orderly s where
  fitted := h.fitted.move hmove
  asking := h.asking.move hmove h.fitted
  inLine := h.inLine.move hmove h.fitted
  addressed := h.addressed.move hmove
  unreleased := h.unreleased.move hmove h.inLine

/-- Lookups, queues and the table go together in every reachable state. -/
theorem Reachable.orderly {r : Router α} (h : Reachable r) : Orderly r :=
  h.invariant .made .move

/-- What steps lead to comes later. -/
theorem Leads.later {r s : Router α} (h : Leads r s) : Later r s := by
  induction h with
  | refl => exact .refl r
  | @tail s t _ hstep ih =>
    have hmoves := hstep.moves
    clear hstep
    generalize s.Begins t = P at hmoves
    induction hmoves with
    | refl => exact ih
    | tail _ hmove ih => exact ih.trans hmove.later

end Geocast.Router
