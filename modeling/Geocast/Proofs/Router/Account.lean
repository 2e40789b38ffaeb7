import Geocast.Proofs.Forwarding.Decision
import Geocast.Proofs.Queue.Contents
import Geocast.Proofs.Router.Lookups

/-!
# Keeping account of packets

Every packet that a router has taken over is on the link, in a queue, on a timer, or lost, and the
counters should tell how many are where. `Dealt` says so of two states: what is on the link and held
afterwards was there before or is new, and the counters have moved along with it (`gain`). Each
function that forwards packets has one lemma to that effect; they compose, so that the account of a
whole reception or of all timers is the sum of its parts.
-/

namespace Geocast

/-- What the counters tell of packets that are held no longer: those sent, dropped and taken off
their timers, without those by which the router announces itself or asks for others. -/
def Stats.closed (s : Stats) : Int :=
  s.packetsSent + s.packetsDropped + s.contentionsCancelled - s.beaconsSent - s.requestsSent

/-- What tells packets on timers apart is their source and number. -/
theorem Outgoing.keyOf_eq_some_iff {p : Packet} {key : ContentionKey} :
    keyOf p = some key ↔
      ∃ v n, p.source? = some v ∧ p.sequence? = some n ∧ key = (v.address, n) := by
  unfold keyOf
  cases p.source? <;> cases p.sequence? <;> simp [eq_comm]

/-- How many packets each queue of a family holds at most, by the settings. -/
def Config.capacity {α : Type} (c : Config α) : QueueKind → Nat
  | .broadcast => c.broadcastCapacity
  | .unicast => c.unicastCapacity
  | .lookup => c.lookupCapacity

namespace Router

variable {α : Type}

/-- The packets on the link, by their origins. -/
def emitted (r : Router α) : Multiset Origin := ↑(r.emissions.map Emission.origin)

/-- The packets in queues and on timers, by their origins. -/
def held (r : Router α) : Multiset Origin :=
  (r.queues.stock + r.contention.stock).map Parcel.origin

/-- What the counters tell of packets, with those that are still held. -/
def balance (r : Router α) : Int := r.stats.closed + r.held.card

/-- The origins of some parcels. -/
def originsOf (parcels : List Parcel) : Multiset Origin := ↑(parcels.map Parcel.origin)

/-- As many packets are held as the router counts in its queues and on its timers. -/
theorem card_held (r : Router α) : r.held.card = r.queues.total + r.contention.size := by
  unfold held
  rw [Multiset.card_map, Multiset.card_add, PacketQueues.card_stock, ContentionQueue.card_stock]

theorem map_origin_coe (parcels : List Parcel) :
    (↑parcels : Multiset Parcel).map Parcel.origin = originsOf parcels := rfl

/-- Each parcel has one origin. -/
theorem card_originsOf (parcels : List Parcel) : (originsOf parcels).card = parcels.length :=
  List.length_map _

/-- What the queues and timers of every router satisfy: each queue has the room that the settings
give it, packets wait for a way to a place only if they are not contended for, and the timers are
told apart by what their packets say. -/
structure Sound (r : Router α) : Prop where
  within : r.queues.Within r.config.capacity
  greedy : r.config.effectiveNonArea = .contention → stockOf r.queues.unicast = 0
  distinct : r.contention.Distinct
  keyed : ∀ c ∈ r.contention.contenders, ∃ p, Packet.decode c.parcel.origin.frame = .ok p ∧
    Outgoing.keyOf p = some c.key

/-- A queue of the router has the room that its settings give it, which is never none. -/
theorem Sound.room {r : Router α} (h : r.Sound) (kind : QueueKind) :
    0 < r.queues.capacity kind := by
  rw [h.within.capacity]
  exact h.within.positive kind

/-- Where settings, queues and timers stay, so does what they satisfy. -/
theorem Sound.of_same {r s : Router α} (h : r.Sound) (hconfig : s.config = r.config)
    (hqueues : s.queues = r.queues) (hcontention : s.contention = r.contention) : s.Sound where
  within := by rw [hqueues, hconfig]; exact h.within
  greedy := by rw [hqueues, hconfig]; exact h.greedy
  distinct := by rw [hcontention]; exact h.distinct
  keyed := by rw [hcontention]; exact h.keyed

/-- What becomes of the packets of a router when some new ones begin their way: none is on the link
or held that was not before or is new, and the counters gain what they should, or less for each that
was lost without a trace. -/
structure Dealt (new : Multiset Origin) (gain : Int) (r s : Router α) : Prop where
  config : s.config = r.config
  sound : s.Sound
  log : r.emissions <+: s.emissions
  kept : s.emitted + s.held ≤ r.emitted + r.held + new
  balance : s.balance = r.balance + gain

namespace Dealt

variable {r s t : Router α} {new new' : Multiset Origin} {gain gain' : Int}

/-- Nothing has changed that has to do with packets, but for the counters. -/
theorem of_same (h : r.Sound) (hconfig : s.config = r.config) (hqueues : s.queues = r.queues)
    (hcontention : s.contention = r.contention) (hemissions : s.emissions = r.emissions)
    (hclosed : s.stats.closed = r.stats.closed + gain) : Dealt 0 gain r s := by
  have hheld : s.held = r.held := by
    unfold held
    rw [hqueues, hcontention]
  exact {
    config := hconfig
    sound := h.of_same hconfig hqueues hcontention
    log := hemissions ▸ List.prefix_rfl
    kept := by
      unfold emitted
      rw [hemissions, hheld, add_zero]
    balance := by
      unfold Router.balance
      rw [hheld, hclosed]
      omega }

theorem trans (h : Dealt new gain r s) (h' : Dealt new' gain' s t) :
    Dealt (new + new') (gain + gain') r t where
  config := h'.config.trans h.config
  sound := h'.sound
  log := h.log.trans h'.log
  kept := by
    refine h'.kept.trans ?_
    rw [← add_assoc]
    exact add_le_add_left h.kept new'
  balance := by
    rw [h'.balance, h.balance]
    omega

/-- A step that brings in nothing new may follow. -/
theorem then_nothing {total : Int} (h : Dealt new gain r s) (h' : Dealt 0 gain' s t)
    (hgain : gain + gain' = total := by omega) : Dealt new total r t := by
  have hboth := h.trans h'
  rwa [add_zero, hgain] at hboth

/-- Or it may come first. -/
theorem after_nothing {total : Int} (h : Dealt 0 gain r s) (h' : Dealt new gain' s t)
    (hgain : gain + gain' = total := by omega) : Dealt new total r t := by
  have hboth := h.trans h'
  rwa [zero_add, hgain] at hboth

/-- Nothing has happened that has to do with packets. -/
theorem idle (h : r.Sound) (hconfig : s.config = r.config) (hqueues : s.queues = r.queues)
    (hcontention : s.contention = r.contention) (hemissions : s.emissions = r.emissions)
    (hclosed : s.stats.closed = r.stats.closed) : Dealt 0 0 r s :=
  of_same h hconfig hqueues hcontention hemissions (hclosed.trans (Int.add_zero _).symm)

theorem refl (h : r.Sound) : Dealt 0 0 r r := idle h rfl rfl rfl rfl rfl

/-- Less has begun its way than is allowed for. -/
theorem weaken (h : Dealt new gain r s) (hle : new ≤ new') : Dealt new' gain r s :=
  { h with kept := h.kept.trans (add_le_add_right hle _) }

/-- Packets that were taken out and begin their way anew are none that are new. -/
theorem of_taken {taken : Multiset Origin} (hheld : s.held + taken = r.held)
    (hconfig : s.config = r.config) (hemissions : s.emissions = r.emissions)
    (hstats : s.stats = r.stats) (h : Dealt new gain s t) (hnew : new ≤ taken) :
    Dealt 0 (gain - taken.card) r t where
  config := h.config.trans hconfig
  sound := h.sound
  log := by
    rw [← hemissions]
    exact h.log
  kept := by
    calc t.emitted + t.held ≤ s.emitted + s.held + new := h.kept
      _ ≤ s.emitted + s.held + taken := add_le_add_right hnew _
      _ = r.emitted + r.held + 0 := by
        unfold emitted
        rw [add_assoc, hheld, hemissions, add_zero]
  balance := by
    have hcard := congrArg Multiset.card hheld
    rw [Multiset.card_add] at hcard
    have hbefore : s.balance = r.balance - taken.card := by
      unfold Router.balance
      rw [hstats, ← hcard]
      omega
    rw [h.balance, hbefore]
    omega

/-- The packets that came on the link were held before or are new. -/
theorem mem_emissions (h : Dealt new gain r s) {out : List Emission}
    (hout : s.emissions = r.emissions ++ out) {e : Emission} (he : e ∈ out) :
    e.origin ∈ r.held + new := by
  have hkept := h.kept
  unfold emitted at hkept
  rw [hout, List.map_append, ← Multiset.coe_add, add_assoc, add_assoc] at hkept
  refine Multiset.mem_of_le (le_of_add_le_add_left hkept) (Multiset.mem_add.mpr (.inl ?_))
  exact Multiset.mem_coe.mpr (List.mem_map_of_mem he)

/-- The packets that are held were held before or are new. -/
theorem mem_held (h : Dealt new gain r s) {o : Origin} (ho : o ∈ s.held) : o ∈ r.held + new := by
  obtain ⟨out, hout⟩ := h.log
  have hkept := h.kept
  unfold emitted at hkept
  rw [← hout, List.map_append, ← Multiset.coe_add, add_assoc, add_assoc] at hkept
  exact Multiset.mem_of_le (le_of_add_le_add_left hkept) (Multiset.mem_add.mpr (.inr ho))

end Dealt

variable {r : Router α}

/-! ## Sending and parking -/

/-- To count moves no packet. -/
theorem count_dealt (h : r.Sound) {f : Stats → Stats} {gain : Int}
    (hclosed : (f r.stats).closed = r.stats.closed + gain) : Dealt 0 gain r (r.count f) :=
  .of_same h rfl rfl rfl rfl hclosed

/-- Nor does a number that is given out. -/
theorem useSequence_dealt (h : r.Sound) (taker : Option Origin) :
    Dealt 0 0 r (r.useSequence taker) :=
  .idle h rfl rfl rfl rfl rfl

/-- Nor does one that is given to a packet. -/
theorem number_dealt (h : r.Sound) (p : Packet) : Dealt 0 0 r (r.number p) :=
  useSequence_dealt h _

/-- A packet that is handed to the link was new, and is counted. -/
theorem emit_dealt (h : r.Sound) (target : LinkTarget) (frame : Bytes) (outlet : Outlet)
    (origin : Origin) : Dealt {origin} 1 r (r.emit target frame outlet origin) where
  config := rfl
  sound := h.of_same rfl rfl rfl
  log := List.prefix_append _ _
  kept := by
    refine le_of_eq ?_
    unfold emitted
    show (↑((r.emissions ++ [_]).map Emission.origin) : Multiset Origin) + r.held = _
    rw [List.map_append, ← Multiset.coe_add, List.map_singleton, Multiset.coe_singleton]
    abel
  balance := by
    show (r.emit target frame outlet origin).stats.closed + (r.held.card : Int) =
      r.stats.closed + r.held.card + 1
    unfold Stats.closed emit
    dsimp only
    omega

/-- A packet by which the router announces itself or asks for another station is counted apart. -/
theorem signal_dealt (h : r.Sound) (target : LinkTarget) (frame : Bytes) (outlet : Outlet)
    (origin : Origin) (f : Stats → Stats) (hsignal : ∀ s, (f s).closed = s.closed + -1) :
    Dealt {origin} 0 r ((r.emit target frame outlet origin).count f) := by
  have hsent := emit_dealt h target frame outlet origin
  exact hsent.then_nothing (count_dealt hsent.sound (hsignal _)) rfl

/-- One parcel is dealt with, and then the others. -/
theorem Dealt.cons {s t : Router α} {p : Parcel} {rest : List Parcel}
    (h : Dealt {p.origin} 1 r s) (h' : Dealt (originsOf rest) rest.length s t) :
    Dealt (originsOf (p :: rest)) (p :: rest).length r t := by
  have hall := h.trans h'
  have hgain : (1 : Int) + rest.length = (p :: rest).length := by
    rw [List.length_cons]
    omega
  rw [hgain] at hall
  exact hall

/-- Parcels that are sent leave by the link, each counted. -/
theorem emitParcels_dealt (h : r.Sound) (parcels : List Parcel) :
    Dealt (originsOf parcels) parcels.length r (r.emitParcels parcels) := by
  induction parcels generalizing r with
  | nil => exact .refl h
  | cons p rest ih =>
    have hfirst := emit_dealt h .broadcast p.frame p.outlet p.origin
    exact hfirst.cons (ih hfirst.sound)

/-- A packet that is parked is held, and one that gives way to it is counted as dropped. -/
theorem enqueue_dealt (h : r.Sound) (kind : QueueKind) (a : Address) (p : Parcel)
    (hgreedy : kind = .unicast → r.config.effectiveNonArea = .greedy) :
    Dealt {p.origin} 1 r (r.enqueue kind a p) := by
  have hstock : (r.enqueue kind a p).held + originsOf (r.queues.overflow kind a) =
      r.held + {p.origin} := by
    have hstock := congrArg (·.map Parcel.origin) (PacketQueues.stock_enqueue r.queues kind a p)
    simp only [Multiset.map_add, Multiset.map_singleton] at hstock
    rw [map_origin_coe] at hstock
    show ((r.queues.enqueue kind a p).2.stock + r.contention.stock).map Parcel.origin + _ =
      (r.queues.stock + r.contention.stock).map Parcel.origin + _
    rw [Multiset.map_add, Multiset.map_add, add_right_comm, hstock]
    abel
  have hoverflow := PacketQueues.length_overflow (q := r.queues) a p (h.room kind)
  refine {
    config := rfl
    sound := ?_
    log := List.prefix_rfl
    kept := ?_
    balance := ?_ }
  · exact {
      within := h.within.enqueue kind a p
      greedy := fun hcontention => by
        cases kind with
        | broadcast => exact h.greedy hcontention
        | unicast => exact nomatch (hgreedy rfl).symm.trans hcontention
        | lookup => exact h.greedy hcontention
      distinct := h.distinct
      keyed := h.keyed }
  · -- the parcel is new, and all others were held before
    show r.emitted + (r.enqueue kind a p).held ≤ _
    rw [add_assoc, ← hstock]
    exact add_le_add_right (Multiset.le_add_right _ _) _
  · -- one more is held, unless one fell out, and that is counted
    have hcard := congrArg Multiset.card hstock
    rw [Multiset.card_add, Multiset.card_add, Multiset.card_singleton, card_originsOf,
      hoverflow] at hcard
    show (r.enqueue kind a p).stats.closed + ((r.enqueue kind a p).held.card : Int) =
      r.stats.closed + r.held.card + 1
    have hclosed : (r.enqueue kind a p).stats.closed =
        r.stats.closed + if (r.queues.enqueue kind a p).1 then (1 : Int) else 0 := by
      unfold Stats.closed enqueue count
      dsimp only
      split
      · omega
      · omega
    rw [hclosed]
    split at hcard
    · next hfull =>
      rw [if_pos hfull]
      omega
    · next hroom =>
      rw [if_neg hroom]
      omega

/-- A packet that is put on a timer is held. -/
theorem schedule_dealt (h : r.Sound) {key : ContentionKey} (hfree : r.contention.contains key = false)
    {parcel : Parcel} {p : Packet} (hframe : Packet.decode parcel.origin.frame = .ok p)
    (hkey : Outgoing.keyOf p = some key) (timeout : Nat) :
    Dealt {parcel.origin} 1 r { r with
      contention := (r.contention.schedule key parcel timeout r.now).2 } := by
  have hperm := ContentionQueue.schedule_perm hfree parcel timeout r.now
  have hdistinct := h.distinct.schedule key parcel timeout r.now
  generalize (r.contention.schedule key parcel timeout r.now).2 = q at hperm hdistinct ⊢
  have hheld : ({ r with contention := q } : Router α).held = r.held + {parcel.origin} := by
    -- no timer ran for a copy, so none gives way
    have hstock : q.stock = r.contention.stock + {parcel} := by
      unfold ContentionQueue.stock ContentionQueue.parcels
      rw [Multiset.coe_eq_coe.mpr (hperm.map Contender.parcel), List.map_cons,
        ← Multiset.cons_coe, ← Multiset.singleton_add, add_comm]
    unfold held
    dsimp only
    rw [hstock, ← add_assoc, Multiset.map_add]
    rfl
  refine {
    config := rfl
    sound := ?_
    log := List.prefix_rfl
    kept := ?_
    balance := ?_ }
  · exact {
      within := h.within
      greedy := h.greedy
      distinct := hdistinct
      keyed := by
        intro c hc
        rcases List.mem_cons.mp (hperm.mem_iff.mp hc) with rfl | hc
        · exact ⟨p, hframe, hkey⟩
        · exact h.keyed c hc }
  · rw [hheld, ← add_assoc]
    exact le_refl _
  · unfold Router.balance
    rw [hheld, Multiset.card_add, Multiset.card_singleton]
    dsimp only
    omega

/-- A packet that is not contended for goes out or is parked, and the router says so. -/
theorem dispatch_prompt_dealt (h : r.Sound) {decision : Decision} (o : Outgoing)
    (hprompt : decision.isPrompt = true)
    (hgreedy : decision = .buffer → r.config.effectiveNonArea = .greedy) :
    (r.dispatch decision o).1.isOk = true ∧
      Dealt {o.origin} 1 r (r.dispatch decision o).2 := by
  obtain ⟨_, hgone⟩ := exists_dispatched r decision o
  generalize r.dispatch decision o = done at hgone ⊢
  cases hgone with
  | sent target => exact ⟨rfl, emit_dealt h target o.frame o.outlet o.origin⟩
  | parked hbuffer _ => exact ⟨rfl, enqueue_dealt h _ _ (o.toParcel r.now) fun _ => hgreedy hbuffer⟩
  | kept => exact ⟨rfl, enqueue_dealt h _ _ (o.toParcel r.now) nofun⟩
  | deferred hdefer _ _ | refused hdefer _ _ =>
    rw [hdefer] at hprompt
    exact absurd hprompt Bool.false_ne_true
  | discarded hdiscard =>
    rw [hdiscard] at hprompt
    exact absurd hprompt Bool.false_ne_true

/-! ## Taking out -/

/-- Taking parcels out of queues changes nothing else. -/
theorem drop_held (r : Router α) (kind : QueueKind) (a : Option Address) :
    ({ r with queues := r.queues.drop kind a } : Router α).held +
      originsOf (r.queues.select kind a) = r.held := by
  unfold held
  dsimp only
  rw [← PacketQueues.stock_drop r.queues kind a, Multiset.map_add, Multiset.map_add,
    Multiset.map_add, map_origin_coe]
  abel

/-- A queue that is emptied still has its room. -/
theorem Sound.drop (h : r.Sound) (kind : QueueKind) (a : Option Address) :
    ({ r with queues := r.queues.drop kind a } : Router α).Sound where
  within := h.within.drop kind a
  greedy := fun hcontention => by
    have hempty := h.greedy hcontention
    cases kind with
    | broadcast => exact hempty
    | unicast =>
      cases a with
      | none => rfl
      | some a =>
        -- what is left when one of no parcels is taken away
        rw [stockOf_eq r.queues.unicast a] at hempty
        exact Multiset.le_zero.mp (hempty ▸ Multiset.le_add_left _ _)
    | lookup => cases a <;> exact hempty
  distinct := h.distinct
  keyed := h.keyed

/-- Parcels that are given up are counted as dropped. -/
theorem giveUp_dealt (h : r.Sound) (kind : QueueKind) (parcels : List Parcel) :
    Dealt 0 parcels.length r (r.giveUp kind parcels) := by
  refine .of_same h rfl rfl rfl rfl ?_
  unfold Stats.closed giveUp countDropped count
  dsimp only
  omega

/-- Parcels that are taken out are still good or have lapsed. -/
theorem ready_add_lapsed (q : PacketQueues) (kind : QueueKind) (a : Option Address) (now : Nat) :
    originsOf (q.ready kind a now) + originsOf (q.lapsed kind a now) =
      originsOf (q.select kind a) := by
  unfold originsOf PacketQueues.ready PacketQueues.lapsed
  rw [add_comm, Multiset.coe_add, ← List.map_append, Multiset.coe_eq_coe]
  exact (List.filter_append_perm _ _).map _

/-- Whatever is done with the parcels of a queue that are still good, if it deals with each of them
and those that have lapsed are given up, none is lost. -/
theorem Dealt.of_flushed {kind : QueueKind} {a : Option Address} {s : Router α}
    (h : Dealt (originsOf (r.queues.ready kind a r.now))
      ((r.queues.lapsed kind a r.now).length + (r.queues.ready kind a r.now).length)
      { r with queues := r.queues.drop kind a } s) : Dealt 0 0 r s := by
  have hsplit := ready_add_lapsed r.queues kind a r.now
  have htaken := h.of_taken (drop_held r kind a) rfl rfl rfl
    (hsplit ▸ Multiset.le_add_right _ _)
  have hcard := congrArg Multiset.card hsplit
  rw [Multiset.card_add, card_originsOf, card_originsOf] at hcard
  have hgain : ((r.queues.lapsed kind a r.now).length + (r.queues.ready kind a r.now).length -
      (originsOf (r.queues.select kind a)).card : Int) = 0 := by omega
  rwa [hgain] at htaken

/-- What leaves the queue for neighbours goes to the link or is dropped, and both count. -/
theorem flushBroadcast_dealt (h : r.Sound) : Dealt 0 0 r r.flushBroadcast := by
  have hsent := emitParcels_dealt (h.drop .broadcast none) (r.queues.ready .broadcast none r.now)
  have hgiven := giveUp_dealt hsent.sound .broadcast (r.queues.lapsed .broadcast none r.now)
  exact (hsent.then_nothing hgiven (Int.add_comm _ _)).of_flushed

/-- Packets whose timers have ended go out, but those whose lifetime has passed by then are neither
sent nor counted. -/
theorem fireContention_dealt (h : r.Sound) :
    Dealt 0 (-(r.contention.lapsed r.now).length) r r.fireContention := by
  have htaken : ({ r with contention := (r.contention.fire r.now).2 } : Router α).held +
      (originsOf (r.contention.fire r.now).1 + originsOf (r.contention.lapsed r.now)) =
        r.held := by
    unfold held
    dsimp only
    rw [← ContentionQueue.stock_fire r.contention r.now]
    simp only [Multiset.map_add]
    rw [map_origin_coe, map_origin_coe]
    abel
  have hsound : ({ r with contention := (r.contention.fire r.now).2 } : Router α).Sound := {
    within := h.within
    greedy := h.greedy
    distinct := h.distinct.filter _
    keyed := fun c hc => h.keyed c (List.mem_filter.mp hc).1 }
  -- what was taken off is sent, but for what had waited too long, which no counter tells of
  have hall := (emitParcels_dealt hsound (r.contention.fire r.now).1).of_taken htaken rfl rfl rfl
    (Multiset.le_add_right _ _)
  have hgain : ((r.contention.fire r.now).1.length -
      (originsOf (r.contention.fire r.now).1 +
        originsOf (r.contention.lapsed r.now)).card : Int) =
      -(r.contention.lapsed r.now).length := by
    rw [Multiset.card_add, card_originsOf, card_originsOf]
    omega
  rw [hgain] at hall
  exact hall

/-- What was overheard is held no longer. -/
theorem overhear_held (r : Router α) (key : ContentionKey) :
    (r.overhear key).held + originsOf (r.contention.overheard key) = r.held := by
  show (r.queues.stock + (r.contention.cancel key).2.stock).map Parcel.origin + _ = _
  unfold held
  rw [← ContentionQueue.stock_cancel r.contention key]
  simp only [Multiset.map_add]
  rw [map_origin_coe]
  abel

/-- A packet that is taken off its timer is counted as heard from another station. -/
theorem overhear_dealt (h : r.Sound) (key : ContentionKey) : Dealt 0 0 r (r.overhear key) := by
  have hsound : ({ r with contention := (r.contention.cancel key).2 } : Router α).Sound := {
    within := h.within
    greedy := h.greedy
    distinct := h.distinct.filter _
    keyed := fun c hc => h.keyed c (List.mem_filter.mp hc).1 }
  have hcounted : Dealt 0 (if (r.contention.cancel key).1 then 1 else 0)
      { r with contention := (r.contention.cancel key).2 } (r.overhear key) := by
    refine .of_same hsound rfl rfl rfl rfl ?_
    show (r.overhear key).stats.closed = r.stats.closed + _
    unfold Stats.closed overhear count
    dsimp only
    split
    · omega
    · omega
  have htaken : ({ r with contention := (r.contention.cancel key).2 } : Router α).held +
      originsOf (r.contention.overheard key) = r.held := overhear_held r key
  have hall := hcounted.of_taken htaken rfl rfl rfl (Multiset.zero_le _)
  have hgain : ((if (r.contention.cancel key).1 then 1 else 0) -
      (originsOf (r.contention.overheard key)).card : Int) = 0 := by
    rw [card_originsOf, ContentionQueue.length_overheard h.distinct]
    split <;> rfl
  rwa [hgain] at hall

end Router

end Geocast
