import Geocast.Proofs.Router.Filed

/-!
# What may wait for a way to its destination

A packet waits for a way to its destination only where packets move greedily, and only if its class
asks for it. Whatever brings it there, when it is sent, relayed or forwarded anew, has looked at the
class first (`Parks`), and no queue ever holds more than it has room for. `Stowed` puts that
together with what else is known of all that waits. It holds in every state that a router passes
through, and not only between its actions, since queues are emptied and filled again in the middle
of one.
-/

namespace Geocast.Router

variable {α : Type} {r s t : Router α}

/-- A frame holds a packet that may wait until a way to its destination shows. -/
def MayPark (r : Router α) (frame : Bytes) : Prop :=
  ∃ p, Packet.decode frame = .ok p ∧ r.MayWait p

/-- Queues keep to their room, and only what may wait for a way comes to wait for one. -/
structure Parks (r s : Router α) : Prop where
  config : s.config = r.config
  within : r.queues.Within r.config.capacity → s.queues.Within r.config.capacity
  parked : ∀ a, ∀ p ∈ s.queues.queue .unicast a,
    p ∈ r.queues.queue .unicast a ∨ r.MayPark p.frame

theorem MayPark.of_config {frame : Bytes} (h : s.MayPark frame) (hconfig : s.config = r.config) :
    r.MayPark frame := by
  unfold MayPark MayWait at h ⊢
  rwa [hconfig] at h

namespace Parks

theorem of_same (config : s.config = r.config) (queues : s.queues = r.queues) : Parks r s where
  config := config
  within := fun h => queues ▸ h
  parked := fun _ _ hp => .inl (queues ▸ hp)

theorem refl (r : Router α) : Parks r r := of_same rfl rfl

theorem trans (h : Parks r s) (h' : Parks s t) : Parks r t where
  config := h'.config.trans h.config
  within := by
    intro hr
    have hs := h'.within
    rw [h.config] at hs
    exact hs (h.within hr)
  parked := by
    intro a p hp
    rcases h'.parked a p hp with hp | hmay
    · exact h.parked a p hp
    · exact .inr (hmay.of_config h.config)

end Parks

/-! ## Each function -/

/-- A parcel that may wait comes to wait in a queue that keeps to its room. -/
theorem enqueue_parks (r : Router α) {kind : QueueKind} (a : Address) {p : Parcel}
    (h : kind = .unicast → r.MayPark p.frame) : Parks r (r.enqueue kind a p) where
  config := rfl
  within := fun hwithin => hwithin.enqueue kind a p
  parked := by
    intro b q hq
    rcases PacketQueues.mem_enqueue hq with hq | ⟨rfl, hkind, -⟩
    · exact .inl hq
    · exact .inr (h hkind.symm)

/-- Nothing comes to wait in a queue that is emptied. -/
theorem drop_parks (r : Router α) (kind : QueueKind) (a : Option Address) :
    Parks r { r with queues := r.queues.drop kind a } where
  config := rfl
  within := fun hwithin => hwithin.drop kind a
  parked := fun _ _ hp => .inl (PacketQueues.mem_drop hp)

/-- A packet that is told to wait for a way is one that may. -/
theorem dispatch_parks (r : Router α) {decision : Decision} {o : Outgoing}
    (h : decision = .buffer → r.MayPark o.frame) : Parks r (r.dispatch decision o).2 := by
  obtain ⟨_, hgone⟩ := exists_dispatched r decision o
  generalize r.dispatch decision o = done at hgone ⊢
  cases hgone with
  | sent target => exact .of_same rfl rfl
  | parked hbuffer _ => exact enqueue_parks r _ fun _ => h hbuffer
  | kept => exact enqueue_parks r _ nofun
  | deferred _ _ _ => exact .of_same rfl rfl
  | refused _ _ _ => exact .refl r
  | discarded _ => exact .refl r

theorem emitParcels_parks (r : Router α) (parcels : List Parcel) :
    Parks r (r.emitParcels parcels) := by
  induction parcels generalizing r with
  | nil => exact .refl r
  | cons p rest ih =>
    have hone : Parks r (r.emit .broadcast p.frame p.outlet p.origin) := .of_same rfl rfl
    exact hone.trans (ih _)

/-- The queue for neighbours concerns nothing that waits for a way. -/
theorem flushBroadcast_parks (r : Router α) : Parks r r.flushBroadcast :=
  ((drop_parks r .broadcast none).trans (emitParcels_parks _ _)).trans (.of_same rfl rfl)

variable [Scalar α] {P : Router α → Packet → Prop}

/-- What comes out of a queue goes back to one only if its class asks for that again. -/
theorem releaseOrDrop_parks (r : Router α) (kind : QueueKind) (parcel : Parcel) :
    Parks r (r.releaseOrDrop kind parcel) := by
  obtain ⟨f, hdrop⟩ := releaseOrDrop_eq r kind parcel
  have hone : Parks r (r.releaseOne kind parcel).2 := by
    rcases releaseOne_cases r kind parcel with ⟨_, heq, _⟩ | ⟨p, u, is_unicast, hdecode, heq, _⟩
    · rw [heq]
      exact .refl r
    · have hsendable := onward_sendable r parcel (Packet.sendable_of_decode hdecode) u is_unicast
      have hnoted : Parks r (r.noteRelease kind parcel (r.onward parcel p u is_unicast).2
          (r.onward parcel p u is_unicast).1.encode) := .of_same rfl rfl
      rw [heq]
      exact hnoted.trans (dispatch_parks _ fun hbuffer =>
        ⟨_, Packet.decode_encode hsendable, mayWait_of_toward (r := r) rfl hbuffer⟩)
  rw [hdrop]
  exact hone.trans (.of_same rfl rfl)

/-- A parcel that is forwarded anew waits once more only if it may. -/
theorem release_parks (r : Router α) (kind : QueueKind) (parcels : List Parcel) :
    Parks r (r.release kind parcels) := by
  induction parcels generalizing r with
  | nil => exact .refl r
  | cons p rest ih => exact (releaseOrDrop_parks r kind p).trans (ih _)

/-- So it is for all that waited for a way. -/
theorem flushUnicast_parks (r : Router α) : Parks r r.flushUnicast := by
  have htaken : Parks r ({ r with queues := r.queues.drop .unicast none }.giveUp .unicast
      (r.queues.lapsed .unicast none r.now)) :=
    (drop_parks r .unicast none).trans (.of_same rfl rfl)
  exact htaken.trans (release_parks _ _ _)

/-! ## Each kind of move -/

/-- No step of forwarding lets a packet wait that may not. -/
theorem Forward.parks (h : Forward P r s) : Parks r s := by
  cases h with
  | dispatch decision hstarts =>
    obtain ⟨p, outlet, destination, hsendable, -, -, hwait, rfl⟩ := hstarts
    exact dispatch_parks r fun hbuffer => ⟨p, Packet.decode_encode hsendable, hwait hbuffer⟩
  | flushBroadcast => exact flushBroadcast_parks r
  | flushUnicast => exact flushUnicast_parks r
  | fireContention =>
    have hfired : Parks r { r with contention := (r.contention.fire r.now).2 } := .of_same rfl rfl
    exact hfired.trans (emitParcels_parks _ _)
  | _ => exact .of_same rfl rfl

/-- Nor does one that ends its lookup when its place is learnt. -/
theorem resolveLookup_parks (r : Router α) (target : Address) :
    Parks r (r.resolveLookup target) := by
  cases hl : r.lookups.inFlight.get? target with
  | none =>
    rw [resolveLookup_idle hl]
    exact .refl r
  | some l =>
    have hended : Parks r (r.resolving target l) :=
      (drop_parks r .lookup (some target)).trans (.of_same rfl rfl)
    rw [resolveLookup_eq hl]
    exact hended.trans (release_parks _ _ _)

/-- Nor does any other elementary step. -/
theorem Work.parks (h : Work P r s) : Parks r s := by
  cases h with
  | forward h => exact h.parks
  | @await target d small _ _ =>
    have hawaited := (await_awaited r target (r.unresolvedParcel d small target)).2
    have hqueued : Parks r (r.enqueue .lookup target (r.unresolvedParcel d small target)) :=
      enqueue_parks r target nofun
    exact hqueued.trans (.of_same hawaited.config hawaited.queues)
  | @expire target l hl =>
    unfold expireLookup LookupService.finish?
    rw [hl]
    exact (drop_parks r .lookup (some target)).trans (.of_same rfl rfl)
  | stop hrunning =>
    rw [stop_eq hrunning]
    exact ⟨rfl, fun hwithin => hwithin.clear, fun _ _ hp => absurd hp List.not_mem_nil⟩
  | _ => exact .of_same rfl rfl

/-- Nor does a packet that is heard. -/
theorem Move.parks (h : Move P r s) : Parks r s := by
  cases h with
  | work hwork => exact hwork.parks
  | hear hheard =>
    rcases hheard.forms with ⟨table, rfl⟩ | ⟨table, f, target, rfl⟩
    · exact .of_same rfl rfl
    · have hlearnt : Parks r (({ r with table } : Router α).count f) := .of_same rfl rfl
      exact hlearnt.trans (resolveLookup_parks _ _)

/-! ## Every state -/

/-- What is known of all that waits: it is what it is filed as, no queue is longer than it may be,
and what waits for a way to its destination may do so. -/
structure Stowed (r : Router α) : Prop where
  fitted : Fitted r
  keyed : r.Keyed
  filed : r.Filed
  within : r.queues.Within r.config.capacity
  parked : ∀ a, ∀ p ∈ r.queues.queue .unicast a, r.MayPark p.frame

/-- A new router has nothing that waits. -/
theorem Stowed.made {geometry : Geometry α} {config : Config α} {base : Timestamp}
    {position : Nat → Fix} {jitter : Nat → Nat}
    (h : make geometry config base position jitter = .ok r) : Stowed r where
  fitted := .made h
  keyed := (Reachable.made h).keyed
  filed := (Reachable.made h).filed
  within := (Sound.made h).within
  parked := fun a p hp => absurd hp (not_holdsAt_of_make h (.queue .unicast a) p)

/-- What waits is in order after every move. -/
theorem Stowed.move (hmove : Move P r s) (h : Stowed r) : Stowed s where
  fitted := h.fitted.move hmove
  keyed := h.keyed.move hmove h.fitted
  filed := h.filed.move hmove h.keyed h.fitted
  within := by
    rw [hmove.parks.config]
    exact hmove.parks.within h.within
  parked := by
    intro a p hp
    rcases hmove.parks.parked a p hp with hp | hmay
    · exact (h.parked a p hp).of_config hmove.parks.config.symm
    · exact hmay.of_config hmove.parks.config.symm

/-- So it is in every state that a router passes through, amid steps as well. -/
theorem Passing.stowed (h : Passing r) : Stowed r := h.invariant .made .move

end Geocast.Router
