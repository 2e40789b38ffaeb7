import Geocast.Proofs.Router.Lookups

/-!
# The record of what was released

A router records each parcel that it takes out of a queue and forwards anew. What the record says
of a parcel (`release?`) depends only on the parcel and on what forwarding leaves alone, so a whole
queue adds the records of its parcels, one after the other (`release_released`), and only the end
of a lookup adds any for its queue. A packet that is decided to go out at once is then on the link
under the recorded frame.
-/

namespace Geocast

/-- A packet that was decided to go out at once is among the frames handed to the link, under the
recorded frame. -/
def Release.HandedOut (e : Release) (emissions : List Emission) : Prop :=
  match e.decision with
  | .unicast a => ⟨e.time, .unicast a.mac, e.frame, e.parcel.outlet, e.parcel.origin⟩ ∈ emissions
  | .broadcast => ⟨e.time, .broadcast, e.frame, e.parcel.outlet, e.parcel.origin⟩ ∈ emissions
  | _ => True

theorem Release.HandedOut.mono {e : Release} {early late : List Emission}
    (h : e.HandedOut early) (hearly : early <+: late) : e.HandedOut late := by
  unfold HandedOut at h ⊢
  split
  · next heq =>
    rw [heq] at h
    exact hearly.subset h
  · next heq =>
    rw [heq] at h
    exact hearly.subset h
  · trivial

namespace Router

variable {α : Type}

/-- What sending adds to the records of a router. -/
structure Recorded (r s : Router α) : Prop where
  emissions : r.emissions <+: s.emissions
  released : s.released = r.released
  expired : s.expired = r.expired

namespace Recorded

variable {r s t : Router α}

theorem refl (r : Router α) : Recorded r r := ⟨List.prefix_rfl, rfl, rfl⟩

theorem trans (h : Recorded r s) (h' : Recorded s t) : Recorded r t :=
  ⟨h.emissions.trans h'.emissions, h'.released.trans h.released, h'.expired.trans h.expired⟩

end Recorded

/-- All releases that were recorded since have a property. -/
def Noted (P : Release → Prop) (r s : Router α) : Prop :=
  ∃ new, s.released = r.released ++ new ∧ ∀ e ∈ new, P e

namespace Noted

variable {P : Release → Prop} {r s t : Router α}

/-- Where no release was recorded there is none to check. -/
theorem of_eq (h : s.released = r.released) : Noted P r s :=
  ⟨[], h.trans (List.append_nil _).symm, fun _ h => absurd h List.not_mem_nil⟩

theorem trans (h : Noted P r s) (h' : Noted P s t) : Noted P r t := by
  obtain ⟨early, hearly, hP⟩ := h
  obtain ⟨late, hlate, hP'⟩ := h'
  refine ⟨early ++ late, by rw [hlate, hearly, List.append_assoc], fun e he => ?_⟩
  rcases List.mem_append.mp he with he | he
  · exact hP e he
  · exact hP' e he

end Noted

theorem emit_recorded (r : Router α) (target : LinkTarget) (frame : Bytes) (outlet : Outlet)
    (origin : Origin) : Recorded r (r.emit target frame outlet origin) :=
  ⟨List.prefix_append _ _, rfl, rfl⟩

theorem emitParcels_recorded (r : Router α) (parcels : List Parcel) :
    Recorded r (r.emitParcels parcels) := by
  induction parcels generalizing r with
  | nil => exact .refl r
  | cons p rest ih => exact (emit_recorded r .broadcast p.frame p.outlet p.origin).trans (ih _)

theorem enqueue_recorded (r : Router α) (kind : QueueKind) (a : Address) (p : Parcel) :
    Recorded r (r.enqueue kind a p) := ⟨List.prefix_rfl, rfl, rfl⟩

/-- To dispatch a packet adds frames at most; it records no release. -/
theorem dispatch_recorded (r : Router α) (decision : Decision) (o : Outgoing) :
    Recorded r (r.dispatch decision o).2 := by
  obtain ⟨_, hgone⟩ := exists_dispatched r decision o
  generalize r.dispatch decision o = done at hgone ⊢
  cases hgone with
  | sent target => exact emit_recorded r target _ _ _
  | parked _ _ => exact enqueue_recorded r _ _ _
  | kept => exact enqueue_recorded r _ _ _
  | deferred _ _ _ => exact ⟨List.prefix_rfl, rfl, rfl⟩
  | refused _ _ _ => exact .refl r
  | discarded _ => exact .refl r

variable [Scalar α]

/-- What the record says of a parcel that is forwarded anew, if the parcel holds a packet for one
station. -/
def release? (r : Router α) (kind : QueueKind) (parcel : Parcel) : Option Release :=
  match Packet.decode parcel.frame with
  | .error _ => none
  | .ok p =>
    match is_unicast : p.extended with
    | .unicast h =>
      let (p', decision) := r.onward parcel p h is_unicast
      some { time := r.now, kind, parcel, decision, frame := p'.encode }
    | _ => none

/-- Where and how a parcel goes on is decided by the table, the clock and the settings. -/
theorem Alike.onward {r s : Router α} (h : Alike r s) (parcel : Parcel) (p : Packet)
    (u : UnicastHeader) (is_unicast : p.extended = .unicast u) :
    s.onward parcel p u is_unicast = r.onward parcel p u is_unicast := by
  unfold Router.onward refreshed forwarder surroundings here fix
  rw [h.clock, h.table, h.now, h.config, h.geometry, h.position]

/-- And so is what is recorded of it. -/
theorem Alike.release? {r s : Router α} (h : Alike r s) (kind : QueueKind) (parcel : Parcel) :
    s.release? kind parcel = r.release? kind parcel := by
  unfold Router.release?
  simp only [h.onward, h.now]

/-- A packet that could be read still can be when its destination was brought up to date. -/
theorem onward_sendable (r : Router α) (parcel : Parcel) {p : Packet} (h : p.Sendable)
    (u : UnicastHeader) (is_unicast : p.extended = .unicast u) :
    (r.onward parcel p u is_unicast).1.Sendable :=
  (h.withLifetime (.ofMillis (parcel.remaining r.now))).withDestination u is_unicast _

/-- The packet by which a parcel for one station goes on, with what it takes along. -/
def onwardOutgoing (r : Router α) (parcel : Parcel) (p : Packet) (u : UnicastHeader)
    (is_unicast : p.extended = .unicast u) : Outgoing :=
  { Outgoing.ofPacket (r.onward parcel p u is_unicast).1 parcel.outlet
      (some u.destination.address) parcel.origin with
    releases := parcel.releases ++ [r.now] }

/-- A parcel for one station that is forwarded anew is recorded, with what was decided. -/
theorem release?_of_unicast (r : Router α) (kind : QueueKind) {parcel : Parcel} {p : Packet}
    {u : UnicastHeader} (is_unicast : p.extended = .unicast u)
    (hdecode : Packet.decode parcel.frame = .ok p) :
    r.release? kind parcel = some {
      time := r.now, kind, parcel
      decision := (r.onward parcel p u is_unicast).2
      frame := (r.onward parcel p u is_unicast).1.encode } := by
  unfold release?
  rw [hdecode]
  dsimp only
  split
  · next u' is_unicast' =>
    obtain rfl := Extended.unicast.inj (is_unicast.symm.trans is_unicast')
    rfl
  · next hother => exact absurd is_unicast (hother u)

/-- Any other parcel goes on without a record. -/
theorem release?_of_other (r : Router α) (kind : QueueKind) {parcel : Parcel} {p : Packet}
    (hother : ∀ u, p.extended ≠ .unicast u) (hdecode : Packet.decode parcel.frame = .ok p) :
    r.release? kind parcel = none := by
  unfold release?
  rw [hdecode]
  dsimp only
  split
  · next u is_unicast => exact absurd is_unicast (hother u)
  · rfl

/-- A parcel either holds a packet for one station, which is recorded and dispatched, or is
lost. -/
theorem releaseOne_cases (r : Router α) (kind : QueueKind) (parcel : Parcel) :
    (∃ e, r.releaseOne kind parcel = (.error e, r) ∧ r.release? kind parcel = none) ∨
    ∃ p u, ∃ is_unicast : p.extended = .unicast u, Packet.decode parcel.frame = .ok p ∧
      r.releaseOne kind parcel =
        (r.noteRelease kind parcel (r.onward parcel p u is_unicast).2
          (r.onward parcel p u is_unicast).1.encode).dispatch
            (r.onward parcel p u is_unicast).2 (r.onwardOutgoing parcel p u is_unicast) ∧
      r.release? kind parcel = some {
        time := r.now, kind, parcel
        decision := (r.onward parcel p u is_unicast).2
        frame := (r.onward parcel p u is_unicast).1.encode } := by
  unfold releaseOne
  cases hdecode : Packet.decode parcel.frame with
  | error e =>
    refine .inl ⟨_, rfl, ?_⟩
    unfold release?
    rw [hdecode]
  | ok p =>
    -- what waits in these queues should be for one station, and is lost if it is not
    dsimp only
    split
    · next u is_unicast =>
      exact .inr ⟨p, u, is_unicast, rfl, rfl, release?_of_unicast r kind is_unicast hdecode⟩
    · next hother => exact .inl ⟨_, rfl, release?_of_other r kind hother hdecode⟩

/-- A parcel that holds a packet for one station is recorded and dispatched. -/
theorem releaseOne_of_unicast (r : Router α) (kind : QueueKind) {parcel : Parcel} {p : Packet}
    {u : UnicastHeader} (is_unicast : p.extended = .unicast u)
    (hdecode : Packet.decode parcel.frame = .ok p) :
    r.releaseOne kind parcel =
      (r.noteRelease kind parcel (r.onward parcel p u is_unicast).2
        (r.onward parcel p u is_unicast).1.encode).dispatch
          (r.onward parcel p u is_unicast).2 (r.onwardOutgoing parcel p u is_unicast) := by
  rcases releaseOne_cases r kind parcel with ⟨_, _, hnone⟩ | ⟨p', u', is_unicast', hdecode', heq, _⟩
  · rw [release?_of_unicast r kind is_unicast hdecode] at hnone
    exact nomatch hnone
  · obtain rfl := Except.ok.inj (hdecode.symm.trans hdecode')
    obtain rfl := Extended.unicast.inj (is_unicast.symm.trans is_unicast')
    exact heq

/-- The record tells when, from where and what. -/
theorem release?_parcel {r : Router α} {kind : QueueKind} {parcel : Parcel} {e : Release}
    (h : r.release? kind parcel = some e) : e.time = r.now ∧ e.kind = kind ∧ e.parcel = parcel := by
  rcases releaseOne_cases r kind parcel with ⟨_, _, hnone⟩ | ⟨_, _, _, _, _, hsome⟩
  · exact absurd (hnone.symm.trans h) (by simp)
  · obtain rfl := Option.some.inj (hsome.symm.trans h)
    exact ⟨rfl, rfl, rfl⟩

/-- Each parcel that is forwarded anew adds its one record, and frames at most. -/
theorem releaseOrDrop_recorded (r : Router α) (kind : QueueKind) (parcel : Parcel) :
    r.emissions <+: (r.releaseOrDrop kind parcel).emissions ∧
      (r.releaseOrDrop kind parcel).released =
        r.released ++ (r.release? kind parcel).toList ∧
      (r.releaseOrDrop kind parcel).expired = r.expired := by
  obtain ⟨f, hdrop⟩ := releaseOrDrop_eq r kind parcel
  rw [hdrop]
  rcases releaseOne_cases r kind parcel with ⟨_, heq, hnone⟩ | ⟨p, u, h, _, heq, hsome⟩
  · rw [heq, hnone]
    exact ⟨List.prefix_rfl, (List.append_nil _).symm, rfl⟩
  · rw [heq, hsome]
    have hdispatch := dispatch_recorded (r.noteRelease kind parcel (r.onward parcel p u h).2
      (r.onward parcel p u h).1.encode) (r.onward parcel p u h).2
      (r.onwardOutgoing parcel p u h)
    exact ⟨hdispatch.emissions, hdispatch.released, hdispatch.expired⟩

/-- A queue that is forwarded anew adds the record of each of its parcels. -/
theorem release_released (r : Router α) (kind : QueueKind) (parcels : List Parcel) :
    (r.release kind parcels).released =
      r.released ++ parcels.filterMap (r.release? kind) := by
  induction parcels generalizing r with
  | nil => exact (List.append_nil _).symm
  | cons p rest ih =>
    -- forwarding one parcel does not change what is recorded of the next
    have hsame : (r.releaseOrDrop kind p).release? kind = r.release? kind :=
      funext fun q => (releaseOrDrop_alike r kind p).release? kind q
    show ((r.releaseOrDrop kind p).release kind rest).released = _
    rw [ih, (releaseOrDrop_recorded r kind p).2.1, hsame, List.append_assoc]
    cases hp : r.release? kind p with
    | none => rw [List.filterMap_cons_none hp, Option.toList_none, List.nil_append]
    | some e => rw [List.filterMap_cons_some hp, Option.toList_some, List.singleton_append]

/-- Parcels that are released add frames at most. -/
theorem release_emissions (r : Router α) (kind : QueueKind) (parcels : List Parcel) :
    r.emissions <+: (r.release kind parcels).emissions := by
  induction parcels generalizing r with
  | nil => exact List.prefix_rfl
  | cons p rest ih => exact (releaseOrDrop_recorded r kind p).1.trans (ih _)

/-- A packet that goes out at once is among the frames, as recorded. -/
theorem releaseOrDrop_handedOut {r : Router α} {kind : QueueKind} {parcel : Parcel} {e : Release}
    (h : r.release? kind parcel = some e) :
    e.HandedOut (r.releaseOrDrop kind parcel).emissions := by
  rcases releaseOne_cases r kind parcel with ⟨_, _, hnone⟩ | ⟨p, u, is_unicast, _, heq, hsome⟩
  · exact absurd (hnone.symm.trans h) (by simp)
  · obtain rfl := Option.some.inj (hsome.symm.trans h)
    obtain ⟨f, hdrop⟩ := releaseOrDrop_eq r kind parcel
    unfold Release.HandedOut
    rw [hdrop, heq]
    dsimp only
    cases hdecision : (r.onward parcel p u is_unicast).2 with
    | unicast a => exact List.mem_append_right _ (List.mem_singleton.mpr rfl)
    | broadcast => exact List.mem_append_right _ (List.mem_singleton.mpr rfl)
    | _ => trivial

/-- So it is for all parcels that are released together, since frames stay on the list. -/
theorem release_handedOut (r : Router α) (kind : QueueKind) (parcels : List Parcel) :
    ∀ e ∈ parcels.filterMap (r.release? kind), e.HandedOut (r.release kind parcels).emissions := by
  induction parcels generalizing r with
  | nil => exact fun _ h => absurd h List.not_mem_nil
  | cons p rest ih =>
    have hsame : (r.releaseOrDrop kind p).release? kind = r.release? kind :=
      funext fun q => (releaseOrDrop_alike r kind p).release? kind q
    intro e he
    obtain ⟨q, hq, heq⟩ := List.mem_filterMap.mp he
    rcases List.mem_cons.mp hq with rfl | hq
    · exact (releaseOrDrop_handedOut heq).mono (release_emissions _ kind rest)
    · exact ih _ e (hsame ▸ List.mem_filterMap.mpr ⟨q, hq, heq⟩)

/-! ## Forwarding and lookups -/

omit [Scalar α] in
/-- Where no release was recorded every property of new ones holds. -/
theorem Recorded.noted {P : Release → Prop} {r s : Router α} (h : Recorded r s) :
    r.emissions <+: s.emissions ∧ Noted P r s :=
  ⟨h.emissions, .of_eq h.released⟩

/-- Forwarding forgets no frame on the link, and what it releases comes from no lookup. -/
theorem Forward.noted {P : Router α → Packet → Prop} {r s : Router α} (h : Forward P r s) :
    r.emissions <+: s.emissions ∧ Noted (·.kind ≠ .lookup) r s := by
  cases h with
  | count => exact ⟨List.prefix_rfl, .of_eq rfl⟩
  | number => exact ⟨List.prefix_rfl, .of_eq rfl⟩
  | overhear key => exact ⟨List.prefix_rfl, .of_eq rfl⟩
  | emit target outlet _ _ => exact (emit_recorded r target _ outlet _).noted
  | dispatch decision _ => exact (dispatch_recorded r decision _).noted
  | flushBroadcast =>
    exact (emitParcels_recorded { r with queues := r.queues.drop .broadcast none }
      (r.queues.ready .broadcast none r.now)).noted
  | flushUnicast =>
    have hemissions := release_emissions ({ r with queues := r.queues.drop .unicast none }.giveUp
      .unicast (r.queues.lapsed .unicast none r.now)) .unicast (r.queues.ready .unicast none r.now)
    refine ⟨hemissions, _, release_released _ _ _, fun e he => ?_⟩
    obtain ⟨p, _, hp⟩ := List.mem_filterMap.mp he
    rw [(release?_parcel hp).2.1]
    simp
  | fireContention =>
    exact (emitParcels_recorded { r with contention := (r.contention.fire r.now).2 }
      (r.contention.fire r.now).1).noted
  | scheduleBeacon due round => exact ⟨List.prefix_rfl, .of_eq rfl⟩

/-- Forwarding never releases from the queue of a lookup. -/
theorem Forwards.noted {P : Router α → Packet → Prop} {r s : Router α} (h : Forwards P r s) :
    r.emissions <+: s.emissions ∧ Noted (·.kind ≠ .lookup) r s := by
  induction h with
  | refl => exact ⟨List.prefix_rfl, .of_eq rfl⟩
  | tail _ hstep ih =>
    obtain ⟨hemissions, hnoted⟩ := hstep.noted
    exact ⟨ih.1.trans hemissions, ih.2.trans hnoted⟩

/-- Ending a lookup with success records its queue, less what waited too long. -/
theorem resolveLookup_released {r : Router α} {target : Address} {l : Lookup}
    (h : r.lookups.inFlight.get? target = some l) :
    (r.resolveLookup target).released = r.released ++
        (r.queues.ready .lookup (some target) r.now).filterMap (r.release? .lookup) ∧
      ∀ e ∈ (r.queues.ready .lookup (some target) r.now).filterMap (r.release? .lookup),
        e.HandedOut (r.resolveLookup target).emissions := by
  rw [resolveLookup_eq h]
  exact ⟨release_released (r.resolving target l) _ _,
    release_handedOut (r.resolving target l) _ _⟩

end Router

end Geocast
