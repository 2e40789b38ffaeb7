import Geocast.Proofs.Forwarding.Decision
import Geocast.Proofs.Router.Waiting

/-!
# Packets received twice

A packet that comes a second time in the same instant should be dropped as a duplicate. It is,
exactly as long as the table still sees the entry that holds its number, and that depends on the
stamp under which the source is known: a stamp that is not fresh makes the entry stale at once, the
second copy makes it anew, and the number is forgotten (`receive_again_duplicate_iff`).
-/

namespace Geocast.Router

variable {α : Type}

/-- Only a packet that is to be discarded comes back with an error. -/
theorem discard_of_dispatch {r s : Router α} {decision : Decision} {o : Outgoing}
    {e : RoutingError} (h : r.dispatch decision o = (.error e, s)) : decision = .discard e := by
  obtain ⟨_, hgone⟩ := exists_dispatched r decision o
  rw [h] at hgone
  cases hgone with
  | discarded hdiscard => exact hdiscard

/-- Two routers that judge and learn alike. -/
structure Agrees (r s : Router α) : Prop where
  config : s.config = r.config
  base : s.base = r.base
  now : s.now = r.now
  phase : s.phase = r.phase
  table : s.table = r.table

theorem Agrees.trans {r s t : Router α} (h : Agrees r s) (h' : Agrees s t) : Agrees r t :=
  ⟨h'.config.trans h.config, h'.base.trans h.base, h'.now.trans h.now, h'.phase.trans h.phase,
    h'.table.trans h.table⟩

/-- Nor does forwarding. -/
theorem Alike.agrees {r s : Router α} (h : Alike r s) : Agrees r s :=
  ⟨h.config, h.base, h.now, h.phase, h.table⟩

/-- The entry that holds a number is seen when the stamp just heard is fresh, or when the stamp
already known is and the one just heard does not take its place. -/
theorem fresh_keptPosition_iff (r : Router α) (v : LongPosition) :
    r.table.Fresh (r.keptPosition v).timestamp r.clock ↔
      r.table.Fresh v.timestamp r.clock ∨
      ∃ e, r.table.findPosition? v.address r.clock = some e ∧
        v.timestamp.newerThan e.position.timestamp = false := by
  unfold keptPosition
  cases hfind : r.table.find? v.address r.clock with
  | none =>
    have hnone : r.table.findPosition? v.address r.clock = none := by
      unfold LocationTable.findPosition?
      rw [hfind]
      rfl
    simp only [hnone, Option.elim_none, reduceCtorEq, false_and, exists_false, or_false]
  | some e =>
    have hfresh := ((LocationTable.find?_eq_some_iff _ _ _ _).mp hfind).2
    have hposition : r.table.findPosition? v.address r.clock =
        if e.pending then none else some e := by
      unfold LocationTable.findPosition? Entry.hasPosition
      rw [hfind]
      cases hpending : e.pending <;> simp [Option.filter, hpending]
    unfold LocationTable.keptPosition
    rw [Option.elim_some, hposition]
    -- a placeholder or an older vector gives way to the one just heard, and any other stays
    cases hpending : e.pending <;> cases hnewer : v.timestamp.newerThan e.position.timestamp
    · simp [hfresh, hnewer]
    · simp [hnewer]
    · simp
    · simp

variable [Scalar α]

/-! ## A packet that goes on its way is no duplicate -/

/-- The outcome is not that the packet was seen before. -/
def IsNew (outcome : ReceiveOutcome) : Prop :=
  ∀ a n, outcome ≠ .drop (.duplicatePacket a n)

theorem isNew_deliver (a : Arrival) (forwarded : Bool) : IsNew (deliver a forwarded) := by
  intro _ _ h
  cases h

theorem isNew_forward : IsNew .forward := by
  intro _ _ h
  cases h

theorem isNew_exhausted : IsNew (.drop .hopLimitExhausted) := by
  intro _ _ h
  cases h

/-- What becomes of a packet for one station is never that it was seen before. -/
theorem receiveUnicast_isNew (r : Router α) (a : Arrival) (u : UnicastHeader)
    (is_unicast : a.packet.extended = .unicast u) :
    IsNew (r.receiveUnicast a u is_unicast).1 := by
  unfold receiveUnicast
  split
  · exact isNew_deliver a false
  · split
    · exact isNew_exhausted
    · dsimp only
      split
      · exact isNew_forward
      · next heq =>
        have hdiscard := Plan.discard_of_timed (discard_of_dispatch heq)
        exact absurd hdiscard (Forwarder.toward_ne_discard _ _ _ _)

/-- Nor is it of a request. -/
theorem receiveLocationRequest_isNew (r : Router α) (a : Arrival) (requested : Address) :
    IsNew (r.receiveLocationRequest a requested).1 := by
  unfold receiveLocationRequest
  split
  · split
    · exact isNew_deliver a false
    · next heq =>
      have hdiscard := Plan.discard_of_timed (discard_of_dispatch heq)
      exact absurd hdiscard (Forwarder.toward_ne_discard _ _ _ _)
  · dsimp only
    split
    · exact isNew_forward
    · exact isNew_exhausted

/-- Nor of a packet for an area. -/
theorem receiveArea_isNew (r : Router α) (a : Arrival) (area : Area) (anycast : Bool) :
    IsNew (r.receiveArea a area anycast).1 := by
  unfold receiveArea
  dsimp only
  split
  · exact isNew_deliver a false
  · split
    · split
      · exact isNew_deliver a false
      · exact isNew_exhausted
    · split
      · exact isNew_deliver a _
      · exact isNew_forward
      · next heq =>
        have hdiscard := Plan.discard_of_timed (discard_of_dispatch (Prod.ext heq rfl))
        rw [Forwarder.senderInsideArea_of_into hdiscard]
        intro _ _ h
        cases h

/-- So a packet that is accepted is not reported as a duplicate. -/
theorem accept_isNew (r : Router α) (a : Arrival) : IsNew (r.accept a).1 := by
  unfold accept
  dsimp only
  generalize (if a.direct then _ else _ : Router α) = s
  unfold handle
  split
  · intro _ _ h
    cases h
  · exact isNew_deliver a false
  · exact isNew_deliver a false
  · exact isNew_deliver a _
  · exact receiveUnicast_isNew s a _ _
  · exact receiveLocationRequest_isNew s a _
  · exact receiveArea_isNew s a _ _

/-! ## What the second copy finds -/

/-- The end of a lookup changes nothing of what is judged or learnt. -/
theorem resolveLookup_agrees (r : Router α) (target : Address) :
    Agrees r (r.resolveLookup target) := by
  cases hl : r.lookups.inFlight.get? target with
  | none =>
    rw [resolveLookup_idle hl]
    exact ⟨rfl, rfl, rfl, rfl, rfl⟩
  | some l =>
    obtain ⟨hended, htable⟩ := resolveLookup_ended hl
    exact ⟨hended.config, hended.base, hended.now, hended.phase, htable⟩

/-- All that a packet leaves behind in the table is what was learnt of its source. -/
theorem receive_agrees {r : Router α} {frame : Bytes} {a : Arrival} (hrunning : r.phase = .running)
    (hjudge : r.judge frame = .ok a) : Agrees (r.arrived.learn a).2 (r.receive frame).2 := by
  rw [receive_of_judge hrunning hjudge]
  rcases process_cases r.arrived a with ⟨n, s, hlearn, hprocess⟩ | ⟨_, s, f, hlearn, _, hprocess⟩
  · rw [hlearn, hprocess]
    exact ⟨rfl, rfl, rfl, rfl, rfl⟩
  · rw [hlearn, hprocess]
    have hcounted : Agrees s (s.count f) := ⟨rfl, rfl, rfl, rfl, rfl⟩
    have haccepted := (accept_forwards (s.count f) (sendable_of_judge hjudge)).alike.agrees
    have htallied : Agrees ((s.count f).accept a).2
        (((s.count f).accept a).2.tally ((s.count f).accept a).1) := ⟨rfl, rfl, rfl, rfl, rfl⟩
    exact ((hcounted.trans (resolveLookup_agrees _ _)).trans haccepted).trans htallied

/-- What a router knows of the source of a packet once it was received. -/
theorem receive_learned {r : Router α} {frame : Bytes} {a : Arrival} (hrunning : r.phase = .running)
    (hjudge : r.judge frame = .ok a) (hother : a.source.address ≠ r.table.own) :
    Learned r.arrived a (r.arrived.learn a).1 (r.receive frame).2 :=
  (learn_learned (r := r.arrived) hother).of_table (receive_agrees hrunning hjudge).table

/-- A packet whose number is remembered takes a copy of it off its timer, and any other is
accepted. -/
theorem receive_seen_or_accepted {r : Router α} {frame : Bytes} {a : Arrival}
    (hrunning : r.phase = .running) (hjudge : r.judge frame = .ok a)
    (hother : a.source.address ≠ r.table.own) :
    (∃ n, a.packet.sequence? = some n ∧ (r.remembered a.source.address).contains n = true ∧
      r.receive frame = (.drop (.duplicatePacket a.source.address n),
        ((r.arrived.learn a).2.overhear (a.source.address, n)).tally
          (.drop (.duplicatePacket a.source.address n)))) ∨
    ((∀ n, a.packet.sequence? = some n →
        (r.remembered a.source.address).contains n = false) ∧
      ∃ f, r.receive frame = ((((r.arrived.learn a).2.count f).accept a).1,
        (((r.arrived.learn a).2.count f).accept a).2.tally
          (((r.arrived.learn a).2.count f).accept a).1)) := by
  have hlearned : Learned r.arrived a (r.arrived.learn a).1 (r.arrived.learn a).2 :=
    learn_learned hother
  have hremembered : r.arrived.remembered a.source.address = r.remembered a.source.address := rfl
  rw [receive_of_judge hrunning hjudge]
  rcases process_cases r.arrived a with
    ⟨n, s, hlearn, hprocess⟩ | ⟨check, s, f, hlearn, hnew, hprocess⟩
  · rw [hlearn] at hlearned ⊢
    obtain ⟨hn, hseen⟩ := (hlearned.duplicate n).mp rfl
    exact .inl ⟨n, hn, hremembered ▸ hseen, by rw [hprocess]⟩
  · rw [hlearn] at hlearned ⊢
    refine .inr ⟨fun n hn => ?_, f, by rw [hprocess]⟩
    rw [Bool.eq_false_iff]
    exact fun hseen => hnew n ((hlearned.duplicate n).mpr ⟨hn, hremembered ▸ hseen⟩)

/-- A packet whose number is remembered is dropped as a duplicate, and nothing is handed to the
link; any other goes on its way. -/
theorem receive_seen_or_new {r : Router α} {frame : Bytes} {a : Arrival} {n : SequenceNumber}
    (hrunning : r.phase = .running) (hjudge : r.judge frame = .ok a)
    (hother : a.source.address ≠ r.table.own) (hsequence : a.packet.sequence? = some n) :
    ((r.remembered a.source.address).contains n = true ∧
      (r.receive frame).1 = .drop (.duplicatePacket a.source.address n) ∧
      (r.receive frame).2.emissions = r.emissions) ∨
    ((r.remembered a.source.address).contains n = false ∧ IsNew (r.receive frame).1) := by
  rcases receive_seen_or_accepted hrunning hjudge hother with
    ⟨m, hm, hseen, hreceive⟩ | ⟨hunseen, f, hreceive⟩
  · obtain rfl := Option.some.inj (hsequence.symm.trans hm)
    obtain ⟨table, htable⟩ := learn_rest r.arrived a
    rw [hreceive, htable]
    exact .inl ⟨hseen, rfl, rfl⟩
  · rw [hreceive]
    exact .inr ⟨hunseen n hsequence, accept_isNew _ a⟩

/-- A packet is dropped as a duplicate exactly when its number was remembered. -/
theorem receive_duplicate_iff {r : Router α} {frame : Bytes} {a : Arrival} {n : SequenceNumber}
    (hrunning : r.phase = .running) (hjudge : r.judge frame = .ok a)
    (hother : a.source.address ≠ r.table.own) (hsequence : a.packet.sequence? = some n) :
    ((r.receive frame).1 = .drop (.duplicatePacket a.source.address n) ∧
      (r.receive frame).2.emissions = r.emissions) ↔
    (r.remembered a.source.address).contains n = true := by
  rcases receive_seen_or_new hrunning hjudge hother hsequence with
    ⟨hseen, hdropped⟩ | ⟨hunseen, hnew⟩
  · exact iff_of_true hdropped hseen
  · exact iff_of_false (fun hdropped => hnew _ _ hdropped.1) (Bool.eq_false_iff.mp hunseen)

/-- In every state that a running router can come to, a numbered packet from another station that
may still travel is dropped as a duplicate when it comes a second time in the same instant, and
nothing is handed to the link, exactly when the stamp of its source is fresh or a fresh one is
known that it is not newer than. -/
theorem receive_again_duplicate_iff {r : Router α} (reach : Reachable r)
    (hrunning : r.phase = .running) {frame : Bytes} {p : Packet}
    (hdecode : Packet.decode frame = .ok p) {v : LongPosition} (hsource : p.source? = some v)
    {n : SequenceNumber} (hsequence : p.sequence? = some n)
    (hother : v.address ≠ r.config.address) (hhops : p.basic.remainingHops ≠ 0) :
    (((r.receive frame).2.receive frame).1 = .drop (.duplicatePacket v.address n) ∧
      ((r.receive frame).2.receive frame).2.emissions = (r.receive frame).2.emissions) ↔
    r.table.Fresh v.timestamp r.clock ∨
      ∃ e, r.table.findPosition? v.address r.clock = some e ∧
        v.timestamp.newerThan e.position.timestamp = false := by
  have hfitted := reach.orderly.fitted
  let a : Arrival :=
    { packet := p.relayed, source := v, direct := isDirect p, length := frame.length }
  have hjudge : r.judge frame = .ok a := judge_of_decode hdecode hsource hother hhops
  have hown : a.source.address ≠ r.table.own := hfitted.own ▸ hother
  have hlearned : Learned r.arrived a (r.arrived.learn a).1 (r.arrived.learn a).2 :=
    learn_learned hown
  have hagrees := receive_agrees hrunning hjudge
  obtain ⟨table, hrest⟩ := learn_rest r.arrived a
  rw [hrest] at hagrees hlearned
  -- the second copy is judged as the first one was, in a table that knows of the first
  generalize (r.receive frame).2 = s at hagrees
  have hrunning' : s.phase = .running := hagrees.phase.trans hrunning
  have hclock : s.clock = r.clock := by
    unfold clock
    rw [hagrees.base, hagrees.now]
    rfl
  have hjudge' : s.judge frame = .ok a :=
    judge_of_decode hdecode hsource (hagrees.config ▸ hother) hhops
  have hown' : a.source.address ≠ s.table.own := by
    rw [hagrees.table]
    exact hlearned.own ▸ hown
  rw [receive_duplicate_iff hrunning' hjudge' hown' hsequence, ← fresh_keptPosition_iff]
  obtain ⟨e, hget, _, hposition, hseen⟩ := hlearned.entry
  have hlifetime : table.lifetime = r.table.lifetime := hlearned.lifetime
  have hfresh : table.Fresh e.position.timestamp r.clock ↔
      r.table.Fresh (r.keptPosition v).timestamp r.clock := by
    rw [hposition]
    exact LocationTable.fresh_congr hlifetime _ _
  rw [← hfresh]
  unfold remembered
  rw [hagrees.table, hclock]
  cases hfind : table.find? v.address r.clock with
  | some e' =>
    obtain ⟨hget', hfresh'⟩ := (LocationTable.find?_eq_some_iff _ _ _ _).mp hfind
    obtain rfl := Option.some.inj (hget.symm.trans hget')
    exact ⟨fun _ => hfresh', fun _ => hseen n hsequence⟩
  | none =>
    refine ⟨fun h => absurd h Bool.false_ne_true, fun h => ?_⟩
    have hsome := (LocationTable.find?_eq_some_iff _ _ _ _).mpr ⟨hget, h⟩
    exact absurd (hfind.symm.trans hsome) (by simp)

/-- A packet under the stamp of the clock is dropped when it comes again. -/
theorem receive_again_duplicate_of_now :
    let r := trialStarted Sphere.geometry trialConfig
    let frame := (trialPacket 11 100000 10000).encode
    Reachable r ∧ r.phase = .running ∧ Packet.decode frame = .ok (trialPacket 11 100000 10000) ∧
      ((r.receive frame).2.receive frame).1 =
        .drop (.duplicatePacket (trialStation 11) ⟨7⟩) := by
  refine ⟨trialConfig_reachable _, rfl, decode_trialPacket _ _ _, ?_⟩
  exact ((receive_again_duplicate_iff (trialConfig_reachable Sphere.geometry) rfl
    (decode_trialPacket 11 100000 10000) rfl rfl (by decide +kernel) (by decide)).mpr
      (.inl (by decide +kernel))).1

/-- A packet under a stamp a minute old is not. -/
theorem not_forall_receive_again_duplicate :
    ¬ ∀ r : Router Float, Reachable r → r.phase = .running →
      ∀ frame p, Packet.decode frame = .ok p → ∀ v, p.source? = some v →
        ∀ n, p.sequence? = some n → v.address ≠ r.config.address → p.basic.remainingHops ≠ 0 →
        ((r.receive frame).2.receive frame).1 = .drop (.duplicatePacket v.address n) := by
  intro h
  have hdrop := h _ (trialConfig_reachable Sphere.geometry) rfl _ _
    (decode_trialPacket 11 40000 10000) _ rfl _ rfl (by decide +kernel) (by decide)
  exact absurd hdrop (by decide +kernel)

end Geocast.Router
