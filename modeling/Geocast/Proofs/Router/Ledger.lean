import Geocast.Proofs.Router.History
import Geocast.Proofs.Router.Reception

/-!
# The ledger of a run

A router takes a packet over when it serves a request, passes a packet on, or answers a station that
asks for its place. Every packet taken over should then be sent, held, taken off its timer because it
was overheard, or counted as dropped (`Balanced`). What one action adds to the account is said once,
for all kinds of actions, in `act_dealt`. So the ledger closes on a run exactly when no packet was
lost untold on it (`balanced_iff_untold`): a packet is when it has waited too long for its timer, or
is to wait on a timer that runs for another copy of it.
-/

namespace Geocast

/-- Neither stops a router nor sets its counters back. -/
def Action.keepsCount : Action → Bool
  | .stop | .clearStats => false
  | _ => true

/-- An action lets timers act. -/
def Action.letsTimersAct : Action → Bool
  | .settle | .tick | .wake _ => true
  | _ => false

namespace Router

variable {α : Type} [Scalar α]

/-- A frame asks for the place of the router, and is answered. -/
def answers (r : Router α) (frame : Bytes) : Bool :=
  match r.judge frame with
  | .ok a => (r.receive frame).1.isDelivered && a.packet.isRequest
  | .error _ => false

/-- How many packets a router takes over in an action. -/
def takenOver (r : Router α) : Action → Nat
  | .transmit request => (r.transmit request).1.isOk.toNat
  | .receive frame => (r.receive frame).1.isRelayed.toNat + (r.answers frame).toNat
  | _ => 0

/-- How many frames a router drops in an action, but for those that were seen before. -/
def rejected (r : Router α) : Action → Nat
  | .receive frame => (r.receive frame).1.isRejected.toNat
  | _ => 0

/-- A frame is passed on, but the packet is lost, because a timer runs for another copy of it. -/
def forgets (r : Router α) (frame : Bytes) : Bool :=
  match r.judge frame with
  | .ok a => (r.receive frame).1.isRelayed && r.mislays a
  | .error _ => false

/-- How many packets are lost in an action and not counted. -/
def untold (r : Router α) : Action → Nat
  | .receive frame => (r.forgets frame).toNat
  | .settle => r.lapsing
  | .tick => ({ r with now := r.now + 1 } : Router α).lapsing
  | _ => 0

/-- The sum of what is counted in each action of a run. -/
def sumAlong (f : Router α → Action → Nat) (r : Router α) : List Action → Nat
  | [] => 0
  | action :: rest => f r action + sumAlong f (r.act action) rest

theorem sumAlong_cons (f : Router α → Action → Nat) (r : Router α) (action : Action)
    (rest : List Action) :
    sumAlong f r (action :: rest) = f r action + sumAlong f (r.act action) rest := rfl

/-- Every packet that was taken over on a run was sent, is held, was overheard, or was counted as
dropped, each of them once. Beacons and requests for stations are sent, and bad frames are dropped,
without being taken over. -/
def Balanced (r : Router α) (actions : List Action) : Prop :=
  (sumAlong takenOver r actions : Int) =
    ((r.acts actions).stats.packetsSent - (r.acts actions).stats.beaconsSent -
      (r.acts actions).stats.requestsSent) + (r.acts actions).queues.total +
      (r.acts actions).contention.size + (r.acts actions).stats.contentionsCancelled +
      ((r.acts actions).stats.packetsDropped - sumAlong rejected r actions)

instance (r : Router α) (actions : List Action) : Decidable (r.Balanced actions) :=
  inferInstanceAs (Decidable (_ = _))

variable {r : Router α}

theorem due_eq (r : Router α) (frame : Bytes) :
    r.due frame = (r.receive frame).1.isRelayed.toNat + (r.answers frame).toNat -
      (r.forgets frame).toNat := by
  have hreads := receive_reads r frame
  unfold due answers forgets
  cases hjudge : r.judge frame with
  | ok a => rfl
  | error e =>
    generalize r.receive frame = done at hreads
    cases hreads with
    | unread _ _ => rfl
    | seen _ hjudge' => exact nomatch hjudge.symm.trans hjudge'
    | accepted _ hjudge' _ _ _ _ => exact nomatch hjudge.symm.trans hjudge'

/-! ## What one action does -/

/-- What begins its way in an action: packets of the router's own, and at most one under the number
of a frame that comes in. Unless timers act, none of them asks for a station. -/
structure Undertaken (r : Router α) (action : Action) (new : Multiset Origin) : Prop where
  whence : ∀ o ∈ new, r.Homemade o ∨ o.arrival = r.arrivals + 1
  once : ∀ o, ¬ r.Homemade o → new.count o ≤ 1
  silent : action.letsTimersAct = false → ∀ o ∈ new, ∀ a, r.asks a o.frame = false

namespace Undertaken

variable {action : Action} {new : Multiset Origin}

omit [Scalar α] in
theorem of_begun (h : r.Begun (r.arrivals + 1) new) : r.Undertaken action new where
  whence := h.whence
  once := fun o _ => Nat.le_trans (Multiset.count_le_card o new) h.few
  silent := fun _ o ho => asks_eq_false (h.unsigned o ho)

omit [Scalar α] in
theorem of_quiet (h : r.Quiet new) : r.Undertaken action new := .of_begun (h.begun _)

omit [Scalar α] in
/-- What is the router's own, when timers act. -/
theorem of_timers (h : ∀ o ∈ new, r.Homemade o) (htimed : action.letsTimersAct = true) :
    r.Undertaken action new where
  whence := fun o ho => .inl (h o ho)
  once := fun o hforeign => by
    rw [Multiset.count_eq_zero_of_notMem fun ho => hforeign (h o ho)]
    exact Nat.zero_le _
  silent := fun huntimed => nomatch htimed.symm.trans huntimed

end Undertaken

/-- An action that goes on counting accounts for every packet, but for those that are lost untold. -/
theorem act_dealt (h : r.Sound) (haddressed : Addressed r) {action : Action}
    (hkeeps : action.keepsCount = true) :
    ∃ new, r.Undertaken action new ∧
      Dealt new (r.takenOver action + r.rejected action - r.untold action) r (r.act action) := by
  have hidle {s : Router α} (h : Dealt 0 0 r s) :
      ∃ new, r.Undertaken action new ∧ Dealt new (0 + 0 - 0) r s := ⟨0, .of_quiet (.zero r), h⟩
  have hlapsing (lapsing : Nat) : (-lapsing : Int) = (0 : Nat) + (0 : Nat) - lapsing := by omega
  cases action with
  | start =>
    refine hidle ?_
    show Dealt 0 0 r r.start.2
    unfold Router.start
    split
    · exact .idle h rfl rfl rfl rfl rfl
    · exact .refl h
    · exact .refl h
  | stop => exact absurd hkeeps Bool.false_ne_true
  | receive frame =>
    obtain ⟨new, hbegun, hdealt⟩ := receive_dealt h haddressed frame
    -- what a frame is worth is split into the three accounts
    have hgain : r.due frame + (r.receive frame).1.isRejected.toNat =
        r.takenOver (.receive frame) + r.rejected (.receive frame) -
          r.untold (.receive frame) := by
      rw [due_eq]
      unfold takenOver rejected untold
      push_cast
      omega
    exact ⟨new, .of_begun hbegun, hgain ▸ hdealt⟩
  | transmit request =>
    obtain ⟨new, hquiet, hdealt⟩ := transmit_served h request
    refine ⟨new, .of_quiet hquiet, ?_⟩
    show Dealt new ((r.transmit request).1.isOk.toNat + (0 : Nat) - (0 : Nat)) r _
    cases hok : (r.transmit request).1.isOk with
    | true =>
      rw [hok] at hdealt
      exact hdealt
    | false =>
      rw [hok] at hdealt
      exact hdealt
  | beacon =>
    refine ⟨_, ⟨fun o ho => ?_, fun o _ => ?_, fun _ o ho a => ?_⟩, sendBeacon_dealt h⟩
    · obtain rfl := Multiset.mem_singleton.mp ho
      exact .inl (.of_own rfl (beaconPacket_sendable r) (beaconPacket_own r) none)
    · exact Multiset.count_le_card o _
    · obtain rfl := Multiset.mem_singleton.mp ho
      exact asks_eq_false_of_ne (beaconPacket_sendable r) nofun a
  | reposition position => exact hidle (.idle h rfl rfl rfl rfl rfl)
  | clearStats => exact absurd hkeeps Bool.false_ne_true
  | settle =>
    obtain ⟨new, hnew, hdealt⟩ := settle_dealt h
    exact ⟨new, .of_timers hnew rfl, hlapsing r.lapsing ▸ hdealt⟩
  | tick =>
    -- time passes first, and then timers act
    have hlater : Dealt 0 0 r ({ r with now := r.now + 1 } : Router α) :=
      .idle h rfl rfl rfl rfl rfl
    obtain ⟨new, hnew, hdealt⟩ := settle_dealt hlater.sound
    exact ⟨new, .of_timers hnew rfl, hlater.after_nothing hdealt ((Int.zero_add _).trans
      (hlapsing ({ r with now := r.now + 1 } : Router α).lapsing))⟩
  | wake key =>
    obtain ⟨new, hnew, hdealt⟩ := wakeLoop_dealt h key
    exact ⟨new, .of_timers hnew rfl, hdealt⟩

theorem act_sound (h : r.Sound) (haddressed : Addressed r) (action : Action) :
    (r.act action).Sound := by
  by_cases hkeeps : action.keepsCount = true
  · obtain ⟨_, _, hdealt⟩ := act_dealt h haddressed hkeeps
    exact hdealt.sound
  · cases action with
    | stop => exact h.stop
    | clearStats => exact h.of_same rfl rfl rfl
    | _ => exact absurd rfl hkeeps

theorem Reachable.sound (reach : Reachable r) : r.Sound :=
  reach.invariant_acts .made fun reach h action => act_sound h reach.orderly.addressed action

/-! ## Runs -/

/-- What a run does to the account. -/
theorem acts_balance (reach : Reachable r) {actions : List Action}
    (hkeep : actions.all Action.keepsCount = true) :
    (r.acts actions).balance =
      r.balance + (sumAlong takenOver r actions + sumAlong rejected r actions -
        sumAlong untold r actions) := by
  induction actions generalizing r with
  | nil => exact (Int.add_zero _).symm
  | cons action rest ih =>
    obtain ⟨hfirst, hrest⟩ := Bool.and_eq_true_iff.mp hkeep
    have hall := ih (reach.act action) hrest
    obtain ⟨_, _, hone⟩ := act_dealt reach.sound reach.orderly.addressed hfirst
    show ((r.act action).acts rest).balance = _
    rw [hall, hone.balance]
    simp only [sumAlong_cons]
    push_cast
    omega

/-- On a run of a router from when it was made, in which it is not stopped and its counters are not
set back, every packet that it takes over is sent, held, overheard or counted as dropped exactly if
no packet is lost in silence: because its lifetime ends before its timer does, or because a timer
runs for another copy of it when it is passed on. -/
theorem balanced_iff_untold {geometry : Geometry α} {config : Config α} {base : Timestamp}
    {position : Nat → Fix} {jitter : Nat → Nat}
    (made : make geometry config base position jitter = .ok r) {actions : List Action}
    (hkeep : actions.all Action.keepsCount = true) :
    r.Balanced actions ↔ sumAlong untold r actions = 0 := by
  have hbalance := acts_balance (.made made) hkeep
  have hfresh : r.balance = 0 := by
    obtain ⟨_, rfl⟩ := eq_of_make made
    rfl
  rw [hfresh] at hbalance
  unfold balance Stats.closed at hbalance
  rw [card_held] at hbalance
  unfold Balanced
  push_cast at hbalance
  omega

/-- A packet relayed at once is sent, and the ledger closes. -/
theorem balanced_of_relayed :
    (trial trialGeometry trialConfig).Balanced
      [.start, .receive (trialPacket 11 100000 10000).encode, .tick, .tick] := by
  have hfault : trialConfig.fault?.isNone = true := by decide +kernel
  have hmade := trial_made trialGeometry (Option.isNone_iff_eq_none.mp hfault) (by decide +kernel)
  exact (balanced_iff_untold hmade rfl).mpr (by decide +kernel)

/-- The standard settings with stations that contend for packets on their way to an area or a
station. -/
def trialContending : Config Float := { trialConfig with nonArea := some .contention }

/-- A packet of a station for another, on its way for 50 milliseconds at most. -/
def trialLetter (sequence : UInt16) : Packet where
  basic := { lifetime := ⟨4⟩, remainingHops := 3 }
  common := { type := .geoUnicast, mobile := true, maxHops := 5 }
  extended := .unicast {
    sequence := ⟨sequence⟩
    source := trialPosition 11 100000 10000
    destination := { address := trialStation 13, timestamp := ⟨100000⟩, point := ⟨0, 20000⟩ } }
  payload := []
  fits := rfl
  declared := rfl

/-- A station that is no nearer to the goal than the sender waits for 100 milliseconds. Then the
packet has been on its way for too long, and nothing tells of it. -/
theorem not_forall_balanced :
    ¬ ∀ (config : Config Float) (r : Router Float) (actions : List Action),
      make trialGeometry config ⟨100000⟩ (fun _ => {}) (fun _ => 0) = .ok r →
      actions.all Action.keepsCount = true → r.Balanced actions := by
  intro h
  have hfault : trialContending.fault?.isNone = true := by decide +kernel
  have hmade := trial_made trialGeometry (Option.isNone_iff_eq_none.mp hfault) (by decide +kernel)
  have hbalanced := h trialContending _
    (.start :: .receive (trialLetter 7).encode :: List.replicate 100 .tick) hmade (by decide)
  revert hbalanced
  decide +kernel

end Router

end Geocast
