import Geocast.Forwarding

/-!
# What can be decided for a packet

Towards a place a packet always finds some way: it is never discarded, and where it is not one
that another station sent, it goes out or is parked at once. Only at the edge of an area is a
packet discarded, for one reason.
-/

namespace Geocast

/-- Whether a plan hands a packet out or parks it in a queue, without waiting. -/
def Plan.isPrompt {τ : Type} : Plan τ → Bool
  | .unicast _ | .broadcast | .buffer | .bufferBroadcast => true
  | .defer _ | .discard _ => false

/-- Waiting times do not matter to whether there is one. -/
theorem Plan.isPrompt_timed {τ : Type} (wait : τ → Nat) (plan : Plan τ) :
    (plan.timed wait).isPrompt = plan.isPrompt := by
  cases plan <;> rfl

/-- A plan defers a packet exactly where it is contended for, and else hands it out or parks it. -/
def Plan.Suits {τ : Type} (contended : Bool) : Plan τ → Prop
  | .defer _ => contended = true
  | .discard _ => False
  | .unicast _ | .broadcast | .buffer | .bufferBroadcast => contended = false

/-- Where nobody contends a plan must be prompt. -/
theorem Plan.suits_false_iff {τ : Type} (plan : Plan τ) :
    plan.Suits false ↔ plan.isPrompt = true := by
  cases plan <;> simp [Suits, isPrompt]

/-- To work out the time that a plan waits does not change what kind of plan it is. -/
theorem Plan.suits_timed {τ : Type} {contended : Bool} (wait : τ → Nat) {plan : Plan τ}
    (h : plan.Suits contended) : (plan.timed wait).Suits contended := by
  cases plan <;> exact h

theorem Plan.buffer_of_timed {τ : Type} {wait : τ → Nat} {plan : Plan τ}
    (h : plan.timed wait = .buffer) : plan = .buffer := by
  cases plan with
  | buffer => rfl
  | _ => exact nomatch h

theorem Plan.discard_of_timed {τ : Type} {wait : τ → Nat} {plan : Plan τ} {e : RoutingError}
    (h : plan.timed wait = .discard e) : plan = .discard e := by
  cases plan with
  | discard reason =>
    obtain rfl := Plan.discard.inj h
    rfl
  | _ => exact nomatch h

namespace Forwarder

variable {α : Type} [Scalar α]

/-- Greedy forwarding never contends. -/
theorem greedy_isPrompt (f : Forwarder α) (s : Surroundings) (goal : Point) :
    (f.greedy s goal).isPrompt = true := by
  unfold greedy
  split
  · split
    · rfl
    · split <;> rfl
  · split <;> rfl

/-- A packet that no other station sent does not wait for its turn. -/
theorem toward_isPrompt (f : Forwarder α) {s : Surroundings} (goal : Point)
    (hown : s.sender = none) : (f.timed (f.toward s goal)).isPrompt = true := by
  unfold timed toward
  rw [Plan.isPrompt_timed]
  split
  · exact greedy_isPrompt f s goal
  · unfold contend
    rw [hown]
    rfl

/-- Towards a place no packet is discarded for want of a way. -/
theorem toward_ne_discard (f : Forwarder α) (s : Surroundings) (goal : Point) (e : RoutingError) :
    f.toward s goal ≠ .discard e := by
  unfold toward
  split
  · intro h
    have hprompt := greedy_isPrompt f s goal
    rw [h] at hprompt
    exact nomatch hprompt
  · unfold contend
    split <;> exact nofun

/-- Nor is one within an area. -/
theorem within_ne_discard (f : Forwarder α) (s : Surroundings) (area : Area) (e : RoutingError) :
    f.within s area ≠ .discard e := by
  unfold within
  split <;> exact nofun

/-- The one reason for which a packet is not carried on. -/
theorem senderInsideArea_of_into {f : Forwarder α} {s : Surroundings} {area : Area}
    {e : RoutingError} (h : f.into s area = .discard e) : e = .senderInsideArea := by
  unfold into at h
  split at h
  · exact absurd h (within_ne_discard f s area e)
  · split at h
    · exact (Plan.discard.inj h).symm
    · exact absurd h (toward_ne_discard f s _ e)

/-- A packet waits for any neighbour only where there is none. -/
theorem toward_ne_bufferBroadcast (f : Forwarder α) {s : Surroundings} (goal : Point)
    (hneighbor : s.table.hasNeighbors s.now = true) :
    f.timed (f.toward s goal) ≠ .bufferBroadcast := by
  intro h
  have hplan : f.toward s goal = .bufferBroadcast := by
    unfold timed at h
    cases hplan : f.toward s goal with
    | bufferBroadcast => rfl
    | _ =>
      rw [hplan] at h
      exact nomatch h
  unfold toward at hplan
  split at hplan
  · unfold greedy at hplan
    split at hplan
    · split at hplan
      · exact nomatch hplan
      · split at hplan <;> exact nomatch hplan
    · next hnearest =>
      -- some neighbour would be the nearest
      unfold LocationTable.hasNeighbors at hneighbor
      unfold LocationTable.nearest? at hnearest
      cases hneighbors : s.table.neighbors s.now with
      | nil =>
        rw [hneighbors] at hneighbor
        exact absurd hneighbor (by simp)
      | cons e rest =>
        rw [hneighbors] at hnearest
        exact nomatch hnearest
  · unfold contend at hplan
    split at hplan <;> exact nomatch hplan

/-- Stations contend only for packets that move by contention and that another station sent. -/
theorem toward_suits (f : Forwarder α) (s : Surroundings) (goal : Point) {contended : Bool}
    (h : (decide (f.nonArea = .contention) && s.sender.isSome) = contended) :
    (f.timed (f.toward s goal)).Suits contended := by
  subst h
  refine Plan.suits_timed f.delay ?_
  unfold toward
  cases hnonArea : f.nonArea with
  | greedy => exact (Plan.suits_false_iff _).mpr (greedy_isPrompt f s goal)
  | contention =>
    unfold contend
    dsimp only
    cases s.sender <;> rfl

/-- Whether stations at some place contend for packets for an area. -/
def contends (f : Forwarder α) (here : Point) (area : Area) : Bool :=
  if (f.geometry.relativePosition here area).isWithin then f.area = .contention
  else f.nonArea = .contention

/-- A packet for an area is discarded, or treated by whether stations contend for it. -/
theorem into_suits (f : Forwarder α) (s : Surroundings) (area : Area) :
    (∃ e, f.into s area = .discard e) ∨
      (f.timed (f.into s area)).Suits (f.contends s.here area && s.sender.isSome) := by
  unfold into contends
  split
  · refine .inr (Plan.suits_timed f.delay ?_)
    unfold within
    split
    · next h => simp [Plan.Suits, h.1, h.2]
    · next h => simpa [Plan.Suits] using h
  · split
    · exact .inl ⟨_, rfl⟩
    · exact .inr (toward_suits f s _ rfl)

/-- Only outside an area is a packet for it discarded. -/
theorem outside_of_discard {f : Forwarder α} {s : Surroundings} {area : Area} {e : RoutingError}
    (h : f.into s area = .discard e) :
    (f.geometry.relativePosition s.here area).isWithin = false := by
  unfold into at h
  split at h
  · exact absurd h (within_ne_discard f s area e)
  · next houtside => exact Bool.eq_false_iff.mpr houtside

/-- A packet of the own station is never refused for an area, nor does it wait for its turn. -/
theorem into_isPrompt (f : Forwarder α) {s : Surroundings} (area : Area) (hown : s.sender = none) :
    (f.timed (f.into s area)).isPrompt = true := by
  rw [← Plan.suits_false_iff]
  rcases into_suits f s area with ⟨e, hdiscard⟩ | hsuits
  · -- only what another station sent is discarded
    unfold into at hdiscard
    rw [hown] at hdiscard
    split at hdiscard
    · exact absurd hdiscard (within_ne_discard f s area e)
    · exact absurd hdiscard (toward_ne_discard f s _ e)
  · rwa [hown, Option.isSome_none, Bool.and_false] at hsuits

/-- Only where packets move greedily do they wait for a way to their destination. -/
theorem greedy_of_toward {f : Forwarder α} {s : Surroundings} {goal : Point}
    (h : f.timed (f.toward s goal) = .buffer) : f.nonArea = .greedy := by
  have hbuffer := Plan.buffer_of_timed h
  unfold toward at hbuffer
  split at hbuffer
  · assumption
  · unfold contend at hbuffer
    split at hbuffer <;> exact nomatch hbuffer

/-- And only where their class asks for it. -/
theorem patient_of_toward {f : Forwarder α} {s : Surroundings} {goal : Point}
    (h : f.timed (f.toward s goal) = .buffer) : s.trafficClass.storeCarryForward = true := by
  have hbuffer := Plan.buffer_of_timed h
  unfold toward greedy contend at hbuffer
  by_cases hclass : s.trafficClass.storeCarryForward = true
  · exact hclass
  · rw [if_neg hclass, if_neg hclass] at hbuffer
    split at hbuffer
    · split at hbuffer
      · split at hbuffer <;> exact nomatch hbuffer
      · exact nomatch hbuffer
    · split at hbuffer <;> exact nomatch hbuffer

/-- A packet that may wait for a way to its destination goes to a neighbour, or waits for that. -/
theorem toward_of_patient {f : Forwarder α} {s : Surroundings} (goal : Point)
    (hgreedy : f.nonArea = .greedy) (hclass : s.trafficClass.storeCarryForward = true) :
    (∃ nextHop, f.timed (f.toward s goal) = .unicast nextHop) ∨
      f.timed (f.toward s goal) = .buffer := by
  unfold toward greedy
  rw [hgreedy, if_pos hclass, if_pos hclass]
  dsimp only
  split
  · split
    · exact .inl ⟨_, rfl⟩
    · exact .inr rfl
  · exact .inr rfl

/-- A packet for an area waits only where packets move greedily. -/
theorem greedy_of_into {f : Forwarder α} {s : Surroundings} {area : Area}
    (h : f.timed (f.into s area) = .buffer) : f.nonArea = .greedy := by
  have hbuffer := Plan.buffer_of_timed h
  unfold into at hbuffer
  split at hbuffer
  · unfold within at hbuffer
    split at hbuffer <;> exact nomatch hbuffer
  · split at hbuffer
    · exact nomatch hbuffer
    · have htoward : f.timed (f.toward s area.centre) = .buffer := congrArg f.timed hbuffer
      exact greedy_of_toward htoward

/-- And only if its class lets it wait. -/
theorem patient_of_into {f : Forwarder α} {s : Surroundings} {area : Area}
    (h : f.timed (f.into s area) = .buffer) : s.trafficClass.storeCarryForward = true := by
  have hbuffer := Plan.buffer_of_timed h
  unfold into at hbuffer
  split at hbuffer
  · unfold within at hbuffer
    split at hbuffer <;> exact nomatch hbuffer
  · split at hbuffer
    · exact nomatch hbuffer
    · have htoward : f.timed (f.toward s area.centre) = .buffer := congrArg f.timed hbuffer
      exact patient_of_toward htoward

end Forwarder

end Geocast
