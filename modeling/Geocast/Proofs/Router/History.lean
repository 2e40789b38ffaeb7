import Geocast.Proofs.Router.Steps

/-!
# What happened on a run

A run is a row of actions, so that what happens on it can be counted: in which states a station is
seen, and how many numbered packets of it are new when they come.
-/

namespace Geocast

/-- A packet was dropped because it was seen before. -/
def ReceiveOutcome.isDuplicate : ReceiveOutcome → Bool
  | .drop (.duplicatePacket _ _) => true
  | _ => false

namespace Router

variable {α : Type} [Scalar α]

/-- What a row of actions makes of a router. -/
def acts (r : Router α) (actions : List Action) : Router α := actions.foldl act r

/-- Every run is a row of actions. -/
theorem leads_iff (r s : Router α) : Leads r s ↔ ∃ actions, s = r.acts actions := by
  constructor
  · intro h
    induction h with
    | refl => exact ⟨[], rfl⟩
    | tail _ hstep ih =>
      obtain ⟨actions, rfl⟩ := ih
      obtain ⟨action, rfl⟩ := (step_iff _ _).mp hstep
      refine ⟨actions ++ [action], ?_⟩
      unfold acts
      rw [List.foldl_append]
      rfl
  · rintro ⟨actions, rfl⟩
    induction actions generalizing r with
    | nil => exact .refl
    | cons action rest ih => exact .head (step_act r action) (ih _)

/-- The table holds a live entry of a station. -/
def sees (r : Router α) (a : Address) : Bool := (r.table.find? a r.clock).isSome

/-- A station is seen in every state of a run, the first and the last among them. -/
def watches (a : Address) (r : Router α) : List Action → Bool
  | [] => r.sees a
  | action :: rest => r.sees a && watches a (r.act action) rest

theorem sees_of_watches {a : Address} {r : Router α} {actions : List Action}
    (h : watches a r actions = true) : r.sees a = true := by
  cases actions with
  | nil => exact h
  | cons _ _ => exact (Bool.and_eq_true_iff.mp h).1

/-- An action takes in a numbered packet of a station that was not seen before. -/
def accepts (a : Address) (r : Router α) : Action → Bool
  | .receive frame =>
    match r.judge frame with
    | .error _ => false
    | .ok arrival =>
      r.isRunning && decide (arrival.source.address = a) && arrival.packet.sequence?.isSome &&
        !(r.receive frame).1.isDuplicate
  | _ => false

/-- How many numbered packets of a station a run takes in that were not seen before. -/
def accepted (a : Address) (r : Router α) : List Action → Nat
  | [] => 0
  | action :: rest => (if accepts a r action then 1 else 0) + accepted a (r.act action) rest

end Router

end Geocast
