/-!
# Tasks

A set of tasks, each of which runs for a given time and then ends, in order or by failing. The
set counts those still running and can wait for all of them.
-/

namespace Geocast

/-- A task that ends at a given millisecond. -/
structure Task where
  id : Nat
  due : Nat
  fails : Bool := false
deriving DecidableEq, Repr, Inhabited

/-- The tasks running at a time, and those that ended in order, with the time of their end. -/
structure TaskSet where
  now : Nat := 0
  running : List Task := []
  finished : List (Nat × Nat) := []
deriving DecidableEq, Repr, Inhabited

namespace TaskSet

/-- Lets tasks that are due end. -/
def settle (s : TaskSet) : TaskSet :=
  let ended := s.running.filter (·.due ≤ s.now)
  { s with
    running := s.running.filter fun t => !decide (t.due ≤ s.now)
    finished := s.finished ++ (ended.filter (!·.fails)).map fun t => (t.id, t.due) }

/-- Starts a task that runs for so many milliseconds. -/
def spawn (s : TaskSet) (id millis : Nat) (fails : Bool) : TaskSet :=
  settle { s with running := s.running ++ [⟨id, s.now + millis, fails⟩] }

/-- Lets so many milliseconds pass. -/
def advance (s : TaskSet) (millis : Nat) : TaskSet := settle { s with now := s.now + millis }

/-- Lets time pass until no task runs. -/
def join (s : TaskSet) : TaskSet :=
  settle { s with now := s.running.foldl (fun t task => max t task.due) s.now }

/-- The number of tasks still running. -/
def active (s : TaskSet) : Nat := s.running.length

/-! ## Waiting for all tasks -/

variable {t : Task}

/-- The time to which all tasks are waited for is the end of the last of them, or already past. -/
theorem now_join (s : TaskSet) :
    s.now ≤ s.join.now ∧ (∀ t ∈ s.running, t.due ≤ s.join.now) ∧
      (s.join.now = s.now ∨ ∃ t ∈ s.running, s.join.now = t.due) := by
  show s.now ≤ s.running.foldl _ s.now ∧ (∀ t ∈ s.running, t.due ≤ s.running.foldl _ s.now) ∧
    (s.running.foldl _ s.now = s.now ∨ ∃ t ∈ s.running, s.running.foldl _ s.now = t.due)
  generalize s.now = now
  induction s.running generalizing now with
  | nil => exact ⟨Nat.le_refl _, fun _ ht => absurd ht List.not_mem_nil, .inl rfl⟩
  | cons first rest ih =>
    obtain ⟨hle, hall, hattained⟩ := ih (max now first.due)
    rw [List.foldl_cons]
    refine ⟨Nat.le_trans (Nat.le_max_left _ _) hle, fun t ht => ?_, ?_⟩
    · rcases List.mem_cons.mp ht with rfl | ht
      · exact Nat.le_trans (Nat.le_max_right _ _) hle
      · exact hall t ht
    · rcases hattained with hsame | ⟨t, ht, hdue⟩
      · rcases Nat.le_total first.due now with hearly | hlate
        · exact .inl (hsame.trans (Nat.max_eq_left hearly))
        · exact .inr ⟨first, List.mem_cons_self, hsame.trans (Nat.max_eq_right hlate)⟩
      · exact .inr ⟨t, List.mem_cons_of_mem _ ht, hdue⟩

/-- Then no task runs any more, also none that failed. -/
theorem active_join (s : TaskSet) : s.join.active = 0 := by
  refine List.length_eq_zero_iff.mpr (List.filter_eq_nil_iff.mpr fun t ht => ?_)
  have hdue : t.due ≤ s.join.now := s.now_join.2.1 t ht
  rw [Bool.not_eq_true, Bool.not_eq_false']
  exact decide_eq_true hdue

/-- Every task that ends in order is then known to have ended, at its own time. -/
theorem mem_finished_join {s : TaskSet} (ht : t ∈ s.running) (hfails : t.fails = false) :
    (t.id, t.due) ∈ s.join.finished := by
  have hdue : t.due ≤ s.join.now := s.now_join.2.1 t ht
  refine List.mem_append_right _ (List.mem_map.mpr ⟨t, List.mem_filter.mpr ⟨?_, ?_⟩, rfl⟩)
  · exact List.mem_filter.mpr ⟨ht, decide_eq_true hdue⟩
  · rw [hfails]
    rfl

/-- What ended before is still known. -/
theorem finished_prefix_join (s : TaskSet) : s.finished <+: s.join.finished :=
  List.prefix_append _ _

end TaskSet

end Geocast
