import Geocast.Proofs.Forwarding.Decision
import Geocast.Proofs.Location.Table
import Geocast.Proofs.Scalar
import Geocast.Router.State

/-!
# Which neighbour greedy forwarding chooses

Greedy forwarding looks for the neighbour nearest to the goal and takes it if that is nearer than
the own place. A search for the best passes over the table once, in whatever order the entries
stand; where distances are in one total order it misses none, so that a packet stays only where no
neighbour at all would bring it nearer (`greedy_selects`).
-/

namespace Geocast

/-- The entries among which greedy forwarding chooses: those of stations that were heard directly,
that are live, and whose place is known. -/
structure Surroundings.Offers (s : Surroundings) (e : Entry) : Prop where
  stored : ∃ a, s.table.stations.get? a = some e
  live : s.table.Fresh e.position.timestamp s.now
  placed : e.pending = false
  neighbor : e.neighbor = true

theorem Surroundings.offers_iff {s : Surroundings} {e : Entry} :
    s.Offers e ↔ e ∈ s.table.neighbors s.now := by
  rw [LocationTable.mem_neighbors_iff]
  constructor
  · rintro ⟨⟨a, hget⟩, hlive, hplaced, hneighbor⟩
    exact ⟨a, hget, hlive, hplaced, hneighbor⟩
  · rintro ⟨a, hget, hlive, hplaced, hneighbor⟩
    exact ⟨⟨a, hget⟩, hlive, hplaced, hneighbor⟩

namespace Forwarder

variable {α : Type} [Scalar α] {f : Forwarder α} {s : Surroundings} {goal : Point}

/-- How far the goal is from the last known place of a station. -/
def remaining (f : Forwarder α) (goal : Point) (e : Entry) : α :=
  f.geometry.distance e.position.point goal

/-- A station is strictly nearer to the goal than the own place. -/
def Advances (f : Forwarder α) (s : Surroundings) (goal : Point) (e : Entry) : Prop :=
  Scalar.lt (f.remaining goal e) (f.geometry.distance s.here goal) = true

instance (f : Forwarder α) (s : Surroundings) (goal : Point) (e : Entry) :
    Decidable (f.Advances s goal e) :=
  inferInstanceAs (Decidable (_ = true))

/-- What is found is a neighbour. -/
theorem offers_of_nearest? {e : Entry} {distance : α}
    (h : s.table.nearest? (f.geometry.distance · goal) s.now = some (e, distance)) :
    s.Offers e :=
  Surroundings.offers_iff.mpr (Scalar.mem_of_leastBy? h).1

/-- Only where there is no neighbour is none found. -/
theorem not_offers_of_nearest? (h : s.table.nearest? (f.geometry.distance · goal) s.now = none)
    (e : Entry) : ¬s.Offers e := by
  intro hoffers
  have hsome : s.table.neighbors s.now ≠ [] :=
    List.ne_nil_of_mem (Surroundings.offers_iff.mp hoffers)
  obtain ⟨b, x, hfound⟩ := Scalar.exists_leastBy? (f.remaining goal) hsome
  exact absurd (hfound.symm.trans h) (Option.some_ne_none _)

theorem hasNeighbors_iff : s.table.hasNeighbors s.now = true ↔ ∃ e, s.Offers e := by
  unfold LocationTable.hasNeighbors
  rw [Bool.not_eq_true', List.isEmpty_eq_false_iff_exists_mem]
  exact exists_congr fun e => Surroundings.offers_iff.symm

/-- A packet that no neighbour brings nearer stays. -/
theorem greedy_of_not_advances (h : ¬∃ e, s.Offers e ∧ f.Advances s goal e) :
    f.greedy s goal =
      if s.trafficClass.storeCarryForward then .buffer
      else if s.table.hasNeighbors s.now then .broadcast else .bufferBroadcast := by
  unfold greedy
  cases hfound : s.table.nearest? (f.geometry.distance · goal) s.now with
  | none =>
    have hnone : ¬s.table.hasNeighbors s.now = true := by
      rw [hasNeighbors_iff]
      rintro ⟨e, hoffers⟩
      exact not_offers_of_nearest? hfound e hoffers
    rw [if_neg hnone]
  | some found =>
    obtain ⟨e, distance⟩ := found
    obtain ⟨-, rfl⟩ := Scalar.mem_of_leastBy? hfound
    have hoffers : s.Offers e := offers_of_nearest? hfound
    have hnearer : ¬f.Advances s goal e := fun hnearer => h ⟨e, hoffers, hnearer⟩
    rw [if_pos (hasNeighbors_iff.mpr ⟨e, hoffers⟩)]
    exact if_neg hnearer

/-! ## Distances in one order -/

/-- An entry that is as near to the goal as any that is offered. -/
structure Nearest (f : Forwarder α) (s : Surroundings) (goal : Point) (e : Entry) : Prop where
  offered : s.Offers e
  least : ∀ c, s.Offers c → Scalar.before (f.remaining goal c) (f.remaining goal e) = false

theorem nearest_iff {e : Entry} :
    f.Nearest s goal e ↔ Scalar.IsLeast (f.remaining goal) (s.table.neighbors s.now) e := by
  constructor
  · rintro ⟨hoffered, hleast⟩
    exact ⟨Surroundings.offers_iff.mp hoffered,
      fun c hc => hleast c (Surroundings.offers_iff.mpr hc)⟩
  · rintro ⟨hmem, hleast⟩
    exact ⟨Surroundings.offers_iff.mpr hmem,
      fun c hc => hleast c (Surroundings.offers_iff.mp hc)⟩

section Ordered

variable (horder : Scalar.Ranks fun p => f.geometry.distance p goal)

include horder

theorem nearest_of_nearest? {e : Entry} {distance : α}
    (h : s.table.nearest? (f.geometry.distance · goal) s.now = some (e, distance)) :
    f.Nearest s goal e :=
  nearest_iff.mpr (Scalar.isLeast_of_leastBy? (horder.comp fun c : Entry => c.position.point) h)

/-- If any neighbour is nearer than the own place, then so is one at the least distance. -/
theorem Nearest.advances {e c : Entry} (h : f.Nearest s goal e) (hoffers : s.Offers c)
    (hnearer : f.Advances s goal c) : f.Advances s goal e := by
  have hbefore : Scalar.before (f.remaining goal c) (f.geometry.distance s.here goal) = true :=
    (horder.agree _ _).symm.trans hnearer
  cases hown : Scalar.before (f.remaining goal e) (f.geometry.distance s.here goal) with
  | true => exact (horder.agree _ _).trans hown
  | false =>
    -- else the other one would be nearer than the one at the least distance
    have hless : Scalar.before (f.remaining goal c) (f.remaining goal e) = true :=
      horder.before_of_not_before hbefore hown
    rw [h.least c hoffers] at hless
    exact absurd hless Bool.false_ne_true

/-- A packet that some neighbour brings nearer goes to a nearest one. -/
theorem greedy_of_advances (h : ∃ e, s.Offers e ∧ f.Advances s goal e) :
    ∃ e, f.Nearest s goal e ∧ f.Advances s goal e ∧ f.greedy s goal = .unicast e.address := by
  obtain ⟨c, hoffers, hnearer⟩ := h
  unfold greedy
  cases hfound : s.table.nearest? (f.geometry.distance · goal) s.now with
  | none => exact absurd hoffers (not_offers_of_nearest? hfound c)
  | some found =>
    obtain ⟨e, distance⟩ := found
    obtain ⟨-, rfl⟩ := Scalar.mem_of_leastBy? hfound
    have hleast : f.Nearest s goal e := nearest_of_nearest? horder hfound
    have hadvances : f.Advances s goal e := hleast.advances horder hoffers hnearer
    exact ⟨e, hleast, hadvances, if_pos hadvances⟩

/-- The order in which the entries of a table stand does not matter where one neighbour alone is
the nearest. -/
theorem greedy_perm {stations : AddressMap Entry}
    (hperm : s.table.stations.toList.Perm stations.toList)
    (hunique : ∀ e c, f.Nearest s goal e → f.Nearest s goal c → e = c) :
    f.greedy { s with table := { s.table with stations } } goal = f.greedy s goal := by
  have hneighbors : (s.table.neighbors s.now).Perm
      (({ s.table with stations } : LocationTable).neighbors s.now) :=
    ((hperm.map Prod.snd).filter _).filter _
  have hsame : ({ s.table with stations } : LocationTable).nearest?
      (f.geometry.distance · goal) s.now =
        s.table.nearest? (f.geometry.distance · goal) s.now := by
    refine Scalar.leastBy?_perm (horder.comp fun e : Entry => e.position.point) hneighbors ?_
    intro e c he hc
    exact hunique e c (nearest_iff.mpr he) (nearest_iff.mpr hc)
  unfold greedy
  dsimp only
  rw [hsame]

end Ordered

/-! ## The selection -/

/-- Greedy forwarding as a choice among all that is offered: it hands the packet to a neighbour at
the least distance if some neighbour is nearer to the goal than the own place, and else keeps it or
broadcasts it by its traffic class and by whether there is any neighbour. -/
structure Selects (f : Forwarder α) (s : Surroundings) (goal : Point) : Prop where
  unicast_iff : (∃ a, f.greedy s goal = .unicast a) ↔ ∃ e, s.Offers e ∧ f.Advances s goal e
  best : ∀ a, f.greedy s goal = .unicast a →
    ∃ e, e.address = a ∧ f.Nearest s goal e ∧ f.Advances s goal e ∧
      ∀ (r : Router α) (o : Outgoing),
        r.dispatch (f.timed (f.greedy s goal)) o = r.send (.unicast e.address.mac) o
  unordered : (∀ e c, f.Nearest s goal e → f.Nearest s goal c → e = c) →
    ∀ stations : AddressMap Entry, s.table.stations.toList.Perm stations.toList →
      f.greedy { s with table := { s.table with stations } } goal = f.greedy s goal
  buffer_iff : f.greedy s goal = .buffer ↔
    (¬∃ e, s.Offers e ∧ f.Advances s goal e) ∧ s.trafficClass.storeCarryForward = true
  bufferBroadcast_iff : f.greedy s goal = .bufferBroadcast ↔
    (¬∃ e, s.Offers e) ∧ s.trafficClass.storeCarryForward = false
  broadcast_iff : f.greedy s goal = .broadcast ↔
    (∃ e, s.Offers e) ∧ (¬∃ e, s.Offers e ∧ f.Advances s goal e) ∧
      s.trafficClass.storeCarryForward = false
  not_defer : ∀ progress, f.greedy s goal ≠ .defer progress
  not_discard : ∀ reason, f.greedy s goal ≠ .discard reason

/-- Whatever the table, the clock, the own place, the goal and the traffic class are, and however
distances are measured, if they are in one total order: greedy forwarding hands the packet to a
neighbour exactly when some neighbour is strictly nearer to the goal than the own place, and then
to one at the least distance of all. -/
theorem greedy_selects (f : Forwarder α) (s : Surroundings) (goal : Point)
    (horder : Scalar.Ranks fun p => f.geometry.distance p goal) : f.Selects s goal := by
  by_cases hadvances : ∃ e, s.Offers e ∧ f.Advances s goal e
  · obtain ⟨e, hleast, hnearer, hgreedy⟩ := greedy_of_advances horder hadvances
    refine ⟨?_, ?_, fun hunique _ hperm => greedy_perm horder hperm hunique, ?_, ?_, ?_, ?_, ?_⟩
    all_goals rw [hgreedy]
    · exact ⟨fun _ => hadvances, fun _ => ⟨_, rfl⟩⟩
    · intro a ha
      exact ⟨e, Plan.unicast.inj ha, hleast, hnearer, fun _ _ => rfl⟩
    · exact ⟨nofun, fun h => absurd hadvances h.1⟩
    · exact ⟨nofun, fun h => absurd ⟨e, hleast.offered⟩ h.1⟩
    · exact ⟨nofun, fun h => absurd hadvances h.2.1⟩
    · exact nofun
    · exact nofun
  · have hgreedy := greedy_of_not_advances hadvances
    refine ⟨?_, ?_, fun hunique _ hperm => greedy_perm horder hperm hunique, ?_, ?_, ?_, ?_, ?_⟩
    -- which of the three it is follows from the traffic class and the neighbours alone
    all_goals
      rw [hgreedy]
      cases s.trafficClass.storeCarryForward <;>
        cases hneighbors : s.table.hasNeighbors s.now <;>
          simp [hadvances, ← hasNeighbors_iff, hneighbors]

end Forwarder

/-! ## On a grid -/

/-- Places on a flat grid, which are as far apart as the way along its lines is long. -/
def gridGeometry : Geometry ℚ where
  distance p q :=
    ((p.latitude.toInt - q.latitude.toInt).natAbs + (p.longitude.toInt - q.longitude.toInt).natAbs :
      Nat)
  relativePosition p area :=
    area.shape.relativePosition
      ((p.longitude.toInt - area.centre.longitude.toInt : Int) : ℚ)
      ((p.latitude.toInt - area.centre.latitude.toInt : Int) : ℚ) area.a.toNat area.b.toNat
  toBoundary p area :=
    (area.a.toNat : ℚ) - (p.longitude.toInt - area.centre.longitude.toInt).natAbs

namespace Forwarder

/-- Greedy forwarding on the grid. -/
def trialGrid : Forwarder ℚ where
  geometry := gridGeometry
  nonArea := .greedy
  area := .simple
  minDelayMillis := 1
  maxDelayMillis := 100
  range := 1000

/-- Where a neighbour stands on the equator. -/
def trialNeighbor (octet : UInt8) (longitude : Int32) : LongPosition where
  address := ⟨0x14, 0, ⟨2, 0, 0, 0, 0, octet⟩⟩
  timestamp := ⟨100000⟩
  point := ⟨0, longitude⟩

/-- A station that knows three neighbours, one behind it and two ahead. -/
def trialSurroundings : Surroundings where
  table :=
    [trialNeighbor 12 (-200), trialNeighbor 13 600, trialNeighbor 14 100].foldl
      (fun t v => (t.update v true ⟨100000⟩).2) (.make {} 20000)
  here := {}
  now := ⟨100000⟩

theorem greedy_selects_of_three :
    (Scalar.Ranks fun p => trialGrid.geometry.distance p ⟨0, 1000⟩) ∧
      trialGrid.Selects trialSurroundings ⟨0, 1000⟩ ∧
      trialGrid.greedy trialSurroundings ⟨0, 1000⟩ = .unicast ⟨0x14, 0, ⟨2, 0, 0, 0, 0, 13⟩⟩ :=
  have horder := Scalar.ranks_rat fun p => trialGrid.geometry.distance p ⟨0, 1000⟩
  ⟨horder, greedy_selects trialGrid trialSurroundings ⟨0, 1000⟩ horder, by decide +kernel⟩

end Forwarder

end Geocast
