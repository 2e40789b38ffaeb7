import Geocast.Proofs.Router.Steps
import Geocast.Proofs.Scalar
import Mathlib.Data.Finset.Card

/-!
# Greedy forwarding comes nearer with every hop

Stations stand at fixed places, and every router knows its neighbours where they are. Then the
station that a greedy decision names is nearer to the goal than the one that decides, so a packet
that is handed on by such decisions visits no station twice. Nothing is asked of how neighbours
are ranked: only the last comparison, with the own distance, carries the argument.
-/

namespace Geocast

/-- A greedy decision names a neighbour that the table knows nearer to the goal. -/
theorem Forwarder.nearer_of_greedy {α : Type} [Scalar α] {f : Forwarder α} {s : Surroundings}
    {goal : Point} {next : Address} (h : f.greedy s goal = .unicast next) :
    ∃ e ∈ s.table.neighbors s.now, e.address = next ∧
      Scalar.lt (f.geometry.distance e.position.point goal) (f.geometry.distance s.here goal) =
        true := by
  unfold greedy at h
  cases hnearest : s.table.nearest? (f.geometry.distance · goal) s.now with
  | none =>
    rw [hnearest] at h
    dsimp only at h
    split at h <;> exact nomatch h
  | some found =>
    obtain ⟨e, distance⟩ := found
    obtain ⟨hmem, rfl⟩ := Scalar.mem_of_leastBy? hnearest
    rw [hnearest] at h
    dsimp only at h
    by_cases hnearer : Scalar.lt (f.geometry.distance e.position.point goal)
        (f.geometry.distance s.here goal) = true
    · rw [if_pos hnearer] at h
      exact ⟨e, hmem, Plan.unicast.inj h, hnearer⟩
    · rw [if_neg hnearer] at h
      split at h <;> exact nomatch h

/-- Finitely many stations at fixed places, and a way to measure how far apart places are. -/
structure Network (α : Type) where
  stations : Finset Address
  place : Address → Point
  distance : Point → Point → α

namespace Network

variable {α : Type} [Scalar α]

/-- Whether one station is strictly nearer to a goal than another one. -/
def nearer (n : Network α) (goal : Point) (a b : Address) : Bool :=
  Scalar.lt (n.distance (n.place a) goal) (n.distance (n.place b) goal)

/-- The distances of the stations from a goal are strictly ordered. -/
structure Ordered (n : Network α) (goal : Point) : Prop where
  irrefl : ∀ a ∈ n.stations, n.nearer goal a a = false
  trans : ∀ a ∈ n.stations, ∀ b ∈ n.stations, ∀ c ∈ n.stations,
    n.nearer goal a b = true → n.nearer goal b c = true → n.nearer goal a c = true

/-- A router at some moment is one of the network: it stands at its place, measures as the network
does, and knows its neighbours where they are. -/
structure Hosts (n : Network α) (r : Router α) : Prop where
  member : r.config.address ∈ n.stations
  here : r.here = n.place r.config.address
  measure : r.geometry.distance = n.distance
  neighbors : ∀ e ∈ r.table.neighbors r.clock, e.position.point = n.place e.address

end Network

namespace Router

variable {α : Type} [Scalar α]

/-- One router decides greedily to hand a packet for a goal to another one. Who sent the packet,
and how it is to be treated, are left open. -/
def HandsTo (goal : Point) (r s : Router α) : Prop :=
  ∃ sender trafficClass,
    r.forwarder.greedy (r.surroundings r.here sender trafficClass) goal = .unicast s.config.address

end Router

namespace Network

variable {α : Type} [Scalar α] {n : Network α} {goal : Point}

/-- One hop comes nearer. -/
theorem nearer_of_handsTo {r s : Router α} (hr : n.Hosts r) (h : r.HandsTo goal s) :
    n.nearer goal s.config.address r.config.address = true := by
  obtain ⟨sender, trafficClass, hgreedy⟩ := h
  obtain ⟨e, hmem, haddress, hnearer⟩ := Forwarder.nearer_of_greedy hgreedy
  have hplace : e.position.point = n.place s.config.address := by
    rw [hr.neighbors e hmem, haddress]
  have hmeasure : r.forwarder.geometry.distance = n.distance := hr.measure
  have hhere : (r.surroundings r.here sender trafficClass).here = n.place r.config.address :=
    hr.here
  rw [hmeasure, hplace, hhere] at hnearer
  exact hnearer

/-- By induction on the route: what comes later is nearer than all that came before. -/
theorem pairwise_nearer (horder : n.Ordered goal) {route : List (Router α)}
    (hhosts : ∀ r ∈ route, n.Hosts r) (hchain : route.IsChain (Router.HandsTo goal)) :
    route.Pairwise fun r s => n.nearer goal s.config.address r.config.address = true := by
  induction route with
  | nil => exact .nil
  | cons r rest ih =>
    have hrest : ∀ s ∈ rest, n.Hosts s := fun s hs => hhosts s (List.mem_cons_of_mem _ hs)
    have hpairwise := ih hrest hchain.of_cons
    refine List.pairwise_cons.mpr ⟨fun s hs => ?_, hpairwise⟩
    have hr : n.Hosts r := hhosts r List.mem_cons_self
    cases rest with
    | nil => exact nomatch hs
    | cons next later =>
      have hhop := nearer_of_handsTo hr (List.isChain_cons_cons.mp hchain).1
      rcases List.mem_cons.mp hs with rfl | hlater
      · exact hhop
      · -- through the next router
        have hfurther := (List.pairwise_cons.mp hpairwise).1 s hlater
        have hnext := hrest next List.mem_cons_self
        exact horder.trans _ (hrest s hs).member _ hnext.member _ hr.member hfurther hhop

/-- A route of greedy decisions visits no station twice, so it has at most as many hops as there
are stations, and it comes nearer to the goal all the way. -/
theorem route_descends (horder : n.Ordered goal) {route : List (Router α)}
    (hhosts : ∀ r ∈ route, n.Hosts r) (hchain : route.IsChain (Router.HandsTo goal)) :
    (route.map (·.config.address)).Nodup ∧ route.length ≤ n.stations.card ∧
      (route.map (·.config.address)).Pairwise fun a b => n.nearer goal b a = true := by
  have hdescends : (route.map (·.config.address)).Pairwise fun a b => n.nearer goal b a = true :=
    List.pairwise_map.mpr (pairwise_nearer horder hhosts hchain)
  have hstations : ∀ a ∈ route.map (·.config.address), a ∈ n.stations := by
    intro a ha
    obtain ⟨r, hr, rfl⟩ := List.mem_map.mp ha
    exact (hhosts r hr).member
  have hnodup : (route.map (·.config.address)).Nodup := by
    refine hdescends.imp_of_mem fun {a b} ha _ hnearer hsame => ?_
    rw [hsame, horder.irrefl b (hsame ▸ hstations a ha)] at hnearer
    exact nomatch hnearer
  refine ⟨hnodup, ?_, hdescends⟩
  have hsubset : (route.map (·.config.address)).toFinset ⊆ n.stations := by
    intro a ha
    exact hstations a (List.mem_toFinset.mp ha)
  have hcard := Finset.card_le_card hsubset
  rwa [List.toFinset_card_of_nodup hnodup, List.length_map] at hcard

/-! ## Three stations in a row -/

/-- Three stations on the equator, at the longitude that the last octet of their address gives. -/
def trialRow : Network Float where
  stations := {Router.trialStation 10, Router.trialStation 11, Router.trialStation 12}
  place a := ⟨0, Int32.ofNat a.mac.f.toNat⟩
  distance := Router.trialGeometry.distance

/-- One of them once it has heard the beacons of some others. -/
def trialInRow (octet : UInt8) (heard : List UInt8) : Router Float :=
  let config := { Router.trialConfig with address := Router.trialStation octet }
  let start : Router Float :=
    { Router.trialStarted Router.trialGeometry config with
      position := fun _ => { point := ⟨0, Int32.ofNat octet.toNat⟩ } }
  heard.foldl (fun r other =>
    (r.receive (Router.trialBeacon other 100000 (Int32.ofNat other.toNat)).encode).2) start

/-- A packet for a place beyond the last of them goes along the row, although the second one also
knows the first and the last one knows both. -/
theorem route_descends_in_row :
    let route := [trialInRow 10 [11], trialInRow 11 [10, 12], trialInRow 12 [10, 11]]
    let goal : Point := ⟨0, 20⟩
    trialRow.Ordered goal ∧ (∀ r ∈ route, trialRow.Hosts r) ∧
      route.IsChain (Router.HandsTo goal) ∧
      (route.map (·.config.address)).Nodup ∧ route.length ≤ trialRow.stations.card ∧
      (route.map (·.config.address)).Pairwise fun a b => trialRow.nearer goal b a = true := by
  intro route goal
  have horder : trialRow.Ordered goal := ⟨by decide +kernel, by decide +kernel⟩
  have hhosts : ∀ r ∈ route, trialRow.Hosts r := by
    intro r hr
    have hmember : ∀ r ∈ route, r.config.address ∈ trialRow.stations ∧
        r.here = trialRow.place r.config.address ∧
        ∀ e ∈ r.table.neighbors r.clock, e.position.point = trialRow.place e.address := by
      decide +kernel
    have hmeasure : r.geometry.distance = trialRow.distance := by
      simp only [route, List.mem_cons, List.not_mem_nil, or_false] at hr
      rcases hr with rfl | rfl | rfl <;> rfl
    exact ⟨(hmember r hr).1, (hmember r hr).2.1, hmeasure, (hmember r hr).2.2⟩
  have hchain : route.IsChain (Router.HandsTo goal) := by
    refine .cons_cons ⟨none, {}, ?_⟩ (.cons_cons ⟨none, {}, ?_⟩ (.singleton _))
    · decide +kernel
    · decide +kernel
  exact ⟨horder, hhosts, hchain, route_descends horder hhosts hchain⟩

end Network

end Geocast
