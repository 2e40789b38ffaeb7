import Geocast.Config
import Geocast.Error
import Geocast.Geometry
import Geocast.Location.Table
import Geocast.Packet.Header

/-!
# Forwarding

Where does a packet go next? Greedy forwarding hands it to the neighbour nearest to its goal, if
that neighbour is strictly nearer than the own station. Contention-based forwarding broadcasts it
after a waiting time that falls with the progress made, so that the station that got furthest
relays first. A packet for an area moves to the area by either of the two and then spreads in it.
A plan says what is to happen, with the progress on which a waiting time depends; a decision says
the time itself.
-/

namespace Geocast

/-- What to do with a packet. How long a deferred packet waits is told by a value of any type. -/
inductive Plan (τ : Type)
  /-- Hand it to one neighbour. -/
  | unicast (nextHop : Address)
  /-- Hand it to whoever hears it. -/
  | broadcast
  /-- Keep it until a way to its destination shows. -/
  | buffer
  /-- Keep it until a neighbour shows. -/
  | bufferBroadcast
  /-- Broadcast it after a while, unless another station does so first. -/
  | defer (wait : τ)
  | discard (reason : RoutingError)
deriving DecidableEq, Repr, Inhabited

/-- A plan by which a deferred packet waits for so many nanoseconds. -/
abbrev Decision := Plan Nat

namespace Plan

variable {τ : Type}

/-- The decision that a plan comes to under a rule for waiting times. -/
def timed (wait : τ → Nat) : Plan τ → Decision
  | unicast nextHop => .unicast nextHop
  | broadcast => .broadcast
  | buffer => .buffer
  | bufferBroadcast => .bufferBroadcast
  | defer x => .defer (wait x)
  | discard reason => .discard reason

/-- The decision that a plan comes to, if there is a waiting time for it. -/
def timed? (wait? : τ → Option Nat) : Plan τ → Option Decision
  | defer x => (wait? x).map .defer
  | plan => some (plan.timed fun _ => 0)

/-- Where every waiting time that there is follows a rule, so does every decision. -/
theorem timed_eq_of_timed? {wait : τ → Nat} {wait? : τ → Option Nat}
    (follows : ∀ x n, wait? x = some n → n = wait x) {plan : Plan τ} {d : Decision}
    (h : plan.timed? wait? = some d) : d = plan.timed wait := by
  cases plan with
  | defer x =>
    obtain ⟨n, hn, rfl⟩ := Option.map_eq_some_iff.1 h
    rw [follows x n hn]
    rfl
  | _ => exact (Option.some.inj h).symm

end Plan

/-- What a decision is taken on: the stations known, the own place, the place of the station that
sent the packet, if that is another one, how the packet is to be treated, and the time. -/
structure Surroundings where
  table : LocationTable
  here : Point
  sender : Option Point := none
  trafficClass : TrafficClass := {}
  now : Timestamp

/-- The rules by which a router forwards. -/
structure Forwarder (α : Type) where
  geometry : Geometry α
  nonArea : NonAreaForwarding
  area : AreaForwarding
  minDelayMillis : Nat
  maxDelayMillis : Nat
  range : α

namespace Forwarder

variable {α : Type} [Scalar α]

/-- The rules that a configuration asks for. -/
def ofConfig (geometry : Geometry α) (c : Config α) : Forwarder α where
  geometry := geometry
  nonArea := c.effectiveNonArea
  area := c.effectiveArea
  minDelayMillis := c.minDelayMillis
  maxDelayMillis := c.maxDelayMillis
  range := c.range

/-- Whether the waiting time for some progress lies strictly within its bounds. -/
def interpolates (f : Forwarder α) (progress : α) : Bool :=
  !(Scalar.le progress Scalar.zero || !Scalar.isFinite progress) && !Scalar.le f.range progress

/-- The waiting time in seconds for some progress: the longest without progress, the shortest for
the whole range of communication, and in proportion between the two. -/
def delaySeconds (f : Forwarder α) (progress : α) : α :=
  let lower := Scalar.seconds f.minDelayMillis
  let upper := Scalar.seconds f.maxDelayMillis
  if Scalar.le progress Scalar.zero || !Scalar.isFinite progress then upper
  else if Scalar.le f.range progress then lower
  else Scalar.clamp (upper + (lower - upper) * progress / f.range) lower upper

/-- The waiting time in nanoseconds for some progress. -/
def delay (f : Forwarder α) (progress : α) : Nat :=
  if Scalar.le progress Scalar.zero || !Scalar.isFinite progress then f.maxDelayMillis * 1000000
  else if Scalar.le f.range progress then f.minDelayMillis * 1000000
  else Scalar.nanos (f.delaySeconds progress)

/-- Whether there is a waiting time for some progress: what lies between two bounds is undefined
where they are crossed, and where it is no number itself. -/
def hasDelay (f : Forwarder α) (progress : α) : Bool :=
  !f.interpolates progress ||
    (Scalar.le (Scalar.seconds f.minDelayMillis : α) (Scalar.seconds f.maxDelayMillis) &&
      Scalar.isNumber (f.delaySeconds progress))

/-- The waiting time for some progress, if there is one. -/
def delay? (f : Forwarder α) (progress : α) : Option Nat :=
  if f.hasDelay progress then some (f.delay progress) else none

/-- A waiting time that there is follows the rule for all. -/
theorem delay_of_delay? (f : Forwarder α) (progress : α) (n : Nat)
    (h : f.delay? progress = some n) : n = f.delay progress := by
  unfold delay? at h
  split at h
  · exact (Option.some.inj h).symm
  · exact absurd h (by simp)

/-- Greedy forwarding: to the neighbour nearest to the goal, if that is nearer than the own
place. A packet that no neighbour brings nearer waits if its class says so, or if there is no
neighbour at all. -/
def greedy (f : Forwarder α) (s : Surroundings) (goal : Point) : Plan α :=
  match s.table.nearest? (f.geometry.distance · goal) s.now with
  | some (e, distance) =>
    if Scalar.lt distance (f.geometry.distance s.here goal) then .unicast e.address
    else if s.trafficClass.storeCarryForward then .buffer
    else .broadcast
  | none => if s.trafficClass.storeCarryForward then .buffer else .bufferBroadcast

/-- Contention-based forwarding: how long a station waits follows from how far it brings a packet
forward. An own packet goes out at once. -/
def contend (f : Forwarder α) (s : Surroundings) (goal : Point) : Plan α :=
  match s.sender with
  | none => .broadcast
  | some sender =>
    .defer (f.geometry.distance sender goal - f.geometry.distance s.here goal)

/-- Forwarding towards a point. -/
def toward (f : Forwarder α) (s : Surroundings) (goal : Point) : Plan α :=
  match f.nonArea with
  | .greedy => f.greedy s goal
  | .contention => f.contend s goal

/-- Forwarding within an area: a station near the edge relays sooner than one in the middle. -/
def within (f : Forwarder α) (s : Surroundings) (area : Area) : Plan α :=
  if f.area = .contention ∧ s.sender.isSome then
    let toEdge := Scalar.max (f.geometry.toBoundary s.here area) Scalar.zero
    .defer (f.range - toEdge)
  else .broadcast

/-- Forwarding of a packet for an area. Outside the area, a packet that was already inside is
not carried further. -/
def into (f : Forwarder α) (s : Surroundings) (area : Area) : Plan α :=
  if (f.geometry.relativePosition s.here area).isWithin then f.within s area
  else if s.sender.any fun p => (f.geometry.relativePosition p area).isWithin then
    .discard .senderInsideArea
  else f.toward s area.centre

/-- The decision that a plan comes to. -/
def timed (f : Forwarder α) (plan : Plan α) : Decision := plan.timed f.delay

/-- The decision that a plan comes to, if it does not wait for an undefined time. -/
def timed? (f : Forwarder α) (plan : Plan α) : Option Decision := plan.timed? f.delay?

/-- What is decided, if anything, is what the rule for waiting times says. -/
theorem timed_of_timed? {f : Forwarder α} {plan : Plan α} {d : Decision}
    (h : f.timed? plan = some d) : d = f.timed plan :=
  Plan.timed_eq_of_timed? f.delay_of_delay? h

end Forwarder

end Geocast
