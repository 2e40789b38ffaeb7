import Geocast.Address
import Geocast.Number.Text
import Geocast.Scalar

/-!
# Configuration

A configuration is a record of settings with defaults; `fault?` is the first reason why a router
cannot run with it. The range of communication is measured in the numbers of the geometry.
-/

namespace Geocast

/-- How a packet moves towards a place. -/
inductive NonAreaForwarding
  /-- To the neighbour that is nearest to the place. -/
  | greedy
  /-- By the station whose waiting time ends first. -/
  | contention
deriving DecidableEq, Repr, Inhabited

/-- How a packet spreads within its area. -/
inductive AreaForwarding
  /-- By every station at once. -/
  | simple
  /-- By the stations whose waiting time ends first. -/
  | contention
deriving DecidableEq, Repr, Inhabited

/-- The settings of a router. An algorithm that is not known is `none`. -/
structure Config (α : Type) where
  address : Address := {}
  mobile : Bool := true
  tableLifetimeSecs : Nat := 20
  maxRequests : Nat := 10
  retransmitMillis : Nat := 1000
  hopLimit : UInt8 := 10
  packetLifetimeSecs : Nat := 60
  minDelayMillis : Nat := 1
  maxDelayMillis : Nat := 100
  range : α
  beaconEnabled : Bool := true
  beaconIntervalMillis : Nat := 3000
  beaconJitterMillis : Nat := 750
  sweepIntervalSecs : Nat := 10
  broadcastCapacity : Nat := 64
  unicastCapacity : Nat := 16
  lookupCapacity : Nat := 16
  nonArea : Option NonAreaForwarding := some .greedy
  area : Option AreaForwarding := some .simple
deriving BEq

/-- Why a configuration cannot be used. -/
inductive ConfigError (α : Type)
  /-- The text is no configuration. -/
  | unreadable
  | delaysCrossed (min max : Nat)
  | emptyQueue
  | invalidRange (range : α)
  | noHops
  | noRetransmit
deriving DecidableEq, Repr

/-- The text of a configuration error. -/
def ConfigError.message (e : ConfigError Float) : String :=
  "Configuration error: " ++ match e with
    | unreadable => "Failed to parse configuration"
    | delaysCrossed min max => s!"CBF min time {min}ms exceeds max time {max}ms"
    | emptyQueue => "Queue capacities must be non-zero"
    | invalidRange range => "Invalid max communication range: " ++ Number.plain range
    | noHops => "Default hop limit must be non-zero"
    | noRetransmit => "Location service retransmit timer must be non-zero"

namespace Config

variable {α : Type} [Scalar α]

/-- The settings that are used unless others are given. -/
def standard : Config α := { range := Scalar.ofNat 1000 }

/-- The first reason why a router cannot run with a configuration. -/
def fault? (c : Config α) : Option (ConfigError α) :=
  if c.maxDelayMillis < c.minDelayMillis then
    some (.delaysCrossed c.minDelayMillis c.maxDelayMillis)
  else if c.broadcastCapacity = 0 ∨ c.unicastCapacity = 0 ∨ c.lookupCapacity = 0 then
    some .emptyQueue
  else if !Scalar.lt Scalar.zero c.range then some (.invalidRange c.range)
  else if c.hopLimit = 0 then some .noHops
  else if c.retransmitMillis = 0 then some .noRetransmit
  else none

/-- The time between two sweeps of the table: at least a second. -/
def sweepSecs (c : Config α) : Nat := max c.sweepIntervalSecs 1

/-- The lifetime of table entries in milliseconds. -/
def tableLifetimeMillis (c : Config α) : Nat := c.tableLifetimeSecs * 1000

/-- The lifetime of packets that were not given one, in milliseconds. -/
def packetLifetimeMillis (c : Config α) : Nat := c.packetLifetimeSecs * 1000

/-- How packets move towards a place; greedily where the configured way is not known. -/
def effectiveNonArea (c : Config α) : NonAreaForwarding := c.nonArea.getD .greedy

/-- How packets spread within an area; simply where the configured way is not known. -/
def effectiveArea (c : Config α) : AreaForwarding := c.area.getD .simple

end Config

end Geocast
