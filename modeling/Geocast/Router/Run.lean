import Geocast.Router.Receive
import Geocast.Router.Transmit

/-!
# Running a router

Background work is done by timers: contention timers, the sweep of the table, beacons, and the
steps of lookups. `settle` lets every timer act that is due, `tick` lets a millisecond pass, and
`perform` does what a command says and then settles. A run is a list of commands.
-/

namespace Geocast

namespace Router

variable {α : Type} [Scalar α]

/-- Broadcasts the packets whose contention timers have ended. -/
def fireContention (r : Router α) : Router α :=
  let (live, contention) := r.contention.fire r.now
  { r with contention }.emitParcels live

/-- Sweeps the table, if that is due. -/
def fireSweep (r : Router α) : Router α :=
  if r.sweepDue ≤ r.now then
    { r with
      table := (r.table.purgeStale r.clock).2
      sweepDue := r.sweepDue + r.config.sweepSecs * 1000 }
  else r

/-- When a beacon is due whose interval starts now. -/
def nextBeacon (r : Router α) : Nat :=
  r.now + r.config.beaconIntervalMillis + r.jitter r.beaconRound % (r.config.beaconJitterMillis + 1)

/-- Sends a beacon, if one is due. -/
def fireBeacon (r : Router α) : Router α :=
  if r.config.beaconEnabled ∧ r.beaconDue ≤ r.now then
    let r := r.sendBeacon.2
    { r with beaconDue := r.nextBeacon, beaconRound := r.beaconRound + 1 }
  else r

/-- Lets every loop go on that wakes up, in the order in which they were started. -/
def fireLookups (r : Router α) : Router α := (r.lookups.woken r.now).foldl continueLookup r

/-- Lets every timer act that is due. -/
def settle (r : Router α) : Router α :=
  if r.isRunning then r.fireContention.fireSweep.fireBeacon.fireLookups else r

/-- Lets a millisecond pass. -/
def tick (r : Router α) : Router α := { r with now := r.now + 1 }.settle

/-- Lets so many milliseconds pass. -/
def advance : Nat → Router α → Router α
  | 0, r => r
  | n + 1, r => advance n r.tick

/-- Starts the router and its timers. A router that was stopped cannot be started again. -/
def start (r : Router α) : Except RoutingError Unit × Router α :=
  match r.phase with
  | .created =>
    (.ok (), { r with
      phase := .running
      sweepDue := r.now + r.config.sweepSecs * 1000
      beaconDue := r.nextBeacon
      beaconRound := r.beaconRound + 1 })
  | .running => (.ok (), r)
  | .stopped => (.error .shuttingDown, r)

/-- Stops the router for good: its timers and loops end, its lookups are given up, and what waits is
lost. -/
def stop (r : Router α) : Router α :=
  if r.phase = .stopped then r
  else
    -- no loop is left by the time that the lookups are given up
    let (aborted, lookups) := r.lookups.joinLoops.abortAll
    let r := aborted.foldl (fun r l => r.complete l.waiters (l.report .aborted)) r
    { r with phase := .stopped, lookups, queues := r.queues.clear.2, contention := {} }

/-- The neighbour nearest to a point, with its distance. -/
def nearestNeighbor (r : Router α) (target : Point) : Option (Entry × α) :=
  r.table.nearest? (r.geometry.distance · target) r.clock

/-- What the table knows of a station. -/
def entry (r : Router α) (a : Address) : Option Entry := r.table.find? a r.clock

/-- Logging is not part of a router, so there is no level to set. -/
def setLogLevel (_ : Router α) : Except RoutingError Unit := .error .loggingUnavailable

end Router

/-- What a router can be told to do. -/
inductive Command
  | start
  | stop
  | receive (frame : Bytes)
  | transmit (request : Request)
  | beacon
  | advance (millis : Nat)
  /-- From now on the positioning device reports something else. -/
  | move (position : Nat → Fix)
  | clearStats

/-- What a router answers to a command. -/
inductive Reply
  | done (result : Except RoutingError Unit)
  | received (outcome : ReceiveOutcome)
  | transmitted (result : Except RoutingError TransmitOutcome)

namespace Router

variable {α : Type} [Scalar α]

/-- What a command does at once. -/
def execute (r : Router α) : Command → Reply × Router α
  | .start => let (result, r) := r.start; (.done result, r)
  | .stop => (.done (.ok ()), r.stop)
  | .receive frame => let (outcome, r) := r.receive frame; (.received outcome, r)
  | .transmit request => let (result, r) := r.transmit request; (.transmitted result, r)
  | .beacon => let (result, r) := r.sendBeacon; (.done result, r)
  | .advance millis => (.done (.ok ()), r.advance millis)
  | .move position => (.done (.ok ()), { r with position })
  | .clearStats => (.done (.ok ()), { r with stats := {} })

/-- Does what a command says, and lets timers act that are due by then. -/
def perform (r : Router α) (c : Command) : Reply × Router α :=
  let (reply, r) := r.execute c
  (reply, r.settle)

/-- Does what a list of commands says, one after the other. -/
def run (r : Router α) (commands : List Command) : Router α :=
  commands.foldl (fun r c => (r.perform c).2) r

end Router

end Geocast
