import Geocast.AddressMap
import Geocast.Error

/-!
# Lookups

While the position of a station is being asked for, there is one lookup for it. Transmissions
wait on a lookup and learn its outcome when it ends; a lookup ends once, because the station was
heard of, because nobody answered, or because the router stops. The requests of a lookup are sent
by a loop of its own, which sleeps most of the time. A loop knows its lookup by the `LookupKey`,
since it may still sleep when its lookup has ended and another one asks for the same station.
-/

namespace Geocast

/-- How a lookup ended. -/
inductive LookupOutcome
  | resolved | timedOut | aborted
deriving DecidableEq, Repr, Inhabited

/-- By what a lookup is told apart from all others, also from earlier and later ones for the same
station. -/
structure LookupKey where
  target : Address
  number : Nat
deriving DecidableEq, Repr, Inhabited

/-- A search for the position of a station. -/
structure Lookup where
  target : Address
  /-- How many lookups were started before it. -/
  number : Nat := 0
  /-- The requests sent so far. -/
  requests : Nat := 0
  /-- The transmissions that wait for the outcome. -/
  waiters : List Nat := []
  outcome : Option LookupOutcome := none
  /-- A notice of the end that nobody has taken yet. -/
  notice : Bool := false
deriving DecidableEq, Repr, Inhabited

namespace Lookup

/-- By what a lookup is known to its loop. -/
def key (l : Lookup) : LookupKey := ⟨l.target, l.number⟩

/-- Whether a lookup has ended. -/
def isComplete (l : Lookup) : Bool := l.outcome.isSome

/-- A lookup that has just ended. -/
def finished (l : Lookup) (outcome : LookupOutcome) : Lookup :=
  { l with waiters := [], outcome := some outcome, notice := true }

/-- What a waiting transmission is told when a lookup ends. -/
def report (l : Lookup) : LookupOutcome → Except RoutingError Unit
  | .resolved => .ok ()
  | .timedOut => .error (.lookupTimeout l.target)
  | .aborted => .error .shuttingDown

end Lookup

/-- The loop that sends the requests of a lookup. -/
structure RetryLoop where
  key : LookupKey
  /-- When it wakes up, if it gets no notice before. -/
  due : Nat
deriving DecidableEq, Repr, Inhabited

/-- The lookups in flight, those that ended, latest first, and the loops that have not ended, in the
order in which they were started. -/
structure LookupService where
  inFlight : AddressMap Lookup := .empty
  ended : List Lookup := []
  /-- The number of lookups started so far. -/
  started : Nat := 0
  loops : List RetryLoop := []
deriving Inhabited

namespace LookupService

/-- Starts a lookup, unless one is in flight for the station. -/
def begin? (s : LookupService) (a : Address) : Option (Lookup × LookupService) :=
  if s.inFlight.contains a then none
  else
    let l : Lookup := { target := a, number := s.started }
    some (l, { s with inFlight := s.inFlight.insert a l, started := s.started + 1 })

/-- Whether a lookup for a station is in flight. -/
def isPending (s : LookupService) (a : Address) : Bool := s.inFlight.contains a

/-- Lets a transmission wait on the lookup in flight, if there is one. -/
def subscribe? (s : LookupService) (a : Address) (waiter : Nat) : Option LookupService :=
  (s.inFlight.get? a).map fun l =>
    { s with inFlight := s.inFlight.insert a { l with waiters := l.waiters ++ [waiter] } }

/-- Ends the lookup in flight, if there is one, and gives it back as it was with its waiters. -/
def finish? (s : LookupService) (a : Address) (outcome : LookupOutcome) :
    Option (Lookup × LookupService) :=
  (s.inFlight.get? a).map fun l =>
    (l, { s with inFlight := s.inFlight.erase a, ended := l.finished outcome :: s.ended })

/-- Ends all lookups in flight, and gives them back in the order in which they were started. -/
def abortAll (s : LookupService) : List Lookup × LookupService :=
  let lookups := s.inFlight.values
  -- loops stay, and find their lookups ended
  (lookups, { s with
    inFlight := .empty
    ended := (lookups.map (·.finished .aborted)).reverse ++ s.ended })

/-- The number of lookups in flight. -/
def size (s : LookupService) : Nat := s.inFlight.size

/-- Whether no lookup is in flight. -/
def isEmpty (s : LookupService) : Bool := s.inFlight.isEmpty

/-! ## What a loop sees of its lookup -/

/-- The lookup of a key, if it is in flight. -/
def flying? (s : LookupService) (key : LookupKey) : Option Lookup :=
  (s.inFlight.get? key.target).filter (·.number = key.number)

/-- The lookup of a key, in flight or ended. -/
def find? (s : LookupService) (key : LookupKey) : Option Lookup :=
  (s.flying? key).or (s.ended.find? (·.key = key))

/-- Whether the lookup of a key has ended. -/
def isComplete (s : LookupService) (key : LookupKey) : Bool := (s.find? key).all Lookup.isComplete

/-- The requests sent so far for the lookup of a key. -/
def requestsSent (s : LookupService) (key : LookupKey) : Nat := (s.find? key).elim 0 Lookup.requests

/-- Changes the lookup of a key, in flight or ended. -/
def modify (s : LookupService) (key : LookupKey) (f : Lookup → Lookup) : LookupService :=
  match s.flying? key with
  | some l => { s with inFlight := s.inFlight.insert key.target (f l) }
  | none => { s with ended := s.ended.map fun l => if l.key = key then f l else l }

/-- Takes note of a request sent for the lookup of a key. -/
def recordRequest (s : LookupService) (key : LookupKey) : LookupService :=
  s.modify key fun l => { l with requests := l.requests + 1 }

/-- Takes the notice of the end of the lookup of a key. -/
def takeNotice (s : LookupService) (key : LookupKey) : LookupService :=
  s.modify key fun l => { l with notice := false }

/-! ## Loops -/

/-- Starts the loop of a lookup, which wakes up at a given time. -/
def spawn (s : LookupService) (key : LookupKey) (due : Nat) : LookupService :=
  { s with loops := s.loops ++ [⟨key, due⟩] }

/-- Sends a loop to sleep until a given time. -/
def sleep (s : LookupService) (key : LookupKey) (due : Nat) : LookupService :=
  { s with loops := s.loops.map fun loop => if loop.key = key then { loop with due } else loop }

/-- Ends a loop. -/
def endLoop (s : LookupService) (key : LookupKey) : LookupService :=
  { s with loops := s.loops.filter (·.key ≠ key) }

/-- Ends all loops. -/
def joinLoops (s : LookupService) : LookupService := { s with loops := [] }

/-- Whether a loop wakes up: because its time has come, or because its lookup has ended. -/
def wakes (s : LookupService) (now : Nat) (loop : RetryLoop) : Bool :=
  loop.due ≤ now || (s.find? loop.key).any Lookup.notice

/-- The lookups whose loops wake up, in the order in which they were started. -/
def woken (s : LookupService) (now : Nat) : List LookupKey :=
  (s.loops.filter (s.wakes now)).map RetryLoop.key

end LookupService

end Geocast
