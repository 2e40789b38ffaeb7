import Geocast.Circular
import Geocast.Queue.Heap
import Geocast.Queue.Parcel

/-!
# Contention timers

A packet that is relayed by contention waits on a timer under the address of its source and its
number. When the timer ends, the packet is due; a copy overheard before that takes it off. The
timers are kept in the order in which they end, those that end together in the order in which
they were started.

A row in that order is one way to keep them (`ContentionQueue`). The timers that run on a clock of
their own are on a heap (`ContentionHeap`): the greatest item there is the packet that is due
first, and each packet has the turn at which its timer was started, which decides between those
that are due together.
-/

namespace Geocast

/-- What tells packets on timers apart: source and number. -/
abbrev ContentionKey := Address × SequenceNumber

/-- A packet on a timer, which ends at a time in nanoseconds. -/
structure Contender where
  deadline : Nat
  key : ContentionKey
  parcel : Parcel
deriving DecidableEq, Repr, Inhabited

/-- The packets on timers. -/
structure ContentionQueue where
  contenders : List Contender := []
deriving DecidableEq, Repr, Inhabited

namespace ContentionQueue

/-- The nanoseconds of a millisecond. -/
def nanosPerMilli : Nat := 1000000

/-- Puts a packet behind all that are due no later. -/
def insert (c : Contender) : List Contender → List Contender
  | [] => [c]
  | d :: ds => if d.deadline ≤ c.deadline then d :: insert c ds else c :: d :: ds

/-- Whether a packet is on a timer. -/
def contains (q : ContentionQueue) (key : ContentionKey) : Bool :=
  q.contenders.any (·.key = key)

/-- The number of packets on timers. -/
def size (q : ContentionQueue) : Nat := q.contenders.length

/-- Whether no packet is on a timer. -/
def isEmpty (q : ContentionQueue) : Bool := q.contenders.isEmpty

/-- Starts a timer of so many nanoseconds at a time in milliseconds, unless one is running for
the same packet, and says whether it did. -/
def schedule (q : ContentionQueue) (key : ContentionKey) (p : Parcel) (timeout now : Nat) :
    Bool × ContentionQueue :=
  if q.contains key then (false, q)
  else (true, ⟨insert ⟨now * nanosPerMilli + timeout, key, p⟩ q.contenders⟩)

/-- Takes a packet off its timer, and says whether it was on one. -/
def cancel (q : ContentionQueue) (key : ContentionKey) : Bool × ContentionQueue :=
  (q.contains key, ⟨q.contenders.filter fun c => !decide (c.key = key)⟩)

/-- Whether a timer has ended at a time in milliseconds. -/
def isDue (now : Nat) (c : Contender) : Bool := c.deadline ≤ now * nanosPerMilli

/-- Takes out the packets whose timers have ended, in the order in which they ended. -/
def takeDue (q : ContentionQueue) (now : Nat) : List Contender × ContentionQueue :=
  (q.contenders.filter (isDue now), ⟨q.contenders.filter fun c => !isDue now c⟩)

/-- Takes out the packets whose timers have ended, less those whose lifetime has passed. -/
def fire (q : ContentionQueue) (now : Nat) : List Parcel × ContentionQueue :=
  let (due, rest) := q.takeDue now
  ((due.map Contender.parcel).filter fun p => !p.isExpired now, rest)

end ContentionQueue

/-- A packet on a timer that was started at a turn. -/
structure Entrant extends Contender where
  turn : Nat
deriving DecidableEq, Repr, Inhabited

/-- Turned round, so that the greatest is the one that is due first. -/
instance : Ord Entrant where
  compare x y := (compare y.deadline x.deadline).then (compare y.turn x.turn)

/-- The packets on timers, the first that is due on top. -/
structure ContentionHeap where
  heap : Heap Entrant := {}
  /-- How many timers were started. -/
  turns : Nat := 0
deriving Repr, Inhabited

namespace ContentionHeap

open ContentionQueue (nanosPerMilli isDue)

/-- Whether a packet is on a timer. -/
def contains (q : ContentionHeap) (key : ContentionKey) : Bool :=
  q.heap.items.any (·.key = key)

/-- The number of packets on timers. -/
def size (q : ContentionHeap) : Nat := q.heap.size

/-- Whether no packet is on a timer. -/
def isEmpty (q : ContentionHeap) : Bool := q.heap.isEmpty

/-- Starts a timer of so many nanoseconds at a time in milliseconds, unless one is running for
the same packet, and says whether it did. -/
def schedule (q : ContentionHeap) (key : ContentionKey) (p : Parcel) (timeout now : Nat) :
    Bool × ContentionHeap :=
  if q.contains key then (false, q)
  else
    let deadline := now * nanosPerMilli + timeout
    (true, ⟨q.heap.push { deadline, key, parcel := p, turn := q.turns }, q.turns + 1⟩)

/-- Takes a packet off its timer, and says whether it was on one. -/
def cancel (q : ContentionHeap) (key : ContentionKey) : Bool × ContentionHeap :=
  let rest := q.heap.retain fun x => !decide (x.key = key)
  (decide (rest.size < q.heap.size), { q with heap := rest })

/-- Takes all packets off their timers, and says how many these were. -/
def clear (q : ContentionHeap) : Nat × ContentionHeap := (q.heap.size, { q with heap := {} })

/-- Takes out the packets whose timers have ended, in the order in which they ended. -/
def takeDue (q : ContentionHeap) (now : Nat) : List Entrant × ContentionHeap :=
  let (due, rest) := q.heap.popWhile fun x => isDue now x.toContender
  (due, { q with heap := rest })

/-- Takes out the packets whose timers have ended, less those whose lifetime has passed. -/
def fire (q : ContentionHeap) (now : Nat) : List Parcel × ContentionHeap :=
  let (due, rest) := q.takeDue now
  ((due.map fun x => x.parcel).filter fun p => !p.isExpired now, rest)

end ContentionHeap

/-- Contention timers that run on a clock of their own and keep a record of what they sent. -/
structure ContentionTimer where
  queue : ContentionHeap := {}
  now : Nat := 0
  running : Bool := true
  /-- The frames sent and when, oldest first. -/
  sent : List (Nat × Parcel) := []
  /-- How many frames went out together, each time that any did. -/
  batches : List Nat := []
deriving Inhabited

namespace ContentionTimer

/-- Sends what is due, while the timers run. -/
def settle (t : ContentionTimer) : ContentionTimer :=
  if t.running then
    let (live, queue) := t.queue.fire t.now
    { t with
      queue
      sent := t.sent ++ live.map (t.now, ·)
      batches := if live.isEmpty then t.batches else t.batches ++ [live.length] }
  else t

/-- Lets so many milliseconds pass. -/
def advance : Nat → ContentionTimer → ContentionTimer
  | 0, t => t
  | n + 1, t => advance n { t with now := t.now + 1 }.settle

end ContentionTimer

end Geocast
