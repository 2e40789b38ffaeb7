import Geocast.Router.Release

/-!
# Searching for stations

A packet for a station whose place is unknown starts a lookup: a request is broadcast at once and
again after every retransmission interval, up to the configured number. One interval after the
last request the lookup expires, and what waited for it is lost. The station asked for answers
with a packet of its own, and any packet from it resolves the lookup.

The requests are sent by a loop for each lookup. It looks at its lookup whenever it wakes up, as the
lookup may have ended in the meantime, and another one for the same station may have begun.
-/

namespace Geocast.Router

variable {α : Type} [Scalar α]

/-- The lifetime of packets that were not given one. -/
def defaultLifetime (r : Router α) : Lifetime := .ofMillis r.config.packetLifetimeMillis

/-- Broadcasts a request for the position of a station. -/
def sendLocationRequest (r : Router α) (target : Address) : Router α :=
  let header : LocationRequestHeader :=
    { sequence := r.sequence, source := r.localPosition, requested := target }
  let p := r.originate .locationRequest (.locationRequest header) rfl r.defaultLifetime
    r.config.hopLimit .any {} [] (Nat.zero_le _)
  ((r.number p).emit .broadcast p.encode .link (r.originNow p)).count fun s =>
    { s with requestsSent := s.requestsSent + 1 }

/-- Answers a request for the own position. -/
def sendLocationReply (r : Router α) (requester : LongPosition) :
    Except RoutingError TransmitOutcome × Router α :=
  let source := r.localPosition
  let header : UnicastHeader :=
    { sequence := r.sequence, source, destination := requester.toShort }
  let p := r.originate .locationReply (.unicast header) rfl r.defaultLifetime
    r.config.hopLimit .any {} [] (Nat.zero_le _)
  let decision := r.forwarder.timed <|
    r.forwarder.toward (r.surroundings source.point none {}) requester.point
  (r.number p).dispatch decision (.ofPacket p .link (some requester.address) (r.originNow p))

/-- Gives up a lookup that began while the router stopped, and with it what waits for it. -/
def abortLookup (r : Router α) (target : Address) : Router α :=
  let r := match r.lookups.finish? target .aborted with
    | none => r
    | some (l, lookups) => ({ r with lookups } : Router α).complete l.waiters (l.report .aborted)
  { r with queues := (r.queues.flush .lookup (some target) true r.now).2 }

/-- Starts a lookup, unless one is in flight, and its loop, which sends the first request at once.
A router that has stopped since it took the packet gives the lookup up again. -/
def startLookup (r : Router α) (target : Address) : Except RoutingError Unit × Router α :=
  match r.lookups.begin? target with
  | none => (.ok (), r)
  | some (l, lookups) =>
    match r.refusal? with
    -- no loop was started for it, and no placeholder put in
    | some e => (.error e, ({ r with lookups } : Router α).abortLookup target)
    | none => (.ok (), { r with
        lookups := lookups.spawn l.key r.now
        table := (r.table.insertPending target r.clock).2 })

/-- Gives up a lookup, and with it what waited for it. -/
def expireLookup (r : Router α) (target : Address) : Router α :=
  match r.lookups.finish? target .timedOut with
  | none => r
  | some (l, lookups) =>
    let (flushed, queues) := r.queues.flush .lookup (some target) true r.now
    let r := { r with lookups, queues, table := r.table.cancelPending target }
    (r.complete l.waiters (l.report .timedOut)).count fun s => { s with
      lookupsExpired := s.lookupsExpired + 1
      packetsDropped := s.packetsDropped + flushed.purged }

/-- Ends a lookup with success, if one is in flight for a station that was heard of. -/
def resolveLookup (r : Router α) (target : Address) : Router α :=
  match r.lookups.finish? target .resolved with
  | none => r
  | some (l, lookups) =>
    let r := ({ r with lookups }.complete l.waiters (l.report .resolved)).count fun s =>
      { s with lookupsResolved := s.lookupsResolved + 1 }
    r.flushLookup target

/-- Lets a loop that woke up go on: it sends another request, or gives its lookup up after the last
one. A loop whose lookup has ended does nothing but end. -/
def continueLookup (r : Router α) (key : LookupKey) : Router α :=
  if r.lookups.isComplete key then
    { r with lookups := (r.lookups.takeNotice key).endLoop key }
  else if r.lookups.requestsSent key < r.config.maxRequests then
    let r := r.sendLocationRequest key.target
    { r with lookups :=
        (r.lookups.recordRequest key).sleep key (r.now + r.config.retransmitMillis) }
  else
    -- what is given up is whatever lookup is in flight for the station
    let r := r.expireLookup key.target
    { r with lookups := r.lookups.endLoop key }

end Geocast.Router
