import Geocast.Address

/-!
# Frames that wait

A parcel is a frame that waits in a queue: where it will be handed out, since when it waits and
how long it may. It remembers the packet as it was when the router took it over; nothing in
forwarding looks at that, it says which packet a frame carries.
-/

namespace Geocast

/-- Where a frame leaves the router: by the common link, or the way that one request asked
for. -/
inductive Outlet
  | link
  | own (request : Nat)
deriving DecidableEq, Repr, Inhabited

/-- A packet as it was when the router took it over, and when that was. -/
structure Origin where
  time : Nat := 0
  /-- How many frames had come in by then. -/
  arrival : Nat := 0
  frame : Bytes := []
  /-- The handle of the transmission that waits for the packet to be released. -/
  handle : Option Nat := none
deriving DecidableEq, Repr, Inhabited

/-- A frame that waits. Times are in milliseconds. -/
structure Parcel where
  frame : Bytes
  outlet : Outlet := .link
  enqueuedAt : Nat := 0
  lifetime : Nat
  origin : Origin := {}
  /-- When the packet was taken out of a queue and forwarded anew before it came here, latest
  last. -/
  releases : List Nat := []
deriving DecidableEq, Repr, Inhabited

namespace Parcel

/-- Whether the lifetime has passed. -/
def isExpired (p : Parcel) (now : Nat) : Bool := p.lifetime ≤ now - p.enqueuedAt

/-- What is left of the lifetime. -/
def remaining (p : Parcel) (now : Nat) : Nat := p.lifetime - (now - p.enqueuedAt)

end Parcel

end Geocast
