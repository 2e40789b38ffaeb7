import Geocast.Proofs.Network.Host
import Geocast.Proofs.Router.Passage

/-!
# The station that seeks

A station that was asked to send something to another one, of which it knows nothing, keeps it and
asks for the place of the other one (`Seeking`). The first packet that it hears from the other one,
whatever it is, ends the search, and what was kept goes out (`Found`). Nothing that it hears
afterwards makes a difference.
-/

namespace Geocast.Router

variable {α : Type}

/-- The station that seeks the one at `peer`, as it has become of `a`, and what it has sent so
far. -/
structure Seeker (a : Router α) (peer : LongPosition) (payload : Bytes)
    (script : List (Signal × Emission)) (r : Router α) : Prop
    extends Facing a peer r where
  sent : r.emissions = script.map Prod.snd
  rides : ∀ x ∈ script, x.1 ≠ .reply ∧ x.1.Rides a peer payload x.2.frame
  asked : (script.map Prod.fst).count .request = 1

/-- What a station keeps until it knows the place of the one that it is for. -/
structure Letter (a : Router α) (peer : LongPosition) (payload : Bytes) (x : Parcel) (now : Nat) :
    Prop where
  good : x.isExpired now = false
  packet : ∃ p, Packet.decode x.frame = .ok p ∧ a.Own p ∧ p.common.type = .geoUnicast ∧
    p.extended = .unicast ⟨⟨0⟩, a.localPosition, { address := peer.address }⟩ ∧ p.payload = payload

/-- It has asked, and keeps what it was asked to send. -/
structure Holding (a : Router α) (peer : LongPosition) (payload : Bytes) (handle : Nat)
    (script : List (Signal × Emission)) (r : Router α) : Prop
    extends Seeker a peer payload script r where
  lookup : ∃ l, r.lookups.inFlight.get? peer.address = some l ∧ l.waiters = [handle] ∧
    ∀ due, ⟨l.key, due⟩ ∈ r.lookups.loops → r.now < due
  others : ∀ c, c ≠ peer.address → r.lookups.inFlight.get? c = none
  kept : ∃ x, r.queues.queue .lookup peer.address = [x] ∧ Letter a peer payload x r.now
  rest : ∀ c, c ≠ peer.address → r.queues.queue .lookup c = []
  untold : r.completions = []
  unsent : (script.map Prod.fst).count .message = 0

/-- It waits for an answer, and has heard nothing of the other station yet. -/
structure Seeking (a : Router α) (peer : LongPosition) (payload : Bytes) (handle : Nat)
    (script : List (Signal × Emission)) (r : Router α) : Prop
    extends Holding a peer payload handle script r where
  pristine : r.remembered peer.address = {}

/-- It has heard of the other station, and has sent what it kept. -/
structure Found (a : Router α) (peer : LongPosition) (payload : Bytes) (handle : Nat)
    (script : List (Signal × Emission)) (r : Router α) : Prop
    extends Seeker a peer payload script r where
  unasking : ∀ c, r.lookups.inFlight.get? c = none
  empty : ∀ c, r.queues.queue .lookup c = []
  told : r.completions = [⟨handle, .ok ()⟩]
  once : (script.map Prod.fst).count .message = 1

/-! ## The end of the search -/

/-- When a search ends, nobody waits for it any longer, and nothing has gone out yet. -/
theorem resolving_eq (r : Router α) (target : Address) (l : Lookup) :
    ∃ ended stats expired, r.resolving target l = { r with
      lookups := { r.lookups with inFlight := r.lookups.inFlight.erase target, ended }
      queues := r.queues.drop .lookup (some target)
      completions := r.completions ++ l.waiters.map (⟨·, .ok ()⟩)
      stats, expired } :=
  ⟨_, _, _, rfl⟩

variable [Scalar α]

/-- Where one parcel waits for a station, and its place is known now, the parcel goes out. -/
theorem resolveLookup_sends {r : Router α} (peer : LongPosition) {l : Lookup} {x : Parcel}
    {p : Packet} {u : UnicastHeader} (hl : r.lookups.inFlight.get? peer.address = some l)
    (hqueue : r.queues.queue .lookup peer.address = [x]) (hgood : x.isExpired r.now = false)
    (hknows : r.table.KnowsOnly peer r.clock) (hfresh : r.table.Fresh peer.timestamp r.clock)
    (hplaces : r.geometry.Separates [r.here, peer.point]) (hapart : r.here ≠ peer.point)
    (hdecode : Packet.decode x.frame = .ok p) (is_unicast : p.extended = .unicast u)
    (hdestination : u.destination = { address := peer.address })
    (hsource : u.source.address = r.config.address) :
    ∃ e ended stats released expired, r.resolveLookup peer.address = { r with
        lookups := { r.lookups with inFlight := r.lookups.inFlight.erase peer.address, ended }
        queues := r.queues.drop .lookup (some peer.address)
        completions := r.completions ++ l.waiters.map (⟨·, .ok ()⟩)
        emissions := r.emissions ++ [e]
        stats, released, expired } ∧
      ∃ lifetime, e.frame =
        ((p.withLifetime lifetime).withDestination u is_unicast peer.toShort).encode := by
  have hready : r.queues.ready .lookup (some peer.address) r.now = [x] := by
    show (r.queues.queue .lookup peer.address).filter _ = _
    rw [hqueue, List.filter_singleton, hgood]
    rfl
  rw [resolveLookup_eq hl, hready]
  generalize hs : r.resolving peer.address l = s
  have htable : s.table = r.table := hs ▸ rfl
  have hclock : s.clock = r.clock := hs ▸ rfl
  have hhere : s.here = r.here := hs ▸ rfl
  have hgeometry : s.geometry = r.geometry := hs ▸ rfl
  -- the table has the place by now
  have hrefreshed : s.refreshed u.destination (isUnresolved u.destination) = peer.toShort := by
    obtain ⟨entry, hget, hknown, hposition⟩ := hknows.entry
    have hfind : s.table.findPosition? peer.address s.clock = some entry := by
      rw [LocationTable.findPosition?_eq_some_iff, htable, hclock]
      exact ⟨hget, hposition ▸ hfresh, hknown⟩
    unfold refreshed
    rw [hdestination, hfind, ← hposition]
    rfl
  have hown : u.source.address = s.config.address := hs ▸ hsource
  have hpacket : (s.onward x p u is_unicast).1 =
      (p.withLifetime (.ofMillis (x.remaining s.now))).withDestination u is_unicast
        peer.toShort := by
    unfold onward
    dsimp only
    rw [hrefreshed]
  have hdecision : (s.onward x p u is_unicast).2 = s.forwarder.timed (s.forwarder.toward
      (s.surroundings s.here none p.common.trafficClass) peer.point) := by
    unfold onward
    dsimp only
    rw [hrefreshed, if_pos hown]
    rfl
  obtain ⟨target, hsent⟩ := dispatch_toward_known (r := s)
    (by rw [htable, hclock]; exact hknows) (by rw [hgeometry, hhere]; exact hplaces)
    (by rw [hhere]; exact hapart) p.common.trafficClass
    (s.noteRelease .lookup x (s.onward x p u is_unicast).2
      (s.onward x p u is_unicast).1.encode) (s.onwardOutgoing x p u is_unicast)
  rw [← hdecision] at hsent
  rw [show s.release .lookup [x] = s.releaseOrDrop .lookup x from rfl]
  unfold releaseOrDrop
  rw [(releaseOne_of_unicast s .lookup is_unicast hdecode).trans hsent]
  obtain ⟨ended, stats, expired, hresolving⟩ := resolving_eq r peer.address l
  have hframe : (s.onwardOutgoing x p u is_unicast).frame = ((p.withLifetime
      (.ofMillis (x.remaining s.now))).withDestination u is_unicast peer.toShort).encode :=
    congrArg Packet.encode hpacket
  generalize s.onwardOutgoing x p u is_unicast = o at hframe ⊢
  generalize s.onward x p u is_unicast = onward
  rw [hs.symm.trans hresolving]
  exact ⟨_, ended, _, _, expired, rfl, _, hframe⟩

/-! ## Timers while it seeks, and afterwards -/

variable {a r : Router α} {peer : LongPosition} {payload : Bytes} {handle : Nat}
  {script : List (Signal × Emission)}

omit [Scalar α] in
/-- Some more packets of the station's own, none of them a request. -/
theorem Seeker.say (h : Seeker a peer payload script r) {more : List (Signal × Emission)}
    (hmore : ∀ x ∈ more, (x.1 = .beacon ∨ x.1 = .message) ∧ x.1.Rides a peer payload x.2.frame)
    (stats : Stats) (beaconDue beaconRound : Nat) :
    Seeker a peer payload (script ++ more)
      { r with emissions := r.emissions ++ more.map Prod.snd, stats, beaconDue, beaconRound } where
  toFacing := by apply h.toFacing.of_same <;> first | rfl | exact h.idle.tended
  sent := by rw [List.map_append, ← h.sent]
  rides := by
    intro x hx
    rcases List.mem_append.mp hx with hold | hnew
    · exact h.rides x hold
    · obtain ⟨hs, hrides⟩ := hmore x hnew
      refine ⟨?_, hrides⟩
      rcases hs with hs | hs <;> rw [hs] <;> exact nofun
  asked := by
    have hnone : (more.map Prod.fst).count .request = 0 := by
      rw [List.count_eq_zero]
      intro hmem
      obtain ⟨x, hx, hs⟩ := List.mem_map.mp hmem
      rcases (hmore x hx).1 with hs' | hs' <;> exact nomatch hs.symm.trans hs'
    rw [List.map_append, List.count_append, h.asked, hnone]

omit [Scalar α] in
/-- A loop that ends makes no difference to a station that seeks. -/
theorem Seeker.rests (h : Seeker a peer payload script r) {lookups : LookupService}
    (hrests : Rests r.lookups lookups) : Seeker a peer payload script { r with lookups } where
  toFacing := by apply h.toFacing.of_same <;> first | rfl | exact hrests.tended
  sent := h.sent
  rides := h.rides
  asked := h.asked

/-- The packets by which a station announces itself, as such. -/
def announcements (beacons : List Emission) : List (Signal × Emission) :=
  beacons.map fun e => (.beacon, e)

theorem snd_announcements (beacons : List Emission) :
    (announcements beacons).map Prod.snd = beacons := by
  unfold announcements
  rw [List.map_map]
  exact List.map_id beacons

theorem count_announcements (beacons : List Emission) {s : Signal} (hs : s ≠ .beacon) :
    ((announcements beacons).map Prod.fst).count s = 0 := by
  unfold announcements
  rw [List.map_map, List.count_eq_zero]
  intro hmem
  obtain ⟨_, _, hbeacon⟩ := List.mem_map.mp hmem
  exact hs hbeacon.symm

omit [Scalar α] in
theorem announcements_ride (h : Stays a r) {beacons : List Emission}
    (hbeacons : ∀ e ∈ beacons, e.frame = r.beaconPacket.encode) (peer : LongPosition)
    (payload : Bytes) : ∀ x ∈ announcements beacons,
      (x.1 = .beacon ∨ x.1 = .message) ∧ x.1.Rides a peer payload x.2.frame := by
  intro x hx
  obtain ⟨e, he, rfl⟩ := List.mem_map.mp hx
  exact ⟨.inl rfl, hbeacons e he ▸ (beaconPacket_rides r peer payload).of_stays h⟩

omit [Scalar α] in
/-- Timers do nothing but announce the station while it waits for an answer. -/
theorem Seeking.settle (h : Seeking a peer payload handle script r) :
    ∃ more, Seeking a peer payload handle (script ++ more) r.settle := by
  obtain ⟨l, hl, hwaiters, hlater⟩ := h.lookup
  obtain ⟨beacons, stats, due, round, lookups, hbeacons, hrests, heq⟩ :=
    h.idle.settle_announces fun c l' hl' => by
      by_cases hpeer : c = peer.address
      · subst hpeer
        obtain rfl := Option.some.inj (hl'.symm.trans hl)
        exact hlater
      · exact nomatch (h.others c hpeer).symm.trans hl'
  have hsaid := (h.toSeeker.rests hrests).say (announcements_ride h.stays hbeacons peer payload)
    stats due round
  rw [snd_announcements] at hsaid
  have hsilent := count_announcements beacons (s := .message) nofun
  -- the loop of the lookup sleeps, so at most loops of ended ones go
  have hflight (c : Address) : lookups.inFlight.get? c = r.lookups.inFlight.get? c :=
    congrArg (·.get? c) hrests.inFlight
  rw [heq]
  exact ⟨announcements beacons, {
    toSeeker := hsaid
    lookup := ⟨l, (hflight _).trans hl, hwaiters, fun due' hloop =>
      hlater due' (hrests.loops _ hloop)⟩
    others := fun c hc => (hflight c).trans (h.others c hc)
    kept := h.kept
    rest := h.rest
    pristine := h.pristine
    untold := h.untold
    unsent := by rw [List.map_append, List.count_append, h.unsent, hsilent] }⟩

omit [Scalar α] in
theorem Found.settle (h : Found a peer payload handle script r) :
    ∃ more, Found a peer payload handle (script ++ more) r.settle := by
  obtain ⟨beacons, stats, due, round, lookups, hbeacons, hrests, heq⟩ :=
    h.idle.settle_announces fun c l hl => nomatch (h.unasking c).symm.trans hl
  have hsaid := (h.toSeeker.rests hrests).say (announcements_ride h.stays hbeacons peer payload)
    stats due round
  rw [snd_announcements] at hsaid
  have hsilent := count_announcements beacons (s := .message) nofun
  rw [heq]
  exact ⟨announcements beacons, {
    toSeeker := hsaid
    unasking := fun c => (congrArg (·.get? c) hrests.inFlight).trans (h.unasking c)
    empty := h.empty
    told := h.told
    once := by rw [List.map_append, List.count_append, h.once, hsilent] }⟩

/-! ## Hearing the other station -/

variable {b : Router α} {s : Signal} {x : Arrival} {p : Packet} {frame : Bytes}

omit [Scalar α] in
/-- Whatever it hears of the other station, from then on it knows that one. -/
theorem Seeker.hears (h : Seeker a peer payload script r) (hother : peer.address ≠ a.config.address)
    (hfresh : a.table.Fresh peer.timestamp a.clock) (hsource : x.source = peer)
    (hdirect : x.direct = true) (stats : Stats) :
    (r.learn x).2.table.KnowsOnly peer r.clock ∧ Seeker a peer payload script
      { r with table := (r.learn x).2.table, stats, arrivals := r.arrivals + 1 } := by
  obtain ⟨hknows, hfacing⟩ := h.toFacing.hears hother hfresh hsource hdirect stats
  exact ⟨hknows, ⟨hfacing, h.sent, h.rides, h.asked⟩⟩

/-- It delivers what the other station sends it. -/
theorem handle_signal (hs : s = .beacon ∨ s = .reply) {own : LongPosition}
    (hfits : s.Fits own a.localPosition payload p) (hextended : x.packet.extended = p.extended)
    (hconfig : r.config = a.config) : r.handle x = (deliver x false, r) := by
  rcases hs with rfl | rfl
  · exact handle_beacon (hextended.trans hfits)
  · obtain ⟨n, _, hlayout⟩ := hfits
    refine handle_unicast (hextended.trans hlayout) ?_
    rw [hconfig]
    rfl

omit [Scalar α] in
/-- Counting makes no difference. -/
theorem Found.tally (h : Found a peer payload handle script r) (outcome : ReceiveOutcome) :
    Found a peer payload handle script (r.tally outcome) where
  toFacing := by apply h.toFacing.of_same <;> first | rfl | exact h.idle.tended
  sent := h.sent
  rides := h.rides
  asked := h.asked
  unasking := h.unasking
  empty := h.empty
  told := h.told
  once := h.once

/-- Once the search has ended, nothing that is heard makes a difference. -/
theorem Found.receive (h : Found a b.localPosition payload handle script r)
    (hother : b.config.address ≠ a.config.address) (hvalid : b.config.hopLimit ≠ 0)
    (hfresh : a.table.Fresh b.localPosition.timestamp a.clock) (hs : s = .beacon ∨ s = .reply)
    (hrides : s.Rides b a.localPosition [] frame) :
    Found a b.localPosition payload handle script (r.receive frame).2 := by
  obtain ⟨p, rfl, hsendable, hown, hfits⟩ := hrides
  have hjudge := judge_own (r := r) hsendable hown hvalid (h.stays.config ▸ hother)
  generalize hx : Arrival.mk p.relayed b.localPosition true p.encode.length = x at hjudge
  have hheard (stats : Stats) : Found a b.localPosition payload handle script
      { r with table := (r.learn x).2.table, stats, arrivals := r.arrivals + 1 } := {
    toSeeker := (h.toSeeker.hears hother hfresh (hx ▸ rfl) (hx ▸ rfl) stats).2
    unasking := h.unasking
    empty := h.empty
    told := h.told
    once := h.once }
  by_cases hseen : ∃ n, (r.learn x).1 = some (n, .duplicate)
  · obtain ⟨n, hseen⟩ := hseen
    obtain ⟨stats, hreceive⟩ := receive_seen h.idle hjudge hseen
    rw [hreceive]
    exact hheard stats
  · obtain ⟨stats, hreceive⟩ := receive_new h.idle.running hjudge fun n hn => hseen ⟨n, hn⟩
    have hm := hheard stats
    dsimp only at hreceive
    generalize ({ r with table := (r.learn x).2.table, stats, arrivals := r.arrivals + 1 } :
      Router α) = m at hm hreceive
    -- nothing is asked for any longer, so nothing is set free
    have hsame : m.resolveLookup x.source.address = m := resolveLookup_idle (hm.unasking _)
    have hextended : x.packet.extended = p.extended := hx ▸ rfl
    have haccept : m.accept x = (deliver x false, m) := by
      rw [Idle.accept_eq (hsame.symm ▸ hm.idle), hsame]
      exact handle_signal hs hfits hextended hm.stays.config
    rw [hreceive, haccept]
    exact hm.tally (deliver x false)

omit [Scalar α] in
/-- What was kept goes out with the place of the other station, as a packet of the station's own. -/
theorem message_rides {q : Packet} {u : UnicastHeader} (hsendable : q.Sendable) (hown : a.Own q)
    (htype : q.common.type = .geoUnicast) (is_unicast : q.extended = .unicast u)
    (hu : u = ⟨⟨0⟩, a.localPosition, { address := peer.address }⟩) (hpayload : q.payload = payload)
    (lifetime : Lifetime) :
    Signal.message.Rides a peer payload
      ((q.withLifetime lifetime).withDestination u is_unicast peer.toShort).encode := by
  subst hu
  exact ⟨_, rfl, (hsendable.withLifetime lifetime).withDestination _ is_unicast peer.toShort,
    ⟨rfl, hown.full, hown.hops⟩, htype, rfl, hpayload⟩

/-- Where the place of the other station is known, the end of the search lets go what was kept. -/
theorem Holding.resolves (h : Holding a peer payload handle script r)
    (hknows : r.table.KnowsOnly peer r.clock) (hfresh : a.table.Fresh peer.timestamp a.clock)
    (hplaces : a.geometry.Separates [a.here, peer.point]) (hapart : a.here ≠ peer.point) :
    ∃ e, Found a peer payload handle (script ++ [(.message, e)])
      (r.resolveLookup peer.address) := by
  obtain ⟨l, hl, hwaiters, _⟩ := h.lookup
  obtain ⟨x, hqueue, hletter⟩ := h.kept
  obtain ⟨q, hdecode, hown, htype, hextended, hpayload⟩ := hletter.packet
  obtain ⟨e, ended, stats, released, expired, hresolve, lifetime, hframe⟩ :=
    resolveLookup_sends peer hl hqueue hletter.good hknows ((h.stays.fresh _).mpr hfresh)
      (by rw [h.stays.geometry, h.stays.here]; exact hplaces) (by rw [h.stays.here]; exact hapart)
      hdecode hextended rfl (by rw [h.stays.config]; rfl)
  -- the letter that waited is the one signal more
  have hmore : ∀ x ∈ [(Signal.message, e)],
      (x.1 = .beacon ∨ x.1 = .message) ∧ x.1.Rides a peer payload x.2.frame := by
    intro x hx
    obtain rfl := List.mem_singleton.mp hx
    exact ⟨.inr rfl, hframe ▸ message_rides (Packet.sendable_of_decode hdecode) hown htype hextended
      rfl hpayload lifetime⟩
  have hsaid := h.toSeeker.say hmore stats r.beaconDue r.beaconRound
  have htended : (r.resolveLookup peer.address).lookups.Tended :=
    (resolveLookup_ended hl).1.tended h.idle.tended
  rw [h.untold, hwaiters, List.map_singleton, List.nil_append] at hresolve
  rw [hresolve] at htended ⊢
  exact ⟨e, {
    toFacing := by apply h.toFacing.of_same <;> first | rfl | exact htended
    sent := hsaid.sent
    rides := hsaid.rides
    asked := hsaid.asked
    unasking := by
      intro c
      show (r.lookups.inFlight.erase _).get? c = none
      by_cases hpeer : c = peer.address
      · subst hpeer
        exact AddressMap.get?_erase_self _ _
      · rw [AddressMap.get?_erase_of_ne _ hpeer]
        exact h.others c hpeer
    empty := by
      intro c
      show ((r.queues.lookup.erase _).get? c).getD [] = []
      by_cases hpeer : c = peer.address
      · subst hpeer
        rw [AddressMap.get?_erase_self]
        rfl
      · rw [AddressMap.get?_erase_of_ne _ hpeer]
        exact h.rest c hpeer
    told := rfl
    once := by
      rw [List.map_append, List.count_append, h.unsent]
      rfl }⟩

/-- The first packet of the other station ends the search. -/
theorem Seeking.receive (h : Seeking a b.localPosition payload handle script r)
    (hother : b.config.address ≠ a.config.address) (hvalid : b.config.hopLimit ≠ 0)
    (hfresh : a.table.Fresh b.localPosition.timestamp a.clock)
    (hplaces : a.geometry.Separates [a.here, b.here]) (hapart : a.here ≠ b.here)
    (hs : s = .beacon ∨ s = .reply) (hrides : s.Rides b a.localPosition [] frame) :
    ∃ e, Found a b.localPosition payload handle (script ++ [(.message, e)])
      (r.receive frame).2 := by
  obtain ⟨p, rfl, hsendable, hown, hfits⟩ := hrides
  have hjudge := judge_own (r := r) hsendable hown hvalid (h.stays.config ▸ hother)
  generalize hx : Arrival.mk p.relayed b.localPosition true p.encode.length = x at hjudge
  have hsource : x.source = b.localPosition := hx ▸ rfl
  have hextended : x.packet.extended = p.extended := hx ▸ rfl
  have hheard := h.toSeeker.hears hother hfresh hsource (hx ▸ rfl)
  -- nothing of the other station is remembered yet
  have hnew (n : SequenceNumber) : (r.learn x).1 ≠ some (n, .duplicate) := by
    intro hdup
    have hforeign : x.source.address ≠ r.table.own := by
      rw [hsource, h.own, h.stays.config]
      exact hother
    have hcontains := ((learn_learned hforeign).duplicate n).mp hdup
    rw [hsource, h.pristine] at hcontains
    exact nomatch hcontains.2
  obtain ⟨stats, hreceive⟩ := receive_new h.idle.running hjudge hnew
  obtain ⟨hknows, hm⟩ := hheard stats
  have hholding : Holding a b.localPosition payload handle script
      { r with table := (r.learn x).2.table, stats, arrivals := r.arrivals + 1 } :=
    ⟨hm, h.lookup, h.others, h.kept, h.rest, h.untold, h.unsent⟩
  obtain ⟨e, hfound⟩ := hholding.resolves hknows hfresh hplaces hapart
  dsimp only at hreceive
  generalize ({ r with table := (r.learn x).2.table, stats, arrivals := r.arrivals + 1 } :
    Router α) = m at hreceive hfound
  have haccept : m.accept x = (deliver x false, m.resolveLookup b.localPosition.address) := by
    have hidle : (m.resolveLookup x.source.address).Idle := hsource ▸ hfound.idle
    rw [hidle.accept_eq, hsource]
    exact handle_signal hs hfits hextended hfound.stays.config
  rw [hreceive, haccept]
  exact ⟨e, hfound.tally (deliver x false)⟩

end Geocast.Router
