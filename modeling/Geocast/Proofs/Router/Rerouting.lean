import Geocast.Proofs.Queue.Contents
import Geocast.Proofs.Router.Parking
import Geocast.Proofs.Router.Resolution

/-!
# Looking for a way anew

Once a neighbour is heard, everything that waits for a way to its destination is taken out of its
queue and forwarded anew. The queues are emptied station by station, in whatever order the stations
come, and filled again while that goes on. What is in them may wait there (`Stowed`), so there are
only two ways for it to go on: to a neighbour, or back to the end of its own queue, which has room
for it, since it came from there. That makes the whole a matter of each packet alone
(`Router.retry?`), and the order of the stations does not matter to any of them
(`flushUnicast_reruns`).
-/

namespace Geocast

namespace AddressMap

variable {β : Type}

/-- What is found does not depend on the order in which the addresses came in. -/
theorem get?_perm {m m' : AddressMap β} (h : m.toList.Perm m'.toList) (a : Address) :
    m.get? a = m'.get? a := by
  apply Option.ext
  intro v
  rw [get?_eq_some_iff, get?_eq_some_iff]
  exact h.mem_iff

/-- The same values, the last address first. -/
def reverse (m : AddressMap β) : AddressMap β where
  toList := m.toList.reverse
  nodup := by
    rw [List.map_reverse, List.nodup_reverse]
    exact m.nodup

/-- The values are the same in either order. -/
theorem reverse_perm (m : AddressMap β) : m.reverse.toList.Perm m.toList := m.toList.reverse_perm

/-- Where everything that is kept for an address tells that address, all that tells it is what is
kept for it, in the same order. -/
theorem filter_flatten_values {m : AddressMap (List β)} {tells : β → Option Address}
    (h : ∀ a, ∀ x ∈ (m.get? a).getD [], tells x = some a) (a : Address) :
    m.values.flatten.filter (tells · = some a) = (m.get? a).getD [] := by
  have hentries : ∀ e ∈ m.toList, ∀ x ∈ e.2, tells x = some e.1 := by
    intro e he x hx
    refine h e.1 x ?_
    rw [(get?_eq_some_iff m e.1 e.2).mpr he]
    exact hx
  -- by induction on the entries: the values of one are all kept or all left out
  have hkey (entries : List (Address × List β)) (hsome : ∀ e ∈ entries, ∀ x ∈ e.2,
      tells x = some e.1) : (entries.map Prod.snd).flatten.filter (tells · = some a) =
        ((entries.filter fun e => decide (e.1 = a)).map Prod.snd).flatten := by
    induction entries with
    | nil => rfl
    | cons e rest ih =>
      have hrest := ih fun e' he' => hsome e' (List.mem_cons_of_mem _ he')
      have hfirst := hsome e List.mem_cons_self
      rw [List.map_cons, List.flatten_cons, List.filter_append, hrest]
      by_cases he : e.1 = a
      · rw [List.filter_cons_of_pos (by simpa using he), List.map_cons, List.flatten_cons,
          List.filter_eq_self.mpr fun x hx => decide_eq_true (he ▸ hfirst x hx)]
      · rw [List.filter_cons_of_neg (by simpa using he), List.filter_eq_nil_iff.mpr ?_,
          List.nil_append]
        intro x hx
        rw [hfirst x hx]
        simpa using he
  unfold values
  rw [hkey m.toList hentries, filter_key_eq m.nodup a]
  show _ = (((m.toList.find? (·.1 = a)).map Prod.snd)).getD []
  cases (m.toList.find? (·.1 = a)).map Prod.snd <;> simp

end AddressMap

/-- Picking out by a key that a partial map keeps can as well be done before it. -/
theorem filter_filterMap_key {β γ κ : Type} [DecidableEq κ] {f : β → Option γ} {key : β → κ}
    {key' : γ → κ} {l : List β} (h : ∀ x ∈ l, ∀ y, f x = some y → key' y = key x) (k : κ) :
    (l.filterMap f).filter (key' · = k) = (l.filter (key · = k)).filterMap f := by
  rw [List.filter_filterMap, List.filterMap_filter]
  refine List.filterMap_congr fun x hx => ?_
  cases hf : f x with
  | none => simp
  | some y => simp [Option.filter, h x hx y hf]

/-! ## What comes of one packet -/

/-- What comes of a parcel that is taken out to look for a way anew: its lifetime has passed, or it
is sent, or it goes back to wait. -/
inductive Retry
  | lapsed
  | sent (e : Emission)
  | returned (p : Parcel)
deriving DecidableEq, Repr

namespace Retry

/-- What is handed to the link. -/
def emission? : Retry → Option Emission
  | .sent e => some e
  | .lapsed | .returned _ => none

/-- What goes back to wait. -/
def parcel? : Retry → Option Parcel
  | .returned p => some p
  | .lapsed | .sent _ => none

end Retry

/-- The frame that a parcel goes on as, handed to a neighbour. -/
def Release.handed (e : Release) (nextHop : Address) : Emission where
  time := e.time
  target := .unicast nextHop.mac
  frame := e.frame
  outlet := e.parcel.outlet
  origin := e.parcel.origin

/-- The parcel that a parcel goes on as, back in a queue. -/
def Release.back (e : Release) : Parcel where
  frame := e.frame
  outlet := e.parcel.outlet
  enqueuedAt := e.time
  lifetime := (Lifetime.ofMillis (e.parcel.remaining e.time)).millis
  origin := e.parcel.origin
  releases := e.parcel.releases ++ [e.time]

/-- What comes of a parcel by what is on record of it, if it is handed to a neighbour or goes back
to wait for a way to its destination. -/
def Release.retry? (e : Release) : Option Retry :=
  match e.decision with
  | .unicast nextHop => some (.sent (e.handed nextHop))
  | .buffer => some (.returned e.back)
  | _ => none

/-- A frame carries the packet of another one on to its station, with perhaps less of its lifetime
and another place of the station. -/
def Recasts (a : Address) (frame frame' : Bytes) : Prop :=
  ∃ p q, Packet.decode frame = .ok p ∧ Packet.decode frame' = .ok q ∧ p.Passed 0 q ∧
    Packet.goal? frame' = some a

/-- What may come of a parcel for a station: it lapses only when its lifetime has passed, and else
it goes on, to one neighbour or back, as the same packet for that station. -/
def Retry.Befits (now : Nat) (a : Address) (p : Parcel) : Retry → Prop
  | .lapsed => p.isExpired now = true
  | .sent e => p.isExpired now = false ∧ e.time = now ∧ (∃ mac, e.target = .unicast mac) ∧
      e.outlet = p.outlet ∧ e.origin = p.origin ∧ Recasts a p.frame e.frame
  | .returned q => p.isExpired now = false ∧ q.enqueuedAt = now ∧
      q.outlet = p.outlet ∧ q.origin = p.origin ∧ Recasts a p.frame q.frame

namespace Router

variable {α : Type}

/-- A parcel holds a packet for a station that may wait until a way there shows. -/
def Seeks (r : Router α) (a : Address) (p : Parcel) : Prop :=
  ∃ q u, Packet.decode p.frame = .ok q ∧ q.extended = .unicast u ∧ u.destination.address = a ∧
    q.basic.lifetime.millis = p.lifetime ∧ r.MayWait q

/-- Such a parcel is for the station that its packet names. -/
theorem Seeks.goal? {r : Router α} {a : Address} {p : Parcel} (h : r.Seeks a p) :
    Packet.goal? p.frame = some a := by
  obtain ⟨_, _, hdecode, is_unicast, rfl, _⟩ := h
  exact Packet.goal?_of_decode hdecode is_unicast

theorem Seeks.of_config {r s : Router α} {a : Address} {p : Parcel} (h : r.Seeks a p)
    (hconfig : s.config = r.config) : s.Seeks a p := by
  unfold Seeks MayWait at h ⊢
  rwa [hconfig]

/-- Whatever waits for a way to a station is such a parcel for it. -/
theorem Stowed.seeks {r : Router α} (h : Stowed r) {a : Address} {p : Parcel}
    (hp : p ∈ r.queues.queue .unicast a) : r.Seeks a p := by
  obtain ⟨q, hdecode, hlifetime, hbelongs⟩ := h.filed (.queue .unicast a) p hp
  obtain ⟨u, is_unicast, hnames⟩ := hbelongs.resolve_left (by decide)
  obtain ⟨q', hdecode', hmay⟩ := h.parked a p hp
  obtain rfl := Except.ok.inj (hdecode.symm.trans hdecode')
  exact ⟨q, u, hdecode, is_unicast, hnames, hlifetime, hmay⟩

variable [Scalar α]

/-- What comes of a parcel that is taken out now to look for a way anew. -/
def retry? (r : Router α) (p : Parcel) : Option Retry :=
  if p.isExpired r.now then some .lapsed else (r.release? .unicast p).bind Release.retry?

/-- The frame that is sent of a parcel that is taken out now, if one is. -/
def sent? (r : Router α) (p : Parcel) : Option Emission := (r.retry? p).bind Retry.emission?

/-- The parcel that goes back of one that is taken out now, if it does. -/
def returned? (r : Router α) (p : Parcel) : Option Parcel := (r.retry? p).bind Retry.parcel?

variable {r s t : Router α} {a : Address} {p : Parcel}

/-- A parcel whose lifetime has passed is given up. -/
theorem retry?_of_expired (h : p.isExpired r.now = true) : r.retry? p = some .lapsed := if_pos h

/-- Any other goes on as its record says. -/
theorem retry?_of_live (h : p.isExpired r.now = false) :
    r.retry? p = (r.release? .unicast p).bind Release.retry? := by
  unfold retry?
  rw [h]
  rfl

/-- What is sent of it is what the record hands out. -/
theorem sent?_of_retry {retry : Retry} (h : r.retry? p = some retry) :
    r.sent? p = retry.emission? := by
  unfold sent?
  rw [h, Option.bind_some]

/-- And what goes back is what the record puts back. -/
theorem returned?_of_retry {retry : Retry} (h : r.retry? p = some retry) :
    r.returned? p = retry.parcel? := by
  unfold returned?
  rw [h, Option.bind_some]

/-- Forwarding others changes nothing of what comes of a parcel. -/
theorem Alike.retry? (h : Alike r s) : s.retry? = r.retry? := by
  funext p
  unfold Router.retry?
  rw [h.now, h.release?]

theorem Alike.sent? (h : Alike r s) : s.sent? = r.sent? := by
  unfold Router.sent?
  rw [h.retry?]

theorem Alike.returned? (h : Alike r s) : s.returned? = r.returned? := by
  unfold Router.returned?
  rw [h.retry?]

/-- A parcel that may wait for a way goes to a neighbour, or goes back to wait. -/
theorem Seeks.release? (h : r.Seeks a p) :
    ∃ q u, ∃ is_unicast : q.extended = .unicast u, Packet.decode p.frame = .ok q ∧
      u.destination.address = a ∧ q.basic.lifetime.millis = p.lifetime ∧
      ((∃ nextHop, (r.onward p q u is_unicast).2 = .unicast nextHop) ∨
        (r.onward p q u is_unicast).2 = .buffer) := by
  obtain ⟨q, u, hdecode, is_unicast, hnames, hlifetime, hgreedy, hclass⟩ := h
  exact ⟨q, u, is_unicast, hdecode, hnames, hlifetime,
    Forwarder.toward_of_patient _ hgreedy hclass⟩

/-- What waits for a way to a station comes to something, and to what befits it. -/
theorem Seeks.befits (h : r.Seeks a p) (hkeyed : r.Keyed) :
    ∃ retry, r.retry? p = some retry ∧ retry.Befits r.now a p := by
  cases hgone : p.isExpired r.now with
  | true => exact ⟨.lapsed, retry?_of_expired hgone, hgone⟩
  | false =>
    obtain ⟨q, u, is_unicast, hdecode, hnames, hlifetime, hdecision⟩ := h.release?
    have hrecasts : Recasts a p.frame (r.onward p q u is_unicast).1.encode := by
      have hsendable := onward_sendable r p (Packet.sendable_of_decode hdecode) u is_unicast
      refine ⟨q, _, hdecode, Packet.decode_encode hsendable,
        hkeyed.onward_passed hlifetime is_unicast, ?_⟩
      rw [Packet.goal?_of_decode (Packet.decode_encode hsendable) rfl]
      exact congrArg some ((hkeyed.refreshed _ _).trans hnames)
    rw [retry?_of_live hgone, release?_of_unicast r .unicast is_unicast hdecode, Option.bind_some]
    unfold Release.retry?
    dsimp only
    rcases hdecision with ⟨nextHop, hdecision⟩ | hdecision
    · rw [hdecision]
      exact ⟨_, rfl, hgone, rfl, ⟨_, rfl⟩, rfl, rfl, hrecasts⟩
    · rw [hdecision]
      exact ⟨_, rfl, hgone, rfl, rfl, rfl, hrecasts⟩

/-- What is sent of a parcel for a station is for that station. -/
theorem Seeks.goal?_sent (h : r.Seeks a p) (hkeyed : r.Keyed) {e : Emission}
    (hsent : r.sent? p = some e) : Packet.goal? e.frame = some a := by
  obtain ⟨retry, hretry, hbefits⟩ := h.befits hkeyed
  rw [sent?_of_retry hretry] at hsent
  cases retry with
  | sent e' =>
    obtain rfl := Option.some.inj hsent
    obtain ⟨-, -, -, -, -, _, _, -, -, -, hgoal⟩ := hbefits
    exact hgoal
  | lapsed => exact nomatch hsent
  | returned q => exact nomatch hsent

/-! ## What comes of all of them -/

/-- Some parcels are forwarded anew, in order: those that are sent are sent in that order, those
that go back come to the ends of the queues of their stations in that order, and nothing else
changes that is not a record of it. -/
def Rerouted (r : Router α) (parcels : List Parcel) (s : Router α) : Prop :=
  ∃ unicast released,
    s = { r with
      queues := { r.queues with unicast }
      released
      emissions := r.emissions ++ parcels.filterMap r.sent?
      stats := { r.stats with
        packetsSent := r.stats.packetsSent + (parcels.filterMap r.sent?).length
        packetsQueued := r.stats.packetsQueued + (parcels.filterMap r.returned?).length } } ∧
    ∀ a, s.queues.queue .unicast a = r.queues.queue .unicast a ++
      (parcels.filter (Packet.goal? ·.frame = some a)).filterMap r.returned?

namespace Rerouted

variable {parcels parcels' : List Parcel}

theorem nil (r : Router α) : Rerouted r [] r :=
  ⟨r.queues.unicast, r.released, by simp, fun a => by simp⟩

theorem alike (h : Rerouted r parcels s) : Alike r s := by
  obtain ⟨_, _, rfl, _⟩ := h
  constructor <;> rfl

theorem trans (h : Rerouted r parcels s) (h' : Rerouted s parcels' t) :
    Rerouted r (parcels ++ parcels') t := by
  have halike := h.alike
  obtain ⟨_, _, hs, hparked⟩ := h
  obtain ⟨unicast, released, ht, hparked'⟩ := h'
  rw [halike.sent?, halike.returned?] at ht
  rw [halike.returned?] at hparked'
  refine ⟨unicast, released, ?_, fun a => ?_⟩
  · rw [ht, hs]
    simp only [List.filterMap_append, List.length_append, List.append_assoc, Nat.add_assoc]
  · rw [hparked' a, hparked a, List.filter_append, List.filterMap_append, List.append_assoc]

end Rerouted

/-- A live parcel that may wait for a way goes to a neighbour, or back to its own queue. -/
theorem Seeks.releaseOrDrop (h : r.Seeks a p) (hlive : p.isExpired r.now = false) :
    ∃ released,
      (∃ target frame, r.retry? p = some (.sent ⟨r.now, target, frame, p.outlet, p.origin⟩) ∧
        r.releaseOrDrop .unicast p =
          ({ r with released } : Router α).emit target frame p.outlet p.origin) ∨
      ∃ q, r.retry? p = some (.returned q) ∧
        r.releaseOrDrop .unicast p = ({ r with released } : Router α).enqueue .unicast a q := by
  obtain ⟨q, u, is_unicast, hdecode, rfl, -, hdecision⟩ := h.release?
  rw [retry?_of_live hlive, release?_of_unicast r .unicast is_unicast hdecode, Option.bind_some]
  unfold Router.releaseOrDrop Release.retry?
  rw [releaseOne_of_unicast r .unicast is_unicast hdecode]
  dsimp only
  rcases hdecision with ⟨nextHop, hdecision⟩ | hdecision
  · rw [hdecision]
    exact ⟨_, .inl ⟨_, _, rfl, rfl⟩⟩
  · rw [hdecision]
    exact ⟨_, .inr ⟨_, rfl, rfl⟩⟩

omit [Scalar α] in
/-- A queue with room for a parcel gives up none. -/
theorem enqueue_of_room {kind : QueueKind}
    (hroom : (r.queues.queue kind a).length < r.queues.capacity kind) :
    r.enqueue kind a p = { r with
      queues := (r.queues.enqueue kind a p).2
      stats := { r.stats with packetsQueued := r.stats.packetsQueued + 1 } } := by
  have hfull : ¬ r.queues.capacity kind ≤ (r.queues.queue kind a).length := Nat.not_le.mpr hroom
  unfold Router.enqueue PacketQueues.enqueue PacketQueues.overflow
  dsimp only
  rw [decide_eq_false hfull, if_neg hfull, List.map_nil, List.append_nil]
  rfl

/-- One parcel is forwarded anew, where there is room for it to go back. -/
theorem releaseOrDrop_rerouted (h : r.Seeks a p) (hlive : p.isExpired r.now = false)
    (hroom : (r.queues.queue .unicast a).length < r.queues.capacity .unicast) :
    Rerouted r [p] (r.releaseOrDrop .unicast p) := by
  have hgoal := h.goal?
  obtain ⟨released, ⟨target, frame, hretry, heq⟩ | ⟨q, hretry, heq⟩⟩ := h.releaseOrDrop hlive
  · have hsent : r.sent? p = some ⟨r.now, target, frame, p.outlet, p.origin⟩ :=
      sent?_of_retry hretry
    have hreturned : r.returned? p = none := returned?_of_retry hretry
    refine ⟨r.queues.unicast, released, ?_, fun b => ?_⟩
    · rw [heq, List.filterMap_cons_some hsent, List.filterMap_cons_none hreturned]
      rfl
    · have hnone : ([p].filter (Packet.goal? ·.frame = some b)).filterMap r.returned? = [] :=
        List.filterMap_eq_nil_iff.mpr fun q hq => by
          rw [List.mem_singleton.mp (List.mem_of_mem_filter hq), hreturned]
      rw [heq, hnone, List.append_nil]
      rfl
  · have hsent : r.sent? p = none := sent?_of_retry hretry
    have hreturned : r.returned? p = some q := returned?_of_retry hretry
    rw [enqueue_of_room (r := { r with released }) hroom] at heq
    refine ⟨(r.queues.enqueue .unicast a q).2.unicast, released, ?_, fun b => ?_⟩
    · rw [heq, List.filterMap_cons_none hsent, List.filterMap_cons_some hreturned,
        List.filterMap_nil, List.append_nil]
      rfl
    · rw [heq]
      show (r.queues.enqueue .unicast a q).2.queue .unicast b = _
      rw [r.queues.queue_enqueue (by decide)]
      -- it comes to the end of its own queue, and to no other
      by_cases hb : b = a
      · subst hb
        unfold PacketQueues.push
        rw [if_pos rfl, if_neg (Nat.not_le.mpr hroom),
          List.filter_cons_of_pos (by simpa using hgoal), List.filterMap_cons_some hreturned]
        rfl
      · rw [if_neg hb, List.filter_cons_of_neg (by simpa [hgoal] using Ne.symm hb)]
        exact (List.append_nil _).symm

/-- Parcels are forwarded anew, in order, where there is room for all of them to go back. -/
theorem release_rerouted {parcels : List Parcel}
    (hseeks : ∀ p ∈ parcels, ∃ a, r.Seeks a p) (hlive : ∀ p ∈ parcels, p.isExpired r.now = false)
    (hroom : ∀ a, (r.queues.queue .unicast a).length +
      (parcels.filter (Packet.goal? ·.frame = some a)).length ≤ r.queues.capacity .unicast) :
    Rerouted r parcels (r.release .unicast parcels) := by
  induction parcels generalizing r with
  | nil => exact .nil r
  | cons p rest ih =>
    obtain ⟨a, hp⟩ := hseeks p List.mem_cons_self
    have hgoal := hp.goal?
    have hone : Rerouted r [p] (r.releaseOrDrop .unicast p) := by
      refine releaseOrDrop_rerouted hp (hlive p List.mem_cons_self) ?_
      have hroom := hroom a
      rw [List.filter_cons_of_pos (by simpa using hgoal), List.length_cons] at hroom
      omega
    have halike := hone.alike
    refine hone.trans (ih (fun q hq => ?_) (fun q hq => ?_) fun b => ?_)
    · obtain ⟨b, hq⟩ := hseeks q (List.mem_cons_of_mem _ hq)
      exact ⟨b, hq.of_config halike.config⟩
    · rw [halike.now]
      exact hlive q (List.mem_cons_of_mem _ hq)
    · -- what has come back takes the room that was kept for it
      obtain ⟨_, _, hs, hparked⟩ := hone
      have hback := List.length_filterMap_le r.returned?
        ([p].filter (Packet.goal? ·.frame = some b))
      have hroom := hroom b
      rw [← List.singleton_append, List.filter_append, List.length_append] at hroom
      rw [hparked b, List.length_append]
      have hcapacity : (r.releaseOrDrop .unicast p).queues.capacity .unicast =
          r.queues.capacity .unicast := by
        rw [hs]
        rfl
      omega

/-- The frames for a station that a router has handed to the link since an earlier state. -/
def sentSince (r s : Router α) (a : Address) : List Emission :=
  (s.emissions.drop r.emissions.length).filter (Packet.goal? ·.frame = some a)

/-- What waits for a way to a destination is forwarded anew: each parcel comes to what befits it,
every one that had lapsed is given up and counted, those that are sent are sent in the order in
which they were taken out, and nothing else changes that is not a record of it: neither what waits
elsewhere nor what gave way in a full queue. To each station frames go in the order in which they
waited for it, and what goes back waits for it in that order. -/
structure Reruns (r s : Router α) : Prop where
  retries : ∀ a, ∀ p ∈ r.queues.queue .unicast a,
    ∃ retry, r.retry? p = some retry ∧ retry.Befits r.now a p
  whole : ∃ unicast released, s = { r with
    queues := { r.queues with unicast }
    released
    emissions := r.emissions ++ (r.queues.select .unicast none).filterMap r.sent?
    expired := r.expired ++ (r.queues.lapsed .unicast none r.now).map (Expiry.mk r.now .unicast)
    stats := { r.stats with
      packetsSent := r.stats.packetsSent +
        ((r.queues.select .unicast none).filterMap r.sent?).length
      packetsQueued := r.stats.packetsQueued +
        ((r.queues.select .unicast none).filterMap r.returned?).length
      packetsDropped := r.stats.packetsDropped +
        (r.queues.lapsed .unicast none r.now).length } }
  sent : ∀ a, r.sentSince s a = (r.queues.queue .unicast a).filterMap r.sent?
  parked : ∀ a, s.queues.queue .unicast a = (r.queues.queue .unicast a).filterMap r.returned?

/-- Of what lapsed, nothing is sent and nothing goes back. -/
theorem filterMap_ready {β : Type} (f : Retry → Option β) (hlapsed : f .lapsed = none)
    (parcels : List Parcel) :
    (parcels.filter fun p => !p.isExpired r.now).filterMap (fun p => (r.retry? p).bind f) =
      parcels.filterMap fun p => (r.retry? p).bind f := by
  rw [List.filterMap_filter]
  refine List.filterMap_congr fun p _ => ?_
  cases hgone : p.isExpired r.now with
  | true =>
    rw [retry?_of_expired hgone]
    exact hlapsed.symm
  | false => rfl

section Drained

variable (hseeks : ∀ a, ∀ p ∈ r.queues.queue .unicast a, r.Seeks a p)

include hseeks

omit [Scalar α] in
/-- Each parcel that is taken out is for the station that it waited for. -/
theorem seeks_of_select (hp : p ∈ r.queues.select .unicast none) : ∃ a, r.Seeks a p := by
  obtain ⟨a, ha⟩ := PacketQueues.mem_select hp
  exact ⟨a, hseeks a p ha⟩

omit [Scalar α] in
/-- What is taken out for a station is what was in its queue. -/
theorem filter_select (a : Address) :
    (r.queues.select .unicast none).filter (Packet.goal? ·.frame = some a) =
      r.queues.queue .unicast a :=
  AddressMap.filter_flatten_values (fun a p hp => (hseeks a p hp).goal?) a

omit [Scalar α] in
/-- Those for a station that are taken out live are those that waited for it live, in order. -/
theorem filter_ready (a : Address) :
    (r.queues.ready .unicast none r.now).filter (Packet.goal? ·.frame = some a) =
      (r.queues.queue .unicast a).filter fun p => !p.isExpired r.now := by
  rw [← filter_select hseeks a]
  exact List.filter_comm _ _ _

/-- Once the queues are empty, there is room for all that was in them. -/
theorem flushUnicast_rerouted
    (hroom : ∀ a, (r.queues.queue .unicast a).length ≤ r.queues.capacity .unicast) :
    Rerouted ({ r with queues := r.queues.drop .unicast none }.giveUp .unicast
      (r.queues.lapsed .unicast none r.now)) (r.queues.ready .unicast none r.now)
        r.flushUnicast := by
  refine release_rerouted (fun p hp => ?_) (fun p hp => ?_) fun a => ?_
  · obtain ⟨a, ha⟩ := seeks_of_select hseeks (List.mem_of_mem_filter hp)
    exact ⟨a, ha.of_config rfl⟩
  · show p.isExpired r.now = false
    simpa using (List.mem_filter.mp hp).2
  · rw [filter_ready hseeks a]
    refine Nat.le_trans ?_ (hroom a)
    show 0 + _ ≤ _
    rw [Nat.zero_add]
    exact List.length_filter_le _ _

/-- The frames for a station are those sent of what was in its queue. -/
theorem filter_sent (hkeyed : r.Keyed) (a : Address) :
    ((r.queues.select .unicast none).filterMap r.sent?).filter (Packet.goal? ·.frame = some a) =
      (r.queues.queue .unicast a).filterMap r.sent? := by
  rw [← filter_select hseeks a]
  refine filter_filterMap_key (fun p hp e he => ?_) (some a)
  obtain ⟨b, hb⟩ := seeks_of_select hseeks hp
  rw [hb.goal?_sent hkeyed he, hb.goal?]

/-- When all that waits for ways is taken out and forwarded anew, the order for each station is
kept. -/
theorem reruns_of_seeks (hkeyed : r.Keyed)
    (hroom : ∀ a, (r.queues.queue .unicast a).length ≤ r.queues.capacity .unicast) :
    Reruns r r.flushUnicast := by
  have halike : Alike r ({ r with queues := r.queues.drop .unicast none }.giveUp .unicast
      (r.queues.lapsed .unicast none r.now)) :=
    (drop_alike r (by decide)).trans (giveUp_alike _ _ _)
  obtain ⟨unicast, released, hflushed, hparked⟩ := flushUnicast_rerouted hseeks hroom
  -- neither taking parcels out nor giving some up changes what comes of the others
  rw [halike.sent?, halike.returned?] at hflushed
  rw [halike.returned?] at hparked
  have hsent : (r.queues.ready .unicast none r.now).filterMap r.sent? =
      (r.queues.select .unicast none).filterMap r.sent? := filterMap_ready Retry.emission? rfl _
  have hback : (r.queues.ready .unicast none r.now).filterMap r.returned? =
      (r.queues.select .unicast none).filterMap r.returned? := filterMap_ready Retry.parcel? rfl _
  rw [hsent, hback] at hflushed
  refine ⟨fun a p hp => (hseeks a p hp).befits hkeyed, ⟨unicast, released, hflushed⟩, ?_, ?_⟩
  · intro a
    have hnew : r.flushUnicast.emissions.drop r.emissions.length =
        (r.queues.select .unicast none).filterMap r.sent? := by
      rw [hflushed]
      exact List.drop_left
    unfold sentSince
    rw [hnew]
    exact filter_sent hseeks hkeyed a
  · intro a
    rw [hparked a, filter_ready hseeks a]
    exact filterMap_ready Retry.parcel? rfl _

end Drained

omit [Scalar α] in
/-- The same router, whose queues for stations stand in another order. -/
def inOrder (r : Router α) (unicast : AddressMap (List Parcel)) : Router α :=
  { r with queues := { r.queues with unicast } }

/-- In every state that a router passes through, and in whatever order its queues for stations come:
what waits for a way to its destination is forwarded anew without any loss but of what has lapsed,
and which frames go out for a station, and what waits for it then, in which order, does not depend
on the order of the queues. -/
theorem flushUnicast_reruns (h : Passing r) {unicast : AddressMap (List Parcel)}
    (hperm : unicast.toList.Perm r.queues.unicast.toList) :
    Reruns (r.inOrder unicast) (r.inOrder unicast).flushUnicast ∧
      ∀ a, r.sentSince (r.inOrder unicast).flushUnicast a = r.sentSince r.flushUnicast a ∧
        (r.inOrder unicast).flushUnicast.queues.queue .unicast a =
          r.flushUnicast.queues.queue .unicast a := by
  have hstowed := h.stowed
  -- what has been said of all queues together is of each queue alone, and these are the same
  have hqueue (a : Address) :
      (r.inOrder unicast).queues.queue .unicast a = r.queues.queue .unicast a :=
    congrArg (Option.getD · []) (AddressMap.get?_perm hperm a)
  have hcapacity := hstowed.within.capacity .unicast
  have hroom (a : Address) :
      (r.queues.queue .unicast a).length ≤ r.queues.capacity .unicast :=
    hcapacity ▸ hstowed.within.short .unicast a
  have hreruns : Reruns r r.flushUnicast :=
    reruns_of_seeks (fun a p hp => hstowed.seeks hp) hstowed.keyed hroom
  have hother : Reruns (r.inOrder unicast) (r.inOrder unicast).flushUnicast := by
    refine reruns_of_seeks (fun a p hp => ?_) hstowed.keyed fun a => ?_
    · rw [hqueue a] at hp
      exact (hstowed.seeks hp).of_config rfl
    · rw [hqueue a]
      exact hroom a
  refine ⟨hother, fun a => ⟨?_, ?_⟩⟩
  · rw [hreruns.sent a, ← hqueue a]
    exact hother.sent a
  · rw [hreruns.parked a, hother.parked a, hqueue a]
    rfl

/-- A neighbour ahead announces itself under a stamp that will only be seen after a while. Till then
packets are to be sent to two stations that were heard of over another one, one ahead and one
behind, and wait; and one of them may not wait for long. -/
def trialTwoWays : List Command :=
  [.receive (trialBeacon 11 101040 10000).encode,
    .receive (trialPacket 13 100000 20000).encode,
    .receive (trialPacket 14 100000 (-20000)).encode,
    .transmit { trialRequest 13 1 with trafficClass := ⟨128⟩ },
    .transmit { trialRequest 14 2 with trafficClass := ⟨128⟩ },
    .transmit { trialRequest 13 3 with trafficClass := ⟨128⟩, lifetimeMillis := some 50 },
    .advance 50]

/-- Whichever station comes first, of the packets for the one ahead one is sent and one is given up,
and the packet for the one behind waits on. -/
theorem flushUnicast_reruns_of_two :
    let r := (trialStarted trialGeometry trialConfig).run trialTwoWays
    let s := (r.inOrder r.queues.unicast.reverse).flushUnicast
    Passing r ∧ r.queues.unicast.keys = [trialStation 13, trialStation 14] ∧
      r.queues.unicast.reverse.toList.Perm r.queues.unicast.toList ∧
      Reruns (r.inOrder r.queues.unicast.reverse) s ∧
      (r.sentSince s (trialStation 13)).length = 1 ∧ s.expired.length = 1 ∧
      (s.queues.queue .unicast (trialStation 14)).length = 1 := by
  intro r s
  have hreach : Reachable r := (trialConfig_reachable trialGeometry).leads (leads_run _ _)
  have hperm := r.queues.unicast.reverse_perm
  have hreruns : Reruns (r.inOrder r.queues.unicast.reverse) s :=
    (flushUnicast_reruns hreach.passing hperm).1
  refine ⟨hreach.passing, ?_, hperm, hreruns, ?_, ?_, ?_⟩
  all_goals decide +kernel

end Router

end Geocast
