import Geocast.Proofs.Packet.Passed
import Geocast.Proofs.Queue.Stay
import Geocast.Proofs.Router.Frames
import Geocast.Proofs.Router.Waiting

/-!
# What the frames of a router carry

From the moment in which a router takes a packet over, the packet is a frame: on the link, in a
queue, on a timer, and decoded and written anew each time it comes out of a queue for one station.
`Laden` is what ties such a frame to its origin through all of that: it decodes to the packet of the
origin, no hop further. `Loaded` says so of every frame that a router holds or has sent, and
outlasts every move in which only packets of known origin begin their way (`Move.loaded`).
-/

namespace Geocast

/-- A frame carries the packet of an origin, of which something is known, and says itself how long
it may wait. -/
structure Laden (Q : Origin → Prop) (o : Origin) (frame : Bytes) (lifetime : Nat) : Prop where
  known : Q o
  carries : ∃ p q, Packet.decode o.frame = .ok p ∧ p.Passed 0 q ∧ q.Sendable ∧ frame = q.encode ∧
    lifetime = q.basic.lifetime.millis

theorem Laden.mono {Q Q' : Origin → Prop} {o : Origin} {frame : Bytes} {lifetime : Nat}
    (h : Laden Q o frame lifetime) (hsubset : ∀ o, Q o → Q' o) : Laden Q' o frame lifetime :=
  ⟨hsubset o h.known, h.carries⟩

/-- A packet that has just been taken over is carried as it is. -/
theorem Laden.of_packet {Q : Origin → Prop} {o : Origin} {p : Packet} (h : p.Sendable)
    (hframe : o.frame = p.encode) (hknown : Q o) :
    Laden Q o p.encode p.basic.lifetime.millis :=
  ⟨hknown, p, p, hframe ▸ Packet.decode_encode h, .refl p, h, rfl, rfl⟩

namespace Router

variable {α : Type}

/-! ## The table knows stations by their own address -/

/-- What a router passes on is the packet that came, with perhaps another place of its station. -/
theorem Keyed.passesOn {r : Router α} (h : Keyed r) {a : Arrival} {p : Packet}
    (hpasses : r.PassesOn a p) : a.packet.Passed 0 p := by
  rcases hpasses.packet with rfl | ⟨u, is_unicast, rfl⟩
  · exact .refl _
  · exact Packet.passed_withDestination is_unicast (h.refreshed u.destination false)

/-- A station is known by what was heard, or by an older vector of its own. -/
theorem Keyed.keptPosition {r : Router α} (h : Keyed r) (v : LongPosition) :
    (r.keptPosition v).address = v.address := by
  unfold Router.keptPosition
  cases hfind : r.table.find? v.address r.clock with
  | none => rfl
  | some e =>
    rw [Option.elim_some]
    unfold LocationTable.keptPosition
    split
    · rfl
    · exact h _ e ((LocationTable.find?_eq_some_iff _ _ _ _).mp hfind).1

/-! ## What is held and what was sent -/

/-- All frames that a router holds or has sent carry the packets of their origins, and something is
known of those. -/
structure Loaded (Q : Origin → Prop) (r : Router α) : Prop where
  held : ∀ p, r.Holds p → Laden Q p.origin p.frame p.lifetime
  sent : ∀ e ∈ r.emissions, ∃ lifetime, Laden Q e.origin e.frame lifetime

namespace Loaded

variable {Q Q' : Origin → Prop} {r s : Router α}

theorem mono (h : Loaded Q r) (hsubset : ∀ o, Q o → Q' o) : Loaded Q' r where
  held := fun p hp => (h.held p hp).mono hsubset
  sent := fun e he => (h.sent e he).imp fun _ hladen => hladen.mono hsubset

end Loaded

variable [Scalar α] {P : Router α → Packet → Prop} {Q : Origin → Prop} {r s : Router α}

/-! ## Frames that are forwarded anew -/

/-- What comes out of a queue is the same packet, with what is left of its lifetime and what is now
known of the place of its station. -/
theorem Keyed.onward_passed (hkeyed : Keyed r) {parcel : Parcel} {p : Packet}
    (hlifetime : p.basic.lifetime.millis = parcel.lifetime) {u : UnicastHeader}
    (is_unicast : p.extended = .unicast u) : p.Passed 0 (r.onward parcel p u is_unicast).1 := by
  have hless : (Lifetime.ofMillis (parcel.remaining r.now)).millis ≤ p.basic.lifetime.millis := by
    refine Nat.le_trans (Lifetime.millis_ofMillis_le _) ?_
    rw [hlifetime]
    exact Nat.sub_le _ _
  have haged := Packet.passed_withLifetime hless
  have hredirected := Packet.passed_withDestination
    (p := p.withLifetime (Lifetime.ofMillis (parcel.remaining r.now))) is_unicast
    (hkeyed.refreshed u.destination (isUnresolved u.destination))
  exact haged.trans hredirected

/-- A packet that is written anew with its destination brought up to date is still that packet. -/
theorem Laden.onward (hkeyed : Keyed r) {parcel : Parcel}
    (h : Laden Q parcel.origin parcel.frame parcel.lifetime) {p : Packet}
    (hdecode : Packet.decode parcel.frame = .ok p) {u : UnicastHeader}
    (is_unicast : p.extended = .unicast u) :
    Laden Q parcel.origin (r.onward parcel p u is_unicast).1.encode
      (r.onward parcel p u is_unicast).1.basic.lifetime.millis := by
  obtain ⟨hknown, p₀, q, horigin, hpassed, hsendable, hframe, hlifetime⟩ := h
  rw [hframe, Packet.decode_encode hsendable] at hdecode
  obtain rfl := Except.ok.inj hdecode
  exact ⟨hknown, p₀, _, horigin, hpassed.trans (hkeyed.onward_passed hlifetime.symm is_unicast),
    onward_sendable r parcel hsendable u is_unicast, rfl, rfl⟩

/-- Whatever sets out carries the packet of its origin, if what begins its way does so under a known
one. -/
theorem Loaded.setsOut (h : Loaded Q r) (hkeyed : Keyed r) {records : List Release}
    (hbegins : ∀ p handle, p.Sendable → P r p → Q { r.originNow p with handle }) {o : Outgoing}
    (hsets : r.SetsOut P records o) : Laden Q o.origin o.frame o.lifetime := by
  cases hsets with
  | begins outlet handle hsendable hp _ =>
    exact .of_packet hsendable rfl (hbegins _ handle hsendable hp)
  | anew is_unicast hlive hdecode =>
    exact Laden.onward hkeyed (h.held _ hlive.1) hdecode is_unicast

/-- What is known of all packets that begin their way is known of all frames. -/
theorem Loaded.conveys (h : Loaded Q r) (hkeyed : Keyed r) (hconveys : Conveys P r s)
    (hbegins : ∀ p handle, p.Sendable → P r p → Q { r.originNow p with handle }) :
    Loaded Q s where
  held := by
    intro p hp
    rcases hconveys.held hp with hp | ⟨o, ho, rfl⟩
    · exact h.held p hp
    · exact h.setsOut hkeyed hbegins ho
  sent := by
    intro e he
    rcases hconveys.sent e he with he | ⟨_, hleaves⟩
    · exact h.sent e he
    · generalize e.origin = origin at hleaves ⊢
      generalize e.frame = frame at hleaves ⊢
      cases hleaves with
      | setsOut ho => exact ⟨_, h.setsOut hkeyed hbegins ho⟩
      | asIs hlive => exact ⟨_, h.held _ hlive.1⟩

/-- No move files an entry under another address. -/
theorem Keyed.move (hmove : Move P r s) (h : Keyed r) (hfitted : Fitted r) : Keyed s := by
  intro b e he
  rcases hmove.entry hfitted he with he | rfl | ⟨a, rfl, hposition, _⟩
  · exact h b e he
  · rfl
  · rw [hposition]
    exact h.keptPosition a.source

/-- A move keeps the frames of a router what they should be, if the packets that begin their way in
it do so under known origins. -/
theorem Move.loaded (hmove : Move P r s) (h : Loaded Q r) (hkeyed : Keyed r)
    (hfitted : Fitted r)
    (hbegins : ∀ p handle, p.Sendable → P r p → Q { r.originNow p with handle }) :
    Loaded Q s := by
  cases hmove with
  | work hwork => exact h.conveys hkeyed hwork.conveys hbegins
  | hear hheard =>
    -- nothing begins its way, and what waited goes on with what the table has just learnt
    have hkeyed' : Keyed s := hkeyed.move (.hear (P := P) hheard) hfitted
    obtain ⟨table, htable, hconveys⟩ := hheard.conveys (P := fun _ _ => False)
    have hknown : Keyed { r with table } := htable ▸ hkeyed'
    exact Loaded.conveys (r := { r with table }) ⟨h.held, h.sent⟩ hknown hconveys
      fun _ _ _ hnone => hnone.elim

/-- Each frame counts as one arrival, whatever becomes of it. -/
theorem receive_arrivals (r : Router α) (frame : Bytes) :
    (r.receive frame).2.arrivals = r.arrivals + 1 := by
  obtain ⟨s, t, hbefore, hheard, hafter⟩ := receive_forms r frame
  have hsame : t.arrivals = s.arrivals := by
    rcases hheard with rfl | hheard
    · rfl
    · exact hheard.kept.2.1
  exact (hafter.alike.arrivals.trans hsame).trans hbefore.alike.arrivals

/-! ## Every reachable state -/

theorem Loaded.made {geometry : Geometry α} {config : Config α} {base : Timestamp}
    {position : Nat → Fix} {jitter : Nat → Nat}
    (h : make geometry config base position jitter = .ok r) : Loaded Q r := by
  have hnone := not_holds_of_make h
  obtain ⟨_, rfl⟩ := eq_of_make h
  constructor
  · exact fun p hp => absurd hp (hnone p)
  · exact fun e he => absurd he List.not_mem_nil

/-- In every reachable state entries stand under their addresses. -/
theorem Reachable.keyed (reach : Reachable r) : Keyed r := by
  refine reach.invariant_fitted (fun hmade => ?_) fun hmove hfitted h => h.move hmove hfitted
  obtain ⟨_, rfl⟩ := eq_of_make hmade
  exact fun _ _ he => absurd he (by simp [LocationTable.make, AddressMap.get?_empty])

/-- What holds of every router as it was made, and outlasts every move in which the table knows
stations by their own address, always holds. -/
theorem Reachable.invariant_keyed {I : Router α → Prop}
    (made : ∀ {geometry config base position jitter r},
      make geometry config base position jitter = .ok r → I r)
    (move : ∀ {P r s}, Move P r s → Fitted r → Keyed r → I r → I s) (reach : Reachable r) :
    I r := by
  have hboth : Keyed r ∧ I r := reach.invariant_fitted (I := fun r => Keyed r ∧ I r)
    (fun hmade => ⟨(Reachable.made hmade).keyed, made hmade⟩)
    fun hmove hfitted h => ⟨h.1.move hmove hfitted, move hmove hfitted h.1 h.2⟩
  exact hboth.2

/-- No frame is of a packet that was taken over after more frames had come in than have. -/
theorem Reachable.loaded (reach : Reachable r) : Loaded (·.arrival ≤ r.arrivals) r := by
  refine reach.invariant_keyed (I := fun r => Loaded (·.arrival ≤ r.arrivals) r)
    (fun hmade => .made hmade) fun hmove hfitted hkeyed h => ?_
  have hloaded := hmove.loaded h hkeyed hfitted fun _ _ _ _ => Nat.le_refl _
  exact hloaded.mono fun _ ho => Nat.le_trans ho hmove.forth.2

/-- A row of moves keeps the frames of a router what they should be. -/
theorem Loaded.moves (reach : Reachable r) (hmoves : Relation.ReflTransGen (Move P) r s)
    (h : Loaded Q r) (hbegins : ∀ m p handle, m.config = r.config → Keyed m → p.Sendable → P m p →
      Q { m.originNow p with handle }) : Loaded Q s := by
  have hall : Loaded Q s ∧ Fitted s ∧ Keyed s ∧ s.config = r.config := by
    induction hmoves with
    | refl => exact ⟨h, reach.orderly.fitted, reach.keyed, rfl⟩
    | @tail m t _ hmove ih =>
      obtain ⟨hloaded, hfitted, hkeyed, hconfig⟩ := ih
      exact ⟨hmove.loaded hloaded hkeyed hfitted
          fun p handle => hbegins m p handle hconfig hkeyed,
        hfitted.move hmove, hkeyed.move hmove hfitted, hmove.later.config.trans hconfig⟩
  exact hall.1

end Router

end Geocast
