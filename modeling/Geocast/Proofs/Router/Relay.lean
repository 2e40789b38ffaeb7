import Geocast.Proofs.Router.Flight
import Geocast.Proofs.Router.Traffic

/-!
# Where the packets of a router come from

Every frame that a router holds or has sent is of a packet that it was asked to send, that it took
over from a frame, or that it made for itself (`Reachable.accepted`), and the number under which a
frame came in tells what was taken over from it (`numbers_of_leads`). The packet that was received
and the one that is sent differ by a hop and by what the way does to a packet, whichever way it went:
at once, by a timer, or through any number of queues (`relayed_passed`).
-/

namespace Geocast.Router

variable {α : Type}

/-- A packet is the router's own, as it begins its way: with all the hops left that it may make. -/
structure Originates (r : Router α) (p : Packet) : Prop where
  source : ∃ v, p.source? = some v ∧ v.address = r.config.address
  full : p.basic.remainingHops = p.common.maxHops
  hops : p.basic.remainingHops ≠ 0

theorem Originates.of_config {r s : Router α} {p : Packet} (h : r.Originates p)
    (hconfig : s.config = r.config) : s.Originates p :=
  ⟨hconfig ▸ h.source, h.full, h.hops⟩

/-- A packet of another station that a router has taken over, under an origin, from a frame that it
received: the packet that was received is the same one hop before. -/
structure TookOver (r : Router α) (frame : Bytes) (o : Origin) (received p : Packet) : Prop where
  running : r.phase = .running
  decoded : Packet.decode frame = .ok received
  source : ∃ v, received.source? = some v ∧ v.address ≠ r.config.address
  time : o.time = r.now
  arrival : o.arrival = r.arrivals + 1
  passed : received.Passed 1 p
  lifetime : p.basic.lifetime = received.basic.lifetime
  numbered : p.sequence?.isSome = true
  hops : p.basic.remainingHops ≠ 0

/-- What begins its way upon a frame. -/
def Brings (r : Router α) (frame : Bytes) (o : Origin) (p : Packet) : Prop :=
  r.Originates p ∨ ∃ received, r.TookOver frame o received p

variable [Scalar α] {r s m : Router α}

/-- The router's own packets begin their way with all the hops of its settings. -/
theorem originates_of_own (reach : Reachable r) (hconfig : m.config = r.config) {p : Packet}
    (h : m.Own p) : r.Originates p where
  source := ⟨m.localPosition, h.source, congrArg Config.address hconfig⟩
  full := h.full
  hops := h.hops (hconfig ▸ reach.orderly.fitted.hops)

/-- Whatever begins its way upon a frame is the router's own or passed on, with what is now known of
its station. -/
theorem brings_of_upon (reach : Reachable r) (hconfig : m.config = r.config) (hkeyed : Keyed m)
    {frame : Bytes} {p : Packet} (h : r.Upon frame m p) (handle : Option Nat) :
    r.Brings frame { m.originNow p with handle } p := by
  rcases h with hown | ⟨a, hrunning, hjudge, hnow, harrivals, hpasses⟩
  · exact .inl (originates_of_own reach hconfig hown)
  · obtain ⟨received, hdecode, hsource, hother, hhops, hpacket⟩ := judge_ok hjudge
    have hrelayed : received.Passed 1 a.packet := hpacket ▸ Packet.passed_relayed hhops
    have honward : a.packet.Passed 0 p := hkeyed.passesOn hpasses
    have hlifetime : p.basic.lifetime = a.packet.basic.lifetime := by
      rcases hpasses.packet with rfl | ⟨u, is_unicast, rfl⟩ <;> rfl
    exact .inr ⟨received, {
      running := hrunning
      decoded := hdecode
      source := ⟨a.source, hsource, hother⟩
      time := hnow
      arrival := harrivals
      passed := hrelayed.trans honward
      lifetime := hlifetime.trans (congrArg (·.basic.lifetime) hpacket)
      numbered := honward.sequence? ▸ hpasses.numbered
      hops := honward.remainingHops_eq ▸ hpasses.hops }⟩

/-- A step keeps the frames of a router what they should be, if what begins its way in it is the
router's own or taken over under known origins. -/
theorem Loaded.step {Q : Origin → Prop} (reach : Reachable r) (hstep : Step r s) (h : Loaded Q r)
    (hbrings : ∀ o p, Packet.decode o.frame = .ok p →
      (r.Originates p ∨ ∃ frame received, s = (r.receive frame).2 ∧ r.TookOver frame o received p) →
      Q o) : Loaded Q s := by
  refine h.moves reach hstep.moves fun m p handle hconfig hkeyed hsendable hp => ?_
  refine hbrings _ p (Packet.decode_encode hsendable) ?_
  rcases hp with hown | ⟨frame, heq, hupon⟩
  · exact .inl (originates_of_own reach hconfig hown)
  · rcases brings_of_upon reach hconfig hkeyed hupon handle with hown | ⟨received, htook⟩
    · exact .inl hown
    · exact .inr ⟨frame, received, heq, htook⟩

/-! ## Every frame is of an own packet or of one that was received -/

/-- How a router came by a packet that it holds or has sent under an origin, and with which lifetime:
it was asked to send it, it took it over from a frame, or it made it for itself. -/
inductive Accepted (s : Router α) (o : Origin) : Lifetime → Prop
  | transmitted {r : Router α} {q : Request} {p : Packet} :
      Reachable r → Leads (r.transmit q).2 s → Packet.decode o.frame = .ok p → o.time = r.now →
      r.Originates p → p.basic.lifetime = (r.draft q).lifetime → p.payload = q.payload →
      Accepted s o (r.draft q).lifetime
  | received {r : Router α} {frame : Bytes} {received p : Packet} :
      Reachable r → Leads (r.receive frame).2 s → Packet.decode o.frame = .ok p →
      r.TookOver frame o received p → Accepted s o received.basic.lifetime
  | made {r : Router α} {action : Action} {p : Packet} :
      Reachable r → Leads (r.act action) s → Packet.decode o.frame = .ok p →
      r.now ≤ o.time → o.time ≤ (r.act action).now → r.Originates p →
      (∀ q, action ≠ .transmit q) → Accepted s o p.basic.lifetime

/-- How a router came by a packet does not change later. -/
theorem Accepted.step {r : Router α} {o : Origin} {lifetime : Lifetime}
    (h : r.Accepted o lifetime) (hstep : Step r s) : s.Accepted o lifetime := by
  cases h with
  | transmitted reach hleads hdecode htime hown hlifetime hpayload =>
    exact .transmitted reach (hleads.tail hstep) hdecode htime hown hlifetime hpayload
  | received reach hleads hdecode htook => exact .received reach (hleads.tail hstep) hdecode htook
  | made reach hleads hdecode hsince huntil hown hother =>
    exact .made reach (hleads.tail hstep) hdecode hsince huntil hown hother

/-- A packet begins its way with the lifetime with which it was accepted. -/
theorem Accepted.lifetime_eq {o : Origin} {lifetime : Lifetime} (h : s.Accepted o lifetime)
    {p : Packet} (hdecode : Packet.decode o.frame = .ok p) : p.basic.lifetime = lifetime := by
  cases h with
  | transmitted _ _ hdecode' _ _ hlifetime _ =>
    obtain rfl := Except.ok.inj (hdecode.symm.trans hdecode')
    exact hlifetime
  | received _ _ hdecode' htook =>
    obtain rfl := Except.ok.inj (hdecode.symm.trans hdecode')
    exact htook.lifetime
  | made _ _ hdecode' _ _ _ _ =>
    obtain rfl := Except.ok.inj (hdecode.symm.trans hdecode')
    rfl

/-- What begins its way in an action is accepted in it. -/
theorem accepted_of_draws (reach : Reachable r) (hconfig : m.config = r.config)
    (hkeyed : Keyed m) {action : Action} {p : Packet} (hsendable : p.Sendable)
    (hdraws : r.Draws action m p) (hsince : r.now ≤ m.now) (huntil : m.now ≤ (r.act action).now)
    (handle : Option Nat) :
    ∃ lifetime, (r.act action).Accepted { m.originNow p with handle } lifetime := by
  have hdecode : Packet.decode p.encode = .ok p := Packet.decode_encode hsendable
  have hmade (hown : m.Own p) (hother : ∀ q, action ≠ .transmit q) :
      ∃ lifetime, (r.act action).Accepted { m.originNow p with handle } lifetime :=
    ⟨_, .made reach .refl hdecode hsince huntil (originates_of_own reach hconfig hown) hother⟩
  cases action with
  | receive frame =>
    rcases brings_of_upon reach hconfig hkeyed hdraws handle with hown | ⟨received, htook⟩
    · exact ⟨_, .made reach .refl hdecode hsince huntil hown (by simp)⟩
    · exact ⟨_, .received reach .refl hdecode htook⟩
  | transmit q =>
    -- a request takes no time
    have hsame : (r.transmit q).2.now = r.now := (transmit_flight r q).1.1
    have htime : m.now = r.now := Nat.le_antisymm (hsame ▸ huntil) hsince
    exact ⟨_, .transmitted reach .refl hdecode htime (originates_of_own reach hconfig hdraws.toOwn)
      hdraws.lifetime hdraws.payload⟩
  | start => exact hmade hdraws (by simp)
  | stop => exact hmade hdraws (by simp)
  | beacon => exact hmade hdraws (by simp)
  | reposition position => exact hmade hdraws (by simp)
  | clearStats => exact hmade hdraws (by simp)
  | settle => exact hmade hdraws (by simp)
  | tick => exact hmade hdraws (by simp)
  | wake key => exact hmade hdraws (by simp)

/-- Every frame that a router holds or has sent is of a packet that it accepted. -/
theorem Reachable.accepted (reach : Reachable s) :
    Loaded (fun o => ∃ lifetime, s.Accepted o lifetime) s := by
  induction reach with
  | made hmade => exact .made hmade
  | @step r s reach hstep ih =>
    have hbefore : Loaded (fun o => ∃ lifetime, s.Accepted o lifetime) r :=
      ih.mono fun o => .imp fun _ h => h.step hstep
    obtain ⟨action, rfl⟩ := (step_iff r s).mp hstep
    exact hbefore.moves reach (moves_within (act_moves r action))
      fun m p handle hconfig hkeyed hsendable hp =>
        accepted_of_draws reach hconfig hkeyed hsendable hp.1 hp.2.1 hp.2.2 handle

/-- A router received a frame on its way to a state, and took over the packet of it. -/
def Took (s : Router α) (o : Origin) (p : Packet) : Prop :=
  ∃ (r : Router α) (frame : Bytes) (received : Packet), Reachable r ∧
    Leads (r.receive frame).2 s ∧ r.TookOver frame o received p

/-- An origin is of an own packet or of one that was received. -/
def Whence (s : Router α) (o : Origin) : Prop :=
  ∃ p, Packet.decode o.frame = .ok p ∧ (s.Originates p ∨ s.Took o p)

/-- Every packet that it came by is its own or was received. -/
theorem Accepted.whence {o : Origin} {lifetime : Lifetime} (h : s.Accepted o lifetime) :
    s.Whence o := by
  cases h with
  | @transmitted r q p _ hleads hdecode _ hown _ _ =>
    have hconfig := (Leads.later (.head (.transmit r q) hleads)).config
    exact ⟨p, hdecode, .inl (hown.of_config hconfig)⟩
  | received reach hleads hdecode htook => exact ⟨_, hdecode, .inr ⟨_, _, _, reach, hleads, htook⟩⟩
  | @made r action p _ hleads hdecode _ _ hown _ =>
    have hstep : Step r (r.act action) := step_act r action
    have hconfig := (Leads.later (.head hstep hleads)).config
    exact ⟨p, hdecode, .inl (hown.of_config hconfig)⟩

/-- So it is for all that it holds or has sent. -/
theorem Reachable.whence (reach : Reachable s) : Loaded s.Whence s :=
  reach.accepted.mono fun _ ⟨_, h⟩ => h.whence

/-- What a sent frame is, by its origin: the packet of the origin, no hop further, and the router's
own or one that it took over. -/
theorem Reachable.sent (reach : Reachable s) {e : Emission} (he : e ∈ s.emissions) :
    ∃ p q, Packet.decode e.origin.frame = .ok p ∧ p.Passed 0 q ∧ q.Sendable ∧
      e.frame = q.encode ∧ (s.Originates p ∨ s.Took e.origin p) := by
  obtain ⟨_, ⟨p', horigin', hwhence⟩, p, q, horigin, hpassed, hsendable, hframe, _⟩ :=
    reach.whence.sent e he
  obtain rfl := Except.ok.inj (horigin.symm.trans horigin')
  exact ⟨p, q, horigin, hpassed, hsendable, hframe, hwhence⟩

/-! ## The number of a frame tells what was taken over from it -/

/-- An origin under the number of a frame is of an own packet or of the one in that frame. -/
def Numbers (r : Router α) (frame : Bytes) (o : Origin) : Prop :=
  o.arrival = r.arrivals + 1 → ∀ p, Packet.decode o.frame = .ok p → r.Brings frame o p

/-- Under the number of the frame that came in last there is no packet of another frame. -/
theorem receive_numbers (reach : Reachable r) (frame : Bytes) :
    Loaded (r.Numbers frame) (r.receive frame).2 := by
  -- nothing that was there before has the number of the frame
  have hbefore : Loaded (r.Numbers frame) r := reach.loaded.mono fun o ho harrival => by
    rw [harrival] at ho
    exact absurd ho (Nat.not_succ_le_self _)
  refine hbefore.moves reach (receive_moves r frame) fun m p handle hconfig hkeyed hsendable hp => ?_
  intro _ p' hdecode
  obtain rfl := Except.ok.inj ((Packet.decode_encode hsendable).symm.trans hdecode)
  exact brings_of_upon reach hconfig hkeyed hp handle

/-- Nor does one come under it later. -/
theorem numbers_of_leads (reach : Reachable r) {frame : Bytes}
    (hleads : Leads (r.receive frame).2 s) : Loaded (r.Numbers frame) s := by
  induction hleads with
  | refl => exact receive_numbers reach frame
  | @tail m s hbefore hstep ih =>
    have reach' : Reachable (r.receive frame).2 := .step reach (.receive r frame)
    have hconfig : m.config = r.config := (Leads.later (.head (.receive r frame) hbefore)).config
    refine ih.step (reach'.leads hbefore) hstep fun o p hdecode hbrings harrival p' hdecode' => ?_
    obtain rfl := Except.ok.inj (hdecode.symm.trans hdecode')
    rcases hbrings with hown | ⟨_, _, _, htook⟩
    · exact .inl (hown.of_config hconfig.symm)
    · -- whatever is taken over later has a later number
      have hlater := Leads.arrivals_le hbefore
      have hnumber := htook.arrival
      rw [receive_arrivals] at hlater
      omega

/-- In every state that a router can come to, each frame that it has handed to the link decodes. If
another station is the source, its packet came in a frame on the way to that state; and whichever
frame it was that came in under that number, the router took its packet over, and the one that is
sent is the one received, one hop further on. -/
theorem relayed_passed (reach : Reachable s) {e : Emission} (he : e ∈ s.emissions) :
    ∃ q v, Packet.decode e.frame = .ok q ∧ q.source? = some v ∧
      (v.address ≠ s.config.address →
        (∃ (r : Router α) (frame : Bytes), Reachable r ∧ Leads (r.receive frame).2 s ∧
          e.origin.arrival = r.arrivals + 1) ∧
        ∀ (r : Router α) (frame : Bytes), Reachable r → Leads (r.receive frame).2 s →
          e.origin.arrival = r.arrivals + 1 →
          r.phase = .running ∧ r.now = e.origin.time ∧
            ∃ received, Packet.decode frame = .ok received ∧ received.Passed 1 q) := by
  obtain ⟨p, q, horigin, hpassed, hsendable, hframe, hwhence⟩ := reach.sent he
  obtain ⟨v, hsource⟩ : ∃ v, p.source? = some v := by
    rcases hwhence with hown | ⟨_, _, _, _, _, htook⟩
    · exact hown.source.imp fun _ => And.left
    · exact htook.passed.source? ▸ htook.source.imp fun _ => And.left
  have hforeign (hother : v.address ≠ s.config.address) : ¬ s.Originates p := by
    rintro ⟨⟨v', hsource', hhome⟩, _, _⟩
    obtain rfl := Option.some.inj (hsource.symm.trans hsource')
    exact hother hhome
  refine ⟨q, v, hframe ▸ Packet.decode_encode hsendable, hpassed.source?.trans hsource,
    fun hother => ⟨?_, ?_⟩⟩
  · obtain ⟨r, frame, _, hreach, hleads, htook⟩ := hwhence.resolve_left (hforeign hother)
    exact ⟨r, frame, hreach, hleads, htook.arrival⟩
  · intro r frame hreach hleads harrival
    obtain ⟨_, hladen⟩ := (numbers_of_leads hreach hleads).sent e he
    have hconfig : s.config = r.config := (Leads.later (.head (.receive r frame) hleads)).config
    -- the frame that has this number is the one that the packet was taken over from
    obtain ⟨received, htook⟩ := (hladen.known harrival p horigin).resolve_left fun hown =>
      hforeign hother (hown.of_config hconfig)
    exact ⟨htook.running, htook.time.symm, received, htook.decoded, htook.passed.trans hpassed⟩

/-- A router to try things on, once it has relayed a packet for everybody within some hops. -/
def trialRelayed : Router Float :=
  ((trialStarted trialGeometry trialConfig).receive (trialPacket 11 100000 10000).encode).2

/-- Such a router can come to be. -/
theorem trialRelayed_reachable : Reachable trialRelayed :=
  (trialConfig_reachable trialGeometry).step (.receive _ _)

/-- What it has sent. -/
def trialEmission : Emission where
  time := 0
  target := .broadcast
  frame := (trialPacket 11 100000 10000).relayed.encode
  origin := { arrival := 1, frame := (trialPacket 11 100000 10000).relayed.encode }

theorem trialEmission_mem : trialEmission ∈ trialRelayed.emissions := by decide +kernel

/-- The packet can be read back from the frame that was sent. -/
theorem decode_trialEmission :
    Packet.decode trialEmission.frame = .ok (trialPacket 11 100000 10000).relayed :=
  Packet.decode_encode
    ((Packet.sendable_of_decode (decode_trialPacket 11 100000 10000)).relayed (by decide))

/-- It goes out again with a hop less. -/
theorem relayed_passed_of_topological :
    ∃ e ∈ trialRelayed.emissions, ∃ q, Packet.decode e.frame = .ok q ∧
      (trialPacket 11 100000 10000).Passed 1 q := by
  obtain ⟨q, v, hdecode, hsource, hrelayed⟩ := relayed_passed trialRelayed_reachable trialEmission_mem
  have hother : v.address ≠ trialRelayed.config.address := by
    obtain rfl := Except.ok.inj (decode_trialEmission.symm.trans hdecode)
    obtain rfl := Option.some.inj hsource
    decide +kernel
  obtain ⟨_, _, received, hreceived, hpassed⟩ :=
    (hrelayed hother).2 (trialStarted trialGeometry trialConfig)
      (trialPacket 11 100000 10000).encode (trialConfig_reachable trialGeometry) .refl rfl
  obtain rfl := Except.ok.inj ((decode_trialPacket 11 100000 10000).symm.trans hreceived)
  exact ⟨trialEmission, trialEmission_mem, q, hdecode, hpassed⟩

end Geocast.Router
