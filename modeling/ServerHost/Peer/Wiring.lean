import ServerHost.Peer.Links
import ServerHost.Peer.System

/-!
# How peers and their relay are connected

Everything that a peer hears from the relay was sent to a connection of its own, and what
arrives on an accepted link was written by the peer that dialled it.  So each party of a
run is in a run of its own (`run_relay`, `run_sensible`), and what is known of those holds
here too.
-/

namespace ServerHost

namespace PeerSystem

variable {ι : Type*} {platform : Platform} {platforms : ι → Platform}
variable {system : PeerSystem ι} {action : Action ι} {trace : List (PeerSystem ι × Action ι)}

/-! ## How the parties are connected -/

/-- One clock, and connections with two ends. -/
structure Wired (system : PeerSystem ι) : Prop where
  clock : ∀ own, (system.peers own).now = system.relay.now
  epoch : 0 ≤ system.relay.now
  owners : ∀ socket own, system.owner socket = some own → socket < system.relay.sockets
  lines : ∀ own socket, system.line own = some socket → system.owner socket = some own
  down : ∀ socket, ∀ message ∈ system.down socket,
    .sent socket message ∈ RelayServer.events system.relay.log
  callers : ∀ host number own socket, system.caller host number = some (own, socket) →
    number < (system.peers host).sockets ∧ system.callee own socket = some (host, number)
  callees : ∀ own socket place, system.callee own socket = some place →
    socket < (system.peers own).sockets

/-! ## What a step does to the parties -/

theorem nextRelay_of_none (h : system.relayStep action = none) :
    system.nextRelay platform action = system.relay := by
  rw [nextRelay, h]
  rfl

theorem nextRelay_of_some {step : RelayServer.Step} (h : system.relayStep action = some step) :
    system.nextRelay platform action = RelayServer.next platform system.relay step := by
  rw [nextRelay, h]
  rfl

theorem nextRelay_grows (platform : Platform) (system : PeerSystem ι) (action : Action ι) :
    ∃ new, (system.nextRelay platform action).log = new ++ system.relay.log := by
  cases hstep : system.relayStep action with
  | none => exact ⟨[], by rw [nextRelay_of_none hstep]; rfl⟩
  | some step =>
      rw [nextRelay_of_some hstep]
      exact RelayServer.log_grows_of_next platform system.relay step

theorem mem_nextRelay {event : RelayServer.Event}
    (h : event ∈ RelayServer.events system.relay.log) :
    event ∈ RelayServer.events (system.nextRelay platform action).log := by
  obtain ⟨new, hlog⟩ := nextRelay_grows platform system action
  rw [hlog, RelayServer.mem_events_append]
  exact .inr h

theorem nextRelay_sockets (h : system.Admissible action) :
    system.relay.sockets ≤ (system.nextRelay platform action).sockets := by
  cases hstep : system.relayStep action with
  | none => exact (congrArg RelayServer.sockets (nextRelay_of_none hstep)).ge
  | some step =>
      rw [nextRelay_of_some hstep]
      exact RelayServer.sockets_le_of_next (relayStep_timely h hstep).1

theorem kind_of_sent (hrouted : RelayServer.Routed platform system.relay) {socket : Socket}
    {sent : RelayServer.Outgoing}
    (hsent : .sent socket sent ∈ RelayServer.events system.relay.log) :
    messageType sent.json = sent.kind := by
  refine RelayServer.messageType_json fun other subject id status data heq => ?_
  subst heq
  exact hrouted.untyped _ _ _ _ _ _ hsent

theorem upLeft_sublist (system : PeerSystem ι) (action : Action ι) (socket : Socket) :
    (system.upLeft action socket).Sublist (system.up socket) := by
  unfold upLeft
  split
  · split
    · exact List.nil_sublist _
    · exact .refl _
  · split
    · exact List.tail_sublist _
    · exact .refl _
  · exact .refl _

theorem downLeft_sublist (system : PeerSystem ι) (action : Action ι) (socket : Socket) :
    (system.downLeft action socket).Sublist (system.down socket) := by
  unfold downLeft
  split
  · split
    · exact List.nil_sublist _
    · exact .refl _
  · split
    · exact List.tail_sublist _
    · exact .refl _
  · exact .refl _

variable [DecidableEq ι]

theorem nextPeer_of_none {own : ι} (h : system.peerStep own action = none) :
    system.nextPeer platforms action own = system.peers own := by
  rw [nextPeer, h]
  rfl

theorem nextPeer_of_some {own : ι} {step : Peer.Step} (h : system.peerStep own action = some step) :
    system.nextPeer platforms action own = Peer.next (platforms own) (system.peers own) step := by
  rw [nextPeer, h]
  rfl

theorem nextPeer_grows (platforms : ι → Platform) (system : PeerSystem ι) (action : Action ι)
    (own : ι) :
    ∃ new, (system.nextPeer platforms action own).log = new ++ (system.peers own).log := by
  cases hstep : system.peerStep own action with
  | none => exact ⟨[], by rw [nextPeer_of_none hstep]; rfl⟩
  | some step =>
      rw [nextPeer_of_some hstep]
      exact peer_grows (platforms own) (system.peers own) step

theorem nextPeer_sockets (own : ι) :
    (system.peers own).sockets ≤ (system.nextPeer platforms action own).sockets := by
  cases hstep : system.peerStep own action with
  | none => exact (congrArg Peer.sockets (nextPeer_of_none hstep)).ge
  | some step =>
      rw [nextPeer_of_some hstep]
      exact Peer.sockets_le_of_next _ _ _

theorem roadLeft_sublist (system : PeerSystem ι) (action : Action ι) (own : ι)
    (socket : Socket) :
    (system.roadLeft action own socket).Sublist (system.road own socket) := by
  unfold roadLeft
  split
  · split
    · exact List.nil_sublist _
    · exact .refl _
  · split
    · exact List.tail_sublist _
    · exact .refl _
  · exact .refl _

/-- A turn of a peer besides the clock. -/
theorem peerStep_input {own : ι} {step : Peer.Step} (h : system.Admissible action)
    (hclock : ∀ time world, action ≠ .clock time world)
    (hstep : system.peerStep own action = some step) (time : ℤ) : step.input ≠ .clock time := by
  cases action with
  | clock time world => exact absurd rfl (hclock time world)
  | peer acting given =>
      simp only [peerStep, Option.ite_none_right_eq_some, Option.some.injEq] at hstep
      obtain ⟨-, rfl⟩ := hstep
      exact h.1 time
  | down acting world =>
      simp only [peerStep, Option.ite_none_right_eq_some, Option.bind_eq_bind,
        Option.bind_eq_some_iff] at hstep
      obtain ⟨-, socket, -, message, -, hstep⟩ := hstep
      obtain rfl := Option.some.inj hstep
      simp
  | accept acting socket host world =>
      simp only [peerStep, Option.ite_none_right_eq_some, Option.some.injEq] at hstep
      obtain ⟨-, rfl⟩ := hstep
      simp
  | cross acting socket world =>
      simp only [peerStep, Option.ite_none_right_eq_some, Option.map_eq_some_iff] at hstep
      obtain ⟨-, message, -, rfl⟩ := hstep
      simp
  | relay | dial | up => cases hstep

/-! ## The wiring under a step -/

/-- All clocks show the same. -/
theorem Wired.clocks (platform : Platform) (platforms : ι → Platform) (h : Wired system)
    (hadmissible : system.Admissible action) :
    (∀ own, (system.nextPeer platforms action own).now = (system.nextRelay platform action).now) ∧
      system.relay.now ≤ (system.nextRelay platform action).now := by
  -- the clock steps once for all; between its steps no clock moves
  by_cases hclock : ∃ time world, action = .clock time world
  · obtain ⟨time, world, rfl⟩ := hclock
    exact ⟨fun own => rfl, hadmissible⟩
  push Not at hclock
  have hrelay : (system.nextRelay platform action).now = system.relay.now := by
    cases hstep : system.relayStep action with
    | none => rw [nextRelay_of_none hstep]
    | some step =>
        rw [nextRelay_of_some hstep]
        refine RelayServer.now_of_next (relayStep_timely hadmissible hstep).1 fun time => ?_
        cases action with
        | clock time world => exact absurd rfl (hclock time world)
        | relay own =>
            obtain rfl := Option.some.inj hstep
            exact hadmissible.2.1 time
        | dial own =>
            obtain rfl := Option.some.inj hstep
            simp
        | up socket full =>
            simp only [relayStep, Option.map_eq_some_iff] at hstep
            obtain ⟨message, -, rfl⟩ := hstep
            simp
        | peer | down | accept | cross => cases hstep
  refine ⟨fun own => ?_, hrelay.ge⟩
  rw [hrelay, ← h.clock own]
  cases hstep : system.peerStep own action with
  | none => rw [nextPeer_of_none hstep]
  | some step =>
      rw [nextPeer_of_some hstep]
      exact Peer.now_of_next (peerStep_input hadmissible hclock hstep)

/-- A connection keeps its owner. -/
theorem Wired.owner_next (h : Wired system) {socket : Socket} {own : ι}
    (howner : system.owner socket = some own) :
    (system.next platform platforms action).owner socket = some own := by
  cases action with
  | dial acting =>
      change (if socket = system.relay.sockets then some acting else system.owner socket) = some own
      rw [if_neg (h.owners socket own howner).ne, howner]
  | _ => exact howner

/-- Only a new connection gets an owner. -/
theorem owner_of_next {socket : Socket} {own : ι}
    (h : (system.next platform platforms action).owner socket = some own) :
    system.owner socket = some own ∨ socket = system.relay.sockets ∧ action = .dial own := by
  cases action with
  | dial acting =>
      change (if socket = system.relay.sockets then some acting else system.owner socket) =
        some own at h
      split at h
      · next hsocket => exact .inr ⟨hsocket, by rw [Option.some.inj h]⟩
      · exact .inl h
  | _ => exact .inl h

/-- Only a link that is being accepted gets another end. -/
theorem caller_of_next {host own : ι} {number socket : Socket}
    (h : (system.next platform platforms action).caller host number = some (own, socket)) :
    system.caller host number = some (own, socket) ∨
      ∃ world, action = .accept own socket host world ∧ number = (system.peers host).sockets := by
  cases action with
  | accept acting dialled accepting world =>
      change (if host = accepting ∧ number = (system.peers accepting).sockets then
        some (acting, dialled) else system.caller host number) = some (own, socket) at h
      split at h
      · next hnew =>
          obtain ⟨rfl, rfl⟩ := hnew
          obtain ⟨rfl, rfl⟩ := Prod.mk.inj (Option.some.inj h)
          exact .inr ⟨world, rfl, rfl⟩
      · exact .inl h
  | _ => exact .inl h

theorem Wired.next (h : Wired system) (hadmissible : system.Admissible action)
    (hattached : ∀ own, ∀ socket ∈ (system.peers own).attached,
      socket < (system.peers own).sockets) :
    Wired (system.next platform platforms action) := by
  obtain ⟨hclock, hlater⟩ := h.clocks platform platforms hadmissible
  have hsockets : ∀ own, (system.peers own).sockets ≤
      (system.nextPeer platforms action own).sockets := nextPeer_sockets
  refine ⟨hclock, h.epoch.trans hlater, fun socket own howned => ?_, fun own socket hline => ?_,
    fun socket message hmessage => ?_, fun host number own socket hcaller => ?_,
    fun own socket place hcallee => ?_⟩
  case refine_1 =>
    -- Owners: `dial` gives the next number of the relay to the peer that dials.
    cases action with
    | dial acting =>
        change (if socket = system.relay.sockets then some acting else system.owner socket) =
          some own at howned
        change socket < (RelayServer.newConnection system.relay).sockets
        rw [RelayServer.newConnection_sockets]
        split at howned
        · next hsocket => exact hsocket.le.trans_lt (Nat.lt_succ_self _)
        · exact (h.owners socket own howned).trans (Nat.lt_succ_self _)
    | _ => exact (h.owners socket own howned).trans_le (nextRelay_sockets hadmissible)
  case refine_2 =>
    -- Lines: a peer holds a connection that it owns.
    simp only [PeerSystem.next] at hline
    split at hline
    · cases hline
    cases action with
    | dial acting =>
        dsimp only at hline
        split at hline
        · next hsame =>
            obtain rfl := Option.some.inj hline
            subst hsame
            exact if_pos rfl
        · exact h.owner_next (h.lines own socket hline)
    | _ => exact h.lines own socket hline
  case refine_3 =>
    -- What is under way was sent by the relay, now or before.
    change message ∈ system.downLeft action socket ++ _ at hmessage
    rcases List.mem_append.1 hmessage with hold | hnew
    · exact mem_nextRelay (h.down socket message
        ((downLeft_sublist system action socket).subset hold))
    · exact RelayServer.sent_of_told hnew
  case refine_4 =>
    -- Callers and callees are written together, by `accept`.
    cases action with
    | accept acting dialled accepting world =>
        obtain ⟨hserver, hdialled, -, hfree⟩ := hadmissible
        change (if host = accepting ∧ number = (system.peers accepting).sockets then
          some (acting, dialled) else system.caller host number) = some (own, socket) at hcaller
        change number < _ ∧ (if own = acting ∧ socket = dialled then
          some (accepting, (system.peers accepting).sockets) else system.callee own socket) =
            some (host, number)
        split at hcaller
        · next hnew =>
            obtain ⟨rfl, rfl⟩ := hnew
            obtain ⟨rfl, rfl⟩ := Prod.mk.inj (Option.some.inj hcaller)
            refine ⟨?_, if_pos ⟨rfl, rfl⟩⟩
            change _ < (system.nextPeer platforms _ host).sockets
            have hstep : system.peerStep host (.accept acting dialled host world) =
                some ⟨.newConnection, world⟩ := if_pos rfl
            rw [nextPeer_of_some hstep]
            change _ < (Peer.newConnection (system.peers host)).sockets
            rw [Peer.newConnection_sockets hserver]
            exact Nat.lt_succ_self _
        · obtain ⟨hnumber, hcallee⟩ := h.callers host number own socket hcaller
          refine ⟨hnumber.trans_le (hsockets host), ?_⟩
          rw [if_neg, hcallee]
          rintro ⟨rfl, rfl⟩
          rw [hfree] at hcallee
          cases hcallee
    | _ =>
        obtain ⟨hnumber, hcallee⟩ := h.callers host number own socket hcaller
        exact ⟨hnumber.trans_le (hsockets host), hcallee⟩
  case refine_5 =>
    -- A link that was dialled has a number below the peer's next one.
    refine lt_of_lt_of_le ?_ (hsockets own)
    cases action with
    | accept acting dialled accepting world =>
        change (if own = acting ∧ socket = dialled then
          some (accepting, (system.peers accepting).sockets) else system.callee own socket) =
            some place at hcallee
        split at hcallee
        · next hnew =>
            obtain ⟨rfl, rfl⟩ := hnew
            exact hattached _ _ hadmissible.2.1
        · exact h.callees own socket place hcallee
    | _ => exact h.callees own socket place hcallee

/-! ## The run -/

/-- The parties of a run are connected. -/
theorem run_wired (run : (machine platform platforms).Run Admissible trace system) :
    Wired system := by
  induction run with
  | start hinit =>
      obtain ⟨time, hepoch, rfl⟩ := hinit
      exact ⟨fun _ => rfl, hepoch, by simp, by simp, by simp, by simp, by simp⟩
  | step run hadmissible ih =>
      exact ih.next hadmissible fun own => (Peer.run_ticketed (run_peer run own)).below

/-- What a peer hears from the relay was sent to a connection of its own. -/
theorem heard_of_peerStep {own : ι} {step : Peer.Step} {message : JsonObject} (h : Wired system)
    (hadmissible : system.Admissible action) (hstep : system.peerStep own action = some step)
    (hinput : step.input = .relayText message) : ∃ socket sent rest world,
      action = .down own world ∧ system.line own = some socket ∧
      system.down socket = sent :: rest ∧ system.owner socket = some own ∧
      .sent socket sent ∈ RelayServer.events system.relay.log ∧ message = sent.json := by
  cases action with
  | clock time world =>
      obtain rfl := Option.some.inj hstep
      cases hinput
  | peer acting given =>
      simp only [peerStep, Option.ite_none_right_eq_some, Option.some.injEq] at hstep
      obtain ⟨-, rfl⟩ := hstep
      -- a peer's own input is no message of the relay
      exact absurd hinput (hadmissible.2.1 message)
  | down acting world =>
      simp only [peerStep, Option.ite_none_right_eq_some, Option.bind_eq_bind,
        Option.bind_eq_some_iff] at hstep
      obtain ⟨rfl, socket, hline, sent, hhead, hstep⟩ := hstep
      obtain rfl := Option.some.inj hstep
      cases hinput
      obtain ⟨rest, hrest⟩ := List.head?_eq_some_iff.1 hhead
      exact ⟨socket, sent, rest, world, rfl, hline, hrest, h.lines _ socket hline,
        h.down socket sent (hrest ▸ List.mem_cons_self), rfl⟩
  | accept acting socket host world =>
      simp only [peerStep, Option.ite_none_right_eq_some, Option.some.injEq] at hstep
      obtain ⟨-, rfl⟩ := hstep
      cases hinput
  | cross acting socket world =>
      simp only [peerStep, Option.ite_none_right_eq_some, Option.map_eq_some_iff] at hstep
      obtain ⟨-, sent, -, rfl⟩ := hstep
      cases hinput
  | relay | dial | up => cases hstep

/-- What arrives on an accepted link was written at the other end. -/
theorem crossed_of_peerStep {own : ι} {step : Peer.Step} {socket : Socket} {message : JsonObject}
    {place : ι × Socket} (hcaller : system.caller own socket = some place)
    (hadmissible : system.Admissible action) (hstep : system.peerStep own action = some step)
    (hinput : step.input = .linkText socket message) : ∃ rest world,
      action = .cross own socket world ∧ system.road own socket = message :: rest := by
  cases action with
  | clock time world =>
      obtain rfl := Option.some.inj hstep
      cases hinput
  | peer acting given =>
      simp only [peerStep, Option.ite_none_right_eq_some, Option.some.injEq] at hstep
      obtain ⟨rfl, rfl⟩ := hstep
      -- a peer takes no input on a wired link but what crosses it
      have hnone := hadmissible.2.2.2 socket message hinput
      rw [far, hcaller, Option.some_or] at hnone
      cases hnone
  | down acting world =>
      simp only [peerStep, Option.ite_none_right_eq_some, Option.bind_eq_bind,
        Option.bind_eq_some_iff] at hstep
      obtain ⟨rfl, number, -, sent, -, hstep⟩ := hstep
      obtain rfl := Option.some.inj hstep
      cases hinput
  | accept acting number host world =>
      simp only [peerStep, Option.ite_none_right_eq_some, Option.some.injEq] at hstep
      obtain ⟨-, rfl⟩ := hstep
      cases hinput
  | cross acting number world =>
      simp only [peerStep, Option.ite_none_right_eq_some, Option.map_eq_some_iff] at hstep
      obtain ⟨rfl, sent, hhead, rfl⟩ := hstep
      cases hinput
      obtain ⟨rest, hrest⟩ := List.head?_eq_some_iff.1 hhead
      exact ⟨rest, world, rfl, hrest⟩
  | relay | dial | up => cases hstep

/-- The relay of a run keeps its routes and names. -/
theorem run_kept (run : (machine platform platforms).Run Admissible trace system) :
    RelayServer.Routed platform system.relay ∧ RelayServer.Listing system.relay := by
  have hrun := (run_relay run).mono fun _ _ (htimely : RelayServer.Timely _ _) => htimely.1
  exact ⟨RelayServer.run_routed hrun, RelayServer.run_listed hrun⟩

/-- A peer of the system hears of no host without a name. -/
theorem peerStep_sensible {own : ι} {step : Peer.Step} (h : Wired system)
    (hrouted : RelayServer.Routed platform system.relay) (hnamed : RelayServer.Listing system.relay)
    (hadmissible : system.Admissible action) (hstep : system.peerStep own action = some step) :
    Peer.Sensible (system.peers own) step := by
  intro message hinput htype entry hentry
  obtain ⟨socket, sent, rest, world, -, -, -, -, hsent, rfl⟩ :=
    heard_of_peerStep h hadmissible hstep hinput
  rw [kind_of_sent hrouted hsent] at htype
  cases sent with
  | peers entries =>
      have hjson : ((RelayServer.Outgoing.peers entries).json.value "peers").toArray =
          entries.map fun own => own.2.json := rfl
      rw [hjson] at hentry
      obtain ⟨listed, hlisted, rfl⟩ := List.mem_map.1 hentry
      obtain ⟨id, hid, hvalue⟩ := hnamed.listed socket entries hsent listed hlisted
      rw [JsonObject.json_toObject, hvalue]
      exact decide_eq_false (identifier_ne_empty hid)
  | _ => exact absurd htype (by simp [RelayServer.Outgoing.kind])

/-- **Every peer of a run is in a run of its own**, in which it hears of no host without a
name. -/
theorem run_sensible (run : (machine platform platforms).Run Admissible trace system) (own : ι) :
    (Peer.machine (platforms own)).Run Peer.Sensible (peerTrace own trace) (system.peers own) := by
  induction run with
  | start hinit =>
      obtain ⟨time, -, rfl⟩ := hinit
      exact .start ⟨time, rfl⟩
  | @step trace system action run hadmissible ih =>
      obtain ⟨hrouted, hnamed⟩ := run_kept run
      change (Peer.machine (platforms own)).Run Peer.Sensible _
        (system.nextPeer platforms action own)
      cases hstep : system.peerStep own action with
      | none =>
          rw [nextPeer_of_none hstep, peerTrace_none hstep]
          exact ih
      | some step =>
          rw [nextPeer_of_some hstep, peerTrace_some hstep]
          exact ih.step (peerStep_sensible (run_wired run) hrouted hnamed hadmissible hstep)

end PeerSystem

end ServerHost
