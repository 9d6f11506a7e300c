import Mathlib.Data.Set.Subsingleton
import ServerHost.Peer.Wiring

/-!
# No request is replayed

A request leaves its peer once, over one channel.  From there it is passed on, and each
party passes on what it was given once: the relay under the name of a new route, the other
end of a link at once.  So no handler is called twice for it.

## Strategy

One inequality for each leg of the way says that what is on the leg and what has left it
are no more than what was put on it.

* `Upward`: a request on its way to the relay, and the routes it got, are no more than the
  messages its peer sent.  This is counted for one connection and for any two.
* `Downward`: a route is on its way to its host, or its host was called for it, once.
* `Across`: a request on a link, and the calls of the other end, are no more than the
  messages the peer sent over that link.
-/

namespace ServerHost

namespace RelayServer

/-- The request of the client under this id got a route. -/
def Event.routes (client : Socket) (id : String) : Event → Bool
  | .routed _ own _ ownId => own = client && ownId = id
  | _ => false

/-- The message is the request of a route. -/
def Outgoing.requests (route : String) : Outgoing → Bool
  | .request _ own _ _ => own = route
  | _ => false

theorem countP_events_append (P : Event → Bool) (new log : List Entry) :
    (events (new ++ log)).countP P = (events new).countP P + (events log).countP P :=
  countP_map_append Entry.event new log

theorem countP_events_eq_zero {P : Event → Bool} {log : List Entry}
    (h : ∀ entry ∈ log, P entry.event = false) : (events log).countP P = 0 :=
  countP_map_eq_zero h

theorem Event.routes_of_ordinary {event : Event} (h : event.ordinary = true) (client : Socket)
    (id : String) : event.routes client id = false := by
  cases event <;> first | rfl | cases h

/-- A socket that is to come has no routes. -/
theorem Routed.countP_routes {platform : Platform} {relay : RelayServer}
    (h : Routed platform relay) {socket : Socket} (hsocket : relay.sockets ≤ socket) (id : String) :
    (events relay.log).countP (Event.routes socket id) = 0 := by
  refine List.countP_eq_zero.2 fun event hmem hroutes => ?_
  cases event with
  | routed route client host own =>
      simp only [Event.routes, Bool.and_eq_true, decide_eq_true_eq] at hroutes
      exact absurd (h.known _ _ _ _ hmem) (hroutes.1 ▸ hsocket.not_gt)
  | _ => cases hroutes

/-- The event sends the request of a route to this socket. -/
def Event.passes (socket : Socket) (route : String) (event : Event) : Bool :=
  (event.over socket).any (Outgoing.requests route)

theorem Event.passes_of_ordinary {event : Event} (h : event.ordinary = true) (socket : Socket)
    (route : String) : event.passes socket route = false := by
  unfold passes Event.over
  cases event with
  | sent own message =>
      dsimp only
      split
      · cases message <;> first | rfl | cases h
      · rfl
  | _ => rfl

theorem countP_told {relay after : RelayServer} {new : List Entry}
    (hlog : after.log = new ++ relay.log) (socket : Socket) (route : String) :
    (relay.told socket after).countP (Outgoing.requests route) =
      (events new).countP (Event.passes socket route) := by
  rw [told_eq hlog, List.countP_reverse, List.countP_filterMap, events, List.countP_map]
  refine List.countP_congr fun entry _ => ?_
  rw [Function.comp_apply, Event.passes]
  cases entry.event.over socket <;> simp

/-- A turn sends no request of an old route, and one of a new route at most. -/
theorem Routed.told_requests {platform : Platform} {relay : RelayServer} {step : Step}
    (h : Routed platform relay) {route id : String} {client target : Socket}
    (hmem : .routed route client target id ∈ events (RelayServer.next platform relay step).log)
    (socket : Socket) :
    (.routed route client target id ∈ events relay.log ∧
        (relay.told socket (RelayServer.next platform relay step)).countP
          (Outgoing.requests route) = 0) ∨
      ((∀ client target id, .routed route client target id ∉ events relay.log) ∧
        (relay.told socket (RelayServer.next platform relay step)).countP
          (Outgoing.requests route) ≤ 1) := by
  -- A turn routes at most one request; every other turn leaves the routes alone.
  rcases next_routing platform relay step with hordinary | @⟨own, host, message, hroutes⟩
  · refine .inl ⟨(mem_of_ordinary hordinary rfl).1 hmem, ?_⟩
    obtain ⟨new, hlog, hnew⟩ := hordinary
    rw [countP_told hlog]
    exact countP_events_eq_zero fun entry hentry => Event.passes_of_ordinary (hnew entry hentry) _ _
  obtain ⟨new, hlog, hnew⟩ := hroutes.log
  have htold : (relay.told socket (RelayServer.next platform relay step)).countP
      (Outgoing.requests route) =
      (events new).countP (Event.passes socket route) := by
    have hsplit := hlog.trans (List.append_cons new _ relay.log)
    rw [countP_told hsplit, countP_events_append]
    exact Nat.add_zero _
  rw [htold]
  -- The turn routed one. Either it is the request asked about, or an older one.
  by_cases hroute : route = platform.uuid relay.uuids
  · refine .inr ⟨fun _ _ _ => hroute ▸ h.fresh, ?_⟩
    rcases hnew with rfl | hall
    · exact List.countP_le_length
    · exact (countP_events_eq_zero fun entry hentry =>
        Event.passes_of_ordinary (hall entry hentry) _ _).trans_le zero_le_one
  · have hquiet : ∀ entry ∈ new, entry.event.passes socket route = false ∧
        entry.event ≠ .routed route client target id := by
      intro entry hentry
      rcases hnew with rfl | hall
      · obtain rfl := List.mem_singleton.1 hentry
        refine ⟨?_, by simp⟩
        unfold Event.passes Event.over
        dsimp only
        split
        · exact decide_eq_false (Ne.symm hroute)
        · rfl
      · refine ⟨Event.passes_of_ordinary (hall entry hentry) _ _, fun heq => ?_⟩
        have hplain := hall entry hentry
        rw [heq] at hplain
        cases hplain
    refine .inl ⟨?_, countP_events_eq_zero fun entry hentry => (hquiet entry hentry).1⟩
    rw [hlog, mem_events_append, events_cons, List.mem_cons] at hmem
    rcases hmem with hmem | heq | hmem
    · obtain ⟨entry, hentry, heq⟩ := List.mem_map.1 hmem
      exact absurd heq (hquiet entry hentry).2
    · exact absurd (Event.routed.inj heq).1 hroute
    · exact hmem

end RelayServer

namespace Peer

/-- The event sends the request over this channel. -/
def Event.sendsOver (channel : Channel) (id : String) (event : Event) : Bool :=
  (event.over channel).any (asks id)

theorem Event.sends_of_sendsOver {event : Event} {channel : Channel} {id : String}
    (h : event.sendsOver channel id = true) : event.sends id = true := by
  unfold sendsOver Event.over at h
  cases event with
  | sent own message =>
      dsimp only at h
      split at h
      · exact h
      · cases h
  | _ => cases h

/-- What is sent over two channels is sent. -/
theorem countP_sendsOver {first second : Channel} (hne : first ≠ second) (id : String)
    (events : List Event) : events.countP (Event.sendsOver first id) +
      events.countP (Event.sendsOver second id) ≤ events.countP (Event.sends id) := by
  have hapart : ∀ event : Event, event.sendsOver first id = true →
      event.sendsOver second id = false := by
    intro event hfirst
    cases event with
    | sent own message =>
        simp only [Event.sendsOver, Event.over] at hfirst ⊢
        split at hfirst
        · next hown => rw [if_neg (hown ▸ hne), Option.any_none]
        · cases hfirst
    | _ => rfl
  induction events with
  | nil => exact le_rfl
  | cons event rest ih =>
      simp only [List.countP_cons]
      by_cases hfirst : event.sendsOver first id = true
      · rw [if_pos hfirst, if_neg (by rw [hapart event hfirst]; exact Bool.false_ne_true),
          if_pos (Event.sends_of_sendsOver hfirst)]
        omega
      · rw [if_neg hfirst]
        by_cases hsecond : event.sendsOver second id = true
        · rw [if_pos hsecond, if_pos (Event.sends_of_sendsOver hsecond)]
          omega
        · rw [if_neg hsecond]
          omega

/-- The event calls the handler for a request that came over this channel. -/
def Event.serves (channel : Channel) (id : String) : Event → Bool
  | .handled own name _ _ => own = channel && name = id
  | _ => false

theorem countP_events_append (P : Event → Bool) (new log : List Entry) :
    (events (new ++ log)).countP P = (events new).countP P + (events log).countP P :=
  countP_map_append Entry.event new log

theorem countP_events_eq_zero {P : Event → Bool} {log : List Entry}
    (h : ∀ entry ∈ log, P entry.event = false) : (events log).countP P = 0 :=
  countP_map_eq_zero h

end Peer

namespace PeerSystem

variable {ι : Type*} {platform : Platform} {platforms : ι → Platform}
variable {system : PeerSystem ι} {action : Action ι} {trace : List (PeerSystem ι × Action ι)}
variable {own host : ι} {id : String}

/-- How often a peer sent a request over a channel. -/
def sentOver (system : PeerSystem ι) (own : ι) (channel : Peer.Channel) (id : String) : ℕ :=
  (Peer.events (system.peers own).log).countP (Peer.Event.sendsOver channel id)

/-- How often a handler was called for a request of a channel. -/
def calls (system : PeerSystem ι) (host : ι) (channel : Peer.Channel) (id : String) : ℕ :=
  (Peer.events (system.peers host).log).countP (Peer.Event.serves channel id)

/-- The request on its way over a connection of the relay, and the routes it got. -/
def upLoad (system : PeerSystem ι) (id : String) (socket : Socket) : ℕ :=
  (system.up socket).countP (Peer.asks id) +
    (RelayServer.events system.relay.log).countP (RelayServer.Event.routes socket id)

/-- The request of a route on its way to a host. -/
def downLoad (system : PeerSystem ι) (route : String) (socket : Socket) : ℕ :=
  (system.down socket).countP (RelayServer.Outgoing.requests route)

/-! ## What a turn adds -/

/-- The routes of a client after a turn. -/
theorem routes_next (platform : Platform) (id : String) (hadmissible : system.Admissible action)
    {socket : Socket}
    (howner : system.owner socket = some own) :
    (system.upLeft action socket).countP (Peer.asks id) +
        (RelayServer.events (system.nextRelay platform action).log).countP
          (RelayServer.Event.routes socket id) ≤ system.upLoad id socket := by
  have hleft : (system.upLeft action socket).countP (Peer.asks id) ≤
      (system.up socket).countP (Peer.asks id) := (upLeft_sublist system action socket).countP_le
  cases hstep : system.relayStep action with
  | none =>
      rw [nextRelay_of_none hstep]
      exact Nat.add_le_add_right hleft _
  | some step =>
      rw [nextRelay_of_some hstep]
      rcases RelayServer.next_routing platform system.relay step with ⟨new, hlog, hnew⟩ |
        @⟨client, target, message, hroutes⟩
      · rw [hlog, RelayServer.countP_events_append, RelayServer.countP_events_eq_zero
          fun entry hentry => RelayServer.Event.routes_of_ordinary (hnew entry hentry) _ _,
            zero_add]
        exact Nat.add_le_add_right hleft _
      · obtain ⟨new, hlog, hnew⟩ := hroutes.log
        have hzero : (RelayServer.events new).countP (RelayServer.Event.routes socket id) = 0 := by
          refine RelayServer.countP_events_eq_zero fun entry hentry => ?_
          rcases hnew with rfl | hall
          · obtain rfl := List.mem_singleton.1 hentry
            rfl
          · exact RelayServer.Event.routes_of_ordinary (hall entry hentry) _ _
        rw [hlog, RelayServer.countP_events_append, hzero, zero_add, RelayServer.events_cons,
          List.countP_cons]
        by_cases hclient : client = socket
        · subst hclient
          -- The message left the connection when it got its route.
          have htaken : system.up client = message :: system.upLeft action client := by
            cases action with
            | relay given =>
                obtain rfl := Option.some.inj hstep
                rw [hadmissible.2.2 client message hroutes.input] at howner
                cases howner
            | up acting full =>
                simp only [relayStep, Option.map_eq_some_iff] at hstep
                obtain ⟨sent, hhead, rfl⟩ := hstep
                have hinput := hroutes.input
                cases hinput
                obtain ⟨rest, hrest⟩ := List.head?_eq_some_iff.1 hhead
                rw [upLeft, if_pos rfl, hrest, List.tail_cons]
            | clock time world =>
                obtain rfl := Option.some.inj hstep
                exact absurd hroutes.input (by simp)
            | dial acting =>
                obtain rfl := Option.some.inj hstep
                exact absurd hroutes.input (by simp)
            | peer | down | accept | cross => cases hstep
          rw [upLoad, htaken, List.countP_cons]
          have hasks : RelayServer.Event.routes client id
              (.routed (platform.uuid system.relay.uuids)
              client target (message.value "id").toString) = Peer.asks id message := by
            simp [RelayServer.Event.routes, Peer.asks, hroutes.typed]
          rw [hasks]
          omega
        · have hother : RelayServer.Event.routes socket id (.routed
              (platform.uuid system.relay.uuids) client target (message.value "id").toString) =
              false := by
            simp [RelayServer.Event.routes, hclient]
          rw [hother]
          exact Nat.add_le_add_right hleft _

/-- What the relay sends in a turn, of the requests of a route. -/
theorem told_of_routed (hrouted : RelayServer.Routed platform system.relay) {route ownId : String}
    {client target : Socket} (hmem : .routed route client target ownId ∈
      RelayServer.events (system.nextRelay platform action).log) (socket : Socket) :
    (.routed route client target ownId ∈ RelayServer.events system.relay.log ∧
        (system.relay.told socket (system.nextRelay platform action)).countP
          (RelayServer.Outgoing.requests route) = 0) ∨
      ((∀ client target ownId, .routed route client target ownId ∉
          RelayServer.events system.relay.log) ∧
        (system.relay.told socket (system.nextRelay platform action)).countP
          (RelayServer.Outgoing.requests route) ≤ 1) := by
  cases hstep : system.relayStep action with
  | none =>
      rw [nextRelay_of_none hstep] at hmem ⊢
      refine .inl ⟨hmem, ?_⟩
      rw [RelayServer.told_eq (List.nil_append _).symm]
      rfl
  | some step =>
      rw [nextRelay_of_some hstep] at hmem ⊢
      exact hrouted.told_requests hmem socket

section
variable [DecidableEq ι]

/-- What a turn sends over a channel is added to what was sent. -/
theorem countP_told {peer after : Peer} (hlog : ∃ new, after.log = new ++ peer.log)
    (channel : Peer.Channel) (id : String) :
    (peer.told channel after).countP (Peer.asks id) +
        (Peer.events peer.log).countP (Peer.Event.sendsOver channel id) =
      (Peer.events after.log).countP (Peer.Event.sendsOver channel id) := by
  obtain ⟨new, hlog⟩ := hlog
  have hnew : (peer.told channel after).countP (Peer.asks id) =
      (Peer.events new).countP (Peer.Event.sendsOver channel id) := by
    rw [Peer.told_eq hlog, List.countP_reverse, List.countP_filterMap, Peer.events, List.countP_map]
    refine List.countP_congr fun entry _ => ?_
    rw [Function.comp_apply, Peer.Event.sendsOver]
    cases entry.event.over channel <;> simp
  rw [hnew, hlog, Peer.countP_events_append]

theorem sentOver_next (platform : Platform) (platforms : ι → Platform) (system : PeerSystem ι)
    (action : Action ι) (own : ι) (channel : Peer.Channel) (id : String) :
    ((system.peers own).told channel (system.nextPeer platforms action own)).countP (Peer.asks id) +
        system.sentOver own channel id =
      (system.next platform platforms action).sentOver own channel id :=
  countP_told (nextPeer_grows platforms system action own) channel id

/-- The turn calls the handler for a request of this channel. -/
def Called (system : PeerSystem ι) (action : Action ι) (host : ι) (channel : Peer.Channel)
    (id : String) : Prop :=
  ∃ step peerId, system.peerStep host action = some step ∧
    Peer.Serves (system.peers host) step id peerId channel

/-- A turn adds a call, or none. -/
theorem calls_next (platform : Platform) (platforms : ι → Platform) (system : PeerSystem ι)
    (action : Action ι) (host : ι) (channel : Peer.Channel) (id : String) :
    (system.next platform platforms action).calls host channel id =
        system.calls host channel id ∨
      Called system action host channel id ∧
        (system.next platform platforms action).calls host channel id =
          system.calls host channel id + 1 := by
  -- events that are no handler call leave the count as it was
  have hquiet : ∀ new : List Peer.Entry, (∀ entry ∈ new, entry.event.handles = false) →
      (Peer.events new).countP (Peer.Event.serves channel id) = 0 := by
    refine fun new hnew => Peer.countP_events_eq_zero fun entry hentry => ?_
    have hplain := hnew entry hentry
    generalize entry.event = event at hplain
    cases event <;> first | rfl | cases hplain
  change (Peer.events (system.nextPeer platforms action host).log).countP _ = _ ∨
    _ ∧ (Peer.events (system.nextPeer platforms action host).log).countP _ = _
  cases hstep : system.peerStep host action with
  | none =>
      rw [nextPeer_of_none hstep]
      exact .inl rfl
  | some step =>
      rw [nextPeer_of_some hstep]
      rcases Peer.next_handles (platforms host) (system.peers host) step with
        ⟨new, hlog, hnew⟩ | ⟨new, way, own, peerId, payload, hserves, hnew, hlog⟩
      · refine .inl ?_
        rw [hlog, Peer.countP_events_append, hquiet new hnew, zero_add]
        rfl
      · rw [hlog, Peer.countP_events_append, hquiet new hnew, zero_add, Peer.events_cons]
        by_cases hsame : way = channel ∧ own = id
        · obtain ⟨rfl, rfl⟩ := hsame
          exact .inr ⟨⟨step, peerId, hstep, hserves⟩,
            List.countP_cons_of_pos (by simp [Peer.Event.serves])⟩
        · exact .inl (List.countP_cons_of_neg (by simpa [Peer.Event.serves] using hsame))

/-! ## From the peer to the relay -/

/-- What a peer put on its connections is no less than what is there and what came of it. -/
structure Upward (system : PeerSystem ι) (own : ι) (id : String) : Prop where
  each : ∀ socket, system.owner socket = some own →
    system.upLoad id socket ≤ system.sentOver own .relay id
  apart : ∀ first second, system.owner first = some own → system.owner second = some own →
    first ≠ second → system.upLoad id first + system.upLoad id second ≤
      system.sentOver own .relay id

theorem Upward.next (h : Upward system own id) (hwired : Wired system)
    (hrouted : RelayServer.Routed platform system.relay) (hadmissible : system.Admissible action) :
    Upward (system.next platform platforms action) own id := by
  have hsent := sentOver_next platform platforms system action own .relay id
  set told := ((system.peers own).told .relay (system.nextPeer platforms action own)).countP
    (Peer.asks id) with htold
  -- A socket that has an owner now had it before, or is new.
  have hload : ∀ socket, (system.next platform platforms action).owner socket = some own →
      (system.owner socket = some own ∧
        (system.next platform platforms action).upLoad id socket ≤ system.upLoad id socket +
          if system.line own = some socket then told else 0) ∨
      (system.next platform platforms action).upLoad id socket = 0 := by
    intro socket hnext
    by_cases howner : system.owner socket = some own
    · refine .inl ⟨howner, ?_⟩
      have hroutes := routes_next platform id hadmissible howner
      have hup : (system.next platform platforms action).up socket = system.upLeft action socket ++
          if system.line own = some socket then
            (system.peers own).told .relay (system.nextPeer platforms action own) else [] := by
        change system.upLeft action socket ++ _ = _
        rw [howner]
      rw [upLoad, hup, List.countP_append]
      change _ + _ + (RelayServer.events (system.nextRelay platform action).log).countP _ ≤ _
      split
      · omega
      · rw [List.countP_nil]
        omega
    · refine .inr ?_
      cases action with
      | dial acting =>
          change (if socket = system.relay.sockets then some acting else system.owner socket) =
            some own at hnext
          split at hnext
          · next hsocket =>
              have hnone : system.owner socket = none := by
                cases hother : system.owner socket with
                | none => rfl
                | some other => exact absurd (hwired.owners socket other hother) hsocket.not_lt
              have hup : (system.next platform platforms (.dial acting)).up socket = [] := by
                change system.upLeft (.dial acting) socket ++ _ = _
                rw [hnone, upLeft, if_pos hsocket]
                rfl
              obtain ⟨new, hnew, hordinary⟩ := RelayServer.newConnection_ordinary system.relay
              rw [upLoad, hup, List.countP_nil, zero_add]
              change (RelayServer.events (RelayServer.newConnection system.relay).log).countP _ = 0
              rw [hnew, RelayServer.countP_events_append, hrouted.countP_routes hsocket.ge,
                RelayServer.countP_events_eq_zero fun entry hentry =>
                  RelayServer.Event.routes_of_ordinary (hordinary entry hentry) _ _]
          · exact absurd hnext howner
      | _ => exact absurd hnext howner
  refine ⟨fun socket hsocket => ?_, fun first second hfirst hsecond hne => ?_⟩
  · rcases hload socket hsocket with ⟨howner, hle⟩ | hzero
    · have heach := h.each socket howner
      split at hle <;> omega
    · omega
  · rcases hload first hfirst with ⟨hfirst, hle⟩ | hzero <;>
      rcases hload second hsecond with ⟨hsecond, hle'⟩ | hzero'
    · have hapart := h.apart first second hfirst hsecond hne
      by_cases hline : system.line own = some first
      · rw [if_pos hline] at hle
        rw [if_neg fun hother => hne (Option.some.inj (hline.symm.trans hother))] at hle'
        omega
      · rw [if_neg hline] at hle
        split at hle' <;> omega
    · have heach := h.each first hfirst
      split at hle <;> omega
    · have heach := h.each second hsecond
      split at hle' <;> omega
    · omega

theorem run_upward (run : (machine platform platforms).Run Admissible trace system) (own : ι)
    (id : String) : Upward system own id := by
  induction run with
  | start hinit =>
      obtain ⟨time, -, rfl⟩ := hinit
      exact ⟨by simp, by simp⟩
  | @step trace system action run hadmissible ih =>
      exact ih.next (run_wired run) (run_kept run).1 hadmissible

/-! ## From the relay to the host -/

/-- A handler is called for a request of the relay only at the host of its route, once. -/
structure Downward (system : PeerSystem ι) : Prop where
  called : ∀ host route, system.calls host .relay route ≠ 0 →
    ∃ client target id, system.owner target = some host ∧
      .routed route client target id ∈ RelayServer.events system.relay.log
  once : ∀ route client target id host,
    .routed route client target id ∈ RelayServer.events system.relay.log →
    system.owner target = some host →
    system.downLoad route target + system.calls host .relay route ≤ 1

/-- The request that the handler is called for arrives with its route. -/
theorem route_of_called (hwired : Wired system)
    (hrouted : RelayServer.Routed platform system.relay) (hadmissible : system.Admissible action)
    {route : String} (h : Called system action host .relay route) :
    ∃ socket client ownId sent rest world, action = .down host world ∧
      system.line host = some socket ∧ system.down socket = sent :: rest ∧
      sent.requests route = true ∧ system.owner socket = some host ∧
      .routed route client socket ownId ∈ RelayServer.events system.relay.log := by
  obtain ⟨step, peerId, hstep, message, htold, hid, -⟩ := h
  obtain ⟨socket, sent, rest, world, haction, hline, hdown, howner, hsent, rfl⟩ :=
    heard_of_peerStep hwired hadmissible hstep htold.heard
  have hkind := (kind_of_sent hrouted hsent).symm.trans htold.typed
  cases sent with
  | request client own peerId payload =>
      obtain rfl : route = own := hid
      obtain ⟨ownId, hroute⟩ := hrouted.asked _ _ _ _ _ hsent
      exact ⟨socket, client, ownId, _, rest, world, haction, hline, hdown,
        by simp [RelayServer.Outgoing.requests], howner, hroute⟩
  | _ => exact absurd hkind (by simp [RelayServer.Outgoing.kind])

theorem Downward.next (h : Downward system) (hwired : Wired system)
    (hrouted : RelayServer.Routed platform system.relay) (hadmissible : system.Admissible action) :
    Downward (system.next platform platforms action) := by
  refine ⟨fun host route hcalls => ?_, fun route client target ownId host hroute howner => ?_⟩
  · obtain ⟨client, target, ownId, howner, hroute⟩ : ∃ client target id,
        system.owner target = some host ∧
          .routed route client target id ∈ RelayServer.events system.relay.log := by
      rcases calls_next platform platforms system action host .relay
        route with hsame | ⟨hcalled, -⟩
      · exact h.called host route (hsame ▸ hcalls)
      · obtain ⟨target, client, ownId, -, -, -, -, -, -, -, howner, hroute⟩ :=
          route_of_called hwired hrouted hadmissible hcalled
        exact ⟨client, target, ownId, howner, hroute⟩
    exact ⟨client, target, ownId, hwired.owner_next howner, mem_nextRelay hroute⟩
  have hload : (system.next platform platforms action).downLoad route target =
      (system.downLeft action target).countP (RelayServer.Outgoing.requests route) +
        (system.relay.told target (system.nextRelay platform action)).countP
          (RelayServer.Outgoing.requests route) := List.countP_append
  have hleft : (system.downLeft action target).countP (RelayServer.Outgoing.requests route) ≤
      system.downLoad route target := (downLeft_sublist system action target).countP_le
  -- The route is an old one, or this turn of the relay has just made it.
  rcases told_of_routed hrouted hroute target with ⟨hold, htold⟩ | ⟨hfresh, htold⟩
  · rcases owner_of_next howner with howner | ⟨hnew, rfl⟩
    · have honce := h.once route client target ownId host hold howner
      rcases calls_next platform platforms system action host .relay
        route with hsame | ⟨hcalled, hmore⟩
      · omega
      · -- The request that is handled has left the connection.
        obtain ⟨socket, other, otherId, sent, rest, world, rfl, hline, hdown, hsent, -, hother⟩ :=
          route_of_called hwired hrouted hadmissible hcalled
        obtain ⟨-, rfl, -⟩ := hrouted.single _ _ _ _ _ _ _ hold hother
        have htaken : (system.downLeft (.down host world) target).countP
            (RelayServer.Outgoing.requests route) + 1 = system.downLoad route target := by
          rw [downLeft, if_pos hline, downLoad, hdown, List.tail_cons,
            List.countP_cons_of_pos hsent]
        omega
    · -- No route leads to a connection that is new.
      have hcalls : system.calls host .relay route = 0 := by
        by_contra hcalls
        obtain ⟨other, socket, otherId, howner, hother⟩ := h.called host route hcalls
        obtain ⟨-, rfl, -⟩ := hrouted.single _ _ _ _ _ _ _ hold hother
        exact (hwired.owners _ _ howner).ne hnew
      have hnone : (system.downLeft (.dial host) target).countP
          (RelayServer.Outgoing.requests route) = 0 := by
        rw [downLeft, if_pos hnew, List.countP_nil]
      rcases calls_next platform platforms system (.dial host) host
        .relay route with hsame | ⟨⟨step, peerId, hstep, -⟩, -⟩
      · omega
      · cases hstep
  -- The route is new, so no call under it can have been made yet.
  · have hcalls : system.calls host .relay route = 0 := by
      by_contra hcalls
      obtain ⟨other, socket, otherId, -, hother⟩ := h.called host route hcalls
      exact hfresh _ _ _ hother
    have hnone : system.downLoad route target = 0 := by
      refine List.countP_eq_zero.2 fun message hmessage hrequests => ?_
      cases message with
      | request own name peerId payload =>
          obtain rfl : name = route := of_decide_eq_true hrequests
          obtain ⟨otherId, hother⟩ := hrouted.asked _ _ _ _ _ (hwired.down target _ hmessage)
          exact hfresh _ _ _ hother
      | _ => cases hrequests
    rcases calls_next platform platforms system action host .relay
      route with hsame | ⟨hcalled, -⟩
    · omega
    · obtain ⟨socket, other, otherId, -, -, -, -, -, -, -, -, hother⟩ :=
        route_of_called hwired hrouted hadmissible hcalled
      exact absurd hother (hfresh _ _ _)

theorem run_downward (run : (machine platform platforms).Run Admissible trace system) :
    Downward system := by
  induction run with
  | start hinit =>
      obtain ⟨time, -, rfl⟩ := hinit
      exact ⟨fun host route hcalls => absurd rfl hcalls, by simp [RelayServer.events]⟩
  | step run hadmissible ih => exact ih.next (run_wired run) (run_kept run).1 hadmissible

/-! ## Over a link -/

/-- A request on a link, and the calls of the end that accepted it, are no more than what the
other end sent over it. -/
structure Across (system : PeerSystem ι) : Prop where
  known : ∀ host number id, system.calls host (.link number) id ≠ 0 →
    number < (system.peers host).sockets
  once : ∀ host number own socket id, system.caller host number = some (own, socket) →
    (system.road host number).countP (Peer.asks id) + system.calls host (.link number) id ≤
      system.sentOver own (.link socket) id

/-- A handler is called only for a message of a link that is there. -/
theorem attached_of_called {number : Socket} (h : Called system action host (.link number) id) :
    number ∈ (system.peers host).attached := by
  obtain ⟨step, peerId, -, link, message, hheard, -⟩ := h
  exact hheard.attached

/-- What is on its way over an accepted link after a turn. -/
theorem road_next {number socket : Socket} (h : system.caller host number = some (own, socket)) :
    ((system.next platform platforms action).road host number).countP (Peer.asks id) =
      (system.roadLeft action host number).countP (Peer.asks id) +
        ((system.peers own).told (.link socket) (system.nextPeer platforms action own)).countP
          (Peer.asks id) := by
  have hfar : system.far host number = some (own, socket) := by
    rw [far, h, Option.some_or]
  have hroad : (system.next platform platforms action).road host number =
      system.roadLeft action host number ++
        (system.peers own).told (.link socket) (system.nextPeer platforms action own) := by
    change system.roadLeft action host number ++ _ = _
    rw [hfar]
  rw [hroad, List.countP_append]

theorem Across.next (h : Across system) (hwired : Wired system)
    (hadmissible : system.Admissible action)
    (hattached : ∀ own, ∀ socket ∈ (system.peers own).attached,
      socket < (system.peers own).sockets) :
    Across (system.next platform platforms action) := by
  refine ⟨fun host number id hcalls => ?_, fun host number own socket id hcaller => ?_⟩
  · have hknown : number < (system.peers host).sockets := by
      rcases calls_next platform platforms system action host
        (.link number) id with hsame | ⟨hcalled, -⟩
      · exact h.known host number id (hsame ▸ hcalls)
      · exact hattached host number (attached_of_called hcalled)
    exact hknown.trans_le (nextPeer_sockets host)
  have hsent := sentOver_next platform platforms system action own
    (.link socket) id
  have hcalls := calls_next platform platforms system action host
    (.link number) id
  -- The link existed before the turn, or this turn accepted it.
  rcases caller_of_next hcaller with hold | ⟨world, rfl, hnew⟩
  · have honce := h.once host number own socket id hold
    rw [road_next hold]
    have hleft := (roadLeft_sublist system action host number).countP_le (p := Peer.asks id)
    rcases hcalls with hsame | ⟨⟨step, peerId, hstep, link, message, hheard, htype, hid, -⟩, hmore⟩
    · omega
    · obtain ⟨rest, world, rfl, hroad⟩ := crossed_of_peerStep hold hadmissible hstep hheard.heard
      have htaken : (system.roadLeft (.cross host number world) host number).countP (Peer.asks id) +
          1 = (system.road host number).countP (Peer.asks id) := by
        rw [roadLeft, if_pos ⟨rfl, rfl⟩, hroad, List.tail_cons,
          List.countP_cons_of_pos (by simp [Peer.asks, htype, hid])]
      omega
  · -- Nothing was sent over the link before it was accepted.
    have hnone : system.calls host (.link number) id = 0 := by
      by_contra hcalls
      exact (h.known host number id hcalls).ne hnew
    have hroad : (system.next platform platforms (.accept own socket host world)).road host number =
        [] := by
      have hfar : system.far host number = none := by
        cases hplace : system.caller host number with
        | some place =>
            exact absurd (hwired.callers host number _ _ hplace).1 hnew.not_lt
        | none =>
            cases hother : system.callee host number with
            | some place => exact absurd (hwired.callees host number place hother) hnew.not_lt
            | none => rw [far, hplace, hother, Option.none_or]
      change system.roadLeft _ host number ++ _ = _
      rw [hfar, roadLeft, if_pos (.inl ⟨rfl, hnew⟩)]
      rfl
    rw [hroad, List.countP_nil]
    rcases hcalls with hsame | ⟨hcalled, -⟩
    · omega
    · exact absurd (hattached host number (attached_of_called hcalled)) hnew.not_lt

theorem run_across (run : (machine platform platforms).Run Admissible trace system) :
    Across system := by
  induction run with
  | start hinit =>
      obtain ⟨time, -, rfl⟩ := hinit
      exact ⟨fun host number id hcalls => absurd rfl hcalls, by simp⟩
  | step run hadmissible ih =>
      exact ih.next (run_wired run) hadmissible fun own =>
        (Peer.run_ticketed (run_peer run own)).below

end

/-! ## No request is replayed -/

/-- What a host got over a channel under this name is the request of the peer: it was given
the name by the relay, or it came over a link that the peer dialled. -/
def Carries (system : PeerSystem ι) (own : ι) (id : String) (host : ι) :
    Peer.Channel → String → Prop
  | .relay, name => ∃ client target, system.owner client = some own ∧
      .routed name client target id ∈ RelayServer.events system.relay.log
  | .link number, name => name = id ∧ ∃ socket, system.caller host number = some (own, socket)

/-- The calls of handlers for a request of a peer: whose handler it was, and the place in its
history. -/
def invocations (system : PeerSystem ι) (own : ι) (id : String) : Set (ι × ℕ) :=
  {place | ∃ channel name peerId payload,
    (Peer.events (system.peers place.1).log).reverse[place.2]? =
    some (.handled channel name peerId payload) ∧ Carries system own id place.1 channel name}

/-- The requests of a peer are not replayed. -/
structure Once (system : PeerSystem ι) (own : ι) : Prop where
  handed : ∀ id, (Peer.events (system.peers own).log).countP (Peer.Event.hands id) ≤ 1
  sent : ∀ id, (Peer.events (system.peers own).log).countP (Peer.Event.sends id) ≤ 1
  carried : ∀ channel message, .sent channel message ∈ Peer.events (system.peers own).log →
    messageType message = "request" → ∃ id peerId payload deadline,
      .requested id peerId payload deadline ∈ Peer.events (system.peers own).log ∧
      .handed id channel payload ∈ Peer.events (system.peers own).log ∧
      message = Peer.requestOver channel id peerId payload
  called : ∀ id, Set.Subsingleton (invocations system own id)
  returned : Always Peer.Returned (system.peers own).log

/-- A request that a handler was called for was sent: over the relay to the connection that
the call belongs to, or over the link that was dialled. -/
inductive Origin (system : PeerSystem ι) (own : ι) (id : String) (host : ι) :
    Peer.Channel → String → Peer.Channel → Prop
  | relay {name : String} {client target : Socket} : system.owner client = some own →
      system.owner target = some host →
      .routed name client target id ∈ RelayServer.events system.relay.log →
      Origin system own id host .relay name .relay
  | link {number socket : Socket} : system.caller host number = some (own, socket) →
      Origin system own id host (.link number) id (.link socket)

theorem Origin.sent (hupward : Upward system own id) (hacross : Across system)
    {channel way : Peer.Channel} {name : String} (h : Origin system own id host channel name way)
    (hcalls : 0 < system.calls host channel name) : 0 < system.sentOver own way id := by
  cases h with
  | @relay _ client target hclient htarget hroute =>
      refine lt_of_lt_of_le ?_ (hupward.each client hclient)
      refine Nat.add_pos_right _ (List.countP_pos_iff.2 ⟨_, hroute, ?_⟩)
      simp [RelayServer.Event.routes]
  | @link number socket hcaller =>
      have honce := hacross.once host number own socket id hcaller
      omega

theorem Origin.of_carries (hrouted : RelayServer.Routed platform system.relay)
    (hdownward : Downward system) {channel : Peer.Channel} {name : String}
    (hcalls : 0 < system.calls host channel name) (h : Carries system own id host channel name) :
    ∃ way, Origin system own id host channel name way := by
  cases channel with
  | relay =>
      obtain ⟨client, target, hclient, hroute⟩ := h
      obtain ⟨other, socket, otherId, howner, hother⟩ := hdownward.called host name hcalls.ne'
      obtain ⟨rfl, rfl, rfl⟩ := hrouted.single _ _ _ _ _ _ _ hroute hother
      exact ⟨_, .relay hclient howner hroute⟩
  | link number =>
      obtain ⟨rfl, socket, hcaller⟩ := h
      exact ⟨_, .link hcaller⟩

/-- Two calls belong to one channel of the peer, so they have one name at one host. -/
theorem Origin.unique (hwired : Wired system)
    (hupward : Upward system own id)
    (hsent : (Peer.events (system.peers own).log).countP (Peer.Event.sends id) ≤ 1)
    {channel way : Peer.Channel} {hostName otherName : String} {other : ι}
    {channel' way' : Peer.Channel} (h : Origin system own id host channel hostName way)
    (h' : Origin system own id other channel' otherName way')
    (hover : 0 < system.sentOver own way id) (hover' : 0 < system.sentOver own way' id) :
    host = other ∧ channel = channel' ∧ hostName = otherName := by
  have hone : ∀ channel, system.sentOver own channel id ≤ 1 := fun channel =>
    (List.countP_mono_left fun event _ => Peer.Event.sends_of_sendsOver).trans hsent
  -- Two ways would need two sends, and the request is sent once.
  have hsame : way = way' := by
    by_contra hne
    have hboth := Peer.countP_sendsOver hne id (Peer.events (system.peers own).log)
    change system.sentOver own way id + system.sentOver own way' id ≤ _ at hboth
    omega
  cases h with
  | @relay _ client target hclient htarget hroute =>
      cases h' with
      | @relay _ client' target' hclient' htarget' hroute' =>
          have hroutes : ∀ {name : String} {client target : Socket},
              .routed name client target id ∈ RelayServer.events system.relay.log →
              0 < system.upLoad id client := fun hroute =>
            Nat.add_pos_right _ (List.countP_pos_iff.2
              ⟨_, hroute, by simp [RelayServer.Event.routes]⟩)
          -- Two connections of one peer would each have carried the request.
          have hclients : client = client' := by
            by_contra hne
            have hapart := hupward.apart client client' hclient hclient' hne
            have hrelay := hone .relay
            have hfirst := hroutes hroute
            have hsecond := hroutes hroute'
            omega
          subst hclients
          have hfew : (RelayServer.events system.relay.log).countP
              (RelayServer.Event.routes client id) ≤ 1 :=
            (Nat.le_add_left _ _).trans ((hupward.each client hclient).trans (hone .relay))
          have hsameRoute := eq_of_countP_le_one hfew hroute hroute'
            (by simp [RelayServer.Event.routes]) (by simp [RelayServer.Event.routes])
          obtain ⟨rfl, -, rfl, -⟩ := RelayServer.Event.routed.inj hsameRoute
          exact ⟨Option.some.inj (htarget.symm.trans htarget'), rfl, rfl⟩
      | link => cases hsame
  | @link number socket hcaller =>
      cases h' with
      | relay => cases hsame
      | @link number' socket' hcaller' =>
          obtain rfl := Peer.Channel.link.inj hsame
          have hplace := (hwired.callers _ _ _ _ hcaller).2.symm.trans
            (hwired.callers _ _ _ _ hcaller').2
          obtain ⟨rfl, rfl⟩ := Prod.mk.inj (Option.some.inj hplace)
          exact ⟨rfl, rfl, rfl⟩

/-- A handler is called once for a request that reached it. -/
theorem Origin.calls_le_one (hdownward : Downward system)
    (hacross : Across system)
    (hsent : (Peer.events (system.peers own).log).countP (Peer.Event.sends id) ≤ 1)
    {channel way : Peer.Channel} {name : String} (h : Origin system own id host channel name way) :
    system.calls host channel name ≤ 1 := by
  cases h with
  | @relay _ client target hclient htarget hroute =>
      exact (Nat.le_add_left _ _).trans (hdownward.once _ _ _ _ host hroute htarget)
  | @link number socket hcaller =>
      have honce := hacross.once host number own socket id hcaller
      have hone : system.sentOver own (.link socket) id ≤ 1 :=
        (List.countP_mono_left fun event _ => Peer.Event.sends_of_sendsOver).trans hsent
      omega

/-- **A request is not replayed**: it is handed to one transport and sent once, a handler is
called for it once, whoever called, and a response completes it only over the channel it was
handed to. -/
theorem run_once [DecidableEq ι]
    (run : (machine platform platforms).Run Admissible trace system) (own : ι) :
    Once system own := by
  obtain ⟨hplaced, -⟩ := Peer.run_placed (run_sensible run own)
  have hhanded : ∀ id, (Peer.events (system.peers own).log).countP (Peer.Event.hands id) ≤ 1 :=
    fun id => Peer.countP_hands_le_one hplaced.first id
  have hsent : ∀ id, (Peer.events (system.peers own).log).countP (Peer.Event.sends id) ≤ 1 :=
    fun id => (hplaced.counted id).trans (hhanded id)
  refine ⟨hhanded, hsent, hplaced.carried, fun id => ?_, hplaced.returned⟩
  have hrouted := (run_kept run).1
  have hupward := run_upward run own id
  have hdownward := run_downward run
  have hacross := run_across run
  -- two calls that carry a result for the same request are one: both come from its one sending
  rintro ⟨host, place⟩ ⟨channel, name, peerId, payload, hplace, hcarries⟩
    ⟨host', place'⟩ ⟨channel', name', peerId', payload', hplace', hcarries'⟩
  have hserves : ∀ {host : ι} {place : ℕ} {channel : Peer.Channel} {name peerId : String}
      {payload : JsonObject}, (Peer.events (system.peers host).log).reverse[place]? =
        some (.handled channel name peerId payload) → 0 < system.calls host channel name := by
    intro host place channel name peerId payload hplace
    refine List.countP_pos_iff.2 ⟨_, List.mem_reverse.1 (List.mem_of_getElem? hplace), ?_⟩
    simp [Peer.Event.serves]
  obtain ⟨way, horigin⟩ := Origin.of_carries hrouted hdownward (hserves hplace) hcarries
  obtain ⟨way', horigin'⟩ := Origin.of_carries hrouted hdownward (hserves hplace') hcarries'
  obtain ⟨rfl, rfl, rfl⟩ := horigin.unique (run_wired run) hupward (hsent id) horigin'
    (horigin.sent hupward hacross (hserves hplace))
    (horigin'.sent hupward hacross (hserves hplace'))
  have hcalls := horigin.calls_le_one hdownward hacross (hsent id)
  rw [calls, ← List.countP_reverse] at hcalls
  obtain rfl := place_unique hcalls hplace hplace' (by simp [Peer.Event.serves])
    (by simp [Peer.Event.serves])
  rfl

/-- A client sends a request to a host. -/
def calling : List (Action Bool) :=
  joining true { Peer.Options.sample with peerId := "h" } true 0 ++
    joining false { Peer.Options.sample with peerId := "c" } false 1 ++
    [.peer false ⟨.request "h" ⟨[]⟩, .sample⟩, .peer false ⟨.startRequest "0", .sample⟩,
      .up 1 fun _ _ => false, .down true .sample, .down true .sample]

/-- The host is called, and once. -/
theorem run_once_calling : ∃ trace system,
    (machine (ι := Bool) .sample fun _ => .sample).Run Admissible trace system ∧
      (true, 2) ∈ system.invocations false "0" ∧ Once system false := by
  have hstart : (machine (ι := Bool) .sample fun _ => .sample).Run Admissible [] _ :=
    .start ⟨0, le_rfl, rfl⟩
  have hdown : ∀ {system : PeerSystem Bool} {own : Bool} {world : Peer.World},
      (system.peers own).relay ≠ .connecting → system.Admissible (.down own world) := id
  obtain ⟨trace, run⟩ := hstart.extend calling
    ⟨⟨nofun, nofun, nofun, nofun⟩, ⟨by decide +kernel, by decide +kernel⟩,
      ⟨nofun, nofun, (fun _ => by decide +kernel), nofun⟩, trivial, ⟨trivial, nofun, nofun⟩,
      hdown (by decide +kernel), trivial, hdown (by decide +kernel), hdown (by decide +kernel),
      ⟨nofun, nofun, nofun, nofun⟩, ⟨by decide +kernel, by decide +kernel⟩,
      ⟨nofun, nofun, (fun _ => by decide +kernel), nofun⟩, trivial, ⟨trivial, nofun, nofun⟩,
      hdown (by decide +kernel), trivial, hdown (by decide +kernel), hdown (by decide +kernel),
      ⟨nofun, nofun, nofun, nofun⟩, ⟨nofun, nofun, nofun, nofun⟩, trivial,
      hdown (by decide +kernel), hdown (by decide +kernel), trivial⟩
  refine ⟨trace, _, run, ⟨.relay, "0", "c", ⟨[]⟩, ?_, 1, 0, ?_, ?_⟩, run_once run false⟩
  · rfl
  · rfl
  · exact List.mem_of_getElem? (i := 1) rfl

end PeerSystem

end ServerHost
