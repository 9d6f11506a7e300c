import ServerHost.Peer.Transports
import ServerHost.Relay.Revocation
import ServerHost.Relay.Routing

/-!
# Peers and their relay

Any number of peers, the relay they share, and the connections between them.  A peer has
one connection to the relay at a time, under the number the relay gave it, and may accept
the links that other peers dial.  A connection is two queues: what an end writes arrives at
the other end in order, as long as both are there.  The relay and the peers have other
sockets as well, whose messages are arbitrary.  All parties read one clock.
-/

namespace ServerHost

namespace Peer

/-! ## What the parties say to one another -/

/-- The messages a turn sends over a channel, in order. -/
def told (channel : Channel) (peer after : Peer) : List JsonObject :=
  news (fun entry => entry.event.over channel) peer.log after.log

/-- The turn ended the connection to the relay. -/
def loses (peer after : Peer) : Bool :=
  (after.log.take (after.log.length - peer.log.length)).any
    fun entry => entry.event matches .relayLost

theorem told_eq {peer after : Peer} {new : List Entry} (hlog : after.log = new ++ peer.log)
    (channel : Channel) : peer.told channel after =
      (new.filterMap fun entry => entry.event.over channel).reverse :=
  news_of_append hlog

end Peer

namespace RelayServer

/-- What an event sends to a socket. -/
def Event.over (socket : Socket) : Event → Option Outgoing
  | .sent own message => if own = socket then some message else none
  | _ => none

/-- The messages a turn sends to a socket, in order. -/
def told (socket : Socket) (relay after : RelayServer) : List Outgoing :=
  news (fun entry => entry.event.over socket) relay.log after.log

theorem told_eq {relay after : RelayServer} {new : List Entry} (hlog : after.log = new ++ relay.log)
    (socket : Socket) : relay.told socket after =
      (new.filterMap fun entry => entry.event.over socket).reverse :=
  news_of_append hlog

theorem sent_of_told {relay after : RelayServer} {socket : Socket} {message : Outgoing}
    (h : message ∈ relay.told socket after) : .sent socket message ∈ events after.log := by
  obtain ⟨entry, hentry, hover⟩ := exists_of_mem_news h
  refine List.mem_map.2 ⟨entry, hentry, ?_⟩
  unfold Event.over at hover
  split at hover
  · next own sent hevent =>
      split at hover
      · next hown => rw [hevent, hown, Option.some.inj hover]
      · cases hover
  · cases hover

end RelayServer

/-! ## The system -/

structure PeerSystem (ι : Type*) where
  relay : RelayServer
  peers : ι → Peer
  /-- The number the relay has for the connection of a peer. -/
  line : ι → Option Socket
  /-- The peer that opened a socket of the relay. -/
  owner : Socket → Option ι
  /-- What is on its way to the relay, and from it. -/
  up : Socket → List JsonObject
  down : Socket → List RelayServer.Outgoing
  /-- The end that dialled an accepted link, and the end that accepted a dialled one. -/
  caller : ι → Socket → Option (ι × Socket)
  callee : ι → Socket → Option (ι × Socket)
  /-- What is on its way to this end of a link. -/
  road : ι → Socket → List JsonObject

namespace PeerSystem

variable {ι : Type*}

/-- A turn of one party, or something that takes two: the relay accepts the connection of a
peer, a peer the link of another, or a message arrives. -/
inductive Action (ι : Type*)
  | clock (time : ℤ) (world : Peer.World)
  | relay (step : RelayServer.Step)
  | peer (own : ι) (step : Peer.Step)
  | dial (own : ι)
  | up (socket : Socket) (full : Socket → RelayServer.Outgoing → Bool)
  | down (own : ι) (world : Peer.World)
  | accept (own : ι) (socket : Socket) (host : ι) (world : Peer.World)
  | cross (own : ι) (socket : Socket) (world : Peer.World)

/-- The other end of a link. -/
def far (system : PeerSystem ι) (own : ι) (socket : Socket) : Option (ι × Socket) :=
  (system.caller own socket).or (system.callee own socket)

/-- The turn the relay takes. -/
def relayStep (system : PeerSystem ι) : Action ι → Option RelayServer.Step
  | .clock time _ => some ⟨.clock time, fun _ _ => false⟩
  | .relay step => some step
  | .dial _ => some ⟨.newConnection, fun _ _ => false⟩
  | .up socket full => (system.up socket).head?.map fun message => ⟨.text socket message, full⟩
  | _ => none

section
variable [DecidableEq ι]

/-- The turn a peer takes. -/
def peerStep (system : PeerSystem ι) (own : ι) : Action ι → Option Peer.Step
  | .clock time world => some ⟨.clock time, world⟩
  | .peer acting step => if acting = own then some step else none
  | .down acting world =>
      if acting = own then do
        let socket ← system.line own
        let message ← (system.down socket).head?
        return ⟨.relayText message.json, world⟩
      else none
  | .accept _ _ host world => if host = own then some ⟨.newConnection, world⟩ else none
  | .cross acting socket world =>
      if acting = own then
        (system.road own socket).head?.map fun message => ⟨.linkText socket message, world⟩
      else none
  | _ => none

/-- What is on its way to the relay, without what arrives.  A new connection is empty. -/
def upLeft (system : PeerSystem ι) (action : Action ι) (socket : Socket) : List JsonObject :=
  match action with
  | .dial _ => if socket = system.relay.sockets then [] else system.up socket
  | .up acting _ => if acting = socket then (system.up socket).tail else system.up socket
  | _ => system.up socket

/-- What is on its way from the relay, without what arrives. -/
def downLeft (system : PeerSystem ι) (action : Action ι) (socket : Socket) :
    List RelayServer.Outgoing :=
  match action with
  | .dial _ => if socket = system.relay.sockets then [] else system.down socket
  | .down acting _ =>
      if system.line acting = some socket then (system.down socket).tail else system.down socket
  | _ => system.down socket

/-- What is on its way to the end of a link, without what arrives. -/
def roadLeft (system : PeerSystem ι) (action : Action ι) (own : ι) (socket : Socket) :
    List JsonObject :=
  match action with
  | .accept acting number host _ =>
      if own = host ∧ socket = (system.peers host).sockets ∨ own = acting ∧ socket = number then []
      else system.road own socket
  | .cross acting number _ =>
      if acting = own ∧ number = socket then (system.road own socket).tail
      else system.road own socket
  | _ => system.road own socket

variable (platform : Platform) (platforms : ι → Platform)

/-- The relay after an action. -/
def nextRelay (system : PeerSystem ι) (action : Action ι) : RelayServer :=
  (system.relayStep action).elim system.relay (RelayServer.next platform system.relay)

/-- A peer after an action. -/
def nextPeer (system : PeerSystem ι) (action : Action ι) (own : ι) : Peer :=
  (system.peerStep own action).elim (system.peers own)
    (Peer.next (platforms own) (system.peers own))

/-! ## A step -/

def next (system : PeerSystem ι) (action : Action ι) : PeerSystem ι :=
  let relay := system.nextRelay platform action
  let peers := system.nextPeer platforms action
  { relay := relay
    peers := peers
    -- a peer that loses its relay loses the line, a new dial gives it the next socket
    line := fun own =>
      if (system.peers own).loses (peers own) then none
      else match action with
        | .dial acting => if acting = own then some system.relay.sockets else system.line own
        | _ => system.line own
    owner := fun socket => match action with
      | .dial acting => if socket = system.relay.sockets then some acting else system.owner socket
      | _ => system.owner socket
    up := fun socket => system.upLeft action socket ++
      match system.owner socket with
      | some own =>
          if system.line own = some socket then (system.peers own).told .relay (peers own) else []
      | none => []
    down := fun socket => system.downLeft action socket ++ system.relay.told socket relay
    caller := fun own socket => match action with
      | .accept acting number host _ =>
          if own = host ∧ socket = (system.peers host).sockets then some (acting, number)
          else system.caller own socket
      | _ => system.caller own socket
    callee := fun own socket => match action with
      | .accept acting number host _ =>
          if own = acting ∧ socket = number then some (host, (system.peers host).sockets)
          else system.callee own socket
      | _ => system.callee own socket
    -- what is sent on a link travels to the link's other end
    road := fun own socket => system.roadLeft action own socket ++
      match system.far own socket with
      | some (other, number) => (system.peers other).told (.link number) (peers other)
      | none => [] }

/-- All parties start as constructed, at one time after the epoch. -/
def machine : Machine (PeerSystem ι) (Action ι) where
  init system := ∃ time, 0 ≤ time ∧ system =
    { relay := { now := time }
      peers := fun _ => { now := time }
      line := fun _ => none
      owner := fun _ => none
      up := fun _ => []
      down := fun _ => []
      caller := fun _ _ => none
      callee := fun _ _ => none
      road := fun _ _ => [] }
  next := next platform platforms

/-- Messages of a connection arrive through it, and only at an end that is connected.  A
peer is connected to the relay after the relay accepted the connection, and dials a link
once. -/
def Admissible (system : PeerSystem ι) : Action ι → Prop
  | .clock time _ => system.relay.now ≤ time
  | .relay step => system.relay.Feasible step ∧ (∀ time, step.input ≠ .clock time) ∧
      ∀ socket message, step.input = .text socket message → system.owner socket = none
  | .peer own step => (∀ time, step.input ≠ .clock time) ∧
      (∀ message, step.input ≠ .relayText message) ∧
      (step.input = .relayConnected → system.line own ≠ none) ∧
      ∀ socket message, step.input = .linkText socket message → system.far own socket = none
  | .dial own => (system.peers own).relay = .connecting ∧ system.line own = none
  | .up _ _ => True
  | .down own _ => (system.peers own).relay ≠ .connecting
  | .accept own socket host _ => (system.peers host).server.isSome = true ∧
      socket ∈ (system.peers own).attached ∧ socket ∈ (system.peers own).dialling ∧
      system.callee own socket = none
  | .cross own socket _ => socket ∉ (system.peers own).dialling

end

variable {platform : Platform} {platforms : ι → Platform}
variable {system : PeerSystem ι} {action : Action ι} {trace : List (PeerSystem ι × Action ι)}

theorem peer_grows (platform : Platform) (peer : Peer) (step : Peer.Step) :
    ∃ new, (Peer.next platform peer step).log = new ++ peer.log := by
  obtain ⟨new, hlog, -⟩ := (Peer.next_changes platform peer step).invariant
    (I := fun after => Grows (fun _ => True) peer.log after.log)
    (fun _ _ change hgrows => hgrows.trans (Peer.change_log change)) (.of_eq rfl)
  exact ⟨new, hlog⟩

/-! ## The runs of the parties -/

/-- The turns of the relay. -/
def relayTrace (trace : List (PeerSystem ι × Action ι)) : List (RelayServer × RelayServer.Step) :=
  trace.filterMap fun visit => (visit.1.relayStep visit.2).map fun step => (visit.1.relay, step)

theorem relayTrace_none (h : system.relayStep action = none) :
    relayTrace ((system, action) :: trace) = relayTrace trace := by
  simp [relayTrace, h]

theorem relayTrace_some {step : RelayServer.Step} (h : system.relayStep action = some step) :
    relayTrace ((system, action) :: trace) = (system.relay, step) :: relayTrace trace := by
  simp [relayTrace, h]

theorem relayStep_timely {step : RelayServer.Step} (h : system.Admissible action)
    (hstep : system.relayStep action = some step) : system.relay.Timely step := by
  cases action with
  | clock time world =>
      obtain rfl := Option.some.inj hstep
      exact ⟨trivial, fun own heq => by cases heq; exact h⟩
  | relay own =>
      obtain rfl := Option.some.inj hstep
      exact ⟨h.1, fun time heq => absurd heq (h.2.1 time)⟩
  | dial own =>
      obtain rfl := Option.some.inj hstep
      exact ⟨trivial, fun own heq => by cases heq⟩
  | up socket full =>
      simp only [relayStep, Option.map_eq_some_iff] at hstep
      obtain ⟨message, -, rfl⟩ := hstep
      exact ⟨trivial, fun own heq => by cases heq⟩
  | peer | down | accept | cross => cases hstep

variable [DecidableEq ι]

/-- The turns of a peer. -/
def peerTrace (own : ι) (trace : List (PeerSystem ι × Action ι)) : List (Peer × Peer.Step) :=
  trace.filterMap fun visit =>
    (visit.1.peerStep own visit.2).map fun step => (visit.1.peers own, step)

theorem peerTrace_none {own : ι} (h : system.peerStep own action = none) :
    peerTrace own ((system, action) :: trace) = peerTrace own trace := by
  simp [peerTrace, h]

theorem peerTrace_some {own : ι} {step : Peer.Step} (h : system.peerStep own action = some step) :
    peerTrace own ((system, action) :: trace) =
      (system.peers own, step) :: peerTrace own trace := by
  simp [peerTrace, h]

/-- The relay of a run is in a run of its own. -/
theorem run_relay (run : (machine platform platforms).Run Admissible trace system) :
    (RelayServer.machine platform).Run RelayServer.Timely (relayTrace trace) system.relay := by
  induction run with
  | start hinit =>
      obtain ⟨time, -, rfl⟩ := hinit
      exact .start ⟨time, rfl⟩
  | @step trace system action run hadmissible ih =>
      change (RelayServer.machine platform).Run RelayServer.Timely _
        ((system.relayStep action).elim system.relay (RelayServer.next platform system.relay))
      cases hstep : system.relayStep action with
      | none => exact (relayTrace_none hstep).symm ▸ ih
      | some step =>
          rw [relayTrace_some hstep]
          exact ih.step (relayStep_timely hadmissible hstep)

/-- So is every peer, whatever it hears. -/
theorem run_peer (run : (machine platform platforms).Run Admissible trace system) (own : ι) :
    (Peer.machine (platforms own)).Run (fun _ _ => True) (peerTrace own trace)
      (system.peers own) := by
  induction run with
  | start hinit =>
      obtain ⟨time, -, rfl⟩ := hinit
      exact .start ⟨time, rfl⟩
  | @step trace system action run hadmissible ih =>
      change (Peer.machine (platforms own)).Run (fun _ _ => True) _
        ((system.peerStep own action).elim (system.peers own)
          (Peer.next (platforms own) (system.peers own)))
      cases hstep : system.peerStep own action with
      | none => exact (peerTrace_none hstep).symm ▸ ih
      | some step =>
          rw [peerTrace_some hstep]
          exact ih.step trivial

/-- A peer joins the others of an account, as their host or not. -/
def joining {ι : Type*} (own : ι) (options : Peer.Options) (handler : Bool) (socket : Socket) :
    List (Action ι) :=
  [.peer own ⟨.start options handler (.ok 0), .sample⟩, .dial own,
    .peer own ⟨.relayConnected, .sample⟩, .up socket fun _ _ => false,
    .relay ⟨.completion socket ⟨"a", (90000 : ℤ)⟩, fun _ _ => false⟩, .down own .sample,
    .up socket fun _ _ => false, .down own .sample, .down own .sample]

end PeerSystem

end ServerHost
