import ServerHost.Library.Machine
import ServerHost.Protocol

/-!
# The state of a peer

`Peer::Private`: the requests in flight, the tickets and links for direct
connections, and the socket to the relay.

A call of `send`, `close` or `completed` may run code of the program before it
returns: the disconnected handler of the socket, or the slot of the application.
`World` says what those calls do while one input is handled.  The number of
entries in `log`, the history of what the peer did (newest first), tells them
apart.
-/

namespace ServerHost

namespace Peer

/-! ## The data -/

structure Options where
  relayUrl : String := ""
  credential : String := ""
  peerId : String := ""
  name : String := ""
  service : String := "files"
  metadata : JsonObject := ⟨[]⟩
  hostFiles : Bool := true
  localEnabled : Bool := true
  localHostingEnabled : Bool := true
  /-- `listenAddress`, and whether it is a loopback address. -/
  listenAddress : String := ""
  listenLoopback : Bool := false
  /-- `hasIdentity(localTls)` and `certificateFingerprint(localTls)`. -/
  identity : Bool := false
  fingerprint : String := ""
  localAddresses : List String := []
  localTimeoutMs : ℤ := 1200
  requestTimeoutMs : ℤ := 15000

structure Pending where
  peer : String := ""
  payload : JsonObject := ⟨[]⟩
  transport : String := ""
  socket : Option Socket := none
  deadline : DateTime := ⊥
  deriving Inhabited

/-- A ticket, with the number of the message that brought it. -/
structure Ticket where
  peer : String := ""
  expires : DateTime := ⊥
  serial : ℕ := 0
  deriving Inhabited

structure Link where
  peer : String := ""
  ticket : String := ""
  fingerprint : String := ""
  expires : DateTime := ⊥
  deadline : DateTime := ⊥
  outgoing : Bool := false
  authenticated : Bool := false
  deriving Inhabited

structure Attempt where
  urls : List String := []
  ticket : String := ""
  fingerprint : String := ""
  expires : DateTime := ⊥
  deriving Inhabited

inductive SocketState where
  | closed | connecting | connected | closing
  deriving DecidableEq

/-- Where a message goes: to the relay, or over a direct link. -/
inductive Channel where
  | relay
  | link (socket : Socket)
  deriving DecidableEq

/-! ## What happens -/

/-- What the peer does.  `completed` names the channel of the response that
caused it, `recreated` records that `requests[id]` made a new entry, `flushing` a
call of `remote` or `local`, and `handed` that a request got its transport. -/
inductive Event where
  | requested (id peerId : String) (payload : JsonObject) (deadline : DateTime)
  | refused (id : String)
  | completed (id : String) (result : JsonObject) (transport : String) (cause : Option Channel)
  | recreated (id : String)
  | flushing (channel : Channel) (peerId : String)
  | handed (id : String) (channel : Channel) (payload : JsonObject)
  | sent (channel : Channel) (message : JsonObject)
  | closed (channel : Channel)
  | relayLost
  | unlinked (socket : Socket)
  | dialled (socket : Socket) (peerId : String)
  | ticket (serial : ℕ) (text peerId : String) (expires : DateTime)
  | presented (socket : Socket) (serial : ℕ)
  | handled (channel : Channel) (id peerId : String) (payload : JsonObject)
  | pairing (message : JsonObject)

structure Entry where
  time : ℤ
  event : Event

/-- The events of a history. -/
def events (log : List Entry) : List Event := log.map Entry.event

@[simp] theorem events_cons (entry : Entry) (log : List Entry) :
    events (entry :: log) = entry.event :: events log := rfl

/-- The request was completed. -/
def Completed (log : List Entry) (id : String) : Prop :=
  ∃ result transport cause, .completed id result transport cause ∈ events log

/-! ## What lies outside

The slots of the application, the clock and the sockets answer as they like. -/

/-- What a slot of the application does before it returns. -/
inductive Action where
  | stop
  | request (peerId : String) (payload : JsonObject)

/-- How `send` goes on a connected socket: the message is accepted, the socket
starts to close, or it is finished before `send` returns. -/
inductive Outcome where
  | accepted
  | closing
  | lost (accepted : Bool)

/-- What the sockets, the application and the hash tables do while an input is
handled. -/
structure World where
  send : ℕ → Outcome
  /-- Whether `close` finishes the socket at once. -/
  finishes : ℕ → Bool
  slot : ℕ → List Action
  /-- How deep slots of the application call each other. -/
  depth : ℕ
  handle : String → JsonObject → Option JsonObject
  interfaces : List Interface
  requestOrder : ℕ → List String → List String
  requestOrder_perm : ∀ n keys, (requestOrder n keys).Perm keys
  linkOrder : ℕ → List Socket → List Socket
  linkOrder_perm : ∀ n keys, (linkOrder n keys).Perm keys

end Peer

open Peer in
structure Peer where
  now : ℤ
  options : Options := {}
  handler : Bool := false
  relay : SocketState := .closed
  /-- The port of the listener. -/
  server : Option ℕ := none
  requests : Table String Pending := ∅
  tickets : Table String Ticket := ∅
  links : Table Socket Link := ∅
  outbound : Table String Socket := ∅
  attempts : Table String Attempt := ∅
  connecting : List String := []
  timer : Bool := false
  retry : Bool := false
  authTimer : Bool := false
  directory : List Json := []
  account : String := ""
  error : String := ""
  running : Bool := false
  ready : Bool := false
  fatal : Bool := false
  backoff : ℕ := 1000
  /-- The link sockets whose signals reach the peer. -/
  attached : List Socket := []
  /-- The link sockets that are connected. -/
  opened : List Socket := []
  /-- The link sockets that are not connected yet, with the URL they dial. -/
  dialling : Table Socket Url := ∅
  /-- The fingerprints that the TLS of the link sockets is pinned to. -/
  pins : Table Socket String := ∅
  /-- The single shots that have not fired: `startRequest`, the refusals of
  `request`, `nextLocal`, and the pairing errors. -/
  starts : List String := []
  refusals : List String := []
  redials : List String := []
  notices : List String := []
  sockets : ℕ := 0
  uuids : ℕ := 0
  serials : ℕ := 0
  log : List Entry := []

namespace Peer

def emit (event : Event) (peer : Peer) : Peer :=
  { peer with log := ⟨peer.now, event⟩ :: peer.log }

/-- `requests[id]`, which makes an entry when there is none. -/
def index (id : String) (peer : Peer) : Peer :=
  if id ∈ peer.requests then peer
  else { peer with requests := peer.requests.insert id {} }.emit (.recreated id)

/-- Whether the channel takes messages. -/
def writable (peer : Peer) : Channel → Bool
  | .relay => peer.relay = .connected
  | .link socket => socket ∈ peer.opened

/-- The channel starts to close. -/
def shut (channel : Channel) (peer : Peer) : Peer :=
  match channel with
  | .relay => { peer with relay := .closing }.emit (.closed .relay)
  | .link socket =>
      { peer with opened := peer.opened.erase socket }.emit (.closed (.link socket))

/-- Whether the directory lists a peer of that name. -/
def lists (peer : Peer) (peerId : String) : Bool :=
  peer.directory.any fun entry => (entry.toObject.value "peerId").equals peerId

/-- The id is in the table, or was completed. -/
def Known (peer : Peer) (id : String) : Prop := id ∈ peer.requests ∨ Completed peer.log id

section
variable (event : Event) (peer : Peer)

@[simp] theorem emit_now : (peer.emit event).now = peer.now := rfl
@[simp] theorem emit_requests : (peer.emit event).requests = peer.requests := rfl
@[simp] theorem emit_tickets : (peer.emit event).tickets = peer.tickets := rfl
@[simp] theorem emit_links : (peer.emit event).links = peer.links := rfl
@[simp] theorem emit_outbound : (peer.emit event).outbound = peer.outbound := rfl
@[simp] theorem emit_connecting : (peer.emit event).connecting = peer.connecting := rfl
@[simp] theorem emit_directory : (peer.emit event).directory = peer.directory := rfl
@[simp] theorem emit_ready : (peer.emit event).ready = peer.ready := rfl
@[simp] theorem emit_attached : (peer.emit event).attached = peer.attached := rfl
@[simp] theorem emit_refusals : (peer.emit event).refusals = peer.refusals := rfl
@[simp] theorem emit_sockets : (peer.emit event).sockets = peer.sockets := rfl
@[simp] theorem emit_uuids : (peer.emit event).uuids = peer.uuids := rfl
@[simp] theorem emit_serials : (peer.emit event).serials = peer.serials := rfl
@[simp] theorem emit_log : (peer.emit event).log = ⟨peer.now, event⟩ :: peer.log := rfl

end

end Peer

end ServerHost
