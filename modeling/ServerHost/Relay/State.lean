import ServerHost.Protocol

/-!
# The state of the relay

`RelayServer::Private`: the tables the relay keeps, what it sends, and the two
questions every handler asks of the state, `active` and `target`.

Two things are recorded that the program itself does not store.  `log` is the
history of what the relay did, newest first and stamped with the clock.  An
offer carries the number of its issue, because the program forgets the code and
keeps only its hash.
-/

namespace ServerHost

namespace RelayServer

/-! ## The data -/

structure Session where
  principal : Principal := {}
  id : String := ""
  service : String := ""
  name : String := ""
  descriptor : JsonObject := ⟨[]⟩
  authenticating : Bool := false
  connected : DateTime := ⊥
  pairingWindow : DateTime := ⊥
  pairingAttempts : ℕ := 0
  deriving Inhabited

structure Route where
  client : Socket
  host : Socket
  id : String
  expires : DateTime

structure Offer where
  host : Socket
  request : String
  expires : DateTime
  issue : ℕ

structure Pair where
  host : Socket
  client : Socket
  hostRequest : String
  clientRequest : String
  expires : DateTime

/-- What a pairing message is about: the issue of a code or the key of a pair. -/
inductive Subject where
  | offer (issue : ℕ)
  | pair (key : String)
  deriving DecidableEq

/-- A message the relay sends.  Next to the values that go on the wire it names
the sessions they come from. -/
inductive Outgoing where
  | error (code : String)
  | authenticated (accountId : String)
  | registered
  | peers (entries : List (Socket × JsonObject))
  | unavailable (peerId : String)
  | connect (host : Socket) (peerId token : String) (descriptor : JsonObject) (expires : DateTime)
  | ticket (client : Socket) (token peerId : String) (expires : DateTime)
  | request (client : Socket) (route peerId : String) (payload : Json)
  | response (host : Option Socket) (id : String) (result : Json)
  | pairing (other : Option Socket) (subject : Option Subject) (id status : String)
      (data : List (String × Json))

/-- The sessions other than the relay itself that a message takes data from. -/
def Outgoing.sources : Outgoing → List Socket
  | peers entries => entries.map Prod.fst
  | connect host .. => [host]
  | ticket client .. => [client]
  | request client .. => [client]
  | response host .. => host.toList
  | pairing other .. => other.toList
  | _ => []

/-- The object that goes on the wire. -/
def Outgoing.json : Outgoing → JsonObject
  | error code => .ofList [("type", .string "error"), ("error", .string code)]
  | authenticated accountId =>
      .ofList [("type", .string "authenticated"), ("accountId", .string accountId)]
  | registered => .ofList [("type", .string "registered")]
  | peers entries =>
      .ofList [("type", .string "peers"), ("peers", .array (entries.map fun entry => entry.2.json))]
  | unavailable peerId =>
      .ofList [("type", .string "connect"), ("peerId", .string peerId),
        ("error", .string "host_unavailable")]
  | connect _ peerId token descriptor expires =>
      .ofList [("type", .string "connect"), ("peerId", .string peerId), ("ticket", .string token),
        ("descriptor", descriptor.json), ("expires", .string (number expires.toMSecs))]
  | ticket _ token peerId expires =>
      .ofList [("type", .string "ticket"), ("ticket", .string token), ("peerId", .string peerId),
        ("expires", .string (number expires.toMSecs))]
  | request _ route peerId payload =>
      .ofList [("type", .string "request"), ("id", .string route), ("peerId", .string peerId),
        ("payload", payload)]
  | response _ id result =>
      .ofList [("type", .string "response"), ("id", .string id), ("result", result)]
  | pairing _ _ id status data =>
      .ofList (data ++ [("type", .string "pairing"), ("id", .string id),
        ("status", .string status)])

/-! ## What happens -/

/-- What the relay does.  `verified`, `rejected` and `registered` record the
writes to a session, `issued`, `claimed` and `settled` the life of a code and of
the pair it leads to, `routed` the request a route stands for. -/
inductive Event where
  | sent (socket : Socket) (message : Outgoing)
  | closed (socket : Socket)
  | asked (socket : Socket) (credential : String)
  | verified (socket : Socket) (principal : Principal)
  | rejected (socket : Socket)
  | registered (socket : Socket) (id service : String)
  | issued (issue : ℕ) (host : Socket) (expires : DateTime)
  | claimed (issue : ℕ) (key : String) (host client : Socket) (expires : DateTime)
  | settled (subject : Subject) (status : String)
  | routed (route : String) (client host : Socket) (id : String)

structure Entry where
  time : ℤ
  event : Event

/-- The events of a history. -/
def events (log : List Entry) : List Event := log.map Entry.event

@[simp] theorem events_cons (entry : Entry) (log : List Entry) :
    events (entry :: log) = entry.event :: events log := rfl

end RelayServer

open RelayServer in
structure RelayServer where
  now : ℤ
  sessions : Table Socket Session := ∅
  routes : Table String Route := ∅
  /-- Keyed by the hash of the code. -/
  offers : Table String Offer := ∅
  pairs : Table String Pair := ∅
  /-- Sockets on which `close` was called. -/
  closing : List Socket := []
  /-- Sockets destroyed by `deleteLater`. -/
  deleted : List Socket := []
  sockets : ℕ := 0
  uuids : ℕ := 0
  randoms : ℕ := 0
  log : List Entry := []

namespace RelayServer

/-- How a message leaves: the relay before and after `send`. -/
abbrev Send := Socket → Outgoing → RelayServer → RelayServer

def emit (event : Event) (relay : RelayServer) : RelayServer :=
  { relay with log := ⟨relay.now, event⟩ :: relay.log }

/-- `WebSocket::close`. -/
def close (socket : Socket) (relay : RelayServer) : RelayServer :=
  { relay with closing := socket :: relay.closing }.emit (.closed socket)

/-- `send` on a socket that stays connected or was closed before.  A socket
whose queue is full, or a message beyond the wire limit, closes the socket. -/
def transmit (full : Socket → Outgoing → Bool) : Send := fun socket message relay =>
  if socket ∈ relay.closing ∨ socket ∈ relay.deleted then relay
  else if full socket message then relay.close socket
  else relay.emit (.sent socket message)

/-- `sessions.value(socket)`. -/
def session (relay : RelayServer) (socket : Socket) : Session := Table.value relay.sessions socket

/-- `active`. -/
def active (relay : RelayServer) (socket : Socket) : Bool :=
  match relay.sessions.lookup socket with
  | some session => live relay.now session.principal
  | none => false

/-- Whether a `QPointer` to the socket is still set. -/
def alive (relay : RelayServer) (socket : Socket) : Bool := socket ∉ relay.deleted

/-- `sessions[socket]`, changed in place. -/
def update (socket : Socket) (f : Session → Session) (relay : RelayServer) : RelayServer :=
  { relay with sessions := Table.modify socket f relay.sessions }

/-- Whether a session may be reached by `caller` under the name `id`. -/
def reaches (now : ℤ) (caller : Session) (id : String) (candidate : Session) : Bool :=
  candidate.id = id && live now candidate.principal && !candidate.descriptor.isEmpty &&
    candidate.principal.accountId = caller.principal.accountId &&
    candidate.service = caller.service

/-- `target`. -/
def target (relay : RelayServer) (source : Socket) (id : String) : Option Socket :=
  let caller := relay.session source
  (relay.sessions.entries.find? fun entry =>
    entry.1 ≠ source && reaches relay.now caller id entry.2).map Sigma.fst

/-! ## What the elementary changes leave alone -/

section
variable (relay : RelayServer) (event : Event) (socket : Socket) (f : Session → Session)

@[simp] theorem emit_now : (relay.emit event).now = relay.now := rfl
@[simp] theorem emit_sessions : (relay.emit event).sessions = relay.sessions := rfl
@[simp] theorem emit_routes : (relay.emit event).routes = relay.routes := rfl
@[simp] theorem emit_offers : (relay.emit event).offers = relay.offers := rfl
@[simp] theorem emit_pairs : (relay.emit event).pairs = relay.pairs := rfl
@[simp] theorem emit_closing : (relay.emit event).closing = relay.closing := rfl
@[simp] theorem emit_deleted : (relay.emit event).deleted = relay.deleted := rfl
@[simp] theorem emit_sockets : (relay.emit event).sockets = relay.sockets := rfl
@[simp] theorem emit_uuids : (relay.emit event).uuids = relay.uuids := rfl
@[simp] theorem emit_randoms : (relay.emit event).randoms = relay.randoms := rfl
@[simp] theorem emit_log : (relay.emit event).log = ⟨relay.now, event⟩ :: relay.log := rfl

@[simp] theorem close_now : (relay.close socket).now = relay.now := rfl
@[simp] theorem close_sessions : (relay.close socket).sessions = relay.sessions := rfl
@[simp] theorem close_routes : (relay.close socket).routes = relay.routes := rfl
@[simp] theorem close_offers : (relay.close socket).offers = relay.offers := rfl
@[simp] theorem close_pairs : (relay.close socket).pairs = relay.pairs := rfl
@[simp] theorem close_closing : (relay.close socket).closing = socket :: relay.closing := rfl
@[simp] theorem close_deleted : (relay.close socket).deleted = relay.deleted := rfl
@[simp] theorem close_sockets : (relay.close socket).sockets = relay.sockets := rfl
@[simp] theorem close_uuids : (relay.close socket).uuids = relay.uuids := rfl
@[simp] theorem close_randoms : (relay.close socket).randoms = relay.randoms := rfl

@[simp] theorem update_now : (relay.update socket f).now = relay.now := rfl
@[simp] theorem update_routes : (relay.update socket f).routes = relay.routes := rfl
@[simp] theorem update_offers : (relay.update socket f).offers = relay.offers := rfl
@[simp] theorem update_pairs : (relay.update socket f).pairs = relay.pairs := rfl
@[simp] theorem update_closing : (relay.update socket f).closing = relay.closing := rfl
@[simp] theorem update_deleted : (relay.update socket f).deleted = relay.deleted := rfl
@[simp] theorem update_sockets : (relay.update socket f).sockets = relay.sockets := rfl
@[simp] theorem update_uuids : (relay.update socket f).uuids = relay.uuids := rfl
@[simp] theorem update_randoms : (relay.update socket f).randoms = relay.randoms := rfl
@[simp] theorem update_log : (relay.update socket f).log = relay.log := rfl

end

theorem session_of_lookup {relay : RelayServer} {socket : Socket} {session : Session}
    (h : relay.sessions.lookup socket = some session) : relay.session socket = session :=
  Table.value_of_lookup h

theorem active_iff {relay : RelayServer} {socket : Socket} :
    relay.active socket = true ↔
      ∃ session, relay.sessions.lookup socket = some session ∧
        live relay.now session.principal = true := by
  unfold active
  cases relay.sessions.lookup socket <;> simp

theorem reaches_iff {now : ℤ} {caller candidate : Session} {id : String} :
    reaches now caller id candidate = true ↔
      candidate.id = id ∧ live now candidate.principal = true ∧
        candidate.descriptor.isEmpty = false ∧
        candidate.principal.accountId = caller.principal.accountId ∧
        candidate.service = caller.service := by
  simp [reaches, and_assoc]

/-- Everything `target` promises about the session it returns. -/
theorem target_spec {relay : RelayServer} {source host : Socket} {id : String}
    (h : relay.target source id = some host) :
    host ≠ source ∧ ∃ session, relay.sessions.lookup host = some session ∧
      reaches relay.now (relay.session source) id session = true := by
  simp only [target, Option.map_eq_some_iff] at h
  obtain ⟨entry, hfind, rfl⟩ := h
  have hmem := List.mem_of_find?_eq_some hfind
  have hpred := List.find?_some hfind
  simp only [Bool.and_eq_true, decide_eq_true_eq, ne_eq] at hpred
  exact ⟨hpred.1, entry.2, Table.lookup_of_mem_entries hmem, hpred.2⟩

end RelayServer

end ServerHost
