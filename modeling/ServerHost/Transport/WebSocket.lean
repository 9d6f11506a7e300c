import Mathlib.Tactic.Cases
import ServerHost.Library.Machine

/-!
# One connection of a `WebSocket`

`WebSocket::Private`: the state of a connection and the functions of
`NetworkTransport.cpp` that change it.  A signal runs the slots of the application
before it returns, and a slot may call any function of the socket or, through an
event loop of its own, let another chunk arrive.  So a call in progress is a frame
of things it still has to do, and `resume` lets the innermost one do the next.

What the session of iiNetwork decodes, accepts and refuses is part of the input.
-/

namespace ServerHost

namespace WebSocket

/-! ## The data -/

/-- `ii::network::SocketState`. -/
inductive SocketState where
  | closed | connecting | connected | closing | failed
  deriving DecidableEq

/-- `ii::network::WebSocketEvent`; `other` is one that `receive` passes over. -/
inductive SessionEvent where
  | upgradeRequest | opened | text (payload : String) | binary (payload : List UInt8)
  | closed | other

/-- What a call in progress still has to do: an event of the batch, the read that
follows an upgrade, the last `flush`, or the end of `finish`. -/
inductive Item where
  | event (event : SessionEvent)
  | again
  | flush
  | disconnect

/-- The signals, and the calls of `close`. -/
inductive Event where
  | connected
  | textMessageReceived (text : String)
  | binaryMessageReceived (bytes : List UInt8)
  | errorOccurred (error : String)
  | disconnected
  | closeCalled

end WebSocket

open WebSocket in
structure WebSocket where
  /-- Whether the `WebSocket` object still lives. -/
  owner : Bool := true
  /-- Whether it still uses this connection: `open` starts another one. -/
  current : Bool := true
  session : Bool := false
  error : String := ""
  notified : Bool := false
  state : SocketState := .connecting
  /-- The calls in progress, innermost first. -/
  stack : List (List Item) := []
  log : List Event := []

namespace WebSocket

/-- What iiNetwork answers while an input is handled.  `overflow` says that `flush`
finds more than the stream may hold. -/
structure World where
  overflow : Bool
  accept : Option String
  close : Option String
  receive : Except String (List SessionEvent)

/-! ## The calls -/

def emit (event : Event) (socket : WebSocket) : WebSocket :=
  { socket with log := event :: socket.log }

/-- The last lines of `finish`. -/
def disconnect (socket : WebSocket) : WebSocket :=
  if socket.owner ∧ ¬ socket.notified then
    { socket with notified := true }.emit .disconnected
  else socket

/-- `finish`. -/
def finish (message : String) (socket : WebSocket) : WebSocket :=
  if socket.state = .closed ∨ socket.state = .failed then socket
  else
    let socket := { socket with
      error := message
      state := if message = "" then .closed else .failed
      session := false }
    if socket.owner ∧ message ≠ "" then
      { socket with stack := [.disconnect] :: socket.stack }.emit (.errorOccurred message)
    else socket.disconnect

/-- `flush`. -/
def flush (world : World) (socket : WebSocket) : WebSocket :=
  if socket.session ∧ world.overflow then socket.finish "WebSocket output capacity exceeded"
  else socket

/-- `opened`. -/
def opened (socket : WebSocket) : WebSocket :=
  if ¬ socket.owner ∨ socket.state ≠ .connecting then socket
  else { socket with state := .connected }.emit .connected

/-- `receive`, up to its loop. -/
def receive (world : World) (socket : WebSocket) : WebSocket :=
  if ¬ socket.session ∨ ¬ socket.owner then socket
  else match world.receive with
    | .error message => socket.finish message
    | .ok events => { socket with stack := (events.map .event ++ [.flush]) :: socket.stack }

/-- The rest of the call does not run. -/
def leave (socket : WebSocket) : WebSocket := { socket with stack := socket.stack.tail }

/-- One round of the loop of `receive`. -/
def handle (world : World) (event : SessionEvent) (socket : WebSocket) : WebSocket :=
  if ¬ socket.owner ∨ ¬ socket.session then socket.leave
  else match event with
    | .upgradeRequest =>
        match world.accept with
        | some error => socket.leave.finish error
        | none =>
            let items := socket.stack.headD []
            { socket with stack := (.again :: items) :: socket.stack.tail }.flush world |>.opened
    | .opened => socket.opened
    | .text payload => socket.emit (.textMessageReceived payload)
    | .binary payload => socket.emit (.binaryMessageReceived payload)
    | .closed => { socket with state := .closing }.flush world
    | .other => socket

/-- The innermost call goes on. -/
def resume (world : World) (socket : WebSocket) : WebSocket :=
  match socket.stack with
  | [] => socket
  | [] :: rest => { socket with stack := rest }
  | (item :: items) :: rest =>
      let socket := { socket with stack := items :: rest }
      match item with
      | .event event => socket.handle world event
      | .again => if socket.session then socket.receive world else socket
      | .flush => socket.flush world
      | .disconnect => socket.disconnect

/-! ## The slots -/

/-- `retry`.  Another address is dialled from a turn of its own. -/
def retry (message : String) (exhausted : Bool) (socket : WebSocket) : WebSocket :=
  if socket.state ≠ .connecting ∨ exhausted then socket.finish message else socket

/-- `dialNext`, with the message of its failure. -/
def dialNext (failure : Option String) (socket : WebSocket) : WebSocket :=
  if socket.state ≠ .connecting then socket
  else match failure with
    | some message => { socket with session := false }.finish message
    | none => { socket with session := true }

/-- The sending functions, which only a connected socket performs. -/
def send (world : World) (failure : Option String) (socket : WebSocket) : WebSocket :=
  if ¬ socket.session ∨ socket.state ≠ .connected then socket
  else match failure with
    | some message => socket.finish message
    | none => socket.flush world

/-- `WebSocket::close`. -/
def close (world : World) (socket : WebSocket) : WebSocket :=
  let socket := socket.emit .closeCalled
  if ¬ socket.session ∨ socket.state ≠ .connected then socket.finish ""
  else match world.close with
    | some message => socket.finish message
    | none => { socket with state := .closing }.flush world

/-- A function of the object, while the object lives and uses this connection. -/
def onOwner (f : WebSocket → WebSocket) (socket : WebSocket) : WebSocket :=
  if socket.owner ∧ socket.current then f socket else socket

/-! ## The event loop -/

inductive Input where
  | resume
  | readable
  | drained
  | failed (message : String) (exhausted : Bool)
  | disconnected (exhausted : Bool)
  | dial (failure : Option String)
  | timeout (message : String)
  | send (failure : Option String)
  | close
  | abort
  | reopen
  | delete

structure Step where
  input : Input
  world : World

/-- What an input does.  Those of the application come from a slot or from outside. -/
def next (socket : WebSocket) (step : Step) : WebSocket :=
  match step.input with
  | .resume => socket.resume step.world
  | .readable => socket.receive step.world
  | .drained => socket.flush step.world
  | .failed message exhausted => socket.retry message exhausted
  | .disconnected exhausted =>
      if socket.state = .connecting then
        socket.retry "WebSocket endpoint disconnected during handshake" exhausted
      else socket.finish ""
  | .dial failure => socket.dialNext failure
  | .timeout message => socket.finish (if socket.state = .closing then "" else message)
  | .send failure => socket.onOwner (send step.world failure)
  | .close => socket.onOwner (close step.world)
  | .abort => socket.onOwner (finish "")
  | .reopen => socket.onOwner fun socket => { socket.finish "" with current := false }
  | .delete => { socket with owner := false }.finish ""

/-- A connection starts from a stream that was accepted, or from an address. -/
def machine : Machine WebSocket Step where
  init socket := ∃ session, socket = { session := session }
  next := next

end WebSocket

end ServerHost
