import ServerHost.Transport.Fallback

/-!
# The output of a socket

What a `WebSocket` sends goes through two buffers: that of its session, which frames the
messages, and `output`, which waits for the stream.  `flush` moves the bytes on, and it is
called from everywhere: from the sending functions, from the callbacks of the stream, and
from `receive`, whose slots may call any of them.

## Strategy

`wire` is the history of both ends, by the number of the session.  `Carried` is the
invariant: while a session lives, what it framed is what the stream took, followed by the
two buffers.  `finish` and `dialNext` are the only functions that drop bytes, and both
give up the session.  The connection without its bytes is the one of `WebSocket`, and
`next_reaches` says that this one refines it.
-/

namespace ServerHost

namespace WebSocket

/-! ## The stream and the channel -/

/-- What the socket sees of a `ByteStream`. -/
structure Stream where
  connected : Bool
  /-- `pending_bytes`: what it took and has not sent. -/
  pending : ℕ := 0

/-- A `write` that succeeds.  Of iiNetwork it is assumed that `pending_bytes` counts the bytes
as they are given to the stream, without what a TLS stream adds to them: it grows by their
number and by nothing else. -/
def Stream.take (bytes : Bytes) (stream : Stream) : Stream :=
  { stream with pending := stream.pending + bytes.length }

/-- What happens to the bytes of a session. -/
inductive Transfer where
  | framed (session : ℕ) (bytes : Bytes)
  | written (session : ℕ) (bytes : Bytes)
  /-- The graceful close of the stream. -/
  | shut (session : ℕ)

/-- A connection with its bytes. -/
structure Channel where
  socket : WebSocket
  /-- The sessions that were made. -/
  sessions : ℕ := 0
  /-- What `take_output` would return. -/
  waiting : Bytes := []
  output : Bytes := []
  stream : Option Stream := none
  /-- Whether the callbacks of the stream are in place. -/
  attached : Bool := false
  transportClosing : Bool := false
  wire : List Transfer := []

/-- The size that `output` and the stream may hold together. -/
def outputCapacity : ℕ := 5 * 1024 * 1024

/-- The size that a message may find and bring. -/
def messageCapacity : ℕ := 4 * 1024 * 1024

namespace Channel

/-- What iiNetwork answers while an input is handled: what the session frames, or its
error, and whether the stream takes what it is given. -/
structure World where
  accept : Except String Bytes
  close : Except String Bytes
  receive : Except String (List SessionEvent × Bytes)
  write : Bool

/-! ## The calls -/

/-- The session frames something. -/
def frame (bytes : Bytes) (channel : Channel) : Channel :=
  { channel with
    waiting := channel.waiting ++ bytes
    wire := .framed channel.sessions bytes :: channel.wire }

/-- A change of the connection alone. -/
def onSocket (f : WebSocket → WebSocket) (channel : Channel) : Channel :=
  { channel with socket := f channel.socket }

/-- `detach` and the `close` of the stream. -/
def detach (channel : Channel) : Channel :=
  { channel with
    attached := false
    stream := channel.stream.map fun stream => { stream with connected := false } }

/-- `finish`. -/
def finish (message : String) (channel : Channel) : Channel :=
  if channel.socket.state = .closed ∨ channel.socket.state = .failed then channel
  else { channel.detach.onSocket (WebSocket.finish message) with waiting := [], output := [] }

/-- `bytesToWrite`. -/
def bytesToWrite (channel : Channel) : ℕ :=
  channel.output.length + (channel.stream.map (·.pending)).getD 0

/-- `stream->write(output)`. -/
def write (world : World) (stream : Stream) (channel : Channel) : Channel :=
  if channel.output ≠ [] ∧ world.write then
    { channel with
      output := []
      stream := some (stream.take channel.output)
      wire := .written channel.sessions channel.output :: channel.wire }
  else channel

/-- The graceful close, once nothing is left. -/
def shut (channel : Channel) : Channel :=
  if channel.socket.state = .closing ∧ channel.output = [] ∧ ¬ channel.transportClosing then
    { channel with transportClosing := true, wire := .shut channel.sessions :: channel.wire }
  else channel

/-- `flush`. -/
def flush (world : World) (channel : Channel) : Channel :=
  match channel.stream with
  | none => channel
  | some stream =>
      if ¬ channel.socket.session ∨ ¬ stream.connected then channel
      else
        let channel := { channel with output := channel.output ++ channel.waiting, waiting := [] }
        if channel.output.length + stream.pending > outputCapacity then
          channel.finish "WebSocket output capacity exceeded"
        else (channel.write world stream).shut

/-- `receive`, up to its loop. -/
def receive (world : World) (channel : Channel) : Channel :=
  if ¬ channel.socket.session ∨ ¬ channel.socket.owner then channel
  else match world.receive with
    | .error message => channel.finish message
    | .ok (events, reply) =>
        (channel.frame reply).onSocket fun socket =>
          { socket with stack := (events.map .event ++ [.flush]) :: socket.stack }

/-- One round of the loop of `receive`. -/
def handle (world : World) (event : SessionEvent) (channel : Channel) : Channel :=
  if ¬ channel.socket.owner ∨ ¬ channel.socket.session then channel.onSocket leave
  else match event with
    | .upgradeRequest =>
        match world.accept with
        | .error message => (channel.onSocket leave).finish message
        | .ok bytes =>
            let channel := (channel.frame bytes).onSocket fun socket =>
              { socket with stack := (.again :: socket.stack.headD []) :: socket.stack.tail }
            (channel.flush world).onSocket opened
    | .opened => channel.onSocket opened
    | .text payload => channel.onSocket (WebSocket.emit (.textMessageReceived payload))
    | .binary payload => channel.onSocket (WebSocket.emit (.binaryMessageReceived payload))
    | .closed => (channel.onSocket fun socket => { socket with state := .closing }).flush world
    | .other => channel

/-- The innermost call goes on. -/
def resume (world : World) (channel : Channel) : Channel :=
  match channel.socket.stack with
  | [] => channel
  | [] :: rest => channel.onSocket fun socket => { socket with stack := rest }
  | (item :: items) :: rest =>
      let channel := channel.onSocket fun socket => { socket with stack := items :: rest }
      match item with
      | .event event => channel.handle world event
      | .again => if channel.socket.session then channel.receive world else channel
      | .flush => channel.flush world
      | .disconnect => channel.onSocket disconnect

/-- `retry`. -/
def retry (message : String) (exhausted : Bool) (channel : Channel) : Channel :=
  if channel.socket.state ≠ .connecting ∨ exhausted then channel.finish message
  else channel.detach

/-- What `dialNext` meets: whether an address is left, the upgrade request of the session,
and the errors of the context and of `connect`, after which `retry` looks for another
address. -/
structure Dial where
  address : Bool := true
  session : Except String Bytes
  context : Option String := none
  connect : Option String := none
  exhausted : Bool := false
  connected : Bool := false

/-- `attach`, for a stream that was put in place. -/
def attach (world : World) (connected : Bool) (channel : Channel) : Channel :=
  let channel := { channel with attached := true }
  if connected then channel.flush world else channel

/-- `dialNext`. -/
def dialNext (world : World) (dial : Dial) (channel : Channel) : Channel :=
  if channel.socket.state ≠ .connecting then channel
  else
    let channel := { channel.onSocket fun socket => { socket with session := false } with
      attached := false, stream := none, waiting := [], output := [] }
    if ¬ dial.address then channel.finish "No reachable WebSocket endpoint"
    else match dial.session with
      | .error message => channel.finish message
      | .ok request =>
          let channel := ({ channel with sessions := channel.sessions + 1 }.frame request).onSocket
            fun socket => { socket with session := true }
          match dial.context with
          | some message => channel.finish message
          | none =>
              match dial.connect with
              | some message =>
                  { channel with stream := some { connected := false } }.retry message
                    dial.exhausted
              | none =>
                  { channel with stream := some { connected := dial.connected } }.attach world
                    dial.connected

/-- `sendTextMessage` and `sendBinaryMessage`, with the bytes of the payload and what the
session makes of them. -/
def send (world : World) (payload : Bytes) (framed : Except String Bytes) (channel : Channel) :
    Channel :=
  if ¬ channel.socket.session ∨ channel.socket.state ≠ .connected then channel
  else if channel.bytesToWrite + payload.length > messageCapacity then
    channel.finish "WebSocket output capacity exceeded"
  else match framed with
    | .error message => channel.finish message
    | .ok bytes => (channel.frame bytes).flush world

/-- `ping`. -/
def ping (world : World) (framed : Except String Bytes) (channel : Channel) : Channel :=
  if ¬ channel.socket.session ∨ channel.socket.state ≠ .connected then channel
  else match framed with
    | .error message => channel.finish message
    | .ok bytes => (channel.frame bytes).flush world

/-- `WebSocket::close`. -/
def close (world : World) (channel : Channel) : Channel :=
  let channel := channel.onSocket (WebSocket.emit .closeCalled)
  if ¬ channel.socket.session ∨ channel.socket.state ≠ .connected then channel.finish ""
  else match world.close with
    | .error message => channel.finish message
    | .ok bytes =>
        ((channel.frame bytes).onSocket fun socket => { socket with state := .closing }).flush world

/-! ## The event loop -/

/-- A function of the object, while the object lives and uses this connection. -/
def onOwner (f : Channel → Channel) (channel : Channel) : Channel :=
  if channel.socket.owner ∧ channel.socket.current then f channel else channel

/-- The stream goes on by itself. -/
def onStream (f : Stream → Stream) (channel : Channel) : Channel :=
  { channel with stream := channel.stream.map f }

/-- A callback of the stream, while it is in place. -/
def callback (f : Channel → Channel) (channel : Channel) : Channel :=
  if channel.attached then f channel else channel

inductive Input where
  | resume
  /-- The stream sends what it took, or loses the connection, and no callback ran yet. -/
  | sent (bytes : ℕ)
  | lost
  | connected
  | readable
  | drained
  | failed (message : String) (exhausted : Bool)
  | disconnected (exhausted : Bool)
  | dial (dial : Dial)
  /-- A failure before an address is dialled: a bad URL, or no answer of the resolver. -/
  | unresolved (message : String)
  | timeout (message : String)
  | send (payload : Bytes) (framed : Except String Bytes)
  | ping (framed : Except String Bytes)
  | close
  | abort
  | reopen
  | delete

structure Step where
  input : Input
  world : World

def next (channel : Channel) (step : Step) : Channel :=
  match step.input with
  | .resume => channel.resume step.world
  | .sent bytes => channel.onStream fun stream => { stream with pending := stream.pending - bytes }
  | .lost => channel.onStream fun stream => { stream with connected := false }
  | .connected => channel.callback fun channel =>
      (channel.onStream fun stream => { stream with connected := true }).flush step.world
  | .readable => channel.callback (receive step.world)
  | .drained => channel.callback (flush step.world)
  | .failed message exhausted => channel.callback (retry message exhausted)
  | .disconnected exhausted => channel.callback fun channel =>
      if channel.socket.state = .connecting then
        channel.retry "WebSocket endpoint disconnected during handshake" exhausted
      else channel.finish ""
  | .dial dial => channel.dialNext step.world dial
  | .unresolved message =>
      if channel.socket.state = .connecting then channel.finish message else channel
  | .timeout message => channel.finish (if channel.socket.state = .closing then "" else message)
  | .send payload framed => channel.onOwner (send step.world payload framed)
  | .ping framed => channel.onOwner (ping step.world framed)
  | .close => channel.onOwner (close step.world)
  | .abort => channel.onOwner (finish "")
  | .reopen => channel.onOwner fun channel =>
      (channel.finish "").onSocket fun socket => { socket with current := false }
  | .delete => (channel.onSocket fun socket => { socket with owner := false }).finish ""

/-- A connection starts from an address, or from a stream that a listener accepted. -/
def machine : Machine Channel Step where
  init channel := channel = { socket := {} } ∨
    channel = { socket := { session := true }, sessions := 1, stream := some { connected := true }
                attached := true }
  next := next

/-! ## The connection without its bytes

`flush` finds the overflow that the other model leaves open, and each function is the one
of `WebSocket` on the connection. -/

variable {channel : Channel} {world : World}

open Private (Reaches)

/-- More is to be written than the stream may hold. -/
def overflows (channel : Channel) : Bool :=
  channel.stream.any fun stream => stream.connected &&
    decide (channel.output.length + channel.waiting.length + stream.pending > outputCapacity)

/-- The answer is an error. -/
def refusal {α : Type} : Except String α → Option String
  | .error message => some message
  | .ok _ => none

/-- What the connection meets, without the bytes. -/
def World.seen (world : World) (overflow : Bool) : WebSocket.World where
  overflow := overflow
  accept := refusal world.accept
  close := refusal world.close
  receive := world.receive.map Prod.fst

@[simp] theorem finish_socket (message : String) (channel : Channel) :
    (channel.finish message).socket = channel.socket.finish message := by
  unfold finish
  split
  · next hended => exact (if_pos hended).symm
  · rfl

@[simp] theorem write_socket (world : World) (stream : Stream) (channel : Channel) :
    (channel.write world stream).socket = channel.socket := by
  unfold write
  split <;> rfl

@[simp] theorem shut_socket (channel : Channel) : channel.shut.socket = channel.socket := by
  unfold shut
  split <;> rfl

theorem flush_socket (world : World) (channel : Channel) : (channel.flush world).socket =
    channel.socket.flush (world.seen channel.overflows) := by
  unfold flush WebSocket.flush overflows World.seen
  cases channel.stream with
  | none => exact (if_neg (by simp)).symm
  | some stream =>
      dsimp only [Option.any_some]
      by_cases hidle : ¬ channel.socket.session = true ∨ ¬ stream.connected = true
      · rw [if_pos hidle, if_neg]
        rcases hidle with hno | hno <;> simp [hno]
      rw [if_neg hidle, List.length_append]
      rw [not_or, not_not, not_not] at hidle
      by_cases hover : channel.output.length + channel.waiting.length + stream.pending >
          outputCapacity
      · rw [if_pos hover, finish_socket, if_pos ⟨hidle.1, by simp [hidle.2, hover]⟩]
      · rw [if_neg hover, shut_socket, write_socket, if_neg fun h =>
          hover (of_decide_eq_true (Bool.and_eq_true_iff.1 h.2).2)]

theorem receive_socket (world : World) (channel : Channel) (overflow : Bool) :
    (channel.receive world).socket = channel.socket.receive (world.seen overflow) := by
  unfold receive WebSocket.receive World.seen
  split
  · rfl
  · cases world.receive with
    | error message => exact finish_socket message channel
    | ok answer => rfl

theorem handle_socket (world : World) (event : SessionEvent) (channel : Channel) : ∃ overflow,
    (channel.handle world event).socket =
      channel.socket.handle (world.seen overflow) event := by
  unfold handle WebSocket.handle
  split
  · exact ⟨false, rfl⟩
  cases event with
  | upgradeRequest =>
      cases haccept : world.accept with
      | error message =>
          refine ⟨false, ?_⟩
          simp only [World.seen, haccept, refusal]
          exact finish_socket message (channel.onSocket leave)
      | ok bytes =>
          refine ⟨((channel.frame bytes).onSocket fun socket => { socket with
            stack := (.again :: socket.stack.headD []) :: socket.stack.tail }).overflows, ?_⟩
          simp only [World.seen, haccept, refusal]
          refine congrArg opened ((flush_socket world _).trans ?_)
          simp only [World.seen, haccept]
          rfl
  | opened => exact ⟨false, rfl⟩
  | text payload => exact ⟨false, rfl⟩
  | binary payload => exact ⟨false, rfl⟩
  | closed => exact ⟨_, flush_socket world (channel.onSocket fun socket =>
      { socket with state := .closing })⟩
  | other => exact ⟨false, rfl⟩

theorem resume_socket (world : World) (channel : Channel) : ∃ overflow,
    (channel.resume world).socket = channel.socket.resume (world.seen overflow) := by
  unfold resume WebSocket.resume
  cases channel.socket.stack with
  | nil => exact ⟨false, rfl⟩
  | cons own rest =>
      cases own with
      | nil => exact ⟨false, rfl⟩
      | cons item items =>
          have hpopped : ∀ f : WebSocket → WebSocket, (channel.onSocket f).socket =
            f channel.socket := fun _ => rfl
          cases item with
          | event event => exact handle_socket world event (channel.onSocket fun socket =>
              { socket with stack := items :: rest })
          | again =>
              refine ⟨false, ?_⟩
              dsimp only
              rw [apply_ite Channel.socket, receive_socket world _ false]
              rfl
          | flush => exact ⟨_, flush_socket world (channel.onSocket fun socket =>
              { socket with stack := items :: rest })⟩
          | disconnect => exact ⟨false, rfl⟩

theorem finish_reaches (message : String) (channel : Channel) :
    Reaches channel.socket (channel.finish message).socket :=
  ⟨[⟨.failed message true, ⟨false, none, none, .ok []⟩⟩],
    (finish_socket message channel).trans (if_pos (.inr rfl)).symm⟩

theorem retry_reaches (message : String) (exhausted : Bool) (channel : Channel) :
    Reaches channel.socket (channel.retry message exhausted).socket := by
  unfold retry
  split
  · exact finish_reaches message channel
  · exact .refl _

theorem flush_reaches (world : World) (channel : Channel) :
    Reaches channel.socket (channel.flush world).socket :=
  ⟨[⟨.drained, world.seen channel.overflows⟩], flush_socket world channel⟩

theorem dialNext_reaches (world : World) (dial : Dial) (channel : Channel) :
    Reaches channel.socket (channel.dialNext world dial).socket := by
  unfold dialNext
  by_cases hconnecting : channel.socket.state = .connecting
  · rw [if_neg (not_not.2 hconnecting)]
    have hgiven : Reaches channel.socket { channel.socket with session := true } :=
      ⟨[⟨.dial none, world.seen false⟩], (if_neg (not_not.2 hconnecting)).symm⟩
    have hfailed : ∀ message : String,
        Reaches channel.socket
          (WebSocket.finish message { channel.socket with session := false }) :=
      fun message => ⟨[⟨.dial (some message), world.seen false⟩],
        (if_neg (not_not.2 hconnecting)).symm⟩
    split
    · rw [finish_socket]
      exact hfailed _
    cases dial.session with
    | error message =>
        dsimp only
        rw [finish_socket]
        exact hfailed _
    | ok request =>
        dsimp only
        cases dial.context with
        | some message => exact hgiven.trans (finish_reaches message _)
        | none =>
            dsimp only
            cases dial.connect with
            | some message => exact hgiven.trans (retry_reaches message dial.exhausted _)
            | none =>
                unfold attach
                dsimp only
                split
                · exact hgiven.trans (flush_reaches world _)
                · exact hgiven
  · rw [if_pos hconnecting]
    exact .refl _

/-- What the sending functions do once they may send. -/
theorem framed_reaches (world : World) (framed : Except String Bytes) (channel : Channel) :
    Reaches channel.socket (match framed with
      | .error message => channel.finish message
      | .ok bytes => (channel.frame bytes).flush world).socket := by
  cases framed with
  | error message => exact finish_reaches message channel
  | ok bytes => exact flush_reaches world (channel.frame bytes)

theorem send_reaches (world : World) (payload : Bytes) (framed : Except String Bytes)
    (channel : Channel) : Reaches channel.socket (channel.send world payload framed).socket := by
  unfold send
  split
  · exact .refl _
  split
  · exact finish_reaches ..
  · exact framed_reaches world framed channel

theorem ping_reaches (world : World) (framed : Except String Bytes) (channel : Channel) :
    Reaches channel.socket (channel.ping world framed).socket := by
  unfold ping
  split
  · exact .refl _
  · exact framed_reaches world framed channel

theorem close_socket (world : World) (channel : Channel) : ∃ overflow,
    (channel.close world).socket = channel.socket.close (world.seen overflow) := by
  unfold close WebSocket.close
  dsimp only
  by_cases hopen : ¬ (channel.onSocket (WebSocket.emit .closeCalled)).socket.session = true ∨
      (channel.onSocket (WebSocket.emit .closeCalled)).socket.state ≠ .connected
  · rw [if_pos hopen]
    exact ⟨false, (finish_socket ..).trans (if_pos hopen).symm⟩
  rw [if_neg hopen]
  cases hclose : world.close with
  | error message =>
      refine ⟨false, (finish_socket ..).trans (Eq.symm ((if_neg hopen).trans ?_))⟩
      simp only [World.seen, hclose, refusal]
      rfl
  | ok bytes =>
      refine ⟨(((channel.onSocket (WebSocket.emit .closeCalled)).frame bytes).onSocket fun socket =>
        { socket with state := .closing }).overflows, ?_⟩
      refine (flush_socket ..).trans (Eq.symm ((if_neg hopen).trans ?_))
      simp only [World.seen, hclose, refusal]
      rfl

/-- A function of the object is a step while the object uses this connection. -/
theorem onOwner_reaches {f : Channel → Channel}
    (h : channel.socket.owner = true → channel.socket.current = true →
      Reaches channel.socket (f channel).socket) :
    Reaches channel.socket (channel.onOwner f).socket := by
  unfold onOwner
  split
  · next howner => exact h howner.1 howner.2
  · exact .refl _

theorem callback_reaches {f : Channel → Channel} (h : Reaches channel.socket (f channel).socket) :
    Reaches channel.socket (channel.callback f).socket := by
  unfold callback
  split
  · exact h
  · exact .refl _

/-! ## Every turn and every run -/

/-- Seen from its connection, a step is a list of steps of `WebSocket.machine`. -/
theorem next_reaches (channel : Channel) (step : Step) :
    Reaches channel.socket (channel.next step).socket := by
  unfold next
  cases step.input with
  | resume =>
      obtain ⟨overflow, hsocket⟩ := resume_socket step.world channel
      exact ⟨[⟨.resume, step.world.seen overflow⟩], hsocket⟩
  | sent bytes => exact .refl _
  | lost => exact .refl _
  | connected => exact callback_reaches (flush_reaches step.world (channel.onStream _))
  | readable => exact callback_reaches ⟨[⟨.readable, step.world.seen false⟩],
      receive_socket step.world channel false⟩
  | drained => exact callback_reaches (flush_reaches step.world channel)
  | failed message exhausted => exact callback_reaches (retry_reaches message exhausted channel)
  | disconnected exhausted =>
      refine callback_reaches ?_
      split
      · exact retry_reaches _ exhausted channel
      · exact finish_reaches "" channel
  | dial dial => exact dialNext_reaches step.world dial channel
  | unresolved message =>
      dsimp only
      split
      · exact finish_reaches message channel
      · exact .refl _
  | timeout message => exact finish_reaches _ channel
  | send payload framed => exact onOwner_reaches fun _ _ => send_reaches ..
  | ping framed => exact onOwner_reaches fun _ _ => ping_reaches ..
  | close =>
      refine onOwner_reaches fun howner hcurrent => ?_
      obtain ⟨overflow, hsocket⟩ := close_socket step.world channel
      refine ⟨[⟨.close, step.world.seen overflow⟩], hsocket.trans ?_⟩
      exact (if_pos ⟨howner, hcurrent⟩).symm
  | abort => exact onOwner_reaches fun _ _ => finish_reaches "" channel
  | reopen =>
      refine onOwner_reaches fun howner hcurrent => ?_
      refine ⟨[⟨.reopen, step.world.seen false⟩], ?_⟩
      change { (channel.finish "").socket with current := false } = _
      rw [finish_socket]
      exact (if_pos ⟨howner, hcurrent⟩).symm
  | delete => exact ⟨[⟨.delete, step.world.seen false⟩], finish_socket ..⟩

/-- **The connection with its bytes refines the connection**: its runs are runs of
`WebSocket.machine`. -/
theorem run_reaches {ok : Channel → Step → Prop} {trace : List (Channel × Step)}
    (run : machine.Run ok trace channel) :
    ∃ visits, WebSocket.machine.Run (fun _ _ => True) visits channel.socket := by
  induction run with
  | start hinit =>
      rcases hinit with rfl | rfl
      · exact ⟨[], .start ⟨false, rfl⟩⟩
      · exact ⟨[], .start ⟨true, rfl⟩⟩
  | @step trace channel step _ _ ih =>
      obtain ⟨visits, hvisits⟩ := ih
      obtain ⟨steps, hsteps⟩ := next_reaches channel step
      change ∃ visits, WebSocket.machine.Run _ visits (channel.next step).socket
      rw [hsteps]
      exact hvisits.extend_all steps

end Channel

end WebSocket

end ServerHost
