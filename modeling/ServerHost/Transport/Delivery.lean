import ServerHost.Transport.Output

/-!
# What the stream takes

The bytes that a session frames reach the stream in their order, none of them twice, and
while the session lives none is lost: what the stream has not taken is in the buffers.

## Strategy

Only three functions touch the buffers.  `frame` adds to the last of them and to the
history, `write` moves `output` as a whole, and `finish` and `dialNext` empty them when the
session is given up.  Everything else leaves `Carried` alone because it changes the
connection only.  `Prompt` says in addition that nothing stays in the session while the
stream is connected, unless a `receive` in progress still has its own `flush` to do.
-/

namespace ServerHost

namespace WebSocket

namespace Channel

/-- What a session framed. -/
def framed (session : ℕ) : List Transfer → Bytes
  | [] => []
  | .framed own bytes :: wire =>
      if own = session then framed session wire ++ bytes else framed session wire
  | _ :: wire => framed session wire

/-- What the stream of a session took. -/
def written (session : ℕ) : List Transfer → Bytes
  | [] => []
  | .written own bytes :: wire =>
      if own = session then written session wire ++ bytes else written session wire
  | _ :: wire => written session wire

/-- The event is a graceful close. -/
def shuts : Transfer → Bool
  | .shut _ => true
  | _ => false

/-- A graceful close comes when the stream took everything. -/
def Whole (event : Transfer) (earlier : List Transfer) : Prop :=
  ∀ session, event = .shut session → written session earlier = framed session earlier

/-- Where the bytes are. -/
structure Carried (channel : Channel) : Prop where
  live : channel.socket.session = true → framed channel.sessions channel.wire =
    written channel.sessions channel.wire ++ channel.output ++ channel.waiting
  idle : channel.socket.session = false → channel.output = [] ∧ channel.waiting = []
  ordered : ∀ session, written session channel.wire <+: framed session channel.wire
  fresh : ∀ session, channel.sessions < session →
    framed session channel.wire = [] ∧ written session channel.wire = []
  whole : Always Whole channel.wire
  once : channel.wire.countP shuts = channel.transportClosing.toNat
  closing : channel.transportClosing = true →
    channel.socket.state ≠ .connecting ∧ channel.socket.state ≠ .connected
  bounded : channel.bytesToWrite ≤ outputCapacity
  joined : Joined channel.socket
  owned : channel.socket.owner = false → Ended channel.socket

variable {channel : Channel} {world : World}

/-! ## Functions of the connection -/

/-- A change of the connection that keeps its session, and leads no closing one back. -/
theorem Carried.onSocket (h : Carried channel) {f : WebSocket → WebSocket}
    (hsession : (f channel.socket).session = channel.socket.session)
    (hjoined : Joined (f channel.socket))
    (howned : (f channel.socket).owner = false → Ended (f channel.socket))
    (hstate : channel.socket.state ≠ .connecting → channel.socket.state ≠ .connected →
      (f channel.socket).state ≠ .connecting ∧ (f channel.socket).state ≠ .connected) :
    Carried (channel.onSocket f) where
  live hlive := h.live (hsession.symm.trans hlive)
  idle hidle := h.idle (hsession.symm.trans hidle)
  ordered := h.ordered
  fresh := h.fresh
  whole := h.whole
  once := h.once
  closing hclosing := hstate (h.closing hclosing).1 (h.closing hclosing).2
  bounded := h.bounded
  joined := hjoined
  owned := howned

/-- The session, the owner and the state stay. -/
theorem Carried.onSocket_eq (h : Carried channel) {f : WebSocket → WebSocket}
    (hsession : (f channel.socket).session = channel.socket.session)
    (howner : (f channel.socket).owner = channel.socket.owner)
    (hstate : (f channel.socket).state = channel.socket.state) : Carried (channel.onSocket f) := by
  refine h.onSocket hsession ⟨?_, ?_⟩ ?_ fun hconnecting hconnected => ?_
  · rw [hsession, hstate]
    exact h.joined.live
  · rw [hsession, hstate]
    exact h.joined.closing
  · rw [howner, Ended, hstate]
    exact h.owned
  · rw [hstate]
    exact ⟨hconnecting, hconnected⟩

/-- A session that lives begins to close. -/
theorem Carried.shutting (h : Carried channel) (hsession : channel.socket.session = true) :
    Carried (channel.onSocket fun socket => { socket with state := .closing }) := by
  refine h.onSocket rfl (closing_coherent hsession).toJoined (fun hgone => ?_) fun _ _ =>
    ⟨by simp, by simp⟩
  obtain ⟨hclosed, hfailed⟩ := h.joined.live hsession
  exact absurd (h.owned hgone) (not_or.2 ⟨hclosed, hfailed⟩)

theorem Carried.opened (h : Carried channel) : Carried (channel.onSocket opened) := by
  by_cases hopen : ¬ channel.socket.owner = true ∨ channel.socket.state ≠ .connecting
  · rw [Channel.onSocket, WebSocket.opened, if_pos hopen]
    exact h
  rw [Channel.onSocket, WebSocket.opened, if_neg hopen]
  rw [not_or, not_not, not_not] at hopen
  refine h.onSocket (f := fun socket => { socket with state := .connected }.emit .connected) rfl
    ⟨by simp [WebSocket.emit], by simp [WebSocket.emit]⟩ (fun hgone => ?_) fun hno => ?_
  · exact absurd (hopen.1.symm.trans hgone) (by simp)
  · exact absurd hopen.2 hno

/-! ## The buffers -/

theorem framed_cons (session own : ℕ) (bytes : Bytes) (wire : List Transfer) :
    framed session (.framed own bytes :: wire) =
      framed session wire ++ if own = session then bytes else [] := by
  rw [framed]
  split <;> simp

theorem written_cons (session own : ℕ) (bytes : Bytes) (wire : List Transfer) :
    written session (.written own bytes :: wire) =
      written session wire ++ if own = session then bytes else [] := by
  rw [written]
  split <;> simp

/-- The session that is in place frames something. -/
theorem Carried.frame (h : Carried channel) (hsession : channel.socket.session = true)
    (bytes : Bytes) : Carried (channel.frame bytes) where
  live _ := by
    change framed channel.sessions (.framed channel.sessions bytes :: channel.wire) = _
    rw [framed_cons, if_pos rfl, h.live hsession, List.append_assoc]
    rfl
  idle hidle := absurd (hsession.symm.trans hidle) (by simp)
  ordered session := by
    change written session channel.wire <+: framed session (.framed _ bytes :: channel.wire)
    rw [framed_cons]
    exact (h.ordered session).trans (List.prefix_append ..)
  fresh session hlt := by
    change channel.sessions < session at hlt
    change framed session (.framed _ bytes :: channel.wire) = [] ∧ written session channel.wire = []
    rw [framed_cons, if_neg (Nat.ne_of_lt hlt), List.append_nil]
    exact h.fresh session hlt
  whole := h.whole.cons fun _ heq => by cases heq
  once := h.once
  closing := h.closing
  bounded := h.bounded
  joined := h.joined
  owned := h.owned

/-- `output` takes what waits in the session. -/
theorem Carried.taken (h : Carried channel) {stream : Stream}
    (hstream : channel.stream = some stream)
    (hroom : (channel.output ++ channel.waiting).length + stream.pending ≤ outputCapacity) :
    Carried { channel with output := channel.output ++ channel.waiting, waiting := [] } :=
  { h with
    live := fun hlive => by
      rw [h.live hlive, List.append_nil, List.append_assoc]
    idle := fun hidle => by
      obtain ⟨houtput, hwaiting⟩ := h.idle hidle
      exact ⟨by rw [houtput, hwaiting, List.append_nil], rfl⟩
    bounded := by
      unfold bytesToWrite
      rw [hstream]
      exact hroom }

theorem Carried.write (h : Carried channel) (hsession : channel.socket.session = true)
    {stream : Stream} (hstream : channel.stream = some stream) :
    Carried (channel.write world stream) := by
  unfold Channel.write
  split
  · have hlive := h.live hsession
    have hbounded : channel.output.length + stream.pending ≤ outputCapacity := by
      have hbounded := h.bounded
      rwa [bytesToWrite, hstream] at hbounded
    refine ⟨fun _ => ?_, fun hidle => absurd (hsession.symm.trans hidle) (by simp),
      fun session => ?_, fun session hlt => ?_, h.whole.cons fun _ heq => (by cases heq), h.once,
      h.closing, ?_, h.joined, h.owned⟩
    · change framed channel.sessions channel.wire =
        written channel.sessions (.written channel.sessions channel.output :: channel.wire) ++
          [] ++ channel.waiting
      rw [written_cons, if_pos rfl, List.append_nil, hlive]
    · change written session (.written channel.sessions channel.output :: channel.wire) <+:
        framed session channel.wire
      rw [written_cons]
      split
      · next heq =>
          subst heq
          rw [hlive]
          exact List.prefix_append ..
      · rw [List.append_nil]
        exact h.ordered session
    · change framed session channel.wire = [] ∧
        written session (.written channel.sessions channel.output :: channel.wire) = []
      rw [written_cons, if_neg (Nat.ne_of_lt hlt), List.append_nil]
      exact h.fresh session hlt
    · change 0 + (stream.pending + channel.output.length) ≤ outputCapacity
      omega
  · exact h

/-- The graceful close comes when both buffers are empty. -/
theorem Carried.shut (h : Carried channel) (hsession : channel.socket.session = true)
    (hwaiting : channel.waiting = []) : Carried channel.shut := by
  unfold Channel.shut
  split
  · next hdone =>
      obtain ⟨hstate, houtput, hclosing⟩ := hdone
      rw [Bool.not_eq_true] at hclosing
      have hlive := h.live hsession
      rw [houtput, hwaiting, List.append_nil, List.append_nil] at hlive
      refine { h with
        whole := h.whole.cons fun session heq => ?_, once := ?_, closing := fun _ => ?_ }
      · obtain rfl := Transfer.shut.inj heq
        exact hlive.symm
      · rw [List.countP_cons_of_pos rfl, h.once, hclosing]
        rfl
      · exact ⟨by simp [hstate], by simp [hstate]⟩
  · exact h

/-! ## The end of a session -/

theorem bytesToWrite_detach (channel : Channel) :
    channel.detach.bytesToWrite = channel.bytesToWrite := by
  unfold detach bytesToWrite
  cases channel.stream <;> rfl

theorem Carried.detach (h : Carried channel) : Carried channel.detach :=
  { h with bounded := (bytesToWrite_detach channel).symm ▸ h.bounded }

theorem finish_of_ended (message : String) (h : Ended channel.socket) :
    channel.finish message = channel :=
  if_pos h

theorem finish_of_open (message : String) (h : ¬ Ended channel.socket) : channel.finish message =
    { channel.detach.onSocket (WebSocket.finish message) with waiting := [], output := [] } :=
  if_neg h

/-- The connection ends, also one that just lost its owner. -/
theorem Carried.finish_of (h : Carried channel) (message : String) {f : WebSocket → WebSocket}
    (hsession : (f channel.socket).session = channel.socket.session)
    (hstate : (f channel.socket).state = channel.socket.state) :
    Carried ((channel.onSocket f).finish message) := by
  have hjoined : Joined (f channel.socket) :=
    ⟨by rw [hsession, hstate]; exact h.joined.live,
      by rw [hsession, hstate]; exact h.joined.closing⟩
  by_cases hover : Ended (channel.onSocket f).socket
  · rw [finish_of_ended message hover]
    exact h.onSocket hsession hjoined (fun _ => hover) (hstate ▸ fun hconnecting hconnected =>
      ⟨hconnecting, hconnected⟩)
  rw [finish_of_open message hover]
  have hended := finish_ended message (f channel.socket)
  have hgone := finish_session message hjoined
  refine ⟨fun hlive => absurd (hlive.symm.trans hgone) (by simp), fun _ => ⟨rfl, rfl⟩, h.ordered,
    h.fresh, h.whole, h.once, fun _ => ?_, ?_, (finish_coherent message hjoined).toJoined,
    fun _ => hended⟩
  · change ((f channel.socket).finish message).state ≠ _ ∧
      ((f channel.socket).finish message).state ≠ _
    rcases hended with hstate | hstate <;> rw [hstate] <;> simp
  · have hbounded := h.detach.bounded
    unfold bytesToWrite at hbounded ⊢
    exact Nat.le_trans (Nat.add_le_add_right (Nat.zero_le _) _) hbounded

theorem Carried.finish (h : Carried channel) (message : String) :
    Carried (channel.finish message) :=
  h.finish_of (f := id) message rfl rfl

/-- What the buffers hold does not matter to `finish`. -/
theorem finish_buffers (message : String) (hopen : ¬ Ended channel.socket)
    (output waiting : Bytes) :
    finish message { channel with output := output, waiting := waiting } =
      channel.finish message := by
  rw [finish_of_open message hopen]
  exact if_neg hopen

theorem Joined.open {socket : WebSocket} (h : Joined socket) (hsession : socket.session = true) :
    ¬ Ended socket :=
  not_or.2 (h.live hsession)

/-! ## The functions of the object -/

theorem Carried.flush (h : Carried channel) : Carried (channel.flush world) := by
  unfold Channel.flush
  cases hstream : channel.stream with
  | none => exact h
  | some stream =>
      dsimp only
      split
      · exact h
      next hopen =>
      rw [not_or, not_not, not_not] at hopen
      split
      · have hbuffers := finish_buffers "WebSocket output capacity exceeded"
          (Joined.open h.joined hopen.1) (channel.output ++ channel.waiting) []
        rw [hstream] at hbuffers
        rw [hbuffers]
        exact h.finish _
      · next hroom =>
          have htaken := h.taken hstream (Nat.le_of_not_lt hroom)
          rw [hstream] at htaken
          refine Carried.shut (htaken.write hopen.1 rfl) ?_ ?_
          · rw [write_socket]
            exact hopen.1
          · unfold Channel.write
            split <;> rfl

theorem Carried.receive (h : Carried channel) : Carried (channel.receive world) := by
  unfold Channel.receive
  split
  · exact h
  next hopen =>
  rw [not_or, not_not, not_not] at hopen
  cases world.receive with
  | error message => exact h.finish message
  | ok answer => exact (h.frame hopen.1 answer.2).onSocket_eq rfl rfl rfl

theorem Carried.handle (h : Carried channel) (event : SessionEvent) :
    Carried (channel.handle world event) := by
  unfold Channel.handle
  split
  · exact h.onSocket_eq rfl rfl rfl
  next hopen =>
  rw [not_or, not_not, not_not] at hopen
  cases event with
  | upgradeRequest =>
      dsimp only
      cases world.accept with
      | error message => exact (h.onSocket_eq (f := leave) rfl rfl rfl).finish message
      | ok bytes => exact ((h.frame hopen.2 bytes).onSocket_eq rfl rfl rfl).flush.opened
  | opened => exact h.opened
  | text payload => exact h.onSocket_eq rfl rfl rfl
  | binary payload => exact h.onSocket_eq rfl rfl rfl
  | closed => exact (h.shutting hopen.2).flush
  | other => exact h

theorem disconnect_owner (socket : WebSocket) : socket.disconnect.owner = socket.owner := by
  unfold disconnect
  split <;> rfl

theorem Carried.resume (h : Carried channel) : Carried (channel.resume world) := by
  unfold Channel.resume
  cases channel.socket.stack with
  | nil => exact h
  | cons own rest =>
      cases own with
      | nil => exact h.onSocket_eq rfl rfl rfl
      | cons item items =>
          have hpopped : Carried (channel.onSocket fun socket =>
              { socket with stack := items :: rest }) := h.onSocket_eq rfl rfl rfl
          cases item with
          | event event => exact hpopped.handle event
          | again =>
              dsimp only
              split
              · exact hpopped.receive
              · exact hpopped
          | flush => exact hpopped.flush
          | disconnect =>
              exact hpopped.onSocket_eq (disconnect_session _) (disconnect_owner _)
                (disconnect_state _)

theorem Carried.retry (h : Carried channel) (message : String) (exhausted : Bool) :
    Carried (channel.retry message exhausted) := by
  unfold Channel.retry
  split
  · exact h.finish message
  · exact h.detach

/-- The session is given up before another one is made. -/
theorem Carried.dropped (h : Carried channel) (hconnecting : channel.socket.state = .connecting) :
    Carried { channel.onSocket fun socket => { socket with session := false } with
      attached := false, stream := none, waiting := [], output := [] } where
  live hlive := by cases hlive
  idle _ := ⟨rfl, rfl⟩
  ordered := h.ordered
  fresh := h.fresh
  whole := h.whole
  once := h.once
  closing := h.closing
  bounded := Nat.zero_le _
  joined := ⟨fun hlive => absurd hlive Bool.false_ne_true,
    fun hclosing => absurd (hclosing.symm.trans hconnecting) (by simp)⟩
  owned := h.owned

/-- Another session is made, with its request. -/
theorem Carried.begun (h : Carried channel) (hconnecting : channel.socket.state = .connecting)
    (hidle : channel.socket.session = false) (request : Bytes) :
    Carried (({ channel with sessions := channel.sessions + 1 }.frame request).onSocket
      fun socket => { socket with session := true }) := by
  obtain ⟨houtput, hwaiting⟩ := h.idle hidle
  have hnone := h.fresh (channel.sessions + 1) (Nat.lt_succ_self _)
  have hbegun : Carried { channel with
      sessions := channel.sessions + 1, socket := { channel.socket with session := true } } := by
    refine ⟨fun _ => ?_, fun hno => (by cases hno), h.ordered, fun session hlt => ?_, h.whole,
      h.once, h.closing, h.bounded, ⟨fun _ => ?_, fun _ => rfl⟩, h.owned⟩
    · change framed (channel.sessions + 1) channel.wire =
        written (channel.sessions + 1) channel.wire ++ channel.output ++ channel.waiting
      rw [hnone.1, hnone.2, houtput, hwaiting]
      rfl
    · exact h.fresh session (Nat.lt_of_succ_lt hlt)
    · change channel.socket.state ≠ .closed ∧ channel.socket.state ≠ .failed
      rw [hconnecting]
      simp
  exact hbegun.frame rfl request

/-- The stream of a session is put in place. -/
theorem Carried.placed (h : Carried channel) (houtput : channel.output = []) (connected : Bool) :
    Carried { channel with stream := some { connected := connected } } :=
  { h with
    bounded := by
      change channel.output.length + 0 ≤ outputCapacity
      rw [houtput]
      exact Nat.zero_le _ }

theorem Carried.attach (h : Carried channel) (connected : Bool) :
    Carried (channel.attach world connected) := by
  have hattached : Carried { channel with attached := true } := { h with }
  unfold Channel.attach
  dsimp only
  split
  · exact hattached.flush
  · exact hattached

theorem Carried.dialNext (h : Carried channel) (dial : Dial) :
    Carried (channel.dialNext world dial) := by
  unfold Channel.dialNext
  split
  · exact h
  next hconnecting =>
  rw [not_not] at hconnecting
  have hdropped := h.dropped hconnecting
  dsimp only
  split
  · exact hdropped.finish _
  cases dial.session with
  | error message => exact hdropped.finish message
  | ok request =>
      have hbegun := hdropped.begun hconnecting rfl request
      dsimp only
      cases dial.context with
      | some message => exact hbegun.finish message
      | none =>
          dsimp only
          cases dial.connect with
          | some message => exact (hbegun.placed rfl false).retry message dial.exhausted
          | none => exact (hbegun.placed rfl dial.connected).attach dial.connected

/-- The session frames a message or refuses it. -/
theorem Carried.framed (h : Carried channel) (hsession : channel.socket.session = true)
    (framed : Except String Bytes) :
    Carried (match framed with
      | .error message => channel.finish message
      | .ok bytes => (channel.frame bytes).flush world) := by
  cases framed with
  | error message => exact h.finish message
  | ok bytes => exact (h.frame hsession bytes).flush

theorem Carried.send (h : Carried channel) (payload : Bytes) (framed : Except String Bytes) :
    Carried (channel.send world payload framed) := by
  unfold Channel.send
  split
  · exact h
  next hopen =>
  rw [not_or, not_not, not_not] at hopen
  split
  · exact h.finish _
  · exact h.framed hopen.1 framed

theorem Carried.ping (h : Carried channel) (framed : Except String Bytes) :
    Carried (channel.ping world framed) := by
  unfold Channel.ping
  split
  · exact h
  next hopen =>
  rw [not_or, not_not, not_not] at hopen
  exact h.framed hopen.1 framed

theorem Carried.close (h : Carried channel) : Carried (channel.close world) := by
  have hcalled : Carried (channel.onSocket (WebSocket.emit .closeCalled)) :=
    h.onSocket_eq rfl rfl rfl
  unfold Channel.close
  dsimp only
  split
  · exact hcalled.finish ""
  next hopen =>
  rw [not_or, not_not, not_not] at hopen
  cases world.close with
  | error message => exact hcalled.finish message
  | ok bytes => exact ((hcalled.frame hopen.1 bytes).shutting hopen.1).flush

theorem Carried.onOwner (h : Carried channel) {f : Channel → Channel} (hf : Carried (f channel)) :
    Carried (channel.onOwner f) := by
  unfold Channel.onOwner
  split
  · exact hf
  · exact h

theorem Carried.callback (h : Carried channel) {f : Channel → Channel} (hf : Carried (f channel)) :
    Carried (channel.callback f) := by
  unfold Channel.callback
  split
  · exact hf
  · exact h

/-- What the stream does by itself leaves no more pending. -/
theorem Carried.onStream (h : Carried channel) {f : Stream → Stream}
    (hle : ∀ stream, (f stream).pending ≤ stream.pending) : Carried (channel.onStream f) :=
  { h with
    bounded := by
      have hbounded := h.bounded
      unfold Channel.onStream
      unfold bytesToWrite at hbounded ⊢
      cases hstream : channel.stream with
      | none =>
          rw [hstream] at hbounded
          exact hbounded
      | some stream =>
          rw [hstream] at hbounded
          have hpending := hle stream
          change channel.output.length + (f stream).pending ≤ outputCapacity
          change channel.output.length + stream.pending ≤ outputCapacity at hbounded
          omega }

/-- **No step loses a byte or moves it.** -/
theorem Carried.next (h : Carried channel) (step : Step) : Carried (channel.next step) := by
  unfold Channel.next
  cases step.input with
  | resume => exact h.resume
  | sent bytes => exact h.onStream fun _ => Nat.sub_le ..
  | lost => exact h.onStream fun _ => Nat.le_refl _
  | connected =>
      have hup : Carried (channel.onStream fun stream => { stream with connected := true }) :=
        h.onStream fun _ => Nat.le_refl _
      exact h.callback hup.flush
  | readable => exact h.callback h.receive
  | drained => exact h.callback h.flush
  | failed message exhausted => exact h.callback (h.retry message exhausted)
  | disconnected exhausted =>
      refine h.callback ?_
      split
      · exact h.retry _ exhausted
      · exact h.finish ""
  | dial dial => exact h.dialNext dial
  | unresolved message =>
      dsimp only
      split
      · exact h.finish message
      · exact h
  | timeout message => exact h.finish _
  | send payload framed => exact h.onOwner (h.send payload framed)
  | ping framed => exact h.onOwner (h.ping framed)
  | close => exact h.onOwner h.close
  | abort => exact h.onOwner (h.finish "")
  | reopen => exact h.onOwner ((h.finish "").onSocket_eq rfl rfl rfl)
  | delete => exact h.finish_of "" rfl rfl

/-! ## Nothing is forgotten in the session -/

/-- A call in progress: the end of a `finish`, or a `receive` with its last `flush` to do. -/
def Shaped (items : List Item) : Prop :=
  items = [] ∨ items = [.disconnect] ∨ ∃ init, items = init ++ [.flush]

/-- Some `receive` in progress still has its own `flush` to do. -/
def Flushing (stack : List (List Item)) : Prop := ∃ items ∈ stack, .flush ∈ items

/-- The stream is there and connected. -/
def Up (channel : Channel) : Prop :=
  ∃ stream, channel.stream = some stream ∧ stream.connected = true

/-- While the stream is connected, bytes wait in the session only for a `flush` that is
still to come. -/
structure Prompt (channel : Channel) : Prop where
  shaped : ∀ items ∈ channel.socket.stack, Shaped items
  prompt : channel.socket.session = true → Up channel → channel.waiting = [] ∨
    Flushing channel.socket.stack

theorem disconnect_stack (socket : WebSocket) : socket.disconnect.stack = socket.stack := by
  unfold disconnect
  split <;> rfl

theorem finish_shaped (message : String) {socket : WebSocket}
    (h : ∀ items ∈ socket.stack, Shaped items) :
    ∀ items ∈ (socket.finish message).stack, Shaped items := by
  unfold WebSocket.finish
  split
  · exact h
  dsimp only
  split
  · intro items hitems
    rcases List.mem_cons.1 hitems with rfl | hold
    · exact .inr (.inl rfl)
    · exact h items hold
  · rw [disconnect_stack]
    exact h

/-- A session that is over has nothing to flush. -/
theorem finish_prompt (message : String) (hshaped : ∀ items ∈ channel.socket.stack, Shaped items)
    (hjoined : Joined channel.socket) : Prompt (channel.finish message) := by
  refine ⟨?_, fun hlive => ?_⟩
  · rw [finish_socket]
    exact finish_shaped message hshaped
  · rw [finish_socket, finish_session message hjoined] at hlive
    cases hlive

/-- What `flush` leaves behind while the session lives. -/
theorem flush_waiting (hlive : (channel.flush world).socket.session = true)
    (hup : Up (channel.flush world)) (hjoined : Joined channel.socket) :
    (channel.flush world).waiting = [] := by
  revert hlive hup
  unfold Channel.flush
  cases hstream : channel.stream with
  | none =>
      rintro - ⟨stream, hsome, -⟩
      cases hstream.symm.trans hsome
  | some stream =>
      dsimp only
      split
      · next hidle =>
          rintro hlive ⟨own, hsome, hconnected⟩
          obtain rfl := Option.some.inj (hstream.symm.trans hsome)
          exact absurd hidle (by simp [hlive, hconnected])
      split
      · rintro hlive -
          -- The overflow ended the session.
        rw [finish_socket, finish_session _ hjoined] at hlive
        cases hlive
      · intro _ _
        unfold Channel.shut Channel.write
        split <;> split <;> rfl

/-- `flush` does what there is to do, whatever waited before it. -/
theorem flush_prompt (hshaped : ∀ items ∈ channel.socket.stack, Shaped items)
    (hjoined : Joined channel.socket) : Prompt (channel.flush world) := by
  refine ⟨?_, fun hlive hup => .inl (flush_waiting hlive hup hjoined)⟩
  rw [flush_socket]
  unfold WebSocket.flush
  split
  · exact finish_shaped _ hshaped
  · exact hshaped

/-- A change of the connection that keeps the session and the calls in progress. -/
theorem Prompt.onSocket (h : Prompt channel) {f : WebSocket → WebSocket}
    (hsession : (f channel.socket).session = channel.socket.session)
    (hstack : (f channel.socket).stack = channel.socket.stack) : Prompt (channel.onSocket f) where
  shaped := by
    change ∀ items ∈ (f channel.socket).stack, Shaped items
    rw [hstack]
    exact h.shaped
  prompt hlive hup := by
    change channel.waiting = [] ∨ Flushing (f channel.socket).stack
    rw [hstack]
    exact h.prompt (hsession.symm.trans hlive) hup

theorem Prompt.opened (h : Prompt channel) : Prompt (channel.onSocket opened) := by
  refine h.onSocket ?_ ?_ <;> unfold WebSocket.opened <;> split <;> rfl

theorem Prompt.receive (h : Prompt channel) (hcarried : Carried channel) :
    Prompt (channel.receive world) := by
  unfold Channel.receive
  split
  · exact h
  cases world.receive with
  | error message => exact finish_prompt message h.shaped hcarried.joined
  | ok answer =>
      have hflush : Item.flush ∈ answer.1.map Item.event ++ [.flush] :=
        List.mem_append_right _ List.mem_cons_self
      refine ⟨fun items hitems => ?_, fun _ _ => .inr ⟨_, List.mem_cons_self, hflush⟩⟩
      rcases List.mem_cons.1 hitems with rfl | hold
      · exact .inr (.inr ⟨_, rfl⟩)
      · exact h.shaped items hold

/-- A round of the loop, whose call still has its `flush` to do. -/
theorem Prompt.handle (h : Prompt channel) (hcarried : Carried channel) {init : List Item}
    {rest : List (List Item)} (hstack : channel.socket.stack = (init ++ [.flush]) :: rest)
    (event : SessionEvent) : Prompt (channel.handle world event) := by
  have hrest : ∀ items ∈ rest, Shaped items := fun items hitems =>
    h.shaped items (hstack ▸ List.mem_cons_of_mem _ hitems)
  unfold Channel.handle
  split
  · next hover =>
      refine ⟨?_, fun hlive => ?_⟩
      · change ∀ items ∈ channel.socket.stack.tail, Shaped items
        rw [hstack]
        exact hrest
      · -- Only an object that is gone leaves the loop with its session.
        change channel.socket.session = true at hlive
        have hgone : channel.socket.owner = false := by simpa [hlive] using hover
        exact absurd (hcarried.owned hgone) (Joined.open hcarried.joined hlive)
  next hopen =>
  rw [not_or, not_not, not_not] at hopen
  cases event with
  | upgradeRequest =>
      dsimp only
      cases world.accept with
      | error message =>
          -- A handshake that fails leaves the batch, and with it the flush.
          have hleft : Carried (channel.onSocket leave) := hcarried.onSocket_eq rfl rfl rfl
          refine finish_prompt message ?_ hleft.joined
          change ∀ items ∈ channel.socket.stack.tail, Shaped items
          rw [hstack]
          exact hrest
      | ok bytes =>
          -- The answer is flushed, and the bytes that came after it are read again.
          have hagain : Carried ((channel.frame bytes).onSocket fun socket =>
              { socket with stack := (.again :: socket.stack.headD []) :: socket.stack.tail }) :=
            (hcarried.frame hopen.2 bytes).onSocket_eq rfl rfl rfl
          refine (flush_prompt ?_ hagain.joined).opened
          change ∀ items ∈ (Item.again :: channel.socket.stack.headD []) ::
            channel.socket.stack.tail, Shaped items
          rw [hstack]
          intro items hitems
          rcases List.mem_cons.1 hitems with rfl | hold
          · exact .inr (.inr ⟨.again :: init, rfl⟩)
          · exact hrest items hold
  | opened => exact h.opened
  | text payload => exact h.onSocket rfl rfl
  | binary payload => exact h.onSocket rfl rfl
  | closed => exact flush_prompt h.shaped (hcarried.shutting hopen.2).joined
  | other => exact h

/-- What is left of a call after its next item. -/
theorem Shaped.tail {item : Item} {items : List Item} (h : Shaped (item :: items)) :
    (items = [] ∧ (item = .disconnect ∨ item = .flush)) ∨ ∃ init, items = init ++ [.flush] := by
  rcases h with hnil | hend | ⟨init, heq⟩
  · cases hnil
  · obtain ⟨hitem, hitems⟩ := List.cons.inj hend
    exact .inl ⟨hitems, .inl hitem⟩
  · cases init with
    | nil =>
        obtain ⟨hitem, hitems⟩ := List.cons.inj heq
        exact .inl ⟨hitems, .inr hitem⟩
    | cons first init => exact .inr ⟨init, (List.cons.inj heq).2⟩

theorem Shaped.of_tail {item : Item} {items : List Item} (h : Shaped (item :: items)) :
    Shaped items := by
  rcases h.tail with ⟨rfl, -⟩ | hflush
  · exact .inl rfl
  · exact .inr (.inr hflush)

/-- The innermost call goes on. -/
theorem Prompt.resume (h : Prompt channel) (hcarried : Carried channel) :
    Prompt (channel.resume world) := by
  have hshaped := h.shaped
  have hprompt := h.prompt
  unfold Channel.resume
  cases hstack : channel.socket.stack with
  | nil => exact h
  | cons own rest =>
      rw [hstack] at hshaped hprompt
      have hrest : ∀ items ∈ rest, Shaped items := fun items hitems =>
        hshaped items (List.mem_cons_of_mem _ hitems)
      -- A call without a `flush` to do is no reason for bytes to wait.
      have hothers : Item.flush ∉ own → channel.socket.session = true → Up channel →
          channel.waiting = [] ∨ Flushing rest := by
        intro hnot hlive hup
        refine (hprompt hlive hup).imp_right ?_
        rintro ⟨other, hother, hflush⟩
        rcases List.mem_cons.1 hother with rfl | hold
        · exact absurd hflush hnot
        · exact ⟨other, hold, hflush⟩
      cases own with
      | nil => exact ⟨hrest, hothers List.not_mem_nil⟩
      | cons item items =>
          have hpopped : Carried (channel.onSocket fun socket =>
              { socket with stack := items :: rest }) := hcarried.onSocket_eq rfl rfl rfl
          have hown := hshaped _ List.mem_cons_self
          have hleft : ∀ own ∈ items :: rest, Shaped own := by
            intro own hmem
            rcases List.mem_cons.1 hmem with rfl | hold
            · exact hown.of_tail
            · exact hrest own hold
          have hgoing : ∀ {init : List Item}, items = init ++ [.flush] →
              Prompt (channel.onSocket fun socket => { socket with stack := items :: rest }) := by
            rintro init rfl
            exact ⟨hleft, fun _ _ => .inr ⟨_, List.mem_cons_self,
              List.mem_append_right _ List.mem_cons_self⟩⟩
          cases item with
          | event event =>
              obtain ⟨-, heq⟩ | ⟨init, heq⟩ := hown.tail
              · rcases heq with heq | heq <;> cases heq
              · exact (hgoing heq).handle hpopped (congrArg (· :: rest) heq) event
          | again =>
              obtain ⟨-, heq⟩ | ⟨init, heq⟩ := hown.tail
              · rcases heq with heq | heq <;> cases heq
              · dsimp only
                split
                · exact (hgoing heq).receive hpopped
                · exact hgoing heq
          | flush => exact flush_prompt hleft hpopped.joined
          | disconnect =>
              refine Prompt.onSocket ?_ (disconnect_session _) (disconnect_stack _)
              obtain ⟨rfl, -⟩ | ⟨init, heq⟩ := hown.tail
              · refine ⟨hleft, fun hlive hup => (hothers (by simp) hlive hup).imp_right ?_⟩
                rintro ⟨other, hother, hflush⟩
                exact ⟨other, List.mem_cons_of_mem _ hother, hflush⟩
              · exact hgoing heq

theorem Prompt.of_down (hshaped : ∀ items ∈ channel.socket.stack, Shaped items)
    (hdown : ¬ Up channel) : Prompt channel :=
  ⟨hshaped, fun _ hup => absurd hup hdown⟩

theorem not_up_detach (channel : Channel) : ¬ Up channel.detach := by
  rintro ⟨stream, hsome, hconnected⟩
  obtain ⟨own, -, rfl⟩ := Option.map_eq_some_iff.1 hsome
  cases hconnected

theorem retry_prompt (hshaped : ∀ items ∈ channel.socket.stack, Shaped items)
    (hjoined : Joined channel.socket) (message : String) (exhausted : Bool) :
    Prompt (channel.retry message exhausted) := by
  unfold Channel.retry
  split
  · exact finish_prompt message hshaped hjoined
  · exact .of_down hshaped (not_up_detach channel)

/-- A stream that is not connected yet has nothing to flush. -/
theorem attach_prompt (hshaped : ∀ items ∈ channel.socket.stack, Shaped items)
    (hjoined : Joined channel.socket) {connected : Bool}
    (hstream : channel.stream = some { connected := connected }) :
    Prompt (channel.attach world connected) := by
  unfold Channel.attach
  dsimp only
  split
  · exact flush_prompt hshaped hjoined
  · next hdown =>
      refine .of_down hshaped ?_
      rintro ⟨stream, hsome, hconnected⟩
      obtain rfl := Option.some.inj (hstream.symm.trans hsome)
      exact hdown hconnected

theorem Prompt.dialNext (h : Prompt channel) (hcarried : Carried channel) (dial : Dial) :
    Prompt (channel.dialNext world dial) := by
  unfold Channel.dialNext
  split
  · exact h
  next hconnecting =>
  rw [not_not] at hconnecting
  have hdropped := hcarried.dropped hconnecting
  dsimp only
  split
  · exact finish_prompt _ h.shaped hdropped.joined
  cases dial.session with
  | error message => exact finish_prompt message h.shaped hdropped.joined
  | ok request =>
      have hbegun := hdropped.begun hconnecting rfl request
      dsimp only
      cases dial.context with
      | some message => exact finish_prompt message h.shaped hbegun.joined
      | none =>
          dsimp only
          cases dial.connect with
          | some message =>
              refine retry_prompt ?_ (hbegun.placed rfl false).joined message dial.exhausted
              exact h.shaped
          | none =>
              refine attach_prompt ?_ (hbegun.placed rfl dial.connected).joined rfl
              exact h.shaped

theorem framed_prompt (h : Prompt channel) (hcarried : Carried channel)
    (hsession : channel.socket.session = true) (framed : Except String Bytes) :
    Prompt (match framed with
      | .error message => channel.finish message
      | .ok bytes => (channel.frame bytes).flush world) := by
  cases framed with
  | error message => exact finish_prompt message h.shaped hcarried.joined
  | ok bytes => exact flush_prompt h.shaped (hcarried.frame hsession bytes).joined

theorem Prompt.send (h : Prompt channel) (hcarried : Carried channel) (payload : Bytes)
    (framed : Except String Bytes) : Prompt (channel.send world payload framed) := by
  unfold Channel.send
  split
  · exact h
  next hopen =>
  rw [not_or, not_not, not_not] at hopen
  split
  · exact finish_prompt _ h.shaped hcarried.joined
  · exact framed_prompt h hcarried hopen.1 framed

theorem Prompt.ping (h : Prompt channel) (hcarried : Carried channel)
    (framed : Except String Bytes) : Prompt (channel.ping world framed) := by
  unfold Channel.ping
  split
  · exact h
  next hopen =>
  rw [not_or, not_not, not_not] at hopen
  exact framed_prompt h hcarried hopen.1 framed

theorem Prompt.close (h : Prompt channel) (hcarried : Carried channel) :
    Prompt (channel.close world) := by
  have hcalled : Carried (channel.onSocket (WebSocket.emit .closeCalled)) :=
    hcarried.onSocket_eq rfl rfl rfl
  unfold Channel.close
  dsimp only
  split
  · exact finish_prompt "" h.shaped hcalled.joined
  next hopen =>
  rw [not_or, not_not, not_not] at hopen
  cases world.close with
  | error message => exact finish_prompt message h.shaped hcalled.joined
  | ok bytes =>
      exact flush_prompt h.shaped ((hcalled.frame hopen.1 bytes).shutting hopen.1).joined

theorem Prompt.onOwner (h : Prompt channel) {f : Channel → Channel} (hf : Prompt (f channel)) :
    Prompt (channel.onOwner f) := by
  unfold Channel.onOwner
  split
  · exact hf
  · exact h

theorem Prompt.callback (h : Prompt channel) {f : Channel → Channel} (hf : Prompt (f channel)) :
    Prompt (channel.callback f) := by
  unfold Channel.callback
  split
  · exact hf
  · exact h

/-- A stream does not connect by itself, without its callback. -/
theorem Prompt.onStream (h : Prompt channel) {f : Stream → Stream}
    (hf : ∀ stream, (f stream).connected = true → stream.connected = true) :
    Prompt (channel.onStream f) := by
  refine ⟨h.shaped, fun hlive hup => h.prompt hlive ?_⟩
  obtain ⟨stream, hsome, hconnected⟩ := hup
  obtain ⟨own, hown, rfl⟩ := Option.map_eq_some_iff.1 hsome
  exact ⟨own, hown, hf own hconnected⟩

theorem Prompt.next (h : Prompt channel) (hcarried : Carried channel) (step : Step) :
    Prompt (channel.next step) := by
  unfold Channel.next
  cases step.input with
  | resume => exact h.resume hcarried
  | sent bytes => exact h.onStream fun _ hconnected => hconnected
  | lost => exact h.onStream fun _ hconnected => absurd hconnected (by simp)
  | connected => exact h.callback (flush_prompt h.shaped hcarried.joined)
  | readable => exact h.callback (h.receive hcarried)
  | drained => exact h.callback (flush_prompt h.shaped hcarried.joined)
  | failed message exhausted =>
      exact h.callback (retry_prompt h.shaped hcarried.joined message exhausted)
  | disconnected exhausted =>
      refine h.callback ?_
      split
      · exact retry_prompt h.shaped hcarried.joined _ exhausted
      · exact finish_prompt "" h.shaped hcarried.joined
  | dial dial => exact h.dialNext hcarried dial
  | unresolved message =>
      dsimp only
      split
      · exact finish_prompt message h.shaped hcarried.joined
      · exact h
  | timeout message => exact finish_prompt _ h.shaped hcarried.joined
  | send payload framed => exact h.onOwner (h.send hcarried payload framed)
  | ping framed => exact h.onOwner (h.ping hcarried framed)
  | close => exact h.onOwner (h.close hcarried)
  | abort => exact h.onOwner (finish_prompt "" h.shaped hcarried.joined)
  | reopen =>
      exact h.onOwner ((finish_prompt "" h.shaped hcarried.joined).onSocket rfl rfl)
  | delete =>
      exact finish_prompt "" h.shaped ⟨hcarried.joined.live, hcarried.joined.closing⟩

/-! ## The runs -/

/-- A connection that did nothing yet. -/
theorem Carried.start {socket : WebSocket} (hjoined : Joined socket)
    (howned : socket.owner = false → Ended socket) (sessions : ℕ) {stream : Option Stream}
    (hpending : (stream.map (·.pending)).getD 0 = 0) (attached : Bool) :
    Carried { socket := socket, sessions := sessions, stream := stream, attached := attached } where
  live _ := rfl
  idle _ := ⟨rfl, rfl⟩
  ordered _ := List.prefix_refl _
  fresh _ _ := ⟨rfl, rfl⟩
  whole := .nil
  once := rfl
  closing hclosing := by cases hclosing
  bounded := by
    change 0 + (stream.map (·.pending)).getD 0 ≤ outputCapacity
    rw [hpending]
    exact Nat.zero_le _
  joined := hjoined
  owned := howned

theorem run_carried {ok : Channel → Step → Prop} {trace : List (Channel × Step)}
    (run : machine.Run ok trace channel) : Carried channel ∧ Prompt channel := by
  refine run.invariant_state (I := fun channel => Carried channel ∧ Prompt channel)
    (fun channel hinit => ?_) fun channel step h _ => ⟨h.1.next step, h.2.next h.1 step⟩
  rcases hinit with rfl | rfl
  · exact ⟨.start ⟨by simp, by simp⟩ (by simp) 0 rfl false, ⟨by simp, fun _ _ => .inl rfl⟩⟩
  · exact ⟨.start ⟨by simp, by simp⟩ (by simp) 1 rfl true, ⟨by simp, fun _ _ => .inl rfl⟩⟩

/-- What the output of a socket promises. -/
structure Delivered (channel : Channel) : Prop where
  /-- The stream of a session takes what the session framed, from its start on. -/
  ordered : ∀ session, written session channel.wire <+: framed session channel.wire
  /-- While the session lives, the rest is in the buffers. -/
  complete : channel.socket.session = true → framed channel.sessions channel.wire =
    written channel.sessions channel.wire ++ channel.output ++ channel.waiting
  /-- Between two turns of the event loop, what is left was refused by the stream. -/
  settled : channel.socket.session = true → Up channel → channel.socket.stack = [] →
    channel.waiting = []
  bounded : channel.bytesToWrite ≤ outputCapacity
  /-- The stream is closed gracefully once, and only after it took everything. -/
  once : channel.wire.countP shuts ≤ 1
  whole : Always Whole channel.wire
  /-- The bytes change nothing about the signals. -/
  refines : ∃ visits, WebSocket.machine.Run (fun _ _ => True) visits channel.socket

/-- **What the sessions of a socket frame is what their streams take: in order, nothing
twice and nothing left out**, whatever the slots, the streams and the timers do. -/
theorem run_delivered {trace : List (Channel × Step)}
    (run : machine.Run (fun _ _ => True) trace channel) : Delivered channel := by
  obtain ⟨hcarried, hprompt⟩ := run_carried run
  refine ⟨hcarried.ordered, hcarried.live, fun hlive hup hidle => ?_, hcarried.bounded, ?_,
    hcarried.whole, run_reaches run⟩
  · rcases hprompt.prompt hlive hup with hnone | ⟨items, hitems, -⟩
    · exact hnone
    · rw [hidle] at hitems
      cases hitems
  · rw [hcarried.once]
    exact Bool.toNat_le _

/-- What iiNetwork answers when nothing fails; `write` says whether the stream takes bytes. -/
def World.calm (write : Bool) (events : List SessionEvent) : World where
  accept := .ok [72]
  close := .ok [136, 0]
  receive := .ok (events, [])
  write := write

/-- A peer connects, the stream refuses a message at first, and the connection is closed. -/
def farewell : List Step :=
  [⟨.readable, .calm true [.upgradeRequest]⟩] ++
    List.replicate 6 ⟨.resume, .calm true []⟩ ++
    [⟨.send [1, 2] (.ok [130, 2, 1, 2]), .calm false []⟩, ⟨.drained, .calm true []⟩,
      ⟨.close, .calm true []⟩]

theorem run_delivered_farewell : ∃ trace channel,
    machine.Run (fun _ _ => True) trace channel ∧
      written 1 channel.wire = [72, 130, 2, 1, 2, 136, 0] ∧ channel.wire.countP shuts = 1 ∧
      Delivered channel := by
  have hstart : machine.Run (fun _ _ => True) [] _ := .start (.inr rfl)
  obtain ⟨trace, run⟩ := hstart.extend_all farewell
  exact ⟨trace, _, run, by decide, by decide, run_delivered run⟩

end Channel

end WebSocket

end ServerHost
