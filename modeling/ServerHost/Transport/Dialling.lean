import ServerHost.Protocol
import ServerHost.Transport.LifeCycle

/-!
# Dialling the addresses of a host

What `open` does before a connection is up.  The addresses of the host are dialled one
after the other, and every callback of a stream, every queued retry and the timer of the
handshake may come at any time.

## Strategy

A stream captures the generation it was attached in, and whatever abandons a stream raises
the generation.  `Tidy` is the invariant: only the callbacks of the stream in place have
the right generation, and while a retry is queued no stream is in place.
-/

namespace ServerHost

namespace WebSocket

/-- `ii::network::IpEndpoint`. -/
structure IpEndpoint where
  address : Address
  port : ℕ

/-- What an attempt meets: the errors of `WebSocketSession::client`, `TlsContext::client`
and `connect`, and what `is_connected` says then. -/
structure Attempt where
  session : Option String := none
  context : Option String := none
  connect : Option String := none
  connected : Bool := false

/-- The callbacks of a stream. -/
inductive Callback where
  | connected | readable | drained | failed (text : String) | disconnected | readClosed

/-- What `open` still waits for: its queued call, or the resolver. -/
inductive Lookup where
  | queued | posted | done
  deriving DecidableEq

/-- What happens to the addresses: one is dialled, the attempt fails before it is opened,
and the phase is over. -/
inductive DialEvent where
  | dialled (place : ℕ) (endpoint : IpEndpoint)
  | failed (place : ℕ)
  | concluded (state : SocketState)

/-- `WebSocket::Private` of a socket that `open` was called for. -/
structure Private where
  socket : WebSocket := {}
  url : Url
  lookup : Lookup := .queued
  addresses : List IpEndpoint := []
  nextAddress : ℕ := 0
  generation : ℕ := 0
  /-- The streams that were made, with the generation that their callbacks captured. -/
  streams : List (Option ℕ) := []
  /-- Whether the callbacks of the last stream are in place. -/
  attached : Bool := false
  /-- The retries in the queue of the event loop. -/
  deferred : ℕ := 0
  /-- When the handshake must be over. -/
  deadline : Option ℕ
  log : List DialEvent := []

namespace Private

/-- A function of the connection changes the rest in two places: `finish` gives up the
stream and stops the timer, and `opened` stops the timer. -/
def follow (f : WebSocket → WebSocket) (p : Private) : Private :=
  let after := f p.socket
  let log := if p.socket.state = .connecting ∧ after.state ≠ .connecting then
    .concluded after.state :: p.log else p.log
  if Ended after ∧ ¬ Ended p.socket then
    { p with
      socket := after, generation := p.generation + 1, attached := false, deadline := none
      log := log }
  else if p.socket.state = .connecting ∧ after.state ≠ .connecting then
    { p with socket := after, deadline := none, log := log }
  else { p with socket := after, log := log }

/-- `finish`. -/
def finish (message : String) (p : Private) : Private := p.follow (WebSocket.finish message)

/-- `retry`. -/
def retry (message : String) (p : Private) : Private :=
  let p := if p.socket.state = .connecting then
    { p with log := .failed (p.streams.length - 1) :: p.log } else p
  if p.socket.state ≠ .connecting ∨ p.nextAddress = p.addresses.length then p.finish message
  else { p with generation := p.generation + 1, attached := false, deferred := p.deferred + 1 }

/-- `QTimer::remainingTime`, which is zero when the time has passed. -/
def remainingTime (now expiry : ℕ) : ℕ := expiry - now

/-- What is left of the handshake. -/
def remaining (now : ℕ) (p : Private) : ℕ :=
  match p.deadline with
  | some expiry => remainingTime now expiry
  | none => 5000

/-- `attach`. -/
def attach (now : ℕ) (world : World) (connected : Bool) (p : Private) : Private :=
  let p := { p with
    streams := p.streams ++ [some p.generation], attached := true
    deadline := some (now + max 1 (p.remaining now)) }
  if connected then p.follow (flush world) else p

/-- `dialNext`. -/
def dialNext (now : ℕ) (world : World) (attempt : Attempt) (p : Private) : Private :=
  let p := { p with
    generation := p.generation + 1, attached := false
    socket := { p.socket with session := false } }
  match p.addresses[p.nextAddress]? with
  | none => p.finish "No reachable WebSocket endpoint"
  | some endpoint =>
      let p := { p with nextAddress := p.nextAddress + 1 }
      match attempt.session with
      | some message => p.finish message
      | none =>
          let p := { p with socket := { p.socket with session := true } }
          match if p.url.scheme = "wss" then attempt.context else none with
          | some message => p.finish message
          | none =>
              let p := { p with log := .dialled p.streams.length endpoint :: p.log }
              match attempt.connect with
              | some message => { p with streams := p.streams ++ [none] }.retry message
              | none => p.attach now world attempt.connected

/-- `dial`. -/
def dial (now : ℕ) (world : World) (attempt : Attempt) (endpoints : List IpEndpoint)
    (p : Private) : Private :=
  { p with addresses := endpoints, nextAddress := 0 }.dialNext now world attempt

/-- What `open` queues.  `admitted` says that the resolver took the job. -/
def resolve (platform : Platform) (now : ℕ) (world : World) (attempt : Attempt)
    (admitted : Bool) (p : Private) : Private :=
  if p.lookup ≠ .queued then p
  else
    let p := { p with lookup := .done }
    if ¬ p.socket.owner ∨ p.socket.state ≠ .connecting then p
    else if ¬ p.url.valid ∨ (p.url.scheme ≠ "ws" ∧ p.url.scheme ≠ "wss") ∨ p.url.host = "" ∨
        p.url.userInfo ≠ "" ∨ p.url.hasFragment then p.finish "Invalid WebSocket URL"
    else
      let port := if p.url.port = -1 then (if p.url.scheme = "wss" then 443 else 80)
        else p.url.port
      if port < 1 ∨ 65535 < port then p.finish "Invalid WebSocket port"
      else match platform.address p.url.host with
        | some address => p.dial now world attempt [⟨address, port.toNat⟩]
        | none =>
            if admitted then { p with lookup := .posted }
            else p.finish "WebSocket resolver is busy"

/-- What the resolver delivers. -/
def deliver (now : ℕ) (world : World) (attempt : Attempt) (endpoints : Option (List IpEndpoint))
    (p : Private) : Private :=
  if p.lookup ≠ .posted then p
  else
    let p := { p with lookup := .done }
    if ¬ p.socket.owner ∨ p.socket.state ≠ .connecting then p
    else match endpoints with
      | none | some [] => p.finish "Cannot resolve WebSocket endpoint"
      | some (first :: rest) => p.dial now world attempt (first :: rest)

/-- A callback of a stream. -/
def callback (world : World) (stream : ℕ) (callback : Callback) (p : Private) : Private :=
  match p.streams[stream]? with
  | some (some current) =>
      if p.generation ≠ current then p
      else match callback with
        | .connected | .drained => p.follow (flush world)
        | .readable => p.follow (receive world)
        | .failed text => p.retry text
        | .disconnected | .readClosed =>
            if p.socket.state = .connecting then
              p.retry "WebSocket endpoint disconnected during handshake"
            else p.finish ""
  | _ => p

/-- A queued retry. -/
def redial (now : ℕ) (world : World) (attempt : Attempt) (p : Private) : Private :=
  if p.deferred = 0 then p
  else
    let p := { p with deferred := p.deferred - 1 }
    if p.socket.owner ∧ p.socket.state = .connecting then p.dialNext now world attempt else p

/-- The timer.  The one that limits `close` may come at any time. -/
def timeout (now : ℕ) (p : Private) : Private :=
  if p.socket.state = .closing then p.finish ""
  else if p.deadline.any (· ≤ now) then
    p.finish (if p.streams.any Option.isSome then "WebSocket handshake timeout"
      else "WebSocket resolution timeout")
  else p

inductive Input where
  | resolve (admitted : Bool)
  | deliver (endpoints : Option (List IpEndpoint))
  | callback (stream : ℕ) (callback : Callback)
  | redial
  | timeout
  | resume
  | call (input : WebSocket.Input)

/-- An input, when it comes and what it meets. -/
structure Turn where
  now : ℕ
  world : World
  attempt : Attempt := {}
  input : Input

/-- A function that the application calls, or the end of the object. -/
def applied : WebSocket.Input → Bool
  | .send .. | .close | .abort | .reopen | .delete => true
  | _ => false

def next (platform : Platform) (p : Private) (turn : Turn) : Private :=
  match turn.input with
  | .resolve admitted => p.resolve platform turn.now turn.world turn.attempt admitted
  | .deliver endpoints => p.deliver turn.now turn.world turn.attempt endpoints
  | .callback stream callback => Private.callback turn.world stream callback p
  | .redial => p.redial turn.now turn.world turn.attempt
  | .timeout => p.timeout turn.now
  | .resume => p.follow (WebSocket.resume turn.world)
  | .call input =>
      if applied input then p.follow (WebSocket.next · ⟨input, turn.world⟩) else p

/-- What the constructor and `open` leave behind. -/
def machine (platform : Platform) : Machine Private Turn where
  init p := ∃ url now, p = { url := url, deadline := some (now + 5000) }
  next := next platform

/-! ## The state of the connection -/

/-- How the state of a connection may change in one turn. -/
def Onward (before after : SocketState) : Prop :=
  after = before ∨ (before = .connecting ∧ after = .connected) ∨
    (after = .closed ∨ after = .failed) ∨ (before ≠ .connecting ∧ after = .closing)

/-- The session reports the end of a connection only once it was opened. -/
def Mannered (socket : WebSocket) : Prop :=
  ∀ items rest, socket.stack = (.event .closed :: items) :: rest → socket.state ≠ .connecting

variable {socket : WebSocket} {world : World}

theorem Onward.refl (state : SocketState) : Onward state state := .inl rfl

theorem Onward.ended {before : SocketState} {after : WebSocket} (h : Ended after) :
    Onward before after.state := .inr (.inr (.inl h))

theorem Onward.connecting {before after : SocketState} (h : Onward before after)
    (hafter : after = .connecting) : before = .connecting := by
  rcases h with heq | ⟨-, heq⟩ | (heq | heq) | ⟨-, heq⟩ <;> rw [hafter] at heq <;>
    first | exact heq.symm | cases heq

/-- How the phase of the handshake is left. -/
theorem Onward.left {before after : SocketState} (h : Onward before after)
    (hbefore : before = .connecting) (hafter : after ≠ .connecting) :
    after = .connected ∨ after = .closed ∨ after = .failed := by
  rcases h with heq | ⟨-, heq⟩ | heq | ⟨hne, -⟩
  · exact absurd (heq.trans hbefore) hafter
  · exact .inl heq
  · exact .inr heq
  · exact absurd hbefore hne

theorem finish_onward (message : String) (socket : WebSocket) :
    Onward socket.state (WebSocket.finish message socket).state :=
  .ended (finish_ended message socket)

theorem flush_settles (world : World) (socket : WebSocket) :
    socket.flush world = socket ∨ Ended (socket.flush world) := by
  unfold flush
  split
  · exact .inr (finish_ended ..)
  · exact .inl rfl

theorem flush_onward (world : World) (socket : WebSocket) :
    Onward socket.state (socket.flush world).state := by
  rcases flush_settles world socket with heq | hended
  · exact .inl (by rw [heq])
  · exact .ended hended

theorem receive_onward (world : World) (socket : WebSocket) :
    Onward socket.state (socket.receive world).state := by
  unfold receive
  split
  · exact .refl _
  cases world.receive with
  | error message => exact finish_onward ..
  | ok events => exact .refl _

theorem opened_onward (socket : WebSocket) : Onward socket.state socket.opened.state := by
  unfold opened
  split
  · exact .refl _
  next hopen =>
  rw [not_or, not_not, not_not] at hopen
  exact .inr (.inl ⟨hopen.2, rfl⟩)

theorem opened_of_ended (h : Ended socket) : socket.opened = socket := by
  unfold opened
  refine if_pos (.inr ?_)
  rcases h with hstate | hstate <;> rw [hstate] <;> simp

theorem send_onward (world : World) (failure : Option String) (socket : WebSocket) :
    Onward socket.state (socket.send world failure).state := by
  unfold send
  split
  · exact .refl _
  cases failure with
  | some message => exact finish_onward ..
  | none => exact flush_onward ..

/-- The closing phase begins, and `flush` may end it at once. -/
theorem closing_onward (world : World) (h : socket.state ≠ .connecting) :
    Onward socket.state (flush world { socket with state := .closing }).state := by
  rcases flush_settles world { socket with state := .closing } with heq | hended
  · rw [heq]
    exact .inr (.inr (.inr ⟨h, rfl⟩))
  · exact .ended hended

theorem close_onward (world : World) (socket : WebSocket) :
    Onward socket.state (socket.close world).state := by
  unfold close
  dsimp only
  split
  · exact finish_onward "" (socket.emit .closeCalled)
  next hopen =>
  rw [not_or, not_not] at hopen
  have hconnected : socket.state = .connected := by simpa [WebSocket.emit] using hopen.2
  cases world.close with
  | some message => exact finish_onward message (socket.emit .closeCalled)
  | none =>
      have hemitted : (socket.emit .closeCalled).state ≠ .connecting := by
        simp [WebSocket.emit, hconnected]
      exact closing_onward world hemitted

theorem handle_onward (world : World) (event : SessionEvent) (socket : WebSocket)
    (h : event = .closed → socket.state ≠ .connecting) :
    Onward socket.state (socket.handle world event).state := by
  unfold handle
  split
  · exact .refl _
  cases event with
  | upgradeRequest =>
      dsimp only
      cases world.accept with
      | some error => exact finish_onward error socket.leave
      | none =>
          rcases flush_settles world { socket with
            stack := (.again :: socket.stack.headD []) :: socket.stack.tail } with heq | hended
          · rw [heq]
            exact opened_onward _
          · rw [opened_of_ended hended]
            exact .ended hended
  | opened => exact opened_onward socket
  | text payload => exact .refl _
  | binary payload => exact .refl _
  | closed => exact closing_onward world (h rfl)
  | other => exact .refl _

theorem resume_onward (world : World) (h : Mannered socket) :
    Onward socket.state (socket.resume world).state := by
  unfold resume
  cases hstack : socket.stack with
  | nil => exact .refl _
  | cons own rest =>
      cases own with
      | nil => exact .refl _
      | cons item items =>
          cases item with
          | event event =>
              refine handle_onward world event { socket with stack := items :: rest } ?_
              rintro rfl
              exact h items rest hstack
          | again =>
              dsimp only
              split
              · exact receive_onward world { socket with stack := items :: rest }
              · exact .refl _
          | flush => exact flush_onward world { socket with stack := items :: rest }
          | disconnect =>
              rw [disconnect_state]
              exact .refl _

/-- A call of the application. -/
theorem applied_onward {input : WebSocket.Input} (h : applied input = true) (world : World)
    (socket : WebSocket) : Onward socket.state (WebSocket.next socket ⟨input, world⟩).state := by
  have howner : ∀ {f : WebSocket → WebSocket}, Onward socket.state (f socket).state →
      Onward socket.state (socket.onOwner f).state := by
    intro f hf
    unfold onOwner
    split
    · exact hf
    · exact .refl _
  cases input with
  | send failure => exact howner (send_onward ..)
  | close => exact howner (close_onward ..)
  | abort => exact howner (finish_onward ..)
  | reopen => exact howner (finish_onward "" socket)
  | delete => exact finish_onward "" { socket with owner := false }
  | _ => cases h

/-! ## What the history says -/

/-- The endpoints that were dialled, oldest first. -/
def dialled (log : List DialEvent) : List IpEndpoint :=
  (log.filterMap fun
    | .dialled _ endpoint => some endpoint
    | _ => none).reverse

/-- The handshake is over. -/
def Over (log : List DialEvent) : Prop := ∃ state, .concluded state ∈ log

/-- An attempt follows the failure of the one before, and nothing follows the end of the
handshake. -/
def InOrder (event : DialEvent) (earlier : List DialEvent) : Prop :=
  ¬ Over earlier ∧
    match event with
    | .dialled place _ => place = (dialled earlier).length ∧
        (place = 0 ∨ .failed (place - 1) ∈ earlier)
    | .failed place => place + 1 = (dialled earlier).length
    | .concluded state => state = .connected ∨ state = .closed ∨ state = .failed

/-- The invariant of the dialling. -/
structure Tidy (p : Private) : Prop where
  waiting : p.lookup ≠ .done → p.streams = [] ∧ p.addresses = [] ∧ p.deferred = 0
  count : p.socket.state = .connecting → p.nextAddress = p.streams.length
  bound : p.streams.length ≤ p.addresses.length
  ordered : dialled p.log = p.addresses.take p.streams.length
  captured : ∀ stream current, p.streams[stream]? = some (some current) →
    current ≤ p.generation ∧
      (current = p.generation → p.attached = true ∧ stream + 1 = p.streams.length)
  single : p.deferred ≤ 1
  resting : p.socket.state = .connecting → p.deferred = 1 →
    p.attached = false ∧ .failed (p.streams.length - 1) ∈ p.log
  limited : p.socket.state = .connecting → ∃ expiry, p.deadline = some expiry
  concluded : Over p.log ↔ p.socket.state ≠ .connecting
  events : Always InOrder p.log

variable {p : Private}

@[simp] theorem dialled_over (state : SocketState) (log : List DialEvent) :
    dialled (.concluded state :: log) = dialled log := rfl

@[simp] theorem dialled_failed (place : ℕ) (log : List DialEvent) :
    dialled (.failed place :: log) = dialled log := rfl

@[simp] theorem dialled_dialled (place : ℕ) (endpoint : IpEndpoint) (log : List DialEvent) :
    dialled (.dialled place endpoint :: log) = dialled log ++ [endpoint] := by
  simp [dialled]

theorem over_cons (event : DialEvent) (log : List DialEvent) :
    Over (event :: log) ↔ (∃ state, event = .concluded state) ∨ Over log := by
  unfold Over
  simp only [List.mem_cons, exists_or, eq_comm]

theorem Tidy.length_dialled (h : Tidy p) : (dialled p.log).length = p.streams.length := by
  rw [h.ordered, List.length_take, Nat.min_eq_left h.bound]

theorem Tidy.notOver (h : Tidy p) (hconnecting : p.socket.state = .connecting) : ¬ Over p.log :=
  fun hover => h.concluded.1 hover hconnecting

/-- The connection changes while the handshake goes on, or after it. -/
theorem Tidy.stay (h : Tidy p) {after : WebSocket}
    (hstate : after.state = .connecting ↔ p.socket.state = .connecting) :
    Tidy { p with socket := after } :=
  { h with
    count := fun hafter => h.count (hstate.1 hafter)
    resting := fun hafter => h.resting (hstate.1 hafter)
    limited := fun hafter => h.limited (hstate.1 hafter)
    concluded := h.concluded.trans (not_congr hstate).symm }

/-- The handshake is over. -/
theorem Tidy.leave (h : Tidy p) {after : WebSocket} (hbefore : p.socket.state = .connecting)
    (hafter : after.state = .connected ∨ after.state = .closed ∨ after.state = .failed) :
    Tidy { p with socket := after, deadline := none, log := .concluded after.state :: p.log } := by
  have hleft : after.state ≠ .connecting := by
    rcases hafter with hstate | hstate | hstate <;> rw [hstate] <;> simp
  exact { h with
    count := fun heq => absurd heq hleft
    resting := fun heq => absurd heq hleft
    limited := fun heq => absurd heq hleft
    ordered := h.ordered
    concluded := iff_of_true ⟨after.state, List.mem_cons_self⟩ hleft
    events := h.events.cons ⟨h.notOver hbefore, hafter⟩ }

/-- The stream in place is abandoned. -/
theorem Tidy.abandon (h : Tidy p) {deadline : Option ℕ}
    (hdeadline : p.socket.state = .connecting → deadline = p.deadline) :
    Tidy { p with
      generation := p.generation + 1, attached := false, deadline := deadline } :=
  { h with
    captured := fun stream current hstream => by
      obtain ⟨hle, -⟩ := h.captured stream current hstream
      exact ⟨by dsimp only; omega, fun heq => by dsimp only at heq; omega⟩
    resting := fun hconnecting hdeferred => ⟨rfl, (h.resting hconnecting hdeferred).2⟩
    limited := fun hconnecting => hdeadline hconnecting ▸ h.limited hconnecting }

theorem follow_tidy (h : Tidy p) {f : WebSocket → WebSocket}
    (hf : Onward p.socket.state (f p.socket).state) : Tidy (p.follow f) := by
  unfold follow
  dsimp only
  by_cases hleft : p.socket.state = .connecting ∧ (f p.socket).state ≠ .connecting
  · have hafter := h.leave hleft.1 (hf.left hleft.1 hleft.2)
    rw [if_pos hleft, if_pos hleft]
    split
    · exact hafter.abandon fun _ => rfl
    · exact hafter
  · rw [if_neg hleft, if_neg hleft]
    have hstate : (f p.socket).state = .connecting ↔ p.socket.state = .connecting :=
      ⟨hf.connecting, fun hbefore => by_contra fun hafter => hleft ⟨hbefore, hafter⟩⟩
    have hafter := h.stay hstate
    split
    · next hended =>
        refine hafter.abandon fun hconnecting => ?_
        rcases hended.1 with heq | heq <;> rw [hconnecting] at heq <;> cases heq
    · exact hafter

theorem finish_tidy (message : String) (h : Tidy p) : Tidy (p.finish message) :=
  follow_tidy h (finish_onward ..)

/-! ## One attempt -/

/-- An attempt fails. -/
theorem retry_tidy (message : String) (h : Tidy p)
    (hnext : p.socket.state = .connecting → p.deferred = 0 ∧ p.streams ≠ []) :
    Tidy (p.retry message) := by
  unfold retry
  by_cases hconnecting : p.socket.state = .connecting
  · obtain ⟨hdeferred, hstreams⟩ := hnext hconnecting
    have hlength := List.length_pos_iff.2 hstreams
    rw [if_pos hconnecting]
    have hfailed : Tidy { p with log := .failed (p.streams.length - 1) :: p.log } :=
      { h with
        ordered := h.ordered
        resting := fun hafter hone => by
          dsimp only at hone
          omega
        concluded := by
          rw [over_cons, or_iff_right (by simp)]
          exact h.concluded
        events := h.events.cons ⟨h.notOver hconnecting, by
          dsimp only
          rw [h.length_dialled]
          omega⟩ }
    dsimp only
    split
    · exact finish_tidy message hfailed
    · have hafter := hfailed.abandon fun _ => rfl
      exact { hafter with
        waiting := fun hlookup => absurd (h.waiting hlookup).1 hstreams
        single := by
          dsimp only
          omega
        resting := fun _ _ => ⟨rfl, List.mem_cons_self⟩ }
  · rw [if_neg hconnecting, if_pos (.inl hconnecting)]
    exact finish_tidy message h

/-- A socket that waits for its next attempt. -/
structure Ready (p : Private) : Prop extends Tidy p where
  connecting : p.socket.state = .connecting
  found : p.lookup = .done
  idle : p.deferred = 0
  previous : p.streams = [] ∨ .failed (p.streams.length - 1) ∈ p.log

/-- The next endpoint is dialled. -/
theorem Ready.made (h : Ready p) (hattached : p.attached = false) {endpoint : IpEndpoint}
    (hendpoint : p.addresses[p.nextAddress]? = some endpoint) {stream deadline : Option ℕ}
    (attached : Bool) (hstream : stream = none ∨ stream = some p.generation ∧ attached = true)
    (hdeadline : ∃ expiry, deadline = some expiry) :
    Tidy { p with
      nextAddress := p.nextAddress + 1
      log := .dialled p.streams.length endpoint :: p.log
      streams := p.streams ++ [stream], attached := attached, deadline := deadline } := by
  have hcount := h.count h.connecting
  obtain ⟨hlt, hget⟩ := List.getElem?_eq_some_iff.1 hendpoint
  have hlength : (p.streams ++ [stream]).length = p.streams.length + 1 := by simp
  refine ⟨fun hlookup => absurd h.found hlookup, fun _ => ?_, ?_, ?_, ?_, h.single,
    fun _ hdeferred => ?_, fun _ => hdeadline, ?_, h.events.cons ⟨h.notOver h.connecting, ?_⟩⟩
  · dsimp only
    omega
  · dsimp only
    omega
  · dsimp only
    rw [dialled_dialled, h.ordered, hlength, ← List.take_append_getElem (hcount ▸ hlt)]
    simp only [← hget, hcount]
  · intro place current hplace
    dsimp only at hplace ⊢
    rw [hlength]
    by_cases hold : place < p.streams.length
    · -- An older stream captured an older generation.
      rw [List.getElem?_append_left hold] at hplace
      obtain ⟨hle, heq⟩ := h.captured place current hplace
      refine ⟨hle, fun hsame => ?_⟩
      rw [hattached] at heq
      cases (heq hsame).1
    · rw [List.getElem?_append_right (by omega)] at hplace
      have hlast : place = p.streams.length := by
        have := (List.getElem?_eq_some_iff.1 hplace).1
        simp at this
        omega
      rw [hlast] at hplace
      rcases hstream with rfl | ⟨rfl, hattach⟩
      · simp at hplace
      · obtain rfl : p.generation = current := by simpa using hplace
        exact ⟨le_refl _, fun _ => ⟨hattach, by omega⟩⟩
  · have hidle := h.idle
    dsimp only at hdeferred
    omega
  · rw [over_cons, or_iff_right (by simp)]
    exact h.concluded
  · dsimp only
    rw [h.length_dialled]
    refine ⟨rfl, h.previous.imp_left fun hnil => ?_⟩
    rw [hnil]
    rfl

theorem finish_ended' (message : String) (p : Private) : Ended (p.finish message).socket := by
  have hsocket : (p.finish message).socket = WebSocket.finish message p.socket := by
    unfold finish follow
    dsimp only
    split
    · rfl
    · split <;> rfl
  rw [hsocket]
  exact finish_ended message p.socket

/-- An attempt that fails before anything is dialled. -/
theorem finish_next_tidy (message : String) (h : Tidy p) (nextAddress : ℕ) :
    Tidy ({ p with nextAddress := nextAddress }.finish message) := by
  have hafter := finish_tidy message h
  have heq : { p with nextAddress := nextAddress }.finish message =
      { p.finish message with nextAddress := nextAddress } := by
    unfold finish follow
    dsimp only
    split
    · rfl
    · split <;> rfl
  rw [heq]
  refine { hafter with
    count := fun hconnecting => ?_ }
  rcases finish_ended' message p with hstate | hstate <;> rw [hstate] at hconnecting <;>
    cases hconnecting

theorem dialNext_tidy (now : ℕ) (world : World) (attempt : Attempt) (h : Ready p) :
    Tidy (p.dialNext now world attempt) := by
  have hgiven : ∀ session, Ready { p with
      generation := p.generation + 1, attached := false
      socket := { p.socket with session := session } } := by
    intro session
    have habandon := h.abandon fun _ => rfl
    have hstay : Tidy { p with
        generation := p.generation + 1, attached := false
        socket := { p.socket with session := session } } := habandon.stay Iff.rfl
    exact { hstay with
      connecting := h.connecting, found := h.found, idle := h.idle, previous := h.previous }
  unfold dialNext
  dsimp only
  cases hendpoint : p.addresses[p.nextAddress]? with
  | none => exact finish_tidy _ (hgiven false).toTidy
  | some endpoint =>
      dsimp only
      cases attempt.session with
      | some message => exact finish_next_tidy message (hgiven false).toTidy _
      | none =>
          dsimp only
          cases if p.url.scheme = "wss" then attempt.context else none with
          | some message => exact finish_next_tidy message (hgiven true).toTidy _
          | none =>
              dsimp only
              cases attempt.connect with
              | some message =>
                  refine retry_tidy message ?_ fun _ => ⟨h.idle, by simp⟩
                  exact (hgiven true).made rfl hendpoint false (.inl rfl) (h.limited h.connecting)
              | none =>
                  have hmade : ∀ expiry, Tidy _ := fun expiry =>
                    (hgiven true).made rfl hendpoint true (.inr ⟨rfl, rfl⟩) ⟨expiry, rfl⟩
                  unfold attach
                  dsimp only
                  split
                  · exact follow_tidy (hmade _) (flush_onward ..)
                  · exact hmade _

/-! ## One turn -/

/-- The addresses of the host are known. -/
theorem dial_tidy (now : ℕ) (world : World) (attempt : Attempt) (endpoints : List IpEndpoint)
    (h : Tidy p) (hlookup : p.lookup ≠ .done) (hconnecting : p.socket.state = .connecting) :
    Tidy ({ p with lookup := .done }.dial now world attempt endpoints) := by
  obtain ⟨hstreams, haddresses, hidle⟩ := h.waiting hlookup
  have hordered : dialled p.log = [] := by
    rw [h.ordered, hstreams]
    rfl
  refine dialNext_tidy now world attempt ?_
  exact { h with
    waiting := fun hne => absurd rfl hne
    count := fun _ => by
      dsimp only
      rw [hstreams]
      rfl
    bound := by
      dsimp only
      rw [hstreams]
      exact Nat.zero_le _
    ordered := by
      dsimp only
      rw [hordered, hstreams]
      rfl
    connecting := hconnecting, found := rfl, idle := hidle, previous := .inl hstreams }

theorem Tidy.lookup (h : Tidy p) (lookup : Lookup) (hlookup : p.lookup ≠ .done) :
    Tidy { p with lookup := lookup } :=
  { h with waiting := fun _ => h.waiting hlookup }

theorem resolve_tidy (platform : Platform) (now : ℕ) (world : World) (attempt : Attempt)
    (admitted : Bool) (h : Tidy p) : Tidy (p.resolve platform now world attempt admitted) := by
  unfold resolve
  by_cases hqueued : p.lookup ≠ .queued
  · rw [if_pos hqueued]
    exact h
  rw [if_neg hqueued]
  rw [not_not] at hqueued
  have hlookup : p.lookup ≠ .done := by simp [hqueued]
  have hdone := h.lookup .done hlookup
  dsimp only
  by_cases hgone : ¬ p.socket.owner ∨ p.socket.state ≠ .connecting
  · rw [if_pos hgone]
    exact hdone
  rw [if_neg hgone]
  rw [not_or, not_not, not_not] at hgone
  split
  · exact finish_tidy _ hdone
  generalize (if p.url.port = -1 then (if p.url.scheme = "wss" then 443 else 80)
    else p.url.port : ℤ) = port
  split
  · exact finish_tidy _ hdone
  cases platform.address p.url.host with
  | some address => exact dial_tidy now world attempt _ h hlookup hgone.2
  | none =>
      dsimp only
      split
      · exact h.lookup .posted hlookup
      · exact finish_tidy _ hdone

theorem deliver_tidy (now : ℕ) (world : World) (attempt : Attempt)
    (endpoints : Option (List IpEndpoint)) (h : Tidy p) :
    Tidy (p.deliver now world attempt endpoints) := by
  unfold deliver
  by_cases hposted : p.lookup ≠ .posted
  · rw [if_pos hposted]
    exact h
  rw [if_neg hposted]
  rw [not_not] at hposted
  have hlookup : p.lookup ≠ .done := by simp [hposted]
  have hdone := h.lookup .done hlookup
  dsimp only
  by_cases hgone : ¬ p.socket.owner ∨ p.socket.state ≠ .connecting
  · rw [if_pos hgone]
    exact hdone
  rw [if_neg hgone]
  rw [not_or, not_not, not_not] at hgone
  cases endpoints with
  | none => exact finish_tidy _ hdone
  | some endpoints =>
      cases endpoints with
      | nil => exact finish_tidy _ hdone
      | cons first rest => exact dial_tidy now world attempt _ h hlookup hgone.2

/-- While a stream is in place no retry is queued. -/
theorem Tidy.idle (h : Tidy p) {stream : ℕ}
    (hstream : p.streams[stream]? = some (some p.generation)) :
    p.socket.state = .connecting → p.deferred = 0 ∧ p.streams ≠ [] := by
  intro hconnecting
  obtain ⟨hattached, -⟩ := (h.captured stream _ hstream).2 rfl
  refine ⟨?_, fun hnil => by simp [hnil] at hstream⟩
  by_contra hne
  have hsingle := h.single
  have hdetached := (h.resting hconnecting (by omega)).1
  rw [hattached] at hdetached
  cases hdetached

theorem callback_tidy (world : World) (stream : ℕ) (callback : Callback) (h : Tidy p) :
    Tidy (Private.callback world stream callback p) := by
  unfold Private.callback
  cases hstream : p.streams[stream]? with
  | none => exact h
  | some captured =>
      cases captured with
      | none => exact h
      | some current =>
          dsimp only
          by_cases hstale : p.generation ≠ current
          · rw [if_pos hstale]
            exact h
          rw [if_neg hstale]
          rw [not_not] at hstale
          have hidle := h.idle (hstale ▸ hstream)
          have hlost : Tidy (if p.socket.state = .connecting then
              p.retry "WebSocket endpoint disconnected during handshake" else p.finish "") := by
            split
            · exact retry_tidy _ h hidle
            · exact finish_tidy _ h
          cases callback with
          | connected => exact follow_tidy h (flush_onward ..)
          | readable => exact follow_tidy h (receive_onward ..)
          | drained => exact follow_tidy h (flush_onward ..)
          | failed text => exact retry_tidy text h hidle
          | disconnected => exact hlost
          | readClosed => exact hlost

theorem redial_tidy (now : ℕ) (world : World) (attempt : Attempt) (h : Tidy p) :
    Tidy (p.redial now world attempt) := by
  have hsingle := h.single
  unfold redial
  by_cases hnone : p.deferred = 0
  · rw [if_pos hnone]
    exact h
  rw [if_neg hnone]
  have hone : p.deferred = 1 := by omega
  have hafter : Tidy { p with deferred := p.deferred - 1 } :=
    { h with
      waiting := fun hlookup => absurd (h.waiting hlookup).2.2 hnone
      single := by
        dsimp only
        omega
      resting := fun _ hdeferred => by
        dsimp only at hdeferred
        omega }
  dsimp only
  by_cases hconnecting : p.socket.owner ∧ p.socket.state = .connecting
  · rw [if_pos hconnecting]
    refine dialNext_tidy now world attempt { hafter with
      connecting := hconnecting.2
      found := by_contra fun hlookup => hnone (h.waiting hlookup).2.2
      idle := ?_
      previous := .inr (h.resting hconnecting.2 hone).2 }
    dsimp only
    omega
  · rw [if_neg hconnecting]
    exact hafter

theorem timeout_tidy (now : ℕ) (h : Tidy p) : Tidy (p.timeout now) := by
  unfold timeout
  split
  · exact finish_tidy _ h
  split
  · exact finish_tidy _ h
  · exact h

/-- What iiNetwork promises of the session. -/
def Orderly (p : Private) (_ : Turn) : Prop := Mannered p.socket

theorem next_tidy (platform : Platform) {turn : Turn} (h : Tidy p) (hsession : Orderly p turn) :
    Tidy (p.next platform turn) := by
  unfold next
  cases turn.input with
  | resolve admitted => exact resolve_tidy platform _ _ _ admitted h
  | deliver endpoints => exact deliver_tidy _ _ _ endpoints h
  | callback stream callback => exact callback_tidy _ stream callback h
  | redial => exact redial_tidy _ _ _ h
  | timeout => exact timeout_tidy _ h
  | resume => exact follow_tidy h (resume_onward _ hsession)
  | call input =>
      dsimp only
      by_cases happlied : applied input = true
      · rw [if_pos happlied]
        exact follow_tidy h (applied_onward happlied ..)
      · rw [if_neg happlied]
        exact h

theorem run_tidy {platform : Platform} {trace : List (Private × Turn)}
    (run : (machine platform).Run Orderly trace p) : Tidy p := by
  refine run.invariant_state (I := Tidy) ?_ fun _ _ h hsession => next_tidy platform h hsession
  rintro _ ⟨url, now, rfl⟩
  exact ⟨fun _ => ⟨rfl, rfl, rfl⟩, fun _ => rfl, le_refl _, rfl, by simp, by simp, by simp,
    fun _ => ⟨_, rfl⟩, by simp [Over], .nil⟩

end Private

end WebSocket

end ServerHost
