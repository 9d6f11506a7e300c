import ServerHost.Transport.WebSocket

/-!
# What a socket delivers after `close`

`close` leaves the session in place until the peer answers, and the loop of `receive`
looks at the session only.  So what comes up between `close` and the end of the
connection is delivered, and nothing else is.
-/

namespace ServerHost

namespace WebSocket

/-- The signals that deliver a message. -/
def Event.message : Event → Bool
  | .textMessageReceived _ => true
  | .binaryMessageReceived _ => true
  | _ => false

def SessionEvent.message : SessionEvent → Bool
  | .text _ => true
  | .binary _ => true
  | _ => false

/-- No message was delivered after `close`. -/
def Silent (log : List Event) : Prop :=
  Always (fun event earlier => event.message = true → .closeCalled ∉ earlier) log

/-- A message comes up, from the rest of a batch or from a later chunk, while the
connection closes after `close`. -/
structure Leaks (socket : WebSocket) (step : Step) : Prop where
  owner : socket.owner = true
  closeCalled : .closeCalled ∈ socket.log
  closing : socket.state = .closing
  turn : step.input = .resume
  next : ∃ event items rest, event.message = true ∧
    socket.stack = (.event event :: items) :: rest

/-- The session ends with the connection, and not before. -/
structure Joined (socket : WebSocket) : Prop where
  live : socket.session = true → socket.state ≠ .closed ∧ socket.state ≠ .failed
  closing : socket.state = .closing → socket.session = true

/-- What is open was not closed. -/
structure Coherent (socket : WebSocket) : Prop extends Joined socket where
  shut : .closeCalled ∈ socket.log → socket.state ≠ .connecting ∧ socket.state ≠ .connected

/-- Something else than a message is written to the history. -/
def Wordless (socket after : WebSocket) : Prop :=
  ∃ new, after.log = new ++ socket.log ∧
    ∀ event ∈ new, event.message = false ∧ event ≠ .closeCalled

variable {socket first after : WebSocket} {step : Step} {world : World}

/-! ## The history -/

theorem Wordless.refl (socket : WebSocket) : Wordless socket socket := ⟨[], rfl, by simp⟩

theorem Wordless.of_log (h : after.log = socket.log) : Wordless socket after :=
  ⟨[], by simp [h], by simp⟩

theorem Wordless.trans (h : Wordless socket first) (h' : Wordless first after) :
    Wordless socket after := by
  obtain ⟨new, hnew, hall⟩ := h
  obtain ⟨new', hnew', hall'⟩ := h'
  refine ⟨new' ++ new, by rw [hnew', hnew, List.append_assoc], fun event hevent => ?_⟩
  exact (List.mem_append.1 hevent).elim (hall' event) (hall event)

theorem Wordless.emit {event : Event} (hmessage : event.message = false)
    (hclose : event ≠ .closeCalled) : Wordless socket (socket.emit event) :=
  ⟨[event], rfl, by simp [hmessage, hclose]⟩

theorem silent_append {new log : List Event} (h : ∀ event ∈ new, event.message = false) :
    Silent (new ++ log) ↔ Silent log := by
  induction new with
  | nil => rfl
  | cons event rest ih =>
      rw [List.forall_mem_cons] at h
      rw [← ih h.2]
      refine ⟨Always.tail, fun hrest => hrest.cons ?_⟩
      simp [h.1]

theorem Wordless.silent (h : Wordless socket after) : Silent after.log ↔ Silent socket.log := by
  obtain ⟨new, hnew, hall⟩ := h
  rw [hnew]
  exact silent_append fun event hevent => (hall event hevent).1

/-! ## The functions -/

/-- What a function keeps that delivers nothing. -/
structure Keeps (socket after : WebSocket) : Prop where
  coherent : Coherent socket → Coherent after
  wordless : Wordless socket after

theorem Keeps.refl (socket : WebSocket) : Keeps socket socket := ⟨id, .refl socket⟩

theorem Keeps.trans (h : Keeps socket first) (h' : Keeps first after) : Keeps socket after :=
  ⟨h'.coherent ∘ h.coherent, h.wordless.trans h'.wordless⟩

/-- The calls in progress and the object do not matter here. -/
theorem Keeps.of_eq (hlog : after.log = socket.log) (hstate : after.state = socket.state)
    (hsession : after.session = socket.session) : Keeps socket after := by
  refine ⟨fun h => ⟨⟨?_, ?_⟩, ?_⟩, .of_log hlog⟩
  · rw [hsession, hstate]
    exact h.live
  · rw [hsession, hstate]
    exact h.closing
  · rw [hlog, hstate]
    exact h.shut

theorem Coherent.emit {event : Event} (h : Coherent socket) (hclose : event ≠ .closeCalled) :
    Coherent (socket.emit event) := by
  refine ⟨⟨h.live, h.closing⟩, fun hmem => h.shut ?_⟩
  exact (List.mem_cons.1 hmem).resolve_left fun heq => hclose heq.symm

theorem Keeps.emit {event : Event} (hmessage : event.message = false)
    (hclose : event ≠ .closeCalled) : Keeps socket (socket.emit event) :=
  ⟨fun h => h.emit hclose, .emit hmessage hclose⟩

theorem disconnect_keeps (socket : WebSocket) : Keeps socket socket.disconnect := by
  unfold disconnect
  split
  · refine .trans ?_ (.emit rfl (by simp))
    exact .of_eq rfl rfl rfl
  · exact .refl socket

@[simp] theorem disconnect_state (socket : WebSocket) :
    socket.disconnect.state = socket.state := by
  unfold disconnect
  split <;> rfl

@[simp] theorem disconnect_session (socket : WebSocket) :
    socket.disconnect.session = socket.session := by
  unfold disconnect
  split <;> rfl

theorem finish_ended (message : String) (socket : WebSocket) :
    (socket.finish message).state = .closed ∨ (socket.finish message).state = .failed := by
  unfold finish
  split
  · next h => exact h
  dsimp only
  split
  · dsimp only [WebSocket.emit]
    split <;> simp
  · rw [disconnect_state]
    dsimp only
    split <;> simp

theorem finish_session (message : String) (h : Joined socket) :
    (socket.finish message).session = false := by
  unfold finish
  split
  · next hended =>
      rw [← Bool.not_eq_true]
      intro hsession
      obtain ⟨hclosed, hfailed⟩ := h.live hsession
      exact hended.elim hclosed hfailed
  dsimp only
  split
  · rfl
  · rw [disconnect_session]

/-- A connection that ends is over. -/
theorem finish_coherent (message : String) (h : Joined socket) :
    Coherent (socket.finish message) := by
  have hended := finish_ended message socket
  have hsession := finish_session message h
  refine ⟨⟨by simp [hsession], fun hclosing => ?_⟩, fun _ => ?_⟩
  · rcases hended with hended | hended <;> rw [hended] at hclosing <;> cases hclosing
  · rcases hended with hended | hended <;> rw [hended] <;> simp

theorem finish_wordless (message : String) (socket : WebSocket) :
    Wordless socket (socket.finish message) := by
  unfold finish
  split
  · exact .refl socket
  dsimp only
  split
  · exact .trans (.of_log rfl) (.emit rfl (by simp))
  · exact .trans (.of_log rfl) (disconnect_keeps _).wordless

theorem finish_keeps (message : String) (socket : WebSocket) :
    Keeps socket (socket.finish message) :=
  ⟨fun h => finish_coherent message h.toJoined, finish_wordless message socket⟩

theorem flush_keeps (world : World) (socket : WebSocket) : Keeps socket (socket.flush world) := by
  unfold flush
  split
  · exact finish_keeps ..
  · exact .refl socket

theorem receive_keeps (world : World) (socket : WebSocket) :
    Keeps socket (socket.receive world) := by
  unfold receive
  split
  · exact .refl socket
  cases world.receive with
  | error message => exact finish_keeps ..
  | ok events => exact .of_eq rfl rfl rfl

theorem opened_keeps (socket : WebSocket) : Keeps socket socket.opened := by
  unfold opened
  split
  · exact .refl socket
  · next hopen =>
      rw [not_or, not_not, not_not] at hopen
      refine ⟨fun h => ?_, .trans (.of_log rfl) (.emit rfl (by simp))⟩
      refine Coherent.emit ⟨⟨by simp, by simp⟩, fun hmem => ?_⟩ (by simp)
      exact absurd hopen.2 (h.shut hmem).1

theorem retry_keeps (message : String) (exhausted : Bool) (socket : WebSocket) :
    Keeps socket (socket.retry message exhausted) := by
  unfold retry
  split
  · exact finish_keeps ..
  · exact .refl socket

theorem dialNext_keeps (failure : Option String) (socket : WebSocket) :
    Keeps socket (socket.dialNext failure) := by
  unfold dialNext
  split
  · exact .refl socket
  · next hconnecting =>
      rw [not_not] at hconnecting
      cases failure with
      | some message =>
          refine .trans ?_ (finish_keeps ..)
          refine ⟨fun h => ⟨⟨by simp, ?_⟩, h.shut⟩, .of_log rfl⟩
          simp [hconnecting]
      | none =>
          refine ⟨fun h => ⟨⟨?_, fun _ => rfl⟩, h.shut⟩, .of_log rfl⟩
          simp [hconnecting]

theorem send_keeps (world : World) (failure : Option String) (socket : WebSocket) :
    Keeps socket (socket.send world failure) := by
  unfold send
  split
  · exact .refl socket
  cases failure with
  | some message => exact finish_keeps ..
  | none => exact flush_keeps ..

/-- The closing phase begins. -/
theorem closing_coherent (hsession : socket.session = true) :
    Coherent { socket with state := .closing } :=
  ⟨⟨by simp, fun _ => hsession⟩, by simp⟩

/-- After `close` nothing is open. -/
theorem close_coherent (world : World) (h : Joined socket) : Coherent (socket.close world) := by
  have hcalled : Joined (socket.emit .closeCalled) := ⟨h.live, h.closing⟩
  unfold close
  dsimp only
  split
  · exact finish_coherent _ hcalled
  · next hopen =>
      rw [not_or, not_not] at hopen
      cases world.close with
      | some message => exact finish_coherent _ hcalled
      | none => exact (flush_keeps ..).coherent (closing_coherent hopen.1)

theorem close_silent (world : World) (socket : WebSocket) :
    Silent (socket.close world).log ↔ Silent socket.log := by
  have hcalled : Silent ([.closeCalled] ++ socket.log) ↔ Silent socket.log :=
    silent_append (by simp [Event.message])
  change Silent (socket.emit .closeCalled).log ↔ Silent socket.log at hcalled
  rw [← hcalled]
  unfold close
  dsimp only
  split
  · exact (finish_wordless ..).silent
  cases world.close with
  | some message => exact (finish_wordless ..).silent
  | none => exact (Wordless.trans (.of_log rfl) (flush_keeps ..).wordless).silent

/-! ## One turn -/

/-- A round of the loop that delivers nothing. -/
theorem handle_keeps (world : World) {event : SessionEvent} (hmessage : event.message = false)
    (socket : WebSocket) : Keeps socket (socket.handle world event) := by
  unfold handle
  split
  · exact .of_eq rfl rfl rfl
  next hlive =>
  rw [not_or, not_not, not_not] at hlive
  cases event with
  | upgradeRequest =>
      dsimp only
      cases world.accept with
      | some error =>
          refine .trans ?_ (finish_keeps ..)
          exact .of_eq rfl rfl rfl
      | none =>
          refine .trans ?_ (opened_keeps _)
          refine .trans ?_ (flush_keeps ..)
          exact .of_eq rfl rfl rfl
  | opened => exact opened_keeps socket
  | text payload => cases hmessage
  | binary payload => cases hmessage
  | closed =>
      refine .trans ?_ (flush_keeps ..)
      exact ⟨fun _ => closing_coherent hlive.2, .of_log rfl⟩
  | other => exact .refl socket

/-- What was closed and still has a session is closing. -/
theorem Coherent.closing_of_called (h : Coherent socket) (hsession : socket.session = true)
    (hcalled : .closeCalled ∈ socket.log) : socket.state = .closing := by
  obtain ⟨hclosed, hfailed⟩ := h.live hsession
  obtain ⟨hconnecting, hconnected⟩ := h.shut hcalled
  cases hstate : socket.state with
  | closing => rfl
  | closed => exact absurd hstate hclosed
  | failed => exact absurd hstate hfailed
  | connecting => exact absurd hstate hconnecting
  | connected => exact absurd hstate hconnected

theorem silent_emit {event : Event} (hmessage : event.message = true) :
    Silent (socket.emit event).log ↔ Silent socket.log ∧ .closeCalled ∉ socket.log :=
  ⟨fun h => ⟨h.tail, h.head hmessage⟩, fun h => h.1.cons fun _ => h.2⟩

/-- A message is delivered to an object that lives, on a connection that lasts. -/
theorem handle_message (world : World) {event : SessionEvent} (hmessage : event.message = true)
    (h : Coherent socket) : Coherent (socket.handle world event) ∧
      (Silent (socket.handle world event).log ↔ Silent socket.log ∧
        ¬ (socket.owner = true ∧ .closeCalled ∈ socket.log ∧ socket.state = .closing)) := by
  unfold handle
  split
  · next hgone =>
      have hleave : Keeps socket socket.leave := .of_eq rfl rfl rfl
      refine ⟨hleave.coherent h, hleave.wordless.silent.trans (iff_self_and.2 fun _ => ?_)⟩
      rintro ⟨howner, -, hclosing⟩
      exact hgone.elim (fun hnot => hnot howner) fun hnot => hnot (h.closing hclosing)
  · next hlive =>
      rw [not_or, not_not, not_not] at hlive
      have hcalled : .closeCalled ∉ socket.log ↔
          ¬ (socket.owner = true ∧ .closeCalled ∈ socket.log ∧ socket.state = .closing) :=
        not_congr ⟨fun hmem => ⟨hlive.1, hmem, h.closing_of_called hlive.2 hmem⟩, fun h => h.2.1⟩
      cases event with
      | text payload =>
          refine ⟨h.emit (by simp), ?_⟩
          rw [silent_emit rfl, hcalled]
      | binary payload =>
          refine ⟨h.emit (by simp), ?_⟩
          rw [silent_emit rfl, hcalled]
      | _ => cases hmessage

/-- A turn that does not hand over a message keeps the history silent or not. -/
theorem Keeps.turn (h : Keeps socket after) (hcoherent : Coherent socket)
    (hnext : ¬ Leaks socket step) :
    Coherent after ∧ (Silent after.log ↔ Silent socket.log ∧ ¬ Leaks socket step) :=
  ⟨h.coherent hcoherent, h.wordless.silent.trans (iff_self_and.2 fun _ => hnext)⟩

theorem resume_step (hinput : step.input = .resume) (h : Coherent socket) :
    Coherent (socket.resume step.world) ∧
      (Silent (socket.resume step.world).log ↔ Silent socket.log ∧ ¬ Leaks socket step) := by
  unfold resume
  split
  · next hstack =>
      refine (Keeps.refl socket).turn h fun hleaks => ?_
      obtain ⟨_, _, _, -, hnext⟩ := hleaks.next
      simp [hstack] at hnext
  · next hstack =>
      refine Keeps.turn (.of_eq rfl rfl rfl) h fun hleaks => ?_
      obtain ⟨_, _, _, -, hnext⟩ := hleaks.next
      simp [hstack] at hnext
  · next item items rest hstack =>
      -- One item of the innermost batch is taken; only a message event can leak.
      have hpop : Keeps socket { socket with stack := items :: rest } := .of_eq rfl rfl rfl
      have hother : (∀ event, event.message = true → item ≠ .event event) →
          ¬ Leaks socket step := by
        intro hitem hleaks
        obtain ⟨event, _, _, hmessage, hnext⟩ := hleaks.next
        rw [hstack] at hnext
        simp only [List.cons.injEq] at hnext
        exact hitem event hmessage hnext.1.1
      cases item with
      | event event =>
          cases hmessage : event.message with
          | false =>
              refine (hpop.trans (handle_keeps step.world hmessage _)).turn h (hother ?_)
              rintro second hother' heq
              cases heq
              rw [hmessage] at hother'
              cases hother'
          | true =>
              obtain ⟨hcoherent, hsilent⟩ :=
                handle_message step.world hmessage (hpop.coherent h)
              refine ⟨hcoherent, hsilent.trans (and_congr_right fun _ => not_congr ?_)⟩
              constructor
              · rintro ⟨howner, hcalled, hclosing⟩
                exact ⟨howner, hcalled, hclosing, hinput, event, items, rest, hmessage, hstack⟩
              · exact fun hleaks => ⟨hleaks.owner, hleaks.closeCalled, hleaks.closing⟩
      | again =>
          refine Keeps.turn ?_ h (hother (by simp))
          dsimp only
          split
          · exact hpop.trans (receive_keeps ..)
          · exact hpop
      | flush => exact (hpop.trans (flush_keeps ..)).turn h (hother (by simp))
      | disconnect => exact (hpop.trans (disconnect_keeps _)).turn h (hother (by simp))

/-- **What one turn delivers.** -/
theorem next_step (h : Coherent socket) : Coherent (next socket step) ∧
    (Silent (next socket step).log ↔ Silent socket.log ∧ ¬ Leaks socket step) := by
  have hother : step.input ≠ .resume → ¬ Leaks socket step := fun hne hleaks => hne hleaks.turn
  unfold next
  cases hinput : step.input with
  | resume => exact resume_step hinput h
  | readable => exact (receive_keeps ..).turn h (hother (by simp [hinput]))
  | drained => exact (flush_keeps ..).turn h (hother (by simp [hinput]))
  | failed message exhausted => exact (retry_keeps ..).turn h (hother (by simp [hinput]))
  | disconnected exhausted =>
      refine Keeps.turn ?_ h (hother (by simp [hinput]))
      dsimp only
      split
      · exact retry_keeps ..
      · exact finish_keeps ..
  | dial failure => exact (dialNext_keeps ..).turn h (hother (by simp [hinput]))
  | timeout message => exact (finish_keeps ..).turn h (hother (by simp [hinput]))
  | send failure =>
      refine Keeps.turn ?_ h (hother (by simp [hinput]))
      simp only [onOwner]
      split
      · exact send_keeps ..
      · exact .refl socket
  | close =>
      -- Closing itself leaks nothing: the batch goes on in a later turn.
      simp only [onOwner]
      split
      · exact ⟨close_coherent _ h.toJoined, (close_silent ..).trans
          (iff_self_and.2 fun _ => hother (by simp [hinput]))⟩
      · exact (Keeps.refl socket).turn h (hother (by simp [hinput]))
  | abort =>
      refine Keeps.turn ?_ h (hother (by simp [hinput]))
      simp only [onOwner]
      split
      · exact finish_keeps ..
      · exact .refl socket
  | reopen =>
      refine Keeps.turn ?_ h (hother (by simp [hinput]))
      simp only [onOwner]
      split
      · exact (finish_keeps ..).trans (.of_eq rfl rfl rfl)
      · exact .refl socket
  | delete =>
      refine Keeps.turn ?_ h (hother (by simp [hinput]))
      refine .trans ?_ (finish_keeps ..)
      exact .of_eq rfl rfl rfl

theorem run_coherent {trace : List (WebSocket × Step)}
    (run : machine.Run (fun _ _ => True) trace socket) : Coherent socket := by
  refine run.invariant_state (I := Coherent) ?_ fun _ _ h _ => (next_step h).1
  rintro _ ⟨session, rfl⟩
  exact ⟨⟨by simp, by simp⟩, by simp⟩

/-- **Nothing is delivered after `close` exactly when no message comes up while the
connection closes.** -/
theorem run_silent_iff {trace : List (WebSocket × Step)}
    (run : machine.Run (fun _ _ => True) trace socket) :
    Silent socket.log ↔ ∀ visit ∈ trace, ¬ Leaks visit.1 visit.2 := by
  induction run with
  | start hinit =>
      obtain ⟨session, rfl⟩ := hinit
      simp [Silent, Always.nil]
  | step run _ ih =>
      rw [List.forall_mem_cons, and_comm, ← ih]
      exact (next_step (run_coherent run)).2

def World.sample (events : List SessionEvent) : World where
  overflow := false
  accept := none
  close := none
  receive := .ok events

/-- A client connects, and one chunk brings two messages. -/
def batch : List Step :=
  [⟨.readable, .sample [.opened]⟩, ⟨.resume, .sample []⟩, ⟨.resume, .sample []⟩,
    ⟨.readable, .sample [.text "first", .text "second"]⟩, ⟨.resume, .sample []⟩]

theorem run_batch (steps : List Step) :
    ∃ trace, machine.Run (fun _ _ => True) trace (steps.foldl next { session := true }) := by
  have hstart : machine.Run (fun _ _ => True) [] { session := true } := .start ⟨true, rfl⟩
  exact hstart.extend_all steps

/-- The slot for the first message closes the socket, and the second one follows. -/
theorem not_silent_batch : ∃ trace socket, machine.Run (fun _ _ => True) trace socket ∧
    socket.log = [.textMessageReceived "second", .closeCalled, .textMessageReceived "first",
      .connected] ∧ ¬ Silent socket.log := by
  obtain ⟨trace, run⟩ :=
    run_batch (batch ++ [⟨.close, .sample []⟩, ⟨.resume, .sample []⟩])
  refine ⟨trace, _, run, rfl, fun h => ?_⟩
  exact h.head rfl List.mem_cons_self

/-- Without the second message. -/
theorem run_silent_iff_first : ∃ trace socket, machine.Run (fun _ _ => True) trace socket ∧
    .closeCalled ∈ socket.log ∧
      (Silent socket.log ↔ ∀ visit ∈ trace, ¬ Leaks visit.1 visit.2) := by
  obtain ⟨trace, run⟩ := run_batch (batch ++ [⟨.close, .sample []⟩])
  exact ⟨trace, _, run, List.mem_cons_self, run_silent_iff run⟩

end WebSocket

end ServerHost
