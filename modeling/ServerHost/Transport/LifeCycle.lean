import Mathlib.Data.List.Sublists
import ServerHost.Transport.Closing

/-!
# The life cycle of a socket

`open` gives a `WebSocket` a new connection and forgets the old one.  Every connection
ends once, in `finish`, which emits `errorOccurred` and then `disconnected`; the slots of
the first may call `open`.  The old connection is not told that it was replaced, so what is
left of its `finish` emits `disconnected` in the name of the new one.

## Strategy

`Cycle` is the invariant of one connection: what was emitted fits its state.  A connection
that ended emits nothing more but the end of its `finish` (`resume_ended`).  A connection
is replaced only when it ended, or was destroyed.
-/

namespace ServerHost

namespace WebSocket

/-- The signals of a life cycle. -/
inductive Phase where
  | connected | errorOccurred | disconnected
  deriving DecidableEq

def Event.phase : Event → Option Phase
  | .connected => some .connected
  | .errorOccurred _ => some .errorOccurred
  | .disconnected => some .disconnected
  | _ => none

/-- The signals of a life cycle in a history, newest first. -/
def phases (log : List Event) : List Phase := log.filterMap Event.phase

/-- `finish` was called. -/
def Ended (socket : WebSocket) : Prop := socket.state = .closed ∨ socket.state = .failed

/-- What a connection has emitted fits the state it is in. -/
structure Cycle (socket : WebSocket) : Prop where
  live : socket.session = true → ¬ Ended socket
  ordered : (phases socket.log).Sublist [.disconnected, .errorOccurred, .connected]
  unnotified : socket.notified = false → (phases socket.log).Sublist [.errorOccurred, .connected]
  running : ¬ Ended socket → socket.notified = false ∧ (phases socket.log).Sublist [.connected]
  connecting : socket.state = .connecting → phases socket.log = []
  pending : ∀ items ∈ socket.stack, .disconnect ∈ items → Ended socket

/-- What a function of a connection keeps that is silent once the connection ended. -/
structure Moves (socket after : WebSocket) : Prop where
  cycle : Cycle socket → Cycle after
  grew : ∃ new, after.log = new ++ socket.log
  ended : Cycle socket → Ended socket → Ended after ∧ after.log = socket.log

variable {socket first after : WebSocket} {world : World} {step : Step}

instance (socket : WebSocket) : Decidable (Ended socket) :=
  inferInstanceAs (Decidable (_ ∨ _))

theorem Moves.refl (socket : WebSocket) : Moves socket socket :=
  ⟨id, ⟨[], rfl⟩, fun _ hended => ⟨hended, rfl⟩⟩

theorem Moves.trans (h : Moves socket first) (h' : Moves first after) : Moves socket after := by
  refine ⟨h'.cycle ∘ h.cycle, ?_, fun hcycle hended => ?_⟩
  · obtain ⟨new, hnew⟩ := h.grew
    obtain ⟨new', hnew'⟩ := h'.grew
    exact ⟨new' ++ new, by rw [hnew', hnew, List.append_assoc]⟩
  · obtain ⟨hmid, hlog⟩ := h.ended hcycle hended
    obtain ⟨hafter, hlog'⟩ := h'.ended (h.cycle hcycle) hmid
    exact ⟨hafter, hlog'.trans hlog⟩

/-- The calls in progress change, and nothing new is left to do at their end. -/
theorem Moves.of_stack (stack : List (List Item))
    (h : ∀ items ∈ stack, .disconnect ∈ items → ∃ old ∈ socket.stack, .disconnect ∈ old) :
    Moves socket { socket with stack := stack } := by
  refine ⟨fun hcycle => ?_, ⟨[], rfl⟩, fun _ hended => ⟨hended, rfl⟩⟩
  exact { hcycle with
    pending := fun items hitems hmem => by
      obtain ⟨old, hold, hpending⟩ := h items hitems hmem
      exact hcycle.pending old hold hpending }

/-- An event that is no signal of the life cycle. -/
theorem Cycle.emit (h : Cycle socket) {event : Event} (hphase : event.phase = none) :
    Cycle (socket.emit event) := by
  have hphases : phases (event :: socket.log) = phases socket.log := by
    rw [phases, List.filterMap_cons_none hphase, phases]
  refine ⟨h.live, ?_, fun hno => ?_, fun hopen => ?_, fun hconnecting => ?_, h.pending⟩
  · exact hphases ▸ h.ordered
  · exact hphases ▸ h.unnotified hno
  · exact hphases ▸ h.running hopen
  · exact hphases ▸ h.connecting hconnecting

theorem Moves.emit {event : Event} (hphase : event.phase = none)
    (h : Cycle socket → ¬ Ended socket) :
    Moves socket (socket.emit event) :=
  ⟨fun hcycle => hcycle.emit hphase, ⟨[event], rfl⟩, fun hcycle hended => absurd hended (h hcycle)⟩

/-! ## The end of a connection -/

/-- The end of `finish`, once the state is written. -/
theorem disconnect_cycle (h : Cycle socket) (hended : Ended socket) : Cycle socket.disconnect := by
  unfold disconnect
  by_cases htold : socket.owner = true ∧ ¬ socket.notified = true
  · rw [if_pos htold]
    have hnotified : socket.notified = false := by simpa using htold.2
    refine ⟨h.live, ?_, fun hno => absurd hno (by simp [WebSocket.emit]),
      fun hopen => absurd hended hopen, ?_, h.pending⟩
    · exact (h.unnotified hnotified).cons_cons _
    · intro hconnecting
      rcases hended with hstate | hstate <;> rw [hstate] at hconnecting <;> cases hconnecting
  · rw [if_neg htold]
    exact h

theorem disconnect_grew (socket : WebSocket) :
    ∃ new, socket.disconnect.log = new ++ socket.log := by
  unfold disconnect
  split
  · exact ⟨[.disconnected], rfl⟩
  · exact ⟨[], rfl⟩

/-- A connection that runs is written off: nothing was emitted but `connected`. -/
theorem Cycle.ending (h : Cycle socket) (hopen : ¬ Ended socket) {state : SocketState}
    (hstate : state = .closed ∨ state = .failed) (error : String) :
    Cycle { socket with error := error, state := state, session := false } := by
  obtain ⟨-, hphases⟩ := h.running hopen
  refine ⟨by simp, h.ordered, h.unnotified, fun hno => absurd hstate hno, fun hconnecting => ?_,
    fun _ _ _ => hstate⟩
  rcases hstate with rfl | rfl <;> cases hconnecting

theorem finish_moves (message : String) (socket : WebSocket) :
    Moves socket (socket.finish message) := by
  unfold finish
  by_cases hended : socket.state = .closed ∨ socket.state = .failed
  · rw [if_pos hended]
    exact .refl socket
  rw [if_neg hended]
  dsimp only
  have hstate : (if message = "" then SocketState.closed else .failed) = .closed ∨
      (if message = "" then SocketState.closed else .failed) = .failed := by
    split <;> simp
  by_cases herror : socket.owner = true ∧ message ≠ ""
  · rw [if_pos herror]
    refine ⟨fun h => ?_, ⟨[.errorOccurred message], rfl⟩, fun _ hyes => absurd hyes hended⟩
    have hending := h.ending hended hstate message
    have hphases := (h.running hended).2.cons_cons Phase.errorOccurred
    refine ⟨hending.live, ?_, fun _ => hphases, fun hno => absurd hstate hno, fun hconnecting => ?_,
      fun _ _ _ => hstate⟩
    · exact hphases.cons _
    · rcases hstate with heq | heq <;> rw [WebSocket.emit] at hconnecting <;>
        exact absurd (heq.symm.trans hconnecting) (by simp)
  · rw [if_neg herror]
    refine ⟨fun h => disconnect_cycle (h.ending hended hstate message) hstate, disconnect_grew _,
      fun _ hyes => absurd hyes hended⟩

/-! ## The functions -/

theorem flush_moves (world : World) (socket : WebSocket) : Moves socket (socket.flush world) := by
  unfold flush
  split
  · exact finish_moves ..
  · exact .refl socket

theorem receive_moves (world : World) (socket : WebSocket) :
    Moves socket (socket.receive world) := by
  unfold receive
  split
  · exact .refl socket
  cases world.receive with
  | error message => exact finish_moves ..
  | ok events =>
      refine .of_stack _ fun items hitems hmem => ?_
      rcases List.mem_cons.1 hitems with rfl | hold
      · simp at hmem
      · exact ⟨items, hold, hmem⟩

theorem opened_moves (socket : WebSocket) : Moves socket socket.opened := by
  unfold opened
  split
  · exact .refl socket
  next hopen =>
  rw [not_or, not_not, not_not] at hopen
  have hrunning : ¬ Ended socket := by
    rintro (hstate | hstate) <;> rw [hopen.2] at hstate <;> cases hstate
  refine ⟨fun h => ?_, ⟨[.connected], rfl⟩, fun _ hended => absurd hended hrunning⟩
  have hnone := h.connecting hopen.2
  have hphases : phases (.connected :: socket.log) = [.connected] :=
    congrArg (Phase.connected :: ·) hnone
  refine ⟨fun _ hended => ?_, ?_, fun _ => ?_, fun _ => ⟨(h.running hrunning).1, ?_⟩,
    fun hconnecting => absurd hconnecting (by simp [WebSocket.emit]), fun items hitems hmem => ?_⟩
  · rcases hended with hstate | hstate <;> cases hstate
  · exact hphases.symm ▸ ((List.Sublist.refl _).cons _).cons _
  · exact hphases.symm ▸ (List.Sublist.refl _).cons _
  · exact hphases.symm ▸ List.Sublist.refl _
  · exact absurd (h.pending items hitems hmem) hrunning

theorem retry_moves (message : String) (exhausted : Bool) (socket : WebSocket) :
    Moves socket (socket.retry message exhausted) := by
  unfold retry
  split
  · exact finish_moves ..
  · exact .refl socket

theorem dialNext_moves (failure : Option String) (socket : WebSocket) :
    Moves socket (socket.dialNext failure) := by
  unfold dialNext
  split
  · exact .refl socket
  next hconnecting =>
  rw [not_not] at hconnecting
  have hrunning : ¬ Ended socket := by
    rintro (hstate | hstate) <;> rw [hconnecting] at hstate <;> cases hstate
  have hsession : ∀ session, Moves socket { socket with session := session } := by
    intro session
    refine ⟨fun h => ?_, ⟨[], rfl⟩, fun _ hended => ⟨hended, rfl⟩⟩
    exact { h with live := fun _ => hrunning }
  cases failure with
  | some message => exact (hsession false).trans (finish_moves ..)
  | none => exact hsession true

theorem send_moves (world : World) (failure : Option String) (socket : WebSocket) :
    Moves socket (socket.send world failure) := by
  unfold send
  split
  · exact .refl socket
  cases failure with
  | some message => exact finish_moves ..
  | none => exact flush_moves ..

/-- A connection that has a session begins to close. -/
theorem closing_moves (hsession : socket.session = true) :
    Moves socket { socket with state := .closing } := by
  refine ⟨fun h => ?_, ⟨[], rfl⟩, fun h hended => absurd hended (h.live hsession)⟩
  have hrunning := h.live hsession
  refine ⟨fun _ hended => ?_, h.ordered, h.unnotified, fun _ => h.running hrunning,
    fun hconnecting => (by cases hconnecting), fun items hitems hmem => ?_⟩
  · rcases hended with hstate | hstate <;> cases hstate
  · exact absurd (h.pending items hitems hmem) hrunning

theorem handle_moves (world : World) (event : SessionEvent) (socket : WebSocket) :
    Moves socket (socket.handle world event) := by
  have hleave : Moves socket socket.leave :=
    .of_stack _ fun items hitems hmem => ⟨items, List.mem_of_mem_tail hitems, hmem⟩
  unfold handle
  split
  · exact hleave
  next hlive =>
  rw [not_or, not_not, not_not] at hlive
  have hrunning : Cycle socket → ¬ Ended socket := fun h => h.live hlive.2
  cases event with
  | upgradeRequest =>
      dsimp only
      cases world.accept with
      | some error => exact hleave.trans (finish_moves ..)
      | none =>
          refine .trans ?_ (opened_moves _)
          refine .trans (.of_stack _ fun items hitems hmem => ?_) (flush_moves ..)
          rcases List.mem_cons.1 hitems with rfl | hold
          · -- What is left of the call is still the same.
            rcases List.mem_cons.1 hmem with heq | hmem
            · cases heq
            · cases hstack : socket.stack with
              | nil => simp [hstack] at hmem
              | cons own rest =>
                  rw [hstack] at hmem
                  exact ⟨own, List.mem_cons_self, hmem⟩
          · exact ⟨items, List.mem_of_mem_tail hold, hmem⟩
  | opened => exact opened_moves socket
  | text payload => exact .emit rfl hrunning
  | binary payload => exact .emit rfl hrunning
  | closed => exact (closing_moves hlive.2).trans (flush_moves ..)
  | other => exact .refl socket

/-- `close` notes that it was called, also on a connection that ended. -/
theorem close_moves (world : World) (socket : WebSocket) :
    Moves (socket.emit .closeCalled) (socket.close world) := by
  unfold close
  dsimp only
  split
  · exact finish_moves ..
  next hopen =>
  rw [not_or, not_not] at hopen
  cases world.close with
  | some message => exact finish_moves ..
  | none => exact (closing_moves hopen.1).trans (flush_moves ..)

/-! ## One turn -/

/-- An input that comes from the connection: a callback, a timer, or a call that goes on. -/
def Input.internal : Input → Bool
  | .resume | .readable | .drained | .failed .. | .disconnected .. | .dial .. | .timeout .. => true
  | _ => false

/-- A function that the application calls. -/
def Input.called : Input → Bool
  | .send .. | .close | .abort => true
  | _ => false

/-- The innermost call of the connection is the end of its `finish`, and has something to
emit. -/
def unfinished (socket : WebSocket) : Bool :=
  match socket.stack with
  | (.disconnect :: _) :: _ => socket.owner && !socket.notified
  | _ => false

theorem Moves.pop {own : List Item} {rest : List (List Item)}
    (hstack : socket.stack = own :: rest) :
    Moves socket { socket with stack := own.tail :: rest } := by
  refine .of_stack _ fun items hitems hmem => ?_
  rw [hstack]
  rcases List.mem_cons.1 hitems with rfl | hold
  · exact ⟨own, List.mem_cons_self, List.mem_of_mem_tail hmem⟩
  · exact ⟨items, List.mem_cons_of_mem _ hold, hmem⟩

/-- The end of `finish` is the only thing a call may still do for a connection that ended. -/
theorem resume_cases (world : World) (socket : WebSocket) :
    (socket.unfinished = false ∧ Moves socket (socket.resume world)) ∨
    ∃ items rest, socket.stack = (.disconnect :: items) :: rest ∧
      socket.resume world = { socket with stack := items :: rest }.disconnect := by
  unfold resume unfinished
  cases hstack : socket.stack with
  | nil => exact .inl ⟨rfl, .refl socket⟩
  | cons own rest =>
      cases own with
      | nil =>
          refine .inl ⟨rfl, .of_stack _ fun items hitems hmem => ⟨items, ?_, hmem⟩⟩
          rw [hstack]
          exact List.mem_cons_of_mem _ hitems
      | cons item items =>
          have hpop : Moves socket { socket with stack := items :: rest } := .pop hstack
          cases item with
          | event event => exact .inl ⟨rfl, hpop.trans (handle_moves ..)⟩
          | again =>
              refine .inl ⟨rfl, ?_⟩
              dsimp only
              split
              · exact hpop.trans (receive_moves ..)
              · exact hpop
          | flush => exact .inl ⟨rfl, hpop.trans (flush_moves ..)⟩
          | disconnect => exact .inr ⟨items, rest, rfl, rfl⟩

theorem pop_cycle {items : List Item} {rest : List (List Item)} (h : Cycle socket)
    (hstack : socket.stack = (.disconnect :: items) :: rest) :
    Ended socket ∧ Cycle { socket with stack := items :: rest } := by
  have hended : Ended socket := h.pending _ (hstack ▸ List.mem_cons_self) List.mem_cons_self
  exact ⟨hended, { h with pending := fun _ _ _ => hended }⟩

theorem resume_cycle (h : Cycle socket) (world : World) : Cycle (socket.resume world) ∧
    ∃ new, (socket.resume world).log = new ++ socket.log := by
  rcases resume_cases world socket with ⟨-, hmoves⟩ | ⟨items, rest, hstack, hresume⟩
  · exact ⟨hmoves.cycle h, hmoves.grew⟩
  · obtain ⟨hended, hpop⟩ := pop_cycle h hstack
    rw [hresume]
    exact ⟨disconnect_cycle hpop hended, disconnect_grew _⟩

/-- **What is left of a connection that ended.**  Only the end of its `finish` emits
something. -/
theorem resume_ended (h : Cycle socket) (hended : Ended socket) (world : World) :
    Ended (socket.resume world) ∧ ((socket.resume world).log =
      if socket.unfinished = true then .disconnected :: socket.log else socket.log) := by
  rcases resume_cases world socket with ⟨hdone, hmoves⟩ | ⟨items, rest, hstack, hresume⟩
  · rw [hdone, if_neg Bool.false_ne_true]
    exact hmoves.ended h hended
  · rw [hresume]
    refine ⟨?_, ?_⟩
    · unfold Ended
      rw [disconnect_state]
      exact hended
    · unfold unfinished disconnect
      rw [hstack]
      dsimp only
      by_cases htold : socket.owner = true ∧ ¬ socket.notified = true
      · rw [if_pos htold, if_pos (by simpa using htold)]
        rfl
      · rw [if_neg htold, if_neg (by simpa using htold)]

/-- A callback or a timer of a connection. -/
theorem internal_moves (hinternal : step.input.internal = true) (hresume : step.input ≠ .resume) :
    Moves socket (next socket step) := by
  unfold next
  cases hinput : step.input with
  | resume => exact absurd hinput hresume
  | readable => exact receive_moves ..
  | drained => exact flush_moves ..
  | failed message exhausted => exact retry_moves ..
  | disconnected exhausted =>
      dsimp only
      split
      · exact retry_moves ..
      · exact finish_moves ..
  | dial failure => exact dialNext_moves ..
  | timeout message => exact finish_moves ..
  | _ =>
      rw [hinput] at hinternal
      cases hinternal

/-- A call of the application keeps the life cycle. -/
theorem called_cycle (hcalled : step.input.called = true) (h : Cycle socket) :
    Cycle (next socket step) ∧ ∃ new, (next socket step).log = new ++ socket.log := by
  have hboth : ∀ {f : WebSocket → WebSocket}, Moves socket (f socket) →
      Cycle (socket.onOwner f) ∧ ∃ new, (socket.onOwner f).log = new ++ socket.log := by
    intro f hmoves
    unfold onOwner
    split
    · exact ⟨hmoves.cycle h, hmoves.grew⟩
    · exact ⟨h, [], rfl⟩
  unfold next
  cases hinput : step.input with
  | send failure => exact hboth (send_moves ..)
  | close =>
      dsimp only
      unfold onOwner
      split
      · have hmoves := close_moves step.world socket
        obtain ⟨new, hnew⟩ := hmoves.grew
        exact ⟨hmoves.cycle (h.emit rfl), new ++ [.closeCalled],
          by rw [hnew]; simp [WebSocket.emit]⟩
      · exact ⟨h, [], rfl⟩
  | abort => exact hboth (finish_moves ..)
  | _ =>
      rw [hinput] at hcalled
      cases hcalled

/-! ## The object and its connections -/

/-- What happens to a `WebSocket`: a connection emits a signal or is closed, and `open` has
given the object a new connection. -/
inductive ObjectEvent where
  | told (serial : ℕ) (event : Event)
  | began (serial : ℕ)

/-- A `WebSocket` with all the connections it had. -/
structure Object where
  alive : Bool := true
  /-- Oldest first: the number of a connection is its place. -/
  connections : List WebSocket := [{ state := .closed }]
  /-- The calls of `open` that wait for the end of their `abort`. -/
  opening : ℕ := 0
  log : List ObjectEvent := []

/-- The connection that the object uses. -/
def Object.current (object : Object) : ℕ := object.connections.length - 1

/-- A connection changes, and what it emits is noted. -/
def Object.act (serial : ℕ) (f : WebSocket → WebSocket) (object : Object) : Object :=
  match object.connections[serial]? with
  | none => object
  | some socket =>
      let after := f socket
      let new := after.log.take (after.log.length - socket.log.length)
      { object with
        connections := object.connections.set serial after
        log := new.map (.told serial) ++ object.log }

/-- `~Private`.  Nothing holds the connection any more: whatever called it has returned. -/
def destroy (socket : WebSocket) : WebSocket :=
  if Ended socket then socket
  else { socket with owner := false, state := .closed, session := false, stack := [] }

inductive ObjectInput where
  | connection (serial : ℕ) (step : Step)
  | call (step : Step)
  | open
  | install
  | delete

/-- `open` begins with `abort`, whose slots may do anything; `install` is what follows. -/
def Object.next (object : Object) (input : ObjectInput) : Object :=
  match input with
  | .connection serial step =>
      if step.input.internal then object.act serial (WebSocket.next · step) else object
  | .call step =>
      if object.alive ∧ step.input.called then object.act object.current (WebSocket.next · step)
      else object
  | .open =>
      if object.alive then
        { object.act object.current (finish "") with opening := object.opening + 1 }
      else object
  | .install =>
      if object.opening = 0 then object
      else if object.alive then
        { object with
          opening := object.opening - 1
          connections := object.connections.modify object.current destroy ++ [{}]
          log := .began object.connections.length :: object.log }
      else { object with opening := object.opening - 1 }
  | .delete =>
      { object.act object.current fun socket => { socket with owner := false }.finish "" with
        alive := false }

/-- A socket that was not opened yet, or one that a server accepted. -/
def Object.machine : Machine Object ObjectInput where
  init object := object = {} ∨ object = { connections := [{ session := true }] }
  next := Object.next

/-- What one connection emitted. -/
def signals (serial : ℕ) (log : List ObjectEvent) : List Event :=
  log.filterMap fun
    | .told other event => if other = serial then some event else none
    | .began _ => none

/-- An event of a connection comes before those that follow it begin. -/
def ObjectEvent.Fresh (event : ObjectEvent) (earlier : List ObjectEvent) : Prop :=
  ∀ serial signal, event = .told serial signal → ∀ later, serial < later → .began later ∉ earlier

/-- The contract of the signals: a connection emits each of them at most once and in order,
and nothing once a later one began. -/
structure Followed (log : List ObjectEvent) : Prop where
  ordered : ∀ serial,
    (phases (signals serial log)).reverse.Sublist [.connected, .errorOccurred, .disconnected]
  fresh : Always ObjectEvent.Fresh log

/-- The rest of a `finish` has something to emit for a connection that a slot of its
`errorOccurred` replaced. -/
def Object.Lingers (object : Object) (input : ObjectInput) : Prop :=
  ∃ serial step, input = .connection serial step ∧ step.input = .resume ∧
    serial < object.current ∧ ∃ socket, object.connections[serial]? = some socket ∧
      socket.unfinished = true

/-- The connections of an object, and their part in its history. -/
structure Sound (object : Object) : Prop where
  nonempty : object.connections ≠ []
  cycle : ∀ socket ∈ object.connections, Cycle socket
  replaced : ∀ serial < object.current, ∀ socket, object.connections[serial]? = some socket →
    Ended socket
  told : ∀ serial socket, object.connections[serial]? = some socket →
    signals serial object.log = socket.log
  untold : ∀ serial, object.connections.length ≤ serial → signals serial object.log = []
  began : ∀ serial, .began serial ∈ object.log ↔ 0 < serial ∧ serial < object.connections.length

variable {object : Object} {input : ObjectInput}

theorem signals_told (serial : ℕ) (new : List Event) (log : List ObjectEvent) :
    signals serial (new.map (.told serial) ++ log) = new ++ signals serial log := by
  unfold signals
  rw [List.filterMap_append, List.filterMap_map]
  congr 1
  induction new with
  | nil => rfl
  | cons event rest ih => simp

theorem signals_other {serial other : ℕ} (hne : serial ≠ other) (new : List Event)
    (log : List ObjectEvent) :
    signals other (new.map (.told serial) ++ log) = signals other log := by
  unfold signals
  rw [List.filterMap_append, List.append_left_eq_self, List.filterMap_eq_nil_iff]
  intro event hevent
  obtain ⟨signal, -, rfl⟩ := List.mem_map.1 hevent
  exact if_neg hne

/-- Signals of the newest connection are fresh, and those of another one are not. -/
theorem fresh_told (h : Sound object) {serial : ℕ} (hserial : serial < object.connections.length)
    (new : List Event) : Always ObjectEvent.Fresh (new.map (.told serial) ++ object.log) ↔
      Always ObjectEvent.Fresh object.log ∧ (serial < object.current → new = []) := by
  induction new with
  | nil => simp
  | cons event rest ih =>
      rw [List.map_cons, List.cons_append]
      constructor
      · intro hall
        refine ⟨(ih.1 hall.tail).1, fun hold => ?_⟩
        have hbegan : .began object.current ∈ rest.map (.told serial) ++ object.log :=
          List.mem_append_right _ ((h.began _).2 (by unfold Object.current at *; omega))
        exact absurd hbegan (hall.head serial event rfl _ hold)
      · rintro ⟨hlog, hnew⟩
        have hcurrent : ¬ serial < object.current := fun hold => by cases hnew hold
        refine (ih.2 ⟨hlog, fun hold => absurd hold hcurrent⟩).cons ?_
        rintro other signal heq later hlater hmem
        cases heq
        rcases List.mem_append.1 hmem with hmem | hmem
        · simp at hmem
        · obtain ⟨-, hlt⟩ := (h.began _).1 hmem
          unfold Object.current at hcurrent
          omega

/-- **What one connection does to its object.** -/
theorem act_sound (h : Sound object) {serial : ℕ} {f : WebSocket → WebSocket} {socket : WebSocket}
    (hsocket : object.connections[serial]? = some socket) {new : List Event}
    (hlog : (f socket).log = new ++ socket.log) (hcycle : Cycle (f socket))
    (hended : serial < object.current → Ended (f socket)) :
    Sound (object.act serial f) ∧ (Always ObjectEvent.Fresh (object.act serial f).log ↔
      Always ObjectEvent.Fresh object.log ∧ (serial < object.current → new = [])) := by
  have hserial : serial < object.connections.length := (List.getElem?_eq_some_iff.1 hsocket).1
  have hact : object.act serial f = { object with
      connections := object.connections.set serial (f socket)
      log := new.map (.told serial) ++ object.log } := by
    unfold Object.act
    rw [hsocket]
    simp [hlog]
  rw [hact]
  refine ⟨⟨?_, ?_, ?_, ?_, ?_, ?_⟩, fresh_told h hserial new⟩
  · exact fun hnil => h.nonempty (by simpa using hnil)
  · intro other hother
    rcases List.mem_or_eq_of_mem_set hother with hmem | rfl
    · exact h.cycle other hmem
    · exact hcycle
  · intro place hplace other hother
    unfold Object.current at hplace hended
    rw [List.length_set] at hplace
    rw [List.getElem?_set] at hother
    by_cases heq : serial = place
    · rw [if_pos heq, if_pos hserial] at hother
      cases hother
      exact hended (heq ▸ hplace)
    · rw [if_neg heq] at hother
      exact h.replaced place hplace other hother
  · intro place other hother
    rw [List.getElem?_set] at hother
    by_cases heq : serial = place
    · rw [if_pos heq, if_pos hserial] at hother
      cases hother
      rw [← heq, signals_told, h.told serial socket hsocket, hlog]
    · rw [if_neg heq] at hother
      rw [signals_other heq, h.told place other hother]
  · intro place hplace
    rw [List.length_set] at hplace
    rw [signals_other (by omega), h.untold place hplace]
  · intro place
    rw [List.length_set, ← h.began place, List.mem_append, or_iff_right]
    simp

/-- A connection that is not there does nothing. -/
theorem act_none {serial : ℕ} (f : WebSocket → WebSocket)
    (hnone : object.connections[serial]? = none) : object.act serial f = object := by
  unfold Object.act
  rw [hnone]

theorem Sound.exists_current (h : Sound object) :
    ∃ socket, object.connections[object.current]? = some socket := by
  have hlength := List.length_pos_iff.2 h.nonempty
  exact ⟨_, List.getElem?_eq_getElem (by unfold Object.current; omega)⟩

theorem Object.Lingers.of_connection {serial : ℕ} {step : Step}
    (h : object.Lingers (.connection serial step)) : step.input = .resume ∧
      serial < object.current ∧ ∃ socket, object.connections[serial]? = some socket ∧
        socket.unfinished = true := by
  obtain ⟨_, _, heq, hrest⟩ := h
  cases heq
  exact hrest

/-- A callback or a timer of a connection, or what is left of a call. -/
theorem connection_sound (h : Sound object) {serial : ℕ} {step : Step}
    (hinternal : step.input.internal = true) :
    Sound (object.act serial (WebSocket.next · step)) ∧
      (Always ObjectEvent.Fresh (object.act serial (WebSocket.next · step)).log ↔
        Always ObjectEvent.Fresh object.log ∧
          ¬ object.Lingers (.connection serial step)) := by
  cases hsocket : object.connections[serial]? with
  | none =>
      -- No connection has this number yet.
      rw [act_none _ hsocket]
      refine ⟨h, iff_self_and.2 fun _ hlingers => ?_⟩
      obtain ⟨-, -, socket, hsome, -⟩ := hlingers.of_connection
      rw [hsocket] at hsome
      cases hsome
  | some socket =>
      have hcycle : Cycle socket := h.cycle socket (List.mem_of_getElem? hsocket)
      have hreplaced : serial < object.current → Ended socket :=
        fun hold => h.replaced serial hold socket hsocket
      by_cases hresume : step.input = .resume
      -- A step that resumes is the only one that can signal for a replaced connection.
      · have hnext : WebSocket.next socket step = socket.resume step.world := by
          unfold WebSocket.next
          rw [hresume]
        obtain ⟨hafter, new, hnew⟩ := resume_cycle hcycle step.world
        have hdone : serial < object.current → (new = [] ↔ socket.unfinished = false) := by
          intro hold
          have hlog := (resume_ended hcycle (hreplaced hold) step.world).2
          rw [hnew] at hlog
          cases hunfinished : socket.unfinished with
          | false => simpa [hunfinished] using hlog
          | true =>
              rw [hunfinished, if_pos rfl] at hlog
              have hnonempty : new ≠ [] := by
                rintro rfl
                simp at hlog
              simp [hnonempty]
        obtain ⟨hsound, hfresh⟩ := act_sound (f := (WebSocket.next · step)) h hsocket
          (hnext ▸ hnew) (hnext ▸ hafter)
          fun hold => hnext ▸ (resume_ended hcycle (hreplaced hold) step.world).1
        refine ⟨hsound, hfresh.trans (and_congr_right fun _ => ⟨fun hsilent hlingers => ?_,
          fun hlingers hold => (hdone hold).2 ?_⟩)⟩
        · obtain ⟨-, hold, other, hother, hunfinished⟩ := hlingers.of_connection
          rw [hsocket] at hother
          cases hother
          rw [(hdone hold).1 (hsilent hold)] at hunfinished
          cases hunfinished
        · rw [← Bool.not_eq_true]
          exact fun hunfinished =>
            hlingers ⟨serial, step, rfl, hresume, hold, socket, hsocket, hunfinished⟩
      · have hmoves : Moves socket (WebSocket.next socket step) :=
          internal_moves hinternal hresume
        obtain ⟨new, hnew⟩ := hmoves.grew
        obtain ⟨hsound, hfresh⟩ := act_sound (f := (WebSocket.next · step)) h hsocket hnew
          (hmoves.cycle hcycle) fun hold => (hmoves.ended hcycle (hreplaced hold)).1
        refine ⟨hsound, hfresh.trans (and_congr_right fun _ => iff_of_true (fun hold => ?_)
          fun hlingers => hresume hlingers.of_connection.1)⟩
        simpa using hnew.symm.trans (hmoves.ended hcycle (hreplaced hold)).2

/-- A function of the connection in use. -/
theorem current_sound (h : Sound object) {f : WebSocket → WebSocket}
    (hf : ∀ socket, Cycle socket → Cycle (f socket) ∧ ∃ new, (f socket).log = new ++ socket.log) :
    Sound (object.act object.current f) ∧
      (Always ObjectEvent.Fresh (object.act object.current f).log ↔
        Always ObjectEvent.Fresh object.log) := by
  obtain ⟨socket, hsocket⟩ := h.exists_current
  obtain ⟨hcycle, new, hnew⟩ := hf socket (h.cycle socket (List.mem_of_getElem? hsocket))
  obtain ⟨hsound, hfresh⟩ := act_sound h hsocket hnew hcycle fun hold => absurd hold (lt_irrefl _)
  exact ⟨hsound, hfresh.trans (and_iff_left fun hold => absurd hold (lt_irrefl _))⟩

theorem destroy_ended (socket : WebSocket) : Ended (destroy socket) := by
  unfold destroy
  split
  · next hended => exact hended
  · exact .inl rfl

@[simp] theorem destroy_log (socket : WebSocket) : (destroy socket).log = socket.log := by
  unfold destroy
  split <;> rfl

theorem destroy_cycle (h : Cycle socket) : Cycle (destroy socket) := by
  unfold destroy
  split
  · exact h
  · exact ⟨by simp, h.ordered, h.unnotified, fun hopen => absurd (.inl rfl) hopen,
      fun hconnecting => (by cases hconnecting), by simp⟩

/-- A connection that nothing was done for. -/
theorem cycle_new (session : Bool) : Cycle { session := session } := by
  refine ⟨fun _ hended => ?_, ?_, ?_, ?_, ?_, ?_⟩
  · rcases hended with hstate | hstate <;> cases hstate
  all_goals simp [phases]

theorem install_sound (h : Sound object) (opening : ℕ) :
    Sound { object with
      opening := opening
      connections := object.connections.modify object.current destroy ++ [{}]
      log := .began object.connections.length :: object.log } := by
  have hlength := List.length_pos_iff.2 h.nonempty
  -- The connections that the object had before.
  have hold : ∀ serial < object.connections.length, ∀ socket,
      (object.connections.modify object.current destroy ++ [({} : WebSocket)])[serial]? =
        some socket →
      ∃ old, object.connections[serial]? = some old ∧ Cycle socket ∧ Ended socket ∧
        socket.log = old.log := by
    intro serial hserial socket hsocket
    rw [List.getElem?_append_left (by simpa using hserial), List.getElem?_modify,
      List.getElem?_eq_getElem hserial, Option.map_eq_map, Option.map_some] at hsocket
    refine ⟨_, List.getElem?_eq_getElem hserial, ?_⟩
    have hcycle := h.cycle _ (List.getElem_mem hserial)
    by_cases hcurrent : object.current = serial
    · rw [if_pos hcurrent] at hsocket
      cases hsocket
      exact ⟨destroy_cycle hcycle, destroy_ended _, destroy_log _⟩
    · rw [if_neg hcurrent] at hsocket
      cases hsocket
      refine ⟨hcycle, h.replaced serial ?_ _ (List.getElem?_eq_getElem hserial), rfl⟩
      unfold Object.current at hcurrent ⊢
      omega
  have hcons : ∀ serial, signals serial (.began object.connections.length :: object.log) =
      signals serial object.log := fun _ => rfl
  refine ⟨by simp, ?_, ?_, ?_, ?_, ?_⟩
  · intro socket hsocket
    obtain ⟨serial, hserial⟩ := List.getElem?_of_mem hsocket
    by_cases hlt : serial < object.connections.length
    · obtain ⟨_, -, hcycle, -⟩ := hold serial hlt socket hserial
      exact hcycle
    · rw [List.getElem?_append_right (by simpa using hlt)] at hserial
      obtain rfl : socket = {} := by
        simpa using List.mem_of_getElem? hserial
      exact cycle_new false
  · intro serial hserial socket hsocket
    have hlt : serial < object.connections.length := by
      simpa [Object.current] using hserial
    obtain ⟨_, -, -, hended, -⟩ := hold serial hlt socket hsocket
    exact hended
  · intro serial socket hsocket
    rw [hcons]
    by_cases hlt : serial < object.connections.length
    · obtain ⟨old, hsome, -, -, hlog⟩ := hold serial hlt socket hsocket
      rw [hlog]
      exact h.told serial old hsome
    · rw [List.getElem?_append_right (by simpa using hlt)] at hsocket
      obtain rfl : socket = {} := by
        simpa using List.mem_of_getElem? hsocket
      exact h.untold serial (by omega)
  · intro serial hserial
    rw [hcons]
    refine h.untold serial ?_
    simp at hserial
    omega
  · intro serial
    rw [List.mem_cons, h.began]
    simp
    omega

/-- **What one turn does to the contract of the signals.** -/
theorem object_next (h : Sound object) (input : ObjectInput) : Sound (object.next input) ∧
    (Always ObjectEvent.Fresh (object.next input).log ↔
      Always ObjectEvent.Fresh object.log ∧ ¬ object.Lingers input) := by
  have hother : (∀ serial step, input ≠ .connection serial step) → ¬ object.Lingers input := by
    rintro hne ⟨serial, step, heq, -⟩
    exact hne serial step heq
  -- Every input but a connection's own acts on the current connection.
  have hcurrent : ∀ {after : Object}, (∀ serial step, input ≠ .connection serial step) →
      Sound after ∧ (Always ObjectEvent.Fresh after.log ↔ Always ObjectEvent.Fresh object.log) →
      Sound after ∧ (Always ObjectEvent.Fresh after.log ↔
        Always ObjectEvent.Fresh object.log ∧ ¬ object.Lingers input) :=
    fun hne hafter => ⟨hafter.1, hafter.2.trans (iff_self_and.2 fun _ => hother hne)⟩
  unfold Object.next
  cases input with
  | connection serial step =>
      dsimp only
      by_cases hinternal : step.input.internal = true
      · rw [if_pos hinternal]
        exact connection_sound h hinternal
      · rw [if_neg hinternal]
        refine ⟨h, iff_self_and.2 fun _ hlingers => hinternal ?_⟩
        rw [hlingers.of_connection.1]
        rfl
  | call step =>
      refine hcurrent (by simp) ?_
      dsimp only
      by_cases hcalled : object.alive = true ∧ step.input.called = true
      · rw [if_pos hcalled]
        exact current_sound h fun socket => called_cycle hcalled.2
      · rw [if_neg hcalled]
        exact ⟨h, .rfl⟩
  | «open» =>
      refine hcurrent (by simp) ?_
      dsimp only
      split
      · obtain ⟨hsound, hfresh⟩ := current_sound (f := finish "") h fun socket hcycle =>
          ⟨(finish_moves "" socket).cycle hcycle, (finish_moves "" socket).grew⟩
        exact ⟨{ hsound with }, hfresh⟩
      · exact ⟨h, .rfl⟩
  | install =>
      -- `install` has no effect unless an `open` is on the stack.
      refine hcurrent (by simp) ?_
      dsimp only
      by_cases hopening : object.opening = 0
      · rw [if_pos hopening]
        exact ⟨h, .rfl⟩
      rw [if_neg hopening]
      by_cases halive : object.alive = true
      · rw [if_pos halive]
        refine ⟨install_sound h _, ⟨Always.tail, fun hfresh => hfresh.cons ?_⟩⟩
        rintro _ _ heq
        cases heq
      · rw [if_neg halive]
        exact ⟨{ h with }, .rfl⟩
  | delete =>
      refine hcurrent (by simp) ?_
      dsimp only
      obtain ⟨hsound, hfresh⟩ := current_sound
        (f := fun socket => { socket with owner := false }.finish "") h fun socket hcycle =>
          ⟨(finish_moves "" { socket with owner := false }).cycle { hcycle with },
            (finish_moves "" { socket with owner := false }).grew⟩
      exact ⟨{ hsound with }, hfresh⟩

/-! ## The runs -/

theorem sound_new (socket : WebSocket) (h : Cycle socket) (hlog : socket.log = []) :
    Sound { connections := [socket] } := by
  refine ⟨by simp, by simpa using h, ?_, ?_, by simp [signals], ?_⟩
  · intro serial hserial
    simp [Object.current] at hserial
  · intro serial other hother
    obtain rfl : other = socket := by
      simpa using List.mem_of_getElem? hother
    rw [hlog]
    rfl
  · simp
    omega

/-- The object before it is first opened. -/
theorem cycle_closed : Cycle { state := .closed } :=
  ⟨by simp, by simp [phases], by simp [phases], fun hopen => absurd (.inl rfl) hopen, by simp,
    by simp⟩

theorem run_sound {trace : List (Object × ObjectInput)}
    (run : Object.machine.Run (fun _ _ => True) trace object) : Sound object := by
  refine run.invariant_state (I := Sound) ?_ fun _ input h _ => (object_next h input).1
  rintro _ (rfl | rfl)
  · exact sound_new _ cycle_closed rfl
  · exact sound_new _ (cycle_new true) rfl

/-- Whatever happens, the signals of one connection are in order. -/
theorem Sound.ordered (h : Sound object) (serial : ℕ) :
    (phases (signals serial object.log)).reverse.Sublist
      [.connected, .errorOccurred, .disconnected] := by
  cases hsocket : object.connections[serial]? with
  | none =>
      rw [h.untold serial (List.getElem?_eq_none_iff.1 hsocket)]
      exact List.nil_sublist _
  | some socket =>
      rw [h.told serial socket hsocket]
      exact (h.cycle socket (List.mem_of_getElem? hsocket)).ordered.reverse

theorem run_fresh_iff {trace : List (Object × ObjectInput)}
    (run : Object.machine.Run (fun _ _ => True) trace object) :
    Always ObjectEvent.Fresh object.log ↔ ∀ visit ∈ trace, ¬ visit.1.Lingers visit.2 := by
  induction run with
  | start hinit =>
      rcases hinit with rfl | rfl <;> simp [Always.nil]
  | step run _ ih =>
      rw [List.forall_mem_cons, and_comm, ← ih]
      exact (object_next (run_sound run) _).2

/-- **The signals follow their contract exactly when no `finish` is left unfinished by an
`open`.** -/
theorem run_followed_iff {trace : List (Object × ObjectInput)}
    (run : Object.machine.Run (fun _ _ => True) trace object) :
    Followed object.log ↔ ∀ visit ∈ trace, ¬ visit.1.Lingers visit.2 := by
  rw [← run_fresh_iff run]
  exact ⟨Followed.fresh, fun h => ⟨(run_sound run).ordered, h⟩⟩

/-- A socket is opened, and its address cannot be dialled. -/
def failing : List ObjectInput :=
  [.open, .install, .connection 1 ⟨.dial (some "No reachable WebSocket endpoint"), .sample []⟩]

theorem run_failing (inputs : List ObjectInput) : ∃ trace,
    Object.machine.Run (fun _ _ => True) trace (inputs.foldl Object.next {}) := by
  have hstart : Object.machine.Run (fun _ _ => True) [] {} := .start (.inl rfl)
  exact hstart.extend_all inputs

/-- The slot for the error opens the socket again, and the new connection is told to be
disconnected. -/
theorem not_followed_reopened : ∃ trace object,
    Object.machine.Run (fun _ _ => True) trace object ∧
    object.log = [.told 1 .disconnected, .began 2,
      .told 1 (.errorOccurred "No reachable WebSocket endpoint"), .began 1] ∧
    ¬ Followed object.log := by
  obtain ⟨trace, run⟩ :=
    run_failing (failing ++ [.open, .install, .connection 1 ⟨.resume, .sample []⟩])
  refine ⟨trace, _, run, rfl, fun h => ?_⟩
  exact h.fresh.head 1 .disconnected rfl 2 (by decide) List.mem_cons_self

/-- The slot leaves the socket alone, and it is opened when the old connection is over. -/
theorem run_followed_iff_later : ∃ trace object,
    Object.machine.Run (fun _ _ => True) trace object ∧
    object.log = [.began 2, .told 1 .disconnected,
      .told 1 (.errorOccurred "No reachable WebSocket endpoint"), .began 1] ∧
    (Followed object.log ↔ ∀ visit ∈ trace, ¬ visit.1.Lingers visit.2) := by
  obtain ⟨trace, run⟩ :=
    run_failing (failing ++ [.connection 1 ⟨.resume, .sample []⟩, .open, .install])
  exact ⟨trace, _, run, rfl, run_followed_iff run⟩

end WebSocket

end ServerHost
