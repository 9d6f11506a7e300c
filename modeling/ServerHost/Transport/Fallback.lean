import ServerHost.Transport.Dialling

/-!
# The deadline of a connection, and its fallback

The timer of the handshake is set once.  Every retry sets it again for what is left of it,
so the addresses of a host share one deadline.  Seen from its connection, a turn of the
dialling is a list of steps of `WebSocket.machine` (`next_reaches`), and what was proved
about those holds here as well.
-/

namespace ServerHost

namespace WebSocket

namespace Private

variable {socket : WebSocket} {world : World} {p : Private}

/-! ## The deadline -/

/-- The deadline is kept or stopped, or it is set again for what is left of it. -/
def Granted (now : ℕ) (p after : Private) : Prop :=
  after.deadline = p.deadline ∨ after.deadline = none ∨
    after.deadline = some (now + max 1 (p.remaining now))

/-- The deadline is kept or stopped. -/
def Stops (p after : Private) : Prop := after.deadline = p.deadline ∨ after.deadline = none

theorem Stops.granted {after : Private} (now : ℕ) (h : Stops p after) : Granted now p after :=
  h.imp_right .inl

theorem Granted.stops {now : ℕ} {first after : Private} (h : Granted now p first)
    (h' : Stops first after) : Granted now p after := by
  rcases h' with heq | hnone
  · unfold Granted
    rw [heq]
    exact h
  · exact .inr (.inl hnone)

theorem follow_stops (f : WebSocket → WebSocket) (p : Private) : Stops p (p.follow f) := by
  unfold follow
  dsimp only
  split
  · exact .inr rfl
  split
  · exact .inr rfl
  · exact .inl rfl

theorem retry_stops (message : String) (p : Private) : Stops p (p.retry message) := by
  have hlog : ∀ log, Stops p ({ p with log := log }.finish message) := fun _ => follow_stops _ _
  unfold retry
  by_cases hconnecting : p.socket.state = .connecting
  · rw [if_pos hconnecting]
    dsimp only
    split
    · exact hlog _
    · exact .inl rfl
  · rw [if_neg hconnecting, if_pos (.inl hconnecting)]
    exact follow_stops _ _

theorem dialNext_granted (now : ℕ) (world : World) (attempt : Attempt) (p : Private) :
    Granted now p (p.dialNext now world attempt) := by
  -- Everything but `attach` goes through `finish` or `retry`.
  have hfinish : ∀ {after : Private} (message : String), after.deadline = p.deadline →
      Granted now p (after.finish message) :=
    fun message heq => Granted.stops (.inl heq) (follow_stops _ _)
  unfold dialNext
  dsimp only
  cases p.addresses[p.nextAddress]? with
  | none => exact hfinish _ rfl
  | some endpoint =>
      dsimp only
      cases attempt.session with
      | some message => exact hfinish message rfl
      | none =>
          dsimp only
          cases if p.url.scheme = "wss" then attempt.context else none with
          | some message => exact hfinish message rfl
          | none =>
              dsimp only
              cases attempt.connect with
              | some message => exact Granted.stops (.inl rfl) (retry_stops message _)
              | none =>
                  unfold attach
                  dsimp only
                  split
                  · exact Granted.stops (.inr (.inr rfl)) (follow_stops _ _)
                  · exact .inr (.inr rfl)

/-- **What one turn does to the deadline.** -/
theorem next_granted (platform : Platform) (p : Private) (turn : Turn) :
    Granted turn.now p (p.next platform turn) := by
  have hkept : Granted turn.now p p := .inl rfl
  have hfollow : ∀ f, Granted turn.now p (p.follow f) := fun f => (follow_stops f p).granted _
  have hdone : ∀ message, Granted turn.now p ({ p with lookup := .done }.finish message) :=
    fun message => Granted.stops (.inl rfl) (follow_stops _ _)
  have hdial : ∀ endpoints, Granted turn.now p
      ({ p with lookup := .done }.dial turn.now turn.world turn.attempt endpoints) :=
    fun endpoints => dialNext_granted turn.now turn.world turn.attempt _
  unfold next
  cases turn.input with
  | resolve admitted =>
      -- An invalid scheme, an invalid port and a resolver that refuses end the connection.
      dsimp only
      unfold resolve
      split
      · exact hkept
      dsimp only
      split
      · exact hkept
      split
      · exact hdone _
      generalize (if p.url.port = -1 then (if p.url.scheme = "wss" then 443 else 80)
        else p.url.port : ℤ) = port
      split
      · exact hdone _
      cases platform.address p.url.host with
      | some address => exact hdial _
      | none =>
          dsimp only
          split
          · exact hkept
          · exact hdone _
  | deliver endpoints =>
      -- The resolver answers: a failure, no address, or the addresses to dial.
      dsimp only
      unfold deliver
      split
      · exact hkept
      dsimp only
      split
      · exact hkept
      cases endpoints with
      | none => exact hdone _
      | some endpoints =>
          cases endpoints with
          | nil => exact hdone _
          | cons first rest => exact hdial _
  | callback stream callback =>
      dsimp only
      unfold Private.callback
      cases p.streams[stream]? with
      | none => exact hkept
      | some captured =>
          cases captured with
          | none => exact hkept
          | some current =>
              dsimp only
              split
              · exact hkept
              have hretry : ∀ message, Granted turn.now p (p.retry message) :=
                fun message => (retry_stops message p).granted _
              cases callback with
              | connected => exact hfollow _
              | readable => exact hfollow _
              | drained => exact hfollow _
              | failed text => exact hretry text
              | disconnected | readClosed =>
                  dsimp only
                  -- Only the stream of the present generation is listened to.
                  split
                  · exact hretry _
                  · exact hfollow _
  | redial =>
      dsimp only
      unfold redial
      split
      · exact hkept
      dsimp only
      split
      · exact dialNext_granted turn.now turn.world turn.attempt _
      · exact hkept
  | timeout =>
      -- The timer ends the handshake, and finds nothing to end afterwards.
      dsimp only
      unfold timeout
      split
      · exact hfollow _
      split
      · exact hfollow _
      · exact hkept
  | resume => exact hfollow _
  | call input =>
      dsimp only
      split
      · exact hfollow _
      · exact hkept

/-- A deadline that has not passed is kept to the millisecond, and one that has passed is
set again for the next millisecond. -/
theorem Granted.le {now : ℕ} {after : Private} (h : Granted now p after) {old new : ℕ}
    (hold : p.deadline = some old) (hnew : after.deadline = some new) :
    new ≤ max old now + 1 := by
  rcases h with heq | heq | heq
  · obtain rfl : new = old := Option.some_inj.1 (hnew.symm.trans (heq.trans hold))
    omega
  · rw [hnew] at heq
    cases heq
  · unfold remaining remainingTime at heq
    rw [hold] at heq
    obtain rfl := Option.some_inj.1 (hnew.symm.trans heq)
    dsimp only
    omega

/-! ## The connection itself

Seen from its connection, a turn is a list of steps of `WebSocket.machine`. -/

/-- Steps lead from one connection to the other. -/
def Reaches (socket after : WebSocket) : Prop :=
  ∃ steps : List Step, after = steps.foldl WebSocket.next socket

variable {first after : WebSocket}

theorem Reaches.refl (socket : WebSocket) : Reaches socket socket := ⟨[], rfl⟩

theorem Reaches.trans (h : Reaches socket first) (h' : Reaches first after) :
    Reaches socket after := by
  obtain ⟨steps, rfl⟩ := h
  obtain ⟨steps', rfl⟩ := h'
  exact ⟨steps ++ steps', List.foldl_append.symm⟩

theorem Reaches.step (socket : WebSocket) (step : Step) :
    Reaches socket (WebSocket.next socket step) := ⟨[step], rfl⟩

@[simp] theorem follow_socket (f : WebSocket → WebSocket) (p : Private) :
    (p.follow f).socket = f p.socket := by
  unfold follow
  dsimp only
  split
  · rfl
  · split <;> rfl

theorem finish_reaches (world : World) (message : String) (p : Private) :
    Reaches p.socket (p.finish message).socket := by
  refine ⟨[⟨.failed message true, world⟩], ?_⟩
  unfold finish
  rw [follow_socket]
  change _ = WebSocket.retry message true p.socket
  unfold WebSocket.retry
  rw [if_pos (.inr rfl)]

theorem retry_reaches (world : World) (message : String) (p : Private) :
    Reaches p.socket (p.retry message).socket := by
  unfold retry
  by_cases hconnecting : p.socket.state = .connecting
  · rw [if_pos hconnecting]
    dsimp only
    split
    · exact finish_reaches world message { p with log := .failed (p.streams.length - 1) :: p.log }
    · exact .refl _
  · rw [if_neg hconnecting, if_pos (.inl hconnecting)]
    exact finish_reaches world message p

theorem dialNext_reaches (now : ℕ) (world : World) (attempt : Attempt)
    (hconnecting : p.socket.state = .connecting) :
    Reaches p.socket (p.dialNext now world attempt).socket := by
  have hfailed : ∀ message,
      Reaches p.socket (WebSocket.finish message { p.socket with session := false }) := by
    intro message
    refine ⟨[⟨.dial (some message), world⟩], ?_⟩
    change _ = WebSocket.dialNext (some message) p.socket
    unfold WebSocket.dialNext
    rw [if_neg (not_not.2 hconnecting)]
  have hgiven : Reaches p.socket { p.socket with session := true } := by
    refine ⟨[⟨.dial none, world⟩], ?_⟩
    change _ = WebSocket.dialNext none p.socket
    unfold WebSocket.dialNext
    rw [if_neg (not_not.2 hconnecting)]
  unfold dialNext
  dsimp only
  cases p.addresses[p.nextAddress]? with
  | none => exact (follow_socket ..).symm ▸ hfailed _
  | some endpoint =>
      dsimp only
      cases attempt.session with
      | some message => exact (follow_socket ..).symm ▸ hfailed message
      | none =>
          dsimp only
          cases if p.url.scheme = "wss" then attempt.context else none with
          | some message => exact hgiven.trans (finish_reaches world message _)
          | none =>
              dsimp only
              cases attempt.connect with
              | some message => exact hgiven.trans (retry_reaches world message _)
              | none =>
                  unfold attach
                  dsimp only
                  split
                  · rw [follow_socket]
                    exact hgiven.trans (.step _ ⟨.drained, world⟩)
                  · exact hgiven

/-- **A turn is a list of steps of the connection.** -/
theorem next_reaches (platform : Platform) (p : Private) (turn : Turn) :
    Reaches p.socket (p.next platform turn).socket := by
  have hfollow : ∀ step, Reaches p.socket (p.follow (WebSocket.next · step)).socket := fun step =>
    (follow_socket ..).symm ▸ .step p.socket step
  have hfinish : ∀ message, Reaches p.socket (p.finish message).socket :=
    fun message => finish_reaches turn.world message p
  have hdone : ∀ message, Reaches p.socket ({ p with lookup := .done }.finish message).socket :=
    fun message => finish_reaches turn.world message { p with lookup := .done }
  unfold next
  cases turn.input with
  | resolve admitted =>
      -- A connection that was given up, or deleted, is not dialled any more.
      dsimp only
      unfold resolve
      split
      · exact .refl _
      dsimp only
      by_cases hgone : ¬ p.socket.owner ∨ p.socket.state ≠ .connecting
      · rw [if_pos hgone]
        exact .refl _
      rw [if_neg hgone]
      rw [not_or, not_not, not_not] at hgone
      split
      · exact hdone _
      generalize (if p.url.port = -1 then (if p.url.scheme = "wss" then 443 else 80)
        else p.url.port : ℤ) = port
      split
      · exact hdone _
      cases platform.address p.url.host with
      | some address =>
          exact dialNext_reaches (p := { p with
            lookup := .done, addresses := [⟨address, port.toNat⟩], nextAddress := 0 })
            turn.now turn.world turn.attempt hgone.2
      | none =>
          dsimp only
          split
          · exact .refl _
          · exact hdone _
  | deliver endpoints =>
      -- The same when the resolver answers.
      dsimp only
      unfold deliver
      split
      · exact .refl _
      dsimp only
      by_cases hgone : ¬ p.socket.owner ∨ p.socket.state ≠ .connecting
      · rw [if_pos hgone]
        exact .refl _
      rw [if_neg hgone]
      rw [not_or, not_not, not_not] at hgone
      cases endpoints with
      | none => exact hdone _
      | some endpoints =>
          cases endpoints with
          | nil => exact hdone _
          | cons endpoint rest =>
              exact dialNext_reaches (p := { p with
                lookup := .done, addresses := endpoint :: rest, nextAddress := 0 })
                turn.now turn.world turn.attempt hgone.2
  | callback stream callback =>
      dsimp only
      unfold Private.callback
      cases p.streams[stream]? with
      | none => exact .refl _
      | some captured =>
          cases captured with
          | none => exact .refl _
          | some current =>
              dsimp only
              split
              · exact .refl _
              have hretry : ∀ message, Reaches p.socket (p.retry message).socket :=
                fun message => retry_reaches turn.world message p
              cases callback with
              | connected => exact hfollow ⟨.drained, turn.world⟩
              | readable => exact hfollow ⟨.readable, turn.world⟩
              | drained => exact hfollow ⟨.drained, turn.world⟩
              | failed text => exact hretry text
              | disconnected | readClosed =>
                  dsimp only
                  -- A callback of a stream that was replaced changes nothing.
                  split
                  · exact hretry _
                  · exact hfinish _
  | redial =>
      -- A retry that finds the connection given up is dropped.
      dsimp only
      unfold redial
      split
      · exact .refl _
      dsimp only
      by_cases hconnecting : p.socket.owner ∧ p.socket.state = .connecting
      · rw [if_pos hconnecting]
        exact dialNext_reaches (p := { p with deferred := p.deferred - 1 })
          turn.now turn.world turn.attempt hconnecting.2
      · rw [if_neg hconnecting]
        exact .refl _
  | timeout =>
      dsimp only
      unfold timeout
      split
      · exact hfinish _
      split
      · exact hfinish _
      · exact .refl _
  | resume => exact hfollow ⟨.resume, turn.world⟩
  | call input =>
      -- Only the calls an application can make are steps of the connection.
      dsimp only
      split
      · exact hfollow ⟨input, turn.world⟩
      · exact .refl _

/-- What holds of every run of a connection holds of every run of the dialling. -/
theorem run_reaches {platform : Platform} {ok : Private → Turn → Prop}
    {trace : List (Private × Turn)} (run : (machine platform).Run ok trace p) :
    ∃ visits, WebSocket.machine.Run (fun _ _ => True) visits p.socket := by
  induction run with
  | start hinit =>
      obtain ⟨url, now, rfl⟩ := hinit
      exact ⟨[], .start ⟨false, rfl⟩⟩
  | @step trace p turn _ _ ih =>
      obtain ⟨visits, hvisits⟩ := ih
      obtain ⟨steps, hsteps⟩ := next_reaches platform p turn
      change ∃ visits, WebSocket.machine.Run _ visits (p.next platform turn).socket
      rw [hsteps]
      exact hvisits.extend_all steps

/-! ## The runs -/

/-- The stream is not the one in place. -/
def Abandoned (p : Private) (stream : ℕ) : Prop :=
  ¬ (p.attached = true ∧ stream + 1 = p.streams.length)

/-- What the fallback over the addresses of a host promises. -/
structure Fallback (platform : Platform) (p : Private) : Prop where
  ordered : dialled p.log <+: p.addresses
  events : Always InOrder p.log
  concluded : Over p.log ↔ p.socket.state ≠ .connecting
  stale : ∀ stream, p.Abandoned stream → ∀ world callback,
    Private.callback world stream callback p = p
  limited : p.socket.state = .connecting → ∃ expiry, p.deadline = some expiry
  deadline : ∀ turn old new, p.deadline = some old →
    (p.next platform turn).deadline = some new → new ≤ max old turn.now + 1

theorem Tidy.stale (h : Tidy p) {stream : ℕ} (habandoned : p.Abandoned stream) (world : World)
    (callback : Callback) : Private.callback world stream callback p = p := by
  unfold Private.callback
  cases hstream : p.streams[stream]? with
  | none => rfl
  | some captured =>
      cases captured with
      | none => rfl
      | some current =>
          refine if_pos fun heq => habandoned ?_
          exact (h.captured stream current hstream).2 heq.symm

/-- **The addresses are dialled in order and at most once, whatever the streams, the timers
and the application do.** -/
theorem run_fallback {platform : Platform} {trace : List (Private × Turn)}
    (run : (machine platform).Run Orderly trace p) : Fallback platform p where
  ordered := (run_tidy run).ordered ▸ List.take_prefix ..
  events := (run_tidy run).events
  concluded := (run_tidy run).concluded
  stale _ habandoned world callback := (run_tidy run).stale habandoned world callback
  limited := (run_tidy run).limited
  deadline turn _ _ hold hnew := (next_granted platform p turn).le hold hnew

/-- A platform where no host is a numeric address. -/
def named : Platform := { Platform.sample with address := fun _ => none }

/-- Two addresses of one host. -/
def pair : List IpEndpoint :=
  [⟨{ text := "192.0.2.1", ipv4 := true, bytes := [192, 0, 2, 1], loopback := false }, 80⟩,
    ⟨{ text := "192.0.2.2", ipv4 := true, bytes := [192, 0, 2, 2], loopback := false }, 80⟩]

/-- The host is looked up, and its first address fails shortly before the deadline. -/
def failing : List Turn :=
  [⟨0, .sample [], {}, .resolve true⟩, ⟨100, .sample [], {}, .deliver (some pair)⟩,
    ⟨4990, .sample [], {}, .callback 0 (.failed "Connection timed out")⟩]

/-- `open` was called at the time 0. -/
def opened : Private :=
  { url := { valid := true, scheme := "ws", host := "host.example", port := -1, text := "" }
    deadline := some 5000 }

theorem run_failing : ∃ trace,
    (machine named).Run Orderly trace (failing.foldl (Private.next named) opened) := by
  have hstart : (machine named).Run Orderly [] opened := .start ⟨_, 0, rfl⟩
  refine hstart.extend failing ⟨?_, ?_, ?_, trivial⟩
  all_goals
    intro items rest hstack
    cases hstack

/-- The event loop is late: the retry runs after the deadline and before the timer. -/
theorem late_redial : ∃ trace p, (machine named).Run Orderly trace p ∧
    p.deadline = some 5000 ∧
    (p.next named ⟨5010, .sample [], {}, .redial⟩).deadline = some 5011 ∧
    ¬ 5011 ≤ 5000 + 1 := by
  obtain ⟨trace, run⟩ := run_failing
  exact ⟨trace, _, run, rfl, rfl, by decide⟩

/-- The second address is dialled before the deadline, the stream of the first one fails once
more, and the second one is disconnected. -/
def falling : List Turn :=
  failing ++ [⟨4995, .sample [], {}, .redial⟩,
    ⟨4996, .sample [], {}, .callback 0 (.failed "Connection reset")⟩,
    ⟨4997, .sample [], {}, .callback 1 .disconnected⟩]

theorem run_fallback_falling : ∃ trace p, (machine named).Run Orderly trace p ∧
    dialled p.log = pair ∧ p.socket.state = .failed ∧ Fallback named p := by
  have hstart : (machine named).Run Orderly [] opened := .start ⟨_, 0, rfl⟩
  have hadmissible : (machine named).Admissible Orderly opened falling := by
    refine ⟨?_, ?_, ?_, ?_, ?_, ?_, trivial⟩
    all_goals
      intro items rest hstack
      cases hstack
  obtain ⟨trace, run⟩ := hstart.extend falling hadmissible
  exact ⟨trace, _, run, rfl, rfl, run_fallback run⟩

end Private

end WebSocket

end ServerHost
