import ServerHost.Library.RateLimit
import ServerHost.Relay.Ledger
import ServerHost.Relay.Revocation

/-!
# How often a session may offer and claim

The limiter of `pairMessage` counts in windows of thirty seconds that start with an
attempt.  A session gets at most six attempts past it in each of its windows, and at
most eleven in any thirty seconds, because an interval may end inside the next window.

## Strategy

Whether an attempt gets past the limiter is read off what the relay does with it: the
handler hands the session an answer that is not the limiter's.  The handler is run with
a `send` that writes down what it is given, so that an answer counts also when the queue
of the socket is full.

* `passes_spec`: what gets past was counted, and the count is at most six.
* `next_of_not_passes`: what does not get past leaves offers and pairs alone.
* `next_window`: a turn counts one attempt of a session, or leaves its window alone.
-/

namespace ServerHost

namespace RelayServer

/-- The window of the limiter. -/
def Session.window (session : Session) : RateLimit.Window where
  anchor := match session.pairingWindow with
    | none => none
    | some time => some time
  attempts := session.pairingAttempts

/-- The message is one that the limiter counts against this socket. -/
def counts (socket : Socket) (relay : RelayServer) (step : Step) : Bool :=
  match step.input with
  | .text caller message =>
      let type := messageType message
      caller = socket && socket ∈ relay.sessions && relay.active socket &&
        (relay.session socket).id ≠ "" && startsWith type "pair-" && type ≠ "pair-confirm" &&
        type ≠ "pair-cancel" && identifier (message.value "id").toString
  | _ => false

/-! ## Getting past the limiter -/

/-- A `send` that writes down what it is given. -/
def record : Send := fun socket message relay => relay.emit (.sent socket message)

/-- The message of an event, when it goes to this socket. -/
def Event.answer (socket : Socket) : Event → Option Outgoing
  | .sent receiver message => if receiver = socket then some message else none
  | _ => none

/-- What the relay hands to `send` for the socket that it hears a message from. -/
def answers (platform : Platform) (relay : RelayServer) (socket : Socket) (message : JsonObject) :
    List Outgoing :=
  (events ({ relay with log := [] }.message platform record socket message).log).filterMap
    (Event.answer socket)

/-- The answer of the limiter. -/
def Outgoing.rateLimited : Outgoing → Bool
  | .pairing _ _ _ status [(_, .string code)] =>
      status = "error" && code = "pairing_rate_limited"
  | _ => false

/-- The message is a `pair-offer` or a `pair-claim`. -/
def isAttempt (message : JsonObject) : Bool :=
  messageType message = "pair-offer" || messageType message = "pair-claim"

/-- The step is an attempt of this socket, and is answered by something else than the
limiter. -/
def passes (platform : Platform) (socket : Socket) (relay : RelayServer) (step : Step) : Bool :=
  match step.input with
  | .text caller message => caller = socket && isAttempt message &&
      (answers platform relay socket message).any fun answer => !answer.rateLimited
  | _ => false

/-- When the attempts of a socket got past the limiter, newest first. -/
def passed (platform : Platform) (socket : Socket) (trace : List (RelayServer × Step)) : List ℤ :=
  (trace.filter fun visit => passes platform socket visit.1 visit.2).map fun visit => visit.1.now

section
variable {platform : Platform} {relay : RelayServer} {step : Step} {socket : Socket}
  {message : JsonObject}

theorem isAttempt_spec (h : isAttempt message = true) :
    startsWith (messageType message) "pair-" = true ∧
    messageType message ≠ "auth" ∧ messageType message ≠ "register" ∧
    messageType message ≠ "pair-confirm" ∧ messageType message ≠ "pair-cancel" := by
  simp only [isAttempt, Bool.or_eq_true, decide_eq_true_eq] at h
  rcases h with htype | htype <;> rw [htype] <;> decide

/-- An attempt that is not counted comes to nothing. -/
theorem message_of_not_counts {send : Send} (hinput : step.input = .text socket message)
    (hattempt : isAttempt message = true) (hcounts : counts socket relay step = false) :
    relay.message platform send socket message = relay ∨
      relay.message platform send socket message = relay.close socket := by
  obtain ⟨hpair, hauth, hregister, hconfirm, hcancel⟩ := isAttempt_spec hattempt
  unfold RelayServer.message
  dsimp only
  by_cases hknown : socket ∈ relay.sessions
  swap
  · exact .inl (if_pos hknown)
  rw [if_neg (not_not.2 hknown), if_neg hauth]
  by_cases hactive : relay.active socket = true
  swap
  · exact .inr (if_pos hactive)
  rw [if_neg (not_not.2 hactive), if_neg hregister]
  by_cases hid : (relay.session socket).id = ""
  · exact .inr (if_pos hid)
  rw [if_neg hid, if_pos hpair]
  by_cases hrequest : identifier (message.value "id").toString = true
  · -- the limiter counts a message that comes this far
    simp [counts, hinput, hknown, hactive, hid, hpair, hconfirm, hcancel, hrequest] at hcounts
  · unfold pairMessage
    dsimp only
    rw [if_neg hconfirm, if_pos hrequest]
    exact .inr rfl

/-- An attempt that is counted is refused by the limiter or handled. -/
theorem message_of_counts {send : Send} (hinput : step.input = .text socket message)
    (hattempt : isAttempt message = true) (hcounts : counts socket relay step = true) :
    let counted := relay.update socket (countAttempt relay.now)
    let id := (message.value "id").toString
    relay.message platform send socket message =
      if (countAttempt relay.now (relay.session socket)).pairingAttempts > 6 then
        send socket (.pairing none none id "error" [("error", .string "pairing_rate_limited")])
          counted
      else if messageType message = "pair-offer" then
        counted.pairOffer platform send socket id
      else counted.pairClaim platform send socket id message := by
  intro counted id
  obtain ⟨hpair, hauth, hregister, hconfirm, hcancel⟩ := isAttempt_spec hattempt
  simp only [counts, hinput, Bool.and_eq_true, decide_eq_true_eq] at hcounts
  obtain ⟨⟨⟨⟨⟨⟨⟨-, hknown⟩, hactive⟩, hid⟩, -⟩, -⟩, -⟩, hrequest⟩ := hcounts
  -- the limiter looks at the session that counted this attempt
  have hsession : counted.session socket = countAttempt relay.now (relay.session socket) := by
    rw [session_update, if_pos ⟨rfl, hknown⟩]
  unfold RelayServer.message
  dsimp only
  rw [if_neg (not_not.2 hknown), if_neg hauth, if_neg (not_not.2 hactive), if_neg hregister,
    if_neg hid, if_pos hpair]
  unfold pairMessage
  dsimp only
  rw [if_neg hconfirm, if_neg (not_not.2 hrequest), if_neg hcancel, hsession]
  by_cases hoffer : messageType message = "pair-offer"
  · simp only [if_pos hoffer]
    rfl
  · have hclaim : messageType message = "pair-claim" := by
      simpa [isAttempt, hoffer] using hattempt
    simp only [if_neg hoffer, if_pos hclaim]
    rfl

/-- The newest event is an answer to the socket that is not the limiter's. -/
def AnsweredTo (socket : Socket) (relay : RelayServer) : Prop :=
  ∃ answer log, events relay.log = .sent socket answer :: log ∧ answer.rateLimited = false

theorem answeredTo_record {answer : Outgoing} (relay : RelayServer)
    (h : answer.rateLimited = false) : AnsweredTo socket (record socket answer relay) :=
  ⟨answer, events relay.log, rfl, h⟩

/-- An offer is answered, and not by the limiter. -/
theorem pairOffer_answersTo (socket : Socket) (id : String) (relay : RelayServer) :
    AnsweredTo socket (relay.pairOffer platform record socket id) := by
  unfold pairOffer
  dsimp only
  split
  · exact answeredTo_record _ (by simp [Outgoing.rateLimited])
  · exact answeredTo_record _ rfl

/-- So is a claim. -/
theorem pairClaim_answersTo (socket : Socket) (id : String) (message : JsonObject)
    (relay : RelayServer) :
    AnsweredTo socket (relay.pairClaim platform record socket id message) := by
  unfold pairClaim
  dsimp only
  cases relay.offers.lookup (platform.sha256 (toLatin1 (message.value "code").toString)) with
  | none => exact answeredTo_record _ (by simp [Outgoing.rateLimited])
  | some offer =>
      dsimp only
      split
      · exact answeredTo_record _ (by simp [Outgoing.rateLimited])
      · exact answeredTo_record _ rfl

/-- What gets past the limiter was counted, and is one of the first six in its window. -/
theorem passes_spec (h : passes platform socket relay step = true) :
    counts socket relay step = true ∧ socket ∈ relay.sessions ∧
      (countAttempt relay.now (relay.session socket)).pairingAttempts ≤ 6 := by
  unfold passes at h
  split at h
  swap
  · cases h
  next caller message hinput =>
  simp only [Bool.and_eq_true, decide_eq_true_eq] at h
  obtain ⟨⟨rfl, hattempt⟩, hanswer⟩ := h
  have hfresh : counts caller { relay with log := [] } step = counts caller relay step := rfl
  unfold answers at hanswer
  cases hcounts : counts caller relay step with
  | false =>
      -- nothing is handed out
      have hmessage : { relay with log := [] }.message platform record caller message =
            { relay with log := [] } ∨
          { relay with log := [] }.message platform record caller message =
            { relay with log := [] }.close caller :=
        message_of_not_counts hinput hattempt (hfresh.trans hcounts)
      rcases hmessage with hmessage | hmessage
      · rw [hmessage] at hanswer
        cases hanswer
      · rw [hmessage] at hanswer
        cases hanswer
  | true =>
      refine ⟨rfl, ?_, not_lt.1 fun hover => ?_⟩
      · simp only [counts, hinput, Bool.and_eq_true, decide_eq_true_eq] at hcounts
        exact hcounts.1.1.1.1.1.1.2
      · -- only the limiter answers
        rw [(message_of_counts hinput hattempt (hfresh.trans hcounts)).trans (if_pos hover)]
          at hanswer
        simp [record, emit, Event.answer, Outgoing.rateLimited, update, events] at hanswer

/-- **What does not get past the limiter leaves offers and pairs alone.** -/
theorem next_of_not_passes (hinput : step.input = .text socket message)
    (hattempt : isAttempt message = true) (h : passes platform socket relay step = false) :
    (next platform relay step).offers = relay.offers ∧
      (next platform relay step).pairs = relay.pairs := by
  have hnext : next platform relay step =
      relay.message platform (transmit step.full) socket message := by
    rw [next, hinput, turn]
  rw [hnext]
  cases hcounts : counts socket relay step with
  | false =>
      have hmessage : relay.message platform (transmit step.full) socket message = relay ∨
          relay.message platform (transmit step.full) socket message = relay.close socket :=
        message_of_not_counts hinput hattempt hcounts
      rcases hmessage with hmessage | hmessage
      · rw [hmessage]
        exact ⟨rfl, rfl⟩
      · rw [hmessage]
        exact ⟨rfl, rfl⟩
  | true =>
      by_cases hover : (countAttempt relay.now (relay.session socket)).pairingAttempts > 6
      · rw [(message_of_counts hinput hattempt hcounts).trans (if_pos hover), transmit_offers,
          transmit_pairs]
        exact ⟨rfl, rfl⟩
      · -- the handler answers, so the attempt got past the limiter
        have hanswered : AnsweredTo socket
            ({ relay with log := [] }.message platform record socket message) := by
          have hfresh : counts socket { relay with log := [] } step = true := hcounts
          rw [(message_of_counts hinput hattempt hfresh).trans (if_neg hover)]
          split
          · exact pairOffer_answersTo ..
          · exact pairClaim_answersTo ..
        obtain ⟨answer, log, hlog, hother⟩ := hanswered
        have hpasses : passes platform socket relay step = true := by
          simp [passes, hinput, hattempt, answers, hlog, Event.answer, hother]
        exact absurd hpasses (by simp [h])

end

/-! ## Counting -/

theorem window_countAttempt (now : ℤ) (session : Session) :
    (countAttempt now session).window = session.window.count 30000 now := by
  unfold countAttempt
  by_cases hnone : session.pairingWindow = ⊥
  · have hanchor : session.window.anchor = none := by
      rw [Session.window, hnone]
    rw [if_pos (.inl hnone), RateLimit.Window.count, hanchor]
    rfl
  · obtain ⟨anchor, hwindow⟩ := WithBot.ne_bot_iff_exists.1 hnone
    have hanchor : session.window.anchor = some anchor := by
      rw [Session.window, ← hwindow]
    have hpassed : session.pairingWindow.msecsTo now = now - anchor := by
      rw [← hwindow]
      rfl
    rw [RateLimit.Window.count, hanchor, hpassed]
    by_cases hover : anchor + 30000 ≤ now
    · rw [if_pos (.inr (by omega))]
      simp only [if_pos hover]
      rfl
    · rw [if_neg (not_or.2 ⟨hnone, by omega⟩)]
      simp only [if_neg hover, Session.window, ← hwindow]

/-! ## Who touches the window -/

/-- The windows of all sessions are as they were; sessions may be gone. -/
def SameWindows (relay after : RelayServer) : Prop :=
  ∀ socket session, after.sessions.lookup socket = some session →
    ∃ old, relay.sessions.lookup socket = some old ∧ session.window = old.window

namespace SameWindows

variable {relay first second after : RelayServer}

theorem trans (h : SameWindows relay first) (h' : SameWindows first after) :
    SameWindows relay after := by
  intro socket session hsession
  obtain ⟨mid, hmid, hsame⟩ := h' socket session hsession
  obtain ⟨old, hold, hsame'⟩ := h socket mid hmid
  exact ⟨old, hold, hsame.trans hsame'⟩

theorem of_sessions (h : after.sessions = relay.sessions) : SameWindows relay after := by
  intro socket session hsession
  rw [h] at hsession
  exact ⟨session, hsession, rfl⟩

theorem update {f : Session → Session} (h : ∀ session, (f session).window = session.window)
    (socket : Socket) : SameWindows relay (relay.update socket f) := by
  intro other session hsession
  rcases Table.lookup_modify_eq_some.1 hsession with ⟨rfl, old, hold, rfl⟩ | ⟨-, hold⟩
  · exact ⟨old, hold, h old⟩
  · exact ⟨session, hold, rfl⟩

/-- A write to one session, and what leaves the sessions alone. -/
theorem of_update {f : Session → Session} {socket : Socket}
    (h : ∀ session, (f session).window = session.window)
    (hsessions : after.sessions = (relay.update socket f).sessions) : SameWindows relay after :=
  (update h socket).trans (of_sessions hsessions)

end SameWindows

section
variable (platform : Platform) (full : Socket → Outgoing → Bool)

theorem cancelPairing_sessions (socket : Socket) (request : String) (relay : RelayServer) :
    (relay.cancelPairing (transmit full) socket request).sessions = relay.sessions :=
  (cancelPairing_pairingOnly ..).sessions

theorem pairConfirm_sessions (socket : Socket) (message : JsonObject) (relay : RelayServer) :
    (relay.pairConfirm (transmit full) socket message).sessions = relay.sessions := by
  unfold pairConfirm
  dsimp only
  cases relay.pairs.lookup (message.value "pairingId").toString with
  | none => rfl
  | some pair =>
      dsimp only
      split
      · rfl
      split
      · exact (finishPair_pairingOnly ..).sessions
      · exact (finishPair_pairingOnly ..).sessions

theorem pairOffer_sessions (socket : Socket) (id : String) (relay : RelayServer) :
    (relay.pairOffer platform (transmit full) socket id).sessions = relay.sessions := by
  unfold pairOffer
  dsimp only
  split
  · exact transmit_sessions ..
  · rw [transmit_sessions]
    exact cancelPairing_sessions full socket "" relay

theorem pairClaim_sessions (socket : Socket) (id : String) (message : JsonObject)
    (relay : RelayServer) :
    (relay.pairClaim platform (transmit full) socket id message).sessions = relay.sessions := by
  unfold pairClaim
  dsimp only
  cases relay.offers.lookup (platform.sha256 (toLatin1 (message.value "code").toString)) with
  | none => exact transmit_sessions ..
  | some offer =>
      dsimp only
      split
      · exact transmit_sessions ..
      · rw [transmit_sessions, transmit_sessions]
        exact cancelPairing_sessions full socket "" relay

theorem changed_sessions (relay : RelayServer) :
    (relay.changed (transmit full)).sessions = relay.sessions :=
  foldl_sessions (directory_sessions full) _ relay

theorem connectMessage_sessions (socket : Socket) (message : JsonObject) (relay : RelayServer) :
    (relay.connectMessage platform (transmit full) socket message).sessions = relay.sessions := by
  unfold connectMessage
  dsimp only
  cases htarget : relay.target socket (message.value "peerId").toString with
  | none => exact transmit_sessions ..
  | some host =>
      dsimp only
      rw [touch_transmit full htarget]
      simp

theorem requestMessage_sessions (socket : Socket) (message : JsonObject) (relay : RelayServer) :
    (relay.requestMessage platform (transmit full) socket message).sessions = relay.sessions := by
  unfold requestMessage
  dsimp only
  split
  · rfl
  cases relay.target socket (message.value "peerId").toString with
  | none => exact transmit_sessions ..
  | some host =>
      dsimp only
      split <;> simp

theorem responseMessage_sessions (socket : Socket) (message : JsonObject) (relay : RelayServer) :
    (relay.responseMessage (transmit full) socket message).sessions = relay.sessions := by
  unfold responseMessage
  dsimp only
  cases relay.routes.lookup (message.value "id").toString with
  | none => rfl
  | some route =>
      dsimp only
      split
      · rfl
      · split <;> simp

theorem sweep_sessions (relay : RelayServer) :
    (relay.sweep (transmit full)).sessions = relay.sessions := by
  unfold sweep
  dsimp only
  rw [foldl_sessions ?routes, foldl_sessions ?sessions, foldl_sessions ?pairs,
    foldl_sessions ?offers]
  case offers =>
    intro relay hash
    unfold sweepOffer
    cases relay.offers.lookup hash with
    | none => rfl
    | some offer =>
        dsimp only
        split
        · exact (withdrawOffer_pairingOnly ..).sessions
        · rfl
  case pairs =>
    intro relay key
    unfold sweepPair
    cases relay.pairs.lookup key with
    | none => rfl
    | some pair =>
        dsimp only
        split
        · exact (finishPair_pairingOnly ..).sessions
        · rfl
  -- a session that is due is closed here, and leaves with its own signal
  case sessions =>
    intro relay socket
    unfold sweepSession
    dsimp only
    split <;> rfl
  case routes =>
    intro relay key
    unfold sweepRoute
    cases relay.routes.lookup key with
    | none => rfl
    | some route =>
        dsimp only
        split
        · split <;> simp
        · rfl

theorem pairMessage_sessions (socket : Socket) (message : JsonObject) (relay : RelayServer) :
    (relay.pairMessage platform (transmit full) socket message).sessions =
      if messageType message ≠ "pair-confirm" ∧ identifier (message.value "id").toString = true ∧
          messageType message ≠ "pair-cancel" then
        (relay.update socket (countAttempt relay.now)).sessions
      else relay.sessions := by
  unfold pairMessage
  dsimp only
  by_cases hconfirm : messageType message = "pair-confirm"
  · rw [if_pos hconfirm, if_neg fun hall => hall.1 hconfirm]
    exact pairConfirm_sessions ..
  by_cases hid : identifier (message.value "id").toString = true
  swap
  · rw [if_neg hconfirm, if_pos hid, if_neg fun hall => hid hall.2.1]
    rfl
  by_cases hcancel : messageType message = "pair-cancel"
  · rw [if_neg hconfirm, if_neg (not_not.2 hid), if_pos hcancel,
      if_neg fun hall => hall.2.2 hcancel]
    exact cancelPairing_sessions ..
  refine Eq.trans ?_ (if_pos ⟨hconfirm, hid, hcancel⟩).symm
  rw [if_neg hconfirm, if_neg (not_not.2 hid), if_neg hcancel]
  split
  · exact transmit_sessions ..
  split
  · exact pairOffer_sessions ..
  split
  · exact pairClaim_sessions ..
  · rfl

end

theorem authMessage_windows (socket : Socket) (message : JsonObject) (relay : RelayServer) :
    SameWindows relay (relay.authMessage socket message) := by
  unfold authMessage
  dsimp only
  split
  · exact .of_sessions rfl
  · exact SameWindows.of_update (f := fun session => { session with authenticating := true })
      (fun _ => rfl) rfl

theorem registerMessage_windows (platform : Platform) (full : Socket → Outgoing → Bool)
    (socket : Socket) (message : JsonObject) (relay : RelayServer) :
    SameWindows relay (relay.registerMessage platform (transmit full) socket message) := by
  unfold registerMessage
  dsimp only
  split
  · exact .of_sessions rfl
  split
  · exact .of_sessions (transmit_sessions ..)
  split
  · exact .of_sessions rfl
  · refine SameWindows.trans (SameWindows.update (f := fun session => { session with
        id := (message.value "peerId").toString
        service := (message.value "service").toString
        name := (message.value "name").toString
        descriptor := descriptorOf platform (message.value "peerId").toString
          (message.value "service").toString message }) (fun _ => rfl) socket)
      (.of_sessions ?_)
    rw [changed_sessions, transmit_sessions]
    split
    · exact cancelPairing_sessions ..
    · rfl

theorem authCompleted_windows (full : Socket → Outgoing → Bool) (socket : Socket)
    (principal : Principal) (relay : RelayServer) :
    SameWindows relay (relay.authCompleted (transmit full) socket principal) := by
  unfold authCompleted
  cases relay.sessions.lookup socket with
  | none => exact .of_sessions rfl
  | some state =>
      dsimp only
      have hdone : SameWindows relay (relay.update socket fun session =>
          { session with authenticating := false }) :=
        SameWindows.update (f := fun session => { session with authenticating := false })
          (fun _ => rfl) socket
      refine hdone.trans ?_
      generalize relay.update socket (fun session => { session with authenticating := false }) = mid
      split
      · refine SameWindows.trans (.of_sessions (cancelPairing_sessions full socket "" _)) ?_
        exact SameWindows.of_update (f := fun session => { session with principal := {} })
          (fun _ => rfl) (transmit_sessions ..)
      · exact SameWindows.of_update
          (f := fun session => { session with principal := { principal with
          expiresAt := min principal.expiresAt (DateTime.addSecs mid.now 60) } })
          (fun _ => rfl) (transmit_sessions ..)

theorem remove_windows (full : Socket → Outgoing → Bool) (socket : Socket) (relay : RelayServer) :
    SameWindows relay (relay.remove (transmit full) socket) := by
  unfold remove
  dsimp only
  intro other session hsession
  rw [changed_sessions, foldl_sessions (dropRoute_sessions full socket)] at hsession
  rw [cancelPairing_sessions] at hsession
  exact ⟨session, (Table.lookup_erase_eq_some.1 hsession).2, rfl⟩

/-! ## One turn -/

variable {platform : Platform} {relay : RelayServer} {step : Step}

theorem message_window {socket : Socket} {message : JsonObject}
    (hinput : step.input = .text socket message) :
    (counts socket relay step = true →
      (relay.message platform (transmit step.full) socket message).sessions =
        (relay.update socket (countAttempt relay.now)).sessions) ∧
    (counts socket relay step = false →
      SameWindows relay (relay.message platform (transmit step.full) socket message)) := by
  -- What `counts` says of this text, test by test.
  have hcounts : counts socket relay step = (decide (socket ∈ relay.sessions) &&
      relay.active socket && decide ((relay.session socket).id ≠ "") &&
      startsWith (messageType message) "pair-" && decide (messageType message ≠ "pair-confirm") &&
      decide (messageType message ≠ "pair-cancel") &&
      identifier (message.value "id").toString) := by
    simp [counts, hinput]
  have hno : ∀ type, messageType message = type → startsWith type "pair-" = false →
      counts socket relay step = false := by
    rintro type rfl htype
    rw [hcounts, htype]
    simp
  have hsame : ∀ after, counts socket relay step = false → SameWindows relay after →
      (counts socket relay step = true →
        after.sessions = (relay.update socket (countAttempt relay.now)).sessions) ∧
      (counts socket relay step = false → SameWindows relay after) :=
    fun after hfalse h => ⟨fun htrue => absurd htrue (by simp [hfalse]), fun _ => h⟩
  unfold RelayServer.message
  dsimp only
  split
  · next hgone => exact hsame _ (by simp [hcounts, hgone]) (.of_sessions rfl)
  next hknown =>
  split
  -- `auth` has its own window, and comes before the check for a registered session.
  · next hauth => exact hsame _ (hno _ hauth (by decide)) (authMessage_windows socket message relay)
  split
  · next hinactive => exact hsame _ (by simp [hcounts, hinactive]) (.of_sessions rfl)
  next hactive =>
  split
  · next hregister =>
      exact hsame _ (hno _ hregister (by decide))
        (registerMessage_windows platform step.full socket message relay)
  split
  · next hnameless => exact hsame _ (by simp [hcounts, hnameless]) (.of_sessions rfl)
  next hid =>
  split
  · rw [hcounts]
    next hpair =>
    have hsessions := pairMessage_sessions platform step.full socket message relay
    rw [not_not] at hknown hactive
    -- `pair-confirm` and `pair-cancel` are answered above the limiter.
    by_cases hlimited : messageType message ≠ "pair-confirm" ∧
        identifier (message.value "id").toString = true ∧ messageType message ≠ "pair-cancel"
    · rw [if_pos hlimited] at hsessions
      exact ⟨fun _ => hsessions, fun hfalse => absurd hfalse (by
        simp [hknown, hactive, hid, hpair, hlimited])⟩
    · rw [if_neg hlimited] at hsessions
      refine ⟨fun htrue => absurd ?_ hlimited, fun _ => .of_sessions hsessions⟩
      simp only [Bool.and_eq_true, decide_eq_true_eq] at htrue
      exact ⟨htrue.1.1.2, htrue.2, htrue.1.2⟩
  next hpair =>
  have hother : counts socket relay step = false := hno _ rfl (by simpa using hpair)
  refine hsame _ hother (.of_sessions ?_)
  -- Nothing below the pairing branch touches a session.
  split
  · exact directory_sessions ..
  split
  · exact connectMessage_sessions ..
  split
  · exact requestMessage_sessions ..
  split
  · exact responseMessage_sessions ..
  · rfl

theorem counts_of_input {socket : Socket} (h : ∀ message, step.input ≠ .text socket message) :
    counts socket relay step = false := by
  unfold counts
  split
  · next caller message hinput =>
      have hne : caller ≠ socket := by
        rintro rfl
        exact h message hinput
      simp [hne]
  · rfl

theorem SameWindows.window {after : RelayServer} (h : SameWindows relay after) {socket : Socket}
    {session : Session} (hsession : after.sessions.lookup socket = some session)
    (hcounts : counts socket relay step = false) :
    ∃ old, relay.sessions.lookup socket = some old ∧ session.window =
      if counts socket relay step then old.window.count 30000 relay.now else old.window := by
  obtain ⟨old, hold, hsame⟩ := h socket session hsession
  rw [hcounts]
  exact ⟨old, hold, hsame⟩

/-- What a turn makes of the window of a session. -/
theorem next_window (hfeasible : relay.Feasible step) {socket : Socket} {session : Session}
    (hsession : (next platform relay step).sessions.lookup socket = some session) :
    (∃ old, relay.sessions.lookup socket = some old ∧ session.window =
      if counts socket relay step then old.window.count 30000 relay.now else old.window) ∨
    socket = relay.sockets ∧ session.window = {} := by
  -- Only a text of the session itself can count.
  have hquiet : (∀ caller message, step.input ≠ .text caller message) →
      SameWindows relay (next platform relay step) →
      ∃ old, relay.sessions.lookup socket = some old ∧ session.window =
        if counts socket relay step then old.window.count 30000 relay.now else old.window :=
    fun hinput hsame => hsame.window hsession (counts_of_input (hinput socket))
  cases hinput : step.input with
  | text caller message =>
      have hmessage : next platform relay step =
          relay.message platform (transmit step.full) caller message := by
        rw [next, hinput, turn]
      have hcounted : counts caller relay step = true →
          (relay.message platform (transmit step.full) caller message).sessions =
            (relay.update caller (countAttempt relay.now)).sessions := (message_window hinput).1
      have hsame : counts caller relay step = false →
          SameWindows relay (relay.message platform (transmit step.full) caller message) :=
        (message_window hinput).2
      rw [← hmessage] at hcounted hsame
      refine .inl ?_
      by_cases hcaller : socket = caller
      · subst hcaller
        cases hcounts : counts socket relay step with
        | true =>
            rw [hcounted hcounts] at hsession
            rcases Table.lookup_modify_eq_some.1 hsession with ⟨-, old, hold, rfl⟩ | ⟨hne, -⟩
            · exact ⟨old, hold, window_countAttempt relay.now old⟩
            · exact absurd rfl hne
        | false =>
            obtain ⟨old, hold, hsame⟩ := hsame hcounts socket session hsession
            exact ⟨old, hold, hsame⟩
      -- A text of another session does not count for this one.
      · have hother : counts socket relay step = false := by
          simp [counts, hinput, Ne.symm hcaller]
        cases hcounts : counts caller relay step with
        | true =>
            rw [hcounted hcounts] at hsession
            rcases Table.lookup_modify_eq_some.1 hsession with ⟨heq, -⟩ | ⟨-, hold⟩
            · exact absurd heq hcaller
            · exact ⟨session, hold, by rw [hother]; rfl⟩
        | false => exact (hsame hcounts).window hsession hother
  | newConnection =>
      simp only [next, turn, hinput, newConnection] at hsession
      have hcounts : counts socket relay step = false := counts_of_input (by simp [hinput])
      split at hsession
      · exact .inl ⟨session, hsession, by rw [hcounts]; rfl⟩
      · rcases Table.lookup_insert_eq_some.1 hsession with ⟨rfl, rfl⟩ | ⟨-, hold⟩
        -- A session begins with an empty window.
        · exact .inr ⟨rfl, rfl⟩
        · exact .inl ⟨session, hold, by rw [hcounts]; rfl⟩
  | clock time =>
      refine .inl (hquiet (by simp [hinput]) (.of_sessions ?_))
      rw [next, hinput, turn]
  | binary caller =>
      refine .inl (hquiet (by simp [hinput]) (.of_sessions ?_))
      simp only [next, turn, hinput]
      split <;> rfl
  | completion caller principal =>
      refine .inl (hquiet (by simp [hinput]) ?_)
      rw [next, hinput, turn]
      exact authCompleted_windows step.full caller principal relay
  | disconnected caller =>
      refine .inl (hquiet (by simp [hinput]) ?_)
      simp only [next, turn, hinput, disconnected]
      split
      · exact remove_windows step.full caller relay
      · exact .of_sessions rfl
  | sweep =>
      refine .inl (hquiet (by simp [hinput]) (.of_sessions ?_))
      rw [next, hinput, turn]
      exact sweep_sessions ..
  | stop =>
      simp [next, turn, hinput, stop] at hsession
  | rehash sessions routes offers pairs =>
      simp only [Feasible, hinput] at hfeasible
      simp only [next, turn, hinput] at hsession
      have hcounts : counts socket relay step = false := counts_of_input (by simp [hinput])
      rw [← hfeasible.1.lookup] at hsession
      exact .inl ⟨session, hsession, by rw [hcounts]; rfl⟩

theorem Change.grows {pre after : RelayServer} (change : Change platform pre step relay after) :
    relay.sockets ≤ after.sockets ∧
      ((∀ time, step.input ≠ .clock time) → after.now = relay.now) := by
  cases change with
  | clock time hinput => exact ⟨le_rfl, fun h => absurd hinput (h time)⟩
  | welcome => exact ⟨Nat.le_succ _, fun _ => rfl⟩
  | refuse => exact ⟨Nat.le_succ _, fun _ => rfl⟩
  | reject =>
      exact ⟨le_of_eq (by simp), fun _ => by simp⟩
  | send => exact ⟨(transmit_sockets ..).ge, fun _ => transmit_now ..⟩
  | withdraw =>
      exact ⟨(withdrawOffer_pairingOnly ..).sockets.ge, fun _ => (withdrawOffer_pairingOnly ..).now⟩
  | finish =>
      exact ⟨(finishPair_pairingOnly ..).sockets.ge, fun _ => (finishPair_pairingOnly ..).now⟩
  | route => exact ⟨le_of_eq (by simp), fun _ => by simp⟩
  | answer => exact ⟨le_of_eq (by simp), fun _ => by simp⟩
  | _ => exact ⟨le_rfl, fun _ => rfl⟩

theorem next_sockets_le (hfeasible : relay.Feasible step) :
    relay.sockets ≤ (next platform relay step).sockets :=
  (next_changes platform hfeasible).invariant (I := fun after => relay.sockets ≤ after.sockets)
    (fun _ _ change h => h.trans change.grows.1) le_rfl

theorem next_now_le (h : relay.Timely step) : relay.now ≤ (next platform relay step).now := by
  by_cases hclock : ∃ time, step.input = .clock time
  · obtain ⟨time, hinput⟩ := hclock
    have htime := h.2 time hinput
    rw [next, hinput, turn]
    exact htime
  · rw [not_exists] at hclock
    have hnow : (next platform relay step).now = relay.now :=
      (next_changes platform h.1).invariant (I := fun after => after.now = relay.now)
        (fun _ _ change hafter => (change.grows.2 hclock).trans hafter) rfl
    exact hnow.ge

/-- The attempts of every socket against its window. -/
structure Limited (platform : Platform) (relay : RelayServer) (trace : List (RelayServer × Step)) :
    Prop where
  known : ∀ socket, relay.sockets ≤ socket → passed platform socket trace = []
  anchored : ∀ socket session, relay.sessions.lookup socket = some session →
    ∀ anchor, session.window.anchor = some anchor → anchor ≤ relay.now
  bounded : ∀ socket session, relay.sessions.lookup socket = some session →
    RateLimit.Bounded 6 30000 session.window (passed platform socket trace)
  total : ∀ socket start,
    RateLimit.within start (start + 30000) (passed platform socket trace) + 1 ≤ 12

theorem passed_cons (socket : Socket) (trace : List (RelayServer × Step)) :
    passed platform socket ((relay, step) :: trace) =
      if passes platform socket relay step then relay.now :: passed platform socket trace
      else passed platform socket trace := by
  unfold passed
  rw [List.filter_cons]
  split <;> rfl

/-- The window of a session and its attempts, after one more turn. -/
theorem Limited.next_bounded {trace : List (RelayServer × Step)} (h : Limited platform relay trace)
    {socket : Socket} {old session : Session} (hold : relay.sessions.lookup socket = some old)
    (hwindow : session.window =
      if counts socket relay step then old.window.count 30000 relay.now else old.window) :
    RateLimit.Bounded 6 30000 session.window (passed platform socket ((relay, step) :: trace)) := by
  have hbounded := h.bounded socket old hold
  rw [passed_cons]
  cases hpasses : passes platform socket relay step with
  | true =>
      obtain ⟨hcounts, -, hattempts⟩ := passes_spec hpasses
      rw [hcounts, if_pos rfl] at hwindow
      rw [if_pos rfl, hwindow]
      refine hbounded.pass (by decide) (by decide) (h.anchored socket old hold) ?_
      rw [session_of_lookup hold] at hattempts
      rw [← window_countAttempt]
      exact hattempts
  | false =>
      rw [if_neg Bool.false_ne_true, hwindow]
      split
      · exact hbounded.skip (by decide) (by decide)
      · exact hbounded

theorem Limited.next {trace : List (RelayServer × Step)} (h : Limited platform relay trace)
    (hledger : Ledger relay) (htimely : relay.Timely step) :
    Limited platform (next platform relay step) ((relay, step) :: trace) := by
  have hsockets : relay.sockets ≤ (RelayServer.next platform relay step).sockets :=
    next_sockets_le htimely.1
  have hnow : relay.now ≤ (RelayServer.next platform relay step).now := next_now_le htimely
  -- a socket that is not numbered yet made no attempt
  have hsilent : ∀ socket, relay.sockets ≤ socket →
      passed platform socket ((relay, step) :: trace) = [] := by
    intro socket hsocket
    rw [passed_cons, if_neg, h.known socket hsocket]
    intro hpasses
    exact absurd (hledger.numbered socket (passes_spec hpasses).2.1) (not_lt.2 hsocket)
  refine ⟨fun socket hsocket => hsilent socket (hsockets.trans hsocket), ?_, ?_, ?_⟩
  · intro socket session hsession anchor hanchor
    rcases next_window htimely.1 hsession with ⟨old, hold, hwindow⟩ | ⟨-, hwindow⟩
    · rw [hwindow] at hanchor
      split at hanchor
      · rcases old.window.anchor_count hanchor with rfl | hbefore
        · exact hnow
        · exact (h.anchored socket old hold anchor hbefore).trans hnow
      · exact (h.anchored socket old hold anchor hanchor).trans hnow
    · rw [hwindow] at hanchor
      cases hanchor
  · intro socket session hsession
    rcases next_window htimely.1 hsession with ⟨old, hold, hwindow⟩ | ⟨rfl, hwindow⟩
    · exact h.next_bounded hold hwindow
    · rw [hwindow, hsilent _ le_rfl]
      exact .init (by decide)
  · intro socket start
    rw [passed_cons]
    split
    -- an attempt that passes is one more in every window that is still open
    · next hpasses =>
        obtain ⟨old, hold⟩ := Table.mem_iff_lookup.1 (passes_spec hpasses).2.1
        have hcounted : (countAttempt relay.now old).window = if counts socket relay step then
            old.window.count 30000 relay.now else old.window := by
          rw [if_pos (passes_spec hpasses).1]
          exact window_countAttempt relay.now old
        have hbounded := h.next_bounded hold hcounted
        rw [passed_cons, if_pos hpasses] at hbounded
        exact hbounded.total start
    · exact h.total socket start

/-- **A session gets at most eleven attempts past the limiter in any thirty seconds, and
at most six in a window of the limiter**; the others leave offers and pairs alone. -/
theorem run_attempts {trace : List (RelayServer × Step)}
    (run : (machine platform).Run Timely trace relay) (socket : Socket) :
    (∀ start, RateLimit.within start (start + 30000) (passed platform socket trace) ≤ 11) ∧
    (∀ session, relay.sessions.lookup socket = some session →
      ∀ anchor, session.window.anchor = some anchor →
        RateLimit.since anchor (passed platform socket trace) ≤ 6) ∧
    ∀ visit ∈ trace, ∀ message, visit.2.input = .text socket message → isAttempt message = true →
      passes platform socket visit.1 visit.2 = false →
        (next platform visit.1 visit.2).offers = visit.1.offers ∧
          (next platform visit.1 visit.2).pairs = visit.1.pairs := by
  have hlimited : Limited platform relay trace := by
    refine run.invariant (I := fun trace relay => Limited platform relay trace) ?_ ?_
    · rintro _ ⟨time, rfl⟩
      exact ⟨fun _ _ => rfl, by simp, by simp, by simp [passed]⟩
    · intro trace relay step run h htimely
      exact h.next (run_ledger (run.mono fun _ _ => And.left)) htimely
  refine ⟨fun start => Nat.le_of_succ_le_succ (hlimited.total socket start), ?_, ?_⟩
  · intro session hsession anchor hanchor
    exact ((hlimited.bounded socket session hsession).current anchor hanchor).trans
      (min_le_right _ _)
  · intro visit _ message hinput hattempt hpasses
    exact next_of_not_passes hinput hattempt hpasses

/-- A claim with a wrong code. -/
def guess : Input :=
  .text 0 (.ofList [("type", .string "pair-claim"), ("id", .string "i"), ("code", .string "0"),
    ("host", .string "h")])

/-- A session guesses once, five times just before thirty seconds have passed, and seven
times when they have. -/
def bursts : List Step :=
  ([Input.newConnection,
    .text 0 (.ofList [("type", .string "auth"), ("credential", .string "x")]),
    .completion 0 ⟨"a", (90000 : ℤ)⟩,
    .text 0 (.ofList [("type", .string "register"), ("peerId", .string "c"),
      ("service", .string "s")]),
    guess, .clock 29999, guess, guess, guess, guess, guess,
    .clock 30000, guess, guess, guess, guess, guess, guess, guess]).map fun input =>
      ⟨input, fun _ _ => false⟩

theorem bursts_run : (machine .sample).Run Timely ((machine .sample).visits [] { now := 0 } bursts)
    (bursts.foldl (machine .sample).next { now := 0 }) := by
  have hstart : (machine .sample).Run Timely [] { now := 0 } := .start ⟨0, rfl⟩
  refine hstart.visits bursts ⟨⟨trivial, nofun⟩, ⟨trivial, nofun⟩,
    ⟨trivial, nofun⟩, ⟨trivial, nofun⟩, ⟨trivial, nofun⟩, ⟨trivial, ?_⟩, ⟨trivial, nofun⟩,
    ⟨trivial, nofun⟩, ⟨trivial, nofun⟩, ⟨trivial, nofun⟩, ⟨trivial, nofun⟩, ⟨trivial, ?_⟩,
    ⟨trivial, nofun⟩, ⟨trivial, nofun⟩, ⟨trivial, nofun⟩, ⟨trivial, nofun⟩, ⟨trivial, nofun⟩,
    ⟨trivial, nofun⟩, ⟨trivial, nofun⟩, trivial⟩
  · rintro _ ⟨⟩
    decide +kernel
  · rintro _ ⟨⟩
    decide +kernel

/-- Thirteen attempts, of which the last is refused by the limiter. -/
theorem run_attempts_bursts : ∃ relay trace, (machine .sample).Run Timely trace relay ∧
    (passed .sample 0 trace).length = 12 ∧
    (∀ start, RateLimit.within start (start + 30000) (passed .sample 0 trace) ≤ 11) ∧
    (∀ session, relay.sessions.lookup 0 = some session →
      ∀ anchor, session.window.anchor = some anchor →
        RateLimit.since anchor (passed .sample 0 trace) ≤ 6) ∧
    ∀ visit ∈ trace, ∀ message, visit.2.input = .text 0 message → isAttempt message = true →
      passes .sample 0 visit.1 visit.2 = false →
        (next .sample visit.1 visit.2).offers = visit.1.offers ∧
          (next .sample visit.1 visit.2).pairs = visit.1.pairs :=
  ⟨_, _, bursts_run, by decide +kernel, run_attempts bursts_run 0⟩

/-- Eleven attempts get past the limiter in less than thirty seconds. -/
theorem not_six_bursts : ∃ relay trace, (machine .sample).Run Timely trace relay ∧
    ¬ RateLimit.within 1 (1 + 30000) (passed .sample 0 trace) ≤ 6 :=
  ⟨_, _, bursts_run, by decide +kernel⟩

end RelayServer

end ServerHost
