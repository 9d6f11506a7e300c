import ServerHost.Lan.Client

/-!
# What one turn of a LAN client can do

`View` is the part of the client that the pairing is about.  `Turn` lists what a
turn of the event loop makes of it, each with the input it takes and with what the
client writes to its history; `next_turn` shows that there is nothing else.
-/

namespace ServerHost

namespace LanClient

/-- What a pairing is about. -/
structure View where
  client : Option Socket
  signer : Bool
  verifier : Bool
  authentication : String
  authenticated : Bool
  joining : LanLink
  phase : Phase
  clientId : String
  clientName : String
  verificationCode : String
  clientNonce : String
  clientPaired : Bool
  helloSent : Bool
  closing : Bool
  sockets : ℕ
  randoms : ℕ

def view (client : LanClient) : View where
  client := client.client
  signer := client.signer
  verifier := client.verifier
  authentication := client.authentication
  authenticated := client.authenticated
  joining := client.joining
  phase := client.phase
  clientId := client.clientId
  clientName := client.clientName
  verificationCode := client.verificationCode
  clientNonce := client.clientNonce
  clientPaired := client.clientPaired
  helloSent := client.helloSent
  closing := client.closing
  sockets := client.sockets
  randoms := client.randoms

/-- What the phase says about the socket. -/
structure Sound (view : View) : Prop where
  numbered : ∀ socket, view.client = some socket → socket < view.sockets
  lost : view.client = none → view.phase = .idle ∨ view.phase = .error
  connecting : view.client ≠ none → view.helloSent = false → view.phase = .connecting
  greeted : view.client ≠ none → view.helloSent = true →
    view.phase = .verifying ∨ view.phase = .confirming ∨ view.phase = .paired
  paired : view.clientPaired = true ↔ view.phase = .paired

/-- Whether account proofs are asked for. -/
def View.configured (view : View) : Prop := view.signer = true ∨ view.verifier = true

/-- No message for the current socket. -/
def Unheard (client : LanClient) (step : Step) : Prop :=
  ∀ socket message, client.client = some socket →
    step.input ≠ .text socket message ∧ step.input ≠ .binary socket message

/-- The events that neither send nor pair. -/
def Event.mute : Event → Bool
  | .sent .. => false
  | .paired .. => false
  | _ => true

/-- The client writes these events, newest first. -/
def Writes (client after : LanClient) (new : List Event) : Prop :=
  events after.log = new ++ events client.log

/-- A message that was handed to a socket: it left, or the socket is closed for it, or
it was closing already. -/
inductive Handed (client : LanClient) (socket : Socket) (message : JsonObject) (step : Step) :
    Bool → List Event → Prop
  | left : client.closing = false → step.world.delivery message = .left →
      Handed client socket message step false [.sent socket message]
  | full : client.closing = false → step.world.delivery message = .full →
      Handed client socket message step true [.closed socket]
  | dropped : client.closing = true → Handed client socket message step true []

/-- The client neither sends nor pairs. -/
def Mutes (client after : LanClient) : Prop :=
  ∃ new, Writes client after new ∧ ∀ event ∈ new, event.mute = true

variable (platform : Platform) (read : String → LanLink.Query)

/-- The message of the host, after a proof when proofs are asked for. -/
structure Hears (client : LanClient) (step : Step) (socket : Socket) (message : JsonObject)
    (type : String) (written : List Event) : Prop where
  current : client.client = some socket
  input : step.input = .text socket message
  type : messageType message = type
  named : (message.value "host").toString = client.joining.hostId
  plain : ¬ client.view.configured → written = [.received socket message]
  proved : client.view.configured → client.verifier = true ∧
    step.world.verify ("host\n" ++ client.authentication) (message.value "proof").toObject = true ∧
    written = [.verified socket client.authentication (message.value "proof").toObject,
      .received socket message]

/-- What a turn of the event loop makes of the client. -/
inductive Turn (client : LanClient) (step : Step) (after : LanClient) : Prop
  | quiet : Unheard client step → after.view = client.view → Mutes client after →
      Turn client step after
  | request {socket : Socket} {message : JsonObject} : Unheard client step →
      client.client = some socket → messageType message = "request" →
      after.view = client.view → Writes client after [.sent socket message] →
      Turn client step after
  | respond {socket : Socket} {message : JsonObject} : client.client = some socket →
      (step.input = .text socket message ∨ step.input = .binary socket message) →
      messageType message = "response" → after.view = client.view → Mutes client after →
      Turn client step after
  | lose : after.client = none → after.clientPaired = false →
      (after.phase = .idle ∨ after.phase = .error) → client.sockets ≤ after.sockets →
      Mutes client after → Turn client step after
  | scan {qr peerId name : String} {link : LanLink} :
      step.input = .join qr peerId name → LanLink.decode platform read qr = some link →
      after.view = { client.view with
        client := some client.sockets, sockets := client.sockets + 1
        joining := link, clientId := peerId, clientName := name, phase := .connecting
        verificationCode := "", clientNonce := "", clientPaired := false
        helloSent := false, closing := false } →
      Mutes client after → Turn client step after
  | reopen : Unheard client step → client.client ≠ none → client.helloSent = false →
      after.view = { client.view with
        client := some client.sockets, sockets := client.sockets + 1, closing := false } →
      Mutes client after → Turn client step after
  | connect {socket : Socket} {proof : JsonObject} {closing : Bool} {handed : List Event} :
      client.client = some socket → step.input = .connected socket client.joining.fingerprint →
      (client.view.configured → client.signer = true ∧ client.verifier = true ∧
        proof = step.world.sign ("client\n" ++ client.joining.authenticationContext platform
          client.clientId (platform.random client.randoms).text)) →
      Handed client socket ((client.greet platform socket).pairMessage proof) step closing handed →
      after.view = { (client.greet platform socket).view with
        joining := { client.joining with code := "" }, closing := closing } →
      Writes client after (handed ++ [.connected socket]) → Turn client step after
  | verify {socket : Socket} {message : JsonObject} {written : List Event} :
      Hears client step socket message "verify" written → client.phase = .verifying →
      after.view = { client.view with
        phase := .confirming
        authenticated := client.signer || client.verifier || client.authenticated } →
      Writes client after written → Turn client step after
  | ready {socket : Socket} {message : JsonObject} {closing : Bool} {written handed : List Event} :
      Hears client step socket message "ready" written →
      client.phase = .verifying ∨ client.phase = .confirming →
      LanPeer.opensFiles (message.value "files").toObject = true →
      Handed client socket confirmMessage step closing handed →
      after.view = { client.view with
        phase := .verifying, closing := closing
        authenticated := client.signer || client.verifier || client.authenticated } →
      Writes client after (handed ++ written) → Turn client step after
  | pair {socket : Socket} {message : JsonObject} :
      client.client = some socket → step.input = .text socket message →
      messageType message = "paired" → (message.value "host").toString = client.joining.hostId →
      client.phase = .verifying → (client.view.configured → client.authenticated = true) →
      after.view = { client.view with phase := .paired, clientPaired := true } →
      Writes client after [.paired socket client.joining.hostId, .received socket message] →
      Turn client step after
  | close {socket : Socket} : Unheard client step → client.client = some socket →
      after.view = { client.view with closing := true } → Mutes client after →
      Turn client step after
  | cancel : Unheard client step → client.clientPaired = true →
      after.view = { client.view with verificationCode := "" } → Writes client after [] →
      Turn client step after

variable {platform : Platform} {read : String → LanLink.Query}
variable {client first second after : LanClient} {step : Step} {world : World}

/-! ## Silent writes -/

theorem Mutes.refl (client : LanClient) : Mutes client client := ⟨[], rfl, by simp⟩

theorem Mutes.trans (h : Mutes client first) (h' : Mutes first after) : Mutes client after := by
  obtain ⟨new, hnew, hmute⟩ := h
  obtain ⟨new', hnew', hmute'⟩ := h'
  refine ⟨new' ++ new, ?_, fun event hevent => ?_⟩
  · rw [Writes, hnew', hnew, List.append_assoc]
  · exact (List.mem_append.1 hevent).elim (hmute' event) (hmute event)

theorem Mutes.of_log (h : after.log = client.log) : Mutes client after :=
  ⟨[], by rw [Writes, h]; rfl, by simp⟩

theorem Mutes.emit {event : Event} (h : event.mute = true) : Mutes client (client.emit event) :=
  ⟨[event], rfl, by simpa using h⟩

/-- Rounds that only complete requests. -/
theorem foldl_completes {α : Type*} {f : LanClient → α → LanClient}
    (h : ∀ client a, (f client a).view = client.view ∧ Mutes client (f client a))
    (list : List α) (client : LanClient) :
    (list.foldl f client).view = client.view ∧ Mutes client (list.foldl f client) :=
  list.foldlRecOn f (motive := fun after => after.view = client.view ∧ Mutes client after)
    ⟨rfl, .refl client⟩ fun state hstate a _ =>
      ⟨(h state a).1.trans hstate.1, hstate.2.trans (h state a).2⟩

theorem complete_spec (code : String) (client : LanClient) :
    (client.complete code).view = client.view ∧ Mutes client (client.complete code) := by
  have hfold := foldl_completes
    (f := fun client id => client.emit (.completed id (errorObject code)))
    (fun client id => ⟨rfl, .emit rfl⟩) client.requests.keys { client with requests := ∅ }
  have hstart : Mutes client { client with requests := ∅ } := .of_log rfl
  exact ⟨hfold.1, hstart.trans hfold.2⟩

theorem sweepRequests_spec (now : ℤ) (keys : List String) (client : LanClient) :
    (keys.foldl (sweepRequest now) client).view = client.view ∧
      Mutes client (keys.foldl (sweepRequest now) client) := by
  refine foldl_completes (fun client id => ?_) keys client
  unfold sweepRequest
  split
  · exact ⟨rfl, .emit rfl⟩
  · exact ⟨rfl, .refl client⟩

/-! ## Losing the host -/

/-- The socket is gone. -/
structure Loses (client after : LanClient) : Prop where
  none : after.client = none
  clientPaired : after.clientPaired = false
  phase : after.phase = .idle ∨ after.phase = .error
  sockets : client.sockets ≤ after.sockets
  mutes : Mutes client after

theorem Loses.turn (h : Loses client after) : Turn platform read client step after :=
  .lose h.none h.clientPaired h.phase h.sockets h.mutes

theorem Loses.head (h : Loses first after) (hmutes : Mutes client first)
    (hsockets : first.sockets = client.sockets) : Loses client after :=
  ⟨h.none, h.clientPaired, h.phase, hsockets ▸ h.sockets, hmutes.trans h.mutes⟩

theorem Loses.congr (h : Loses client first) (hview : after.view = first.view)
    (hmutes : Mutes first after) : Loses client after := by
  refine ⟨?_, ?_, ?_, ?_, h.mutes.trans hmutes⟩
  · exact (congrArg View.client hview).trans h.none
  · exact (congrArg View.clientPaired hview).trans h.clientPaired
  · rw [show after.phase = first.phase from congrArg View.phase hview]
    exact h.phase
  · exact h.sockets.trans_eq (congrArg View.sockets hview).symm

theorem fail_loses (message : String) (client : LanClient) :
    Loses client (client.fail message) := by
  have hlost : Loses client { client with
      error := message
      phase := .error
      joining := { client.joining with code := "" }
      clientPaired := false
      client := none } := ⟨rfl, rfl, .inr rfl, le_rfl, .of_log rfl⟩
  exact hlost.congr (complete_spec ..).1 (complete_spec ..).2

theorem stop_loses (client : LanClient) : Loses client client.stop := by
  have hlost : Loses client { client with
      client := none
      clientPaired := false
      joining := {}
      error := ""
      peerName := ""
      verificationCode := ""
      clientNonce := ""
      phase := .idle
      connectionError := "" } := ⟨rfl, rfl, .inl rfl, le_rfl, .of_log rfl⟩
  exact hlost.congr (complete_spec ..).1 (complete_spec ..).2

theorem stop_view (client : LanClient) : client.stop.view = { client.view with
    client := none, clientPaired := false, joining := {}, verificationCode := ""
    clientNonce := "", phase := .idle } :=
  (complete_spec ..).1

/-- The next address is tried, or there is none. -/
theorem openAddress_spec (client : LanClient) : Loses client client.openAddress ∨
    client.openAddress.view = { client.view with
      client := some client.sockets, sockets := client.sockets + 1
      helloSent := false, closing := false } ∧ Mutes client client.openAddress := by
  unfold openAddress
  cases client.joining.addresses[client.addressIndex]? with
  | none => exact .inl ((fail_loses ..).head (.of_log rfl) rfl)
  | some address =>
      dsimp only
      split
      · have hfail := fail_loses "Invalid desktop certificate fingerprint."
          { client with client := some client.sockets, sockets := client.sockets + 1 }
        exact .inl ⟨hfail.none, hfail.clientPaired, hfail.phase,
          (Nat.le_succ _).trans hfail.sockets, (Mutes.of_log rfl).trans hfail.mutes⟩
      · exact .inr ⟨rfl, Mutes.trans (.of_log rfl) (.emit rfl)⟩

theorem errorOccurred_loses (text : String) (hhello : client.helloSent = true) :
    Loses client (client.errorOccurred text) := by
  rw [errorOccurred, if_neg (by simpa using hhello)]
  exact (fail_loses ..).head (.of_log rfl) rfl

/-! ## Sending -/

theorem Handed.congr {socket : Socket} {message : JsonObject} {closing : Bool}
    {handed : List Event} (h : Handed first socket message step closing handed)
    (hclosing : first.closing = client.closing) :
    Handed client socket message step closing handed := by
  cases h with
  | left hopen hleft => exact .left (hclosing ▸ hopen) hleft
  | full hopen hfull => exact .full (hclosing ▸ hopen) hfull
  | dropped hdropped => exact .dropped (hclosing ▸ hdropped)

/-- A message to the host is handed over, or the socket fails. -/
theorem send_spec {socket : Socket} (message : JsonObject) (hclient : client.client = some socket)
    (hhello : client.helloSent = true) : Loses client (client.send step.world message).1 ∨
      ∃ closing handed, Handed client socket message step closing handed ∧
        (client.send step.world message).1.view = { client.view with closing := closing } ∧
        Writes client (client.send step.world message).1 handed := by
  unfold send
  simp only [hclient]
  split
  · next hclosing =>
      refine .inr ⟨true, [], .dropped hclosing, ?_, rfl⟩
      simp [view, hclosing, hclient]
  next hopen =>
  rw [Bool.not_eq_true] at hopen
  cases hdelivery : step.world.delivery message with
  | left =>
      refine .inr ⟨false, _, .left hopen hdelivery, ?_, rfl⟩
      simp [view, emit, hopen, hclient]
  | full =>
      refine .inr ⟨true, _, .full hopen hdelivery, ?_, rfl⟩
      simp [view, emit, hclient]
  | broke text => exact .inl (errorOccurred_loses text hhello)

theorem connected_turn {socket : Socket} {fingerprint : String}
    (hclient : client.client = some socket) (hinput : step.input = .connected socket fingerprint) :
    Turn platform read client step (client.connected platform step.world socket fingerprint) := by
  unfold connected
  split
  · exact (fail_loses ..).turn
  next hpinned =>
  rw [not_not] at hpinned
  subst hpinned
  -- The nonce and the code are drawn before the proof is made over them.
  have hgreet : Writes client (client.greet platform socket) [.connected socket] := rfl
  have hmutes : Mutes client (client.greet platform socket) := ⟨_, hgreet, by simp [Event.mute]⟩
  dsimp only
  split
  · exact ((fail_loses ..).head hmutes rfl).turn
  next hproof =>
  have hconfigured : client.view.configured → client.signer = true ∧ client.verifier = true ∧
      (client.greet platform socket).proof step.world = step.world.sign ("client\n" ++
        client.joining.authenticationContext platform client.clientId
          (platform.random client.randoms).text) := by
    intro hconfigured
    simp only [not_and, not_or, not_not, greet, emit] at hproof
    obtain ⟨hsigner, hverifier, -⟩ := hproof hconfigured
    exact ⟨hsigner, hverifier, by simp [proof, greet, emit, hsigner]⟩
  rcases @send_spec (client.greet platform socket) step socket
    ((client.greet platform socket).pairMessage ((client.greet platform socket).proof step.world))
    hclient rfl with hlost | ⟨closing, handed, hhanded, hview, hwrites⟩
  · have hlost' := hlost.head hmutes rfl
    exact .lose hlost'.none hlost'.clientPaired hlost'.phase hlost'.sockets hlost'.mutes
  · refine .connect hclient hinput hconfigured (hhanded.congr rfl) ?_ ?_
    · simp only [view, View.mk.injEq] at hview ⊢
      simp only [hview]
      simp [greet, emit]
    · rw [Writes] at hwrites ⊢
      rw [hgreet] at hwrites
      rw [← List.append_assoc] at hwrites
      exact hwrites

/-! ## Messages of the host -/

/-- While a pairing is under way the socket is connected. -/
theorem Sound.open (hsound : Sound client.view) {socket : Socket}
    (hclient : client.client = some socket)
    (hphase : client.phase = .verifying ∨ client.phase = .confirming) :
    client.helloSent = true ∧ client.clientPaired = false := by
  constructor
  · by_contra hnot
    have hconnecting : client.phase = .connecting :=
      hsound.connecting (by simp [view, hclient]) (by simpa [view] using hnot)
    rcases hphase with h | h <;> rw [h] at hconnecting <;> cases hconnecting
  · rw [← Bool.not_eq_true]
    intro hpaired
    have hfinal : client.phase = .paired := hsound.paired.1 hpaired
    rcases hphase with h | h <;> rw [h] at hfinal <;> cases hfinal

/-- What is checked before the type of a message is looked at. -/
inductive Proved (client : LanClient) (step : Step) (socket : Socket) (message : JsonObject) :
    Bool → List Event → Prop
  | plain : (messageType message = "verify" ∨ messageType message = "ready" →
      ¬ client.view.configured) →
      Proved client step socket message client.authenticated [.received socket message]
  | proved : client.view.configured → client.verifier = true →
      step.world.verify ("host\n" ++ client.authentication) (message.value "proof").toObject =
        true →
      messageType message = "verify" ∨ messageType message = "ready" →
      Proved client step socket message true
        [.verified socket client.authentication (message.value "proof").toObject,
          .received socket message]

section
variable {socket : Socket} {message : JsonObject} {authenticated : Bool} {written : List Event}

theorem Proved.mute (h : Proved client step socket message authenticated written) :
    ∀ event ∈ written, event.mute = true := by
  cases h <;> simp [Event.mute]

theorem Proved.of_other (h : Proved client step socket message authenticated written)
    (hverify : messageType message ≠ "verify") (hready : messageType message ≠ "ready") :
    authenticated = client.authenticated ∧ written = [.received socket message] := by
  cases h with
  | plain _ => exact ⟨rfl, rfl⟩
  | proved _ _ _ htype => exact absurd htype (by simp [hverify, hready])

theorem Proved.hears {type : String} (h : Proved client step socket message authenticated written)
    (hclient : client.client = some socket) (hinput : step.input = .text socket message)
    (htype : messageType message = type) (hasked : type = "verify" ∨ type = "ready")
    (hnamed : (message.value "host").toString = client.joining.hostId) :
    Hears client step socket message type written ∧
      authenticated = (client.signer || client.verifier || client.authenticated) := by
  subst htype
  cases h with
  | plain hplain =>
      have hnot := hplain hasked
      refine ⟨⟨hclient, hinput, rfl, hnamed, fun _ => rfl, fun h => absurd h hnot⟩, ?_⟩
      rw [View.configured, not_or] at hnot
      have hsigner : client.signer = false := by simpa [view] using hnot.1
      have hverifier : client.verifier = false := by simpa [view] using hnot.2
      simp [hsigner, hverifier]
  | proved hconfigured hverifier hverified =>
      refine ⟨⟨hclient, hinput, rfl, hnamed, fun h => absurd hconfigured h,
        fun _ => ⟨hverifier, hverified, rfl⟩⟩, ?_⟩
      simp [hverifier]

theorem answerMessage_turn (hsound : Sound client.view) (hclient : client.client = some socket)
    (hinput : step.input = .text socket message ∨
      step.input = .binary socket message ∧ client.clientPaired = true)
    (hproved : Proved client step socket message authenticated written)
    (hview : first.view = { client.view with authenticated := authenticated })
    (hwrites : Writes client first written) :
    Turn platform read client step (first.answerMessage step.world socket message) := by
  have hmutes : Mutes client first := ⟨written, hwrites, hproved.mute⟩
  have hfail : ∀ text, Turn platform read client step (first.fail text) := fun text =>
    ((fail_loses text first).head hmutes (congrArg View.sockets hview)).turn
  have hphase : first.phase = client.phase := congrArg View.phase hview
  have hjoining : first.joining = client.joining := congrArg View.joining hview
  have hpaired : first.clientPaired = client.clientPaired := congrArg View.clientPaired hview
  -- Binary messages come when the client is paired.
  have htext : client.phase = .verifying ∨ client.phase = .confirming →
      step.input = .text socket message := fun hopen =>
    hinput.resolve_right fun hbinary => by simp [(hsound.open hclient hopen).2] at hbinary
  unfold answerMessage
  simp only [hphase, hjoining, hpaired, decide_eq_true_eq]
  split
  · next h =>
      obtain ⟨htype, hverifying, hnamed⟩ := h
      obtain ⟨hhears, rfl⟩ :=
        hproved.hears hclient (htext (.inl hverifying)) htype (.inl rfl) hnamed
      refine .verify hhears hverifying ?_ hwrites
      simp only [view, View.mk.injEq] at hview ⊢
      simp [hview]
  split
  · next h =>
      obtain ⟨htype, hopen, hnamed⟩ := h
      obtain ⟨hhears, rfl⟩ := hproved.hears hclient (htext hopen) htype (.inr rfl) hnamed
      have hhello : client.helloSent = true := (hsound.open hclient hopen).1
      unfold readyMessage
      dsimp only
      split
      · refine Loses.turn (Loses.head (fail_loses ..) (hmutes.trans (.of_log rfl)) ?_)
        exact congrArg View.sockets hview
      next hfiles =>
      rw [not_not] at hfiles
      rcases @send_spec { first with phase := .verifying } step socket confirmMessage
        ((congrArg View.client hview).trans hclient)
        ((congrArg View.helloSent hview).trans hhello) with
        hlost | ⟨closing, handed, hhanded, hview', hwrites'⟩
      · refine Loses.turn (Loses.head hlost (hmutes.trans (.of_log rfl)) ?_)
        exact congrArg View.sockets hview
      · have hclosing : first.closing = client.closing := congrArg View.closing hview
        refine .ready hhears hopen hfiles (hhanded.congr hclosing) ?_ ?_
        · rw [hview']
          simp only [view, View.mk.injEq] at hview ⊢
          simp [hview]
        · have hboth : events ({ first with phase := .verifying }.send step.world
              confirmMessage).1.log = handed ++ events first.log := hwrites'
          rw [Writes, hboth, hwrites, List.append_assoc]
  split
  · next h =>
      obtain ⟨htype, hverifying, hnamed⟩ := h
      obtain ⟨rfl, rfl⟩ := hproved.of_other (by simp [htype]) (by simp [htype])
      unfold pairedMessage
      split
      · exact hfail _
      next hproofs =>
      have hsigner : first.signer = client.signer := congrArg View.signer hview
      have hverifier : first.verifier = client.verifier := congrArg View.verifier hview
      have hauthenticated : first.authenticated = client.authenticated :=
        congrArg View.authenticated hview
      rw [hsigner, hverifier, hauthenticated, not_and, not_not] at hproofs
      refine .pair hclient (htext (.inl hverifying)) htype hnamed hverifying hproofs ?_ ?_
      · simp only [view, View.mk.injEq, emit] at hview ⊢
        simp [hview]
      · have hlog : events first.log = [.received socket message] ++ events client.log := hwrites
        simp [Writes, emit, hlog, hjoining]
  split
  · next h =>
      obtain ⟨rfl, rfl⟩ := hproved.of_other (by simp [h.1]) (by simp [h.1])
      refine .respond hclient (hinput.imp_right And.left) h.1 ?_ ?_
      · rw [← show first.view = client.view from hview]
        unfold responseMessage
        dsimp only
        split <;> rfl
      · unfold responseMessage
        dsimp only
        split
        · exact hmutes
        · exact hmutes.trans (.trans (.of_log rfl) (.emit rfl))
  · exact hfail _

theorem clientMessage_turn (hsound : Sound client.view) (hclient : client.client = some socket)
    (hinput : step.input = .text socket message ∨
      step.input = .binary socket message ∧ client.clientPaired = true) :
    Turn platform read client step (client.clientMessage step.world socket message) := by
  have hreceived : Mutes client (client.emit (.received socket message)) := .emit rfl
  unfold clientMessage
  dsimp only
  split
  · exact ((fail_loses ..).head hreceived rfl).turn
  split
  · next hasked =>
      split
      · exact ((fail_loses ..).head hreceived rfl).turn
      · next hchecks =>
          simp only [not_or, not_not] at hchecks
          exact answerMessage_turn hsound hclient hinput
            (.proved hasked.2 hchecks.1 hchecks.2 hasked.1) rfl rfl
  · next hplain =>
      refine answerMessage_turn hsound hclient hinput (.plain fun htype hconfigured => ?_) rfl rfl
      exact hplain ⟨htype, hconfigured⟩

end

/-! ## The event loop -/

theorem unheard_of_input (h : ∀ socket message, step.input ≠ .text socket message ∧
    step.input ≠ .binary socket message) : Unheard client step := fun socket message _ =>
  h socket message

theorem errorOccurred_spec (text : String) (client : LanClient) :
    Loses client (client.errorOccurred text) ∨ client.helloSent = false ∧
      (client.errorOccurred text).view = { client.view with
        client := some client.sockets, sockets := client.sockets + 1, closing := false } ∧
      Mutes client (client.errorOccurred text) := by
  cases hhello : client.helloSent with
  | true => exact .inl (errorOccurred_loses text hhello)
  | false =>
      rw [errorOccurred, if_pos (by simp [hhello])]
      rcases openAddress_spec { client with connectionError := text } with hlost | ⟨hview, hmutes⟩
      · exact .inl (hlost.head (.of_log rfl) rfl)
      · refine .inr ⟨rfl, ?_, .trans (.of_log rfl) hmutes⟩
        rw [hview]
        simp [view, hhello]

/-- A message that does not leave: nothing is sent. -/
theorem send_false {message : JsonObject} (h : (client.send world message).2 = false) :
    Mutes client (client.send world message).1 ∧
      client.sockets ≤ (client.send world message).1.sockets := by
  unfold send at h ⊢
  cases hclient : client.client with
  | none => exact ⟨.refl client, le_rfl⟩
  | some socket =>
      simp only [hclient] at h ⊢
      split at h
      · next hclosing =>
          rw [if_pos hclosing]
          exact ⟨.refl client, le_rfl⟩
      next hopen =>
      rw [if_neg hopen]
      cases hdelivery : world.delivery message with
      | left => simp [hdelivery] at h
      | full => exact ⟨.trans (.of_log rfl) (.emit rfl), le_rfl⟩
      | broke text =>
          rcases errorOccurred_spec text client with hlost | ⟨-, hview, hmutes⟩
          · exact ⟨hlost.mutes, hlost.sockets⟩
          · exact ⟨hmutes, (Nat.le_succ _).trans_eq (congrArg View.sockets hview).symm⟩

theorem send_true {message : JsonObject} (h : (client.send world message).2 = true) :
    ∃ socket, client.client = some socket ∧
      (client.send world message).1 = client.emit (.sent socket message) := by
  unfold send at h ⊢
  cases hclient : client.client with
  | none => simp [hclient] at h
  | some socket =>
      simp only [hclient] at h ⊢
      split at h
      · simp at h
      next hopen =>
      rw [if_neg hopen]
      cases hdelivery : world.delivery message with
      | left => exact ⟨socket, rfl, rfl⟩
      | full => simp [hdelivery] at h
      | broke text => simp [hdelivery] at h

theorem runTask_turn (task : Task) (hheard : Unheard client step) (rest : List Task) :
    Turn platform read client step
      ({ client with tasks := rest }.runTask step.world task) := by
  cases task with
  | refuse id => exact .quiet hheard rfl (.trans (.of_log rfl) (.emit rfl))
  | send id payload =>
      simp only [runTask]
      split
      · exact .quiet hheard rfl (.of_log rfl)
      split
      · next hsent =>
          obtain ⟨socket, hclient, hafter⟩ := send_true hsent
          rw [hafter]
          exact .request hheard hclient rfl rfl rfl
      · next hsent =>
          obtain ⟨hmutes, hsockets⟩ := send_false (Bool.not_eq_true _ ▸ hsent)
          have hlost := fail_loses "The local connection closed." ({ client with
            tasks := rest }.send step.world (.ofList [("type", .string "request"),
              ("id", .string id), ("payload", payload.json)])).1
          exact .lose hlost.none hlost.clientPaired hlost.phase (hsockets.trans hlost.sockets)
            (.trans (.of_log rfl) (hmutes.trans hlost.mutes))

/-- A join ends without a socket, or with a connection attempt for the link. -/
theorem join_spec (qr peerId name : String) (client : LanClient) :
    Loses client (client.join platform read qr peerId name) ∨
      ∃ link, LanLink.decode platform read qr = some link ∧
        (client.join platform read qr peerId name).view = { client.view with
          client := some client.sockets, sockets := client.sockets + 1
          joining := link, clientId := peerId, clientName := name, phase := .connecting
          verificationCode := "", clientNonce := "", clientPaired := false
          helloSent := false, closing := false } ∧
        Mutes client (client.join platform read qr peerId name) := by
  have hstop := stop_loses client
  -- `join` stops first, so a link that is refused loses the old connection too.
  have hfail : ∀ message, Loses client (client.stop.fail message) := by
    intro message
    have hlost := fail_loses message client.stop
    exact ⟨hlost.none, hlost.clientPaired, hlost.phase, hstop.sockets.trans hlost.sockets,
      hstop.mutes.trans hlost.mutes⟩
  unfold join
  dsimp only
  cases hdecode : LanLink.decode platform read qr with
  | none => exact .inl (hfail _)
  | some link =>
      dsimp only
      split
      · exact .inl (hfail _)
      rcases openAddress_spec { client.stop with
          joining := link
          clientId := peerId
          clientName := name
          phase := .connecting
          deadline := DateTime.addSecs client.stop.now 15
          addressIndex := 0 } with hlost | ⟨hview, hmutes⟩
      · exact .inl ⟨hlost.none, hlost.clientPaired, hlost.phase,
          hstop.sockets.trans hlost.sockets, hstop.mutes.trans (.trans (.of_log rfl) hlost.mutes)⟩
      · have hsockets : client.stop.sockets = client.sockets :=
          congrArg View.sockets (stop_view client)
        refine .inr ⟨link, rfl, ?_, hstop.mutes.trans (.trans (.of_log rfl) hmutes)⟩
        have hstopped := stop_view client
        rw [hview]
        simp only [view, View.mk.injEq] at hstopped ⊢
        simp [hstopped]

theorem join_turn {qr peerId name : String} (hinput : step.input = .join qr peerId name) :
    Turn platform read client step (client.join platform read qr peerId name) := by
  rcases join_spec qr peerId name client with hlost | ⟨link, hdecode, hview, hmutes⟩
  · exact hlost.turn
  · exact .scan hinput hdecode hview hmutes

theorem sweep_turn (hheard : Unheard client step) :
    Turn platform read client step client.sweep := by
  unfold sweep
  dsimp only
  split
  · next hopen =>
      obtain ⟨hclient, hunpaired⟩ := hopen
      split
      · exact ((fail_loses ..).congr (sweepRequests_spec ..).1 (sweepRequests_spec ..).2).turn
      split
      · next hlate =>
          rcases openAddress_spec client with hlost | ⟨hview, hmutes⟩
          · exact (hlost.congr (sweepRequests_spec ..).1 (sweepRequests_spec ..).2).turn
          · have hhello : client.helloSent = false := by simpa using hlate.1
            refine .reopen hheard (Option.isSome_iff_ne_none.1 hclient) hhello ?_
              (hmutes.trans (sweepRequests_spec ..).2)
            rw [(sweepRequests_spec ..).1, hview]
            simp [view, hhello]
      · exact .quiet hheard (sweepRequests_spec ..).1 (sweepRequests_spec ..).2
  · exact .quiet hheard (sweepRequests_spec ..).1 (sweepRequests_spec ..).2

/-- **What a turn of the event loop can make of the client.** -/
theorem next_turn (hsound : Sound client.view) :
    Turn platform read client step (next platform read client step) := by
  unfold next
  cases hinput : step.input with
  | clock time => exact .quiet (unheard_of_input (by simp [hinput])) rfl (.of_log rfl)
  | join qr peerId name => exact join_turn hinput
  | setPairingAuthentication signer verifier =>
      have hstop := stop_loses client
      exact .lose hstop.none hstop.clientPaired hstop.phase hstop.sockets
        (hstop.mutes.trans (.of_log rfl))
  | connected socket fingerprint =>
      -- A socket that is not the current one has no slots any more.
      simp only [onSocket]
      split
      · next hclient => exact connected_turn hclient hinput
      · exact .quiet (unheard_of_input (by simp [hinput])) rfl (.refl client)
  | text socket message =>
      -- A text of another socket is not heard: `Unheard` speaks of the current one.
      simp only [onSocket]
      split
      · next hclient => exact clientMessage_turn hsound hclient (.inl hinput)
      · next hother =>
          refine .quiet (fun current text hcurrent => ?_) rfl (.refl client)
          simp only [hinput, ne_eq, Input.text.injEq, reduceCtorEq, not_false_eq_true, and_true]
          rintro ⟨rfl, -⟩
          exact hother hcurrent
  | binary socket message =>
      simp only [onSocket]
      split
      · next hclient =>
          unfold binaryMessage
          split
          · exact (fail_loses ..).turn
          · next hopen =>
              simp only [not_or, not_not] at hopen
              exact clientMessage_turn hsound hclient (.inr ⟨hinput, hopen.1⟩)
      · next hother =>
          refine .quiet (fun current text hcurrent => ?_) rfl (.refl client)
          simp only [hinput, ne_eq, Input.binary.injEq, reduceCtorEq, not_false_eq_true, true_and]
          rintro ⟨rfl, -⟩
          exact hother hcurrent
  | closed socket =>
      simp only [onSocket]
      split
      · next hclient =>
          exact .close (unheard_of_input (by simp [hinput])) hclient rfl (.of_log rfl)
      · exact .quiet (unheard_of_input (by simp [hinput])) rfl (.refl client)
  | errorOccurred socket text =>
      -- The next address is tried, or the attempt is over.
      simp only [onSocket]
      split
      · next hclient =>
          rcases errorOccurred_spec text client with hlost | ⟨hhello, hview, hmutes⟩
          · exact hlost.turn
          · exact .reopen (unheard_of_input (by simp [hinput])) (by simp [hclient]) hhello
              hview hmutes
      · exact .quiet (unheard_of_input (by simp [hinput])) rfl (.refl client)
  | disconnected socket =>
      simp only [onSocket]
      split
      · exact (fail_loses ..).turn
      · exact .quiet (unheard_of_input (by simp [hinput])) rfl (.refl client)
  | sweep => exact sweep_turn (unheard_of_input (by simp [hinput]))
  | cancelPairing =>
      -- A paired client stays paired; one that is pairing gives its socket up.
      unfold cancelPairing
      cases hpaired : client.clientPaired with
      | true =>
          refine .cancel (unheard_of_input (by simp [hinput])) hpaired ?_ rfl
          have hphase : client.phase = .paired := hsound.paired.1 hpaired
          simp [view, hpaired, hphase]
      | false =>
          simp only [Bool.false_eq_true, if_false]
          exact .lose rfl rfl (.inl rfl) le_rfl (.of_log rfl)
  | stop => exact (stop_loses client).turn
  | request host payload =>
      refine .quiet (unheard_of_input (by simp [hinput])) ?_ (.of_log ?_) <;>
        (simp only [request]; split <;> rfl)
  | task =>
      dsimp only
      split
      · exact .quiet (unheard_of_input (by simp [hinput])) rfl (.refl client)
      · exact runTask_turn _ (unheard_of_input (by simp [hinput])) _
  | rehash requests => exact .quiet (unheard_of_input (by simp [hinput])) rfl (.of_log rfl)

/-- The phase keeps to the socket. -/
theorem Turn.sound (h : Turn platform read client step after) (hfeasible : client.Feasible step)
    (hsound : Sound client.view) : Sound after.view := by
  cases h with
  | quiet _ hview => exact hview ▸ hsound
  | request _ _ _ hview => exact hview ▸ hsound
  | respond _ _ _ hview => exact hview ▸ hsound
  | lose hnone hunpaired hphase =>
      refine ⟨by simp [view, hnone], fun _ => hphase, by simp [view, hnone], by simp [view, hnone],
        ?_⟩
      rcases hphase with hphase | hphase <;> simp [view, hunpaired, hphase]
  | scan _ _ hview =>
      rw [hview]
      exact ⟨by simp, by simp, by simp, by simp, by simp⟩
  | reopen _ hclient hhello hview =>
      -- A socket is replaced before it said anything only.
      have hphase := hsound.connecting hclient hhello
      rw [hview]
      refine ⟨by simp, by simp, fun _ _ => hphase, fun _ h => ?_, hsound.paired⟩
      simp [view, hhello] at h
  | connect hclient hinput _ _ hview =>
      -- A socket connects once, so this is the first of it, and nothing is paired.
      have hhello : client.helloSent = false := by simpa [Feasible, hinput] using hfeasible
      have hphase : client.phase = .connecting :=
        hsound.connecting (by simp [view, hclient]) hhello
      have hunpaired : client.clientPaired = false := by
        rw [← Bool.not_eq_true]
        intro hpaired
        have : client.phase = .paired := hsound.paired.1 hpaired
        rw [hphase] at this
        cases this
      rw [hview]
      exact ⟨hsound.numbered, by simp [view, greet, emit, hclient], by simp [view, greet, emit],
        by simp [view, greet, emit], by simp [view, greet, emit, hunpaired]⟩
  | verify hhears hphase hview =>
      obtain ⟨hhello, hunpaired⟩ := hsound.open hhears.current (.inl hphase)
      rw [hview]
      exact ⟨hsound.numbered, by simp [view, hhears.current], by simp [view, hhello], by simp,
        by simp [view, hunpaired]⟩
  | ready hhears hphase _ _ hview =>
      obtain ⟨hhello, hunpaired⟩ := hsound.open hhears.current hphase
      rw [hview]
      exact ⟨hsound.numbered, by simp [view, hhears.current], by simp [view, hhello], by simp,
        by simp [view, hunpaired]⟩
  | pair hclient _ _ _ hphase _ hview =>
      -- `paired` is taken in phase `verifying` only, when the greeting was sent.
      obtain ⟨hhello, -⟩ := hsound.open hclient (.inl hphase)
      rw [hview]
      exact ⟨hsound.numbered, by simp [view, hclient], by simp [view, hhello], by simp, by simp⟩
  | close _ _ hview =>
      rw [hview]
      exact ⟨hsound.numbered, hsound.lost, hsound.connecting, hsound.greeted, hsound.paired⟩
  | cancel _ _ hview =>
      rw [hview]
      exact ⟨hsound.numbered, hsound.lost, hsound.connecting, hsound.greeted, hsound.paired⟩

theorem run_sound {trace : List (LanClient × Step)}
    (run : (machine platform read).Run Feasible trace client) : Sound client.view := by
  refine run.invariant_state (I := fun client => Sound client.view) ?_
    fun client step hsound hfeasible => (next_turn hsound).sound hfeasible hsound
  rintro _ ⟨time, rfl⟩
  exact ⟨by simp [view], by simp [view], by simp [view], by simp [view], by simp [view]⟩

/-- Sockets get new numbers. -/
theorem Turn.sockets_le (h : Turn platform read client step after) :
    client.sockets ≤ after.sockets := by
  have hsame : ∀ {view : View}, after.view = view → client.sockets ≤ view.sockets →
      client.sockets ≤ after.sockets := by
    rintro _ rfl hle
    exact hle
  cases h with
  | quiet _ hview => exact hsame hview le_rfl
  | request _ _ _ hview => exact hsame hview le_rfl
  | respond _ _ _ hview => exact hsame hview le_rfl
  | lose _ _ _ hsockets => exact hsockets
  | scan _ _ hview => exact hsame hview (Nat.le_succ _)
  | reopen _ _ _ hview => exact hsame hview (Nat.le_succ _)
  | connect _ _ _ _ hview => exact hsame hview le_rfl
  | verify _ _ hview => exact hsame hview le_rfl
  | ready _ _ _ _ hview => exact hsame hview le_rfl
  | pair _ _ _ _ _ _ hview => exact hsame hview le_rfl
  | close _ _ hview => exact hsame hview le_rfl
  | cancel _ _ hview => exact hsame hview le_rfl

end LanClient

end ServerHost
