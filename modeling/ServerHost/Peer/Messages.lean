import ServerHost.Peer.Transports

/-!
# What a peer says

Every message that leaves a peer is built in the turn that sends it.  Three kinds carry
something on: a registration the name the peer was started with, a response what the
handler returned for the request that the turn was given, and a greeting the ticket of its
link.  In the same way a response completes a request with the result that it brought.

## Strategy

The handlers are walked through once, since a change of `Change` does not say what a plain
message carries (`next_voiced`).  A run then has a turn behind each entry of its history
(`run_voiced`).
-/

namespace ServerHost

namespace Peer

/-- The message that registers a peer. -/
def registration (platform : Platform) (world : World) (peer : Peer) : JsonObject :=
  .ofList [("type", .string "register"), ("peerId", .string peer.options.peerId),
    ("name", .string peer.options.name), ("service", .string peer.options.service),
    ("host", .bool peer.options.hostFiles), ("metadata", peer.options.metadata.json),
    ("localUrls", .array ((peer.localUrls platform world).map .string)),
    ("fingerprint", .string peer.options.fingerprint)]

variable (platform : Platform) (pre : Peer) (step : Step)

/-- The turn is given a request: under a name, of a peer, with a payload. -/
inductive Given : Channel → String → String → JsonObject → Prop
  | relay {message : JsonObject} : Told pre step "request" message →
      Given .relay (message.value "id").toString (message.value "peerId").toString
        (message.value "payload").toObject
  | link {socket : Socket} {link : Link} {message : JsonObject} :
      Heard pre step socket link message → link.authenticated = true → link.outgoing = false →
      messageType message = "request" → Given (.link socket) (message.value "id").toString
        link.peer (message.value "payload").toObject

/-- What the turn that meets `step` in the state `pre` may say. -/
inductive Uttered : Channel → JsonObject → Prop
  | register {message : JsonObject} : step.input = .relayText message →
      messageType message = "authenticated" →
      Uttered .relay (registration platform step.world pre)
  | respond {channel : Channel} {id : Json} {peerId : String} {payload : JsonObject} :
      Given pre step channel id.toString peerId payload → Uttered channel
        (responseMessage id (pre.handle step.world channel id.toString peerId payload).2)
  | hello {socket : Socket} {link : Link} : pre.links.lookup socket = some link →
      Uttered (.link socket) (helloMessage link.ticket)
  | other {channel : Channel} {message : JsonObject} : messageType message ≠ "register" →
      messageType message ≠ "response" → message.contains "ticket" = false →
      Uttered channel message

/-- The response that completes a request in this turn. -/
inductive Concluded : Channel → String → JsonObject → Prop
  | relay {message : JsonObject} : Told pre step "response" message →
      Concluded .relay (message.value "id").toString (message.value "result").toObject
  | link {socket : Socket} {link : Link} {message : JsonObject} :
      Heard pre step socket link message → link.authenticated = true → link.outgoing = true →
      messageType message = "response" →
      Concluded (.link socket) (message.value "id").toString (message.value "result").toObject

/-- What the turn may enter into the history. -/
def Voiced (entry : Entry) : Prop :=
  match entry.event with
  | .sent channel message => Uttered platform pre step channel message
  | .completed id result _ (some channel) => Concluded pre step channel id result
  | .handled channel id peerId payload => Given pre step channel id peerId payload
  | _ => True

/-- The history grows by what the turn may say. -/
abbrev Says (peer after : Peer) : Prop := Grows (Voiced platform pre step) peer.log after.log

variable {platform : Platform} {pre : Peer} {step : Step} {peer : Peer}

theorem Says.trans {first second third : Peer} (h : Says platform pre step first second)
    (h' : Says platform pre step second third) : Says platform pre step first third :=
  Grows.trans h h'

theorem speaks_foldl {α : Type*} {f : Peer → α → Peer}
    (h : ∀ peer a, Says platform pre step peer (f peer a)) (list : List α) (peer : Peer) :
    Says platform pre step peer (list.foldl f peer) :=
  list.foldlRecOn f (motive := fun after => Says platform pre step peer after) (.of_eq rfl)
    fun after hafter a _ => hafter.trans (h after a)

theorem speaks_ofList {channel : Channel} {text : String} {fields : List (String × Json)}
    (hregister : text ≠ "register") (hresponse : text ≠ "response")
    (hfields : "ticket" ∉ fields.map Prod.fst) :
    Uttered platform pre step channel (.ofList (("type", .string text) :: fields)) := by
  refine .other hregister hresponse ?_
  by_cases htext : text = "request"
  · exact (@plain_ofList "" fields (by simp) hfields).2
  · exact (plain_ofList htext hfields).2

theorem index_speaks (id : String) (peer : Peer) :
    Says platform pre step peer (peer.index id) := by
  unfold index
  split
  · exact .of_eq rfl
  · exact .cons trivial

theorem scheduleReconnect_speaks (peer : Peer) :
    Says platform pre step peer peer.scheduleReconnect := by
  unfold scheduleReconnect
  split <;> exact .of_eq rfl

theorem relayError_speaks (error : String) (peer : Peer) :
    Says platform pre step peer (peer.relayError error) := by
  unfold relayError
  split
  · exact .of_eq rfl
  · exact scheduleReconnect_speaks _

theorem shut_speaks (channel : Channel) (peer : Peer) :
    Says platform pre step peer (peer.shut channel) := by
  cases channel <;> exact .cons trivial

theorem handle_speaks {channel : Channel} {id peerId : String} {payload : JsonObject}
    (h : Given pre step channel id peerId payload) :
    Says platform pre step pre (pre.handle step.world channel id peerId payload).1 := by
  unfold handle
  split
  · exact .of_eq rfl
  · exact .cons h

section
variable {world : World} {finish : Finish}

/-- What a slot of the application says when a request is completed without a response. -/
def Chatters (platform : Platform) (pre : Peer) (step : Step) (finish : Finish) : Prop :=
  ∀ id result peer, Says platform pre step peer (finish none id result peer)

/-- The same for a request that a response completes. -/
def Concludes (platform : Platform) (pre : Peer) (step : Step) (finish : Finish) : Prop :=
  ∀ channel id result peer, Concluded pre step channel id result →
    Says platform pre step peer (finish (some channel) id result peer)

variable (hfinish : Chatters platform pre step finish)
include hfinish

theorem finishAll_speaks (result : JsonObject) (peer : Peer) :
    Says platform pre step peer (peer.finishAll world finish result) :=
  speaks_foldl (fun peer id => hfinish id result peer) _ peer

theorem relayLost_speaks (peer : Peer) :
    Says platform pre step peer ((peer.emit .relayLost).relayLost world finish) := by
  have hdown : Says platform pre step peer (peer.emit .relayLost).relayDown.resetLocal :=
    .cons trivial
  exact (hdown.trans (finishAll_speaks hfinish _ _)).trans (scheduleReconnect_speaks _)

theorem relayFinished_speaks (error : String) (peer : Peer) :
    Says platform pre step peer (peer.relayFinished world finish error) := by
  unfold relayFinished
  split
  · exact .of_eq rfl
  · have hclosed : Says platform pre step peer { peer with relay := .closed } := .of_eq rfl
    refine hclosed.trans ?_
    dsimp only
    split
    · exact relayLost_speaks hfinish _
    · exact (relayError_speaks error _).trans (relayLost_speaks hfinish _)

theorem lost_speaks (socket : Socket) (peer : Peer) :
    Says platform pre step peer (peer.lost world finish socket) := by
  unfold lost
  cases peer.links.lookup socket with
  | none => exact .of_eq rfl
  | some link =>
      have hround : ∀ (peer : Peer) id,
          Says platform pre step peer (lostRound finish socket peer id) := by
        intro peer id
        refine (index_speaks id peer).trans ?_
        dsimp only [lostRound]
        split
        · exact hfinish ..
        · exact .of_eq rfl
      have hunlink : Says platform pre step peer (peer.unlink socket link) := .cons trivial
      refine hunlink.trans ?_
      dsimp only
      generalize peer.unlink socket link = peer
      refine (speaks_foldl hround
        (world.requestOrder peer.log.length peer.requests.keys) peer).trans ?_
      split <;> exact .of_eq rfl

theorem linkFinished_speaks (socket : Socket) (peer : Peer) :
    Says platform pre step peer (peer.linkFinished world finish socket) := by
  have hfinished : Says platform pre step peer
      { peer with opened := peer.opened.filter (· ≠ socket) } := .of_eq rfl
  refine hfinished.trans ?_
  unfold linkFinished
  dsimp only
  split
  · exact lost_speaks hfinish ..
  · exact .of_eq rfl

theorem dropped_speaks (channel : Channel) (peer : Peer) :
    Says platform pre step peer (peer.dropped world finish channel) := by
  cases channel with
  | relay => exact relayFinished_speaks hfinish ..
  | link socket => exact linkFinished_speaks hfinish ..

theorem send_speaks {channel : Channel} {message : JsonObject}
    (h : Uttered platform pre step channel message) (peer : Peer) :
    Says platform pre step peer (peer.send world finish channel message).1 := by
  unfold send
  split
  · exact .of_eq rfl
  · split
    · exact .cons h
    · exact shut_speaks ..
    · exact dropped_speaks hfinish ..

theorem closeLink_speaks (socket : Socket) (peer : Peer) :
    Says platform pre step peer (peer.closeLink world finish socket) := by
  unfold closeLink
  split
  · exact linkFinished_speaks hfinish ..
  · exact shut_speaks ..

/-! ## Requests -/

theorem flushRound_speaks (channel : Channel) (peerId : String) (peer : Peer) (id : String) :
    Says platform pre step peer (flushRound world finish channel peerId peer id) := by
  refine (index_speaks id peer).trans ?_
  unfold flushRound
  dsimp only
  generalize peer.index id = peer
  split
  · exact .of_eq rfl
  · have hhand : Says platform pre step peer
        (peer.hand id channel (Table.value peer.requests id)) := .cons trivial
    have hrequest : Uttered platform pre step channel (requestOver channel id peerId
        (Table.value peer.requests id).payload) := by
      cases channel <;> exact speaks_ofList (by simp) (by simp) (by simp)
    split
    · exact (hhand.trans (send_speaks hfinish hrequest _)).trans (hfinish ..)
    · exact hhand.trans (send_speaks hfinish hrequest _)

theorem flush_speaks (channel : Channel) (peerId : String) (peer : Peer) :
    Says platform pre step peer (peer.flush world finish channel peerId) := by
  have hflushing : Says platform pre step peer (peer.flushing channel peerId) := .cons trivial
  exact hflushing.trans (speaks_foldl (flushRound_speaks hfinish channel peerId) _ _)

theorem flushLocal_speaks (socket : Socket) (peer : Peer) :
    Says platform pre step peer (peer.flushLocal world finish socket) := by
  unfold flushLocal
  cases peer.links.lookup socket with
  | none => exact .of_eq rfl
  | some link =>
      dsimp only
      split
      · exact .of_eq rfl
      · exact flush_speaks hfinish ..

theorem startRequest_speaks (id : String) (peer : Peer) :
    Says platform pre step peer (peer.startRequest world finish id) := by
  unfold startRequest
  cases peer.requests.lookup id with
  | none => exact .of_eq rfl
  | some request =>
      dsimp only
      split
      · exact hfinish ..
      split
      · exact hfinish ..
      cases peer.openLink request.peer with
      | some socket => exact flushLocal_speaks hfinish ..
      | none =>
          dsimp only
          split
          · exact flush_speaks hfinish ..
          split
          · exact .of_eq rfl
          · have hawait : Says platform pre step peer
                { peer with connecting := request.peer :: peer.connecting } := .of_eq rfl
            refine hawait.trans (send_speaks hfinish ?_ _)
            exact speaks_ofList (by simp) (by simp) (by simp)

/-! ## Links -/

theorem nextLocal_speaks (peerId : String) (peer : Peer) :
    Says platform pre step peer (peer.nextLocal platform world finish peerId) := by
  unfold nextLocal
  split
  · exact .of_eq rfl
  dsimp only
  split
  · exact flush_speaks hfinish ..
  split
  · exact flush_speaks hfinish ..
  · have hdial : Says platform pre step peer
        (peer.dial peerId (Table.value peer.attempts peerId)) := .cons trivial
    refine hdial.trans ?_
    split
    · exact lost_speaks hfinish ..
    · exact .of_eq rfl

theorem linkConnected_speaks (socket : Socket) (fingerprint : String) :
    Says platform pre step pre (pre.linkConnected world finish socket fingerprint) := by
  unfold linkConnected
  cases pre.dialling.lookup socket with
  | none => exact .of_eq rfl
  | some url =>
      dsimp only
      split
      · exact .of_eq rfl
      · have hopened : Says platform pre step pre { pre with
            dialling := pre.dialling.erase socket
            opened := socket :: pre.opened } := .of_eq rfl
        refine hopened.trans ?_
        cases hlink : pre.links.lookup socket with
        | none => exact .of_eq rfl
        | some link =>
            dsimp only
            split
            · exact linkFinished_speaks hfinish ..
            · exact send_speaks hfinish (.hello hlink) _

theorem greet_speaks (socket : Socket) (link : Link) (message : JsonObject) :
    Says platform pre step pre (pre.greet world finish socket link message) := by
  unfold greet
  dsimp only
  split
  · have hwelcome : Says platform pre step pre (pre.welcome socket) := .of_eq rfl
    exact hwelcome.trans (flushLocal_speaks hfinish ..)
  cases pre.tickets.lookup (message.value "ticket").toString with
  | none => exact closeLink_speaks hfinish ..
  | some ticket =>
      dsimp only
      split
      · have hpresent : Says platform pre step pre
            (pre.present socket (message.value "ticket").toString ticket) := .cons trivial
        exact hpresent.trans (send_speaks hfinish (speaks_ofList (by simp) (by simp) (by simp)) _)
      · exact closeLink_speaks hfinish ..

theorem exchange_speaks (hconcludes : Concludes platform pre step finish) {socket : Socket}
    {link : Link} {message : JsonObject} (hheard : Heard pre step socket link message)
    (hauthenticated : link.authenticated = true) :
    Says platform pre step pre (pre.exchange step.world finish socket link message) := by
  unfold exchange
  dsimp only
  split
  · exact closeLink_speaks hfinish ..
  split
  · next hrequest =>
      obtain ⟨htype, hincoming, -, -⟩ := hrequest
      have hgiven : Given pre step (.link socket) (message.value "id").toString link.peer
          (message.value "payload").toObject :=
        .link hheard hauthenticated (by simpa using hincoming) htype
      exact (handle_speaks hgiven).trans (send_speaks hfinish (.respond hgiven) _)
  split
  · next hresponse =>
      exact hconcludes _ _ _ _ (.link hheard hauthenticated hresponse.2.1 hresponse.1)
  · exact closeLink_speaks hfinish ..

theorem linkText_speaks (hconcludes : Concludes platform pre step finish) {socket : Socket}
    {message : JsonObject} (hinput : step.input = .linkText socket message) :
    Says platform pre step pre (pre.linkText step.world finish socket message) := by
  unfold linkText
  split
  · exact .of_eq rfl
  next hattached =>
  rw [not_not] at hattached
  cases hlink : pre.links.lookup socket with
  | none => exact .of_eq rfl
  | some link =>
      dsimp only
      split
      · exact greet_speaks hfinish ..
      · next hauthenticated =>
          exact exchange_speaks hfinish hconcludes ⟨hinput, hattached, hlink⟩
            (by simpa using hauthenticated)

/-! ## Messages of the relay -/

theorem authenticate_speaks (peer : Peer) :
    Says platform pre step peer (peer.authenticate world finish) :=
  send_speaks hfinish (speaks_ofList (by simp) (by simp) (by simp)) _

theorem peersMessage_speaks (message : JsonObject) (peer : Peer) :
    Says platform pre step peer (peer.peersMessage world finish message) := by
  have hround : ∀ active (peer : Peer) socket,
      Says platform pre step peer (peersRound world finish active peer socket) := by
    intro active peer socket
    unfold peersRound
    dsimp only
    have hindexed : Says platform pre step peer (if socket ∈ peer.links then peer
        else { peer with links := peer.links.insert socket {} }) := by
      split <;> exact .of_eq rfl
    refine hindexed.trans ?_
    generalize (if socket ∈ peer.links then peer
        else { peer with links := peer.links.insert socket {} }) = peer
    split
    · exact lost_speaks hfinish ..
    · exact .of_eq rfl
  exact speaks_foldl (hround _) _ _

theorem register_speaks {message : JsonObject} (hinput : step.input = .relayText message)
    (htype : messageType message = "authenticated") :
    Says platform pre step pre (pre.register platform step.world finish message) := by
  have hnamed : Says platform pre step pre
      { pre with account := (message.value "accountId").toString } := .of_eq rfl
  exact hnamed.trans (send_speaks hfinish (.register hinput htype) _)

theorem message_speaks (hconcludes : Concludes platform pre step finish) {message : JsonObject}
    (hinput : step.input = .relayText message) :
    Says platform pre step pre (pre.message platform step.world finish message) := by
  unfold Peer.message
  dsimp only
  split
  · next htype => exact register_speaks hfinish hinput htype
  split
  · exact .of_eq rfl
  split
  · exact .of_eq rfl
  split
  · exact .of_eq rfl
  -- every further message needs a registered peer
  next hready =>
  rw [not_not] at hready
  split
  · exact .cons trivial
  split
  · exact peersMessage_speaks hfinish ..
  split
  · unfold ticketMessage
    dsimp only
    split
    · exact .of_eq rfl
    · exact .cons trivial
  split
  · unfold connectMessage
    dsimp only
    split
    · exact .of_eq rfl
    · have hprepared : Says platform pre step pre { pre with
          attempts := pre.attempts.insert (message.value "peerId").toString
            (pre.offered platform step.world message) } := .of_eq rfl
      exact hprepared.trans (nextLocal_speaks hfinish ..)
  split
  · next htype =>
      have hgiven : Given pre step .relay (message.value "id").toString
          (message.value "peerId").toString (message.value "payload").toObject :=
        .relay ⟨hinput, htype, hready⟩
      exact (handle_speaks hgiven).trans (send_speaks hfinish (.respond hgiven) _)
  split
  · next hresponse =>
      exact hconcludes _ _ _ _ (.relay ⟨hinput, hresponse.1, hready⟩)
  · exact .of_eq rfl

/-! ## Timers and public functions -/

theorem sweep_speaks (peer : Peer) : Says platform pre step peer (peer.sweep world finish) := by
  have hrequest : ∀ now (peer : Peer) id,
      Says platform pre step peer (sweepRequest finish now peer id) := by
    intro now peer id
    refine (index_speaks id peer).trans ?_
    dsimp only [sweepRequest]
    split
    · exact hfinish ..
    · exact .of_eq rfl
  have hticket : ∀ now (peer : Peer) text,
      Says platform pre step peer (sweepTicket now peer text) := by
    intro now peer text
    unfold sweepTicket
    split <;> exact .of_eq rfl
  have hlink : ∀ now (peer : Peer) socket,
      Says platform pre step peer (sweepLink world finish now peer socket) := by
    intro now peer socket
    dsimp only [sweepLink]
    split
    · exact lost_speaks hfinish ..
    · exact .of_eq rfl
  exact ((speaks_foldl (hrequest _) _ _).trans (speaks_foldl (hticket _) _ _)).trans
    (speaks_foldl (hlink _) _ _)

theorem openRelay_speaks (peer : Peer) :
    Says platform pre step peer (peer.openRelay world finish) := by
  unfold openRelay
  split
  · exact .of_eq rfl
  · exact relayFinished_speaks hfinish "" peer

theorem relayConnected_speaks (peer : Peer) :
    Says platform pre step peer (peer.relayConnected world finish) := by
  unfold relayConnected
  split
  · exact .of_eq rfl
  · have hconnected : Says platform pre step peer { peer with relay := .connected } := .of_eq rfl
    exact hconnected.trans (authenticate_speaks hfinish _)

theorem stop_speaks (peer : Peer) : Says platform pre step peer (peer.stop world finish) := by
  have hhalted : Says platform pre step peer { { peer with
      running := false
      retry := false
      authTimer := false
      timer := false
      server := none }.resetLocal with ready := false } := .of_eq rfl
  exact (hhalted.trans (relayFinished_speaks hfinish "" _)).trans (finishAll_speaks hfinish _ _)

theorem act_speaks (action : Action) (peer : Peer) :
    Says platform pre step peer (peer.act platform world finish action) := by
  cases action with
  | stop => exact stop_speaks hfinish peer
  | request peerId payload =>
      unfold act request
      dsimp only
      split <;> exact .cons trivial

theorem start_speaks (options : Options) (handler : Bool) (listener : Except String ℕ)
    (peer : Peer) : Says platform pre step peer
      (peer.start platform world finish options handler listener) := by
  have hstop : Says platform pre step peer { peer.stop world finish with error := "" } :=
    stop_speaks hfinish peer
  -- with or without a listener of its own the peer opens the relay
  have hopen : ∀ (peer : Peer) (server : Option ℕ), Says platform pre step peer ({ peer with
      options := options
      handler := handler
      fatal := false
      backoff := 1000
      server := server
      running := true
      timer := true }.openRelay world finish) := by
    intro peer server
    have hset : Says platform pre step peer { peer with
        options := options
        handler := handler
        fatal := false
        backoff := 1000
        server := server
        running := true
        timer := true } := .of_eq rfl
    exact hset.trans (openRelay_speaks hfinish _)
  unfold start
  refine hstop.trans ?_
  generalize { peer.stop world finish with error := "" } = peer
  dsimp only
  split
  · exact .of_eq rfl
  split
  · cases listener with
    | error error => exact .of_eq rfl
    | ok port => exact hopen peer (some port)
  · exact hopen peer peer.server

theorem askPairing_speaks {text : String} (hregister : text ≠ "register")
    (hresponse : text ≠ "response") {fields : List (String × Json)}
    (hfields : "ticket" ∉ fields.map Prod.fst) (peer : Peer) :
    Says platform pre step peer
      (peer.askPairing platform world finish (("type", .string text) :: fields)) := by
  have hnumbered : Says platform pre step peer { peer with uuids := peer.uuids + 1 } := .of_eq rfl
  refine hnumbered.trans ?_
  unfold askPairing
  dsimp only
  split
  · refine send_speaks hfinish ?_ _
    rw [List.cons_append]
    exact speaks_ofList hregister hresponse (by simpa using hfields)
  · exact .of_eq rfl

end

/-! ## The event loop -/

theorem take_speaks (id : String) (result : JsonObject) (peer : Peer) :
    Says platform pre step peer (peer.take none id result) := by
  unfold take
  split
  · exact .of_eq rfl
  · exact .cons trivial

/-- Slots nest, and each of them says only what the turn may say. -/
theorem finish_chatters (world : World) (depth : ℕ) :
    Chatters platform pre step (Peer.finish platform world depth) := by
  induction depth with
  | zero => exact take_speaks
  | succ depth ih =>
      intro id result peer
      simp only [Peer.finish]
      split
      · exact (take_speaks id result peer).trans
          (speaks_foldl (fun peer action => act_speaks ih action peer) _ _)
      · exact .of_eq rfl

theorem finish_concludes (world : World) (depth : ℕ) :
    Concludes platform pre step (Peer.finish platform world depth) := by
  intro channel id result peer hconcluded
  have htake : Says platform pre step peer (peer.take (some channel) id result) := by
    unfold take
    split
    · exact .of_eq rfl
    · exact .cons hconcluded
  cases depth with
  | zero => exact htake
  | succ depth =>
      simp only [Peer.finish]
      split
      · exact htake.trans
          (speaks_foldl (fun peer action => act_speaks (finish_chatters world depth) action peer) _
            _)
      · exact .of_eq rfl

/-- **Everything that a turn says is built from what it was given.** -/
theorem next_voiced (platform : Platform) (peer : Peer) (step : Step) :
    Says platform peer step peer (next platform peer step) := by
  have hfinish : Chatters platform peer step
      (Peer.finish platform step.world step.world.depth) := finish_chatters _ _
  have hconcludes : Concludes platform peer step
      (Peer.finish platform step.world step.world.depth) := finish_concludes _ _
  unfold next
  dsimp only
  generalize Peer.finish platform step.world step.world.depth = finish at *
  cases hinput : step.input with
  | clock time => exact .of_eq rfl
  | start => exact start_speaks hfinish ..
  | stop => exact stop_speaks hfinish peer
  | request peerId payload =>
      -- `request` only queues; what it says is the completion when it refuses.
      have hact : Says platform peer step peer (peer.act platform step.world finish
          (.request peerId payload)) := act_speaks hfinish _ peer
      exact hact
  | refreshPeers =>
      dsimp only [refreshPeers]
      split
      · exact send_speaks hfinish (speaks_ofList (by simp) (by simp) (by simp)) _
      · exact .of_eq rfl
  | createPairingOffer => exact askPairing_speaks hfinish (by simp) (by simp) (by simp) peer
  | claimPairingOffer => exact askPairing_speaks hfinish (by simp) (by simp) (by simp) peer
  | confirmPairing =>
      dsimp only [confirmPairing]
      split
      · exact send_speaks hfinish (speaks_ofList (by simp) (by simp) (by simp)) _
      · exact .of_eq rfl
  | cancelPairing =>
      dsimp only [cancelPairing]
      split
      · exact send_speaks hfinish (speaks_ofList (by simp) (by simp) (by simp)) _
      · exact .of_eq rfl
  | relayConnected => exact relayConnected_speaks hfinish peer
  | relayText message =>
      -- The only input besides `linkText` on which something is answered.
      dsimp only
      split
      · exact message_speaks hfinish hconcludes hinput
      · exact .of_eq rfl
  | relayFinished error => exact relayFinished_speaks hfinish error peer
  | newConnection =>
      dsimp only [newConnection]
      split
      · exact .of_eq rfl
      split <;> exact .of_eq rfl
  | linkConnected socket fingerprint => exact linkConnected_speaks hfinish ..
  | linkText socket message => exact linkText_speaks hfinish hconcludes hinput
  | linkBinary socket =>
      dsimp only
      split
      · exact closeLink_speaks hfinish ..
      · exact .of_eq rfl
  | linkFinished socket => exact linkFinished_speaks hfinish ..
  | sweep =>
      dsimp only
      split
      · exact sweep_speaks hfinish peer
      · exact .of_eq rfl
  | retry =>
      dsimp only
      split
      · exact openRelay_speaks hfinish { peer with retry := false }
      · exact .of_eq rfl
  | authTimer =>
      dsimp only
      split
      · exact authenticate_speaks hfinish peer
      · exact .of_eq rfl
  | startRequest id =>
      dsimp only
      split
      · exact startRequest_speaks hfinish id { peer with starts := peer.starts.erase id }
      · exact .of_eq rfl
  | refuse id =>
      dsimp only
      split
      -- The refusal completes the request, and then the application's slot runs.
      · have hrefused : Says platform peer step peer ({ peer with
            refusals := peer.refusals.erase id }.emit
              (.completed id (errorObject "request_too_large_or_busy") "" none)) := .cons trivial
        exact hrefused.trans (speaks_foldl (fun peer action => act_speaks hfinish action peer) _ _)
      · exact .of_eq rfl
  | nextLocal peerId =>
      dsimp only
      split
      · exact nextLocal_speaks hfinish peerId { peer with redials := peer.redials.erase peerId }
      · exact .of_eq rfl
  | notice id =>
      dsimp only
      split
      · exact .cons trivial
      · exact .of_eq rfl

/-- **Every entry of the history was made in a turn that may make it.** -/
theorem run_voiced {ok : Peer → Step → Prop} {trace : List (Peer × Step)}
    (run : (machine platform).Run ok trace peer) :
    ∀ entry ∈ peer.log, ∃ visit ∈ trace, Voiced platform visit.1 visit.2 entry := by
  refine run.origin Peer.log ?_ fun state input => next_voiced platform state input
  rintro state ⟨time, rfl⟩
  rfl

/-! ## Requests, responses and names -/

theorem messageType_registration (platform : Platform) (world : World) (peer : Peer) :
    messageType (registration platform world peer) = "register" := rfl

theorem messageType_responseMessage (id : Json) (result : JsonObject) :
    messageType (responseMessage id result) = "response" := rfl

theorem messageType_helloMessage (ticket : String) : messageType (helloMessage ticket) = "hello" :=
  rfl

theorem responseMessage_id (id : Json) (result : JsonObject) :
    (responseMessage id result).value "id" = id := by
  cases id <;> rfl

theorem responseMessage_result (id : Json) (result : JsonObject) :
    ((responseMessage id result).value "result").toObject = result := by
  cases id <;> rfl

theorem requestOver_id (channel : Channel) (id peerId : String) (payload : JsonObject) :
    ((requestOver channel id peerId payload).value "id").toString = id := by
  cases channel <;> rfl

theorem requestOver_payload (channel : Channel) (id peerId : String) (payload : JsonObject) :
    ((requestOver channel id peerId payload).value "payload").toObject = payload := by
  cases channel <;> rfl

variable {ok : Peer → Step → Prop} {trace : List (Peer × Step)}
  (run : (machine platform).Run ok trace peer) {channel : Channel} {message : JsonObject}
include run

/-- A response is sent for a request that the peer was given. -/
theorem responded_of_sent (hsent : .sent channel message ∈ events peer.log)
    (htype : messageType message = "response") : ∃ visit ∈ trace, ∃ id peerId payload,
      Given visit.1 visit.2 channel id.toString peerId payload ∧ message = responseMessage id
        (visit.1.handle visit.2.world channel id.toString peerId payload).2 := by
  obtain ⟨entry, hentry, hevent⟩ := List.mem_map.1 hsent
  obtain ⟨visit, hvisit, hvoiced⟩ := run_voiced run entry hentry
  simp only [Voiced, hevent] at hvoiced
  cases hvoiced with
  | register => exact absurd ((messageType_registration ..).symm.trans htype) (by decide)
  | respond hgiven => exact ⟨visit, hvisit, _, _, _, hgiven, rfl⟩
  | hello => exact absurd ((messageType_helloMessage _).symm.trans htype) (by decide)
  | other hregister hresponse => exact absurd htype hresponse

/-- A registration carries the name that the peer was started with. -/
theorem registered_of_sent (hsent : .sent channel message ∈ events peer.log)
    (htype : messageType message = "register") : ∃ visit ∈ trace,
      message = registration platform visit.2.world visit.1 := by
  obtain ⟨entry, hentry, hevent⟩ := List.mem_map.1 hsent
  obtain ⟨visit, hvisit, hvoiced⟩ := run_voiced run entry hentry
  simp only [Voiced, hevent] at hvoiced
  cases hvoiced with
  | register => exact ⟨visit, hvisit, rfl⟩
  | respond => exact absurd ((messageType_responseMessage ..).symm.trans htype) (by decide)
  | hello => exact absurd ((messageType_helloMessage _).symm.trans htype) (by decide)
  | other hregister => exact absurd htype hregister

/-- A response that completes a request was heard. -/
theorem concluded_of_completed {id transport : String} {result : JsonObject}
    (hcompleted : .completed id result transport (some channel) ∈ events peer.log) :
    ∃ visit ∈ trace, Concluded visit.1 visit.2 channel id result := by
  obtain ⟨entry, hentry, hevent⟩ := List.mem_map.1 hcompleted
  obtain ⟨visit, hvisit, hvoiced⟩ := run_voiced run entry hentry
  simp only [Voiced, hevent] at hvoiced
  exact ⟨visit, hvisit, hvoiced⟩

/-- A call of the handler is for a request that the peer was given. -/
theorem given_of_handled {id peerId : String} {payload : JsonObject}
    (hhandled : .handled channel id peerId payload ∈ events peer.log) :
    ∃ visit ∈ trace, Given visit.1 visit.2 channel id peerId payload := by
  obtain ⟨entry, hentry, hevent⟩ := List.mem_map.1 hhandled
  obtain ⟨visit, hvisit, hvoiced⟩ := run_voiced run entry hentry
  simp only [Voiced, hevent] at hvoiced
  exact ⟨visit, hvisit, hvoiced⟩

end Peer

end ServerHost
