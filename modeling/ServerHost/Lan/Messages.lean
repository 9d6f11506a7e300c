import ServerHost.Library.Counters
import ServerHost.Lan.Framing

/-!
# What the two ends of a LAN connection say

The host writes a response in the turn that is given the request, and never else; the
client writes a request when its task runs, which `request` left behind.  A request is
completed by a response of the current host, or under one of four codes of its own.

## Strategy

The handlers of both ends are walked through once.  A turn of the host is `Wonted`, or it
answers a `confirm` or a request (`next_wonted`).  A turn of the client is `Speaks`
(`next_speaks`): it keeps the identity under which the pending requests were made, so what
completes one of them later was asked for under the same identity (`run_asked`).
-/

namespace ServerHost

namespace LanPeer

/-! ## The host answers -/

/-- The message that answers a request. -/
def responseMessage (id : Json) (result : JsonObject) : JsonObject :=
  .ofList [("type", .string "response"), ("id", id), ("result", result.json)]

/-- The turn is given a request by a paired session. -/
structure Serves (host : LanPeer) (step : Step) (socket : Socket) (session : Session)
    (request : JsonObject) : Prop where
  input : step.input = .text socket request ∨ step.input = .binary socket request
  stored : host.clients.lookup socket = some session
  paired : session.paired = true
  type : messageType request = "request"

/-- What a turn writes that answers no request. -/
def Event.wonted : Event → Prop
  | .sent _ message => messageType message ∈ ["error", "verify", "ready", "paired"]
  | _ => True

abbrev Wonted (host after : LanPeer) : Prop :=
  Grows (fun entry => entry.event.wonted) host.log after.log

variable {platform : Platform} {host first after : LanPeer} {step : Step}

theorem foldl_wonted {α : Type*} {f : LanPeer → α → LanPeer} (h : ∀ host a, Wonted host (f host a))
    (list : List α) (host : LanPeer) : Wonted host (list.foldl f host) :=
  list.foldlRecOn f (motive := fun after => Wonted host after) (.of_eq rfl)
    fun after hafter a _ => hafter.trans (h after a)

theorem emit_wonted {event : Event} (h : event.wonted) : Wonted host (host.emit event) := .cons h

theorem close_wonted (socket : Socket) (host : LanPeer) : Wonted host (host.close socket) :=
  .cons trivial

theorem update_wonted (socket : Socket) (f : Session → Session) (host : LanPeer) :
    Wonted host (host.update socket f) := .of_eq rfl

theorem transmit_wonted {message : JsonObject} (type : String) (htype : messageType message = type)
    (hwonted : type ∈ ["error", "verify", "ready", "paired"])
    (full : Socket → JsonObject → Bool) (socket : Socket) (host : LanPeer) :
    Wonted host (host.transmit full socket message) := by
  unfold transmit
  split
  · exact .of_eq rfl
  split
  · exact close_wonted socket host
  · exact emit_wonted (show messageType message ∈ _ from htype ▸ hwonted)

theorem reject_wonted (world : World) (socket : Socket) (text : String) (host : LanPeer) :
    Wonted host (host.reject world socket text) :=
  (transmit_wonted "error" rfl (by decide) ..).trans (close_wonted ..)

/-- The Files could not be opened. -/
theorem failed_wonted (world : World) (socket : Socket) (text : String) (host : LanPeer) :
    Wonted host ({ host with error := text, phase := .error }.emit (.failed socket)
      |>.reject world socket text) := by
  have hfailed : Wonted host ({ host with error := text, phase := .error }.emit (.failed socket)) :=
    .cons trivial
  exact hfailed.trans (reject_wonted ..)

theorem accept_wonted (socket : Socket) (message : JsonObject) (host : LanPeer) :
    Wonted host (host.accept platform socket message) := .cons trivial

theorem pairMessage_wonted (world : World) (socket : Socket) (message : JsonObject)
    (host : LanPeer) : Wonted host (host.pairMessage platform world socket message) := by
  unfold pairMessage
  dsimp only
  split
  · exact reject_wonted ..
  split
  · exact reject_wonted ..
  split
  · exact (update_wonted ..).trans (reject_wonted ..)
  split
  · exact (update_wonted ..).trans (reject_wonted ..)
  have haccepted : ∀ authentication, Wonted host ((host.update socket fun session => { session with
      authentication := authentication }).accept platform socket message) := fun authentication =>
    (update_wonted ..).trans (accept_wonted ..)
  split
  · exact (haccepted _).trans (transmit_wonted "verify" rfl (by decide) ..)
  split
  · exact (haccepted _).trans ((emit_wonted (by trivial)).trans (failed_wonted ..))
  · exact (haccepted _).trans ((emit_wonted (by trivial)).trans ((emit_wonted (by trivial)).trans
      (transmit_wonted "ready" rfl (by decide) ..)))

theorem confirmMessage_wonted (world : World) (socket : Socket) (session : Session)
    (host : LanPeer) : Wonted host (host.confirmMessage world socket session) := by
  have hsent : Wonted host (LanPeer.transmit world.full socket (host.pairedReply session)
      { host.update socket fun session => { session with paired := true } with
        phase := .paired }) :=
    Grows.trans (.of_eq rfl) (transmit_wonted "paired" rfl (by decide) ..)
  exact hsent.trans (.cons trivial)

/-- The turn that answers a request, and the only one that writes a response. -/
def Responds (host : LanPeer) (step : Step) (after : LanPeer) : Prop :=
  ∃ socket session request, Serves host step socket session request ∧
    after = host.requestMessage step.world socket session request

theorem hostMessage_wonted {socket : Socket} {message : JsonObject}
    (hinput : step.input = .text socket message ∨ step.input = .binary socket message) :
    Wonted host (host.hostMessage platform step.world socket message) ∨
      Responds host step (host.hostMessage platform step.world socket message) := by
  unfold hostMessage
  cases hsession : host.clients.lookup socket with
  | none => exact .inl (.of_eq rfl)
  | some session =>
      dsimp only
      split
      · exact .inl (pairMessage_wonted ..)
      split
      · exact .inl (confirmMessage_wonted ..)
      split
      · next hrequest =>
          exact .inr ⟨socket, session, message,
            ⟨hinput, hsession, hrequest.2.1, hrequest.1⟩, rfl⟩
      · exact .inl (reject_wonted ..)

theorem cancelPairing_wonted (host : LanPeer) : Wonted host host.cancelPairing := by
  have hround : ∀ (state : LanPeer) socket, Wonted state (state.dropSession socket) := by
    intro state socket
    unfold dropSession
    split <;> exact .of_eq rfl
  have hstart : Wonted host ({ host with
      qr := ""
      offer := { host.offer with code := "" }
      expectedPeer := ""
      verificationCode := "" }) := .of_eq rfl
  exact (hstart.trans (foldl_wonted hround _ _)).trans (.of_eq rfl)

theorem withdraw_wonted (host : LanPeer) : Wonted host (host.emit .withdrawn).cancelPairing :=
  (emit_wonted (by trivial)).trans (cancelPairing_wonted _)

theorem createOffer_wonted (platform : Platform) (lifetimeSeconds : ℤ) (host : LanPeer) :
    Wonted host ((host.hearOffer lifetimeSeconds).createOffer platform lifetimeSeconds).1 := by
  rw [createOffer_hearOffer]
  split
  · exact .of_eq rfl
  · exact (withdraw_wonted host).trans (.cons trivial)

theorem confirmDevice_wonted (world : World) (host : LanPeer) :
    Wonted host (host.confirmDevice world).1 := by
  unfold confirmDevice
  split
  · exact .of_eq rfl
  cases host.awaiting with
  | none => exact .of_eq rfl
  | some entry =>
      dsimp only
      split
      · exact (update_wonted ..).trans ((emit_wonted (by trivial)).trans (close_wonted ..))
      split
      · exact (update_wonted ..).trans ((emit_wonted (by trivial)).trans (failed_wonted ..))
      · have happroved : ∀ (socket : Socket) (state : LanPeer),
            Wonted state (({ state with phase := .verifying }.emit (.listed socket)).emit
              (.approved socket)) := fun socket state => ⟨[_, _], rfl, by simp [Event.wonted]⟩
        exact (update_wonted ..).trans ((emit_wonted (by trivial)).trans ((happroved ..).trans
          (transmit_wonted "ready" rfl (by decide) ..)))

/-! ## The steps of the host -/

theorem newConnection_wonted (address : String) (host : LanPeer) :
    Wonted host (host.newConnection platform address) := by
  unfold newConnection
  split
  · exact .of_eq rfl
  · dsimp only
    split
    · exact .cons trivial
    · exact .of_eq rfl

theorem stop_wonted (host : LanPeer) : Wonted host (host.emit .withdrawn).stop := .cons trivial

theorem startHost_log (hostId name : String) (handler : Bool) (addresses found : List String)
    (identity : Bool) (listener : Except String (ℕ × String)) (host : LanPeer) :
    (host.startHost platform hostId name handler addresses found identity listener).log =
      host.stop.log := by
  unfold startHost
  dsimp only
  generalize (if addresses.isEmpty = true then found else addresses) = addresses
  split
  · rfl
  split
  · rfl
  split
  · rfl
  split
  · rfl
  cases listener <;> rfl

/-- **The host writes nothing unwonted but where it answers.** -/
theorem next_wonted (platform : Platform) (host : LanPeer) (step : Step) :
    Wonted host (next platform host step) ∨ Responds host step (next platform host step) := by
  unfold next
  cases hinput : step.input with
  | clock time => exact .inl (.of_eq rfl)
  | startHost hostId name handler addresses found identity listener =>
      -- Everything `startHost` logs is logged by its `stop`.
      exact .inl ((stop_wonted host).trans (.of_eq (startHost_log ..)))
  | setPairingAuthentication signer verifier => exact .inl (.cons trivial)
  | newConnection address => exact .inl (newConnection_wonted ..)
  | text socket message => exact hostMessage_wonted (.inl hinput)
  | binary socket message =>
      dsimp only [binaryMessage]
      cases host.clients.lookup socket with
      | none => exact .inl (.of_eq rfl)
      | some session =>
          dsimp only
          split
          · exact .inl (close_wonted ..)
          · exact hostMessage_wonted (.inr hinput)
  | disconnected socket =>
      -- A session that leaves is not told so.
      refine .inl (.of_eq ?_)
      dsimp only [disconnected]
      cases host.clients.lookup socket with
      | none => rfl
      | some previous =>
          dsimp only
          split <;> rfl
  | sweep =>
      have hround : ∀ (state : LanPeer) socket, Wonted state (state.sweepSession socket) := by
        intro state socket
        unfold sweepSession
        dsimp only
        split
        · exact close_wonted ..
        · exact .of_eq rfl
      refine .inl (Grows.trans ?_ (foldl_wonted hround _ _))
      split
      · exact .cons trivial
      · exact .of_eq rfl
  | createOffer lifetimeSeconds => exact .inl (createOffer_wonted ..)
  | createDeviceOffer peerId lifetimeSeconds =>
      refine .inl ?_
      dsimp only
      rw [createDeviceOffer_hearDeviceOffer]
      split
      · exact .of_eq rfl
      · refine (createOffer_wonted platform lifetimeSeconds host).trans ?_
        dsimp only
        split <;> exact .of_eq rfl
  | cancelPairing => exact .inl (withdraw_wonted host)
  | confirmDevice => exact .inl (confirmDevice_wonted ..)
  | stop => exact .inl (.cons trivial)
  | rehash clients => exact .inl (.of_eq rfl)

/-- The answer to a request, as it stands in the history. -/
theorem requestMessage_log (world : World) (socket : Socket) (session : Session)
    (request : JsonObject) (host : LanPeer) : ∃ new,
    (host.requestMessage world socket session request).log = new ++
      ⟨host.now, .handled socket session.id (request.value "payload").toObject⟩ :: host.log ∧
    ∀ entry ∈ new, (∃ own, entry.event = .closed own) ∨
      entry.event = .sent socket (responseMessage (request.value "id")
        (answer world session.id (request.value "payload").toObject)) := by
  unfold requestMessage transmit
  dsimp only
  split
  · exact ⟨[], rfl, by simp⟩
  split
  · exact ⟨[⟨host.now, .closed socket⟩], rfl, by simp⟩
  · exact ⟨[⟨host.now, .sent socket _⟩], rfl, by simp [responseMessage]⟩

/-- The history only grows. -/
theorem next_grows (platform : Platform) (host : LanPeer) (step : Step) :
    Grows (fun _ => True) host.log (next platform host step).log := by
  rcases next_wonted platform host step with hwonted | ⟨socket, session, request, -, hnext⟩
  · exact hwonted.mono fun _ _ => trivial
  · obtain ⟨new, hlog, -⟩ := requestMessage_log step.world socket session request host
    exact ⟨new ++ [_], by rw [hnext, hlog, List.append_assoc]; rfl, fun _ _ => trivial⟩

theorem sent_of_told {socket : Socket} {message : JsonObject} {new : List Entry}
    (hlog : after.log = new ++ host.log) (hmem : message ∈ told socket host after) :
    ∃ entry ∈ new, entry.event = .sent socket message := by
  rw [LanSystem.host_told hlog, List.mem_reverse, List.mem_filterMap] at hmem
  obtain ⟨entry, hentry, htold⟩ := hmem
  refine ⟨entry, hentry, ?_⟩
  cases hevent : entry.event with
  | sent own sent =>
      simp only [hevent, Event.told, Option.ite_none_right_eq_some, Option.some.injEq] at htold
      obtain ⟨rfl, rfl⟩ := htold
      rfl
  | _ => simp [hevent, Event.told] at htold

/-- **A response is written in the turn that is given its request**, and the handler was
called for it. -/
theorem response_of_told {socket : Socket} {message : JsonObject}
    (hmem : message ∈ told socket host (next platform host step))
    (htype : messageType message = "response") : ∃ session request,
      Serves host step socket session request ∧
      message = responseMessage (request.value "id")
        (answer step.world session.id (request.value "payload").toObject) ∧
      .handled socket session.id (request.value "payload").toObject ∈
        events (next platform host step).log := by
  rcases next_wonted platform host step with ⟨new, hlog, hall⟩ | hresponds
  · obtain ⟨entry, hentry, hevent⟩ := sent_of_told hlog hmem
    have hwonted := hall entry hentry
    simp only [hevent, Event.wonted, htype] at hwonted
    exact absurd hwonted (by decide)
  -- The one step that sends a response handles the request first.
  · obtain ⟨own, session, request, hserves, hnext⟩ := hresponds
    obtain ⟨new, hlog, hall⟩ := requestMessage_log step.world own session request host
    rw [hnext] at hmem ⊢
    have hwhole : (host.requestMessage step.world own session request).log =
        (new ++ [⟨host.now, .handled own session.id (request.value "payload").toObject⟩]) ++
          host.log := by rw [hlog, List.append_assoc]; rfl
    obtain ⟨entry, hentry, hevent⟩ := sent_of_told hwhole hmem
    have hhandled : .handled own session.id (request.value "payload").toObject ∈
        events (host.requestMessage step.world own session request).log := by
      simp [events, hlog]
    rcases List.mem_append.1 hentry with hnew | hlast
    · rcases hall entry hnew with ⟨other, hclosed⟩ | hsent
      · rw [hclosed] at hevent
        cases hevent
      · rw [hsent] at hevent
        obtain ⟨rfl, rfl⟩ := Event.sent.inj hevent
        exact ⟨session, request, hserves, rfl, hhandled⟩
    · obtain rfl := List.mem_singleton.1 hlast
      cases hevent

end LanPeer

namespace LanClient

/-! ## What the client says

A client speaks of a request when it sends it and when it is completed. -/

/-- The message that makes a request. -/
def requestMessage (id : String) (payload : JsonObject) : JsonObject :=
  .ofList [("type", .string "request"), ("id", .string id), ("payload", payload.json)]

/-- The codes under which the client completes a request itself. -/
def failures : List String := ["not_connected_or_busy", "timeout", "connection_lost", "stopped"]

/-- The application asks for something, of the host that is paired. -/
structure Asks (platform : Platform) (client : LanClient) (step : Step) (id : String)
    (payload : JsonObject) : Prop where
  input : step.input = .request client.joining.hostId payload
  paired : client.clientPaired = true
  id : id = platform.uuid client.uuids

/-- The turn is given the response to a request that is pending. -/
structure Concludes (client : LanClient) (step : Step) (socket : Socket) (response : JsonObject)
    (id : String) (result : JsonObject) : Prop where
  current : client.client = some socket
  input : step.input = .text socket response ∨ step.input = .binary socket response
  paired : client.clientPaired = true
  type : messageType response = "response"
  pending : id ∈ client.requests
  id : id = (response.value "id").toString
  result : result = (response.value "result").toObject

/-- What the turn may enter into the history. -/
def Voiced (pre : LanClient) (step : Step) : Event → Prop
  | .sent _ message => messageType message = "request" →
      ∃ id payload, .send id payload ∈ pre.tasks ∧ message = requestMessage id payload
  | .completed id result => (∃ code ∈ failures, result = errorObject code) ∨
      ∃ socket response, Concludes pre step socket response id result
  | _ => True

/-- A part of a turn: it says what the turn may say, gives the application no new identifiers,
and keeps the identity that the pending requests were made under. -/
structure Speaks (pre : LanClient) (step : Step) (client after : LanClient) : Prop where
  log : Grows (fun entry => Voiced pre step entry.event) client.log after.log
  uuids : after.uuids = client.uuids
  tasks : after.tasks = client.tasks
  requests : ∀ id ∈ after.requests, id ∈ client.requests ∧ after.clientId = client.clientId ∧
    after.joining.fingerprint = client.joining.fingerprint

variable {platform : Platform} {read : String → LanLink.Query} {pre client first after : LanClient}
variable {step : Step} {trace : List (LanClient × Step)}

theorem Speaks.trans (h : Speaks pre step client first) (h' : Speaks pre step first after) :
    Speaks pre step client after := by
  refine ⟨h.log.trans h'.log, h'.uuids.trans h.uuids, h'.tasks.trans h.tasks, fun id hid => ?_⟩
  obtain ⟨hfirst, hsame, hpinned⟩ := h'.requests id hid
  obtain ⟨hmem, hsame', hpinned'⟩ := h.requests id hfirst
  exact ⟨hmem, hsame.trans hsame', hpinned.trans hpinned'⟩

/-- A change of what nobody is told. -/
theorem Speaks.aside (hlog : after.log = client.log) (huuids : after.uuids = client.uuids)
    (htasks : after.tasks = client.tasks) (hrequests : after.requests = client.requests)
    (hclientId : after.clientId = client.clientId)
    (hpinned : after.joining.fingerprint = client.joining.fingerprint) :
    Speaks pre step client after :=
  ⟨.of_eq hlog, huuids, htasks, fun _ hid => ⟨hrequests ▸ hid, hclientId, hpinned⟩⟩

theorem Speaks.refl (client : LanClient) : Speaks pre step client client :=
  .aside rfl rfl rfl rfl rfl rfl

theorem Speaks.emit {event : Event} (h : Speaks pre step client first)
    (hvoiced : Voiced pre step event) : Speaks pre step client (first.emit event) :=
  h.trans ⟨.cons hvoiced, rfl, rfl, fun _ hid => ⟨hid, rfl, rfl⟩⟩

/-! ## The handlers -/

theorem complete_speaks {code : String} (hcode : code ∈ failures)
    (hlog : first.log = client.log) (huuids : first.uuids = client.uuids)
    (htasks : first.tasks = client.tasks) : Speaks pre step client (first.complete code) := by
  have hvoiced : ∀ id, Voiced pre step (.completed id (errorObject code)) := fun _ =>
    .inl ⟨code, hcode, rfl⟩
  have hfold : (first.complete code).requests = ∅ ∧
      Grows (fun entry => Voiced pre step entry.event) client.log (first.complete code).log ∧
      (first.complete code).uuids = client.uuids ∧ (first.complete code).tasks = client.tasks :=
    first.requests.keys.foldlRecOn
      (fun client id => client.emit (.completed id (errorObject code)))
      (motive := fun after => after.requests = ∅ ∧
        Grows (fun entry => Voiced pre step entry.event) client.log after.log ∧
        after.uuids = client.uuids ∧ after.tasks = client.tasks)
      (b := { first with requests := ∅ }) ⟨rfl, .of_eq hlog, huuids, htasks⟩
      fun after hafter id _ => ⟨hafter.1, hafter.2.1.trans (.cons (hvoiced id)),
        hafter.2.2.1, hafter.2.2.2⟩
  obtain ⟨hempty, hgrows, hsame, hkept⟩ := hfold
  refine ⟨hgrows, hsame, hkept, fun id hid => ?_⟩
  rw [hempty] at hid
  exact absurd hid (AList.notMem_empty id)

theorem fail_speaks (message : String) (client : LanClient) :
    Speaks pre step client (client.fail message) :=
  complete_speaks (by decide) rfl rfl rfl

theorem stop_speaks (client : LanClient) : Speaks pre step client client.stop :=
  complete_speaks (by decide) rfl rfl rfl

theorem openAddress_speaks (client : LanClient) : Speaks pre step client client.openAddress := by
  unfold openAddress
  cases client.joining.addresses[client.addressIndex]? with
  | none => exact complete_speaks (by decide) rfl rfl rfl
  | some address =>
      dsimp only
      split
      · exact complete_speaks (by decide) rfl rfl rfl
      · exact Speaks.emit (.aside rfl rfl rfl rfl rfl rfl) trivial

theorem errorOccurred_speaks (text : String) (client : LanClient) :
    Speaks pre step client (client.errorOccurred text) := by
  have hnoted : Speaks pre step client { client with connectionError := text } :=
    .aside rfl rfl rfl rfl rfl rfl
  unfold errorOccurred
  dsimp only
  split
  · exact hnoted.trans (openAddress_speaks _)
  · exact hnoted.trans (fail_speaks _ _)

theorem send_speaks {message : JsonObject} (h : messageType message = "request" →
      ∃ id payload, .send id payload ∈ pre.tasks ∧ message = requestMessage id payload)
    (world : World) (client : LanClient) :
    Speaks pre step client (client.send world message).1 := by
  unfold send
  cases client.client with
  | none => exact .refl client
  | some socket =>
      dsimp only
      split
      · exact .refl client
      cases world.delivery message with
      | left => exact Speaks.emit (.refl client) h
      | full => exact Speaks.emit (.aside rfl rfl rfl rfl rfl rfl) trivial
      | broke text => exact errorOccurred_speaks text client

theorem connected_speaks (world : World) (socket : Socket) (fingerprint : String)
    (client : LanClient) :
    Speaks pre step client (client.connected platform world socket fingerprint) := by
  have hgreeted : Speaks pre step client (client.greet platform socket) :=
    Speaks.emit (.aside rfl rfl rfl rfl rfl rfl) trivial
  unfold connected
  split
  · exact fail_speaks _ client
  dsimp only
  split
  · exact hgreeted.trans (fail_speaks _ _)
  · have hpair : ∀ (proof : JsonObject) (client : LanClient),
        messageType (client.pairMessage proof) ≠ "request" := fun _ _ =>
      show "pair" ≠ "request" by decide
    exact hgreeted.trans ((send_speaks (fun htype => absurd htype (hpair _ _)) _ _).trans
      (.aside rfl rfl rfl rfl rfl rfl))

/-- A response completes a request that was pending. -/
theorem responseMessage_speaks {socket : Socket} {message : JsonObject}
    (hcurrent : pre.client = some socket)
    (hinput : step.input = .text socket message ∨ step.input = .binary socket message)
    (hpaired : pre.clientPaired = true) (htype : messageType message = "response")
    (hrequests : client.requests = pre.requests) :
    Speaks pre step client (client.responseMessage message) := by
  unfold responseMessage
  dsimp only
  split
  · exact .refl client
  · next hmem =>
      refine ⟨.cons (.inr ⟨socket, message, hcurrent, hinput, hpaired, htype,
        hrequests ▸ not_not.1 hmem, rfl, rfl⟩), rfl, rfl, fun id hid => ⟨?_, rfl, rfl⟩⟩
      exact (AList.mem_erase.1 hid).2

theorem answerMessage_speaks {world : World} {socket : Socket} {message : JsonObject}
    (hcurrent : pre.client = some socket)
    (hinput : step.input = .text socket message ∨ step.input = .binary socket message)
    (hpaired : client.clientPaired = pre.clientPaired)
    (hrequests : client.requests = pre.requests) :
    Speaks pre step client (client.answerMessage world socket message) := by
  unfold answerMessage
  dsimp only
  split
  · exact .aside rfl rfl rfl rfl rfl rfl
  split
  · unfold readyMessage
    have hphase : Speaks pre step client { client with phase := .verifying } :=
      .aside rfl rfl rfl rfl rfl rfl
    dsimp only
    split
    · exact hphase.trans (fail_speaks _ _)
    · exact hphase.trans (send_speaks (fun htype => absurd htype (by decide)) _ _)
  split
  · unfold pairedMessage
    split
    · exact fail_speaks _ client
    · exact Speaks.emit (.aside rfl rfl rfl rfl rfl rfl) trivial
  split
  · next hresponse =>
      exact responseMessage_speaks hcurrent hinput (hpaired ▸ hresponse.2) hresponse.1 hrequests
  · exact fail_speaks _ client

theorem clientMessage_speaks {socket : Socket} {message : JsonObject}
    (hcurrent : pre.client = some socket)
    (hinput : step.input = .text socket message ∨ step.input = .binary socket message) :
    Speaks pre step pre (pre.clientMessage step.world socket message) := by
  have hreceived : Speaks pre step pre (pre.emit (.received socket message)) :=
    Speaks.emit (.refl pre) trivial
  unfold clientMessage
  dsimp only
  split
  · exact hreceived.trans (fail_speaks _ _)
  split
  · split
    · exact hreceived.trans (fail_speaks _ _)
    · refine hreceived.trans (Speaks.trans ?_ (answerMessage_speaks hcurrent hinput rfl rfl))
      exact Speaks.emit (.aside rfl rfl rfl rfl rfl rfl) trivial
  · exact hreceived.trans (answerMessage_speaks hcurrent hinput rfl rfl)

theorem sweep_speaks (client : LanClient) : Speaks pre step client client.sweep := by
  have hround : ∀ (now : ℤ) (state : LanClient) id,
      Speaks pre step state (sweepRequest now plain state id) := by
    intro now state id
    unfold sweepRequest
    split
    · refine ⟨.cons (.inl ⟨"timeout", by decide, rfl⟩), rfl, rfl, fun id hid => ⟨?_, rfl, rfl⟩⟩
      exact (AList.mem_erase.1 hid).2
    · exact .refl state
  have hrounds : ∀ (now : ℤ) (ids : List String) (state : LanClient),
      Speaks pre step state (ids.foldl (sweepRequest now) state) := fun now ids state =>
    ids.foldlRecOn (sweepRequest now) (motive := fun after => Speaks pre step state after)
      (.refl state) fun after hafter id _ => hafter.trans (hround now after id)
  unfold sweep
  refine Speaks.trans ?_ (hrounds _ _ _)
  split
  · split
    · exact fail_speaks _ client
    · split
      · exact openAddress_speaks client
      · exact .refl client
  · exact .refl client

/-- After `stop` nothing is pending, so the identity may change. -/
theorem stop_requests (client : LanClient) : client.stop.requests = ∅ := by
  unfold stop complete
  refine List.foldlRecOn _ _ (motive := fun after : LanClient => after.requests = ∅) rfl ?_
  exact fun after hafter _ _ => hafter

theorem join_speaks (qr peerId name : String) (client : LanClient) :
    Speaks pre step client (client.join platform read qr peerId name) := by
  unfold join
  dsimp only
  split
  · exact (stop_speaks client).trans (fail_speaks _ _)
  split
  · exact (stop_speaks client).trans (fail_speaks _ _)
  · refine (stop_speaks client).trans (Speaks.trans ?_ (openAddress_speaks _))
    refine ⟨.of_eq rfl, rfl, rfl, fun id hid => absurd hid ?_⟩
    change id ∉ client.stop.requests
    rw [stop_requests]
    exact AList.notMem_empty id

theorem onSocket_speaks {socket : Socket} {slot : LanClient → LanClient}
    (h : pre.client = some socket → Speaks pre step pre (slot pre)) :
    Speaks pre step pre (pre.onSocket socket slot) := by
  unfold onSocket
  split
  · next hcurrent => exact h hcurrent
  · exact .refl pre

/-! ## Requests -/

/-- What a turn makes of the tasks and of the requests. -/
structure Turned (platform : Platform) (pre : LanClient) (step : Step) (after : LanClient) :
    Prop where
  log : Grows (fun entry => Voiced pre step entry.event) pre.log after.log
  uuids : pre.uuids ≤ after.uuids
  asked : ∀ host payload, step.input = .request host payload → pre.uuids < after.uuids
  tasks : ∀ id payload, .send id payload ∈ after.tasks → .send id payload ∈ pre.tasks ∨
    Asks platform pre step id payload
  requests : ∀ id ∈ after.requests, after.clientId = pre.clientId ∧
    after.joining.fingerprint = pre.joining.fingerprint ∧
    (id ∈ pre.requests ∨ ∃ payload, Asks platform pre step id payload)

theorem Speaks.turned (h : Speaks pre step pre after)
    (hinput : ∀ host payload, step.input ≠ .request host payload) :
    Turned platform pre step after where
  log := h.log
  uuids := h.uuids.ge
  asked host payload hasked := absurd hasked (hinput host payload)
  tasks _ _ hmem := .inl (h.tasks ▸ hmem)
  requests id hid := ⟨(h.requests id hid).2.1, (h.requests id hid).2.2, .inl (h.requests id hid).1⟩

theorem request_turned {host : String} {payload : JsonObject}
    (hinput : step.input = .request host payload) :
    Turned platform pre step (pre.request platform host payload) := by
  unfold request
  dsimp only
  split
  · refine ⟨.of_eq rfl, Nat.le_succ _, fun _ _ _ => Nat.lt_succ_self _, fun id own hmem => ?_,
      fun id hid => ⟨rfl, rfl, .inl hid⟩⟩
    rcases List.mem_append.1 hmem with hold | hnew
    · exact .inl hold
    · simp at hnew
  · next hopen =>
      simp only [not_or, not_not] at hopen
      obtain ⟨hpaired, hhost, -⟩ := hopen
      have hasks : Asks platform pre step (platform.uuid pre.uuids) payload :=
        ⟨hhost ▸ hinput, hpaired, rfl⟩
      refine ⟨.of_eq rfl, Nat.le_succ _, fun _ _ _ => Nat.lt_succ_self _, fun id own hmem => ?_,
        fun id hid => ⟨rfl, rfl, ?_⟩⟩
      · rcases List.mem_append.1 hmem with hold | hnew
        · exact .inl hold
        · obtain ⟨rfl, rfl⟩ := Task.send.inj (List.mem_singleton.1 hnew)
          exact .inr hasks
      · rcases (AList.mem_insert _).1 hid with rfl | hold
        · exact .inr ⟨payload, hasks⟩
        · exact .inl hold

theorem task_turned (hinput : step.input = .task) {task : Task} {rest : List Task}
    (htasks : pre.tasks = task :: rest) :
    Turned platform pre step ({ pre with tasks := rest }.runTask step.world task) := by
  have hother : ∀ host payload, step.input ≠ .request host payload := by simp [hinput]
  -- The task leaves the list, and the rest of the turn keeps that.
  have hlater : ∀ {after : LanClient}, Speaks pre step { pre with tasks := rest } after →
      Turned platform pre step after := by
    intro after h
    refine ⟨h.log, h.uuids.ge, fun host payload hasked => absurd hasked (hother host payload),
      fun id payload hmem => .inl ?_, fun id hid => ?_⟩
    · rw [h.tasks] at hmem
      exact htasks ▸ List.mem_cons_of_mem _ hmem
    · obtain ⟨hmem, hsame, hpinned⟩ := h.requests id hid
      exact ⟨hsame, hpinned, .inl hmem⟩
  refine hlater ?_
  cases task with
  | refuse id => exact Speaks.emit (.refl _) (.inl ⟨"not_connected_or_busy", by decide, rfl⟩)
  | send id payload =>
      unfold runTask
      dsimp only
      split
      · exact .refl _
      have hsent : Speaks pre step { pre with tasks := rest }
          (({ pre with tasks := rest } : LanClient).send step.world
            (requestMessage id payload)).1 :=
        send_speaks (fun _ => ⟨id, payload, by simp [htasks], rfl⟩) ..
      split
      · exact hsent
      · exact hsent.trans (fail_speaks _ _)

/-- **What a turn of the client says and asks.** -/
theorem next_turned (platform : Platform) (read : String → LanLink.Query)
    (hfeasible : pre.Feasible step) : Turned platform pre step (next platform read pre step) := by
  unfold next
  cases hinput : step.input with
  | request host payload => exact request_turned hinput
  | task =>
      dsimp only
      cases htasks : pre.tasks with
      | nil => exact (Speaks.refl pre).turned (by simp [hinput])
      | cons task rest => exact task_turned hinput htasks
  | clock time => exact Speaks.turned (.aside rfl rfl rfl rfl rfl rfl) (by simp [hinput])
  | join qr peerId name => exact (join_speaks qr peerId name pre).turned (by simp [hinput])
  | setPairingAuthentication signer verifier =>
      -- the new authentication is set aside of all that is spoken
      have hset : Speaks pre step pre.stop { pre.stop with signer, verifier } :=
        .aside rfl rfl rfl rfl rfl rfl
      exact ((stop_speaks pre).trans hset).turned (by simp [hinput])
  | connected socket fingerprint =>
      exact (onSocket_speaks fun _ => connected_speaks ..).turned (by simp [hinput])
  | text socket message =>
      exact (onSocket_speaks fun hcurrent =>
        clientMessage_speaks hcurrent (.inl hinput)).turned (by simp [hinput])
  | binary socket message =>
      refine (onSocket_speaks fun hcurrent => ?_).turned (by simp [hinput])
      unfold binaryMessage
      split
      · exact fail_speaks _ pre
      · exact clientMessage_speaks hcurrent (.inr hinput)
  | closed socket =>
      exact (onSocket_speaks fun _ => .aside rfl rfl rfl rfl rfl rfl).turned (by simp [hinput])
  | errorOccurred socket text =>
      exact (onSocket_speaks fun _ => errorOccurred_speaks text pre).turned (by simp [hinput])
  | disconnected socket =>
      exact (onSocket_speaks fun _ => fail_speaks _ pre).turned (by simp [hinput])
  | sweep => exact (sweep_speaks pre).turned (by simp [hinput])
  | cancelPairing => exact Speaks.turned (.aside rfl rfl rfl rfl rfl rfl) (by simp [hinput])
  | stop => exact (stop_speaks pre).turned (by simp [hinput])
  -- Rehashing may reorder the requests, but it keeps every one of them.
  | rehash requests =>
      have hsame : Table.Same pre.requests requests := by simpa [Feasible, hinput] using hfeasible
      refine Speaks.turned ⟨.of_eq rfl, rfl, rfl, fun id hid => ⟨?_, rfl, rfl⟩⟩ (by simp [hinput])
      rw [Table.mem_iff_lookup] at hid ⊢
      rwa [hsame.lookup]

/-- The application asked for this, as the device that the client still is. -/
def Asked (platform : Platform) (trace : List (LanClient × Step)) (id : String)
    (payload : JsonObject) : Prop :=
  ∃ visit ∈ trace, Asks platform visit.1 visit.2 id payload

theorem Asked.cons {id : String} {payload : JsonObject} (h : Asked platform trace id payload)
    (visit : LanClient × Step) : Asked platform (visit :: trace) id payload := by
  obtain ⟨asking, hmem, hasks⟩ := h
  exact ⟨asking, List.mem_cons_of_mem _ hmem, hasks⟩

/-- What the requests of a client go back to. -/
structure Kept (platform : Platform) (trace : List (LanClient × Step)) (client : LanClient) :
    Prop where
  tasks : ∀ id payload, .send id payload ∈ client.tasks → Asked platform trace id payload
  requests : ∀ id ∈ client.requests, ∃ visit ∈ trace, ∃ payload,
    Asks platform visit.1 visit.2 id payload ∧ visit.1.clientId = client.clientId ∧
    visit.1.joining.fingerprint = client.joining.fingerprint
  sent : ∀ socket message, .sent socket message ∈ events client.log →
    messageType message = "request" → ∃ id payload, message = requestMessage id payload ∧
      Asked platform trace id payload

/-! ## The run -/

/-- **Every request is of the application**, and while it is pending the client is the device
it was made by and pins the certificate it was made to. -/
theorem run_kept (run : (machine platform read).Run Feasible trace client) :
    Kept platform trace client := by
  induction run with
  | start hinit =>
      obtain ⟨time, rfl⟩ := hinit
      exact ⟨by simp, fun id hid => absurd hid (AList.notMem_empty id), by simp [events]⟩
  | @step trace client step run hfeasible ih =>
      have hturned := next_turned platform read hfeasible
      refine ⟨fun id payload hmem => ?_, fun id hid => ?_, fun socket message hmem htype => ?_⟩
      · rcases hturned.tasks id payload hmem with hold | hasks
        · exact (ih.tasks id payload hold).cons _
        · exact ⟨_, List.mem_cons_self, hasks⟩
      · obtain ⟨hsame, hpinned, hold | ⟨payload, hasks⟩⟩ := hturned.requests id hid
        · obtain ⟨visit, hvisit, payload, hasks, hclientId, hpinned'⟩ := ih.requests id hold
          exact ⟨visit, List.mem_cons_of_mem _ hvisit, payload, hasks, hclientId.trans hsame.symm,
            hpinned'.trans hpinned.symm⟩
        · exact ⟨_, List.mem_cons_self, payload, hasks, hsame.symm, hpinned.symm⟩
      · obtain ⟨entry, hentry, hevent⟩ := List.mem_map.1 hmem
        rcases hturned.log.mem hentry with hold | hvoiced
        · obtain ⟨id, payload, hmessage, hasked⟩ :=
            ih.sent socket message (hevent ▸ List.mem_map_of_mem hold) htype
          exact ⟨id, payload, hmessage, hasked.cons _⟩
        · rw [hevent] at hvoiced
          obtain ⟨id, payload, htask, hmessage⟩ := hvoiced htype
          exact ⟨id, payload, hmessage, (ih.tasks id payload htask).cons _⟩

/-- A request is completed under a code of the client, or by a response. -/
theorem run_concluded (run : (machine platform read).Run Feasible trace client) :
    ∀ id result, .completed id result ∈ events client.log →
      (∃ code ∈ failures, result = errorObject code) ∨
      ∃ visit ∈ trace, ∃ socket response,
        Concludes visit.1 visit.2 socket response id result := by
  induction run with
  | start hinit =>
      obtain ⟨time, rfl⟩ := hinit
      simp [events]
  | @step trace client step run hfeasible ih =>
      intro id result hmem
      obtain ⟨entry, hentry, hevent⟩ := List.mem_map.1 hmem
      rcases (next_turned platform read hfeasible).log.mem hentry with hold | hvoiced
      · rcases ih id result (hevent ▸ List.mem_map_of_mem hold) with hlocal | hresponse
        · exact .inl hlocal
        · obtain ⟨visit, hvisit, hrest⟩ := hresponse
          exact .inr ⟨visit, List.mem_cons_of_mem _ hvisit, hrest⟩
      · rw [hevent] at hvoiced
        rcases hvoiced with hlocal | ⟨socket, response, hconcludes⟩
        · exact .inl hlocal
        · exact .inr ⟨_, List.mem_cons_self, socket, response, hconcludes⟩

/-- **An identifier is of one request.** -/
theorem run_asks_unique (run : (machine platform read).Run Feasible trace client)
    {visit visit' : LanClient × Step} (hvisit : visit ∈ trace) (hvisit' : visit' ∈ trace)
    {id : String} {payload payload' : JsonObject}
    (hasks : Asks platform visit.1 visit.2 id payload)
    (hasks' : Asks platform visit'.1 visit'.2 id payload') :
    visit = visit' ∧ payload = payload' := by
  have hle : ∀ (client : LanClient) step, client.Feasible step →
      client.uuids ≤ (next platform read client step).uuids := fun client step hfeasible =>
    (next_turned platform read hfeasible).uuids
  have hlt : ∀ (client : LanClient) step, (∃ host payload, step.input = .request host payload) →
      client.uuids < (next platform read client step).uuids := by
    rintro client step ⟨host, payload, hinput⟩
    exact (next_turned platform read (by simp [Feasible, hinput])).asked host payload hinput
  have hsame : visit = visit' := run.drawn_unique hle hlt hvisit hvisit' ⟨_, _, hasks.input⟩
    ⟨_, _, hasks'.input⟩ (platform.uuid_injective (hasks.id.symm.trans hasks'.id))
  refine ⟨hsame, ?_⟩
  subst hsame
  have hinput := hasks.input.symm.trans hasks'.input
  simpa using hinput

end LanClient

end ServerHost
