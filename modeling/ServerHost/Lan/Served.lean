import ServerHost.Lan.Agreement
import ServerHost.Lan.Messages
import ServerHost.Lan.Phases

/-!
# A LAN request is answered by its execution

A host and a client that joined it (`Lan/System`).  What `completed` reports is one of four
failures of the client, or what the request handler of the host returned for the payload the
application asked for.

## Strategy

A response on its way to the client has a turn of the host behind it, which was given the
request (`run_replied`).  What the host is given over a connection the client wrote
(`run_carried`), and what the client writes as a request the application asked for
(`run_kept`).  The session that is served was introduced by the client too (`meant`), so the
handler is called on behalf of the device that asked.
-/

namespace ServerHost

namespace LanSystem

variable {platform : Platform} {read : String → LanLink.Query} {double : ℚ → List Char}
variable {supports : Bool} {system after past : LanSystem} {action : Action}
variable {trace earlier : List (LanSystem × Action)} {socket : Socket} {link passed : Link}

/-! ## Responses on their way -/

/-- A turn of the host was given a request of this socket, called the handler for it, and
wrote this message. -/
structure Reply (host : LanPeer) (visit : LanPeer × LanPeer.Step) (number : Socket)
    (session : LanPeer.Session) (request response : JsonObject) : Prop where
  serves : LanPeer.Serves visit.1 visit.2 number session request
  response : response = LanPeer.responseMessage (request.value "id")
    (LanPeer.answer visit.2.world session.id (request.value "payload").toObject)
  handled : .handled number session.id (request.value "payload").toObject ∈
    LanPeer.events host.log

/-- There is such a turn. -/
def Replied (host : LanPeer) (turns : List (LanPeer × LanPeer.Step)) (number : Socket)
    (response : JsonObject) : Prop :=
  ∃ visit ∈ turns, ∃ session request, Reply host visit number session request response

theorem Replied.mono {host after : LanPeer} {turns more : List (LanPeer × LanPeer.Step)}
    {number : Socket} {response : JsonObject} (h : Replied host turns number response)
    (hturns : turns ⊆ more) (hlog : host.log <:+ after.log) :
    Replied after more number response := by
  obtain ⟨visit, hvisit, session, request, hreply⟩ := h
  exact ⟨visit, hturns hvisit, session, request, hreply.serves, hreply.response,
    (hlog.map LanPeer.Entry.event).subset hreply.handled⟩

theorem hostTrace_subset (system : LanSystem) (action : Action)
    (trace : List (LanSystem × Action)) : hostTrace trace ⊆ hostTrace ((system, action) :: trace) :=
  List.filterMap_subset _ (List.subset_cons_self _ _)

/-- The history of the host only grows. -/
theorem host_suffix (system : LanSystem) (action : Action) :
    system.host.log <:+ (next platform read double supports system action).host.log := by
  change _ <:+ ((system.hostStep action).elim system.host (LanPeer.next platform system.host)).log
  cases system.hostStep action with
  | none => exact List.suffix_refl _
  | some step =>
      obtain ⟨new, hlog, -⟩ := LanPeer.next_grows platform system.host step
      exact ⟨new, hlog.symm⟩

/-- The responses that a turn of the host adds to a connection. -/
theorem replied_of_told {step : LanPeer.Step} (hstep : system.hostStep action = some step)
    {message : JsonObject}
    (hmem : message ∈ LanPeer.told socket system.host (LanPeer.next platform system.host step))
    (htype : messageType message = "response") :
    Replied (LanPeer.next platform system.host step) (hostTrace ((system, action) :: trace)) socket
      message := by
  obtain ⟨session, request, hserves, hresponse, hhandled⟩ := LanPeer.response_of_told hmem htype
  refine ⟨(system.host, step), ?_, session, request, hserves, hresponse, hhandled⟩
  rw [hostTrace_some hstep]
  exact List.mem_cons_self

/-- **Every response on its way to the client is the answer to a request.** -/
theorem run_replied (run : (machine platform read double supports).Run Feasible trace system) :
    ∀ socket link, system.links socket = some link → ∀ frame ∈ link.down,
      messageType frame.message = "response" →
      Replied system.host (hostTrace trace) link.host frame.message := by
  induction run with
  | start hinit =>
      obtain ⟨time, time', rfl⟩ := hinit
      simp
  | @step trace system action run hfeasible ih =>
      intro socket link hlink
      cases hold : system.links socket with
      | none =>
          have haccepted := next_accepted hfeasible hold hlink
          simp [haccepted.link]
      | some before =>
          have hkept : ∀ own ∈ before.down, messageType own.message = "response" →
              Replied (next platform read double supports system action).host
                (hostTrace ((system, action) :: trace)) before.host own.message :=
            fun own hframe htype => (ih socket before hold own hframe htype).mono
              (hostTrace_subset system action trace) (host_suffix system action)
          -- What the host adds to what was there.
          have hadded : ∀ {step : LanPeer.Step}, system.hostStep action = some step →
              (next platform read double supports system action).host =
                LanPeer.next platform system.host step → ∀ own ∈ before.down ++
                (LanPeer.told before.host system.host
                  (next platform read double supports system action).host).map
                  (frame double (before.host ∈ system.host.binary)),
              messageType own.message = "response" →
              Replied (next platform read double supports system action).host
                (hostTrace ((system, action) :: trace)) before.host own.message := by
            intro step hstep hhost own hown htype
            rcases List.mem_append.1 hown with hqueued | hnew
            · exact hkept own hqueued htype
            · obtain ⟨message, htold, rfl⟩ := List.mem_map.1 hnew
              rw [hhost] at htold ⊢
              exact replied_of_told hstep htold htype
          obtain ⟨own, hown, hpassing⟩ := @next_passing platform read double supports system action
            hfeasible (run_wired run) socket before hold
          obtain rfl := Option.some.inj (hown.symm.trans hlink)
          cases hpassing with
          | idle _ _ _ _ hsame => rw [hsame]; exact hkept
          | host hstep _ _ hhost _ hsame => rw [hsame]; exact hadded hstep hhost
          | up hstep _ _ _ hhost _ hsame => rw [hsame]; exact hadded hstep hhost
          | client _ _ _ _ _ _ hsame => rw [hsame]; exact hkept
          | down _ _ hqueue _ _ _ hsame =>
              rw [hsame]
              exact fun frame hframe => hkept frame (hqueue ▸ List.mem_cons_of_mem _ hframe)

/-! ## The turn that takes a response -/

/-- A message that a paired client is given came over a connection of the host. -/
theorem arrived (run : (machine platform read double supports).Run Feasible trace system)
    (hfeasible : system.Feasible action) {step : LanClient.Step}
    (hstep : system.clientStep action = some step) {message : JsonObject}
    (hclient : system.client.client = some socket) (hpaired : system.client.clientPaired = true)
    (hinput : step.input = .text socket message ∨ step.input = .binary socket message) :
    ∃ link frame, system.links socket = some link ∧ frame ∈ link.down ∧ frame.message = message ∧
      link.fingerprint = system.client.joining.fingerprint ∧ system.client.helloSent = true := by
  have hsound := LanClient.run_sound (run_client run)
  -- a paired client has greeted, as a fresh connection is still connecting
  have hhello : system.client.helloSent = true := by
    rw [← Bool.not_eq_false]
    intro hfresh
    have hopen : system.client.client ≠ none := by simp [hclient]
    have hphase := (hsound.paired.1 hpaired).symm.trans (hsound.connecting hopen hfresh)
    exact absurd hphase (by simp)
  obtain ⟨link, hlink, hfingerprint⟩ := run_greeted run socket hclient hhello
  have hspeaker : step.input.speaker = some socket := by
    -- the message came over the wire, so the link's head held it
    rcases hinput with hinput | hinput <;> rw [hinput] <;> rfl
  cases action with
  | client own =>
      obtain rfl := Option.some.inj hstep
      exact absurd (hfeasible.2.2 socket hspeaker) (by simp [hlink])
  | down own world =>
      simp only [clientStep, Option.bind_eq_bind, Option.bind_eq_some_iff] at hstep
      obtain ⟨other, hother, first, hfirst, hstep⟩ := hstep
      obtain rfl := Option.some.inj hstep
      rw [toClient_speaker] at hspeaker
      obtain rfl := Option.some.inj hspeaker
      obtain rfl := Option.some.inj (hother.symm.trans hlink)
      refine ⟨other, first, hlink, List.mem_of_mem_head? hfirst, ?_, hfingerprint, hhello⟩
      rw [Frame.toClient] at hinput
      split at hinput <;> rcases hinput with hinput | hinput <;> cases hinput <;> rfl
  | _ => cases hstep

/-- A paired session at a connection of the client goes by the name that the client joined
under. -/
theorem session_named (run : (machine platform read double supports).Run Feasible trace system)
    (hclient : system.client.client = some socket) (hhello : system.client.helloSent = true)
    (hlink : system.links socket = some link)
    (hfingerprint : link.fingerprint = system.client.joining.fingerprint)
    {visit : LanPeer × LanPeer.Step} (hvisit : visit ∈ hostTrace trace)
    {session : LanPeer.Session} (hsession : visit.1.clients.lookup link.host = some session)
    (hpaired : session.paired = true) : session.id = system.client.clientId := by
  obtain ⟨text, name, qr, -, -, hgreeting⟩ :=
    (LanClient.run_greeted (run_client run)).current socket hclient
  obtain ⟨later, before, hsplit⟩ := List.append_of_mem hvisit
  have hbefore := ((run_host run).visited hsplit).1
  have hnamed : session.id ≠ "" := by
    intro hnameless
    have hunpaired := ((LanPeer.run_staged hbefore).stage _ session hsession).unpaired_of_nameless
      hnameless
    exact absurd hpaired (by simp [hunpaired])
  obtain ⟨first, step, message, hmem, horigin⟩ :=
    (LanPeer.run_introductions hbefore).introduced _ session hsession hnamed
  have hmeant := meant run hlink hfingerprint hgreeting hhello
    (hsplit ▸ List.mem_append_right later (List.mem_cons_of_mem _ hmem)) horigin.accepts
    horigin.code
  exact horigin.id.trans hmeant.peerId

/-! ## Execution -/

/-- The application asked for a payload under this identifier, and once.  A host with the
certificate that was pinned then called its handler with the payload, on behalf of the device
that asked, and this is what it answered. -/
def Executed (platform : Platform) (trace : List (LanSystem × Action)) (system : LanSystem)
    (id : String) (result : JsonObject) : Prop :=
  ∃ asking ∈ clientTrace trace, ∃ serving ∈ hostTrace trace, ∃ payload number,
    LanClient.Asks platform asking.1 asking.2 id payload ∧
    (∀ other ∈ clientTrace trace, ∀ payload', LanClient.Asks platform other.1 other.2 id payload' →
      other = asking) ∧
    serving.1.offer.fingerprint = asking.1.joining.fingerprint ∧
    (∃ session request, LanPeer.Serves serving.1 serving.2 number session request ∧
      session.id = asking.1.clientId ∧ (request.value "id").toString = id ∧
      (request.value "payload").toObject = payload) ∧
    .handled number asking.1.clientId payload ∈ LanPeer.events system.host.log ∧
    result = LanPeer.answer serving.2.world asking.1.clientId payload

/-- **A completed request failed at the client, or it was executed and this is its result**, in
every run. -/
theorem run_executed
    (run : (machine platform read double supports).Run Feasible trace system) :
    ∀ id result, .completed id result ∈ LanClient.events system.client.log →
      (∃ code ∈ LanClient.failures, result = errorObject code) ∨
        Executed platform trace system id result := by
  intro id result hcompleted
  rcases LanClient.run_concluded (run_client run) id result hcompleted with hlocal | hconcluded
  · exact .inl hlocal
  obtain ⟨taking, htaking, socket, response, hconcludes⟩ := hconcluded
  -- The state in which the response was taken.
  obtain ⟨⟨past, action⟩, hmem, hturn⟩ := List.mem_filterMap.1 htaking
  obtain ⟨step, hstep, rfl⟩ := Option.map_eq_some_iff.1 hturn
  obtain ⟨later, earlier, hsplit⟩ := List.append_of_mem hmem
  obtain ⟨hpast, hfeasible⟩ := run.visited hsplit
  have hearlier : earlier ⊆ trace := fun visit hvisit =>
    hsplit ▸ List.mem_append_right later (List.mem_cons_of_mem _ hvisit)
  have hclients : clientTrace earlier ⊆ clientTrace trace := List.filterMap_subset _ hearlier
  obtain ⟨link, frame, hlink, hframe, hmessage, hfingerprint, hhello⟩ :=
    arrived hpast hfeasible hstep hconcludes.current hconcludes.paired hconcludes.input
  -- The turn of the host that wrote it, and the request it was given.
  obtain ⟨serving, hserving, session, request, hreply⟩ := run_replied hpast socket link hlink frame
    hframe (hmessage ▸ hconcludes.type)
  have hserves := hreply.serves
  obtain ⟨hoffer, hheard⟩ :=
    (run_carried hpast socket link hlink).heard serving hserving session hserves.stored
  obtain ⟨sent, hsent, hwritten⟩ := hheard request hserves.input
  have hvalue : ∀ key, key ≠ "binary" → request.value key = sent.value key := fun key hkey =>
    hsent ▸ wording_value hkey sent
  have hkept := LanClient.run_kept (run_client hpast)
  have htype : messageType sent = "request" := by
    rw [messageType, ← hvalue "type" (by decide)]
    exact hserves.type
  obtain ⟨own, payload, rfl, asked, hasked, hasks⟩ := hkept.sent socket sent hwritten htype
  obtain ⟨asking, hasking, payload', hasks', hclientId, hpinned⟩ :=
    hkept.requests id hconcludes.pending
  have hrequestId : request.value "id" = .string own := hvalue "id" (by decide)
  have hrequestPayload : (request.value "payload").toObject = payload := by
    rw [hvalue "payload" (by decide)]
    rfl
  have hid : own = id := by
    rw [hconcludes.id, ← hmessage, hreply.response, hrequestId]
    rfl
  obtain ⟨hsame, hpayload⟩ := LanClient.run_asks_unique (run_client hpast) hasked hasking
    hasks (hid ▸ hasks')
  have hname : session.id = asking.1.clientId := (session_named hpast hconcludes.current hhello
    hlink hfingerprint hserving hserves.stored hserves.paired).trans hclientId.symm
  have hlog : past.host.log <:+ system.host.log := by
    refine run.since (R := fun first second => first.host.log <:+ second.host.log)
      (fun _ _ _ => List.IsSuffix.trans) (fun _ state action _ _ => host_suffix state action)
      _ hmem
  refine .inr ⟨asking, hclients hasking, serving, List.filterMap_subset _ hearlier hserving,
    payload', link.host, hasks', fun other hother payload'' hasks'' => ?_, ?_,
    ⟨session, request, hserves, hname, ?_, hrequestPayload.trans hpayload⟩, ?_, ?_⟩
  · exact (LanClient.run_asks_unique (run_client run) hother (hclients hasking) hasks''
      hasks').1
  · rw [hoffer, hfingerprint, hpinned]
  · rw [hrequestId, hid]
    rfl
  · rw [← hname, ← hpayload, ← hrequestPayload]
    exact (hlog.map LanPeer.Entry.event).subset hreply.handled
  · rw [hconcludes.result, ← hmessage, hreply.response, hrequestId, hrequestPayload, hname,
      hpayload]
    rfl

/-- The host is given what was uploaded, and its response is taken. -/
def answering : List Action := [.up 0 .sample, .down 0 .sample]

/-- Whether a request is completed well. -/
def succeeds : LanClient.Event → Bool
  | .completed _ result => (result.value "ok").toBool
  | _ => false

/-- The request of the sample is executed. -/
theorem run_executed_upload : ∃ trace system id result,
    (machine .sample LanClient.sampleRead (fun _ => ['1']) true).Run Feasible trace system ∧
      .completed id result ∈ LanClient.events system.client.log ∧
      Executed .sample trace system id result := by
  have hstart : (machine .sample LanClient.sampleRead (fun _ => ['1']) true).Run Feasible []
      sample := .start ⟨0, 0, rfl⟩
  obtain ⟨trace, run⟩ := hstart.extend upload upload_admissible
  obtain ⟨trace, run⟩ := run.extend answering ⟨trivial, trivial, trivial⟩
  obtain ⟨event, hevent, hsucceeds⟩ := List.any_eq_true.1 (show (LanClient.events
    ((upload ++ answering).foldl (machine .sample LanClient.sampleRead (fun _ => ['1']) true).next
      sample).client.log).any succeeds = true by decide +kernel)
  rw [List.foldl_append] at hevent
  cases event with
  | completed id result =>
      refine ⟨trace, _, id, result, run, hevent,
        (run_executed run id result hevent).resolve_left ?_⟩
      rintro ⟨code, -, rfl⟩
      exact absurd hsucceeds Bool.false_ne_true
  | _ => cases hsucceeds

end LanSystem

end ServerHost
