import Mathlib.Logic.Relation
import ServerHost.Peer.Handlers

/-!
# What one turn of a peer can do

`Change` lists what the handlers do to the requests, tickets and links, each
with all that was checked before, and `next_changes` shows that a turn of the
event loop is a sequence of such changes, however the slots of the application
and the disconnected handlers nest.
-/

namespace ServerHost

namespace Peer

/-- The events that say nothing about requests, tickets and links. -/
def Event.plain : Event → Bool
  | .closed _ | .pairing _ => true
  | .sent _ message => messageType message ≠ "request" && !message.contains "ticket"
  | _ => false

/-- A message that carries no request and no ticket. -/
def Plain (message : JsonObject) : Prop :=
  messageType message ≠ "request" ∧ message.contains "ticket" = false

/-- What only shows, or concerns the sockets alone. -/
structure Quiet (peer after : Peer) : Prop where
  now : after.now = peer.now
  requests : after.requests = peer.requests
  tickets : after.tickets = peer.tickets
  links : after.links = peer.links
  outbound : after.outbound = peer.outbound
  connecting : after.connecting = peer.connecting
  attached : after.attached = peer.attached
  directory : after.directory = peer.directory ∨ after.directory = []
  ready : after.ready = true → peer.ready = true
  refusals : after.refusals = peer.refusals
  attempts : after.attempts = peer.attempts
  dialling : after.dialling = peer.dialling
  pins : after.pins = peer.pins
  sockets : peer.sockets ≤ after.sockets
  uuids : peer.uuids ≤ after.uuids
  serials : after.serials = peer.serials
  log : Grows (fun entry => entry.event.plain = true) peer.log after.log

/-- Why `remote` or `local` is called. -/
def Flushes (peer : Peer) (peerId : String) : Channel → Prop
  | .relay => peer.lists peerId = true ∨ peerId ∈ peer.connecting
  | .link socket => ∃ link, peer.links.lookup socket = some link ∧ link.authenticated = true ∧
      link.peer = peerId ∧ (link.outgoing = true ∨ ∃ name, peer.outbound.lookup name = some socket)

/-- A message of the relay, while the peer is ready. -/
structure Told (peer : Peer) (step : Step) (type : String) (message : JsonObject) : Prop where
  heard : step.input = .relayText message
  typed : messageType message = type
  ready : peer.ready = true

/-- A message on a link that is attached. -/
structure Heard (peer : Peer) (step : Step) (socket : Socket) (link : Link)
    (message : JsonObject) : Prop where
  heard : step.input = .linkText socket message
  attached : socket ∈ peer.attached
  stored : peer.links.lookup socket = some link

/-- What is checked before the handler is called. -/
def Serves (peer : Peer) (step : Step) (id peerId : String) : Channel → Prop
  | .relay => ∃ message, Told peer step "request" message ∧
      id = (message.value "id").toString ∧ peerId = (message.value "peerId").toString
  | .link socket => ∃ link message, Heard peer step socket link message ∧
      messageType message = "request" ∧ id = (message.value "id").toString ∧
      peerId = link.peer ∧ link.authenticated = true ∧ link.outgoing = false ∧
      peer.ready = true ∧ (peer.now : DateTime) < link.expires

/-- What is checked before a response completes a request. -/
def Answers (peer : Peer) (step : Step) (id : String) (request : Pending) : Channel → Prop
  | .relay => ∃ message, Told peer step "response" message ∧
      id = (message.value "id").toString ∧ request.transport = "remote"
  | .link socket => ∃ link message, Heard peer step socket link message ∧
      id = (message.value "id").toString ∧ link.authenticated = true ∧ link.outgoing = true ∧
      request.socket = some socket

variable (platform : Platform) (pre : Peer) (step : Step)

/-- The elementary changes of the turn that meets `step` in the state `pre`. -/
inductive Change : Peer → Peer → Prop
  | clock {peer : Peer} (time : ℤ) : step.input = .clock time →
      Change peer { peer with now := time }
  | quiet {peer after : Peer} : Quiet peer after → Change peer after
  | relayLost {peer : Peer} : Change peer (peer.emit .relayLost).relayDown.resetLocal
  | reset {peer : Peer} : Change peer peer.resetLocal
  | take {peer : Peer} {id : String} (result : JsonObject) : id ∈ peer.requests →
      Change peer (peer.take none id result)
  | answer {id : String} {request : Pending} {channel : Channel} (result : JsonObject) :
      pre.requests.lookup id = some request → Answers pre step id request channel →
      Change pre (pre.take (some channel) id result)
  | refuse {peer : Peer} {id : String} : id ∈ peer.refusals →
      Change peer ({ peer with refusals := peer.refusals.erase id }.emit
        (.completed id (errorObject "request_too_large_or_busy") "" none))
  | recreate {peer : Peer} {id : String} : id ∉ peer.requests → Completed peer.log id →
      Change peer (peer.index id)
  | flushing {peer : Peer} {channel : Channel} {peerId : String} :
      Flushes peer peerId channel → Change peer (peer.flushing channel peerId)
  | hand {peer : Peer} {id : String} {channel : Channel} {request : Pending} :
      peer.requests.lookup id = some request → request.transport = "" →
      .flushing channel request.peer ∈ events peer.log →
      Change peer (peer.hand id channel request)
  | handSent {peer : Peer} {id : String} {channel : Channel} {request : Pending} :
      peer.requests.lookup id = some request → request.transport = "" →
      .flushing channel request.peer ∈ events peer.log →
      Change peer ((peer.hand id channel request).emit
        (.sent channel (requestOver channel id request.peer request.payload)))
  | request {peer : Peer} (peerId : String) (payload : JsonObject) :
      Change peer (peer.request platform peerId payload).1
  | takeIn {peer : Peer} : Change peer peer.takeIn
  | prepare {message : JsonObject} : Told pre step "connect" message →
      (message.value "peerId").toString ∈ pre.connecting → Change pre { pre with
        attempts := pre.attempts.insert (message.value "peerId").toString
          (pre.offered platform step.world message) }
  | dial {peer : Peer} {peerId : String} {attempt : Attempt} : peerId ∈ peer.connecting →
      peer.attempts.lookup peerId = some attempt → Change peer (peer.dial peerId attempt)
  | reach {peer : Peer} {peerId text : String} {attempt : Attempt} : peerId ∈ peer.connecting →
      peer.attempts.lookup peerId = some attempt → text ∈ attempt.urls →
      ((platform.url text).scheme = "wss" → hexToken attempt.fingerprint = true) →
      Change peer ((peer.dial peerId attempt).attach peer.sockets (platform.url text)
        attempt.fingerprint)
  | connected {peer : Peer} (socket : Socket) :
      Change peer { peer with dialling := peer.dialling.erase socket }
  | greeted {peer : Peer} {socket : Socket} {fingerprint : String} {url : Url} {link : Link} :
      step.input = .linkConnected socket fingerprint → socket ∈ pre.attached →
      pre.dialling.lookup socket = some url → pre.links.lookup socket = some link →
        (url.scheme = "wss" → fingerprint = link.fingerprint) →
      Change peer (peer.emit (.sent (.link socket) (helloMessage link.ticket)))
  | welcome {socket : Socket} {link : Link} {message : JsonObject} :
      Heard pre step socket link message → link.authenticated = false → link.outgoing = true →
      Change pre (pre.welcome socket)
  | present {socket : Socket} {link : Link} {message : JsonObject} {text : String}
      {ticket : Ticket} : Heard pre step socket link message → link.authenticated = false →
      link.outgoing = false → messageType message = "hello" →
      text = (message.value "ticket").toString → pre.ready = true →
      pre.tickets.lookup text = some ticket → (pre.now : DateTime) < ticket.expires →
      Change pre (pre.present socket text ticket)
  | unlink {peer : Peer} {socket : Socket} {link : Link} :
      peer.links.lookup socket = some link → Change peer (peer.unlink socket link)
  | phantom {peer : Peer} {socket : Socket} : socket ∉ peer.links →
      Change peer { peer with links := peer.links.insert socket {} }
  | ticket {message : JsonObject} : Told pre step "ticket" message →
      Change pre (pre.ticketMessage message)
  | dropTicket {peer : Peer} (text : String) :
      Change peer { peer with tickets := peer.tickets.erase text }
  | directory {message : JsonObject} : Told pre step "peers" message →
      Change pre { pre with directory := (message.value "peers").toArray }
  | await {peer : Peer} {peerId : String} : peer.lists peerId = true →
      Change peer { peer with connecting := peerId :: peer.connecting }
  | ready {message : JsonObject} : step.input = .relayText message →
      messageType message = "registered" →
      Change pre { pre with ready := true, backoff := 1000, error := "" }
  | serve {channel : Channel} {id peerId : String} (payload : JsonObject) :
      Serves pre step id peerId channel →
      Change pre (pre.emit (.handled channel id peerId payload))

/-- A sequence of elementary changes. -/
abbrev Changes : Peer → Peer → Prop := Relation.ReflTransGen (Change platform pre step)

variable {platform : Platform} {pre : Peer} {step : Step} {peer after : Peer}

/-! ## The history grows -/

theorem Quiet.refl (peer : Peer) : Quiet peer peer :=
  ⟨rfl, rfl, rfl, rfl, rfl, rfl, rfl, .inl rfl, id, rfl, rfl, rfl, rfl, le_rfl, le_rfl, rfl,
    .of_eq rfl⟩

theorem Quiet.trans {first second third : Peer} (h : Quiet first second)
    (h' : Quiet second third) : Quiet first third := by
  refine ⟨h'.now.trans h.now, h'.requests.trans h.requests, h'.tickets.trans h.tickets,
    h'.links.trans h.links, h'.outbound.trans h.outbound, h'.connecting.trans h.connecting,
    h'.attached.trans h.attached, ?_, h.ready ∘ h'.ready, h'.refusals.trans h.refusals,
    h'.attempts.trans h.attempts, h'.dialling.trans h.dialling, h'.pins.trans h.pins,
    h.sockets.trans h'.sockets, h.uuids.trans h'.uuids, h'.serials.trans h.serials,
    h.log.trans h'.log⟩
  exact h'.directory.elim (fun hsame => hsame ▸ h.directory) .inr

theorem take_of_lookup {cause : Option Channel} {id : String} {result : JsonObject}
    {request : Pending} (h : peer.requests.lookup id = some request) :
    peer.take cause id result = { peer with requests := peer.requests.erase id }.emit
      (.completed id result request.transport cause) := by
  rw [Peer.take, h]

theorem index_of_mem {id : String} (h : id ∈ peer.requests) : peer.index id = peer := if_pos h

theorem index_of_not_mem {id : String} (h : id ∉ peer.requests) :
    peer.index id = { peer with requests := peer.requests.insert id {} }.emit (.recreated id) := by
  rw [index, if_neg h]

theorem change_log (change : Change platform pre step peer after) :
    Grows (fun _ => True) peer.log after.log := by
  have hone : ∀ {entry : Entry} {log : List Entry}, Grows (fun _ => True) log (entry :: log) :=
    .cons trivial
  cases change with
  | quiet hquiet => exact hquiet.log.mono fun _ _ => trivial
  | take result hmem =>
      obtain ⟨request, hrequest⟩ := Table.mem_iff_lookup.1 hmem
      rw [take_of_lookup hrequest]
      exact hone
  | answer result hrequest =>
      rw [take_of_lookup hrequest]
      exact hone
  | recreate hnone =>
      rw [index_of_not_mem hnone]
      exact hone
  | handSent => exact Grows.trans hone hone
  | request peerId payload =>
      simp only [Peer.request]
      split <;> exact hone
  | ticket =>
      simp only [ticketMessage]
      split
      · exact .of_eq rfl
      · exact hone
  | relayLost | refuse | flushing | hand | dial | reach | present | unlink | greeted | serve =>
      exact hone
  | _ => exact .of_eq rfl

theorem mem_events_of_change {event : Event} (change : Change platform pre step peer after)
    (h : event ∈ events peer.log) : event ∈ events after.log := by
  obtain ⟨new, hlog, -⟩ := change_log change
  rw [hlog, events, List.map_append]
  exact List.mem_append_right _ h

/-! ## The end of a connection -/

theorem changes_quiet (h : Quiet peer after) : Changes platform pre step peer after :=
  .single (.quiet h)

theorem scheduleReconnect_quiet (peer : Peer) : Quiet peer peer.scheduleReconnect := by
  unfold scheduleReconnect
  split
  · exact { Quiet.refl peer with }
  · exact .refl peer

theorem relayError_quiet (error : String) (peer : Peer) : Quiet peer (peer.relayError error) := by
  unfold relayError
  split
  · exact .refl peer
  · have hlabel : Quiet peer { peer with
        error := if peer.error = "" then error else peer.error } := { Quiet.refl peer with }
    exact hlabel.trans (scheduleReconnect_quiet _)

theorem shut_quiet (channel : Channel) (peer : Peer) : Quiet peer (peer.shut channel) := by
  cases channel with
  | relay => exact { Quiet.refl peer with log := .cons rfl }
  | link socket =>
      exact { Quiet.refl peer with
        log := .cons rfl }

theorem Completed.mono {log more : List Entry} {id : String} (h : Completed log id)
    (hgrows : ∀ event, event ∈ events log → event ∈ events more) : Completed more id := by
  obtain ⟨result, transport, cause, hmem⟩ := h
  exact ⟨result, transport, cause, hgrows _ hmem⟩

/-- An id leaves the table only when it is completed. -/
theorem known_of_change {id : String} (change : Change platform pre step peer after)
    (h : Known peer id) : Known after id := by
  rcases h with hmem | hcompleted
  -- a request that leaves the table is completed by the same change
  · have htake : ∀ {cause other result}, other ∈ peer.requests →
        Known (peer.take cause other result) id := by
      intro cause other result hother
      obtain ⟨request, hrequest⟩ := Table.mem_iff_lookup.1 hother
      rw [take_of_lookup hrequest]
      by_cases hsame : id = other
      · subst hsame
        exact .inr ⟨_, _, _, List.mem_cons_self⟩
      · exact .inl (AList.mem_erase.2 ⟨hsame, hmem⟩)
    cases change with
    | quiet hquiet => exact .inl (hquiet.requests ▸ hmem)
    | take result hother => exact htake hother
    | answer result hrequest => exact htake (Table.mem_of_lookup hrequest)
    | recreate hnone =>
        rw [index_of_not_mem hnone]
        exact .inl ((AList.mem_insert _).2 (.inr hmem))
    | hand => exact .inl (Table.mem_modify.2 hmem)
    | handSent => exact .inl (Table.mem_modify.2 hmem)
    | request peerId payload =>
        simp only [Peer.request]
        split
        · exact .inl hmem
        · exact .inl ((AList.mem_insert _).2 (.inr hmem))
    | ticket =>
        simp only [ticketMessage]
        split <;> exact .inl hmem
    | _ => exact .inl hmem
  · exact .inr (hcompleted.mono fun _ => mem_events_of_change change)

theorem index_changes {id : String} (hknown : Known peer id) :
    Changes platform pre step peer (peer.index id) := by
  by_cases hmem : id ∈ peer.requests
  · rw [index, if_pos hmem]
  · exact .single (.recreate hmem (hknown.resolve_left hmem))

/-- A walk over a snapshot of the requests. -/
theorem walk_changes {round : Peer → String → Peer} {P : Peer → Prop}
    (hkeeps : ∀ peer after, Change platform pre step peer after → P peer → P after)
    (h : ∀ peer id, Known peer id → P peer → Changes platform pre step peer (round peer id))
    {keys : List String} (hkeys : keys.Perm peer.requests.keys) (hpeer : P peer) :
    Changes platform pre step peer (keys.foldl round peer) := by
  refine Relation.ReflTransGen.foldl_of
    (P := fun peer => (∀ id ∈ keys, Known peer id) ∧ P peer) ?_ keys
    (fun peer id hid hwalk => h peer id (hwalk.1 id hid) hwalk.2) ⟨fun id hid => ?_, hpeer⟩
  · exact fun peer after change hwalk =>
      ⟨fun id hid => known_of_change change (hwalk.1 id hid), hkeeps peer after change hwalk.2⟩
  · exact .inl (AList.mem_keys.2 (hkeys.mem_iff.1 hid))

theorem mem_index (id : String) (peer : Peer) : id ∈ (peer.index id).requests := by
  by_cases hmem : id ∈ peer.requests
  · rwa [index, if_pos hmem]
  · rw [index_of_not_mem hmem]
    exact (AList.mem_insert _).2 (.inl rfl)

theorem plain_ofList {text : String} {fields : List (String × Json)} (htext : text ≠ "request")
    (hfields : "ticket" ∉ fields.map Prod.fst) :
    Plain (.ofList (("type", .string text) :: fields)) := by
  refine ⟨htext, ?_⟩
  unfold JsonObject.contains JsonObject.ofList
  rw [Option.isSome_eq_false_iff, Option.isNone_iff_eq_none, List.lookup_eq_none_iff]
  intro field hfield
  rcases List.mem_cons.1 (List.mem_filter.1 hfield).1 with rfl | hmem
  · exact bne_iff_ne.2 (by simp)
  · rw [bne_iff_ne]
    rintro heq
    exact hfields (heq ▸ List.mem_map_of_mem hmem)

theorem handle_changes (world : World) {channel : Channel} {id peerId : String}
    (payload : JsonObject)
    (hserves : pre.ready = true → Serves pre step id peerId channel) :
    Changes platform pre step pre (pre.handle world channel id peerId payload).1 := by
  unfold handle
  split
  · exact .refl
  next hready =>
  refine .single (.serve payload (hserves ?_))
  by_contra hnone
  exact hready (.inl hnone)

section
variable {world : World} {finish : Finish}

/-- Completing a request without a response is a sequence of changes. -/
def Finishes (platform : Platform) (pre : Peer) (step : Step) (finish : Finish) : Prop :=
  ∀ id result peer, Changes platform pre step peer (finish none id result peer)

variable (hfinish : Finishes platform pre step finish)
include hfinish

theorem finishAll_changes (result : JsonObject) (peer : Peer) :
    Changes platform pre step peer (peer.finishAll world finish result) :=
  Relation.ReflTransGen.foldl (fun peer id => hfinish id result peer) _ peer

theorem relayLost_changes (peer : Peer) :
    Changes platform pre step peer ((peer.emit .relayLost).relayLost world finish) :=
  .head .relayLost ((finishAll_changes hfinish ..).trans
    (changes_quiet (scheduleReconnect_quiet _)))

theorem relayFinished_changes (error : String) (peer : Peer) :
    Changes platform pre step peer (peer.relayFinished world finish error) := by
  unfold relayFinished
  split
  · exact .refl
  · have hclosed : Quiet peer { peer with relay := .closed } := { Quiet.refl peer with }
    dsimp only
    split
    · exact .head (.quiet hclosed) (relayLost_changes hfinish _)
    · exact .head (.quiet (hclosed.trans (relayError_quiet ..))) (relayLost_changes hfinish _)

theorem lost_changes (socket : Socket) (peer : Peer) :
    Changes platform pre step peer (peer.lost world finish socket) := by
  unfold lost
  cases hlink : peer.links.lookup socket with
  | none => exact .refl
  | some link =>
      have hround : ∀ (peer : Peer) id, Known peer id → True →
          Changes platform pre step peer (lostRound finish socket peer id) := by
        intro peer id hknown _
        refine (index_changes hknown).trans ?_
        dsimp only [lostRound]
        split
        · exact hfinish ..
        · exact .refl
      refine .head (.unlink hlink) ?_
      dsimp only
      generalize peer.unlink socket link = peer
      refine (walk_changes (fun _ _ _ _ => trivial) hround
        (world.requestOrder_perm peer.log.length peer.requests.keys) trivial).trans ?_
      split
      · exact changes_quiet { Quiet.refl _ with }
      · exact .refl

theorem linkFinished_changes (socket : Socket) (peer : Peer) :
    Changes platform pre step peer (peer.linkFinished world finish socket) := by
  have hfinished : Quiet peer { peer with opened := peer.opened.filter (· ≠ socket) } :=
    { Quiet.refl peer with }
  refine .head (.quiet hfinished) ?_
  unfold linkFinished
  dsimp only
  split
  · exact lost_changes hfinish ..
  · exact .refl

theorem dropped_changes (channel : Channel) (peer : Peer) :
    Changes platform pre step peer (peer.dropped world finish channel) := by
  cases channel with
  | relay => exact relayFinished_changes hfinish ..
  | link socket => exact linkFinished_changes hfinish ..

/-- What is sent is accepted, or the channel is closed or lost. -/
theorem send_changes_of {channel : Channel} {message : JsonObject}
    (haccepted : Change platform pre step peer (peer.emit (.sent channel message))) :
    Changes platform pre step peer (peer.send world finish channel message).1 := by
  unfold send
  split
  · exact .refl
  · split
    · exact .single haccepted
    · exact changes_quiet (shut_quiet ..)
    · exact dropped_changes hfinish ..

/-- Sending anything but a request or a ticket. -/
theorem send_changes (channel : Channel) {message : JsonObject}
    (hplain : Plain message) (peer : Peer) :
    Changes platform pre step peer (peer.send world finish channel message).1 := by
  have hsent : Quiet peer (peer.emit (.sent channel message)) := { Quiet.refl peer with
    log := .cons (by simp [Event.plain, hplain.1, hplain.2]) }
  exact send_changes_of hfinish (.quiet hsent)

theorem closeLink_changes (socket : Socket) (peer : Peer) :
    Changes platform pre step peer (peer.closeLink world finish socket) := by
  unfold closeLink
  split
  · exact linkFinished_changes hfinish ..
  · exact changes_quiet (shut_quiet ..)

/-! ## Requests -/

/-- A request is marked and sent, or marked only. -/
theorem hand_changes {channel : Channel} {id : String} {request : Pending}
    (hrequest : peer.requests.lookup id = some request) (hunsent : request.transport = "")
    (hflushing : .flushing channel request.peer ∈ events peer.log) :
    Changes platform pre step peer ((peer.hand id channel request).send world finish channel
      (requestOver channel id request.peer request.payload)).1 := by
  have hhand : Change platform pre step peer (peer.hand id channel request) :=
    .hand hrequest hunsent hflushing
  unfold send
  split
  · exact .single hhand
  · split
    · exact .single (.handSent hrequest hunsent hflushing)
    · exact .head hhand (changes_quiet (shut_quiet ..))
    · exact .head hhand (dropped_changes hfinish ..)

theorem flushRound_changes {channel : Channel} {peerId id : String} (hknown : Known peer id)
    (hflushing : .flushing channel peerId ∈ events peer.log) :
    Changes platform pre step peer (flushRound world finish channel peerId peer id) := by
  have hindex : Changes platform pre step peer (peer.index id) := index_changes hknown
  have hstill : .flushing channel peerId ∈ events (peer.index id).log :=
    hindex.invariant (I := fun state : Peer => .flushing channel peerId ∈ events state.log)
      (fun _ _ => mem_events_of_change) hflushing
  obtain ⟨request, hrequest⟩ := Table.mem_iff_lookup.1 (mem_index id peer)
  refine hindex.trans ?_
  unfold flushRound
  dsimp only
  rw [Table.value_of_lookup hrequest]
  split
  · exact .refl
  next hwanted =>
  obtain ⟨rfl, hunsent⟩ : request.peer = peerId ∧ request.transport = "" := by
    simpa using hwanted
  have hhanded : Changes platform pre step (peer.index id)
      (((peer.index id).hand id channel request).send world finish channel
        (requestOver channel id request.peer request.payload)).1 :=
    hand_changes hfinish hrequest hunsent hstill
  split
  · exact hhanded.trans (hfinish ..)
  · exact hhanded

theorem flush_changes {channel : Channel} {peerId : String}
    (hflushes : Flushes peer peerId channel) :
    Changes platform pre step peer (peer.flush world finish channel peerId) := by
  refine .head (.flushing hflushes) ?_
  exact walk_changes (P := fun peer => .flushing channel peerId ∈ events peer.log)
    (fun _ _ => mem_events_of_change) (fun _ _ => flushRound_changes hfinish)
    (world.requestOrder_perm ..) List.mem_cons_self

theorem flushLocal_changes {socket : Socket}
    (hreason : ∀ link, peer.links.lookup socket = some link →
      link.outgoing = true ∨ ∃ name, peer.outbound.lookup name = some socket) :
    Changes platform pre step peer (peer.flushLocal world finish socket) := by
  unfold flushLocal
  cases hlink : peer.links.lookup socket with
  | none => exact .refl
  | some link =>
      dsimp only
      split
      · exact .refl
      next hauthenticated =>
      rw [not_not] at hauthenticated
      exact flush_changes hfinish ⟨link, hlink, hauthenticated, rfl, hreason link hlink⟩

theorem startRequest_changes (id : String) (peer : Peer) :
    Changes platform pre step peer (peer.startRequest world finish id) := by
  unfold startRequest
  cases peer.requests.lookup id with
  | none => exact .refl
  | some request =>
      dsimp only
      split
      · exact hfinish ..
      split
      · exact hfinish ..
      next hlists =>
      rw [not_not] at hlists
      cases hopen : peer.openLink request.peer with
      | some socket =>
          have hfound : peer.outbound.lookup request.peer = some socket :=
            (Option.filter_eq_some_iff.1 hopen).1
          exact flushLocal_changes hfinish fun _ _ => .inr ⟨_, hfound⟩
      | none =>
          dsimp only
          split
          · exact flush_changes hfinish (.inl hlists)
          split
          · exact .refl
          · refine .head (.await hlists) (send_changes hfinish .relay ?_ _)
            exact plain_ofList (by simp) (by simp)

/-! ## Links -/

theorem nextLocal_changes (peerId : String) (peer : Peer) :
    Changes platform pre step peer (peer.nextLocal platform world finish peerId) := by
  unfold nextLocal
  split
  · exact .refl
  next hready =>
  have hconnecting : peerId ∈ peer.connecting := by
    by_contra hnone
    exact hready (.inr (.inr hnone))
  dsimp only
  -- without an endpoint left the requests take the relay
  cases hattempt : peer.attempts.lookup peerId with
  | none =>
      have hurls : (Table.value peer.attempts peerId).urls = [] := by
        unfold Table.value
        rw [hattempt]
        rfl
      rw [hurls]
      exact flush_changes hfinish (.inr hconnecting)
  | some attempt =>
      rw [Table.value_of_lookup hattempt]
      cases hurls : attempt.urls with
      | nil => exact flush_changes hfinish (.inr hconnecting)
      | cons text rest =>
          dsimp only
          split
          · exact flush_changes hfinish (.inr hconnecting)
          split
          · exact .head (.dial hconnecting hattempt) (lost_changes hfinish ..)
          · next hpinned =>
              refine .single (.reach hconnecting hattempt (by simp [hurls]) fun hscheme => ?_)
              by_contra hfalse
              exact hpinned ⟨hscheme, hfalse⟩

theorem linkConnected_changes {socket : Socket} {fingerprint : String}
    (hinput : step.input = .linkConnected socket fingerprint) :
    Changes platform pre step pre (pre.linkConnected world finish socket fingerprint) := by
  unfold linkConnected
  cases hurl : pre.dialling.lookup socket with
  | none => exact .refl
  | some url =>
      refine .head (.connected socket) ?_
      dsimp only
      split
      · exact .refl
      · next hattached =>
        rw [not_not] at hattached
        have hopened : ∀ peer : Peer, Quiet peer { peer with opened := socket :: peer.opened } :=
          fun peer => { Quiet.refl peer with }
        refine .head (.quiet (hopened _)) ?_
        cases hlink : pre.links.lookup socket with
        | none => exact .refl
        | some link =>
            dsimp only
            split
            · exact linkFinished_changes hfinish ..
            · next hpinned =>
                refine send_changes_of hfinish
                  (.greeted hinput hattached hurl hlink fun hscheme => ?_)
                by_contra hother
                exact hpinned ⟨hscheme, hother⟩

theorem greet_changes {socket : Socket} {link : Link} {message : JsonObject}
    (hheard : Heard pre step socket link message) (hgreets : link.authenticated = false) :
    Changes platform pre step pre (pre.greet world finish socket link message) := by
  unfold greet
  dsimp only
  split
  · next hwelcome =>
      refine .head (.welcome hheard hgreets hwelcome.1) (flushLocal_changes hfinish ?_)
      intro own hown
      rcases Table.lookup_modify_eq_some.1 hown with ⟨-, old, hold, rfl⟩ | ⟨hne, -⟩
      · have hsame : old = link := Option.some.inj (hold.symm.trans hheard.stored)
        exact .inl (hsame ▸ hwelcome.1)
      · exact absurd rfl hne
  cases hticket : pre.tickets.lookup (message.value "ticket").toString with
  | none => exact closeLink_changes hfinish ..
  | some ticket =>
      dsimp only
      split
      · next hpresents =>
          obtain ⟨hincoming, hhello, hready, hlater⟩ := hpresents
          refine .head (.present hheard hgreets (by simpa using hincoming) hhello rfl hready
            hticket hlater) (send_changes hfinish _ (plain_ofList (by simp) (by simp)) _)
      · exact closeLink_changes hfinish ..

/-- Completing a request by a response. -/
def Responds (platform : Platform) (pre : Peer) (step : Step) (finish : Finish) : Prop :=
  ∀ channel id request result, pre.requests.lookup id = some request →
    Answers pre step id request channel →
    Changes platform pre step pre (finish (some channel) id result pre)

theorem exchange_changes (hresponds : Responds platform pre step finish) {socket : Socket}
    {link : Link} {message : JsonObject} (hheard : Heard pre step socket link message)
    (hauthenticated : link.authenticated = true) :
    Changes platform pre step pre (pre.exchange world finish socket link message) := by
  unfold exchange
  dsimp only
  split
  · exact closeLink_changes hfinish ..
  next hopen =>
  push Not at hopen
  split
  · next hrequest =>
      obtain ⟨htype, hincoming, -, -⟩ := hrequest
      refine (handle_changes _ _ fun hready => ?_).trans
        (send_changes hfinish _ (plain_ofList (by simp) (by simp)) _)
      exact ⟨link, message, hheard, htype, rfl, rfl, hauthenticated, by simpa using hincoming,
        hready, hopen.2⟩
  split
  · next hresponse =>
      obtain ⟨-, houtgoing, hmem, hsocket⟩ := hresponse
      obtain ⟨request, hrequest⟩ := Table.mem_iff_lookup.1 hmem
      rw [Table.value_of_lookup hrequest] at hsocket
      exact hresponds _ _ _ _ hrequest
        ⟨link, message, hheard, rfl, hauthenticated, houtgoing, hsocket⟩
  · exact closeLink_changes hfinish ..

theorem linkText_changes (hresponds : Responds platform pre step finish) {socket : Socket}
    {message : JsonObject} (hinput : step.input = .linkText socket message) :
    Changes platform pre step pre (pre.linkText world finish socket message) := by
  unfold linkText
  split
  · exact .refl
  next hattached =>
  rw [not_not] at hattached
  cases hlink : pre.links.lookup socket with
  | none => exact .refl
  | some link =>
      have hheard : Heard pre step socket link message := ⟨hinput, hattached, hlink⟩
      dsimp only
      split
      · next hgreets => exact greet_changes hfinish hheard (by simpa using hgreets)
      · next hauthenticated =>
          exact exchange_changes hfinish hresponds hheard (by simpa using hauthenticated)

/-! ## Messages of the relay -/

theorem authenticate_changes (peer : Peer) :
    Changes platform pre step peer (peer.authenticate world finish) :=
  send_changes hfinish _ (plain_ofList (by simp) (by simp)) _

theorem peersMessage_changes {message : JsonObject} (htold : Told pre step "peers" message) :
    Changes platform pre step pre (pre.peersMessage world finish message) := by
  have hround : ∀ active (peer : Peer) socket,
      Changes platform pre step peer (peersRound world finish active peer socket) := by
    intro active peer socket
    unfold peersRound
    dsimp only
    by_cases hmem : socket ∈ peer.links
    · rw [if_pos hmem]
      split
      · exact lost_changes hfinish ..
      · exact .refl
    · rw [if_neg hmem]
      refine .head (.phantom hmem) ?_
      split
      · exact lost_changes hfinish ..
      · exact .refl
  exact .head (.directory htold) (Relation.ReflTransGen.foldl (hround _) _ _)

theorem message_changes (hresponds : Responds platform pre step finish) {message : JsonObject}
    (hinput : step.input = .relayText message) :
    Changes platform pre step pre (pre.message platform step.world finish message) := by
  unfold Peer.message
  dsimp only
  split
  · have hnamed : Quiet pre { pre with account := (message.value "accountId").toString } :=
      { Quiet.refl pre with }
    exact .head (.quiet hnamed) (send_changes hfinish _ (plain_ofList (by simp) (by simp)) _)
  split
  · next htype => exact .single (.ready hinput htype)
  split
  · exact changes_quiet { Quiet.refl pre with }
  split
  · exact .refl
  -- the messages below are heard by a registered peer only
  next hready =>
  rw [not_not] at hready
  split
  · exact changes_quiet { Quiet.refl pre with
      log := .cons rfl }
  split
  · next htype => exact peersMessage_changes hfinish ⟨hinput, htype, hready⟩
  split
  · next htype => exact .single (.ticket ⟨hinput, htype, hready⟩)
  split
  · unfold connectMessage
    dsimp only
    split
    · exact .refl
    · next htype hconnecting =>
        rw [not_not] at hconnecting
        exact .head (.prepare ⟨hinput, htype, hready⟩ hconnecting) (nextLocal_changes hfinish ..)
  split
  · next htype =>
      refine (handle_changes _ _ fun _ => ?_).trans
        (send_changes hfinish _ (plain_ofList (by simp) (by simp)) _)
      exact ⟨message, ⟨hinput, htype, hready⟩, rfl, rfl⟩
  split
  · next hresponse =>
      obtain ⟨htype, hmem, htransport⟩ := hresponse
      obtain ⟨request, hrequest⟩ := Table.mem_iff_lookup.1 hmem
      rw [Table.value_of_lookup hrequest] at htransport
      exact hresponds .relay _ _ _ hrequest ⟨message, ⟨hinput, htype, hready⟩, rfl, htransport⟩
  · exact .refl

/-! ## Timers and public functions -/

theorem sweep_changes (peer : Peer) :
    Changes platform pre step peer (peer.sweep world finish) := by
  have hrequest : ∀ now (peer : Peer) id, Known peer id → True →
      Changes platform pre step peer (sweepRequest finish now peer id) := by
    intro now peer id hknown _
    refine (index_changes hknown).trans ?_
    dsimp only [sweepRequest]
    split
    · exact hfinish ..
    · exact .refl
  have hticket : ∀ now (peer : Peer) text,
      Changes platform pre step peer (sweepTicket now peer text) := by
    intro now peer text
    unfold sweepTicket
    split
    · exact .single (.dropTicket text)
    · exact .refl
  have hlink : ∀ now (peer : Peer) socket,
      Changes platform pre step peer (sweepLink world finish now peer socket) := by
    intro now peer socket
    dsimp only [sweepLink]
    split
    · exact lost_changes hfinish ..
    · exact .refl
  exact (walk_changes (fun _ _ _ _ => trivial) (hrequest _) (world.requestOrder_perm ..)
    trivial).trans
    ((Relation.ReflTransGen.foldl (hticket _) _ _).trans
      (Relation.ReflTransGen.foldl (hlink _) _ _))

theorem openRelay_changes (peer : Peer) :
    Changes platform pre step peer (peer.openRelay world finish) := by
  unfold openRelay
  split
  · exact .refl
  · exact (relayFinished_changes hfinish "" peer).trans
      (changes_quiet { Quiet.refl _ with })

theorem relayConnected_changes (peer : Peer) :
    Changes platform pre step peer (peer.relayConnected world finish) := by
  unfold relayConnected
  split
  · exact .refl
  · have hconnected : Quiet peer { peer with relay := .connected } := { Quiet.refl peer with }
    exact .head (.quiet hconnected) ((authenticate_changes hfinish _).trans
      (changes_quiet { Quiet.refl _ with }))

theorem stop_changes (peer : Peer) :
    Changes platform pre step peer (peer.stop world finish) := by
  have hhalted : Quiet peer { peer with
      running := false
      retry := false
      authTimer := false
      timer := false
      server := none } := { Quiet.refl peer with }
  have hunready : ∀ peer : Peer, Quiet peer { peer with ready := false } :=
    fun peer => { Quiet.refl peer with ready := by simp }
  have hrelay : ∀ peer : Peer, Changes platform pre step peer
      (peer.relayFinished world finish "") := relayFinished_changes hfinish ""
  have hrequests : ∀ peer : Peer, Changes platform pre step peer
      (peer.finishAll world finish (errorObject "stopped")) := finishAll_changes hfinish _
  unfold stop
  refine .head (.quiet hhalted) (.head .reset (.head (.quiet (hunready _)) ?_))
  refine (hrelay _).trans ((hrequests _).trans ?_)
  exact changes_quiet { Quiet.refl _ with directory := .inr rfl }

theorem act_changes (action : Action) (peer : Peer) :
    Changes platform pre step peer (peer.act platform world finish action) := by
  cases action with
  | stop => exact stop_changes hfinish peer
  | request peerId payload => exact .single (.request peerId payload)

theorem acts_changes (actions : List Action) (peer : Peer) :
    Changes platform pre step peer (actions.foldl (act platform world finish) peer) :=
  Relation.ReflTransGen.foldl (fun peer action => act_changes hfinish action peer) actions peer

theorem refuse_changes {id : String} (hmem : id ∈ peer.refusals) :
    Changes platform pre step peer (peer.refuse platform world finish id) :=
  .head (.refuse hmem) (acts_changes hfinish ..)

theorem start_changes (options : Options) (handler : Bool) (listener : Except String ℕ)
    (peer : Peer) :
    Changes platform pre step peer
      (peer.start platform world finish options handler listener) := by
  have hlabel : ∀ (peer : Peer) (error : String), Quiet peer { peer with error := error } :=
    fun peer _ => { Quiet.refl peer with }
  have hset : ∀ peer : Peer, Quiet peer { peer with
      options := options, handler := handler, fatal := false, backoff := 1000 } :=
    fun peer => { Quiet.refl peer with }
  have hrun : ∀ (peer : Peer) (server : Option ℕ), Quiet peer { peer with
      server := server, running := true, timer := true } := fun peer _ => { Quiet.refl peer with }
  have hstop : Changes platform pre step peer (peer.stop world finish) := stop_changes hfinish peer
  unfold start
  refine hstop.trans (.head (.quiet (hlabel _ "")) ?_)
  generalize { peer.stop world finish with error := "" } = peer
  dsimp only
  split
  · exact changes_quiet (hlabel _ _)
  · refine .head (.quiet (hset _)) ?_
    split
    · cases listener with
      | error error => exact changes_quiet (hlabel _ _)
      | ok port => exact .head (.quiet (hrun _ (some port))) (openRelay_changes hfinish _)
    · exact .head (.quiet (hrun _ _)) (openRelay_changes hfinish _)

theorem askPairing_changes {text : String} (htext : text ≠ "request")
    {fields : List (String × Json)} (hfields : "ticket" ∉ fields.map Prod.fst) (peer : Peer) :
    Changes platform pre step peer
      (peer.askPairing platform world finish (("type", .string text) :: fields)) := by
  have hnumbered : Quiet peer { peer with uuids := peer.uuids + 1 } :=
    { Quiet.refl peer with uuids := Nat.le_succ _ }
  refine .head (.quiet hnumbered) ?_
  unfold askPairing
  dsimp only
  split
  · refine send_changes hfinish _ ?_ _
    rw [List.cons_append]
    exact plain_ofList htext (by simpa using hfields)
  · exact changes_quiet { Quiet.refl _ with }

end

/-! ## The event loop -/

/-- Slots nest, and each of them is a sequence of changes. -/
theorem finish_changes (world : World) (depth : ℕ) :
    Finishes platform pre step (Peer.finish platform world depth) := by
  induction depth with
  | zero =>
      intro id result peer
      by_cases hmem : id ∈ peer.requests
      · exact .single (.take result hmem)
      · simp only [Peer.finish, Peer.take, AList.lookup_eq_none.2 hmem]
        exact .refl
  | succ depth ih =>
      intro id result peer
      simp only [Peer.finish]
      split
      · next hmem =>
          exact .head (.take result hmem) (acts_changes ih ..)
      · exact .refl

theorem finish_responds (world : World) (depth : ℕ) :
    Responds platform pre step (Peer.finish platform world depth) := by
  intro channel id request result hrequest hanswers
  have htake : Change platform pre step pre (pre.take (some channel) id result) :=
    .answer result hrequest hanswers
  cases depth with
  | zero => exact .single htake
  | succ depth =>
      simp only [Peer.finish]
      rw [if_pos (Table.mem_of_lookup hrequest)]
      exact .head htake (acts_changes (finish_changes world depth) ..)

/-- **One turn of the event loop is a sequence of elementary changes.** -/
theorem next_changes (platform : Platform) (peer : Peer) (step : Step) :
    Changes platform peer step peer (next platform peer step) := by
  have hfinish : Finishes platform peer step
      (Peer.finish platform step.world step.world.depth) := finish_changes _ _
  have hresponds : Responds platform peer step
      (Peer.finish platform step.world step.world.depth) := finish_responds _ _
  unfold next
  dsimp only
  generalize Peer.finish platform step.world step.world.depth = finish at *
  cases hinput : step.input with
  | clock time => exact .single (.clock time hinput)
  | start => exact start_changes hfinish ..
  | stop => exact stop_changes hfinish peer
  -- One change: the table takes the request or refuses it.
  | request peerId payload => exact .single (.request peerId payload)
  | refreshPeers =>
      dsimp only [refreshPeers]
      split
      · exact send_changes hfinish _ (plain_ofList (by simp) (by simp)) _
      · exact .refl
  | createPairingOffer => exact askPairing_changes hfinish (by simp) (by simp) peer
  | claimPairingOffer => exact askPairing_changes hfinish (by simp) (by simp) peer
  | confirmPairing =>
      dsimp only [confirmPairing]
      split
      · exact send_changes hfinish _ (plain_ofList (by simp) (by simp)) _
      · exact .refl
  | cancelPairing =>
      dsimp only [cancelPairing]
      split
      · exact send_changes hfinish _ (plain_ofList (by simp) (by simp)) _
      · exact .refl
  | relayConnected => exact relayConnected_changes hfinish peer
  | relayText message =>
      dsimp only
      split
      · exact message_changes hfinish hresponds hinput
      · exact .refl
  | relayFinished error => exact relayFinished_changes hfinish error peer
  | newConnection =>
      dsimp only [newConnection]
      split
      · exact .refl
      split
      · exact changes_quiet { Quiet.refl peer with sockets := Nat.le_succ _ }
      · exact .single .takeIn
  | linkConnected socket fingerprint => exact linkConnected_changes hfinish hinput
  | linkText socket message => exact linkText_changes hfinish hresponds hinput
  | linkBinary socket =>
      dsimp only
      split
      · exact closeLink_changes hfinish ..
      · exact .refl
  | linkFinished socket => exact linkFinished_changes hfinish ..
  | sweep =>
      dsimp only
      split
      · exact sweep_changes hfinish peer
      · exact .refl
  | retry =>
      -- The timer is single shot: it is off before the relay is opened again.
      dsimp only
      split
      · refine .head (.quiet ?_) (openRelay_changes hfinish _)
        exact { Quiet.refl peer with }
      · exact .refl
  | authTimer =>
      dsimp only
      split
      · exact authenticate_changes hfinish peer
      · exact .refl
  | startRequest id =>
      dsimp only
      split
      · refine .head (.quiet ?_) (startRequest_changes hfinish id _)
        exact { Quiet.refl peer with }
      · exact .refl
  | refuse id =>
      dsimp only
      split
      · next hmem => exact refuse_changes hfinish hmem
      · exact .refl
  | nextLocal peerId =>
      dsimp only
      split
      · refine .head (.quiet ?_) (nextLocal_changes hfinish peerId _)
        exact { Quiet.refl peer with }
      · exact .refl
  | notice id =>
      dsimp only
      split
      · exact changes_quiet { Quiet.refl peer with
          log := .cons rfl }
      · exact .refl

end Peer

end ServerHost
