import ServerHost.Peer.State

/-!
# The handlers of a peer

`Peer::Private` and the public functions of `Peer`, function by function.  They
call each other through the slots of the application: `completed` runs a slot,
which may call `stop` or `request` before `finish` returns.  So each function
takes the `finish` it calls as an argument, and `finish depth` is the one whose
slots nest at most `depth` deep.
-/

namespace ServerHost

namespace Peer

/-- How a request is completed; the channel is that of the response, if one
causes it. -/
abbrev Finish := Option Channel → String → JsonObject → Peer → Peer

variable (platform : Platform) (world : World) (finish : Finish)

/-! ## The end of a connection -/

/-- `scheduleReconnect`. -/
def scheduleReconnect (peer : Peer) : Peer :=
  if peer.running ∧ ¬ peer.fatal ∧ ¬ peer.retry then
    { peer with retry := true, backoff := min (peer.backoff * 2) 30000 }
  else peer

/-- `resetLocal`.  The sockets of the links are disconnected from the peer. -/
def resetLocal (peer : Peer) : Peer :=
  { peer with
    links := ∅
    outbound := ∅
    attempts := ∅
    connecting := []
    tickets := ∅
    attached := peer.attached.filter (· ∉ peer.links)
    opened := peer.opened.filter (· ∉ peer.links) }

/-- The loop that finishes every request. -/
def finishAll (result : JsonObject) (peer : Peer) : Peer :=
  (world.requestOrder peer.log.length peer.requests.keys).foldl
    (fun peer id => finish none id result peer) peer

/-- What the loss of the relay changes first. -/
def relayDown (peer : Peer) : Peer :=
  { peer with authTimer := false, ready := false, directory := [], account := "" }

/-- The slot connected to `disconnected` of the relay socket. -/
def relayLost (peer : Peer) : Peer :=
  (peer.relayDown.resetLocal.finishAll world finish
    (errorObject "connection_lost")).scheduleReconnect

/-- The slot connected to `errorOccurred` of the relay socket. -/
def relayError (error : String) (peer : Peer) : Peer :=
  if ¬ peer.running then peer
  else { peer with error := if peer.error = "" then error else peer.error }.scheduleReconnect

/-- The relay socket is finished, with an error or without.  It emits `errorOccurred`, if there
is an error, and then `disconnected`, which the log notes. -/
def relayFinished (error : String) (peer : Peer) : Peer :=
  if peer.relay = .closed then peer
  else
    let peer := { peer with relay := .closed }
    ((if error = "" then peer else peer.relayError error).emit .relayLost).relayLost world finish

/-- One round of the loop of `lost`. -/
def lostRound (socket : Socket) (peer : Peer) (id : String) : Peer :=
  let peer := peer.index id
  if (Table.value peer.requests id).socket = some socket then
    finish none id (errorObject "connection_lost") peer
  else peer

/-- The link leaves the table, and the signals of its socket are disconnected. -/
def unlink (socket : Socket) (link : Link) (peer : Peer) : Peer :=
  { peer with
    links := peer.links.erase socket
    outbound := if peer.outbound.lookup link.peer = some socket then
        peer.outbound.erase link.peer
      else peer.outbound
    attached := peer.attached.filter (· ≠ socket)
    opened := peer.opened.filter (· ≠ socket) }.emit (.unlinked socket)

/-- `lost`. -/
def lost (socket : Socket) (peer : Peer) : Peer :=
  match peer.links.lookup socket with
  | none => peer
  | some link =>
      let peer := peer.unlink socket link
      let peer := (world.requestOrder peer.log.length peer.requests.keys).foldl
        (lostRound finish socket) peer
      if link.outgoing ∧ ¬ link.authenticated then
        { peer with redials := peer.redials ++ [link.peer] }
      else peer

/-- The socket of a link is finished. -/
def linkFinished (socket : Socket) (peer : Peer) : Peer :=
  let peer := { peer with opened := peer.opened.filter (· ≠ socket) }
  if socket ∈ peer.attached then peer.lost world finish socket else peer

/-- A socket is finished inside a call. -/
def dropped (channel : Channel) (peer : Peer) : Peer :=
  match channel with
  | .relay => peer.relayFinished world finish "WebSocket output capacity exceeded"
  | .link socket => peer.linkFinished world finish socket

/-- `send`, with the value it returns. -/
def send (channel : Channel) (message : JsonObject) (peer : Peer) : Peer × Bool :=
  if ¬ peer.writable channel then (peer, false)
  else match world.send peer.log.length with
    | .accepted => (peer.emit (.sent channel message), true)
    | .closing => (peer.shut channel, false)
    | .lost accepted => (peer.dropped world finish channel, accepted)

/-- `WebSocket::close` on a link. -/
def closeLink (socket : Socket) (peer : Peer) : Peer :=
  if socket ∉ peer.opened ∨ world.finishes peer.log.length then
    peer.linkFinished world finish socket
  else peer.shut (.link socket)

/-! ## Requests -/

/-- The message that carries a request to the relay. -/
def remoteMessage (id peerId : String) (payload : JsonObject) : JsonObject :=
  .ofList [("type", .string "request"), ("id", .string id), ("peerId", .string peerId),
    ("payload", payload.json)]

/-- The message that carries a request over a link. -/
def localMessage (id : String) (payload : JsonObject) : JsonObject :=
  .ofList [("type", .string "request"), ("id", .string id), ("payload", payload.json)]

/-- The message that carries a request over a channel. -/
def requestOver (channel : Channel) (id peerId : String) (payload : JsonObject) : JsonObject :=
  match channel with
  | .relay => remoteMessage id peerId payload
  | .link _ => localMessage id payload

/-- The request, marked with its transport. -/
def Pending.over (channel : Channel) (request : Pending) : Pending :=
  match channel with
  | .relay => { request with transport := "remote" }
  | .link socket => { request with transport := "local", socket := some socket }

/-- The request gets its transport, before anything is sent. -/
def hand (id : String) (channel : Channel) (request : Pending) (peer : Peer) : Peer :=
  { peer with requests := Table.modify id (Pending.over channel) peer.requests }.emit
    (.handed id channel request.payload)

/-- One round of the loops of `remote` and `local`. -/
def flushRound (channel : Channel) (peerId : String) (peer : Peer) (id : String) : Peer :=
  let peer := peer.index id
  let request := Table.value peer.requests id
  if request.peer ≠ peerId ∨ request.transport ≠ "" then peer
  else
    let (peer, sent) := (peer.hand id channel request).send world finish channel
      (requestOver channel id peerId request.payload)
    if ¬ sent then finish none id (errorObject "connection_lost") peer else peer

/-- The first lines of `remote` and `local`. -/
def flushing (channel : Channel) (peerId : String) (peer : Peer) : Peer :=
  { peer with
    connecting := peer.connecting.filter (· ≠ peerId)
    attempts := peer.attempts.erase peerId }.emit (.flushing channel peerId)

/-- `remote` and `local`, from there on: they offer the channel to every request. -/
def flush (channel : Channel) (peerId : String) (peer : Peer) : Peer :=
  let peer := peer.flushing channel peerId
  (world.requestOrder peer.log.length peer.requests.keys).foldl
    (flushRound world finish channel peerId) peer

/-- `remote`. -/
def remote (peerId : String) (peer : Peer) : Peer := peer.flush world finish .relay peerId

/-- `local`. -/
def flushLocal (socket : Socket) (peer : Peer) : Peer :=
  match peer.links.lookup socket with
  | none => peer
  | some link =>
      if ¬ link.authenticated then peer
      else peer.flush world finish (.link socket) link.peer

/-- The link on which a request of `peerId` can leave at once. -/
def openLink (peer : Peer) (peerId : String) : Option Socket :=
  (peer.outbound.lookup peerId).filter fun socket =>
    match peer.links.lookup socket with
    | none => false
    | some link => link.authenticated && (peer.now : DateTime) < link.expires

/-- `startRequest`. -/
def startRequest (id : String) (peer : Peer) : Peer :=
  match peer.requests.lookup id with
  | none => peer
  | some request =>
      let peerId := request.peer
      if ¬ peer.ready then finish none id (errorObject "not_connected") peer
      else if ¬ peer.lists peerId then finish none id (errorObject "host_unavailable") peer
      else match peer.openLink peerId with
        | some socket => peer.flushLocal world finish socket
        | none =>
            if ¬ peer.options.localEnabled then peer.remote world finish peerId
            else if peerId ∈ peer.connecting then peer
            else
              ({ peer with connecting := peerId :: peer.connecting }.send world finish .relay
                (.ofList [("type", .string "connect"), ("peerId", .string peerId)])).1

/-! ## Direct links -/

/-- The four bytes of an IPv4 address, as one number. -/
def hostNumber (address : Address) : ℕ :=
  address.bytes.foldl (fun value byte => value * 256 + byte) 0

/-- Whether all host bits of an IPv4 address are one. -/
def broadcast (address : Address) (prefixLength : ℕ) : Bool :=
  let host := hostNumber address
  let mask := 0xffffffff >>> prefixLength
  host &&& mask = mask

/-- `onLink`. -/
def onLink (peer : Peer) (url : Url) : Bool :=
  match platform.address url.host with
  | none => false
  | some address =>
      if address.multicast ∨ address.unspecified ∨ address.text = "255.255.255.255" then false
      else if address.loopback then
        loopback platform (platform.url peer.options.relayUrl).host
      else world.interfaces.any fun entry =>
        match platform.address entry.address with
        | none => false
        | some own =>
            entry.prefixLength ≠ 0 && platform.inSubnet own entry.prefixLength address &&
              !(address.ipv4 && entry.prefixLength < 32 && broadcast address entry.prefixLength)

/-- A socket for the next URL of the attempt, and its link. -/
def dial (peerId : String) (attempt : Attempt) (peer : Peer) : Peer :=
  let link : Link := {
    peer := peerId
    ticket := attempt.ticket
    fingerprint := attempt.fingerprint
    expires := attempt.expires
    deadline := DateTime.addMSecs peer.now peer.options.localTimeoutMs
    outgoing := true }
  { peer with
    attempts := peer.attempts.insert peerId { attempt with urls := attempt.urls.tail }
    sockets := peer.sockets + 1
    links := peer.links.insert peer.sockets link
    outbound := peer.outbound.insert peerId peer.sockets }.emit (.dialled peer.sockets peerId)

/-- The signals of a dialled socket are connected, and it is opened.  Its TLS is pinned
before. -/
def attach (socket : Socket) (url : Url) (fingerprint : String) (peer : Peer) : Peer :=
  { peer with
    attached := socket :: peer.attached
    dialling := peer.dialling.insert socket url
    pins := if url.scheme = "wss" then peer.pins.insert socket fingerprint else peer.pins }

/-- `nextLocal`. -/
def nextLocal (peerId : String) (peer : Peer) : Peer :=
  if ¬ peer.running ∨ ¬ peer.ready ∨ peerId ∉ peer.connecting then peer
  else
    let attempt := Table.value peer.attempts peerId
    match attempt.urls with
    | [] => peer.remote world finish peerId
    | text :: _ =>
        if attempt.expires ≤ peer.now then peer.remote world finish peerId
        else
          let url := platform.url text
          let socket := peer.sockets
          let peer := peer.dial peerId attempt
          if url.scheme = "wss" ∧ ¬ hexToken attempt.fingerprint then
            peer.lost world finish socket
          else peer.attach socket url attempt.fingerprint

/-- The message that presents the ticket of a link. -/
def helloMessage (ticket : String) : JsonObject :=
  .ofList [("type", .string "hello"), ("ticket", .string ticket)]

/-- The slot connected to `connected` of a dialled socket, whose certificate has
the given fingerprint. -/
def linkConnected (socket : Socket) (fingerprint : String) (peer : Peer) : Peer :=
  match peer.dialling.lookup socket with
  | none => peer
  | some url =>
      let peer := { peer with dialling := peer.dialling.erase socket }
      if socket ∉ peer.attached then peer
      else
        let peer := { peer with opened := socket :: peer.opened }
        match peer.links.lookup socket with
        | none => peer
        | some link =>
            if url.scheme = "wss" ∧ fingerprint ≠ link.fingerprint then
              peer.linkFinished world finish socket
            else (peer.send world finish (.link socket) (helloMessage link.ticket)).1

/-- `handle`, with the answer. -/
def handle (channel : Channel) (id peerId : String) (payload : JsonObject) (peer : Peer) :
    Peer × JsonObject :=
  if ¬ peer.ready ∨ ¬ peer.options.hostFiles ∨ ¬ peer.handler then
    (peer, errorObject "not_hosting")
  else (peer.emit (.handled channel id peerId payload),
    (world.handle peerId payload).getD (errorObject "host_error"))

/-- An inbound link presents a ticket. -/
def present (socket : Socket) (text : String) (ticket : Ticket) (peer : Peer) : Peer :=
  { peer with
    tickets := peer.tickets.erase text
    links := Table.modify socket (fun link => { link with
      peer := ticket.peer
      expires := ticket.expires
      authenticated := true }) peer.links }.emit (.presented socket ticket.serial)

/-- The response to a request. -/
def responseMessage (id : Json) (result : JsonObject) : JsonObject :=
  .ofList [("type", .string "response"), ("id", id), ("result", result.json)]

/-- The other side accepts the ticket of a dialled link. -/
def welcome (socket : Socket) (peer : Peer) : Peer :=
  { peer with
    links := Table.modify socket (fun link => { link with authenticated := true }) peer.links }

/-- The slot connected to `textMessageReceived` of a link, while the link is not
authenticated. -/
def greet (socket : Socket) (link : Link) (message : JsonObject) (peer : Peer) : Peer :=
  let text := (message.value "ticket").toString
  if link.outgoing ∧ messageType message = "hello" ∧ (message.value "ok").toBool then
    (peer.welcome socket).flushLocal world finish socket
  else match peer.tickets.lookup text with
    | none => peer.closeLink world finish socket
    | some ticket =>
        if ¬ link.outgoing ∧ messageType message = "hello" ∧ peer.ready ∧
            (peer.now : DateTime) < ticket.expires then
          ((peer.present socket text ticket).send world finish (.link socket)
            (.ofList [("type", .string "hello"), ("ok", .bool true)])).1
        else peer.closeLink world finish socket

/-- The same, once it is. -/
def exchange (socket : Socket) (link : Link) (message : JsonObject) (peer : Peer) : Peer :=
  let id := (message.value "id").toString
  if ¬ peer.ready ∨ link.expires ≤ peer.now then peer.closeLink world finish socket
  else if messageType message = "request" ∧ ¬ link.outgoing ∧ identifier id ∧
      (message.value "payload").isObject then
    let (peer, result) := peer.handle world (.link socket) id link.peer
      (message.value "payload").toObject
    (peer.send world finish (.link socket) (responseMessage (message.value "id") result)).1
  else if messageType message = "response" ∧ link.outgoing ∧ id ∈ peer.requests ∧
      (Table.value peer.requests id).socket = some socket then
    finish (some (.link socket)) id (message.value "result").toObject peer
  else peer.closeLink world finish socket

/-- The slot connected to `textMessageReceived` of a link. -/
def linkText (socket : Socket) (message : JsonObject) (peer : Peer) : Peer :=
  if socket ∉ peer.attached then peer
  else match peer.links.lookup socket with
    | none => peer
    | some link =>
        if ¬ link.authenticated then peer.greet world finish socket link message
        else peer.exchange world finish socket link message

/-- An inbound socket and its link. -/
def takeIn (peer : Peer) : Peer :=
  { peer with
    sockets := peer.sockets + 1
    links := peer.links.insert peer.sockets { deadline := DateTime.addSecs peer.now 5 }
    attached := peer.sockets :: peer.attached
    opened := peer.sockets :: peer.opened }

/-- The slot connected to `newConnection`. -/
def newConnection (peer : Peer) : Peer :=
  if peer.server.isNone then peer
  else if peer.links.keys.length ≥ 64 then { peer with sockets := peer.sockets + 1 }
  else peer.takeIn

/-! ## Messages of the relay -/

/-- `authenticate`. -/
def authenticate (peer : Peer) : Peer :=
  (peer.send world finish .relay (.ofList [("type", .string "auth"),
    ("credential", .string peer.options.credential)])).1

/-- `localUrls`. -/
def localUrls (peer : Peer) : List String :=
  match peer.server with
  | none => []
  | some port =>
      let addresses := if ¬ peer.options.localAddresses.isEmpty then peer.options.localAddresses
        else if peer.options.listenLoopback then [peer.options.listenAddress]
        else (world.interfaces.filter fun entry => !entry.loopback && entry.ipv4).map
          Interface.address
      addresses.map fun address =>
        platform.linkUrl (if peer.options.identity then "wss" else "ws") address port

/-- The branch of `message` for `authenticated`. -/
def register (message : JsonObject) (peer : Peer) : Peer :=
  let options := peer.options
  ({ peer with account := (message.value "accountId").toString }.send world finish .relay
    (.ofList [("type", .string "register"), ("peerId", .string options.peerId),
      ("name", .string options.name), ("service", .string options.service),
      ("host", .bool options.hostFiles), ("metadata", options.metadata.json),
      ("localUrls", .array ((peer.localUrls platform world).map .string)),
      ("fingerprint", .string options.fingerprint)])).1

/-- One round of the loop over the links in the branch for `peers`. -/
def peersRound (active : List String) (peer : Peer) (socket : Socket) : Peer :=
  let peer := if socket ∈ peer.links then peer
    else { peer with links := peer.links.insert socket {} }
  let link := Table.value peer.links socket
  if link.peer ∉ active ∧ link.outgoing then peer.lost world finish socket else peer

/-- The branch of `message` for `peers`. -/
def peersMessage (message : JsonObject) (peer : Peer) : Peer :=
  let peer := { peer with directory := (message.value "peers").toArray }
  let active := peer.directory.map fun entry => (entry.toObject.value "peerId").toString
  (world.linkOrder peer.log.length peer.links.keys).foldl (peersRound world finish active) peer

/-- The branch of `message` for `ticket`. -/
def ticketMessage (message : JsonObject) (peer : Peer) : Peer :=
  let text := (message.value "ticket").toString
  let peerId := (message.value "peerId").toString
  let expires : DateTime := toLongLong (message.value "expires").toString
  if peer.tickets.keys.length ≥ 128 then peer
  else
    { peer with
      tickets := peer.tickets.insert text ⟨peerId, expires, peer.serials⟩
      serials := peer.serials + 1 }.emit (.ticket peer.serials text peerId expires)

/-- The URLs of a descriptor. -/
def descriptorUrls (message : JsonObject) : List Url :=
  (((message.value "descriptor").toObject.value "localUrls").toArray.map fun value =>
    platform.url value.toString)

/-- The attempt that a descriptor allows. -/
def offered (message : JsonObject) (peer : Peer) : Attempt :=
  let info := (message.value "descriptor").toObject
  let urls := (descriptorUrls platform message).filter fun url =>
    endpoint platform url "wss" "ws" && peer.onLink platform world url
  { urls := urls.map Url.text
    ticket := (message.value "ticket").toString
    fingerprint := (info.value "fingerprint").toString
    expires := (toLongLong (message.value "expires").toString : ℤ) }

/-- The branch of `message` for `connect`. -/
def connectMessage (message : JsonObject) (peer : Peer) : Peer :=
  let peerId := (message.value "peerId").toString
  if peerId ∉ peer.connecting then peer
  else { peer with
    attempts := peer.attempts.insert peerId (peer.offered platform world message) }.nextLocal
      platform world finish peerId

/-- The branch of `message` for `request`. -/
def requestMessage (message : JsonObject) (peer : Peer) : Peer :=
  let (peer, result) := peer.handle world .relay (message.value "id").toString
    (message.value "peerId").toString (message.value "payload").toObject
  (peer.send world finish .relay (responseMessage (message.value "id") result)).1

/-- `message`. -/
def message (message : JsonObject) (peer : Peer) : Peer :=
  let type := messageType message
  let id := (message.value "id").toString
  if type = "authenticated" then peer.register platform world finish message
  else if type = "registered" then { peer with ready := true, backoff := 1000, error := "" }
  else if type = "error" then
    { peer with error := (message.value "error").toString, fatal := true }
  else if ¬ peer.ready then peer
  else if type = "pairing" then peer.emit (.pairing message)
  else if type = "peers" then peer.peersMessage world finish message
  else if type = "ticket" then peer.ticketMessage message
  else if type = "connect" then peer.connectMessage platform world finish message
  else if type = "request" then peer.requestMessage world finish message
  else if type = "response" ∧ id ∈ peer.requests ∧
      (Table.value peer.requests id).transport = "remote" then
    finish (some .relay) id (message.value "result").toObject peer
  else peer

/-! ## Timers -/

/-- One round of the first loop of `sweep`. -/
def sweepRequest (now : ℤ) (peer : Peer) (id : String) : Peer :=
  let peer := peer.index id
  if (Table.value peer.requests id).deadline ≤ now then
    finish none id (errorObject "timeout") peer
  else peer

/-- One round of the second loop of `sweep`. -/
def sweepTicket (now : ℤ) (peer : Peer) (text : String) : Peer :=
  if (Table.value peer.tickets text).expires ≤ now then
    { peer with tickets := peer.tickets.erase text }
  else peer

/-- One round of the third loop of `sweep`. -/
def sweepLink (now : ℤ) (peer : Peer) (socket : Socket) : Peer :=
  let link := Table.value peer.links socket
  if (link.authenticated ∧ link.expires ≤ now) ∨ (¬ link.authenticated ∧ link.deadline ≤ now) then
    peer.lost world finish socket
  else peer

/-- `sweep`. -/
def sweep (peer : Peer) : Peer :=
  let now := peer.now
  let peer := (world.requestOrder peer.log.length peer.requests.keys).foldl
    (sweepRequest finish now) peer
  let peer := peer.tickets.keys.foldl (sweepTicket now) peer
  (world.linkOrder peer.log.length peer.links.keys).foldl (sweepLink world finish now) peer

/-- `openRelay`.  Opening the socket ends its earlier connection. -/
def openRelay (peer : Peer) : Peer :=
  if ¬ peer.running then peer
  else { peer.relayFinished world finish "" with relay := .connecting }

/-- The slot connected to `connected` of the relay socket. -/
def relayConnected (peer : Peer) : Peer :=
  if peer.relay ≠ .connecting then peer
  else { { peer with relay := .connected }.authenticate world finish with authTimer := true }

/-! ## The public functions -/

/-- `stop`. -/
def stop (peer : Peer) : Peer :=
  let peer := { peer with
    running := false
    retry := false
    authTimer := false
    timer := false
    server := none }.resetLocal
  let peer := { peer with ready := false }.relayFinished world finish ""
  let peer := peer.finishAll world finish (errorObject "stopped")
  { peer with
    directory := []
    account := ""
    options := { peer.options with credential := "" }
    handler := false }

/-- `request`, with the id it returns. -/
def request (peerId : String) (payload : JsonObject) (peer : Peer) : Peer × String :=
  let id := platform.uuid peer.uuids
  let peer := { peer with uuids := peer.uuids + 1 }
  if peer.requests.keys.length ≥ 32 ∨
      (platform.compact payload.json).utf8ByteSize > wireLimit - 1024 then
    ({ peer with refusals := peer.refusals ++ [id] }.emit (.refused id), id)
  else
    let deadline := DateTime.addMSecs peer.now peer.options.requestTimeoutMs
    ({ peer with
      requests := peer.requests.insert id
        { peer := peerId, payload := payload, deadline := deadline }
      starts := peer.starts ++ [id] }.emit (.requested id peerId payload deadline), id)

/-- One action of a slot. -/
def act (peer : Peer) : Action → Peer
  | .stop => peer.stop world finish
  | .request peerId payload => (peer.request platform peerId payload).1

/-- The request leaves the table and is reported. -/
def take (cause : Option Channel) (id : String) (result : JsonObject) (peer : Peer) : Peer :=
  match peer.requests.lookup id with
  | none => peer
  | some request => { peer with requests := peer.requests.erase id }.emit
      (.completed id result request.transport cause)

end Peer

open Peer in
/-- `finish`, with slots that nest at most `depth` deep. -/
def Peer.finish (platform : Platform) (world : World) : ℕ → Finish
  | 0 => take
  | depth + 1 => fun cause id result peer =>
      if id ∈ peer.requests then
        (world.slot peer.log.length).foldl (act platform world (Peer.finish platform world depth))
          (peer.take cause id result)
      else peer

namespace Peer

variable (platform : Platform) (world : World) (finish : Finish)

/-- The single shot of a refused request. -/
def refuse (id : String) (peer : Peer) : Peer :=
  let peer' := { peer with refusals := peer.refusals.erase id }.emit
    (.completed id (errorObject "request_too_large_or_busy") "" none)
  (world.slot peer.log.length).foldl (act platform world finish) peer'

/-- `start`, for a listener that is bound to a port or fails. -/
def start (options : Options) (handler : Bool) (listener : Except String ℕ) (peer : Peer) :
    Peer :=
  let peer := { peer.stop world finish with error := "" }
  if ¬ endpoint platform (platform.url options.relayUrl) "wss" "ws" ∨ options.credential = "" ∨
      options.credential.utf8ByteSize > 16384 ∨ ¬ identifier options.peerId ∨
      ¬ identifier options.service ∨ size options.name > 128 ∨ options.localTimeoutMs < 50 ∨
      options.localTimeoutMs > 10000 ∨ options.requestTimeoutMs < 100 ∨
      options.requestTimeoutMs > 120000 then
    { peer with error := "Invalid peer identity, credential, URL or timeout." }
  else
    let peer := { peer with
      options := options, handler := handler, fatal := false, backoff := 1000 }
    if options.localEnabled ∧ options.localHostingEnabled ∧ options.hostFiles then
      match listener with
      | .error error => { peer with error := error }
      | .ok port => { peer with server := some port, running := true, timer := true }.openRelay
          world finish
    else { peer with running := true, timer := true }.openRelay world finish

/-- `refreshPeers`. -/
def refreshPeers (peer : Peer) : Peer :=
  if peer.ready then (peer.send world finish .relay (.ofList [("type", .string "list")])).1
  else peer

/-- `createPairingOffer` and `claimPairingOffer`, which differ in the message. -/
def askPairing (fields : List (String × Json)) (peer : Peer) : Peer :=
  let id := platform.uuid peer.uuids
  let peer := { peer with uuids := peer.uuids + 1 }
  if peer.ready then
    (peer.send world finish .relay (.ofList (fields ++ [("id", .string id)]))).1
  else { peer with notices := peer.notices ++ [id] }

/-- `createPairingOffer`. -/
def createPairingOffer (peer : Peer) : Peer :=
  peer.askPairing platform world finish [("type", .string "pair-offer")]

/-- `claimPairingOffer`. -/
def claimPairingOffer (code host : String) (peer : Peer) : Peer :=
  peer.askPairing platform world finish
    [("type", .string "pair-claim"), ("code", .string code), ("host", .string host)]

/-- `confirmPairing`. -/
def confirmPairing (id : String) (peer : Peer) : Peer :=
  if peer.ready then (peer.send world finish .relay
    (.ofList [("type", .string "pair-confirm"), ("pairingId", .string id)])).1
  else peer

/-- `cancelPairing`. -/
def cancelPairing (id : String) (peer : Peer) : Peer :=
  if peer.ready ∧ id ≠ "" then (peer.send world finish .relay
    (.ofList [("type", .string "pair-cancel"), ("id", .string id)])).1
  else peer

/-! ## The machine -/

inductive Input where
  | clock (time : ℤ)
  | start (options : Options) (handler : Bool) (listener : Except String ℕ)
  | stop
  | request (peerId : String) (payload : JsonObject)
  | refreshPeers
  | createPairingOffer
  | claimPairingOffer (code host : String)
  | confirmPairing (id : String)
  | cancelPairing (id : String)
  | relayConnected
  | relayText (message : JsonObject)
  | relayFinished (error : String)
  | newConnection
  | linkConnected (socket : Socket) (fingerprint : String)
  | linkText (socket : Socket) (message : JsonObject)
  | linkBinary (socket : Socket)
  | linkFinished (socket : Socket)
  | sweep
  | retry
  | authTimer
  | startRequest (id : String)
  | refuse (id : String)
  | nextLocal (peerId : String)
  | notice (id : String)

/-- An input, with what happens inside the calls that handle it. -/
structure Step where
  input : Input
  world : World

/-- One turn of the event loop.  A signal that is not connected and a timer that
is not active do nothing. -/
def next (peer : Peer) (step : Step) : Peer :=
  let world := step.world
  let finish := Peer.finish platform world world.depth
  match step.input with
  | .clock time => { peer with now := time }
  | .start options handler listener => peer.start platform world finish options handler listener
  | .stop => peer.stop world finish
  | .request peerId payload => (peer.request platform peerId payload).1
  | .refreshPeers => peer.refreshPeers world finish
  | .createPairingOffer => peer.createPairingOffer platform world finish
  | .claimPairingOffer code host => peer.claimPairingOffer platform world finish code host
  | .confirmPairing id => peer.confirmPairing world finish id
  | .cancelPairing id => peer.cancelPairing world finish id
  | .relayConnected => peer.relayConnected world finish
  | .relayText message =>
      if peer.relay = .connected ∨ peer.relay = .closing then
        peer.message platform world finish message
      else peer
  | .relayFinished error => peer.relayFinished world finish error
  | .newConnection => peer.newConnection
  | .linkConnected socket fingerprint => peer.linkConnected world finish socket fingerprint
  | .linkText socket message => peer.linkText world finish socket message
  | .linkBinary socket =>
      if socket ∈ peer.attached then peer.closeLink world finish socket else peer
  | .linkFinished socket => peer.linkFinished world finish socket
  | .sweep => if peer.timer then peer.sweep world finish else peer
  | .retry =>
      if peer.retry then { peer with retry := false }.openRelay world finish else peer
  | .authTimer => if peer.authTimer then peer.authenticate world finish else peer
  | .startRequest id =>
      if id ∈ peer.starts then
        { peer with starts := peer.starts.erase id }.startRequest world finish id
      else peer
  | .refuse id => if id ∈ peer.refusals then peer.refuse platform world finish id else peer
  | .nextLocal peerId =>
      if peerId ∈ peer.redials then
        { peer with redials := peer.redials.erase peerId }.nextLocal platform world finish peerId
      else peer
  | .notice id =>
      if id ∈ peer.notices then
        { peer with notices := peer.notices.erase id }.emit (.pairing (.ofList
          [("id", .string id), ("status", .string "error"), ("error", .string "not_connected")]))
      else peer

/-- The peer as a machine.  It starts as constructed, at any time. -/
def machine : Machine Peer Step where
  init peer := ∃ time, peer = { now := time }
  next := next platform

end Peer

end ServerHost
