import ServerHost.Lan.Host

/-!
# The client side of a LAN peer

`LanPeer::Private` as far as a client uses it: the link that was scanned, the
socket to the host and what was agreed on it, and the handlers of `LanPeer.cpp`,
function by function.  Hosting calls `stop` first and touches nothing else here.

`log` is the history of what the client received and did, newest first.
-/

namespace ServerHost

namespace LanClient

inductive Phase where
  | idle | connecting | verifying | confirming | paired | error
  deriving DecidableEq

/-- What the client receives and does.  `opened` and `connected` are the two ends
of a connection attempt, `verified` is a proof of the host that the verifier
accepted. -/
inductive Event where
  | opened (socket : Socket) (address : String) (port : ℕ)
  | connected (socket : Socket)
  | received (socket : Socket) (message : JsonObject)
  | sent (socket : Socket) (message : JsonObject)
  | closed (socket : Socket)
  | verified (socket : Socket) (context : String) (proof : JsonObject)
  | paired (socket : Socket) (hostId : String)
  | completed (id : String) (result : JsonObject)

structure Entry where
  time : ℤ
  event : Event

/-- The events of a history. -/
def events (log : List Entry) : List Event := log.map Entry.event

@[simp] theorem events_cons (entry : Entry) (log : List Entry) :
    events (entry :: log) = entry.event :: events log := rfl

/-- What `request` leaves for the next turn: a refusal, or the message. -/
inductive Task where
  | refuse (id : String)
  | send (id : String) (payload : JsonObject)

end LanClient

open LanClient in
structure LanClient where
  now : ℤ
  client : Option Socket := none
  signer : Bool := false
  verifier : Bool := false
  authentication : String := ""
  authenticated : Bool := false
  joining : LanLink := {}
  phase : Phase := .idle
  error : String := ""
  peerName : String := ""
  clientId : String := ""
  clientName : String := ""
  connectionError : String := ""
  verificationCode : String := ""
  clientNonce : String := ""
  deadline : DateTime := ⊥
  connectDeadline : DateTime := ⊥
  addressIndex : ℕ := 0
  clientPaired : Bool := false
  helloSent : Bool := false
  requests : Table String DateTime := ∅
  /-- The property `iish.binary` of the socket. -/
  binary : Bool := false
  /-- The socket is open but no longer connected. -/
  closing : Bool := false
  tasks : List Task := []
  sockets : ℕ := 0
  uuids : ℕ := 0
  randoms : ℕ := 0
  log : List Entry := []

namespace LanClient

/-- What becomes of a message on a connected socket: it leaves, it is too much and
the socket is closed, or the socket fails with an error. -/
inductive Delivery where
  | left | full | broke (text : String)

/-- What the socket and the callbacks answer while an input is handled. -/
structure World where
  delivery : JsonObject → Delivery
  sign : String → JsonObject
  verify : String → JsonObject → Bool

def emit (event : Event) (client : LanClient) : LanClient :=
  { client with log := ⟨client.now, event⟩ :: client.log }

/-! ## Giving up

`completed` may be connected to slots that call the client again.  Every handler that
emits it takes a `report` that does so; that of a client without such slots is `plain`. -/

/-- How `completed` is emitted: an id and the result. -/
abbrev Report := String → JsonObject → LanClient → LanClient

/-- `completed` without a slot. -/
def plain : Report := fun id result client => client.emit (.completed id result)

/-- `completed` for all requests, which are given up. -/
def complete (code : String) (report : Report := plain) (client : LanClient) : LanClient :=
  client.requests.keys.foldl (fun client id => report id (errorObject code) client)
    { client with requests := ∅ }

/-- `fail`. -/
def fail (message : String) (report : Report := plain) (client : LanClient) : LanClient :=
  { client with
    error := message
    phase := .error
    joining := { client.joining with code := "" }
    clientPaired := false
    client := none }.complete "connection_lost" report

/-- `pinCertificate`: the digits come back from the bytes they are read as exactly
when there are 64 of them, all lower-case. -/
def pinCertificate (fingerprint : String) : Bool := hexToken fingerprint

/-- `openAddress`. -/
def openAddress (report : Report := plain) (client : LanClient) : LanClient :=
  match client.joining.addresses[client.addressIndex]? with
  | none => { client with client := none }.fail ("Cannot reach the desktop. Use the same Wi-Fi " ++
      "or LAN and allow Society in the firewall. " ++ client.connectionError) report
  | some address =>
      let socket := client.sockets
      let client := { client with client := some socket, sockets := socket + 1 }
      if ¬ pinCertificate client.joining.fingerprint then
        client.fail "Invalid desktop certificate fingerprint." report
      else
        { client with
          helloSent := false
          binary := false
          closing := false
          addressIndex := client.addressIndex + 1
          connectDeadline := DateTime.addSecs client.now 4 }.emit
            (.opened socket address client.joining.port)

/-- The slot for `errorOccurred`. -/
def errorOccurred (text : String) (report : Report := plain) (client : LanClient) : LanClient :=
  let client := { client with connectionError := text }
  if ¬ client.helloSent then client.openAddress report
  else client.fail "The local connection failed. Scan a new QR code." report

/-- `send`, with the value it returns. -/
def send (world : World) (message : JsonObject) (report : Report := plain)
    (client : LanClient) : LanClient × Bool :=
  match client.client with
  | none => (client, false)
  | some socket =>
      if client.closing then (client, false)
      else match world.delivery message with
        | .left => (client.emit (.sent socket message), true)
        | .full => ({ client with closing := true }.emit (.closed socket), false)
        | .broke text => (client.errorOccurred text report, false)

/-! ## A connection -/

variable (platform : Platform) (world : World)

/-- The message that asks for a pairing. -/
def pairMessage (proof : JsonObject) (client : LanClient) : JsonObject :=
  .ofList [("proof", proof.json), ("type", .string "pair"),
    ("host", .string client.joining.hostId), ("code", .string client.joining.code),
    ("peerId", .string client.clientId), ("name", .string client.clientName),
    ("nonce", .string client.clientNonce), ("binary", .double 1)]

/-- What a connection starts with: a nonce, and what depends on it. -/
def greet (socket : Socket) (client : LanClient) : LanClient :=
  let nonce := (platform.random client.randoms).text
  { client with
    helloSent := true
    phase := .verifying
    randoms := client.randoms + 1
    clientNonce := nonce
    verificationCode := client.joining.verification platform client.clientId nonce
    authenticated := false
    authentication := client.joining.authenticationContext platform client.clientId nonce }.emit
      (.connected socket)

/-- The client's own proof; empty when there is no signer. -/
def proof (client : LanClient) : JsonObject :=
  if client.signer then world.sign ("client\n" ++ client.authentication) else ⟨[]⟩

/-- The slot for `connected`.  `fingerprint` is that of the certificate of the host. -/
def connected (socket : Socket) (fingerprint : String) (report : Report := plain)
    (client : LanClient) : LanClient :=
  if fingerprint ≠ client.joining.fingerprint then
    client.fail "The desktop certificate does not match the QR code." report
  else
    let client := client.greet platform socket
    let proof := client.proof world
    if (client.signer ∨ client.verifier) ∧
        (¬ client.signer ∨ ¬ client.verifier ∨ proof.isEmpty) then
      client.fail "Account authentication required." report
    else
      let client := (client.send world (client.pairMessage proof) report).1
      { client with joining := { client.joining with code := "" } }

/-- The message by which the client agrees. -/
def confirmMessage : JsonObject := .ofList [("type", .string "confirm")]

/-- The branch of `clientMessage` for `ready`. -/
def readyMessage (message : JsonObject) (report : Report := plain) (client : LanClient) :
    LanClient :=
  let client := { client with phase := .verifying }
  if ¬ LanPeer.opensFiles (message.value "files").toObject then
    client.fail "The desktop could not open its Files. Pairing was not completed." report
  else (client.send world confirmMessage report).1

/-- The branch of `clientMessage` for `paired`. -/
def pairedMessage (socket : Socket) (message : JsonObject) (report : Report := plain)
    (client : LanClient) : LanClient :=
  if (client.signer ∨ client.verifier) ∧ ¬ client.authenticated then
    client.fail "Host account authentication required." report
  else
    { client with
      clientPaired := true
      phase := .paired
      peerName := (message.value "name").toString
      binary := (message.value "binary").isOne }.emit (.paired socket client.joining.hostId)

/-- The branch of `clientMessage` for `response`. -/
def responseMessage (message : JsonObject) (report : Report := plain) (client : LanClient) :
    LanClient :=
  let id := (message.value "id").toString
  if id ∉ client.requests then client
  else report id (message.value "result").toObject
    { client with requests := client.requests.erase id }

/-- The part of `clientMessage` after the proofs. -/
def answerMessage (socket : Socket) (message : JsonObject) (report : Report := plain)
    (client : LanClient) : LanClient :=
  let type := messageType message
  let named : Bool := (message.value "host").toString = client.joining.hostId
  if type = "verify" ∧ client.phase = .verifying ∧ named then
    { client with phase := .confirming, deadline := DateTime.addSecs client.now 60 }
  else if type = "ready" ∧ (client.phase = .verifying ∨ client.phase = .confirming) ∧ named then
    client.readyMessage world message report
  else if type = "paired" ∧ client.phase = .verifying ∧ named then
    client.pairedMessage socket message report
  else if type = "response" ∧ client.clientPaired then client.responseMessage message report
  else client.fail "The desktop returned an invalid local pairing response." report

/-- `clientMessage`. -/
def clientMessage (socket : Socket) (message : JsonObject) (report : Report := plain)
    (client : LanClient) : LanClient :=
  let client := client.emit (.received socket message)
  let type := messageType message
  let proof := (message.value "proof").toObject
  if type = "error" then
    client.fail ((message.value "error").toString "Pairing failed. Scan a new QR code.") report
  else if (type = "verify" ∨ type = "ready") ∧ (client.signer ∨ client.verifier) then
    if ¬ client.verifier ∨ ¬ world.verify ("host\n" ++ client.authentication) proof then
      client.fail "Host account authentication failed." report
    else
      ({ client with authenticated := true }.emit
        (.verified socket client.authentication proof)).answerMessage world socket message report
  else client.answerMessage world socket message report

/-- The slot for binary messages, after `BinaryFrame::decode`. -/
def binaryMessage (socket : Socket) (message : JsonObject) (report : Report := plain)
    (client : LanClient) : LanClient :=
  if ¬ client.clientPaired ∨ ¬ client.binary then client.fail "Unnegotiated binary frame." report
  else client.clientMessage world socket message report

/-! ## The clock -/

/-- One round of the loop of `sweep` over the requests.  The deadline of an id that is
gone is an invalid date. -/
def sweepRequest (now : ℤ) (report : Report := plain) (client : LanClient) (id : String) :
    LanClient :=
  if (client.requests.lookup id).getD ⊥ ≤ (now : DateTime) then
    report id (errorObject "timeout") { client with requests := client.requests.erase id }
  else client

/-- `sweep`. -/
def sweep (report : Report := plain) (client : LanClient) : LanClient :=
  let now := client.now
  let client :=
    if client.client.isSome ∧ ¬ client.clientPaired then
      if client.deadline ≤ client.now then
        client.fail "Pairing timed out. Check the local network and scan a new QR code." report
      else if ¬ client.helloSent ∧ client.connectDeadline ≤ client.now then
        client.openAddress report
      else client
    else client
  client.requests.keys.foldl (sweepRequest now report) client

/-! ## The public functions -/

/-- `stop`. -/
def stop (report : Report := plain) (client : LanClient) : LanClient :=
  { client with
    client := none
    clientPaired := false
    joining := {}
    error := ""
    peerName := ""
    verificationCode := ""
    clientNonce := ""
    phase := .idle
    connectionError := "" }.complete "stopped" report

/-- `join`. -/
def join (read : String → LanLink.Query) (qr peerId name : String) (report : Report := plain)
    (client : LanClient) : LanClient :=
  let client := client.stop report
  match LanLink.decode platform read qr with
  | none => client.fail "This is not a valid, current local Society QR code." report
  | some link =>
      if link.expiresAt ≤ client.now ∨ ¬ identifier peerId ∨ name = "" ∨ size name > 128 then
        client.fail "This is not a valid, current local Society QR code." report
      else
        { client with
          joining := link
          clientId := peerId
          clientName := name
          phase := .connecting
          deadline := DateTime.addSecs client.now 15
          addressIndex := 0 }.openAddress report

/-- `cancelPairing`. -/
def cancelPairing (client : LanClient) : LanClient :=
  { client with
    verificationCode := ""
    client := if client.clientPaired then client.client else none
    phase := if client.clientPaired then .paired else .idle
    error := "" }

/-- `verificationCode`. -/
def shownCode (client : LanClient) : String :=
  if client.phase = .confirming then client.verificationCode else ""

/-- `request`. -/
def request (host : String) (payload : JsonObject) (client : LanClient) : LanClient :=
  let id := platform.uuid client.uuids
  let client := { client with uuids := client.uuids + 1 }
  if ¬ client.clientPaired ∨ host ≠ client.joining.hostId ∨ client.requests.keys.length ≥ 32 ∨
      (toUtf8 (platform.compact payload.json)).length > wireLimit - 1024 then
    { client with tasks := client.tasks ++ [.refuse id] }
  else
    { client with
      requests := client.requests.insert id (DateTime.addSecs client.now 15)
      tasks := client.tasks ++ [.send id payload] }

/-- What `request` left for the next turn. -/
def runTask (task : Task) (report : Report := plain) (client : LanClient) : LanClient :=
  match task with
  | .refuse id => report id (errorObject "not_connected_or_busy") client
  | .send id payload =>
      if id ∉ client.requests then client
      else
        let (client, sent) := client.send world (.ofList
          [("type", .string "request"), ("id", .string id), ("payload", payload.json)]) report
        if sent then client else client.fail "The local connection closed." report

/-! ## The machine -/

inductive Input where
  | clock (time : ℤ)
  | join (qr peerId name : String)
  | setPairingAuthentication (signer verifier : Bool)
  | connected (socket : Socket) (fingerprint : String)
  | text (socket : Socket) (message : JsonObject)
  | binary (socket : Socket) (message : JsonObject)
  | closed (socket : Socket)
  | errorOccurred (socket : Socket) (text : String)
  | disconnected (socket : Socket)
  | sweep
  | cancelPairing
  | stop
  | request (host : String) (payload : JsonObject)
  | task
  | rehash (requests : Table String DateTime)

/-- An input, with the answers of the socket and the callbacks while it is handled. -/
structure Step where
  input : Input
  world : World

/-- The slots are connected to the current socket only. -/
def onSocket (socket : Socket) (slot : LanClient → LanClient) (client : LanClient) : LanClient :=
  if client.client = some socket then slot client else client

/-- One turn of the event loop. -/
def next (read : String → LanLink.Query) (client : LanClient) (step : Step)
    (report : Report := plain) : LanClient :=
  match step.input with
  | .clock time => { client with now := time }
  | .join qr peerId name => client.join platform read qr peerId name report
  | .setPairingAuthentication signer verifier =>
      { client.stop report with signer := signer, verifier := verifier }
  | .connected socket fingerprint =>
      client.onSocket socket (connected platform step.world socket fingerprint report)
  | .text socket message =>
      client.onSocket socket (clientMessage step.world socket message report)
  | .binary socket message =>
      client.onSocket socket (binaryMessage step.world socket message report)
  | .closed socket => client.onSocket socket fun client => { client with closing := true }
  | .errorOccurred socket text => client.onSocket socket (errorOccurred text report)
  | .disconnected socket => client.onSocket socket
      (fail "The desktop disconnected. Scan a new QR code to reconnect." report)
  | .sweep => client.sweep report
  | .cancelPairing => client.cancelPairing
  | .stop => client.stop report
  | .request host payload => client.request platform host payload
  | .task =>
      match client.tasks with
      | [] => client
      | task :: rest => { client with tasks := rest }.runTask step.world task report
  | .rehash requests => { client with requests := requests }

/-- The client as a machine.  It starts as constructed, at any time. -/
def machine (read : String → LanLink.Query) : Machine LanClient Step where
  init client := ∃ time, client = { now := time }
  next client step := next platform read client step

/-- A socket connects once.  Rehashing keeps the entries. -/
def Feasible (client : LanClient) (step : Step) : Prop :=
  match step.input with
  | .connected .. => client.helloSent = false
  | .rehash requests => Table.Same client.requests requests
  | _ => True

end LanClient

end ServerHost
