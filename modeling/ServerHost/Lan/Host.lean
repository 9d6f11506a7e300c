import ServerHost.Library.Machine
import ServerHost.Lan.Link

/-!
# The host side of a LAN peer

`LanPeer::Private` as far as a host uses it: the offer on show, the sessions of
the sockets that connected, and the handlers of `LanPeer.cpp`, function by
function.  Joining another host calls `stop` first and touches nothing else here.

`log` is the history of what the host did, newest first.  `serial` numbers the
codes generated so far; the program forgets a code when it is used.
-/

namespace ServerHost

namespace LanPeer

structure Session where
  id : String := ""
  name : String := ""
  paired : Bool := false
  deadline : DateTime := ⊥
  awaitingApproval : Bool := false
  binary : Bool := false
  authentication : String := ""
  deriving Inhabited

inductive Phase where
  | idle | hosting | showing | confirming | verifying | paired | error
  deriving DecidableEq

/-- What the host does.  `handled` is a call of the request handler, `listed` and
`failed` the outcome of the Files check that ends a pairing, `approved` a
`confirmDevice` that returned true. -/
inductive Event where
  | sent (socket : Socket) (message : JsonObject)
  | closed (socket : Socket)
  | generated (serial : ℕ) (code qr : String) (expires : DateTime)
  | withdrawn
  | expired
  | accepted (socket : Socket) (id code : String) (serial : ℕ) (device : Bool)
  | handled (socket : Socket) (peer : String) (payload : JsonObject)
  | listed (socket : Socket)
  | failed (socket : Socket)
  | approved (socket : Socket)
  | paired (socket : Socket) (id : String)
  deriving Inhabited

structure Entry where
  time : ℤ
  event : Event

/-- The events of a history. -/
def events (log : List Entry) : List Event := log.map Entry.event

@[simp] theorem events_cons (entry : Entry) (log : List Entry) :
    events (entry :: log) = entry.event :: events log := rfl

end LanPeer

open LanPeer in
structure LanPeer where
  now : ℤ
  server : Bool := false
  clients : Table Socket Session := ∅
  signer : Bool := false
  verifier : Bool := false
  offer : LanLink := {}
  phase : Phase := .idle
  error : String := ""
  qr : String := ""
  peerName : String := ""
  expectedPeer : String := ""
  verificationCode : String := ""
  /-- The sockets with the property `iish.binary`. -/
  binary : List Socket := []
  closing : List Socket := []
  sockets : ℕ := 0
  serial : ℕ := 0
  log : List Entry := []

namespace LanPeer

/-- What the callbacks answer while an input is handled, and which messages find
a full queue.  A handler that throws answers nothing. -/
structure World where
  full : Socket → JsonObject → Bool
  sign : String → JsonObject
  verify : String → JsonObject → Bool
  handle : String → JsonObject → Option JsonObject

def emit (event : Event) (host : LanPeer) : LanPeer :=
  { host with log := ⟨host.now, event⟩ :: host.log }

/-- `WebSocket::close`. -/
def close (socket : Socket) (host : LanPeer) : LanPeer :=
  { host with closing := socket :: host.closing }.emit (.closed socket)

/-- `send`.  A socket with a full queue is closed. -/
def transmit (full : Socket → JsonObject → Bool) (socket : Socket) (message : JsonObject)
    (host : LanPeer) : LanPeer :=
  if socket ∈ host.closing then host
  else if full socket message then host.close socket
  else host.emit (.sent socket message)

/-- `clients[socket]`, changed in place. -/
def update (socket : Socket) (f : Session → Session) (host : LanPeer) : LanPeer :=
  { host with clients := Table.modify socket f host.clients }

/-- `reject`. -/
def reject (world : World) (socket : Socket) (message : String) (host : LanPeer) : LanPeer :=
  (host.transmit world.full socket
    (.ofList [("type", .string "error"), ("error", .string message)])).close socket

section
variable (event : Event) (socket : Socket) (f : Session → Session) (host : LanPeer)

@[simp] theorem emit_now : (host.emit event).now = host.now := rfl
@[simp] theorem emit_clients : (host.emit event).clients = host.clients := rfl
@[simp] theorem emit_offer : (host.emit event).offer = host.offer := rfl
@[simp] theorem emit_qr : (host.emit event).qr = host.qr := rfl
@[simp] theorem emit_expectedPeer : (host.emit event).expectedPeer = host.expectedPeer := rfl
@[simp] theorem emit_serial : (host.emit event).serial = host.serial := rfl
@[simp] theorem emit_sockets : (host.emit event).sockets = host.sockets := rfl
@[simp] theorem emit_log : (host.emit event).log = ⟨host.now, event⟩ :: host.log := rfl

@[simp] theorem update_now : (host.update socket f).now = host.now := rfl
@[simp] theorem update_offer : (host.update socket f).offer = host.offer := rfl
@[simp] theorem update_qr : (host.update socket f).qr = host.qr := rfl
@[simp] theorem update_expectedPeer : (host.update socket f).expectedPeer = host.expectedPeer := rfl
@[simp] theorem update_serial : (host.update socket f).serial = host.serial := rfl
@[simp] theorem update_sockets : (host.update socket f).sockets = host.sockets := rfl
@[simp] theorem update_log : (host.update socket f).log = host.log := rfl

end

/-! ## `hostMessage` -/

variable (platform : Platform) (world : World)

/-- What the handler returns for one request. -/
def answer (id : String) (payload : JsonObject) : JsonObject :=
  (world.handle id payload).getD (errorObject "host_error")

/-- The request for the top folder that ends a pairing. -/
def listRequest : JsonObject := .ofList [("op", .string "list"), ("path", .string "")]

/-- Whether the answer shows that the Files could be opened. -/
def opensFiles (files : JsonObject) : Bool :=
  (files.value "ok").toBool && (files.value "entries").isArray

/-- The message that ends the host's part of a pairing. -/
def readyMessage (host : LanPeer) (proof files : JsonObject) : JsonObject :=
  .ofList [("proof", proof.json), ("type", .string "ready"), ("host", .string host.offer.hostId),
    ("files", files.json)]

/-- The first check of a `pair` message: the code on show, for this host, by a
device that may use it. -/
def presents (host : LanPeer) (message : JsonObject) : Bool :=
  let id := (message.value "peerId").toString
  let name := (message.value "name").toString
  host.qr ≠ "" && (host.now : DateTime) < host.offer.expiresAt &&
    (message.value "host").toString = host.offer.hostId &&
    sameCode (message.value "code").toString host.offer.code && identifier id &&
    id ≠ host.offer.hostId && name ≠ "" && size name ≤ 128 &&
    (host.expectedPeer = "" ||
      (host.expectedPeer = id && hexToken (message.value "nonce").toString))

/-- The account check of a `pair` message, when authentication is configured. -/
def verifies (host : LanPeer) (message : JsonObject) (authentication : String) : Bool :=
  (!host.signer && !host.verifier) ||
    (host.signer && host.verifier && hexToken (message.value "nonce").toString &&
      world.verify ("client\n" ++ authentication) (message.value "proof").toObject)

/-- The host's own proof; empty when there is no signer. -/
def proofOf (host : LanPeer) (authentication : String) : JsonObject :=
  if host.signer then world.sign ("host\n" ++ authentication) else ⟨[]⟩

/-- The session takes the offer: the code is used up before anything else. -/
def accept (socket : Socket) (message : JsonObject) (host : LanPeer) : LanPeer :=
  let id := (message.value "peerId").toString
  let name := (message.value "name").toString
  let nonce := (message.value "nonce").toString
  let device : Bool := host.expectedPeer ≠ ""
  let host := { host with verificationCode :=
    if device then host.offer.verification platform id nonce else "" }
  let host := { host with offer := { host.offer with code := "" }, qr := "" }
  let host := host.update socket fun session => { session with
    binary := (message.value "binary").isOne
    id := id
    name := name
    deadline := DateTime.addSecs host.now (if device then 60 else 15)
    awaitingApproval := device }
  { host with
    phase := if device then .confirming else .verifying
    peerName := name }.emit
      (.accepted socket id (message.value "code").toString host.serial device)

section
variable (socket : Socket) (message : JsonObject) (host : LanPeer)

@[simp] theorem accept_clients : (host.accept platform socket message).clients =
    Table.modify socket (fun session => { session with
      binary := (message.value "binary").isOne
      id := (message.value "peerId").toString
      name := (message.value "name").toString
      deadline := DateTime.addSecs host.now (if host.expectedPeer ≠ "" then 60 else 15)
      awaitingApproval := decide (host.expectedPeer ≠ "") }) host.clients := by
  simp [accept, update]

@[simp] theorem accept_log : (host.accept platform socket message).log =
    ⟨host.now, .accepted socket (message.value "peerId").toString (message.value "code").toString
      host.serial (decide (host.expectedPeer ≠ ""))⟩ :: host.log := rfl

@[simp] theorem accept_serial : (host.accept platform socket message).serial = host.serial := rfl
@[simp] theorem accept_qr : (host.accept platform socket message).qr = "" := rfl
@[simp] theorem accept_sockets : (host.accept platform socket message).sockets = host.sockets := rfl
@[simp] theorem accept_hostId :
    (host.accept platform socket message).offer.hostId = host.offer.hostId := rfl

end

/-- The branch of `hostMessage` for `pair`. -/
def pairMessage (socket : Socket) (message : JsonObject) (host : LanPeer) : LanPeer :=
  let id := (message.value "peerId").toString
  if ¬ host.presents message then
    host.reject world socket
      "This QR code is expired, cancelled, or already used. Show a new QR code."
  else if host.clients.entries.any fun entry => entry.2.id = id then
    host.reject world socket "This device is already connected."
  else
    let authentication := host.offer.authenticationContext platform id
      (message.value "nonce").toString
    let host := host.update socket fun session => { session with authentication := authentication }
    if ¬ host.verifies world message authentication then
      host.reject world socket "Device account authentication failed."
    else
      let proof := host.proofOf world authentication
      if host.signer ∧ proof.isEmpty then
        host.reject world socket "Host account authentication expired."
      else
        let device : Bool := host.expectedPeer ≠ ""
        let host := host.accept platform socket message
        -- an expected device is approved by the user first, who sees the verification code
        if device then
          host.transmit world.full socket (.ofList [("proof", proof.json),
            ("type", .string "verify"), ("host", .string host.offer.hostId)])
        else
          let files := answer world id listRequest
          let host := host.emit (.handled socket id listRequest)
          if ¬ opensFiles files then
            { host with error := "The desktop could not open its Files.", phase := .error }.emit
              (.failed socket) |>.reject world socket "The desktop could not open its Files."
          else
            (host.emit (.listed socket)).transmit world.full socket (host.readyMessage proof files)

/-- The branch of `hostMessage` for `confirm`. -/
def confirmMessage (socket : Socket) (session : Session) (host : LanPeer) : LanPeer :=
  let host := host.update socket fun session => { session with paired := true }
  let host := { host with phase := .paired }.transmit world.full socket
    (.ofList [("type", .string "paired"), ("host", .string host.offer.hostId),
      ("name", .string host.offer.name), ("binary", .double (if session.binary then 1 else 0))])
  let host := { host with
    binary := if session.binary then socket :: host.binary else host.binary }
  host.emit (.paired socket session.id)

/-- The branch of `hostMessage` for `request`. -/
def requestMessage (socket : Socket) (session : Session) (message : JsonObject)
    (host : LanPeer) : LanPeer :=
  let payload := (message.value "payload").toObject
  (host.emit (.handled socket session.id payload)).transmit world.full socket
    (.ofList [("type", .string "response"), ("id", message.value "id"),
      ("result", (answer world session.id payload).json)])

/-- `hostMessage`. -/
def hostMessage (socket : Socket) (message : JsonObject) (host : LanPeer) : LanPeer :=
  match host.clients.lookup socket with
  | none => host
  | some session =>
      let type := messageType message
      if type = "pair" ∧ session.id = "" then host.pairMessage platform world socket message
      else if type = "confirm" ∧ session.id ≠ "" ∧ ¬ session.paired ∧ ¬ session.awaitingApproval ∧
          (host.now : DateTime) < session.deadline then
        host.confirmMessage world socket session
      else if type = "request" ∧ session.paired ∧ identifier (message.value "id").toString ∧
          (message.value "payload").isObject then
        host.requestMessage world socket session message
      else host.reject world socket "Pair the device before requesting Files."

/-- The slot for binary messages, after `BinaryFrame::decode`. -/
def binaryMessage (socket : Socket) (message : JsonObject) (host : LanPeer) : LanPeer :=
  match host.clients.lookup socket with
  | none => host
  | some session =>
      if ¬ session.paired ∨ socket ∉ host.binary then host.close socket
      else host.hostMessage platform world socket message

/-! ## Connections -/

/-- The slot connected to `newConnection`. -/
def newConnection (address : String) (host : LanPeer) : LanPeer :=
  if ¬ host.server then host
  else
    let socket := host.sockets
    let host := { host with sockets := socket + 1 }
    if host.clients.keys.length ≥ 8 ∨ ¬ LanLink.localAddress platform address then host.close socket
    else
      let session : Session := { deadline := DateTime.addSecs host.now 5 }
      { host with clients := host.clients.insert socket session }

/-- The slot connected to `disconnected`. -/
def disconnected (socket : Socket) (host : LanPeer) : LanPeer :=
  match host.clients.lookup socket with
  | none => host
  | some previous =>
      let host := { host with clients := host.clients.erase socket }
      if previous.id ≠ "" ∧ ¬ previous.paired ∧ host.phase = .verifying then
        { host with phase := .error, error := "Pairing was interrupted. Show a new QR code." }
      else host

/-- One round of the loop of `sweep` over the sockets. -/
def sweepSession (host : LanPeer) (socket : Socket) : LanPeer :=
  let session := Table.value host.clients socket
  if ¬ session.paired ∧ session.deadline ≤ host.now then host.close socket else host

/-- `sweep`. -/
def sweep (host : LanPeer) : LanPeer :=
  let host := if host.qr ≠ "" ∧ host.offer.expiresAt ≤ host.now then
      { host with
        qr := ""
        offer := { host.offer with code := "" }
        phase := .error
        error := "The QR code expired. Show a new code." }.emit .expired
    else host
  host.clients.keys.foldl sweepSession host

/-! ## The public functions -/

/-- One round of the loop of `cancelPairing`. -/
def dropSession (host : LanPeer) (socket : Socket) : LanPeer :=
  if ¬ (Table.value host.clients socket).paired then
    { host with clients := host.clients.erase socket, closing := socket :: host.closing }
  else host

/-- `cancelPairing`. -/
def cancelPairing (host : LanPeer) : LanPeer :=
  let host := { host with
    qr := ""
    offer := { host.offer with code := "" }
    expectedPeer := ""
    verificationCode := "" }
  let host := host.clients.keys.foldl dropSession host
  { host with phase := if host.server then .hosting else .idle, error := "" }

/-- `createOffer`, with the text it returns. -/
def createOffer (lifetimeSeconds : ℤ) (host : LanPeer) : LanPeer × String :=
  if ¬ host.server ∨ lifetimeSeconds < 1 ∨ lifetimeSeconds > 60 then (host, "")
  else
    let host := host.cancelPairing
    let offer := { host.offer with
      code := (platform.random host.serial).text
      expiresAt := DateTime.addSecs host.now lifetimeSeconds }
    let qr := offer.encode platform
    ({ host with error := "", phase := .showing, offer := offer, qr := qr
                 serial := host.serial + 1 }.emit
      (.generated (host.serial + 1) offer.code qr offer.expiresAt), qr)

/-- `createDeviceOffer`. -/
def createDeviceOffer (peerId : String) (lifetimeSeconds : ℤ) (host : LanPeer) :
    LanPeer × String :=
  if ¬ identifier peerId ∨ peerId = host.offer.hostId then (host, "")
  else
    let (host, link) := host.createOffer platform lifetimeSeconds
    (if link ≠ "" then { host with expectedPeer := peerId } else host, link)

/-- The session `confirmDevice` would approve. -/
def awaiting (host : LanPeer) : Option (Sigma fun _ : Socket => Session) :=
  host.clients.entries.find? fun entry =>
    entry.2.awaitingApproval && (host.now : DateTime) < entry.2.deadline

/-- `confirmDevice`, with the value it returns. -/
def confirmDevice (host : LanPeer) : LanPeer × Bool :=
  if host.phase ≠ .confirming then (host, false)
  else match host.awaiting with
    | none => (host, false)
    | some ⟨socket, session⟩ =>
        let host := host.update socket fun session => { session with
          awaitingApproval := false
          deadline := DateTime.addSecs host.now 15 }
        let proof := host.proofOf world session.authentication
        if host.signer ∧ proof.isEmpty then ((host.emit (.failed socket)).close socket, false)
        else
          let files := answer world session.id listRequest
          let host := host.emit (.handled socket session.id listRequest)
          if ¬ opensFiles files then
            ({ host with error := "The desktop could not open its Files.", phase := .error }.emit
              (.failed socket) |>.reject world socket "The desktop could not open its Files.",
              false)
          else
            let host := ({ host with phase := .verifying }.emit (.listed socket)).emit
              (.approved socket)
            (host.transmit world.full socket (host.readyMessage proof files), true)

/-- `stop`. -/
def stop (host : LanPeer) : LanPeer :=
  { host with
    server := false
    closing := host.clients.keys ++ host.closing
    clients := ∅
    offer := {}
    qr := ""
    error := ""
    peerName := ""
    expectedPeer := ""
    verificationCode := ""
    phase := .idle }

/-- `fail`, for a peer without a client socket. -/
def fail (message : String) (host : LanPeer) : LanPeer :=
  { host with error := message, phase := .error, qr := "" }

/-- `startHost`.  `found` are the addresses of the interfaces, `identity` says
whether a TLS identity could be made, and `listener` is the port and fingerprint
or the error of the listener. -/
def startHost (hostId name : String) (handler : Bool) (addresses found : List String)
    (identity : Bool) (listener : Except String (ℕ × String)) (host : LanPeer) : LanPeer :=
  let host := host.stop
  let addresses := if addresses.isEmpty then found else addresses
  if addresses.isEmpty then
    host.fail "Connect this desktop to Wi-Fi or Ethernet before showing a QR code."
  else if ¬ addresses.all (LanLink.localAddress platform) then
    host.fail "A private local IPv4 address is required."
  else if ¬ identifier hostId ∨ name = "" ∨ size name > 128 ∨ ¬ handler then
    host.fail "Invalid local host identity."
  else if ¬ identity then host.fail "Could not create the desktop TLS identity."
  else match listener with
    | .error error => host.fail error
    | .ok (port, fingerprint) =>
        { host with server := true, phase := .hosting
                    offer := { addresses, port, hostId, name, fingerprint } }

/-- `pairedDeviceIds`, for a peer that joined no other host. -/
def pairedDeviceIds (host : LanPeer) : List String :=
  (host.clients.entries.filter fun entry => entry.2.paired).map fun entry => entry.2.id

/-! ## The machine -/

inductive Input where
  | clock (time : ℤ)
  | startHost (hostId name : String) (handler : Bool) (addresses found : List String)
      (identity : Bool) (listener : Except String (ℕ × String))
  | setPairingAuthentication (signer verifier : Bool)
  | newConnection (address : String)
  | text (socket : Socket) (message : JsonObject)
  | binary (socket : Socket) (message : JsonObject)
  | disconnected (socket : Socket)
  | sweep
  | createOffer (lifetimeSeconds : ℤ)
  | createDeviceOffer (peerId : String) (lifetimeSeconds : ℤ)
  | cancelPairing
  | confirmDevice
  | stop
  | rehash (clients : Table Socket Session)

/-- An input, with the answers of the callbacks while it is handled. -/
structure Step where
  input : Input
  world : World

/-- The log is told that `createOffer` takes the offer on show down, before it runs. -/
def hearOffer (lifetimeSeconds : ℤ) (host : LanPeer) : LanPeer :=
  if ¬ host.server ∨ lifetimeSeconds < 1 ∨ lifetimeSeconds > 60 then host
  else host.emit .withdrawn

/-- The same for `createDeviceOffer`. -/
def hearDeviceOffer (peerId : String) (lifetimeSeconds : ℤ) (host : LanPeer) : LanPeer :=
  if ¬ identifier peerId ∨ peerId = host.offer.hostId then host
  else host.hearOffer lifetimeSeconds

/-- One turn of the event loop.  The calls that take the offer on show down are
logged here, before they run. -/
def next (host : LanPeer) (step : Step) : LanPeer :=
  match step.input with
  | .clock time => { host with now := time }
  | .startHost hostId name handler addresses found identity listener =>
      (host.emit .withdrawn).startHost platform hostId name handler addresses found identity
        listener
  | .setPairingAuthentication signer verifier =>
      { (host.emit .withdrawn).stop with signer := signer, verifier := verifier }
  | .newConnection address => host.newConnection platform address
  | .text socket message => host.hostMessage platform step.world socket message
  | .binary socket message => host.binaryMessage platform step.world socket message
  | .disconnected socket => host.disconnected socket
  | .sweep => host.sweep
  | .createOffer lifetimeSeconds =>
      ((host.hearOffer lifetimeSeconds).createOffer platform lifetimeSeconds).1
  | .createDeviceOffer peerId lifetimeSeconds =>
      ((host.hearDeviceOffer peerId lifetimeSeconds).createDeviceOffer platform peerId
        lifetimeSeconds).1
  | .cancelPairing => (host.emit .withdrawn).cancelPairing
  | .confirmDevice => (host.confirmDevice step.world).1
  | .stop => (host.emit .withdrawn).stop
  | .rehash clients => { host with clients := clients }

/-- The host as a machine.  It starts as constructed, at any time. -/
def machine : Machine LanPeer Step where
  init host := ∃ time, host = { now := time }
  next := next platform

/-- Logging an event first makes no difference to `cancelPairing`. -/
theorem cancelPairing_emit (event : Event) (host : LanPeer) :
    (host.emit event).cancelPairing = host.cancelPairing.emit event := by
  have hround : ∀ (state : LanPeer) socket,
      (state.emit event).dropSession socket = (state.dropSession socket).emit event := by
    intro state socket
    unfold dropSession
    rw [apply_ite (emit event)]
    rfl
  have hfold : ∀ (keys : List Socket) (state : LanPeer),
      keys.foldl dropSession (state.emit event) = (keys.foldl dropSession state).emit event := by
    intro keys
    induction keys with
    | nil => exact fun _ => rfl
    | cons socket rest ih =>
        intro state
        rw [List.foldl_cons, List.foldl_cons, hround, ih]
  exact congrArg
    (fun state : LanPeer =>
      { state with phase := if state.server then .hosting else .idle, error := "" })
    (hfold host.clients.keys { host with
      qr := ""
      offer := { host.offer with code := "" }
      expectedPeer := ""
      verificationCode := "" })

theorem createOffer_hearOffer (lifetimeSeconds : ℤ) (host : LanPeer) :
    (host.hearOffer lifetimeSeconds).createOffer platform lifetimeSeconds =
      if ¬ host.server ∨ lifetimeSeconds < 1 ∨ lifetimeSeconds > 60 then (host, "")
      else
        let host := (host.emit .withdrawn).cancelPairing
        let offer := { host.offer with
          code := (platform.random host.serial).text
          expiresAt := DateTime.addSecs host.now lifetimeSeconds }
        let qr := offer.encode platform
        ({ host with error := "", phase := .showing, offer := offer, qr := qr
                     serial := host.serial + 1 }.emit
          (.generated (host.serial + 1) offer.code qr offer.expiresAt), qr) := by
  unfold hearOffer
  split
  · next hrefused => exact if_pos hrefused
  · next hgranted => exact if_neg hgranted

theorem createDeviceOffer_hearDeviceOffer (peerId : String) (lifetimeSeconds : ℤ)
    (host : LanPeer) :
    (host.hearDeviceOffer peerId lifetimeSeconds).createDeviceOffer platform peerId
        lifetimeSeconds =
      if ¬ identifier peerId ∨ peerId = host.offer.hostId then (host, "")
      else
        let offered := (host.hearOffer lifetimeSeconds).createOffer platform lifetimeSeconds
        (if offered.2 ≠ "" then { offered.1 with expectedPeer := peerId } else offered.1,
          offered.2) := by
  unfold hearDeviceOffer
  split
  · next hrefused => exact if_pos hrefused
  · next hallowed =>
      refine if_neg ?_
      unfold hearOffer
      split <;> exact hallowed

/-- Rehashing keeps the entries. -/
def Feasible (host : LanPeer) (step : Step) : Prop :=
  match step.input with
  | .rehash clients => Table.Same host.clients clients
  | _ => True

end LanPeer

end ServerHost
