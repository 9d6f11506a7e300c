import ServerHost.Library.Machine
import ServerHost.Relay.State

/-!
# The handlers of the relay

`RelayServer::Private`, function by function.  Each takes the `send` it uses as
an argument: `transmit` is the one whose disconnected handler never runs inside
the call, so with it every handler is atomic.
-/

namespace ServerHost

namespace RelayServer

variable (platform : Platform) (send : Send)

/-! ## Pairing -/

/-- `finishPair`. -/
def finishPair (key status : String) (relay : RelayServer) : RelayServer :=
  match relay.pairs.lookup key with
  | none => relay
  | some pair =>
      let naming (other : Socket) (relay : RelayServer) : List (String × Json) :=
        [("pairingId", .string key), ("peerId", .string (relay.session other).id),
          ("name", .string (relay.session other).name)]
      let relay :=
        { relay with pairs := relay.pairs.erase key }.emit (.settled (.pair key) status)
      let relay := if relay.alive pair.host then
          send pair.host (.pairing (some pair.client) (some (.pair key)) pair.hostRequest status
            (naming pair.client relay)) relay
        else relay
      if relay.alive pair.client then
        send pair.client (.pairing (some pair.host) (some (.pair key)) pair.clientRequest status
          (naming pair.host relay)) relay
      else relay

/-- Take the offer out of the table and tell its host why. -/
def withdrawOffer (hash status : String) (offer : Offer) (relay : RelayServer) : RelayServer :=
  let relay := { relay with offers := relay.offers.erase hash }.emit
    (.settled (.offer offer.issue) status)
  send offer.host (.pairing none (some (.offer offer.issue)) offer.request status []) relay

/-- One round of the first loop of `cancelPairing`. -/
def cancelOffer (socket : Socket) (request : String) (relay : RelayServer) (hash : String) :
    RelayServer :=
  match relay.offers.lookup hash with
  | none => relay
  | some offer =>
      if offer.host = socket ∧ (request = "" ∨ offer.request = request) then
        relay.withdrawOffer send hash "cancelled" offer
      else relay

/-- One round of the second loop of `cancelPairing`. -/
def cancelPair (socket : Socket) (request : String) (relay : RelayServer) (key : String) :
    RelayServer :=
  match relay.pairs.lookup key with
  | none => relay
  | some pair =>
      if (pair.host = socket ∧ (request = "" ∨ pair.hostRequest = request)) ∨
          (pair.client = socket ∧ (request = "" ∨ pair.clientRequest = request)) then
        relay.finishPair send key "cancelled"
      else relay

/-- `cancelPairing`; the empty request stands for all of them. -/
def cancelPairing (socket : Socket) (request : String) (relay : RelayServer) : RelayServer :=
  let relay := relay.offers.keys.foldl (cancelOffer send socket request) relay
  relay.pairs.keys.foldl (cancelPair send socket request) relay

/-- The branch of `pairMessage` for `pair-confirm`. -/
def pairConfirm (socket : Socket) (message : JsonObject) (relay : RelayServer) : RelayServer :=
  let key := (message.value "pairingId").toString
  match relay.pairs.lookup key with
  | none => relay
  | some pair =>
      if pair.client ≠ socket then relay
      else if pair.expires ≤ relay.now ∨ ¬ relay.active pair.host ∨ ¬ relay.active pair.client ∨
          relay.target socket (relay.session pair.host).id ≠ some pair.host then
        relay.finishPair send key "expired"
      else relay.finishPair send key "paired"

/-- The rate limiter of `pairMessage`: the window restarts after thirty seconds. -/
def countAttempt (now : ℤ) (session : Session) : Session :=
  let session := if session.pairingWindow = ⊥ ∨ session.pairingWindow.msecsTo now ≥ 30000 then
      { session with pairingWindow := now, pairingAttempts := 0 }
    else session
  { session with pairingAttempts := session.pairingAttempts + 1 }

/-- The branch of `pairMessage` for `pair-offer`. -/
def pairOffer (socket : Socket) (id : String) (relay : RelayServer) : RelayServer :=
  if (relay.session socket).descriptor.isEmpty then
    send socket (.pairing none none id "error" [("error", .string "host_required")]) relay
  else
    let relay := relay.cancelPairing send socket ""
    let caller := relay.session socket
    let code := (platform.random relay.randoms).text
    let expires := min (DateTime.addSecs relay.now 60) caller.principal.expiresAt
    let issue := relay.randoms
    let relay := { relay with
        offers := relay.offers.insert (platform.sha256 (toLatin1 code)) ⟨socket, id, expires, issue⟩
        randoms := relay.randoms + 1 }.emit (.issued issue socket expires)
    send socket (.pairing none (some (.offer issue)) id "offered"
      [("code", .string code), ("peerId", .string caller.id), ("name", .string caller.name),
        ("expires", .string (number expires.toMSecs))]) relay

/-- The branch of `pairMessage` for `pair-claim`. -/
def pairClaim (socket : Socket) (id : String) (message : JsonObject) (relay : RelayServer) :
    RelayServer :=
  let code := (message.value "code").toString
  let wanted := (message.value "host").toString
  let hash := platform.sha256 (toLatin1 code)
  let refused := send socket
    (.pairing none none id "error" [("error", .string "pairing_invalid_or_expired")]) relay
  match relay.offers.lookup hash with
  | none => refused
  | some offer =>
      if size code ≠ 64 ∨ offer.expires ≤ relay.now ∨ ¬ relay.alive offer.host ∨
          ¬ relay.active offer.host ∨ ¬ (relay.session socket).descriptor.isEmpty ∨
          (relay.session offer.host).id ≠ wanted ∨ relay.target socket wanted ≠ some offer.host then
        refused
      else
        let host := offer.host
        -- every other pairing of the client is over before this one starts
        let relay := relay.cancelPairing send socket ""
        let key := platform.uuid relay.uuids
        let expires := min (DateTime.addSecs relay.now 15) offer.expires
        let relay := { relay with
            offers := relay.offers.erase hash
            pairs := relay.pairs.insert key ⟨host, socket, offer.request, id, expires⟩
            uuids := relay.uuids + 1 }
        let relay := (relay.emit (.settled (.offer offer.issue) "claimed")).emit
          (.claimed offer.issue key host socket expires)
        let relay := send host (.pairing (some socket) (some (.pair key)) offer.request "claimed"
          [("pairingId", .string key), ("peerId", .string (relay.session socket).id),
            ("name", .string (relay.session socket).name),
            ("expires", .string (number expires.toMSecs))]) relay
        send socket (.pairing (some host) (some (.pair key)) id "claimed"
          [("pairingId", .string key), ("peerId", .string (relay.session host).id),
            ("name", .string (relay.session host).name),
            ("expires", .string (number expires.toMSecs))]) relay

/-- `pairMessage`, for a message whose type starts with `pair-`. -/
def pairMessage (socket : Socket) (message : JsonObject) (relay : RelayServer) : RelayServer :=
  let type := messageType message
  let id := (message.value "id").toString
  if type = "pair-confirm" then relay.pairConfirm send socket message
  else if ¬ identifier id then relay.close socket
  else if type = "pair-cancel" then relay.cancelPairing send socket id
  else
    let relay := relay.update socket (countAttempt relay.now)
    if (relay.session socket).pairingAttempts > 6 then
      send socket (.pairing none none id "error" [("error", .string "pairing_rate_limited")]) relay
    else if type = "pair-offer" then relay.pairOffer platform send socket id
    else if type = "pair-claim" then relay.pairClaim platform send socket id message
    else relay.close socket

/-! ## The directory -/

/-- `directory`. -/
def directory (relay : RelayServer) (socket : Socket) : RelayServer :=
  let caller := relay.session socket
  if ¬ relay.active socket ∨ caller.id = "" then relay
  else
    let listed := relay.sessions.entries.filter fun entry =>
      entry.1 ≠ socket && reaches relay.now caller entry.2.id entry.2
    send socket (.peers (listed.map fun entry => (entry.1, entry.2.descriptor))) relay

/-- `changed`. -/
def changed (relay : RelayServer) : RelayServer :=
  relay.sessions.keys.foldl (directory send) relay

/-! ## The end of a session -/

/-- One round of the loop of `remove` over the routes. -/
def dropRoute (socket : Socket) (relay : RelayServer) (key : String) : RelayServer :=
  match relay.routes.lookup key with
  | none => relay
  | some route =>
      if route.client = socket ∨ route.host = socket then
        let relay := { relay with routes := relay.routes.erase key }
        if relay.alive route.client ∧ route.client ≠ socket then
          send route.client (.response none route.id (errorObject "host_offline").json) relay
        else relay
      else relay

/-- `remove`, with the deletion that `deleteLater` leaves for later. -/
def remove (socket : Socket) (relay : RelayServer) : RelayServer :=
  let relay := relay.cancelPairing send socket ""
  let relay := { relay with sessions := relay.sessions.erase socket }
  let relay := relay.routes.keys.foldl (dropRoute send socket) relay
  let relay := relay.changed send
  { relay with deleted := socket :: relay.deleted }

/-! ## `sweep` -/

def sweepOffer (relay : RelayServer) (hash : String) : RelayServer :=
  match relay.offers.lookup hash with
  | none => relay
  | some offer =>
      if offer.expires ≤ relay.now ∨ ¬ relay.active offer.host then
        relay.withdrawOffer send hash "expired" offer
      else relay

def sweepPair (relay : RelayServer) (key : String) : RelayServer :=
  match relay.pairs.lookup key with
  | none => relay
  | some pair =>
      if pair.expires ≤ relay.now ∨ ¬ relay.active pair.host ∨ ¬ relay.active pair.client then
        relay.finishPair send key "expired"
      else relay

def sweepSession (relay : RelayServer) (socket : Socket) : RelayServer :=
  let state := relay.session socket
  if (state.principal.accountId ≠ "" ∧ ¬ live relay.now state.principal) ∨
      (state.principal.accountId = "" ∧ state.connected.msecsTo relay.now > 7000) then
    relay.close socket
  else relay

def sweepRoute (relay : RelayServer) (key : String) : RelayServer :=
  match relay.routes.lookup key with
  | none => relay
  | some route =>
      if route.expires < relay.now then
        let relay := { relay with routes := relay.routes.erase key }
        if relay.alive route.client then
          send route.client (.response none route.id (errorObject "timeout").json) relay
        else relay
      else relay

/-- `sweep`.  A ping changes nothing here. -/
def sweep (relay : RelayServer) : RelayServer :=
  let relay := relay.offers.keys.foldl (sweepOffer send) relay
  let relay := relay.pairs.keys.foldl (sweepPair send) relay
  let relay := relay.sessions.keys.foldl sweepSession relay
  relay.routes.keys.foldl (sweepRoute send) relay

/-! ## `message` -/

/-- The branch of `message` for `auth`.  The authenticator answers later, or at
once, through `authCompleted`. -/
def authMessage (socket : Socket) (message : JsonObject) (relay : RelayServer) : RelayServer :=
  let credential := (message.value "credential").toString
  if (relay.session socket).authenticating ∨ credential = "" ∨ credential.utf8ByteSize > 16384 then
    relay.close socket
  else
    (relay.update socket fun session => { session with authenticating := true }).emit
      (.asked socket credential)

/-- The callback given to the authenticator. -/
def authCompleted (socket : Socket) (principal : Principal) (relay : RelayServer) : RelayServer :=
  match relay.sessions.lookup socket with
  | none => relay
  | some state =>
      let relay := relay.update socket fun session => { session with authenticating := false }
      if ¬ live relay.now principal ∨ (state.principal.accountId ≠ "" ∧
          principal.accountId ≠ state.principal.accountId) then
        let relay := relay.cancelPairing send socket ""
        let relay := (relay.update socket fun session => { session with principal := {} }).emit
          (.rejected socket)
        (send socket (.error "unauthenticated") relay).close socket
      else
        let bounded := { principal with
          expiresAt := min principal.expiresAt (DateTime.addSecs relay.now 60) }
        let relay := (relay.update socket fun session => { session with principal := bounded }).emit
          (.verified socket bounded)
        send socket (.authenticated principal.accountId) relay

/-- The local URLs a registration may publish. -/
def localUrls (fingerprint : String) (values : List Json) : List String :=
  values.foldl (fun urls value =>
    let url := platform.url value.toString
    if urls.length < 16 && endpoint platform url "wss" "ws" && (platform.address url.host).isSome &&
        (url.scheme = "ws" || hexToken fingerprint) then urls ++ [url.text]
    else urls) []

/-- The descriptor a registration publishes; empty for a client. -/
def descriptorOf (id service : String) (message : JsonObject) : JsonObject :=
  let fingerprint := (message.value "fingerprint").toString
  if (message.value "host").toBool then
    .ofList [("peerId", .string id), ("name", message.value "name"), ("service", .string service),
      ("metadata", message.value "metadata"),
      ("localUrls", .array ((localUrls platform fingerprint (message.value "localUrls").toArray).map
        .string)),
      ("fingerprint", .string fingerprint)]
  else ⟨[]⟩

/-- Whether another session holds the same account, name and service. -/
def duplicate (relay : RelayServer) (socket : Socket) (id service : String) : Bool :=
  relay.sessions.entries.any fun entry =>
    entry.1 ≠ socket && entry.2.principal.accountId = (relay.session socket).principal.accountId &&
      entry.2.id = id && entry.2.service = service

/-- The branch of `message` for `register`. -/
def registerMessage (socket : Socket) (message : JsonObject) (relay : RelayServer) : RelayServer :=
  let id := (message.value "peerId").toString
  let service := (message.value "service").toString
  let name := (message.value "name").toString
  if ¬ identifier id ∨ ¬ identifier service ∨ size name > 128 ∨
      platform.jsonSize (message.value "metadata").toObject > 8192 then relay.close socket
  else if relay.duplicate socket id service then
    (send socket (.error "duplicate_peer") relay).close socket
  else
    let state := relay.session socket
    if (state.id ≠ "" ∧ state.id ≠ id) ∨ (state.service ≠ "" ∧ state.service ≠ service) then
      relay.close socket
    else
      let descriptor := descriptorOf platform id service message
      let relay := (relay.update socket fun session =>
        { session with id := id, service := service, name := name, descriptor := descriptor }).emit
          (.registered socket id service)
      let relay := if ¬ state.descriptor.isEmpty ∧ descriptor.isEmpty then
          relay.cancelPairing send socket ""
        else relay
      (send socket .registered relay).changed send

/-- `sessions[socket]`, which makes a session when there is none. -/
def touch (socket : Socket) (relay : RelayServer) : RelayServer :=
  if socket ∈ relay.sessions then relay
  else { relay with sessions := relay.sessions.insert socket { connected := relay.now } }

/-- The branch of `message` for `connect`.  The host may be gone after the first message,
when its socket fails while it is written to. -/
def connectMessage (socket : Socket) (message : JsonObject) (relay : RelayServer) : RelayServer :=
  let id := (message.value "peerId").toString
  match relay.target socket id with
  | none => send socket (.unavailable id) relay
  | some host =>
      let token := (platform.random relay.randoms).text
      let expiry := min (relay.session socket).principal.expiresAt
        (relay.session host).principal.expiresAt
      let relay := { relay with randoms := relay.randoms + 1 }
      let relay := send host (.ticket socket token (relay.session socket).id expiry) relay
      let relay := relay.touch host
      send socket (.connect host id token (relay.session host).descriptor expiry) relay

/-- The routes opened by a client. -/
def openRoutes (relay : RelayServer) (client : Socket) : ℕ :=
  relay.routes.entries.countP fun entry => entry.2.client = client

/-- The branch of `message` for `request`. -/
def requestMessage (socket : Socket) (message : JsonObject) (relay : RelayServer) : RelayServer :=
  let id := (message.value "id").toString
  let host := relay.target socket (message.value "peerId").toString
  if ¬ identifier id ∨ ¬ (message.value "payload").isObject then relay.close socket
  else match host with
    | none => send socket (.response none id (errorObject "host_unavailable").json) relay
    | some host =>
        if relay.openRoutes socket ≥ 32 ∨ relay.routes.keys.length ≥ 1024 then
          send socket (.response none id (errorObject "busy").json) relay
        else
          let route := platform.uuid relay.uuids
          let relay := { relay with
              routes := relay.routes.insert route ⟨socket, host, id, DateTime.addSecs relay.now 15⟩
              uuids := relay.uuids + 1 }.emit (.routed route socket host id)
          send host (.request socket route (relay.session socket).id (message.value "payload"))
            relay

/-- The branch of `message` for `response`. -/
def responseMessage (socket : Socket) (message : JsonObject) (relay : RelayServer) : RelayServer :=
  let key := (message.value "id").toString
  match relay.routes.lookup key with
  | none => relay
  | some route =>
      if route.host ≠ socket then relay
      else
        let relay := { relay with routes := relay.routes.erase key }
        if relay.alive route.client ∧ relay.active route.client then
          send route.client (.response (some socket) route.id (message.value "result")) relay
        else relay

/-- `message`. -/
def message (socket : Socket) (message : JsonObject) (relay : RelayServer) : RelayServer :=
  if socket ∉ relay.sessions then relay
  else
    let type := messageType message
    if type = "auth" then relay.authMessage socket message
    else if ¬ relay.active socket then relay.close socket
    else if type = "register" then relay.registerMessage platform send socket message
    else if (relay.session socket).id = "" then relay.close socket
    else if startsWith type "pair-" then relay.pairMessage platform send socket message
    else if type = "list" then relay.directory send socket
    else if type = "connect" then relay.connectMessage platform send socket message
    else if type = "request" then relay.requestMessage platform send socket message
    else if type = "response" then relay.responseMessage send socket message
    else relay.close socket

/-! ## Connections and the machine -/

/-- The slot connected to `newConnection`. -/
def newConnection (relay : RelayServer) : RelayServer :=
  let socket := relay.sockets
  let relay := { relay with sockets := socket + 1 }
  if relay.sessions.keys.length ≥ 128 then
    { relay.close socket with deleted := socket :: relay.deleted }
  else { relay with sessions := relay.sessions.insert socket { connected := relay.now } }

/-- `stop`. -/
def stop (relay : RelayServer) : RelayServer :=
  { relay with sessions := ∅, routes := ∅, offers := ∅, pairs := ∅,
               deleted := relay.sessions.keys ++ relay.deleted }

/-- What can happen to the relay.  `rehash` lets the hash tables be walked in
any order from then on. -/
inductive Input where
  | clock (time : ℤ)
  | newConnection
  | text (socket : Socket) (message : JsonObject)
  | binary (socket : Socket)
  | completion (socket : Socket) (principal : Principal)
  | disconnected (socket : Socket)
  | sweep
  | stop
  | rehash (sessions : Table Socket Session) (routes : Table String Route)
      (offers : Table String Offer) (pairs : Table String Pair)

/-- An input, with the messages that find a full queue while it is handled. -/
structure Step where
  input : Input
  full : Socket → Outgoing → Bool

/-- The slot connected to `disconnected`. -/
def disconnected (send : Send) (socket : Socket) (relay : RelayServer) : RelayServer :=
  if socket ∈ relay.sessions then relay.remove send socket else relay

/-- One turn of the event loop, with what `send` does in it. -/
def turn (send : Send) (input : Input) (relay : RelayServer) : RelayServer :=
  match input with
  | .clock time => { relay with now := time }
  | .newConnection => relay.newConnection
  | .text socket message => relay.message platform send socket message
  | .binary socket => if socket ∈ relay.sessions then relay.close socket else relay
  | .completion socket principal => relay.authCompleted send socket principal
  | .disconnected socket => relay.disconnected send socket
  | .sweep => relay.sweep send
  | .stop => relay.stop
  | .rehash sessions routes offers pairs =>
      { relay with sessions := sessions, routes := routes, offers := offers, pairs := pairs }

/-- One turn whose sends leave, or find a full queue. -/
def next (relay : RelayServer) (step : Step) : RelayServer :=
  relay.turn platform (transmit step.full) step.input

/-- The relay as a machine.  It starts empty, at any time. -/
def machine : Machine RelayServer Step where
  init relay := ∃ time, relay = { now := time }
  next := next platform

/-- Rehashing keeps the entries. -/
def Feasible (relay : RelayServer) (step : Step) : Prop :=
  match step.input with
  | .rehash sessions routes offers pairs =>
      Table.Same relay.sessions sessions ∧ Table.Same relay.routes routes ∧
        Table.Same relay.offers offers ∧ Table.Same relay.pairs pairs
  | _ => True

/-- No message is processed from a socket after `close` was called on it. -/
def Orderly (relay : RelayServer) (step : Step) : Prop :=
  relay.Feasible step ∧ ∀ socket message, step.input = .text socket message →
    socket ∉ relay.closing

end RelayServer

end ServerHost
