import ServerHost.Peer.Requests
import ServerHost.Relay.Requests
import ServerHost.Wire.Json

/-!
# Envelopes fit

`Peer::request` leaves 1024 bytes of a message for what is put around the payload.
On the way the id and the name beside the payload are swapped for others, so the
allowance is spent three times: from the client to the relay, from the relay to the
host, and from the client to the host over a link.  A response changes its id once.

## Strategy

Ids and names are identifiers, and nothing in an identifier is escaped, so a message
is as large as the sum of its fields (`width_message`).  What is left to show is that
nothing else ever gets into an envelope: an invariant of the peer says which payloads
are handed to a channel and under which ids, and one of the relay says which names its
sessions have.
-/

namespace ServerHost

/-- The text is as `uuid` returns it. -/
def Uuid (text : String) : Prop := identifier text = true ∧ text.toList.length = 36

/-- The message is within the limit of `protocol::send`. -/
def Fits (double : ℚ → List Char) (message : JsonObject) : Prop :=
  (toJson double message).length ≤ wireLimit

instance (double : ℚ → List Char) (message : JsonObject) : Decidable (Fits double message) :=
  inferInstanceAs (Decidable (_ ≤ _))

/-- `compact` prints the text that `Json.write` describes. -/
def Platform.Prints (platform : Platform) (double : ℚ → List Char) : Prop :=
  ∀ json : Json, platform.compact json = String.ofList (json.write double)

/-- `Peer::request` does not refuse the payload for its size. -/
def Peer.Accepts (platform : Platform) (payload : JsonObject) : Prop :=
  (platform.compact payload.json).utf8ByteSize ≤ wireLimit - 1024

/-! ## The sizes of messages -/

section
variable {double : ℚ → List Char} {text key : String} {value : Json}

theorem width_identifier (h : identifier text = true) :
    width ((Json.string text).write double) = text.toList.length + 2 :=
  width_quoted (identifier_spec h).2

theorem width_field (hkey : identifier key = true) : width (writeField double (key, value)) =
    key.toList.length + 3 + width (value.write double) := by
  have hcolon : width [':'] = 1 := by decide
  rw [writeField, width_append, width_cons, hcolon, width_quoted (identifier_spec hkey).2,
    ← add_assoc]

/-- A message of three or four fields, none of which is undefined. -/
theorem length_toJson {fields : List (String × Json)} (hne : fields ≠ [])
    (h : ∀ field ∈ fields, field.2.isUndefined = false) :
    (toJson double (.ofList fields)).length = cost double fields + 1 := by
  have hall : (JsonObject.ofList fields).fields = fields := by
    rw [JsonObject.ofList, List.filter_eq_self]
    exact fun field hfield => by simp [h field hfield]
  calc (toJson double (.ofList fields)).length
      = width ((Json.object (JsonObject.ofList fields).fields).write double) := rfl
    _ = cost double fields + 1 := by rw [hall, width_object hne]

theorem cost_nil : cost double [] = 0 := rfl

end

variable {double : ℚ → List Char} {platform : Platform}

/-- What is accepted leaves room for 1024 bytes. -/
theorem Peer.Accepts.width (hprints : platform.Prints double) {payload : JsonObject}
    (h : Peer.Accepts platform payload) :
    ServerHost.width (payload.json.write double) + 1024 ≤ wireLimit := by
  have hsize : ServerHost.width (payload.json.write double) =
      (platform.compact payload.json).utf8ByteSize := by
    rw [hprints]
    rfl
  have hlimit : wireLimit = 1048576 := rfl
  unfold Peer.Accepts at h
  omega

/-! ## What surrounds a payload -/

section
variable {id peerId : String} {payload : JsonObject} {result : Json}

/-- The envelope of a request that names a peer. -/
theorem fits_named (hid : Uuid id) (hpeer : identifier peerId = true)
    (hpayload : width (payload.json.write double) + 1024 ≤ wireLimit) :
    Fits double (.ofList [("type", .string "request"), ("id", .string id),
      ("peerId", .string peerId), ("payload", payload.json)]) := by
  have htype : width ((Json.string "request").write double) = 9 :=
    (width_identifier (by decide)).trans (by decide)
  have hwidth : width ((Json.string id).write double) = id.toList.length + 2 :=
    width_identifier hid.1
  have hname : width ((Json.string peerId).write double) = peerId.toList.length + 2 :=
    width_identifier hpeer
  have hshort := (identifier_spec hpeer).1
  have huuid := hid.2
  rw [Fits, length_toJson (by simp) (by simp [Json.isUndefined, JsonObject.json])]
  simp only [cost_cons, cost_nil]
  rw [width_field (by decide), width_field (by decide), width_field (by decide),
    width_field (by decide), htype, hwidth, hname]
  simp only [String.length_toList] at *
  have hkeys : "type".length = 4 ∧ "id".length = 2 ∧ "peerId".length = 6 ∧
    "payload".length = 7 := by decide
  omega

/-- The envelope of a request over a link. -/
theorem fits_unnamed (hid : Uuid id)
    (hpayload : width (payload.json.write double) + 1024 ≤ wireLimit) :
    Fits double (.ofList [("type", .string "request"), ("id", .string id),
      ("payload", payload.json)]) := by
  have htype : width ((Json.string "request").write double) = 9 :=
    (width_identifier (by decide)).trans (by decide)
  have hwidth : width ((Json.string id).write double) = id.toList.length + 2 :=
    width_identifier hid.1
  have huuid := hid.2
  rw [Fits, length_toJson (by simp) (by simp [Json.isUndefined, JsonObject.json])]
  simp only [cost_cons, cost_nil]
  rw [width_field (by decide), width_field (by decide), width_field (by decide), htype, hwidth]
  simp only [String.length_toList] at *
  have hkeys : "type".length = 4 ∧ "id".length = 2 ∧ "payload".length = 7 := by decide
  omega

/-- The envelope of a response. -/
theorem length_response (hid : identifier id = true) (hresult : result.isUndefined = false) :
    (toJson double (.ofList [("type", .string "response"), ("id", .string id),
      ("result", result)])).length = id.toList.length + width (result.write double) + 37 := by
  have htype : width ((Json.string "response").write double) = 10 :=
    (width_identifier (by decide)).trans (by decide)
  have hwidth : width ((Json.string id).write double) = id.toList.length + 2 :=
    width_identifier hid
  rw [length_toJson (by simp) (by simpa [Json.isUndefined] using hresult)]
  simp only [cost_cons, cost_nil]
  rw [width_field (by decide), width_field (by decide), width_field (by decide), htype, hwidth]
  simp only [String.length_toList]
  have hkeys : "type".length = 4 ∧ "id".length = 2 ∧ "result".length = 6 := by decide
  omega

end

/-! ## What a peer hands to a channel -/

namespace Peer

/-- Every request in the table, and every request that was handed to a channel, was
accepted under an id from `uuid`. -/
structure Enclosed (platform : Platform) (peer : Peer) : Prop where
  stored : Table.All (fun _ request => Accepts platform request.payload) peer.requests
  handed : ∀ id channel payload, .handed id channel payload ∈ events peer.log →
    Accepts platform payload ∧ ∃ n < peer.uuids, id = platform.uuid n

variable {pre peer after : Peer} {step : Step}

theorem Enclosed.frame (h : Enclosed platform peer)
    (hrequests : Table.All (fun _ request => Accepts platform request.payload) after.requests)
    (huuids : peer.uuids ≤ after.uuids)
    (hlog : Grows (fun entry => ∀ id channel payload, entry.event ≠ .handed id channel payload)
      peer.log after.log) : Enclosed platform after := by
  refine ⟨hrequests, fun id channel payload hmem => ?_⟩
  obtain ⟨entry, hentry, heq⟩ := List.mem_map.1 hmem
  rcases hlog.mem hentry with hold | hnew
  · have hbefore : .handed id channel payload ∈ events peer.log := heq ▸ List.mem_map_of_mem hold
    obtain ⟨haccepts, n, hlt, hid⟩ := h.handed id channel payload hbefore
    exact ⟨haccepts, n, hlt.trans_le huuids, hid⟩
  · exact absurd heq (hnew id channel payload)

theorem accepts_empty (hprints : platform.Prints double) : Accepts platform ⟨[]⟩ := by
  have hempty : (String.ofList ((JsonObject.json ⟨[]⟩).write double)).utf8ByteSize = 2 := by
    rw [JsonObject.json, write_object, List.map_nil]
    decide
  have hlimit : wireLimit = 1048576 := rfl
  rw [Accepts, hprints, hempty, hlimit]
  decide

theorem Enclosed.change (hprints : platform.Prints double) (h : Enclosed platform peer)
    (hnumbered : Numbered platform peer) (change : Change platform pre step peer after) :
    Enclosed platform after := by
  -- An entry of the table was issued, so its id comes from `uuid`.
  have hnumber : ∀ {id : String} {request : Pending}, peer.requests.lookup id = some request →
      ∃ n < peer.uuids, id = platform.uuid n := fun hrequest =>
    hnumbered.issued _ (hnumbered.entered _ (Table.mem_of_lookup hrequest))
  have hhand : ∀ {id : String} (channel : Channel) {request : Pending},
      peer.requests.lookup id = some request →
        Enclosed platform (peer.hand id channel request) := by
    intro id channel request hrequest
    refine ⟨?_, fun other way payload hmem => ?_⟩
    · refine h.stored.modify fun own hown => ?_
      have hkept := h.stored id own hown
      cases channel <;> exact hkept
    · rcases List.mem_cons.1 hmem with heq | hold
      · obtain ⟨rfl, rfl, rfl⟩ := Event.handed.inj heq
        exact ⟨h.stored _ _ hrequest, hnumber hrequest⟩
      · exact h.handed other way payload hold
  have hone : ∀ {entry : Entry} {log : List Entry},
      (∀ id channel payload, entry.event ≠ .handed id channel payload) →
      Grows (fun entry => ∀ id channel payload, entry.event ≠ .handed id channel payload) log
        (entry :: log) := fun hentry => .cons hentry
  cases change with
  | quiet hquiet =>
      refine h.frame (hquiet.requests ▸ h.stored) hquiet.uuids ?_
      obtain ⟨new, hnew, hall⟩ := hquiet.log
      refine ⟨new, hnew, fun entry hentry id channel payload heq => ?_⟩
      have hplain := hall entry hentry
      simp [heq, Event.plain] at hplain
  | take result hmem =>
      obtain ⟨request, hrequest⟩ := Table.mem_iff_lookup.1 hmem
      rw [take_of_lookup hrequest]
      exact h.frame (h.stored.erase _) le_rfl (hone (by simp))
  | answer result hrequest =>
      rw [take_of_lookup hrequest]
      exact h.frame (h.stored.erase _) le_rfl (hone (by simp))
  | recreate hnone =>
      rw [index_of_not_mem hnone]
      exact h.frame (h.stored.insert (accepts_empty hprints)) le_rfl (hone (by simp))
  | hand hrequest => exact hhand _ hrequest
  | @handSent _ id channel request hrequest =>
      have hbefore := hhand channel hrequest
      exact hbefore.frame hbefore.stored le_rfl (hone (by simp))
  | request peerId payload =>
      simp only [Peer.request]
      split
      · exact h.frame h.stored (Nat.le_succ _) (hone (by simp))
      · rename_i hsize
        have haccepts : Accepts platform payload := not_lt.1 (not_or.1 hsize).2
        exact h.frame (h.stored.insert haccepts) (Nat.le_succ _) (hone (by simp))
  | ticket =>
      simp only [ticketMessage]
      split
      · exact h
      · exact h.frame h.stored le_rfl (hone (by simp))
  | relayLost | refuse | flushing | dial | reach | present | unlink | greeted | serve =>
      exact h.frame h.stored le_rfl (hone (by simp))
  | _ => exact h.frame h.stored le_rfl (.of_eq rfl)

theorem run_enclosed (hprints : platform.Prints double) {trace : List (Peer × Step)}
    (run : (machine platform).Run (fun _ _ => True) trace peer) : Enclosed platform peer := by
  have hstep : ∀ pre step (peer after : Peer), Change platform pre step peer after →
      Numbered platform peer ∧ Enclosed platform peer →
      Numbered platform after ∧ Enclosed platform after := by
    rintro pre step peer after change ⟨hnumbered, h⟩
    exact ⟨hnumbered.move (move_of_change change), h.change hprints hnumbered change⟩
  induction run with
  | start hinit =>
      obtain ⟨time, rfl⟩ := hinit
      exact ⟨.empty _, by simp [events]⟩
  | @step trace state input run _ ih =>
      exact ((next_changes platform state input).invariant (hstep state input)
        ⟨run_numbered run, ih⟩).2

end Peer

/-! ## What the relay passes on -/

namespace RelayServer

variable {pre relay after : RelayServer} {step : Step} {full : Socket → Outgoing → Bool}

/-- The sessions have no name yet, or an identifier. -/
def Named (relay : RelayServer) : Prop :=
  Table.All (fun _ session => session.id = "" ∨ identifier session.id = true) relay.sessions

theorem Named.frame (h : Named relay) (hsessions : after.sessions = relay.sessions) :
    Named after := by
  unfold Named
  rw [hsessions]
  exact h

theorem Named.change (h : Named relay) (change : Change platform pre step relay after) :
    Named after := by
  cases change with
  | welcome => exact Table.All.insert h (.inl rfl)
  | touch socket f hkeeps =>
      refine Table.All.modify h fun session hsession => ?_
      rw [(hkeeps session).2.1]
      exact h socket session hsession
  | verify _ hstate => exact Table.All.modify h fun session hsession => h _ session hsession
  | reject _ hstate =>
      unfold Named
      rw [close_sessions, transmit_sessions, emit_sessions]
      exact Table.All.modify h fun session hsession => h _ session hsession
  | register id service _ _ _ _ hid =>
      exact Table.All.modify h fun session _ => .inr hid
  | send => exact h.frame (transmit_sessions ..)
  | withdraw => exact h.frame (withdrawOffer_pairingOnly ..).sessions
  | finish => exact h.frame (finishPair_pairingOnly ..).sessions
  | route | answer => exact Named.frame h (transmit_sessions ..)
  | forget => exact Table.All.erase h _
  | stop => exact Table.All.empty _
  | rehash hsessions => exact hsessions.all h
  | _ => exact h

theorem run_named {trace : List (RelayServer × Step)}
    (run : (machine platform).Run Feasible trace relay) : Named relay := by
  refine run.invariant_state ?_ fun state input h hfeasible =>
    (next_changes platform hfeasible).invariant (fun _ _ change hstate => hstate.change change) h
  rintro state ⟨time, rfl⟩
  exact .empty _

/-- A registered session has an identifier. -/
theorem Named.identifier (h : Named relay) {socket : Socket}
    (hregistered : (relay.session socket).id ≠ "") :
    ServerHost.identifier (relay.session socket).id = true := by
  cases hlookup : relay.sessions.lookup socket with
  | none =>
      rw [session, Table.value, hlookup] at hregistered
      exact absurd rfl hregistered
  | some session =>
      rw [session_of_lookup hlookup] at hregistered ⊢
      exact (h socket session hlookup).resolve_left hregistered

/-- No message closes a socket, unless it is too large. -/
def Sized (double : ℚ → List Char) (full : Socket → Outgoing → Bool) : Prop :=
  ∀ socket message, Fits double message.json → full socket message = false

theorem closing_of_fits (hsized : Sized double full) {socket : Socket} {message : Outgoing}
    (h : Fits double message.json) (relay : RelayServer) :
    (transmit full socket message relay).closing = relay.closing := by
  unfold transmit
  by_cases hgone : socket ∈ relay.closing ∨ socket ∈ relay.deleted
  · rw [if_pos hgone]
  · rw [if_neg hgone, hsized socket message h]
    rfl

/-- What the relay does to reject a request fits. -/
theorem fits_refusal {id code : String} (hid : Uuid id)
    (hcode : code ∈ ["busy", "host_unavailable"]) :
    Fits double (Outgoing.response none id (errorObject code).json).json := by
  have hfields : width ((errorObject code).json.write double) ≤ 40 := by
    have hok : width (writeField double ("ok", .bool false)) = 10 :=
      width_field (by decide)
    rw [errorObject, JsonObject.json, width_object (by simp), cost_cons, cost_cons, cost_nil, hok]
    rcases List.mem_pair.1 hcode with rfl | rfl
    · rw [width_field (by decide), width_identifier (by decide)]
      decide
    · rw [width_field (by decide), width_identifier (by decide)]
      decide
  have hlimit : wireLimit = 1048576 := rfl
  rw [Fits, Outgoing.json, length_response hid.1 rfl, hid.2]
  omega

/-- The name a session has when it is not empty. -/
theorem fits_request (hnamed : Named relay) {client : Socket} {route : String}
    {payload : JsonObject} (hregistered : (relay.session client).id ≠ "") (hroute : Uuid route)
    (hpayload : width (payload.json.write double) + 1024 ≤ wireLimit) :
    Fits double (Outgoing.request client route (relay.session client).id payload.json).json :=
  fits_named hroute (hnamed.identifier hregistered) hpayload

/-- A response changes its id for another of the same length. -/
theorem fits_response {host : Option Socket} {key id : String} {result : JsonObject}
    (hkey : Uuid key) (hid : Uuid id)
    (h : Fits double (Peer.responseMessage (.string key) result)) :
    Fits double (Outgoing.response host id result.json).json := by
  rw [Fits, Peer.responseMessage, length_response hkey.1 rfl, hkey.2] at h
  rwa [Fits, Outgoing.json, length_response hid.1 rfl, hid.2]

/-- A request of a peer does not close a socket. -/
theorem closing_request (hnamed : Named relay) (hsized : Sized double full) {client : Socket}
    {id peerId : String} {payload : JsonObject} (hactive : relay.active client = true)
    (hregistered : (relay.session client).id ≠ "") (hid : Uuid id)
    (hroute : Uuid (platform.uuid relay.uuids))
    (hpayload : width (payload.json.write double) + 1024 ≤ wireLimit) :
    (next platform relay ⟨.text client (Peer.remoteMessage id peerId payload), full⟩).closing =
      relay.closing := by
  obtain ⟨session, hsession, -⟩ := active_iff.1 hactive
  have hmem : client ∈ relay.sessions := Table.mem_of_lookup hsession
  have htype : messageType (Peer.remoteMessage id peerId payload) = "request" := rfl
  have hgiven : ((Peer.remoteMessage id peerId payload).value "id").toString = id := rfl
  have hobject : (Peer.remoteMessage id peerId payload).value "payload" = payload.json := rfl
  simp only [next, turn, message, htype, hmem, hactive, hregistered]
  rw [if_neg (by simp), if_neg (by decide), if_neg (by simp), if_neg (by decide), if_neg (by simp),
    if_neg (by decide), if_neg (by decide), if_neg (by decide), if_pos trivial]
  simp only [requestMessage, hgiven, hobject]
  rw [if_neg (by simp [hid.1, JsonObject.json, Json.isObject])]
  split
  · exact closing_of_fits hsized (fits_refusal hid (by simp)) relay
  · split
    · exact closing_of_fits hsized (fits_refusal hid (by simp)) relay
    · exact closing_of_fits hsized (fits_request hnamed hregistered hroute hpayload) _

theorem closing_responseMessage (hsized : Sized double full) {host : Socket} {message : JsonObject}
    (h : ∀ route, relay.routes.lookup (message.value "id").toString = some route →
      Fits double (Outgoing.response (some host) route.id (message.value "result")).json) :
    (relay.responseMessage (transmit full) host message).closing = relay.closing := by
  unfold responseMessage
  dsimp only
  split
  · rfl
  · next route hlookup =>
      split
      · rfl
      · split
        · exact closing_of_fits hsized (h route hlookup) _
        · rfl

/-- A response of a peer does not close a socket. -/
theorem closing_response (hsized : Sized double full) {host : Socket} {key : String}
    {result : JsonObject} (hactive : relay.active host = true)
    (hregistered : (relay.session host).id ≠ "") (hkey : key ∈ relay.routes → Uuid key)
    (hroute : ∀ route, relay.routes.lookup key = some route → Uuid route.id)
    (h : Fits double (Peer.responseMessage (.string key) result)) :
    (next platform relay ⟨.text host (Peer.responseMessage (.string key) result), full⟩).closing =
      relay.closing := by
  obtain ⟨session, hsession, -⟩ := active_iff.1 hactive
  have hmem : host ∈ relay.sessions := Table.mem_of_lookup hsession
  have htype : messageType (Peer.responseMessage (.string key) result) = "response" := rfl
  simp only [next, turn, message, htype, hmem, hactive, hregistered]
  rw [if_neg (by simp), if_neg (by decide), if_neg (by simp), if_neg (by decide), if_neg (by simp),
    if_neg (by decide), if_neg (by decide), if_neg (by decide), if_neg (by decide), if_pos trivial]
  refine closing_responseMessage hsized fun route hlookup => ?_
  exact fits_response (hkey (Table.mem_of_lookup hlookup)) (hroute route hlookup) h

end RelayServer

/-! ## Every hop -/

/-- The requests a peer has handed to a channel leave in envelopes that fit. -/
def Peer.Posts (double : ℚ → List Char) (platform : Platform) (peer : Peer) : Prop :=
  (∀ n < peer.uuids, Uuid (platform.uuid n)) → ∀ id channel payload,
    .handed id channel payload ∈ events peer.log → ∀ peerId, identifier peerId = true →
      Fits double (requestOver channel id peerId payload)

/-- The relay passes the requests and responses of peers on in envelopes that fit, and
closes no socket for their size. -/
structure RelayServer.Passes (double : ℚ → List Char) (platform : Platform) (relay : RelayServer) :
    Prop where
  request : (∀ n ≤ relay.uuids, Uuid (platform.uuid n)) → ∀ client id peerId payload,
    relay.active client = true → (relay.session client).id ≠ "" → Uuid id →
    Peer.Accepts platform payload →
    Fits double (Outgoing.request client (platform.uuid relay.uuids) (relay.session client).id
      payload.json).json ∧
    ∀ full, Sized double full →
      (next platform relay ⟨.text client (Peer.remoteMessage id peerId payload), full⟩).closing =
        relay.closing
  response : (∀ n ≤ relay.uuids, Uuid (platform.uuid n)) → ∀ key route result,
    relay.routes.lookup key = some route → Uuid route.id →
    Fits double (Peer.responseMessage (.string key) result) →
    Fits double (Outgoing.response (some route.host) route.id result.json).json ∧
    ∀ full host, relay.active host = true → (relay.session host).id ≠ "" → Sized double full →
      (next platform relay ⟨.text host (Peer.responseMessage (.string key) result), full⟩).closing =
        relay.closing

/-- **Requests and responses fit at every hop.**  What `Peer::request` accepts fits into
the envelope to the relay and into that over a link, the relay's envelope to the host
fits as well, and the relay forwards every response that fitted. -/
theorem run_envelopes_fit (hprints : platform.Prints double) :
    (∀ trace peer, (Peer.machine platform).Run (fun _ _ => True) trace peer →
      peer.Posts double platform) ∧
    ∀ trace relay, (RelayServer.machine platform).Run RelayServer.Feasible trace relay →
      relay.Passes double platform := by
  constructor
  · intro trace peer run huuids id channel payload hhanded peerId hpeer
    obtain ⟨haccepts, n, hlt, rfl⟩ :=
      (Peer.run_enclosed hprints run).handed id channel payload hhanded
    cases channel with
    | relay => exact fits_named (huuids n hlt) hpeer (haccepts.width hprints)
    | link socket => exact fits_unnamed (huuids n hlt) (haccepts.width hprints)
  · intro trace relay run
    have hnamed := RelayServer.run_named run
    constructor
    · intro huuids client id peerId payload hactive hregistered hid haccepts
      have hroute := huuids relay.uuids le_rfl
      have hpayload := haccepts.width hprints
      refine ⟨RelayServer.fits_request hnamed hregistered hroute hpayload, fun full hsized => ?_⟩
      exact RelayServer.closing_request hnamed hsized hactive hregistered hid hroute hpayload
    · intro huuids key route result hlookup hid hfits
      obtain ⟨answered, turn, hbooks⟩ := RelayServer.run_books run
      obtain ⟨n, hlt, rfl⟩ := hbooks.keys key (Table.mem_of_lookup hlookup)
      have hkey := huuids n hlt.le
      refine ⟨RelayServer.fits_response hkey hid hfits,
        fun full host hactive hregistered hsized => ?_⟩
      refine RelayServer.closing_response hsized hactive hregistered (fun _ => hkey) ?_ hfits
      intro other hother
      obtain rfl := Option.some.inj (hlookup.symm.trans hother)
      exact hid

/-! ## The largest messages -/

/-- A number in thirty-six digits. -/
def padded (n : ℕ) : String :=
  String.ofList (List.replicate (36 - (Nat.toDigits 10 n).length) '0' ++ Nat.toDigits 10 n)

theorem padded_injective : Function.Injective padded := by
  have hvalue : ∀ n, Nat.ofDigitChars 10 (padded n).toList 0 = n := by
    intro n
    have hzeros : ∀ count, Nat.ofDigitChars 10 (List.replicate count '0') 0 = 0 := by
      intro count
      induction count with
      | zero => rfl
      | succ count ih => rw [List.replicate_succ]; exact ih
    rw [padded, String.toList_ofList, Nat.ofDigitChars_append, hzeros,
      Nat.ofDigitChars_ten_toDigits]
  intro m n h
  rw [← hvalue m, h, hvalue]

/-- A platform that prints numbers as `0`. -/
def Platform.padded : Platform := { Platform.sample with
  uuid := ServerHost.padded
  uuid_injective := padded_injective
  compact json := String.ofList (json.write fun _ => ['0']) }

/-- A payload of this many bytes. -/
def filled (size : ℕ) : JsonObject :=
  ⟨[("data", .string (String.ofList (List.replicate (size - 11) 'x')))]⟩

theorem width_filled {size : ℕ} (h : 11 ≤ size) :
    width ((filled size).json.write fun _ => ['0']) = size := by
  have hchars : ∀ c ∈ (String.ofList (List.replicate (size - 11) 'x')).toList,
      0x2d ≤ c.val.toNat ∧ c.val.toNat < 0x80 ∧ c.val.toNat ≠ 0x5c := by
    intro c hc
    rw [String.toList_ofList] at hc
    rw [List.eq_of_mem_replicate hc]
    decide
  have hdata : width (quoted (String.ofList (List.replicate (size - 11) 'x'))) = size - 11 + 2 := by
    rw [width_quoted hchars, String.toList_ofList, List.length_replicate]
  have hkey : "data".toList.length = 4 := by decide
  change width ((Json.object (filled size).fields).write fun _ => ['0']) = size
  rw [filled, width_object (List.cons_ne_nil _ _), cost_cons, cost_nil, width_field (by decide)]
  change _ + 3 + width (quoted _) + 1 + 0 + 1 = size
  rw [hdata, hkey]
  omega

/-- The largest payload that `Peer::request` takes. -/
def largest : JsonObject := filled (wireLimit - 1024)

theorem Peer.accepts_filled {size : ℕ} (hlow : 11 ≤ size) (hhigh : size ≤ wireLimit - 1024) :
    Accepts .padded (filled size) := by
  have hbytes : ∀ text : List Char, (String.ofList text).utf8ByteSize = width text := fun _ => rfl
  have hcompact : ∀ json : Json, Platform.padded.compact json =
      String.ofList (json.write fun _ => ['0']) := fun _ => rfl
  rw [Accepts, hcompact, hbytes, width_filled hlow]
  exact hhigh

theorem Peer.accepts_largest : Accepts .padded largest := by
  have hroom : 11 ≤ wireLimit - 1024 := by decide
  unfold largest
  exact accepts_filled hroom le_rfl

/-- A peer, up to the list of its relay. -/
def Peer.listing : List Peer.Input :=
  [.start Options.sample false (.ok 0), .relayConnected,
    .relayText (.ofList [("type", .string "authenticated"), ("accountId", .string "a")]),
    .relayText (.ofList [("type", .string "registered")]),
    .relayText (.ofList [("type", .string "peers"),
      ("peers", .array [.object [("peerId", .string "h")]])])]

theorem Peer.request_of_accepts {platform : Platform} {peer : Peer} {peerId : String}
    {payload : JsonObject} (haccepts : Accepts platform payload)
    (hroom : peer.requests.keys.length < 32) :
    (peer.request platform peerId payload).1 =
      ({ peer with
          uuids := peer.uuids + 1
          requests := peer.requests.insert (platform.uuid peer.uuids)
            { peer := peerId
              payload := payload
              deadline := DateTime.addMSecs peer.now peer.options.requestTimeoutMs }
          starts := peer.starts ++ [platform.uuid peer.uuids] }.emit
        (.requested (platform.uuid peer.uuids) peerId payload
          (DateTime.addMSecs peer.now peer.options.requestTimeoutMs))) := by
  have htaken : ¬ (peer.requests.keys.length ≥ 32 ∨
      (platform.compact payload.json).utf8ByteSize > wireLimit - 1024) :=
    not_or.2 ⟨not_le.2 hroom, not_lt.2 haccepts⟩
  dsimp only [Peer.request]
  rw [if_neg htaken]

/-- A peer that hands a request to the relay. -/
def Peer.handing (payload : JsonObject) : Peer :=
  ((listing ++ [Input.request "h" payload, .startRequest (ServerHost.padded 0)]).map
    (Step.mk · World.sample)).foldl (machine .padded).next { now := 0 }

theorem Peer.handed_of_accepts {payload : JsonObject} (haccepts : Accepts .padded payload) :
    .handed (ServerHost.padded 0) .relay payload ∈ events (handing payload).log ∧
      (handing payload).uuids = 1 := by
  have hroom : ((listing.map (Step.mk · World.sample)).foldl
      (machine .padded).next { now := 0 }).requests.keys.length < 32 := by decide +kernel
  rw [handing, List.map_append, List.foldl_append]
  generalize hready : (listing.map (Step.mk · World.sample)).foldl
    (machine .padded).next { now := 0 } = ready at hroom ⊢
  change _ ∈ events (next .padded (ready.request .padded "h" payload).1
    ⟨.startRequest (ServerHost.padded 0), World.sample⟩).log ∧ (next .padded
      (ready.request .padded "h" payload).1
        ⟨.startRequest (ServerHost.padded 0), World.sample⟩).uuids = 1
  rw [request_of_accepts haccepts hroom, ← hready]
  exact ⟨List.mem_cons_of_mem _ List.mem_cons_self, rfl⟩

/-- The relay forwards a request, and has its route. -/
def RelayServer.forwarding : List RelayServer.Input :=
  requesting.take 8 ++ [.text 1 (Peer.remoteMessage (ServerHost.padded 0) "h" ⟨[]⟩)]

/-- The largest result that a host can send. -/
def largestResult : JsonObject := filled (wireLimit - 73)

theorem run_envelopes_fit_largest :
    (∃ peer trace, (Peer.machine .padded).Run (fun _ _ => True) trace peer ∧
      .handed (padded 0) .relay largest ∈ Peer.events peer.log ∧
      ∀ id channel payload, .handed id channel payload ∈ Peer.events peer.log →
        Fits (fun _ => ['0']) (Peer.requestOver channel id "h" payload)) ∧
    ∃ relay trace, (RelayServer.machine .padded).Run RelayServer.Feasible trace relay ∧
      relay.active 1 = true ∧
      Fits (fun _ => ['0']) (RelayServer.Outgoing.request 1 (padded relay.uuids)
        (relay.session 1).id largest.json).json ∧
      ∃ route, relay.routes.lookup (padded 0) = some route ∧
        (toJson (fun _ => ['0']) (Peer.responseMessage (.string (padded 0)) largestResult)).length =
          wireLimit ∧
        Fits (fun _ => ['0']) (RelayServer.Outgoing.response (some route.host) route.id
          largestResult.json).json := by
  have hprints : Platform.padded.Prints fun _ => ['0'] := fun _ => rfl
  obtain ⟨hpeers, hrelays⟩ := run_envelopes_fit hprints
  have huuid : ∀ n < 2, Uuid (padded n) := by
    intro n hn
    obtain rfl | rfl : n = 0 ∨ n = 1 := by omega
    · exact ⟨by decide, by decide⟩
    · exact ⟨by decide, by decide⟩
  constructor
  · have hstart : (Peer.machine .padded).Run (fun _ _ => True) [] { now := 0 } := .start ⟨0, rfl⟩
    -- A peer hands the largest payload that `request` accepts to the relay.
    obtain ⟨trace, run⟩ := hstart.extend ((Peer.listing ++ [Peer.Input.request "h" largest,
      .startRequest (padded 0)]).map (Peer.Step.mk · Peer.World.sample))
        ⟨trivial, trivial, trivial, trivial, trivial, trivial, trivial, trivial⟩
    obtain ⟨hhanded, huuids⟩ := Peer.handed_of_accepts Peer.accepts_largest
    refine ⟨Peer.handing largest, trace, run, hhanded, fun id channel payload hmem => ?_⟩
    refine hpeers trace (Peer.handing largest) run (fun n hlt => huuid n ?_) id channel payload
      hmem "h" (by decide)
    omega
  · have hstart : (RelayServer.machine .padded).Run RelayServer.Feasible [] { now := 0 } :=
      .start ⟨0, rfl⟩
    obtain ⟨trace, run⟩ := hstart.extend
      (RelayServer.forwarding.map (RelayServer.Step.mk · fun _ _ => false))
      ⟨trivial, trivial, trivial, trivial, trivial, trivial, trivial, trivial, trivial, trivial⟩
    -- The relay routes it to a host, whose answer fills its envelope.
    generalize hrelay : (RelayServer.forwarding.map (RelayServer.Step.mk · fun _ _ => false)).foldl
      (RelayServer.machine .padded).next { now := 0 } = relay at run
    have hactive : relay.active 1 = true := by
      rw [← hrelay]
      decide +kernel
    have huuids : relay.uuids = 1 := by
      rw [← hrelay]
      decide +kernel
    have hid : (relay.session 1).id ≠ "" := by
      rw [← hrelay]
      decide +kernel
    have hroute : ∃ route, relay.routes.lookup (padded 0) = some route ∧ route.id = padded 0 := by
      rw [← hrelay]
      exact ⟨_, rfl, rfl⟩
    obtain ⟨route, hlookup, hown⟩ := hroute
    have hpasses := hrelays trace _ run
    have hown' : ∀ n ≤ relay.uuids, Uuid (Platform.padded.uuid n) := fun n hle =>
      huuid n (by omega)
    have hlength : (toJson (fun _ => ['0'])
        (Peer.responseMessage (.string (padded 0)) largestResult)).length = wireLimit := by
      have hpadded : (padded 0).toList.length = 36 := by decide
      have hwidth : width ((largestResult.json).write fun _ => ['0']) = wireLimit - 73 :=
        width_filled (by decide)
      rw [Peer.responseMessage, length_response (huuid 0 (by decide)).1 rfl, hpadded, hwidth]
      decide
    refine ⟨relay, trace, run, hactive, ?_, route, hlookup, hlength, ?_⟩
    · exact (hpasses.request hown' 1 (padded 0) "h" largest hactive hid (huuid 0 (by decide))
        Peer.accepts_largest).1
    · exact (hpasses.response hown' (padded 0) route largestResult hlookup
        (hown ▸ huuid 0 (by decide)) hlength.le).1

end ServerHost
