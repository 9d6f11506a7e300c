import ServerHost.Relay.Handlers

/-!
# What one turn of the relay can do

Every handler is a sequence of a few kinds of change.  `Change` lists them, each
with all that the handler has established when it makes the change, and
`next_changes` shows that a turn of the event loop is such a sequence.  The
invariants of the relay are proved against `Change` alone.
-/

namespace ServerHost

namespace RelayServer

/-! ## The changes

A turn of the relay is a sequence of these, each with the checks that were made before it. -/

/-- `caller` is live and registered, and `target` found `other` for it. -/
def Meets (relay : RelayServer) (caller other : Socket) : Prop :=
  relay.active caller = true ∧ (relay.session caller).id ≠ "" ∧
    ∃ id, relay.target caller id = some other

/-- The socket has neither an offer nor a part in a pair. -/
def Unpaired (relay : RelayServer) (socket : Socket) : Prop :=
  Table.All (fun _ offer => offer.host ≠ socket) relay.offers ∧
    Table.All (fun _ pair => pair.host ≠ socket ∧ pair.client ≠ socket) relay.pairs

/-- The function changes nothing that other sessions can see. -/
def Keeps (f : Session → Session) : Prop :=
  ∀ session, (f session).principal = session.principal ∧ (f session).id = session.id ∧
    (f session).service = session.service ∧ (f session).name = session.name ∧
    (f session).descriptor = session.descriptor

/-- What holds when a message leaves that is not tied to a route or to the end
of an offer or pair. -/
def Sendable (relay : RelayServer) (socket : Socket) : Outgoing → Prop
  | .peers entries =>
      relay.active socket = true ∧ (relay.session socket).id ≠ "" ∧ ∀ entry ∈ entries,
        ∃ other, relay.sessions.lookup entry.1 = some other ∧
          reaches relay.now (relay.session socket) other.id other = true ∧
          entry.2 = other.descriptor
  | .connect host _ _ descriptor expires =>
      relay.Meets socket host ∧ descriptor = (relay.session host).descriptor ∧
        expires = min (relay.session socket).principal.expiresAt
          (relay.session host).principal.expiresAt
  | .ticket client _ peerId expires =>
      relay.Meets client socket ∧ peerId = (relay.session client).id ∧
        expires = min (relay.session client).principal.expiresAt
          (relay.session socket).principal.expiresAt
  | .request .. => False
  | .response host .. => host = none
  | .pairing none subject _ status _ => (subject = none ∧ status = "error") ∨
      ∃ issue expires, subject = some (.offer issue) ∧ status = "offered" ∧
        .issued issue socket expires ∈ events relay.log
  | .pairing (some other) (some (.pair key)) _ status _ =>
      status = "claimed" ∧ ∃ pair, relay.pairs.lookup key = some pair ∧
        ((socket = pair.host ∧ other = pair.client) ∨ (socket = pair.client ∧ other = pair.host))
  | .pairing (some _) _ _ _ _ => False
  | _ => True

/-- The message `pair-confirm` for the pair `key`, with what the relay checks
before it answers `paired`. -/
structure Confirms (relay : RelayServer) (step : Step) (key : String) (pair : Pair) : Prop where
  stored : relay.pairs.lookup key = some pair
  spoken : ∃ message, step.input = .text pair.client message ∧
    messageType message = "pair-confirm" ∧ (message.value "pairingId").toString = key
  pending : (relay.now : DateTime) < pair.expires
  host_active : relay.active pair.host = true
  client_active : relay.active pair.client = true
  registered : relay.target pair.client (relay.session pair.host).id = some pair.host

/-- The message `pair-claim` for the offer under `hash`, with what the relay
checks before it makes a pair. -/
structure Claims (platform : Platform) (relay : RelayServer) (step : Step) (client : Socket)
    (hash : String) (offer : Offer) : Prop where
  stored : relay.offers.lookup hash = some offer
  spoken : ∃ message, step.input = .text client message ∧
    messageType message = "pair-claim" ∧
      platform.sha256 (toLatin1 (message.value "code").toString) = hash
  pending : (relay.now : DateTime) < offer.expires
  host_active : relay.active offer.host = true
  client_active : relay.active client = true
  meets : relay.Meets client offer.host
  is_client : (relay.session client).descriptor.isEmpty = true

variable (platform : Platform) (pre : RelayServer) (step : Step)

/-- The elementary changes of the turn that meets `step` in the state `pre`. -/
inductive Change : RelayServer → RelayServer → Prop
  | clock {relay : RelayServer} (time : ℤ) : step.input = .clock time → relay = pre →
      Change relay { relay with now := time }
  | welcome {relay : RelayServer} : step.input = .newConnection →
      Change relay { relay with
        sockets := relay.sockets + 1
        sessions := relay.sessions.insert relay.sockets { connected := relay.now } }
  | refuse {relay : RelayServer} : step.input = .newConnection →
      Change relay { { relay with sockets := relay.sockets + 1 }.close relay.sockets with
        deleted := relay.sockets :: relay.deleted }
  | close {relay : RelayServer} (socket : Socket) : Change relay (relay.close socket)
  | ask {relay : RelayServer} (socket : Socket) (credential : String) :
      Change relay (relay.emit (.asked socket credential))
  | touch {relay : RelayServer} (socket : Socket) (f : Session → Session) : Keeps f →
      Change relay (relay.update socket f)
  | verify {relay : RelayServer} {socket : Socket} {principal : Principal} {state : Session} :
      step.input = .completion socket principal → relay.sessions.lookup socket = some state →
      live relay.now principal = true →
      (state.principal.accountId = "" ∨ principal.accountId = state.principal.accountId) →
      Change relay ((relay.update socket fun session => { session with principal :=
        { principal with expiresAt := min principal.expiresAt (DateTime.addSecs relay.now 60) }
          }).emit
          (.verified socket { principal with
            expiresAt := min principal.expiresAt (DateTime.addSecs relay.now 60) }))
  | reject {relay : RelayServer} {socket : Socket} {principal : Principal} {state : Session} :
      step.input = .completion socket principal → relay.sessions.lookup socket = some state →
      relay.Unpaired socket →
      Change relay ((transmit step.full socket (.error "unauthenticated")
        ((relay.update socket fun session => { session with principal := {} }).emit
          (.rejected socket))).close socket)
  | register {relay : RelayServer} {socket : Socket} {message : JsonObject} {state : Session}
      (id service : String) : step.input = .text socket message → relay = pre →
      relay.sessions.lookup socket = some state → relay.active socket = true →
      identifier id = true → identifier service = true →
      relay.duplicate socket id service = false →
      (state.id = "" ∨ state.id = id) → (state.service = "" ∨ state.service = service) →
      Change relay ((relay.update socket fun session => { session with
        id := id
        service := service
        name := (message.value "name").toString
        descriptor := descriptorOf platform id service message }).emit
          (.registered socket id service))
  | send {relay : RelayServer} {socket : Socket} {message : Outgoing} :
      relay.Sendable socket message → Change relay (transmit step.full socket message relay)
  | issue {relay : RelayServer} {socket : Socket} {message : JsonObject} {state : Session}
      (id : String) : step.input = .text socket message →
      relay.sessions.lookup socket = some state → relay.active socket = true →
      state.descriptor.isEmpty = false → relay.Unpaired socket →
      Change relay ({ relay with
        offers := relay.offers.insert
          (platform.sha256 (toLatin1 (platform.random relay.randoms).text))
          ⟨socket, id, min (DateTime.addSecs relay.now 60) state.principal.expiresAt, relay.randoms⟩
        randoms := relay.randoms + 1 }.emit (.issued relay.randoms socket
          (min (DateTime.addSecs relay.now 60) state.principal.expiresAt)))
  | claim {relay : RelayServer} {client : Socket} {hash : String} {offer : Offer} (id : String) :
      Claims platform relay step client hash offer → Claims platform pre step client hash offer →
      relay.now = pre.now → relay.Unpaired client →
      Change relay (({ relay with
        offers := relay.offers.erase hash
        pairs := relay.pairs.insert (platform.uuid relay.uuids) ⟨offer.host, client, offer.request,
          id, min (DateTime.addSecs relay.now 15) offer.expires⟩
        uuids := relay.uuids + 1 }.emit (.settled (.offer offer.issue) "claimed")).emit
          (.claimed offer.issue (platform.uuid relay.uuids) offer.host client
            (min (DateTime.addSecs relay.now 15) offer.expires)))
  | withdraw {relay : RelayServer} {hash status : String} {offer : Offer} :
      relay.offers.lookup hash = some offer → (status = "cancelled" ∨ status = "expired") →
      Change relay (relay.withdrawOffer (transmit step.full) hash status offer)
  | finish {relay : RelayServer} {key status : String} {pair : Pair} :
      relay.pairs.lookup key = some pair →
      (status = "cancelled" ∨ status = "expired" ∨
        (status = "paired" ∧ relay = pre ∧ Confirms pre step key pair)) →
      Change relay (relay.finishPair (transmit step.full) key status)
  | route {relay : RelayServer} {client host : Socket} {message : JsonObject} (id : String) :
      step.input = .text client message → relay = pre → relay.Meets client host →
      Change relay (transmit step.full host
        (.request client (platform.uuid relay.uuids) (relay.session client).id
          (message.value "payload"))
        ({ relay with
          routes := relay.routes.insert (platform.uuid relay.uuids)
            ⟨client, host, id, DateTime.addSecs relay.now 15⟩
          uuids := relay.uuids + 1 }.emit (.routed (platform.uuid relay.uuids) client host id)))
  | answer {relay : RelayServer} {message : JsonObject} {key : String} {route : Route} :
      step.input = .text route.host message → relay = pre →
      relay.routes.lookup key = some route → relay.active route.host = true →
      relay.active route.client = true →
      Change relay (transmit step.full route.client
        (.response (some route.host) route.id (message.value "result"))
        { relay with routes := relay.routes.erase key })
  | discard {relay : RelayServer} (key : String) :
      Change relay { relay with routes := relay.routes.erase key }
  | draw {relay : RelayServer} : Change relay { relay with randoms := relay.randoms + 1 }
  | forget {relay : RelayServer} {socket : Socket} : step.input = .disconnected socket →
      relay.Unpaired socket →
      Change relay { relay with sessions := relay.sessions.erase socket }
  | bury {relay : RelayServer} {socket : Socket} : step.input = .disconnected socket →
      socket ∉ relay.sessions →
      Change relay { relay with deleted := socket :: relay.deleted }
  | stop {relay : RelayServer} : step.input = .stop → Change relay relay.stop
  | rehash {relay : RelayServer} {sessions : Table Socket Session} {routes : Table String Route}
      {offers : Table String Offer} {pairs : Table String Pair} :
      Table.Same relay.sessions sessions → Table.Same relay.routes routes →
      Table.Same relay.offers offers → Table.Same relay.pairs pairs →
      Change relay { relay with
        sessions := sessions, routes := routes, offers := offers, pairs := pairs }

/-- A sequence of elementary changes. -/
abbrev Changes : RelayServer → RelayServer → Prop :=
  Relation.ReflTransGen (Change platform pre step)

/-! ## What pairing messages leave alone -/

/-- The second relay differs from the first only in offers, pairs, closing
sockets and the history. -/
structure PairingOnly (relay after : RelayServer) : Prop where
  now : after.now = relay.now
  sessions : after.sessions = relay.sessions
  routes : after.routes = relay.routes
  deleted : after.deleted = relay.deleted
  sockets : after.sockets = relay.sockets
  uuids : after.uuids = relay.uuids
  randoms : after.randoms = relay.randoms

theorem PairingOnly.refl (relay : RelayServer) : PairingOnly relay relay :=
  ⟨rfl, rfl, rfl, rfl, rfl, rfl, rfl⟩

theorem PairingOnly.trans {first second third : RelayServer} (h : PairingOnly first second)
    (h' : PairingOnly second third) : PairingOnly first third :=
  ⟨h'.now.trans h.now, h'.sessions.trans h.sessions, h'.routes.trans h.routes,
    h'.deleted.trans h.deleted, h'.sockets.trans h.sockets, h'.uuids.trans h.uuids,
    h'.randoms.trans h.randoms⟩

theorem PairingOnly.foldl {α : Type*} {f : RelayServer → α → RelayServer}
    (h : ∀ relay a, PairingOnly relay (f relay a)) (list : List α) (relay : RelayServer) :
    PairingOnly relay (list.foldl f relay) :=
  list.foldlRecOn f (motive := fun after => PairingOnly relay after) (.refl relay)
    fun after hafter a _ => hafter.trans (h after a)

section
variable {relay after : RelayServer} (h : PairingOnly relay after)
include h

theorem PairingOnly.session (socket : Socket) : after.session socket = relay.session socket := by
  rw [RelayServer.session, RelayServer.session, h.sessions]

theorem PairingOnly.active (socket : Socket) : after.active socket = relay.active socket := by
  rw [RelayServer.active, RelayServer.active, h.sessions, h.now]

theorem PairingOnly.target (source : Socket) (id : String) :
    after.target source id = relay.target source id := by
  rw [RelayServer.target, RelayServer.target, h.sessions, h.now, h.session]

theorem PairingOnly.meets (caller other : Socket) :
    after.Meets caller other ↔ relay.Meets caller other := by
  simp only [Meets, h.active, h.session, h.target]

end

section
variable (full : Socket → Outgoing → Bool) (socket : Socket) (message : Outgoing)
  (relay : RelayServer)

theorem transmit_pairingOnly : PairingOnly relay (transmit full socket message relay) := by
  unfold transmit
  split
  · exact .refl relay
  · split <;> exact ⟨rfl, rfl, rfl, rfl, rfl, rfl, rfl⟩

@[simp] theorem transmit_now : (transmit full socket message relay).now = relay.now :=
  (transmit_pairingOnly full socket message relay).now

@[simp] theorem transmit_sessions :
    (transmit full socket message relay).sessions = relay.sessions :=
  (transmit_pairingOnly full socket message relay).sessions

@[simp] theorem transmit_routes : (transmit full socket message relay).routes = relay.routes :=
  (transmit_pairingOnly full socket message relay).routes

@[simp] theorem transmit_deleted : (transmit full socket message relay).deleted = relay.deleted :=
  (transmit_pairingOnly full socket message relay).deleted

@[simp] theorem transmit_sockets : (transmit full socket message relay).sockets = relay.sockets :=
  (transmit_pairingOnly full socket message relay).sockets

@[simp] theorem transmit_offers : (transmit full socket message relay).offers = relay.offers := by
  unfold transmit
  split
  · rfl
  · split <;> rfl

@[simp] theorem transmit_pairs : (transmit full socket message relay).pairs = relay.pairs := by
  unfold transmit
  split
  · rfl
  · split <;> rfl

/-- A message that leaves or is too much does not take the host away. -/
theorem touch_transmit {message : Outgoing} {relay : RelayServer} {source host : Socket}
    {id : String}
    (hfound : relay.target source id = some host) :
    (transmit full host message { relay with randoms := relay.randoms + 1 }).touch host =
      transmit full host message { relay with randoms := relay.randoms + 1 } := by
  obtain ⟨-, session, hsession, -⟩ := target_spec hfound
  refine if_pos ?_
  rw [transmit_sessions]
  exact Table.mem_of_lookup hsession

end

/-! ## Pairing -/

section
variable {platform : Platform} {pre : RelayServer} {step : Step}

theorem changes_send {relay : RelayServer} {socket : Socket} {message : Outgoing}
    (h : relay.Sendable socket message) :
    Changes platform pre step relay (transmit step.full socket message relay) :=
  .single (.send h)

theorem cancelOffer_changes (socket : Socket) (request : String) (relay : RelayServer)
    (hash : String) :
    Changes platform pre step relay
      (relay.cancelOffer (transmit step.full) socket request hash) := by
  unfold cancelOffer
  cases h : relay.offers.lookup hash with
  | none => exact .refl
  | some offer =>
      dsimp only
      split
      · exact .single (.withdraw h (.inl rfl))
      · exact .refl

theorem cancelPair_changes (socket : Socket) (request : String) (relay : RelayServer)
    (key : String) :
    Changes platform pre step relay (relay.cancelPair (transmit step.full) socket request key) := by
  unfold cancelPair
  cases h : relay.pairs.lookup key with
  | none => exact .refl
  | some pair =>
      dsimp only
      split
      · exact .single (.finish h (.inl rfl))
      · exact .refl

theorem cancelPairing_changes (socket : Socket) (request : String) (relay : RelayServer) :
    Changes platform pre step relay
      (relay.cancelPairing (transmit step.full) socket request) :=
  (Relation.ReflTransGen.foldl (cancelOffer_changes socket request) _ relay).trans
    (Relation.ReflTransGen.foldl (cancelPair_changes socket request) _ _)

end

section
variable (full : Socket → Outgoing → Bool)

theorem withdrawOffer_pairingOnly (hash status : String) (offer : Offer) (relay : RelayServer) :
    PairingOnly relay (relay.withdrawOffer (transmit full) hash status offer) :=
  have hsettled : PairingOnly relay ({ relay with offers := relay.offers.erase hash }.emit
      (.settled (.offer offer.issue) status)) := ⟨rfl, rfl, rfl, rfl, rfl, rfl, rfl⟩
  hsettled.trans (transmit_pairingOnly ..)

@[simp] theorem withdrawOffer_offers (hash status : String) (offer : Offer)
    (relay : RelayServer) :
    (relay.withdrawOffer (transmit full) hash status offer).offers = relay.offers.erase hash := by
  simp [withdrawOffer]

@[simp] theorem withdrawOffer_pairs (hash status : String) (offer : Offer) (relay : RelayServer) :
    (relay.withdrawOffer (transmit full) hash status offer).pairs = relay.pairs := by
  simp [withdrawOffer]

theorem finishPair_pairingOnly (key status : String) (relay : RelayServer) :
    PairingOnly relay (relay.finishPair (transmit full) key status) := by
  unfold finishPair
  cases relay.pairs.lookup key with
  | none => exact .refl relay
  | some pair =>
      have herase : PairingOnly relay
          ({ relay with pairs := relay.pairs.erase key }.emit (.settled (.pair key) status)) :=
        ⟨rfl, rfl, rfl, rfl, rfl, rfl, rfl⟩
      dsimp only
      split <;> split
      · exact (herase.trans (transmit_pairingOnly ..)).trans (transmit_pairingOnly ..)
      · exact herase.trans (transmit_pairingOnly ..)
      · exact herase.trans (transmit_pairingOnly ..)
      · exact herase

@[simp] theorem finishPair_offers (key status : String) (relay : RelayServer) :
    (relay.finishPair (transmit full) key status).offers = relay.offers := by
  unfold finishPair
  cases relay.pairs.lookup key with
  | none => rfl
  | some pair => dsimp only; split <;> split <;> simp

theorem finishPair_pairs (key status : String) (relay : RelayServer) :
    (relay.finishPair (transmit full) key status).pairs =
      if key ∈ relay.pairs then relay.pairs.erase key else relay.pairs := by
  unfold finishPair
  cases h : relay.pairs.lookup key with
  | none => simp [AList.lookup_eq_none.1 h]
  | some pair =>
      have hmem : key ∈ relay.pairs := Table.mem_of_lookup h
      rw [if_pos hmem]
      dsimp only
      split <;> split <;> simp

theorem lookup_finishPair_pairs {key status other : String} {relay : RelayServer} {pair : Pair}
    (h : (relay.finishPair (transmit full) key status).pairs.lookup other = some pair) :
    other ≠ key ∧ relay.pairs.lookup other = some pair := by
  rw [finishPair_pairs] at h
  split at h
  · exact Table.lookup_erase_eq_some.1 h
  · next hmem =>
      refine ⟨?_, h⟩
      rintro rfl
      exact hmem (Table.mem_of_lookup h)

theorem cancelOffer_pairingOnly (socket : Socket) (request : String) (relay : RelayServer)
    (hash : String) :
    PairingOnly relay (relay.cancelOffer (transmit full) socket request hash) := by
  unfold cancelOffer
  cases relay.offers.lookup hash with
  | none => exact .refl relay
  | some offer =>
      dsimp only
      split
      · exact withdrawOffer_pairingOnly ..
      · exact .refl relay

theorem cancelPair_pairingOnly (socket : Socket) (request : String) (relay : RelayServer)
    (key : String) :
    PairingOnly relay (relay.cancelPair (transmit full) socket request key) := by
  unfold cancelPair
  cases relay.pairs.lookup key with
  | none => exact .refl relay
  | some pair =>
      dsimp only
      split
      · exact finishPair_pairingOnly ..
      · exact .refl relay

theorem cancelPairing_pairingOnly (socket : Socket) (request : String) (relay : RelayServer) :
    PairingOnly relay (relay.cancelPairing (transmit full) socket request) :=
  (PairingOnly.foldl (cancelOffer_pairingOnly full socket request) _ relay).trans
    (PairingOnly.foldl (cancelPair_pairingOnly full socket request) _ _)

/-- A round of the first loop removes its own offer or nothing. -/
theorem lookup_cancelOffer {socket : Socket} {request hash other : String} {relay : RelayServer}
    {offer : Offer}
    (h : (relay.cancelOffer (transmit full) socket request hash).offers.lookup other =
      some offer) : relay.offers.lookup other = some offer := by
  unfold cancelOffer at h
  cases hlookup : relay.offers.lookup hash with
  | none => rwa [hlookup] at h
  | some own =>
      simp only [hlookup] at h
      split at h
      · rw [withdrawOffer_offers] at h
        exact (Table.lookup_erase_eq_some.1 h).2
      · exact h

theorem lookup_cancelPair {socket : Socket} {request key other : String} {relay : RelayServer}
    {pair : Pair}
    (h : (relay.cancelPair (transmit full) socket request key).pairs.lookup other = some pair) :
    relay.pairs.lookup other = some pair := by
  unfold cancelPair at h
  cases hlookup : relay.pairs.lookup key with
  | none => rwa [hlookup] at h
  | some own =>
      simp only [hlookup] at h
      split at h
      · exact (lookup_finishPair_pairs full h).2
      · exact h

theorem cancelPair_offers (socket : Socket) (request : String) (relay : RelayServer)
    (key : String) :
    (relay.cancelPair (transmit full) socket request key).offers = relay.offers := by
  unfold cancelPair
  cases relay.pairs.lookup key with
  | none => rfl
  | some pair => dsimp only; split <;> simp

theorem foldl_cancelPair_offers (socket : Socket) (request : String) (keys : List String)
    (relay : RelayServer) :
    (keys.foldl (cancelPair (transmit full) socket request) relay).offers = relay.offers := by
  induction keys generalizing relay with
  | nil => rfl
  | cons key rest ih => rw [List.foldl_cons, ih, cancelPair_offers]

/-- After `cancelPairing` for every request the socket takes part in nothing. -/
theorem cancelPairing_unpaired (socket : Socket) (relay : RelayServer) :
    (relay.cancelPairing (transmit full) socket "").Unpaired socket := by
  constructor
  · simp only [cancelPairing, foldl_cancelPair_offers]
    refine Table.foldl_keys_all RelayServer.offers (cancelOffer (transmit full) socket "")
      (fun offer => offer.host = socket) (fun _ _ _ _ => lookup_cancelOffer full) ?_ relay
    intro state hash offer h
    have hbefore := lookup_cancelOffer full h
    intro hhost
    simp [cancelOffer, hbefore, hhost, AList.lookup_erase] at h
  · have hpairs := Table.foldl_keys_all RelayServer.pairs (cancelPair (transmit full) socket "")
      (fun pair => pair.host = socket ∨ pair.client = socket)
      (fun _ _ _ _ => lookup_cancelPair full) (by
        intro state key pair h
        have hbefore := lookup_cancelPair full h
        intro hbad
        simp only [cancelPair, hbefore, true_or, and_true, if_pos hbad] at h
        exact (lookup_finishPair_pairs full h).1 rfl)
      (relay.offers.keys.foldl (cancelOffer (transmit full) socket "") relay)
    exact hpairs.imp fun _ _ _ hne => not_or.1 hne

/-- `cancelPairing` does not touch the offers of other hosts. -/
theorem lookup_cancelPairing_offers {socket : Socket} (request : String) {hash : String}
    {relay : RelayServer} {offer : Offer} (h : relay.offers.lookup hash = some offer)
    (hhost : offer.host ≠ socket) :
    (relay.cancelPairing (transmit full) socket request).offers.lookup hash = some offer := by
  simp only [cancelPairing, foldl_cancelPair_offers]
  refine List.foldlRecOn relay.offers.keys (cancelOffer (transmit full) socket request)
    (motive := fun after => after.offers.lookup hash = some offer) h ?_
  intro after hafter other _
  unfold cancelOffer
  cases hother : after.offers.lookup other with
  | none => exact hafter
  | some own =>
      dsimp only
      split
      · next hmatch =>
          rw [withdrawOffer_offers]
          refine Table.lookup_erase_eq_some.2 ⟨?_, hafter⟩
          rintro rfl
          rw [hother] at hafter
          exact hhost (Option.some.inj hafter ▸ hmatch.1)
      · exact hafter

end

end RelayServer

end ServerHost
