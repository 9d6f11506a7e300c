import ServerHost.Library.Tally
import ServerHost.Wire.Envelopes

/-!
# The size of the directory

`directory` puts the descriptors of an account's hosts into one message.  A
registration limits the printed name and metadata of the host, but stores the values
of the message as they came, and neither the fingerprint nor a URL has a limit.  So the
message can be beyond `wireLimit`, and `send` then closes the socket of its recipient.

## Strategy

The message is as large as the descriptors it lists and 26 bytes (`fits_peers_iff`).  A
session brings a descriptor into an account and service when it registers there, or when it
registered before and is authenticated again after it lost its account; all else only
takes descriptors away (`next_seats`).  So it is enough to look at the descriptors of an
account and service whenever one is brought in (`overfills`), whoever is live by then: the
others of each member have room together (`Modest`), and the directory lists no others.
-/

namespace ServerHost

namespace RelayServer

variable (double : ℚ → List Char)

/-- The entries of the message that `directory` sends. -/
def listed (relay : RelayServer) (socket : Socket) : List (Socket × JsonObject) :=
  (relay.sessions.entries.filter fun entry => entry.1 ≠ socket &&
    reaches relay.now (relay.session socket) entry.2.id entry.2).map fun entry =>
      (entry.1, entry.2.descriptor)

/-- **No directory is too large.**  Whatever else is registered, the directory of a live,
registered session fits. -/
def Roomy (relay : RelayServer) : Prop :=
  ∀ socket, relay.active socket = true → (relay.session socket).id ≠ "" →
    Fits double (Outgoing.peers (relay.listed socket)).json

/-! ## The descriptors of an account and service -/

/-- The bytes of a descriptor in a message, with its comma. -/
def weight (session : Session) : ℕ := (toJson double session.descriptor).length + 1

/-- The bytes that a session adds to the descriptors of its account and service: none, unless
it registered as a host. -/
def bytes (session : Session) : ℕ := if session.descriptor.isEmpty then 0 else weight double session

/-- What the descriptors in a message may take. -/
def room : ℕ := wireLimit - 26

/-- The sizes of the descriptors in the account and service of `entrant`, which takes the place
of the session of `socket`. -/
def crowd (relay : RelayServer) (socket : Socket) (entrant : Session) : List ℕ :=
  bytes double entrant :: (relay.sessions.entries.filter fun entry => entry.1 ≠ socket &&
    entry.2.principal.accountId = entrant.principal.accountId &&
      entry.2.service = entrant.service).map fun entry => bytes double entry.2

/-- They have no room together, not even without one of them. -/
def crowded (relay : RelayServer) (socket : Socket) (entrant : Session) : Bool :=
  (crowd double relay socket entrant).any fun own =>
    room + own < (crowd double relay socket entrant).sum

variable (platform : Platform)

/-- `message` stores the registration it was sent. -/
def registers (relay : RelayServer) (socket : Socket) (message : JsonObject) : Bool :=
  let state := relay.session socket
  let id := (message.value "peerId").toString
  let service := (message.value "service").toString
  relay.active socket && messageType message = "register" && identifier id && identifier service &&
    size (message.value "name").toString ≤ 128 &&
    platform.jsonSize (message.value "metadata").toObject ≤ 8192 &&
    !relay.duplicate socket id service && (state.id = "" || state.id = id) &&
    (state.service = "" || state.service = service)

/-- The session as a registration leaves it. -/
def Session.registered (message : JsonObject) (session : Session) : Session :=
  let id := (message.value "peerId").toString
  let service := (message.value "service").toString
  { session with
    id := id
    service := service
    name := (message.value "name").toString
    descriptor := descriptorOf platform id service message }

/-- The relay with the session as a registration leaves it. -/
def recorded (relay : RelayServer) (socket : Socket) (message : JsonObject) : RelayServer :=
  (relay.update socket (Session.registered platform message)).emit
    (.registered socket (message.value "peerId").toString (message.value "service").toString)

/-- The session as an authentication leaves it. -/
def Session.verified (now : ℤ) (principal : Principal) (session : Session) : Session :=
  { session with principal :=
    { principal with expiresAt := min principal.expiresAt (DateTime.addSecs now 60) } }

/-- The authentication of a session succeeds. -/
def admits (relay : RelayServer) (socket : Socket) (principal : Principal) : Bool :=
  match relay.sessions.lookup socket with
  | none => false
  | some state => live relay.now principal &&
      (state.principal.accountId = "" || principal.accountId = state.principal.accountId)

/-- A descriptor is brought into an account and service whose descriptors leave no room for
it: by a registration, or by the authentication of a session that has no account. -/
def overfills (relay : RelayServer) (step : Step) : Bool :=
  match step.input with
  | .text socket message => relay.registers platform socket message &&
      relay.crowded double socket ((relay.session socket).registered platform message)
  | .completion socket principal => relay.admits socket principal &&
      decide ((relay.session socket).principal.accountId = "") &&
      relay.crowded double socket ((relay.session socket).verified relay.now principal)
  | _ => false

variable {double platform}
variable {relay after : RelayServer} {socket : Socket} {full : Socket → Outgoing → Bool}

/-! ## The size of the message -/

theorem directory_eq (send : Send) (relay : RelayServer) (socket : Socket) :
    relay.directory send socket =
      if ¬ relay.active socket ∨ (relay.session socket).id = "" then relay
      else send socket (.peers (relay.listed socket)) relay := rfl

theorem fits_peers_iff (entries : List (Socket × JsonObject)) :
    Fits double (Outgoing.peers entries).json ↔
      (entries.map fun entry => (toJson double entry.2).length + 1).sum ≤ room := by
  have htype : width ((Json.string "peers").write double) = 7 :=
    (width_identifier (by decide)).trans (by decide)
  have hsum : (entries.map fun entry => (toJson double entry.2).length + 1) =
      (entries.map fun entry => entry.2.json).map fun item => width (item.write double) + 1 := by
    rw [List.map_map]
    rfl
  have hroom : room + 26 = wireLimit := rfl
  have hlimit : wireLimit = 1048576 := rfl
  have hkeys : "type".toList.length = 4 ∧ "peers".toList.length = 5 := by decide
  rw [Fits, Outgoing.json, length_toJson (by simp) (by simp [Json.isUndefined]), hsum]
  simp only [cost_cons, cost_nil]
  rw [width_field (by decide), width_field (by decide), htype, width_array]
  omega

/-- The session is a host of the account and service. -/
def hosts (accountId service : String) (session : Session) : Bool :=
  !session.descriptor.isEmpty && session.principal.accountId = accountId &&
    session.service = service

/-- The bytes of the descriptors in an account and service, without the sockets in `hidden`. -/
def load (double : ℚ → List Char) (accountId service : String) (hidden : List Socket)
    (relay : RelayServer) : ℕ :=
  Table.sum (fun socket session =>
    if socket ∉ hidden ∧ hosts accountId service session = true then weight double session
    else 0) relay.sessions

/-- The directory lists descriptors of the account and service of its recipient. -/
theorem sum_listed_le (relay : RelayServer) (socket : Socket) :
    ((relay.listed socket).map fun entry => (toJson double entry.2).length + 1).sum ≤
      load double (relay.session socket).principal.accountId (relay.session socket).service [socket]
        relay := by
  rw [listed, List.map_map, load, Table.sum]
  induction relay.sessions.entries with
  | nil => exact le_rfl
  | cons entry rest ih =>
      rw [List.map_cons, List.sum_cons, List.filter_cons]
      by_cases hlisted : (entry.1 ≠ socket &&
          reaches relay.now (relay.session socket) entry.2.id entry.2) = true
      · have hhosts : entry.1 ∉ [socket] ∧ hosts (relay.session socket).principal.accountId
            (relay.session socket).service entry.2 = true := by
          simp only [reaches, Bool.and_eq_true, decide_eq_true_eq] at hlisted
          obtain ⟨hother, ⟨⟨⟨-, -⟩, hdescriptor⟩, haccount⟩, hservice⟩ := hlisted
          refine ⟨by simpa using hother, ?_⟩
          simp only [hosts, hdescriptor, haccount, hservice, Bool.true_and, decide_true]
        rw [if_pos hlisted, if_pos hhosts, List.map_cons, List.sum_cons]
        exact Nat.add_le_add_left ih _
      · rw [if_neg hlisted]
        exact ih.trans (Nat.le_add_left _ _)

/-- The others of each member have room together. -/
def Modest (double : ℚ → List Char) (relay : RelayServer) : Prop :=
  ∀ socket session, relay.sessions.lookup socket = some session → session.principal.accountId ≠ "" →
    load double session.principal.accountId session.service [socket] relay ≤ room

theorem Modest.roomy (h : Modest double relay) : Roomy double relay := by
  intro socket hactive _
  obtain ⟨session, hlookup, hlive⟩ := active_iff.1 hactive
  rw [fits_peers_iff]
  refine (sum_listed_le relay socket).trans ?_
  rw [session_of_lookup hlookup]
  exact h socket session hlookup (live_accountId hlive)

/-! ### The sizes of the descriptors -/

theorem bytes_of_hosts {accountId service : String} {session : Session} :
    (if hosts accountId service session = true then weight double session else 0) =
      if session.principal.accountId = accountId ∧ session.service = service then
        bytes double session else 0 := by
  unfold hosts bytes
  cases session.descriptor.isEmpty <;> simp

theorem crowd_sum (relay : RelayServer) (socket : Socket) (entrant : Session) :
    (crowd double relay socket entrant).sum = bytes double entrant +
      load double entrant.principal.accountId entrant.service [socket] relay := by
  rw [crowd, List.sum_cons, load, Table.sum]
  congr 1
  induction relay.sessions.entries with
  | nil => rfl
  | cons entry rest ih =>
      rw [List.map_cons, List.sum_cons, ← ih, List.filter_cons]
      by_cases hother : entry.1 = socket
      · simp [hother]
      · have hentry := @bytes_of_hosts double entrant.principal.accountId entrant.service entry.2
        by_cases hsame : entry.2.principal.accountId = entrant.principal.accountId ∧
            entry.2.service = entrant.service
        · rw [if_pos hsame] at hentry
          simp [hother, hsame, hentry]
        · rw [if_neg hsame] at hentry
          simp [hother, hsame, hentry]

/-! ## Who is in the table -/

/-- Both sessions have the same account, service and descriptor. -/
structure Session.Like (first second : Session) : Prop where
  account : first.principal.accountId = second.principal.accountId
  id : first.id = second.id
  service : first.service = second.service
  descriptor : first.descriptor = second.descriptor

/-- A session with an account was there before. -/
structure Thins (relay after : RelayServer) : Prop where
  now : after.now = relay.now
  kept : ∀ socket session, after.sessions.lookup socket = some session →
    session.principal.accountId = "" ∨
      ∃ old, relay.sessions.lookup socket = some old ∧ session.Like old

/-- `entrant` is now the session of `socket`, and the others were there before. -/
structure Seats (relay after : RelayServer) (socket : Socket) (entrant : Session) : Prop where
  now : after.now = relay.now
  own : ∀ session, after.sessions.lookup socket = some session → session.Like entrant
  others : ∀ other session, other ≠ socket → after.sessions.lookup other = some session →
    ∃ old, relay.sessions.lookup other = some old ∧ session.Like old

variable {first second third : RelayServer} {pre : RelayServer} {step : Step}

theorem Session.Like.refl (session : Session) : session.Like session := ⟨rfl, rfl, rfl, rfl⟩

theorem Session.Like.trans {first second third : Session} (h : first.Like second)
    (h' : second.Like third) : first.Like third :=
  ⟨h.account.trans h'.account, h.id.trans h'.id, h.service.trans h'.service,
    h.descriptor.trans h'.descriptor⟩

theorem Keeps.like {f : Session → Session} (h : Keeps f) (session : Session) :
    (f session).Like session :=
  ⟨congrArg Principal.accountId (h session).1, (h session).2.1, (h session).2.2.1,
    (h session).2.2.2.2⟩

theorem Thins.of_sessions (hnow : after.now = relay.now) (h : after.sessions = relay.sessions) :
    Thins relay after :=
  ⟨hnow, fun _ session hlookup => .inr ⟨session, h ▸ hlookup, .refl session⟩⟩

theorem Thins.trans (h : Thins first second) (h' : Thins second third) : Thins first third := by
  refine ⟨h'.now.trans h.now, fun socket session hlookup => ?_⟩
  rcases h'.kept socket session hlookup with hnone | ⟨old, hold, hlike⟩
  · exact .inl hnone
  · rcases h.kept socket old hold with hnone | ⟨older, holder, hlike'⟩
    · exact .inl (hlike.account.trans hnone)
    · exact .inr ⟨older, holder, hlike.trans hlike'⟩

theorem Thins.touch (relay : RelayServer) (socket : Socket) {f : Session → Session} (h : Keeps f) :
    Thins relay (relay.update socket f) := by
  refine ⟨rfl, fun other session hlookup => .inr ?_⟩
  rcases Table.lookup_modify_eq_some.1 hlookup with ⟨rfl, old, hold, rfl⟩ | ⟨-, hold⟩
  · exact ⟨old, hold, h.like old⟩
  · exact ⟨session, hold, .refl session⟩

theorem Thins.transmit (full : Socket → Outgoing → Bool) (socket : Socket) (message : Outgoing)
    (relay : RelayServer) : Thins relay (RelayServer.transmit full socket message relay) :=
  .of_sessions (transmit_now ..) (transmit_sessions ..)

theorem Thins.close (socket : Socket) (relay : RelayServer) : Thins relay (relay.close socket) :=
  .of_sessions rfl rfl

theorem PairingOnly.thins (h : PairingOnly first second) : Thins first second :=
  .of_sessions h.now h.sessions

theorem Seats.of_modify {f : Session → Session} {state entrant : Session}
    (hnow : after.now = relay.now)
    (hsessions : after.sessions = Table.modify socket f relay.sessions)
    (hstate : relay.sessions.lookup socket = some state) (hf : (f state).Like entrant) :
    Seats relay after socket entrant := by
  refine ⟨hnow, fun session hlookup => ?_, fun other session hne hlookup => ?_⟩
  · rw [hsessions, Table.lookup_modify, if_pos rfl, hstate] at hlookup
    obtain rfl := Option.some.inj hlookup
    exact hf
  · rw [hsessions, Table.lookup_modify, if_neg hne] at hlookup
    exact ⟨session, hlookup, .refl session⟩

/-- A session takes its own place. -/
theorem Seats.thins {entrant state : Session} (h : Seats relay after socket entrant)
    (hstate : relay.sessions.lookup socket = some state) (hlike : entrant.Like state) :
    Thins relay after := by
  refine ⟨h.now, fun other session hlookup => .inr ?_⟩
  by_cases hown : other = socket
  · subst hown
    exact ⟨state, hstate, (h.own session hlookup).trans hlike⟩
  · exact h.others other session hown hlookup

/-- An input that lets nobody in and does not move the clock. -/
def Input.idle : Input → Bool
  | .text .. | .completion .. | .clock _ => false
  | _ => true

theorem thins_of_changes (hinput : step.input.idle = true)
    (changes : Changes platform pre step relay after) : Thins relay after := by
  refine changes.invariant (I := fun current => Thins relay current) ?_ (.of_sessions rfl rfl)
  intro first second change h
  refine h.trans ?_
  cases change with
  | clock _ heq | verify heq | reject heq | register _ _ heq =>
      rw [heq] at hinput
      cases hinput
  | welcome =>
      refine ⟨rfl, fun other session hlookup => ?_⟩
      rcases Table.lookup_insert_eq_some.1 hlookup with ⟨-, rfl⟩ | ⟨-, hold⟩
      · exact .inl rfl
      · exact .inr ⟨session, hold, .refl session⟩
  | touch socket f hkeeps => exact .touch first socket hkeeps
  | send => exact .transmit ..
  | withdraw => exact (withdrawOffer_pairingOnly ..).thins
  | finish => exact (finishPair_pairingOnly ..).thins
  | route | answer => exact .of_sessions (transmit_now ..) (transmit_sessions ..)
  | forget =>
      refine ⟨rfl, fun other session hlookup => .inr ?_⟩
      exact ⟨session, (Table.lookup_erase_eq_some.1 hlookup).2, .refl session⟩
  | stop => exact ⟨rfl, fun other session hlookup => by simp [stop] at hlookup⟩
  | rehash hsessions =>
      refine ⟨rfl, fun other session hlookup => .inr ⟨session, ?_, .refl session⟩⟩
      rw [hsessions.lookup]
      exact hlookup
  | _ => exact .of_sessions rfl rfl

/-! ### Messages that are no registrations -/

theorem pairConfirm_thins (message : JsonObject) (relay : RelayServer) :
    Thins relay (relay.pairConfirm (transmit full) socket message) := by
  unfold pairConfirm
  dsimp only
  split
  · exact .of_sessions rfl rfl
  · split
    · exact .of_sessions rfl rfl
    · split
      · exact (finishPair_pairingOnly ..).thins
      · exact (finishPair_pairingOnly ..).thins

theorem pairOffer_thins (id : String) (relay : RelayServer) :
    Thins relay (relay.pairOffer platform (transmit full) socket id) := by
  unfold pairOffer
  dsimp only
  split
  · exact .transmit ..
  · refine (cancelPairing_pairingOnly full socket "" relay).thins.trans ?_
    exact .of_sessions (transmit_now ..) (transmit_sessions ..)

theorem pairClaim_thins (id : String) (message : JsonObject) (relay : RelayServer) :
    Thins relay (relay.pairClaim platform (transmit full) socket id message) := by
  unfold pairClaim
  dsimp only
  split
  · exact .transmit ..
  · split
    · exact .transmit ..
    · refine (cancelPairing_pairingOnly full socket "" relay).thins.trans ?_
      refine .trans (.of_sessions ?_ ?_) (.transmit ..)
      · exact transmit_now ..
      · exact transmit_sessions ..

theorem pairMessage_thins (message : JsonObject) (relay : RelayServer) :
    Thins relay (relay.pairMessage platform (transmit full) socket message) := by
  unfold pairMessage
  dsimp only
  split
  · exact pairConfirm_thins ..
  split
  · exact .close ..
  split
  · exact (cancelPairing_pairingOnly ..).thins
  refine (Thins.touch relay socket (countAttempt_keeps relay.now)).trans ?_
  split
  · exact .transmit ..
  split
  · exact pairOffer_thins ..
  split
  · exact pairClaim_thins ..
  · exact .close ..

theorem requestMessage_thins (message : JsonObject) (relay : RelayServer) :
    Thins relay (relay.requestMessage platform (transmit full) socket message) := by
  unfold requestMessage
  dsimp only
  split
  · exact .close ..
  split
  · exact .transmit ..
  split
  · exact .transmit ..
  · exact .of_sessions (transmit_now ..) (transmit_sessions ..)

theorem responseMessage_thins (message : JsonObject) (relay : RelayServer) :
    Thins relay (relay.responseMessage (transmit full) socket message) := by
  unfold responseMessage
  dsimp only
  split
  · exact .of_sessions rfl rfl
  split
  · exact .of_sessions rfl rfl
  split
  · exact .of_sessions (transmit_now ..) (transmit_sessions ..)
  · exact .of_sessions rfl rfl

theorem changed_thins (relay : RelayServer) : Thins relay (relay.changed (transmit full)) :=
  thins_of_changes (show (Step.mk Input.sweep full).input.idle = true from rfl)
    (show Changes .sample relay _ relay _ from changed_changes relay)

/-! ### Who is let in -/

/-- A registration that passes every check is stored. -/
theorem registerMessage_eq {message : JsonObject}
    (h : relay.registers platform socket message = true) :
    relay.registerMessage platform (transmit full) socket message =
      (transmit full socket .registered
        (if ¬ (relay.session socket).descriptor.isEmpty ∧
            ((relay.session socket).registered platform message).descriptor.isEmpty then
          (relay.recorded platform socket message).cancelPairing (transmit full) socket ""
        else relay.recorded platform socket message)).changed (transmit full) := by
  simp only [registers, Bool.and_eq_true, Bool.or_eq_true, decide_eq_true_eq,
    Bool.not_eq_true'] at h
  obtain ⟨⟨⟨⟨⟨⟨⟨⟨-, -⟩, hid⟩, hservice⟩, hname⟩, hmetadata⟩, hduplicate⟩, hsame⟩, hpinned⟩ := h
  have hshape : ¬ (¬ identifier (message.value "peerId").toString = true ∨
      ¬ identifier (message.value "service").toString = true ∨
      size (message.value "name").toString > 128 ∨
      platform.jsonSize (message.value "metadata").toObject > 8192) := by
    push Not
    exact ⟨hid, hservice, hname, hmetadata⟩
  have hstate : ¬ (((relay.session socket).id ≠ "" ∧
      (relay.session socket).id ≠ (message.value "peerId").toString) ∨
      ((relay.session socket).service ≠ "" ∧
        (relay.session socket).service ≠ (message.value "service").toString)) := by
    push Not
    exact ⟨or_iff_not_imp_left.1 hsame, or_iff_not_imp_left.1 hpinned⟩
  unfold registerMessage
  dsimp only
  rw [if_neg hshape, if_neg (by rw [hduplicate]; exact Bool.false_ne_true), if_neg hstate]
  rfl

/-- Nothing after the session is stored touches the table again. -/
theorem registerMessage_stores (full : Socket → Outgoing → Bool) {message : JsonObject}
    (h : relay.registers platform socket message = true) :
    (relay.registerMessage platform (transmit full) socket message).now = relay.now ∧
    (relay.registerMessage platform (transmit full) socket message).sessions =
      Table.modify socket (Session.registered platform message) relay.sessions := by
  have htail : ∀ current : RelayServer,
      PairingOnly (relay.recorded platform socket message) current →
      ((transmit full socket .registered current).changed (transmit full)).now = relay.now ∧
      ((transmit full socket .registered current).changed (transmit full)).sessions =
        Table.modify socket (Session.registered platform message) relay.sessions := by
    intro current honly
    constructor
    · rw [(changed_thins _).now, transmit_now, honly.now]
      rfl
    · rw [changed, foldl_sessions (directory_sessions full), transmit_sessions, honly.sessions]
      rfl
  rw [registerMessage_eq h]
  split
  · exact htail _ (cancelPairing_pairingOnly ..)
  · exact htail _ (.refl _)

theorem registerMessage_thins {message : JsonObject} (hactive : relay.active socket = true)
    (htype : messageType message = "register")
    (h : relay.registers platform socket message = false) :
    Thins relay (relay.registerMessage platform (transmit full) socket message) := by
  unfold registerMessage
  dsimp only
  split
  · exact .close ..
  next hshape =>
  split
  · exact (Thins.transmit ..).trans (.close ..)
  next hduplicate =>
  split
  · exact .close ..
  next hpinned =>
  push Not at hshape hpinned
  have hid := or_iff_not_imp_left.2 hpinned.1
  have hservice := or_iff_not_imp_left.2 hpinned.2
  have hstores : relay.registers platform socket message = true := by
    simp only [registers, hactive, htype, hshape.1, hshape.2.1, hduplicate, Bool.and_eq_true,
      Bool.or_eq_true, decide_eq_true_eq, Bool.not_false]
    exact ⟨⟨⟨⟨⟨⟨⟨⟨trivial, trivial⟩, trivial⟩, trivial⟩, hshape.2.2.1⟩, hshape.2.2.2⟩,
      by simp⟩, hid⟩, hservice⟩
  rw [h] at hstores
  cases hstores

theorem authCompleted_seats (principal : Principal) :
    (relay.admits socket principal = true ∧ (relay.session socket).principal.accountId = "" ∧
      Seats relay (relay.authCompleted (transmit full) socket principal) socket
        ((relay.session socket).verified relay.now principal)) ∨
    Thins relay (relay.authCompleted (transmit full) socket principal) := by
  unfold authCompleted
  cases hstate : relay.sessions.lookup socket with
  | none => exact .inr (.of_sessions rfl rfl)
  | some state =>
      have hsession := session_of_lookup hstate
      dsimp only
      split
      · -- The session loses its principal, so it hosts nothing.
        refine .inr (.trans (.touch relay socket (f := fun session =>
          { session with authenticating := false }) fun _ => ⟨rfl, rfl, rfl, rfl, rfl⟩) ?_)
        generalize relay.update socket _ = current
        have honly := cancelPairing_pairingOnly full socket "" current
        refine honly.thins.trans (.trans ?_ ((Thins.transmit ..).trans (.close ..)))
        refine ⟨rfl, fun other session hlookup => ?_⟩
        rcases Table.lookup_modify_eq_some.1 hlookup with ⟨rfl, old, hold, rfl⟩ | ⟨-, hold⟩
        · exact .inl rfl
        · exact .inr ⟨session, hold, .refl session⟩
      · next hchecks =>
          push Not at hchecks
          have hlive : live relay.now principal = true := hchecks.1
          have hadmits : relay.admits socket principal = true := by
            simp only [admits, hstate]
            rw [hlive, Bool.true_and, Bool.or_eq_true, decide_eq_true_eq, decide_eq_true_eq]
            exact or_iff_not_imp_left.2 hchecks.2
          -- A first verification seats the session; a later one finds it seated.
          have hplace : ∀ after : RelayServer,
              Seats relay after socket (state.verified relay.now principal) →
              (relay.admits socket principal = true ∧ state.principal.accountId = "" ∧
                Seats relay after socket (state.verified relay.now principal)) ∨
              Thins relay after := by
            intro after hseats
            by_cases haccount : state.principal.accountId = ""
            · exact .inl ⟨hadmits, haccount, hseats⟩
            · -- The account is the same as before.
              exact .inr (hseats.thins hstate ⟨hchecks.2 haccount, rfl, rfl, rfl⟩)
          rw [hsession]
          refine hplace _ (.of_modify (f := fun session => Session.verified relay.now principal
            { session with authenticating := false }) (transmit_now ..) ?_ hstate
            ⟨rfl, rfl, rfl, rfl⟩)
          rw [transmit_sessions, emit_sessions]
          exact Table.modify_modify relay.sessions socket (Session.verified relay.now principal)
            fun session => { session with authenticating := false }

theorem message_seats (message : JsonObject) (full : Socket → Outgoing → Bool) :
    (relay.registers platform socket message = true ∧ relay.active socket = true ∧
      Seats relay (relay.message platform (transmit full) socket message) socket
        ((relay.session socket).registered platform message)) ∨
    Thins relay (relay.message platform (transmit full) socket message) := by
  -- A handler that is not given the message cannot register anything.
  have hidle : ∀ {current : RelayServer}, Changes platform relay ⟨.sweep, full⟩ relay current →
      Thins relay current := thins_of_changes rfl
  unfold RelayServer.message
  dsimp only
  by_cases hmem : socket ∉ relay.sessions
  · rw [if_pos hmem]
    exact .inr (.of_sessions rfl rfl)
  rw [if_neg hmem]
  by_cases hauth : messageType message = "auth"
  · rw [if_pos hauth]
    exact .inr (hidle (authMessage_changes ..))
  rw [if_neg hauth]
  by_cases hactive : ¬ relay.active socket = true
  · rw [if_pos hactive]
    exact .inr (.close ..)
  rw [if_neg hactive]
  rw [not_not] at hactive
  by_cases htype : messageType message = "register"
  · rw [if_pos htype]
    cases hregisters : relay.registers platform socket message with
    | false => exact .inr (registerMessage_thins hactive htype hregisters)
    | true =>
        obtain ⟨state, hstate, -⟩ := active_iff.1 hactive
        obtain ⟨hnow, hsessions⟩ := registerMessage_stores full hregisters
        refine .inl ⟨rfl, hactive, .of_modify hnow hsessions hstate ?_⟩
        rw [session_of_lookup hstate]
        exact .refl _
  rw [if_neg htype]
  refine .inr ?_
  by_cases hid : (relay.session socket).id = ""
  · rw [if_pos hid]
    exact .close ..
  rw [if_neg hid]
  by_cases hpair : startsWith (messageType message) "pair-" = true
  · rw [if_pos hpair]
    exact pairMessage_thins ..
  rw [if_neg hpair]
  by_cases hlist : messageType message = "list"
  · rw [if_pos hlist]
    exact hidle (directory_changes ..)
  rw [if_neg hlist]
  by_cases hconnect : messageType message = "connect"
  · rw [if_pos hconnect]
    exact hidle (connectMessage_changes hactive hid)
  rw [if_neg hconnect]
  by_cases hrequest : messageType message = "request"
  · rw [if_pos hrequest]
    exact requestMessage_thins ..
  rw [if_neg hrequest]
  by_cases hresponse : messageType message = "response"
  · rw [if_pos hresponse]
    exact responseMessage_thins ..
  · rw [if_neg hresponse]
    exact .close ..

/-- **One turn brings at most one descriptor in**, and the clock none. -/
theorem next_seats (hfeasible : relay.Feasible step) :
    (∃ socket entrant, Seats relay (next platform relay step) socket entrant ∧
      (overfills double platform relay step = false →
        crowded double relay socket entrant = false)) ∨
    (∀ socket session, (next platform relay step).sessions.lookup socket = some session →
      session.principal.accountId = "" ∨
        ∃ old, relay.sessions.lookup socket = some old ∧ session.Like old) := by
  cases hinput : step.input with
  | clock time =>
      refine .inr fun socket session hlookup => .inr ⟨session, ?_, .refl session⟩
      rwa [next, hinput, turn] at hlookup
  -- of all messages only a registration adds to a directory
  | text socket message =>
      have hover : overfills double platform relay step =
          (relay.registers platform socket message && relay.crowded double socket
            ((relay.session socket).registered platform message)) := by
        rw [overfills, hinput]
      have hnext : next platform relay step =
          relay.message platform (transmit step.full) socket message := by
        rw [next, hinput, turn]
      rw [hnext, hover]
      rcases message_seats message step.full with ⟨hregisters, hactive, hseats⟩ | hthins
      · refine .inl ⟨socket, _, hseats, fun hfalse => ?_⟩
        rwa [hregisters, Bool.true_and] at hfalse
      · exact .inr hthins.kept
  -- and a completion does where it gives the session its account
  | completion socket principal =>
      have hover : overfills double platform relay step = (relay.admits socket principal &&
          decide ((relay.session socket).principal.accountId = "") &&
          relay.crowded double socket ((relay.session socket).verified relay.now principal)) := by
        rw [overfills, hinput]
      have hnext : next platform relay step =
          relay.authCompleted (transmit step.full) socket principal := by
        rw [next, hinput, turn]
      rw [hnext, hover]
      rcases authCompleted_seats principal with ⟨hadmits, haccount, hseats⟩ | hthins
      · refine .inl ⟨socket, _, hseats, fun hfalse => ?_⟩
        rwa [hadmits, decide_eq_true haccount, Bool.true_and, Bool.true_and] at hfalse
      · exact .inr hthins.kept
  | _ =>
      exact .inr (thins_of_changes (by rw [hinput]; rfl) (next_changes platform hfeasible)).kept

/-! ## Whether there is room -/

section
variable {accountId service : String} {hidden : List Socket}

theorem Session.Like.hosts {first second : Session} (h : first.Like second) :
    RelayServer.hosts accountId service first = RelayServer.hosts accountId service second := by
  rw [RelayServer.hosts, RelayServer.hosts, h.account, h.service, h.descriptor]

theorem Session.Like.weight {first second : Session} (h : first.Like second) :
    RelayServer.weight double first = RelayServer.weight double second := by
  rw [RelayServer.weight, RelayServer.weight, h.descriptor]

theorem Session.Like.bytes {first second : Session} (h : first.Like second) :
    RelayServer.bytes double first = RelayServer.bytes double second := by
  rw [RelayServer.bytes, RelayServer.bytes, h.weight, h.descriptor]

/-- Nobody's descriptor is brought in. -/
theorem load_kept (haccount : accountId ≠ "")
    (h : ∀ socket session, after.sessions.lookup socket = some session →
      session.principal.accountId = "" ∨
        ∃ old, relay.sessions.lookup socket = some old ∧ session.Like old) :
    load double accountId service hidden after ≤ load double accountId service hidden relay := by
  refine Table.sum_le_sum fun other session hlookup => ?_
  rcases h other session hlookup with hnone | ⟨old, hold, hlike⟩
  · refine .inl (if_neg fun hhosts => ?_)
    simp [hosts, hnone, haccount.symm] at hhosts
  · refine .inr ⟨old, hold, ?_⟩
    rw [hlike.hosts, hlike.weight]

/-- The session that is let in is hidden, or hosts nothing for these members. -/
theorem load_seats {entrant : Session} (h : Seats relay after socket entrant)
    (hout : socket ∈ hidden ∨ hosts accountId service entrant = false) :
    load double accountId service hidden after ≤ load double accountId service hidden relay := by
  refine Table.sum_le_sum fun other session hlookup => ?_
  by_cases hown : other = socket
  · subst hown
    refine .inl (if_neg ?_)
    rw [(h.own session hlookup).hosts]
    rcases hout with hmem | hhosts
    · exact fun hboth => hboth.1 hmem
    · exact fun hboth => by simp [hhosts] at hboth
  · obtain ⟨old, hold, hlike⟩ := h.others other session hown hlookup
    refine .inr ⟨old, hold, ?_⟩
    rw [hlike.hosts, hlike.weight]

/-- The session that is let in pays for itself. -/
theorem load_entrant {entrant : Session} (h : Seats relay after socket entrant) (own : Socket)
    (hhosts : hosts accountId service entrant = true) :
    load double accountId service [own] after ≤
      load double accountId service [own, socket] relay + bytes double entrant := by
  refine Table.sum_le_add socket (fun other session hother hlookup => ?_)
    fun session hlookup => ?_
  · obtain ⟨old, hold, hlike⟩ := h.others other session hother hlookup
    refine .inr ⟨old, hold, ?_⟩
    rw [hlike.hosts, hlike.weight]
    by_cases hmem : other ∉ [own] ∧ hosts accountId service old = true
    · rw [if_pos hmem, if_pos]
      refine ⟨fun hin => ?_, hmem.2⟩
      rcases List.mem_pair.1 hin with heq | heq
      · exact hmem.1 (List.mem_singleton.2 heq)
      · exact hother heq
    · rw [if_neg hmem]
      exact Nat.zero_le _
  · have hlike := h.own session hlookup
    have hbytes := @bytes_of_hosts double accountId service entrant
    rw [hlike.weight, hlike.hosts]
    split
    · rw [if_pos hhosts] at hbytes
      rw [hbytes]
      split
      · exact le_rfl
      · exact Nat.zero_le _
    · exact Nat.zero_le _

/-- The descriptors of the others, and that of one of them. -/
theorem load_split {old : Session} {other : Socket} (hold : relay.sessions.lookup other = some old)
    (hne : other ≠ socket) (haccount : old.principal.accountId = accountId)
    (hservice : old.service = service) :
    load double accountId service [other, socket] relay + bytes double old =
      load double accountId service [socket] relay := by
  have hbytes : (if hosts accountId service old = true then weight double old else 0) =
      bytes double old := bytes_of_hosts.trans (if_pos ⟨haccount, hservice⟩)
  have hother : other ∉ [socket] := by simpa using hne
  have hsplit := @Table.sum_split Socket Session _ (fun own session =>
    if own ∉ [socket] ∧ hosts accountId service session = true then weight double session
    else 0) relay.sessions other old hold
  simp only [hother, not_false_eq_true, true_and, hbytes] at hsplit
  refine Eq.trans (congrArg (· + bytes double old) ?_) hsplit
  refine congrArg (Table.sum · relay.sessions) (funext₂ fun own session => ?_)
  by_cases hown : own = other <;> simp [hown]

end

theorem Modest.kept (h : Modest double relay)
    (hkept : ∀ socket session, after.sessions.lookup socket = some session →
      session.principal.accountId = "" ∨
        ∃ old, relay.sessions.lookup socket = some old ∧ session.Like old) :
    Modest double after := by
  intro socket session hlookup haccount
  rcases hkept socket session hlookup with hnone | ⟨old, hold, hlike⟩
  · exact absurd hnone haccount
  · rw [hlike.account] at haccount ⊢
    rw [hlike.service]
    exact (load_kept haccount hkept).trans (h socket old hold haccount)

theorem Modest.seats (h : Modest double relay) {entrant : Session}
    (hseats : Seats relay after socket entrant)
    (hroom : crowded double relay socket entrant = false) : Modest double after := by
  have hall : ∀ own ∈ crowd double relay socket entrant,
      (crowd double relay socket entrant).sum ≤ room + own := by
    intro own hown
    exact not_lt.1 fun hlarge => List.any_eq_false.1 hroom own hown (decide_eq_true hlarge)
  rw [crowd_sum] at hall
  intro other session hlookup haccount
  by_cases hown : other = socket
  · -- The session that is let in sees all the others.
    subst hown
    have hlike := hseats.own session hlookup
    have hentrant := hall _ List.mem_cons_self
    rw [hlike.account, hlike.service]
    refine (load_seats hseats (.inl (List.mem_singleton_self _))).trans ?_
    omega
  · obtain ⟨old, hold, hlike⟩ := hseats.others other session hown hlookup
    rw [hlike.account] at haccount ⊢
    rw [hlike.service]
    cases hhosts : hosts old.principal.accountId old.service entrant with
    | false => exact (load_seats hseats (.inr hhosts)).trans (h other old hold haccount)
    | true =>
        -- It is a host of their account and service, so `crowd` counts both.
        simp only [hosts, Bool.and_eq_true, decide_eq_true_eq] at hhosts
        obtain ⟨⟨hdescriptor, hsame⟩, hservice⟩ := hhosts
        have hmember := hall (bytes double old) (List.mem_cons_of_mem _ (List.mem_map.2
          ⟨⟨other, old⟩, List.mem_filter.2 ⟨AList.mem_lookup_iff.1 hold, ?_⟩, rfl⟩))
        · rw [hsame, hservice] at hmember
          have hsplit := @load_split double relay socket _ _ old other hold hown rfl rfl
          have hentrant := @load_entrant double relay after socket old.principal.accountId
            old.service entrant hseats other
            (by simp only [hosts, hdescriptor, hsame, hservice, Bool.true_and, decide_true])
          omega
        · simp [hown, hsame, hservice]

/-- **Directories fit as long as every descriptor that is brought in leaves room for the
others of its account and service.**  Then `send` closes no socket for what others
registered. -/
theorem run_roomy {trace : List (RelayServer × Step)}
    (run : (machine platform).Run Feasible trace relay)
    (hroom : ∀ visit ∈ trace, overfills double platform visit.1 visit.2 = false) :
    Roomy double relay ∧ ∀ full, Sized double full → ∀ socket,
      (relay.directory (transmit full) socket).closing = relay.closing := by
  have hmodest : Modest double relay := by
    induction run with
    | start hinit =>
        obtain ⟨time, rfl⟩ := hinit
        intro socket session hlookup
        simp at hlookup
    | @step trace state step run hfeasible ih =>
        rw [List.forall_mem_cons] at hroom
        have hbefore := ih hroom.2
        rcases next_seats hfeasible with ⟨socket, entrant, hseats, hcrowded⟩ | hkept
        · exact hbefore.seats hseats (hcrowded hroom.1)
        · exact hbefore.kept hkept
  have hroomy := hmodest.roomy
  refine ⟨hroomy, fun full hsized socket => ?_⟩
  rw [directory_eq]
  by_cases hout : ¬ relay.active socket = true ∨ (relay.session socket).id = ""
  · rw [if_pos hout]
  · rw [if_neg hout]
    push Not at hout
    exact closing_of_fits hsized (hroomy socket hout.1 hout.2) relay

/-- A client of the account registers, before a host does. -/
def joining : List Step :=
  [Input.newConnection, .newConnection,
    .text 0 (.ofList [("type", .string "auth"), ("credential", .string "x")]),
    .text 1 (.ofList [("type", .string "auth"), ("credential", .string "x")]),
    .completion 0 ⟨"a", (90000 : ℤ)⟩, .completion 1 ⟨"a", (90000 : ℤ)⟩,
    .text 1 (.ofList [("type", .string "register"), ("peerId", .string "c"),
      ("service", .string "s")])].map fun input => ⟨input, fun _ _ => false⟩

/-- The registration of a host with this fingerprint. -/
def registration (fingerprint : String) : JsonObject :=
  .ofList [("type", .string "register"), ("peerId", .string "h"), ("service", .string "s"),
    ("host", .bool true), ("fingerprint", .string fingerprint)]

/-- A host registers, a second one joins and registers, and time passes. -/
def gathering : List Step :=
  joining ++ [Input.text 0 (registration "f"), .newConnection,
    .text 2 (.ofList [("type", .string "auth"), ("credential", .string "x")]),
    .completion 2 ⟨"a", (90000 : ℤ)⟩,
    .text 2 (.ofList [("type", .string "register"), ("peerId", .string "k"),
      ("service", .string "s"), ("host", .bool true)]), .clock 1000,
    .text 0 (.ofList [("type", .string "auth"), ("credential", .string "x")]),
    .completion 0 ⟨"a", (90000 : ℤ)⟩].map fun input => ⟨input, fun _ _ => false⟩

/-- With short descriptors, everything fits. -/
theorem run_roomy_short : ∃ relay trace, (machine .sample).Run Feasible trace relay ∧
    (relay.listed 1).length = 2 ∧ Roomy (fun _ => ['0']) relay ∧
      ∀ full, Sized (fun _ => ['0']) full → ∀ socket,
        (relay.directory (transmit full) socket).closing = relay.closing := by
  have hstart : (machine .sample).Run Feasible [] { now := 0 } := .start ⟨0, rfl⟩
  have hadmissible : (machine .sample).Admissible Feasible { now := 0 } gathering :=
    ⟨trivial, trivial, trivial, trivial, trivial, trivial, trivial, trivial, trivial, trivial,
      trivial, trivial, trivial, trivial, trivial, trivial⟩
  have run := hstart.visits _ hadmissible
  exact ⟨_, _, run, by decide +kernel, run_roomy run (by decide +kernel)⟩

/-! ## A registration that disconnects another member -/

/-- A live host of the account and service counts in the directory of another socket. -/
theorem weight_le_listed (double : ℚ → List Char) {session : Session} {recipient : Socket}
    (hlookup : relay.sessions.lookup socket = some session) (hother : socket ≠ recipient)
    (hreaches : reaches relay.now (relay.session recipient) session.id session = true) :
    weight double session ≤
      ((relay.listed recipient).map fun entry => (toJson double entry.2).length + 1).sum := by
  refine List.le_sum_of_mem (List.mem_map.2 ⟨(socket, session.descriptor), ?_, rfl⟩)
  refine List.mem_map.2
    ⟨⟨socket, session⟩, List.mem_filter.2 ⟨AList.mem_lookup_iff.1 hlookup, ?_⟩, rfl⟩
  simp [hother, hreaches]

/-- The relay before the host registers. -/
def joined : RelayServer := joining.foldl (next .sample) { now := 0 }

theorem registers_registration (fingerprint : String) :
    joined.registers .sample 0 (registration fingerprint) = true := by
  have hactive : joined.active 0 = true := by decide +kernel
  have hduplicate : joined.duplicate 0 "h" "s" = false := by decide +kernel
  have hnew : (joined.session 0).id = "" ∧ (joined.session 0).service = "" := by decide +kernel
  have hvalues : ((registration fingerprint).value "peerId").toString = "h" ∧
      ((registration fingerprint).value "service").toString = "s" ∧
      ((registration fingerprint).value "name").toString = "" ∧
      messageType (registration fingerprint) = "register" := ⟨rfl, rfl, rfl, rfl⟩
  have hshape : identifier "h" = true ∧ identifier "s" = true ∧ size "" ≤ 128 := by decide
  simp only [registers, hvalues, hactive, hduplicate, hnew, hshape]
  rfl

section
variable {fingerprint : String} (hplain : ∀ c ∈ fingerprint.toList,
  0x2d ≤ c.val.toNat ∧ c.val.toNat < 0x80 ∧ c.val.toNat ≠ 0x5c)
include hplain

theorem length_registration : (toJson double (registration fingerprint)).length =
    fingerprint.toList.length + 75 := by
  have hfingerprint : width ((Json.string fingerprint).write double) =
      fingerprint.toList.length + 2 := width_quoted hplain
  have hhost : width ((Json.bool true).write double) = 4 := by
    rw [Json.write]
    decide
  have hkeys : "type".toList.length = 4 ∧ "peerId".toList.length = 6 ∧
      "service".toList.length = 7 ∧ "host".toList.length = 4 ∧
      "fingerprint".toList.length = 11 ∧ "register".toList.length = 8 ∧ "h".toList.length = 1 ∧
      "s".toList.length = 1 := by decide
  rw [registration, length_toJson (by simp) (by simp [Json.isUndefined])]
  simp only [cost_cons, cost_nil]
  rw [width_field (by decide), width_field (by decide), width_field (by decide),
    width_field (by decide), width_field (by decide), width_identifier (by decide),
    width_identifier (by decide), width_identifier (by decide), hhost, hfingerprint]
  omega

theorem length_descriptor :
    (toJson double (descriptorOf .sample "h" "s" (registration fingerprint))).length =
      fingerprint.toList.length + 60 := by
  have hfingerprint : width ((Json.string fingerprint).write double) =
      fingerprint.toList.length + 2 := width_quoted hplain
  have hurls : width ((Json.array []).write double) = 2 := width_array []
  have hdescriptor : descriptorOf .sample "h" "s" (registration fingerprint) =
      .ofList [("peerId", .string "h"), ("service", .string "s"), ("localUrls", .array []),
        ("fingerprint", .string fingerprint)] := rfl
  have hkeys : "peerId".toList.length = 6 ∧ "service".toList.length = 7 ∧
      "localUrls".toList.length = 9 ∧ "fingerprint".toList.length = 11 ∧ "h".toList.length = 1 ∧
      "s".toList.length = 1 := by decide
  rw [hdescriptor, length_toJson (by simp) (by simp [Json.isUndefined])]
  simp only [cost_cons, cost_nil]
  rw [width_field (by decide), width_field (by decide), width_field (by decide),
    width_field (by decide), width_identifier (by decide), width_identifier (by decide), hurls,
    hfingerprint]
  omega

end

/-- The message of an input. -/
def Input.message : Input → Option JsonObject
  | .text _ message => some message
  | _ => none

/-- A host registers with a fingerprint of a million letters: the message is as large as
it may be, and the directory of the client is twelve bytes larger. -/
theorem not_roomy_registration : ∃ fingerprint : String,
    (∃ trace, (machine .sample).Run Feasible trace (next .sample joined
      ⟨.text 0 (registration fingerprint), fun _ _ => false⟩)) ∧
    (∀ step ∈ joining, ∀ socket message, step.input = .text socket message →
      Fits (fun _ => ['0']) message) ∧
    Fits (fun _ => ['0']) (registration fingerprint) ∧
    (next .sample joined
      ⟨.text 0 (registration fingerprint), fun _ _ => false⟩).sessions.keys.length ≤
      128 ∧
    ¬ Roomy (fun _ => ['0'])
      (next .sample joined ⟨.text 0 (registration fingerprint), fun _ _ => false⟩) := by
  -- A registration of exactly the wire limit, which `decode` accepts.
  obtain ⟨fingerprint, hlength, hplain⟩ : ∃ fingerprint : String,
      fingerprint.toList.length = 1048501 ∧ ∀ c ∈ fingerprint.toList,
        0x2d ≤ c.val.toNat ∧ c.val.toNat < 0x80 ∧ c.val.toNat ≠ 0x5c := by
    refine ⟨String.ofList (List.replicate 1048501 'a'), ?_, fun c hc => ?_⟩
    · rw [String.toList_ofList, List.length_replicate]
    · rw [String.toList_ofList] at hc
      rw [List.eq_of_mem_replicate hc]
      decide
  have hlimit : wireLimit = 1048576 := rfl
  have hroom : room = 1048550 := rfl
  have hactive : joined.active 0 = true ∧ joined.active 1 = true := by decide +kernel
  have hclient : (joined.session 1).id ≠ "" ∧ (joined.session 1).principal.accountId = "a" ∧
      (joined.session 1).service = "s" := by decide +kernel
  have hhost : (joined.session 0).principal.accountId = "a" := by decide +kernel
  have hkeys : joined.sessions.keys.length ≤ 128 := by decide +kernel
  obtain ⟨host, hhostLookup, hhostLive⟩ := active_iff.1 hactive.1
  obtain ⟨client, hclientLookup, hclientLive⟩ := active_iff.1 hactive.2
  rw [session_of_lookup hhostLookup] at hhost
  rw [session_of_lookup hclientLookup] at hclient
  obtain ⟨hnow, hsessions⟩ := registerMessage_stores (fun _ _ => false)
    (registers_registration fingerprint)
  have hnext : next .sample joined ⟨.text 0 (registration fingerprint), fun _ _ => false⟩ =
      joined.registerMessage .sample (transmit fun _ _ => false) 0 (registration fingerprint) := by
    have hmem : ¬ (0 ∉ joined.sessions) := not_not.2 (Table.mem_of_lookup hhostLookup)
    have htype : messageType (registration fingerprint) = "register" := rfl
    unfold next turn RelayServer.message
    dsimp only
    rw [if_neg hmem, htype, if_neg (by decide), if_neg (by simp [hactive.1]), if_pos rfl]
  have hstart : (machine .sample).Run Feasible [] { now := 0 } := .start ⟨0, rfl⟩
  obtain ⟨trace, run⟩ := hstart.extend joining
    ⟨trivial, trivial, trivial, trivial, trivial, trivial, trivial, trivial⟩
  have hfeasible : joined.Feasible ⟨.text 0 (registration fingerprint), fun _ _ => false⟩ := trivial
  refine ⟨fingerprint, ⟨_, run.step hfeasible⟩, fun step hstep socket message hinput => ?_, ?_, ?_,
    fun hroomy => ?_⟩
  · have hsmall : (joining.all fun step => step.input.message.all fun message =>
        decide (Fits (fun _ => ['0']) message)) = true := by decide +kernel
    have hown := List.all_eq_true.1 hsmall step hstep
    rw [hinput] at hown
    exact of_decide_eq_true hown
  · rw [Fits, length_registration hplain, hlength, hlimit]
  · rw [hnext, hsessions, Table.keys_modify]
    exact hkeys
  -- The listing wraps the descriptor and passes the limit.
  · have hown : (Table.modify 0 (Session.registered .sample (registration fingerprint))
        joined.sessions).lookup 0 = some (host.registered .sample (registration fingerprint)) := by
      rw [Table.lookup_modify, if_pos rfl, hhostLookup, Option.map_some]
    have hother : (Table.modify 0 (Session.registered .sample (registration fingerprint))
        joined.sessions).lookup 1 = some client := by
      rw [Table.lookup_modify, if_neg (by decide), hclientLookup]
    rw [← hsessions] at hown hother
    rw [hnext] at hroomy
    have hsession := session_of_lookup hother
    have hfits := hroomy 1 (active_iff.2 ⟨client, hother, hnow ▸ hclientLive⟩)
      (hsession ▸ hclient.1)
    rw [fits_peers_iff] at hfits
    have hreaches : reaches joined.now client
        (host.registered .sample (registration fingerprint)).id
        (host.registered .sample (registration fingerprint)) = true := by
      simp only [reaches, Session.registered, hhostLive, hhost, hclient.2]
      rfl
    rw [← hnow, ← hsession] at hreaches
    have hge := weight_le_listed (fun _ => ['0']) hown (by decide) hreaches
    have hweight : weight (fun _ => ['0']) (host.registered .sample (registration fingerprint)) =
        fingerprint.toList.length + 60 + 1 :=
      congrArg (· + 1) (length_descriptor hplain)
    omega

end RelayServer

end ServerHost
