import Mathlib.Logic.Relation
import ServerHost.Lan.Host

/-!
# What one turn of a LAN host can do

`Change` lists what the handlers do to the offer and to the sessions, each with
all that was checked before, and `next_changes` shows that a turn of the event
loop is a sequence of such changes.
-/

namespace ServerHost

namespace LanPeer

/-- What only shows: the phase, texts, closing sockets, and messages sent. -/
structure Quiet (host after : LanPeer) : Prop where
  now : after.now = host.now
  clients : after.clients = host.clients
  offer : after.offer = host.offer
  qr : after.qr = host.qr
  expectedPeer : after.expectedPeer = host.expectedPeer
  serial : after.serial = host.serial
  sockets : host.sockets ≤ after.sockets
  log : Grows (fun entry => (∃ socket, entry.event = .closed socket) ∨
    ∃ socket message, entry.event = .sent socket message) host.log after.log

/-- The message by which a socket asks to be paired, with what the host checked. -/
structure Presented (platform : Platform) (host : LanPeer) (step : Step) (socket : Socket)
    (message : JsonObject) : Prop where
  spoken : step.input = .text socket message ∨ step.input = .binary socket message
  pair : messageType message = "pair"
  shown : host.qr ≠ ""
  in_time : (host.now : DateTime) < host.offer.expiresAt
  host_named : (message.value "host").toString = host.offer.hostId
  code : sameCode (message.value "code").toString host.offer.code = true
  named : identifier (message.value "peerId").toString = true
  other_than_host : (message.value "peerId").toString ≠ host.offer.hostId
  expected : host.expectedPeer = "" ∨ host.expectedPeer = (message.value "peerId").toString
  authenticated : host.signer = true ∨ host.verifier = true →
    host.signer = true ∧ host.verifier = true ∧
      step.world.verify ("client\n" ++ host.offer.authenticationContext platform
        (message.value "peerId").toString (message.value "nonce").toString)
        (message.value "proof").toObject = true

/-- The `confirmDevice` that reaches this session in time. -/
structure Approves (host : LanPeer) (step : Step) (socket : Socket) : Prop where
  called : step.input = .confirmDevice
  phase : host.phase = .confirming
  waiting : ∃ session, host.clients.lookup socket = some session ∧
    session.awaitingApproval = true ∧ (host.now : DateTime) < session.deadline

/-- The message `confirm` that pairs a session.  It comes as text: binary messages
are for sessions that are paired already. -/
structure Confirms (host : LanPeer) (step : Step) (socket : Socket) (session : Session) : Prop where
  spoken : ∃ message, step.input = .text socket message ∧ messageType message = "confirm"
  stored : host.clients.lookup socket = some session
  named : session.id ≠ ""
  unpaired : session.paired = false
  settled : session.awaitingApproval = false
  in_time : (host.now : DateTime) < session.deadline

/-- The outcome of the Files check. -/
def Outcome (socket : Socket) (host after : LanPeer) : Prop :=
  after = host.emit (.listed socket) ∨ after = host.emit (.failed socket)

/-- The session takes a `confirmDevice`. -/
def approve (socket : Socket) (host : LanPeer) : LanPeer :=
  host.update socket fun session => { session with
    awaitingApproval := false
    deadline := DateTime.addSecs host.now 15 }

theorem approve_clients (socket : Socket) (host : LanPeer) : (host.approve socket).clients =
    Table.modify socket (fun session => { session with
      awaitingApproval := false
      deadline := DateTime.addSecs host.now 15 }) host.clients := rfl

/-- The session keeps what its account proof was about. -/
def note (socket : Socket) (authentication : String) (host : LanPeer) : LanPeer :=
  host.update socket fun session => { session with authentication := authentication }

/-- A socket without a session name presents the code on show under a free name. -/
structure Accepts (platform : Platform) (host : LanPeer) (step : Step) (socket : Socket)
    (message : JsonObject) : Prop where
  presented : Presented platform host step socket message
  nameless : ∃ session, host.clients.lookup socket = some session ∧ session.id = ""
  free : Table.All (fun _ session => session.id ≠ (message.value "peerId").toString) host.clients

variable (platform : Platform) (pre : LanPeer) (step : Step)

/-- The elementary changes of the turn that meets `step` in the state `pre`. -/
inductive Change : LanPeer → LanPeer → Prop
  -- Changes that are made anywhere in a turn start from `host`; those that a handler
  -- makes first start from `pre`, where its checks were made.
  | clock {host : LanPeer} (time : ℤ) : step.input = .clock time →
      Change host { host with now := time }
  | quiet {host after : LanPeer} : Quiet host after → Change host after
  | welcome {host : LanPeer} : Change host { host with
      sockets := host.sockets + 1
      clients := host.clients.insert host.sockets { deadline := DateTime.addSecs host.now 5 } }
  | note {host : LanPeer} (socket : Socket) (authentication : String) :
      Change host (host.note socket authentication)
  | acceptDevice {socket : Socket} {message : JsonObject} (authentication : String) :
      Accepts platform pre step socket message → pre.expectedPeer ≠ "" →
      Change pre ((pre.note socket authentication).accept platform socket message)
  | acceptOpen {socket : Socket} {message : JsonObject} (authentication : String)
      {after : LanPeer} : Accepts platform pre step socket message → pre.expectedPeer = "" →
      Outcome socket (((pre.note socket authentication).accept platform socket message).emit
        (.handled socket (message.value "peerId").toString listRequest)) after →
      Change pre after
  | approveUnproved {socket : Socket} : Approves pre step socket →
      Change pre ((pre.approve socket).emit (.failed socket))
  | approveUnlisted {socket : Socket} {session : Session} : Approves pre step socket →
      pre.clients.lookup socket = some session →
      Change pre (((pre.approve socket).emit (.handled socket session.id listRequest)).emit
        (.failed socket))
  | approve {socket : Socket} {session : Session} : Approves pre step socket →
      pre.clients.lookup socket = some session →
      Change pre ((((pre.approve socket).emit (.handled socket session.id listRequest)).emit
        (.listed socket)).emit (.approved socket))
  | confirm {socket : Socket} {session : Session} {mid : LanPeer} :
      Confirms pre step socket session →
      Quiet (pre.update socket fun session => { session with paired := true }) mid →
      Change pre (mid.emit (.paired socket session.id))
  | serve {socket : Socket} {session : Session} (payload : JsonObject) :
      pre.clients.lookup socket = some session → session.paired = true →
      Change pre (pre.emit (.handled socket session.id payload))
  | forget {host : LanPeer} (socket : Socket) :
      Change host { host with clients := host.clients.erase socket }
  | expire {host : LanPeer} : Change host ({ host with
      qr := ""
      offer := { host.offer with code := "" }
      phase := .error
      error := "The QR code expired. Show a new code." }.emit .expired)
  | withdraw {host : LanPeer} : Change host (host.emit .withdrawn).cancelPairing
  | generate {host : LanPeer} (lifetimeSeconds : ℤ) {qr : String} :
      Table.All (fun _ session => session.paired = true) host.clients → host.qr = "" →
      host.expectedPeer = "" → Change host ({ host with
        error := ""
        phase := .showing
        offer := { host.offer with
          code := (platform.random host.serial).text
          expiresAt := DateTime.addSecs host.now lifetimeSeconds }
        qr := qr
        serial := host.serial + 1 }.emit
          (.generated (host.serial + 1) (platform.random host.serial).text qr
            (DateTime.addSecs host.now lifetimeSeconds)))
  | expect {host : LanPeer} (peerId : String) : Change host { host with expectedPeer := peerId }
  | stop {host : LanPeer} : Change host (host.emit .withdrawn).stop
  | configure {host : LanPeer} (signer verifier : Bool) : host.clients = ∅ →
      Change host { host with signer := signer, verifier := verifier }
  | begin {host : LanPeer} {log : List Entry} (offer : LanLink) : host.clients = ∅ →
      host.qr = "" → host.log = ⟨host.now, .withdrawn⟩ :: log →
      Change host { host with server := true, phase := .hosting, offer := offer }
  | rehash {host : LanPeer} {clients : Table Socket Session} : Table.Same host.clients clients →
      Change host { host with clients := clients }

/-- A sequence of elementary changes. -/
abbrev Changes : LanPeer → LanPeer → Prop := Relation.ReflTransGen (Change platform pre step)

/-! ## Quiet changes -/

theorem Quiet.refl (host : LanPeer) : Quiet host host :=
  ⟨rfl, rfl, rfl, rfl, rfl, rfl, le_rfl, .of_eq rfl⟩

theorem Quiet.trans {first second third : LanPeer} (h : Quiet first second)
    (h' : Quiet second third) : Quiet first third :=
  ⟨h'.now.trans h.now, h'.clients.trans h.clients, h'.offer.trans h.offer, h'.qr.trans h.qr,
    h'.expectedPeer.trans h.expectedPeer, h'.serial.trans h.serial, h.sockets.trans h'.sockets,
    h.log.trans h'.log⟩

theorem close_quiet (socket : Socket) (host : LanPeer) : Quiet host (host.close socket) :=
  ⟨rfl, rfl, rfl, rfl, rfl, rfl, le_rfl, .cons (.inl ⟨socket, rfl⟩)⟩

theorem transmit_quiet (full : Socket → JsonObject → Bool) (socket : Socket)
    (message : JsonObject) (host : LanPeer) : Quiet host (host.transmit full socket message) := by
  unfold transmit
  split
  · exact .refl host
  · split
    · exact close_quiet socket host
    · exact ⟨rfl, rfl, rfl, rfl, rfl, rfl, le_rfl, .cons (.inr ⟨socket, message, rfl⟩)⟩

theorem reject_quiet (world : World) (socket : Socket) (message : String) (host : LanPeer) :
    Quiet host (host.reject world socket message) :=
  (transmit_quiet ..).trans (close_quiet ..)

theorem Quiet.foldl {α : Type*} {f : LanPeer → α → LanPeer} (h : ∀ host a, Quiet host (f host a))
    (list : List α) (host : LanPeer) : Quiet host (list.foldl f host) :=
  list.foldlRecOn f (motive := fun after => Quiet host after) (.refl host)
    fun after hafter a _ => hafter.trans (h after a)

/-- Phase and texts are free. -/
theorem label_quiet (host : LanPeer) (phase : Phase) (error peerName verificationCode : String)
    (binary : List Socket) : Quiet host { host with
      phase := phase
      error := error
      peerName := peerName
      verificationCode := verificationCode
      binary := binary } :=
  ⟨rfl, rfl, rfl, rfl, rfl, rfl, le_rfl, .of_eq rfl⟩

/-! ## Messages -/

variable {platform : Platform} {pre : LanPeer} {step : Step}

theorem changes_quiet {host after : LanPeer} (h : Quiet host after) :
    Changes platform pre step host after :=
  .single (.quiet h)

theorem presented_of_checks {socket : Socket} {message : JsonObject}
    (hspoken : step.input = .text socket message ∨ step.input = .binary socket message)
    (hpair : messageType message = "pair") (hpresents : pre.presents message = true)
    (hverifies : pre.verifies step.world message (pre.offer.authenticationContext platform
      (message.value "peerId").toString (message.value "nonce").toString) = true) :
    Presented platform pre step socket message := by
  simp only [presents, Bool.and_eq_true, Bool.or_eq_true, decide_eq_true_eq, ne_eq,
    decide_not, Bool.not_eq_eq_eq_not, Bool.not_true, decide_eq_false_iff_not] at hpresents
  obtain ⟨⟨⟨⟨⟨⟨⟨⟨hshown, htime⟩, hhost⟩, hcode⟩, hnamed⟩, hother⟩, -⟩, -⟩, hexpected⟩ := hpresents
  refine ⟨hspoken, hpair, hshown, htime, hhost, hcode, hnamed, hother,
    hexpected.imp_right And.left, fun hconfigured => ?_⟩
  simp only [verifies, Bool.or_eq_true, Bool.and_eq_true, Bool.not_eq_eq_eq_not, Bool.not_true]
    at hverifies
  rcases hverifies with ⟨hsigner, hverifier⟩ | ⟨⟨⟨hsigner, hverifier⟩, -⟩, hverified⟩
  · simp [hsigner, hverifier] at hconfigured
  · exact ⟨hsigner, hverifier, hverified⟩

theorem pairMessage_changes {socket : Socket} {message : JsonObject} {session : Session}
    (hspoken : step.input = .text socket message ∨ step.input = .binary socket message)
    (hpair : messageType message = "pair") (hsession : pre.clients.lookup socket = some session)
    (hnameless : session.id = "") :
    Changes platform pre step pre (pre.pairMessage platform step.world socket message) := by
  unfold pairMessage
  dsimp only
  split
  · exact changes_quiet (reject_quiet ..)
  next hpresents =>
  split
  · exact changes_quiet (reject_quiet ..)
  next hfree =>
  -- The context of the proof is stored before the proof is checked.
  generalize hcontext : pre.offer.authenticationContext platform (message.value "peerId").toString
    (message.value "nonce").toString = authentication
  have hnote : Changes platform pre step pre (pre.note socket authentication) :=
    .single (.note socket authentication)
  split
  · exact hnote.trans (changes_quiet (reject_quiet ..))
  next hverifies =>
  split
  · exact hnote.trans (changes_quiet (reject_quiet ..))
  rw [not_not] at hpresents hverifies
  have haccepts : Accepts platform pre step socket message := by
    refine ⟨presented_of_checks hspoken hpair hpresents ?_, ⟨session, hsession, hnameless⟩, ?_⟩
    · rw [hcontext]
      exact hverifies
    · intro other own hown hid
      refine hfree (List.any_eq_true.2 ⟨⟨other, own⟩, ?_, by simpa using hid⟩)
      exact AList.mem_lookup_iff.1 hown
  split
  · next hdevice =>
      refine Relation.ReflTransGen.trans (.single (.acceptDevice authentication haccepts ?_))
        (changes_quiet (transmit_quiet ..))
      exact of_decide_eq_true hdevice
  · next hopen =>
      have hexpected : pre.expectedPeer = "" :=
        not_not.1 fun hne => hopen (decide_eq_true hne)
      split
      · exact Relation.ReflTransGen.trans
          (.single (.acceptOpen authentication haccepts hexpected (.inr rfl)))
          (changes_quiet ((label_quiet _ .error _ _ _ _).trans (reject_quiet ..)))
      · exact Relation.ReflTransGen.trans
          (.single (.acceptOpen authentication haccepts hexpected (.inl rfl)))
          (changes_quiet (transmit_quiet ..))

theorem confirmMessage_quiet (world : World) (socket : Socket) (session : Session)
    (host : LanPeer) : ∃ mid,
    Quiet (host.update socket fun session => { session with paired := true }) mid ∧
      host.confirmMessage world socket session = mid.emit (.paired socket session.id) :=
  ⟨_, (label_quiet _ .paired _ _ _ _).trans ((transmit_quiet ..).trans (label_quiet ..)), rfl⟩

theorem confirmMessage_changes {socket : Socket} {session : Session}
    (hconfirms : Confirms pre step socket session) :
    Changes platform pre step pre (pre.confirmMessage step.world socket session) := by
  obtain ⟨mid, hquiet, hmid⟩ := confirmMessage_quiet step.world socket session pre
  exact hmid ▸ .single (.confirm hconfirms hquiet)

theorem hostMessage_changes {socket : Socket} {message : JsonObject}
    (hspoken : step.input = .text socket message ∨ step.input = .binary socket message ∧
      ∀ session, pre.clients.lookup socket = some session → session.paired = true) :
    Changes platform pre step pre (pre.hostMessage platform step.world socket message) := by
  unfold hostMessage
  cases hsession : pre.clients.lookup socket with
  | none => exact .refl
  | some session =>
      dsimp only
      split
      · next hpair =>
          exact pairMessage_changes (hspoken.imp_right And.left) hpair.1 hsession hpair.2
      split
      · next hconfirm =>
          obtain ⟨htype, hnamed, hunpaired, hsettled, htime⟩ := hconfirm
          have htext : step.input = .text socket message :=
            hspoken.resolve_right fun hbinary => hunpaired (hbinary.2 session hsession)
          exact confirmMessage_changes ⟨⟨message, htext, htype⟩, hsession, hnamed,
            by simpa using hunpaired, by simpa using hsettled, htime⟩
      split
      · next hrequest =>
          exact Relation.ReflTransGen.trans (.single (.serve _ hsession hrequest.2.1))
            (changes_quiet (transmit_quiet ..))
      · exact changes_quiet (reject_quiet ..)

/-! ## The public functions -/

theorem confirmDevice_changes (hinput : step.input = .confirmDevice) :
    Changes platform pre step pre (pre.confirmDevice step.world).1 := by
  unfold confirmDevice
  split
  · exact .refl
  next hphase =>
  rw [not_not] at hphase
  cases hawaiting : pre.awaiting with
  | none => exact .refl
  | some entry =>
      obtain ⟨socket, session⟩ := entry
      have hmem := List.mem_of_find?_eq_some hawaiting
      have hpred := List.find?_some hawaiting
      simp only [Bool.and_eq_true, decide_eq_true_eq] at hpred
      have hsession : pre.clients.lookup socket = some session := Table.lookup_of_mem_entries hmem
      have happroves : Approves pre step socket := ⟨hinput, hphase, session, hsession, hpred⟩
      dsimp only
      split
      · exact Relation.ReflTransGen.trans (.single (.approveUnproved happroves))
          (changes_quiet (close_quiet ..))
      · split
        · exact Relation.ReflTransGen.trans (.single (.approveUnlisted happroves hsession))
            (changes_quiet ((label_quiet _ .error _ _ _ _).trans (reject_quiet ..)))
        · exact Relation.ReflTransGen.trans (.single (.approve happroves hsession))
            (changes_quiet ((label_quiet _ .verifying _ _ _ _).trans (transmit_quiet ..)))

/-- What a round of the loop leaves in the table. -/
theorem dropSession_clients {host : LanPeer} {socket other : Socket} {session : Session} :
    (host.dropSession socket).clients.lookup other = some session ↔
      host.clients.lookup other = some session ∧ (other = socket → session.paired = true) := by
  unfold dropSession
  split
  · next hunpaired =>
      rw [Table.lookup_erase_eq_some]
      constructor
      · exact fun h => ⟨h.2, fun heq => absurd heq h.1⟩
      · rintro ⟨hlookup, hpaired⟩
        refine ⟨fun heq => hunpaired ?_, hlookup⟩
        rw [← heq, Table.value_of_lookup hlookup]
        exact hpaired heq
  · next hpaired =>
      refine ⟨fun h => ⟨h, ?_⟩, And.left⟩
      rintro rfl
      rwa [not_not, Table.value_of_lookup h] at hpaired

theorem dropSession_quiet (host : LanPeer) (socket : Socket) :
    (host.dropSession socket).log = host.log ∧ (host.dropSession socket).now = host.now ∧
      (host.dropSession socket).offer = host.offer ∧ (host.dropSession socket).qr = host.qr ∧
      (host.dropSession socket).expectedPeer = host.expectedPeer ∧
      (host.dropSession socket).serial = host.serial ∧
      (host.dropSession socket).sockets = host.sockets ∧
      (host.dropSession socket).server = host.server := by
  unfold dropSession
  split <;> exact ⟨rfl, rfl, rfl, rfl, rfl, rfl, rfl, rfl⟩

theorem foldl_dropSession_clients (keys : List Socket) (host : LanPeer) {other : Socket}
    {session : Session} :
    (keys.foldl dropSession host).clients.lookup other = some session ↔
      host.clients.lookup other = some session ∧ (other ∈ keys → session.paired = true) := by
  induction keys generalizing host with
  | nil => simp
  | cons socket rest ih =>
      rw [List.foldl_cons, ih, dropSession_clients, List.mem_cons, and_assoc, or_imp]

/-- Only paired sessions survive `cancelPairing`. -/
theorem cancelPairing_clients {host : LanPeer} {socket : Socket} {session : Session} :
    host.cancelPairing.clients.lookup socket = some session ↔
      host.clients.lookup socket = some session ∧ session.paired = true := by
  simp only [cancelPairing, foldl_dropSession_clients, emit]
  constructor
  · rintro ⟨hlookup, hpaired⟩
    exact ⟨hlookup, hpaired (AList.mem_keys.1 (Table.mem_of_lookup hlookup))⟩
  · exact fun ⟨hlookup, hpaired⟩ => ⟨hlookup, fun _ => hpaired⟩

theorem cancelPairing_rest (host : LanPeer) :
    host.cancelPairing.log = host.log ∧
      host.cancelPairing.now = host.now ∧
      host.cancelPairing.offer = { host.offer with code := "" } ∧
      host.cancelPairing.qr = "" ∧ host.cancelPairing.expectedPeer = "" ∧
      host.cancelPairing.serial = host.serial ∧ host.cancelPairing.sockets = host.sockets := by
  -- dropping a session touches the sessions alone
  have hfold : ∀ (keys : List Socket) (state : LanPeer),
      (keys.foldl dropSession state).log = state.log ∧
        (keys.foldl dropSession state).now = state.now ∧
        (keys.foldl dropSession state).offer = state.offer ∧
        (keys.foldl dropSession state).qr = state.qr ∧
        (keys.foldl dropSession state).expectedPeer = state.expectedPeer ∧
        (keys.foldl dropSession state).serial = state.serial ∧
        (keys.foldl dropSession state).sockets = state.sockets := by
    intro keys
    induction keys with
    | nil => exact fun _ => ⟨rfl, rfl, rfl, rfl, rfl, rfl, rfl⟩
    | cons socket rest ih =>
        intro state
        obtain ⟨hlog, hnow, hoffer, hqr, hexpected, hserial, hsockets, -⟩ :=
          dropSession_quiet state socket
        rw [List.foldl_cons, ← hlog, ← hnow, ← hoffer, ← hqr, ← hexpected, ← hserial, ← hsockets]
        exact ih _
  obtain ⟨hlog, hnow, hoffer, hqr, hexpected, hserial, hsockets⟩ := hfold host.clients.keys
    { host with
      qr := ""
      offer := { host.offer with code := "" }
      expectedPeer := ""
      verificationCode := "" }
  exact ⟨hlog, hnow, hoffer, hqr, hexpected, hserial, hsockets⟩

theorem createOffer_changes (lifetimeSeconds : ℤ) (host : LanPeer) :
    Changes platform pre step host
      ((host.hearOffer lifetimeSeconds).createOffer platform lifetimeSeconds).1 := by
  rw [createOffer_hearOffer]
  split
  · exact .refl
  · obtain ⟨-, -, -, hqr, hexpected, -, -⟩ := cancelPairing_rest (host.emit .withdrawn)
    exact .head .withdraw (.single (.generate lifetimeSeconds
      (fun _ _ hsession => (cancelPairing_clients.1 hsession).2) hqr hexpected))

theorem startHost_changes (hostId name : String) (handler : Bool) (addresses found : List String)
    (identity : Bool) (listener : Except String (ℕ × String)) (host : LanPeer) :
    Changes platform pre step host ((host.emit .withdrawn).startHost platform hostId name
      handler addresses found identity listener) := by
  have hfail : ∀ message, Changes platform pre step (host.emit .withdrawn).stop
      ((host.emit .withdrawn).stop.fail message) :=
    fun message => changes_quiet ⟨rfl, rfl, rfl, rfl, rfl, rfl, le_rfl, .of_eq rfl⟩
  refine .head .stop ?_
  unfold startHost
  dsimp only
  generalize (if addresses.isEmpty = true then found else addresses) = addresses
  split
  · exact hfail _
  split
  · exact hfail _
  split
  · exact hfail _
  split
  · exact hfail _
  cases listener with
  | error error => exact hfail error
  | ok listening => exact .single (.begin _ rfl rfl rfl)

/-! ## The event loop -/

/-- **One turn of the event loop is a sequence of elementary changes.** -/
theorem next_changes (platform : Platform) {host : LanPeer} {step : Step}
    (hfeasible : host.Feasible step) :
    Changes platform host step host (next platform host step) := by
  unfold next
  cases hinput : step.input with
  | clock time => exact .single (.clock time hinput)
  | startHost => exact startHost_changes ..
  | setPairingAuthentication signer verifier =>
      exact .head .stop (.single (.configure signer verifier rfl))
  | newConnection address =>
      -- A refused socket is closed, and has no session.
      simp only [newConnection]
      split
      · exact .refl
      split
      · exact changes_quiet ⟨rfl, rfl, rfl, rfl, rfl, rfl, Nat.le_succ _,
          .cons (.inl ⟨host.sockets, rfl⟩)⟩
      · exact .single .welcome
  | text socket message => exact hostMessage_changes (.inl hinput)
  | binary socket message =>
      simp only [binaryMessage]
      cases hlookup : host.clients.lookup socket with
      | none => exact .refl
      | some session =>
          dsimp only
          split
          · exact changes_quiet (close_quiet ..)
          · next hopen =>
              rw [not_or, not_not] at hopen
              refine hostMessage_changes (.inr ⟨hinput, fun own hown => ?_⟩)
              exact Option.some.inj (hlookup.symm.trans hown) ▸ hopen.1
  | disconnected socket =>
      simp only [disconnected]
      cases host.clients.lookup socket with
      | none => exact .refl
      | some previous =>
          dsimp only
          split
          · exact .head (.forget socket) (changes_quiet (label_quiet ..))
          · exact .single (.forget socket)
  | sweep =>
      -- The offer ends first, then the sessions that are late are closed.
      have hround : ∀ (state : LanPeer) socket, Quiet state (state.sweepSession socket) := by
        intro state socket
        unfold sweepSession
        dsimp only
        split
        · exact close_quiet ..
        · exact .refl state
      simp only [sweep]
      split
      · exact .head .expire (changes_quiet (Quiet.foldl hround _ _))
      · exact changes_quiet (Quiet.foldl hround _ _)
  | createOffer lifetimeSeconds => exact createOffer_changes lifetimeSeconds host
  | createDeviceOffer peerId lifetimeSeconds =>
      dsimp only
      rw [createDeviceOffer_hearDeviceOffer]
      split
      · exact .refl
      · refine (createOffer_changes lifetimeSeconds host).trans ?_
        dsimp only
        split
        · exact .single (.expect peerId)
        · exact .refl
  | cancelPairing => exact .single .withdraw
  | confirmDevice => exact confirmDevice_changes hinput
  | stop => exact .single .stop
  | rehash clients =>
      simp only [Feasible, hinput] at hfeasible
      exact .single (.rehash hfeasible)

end LanPeer

end ServerHost
