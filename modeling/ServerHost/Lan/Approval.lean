import ServerHost.Lan.Gate

/-!
# The device whose code is shown

A host shows one verification code for all its sessions, so the code must belong
to the session that `confirmDevice` approves.  `Moves` says what one turn of the
event loop does to the phase, the code, the offer and the sessions that have a
name; `Quiet` leaves the first two open.  From it follows what is known of every
named session: the message that named it, under which offer, and, while it waits
for an approval, that the code shown is the one of that message.
-/

namespace ServerHost

namespace LanPeer

variable {platform : Platform} {host after : LanPeer} {step : Step}

/-! ## What sending leaves alone -/

/-- The same phase, code, offer and sessions. -/
structure Alike (host after : LanPeer) : Prop where
  server : after.server = host.server
  phase : after.phase = host.phase
  offer : after.offer = host.offer
  qr : after.qr = host.qr
  verificationCode : after.verificationCode = host.verificationCode
  clients : after.clients = host.clients

theorem Alike.refl (host : LanPeer) : Alike host host :=
  ⟨rfl, rfl, rfl, rfl, rfl, rfl⟩

theorem Alike.trans {first second third : LanPeer} (h : Alike first second)
    (h' : Alike second third) : Alike first third :=
  ⟨h'.server.trans h.server, h'.phase.trans h.phase, h'.offer.trans h.offer, h'.qr.trans h.qr,
    h'.verificationCode.trans h.verificationCode, h'.clients.trans h.clients⟩

theorem emit_alike (event : Event) (host : LanPeer) : Alike host (host.emit event) :=
  ⟨rfl, rfl, rfl, rfl, rfl, rfl⟩

theorem close_alike (socket : Socket) (host : LanPeer) : Alike host (host.close socket) :=
  ⟨rfl, rfl, rfl, rfl, rfl, rfl⟩

theorem transmit_alike (full : Socket → JsonObject → Bool) (socket : Socket)
    (message : JsonObject) (host : LanPeer) : Alike host (host.transmit full socket message) := by
  unfold transmit
  split
  · exact .refl host
  · split
    · exact close_alike socket host
    · exact emit_alike _ host

theorem reject_alike (world : World) (socket : Socket) (text : String) (host : LanPeer) :
    Alike host (host.reject world socket text) :=
  (transmit_alike ..).trans (close_alike ..)

/-! ## Moves -/

/-- Nothing happens to the phase, the code shown and the offer.  Sessions with a
name stay as they are. -/
structure Unmoved (host after : LanPeer) : Prop where
  server : after.server = host.server
  phase : after.phase = host.phase
  offer : after.offer = host.offer
  qr : after.qr = host.qr
  verificationCode : after.verificationCode = host.verificationCode
  named : ∀ socket session, session.id ≠ "" →
    (after.clients.lookup socket = some session ↔ host.clients.lookup socket = some session)

/-- The name, the context of the proof and the approval a session takes from the
message it presents. -/
def Session.named (platform : Platform) (host : LanPeer) (message : JsonObject)
    (session : Session) : Session :=
  { session with
    binary := (message.value "binary").isOne
    id := (message.value "peerId").toString
    name := (message.value "name").toString
    deadline := DateTime.addSecs host.now (if host.expectedPeer ≠ "" then 60 else 15)
    awaitingApproval := decide (host.expectedPeer ≠ "")
    authentication := host.offer.authenticationContext platform
      (message.value "peerId").toString (message.value "nonce").toString }

/-- The code two people compare for a session that was named by this message. -/
def comparison (platform : Platform) (host : LanPeer) (message : JsonObject) : String :=
  if host.expectedPeer ≠ "" then
    host.offer.verification platform (message.value "peerId").toString
      (message.value "nonce").toString
  else ""

/-- What becomes of the offer, the code and the sessions with the message that is
accepted. -/
structure Takes (platform : Platform) (host : LanPeer) (socket : Socket) (message : JsonObject)
    (after : LanPeer) : Prop where
  server : after.server = host.server
  offer : after.offer = { host.offer with code := "" }
  qr : after.qr = ""
  verificationCode : after.verificationCode = comparison platform host message
  clients : after.clients = Table.modify socket (Session.named platform host message) host.clients

/-- The checks of `startHost` that a link on show has to pass as well. -/
structure Served (platform : Platform) (link : LanLink) : Prop where
  addresses : link.addresses ≠ []
  private_addresses : link.addresses.all (LanLink.localAddress platform) = true
  host_named : identifier link.hostId = true
  named : link.name ≠ "" ∧ size link.name ≤ 128

/-- A call that puts a new offer up. -/
structure Offering (host : LanPeer) (step : Step) (lifetimeSeconds : ℤ) : Prop where
  called : step.input = .createOffer lifetimeSeconds ∨
    ∃ peerId, step.input = .createDeviceOffer peerId lifetimeSeconds ∧
      identifier peerId = true ∧ peerId ≠ host.offer.hostId
  server : host.server = true
  lifetime : 1 ≤ lifetimeSeconds ∧ lifetimeSeconds ≤ 60

variable (platform) (host) (step)

/-- What one turn of the event loop does to the phase, the code shown, the offer
and the sessions with a name. -/
inductive Moves : LanPeer → Prop
  | unmoved {after : LanPeer} : Unmoved host after → Moves after
  | accepted {after : LanPeer} {socket : Socket} {message : JsonObject} :
      Accepts platform host step socket message → Takes platform host socket message after →
      after.phase = (if host.expectedPeer ≠ "" then .confirming else .verifying) ∨
        after.phase = .error →
      Moves after
  -- The signer may fail, and then the phase is the one it was.
  | answered {after : LanPeer} {socket : Socket} {session : Session} :
      Approves host step socket → host.clients.lookup socket = some session →
      after.server = host.server → after.offer = host.offer → after.qr = host.qr →
      after.verificationCode = host.verificationCode →
      after.clients = (host.approve socket).clients →
      after.phase = .verifying ∨ after.phase = .error ∨ (after.phase = host.phase ∧
        host.signer = true ∧
          (step.world.sign ("host\n" ++ session.authentication)).isEmpty = true) →
      Moves after
  | paired {after : LanPeer} {socket : Socket} {session : Session} :
      Confirms host step socket session →
      after.server = host.server → after.offer = host.offer → after.qr = host.qr →
      after.verificationCode = host.verificationCode →
      after.clients = Table.modify socket (fun session => { session with paired := true })
        host.clients →
      after.phase = .paired → Moves after
  -- The phase is looked at for `verifying` alone.
  | left {after : LanPeer} {socket : Socket} {previous : Session} :
      step.input = .disconnected socket → host.clients.lookup socket = some previous →
      after.server = host.server → after.offer = host.offer → after.qr = host.qr →
      after.verificationCode = host.verificationCode →
      after.clients = host.clients.erase socket →
      after.phase = (if previous.id ≠ "" ∧ ¬ previous.paired ∧ host.phase = .verifying then .error
        else host.phase) →
      Moves after
  | expired {after : LanPeer} :
      after.server = host.server → after.offer = { host.offer with code := "" } → after.qr = "" →
      after.verificationCode = host.verificationCode → after.clients = host.clients →
      after.phase = .error → Moves after
  | withdrawn {after : LanPeer} :
      after.server = host.server → after.offer = { host.offer with code := "" } → after.qr = "" →
      after.verificationCode = "" → after.clients = host.cancelPairing.clients →
      after.phase = .hosting ∨ after.phase = .idle → Moves after
  | offered {after : LanPeer} {lifetimeSeconds : ℤ} :
      Offering host step lifetimeSeconds → after.server = true →
      after.offer = { host.offer with
        code := (platform.random host.serial).text
        expiresAt := DateTime.addSecs host.now lifetimeSeconds } →
      after.qr = after.offer.encode platform →
      after.verificationCode = "" → after.clients = host.cancelPairing.clients →
      after.phase = .showing → Moves after
  | restarted {after : LanPeer} :
      (after.server = true → Served platform after.offer) →
      after.qr = "" → after.verificationCode = "" → after.clients = ∅ →
      after.phase = .idle ∨ after.phase = .hosting ∨ after.phase = .error → Moves after

variable {platform host step}

/-! ## The turn -/

/-- The same sessions, and nothing else that shows. -/
theorem Unmoved.of_clients (hserver : after.server = host.server)
    (hphase : after.phase = host.phase) (hoffer : after.offer = host.offer)
    (hqr : after.qr = host.qr) (hcode : after.verificationCode = host.verificationCode)
    (hclients : ∀ socket, after.clients.lookup socket = host.clients.lookup socket) :
    Unmoved host after := by
  refine ⟨hserver, hphase, hoffer, hqr, hcode, fun socket session _ => ?_⟩
  rw [hclients]

theorem Alike.unmoved (h : Alike host after) : Unmoved host after :=
  .of_clients h.server h.phase h.offer h.qr h.verificationCode fun _ => by rw [h.clients]

/-- Nothing that a move speaks about changes after it. -/
theorem Moves.alike {mid : LanPeer} (h : Moves platform host step mid) (halike : Alike mid after) :
    Moves platform host step after := by
  obtain ⟨hserver, hphase, hoffer, hqr, hcode, hclients⟩ := halike
  cases h with
  | unmoved hunmoved =>
      obtain ⟨hserver', hphase', hoffer', hqr', hcode', hnamed⟩ := hunmoved
      rw [← hclients] at hnamed
      exact .unmoved ⟨hserver.trans hserver', hphase.trans hphase', hoffer.trans hoffer',
        hqr.trans hqr', hcode.trans hcode', hnamed⟩
  | accepted haccepts htakes hphase' =>
      exact .accepted haccepts ⟨hserver.trans htakes.server, hoffer.trans htakes.offer,
        hqr.trans htakes.qr, hcode.trans htakes.verificationCode, hclients.trans htakes.clients⟩
        (by rwa [hphase])
  | answered happroves hsession hserver' hoffer' hqr' hcode' hclients' hphase' =>
      exact .answered happroves hsession (hserver.trans hserver') (hoffer.trans hoffer')
        (hqr.trans hqr') (hcode.trans hcode') (hclients.trans hclients') (by rwa [hphase])
  | paired hconfirms hserver' hoffer' hqr' hcode' hclients' hphase' =>
      exact .paired hconfirms (hserver.trans hserver') (hoffer.trans hoffer')
        (hqr.trans hqr') (hcode.trans hcode') (hclients.trans hclients') (hphase.trans hphase')
  | left hinput hsession hserver' hoffer' hqr' hcode' hclients' hphase' =>
      exact .left hinput hsession (hserver.trans hserver') (hoffer.trans hoffer')
        (hqr.trans hqr') (hcode.trans hcode') (hclients.trans hclients') (hphase.trans hphase')
  | expired hserver' hoffer' hqr' hcode' hclients' hphase' =>
      exact .expired (hserver.trans hserver') (hoffer.trans hoffer') (hqr.trans hqr')
        (hcode.trans hcode') (hclients.trans hclients') (hphase.trans hphase')
  | withdrawn hserver' hoffer' hqr' hcode' hclients' hphase' =>
      exact .withdrawn (hserver.trans hserver') (hoffer.trans hoffer') (hqr.trans hqr')
        (hcode.trans hcode') (hclients.trans hclients') (by rwa [hphase])
  | offered hoffering hserving hoffer' hqr' hcode' hclients' hphase' =>
      exact .offered hoffering (hserver.trans hserving) (hoffer.trans hoffer')
        (by rw [hqr, hqr', hoffer]) (hcode.trans hcode') (hclients.trans hclients')
        (hphase.trans hphase')
  | restarted hserved hqr' hcode' hclients' hphase' =>
      exact .restarted (by rwa [hserver, hoffer]) (hqr.trans hqr') (hcode.trans hcode')
        (hclients.trans hclients') (by rwa [hphase])

theorem note_clients (socket : Socket) (authentication : String) (host : LanPeer) :
    (host.note socket authentication).clients = Table.modify socket
      (fun session => { session with authentication := authentication }) host.clients := rfl

/-- A session without a name keeps what it is told about a proof that failed. -/
theorem note_unmoved {socket : Socket} {session : Session} (authentication : String)
    (hsession : host.clients.lookup socket = some session) (hnameless : session.id = "") :
    Unmoved host (host.note socket authentication) := by
  refine ⟨rfl, rfl, rfl, rfl, rfl, fun other own hid => ⟨fun hown => ?_, fun hown => ?_⟩⟩
  · rcases Table.lookup_modify_eq_some.1 hown with ⟨rfl, old, hold, rfl⟩ | ⟨-, hold⟩
    · rw [hsession] at hold
      cases hold
      exact absurd hnameless hid
    · exact hold
  · refine Table.lookup_modify_eq_some.2 (.inr ⟨?_, hown⟩)
    rintro rfl
    rw [hsession] at hown
    cases hown
    exact hid hnameless

theorem accept_takes (socket : Socket) (message : JsonObject) (host : LanPeer) :
    Takes platform host socket message ((host.note socket (host.offer.authenticationContext
      platform (message.value "peerId").toString (message.value "nonce").toString)).accept
        platform socket message) := by
  refine ⟨rfl, rfl, rfl, ?_, ?_⟩
  · by_cases hdevice : host.expectedPeer = "" <;>
      simp [accept, note, update, emit, comparison, hdevice]
  · rw [accept_clients, note_clients, Table.modify_modify]
    rfl

theorem accept_phase (socket : Socket) (message : JsonObject) (host : LanPeer) :
    (host.accept platform socket message).phase =
      if host.expectedPeer ≠ "" then .confirming else .verifying := by
  by_cases hdevice : host.expectedPeer = "" <;> simp [accept, update, emit, hdevice]

/-- The Files could not be opened for a session that was just named. -/
theorem Takes.fail {mid : LanPeer} {socket : Socket} {message : JsonObject}
    (h : Takes platform host socket message mid) (event : Event) (error : String) :
    Takes platform host socket message
      { mid.emit event with error := error, phase := .error } :=
  ⟨h.server, h.offer, h.qr, h.verificationCode, h.clients⟩

theorem pairMessage_moves {socket : Socket} {message : JsonObject} {session : Session}
    (hspoken : step.input = .text socket message ∨ step.input = .binary socket message)
    (hpair : messageType message = "pair") (hsession : host.clients.lookup socket = some session)
    (hnameless : session.id = "") :
    Moves platform host step (host.pairMessage platform step.world socket message) := by
  unfold pairMessage
  dsimp only
  split
  · exact .unmoved (reject_alike ..).unmoved
  next hpresents =>
  split
  · exact .unmoved (reject_alike ..).unmoved
  next hfree =>
  generalize hcontext : host.offer.authenticationContext platform (message.value "peerId").toString
    (message.value "nonce").toString = authentication
  have hnote := note_unmoved authentication hsession hnameless
  split
  · exact Moves.alike (.unmoved hnote) (reject_alike ..)
  next hverifies =>
  split
  · exact Moves.alike (.unmoved hnote) (reject_alike ..)
  rw [not_not] at hpresents hverifies
  -- All checks are passed here, and the session is named.
  have haccepts : Accepts platform host step socket message := by
    refine ⟨presented_of_checks hspoken hpair hpresents ?_, ⟨session, hsession, hnameless⟩, ?_⟩
    · rw [hcontext]
      exact hverifies
    · intro other own hown hid
      refine hfree (List.any_eq_true.2 ⟨⟨other, own⟩, ?_, by simpa using hid⟩)
      exact AList.mem_lookup_iff.1 hown
  have htakes : Takes platform host socket message
      ((host.note socket authentication).accept platform socket message) :=
    hcontext ▸ accept_takes socket message host
  have haccepted := Moves.accepted haccepts htakes (.inl (accept_phase ..))
  split
  · exact haccepted.alike (transmit_alike ..)
  split
  · exact (Moves.accepted haccepts (htakes.fail _ _) (.inr rfl)).alike
      ((emit_alike ..).trans (reject_alike ..))
  · exact haccepted.alike ((emit_alike ..).trans ((emit_alike ..).trans (transmit_alike ..)))

theorem hostMessage_moves {socket : Socket} {message : JsonObject}
    (hspoken : step.input = .text socket message ∨ step.input = .binary socket message ∧
      ∀ session, host.clients.lookup socket = some session → session.paired = true) :
    Moves platform host step (host.hostMessage platform step.world socket message) := by
  unfold hostMessage
  cases hsession : host.clients.lookup socket with
  | none => exact .unmoved (Alike.refl host).unmoved
  | some session =>
      dsimp only
      split
      · next hpair => exact pairMessage_moves (hspoken.imp_right And.left) hpair.1 hsession hpair.2
      split
      · next hconfirm =>
          obtain ⟨htype, hnamed, hunpaired, hsettled, htime⟩ := hconfirm
          have htext : step.input = .text socket message :=
            hspoken.resolve_right fun hbinary => hunpaired (hbinary.2 session hsession)
          have hconfirms : Confirms host step socket session := ⟨⟨message, htext, htype⟩, hsession,
            hnamed, by simpa using hunpaired, by simpa using hsettled, htime⟩
          obtain ⟨hserver, hphase, hoffer, hqr, hcode, hclients⟩ := transmit_alike step.world.full
            socket (.ofList [("type", .string "paired"), ("host", .string host.offer.hostId),
              ("name", .string host.offer.name),
              ("binary", .double (if session.binary then 1 else 0))])
            { host.update socket (fun session => { session with paired := true }) with
              phase := .paired }
          exact .paired hconfirms hserver hoffer hqr hcode hclients hphase
      split
      · exact .unmoved ((emit_alike ..).trans (transmit_alike ..)).unmoved
      · exact .unmoved (reject_alike ..).unmoved

theorem confirmDevice_moves (hinput : step.input = .confirmDevice) :
    Moves platform host step (host.confirmDevice step.world).1 := by
  unfold confirmDevice
  split
  · exact .unmoved (Alike.refl host).unmoved
  next hphase =>
  rw [not_not] at hphase
  cases hawaiting : host.awaiting with
  | none => exact .unmoved (Alike.refl host).unmoved
  | some entry =>
      obtain ⟨socket, session⟩ := entry
      have hpred := List.find?_some hawaiting
      simp only [Bool.and_eq_true, decide_eq_true_eq] at hpred
      have hsession : host.clients.lookup socket = some session :=
        Table.lookup_of_mem_entries (List.mem_of_find?_eq_some hawaiting)
      -- `awaiting` finds a session that waits and whose deadline has not passed.
      have happroves : Approves host step socket := ⟨hinput, hphase, session, hsession, hpred⟩
      dsimp only
      split
      · next hunproved =>
          -- The proof of the host is made now; without one the session is closed.
          obtain ⟨hsigner, hproof⟩ := hunproved
          have hsign : host.signer = true := hsigner
          simp only [proofOf, hsigner, if_true] at hproof
          have hanswered : Moves platform host step (host.approve socket) :=
            .answered happroves hsession rfl rfl rfl rfl rfl (.inr (.inr ⟨rfl, hsign, hproof⟩))
          exact hanswered.alike ((emit_alike ..).trans (close_alike ..))
      split
      · have hanswered : Moves platform host step { host.approve socket with
            error := "The desktop could not open its Files.", phase := .error } :=
          .answered happroves hsession rfl rfl rfl rfl rfl (.inr (.inl rfl))
        exact hanswered.alike (((emit_alike ..).trans (emit_alike ..)).trans (reject_alike ..))
      · have hanswered : Moves platform host step
            { host.approve socket with phase := .verifying } :=
          .answered happroves hsession rfl rfl rfl rfl rfl (.inl rfl)
        exact hanswered.alike (((emit_alike ..).trans ((emit_alike ..).trans (emit_alike ..))).trans
          (transmit_alike ..))

/-- Dropping sessions leaves everything else that shows alone. -/
theorem cancelPairing_alike (host : LanPeer) : host.cancelPairing.server = host.server ∧
    host.cancelPairing.offer = { host.offer with code := "" } ∧ host.cancelPairing.qr = "" ∧
    host.cancelPairing.verificationCode = "" ∧
    host.cancelPairing.phase = (if host.server then .hosting else .idle) := by
  have hround : ∀ (keys : List Socket) (state : LanPeer),
      (keys.foldl dropSession state).server = state.server ∧
      (keys.foldl dropSession state).offer = state.offer ∧
      (keys.foldl dropSession state).qr = state.qr ∧
      (keys.foldl dropSession state).verificationCode = state.verificationCode := by
    intro keys
    induction keys with
    | nil => exact fun _ => ⟨rfl, rfl, rfl, rfl⟩
    | cons socket rest ih =>
        intro state
        obtain ⟨hserver, hoffer, hqr, hcode⟩ := ih (state.dropSession socket)
        rw [List.foldl_cons, hserver, hoffer, hqr, hcode]
        unfold dropSession
        split <;> exact ⟨rfl, rfl, rfl, rfl⟩
  obtain ⟨hserver, hoffer, hqr, hcode⟩ := hround host.clients.keys
    ({ host with
      qr := ""
      offer := { host.offer with code := "" }
      expectedPeer := ""
      verificationCode := "" })
  exact ⟨hserver, hoffer, hqr, hcode,
    congrArg (fun serving : Bool => if serving then Phase.hosting else .idle) hserver⟩

theorem createOffer_moves {lifetimeSeconds : ℤ}
    (hcalled : step.input = .createOffer lifetimeSeconds ∨
      ∃ peerId, step.input = .createDeviceOffer peerId lifetimeSeconds ∧
        identifier peerId = true ∧ peerId ≠ host.offer.hostId) :
    Moves platform host step
      ((host.hearOffer lifetimeSeconds).createOffer platform lifetimeSeconds).1 := by
  rw [createOffer_hearOffer]
  split
  · exact .unmoved (Alike.refl host).unmoved
  next haccepted =>
  have hclients : (host.emit .withdrawn).cancelPairing.clients = host.cancelPairing.clients := by
    rw [cancelPairing_emit, emit_clients]
  obtain ⟨hserver, hoffer, hqr, hcode, -⟩ := cancelPairing_alike (host.emit .withdrawn)
  obtain ⟨-, hnow, -, -, -, hserial, -⟩ := cancelPairing_rest (host.emit .withdrawn)
  simp only [not_or, not_not, not_lt] at haccepted
  refine .offered ⟨hcalled, haccepted.1, haccepted.2⟩ (hserver.trans haccepted.1) ?_ rfl hcode
    hclients rfl
  simp only [emit_offer, hoffer, hnow, hserial, emit_now, emit_serial]

theorem stop_moves (platform : Platform) (step : Step) (host : LanPeer) :
    Moves platform host step (host.emit .withdrawn).stop :=
  .restarted (fun hserver => absurd hserver (by simp [stop, emit])) rfl rfl rfl (.inl rfl)

theorem startHost_moves {hostId name : String} {handler : Bool} {addresses found : List String}
    {identity : Bool} {listener : Except String (ℕ × String)} :
    Moves platform host step ((host.emit .withdrawn).startHost platform hostId name handler
      addresses found identity listener) := by
  have hfail : ∀ message,
      Moves platform host step ((host.emit .withdrawn).stop.fail message) := fun message =>
    .restarted (fun hserver => absurd hserver (by simp [stop, emit, fail])) rfl rfl rfl
      (.inr (.inr rfl))
  unfold startHost
  dsimp only
  generalize hused : (if addresses.isEmpty = true then found else addresses) = used
  split
  · exact hfail _
  next hsome =>
  split
  · exact hfail _
  next hlocal =>
  split
  · exact hfail _
  next hidentity =>
  split
  · exact hfail _
  cases listener with
  | error error => exact hfail error
  | ok listening =>
      simp only [not_or, not_not, not_lt] at hidentity
      refine .restarted (fun _ => ⟨?_, not_not.1 hlocal, hidentity.1, hidentity.2.1,
        hidentity.2.2.1⟩) rfl rfl rfl (.inr (.inl rfl))
      exact fun hempty => hsome (List.isEmpty_iff.2 hempty)

/-- **One turn of the event loop is one move.** -/
theorem next_moves (platform : Platform) {host : LanPeer} {step : Step}
    (hfeasible : host.Feasible step)
    (hknown : Table.All (fun socket _ => socket < host.sockets) host.clients) :
    Moves platform host step (next platform host step) := by
  unfold next
  cases hinput : step.input with
  | clock time => exact .unmoved (.of_clients rfl rfl rfl rfl rfl fun _ => rfl)
  | startHost => exact startHost_moves
  | setPairingAuthentication signer verifier =>
      exact (stop_moves platform step host).alike ⟨rfl, rfl, rfl, rfl, rfl, rfl⟩
  | newConnection address =>
      -- A session without a name does not show.
      dsimp only [newConnection]
      split
      · exact .unmoved (Alike.refl host).unmoved
      split
      · exact .unmoved (.of_clients rfl rfl rfl rfl rfl fun _ => rfl)
      · refine .unmoved ⟨rfl, rfl, rfl, rfl, rfl, fun socket session hid => ?_⟩
        rw [Table.lookup_insert_eq_some]
        constructor
        · rintro (⟨-, rfl⟩ | ⟨-, hold⟩)
          · exact absurd rfl hid
          · exact hold
        · exact fun hold => .inr ⟨(hknown socket session hold).ne, hold⟩
  | text socket message => exact hostMessage_moves (.inl hinput)
  | binary socket message =>
      dsimp only [binaryMessage]
      cases hlookup : host.clients.lookup socket with
      | none => exact .unmoved (Alike.refl host).unmoved
      | some session =>
          dsimp only
          split
          · exact .unmoved (close_alike ..).unmoved
          · next hopen =>
              rw [not_or, not_not] at hopen
              refine hostMessage_moves (.inr ⟨hinput, fun own hown => ?_⟩)
              exact Option.some.inj (hlookup.symm.trans hown) ▸ hopen.1
  | disconnected socket =>
      dsimp only [disconnected]
      cases hlookup : host.clients.lookup socket with
      | none => exact .unmoved (Alike.refl host).unmoved
      | some previous =>
          dsimp only
          split
          · next hinterrupted =>
              exact .left hinput hlookup rfl rfl rfl rfl rfl (if_pos hinterrupted).symm
          · next hother => exact .left hinput hlookup rfl rfl rfl rfl rfl (if_neg hother).symm
  | sweep =>
      -- Closing sockets changes nothing that shows; their sessions leave later.
      have hrounds : ∀ (keys : List Socket) (state : LanPeer),
          Alike state (keys.foldl sweepSession state) := by
        intro keys
        induction keys with
        | nil => exact Alike.refl
        | cons socket rest ih =>
            intro state
            refine Alike.trans ?_ (ih (state.sweepSession socket))
            unfold sweepSession
            dsimp only
            -- The device is noted after the offer was made.
            split
            · exact close_alike ..
            · exact .refl state
      dsimp only [sweep]
      split
      · have hexpired : Moves platform host step { host with
            qr := ""
            offer := { host.offer with code := "" }
            phase := .error
            error := "The QR code expired. Show a new code." } :=
          .expired rfl rfl rfl rfl rfl rfl
        exact hexpired.alike ((emit_alike ..).trans (hrounds _ _))
      · exact .unmoved (hrounds _ _).unmoved
  | createOffer lifetimeSeconds => exact createOffer_moves (.inl hinput)
  | createDeviceOffer peerId lifetimeSeconds =>
      dsimp only
      rw [createDeviceOffer_hearDeviceOffer]
      split
      · exact .unmoved (Alike.refl host).unmoved
      next haccepted =>
        rw [not_or, not_not] at haccepted
        have hoffered : Moves platform host step
            ((host.hearOffer lifetimeSeconds).createOffer platform lifetimeSeconds).1 :=
          createOffer_moves (.inr ⟨peerId, hinput, haccepted⟩)
        dsimp only
        split
        · exact hoffered.alike ⟨rfl, rfl, rfl, rfl, rfl, rfl⟩
        · exact hoffered
  | cancelPairing =>
      obtain ⟨hserver, hoffer, hqr, hcode, hphase⟩ := cancelPairing_alike host
      dsimp only
      rw [cancelPairing_emit]
      refine .withdrawn hserver hoffer hqr hcode rfl ?_
      change host.cancelPairing.phase = _ ∨ host.cancelPairing.phase = _
      rw [hphase]
      by_cases hserving : host.server = true
      · exact .inl (if_pos hserving)
      · exact .inr (if_neg hserving)
  | confirmDevice => exact confirmDevice_moves hinput
  | stop => exact stop_moves platform step host
  | rehash clients =>
      simp only [Feasible, hinput] at hfeasible
      exact .unmoved (.of_clients rfl rfl rfl rfl rfl fun socket => (hfeasible.lookup socket).symm)

/-! ## Where a name comes from -/

/-- The text of `verificationCode()`. -/
def displayedCode (host : LanPeer) : String :=
  if host.phase = .confirming then host.verificationCode else ""

/-- The message that gave a session its name, the offer it was accepted under, and,
while the session waits, the code two people compare. -/
structure Origin (platform : Platform) (host : LanPeer) (socket : Socket) (session : Session)
    (earlier : LanPeer) (step : Step) (message : JsonObject) : Prop where
  accepts : Accepts platform earlier step socket message
  link : earlier.qr = earlier.offer.encode platform
  code : (message.value "code").toString = earlier.offer.code
  id : session.id = (message.value "peerId").toString
  authentication : session.authentication = earlier.offer.authenticationContext platform
    session.id (message.value "nonce").toString
  compared : session.awaitingApproval = true → earlier.expectedPeer = session.id ∧
    host.verificationCode =
      earlier.offer.verification platform session.id (message.value "nonce").toString

/-- What is on show is the link itself, and every named session was introduced. -/
structure Introductions (platform : Platform) (trace : List (LanPeer × Step)) (host : LanPeer) :
    Prop where
  link : host.qr ≠ "" → host.qr = host.offer.encode platform
  introduced : Table.All (fun socket session => session.id ≠ "" → ∃ earlier step message,
    (earlier, step) ∈ trace ∧ Origin platform host socket session earlier step message)
    host.clients

/-- A session that keeps its name and its context, and does not start to wait, under
the same code. -/
theorem Origin.keep {socket : Socket} {old session : Session} {earlier : LanPeer}
    {message : JsonObject} (h : Origin platform host socket old earlier step message)
    (hid : session.id = old.id) (hcontext : session.authentication = old.authentication)
    (hwaiting : session.awaitingApproval = true → old.awaitingApproval = true ∧
      after.verificationCode = host.verificationCode) :
    Origin platform after socket session earlier step message := by
  obtain ⟨haccepts, hlink, hcode, hname, hauthentication, hcompared⟩ := h
  refine ⟨haccepts, hlink, hcode, hid.trans hname, ?_, fun hwaits => ?_⟩
  · rw [hcontext, hid, hauthentication]
  · obtain ⟨hold, hsame⟩ := hwaiting hwaits
    rw [hsame, hid]
    exact hcompared hold

/-- Sessions that keep their name and context, under the same code or not waiting. -/
theorem Introductions.keep {trace : List (LanPeer × Step)}
    (h : Introductions platform trace host) (visit : LanPeer × Step)
    (hlink : after.qr ≠ "" → after.qr = after.offer.encode platform)
    (hsessions : ∀ socket session, after.clients.lookup socket = some session →
      session.id ≠ "" → ∃ old, host.clients.lookup socket = some old ∧ session.id = old.id ∧
        session.authentication = old.authentication ∧ (session.awaitingApproval = true →
          old.awaitingApproval = true ∧ after.verificationCode = host.verificationCode)) :
    Introductions platform (visit :: trace) after := by
  refine ⟨hlink, fun socket session hsession hid => ?_⟩
  obtain ⟨old, hold, hname, hcontext, hwaiting⟩ := hsessions socket session hsession hid
  obtain ⟨earlier, step, message, hvisit, horigin⟩ :=
    h.introduced socket old hold (hname ▸ hid)
  exact ⟨earlier, step, message, List.mem_cons_of_mem _ hvisit,
    horigin.keep hname hcontext hwaiting⟩

theorem Stage.pending_of_waiting {socket : Socket} {session : Session} {course : List Event}
    (h : Stage socket session course) (hwaiting : session.awaitingApproval = true) :
    session.pending = true ∧ session.paired = false := by
  cases h <;> simp_all [Session.pending]

/-- **One step of the introductions**: a code is only replaced when no session waits. -/
theorem Introductions.turn {trace : List (LanPeer × Step)}
    (h : Introductions platform trace host) (hstaged : Staged host) (hoffers : Offers platform host)
    (hmoves : Moves platform host step after) :
    Introductions platform ((host, step) :: trace) after := by
  have hcancelled : ∀ socket session, host.cancelPairing.clients.lookup socket = some session →
      session.id ≠ "" → ∃ old, host.clients.lookup socket = some old ∧ session.id = old.id ∧
        session.authentication = old.authentication ∧ (session.awaitingApproval = true →
          old.awaitingApproval = true ∧ after.verificationCode = host.verificationCode) := by
    intro socket session hsession hid
    obtain ⟨hold, hpaired⟩ := cancelPairing_clients.1 hsession
    refine ⟨session, hold, rfl, rfl, fun hwaiting => ?_⟩
    -- only paired sessions are left, and those do not wait
    have hunpaired := ((hstaged.stage socket session hold).pending_of_waiting hwaiting).2
    rw [hpaired] at hunpaired
    exact absurd hunpaired (by simp)
  cases hmoves with
  | unmoved hunmoved =>
      refine h.keep _ ?_ fun socket session hsession hid =>
        ⟨session, (hunmoved.named socket session hid).1 hsession, rfl, rfl, fun hwaiting =>
          ⟨hwaiting, hunmoved.verificationCode⟩⟩
      rw [hunmoved.qr, hunmoved.offer]
      exact h.link
  | @accepted socket message haccepts htakes hphase =>
      obtain ⟨hserver, hoffer, hqr, hcode, hclients⟩ := htakes
      refine ⟨fun hshown => absurd hqr hshown, fun other session hsession hid => ?_⟩
      rw [hclients] at hsession
      rcases Table.lookup_modify_eq_some.1 hsession with ⟨rfl, old, -, rfl⟩ | ⟨-, hold⟩
      · obtain ⟨-, -, -, number, htoken⟩ := hoffers.standing haccepts.presented.shown
        have hsame : (message.value "code").toString = host.offer.code := by
          have hpresented := haccepts.presented.code
          rw [htoken] at hpresented ⊢
          exact eq_of_sameCode hpresented
        refine ⟨host, step, message, List.mem_cons_self, haccepts,
          h.link haccepts.presented.shown, hsame, rfl, rfl, fun hwaiting => ?_⟩
        have hdevice : host.expectedPeer ≠ "" := of_decide_eq_true hwaiting
        refine ⟨haccepts.presented.expected.resolve_left hdevice, ?_⟩
        rw [hcode, comparison, if_pos hdevice]
        rfl
      · obtain ⟨earlier, step, message, hvisit, horigin⟩ :=
          h.introduced other session hold hid
        refine ⟨earlier, step, message, List.mem_cons_of_mem _ hvisit,
          horigin.keep rfl rfl fun hwaiting => ?_⟩
        -- while an offer is on show no session is in the middle of a pairing
        have hpending := ((hstaged.stage other session hold).pending_of_waiting hwaiting).1
        rw [hoffers.alone haccepts.presented.shown other session hold] at hpending
        exact absurd hpending (by simp)
  | answered happroves hsession hserver hoffer hqr hcode hclients hphase =>
      refine h.keep _ (by rw [hqr, hoffer]; exact h.link) fun other session hother hid => ?_
      rw [hclients] at hother
      rcases Table.lookup_modify_eq_some.1 hother with ⟨rfl, old, hold, rfl⟩ | ⟨-, hold⟩
      · exact ⟨old, hold, rfl, rfl, fun hwaiting => absurd hwaiting Bool.false_ne_true⟩
      · exact ⟨session, hold, rfl, rfl, fun hwaiting => ⟨hwaiting, hcode⟩⟩
  | paired hconfirms hserver hoffer hqr hcode hclients hphase =>
      refine h.keep _ (by rw [hqr, hoffer]; exact h.link) fun other session hother hid => ?_
      rw [hclients] at hother
      rcases Table.lookup_modify_eq_some.1 hother with ⟨rfl, old, hold, rfl⟩ | ⟨-, hold⟩
      · exact ⟨old, hold, rfl, rfl, fun hwaiting => ⟨hwaiting, hcode⟩⟩
      · exact ⟨session, hold, rfl, rfl, fun hwaiting => ⟨hwaiting, hcode⟩⟩
  | left hinput hsession hserver hoffer hqr hcode hclients hphase =>
      refine h.keep _ (by rw [hqr, hoffer]; exact h.link) fun other session hother hid => ?_
      rw [hclients] at hother
      exact ⟨session, (Table.lookup_erase_eq_some.1 hother).2, rfl, rfl, fun hwaiting =>
        ⟨hwaiting, hcode⟩⟩
  | expired hserver hoffer hqr hcode hclients hphase =>
      refine h.keep _ (fun hshown => absurd hqr hshown) fun other session hother hid => ?_
      rw [hclients] at hother
      exact ⟨session, hother, rfl, rfl, fun hwaiting => ⟨hwaiting, hcode⟩⟩
  | withdrawn hserver hoffer hqr hcode hclients hphase =>
      rw [← hclients] at hcancelled
      exact h.keep _ (fun hshown => absurd hqr hshown) hcancelled
  | offered hoffering hserving hoffer hqr hcode hclients hphase =>
      rw [← hclients] at hcancelled
      exact h.keep _ (fun _ => hqr) hcancelled
  | restarted hserved hqr hcode hclients hphase =>
      refine ⟨fun hshown => absurd hqr hshown, fun socket session hsession => ?_⟩
      rw [hclients] at hsession
      simp at hsession

theorem run_introductions {trace : List (LanPeer × Step)}
    (run : (machine platform).Run Feasible trace host) : Introductions platform trace host := by
  induction run with
  | start h =>
      obtain ⟨time, rfl⟩ := h
      exact ⟨fun hshown => absurd rfl hshown, .empty _⟩
  | step run hfeasible ih =>
      have hstaged := run_staged run
      exact ih.turn hstaged (run_offersInvariant run)
        (next_moves platform hfeasible hstaged.known)

/-! ## `confirmDevice` -/

/-- What `confirmDevice` needs to return true, and the session it approves. -/
theorem confirmDevice_spec {world : World} (h : (host.confirmDevice world).2 = true) :
    host.phase = .confirming ∧ ∃ socket session, host.clients.lookup socket = some session ∧
      session.awaitingApproval = true ∧ (host.now : DateTime) < session.deadline ∧
      (host.confirmDevice world).1.clients = (host.approve socket).clients := by
  unfold confirmDevice at h ⊢
  split at h
  · exact absurd h Bool.false_ne_true
  next hphase =>
  rw [not_not] at hphase
  refine ⟨hphase, ?_⟩
  rw [if_neg (not_not.2 hphase)]
  cases hawaiting : host.awaiting with
  | none =>
      rw [hawaiting] at h
      exact absurd h Bool.false_ne_true
  | some entry =>
      obtain ⟨socket, session⟩ := entry
      have hpred := List.find?_some hawaiting
      simp only [Bool.and_eq_true, decide_eq_true_eq] at hpred
      refine ⟨socket, session, Table.lookup_of_mem_entries (List.mem_of_find?_eq_some hawaiting),
        hpred.1, hpred.2, ?_⟩
      dsimp only
      split
      · rfl
      split
      · exact (reject_alike ..).clients
      · exact (transmit_alike ..).clients

/-- **The approved device is the one whose code is shown.**  When `confirmDevice`
returns true, one session waited for an approval and that session no longer
does.  It was named by a message that presented the link then on show, and the
code displayed just before is the one for its name, its nonce and that link. -/
theorem run_confirmDevice {trace : List (LanPeer × Step)}
    (run : (machine platform).Run Feasible trace host) {world : World}
    (h : (host.confirmDevice world).2 = true) :
    ∃ socket session earlier step message, host.clients.lookup socket = some session ∧
      session.awaitingApproval = true ∧
      Table.count Session.awaitingApproval host.clients = 1 ∧
      Table.count Session.awaitingApproval (host.confirmDevice world).1.clients = 0 ∧
      (host.confirmDevice world).1.clients = (host.approve socket).clients ∧
      (earlier, step) ∈ trace ∧ Origin platform host socket session earlier step message ∧
      host.displayedCode =
        earlier.offer.verification platform session.id (message.value "nonce").toString := by
  obtain ⟨hphase, socket, session, hsession, hwaiting, -, hclients⟩ := confirmDevice_spec h
  have hstaged := run_staged run
  have hnames := (run_offersInvariant run).names
  have hpending := ((hstaged.stage socket session hsession).pending_of_waiting hwaiting).1
  -- Two sessions that wait would both be pending, and one at most is.
  have honly : ∀ other own, host.clients.lookup other = some own →
      own.awaitingApproval = true → other = socket := by
    intro other own hown hwaits
    exact hnames.single socket session hsession hpending other own hown
      ((hstaged.stage other own hown).pending_of_waiting hwaits).1
  have hid : session.id ≠ "" := by
    rintro hnone
    simp [Session.pending, hnone] at hpending
  obtain ⟨earlier, step, message, hvisit, horigin⟩ :=
    (run_introductions run).introduced socket session hsession hid
  refine ⟨socket, session, earlier, step, message, hsession, hwaiting, ?_, ?_, hclients, hvisit,
    horigin, ?_⟩
  · refine le_antisymm (Table.count_le_one ?_) (Table.count_pos hsession hwaiting)
    intro first one hone hwaits second two htwo hwaits'
    rw [honly first one hone hwaits, honly second two htwo hwaits']
  -- Afterwards nobody waits: it was the only one.
  · rw [hclients]
    refine Table.count_eq_zero fun other own hown => ?_
    rcases Table.lookup_modify_eq_some.1 hown with ⟨-, old, -, rfl⟩ | ⟨hother, hold⟩
    · rfl
    · by_contra hwaits
      exact hother (honly other own hold (by simpa using hwaits))
  · rw [displayedCode, if_pos hphase]
    exact (horigin.compared hwaiting).2

/-- The device presents its code. -/
def deviceVisit : List Step := household.take 5

theorem deviceVisit_admissible :
    (machine .sample).Admissible Feasible { now := 0 } deviceVisit :=
  ⟨trivial, trivial, trivial, trivial, trivial, trivial⟩

theorem run_confirmDevice_visit : ∃ host trace, (machine .sample).Run Feasible trace host ∧
    (host.confirmDevice World.account).2 = true ∧
    ∃ socket session earlier step message, host.clients.lookup socket = some session ∧
      session.awaitingApproval = true ∧
      Table.count Session.awaitingApproval host.clients = 1 ∧
      Table.count Session.awaitingApproval (host.confirmDevice World.account).1.clients = 0 ∧
      (host.confirmDevice World.account).1.clients = (host.approve socket).clients ∧
      (earlier, step) ∈ trace ∧ Origin .sample host socket session earlier step message ∧
      host.displayedCode =
        earlier.offer.verification .sample session.id (message.value "nonce").toString := by
  have hstart : (machine .sample).Run Feasible [] { now := 0 } := .start ⟨0, rfl⟩
  obtain ⟨trace, run⟩ := hstart.extend deviceVisit deviceVisit_admissible
  have hconfirmed : ((deviceVisit.foldl (machine .sample).next { now := 0 }).confirmDevice
      World.account).2 = true := by decide +kernel
  exact ⟨_, trace, run, hconfirmed, run_confirmDevice run hconfirmed⟩

end LanPeer

end ServerHost
