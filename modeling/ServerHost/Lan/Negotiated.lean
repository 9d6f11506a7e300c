import ServerHost.Lan.System

/-!
# The gate for binary messages, at each end

Each end opens its gate for binary messages with the message `paired`: the host when it
wrote it, the client when it takes it.  `Mild` is a turn of the host that writes no
`paired`, and the only other turn is that of `confirm`; `Steady` is a turn of the client
that keeps the property `iish.binary` of its socket.
-/

namespace ServerHost

namespace LanPeer

variable {platform : Platform} {host after first : LanPeer} {step : Step}

/-! ## The host -/

/-- What a turn without `confirm` adds to the history. -/
def Event.mild (host : LanPeer) : Event → Prop
  | .sent socket message => messageType message ≠ "paired" ∧ socket ∉ host.closing
  | .paired .. => False
  | _ => True

/-- A turn that pairs no session. -/
structure Mild (host after : LanPeer) : Prop where
  binary : after.binary = host.binary
  closing : host.closing ⊆ after.closing
  log : Grows (fun entry => entry.event.mild host) host.log after.log

theorem Mild.of_eq (hbinary : after.binary = host.binary) (hclosing : after.closing = host.closing)
    (hlog : after.log = host.log) : Mild host after :=
  ⟨hbinary, hclosing ▸ List.Subset.refl _, .of_eq hlog⟩

theorem Mild.refl (host : LanPeer) : Mild host host := .of_eq rfl rfl rfl

theorem Mild.trans (h : Mild host first) (h' : Mild first after) : Mild host after := by
  refine ⟨h'.binary.trans h.binary, List.Subset.trans h.closing h'.closing,
    h.log.trans (h'.log.mono fun entry hentry => ?_)⟩
  cases hevent : entry.event with
  | sent socket message =>
      rw [hevent] at hentry
      exact ⟨hentry.1, fun hclosing => hentry.2 (h.closing hclosing)⟩
  | paired socket id => rwa [hevent] at hentry
  | _ => trivial

theorem Mild.foldl {α : Type*} {f : LanPeer → α → LanPeer} (h : ∀ host a, Mild host (f host a))
    (list : List α) (host : LanPeer) : Mild host (list.foldl f host) :=
  list.foldlRecOn f (motive := fun after => Mild host after) (.refl host)
    fun after hafter a _ => hafter.trans (h after a)

theorem emit_mild {event : Event} (h : event.mild host) : Mild host (host.emit event) :=
  ⟨rfl, List.Subset.refl _, .cons h⟩

theorem close_mild (socket : Socket) (host : LanPeer) : Mild host (host.close socket) :=
  ⟨rfl, List.subset_cons_self .., .cons trivial⟩

theorem update_mild (socket : Socket) (f : Session → Session) (host : LanPeer) :
    Mild host (host.update socket f) := .of_eq rfl rfl rfl

theorem transmit_mild {message : JsonObject} (type : String) (htype : messageType message = type)
    (hother : type ≠ "paired") (full : Socket → JsonObject → Bool) (socket : Socket)
    (host : LanPeer) :
    Mild host (host.transmit full socket message) := by
  unfold transmit
  split
  · exact .refl host
  · next hopen =>
      split
      · exact close_mild socket host
      · exact emit_mild ⟨htype ▸ hother, hopen⟩

theorem reject_mild (world : World) (socket : Socket) (text : String) (host : LanPeer) :
    Mild host (host.reject world socket text) :=
  (transmit_mild "error" rfl (by decide) ..).trans (close_mild ..)

/-- The Files could not be opened. -/
theorem failed_mild (world : World) (socket : Socket) (text : String) (host : LanPeer) :
    Mild host ({ host with error := text, phase := .error }.emit (.failed socket)
      |>.reject world socket text) := by
  have hfailed : Mild host ({ host with error := text, phase := .error }.emit (.failed socket)) :=
    ⟨rfl, List.Subset.refl _, .cons trivial⟩
  exact hfailed.trans (reject_mild ..)

theorem accept_mild (socket : Socket) (message : JsonObject) (host : LanPeer) :
    Mild host (host.accept platform socket message) :=
  ⟨rfl, List.Subset.refl _, .cons trivial⟩

theorem pairMessage_mild (world : World) (socket : Socket) (message : JsonObject)
    (host : LanPeer) : Mild host (host.pairMessage platform world socket message) := by
  unfold pairMessage
  dsimp only
  split
  · exact reject_mild ..
  split
  · exact reject_mild ..
  split
  · exact (update_mild ..).trans (reject_mild ..)
  split
  · exact (update_mild ..).trans (reject_mild ..)
  split
  · exact (update_mild ..).trans
      ((accept_mild ..).trans (transmit_mild "verify" rfl (by decide) ..))
  have haccepted : ∀ authentication, Mild host ((host.update socket fun session => { session with
      authentication := authentication }).accept platform socket message) := fun authentication =>
    (update_mild ..).trans (accept_mild ..)
  split
  · exact (haccepted _).trans ((emit_mild (by trivial)).trans (failed_mild ..))
  · exact (haccepted _).trans ((emit_mild (by trivial)).trans ((emit_mild (by trivial)).trans
      (transmit_mild "ready" rfl (by decide) ..)))

/-- The turn that pairs a session, and the only one that is not mild. -/
def Pairs (host : LanPeer) (step : Step) (after : LanPeer) : Prop :=
  ∃ socket session, Confirms host step socket session ∧
    after = host.confirmMessage step.world socket session

theorem hostMessage_mild {socket : Socket} {message : JsonObject}
    (hspoken : step.input = .text socket message ∨
      ∀ session, host.clients.lookup socket = some session → session.paired = true) :
    Mild host (host.hostMessage platform step.world socket message) ∨
      Pairs host step (host.hostMessage platform step.world socket message) := by
  unfold hostMessage
  cases hsession : host.clients.lookup socket with
  | none => exact .inl (.refl host)
  | some session =>
      dsimp only
      by_cases hpair : messageType message = "pair" ∧ session.id = ""
      · rw [if_pos hpair]
        exact .inl (pairMessage_mild ..)
      rw [if_neg hpair]
      by_cases hconfirm : messageType message = "confirm" ∧ session.id ≠ "" ∧ ¬ session.paired ∧
          ¬ session.awaitingApproval ∧ (host.now : DateTime) < session.deadline
      · rw [if_pos hconfirm]
        obtain ⟨htype, hnamed, hunpaired, hsettled, htime⟩ := hconfirm
        have htext : step.input = .text socket message :=
          hspoken.resolve_right fun hpaired => hunpaired (hpaired session hsession)
        exact .inr ⟨socket, session, ⟨⟨message, htext, htype⟩, hsession, hnamed,
          by simpa using hunpaired, by simpa using hsettled, htime⟩, rfl⟩
      rw [if_neg hconfirm]
      by_cases hrequest : messageType message = "request" ∧ session.paired = true ∧
          identifier (message.value "id").toString ∧ (message.value "payload").isObject
      · rw [if_pos hrequest]
        exact .inl ((emit_mild (by trivial)).trans (transmit_mild "response" rfl (by decide) ..))
      · rw [if_neg hrequest]
        exact .inl (reject_mild ..)

theorem cancelPairing_mild (host : LanPeer) : Mild host host.cancelPairing := by
  have hround : ∀ (state : LanPeer) socket, Mild state (state.dropSession socket) := by
    intro state socket
    unfold dropSession
    split
    · exact ⟨rfl, List.subset_cons_self .., .of_eq rfl⟩
    · exact .refl state
  have hstart : Mild host ({ host with
      qr := ""
      offer := { host.offer with code := "" }
      expectedPeer := ""
      verificationCode := "" }) := .of_eq rfl rfl rfl
  exact (hstart.trans (.foldl hround _ _)).trans (.of_eq rfl rfl rfl)

theorem withdraw_mild (host : LanPeer) : Mild host (host.emit .withdrawn).cancelPairing :=
  (emit_mild (by trivial)).trans (cancelPairing_mild _)

theorem createOffer_mild (platform : Platform) (lifetimeSeconds : ℤ) (host : LanPeer) :
    Mild host ((host.hearOffer lifetimeSeconds).createOffer platform lifetimeSeconds).1 := by
  rw [createOffer_hearOffer]
  split
  · exact .refl host
  · exact (withdraw_mild host).trans ⟨rfl, List.Subset.refl _, .cons trivial⟩

theorem confirmDevice_mild (world : World) (host : LanPeer) :
    Mild host (host.confirmDevice world).1 := by
  unfold confirmDevice
  split
  · exact .refl host
  cases host.awaiting with
  | none => exact .refl host
  | some entry =>
      dsimp only
      split
      · exact (update_mild ..).trans ((emit_mild (by trivial)).trans (close_mild ..))
      split
      · exact (update_mild ..).trans ((emit_mild (by trivial)).trans (failed_mild ..))
      · have happroved : ∀ (socket : Socket) (state : LanPeer),
            Mild state (({ state with phase := .verifying }.emit (.listed socket)).emit
              (.approved socket)) := fun socket state =>
          ⟨rfl, List.Subset.refl _, ⟨[_, _], rfl, by simp [Event.mild]⟩⟩
        exact (update_mild ..).trans ((emit_mild (by trivial)).trans ((happroved ..).trans
          (transmit_mild "ready" rfl (by decide) ..)))

theorem newConnection_mild (address : String) (host : LanPeer) :
    Mild host (host.newConnection platform address) := by
  unfold newConnection
  split
  · exact .refl host
  · dsimp only
    split
    · exact ⟨rfl, List.subset_cons_self .., .cons (by trivial)⟩
    · exact .of_eq rfl rfl rfl

theorem stop_mild (host : LanPeer) : Mild host (host.emit .withdrawn).stop :=
  ⟨rfl, List.subset_append_right .., .cons trivial⟩

/-- **Every turn of the host is mild, but that of `confirm`.** -/
theorem next_mild (platform : Platform) (host : LanPeer) (step : Step) :
    Mild host (next platform host step) ∨ Pairs host step (next platform host step) := by
  unfold next
  cases hinput : step.input with
  | clock time => exact .inl (.of_eq rfl rfl rfl)
  | startHost hostId name handler addresses found identity listener =>
      -- The sockets are closed by `stop`, and hosting starts without any.
      refine .inl ((stop_mild host).trans ?_)
      unfold startHost
      dsimp only
      generalize (if addresses.isEmpty = true then found else addresses) = addresses
      split
      · exact .of_eq rfl rfl rfl
      split
      · exact .of_eq rfl rfl rfl
      split
      · exact .of_eq rfl rfl rfl
      split
      · exact .of_eq rfl rfl rfl
      cases listener with
      | error error => exact .of_eq rfl rfl rfl
      | ok listening => exact .of_eq rfl rfl rfl
  | setPairingAuthentication signer verifier =>
      exact .inl ((stop_mild host).trans (.of_eq rfl rfl rfl))
  | newConnection address => exact .inl (newConnection_mild ..)
  | text socket message => exact hostMessage_mild (.inl hinput)
  | binary socket message =>
      -- A binary message reaches the handlers of a paired session only, so it is no `confirm`.
      dsimp only [binaryMessage]
      cases hlookup : host.clients.lookup socket with
      | none => exact .inl (.refl host)
      | some session =>
          dsimp only
          split
          · exact .inl (close_mild ..)
          · next hopen =>
              rw [not_or, not_not] at hopen
              refine hostMessage_mild (.inr fun own hown => ?_)
              exact Option.some.inj (hlookup.symm.trans hown) ▸ hopen.1
  | disconnected socket =>
      refine .inl ?_
      dsimp only [disconnected]
      cases host.clients.lookup socket with
      | none => exact .refl host
      | some previous =>
          dsimp only
          split <;> exact .of_eq rfl rfl rfl
  | sweep =>
      have hround : ∀ (state : LanPeer) socket, Mild state (state.sweepSession socket) := by
        intro state socket
        unfold sweepSession
        dsimp only
        split
        · exact close_mild ..
        · exact .refl state
      refine .inl (Mild.trans ?_ (.foldl hround _ _))
      split
      · exact ⟨rfl, List.Subset.refl _, .cons trivial⟩
      · exact .refl host
  | createOffer lifetimeSeconds => exact .inl (createOffer_mild ..)
  | createDeviceOffer peerId lifetimeSeconds =>
      refine .inl ?_
      dsimp only
      rw [createDeviceOffer_hearDeviceOffer]
      split
      · exact .refl host
      · refine (createOffer_mild platform lifetimeSeconds host).trans ?_
        dsimp only
        split <;> exact .of_eq rfl rfl rfl
  | cancelPairing => exact .inl (withdraw_mild host)
  | confirmDevice => exact .inl (confirmDevice_mild ..)
  | stop => exact .inl (stop_mild host)
  | rehash clients => exact .inl (.of_eq rfl rfl rfl)

/-! ## What the other end sees of it -/

/-- `paired` was due on this socket. -/
def Announced (host : LanPeer) (socket : Socket) : Prop :=
  ∃ id, .paired socket id ∈ events host.log

/-- The message that says that a session is paired. -/
def pairedReply (host : LanPeer) (session : Session) : JsonObject :=
  .ofList [("type", .string "paired"), ("host", .string host.offer.hostId),
    ("name", .string host.offer.name), ("binary", .double (if session.binary then 1 else 0))]

theorem pairedReply_type (host : LanPeer) (session : Session) :
    messageType (host.pairedReply session) = "paired" := rfl

theorem pairedReply_binary (host : LanPeer) (session : Session) :
    ((host.pairedReply session).value "binary").isOne = session.binary := by
  rw [pairedReply]
  cases session.binary with
  | false => rfl
  | true => rfl

theorem Mild.announced (h : Mild host after) (socket : Socket) :
    Announced after socket ↔ Announced host socket := by
  refine exists_congr fun id => ⟨fun hmem => ?_, fun hmem => ?_⟩
  · obtain ⟨entry, hentry, hevent⟩ := List.mem_map.1 hmem
    rcases h.log.mem hentry with hold | hnew
    · exact hevent ▸ List.mem_map_of_mem hold
    · rw [hevent] at hnew
      exact hnew.elim
  · obtain ⟨new, hlog, -⟩ := h.log
    rw [events, hlog, List.map_append]
    exact List.mem_append_right _ hmem

theorem Mild.told (h : Mild host after) {socket : Socket} {message : JsonObject}
    (hmem : message ∈ told socket host after) :
    messageType message ≠ "paired" ∧ socket ∉ host.closing := by
  obtain ⟨new, hlog, hall⟩ := h.log
  rw [LanSystem.host_told hlog, List.mem_reverse, List.mem_filterMap] at hmem
  obtain ⟨entry, hentry, htold⟩ := hmem
  have hmild := hall entry hentry
  cases hevent : entry.event with
  | sent own sent =>
      simp only [hevent, Event.told, Option.ite_none_right_eq_some, Option.some.injEq] at htold
      obtain ⟨rfl, rfl⟩ := htold
      simp only [hevent] at hmild
      exact hmild
  | _ => simp [hevent, Event.told] at htold

/-- What `confirm` leaves behind: the message is written, or the socket is closing. -/
structure Confirmed (host : LanPeer) (socket : Socket) (session : Session) (after : LanPeer) :
    Prop where
  binary : after.binary = if session.binary then socket :: host.binary else host.binary
  closing : host.closing ⊆ after.closing
  announced : ∀ own, Announced after own ↔ own = socket ∨ Announced host own
  other : ∀ own, own ≠ socket → told own host after = []
  own : told socket host after = [host.pairedReply session] ∨
    told socket host after = [] ∧ socket ∈ after.closing

theorem confirmMessage_spec (world : World) (socket : Socket) (session : Session)
    (host : LanPeer) :
    Confirmed host socket session (host.confirmMessage world socket session) := by
  have hannounced : ∀ (new : List Entry), (∀ entry ∈ new, ∀ own id, entry.event ≠ .paired own id) →
      (host.confirmMessage world socket session).log =
        (⟨host.now, .paired socket session.id⟩ :: new) ++ host.log → ∀ own,
      Announced (host.confirmMessage world socket session) own ↔
        own = socket ∨ Announced host own := by
    intro new hnew hlog own
    simp only [Announced, events, hlog, List.cons_append, List.map_cons, List.map_append,
      List.mem_cons, List.mem_append, Event.paired.injEq, exists_or]
    constructor
    · rintro (⟨id, rfl, -⟩ | ⟨id, hmem⟩ | ⟨id, hold⟩)
      · exact .inl rfl
      · obtain ⟨entry, hentry, hevent⟩ := List.mem_map.1 hmem
        exact absurd hevent (hnew entry hentry own id)
      · exact .inr ⟨id, hold⟩
    · rintro (rfl | hold)
      · exact .inl ⟨session.id, rfl, rfl⟩
      · exact .inr (.inr hold)
  -- On a closing socket the reply is dropped,
  by_cases hclosing : socket ∈ host.closing
  · have hlog : (host.confirmMessage world socket session).log =
        [⟨host.now, .paired socket session.id⟩] ++ host.log := by
      simp [confirmMessage, transmit, update, emit, hclosing]
    have hkept : (host.confirmMessage world socket session).closing = host.closing := by
      simp [confirmMessage, transmit, update, emit, hclosing]
    refine ⟨?_, hkept ▸ List.Subset.refl _, hannounced [] (by simp) hlog, fun own _ => ?_,
      .inr ⟨?_, hkept ▸ hclosing⟩⟩
    · simp [confirmMessage, transmit, update, emit, hclosing]
    · rw [LanSystem.host_told hlog]
      rfl
    · rw [LanSystem.host_told hlog]
      rfl
  -- with a full queue the socket is closed instead,
  by_cases hfull : world.full socket (host.pairedReply session) = true
  -- and otherwise the reply leaves with the property as it was before the turn.
  · have hlog : (host.confirmMessage world socket session).log =
        [⟨host.now, .paired socket session.id⟩, ⟨host.now, .closed socket⟩] ++ host.log := by
      rw [pairedReply] at hfull
      simp [confirmMessage, transmit, update, emit, close, hclosing, hfull]
    have hkept : (host.confirmMessage world socket session).closing = socket :: host.closing := by
      rw [pairedReply] at hfull
      simp [confirmMessage, transmit, update, emit, close, hclosing, hfull]
    refine ⟨?_, hkept ▸ List.subset_cons_self .., hannounced _ (by simp) hlog, fun own _ => ?_,
      .inr ⟨?_, hkept ▸ List.mem_cons_self⟩⟩
    · rw [pairedReply] at hfull
      simp [confirmMessage, transmit, update, emit, close, hclosing, hfull]
    · rw [LanSystem.host_told hlog]
      rfl
    · rw [LanSystem.host_told hlog]
      rfl
  · have hlog : (host.confirmMessage world socket session).log =
        [⟨host.now, .paired socket session.id⟩,
          ⟨host.now, .sent socket (host.pairedReply session)⟩] ++ host.log := by
      rw [pairedReply] at hfull ⊢
      simp [confirmMessage, transmit, update, emit, hclosing, hfull]
    have hkept : (host.confirmMessage world socket session).closing = host.closing := by
      rw [pairedReply] at hfull
      simp [confirmMessage, transmit, update, emit, hclosing, hfull]
    refine ⟨?_, hkept ▸ List.Subset.refl _, hannounced _ (by simp) hlog, fun own hne => ?_, .inl ?_⟩
    · rw [pairedReply] at hfull
      simp [confirmMessage, transmit, update, emit, hclosing, hfull]
    · rw [LanSystem.host_told hlog]
      simp [Event.told, hne.symm]
    · rw [LanSystem.host_told hlog]
      simp [Event.told]

/-- The property `iish.binary` comes with `paired`. -/
theorem run_binary {trace : List (LanPeer × Step)}
    (run : (machine platform).Run LanPeer.Feasible trace host) :
    ∀ socket ∈ host.binary, Announced host socket := by
  refine run.invariant_state (I := fun host => ∀ socket ∈ host.binary, Announced host socket) ?_
    fun host step h _ socket hmem => ?_
  · rintro _ ⟨time, rfl⟩
    simp
  · rcases next_mild platform host step with hmild | ⟨own, session, -, hpairs⟩
    · exact (hmild.announced socket).2 (h socket (hmild.binary ▸ hmem))
    · have hconfirmed := confirmMessage_spec step.world own session host
      change Announced (next platform host step) socket
      change socket ∈ (next platform host step).binary at hmem
      rw [hpairs] at hmem ⊢
      rw [hconfirmed.binary] at hmem
      rw [hconfirmed.announced]
      split at hmem
      · exact (List.mem_cons.1 hmem).imp_right (h socket)
      · exact .inr (h socket hmem)

theorem Stage.paired_iff {socket : Socket} {session : Session} {done : List Event}
    (h : Stage socket session done) :
    session.paired = true ↔ ∃ id, .paired socket id ∈ done := by
  cases h with
  | blank _ hunpaired => simp [hunpaired]
  | waits _ _ _ _ hunpaired => simp [hunpaired]
  | settled _ hunpaired _ hdone => simp [hunpaired, hdone.not_paired]
  | paired id _ hpaired => exact ⟨fun _ => ⟨id, List.mem_cons_self⟩, fun _ => hpaired⟩

/-- A session is paired when `paired` was due on its socket. -/
theorem Staged.paired_iff (h : Staged host) {socket : Socket} {session : Session}
    (hsession : host.clients.lookup socket = some session) :
    session.paired = true ↔ Announced host socket := by
  rw [(h.stage socket session hsession).paired_iff]
  simp [Announced, mem_course, Event.pairing]

end LanPeer

namespace LanClient

variable {platform : Platform} {read : String → LanLink.Query} {base client after : LanClient}
variable {step : Step} {socket : Socket}

/-! ## The client -/

/-- Seen from an earlier moment: the socket is gone, or it is the same with the same
property, or it is new and has none. -/
structure Steady (base client : LanClient) : Prop where
  sockets : base.sockets ≤ client.sockets
  socket : client.client = none ∨ client.client = base.client ∧ client.binary = base.binary ∨
    ∃ socket, base.sockets ≤ socket ∧ client.client = some socket ∧ client.binary = false

theorem Steady.refl (client : LanClient) : Steady client client := ⟨le_rfl, .inr (.inl ⟨rfl, rfl⟩)⟩

/-- Only what has nothing to do with the socket changes. -/
theorem Steady.aside (h : Steady base client) (hclient : after.client = client.client)
    (hbinary : after.binary = client.binary) (hsockets : after.sockets = client.sockets) :
    Steady base after := by
  obtain ⟨hle, hsocket⟩ := h
  rw [← hclient, ← hbinary] at hsocket
  exact ⟨hsockets ▸ hle, hsocket⟩

theorem Steady.lose (h : Steady base client) (hloses : Loses client after) : Steady base after :=
  ⟨h.sockets.trans hloses.sockets, .inl hloses.none⟩

theorem openAddress_steady (h : Steady base client) : Steady base client.openAddress := by
  unfold openAddress
  split
  · exact h.lose ((fail_loses ..).head (.of_log rfl) rfl)
  · dsimp only
    split
    · have hloses := fail_loses "Invalid desktop certificate fingerprint."
        { client with client := some client.sockets, sockets := client.sockets + 1 }
      exact ⟨h.sockets.trans ((Nat.le_succ _).trans hloses.sockets), .inl hloses.none⟩
    · exact ⟨h.sockets.trans (Nat.le_succ _), .inr (.inr ⟨client.sockets, h.sockets, rfl, rfl⟩)⟩

theorem errorOccurred_steady (h : Steady base client) (text : String) :
    Steady base (client.errorOccurred text) := by
  have hnamed : Steady base { client with connectionError := text } := h.aside rfl rfl rfl
  unfold errorOccurred
  dsimp only
  split
  · exact openAddress_steady hnamed
  · exact hnamed.lose (fail_loses ..)

theorem send_steady (h : Steady base client) (world : World) (message : JsonObject) :
    Steady base (client.send world message).1 := by
  unfold send
  split
  · exact h
  split
  · exact h
  cases world.delivery message with
  | left => exact h.aside rfl rfl rfl
  | full => exact h.aside rfl rfl rfl
  | broke text => exact errorOccurred_steady h text

theorem connected_steady (h : Steady base client) (world : World) (socket : Socket)
    (fingerprint : String) : Steady base (client.connected platform world socket fingerprint) := by
  unfold connected
  split
  · exact h.lose (fail_loses ..)
  have hgreeted : Steady base (client.greet platform socket) := h.aside rfl rfl rfl
  dsimp only
  split
  · exact hgreeted.lose (fail_loses ..)
  · exact (send_steady hgreeted world _).aside rfl rfl rfl

/-- The host says that the client is paired, and the client takes its word for the
property. -/
def Agrees (client : LanClient) (message : JsonObject) (after : LanClient) : Prop :=
  messageType message = "paired" ∧ after.client = client.client ∧
    after.binary = (message.value "binary").isOne

/-- A message of the host is followed by another turn than that of `paired`. -/
def Refuses (base : LanClient) (message : JsonObject) (after : LanClient) : Prop :=
  Steady base after ∧ (messageType message = "paired" → after.client = none)

theorem Refuses.of_lose {message : JsonObject} (h : Steady base client)
    (hloses : Loses client after) : Refuses base message after :=
  ⟨h.lose hloses, fun _ => hloses.none⟩

theorem answerMessage_steady (h : Steady base client) (world : World) (socket : Socket)
    (message : JsonObject) : Refuses base message (client.answerMessage world socket message) ∨
      Agrees client message (client.answerMessage world socket message) := by
  unfold answerMessage
  dsimp only
  split
  -- of the four messages only `paired` settles on binary frames
  · next hverify => exact .inl ⟨h.aside rfl rfl rfl, fun htype => by simp [hverify.1] at htype⟩
  split
  · next hready =>
      have hverifying : Steady base { client with phase := .verifying } := h.aside rfl rfl rfl
      refine .inl ⟨?_, fun htype => by simp [hready.1] at htype⟩
      unfold readyMessage
      dsimp only
      split
      · exact hverifying.lose (fail_loses ..)
      · exact send_steady hverifying world _
  split
  · next hpaired =>
      unfold pairedMessage
      split
      · exact .inl (.of_lose h (fail_loses ..))
      · exact .inr ⟨hpaired.1, rfl, rfl⟩
  split
  · next hresponse =>
      refine .inl ⟨?_, fun htype => by simp [hresponse.1] at htype⟩
      unfold responseMessage
      dsimp only
      split
      · exact h
      · exact h.aside rfl rfl rfl
  · exact .inl (.of_lose h (fail_loses ..))

theorem clientMessage_steady (world : World) (socket : Socket) (message : JsonObject)
    (client : LanClient) : Refuses client message (client.clientMessage world socket message) ∨
      Agrees client message (client.clientMessage world socket message) := by
  have hreceived : Steady client (client.emit (.received socket message)) :=
    (Steady.refl client).aside rfl rfl rfl
  unfold clientMessage
  dsimp only
  split
  · exact .inl (.of_lose hreceived (fail_loses ..))
  split
  · split
    · exact .inl (.of_lose hreceived (fail_loses ..))
    · have hverified : Steady client ({ client.emit (.received socket message) with
          authenticated := true }.emit
            (.verified socket client.authentication (message.value "proof").toObject)) :=
        hreceived.aside rfl rfl rfl
      exact answerMessage_steady hverified world socket message
  · exact answerMessage_steady hreceived world socket message

theorem sweep_steady (client : LanClient) : Steady client client.sweep := by
  have hround : ∀ (now : ℤ) (ids : List String) (state : LanClient), Steady client state →
      Steady client (ids.foldl (sweepRequest now) state) := by
    intro now ids state hstate
    refine List.foldlRecOn ids _ hstate fun after hafter id _ => ?_
    unfold sweepRequest
    split
    · exact hafter.aside rfl rfl rfl
    · exact hafter
  unfold sweep
  refine hround _ _ _ ?_
  split
  · split
    · exact (Steady.refl client).lose (fail_loses ..)
    split
    · exact openAddress_steady (.refl client)
    · exact .refl client
  · exact .refl client

theorem join_steady (qr peerId name : String) (client : LanClient) :
    Steady client (client.join platform read qr peerId name) := by
  have hstopped : Steady client client.stop := (Steady.refl client).lose (stop_loses client)
  unfold join
  dsimp only
  cases LanLink.decode platform read qr with
  | none => exact hstopped.lose (fail_loses ..)
  | some link =>
      dsimp only
      split
      · exact hstopped.lose (fail_loses ..)
      · exact openAddress_steady (hstopped.aside rfl rfl rfl)

theorem runTask_steady (h : Steady base client) (world : World) (task : Task) :
    Steady base (client.runTask world task) := by
  cases task with
  | refuse id => exact h.aside rfl rfl rfl
  | send id payload =>
      simp only [runTask]
      split
      · exact h
      split
      · exact send_steady h world _
      · exact (send_steady h world _).lose (fail_loses ..)

/-- The message of the host that the input is. -/
def Spoken (client : LanClient) (step : Step) (socket : Socket) (message : JsonObject) : Prop :=
  client.client = some socket ∧
    (step.input = .text socket message ∨ step.input = .binary socket message)

/-- **Every turn of the client is steady, but that of `paired`.** -/
theorem next_steady (platform : Platform) (read : String → LanLink.Query) (client : LanClient)
    (step : Step) :
    (Steady client (next platform read client step) ∧
      ∀ socket message, Spoken client step socket message → messageType message = "paired" →
        (next platform read client step).client = none) ∨
      ∃ socket message, Spoken client step socket message ∧
        Agrees client message (next platform read client step) := by
  have hslot : ∀ (socket : Socket) (slot : LanClient → LanClient), Steady client (slot client) →
      Steady client (client.onSocket socket slot) := by
    intro socket slot hsteady
    unfold onSocket
    split
    · exact hsteady
    · exact .refl client
  -- The answer to a message, when it is one of the current socket.
  have hanswer : ∀ (socket : Socket) (message : JsonObject) (after : LanClient),
      step.input = .text socket message ∨ step.input = .binary socket message →
      client.client = some socket → Refuses client message after ∨ Agrees client message after →
      (Steady client after ∧ ∀ own spoken, Spoken client step own spoken →
        messageType spoken = "paired" → after.client = none) ∨
      ∃ own spoken, Spoken client step own spoken ∧ Agrees client spoken after := by
    intro socket message after hinput hclient hafter
    rcases hafter with ⟨hsteady, hrefused⟩ | hagrees
    · refine .inl ⟨hsteady, fun own spoken hspoken htype => hrefused ?_⟩
      rcases hinput with hinput | hinput <;> rcases hspoken.2 with hown | hown <;>
        rw [hinput] at hown <;> cases hown <;> exact htype
    · exact .inr ⟨socket, message, ⟨hclient, hinput⟩, hagrees⟩
  have hother : ∀ after : LanClient, Steady client after →
      (∀ socket message, ¬ Spoken client step socket message) →
      (Steady client after ∧ ∀ own spoken, Spoken client step own spoken →
        messageType spoken = "paired" → after.client = none) ∨
      ∃ own spoken, Spoken client step own spoken ∧ Agrees client spoken after :=
    fun after hsteady hnone =>
      .inl ⟨hsteady, fun own spoken hspoken => (hnone own spoken hspoken).elim⟩
  unfold next
  cases hinput : step.input with
  | clock time =>
      exact hother _ ((Steady.refl client).aside rfl rfl rfl) (by simp [Spoken, hinput])
  | join qr peerId name => exact hother _ (join_steady ..) (by simp [Spoken, hinput])
  | setPairingAuthentication signer verifier =>
      exact hother _ (((Steady.refl client).lose (stop_loses client)).aside rfl rfl rfl)
        (by simp [Spoken, hinput])
  | connected socket fingerprint =>
      exact hother _ (hslot _ _ (connected_steady (.refl client) ..)) (by simp [Spoken, hinput])
  | text socket message =>
      dsimp only [onSocket]
      split
      · next hclient =>
          exact hanswer socket message _ (.inl hinput) hclient (clientMessage_steady ..)
      · next hne =>
          refine hother _ (.refl client) fun own spoken hspoken => hne ?_
          rcases hspoken with ⟨hclient, hown | hown⟩ <;> rw [hinput] at hown <;> cases hown
          exact hclient
  | binary socket message =>
      dsimp only [onSocket]
      split
      · next hclient =>
          refine hanswer socket message _ (.inr hinput) hclient ?_
          unfold binaryMessage
          split
          · exact .inl (.of_lose (.refl client) (fail_loses ..))
          · exact clientMessage_steady ..
      · next hne =>
          refine hother _ (.refl client) fun own spoken hspoken => hne ?_
          rcases hspoken with ⟨hclient, hown | hown⟩ <;> rw [hinput] at hown <;> cases hown
          exact hclient
  | closed socket =>
      exact hother _ (hslot _ _ ((Steady.refl client).aside rfl rfl rfl)) (by simp [Spoken, hinput])
  | errorOccurred socket text =>
      exact hother _ (hslot _ _ (errorOccurred_steady (.refl client) text))
        (by simp [Spoken, hinput])
  | disconnected socket =>
      exact hother _ (hslot _ _ ((Steady.refl client).lose (fail_loses ..)))
        (by simp [Spoken, hinput])
  | sweep => exact hother _ (sweep_steady client) (by simp [Spoken, hinput])
  | cancelPairing =>
      refine hother _ ?_ (by simp [Spoken, hinput])
      dsimp only [cancelPairing]
      split
      · exact (Steady.refl client).aside rfl rfl rfl
      · exact ⟨le_rfl, .inl rfl⟩
  | stop =>
      exact hother _ ((Steady.refl client).lose (stop_loses client)) (by simp [Spoken, hinput])
  | request host payload =>
      refine hother _ ((Steady.refl client).aside ?_ ?_ ?_) (by simp [Spoken, hinput]) <;>
        (simp only [request]; split <;> rfl)
  | task =>
      refine hother _ ?_ (by simp [Spoken, hinput])
      dsimp only
      cases client.tasks with
      | nil => exact .refl client
      | cons task rest =>
          have hrest : Steady client { client with tasks := rest } :=
            (Steady.refl client).aside rfl rfl rfl
          exact runTask_steady hrest step.world task
  | rehash requests =>
      exact hother _ ((Steady.refl client).aside rfl rfl rfl) (by simp [Spoken, hinput])

/-- **What a turn does to the gate of the client.**  It opens with `paired`, or the turn
has nothing to do with it, as long as the socket stays. -/
theorem next_gate (hsound : Sound client.view) (hclient : client.client = some socket)
    (hafter : (next platform read client step).client = some socket) :
    (∃ message, step.input = .text socket message ∧ messageType message = "paired" ∧
      client.clientPaired = false ∧ (next platform read client step).clientPaired = true ∧
      (next platform read client step).binary = (message.value "binary").isOne) ∨
    ((next platform read client step).clientPaired = client.clientPaired ∧
      (next platform read client step).binary = client.binary ∧
      ∀ message, Spoken client step socket message → messageType message ≠ "paired") := by
  -- A turn that opens a socket does not keep the current one.
  have hold : ∀ {view : View}, (next platform read client step).view = view →
      view.client ≠ some client.sockets := by
    rintro _ rfl hnew
    obtain rfl := Option.some.inj (hafter.symm.trans hnew)
    exact (hsound.numbered _ hclient).false
  have hturn := @next_turn platform read client step hsound
  -- Either the turn leaves the gate alone, or it is that of `paired`.
  rcases next_steady platform read client step with ⟨hsteady, hrefused⟩ |
    ⟨own, message, hspoken, hagrees⟩
  · have htype : ∀ message, Spoken client step socket message → messageType message ≠ "paired" := by
      intro message hspoken htype
      rw [hrefused socket message hspoken htype] at hafter
      cases hafter
    have hbinary : (next platform read client step).binary = client.binary := by
      rcases hsteady.socket with hnone | ⟨-, hsame⟩ | ⟨fresh, hle, hfresh, -⟩
      · rw [hnone] at hafter
        cases hafter
      · exact hsame
      · obtain rfl := Option.some.inj (hafter.symm.trans hfresh)
        exact absurd (hsound.numbered _ hclient) (not_lt.2 hle)
    refine .inr ⟨?_, hbinary, htype⟩
    cases hturn with
    | quiet _ hview => exact congrArg View.clientPaired hview
    | request _ _ _ hview => exact congrArg View.clientPaired hview
    | respond _ _ _ hview => exact congrArg View.clientPaired hview
    | lose hnone => rw [hnone] at hafter; cases hafter
    | scan _ _ hview => exact absurd rfl (hold hview)
    | reopen _ _ _ hview => exact absurd rfl (hold hview)
    | connect _ _ _ _ hview => exact congrArg View.clientPaired hview
    | verify _ _ hview => exact congrArg View.clientPaired hview
    | ready _ _ _ _ hview => exact congrArg View.clientPaired hview
    | @pair own message hown hinput hpaired =>
        obtain rfl := Option.some.inj (hown.symm.trans hclient)
        exact absurd hpaired (htype message ⟨hclient, .inl hinput⟩)
    | close _ _ hview => exact congrArg View.clientPaired hview
    | cancel _ _ hview => exact congrArg View.clientPaired hview
  · obtain ⟨hpaired, -, hbinary⟩ := hagrees
    obtain rfl := Option.some.inj (hspoken.1.symm.trans hclient)
    have hheard : ∀ {other}, step.input = .text own other ∨ step.input = .binary own other →
        other = message := by
      intro other hother
      rcases hother with hother | hother <;> rcases hspoken.2 with hown | hown <;>
        rw [hother] at hown <;> cases hown <;> rfl
    have hloud : ¬ Unheard client step := fun hunheard =>
      hspoken.2.elim (hunheard own message hclient).1 (hunheard own message hclient).2
    refine .inl ⟨message, ?_⟩
    cases hturn with
    | quiet hunheard => exact absurd hunheard hloud
    | request hunheard => exact absurd hunheard hloud
    | @respond other spoken hown hinput htype =>
        obtain rfl := Option.some.inj (hown.symm.trans hclient)
        obtain rfl := hheard hinput
        simp [htype] at hpaired
    | lose hnone => rw [hnone] at hafter; cases hafter
    | scan _ _ hview => exact absurd rfl (hold hview)
    | reopen hunheard => exact absurd hunheard hloud
    | connect hown hinput =>
        rcases hspoken.2 with hother | hother <;> rw [hinput] at hother <;> cases hother
    | verify hhears =>
        obtain rfl := Option.some.inj (hhears.current.symm.trans hclient)
        have htype := hhears.type
        rw [hheard (.inl hhears.input), hpaired] at htype
        simp at htype
    | ready hhears =>
        obtain rfl := Option.some.inj (hhears.current.symm.trans hclient)
        have htype := hhears.type
        rw [hheard (.inl hhears.input), hpaired] at htype
        simp at htype
    | pair hown hinput _ _ hphase _ hview =>
        obtain rfl := Option.some.inj (hown.symm.trans hclient)
        obtain rfl := hheard (.inl hinput)
        exact ⟨hinput, hpaired, (hsound.open hown (.inl hphase)).2,
          congrArg View.clientPaired hview, hbinary⟩
    | close hunheard => exact absurd hunheard hloud
    | cancel hunheard => exact absurd hunheard hloud

/-- The client keeps its socket, or takes a new one. -/
theorem next_socket (hafter : (next platform read client step).client = some socket)
    (hlt : socket < client.sockets) : client.client = some socket := by
  rcases next_steady platform read client step with ⟨hsteady, -⟩ | ⟨_, _, -, hagrees⟩
  · rcases hsteady.socket with hnone | ⟨hsame, -⟩ | ⟨fresh, hle, hfresh, -⟩
    · rw [hnone] at hafter
      cases hafter
    · exact hsame.symm.trans hafter
    · obtain rfl := Option.some.inj (hafter.symm.trans hfresh)
      exact absurd hlt (not_lt.2 hle)
  · exact hagrees.2.1.symm.trans hafter

/-- A socket has no property before the client is paired. -/
theorem run_unpaired {trace : List (LanClient × Step)}
    (run : (machine platform read).Run LanClient.Feasible trace client)
    (hclient : client.client ≠ none) (hunpaired : client.clientPaired = false) :
    client.binary = false := by
  induction run with
  | start hinit =>
      obtain ⟨time, rfl⟩ := hinit
      rfl
  | @step trace client step run hfeasible ih =>
      have hsound := run_sound run
      change (next platform read client step).client ≠ none at hclient
      obtain ⟨socket, hsocket⟩ := Option.ne_none_iff_exists'.1 hclient
      change (next platform read client step).clientPaired = false at hunpaired
      by_cases hold : client.client = some socket
      · rcases next_gate hsound hold hsocket with ⟨_, -, -, -, hpaired, -⟩ | ⟨hpaired, hbinary, -⟩
        · rw [hpaired] at hunpaired
          cases hunpaired
        · exact hbinary.trans (ih (by simp [hold]) (hpaired.symm.trans hunpaired))
      · rcases next_steady platform read client step with ⟨hsteady, -⟩ |
          ⟨own, message, hspoken, hagrees⟩
        · rcases hsteady.socket with hnone | ⟨hsame, -⟩ | ⟨_, -, -, hbinary⟩
          · exact absurd hnone hclient
          · exact absurd (hsame.symm.trans hsocket) hold
          · exact hbinary
        · exact absurd (hagrees.2.1.symm.trans hsocket) hold

theorem Mutes.told (h : Mutes client after) (socket : Socket) : told socket client after = [] := by
  obtain ⟨new, hwrites, hmute⟩ := h
  rw [LanSystem.client_told hwrites, List.reverse_eq_nil_iff, List.filterMap_eq_nil_iff]
  intro event hevent
  have hquiet := hmute event hevent
  cases event with
  | sent => simp [Event.mute] at hquiet
  | _ => rfl

/-- What the client writes in a turn goes to the current socket. -/
theorem told_current (hsound : Sound client.view) {message : JsonObject}
    (hmem : message ∈ told socket client (next platform read client step)) :
    client.client = some socket := by
  -- What the client was seen to send is among the events of the turn.
  have hwritten : ∀ {new : List Event}, Writes client (next platform read client step) new →
      .sent socket message ∈ new := by
    intro new hwrites
    rw [LanSystem.client_told hwrites, List.mem_reverse, List.mem_filterMap] at hmem
    obtain ⟨event, hevent, htold⟩ := hmem
    cases event with
    | sent own sent =>
        simp only [Event.told, Option.ite_none_right_eq_some, Option.some.injEq] at htold
        obtain ⟨rfl, rfl⟩ := htold
        exact hevent
    | _ => simp [Event.told] at htold
  have hsilent : ∀ {P : Prop}, Mutes client (next platform read client step) → P := by
    intro P hmutes
    rw [hmutes.told] at hmem
    cases hmem
  have hturn := @next_turn platform read client step hsound
  cases hturn with
  | quiet _ _ hmutes => exact hsilent hmutes
  | request _ hclient _ _ hwrites =>
      have hsent := hwritten hwrites
      simp only [List.mem_singleton, Event.sent.injEq] at hsent
      rw [hsent.1, hclient]
  | respond _ _ _ _ hmutes => exact hsilent hmutes
  | lose _ _ _ _ hmutes => exact hsilent hmutes
  | scan _ _ _ hmutes => exact hsilent hmutes
  | reopen _ _ _ _ hmutes => exact hsilent hmutes
  | connect hclient _ _ hhanded _ hwrites =>
      rcases List.mem_append.1 (hwritten hwrites) with hsent | hsent
      · rw [(hhanded.sent hsent).1, hclient]
      · simp at hsent
  | verify hhears _ _ hwrites =>
      exact absurd (hwritten hwrites) hhears.written_sent
  | ready hhears _ _ hhanded _ hwrites =>
      rcases List.mem_append.1 (hwritten hwrites) with hsent | hsent
      · rw [(hhanded.sent hsent).1, hhears.current]
      · exact absurd hsent hhears.written_sent
  | pair _ _ _ _ _ _ _ hwrites => simpa using hwritten hwrites
  | close _ _ _ hmutes => exact hsilent hmutes
  | cancel _ _ _ hwrites => simpa using hwritten hwrites

end LanClient

end ServerHost
