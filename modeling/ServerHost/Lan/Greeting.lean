import ServerHost.Lan.Checked

/-!
# What a client said on its connection

The link a client joined with is the one its last `join` read, and what the client
computes and sends on a connection comes from that link and one nonce.  `Greeting` says
so for the current socket; it is kept by every turn until the socket is replaced.
-/

namespace ServerHost

namespace LanClient

variable (platform : Platform) (read : String → LanLink.Query)

/-- The last call of `join`. -/
def joined (trace : List (LanClient × Step)) : Option (String × String × String) :=
  trace.findSome? fun visit => match visit.2.input with
    | .join qr peerId name => some (qr, peerId, name)
    | _ => none

/-- A `pair` message for this link, from this device and with this nonce. -/
structure Presents (link : LanLink) (peerId nonce : String) (message : JsonObject) : Prop where
  host : (message.value "host").toString = link.hostId
  code : (message.value "code").toString = link.code
  peerId : (message.value "peerId").toString = peerId
  nonce : (message.value "nonce").toString = nonce

/-- The connection before and after the client was greeted by it. -/
structure Greeting (platform : Platform) (client : LanClient) (socket : Socket) (link : LanLink) :
    Prop where
  fresh : client.helloSent = false → client.joining = link ∧
    ∀ message, .sent socket message ∈ events client.log → messageType message ≠ "pair"
  joining : client.helloSent = true → client.joining = { link with code := "" }
  authentication : client.helloSent = true → client.authentication =
    link.authenticationContext platform client.clientId client.clientNonce
  verificationCode : client.helloSent = true → client.clientPaired = false →
    client.verificationCode = link.verification platform client.clientId client.clientNonce
  sent : client.helloSent = true → ∀ message, .sent socket message ∈ events client.log →
    messageType message = "pair" → Presents link client.clientId client.clientNonce message
  verified : client.helloSent = true → client.view.configured → client.authenticated = true →
    ∃ proof, .verified socket client.authentication proof ∈ events client.log
  proved : client.clientPaired = true → client.view.configured → client.authenticated = true

/-- What is known of the current socket. -/
structure Greeted (platform : Platform) (read : String → LanLink.Query)
    (trace : List (LanClient × Step)) (client : LanClient) : Prop where
  numbered : ∀ socket message, .sent socket message ∈ events client.log → socket < client.sockets
  current : ∀ socket, client.client = some socket → ∃ qr name link,
    joined trace = some (qr, client.clientId, name) ∧ LanLink.decode platform read qr = some link ∧
      Greeting platform client socket link

variable {platform : Platform} {read : String → LanLink.Query}
variable {trace : List (LanClient × Step)} {client after : LanClient} {step : Step}
variable {socket : Socket} {link : LanLink}

/-! ## The link of the last `join` -/

theorem joined_cons (h : ∀ qr peerId name, step.input ≠ .join qr peerId name)
    (client : LanClient) (trace : List (LanClient × Step)) :
    joined ((client, step) :: trace) = joined trace := by
  unfold joined
  rw [List.findSome?_cons]
  cases hinput : step.input with
  | join qr peerId name => exact absurd hinput (h qr peerId name)
  | _ => rfl

theorem joined_append {later : List (LanClient × Step)}
    (h : ∀ visit ∈ later, ∀ qr peerId name, visit.2.input ≠ .join qr peerId name)
    (trace : List (LanClient × Step)) : joined (later ++ trace) = joined trace := by
  induction later with
  | nil => rfl
  | cons visit later ih =>
      rw [List.cons_append, ← ih fun visit hvisit => h visit (List.mem_cons_of_mem _ hvisit)]
      exact joined_cons (h visit List.mem_cons_self) visit.1 (later ++ trace)

/-! ## The greeting under a turn -/

/-- A turn that keeps what the pairing is about, and sends no `pair`. -/
theorem Greeting.keep (h : Greeting platform client socket link)
    (hjoining : after.joining = client.joining) (hhello : after.helloSent = client.helloSent)
    (hauthentication : after.authentication = client.authentication)
    (hclientId : after.clientId = client.clientId) (hnonce : after.clientNonce = client.clientNonce)
    (hcode : after.clientPaired = false → client.clientPaired = false ∧
      after.verificationCode = client.verificationCode)
    (hsub : List.Sublist (events client.log) (events after.log))
    (hsent : ∀ message, .sent socket message ∈ events after.log →
      messageType message = "pair" → .sent socket message ∈ events client.log)
    (hverified : after.view.configured → after.authenticated = true →
      client.view.configured ∧ client.authenticated = true ∨
        ∃ proof, .verified socket client.authentication proof ∈ events after.log)
    (hproved : after.clientPaired = true → after.view.configured → after.authenticated = true) :
    Greeting platform after socket link where
  fresh hgreeted := by
    rw [hhello] at hgreeted
    obtain ⟨hlink, hnone⟩ := h.fresh hgreeted
    exact ⟨hjoining.trans hlink, fun message hmem htype =>
      hnone message (hsent message hmem htype) htype⟩
  joining hgreeted := hjoining.trans (h.joining (hhello ▸ hgreeted))
  authentication hgreeted := by
    rw [hauthentication, hclientId, hnonce]
    exact h.authentication (hhello ▸ hgreeted)
  verificationCode hgreeted hunpaired := by
    obtain ⟨hold, hsame⟩ := hcode hunpaired
    rw [hsame, hclientId, hnonce]
    exact h.verificationCode (hhello ▸ hgreeted) hold
  sent hgreeted message hmem htype := by
    rw [hclientId, hnonce]
    exact h.sent (hhello ▸ hgreeted) message (hsent message hmem htype) htype
  verified hgreeted hconfigured hdone := by
    rw [hauthentication]
    -- the proof was verified before, or in this very step
    rcases hverified hconfigured hdone with ⟨hold, hold'⟩ | hnew
    · obtain ⟨proof, hmem⟩ := h.verified (hhello ▸ hgreeted) hold hold'
      exact ⟨proof, hsub.subset hmem⟩
    · exact hnew
  proved := hproved

/-- The same, when nothing that the pairing is about changes. -/
theorem Greeting.frame (h : Greeting platform client socket link) (hview : after.view = client.view)
    (hsub : List.Sublist (events client.log) (events after.log))
    (hsent : ∀ message, .sent socket message ∈ events after.log →
      messageType message = "pair" → .sent socket message ∈ events client.log) :
    Greeting platform after socket link := by
  have hauthenticated : after.authenticated = client.authenticated :=
    congrArg View.authenticated hview
  have hpaired : after.clientPaired = client.clientPaired := congrArg View.clientPaired hview
  refine h.keep (congrArg View.joining hview) (congrArg View.helloSent hview)
    (congrArg View.authentication hview) (congrArg View.clientId hview)
    (congrArg View.clientNonce hview)
    (fun hunpaired => ⟨hpaired ▸ hunpaired, congrArg View.verificationCode hview⟩) hsub hsent ?_ ?_
  · rw [hview, hauthenticated]
    exact fun hconfigured hdone => .inl ⟨hconfigured, hdone⟩
  · rw [hview, hauthenticated, hpaired]
    exact h.proved

/-- A connection attempt for a link starts without a word. -/
theorem Greeting.open (hnumbered : ∀ socket message, .sent socket message ∈ events client.log →
      socket < client.sockets) (hhello : after.helloSent = false) (hjoining : after.joining = link)
    (hunpaired : after.clientPaired = false) (hmutes : Mutes client after) :
    Greeting platform after client.sockets link where
  fresh _ := ⟨hjoining, fun message hmem =>
    absurd (hnumbered client.sockets message (hmutes.sent hmem)) (lt_irrefl _)⟩
  joining hgreeted := by simp [hhello] at hgreeted
  authentication hgreeted := by simp [hhello] at hgreeted
  verificationCode hgreeted := by simp [hhello] at hgreeted
  sent hgreeted := by simp [hhello] at hgreeted
  verified hgreeted := by simp [hhello] at hgreeted
  proved hpaired := by simp [hunpaired] at hpaired

theorem pairMessage_presents (proof : JsonObject) (client : LanClient) :
    Presents client.joining client.clientId client.clientNonce (client.pairMessage proof) :=
  ⟨rfl, rfl, rfl, rfl⟩

/-- The host is greeted: the code goes out and is forgotten. -/
theorem Greeting.connect (h : Greeting platform client socket link) (hsound : Sound client.view)
    (hclient : client.client = some socket) (hfresh : client.helloSent = false)
    {proof : JsonObject} {closing : Bool} {handed : List Event}
    (hhanded : Handed client socket ((client.greet platform socket).pairMessage proof) step closing
      handed)
    (hview : after.view = { (client.greet platform socket).view with
      joining := { client.joining with code := "" }, closing := closing })
    (hwrites : Writes client after (handed ++ [.connected socket])) :
    Greeting platform after socket link := by
  obtain ⟨rfl, hnone⟩ := h.fresh hfresh
  have hjoining : after.joining = { client.joining with code := "" } :=
    congrArg View.joining hview
  have hhello : after.helloSent = true := congrArg View.helloSent hview
  have hclientId : after.clientId = client.clientId := congrArg View.clientId hview
  have hnonce : after.clientNonce = (platform.random client.randoms).text :=
    congrArg View.clientNonce hview
  have hpaired : after.clientPaired = client.clientPaired := congrArg View.clientPaired hview
  -- Before it has greeted, the client is connecting, so it is not paired.
  have hunpaired : client.clientPaired = false := by
    rw [← Bool.not_eq_true]
    intro hpaired
    have hphase : client.phase = .connecting :=
      hsound.connecting (by simp [view, hclient]) hfresh
    have hfinal : client.phase = .paired := hsound.paired.1 hpaired
    rw [hphase] at hfinal
    cases hfinal
  refine ⟨by simp [hhello], fun _ => hjoining, fun _ => ?_, fun _ _ => ?_,
    fun _ message hmem htype => ?_, fun _ _ hdone => ?_, by simp [hpaired, hunpaired]⟩
  · rw [hclientId, hnonce]
    exact congrArg View.authentication hview
  · rw [hclientId, hnonce]
    exact congrArg View.verificationCode hview
  · rw [hwrites, List.mem_append, List.mem_append] at hmem
    rw [hclientId, hnonce]
    rcases hmem with (hnew | hnew) | hold
    · obtain ⟨-, rfl, -⟩ := hhanded.sent hnew
      exact pairMessage_presents proof (client.greet platform socket)
    · simp at hnew
    · exact absurd htype (hnone message hold)
  · have hreset : after.authenticated = false := congrArg View.authenticated hview
    rw [hreset] at hdone
    cases hdone

theorem Hears.verified {message : JsonObject} {type : String} {written : List Event}
    (h : Hears client step socket message type written) (hconfigured : client.view.configured) :
    ∃ proof, .verified socket client.authentication proof ∈ written := by
  rw [(h.proved hconfigured).2.2]
  exact ⟨_, List.mem_cons_self⟩

/-- **A turn keeps the greeting**, or the socket goes. -/
theorem Greeting.turn (h : Greeting platform client socket link) (hsound : Sound client.view)
    (hclient : client.client = some socket) (hafter : after.client = some socket)
    (hjoin : ∀ qr peerId name, step.input ≠ .join qr peerId name)
    (hfeasible : client.Feasible step) (hturn : Turn platform read client step after) :
    Greeting platform after socket link := by
  -- A socket that is opened now is not the one that was current.
  have hnew : ∀ {view : View}, after.view = view → view.client ≠ some client.sockets := by
    rintro _ rfl hnew
    obtain rfl := Option.some.inj (hafter.symm.trans hnew)
    exact (hsound.numbered _ hclient).false
  cases hturn with
  | quiet _ hview hmutes =>
      exact h.frame hview hmutes.sublist fun message hmem _ => hmutes.sent hmem
  | @request own message hunheard hown htype hview hwrites =>
      refine h.frame hview hwrites.sublist fun sent hmem hpair => ?_
      rw [hwrites, List.singleton_append, List.mem_cons] at hmem
      refine hmem.resolve_left fun hsent => ?_
      cases hsent
      rw [htype] at hpair
      simp at hpair
  | respond _ _ _ hview hmutes =>
      exact h.frame hview hmutes.sublist fun message hmem _ => hmutes.sent hmem
  | lose hnone =>
      rw [hnone] at hafter
      cases hafter
  | scan hinput => exact absurd hinput (hjoin _ _ _)
  | reopen _ _ _ hview => exact absurd rfl (hnew hview)
  | connect hown hinput _ hhanded hview hwrites =>
      -- The greeting: nonce, context and verification code are those of this connection.
      obtain rfl := Option.some.inj (hown.symm.trans hclient)
      have hfresh : client.helloSent = false := by simpa [Feasible, hinput] using hfeasible
      exact h.connect hsound hclient hfresh hhanded hview hwrites
  | verify hhears hphase hview hwrites =>
      -- `verify` carries the host's proof about the context of the greeting.
      obtain rfl := Option.some.inj (hhears.current.symm.trans hclient)
      have hunpaired : after.clientPaired = client.clientPaired := congrArg View.clientPaired hview
      refine h.keep (congrArg View.joining hview) (congrArg View.helloSent hview)
        (congrArg View.authentication hview) (congrArg View.clientId hview)
        (congrArg View.clientNonce hview)
        (fun hstill => ⟨hunpaired ▸ hstill, congrArg View.verificationCode hview⟩)
        hwrites.sublist (fun sent hmem _ => ?_) (fun hconfigured _ => ?_) fun hpaired => ?_
      · rw [hwrites] at hmem
        exact (List.mem_append.1 hmem).resolve_left hhears.written_sent
      · obtain ⟨proof, hproof⟩ := hhears.verified (by rwa [hview] at hconfigured)
        exact .inr ⟨proof, by rw [hwrites]; exact List.mem_append_left _ hproof⟩
      · rw [hunpaired, (hsound.open hclient (.inl hphase)).2] at hpaired
        cases hpaired
  | ready hhears hphase _ hhanded hview hwrites =>
      -- So does `ready`, and the one thing that is said in turn is `confirm`.
      obtain rfl := Option.some.inj (hhears.current.symm.trans hclient)
      have hunpaired : after.clientPaired = client.clientPaired := congrArg View.clientPaired hview
      refine h.keep (congrArg View.joining hview) (congrArg View.helloSent hview)
        (congrArg View.authentication hview) (congrArg View.clientId hview)
        (congrArg View.clientNonce hview)
        (fun hstill => ⟨hunpaired ▸ hstill, congrArg View.verificationCode hview⟩)
        hwrites.sublist (fun sent hmem hpair => ?_) (fun hconfigured _ => ?_) fun hpaired => ?_
      · rw [hwrites, List.mem_append, List.mem_append] at hmem
        rcases hmem with (hnew | hnew) | hold
        · rw [(hhanded.sent hnew).2.1, confirmMessage_type] at hpair
          simp at hpair
        · exact absurd hnew hhears.written_sent
        · exact hold
      · obtain ⟨proof, hproof⟩ := hhears.verified (by rwa [hview] at hconfigured)
        exact .inr ⟨proof, by
          rw [hwrites]
          exact List.mem_append_left _ (List.mem_append_right _ hproof)⟩
      · rw [hunpaired, (hsound.open hclient hphase).2] at hpaired
        cases hpaired
  | pair hown hinput htype hnamed hphase hproofs hview hwrites =>
      -- Whoever pairs with authentication heard such a proof before.
      have hauthenticated : after.authenticated = client.authenticated :=
        congrArg View.authenticated hview
      have hpaired : after.clientPaired = true := congrArg View.clientPaired hview
      refine h.keep (congrArg View.joining hview) (congrArg View.helloSent hview)
        (congrArg View.authentication hview) (congrArg View.clientId hview)
        (congrArg View.clientNonce hview) (by simp [hpaired]) hwrites.sublist
        (fun sent hmem _ => ?_) (fun hconfigured hdone => ?_) fun _ hconfigured => ?_
      · rw [hwrites] at hmem
        simpa using hmem
      · exact .inl ⟨by rwa [hview] at hconfigured, hauthenticated ▸ hdone⟩
      · exact hauthenticated.trans (hproofs (by rwa [hview] at hconfigured))
  | close _ _ hview hmutes =>
      have hauthenticated : after.authenticated = client.authenticated :=
        congrArg View.authenticated hview
      have hpaired : after.clientPaired = client.clientPaired := congrArg View.clientPaired hview
      refine h.keep (congrArg View.joining hview) (congrArg View.helloSent hview)
        (congrArg View.authentication hview) (congrArg View.clientId hview)
        (congrArg View.clientNonce hview)
        (fun hstill => ⟨hpaired ▸ hstill, congrArg View.verificationCode hview⟩) hmutes.sublist
        (fun sent hmem _ => hmutes.sent hmem) (fun hconfigured hdone => ?_)
        fun hstill hconfigured => ?_
      · exact .inl ⟨by rwa [hview] at hconfigured, hauthenticated ▸ hdone⟩
      · exact hauthenticated.trans (h.proved (hpaired ▸ hstill) (by rwa [hview] at hconfigured))
  | cancel _ hpaired hview hwrites =>
      have hauthenticated : after.authenticated = client.authenticated :=
        congrArg View.authenticated hview
      have hstill : after.clientPaired = true := (congrArg View.clientPaired hview).trans hpaired
      refine h.keep (congrArg View.joining hview) (congrArg View.helloSent hview)
        (congrArg View.authentication hview) (congrArg View.clientId hview)
        (congrArg View.clientNonce hview) (by simp [hstill]) hwrites.sublist
        (fun sent hmem _ => by rwa [hwrites] at hmem) (fun hconfigured hdone => ?_)
        fun _ hconfigured => ?_
      · exact .inl ⟨by rwa [hview] at hconfigured, hauthenticated ▸ hdone⟩
      · exact hauthenticated.trans (h.proved hpaired (by rwa [hview] at hconfigured))

/-! ## The run -/

/-- A message leaves on the current socket only. -/
theorem Turn.sent_on (h : Turn platform read client step after) {message : JsonObject}
    (hmem : .sent socket message ∈ events after.log) :
    .sent socket message ∈ events client.log ∨ client.client = some socket := by
  -- What is handed over leaves on the socket it was written to.
  have hhanded : ∀ {own : Socket} {said : JsonObject} {closing : Bool} {handed : List Event},
      Handed client own said step closing handed → .sent socket message ∈ handed →
      client.client = some own → client.client = some socket := by
    intro own said closing handed hhanded hnew hown
    rw [(hhanded.sent hnew).1]
    exact hown
  cases h with
  | quiet _ _ hmutes => exact .inl (hmutes.sent hmem)
  | request _ hown _ _ hwrites =>
      rw [hwrites, List.singleton_append, List.mem_cons] at hmem
      refine hmem.symm.imp_right fun hnew => ?_
      cases hnew
      exact hown
  | respond _ _ _ _ hmutes => exact .inl (hmutes.sent hmem)
  | lose _ _ _ _ hmutes => exact .inl (hmutes.sent hmem)
  | scan _ _ _ hmutes => exact .inl (hmutes.sent hmem)
  | reopen _ _ _ _ hmutes => exact .inl (hmutes.sent hmem)
  | connect hown _ _ hnew _ hwrites =>
      rw [hwrites, List.mem_append, List.mem_append] at hmem
      rcases hmem with (hmem | hmem) | hold
      · exact .inr (hhanded hnew hmem hown)
      · simp at hmem
      · exact .inl hold
  | verify hhears _ _ hwrites =>
      rw [hwrites] at hmem
      exact .inl ((List.mem_append.1 hmem).resolve_left hhears.written_sent)
  | ready hhears _ _ hnew _ hwrites =>
      rw [hwrites, List.mem_append, List.mem_append] at hmem
      rcases hmem with (hmem | hmem) | hold
      · exact .inr (hhanded hnew hmem hhears.current)
      · exact absurd hmem hhears.written_sent
      · exact .inl hold
  | pair _ _ _ _ _ _ _ hwrites =>
      rw [hwrites] at hmem
      exact .inl (by simpa using hmem)
  | close _ _ _ hmutes => exact .inl (hmutes.sent hmem)
  | cancel _ _ _ hwrites => exact .inl (by rwa [hwrites] at hmem)

/-- Without `join` the scan stays, and only a socket that was not greeted is replaced. -/
theorem Turn.client_cases (h : Turn platform read client step after)
    (hjoin : ∀ qr peerId name, step.input ≠ .join qr peerId name)
    (hafter : after.client = some socket) : after.clientId = client.clientId ∧
      (client.client = some socket ∧ (after.helloSent = false → client.helloSent = false) ∨
        client.client ≠ none ∧ client.helloSent = false ∧ after.view = { client.view with
          client := some client.sockets, sockets := client.sockets + 1, closing := false } ∧
          Mutes client after) := by
  -- Only `reopen` replaces the socket without a `join`.
  have hsame : ∀ {view : View}, after.view = view → view.clientId = client.clientId →
      view.client = client.client → (view.helloSent = false → client.helloSent = false) →
      after.clientId = client.clientId ∧ client.client = some socket ∧
        (after.helloSent = false → client.helloSent = false) := by
    rintro _ rfl hclientId hclient hhello
    exact ⟨hclientId, hclient.symm.trans hafter, hhello⟩
  cases h with
  | quiet _ hview => exact (hsame hview rfl rfl id).imp_right .inl
  | request _ _ _ hview => exact (hsame hview rfl rfl id).imp_right .inl
  | respond _ _ _ hview => exact (hsame hview rfl rfl id).imp_right .inl
  | lose hnone =>
      rw [hnone] at hafter
      cases hafter
  | scan hinput => exact absurd hinput (hjoin _ _ _)
  | reopen _ hclient hhello hview hmutes =>
      exact ⟨congrArg View.clientId hview, .inr ⟨hclient, hhello, hview, hmutes⟩⟩
  | connect _ _ _ _ hview =>
      refine (hsame hview rfl rfl fun hhello => ?_).imp_right .inl
      simp [greet, view, emit] at hhello
  | verify _ _ hview => exact (hsame hview rfl rfl id).imp_right .inl
  | ready _ _ _ _ hview => exact (hsame hview rfl rfl id).imp_right .inl
  | pair _ _ _ _ _ _ hview => exact (hsame hview rfl rfl id).imp_right .inl
  | close _ _ hview => exact (hsame hview rfl rfl id).imp_right .inl
  | cancel _ _ hview => exact (hsame hview rfl rfl id).imp_right .inl

theorem Greeted.next (h : Greeted platform read trace client) (hsound : Sound client.view)
    (hfeasible : client.Feasible step) :
    Greeted platform read ((client, step) :: trace)
      (LanClient.next platform read client step) := by
  have hturn := @next_turn platform read client step hsound
  refine ⟨fun socket message hmem => ?_, fun socket hafter => ?_⟩
  · refine lt_of_lt_of_le ?_ hturn.sockets_le
    rcases hturn.sent_on hmem with hold | hcurrent
    · exact h.numbered socket message hold
    · exact hsound.numbered socket hcurrent
  by_cases hjoin : ∃ qr peerId name, step.input = .join qr peerId name
  · -- A new link: the connection attempt is the first of this scan.
    obtain ⟨qr, peerId, name, hinput⟩ := hjoin
    have hnext : LanClient.next platform read client step =
        client.join platform read qr peerId name := by simp [LanClient.next, hinput]
    rw [hnext] at hafter ⊢
    rcases @join_spec platform read qr peerId name client with
      hlost | ⟨link, hdecode, hview, hmutes⟩
    · rw [hlost.none] at hafter
      cases hafter
    · obtain rfl := Option.some.inj (hafter.symm.trans (congrArg View.client hview))
      have hclientId : (client.join platform read qr peerId name).clientId = peerId :=
        congrArg View.clientId hview
      refine ⟨qr, name, link, ?_, hdecode, .open h.numbered (congrArg View.helloSent hview)
        (congrArg View.joining hview) (congrArg View.clientPaired hview) hmutes⟩
      simp [joined, hinput, hclientId]
  · simp only [not_exists] at hjoin
    obtain ⟨hclientId, hcases⟩ := hturn.client_cases hjoin hafter
    have hscan : ∀ {qr name : String},
        joined trace = some (qr, client.clientId, name) →
        joined ((client, step) :: trace) =
          some (qr, (LanClient.next platform read client step).clientId, name) := by
      intro qr name hold
      rw [joined_cons hjoin, hclientId, hold]
    rcases hcases with ⟨hclient, -⟩ | ⟨hopen, hfresh, hview, hmutes⟩
    · obtain ⟨qr, name, link, hlast, hdecode, hgreeting⟩ := h.current socket hclient
      exact ⟨qr, name, link, hscan hlast, hdecode,
        hgreeting.turn hsound hclient hafter hjoin hfeasible hturn⟩
    -- The attempt moves to the next address of the same link.
    · obtain ⟨own, hown⟩ := Option.ne_none_iff_exists'.1 hopen
      obtain ⟨qr, name, link, hlast, hdecode, hgreeting⟩ := h.current own hown
      obtain rfl := Option.some.inj (hafter.symm.trans (congrArg View.client hview))
      have hunpaired : client.clientPaired = false := by
        rw [← Bool.not_eq_true]
        intro hpaired
        have hphase := hsound.connecting hopen hfresh
        rw [hsound.paired.1 hpaired] at hphase
        cases hphase
      exact ⟨qr, name, link, hscan hlast, hdecode,
        .open h.numbered ((congrArg View.helloSent hview).trans hfresh)
          ((congrArg View.joining hview).trans (hgreeting.fresh hfresh).1)
          ((congrArg View.clientPaired hview).trans hunpaired) hmutes⟩

/-- **In every run the client speaks of the link it scanned last.** -/
theorem run_greeted (run : (machine platform read).Run Feasible trace client) :
    Greeted platform read trace client := by
  induction run with
  | start hinit =>
      obtain ⟨time, rfl⟩ := hinit
      exact ⟨by simp [events], by simp⟩
  | step run hfeasible ih => exact ih.next (run_sound run) hfeasible

end LanClient

end ServerHost
