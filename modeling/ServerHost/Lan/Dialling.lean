import ServerHost.Lan.Greeting

/-!
# One scan, one disclosure

What a client does with the addresses of one link.  `Still` and `Opens` say what a turn
without `join` does to the list: nothing, or the next address is dialled because the
socket before it was never greeted.  With `Turn`, which says when a `pair` message
leaves, it follows for everything since the scan that the addresses are dialled in
order, that the code leaves once, to the certificate of the link, and that nothing is
dialled after that.
-/

namespace ServerHost

namespace LanClient

/-- The address and port an event dials. -/
def Event.address : Event → Option (String × ℕ)
  | .opened _ address port => some (address, port)
  | _ => none

/-- The addresses that were dialled, in order. -/
def dialled (since : List Event) : List (String × ℕ) := (since.filterMap Event.address).reverse

/-- The code of a link leaves with the message that asks for a pairing. -/
def Event.discloses : Event → Bool
  | .sent _ message => messageType message = "pair"
  | _ => false

/-- What happened since a link was scanned, newest first. -/
structure Disclosed (link : LanLink) (later : List (LanClient × Step)) (since : List Event) :
    Prop where
  /-- The addresses are dialled in order, each of them at most once. -/
  ordered : dialled since <+: link.addresses.map fun address => (address, link.port)
  once : (since.filter Event.discloses).length ≤ 1
  /-- Nothing is dialled after the code has left. -/
  last : ∀ newer event older, since = newer ++ event :: older → event.discloses = true →
    dialled newer = []
  /-- The code leaves to the certificate of the link. -/
  pinned : ∀ socket message, .sent socket message ∈ since → messageType message = "pair" →
    ∃ visit ∈ later, visit.1.client = some socket ∧
      visit.2.input = .connected socket link.fingerprint

/-- The addresses the client dialled are those before its index, while the code is kept. -/
structure Dials (link : LanLink) (later : List (LanClient × Step)) (since : List Event)
    (client : LanClient) : Prop extends Disclosed link later since where
  fresh : client.client ≠ none → client.helloSent = false →
    dialled since =
        (link.addresses.take client.addressIndex).map (fun address => (address, link.port)) ∧
      since.filter Event.discloses = []

variable {platform : Platform} {read : String → LanLink.Query}
variable {later earlier : List (LanClient × Step)} {start client first after : LanClient}
variable {step : Step} {world : World} {link : LanLink} {since new : List Event}

/-! ## The list of addresses -/

theorem dialled_append (newer older : List Event) :
    dialled (newer ++ older) = dialled older ++ dialled newer := by
  simp [dialled, List.filterMap_append, List.reverse_append]

/-- Nothing is dialled. -/
structure Still (client after : LanClient) : Prop where
  addressIndex : after.addressIndex = client.addressIndex
  log : ∃ new, Writes client after new ∧ dialled new = []

/-- The next address is dialled. -/
structure Opens (client after : LanClient) : Prop where
  addressIndex : after.addressIndex = client.addressIndex + 1
  log : ∃ new address, Writes client after new ∧
    client.joining.addresses[client.addressIndex]? = some address ∧
    dialled new = [(address, client.joining.port)]

/-- The next address is dialled after a socket that was not greeted. -/
structure Reopens (client after : LanClient) : Prop extends Opens client after where
  current : client.client ≠ none
  hello : client.helloSent = false

theorem Still.of_log (hindex : after.addressIndex = client.addressIndex)
    (hlog : after.log = client.log) : Still client after :=
  ⟨hindex, [], by rw [Writes, hlog]; rfl, rfl⟩

theorem Still.trans (h : Still client first) (h' : Still first after) : Still client after := by
  obtain ⟨new, hnew, hnone⟩ := h.log
  obtain ⟨new', hnew', hnone'⟩ := h'.log
  refine ⟨h'.addressIndex.trans h.addressIndex, new' ++ new, ?_, ?_⟩
  · rw [Writes, hnew', hnew, List.append_assoc]
  · rw [dialled_append, hnone, hnone']
    rfl

theorem Reopens.trans (h : Reopens client first) (h' : Still first after) :
    Reopens client after := by
  obtain ⟨new, address, hnew, haddress, hdialled⟩ := h.log
  obtain ⟨new', hnew', hnone⟩ := h'.log
  refine ⟨⟨h'.addressIndex.trans h.addressIndex, new' ++ new, address, ?_, haddress, ?_⟩,
    h.current, h.hello⟩
  · rw [Writes, hnew', hnew, List.append_assoc]
  · rw [dialled_append, hdialled, hnone]
    rfl

theorem Reopens.head (h : Still client first) (hclient : first.client = client.client)
    (hhello : first.helloSent = client.helloSent) (hjoining : first.joining = client.joining)
    (h' : Reopens first after) : Reopens client after := by
  obtain ⟨new, hnew, hnone⟩ := h.log
  obtain ⟨new', address, hnew', haddress, hdialled⟩ := h'.log
  rw [hjoining, h.addressIndex] at haddress
  rw [hjoining] at hdialled
  refine ⟨⟨?_, new' ++ new, address, ?_, haddress, ?_⟩, hclient ▸ h'.current, hhello ▸ h'.hello⟩
  · rw [h'.addressIndex, h.addressIndex]
  · rw [Writes, hnew', hnew, List.append_assoc]
  · rw [dialled_append, hnone, hdialled]
    rfl

theorem emit_still {event : Event} (h : event.address = none) (client : LanClient) :
    Still client (client.emit event) :=
  ⟨rfl, [event], rfl, by simp [dialled, h]⟩

theorem Still.foldl {α : Type*} {f : LanClient → α → LanClient}
    (h : ∀ client a, Still client (f client a)) (list : List α) (client : LanClient) :
    Still client (list.foldl f client) :=
  list.foldlRecOn f (motive := fun after => Still client after) (.of_log rfl rfl)
    fun state hstate a _ => hstate.trans (h state a)

theorem complete_still (code : String) (client : LanClient) :
    Still client (client.complete code) := by
  have hcleared : Still client { client with requests := ∅ } := .of_log rfl rfl
  exact hcleared.trans (.foldl (fun state id => emit_still rfl state) _ _)

theorem fail_still (message : String) (client : LanClient) :
    Still client (client.fail message) := by
  have hlost : Still client { client with
      error := message
      phase := .error
      joining := { client.joining with code := "" }
      clientPaired := false
      client := none } := .of_log rfl rfl
  exact hlost.trans (complete_still ..)

theorem stop_still (client : LanClient) : Still client client.stop := by
  have hstopped : Still client { client with
      client := none
      clientPaired := false
      joining := {}
      error := ""
      peerName := ""
      verificationCode := ""
      clientNonce := ""
      phase := .idle
      connectionError := "" } := .of_log rfl rfl
  exact hstopped.trans (complete_still ..)

/-- An address is dialled, or there is none that could be. -/
theorem openAddress_dials (client : LanClient) :
    Still client client.openAddress ∧ client.openAddress.client = none ∨
      Opens client client.openAddress := by
  unfold openAddress
  cases haddress : client.joining.addresses[client.addressIndex]? with
  | none =>
      have hnone : Still client { client with client := none } := .of_log rfl rfl
      exact .inl ⟨hnone.trans (fail_still ..), (fail_loses ..).none⟩
  | some address =>
      dsimp only
      split
      · have hnew : Still client
            { client with client := some client.sockets, sockets := client.sockets + 1 } :=
          .of_log rfl rfl
        exact .inl ⟨hnew.trans (fail_still ..), (fail_loses ..).none⟩
      · exact .inr ⟨rfl, [.opened client.sockets address client.joining.port], address, rfl,
          haddress, rfl⟩

theorem openAddress_redials (hclient : client.client ≠ none) (hhello : client.helloSent = false) :
    Still client client.openAddress ∨ Reopens client client.openAddress :=
  (openAddress_dials client).imp And.left fun hopens => ⟨hopens, hclient, hhello⟩

theorem errorOccurred_dials (text : String) (hclient : client.client ≠ none) :
    Still client (client.errorOccurred text) ∨ Reopens client (client.errorOccurred text) := by
  have hnoted : Still client { client with connectionError := text } := .of_log rfl rfl
  unfold errorOccurred
  dsimp only
  by_cases hhello : client.helloSent = true
  · rw [if_neg (by simpa using hhello)]
    exact .inl (hnoted.trans (fail_still ..))
  · rw [if_pos hhello]
    have hfresh : client.helloSent = false := by simpa using hhello
    have hopen := @openAddress_redials { client with connectionError := text } hclient hfresh
    exact hopen.imp hnoted.trans (Reopens.head hnoted rfl rfl rfl)

theorem send_dials (world : World) (message : JsonObject) (client : LanClient) :
    Still client (client.send world message).1 ∨ Reopens client (client.send world message).1 := by
  unfold send
  cases hclient : client.client with
  | none => exact .inl (.of_log rfl rfl)
  | some socket =>
      dsimp only
      split
      · exact .inl (.of_log rfl rfl)
      cases world.delivery message with
      | left => exact .inl (emit_still rfl client)
      | full => exact .inl ⟨rfl, [.closed socket], rfl, rfl⟩
      | broke text => exact errorOccurred_dials text (by simp [hclient])

/-! ## Handlers -/

theorem connected_still (socket : Socket) (fingerprint : String) (client : LanClient) :
    Still client (client.connected platform world socket fingerprint) := by
  unfold connected
  split
  · exact fail_still ..
  have hgreet : Still client (client.greet platform socket) := ⟨rfl, [_], rfl, rfl⟩
  dsimp only
  split
  · exact hgreet.trans (fail_still ..)
  · -- The socket is greeted, so a failure of it is final.
    generalize hmid : client.greet platform socket = mid
    have hhello : mid.helloSent = true := by rw [← hmid]; rfl
    rw [hmid] at hgreet
    have hsend := send_dials world (mid.pairMessage (mid.proof world)) mid
    have hkept : ∀ client : LanClient, Still client
        { client with joining := { client.joining with code := "" } } :=
      fun client => .of_log rfl rfl
    rcases hsend with hstill | hopens
    · exact (hgreet.trans hstill).trans (hkept _)
    · rw [hopens.hello] at hhello
      cases hhello

theorem answerMessage_dials (socket : Socket) (message : JsonObject) (client : LanClient) :
    Still client (client.answerMessage world socket message) ∨
      Reopens client (client.answerMessage world socket message) := by
  unfold answerMessage
  dsimp only
  split
  · exact .inl (.of_log rfl rfl)
  split
  · have hphase : Still client { client with phase := .verifying } := .of_log rfl rfl
    unfold readyMessage
    dsimp only
    split
    · exact .inl (hphase.trans (fail_still ..))
    · exact (send_dials ..).imp hphase.trans (Reopens.head hphase rfl rfl rfl)
  split
  · unfold pairedMessage
    split
    · exact .inl (fail_still ..)
    · exact .inl ⟨rfl, [_], rfl, rfl⟩
  split
  · unfold responseMessage
    dsimp only
    split
    · exact .inl (.of_log rfl rfl)
    · exact .inl ⟨rfl, [_], rfl, rfl⟩
  · exact .inl (fail_still ..)

theorem clientMessage_dials (socket : Socket) (message : JsonObject) (client : LanClient) :
    Still client (client.clientMessage world socket message) ∨
      Reopens client (client.clientMessage world socket message) := by
  have hreceived : Still client (client.emit (.received socket message)) := emit_still rfl client
  unfold clientMessage
  dsimp only
  split
  · exact .inl (hreceived.trans (fail_still ..))
  split
  · split
    · exact .inl (hreceived.trans (fail_still ..))
    · have hverified : Still client
          (({ client.emit (.received socket message) with authenticated := true } : LanClient).emit
            (.verified socket (client.emit (.received socket message)).authentication
              (message.value "proof").toObject)) := ⟨rfl, [_, _], rfl, rfl⟩
      exact (answerMessage_dials ..).imp hverified.trans (Reopens.head hverified rfl rfl rfl)
  · exact (answerMessage_dials ..).imp hreceived.trans (Reopens.head hreceived rfl rfl rfl)

theorem sweepRequest_still (now : ℤ) (client : LanClient) (id : String) :
    Still client (sweepRequest now plain client id) := by
  unfold sweepRequest
  split
  · exact ⟨rfl, [_], rfl, rfl⟩
  · exact .of_log rfl rfl

theorem sweep_dials (client : LanClient) :
    Still client client.sweep ∨ Reopens client client.sweep := by
  unfold sweep
  dsimp only
  split
  · next hopen =>
    split
    · exact .inl ((fail_still ..).trans (.foldl (sweepRequest_still _) _ _))
    split
    · next hlate =>
      rcases openAddress_redials (Option.isSome_iff_ne_none.1 hopen.1) (by simpa using hlate.1) with
        hstill | hopens
      · exact .inl (hstill.trans (.foldl (sweepRequest_still _) _ _))
      · exact .inr (hopens.trans (.foldl (sweepRequest_still _) _ _))
    · exact .inl (.foldl (sweepRequest_still _) _ _)
  · exact .inl (.foldl (sweepRequest_still _) _ _)

theorem runTask_dials (task : Task) (rest : List Task) (client : LanClient) :
    Still client (({ client with tasks := rest } : LanClient).runTask world task) ∨
      Reopens client (({ client with tasks := rest } : LanClient).runTask world task) := by
  have htaken : Still client { client with tasks := rest } := .of_log rfl rfl
  cases task with
  | refuse id => exact .inl (htaken.trans (emit_still rfl _))
  | send id payload =>
      unfold runTask
      dsimp only
      split
      · exact .inl htaken
      split
      · exact (send_dials ..).imp htaken.trans (Reopens.head htaken rfl rfl rfl)
      · rcases send_dials world (.ofList [("type", .string "request"),
            ("id", .string id), ("payload", payload.json)])
          ({ client with tasks := rest } : LanClient) with hstill | hopens
        · exact .inl (htaken.trans (hstill.trans (fail_still ..)))
        · exact .inr (Reopens.head htaken rfl rfl rfl (hopens.trans (fail_still ..)))

/-- **A turn without `join` dials nothing, or the next address.** -/
theorem next_dials (hjoin : ∀ qr peerId name, step.input ≠ .join qr peerId name) :
    Still client (next platform read client step) ∨
      Reopens client (next platform read client step) := by
  -- a signal of an abandoned socket changes nothing
  have hon : ∀ {socket : Socket} {slot : LanClient → LanClient},
      (client.client = some socket → Still client (slot client) ∨ Reopens client (slot client)) →
      Still client (client.onSocket socket slot) ∨
        Reopens client (client.onSocket socket slot) := by
    intro socket slot hslot
    unfold onSocket
    split
    · next hclient => exact hslot hclient
    · exact .inl (.of_log rfl rfl)
  unfold next
  cases hinput : step.input with
  | clock time => exact .inl (.of_log rfl rfl)
  | join qr peerId name => exact absurd hinput (hjoin qr peerId name)
  | setPairingAuthentication signer verifier =>
      exact .inl ((stop_still client).trans (.of_log rfl rfl))
  | connected socket fingerprint => exact hon fun _ => .inl (connected_still ..)
  | text socket message => exact hon fun _ => clientMessage_dials ..
  | binary socket message =>
      refine hon fun _ => ?_
      unfold binaryMessage
      split
      · exact .inl (fail_still ..)
      · exact clientMessage_dials ..
  | closed socket => exact hon fun _ => .inl (.of_log rfl rfl)
  | errorOccurred socket text =>
      exact hon fun hclient => errorOccurred_dials text (by simp [hclient])
  | disconnected socket => exact hon fun _ => .inl (fail_still ..)
  | sweep => exact sweep_dials client
  | cancelPairing => exact .inl (.of_log rfl rfl)
  | stop => exact .inl (stop_still client)
  | request host payload =>
      refine .inl ?_
      dsimp only
      unfold request
      dsimp only
      split <;> exact .of_log rfl rfl
  | task =>
      dsimp only
      cases client.tasks with
      | nil => exact .inl (.of_log rfl rfl)
      | cons task rest => exact runTask_dials task rest client
  | rehash requests => exact .inl (.of_log rfl rfl)

/-! ## The run after a scan -/

/-- When the code leaves, and what else is written then. -/
theorem Turn.discloses (h : Turn platform read client step after) :
    (∃ new, Writes client after new ∧ new.filter Event.discloses = []) ∨
      ∃ socket message, client.client = some socket ∧
        step.input = .connected socket client.joining.fingerprint ∧ after.helloSent = true ∧
        Writes client after [.sent socket message, .connected socket] := by
  have hmute : Mutes client after → ∃ new, Writes client after new ∧
      new.filter Event.discloses = [] := by
    rintro ⟨new, hwrites, hmute⟩
    refine ⟨new, hwrites, List.filter_eq_nil_iff.2 fun event hevent => ?_⟩
    cases event with
    | sent socket message => exact absurd (hmute _ hevent) (by simp [Event.mute])
    | _ => simp [Event.discloses]
  -- an answer of the host makes the client send nothing that discloses
  have hheard : ∀ {socket : Socket} {message : JsonObject} {type : String} {written : List Event},
      Hears client step socket message type written → written.filter Event.discloses = [] := by
    intro socket message type written hhears
    refine List.filter_eq_nil_iff.2 fun event hevent => ?_
    cases event with
    | sent own sent => exact absurd hevent hhears.written_sent
    | _ => simp [Event.discloses]
  cases h with
  | quiet _ _ hmutes => exact .inl (hmute hmutes)
  | @request socket message _ _ htype _ hwrites =>
      exact .inl ⟨_, hwrites, by simp [Event.discloses, htype]⟩
  | respond _ _ _ _ hmutes => exact .inl (hmute hmutes)
  | lose _ _ _ _ hmutes => exact .inl (hmute hmutes)
  | scan _ _ _ hmutes => exact .inl (hmute hmutes)
  | reopen _ _ _ _ hmutes => exact .inl (hmute hmutes)
  | connect hown hinput _ hhanded hview hwrites =>
      cases hhanded with
      | left =>
          exact .inr ⟨_, _, hown, hinput, congrArg View.helloSent hview, hwrites⟩
      | full => exact .inl ⟨_, hwrites, by simp [Event.discloses]⟩
      | dropped => exact .inl ⟨_, hwrites, by simp [Event.discloses]⟩
  | verify hhears _ _ hwrites => exact .inl ⟨_, hwrites, hheard hhears⟩
  | ready hhears _ _ hhanded _ hwrites =>
      refine .inl ⟨_, hwrites, ?_⟩
      rw [List.filter_append, hheard hhears, List.append_nil]
      cases hhanded with
      | left => simp [Event.discloses, confirmMessage_type]
      | full => simp [Event.discloses]
      | dropped => simp
  | pair _ _ _ _ _ _ _ hwrites => exact .inl ⟨_, hwrites, by simp [Event.discloses]⟩
  | close _ _ _ hmutes => exact .inl (hmute hmutes)
  | cancel _ _ _ hwrites => exact .inl ⟨_, hwrites, rfl⟩

theorem Writes.unique {new' : List Event} (h : Writes client after new)
    (h' : Writes client after new') : new = new' :=
  List.append_cancel_right (h.symm.trans h')

theorem Writes.trans {new' : List Event} (h : Writes client first new)
    (h' : Writes first after new') : Writes client after (new' ++ new) := by
  rw [Writes, h', h, List.append_assoc]

/-- A turn that does not disclose the code keeps what is known, and dials in order. -/
theorem Disclosed.keep {visit : LanClient × Step} (h : Disclosed link later since)
    (hnone : new.filter Event.discloses = [])
    (hordered : dialled (new ++ since) <+: link.addresses.map fun address => (address, link.port))
    (hlast : since.filter Event.discloses ≠ [] → dialled new = []) :
    Disclosed link (visit :: later) (new ++ since) where
  ordered := hordered
  once := by
    rw [List.filter_append, hnone]
    exact h.once
  last newer event older hsplit hdiscloses := by
    -- a disclosing event lies in what was written before: the new events hold none
    rcases List.append_eq_append_iff.1 hsplit with ⟨rest, rfl, hrest⟩ | ⟨rest, hnew, hrest⟩
    · have hfilter : since.filter Event.discloses ≠ [] := by
        rw [hrest]
        simp [hdiscloses]
      rw [dialled_append, hlast hfilter, h.last rest event older hrest hdiscloses]
      rfl
    · cases rest with
      | nil =>
          rw [List.append_nil] at hnew
          rw [List.nil_append] at hrest
          have hfilter : since.filter Event.discloses ≠ [] := by
            rw [← hrest]
            simp [hdiscloses]
          exact hnew ▸ hlast hfilter
      | cons first rest =>
          obtain ⟨rfl, -⟩ := List.cons.inj hrest
          have hmem : event ∈ new := by simp [hnew]
          exact absurd hdiscloses (List.filter_eq_nil_iff.1 hnone event hmem)
  pinned socket message hmem htype := by
    rcases List.mem_append.1 hmem with hnew | hold
    · exact absurd (by simpa [Event.discloses] using htype)
        (List.filter_eq_nil_iff.1 hnone _ hnew)
    · obtain ⟨visit, hvisit, hpinned⟩ := h.pinned socket message hold htype
      exact ⟨visit, List.mem_cons_of_mem _ hvisit, hpinned⟩

/-- The code leaves when nothing was disclosed yet. -/
theorem Disclosed.disclose {visit : LanClient × Step} {socket : Socket} (message : JsonObject)
    (h : Disclosed link later since) (hnone : since.filter Event.discloses = [])
    (hclient : visit.1.client = some socket)
    (hinput : visit.2.input = .connected socket link.fingerprint) :
    Disclosed link (visit :: later) ([.sent socket message, .connected socket] ++ since) where
  ordered := by
    have hnothing : dialled [.sent socket message, .connected socket] = [] := rfl
    rw [dialled_append, hnothing, List.append_nil]
    exact h.ordered
  once := by
    rw [List.filter_append, hnone, List.append_nil, List.filter_cons]
    split <;> simp [Event.discloses]
  last newer event older hsplit hdiscloses := by
    cases newer with
    | nil => rfl
    | cons first rest =>
        have hrest : Event.connected socket :: since = rest ++ event :: older :=
          (List.cons.inj hsplit).2
        have hmem : event ∈ Event.connected socket :: since := by simp [hrest]
        rcases List.mem_cons.1 hmem with rfl | hold
        · cases hdiscloses
        · exact absurd hdiscloses (List.filter_eq_nil_iff.1 hnone event hold)
  pinned own sent hmem htype := by
    simp only [List.cons_append, List.nil_append, List.mem_cons, Event.sent.injEq, reduceCtorEq,
      false_or] at hmem
    rcases hmem with ⟨rfl, -⟩ | hold
    · exact ⟨visit, List.mem_cons_self, hclient, hinput⟩
    · exact absurd (by simpa [Event.discloses] using htype)
        (List.filter_eq_nil_iff.1 hnone _ hold)

theorem Dials.next (h : Dials link later since client) (hsound : Sound client.view)
    (hlink : client.client ≠ none → client.helloSent = false → client.joining = link)
    (hfeasible : client.Feasible step)
    (hjoin : ∀ qr peerId name, step.input ≠ .join qr peerId name) :
    ∃ new, Writes client (LanClient.next platform read client step) new ∧
      Dials link ((client, step) :: later) (new ++ since)
        (LanClient.next platform read client step) := by
  have hturn := @next_turn platform read client step hsound
  -- Before the socket is greeted it was neither greeted nor replaced.
  have hfresh : (LanClient.next platform read client step).client ≠ none →
      (LanClient.next platform read client step).helloSent = false →
      client.client ≠ none ∧ client.helloSent = false := by
    intro hopen hhello
    obtain ⟨socket, hafter⟩ := Option.ne_none_iff_exists'.1 hopen
    rcases (hturn.client_cases hjoin hafter).2 with ⟨hclient, hgreeted⟩ | ⟨hclient, hold, -⟩
    · exact ⟨by simp [hclient], hgreeted hhello⟩
    · exact ⟨hclient, hold⟩
  rcases @next_dials platform read client step hjoin with hstill | hopens
  · obtain ⟨new, hwrites, hdialled⟩ := hstill.log
    refine ⟨new, hwrites, ?_⟩
    have hsame : dialled (new ++ since) = dialled since := by
      rw [dialled_append, hdialled, List.append_nil]
    rcases hturn.discloses with ⟨new', hwrites', hnone⟩ | ⟨socket, message, hclient, hinput, hhello,
      hwrites'⟩
    · obtain rfl := hwrites.unique hwrites'
      refine ⟨h.toDisclosed.keep hnone (hsame ▸ h.ordered) fun _ => hdialled,
        fun hopen hhello => ?_⟩
      obtain ⟨hclient, hold⟩ := hfresh hopen hhello
      rw [hsame, hstill.addressIndex, List.filter_append, hnone]
      exact h.fresh hclient hold
    · -- The socket is greeted now: the code leaves, for the first time.
      obtain rfl := hwrites.unique hwrites'
      have hold : client.helloSent = false := by simpa [Feasible, hinput] using hfeasible
      have hopen : client.client ≠ none := by simp [hclient]
      refine ⟨h.toDisclosed.disclose message (h.fresh hopen hold).2 hclient ?_,
        fun _ hagain => by simp [hhello] at hagain⟩
      rw [hinput, hlink hopen hold]
  · obtain ⟨new, address, hwrites, haddress, hdialled⟩ := hopens.log
    refine ⟨new, hwrites, ?_⟩
    obtain ⟨hordered, hnothing⟩ := h.fresh hopens.current hopens.hello
    obtain rfl := hlink hopens.current hopens.hello
    have hnow : dialled (new ++ since) = (client.joining.addresses.take
        (LanClient.next platform read client step).addressIndex).map
          fun address => (address, client.joining.port) := by
      rw [dialled_append, hordered, hdialled, hopens.addressIndex, List.take_add_one, haddress]
      simp
    have hquiet : new.filter Event.discloses = [] := by
      rcases hturn.discloses with ⟨new', hwrites', hnone⟩ | ⟨socket, message, -, -, -, hwrites'⟩
      · rw [hwrites.unique hwrites', hnone]
      · rw [hwrites.unique hwrites'] at hdialled
        cases hdialled
    refine ⟨h.toDisclosed.keep hquiet ?_ fun hsome => absurd hnothing hsome, fun _ _ => ?_⟩
    · rw [hnow]
      exact (List.take_prefix _ _).map _
    · rw [hnow, List.filter_append, hquiet, hnothing]
      exact ⟨rfl, rfl⟩

/-- The scan itself dials the first address, or gives up. -/
theorem join_dials {qr peerId name : String} (hdecode : LanLink.decode platform read qr = some link)
    (later : List (LanClient × Step)) (client : LanClient) :
    ∃ new, Writes client (client.join platform read qr peerId name) new ∧
      Dials link later new (client.join platform read qr peerId name) := by
  -- What is written is silent, so only the addresses are open.
  obtain ⟨new, hwrites, hmute⟩ : Mutes client (client.join platform read qr peerId name) := by
    rcases @join_spec platform read qr peerId name client with hlost | ⟨-, -, -, hmutes⟩
    · exact hlost.mutes
    · exact hmutes
  have hnone : new.filter Event.discloses = [] := by
    refine List.filter_eq_nil_iff.2 fun event hevent => ?_
    cases event with
    | sent socket message => exact absurd (hmute _ hevent) (by simp [Event.mute])
    | _ => simp [Event.discloses]
  have hclose : dialled new <+: link.addresses.map (fun address => (address, link.port)) →
      Disclosed link later new := by
    intro hordered
    refine ⟨hordered, by simp [hnone], fun newer event older hsplit hdiscloses => ?_,
      fun socket message hmem => absurd (hmute _ hmem) (by simp [Event.mute])⟩
    exact absurd hdiscloses (List.filter_eq_nil_iff.1 hnone event (by simp [hsplit]))
  refine ⟨new, hwrites, ?_⟩
  have hlost : ∀ {after : LanClient}, client.join platform read qr peerId name = after →
      (∃ new', Writes client after new' ∧ dialled new' = []) → after.client = none →
      Dials link later new (client.join platform read qr peerId name) := by
    rintro after hafter ⟨new', hwrites', hnothing⟩ hgone
    obtain rfl := hwrites.unique (hafter ▸ hwrites')
    refine ⟨hclose (by simp [hnothing]), fun hopen => ?_⟩
    rw [hafter] at hopen
    exact absurd hgone hopen
  have hstop := stop_still client
  by_cases hrefused : link.expiresAt ≤ client.stop.now ∨ ¬ identifier peerId ∨ name = "" ∨
      size name > 128
  · refine hlost ?_ (hstop.trans (fail_still
      "This is not a valid, current local Society QR code." _)).log (fail_loses ..).none
    simp only [join, hdecode, if_pos hrefused]
  · generalize hbase : ({ client.stop with
      joining := link
      clientId := peerId
      clientName := name
      phase := .connecting
      deadline := DateTime.addSecs client.stop.now 15
      addressIndex := 0 } : LanClient) = base
    have hjoin : client.join platform read qr peerId name = base.openAddress := by
      simp only [join, hdecode, if_neg hrefused, hbase]
    obtain ⟨quiet, hquiet, hnothing⟩ := hstop.log
    have hstart : Writes client base quiet := by rw [← hbase]; exact hquiet
    rcases openAddress_dials base with ⟨hstill, hgone⟩ | hopens
    · obtain ⟨new', hwrites', hnothing'⟩ := hstill.log
      refine hlost hjoin ⟨_, hstart.trans hwrites', ?_⟩ hgone
      rw [dialled_append, hnothing, hnothing']
      rfl
    · obtain ⟨new', address, hwrites', haddress, hdialled⟩ := hopens.log
      obtain rfl := hwrites.unique (hjoin ▸ hstart.trans hwrites')
      have hindex := hopens.addressIndex
      subst hbase
      have hnow : dialled (new' ++ quiet) =
          (link.addresses.take 1).map fun address => (address, link.port) := by
        rw [dialled_append, hnothing, hdialled, List.take_add_one]
        simp only [List.take_zero, List.nil_append, haddress, Option.toList_some, List.map_cons,
          List.map_nil]
      refine ⟨hclose (hnow ▸ (List.take_prefix _ _).map _), fun _ _ => ⟨?_, hnone⟩⟩
      rw [hnow, hjoin, hindex]

/-- **Since a link was scanned its code left at most once, to the certificate of the link,
and no address was dialled twice, out of order or after that.** -/
theorem run_disclosed {qr peerId name : String}
    (hdecode : LanLink.decode platform read qr = some link)
    (hscan : step.input = .join qr peerId name)
    (hlater : ∀ visit ∈ later, ∀ qr peerId name, visit.2.input ≠ .join qr peerId name)
    (run : (machine platform read).Run Feasible (later ++ (start, step) :: earlier) client) :
    ∃ since, Writes start client since ∧ Disclosed link later since := by
  suffices h : ∃ since, Writes start client since ∧ Dials link later since client by
    obtain ⟨since, hwrites, hdials⟩ := h
    exact ⟨since, hwrites, hdials.toDisclosed⟩
  induction later generalizing client with
  | nil =>
      cases run with
      | step run hfeasible =>
          have hnext : (machine platform read).next start step =
              start.join platform read qr peerId name := by simp [machine, next, hscan]
          rw [hnext]
          exact join_dials hdecode [] start
  | cons visit later ih =>
      cases run with
      | @step _ client next run hfeasible =>
          replace run : (machine platform read).Run Feasible (later ++ (start, step) :: earlier)
            client := run
          obtain ⟨since, hwrites, hdials⟩ :=
            ih (fun visit hvisit => hlater visit (List.mem_cons_of_mem _ hvisit)) run
          have hgreeted := run_greeted run
          -- the link of an open connection is still the one that was scanned
          have hlink : client.client ≠ none → client.helloSent = false →
              client.joining = link := by
            intro hopen hhello
            obtain ⟨socket, hclient⟩ := Option.ne_none_iff_exists'.1 hopen
            obtain ⟨last, lastName, own, hjoined, hown, hgreeting⟩ :=
              hgreeted.current socket hclient
            rw [joined_append (fun visit hvisit =>
              hlater visit (List.mem_cons_of_mem _ hvisit))] at hjoined
            have hsame : (qr, peerId, name) = (last, client.clientId, lastName) := by
              simpa [joined, hscan] using hjoined
            obtain rfl := congrArg Prod.fst hsame
            obtain rfl := Option.some.inj (hown.symm.trans hdecode)
            exact (hgreeting.fresh hhello).1
          obtain ⟨new, hnew, hnext⟩ := @Dials.next platform read later client next link since hdials
            (run_sound run) hlink hfeasible (hlater _ List.mem_cons_self)
          exact ⟨new ++ since, hwrites.trans hnew, hnext⟩

/-- The host of the link connects at the first address. -/
theorem run_disclosed_connected : ∃ later start client link since,
    (machine .sample sampleRead).Run Feasible
      (later ++ [(start, ⟨.join "" "c" "n", World.sample⟩)]) client ∧
    Writes start client since ∧ since.any Event.discloses = true ∧
    Disclosed link later since := by
  have hstart : (machine .sample sampleRead).Run Feasible [] { now := 0 } := .start ⟨0, rfl⟩
  have hopen : ((machine .sample sampleRead).next { now := 0 }
      ⟨.join "" "c" "n", .sample⟩).helloSent = false := by decide +kernel
  have run := (hstart.step (show Feasible _ ⟨.join "" "c" "n", .sample⟩ from trivial)).step
    (show Feasible _ ⟨.connected 0 (String.ofList (List.replicate 64 '0')), .sample⟩ from hopen)
  obtain ⟨link, hdecode⟩ : ∃ link, LanLink.decode .sample sampleRead "" = some link :=
    Option.isSome_iff_exists.1 (by decide +kernel)
  obtain ⟨since, hwrites, hdisclosed⟩ : ∃ since, Writes _ _ since ∧ Disclosed link [_] since :=
    run_disclosed hdecode rfl (by simp) run
  refine ⟨_, _, _, link, since, run, hwrites, ?_, hdisclosed⟩
  have hsince : events _ = since := (show events _ = since ++ [] from hwrites).trans
    (List.append_nil since)
  rw [← hsince]
  decide +kernel

end LanClient

end ServerHost
