import ServerHost.Lan.Answers

/-!
# A client is paired after it checked the Files

The phase `verifying` has two meanings: the connection is new, or the Files were
checked and the client agreed.  `Confirmed` says which of the two it is by what the
history holds, and `Heard` says it by what the host sent.  They agree as long as the
connection lasts, so the client keeps its rule exactly when no host asks it to be
paired too early.
-/

namespace ServerHost

namespace LanClient

/-- On this connection the client received a `ready` with Files it could open, and
replied with `confirm`. -/
def Confirmed (log : List Entry) (socket : Socket) : Prop :=
  ∃ message, messageType message = "ready" ∧
    LanPeer.opensFiles (message.value "files").toObject = true ∧
    List.Sublist [.sent socket confirmMessage, .received socket message, .connected socket]
      (events log)

/-- On this connection the host sent `ready` while a reply could still leave. -/
def Heard (trace : List (LanClient × Step)) (socket : Socket) : Prop :=
  ∃ visit ∈ trace, visit.1.client = some socket ∧ visit.1.closing = false ∧
    visit.2.world.delivery confirmMessage = .left ∧
    ∃ message, visit.2.input = .text socket message ∧ messageType message = "ready"

/-- The host says that the client is paired, and the client is in a phase to take it. -/
structure Takes (client : LanClient) (step : Step) (socket : Socket) : Prop where
  current : client.client = some socket
  spoken : ∃ message, step.input = .text socket message ∧ messageType message = "paired" ∧
    (message.value "host").toString = client.joining.hostId
  phase : client.phase = .verifying
  proved : client.view.configured → client.authenticated = true

/-- `clientPaired` becomes true only on a connection with a confirmation. -/
def Checked (platform : Platform) (read : String → LanLink.Query) (visit : LanClient × Step) :
    Prop :=
  visit.1.clientPaired = false → (next platform read visit.1 visit.2).clientPaired = true →
    ∃ socket, visit.1.client = some socket ∧ Confirmed visit.1.log socket

/-- What the history of a connection and the messages of the host say of each other. -/
structure Told (trace : List (LanClient × Step)) (client : LanClient) : Prop where
  sound : Sound client.view
  numbered : ∀ visit ∈ trace, ∀ socket, visit.1.client = some socket → socket < client.sockets
  connected : ∀ socket, client.client = some socket → client.helloSent = true →
    .connected socket ∈ events client.log
  answered : ∀ socket, client.client = some socket → Heard trace socket →
    Confirmed client.log socket
  heard : ∀ socket, .sent socket confirmMessage ∈ events client.log → Heard trace socket

variable {platform : Platform} {read : String → LanLink.Query}
variable {trace : List (LanClient × Step)} {client after : LanClient} {step : Step}

/-! ## The history grows -/

theorem Confirmed.mono {log log' : List Entry} {socket : Socket} (h : Confirmed log socket)
    (hsub : List.Sublist (events log) (events log')) : Confirmed log' socket := by
  obtain ⟨message, htype, hfiles, hmem⟩ := h
  exact ⟨message, htype, hfiles, hmem.trans hsub⟩

theorem Writes.sublist {new : List Event} (h : Writes client after new) :
    List.Sublist (events client.log) (events after.log) := by
  rw [h]
  exact List.sublist_append_right ..

theorem Mutes.sublist (h : Mutes client after) :
    List.Sublist (events client.log) (events after.log) := by
  obtain ⟨new, hwrites, -⟩ := h
  exact hwrites.sublist

theorem Heard.cons {socket : Socket} (h : Heard trace socket) (visit : LanClient × Step) :
    Heard (visit :: trace) socket := by
  obtain ⟨old, hmem, hrest⟩ := h
  exact ⟨old, List.mem_cons_of_mem _ hmem, hrest⟩

/-- A turn without a message on the current socket adds nothing that was heard. -/
theorem Heard.of_unheard {socket : Socket} (h : Heard ((client, step) :: trace) socket)
    (hunheard : Unheard client step) : Heard trace socket := by
  obtain ⟨visit, hmem, hclient, hclosing, hleft, message, hinput, htype⟩ := h
  rcases List.mem_cons.1 hmem with rfl | hold
  · exact absurd hinput (hunheard socket message hclient).1
  · exact ⟨visit, hold, hclient, hclosing, hleft, message, hinput, htype⟩

/-- Nor does a message of another type. -/
theorem Heard.of_other {socket : Socket} {own : Socket} {message : JsonObject}
    (h : Heard ((client, step) :: trace) socket)
    (hinput : step.input = .text own message ∨ step.input = .binary own message)
    (htype : messageType message ≠ "ready") : Heard trace socket := by
  obtain ⟨visit, hmem, hclient, hclosing, hleft, other, hother, hready⟩ := h
  rcases List.mem_cons.1 hmem with rfl | hold
  · rcases hinput with hinput | hinput <;> rw [hinput] at hother <;> cases hother
    exact absurd hready htype
  · exact ⟨visit, hold, hclient, hclosing, hleft, other, hother, hready⟩

theorem Mutes.sent (h : Mutes client after) {socket : Socket} {message : JsonObject}
    (hmem : .sent socket message ∈ events after.log) :
    .sent socket message ∈ events client.log := by
  obtain ⟨new, hwrites, hmute⟩ := h
  rw [hwrites] at hmem
  refine (List.mem_append.1 hmem).resolve_left fun hnew => ?_
  have := hmute _ hnew
  simp [Event.mute] at this

/-- A socket that is not new yet was not heard. -/
theorem Told.unheard_next (h : Told trace client) :
    ¬ Heard ((client, step) :: trace) client.sockets := by
  rintro ⟨visit, hmem, hclient, -⟩
  rcases List.mem_cons.1 hmem with rfl | hold
  · exact (h.sound.numbered _ hclient).false
  · exact (h.numbered visit hold _ hclient).false

/-! ## One turn -/

theorem Told.numbered_cons (h : Told trace client) (hsockets : client.sockets ≤ after.sockets) :
    ∀ visit ∈ (client, step) :: trace, ∀ socket, visit.1.client = some socket →
      socket < after.sockets := by
  intro visit hmem socket hclient
  rcases List.mem_cons.1 hmem with rfl | hold
  · exact (h.sound.numbered socket hclient).trans_le hsockets
  · exact (h.numbered visit hold socket hclient).trans_le hsockets

/-- A turn that neither replies nor connects. -/
theorem Told.keep (h : Told trace client) (hsound : Sound after.view)
    (hsockets : client.sockets ≤ after.sockets)
    (hsub : List.Sublist (events client.log) (events after.log))
    (hcurrent : ∀ socket, after.client = some socket → client.client = some socket ∧
      (after.helloSent = true → client.helloSent = true))
    (hheard : ∀ socket, after.client = some socket → Heard ((client, step) :: trace) socket →
      Heard trace socket)
    (hsent : ∀ socket, .sent socket confirmMessage ∈ events after.log →
      .sent socket confirmMessage ∈ events client.log) :
    Told ((client, step) :: trace) after where
  sound := hsound
  numbered := h.numbered_cons hsockets
  connected socket hclient hhello := by
    obtain ⟨hold, hgreeted⟩ := hcurrent socket hclient
    exact hsub.subset (h.connected socket hold (hgreeted hhello))
  answered socket hclient hnew :=
    (h.answered socket (hcurrent socket hclient).1 (hheard socket hclient hnew)).mono hsub
  heard socket hmem := (h.heard socket (hsent socket hmem)).cons _

theorem Told.frame (h : Told trace client) (hview : after.view = client.view)
    (hsub : List.Sublist (events client.log) (events after.log))
    (hheard : ∀ socket, Heard ((client, step) :: trace) socket → Heard trace socket)
    (hsent : ∀ socket, .sent socket confirmMessage ∈ events after.log →
      .sent socket confirmMessage ∈ events client.log) :
    Told ((client, step) :: trace) after :=
  h.keep (hview ▸ h.sound) (congrArg View.sockets hview).ge hsub
    (fun _ hclient => ⟨(congrArg View.client hview).symm.trans hclient,
      (congrArg View.helloSent hview).symm.trans⟩) (fun socket _ => hheard socket) hsent

/-- A connection attempt starts without a history. -/
theorem Told.open (h : Told trace client) (hsound : Sound after.view)
    (hclient : after.client = some client.sockets) (hhello : after.helloSent = false)
    (hsockets : client.sockets ≤ after.sockets) (hmutes : Mutes client after) :
    Told ((client, step) :: trace) after where
  sound := hsound
  numbered := h.numbered_cons hsockets
  connected socket _ hgreeted := by simp [hhello] at hgreeted
  answered socket hsocket hnew := by
    obtain rfl := Option.some.inj (hclient.symm.trans hsocket)
    exact absurd hnew h.unheard_next
  heard socket hmem := (h.heard socket (hmutes.sent hmem)).cons _

theorem confirmMessage_type : messageType confirmMessage = "confirm" := rfl

theorem pairMessage_type (proof : JsonObject) (client : LanClient) :
    messageType (client.pairMessage proof) = "pair" := rfl

theorem Handed.sent {socket own : Socket} {message sent : JsonObject} {closing : Bool}
    {handed : List Event} (h : Handed client own message step closing handed)
    (hmem : .sent socket sent ∈ handed) : socket = own ∧ sent = message ∧
      client.closing = false ∧ step.world.delivery message = .left := by
  cases h with
  | left hopen hleft =>
      simp only [List.mem_singleton, Event.sent.injEq] at hmem
      exact ⟨hmem.1, hmem.2, hopen, hleft⟩
  | full => simp at hmem
  | dropped => simp at hmem

theorem Hears.written_sent {socket own : Socket} {message sent : JsonObject} {type : String}
    {written : List Event} (h : Hears client step own message type written) :
    .sent socket sent ∉ written := by
  by_cases hconfigured : client.view.configured
  · simp [(h.proved hconfigured).2.2]
  · simp [h.plain hconfigured]

theorem Hears.received {own : Socket} {message : JsonObject} {type : String}
    {written : List Event} (h : Hears client step own message type written) :
    List.Sublist [.received own message] written := by
  by_cases hconfigured : client.view.configured
  · rw [(h.proved hconfigured).2.2]
    exact List.sublist_cons_self ..
  · rw [h.plain hconfigured]

theorem Told.ready (h : Told trace client) {socket : Socket} {message : JsonObject}
    {closing : Bool} {written handed : List Event}
    (hhears : Hears client step socket message "ready" written)
    (hphase : client.phase = .verifying ∨ client.phase = .confirming)
    (hfiles : LanPeer.opensFiles (message.value "files").toObject = true)
    (hhanded : Handed client socket confirmMessage step closing handed)
    (hsound : Sound after.view) (hclient : after.client = client.client)
    (hhello : after.helloSent = client.helloSent) (hsockets : client.sockets ≤ after.sockets)
    (hwrites : Writes client after (handed ++ written)) :
    Told ((client, step) :: trace) after where
  sound := hsound
  numbered := h.numbered_cons hsockets
  connected own hown hgreeted :=
    hwrites.sublist.subset (h.connected own (hclient ▸ hown) (hhello ▸ hgreeted))
  answered own hown hnew := by
    have hcurrent : client.client = some own := hclient ▸ hown
    obtain rfl := Option.some.inj (hcurrent.symm.trans hhears.current)
    obtain ⟨visit, hmem, hvisit, hopen, hleft, spoken, hinput, htype⟩ := hnew
    rcases List.mem_cons.1 hmem with rfl | hold
    · -- This is the message: the reply has left.
      have hconnected := h.connected own hhears.current (h.sound.open hhears.current hphase).1
      refine ⟨message, hhears.type, hfiles, ?_⟩
      cases hhanded with
      | left =>
          rw [hwrites, List.singleton_append, List.cons_append]
          refine List.Sublist.cons_cons _ ?_
          exact hhears.received.append (List.singleton_sublist.2 hconnected)
      | full _ hfull => rw [hleft] at hfull; cases hfull
      | dropped hclosing => rw [hopen] at hclosing; cases hclosing
    · exact (h.answered own hcurrent
        ⟨visit, hold, hvisit, hopen, hleft, spoken, hinput, htype⟩).mono
        hwrites.sublist
  heard own hmem := by
    rw [hwrites, List.mem_append, List.mem_append] at hmem
    rcases hmem with (hnew | hnew) | hold
    · obtain ⟨rfl, -, hopen, hleft⟩ := hhanded.sent hnew
      exact ⟨_, List.mem_cons_self, hhears.current, hopen, hleft, message, hhears.input,
        hhears.type⟩
    · exact absurd hnew hhears.written_sent
    · exact (h.heard own hold).cons _

theorem Told.next (h : Told trace client) (hfeasible : client.Feasible step) :
    Told ((client, step) :: trace) (LanClient.next platform read client step) := by
  have hturn := @next_turn platform read client step h.sound
  have hsound := hturn.sound hfeasible h.sound
  cases hturn with
  | quiet hunheard hview hmutes =>
      exact h.frame hview hmutes.sublist (fun _ hnew => hnew.of_unheard hunheard)
        fun _ => hmutes.sent
  | @request socket message hunheard hclient htype hview hwrites =>
      -- A request is not `confirm`, and nothing was heard.
      refine h.frame hview hwrites.sublist (fun _ hnew => hnew.of_unheard hunheard)
        fun own hmem => ?_
      rw [hwrites] at hmem
      refine (List.mem_cons.1 hmem).resolve_left fun hnew => ?_
      cases hnew
      simp [confirmMessage_type] at htype
  | respond hclient hinput htype hview hmutes =>
      exact h.frame hview hmutes.sublist (fun _ hnew => hnew.of_other hinput (by simp [htype]))
        fun _ => hmutes.sent
  | lose hnone _ _ hsockets hmutes =>
      -- Without a socket there is nothing to have been told on.
      exact h.keep hsound hsockets hmutes.sublist (by simp [hnone]) (by simp [hnone])
        fun _ => hmutes.sent
  | scan hinput hdecode hview hmutes =>
      exact h.open hsound (congrArg View.client hview) (congrArg View.helloSent hview)
        ((Nat.le_succ _).trans_eq (congrArg View.sockets hview).symm) hmutes
  | reopen hunheard hclient hhello hview hmutes =>
      exact h.open hsound (congrArg View.client hview)
        ((congrArg View.helloSent hview).trans hhello)
        ((Nat.le_succ _).trans_eq (congrArg View.sockets hview).symm) hmutes
  | @connect socket proof closing handed hclient hinput _ hhanded hview hwrites =>
      have hcurrent : ∀ own, (LanClient.next platform read client step).client = some own →
          own = socket :=
        fun own hown => Option.some.inj
          ((hown.symm.trans (congrArg View.client hview)).trans hclient)
      have hunheard : Unheard client step := unheard_of_input (by simp [hinput])
      refine ⟨hsound, h.numbered_cons (congrArg View.sockets hview).ge, fun own hown _ => ?_,
        fun own hown hnew => ?_, fun own hmem => ?_⟩
      · rw [hcurrent own hown, hwrites]
        simp
      · rw [hcurrent own hown] at hnew ⊢
        exact (h.answered socket hclient (hnew.of_unheard hunheard)).mono hwrites.sublist
      · rw [hwrites, List.mem_append, List.mem_append] at hmem
        rcases hmem with (hnew | hnew) | hold
        · have htype := congrArg messageType (hhanded.sent hnew).2.1
          rw [confirmMessage_type, pairMessage_type] at htype
          simp at htype
        · simp at hnew
        · exact (h.heard own hold).cons _
  | verify hhears hphase hview hwrites =>
      refine h.keep hsound (congrArg View.sockets hview).ge hwrites.sublist
        (fun _ hclient => ⟨(congrArg View.client hview).symm.trans hclient,
          (congrArg View.helloSent hview).symm.trans⟩)
        (fun _ _ hnew => hnew.of_other (.inl hhears.input) (by simp [hhears.type]))
        fun own hmem => ?_
      rw [hwrites] at hmem
      exact (List.mem_append.1 hmem).resolve_left hhears.written_sent
  | ready hhears hphase hfiles hhanded hview hwrites =>
      -- This is where `confirm` is written, and the Files were checked before it.
      exact h.ready hhears hphase hfiles hhanded hsound (congrArg View.client hview)
        (congrArg View.helloSent hview) (congrArg View.sockets hview).ge hwrites
  | pair hclient hinput htype _ _ _ hview hwrites =>
      refine h.keep hsound (congrArg View.sockets hview).ge hwrites.sublist
        (fun _ hclient => ⟨(congrArg View.client hview).symm.trans hclient,
          (congrArg View.helloSent hview).symm.trans⟩)
        (fun _ _ hnew => hnew.of_other (.inl hinput) (by simp [htype])) fun own hmem => ?_
      rw [hwrites] at hmem
      simpa using hmem
  | close hunheard hclient hview hmutes =>
      exact h.keep hsound (congrArg View.sockets hview).ge hmutes.sublist
        (fun _ hclient => ⟨(congrArg View.client hview).symm.trans hclient,
          (congrArg View.helloSent hview).symm.trans⟩)
        (fun _ _ hnew => hnew.of_unheard hunheard) fun _ => hmutes.sent
  | cancel hunheard _ hview hwrites =>
      refine h.keep hsound (congrArg View.sockets hview).ge hwrites.sublist
        (fun _ hclient => ⟨(congrArg View.client hview).symm.trans hclient,
          (congrArg View.helloSent hview).symm.trans⟩)
        (fun _ _ hnew => hnew.of_unheard hunheard) fun own hmem => ?_
      rw [hwrites] at hmem
      exact hmem

theorem run_told (run : (machine platform read).Run Feasible trace client) :
    Told trace client := by
  induction run with
  | start hinit =>
      obtain ⟨time, rfl⟩ := hinit
      have hrun : (machine platform read).Run Feasible [] _ := .start ⟨time, rfl⟩
      exact ⟨run_sound hrun, by simp, by simp, by simp, by simp [events]⟩
  | step run hfeasible ih => exact ih.next hfeasible

/-! ## When the rule is kept -/

/-- What a turn that pairs the client met. -/
theorem pairs_iff (hsound : Sound client.view) :
    client.clientPaired = false ∧ (next platform read client step).clientPaired = true ↔
      ∃ socket, Takes client step socket := by
  have hturn := @next_turn platform read client step hsound
  constructor
  · rintro ⟨hbefore, hafter⟩
    have hsame : ∀ {view : View}, (next platform read client step).view = view →
        view.clientPaired = client.clientPaired → ∃ socket, Takes client step socket := by
      rintro _ rfl hpaired
      rw [hbefore] at hpaired
      exact absurd (hpaired.symm.trans hafter) (by simp)
    cases hturn with
    | quiet _ hview => exact hsame hview rfl
    | request _ _ _ hview => exact hsame hview rfl
    | respond _ _ _ hview => exact hsame hview rfl
    | lose _ hunpaired => simp [hunpaired] at hafter
    | scan _ _ hview => exact hsame hview hbefore.symm
    | reopen _ _ _ hview => exact hsame hview rfl
    | connect _ _ _ _ hview => exact hsame hview rfl
    | verify _ _ hview => exact hsame hview rfl
    | ready _ _ _ _ hview => exact hsame hview rfl
    | pair hclient hinput htype hnamed hphase hproved =>
        exact ⟨_, hclient, ⟨_, hinput, htype, hnamed⟩, hphase, hproved⟩
    | close _ _ hview => exact hsame hview rfl
    | cancel _ _ hview => exact hsame hview rfl
  · rintro ⟨socket, hclient, ⟨message, hinput, htype, hnamed⟩, hphase, hproved⟩
    refine ⟨(hsound.open hclient (.inl hphase)).2, ?_⟩
    have hproofs : ¬ ((client.signer = true ∨ client.verifier = true) ∧
        client.authenticated = false) := fun h => by simpa [h.2] using hproved h.1
    simp [next, hinput, onSocket, hclient, clientMessage, htype, answerMessage, emit, hphase,
      hnamed, pairedMessage, hproofs]

/-- **A client is paired only after it checked the Files and confirmed, exactly when no
host tells it that it is paired before it sent `ready` on that connection.** -/
theorem run_checked_iff (run : (machine platform read).Run Feasible trace client) :
    (∀ visit ∈ trace, Checked platform read visit) ↔
      Always (fun visit earlier => ∀ socket, Takes visit.1 visit.2 socket → Heard earlier socket)
        trace := by
  induction run with
  | start => simp [Always]
  | @step trace client step run hfeasible ih =>
      have htold := run_told run
      rw [List.forall_mem_cons, ih]
      constructor
      · rintro ⟨hchecked, hall⟩
        refine hall.cons fun socket htakes => ?_
        obtain ⟨hbefore, hafter⟩ := (pairs_iff htold.sound).2 ⟨socket, htakes⟩
        obtain ⟨own, hown, message, -, -, hmem⟩ := hchecked hbefore hafter
        obtain rfl := Option.some.inj (hown.symm.trans htakes.current)
        exact htold.heard own (hmem.subset (by simp))
      · intro hall
        refine ⟨fun hbefore hafter => ?_, hall.tail⟩
        obtain ⟨socket, htakes⟩ := (pairs_iff htold.sound).1 ⟨hbefore, hafter⟩
        exact ⟨socket, htakes.current,
          htold.answered socket htakes.current (hall.head socket htakes)⟩

/-- A link on a port of this machine. -/
def sampleRead (_ : String) : LanLink.Query where
  valid := true
  scheme := "society"
  host := "pair"
  keys := LanLink.keys
  item _ := "2"
  value key := match key with
    | "addresses" => "127.0.0.1"
    | "port" => "1"
    | "host" => "h"
    | "name" => "n"
    | "expires" => "90000"
    | _ => String.ofList (List.replicate 64 '0')

def World.sample : World where
  delivery _ := .left
  sign _ := ⟨[]⟩
  verify _ _ := true

/-- The client connects to the host of the link. -/
def connecting : List Step :=
  [.join "" "c" "n", .connected 0 (String.ofList (List.replicate 64 '0'))].map (⟨·, World.sample⟩)

def readyStep : Step :=
  ⟨.text 0 (.ofList [("type", .string "ready"), ("host", .string "h"),
    ("files", .object [("ok", .bool true), ("entries", .array [])])]), .sample⟩

def pairedStep : Step :=
  ⟨.text 0 (.ofList [("type", .string "paired"), ("host", .string "h")]), .sample⟩

theorem connecting_admissible :
    (machine .sample sampleRead).Admissible Feasible { now := 0 } connecting := by
  have hopen : ((machine .sample sampleRead).next { now := 0 }
      ⟨.join "" "c" "n", .sample⟩).helloSent = false := by decide +kernel
  exact ⟨trivial, hopen, trivial⟩

/-- A client that asks for no proofs is paired by a host that shows no Files. -/
theorem not_checked_paired : ∃ trace client,
    (machine .sample sampleRead).Run Feasible trace client ∧ client.clientPaired = true ∧
      ¬ ∀ visit ∈ trace, Checked .sample sampleRead visit := by
  have hstart : (machine .sample sampleRead).Run Feasible [] { now := 0 } := .start ⟨0, rfl⟩
  obtain ⟨trace, run⟩ := hstart.extend connecting connecting_admissible
  have hsilent : (events (connecting.foldl (machine .sample sampleRead).next { now := 0 }).log).all
      (fun event => match event with | .received .. => false | _ => true) = true := by
    decide +kernel
  refine ⟨_, _, run.step (show Feasible _ pairedStep from trivial), by decide +kernel, fun h => ?_⟩
  obtain ⟨socket, -, message, -, -, hmem⟩ :=
    h _ List.mem_cons_self (by decide +kernel) (by decide +kernel)
  have hreceived : .received socket message ∈ events _ := hmem.subset (by simp)
  exact absurd (List.all_eq_true.1 hsilent _ hreceived) (by simp)

/-- The host shows its Files first. -/
theorem run_checked_iff_ready : ∃ trace client,
    (machine .sample sampleRead).Run Feasible trace client ∧ client.clientPaired = true ∧
      ((∀ visit ∈ trace, Checked .sample sampleRead visit) ↔
        Always (fun visit earlier => ∀ socket, Takes visit.1 visit.2 socket →
          Heard earlier socket) trace) := by
  have hstart : (machine .sample sampleRead).Run Feasible [] { now := 0 } := .start ⟨0, rfl⟩
  obtain ⟨trace, run⟩ := hstart.extend connecting connecting_admissible
  have run' := (run.step (show Feasible _ readyStep from trivial)).step
    (show Feasible _ pairedStep from trivial)
  exact ⟨_, _, run', by decide +kernel, run_checked_iff run'⟩

end LanClient

end ServerHost
