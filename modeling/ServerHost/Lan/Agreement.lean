import ServerHost.Lan.Framing
import ServerHost.Lan.Greeting

/-!
# The two ends agree on what was paired

A host and a client that scanned its code (`Lan/System`).  When the client is paired,
the host paired the session at the other end before, and both mean one link, one device
and one nonce.

## Strategy

The message `paired` tells the client that its host wrote it (`run_framed`), so the host
paired a session; every named session was introduced by a message (`Origin`).  `Carried`
asks where that message came from: it reached the host through the connection, so the
client wrote it, under the certificate of the offer it was accepted under.  What the
client writes comes from the link it scanned (`Greeting`).
-/

namespace ServerHost

/-! ## The host -/

namespace LanPeer

variable {platform : Platform} {host : LanPeer} {step : Step}
variable {trace : List (LanPeer × Step)}

/-- A session that a turn leaves at an old socket was there before, under the same
certificate. -/
theorem next_sessions (hfeasible : host.Feasible step) {socket : Socket} {session : Session}
    (hknown : socket < host.sockets)
    (hsession : (next platform host step).clients.lookup socket = some session) :
    (∃ old, host.clients.lookup socket = some old) ∧
      (next platform host step).offer.fingerprint = host.offer.fingerprint := by
  suffices h : host.sockets ≤ (next platform host step).sockets ∧ ∀ session,
      (next platform host step).clients.lookup socket = some session →
      (∃ old, host.clients.lookup socket = some old) ∧
        (next platform host step).offer.fingerprint =
          host.offer.fingerprint from h.2 session hsession
  refine (next_changes platform hfeasible).invariant
    (I := fun state => host.sockets ≤ state.sockets ∧ ∀ session,
      state.clients.lookup socket = some session →
      (∃ old, host.clients.lookup socket = some old) ∧
        state.offer.fingerprint = host.offer.fingerprint)
    (fun state after change hstate => ?_)
    ⟨le_rfl, fun session hsession => ⟨⟨session, hsession⟩, rfl⟩⟩
  obtain ⟨hsockets, hold⟩ := hstate
  -- Changes of the sessions that are there.
  have hmodified : ∀ {own : Socket} {f : Session → Session} {after : LanPeer},
      after.clients = Table.modify own f state.clients →
      after.offer.fingerprint = state.offer.fingerprint → ∀ session,
      after.clients.lookup socket = some session → (∃ old, host.clients.lookup socket = some old) ∧
        after.offer.fingerprint = host.offer.fingerprint := by
    intro own f after hclients hoffer session hsession
    rw [hclients] at hsession
    rw [hoffer]
    rcases Table.lookup_modify_eq_some.1 hsession with ⟨rfl, old, hmem, -⟩ | ⟨-, hmem⟩
    · exact hold old hmem
    · exact hold session hmem
  have haccepted : ∀ (own : Socket) (message : JsonObject) (authentication : String)
      {after : LanPeer},
      after.clients = ((state.note own authentication).accept platform own message).clients →
      after.offer.fingerprint = state.offer.fingerprint → ∀ session,
      after.clients.lookup socket = some session → (∃ old, host.clients.lookup socket = some old) ∧
        after.offer.fingerprint = host.offer.fingerprint := by
    intro own message authentication after hclients hoffer
    rw [accept_clients, note_clients, Table.modify_modify] at hclients
    exact hmodified hclients hoffer
  cases change with
  | clock time hinput => exact ⟨hsockets, hold⟩
  | quiet hquiet =>
      refine ⟨hsockets.trans hquiet.sockets, fun session hsession => ?_⟩
      rw [hquiet.clients] at hsession
      rw [hquiet.offer]
      exact hold session hsession
  | welcome =>
      refine ⟨hsockets.trans (Nat.le_succ _), fun session hsession => ?_⟩
      rcases Table.lookup_insert_eq_some.1 hsession with ⟨rfl, -⟩ | ⟨-, hmem⟩
      · exact absurd (hknown.trans_le hsockets) (lt_irrefl _)
      · exact hold session hmem
  | note own authentication =>
      exact ⟨hsockets, hmodified (note_clients own authentication state) rfl⟩
  | @acceptDevice own message authentication =>
      exact ⟨hsockets, haccepted own message authentication rfl rfl⟩
  | @acceptOpen own message authentication after _ _ houtcome =>
      rcases houtcome with rfl | rfl
      · exact ⟨hsockets, haccepted own message authentication rfl rfl⟩
      · exact ⟨hsockets, haccepted own message authentication rfl rfl⟩
  | @approveUnproved own => exact ⟨hsockets, hmodified (approve_clients own host) rfl⟩
  | @approveUnlisted own => exact ⟨hsockets, hmodified (approve_clients own host) rfl⟩
  | @approve own => exact ⟨hsockets, hmodified (approve_clients own host) rfl⟩
  | @confirm own _ mid _ hquiet =>
      have hclients : mid.clients = Table.modify own
          (fun session => { session with paired := true }) host.clients := hquiet.clients
      exact ⟨hsockets.trans hquiet.sockets, hmodified hclients
        (congrArg LanLink.fingerprint hquiet.offer)⟩
  | serve => exact ⟨hsockets, hold⟩
  | forget own =>
      exact ⟨hsockets, fun session hsession =>
        hold session (Table.lookup_erase_eq_some.1 hsession).2⟩
  | expire => exact ⟨hsockets, hold⟩
  | withdraw =>
      obtain ⟨-, -, hoffer, -, -, -, hsame⟩ := cancelPairing_rest (state.emit .withdrawn)
      refine ⟨hsockets.trans hsame.ge, fun session hsession => ?_⟩
      rw [hoffer]
      exact hold session (cancelPairing_clients.1 hsession).1
  | generate => exact ⟨hsockets, hold⟩
  | expect peerId => exact ⟨hsockets, hold⟩
  | stop => exact ⟨hsockets, fun session hsession => by simp [stop, emit] at hsession⟩
  | configure signer verifier hempty => exact ⟨hsockets, hold⟩
  | begin offer hempty =>
      refine ⟨hsockets, fun session hsession => ?_⟩
      simp [hempty] at hsession
  | rehash hsame =>
      exact ⟨hsockets, fun session hsession =>
        hold session ((hsame.lookup socket).trans hsession)⟩

/-- A session was accepted under a number that is in use. -/
theorem run_known (run : (machine platform).Run Feasible trace host) :
    ∀ visit ∈ trace, ∀ socket session, visit.1.clients.lookup socket = some session →
      socket < host.sockets := by
  induction run with
  | start hinit => simp
  | @step trace host step run hfeasible ih =>
      intro visit hvisit socket session hsession
      refine lt_of_lt_of_le ?_ (LanSystem.host_sockets_le hfeasible)
      rcases List.mem_cons.1 hvisit with rfl | hold
      · exact (run_staged run).known socket session hsession
      · exact ih visit hold socket session hsession

/-- Every session that was paired had been introduced by a message of its socket. -/
theorem run_paired (run : (machine platform).Run Feasible trace host) :
    ∀ socket id, .paired socket id ∈ events host.log → ∃ earlier step message,
      (earlier, step) ∈ trace ∧ Accepts platform earlier step socket message ∧
      (message.value "code").toString = earlier.offer.code ∧
      id = (message.value "peerId").toString := by
  induction run with
  | start hinit =>
      obtain ⟨time, rfl⟩ := hinit
      simp [events]
  | @step trace host step run hfeasible ih =>
      intro socket id hmem
      have hlater : .paired socket id ∈ events host.log → ∃ earlier own message,
          (earlier, own) ∈ (host, step) :: trace ∧ Accepts platform earlier own socket message ∧
          (message.value "code").toString = earlier.offer.code ∧
          id = (message.value "peerId").toString := by
        intro hold
        obtain ⟨earlier, own, message, hvisit, hrest⟩ := ih socket id hold
        exact ⟨earlier, own, message, List.mem_cons_of_mem _ hvisit, hrest⟩
      -- Only the turn of `confirm` reports a pairing.
      rcases next_mild platform host step with hmild | ⟨own, session, hconfirms, hpairs⟩
      · refine hlater ?_
        obtain ⟨entry, hentry, hevent⟩ := List.mem_map.1 hmem
        rcases hmild.log.mem hentry with hold | hnew
        · exact hevent ▸ List.mem_map_of_mem hold
        · rw [hevent] at hnew
          exact hnew.elim
      · change .paired socket id ∈ events (next platform host step).log at hmem
        obtain ⟨mid, hquiet, hmid⟩ := confirmMessage_quiet step.world own session host
        obtain ⟨new, hlog, hnew⟩ := hquiet.log
        rw [hpairs, hmid, emit_log, hlog, events_cons, List.mem_cons] at hmem
        rcases hmem with hmem | hmem
        · -- The session that is paired now has a name, so it was introduced.
          cases hmem
          obtain ⟨earlier, first, message, hvisit, horigin⟩ :=
            (run_introductions run).introduced socket session hconfirms.stored hconfirms.named
          exact ⟨earlier, first, message, List.mem_cons_of_mem _ hvisit, horigin.accepts,
            horigin.code, horigin.id⟩
        · obtain ⟨entry, hentry, hevent⟩ := List.mem_map.1 hmem
          rcases List.mem_append.1 hentry with hwritten | hold
          · rcases hnew entry hwritten with ⟨other, hother⟩ | ⟨other, message, hother⟩ <;>
              rw [hother] at hevent <;> cases hevent
          · exact hlater (hevent ▸ List.mem_map_of_mem hold)

end LanPeer

/-! ## The client -/

namespace LanClient

variable {platform : Platform} {read : String → LanLink.Query}
variable {client after : LanClient} {step : Step} {socket : Socket}

theorem Turn.sublist (h : Turn platform read client step after) :
    List.Sublist (events client.log) (events after.log) := by
  cases h with
  | quiet _ _ hmutes => exact hmutes.sublist
  | request _ _ _ _ hwrites => exact hwrites.sublist
  | respond _ _ _ _ hmutes => exact hmutes.sublist
  | lose _ _ _ _ hmutes => exact hmutes.sublist
  | scan _ _ _ hmutes => exact hmutes.sublist
  | reopen _ _ _ _ hmutes => exact hmutes.sublist
  | connect _ _ _ _ _ hwrites => exact hwrites.sublist
  | verify _ _ _ hwrites => exact hwrites.sublist
  | ready _ _ _ _ _ hwrites => exact hwrites.sublist
  | pair _ _ _ _ _ _ _ hwrites => exact hwrites.sublist
  | close _ _ _ hmutes => exact hmutes.sublist
  | cancel _ _ _ hwrites => exact hwrites.sublist

/-- A socket is greeted once, when it shows the certificate of the link. -/
theorem Turn.greeted (h : Turn platform read client step after)
    (hafter : after.client = some socket) (hhello : after.helloSent = true) :
    client.client = some socket ∧ after.joining.fingerprint = client.joining.fingerprint ∧
      (client.helloSent = true ∨ step.input = .connected socket client.joining.fingerprint) := by
  -- Most turns leave the connection and the greeting as they were.
  have hsame : ∀ {view : View}, after.view = view → view.client = client.client →
      view.joining = client.joining → view.helloSent = client.helloSent →
      client.client = some socket ∧ after.joining.fingerprint = client.joining.fingerprint ∧
        (client.helloSent = true ∨
          step.input = .connected socket client.joining.fingerprint) := by
    rintro _ rfl hclient hjoining hkept
    exact ⟨hclient.symm.trans hafter, congrArg LanLink.fingerprint hjoining,
      .inl (hkept.symm.trans hhello)⟩
  -- After a new connection nothing has been said yet.
  have hfresh : ∀ {view : View}, after.view = view → view.helloSent = false → False := by
    rintro _ rfl hkept
    exact Bool.false_ne_true (hkept.symm.trans hhello)
  cases h with
  | quiet _ hview => exact hsame hview rfl rfl rfl
  | request _ _ _ hview => exact hsame hview rfl rfl rfl
  | respond _ _ _ hview => exact hsame hview rfl rfl rfl
  | lose hnone =>
      rw [hnone] at hafter
      cases hafter
  | scan _ _ hview => exact (hfresh hview rfl).elim
  | reopen _ _ hold hview => exact (hfresh hview hold).elim
  | connect hown hinput _ _ hview =>
      have hclient : after.client = client.client := congrArg View.client hview
      have hcurrent : client.client = some socket := hclient.symm.trans hafter
      obtain rfl := Option.some.inj (hown.symm.trans hcurrent)
      have hjoining : after.joining = { client.joining with code := "" } :=
        congrArg View.joining hview
      exact ⟨hcurrent, by rw [hjoining], .inr hinput⟩
  | verify _ _ hview => exact hsame hview rfl rfl rfl
  | ready _ _ _ _ hview => exact hsame hview rfl rfl rfl
  | pair _ _ _ _ _ _ hview => exact hsame hview rfl rfl rfl
  | close _ _ hview => exact hsame hview rfl rfl rfl
  | cancel _ _ hview => exact hsame hview rfl rfl rfl

end LanClient

/-! ## The connection -/

namespace LanSystem

variable {platform : Platform} {read : String → LanLink.Query} {double : ℚ → List Char}
variable {supports : Bool} {system after : LanSystem} {action : Action}
variable {trace : List (LanSystem × Action)} {socket : Socket} {link passed : Link}

/-- The client wrote this message, as it says it. -/
def Wrote (supports : Bool) (client : LanClient) (socket : Socket) (message : JsonObject) : Prop :=
  ∃ sent, message = wording supports sent ∧ .sent socket sent ∈ LanClient.events client.log

/-- What the host takes from a connection was written by the client, and the session has
the certificate the client was shown. -/
structure Carried (supports : Bool) (trace : List (LanSystem × Action)) (system : LanSystem)
    (socket : Socket) (link : Link) : Prop where
  up : ∀ frame ∈ link.up, Wrote supports system.client socket frame.message
  session : ∀ session, system.host.clients.lookup link.host = some session →
    system.host.offer.fingerprint = link.fingerprint
  heard : ∀ visit ∈ hostTrace trace, ∀ session, visit.1.clients.lookup link.host = some session →
    visit.1.offer.fingerprint = link.fingerprint ∧ ∀ message,
      visit.2.input = .text link.host message ∨ visit.2.input = .binary link.host message →
      Wrote supports system.client socket message

theorem client_sublist (run : (machine platform read double supports).Run Feasible trace system)
    (action : Action) : List.Sublist (LanClient.events system.client.log)
      (LanClient.events (next platform read double supports system action).client.log) := by
  change List.Sublist _ (LanClient.events ((system.clientStep action).elim system.client
    (LanClient.next platform read system.client)).log)
  cases system.clientStep action with
  | none => exact List.Sublist.refl _
  | some step =>
      have hsound := LanClient.run_sound (run_client run)
      exact (@LanClient.next_turn platform read system.client step hsound).sublist

theorem Wrote.mono {client after : LanClient} {message : JsonObject}
    (h : Wrote supports client socket message)
    (hsub : List.Sublist (LanClient.events client.log) (LanClient.events after.log)) :
    Wrote supports after socket message := by
  obtain ⟨sent, hmessage, hmem⟩ := h
  exact ⟨sent, hmessage, hsub.subset hmem⟩

/-- The messages a turn adds to a connection are the client's. -/
theorem wrote_of_told (hmem : ∀ own ∈ link.up, Wrote supports after.client socket own.message) :
    ∀ own ∈ link.up ++ (LanClient.told socket system.client after.client).map
      (fun message => frame double system.client.binary (wording supports message)),
      Wrote supports after.client socket own.message := by
  intro own hown
  rcases List.mem_append.1 hown with hold | hnew
  · exact hmem own hold
  · obtain ⟨message, htold, rfl⟩ := List.mem_map.1 hnew
    exact ⟨message, rfl, sent_of_told htold⟩

/-- A turn of the host on a connection that is there. -/
theorem Carried.host (h : Carried supports trace system socket link) {step : LanPeer.Step}
    (hknown : link.host < system.host.sockets) (hfeasible : system.host.Feasible step)
    (hstep : system.hostStep action = some step)
    (hhost : after.host = LanPeer.next platform system.host step)
    (hclient : after.client = system.client) (hsame : passed.host = link.host)
    (hfingerprint : passed.fingerprint = link.fingerprint)
    (hup : ∀ frame ∈ passed.up, frame ∈ link.up)
    (hspoken : ∀ message, step.input = .text link.host message ∨
      step.input = .binary link.host message → ∃ frame ∈ link.up, frame.message = message) :
    Carried supports ((system, action) :: trace) after socket passed := by
  refine ⟨fun frame hframe => hclient ▸ h.up frame (hup frame hframe), fun session hsession => ?_,
    fun visit hvisit session hsession => ?_⟩
  · rw [hhost, hsame] at hsession
    obtain ⟨⟨old, hold⟩, hoffer⟩ := LanPeer.next_sessions hfeasible hknown hsession
    rw [hhost, hoffer, hfingerprint]
    exact h.session old hold
  · rw [hsame] at hsession ⊢
    rw [hfingerprint, hclient]
    rw [hostTrace_some hstep] at hvisit
    rcases List.mem_cons.1 hvisit with rfl | hold
    · refine ⟨h.session session hsession, fun message hinput => ?_⟩
      obtain ⟨frame, hframe, rfl⟩ := hspoken message hinput
      exact h.up frame hframe
    · exact h.heard visit hold session hsession

/-- A turn of the client. -/
theorem Carried.client (h : Carried supports trace system socket link)
    (hstep : system.hostStep action = none) (hhost : after.host = system.host)
    (hsub : List.Sublist (LanClient.events system.client.log) (LanClient.events after.client.log))
    (hsame : passed.host = link.host) (hfingerprint : passed.fingerprint = link.fingerprint)
    (hup : ∀ frame ∈ passed.up, Wrote supports after.client socket frame.message) :
    Carried supports ((system, action) :: trace) after socket passed := by
  refine ⟨hup, ?_, ?_⟩
  · rw [hhost, hsame, hfingerprint]
    exact h.session
  · rw [hostTrace_none hstep, hsame, hfingerprint]
    intro visit hvisit session hsession
    obtain ⟨hoffer, hheard⟩ := h.heard visit hvisit session hsession
    exact ⟨hoffer, fun message hinput => (hheard message hinput).mono hsub⟩

theorem Carried.next (run : (machine platform read double supports).Run Feasible trace system)
    (hfeasible : system.Feasible action)
    (h : ∀ socket link, system.links socket = some link → Carried supports trace system socket link)
    (hpassed : (LanSystem.next platform read double supports system action).links socket =
      some passed) :
    Carried supports ((system, action) :: trace)
      (LanSystem.next platform read double supports system action) socket passed := by
  have hwired := run_wired run
  have hsub := client_sublist run action
  cases hlink : system.links socket with
  | none =>
      -- The connection is new, and nothing is on its way.
      obtain ⟨-, -, hclient, hserver, ⟨address, world, hstep, hnext⟩, -, rfl⟩ :=
        next_accepted hfeasible hlink hpassed
      refine ⟨by simp, fun session _ => ?_, fun visit hvisit session hsession => ?_⟩
      · rw [hnext]
        unfold LanPeer.newConnection
        split
        · rfl
        · dsimp only
          split <;> rfl
      · -- No session had this number before.
        rw [hostTrace_some hstep] at hvisit
        rcases List.mem_cons.1 hvisit with rfl | hold
        · exact absurd ((LanPeer.run_staged (run_host run)).known _ _ hsession) (lt_irrefl _)
        · exact absurd (LanPeer.run_known (run_host run) visit hold _ _ hsession) (lt_irrefl _)
  | some link =>
      have hcarried := h socket link hlink
      have hknown := hwired.known socket link hlink
      obtain ⟨own, hown, hpassing⟩ := @next_passing platform read double supports system action
        hfeasible hwired socket link hlink
      obtain rfl := Option.some.inj (hown.symm.trans hpassed)
      -- What one end does is seen by the other through the queue only.
      cases hpassing with
      | idle hstep _ hhost hclient hsame =>
          rw [hsame]
          exact hcarried.client hstep hhost hsub rfl rfl
            fun frame hframe => (hcarried.up frame hframe).mono hsub
      | host hstep _ hspeaker hhost hclient hsame =>
          refine hcarried.host hknown (hostStep_feasible hfeasible hstep) hstep hhost hclient
            (by rw [hsame]) (by rw [hsame]) (by simp [hsame]) fun message hinput =>
              absurd ?_ hspeaker
          rcases hinput with hinput | hinput <;> rw [hinput] <;> rfl
      | @up step first rest hstep _ hqueue hinput hhost hclient hsame =>
          refine hcarried.host hknown (hostStep_feasible hfeasible hstep) hstep hhost hclient
            (by rw [hsame]) (by rw [hsame]) (by simp +contextual [hsame, hqueue])
            fun message hmessage => ⟨first, by simp [hqueue], ?_⟩
          rw [hinput, Frame.toHost] at hmessage
          split at hmessage <;> rcases hmessage with hmessage | hmessage <;> cases hmessage <;> rfl
      | client hstep _ _ _ hhost _ hsame =>
          rw [hsame]
          exact hcarried.client hstep hhost hsub rfl rfl (wrote_of_told fun frame hframe =>
            (hcarried.up frame hframe).mono hsub)
      | down hstep _ _ _ hhost _ hsame =>
          rw [hsame]
          exact hcarried.client hstep hhost hsub rfl rfl (wrote_of_told fun frame hframe =>
            (hcarried.up frame hframe).mono hsub)

theorem run_carried (run : (machine platform read double supports).Run Feasible trace system) :
    ∀ socket link, system.links socket = some link → Carried supports trace system socket link := by
  induction run with
  | start hinit =>
      obtain ⟨time, time', rfl⟩ := hinit
      simp
  | step run hfeasible ih => exact fun socket link hlink => Carried.next run hfeasible ih hlink

/-- A connection keeps its number at the host and its certificate. -/
theorem next_link (run : (machine platform read double supports).Run Feasible trace system)
    (hfeasible : system.Feasible action) (hlink : system.links socket = some link) :
    ∃ passed, (next platform read double supports system action).links socket = some passed ∧
      passed.fingerprint = link.fingerprint := by
  obtain ⟨passed, hpassed, hpassing⟩ := @next_passing platform read double supports system action
    hfeasible (run_wired run) socket link hlink
  refine ⟨passed, hpassed, ?_⟩
  cases hpassing with
  | idle _ _ _ _ hsame => rw [hsame]
  | host _ _ _ _ _ hsame => rw [hsame]
  | up _ _ _ _ _ _ hsame => rw [hsame]
  | client _ _ _ _ _ _ hsame => rw [hsame]
  | down _ _ _ _ _ _ hsame => rw [hsame]

/-- A socket the client greeted is a connection of the host whose code it scanned. -/
theorem run_greeted (run : (machine platform read double supports).Run Feasible trace system) :
    ∀ socket, system.client.client = some socket → system.client.helloSent = true →
      ∃ link, system.links socket = some link ∧
        link.fingerprint = system.client.joining.fingerprint := by
  induction run with
  | start hinit =>
      obtain ⟨time, time', rfl⟩ := hinit
      simp
  | @step trace system action run hfeasible ih =>
      intro socket hclient hhello
      -- A link keeps its certificate.
      have hkept : ∀ {link : Link} {fingerprint : String}, system.links socket = some link →
          link.fingerprint = fingerprint → ∃ passed,
          (next platform read double supports system action).links socket = some passed ∧
            passed.fingerprint = fingerprint := by
        rintro link _ hlink rfl
        exact next_link run hfeasible hlink
      change ((system.clientStep action).elim system.client
        (LanClient.next platform read system.client)).client = some socket at hclient
      change ((system.clientStep action).elim system.client
        (LanClient.next platform read system.client)).helloSent = true at hhello
      change ∃ link, (next platform read double supports system action).links socket = some link ∧
        link.fingerprint = ((system.clientStep action).elim system.client
          (LanClient.next platform read system.client)).joining.fingerprint
      cases hstep : system.clientStep action with
      | none =>
          rw [hstep] at hclient hhello
          obtain ⟨link, hlink, hsame⟩ := ih socket hclient hhello
          exact hkept hlink hsame
      | some step =>
          rw [hstep] at hclient hhello
          have hturn := @LanClient.next_turn platform read system.client step
            (LanClient.run_sound (run_client run))
          obtain ⟨hcurrent, hjoining, hgreeted⟩ := hturn.greeted hclient hhello
          rw [Option.elim_some, hjoining]
          rcases hgreeted with hold | hinput
          · obtain ⟨link, hlink, hsame⟩ := ih socket hcurrent hold
            exact hkept hlink hsame
          · -- The certificate of the link is shown by the host alone.
            have hgenuine : system.Genuine step.input := by
              cases action with
              | client own =>
                  obtain rfl := Option.some.inj hstep
                  exact hfeasible.2.1
              | down own world =>
                  rw [hinput]
                  simp only [clientStep, Option.bind_eq_bind, Option.bind_eq_some_iff] at hstep
                  obtain ⟨link, -, first, -, hstep⟩ := hstep
                  obtain rfl := Option.some.inj hstep
                  unfold Frame.toClient at hinput
                  dsimp only at hinput
                  split at hinput <;> cases hinput
              | _ => cases hstep
            rw [hinput] at hgenuine
            cases hlink : system.links socket with
            | none => simp [Genuine, hlink] at hgenuine
            | some link =>
                simp only [Genuine, hlink] at hgenuine
                exact hkept hlink hgenuine.symm

theorem wording_value {key : String} (hkey : key ≠ "binary") (message : JsonObject) :
    (wording supports message).value key = message.value key := by
  unfold wording
  split
  · rfl
  · exact value_remove hkey

/-! ## Agreement -/

/-- What the host and the client mean by the pairing on a connection: the link that was
scanned and the offer a message was accepted under, for one device and one nonce. -/
structure Meant (platform : Platform) (client : LanClient) (qr : LanLink) (earlier : LanPeer)
    (message : JsonObject) : Prop where
  code : earlier.offer.code = qr.code
  hostId : earlier.offer.hostId = qr.hostId
  fingerprint : earlier.offer.fingerprint = qr.fingerprint
  peerId : (message.value "peerId").toString = client.clientId
  nonce : (message.value "nonce").toString = client.clientNonce

/-- A session the host accepted on this connection was asked for by the client. -/
theorem meant (run : (machine platform read double supports).Run Feasible trace system)
    (hlink : system.links socket = some link) {qr : LanLink}
    (hfingerprint : link.fingerprint = system.client.joining.fingerprint)
    (hgreeting : LanClient.Greeting platform system.client socket qr)
    (hhello : system.client.helloSent = true) {earlier : LanPeer} {step : LanPeer.Step}
    {message : JsonObject} (hvisit : (earlier, step) ∈ hostTrace trace)
    (haccepts : LanPeer.Accepts platform earlier step link.host message)
    (hcode : (message.value "code").toString = earlier.offer.code) :
    Meant platform system.client qr earlier message := by
  obtain ⟨session, hsession, -⟩ := haccepts.nameless
  obtain ⟨hoffer, hheard⟩ := (run_carried run socket link hlink).heard _ hvisit session hsession
  obtain ⟨sent, rfl, hmem⟩ := hheard message haccepts.presented.spoken
  have hvalue : ∀ key, key ≠ "binary" → (wording supports sent).value key = sent.value key :=
    fun key hkey => wording_value hkey sent
  have htype : messageType sent = "pair" := by
    have hpair := haccepts.presented.pair
    rwa [messageType, hvalue "type" (by decide)] at hpair
  have hpresents := hgreeting.sent hhello sent hmem htype
  rw [hvalue "code" (by decide)] at hcode
  have hhost := haccepts.presented.host_named
  rw [hvalue "host" (by decide)] at hhost
  refine ⟨hcode.symm.trans hpresents.code, hhost.symm.trans hpresents.host, ?_, ?_, ?_⟩
  · rw [hoffer, hfingerprint, hgreeting.joining hhello]
  · rw [hvalue "peerId" (by decide)]
    exact hpresents.peerId
  · rw [hvalue "nonce" (by decide)]
    exact hpresents.nonce

theorem Meant.context {client : LanClient} {qr : LanLink} {earlier : LanPeer}
    {message : JsonObject} (h : Meant platform client qr earlier message) :
    earlier.offer.authenticationContext platform client.clientId client.clientNonce =
      qr.authenticationContext platform client.clientId client.clientNonce := by
  simp only [LanLink.authenticationContext, h.hostId, h.fingerprint, h.code]

theorem Meant.verification {client : LanClient} {qr : LanLink} {earlier : LanPeer}
    {message : JsonObject} (h : Meant platform client qr earlier message) :
    earlier.offer.verification platform client.clientId client.clientNonce =
      qr.verification platform client.clientId client.clientNonce := by
  simp only [LanLink.verification, h.fingerprint, h.code]

/-- The host paired a session of this connection, which the client asked for with the code
it scanned and its nonce, and both verified proofs over one context. -/
structure PairedBoth (platform : Platform) (read : String → LanLink.Query)
    (trace : List (LanSystem × Action)) (system : LanSystem) (socket : Socket) (link : Link) :
    Prop where
  host : .paired link.host system.client.clientId ∈ LanPeer.events system.host.log
  opened : ∃ text name qr earlier step message,
    LanClient.joined (clientTrace trace) = some (text, system.client.clientId, name) ∧
      LanLink.decode platform read text = some qr ∧ (earlier, step) ∈ hostTrace trace ∧
      LanPeer.Accepts platform earlier step link.host message ∧
      (message.value "peerId").toString = system.client.clientId ∧
      (message.value "code").toString = qr.code ∧ earlier.offer.code = qr.code ∧
      (message.value "nonce").toString = system.client.clientNonce ∧
      (earlier.signer = true ∨ earlier.verifier = true →
        step.world.verify ("client\n" ++ system.client.authentication)
          (message.value "proof").toObject = true)
  verified : system.client.signer = true ∨ system.client.verifier = true →
    ∃ proof, .verified socket system.client.authentication proof ∈
      LanClient.events system.client.log

/-- The host and the client agree in this state. -/
structure Agreement (platform : Platform) (read : String → LanLink.Query)
    (trace : List (LanSystem × Action)) (system : LanSystem) : Prop where
  paired : system.client.clientPaired = true → ∃ socket link,
    system.client.client = some socket ∧ system.links socket = some link ∧
      PairedBoth platform read trace system socket link
  compared : ∀ socket link session, system.client.client = some socket →
    system.links socket = some link → system.host.clients.lookup link.host = some session →
    session.awaitingApproval = true → system.host.phase = .confirming →
    system.client.phase = .confirming →
    session.id = system.client.clientId ∧ system.host.displayedCode = system.client.shownCode

/-- **A host and a client that are paired, or are about to be, agree on what about**, in
every state they reach. -/
theorem run_agreement (run : (machine platform read double supports).Run Feasible trace system) :
    Agreement platform read trace system := by
  have hsound := LanClient.run_sound (run_client run)
  have hscanned := LanClient.run_greeted (run_client run)
  have hstaged := LanPeer.run_staged (run_host run)
  refine ⟨fun hpaired => ?_,
    fun socket link session hclient hlink hsession hwaiting hhost hphase => ?_⟩
  · have hfinal : system.client.phase = .paired := hsound.paired.1 hpaired
    have hopen : system.client.client ≠ none := by
      intro hnone
      rcases hsound.lost hnone with hphase | hphase <;>
        exact absurd (hfinal.symm.trans hphase) (by simp)
    have hhello : system.client.helloSent = true := by
      rw [← Bool.not_eq_false]
      intro hfresh
      exact absurd (hfinal.symm.trans (hsound.connecting hopen hfresh)) (by simp)
    obtain ⟨socket, hclient⟩ := Option.ne_none_iff_exists'.1 hopen
    obtain ⟨text, name, qr, hjoined, hdecode, hgreeting⟩ := hscanned.current socket hclient
    obtain ⟨link, hlink, hfingerprint⟩ := run_greeted run socket hclient hhello
    -- The client took `paired`, so the host wrote it.
    obtain ⟨id, hmem⟩ : system.host.Announced link.host := by
      cases (run_framed run socket link hlink).stage hclient with
      | before hunpaired => simp [hpaired] at hunpaired
      | coming hunpaired => simp [hpaired] at hunpaired
      | settled _ hannounced => exact hannounced
    obtain ⟨earlier, step, message, hvisit, haccepts, hcode, hid⟩ :=
      LanPeer.run_paired (run_host run) link.host id hmem
    have hmeant := meant run hlink hfingerprint hgreeting hhello hvisit haccepts hcode
    refine ⟨socket, link, hclient, hlink, ?_, ⟨text, name, qr, earlier, step, message, hjoined,
      hdecode, hvisit, haccepts, hmeant.peerId, hcode.trans hmeant.code, hmeant.code,
      hmeant.nonce, fun hconfigured => ?_⟩, fun hconfigured => ?_⟩
    · rw [← hmeant.peerId, ← hid]
      exact hmem
    · have hverified := (haccepts.presented.authenticated hconfigured).2.2
      rwa [hmeant.peerId, hmeant.nonce, hmeant.context, ← hgreeting.authentication hhello]
        at hverified
    · exact hgreeting.verified hhello hconfigured (hgreeting.proved hpaired hconfigured)
  · obtain ⟨text, name, qr, hjoined, hdecode, hgreeting⟩ := hscanned.current socket hclient
    obtain ⟨hhello, hunpaired⟩ := hsound.open hclient (.inr hphase)
    obtain ⟨link', hlink', hfingerprint⟩ := run_greeted run socket hclient hhello
    obtain rfl := Option.some.inj (hlink'.symm.trans hlink)
    have hnamed : session.id ≠ "" := by
      have hpending := ((hstaged.stage _ session hsession).pending_of_waiting hwaiting).1
      simp only [LanPeer.Session.pending, Bool.and_eq_true, decide_eq_true_eq] at hpending
      exact hpending.1
    obtain ⟨earlier, step, message, hvisit, horigin⟩ :=
      (LanPeer.run_introductions (run_host run)).introduced _ session hsession hnamed
    have hmeant := meant run hlink hfingerprint hgreeting hhello hvisit horigin.accepts horigin.code
    obtain ⟨-, hcode⟩ := horigin.compared hwaiting
    have hid : session.id = system.client.clientId := horigin.id.trans hmeant.peerId
    refine ⟨hid, ?_⟩
    rw [LanPeer.displayedCode, if_pos hhost, LanClient.shownCode, if_pos hphase, hcode, hid,
      hmeant.nonce, hmeant.verification, ← hgreeting.verificationCode hhello hunpaired]

/-- Both show a code, before and after the host approved the device. -/
def comparing : List Action :=
  meeting (.createDeviceOffer "c" 60) ++ [.up 0 .sample, .down 0 .sample]

def approving : List Action :=
  [.host ⟨.confirmDevice, .sample⟩, .down 0 .sample, .up 0 .sample, .down 0 .sample]

theorem comparing_admissible :
    (machine .sample LanClient.sampleRead (fun _ => ['1']) true).Admissible Feasible sample
      comparing := by
  have hidle : ∀ {socket : Socket}, (none : Option Socket) ≠ some socket := nofun
  refine ⟨⟨trivial, fun _ _ _ => hidle⟩, ⟨trivial, fun _ _ _ => hidle⟩,
    ⟨trivial, genuine_join (by decide +kernel), nofun⟩,
    ⟨by decide +kernel, 0, by decide +kernel, by decide +kernel, ?_⟩,
    ⟨?_, genuine_connected (by decide +kernel), nofun⟩, trivial, trivial, trivial⟩
  · exact Option.isNone_iff_eq_none.1 (by decide +kernel)
  · change LanClient.helloSent _ = false
    decide +kernel

theorem approving_admissible (system : LanSystem) :
    (machine .sample LanClient.sampleRead (fun _ => ['1']) true).Admissible Feasible system
      approving :=
  ⟨⟨trivial, fun _ _ _ => nofun⟩, trivial, trivial, trivial, trivial⟩

/-- A device is compared, approved and paired. -/
theorem run_agreement_approved : ∃ trace system trace' after,
    (machine .sample LanClient.sampleRead (fun _ => ['1']) true).Run Feasible trace system ∧
    (system.host.phase = .confirming ∧ system.client.phase = .confirming ∧
      system.host.clients.entries.any (fun entry => entry.2.awaitingApproval) = true) ∧
    Agreement .sample LanClient.sampleRead trace system ∧
    (machine .sample LanClient.sampleRead (fun _ => ['1']) true).Run Feasible trace' after ∧
    after.client.clientPaired = true ∧ Agreement .sample LanClient.sampleRead trace' after := by
  have hstart : (machine .sample LanClient.sampleRead (fun _ => ['1']) true).Run Feasible []
      sample := .start ⟨0, 0, rfl⟩
  obtain ⟨trace, run⟩ := hstart.extend comparing comparing_admissible
  obtain ⟨trace', run'⟩ := run.extend approving (approving_admissible _)
  exact ⟨trace, _, trace', _, run, by decide +kernel, run_agreement run, run',
    by decide +kernel, run_agreement run'⟩

end LanSystem

end ServerHost
