import ServerHost.Relay.Turn

/-!
# The revocation window of the relay

The relay keeps no principal beyond a minute after the authenticator accepted
it.  A message that carries something from one session to another therefore
leaves only while both were verified within the last minute, and a ticket never
outlives that minute.
-/

namespace ServerHost

namespace RelayServer

/-! ## Verified within the minute -/

/-- The sessions whose request, response, ticket, descriptor or success in
pairing a message forwards. -/
def Outgoing.forwards : Outgoing → List Socket
  | .pairing other _ _ status _ => if status = "paired" then other.toList else []
  | message => message.sources

/-- The session was verified at `time`, for no longer than a minute. -/
def VerifiedAt (log : List Entry) (socket : Socket) (time : ℤ) (expires : DateTime) : Prop :=
  ∃ principal, ⟨time, .verified socket principal⟩ ∈ log ∧ principal.expiresAt = expires ∧
    expires ≤ DateTime.addSecs time 60

/-- The session was verified within the minute before `now`. -/
def Recent (log : List Entry) (socket : Socket) (now : ℤ) : Prop :=
  ∃ time expires, VerifiedAt log socket time expires ∧ now - 60000 < time ∧ time ≤ now

/-- The ticket runs out within a minute of a verification of each side. -/
def Bounds (log : List Entry) (first second : Socket) (now : ℤ) (expires : DateTime) : Prop :=
  ∀ socket, socket = first ∨ socket = second → ∃ time own, VerifiedAt log socket time own ∧
    time ≤ now ∧ expires ≤ own

/-- Whatever a message forwards, both sides were verified within the minute. -/
def Fresh (entry : Entry) (earlier : List Entry) : Prop :=
  ∀ socket message, entry.event = .sent socket message →
    (∀ source ∈ message.forwards, Recent earlier socket entry.time ∧
      Recent earlier source entry.time) ∧
    ∀ client token peerId expires, message = .ticket client token peerId expires →
      Bounds earlier client socket entry.time expires

/-- The principals kept are those recorded, and nothing is recorded in the future. -/
structure Dated (relay : RelayServer) : Prop where
  past : ∀ entry ∈ relay.log, entry.time ≤ relay.now
  bounded : Table.All (fun socket session => session.principal.expiresAt = ⊥ ∨
    ∃ time, VerifiedAt relay.log socket time session.principal.expiresAt) relay.sessions
  fresh : Always Fresh relay.log

variable {platform : Platform} {pre : RelayServer} {step : Step} {relay after : RelayServer}

theorem VerifiedAt.mono {log more : List Entry} {socket : Socket} {time : ℤ} {expires : DateTime}
    (h : VerifiedAt log socket time expires) (hsub : log ⊆ more) :
    VerifiedAt more socket time expires := by
  obtain ⟨principal, hmem, hrest⟩ := h
  exact ⟨principal, hsub hmem, hrest⟩

theorem Recent.mono {log more : List Entry} {socket : Socket} {now : ℤ}
    (h : Recent log socket now) (hsub : log ⊆ more) : Recent more socket now := by
  obtain ⟨time, expires, hverified, hwindow⟩ := h
  exact ⟨time, expires, hverified.mono hsub, hwindow⟩

theorem Dated.verifiedAt (h : Dated relay) {socket : Socket} {session : Session}
    (hsession : relay.sessions.lookup socket = some session)
    (hlive : live relay.now session.principal = true) :
    ∃ time, VerifiedAt relay.log socket time session.principal.expiresAt ∧ time ≤ relay.now := by
  have hexpires := live_expiresAt hlive
  rcases h.bounded socket session hsession with hnone | ⟨time, hverified⟩
  · rw [hnone] at hexpires
    exact absurd hexpires not_lt_bot
  · obtain ⟨principal, hmem, -⟩ := id hverified
    exact ⟨time, hverified, h.past _ hmem⟩

/-- A live session was verified within the last minute. -/
theorem Dated.recent (h : Dated relay) {socket : Socket} (hactive : relay.active socket = true) :
    Recent relay.log socket relay.now := by
  obtain ⟨session, hsession, hlive⟩ := active_iff.1 hactive
  obtain ⟨time, hverified, hpast⟩ := h.verifiedAt hsession hlive
  obtain ⟨principal, -, -, hminute⟩ := id hverified
  have hexpires := lt_of_lt_of_le (live_expiresAt hlive) hminute
  rw [DateTime.addSecs_coe, WithBot.coe_lt_coe] at hexpires
  exact ⟨time, _, hverified, by omega, hpast⟩

theorem Dated.recent_of_meets (h : Dated relay) {caller other : Socket}
    (hmeets : relay.Meets caller other) :
    Recent relay.log caller relay.now ∧ Recent relay.log other relay.now := by
  obtain ⟨hactive, -, id, htarget⟩ := hmeets
  obtain ⟨-, session, hsession, hreaches⟩ := target_spec htarget
  exact ⟨h.recent hactive,
    h.recent (active_iff.2 ⟨session, hsession, (reaches_iff.1 hreaches).2.1⟩)⟩

theorem Dated.bounds_of_meets (h : Dated relay) {client host : Socket}
    (hmeets : relay.Meets client host) :
    Bounds relay.log client host relay.now (min (relay.session client).principal.expiresAt
      (relay.session host).principal.expiresAt) := by
  obtain ⟨hactive, -, id, htarget⟩ := hmeets
  obtain ⟨-, own, hown, hreaches⟩ := target_spec htarget
  obtain ⟨caller, hcaller, hlive⟩ := active_iff.1 hactive
  rw [session_of_lookup hcaller, session_of_lookup hown]
  rintro socket (rfl | rfl)
  · obtain ⟨time, hverified, hpast⟩ := h.verifiedAt hcaller hlive
    exact ⟨time, _, hverified, hpast, min_le_left ..⟩
  · obtain ⟨time, hverified, hpast⟩ := h.verifiedAt hown (reaches_iff.1 hreaches).2.1
    exact ⟨time, _, hverified, hpast, min_le_right ..⟩

/-! ## What keeps the dates -/

theorem Dated.frame (h : Dated relay) (hsub : relay.log ⊆ after.log)
    (hpast : ∀ entry ∈ after.log, entry.time ≤ after.now)
    (hsessions : ∀ socket session, after.sessions.lookup socket = some session →
      relay.sessions.lookup socket = some session)
    (hfresh : Always Fresh after.log) : Dated after where
  past := hpast
  bounded socket session hsession :=
    (h.bounded socket session (hsessions socket session hsession)).imp_right
      fun ⟨time, hverified⟩ => ⟨time, hverified.mono hsub⟩
  fresh := hfresh

theorem Dated.still (h : Dated relay) (hlog : after.log = relay.log) (hnow : relay.now ≤ after.now)
    (hsessions : ∀ socket session, after.sessions.lookup socket = some session →
      relay.sessions.lookup socket = some session) : Dated after :=
  h.frame (by rw [hlog]; exact List.Subset.refl _)
    (by rw [hlog]; exact fun entry hentry => (h.past entry hentry).trans hnow) hsessions
    (by rw [hlog]; exact h.fresh)

theorem Dated.emit (h : Dated relay) {event : Event}
    (hfresh : Fresh ⟨relay.now, event⟩ relay.log) : Dated (relay.emit event) := by
  refine h.frame (List.subset_cons_self ..) ?_ (fun _ _ => id) (h.fresh.cons hfresh)
  intro entry hentry
  rcases List.mem_cons.1 hentry with rfl | hold
  · exact le_rfl
  · exact h.past entry hold

theorem fresh_of_not_sent {event : Event} {log : List Entry} {time : ℤ}
    (h : ∀ socket message, event ≠ .sent socket message) : Fresh ⟨time, event⟩ log :=
  fun socket message heq => absurd heq (h socket message)

theorem Dated.close (h : Dated relay) (socket : Socket) : Dated (relay.close socket) := by
  have hclosing : Dated { relay with closing := socket :: relay.closing } :=
    h.still rfl le_rfl fun _ _ => id
  refine hclosing.emit ?_
  exact fresh_of_not_sent (by simp)

theorem Dated.transmit (h : Dated relay) (full : Socket → Outgoing → Bool) {socket : Socket}
    {message : Outgoing} (hfresh : Fresh ⟨relay.now, .sent socket message⟩ relay.log) :
    Dated (RelayServer.transmit full socket message relay) := by
  unfold RelayServer.transmit
  split
  · exact h
  · split
    · exact h.close socket
    · exact h.emit hfresh

theorem log_subset_transmit (full : Socket → Outgoing → Bool) (socket : Socket)
    (message : Outgoing) (relay : RelayServer) :
    relay.log ⊆ (RelayServer.transmit full socket message relay).log := by
  unfold RelayServer.transmit
  split
  · exact List.Subset.refl _
  · split <;> exact List.subset_cons_self ..

/-- A message that forwards nothing. -/
theorem fresh_of_plain {log : List Entry} {time : ℤ} {socket : Socket} {message : Outgoing}
    (hforwards : message.forwards = [])
    (hticket : ∀ client token peerId expires, message ≠ .ticket client token peerId expires) :
    Fresh ⟨time, .sent socket message⟩ log := by
  intro other own heq
  simp only [Event.sent.injEq] at heq
  obtain ⟨rfl, rfl⟩ := heq
  refine ⟨fun source hsource => ?_, fun client token peerId expires hmessage =>
    absurd hmessage (hticket client token peerId expires)⟩
  rw [hforwards] at hsource
  simp at hsource

theorem fresh_of_recent {log : List Entry} {time : ℤ} {socket : Socket} {message : Outgoing}
    (source : Socket)
    (hforwards : ∀ other ∈ message.forwards, other = source)
    (hsocket : Recent log socket time) (hsource : Recent log source time)
    (hticket : ∀ client token peerId expires, message ≠ .ticket client token peerId expires) :
    Fresh ⟨time, .sent socket message⟩ log := by
  intro other own heq
  simp only [Event.sent.injEq] at heq
  obtain ⟨rfl, rfl⟩ := heq
  refine ⟨fun other hother => ⟨hsocket, ?_⟩, fun client token peerId expires hmessage =>
    absurd hmessage (hticket client token peerId expires)⟩
  rw [hforwards other hother]
  exact hsource

theorem Dated.sendable_fresh (h : Dated relay) {socket : Socket} {message : Outgoing}
    (hsendable : relay.Sendable socket message) :
    Fresh ⟨relay.now, .sent socket message⟩ relay.log := by
  cases message with
  | peers entries =>
      intro other own heq
      simp only [Event.sent.injEq] at heq
      obtain ⟨rfl, rfl⟩ := heq
      obtain ⟨hactive, hid, hentries⟩ := hsendable
      refine ⟨fun source hsource => ?_, fun _ _ _ _ hmessage => by cases hmessage⟩
      obtain ⟨entry, hentry, rfl⟩ := List.mem_map.1 hsource
      obtain ⟨session, hsession, hreaches, -⟩ := hentries entry hentry
      exact ⟨h.recent hactive,
        h.recent (active_iff.2 ⟨session, hsession, (reaches_iff.1 hreaches).2.1⟩)⟩
  | connect host peerId token descriptor expires =>
      -- `Meets` was checked in this turn, so both verifications are recent.
      obtain ⟨hsocket, hhost⟩ := h.recent_of_meets hsendable.1
      exact fresh_of_recent host (by simp [Outgoing.forwards, Outgoing.sources])
        hsocket hhost (by simp)
  | ticket client token peerId expires =>
      obtain ⟨hmeets, -, hexpires⟩ := hsendable
      obtain ⟨hclient, hsocket⟩ := h.recent_of_meets hmeets
      intro other own heq
      simp only [Event.sent.injEq] at heq
      obtain ⟨rfl, rfl⟩ := heq
      refine ⟨fun source hsource => ?_, fun _ _ _ _ hmessage => ?_⟩
      · simp only [Outgoing.forwards, Outgoing.sources, List.mem_singleton] at hsource
        exact ⟨hsocket, hsource ▸ hclient⟩
      · cases hmessage
        rw [hexpires]
        exact h.bounds_of_meets hmeets
  | request client route peerId payload => exact hsendable.elim
  | response host id result =>
      obtain rfl : host = none := hsendable
      exact fresh_of_plain rfl (by simp)
  | pairing other subject id status data =>
      -- Only a `paired` notice forwards anything, and `finishPair` sends that one.
      refine fresh_of_plain ?_ (by simp)
      rw [Outgoing.forwards, if_neg]
      rintro rfl
      obtain _ | other := other
      · rcases hsendable with ⟨-, hstatus⟩ | ⟨issue, expires, -, hstatus, -⟩ <;> simp at hstatus
      · obtain _ | issue | key := subject
        · exact hsendable.elim
        · exact hsendable.elim
        · exact absurd hsendable.1 (by simp)
  | _ => exact fresh_of_plain rfl (by simp)

/-! ## What `finishPair` tells -/

theorem Dated.finishPair (h : Dated relay) (full : Socket → Outgoing → Bool) {key status : String}
    {pair : Pair} (hpair : relay.pairs.lookup key = some pair)
    (hpaired : status = "paired" →
      Recent relay.log pair.host relay.now ∧ Recent relay.log pair.client relay.now) :
    Dated (relay.finishPair (RelayServer.transmit full) key status) := by
  have herased : Dated { relay with pairs := relay.pairs.erase key } :=
    h.still rfl le_rfl fun _ _ => id
  have hsettled : Dated ({ relay with pairs := relay.pairs.erase key }.emit
      (.settled (.pair key) status)) := herased.emit (fresh_of_not_sent (by simp))
  have hsend : ∀ (state : RelayServer) socket other id data, Dated state →
      relay.log ⊆ state.log → state.now = relay.now →
      ((socket = pair.host ∧ other = pair.client) ∨ (socket = pair.client ∧ other = pair.host)) →
      Dated (RelayServer.transmit full socket
        (.pairing (some other) (some (.pair key)) id status data) state) := by
    intro state socket other id data hstate hsub hnow hside
    refine hstate.transmit full ?_
    by_cases hstatus : status = "paired"
    · obtain ⟨hhost, hclient⟩ := hpaired hstatus
      rw [hnow]
      rcases hside with ⟨rfl, rfl⟩ | ⟨rfl, rfl⟩
      · exact fresh_of_recent pair.client (by simp [Outgoing.forwards, hstatus])
          (hhost.mono hsub) (hclient.mono hsub) (by simp)
      · exact fresh_of_recent pair.host (by simp [Outgoing.forwards, hstatus])
          (hclient.mono hsub) (hhost.mono hsub) (by simp)
    · exact fresh_of_plain (by simp [Outgoing.forwards, hstatus]) (by simp)
  have hsub : relay.log ⊆ ({ relay with pairs := relay.pairs.erase key }.emit
      (.settled (.pair key) status)).log := List.subset_cons_self ..
  have hnow : ({ relay with pairs := relay.pairs.erase key }.emit
      (.settled (.pair key) status)).now = relay.now := rfl
  unfold RelayServer.finishPair
  rw [hpair]
  generalize { relay with pairs := relay.pairs.erase key }.emit
    (.settled (.pair key) status) = settled at *
  dsimp only
  split <;> split
  · refine hsend _ _ _ _ _ (hsend _ _ _ _ _ hsettled hsub hnow (.inl ⟨rfl, rfl⟩)) ?_ ?_
      (.inr ⟨rfl, rfl⟩)
    · exact List.Subset.trans hsub (log_subset_transmit ..)
    · rw [transmit_now, hnow]
  · exact hsend _ _ _ _ _ hsettled hsub hnow (.inl ⟨rfl, rfl⟩)
  · exact hsend _ _ _ _ _ hsettled hsub hnow (.inr ⟨rfl, rfl⟩)
  · exact hsettled

/-- The clock does not run backwards in this step. -/
def Ahead (relay : RelayServer) (step : Step) : Prop :=
  ∀ time, step.input = .clock time → relay.now ≤ time

def Timely (relay : RelayServer) (step : Step) : Prop := relay.Feasible step ∧ relay.Ahead step

/-! ## The run -/

theorem Dated.change (h : Dated relay) (hahead : pre.Ahead step)
    (change : Change platform pre step relay after) : Dated after := by
  cases change with
  | clock time hinput hpre =>
      subst hpre
      exact h.still rfl (hahead time hinput) fun _ _ => id
  | welcome =>
      refine ⟨h.past, h.bounded.insert (.inl rfl), h.fresh⟩
  | refuse =>
      have hclosed := h.close relay.sockets
      exact hclosed.still rfl le_rfl fun _ _ => id
  | close socket => exact h.close socket
  | ask socket credential => exact h.emit (fresh_of_not_sent (by simp))
  | touch socket f hkeeps =>
      refine ⟨h.past, h.bounded.modify fun session hsession => ?_, h.fresh⟩
      rw [(hkeeps session).1]
      exact h.bounded socket session hsession
  | @verify socket principal state hinput hstate hlive hpin =>
      -- `min` keeps the principal within 60 s of now.
      constructor
      case past =>
        intro entry hentry
        rcases List.mem_cons.1 hentry with rfl | hold
        · exact le_rfl
        · exact h.past entry hold
      case bounded =>
        intro other session hsession
        rcases Table.lookup_modify_eq_some.1 hsession with ⟨rfl, old, -, rfl⟩ | ⟨-, hold⟩
        · exact .inr ⟨relay.now, _, List.mem_cons_self, rfl, min_le_right ..⟩
        · exact (h.bounded other session hold).imp_right
            fun ⟨time, hverified⟩ => ⟨time, hverified.mono (List.subset_cons_self ..)⟩
      case fresh => exact h.fresh.cons (fresh_of_not_sent (by simp))
  | @reject socket principal state hinput hstate hunpaired =>
      have hcleared : Dated (relay.update socket fun session => { session with principal := {} }) :=
        ⟨h.past, h.bounded.modify fun session _ => .inl rfl, h.fresh⟩
      have hrejected : Dated ((relay.update socket fun session =>
          { session with principal := {} }).emit (.rejected socket)) :=
        hcleared.emit (fresh_of_not_sent (by simp))
      exact (hrejected.transmit step.full (fresh_of_plain rfl (by simp))).close socket
  | @register socket message state id service =>
      have hwritten : Dated (relay.update socket fun session => { session with
          id := id, service := service, name := (message.value "name").toString,
          descriptor := descriptorOf platform id service message }) :=
        ⟨h.past, h.bounded.modify fun session hsession => h.bounded socket session hsession,
          h.fresh⟩
      exact hwritten.emit (fresh_of_not_sent (by simp))
  | send hsendable => exact h.transmit step.full (h.sendable_fresh hsendable)
  | @issue socket message state id =>
      have hoffered : Dated { relay with
          offers := relay.offers.insert
            (platform.sha256 (toLatin1 (platform.random relay.randoms).text))
            ⟨socket, id, min (DateTime.addSecs relay.now 60) state.principal.expiresAt,
              relay.randoms⟩
          randoms := relay.randoms + 1 } := h.still rfl le_rfl fun _ _ => (·)
      exact hoffered.emit (fresh_of_not_sent (by simp))
  | @claim client hash offer id =>
      have hpaired : Dated { relay with
          offers := relay.offers.erase hash
          pairs := relay.pairs.insert (platform.uuid relay.uuids) ⟨offer.host, client,
            offer.request, id, min (DateTime.addSecs relay.now 15) offer.expires⟩
          uuids := relay.uuids + 1 } := h.still rfl le_rfl fun _ _ => (·)
      refine Dated.emit (hpaired.emit ?_) ?_
      · exact fresh_of_not_sent (by simp)
      · exact fresh_of_not_sent (by simp)
  | @withdraw hash status offer hoffer hstatus =>
      have herased : Dated { relay with offers := relay.offers.erase hash } :=
        h.still rfl le_rfl fun _ _ => id
      have hsettled : Dated ({ relay with offers := relay.offers.erase hash }.emit
          (.settled (.offer offer.issue) status)) := herased.emit (fresh_of_not_sent (by simp))
      refine hsettled.transmit step.full (fresh_of_plain ?_ (by simp))
      rcases hstatus with rfl | rfl <;> rfl
  | @finish key status pair hpair hstatus =>
      -- Only `paired` discloses anything, and a confirmation needs both sessions active.
      refine h.finishPair step.full hpair ?_
      rintro rfl
      obtain ⟨-, rfl, hconfirms⟩ := hstatus.resolve_left (by simp) |>.resolve_left (by simp)
      exact ⟨h.recent hconfirms.host_active, h.recent hconfirms.client_active⟩
  | @route client host message id hinput hpre hmeets =>
      obtain ⟨hclient, hhost⟩ := h.recent_of_meets hmeets
      have hrouted : Dated { relay with
          routes := relay.routes.insert (platform.uuid relay.uuids)
            ⟨client, host, id, DateTime.addSecs relay.now 15⟩
          uuids := relay.uuids + 1 } := h.still rfl le_rfl fun _ _ => (·)
      have hnoted : Dated ({ relay with
          routes := relay.routes.insert (platform.uuid relay.uuids)
            ⟨client, host, id, DateTime.addSecs relay.now 15⟩
          uuids := relay.uuids + 1 }.emit (.routed (platform.uuid relay.uuids) client host id)) :=
        hrouted.emit (fresh_of_not_sent (by simp))
      exact hnoted.transmit step.full (fresh_of_recent client (by simp [Outgoing.forwards,
        Outgoing.sources]) (hhost.mono (List.subset_cons_self ..))
        (hclient.mono (List.subset_cons_self ..)) (by simp))
  | @answer message key route hinput hpre hroute hhost hclient =>
      have herased : Dated { relay with routes := relay.routes.erase key } :=
        h.still rfl le_rfl fun _ _ => id
      exact herased.transmit step.full (fresh_of_recent route.host (by simp [Outgoing.forwards,
        Outgoing.sources]) (h.recent hclient) (h.recent hhost) (by simp))
  | forget => exact h.still rfl le_rfl fun _ _ hold => (Table.lookup_erase_eq_some.1 hold).2
  | stop => exact ⟨h.past, .empty _, h.fresh⟩
  | rehash hsessions =>
      exact h.still rfl le_rfl fun socket session hold => (hsessions.lookup socket).trans hold
  | _ => exact h.still rfl le_rfl fun _ _ => id

theorem dated_next (h : Dated relay) (htimely : relay.Timely step) :
    Dated (next platform relay step) :=
  (next_changes platform htimely.1).invariant (fun _ _ change hstate =>
    hstate.change htimely.2 change) h

/-- **The relay forwards only between sessions verified in the last minute.** -/
theorem run_dated {trace : List (RelayServer × Step)}
    (run : (machine platform).Run Timely trace relay) : Dated relay := by
  refine run.invariant_state ?_ fun state input h htimely => dated_next h htimely
  rintro state ⟨time, rfl⟩
  exact ⟨by simp, .empty _, .nil⟩

end RelayServer

end ServerHost
