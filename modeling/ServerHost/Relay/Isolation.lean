import ServerHost.Relay.Ledger

/-!
# The relay keeps accounts and services apart

Whatever the relay sends a session on behalf of another one, the two were last
verified for the same account and last registered the same service.

A session that never failed an authentication keeps its account, so what was
true of a route or a pair when it was made stays true.  A session that failed one
was closed on the spot, has no offers or pairs left, and speaks no more.
-/

namespace ServerHost

namespace RelayServer

/-! ## Two sessions of one account -/

/-- Two sessions of one account and one service. -/
def Together (records : List Record) (first second : Socket) : Prop :=
  ∃ accountId service, accountId ≠ "" ∧
    lastAccount records first = some accountId ∧ lastAccount records second = some accountId ∧
    lastService records first = some service ∧ lastService records second = some service

theorem Together.symm {records : List Record} {first second : Socket}
    (h : Together records first second) : Together records second first := by
  obtain ⟨accountId, service, hne, h₁, h₂, h₃, h₄⟩ := h
  exact ⟨accountId, service, hne, h₂, h₁, h₄, h₃⟩

/-- Data of other sessions goes only to sessions of their account and service. -/
def SentTogether (entry : Entry) (earlier : List Entry) : Prop :=
  ∀ socket message, entry.event = .sent socket message →
    ∀ source ∈ message.sources, Together (book earlier) socket source

section
variable {relay : RelayServer} (h : Ledger relay)
include h

/-- Sessions with equal accounts and services are together. -/
theorem Ledger.together {first second : Socket} {one two : Session}
    (hone : relay.sessions.lookup first = some one) (htwo : relay.sessions.lookup second = some two)
    (haccount : one.principal.accountId ≠ "") (hid : one.id ≠ "")
    (haccounts : two.principal.accountId = one.principal.accountId)
    (hservices : two.service = one.service) : Together (book relay.log) first second := by
  have hservice : one.service ≠ "" := fun hempty => hid (h.named first one hone hempty).1
  have hlast : ∀ socket session, relay.sessions.lookup socket = some session →
      session.service = one.service → lastService (book relay.log) socket = some one.service := by
    intro socket session hsession heq
    have hmem := (h.service_stored socket session hsession one.service).2 ⟨heq.symm, hservice⟩
    obtain ⟨last, hfound⟩ := exists_lastService hmem
    rw [hfound, h.service_pinned socket last one.service (lastService_mem hfound) hmem]
  refine ⟨one.principal.accountId, one.service, haccount, h.account_stored first one hone haccount,
    ?_, hlast first one hone rfl, hlast second two htwo hservices⟩
  rw [← haccounts]
  exact h.account_stored second two htwo (haccounts ▸ haccount)

theorem Ledger.together_of_reaches {source other : Socket} {session : Session} {id : String}
    (hactive : relay.active source = true) (hid : (relay.session source).id ≠ "")
    (hother : relay.sessions.lookup other = some session)
    (hreaches : reaches relay.now (relay.session source) id session = true) :
    Together (book relay.log) source other := by
  obtain ⟨own, hown, hlive⟩ := active_iff.1 hactive
  rw [session_of_lookup hown] at hid hreaches
  obtain ⟨-, -, -, haccount, hservice⟩ := reaches_iff.1 hreaches
  exact h.together hown hother (live_accountId hlive) hid haccount hservice

theorem Ledger.together_of_meets {caller other : Socket} (hmeets : relay.Meets caller other) :
    Together (book relay.log) caller other := by
  obtain ⟨hactive, hid, id, htarget⟩ := hmeets
  obtain ⟨-, session, hsession, hreaches⟩ := target_spec htarget
  exact h.together_of_reaches hactive hid hsession hreaches

end

/-- One account and one service were at some time recorded for both sessions. -/
def Shared (records : List Record) (first second : Socket) : Prop :=
  ∃ accountId service, .verified first accountId ∈ records ∧ .verified second accountId ∈ records ∧
    .registered first service ∈ records ∧ .registered second service ∈ records

theorem Shared.mono {records more : List Record} {first second : Socket}
    (h : Shared records first second) (hsub : records ⊆ more) : Shared more first second := by
  obtain ⟨accountId, service, h₁, h₂, h₃, h₄⟩ := h
  exact ⟨accountId, service, hsub h₁, hsub h₂, hsub h₃, hsub h₄⟩

theorem Together.shared {records : List Record} {first second : Socket}
    (h : Together records first second) : Shared records first second := by
  obtain ⟨accountId, service, -, h₁, h₂, h₃, h₄⟩ := h
  exact ⟨accountId, service, lastAccount_mem h₁, lastAccount_mem h₂, lastService_mem h₃,
    lastService_mem h₄⟩

/-- What was shared once is still shared by sessions that never failed an
authentication. -/
theorem Ledger.together_of_shared {relay : RelayServer} (h : Ledger relay) {first second : Socket}
    (hshared : Shared (book relay.log) first second)
    (hfirst : .rejected first ∉ book relay.log) (hsecond : .rejected second ∉ book relay.log) :
    Together (book relay.log) first second := by
  obtain ⟨accountId, service, h₁, h₂, h₃, h₄⟩ := hshared
  have haccount : ∀ socket, .verified socket accountId ∈ book relay.log →
      .rejected socket ∉ book relay.log →
        lastAccount (book relay.log) socket = some accountId := by
    intro socket hmem hkept
    obtain ⟨last, hlast⟩ := exists_lastAccount hmem
    rw [hlast, (h.account_pinned socket last accountId (lastAccount_mem hlast) hmem).resolve_right
      hkept]
  have hservice : ∀ socket, .registered socket service ∈ book relay.log →
      lastService (book relay.log) socket = some service := by
    intro socket hmem
    obtain ⟨last, hlast⟩ := exists_lastService hmem
    rw [hlast, h.service_pinned socket last service (lastService_mem hlast) hmem]
  exact ⟨accountId, service, h.account_ne _ _ h₁, haccount _ h₁ hfirst, haccount _ h₂ hsecond,
    hservice _ h₃, hservice _ h₄⟩

/-! ## What the tables still hold -/

/-- What the book says of everything stored and sent. -/
structure Isolated (relay : RelayServer) : Prop where
  routes : Table.All (fun _ route => Shared (book relay.log) route.client route.host) relay.routes
  pairs : Table.All (fun _ pair => Shared (book relay.log) pair.host pair.client ∧
    .rejected pair.host ∉ book relay.log ∧ .rejected pair.client ∉ book relay.log) relay.pairs
  offers : Table.All (fun _ offer => .rejected offer.host ∉ book relay.log) relay.offers
  sent : Always SentTogether relay.log

theorem sent_emit {relay : RelayServer} {event : Event} (h : Always SentTogether relay.log)
    (hevent : ∀ socket message, event ≠ .sent socket message) :
    Always SentTogether (relay.emit event).log :=
  h.cons fun socket message heq => absurd heq (hevent socket message)

theorem sent_transmit {full : Socket → Outgoing → Bool} {relay : RelayServer} {socket : Socket}
    {message : Outgoing} (h : Always SentTogether relay.log)
    (htogether : socket ∉ relay.closing →
      ∀ source ∈ message.sources, Together (book relay.log) socket source) :
    Always SentTogether (transmit full socket message relay).log := by
  unfold transmit
  split
  · exact h
  · next hopen =>
      split
      · exact sent_emit (by exact h) (by simp)
      · refine h.cons ?_
        intro other own heq
        simp only [Event.sent.injEq] at heq
        obtain ⟨rfl, rfl⟩ := heq
        exact htogether (not_or.1 hopen).1

section
variable {relay after : RelayServer}

/-- Nothing new is stored, and what is sent is checked separately. -/
theorem Isolated.frame (h : Isolated relay) (hbook : book after.log = book relay.log)
    (hroutes : ∀ key route, after.routes.lookup key = some route →
      relay.routes.lookup key = some route)
    (hpairs : ∀ key pair, after.pairs.lookup key = some pair → relay.pairs.lookup key = some pair)
    (hoffers : ∀ hash offer, after.offers.lookup hash = some offer →
      relay.offers.lookup hash = some offer)
    (hsent : Always SentTogether after.log) : Isolated after where
  routes key route hroute := by
    rw [hbook]
    exact h.routes key route (hroutes key route hroute)
  pairs key pair hpair := by
    rw [hbook]
    exact h.pairs key pair (hpairs key pair hpair)
  offers hash offer hoffer := by
    rw [hbook]
    exact h.offers hash offer (hoffers hash offer hoffer)
  sent := hsent

/-- Nothing about the tables changes, or only their order. -/
theorem Isolated.still (h : Isolated relay) (hlog : after.log = relay.log)
    (hroutes : Table.Same relay.routes after.routes) (hpairs : Table.Same relay.pairs after.pairs)
    (hoffers : Table.Same relay.offers after.offers) : Isolated after := by
  refine h.frame (by rw [hlog]) ?_ ?_ ?_ (by rw [hlog]; exact h.sent)
  · exact fun key route hroute => (hroutes.lookup key).trans hroute
  · exact fun key pair hpair => (hpairs.lookup key).trans hpair
  · exact fun hash offer hoffer => (hoffers.lookup hash).trans hoffer

/-- The book grew by a record that is no failed authentication. -/
theorem Isolated.grow (h : Isolated relay) (record : Record)
    (hbook : book after.log = record :: book relay.log)
    (hrecord : ∀ socket, record ≠ .rejected socket) (hroutes : after.routes = relay.routes)
    (hpairs : after.pairs = relay.pairs) (hoffers : after.offers = relay.offers)
    (hsent : Always SentTogether after.log) : Isolated after where
  routes := by
    rw [hbook, hroutes]
    exact h.routes.imp fun _ _ _ hshared => hshared.mono (List.subset_cons_self ..)
  pairs := by
    rw [hbook, hpairs]
    refine h.pairs.imp fun _ pair _ hpair => ⟨hpair.1.mono (List.subset_cons_self ..), ?_, ?_⟩
    · simpa [(hrecord _).symm] using hpair.2.1
    · simpa [(hrecord _).symm] using hpair.2.2
  offers := by
    rw [hbook, hoffers]
    exact h.offers.imp fun _ offer _ hoffer => by simpa [(hrecord _).symm] using hoffer
  sent := hsent

theorem Isolated.pair_together (h : Isolated relay) (hledger : Ledger relay) {key : String}
    {pair : Pair} (hpair : relay.pairs.lookup key = some pair) :
    Together (book relay.log) pair.host pair.client := by
  obtain ⟨hshared, hhost, hclient⟩ := h.pairs key pair hpair
  exact hledger.together_of_shared hshared hhost hclient

/-- What may be sent at all may be sent to this session. -/
theorem Isolated.sendable_together (h : Isolated relay) (hledger : Ledger relay)
    {socket : Socket} {message : Outgoing} (hsendable : relay.Sendable socket message) :
    ∀ source ∈ message.sources, Together (book relay.log) socket source := by
  intro source hsource
  cases message with
  | peers entries =>
      obtain ⟨hactive, hid, hentries⟩ := hsendable
      obtain ⟨entry, hentry, rfl⟩ := List.mem_map.1 hsource
      obtain ⟨other, hother, hreaches, -⟩ := hentries entry hentry
      exact hledger.together_of_reaches hactive hid hother hreaches
  | connect host peerId token descriptor expires =>
      simp only [Outgoing.sources, List.mem_singleton] at hsource
      exact hsource ▸ hledger.together_of_meets hsendable.1
  | ticket client token peerId expires =>
      simp only [Outgoing.sources, List.mem_singleton] at hsource
      exact hsource ▸ (hledger.together_of_meets hsendable.1).symm
  | request client route peerId payload => exact hsendable.elim
  | response host id result =>
      obtain rfl : host = none := hsendable
      simp [Outgoing.sources] at hsource
  | pairing other subject id status data =>
      cases other with
      | none => simp [Outgoing.sources] at hsource
      | some other =>
          obtain rfl : source = other := by simpa [Outgoing.sources] using hsource
          cases subject with
          | none => exact hsendable.elim
          | some subject =>
              cases subject with
              -- a message about an offer names no other session
              | offer issue => exact hsendable.elim
              | pair key =>
                  obtain ⟨-, pair, hpair, ⟨rfl, rfl⟩ | ⟨rfl, rfl⟩⟩ := hsendable
                  · exact h.pair_together hledger hpair
                  · exact (h.pair_together hledger hpair).symm
  | _ => simp [Outgoing.sources] at hsource

theorem Isolated.transmit (h : Isolated relay) (full : Socket → Outgoing → Bool) {socket : Socket}
    {message : Outgoing} (htogether : socket ∉ relay.closing →
      ∀ source ∈ message.sources, Together (book relay.log) socket source) :
    Isolated (RelayServer.transmit full socket message relay) := by
  refine h.frame (book_transmit ..) ?_ ?_ ?_ (sent_transmit h.sent htogether)
  · simp
  · simp
  · simp

/-- An event that is neither sent nor a write to a session. -/
theorem Isolated.emit (h : Isolated relay) {event : Event} (hrecord : event.record = none)
    (hevent : ∀ socket message, event ≠ .sent socket message) :
    Isolated (relay.emit event) :=
  h.frame (by simp [hrecord]) (fun _ _ => id) (fun _ _ => id) (fun _ _ => id)
    (sent_emit h.sent hevent)

theorem Isolated.close (h : Isolated relay) (socket : Socket) : Isolated (relay.close socket) :=
  h.frame (book_close ..) (fun _ _ => id) (fun _ _ => id) (fun _ _ => id)
    (sent_emit (by exact h.sent) (by simp))

theorem Isolated.withdrawOffer (h : Isolated relay) (full : Socket → Outgoing → Bool)
    (hash status : String) (offer : Offer) :
    Isolated (relay.withdrawOffer (RelayServer.transmit full) hash status offer) := by
  unfold RelayServer.withdrawOffer
  refine Isolated.transmit (Isolated.emit ?_ rfl (by simp)) full (by simp [Outgoing.sources])
  exact h.frame rfl (fun _ _ => id) (fun _ _ => id)
    (fun _ _ hoffer => (Table.lookup_erase_eq_some.1 hoffer).2) h.sent

theorem Isolated.finishPair (h : Isolated relay) (hledger : Ledger relay)
    (full : Socket → Outgoing → Bool) (key status : String) :
    Isolated (relay.finishPair (RelayServer.transmit full) key status) := by
  unfold RelayServer.finishPair
  cases hpair : relay.pairs.lookup key with
  | none => exact h
  | some pair =>
      have htogether := h.pair_together hledger hpair
      have herased : Isolated { relay with pairs := relay.pairs.erase key } :=
        h.frame rfl (fun _ _ => id)
          (fun _ _ hlookup => (Table.lookup_erase_eq_some.1 hlookup).2) (fun _ _ => id) h.sent
      have hsettled : Isolated
          ({ relay with pairs := relay.pairs.erase key }.emit (.settled (.pair key) status)) := by
        refine herased.emit rfl ?_
        simp
      -- settling the pair writes nothing into the book
      have hbook : book ({ relay with pairs := relay.pairs.erase key }.emit
          (.settled (.pair key) status)).log = book relay.log := by
        simp [Event.record]
      generalize { relay with pairs := relay.pairs.erase key }.emit
        (.settled (.pair key) status) = settled at *
      have hhost : ∀ data, Isolated (RelayServer.transmit full pair.host (.pairing
          (some pair.client) (some (.pair key)) pair.hostRequest status data) settled) := by
        intro data
        refine hsettled.transmit full fun _ source hsource => ?_
        obtain rfl : source = pair.client := by simpa [Outgoing.sources] using hsource
        rw [hbook]
        exact htogether
      have hclient : ∀ (state : RelayServer) data, Isolated state →
          book state.log = book relay.log → Isolated (RelayServer.transmit full pair.client
            (.pairing (some pair.host) (some (.pair key)) pair.clientRequest status data)
              state) := by
        intro state data hstate hsame
        refine hstate.transmit full fun _ source hsource => ?_
        obtain rfl : source = pair.host := by simpa [Outgoing.sources] using hsource
        rw [hsame]
        exact htogether.symm
      dsimp only
      split <;> split
      · exact hclient _ _ (hhost _) (by rw [book_transmit, hbook])
      · exact hhost _
      · exact hclient _ _ hsettled hbook
      · exact hsettled

/-- A session that fails an authentication has nothing stored to betray. -/
theorem Isolated.reject (h : Isolated relay) (full : Socket → Outgoing → Bool) {socket : Socket}
    (hunpaired : relay.Unpaired socket) :
    Isolated ((RelayServer.transmit full socket (.error "unauthenticated")
      ((relay.update socket fun session => { session with principal := {} }).emit
        (.rejected socket))).close socket) := by
  refine Isolated.close (Isolated.transmit ?_ full (by simp [Outgoing.sources])) socket
  have hbook : book ((relay.update socket fun session => { session with principal := {} }).emit
      (.rejected socket)).log = .rejected socket :: book relay.log := by
    simp [Event.record]
  refine ⟨?_, ?_, ?_, sent_emit h.sent (by simp)⟩
  · rw [hbook]
    exact h.routes.imp fun _ _ _ hshared => hshared.mono (List.subset_cons_self ..)
  · rw [hbook]
    intro key pair hpair
    obtain ⟨hshared, hhost, hclient⟩ := h.pairs key pair hpair
    obtain ⟨hnehost, hneclient⟩ := hunpaired.2 key pair hpair
    exact ⟨hshared.mono (List.subset_cons_self ..), by simp [hnehost, hhost],
      by simp [hneclient, hclient]⟩
  · rw [hbook]
    intro hash offer hoffer
    simp [hunpaired.1 hash offer hoffer, h.offers hash offer hoffer]

end

/-! ## The run -/

/-- Whoever speaks in this step never failed an authentication. -/
def Quiet (step : Step) (relay : RelayServer) : Prop :=
  ∀ socket message, step.input = .text socket message → .rejected socket ∉ book relay.log

variable {platform : Platform} {pre : RelayServer} {step : Step} {relay after : RelayServer}

theorem rejected_of_change {socket : Socket} (change : Change platform pre step relay after)
    (hmem : .rejected socket ∈ book after.log) :
    .rejected socket ∈ book relay.log ∨ ∃ principal, step.input = .completion socket principal := by
  cases change with
  | @reject own principal state hinput =>
      simp only [book_close, book_transmit, emit_log, update_log, book_cons, Event.record,
        Option.toList_some, List.mem_append, List.mem_singleton, Record.rejected.injEq] at hmem
      rcases hmem with rfl | hold
      · exact .inr ⟨principal, hinput⟩
      · exact .inl hold
  | _ => exact .inl (by simpa [Event.record, stop] using hmem)

theorem Quiet.change (h : relay.Quiet step) (change : Change platform pre step relay after) :
    after.Quiet step := by
  intro socket message hinput hmem
  rcases rejected_of_change change hmem with hold | ⟨principal, hcompletion⟩
  · exact h socket message hinput hold
  · rw [hinput] at hcompletion
    cases hcompletion

theorem Isolated.change (h : Isolated relay) (hledger : Ledger relay) (hquiet : relay.Quiet step)
    (change : Change platform pre step relay after) : Isolated after := by
  cases change with
  | refuse =>
      have hclosed := h.close relay.sockets
      exact hclosed.still rfl (.refl _) (.refl _) (.refl _)
  | close socket => exact h.close socket
  | ask socket credential => exact h.emit rfl (by simp)
  | @verify socket principal state hinput hstate hlive hpin =>
      refine h.grow (.verified socket principal.accountId) ?_ (by simp) rfl rfl rfl
        (sent_emit (by exact h.sent) (by simp))
      simp [Event.record]
  | reject hinput hstate hunpaired => exact h.reject step.full hunpaired
  | @register socket message state id service hinput hpre hstate hactive hid hservice
      hduplicate hsameid hsame =>
      refine h.grow (.registered socket service) ?_ (by simp) rfl rfl rfl
        (sent_emit (by exact h.sent) (by simp))
      simp [Event.record]
  | send hsendable =>
      exact h.transmit step.full fun _ => h.sendable_together hledger hsendable
  | @issue socket message state id hinput hstate hactive hdescriptor hunpaired =>
      refine Isolated.emit ?_ rfl (by simp)
      exact ⟨h.routes, h.pairs, h.offers.insert (hquiet socket message hinput), h.sent⟩
  | @claim client hash offer id hclaims hbefore hnow hunpaired =>
      refine Isolated.emit (Isolated.emit ?_ rfl (by simp)) rfl (by simp)
      obtain ⟨message, hinput, -⟩ := hclaims.spoken
      refine ⟨h.routes, h.pairs.insert ?_, h.offers.erase hash, h.sent⟩
      exact ⟨(hledger.together_of_meets hclaims.meets).symm.shared,
        h.offers hash offer hclaims.stored, hquiet client message hinput⟩
  | withdraw => exact h.withdrawOffer step.full _ _ _
  | finish => exact h.finishPair hledger step.full _ _
  | @route client host message id hinput hpre hmeets =>
      have htogether := hledger.together_of_meets hmeets
      refine Isolated.transmit (Isolated.emit ?_ rfl (by simp)) step.full fun _ source hsource => ?_
      · exact ⟨h.routes.insert htogether.shared, h.pairs, h.offers, h.sent⟩
      · obtain rfl : source = client := by simpa [Outgoing.sources] using hsource
        simpa [Event.record] using htogether.symm
  | @answer message key route hinput hpre hroute hhost hclient =>
      have herased : Isolated { relay with routes := relay.routes.erase key } :=
        h.frame rfl (fun _ _ hlookup => (Table.lookup_erase_eq_some.1 hlookup).2)
          (fun _ _ => id) (fun _ _ => id) h.sent
      -- A client that failed an authentication after asking is closing and gets nothing.
      refine herased.transmit step.full fun hopen source hsource => ?_
      obtain rfl : source = route.host := by simpa [Outgoing.sources] using hsource
      exact (hledger.together_of_shared (h.routes key route hroute)
        (fun hrejected => hopen (hledger.rejected_closing _ hrejected))
        (hquiet _ message hinput))
  | discard key =>
      exact h.frame rfl (fun _ _ hlookup => (Table.lookup_erase_eq_some.1 hlookup).2)
        (fun _ _ => id) (fun _ _ => id) h.sent
  | stop => exact ⟨.empty _, .empty _, .empty _, h.sent⟩
  | rehash hsessions hroutes hoffers hpairs => exact h.still rfl hroutes hpairs hoffers
  | _ => exact h.still rfl (.refl _) (.refl _) (.refl _)

theorem isolated_next (hledger : Ledger relay) (h : Isolated relay)
    (horderly : relay.Orderly step) :
    Ledger (next platform relay step) ∧ Isolated (next platform relay step) := by
  have hquiet : relay.Quiet step := fun socket message hinput hmem =>
    horderly.2 socket message hinput (hledger.rejected_closing socket hmem)
  have hnext := Relation.ReflTransGen.invariant
    (I := fun state => Ledger state ∧ Isolated state ∧ state.Quiet step) (by
      intro state after change hstate
      exact ⟨hstate.1.change change, hstate.2.1.change hstate.1 hstate.2.2 change,
        hstate.2.2.change change⟩)
    (next_changes platform horderly.1) ⟨hledger, h, hquiet⟩
  exact ⟨hnext.1, hnext.2.1⟩

/-- **Data of a session reaches only sessions of its account and its service**,
in every run in which a closed socket stays silent. -/
theorem run_sentTogether {trace : List (RelayServer × Step)}
    (run : (machine platform).Run Orderly trace relay) : Always SentTogether relay.log := by
  have hisolated : Ledger relay ∧ Isolated relay := by
    refine run.invariant_state (I := fun state => Ledger state ∧ Isolated state) ?_
      fun state input h => isolated_next h.1 h.2
    rintro state ⟨time, rfl⟩
    exact ⟨ledger_init, .empty _, .empty _, .empty _, .nil⟩
  exact hisolated.2.sent

/-- A host and a client of one account meet and the client sends a request. -/
def meeting : List Step :=
  [.newConnection, .newConnection, .completion 0 ⟨"a", (90000 : ℤ)⟩,
    .completion 1 ⟨"a", (90000 : ℤ)⟩,
    .text 0 (.ofList [("type", .string "register"), ("peerId", .string "h"),
      ("service", .string "s"), ("host", .bool true)]),
    .text 1 (.ofList [("type", .string "register"), ("peerId", .string "c"),
      ("service", .string "s")]),
    .text 1 (.ofList [("type", .string "request"), ("id", .string "r"), ("peerId", .string "h"),
      ("payload", .object [])])].map fun input => ⟨input, fun _ _ => false⟩

theorem run_sentTogether_meeting : ∃ relay trace,
    (machine .sample).Run Orderly trace relay ∧
      (relay.log.map fun entry => match entry.event with
        | .sent _ message => message.sources
        | _ => []).flatten ≠ [] ∧ Always SentTogether relay.log := by
  have hstart : (machine .sample).Run Orderly [] { now := 0 } := .start ⟨0, rfl⟩
  obtain ⟨trace, run⟩ := hstart.extend meeting (by
    refine ⟨⟨trivial, ?_⟩, ⟨trivial, ?_⟩, ⟨trivial, ?_⟩, ⟨trivial, ?_⟩, ⟨trivial, ?_⟩,
      ⟨trivial, ?_⟩,
      ⟨trivial, ?_⟩, trivial⟩ <;> rintro _ _ ⟨⟩ <;> decide)
  exact ⟨_, trace, run, by decide, run_sentTogether run⟩

end RelayServer

end ServerHost
