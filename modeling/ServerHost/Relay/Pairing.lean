import ServerHost.Relay.Turn

/-!
# Pairing by code

A code leads to at most one pair, every offer and every pair ends at most once,
and both sides of a pair hear the same end.  `paired` is the answer to the
`pair-confirm` of the socket whose claim made the pair, given while the pair is
pending and both sides still meet.
-/

namespace ServerHost

namespace RelayServer

/-! ## The rules -/

/-- What the life of a code and of a pair looks like from the history: an end is
the only one, a claim is the only one of its code and sets the deadline, and a
participant hears nothing of an end that was not recorded. -/
def PairingRule (entry : Entry) (earlier : List Entry) : Prop :=
  match entry.event with
  | .settled subject _ => ∀ status, .settled subject status ∉ events earlier
  | .claimed issue key host _ expires =>
      (∀ other host client expires, .claimed issue other host client expires ∉ events earlier) ∧
        (∀ issue host client expires, .claimed issue key host client expires ∉ events earlier) ∧
        ∃ offered, .issued issue host offered ∈ events earlier ∧
          expires = min (DateTime.addSecs entry.time 15) offered
  | .sent socket (.pairing other (some (.pair key)) _ status _) =>
      (status = "claimed" ∨ .settled (.pair key) status ∈ events earlier) ∧
        ∃ issue host client expires, .claimed issue key host client expires ∈ events earlier ∧
          ((socket = host ∧ other = some client) ∨ (socket = client ∧ other = some host))
  | .sent socket (.pairing none (some (.offer issue)) _ status _) =>
      (status = "offered" ∨ .settled (.offer issue) status ∈ events earlier) ∧
        ∃ expires, .issued issue socket expires ∈ events earlier
  | .sent _ (.pairing _ _ _ status _) => status = "error"
  | _ => True

/-- The events that record the life of a code or a pair. -/
def Event.pairing : Event → Bool
  | .issued .. | .claimed .. | .settled .. => true
  | _ => false

/-- What is still open in the tables was never settled, and was made as the
history says. -/
structure Open (platform : Platform) (relay : RelayServer) : Prop where
  offer_made : Table.All (fun _ offer => offer.issue < relay.randoms ∧
    .issued offer.issue offer.host offer.expires ∈ events relay.log) relay.offers
  offer_open : Table.All (fun _ offer => ∀ status,
    .settled (.offer offer.issue) status ∉ events relay.log) relay.offers
  offer_once : Table.All (fun hash offer => Table.All (fun other own =>
    own.issue = offer.issue → other = hash) relay.offers) relay.offers
  pair_made : Table.All (fun key pair => ∃ issue,
    .claimed issue key pair.host pair.client pair.expires ∈ events relay.log) relay.pairs
  pair_open : Table.All (fun key _ => ∀ status,
    .settled (.pair key) status ∉ events relay.log) relay.pairs
  issue_used : ∀ issue status, .settled (.offer issue) status ∈ events relay.log →
    issue < relay.randoms
  key_used : ∀ issue key host client expires,
    .claimed issue key host client expires ∈ events relay.log →
      ∃ number < relay.uuids, platform.uuid number = key
  pair_settled : ∀ key status, .settled (.pair key) status ∈ events relay.log →
    ∃ issue host client expires, .claimed issue key host client expires ∈ events relay.log
  claim_settled : ∀ issue key host client expires,
    .claimed issue key host client expires ∈ events relay.log →
      .settled (.offer issue) "claimed" ∈ events relay.log

variable {platform : Platform} {pre : RelayServer} {step : Step} {relay after : RelayServer}

/-! ## What does not touch offers and pairs -/

/-- Nothing new is stored and nothing about a code or a pair is recorded. -/
theorem Open.frame (h : Open platform relay)
    (hevents : ∀ event, event.pairing = true →
      (event ∈ events after.log ↔ event ∈ events relay.log))
    (hoffers : ∀ hash offer, after.offers.lookup hash = some offer →
      relay.offers.lookup hash = some offer)
    (hpairs : ∀ key pair, after.pairs.lookup key = some pair → relay.pairs.lookup key = some pair)
    (hrandoms : relay.randoms ≤ after.randoms) (huuids : relay.uuids ≤ after.uuids) :
    Open platform after := by
  constructor
  case offer_made =>
    intro hash offer hoffer
    obtain ⟨hissue, hmade⟩ := h.offer_made hash offer (hoffers hash offer hoffer)
    exact ⟨lt_of_lt_of_le hissue hrandoms, (hevents _ rfl).2 hmade⟩
  case offer_open =>
    intro hash offer hoffer status
    rw [hevents _ rfl]
    exact h.offer_open hash offer (hoffers hash offer hoffer) status
  case offer_once =>
    intro hash offer hoffer other own hown
    exact h.offer_once hash offer (hoffers hash offer hoffer) other own (hoffers other own hown)
  case pair_made =>
    intro key pair hpair
    obtain ⟨issue, hmade⟩ := h.pair_made key pair (hpairs key pair hpair)
    exact ⟨issue, (hevents _ rfl).2 hmade⟩
  case pair_open =>
    intro key pair hpair status
    rw [hevents _ rfl]
    exact h.pair_open key pair (hpairs key pair hpair) status
  case issue_used =>
    intro issue status hsettled
    exact lt_of_lt_of_le (h.issue_used issue status ((hevents _ rfl).1 hsettled)) hrandoms
  case key_used =>
    intro issue key host client expires hclaimed
    obtain ⟨number, hnumber, hkey⟩ := h.key_used _ _ _ _ _ ((hevents _ rfl).1 hclaimed)
    exact ⟨number, lt_of_lt_of_le hnumber huuids, hkey⟩
  case pair_settled =>
    intro key status hsettled
    obtain ⟨issue, host, client, expires, hclaimed⟩ :=
      h.pair_settled key status ((hevents _ rfl).1 hsettled)
    exact ⟨issue, host, client, expires, (hevents _ rfl).2 hclaimed⟩
  case claim_settled =>
    intro issue key host client expires hclaimed
    exact (hevents _ rfl).2 (h.claim_settled _ _ _ _ _ ((hevents _ rfl).1 hclaimed))

theorem Open.still (h : Open platform relay) (hlog : after.log = relay.log)
    (hoffers : after.offers = relay.offers) (hpairs : after.pairs = relay.pairs)
    (hrandoms : relay.randoms ≤ after.randoms) (huuids : relay.uuids ≤ after.uuids) :
    Open platform after :=
  h.frame (fun _ _ => by rw [hlog]) (fun _ _ => by rw [hoffers]; exact id)
    (fun _ _ => by rw [hpairs]; exact id) hrandoms huuids

theorem Open.emit (h : Open platform relay) {event : Event} (hevent : event.pairing = false) :
    Open platform (relay.emit event) := by
  refine h.frame ?_ (fun _ _ => id) (fun _ _ => id) le_rfl le_rfl
  intro other hother
  simp only [emit_log, events_cons, List.mem_cons, or_iff_right_iff_imp]
  rintro rfl
  simp [hother] at hevent

theorem mem_events_transmit {full : Socket → Outgoing → Bool} {socket : Socket}
    {message : Outgoing} {event : Event} (h : event.pairing = true) :
    event ∈ events (transmit full socket message relay).log ↔ event ∈ events relay.log := by
  unfold transmit
  split
  · rfl
  · split
    · simp only [close, emit_log, events_cons, List.mem_cons, or_iff_right_iff_imp]
      rintro rfl
      simp [Event.pairing] at h
    · simp only [emit_log, events_cons, List.mem_cons, or_iff_right_iff_imp]
      rintro rfl
      simp [Event.pairing] at h

theorem transmit_uuids (full : Socket → Outgoing → Bool) (socket : Socket) (message : Outgoing) :
    (transmit full socket message relay).uuids = relay.uuids :=
  (transmit_pairingOnly full socket message relay).uuids

theorem transmit_randoms (full : Socket → Outgoing → Bool) (socket : Socket) (message : Outgoing) :
    (transmit full socket message relay).randoms = relay.randoms :=
  (transmit_pairingOnly full socket message relay).randoms

theorem Open.transmit (h : Open platform relay) (full : Socket → Outgoing → Bool)
    (socket : Socket) (message : Outgoing) :
    Open platform (RelayServer.transmit full socket message relay) := by
  refine h.frame (fun event => mem_events_transmit) ?_ ?_ (transmit_randoms ..).ge
    (transmit_uuids ..).ge
  · simp
  · simp

theorem Open.close (h : Open platform relay) (socket : Socket) :
    Open platform (relay.close socket) := by
  have hclosing : Open platform { relay with closing := socket :: relay.closing } :=
    h.still rfl rfl rfl le_rfl le_rfl
  exact hclosing.emit rfl

/-! ## The life of a code and of a pair -/

theorem Open.issue (h : Open platform relay) (hash id : String) (socket : Socket)
    (expires : DateTime) :
    Open platform ({ relay with
      offers := relay.offers.insert hash ⟨socket, id, expires, relay.randoms⟩
      randoms := relay.randoms + 1 }.emit (.issued relay.randoms socket expires)) := by
  constructor
  case offer_made =>
    refine Table.All.insert (h.offer_made.imp fun _ offer _ hmade => ?_) ?_
    · exact ⟨Nat.lt_succ_of_lt hmade.1, List.mem_cons_of_mem _ hmade.2⟩
    · exact ⟨Nat.lt_succ_self _, List.mem_cons_self⟩
  case offer_open =>
    refine Table.All.insert (h.offer_open.imp fun _ offer _ hopen status => ?_) fun status => ?_
    · simpa using hopen status
    · simpa using fun hsettled => absurd (h.issue_used _ _ hsettled) (lt_irrefl _)
  case offer_once =>
    intro first offer hoffer second own hown hissue
    rcases Table.lookup_insert_eq_some.1 hoffer with ⟨rfl, rfl⟩ | ⟨-, hold⟩
    · rcases Table.lookup_insert_eq_some.1 hown with ⟨rfl, -⟩ | ⟨-, hold⟩
      · rfl
      · exact absurd (hissue ▸ (h.offer_made second own hold).1) (lt_irrefl _)
    · rcases Table.lookup_insert_eq_some.1 hown with ⟨rfl, rfl⟩ | ⟨-, hown⟩
      · exact absurd (hissue ▸ (h.offer_made first offer hold).1) (lt_irrefl _)
      · exact h.offer_once first offer hold second own hown hissue
  case pair_made =>
    exact h.pair_made.imp fun _ pair _ ⟨issue, hmade⟩ => ⟨issue, List.mem_cons_of_mem _ hmade⟩
  case pair_open => simpa using h.pair_open
  case issue_used =>
    intro issue status hsettled
    exact Nat.lt_succ_of_lt (h.issue_used issue status (by simpa using hsettled))
  case key_used => simpa using h.key_used
  case pair_settled => simpa using h.pair_settled
  case claim_settled => simpa using h.claim_settled

/-- An offer ends. -/
theorem Open.settleOffer (h : Open platform relay) {hash : String} {offer : Offer}
    (hoffer : relay.offers.lookup hash = some offer) (status : String) :
    Open platform ({ relay with offers := relay.offers.erase hash }.emit
      (.settled (.offer offer.issue) status)) := by
  constructor
  case offer_made =>
    exact (h.offer_made.erase hash).imp fun _ own _ hmade =>
      ⟨hmade.1, List.mem_cons_of_mem _ hmade.2⟩
  case offer_open =>
    intro other own hown other_status
    obtain ⟨hne, hlookup⟩ := Table.lookup_erase_eq_some.1 hown
    have hissue : own.issue ≠ offer.issue := fun hsame =>
      hne (h.offer_once hash offer hoffer other own hlookup hsame)
    simpa [hissue] using h.offer_open other own hlookup other_status
  case offer_once =>
    exact (h.offer_once.erase hash).imp fun _ own _ honce => honce.erase hash
  case pair_made =>
    exact h.pair_made.imp fun _ pair _ ⟨issue, hmade⟩ => ⟨issue, List.mem_cons_of_mem _ hmade⟩
  case pair_open => simpa using h.pair_open
  case issue_used =>
    intro issue other_status hsettled
    simp only [emit_log, events_cons, List.mem_cons, Event.settled.injEq, Subject.offer.injEq]
      at hsettled
    rcases hsettled with ⟨rfl, -⟩ | hsettled
    · exact (h.offer_made hash offer hoffer).1
    · exact h.issue_used issue other_status hsettled
  case key_used => simpa using h.key_used
  case pair_settled => simpa using h.pair_settled
  case claim_settled =>
    intro issue key host client expires hclaimed
    exact List.mem_cons_of_mem _ (h.claim_settled _ _ _ _ _ (by simpa using hclaimed))

theorem Open.key_fresh (h : Open platform relay) {issue : ℕ} {host client : Socket}
    {expires : DateTime} :
    .claimed issue (platform.uuid relay.uuids) host client expires ∉ events relay.log := by
  intro hclaimed
  obtain ⟨number, hnumber, hkey⟩ := h.key_used _ _ _ _ _ hclaimed
  exact absurd (platform.uuid_injective hkey ▸ hnumber) (lt_irrefl _)

/-- A pair begins. -/
theorem Open.claim (h : Open platform relay) {issue : ℕ}
    (hsettled : .settled (.offer issue) "claimed" ∈ events relay.log) (pair : Pair) :
    Open platform ({ relay with
      pairs := relay.pairs.insert (platform.uuid relay.uuids) pair
      uuids := relay.uuids + 1 }.emit
        (.claimed issue (platform.uuid relay.uuids) pair.host pair.client pair.expires)) := by
  constructor
  case offer_made =>
    exact h.offer_made.imp fun _ own _ hmade => ⟨hmade.1, List.mem_cons_of_mem _ hmade.2⟩
  case offer_open => simpa using h.offer_open
  case offer_once => exact h.offer_once
  case pair_made =>
    refine Table.All.insert (h.pair_made.imp fun _ own _ hmade =>
      hmade.imp fun issue hclaimed => List.mem_cons_of_mem _ hclaimed) ⟨issue, List.mem_cons_self⟩
  case pair_open =>
    refine Table.All.insert (by simpa using h.pair_open) fun status hended => ?_
    obtain ⟨issue, host, client, expires, hclaimed⟩ := h.pair_settled _ status
      (by simpa using hended)
    exact h.key_fresh hclaimed
  case issue_used => simpa using h.issue_used
  case key_used =>
    intro other key host client expires hclaimed
    simp only [emit_log, events_cons, List.mem_cons, Event.claimed.injEq] at hclaimed
    rcases hclaimed with ⟨-, rfl, -⟩ | hclaimed
    · exact ⟨relay.uuids, Nat.lt_succ_self _, rfl⟩
    · obtain ⟨number, hnumber, hkey⟩ := h.key_used _ _ _ _ _ hclaimed
      exact ⟨number, Nat.lt_succ_of_lt hnumber, hkey⟩
  case pair_settled =>
    intro key status hended
    obtain ⟨issue, host, client, expires, hclaimed⟩ := h.pair_settled key status
      (by simpa using hended)
    exact ⟨issue, host, client, expires, List.mem_cons_of_mem _ hclaimed⟩
  case claim_settled =>
    intro other key host client expires hclaimed
    simp only [emit_log, events_cons, List.mem_cons, Event.claimed.injEq] at hclaimed
    refine List.mem_cons_of_mem _ ?_
    rcases hclaimed with ⟨rfl, -⟩ | hclaimed
    · exact hsettled
    · exact h.claim_settled _ _ _ _ _ hclaimed

/-- A pair ends. -/
theorem Open.settlePair (h : Open platform relay) {key : String} {pair : Pair}
    (hpair : relay.pairs.lookup key = some pair) (status : String) :
    Open platform ({ relay with pairs := relay.pairs.erase key }.emit
      (.settled (.pair key) status)) := by
  constructor
  case offer_made =>
    exact h.offer_made.imp fun _ own _ hmade => ⟨hmade.1, List.mem_cons_of_mem _ hmade.2⟩
  case offer_open => simpa using h.offer_open
  case offer_once => exact h.offer_once
  case pair_made =>
    exact (h.pair_made.erase key).imp fun _ own _ hmade =>
      hmade.imp fun issue hclaimed => List.mem_cons_of_mem _ hclaimed
  case pair_open =>
    intro other own hown other_status
    obtain ⟨hne, hlookup⟩ := Table.lookup_erase_eq_some.1 hown
    simpa [hne] using h.pair_open other own hlookup other_status
  case issue_used => simpa using h.issue_used
  case key_used => simpa using h.key_used
  case pair_settled =>
    intro other other_status hended
    simp only [emit_log, events_cons, List.mem_cons, Event.settled.injEq, Subject.pair.injEq]
      at hended
    have hclaimed : ∃ issue host client expires,
        .claimed issue other host client expires ∈ events relay.log := by
      rcases hended with ⟨rfl, -⟩ | hended
      · obtain ⟨issue, hmade⟩ := h.pair_made other pair hpair
        exact ⟨issue, _, _, _, hmade⟩
      · exact h.pair_settled other other_status hended
    obtain ⟨issue, host, client, expires, hmem⟩ := hclaimed
    exact ⟨issue, host, client, expires, List.mem_cons_of_mem _ hmem⟩
  case claim_settled =>
    intro issue other host client expires hclaimed
    exact List.mem_cons_of_mem _ (h.claim_settled _ _ _ _ _ (by simpa using hclaimed))

/-! ## The rules along a run -/

theorem rule_transmit (h : Always PairingRule relay.log) (full : Socket → Outgoing → Bool)
    {socket : Socket} {message : Outgoing}
    (hrule : PairingRule ⟨relay.now, .sent socket message⟩ relay.log) :
    Always PairingRule (transmit full socket message relay).log := by
  unfold transmit
  split
  · exact h
  · split
    · exact h.cons trivial
    · exact h.cons hrule

/-- What is sent outside the end of an offer or a pair obeys the rules. -/
theorem Open.sendable_rule (h : Open platform relay) {socket : Socket} {message : Outgoing}
    (hsendable : relay.Sendable socket message) :
    PairingRule ⟨relay.now, .sent socket message⟩ relay.log := by
  cases message with
  | pairing other subject id status data =>
      cases other with
      | none =>
          rcases hsendable with ⟨rfl, rfl⟩ | ⟨issue, expires, rfl, rfl, hissued⟩
          · rfl
          · exact ⟨.inl rfl, expires, hissued⟩
      | some other =>
          cases subject with
          | none => exact hsendable.elim
          | some subject =>
              cases subject with
              | offer issue => exact hsendable.elim
              | pair key =>
                  obtain ⟨hstatus, pair, hpair, hsides⟩ := hsendable
                  obtain ⟨issue, hclaimed⟩ := h.pair_made key pair hpair
                  exact ⟨.inl hstatus, issue, pair.host, pair.client, pair.expires, hclaimed,
                    hsides.imp (fun hside => ⟨hside.1, congrArg some hside.2⟩)
                      fun hside => ⟨hside.1, congrArg some hside.2⟩⟩
  | _ => trivial

theorem Open.withdraw (h : Open platform relay) (hrules : Always PairingRule relay.log)
    (full : Socket → Outgoing → Bool) {hash status : String} {offer : Offer}
    (hoffer : relay.offers.lookup hash = some offer) :
    Open platform (relay.withdrawOffer (RelayServer.transmit full) hash status offer) ∧
      Always PairingRule
        (relay.withdrawOffer (RelayServer.transmit full) hash status offer).log := by
  have hsettled : Always PairingRule ({ relay with offers := relay.offers.erase hash }.emit
      (.settled (.offer offer.issue) status)).log :=
    hrules.cons (h.offer_open hash offer hoffer)
  refine ⟨(h.settleOffer hoffer status).transmit full _ _, rule_transmit hsettled full ?_⟩
  exact ⟨.inr List.mem_cons_self, offer.expires,
    List.mem_cons_of_mem _ (h.offer_made hash offer hoffer).2⟩

theorem Open.finish (h : Open platform relay) (hrules : Always PairingRule relay.log)
    (full : Socket → Outgoing → Bool) {key status : String} {pair : Pair}
    (hpair : relay.pairs.lookup key = some pair) :
    Open platform (relay.finishPair (RelayServer.transmit full) key status) ∧
      Always PairingRule (relay.finishPair (RelayServer.transmit full) key status).log := by
  have hopen := h.settlePair hpair status
  have hsettled : Always PairingRule ({ relay with pairs := relay.pairs.erase key }.emit
      (.settled (.pair key) status)).log :=
    hrules.cons (h.pair_open key pair hpair)
  obtain ⟨issue, hclaimed⟩ := h.pair_made key pair hpair
  have htold : ∀ (state : RelayServer) socket other data id,
      (∀ event, event.pairing = true → event ∈ events ({ relay with
        pairs := relay.pairs.erase key }.emit (.settled (.pair key) status)).log →
          event ∈ events state.log) →
      ((socket = pair.host ∧ other = some pair.client) ∨
        (socket = pair.client ∧ other = some pair.host)) →
      PairingRule ⟨state.now, .sent socket (.pairing other (some (.pair key)) id status data)⟩
        state.log := by
    intro state socket other data id hgrown hside
    exact ⟨.inr (hgrown _ rfl List.mem_cons_self), issue, pair.host, pair.client, pair.expires,
      hgrown _ rfl (List.mem_cons_of_mem _ hclaimed), hside⟩
  unfold RelayServer.finishPair
  rw [hpair]
  dsimp only
  split <;> split
  · refine ⟨(hopen.transmit full _ _).transmit full _ _,
      rule_transmit (rule_transmit hsettled full ?_) full ?_⟩
    · exact htold _ _ _ _ _ (fun _ _ => id) (.inl ⟨rfl, rfl⟩)
    · exact htold _ _ _ _ _ (fun _ hpairing => (mem_events_transmit hpairing).2) (.inr ⟨rfl, rfl⟩)
  · exact ⟨hopen.transmit full _ _, rule_transmit hsettled full
      (htold _ _ _ _ _ (fun _ _ => id) (.inl ⟨rfl, rfl⟩))⟩
  · exact ⟨hopen.transmit full _ _, rule_transmit hsettled full
      (htold _ _ _ _ _ (fun _ _ => id) (.inr ⟨rfl, rfl⟩))⟩
  · exact ⟨hopen, hsettled⟩

theorem Open.claim_rule (h : Open platform relay) (hrules : Always PairingRule relay.log)
    {client : Socket} {hash : String} {offer : Offer}
    (hoffer : relay.offers.lookup hash = some offer) :
    Always PairingRule ((({ relay with offers := relay.offers.erase hash }.emit
      (.settled (.offer offer.issue) "claimed"))).emit
        (.claimed offer.issue (platform.uuid relay.uuids) offer.host client
          (min (DateTime.addSecs relay.now 15) offer.expires))).log := by
  refine Always.cons (hrules.cons (h.offer_open hash offer hoffer)) ⟨?_, ?_, ?_⟩
  · intro other host client expires hclaimed
    simp only [emit_log, events_cons, List.mem_cons, reduceCtorEq, false_or] at hclaimed
    exact h.offer_open hash offer hoffer _ (h.claim_settled _ _ _ _ _ hclaimed)
  · intro issue host client expires hclaimed
    simp only [emit_log, events_cons, List.mem_cons, reduceCtorEq, false_or] at hclaimed
    exact h.key_fresh hclaimed
  · exact ⟨offer.expires, List.mem_cons_of_mem _ (h.offer_made hash offer hoffer).2, rfl⟩

theorem Open.change (h : Open platform relay) (hrules : Always PairingRule relay.log)
    (change : Change platform pre step relay after) :
    Open platform after ∧ Always PairingRule after.log := by
  cases change with
  | refuse =>
      have hclosed := h.close relay.sockets
      exact ⟨hclosed.still rfl rfl rfl le_rfl le_rfl,
        hrules.cons trivial⟩
  | close socket => exact ⟨h.close socket, hrules.cons trivial⟩
  | ask socket credential => exact ⟨h.emit rfl, hrules.cons trivial⟩
  | touch socket f => 
      exact ⟨h.still rfl rfl rfl le_rfl le_rfl, hrules⟩
  | @verify socket principal =>
      have hwritten : Open platform (relay.update socket fun session => { session with
          principal := { principal with
            expiresAt := min principal.expiresAt (DateTime.addSecs relay.now 60) } }) :=
        h.still rfl rfl rfl le_rfl le_rfl
      exact ⟨hwritten.emit rfl, hrules.cons trivial⟩
  | @reject socket =>
      have hwritten : Open platform (relay.update socket fun session =>
          { session with principal := {} }) :=
        h.still rfl rfl rfl le_rfl le_rfl
      refine ⟨((hwritten.emit rfl).transmit step.full _ _).close socket,
        Always.cons (rule_transmit (hrules.cons ?_) step.full ?_) ?_⟩ <;> trivial
  | @register socket message state id service =>
      have hwritten : Open platform (relay.update socket fun session => { session with
          id := id, service := service, name := (message.value "name").toString,
          descriptor := descriptorOf platform id service message }) :=
        h.still rfl rfl rfl le_rfl le_rfl
      exact ⟨hwritten.emit rfl, hrules.cons trivial⟩
  | send hsendable =>
      -- `Sendable` is where a notice is tied to the offer or pair it is about.
      exact ⟨h.transmit step.full _ _, rule_transmit hrules step.full (h.sendable_rule hsendable)⟩
  | issue id => exact ⟨h.issue _ _ _ _, hrules.cons trivial⟩
  | @claim client hash offer id hclaims hbefore hnow hunpaired =>
      -- The offer is consumed and the pair made in one change.
      have hsettled := h.settleOffer hclaims.stored "claimed"
      exact ⟨hsettled.claim List.mem_cons_self ⟨offer.host, client, offer.request, id,
        min (DateTime.addSecs relay.now 15) offer.expires⟩, h.claim_rule hrules hclaims.stored⟩
  | withdraw hoffer => exact h.withdraw hrules step.full hoffer
  | finish hpair => exact h.finish hrules step.full hpair
  | @route client host message id =>
      have hrouted : Open platform { relay with
          routes := relay.routes.insert (platform.uuid relay.uuids)
            ⟨client, host, id, DateTime.addSecs relay.now 15⟩
          uuids := relay.uuids + 1 } :=
        h.still rfl rfl rfl le_rfl (Nat.le_succ _)
      refine ⟨(hrouted.emit rfl).transmit step.full _ _,
        rule_transmit (hrules.cons ?_) step.full ?_⟩ <;> trivial
  | @answer message key route =>
      have herased : Open platform { relay with routes := relay.routes.erase key } :=
        h.still rfl rfl rfl le_rfl le_rfl
      exact ⟨herased.transmit step.full _ _, rule_transmit (by exact hrules) step.full trivial⟩
  | draw =>
      exact ⟨h.still rfl rfl rfl (Nat.le_succ _) le_rfl,
        hrules⟩
  | stop =>
      refine ⟨h.frame (fun _ _ => Iff.rfl) ?_ ?_ le_rfl le_rfl, hrules⟩
      · exact fun hash offer hoffer => by simp [stop] at hoffer
      · exact fun key pair hpair => by simp [stop] at hpair
  | rehash hsessions hroutes hoffers hpairs =>
      exact ⟨h.frame (fun _ _ => Iff.rfl) (fun hash _ hoffer => (hoffers.lookup hash).trans hoffer)
        (fun key _ hpair => (hpairs.lookup key).trans hpair) le_rfl le_rfl, hrules⟩
  | _ => exact ⟨h.still rfl rfl rfl le_rfl le_rfl, hrules⟩

theorem run_pairingRule {trace : List (RelayServer × Step)}
    (run : (machine platform).Run Feasible trace relay) :
    Open platform relay ∧ Always PairingRule relay.log := by
  refine run.invariant_state (I := fun state => Open platform state ∧
    Always PairingRule state.log) ?_ fun state input h hfeasible =>
      (next_changes platform hfeasible).invariant
        (I := fun state => Open platform state ∧ Always PairingRule state.log)
        (fun _ _ change hstate => hstate.1.change hstate.2 change) h
  rintro state ⟨time, rfl⟩
  exact ⟨⟨.empty _, .empty _, .empty _, .empty _, .empty _, by simp [events], by simp [events],
    by simp [events], by simp [events]⟩, .nil⟩

/-! ## Success -/

theorem grows_transmit {P : Entry → Prop} (full : Socket → Outgoing → Bool) {socket : Socket}
    {message : Outgoing} (hclosed : P ⟨relay.now, .closed socket⟩)
    (hsent : P ⟨relay.now, .sent socket message⟩) :
    Grows P relay.log (RelayServer.transmit full socket message relay).log := by
  unfold RelayServer.transmit
  split
  · exact .of_eq rfl
  · split
    · exact .cons hclosed
    · exact .cons hsent

theorem grows_finishPair {P : Entry → Prop} (full : Socket → Outgoing → Bool) (key status : String)
    (hsettled : P ⟨relay.now, .settled (.pair key) status⟩)
    (hclosed : ∀ socket, P ⟨relay.now, .closed socket⟩)
    (hsent : ∀ socket other id data,
      P ⟨relay.now, .sent socket (.pairing other (some (.pair key)) id status data)⟩) :
    Grows P relay.log (relay.finishPair (RelayServer.transmit full) key status).log := by
  unfold RelayServer.finishPair
  cases relay.pairs.lookup key with
  | none => exact .of_eq rfl
  | some pair =>
      have hfirst : Grows P relay.log ({ relay with pairs := relay.pairs.erase key }.emit
          (.settled (.pair key) status)).log := .cons hsettled
      have hsend : ∀ (state : RelayServer) socket other id data, state.now = relay.now →
          Grows P state.log (RelayServer.transmit full socket
            (.pairing other (some (.pair key)) id status data) state).log := by
        intro state socket other id data hnow
        refine grows_transmit full ?_ ?_
        · rw [hnow]; exact hclosed socket
        · rw [hnow]; exact hsent socket other id data
      have hnow : ({ relay with pairs := relay.pairs.erase key }.emit
          (.settled (.pair key) status)).now = relay.now := rfl
      generalize { relay with pairs := relay.pairs.erase key }.emit
        (.settled (.pair key) status) = settled at *
      dsimp only
      split <;> split
      · exact hfirst.trans ((hsend _ _ _ _ _ hnow).trans
          (hsend _ _ _ _ _ ((transmit_now ..).trans hnow)))
      · exact hfirst.trans (hsend _ _ _ _ _ hnow)
      · exact hfirst.trans (hsend _ _ _ _ _ hnow)
      · exact hfirst

/-- The entry is no news of success, or it is the answer to a confirmation. -/
def SuccessOnly (pre : RelayServer) (step : Step) (entry : Entry) : Prop :=
  ∀ socket other subject id data,
    entry.event = .sent socket (.pairing other subject id "paired" data) →
      entry.time = pre.now ∧ ∃ key pair, subject = some (.pair key) ∧ Confirms pre step key pair

theorem success_emit {event : Event} (h : ∀ socket message, event ≠ .sent socket message) :
    Grows (SuccessOnly pre step) relay.log (relay.emit event).log :=
  .cons fun socket _ _ _ _ heq => absurd heq (h socket _)

theorem success_transmit (full : Socket → Outgoing → Bool) {socket : Socket}
    {message : Outgoing} (h : ∀ other subject id data,
      message ≠ .pairing other subject id "paired" data) :
    Grows (SuccessOnly pre step) relay.log
      (RelayServer.transmit full socket message relay).log := by
  refine grows_transmit full (fun _ _ _ _ _ heq => by cases heq)
    fun _ other subject id data heq => ?_
  simp only [Event.sent.injEq] at heq
  exact absurd heq.2 (h other subject id data)

theorem success_close (socket : Socket) :
    Grows (SuccessOnly pre step) relay.log (relay.close socket).log :=
  .cons (by simp [SuccessOnly])

theorem success_of_change (change : Change platform pre step relay after) :
    Grows (SuccessOnly pre step) relay.log after.log := by
  cases change with
  | refuse => exact success_emit (by simp)
  | close socket => exact success_close socket
  | ask => exact success_emit (by simp)
  | verify => exact success_emit (by simp)
  | register => exact success_emit (by simp)
  | issue => exact success_emit (by simp)
  | claim => exact Grows.trans (success_emit (by simp)) (success_emit (by simp))
  | @reject socket =>
      have hcleared : Grows (SuccessOnly pre step) relay.log
          (relay.update socket fun session => { session with principal := {} }).log := .of_eq rfl
      refine hcleared.trans (Grows.trans (Grows.trans (success_emit ?_)
        (success_transmit step.full ?_)) (success_close socket))
      · simp
      · simp
  | route => exact Grows.trans (success_emit (by simp)) (success_transmit step.full (by simp))
  | answer => exact success_transmit step.full (by simp)
  | @send socket message hsendable =>
      refine success_transmit step.full ?_
      rintro (- | other) subject id data rfl
      · rcases hsendable with ⟨-, hstatus⟩ | ⟨issue, expires, -, hstatus, -⟩ <;>
          simp at hstatus
      · obtain _ | issue | key := subject
        · exact hsendable.elim
        · exact hsendable.elim
        · exact absurd hsendable.1 (by simp)
  | withdraw hoffer hstatus =>
      refine Grows.trans (success_emit (by simp)) (success_transmit step.full ?_)
      rcases hstatus with rfl | rfl <;> simp
  | @finish key status pair hpair hstatus =>
      refine grows_finishPair step.full key status (fun _ _ _ _ _ heq => by cases heq)
        (fun _ _ _ _ _ _ heq => by cases heq) fun socket other id data => ?_
      intro _ _ subject _ _ heq
      simp only [Event.sent.injEq, Outgoing.pairing.injEq] at heq
      obtain ⟨-, -, rfl, -, rfl, -⟩ := heq
      obtain ⟨-, rfl, hconfirms⟩ := hstatus.resolve_left (by simp) |>.resolve_left (by simp)
      exact ⟨rfl, key, pair, rfl, hconfirms⟩
  | _ => exact .of_eq rfl

theorem success_of_next (hfeasible : relay.Feasible step) :
    Grows (SuccessOnly relay step) relay.log (next platform relay step).log :=
  (next_changes platform hfeasible).invariant (I := fun state => Grows _ relay.log state.log)
    (fun _ _ change h => h.trans (success_of_change change)) (.of_eq rfl)

/-- What stands behind a message of success: the confirmation of the claimant, in
time, by two live sessions of one account and service, the issuer a host. -/
def Earned (pre : RelayServer) (step : Step) (entry : Entry) : Prop :=
  ∀ socket other subject id data,
    entry.event = .sent socket (.pairing other subject id "paired" data) →
      ∃ key pair, subject = some (.pair key) ∧ entry.time = pre.now ∧
        Confirms pre step key pair ∧
        (∃ host client, pre.sessions.lookup pair.host = some host ∧
          pre.sessions.lookup pair.client = some client ∧
          live pre.now host.principal = true ∧ live pre.now client.principal = true ∧
          host.principal.accountId = client.principal.accountId ∧
          host.service = client.service ∧ host.descriptor.isEmpty = false) ∧
        ∃ issue, ∃ claimed : ℤ, ∃ offered,
          ⟨claimed, .claimed issue key pair.host pair.client pair.expires⟩ ∈ pre.log ∧
          .issued issue pair.host offered ∈ events pre.log ∧
          pair.expires = min (DateTime.addSecs claimed 15) offered

theorem Confirms.parties {key : String} {pair : Pair} (h : Confirms pre step key pair) :
    ∃ host client, pre.sessions.lookup pair.host = some host ∧
      pre.sessions.lookup pair.client = some client ∧
      live pre.now host.principal = true ∧ live pre.now client.principal = true ∧
      host.principal.accountId = client.principal.accountId ∧
      host.service = client.service ∧ host.descriptor.isEmpty = false := by
  obtain ⟨client, hclient, hlive⟩ := active_iff.1 h.client_active
  obtain ⟨-, host, hhost, hreaches⟩ := target_spec h.registered
  rw [session_of_lookup hclient] at hreaches
  obtain ⟨-, hhostlive, hdescriptor, haccount, hservice⟩ := reaches_iff.1 hreaches
  exact ⟨host, client, hhost, hclient, hhostlive, hlive, haccount, hservice, hdescriptor⟩

theorem Open.pair_claimed (h : Open platform relay) (hrules : Always PairingRule relay.log)
    {key : String} {pair : Pair} (hpair : relay.pairs.lookup key = some pair) :
    ∃ issue, ∃ claimed : ℤ, ∃ offered,
      ⟨claimed, .claimed issue key pair.host pair.client pair.expires⟩ ∈ relay.log ∧
      .issued issue pair.host offered ∈ events relay.log ∧
      pair.expires = min (DateTime.addSecs claimed 15) offered := by
  obtain ⟨issue, hmade⟩ := h.pair_made key pair hpair
  obtain ⟨⟨time, event⟩, hentry, rfl⟩ := List.mem_map.1 hmade
  obtain ⟨later, earlier, hsplit, hrule⟩ := hrules.mem hentry
  obtain ⟨-, -, offered, hissued, hexpires⟩ := hrule
  refine ⟨issue, time, offered, hentry, ?_, hexpires⟩
  rw [hsplit, events, List.map_append, List.map_cons]
  exact List.mem_append_right _ (List.mem_cons_of_mem _ hissued)

/-- **Pairing by code is safe in every run**: a code makes at most one pair, an
offer or a pair ends at most once and both sides hear the recorded end, and every
message of success was earned. -/
theorem run_pairing_safe {trace : List (RelayServer × Step)}
    (run : (machine platform).Run Feasible trace relay) :
    Always PairingRule relay.log ∧ ∀ visit ∈ trace,
      Grows (Earned visit.1 visit.2) visit.1.log (next platform visit.1 visit.2).log := by
  refine ⟨(run_pairingRule run).2, fun visit hvisit => ?_⟩
  obtain ⟨later, earlier, hsplit⟩ := List.append_of_mem hvisit
  obtain ⟨hrun, hfeasible⟩ := run.visited hsplit
  obtain ⟨hopen, hrules⟩ := run_pairingRule hrun
  obtain ⟨new, hnew, hall⟩ : Grows _ _ (next platform visit.1 visit.2).log :=
    success_of_next hfeasible
  refine ⟨new, hnew, fun entry hentry socket other subject id data hsent => ?_⟩
  obtain ⟨htime, key, pair, hsubject, hconfirms⟩ :=
    hall entry hentry socket other subject id data hsent
  exact ⟨key, pair, hsubject, htime, hconfirms, hconfirms.parties,
    hopen.pair_claimed hrules hconfirms.stored⟩

/-- A client claims the code of a host and confirms. -/
def agreement : List Step :=
  [.newConnection, .newConnection, .completion 0 ⟨"a", (90000 : ℤ)⟩,
    .completion 1 ⟨"a", (90000 : ℤ)⟩,
    .text 0 (.ofList [("type", .string "register"), ("peerId", .string "h"),
      ("service", .string "s"), ("host", .bool true)]),
    .text 1 (.ofList [("type", .string "register"), ("peerId", .string "c"),
      ("service", .string "s")]),
    .text 0 (.ofList [("type", .string "pair-offer"), ("id", .string "o")]),
    .text 1 (.ofList [("type", .string "pair-claim"), ("id", .string "p"), ("host", .string "h"),
      ("code", .string (Platform.sample.random 0).text)]),
    .text 1 (.ofList [("type", .string "pair-confirm"), ("pairingId", .string "0")])].map
      fun input => ⟨input, fun _ _ => false⟩

theorem run_pairing_safe_agreement : ∃ relay trace,
    (machine .sample).Run Feasible trace relay ∧
      (relay.log.any fun entry => match entry.event with
        | .sent 0 (.pairing _ _ _ status _) => status = "paired"
        | _ => false) = true ∧
      Always PairingRule relay.log ∧ ∀ visit ∈ trace,
        Grows (Earned visit.1 visit.2) visit.1.log (next .sample visit.1 visit.2).log := by
  have hstart : (machine .sample).Run Feasible [] { now := 0 } := .start ⟨0, rfl⟩
  obtain ⟨trace, run⟩ := hstart.extend agreement
    ⟨trivial, trivial, trivial, trivial, trivial, trivial, trivial, trivial, trivial, trivial⟩
  exact ⟨_, trace, run, by decide, run_pairing_safe run⟩

end RelayServer

end ServerHost
