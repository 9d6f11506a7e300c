import ServerHost.Relay.Turn

/-!
# The book of a relay

`book` keeps of the history the writes to sessions, and `Ledger` says that the
sessions and the book tell the same story.  A session that never failed an
authentication keeps its account for life, and every session keeps its service.
-/

namespace ServerHost

namespace RelayServer

/-! ## The writes to sessions -/

/-- A write to a session. -/
inductive Record where
  | verified (socket : Socket) (accountId : String)
  | rejected (socket : Socket)
  | registered (socket : Socket) (service : String)
  deriving DecidableEq

def Record.socket : Record → Socket
  | verified socket _ => socket
  | rejected socket => socket
  | registered socket _ => socket

def Event.record : Event → Option Record
  | .verified socket principal => some (.verified socket principal.accountId)
  | .rejected socket => some (.rejected socket)
  | .registered socket _ service => some (.registered socket service)
  | _ => none

/-- The writes to sessions in a history, newest first. -/
def book (log : List Entry) : List Record := log.filterMap fun entry => entry.event.record

/-- The account last verified for a session. -/
def lastAccount (records : List Record) (socket : Socket) : Option String :=
  records.findSome? fun
    | .verified other accountId => if other = socket then some accountId else none
    | _ => none

/-- The service a session last registered. -/
def lastService (records : List Record) (socket : Socket) : Option String :=
  records.findSome? fun
    | .registered other service => if other = socket then some service else none
    | _ => none

theorem lastAccount_mem {records : List Record} {socket : Socket} {accountId : String}
    (h : lastAccount records socket = some accountId) : .verified socket accountId ∈ records := by
  obtain ⟨record, hmem, hrecord⟩ := List.exists_of_findSome?_eq_some h
  cases record with
  | verified other own =>
      simp only [Option.ite_none_right_eq_some, Option.some.injEq] at hrecord
      obtain ⟨rfl, rfl⟩ := hrecord
      exact hmem
  | rejected other => simp at hrecord
  | registered other service => simp at hrecord

theorem exists_lastAccount {records : List Record} {socket : Socket} {accountId : String}
    (h : .verified socket accountId ∈ records) :
    ∃ last, lastAccount records socket = some last := by
  rw [← Option.isSome_iff_exists, lastAccount, List.findSome?_isSome_iff]
  exact ⟨_, h, by simp⟩

theorem lastService_mem {records : List Record} {socket : Socket} {service : String}
    (h : lastService records socket = some service) : .registered socket service ∈ records := by
  obtain ⟨record, hmem, hrecord⟩ := List.exists_of_findSome?_eq_some h
  cases record with
  | verified other own => simp at hrecord
  | rejected other => simp at hrecord
  | registered other own =>
      simp only [Option.ite_none_right_eq_some, Option.some.injEq] at hrecord
      obtain ⟨rfl, rfl⟩ := hrecord
      exact hmem

theorem exists_lastService {records : List Record} {socket : Socket} {service : String}
    (h : .registered socket service ∈ records) :
    ∃ last, lastService records socket = some last := by
  rw [← Option.isSome_iff_exists, lastService, List.findSome?_isSome_iff]
  exact ⟨_, h, by simp⟩

theorem lastAccount_verified_ne {records : List Record} {socket other : Socket}
    {accountId : String} (h : socket ≠ other) :
    lastAccount (.verified socket accountId :: records) other = lastAccount records other := by
  simp [lastAccount, h]

@[simp] theorem lastAccount_rejected (records : List Record) (socket other : Socket) :
    lastAccount (.rejected socket :: records) other = lastAccount records other := rfl

@[simp] theorem lastAccount_registered (records : List Record) (socket other : Socket)
    (service : String) :
    lastAccount (.registered socket service :: records) other = lastAccount records other := rfl

@[simp] theorem book_cons (entry : Entry) (log : List Entry) :
    book (entry :: log) = entry.event.record.toList ++ book log := by
  unfold book
  rw [List.filterMap_cons]
  cases entry.event.record <;> rfl

@[simp] theorem book_close (relay : RelayServer) (socket : Socket) :
    book (relay.close socket).log = book relay.log := by
  simp [close, emit, Event.record]

@[simp] theorem book_transmit (full : Socket → Outgoing → Bool) (socket : Socket)
    (message : Outgoing) (relay : RelayServer) :
    book (transmit full socket message relay).log = book relay.log := by
  unfold transmit
  split
  · rfl
  · split <;> simp [Event.record]

@[simp] theorem book_withdrawOffer (full : Socket → Outgoing → Bool) (hash status : String)
    (offer : Offer) (relay : RelayServer) :
    book (relay.withdrawOffer (transmit full) hash status offer).log = book relay.log := by
  simp [withdrawOffer, Event.record]

@[simp] theorem book_finishPair (full : Socket → Outgoing → Bool) (key status : String)
    (relay : RelayServer) :
    book (relay.finishPair (transmit full) key status).log = book relay.log := by
  unfold finishPair
  cases relay.pairs.lookup key with
  | none => rfl
  | some pair => dsimp only; split <;> split <;> simp [Event.record]

@[simp] theorem book_cancelPairing (full : Socket → Outgoing → Bool) (socket : Socket)
    (request : String) (relay : RelayServer) :
    book (relay.cancelPairing (transmit full) socket request).log = book relay.log := by
  have hoffers : ∀ (state : RelayServer) hash,
      book (state.cancelOffer (transmit full) socket request hash).log = book state.log := by
    intro state hash
    unfold cancelOffer
    cases state.offers.lookup hash with
    | none => rfl
    | some offer => dsimp only; split <;> simp
  have hpairs : ∀ (state : RelayServer) key,
      book (state.cancelPair (transmit full) socket request key).log = book state.log := by
    intro state key
    unfold cancelPair
    cases state.pairs.lookup key with
    | none => rfl
    | some pair => dsimp only; split <;> simp
  have hfold : ∀ (round : RelayServer → String → RelayServer) (keys : List String) state,
      (∀ state key, book (round state key).log = book state.log) →
        book (keys.foldl round state).log = book state.log := by
    intro round keys state hround
    induction keys generalizing state with
    | nil => rfl
    | cons key rest ih => rw [List.foldl_cons, ih, hround]
  rw [cancelPairing, hfold _ _ _ hpairs, hfold _ _ _ hoffers]

theorem closing_transmit (full : Socket → Outgoing → Bool) (socket : Socket) (message : Outgoing)
    (relay : RelayServer) :
    relay.closing ⊆ (transmit full socket message relay).closing := by
  unfold transmit
  split
  · exact List.Subset.refl _
  · split
    · exact List.subset_cons_self ..
    · exact List.Subset.refl _

theorem closing_finishPair (full : Socket → Outgoing → Bool) (key status : String)
    (relay : RelayServer) :
    relay.closing ⊆ (relay.finishPair (transmit full) key status).closing := by
  unfold finishPair
  cases relay.pairs.lookup key with
  | none => exact List.Subset.refl _
  | some pair =>
      intro socket hsocket
      dsimp only
      split <;> split
      · exact closing_transmit _ _ _ _ (closing_transmit _ _ _ _ hsocket)
      · exact closing_transmit _ _ _ _ hsocket
      · exact closing_transmit _ _ _ _ hsocket
      · exact hsocket

/-! ## Sessions agree with the book -/

/-- The sessions and the book tell the same story. -/
structure Ledger (relay : RelayServer) : Prop where
  rejected_closing : ∀ socket, .rejected socket ∈ book relay.log → socket ∈ relay.closing
  account_pinned : ∀ socket first second, .verified socket first ∈ book relay.log →
    .verified socket second ∈ book relay.log → first = second ∨ .rejected socket ∈ book relay.log
  account_ne : ∀ socket accountId, .verified socket accountId ∈ book relay.log → accountId ≠ ""
  account_stored : Table.All (fun socket session => session.principal.accountId ≠ "" →
    lastAccount (book relay.log) socket = some session.principal.accountId) relay.sessions
  account_blank : Table.All (fun socket session => session.principal.accountId = "" →
    (∀ accountId, .verified socket accountId ∉ book relay.log) ∨
      .rejected socket ∈ book relay.log) relay.sessions
  service_pinned : ∀ socket first second, .registered socket first ∈ book relay.log →
    .registered socket second ∈ book relay.log → first = second
  service_stored : Table.All (fun socket session => ∀ service,
    .registered socket service ∈ book relay.log ↔ service = session.service ∧ service ≠ "")
    relay.sessions
  named : Table.All (fun _ session => session.service = "" →
    session.id = "" ∧ session.descriptor.isEmpty = true) relay.sessions
  known : ∀ record ∈ book relay.log, record.socket < relay.sockets
  numbered : ∀ socket ∈ relay.sessions, socket < relay.sockets

/-! ## What the ledger does not notice -/

section
variable {relay after : RelayServer}

/-- The ledger depends on the sessions, the book and what is closing alone. -/
theorem Ledger.frame (h : Ledger relay) (hsessions : after.sessions = relay.sessions)
    (hbook : book after.log = book relay.log) (hclosing : relay.closing ⊆ after.closing)
    (hsockets : relay.sockets ≤ after.sockets) : Ledger after where
  rejected_closing socket hrejected := by
    rw [hbook] at hrejected
    exact hclosing (h.rejected_closing socket hrejected)
  account_pinned := by simpa only [hbook] using h.account_pinned
  account_ne := by simpa only [hbook] using h.account_ne
  account_stored := by simpa only [hbook, hsessions] using h.account_stored
  account_blank := by simpa only [hbook, hsessions] using h.account_blank
  service_pinned := by simpa only [hbook] using h.service_pinned
  service_stored := by simpa only [hbook, hsessions] using h.service_stored
  named := by simpa only [hsessions] using h.named
  known record hrecord := by
    rw [hbook] at hrecord
    exact lt_of_lt_of_le (h.known record hrecord) hsockets
  numbered socket hsocket := by
    rw [hsessions] at hsocket
    exact lt_of_lt_of_le (h.numbered socket hsocket) hsockets

/-- Fewer sessions, or the same in another order. -/
theorem Ledger.shrink (h : Ledger relay) {sessions : Table Socket Session}
    (hsessions : ∀ socket session, sessions.lookup socket = some session →
      relay.sessions.lookup socket = some session) :
    Ledger { relay with sessions := sessions } where
  rejected_closing := h.rejected_closing
  account_pinned := h.account_pinned
  account_ne := h.account_ne
  account_stored socket session hsession := h.account_stored _ _ (hsessions _ _ hsession)
  account_blank socket session hsession := h.account_blank _ _ (hsessions _ _ hsession)
  service_pinned := h.service_pinned
  service_stored socket session hsession := h.service_stored _ _ (hsessions _ _ hsession)
  named socket session hsession := h.named _ _ (hsessions _ _ hsession)
  known := h.known
  numbered socket hsocket := by
    obtain ⟨session, hsession⟩ := Table.mem_iff_lookup.1 hsocket
    exact h.numbered socket (Table.mem_of_lookup (hsessions _ _ hsession))

theorem Ledger.touch (h : Ledger relay) (socket : Socket) {f : Session → Session}
    (hkeeps : Keeps f) : Ledger (relay.update socket f) where
  rejected_closing := h.rejected_closing
  account_pinned := h.account_pinned
  account_ne := h.account_ne
  account_stored := h.account_stored.modify fun session hsession => by
    rw [(hkeeps session).1]
    exact h.account_stored socket session hsession
  account_blank := h.account_blank.modify fun session hsession => by
    rw [(hkeeps session).1]
    exact h.account_blank socket session hsession
  service_pinned := h.service_pinned
  service_stored := h.service_stored.modify fun session hsession => by
    rw [(hkeeps session).2.2.1]
    exact h.service_stored socket session hsession
  named := h.named.modify fun session hsession => by
    obtain ⟨-, hid, hservice, -, hdescriptor⟩ := hkeeps session
    rw [hid, hservice, hdescriptor]
    exact h.named socket session hsession
  known := h.known
  numbered other hother := h.numbered other (Table.mem_modify.1 hother)

/-! ## The ledger and the writes to sessions -/

/-- A new socket has no records yet. -/
theorem Ledger.welcome (h : Ledger relay) : Ledger { relay with
    sockets := relay.sockets + 1
    sessions := relay.sessions.insert relay.sockets { connected := relay.now } } where
  rejected_closing := h.rejected_closing
  account_pinned := h.account_pinned
  account_ne := h.account_ne
  account_stored := h.account_stored.insert fun hne => absurd rfl hne
  account_blank := h.account_blank.insert fun _ => .inl fun accountId hmem =>
    absurd (h.known _ hmem) (lt_irrefl _)
  service_pinned := h.service_pinned
  service_stored := h.service_stored.insert fun service =>
    ⟨fun hmem => absurd (h.known _ hmem) (lt_irrefl _),
      fun hservice => absurd hservice.1 hservice.2⟩
  named := h.named.insert fun _ => ⟨rfl, rfl⟩
  known record hrecord := Nat.lt_succ_of_lt (h.known record hrecord)
  numbered socket hsocket := by
    rcases AList.mem_insert _ |>.1 hsocket with rfl | hold
    · exact Nat.lt_succ_self _
    · exact Nat.lt_succ_of_lt (h.numbered socket hold)

/-- A session is verified again only for the account it has, unless it has none. -/
theorem Ledger.verify (h : Ledger relay) {socket : Socket} {state : Session} {bounded : Principal}
    (hstate : relay.sessions.lookup socket = some state) (hne : bounded.accountId ≠ "")
    (hpin : state.principal.accountId = "" ∨ bounded.accountId = state.principal.accountId) :
    Ledger ((relay.update socket fun session => { session with principal := bounded }).emit
      (.verified socket bounded)) := by
  have hbook : book ((relay.update socket fun session => { session with principal := bounded }).emit
      (.verified socket bounded)).log =
        .verified socket bounded.accountId :: book relay.log := by
    simp [Event.record]
  -- A blank principal means no verification so far, or that it was taken back.
  have hpinned : ∀ accountId, .verified socket accountId ∈ book relay.log →
      accountId = bounded.accountId ∨ .rejected socket ∈ book relay.log := by
    intro accountId hmem
    rcases eq_or_ne state.principal.accountId "" with hblank | hstored
    · rcases h.account_blank socket state hstate hblank with hnone | hrejected
      · exact absurd hmem (hnone accountId)
      · exact .inr hrejected
    · rw [hpin.resolve_left hstored]
      exact h.account_pinned socket accountId _ hmem
        (lastAccount_mem (h.account_stored socket state hstate hstored))
  constructor
  case rejected_closing =>
    intro other hmem
    rw [hbook] at hmem
    exact h.rejected_closing other (by simpa using hmem)
  case account_pinned =>
    intro other first second hfirst hsecond
    rw [hbook] at *
    simp only [List.mem_cons, Record.verified.injEq, reduceCtorEq, false_or] at hfirst hsecond ⊢
    rcases hfirst with ⟨rfl, rfl⟩ | hfirst
    · rcases hsecond with ⟨-, rfl⟩ | hsecond
      · exact .inl rfl
      · exact (hpinned second hsecond).imp_left Eq.symm
    · rcases hsecond with ⟨rfl, rfl⟩ | hsecond
      · exact hpinned first hfirst
      · exact h.account_pinned other first second hfirst hsecond
  case account_ne =>
    intro other accountId hmem
    rw [hbook] at hmem
    simp only [List.mem_cons, Record.verified.injEq] at hmem
    rcases hmem with ⟨-, rfl⟩ | hmem
    · exact hne
    · exact h.account_ne other accountId hmem
  case account_stored =>
    intro other session hsession haccount
    rw [hbook]
    rcases Table.lookup_modify_eq_some.1 hsession with ⟨rfl, old, -, rfl⟩ | ⟨hother, hold⟩
    · simp [lastAccount]
    · rw [lastAccount_verified_ne (Ne.symm hother)]
      exact h.account_stored other session hold haccount
  case account_blank =>
    intro other session hsession hblank
    rw [hbook]
    rcases Table.lookup_modify_eq_some.1 hsession with ⟨-, old, -, rfl⟩ | ⟨hother, hold⟩
    · exact absurd hblank hne
    · simpa [hother] using h.account_blank other session hold hblank
  case service_pinned =>
    intro other first second hfirst hsecond
    rw [hbook] at hfirst hsecond
    exact h.service_pinned other first second (by simpa using hfirst) (by simpa using hsecond)
  case service_stored =>
    intro other session hsession service
    rw [hbook]
    rcases Table.lookup_modify_eq_some.1 hsession with ⟨rfl, old, hold, rfl⟩ | ⟨-, hold⟩
    · simpa using h.service_stored other old hold service
    · simpa using h.service_stored other session hold service
  case named =>
    exact h.named.modify fun session hsession => h.named socket session hsession
  case known =>
    intro record hrecord
    rw [hbook] at hrecord
    rcases List.mem_cons.1 hrecord with rfl | hold
    · exact h.numbered socket (Table.mem_of_lookup hstate)
    · exact h.known record hold
  case numbered => exact fun other hother => h.numbered other (Table.mem_modify.1 hother)

/-- A failed authentication clears the account and closes the socket. -/
theorem Ledger.reject (h : Ledger relay) {socket : Socket} {state : Session}
    (hstate : relay.sessions.lookup socket = some state)
    (hsessions : after.sessions =
      Table.modify socket (fun session => { session with principal := {} }) relay.sessions)
    (hbook : book after.log = .rejected socket :: book relay.log)
    (hclosing : relay.closing ⊆ after.closing) (hsocket : socket ∈ after.closing)
    (hsockets : after.sockets = relay.sockets) : Ledger after := by
  constructor
  case rejected_closing =>
    intro other hmem
    rw [hbook] at hmem
    simp only [List.mem_cons, Record.rejected.injEq] at hmem
    rcases hmem with rfl | hmem
    · exact hsocket
    · exact hclosing (h.rejected_closing other hmem)
  -- A rejected socket is pinned no more, and it is closing.
  case account_pinned =>
    intro other first second hfirst hsecond
    rw [hbook] at *
    exact (h.account_pinned other first second (by simpa using hfirst)
      (by simpa using hsecond)).imp_right (List.mem_cons_of_mem _)
  case account_ne =>
    intro other accountId hmem
    rw [hbook] at hmem
    exact h.account_ne other accountId (by simpa using hmem)
  case account_stored =>
    rw [hsessions]
    intro other session hsession haccount
    rw [hbook]
    rcases Table.lookup_modify_eq_some.1 hsession with ⟨-, old, -, rfl⟩ | ⟨-, hold⟩
    · exact absurd rfl haccount
    · exact h.account_stored other session hold haccount
  -- This is how a session that was verified comes to be blank.
  case account_blank =>
    rw [hsessions]
    intro other session hsession hblank
    rw [hbook]
    rcases Table.lookup_modify_eq_some.1 hsession with ⟨rfl, -⟩ | ⟨-, hold⟩
    · exact .inr (by simp)
    · simpa [or_left_comm] using .inr (h.account_blank other session hold hblank)
  case service_pinned =>
    intro other first second hfirst hsecond
    rw [hbook] at hfirst hsecond
    exact h.service_pinned other first second (by simpa using hfirst) (by simpa using hsecond)
  case service_stored =>
    rw [hsessions, hbook]
    refine Table.All.modify ?_ fun session hsession service => ?_
    · exact h.service_stored.imp fun other session _ hservice service => by
        simpa using hservice service
    · simpa using h.service_stored socket session hsession service
  case named =>
    rw [hsessions]
    exact h.named.modify fun session hsession => h.named socket session hsession
  case known =>
    intro record hrecord
    rw [hbook] at hrecord
    rw [hsockets]
    rcases List.mem_cons.1 hrecord with rfl | hold
    · exact h.numbered socket (Table.mem_of_lookup hstate)
    · exact h.known record hold
  case numbered =>
    rw [hsessions, hsockets]
    exact fun other hother => h.numbered other (Table.mem_modify.1 hother)

/-- A session registers one service for life. -/
theorem Ledger.register (h : Ledger relay) {socket : Socket} {state : Session}
    {id service name : String} {descriptor : JsonObject}
    (hstate : relay.sessions.lookup socket = some state) (hservice : service ≠ "")
    (hpin : state.service = "" ∨ state.service = service) :
    Ledger ((relay.update socket fun session => { session with
        id := id, service := service, name := name, descriptor := descriptor }).emit
      (.registered socket id service)) := by
  have hbook : book ((relay.update socket fun session => { session with
        id := id, service := service, name := name, descriptor := descriptor }).emit
      (.registered socket id service)).log = .registered socket service :: book relay.log := by
    simp [Event.record]
  -- The service was blank before, or it is the one named again.
  have hpinned : ∀ own, .registered socket own ∈ book relay.log → own = service := by
    intro own hmem
    obtain ⟨heq, hne⟩ := (h.service_stored socket state hstate own).1 hmem
    rcases hpin with hblank | hsame
    · exact absurd (heq.trans hblank) hne
    · exact heq.trans hsame
  constructor
  case rejected_closing =>
    intro other hmem
    rw [hbook] at hmem
    exact h.rejected_closing other (by simpa using hmem)
  case account_pinned =>
    intro other first second hfirst hsecond
    rw [hbook] at *
    simpa using h.account_pinned other first second (by simpa using hfirst) (by simpa using hsecond)
  case account_ne =>
    intro other accountId hmem
    rw [hbook] at hmem
    exact h.account_ne other accountId (by simpa using hmem)
  case account_stored =>
    intro other session hsession haccount
    rw [hbook, lastAccount_registered]
    rcases Table.lookup_modify_eq_some.1 hsession with ⟨rfl, old, hold, rfl⟩ | ⟨-, hold⟩
    · exact h.account_stored other old hold haccount
    · exact h.account_stored other session hold haccount
  case account_blank =>
    intro other session hsession hblank
    rw [hbook]
    rcases Table.lookup_modify_eq_some.1 hsession with ⟨rfl, old, hold, rfl⟩ | ⟨-, hold⟩
    · simpa using h.account_blank other old hold hblank
    · simpa using h.account_blank other session hold hblank
  case service_pinned =>
    intro other first second hfirst hsecond
    rw [hbook] at hfirst hsecond
    simp only [List.mem_cons, Record.registered.injEq] at hfirst hsecond
    rcases hfirst with ⟨rfl, rfl⟩ | hfirst
    · rcases hsecond with ⟨-, rfl⟩ | hsecond
      · rfl
      · exact (hpinned second hsecond).symm
    · rcases hsecond with ⟨rfl, rfl⟩ | hsecond
      · exact hpinned first hfirst
      · exact h.service_pinned other first second hfirst hsecond
  case service_stored =>
    intro other session hsession own
    rw [hbook]
    simp only [List.mem_cons, Record.registered.injEq]
    rcases Table.lookup_modify_eq_some.1 hsession with ⟨rfl, old, -, rfl⟩ | ⟨hother, hold⟩
    · constructor
      · rintro (⟨-, rfl⟩ | hmem)
        · exact ⟨rfl, hservice⟩
        · exact ⟨hpinned own hmem, hpinned own hmem ▸ hservice⟩
      · exact fun hown => .inl ⟨rfl, hown.1⟩
    · simpa [hother] using h.service_stored other session hold own
  case named =>
    exact h.named.modify fun session _ hblank => absurd hblank hservice
  case known =>
    intro record hrecord
    rw [hbook] at hrecord
    rcases List.mem_cons.1 hrecord with rfl | hold
    · exact h.numbered socket (Table.mem_of_lookup hstate)
    · exact h.known record hold
  case numbered => exact fun other hother => h.numbered other (Table.mem_modify.1 hother)

end

/-! ## The run -/

variable {platform : Platform} {pre : RelayServer} {step : Step} {relay after : RelayServer}

theorem Ledger.change (h : Ledger relay) (change : Change platform pre step relay after) :
    Ledger after := by
  cases change with
  | welcome => exact h.welcome
  | refuse =>
      exact h.frame rfl (by simp [book_close]) (List.subset_cons_self ..) (Nat.le_succ _)
  | close socket => exact h.frame rfl (book_close ..) (List.subset_cons_self ..) le_rfl
  | touch socket f hkeeps => exact h.touch socket hkeeps
  | @verify socket principal state hinput hstate hlive hpin =>
      have hne : principal.accountId ≠ "" := live_accountId hlive
      refine h.verify hstate ?_ ?_
      · exact hne
      · exact hpin
  | @reject socket principal state hinput hstate hunpaired =>
      refine h.reject hstate ?_ ?_ ?_ List.mem_cons_self ?_
      · rw [close_sessions, transmit_sessions]
        rfl
      · simp [Event.record]
      · exact fun other hother => List.mem_cons_of_mem _ (closing_transmit _ _ _ _ hother)
      · simp
  | @register socket message state id service hinput hpre hstate hactive hid hservice
      hduplicate hsameid hsame =>
      exact h.register hstate (identifier_ne_empty hservice) hsame
  | send =>
      exact h.frame (transmit_sessions ..) (book_transmit ..) (closing_transmit ..)
        (transmit_sockets ..).ge
  | withdraw =>
      exact h.frame (withdrawOffer_pairingOnly ..).sessions (book_withdrawOffer ..)
        (fun socket hsocket => closing_transmit _ _ _ _ hsocket)
        (withdrawOffer_pairingOnly ..).sockets.ge
  | finish =>
      exact h.frame (finishPair_pairingOnly ..).sessions (book_finishPair ..)
        (closing_finishPair ..) (finishPair_pairingOnly ..).sockets.ge
  | route | answer =>
      refine h.frame (transmit_sessions ..) ?_ ?_ ?_
      · simp [Event.record]
      · exact fun socket hsocket => closing_transmit _ _ _ _ hsocket
      · simp
  | forget => exact h.shrink fun _ _ hlookup => (Table.lookup_erase_eq_some.1 hlookup).2
  | stop =>
      have hledger := h.shrink (Table.All.empty fun socket session =>
        relay.sessions.lookup socket = some session)
      exact hledger.frame rfl rfl (List.Subset.refl _) le_rfl
  | rehash hsessions hroutes hoffers hpairs =>
      have hledger := h.shrink fun socket session hlookup =>
        (hsessions.lookup socket).trans hlookup
      exact hledger.frame rfl rfl (List.Subset.refl _) le_rfl
  | _ =>
      exact h.frame rfl (by simp [Event.record]) (List.Subset.refl _) le_rfl

theorem ledger_init {time : ℤ} : Ledger { now := time } where
  rejected_closing := by simp [book]
  account_pinned := by simp [book]
  account_ne := by simp [book]
  account_stored := .empty _
  account_blank := .empty _
  service_pinned := by simp [book]
  service_stored := .empty _
  named := .empty _
  known := by simp [book]
  numbered := by simp

/-- **The sessions and the book agree in every run.** -/
theorem run_ledger {trace : List (RelayServer × Step)}
    (run : (machine platform).Run Feasible trace relay) : Ledger relay := by
  refine run.invariant_state ?_ fun state input h hfeasible =>
    (next_changes platform hfeasible).invariant (fun _ _ change hstate => hstate.change change) h
  rintro state ⟨time, rfl⟩
  exact ledger_init

end RelayServer

end ServerHost
