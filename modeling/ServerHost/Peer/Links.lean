import ServerHost.Peer.Requests

/-!
# Who reaches the handler over a direct link

A host admits an inbound link that presents a ticket of the relay.  The ticket is used up,
the link takes the name and the expiry from it, and both are forgotten with the relay.

## Strategy

`Ticketed` is the invariant of every elementary change: a ticket in the table was received
in this session and not presented, and an inbound link that is authenticated presented one.
Most changes write nothing that matters here and keep it by `Ticketed.frame`.
-/

namespace ServerHost

namespace Peer

/-! ## Sessions with the relay -/

/-- The event happened since the relay was lost last. -/
def InSession (log : List Entry) (event : Event) : Prop :=
  ∃ new old time, log = new ++ ⟨time, event⟩ :: old ∧ .relayLost ∉ events new

variable {log more : List Entry} {event : Event}

theorem InSession.head (time : ℤ) (event : Event) (log : List Entry) :
    InSession (⟨time, event⟩ :: log) event :=
  ⟨[], log, time, rfl, by simp [events]⟩

theorem InSession.grow (h : InSession log event)
    (hlog : Grows (fun entry => entry.event ≠ .relayLost) log more) : InSession more event := by
  obtain ⟨new, old, time, rfl, hnew⟩ := h
  obtain ⟨newer, rfl, hnewer⟩ := hlog
  refine ⟨newer ++ new, old, time, (List.append_assoc ..).symm, fun hlost => ?_⟩
  rw [events, List.map_append] at hlost
  rcases List.mem_append.1 hlost with hmem | hmem
  · obtain ⟨entry, hentry, heq⟩ := List.mem_map.1 hmem
    exact hnewer entry hentry heq
  · exact hnew hmem

theorem InSession.mem (h : InSession log event) : event ∈ events log := by
  obtain ⟨new, old, time, rfl, -⟩ := h
  rw [events, List.map_append]
  exact List.mem_append_right _ List.mem_cons_self

/-! ## The invariant -/

/-- What stands behind a call of the handler for a link. -/
structure Authorised (socket : Socket) (peerId : String) (time : ℤ) (earlier : List Entry) :
    Prop where
  ticket : ∃ serial text expires, InSession earlier (.ticket serial text peerId expires) ∧
    InSession earlier (.presented socket serial) ∧ (time : DateTime) < expires
  inbound : ∀ name, .dialled socket name ∉ events earlier

/-- Every call of the handler for a link is authorised. -/
def Entitled (entry : Entry) (earlier : List Entry) : Prop :=
  ∀ socket id peerId payload, entry.event = .handled (.link socket) id peerId payload →
    Authorised socket peerId entry.time earlier

/-- A ticket is the one of a message of the relay. -/
def Received (trace : List (Peer × Step)) (text peerId : String) (expires : DateTime) : Prop :=
  ∃ visit ∈ trace, ∃ message, Told visit.1 visit.2 "ticket" message ∧
    text = (message.value "ticket").toString ∧ peerId = (message.value "peerId").toString ∧
    expires = (toLongLong (message.value "expires").toString : ℤ)

/-- A link has presented the text in its `hello`. -/
def Greeted (trace : List (Peer × Step)) (socket : Socket) (text : String) : Prop :=
  ∃ visit ∈ trace, ∃ message, visit.2.input = .linkText socket message ∧
    messageType message = "hello" ∧ text = (message.value "ticket").toString

/-- What the history says about tickets. -/
structure Recorded (trace : List (Peer × Step)) (log : List Entry) : Prop where
  received : ∀ serial text peerId expires, .ticket serial text peerId expires ∈ events log →
    Received trace text peerId expires
  single : ∀ serial text peerId expires other otherId later,
    .ticket serial text peerId expires ∈ events log →
    .ticket serial other otherId later ∈ events log →
      text = other ∧ peerId = otherId ∧ expires = later
  presented : ∀ socket serial, .presented socket serial ∈ events log →
    ∃ text peerId expires, .ticket serial text peerId expires ∈ events log ∧
      Greeted trace socket text
  sole : ∀ serial first second, .presented first serial ∈ events log →
    .presented second serial ∈ events log → first = second

structure Ticketed (trace : List (Peer × Step)) (peer : Peer) : Prop
    extends Recorded trace peer.log where
  serials : ∀ serial text peerId expires, .ticket serial text peerId expires ∈ events peer.log →
    serial < peer.serials
  tickets : ∀ text ticket, peer.tickets.lookup text = some ticket →
    InSession peer.log (.ticket ticket.serial text ticket.peer ticket.expires) ∧
      ∀ socket, .presented socket ticket.serial ∉ events peer.log
  links : ∀ socket link, peer.links.lookup socket = some link → link.authenticated = true →
    link.outgoing = false → ∃ serial text,
      InSession peer.log (.ticket serial text link.peer link.expires) ∧
      InSession peer.log (.presented socket serial)
  dialled : ∀ socket name, .dialled socket name ∈ events peer.log → socket < peer.sockets
  outgoing : ∀ socket name, .dialled socket name ∈ events peer.log → socket ∈ peer.attached →
    ∀ link, peer.links.lookup socket = some link → link.outgoing = true
  attached : ∀ socket ∈ peer.attached, socket ∈ peer.links
  below : ∀ socket ∈ peer.attached, socket < peer.sockets
  handled : Always Entitled peer.log

/-- The events that say nothing about tickets and links. -/
def Event.neutral : Event → Bool
  | .ticket .. | .presented .. | .dialled .. | .relayLost | .handled (.link _) .. => false
  | _ => true

/-- The events that tell the way of a ticket. -/
def Event.ofTicket : Event → Bool
  | .ticket .. | .presented .. => true
  | _ => false

variable {platform : Platform} {trace wider : List (Peer × Step)} {pre peer after : Peer}
  {step : Step}

theorem mem_of_grows {P : Event → Prop} (hlog : Grows (fun entry => P entry.event) log more)
    (hevent : ¬ P event) : event ∈ events more ↔ event ∈ events log := by
  obtain ⟨new, rfl, hnew⟩ := hlog
  rw [events, List.map_append, List.mem_append, or_iff_right]
  · rfl
  · intro hmem
    obtain ⟨entry, hentry, rfl⟩ := List.mem_map.1 hmem
    exact hevent (hnew entry hentry)

theorem mem_of_neutral (hlog : Grows (fun entry => entry.event.neutral = true) log more)
    (hevent : event.neutral = false) : event ∈ events more ↔ event ∈ events log :=
  mem_of_grows (P := fun event => event.neutral = true) hlog (by simp [hevent])

theorem not_ofTicket_of_neutral (h : event.neutral = true) : event.ofTicket = false := by
  cases event <;> first | rfl | cases h

theorem InSession.neutral (h : InSession log event)
    (hlog : Grows (fun entry => entry.event.neutral = true) log more) : InSession more event :=
  h.grow <| hlog.mono fun entry hentry heq => by
    rw [heq] at hentry
    cases hentry

theorem Recorded.grow (h : Recorded trace log)
    (hlog : Grows (fun entry => entry.event.ofTicket = false) log more) : Recorded trace more := by
  have hmem : ∀ {event : Event}, event.ofTicket = true →
      (event ∈ events more ↔ event ∈ events log) := fun hevent =>
    mem_of_grows (P := fun event => event.ofTicket = false) hlog (by simp [hevent])
  refine ⟨fun serial text peerId expires hticket => ?_,
    fun serial text peerId expires other otherId later hticket hother => ?_,
    fun socket serial hpresented => ?_, fun serial first second hfirst hsecond => ?_⟩
  · exact h.received serial text peerId expires ((hmem rfl).1 hticket)
  · exact h.single serial text peerId expires other otherId later ((hmem rfl).1 hticket)
      ((hmem rfl).1 hother)
  · obtain ⟨text, peerId, expires, hticket, hgreeted⟩ :=
      h.presented socket serial ((hmem rfl).1 hpresented)
    exact ⟨text, peerId, expires, (hmem rfl).2 hticket, hgreeted⟩
  · exact h.sole serial first second ((hmem rfl).1 hfirst) ((hmem rfl).1 hsecond)

theorem handled_neutral (h : Always Entitled log)
    (hlog : Grows (fun entry => entry.event.neutral = true) log more) : Always Entitled more := by
  obtain ⟨new, rfl, hnew⟩ := hlog
  refine h.append fun entry hentry earlier socket id peerId payload heq => ?_
  have hneutral : entry.event.neutral = true := hnew entry hentry
  rw [heq] at hneutral
  cases hneutral

/-- What a link that is kept owes to the one before. -/
def Inherits (peer after : Peer) : Prop :=
  ∀ socket link, after.links.lookup socket = some link →
    (link.authenticated = true → link.outgoing = false →
      ∃ old, peer.links.lookup socket = some old ∧ old.authenticated = true ∧
        old.outgoing = false ∧ old.peer = link.peer ∧ old.expires = link.expires) ∧
    (socket < peer.sockets → socket ∈ after.attached → socket ∈ peer.attached ∧
      ∃ old, peer.links.lookup socket = some old ∧ (old.outgoing = true → link.outgoing = true))

theorem Inherits.of_eq (hlinks : after.links = peer.links)
    (hattached : after.attached = peer.attached) :
    Inherits peer after := by
  intro socket link hlink
  rw [hlinks] at hlink
  rw [hattached]
  exact ⟨fun hauthenticated hinbound => ⟨link, hlink, hauthenticated, hinbound, rfl, rfl⟩,
    fun _ hmem => ⟨hmem, link, hlink, id⟩⟩

/-- A change that writes nothing about tickets and links. -/
theorem Ticketed.frame (h : Ticketed trace peer)
    (htickets : ∀ text ticket, after.tickets.lookup text = some ticket →
      peer.tickets.lookup text = some ticket)
    (hserials : after.serials = peer.serials) (hsockets : peer.sockets ≤ after.sockets)
    (hinherits : Inherits peer after)
    (hattached : ∀ socket ∈ after.attached, socket ∈ after.links ∧ socket < after.sockets)
    (hlog : Grows (fun entry => entry.event.neutral = true) peer.log after.log) :
    Ticketed trace after := by
  have hmem : ∀ {event : Event}, event.neutral = false →
      (event ∈ events after.log ↔ event ∈ events peer.log) := mem_of_neutral hlog
  refine { h.toRecorded.grow (hlog.mono fun _ => not_ofTicket_of_neutral) with
    serials := fun serial text peerId expires hticket => ?_
    tickets := fun text ticket hticket => ?_
    links := fun socket link hlink hauthenticated hinbound => ?_
    dialled := fun socket name hdialled => ?_
    outgoing := fun socket name hdialled hsocket link hlink => ?_
    attached := fun socket hsocket => (hattached socket hsocket).1
    below := fun socket hsocket => (hattached socket hsocket).2
    handled := handled_neutral h.handled hlog }
  · rw [hserials]
    exact h.serials serial text peerId expires ((hmem rfl).1 hticket)
  · obtain ⟨hsession, hunused⟩ := h.tickets text ticket (htickets text ticket hticket)
    exact ⟨hsession.neutral hlog, fun socket hused => hunused socket ((hmem rfl).1 hused)⟩
  · obtain ⟨old, hold, holdAuthenticated, holdInbound, hpeer, hexpires⟩ :=
      (hinherits socket link hlink).1 hauthenticated hinbound
    obtain ⟨serial, text, hticket, hpresented⟩ :=
      h.links socket old hold holdAuthenticated holdInbound
    rw [hpeer, hexpires] at hticket
    exact ⟨serial, text, hticket.neutral hlog, hpresented.neutral hlog⟩
  · exact (h.dialled socket name ((hmem rfl).1 hdialled)).trans_le hsockets
  · have hbefore := (hmem rfl).1 hdialled
    obtain ⟨hold, old, hlookup, himp⟩ :=
      (hinherits socket link hlink).2 (h.dialled socket name hbefore) hsocket
    exact himp (h.outgoing socket name hbefore hold old hlookup)

/-! ## The changes that matter -/

/-- Links and tickets are forgotten. -/
theorem Ticketed.resetLocal (h : Ticketed trace peer) : Ticketed trace peer.resetLocal := by
  refine h.frame (fun _ _ hticket => by cases hticket) rfl le_rfl
    (fun _ _ hlink => by cases hlink) (fun socket hsocket => ?_) (.of_eq rfl)
  obtain ⟨hold, hnone⟩ := List.mem_filter.1 hsocket
  exact absurd (h.attached socket hold) (of_decide_eq_true hnone)

theorem Ticketed.relayDown (h : Ticketed trace peer) :
    Ticketed trace (peer.emit .relayLost).relayDown.resetLocal := by
  have hone : Grows (fun entry => entry.event.ofTicket = false) peer.log
      (⟨peer.now, .relayLost⟩ :: peer.log) := .cons rfl
  have hmem : ∀ {event : Event}, event ≠ .relayLost →
      (event ∈ events (peer.emit .relayLost).relayDown.log ↔ event ∈ events peer.log) := by
    intro event hevent
    exact (List.mem_cons).trans (or_iff_right hevent)
  have hattached : ∀ socket, socket ∉ (peer.emit .relayLost).relayDown.resetLocal.attached := by
    intro socket hsocket
    obtain ⟨hold, hnone⟩ := List.mem_filter.1 hsocket
    exact absurd (h.attached socket hold) (of_decide_eq_true hnone)
  refine { h.toRecorded.grow hone with
    serials := fun serial text peerId expires hticket => ?_
    tickets := fun _ _ hticket => by cases hticket
    links := fun _ _ hlink => by cases hlink
    dialled := fun socket name hdialled => ?_
    outgoing := fun socket _ _ hsocket => absurd hsocket (hattached socket)
    attached := fun socket hsocket => absurd hsocket (hattached socket)
    below := fun socket hsocket => absurd hsocket (hattached socket)
    handled := h.handled.cons fun _ _ _ _ heq => by cases heq }
  · exact h.serials serial text peerId expires ((hmem (by simp)).1 hticket)
  · exact h.dialled socket name ((hmem (by simp)).1 hdialled)

/-- The relay sends a ticket. -/
theorem Ticketed.ticketMessage (h : Ticketed trace peer) {message : JsonObject}
    (hreceived : Received trace (message.value "ticket").toString
      (message.value "peerId").toString (toLongLong (message.value "expires").toString : ℤ)) :
    Ticketed trace (peer.ticketMessage message) := by
  unfold Peer.ticketMessage
  dsimp only
  split
  · exact h
  have hone : ∀ (expires : DateTime) (log : List Entry),
      Grows (fun entry : Entry => entry.event ≠ .relayLost) log
        (⟨peer.now, .ticket peer.serials (message.value "ticket").toString
          (message.value "peerId").toString expires⟩ :: log) := fun _ _ => .cons (by simp)
  -- The number of the new ticket was not used before.
  have hnew : ∀ text peerId expires, .ticket peer.serials text peerId expires ∉ events peer.log :=
    fun text peerId expires hticket =>
      absurd (h.serials peer.serials text peerId expires hticket) (lt_irrefl _)
  have hunused : ∀ socket, .presented socket peer.serials ∉ events peer.log := by
    intro socket hpresented
    obtain ⟨text, peerId, expires, hticket, -⟩ := h.presented socket _ hpresented
    exact hnew text peerId expires hticket
  refine ⟨⟨fun serial text peerId expires hticket => ?_,
    fun serial text peerId expires other otherId later hticket hother => ?_,
    fun socket serial hpresented => ?_, fun serial first second hfirst hsecond => ?_⟩,
    fun serial text peerId expires hticket => ?_, fun text ticket hticket => ?_,
    fun socket link hlink hauthenticated hinbound => ?_, fun socket name hdialled => ?_,
    fun socket name hdialled hsocket link hlink => ?_, h.attached, h.below,
    h.handled.cons fun _ _ _ _ heq => by cases heq⟩
  · rcases List.mem_cons.1 hticket with heq | hold
    · cases heq
      exact hreceived
    · exact h.received serial text peerId expires hold
  · rcases List.mem_cons.1 hticket with heq | hold
    · cases heq
      rcases List.mem_cons.1 hother with heq | hold
      · cases heq
        exact ⟨rfl, rfl, rfl⟩
      · exact absurd hold (hnew other otherId later)
    · rcases List.mem_cons.1 hother with heq | holdOther
      · cases heq
        exact absurd hold (hnew text peerId expires)
      · exact h.single serial text peerId expires other otherId later hold holdOther
  · have hold := (List.mem_cons.1 hpresented).resolve_left (by simp)
    obtain ⟨text, peerId, expires, hticket, hgreeted⟩ := h.presented socket serial hold
    exact ⟨text, peerId, expires, List.mem_cons_of_mem _ hticket, hgreeted⟩
  · exact h.sole serial first second ((List.mem_cons.1 hfirst).resolve_left (by simp))
      ((List.mem_cons.1 hsecond).resolve_left (by simp))
  · rcases List.mem_cons.1 hticket with heq | hold
    · cases heq
      exact Nat.lt_succ_self _
    · exact (h.serials serial text peerId expires hold).trans (Nat.lt_succ_self _)
  · rcases Table.lookup_insert_eq_some.1 hticket with ⟨rfl, rfl⟩ | ⟨-, hold⟩
    · refine ⟨.head .., fun socket hpresented => hunused socket ?_⟩
      exact (List.mem_cons.1 hpresented).resolve_left (by simp)
    · obtain ⟨hsession, hnone⟩ := h.tickets text ticket hold
      refine ⟨hsession.grow (hone _ _), fun socket hpresented => hnone socket ?_⟩
      exact (List.mem_cons.1 hpresented).resolve_left (by simp)
  · obtain ⟨serial, text, hticket, hpresented⟩ := h.links socket link hlink hauthenticated hinbound
    exact ⟨serial, text, hticket.grow (hone _ _), hpresented.grow (hone _ _)⟩
  · exact h.dialled socket name ((List.mem_cons.1 hdialled).resolve_left (by simp))
  · exact h.outgoing socket name ((List.mem_cons.1 hdialled).resolve_left (by simp)) hsocket link
      hlink

/-- An inbound link presents a ticket, which is used up. -/
theorem Ticketed.present (h : Ticketed trace peer) {socket : Socket} {text : String}
    {ticket : Ticket} (hticket : peer.tickets.lookup text = some ticket)
    (hgreeted : Greeted trace socket text) :
    Ticketed trace (peer.present socket text ticket) := by
  obtain ⟨hsession, hunused⟩ := h.tickets text ticket hticket
  have hone : Grows (fun entry => entry.event ≠ .relayLost) peer.log
      (⟨peer.now, .presented socket ticket.serial⟩ :: peer.log) := .cons (by simp)
  have hmem : ∀ {event : Event}, (∀ other serial, event ≠ .presented other serial) →
      (event ∈ events (peer.present socket text ticket).log ↔ event ∈ events peer.log) := by
    intro event hevent
    exact (List.mem_cons).trans (or_iff_right (hevent _ _))
  refine ⟨⟨fun serial own peerId expires hown => ?_,
    fun serial own peerId expires other otherId later hown hother => ?_,
    fun other serial hpresented => ?_, fun serial first second hfirst hsecond => ?_⟩,
    fun serial own peerId expires hown => ?_, fun own other hother => ?_,
    fun other own hown hauthenticated hout => ?_, fun other name hdialled => ?_,
    fun other name hdialled hattached own hown => ?_, fun other hother => ?_, h.below,
    h.handled.cons fun _ _ _ _ heq => by cases heq⟩
  · exact h.received serial own peerId expires ((hmem (by simp)).1 hown)
  · exact h.single serial own peerId expires other otherId later ((hmem (by simp)).1 hown)
      ((hmem (by simp)).1 hother)
  · rcases List.mem_cons.1 hpresented with heq | hold
    · cases heq
      exact ⟨text, ticket.peer, ticket.expires, (hmem (by simp)).2 hsession.mem, hgreeted⟩
    · obtain ⟨own, peerId, expires, hown, hbefore⟩ := h.presented other serial hold
      exact ⟨own, peerId, expires, (hmem (by simp)).2 hown, hbefore⟩
  -- The number was not presented before, so no second presentation of it exists.
  · rcases List.mem_cons.1 hfirst with heq | hold
    · cases heq
      rcases List.mem_cons.1 hsecond with heq | hold
      · cases heq
        rfl
      · exact absurd hold (hunused second)
    · rcases List.mem_cons.1 hsecond with heq | holdSecond
      · cases heq
        exact absurd hold (hunused first)
      · exact h.sole serial first second hold holdSecond
  · exact h.serials serial own peerId expires ((hmem (by simp)).1 hown)
  · -- Another ticket has another number.
    obtain ⟨hne, hold⟩ := Table.lookup_erase_eq_some.1 hother
    obtain ⟨hotherSession, hnone⟩ := h.tickets own other hold
    refine ⟨hotherSession.grow hone, fun presenter hpresented => ?_⟩
    rcases List.mem_cons.1 hpresented with heq | hbefore
    · have hserial : other.serial = ticket.serial := (Event.presented.inj heq).2
      have hsame := (h.single _ _ _ _ _ _ _ (hserial ▸ hotherSession.mem) hsession.mem).1
      exact hne hsame
    · exact hnone presenter hbefore
  · rcases Table.lookup_modify_eq_some.1 hown with ⟨rfl, old, hold, rfl⟩ | ⟨hne, hold⟩
    · exact ⟨ticket.serial, text, hsession.grow hone, .head ..⟩
    · obtain ⟨serial, own', hfirst, hsecond⟩ := h.links other own hold hauthenticated hout
      exact ⟨serial, own', hfirst.grow hone, hsecond.grow hone⟩
  · exact h.dialled other name ((hmem (by simp)).1 hdialled)
  · have hbefore := h.outgoing other name ((hmem (by simp)).1 hdialled) hattached
    rcases Table.lookup_modify_eq_some.1 hown with ⟨rfl, old, hold, rfl⟩ | ⟨hne, hold⟩
    · exact hbefore old hold
    · exact hbefore own hold
  · exact Table.mem_modify.2 (h.attached other hother)

/-- A socket is made for an outgoing link. -/
theorem Ticketed.dial (h : Ticketed trace peer) (peerId : String) (attempt : Attempt) :
    Ticketed trace (peer.dial peerId attempt) := by
  -- the one new event is `dialled`
  have hmem : ∀ {event : Event}, (∀ socket name, event ≠ .dialled socket name) →
      (event ∈ events (peer.dial peerId attempt).log ↔ event ∈ events peer.log) := by
    intro event hevent
    exact (List.mem_cons).trans (or_iff_right (hevent _ _))
  have hone : Grows (fun entry => entry.event.ofTicket = false) peer.log
      (⟨peer.now, .dialled peer.sockets peerId⟩ :: peer.log) := .cons rfl
  have hsession : Grows (fun entry => entry.event ≠ .relayLost) peer.log
      (⟨peer.now, .dialled peer.sockets peerId⟩ :: peer.log) := .cons (by simp)
  refine { h.toRecorded.grow hone with
    serials := fun serial text name expires hticket => ?_
    tickets := fun text ticket hticket => ?_
    links := fun socket link hlink hauthenticated hinbound => ?_
    dialled := fun socket name hdialled => ?_
    outgoing := fun socket name hdialled hsocket link hlink => ?_
    attached := fun socket hsocket => (AList.mem_insert _).2 (.inr (h.attached socket hsocket))
    below := fun socket hsocket => (h.below socket hsocket).trans (Nat.lt_succ_self _)
    handled := h.handled.cons fun _ _ _ _ heq => by cases heq }
  · exact h.serials serial text name expires ((hmem (by simp)).1 hticket)
  · obtain ⟨hcurrent, hunused⟩ := h.tickets text ticket hticket
    exact ⟨hcurrent.grow hsession, fun socket hused => hunused socket ((hmem (by simp)).1 hused)⟩
  · rcases Table.lookup_insert_eq_some.1 hlink with ⟨-, rfl⟩ | ⟨-, hold⟩
    · cases hinbound
    · obtain ⟨serial, text, hticket, hpresented⟩ := h.links socket link hold hauthenticated hinbound
      exact ⟨serial, text, hticket.grow hsession, hpresented.grow hsession⟩
  · rcases List.mem_cons.1 hdialled with heq | hold
    · cases heq
      exact Nat.lt_succ_self _
    · exact (h.dialled socket name hold).trans (Nat.lt_succ_self _)
  · rcases Table.lookup_insert_eq_some.1 hlink with ⟨-, rfl⟩ | ⟨hne, hlookup⟩
    · rfl
    · rcases List.mem_cons.1 hdialled with heq | hold
      · cases heq
        exact absurd rfl hne
      · exact h.outgoing socket name hold hsocket link hlookup

theorem Ticketed.reach (h : Ticketed trace peer) (peerId : String) (attempt : Attempt) (url : Url)
    (fingerprint : String) : Ticketed trace
      ((peer.dial peerId attempt).attach peer.sockets url fingerprint) := by
  have hdial := h.dial peerId attempt
  refine { hdial with
    outgoing := fun socket name hdialled hsocket link hlink => ?_
    attached := fun socket hsocket => ?_
    below := fun socket hsocket => ?_ }
  · rcases List.mem_cons.1 hsocket with rfl | hold
    · obtain rfl := Option.some.inj ((AList.lookup_insert _).symm.trans hlink)
      rfl
    · exact hdial.outgoing socket name hdialled hold link hlink
  · rcases List.mem_cons.1 hsocket with rfl | hold
    · exact (AList.mem_insert _).2 (.inl rfl)
    · exact hdial.attached socket hold
  · rcases List.mem_cons.1 hsocket with rfl | hold
    · exact Nat.lt_succ_self _
    · exact hdial.below socket hold

/-- The handler is called for a link. -/
theorem Ticketed.serve (h : Ticketed trace peer) {channel : Channel} {id peerId : String}
    (payload : JsonObject) (hserves : Serves peer step id peerId channel) :
    Ticketed trace (peer.emit (.handled channel id peerId payload)) := by
  -- only a link that is authenticated by a ticket gets its request served
  have hentitled : Entitled ⟨peer.now, .handled channel id peerId payload⟩ peer.log := by
    rintro socket own name content heq
    cases heq
    obtain ⟨link, message, hheard, -, -, rfl, hauthenticated, hinbound, -, hlive⟩ := hserves
    obtain ⟨serial, text, hticket, hpresented⟩ :=
      h.links socket link hheard.stored hauthenticated hinbound
    refine ⟨⟨serial, text, link.expires, hticket, hpresented, hlive⟩, fun name hdialled => ?_⟩
    have hout := h.outgoing socket name hdialled hheard.attached link hheard.stored
    rw [hinbound] at hout
    cases hout
  have hmem : ∀ {event : Event},
      (∀ other own name content, event ≠ .handled other own name content) →
      (event ∈ events (peer.emit (.handled channel id peerId payload)).log ↔
        event ∈ events peer.log) := by
    intro event hevent
    exact (List.mem_cons).trans (or_iff_right (hevent _ _ _ _))
  have hsession : Grows (fun entry => entry.event ≠ .relayLost) peer.log
      (⟨peer.now, .handled channel id peerId payload⟩ :: peer.log) := .cons (by simp)
  refine { h.toRecorded.grow (.cons rfl) with
    serials := fun serial text name expires hticket => ?_
    tickets := fun text ticket hticket => ?_
    links := fun socket link hlink hauthenticated hinbound => ?_
    dialled := fun socket name hdialled => ?_
    outgoing := fun socket name hdialled => ?_
    attached := h.attached
    below := h.below
    handled := h.handled.cons hentitled }
  · exact h.serials serial text name expires ((hmem (by simp)).1 hticket)
  · obtain ⟨hcurrent, hunused⟩ := h.tickets text ticket hticket
    exact ⟨hcurrent.grow hsession, fun socket hused => hunused socket ((hmem (by simp)).1 hused)⟩
  · obtain ⟨serial, text, hticket, hpresented⟩ := h.links socket link hlink hauthenticated hinbound
    exact ⟨serial, text, hticket.grow hsession, hpresented.grow hsession⟩
  · exact h.dialled socket name ((hmem (by simp)).1 hdialled)
  · exact h.outgoing socket name ((hmem (by simp)).1 hdialled)

/-! ## The run -/

theorem Received.mono {text peerId : String} {expires : DateTime}
    (h : Received trace text peerId expires) (hwider : trace ⊆ wider) :
    Received wider text peerId expires := by
  obtain ⟨visit, hvisit, hrest⟩ := h
  exact ⟨visit, hwider hvisit, hrest⟩

theorem Greeted.mono {socket : Socket} {text : String} (h : Greeted trace socket text)
    (hwider : trace ⊆ wider) : Greeted wider socket text := by
  obtain ⟨visit, hvisit, hrest⟩ := h
  exact ⟨visit, hwider hvisit, hrest⟩

theorem Ticketed.mono (h : Ticketed trace peer) (hwider : trace ⊆ wider) :
    Ticketed wider peer := by
  refine { h with received := ?_, presented := ?_ }
  · intro serial text peerId expires hticket
    exact (h.received serial text peerId expires hticket).mono hwider
  · intro socket serial hpresented
    obtain ⟨text, peerId, expires, hticket, hgreeted⟩ := h.presented socket serial hpresented
    exact ⟨text, peerId, expires, hticket, hgreeted.mono hwider⟩

/-- Links that lose nothing that matters. -/
theorem inherits_modify {socket : Socket} {f : Link → Link}
    (hf : ∀ link, peer.links.lookup socket = some link → link.outgoing = true ∧
      (f link).outgoing = link.outgoing) :
    Inherits peer { peer with links := Table.modify socket f peer.links } := by
  intro other link hlink
  rcases Table.lookup_modify_eq_some.1 hlink with ⟨rfl, old, hold, rfl⟩ | ⟨-, hold⟩
  · obtain ⟨hout, hsame⟩ := hf old hold
    refine ⟨fun _ hinbound => ?_, fun _ hmem => ⟨hmem, old, hold, fun _ => hsame.trans hout⟩⟩
    rw [hsame, hout] at hinbound
    cases hinbound
  · exact ⟨fun hauthenticated hinbound => ⟨link, hold, hauthenticated, hinbound, rfl, rfl⟩,
      fun _ hmem => ⟨hmem, link, hold, id⟩⟩

theorem neutral_of_plain (h : event.plain = true) : event.neutral = true := by
  cases event <;> simp_all [Event.plain, Event.neutral]

/-- **What an elementary change of a turn that the trace holds keeps.** -/
theorem Ticketed.change (h : Ticketed trace peer) (hvisit : (pre, step) ∈ trace)
    (change : Change platform pre step peer after) : Ticketed trace after := by
  have hattached : ∀ socket ∈ peer.attached, socket ∈ peer.links ∧ socket < peer.sockets :=
    fun socket hsocket => ⟨h.attached socket hsocket, h.below socket hsocket⟩
  have hone : ∀ {time : ℤ} {event : Event} {log : List Entry}, event.neutral = true →
      Grows (fun entry => entry.event.neutral = true) log (⟨time, event⟩ :: log) :=
    fun hneutral => .cons hneutral
  -- Most changes leave the tickets, the links and the numbers alone.
  have hstill : ∀ {after : Peer}, after.tickets = peer.tickets → after.links = peer.links →
      after.attached = peer.attached → after.serials = peer.serials →
      peer.sockets ≤ after.sockets →
      Grows (fun entry => entry.event.neutral = true) peer.log after.log →
      Ticketed trace after := by
    intro after htickets hlinks hsame hserials hsockets hlog
    refine h.frame (fun _ _ hticket => htickets ▸ hticket) hserials hsockets
      (.of_eq hlinks hsame) (fun socket hsocket => ?_) hlog
    rw [hsame] at hsocket
    exact ⟨hlinks ▸ h.attached socket hsocket, (h.below socket hsocket).trans_le hsockets⟩
  cases change with
  | quiet hquiet =>
      refine hstill hquiet.tickets hquiet.links hquiet.attached hquiet.serials hquiet.sockets ?_
      exact hquiet.log.mono fun _ hplain => neutral_of_plain hplain
  | relayLost => exact h.relayDown
  | reset => exact h.resetLocal
  | take result hmem =>
      obtain ⟨request, hrequest⟩ := Table.mem_iff_lookup.1 hmem
      rw [take_of_lookup hrequest]
      exact hstill rfl rfl rfl rfl le_rfl (hone rfl)
  | answer result hrequest =>
      rw [take_of_lookup hrequest]
      exact hstill rfl rfl rfl rfl le_rfl (hone rfl)
  | recreate hnone =>
      rw [index_of_not_mem hnone]
      exact hstill rfl rfl rfl rfl le_rfl (hone rfl)
  | handSent => exact hstill rfl rfl rfl rfl le_rfl (Grows.trans (hone rfl) (hone rfl))
  | request peerId payload =>
      simp only [Peer.request]
      split <;> exact hstill rfl rfl rfl rfl le_rfl (hone rfl)
  | takeIn =>
      -- The new link has not authenticated, and its number was not used.
      refine h.frame (fun _ _ => id) rfl (Nat.le_succ _) (fun socket link hlink => ?_)
        (fun socket hsocket => ?_) (.of_eq rfl)
      · rcases Table.lookup_insert_eq_some.1 hlink with ⟨rfl, rfl⟩ | ⟨hne, hold⟩
        · exact ⟨fun hauthenticated => (by cases hauthenticated),
            fun hlt => absurd hlt (lt_irrefl _)⟩
        · refine ⟨fun hauthenticated hinbound => ⟨link, hold, hauthenticated, hinbound, rfl, rfl⟩,
            fun _ hmem => ⟨(List.mem_cons.1 hmem).resolve_left hne, link, hold, id⟩⟩
      · rcases List.mem_cons.1 hsocket with rfl | hold
        · exact ⟨(AList.mem_insert _).2 (.inl rfl), Nat.lt_succ_self _⟩
        · exact ⟨(AList.mem_insert _).2 (.inr (h.attached socket hold)),
            (h.below socket hold).trans (Nat.lt_succ_self _)⟩
  | dial => exact h.dial ..
  | reach => exact h.reach ..
  | @welcome socket link message hheard _ hout =>
      -- `welcome` authenticates links that this peer dialled, never an accepted one.
      refine h.frame (fun _ _ => id) rfl le_rfl (inherits_modify fun own hown => ?_)
        (fun other hother => ?_) (.of_eq rfl)
      · obtain rfl := Option.some.inj (hheard.stored.symm.trans hown)
        exact ⟨hout, rfl⟩
      · exact ⟨Table.mem_modify.2 (h.attached other hother), h.below other hother⟩
  | @present socket link message text ticket hheard _ _ hhello htext _ hticket =>
      exact h.present hticket ⟨(pre, step), hvisit, message, hheard.heard, hhello, htext⟩
  | @unlink _ gone own hown =>
      refine h.frame (fun _ _ => id) rfl le_rfl (fun socket link hlink => ?_)
        (fun socket hsocket => ?_) (hone rfl)
      · obtain ⟨-, hold⟩ := Table.lookup_erase_eq_some.1 hlink
        exact ⟨fun hauthenticated hinbound => ⟨link, hold, hauthenticated, hinbound, rfl, rfl⟩,
          fun _ hmem => ⟨(List.mem_filter.1 hmem).1, link, hold, id⟩⟩
      · obtain ⟨hold, hother⟩ := List.mem_filter.1 hsocket
        exact ⟨AList.mem_erase.2 ⟨of_decide_eq_true hother, h.attached socket hold⟩,
          h.below socket hold⟩
  | @phantom _ socket hnone =>
      -- `links[socket]` writes a default entry, which is not authenticated.
      refine h.frame (fun _ _ => id) rfl le_rfl (fun other link hlink => ?_)
        (fun other hother => ?_) (.of_eq rfl)
      · rcases Table.lookup_insert_eq_some.1 hlink with ⟨rfl, rfl⟩ | ⟨-, hold⟩
        · exact ⟨fun hauthenticated => (by cases hauthenticated),
            fun _ hmem => absurd (h.attached _ hmem) hnone⟩
        · exact ⟨fun hauthenticated hinbound => ⟨link, hold, hauthenticated, hinbound, rfl, rfl⟩,
            fun _ hmem => ⟨hmem, link, hold, id⟩⟩
      · exact ⟨(AList.mem_insert _).2 (.inr (h.attached other hother)), h.below other hother⟩
  | ticket htold => exact h.ticketMessage ⟨(pre, step), hvisit, _, htold, rfl, rfl, rfl⟩
  | dropTicket text =>
      exact h.frame (fun _ _ hticket => (Table.lookup_erase_eq_some.1 hticket).2) rfl le_rfl
        (.of_eq rfl rfl) hattached (.of_eq rfl)
  | serve payload hserves => exact h.serve payload hserves
  | refuse | flushing | hand | greeted => exact hstill rfl rfl rfl rfl le_rfl (hone rfl)
  | _ => exact hstill rfl rfl rfl rfl le_rfl (.of_eq rfl)

theorem run_ticketed (run : (machine platform).Run (fun _ _ => True) trace peer) :
    Ticketed trace peer := by
  induction run with
  | start hinit =>
      obtain ⟨time, rfl⟩ := hinit
      refine ⟨⟨?_, ?_, ?_, ?_⟩, ?_, ?_, ?_, ?_, ?_, ?_, ?_, .nil⟩
      all_goals simp [events]
  | @step trace pre step run _ ih =>
      exact (next_changes platform pre step).invariant
        (fun _ _ change h => h.change List.mem_cons_self change)
        (ih.mono (List.subset_cons_self _ _))

/-- **A link reaches the handler only with a live ticket of its own.** -/
theorem run_authorised (run : (machine platform).Run (fun _ _ => True) trace peer) :
    Always Entitled peer.log ∧ Recorded trace peer.log :=
  ⟨(run_ticketed run).handled, (run_ticketed run).toRecorded⟩

/-- The client `h` presents its ticket and sends a request. -/
def visiting : List Input :=
  [.start { Options.sample with localEnabled := true } true (.ok 0), .relayConnected,
    .relayText ⟨[("type", .string "registered")]⟩,
    .relayText ⟨[("type", .string "ticket"), ("ticket", .string "t"), ("peerId", .string "h"),
      ("expires", .string "60000")]⟩,
    .newConnection,
    .linkText 0 ⟨[("type", .string "hello"), ("ticket", .string "t")]⟩,
    .linkText 0 ⟨[("type", .string "request"), ("id", .string "r"), ("payload", .object [])]⟩]

/-- The handler serves the client. -/
theorem run_authorised_visiting : ∃ trace peer,
    (machine .sample).Run (fun _ _ => True) trace peer ∧
    (events peer.log)[1]? = some (.handled (.link 0) "r" "h" ⟨[]⟩) ∧
    Always Entitled peer.log ∧ Recorded trace peer.log := by
  have hstart : (machine .sample).Run (fun _ _ => True) [] { now := 0 } := .start ⟨0, rfl⟩
  obtain ⟨trace, run⟩ := hstart.extend_all (visiting.map (Step.mk · World.sample))
  exact ⟨trace, _, run, rfl, run_authorised run⟩

end Peer

end ServerHost
