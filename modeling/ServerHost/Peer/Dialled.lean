import ServerHost.Peer.Links
import ServerHost.Peer.Messages

/-!
# Links that a peer dialled

A peer dials a link only with a ticket that the relay offered to it, and to the peer that the
offer names; the requests that are handed to the link were made to that peer.  Whether a link
was dialled or accepted is settled when its socket is made.

## Strategy

`keeps_of_change` says once what an elementary change does to the links, and what is known of
them follows from it (`Directed`).  What the history tells of links is `Aimed`; only five
changes add to it.
-/

namespace ServerHost

namespace Peer

/-! ## Links and where they lead -/

/-- The relay offered a link to the peer, with the ticket. -/
def Invited (trace : List (Peer × Step)) (peerId ticket : String) : Prop :=
  ∃ visit ∈ trace, ∃ message, Told visit.1 visit.2 "connect" message ∧
    peerId = (message.value "peerId").toString ∧ ticket = (message.value "ticket").toString

/-- A link of the peer presented the ticket. -/
def Presents (trace : List (Peer × Step)) (socket : Socket) (text : String) : Prop :=
  ∃ visit ∈ trace, ∃ link message, Heard visit.1 visit.2 socket link message ∧
    messageType message = "hello" ∧ text = (message.value "ticket").toString

/-- A link is dialled with a ticket that the relay offered, and no other link has one. -/
structure Directed (trace : List (Peer × Step)) (peer : Peer) : Prop where
  attempts : ∀ peerId attempt, peer.attempts.lookup peerId = some attempt →
    Invited trace peerId attempt.ticket
  links : ∀ socket link, peer.links.lookup socket = some link → link.outgoing = true →
    .dialled socket link.peer ∈ events peer.log ∧ Invited trace link.peer link.ticket
  bare : ∀ socket link, peer.links.lookup socket = some link → link.outgoing = false →
    link.ticket = ""

/-- What the history tells of links: a socket is dialled once, the requests that are handed
to it were made to the peer that was dialled, and a ticket that is presented was received. -/
structure Aimed (trace : List (Peer × Step)) (peer : Peer) : Prop where
  below : ∀ socket name, .dialled socket name ∈ events peer.log → socket < peer.sockets
  single : ∀ socket first second, .dialled socket first ∈ events peer.log →
    .dialled socket second ∈ events peer.log → first = second
  flushed : ∀ socket name, .flushing (.link socket) name ∈ events peer.log →
    .dialled socket name ∈ events peer.log
  handed : ∀ id socket payload, .handed id (.link socket) payload ∈ events peer.log →
    ∃ peerId deadline, .requested id peerId payload deadline ∈ events peer.log ∧
      .dialled socket peerId ∈ events peer.log
  presented : ∀ socket serial, .presented socket serial ∈ events peer.log →
    ∃ text peerId expires, .ticket serial text peerId expires ∈ events peer.log ∧
      Presents trace socket text

/-- The events that tell of links. -/
def Event.aims : Event → Bool
  | .dialled .. | .flushing (.link _) _ | .handed _ (.link _) _ | .presented .. => true
  | _ => false

/-- A link that was not dialled stays so. -/
structure Sided (peer after : Peer) : Prop where
  sockets : peer.sockets ≤ after.sockets
  outgoing : ∀ socket < peer.sockets, ∀ link, after.links.lookup socket = some link →
    link.outgoing = true → ∃ old, peer.links.lookup socket = some old ∧ old.outgoing = true

variable {platform : Platform} {trace more : List (Peer × Step)} {pre peer after : Peer}
  {step : Step}

theorem Invited.mono {peerId ticket : String} (h : Invited trace peerId ticket)
    (hmore : trace ⊆ more) : Invited more peerId ticket := by
  obtain ⟨visit, hvisit, hrest⟩ := h
  exact ⟨visit, hmore hvisit, hrest⟩

theorem Directed.mono (h : Directed trace peer) (hmore : trace ⊆ more) : Directed more peer where
  attempts peerId attempt hattempt := (h.attempts peerId attempt hattempt).mono hmore
  links socket link hlink hout := by
    obtain ⟨hdialled, hinvited⟩ := h.links socket link hlink hout
    exact ⟨hdialled, hinvited.mono hmore⟩
  bare := h.bare

theorem Aimed.mono (h : Aimed trace peer) (hmore : trace ⊆ more) : Aimed more peer := by
  refine { h with presented := fun socket serial hpresented => ?_ }
  obtain ⟨text, peerId, expires, hticket, visit, hvisit, hrest⟩ :=
    h.presented socket serial hpresented
  exact ⟨text, peerId, expires, hticket, visit, hmore hvisit, hrest⟩

theorem Sided.refl (peer : Peer) : Sided peer peer :=
  ⟨le_rfl, fun _ _ link hlink hout => ⟨link, hlink, hout⟩⟩

theorem Sided.trans {first second third : Peer} (h : Sided first second)
    (h' : Sided second third) : Sided first third := by
  refine ⟨h.sockets.trans h'.sockets, fun socket hbelow link hlink hout => ?_⟩
  obtain ⟨old, hold, hout⟩ := h'.outgoing socket (hbelow.trans_le h.sockets) link hlink hout
  exact h.outgoing socket hbelow old hold hout

/-! ## Links and attempts -/

/-- Where a link comes from that is there after a change. -/
inductive Keeps (peer after : Peer) (socket : Socket) (link : Link) : Prop
  | old (before : Link) : peer.links.lookup socket = some before →
      before.outgoing = link.outgoing → before.ticket = link.ticket →
      (link.outgoing = true → before.peer = link.peer) → Keeps peer after socket link
  | accepted : link.outgoing = false → link.ticket = "" → Keeps peer after socket link
  | dialled (attempt : Attempt) : peer.attempts.lookup link.peer = some attempt →
      link.outgoing = true → link.ticket = attempt.ticket → socket = peer.sockets →
      .dialled socket link.peer ∈ events after.log → Keeps peer after socket link

/-- An elementary change leaves the links alone, or accepts or dials a new one. -/
theorem keeps_of_change (change : Change platform pre step peer after) :
    peer.sockets ≤ after.sockets ∧
      ∀ socket link, after.links.lookup socket = some link → Keeps peer after socket link := by
  have hsame : ∀ {after : Peer}, after.sockets = peer.sockets → after.links = peer.links →
      peer.sockets ≤ after.sockets ∧
        ∀ socket link, after.links.lookup socket = some link → Keeps peer after socket link := by
    intro after hsockets hlinks
    refine ⟨hsockets.ge, fun socket link hlink => ?_⟩
    exact .old link (hlinks ▸ hlink) rfl rfl fun _ => rfl
  have hmodify : ∀ (socket : Socket) (f : Link → Link) {after : Peer},
      after.sockets = peer.sockets → after.links = Table.modify socket f peer.links →
      (∀ link, peer.links.lookup socket = some link → link.outgoing = (f link).outgoing ∧
        link.ticket = (f link).ticket ∧ ((f link).outgoing = true → link.peer = (f link).peer)) →
      peer.sockets ≤ after.sockets ∧
        ∀ socket link, after.links.lookup socket = some link → Keeps peer after socket link := by
    intro socket f after hsockets hlinks hf
    refine ⟨hsockets.ge, fun other link hlink => ?_⟩
    rw [hlinks] at hlink
    rcases Table.lookup_modify_eq_some.1 hlink with ⟨rfl, old, hold, rfl⟩ | ⟨-, hold⟩
    · obtain ⟨hbefore, hticket, hpeer⟩ := hf old hold
      exact .old old hold hbefore hticket hpeer
    · exact .old link hold rfl rfl fun _ => rfl
  have hdial : ∀ {peerId : String} {attempt : Attempt} {after : Peer},
      peer.attempts.lookup peerId = some attempt → after.sockets = peer.sockets + 1 →
      after.links = (peer.dial peerId attempt).links →
      after.log = (peer.dial peerId attempt).log →
      peer.sockets ≤ after.sockets ∧
        ∀ socket link, after.links.lookup socket = some link → Keeps peer after socket link := by
    intro peerId attempt after hattempt hsockets hlinks hlog
    refine ⟨by omega, fun socket link hlink => ?_⟩
    rw [hlinks] at hlink
    rcases Table.lookup_insert_eq_some.1 hlink with ⟨rfl, rfl⟩ | ⟨-, hold⟩
    · refine .dialled attempt hattempt rfl rfl rfl ?_
      rw [hlog]
      exact List.mem_cons_self
    · exact .old link hold rfl rfl fun _ => rfl
  have haccept : ∀ {after : Peer} (socket : Socket) (fresh : Link), fresh.outgoing = false →
      fresh.ticket = "" → peer.sockets ≤ after.sockets →
      after.links = peer.links.insert socket fresh → peer.sockets ≤ after.sockets ∧
        ∀ socket link, after.links.lookup socket = some link → Keeps peer after socket link := by
    intro after socket fresh hin hticket hsockets hlinks
    refine ⟨hsockets, fun other link hlink => ?_⟩
    rw [hlinks] at hlink
    rcases Table.lookup_insert_eq_some.1 hlink with ⟨-, rfl⟩ | ⟨-, hold⟩
    · exact .accepted hin hticket
    · exact .old link hold rfl rfl fun _ => rfl
  cases change with
  | quiet hquiet =>
      refine ⟨hquiet.sockets, fun socket link hlink => ?_⟩
      exact .old link (hquiet.links ▸ hlink) rfl rfl fun _ => rfl
  | relayLost | reset =>
      refine ⟨le_rfl, fun _ _ hlink => ?_⟩
      cases hlink
  | take result hmem =>
      obtain ⟨request, hrequest⟩ := Table.mem_iff_lookup.1 hmem
      rw [take_of_lookup hrequest]
      exact hsame rfl rfl
  | answer result hrequest =>
      rw [take_of_lookup hrequest]
      exact hsame rfl rfl
  | recreate hnone =>
      rw [index_of_not_mem hnone]
      exact hsame rfl rfl
  | request peerId payload =>
      simp only [Peer.request]
      split <;> exact hsame rfl rfl
  | takeIn => exact haccept peer.sockets _ rfl rfl (Nat.le_succ _) rfl
  | dial _ hattempt => exact hdial hattempt rfl rfl rfl
  | reach _ hattempt => exact hdial hattempt rfl rfl rfl
  | @welcome socket =>
      exact hmodify socket (fun link => { link with authenticated := true }) rfl rfl
        fun _ _ => ⟨rfl, rfl, fun _ => rfl⟩
  | @present socket _ _ _ ticket hheard _ hin =>
      refine hmodify socket (fun link => { link with
        peer := ticket.peer
        expires := ticket.expires
        authenticated := true }) rfl rfl fun old hold => ⟨rfl, rfl, fun hout => ?_⟩
      -- The link that is presented was not dialled.
      obtain rfl := Option.some.inj (hheard.stored.symm.trans hold)
      exact absurd (hin.symm.trans hout) (by simp)
  | unlink =>
      refine ⟨le_rfl, fun socket link hlink => ?_⟩
      exact .old link (Table.lookup_erase_eq_some.1 hlink).2 rfl rfl fun _ => rfl
  | @phantom _ socket => exact haccept socket {} rfl rfl le_rfl rfl
  | ticket =>
      simp only [ticketMessage]
      split <;> exact hsame rfl rfl
  | _ => exact hsame rfl rfl

/-- Where the attempts come from. -/
theorem attempts_of_change (hvisit : (pre, step) ∈ trace)
    (h : ∀ peerId attempt, peer.attempts.lookup peerId = some attempt →
      Invited trace peerId attempt.ticket) (change : Change platform pre step peer after) :
    ∀ peerId attempt, after.attempts.lookup peerId = some attempt →
      Invited trace peerId attempt.ticket := by
  -- Taking an address off an attempt keeps its ticket.
  have hdial : ∀ {peerId : String} {attempt : Attempt},
      peer.attempts.lookup peerId = some attempt → ∀ other own,
      (peer.attempts.insert peerId { attempt with urls := attempt.urls.tail }).lookup other =
        some own → Invited trace other own.ticket := by
    intro peerId attempt hattempt other own hown
    rcases Table.lookup_insert_eq_some.1 hown with ⟨rfl, rfl⟩ | ⟨-, hold⟩
    · exact h _ attempt hattempt
    · exact h other own hold
  cases change with
  | quiet hquiet => exact hquiet.attempts ▸ h
  | relayLost | reset =>
      intro _ _ hlookup
      cases hlookup
  | take result hmem =>
      obtain ⟨request, hrequest⟩ := Table.mem_iff_lookup.1 hmem
      rw [take_of_lookup hrequest]
      exact h
  | answer result hrequest =>
      rw [take_of_lookup hrequest]
      exact h
  | recreate hnone =>
      rw [index_of_not_mem hnone]
      exact h
  | request peerId payload =>
      simp only [Peer.request]
      split <;> exact h
  | @prepare message htold =>
      intro other own hown
      rcases Table.lookup_insert_eq_some.1 hown with ⟨rfl, rfl⟩ | ⟨-, hold⟩
      · exact ⟨(pre, step), hvisit, message, htold, rfl, rfl⟩
      · exact h other own hold
  | dial _ hattempt => exact hdial hattempt
  | reach _ hattempt => exact hdial hattempt
  | flushing => exact fun other own hown => h other own (Table.lookup_erase_eq_some.1 hown).2
  | ticket =>
      simp only [ticketMessage]
      split <;> exact h
  | _ => exact h

theorem Directed.change (h : Directed trace peer) (hvisit : (pre, step) ∈ trace)
    (hmore : ∀ event ∈ events peer.log, event ∈ events after.log)
    (change : Change platform pre step peer after) : Directed trace after := by
  obtain ⟨-, hkeeps⟩ := keeps_of_change change
  refine ⟨attempts_of_change hvisit h.attempts change, fun socket link hlink hout => ?_,
    fun socket link hlink hin => ?_⟩
  · cases hkeeps socket link hlink with
    | old before hold hbefore hticket hpeer =>
        obtain ⟨hdialled, hinvited⟩ := h.links socket before hold (hbefore.trans hout)
        rw [← hpeer hout, ← hticket]
        exact ⟨hmore _ hdialled, hinvited⟩
    | accepted hin =>
        rw [hin] at hout
        cases hout
    | dialled attempt hattempt _ hticket _ hdialled =>
        rw [hticket]
        exact ⟨hdialled, h.attempts _ attempt hattempt⟩
  · cases hkeeps socket link hlink with
    | old before hold hbefore hticket =>
        exact hticket ▸ h.bare socket before hold (hbefore.trans hin)
    | accepted _ hticket => exact hticket
    | dialled _ _ hout =>
        rw [hin] at hout
        cases hout

/-- A turn does not turn a link around. -/
theorem next_sided (platform : Platform) (peer : Peer) (step : Step) :
    Sided peer (next platform peer step) := by
  refine (next_changes platform peer step).invariant (fun state after change h => h.trans ?_)
    (.refl peer)
  obtain ⟨hsockets, hkeeps⟩ := keeps_of_change change
  refine ⟨hsockets, fun socket hbelow link hlink hout => ?_⟩
  cases hkeeps socket link hlink with
  | old before hold hbefore => exact ⟨before, hold, hbefore.trans hout⟩
  | accepted hin =>
      rw [hin] at hout
      cases hout
  | dialled _ _ _ _ hnew => exact absurd hnew hbelow.ne

/-! ## The history of links -/

theorem Aimed.still (h : Aimed trace peer) (hsockets : peer.sockets ≤ after.sockets)
    (hlog : Grows (fun entry => entry.event.aims = false) peer.log after.log) :
    Aimed trace after := by
  have hmem : ∀ event : Event, event.aims = true →
      (event ∈ events after.log ↔ event ∈ events peer.log) := fun event hevent =>
    mem_of_grows (P := fun event => event.aims = false) hlog (by simp [hevent])
  have hmore : ∀ event ∈ events peer.log, event ∈ events after.log := by
    obtain ⟨new, heq, -⟩ := hlog
    rw [heq, events, events, List.map_append]
    exact fun event hevent => List.mem_append_right _ hevent
  refine ⟨fun socket name hdialled => ?_, fun socket first second hfirst hsecond => ?_,
    fun socket name hflushing => ?_, fun id socket payload hhanded => ?_,
    fun socket serial hpresented => ?_⟩
  · exact (h.below socket name ((hmem _ rfl).1 hdialled)).trans_le hsockets
  · exact h.single socket first second ((hmem _ rfl).1 hfirst) ((hmem _ rfl).1 hsecond)
  · exact hmore _ (h.flushed socket name ((hmem _ rfl).1 hflushing))
  · obtain ⟨peerId, deadline, hrequested, hdialled⟩ :=
      h.handed id socket payload ((hmem _ rfl).1 hhanded)
    exact ⟨peerId, deadline, hmore _ hrequested, hmore _ hdialled⟩
  · obtain ⟨text, peerId, expires, hticket, hpresents⟩ :=
      h.presented socket serial ((hmem _ rfl).1 hpresented)
    exact ⟨text, peerId, expires, hmore _ hticket, hpresents⟩

/-- One event that tells of links. -/
theorem Aimed.cons {time : ℤ} {event : Event} (h : Aimed trace peer)
    (hsockets : peer.sockets ≤ after.sockets) (hlog : after.log = ⟨time, event⟩ :: peer.log)
    (hdialled : ∀ socket name, event = .dialled socket name →
      socket = peer.sockets ∧ socket < after.sockets)
    (hflushing : ∀ socket name, event = .flushing (.link socket) name →
      .dialled socket name ∈ events peer.log)
    (hhanded : ∀ id socket payload, event = .handed id (.link socket) payload →
      ∃ peerId deadline, .requested id peerId payload deadline ∈ events peer.log ∧
        .dialled socket peerId ∈ events peer.log)
    (hpresented : ∀ socket serial, event = .presented socket serial →
      ∃ text peerId expires, .ticket serial text peerId expires ∈ events peer.log ∧
        Presents trace socket text) : Aimed trace after := by
  rcases after with ⟨⟩
  obtain rfl : _ = _ := hlog
  refine ⟨fun socket name hmem => ?_, fun socket first second hfirst hsecond => ?_,
    fun socket name hmem => ?_, fun id socket payload hmem => ?_,
    fun socket serial hmem => ?_⟩
  · rcases List.mem_cons.1 hmem with heq | hold
    · exact (hdialled socket name heq.symm).2
    · exact (h.below socket name hold).trans_le hsockets
  -- A number is dialled once: it is the next one, and the old ones lie below it.
  · have hnew : ∀ {name : String}, .dialled socket name = event →
        ∀ other, .dialled socket other ∉ events peer.log := by
      intro name heq other hold
      exact absurd (hdialled socket name heq.symm).1 (h.below socket other hold).ne
    rcases List.mem_cons.1 hfirst with hfirst | hfirst <;>
      rcases List.mem_cons.1 hsecond with hsecond | hsecond
    · exact (Event.dialled.inj (hfirst.trans hsecond.symm)).2
    · exact absurd hsecond (hnew hfirst second)
    · exact absurd hfirst (hnew hsecond first)
    · exact h.single socket first second hfirst hsecond
  · refine List.mem_cons_of_mem _ ?_
    rcases List.mem_cons.1 hmem with heq | hold
    · exact hflushing socket name heq.symm
    · exact h.flushed socket name hold
  · have hbefore : ∃ peerId deadline, .requested id peerId payload deadline ∈ events peer.log ∧
        .dialled socket peerId ∈ events peer.log := by
      rcases List.mem_cons.1 hmem with heq | hold
      · exact hhanded id socket payload heq.symm
      · exact h.handed id socket payload hold
    obtain ⟨peerId, deadline, hrequested, hdialled⟩ := hbefore
    exact ⟨peerId, deadline, List.mem_cons_of_mem _ hrequested, List.mem_cons_of_mem _ hdialled⟩
  · have hbefore : ∃ text peerId expires, .ticket serial text peerId expires ∈ events peer.log ∧
        Presents trace socket text := by
      rcases List.mem_cons.1 hmem with heq | hold
      · exact hpresented socket serial heq.symm
      · exact h.presented socket serial hold
    obtain ⟨text, peerId, expires, hticket, hpresents⟩ := hbefore
    exact ⟨text, peerId, expires, List.mem_cons_of_mem _ hticket, hpresents⟩

/-- What is offered a link was made to the peer that was dialled. -/
theorem Aimed.flushing (h : Aimed trace peer) (hdirected : Directed trace peer)
    (haddressed : Addressed peer) {channel : Channel} {peerId : String}
    (hflushes : Flushes peer peerId channel) : Aimed trace (peer.flushing channel peerId) := by
  refine h.cons le_rfl rfl (by simp) (fun socket name heq => ?_) (by simp) (by simp)
  obtain ⟨rfl, rfl⟩ := Event.flushing.inj heq
  obtain ⟨link, hlink, hauthenticated, rfl, hreason⟩ := hflushes
  have hout : link.outgoing = true := by
    rcases hreason with hout | ⟨name, hname⟩
    · exact hout
    · refine ((haddressed.outbound name socket hname).2 link hlink).resolve_right fun hnot => ?_
      rw [hauthenticated] at hnot
      cases hnot.1
  exact (hdirected.links socket link hlink hout).1

theorem Aimed.hand (h : Aimed trace peer) (hplaced : Placed peer) (haddressed : Addressed peer)
    {id : String} {channel : Channel} {request : Pending}
    (hrequest : peer.requests.lookup id = some request)
    (hflushing : .flushing channel request.peer ∈ events peer.log) :
    Aimed trace (peer.hand id channel request) := by
  refine h.cons le_rfl rfl (by simp) (by simp) (fun own socket payload heq => ?_) (by simp)
  obtain ⟨rfl, rfl, rfl⟩ := Event.handed.inj heq
  have hnamed := haddressed.flushed _ _ hflushing
  obtain ⟨deadline, hrequested⟩ :=
    (hplaced.requests id request hrequest).entered.resolve_left hnamed
  exact ⟨request.peer, deadline, hrequested, h.flushed socket _ hflushing⟩

theorem Aimed.change (h : Aimed trace peer) (hdirected : Directed trace peer)
    (hplaced : Placed peer) (haddressed : Addressed peer) (hticketed : Ticketed trace pre)
    (hvisit : (pre, step) ∈ trace) (change : Change platform pre step peer after) :
    Aimed trace after := by
  have hone : ∀ {time : ℤ} {event : Event} {log : List Entry}, event.aims = false →
      Grows (fun entry : Entry => entry.event.aims = false) log (⟨time, event⟩ :: log) :=
    fun hevent => .cons hevent
  have hdialled : ∀ {peerId : String} {attempt : Attempt} {after : Peer},
      after.sockets = peer.sockets + 1 → after.log = (peer.dial peerId attempt).log →
      Aimed trace after := by
    intro peerId attempt after hsockets hlog
    refine h.cons (by omega) hlog (fun socket name heq => ?_) (by simp) (by simp) (by simp)
    obtain ⟨rfl, -⟩ := Event.dialled.inj heq
    exact ⟨rfl, hsockets ▸ Nat.lt_succ_self _⟩
  cases change with
  | quiet hquiet =>
      refine h.still hquiet.sockets (hquiet.log.mono fun entry hplain => ?_)
      cases hevent : entry.event with
      | sent | closed | pairing => rfl
      | _ =>
          rw [hevent] at hplain
          cases hplain
  | take result hmem =>
      obtain ⟨request, hrequest⟩ := Table.mem_iff_lookup.1 hmem
      rw [take_of_lookup hrequest]
      exact h.still le_rfl (hone rfl)
  | answer result hrequest =>
      rw [take_of_lookup hrequest]
      exact h.still le_rfl (hone rfl)
  | recreate hnone =>
      rw [index_of_not_mem hnone]
      exact h.still le_rfl (hone rfl)
  | request peerId payload =>
      simp only [Peer.request]
      split <;> exact h.still le_rfl (hone rfl)
  -- A link is flushed for the peer it was dialled to.
  | flushing hflushes => exact h.flushing hdirected haddressed hflushes
  | hand hrequest _ hflushing => exact h.hand hplaced haddressed hrequest hflushing
  | handSent hrequest _ hflushing =>
      exact (h.hand hplaced haddressed hrequest hflushing).still le_rfl (hone rfl)
  -- Whether the address was reached or not, the socket is logged in the same way.
  | dial => exact hdialled rfl rfl
  | reach => exact hdialled rfl rfl
  | @present socket link message text ticket hheard _ _ htype htext _ hticket =>
      refine h.cons le_rfl rfl (by simp) (by simp) (by simp) fun own serial heq => ?_
      obtain ⟨rfl, rfl⟩ := Event.presented.inj heq
      exact ⟨text, ticket.peer, ticket.expires, (hticketed.tickets text ticket hticket).1.mem,
        (pre, step), hvisit, link, message, hheard, htype, htext⟩
  | ticket =>
      simp only [ticketMessage]
      split
      · exact h
      · exact h.still le_rfl (hone rfl)
  | takeIn => exact h.still (Nat.le_succ _) (.of_eq rfl)
  | relayLost | refuse | unlink | serve | greeted => exact h.still le_rfl (hone rfl)
  | _ => exact h.still le_rfl (.of_eq rfl)

/-! ## The run -/

/-- **A link is dialled on the invitation of the relay, and serves the requests that were made
to the peer it was dialled to.** -/
theorem run_directed (run : (machine platform).Run Sensible trace peer) :
    Directed trace peer ∧ Aimed trace peer := by
  induction run with
  | start hinit =>
      obtain ⟨time, rfl⟩ := hinit
      refine ⟨⟨by simp, by simp, by simp⟩, ?_⟩
      constructor
      all_goals simp [events]
  | @step trace pre step run hsensible ih =>
      have hsub : trace ⊆ (pre, step) :: trace := List.subset_cons_self _ _
      have hticketed : Ticketed ((pre, step) :: trace) pre :=
        (run_ticketed (run.mono fun _ _ _ => trivial)).mono hsub
      obtain ⟨hplaced, haddressed⟩ := run_placed run
      have hnumbered := run_numbered (run.mono fun _ _ _ => trivial)
      -- The two invariants lean on four others, and go through the changes together.
      have hafter := (next_changes platform pre step).invariant
        (I := fun state => (Directed ((pre, step) :: trace) state ∧
          Aimed ((pre, step) :: trace) state) ∧ Numbered platform state ∧ Placed state ∧
            Addressed state)
        (fun own after change h => ?_)
        ⟨⟨ih.1.mono hsub, ih.2.mono hsub⟩, hnumbered, hplaced, haddressed⟩
      · exact hafter.1
      obtain ⟨⟨hdirected, haimed⟩, hnumbered, hplaced, haddressed⟩ := h
      have hmore : ∀ event ∈ events own.log, event ∈ events after.log := by
        obtain ⟨new, hlog, -⟩ := change_log change
        rw [hlog, events, events, List.map_append]
        exact fun event hevent => List.mem_append_right _ hevent
      exact ⟨⟨hdirected.change List.mem_cons_self hmore change,
          haimed.change hdirected hplaced haddressed hticketed List.mem_cons_self change⟩,
        hnumbered.move (move_of_change change), hplaced.change haddressed hnumbered change,
        haddressed.change hsensible change⟩

end Peer

end ServerHost
