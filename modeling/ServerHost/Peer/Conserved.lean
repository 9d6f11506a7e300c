import ServerHost.Peer.Flushes

/-!
# The runs that conserve the requests

`Strays` says of a step, from the state it meets and from what the sockets and the slots
do, whether one of its walks meets an id that has left the table.  Requests are conserved
in exactly the runs without such a step.

## Strategy

The definitions follow the handlers up to the walks that they begin.  For each of them a
lemma `*_shows` says that it strays as predicted, and `next_shows` puts them together.
-/

namespace ServerHost

namespace Peer

/-! ## The steps that stray -/

section
variable (platform : Platform) (world : World)

/-- The link is finished, and the peer hears of it. -/
def linkFinishedStrays (socket : Socket) (peer : Peer) : Bool :=
  decide (socket ∈ peer.attached) && lostStrays platform world socket peer

def Outcome.loses : Outcome → Bool
  | .lost _ => true
  | _ => false

/-- A message is sent over a link. -/
def sendStrays (socket : Socket) (peer : Peer) : Bool :=
  peer.writable (.link socket) && (world.send peer.log.length).loses &&
    linkFinishedStrays platform world socket peer

/-- A link is closed. -/
def closeLinkStrays (socket : Socket) (peer : Peer) : Bool :=
  (decide (socket ∉ peer.opened) || world.finishes peer.log.length) &&
    linkFinishedStrays platform world socket peer

/-- A link is offered to the requests that wait. -/
def flushLocalStrays (socket : Socket) (peer : Peer) : Bool :=
  match peer.links.lookup socket with
  | none => false
  | some link => link.authenticated && flushStrays platform world (.link socket) link.peer peer

def startRequestStrays (id : String) (peer : Peer) : Bool :=
  match peer.requests.lookup id with
  | none => false
  | some request =>
      if ¬ peer.ready ∨ ¬ peer.lists request.peer then false
      else match peer.openLink request.peer with
        | some socket => flushLocalStrays platform world socket peer
        | none => !peer.options.localEnabled && flushStrays platform world .relay request.peer peer

def nextLocalStrays (peerId : String) (peer : Peer) : Bool :=
  if ¬ peer.running ∨ ¬ peer.ready ∨ peerId ∉ peer.connecting then false
  else
    let attempt := Table.value peer.attempts peerId
    match attempt.urls with
    | [] => flushStrays platform world .relay peerId peer
    | text :: _ =>
        if attempt.expires ≤ peer.now then flushStrays platform world .relay peerId peer
        else if (platform.url text).scheme = "wss" ∧ ¬ hexToken attempt.fingerprint then
          lostStrays platform world peer.sockets (peer.dial peerId attempt)
        else false

def linkConnectedStrays (socket : Socket) (fingerprint : String) (peer : Peer) : Bool :=
  match peer.dialling.lookup socket with
  | none => false
  | some url =>
      if socket ∉ peer.attached then false
      else
        let peer := { peer with opened := socket :: peer.opened }
        match peer.links.lookup socket with
        | none => false
        | some link =>
            if url.scheme = "wss" ∧ fingerprint ≠ link.fingerprint then
              linkFinishedStrays platform world socket peer
            else sendStrays platform world socket peer

def greetStrays (socket : Socket) (link : Link) (message : JsonObject) (peer : Peer) : Bool :=
  let text := (message.value "ticket").toString
  if link.outgoing ∧ messageType message = "hello" ∧ (message.value "ok").toBool then
    flushLocalStrays platform world socket (peer.welcome socket)
  else match peer.tickets.lookup text with
    | none => closeLinkStrays platform world socket peer
    | some ticket =>
        if ¬ link.outgoing ∧ messageType message = "hello" ∧ peer.ready ∧
            (peer.now : DateTime) < ticket.expires then
          sendStrays platform world socket (peer.present socket text ticket)
        else closeLinkStrays platform world socket peer

def exchangeStrays (socket : Socket) (link : Link) (message : JsonObject) (peer : Peer) : Bool :=
  let id := (message.value "id").toString
  if ¬ peer.ready ∨ link.expires ≤ peer.now then closeLinkStrays platform world socket peer
  else if messageType message = "request" ∧ ¬ link.outgoing ∧ identifier id ∧
      (message.value "payload").isObject then
    sendStrays platform world socket (peer.handle world (.link socket) id link.peer
      (message.value "payload").toObject).1
  else if messageType message = "response" ∧ link.outgoing ∧ id ∈ peer.requests ∧
      (Table.value peer.requests id).socket = some socket then false
  else closeLinkStrays platform world socket peer

def linkTextStrays (socket : Socket) (message : JsonObject) (peer : Peer) : Bool :=
  if socket ∉ peer.attached then false
  else match peer.links.lookup socket with
    | none => false
    | some link =>
        if ¬ link.authenticated then greetStrays platform world socket link message peer
        else exchangeStrays platform world socket link message peer

/-- One link after the other leaves the table. -/
def losesEach (peer : Peer) (leaves : Link → Bool) : List Socket → Outline → Bool
  | [], _ => false
  | socket :: rest, outline =>
      if leaves (Table.value peer.links socket) then
        (lostFate platform world (peer.carried socket) outline).leads false fun outline =>
          losesEach peer leaves rest outline
      else losesEach peer leaves rest outline

def peersStrays (message : JsonObject) (peer : Peer) : Bool :=
  let active := (message.value "peers").toArray.map fun entry =>
    (entry.toObject.value "peerId").toString
  losesEach platform world peer (fun link => decide (link.peer ∉ active) && link.outgoing)
    (world.linkOrder peer.log.length peer.links.keys) peer.outline

def connectStrays (message : JsonObject) (peer : Peer) : Bool :=
  let peerId := (message.value "peerId").toString
  if peerId ∉ peer.connecting then false
  else nextLocalStrays platform world peerId { peer with
    attempts := peer.attempts.insert peerId (peer.offered platform world message) }

/-- Only two kinds of messages of the relay begin a walk. -/
def messageStrays (message : JsonObject) (peer : Peer) : Bool :=
  if ¬ peer.ready then false
  else if messageType message = "peers" then peersStrays platform world message peer
  else if messageType message = "connect" then connectStrays platform world message peer
  else false

/-- The requests are walked first.  If their walk ends the run of the peer, no link is left. -/
def sweepStrays (peer : Peer) : Bool :=
  let due := fun id => (peer.requests.lookup id).any fun request =>
    request.deadline ≤ (peer.now : DateTime)
  (drops platform world due (world.requestOrder peer.log.length peer.requests.keys)
    peer.outline).leads false fun outline =>
      losesEach platform world peer (fun link =>
        (link.authenticated && decide (link.expires ≤ peer.now)) ||
          (!link.authenticated && decide (link.deadline ≤ peer.now)))
        (world.linkOrder outline.length peer.links.keys) outline

end

/-- **In this step an id leaves the table before a walk comes to it**: while ids are still to
be visited, a slot calls `stop`, or a send finishes the relay, or the link of one of them. -/
def Strays (platform : Platform) (peer : Peer) (step : Step) : Bool :=
  let world := step.world
  match step.input with
  | .relayText message =>
      decide (peer.relay = .connected ∨ peer.relay = .closing) &&
        messageStrays platform world message peer
  | .linkConnected socket fingerprint => linkConnectedStrays platform world socket fingerprint peer
  | .linkText socket message => linkTextStrays platform world socket message peer
  | .linkBinary socket =>
      decide (socket ∈ peer.attached) && closeLinkStrays platform world socket peer
  | .linkFinished socket => linkFinishedStrays platform world socket peer
  | .sweep => peer.timer && sweepStrays platform world peer
  | .startRequest id =>
      decide (id ∈ peer.starts) &&
        startRequestStrays platform world id { peer with starts := peer.starts.erase id }
  | .nextLocal peerId =>
      decide (peerId ∈ peer.redials) &&
        nextLocalStrays platform world peerId { peer with redials := peer.redials.erase peerId }
  | _ => false

/-! ## Links -/

variable {platform : Platform} {world : World} {peer : Peer} {socket : Socket}

theorem linkFinished_shows (hnamed : Named platform peer) :
    Shows peer (peer.linkFinished world (Peer.finish platform world world.depth) socket)
      (linkFinishedStrays platform world socket peer) := by
  unfold linkFinished linkFinishedStrays
  by_cases hattached : socket ∈ peer.attached
  · rw [if_pos hattached, decide_eq_true hattached, Bool.true_and]
    exact @lost_shows platform world
      { peer with opened := peer.opened.filter (· ≠ socket) } hnamed socket
  · rw [if_neg hattached, decide_eq_false hattached, Bool.false_and]
    rfl

theorem send_shows (hnamed : Named platform peer) (message : JsonObject) :
    Shows peer (peer.send world (Peer.finish platform world world.depth) (.link socket) message).1
      (sendStrays platform world socket peer) := by
  unfold send sendStrays
  cases peer.writable (.link socket) with
  | false => rfl
  | true =>
      simp only [not_true_eq_false, if_false, Bool.true_and]
      cases world.send peer.log.length with
      | accepted => exact strays_emit rfl peer
      | closing => exact (shut_straight (.link socket) peer).strays
      | lost accepted => exact linkFinished_shows hnamed

theorem closeLink_shows (hnamed : Named platform peer) :
    Shows peer (peer.closeLink world (Peer.finish platform world world.depth) socket)
      (closeLinkStrays platform world socket peer) := by
  unfold closeLink closeLinkStrays
  by_cases hends : socket ∉ peer.opened ∨ world.finishes peer.log.length = true
  · have hcloses : (decide (socket ∉ peer.opened) || world.finishes peer.log.length) = true := by
      simpa using hends
    rw [if_pos hends, hcloses, Bool.true_and]
    exact linkFinished_shows hnamed
  · have hcloses : (decide (socket ∉ peer.opened) || world.finishes peer.log.length) = false := by
      simpa using hends
    rw [if_neg hends, hcloses, Bool.false_and]
    exact (shut_straight (.link socket) peer).strays

theorem flushLocal_shows (hnamed : Named platform peer) :
    Shows peer (peer.flushLocal world (Peer.finish platform world world.depth) socket)
      (flushLocalStrays platform world socket peer) := by
  unfold flushLocal flushLocalStrays
  cases hlink : peer.links.lookup socket with
  | none => rfl
  | some link =>
      dsimp only
      cases link.authenticated with
      | false => rfl
      | true =>
          simp only [not_true_eq_false, if_false, Bool.true_and]
          refine flush_shows hnamed fun own hown => ?_
          rw [← Channel.link.inj hown]
          exact Table.mem_of_lookup hlink

theorem startRequest_shows (hnamed : Named platform peer) (id : String) :
    Shows peer (peer.startRequest world (Peer.finish platform world world.depth) id)
      (startRequestStrays platform world id peer) := by
  have hfinish := finish_straight platform world world.depth
  unfold startRequest startRequestStrays
  cases peer.requests.lookup id with
  | none => rfl
  | some request =>
      dsimp only
      by_cases hready : peer.ready = true
      · by_cases hlists : peer.lists request.peer = true
        · simp only [hready, hlists, not_true_eq_false, if_false, or_self]
          cases peer.openLink request.peer with
          | some socket => exact flushLocal_shows hnamed
          | none =>
              dsimp only
              cases peer.options.localEnabled with
              | false => exact flush_shows hnamed fun _ hchannel => Channel.noConfusion hchannel
              | true =>
                  simp only [not_true_eq_false, if_false, Bool.not_true, Bool.false_and]
                  split
                  · rfl
                  · exact (sendRelay_straight hfinish _ _).strays
        · rw [if_neg (not_not.2 hready), if_pos hlists, if_pos (.inr hlists)]
          exact (hfinish ..).strays
      · rw [if_pos hready, if_pos (.inl hready)]
        exact (hfinish ..).strays

theorem nextLocal_shows (hnamed : Named platform peer) (peerId : String) :
    Shows peer (peer.nextLocal platform world (Peer.finish platform world world.depth) peerId)
      (nextLocalStrays platform world peerId peer) := by
  have hremote : Shows peer (peer.remote world (Peer.finish platform world world.depth) peerId)
      (flushStrays platform world .relay peerId peer) :=
    flush_shows hnamed fun _ hchannel => Channel.noConfusion hchannel
  have hdial : ∀ attempt, strays (peer.dial peerId attempt).log = strays peer.log :=
    fun attempt => strays_emit rfl _
  have hdialled : ∀ attempt, Named platform (peer.dial peerId attempt) := fun _ => hnamed
  unfold nextLocal nextLocalStrays
  split
  · rfl
  dsimp only
  cases (Table.value peer.attempts peerId).urls with
  | nil => exact hremote
  | cons text rest =>
      dsimp only
      split
      · exact hremote
      split
      · exact shows_of_straight (hdial _) (lost_shows (hdialled _) _)
      · exact hdial _

theorem linkConnected_shows (hnamed : Named platform peer) (fingerprint : String) :
    Shows peer
      (peer.linkConnected world (Peer.finish platform world world.depth) socket fingerprint)
      (linkConnectedStrays platform world socket fingerprint peer) := by
  have hopened : Named platform { peer with
      dialling := peer.dialling.erase socket, opened := socket :: peer.opened } := hnamed
  unfold linkConnected linkConnectedStrays
  cases peer.dialling.lookup socket with
  | none => rfl
  | some url =>
      dsimp only
      split
      · rfl
      cases peer.links.lookup socket with
      | none => rfl
      | some link =>
          dsimp only
          split
          · exact linkFinished_shows hopened
          · exact send_shows hopened _

theorem greet_shows (hnamed : Named platform peer) (link : Link) (message : JsonObject) :
    Shows peer (peer.greet world (Peer.finish platform world world.depth) socket link message)
      (greetStrays platform world socket link message peer) := by
  have hpresent : ∀ text ticket,
      strays (peer.present socket text ticket).log = strays peer.log := fun _ _ => strays_emit rfl _
  have hpresented : ∀ text ticket, Named platform (peer.present socket text ticket) :=
    fun _ _ => hnamed
  have hwelcome : Named platform (peer.welcome socket) := hnamed
  unfold greet greetStrays
  dsimp only
  split
  · exact flushLocal_shows hwelcome
  cases peer.tickets.lookup (message.value "ticket").toString with
  | none => exact closeLink_shows hnamed
  | some ticket =>
      dsimp only
      split
      · exact shows_of_straight (hpresent ..) (send_shows (hpresented _ _) _)
      · exact closeLink_shows hnamed

theorem handle_strays (channel : Channel) (id peerId : String) (payload : JsonObject) :
    strays (peer.handle world channel id peerId payload).1.log = strays peer.log := by
  unfold handle
  split
  · rfl
  · exact strays_emit rfl _

theorem handle_named (hnamed : Named platform peer) (channel : Channel) (id peerId : String)
    (payload : JsonObject) : Named platform (peer.handle world channel id peerId payload).1 := by
  unfold handle
  split <;> exact hnamed

theorem exchange_shows (hnamed : Named platform peer) (link : Link) (message : JsonObject) :
    Shows peer (peer.exchange world (Peer.finish platform world world.depth) socket link message)
      (exchangeStrays platform world socket link message peer) := by
  unfold exchange exchangeStrays
  dsimp only
  split
  · exact closeLink_shows hnamed
  split
  · exact shows_of_straight (handle_strays ..) (send_shows (handle_named hnamed _ _ _ _) _)
  split
  · exact (finish_straight platform world world.depth _ _ _ _).strays
  · exact closeLink_shows hnamed

theorem linkText_shows (hnamed : Named platform peer) (message : JsonObject) :
    Shows peer (peer.linkText world (Peer.finish platform world world.depth) socket message)
      (linkTextStrays platform world socket message peer) := by
  unfold linkText linkTextStrays
  split
  · rfl
  cases peer.links.lookup socket with
  | none => rfl
  | some link =>
      dsimp only
      split
      · exact greet_shows hnamed link message
      · exact exchange_shows hnamed link message

/-! ## One link after the other -/

/-- Between two links: the state `peer`, against the state `start` in which the first one
left, while the links `rest` are still to be looked at. -/
structure Amid (platform : Platform) (start peer : Peer) (rest : List Socket) : Prop where
  began : Named platform start
  named : Named platform peer
  uuids : start.uuids ≤ peer.uuids
  ahead : ∀ socket ∈ rest, ∃ link, peer.links.lookup socket = some link ∧
    start.links.lookup socket = some link
  carried : ∀ socket, ∀ id ∈ peer.requests, peer.carried socket id = start.carried socket id

section
variable {start after : Peer} {rest : List Socket}

/-- Requests came and went, and a link left. -/
theorem Amid.unlink {link : Link} (h : Amid platform start peer (socket :: rest))
    (hout : socket ∉ rest) (hkept : Kept platform (peer.unlink socket link) after) :
    Amid platform start after rest where
  began := h.began
  named := hkept.named h.named
  uuids := h.uuids.trans hkept.uuids
  ahead := by
    intro other hother
    obtain ⟨own, hown, hstart⟩ := h.ahead other (List.mem_cons_of_mem _ hother)
    refine ⟨own, ?_, hstart⟩
    rw [hkept.links]
    exact Table.lookup_erase_eq_some.2 ⟨fun hsame => hout (hsame ▸ hother), hown⟩
  carried := by
    intro other id hmem
    by_cases hbefore : id ∈ peer.requests
    · rw [← h.carried other id hbefore, Peer.carried, Peer.carried,
        hkept.lookup h.named hbefore hmem]
      rfl
    · obtain ⟨hnew, hfree⟩ := hkept.fresh h.began h.uuids hmem hbefore
      rw [hfree other]
      simp [Peer.carried, hnew]

theorem Amid.skip (h : Amid platform start peer (socket :: rest)) :
    Amid platform start peer rest :=
  { h with ahead := fun other hother => h.ahead other (List.mem_cons_of_mem _ hother) }

theorem lost_remembers (socket : Socket) (peer : Peer) :
    Remembers platform peer (peer.lost world (Peer.finish platform world world.depth) socket) := by
  have hchanges : Changes platform peer ⟨.stop, world⟩ peer
      (peer.lost world (Peer.finish platform world world.depth) socket) :=
    lost_changes (finish_changes world world.depth) socket peer
  exact changes_remember hchanges

variable {round : Peer → Socket → Peer} {leaves : Link → Bool}
  (hround : ∀ peer socket link, peer.links.lookup socket = some link → round peer socket =
    if leaves link = true then
      peer.lost world (Peer.finish platform world world.depth) socket else peer)
  (hgone : ∀ (peer : Peer) socket, socket ∉ peer.links →
    strays (round peer socket).log = strays peer.log ∧
      ∀ other, other ≠ socket → other ∉ peer.links → other ∉ (round peer socket).links)
include hround hgone

omit hround in
/-- No link is left to lose. -/
theorem each_gone (hnodup : rest.Nodup) (hnone : ∀ socket ∈ rest, socket ∉ peer.links) :
    strays (rest.foldl round peer).log = strays peer.log := by
  induction rest generalizing peer with
  | nil => rfl
  | cons socket rest ih =>
      obtain ⟨hout, hnodup⟩ := List.nodup_cons.1 hnodup
      obtain ⟨hsame, hstill⟩ := hgone peer socket (hnone socket List.mem_cons_self)
      refine (ih hnodup fun other hother => ?_).trans hsame
      refine hstill other ?_ (hnone other (List.mem_cons_of_mem _ hother))
      rintro rfl
      exact hout hother

theorem each_grows (peer : Peer) : strays peer.log ≤ strays (rest.foldl round peer).log := by
  induction rest generalizing peer with
  | nil => exact le_rfl
  | cons socket rest ih =>
      refine le_trans ?_ (ih (round peer socket))
      cases hlink : peer.links.lookup socket with
      | none => exact (hgone peer socket (AList.lookup_eq_none.1 hlink)).1.ge
      | some link =>
          rw [hround peer socket link hlink]
          split
          · exact (@lost_remembers platform world socket peer).strays
          · exact le_rfl

/-- **Links that leave one after the other stray as predicted.** -/
theorem each_shows (hnodup : rest.Nodup) (hamid : Amid platform start peer rest) :
    Shows peer (rest.foldl round peer)
      (losesEach platform world start leaves rest peer.outline) := by
  induction rest generalizing peer with
  | nil => rfl
  | cons socket rest ih =>
      obtain ⟨hout, hnodup⟩ := List.nodup_cons.1 hnodup
      obtain ⟨link, hlink, hstart⟩ := hamid.ahead socket List.mem_cons_self
      rw [List.foldl_cons, losesEach, hround peer socket link hlink, Table.value_of_lookup hstart]
      cases leaves link with
      | false => exact ih hnodup hamid.skip
      | true =>
          simp only [if_true]
          have hfares := (@lost_fares platform world peer hamid.named socket link hlink).1
          have hcarried := @lostFate_congr platform world peer _ _ (hamid.carried socket)
          have hunlinked : strays (peer.unlink socket link).log = strays peer.log :=
            strays_emit rfl _
          rw [hcarried] at hfares
          generalize peer.lost world (Peer.finish platform world world.depth) socket = state at *
          cases hfate : lostFate platform world (start.carried socket) peer.outline with
          | cut =>
              -- A request was recreated while this link was dropped.
              rw [hfate] at hfares
              have hlt : strays peer.log < strays state.log := hunlinked ▸ hfares
              exact hlt.trans_le (each_grows hround hgone state)
          | ended =>
              -- All links are gone, so the rest of the walk does nothing.
              rw [hfate] at hfares
              obtain ⟨hsame, hlinks, -⟩ := hfares
              have hnone : ∀ other ∈ rest, other ∉ state.links := fun other _ => by simp [hlinks]
              exact (each_gone hgone hnodup hnone).trans (hsame.trans hunlinked)
          | calm outline =>
              rw [hfate] at hfares
              obtain ⟨hkept, houtline⟩ := hfares
              have hrest := ih hnodup (hamid.unlink hout hkept)
              rw [houtline] at hrest
              exact shows_of_straight (hkept.strays.trans hunlinked) hrest

end

theorem peersMessage_shows (hnamed : Named platform peer) (message : JsonObject) :
    Shows peer (peer.peersMessage world (Peer.finish platform world world.depth) message)
      (peersStrays platform world message peer) := by
  have horder := world.linkOrder_perm peer.log.length peer.links.keys
  have hamid : Amid platform peer { peer with directory := (message.value "peers").toArray }
      (world.linkOrder peer.log.length peer.links.keys) := by
    refine ⟨hnamed, hnamed, le_rfl, fun socket hsocket => ?_, fun _ _ _ => rfl⟩
    obtain ⟨link, hlink⟩ := Table.mem_iff_lookup.1 (AList.mem_keys.2 (horder.mem_iff.1 hsocket))
    exact ⟨link, hlink, hlink⟩
  refine each_shows ?_ ?_ (horder.nodup_iff.2 (AList.keys_nodup _)) hamid
  · intro state socket link hlink
    have hmem : socket ∈ state.links := Table.mem_of_lookup hlink
    simp only [peersRound, if_pos hmem, Table.value_of_lookup hlink, Bool.and_eq_true,
      decide_eq_true_eq]
  · intro state socket hnone
    -- An entry made by `links[socket]` is not outgoing, so it stays.
    have hempty : (Table.value (state.links.insert socket {}) socket).outgoing = false := by
      rw [Table.value, AList.lookup_insert]
      rfl
    simp only [peersRound, if_neg hnone, hempty, Bool.false_eq_true, and_false, if_false]
    refine ⟨trivial, fun other hne hother hmem => ?_⟩
    exact ((AList.mem_insert _).1 hmem).elim hne hother

theorem connectMessage_shows (hnamed : Named platform peer) (message : JsonObject) :
    Shows peer (peer.connectMessage platform world (Peer.finish platform world world.depth) message)
      (connectStrays platform world message peer) := by
  unfold connectMessage connectStrays
  dsimp only
  have hprepared : Named platform { peer with
      attempts := peer.attempts.insert (message.value "peerId").toString
        (peer.offered platform world message) } := hnamed
  split
  · rfl
  · exact nextLocal_shows hprepared _

theorem ticketMessage_strays (message : JsonObject) (peer : Peer) :
    strays (peer.ticketMessage message).log = strays peer.log := by
  unfold ticketMessage
  dsimp only
  split
  · rfl
  · exact strays_emit rfl _

theorem message_shows (hnamed : Named platform peer) (message : JsonObject) :
    Shows peer (peer.message platform world (Peer.finish platform world world.depth) message)
      (messageStrays platform world message peer) := by
  have hfinish := finish_straight platform world world.depth
  -- Only `peers` and `connect` walk over requests while they answer.
  have hplain : ∀ type, messageType message = type → type ≠ "peers" → type ≠ "connect" →
      messageStrays platform world message peer = false := by
    intro type htype hpeers hconnect
    simp only [messageStrays, htype, if_neg hpeers, if_neg hconnect, ite_self]
  unfold Peer.message
  dsimp only
  split
  · next htype =>
      rw [hplain _ htype (by simp) (by simp)]
      exact (sendRelay_straight hfinish _ _).strays
  split
  · next htype => exact hplain _ htype (by simp) (by simp) ▸ rfl
  split
  · next htype => exact hplain _ htype (by simp) (by simp) ▸ rfl
  split
  · next hready =>
      rw [messageStrays, if_pos hready]
      rfl
  next hready =>
  split
  · next htype =>
      rw [hplain _ htype (by simp) (by simp)]
      exact strays_emit rfl _
  split
  · next htype =>
      rw [messageStrays, if_neg hready, if_pos htype]
      exact peersMessage_shows hnamed message
  next hpeers =>
  split
  · next htype =>
      rw [hplain _ htype (by simp) (by simp)]
      exact ticketMessage_strays ..
  split
  · next htype =>
      rw [messageStrays, if_neg hready, if_neg hpeers, if_pos htype]
      exact connectMessage_shows hnamed message
  next hconnect =>
  rw [hplain _ rfl hpeers hconnect]
  split
  · exact (sendRelay_straight hfinish _ _).strays.trans (handle_strays ..)
  split
  · exact (hfinish _ _ _ _).strays
  · rfl

/-- The loop over the tickets changes nothing else. -/
theorem sweepTickets_eq (now : ℤ) (texts : List String) (peer : Peer) :
    ∃ tickets, texts.foldl (sweepTicket now) peer = { peer with tickets := tickets } := by
  induction texts generalizing peer with
  | nil => exact ⟨peer.tickets, rfl⟩
  | cons text rest ih =>
      obtain ⟨tickets, heq⟩ := ih (sweepTicket now peer text)
      refine ⟨tickets, heq.trans ?_⟩
      unfold sweepTicket
      split <;> rfl

/-- A link that is swept. -/
theorem sweepLink_eq {now : ℤ} {link : Link} (hlink : peer.links.lookup socket = some link) :
    sweepLink world (Peer.finish platform world world.depth) now peer socket =
      if ((link.authenticated && decide (link.expires ≤ now)) ||
        (!link.authenticated && decide (link.deadline ≤ now))) = true then
        peer.lost world (Peer.finish platform world world.depth) socket else peer := by
  simp only [sweepLink, Table.value_of_lookup hlink, Bool.or_eq_true, Bool.and_eq_true,
    Bool.not_eq_true', decide_eq_true_eq, Bool.not_eq_true]

theorem sweepLink_of_not_mem {now : ℤ} {finish : Finish} (hnone : socket ∉ peer.links) :
    sweepLink world finish now peer socket = peer := by
  have hlost : peer.lost world finish socket = peer := by
    rw [lost, AList.lookup_eq_none.2 hnone]
  simp only [sweepLink, hlost, ite_self]

/-- The loop over the requests fares as the outline does. -/
theorem sweepRequests_fare (hnamed : Named platform peer) :
    Fares platform peer ((world.requestOrder peer.log.length peer.requests.keys).foldl
        (sweepRequest (Peer.finish platform world world.depth) peer.now) peer)
      (drops platform world (fun id => (peer.requests.lookup id).any fun request =>
        request.deadline ≤ (peer.now : DateTime))
        (world.requestOrder peer.log.length peer.requests.keys) peer.outline) := by
  have horder := world.requestOrder_perm peer.log.length peer.requests.keys
  have hids : ∀ id ∈ world.requestOrder peer.log.length peer.requests.keys, id ∈ peer.requests :=
    fun id hid => AList.mem_keys.2 (horder.mem_iff.1 hid)
  have hindexed : ∀ (state : Peer) id, Remembers platform (state.index id)
      (sweepRequest (Peer.finish platform world world.depth) peer.now state id) := by
    intro state id
    dsimp only [sweepRequest]
    split
    · exact finish_remembers ..
    · exact .refl _
  -- As long as nothing was recreated, an id still present has its old deadline.
  have hround : ∀ (state : Peer) id, Kept platform peer state → id ∈ peer.requests →
      id ∈ state.requests →
      sweepRequest (Peer.finish platform world world.depth) peer.now state id =
        if (peer.requests.lookup id).any (fun request =>
          request.deadline ≤ (peer.now : DateTime)) = true then
          Peer.finish platform world world.depth none id (errorObject "timeout") state
        else state := by
    intro state id hkept hstart hmem
    obtain ⟨request, hrequest⟩ := Table.mem_iff_lookup.1 hstart
    have hnow := (hkept.lookup hnamed hstart hmem).trans hrequest
    simp only [sweepRequest, index_of_mem hmem, Table.value_of_lookup hnow, hrequest,
      Option.any_some, decide_eq_true_eq]
  exact (drops_fares hnamed (round_gone hindexed) (round_remembers hindexed) hround _
    (horder.nodup_iff.2 (AList.keys_nodup _)) hids (.refl _) hids).1

theorem sweep_shows (hnamed : Named platform peer) :
    Shows peer (peer.sweep world (Peer.finish platform world world.depth))
      (sweepStrays platform world peer) := by
  have hfares := @sweepRequests_fare platform world peer hnamed
  -- A link that a slot of an earlier one removed is passed over by `links.value`.
  have hgone : ∀ (state : Peer) socket, socket ∉ state.links →
      strays (sweepLink world (Peer.finish platform world world.depth) peer.now state socket).log =
        strays state.log ∧ ∀ other, other ≠ socket → other ∉ state.links →
          other ∉ (sweepLink world (Peer.finish platform world world.depth) peer.now state
            socket).links := by
    intro state socket hnone
    rw [sweepLink_of_not_mem hnone]
    exact ⟨rfl, fun _ _ hother => hother⟩
  unfold sweep sweepStrays
  dsimp only
  generalize (world.requestOrder peer.log.length peer.requests.keys).foldl
    (sweepRequest (Peer.finish platform world world.depth) peer.now) peer = state at hfares ⊢
  -- The tickets that expired are dropped before the links are walked.
  obtain ⟨tickets, htickets⟩ := sweepTickets_eq peer.now state.tickets.keys state
  rw [htickets]
  have horder := world.linkOrder_perm state.log.length state.links.keys
  have hnodup := horder.nodup_iff.2 (AList.keys_nodup state.links)
  generalize drops platform world _ _ peer.outline = fate at hfares ⊢
  cases fate with
  | cut =>
      -- A request was recreated among the requests already; the links only add to it.
      exact hfares.trans_le
        (each_grows (fun _ _ _ => sweepLink_eq) hgone { state with tickets := tickets })
  | ended =>
      -- The first walk gave everything up, the links too.
      obtain ⟨hsame, hlinks, -⟩ := hfares
      refine Eq.trans (each_gone hgone hnodup fun socket _ => ?_) hsame
      simp [hlinks]
  | calm outline =>
      -- Both walks start from the same links, in the order the outline foretells.
      obtain ⟨hkept, houtline⟩ := hfares
      have hsame : world.linkOrder state.log.length state.links.keys =
          world.linkOrder outline.length peer.links.keys := by
        rw [hkept.links, ← houtline]
        rfl
      have hamid : Amid platform peer { state with tickets := tickets }
          (world.linkOrder state.log.length state.links.keys) := by
        refine ⟨hnamed, hkept.named hnamed, hkept.uuids, fun socket hsocket => ?_,
          fun socket id hmem => ?_⟩
        · obtain ⟨link, hlink⟩ := Table.mem_iff_lookup.1
            (AList.mem_keys.2 (horder.mem_iff.1 hsocket))
          exact ⟨link, hlink, hkept.links ▸ hlink⟩
        -- A request made by a slot is not carried by any link yet.
        · by_cases hbefore : id ∈ peer.requests
          · rw [Peer.carried, Peer.carried, ← hkept.lookup hnamed hbefore hmem]
          · obtain ⟨hnew, hfree⟩ := hkept.fresh hnamed le_rfl hmem hbefore
            refine (hfree socket).trans ?_
            simp [Peer.carried, hnew]
      have hwalk := each_shows (fun _ _ _ => sweepLink_eq) hgone hnodup hamid
      rw [Fate.leads, ← hsame, ← houtline]
      exact shows_of_straight hkept.strays hwalk

/-! ## A turn of the event loop -/

section
variable {finish : Finish} (hfinish : Straightens finish)
include hfinish

theorem start_strays (options : Options) (handler : Bool) (listener : Except String ℕ)
    (peer : Peer) :
    strays (peer.start platform world finish options handler listener).log = strays peer.log := by
  have hstop := (@stop_straight world finish hfinish peer).strays
  have hopen : ∀ peer : Peer, strays (peer.openRelay world finish).log = strays peer.log :=
    fun peer => (openRelay_straight hfinish peer).strays
  unfold start
  dsimp only
  split
  · exact hstop
  split
  · cases listener with
    | error error => exact hstop
    | ok port => exact (hopen _).trans hstop
  · exact (hopen _).trans hstop

theorem askPairing_strays (fields : List (String × Json)) (peer : Peer) :
    strays (peer.askPairing platform world finish fields).log = strays peer.log := by
  unfold askPairing
  dsimp only
  split
  · exact (sendRelay_straight hfinish _ _).strays
  · rfl

theorem relayConnected_strays (peer : Peer) :
    strays (peer.relayConnected world finish).log = strays peer.log := by
  unfold relayConnected
  split
  · rfl
  · exact (sendRelay_straight hfinish _ _).strays

/-- A single shot of a refused request. -/
theorem refuse_strays (id : String) (peer : Peer) :
    strays (peer.refuse platform world finish id).log = strays peer.log :=
  (acts_straight hfinish _ _).strays.trans (strays_emit rfl _)

end

theorem newConnection_strays (peer : Peer) :
    strays peer.newConnection.log = strays peer.log := by
  unfold newConnection
  split
  · rfl
  split <;> rfl

/-- **A turn of the event loop strays as predicted.** -/
theorem next_shows (hnamed : Named platform peer) (step : Step) :
    Shows peer (next platform peer step) (Strays platform peer step) := by
  obtain ⟨input, world⟩ := step
  have hfinish := finish_straight platform world world.depth
  -- A message over the relay recreates no request, however the connection ends.
  have hsend : ∀ (peer : Peer) message, strays
      (peer.send world (Peer.finish platform world world.depth) .relay message).1.log =
        strays peer.log := fun peer message => (sendRelay_straight hfinish message peer).strays
  unfold next Strays
  dsimp only
  cases input with
  | clock time => rfl
  | start => exact start_strays hfinish ..
  | stop => exact (stop_straight hfinish peer).strays
  | request => exact (request_straight _ _ peer).strays
  | refreshPeers =>
      dsimp only [refreshPeers]
      split
      · exact hsend _ _
      · rfl
  | createPairingOffer => exact askPairing_strays hfinish ..
  | claimPairingOffer => exact askPairing_strays hfinish ..
  | confirmPairing =>
      dsimp only [confirmPairing]
      split
      · exact hsend _ _
      · rfl
  | cancelPairing =>
      dsimp only [cancelPairing]
      split
      · exact hsend _ _
      · rfl
  | relayConnected => exact relayConnected_strays hfinish peer
  | relayText message =>
      dsimp only
      by_cases hopen : peer.relay = .connected ∨ peer.relay = .closing
      · rw [if_pos hopen, decide_eq_true hopen, Bool.true_and]
        -- A connection that closes still delivers what has arrived.
        exact message_shows hnamed message
      · rw [if_neg hopen, decide_eq_false hopen, Bool.false_and]
        rfl
  | relayFinished error => exact (relayFinished_straight hfinish error peer).strays
  | newConnection => exact newConnection_strays peer
  | linkConnected socket fingerprint => exact linkConnected_shows hnamed fingerprint
  | linkText socket message => exact linkText_shows hnamed message
  | linkBinary socket =>
      dsimp only
      by_cases hattached : socket ∈ peer.attached
      · rw [if_pos hattached, decide_eq_true hattached, Bool.true_and]
        exact closeLink_shows hnamed
      · rw [if_neg hattached, decide_eq_false hattached, Bool.false_and]
        rfl
  | linkFinished socket => exact linkFinished_shows hnamed
  | sweep =>
      dsimp only
      cases peer.timer with
      | false => rfl
      | true => exact sweep_shows hnamed
  | retry =>
      dsimp only
      split
      · exact (openRelay_straight hfinish _).strays
      · rfl
  | authTimer =>
      dsimp only
      split
      · exact hsend _ _
      · rfl
  | startRequest id =>
      dsimp only
      by_cases hwaits : id ∈ peer.starts
      · rw [if_pos hwaits, decide_eq_true hwaits, Bool.true_and]
        have hstarted : Named platform { peer with starts := peer.starts.erase id } := hnamed
        exact startRequest_shows hstarted id
      · rw [if_neg hwaits, decide_eq_false hwaits, Bool.false_and]
        rfl
  | refuse id =>
      dsimp only
      split
      · exact refuse_strays hfinish id peer
      · rfl
  | nextLocal peerId =>
      dsimp only
      by_cases hwaits : peerId ∈ peer.redials
      · rw [if_pos hwaits, decide_eq_true hwaits, Bool.true_and]
        have hredialled : Named platform { peer with redials := peer.redials.erase peerId } :=
          hnamed
        exact nextLocal_shows hredialled peerId
      · rw [if_neg hwaits, decide_eq_false hwaits, Bool.false_and]
        rfl
  | notice id =>
      dsimp only
      split
      · exact strays_emit rfl _
      · rfl

/-! ## The run -/

theorem strays_eq_zero {log : List Entry} :
    strays log = 0 ↔ ∀ id, .recreated id ∉ events log := by
  rw [strays, List.countP_eq_zero]
  constructor
  · intro h id hmem
    obtain ⟨entry, hentry, heq⟩ := List.mem_map.1 hmem
    exact h entry hentry (by rw [heq]; rfl)
  · intro h entry hentry hstray
    obtain ⟨time, event⟩ := entry
    cases event with
    | recreated id => exact h id (List.mem_map_of_mem hentry)
    | _ => cases hstray

theorem run_named {trace : List (Peer × Step)}
    (run : (machine platform).Run (fun _ _ => True) trace peer) : Named platform peer := by
  intro id hmem
  have hnumbered := run_numbered run
  exact hnumbered.issued id (hnumbered.entered id hmem)

/-- Something strayed in a run when one of its steps did. -/
theorem run_strays {trace : List (Peer × Step)}
    (run : (machine platform).Run (fun _ _ => True) trace peer) :
    strays peer.log = 0 ↔ ∀ visit ∈ trace, Strays platform visit.1 visit.2 = false := by
  induction run with
  | start h =>
      obtain ⟨time, rfl⟩ := h
      simp [strays]
  | @step trace state input run _ ih =>
      rw [List.forall_mem_cons, ← ih]
      have hshows := next_shows (run_named run) input
      show strays (next platform state input).log = 0 ↔ _
      cases hstrays : Strays platform state input with
      | false =>
          rw [hstrays] at hshows
          have hsame : strays (next platform state input).log = strays state.log := hshows
          simp [hsame]
      | true =>
          rw [hstrays] at hshows
          have hlt : strays state.log < strays (next platform state input).log := hshows
          simp [(Nat.zero_le _).trans_lt hlt |>.ne']

/-- **Requests are conserved in exactly the runs without a step that strays.** -/
theorem run_conserved_iff {trace : List (Peer × Step)}
    (run : (machine platform).Run (fun _ _ => True) trace peer) :
    Conserved peer ↔ ∀ visit ∈ trace, Strays platform visit.1 visit.2 = false := by
  obtain ⟨hspoilt, haccounted, hsound⟩ := run_requests run
  rw [← run_strays run, strays_eq_zero]
  constructor
  · intro h id hmem
    rcases hspoilt id hmem with ⟨hin, hcompleted⟩ | htwice
    · obtain ⟨request, hrequest⟩ := Table.mem_iff_lookup.1 hin
      exact h.gone id request hrequest hcompleted
    · exact htwice h.once
  · intro hnone
    obtain ⟨honce, hgone, hstored⟩ := hsound hnone
    exact ⟨honce, hgone, haccounted, hstored⟩

/-- How often the id was completed. -/
def completions (id : String) (log : List Entry) : ℕ :=
  log.countP fun entry => match entry.event with
    | .completed other .. => other = id
    | _ => false

theorem completions_pos {id : String} {log : List Entry} (h : 0 < completions id log) :
    Completed log id := by
  obtain ⟨entry, hentry, hmatch⟩ := List.countP_pos_iff.1 h
  obtain ⟨time, event⟩ := entry
  cases event with
  | completed other result transport cause =>
      obtain rfl := of_decide_eq_true hmatch
      exact ⟨result, transport, cause, List.mem_map_of_mem hentry⟩
  | _ => simp at hmatch

theorem completions_le_one {log : List Entry} (h : Always Once log) (id : String) :
    completions id log ≤ 1 := by
  induction log with
  | nil => exact Nat.zero_le _
  | cons entry rest ih =>
      have hrest := ih h.tail
      by_cases hown : ∃ result transport cause, entry.event = .completed id result transport cause
      · obtain ⟨result, transport, cause, heq⟩ := hown
        have hnone : ¬ 0 < completions id rest := fun hpos =>
          (h.head _ _ _ _ heq).2 (completions_pos hpos)
        have hcount : completions id (entry :: rest) = completions id rest + 1 :=
          List.countP_cons_of_pos (by simp [heq])
        omega
      · rw [completions, List.countP_cons_of_neg]
        · exact hrest
        · obtain ⟨time, event⟩ := entry
          cases event with
          | completed other result transport cause =>
              intro hsame
              exact hown ⟨result, transport, cause, by rw [of_decide_eq_true hsame]⟩
          | _ => simp

/-- A slot that stops the peer when the first of two requests is completed. -/
def World.stopping : World := { World.sample with slot := fun n => if n = 2 then [.stop] else [] }

/-- A slot that makes a request when the first of two is completed, and stops the peer when
the second is. -/
def World.busy : World :=
  { World.sample with slot := fun n =>
      if n = 2 then [.request "h" ⟨[]⟩] else if n = 4 then [.stop] else [] }

/-- Two requests that both run into their deadline. -/
def waiting : List Input :=
  [.start Options.sample false (.ok 0), .request "h" ⟨[]⟩, .request "h" ⟨[]⟩, .clock 20000, .sweep]

theorem not_conserved_stopping : ∃ trace, (machine .sample).Run (fun _ _ => True) trace
      ((waiting.map (Step.mk · World.stopping)).foldl (next .sample) { now := 0 }) ∧
    ¬ Conserved ((waiting.map (Step.mk · World.stopping)).foldl (next .sample) { now := 0 }) := by
  have hstart : (machine .sample).Run (fun _ _ => True) [] { now := 0 } := .start ⟨0, rfl⟩
  obtain ⟨trace, run⟩ := hstart.extend (waiting.map (Step.mk · World.stopping))
    ⟨trivial, trivial, trivial, trivial, trivial, trivial⟩
  refine ⟨trace, run, fun h => ?_⟩
  have htwice := completions_le_one h.once "0"
  exact absurd htwice (by decide +kernel)

/-- The same inputs with slots that are called while no id is left to be visited that
they give up. -/
theorem run_conserved_iff_waiting : ∃ peer trace,
    (machine .sample).Run (fun _ _ => True) trace peer ∧ Conserved peer ∧
      completions "0" peer.log = 1 ∧ completions "1" peer.log = 1 ∧
      completions "2" peer.log = 1 := by
  have hstart : (machine .sample).Run (fun _ _ => True) [] { now := 0 } := .start ⟨0, rfl⟩
  have run := hstart.visits (waiting.map (Step.mk · World.busy))
    ⟨trivial, trivial, trivial, trivial, trivial, trivial⟩
  refine ⟨_, _, run, (run_conserved_iff run).2 ?_, ?_, ?_, ?_⟩ <;> decide +kernel

end Peer

end ServerHost
