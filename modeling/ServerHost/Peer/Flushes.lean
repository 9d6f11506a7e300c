import ServerHost.Peer.Strays

/-!
# The walk of `remote` and `local`

Each request that waits for a transport is marked and sent.  If the channel is finished
inside `send`, its disconnected handler runs before the walk goes on: that of the relay
gives up every request, and that of a link those that it carries.  `flushes` tells from the
state in which the walk begins whether it strays, and `flush_shows` that it does.
-/

namespace ServerHost

namespace Peer

variable {platform : Platform} {world : World} {peer after : Peer} {id : String}

section
variable (platform : Platform) (world : World)

/-- The request waits for a transport to that peer. -/
def waits (peer : Peer) (peerId id : String) : Bool :=
  (peer.requests.lookup id).any fun request => request.peer = peerId && request.transport = ""

/-- The walk over the rest of its ids.  `peer` is the state in which the walk began, but
that the channel may have been closed since. -/
def flushes (channel : Channel) (peerId : String) : Peer → List String → Outline → Bool
  | _, [], _ => false
  | peer, id :: rest, outline =>
      if ¬ peer.waits peerId id then flushes channel peerId peer rest outline
      else
        -- A request that is not sent is finished.
        let fails := fun (peer : Peer) (outline : Outline) =>
          if world.stops outline.length then !rest.isEmpty
          else flushes channel peerId peer rest (outline.report platform world id)
        let outline := outline.tick
        if ¬ peer.writable channel then fails peer outline
        else match world.send outline.length with
          | .accepted => flushes channel peerId peer rest outline.tick
          | .closing => fails (peer.shut channel) outline.tick
          | .lost accepted =>
              match channel with
              | .relay => !rest.isEmpty
              | .link socket =>
                  let closed := { peer with opened := peer.opened.filter (· ≠ socket) }
                  if socket ∉ peer.attached then
                    if accepted then flushes channel peerId closed rest outline
                    else fails closed outline
                  else
                    -- The link takes the requests with it that it carries by now.
                    (lostFate platform world (fun other => peer.carried socket other ||
                      peer.waits peerId other && decide (other ∉ rest)) outline).leads
                      (!rest.isEmpty) fun outline =>
                        rest.any (fun other => decide (other ∉ outline.ids)) ||
                          flushes channel peerId closed rest outline

/-- `remote` or `local` strays. -/
def flushStrays (channel : Channel) (peerId : String) (peer : Peer) : Bool :=
  let peer := peer.flushing channel peerId
  flushes platform world channel peerId peer
    (world.requestOrder peer.log.length peer.requests.keys) peer.outline

end

/-! ## The walk

`remote` and `local` walk over the ids of the requests and send those of one peer.  While
nothing stray has happened the peer agrees with the one the walk began with. -/

/-- In the middle of the walk: the state `peer`, against the state `start` in which it
began, while the ids `rest` are still to be visited. -/
structure Along (platform : Platform) (channel : Channel) (peerId : String) (start peer : Peer)
    (rest : List String) : Prop where
  began : Named platform start
  named : Named platform peer
  uuids : start.uuids ≤ peer.uuids
  relay : peer.relay = start.relay
  opened : peer.opened = start.opened
  attached : ∀ socket, channel = .link socket → socket ∈ peer.opened →
    (socket ∈ peer.attached ↔ socket ∈ start.attached) ∧ socket ∈ peer.links
  ahead : ∀ id ∈ rest, id ∈ peer.requests ∧ peer.requests.lookup id = start.requests.lookup id
  carried : ∀ socket, channel = .link socket → ∀ id ∈ peer.requests,
    peer.carried socket id =
      (start.carried socket id || start.waits peerId id && decide (id ∉ rest))

section
variable {channel : Channel} {peerId : String} {start : Peer} {rest : List String}

theorem Along.writable (h : Along platform channel peerId start peer rest) :
    peer.writable channel = start.writable channel := by
  cases channel with
  | relay => simp only [Peer.writable, h.relay]
  | link socket => simp only [Peer.writable, h.opened]

/-- Requests come and go, but none of those to be visited. -/
theorem Along.kept (h : Along platform channel peerId start peer rest)
    (hkept : Kept platform peer after) (hrest : ∀ id ∈ rest, id ∈ after.requests) :
    Along platform channel peerId start after rest where
  began := h.began
  named := hkept.named h.named
  uuids := h.uuids.trans hkept.uuids
  relay := hkept.relay.trans h.relay
  opened := hkept.opened.trans h.opened
  attached := by
    rw [hkept.opened, hkept.attached, hkept.links]
    exact h.attached
  ahead := by
    intro id hid
    obtain ⟨hbefore, hlookup⟩ := h.ahead id hid
    exact ⟨hrest id hid, (hkept.lookup h.named hbefore (hrest id hid)).trans hlookup⟩
  carried := by
    intro socket hchannel id hmem
    by_cases hbefore : id ∈ peer.requests
    · rw [← h.carried socket hchannel id hbefore, Peer.carried, Peer.carried,
        hkept.lookup h.named hbefore hmem]
    · -- A request made since is not carried, and its id is none of the walk.
      obtain ⟨hnew, hfree⟩ := hkept.fresh h.began h.uuids hmem hbefore
      rw [hfree socket]
      simp [Peer.carried, Peer.waits, hnew]

theorem Along.skip (h : Along platform channel peerId start peer (id :: rest))
    (hunwanted : start.waits peerId id = false) :
    Along platform channel peerId start peer rest := by
  refine { h with
    ahead := fun other hother => h.ahead other (List.mem_cons_of_mem _ hother)
    carried := fun socket hchannel other hmem => ?_ }
  rw [h.carried socket hchannel other hmem]
  by_cases hsame : other = id
  · rw [hsame, hunwanted, Bool.false_and, Bool.false_and]
  · simp only [List.mem_cons, hsame, false_or]

/-- The request is marked, so the link carries it. -/
theorem Along.hand (h : Along platform channel peerId start peer (id :: rest))
    (hout : id ∉ rest) {request : Pending} (hrequest : peer.requests.lookup id = some request)
    (hwanted : start.waits peerId id = true) :
    Along platform channel peerId start (peer.hand id channel request) rest := by
  have hlookup : ∀ other, other ≠ id →
      (peer.hand id channel request).requests.lookup other = peer.requests.lookup other :=
    fun other hne => (Table.lookup_modify ..).trans (if_neg hne)
  refine { h with
    named := fun other hother => h.named other (Table.mem_modify.1 hother)
    ahead := fun other hother => ?_
    carried := fun socket hchannel other hother => ?_ }
  · have hne : other ≠ id := fun hsame => hout (hsame ▸ hother)
    obtain ⟨hmem, hsame⟩ := h.ahead other (List.mem_cons_of_mem _ hother)
    exact ⟨Table.mem_modify.2 hmem, (hlookup other hne).trans hsame⟩
  · by_cases hsame : other = id
    · subst hchannel hsame
      have hmarked : (peer.hand other (.link socket) request).requests.lookup other =
          some (Pending.over (.link socket) request) := by
        refine (Table.lookup_modify ..).trans ?_
        rw [if_pos rfl, hrequest]
        rfl
      simp [Peer.carried, hmarked, Pending.over, hwanted, hout]
    · rw [Peer.carried, hlookup other hsame, ← Peer.carried,
        h.carried socket hchannel other (Table.mem_modify.1 hother)]
      simp only [List.mem_cons, hsame, false_or]

theorem Along.shut (h : Along platform channel peerId start peer rest) :
    Along platform channel peerId (start.shut channel) (peer.shut channel) rest := by
  cases channel with
  | relay =>
      refine ⟨h.began, h.named, h.uuids, rfl, h.opened, ?_, h.ahead, ?_⟩ <;>
        exact fun _ hchannel => Channel.noConfusion hchannel
  | link socket =>
      refine ⟨h.began, h.named, h.uuids, h.relay, congrArg (·.erase socket) h.opened, ?_,
        h.ahead, h.carried⟩
      intro other hchannel hopened
      exact h.attached other hchannel (List.mem_of_mem_erase hopened)

/-- The link is finished. -/
theorem Along.close {socket : Socket} (h : Along platform (.link socket) peerId start peer rest)
    (hrequests : after.requests = peer.requests) (huuids : after.uuids = peer.uuids)
    (hrelay : after.relay = peer.relay) (hopened : after.opened = peer.opened.filter (· ≠ socket)) :
    Along platform (.link socket) peerId
      { start with opened := start.opened.filter (· ≠ socket) } after rest := by
  refine ⟨h.began, ?_, huuids ▸ h.uuids, hrelay.trans h.relay, ?_, ?_, ?_, ?_⟩
  · intro id hmem
    obtain ⟨number, hlt, hid⟩ := h.named id (hrequests ▸ hmem)
    exact ⟨number, huuids ▸ hlt, hid⟩
  · rw [hopened, h.opened]
  · intro other hchannel hmem
    obtain rfl := Channel.link.inj hchannel
    simp [hopened] at hmem
  · rw [hrequests]
    exact h.ahead
  · intro other hchannel id hmem
    rw [hrequests] at hmem
    rw [Peer.carried, hrequests]
    exact h.carried other hchannel id hmem

/-! ## What the walk foretells -/

theorem drops_congr {due due' : String → Bool} {ids : List String}
    (h : ∀ id ∈ ids, due id = due' id) (outline : Outline) :
    drops platform world due ids outline = drops platform world due' ids outline := by
  induction ids generalizing outline with
  | nil => rfl
  | cons id rest ih =>
      obtain ⟨hfirst, hrest⟩ := List.forall_mem_cons.1 h
      simp only [drops, hfirst, ih hrest]

theorem flushRound_remembers (state : Peer) (id : String) :
    Remembers platform (state.index id) (flushRound world
      (Peer.finish platform world world.depth) channel peerId state id) := by
  unfold flushRound
  dsimp only
  generalize state.index id = state
  generalize Table.value state.requests id = request
  -- handing a request over keeps it in the table
  have hhand : Remembers platform state (state.hand id channel request) := by
    refine ⟨(strays_emit rfl _).ge, fun other habsent => .inl ⟨habsent.1, fun hmem => ?_⟩⟩
    exact habsent.2 (Table.mem_modify.1 hmem)
  have hquiet : ∀ {state after : Peer}, Quiet state after → Remembers platform state after :=
    fun {state after} h => changes_remember
      (show Changes platform state ⟨.stop, world⟩ state after from changes_quiet h)
  have hdropped : ∀ state : Peer, Remembers platform state
      (state.dropped world (Peer.finish platform world world.depth) channel) :=
    fun state => changes_remember (show Changes platform state ⟨.stop, world⟩ state _ from
      dropped_changes (finish_changes world world.depth) channel state)
  have hsend : ∀ (state : Peer) message, Remembers platform state
      (state.send world (Peer.finish platform world world.depth) channel message).1 := by
    intro state message
    unfold send
    split
    · exact .refl state
    split
    · exact ⟨(strays_emit rfl _).ge, fun _ => .inl⟩
    · exact hquiet (shut_quiet channel state)
    · exact hdropped state
  split
  · exact .refl state
  split
  · exact (hhand.trans (hsend _ _)).trans (finish_remembers ..)
  · exact hhand.trans (hsend _ _)

/-- In the middle of the walk, `flushes` tells how the rest of it fares. -/
def Foretold (platform : Platform) (world : World) (channel : Channel) (peerId : String)
    (rest : List String) : Prop :=
  ∀ start peer, Along platform channel peerId start peer rest →
    Shows peer (rest.foldl (flushRound world (Peer.finish platform world world.depth) channel
      peerId) peer) (flushes platform world channel peerId start rest peer.outline)

/-- What is left of the walk strays if it has yet to visit an id that is gone. -/
theorem flush_strays (h : ∃ id ∈ rest, Absent platform id peer) :
    strays peer.log < strays (rest.foldl (flushRound world
      (Peer.finish platform world world.depth) channel peerId) peer).log :=
  walk_strays (round_gone flushRound_remembers) (round_remembers flushRound_remembers) rest h

/-- Everything was given up in this round. -/
theorem shows_of_absent {state : Peer} (hsame : strays state.log = strays peer.log)
    (habsent : ∀ id ∈ rest, Absent platform id state) :
    Shows peer (rest.foldl (flushRound world
      (Peer.finish platform world world.depth) channel peerId) state) !rest.isEmpty := by
  cases rest with
  | nil => exact hsame
  | cons next rest =>
      have hstray : strays state.log < strays ((next :: rest).foldl (flushRound world
          (Peer.finish platform world world.depth) channel peerId) state).log :=
        flush_strays ⟨next, List.mem_cons_self, habsent next List.mem_cons_self⟩
      rw [hsame] at hstray
      exact hstray

/-- The request of this round is finished. -/
theorem fails_shows (ih : Foretold platform world channel peerId rest) {result : JsonObject}
    (halong : Along platform channel peerId start peer rest) (hmem : id ∈ peer.requests)
    (hout : id ∉ rest) :
    Shows peer (rest.foldl (flushRound world (Peer.finish platform world world.depth) channel
        peerId) (Peer.finish platform world world.depth none id result peer))
      (if world.stops peer.outline.length = true then !rest.isEmpty
        else flushes platform world channel peerId start rest
          (peer.outline.report platform world id)) := by
  cases hstops : world.stops peer.outline.length with
  | true =>
      obtain ⟨-, habsent⟩ := @finish_stops platform world peer id result hmem hstops
      have hsame := (finish_straight platform world world.depth none id result peer).strays
      exact shows_of_absent hsame fun other hother =>
        habsent other (halong.named other (halong.ahead other hother).1)
  | false =>
      obtain ⟨hkept, houtline⟩ := @finish_kept platform world peer id result hmem hstops
      have hids : (Peer.finish platform world world.depth none id result peer).requests.keys =
          (peer.outline.report platform world id).ids := congrArg Outline.ids houtline
      have hahead : ∀ other ∈ rest,
          other ∈ (Peer.finish platform world world.depth none id result peer).requests := by
        intro other hother
        rw [AList.mem_keys, hids]
        refine mem_report (AList.mem_keys.1 (halong.ahead other hother).1) ?_
        rintro rfl
        exact hout hother
      have hrest := ih start _ (halong.kept hkept hahead)
      rw [houtline] at hrest
      exact shows_of_straight hkept.strays hrest

/-- The loss of the relay gives up everything. -/
theorem relay_loses (hopen : peer.writable .relay = true) :
    Straight peer (peer.dropped world (Peer.finish platform world world.depth) .relay) ∧
      ∀ id, Made platform id peer →
        Absent platform id
          (peer.dropped world (Peer.finish platform world world.depth) .relay) := by
  have hstraight := finish_straight platform world world.depth
  refine ⟨relayFinished_straight hstraight _ peer, fun id hmade => ?_⟩
  have hconnected : peer.relay ≠ .closed := by
    rw [of_decide_eq_true hopen]
    exact SocketState.noConfusion
  have hlost : ∀ state : Peer, Made platform id state →
      Absent platform id (state.relayLost world (Peer.finish platform world world.depth)) :=
    fun state => relayLost_absent hstraight (@finish_changes platform peer ⟨.stop, world⟩ world _)
      (finish_removes platform world world.depth)
  simp only [dropped, relayFinished, if_neg hconnected]
  refine hlost _ ?_
  split
  · exact hmade
  · have hquiet := relayError_quiet "WebSocket output capacity exceeded"
      { peer with relay := .closed }
    obtain ⟨number, hlt, hid⟩ := hmade
    exact ⟨number, hlt.trans_le hquiet.uuids, hid⟩

/-- Whatever the send returns, what is gone stays so. -/
theorem round_absent {state : Peer} {message : JsonObject} (accepted : Bool)
    (hsame : strays state.log = strays peer.log)
    (habsent : ∀ other ∈ rest, Absent platform other state) :
    Shows peer (rest.foldl (flushRound world (Peer.finish platform world world.depth) channel
      peerId) (if ¬ accepted = true then
        Peer.finish platform world world.depth none id message state else state))
      !rest.isEmpty := by
  split
  · have hstraight := finish_straight platform world world.depth none id message state
    exact shows_of_absent (hstraight.strays.trans hsame) fun other hother =>
      hstraight.absent (finish_remembers ..) (habsent other hother)
  · exact shows_of_absent hsame habsent

/-! ## The loss of a link within `send` -/

/-- The link is finished inside `send`, and carried the request of this round. -/
theorem link_shows {socket : Socket} (ih : Foretold platform world (.link socket) peerId rest)
    (halong : Along platform (.link socket) peerId start peer rest) (accepted : Bool)
    {result : JsonObject} (hmem : id ∈ peer.requests) (hcarried : peer.carried socket id = true)
    (hopen : socket ∈ peer.opened) (hattached : socket ∈ peer.attached) :
    Shows peer (rest.foldl (flushRound world (Peer.finish platform world world.depth)
        (.link socket) peerId) (if ¬ accepted = true then
          Peer.finish platform world world.depth none id result
            (peer.dropped world (Peer.finish platform world world.depth) (.link socket))
        else peer.dropped world (Peer.finish platform world world.depth) (.link socket)))
      ((lostFate platform world (peer.carried socket) peer.outline).leads (!rest.isEmpty)
        fun outline => rest.any (fun other => decide (other ∉ outline.ids)) ||
          flushes platform world (.link socket) peerId
            { start with opened := start.opened.filter (· ≠ socket) } rest outline) := by
  obtain ⟨link, hlink⟩ := Table.mem_iff_lookup.1 (halong.attached socket rfl hopen).2
  have hdropped : peer.dropped world (Peer.finish platform world world.depth) (.link socket) =
      ({ peer with opened := peer.opened.filter (· ≠ socket) } : Peer).lost world
        (Peer.finish platform world world.depth) socket := if_pos hattached
  obtain ⟨hfares, hdone⟩ := @lost_fares platform world
    { peer with opened := peer.opened.filter (· ≠ socket) } halong.named socket link hlink
  rw [← hdropped] at hfares hdone
  generalize peer.dropped world (Peer.finish platform world world.depth) (.link socket) = state
    at hfares hdone ⊢
  -- What the loss of the link comes to decides how the walk goes on.
  have hfate : ∀ fate, Fares platform (({ peer with
      opened := peer.opened.filter (· ≠ socket) } : Peer).unlink socket link) state fate →
      lostFate platform world (peer.carried socket) peer.outline = fate → Shows peer
        (rest.foldl
          (flushRound world (Peer.finish platform world world.depth) (.link socket) peerId)
          (if ¬ accepted = true then
            Peer.finish platform world world.depth none id result state else state))
        (fate.leads (!rest.isEmpty) fun outline =>
          rest.any (fun other => decide (other ∉ outline.ids)) ||
            flushes platform world (.link socket) peerId
              { start with opened := start.opened.filter (· ≠ socket) } rest outline) := by
    intro fate hends _
    have hunlinked : strays (({ peer with
        opened := peer.opened.filter (· ≠ socket) } : Peer).unlink socket link).log =
        strays peer.log := strays_emit rfl _
    cases fate with
    | cut =>
        -- Dropping the link recreated a request, and a log does not shrink.
        have hgrows : Remembers platform state (if ¬ accepted = true then
            Peer.finish platform world world.depth none id result state else state) := by
          split
          · exact finish_remembers ..
          · exact .refl state
        have hrest := walk_remembers (round_gone flushRound_remembers)
          (round_remembers (@flushRound_remembers platform world (.link socket) peerId)) rest
          (if ¬ accepted = true then
            Peer.finish platform world world.depth none id result state else state)
        have hlt : strays peer.log < strays state.log := hunlinked ▸ hends
        exact hlt.trans_le (hgrows.trans hrest).strays
    | ended =>
        -- Everything was given up, so none of the ids ahead is left.
        obtain ⟨hsame, -, habsent⟩ := hends
        exact round_absent accepted (hsame.trans hunlinked) fun other hother =>
          habsent other (halong.ahead other hother).1
    | calm outline =>
        -- Only the requests the link carried are gone, this one among them.
        obtain ⟨hkept, houtline⟩ := hends
        have hsame : strays state.log = strays peer.log := hkept.strays.trans hunlinked
        have hgone : id ∉ state.requests := hdone hsame id hmem hcarried
        have hids : state.requests.keys = outline.ids := congrArg Outline.ids houtline
        rw [finish_of_not_mem hgone, ite_self]
        by_cases hleft : ∀ other ∈ rest, other ∈ state.requests
        · -- The walk goes on without the link.
          have hnone : rest.any (fun other => decide (other ∉ outline.ids)) = false :=
            List.any_eq_false.2 fun other hother hmissing =>
              of_decide_eq_true hmissing (hids ▸ AList.mem_keys.1 (hleft other hother))
          have hclosed : Along platform (.link socket) peerId
              { start with opened := start.opened.filter (· ≠ socket) }
              (({ peer with opened := peer.opened.filter (· ≠ socket) } : Peer).unlink socket link)
              rest := halong.close rfl rfl rfl
            (List.filter_eq_self.2 fun other hother => (List.mem_filter.1 hother).2)
          have hrest := ih _ state (hclosed.kept hkept hleft)
          rw [houtline] at hrest
          rw [Fate.leads, hnone, Bool.false_or]
          exact shows_of_straight hsame hrest
        · -- The link carried one of the ids ahead.
          obtain ⟨other, hother, hmissing⟩ : ∃ other ∈ rest, other ∉ state.requests := by
            simpa using hleft
          have hany : rest.any (fun other => decide (other ∉ outline.ids)) = true :=
            List.any_eq_true.2 ⟨other, hother, decide_eq_true fun hmem =>
              hmissing (AList.mem_keys.2 (hids ▸ hmem))⟩
          obtain ⟨number, hlt, hid⟩ := halong.named other (halong.ahead other hother).1
          have habsent : Absent platform other state :=
            ⟨⟨number, hlt.trans_le hkept.uuids, hid⟩, hmissing⟩
          rw [Fate.leads, hany, Bool.true_or]
          exact shows_of_straight hsame (flush_strays ⟨other, hother, habsent⟩)
  exact hfate _ hfares rfl

/-! ## The whole walk -/

theorem lostFate_congr {due due' : String → Bool} (h : ∀ id ∈ peer.requests, due id = due' id) :
    lostFate platform world due peer.outline = lostFate platform world due' peer.outline := by
  refine drops_congr (fun id hid => h id (AList.mem_keys.2 ?_)) _
  exact (world.requestOrder_perm ..).mem_iff.1 hid

theorem emit_kept {event : Event} (h : event.stray = false) (peer : Peer) :
    Kept platform peer (peer.emit event) :=
  ⟨le_rfl, fun _ _ => .inl, rfl, rfl, rfl, rfl, rfl, strays_emit h peer⟩

theorem shut_outline (channel : Channel) (peer : Peer) :
    (peer.shut channel).outline = peer.outline.tick := by
  cases channel <;> rfl

/-- **The walk of `remote` and `local` fares as `flushes` tells.** -/
theorem flushes_foretold (ids : List String) (hnodup : ids.Nodup) :
    Foretold platform world channel peerId ids := by
  induction ids with
  | nil => exact fun _ _ _ => rfl
  | cons id rest ih =>
      -- Induction on the ids ahead; `start` is the peer when the walk began.
      intro start peer halong
      obtain ⟨hout, hnodup⟩ := List.nodup_cons.1 hnodup
      obtain ⟨hmem, hlookup⟩ := halong.ahead id List.mem_cons_self
      obtain ⟨request, hrequest⟩ := Table.mem_iff_lookup.1 hmem
      have hwaits : start.waits peerId id =
          decide (request.peer = peerId ∧ request.transport = "") := by
        unfold Peer.waits
        rw [← hlookup, hrequest]
        simp
      rw [List.foldl_cons, flushes]
      simp only [flushRound, index_of_mem hmem, Table.value_of_lookup hrequest]
      cases hwanted : start.waits peerId id with
      | false =>
          -- A request of another peer, or one already sent, is left as it is.
          rw [hwanted] at hwaits
          have hunwanted : request.peer ≠ peerId ∨ request.transport ≠ "" :=
            not_and_or.1 (of_decide_eq_false hwaits.symm)
          rw [if_pos hunwanted]
          exact ih hnodup start peer (halong.skip hwanted)
      | true =>
          -- It is marked as handed over before it is sent, and stays so when that fails.
          rw [hwanted] at hwaits
          obtain ⟨hpeer, hunsent⟩ := of_decide_eq_true hwaits.symm
          rw [if_neg (by simp [hpeer, hunsent])]
          have hmarked := halong.hand hout hrequest hwanted
          have hthere : id ∈ (peer.hand id channel request).requests := Table.mem_modify.2 hmem
          have houtline : peer.outline.tick = (peer.hand id channel request).outline :=
            Outline.ext rfl (Table.keys_modify ..).symm rfl
          have hsame : strays (peer.hand id channel request).log = strays peer.log :=
            strays_emit rfl _
          have hcarried : ∀ socket, channel = .link socket →
              (peer.hand id channel request).carried socket id = true := by
            intro socket hchannel
            rw [hmarked.carried socket hchannel id hthere, hwanted]
            simp [hout]
          refine shows_of_straight hsame ?_
          rw [houtline]
          generalize peer.hand id channel request = marked at *
          have hfinished := fun start peer (h : Along platform channel peerId start peer rest)
            (hin : id ∈ peer.requests) =>
              @fails_shows platform world peer id channel peerId start rest (ih hnodup)
                (errorObject "connection_lost") h hin hout
          simp only [not_true_eq_false, if_false, ← hmarked.writable]
          unfold send
          cases hopen : marked.writable channel with
          -- `send` refuses a channel that is not open, and the request completes.
          | false => exact hfinished start marked hmarked hthere
          | true =>
              simp only [not_true_eq_false, if_false]
              rw [show marked.outline.length = marked.log.length from rfl]
              cases world.send marked.log.length with
              | accepted =>
                  -- The message is on its way, and the walk goes on.
                  have hsent := @emit_kept platform (.sent channel
                    (requestOver channel id peerId request.payload)) rfl marked
                  refine shows_of_straight hsent.strays (ih hnodup start _ ?_)
                  exact hmarked.kept hsent fun other hother => (hmarked.ahead other hother).1
              | closing =>
                  -- The buffer is full: the channel closes, and `send` returns false.
                  have hstill : id ∈ (marked.shut channel).requests := by
                    rwa [(shut_quiet channel marked).requests]
                  have hrest := hfinished _ _ hmarked.shut hstill
                  rw [shut_outline] at hrest
                  exact shows_of_straight (shut_straight channel marked).strays hrest
              | lost accepted =>
                  -- The channel is lost within the call, before `send` returns.
                  cases channel with
                  | relay =>
                      obtain ⟨hstraight, habsent⟩ := @relay_loses platform world marked hopen
                      exact round_absent accepted hstraight.strays fun other hother =>
                        habsent other (hmarked.named other (hmarked.ahead other hother).1)
                  | link socket =>
                      have hopened : socket ∈ marked.opened := of_decide_eq_true hopen
                      have hattached := (hmarked.attached socket rfl hopened).1
                      by_cases hin : socket ∈ marked.attached
                      · have hloses := @lostFate_congr platform world marked _ _
                          fun other hother => hmarked.carried socket rfl other hother
                        simp only [hattached.1 hin, not_true_eq_false, if_false]
                        rw [← hloses]
                        exact link_shows (ih hnodup) hmarked accepted hthere (hcarried socket rfl)
                          hopened hin
                      · -- The signal of the socket does not reach the peer.
                        have hdropped : marked.dropped world
                            (Peer.finish platform world world.depth) (.link socket) =
                            { marked with opened := marked.opened.filter (· ≠ socket) } :=
                          if_neg hin
                        have hclosed : Along platform (.link socket) peerId
                            { start with opened := start.opened.filter (· ≠ socket) }
                            { marked with opened := marked.opened.filter (· ≠ socket) } rest :=
                          hmarked.close rfl rfl rfl rfl
                        simp only [hdropped, mt hattached.2 hin, not_false_eq_true, if_true]
                        cases accepted with
                        | true => exact ih hnodup _ _ hclosed
                        | false => exact hfinished _ _ hclosed hthere

/-- **`remote` and `local` stray as predicted.** -/
theorem flush_shows (hnamed : Named platform peer)
    (hlinked : ∀ socket, channel = .link socket → socket ∈ peer.links) :
    Shows peer (peer.flush world (Peer.finish platform world world.depth) channel peerId)
      (flushStrays platform world channel peerId peer) := by
  have horder := world.requestOrder_perm (peer.flushing channel peerId).log.length
    (peer.flushing channel peerId).requests.keys
  refine shows_of_straight (strays_emit rfl _) (flushes_foretold _
    (horder.nodup_iff.2 (AList.keys_nodup _)) _ (peer.flushing channel peerId) ?_)
  refine ⟨hnamed, hnamed, le_rfl, rfl, rfl,
    fun socket hchannel _ => ⟨.rfl, hlinked socket hchannel⟩,
    fun id hid => ⟨AList.mem_keys.2 (horder.mem_iff.1 hid), rfl⟩, fun socket _ id hmem => ?_⟩
  -- All ids are still to be visited.
  have hahead := horder.mem_iff.2 (AList.mem_keys.1 hmem)
  simp [hahead]

end

end Peer

end ServerHost
