import ServerHost.Peer.Drivers

/-!
# Every handler leaves the requests with a driver

The functions of `Peer::Private`, one lemma each, and from them a turn and a run of a peer
that is connected to a relay which answers every `connect`.

## Strategy

While handlers are atomic, `finish` only takes a request out of the table and `send` only
shows.  `remote` and `local` serve every request of the peer they flush, `lost` queues a
`nextLocal` for the link it takes away, and `nextLocal` dials again or calls `remote`.
-/

namespace ServerHost

namespace Peer

variable {base : List Entry} {flight : Flight} {exempt : String → Pending → Prop}
  {loose : String → Prop} {peer after : Peer}

section
variable {world : World}

/-! ## The end of a link -/

/-- **`lost` queues a `nextLocal` when a driver goes.** -/
theorem lost_driven (socket : Socket) (h : Driven base flight exempt loose peer) :
    Driven base flight exempt loose (peer.lost world take socket) ∧
      (peer.lost world take socket).sockets = peer.sockets := by
  unfold lost
  cases hlink : peer.links.lookup socket with
  | none => exact ⟨h, rfl⟩
  | some link =>
      have hunlink := h.unlink hlink
      have hsettles := (walk_settles world (lostRound take socket) (fun _ _ => True)
          (fun peer id hmem => ⟨lostRound_touches hmem, trivial⟩)
        (fun _ _ _ _ => id) (peer.unlink socket link).log.length (peer.unlink socket link)).1
      dsimp only
      generalize (world.requestOrder (peer.unlink socket link).log.length
        (peer.unlink socket link).requests.keys).foldl (lostRound take socket)
        (peer.unlink socket link) = ended at *
      have hended := hunlink.settle hsettles
      split
      · refine ⟨{ hended with
          driver := fun hconnected peerId hmem hloose => ?_ }, hsettles.sockets⟩
        by_cases hsame : link.peer = peerId
        · exact .inr (.inr (List.mem_append_right _ (by simp [hsame])))
        · refine (hended.driver hconnected peerId hmem ?_).imp_right
            (Or.imp_right (List.mem_append_left _))
          exact not_or.2 ⟨hloose, fun hlast => hsame hlast.2.2⟩
      · next hkept =>
          refine ⟨hended.mono (fun _ _ _ => id) fun peerId _ hloose => ?_, hsettles.sockets⟩
          exact hloose.resolve_right fun hlast => hkept ⟨hlast.1, by simp [hlast.2.1]⟩

theorem linkFinished_driven (socket : Socket) (h : Driven base flight exempt loose peer) :
    Driven base flight exempt loose (peer.linkFinished world take socket) := by
  have hfinished : Settles peer { peer with opened := peer.opened.filter (· ≠ socket) } :=
    { Settles.refl peer with }
  unfold linkFinished
  dsimp only
  split
  · exact (lost_driven socket (h.settle hfinished)).1
  · exact h.settle hfinished

theorem closeLink_driven (socket : Socket) (h : Driven base flight exempt loose peer) :
    Driven base flight exempt loose (peer.closeLink world take socket) := by
  unfold closeLink
  split
  · exact linkFinished_driven socket h
  · next hopen =>
      rw [not_or, not_not] at hopen
      exact h.settle (shut_settles (decide_eq_true hopen.1))

theorem peersMessage_served {message : JsonObject} (h : Served base flight peer) :
    Served base flight (peer.peersMessage world take message) := by
  have hwalk : ∀ active (list : List Socket) (listed : Peer), Served base flight listed →
      (∀ socket ∈ list, socket < listed.sockets) →
      Served base flight (list.foldl (peersRound world take active) listed) := by
    intro active list
    induction list with
    | nil => exact fun listed hlisted _ => hlisted
    | cons socket rest ih =>
        intro listed hlisted hlist
        obtain ⟨hserved, hsockets⟩ : Served base flight
            (peersRound world take active listed socket) ∧
            (peersRound world take active listed socket).sockets = listed.sockets := by
          unfold peersRound
          dsimp only
          by_cases hmem : socket ∈ listed.links
          · rw [if_pos hmem]
            split
            · exact lost_driven socket hlisted
            · exact ⟨hlisted, rfl⟩
          · rw [if_neg hmem, Table.value_of_lookup (AList.lookup_insert listed.links),
              if_neg fun hlost => Bool.false_ne_true hlost.2]
            exact ⟨hlisted.phantom hmem (hlist socket List.mem_cons_self), rfl⟩
        refine ih _ hserved fun other hother => ?_
        rw [hsockets]
        exact hlist other (List.mem_cons_of_mem _ hother)
  refine hwalk _ _ _ (h.settle { Settles.refl peer with }) fun socket hmem => ?_
  exact h.below socket (AList.mem_keys.2 ((world.linkOrder_perm ..).mem_iff.1 hmem))

theorem sweep_served (h : Served base flight peer) :
    Served base flight (peer.sweep world take) := by
  have hticket : ∀ now (peer : Peer) text, Settles peer (sweepTicket now peer text) := by
    intro now peer text
    unfold sweepTicket
    split
    · exact { Settles.refl peer with }
    · exact .refl peer
  have hlinks : ∀ now (list : List Socket) (peer : Peer), Served base flight peer →
      Served base flight (list.foldl (sweepLink world take now) peer) := by
    intro now list
    induction list with
    | nil => exact fun peer hpeer => hpeer
    | cons socket rest ih =>
        intro peer hpeer
        refine ih _ ?_
        dsimp only [sweepLink]
        split
        · exact (lost_driven socket hpeer).1
        · exact hpeer
  have hrequests := (walk_settles world (sweepRequest take peer.now) (fun _ _ => True)
    (fun peer id hmem => ⟨sweepRequest_touches hmem, trivial⟩) (fun _ _ _ _ => id)
    peer.log.length peer).1
  exact hlinks _ _ _ ((h.settle hrequests).settle (.foldl (hticket _) _ _))

end

/-! ## The end of the connection -/

section
variable (world : World)

/-- Every request is finished. -/
theorem finishAll_settles (result : JsonObject) (peer : Peer) :
    Settles peer (peer.finishAll world take result) ∧
      ∀ id, id ∉ (peer.finishAll world take result).requests := by
  obtain ⟨hsettles, hgone⟩ := walk_settles world
    (fun peer id => peer.take none id result) (fun id peer => id ∉ peer.requests)
    (fun peer id _ => ⟨take_touches none id result peer, not_mem_take none id result peer⟩)
    (fun _ _ _ hsettles => hsettles.not_mem) peer.log.length peer
  refine ⟨hsettles, fun id hid => ?_⟩
  by_cases hold : id ∈ peer.requests
  · exact hgone id hold hid
  · exact hsettles.not_mem hold hid

/-- With the relay, every request and every link is gone. -/
theorem relayLost_idle (peer : Peer) :
    Idle (peer.relayLost world take) ∧ (∀ id, id ∉ (peer.relayLost world take).requests) ∧
      Settles peer.relayDown.resetLocal (peer.relayLost world take) := by
  have hdown : Idle peer.relayDown.resetLocal := ⟨rfl, rfl, rfl, rfl⟩
  obtain ⟨hsettles, hgone⟩ := finishAll_settles world (errorObject "connection_lost")
    peer.relayDown.resetLocal
  have hthen := scheduleReconnect_settles (peer.relayDown.resetLocal.finishAll world take
    (errorObject "connection_lost"))
  exact ⟨hdown.settle (hsettles.trans hthen), fun id => hthen.not_mem (hgone id),
    hsettles.trans hthen⟩

theorem relayFinished_idle (error : String) (h : peer.relay ≠ .closed) :
    Idle (peer.relayFinished world take error) ∧
      (∀ id, id ∉ (peer.relayFinished world take error).requests) ∧
      (peer.relayFinished world take error).relay = .closed ∧
      (peer.relayFinished world take error).running = peer.running ∧
      peer.log <:+ (peer.relayFinished world take error).log := by
  -- the relay is closed first, so what the losses complete finds no transport
  have hfinished : ∀ closed : Peer, closed.relay = .closed →
      closed.running = peer.running → peer.log <:+ closed.log →
      Idle (closed.relayLost world take) ∧ (∀ id, id ∉ (closed.relayLost world take).requests) ∧
        (closed.relayLost world take).relay = .closed ∧
        (closed.relayLost world take).running = peer.running ∧
        peer.log <:+ (closed.relayLost world take).log := by
    intro closed hclosed hrunning hgrown
    obtain ⟨hidle, hgone, hsettles⟩ := relayLost_idle world closed
    refine ⟨hidle, hgone, ?_, hsettles.running.trans hrunning, ?_⟩
    · exact hsettles.relay.elim (fun hsame => hsame.trans hclosed)
        fun hopen => absurd hclosed hopen.1
    · obtain ⟨new, hlog, -⟩ := hsettles.log
      rw [hlog]
      exact hgrown.trans (List.suffix_append new _)
  rw [relayFinished, if_neg h]
  dsimp only
  split
  · exact hfinished _ rfl rfl (List.suffix_cons ..)
  · have hsettles := relayError_settles error { peer with relay := .closed }
    obtain ⟨new, hlog, -⟩ := hsettles.log
    refine hfinished _ ?_ hsettles.running ?_
    · exact hsettles.relay.elim id fun hopen => absurd rfl hopen.1
    · rw [emit, hlog]
      exact (List.suffix_append new _).trans (List.suffix_cons ..)

theorem relayFinished_served (error : String) (h : Served base flight peer) :
    Served base flight (peer.relayFinished world take error) ∧
      (peer.relayFinished world take error).relay = .closed ∧
      (peer.relayFinished world take error).running = peer.running := by
  by_cases hclosed : peer.relay = .closed
  · rw [relayFinished, if_pos hclosed]
    exact ⟨h, hclosed, rfl⟩
  · obtain ⟨hidle, hgone, hrelay, hrunning, hgrown⟩ :=
      relayFinished_idle world error hclosed
    exact ⟨hidle.served hgone (fun hopen => absurd hrelay hopen) (h.grown.trans hgrown),
      hrelay, hrunning⟩

theorem openRelay_served (h : Served base flight peer) :
    Served base flight (peer.openRelay world take) := by
  unfold openRelay
  split
  · exact h
  next hrunning =>
  rw [not_not] at hrunning
  obtain ⟨hserved, hclosed, hsame⟩ := relayFinished_served world "" h
  have hunready : (peer.relayFinished world take "").ready = true → False := by
    intro hready
    rcases hserved.live hready with hrelay | hrelay <;> simp [hclosed] at hrelay
  exact {
    hserved with
    driver := fun hconnected => (by cases hconnected)
    live := fun hready => (hunready hready).elim
    runs := fun _ => hsame.trans hrunning }

theorem stop_idle (hgrown : base <:+ peer.log) :
    Idle (peer.stop world take) ∧ (∀ id, id ∉ (peer.stop world take).requests) ∧
      (peer.stop world take).relay = .closed ∧ base <:+ (peer.stop world take).log := by
  unfold stop
  dsimp only
  generalize hhalted : ({ { peer with
    running := false
    retry := false
    authTimer := false
    timer := false
    server := none }.resetLocal with ready := false } : Peer) = halted
  have hidle : Idle halted := by
    subst hhalted
    exact ⟨rfl, rfl, rfl, rfl⟩
  have hlog : base <:+ halted.log := by
    subst hhalted
    exact hgrown
  -- the links are gone already when the relay is left
  have hclosed : Idle (halted.relayFinished world take "") ∧
      (halted.relayFinished world take "").relay = .closed ∧
      base <:+ (halted.relayFinished world take "").log := by
    by_cases hopen : halted.relay = .closed
    · rw [relayFinished, if_pos hopen]
      exact ⟨hidle, hopen, hlog⟩
    · obtain ⟨hthen, -, hrelay, -, hgrows⟩ := relayFinished_idle world "" hopen
      exact ⟨hthen, hrelay, hlog.trans hgrows⟩
  obtain ⟨hsettles, hgone⟩ := finishAll_settles world (errorObject "stopped")
    (halted.relayFinished world take "")
  obtain ⟨new, hnew, -⟩ := hsettles.log
  have hthen := hclosed.1.settle hsettles
  refine ⟨⟨hthen.connecting, hthen.ready, hthen.links, hthen.outbound⟩, hgone, ?_, ?_⟩
  · exact hsettles.relay.elim (fun hsame => hsame.trans hclosed.2.1)
      fun hopen => absurd hclosed.2.1 hopen.1
  · rw [hnew]
    exact hclosed.2.2.trans (List.suffix_append new _)

theorem stop_served (hgrown : base <:+ peer.log) :
    Served base flight (peer.stop world take) ∧ (peer.stop world take).relay = .closed := by
  obtain ⟨hidle, hgone, hclosed, hlog⟩ := stop_idle world hgrown
  exact ⟨hidle.served hgone (fun hopen => absurd hclosed hopen) hlog, hclosed⟩

theorem start_served {platform : Platform} {options : Options} {handler : Bool}
    {listener : Except String ℕ} (hgrown : base <:+ peer.log) :
    Served base flight (peer.start platform world take options handler listener) := by
  have hstopped : Served base flight (peer.stop world take) ∧
      (peer.stop world take).relay = .closed := stop_served world hgrown
  have hlabel : ∀ error, Served base flight { peer.stop world take with error := error } :=
    fun _ => hstopped.1.settle { Settles.refl _ with }
  have hrun : ∀ server, Served base flight ({ peer.stop world take with
      error := ""
      options := options
      handler := handler
      fatal := false
      backoff := 1000
      server := server
      running := true
      timer := true }.openRelay world take) := by
    intro server
    refine openRelay_served world { hstopped.1 with runs := fun _ => rfl }
  unfold start
  dsimp only
  split
  · exact hlabel _
  split
  · cases listener with
    | error error => exact hstopped.1.settle { Settles.refl _ with }
    | ok port => exact hrun _
  · exact hrun _

end

/-! ## Requests and connections that begin -/

theorem request_served {platform : Platform} {peerId : String} {payload : JsonObject}
    (h : Served base flight peer) :
    Served base flight (peer.request platform peerId payload).1 := by
  simp only [request]
  split
  · exact h.settle { Settles.refl peer with log := .cons (by simp) }
  · exact {
      h with
      started := fun id request hrequest hstarted hunsent _ => by
        obtain ⟨hstarted, hnew⟩ := not_or.1 (mt List.mem_append.2 hstarted)
        rcases Table.lookup_insert_eq_some.1 hrequest with ⟨rfl, -⟩ | ⟨-, hold⟩
        · exact absurd List.mem_cons_self hnew
        · exact h.started id request hold hstarted hunsent not_false
      driver := fun hconnected other hmem hloose =>
        (h.driver hconnected other hmem hloose).imp_left (·.grow h.grown (.cons (by simp)))
      grown := h.grown.trans (List.suffix_cons ..) }

theorem newConnection_served (h : Served base flight peer) :
    Served base flight peer.newConnection := by
  -- the incoming socket is a new one, which displaces no link
  have hlater : ∀ socket ∈ peer.links, socket < peer.sockets + 1 :=
    fun socket hmem => (h.below socket hmem).trans (Nat.lt_succ_self _)
  unfold newConnection
  split
  · exact h
  split
  · exact { h with below := hlater }
  · have hother : ∀ own link, peer.links.lookup own = some link →
        peer.takeIn.links.lookup own = some link :=
      fun own link hlink => Table.lookup_insert_eq_some.2 (.inr ⟨h.fresh hlink, hlink⟩)
    exact {
      h with
      driver := fun hconnected peerId hmem hloose => by
        refine (h.driver hconnected peerId hmem hloose).imp_right (Or.imp_left ?_)
        rintro ⟨own, link, hlink, hrest⟩
        exact ⟨own, link, hother own link hlink, hrest⟩
      outbound := fun peerId own hown => by
        obtain ⟨link, hlink, hrest⟩ := h.outbound peerId own hown
        exact ⟨link, hother own link hlink, hrest⟩
      below := fun own hmem => by
        rcases (AList.mem_insert _).1 hmem with rfl | hold
        · exact Nat.lt_succ_self _
        · exact hlater own hold }

/-! ## Atomic handlers -/

section
variable {world : World} (hatomic : Atomic world)
include hatomic

theorem finish_atomic (platform : Platform) (depth : ℕ) :
    Peer.finish platform world depth = take := by
  cases depth with
  | zero => rfl
  | succ depth =>
      funext cause id result peer
      simp only [Peer.finish]
      split
      · rw [hatomic.slot]
        rfl
      · next hnone => rw [take, AList.lookup_eq_none.2 hnone]

/-- What `send` does while handlers are atomic. -/
theorem send_atomic (channel : Channel) (message : JsonObject) (peer : Peer) :
    peer.writable channel = false ∧ (peer.send world take channel message).1 = peer ∨
      (peer.send world take channel message).1 = peer.emit (.sent channel message) ∨
      peer.writable channel = true ∧
        (peer.send world take channel message).1 = peer.shut channel := by
  unfold send
  split
  · next hclosed => exact .inl ⟨by simpa using hclosed, rfl⟩
  · next hopen =>
      split
      · exact .inr (.inl rfl)
      · exact .inr (.inr ⟨by simpa using hopen, rfl⟩)
      · next accepted hlost => exact absurd hlost (hatomic.send _ accepted)

theorem send_settles (channel : Channel) (message : JsonObject) (peer : Peer) :
    Settles peer (peer.send world take channel message).1 := by
  rcases send_atomic hatomic channel message peer with ⟨-, heq⟩ | heq | ⟨hwritable, heq⟩
  · rw [heq]
    exact .refl peer
  · rw [heq]
    exact emit_settles (by simp) peer
  · rw [heq]
    exact shut_settles hwritable

theorem send_requests (channel : Channel) (message : JsonObject) (peer : Peer) :
    (peer.send world take channel message).1.requests = peer.requests := by
  rcases send_atomic hatomic channel message peer with ⟨-, heq⟩ | heq | ⟨-, heq⟩
  · rw [heq]
  · rw [heq, emit_requests]
  · rw [heq]
    cases channel <;> rfl

/-! ## Flushing -/

/-- The request does not wait for the peer any more. -/
def Left (peerId id : String) (peer : Peer) : Prop :=
  ∀ request, peer.requests.lookup id = some request → request.transport = "" →
    request.peer ≠ peerId

omit hatomic in
theorem Left.settle {peerId id : String} (h : Left peerId id peer) (hsettles : Settles peer after) :
    Left peerId id after := by
  intro request hrequest hunsent
  obtain ⟨old, hold, rfl | hsent⟩ := hsettles.requests id request hrequest
  · exact h request hold hunsent
  · exact absurd hunsent hsent

theorem flushRound_touches {channel : Channel} {peerId id : String} (h : id ∈ peer.requests) :
    Touches id peer (flushRound world take channel peerId peer id) ∧
      Left peerId id (flushRound world take channel peerId peer id) := by
  obtain ⟨request, hrequest⟩ := Table.mem_iff_lookup.1 h
  unfold flushRound
  dsimp only
  rw [index_of_mem h, Table.value_of_lookup hrequest]
  split
  · next hother =>
      refine ⟨.refl id peer, fun own hown hunsent => ?_⟩
      obtain rfl := Option.some.inj (hrequest.symm.trans hown)
      exact hother.resolve_right (not_not.2 hunsent)
  · have hsent : Touches id peer ((peer.hand id channel request).send world take channel
        (requestOver channel id peerId request.payload)).1 := by
      refine hand_touches.trans ⟨send_settles hatomic .., fun other hmem _ => ?_⟩
      rw [send_requests hatomic]
      exact hmem
    have hleft : Left peerId id (peer.hand id channel request) := by
      intro own hown hunsent
      rcases Table.lookup_modify_eq_some.1 hown with ⟨-, old, -, rfl⟩ | ⟨hne, -⟩
      · exact absurd hunsent (over_transport channel old)
      · exact absurd rfl hne
    have hthen := hleft.settle (send_settles hatomic channel
      (requestOver channel id peerId request.payload) (peer.hand id channel request))
    split
    · exact ⟨hsent.trans (take_touches ..), hthen.settle (take_settles ..)⟩
    · exact ⟨hsent, hthen⟩

/-- **`remote` and `local` leave no request of the peer behind.** -/
theorem flush_served {channel : Channel} {peerId : String}
    (h : Driven base flight (fun _ request => request.peer = peerId) (· = peerId) peer) :
    Served base flight (peer.flush world take channel peerId) := by
  have hflushing : Driven base flight (fun _ request => request.peer = peerId) (fun _ => False)
      (peer.flushing channel peerId) := {
    h with
    started := fun id request hrequest hstarted hunsent hother => by
      have hmem := h.started id request hrequest hstarted hunsent hother
      exact List.mem_filter.2 ⟨hmem, by simpa using hother⟩
    driver := fun hconnected other hmem _ => by
      obtain ⟨hmem, hother⟩ := List.mem_filter.1 hmem
      refine (h.driver hconnected other hmem (by simpa using hother)).imp_left ?_
      exact fun hhas => hhas.grow h.grown (.cons (by simp))
    waits := fun other hmem => h.waits other (List.mem_filter.1 hmem).1
    grown := h.grown.trans (List.suffix_cons ..) }
  obtain ⟨hsettles, hleft⟩ := walk_settles world (flushRound world take channel peerId)
    (Left peerId)
    (fun peer id => flushRound_touches hatomic) (fun id _ _ hsettles hleft => hleft.settle hsettles)
    (peer.flushing channel peerId).log.length (peer.flushing channel peerId)
  have hafter := hflushing.settle hsettles
  refine { hafter with
    started := fun id request hrequest hstarted hunsent _ => ?_ }
  obtain ⟨old, hold, -⟩ := hsettles.requests id request hrequest
  exact hafter.started id request hrequest hstarted hunsent
    (hleft id (Table.mem_of_lookup hold) request hrequest hunsent)

theorem flushLocal_served {socket : Socket} {link : Link}
    (hlink : peer.links.lookup socket = some link) (hauthenticated : link.authenticated = true)
    (h : Driven base flight (fun _ request => request.peer = link.peer) (· = link.peer) peer) :
    Served base flight (peer.flushLocal world take socket) := by
  rw [flushLocal, hlink]
  dsimp only
  rw [if_neg (not_not.2 hauthenticated)]
  exact flush_served hatomic h

/-- **`nextLocal` finds another driver, or gives the requests to the relay.** -/
theorem nextLocal_served {platform : Platform} {peerId : String}
    (h : Driven base flight (fun _ _ => False) (· = peerId) peer) :
    Served base flight (peer.nextLocal platform world take peerId) := by
  have hremote : Served base flight (peer.remote world take peerId) :=
    flush_served hatomic (h.mono (fun _ _ _ => False.elim) fun _ _ => id)
  unfold nextLocal
  split
  · next hidle =>
      refine h.mono (fun _ _ _ => id) fun other hmem hsame => ?_
      subst hsame
      have hready := h.waits other hmem
      have hopen : peer.relay ≠ .closed := by
        rcases h.live hready with hrelay | hrelay <;> simp [hrelay]
      rcases hidle with hstopped | hunready | hnone
      · exact hstopped (h.runs hopen)
      · exact hunready hready
      · exact hnone hmem
  dsimp only
  cases (Table.value peer.attempts peerId).urls with
  | nil => exact hremote
  | cons text rest =>
      dsimp only
      split
      · exact hremote
      split
      · exact (lost_driven _ h.dial).1
      · exact h.dial.settle { Settles.refl _ with }

/-- A `connect` that is sent drives its peer. -/
theorem connect_served {peerId : String}
    (h : Driven base flight (fun _ _ => False) (· = peerId) peer) :
    Served base flight (peer.send world take .relay
      (.ofList [("type", .string "connect"), ("peerId", .string peerId)])).1 := by
  have hafter := h.settle (send_settles hatomic .relay
    (.ofList [("type", .string "connect"), ("peerId", .string peerId)]) peer)
  refine { hafter with driver := fun hconnected other hmem _ => ?_ }
  by_cases hsame : other = peerId
  · subst hsame
    rcases send_atomic hatomic .relay (.ofList [("type", .string "connect"),
      ("peerId", .string other)]) peer with ⟨hclosed, heq⟩ | heq | ⟨-, heq⟩
    · rw [heq] at hconnected
      simp [writable, hconnected] at hclosed
    · rw [heq]
      refine .inl ?_
      have hnote := flight.follow_append h.grown
        [⟨peer.now, .sent .relay
          (.ofList [("type", .string "connect"), ("peerId", .string other)])⟩]
      simp only [emit_log, List.singleton_append] at hnote ⊢
      rw [hnote]
      exact .inl List.mem_cons_self
    · rw [heq] at hconnected
      cases hconnected
  · exact hafter.driver hconnected other hmem hsame

/-- **`startRequest` hands the request over, or leaves it to a driver.** -/
theorem startRequest_served {id : String}
    (h : Driven base flight (fun other _ => other = id) (fun _ => False) peer) :
    Served base flight (peer.startRequest world take id) := by
  unfold startRequest
  cases hrequest : peer.requests.lookup id with
  | none =>
      -- The request was completed in the meantime, so nobody waits under its id.
      refine h.mono (fun other request hother hsame => ?_) fun _ _ => False.elim
      rw [hsame, hrequest] at hother
      cases hother
  | some request =>
      -- Completing the request ends its wait.
      have htake : ∀ result, Served base flight (peer.take none id result) := by
        intro result
        refine (h.settle (take_settles none id result peer)).mono ?_ fun _ _ => False.elim
        rintro other own hown rfl
        exact not_mem_take none other result peer (Table.mem_of_lookup hown)
      -- Until it is handed over, the flush of its peer is what drives it.
      have hflush : Driven base flight (fun _ own => own.peer = request.peer)
          (· = request.peer) peer := by
        refine h.mono (fun other own hown hsame => ?_) fun _ _ => False.elim
        rw [hsame, hrequest] at hown
        exact congrArg Pending.peer (Option.some.inj hown).symm
      dsimp only
      split
      · exact htake _
      next hready =>
      rw [not_not] at hready
      split
      · exact htake _
      cases hopen : peer.openLink request.peer with
      | some socket =>
          obtain ⟨hsocket, hlive⟩ := Option.filter_eq_some_iff.1 hopen
          obtain ⟨link, hlink, hpeer, -⟩ := h.outbound _ _ hsocket
          rw [hlink, Bool.and_eq_true] at hlive
          rw [← hpeer] at hflush
          exact flushLocal_served hatomic hlink hlive.1 hflush
      | none =>
          dsimp only
          split
          · exact flush_served hatomic hflush
          split
          -- The peer is being connected already, and that attempt has a driver.
          · next hwaits =>
              refine { h with started := fun other own hown hstarted hunsent _ => ?_ }
              by_cases hsame : other = id
              · rw [hsame, hrequest] at hown
                obtain rfl := Option.some.inj hown
                exact hwaits
              · exact h.started other own hown hstarted hunsent hsame
          -- The attempt is made now, and `connect` gives it its driver.
          · have hjoined : Driven base flight (fun _ _ => False) (· = request.peer)
                { peer with connecting := request.peer :: peer.connecting } := {
              h with
              started := fun other own hown hstarted hunsent _ => by
                by_cases hsame : other = id
                · rw [hsame, hrequest] at hown
                  obtain rfl := Option.some.inj hown
                  exact List.mem_cons_self
                · exact List.mem_cons_of_mem _ (h.started other own hown hstarted hunsent hsame)
              driver := fun hconnected peerId hmem hother =>
                h.driver hconnected peerId ((List.mem_cons.1 hmem).resolve_left hother) not_false
              waits := fun _ _ => hready }
            exact connect_served hatomic hjoined

/-! ## Messages -/

theorem linkConnected_served {socket : Socket} {fingerprint : String}
    (h : Served base flight peer) :
    Served base flight (peer.linkConnected world take socket fingerprint) := by
  unfold linkConnected
  cases peer.dialling.lookup socket with
  | none => exact h
  | some url =>
      dsimp only
      split
      · exact h.settle { Settles.refl peer with }
      cases peer.links.lookup socket with
      | none => exact h.settle { Settles.refl peer with }
      | some link =>
          have hopened : Served base flight { peer with
              dialling := peer.dialling.erase socket
              opened := socket :: peer.opened } := h.settle { Settles.refl peer with }
          dsimp only
          split
          · exact linkFinished_driven socket hopened
          · exact hopened.settle (send_settles hatomic ..)

theorem greet_served {socket : Socket} {link : Link} {message : JsonObject}
    (h : Served base flight peer) (hlink : peer.links.lookup socket = some link) :
    Served base flight (peer.greet world take socket link message) := by
  unfold greet
  dsimp only
  split
  · have hwelcomed : (peer.welcome socket).links.lookup socket =
        some { link with authenticated := true } :=
      Table.lookup_modify_eq_some.2 (.inl ⟨rfl, link, hlink, rfl⟩)
    refine flushLocal_served hatomic hwelcomed rfl ?_
    exact (h.welcome hlink).mono (fun _ _ _ => False.elim) fun _ _ => id
  cases peer.tickets.lookup (message.value "ticket").toString with
  | none => exact closeLink_driven socket h
  | some ticket =>
      dsimp only
      split
      · next hpresents =>
          exact (h.present hlink (by simpa using hpresents.1)).settle (send_settles hatomic ..)
      · exact closeLink_driven socket h

theorem exchange_served {socket : Socket} {link : Link} {message : JsonObject}
    (h : Served base flight peer) :
    Served base flight (peer.exchange world take socket link message) := by
  unfold exchange
  dsimp only
  split
  · exact closeLink_driven socket h
  split
  · exact (h.settle (handle_settles ..)).settle (send_settles hatomic ..)
  split
  · exact h.settle (take_settles ..)
  · exact closeLink_driven socket h

theorem linkText_served {socket : Socket} {message : JsonObject} (h : Served base flight peer) :
    Served base flight (peer.linkText world take socket message) := by
  unfold linkText
  split
  · exact h
  cases hlink : peer.links.lookup socket with
  | none => exact h
  | some link =>
      dsimp only
      split
      · exact greet_served hatomic h hlink
      · exact exchange_served hatomic h

theorem askPairing_served {platform : Platform} {fields : List (String × Json)}
    (h : Served base flight peer) :
    Served base flight (peer.askPairing platform world take fields) := by
  have hnumbered : Served base flight { peer with uuids := peer.uuids + 1 } :=
    h.settle { Settles.refl peer with }
  unfold askPairing
  dsimp only
  split
  · exact hnumbered.settle (send_settles hatomic ..)
  · exact hnumbered.settle { Settles.refl _ with }

/-- The branches of `message` but that for `connect`. -/
theorem message_served {platform : Platform} {message : JsonObject} (h : Served base flight peer)
    (hlive : peer.relay = .connected ∨ peer.relay = .closing)
    (hother : messageType message ≠ "connect") :
    Served base flight (peer.message platform world take message) := by
  unfold Peer.message
  dsimp only
  split
  · have hnamed : Settles peer { peer with account := (message.value "accountId").toString } :=
      { Settles.refl peer with }
    exact (h.settle hnamed).settle (send_settles hatomic ..)
  split
  -- a registration makes the peer ready on a live relay
  · exact { h with waits := fun _ _ => rfl, live := fun _ => hlive }
  split
  · exact h.settle { Settles.refl peer with }
  split
  · exact h
  split
  · exact h.settle (emit_settles (by simp) peer)
  split
  · exact peersMessage_served h
  split
  · unfold ticketMessage
    dsimp only
    split
    · exact h
    · exact h.settle { Settles.refl peer with log := .cons (by simp) }
  split
  · exact (h.settle (handle_settles ..)).settle (send_settles hatomic ..)
  split
  · exact h.settle (take_settles ..)
  · exact h

/-- **A reply is used up, and the peer goes on to the next driver.** -/
theorem connect_message_served {platform : Platform} {message : JsonObject}
    (h : Driven base flight (fun _ _ => False) (· = (message.value "peerId").toString) peer)
    (htype : messageType message = "connect") :
    Served base flight (if peer.relay = .connected ∨ peer.relay = .closing then
      peer.message platform world take message else peer) := by
  by_cases hmem : (message.value "peerId").toString ∈ peer.connecting
  · have hready := h.waits _ hmem
    rw [if_pos (h.live hready)]
    have hprepared : Driven base flight (fun _ _ => False)
        (· = (message.value "peerId").toString) { peer with
          attempts := peer.attempts.insert (message.value "peerId").toString
            (peer.offered platform world message) } := h.settle { Settles.refl peer with }
    simpa [Peer.message, htype, hready, connectMessage, hmem] using
      nextLocal_served hatomic hprepared
  · have hserved : Served base flight peer := by
      refine h.mono (fun _ _ _ => id) fun other hother hsame => ?_
      subst hsame
      exact hmem hother
    split
    · by_cases hready : peer.ready = true
      · simpa [Peer.message, htype, hready, connectMessage, hmem] using hserved
      · simpa [Peer.message, htype, hready] using hserved
    · exact hserved

end

/-! ## The event loop -/

theorem Flight.hear_of_ne {input : Input}
    (h : ∀ message, input = .relayText message → messageType message ≠ "connect")
    (flight : Flight) : flight.hear input = flight := by
  cases input with
  | relayText message => exact if_neg (h message rfl)
  | _ => rfl

/-- **One turn of a peer whose handlers are atomic.** -/
theorem next_served {platform : Platform} {step : Step} (hatomic : Atomic step.world)
    (h : Served base flight peer) (hfresh : peer.log = base) :
    Served base (flight.hear step.input) (next platform peer step) := by
  have hgrown : base <:+ peer.log := h.grown
  -- `connect` takes the awaited answer out of the flight; all else leaves it there.
  by_cases hconnect : ∃ message, step.input = .relayText message ∧ messageType message = "connect"
  · obtain ⟨message, hinput, htype⟩ := hconnect
    unfold next
    dsimp only
    rw [finish_atomic hatomic, hinput]
    exact connect_message_served hatomic (h.hear hfresh htype) htype
  rw [Flight.hear_of_ne fun message hinput htype => hconnect ⟨message, hinput, htype⟩]
  unfold next
  dsimp only
  rw [finish_atomic hatomic]
  cases hinput : step.input with
  | clock time => exact h.settle { Settles.refl peer with }
  | start => exact start_served _ hgrown
  -- Nothing waits after `stop`: it completes every request.
  | stop => exact (stop_served _ hgrown).1
  | request => exact request_served h
  | refreshPeers =>
      dsimp only [refreshPeers]
      split
      · exact h.settle (send_settles hatomic ..)
      · exact h
  | createPairingOffer => exact askPairing_served hatomic h
  | claimPairingOffer => exact askPairing_served hatomic h
  | confirmPairing =>
      dsimp only [confirmPairing]
      split
      · exact h.settle (send_settles hatomic ..)
      · exact h
  | cancelPairing =>
      dsimp only [cancelPairing]
      split
      · exact h.settle (send_settles hatomic ..)
      · exact h
  | relayConnected =>
      dsimp only [relayConnected]
      split
      · exact h
      · next hconnecting =>
          have hbegun := h.connected (not_not.1 hconnecting)
          exact (hbegun.settle (send_settles hatomic ..)).settle { Settles.refl _ with }
  | relayText message =>
      dsimp only
      split
      · next hlive =>
          exact message_served hatomic h hlive fun htype => hconnect ⟨message, hinput, htype⟩
      · exact h
  | relayFinished error => exact (relayFinished_served _ error h).1
  | newConnection => exact newConnection_served h
  | linkConnected => exact linkConnected_served hatomic h
  | linkText => exact linkText_served hatomic h
  | linkBinary socket =>
      dsimp only
      split
      · exact closeLink_driven socket h
      · exact h
  | linkFinished socket => exact linkFinished_driven socket h
  | sweep =>
      dsimp only
      split
      · exact sweep_served h
      · exact h
  | retry =>
      dsimp only
      split
      · exact openRelay_served _ (h.settle { Settles.refl peer with })
      · exact h
  | authTimer =>
      dsimp only
      split
      · exact h.settle (send_settles hatomic ..)
      · exact h
  | startRequest id =>
      dsimp only
      split
      · refine startRequest_served hatomic {
          -- The timer that fired no longer counts as the start of its request.
          h with started := fun other request hrequest hstarted hunsent hother => ?_ }
        refine h.started other request hrequest (fun hmem => hstarted ?_) hunsent not_false
        exact (List.mem_erase_of_ne hother).2 hmem
      · exact h
  | refuse id =>
      dsimp only
      split
      · dsimp only [refuse]
        rw [hatomic.slot]
        exact h.settle { Settles.refl peer with log := .cons (by simp) }
      · exact h
  | nextLocal peerId =>
      dsimp only
      split
      · refine nextLocal_served hatomic {
          -- Nor does the redial that fired count as the driver of its peer.
          h with driver := fun hconnected other hmem hother => ?_ }
        exact (h.driver hconnected other hmem not_false).imp_right
          (Or.imp_right (List.mem_erase_of_ne hother).2)
      · exact h
  | notice id =>
      dsimp only
      split
      · exact h.settle { Settles.refl peer with log := .cons (by simp) }
      · exact h

/-! ## The run -/

/-- No request is orphaned while its peer is connecting, and nothing connects without a
driver. -/
structure Attended (wired : Wired) : Prop where
  started : ∀ id request, wired.peer.requests.lookup id = some request →
    id ∉ wired.peer.starts → request.transport = "" → request.peer ∈ wired.peer.connecting
  driver : ∀ peerId ∈ wired.peer.connecting,
    wired.flight.Has peerId ∨ wired.peer.Dials peerId ∨ peerId ∈ wired.peer.redials

/-- A new history begins with the messages that are under way now. -/
theorem Driven.rebase (h : Served base flight peer) :
    Served peer.log (flight.follow base peer.log) peer where
  driver hconnected peerId hmem hloose := by
    rw [Flight.follow_base]
    exact h.driver hconnected peerId hmem hloose
  grown := List.suffix_rfl
  __ := h

theorem Flight.Has.answer {peerId : String} (h : flight.Has peerId) (other : String) :
    (flight.answer other).Has peerId := by
  unfold Flight.answer
  split
  · by_cases hsame : peerId = other
    · exact .inr (List.mem_append_right _ (by simp [hsame]))
    · exact h.imp (List.mem_erase_of_ne hsame).2 (List.mem_append_left _)
  · exact h

variable {platform : Platform} {trace : List (Wired × Act)} {reached : Wired}

theorem run_served (run : (wired platform).Run (fun _ act => act.Atomic) trace reached) :
    Served reached.peer.log reached.flight reached.peer := by
  refine run.invariant_state (I := fun reached =>
    Served reached.peer.log reached.flight reached.peer) ?_ ?_
  · rintro ⟨peer, flight⟩ ⟨⟨time, rfl⟩, -⟩
    exact Idle.served ⟨rfl, rfl, rfl, rfl⟩ (fun id => AList.notMem_empty id)
      (fun hopen => absurd rfl hopen) List.suffix_rfl
  · intro state act h hatomic
    cases act with
    | peer step => exact (next_served hatomic h rfl).rebase
    | answer peerId =>
        exact { h with
          driver := fun hconnected other hmem hloose => by
            refine (h.driver hconnected other hmem hloose).imp_left fun hhas => ?_
            rw [Flight.follow_base] at hhas ⊢
            exact hhas.answer peerId }

/-- **No request is orphaned while its peer is connecting.** -/
theorem run_attended (run : (wired platform).Run (fun _ act => act.Atomic) trace reached)
    (hconnected : reached.peer.relay = .connected) : Attended reached := by
  have hserved := run_served run
  refine ⟨fun id request hrequest hstarted hunsent => ?_, fun peerId hmem => ?_⟩
  · exact hserved.started id request hrequest hstarted hunsent not_false
  · have hdriver := hserved.driver hconnected peerId hmem not_false
    rwa [Flight.follow_base] at hdriver

/-- The `connect` for `h` is not answered yet. -/
def awaiting : List Act := seeking.map fun input => .peer ⟨input, .sample⟩

/-- The request waits for `h`, and the `connect` is under way to the relay. -/
theorem run_attended_awaiting : ∃ trace reached,
    (wired .sample).Run (fun _ act => act.Atomic) trace reached ∧
      reached.peer.ready = true ∧ reached.peer.connecting = ["h"] ∧
      reached.flight.asked = ["h"] ∧ Attended reached := by
  have hatomic : Atomic World.sample := ⟨fun _ => rfl, fun _ _ hlost => by cases hlost⟩
  have hstart : (wired .sample).Run (fun _ act => act.Atomic) [] ⟨{ now := 0 }, {}⟩ :=
    .start ⟨⟨0, rfl⟩, rfl⟩
  obtain ⟨trace, run⟩ := hstart.extend awaiting
    ⟨hatomic, hatomic, hatomic, hatomic, hatomic, hatomic, trivial⟩
  refine ⟨trace, _, run, ?_, ?_, ?_, run_attended run ?_⟩
  all_goals decide +kernel

end Peer

end ServerHost
