import ServerHost.Relay.Reentrant

/-!
# What the tables name has a session

`Purges` carries the promise of the tables from one event to the next, except where
a handler inserts what it decided on before it sent something.  For those two places
`Spares` says when a session survives the sends, and `Undisturbed` that it does.
-/

namespace ServerHost

namespace RelayServer

variable {platform : Platform} {send : Send} {relay after : RelayServer}

/-! ## Sessions that survive the sends -/

/-- While no counter moves, the session stays. -/
def Spares (randoms uuids : ℕ) (socket : Socket) (relay after : RelayServer) : Prop :=
  relay.randoms = randoms → relay.uuids = uuids → socket ∈ relay.sessions →
    after.randoms = randoms ∧ after.uuids = uuids ∧ socket ∈ after.sessions

section
variable {randoms uuids : ℕ} {spared : Socket}

theorem stable_spares
    (hsend : ∀ socket message relay,
      Spares randoms uuids spared relay (send socket message relay)) :
    Stable send (Spares randoms uuids spared) where
  refl _ hrandoms huuids hsession := ⟨hrandoms, huuids, hsession⟩
  trans h h' hrandoms huuids hsession := by
    obtain ⟨hrandoms', huuids', hsession'⟩ := h hrandoms huuids hsession
    exact h' hrandoms' huuids' hsession'
  send := hsend
  emit _ _ hrandoms huuids hsession := ⟨hrandoms, huuids, hsession⟩
  close _ _ hrandoms huuids hsession := ⟨hrandoms, huuids, hsession⟩
  eraseRoute _ _ hrandoms huuids hsession := ⟨hrandoms, huuids, hsession⟩
  eraseOffer _ _ hrandoms huuids hsession := ⟨hrandoms, huuids, hsession⟩
  erasePair _ _ hrandoms huuids hsession := ⟨hrandoms, huuids, hsession⟩

theorem remove_spares
    (hsend : ∀ socket message relay, Spares randoms uuids spared relay (send socket message relay))
    {socket : Socket} (hother : spared ≠ socket) (relay : RelayServer) :
    Spares randoms uuids spared relay (relay.remove send socket) := by
  have hstable := stable_spares hsend
  have herased : ∀ state : RelayServer, Spares randoms uuids spared state
      { state with sessions := state.sessions.erase socket } :=
    fun state hrandoms huuids hsession =>
      ⟨hrandoms, huuids, AList.mem_erase.2 ⟨hother, hsession⟩⟩
  have hdeleted : ∀ state : RelayServer, Spares randoms uuids spared state
      { state with deleted := socket :: state.deleted } :=
    fun state hrandoms huuids hsession => ⟨hrandoms, huuids, hsession⟩
  exact hstable.trans (hstable.trans (hstable.trans (hstable.cancelPairing socket "" relay)
    (herased _)) (hstable.trans (hstable.foldl (hstable.dropRoute socket) _ _)
      (hstable.changed _))) (hdeleted _)

/-- A session survives the sends when no send to it fails. -/
theorem deliver_spares {fates : Fates} (hfates : ∀ state message, state.randoms = randoms →
    state.uuids = uuids → fates state spared message ≠ .failed) (depth : ℕ) (socket : Socket)
    (message : Outgoing) (relay : RelayServer) :
    Spares randoms uuids spared relay (deliver fates depth socket message relay) := by
  -- a message fails on its own socket alone, which is not the spared one
  have hattempt : ∀ (handler : Socket → RelayServer → RelayServer),
      (∀ socket state, spared ≠ socket →
        Spares randoms uuids spared state (handler socket state)) →
      ∀ socket message relay,
        Spares randoms uuids spared relay (attempt fates handler socket message relay) := by
    intro handler hhandler socket message relay hrandoms huuids hsession
    unfold attempt
    split
    · exact ⟨hrandoms, huuids, hsession⟩
    split
    · exact ⟨hrandoms, huuids, hsession⟩
    · exact ⟨hrandoms, huuids, hsession⟩
    · next hfailed =>
        have hother : spared ≠ socket := by
          rintro rfl
          exact hfates relay message hrandoms huuids hfailed
        exact hhandler socket (relay.close socket) hother hrandoms huuids hsession
  induction depth generalizing socket message relay with
  | zero => exact hattempt _ (fun _ _ _ hrandoms huuids hsession =>
      ⟨hrandoms, huuids, hsession⟩) socket message relay
  | succ depth ih =>
      refine hattempt _ (fun other state hother => ?_) socket message relay
      unfold disconnected
      split
      · exact remove_spares ih hother state
      · exact fun hrandoms huuids hsession => ⟨hrandoms, huuids, hsession⟩

end

/-! ## The handlers -/

/-- An offer or a pair names the socket. -/
def TakesPart (relay : RelayServer) (socket : Socket) : Prop :=
  (∃ hash offer, relay.offers.lookup hash = some offer ∧ offer.host = socket) ∨
    ∃ key pair, relay.pairs.lookup key = some pair ∧ (pair.host = socket ∨ pair.client = socket)

/-- Nothing is cancelled, and nothing sent, for a session that takes part in no pairing. -/
theorem cancelPairing_of_not_takesPart {socket : Socket} (h : ¬ relay.TakesPart socket) :
    relay.cancelPairing send socket "" = relay := by
  have hoffers : ∀ hash, relay.cancelOffer send socket "" hash = relay := by
    intro hash
    unfold cancelOffer
    cases hoffer : relay.offers.lookup hash with
    | none => rfl
    | some offer => exact if_neg fun hown => h (.inl ⟨hash, offer, hoffer, hown.1⟩)
  have hpairs : ∀ key, relay.cancelPair send socket "" key = relay := by
    intro key
    unfold cancelPair
    cases hpair : relay.pairs.lookup key with
    | none => rfl
    | some pair =>
        exact if_neg fun hown => h (.inr ⟨key, pair, hpair, hown.imp And.left And.left⟩)
  unfold cancelPairing
  rw [List.foldl_fixed' hoffers]
  exact List.foldl_fixed' hpairs _

/-- The message reaches the branch of `pairMessage` for `pair-offer`, from a host. -/
structure Requested (relay : RelayServer) (socket : Socket) (message : JsonObject) : Prop where
  known : socket ∈ relay.sessions
  active : relay.active socket = true
  registered : (relay.session socket).id ≠ ""
  type : messageType message = "pair-offer"
  identified : identifier (message.value "id").toString = true
  allowed : (countAttempt relay.now (relay.session socket)).pairingAttempts ≤ 6
  is_host : (relay.session socket).descriptor.isEmpty = false

/-- A session that takes part in a pairing asks for a new one and passes every check:
the sockets that the new offer or the new pair will name. -/
inductive Renews (platform : Platform) (relay : RelayServer) : Input → Socket → Prop
  | offer {socket : Socket} {message : JsonObject} : relay.Requested socket message →
      relay.TakesPart socket → Renews platform relay (.text socket message) socket
  | client {socket : Socket} {message : JsonObject} {offer : Offer} :
      relay.Attempted socket message → Grants platform relay socket message offer →
      relay.TakesPart socket → Renews platform relay (.text socket message) socket
  | host {socket : Socket} {message : JsonObject} {offer : Offer} :
      relay.Attempted socket message → Grants platform relay socket message offer →
      relay.TakesPart socket → Renews platform relay (.text socket message) offer.host

/-- No send to a socket that a new offer or pair will name fails before it is there. -/
def Undisturbed (platform : Platform) (relay : RelayServer) (step : Reentrant.Step) : Prop :=
  ∀ socket, Renews platform relay step.input socket → ∀ state message,
    state.randoms = relay.randoms → state.uuids = relay.uuids →
      step.fates state socket message ≠ .failed

theorem Integral.update (h : Integral relay) (socket : Socket) (f : Session → Session) :
    Integral (relay.update socket f) :=
  h.purge (.of_within (.refl _) (.refl _) (.refl _) fun _ => Table.mem_modify)

theorem touch_integral (h : Integral relay) (socket : Socket) :
    Integral (relay.touch socket) := by
  unfold touch
  split
  · exact h
  · have hmore : ∀ {other}, other ∈ relay.sessions →
        other ∈ relay.sessions.insert socket { connected := relay.now } :=
      fun hother => (AList.mem_insert _).2 (.inr hother)
    exact ⟨h.routes.imp fun _ _ _ hroute => ⟨hmore hroute.1, hmore hroute.2⟩,
      h.offers.imp fun _ _ _ hoffer => hmore hoffer,
      h.pairs.imp fun _ _ _ hpair => ⟨hmore hpair.1, hmore hpair.2⟩⟩

section
variable (hsend : ∀ socket message relay, Purges relay (send socket message relay))
include hsend

theorem Integral.authCompleted (h : Integral relay) (socket : Socket) (principal : Principal) :
    Integral (relay.authCompleted send socket principal) := by
  have hstable := stable_purges hsend
  unfold RelayServer.authCompleted
  cases relay.sessions.lookup socket with
  | none => exact h
  | some state =>
      dsimp only
      split
      · have hcancelled := (h.update socket fun session => { session with
          authenticating := false }).purge (hstable.cancelPairing socket "" _)
        exact (((hcancelled.update socket _).purge (hstable.emit _ _)).purge
          (hsend socket _ _)).purge (hstable.close socket _)
      · exact (((h.update socket _).update socket _).purge (hstable.emit _ _)).purge
          (hsend socket _ _)

theorem Integral.authMessage (h : Integral relay) (socket : Socket) (message : JsonObject) :
    Integral (relay.authMessage socket message) := by
  have hstable := stable_purges hsend
  unfold RelayServer.authMessage
  dsimp only
  split
  · exact h.purge (hstable.close socket relay)
  · exact (h.update socket _).purge (hstable.emit _ _)

theorem Integral.registerMessage (h : Integral relay) (socket : Socket) (message : JsonObject) :
    Integral (relay.registerMessage platform send socket message) := by
  have hstable := stable_purges hsend
  unfold RelayServer.registerMessage
  dsimp only
  split
  · exact h.purge (hstable.close socket relay)
  split
  · exact (h.purge (hsend socket _ _)).purge (hstable.close socket _)
  split
  · exact h.purge (hstable.close socket relay)
  · have hregistered := (h.update socket fun session => { session with
      id := (message.value "peerId").toString
      service := (message.value "service").toString
      name := (message.value "name").toString
      descriptor := descriptorOf platform (message.value "peerId").toString
        (message.value "service").toString message }).purge
      (hstable.emit (.registered socket (message.value "peerId").toString
        (message.value "service").toString) _)
    split
    · exact ((hregistered.purge (hstable.cancelPairing socket "" _)).purge
        (hsend socket _ _)).purge (hstable.changed _)
    · exact (hregistered.purge (hsend socket _ _)).purge (hstable.changed _)

/-- A new route names the client that asked for it and the host it found. -/
theorem Integral.requestMessage (h : Integral relay) {socket : Socket}
    (hsocket : socket ∈ relay.sessions) (message : JsonObject) :
    Integral (relay.requestMessage platform send socket message) := by
  have hstable := stable_purges hsend
  unfold RelayServer.requestMessage
  dsimp only
  split
  · exact h.purge (hstable.close socket relay)
  cases htarget : relay.target socket (message.value "peerId").toString with
  | none => exact h.purge (hsend socket _ _)
  | some host =>
      dsimp only
      split
      · exact h.purge (hsend socket _ _)
      · obtain ⟨-, session, hhost, -⟩ := target_spec htarget
        refine (Integral.purge ?_ (hstable.emit _ _)).purge (hsend host _ _)
        exact ⟨h.routes.insert ⟨hsocket, Table.mem_of_lookup hhost⟩, h.offers, h.pairs⟩

theorem Integral.responseMessage (h : Integral relay) (socket : Socket) (message : JsonObject) :
    Integral (relay.responseMessage send socket message) := by
  have hstable := stable_purges hsend
  unfold RelayServer.responseMessage
  dsimp only
  cases relay.routes.lookup (message.value "id").toString with
  | none => exact h
  | some route =>
      dsimp only
      split
      · exact h
      split
      · exact (h.purge (hstable.eraseRoute _ _)).purge (hsend _ _ _)
      · exact h.purge (hstable.eraseRoute _ _)

theorem Integral.connectMessage (h : Integral relay) (socket : Socket) (message : JsonObject) :
    Integral (relay.connectMessage platform send socket message) := by
  unfold RelayServer.connectMessage
  dsimp only
  cases relay.target socket (message.value "peerId").toString with
  | none => exact h.purge (hsend socket _ _)
  | some host =>
      have hcounted : Integral { relay with randoms := relay.randoms + 1 } :=
        ⟨h.routes, h.offers, h.pairs⟩
      exact (touch_integral (hcounted.purge (hsend host _ _)) host).purge (hsend socket _ _)

theorem Integral.pairConfirm (h : Integral relay) (socket : Socket) (message : JsonObject) :
    Integral (relay.pairConfirm send socket message) := by
  have hstable := stable_purges hsend
  unfold RelayServer.pairConfirm
  dsimp only
  cases relay.pairs.lookup (message.value "pairingId").toString with
  | none => exact h
  | some pair =>
      dsimp only
      split
      · exact h
      split
      · exact h.purge (hstable.finishPair _ _ _)
      · exact h.purge (hstable.finishPair _ _ _)

/-- A new offer names a session that is there after the old ones were cancelled. -/
theorem Integral.pairOffer (h : Integral relay) {socket : Socket} (id : String)
    (hkept : (relay.session socket).descriptor.isEmpty = false →
      socket ∈ (relay.cancelPairing send socket "").sessions) :
    Integral (relay.pairOffer platform send socket id) := by
  have hstable := stable_purges hsend
  unfold RelayServer.pairOffer
  dsimp only
  split
  · exact h.purge (hsend socket _ _)
  next hhost =>
  have hcancelled := h.purge (hstable.cancelPairing socket "" relay)
  have hsession := hkept (by simpa using hhost)
  generalize relay.cancelPairing send socket "" = cancelled at hcancelled hsession ⊢
  refine (Integral.purge ?_ (hstable.emit _ _)).purge (hsend socket _ _)
  exact ⟨hcancelled.routes, hcancelled.offers.insert hsession, hcancelled.pairs⟩

/-- A new pair names two sessions that are there after the old ones were cancelled. -/
theorem Integral.pairClaim (h : Integral relay) {socket : Socket} {message : JsonObject}
    (hkept : ∀ offer, Grants platform relay socket message offer →
      socket ∈ (relay.cancelPairing send socket "").sessions ∧
        offer.host ∈ (relay.cancelPairing send socket "").sessions) :
    Integral (relay.pairClaim platform send socket (message.value "id").toString message) := by
  have hstable := stable_purges hsend
  by_cases hrefused : ∀ offer, ¬ Grants platform relay socket message offer
  · rw [pairClaim_of_refused hrefused]
    exact h.purge (hsend socket _ _)
  push Not at hrefused
  obtain ⟨offer, hgrants⟩ := hrefused
  obtain ⟨hsocket, hhost⟩ := hkept offer hgrants
  have hcancelled := h.purge (hstable.cancelPairing socket "" relay)
  unfold RelayServer.pairClaim
  dsimp only
  rw [hgrants.stored]
  dsimp only
  rw [if_neg]
  · generalize relay.cancelPairing send socket "" = cancelled at hcancelled hsocket hhost ⊢
    refine (Integral.purge ?_ (hstable.trans (hstable.emit _ _) (hstable.trans (hstable.emit _ _)
      (hsend offer.host _ _)))).purge (hsend socket _ _)
    exact ⟨hcancelled.routes, hcancelled.offers.erase _, hcancelled.pairs.insert ⟨hhost, hsocket⟩⟩
  · push Not
    exact ⟨hgrants.length, hgrants.pending, hgrants.alive, hgrants.active,
      hgrants.is_client, hgrants.named, hgrants.found⟩

end

/-- The sends of `cancelPairing` leave a session alone when none of those to it fails. -/
theorem mem_cancelPairing {step : Reentrant.Step} (hkept : Undisturbed platform relay step)
    {socket other : Socket} (hrenews : relay.TakesPart socket →
      Renews platform relay step.input other)
    (hother : other ∈ relay.sessions) (f : Session → Session) :
    other ∈ ((relay.update socket f).cancelPairing (deliver step.fates step.depth) socket
      "").sessions := by
  have hsession : other ∈ (relay.update socket f).sessions := Table.mem_modify.2 hother
  by_cases hpart : relay.TakesPart socket
  · have hspares : Spares relay.randoms relay.uuids other (relay.update socket f)
        ((relay.update socket f).cancelPairing (deliver step.fates step.depth) socket "") :=
      (stable_spares (deliver_spares (hkept other (hrenews hpart)) step.depth)).cancelPairing
        socket "" _
    exact (hspares rfl rfl hsession).2.2
  · have hidle : ¬ (relay.update socket f).TakesPart socket := hpart
    rw [cancelPairing_of_not_takesPart hidle]
    exact hsession

/-- The branch of `message` for pairing, when nothing fails at the wrong moment. -/
theorem Integral.pairMessage (h : Integral relay) {step : Reentrant.Step} {socket : Socket}
    {message : JsonObject} (hinput : step.input = .text socket message)
    (hkept : Undisturbed platform relay step) (hknown : socket ∈ relay.sessions)
    (hactive : relay.active socket = true) (hregistered : (relay.session socket).id ≠ "") :
    Integral (relay.pairMessage platform (deliver step.fates step.depth) socket message) := by
  have hsend := deliver_purges step.fates step.depth
  have hstable := stable_purges hsend
  have hcounted := h.update socket (countAttempt relay.now)
  have hsession : (relay.update socket (countAttempt relay.now)).session socket =
      countAttempt relay.now (relay.session socket) := by
    rw [session_update, if_pos ⟨rfl, hknown⟩]
  unfold RelayServer.pairMessage
  dsimp only
  split
  · exact Integral.pairConfirm hsend h socket message
  split
  · exact h.purge (hstable.close socket relay)
  next hidentified =>
  rw [not_not] at hidentified
  split
  · exact h.purge (hstable.cancelPairing socket _ relay)
  split
  · exact hcounted.purge (hsend socket _ _)
  next hallowed =>
  rw [hsession, gt_iff_lt, not_lt] at hallowed
  split
  · next htype =>
      refine Integral.pairOffer hsend hcounted _ fun hhost => ?_
      rw [hsession, (countAttempt_keeps relay.now (relay.session socket)).2.2.2.2] at hhost
      -- what the limiter lets through is a request under a registered session
      have hrequested : relay.Requested socket message :=
        ⟨hknown, hactive, hregistered, htype, hidentified, hallowed, hhost⟩
      exact mem_cancelPairing hkept (fun hpart => hinput ▸ .offer hrequested hpart) hknown _
  split
  · next htype =>
      refine Integral.pairClaim hsend hcounted fun offer hgrants => ?_
      rw [grants_update (countAttempt_keeps relay.now)] at hgrants
      -- the same of a claim, whose host is to survive the cancelling as well
      have hattempted : relay.Attempted socket message :=
        ⟨hknown, hactive, hregistered, htype, hidentified, hallowed⟩
      obtain ⟨-, host, hhost, -⟩ := target_spec hgrants.found
      exact ⟨mem_cancelPairing hkept (fun hpart => hinput ▸ .client hattempted hgrants hpart)
          hknown _,
        mem_cancelPairing hkept (fun hpart => hinput ▸ .host hattempted hgrants hpart)
          (Table.mem_of_lookup hhost) _⟩
  · exact hcounted.purge (hstable.close socket _)

theorem Integral.message (h : Integral relay) {step : Reentrant.Step} {socket : Socket}
    {message : JsonObject} (hinput : step.input = .text socket message)
    (hkept : Undisturbed platform relay step) :
    Integral (relay.message platform (deliver step.fates step.depth) socket message) := by
  have hsend := deliver_purges step.fates step.depth
  have hstable := stable_purges hsend
  unfold RelayServer.message
  dsimp only
  by_cases hknown : socket ∉ relay.sessions
  · rw [if_pos hknown]
    exact h
  rw [if_neg hknown]
  rw [not_not] at hknown
  by_cases hauth : messageType message = "auth"
  · rw [if_pos hauth]
    exact Integral.authMessage hsend h socket message
  rw [if_neg hauth]
  by_cases hactive : ¬ relay.active socket
  · rw [if_pos hactive]
    exact h.purge (hstable.close socket relay)
  rw [if_neg hactive]
  rw [not_not] at hactive
  by_cases hregister : messageType message = "register"
  · rw [if_pos hregister]
    exact Integral.registerMessage hsend h socket message
  rw [if_neg hregister]
  by_cases hregistered : (relay.session socket).id = ""
  · rw [if_pos hregistered]
    exact h.purge (hstable.close socket relay)
  rw [if_neg hregistered]
  by_cases hpair : startsWith (messageType message) "pair-" = true
  · rw [if_pos hpair]
    -- The one branch that inserts after it has notified.
    exact h.pairMessage hinput hkept hknown hactive hregistered
  rw [if_neg hpair]
  by_cases hlist : messageType message = "list"
  · rw [if_pos hlist]
    exact h.purge (hstable.directory relay socket)
  rw [if_neg hlist]
  by_cases htype : messageType message = "connect"
  · rw [if_pos htype]
    exact Integral.connectMessage hsend h socket message
  rw [if_neg htype]
  by_cases hrequest : messageType message = "request"
  · rw [if_pos hrequest]
    exact Integral.requestMessage hsend h hknown message
  rw [if_neg hrequest]
  by_cases hresponse : messageType message = "response"
  · rw [if_pos hresponse]
    exact Integral.responseMessage hsend h socket message
  · rw [if_neg hresponse]
    exact h.purge (hstable.close socket relay)

/-! ## The run -/

/-- **One step**: the tables keep their promise when no session is lost between the
cancelling of its old pairings and the new one. -/
theorem Integral.next (h : Integral relay) {step : Reentrant.Step}
    (hfeasible : Reentrant.Feasible relay step) (hkept : Undisturbed platform relay step) :
    Integral (Reentrant.next platform relay step) := by
  have hsend := deliver_purges step.fates step.depth
  have hstable := stable_purges hsend
  unfold Reentrant.next turn
  cases hinput : step.input with
  | clock time => exact ⟨h.routes, h.offers, h.pairs⟩
  | newConnection =>
      dsimp only [RelayServer.newConnection]
      split
      · exact ⟨h.routes, h.offers, h.pairs⟩
      · have hmore : ∀ {other}, other ∈ relay.sessions →
            other ∈ relay.sessions.insert relay.sockets { connected := relay.now } :=
          fun hother => (AList.mem_insert _).2 (.inr hother)
        exact ⟨h.routes.imp fun _ _ _ hroute => ⟨hmore hroute.1, hmore hroute.2⟩,
          h.offers.imp fun _ _ _ hoffer => hmore hoffer,
          h.pairs.imp fun _ _ _ hpair => ⟨hmore hpair.1, hmore hpair.2⟩⟩
  | text socket message => exact h.message hinput hkept
  | binary socket =>
      dsimp only
      split
      · exact h.purge (hstable.close socket relay)
      · exact h
  | completion socket principal => exact Integral.authCompleted hsend h socket principal
  | disconnected socket =>
      dsimp only [RelayServer.disconnected]
      split
      · exact h.purge (remove_purges hsend socket relay)
      · exact h
  | sweep => exact h.purge (hstable.sweep relay)
  | stop => exact ⟨.empty _, .empty _, .empty _⟩
  | rehash sessions routes offers pairs =>
      -- Each table holds what it held, so each name still finds its session.
      simp only [Reentrant.Feasible, RelayServer.Feasible, hinput] at hfeasible
      obtain ⟨hsessions, hroutes, hoffers, hpairs⟩ := hfeasible
      have hmem : ∀ {other}, other ∈ relay.sessions → other ∈ sessions := by
        intro other hother
        rw [Table.mem_iff_lookup] at hother ⊢
        obtain ⟨session, hsession⟩ := hother
        exact ⟨session, (hsessions.lookup other).symm.trans hsession⟩
      exact ⟨(hroutes.all h.routes).imp fun _ _ _ hroute => ⟨hmem hroute.1, hmem hroute.2⟩,
        (hoffers.all h.offers).imp fun _ _ _ hoffer => hmem hoffer,
        (hpairs.all h.pairs).imp fun _ _ _ hpair => ⟨hmem hpair.1, hmem hpair.2⟩⟩

/-- **Referential integrity**: in every run in which no `pair-offer` or `pair-claim` is
disturbed, whatever else fails, every socket that a route, an offer or a pair names
is a key of `sessions`. -/
theorem run_integral {trace : List (RelayServer × Reentrant.Step)}
    (run : (Reentrant.machine platform).Run
      (fun relay step => Reentrant.Feasible relay step ∧ Undisturbed platform relay step)
      trace relay) : Integral relay := by
  refine run.invariant_state ?_ fun state step h hok => h.next hok.1 hok.2
  rintro state ⟨time, rfl⟩
  exact ⟨.empty _, .empty _, .empty _⟩

/-- Fates under which nothing runs inside a send. -/
def Fates.plain (full : Socket → Outgoing → Bool) : Fates :=
  fun _ socket message => if full socket message then .closed else .taken

theorem deliver_plain (full : Socket → Outgoing → Bool) (depth : ℕ) :
    deliver (.plain full) depth = transmit full := by
  have hattempt : ∀ handler, attempt (.plain full) handler = transmit full := by
    intro handler
    funext socket message relay
    unfold attempt transmit Fates.plain
    split
    · rfl
    · by_cases hfull : full socket message = true
      · simp [hfull]
      · simp [hfull]
  cases depth with
  | zero => exact hattempt _
  | succ depth => exact hattempt _

/-- **Without failing sends this is the relay of the other modules.** -/
theorem next_plain (platform : Platform) (relay : RelayServer) (input : Input)
    (full : Socket → Outgoing → Bool) (depth : ℕ) :
    Reentrant.next platform relay ⟨input, .plain full, depth⟩ =
      RelayServer.next platform relay ⟨input, full⟩ := by
  rw [Reentrant.next, deliver_plain]
  rfl

/-! ## Where the promise is broken -/

/-- A host registers and shows a code, with sends that all succeed. -/
def hostVisit : List Reentrant.Step :=
  [.newConnection,
    .text 0 (.ofList [("type", .string "auth"), ("credential", .string "c")]),
    .completion 0 ⟨"a", (60000 : ℤ)⟩,
    .text 0 (.ofList [("type", .string "register"), ("peerId", .string "h"),
      ("service", .string "s"), ("host", .bool true)]),
    .text 0 (.ofList [("type", .string "pair-offer"), ("id", .string "first")])].map
      fun input => ⟨input, fun _ _ _ => .taken, 1⟩

/-- The host cancels its code, and fails when it is told so. -/
def failedCancel : Reentrant.Step where
  input := .text 0 (.ofList [("type", .string "pair-cancel"), ("id", .string "first")])
  fates _ _ message := match message with
    | .pairing _ _ _ "cancelled" _ => .failed
    | _ => .taken
  depth := 1

theorem run_integral_cancel : ∃ relay trace,
    (Reentrant.machine .sample).Run
      (fun relay step => Reentrant.Feasible relay step ∧ Undisturbed .sample relay step)
      trace relay ∧
    relay.sessions.keys = [] ∧ Integral relay := by
  have hstart : (Reentrant.machine .sample).Run
      (fun relay step => Reentrant.Feasible relay step ∧ Undisturbed .sample relay step)
      [] { now := 0 } := .start ⟨0, rfl⟩
  have hcalm : ∀ relay input, Undisturbed .sample relay ⟨input, fun _ _ _ => .taken, 1⟩ := by
    intro relay input socket _ state message _ _ hfailed
    cases hfailed
  have hcancel : ∀ relay, Undisturbed .sample relay failedCancel := by
    intro relay socket hrenews
    cases hrenews with
    | offer hrequested => exact absurd hrequested.type (by decide)
    | client hattempted => exact absurd hattempted.type (by decide)
    | host hattempted => exact absurd hattempted.type (by decide)
  obtain ⟨trace, run⟩ := hstart.extend (hostVisit ++ [failedCancel])
    ⟨⟨trivial, hcalm _ _⟩, ⟨trivial, hcalm _ _⟩, ⟨trivial, hcalm _ _⟩, ⟨trivial, hcalm _ _⟩,
      ⟨trivial, hcalm _ _⟩, ⟨trivial, hcancel _⟩, trivial⟩
  exact ⟨_, trace, run, by decide +kernel, run_integral run⟩

/-- The host asks for another code, and fails when it is told that the first one is
cancelled. -/
def failedRenewal : Reentrant.Step where
  input := .text 0 (.ofList [("type", .string "pair-offer"), ("id", .string "second")])
  fates _ _ message := match message with
    | .pairing _ _ _ "cancelled" _ => .failed
    | _ => .taken
  depth := 1

/-- The second offer goes into the table after the session left. -/
theorem not_integral_renewal : ∃ relay trace,
    (Reentrant.machine .sample).Run Reentrant.Feasible trace relay ∧
      relay.sessions.keys = [] ∧ (∃ hash offer, relay.offers.lookup hash = some offer) ∧
      ¬ Integral relay := by
  have hstart : (Reentrant.machine .sample).Run Reentrant.Feasible [] { now := 0 } :=
    .start ⟨0, rfl⟩
  obtain ⟨trace, run⟩ := hstart.extend (hostVisit ++ [failedRenewal])
    ⟨trivial, trivial, trivial, trivial, trivial, trivial, trivial⟩
  have hreached :
      ((hostVisit ++ [failedRenewal]).foldl (Reentrant.machine .sample).next
        { now := 0 }).sessions.keys = [] ∧
      ((hostVisit ++ [failedRenewal]).foldl (Reentrant.machine .sample).next
        { now := 0 }).offers.entries.length = 1 := by
    decide +kernel
  generalize (hostVisit ++ [failedRenewal]).foldl (Reentrant.machine .sample).next { now := 0 }
    = relay at run hreached
  obtain ⟨hsessions, hoffers⟩ := hreached
  obtain ⟨entry, hentry⟩ := List.length_eq_one_iff.1 hoffers
  have hstored : relay.offers.lookup entry.1 = some entry.2 :=
    Table.lookup_of_mem_entries (by rw [hentry]; exact List.mem_singleton_self entry)
  refine ⟨relay, trace, run, hsessions, ⟨entry.1, entry.2, hstored⟩, fun h => ?_⟩
  have hmem := AList.mem_keys.1 (h.offers entry.1 entry.2 hstored)
  rw [hsessions] at hmem
  cases hmem

end RelayServer

end ServerHost
