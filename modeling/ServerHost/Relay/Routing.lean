import ServerHost.Relay.Pairing
import ServerHost.Relay.Requests

/-!
# What the relay sends for a request

A turn opens one route at most, and then it sends one request at most: to the host of
that route, under the name of the route.  All other events of a turn are `ordinary`.

## Strategy

The handlers are walked through, since a change of `Change` says neither which message
caused it nor what a pairing message carries.  So every request that was ever sent belongs
to a route of its own (`run_routed`), and a directory lists only hosts that have a name
(`run_listed`).
-/

namespace ServerHost

namespace RelayServer

/-- All but the two events of a request that gets a route.  A pairing message has no other
type than its own. -/
def Event.ordinary : Event → Bool
  | .routed .. => false
  | .sent _ (.request ..) => false
  | .sent _ (.pairing _ _ _ _ data) => (data.lookup "type").isNone
  | _ => true

/-- Only ordinary events happened. -/
abbrev Ordinary (relay after : RelayServer) : Prop :=
  Grows (fun entry => entry.event.ordinary = true) relay.log after.log

section
variable (full : Socket → Outgoing → Bool) (relay : RelayServer)

theorem transmit_ordinary {socket : Socket} {message : Outgoing}
    (h : (Event.sent socket message).ordinary = true) :
    Ordinary relay (transmit full socket message relay) :=
  grows_transmit full rfl h

theorem ordinary_foldl {α : Type*} {f : RelayServer → α → RelayServer}
    (h : ∀ relay a, Ordinary relay (f relay a)) (list : List α) :
    Ordinary relay (list.foldl f relay) :=
  list.foldlRecOn f (motive := fun after => Ordinary relay after) (.of_eq rfl)
    fun after hafter a _ => hafter.trans (h after a)

/-! ## Pairing -/

theorem withdrawOffer_ordinary (hash status : String) (offer : Offer) :
    Ordinary relay (relay.withdrawOffer (transmit full) hash status offer) :=
  Grows.trans (.cons rfl) (transmit_ordinary full _ rfl)

theorem finishPair_ordinary (key status : String) :
    Ordinary relay (relay.finishPair (transmit full) key status) := by
  unfold finishPair
  cases relay.pairs.lookup key with
  | none => exact .of_eq rfl
  | some pair =>
      have hsettled : Ordinary relay
          ({ relay with pairs := relay.pairs.erase key }.emit (.settled (.pair key) status)) :=
        .cons rfl
      dsimp only
      split <;> split
      · exact (hsettled.trans (transmit_ordinary full _ rfl)).trans (transmit_ordinary full _ rfl)
      · exact hsettled.trans (transmit_ordinary full _ rfl)
      · exact hsettled.trans (transmit_ordinary full _ rfl)
      · exact hsettled

theorem cancelOffer_ordinary (socket : Socket) (request hash : String) :
    Ordinary relay (relay.cancelOffer (transmit full) socket request hash) := by
  unfold cancelOffer
  cases relay.offers.lookup hash with
  | none => exact .of_eq rfl
  | some offer =>
      dsimp only
      split
      · exact withdrawOffer_ordinary full relay hash "cancelled" offer
      · exact .of_eq rfl

theorem cancelPair_ordinary (socket : Socket) (request key : String) :
    Ordinary relay (relay.cancelPair (transmit full) socket request key) := by
  unfold cancelPair
  cases relay.pairs.lookup key with
  | none => exact .of_eq rfl
  | some pair =>
      dsimp only
      split
      · exact finishPair_ordinary full relay key "cancelled"
      · exact .of_eq rfl

theorem cancelPairing_ordinary (socket : Socket) (request : String) :
    Ordinary relay (relay.cancelPairing (transmit full) socket request) :=
  (ordinary_foldl relay (cancelOffer_ordinary full · socket request) _).trans
    (ordinary_foldl _ (cancelPair_ordinary full · socket request) _)

theorem pairConfirm_ordinary (socket : Socket) (message : JsonObject) :
    Ordinary relay (relay.pairConfirm (transmit full) socket message) := by
  unfold pairConfirm
  dsimp only
  cases relay.pairs.lookup (message.value "pairingId").toString with
  | none => exact .of_eq rfl
  | some pair =>
      dsimp only
      split
      · exact .of_eq rfl
      split
      · exact finishPair_ordinary full relay _ "expired"
      · exact finishPair_ordinary full relay _ "paired"

variable (platform : Platform)

theorem pairOffer_ordinary (socket : Socket) (id : String) :
    Ordinary relay (relay.pairOffer platform (transmit full) socket id) := by
  unfold pairOffer
  dsimp only
  split
  · exact transmit_ordinary full relay rfl
  · refine ((cancelPairing_ordinary full relay socket "").trans ?_).trans
      (transmit_ordinary full _ rfl)
    exact .cons rfl

theorem pairClaim_ordinary (socket : Socket) (id : String) (message : JsonObject) :
    Ordinary relay (relay.pairClaim platform (transmit full) socket id message) := by
  unfold pairClaim
  dsimp only
  cases relay.offers.lookup (platform.sha256 (toLatin1 (message.value "code").toString)) with
  | none => exact transmit_ordinary full relay rfl
  | some offer =>
      dsimp only
      split
      · exact transmit_ordinary full relay rfl
      · have hclaimed : ∀ relay : RelayServer, ∀ first second : Event, first.ordinary = true →
            second.ordinary = true → Ordinary relay ((relay.emit first).emit second) :=
          fun relay first second hfirst hsecond => Grows.trans (.cons hfirst) (.cons hsecond)
        refine (((cancelPairing_ordinary full relay socket "").trans ?_).trans
          (transmit_ordinary full _ rfl)).trans (transmit_ordinary full _ rfl)
        exact hclaimed { relay.cancelPairing (transmit full) socket "" with
          offers := _, pairs := _, uuids := _ } _ _ rfl rfl

theorem pairMessage_ordinary (socket : Socket) (message : JsonObject) :
    Ordinary relay (relay.pairMessage platform (transmit full) socket message) := by
  unfold pairMessage
  dsimp only
  split
  · exact pairConfirm_ordinary full relay socket message
  split
  · exact .cons rfl
  split
  · exact cancelPairing_ordinary full relay socket _
  have hcounted : Ordinary relay (relay.update socket (countAttempt relay.now)) := .of_eq rfl
  refine hcounted.trans ?_
  split
  · exact transmit_ordinary full _ rfl
  split
  · exact pairOffer_ordinary full _ platform socket _
  split
  · exact pairClaim_ordinary full _ platform socket _ message
  · exact .cons rfl

/-! ## The other messages -/

theorem directory_ordinary (socket : Socket) :
    Ordinary relay (relay.directory (transmit full) socket) := by
  unfold directory
  dsimp only
  split
  · exact .of_eq rfl
  · exact transmit_ordinary full relay rfl

theorem changed_ordinary : Ordinary relay (relay.changed (transmit full)) :=
  ordinary_foldl relay (directory_ordinary full) _

theorem authMessage_ordinary (socket : Socket) (message : JsonObject) :
    Ordinary relay (relay.authMessage socket message) := by
  unfold authMessage
  dsimp only
  split
  · exact .cons rfl
  · exact .cons rfl

theorem registerMessage_ordinary (socket : Socket) (message : JsonObject) :
    Ordinary relay (relay.registerMessage platform (transmit full) socket message) := by
  unfold registerMessage
  dsimp only
  split
  · exact .cons rfl
  split
  · exact (transmit_ordinary full relay rfl).trans (.cons rfl)
  split
  · exact .cons rfl
  · refine Grows.trans ?_ ((transmit_ordinary full _ rfl).trans (changed_ordinary full _))
    split
    · exact Grows.trans (.cons rfl) (cancelPairing_ordinary full _ socket "")
    · exact .cons rfl

theorem connectMessage_ordinary (socket : Socket) (message : JsonObject) :
    Ordinary relay (relay.connectMessage platform (transmit full) socket message) := by
  unfold connectMessage
  dsimp only
  cases htarget : relay.target socket (message.value "peerId").toString with
  | none => exact transmit_ordinary full relay rfl
  | some host =>
      have hdraw : Ordinary relay { relay with randoms := relay.randoms + 1 } := .of_eq rfl
      dsimp only
      rw [touch_transmit full htarget]
      exact (hdraw.trans (transmit_ordinary full _ rfl)).trans (transmit_ordinary full _ rfl)

theorem responseMessage_ordinary (socket : Socket) (message : JsonObject) :
    Ordinary relay (relay.responseMessage (transmit full) socket message) := by
  unfold responseMessage
  dsimp only
  cases relay.routes.lookup (message.value "id").toString with
  | none => exact .of_eq rfl
  | some route =>
      dsimp only
      split
      · exact .of_eq rfl
      · have herased : Ordinary relay { relay with
            routes := relay.routes.erase (message.value "id").toString } := .of_eq rfl
        refine herased.trans ?_
        split
        · exact transmit_ordinary full _ rfl
        · exact .of_eq rfl

end

/-! ## Sessions and timers -/

section
variable (full : Socket → Outgoing → Bool) (relay : RelayServer)

theorem authCompleted_ordinary (socket : Socket) (principal : Principal) :
    Ordinary relay (relay.authCompleted (transmit full) socket principal) := by
  unfold authCompleted
  cases relay.sessions.lookup socket with
  | none => exact .of_eq rfl
  | some state =>
      dsimp only
      have hupdate : Ordinary relay
          (relay.update socket fun session => { session with authenticating := false }) :=
        .of_eq rfl
      refine hupdate.trans ?_
      split
      · refine ((cancelPairing_ordinary full _ socket "").trans ?_).trans (.cons rfl)
        exact Grows.trans (.cons rfl) (transmit_ordinary full _ rfl)
      · exact Grows.trans (.cons rfl) (transmit_ordinary full _ rfl)

theorem dropRoute_ordinary (socket : Socket) (key : String) :
    Ordinary relay (relay.dropRoute (transmit full) socket key) := by
  unfold dropRoute
  cases relay.routes.lookup key with
  | none => exact .of_eq rfl
  | some route =>
      dsimp only
      split
      · have herased : Ordinary relay { relay with routes := relay.routes.erase key } := .of_eq rfl
        refine herased.trans ?_
        split
        · exact transmit_ordinary full _ rfl
        · exact .of_eq rfl
      · exact .of_eq rfl

theorem remove_ordinary (socket : Socket) :
    Ordinary relay (relay.remove (transmit full) socket) := by
  have herased : ∀ relay : RelayServer,
      Ordinary relay { relay with sessions := relay.sessions.erase socket } :=
    fun relay => .of_eq rfl
  unfold remove
  dsimp only
  have hdropped : ∀ (keys : List String) (relay : RelayServer),
      Ordinary relay (keys.foldl (dropRoute (transmit full) socket) relay) :=
    fun keys relay => ordinary_foldl relay (dropRoute_ordinary full · socket) keys
  exact (((cancelPairing_ordinary full relay socket "").trans (herased _)).trans
    (hdropped _ _)).trans (changed_ordinary full _)

theorem sweepOffer_ordinary (hash : String) :
    Ordinary relay (relay.sweepOffer (transmit full) hash) := by
  unfold sweepOffer
  cases relay.offers.lookup hash with
  | none => exact .of_eq rfl
  | some offer =>
      dsimp only
      split
      · exact withdrawOffer_ordinary full relay hash "expired" offer
      · exact .of_eq rfl

theorem sweepPair_ordinary (key : String) :
    Ordinary relay (relay.sweepPair (transmit full) key) := by
  unfold sweepPair
  cases relay.pairs.lookup key with
  | none => exact .of_eq rfl
  | some pair =>
      dsimp only
      split
      · exact finishPair_ordinary full relay key "expired"
      · exact .of_eq rfl

theorem sweepSession_ordinary (socket : Socket) : Ordinary relay (relay.sweepSession socket) := by
  unfold sweepSession
  dsimp only
  split
  · exact .cons rfl
  · exact .of_eq rfl

theorem sweepRoute_ordinary (key : String) :
    Ordinary relay (relay.sweepRoute (transmit full) key) := by
  unfold sweepRoute
  cases relay.routes.lookup key with
  | none => exact .of_eq rfl
  | some route =>
      dsimp only
      split
      · have herased : Ordinary relay { relay with routes := relay.routes.erase key } := .of_eq rfl
        refine herased.trans ?_
        split
        · exact transmit_ordinary full _ rfl
        · exact .of_eq rfl
      · exact .of_eq rfl

theorem sweep_ordinary : Ordinary relay (relay.sweep (transmit full)) :=
  (((ordinary_foldl relay (sweepOffer_ordinary full) _).trans
    (ordinary_foldl _ (sweepPair_ordinary full) _)).trans
    (ordinary_foldl _ sweepSession_ordinary _)).trans
    (ordinary_foldl _ (sweepRoute_ordinary full) _)

theorem newConnection_ordinary : Ordinary relay relay.newConnection := by
  unfold newConnection
  dsimp only
  split
  · exact .cons rfl
  · exact .of_eq rfl

end

/-! ## A turn -/

variable {platform : Platform} {relay after : RelayServer} {step : Step}

/-- The turn gave the request of this message a route to the host, and its last event,
if there is another, sent the request there or closed the host. -/
structure Routes (platform : Platform) (relay : RelayServer) (step : Step) (after : RelayServer)
    (client host : Socket) (message : JsonObject) : Prop where
  input : step.input = .text client message
  known : client ∈ relay.sessions
  typed : messageType message = "request"
  log : ∃ new, after.log = new ++ ⟨relay.now, .routed (platform.uuid relay.uuids) client host
      (message.value "id").toString⟩ :: relay.log ∧
    (new = [⟨relay.now, .sent host (.request client (platform.uuid relay.uuids)
      (relay.session client).id (message.value "payload"))⟩] ∨
      ∀ entry ∈ new, entry.event.ordinary = true)
  uuids : after.uuids = relay.uuids + 1

/-- A turn opens a route, or only ordinary things happen. -/
inductive Routing (platform : Platform) (relay : RelayServer) (step : Step)
    (after : RelayServer) : Prop
  | ordinary : Ordinary relay after → Routing platform relay step after
  | routes {client host : Socket} {message : JsonObject} :
      Routes platform relay step after client host message → Routing platform relay step after

theorem requestMessage_routing {socket : Socket} {message : JsonObject}
    (hinput : step.input = .text socket message) (hknown : socket ∈ relay.sessions)
    (htype : messageType message = "request") :
    Routing platform relay step
      (relay.requestMessage platform (transmit step.full) socket message) := by
  unfold requestMessage
  dsimp only
  split
  · exact .ordinary (.cons rfl)
  cases relay.target socket (message.value "peerId").toString with
  | none => exact .ordinary (transmit_ordinary step.full relay rfl)
  | some host =>
      dsimp only
      split
      · exact .ordinary (transmit_ordinary step.full relay rfl)
      · refine @Routing.routes _ _ _ _ socket host message
          ⟨hinput, hknown, htype, ?_, (transmit_pairingOnly ..).uuids⟩
        unfold transmit
        split
        · exact ⟨[], rfl, .inr (by simp)⟩
        split
        · exact ⟨[⟨relay.now, .closed host⟩], rfl, .inr (by simp [Event.ordinary])⟩
        · exact ⟨_, rfl, .inl rfl⟩

/-- **A turn opens no route, or one for the request that it was given.** -/
theorem next_routing (platform : Platform) (relay : RelayServer) (step : Step) :
    Routing platform relay step (next platform relay step) := by
  unfold next turn
  cases hinput : step.input with
  | clock time => exact .ordinary (.of_eq rfl)
  | newConnection => exact .ordinary (newConnection_ordinary relay)
  | text socket message =>
      dsimp only [RelayServer.message]
      split
      · exact .ordinary (.of_eq rfl)
      next hknown =>
      rw [not_not] at hknown
      split
      · exact .ordinary (authMessage_ordinary relay socket message)
      split
      · exact .ordinary (.cons rfl)
      split
      · exact .ordinary (registerMessage_ordinary step.full relay platform socket message)
      split
      · exact .ordinary (.cons rfl)
      split
      · exact .ordinary (pairMessage_ordinary step.full relay platform socket message)
      split
      · exact .ordinary (directory_ordinary step.full relay socket)
      split
      · exact .ordinary (connectMessage_ordinary step.full relay platform socket message)
      split
      -- The only branch that makes a route.
      · next htype => exact requestMessage_routing hinput hknown htype
      split
      · exact .ordinary (responseMessage_ordinary step.full relay socket message)
      · exact .ordinary (.cons rfl)
  | binary socket =>
      dsimp only
      split
      · exact .ordinary (.cons rfl)
      · exact .ordinary (.of_eq rfl)
  | completion socket principal =>
      exact .ordinary (authCompleted_ordinary step.full relay socket principal)
  | disconnected socket =>
      dsimp only [disconnected]
      split
      · exact .ordinary (remove_ordinary step.full relay socket)
      · exact .ordinary (.of_eq rfl)
  | sweep => exact .ordinary (sweep_ordinary step.full relay)
  | stop => exact .ordinary (.of_eq rfl)
  | rehash => exact .ordinary (.of_eq rfl)

/-! ## Every request has a route of its own -/

/-- What the history tells about routes and requests. -/
structure Routed (platform : Platform) (relay : RelayServer) : Prop where
  numbered : ∀ route client host id, .routed route client host id ∈ events relay.log →
    ∃ number < relay.uuids, route = platform.uuid number
  single : ∀ route client host id client' host' id',
    .routed route client host id ∈ events relay.log →
    .routed route client' host' id' ∈ events relay.log → client = client' ∧ host = host' ∧ id = id'
  known : ∀ route client host id, .routed route client host id ∈ events relay.log →
    client < relay.sockets
  asked : ∀ socket client route peerId payload,
    .sent socket (.request client route peerId payload) ∈ events relay.log →
    ∃ id, .routed route client socket id ∈ events relay.log
  untyped : ∀ socket other subject id status data,
    .sent socket (.pairing other subject id status data) ∈ events relay.log →
    data.lookup "type" = none

/-- The name of the next route is new. -/
theorem Routed.fresh (h : Routed platform relay) {client host : Socket} {id : String} :
    .routed (platform.uuid relay.uuids) client host id ∉ events relay.log := by
  intro hmem
  obtain ⟨number, hlt, heq⟩ := h.numbered _ _ _ _ hmem
  exact absurd (platform.uuid_injective heq) hlt.ne'

theorem uuids_le_of_next (hfeasible : relay.Feasible step) :
    relay.uuids ≤ (next platform relay step).uuids := by
  refine (next_changes platform hfeasible).invariant (I := fun state => relay.uuids ≤ state.uuids)
    (fun state after change hstate => hstate.trans ?_) le_rfl
  have htransmit : ∀ (socket : Socket) (message : Outgoing) (relay : RelayServer),
      (transmit step.full socket message relay).uuids = relay.uuids :=
    fun socket message relay => (transmit_pairingOnly step.full socket message relay).uuids
  cases change with
  | reject | send | route | answer => simp [htransmit]
  | claim => exact Nat.le_succ _
  | withdraw => exact (withdrawOffer_pairingOnly ..).uuids.ge
  | finish => exact (finishPair_pairingOnly ..).uuids.ge
  | _ => exact le_rfl

theorem sockets_le_of_next (hfeasible : relay.Feasible step) :
    relay.sockets ≤ (next platform relay step).sockets := by
  refine (next_changes platform hfeasible).invariant
    (I := fun state => relay.sockets ≤ state.sockets)
    (fun state after change hstate => hstate.trans ?_) le_rfl
  cases change with
  | welcome | refuse => exact Nat.le_succ _
  | reject | send | route | answer => simp
  | withdraw => exact (withdrawOffer_pairingOnly ..).sockets.ge
  | finish => exact (finishPair_pairingOnly ..).sockets.ge
  | _ => exact le_rfl

theorem mem_events_append {new log : List Entry} {event : Event} :
    event ∈ events (new ++ log) ↔ event ∈ events new ∨ event ∈ events log := by
  rw [events, List.map_append, List.mem_append]
  rfl

/-- What is not ordinary is no news. -/
theorem mem_of_ordinary (h : Ordinary relay after) {event : Event}
    (hevent : event.ordinary = false) :
    event ∈ events after.log ↔ event ∈ events relay.log := by
  obtain ⟨new, hlog, hnew⟩ := h
  rw [hlog, mem_events_append, or_iff_right]
  intro hmem
  obtain ⟨entry, hentry, rfl⟩ := List.mem_map.1 hmem
  exact absurd (hnew entry hentry) (by simp [hevent])

theorem Routed.ordinary (h : Routed platform relay) (hordinary : Ordinary relay after)
    (huuids : relay.uuids ≤ after.uuids) (hsockets : relay.sockets ≤ after.sockets) :
    Routed platform after where
  numbered route client host id hmem := by
    obtain ⟨number, hlt, heq⟩ := h.numbered _ _ _ _ ((mem_of_ordinary hordinary rfl).1 hmem)
    exact ⟨number, hlt.trans_le huuids, heq⟩
  single route client host id client' host' id' hmem hmem' :=
    h.single _ _ _ _ _ _ _ ((mem_of_ordinary hordinary rfl).1 hmem)
      ((mem_of_ordinary hordinary rfl).1 hmem')
  known route client host id hmem :=
    (h.known _ _ _ _ ((mem_of_ordinary hordinary rfl).1 hmem)).trans_le hsockets
  asked socket client route peerId payload hmem := by
    obtain ⟨id, hrouted⟩ := h.asked _ _ _ _ _ ((mem_of_ordinary hordinary rfl).1 hmem)
    exact ⟨id, (mem_of_ordinary hordinary rfl).2 hrouted⟩
  untyped socket other subject id status data hmem := by
    obtain ⟨new, hlog, hnew⟩ := hordinary
    rw [hlog, mem_events_append] at hmem
    rcases hmem with hmem | hmem
    · obtain ⟨entry, hentry, heq⟩ := List.mem_map.1 hmem
      have hplain : entry.event.ordinary = true := hnew entry hentry
      rw [heq] at hplain
      exact Option.isNone_iff_eq_none.1 hplain
    · exact h.untyped _ _ _ _ _ _ hmem

theorem Routed.routes (h : Routed platform relay) {client host : Socket} {message : JsonObject}
    (hroutes : Routes platform relay step after client host message)
    (hclient : client < relay.sockets) (hsockets : relay.sockets ≤ after.sockets) :
    Routed platform after := by
  obtain ⟨new, hlog, hnew⟩ := hroutes.log
  have hfresh : ∀ client host id, .routed (platform.uuid relay.uuids) client host id ∉
      events relay.log := fun _ _ _ => h.fresh
  -- What the log holds now: the new route, or one it held before.
  have hrouted : ∀ route own other id, .routed route own other id ∈ events after.log →
      (route = platform.uuid relay.uuids ∧ own = client ∧ other = host ∧
        id = (message.value "id").toString) ∨ .routed route own other id ∈ events relay.log := by
    intro route own other id hmem
    rw [hlog, mem_events_append, events_cons, List.mem_cons] at hmem
    rcases hmem with hmem | heq | hmem
    · exfalso
      obtain ⟨entry, hentry, heq⟩ := List.mem_map.1 hmem
      rcases hnew with rfl | hordinary
      · obtain rfl := List.mem_singleton.1 hentry
        cases heq
      · have hplain := hordinary entry hentry
        rw [heq] at hplain
        cases hplain
    · exact .inl (by simpa using heq)
    · exact .inr hmem
  have hmore : ∀ event ∈ events relay.log, event ∈ events after.log := by
    intro event hmem
    rw [hlog, mem_events_append, events_cons]
    exact .inr (List.mem_cons_of_mem _ hmem)
  refine ⟨fun route own other id hmem => ?_,
    fun route own other id own' other' id' hmem hmem' => ?_,
    fun route own other id hmem => ?_, fun socket own route peerId payload hmem => ?_,
    fun socket other subject id status data hmem => ?_⟩
  · rw [hroutes.uuids]
    rcases hrouted _ _ _ _ hmem with ⟨rfl, -⟩ | hold
    · exact ⟨relay.uuids, Nat.lt_succ_self _, rfl⟩
    · obtain ⟨number, hlt, heq⟩ := h.numbered _ _ _ _ hold
      exact ⟨number, hlt.trans (Nat.lt_succ_self _), heq⟩
  · rcases hrouted _ _ _ _ hmem with ⟨rfl, rfl, rfl, rfl⟩ | hold <;>
      rcases hrouted _ _ _ _ hmem' with ⟨hsame, rfl, rfl, rfl⟩ | hold'
    · exact ⟨rfl, rfl, rfl⟩
    -- Two routes of one name would both carry the fresh uuid.
    · exact absurd hold' (hfresh _ _ _)
    · exact absurd (hsame ▸ hold) (hfresh _ _ _)
    · exact h.single _ _ _ _ _ _ _ hold hold'
  · rcases hrouted _ _ _ _ hmem with ⟨-, rfl, -⟩ | hold
    · exact hclient.trans_le hsockets
    · exact (h.known _ _ _ _ hold).trans_le hsockets
  · rw [hlog, mem_events_append, events_cons, List.mem_cons] at hmem
    rcases hmem with hmem | heq | hmem
    · obtain ⟨entry, hentry, heq⟩ := List.mem_map.1 hmem
      rcases hnew with rfl | hordinary
      · obtain rfl := List.mem_singleton.1 hentry
        simp only [Event.sent.injEq, Outgoing.request.injEq] at heq
        obtain ⟨rfl, rfl, rfl, -, -⟩ := heq
        refine ⟨(message.value "id").toString, ?_⟩
        rw [hlog, mem_events_append, events_cons]
        exact .inr List.mem_cons_self
      · have hplain := hordinary entry hentry
        rw [heq] at hplain
        cases hplain
    · cases heq
    · obtain ⟨id, hold⟩ := h.asked _ _ _ _ _ hmem
      exact ⟨id, hmore _ hold⟩
  · rw [hlog, mem_events_append, events_cons, List.mem_cons] at hmem
    rcases hmem with hmem | heq | hmem
    · obtain ⟨entry, hentry, heq⟩ := List.mem_map.1 hmem
      rcases hnew with rfl | hordinary
      · obtain rfl := List.mem_singleton.1 hentry
        cases heq
      · have hplain := hordinary entry hentry
        rw [heq] at hplain
        exact Option.isNone_iff_eq_none.1 hplain
    · cases heq
    · exact h.untyped _ _ _ _ _ _ hmem

theorem Routed.next (h : Routed platform relay) (hgraves : Graves relay)
    (hfeasible : relay.Feasible step) : Routed platform (RelayServer.next platform relay step) := by
  have hsockets : relay.sockets ≤ (RelayServer.next platform relay step).sockets :=
    sockets_le_of_next hfeasible
  rcases next_routing platform relay step with hordinary | hroutes
  · exact h.ordinary hordinary (uuids_le_of_next hfeasible) hsockets
  · exact h.routes hroutes (hgraves.numbered _ hroutes.known) hsockets

/-- **Every request that is sent to a host belongs to a route, and no two routes share a
name.** -/
theorem run_routed {trace : List (RelayServer × Step)}
    (run : (machine platform).Run Feasible trace relay) : Routed platform relay := by
  refine run.invariant (I := fun _ state => Routed platform state) ?_
    fun _ _ _ run h hfeasible => h.next (run_graves run) hfeasible
  rintro state ⟨time, rfl⟩
  exact ⟨by simp [events], by simp [events], by simp [events], by simp [events], by simp [events]⟩

/-! ## Every host has a name -/

/-- The descriptor names a peer by an identifier. -/
def Names (descriptor : JsonObject) : Prop :=
  ∃ id, identifier id = true ∧ descriptor.value "peerId" = .string id

/-- Hosts have names, in the sessions and in the directories that were sent. -/
structure Listing (relay : RelayServer) : Prop where
  sessions : ∀ socket session, relay.sessions.lookup socket = some session →
    session.descriptor.isEmpty = false → Names session.descriptor
  listed : ∀ socket entries, .sent socket (.peers entries) ∈ events relay.log →
    ∀ entry ∈ entries, Names entry.2

theorem names_descriptorOf {id service : String} {message : JsonObject} (hid : identifier id = true)
    (hne : (descriptorOf platform id service message).isEmpty = false) :
    Names (descriptorOf platform id service message) := by
  unfold descriptorOf at hne ⊢
  dsimp only at hne ⊢
  split at hne
  · next hhost =>
      rw [if_pos hhost]
      exact ⟨id, hid, rfl⟩
  · cases hne

/-- The entry is no directory, or a directory of hosts with names. -/
def Catalogued (entry : Entry) : Prop :=
  ∀ socket entries, entry.event = .sent socket (.peers entries) → ∀ own ∈ entries, Names own.2

theorem catalogued_of_ne {entry : Entry}
    (h : ∀ socket entries, entry.event ≠ .sent socket (.peers entries)) : Catalogued entry :=
  fun socket entries heq => absurd heq (h socket entries)

theorem Listing.grow (h : Listing relay)
    (hsessions : ∀ socket session, after.sessions.lookup socket = some session →
      session.descriptor.isEmpty = false → Names session.descriptor)
    (hlog : Grows Catalogued relay.log after.log) : Listing after where
  sessions := hsessions
  listed socket entries hmem := by
    obtain ⟨new, heq, hnew⟩ := hlog
    rw [heq, mem_events_append] at hmem
    rcases hmem with hmem | hmem
    · obtain ⟨entry, hentry, hevent⟩ := List.mem_map.1 hmem
      exact hnew entry hentry socket entries hevent
    · exact h.listed socket entries hmem

theorem Listing.change {pre : RelayServer} (h : Listing relay)
    (change : Change platform pre step relay after) : Listing after := by
  -- Only a `peers` message has to be catalogued.
  have hplain : ∀ {time : ℤ} {event : Event},
      (∀ socket entries, event ≠ .sent socket (.peers entries)) →
      Catalogued ⟨time, event⟩ := fun hne => catalogued_of_ne hne
  have hclosed : ∀ {time : ℤ} {socket : Socket}, Catalogued ⟨time, .closed socket⟩ :=
    hplain (by simp)
  have hkeep : ∀ {after : RelayServer}, after.sessions = relay.sessions →
      Grows Catalogued relay.log after.log → Listing after := fun hsessions hlog =>
    h.grow (hsessions ▸ h.sessions) hlog
  have hupdate : ∀ {socket : Socket} {f : Session → Session},
      (∀ session, (f session).descriptor = session.descriptor) →
      ∀ other session, (relay.update socket f).sessions.lookup other = some session →
        session.descriptor.isEmpty = false → Names session.descriptor := by
    intro socket f hf other session hsession hne
    rcases Table.lookup_modify_eq_some.1 hsession with ⟨rfl, old, hold, rfl⟩ | ⟨-, hold⟩
    · rw [hf] at hne ⊢
      exact h.sessions _ old hold hne
    · exact h.sessions _ session hold hne
  cases change with
  | welcome =>
      refine h.grow (fun socket session hsession hne => ?_) (.of_eq rfl)
      rcases Table.lookup_insert_eq_some.1 hsession with ⟨rfl, rfl⟩ | ⟨-, hold⟩
      · cases hne
      · exact h.sessions socket session hold hne
  | refuse => exact hkeep rfl (.cons hclosed)
  | close => exact hkeep rfl (.cons hclosed)
  | ask => exact hkeep rfl (.cons (hplain (by simp)))
  | touch socket f hkeeps =>
      exact h.grow (hupdate fun session => (hkeeps session).2.2.2.2) (.of_eq rfl)
  | verify => exact h.grow (hupdate fun _ => rfl) (.cons (hplain (by simp)))
  | @reject socket =>
      refine h.grow ?_ ?_
      · rw [close_sessions, transmit_sessions, emit_sessions]
        exact hupdate fun _ => rfl
      · exact Grows.trans (Grows.trans (.cons (hplain (by simp)))
          (grows_transmit step.full hclosed (hplain (by simp)))) (.cons hclosed)
  | @register socket message state id service _ _ _ _ hid =>
      -- The descriptor is built from the id and the service that were checked.
      refine h.grow (fun other session hsession hne => ?_) (.cons (hplain (by simp)))
      rcases Table.lookup_modify_eq_some.1 hsession with ⟨rfl, old, -, rfl⟩ | ⟨-, hold⟩
      · exact names_descriptorOf hid hne
      · exact h.sessions other session hold hne
  | @send socket message hsendable =>
      -- Each entry is the stored descriptor of a session that is reached.
      refine hkeep (transmit_sessions ..) (grows_transmit step.full hclosed ?_)
      rintro other entries heq entry hentry
      obtain ⟨-, rfl⟩ := Event.sent.inj heq
      obtain ⟨own, hown, hreaches, hdescriptor⟩ := hsendable.2.2 entry hentry
      rw [hdescriptor]
      exact h.sessions _ own hown (reaches_iff.1 hreaches).2.2.1
  | issue => exact hkeep rfl (.cons (hplain (by simp)))
  | claim => exact hkeep rfl (Grows.trans (.cons (hplain (by simp))) (.cons (hplain (by simp))))
  | withdraw =>
      refine hkeep (withdrawOffer_pairingOnly ..).sessions ?_
      exact Grows.trans (.cons (hplain (by simp)))
        (grows_transmit step.full hclosed (hplain (by simp)))
  | finish =>
      refine hkeep (finishPair_pairingOnly ..).sessions ?_
      exact grows_finishPair step.full _ _ (hplain (by simp)) (fun _ => hclosed)
        fun _ _ _ _ => hplain (by simp)
  | route =>
      refine hkeep (transmit_sessions ..) ?_
      exact Grows.trans (.cons (hplain (by simp)))
        (grows_transmit step.full hclosed (hplain (by simp)))
  | answer =>
      exact hkeep (transmit_sessions ..) (grows_transmit step.full hclosed (hplain (by simp)))
  | forget =>
      refine h.grow (fun socket session hsession hne => ?_) (.of_eq rfl)
      exact h.sessions socket session (Table.lookup_erase_eq_some.1 hsession).2 hne
  | stop =>
      refine h.grow (fun socket session hsession => ?_) (.of_eq rfl)
      simp [RelayServer.stop] at hsession
  | rehash hsessions =>
      refine h.grow (fun socket session hsession hne => ?_) (.of_eq rfl)
      exact h.sessions socket session ((hsessions.lookup socket).trans hsession) hne
  | _ => exact hkeep rfl (.of_eq rfl)

/-- **A directory lists no host without a name.** -/
theorem run_listed {trace : List (RelayServer × Step)}
    (run : (machine platform).Run Feasible trace relay) : Listing relay := by
  refine run.invariant_state ?_ fun state input h hfeasible =>
    (next_changes platform hfeasible).invariant (fun _ _ change hstate => hstate.change change) h
  rintro state ⟨time, rfl⟩
  exact ⟨by simp, by simp [events]⟩

/-! ## Types of messages -/

/-- The type of a message. -/
def Outgoing.kind : Outgoing → String
  | .error _ => "error"
  | .authenticated _ => "authenticated"
  | .registered => "registered"
  | .peers _ => "peers"
  | .unavailable _ => "connect"
  | .connect .. => "connect"
  | .ticket .. => "ticket"
  | .request .. => "request"
  | .response .. => "response"
  | .pairing .. => "pairing"

theorem lookup_filter_none {fields : List (String × Json)} {key : String}
    (p : String × Json → Bool) (h : fields.lookup key = none) :
    (fields.filter p).lookup key = none := by
  rw [List.lookup_eq_none_iff] at h ⊢
  exact fun field hfield => h field (List.mem_filter.1 hfield).1

theorem messageType_json {message : Outgoing}
    (h : ∀ other subject id status data, message = .pairing other subject id status data →
      data.lookup "type" = none) : messageType message.json = message.kind := by
  cases message with
  | pairing other subject id status data =>
      have hnone := lookup_filter_none (fun field => !field.2.isUndefined) (h _ _ _ _ _ rfl)
      rw [messageType, JsonObject.value, Outgoing.json, JsonObject.ofList, List.filter_append,
        List.lookup_append, hnone]
      rfl
  | _ => rfl

/-! ## What a turn leaves alone -/

theorem now_of_next (hfeasible : relay.Feasible step) (hclock : ∀ time, step.input ≠ .clock time) :
    (next platform relay step).now = relay.now := by
  refine (next_changes platform hfeasible).invariant (I := fun state => state.now = relay.now)
    (fun state after change hstate => Eq.trans ?_ hstate) rfl
  cases change with
  | clock time hinput => exact absurd hinput (hclock time)
  | reject => exact (transmit_pairingOnly ..).now
  | send => exact (transmit_pairingOnly ..).now
  | withdraw => exact (withdrawOffer_pairingOnly ..).now
  | finish => exact (finishPair_pairingOnly ..).now
  | route => exact (transmit_pairingOnly ..).now
  | answer => exact (transmit_pairingOnly ..).now
  | _ => rfl

theorem log_grows_of_next (platform : Platform) (relay : RelayServer) (step : Step) :
    ∃ new, (next platform relay step).log = new ++ relay.log := by
  rcases next_routing platform relay step with ⟨new, hlog, -⟩ | hroutes
  · exact ⟨new, hlog⟩
  · obtain ⟨new, hlog, -⟩ := hroutes.log
    exact ⟨new ++ [_], by rw [hlog, List.append_assoc]; rfl⟩

theorem newConnection_sockets (relay : RelayServer) :
    relay.newConnection.sockets = relay.sockets + 1 := by
  unfold newConnection
  dsimp only
  split
  · rfl
  · rfl

end RelayServer

end ServerHost
