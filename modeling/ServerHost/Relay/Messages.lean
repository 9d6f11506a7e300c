import ServerHost.Library.Counters
import ServerHost.Relay.Routing

/-!
# What the relay says

A message that the relay sends on behalf of a session is built in the turn that sends it,
from the message of that session: a request and its route, a ticket and the descriptor that
goes with it, the response of a host.  Of its own the relay has four results, all errors.

## Strategy

As in `Routing`, the handlers are walked through.  Most of them enter only what is `idle`;
the others are compared with `Said`, which names the message that stands behind an entry.
So a run has a turn behind each entry of its history (`run_said`).
-/

namespace ServerHost

namespace RelayServer

/-- The errors of the relay itself. -/
def refusals : List String := ["host_unavailable", "busy", "host_offline", "timeout"]

/-- A message of a live, registered session that names another one. -/
structure Meeting (pre : RelayServer) (step : Step) (type : String) (client host : Socket)
    (message : JsonObject) : Prop where
  input : step.input = .text client message
  typed : messageType message = type
  active : pre.active client = true
  registered : (pre.session client).id ≠ ""
  found : pre.target client (message.value "peerId").toString = some host

/-- The response of a host to a route that it has. -/
structure Returns (pre : RelayServer) (step : Step) (client host : Socket) (id : String)
    (message : JsonObject) : Prop where
  input : step.input = .text host message
  typed : messageType message = "response"
  active : pre.active host = true
  route : ∃ route, pre.routes.lookup (message.value "id").toString = some route ∧
    route.client = client ∧ route.host = host ∧ route.id = id

/-- What stands behind an entry of the history. -/
def Said (platform : Platform) (pre : RelayServer) (step : Step) (entry : Entry) : Prop :=
  match entry.event with
  | .registered socket id service => pre.active socket = true ∧ ∃ message,
      step.input = .text socket message ∧ messageType message = "register" ∧
      id = (message.value "peerId").toString ∧ service = (message.value "service").toString
  | .routed route client host id => route = platform.uuid pre.uuids ∧
      ∃ message, Meeting pre step "request" client host message ∧
        id = (message.value "id").toString
  | .sent socket (.request client route peerId payload) => route = platform.uuid pre.uuids ∧
      peerId = (pre.session client).id ∧
      ∃ message, Meeting pre step "request" client socket message ∧
        payload = message.value "payload"
  | .sent socket (.response (some host) id result) =>
      ∃ message, Returns pre step socket host id message ∧ result = message.value "result"
  | .sent _ (.response none _ result) => ∃ code ∈ refusals, result = (errorObject code).json
  | .sent socket (.connect host peerId token _ _) => token = (platform.random pre.randoms).text ∧
      ∃ message, Meeting pre step "connect" socket host message ∧
        peerId = (message.value "peerId").toString
  | .sent socket (.ticket client token peerId _) => token = (platform.random pre.randoms).text ∧
      peerId = (pre.session client).id ∧
      ∃ message, Meeting pre step "connect" client socket message
  | _ => True

/-- Nothing has to stand behind the event. -/
def Event.idle : Event → Bool
  | .registered .. | .routed .. => false
  | .sent _ (.request ..) | .sent _ (.response ..) => false
  | .sent _ (.connect ..) | .sent _ (.ticket ..) => false
  | _ => true

theorem said_of_idle {platform : Platform} {pre : RelayServer} {step : Step} {entry : Entry}
    (h : entry.event.idle = true) : Said platform pre step entry := by
  unfold Said
  cases hevent : entry.event with
  | sent socket message =>
      rw [hevent] at h
      cases message <;> trivial
  | registered | routed =>
      rw [hevent] at h
      cases h
  | _ => trivial

/-- Only idle events happened. -/
abbrev Idle (relay after : RelayServer) : Prop :=
  Grows (fun entry => entry.event.idle = true) relay.log after.log

theorem Idle.trans {first second third : RelayServer} (h : Idle first second)
    (h' : Idle second third) : Idle first third :=
  Grows.trans h h'

section
variable (full : Socket → Outgoing → Bool) (relay : RelayServer)

theorem transmit_idle {socket : Socket} {message : Outgoing}
    (h : (Event.sent socket message).idle = true) :
    Idle relay (transmit full socket message relay) :=
  grows_transmit full rfl h

theorem idle_foldl {α : Type*} {f : RelayServer → α → RelayServer}
    (h : ∀ relay a, Idle relay (f relay a)) (list : List α) : Idle relay (list.foldl f relay) :=
  list.foldlRecOn f (motive := fun after => Idle relay after) (.of_eq rfl)
    fun after hafter a _ => hafter.trans (h after a)

/-! ## Pairing and the directory -/

theorem withdrawOffer_idle (hash status : String) (offer : Offer) :
    Idle relay (relay.withdrawOffer (transmit full) hash status offer) :=
  Grows.trans (.cons rfl) (transmit_idle full _ rfl)

theorem finishPair_idle (key status : String) :
    Idle relay (relay.finishPair (transmit full) key status) :=
  grows_finishPair full key status rfl (fun _ => rfl) fun _ _ _ _ => rfl

theorem cancelPairing_idle (socket : Socket) (request : String) :
    Idle relay (relay.cancelPairing (transmit full) socket request) := by
  refine Grows.trans (idle_foldl relay (fun relay hash => ?_) _)
    (idle_foldl _ (fun relay key => ?_) _)
  · unfold cancelOffer
    split
    · exact .of_eq rfl
    · split
      · exact withdrawOffer_idle ..
      · exact .of_eq rfl
  · unfold cancelPair
    split
    · exact .of_eq rfl
    · split
      · exact finishPair_idle ..
      · exact .of_eq rfl

theorem pairConfirm_idle (socket : Socket) (message : JsonObject) :
    Idle relay (relay.pairConfirm (transmit full) socket message) := by
  unfold pairConfirm
  dsimp only
  split
  · exact .of_eq rfl
  split
  · exact .of_eq rfl
  split <;> exact finishPair_idle ..

variable (platform : Platform)

theorem pairOffer_idle (socket : Socket) (id : String) :
    Idle relay (relay.pairOffer platform (transmit full) socket id) := by
  unfold pairOffer
  dsimp only
  split
  · exact transmit_idle full relay rfl
  · refine ((cancelPairing_idle full relay socket "").trans ?_).trans (transmit_idle full _ rfl)
    exact .cons rfl

theorem pairClaim_idle (socket : Socket) (id : String) (message : JsonObject) :
    Idle relay (relay.pairClaim platform (transmit full) socket id message) := by
  unfold pairClaim
  dsimp only
  split
  · exact transmit_idle full relay rfl
  split
  · exact transmit_idle full relay rfl
  · refine (((cancelPairing_idle full relay socket "").trans ?_).trans
      (transmit_idle full _ rfl)).trans (transmit_idle full _ rfl)
    exact ⟨[_, _], rfl, by simp [Event.idle]⟩

theorem pairMessage_idle (socket : Socket) (message : JsonObject) :
    Idle relay (relay.pairMessage platform (transmit full) socket message) := by
  unfold pairMessage
  dsimp only
  split
  · exact pairConfirm_idle full relay socket message
  split
  · exact .cons rfl
  split
  · exact cancelPairing_idle full relay socket _
  have hcounted : Idle relay (relay.update socket (countAttempt relay.now)) := .of_eq rfl
  refine hcounted.trans ?_
  split
  · exact transmit_idle full _ rfl
  split
  · exact pairOffer_idle full _ platform socket _
  split
  · exact pairClaim_idle full _ platform socket _ message
  · exact .cons rfl

theorem changed_idle : Idle relay (relay.changed (transmit full)) := by
  refine idle_foldl relay (fun relay socket => ?_) _
  unfold directory
  dsimp only
  split
  · exact .of_eq rfl
  · exact transmit_idle full relay rfl

theorem authMessage_idle (socket : Socket) (message : JsonObject) :
    Idle relay (relay.authMessage socket message) := by
  unfold authMessage
  dsimp only
  split <;> exact .cons rfl

theorem authCompleted_idle (socket : Socket) (principal : Principal) :
    Idle relay (relay.authCompleted (transmit full) socket principal) := by
  unfold authCompleted
  split
  · exact .of_eq rfl
  dsimp only
  have hupdate : Idle relay
      (relay.update socket fun session => { session with authenticating := false }) := .of_eq rfl
  refine hupdate.trans ?_
  split
  · refine ((cancelPairing_idle full _ socket "").trans ?_).trans (.cons rfl)
    exact Grows.trans (.cons rfl) (transmit_idle full _ rfl)
  · exact Grows.trans (.cons rfl) (transmit_idle full _ rfl)

theorem newConnection_idle : Idle relay relay.newConnection := by
  unfold newConnection
  dsimp only
  split
  · exact .cons rfl
  · exact .of_eq rfl

end

/-! ## What carries something on -/

/-- The history grows by what stands behind its entries. -/
abbrev Says (platform : Platform) (pre : RelayServer) (step : Step) (relay after : RelayServer) :
    Prop :=
  Grows (Said platform pre step) relay.log after.log

section
variable {platform : Platform} {pre : RelayServer} {step : Step} {relay after : RelayServer}

theorem Says.trans {first second third : RelayServer} (h : Says platform pre step first second)
    (h' : Says platform pre step second third) : Says platform pre step first third :=
  Grows.trans h h'

theorem Idle.speaks (h : Idle relay after) : Says platform pre step relay after :=
  h.mono fun _ => said_of_idle

theorem transmit_speaks {socket : Socket} {message : Outgoing}
    (h : Said platform pre step ⟨relay.now, .sent socket message⟩) :
    Says platform pre step relay (transmit step.full socket message relay) :=
  grows_transmit step.full trivial h

theorem speaks_loop {α : Type*} {f : RelayServer → α → RelayServer}
    (h : ∀ relay a, Says platform pre step relay (f relay a)) (list : List α)
    (relay : RelayServer) : Says platform pre step relay (list.foldl f relay) :=
  list.foldlRecOn f (motive := fun after => Says platform pre step relay after) (.of_eq rfl)
    fun after hafter a _ => hafter.trans (h after a)

/-- A response of the relay itself. -/
theorem refuse_speaks {socket : Socket} {id code : String} (hcode : code ∈ refusals) :
    Says platform pre step relay
      (transmit step.full socket (.response none id (errorObject code).json) relay) :=
  transmit_speaks ⟨code, hcode, rfl⟩

theorem registerMessage_speaks {socket : Socket} {message : JsonObject}
    (hinput : step.input = .text socket message) (htype : messageType message = "register")
    (hactive : pre.active socket = true) :
    Says platform pre step pre
      (pre.registerMessage platform (transmit step.full) socket message) := by
  unfold registerMessage
  dsimp only
  split
  · exact .cons trivial
  split
  · exact Idle.speaks ((transmit_idle step.full pre rfl).trans (.cons rfl))
  split
  · exact .cons trivial
  · refine Grows.trans ?_
      (Idle.speaks ((transmit_idle step.full _ rfl).trans (changed_idle step.full _)))
    have hregistered : ∀ after : RelayServer, after.log = pre.log →
        Says platform pre step pre (after.emit (.registered socket
          (message.value "peerId").toString (message.value "service").toString)) :=
      fun after hlog => ⟨[_], by rw [emit_log, hlog]; rfl, by
        rintro entry hentry
        obtain rfl := List.mem_singleton.1 hentry
        exact ⟨hactive, message, hinput, htype, rfl, rfl⟩⟩
    split
    · exact (hregistered _ rfl).trans (cancelPairing_idle step.full _ socket "").speaks
    · exact hregistered _ rfl

theorem connectMessage_speaks {socket : Socket} {message : JsonObject}
    (hinput : step.input = .text socket message) (htype : messageType message = "connect")
    (hactive : pre.active socket = true) (hregistered : (pre.session socket).id ≠ "") :
    Says platform pre step pre
      (pre.connectMessage platform (transmit step.full) socket message) := by
  unfold connectMessage
  dsimp only
  cases hfound : pre.target socket (message.value "peerId").toString with
  | none => exact Idle.speaks (transmit_idle step.full pre rfl)
  | some host =>
      have hmeeting : Meeting pre step "connect" socket host message :=
        ⟨hinput, htype, hactive, hregistered, hfound⟩
      have hdraw : Says platform pre step pre { pre with randoms := pre.randoms + 1 } := .of_eq rfl
      dsimp only
      rw [touch_transmit step.full hfound]
      refine (hdraw.trans (transmit_speaks ?_)).trans (transmit_speaks ?_)
      · exact ⟨rfl, rfl, message, hmeeting⟩
      · exact ⟨rfl, message, hmeeting, rfl⟩

theorem requestMessage_speaks {socket : Socket} {message : JsonObject}
    (hinput : step.input = .text socket message) (htype : messageType message = "request")
    (hactive : pre.active socket = true) (hregistered : (pre.session socket).id ≠ "") :
    Says platform pre step pre
      (pre.requestMessage platform (transmit step.full) socket message) := by
  unfold requestMessage
  dsimp only
  split
  · exact .cons trivial
  cases hfound : pre.target socket (message.value "peerId").toString with
  | none => exact refuse_speaks (by simp [refusals])
  | some host =>
      dsimp only
      split
      · exact refuse_speaks (by simp [refusals])
      · have hmeeting : Meeting pre step "request" socket host message :=
          ⟨hinput, htype, hactive, hregistered, hfound⟩
        have hrouted : Says platform pre step pre ({ pre with
            routes := pre.routes.insert (platform.uuid pre.uuids)
              ⟨socket, host, (message.value "id").toString, DateTime.addSecs pre.now 15⟩
            uuids := pre.uuids + 1 }.emit (.routed (platform.uuid pre.uuids) socket host
              (message.value "id").toString)) := .cons ⟨rfl, message, hmeeting, rfl⟩
        exact hrouted.trans (transmit_speaks ⟨rfl, rfl, message, hmeeting, rfl⟩)

theorem responseMessage_speaks {socket : Socket} {message : JsonObject}
    (hinput : step.input = .text socket message) (htype : messageType message = "response")
    (hactive : pre.active socket = true) :
    Says platform pre step pre
      (pre.responseMessage (transmit step.full) socket message) := by
  unfold responseMessage
  dsimp only
  cases hroute : pre.routes.lookup (message.value "id").toString with
  | none => exact .of_eq rfl
  | some route =>
      dsimp only
      split
      · exact .of_eq rfl
      next hhost =>
      rw [not_not] at hhost
      have herased : Says platform pre step pre { pre with
          routes := pre.routes.erase (message.value "id").toString } := .of_eq rfl
      refine herased.trans ?_
      split
      · exact transmit_speaks
          ⟨message, ⟨hinput, htype, hactive, route, hroute, rfl, hhost, rfl⟩, rfl⟩
      · exact .of_eq rfl

/-! ## Sessions and timers -/

/-- A route that ends without its host. -/
theorem dropRoute_speaks (socket : Socket) (relay : RelayServer) (key : String) :
    Says platform pre step relay (relay.dropRoute (transmit step.full) socket key) := by
  unfold dropRoute
  split
  · exact .of_eq rfl
  next route hroute =>
  split
  · have herased : Says platform pre step relay
        { relay with routes := relay.routes.erase key } := .of_eq rfl
    refine herased.trans ?_
    dsimp only
    split
    · exact refuse_speaks (by simp [refusals])
    · exact .of_eq rfl
  · exact .of_eq rfl

theorem sweepRoute_speaks (relay : RelayServer) (key : String) :
    Says platform pre step relay (relay.sweepRoute (transmit step.full) key) := by
  unfold sweepRoute
  split
  · exact .of_eq rfl
  next route hroute =>
  split
  · have herased : Says platform pre step relay
        { relay with routes := relay.routes.erase key } := .of_eq rfl
    refine herased.trans ?_
    dsimp only
    split
    · exact refuse_speaks (by simp [refusals])
    · exact .of_eq rfl
  · exact .of_eq rfl

theorem remove_speaks (socket : Socket) (relay : RelayServer) :
    Says platform pre step relay (relay.remove (transmit step.full) socket) := by
  have herased : ∀ relay : RelayServer,
      Says platform pre step relay { relay with sessions := relay.sessions.erase socket } :=
    fun relay => .of_eq rfl
  exact (((cancelPairing_idle step.full relay socket "").speaks.trans (herased _)).trans
    (speaks_loop (dropRoute_speaks socket) _ _)).trans (changed_idle step.full _).speaks

theorem sweep_speaks (relay : RelayServer) :
    Says platform pre step relay (relay.sweep (transmit step.full)) := by
  have hoffer : ∀ (relay : RelayServer) hash,
      Idle relay (relay.sweepOffer (transmit step.full) hash) := by
    intro relay hash
    unfold sweepOffer
    split
    · exact .of_eq rfl
    split
    · exact withdrawOffer_idle ..
    · exact .of_eq rfl
  have hpair : ∀ (relay : RelayServer) key,
      Idle relay (relay.sweepPair (transmit step.full) key) := by
    intro relay key
    unfold sweepPair
    split
    · exact .of_eq rfl
    split
    · exact finishPair_idle ..
    · exact .of_eq rfl
  have hsession : ∀ (relay : RelayServer) socket, Idle relay (relay.sweepSession socket) := by
    intro relay socket
    unfold sweepSession
    dsimp only
    split
    · exact .cons rfl
    · exact .of_eq rfl
  exact (Idle.speaks (((idle_foldl relay hoffer _).trans (idle_foldl _ hpair _)).trans
    (idle_foldl _ hsession _))).trans (speaks_loop sweepRoute_speaks _ _)

/-- **Behind everything that a turn says stands the message that it was given.** -/
theorem next_said (platform : Platform) (relay : RelayServer) (step : Step) :
    Says platform relay step relay (next platform relay step) := by
  unfold next turn
  cases hinput : step.input with
  | clock time => exact .of_eq rfl
  | newConnection => exact (newConnection_idle relay).speaks
  | text socket message =>
      dsimp only [RelayServer.message]
      -- A session that is gone says nothing, even when its socket still reads.
      split
      · exact .of_eq rfl
      split
      · exact (authMessage_idle relay socket message).speaks
      split
      · exact .cons trivial
      next hactive =>
      rw [not_not] at hactive
      split
      · next htype => exact registerMessage_speaks hinput htype hactive
      split
      · exact .cons trivial
      next hregistered =>
      split
      · exact (pairMessage_idle step.full relay platform socket message).speaks
      split
      · refine Idle.speaks ?_
        unfold directory
        dsimp only
        split
        · exact .of_eq rfl
        · exact transmit_idle step.full relay rfl
      split
      · next htype => exact connectMessage_speaks hinput htype hactive hregistered
      split
      · next htype => exact requestMessage_speaks hinput htype hactive hregistered
      split
      · next htype => exact responseMessage_speaks hinput htype hactive
      · exact .cons trivial
  | binary socket =>
      dsimp only
      split
      · exact .cons trivial
      · exact .of_eq rfl
  | completion socket principal =>
      exact (authCompleted_idle step.full relay socket principal).speaks
  | disconnected socket =>
      dsimp only [disconnected]
      split
      · exact remove_speaks socket relay
      · exact .of_eq rfl
  | sweep => exact sweep_speaks relay
  | stop => exact .of_eq rfl
  | rehash => exact .of_eq rfl

/-- The turn that meets `step` entered the event into the history. -/
def Enters (platform : Platform) (relay : RelayServer) (step : Step) (event : Event) : Prop :=
  ∃ new, (next platform relay step).log = new ++ relay.log ∧ event ∈ events new

/-- **Behind every entry of the history stands the turn that entered it.** -/
theorem run_entered {ok : RelayServer → Step → Prop} {trace : List (RelayServer × Step)}
    (run : (machine platform).Run ok trace relay) :
    ∀ entry ∈ relay.log, ∃ visit ∈ trace, Enters platform visit.1 visit.2 entry.event ∧
      Said platform visit.1 visit.2 entry := by
  refine run.origin (P := fun state input entry =>
    Enters platform state input entry.event ∧ Said platform state input entry) log ?_ ?_
  · rintro state ⟨time, rfl⟩
    rfl
  · intro state input
    refine (next_said platform state input).entered.mono ?_
    rintro entry ⟨⟨new, hlog, hentry⟩, hsaid⟩
    exact ⟨⟨new, hlog, List.mem_map_of_mem hentry⟩, hsaid⟩

theorem run_said {ok : RelayServer → Step → Prop} {trace : List (RelayServer × Step)}
    (run : (machine platform).Run ok trace relay) :
    ∀ entry ∈ relay.log, ∃ visit ∈ trace, Said platform visit.1 visit.2 entry := by
  intro entry hentry
  obtain ⟨visit, hvisit, -, hsaid⟩ := run_entered run entry hentry
  exact ⟨visit, hvisit, hsaid⟩

/-- What a turn entered is in the history from then on. -/
theorem Enters.mem {ok : RelayServer → Step → Prop} {trace : List (RelayServer × Step)}
    (run : (machine platform).Run ok trace relay) {visit : RelayServer × Step}
    (hvisit : visit ∈ trace) {event : Event} (h : Enters platform visit.1 visit.2 event) :
    event ∈ events relay.log := by
  induction run with
  | start => cases hvisit
  | @step trace state step run _ ih =>
      change event ∈ events (next platform state step).log
      rcases List.mem_cons.1 hvisit with rfl | hold
      · obtain ⟨new, hlog, hevent⟩ := h
        rw [hlog, mem_events_append]
        exact .inl hevent
      · obtain ⟨new, hlog⟩ := log_grows_of_next platform state step
        rw [hlog, mem_events_append]
        exact .inr (ih hold)

/-- The two sessions of a message that names the second one belong together. -/
structure Fellows (relay : RelayServer) (client host : Socket) (peerId : String) : Prop where
  apart : host ≠ client
  clientActive : relay.active client = true
  hostActive : relay.active host = true
  named : (relay.session host).id = peerId
  described : (relay.session host).descriptor.isEmpty = false
  account : (relay.session host).principal.accountId = (relay.session client).principal.accountId
  service : (relay.session host).service = (relay.session client).service

theorem Meeting.fellows {type : String} {client host : Socket} {message : JsonObject}
    (h : Meeting relay step type client host message) :
    Fellows relay client host (message.value "peerId").toString := by
  obtain ⟨hne, session, hsession, hreaches⟩ := target_spec h.found
  simp only [reaches, Bool.and_eq_true, decide_eq_true_eq, Bool.not_eq_true'] at hreaches
  obtain ⟨⟨⟨⟨hid, hlive⟩, hdescriptor⟩, haccount⟩, hservice⟩ := hreaches
  have hstored : relay.session host = session := Table.value_of_lookup hsession
  refine ⟨hne, h.active, active_iff.2 ⟨session, hsession, hlive⟩, ?_, ?_, ?_, ?_⟩
  · rw [hstored, hid]
  · rw [hstored, hdescriptor]
  · rw [hstored, haccount]
  · rw [hstored, hservice]

/-- **A request that is forwarded has the route, and the payload, of one message**: the turn
that was given the message entered the route and sent the request to the host. -/
theorem run_forwarded {ok : RelayServer → Step → Prop} {trace : List (RelayServer × Step)}
    (run : (machine platform).Run ok trace relay) {socket client : Socket}
    {route peerId : String} {payload : Json}
    (hsent : .sent socket (.request client route peerId payload) ∈ events relay.log) :
    ∃ visit ∈ trace, ∃ message, Meeting visit.1 visit.2 "request" client socket message ∧
      peerId = (visit.1.session client).id ∧ payload = message.value "payload" ∧
      Enters platform visit.1 visit.2 (.routed route client socket (message.value "id").toString) ∧
      Enters platform visit.1 visit.2 (.sent socket (.request client route peerId payload)) := by
  obtain ⟨entry, hentry, hevent⟩ := List.mem_map.1 hsent
  obtain ⟨visit, hvisit, henters, hsaid⟩ := run_entered run entry hentry
  rw [hevent] at henters
  simp only [Said, hevent] at hsaid
  obtain ⟨rfl, hname, message, hmeeting, hpayload⟩ := hsaid
  refine ⟨visit, hvisit, message, hmeeting, hname, hpayload, ?_, henters⟩
  obtain ⟨new, hlog, hnew⟩ := henters
  rcases next_routing platform visit.1 visit.2 with ⟨added, hadded, hordinary⟩ | ⟨hroutes⟩
  · -- Only ordinary events are entered where no route is opened.
    obtain rfl := List.append_cancel_right (hlog.symm.trans hadded)
    obtain ⟨other, hother, hsame⟩ := List.mem_map.1 hnew
    have hplain : other.event.ordinary = true := hordinary other hother
    rw [hsame] at hplain
    cases hplain
  · obtain ⟨last, hrouted, hlast⟩ := hroutes.log
    obtain ⟨rfl, rfl⟩ := Input.text.inj (hmeeting.input.symm.trans hroutes.input)
    rw [← List.singleton_append, ← List.append_assoc] at hrouted
    obtain rfl := List.append_cancel_right (hlog.symm.trans hrouted)
    -- The host of the route is the one that the request is sent to.
    rw [mem_events_append] at hnew
    rcases hnew with hnew | hnew
    · rcases hlast with rfl | hordinary
      · obtain ⟨rfl, -⟩ := Event.sent.inj (List.mem_singleton.1 hnew)
        refine ⟨_, hrouted, ?_⟩
        rw [mem_events_append]
        exact .inr List.mem_cons_self
      · obtain ⟨other, hother, hsame⟩ := List.mem_map.1 hnew
        have hplain := hordinary other hother
        rw [hsame] at hplain
        cases hplain
    · cases List.mem_singleton.1 hnew

/-! ## Tickets -/

theorem randoms_le_of_next (hfeasible : relay.Feasible step) :
    relay.randoms ≤ (next platform relay step).randoms := by
  refine (next_changes platform hfeasible).invariant
    (I := fun state => relay.randoms ≤ state.randoms)
    (fun state after change hstate => hstate.trans ?_) le_rfl
  have htransmit : ∀ (socket : Socket) (message : Outgoing) (relay : RelayServer),
      (transmit step.full socket message relay).randoms = relay.randoms :=
    fun socket message relay => (transmit_pairingOnly step.full socket message relay).randoms
  cases change with
  | reject | send | route | answer => simp [htransmit]
  | issue | draw => exact Nat.le_succ _
  | withdraw => exact (withdrawOffer_pairingOnly ..).randoms.ge
  | finish => exact (finishPair_pairingOnly ..).randoms.ge
  | _ => exact le_rfl

theorem mem_of_active {socket : Socket} (h : relay.active socket = true) :
    socket ∈ relay.sessions := by
  obtain ⟨session, hsession, -⟩ := active_iff.1 h
  exact Table.mem_of_lookup hsession

/-- A meeting of two sessions draws one text. -/
theorem Meeting.draws {client host : Socket} {message : JsonObject}
    (h : Meeting relay step "connect" client host message) :
    (next platform relay step).randoms = relay.randoms + 1 := by
  have hmessage : next platform relay step =
      relay.connectMessage platform (transmit step.full) client message := by
    unfold next turn
    rw [h.input]
    simp [RelayServer.message, h.typed, h.active, h.registered, mem_of_active h.active, startsWith]
  have htransmit : ∀ (socket : Socket) (message : Outgoing) (relay : RelayServer),
      (transmit step.full socket message relay).randoms = relay.randoms :=
    fun socket message relay => (transmit_pairingOnly step.full socket message relay).randoms
  rw [hmessage]
  unfold connectMessage
  simp only [h.found, touch_transmit step.full h.found, htransmit]

/-- The relay drew no text twice. -/
def Unrepeated (platform : Platform) (relay : RelayServer) : Prop :=
  ∀ i < relay.randoms, ∀ j < relay.randoms,
    (platform.random i).text = (platform.random j).text → i = j

/-- **The two ends of a ticket belong together**: who is told to connect with it is the client
that the host is told of, and both were told in the turn of the client's message. -/
theorem run_matched {trace : List (RelayServer × Step)}
    (run : (machine platform).Run Feasible trace relay) (hdistinct : Unrepeated platform relay)
    {socket host own client : Socket} {peerId name token : String} {descriptor : JsonObject}
    {expires expires' : DateTime}
    (hconnect : .sent socket (.connect host peerId token descriptor expires) ∈ events relay.log)
    (hticket : .sent own (.ticket client token name expires') ∈ events relay.log) :
    client = socket ∧ own = host ∧ ∃ visit ∈ trace, ∃ message,
      Meeting visit.1 visit.2 "connect" socket host message ∧
      peerId = (message.value "peerId").toString ∧ name = (visit.1.session socket).id ∧
      Enters platform visit.1 visit.2
        (.sent socket (.connect host peerId token descriptor expires)) ∧
      Enters platform visit.1 visit.2 (.sent host (.ticket socket token name expires')) := by
  obtain ⟨entry, hentry, hevent⟩ := List.mem_map.1 hconnect
  obtain ⟨entry', hentry', hevent'⟩ := List.mem_map.1 hticket
  obtain ⟨visit, hvisit, henters, hsaid⟩ := run_entered run entry hentry
  obtain ⟨visit', hvisit', henters', hsaid'⟩ := run_entered run entry' hentry'
  rw [hevent] at henters
  rw [hevent'] at henters'
  simp only [Said, hevent] at hsaid
  simp only [Said, hevent'] at hsaid'
  obtain ⟨rfl, message, hmeeting, rfl⟩ := hsaid
  obtain ⟨htext, rfl, message', hmeeting'⟩ := hsaid'
  -- Both were sent in the turn that drew the text.
  have hle : ∀ (relay : RelayServer) step, relay.Feasible step →
      relay.randoms ≤ (next platform relay step).randoms := fun _ _ => randoms_le_of_next
  have hlt : ∀ (relay : RelayServer) step,
      (∃ client host message, Meeting relay step "connect" client host message) →
      relay.randoms < (next platform relay step).randoms := by
    rintro relay step ⟨client, host, message, hmeeting⟩
    rw [hmeeting.draws]
    exact Nat.lt_succ_self _
  have hbelow := run.drawn_lt hle hlt
  obtain rfl := run.drawn_unique hle hlt hvisit hvisit' ⟨_, _, _, hmeeting⟩ ⟨_, _, _, hmeeting'⟩
    (hdistinct _ (hbelow _ hvisit ⟨_, _, _, hmeeting⟩) _ (hbelow _ hvisit' ⟨_, _, _, hmeeting'⟩)
      htext)
  obtain ⟨rfl, rfl⟩ := Input.text.inj (hmeeting.input.symm.trans hmeeting'.input)
  obtain rfl := Option.some.inj (hmeeting'.found.symm.trans hmeeting.found)
  exact ⟨rfl, rfl, visit, hvisit, message, hmeeting, rfl, rfl, henters, henters'⟩

/-! ## Names and routes that are stored -/

/-- The session has a name, or a descriptor. -/
def Session.Named (session : Session) : Prop :=
  session.id ≠ "" ∨ session.descriptor.isEmpty = false

/-- What the tables hold is in the history. -/
structure Recorded (relay : RelayServer) : Prop where
  sessions : ∀ socket session, relay.sessions.lookup socket = some session → session.Named →
    session.id ≠ "" ∧ .registered socket session.id session.service ∈ events relay.log
  routes : ∀ key route, relay.routes.lookup key = some route →
    .routed key route.client route.host route.id ∈ events relay.log

/-- Sessions keep their names, and routes only end. -/
theorem Recorded.frame (h : Recorded relay)
    (hsessions : ∀ socket session, after.sessions.lookup socket = some session → session.Named →
      ∃ old, relay.sessions.lookup socket = some old ∧ old.id = session.id ∧
        old.service = session.service ∧ old.descriptor = session.descriptor)
    (hroutes : ∀ key route, after.routes.lookup key = some route →
      relay.routes.lookup key = some route)
    (hlog : Grows (fun _ => True) relay.log after.log) : Recorded after := by
  obtain ⟨new, hnew, -⟩ := hlog
  refine ⟨fun socket session hsession hnamed => ?_, fun key route hroute => ?_⟩
  · obtain ⟨old, hold, hid, hservice, hdescriptor⟩ := hsessions socket session hsession hnamed
    rw [hnew, mem_events_append, ← hid, ← hservice]
    refine (h.sessions socket old hold ?_).imp_right .inr
    unfold Session.Named
    rw [hid, hdescriptor]
    exact hnamed
  · rw [hnew, mem_events_append]
    exact .inr (h.routes key route (hroutes key route hroute))

theorem Recorded.change (h : Recorded relay) (change : Change platform pre step relay after) :
    Recorded after := by
  have hclosed : ∀ {entry : Entry} {log : List Entry}, Grows (fun _ => True) log (entry :: log) :=
    .cons trivial
  have hsent : ∀ (socket : Socket) (message : Outgoing) (relay : RelayServer),
      Grows (fun _ => True) relay.log (transmit step.full socket message relay).log :=
    fun socket message relay => grows_transmit step.full trivial trivial
  have hkeep : ∀ {after : RelayServer}, after.sessions = relay.sessions →
      after.routes = relay.routes → Grows (fun _ => True) relay.log after.log → Recorded after := by
    intro after hsessions hroutes hlog
    refine h.frame (fun socket session hsession _ => ?_) (fun _ _ hroute => hroutes ▸ hroute) hlog
    exact ⟨session, hsessions ▸ hsession, rfl, rfl, rfl⟩
  -- A write that keeps the registration keeps the record of it.
  have hupdate : ∀ {socket : Socket} {f : Session → Session},
      (∀ session, (f session).id = session.id ∧ (f session).service = session.service ∧
        (f session).descriptor = session.descriptor) →
      ∀ other session, (relay.update socket f).sessions.lookup other = some session →
        session.Named → ∃ old, relay.sessions.lookup other = some old ∧ old.id = session.id ∧
          old.service = session.service ∧ old.descriptor = session.descriptor := by
    intro socket f hf other session hsession _
    rcases Table.lookup_modify_eq_some.1 hsession with ⟨rfl, old, hold, rfl⟩ | ⟨-, hold⟩
    · exact ⟨old, hold, (hf old).1.symm, (hf old).2.1.symm, (hf old).2.2.symm⟩
    · exact ⟨session, hold, rfl, rfl, rfl⟩
  cases change with
  | welcome =>
      refine h.frame (fun socket session hsession hnamed => ?_) (fun _ _ => id) (.of_eq rfl)
      rcases Table.lookup_insert_eq_some.1 hsession with ⟨rfl, rfl⟩ | ⟨-, hold⟩
      · rcases hnamed with hid | hdescriptor
        · exact absurd rfl hid
        · cases hdescriptor
      · exact ⟨session, hold, rfl, rfl, rfl⟩
  | touch socket f hkeeps =>
      exact h.frame (hupdate fun session => ⟨(hkeeps session).2.1, (hkeeps session).2.2.1,
        (hkeeps session).2.2.2.2⟩) (fun _ _ => id) (.of_eq rfl)
  | verify => exact h.frame (hupdate fun _ => ⟨rfl, rfl, rfl⟩) (fun _ _ => id) hclosed
  | reject =>
      refine h.frame ?_ (fun _ _ => ?_) ((hclosed.trans (hsent ..)).trans hclosed)
      · rw [close_sessions, transmit_sessions, emit_sessions]
        exact hupdate fun _ => ⟨rfl, rfl, rfl⟩
      · rw [close_routes, transmit_routes, emit_routes, update_routes]
        exact id
  | @register socket message state id service _ _ _ _ hid =>
      -- The event is logged with the values that are stored.
      refine ⟨fun other session hsession hnamed => ?_, fun key route hroute => ?_⟩
      · rcases Table.lookup_modify_eq_some.1 hsession with ⟨rfl, old, -, rfl⟩ | ⟨-, hold⟩
        · exact ⟨identifier_ne_empty hid, List.mem_cons_self⟩
        · exact (h.sessions other session hold hnamed).imp_right (List.mem_cons_of_mem _)
      · exact List.mem_cons_of_mem _ (h.routes key route hroute)
  | send => exact hkeep (transmit_sessions ..) (transmit_routes ..) (hsent ..)
  | claim => exact hkeep rfl rfl (Grows.trans hclosed hclosed)
  | withdraw =>
      have honly := withdrawOffer_pairingOnly
      exact hkeep (honly ..).sessions (honly ..).routes (Grows.trans hclosed (hsent ..))
  | finish =>
      have honly := finishPair_pairingOnly
      exact hkeep (honly ..).sessions (honly ..).routes
        (grows_finishPair step.full _ _ trivial (fun _ => trivial) fun _ _ _ _ => trivial)
  | @route client host message id =>
      have hemitted : Recorded ({ relay with
          routes := relay.routes.insert (platform.uuid relay.uuids)
            ⟨client, host, id, DateTime.addSecs relay.now 15⟩
          uuids := relay.uuids + 1 }.emit
            (.routed (platform.uuid relay.uuids) client host id)) := by
        refine ⟨fun socket session hsession hnamed => ?_, fun key route hroute => ?_⟩
        · exact (h.sessions socket session hsession hnamed).imp_right (List.mem_cons_of_mem _)
        · rcases Table.lookup_insert_eq_some.1 hroute with ⟨rfl, rfl⟩ | ⟨-, hold⟩
          · exact List.mem_cons_self
          · exact List.mem_cons_of_mem _ (h.routes key route hold)
      refine hemitted.frame (fun socket session hsession _ => ?_) (fun key route hroute => ?_)
        (hsent ..)
      · rw [transmit_sessions] at hsession
        exact ⟨session, hsession, rfl, rfl, rfl⟩
      · rwa [transmit_routes] at hroute
  | answer =>
      -- The route is taken before the response goes out.
      refine h.frame (fun socket session hsession _ => ?_) (fun key route hroute => ?_) (hsent ..)
      · rw [transmit_sessions] at hsession
        exact ⟨session, hsession, rfl, rfl, rfl⟩
      · rw [transmit_routes] at hroute
        exact (Table.lookup_erase_eq_some.1 hroute).2
  | discard =>
      exact h.frame (fun _ session hsession _ => ⟨session, hsession, rfl, rfl, rfl⟩)
        (fun _ _ hroute => (Table.lookup_erase_eq_some.1 hroute).2) (.of_eq rfl)
  | forget =>
      exact h.frame (fun _ session hsession _ =>
        ⟨session, (Table.lookup_erase_eq_some.1 hsession).2, rfl, rfl, rfl⟩) (fun _ _ => id)
        (.of_eq rfl)
  | stop =>
      refine h.frame (fun _ _ hsession => ?_) (fun _ _ hroute => ?_) (.of_eq rfl)
      · simp [RelayServer.stop] at hsession
      · simp [RelayServer.stop] at hroute
  | rehash hsessions hroutes =>
      refine h.frame (fun socket session hsession _ => ?_) (fun key route hroute => ?_) (.of_eq rfl)
      · exact ⟨session, (hsessions.lookup socket).trans hsession, rfl, rfl, rfl⟩
      · exact (hroutes.lookup key).trans hroute
  | refuse | close | ask | issue => exact hkeep rfl rfl hclosed
  | _ => exact hkeep rfl rfl (.of_eq rfl)

theorem run_recorded {trace : List (RelayServer × Step)}
    (run : (machine platform).Run Feasible trace relay) : Recorded relay := by
  refine run.invariant_state ?_ fun state input h hfeasible =>
    (next_changes platform hfeasible).invariant (fun _ _ change hstate => hstate.change change) h
  rintro state ⟨time, rfl⟩
  exact ⟨by simp, by simp⟩

end

end RelayServer

end ServerHost
