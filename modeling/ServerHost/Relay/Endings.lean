import ServerHost.Relay.Ledger
import ServerHost.Relay.Calm

/-!
# How routes end

A request of a live, registered client is refused at once or opens a route, and a
route ends by the response of its host, by the loss of a party or by the clock.
`Effect` says what a turn of the event loop does to the routes and which
responses it sends.
-/

namespace ServerHost

namespace RelayServer

/-! ## The end of routes -/

/-- A route that ended, with the response to its client: the host that spoke and
the result. -/
structure Ending where
  key : String
  route : Route
  reply : Option (Option Socket × Json)

def Ending.replies (ending : Ending) : List Reply :=
  match ending.reply with
  | some (host, result) => [⟨ending.route.client, host, ending.route.id, result⟩]
  | none => []

/-- A message to the socket can leave. -/
def Reachable (relay : RelayServer) (socket : Socket) : Prop :=
  relay.active socket = true ∧ socket ∉ relay.closing

/-- These routes ended, and nothing else happened to routes and responses.  A client
that can still be reached got a response. -/
structure Settles (relay after : RelayServer) (ended : List Ending) : Prop where
  uuids : relay.uuids ≤ after.uuids
  stored : ∀ ending ∈ ended, relay.routes.lookup ending.key = some ending.route
  nodup : (ended.map Ending.key).Nodup
  routes : ∀ key route, after.routes.lookup key = some route ↔
    relay.routes.lookup key = some route ∧ key ∉ ended.map Ending.key
  replies : replies after.log = ended.flatMap Ending.replies ++ RelayServer.replies relay.log
  silent : ∀ ending ∈ ended, ending.reply = none → ¬ after.Reachable ending.route.client

/-- Who can be reached before, may not be reached after, but not the other way round. -/
structure Steady (relay after : RelayServer) : Prop where
  now : after.now = relay.now
  sessions : after.sessions = relay.sessions
  deleted : after.deleted = relay.deleted
  closing : relay.closing ⊆ after.closing

namespace Steady

variable {relay first second third : RelayServer}

theorem refl (relay : RelayServer) : Steady relay relay := ⟨rfl, rfl, rfl, fun _ h => h⟩

theorem trans (h : Steady first second) (h' : Steady second third) : Steady first third :=
  ⟨h'.now.trans h.now, h'.sessions.trans h.sessions, h'.deleted.trans h.deleted,
    fun _ hclosing => h'.closing (h.closing hclosing)⟩

theorem foldl {α : Type*} {f : RelayServer → α → RelayServer}
    (h : ∀ relay a, Steady relay (f relay a)) (list : List α) (relay : RelayServer) :
    Steady relay (list.foldl f relay) :=
  list.foldlRecOn f (motive := fun after => Steady relay after) (.refl relay)
    fun after hafter a _ => hafter.trans (h after a)

theorem transmit (full : Socket → Outgoing → Bool) (socket : Socket) (message : Outgoing)
    (relay : RelayServer) : Steady relay (RelayServer.transmit full socket message relay) :=
  ⟨transmit_now .., transmit_sessions .., transmit_deleted .., closing_transmit ..⟩

theorem reachable (h : Steady first second) {socket : Socket} (hreach : second.Reachable socket) :
    first.Reachable socket := by
  refine ⟨?_, fun hclosing => hreach.2 (h.closing hclosing)⟩
  have hactive := hreach.1
  rwa [active, h.sessions, h.now] at hactive

end Steady

namespace Settles

variable {relay first second third : RelayServer} {ended before later : List Ending}

theorem of_calm (h : Calm first second) : Settles first second [] where
  uuids := h.uuids
  stored := by simp
  nodup := by simp
  routes := by simp [h.routes]
  replies := by simp [h.replies]
  silent := by simp

theorem trans (h : Settles first second before) (h' : Settles second third later)
    (hreach : ∀ ending ∈ before, third.Reachable ending.route.client →
      second.Reachable ending.route.client) : Settles first third (later ++ before) where
  uuids := h.uuids.trans h'.uuids
  stored ending hending := by
    rcases List.mem_append.1 hending with hlater | hbefore
    · exact ((h.routes _ _).1 (h'.stored ending hlater)).1
    · exact h.stored ending hbefore
  nodup := by
    rw [List.map_append, List.nodup_append']
    refine ⟨h'.nodup, h.nodup, fun key hkey hold => ?_⟩
    obtain ⟨ending, hending, rfl⟩ := List.mem_map.1 hkey
    exact ((h.routes _ _).1 (h'.stored ending hending)).2 hold
  routes key route := by
    rw [h'.routes, h.routes, List.map_append, List.mem_append, not_or]
    tauto
  replies := by
    rw [h'.replies, h.replies, List.flatMap_append, List.append_assoc]
  silent ending hending hnone hreachable := by
    rcases List.mem_append.1 hending with hlater | hbefore
    · exact h'.silent ending hlater hnone hreachable
    · exact h.silent ending hbefore hnone (hreach ending hbefore hreachable)

end Settles

/-- A destroyed socket has no session. -/
def Buried (relay : RelayServer) : Prop := ∀ socket ∈ relay.deleted, socket ∉ relay.sessions

theorem not_reachable_of_not_mem {relay : RelayServer} {socket : Socket}
    (h : socket ∉ relay.sessions) : ¬ relay.Reachable socket := by
  rintro ⟨hactive, -⟩
  obtain ⟨session, hsession, -⟩ := active_iff.1 hactive
  exact h (Table.mem_of_lookup hsession)

section
variable {relay : RelayServer} {full : Socket → Outgoing → Bool}

theorem settles_discard {key : String} {route : Route}
    (hroute : relay.routes.lookup key = some route) (hgone : ¬ relay.Reachable route.client) :
    Settles relay { relay with routes := relay.routes.erase key } [⟨key, route, none⟩] where
  uuids := le_rfl
  stored := by simpa using hroute
  nodup := by simp
  routes other found := by
    rw [Table.lookup_erase_eq_some]
    simp [and_comm]
  replies := by simp [Ending.replies]
  silent := by
    simp only [List.mem_singleton, forall_eq]
    exact fun _ => hgone

/-- The client of an ended route gets this response, or cannot be reached. -/
theorem settles_answer {key : String} {route : Route} {host : Option Socket} {result : Json}
    (hroute : relay.routes.lookup key = some route) (hburied : Buried relay) :
    ∃ reply, (reply = none ∨ reply = some (host, result)) ∧
      Settles relay (transmit full route.client (.response host route.id result)
        { relay with routes := relay.routes.erase key }) [⟨key, route, reply⟩] := by
  unfold transmit
  split
  · next hsilent =>
      refine ⟨none, .inl rfl, settles_discard hroute ?_⟩
      rcases hsilent with hclosing | hdeleted
      · exact fun hreach => hreach.2 hclosing
      · exact not_reachable_of_not_mem (hburied _ hdeleted)
  have herase : ∀ other found, (relay.routes.erase key).lookup other = some found ↔
      relay.routes.lookup other = some found ∧ other ∉ [key] := by
    intro other found
    rw [Table.lookup_erase_eq_some]
    simp [and_comm]
  split
  · refine ⟨none, .inl rfl, le_rfl, by simpa using hroute, by simp, herase, ?_, ?_⟩
    · simp [RelayServer.close, RelayServer.replies, Event.reply, Ending.replies]
    · simp [Reachable]
  · refine ⟨some (host, result), .inr rfl, le_rfl, by simpa using hroute, by simp, herase, ?_, ?_⟩
    · simp [RelayServer.replies, Event.reply, Ending.replies]
    · simp

/-- None of these routes ended by a host's own response. -/
def Hostless (ended : List Ending) : Prop :=
  ∀ ending ∈ ended, ∀ host result, ending.reply ≠ some (some host, result)

theorem dropRoute_settles {socket : Socket} (key : String) (hburied : Buried relay)
    (hgone : socket ∉ relay.sessions) :
    ∃ ended, Settles relay (relay.dropRoute (transmit full) socket key) ended ∧ Hostless ended := by
  unfold dropRoute
  cases hroute : relay.routes.lookup key with
  | none => exact ⟨[], .of_calm (.refl relay), by simp [Hostless]⟩
  | some route =>
      dsimp only
      split
      · split
        · obtain ⟨reply, hreply, hsettles⟩ := @settles_answer relay full key route none
            (errorObject "host_offline").json hroute hburied
          refine ⟨_, hsettles, ?_⟩
          rcases hreply with rfl | rfl <;> simp [Hostless]
        · next hsilent =>
            refine ⟨_, settles_discard hroute ?_, by simp [Hostless]⟩
            rw [not_and_or] at hsilent
            rcases hsilent with hdead | hself
            · refine not_reachable_of_not_mem (hburied _ ?_)
              simpa [alive] using hdead
            · rw [not_not.1 hself]
              exact not_reachable_of_not_mem hgone
      · exact ⟨[], .of_calm (.refl relay), by simp [Hostless]⟩

theorem sweepRoute_settles (key : String) (hburied : Buried relay) :
    ∃ ended, Settles relay (relay.sweepRoute (transmit full) key) ended ∧ Hostless ended := by
  unfold sweepRoute
  cases hroute : relay.routes.lookup key with
  | none => exact ⟨[], .of_calm (.refl relay), by simp [Hostless]⟩
  | some route =>
      dsimp only
      split
      · split
        · obtain ⟨reply, hreply, hsettles⟩ := @settles_answer relay full key route none
            (errorObject "timeout").json hroute hburied
          refine ⟨_, hsettles, ?_⟩
          rcases hreply with rfl | rfl <;> simp [Hostless]
        · next hdead =>
            refine ⟨_, settles_discard hroute (not_reachable_of_not_mem (hburied _ ?_)),
              by simp [Hostless]⟩
            simpa [alive] using hdead
      · exact ⟨[], .of_calm (.refl relay), by simp [Hostless]⟩

theorem dropRoute_steady (socket : Socket) (relay : RelayServer) (key : String) :
    Steady relay (relay.dropRoute (transmit full) socket key) := by
  unfold dropRoute
  cases relay.routes.lookup key with
  | none => exact .refl relay
  | some route =>
      have herase : Steady relay { relay with routes := relay.routes.erase key } :=
        ⟨rfl, rfl, rfl, fun _ h => h⟩
      dsimp only
      split
      · split
        · exact herase.trans (.transmit full _ _ _)
        · exact herase
      · exact .refl relay

theorem sweepRoute_steady (relay : RelayServer) (key : String) :
    Steady relay (relay.sweepRoute (transmit full) key) := by
  unfold sweepRoute
  cases relay.routes.lookup key with
  | none => exact .refl relay
  | some route =>
      have herase : Steady relay { relay with routes := relay.routes.erase key } :=
        ⟨rfl, rfl, rfl, fun _ h => h⟩
      dsimp only
      split
      · split
        · exact herase.trans (.transmit full _ _ _)
        · exact herase
      · exact .refl relay

theorem directory_steady (relay : RelayServer) (socket : Socket) :
    Steady relay (relay.directory (transmit full) socket) := by
  unfold directory
  dsimp only
  split
  · exact .refl relay
  · exact .transmit full _ _ _

/-- Rounds that end routes, over all keys. -/
theorem settles_foldl {round : RelayServer → String → RelayServer} {I : RelayServer → Prop}
    (hsteady : ∀ relay key, Steady relay (round relay key))
    (hkeep : ∀ relay after, Steady relay after → I relay → I after)
    (hround : ∀ relay key, I relay → ∃ ended, Settles relay (round relay key) ended ∧
      Hostless ended) (keys : List String) (h : I relay) :
    ∃ ended, Settles relay (keys.foldl round relay) ended ∧ Hostless ended := by
  induction keys generalizing relay with
  | nil => exact ⟨[], .of_calm (.refl relay), by simp [Hostless]⟩
  | cons key rest ih =>
      obtain ⟨first, hfirst, hnone⟩ := hround relay key h
      obtain ⟨others, hothers, hnone'⟩ := ih (hkeep _ _ (hsteady relay key) h)
      refine ⟨others ++ first, hfirst.trans hothers fun _ _ =>
        (Steady.foldl hsteady rest _).reachable, fun ending hending => ?_⟩
      exact (List.mem_append.1 hending).elim (hnone' ending) (hnone ending)

theorem Steady.buried {first second : RelayServer} (h : Steady first second)
    (hburied : Buried first) : Buried second := by
  intro socket hsocket
  rw [h.sessions]
  rw [h.deleted] at hsocket
  exact hburied socket hsocket

end

/-! ## A turn of the event loop -/

/-- The message is a request of a live, registered client. -/
structure Asks (relay : RelayServer) (step : Step) (client : Socket) (message : JsonObject) :
    Prop where
  input : step.input = .text client message
  type : messageType message = "request"
  active : relay.active client = true
  registered : (relay.session client).id ≠ ""

/-- The response of a host to a route that it has. -/
def Speaks (step : Step) (ended : List Ending) : Prop :=
  ∀ ending ∈ ended, ∀ host result, ending.reply = some (some host, result) →
    ending.route.host = host ∧ ∃ message, step.input = .text host message ∧
      messageType message = "response" ∧ (message.value "id").toString = ending.key ∧
      message.value "result" = result

/-- What a turn does to the routes and which responses it sends. -/
inductive Effect (platform : Platform) (relay : RelayServer) (step : Step) (after : RelayServer) :
    Prop
  | settle (ended : List Ending) : Settles relay after ended → Speaks step ended →
      Effect platform relay step after
  | refuse {client : Socket} {message : JsonObject} (result : Json) :
      Asks relay step client message →
      after.routes = relay.routes → relay.uuids ≤ after.uuids →
      replies after.log =
        ⟨client, none, (message.value "id").toString, result⟩ :: replies relay.log →
      Effect platform relay step after
  | accept {client host : Socket} {message : JsonObject} : Asks relay step client message →
      relay.target client (message.value "peerId").toString = some host →
      relay.openRoutes client < 32 → relay.routes.keys.length < 1024 →
      after.routes = relay.routes.insert (platform.uuid relay.uuids)
        ⟨client, host, (message.value "id").toString, DateTime.addSecs relay.now 15⟩ →
      after.uuids = relay.uuids + 1 → replies after.log = replies relay.log →
      Effect platform relay step after

section
variable {platform : Platform} {relay after : RelayServer} {step : Step}

theorem Effect.of_calm (h : Calm relay after) : Effect platform relay step after :=
  .settle [] (.of_calm h) (by simp [Speaks])

theorem Effect.of_hostless {ended : List Ending} (h : Settles relay after ended)
    (hnone : Hostless ended) : Effect platform relay step after :=
  .settle ended h fun ending hending host result hreply =>
    absurd hreply (hnone ending hending host result)

theorem requestMessage_effect {socket : Socket} {message : JsonObject}
    (hasks : Asks relay step socket message) : Effect platform relay step
      (relay.requestMessage platform (transmit step.full) socket message) := by
  have hrefuse : ∀ result, Effect platform relay step (transmit step.full socket
      (.response none (message.value "id").toString result) relay) := by
    intro result
    unfold transmit
    split
    · exact .of_calm (.refl relay)
    split
    · exact .of_calm (.close socket relay)
    · exact .refuse result hasks rfl le_rfl (by simp [replies, Event.reply])
  unfold requestMessage
  dsimp only
  split
  · exact .of_calm (.close socket relay)
  cases htarget : relay.target socket (message.value "peerId").toString with
  | none => exact hrefuse _
  | some host =>
      dsimp only
      split
      · exact hrefuse _
      · next hroom =>
          rw [not_or, not_le, not_le] at hroom
          refine .accept hasks htarget hroom.1 hroom.2 (transmit_routes ..)
            (transmit_pairingOnly ..).uuids ((Calm.transmit step.full host rfl _).replies.trans ?_)
          simp [replies, Event.reply]

theorem responseMessage_effect {socket : Socket} {message : JsonObject} (hburied : Buried relay)
    (hinput : step.input = .text socket message) (htype : messageType message = "response") :
    Effect platform relay step (relay.responseMessage (transmit step.full) socket message) := by
  unfold responseMessage
  dsimp only
  cases hroute : relay.routes.lookup (message.value "id").toString with
  | none => exact .of_calm (.refl relay)
  | some route =>
      dsimp only
      split
      · exact .of_calm (.refl relay)
      · next hhost =>
          rw [not_not] at hhost
          subst hhost
          split
          · obtain ⟨reply, hreply, hsettles⟩ := @settles_answer relay step.full _ route
              (some route.host) (message.value "result") hroute hburied
            refine .settle _ hsettles fun ending hending host result hsome => ?_
            obtain rfl := List.mem_singleton.1 hending
            rcases hreply with rfl | rfl
            · cases hsome
            · cases hsome
              exact ⟨rfl, message, hinput, htype, rfl, rfl⟩
          -- the client is gone or inactive: the route ends unanswered
          · next hsilent =>
              refine .of_hostless (settles_discard hroute ?_) (by simp [Hostless])
              rw [not_and_or] at hsilent
              rcases hsilent with hdead | hinactive
              · refine not_reachable_of_not_mem (hburied _ ?_)
                simpa [alive] using hdead
              · exact fun hreach => hinactive hreach.1

theorem remove_effect {socket : Socket} (hburied : Buried relay) :
    Effect platform relay step (relay.remove (transmit step.full) socket) := by
  let first := relay.cancelPairing (transmit step.full) socket ""
  let second := { first with sessions := first.sessions.erase socket }
  let third := second.routes.keys.foldl (dropRoute (transmit step.full) socket) second
  have honly := cancelPairing_pairingOnly step.full socket "" relay
  have hsecond : Calm relay second :=
    (cancelPairing_calm step.full socket "" relay).trans ⟨rfl, rfl, le_rfl⟩
  -- the session leaves before its routes are dropped, so no ending reaches it
  have hgone : socket ∉ second.sessions := by simp [second, AList.mem_erase]
  have hburied' : Buried second := by
    intro other hother hmem
    have hdeleted : other ∈ relay.deleted := by rwa [← honly.deleted]
    refine hburied other hdeleted ?_
    rw [← honly.sessions]
    exact (AList.mem_erase.1 hmem).2
  obtain ⟨ended, hended, hnone⟩ : ∃ ended, Settles second third ended ∧ Hostless ended := by
    refine @settles_foldl second _ (fun relay => Buried relay ∧ socket ∉ relay.sessions)
      (dropRoute_steady socket) (fun _ _ hsteady h => ⟨hsteady.buried h.1, ?_⟩)
      (fun _ key h => dropRoute_settles key h.1 h.2) second.routes.keys ⟨hburied', hgone⟩
    rw [hsteady.sessions]
    exact h.2
  have hfourth : Calm third { third.changed (transmit step.full) with
      deleted := socket :: (third.changed (transmit step.full)).deleted } :=
    (changed_calm step.full third).trans ⟨rfl, rfl, le_rfl⟩
  have hsteady : Steady third (third.changed (transmit step.full)) :=
    Steady.foldl directory_steady _ _
  have hall := ((Settles.of_calm hsecond).trans hended (by simp)).trans (.of_calm hfourth)
    fun ending _ hreach => hsteady.reachable hreach
  simp only [List.nil_append, List.append_nil] at hall
  exact .of_hostless hall hnone

theorem sweepSession_calm (relay : RelayServer) (socket : Socket) :
    Calm relay (relay.sweepSession socket) := by
  unfold sweepSession
  dsimp only
  split
  · exact .close socket relay
  · exact .refl relay

theorem sweepOffer_calm (full : Socket → Outgoing → Bool) (relay : RelayServer) (hash : String) :
    Calm relay (relay.sweepOffer (transmit full) hash) := by
  unfold sweepOffer
  cases relay.offers.lookup hash with
  | none => exact .refl relay
  | some offer =>
      dsimp only
      split
      · exact withdrawOffer_calm ..
      · exact .refl relay

theorem sweepPair_calm (full : Socket → Outgoing → Bool) (relay : RelayServer) (key : String) :
    Calm relay (relay.sweepPair (transmit full) key) := by
  unfold sweepPair
  cases relay.pairs.lookup key with
  | none => exact .refl relay
  | some pair =>
      dsimp only
      split
      · exact finishPair_calm ..
      · exact .refl relay

theorem PairingOnly.buried {first second : RelayServer} (h : PairingOnly first second)
    (hburied : Buried first) : Buried second := by
  intro socket hsocket
  rw [h.sessions]
  rw [h.deleted] at hsocket
  exact hburied socket hsocket

theorem sweepOffer_buried (full : Socket → Outgoing → Bool) (relay : RelayServer) (hash : String)
    (h : Buried relay) : Buried (relay.sweepOffer (transmit full) hash) := by
  unfold sweepOffer
  cases relay.offers.lookup hash with
  | none => exact h
  | some offer =>
      dsimp only
      split
      · exact (withdrawOffer_pairingOnly ..).buried h
      · exact h

theorem sweepPair_buried (full : Socket → Outgoing → Bool) (relay : RelayServer) (key : String)
    (h : Buried relay) : Buried (relay.sweepPair (transmit full) key) := by
  unfold sweepPair
  cases relay.pairs.lookup key with
  | none => exact h
  | some pair =>
      dsimp only
      split
      · exact (finishPair_pairingOnly ..).buried h
      · exact h

theorem sweepSession_buried (relay : RelayServer) (socket : Socket) (h : Buried relay) :
    Buried (relay.sweepSession socket) := by
  unfold sweepSession
  dsimp only
  split <;> exact h

theorem buried_foldl {α : Type*} {f : RelayServer → α → RelayServer}
    (hf : ∀ relay a, Buried relay → Buried (f relay a)) (list : List α) (h : Buried relay) :
    Buried (list.foldl f relay) :=
  list.foldlRecOn f (motive := Buried) h fun after hafter a _ => hf after a hafter

theorem sweep_effect (hburied : Buried relay) :
    Effect platform relay step (relay.sweep (transmit step.full)) := by
  let first := relay.offers.keys.foldl (sweepOffer (transmit step.full)) relay
  let second := first.pairs.keys.foldl (sweepPair (transmit step.full)) first
  let third := second.sessions.keys.foldl sweepSession second
  have hcalm : Calm relay third :=
    ((Calm.foldl (sweepOffer_calm step.full) _ relay).trans
      (Calm.foldl (sweepPair_calm step.full) _ _)).trans (Calm.foldl sweepSession_calm _ _)
  have hburied' : Buried third :=
    buried_foldl sweepSession_buried _ (buried_foldl (sweepPair_buried step.full) _
      (buried_foldl (sweepOffer_buried step.full) _ hburied))
  obtain ⟨ended, hended, hnone⟩ := @settles_foldl third _ Buried sweepRoute_steady
    (fun _ _ hsteady h => hsteady.buried h) (fun _ key h => @sweepRoute_settles _ step.full key h)
    third.routes.keys hburied'
  exact .of_hostless ((Settles.of_calm hcalm).trans hended (by simp)) (by simpa using hnone)

theorem stop_settles (relay : RelayServer) :
    Settles relay relay.stop (relay.routes.entries.map fun entry => ⟨entry.1, entry.2, none⟩) where
  uuids := le_rfl
  stored ending hending := by
    obtain ⟨entry, hentry, rfl⟩ := List.mem_map.1 hending
    exact Table.lookup_of_mem_entries hentry
  nodup := by
    rw [List.map_map]
    exact relay.routes.nodupKeys
  routes key route := by
    simp only [stop, AList.lookup_empty, reduceCtorEq, false_iff, not_and, not_not]
    intro hroute
    rw [List.map_map]
    exact AList.mem_keys.1 (Table.mem_of_lookup hroute)
  replies := by
    rw [List.flatMap_map]
    have hnone : ∀ entries : List (Sigma fun _ : String => Route),
        entries.flatMap (fun entry => (⟨entry.1, entry.2, none⟩ : Ending).replies) = [] := by
      simp [Ending.replies]
    rw [hnone]
    rfl
  silent ending _ _ := not_reachable_of_not_mem (by simp [stop])

/-- **What one turn of the event loop does to the requests.** -/
theorem next_effect (hburied : Buried relay) (hfeasible : relay.Feasible step) :
    Effect platform relay step (next platform relay step) := by
  unfold next turn
  cases hinput : step.input with
  | clock time => exact .of_calm ⟨rfl, rfl, le_rfl⟩
  | newConnection => exact .of_calm (newConnection_calm relay)
  | text socket message =>
      dsimp only [RelayServer.message]
      split
      · exact .of_calm (.refl relay)
      split
      · exact .of_calm (authMessage_calm socket message relay)
      split
      · exact .of_calm (.close socket relay)
      next hactive =>
      split
      · exact .of_calm (registerMessage_calm platform step.full socket message relay)
      split
      · exact .of_calm (.close socket relay)
      next hid =>
      split
      · exact .of_calm (pairMessage_calm platform step.full socket message relay)
      split
      · exact .of_calm (directory_calm step.full relay socket)
      split
      · exact .of_calm (connectMessage_calm platform step.full socket message relay)
      split
      · next htype => exact requestMessage_effect ⟨hinput, htype, not_not.1 hactive, hid⟩
      split
      · next htype => exact responseMessage_effect hburied hinput htype
      · exact .of_calm (.close socket relay)
  | binary socket =>
      dsimp only
      split
      · exact .of_calm (.close socket relay)
      · exact .of_calm (.refl relay)
  | completion socket principal =>
      exact .of_calm (authCompleted_calm step.full socket principal relay)
  | disconnected socket =>
      dsimp only [disconnected]
      split
      · exact remove_effect hburied
      · exact .of_calm (.refl relay)
  | sweep => exact sweep_effect hburied
  | stop =>
      -- `stop` clears the routes and answers none of them.
      refine .of_hostless (stop_settles relay) fun ending hending host result hreply => ?_
      obtain ⟨entry, -, rfl⟩ := List.mem_map.1 hending
      cases hreply
  | rehash sessions routes offers pairs =>
      -- The routes are the same, in another order.
      simp only [Feasible, hinput] at hfeasible
      have hsettles : Settles relay { relay with
          sessions := sessions, routes := routes, offers := offers, pairs := pairs } [] :=
        ⟨le_rfl, by simp, by simp, by simp [hfeasible.2.1.lookup], by simp, by simp⟩
      exact .of_hostless hsettles (by simp [Hostless])

end

end RelayServer

end ServerHost
