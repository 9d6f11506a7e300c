import ServerHost.Relay.Turn

/-!
# Handlers that leave the routes alone

All but four handlers of the relay neither touch the routes nor answer a request.
`Calm` says this of two states, and there is one lemma for each function.
-/

namespace ServerHost

namespace RelayServer

/-! ## Replies -/

/-- A response, as it was sent. -/
structure Reply where
  client : Socket
  host : Option Socket
  id : String
  result : Json

def Event.reply : Event → Option Reply
  | .sent client (.response host id result) => some ⟨client, host, id, result⟩
  | _ => none

/-- The responses of a history, newest first. -/
def replies (log : List Entry) : List Reply := log.filterMap fun entry => entry.event.reply

/-- No route and no response comes or goes. -/
structure Calm (relay after : RelayServer) : Prop where
  routes : after.routes = relay.routes
  replies : replies after.log = RelayServer.replies relay.log
  uuids : relay.uuids ≤ after.uuids

namespace Calm

variable {relay first second third : RelayServer}

theorem refl (relay : RelayServer) : Calm relay relay := ⟨rfl, rfl, le_rfl⟩

theorem trans (h : Calm first second) (h' : Calm second third) : Calm first third :=
  ⟨h'.routes.trans h.routes, h'.replies.trans h.replies, h.uuids.trans h'.uuids⟩

theorem foldl {α : Type*} {f : RelayServer → α → RelayServer}
    (h : ∀ relay a, Calm relay (f relay a)) (list : List α) (relay : RelayServer) :
    Calm relay (list.foldl f relay) :=
  list.foldlRecOn f (motive := fun after => Calm relay after) (.refl relay)
    fun after hafter a _ => hafter.trans (h after a)

theorem emit {event : Event} (h : event.reply = none) (relay : RelayServer) :
    Calm relay (relay.emit event) :=
  ⟨rfl, by simp [RelayServer.replies, h], le_rfl⟩

/-- One entry of the history besides what is not looked at here. -/
theorem written {after : RelayServer} {entry : Entry} (h : entry.event.reply = none)
    (hlog : after.log = entry :: relay.log) (hroutes : after.routes = relay.routes)
    (huuids : relay.uuids ≤ after.uuids) : Calm relay after :=
  ⟨hroutes, by simp [RelayServer.replies, hlog, h], huuids⟩

theorem close (socket : Socket) (relay : RelayServer) : Calm relay (relay.close socket) :=
  ⟨rfl, by simp [RelayServer.close, RelayServer.replies, Event.reply], le_rfl⟩

theorem update (socket : Socket) (f : Session → Session) (relay : RelayServer) :
    Calm relay (relay.update socket f) := ⟨rfl, rfl, le_rfl⟩

theorem transmit (full : Socket → Outgoing → Bool) (socket : Socket) {message : Outgoing}
    (h : (Event.sent socket message).reply = none) (relay : RelayServer) :
    Calm relay (RelayServer.transmit full socket message relay) := by
  unfold RelayServer.transmit
  split
  · exact .refl relay
  split
  · exact close socket relay
  · exact emit h relay

end Calm

/-! ## The handlers -/

section
variable (platform : Platform) (full : Socket → Outgoing → Bool)

theorem withdrawOffer_calm (hash status : String) (offer : Offer) (relay : RelayServer) :
    Calm relay (relay.withdrawOffer (transmit full) hash status offer) := by
  have hsettled : Calm relay ({ relay with offers := relay.offers.erase hash }.emit
      (.settled (.offer offer.issue) status)) := .written rfl rfl rfl le_rfl
  exact hsettled.trans (.transmit full _ rfl _)

theorem finishPair_calm (key status : String) (relay : RelayServer) :
    Calm relay (relay.finishPair (transmit full) key status) := by
  unfold finishPair
  cases relay.pairs.lookup key with
  | none => exact .refl relay
  | some pair =>
      have herase : Calm relay
          ({ relay with pairs := relay.pairs.erase key }.emit (.settled (.pair key) status)) :=
        .written rfl rfl rfl le_rfl
      dsimp only
      split <;> split
      · exact (herase.trans (.transmit full _ rfl _)).trans (.transmit full _ rfl _)
      · exact herase.trans (.transmit full _ rfl _)
      · exact herase.trans (.transmit full _ rfl _)
      · exact herase

theorem cancelOffer_calm (socket : Socket) (request : String) (relay : RelayServer)
    (hash : String) : Calm relay (relay.cancelOffer (transmit full) socket request hash) := by
  unfold cancelOffer
  cases relay.offers.lookup hash with
  | none => exact .refl relay
  | some offer =>
      dsimp only
      split
      · exact withdrawOffer_calm ..
      · exact .refl relay

theorem cancelPair_calm (socket : Socket) (request : String) (relay : RelayServer)
    (key : String) : Calm relay (relay.cancelPair (transmit full) socket request key) := by
  unfold cancelPair
  cases relay.pairs.lookup key with
  | none => exact .refl relay
  | some pair =>
      dsimp only
      split
      · exact finishPair_calm ..
      · exact .refl relay

theorem cancelPairing_calm (socket : Socket) (request : String) (relay : RelayServer) :
    Calm relay (relay.cancelPairing (transmit full) socket request) :=
  (Calm.foldl (cancelOffer_calm full socket request) _ relay).trans
    (Calm.foldl (cancelPair_calm full socket request) _ _)

theorem pairConfirm_calm (socket : Socket) (message : JsonObject) (relay : RelayServer) :
    Calm relay (relay.pairConfirm (transmit full) socket message) := by
  unfold pairConfirm
  dsimp only
  cases relay.pairs.lookup (message.value "pairingId").toString with
  | none => exact .refl relay
  | some pair =>
      dsimp only
      split
      · exact .refl relay
      split
      · exact finishPair_calm ..
      · exact finishPair_calm ..

theorem pairOffer_calm (socket : Socket) (id : String) (relay : RelayServer) :
    Calm relay (relay.pairOffer platform (transmit full) socket id) := by
  unfold pairOffer
  dsimp only
  split
  · exact .transmit full _ rfl _
  · refine ((cancelPairing_calm full socket "" relay).trans ?_).trans (.transmit full _ rfl _)
    exact .written rfl rfl rfl le_rfl

theorem pairClaim_calm (socket : Socket) (id : String) (message : JsonObject)
    (relay : RelayServer) :
    Calm relay (relay.pairClaim platform (transmit full) socket id message) := by
  unfold pairClaim
  dsimp only
  cases relay.offers.lookup (platform.sha256 (toLatin1 (message.value "code").toString)) with
  | none => exact .transmit full _ rfl _
  | some offer =>
      dsimp only
      split
      · exact .transmit full _ rfl _
      · refine (((cancelPairing_calm full socket "" relay).trans ?_).trans
          (.transmit full _ rfl _)).trans (.transmit full _ rfl _)
        exact ⟨rfl, by simp [replies, Event.reply], Nat.le_succ _⟩

theorem pairMessage_calm (socket : Socket) (message : JsonObject) (relay : RelayServer) :
    Calm relay (relay.pairMessage platform (transmit full) socket message) := by
  unfold pairMessage
  dsimp only
  split
  · exact pairConfirm_calm ..
  split
  · exact .close socket relay
  split
  · exact cancelPairing_calm ..
  refine (Calm.update socket (countAttempt relay.now) relay).trans ?_
  split
  · exact .transmit full _ rfl _
  split
  · exact pairOffer_calm ..
  split
  · exact pairClaim_calm ..
  · exact .close socket _

theorem directory_calm (relay : RelayServer) (socket : Socket) :
    Calm relay (relay.directory (transmit full) socket) := by
  unfold directory
  dsimp only
  split
  · exact .refl relay
  · exact .transmit full _ rfl _

theorem changed_calm (relay : RelayServer) : Calm relay (relay.changed (transmit full)) :=
  Calm.foldl (directory_calm full) _ relay

theorem authMessage_calm (socket : Socket) (message : JsonObject) (relay : RelayServer) :
    Calm relay (relay.authMessage socket message) := by
  unfold authMessage
  dsimp only
  split
  · exact .close socket relay
  · exact (Calm.update socket _ relay).trans (.emit rfl _)

theorem authCompleted_calm (socket : Socket) (principal : Principal) (relay : RelayServer) :
    Calm relay (relay.authCompleted (transmit full) socket principal) := by
  unfold authCompleted
  cases relay.sessions.lookup socket with
  | none => exact .refl relay
  | some state =>
      dsimp only
      have hupdate := Calm.update socket
        (fun session => { session with authenticating := false }) relay
      refine hupdate.trans ?_
      split
      · refine ((cancelPairing_calm full socket "" _).trans ?_).trans (.close socket _)
        exact ((Calm.update socket _ _).trans (.emit rfl _)).trans (.transmit full _ rfl _)
      · exact ((Calm.update socket _ _).trans (.emit rfl _)).trans (.transmit full _ rfl _)

theorem registerMessage_calm (socket : Socket) (message : JsonObject) (relay : RelayServer) :
    Calm relay (relay.registerMessage platform (transmit full) socket message) := by
  unfold registerMessage
  dsimp only
  split
  · exact .close socket relay
  split
  · exact (Calm.transmit full socket rfl relay).trans (.close socket _)
  split
  · exact .close socket relay
  · refine Calm.trans ?_ ((Calm.transmit full _ rfl _).trans (changed_calm full _))
    split
    · exact ((Calm.update socket _ relay).trans (.emit rfl _)).trans (cancelPairing_calm ..)
    · exact (Calm.update socket _ relay).trans (.emit rfl _)

theorem connectMessage_calm (socket : Socket) (message : JsonObject) (relay : RelayServer) :
    Calm relay (relay.connectMessage platform (transmit full) socket message) := by
  unfold connectMessage
  dsimp only
  cases htarget : relay.target socket (message.value "peerId").toString with
  | none => exact .transmit full _ rfl _
  | some host =>
      have hdraw : Calm relay { relay with randoms := relay.randoms + 1 } := ⟨rfl, rfl, le_rfl⟩
      dsimp only
      rw [touch_transmit full htarget]
      exact (hdraw.trans (.transmit full _ rfl _)).trans (.transmit full _ rfl _)

theorem newConnection_calm (relay : RelayServer) : Calm relay relay.newConnection := by
  unfold newConnection
  dsimp only
  split
  · exact .written rfl rfl rfl le_rfl
  · exact ⟨rfl, rfl, le_rfl⟩

end

end RelayServer

end ServerHost
