import ServerHost.Relay.Refusal

/-!
# Sends that disconnect

A socket that fails while it is written to runs its disconnected handler before
`send` returns.  `deliver` is a `send` of that kind: it runs `remove` on the
failing socket, and the sends of that `remove` may fail in turn.  The handlers
are those of `Relay/Handlers`, given a `send` of that kind.

## Strategy

Between two events every socket that a route, an offer or a pair names should be
a key of `sessions`.  Inside an event this is false: `remove` takes the session
away before the routes.  What every nested call keeps is relative.  `Purges`
says that the tables only shrink, and that a socket whose session disappeared is
named by nothing any more.  It is transitive, and every `send` satisfies it
(`deliver_purges`).
-/

namespace ServerHost

namespace RelayServer

/-- What becomes of a message given to `send`. -/
inductive Fate where
  | taken
  /-- The queue is full: the socket is closed, and its handler runs later. -/
  | closed
  /-- The socket fails: its handler runs before `send` returns. -/
  | failed
  deriving DecidableEq

/-- What becomes of each message, in the state that sends it. -/
abbrev Fates := RelayServer → Socket → Outgoing → Fate

/-- `send`, with what a failing socket runs. -/
def attempt (fates : Fates) (handler : Socket → RelayServer → RelayServer) : Send :=
  fun socket message relay =>
    if socket ∈ relay.closing ∨ socket ∈ relay.deleted then relay
    else match fates relay socket message with
      | .taken => relay.emit (.sent socket message)
      | .closed => relay.close socket
      | .failed => handler socket (relay.close socket)

/-- `send`, where failures nest up to a depth; a failure that is nested deeper is
noticed later. -/
def deliver (fates : Fates) : ℕ → Send
  | 0 => attempt fates fun _ relay => relay
  | depth + 1 => attempt fates (disconnected (deliver fates depth))

namespace Reentrant

variable (platform : Platform)

/-- An input, with what becomes of the messages sent while it is handled. -/
structure Step where
  input : Input
  fates : Fates
  depth : ℕ

/-- One turn of the event loop. -/
def next (relay : RelayServer) (step : Step) : RelayServer :=
  relay.turn platform (deliver step.fates step.depth) step.input

/-- The relay as a machine whose sends may disconnect.  It starts empty. -/
def machine : Machine RelayServer Step where
  init relay := ∃ time, relay = { now := time }
  next := next platform

/-- Rehashing keeps the entries. -/
def Feasible (relay : RelayServer) (step : Step) : Prop :=
  relay.Feasible ⟨step.input, fun _ _ => false⟩

end Reentrant

/-! ## What the tables promise -/

/-- Every socket that a route, an offer or a pair names is a key of `sessions`. -/
structure Integral (relay : RelayServer) : Prop where
  routes : Table.All (fun _ route => route.client ∈ relay.sessions ∧ route.host ∈ relay.sessions)
    relay.routes
  offers : Table.All (fun _ offer => offer.host ∈ relay.sessions) relay.offers
  pairs : Table.All (fun _ pair => pair.host ∈ relay.sessions ∧ pair.client ∈ relay.sessions)
    relay.pairs

/-- Nothing names the socket. -/
structure Unnamed (relay : RelayServer) (socket : Socket) : Prop where
  routes : Table.All (fun _ route => route.client ≠ socket ∧ route.host ≠ socket) relay.routes
  offers : Table.All (fun _ offer => offer.host ≠ socket) relay.offers
  pairs : Table.All (fun _ pair => pair.host ≠ socket ∧ pair.client ≠ socket) relay.pairs

variable {platform : Platform} {send : Send} {relay after : RelayServer}

theorem integral_iff : Integral relay ↔
    ∀ socket, socket ∉ relay.sessions → Unnamed relay socket := by
  constructor
  · intro h socket hgone
    refine ⟨fun key route hroute => ?_, fun hash offer hoffer => ?_, fun key pair hpair => ?_⟩
    · obtain ⟨hclient, hhost⟩ := h.routes key route hroute
      exact ⟨fun heq => hgone (heq ▸ hclient), fun heq => hgone (heq ▸ hhost)⟩
    · exact fun heq => hgone (heq ▸ h.offers hash offer hoffer)
    · obtain ⟨hhost, hclient⟩ := h.pairs key pair hpair
      exact ⟨fun heq => hgone (heq ▸ hhost), fun heq => hgone (heq ▸ hclient)⟩
  · intro h
    refine ⟨fun key route hroute => ⟨?_, ?_⟩, fun hash offer hoffer => ?_,
      fun key pair hpair => ⟨?_, ?_⟩⟩
    · by_contra hgone
      exact ((h _ hgone).routes key route hroute).1 rfl
    · by_contra hgone
      exact ((h _ hgone).routes key route hroute).2 rfl
    · by_contra hgone
      exact (h _ hgone).offers hash offer hoffer rfl
    · by_contra hgone
      exact ((h _ hgone).pairs key pair hpair).1 rfl
    · by_contra hgone
      exact ((h _ hgone).pairs key pair hpair).2 rfl

/-- The entries of one table are entries of the other. -/
def Within {V : Type} {K : Type} [DecidableEq K] (first second : Table K V) : Prop :=
  ∀ key value, first.lookup key = some value → second.lookup key = some value

/-- The tables only shrink, and a socket whose session disappears is named by
nothing afterwards. -/
structure Purges (relay after : RelayServer) : Prop where
  routes : Within after.routes relay.routes
  offers : Within after.offers relay.offers
  pairs : Within after.pairs relay.pairs
  sessions : ∀ socket, socket ∈ after.sessions → socket ∈ relay.sessions
  gone : ∀ socket, socket ∈ relay.sessions → socket ∉ after.sessions → Unnamed after socket

theorem Unnamed.within {socket : Socket} (h : Unnamed relay socket)
    (hroutes : Within after.routes relay.routes) (hoffers : Within after.offers relay.offers)
    (hpairs : Within after.pairs relay.pairs) : Unnamed after socket :=
  ⟨fun key route hroute => h.routes key route (hroutes key route hroute),
    fun hash offer hoffer => h.offers hash offer (hoffers hash offer hoffer),
    fun key pair hpair => h.pairs key pair (hpairs key pair hpair)⟩

/-- Tables that shrink, with the same sessions. -/
theorem Purges.of_within (hroutes : Within after.routes relay.routes)
    (hoffers : Within after.offers relay.offers) (hpairs : Within after.pairs relay.pairs)
    (hsessions : ∀ socket, socket ∈ after.sessions ↔ socket ∈ relay.sessions) :
    Purges relay after :=
  ⟨hroutes, hoffers, hpairs, fun socket => (hsessions socket).1, fun socket hsession hgone =>
    absurd ((hsessions socket).2 hsession) hgone⟩

theorem Within.refl {V : Type} {K : Type} [DecidableEq K] (table : Table K V) :
    Within table table :=
  fun _ _ h => h

theorem Within.erase {V : Type} {K : Type} [DecidableEq K] (table : Table K V) (key : K) :
    Within (table.erase key) table :=
  fun _ _ h => (Table.lookup_erase_eq_some.1 h).2

theorem Purges.refl (relay : RelayServer) : Purges relay relay :=
  .of_within (.refl _) (.refl _) (.refl _) fun _ => Iff.rfl

theorem Purges.trans {first second third : RelayServer} (h : Purges first second)
    (h' : Purges second third) : Purges first third := by
  refine ⟨fun key value hvalue => h.routes key value (h'.routes key value hvalue),
    fun key value hvalue => h.offers key value (h'.offers key value hvalue),
    fun key value hvalue => h.pairs key value (h'.pairs key value hvalue),
    fun socket hsession => h.sessions socket (h'.sessions socket hsession), ?_⟩
  intro socket hsession hgone
  by_cases hsecond : socket ∈ second.sessions
  · exact h'.gone socket hsecond hgone
  · exact (h.gone socket hsession hsecond).within h'.routes h'.offers h'.pairs

/-- **What a purge is for**: it keeps the promise of the tables. -/
theorem Integral.purge (h : Integral relay) (hpurges : Purges relay after) : Integral after := by
  rw [integral_iff] at h ⊢
  intro socket hgone
  by_cases hsession : socket ∈ relay.sessions
  · exact hpurges.gone socket hsession hgone
  · exact (h socket hsession).within hpurges.routes hpurges.offers hpurges.pairs

/-! ## Loops that notify

The loops below take entries out of the tables and send.  They satisfy every
relation that these steps satisfy. -/

/-- A relation that holds over sending and over taking entries out. -/
structure Stable (send : Send) (R : RelayServer → RelayServer → Prop) : Prop where
  refl : ∀ relay, R relay relay
  trans : ∀ {first second third}, R first second → R second third → R first third
  send : ∀ socket message relay, R relay (send socket message relay)
  emit : ∀ event (relay : RelayServer), R relay (relay.emit event)
  close : ∀ socket (relay : RelayServer), R relay (relay.close socket)
  eraseRoute : ∀ key (relay : RelayServer), R relay { relay with routes := relay.routes.erase key }
  eraseOffer : ∀ hash (relay : RelayServer),
    R relay { relay with offers := relay.offers.erase hash }
  erasePair : ∀ key (relay : RelayServer), R relay { relay with pairs := relay.pairs.erase key }

section
variable {R : RelayServer → RelayServer → Prop}

theorem Stable.foldl (h : Stable send R) {α : Type*} {round : RelayServer → α → RelayServer}
    (hround : ∀ relay a, R relay (round relay a)) (list : List α) (relay : RelayServer) :
    R relay (list.foldl round relay) := by
  induction list generalizing relay with
  | nil => exact h.refl relay
  | cons a rest ih => exact h.trans (hround relay a) (ih (round relay a))

theorem Stable.finishPair (h : Stable send R) (key status : String) (relay : RelayServer) :
    R relay (relay.finishPair send key status) := by
  unfold RelayServer.finishPair
  cases relay.pairs.lookup key with
  | none => exact h.refl relay
  | some pair =>
      have htaken := h.trans (h.erasePair key relay) (h.emit (.settled (.pair key) status) _)
      dsimp only
      by_cases hhost : ({ relay with pairs := relay.pairs.erase key }.emit
          (.settled (.pair key) status)).alive pair.host = true
      · rw [if_pos hhost]
        split
        · exact h.trans htaken (h.trans (h.send _ _ _) (h.send _ _ _))
        · exact h.trans htaken (h.send _ _ _)
      · rw [if_neg hhost]
        split
        · exact h.trans htaken (h.send _ _ _)
        · exact htaken

theorem Stable.withdrawOffer (h : Stable send R) (hash status : String) (offer : Offer)
    (relay : RelayServer) : R relay (relay.withdrawOffer send hash status offer) :=
  h.trans (h.eraseOffer hash relay) (h.trans (h.emit _ _) (h.send _ _ _))

theorem Stable.cancelOffer (h : Stable send R) (socket : Socket) (request : String)
    (relay : RelayServer) (hash : String) :
    R relay (relay.cancelOffer send socket request hash) := by
  unfold RelayServer.cancelOffer
  cases relay.offers.lookup hash with
  | none => exact h.refl relay
  | some offer =>
      dsimp only
      split
      · exact h.withdrawOffer ..
      · exact h.refl relay

theorem Stable.cancelPair (h : Stable send R) (socket : Socket) (request : String)
    (relay : RelayServer) (key : String) :
    R relay (relay.cancelPair send socket request key) := by
  unfold RelayServer.cancelPair
  cases relay.pairs.lookup key with
  | none => exact h.refl relay
  | some pair =>
      dsimp only
      split
      · exact h.finishPair ..
      · exact h.refl relay

theorem Stable.cancelPairing (h : Stable send R) (socket : Socket) (request : String)
    (relay : RelayServer) : R relay (relay.cancelPairing send socket request) :=
  h.trans (h.foldl (h.cancelOffer socket request) _ _) (h.foldl (h.cancelPair socket request) _ _)

theorem Stable.directory (h : Stable send R) (relay : RelayServer) (socket : Socket) :
    R relay (relay.directory send socket) := by
  unfold RelayServer.directory
  dsimp only
  split
  · exact h.refl relay
  · exact h.send _ _ _

theorem Stable.changed (h : Stable send R) (relay : RelayServer) : R relay (relay.changed send) :=
  h.foldl h.directory _ _

theorem Stable.dropRoute (h : Stable send R) (socket : Socket) (relay : RelayServer)
    (key : String) : R relay (relay.dropRoute send socket key) := by
  unfold RelayServer.dropRoute
  cases relay.routes.lookup key with
  | none => exact h.refl relay
  | some route =>
      dsimp only
      split
      · split
        · exact h.trans (h.eraseRoute key relay) (h.send _ _ _)
        · exact h.eraseRoute key relay
      · exact h.refl relay

theorem Stable.sweepOffer (h : Stable send R) (relay : RelayServer) (hash : String) :
    R relay (relay.sweepOffer send hash) := by
  unfold RelayServer.sweepOffer
  cases relay.offers.lookup hash with
  | none => exact h.refl relay
  | some offer =>
      dsimp only
      split
      · exact h.withdrawOffer ..
      · exact h.refl relay

theorem Stable.sweepPair (h : Stable send R) (relay : RelayServer) (key : String) :
    R relay (relay.sweepPair send key) := by
  unfold RelayServer.sweepPair
  cases relay.pairs.lookup key with
  | none => exact h.refl relay
  | some pair =>
      dsimp only
      split
      · exact h.finishPair ..
      · exact h.refl relay

theorem Stable.sweepSession (h : Stable send R) (relay : RelayServer) (socket : Socket) :
    R relay (relay.sweepSession socket) := by
  unfold RelayServer.sweepSession
  dsimp only
  split
  · exact h.close socket relay
  · exact h.refl relay

theorem Stable.sweepRoute (h : Stable send R) (relay : RelayServer) (key : String) :
    R relay (relay.sweepRoute send key) := by
  unfold RelayServer.sweepRoute
  cases relay.routes.lookup key with
  | none => exact h.refl relay
  | some route =>
      dsimp only
      split
      · split
        · exact h.trans (h.eraseRoute key relay) (h.send _ _ _)
        · exact h.eraseRoute key relay
      · exact h.refl relay

theorem Stable.sweep (h : Stable send R) (relay : RelayServer) : R relay (relay.sweep send) :=
  h.trans (h.trans (h.trans (h.foldl h.sweepOffer _ _) (h.foldl h.sweepPair _ _))
    (h.foldl h.sweepSession _ _)) (h.foldl h.sweepRoute _ _)

end

/-! ## Every send purges -/

theorem stable_purges (hsend : ∀ socket message relay, Purges relay (send socket message relay)) :
    Stable send Purges where
  refl := .refl
  trans := .trans
  send := hsend
  emit _ _ := .of_within (.refl _) (.refl _) (.refl _) fun _ => Iff.rfl
  close _ _ := .of_within (.refl _) (.refl _) (.refl _) fun _ => Iff.rfl
  eraseRoute _ _ := .of_within (.erase _ _) (.refl _) (.refl _) fun _ => Iff.rfl
  eraseOffer _ _ := .of_within (.refl _) (.erase _ _) (.refl _) fun _ => Iff.rfl
  erasePair _ _ := .of_within (.refl _) (.refl _) (.erase _ _) fun _ => Iff.rfl

section
variable (hsend : ∀ socket message relay, Purges relay (send socket message relay))
include hsend

/-- A round of the first loop of `cancelPairing` leaves no offer of the socket under
its own hash. -/
theorem cancelOffer_clears (socket : Socket) (relay : RelayServer) (hash : String) {offer : Offer}
    (hoffer : (relay.cancelOffer send socket "" hash).offers.lookup hash = some offer) :
    ¬ offer.host = socket := by
  unfold cancelOffer at hoffer
  cases hlookup : relay.offers.lookup hash with
  | none =>
      rw [hlookup] at hoffer
      rw [hlookup] at hoffer
      cases hoffer
  | some old =>
      rw [hlookup] at hoffer
      dsimp only at hoffer
      split at hoffer
      · have hwithin := (hsend old.host (.pairing none (some (.offer old.issue)) old.request
          "cancelled" []) ({ relay with offers := relay.offers.erase hash }.emit
            (.settled (.offer old.issue) "cancelled"))).offers
        have herased := hwithin hash offer hoffer
        simp [AList.lookup_erase] at herased
      · next hother =>
          rw [hlookup] at hoffer
          cases hoffer
          exact fun hown => hother ⟨hown, .inl rfl⟩

theorem finishPair_erases (key status : String) (relay : RelayServer) (pair : Pair) :
    (relay.finishPair send key status).pairs.lookup key ≠ some pair := by
  intro hpair
  unfold finishPair at hpair
  cases hlookup : relay.pairs.lookup key with
  | none =>
      rw [hlookup] at hpair
      rw [hlookup] at hpair
      cases hpair
  | some old =>
      have herased : ∀ {state : RelayServer}, Purges ({ relay with
          pairs := relay.pairs.erase key }.emit (.settled (.pair key) status)) state →
            state.pairs.lookup key ≠ some pair := by
        intro state hpurges hstored
        have hbefore := hpurges.pairs key pair hstored
        simp [AList.lookup_erase] at hbefore
      rw [hlookup] at hpair
      dsimp only at hpair
      split at hpair
      · split at hpair
        · exact herased ((hsend _ _ _).trans (hsend _ _ _)) hpair
        · exact herased (hsend _ _ _) hpair
      · split at hpair
        · exact herased (hsend _ _ _) hpair
        · exact herased (.refl _) hpair

/-- The same for the second loop and the pairs. -/
theorem cancelPair_clears (socket : Socket) (relay : RelayServer) (key : String) {pair : Pair}
    (hpair : (relay.cancelPair send socket "" key).pairs.lookup key = some pair) :
    ¬ (pair.host = socket ∨ pair.client = socket) := by
  unfold cancelPair at hpair
  cases hlookup : relay.pairs.lookup key with
  | none =>
      rw [hlookup] at hpair
      rw [hlookup] at hpair
      cases hpair
  | some old =>
      rw [hlookup] at hpair
      dsimp only at hpair
      split at hpair
      · exact absurd hpair (finishPair_erases hsend key "cancelled" relay pair)
      · next hother =>
          rw [hlookup] at hpair
          cases hpair
          exact fun hown => hother (hown.imp (⟨·, .inl rfl⟩) (⟨·, .inl rfl⟩))

theorem cancelPairing_clears (socket : Socket) (relay : RelayServer) :
    Table.All (fun _ offer => ¬ offer.host = socket)
      (relay.cancelPairing send socket "").offers ∧
    Table.All (fun _ pair => ¬ (pair.host = socket ∨ pair.client = socket))
      (relay.cancelPairing send socket "").pairs := by
  have hstable := stable_purges hsend
  refine ⟨?_, ?_⟩
  · have hoffers := Table.foldl_keys_all RelayServer.offers (cancelOffer send socket "")
      (fun offer => offer.host = socket)
      (fun state hash other offer => (hstable.cancelOffer socket "" state hash).offers other offer)
      (fun state hash offer => cancelOffer_clears hsend socket state hash) relay
    intro hash offer hoffer
    exact hoffers hash offer ((hstable.foldl (hstable.cancelPair socket "") _ _).offers hash offer
      hoffer)
  · exact Table.foldl_keys_all RelayServer.pairs (cancelPair send socket "")
      (fun pair => pair.host = socket ∨ pair.client = socket)
      (fun state key other pair => (hstable.cancelPair socket "" state key).pairs other pair)
      (fun state key pair => cancelPair_clears hsend socket state key) _

theorem dropRoute_clears (socket : Socket) (relay : RelayServer) (key : String) {route : Route}
    (hroute : (relay.dropRoute send socket key).routes.lookup key = some route) :
    ¬ (route.client = socket ∨ route.host = socket) := by
  unfold dropRoute at hroute
  cases hlookup : relay.routes.lookup key with
  | none =>
      rw [hlookup] at hroute
      rw [hlookup] at hroute
      cases hroute
  | some old =>
      rw [hlookup] at hroute
      dsimp only at hroute
      split at hroute
      · split at hroute
        · have herased := (hsend _ _ _).routes key route hroute
          simp [AList.lookup_erase] at herased
        · simp [AList.lookup_erase] at hroute
      · next hother =>
          rw [hlookup] at hroute
          cases hroute
          exact hother

/-- **`remove` purges**: at its end nothing names the socket any more, and nothing
names those that nested calls removed. -/
theorem remove_purges (socket : Socket) (relay : RelayServer) :
    Purges relay (relay.remove send socket) := by
  have hstable := stable_purges hsend
  obtain ⟨hoffers, hpairs⟩ := cancelPairing_clears hsend socket relay
  have hcancelled := hstable.cancelPairing socket "" relay
  unfold remove
  dsimp only
  generalize relay.cancelPairing send socket "" = first at hoffers hpairs hcancelled ⊢
  have hdropped := hstable.foldl (hstable.dropRoute socket)
    ({ first with sessions := first.sessions.erase socket }).routes.keys
    { first with sessions := first.sessions.erase socket }
  have hroutes := Table.foldl_keys_all RelayServer.routes (dropRoute send socket)
    (fun route => route.client = socket ∨ route.host = socket)
    (fun state key other route => (hstable.dropRoute socket state key).routes other route)
    (fun state key route => dropRoute_clears hsend socket state key)
    { first with sessions := first.sessions.erase socket }
  generalize (({ first with sessions := first.sessions.erase socket }).routes.keys.foldl
    (dropRoute send socket) { first with sessions := first.sessions.erase socket }) = second
    at hdropped hroutes ⊢
  have hlast : Purges second { second.changed send with
      deleted := socket :: (second.changed send).deleted } :=
    (hstable.changed second).trans (.of_within (.refl _) (.refl _) (.refl _) fun _ => Iff.rfl)
  -- the session is taken away between the two purges, so its names are looked up by hand
  have hrest := hdropped.trans hlast
  generalize ({ second.changed send with
    deleted := socket :: (second.changed send).deleted } : RelayServer) = last at hlast hrest ⊢
  refine ⟨fun key value hvalue => hcancelled.routes key value (hrest.routes key value hvalue),
    fun key value hvalue => hcancelled.offers key value (hrest.offers key value hvalue),
    fun key value hvalue => hcancelled.pairs key value (hrest.pairs key value hvalue),
    fun other hother => hcancelled.sessions other
      (AList.mem_erase.1 (hrest.sessions other hother)).2, fun other hother hgone => ?_⟩
  by_cases hsame : other = socket
  · subst hsame
    refine ⟨fun key route hroute => ?_, fun hash offer hoffer => ?_, fun key pair hpair => ?_⟩
    · exact not_or.1 (hroutes key route (hlast.routes key route hroute))
    · exact hoffers hash offer (hrest.offers hash offer hoffer)
    · exact not_or.1 (hpairs key pair (hrest.pairs key pair hpair))
  by_cases hfirst : other ∈ first.sessions
  · exact hrest.gone other (AList.mem_erase.2 ⟨hsame, hfirst⟩) hgone
  · exact (hcancelled.gone other hother hfirst).within hrest.routes hrest.offers hrest.pairs

end

theorem attempt_purges (fates : Fates) {handler : Socket → RelayServer → RelayServer}
    (hhandler : ∀ socket relay, Purges relay (handler socket relay)) (socket : Socket)
    (message : Outgoing) (relay : RelayServer) :
    Purges relay (attempt fates handler socket message relay) := by
  have hclose : Purges relay (relay.close socket) :=
    .of_within (.refl _) (.refl _) (.refl _) fun _ => Iff.rfl
  unfold attempt
  split
  · exact .refl relay
  split
  · exact .of_within (.refl _) (.refl _) (.refl _) fun _ => Iff.rfl
  · exact hclose
  · exact hclose.trans (hhandler socket _)

/-- **Every send purges**, whatever fails and however failures nest. -/
theorem deliver_purges (fates : Fates) (depth : ℕ) (socket : Socket) (message : Outgoing)
    (relay : RelayServer) : Purges relay (deliver fates depth socket message relay) := by
  induction depth generalizing socket message relay with
  | zero => exact attempt_purges fates (fun _ => .refl) socket message relay
  | succ depth ih =>
      refine attempt_purges fates (fun other state => ?_) socket message relay
      unfold disconnected
      split
      · exact remove_purges ih other state
      · exact .refl state

end RelayServer

end ServerHost
