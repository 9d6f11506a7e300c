import ServerHost.Peer.Endpoints

/-!
# No request waits in vain

A request whose `startRequest` has run waits in the table until its peer leaves
`connecting`, and something has to make the peer leave: the reply to a `connect`, the end of
a link that is dialled, or a `nextLocal` that is queued.

## Strategy

`Driven` says this of every state between two handlers, up to the requests and the peers
that are exempt because the handler is about to serve them.  `Settles` lists what the small
steps keep; what happens to links and connections has a lemma of its own.
-/

namespace ServerHost

namespace Peer

/-! ## The messages under way -/

/-- The `connect` messages that are under way to the relay, and the replies that are under way
back, by the peer they name. -/
structure Flight where
  asked : List String := []
  answered : List String := []

namespace Flight

def Has (flight : Flight) (peerId : String) : Prop :=
  peerId ∈ flight.asked ∨ peerId ∈ flight.answered

/-- What an event of the peer adds.  With the connection, everything under way is lost. -/
def note (event : Event) (flight : Flight) : Flight :=
  match event with
  | .sent .relay message =>
      if messageType message = "connect" then
        { flight with asked := (message.value "peerId").toString :: flight.asked }
      else flight
  | .relayLost => {}
  | _ => flight

/-- The messages under way when the history has grown from `base` to `log`. -/
def follow (base : List Entry) (flight : Flight) (log : List Entry) : Flight :=
  (log.take (log.length - base.length)).foldr (fun entry flight => flight.note entry.event) flight

/-- A reply arrives. -/
def hear (input : Input) (flight : Flight) : Flight :=
  match input with
  | .relayText message =>
      if messageType message = "connect" then
        { flight with answered := flight.answered.erase (message.value "peerId").toString }
      else flight
  | _ => flight

/-- The relay answers a `connect`. -/
def answer (peerId : String) (flight : Flight) : Flight :=
  if peerId ∈ flight.asked then
    { asked := flight.asked.erase peerId, answered := flight.answered ++ [peerId] }
  else flight

end Flight

/-- A peer and its connection to a relay that answers every `connect`. -/
structure Wired where
  peer : Peer
  flight : Flight := {}

inductive Act where
  | peer (step : Step)
  | answer (peerId : String)

/-- The peer takes a turn, or the relay answers a `connect`. -/
def wired (platform : Platform) : Machine Wired Act where
  init wired := (machine platform).init wired.peer ∧ wired.flight = {}
  next wired
    | .peer step =>
        let after := next platform wired.peer step
        { peer := after
          flight := (wired.flight.hear step.input).follow wired.peer.log after.log }
    | .answer peerId => { wired with flight := wired.flight.answer peerId }

/-- Handlers are atomic: no slot calls the peer back, and no socket is finished inside a
call of `send`. -/
structure Atomic (world : World) : Prop where
  slot : ∀ n, world.slot n = []
  send : ∀ n accepted, world.send n ≠ .lost accepted

def Act.Atomic : Act → Prop
  | .peer step => Peer.Atomic step.world
  | .answer _ => True

/-! ## The invariant -/

/-- A link to the peer is dialled and not authenticated yet. -/
def Dials (peer : Peer) (peerId : String) : Prop :=
  ∃ socket link, peer.links.lookup socket = some link ∧ link.outgoing = true ∧
    link.authenticated = false ∧ link.peer = peerId

variable {base : List Entry} {flight : Flight}

/-- Requests wait only for peers in `connecting`, and each of these has a driver, up to the
exempt requests and the peers that are loose.  The history has grown from `base`. -/
structure Driven (base : List Entry) (flight : Flight) (exempt : String → Pending → Prop)
    (loose : String → Prop) (peer : Peer) : Prop where
  started : ∀ id request, peer.requests.lookup id = some request → id ∉ peer.starts →
    request.transport = "" → ¬ exempt id request → request.peer ∈ peer.connecting
  driver : peer.relay = .connected → ∀ peerId ∈ peer.connecting, ¬ loose peerId →
    (flight.follow base peer.log).Has peerId ∨ peer.Dials peerId ∨ peerId ∈ peer.redials
  waits : ∀ peerId ∈ peer.connecting, peer.ready = true
  live : peer.ready = true → peer.relay = .connected ∨ peer.relay = .closing
  runs : peer.relay ≠ .closed → peer.running = true
  outbound : ∀ peerId socket, peer.outbound.lookup peerId = some socket →
    ∃ link, peer.links.lookup socket = some link ∧ link.peer = peerId ∧ link.outgoing = true
  below : ∀ socket ∈ peer.links, socket < peer.sockets
  grown : base <:+ peer.log

/-- Nothing is exempt. -/
abbrev Served (base : List Entry) (flight : Flight) (peer : Peer) : Prop :=
  Driven base flight (fun _ _ => False) (fun _ => False) peer

/-- A small step: requests leave the table or get their transport, and a socket may start to
close. -/
structure Settles (peer after : Peer) : Prop where
  requests : ∀ id request, after.requests.lookup id = some request →
    ∃ old, peer.requests.lookup id = some old ∧ (request = old ∨ request.transport ≠ "")
  links : after.links = peer.links
  outbound : after.outbound = peer.outbound
  connecting : after.connecting = peer.connecting
  starts : after.starts = peer.starts
  redials : after.redials = peer.redials
  ready : after.ready = peer.ready
  running : after.running = peer.running
  sockets : after.sockets = peer.sockets
  relay : after.relay = peer.relay ∨ peer.relay ≠ .closed ∧ after.relay = .closing
  log : Grows (fun entry => entry.event ≠ .relayLost) peer.log after.log

variable {exempt : String → Pending → Prop} {loose : String → Prop} {peer after : Peer}

theorem Flight.Has.note {peerId : String} {event : Event} (h : flight.Has peerId)
    (hevent : event ≠ .relayLost) : (flight.note event).Has peerId := by
  unfold Flight.note
  split
  · split
    · exact h.imp_left (List.mem_cons_of_mem _)
    · exact h
  · exact absurd rfl hevent
  · exact h

/-- The newest entry is noted last. -/
theorem Flight.follow_append (flight : Flight) {log : List Entry} (hgrown : base <:+ log)
    (new : List Entry) :
    flight.follow base (new ++ log) =
      new.foldr (fun entry flight => flight.note entry.event) (flight.follow base log) := by
  have hlength : (new ++ log).length - base.length = new.length + (log.length - base.length) := by
    rw [List.length_append]
    have := hgrown.length_le
    omega
  rw [Flight.follow, hlength, List.take_length_add_append, List.foldr_append]
  rfl

theorem Flight.follow_base : flight.follow base base = flight := by
  simp [Flight.follow]

/-- While the connection lasts, nothing under way is forgotten. -/
theorem Flight.Has.grow {peerId : String} {log more : List Entry}
    (h : (flight.follow base log).Has peerId) (hgrown : base <:+ log)
    (hgrows : Grows (fun entry => entry.event ≠ .relayLost) log more) :
    (flight.follow base more).Has peerId := by
  obtain ⟨new, rfl, hall⟩ := hgrows
  rw [flight.follow_append hgrown]
  clear hgrown
  induction new with
  | nil => exact h
  | cons entry rest ih =>
      have hrest := ih fun other hother => hall other (List.mem_cons_of_mem _ hother)
      exact hrest.note (hall entry List.mem_cons_self)

theorem Settles.refl (peer : Peer) : Settles peer peer :=
  ⟨fun _ request hrequest => ⟨request, hrequest, .inl rfl⟩, rfl, rfl, rfl, rfl, rfl, rfl, rfl, rfl,
    .inl rfl, .of_eq rfl⟩

theorem Settles.trans {first second third : Peer} (h : Settles first second)
    (h' : Settles second third) : Settles first third where
  requests id request hrequest := by
    obtain ⟨old, hold, rfl | hsent⟩ := h'.requests id request hrequest
    · exact h.requests id request hold
    · obtain ⟨first, hfirst, -⟩ := h.requests id old hold
      exact ⟨first, hfirst, .inr hsent⟩
  links := h'.links.trans h.links
  outbound := h'.outbound.trans h.outbound
  connecting := h'.connecting.trans h.connecting
  starts := h'.starts.trans h.starts
  redials := h'.redials.trans h.redials
  ready := h'.ready.trans h.ready
  running := h'.running.trans h.running
  sockets := h'.sockets.trans h.sockets
  relay := by
    rcases h.relay with hsame | ⟨hopen, hclosing⟩
    · rw [← hsame]
      exact h'.relay
    · exact .inr ⟨hopen, h'.relay.elim (fun hsame => hsame.trans hclosing) And.right⟩
  log := h.log.trans h'.log

theorem Settles.not_mem (h : Settles peer after) {id : String} (hnone : id ∉ peer.requests) :
    id ∉ after.requests := by
  intro hmem
  obtain ⟨request, hrequest⟩ := Table.mem_iff_lookup.1 hmem
  obtain ⟨old, hold, -⟩ := h.requests id request hrequest
  exact hnone (Table.mem_of_lookup hold)

/-- **A small step keeps the invariant.** -/
theorem Driven.settle (h : Driven base flight exempt loose peer) (hsettles : Settles peer after) :
    Driven base flight exempt loose after where
  started id request hrequest hstarted hunsent hexempt := by
    rw [hsettles.starts] at hstarted
    rw [hsettles.connecting]
    obtain ⟨old, hold, rfl | hsent⟩ := hsettles.requests id request hrequest
    · exact h.started id request hold hstarted hunsent hexempt
    · exact absurd hunsent hsent
  driver hconnected peerId hmem hloose := by
    -- a relay that is closing answers for no driver
    rcases hsettles.relay with hsame | ⟨-, hclosing⟩
    · rw [hsame] at hconnected
      rw [hsettles.connecting] at hmem
      rw [Dials, hsettles.links, hsettles.redials]
      exact (h.driver hconnected peerId hmem hloose).imp_left (·.grow h.grown hsettles.log)
    · rw [hclosing] at hconnected
      cases hconnected
  waits peerId hmem := by
    rw [hsettles.connecting] at hmem
    exact hsettles.ready.trans (h.waits peerId hmem)
  live hready := by
    rcases hsettles.relay with hsame | ⟨-, hclosing⟩
    · rw [hsame]
      exact h.live (hsettles.ready ▸ hready)
    · exact .inr hclosing
  runs hopen := by
    rw [hsettles.running]
    rcases hsettles.relay with hsame | ⟨hopen, -⟩
    · exact h.runs (hsame ▸ hopen)
    · exact h.runs hopen
  outbound peerId socket hsocket := by
    rw [hsettles.outbound] at hsocket
    rw [hsettles.links]
    exact h.outbound peerId socket hsocket
  below socket hmem := by
    rw [hsettles.links] at hmem
    rw [hsettles.sockets]
    exact h.below socket hmem
  grown := by
    obtain ⟨new, hlog, -⟩ := hsettles.log
    rw [hlog]
    exact h.grown.trans (List.suffix_append new _)

/-- What is exempt may be described in another way. -/
theorem Driven.mono {exempt' : String → Pending → Prop} {loose' : String → Prop}
    (h : Driven base flight exempt loose peer)
    (hexempt : ∀ id request, peer.requests.lookup id = some request → exempt id request →
      exempt' id request)
    (hloose : ∀ peerId ∈ peer.connecting, loose peerId → loose' peerId) :
    Driven base flight exempt' loose' peer where
  started id request hrequest hstarted hunsent hnone :=
    h.started id request hrequest hstarted hunsent (mt (hexempt id request hrequest) hnone)
  driver hconnected peerId hmem hnone :=
    h.driver hconnected peerId hmem (mt (hloose peerId hmem) hnone)
  __ := h

/-- The peer that a reply names may lose its driver. -/
theorem Driven.hear (h : Served base flight peer) (hbase : peer.log = base) {message : JsonObject}
    (htype : messageType message = "connect") :
    Driven base (flight.hear (.relayText message)) (fun _ _ => False)
      (· = (message.value "peerId").toString) peer where
  driver hconnected peerId hmem hother := by
    refine (h.driver hconnected peerId hmem not_false).imp_left fun hhas => ?_
    rw [hbase, Flight.follow_base] at hhas ⊢
    simp only [Flight.hear, if_pos htype]
    exact hhas.imp_right (List.mem_erase_of_ne hother).2
  started id request hrequest hstarted hunsent _ :=
    h.started id request hrequest hstarted hunsent not_false
  __ := h

/-! ## Small steps -/

theorem emit_settles {event : Event} (h : event ≠ .relayLost) (peer : Peer) :
    Settles peer (peer.emit event) :=
  { Settles.refl peer with log := .cons h }

theorem take_settles (cause : Option Channel) (id : String) (result : JsonObject) (peer : Peer) :
    Settles peer (peer.take cause id result) := by
  unfold take
  cases peer.requests.lookup id with
  | none => exact .refl peer
  | some request =>
      refine { Settles.refl peer with requests := fun other own hown => ?_, log := .cons (by simp) }
      exact ⟨own, (Table.lookup_erase_eq_some.1 hown).2, .inl rfl⟩

theorem not_mem_take (cause : Option Channel) (id : String) (result : JsonObject) (peer : Peer) :
    id ∉ (peer.take cause id result).requests := by
  unfold take
  cases hrequest : peer.requests.lookup id with
  | none => exact AList.lookup_eq_none.1 hrequest
  | some request => exact fun hmem => (AList.mem_erase.1 hmem).1 rfl

theorem shut_settles {channel : Channel} (h : peer.writable channel = true) :
    Settles peer (peer.shut channel) := by
  cases channel with
  | relay =>
      have hconnected : peer.relay = .connected := of_decide_eq_true h
      refine { Settles.refl peer with relay := .inr ⟨?_, rfl⟩, log := .cons (by simp) }
      rw [hconnected]
      exact SocketState.noConfusion
  | link socket => exact { Settles.refl peer with log := .cons (by simp) }

theorem scheduleReconnect_settles (peer : Peer) : Settles peer peer.scheduleReconnect := by
  unfold scheduleReconnect
  split
  · exact { Settles.refl peer with }
  · exact .refl peer

theorem relayError_settles (error : String) (peer : Peer) :
    Settles peer (peer.relayError error) := by
  unfold relayError
  split
  · exact .refl peer
  · have hlabel : Settles peer { peer with
        error := if peer.error = "" then error else peer.error } := { Settles.refl peer with }
    exact hlabel.trans (scheduleReconnect_settles _)

/-- A loop of small steps is a small step. -/
theorem Settles.foldl {α : Type*} {round : Peer → α → Peer}
    (h : ∀ peer a, Settles peer (round peer a)) (list : List α) (peer : Peer) :
    Settles peer (list.foldl round peer) := by
  induction list generalizing peer with
  | nil => exact .refl peer
  | cons a rest ih => exact (h peer a).trans (ih _)

/-- A small step after which only the request `id` can be gone. -/
structure Touches (id : String) (peer after : Peer) : Prop extends Settles peer after where
  others : ∀ other ∈ peer.requests, other ≠ id → other ∈ after.requests

theorem Touches.refl (id : String) (peer : Peer) : Touches id peer peer :=
  ⟨.refl peer, fun _ hmem _ => hmem⟩

theorem Touches.trans {id : String} {first second third : Peer} (h : Touches id first second)
    (h' : Touches id second third) : Touches id first third :=
  ⟨h.toSettles.trans h'.toSettles,
    fun other hmem hne => h'.others other (h.others other hmem hne) hne⟩

theorem take_touches (cause : Option Channel) (id : String) (result : JsonObject) (peer : Peer) :
    Touches id peer (peer.take cause id result) := by
  refine ⟨take_settles .., fun other hmem hne => ?_⟩
  unfold take
  cases peer.requests.lookup id with
  | none => exact hmem
  | some request => exact AList.mem_erase.2 ⟨hne, hmem⟩

theorem over_transport (channel : Channel) (request : Pending) :
    (request.over channel).transport ≠ "" := by
  cases channel <;> simp [Pending.over]

theorem hand_touches {id : String} {channel : Channel} {request : Pending} :
    Touches id peer (peer.hand id channel request) := by
  refine ⟨{ Settles.refl peer with requests := fun other own hown => ?_, log := .cons (by simp) },
    fun other hmem _ => Table.mem_modify.2 hmem⟩
  rcases Table.lookup_modify_eq_some.1 hown with ⟨rfl, old, hold, rfl⟩ | ⟨-, hold⟩
  · exact ⟨old, hold, .inr (over_transport channel old)⟩
  · exact ⟨own, hold, .inl rfl⟩

theorem sweepRequest_touches {now : ℤ} {id : String} (h : id ∈ peer.requests) :
    Touches id peer (sweepRequest take now peer id) := by
  dsimp only [sweepRequest]
  rw [index_of_mem h]
  split
  · exact take_touches ..
  · exact .refl id peer

theorem lostRound_touches {socket : Socket} {id : String} (h : id ∈ peer.requests) :
    Touches id peer (lostRound take socket peer id) := by
  dsimp only [lostRound]
  rw [index_of_mem h]
  split
  · exact take_touches ..
  · exact .refl id peer

theorem handle_settles {world : World} (channel : Channel) (id peerId : String)
    (payload : JsonObject)
    (peer : Peer) : Settles peer (peer.handle world channel id peerId payload).1 := by
  unfold handle
  split
  · exact .refl peer
  · exact emit_settles (by simp) peer

/-- A loop over the requests meets each of them while it is in the table, so what a round
establishes for its own request holds of all requests in the end. -/
theorem walk_settles (world : World) (round : Peer → String → Peer) (P : String → Peer → Prop)
    (hround : ∀ peer id, id ∈ peer.requests →
      Touches id peer (round peer id) ∧ P id (round peer id))
    (hkeeps : ∀ id peer after, Settles peer after → P id peer → P id after) (n : ℕ) (peer : Peer) :
    Settles peer ((world.requestOrder n peer.requests.keys).foldl round peer) ∧
      ∀ id ∈ peer.requests, P id ((world.requestOrder n peer.requests.keys).foldl round peer) := by
  -- by induction on the snapshot: the round of an id leaves the others in the table
  have hwalk : ∀ (keys : List String) (peer : Peer), keys.Nodup →
      (∀ id ∈ keys, id ∈ peer.requests) →
      Settles peer (keys.foldl round peer) ∧ ∀ id ∈ keys, P id (keys.foldl round peer) := by
    intro keys
    induction keys with
    | nil => exact fun peer _ _ => ⟨.refl peer, by simp⟩
    | cons head rest ih =>
        intro peer hnodup hkeys
        obtain ⟨hhead, hrest⟩ := List.nodup_cons.1 hnodup
        obtain ⟨htouches, hdone⟩ := hround peer head (hkeys head List.mem_cons_self)
        have hstill : ∀ id ∈ rest, id ∈ (round peer head).requests := by
          intro id hid
          refine htouches.others id (hkeys id (List.mem_cons_of_mem _ hid)) ?_
          rintro rfl
          exact hhead hid
        obtain ⟨hsettles, hall⟩ := ih (round peer head) hrest hstill
        refine ⟨htouches.toSettles.trans hsettles, fun id hid => ?_⟩
        rcases List.mem_cons.1 hid with rfl | hmem
        · exact hkeeps id _ _ hsettles hdone
        · exact hall id hmem
  -- the snapshot holds each id of the table once
  have hperm := world.requestOrder_perm n peer.requests.keys
  obtain ⟨hsettles, hall⟩ := hwalk _ peer (hperm.nodup_iff.2 peer.requests.keys_nodup)
    fun id hid => AList.mem_keys.2 (hperm.mem_iff.1 hid)
  exact ⟨hsettles, fun id hid => hall id (hperm.mem_iff.2 (AList.mem_keys.1 hid))⟩

/-! ## Links -/

theorem Driven.fresh (h : Driven base flight exempt loose peer) {socket : Socket} {link : Link}
    (hlink : peer.links.lookup socket = some link) : socket ≠ peer.sockets :=
  (h.below socket (Table.mem_of_lookup hlink)).ne

/-- When a link leaves the table, its peer may lose its driver. -/
theorem Driven.unlink (h : Driven base flight exempt loose peer) {socket : Socket} {link : Link}
    (hlink : peer.links.lookup socket = some link) :
    Driven base flight exempt (fun peerId => loose peerId ∨
        link.outgoing = true ∧ link.authenticated = false ∧ link.peer = peerId)
      (peer.unlink socket link) := {
  h with
  driver := fun hconnected peerId hmem hloose => by
    rw [not_or] at hloose
    rcases h.driver hconnected peerId hmem hloose.1 with hhas | hdials | hredial
    · exact .inl (hhas.grow h.grown (.cons (by simp)))
    · obtain ⟨other, own, hown, hout, hgreets, hpeer⟩ := hdials
      refine .inr (.inl ⟨other, own, Table.lookup_erase_eq_some.2 ⟨?_, hown⟩, hout, hgreets, hpeer⟩)
      -- the dialled link itself is gone, which leaves its peer without a driver
      rintro rfl
      obtain rfl := Option.some.inj (hlink.symm.trans hown)
      exact hloose.2 ⟨hout, hgreets, hpeer⟩
    · exact .inr (.inr hredial)
  outbound := fun peerId other hother => by
    have hold : peer.outbound.lookup peerId = some other ∧ other ≠ socket := by
      unfold Peer.unlink at hother
      simp only [emit_outbound] at hother
      split at hother
      · next hsame =>
          obtain ⟨hne, hold⟩ := Table.lookup_erase_eq_some.1 hother
          refine ⟨hold, ?_⟩
          rintro rfl
          obtain ⟨own, hown, hpeer, -⟩ := h.outbound peerId other hold
          obtain rfl := Option.some.inj (hlink.symm.trans hown)
          exact hne hpeer.symm
      · next hdiffers =>
          refine ⟨hother, ?_⟩
          rintro rfl
          obtain ⟨own, hown, rfl, -⟩ := h.outbound peerId other hother
          obtain rfl := Option.some.inj (hlink.symm.trans hown)
          exact hdiffers hother
    obtain ⟨own, hown, hpeer⟩ := h.outbound peerId other hold.1
    exact ⟨own, Table.lookup_erase_eq_some.2 ⟨hold.2, hown⟩, hpeer⟩
  below := fun other hmem => h.below other (AList.mem_erase.1 hmem).2
  grown := h.grown.trans (List.suffix_cons ..) }

/-- A link that is dialled drives its peer. -/
theorem Driven.dial {peerId : String} {attempt : Attempt}
    (h : Driven base flight (fun _ _ => False) (· = peerId) peer) :
    Served base flight (peer.dial peerId attempt) := {
  h with
  driver := fun hconnected other hmem _ => by
    by_cases hsame : other = peerId
    · subst hsame
      exact .inr (.inl ⟨peer.sockets, _, AList.lookup_insert _, rfl, rfl, rfl⟩)
    rcases h.driver hconnected other hmem hsame with hhas | hdials | hredial
    · exact .inl (hhas.grow h.grown (.cons (by simp)))
    · obtain ⟨socket, link, hlink, hrest⟩ := hdials
      exact .inr (.inl ⟨socket, link, Table.lookup_insert_eq_some.2 (.inr ⟨h.fresh hlink, hlink⟩),
        hrest⟩)
    · exact .inr (.inr hredial)
  outbound := fun other socket hsocket => by
    rcases Table.lookup_insert_eq_some.1 hsocket with ⟨rfl, rfl⟩ | ⟨-, hold⟩
    · exact ⟨_, AList.lookup_insert _, rfl, rfl⟩
    · obtain ⟨link, hlink, hrest⟩ := h.outbound other socket hold
      exact ⟨link, Table.lookup_insert_eq_some.2 (.inr ⟨h.fresh hlink, hlink⟩), hrest⟩
  below := fun socket hmem => by
    rcases (AList.mem_insert _).1 hmem with rfl | hold
    · exact Nat.lt_succ_self _
    · exact (h.below socket hold).trans (Nat.lt_succ_self _)
  grown := h.grown.trans (List.suffix_cons ..) }

/-- The other side accepts the ticket: the peer loses a driver. -/
theorem Driven.welcome {socket : Socket} {link : Link} (h : Served base flight peer)
    (hlink : peer.links.lookup socket = some link) :
    Driven base flight (fun _ _ => False) (· = link.peer) (peer.welcome socket) := {
  h with
  driver := fun hconnected peerId hmem hother => by
    refine (h.driver hconnected peerId hmem not_false).imp_right (Or.imp_left ?_)
    rintro ⟨own, other, hlookup, hout, hgreets, hpeer⟩
    refine ⟨own, other, Table.lookup_modify_eq_some.2 (.inr ⟨?_, hlookup⟩), hout, hgreets, hpeer⟩
    rintro rfl
    obtain rfl := Option.some.inj (hlink.symm.trans hlookup)
    exact hother hpeer.symm
  outbound := fun peerId own hown => by
    obtain ⟨other, hlookup, hpeer, hout⟩ := h.outbound peerId own hown
    by_cases hsame : own = socket
    · exact ⟨_, Table.lookup_modify_eq_some.2 (.inl ⟨hsame, other, hsame ▸ hlookup, rfl⟩), hpeer,
        hout⟩
    · exact ⟨other, Table.lookup_modify_eq_some.2 (.inr ⟨hsame, hlookup⟩), hpeer, hout⟩
  below := fun own hmem => h.below own (Table.mem_modify.1 hmem) }

/-- An inbound link drives nobody. -/
theorem Driven.present {socket : Socket} {link : Link} {text : String} {ticket : Ticket}
    (h : Served base flight peer) (hlink : peer.links.lookup socket = some link)
    (hincoming : link.outgoing = false) :
    Served base flight (peer.present socket text ticket) := by
  have hother : ∀ own other, peer.links.lookup own = some other → other.outgoing = true →
      (peer.present socket text ticket).links.lookup own = some other := by
    intro own other hlookup hout
    refine Table.lookup_modify_eq_some.2 (.inr ⟨?_, hlookup⟩)
    rintro rfl
    obtain rfl := Option.some.inj (hlink.symm.trans hlookup)
    rw [hincoming] at hout
    cases hout
  exact {
    h with
    driver := fun hconnected peerId hmem hloose => by
      rcases h.driver hconnected peerId hmem hloose with hhas | hdials | hredial
      · exact .inl (hhas.grow h.grown (.cons (by simp)))
      · obtain ⟨own, other, hlookup, hout, hrest⟩ := hdials
        exact .inr (.inl ⟨own, other, hother own other hlookup hout, hout, hrest⟩)
      · exact .inr (.inr hredial)
    outbound := fun peerId own hown => by
      obtain ⟨other, hlookup, hpeer, hout⟩ := h.outbound peerId own hown
      exact ⟨other, hother own other hlookup hout, hpeer, hout⟩
    below := fun own hmem => h.below own (Table.mem_modify.1 hmem)
    grown := h.grown.trans (List.suffix_cons ..) }

/-- An entry that `links[s]` makes drives nobody. -/
theorem Driven.phantom {socket : Socket} (h : Served base flight peer)
    (hnone : socket ∉ peer.links) (hbelow : socket < peer.sockets) :
    Served base flight { peer with links := peer.links.insert socket {} } := by
  have hother : ∀ own link, peer.links.lookup own = some link →
      (peer.links.insert socket {}).lookup own = some link := by
    intro own link hlink
    refine Table.lookup_insert_eq_some.2 (.inr ⟨?_, hlink⟩)
    rintro rfl
    exact hnone (Table.mem_of_lookup hlink)
  exact {
    h with
    driver := fun hconnected peerId hmem hloose => by
      refine (h.driver hconnected peerId hmem hloose).imp_right (Or.imp_left ?_)
      rintro ⟨own, link, hlink, hrest⟩
      exact ⟨own, link, hother own link hlink, hrest⟩
    outbound := fun peerId own hown => by
      obtain ⟨link, hlink, hrest⟩ := h.outbound peerId own hown
      exact ⟨link, hother own link hlink, hrest⟩
    below := fun own hmem => by
      rcases (AList.mem_insert _).1 hmem with rfl | hold
      · exact hbelow
      · exact h.below own hold }

/-! ## Connections -/

/-- Nothing is connecting, and there are no links. -/
structure Idle (peer : Peer) : Prop where
  connecting : peer.connecting = []
  ready : peer.ready = false
  links : peer.links = ∅
  outbound : peer.outbound = ∅

theorem Idle.settle (h : Idle peer) (hsettles : Settles peer after) : Idle after :=
  ⟨hsettles.connecting.trans h.connecting, hsettles.ready.trans h.ready,
    hsettles.links.trans h.links, hsettles.outbound.trans h.outbound⟩

theorem Idle.served (h : Idle peer) (hrequests : ∀ id, id ∉ peer.requests)
    (hruns : peer.relay ≠ .closed → peer.running = true) (hgrown : base <:+ peer.log) :
    Served base flight peer where
  started id request hrequest := absurd (Table.mem_of_lookup hrequest) (hrequests id)
  driver _ peerId hmem := by
    rw [h.connecting] at hmem
    cases hmem
  waits peerId hmem := by
    rw [h.connecting] at hmem
    cases hmem
  live hready := by
    rw [h.ready] at hready
    cases hready
  runs := hruns
  outbound peerId socket hsocket := by
    rw [h.outbound] at hsocket
    cases hsocket
  below socket hmem := by
    rw [h.links] at hmem
    exact absurd hmem (AList.notMem_empty socket)
  grown := hgrown

/-- A connection begins without anything connecting. -/
theorem Driven.connected (h : Served base flight peer) (hconnecting : peer.relay = .connecting) :
    Served base flight { peer with relay := .connected } := {
  h with
  driver := fun _ peerId hmem => by
    rcases h.live (h.waits peerId hmem) with hrelay | hrelay <;> simp [hconnecting] at hrelay
  live := fun _ => .inl rfl
  runs := fun _ => h.runs (by simp [hconnecting]) }

end Peer

end ServerHost
