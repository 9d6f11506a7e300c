import ServerHost.Peer.Dialled
import ServerHost.Peer.Window
import ServerHost.Relay.Ledger
import ServerHost.Relay.Messages

/-!
# Who stands behind a call and its result

A request travels from the peer that made it to a handler, and a result travels back.  What
the handler gets is what the peer asked for, under the name that the peer was started with,
and what completes the request is what the handler returned, or an error of the relay.

## Strategy

Every message on its way was sent by the party at the other end (`Posted`), and every entry
of a history was made in a turn that was given a reason for it (`Peer.run_voiced`,
`RelayServer.run_said`).  So the way of a call is walked backwards, turn by turn: from the
host to the relay, from there to the peer; and a result is walked back in the same way.
-/

namespace ServerHost

namespace PeerSystem

variable {ι : Type*} {platform : Platform} {platforms : ι → Platform}
variable {system : PeerSystem ι} {action : Action ι} {trace : List (PeerSystem ι × Action ι)}

/-! ## What came before -/

/-- A turn of the relay is a turn of the system. -/
theorem mem_relayTrace {visit : RelayServer × RelayServer.Step} (h : visit ∈ relayTrace trace) :
    ∃ own ∈ trace, own.1.relayStep own.2 = some visit.2 ∧ own.1.relay = visit.1 := by
  obtain ⟨own, hown, hmap⟩ := List.mem_filterMap.1 h
  obtain ⟨step, hstep, rfl⟩ := Option.map_eq_some_iff.1 hmap
  exact ⟨own, hown, hstep, rfl⟩

/-- Nothing that a peer recorded is taken back, a link keeps its ends, and only a connection
or a link that was accepted since is new. -/
structure Past (earlier later : PeerSystem ι) : Prop extends Before earlier later where
  peers : ∀ own, (earlier.peers own).log ⊆ (later.peers own).log
  far : ∀ own socket place, earlier.far own socket = some place → later.far own socket = some place
  caller : ∀ host number place, earlier.caller host number = some place →
    later.caller host number = some place
  sockets : earlier.relay.sockets ≤ later.relay.sockets
  owned : ∀ socket own, later.owner socket = some own → socket < earlier.relay.sockets →
    earlier.owner socket = some own
  called : ∀ host number place, later.caller host number = some place →
    number < (earlier.peers host).sockets → earlier.caller host number = some place
  counted : ∀ own, (earlier.peers own).sockets ≤ (later.peers own).sockets

theorem Past.trans {first second third : PeerSystem ι} (h : Past first second)
    (h' : Past second third) : Past first third where
  toBefore := h.toBefore.trans h'.toBefore
  peers own := List.Subset.trans (h.peers own) (h'.peers own)
  far own socket place hplace := h'.far own socket place (h.far own socket place hplace)
  caller host number place hplace := h'.caller host number place (h.caller host number place hplace)
  sockets := h.sockets.trans h'.sockets
  owned socket own howner hbelow :=
    h.owned socket own (h'.owned socket own howner (hbelow.trans_le h.sockets)) hbelow
  called host number place hplace hbelow :=
    h.called host number place (h'.called host number place hplace
      (hbelow.trans_le (h.counted host))) hbelow
  counted own := (h.counted own).trans (h'.counted own)

theorem Past.sent {earlier later : PeerSystem ι} (h : Past earlier later) {own : ι}
    {event : Peer.Event} (hevent : event ∈ Peer.events (earlier.peers own).log) :
    event ∈ Peer.events (later.peers own).log :=
  List.map_subset _ (h.peers own) hevent

theorem Past.told {earlier later : PeerSystem ι} (h : Past earlier later)
    {event : RelayServer.Event} (hevent : event ∈ RelayServer.events earlier.relay.log) :
    event ∈ RelayServer.events later.relay.log :=
  List.map_subset _ h.log hevent

variable [DecidableEq ι]

/-- An accepted link keeps its other end. -/
theorem Wired.caller_next (h : Wired system) {host : ι} {number : Socket} {place : ι × Socket}
    (hcaller : system.caller host number = some place) :
    (system.next platform platforms action).caller host number = some place := by
  cases action with
  | accept acting dialled accepting world =>
      have hbelow := (h.callers host number place.1 place.2 hcaller).1
      refine (if_neg ?_).trans hcaller
      rintro ⟨rfl, rfl⟩
      exact hbelow.false
  | _ => exact hcaller

/-- A link keeps its ends. -/
theorem Wired.far_next (h : Wired system) (hadmissible : system.Admissible action) {own : ι}
    {socket : Socket} {place : ι × Socket} (hfar : system.far own socket = some place) :
    (system.next platform platforms action).far own socket = some place := by
  cases action with
  | accept acting dialled accepting world =>
      obtain ⟨-, -, -, hfree⟩ := hadmissible
      have hcaller : ¬ (own = accepting ∧ socket = (system.peers accepting).sockets) := by
        rintro ⟨rfl, rfl⟩
        rw [far, Option.or_eq_some_iff] at hfar
        rcases hfar with hold | ⟨-, hold⟩
        · exact (h.callers _ _ _ _ hold).1.false
        · exact (h.callees _ _ _ hold).false
      have hsame : (system.next platform platforms (.accept acting dialled accepting world)).caller
          own socket = system.caller own socket := if_neg hcaller
      rw [far, hsame]
      rw [far, Option.or_eq_some_iff] at hfar
      rcases hfar with hold | ⟨hnone, hold⟩
      · rw [hold]
        rfl
      · have hcallee : ¬ (own = acting ∧ socket = dialled) := by
          rintro ⟨rfl, rfl⟩
          rw [hfree] at hold
          cases hold
        rw [hnone, Option.none_or]
        exact (if_neg hcallee).trans hold
  | _ => exact hfar

theorem Wired.past_next (platform : Platform) (platforms : ι → Platform) (h : Wired system)
    (hadmissible : system.Admissible action) :
    Past system (system.next platform platforms action) where
  toBefore := h.before_next platform platforms hadmissible
  peers own := by
    obtain ⟨new, hlog⟩ := nextPeer_grows platforms system action own
    change _ ⊆ (system.nextPeer platforms action own).log
    rw [hlog]
    exact List.subset_append_right _ _
  far own socket place hfar := h.far_next hadmissible hfar
  caller host number place hcaller := h.caller_next hcaller
  sockets := nextRelay_sockets hadmissible
  owned socket own howner hbelow := by
    rcases owner_of_next howner with hold | ⟨hnew, -⟩
    · exact hold
    · exact absurd hnew hbelow.ne
  called host number place hplace hbelow := by
    obtain ⟨own, socket⟩ := place
    rcases caller_of_next hplace with hold | ⟨-, -, hnew⟩
    · exact hold
    · exact absurd hnew hbelow.ne
  counted own := nextPeer_sockets own

theorem run_past (run : (machine platform platforms).Run Admissible trace system) :
    ∀ visit ∈ trace, Past visit.1 system :=
  run.since (fun _ _ _ h h' => h.trans h')
    fun _ _ _ run hadmissible => (run_wired run).past_next platform platforms hadmissible

/-! ## What is on its way was sent -/

/-- What is on its way to the relay or over a link was written at the other end. -/
structure Posted (system : PeerSystem ι) : Prop where
  up : ∀ socket, ∀ message ∈ system.up socket, ∃ own, system.owner socket = some own ∧
    .sent .relay message ∈ Peer.events (system.peers own).log
  road : ∀ own socket, ∀ message ∈ system.road own socket, ∃ other number,
    system.far own socket = some (other, number) ∧
      .sent (.link number) message ∈ Peer.events (system.peers other).log

omit [DecidableEq ι] in
theorem sent_of_told {peer after : Peer} {channel : Peer.Channel} {message : JsonObject}
    (h : message ∈ peer.told channel after) : .sent channel message ∈ Peer.events after.log := by
  obtain ⟨entry, hentry, hsent⟩ := exists_of_mem_news h
  refine List.mem_map.2 ⟨entry, hentry, ?_⟩
  unfold Peer.Event.over at hsent
  split at hsent
  · next own sent hevent =>
      split at hsent
      · next hown => rw [hevent, hown, Option.some.inj hsent]
      · cases hsent
  · cases hsent

theorem Posted.next (h : Posted system) (hwired : Wired system)
    (hadmissible : system.Admissible action) :
    Posted (system.next platform platforms action) := by
  have hpast := hwired.past_next platform platforms hadmissible
  refine ⟨fun socket message hmessage => ?_, fun own socket message hmessage => ?_⟩
  · change message ∈ system.upLeft action socket ++ _ at hmessage
    rcases List.mem_append.1 hmessage with hold | hnew
    · obtain ⟨own, howner, hsent⟩ :=
        h.up socket message ((upLeft_sublist system action socket).subset hold)
      exact ⟨own, hwired.owner_next howner, hpast.sent hsent⟩
    · cases howner : system.owner socket with
      | none =>
          rw [howner] at hnew
          cases hnew
      | some own =>
          rw [howner] at hnew
          dsimp only at hnew
          split at hnew
          · exact ⟨own, hwired.owner_next howner, sent_of_told hnew⟩
          · cases hnew
  · change message ∈ system.roadLeft action own socket ++ _ at hmessage
    rcases List.mem_append.1 hmessage with hold | hnew
    · obtain ⟨other, number, hfar, hsent⟩ :=
        h.road own socket message ((roadLeft_sublist system action own socket).subset hold)
      exact ⟨other, number, hpast.far _ _ _ hfar, hpast.sent hsent⟩
    · cases hfar : system.far own socket with
      | none =>
          rw [hfar] at hnew
          cases hnew
      | some place =>
          rw [hfar] at hnew
          exact ⟨place.1, place.2, hpast.far _ _ _ hfar, sent_of_told hnew⟩

theorem run_posted (run : (machine platform platforms).Run Admissible trace system) :
    Posted system := by
  induction run with
  | start hinit =>
      obtain ⟨time, -, rfl⟩ := hinit
      exact ⟨by simp, by simp⟩
  | step run hadmissible ih => exact ih.next (run_wired run) hadmissible

/-! ## One turn back -/

omit [DecidableEq ι] in
/-- What the relay hears on the connection of a peer, the peer has sent. -/
theorem Posted.spoken (h : Posted system) (hadmissible : system.Admissible action)
    {step : RelayServer.Step} {socket : Socket} {message : JsonObject} {own : ι}
    (hstep : system.relayStep action = some step) (hinput : step.input = .text socket message)
    (howner : system.owner socket = some own) :
    .sent .relay message ∈ Peer.events (system.peers own).log := by
  cases action with
  | up acting full =>
      simp only [relayStep, Option.map_eq_some_iff] at hstep
      obtain ⟨sent, hhead, rfl⟩ := hstep
      cases hinput
      obtain ⟨other, hother, hsent⟩ := h.up socket message (List.mem_of_mem_head? hhead)
      obtain rfl := Option.some.inj (howner.symm.trans hother)
      exact hsent
  | relay given =>
      obtain rfl := Option.some.inj hstep
      rw [hadmissible.2.2 socket message hinput] at howner
      cases howner
  | clock time world =>
      obtain rfl := Option.some.inj hstep
      cases hinput
  | dial acting =>
      obtain rfl := Option.some.inj hstep
      cases hinput
  | peer | down | accept | cross => cases hstep

/-- What a peer hears on a link between two peers, the other one has sent. -/
theorem Posted.crossed (h : Posted system) (hadmissible : system.Admissible action)
    {own other : ι} {socket number : Socket} {step : Peer.Step} {message : JsonObject}
    (hfar : system.far own socket = some (other, number))
    (hstep : system.peerStep own action = some step)
    (hinput : step.input = .linkText socket message) :
    .sent (.link number) message ∈ Peer.events (system.peers other).log := by
  cases action with
  | cross acting own world =>
      simp only [peerStep, Option.ite_none_right_eq_some, Option.map_eq_some_iff] at hstep
      obtain ⟨rfl, sent, hhead, rfl⟩ := hstep
      cases hinput
      obtain ⟨far, socket, hplace, hsent⟩ := h.road _ _ _ (List.mem_of_mem_head? hhead)
      obtain ⟨rfl, rfl⟩ := Prod.mk.inj (Option.some.inj (hfar.symm.trans hplace))
      exact hsent
  | peer acting given =>
      simp only [peerStep, Option.ite_none_right_eq_some, Option.some.injEq] at hstep
      obtain ⟨rfl, rfl⟩ := hstep
      rw [hadmissible.2.2.2 socket message hinput] at hfar
      cases hfar
  | clock time world =>
      obtain rfl := Option.some.inj hstep
      cases hinput
  | down acting world =>
      simp only [peerStep, Option.ite_none_right_eq_some, Option.bind_eq_bind,
        Option.bind_eq_some_iff] at hstep
      obtain ⟨-, line, -, sent, -, hstep⟩ := hstep
      obtain rfl := Option.some.inj hstep
      cases hinput
  | accept acting number host world =>
      simp only [peerStep, Option.ite_none_right_eq_some, Option.some.injEq] at hstep
      obtain ⟨-, rfl⟩ := hstep
      cases hinput
  | relay | dial | up => cases hstep

/-- What the relay heard on the connection of a peer, the peer has sent. -/
theorem sent_of_heard (run : (machine platform platforms).Run Admissible trace system)
    {visit : RelayServer × RelayServer.Step} (hvisit : visit ∈ relayTrace trace) {socket : Socket}
    {message : JsonObject} {own : ι} (hinput : visit.2.input = .text socket message)
    (hactive : visit.1.active socket = true) (howner : system.owner socket = some own) :
    .sent .relay message ∈ Peer.events (system.peers own).log := by
  obtain ⟨⟨earlier, action⟩, hmem, hstep, hrelay⟩ := mem_relayTrace hvisit
  obtain ⟨later, before, hsplit⟩ := List.append_of_mem hmem
  obtain ⟨hrun, hadmissible⟩ := run.visited hsplit
  have hpast := run_past run _ hmem
  -- An active session has a socket that the relay already accepted.
  have hbelow : socket < earlier.relay.sockets := by
    have hledger := RelayServer.run_ledger ((run_relay hrun).mono fun _ _ htimely => htimely.1)
    refine hledger.numbered socket ?_
    rw [← hrelay, RelayServer.active] at hactive
    cases hsession : earlier.relay.sessions.lookup socket with
    | none =>
        rw [hsession] at hactive
        cases hactive
    | some session => exact Table.mem_of_lookup hsession
  exact hpast.sent ((run_posted hrun).spoken hadmissible hstep hinput
    (hpast.owned socket own howner hbelow))

/-- What a peer is told was sent to a connection of its own. -/
theorem sent_of_relay (run : (machine platform platforms).Run Admissible trace system) {own : ι}
    {turn : Peer × Peer.Step} (hturn : turn ∈ peerTrace own trace) {type : String}
    {message : JsonObject} (htold : Peer.Told turn.1 turn.2 type message) :
    ∃ socket sent, system.owner socket = some own ∧
      .sent socket sent ∈ RelayServer.events system.relay.log ∧ message = sent.json ∧
      sent.kind = type := by
  obtain ⟨visit, hvisit, hstep, -⟩ := mem_peerTrace hturn
  obtain ⟨later, before, hsplit⟩ := List.append_of_mem hvisit
  obtain ⟨hrun, hadmissible⟩ := run.visited hsplit
  have hpast := run_past run visit hvisit
  obtain ⟨socket, sent, rest, world, -, -, -, howner, hsent, rfl⟩ :=
    heard_of_peerStep (run_wired hrun) hadmissible hstep htold.heard
  refine ⟨socket, sent, hpast.owner socket own howner, hpast.told hsent, rfl, ?_⟩
  exact (kind_of_sent (run_kept hrun).1 hsent).symm.trans htold.typed

/-- The routes that the relay had in a turn are in its history. -/
theorem routed_of_turn (run : (machine platform platforms).Run Admissible trace system)
    {visit : RelayServer × RelayServer.Step} (hvisit : visit ∈ relayTrace trace) {key : String}
    {route : RelayServer.Route} (hroute : visit.1.routes.lookup key = some route) :
    .routed key route.client route.host route.id ∈ RelayServer.events system.relay.log := by
  obtain ⟨own, hmem, -, hrelay⟩ := mem_relayTrace hvisit
  obtain ⟨later, before, hsplit⟩ := List.append_of_mem hmem
  obtain ⟨hrun, -⟩ := run.visited hsplit
  have hrecorded := RelayServer.run_recorded ((run_relay hrun).mono fun _ _ htimely => htimely.1)
  exact (run_past run own hmem).told (hrecorded.routes key route (hrelay ▸ hroute))

/-! ## The two ends of a link -/

/-- A dialled link and the link that was accepted for it are each other's ends. -/
structure Joined (system : PeerSystem ι) : Prop where
  back : ∀ own socket host number, system.callee own socket = some (host, number) →
    system.caller host number = some (own, socket)
  accepted : ∀ host number place, system.caller host number = some place →
    ∀ link, (system.peers host).links.lookup number = some link → link.outgoing = false

theorem Joined.next (h : Joined system) (hwired : Wired system)
    (hlinks : ∀ own, ∃ trace, Peer.Directed trace (system.peers own) ∧
      Peer.Aimed trace (system.peers own))
    (hadmissible : system.Admissible action) :
    Joined (system.next platform platforms action) := by
  have hold : ∀ host number place, system.caller host number = some place →
      ∀ link, (system.nextPeer platforms action host).links.lookup number = some link →
        link.outgoing = false := by
    intro host number place hplace link hlink
    have hbelow := (hwired.callers host number place.1 place.2 hplace).1
    cases hout : link.outgoing with
    | false => rfl
    | true =>
        have hsided : Peer.Sided (system.peers host) (system.nextPeer platforms action host) := by
          cases hstep : system.peerStep host action with
          | none =>
              rw [nextPeer_of_none hstep]
              exact .refl _
          | some step =>
              rw [nextPeer_of_some hstep]
              exact Peer.next_sided _ _ _
        obtain ⟨before, hbefore, hdialled⟩ := hsided.outgoing number hbelow link hlink hout
        rw [h.accepted host number place hplace before hbefore] at hdialled
        cases hdialled
  refine ⟨fun own socket host number hcallee => ?_, fun host number place hcaller => ?_⟩
  · cases action with
    | accept acting dialled accepting world =>
        change (if own = acting ∧ socket = dialled then
          some (accepting, (system.peers accepting).sockets) else system.callee own socket) =
            some (host, number) at hcallee
        change (if host = accepting ∧ number = (system.peers accepting).sockets then
          some (acting, dialled) else system.caller host number) = some (own, socket)
        split at hcallee
        · next hnew =>
            obtain ⟨rfl, rfl⟩ := hnew
            obtain ⟨rfl, rfl⟩ := Prod.mk.inj (Option.some.inj hcallee)
            exact if_pos ⟨rfl, rfl⟩
        · have hcaller := h.back own socket host number hcallee
          have hbelow := (hwired.callers host number own socket hcaller).1
          rw [if_neg, hcaller]
          rintro ⟨rfl, rfl⟩
          exact hbelow.false
    | _ => exact h.back own socket host number hcallee
  · obtain ⟨acting, dialled⟩ := place
    rcases caller_of_next hcaller with hbefore | ⟨world, rfl, rfl⟩
    · exact hold host number _ hbefore
    · intro link hlink
      -- The socket is new, so its link is the one that was accepted just now.
      have hstep : system.peerStep host (.accept acting dialled host world) =
          some ⟨.newConnection, world⟩ := if_pos rfl
      change (system.nextPeer platforms _ host).links.lookup _ = some link at hlink
      rw [nextPeer_of_some hstep] at hlink
      change (Peer.newConnection (system.peers host)).links.lookup _ = some link at hlink
      obtain ⟨trace, hdirected, haimed⟩ := hlinks host
      have hnone : ∀ link, (system.peers host).links.lookup (system.peers host).sockets =
          some link → link.outgoing = false := by
        intro link hlink
        cases hout : link.outgoing with
        | false => rfl
        | true =>
            exact absurd (haimed.below _ _ (hdirected.links _ link hlink hout).1) (lt_irrefl _)
      unfold Peer.newConnection at hlink
      split at hlink
      · exact hnone link hlink
      split at hlink
      · exact hnone link hlink
      · rcases Table.lookup_insert_eq_some.1 hlink with ⟨-, rfl⟩ | ⟨hne, -⟩
        · rfl
        · exact absurd rfl hne

theorem run_joined (run : (machine platform platforms).Run Admissible trace system) :
    Joined system := by
  induction run with
  | start hinit =>
      obtain ⟨time, -, rfl⟩ := hinit
      exact ⟨by simp, by simp⟩
  | step run hadmissible ih =>
      exact ih.next (run_wired run) (fun own => ⟨_, Peer.run_directed (run_sensible run own)⟩)
        hadmissible

/-- What a peer heard on a link that it accepted, the peer that dialled it has sent. -/
theorem sent_of_accepted (run : (machine platform platforms).Run Admissible trace system)
    {host own : ι} {number socket : Socket} {visit : Peer × Peer.Step} {link : Peer.Link}
    {message : JsonObject} (hvisit : visit ∈ peerTrace host trace)
    (hheard : Peer.Heard visit.1 visit.2 number link message)
    (hcaller : system.caller host number = some (own, socket)) :
    .sent (.link socket) message ∈ Peer.events (system.peers own).log := by
  obtain ⟨⟨earlier, action⟩, hmem, hstep, hpeer⟩ := mem_peerTrace hvisit
  obtain ⟨later, before, hsplit⟩ := List.append_of_mem hmem
  obtain ⟨hrun, hadmissible⟩ := run.visited hsplit
  have hpast := run_past run _ hmem
  have hbelow : number < (earlier.peers host).sockets := by
    refine (Peer.run_ticketed (run_peer hrun host)).below number ?_
    rw [hpeer]
    exact hheard.attached
  have hfar : earlier.far host number = some (own, socket) := by
    rw [far, hpast.called host number _ hcaller hbelow]
    rfl
  exact hpast.sent ((run_posted hrun).crossed hadmissible hfar hstep hheard.heard)

/-! ## Where a result comes from -/

/-- In a turn of its own, the host was given the payload, and `handle` returned the result. -/
def Answered (trace : List (PeerSystem ι × Action ι)) (host : ι) (channel : Peer.Channel)
    (name : String) (payload result : JsonObject) : Prop :=
  ∃ turn ∈ peerTrace host trace, ∃ peerId, Peer.Given turn.1 turn.2 channel name peerId payload ∧
    result = (turn.1.handle turn.2.world channel name peerId payload).2

/-- The peer heard the result of the request on a link. -/
def Hears (own : ι) (socket : Socket) (id : String) (result : JsonObject)
    (visit : PeerSystem ι × Action ι) : Prop :=
  ∃ step message, visit.1.peerStep own visit.2 = some step ∧
    step.input = .linkText socket message ∧ id = (message.value "id").toString ∧
    result = (message.value "result").toObject

/-- What stands behind the result of a request that a response completes: the relay refused
it, or the host that it was routed to answered it, or the host at the other end of the link.
Of hosts that are not peers of the system nothing is known. -/
inductive Outcome (system : PeerSystem ι) (trace : List (PeerSystem ι × Action ι)) (own : ι)
    (id : String) (payload result : JsonObject) : Peer.Channel → Prop
  | refused {code : String} : code ∈ RelayServer.refusals → result = errorObject code →
      Outcome system trace own id payload result .relay
  | relayed {client target : Socket} {route : String} : system.owner client = some own →
      .routed route client target id ∈ RelayServer.events system.relay.log →
      (∀ host, system.owner target = some host →
        Answered trace host .relay route payload result) →
      Outcome system trace own id payload result .relay
  | linked {socket : Socket} {visit : PeerSystem ι × Action ι} : visit ∈ trace →
      Hears own socket id result visit →
      (∀ host number, visit.1.far own socket = some (host, number) →
        Answered trace host (.link number) id payload result) →
      Outcome system trace own id payload result (.link socket)

/-- The payload of a request that is sent is the one that was handed over. -/
theorem payload_of_asked (run : (machine platform platforms).Run Admissible trace system) {own : ι}
    {channel way : Peer.Channel} {id : String} {payload : JsonObject} {message : JsonObject}
    (hhanded : .handed id channel payload ∈ Peer.events (system.peers own).log)
    (hsent : .sent way message ∈ Peer.events (system.peers own).log)
    (htype : messageType message = "request") (hid : (message.value "id").toString = id) :
    (message.value "payload").toObject = payload := by
  obtain ⟨hplaced, -⟩ := Peer.run_placed (run_sensible run own)
  obtain ⟨name, peerId, given, deadline, -, hgiven, rfl⟩ := hplaced.carried way message hsent htype
  rw [Peer.requestOver_id] at hid
  subst hid
  rw [Peer.requestOver_payload]
  have hsame := eq_of_countP_le_one (Peer.countP_hands_le_one hplaced.first name) hhanded hgiven
    (by simp [Peer.Event.hands]) (by simp [Peer.Event.hands])
  exact (Peer.Event.handed.inj hsame).2.2.symm

/-- A host that answers a route was given the payload of the request that has it. -/
theorem payload_of_given (run : (machine platform platforms).Run Admissible trace system)
    {own host : ι} {client target : Socket} {route id peerId : String}
    {payload given : JsonObject} {channel : Peer.Channel} {turn : Peer × Peer.Step}
    (howner : system.owner client = some own)
    (hrouted : .routed route client target id ∈ RelayServer.events system.relay.log)
    (hhanded : .handed id channel payload ∈ Peer.events (system.peers own).log)
    (hturn : turn ∈ peerTrace host trace)
    (hgiven : Peer.Given turn.1 turn.2 .relay route peerId given) : given = payload := by
  have hrelay := (run_relay run).mono fun _ _ (htimely : RelayServer.Timely _ _) => htimely.1
  generalize hroute : route = name at hgiven
  cases hgiven with
  | relay htold =>
      obtain ⟨socket, sent, -, hsent, rfl, hkind⟩ := sent_of_relay run hturn htold
      cases sent with
      | request other key name data =>
          obtain ⟨visit, hvisit, message, hmeeting, -, hdata, henters, -⟩ :=
            RelayServer.run_forwarded hrelay hsent
          have hforwarded := henters.mem hrelay hvisit
          have hkey : route = key := hroute
          obtain ⟨rfl, -, hid⟩ :=
            (RelayServer.run_routed hrelay).single _ _ _ _ _ _ _ hrouted (hkey ▸ hforwarded)
          have hheard := sent_of_heard run hvisit hmeeting.input hmeeting.active howner
          rw [← payload_of_asked run hhanded hheard hmeeting.typed hid.symm, ← hdata]
          cases data <;> rfl
      | _ => exact absurd hkind (by simp [RelayServer.Outgoing.kind])

/-- What a host responded was the answer to something that it was given. -/
theorem answered_of_sent (run : (machine platform platforms).Run Admissible trace system)
    {host : ι} {channel : Peer.Channel} {message : JsonObject} {name : String}
    {payload result : JsonObject}
    (hsent : .sent channel message ∈ Peer.events (system.peers host).log)
    (htype : messageType message = "response") (hname : (message.value "id").toString = name)
    (hresult : (message.value "result").toObject = result)
    (hpayload : ∀ turn ∈ peerTrace host trace, ∀ peerId given,
      Peer.Given turn.1 turn.2 channel name peerId given → given = payload) :
    Answered trace host channel name payload result := by
  obtain ⟨turn, hturn, id, peerId, given, hgiven, rfl⟩ :=
    Peer.responded_of_sent (run_peer run host) hsent htype
  rw [Peer.responseMessage_id] at hname
  rw [Peer.responseMessage_result] at hresult
  subst hname
  obtain rfl := hpayload turn hturn peerId given hgiven
  exact ⟨turn, hturn, peerId, hgiven, hresult.symm⟩

theorem outcome_of_relay (run : (machine platform platforms).Run Admissible trace system)
    {own : ι} {id : String} {payload : JsonObject} {message : JsonObject} {turn : Peer × Peer.Step}
    (hturn : turn ∈ peerTrace own trace) (htold : Peer.Told turn.1 turn.2 "response" message)
    {channel : Peer.Channel} (hid : (message.value "id").toString = id)
    (hhanded : .handed id channel payload ∈ Peer.events (system.peers own).log) :
    Outcome system trace own id payload (message.value "result").toObject .relay := by
  have hrelay := (run_relay run).mono fun _ _ (htimely : RelayServer.Timely _ _) => htimely.1
  obtain ⟨client, sent, howner, hsent, rfl, hkind⟩ := sent_of_relay run hturn htold
  obtain ⟨entry, hentry, hevent⟩ := List.mem_map.1 hsent
  obtain ⟨visit, hvisit, hsaid⟩ := RelayServer.run_said hrelay entry hentry
  cases sent with
  | response source name data =>
      obtain rfl : name = id := hid
      have hdata : ((RelayServer.Outgoing.response source name data).json.value "result").toObject =
          data.toObject := by
        cases data <;> rfl
      rw [hdata]
      cases source with
      | none =>
          simp only [RelayServer.Said, hevent] at hsaid
          obtain ⟨code, hcode, rfl⟩ := hsaid
          exact .refused hcode (JsonObject.json_toObject _)
      | some target =>
          simp only [RelayServer.Said, hevent] at hsaid
          obtain ⟨answer, hreturns, rfl⟩ := hsaid
          obtain ⟨route, hroute, rfl, rfl, rfl⟩ := hreturns.route
          have hrouted := routed_of_turn run hvisit hroute
          refine .relayed howner hrouted fun host htarget => ?_
          have hheard := sent_of_heard run hvisit hreturns.input hreturns.active htarget
          exact answered_of_sent run hheard hreturns.typed rfl rfl fun turn hturn peerId given =>
            payload_of_given run howner hrouted hhanded hturn
  | _ => exact absurd hkind (by simp [RelayServer.Outgoing.kind])

theorem outcome_of_link (run : (machine platform platforms).Run Admissible trace system)
    {own : ι} {id : String} {payload : JsonObject} {message : JsonObject} {turn : Peer × Peer.Step}
    {socket : Socket} {link : Peer.Link} (hturn : turn ∈ peerTrace own trace)
    (hheard : Peer.Heard turn.1 turn.2 socket link message) (hout : link.outgoing = true)
    (htype : messageType message = "response") {channel : Peer.Channel}
    (hid : (message.value "id").toString = id)
    (hhanded : .handed id channel payload ∈ Peer.events (system.peers own).log) :
    Outcome system trace own id payload (message.value "result").toObject (.link socket) := by
  obtain ⟨visit, hvisit, hstep, hpeer⟩ := mem_peerTrace hturn
  obtain ⟨later, before, hsplit⟩ := List.append_of_mem hvisit
  obtain ⟨hrun, hadmissible⟩ := run.visited hsplit
  have hpast := run_past run visit hvisit
  refine .linked hvisit ⟨turn.2, message, hstep, hheard.heard, hid.symm, rfl⟩
    fun host number hfar => ?_
  have hsent := hpast.sent ((run_posted hrun).crossed hadmissible hfar hstep hheard.heard)
  -- The peer dialled this link, so the host is the one that accepted it.
  have hcallee : visit.1.callee own socket = some (host, number) := by
    rw [far, Option.or_eq_some_iff] at hfar
    refine (hfar.resolve_left fun hcaller => ?_).2
    have hin := (run_joined hrun).accepted own socket _ hcaller link (hpeer ▸ hheard.stored)
    rw [hin] at hout
    cases hout
  have hcaller := (run_joined hrun).back own socket host number hcallee
  refine answered_of_sent run hsent htype hid rfl fun own' hown peerId given hgiven => ?_
  generalize hname : id = name at hgiven
  cases hgiven with
  | link hheard' _ _ htyped =>
      have hasked := sent_of_accepted run hown hheard' (hpast.caller host number _ hcaller)
      exact payload_of_asked run hhanded hasked htyped hname.symm

/-- **Where every result comes from**: a request that a response completes was made by the
peer, and its result is an error of the relay, or what the handler of the host returned for
exactly the payload of the request. -/
theorem run_answered (run : (machine platform platforms).Run Admissible trace system) (own : ι)
    (id transport : String) (result : JsonObject) (channel : Peer.Channel)
    (h : .completed id result transport (some channel) ∈ Peer.events (system.peers own).log) :
    ∃ peerId payload deadline,
      .requested id peerId payload deadline ∈ Peer.events (system.peers own).log ∧
      Outcome system trace own id payload result channel := by
  obtain ⟨hplaced, -⟩ := Peer.run_placed (run_sensible run own)
  -- The request was handed to the channel, and so it was made.
  obtain ⟨entry, hentry, hevent⟩ := List.mem_map.1 h
  obtain ⟨later, earlier, hlog, hreturned⟩ := hplaced.returned.mem hentry
  obtain ⟨-, payload, hhanded⟩ := hreturned _ _ _ _ hevent
  have hmore : ∀ event ∈ Peer.events earlier, event ∈ Peer.events (system.peers own).log := by
    rw [hlog]
    exact fun event hmem => List.map_subset _ (fun _ hold =>
      List.mem_append_right _ (List.mem_cons_of_mem _ hold)) hmem
  have hhanded := hmore _ hhanded
  obtain ⟨handing, hmem, hhands⟩ := List.mem_map.1 hhanded
  obtain ⟨later', earlier', hlog', hfirst⟩ := hplaced.first.mem hmem
  obtain ⟨-, peerId, deadline, hrequested⟩ := hfirst _ _ _ hhands
  have hrequested' : .requested id peerId payload deadline ∈
      Peer.events (system.peers own).log := by
    rw [hlog']
    exact List.map_subset _ (fun _ hold =>
      List.mem_append_right _ (List.mem_cons_of_mem _ hold)) hrequested
  refine ⟨peerId, payload, deadline, hrequested', ?_⟩
  obtain ⟨turn, hturn, hconcluded⟩ := Peer.concluded_of_completed (run_peer run own) h
  cases hconcluded with
  | relay htold => exact outcome_of_relay run hturn htold rfl hhanded
  | link hheard _ hout htype => exact outcome_of_link run hturn hheard hout htype rfl hhanded

/-- A client dials a host, and sends it a request. -/
def linking : List (Action Bool) :=
  joining true { Peer.Options.sample with
    peerId := "h", localEnabled := true, localAddresses := ["a"] } true 0 ++
  joining false { Peer.Options.sample with
    peerId := "c", localEnabled := true, localHostingEnabled := false } false 1 ++
  [.peer false ⟨.request "h" ⟨[]⟩, .sample⟩, .peer false ⟨.startRequest "0", .sample⟩,
    .up 1 fun _ _ => false, .down true .sample, .down true .sample, .down false .sample,
    .accept false 0 true .sample, .peer false ⟨.linkConnected 0 "", .sample⟩, .cross true 0 .sample,
    .cross false 0 .sample, .cross true 0 .sample, .cross false 0 .sample]

/-- The request was completed over the link. -/
def concludes : Peer.Event → Bool
  | .completed id _ transport (some (.link 0)) => id = "0" && transport = "local"
  | _ => false

/-- The handler was called over the link. -/
def serves : Peer.Event → Bool
  | .handled (.link 0) id name _ => id = "0" && name = "c"
  | _ => false

/-- The host answers it. -/
theorem run_linking : ∃ trace system,
    (machine (ι := Bool) .sample fun _ => .sample).Run Admissible trace system ∧
      (Peer.events (system.peers false).log).any concludes = true ∧
      (Peer.events (system.peers true).log).any serves = true ∧
      system.caller true 0 = some (false, 0) ∧ system.relay.randoms = 1 := by
  have hstart : (machine (ι := Bool) .sample fun _ => .sample).Run Admissible [] _ :=
    .start ⟨0, le_rfl, rfl⟩
  have hdown : ∀ {system : PeerSystem Bool} {own : Bool} {world : Peer.World},
      (system.peers own).relay ≠ .connecting → system.Admissible (.down own world) := id
  have hcross : ∀ {system : PeerSystem Bool} {own : Bool} {socket : Socket} {world : Peer.World},
      socket ∉ (system.peers own).dialling → system.Admissible (.cross own socket world) := id
  obtain ⟨trace, run⟩ := hstart.extend linking
    ⟨⟨nofun, nofun, nofun, nofun⟩, ⟨by decide +kernel, by decide +kernel⟩,
      ⟨nofun, nofun, (fun _ => by decide +kernel), nofun⟩, trivial, ⟨trivial, nofun, nofun⟩,
      hdown (by decide +kernel), trivial, hdown (by decide +kernel), hdown (by decide +kernel),
      ⟨nofun, nofun, nofun, nofun⟩, ⟨by decide +kernel, by decide +kernel⟩,
      ⟨nofun, nofun, (fun _ => by decide +kernel), nofun⟩, trivial, ⟨trivial, nofun, nofun⟩,
      hdown (by decide +kernel), trivial, hdown (by decide +kernel), hdown (by decide +kernel),
      ⟨nofun, nofun, nofun, nofun⟩, ⟨nofun, nofun, nofun, nofun⟩, trivial,
      hdown (by decide +kernel), hdown (by decide +kernel), hdown (by decide +kernel),
      ⟨by decide +kernel, by decide +kernel, by decide +kernel, by decide +kernel⟩,
      ⟨nofun, nofun, nofun, nofun⟩, hcross (by decide +kernel), hcross (by decide +kernel),
      hcross (by decide +kernel), hcross (by decide +kernel), trivial⟩
  exact ⟨trace, _, run, by decide +kernel, by decide +kernel, by decide +kernel, by decide +kernel⟩

/-- The result of the client comes from the host. -/
theorem run_answered_linking : ∃ trace system result,
    (machine (ι := Bool) .sample fun _ => .sample).Run Admissible trace system ∧
      .completed "0" result "local" (some (.link 0)) ∈ Peer.events (system.peers false).log ∧
      ∃ peerId payload deadline,
        .requested "0" peerId payload deadline ∈ Peer.events (system.peers false).log ∧
        Outcome system trace false "0" payload result (.link 0) := by
  obtain ⟨trace, system, run, hcompleted, -⟩ := run_linking
  obtain ⟨event, hevent, hconcludes⟩ := List.any_eq_true.1 hcompleted
  unfold concludes at hconcludes
  split at hconcludes
  · next id result transport =>
      simp only [Bool.and_eq_true, decide_eq_true_eq] at hconcludes
      obtain ⟨rfl, rfl⟩ := hconcludes
      exact ⟨trace, system, result, run, hevent,
        run_answered run false "0" "local" result (.link 0) hevent⟩
  · cases hconcludes

end PeerSystem

end ServerHost
