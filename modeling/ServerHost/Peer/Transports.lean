import ServerHost.Peer.Requests

/-!
# A request has one transport

`remote` and `local` offer a channel to every request of a peer, again and again.  What
keeps a request from being sent twice is the transport that it is marked with before it is
sent.  A walk that strays makes an empty entry for an id that is gone; no channel is offered
to it as long as the directory lists no host without a name.

## Strategy

* `Addressed`: whatever is offered a channel has a name.
* `Placed`: a request without a transport was not handed to any, unless its entry is an
  empty one, and a transport that is stored was handed to it.

Both are kept by every elementary change, `Placed` with the help of `Addressed`.
-/

namespace ServerHost

namespace Peer

/-! ## What is said about requests -/

/-- How the transport of a channel is written. -/
def Channel.transport : Channel → String
  | .relay => "remote"
  | .link _ => "local"

/-- The message asks for the request. -/
def asks (id : String) (message : JsonObject) : Bool :=
  messageType message = "request" && (message.value "id").toString = id

/-- What an event sends over a channel. -/
def Event.over (channel : Channel) : Event → Option JsonObject
  | .sent own message => if own = channel then some message else none
  | _ => none

/-- The event sends the request. -/
def Event.sends (id : String) : Event → Bool
  | .sent _ message => asks id message
  | _ => false

/-- The event hands the request to a transport. -/
def Event.hands (id : String) : Event → Bool
  | .handed own _ _ => own = id
  | _ => false

/-- The events that tell the way of requests. -/
def Event.placing : Event → Bool
  | .handed .. | .completed _ _ _ (some _) => true
  | .sent _ message => messageType message = "request"
  | _ => false

/-- A request was handed to the channel. -/
def Handed (log : List Entry) (id : String) (channel : Channel) : Prop :=
  ∃ payload, .handed id channel payload ∈ events log

/-- A request is handed to a transport for the first time, as it was made. -/
def First (entry : Entry) (earlier : List Entry) : Prop :=
  ∀ id channel payload, entry.event = .handed id channel payload →
    (∀ other, ¬ Handed earlier id other) ∧
      ∃ peerId deadline, .requested id peerId payload deadline ∈ events earlier

/-- A response completes a request over the channel it was handed to. -/
def Returned (entry : Entry) (earlier : List Entry) : Prop :=
  ∀ id result transport channel, entry.event = .completed id result transport (some channel) →
    transport = channel.transport ∧ Handed earlier id channel

/-- What the history tells about transports. -/
structure Transported (log : List Entry) : Prop where
  first : Always First log
  counted : ∀ id, (events log).countP (Event.sends id) ≤ (events log).countP (Event.hands id)
  carried : ∀ channel message, .sent channel message ∈ events log →
    messageType message = "request" → ∃ id peerId payload deadline,
      .requested id peerId payload deadline ∈ events log ∧
      .handed id channel payload ∈ events log ∧ message = requestOver channel id peerId payload
  returned : Always Returned log

/-- An entry of the table of requests and the history tell the same. -/
structure Rests (log : List Entry) (id : String) (request : Pending) : Prop where
  unsent : request.transport = "" → request.peer = "" ∨ ∀ channel, ¬ Handed log id channel
  entered : request.peer = "" ∨
    ∃ deadline, .requested id request.peer request.payload deadline ∈ events log
  relay : request.transport = "remote" → Handed log id .relay
  link : ∀ socket, request.socket = some socket →
    request.transport = "local" ∧ Handed log id (.link socket)

structure Placed (peer : Peer) : Prop extends Transported peer.log where
  requests : Table.All (Rests peer.log) peer.requests

/-- Whatever is offered a channel has a name. -/
structure Addressed (peer : Peer) : Prop where
  listed : peer.lists "" = false
  waits : "" ∉ peer.connecting
  links : ∀ socket link, peer.links.lookup socket = some link → link.outgoing = true →
    link.peer ≠ ""
  outbound : ∀ name socket, peer.outbound.lookup name = some socket → socket < peer.sockets ∧
    ∀ link, peer.links.lookup socket = some link →
      link.outgoing = true ∨ (link.authenticated = false ∧ socket ∉ peer.attached)
  attached : ∀ socket ∈ peer.attached, socket ∈ peer.links ∧ socket < peer.sockets
  flushed : ∀ channel peerId, .flushing channel peerId ∈ events peer.log → peerId ≠ ""

/-- The relay lists no host without a name. -/
def Sensible (_ : Peer) (step : Step) : Prop :=
  ∀ message, step.input = .relayText message → messageType message = "peers" →
    ∀ entry ∈ (message.value "peers").toArray,
      (entry.toObject.value "peerId").equals "" = false

variable {platform : Platform} {pre peer after : Peer} {step : Step} {log more : List Entry}

/-! ## Names -/

/-- A change that leaves names alone. -/
theorem Addressed.still (h : Addressed peer)
    (hdirectory : after.directory = peer.directory ∨ after.directory = [])
    (hconnecting : after.connecting = peer.connecting) (hlinks : after.links = peer.links)
    (houtbound : after.outbound = peer.outbound) (hattached : after.attached = peer.attached)
    (hsockets : peer.sockets ≤ after.sockets)
    (hlog : Grows (fun entry => ∀ channel peerId, entry.event ≠ .flushing channel peerId)
      peer.log after.log) : Addressed after where
  listed := by
    rcases hdirectory with hsame | hnone
    · rw [lists, hsame]
      exact h.listed
    · rw [lists, hnone]
      rfl
  waits := hconnecting ▸ h.waits
  links := hlinks ▸ h.links
  outbound name socket hname := by
    obtain ⟨hbelow, hlink⟩ := h.outbound name socket (houtbound ▸ hname)
    rw [hlinks, hattached]
    exact ⟨hbelow.trans_le hsockets, hlink⟩
  attached socket hsocket := by
    obtain ⟨hlink, hbelow⟩ := h.attached socket (hattached ▸ hsocket)
    exact ⟨hlinks ▸ hlink, hbelow.trans_le hsockets⟩
  flushed channel peerId hmem := by
    obtain ⟨new, heq, hnew⟩ := hlog
    rw [heq, events, List.map_append, List.mem_append] at hmem
    rcases hmem with hmem | hmem
    · obtain ⟨entry, hentry, hevent⟩ := List.mem_map.1 hmem
      exact absurd hevent (hnew entry hentry channel peerId)
    · exact h.flushed channel peerId hmem

theorem Addressed.resetLocal (h : Addressed peer) : Addressed peer.resetLocal where
  listed := h.listed
  waits := by simp [Peer.resetLocal]
  links _ _ hlink := by cases hlink
  outbound _ _ hname := by cases hname
  attached socket hsocket := by
    obtain ⟨hold, hnone⟩ := List.mem_filter.1 hsocket
    exact absurd (h.attached socket hold).1 (of_decide_eq_true hnone)
  flushed := h.flushed

/-- A channel is offered to somebody. -/
theorem Addressed.flushes (h : Addressed peer) {channel : Channel} {peerId : String}
    (hflushes : Flushes peer peerId channel) : peerId ≠ "" := by
  rintro rfl
  cases channel with
  | relay =>
      rcases hflushes with hlists | hconnecting
      · exact absurd (h.listed.symm.trans hlists) (by simp)
      · exact h.waits hconnecting
  | link socket =>
      obtain ⟨link, hlink, hauthenticated, hpeer, hreason⟩ := hflushes
      refine h.links socket link hlink ?_ hpeer
      rcases hreason with hout | ⟨name, hname⟩
      · exact hout
      · refine ((h.outbound name socket hname).2 link hlink).resolve_right ?_
        rintro ⟨hnot, -⟩
        rw [hauthenticated] at hnot
        cases hnot

theorem Addressed.dial (h : Addressed peer) {peerId : String} {attempt : Attempt}
    (hpeer : peerId ∈ peer.connecting) : Addressed (peer.dial peerId attempt) where
  listed := h.listed
  waits := h.waits
  links socket link hlink hout := by
    rcases Table.lookup_insert_eq_some.1 hlink with ⟨rfl, rfl⟩ | ⟨-, hold⟩
    · rintro rfl
      exact h.waits hpeer
    · exact h.links socket link hold hout
  outbound name socket hname := by
    rcases Table.lookup_insert_eq_some.1 hname with ⟨rfl, rfl⟩ | ⟨-, hold⟩
    · refine ⟨Nat.lt_succ_self _, fun link hlink => .inl ?_⟩
      rcases Table.lookup_insert_eq_some.1 hlink with ⟨-, rfl⟩ | ⟨hne, -⟩
      · rfl
      · exact absurd rfl hne
    · obtain ⟨hbelow, hlinks⟩ := h.outbound name socket hold
      refine ⟨hbelow.trans (Nat.lt_succ_self _), fun link hlink => ?_⟩
      rcases Table.lookup_insert_eq_some.1 hlink with ⟨rfl, rfl⟩ | ⟨-, hlink⟩
      · exact .inl rfl
      · exact hlinks link hlink
  attached socket hsocket := by
    obtain ⟨hlink, hbelow⟩ := h.attached socket hsocket
    exact ⟨(AList.mem_insert _).2 (.inr hlink), hbelow.trans (Nat.lt_succ_self _)⟩
  flushed channel own hmem := h.flushed channel own ((List.mem_cons.1 hmem).resolve_left (by simp))

theorem Addressed.attach (h : Addressed peer) {socket : Socket} {url : Url} {fingerprint : String}
    (hlink : ∃ link, peer.links.lookup socket = some link ∧ link.outgoing = true)
    (hbelow : socket < peer.sockets) : Addressed (peer.attach socket url fingerprint) where
  listed := h.listed
  waits := h.waits
  links := h.links
  outbound name other hname := by
    obtain ⟨hother, hlinks⟩ := h.outbound name other hname
    refine ⟨hother, fun own hown => ?_⟩
    by_cases hsame : other = socket
    · obtain ⟨link, hstored, hout⟩ := hlink
      rw [hsame] at hown
      obtain rfl := Option.some.inj (hstored.symm.trans hown)
      exact .inl hout
    · refine (hlinks own hown).imp_right fun ⟨hnot, hdetached⟩ => ⟨hnot, fun hmem => ?_⟩
      exact hdetached ((List.mem_cons.1 hmem).resolve_left hsame)
  attached other hother := by
    rcases List.mem_cons.1 hother with rfl | hold
    · obtain ⟨link, hstored, -⟩ := hlink
      exact ⟨Table.mem_of_lookup hstored, hbelow⟩
    · exact h.attached other hold
  flushed := h.flushed

/-- A link of an attached socket is changed, but not its direction and name. -/
theorem Addressed.modify (h : Addressed peer) {socket : Socket} {link : Link} {f : Link → Link}
    (hstored : peer.links.lookup socket = some link) (hattached : socket ∈ peer.attached)
    (hout : (f link).outgoing = link.outgoing)
    (hname : link.outgoing = true → (f link).peer = link.peer) :
    Addressed { peer with links := Table.modify socket f peer.links } where
  listed := h.listed
  waits := h.waits
  links other own hown houtgoing := by
    rcases Table.lookup_modify_eq_some.1 hown with ⟨rfl, old, hold, rfl⟩ | ⟨-, hold⟩
    · obtain rfl := Option.some.inj (hstored.symm.trans hold)
      rw [hout] at houtgoing
      rw [hname houtgoing]
      exact h.links _ _ hold houtgoing
    · exact h.links other own hold houtgoing
  outbound name other hother := by
    obtain ⟨hbelow, hlinks⟩ := h.outbound name other hother
    refine ⟨hbelow, fun own hown => ?_⟩
    rcases Table.lookup_modify_eq_some.1 hown with ⟨rfl, old, hold, rfl⟩ | ⟨-, hold⟩
    · obtain rfl := Option.some.inj (hstored.symm.trans hold)
      rw [hout]
      exact .inl ((hlinks _ hold).resolve_right fun hdetached => hdetached.2 hattached)
    · exact hlinks own hold
  attached other hother := by
    obtain ⟨hlink, hbelow⟩ := h.attached other hother
    exact ⟨Table.mem_modify.2 hlink, hbelow⟩
  flushed := h.flushed

theorem Addressed.change (h : Addressed peer) (hsensible : Sensible pre step)
    (change : Change platform pre step peer after) : Addressed after := by
  -- Most changes touch neither the links nor who is being connected.
  have hstill : ∀ {after : Peer}, after.directory = peer.directory →
      after.connecting = peer.connecting → after.links = peer.links →
      after.outbound = peer.outbound → after.attached = peer.attached →
      after.sockets = peer.sockets →
      Grows (fun entry => ∀ channel peerId, entry.event ≠ .flushing channel peerId)
        peer.log after.log → Addressed after :=
    fun hdirectory hconnecting hlinks houtbound hattached hsockets hlog =>
      h.still (.inl hdirectory) hconnecting hlinks houtbound hattached hsockets.ge hlog
  have hone : ∀ {time : ℤ} {event : Event} {log : List Entry},
      (∀ channel peerId, event ≠ .flushing channel peerId) →
      Grows (fun entry : Entry => ∀ channel peerId, entry.event ≠ .flushing channel peerId) log
        (⟨time, event⟩ :: log) := fun hevent => .cons hevent
  cases change with
  | quiet hquiet =>
      refine h.still hquiet.directory hquiet.connecting hquiet.links hquiet.outbound
        hquiet.attached hquiet.sockets ?_
      refine hquiet.log.mono fun entry hplain channel peerId heq => ?_
      rw [heq] at hplain
      cases hplain
  | relayLost =>
      -- Losing the relay empties the directory, and then the links go.
      have hdown : Addressed (peer.emit .relayLost).relayDown :=
        h.still (.inr rfl) rfl rfl rfl rfl le_rfl (hone (by simp))
      exact hdown.resetLocal
  | reset => exact h.resetLocal
  | take result hmem =>
      obtain ⟨request, hrequest⟩ := Table.mem_iff_lookup.1 hmem
      rw [take_of_lookup hrequest]
      exact hstill rfl rfl rfl rfl rfl rfl (hone (by simp))
  | answer result hrequest =>
      rw [take_of_lookup hrequest]
      exact hstill rfl rfl rfl rfl rfl rfl (hone (by simp))
  | recreate hnone =>
      rw [index_of_not_mem hnone]
      exact hstill rfl rfl rfl rfl rfl rfl (hone (by simp))
  | @flushing _ channel peerId hflushes =>
      refine ⟨h.listed, fun hmem => h.waits (List.mem_filter.1 hmem).1, h.links, h.outbound,
        h.attached, fun own name hmem => ?_⟩
      rcases List.mem_cons.1 hmem with heq | hold
      · cases heq
        exact h.flushes hflushes
      · exact h.flushed own name hold
  | handSent => exact hstill rfl rfl rfl rfl rfl rfl (Grows.trans (hone (by simp)) (hone (by simp)))
  | request peerId payload =>
      simp only [Peer.request]
      split <;> exact hstill rfl rfl rfl rfl rfl rfl (hone (by simp))
  | takeIn =>
      -- The number is above every one a peer was dialled under.
      refine ⟨h.listed, h.waits, fun socket link hlink hout => ?_, fun name socket hname => ?_,
        fun socket hsocket => ?_, h.flushed⟩
      · rcases Table.lookup_insert_eq_some.1 hlink with ⟨rfl, rfl⟩ | ⟨-, hold⟩
        · cases hout
        · exact h.links socket link hold hout
      · obtain ⟨hbelow, hlinks⟩ := h.outbound name socket hname
        have hne : socket ≠ peer.sockets := hbelow.ne
        refine ⟨hbelow.trans (Nat.lt_succ_self _), fun link hlink => ?_⟩
        rcases Table.lookup_insert_eq_some.1 hlink with ⟨rfl, -⟩ | ⟨-, hold⟩
        · exact absurd rfl hne
        · refine (hlinks link hold).imp_right fun hapart => ⟨hapart.1, fun hmem => ?_⟩
          exact hapart.2 ((List.mem_cons.1 hmem).resolve_left hne)
      · rcases List.mem_cons.1 hsocket with rfl | hold
        · exact ⟨(AList.mem_insert _).2 (.inl rfl), Nat.lt_succ_self _⟩
        · obtain ⟨hlink, hbelow⟩ := h.attached socket hold
          exact ⟨(AList.mem_insert _).2 (.inr hlink), hbelow.trans (Nat.lt_succ_self _)⟩
  | dial hpeer => exact h.dial hpeer
  | reach hpeer =>
      refine (h.dial hpeer).attach ⟨_, AList.lookup_insert _, rfl⟩ (Nat.lt_succ_self _)
  | @welcome socket link message hheard =>
      exact h.modify hheard.stored hheard.attached rfl fun _ => rfl
  | @present socket link message text ticket hheard _ hinbound =>
      -- Presenting a ticket needs an accepted link, and those are never outbound.
      have hmodified : Addressed { pre with
          links := Table.modify socket (fun link => { link with
            peer := ticket.peer
            expires := ticket.expires
            authenticated := true }) pre.links } :=
        h.modify hheard.stored hheard.attached rfl fun hout => by
          rw [hinbound] at hout
          cases hout
      exact hmodified.still (.inl rfl) rfl rfl rfl rfl le_rfl (hone (by simp))
  | @unlink _ gone own hown =>
      -- `lost` forgets the outbound entry when it is this link's.
      refine ⟨h.listed, h.waits, fun socket link hlink hout => ?_, fun name socket hname => ?_,
        fun socket hsocket => ?_, fun channel name hmem => ?_⟩
      · exact h.links socket link (Table.lookup_erase_eq_some.1 hlink).2 hout
      · have hbefore : peer.outbound.lookup name = some socket := by
          simp only [Peer.unlink, emit_outbound] at hname
          split at hname
          · exact (Table.lookup_erase_eq_some.1 hname).2
          · exact hname
        obtain ⟨hbelow, hlinks⟩ := h.outbound name socket hbefore
        refine ⟨hbelow, fun link hlink => ?_⟩
        refine (hlinks link (Table.lookup_erase_eq_some.1 hlink).2).imp_right
          fun hapart => ⟨hapart.1, fun hmem => hapart.2 (List.mem_filter.1 hmem).1⟩
      · obtain ⟨hold, hne⟩ := List.mem_filter.1 hsocket
        obtain ⟨hlink, hbelow⟩ := h.attached socket hold
        exact ⟨AList.mem_erase.2 ⟨of_decide_eq_true hne, hlink⟩, hbelow⟩
      · exact h.flushed channel name ((List.mem_cons.1 hmem).resolve_left (by simp))
  | @phantom _ socket hnone =>
      refine ⟨h.listed, h.waits, fun other link hlink hout => ?_, fun name other hname => ?_,
        fun other hother => ?_, h.flushed⟩
      · rcases Table.lookup_insert_eq_some.1 hlink with ⟨rfl, rfl⟩ | ⟨-, hold⟩
        · cases hout
        · exact h.links other link hold hout
      · obtain ⟨hbelow, hlinks⟩ := h.outbound name other hname
        refine ⟨hbelow, fun link hlink => ?_⟩
        rcases Table.lookup_insert_eq_some.1 hlink with ⟨rfl, rfl⟩ | ⟨-, hold⟩
        · exact .inr ⟨rfl, fun hmem => hnone (h.attached _ hmem).1⟩
        · exact hlinks link hold
      · obtain ⟨hlink, hbelow⟩ := h.attached other hother
        exact ⟨(AList.mem_insert _).2 (.inr hlink), hbelow⟩
  | ticket htold =>
      simp only [ticketMessage]
      split
      · exact h
      · exact hstill rfl rfl rfl rfl rfl rfl (hone (by simp))
  | @directory message htold =>
      -- The relay lists no host without a name.
      refine ⟨?_, h.waits, h.links, h.outbound, h.attached, h.flushed⟩
      rw [lists, List.any_eq_false]
      intro entry hentry
      rw [hsensible message htold.heard htold.typed entry hentry]
      simp
  | @await _ peerId hlists =>
      -- A name that is awaited is listed, and the empty one is not.
      refine ⟨h.listed, fun hmem => ?_, h.links, h.outbound, h.attached, h.flushed⟩
      rcases List.mem_cons.1 hmem with rfl | hold
      · exact absurd (h.listed.symm.trans hlists) (by simp)
      · exact h.waits hold
  | refuse | hand | greeted | serve => exact hstill rfl rfl rfl rfl rfl rfl (hone (by simp))
  | _ => exact hstill rfl rfl rfl rfl rfl rfl (.of_eq rfl)

/-! ## Transports -/

theorem Handed.mono {id : String} {channel : Channel} (h : Handed log id channel)
    (hgrows : ∀ event, event ∈ events log → event ∈ events more) : Handed more id channel :=
  h.imp fun _ hmem => hgrows _ hmem

/-- The history grows by events that hand nothing over. -/
theorem handed_iff {id : String} {channel : Channel}
    (hlog : Grows (fun entry => ∀ channel payload, entry.event ≠ .handed id channel payload) log
      more) :
    Handed more id channel ↔ Handed log id channel := by
  obtain ⟨new, rfl, hnew⟩ := hlog
  constructor
  · rintro ⟨payload, hmem⟩
    rw [events, List.map_append, List.mem_append] at hmem
    rcases hmem with hmem | hmem
    · obtain ⟨entry, hentry, heq⟩ := List.mem_map.1 hmem
      exact absurd heq (hnew entry hentry channel payload)
    · exact ⟨payload, hmem⟩
  · refine fun h => h.mono fun event hmem => ?_
    rw [events, List.map_append]
    exact List.mem_append_right _ hmem

theorem Rests.grow {id : String} {request : Pending} (h : Rests log id request)
    (hlog : Grows (fun entry => ∀ channel payload, entry.event ≠ .handed id channel payload)
      log more) : Rests more id request where
  unsent hnone := (h.unsent hnone).imp_right fun hfree channel hhanded =>
    hfree channel ((handed_iff hlog).1 hhanded)
  entered := h.entered.imp_right fun ⟨deadline, hmem⟩ => by
    obtain ⟨new, rfl, -⟩ := hlog
    refine ⟨deadline, ?_⟩
    rw [events, List.map_append]
    exact List.mem_append_right _ hmem
  relay hremote := (handed_iff hlog).2 (h.relay hremote)
  link socket hsocket := (h.link socket hsocket).imp_right (handed_iff hlog).2

/-- An empty entry rests. -/
theorem rests_empty (log : List Entry) (id : String) : Rests log id {} where
  unsent _ := .inl rfl
  entered := .inl rfl
  relay hremote := absurd hremote (by decide)
  link _ hsocket := by cases hsocket

/-- The history grows by events that tell nothing of transports. -/
theorem Transported.grow (h : Transported log)
    (hlog : Grows (fun entry => entry.event.placing = false) log more) : Transported more := by
  obtain ⟨new, rfl, hnew⟩ := hlog
  -- no event of the growth is counted
  have hnone : ∀ P : Event → Bool, (∀ event : Event, event.placing = false → P event = false) →
      (events (new ++ log)).countP P = (events log).countP P := by
    intro P hP
    have hzero : (new.map Entry.event).countP P = 0 := by
      refine List.countP_eq_zero.2 fun event hmem => ?_
      obtain ⟨entry, hentry, rfl⟩ := List.mem_map.1 hmem
      rw [hP _ (hnew entry hentry)]
      simp
    rw [events, List.map_append, List.countP_append, hzero, zero_add]
    rfl
  refine ⟨h.first.append fun entry hentry _ id channel payload heq => ?_, fun id => ?_,
    fun channel message hmem htype => ?_,
    h.returned.append fun entry hentry _ id result transport channel heq => ?_⟩
  · have hplain : entry.event.placing = false := hnew entry hentry
    rw [heq] at hplain
    cases hplain
  · rw [hnone _ fun event hevent => ?_, hnone _ fun event hevent => ?_]
    · exact h.counted id
    · cases event <;> first | rfl | cases hevent
    · cases event with
      | sent channel message =>
          have htype : messageType message ≠ "request" := of_decide_eq_false hevent
          simp [Event.sends, asks, htype]
      | _ => rfl
  · rw [events, List.map_append, List.mem_append] at hmem
    rcases hmem with hmem | hmem
    · obtain ⟨entry, hentry, heq⟩ := List.mem_map.1 hmem
      have hplain : entry.event.placing = false := hnew entry hentry
      rw [heq] at hplain
      exact absurd htype (of_decide_eq_false hplain)
    · obtain ⟨id, peerId, payload, deadline, hmade, hhanded, heq⟩ :=
        h.carried channel message hmem htype
      rw [events, List.map_append]
      exact ⟨id, peerId, payload, deadline, List.mem_append_right _ hmade,
        List.mem_append_right _ hhanded, heq⟩
  · have hplain : entry.event.placing = false := hnew entry hentry
    rw [heq] at hplain
    cases hplain

/-- A change that leaves transports alone. -/
theorem Placed.still (h : Placed peer)
    (hrequests : ∀ id request, after.requests.lookup id = some request →
      peer.requests.lookup id = some request)
    (hlog : Grows (fun entry => entry.event.placing = false) peer.log after.log) :
    Placed after where
  toTransported := h.toTransported.grow hlog
  requests id request hrequest := by
    refine (h.requests id request (hrequests id request hrequest)).grow (hlog.mono ?_)
    intro entry hentry channel payload heq
    rw [heq] at hentry
    cases hentry

/-- A request leaves the table. -/
theorem Placed.take (h : Placed peer) {id : String} {request : Pending} {result : JsonObject}
    {cause : Option Channel} (hrequest : peer.requests.lookup id = some request)
    (hcause : ∀ channel, cause = some channel →
      request.transport = channel.transport ∧ Handed peer.log id channel) :
    Placed (peer.take cause id result) := by
  rw [take_of_lookup hrequest]
  have hplain : ∀ P : Event → Bool, P (.completed id result request.transport cause) = false →
      (events (⟨peer.now, .completed id result request.transport cause⟩ :: peer.log)).countP P =
        (events peer.log).countP P := by
    intro P hP
    rw [events_cons, List.countP_cons_of_neg (by simp [hP])]
  have hfirst : First ⟨peer.now, .completed id result request.transport cause⟩ peer.log :=
    fun _ _ _ heq => by cases heq
  refine ⟨⟨h.first.cons hfirst, fun own => ?_, fun channel message hmem htype => ?_,
    h.returned.cons ?_⟩, fun own other hother => ?_⟩
  · exact (hplain _ rfl).trans_le ((h.counted own).trans (hplain _ rfl).ge)
  · obtain ⟨own, peerId, payload, deadline, hmade, hhanded, heq⟩ :=
      h.carried channel message ((List.mem_cons.1 hmem).resolve_left (by simp)) htype
    exact ⟨own, peerId, payload, deadline, List.mem_cons_of_mem _ hmade,
      List.mem_cons_of_mem _ hhanded, heq⟩
  · rintro own _ _ channel heq
    cases heq
    exact hcause channel rfl
  · exact (h.requests own other (Table.lookup_erase_eq_some.1 hother).2).grow (.cons (by simp))

/-- A request gets its transport. -/
theorem Placed.hand (h : Placed peer) {id : String} {channel : Channel} {request : Pending}
    (hrequest : peer.requests.lookup id = some request) (hunsent : request.transport = "")
    (hnamed : request.peer ≠ "") : Placed (peer.hand id channel request) := by
  have hrests := h.requests id request hrequest
  have hfree := (hrests.unsent hunsent).resolve_left hnamed
  obtain ⟨deadline, hentered⟩ := hrests.entered.resolve_left hnamed
  have hhanded : Handed (peer.hand id channel request).log id channel :=
    ⟨request.payload, List.mem_cons_self⟩
  have hreturned : Returned ⟨peer.now, .handed id channel request.payload⟩ peer.log :=
    fun _ _ _ _ heq => by cases heq
  refine ⟨⟨h.first.cons ?_, fun own => ?_, fun other message hmem htype => ?_,
    h.returned.cons hreturned⟩, fun own other hother => ?_⟩
  · rintro _ _ _ heq
    cases heq
    exact ⟨hfree, request.peer, deadline, hentered⟩
  · have hcount := h.counted own
    simp only [Peer.hand, emit_log, events_cons]
    rw [List.countP_cons_of_neg (by simp [Event.sends]), List.countP_cons]
    exact hcount.trans (Nat.le_add_right ..)
  · obtain ⟨own, peerId, payload, deadline, hmade, hold, heq⟩ :=
      h.carried other message ((List.mem_cons.1 hmem).resolve_left (by simp)) htype
    exact ⟨own, peerId, payload, deadline, List.mem_cons_of_mem _ hmade,
      List.mem_cons_of_mem _ hold, heq⟩
  · rcases Table.lookup_modify_eq_some.1 hother with ⟨rfl, old, hold, rfl⟩ | ⟨hne, hold⟩
    -- the request that is handed over, and then every other one
    · obtain rfl := Option.some.inj (hrequest.symm.trans hold)
      refine ⟨fun hnone => ?_, .inr ⟨deadline, ?_⟩, fun hremote => ?_, fun socket hsocket => ?_⟩
      · cases channel <;> exact absurd hnone (by simp [Pending.over])
      · cases channel <;> exact List.mem_cons_of_mem _ hentered
      · cases channel with
        | relay => exact hhanded
        | link socket => exact absurd hremote (by simp [Pending.over])
      · cases channel with
        | relay =>
            have hlocal := (hrests.link socket hsocket).1
            rw [hunsent] at hlocal
            exact absurd hlocal (by decide)
        | link own =>
            obtain rfl : own = socket := Option.some.inj hsocket
            exact ⟨rfl, hhanded⟩
    · refine (h.requests own other hold).grow (.cons fun _ _ heq => ?_)
      exact hne (Event.handed.inj heq).1.symm

/-- The message of the request that was handed over last is sent. -/
theorem Placed.send (h : Placed peer) {id : String} {channel : Channel} {request : Pending}
    (hrequest : peer.requests.lookup id = some request) (hunsent : request.transport = "")
    (hnamed : request.peer ≠ "") : Placed ((peer.hand id channel request).emit
      (.sent channel (requestOver channel id request.peer request.payload))) := by
  have hhand : Placed (peer.hand id channel request) := h.hand hrequest hunsent hnamed
  -- the message asks for this id alone
  have hasks : ∀ own, asks own (requestOver channel id request.peer request.payload) =
      decide (id = own) := by
    intro own
    cases channel <;> rfl
  have hfirst : ∀ message log, First ⟨peer.now, .sent channel message⟩ log :=
    fun _ _ _ _ _ heq => by cases heq
  have hreturned : ∀ message log, Returned ⟨peer.now, .sent channel message⟩ log :=
    fun _ _ _ _ _ _ heq => by cases heq
  refine ⟨⟨hhand.first.cons (hfirst _ _), fun own => ?_, fun other message hmem htype => ?_,
    hhand.returned.cons (hreturned _ _)⟩,
    fun own other hother => (hhand.requests own other hother).grow (.cons (by simp))⟩
  · have hcount := h.counted own
    simp only [Peer.hand, emit_log, events_cons, List.countP_cons, Event.sends, Event.hands, hasks]
    by_cases hsame : id = own
    · simp only [hsame, decide_true, if_true, Bool.false_eq_true, if_false]
      omega
    · simp only [hsame, decide_false, Bool.false_eq_true, if_false]
      omega
  · rcases List.mem_cons.1 hmem with heq | hold
    · cases heq
      obtain ⟨deadline, hmade⟩ := (h.requests id request hrequest).entered.resolve_left hnamed
      exact ⟨id, request.peer, request.payload, deadline,
        List.mem_cons_of_mem _ (List.mem_cons_of_mem _ hmade),
        List.mem_cons_of_mem _ List.mem_cons_self, rfl⟩
    · obtain ⟨own, peerId, payload, deadline, hmade, hhanded, heq⟩ :=
        hhand.carried other message hold htype
      exact ⟨own, peerId, payload, deadline, List.mem_cons_of_mem _ hmade,
        List.mem_cons_of_mem _ hhanded, heq⟩

theorem Placed.change (h : Placed peer) (haddressed : Addressed peer)
    (hnumbered : Numbered platform peer) (change : Change platform pre step peer after) :
    Placed after := by
  have hone : ∀ {time : ℤ} {event : Event} {log : List Entry}, event.placing = false →
      Grows (fun entry : Entry => entry.event.placing = false) log (⟨time, event⟩ :: log) :=
    fun hevent => .cons hevent
  cases change with
  | quiet hquiet =>
      refine h.still (fun _ _ hold => hquiet.requests ▸ hold) ?_
      refine hquiet.log.mono fun entry hplain => ?_
      cases hevent : entry.event with
      | sent channel message =>
          rw [hevent] at hplain
          simp_all [Event.plain, Event.placing]
      | closed | pairing => rfl
      | _ =>
          rw [hevent] at hplain
          cases hplain
  | take result hmem =>
      obtain ⟨request, hrequest⟩ := Table.mem_iff_lookup.1 hmem
      exact h.take hrequest fun _ heq => by cases heq
  | @answer id request channel result hrequest hanswers =>
      -- A response over the relay needs a request marked as sent over it,
      -- and one over a link needs the link the request was handed to.
      refine h.take hrequest fun own heq => ?_
      obtain rfl := Option.some.inj heq
      have hrests := h.requests id request hrequest
      cases channel with
      | relay =>
          obtain ⟨message, -, -, hremote⟩ := hanswers
          exact ⟨hremote, hrests.relay hremote⟩
      | link socket =>
          obtain ⟨link, message, -, -, -, -, hsocket⟩ := hanswers
          exact hrests.link socket hsocket
  | @recreate _ id hnone =>
      -- `requests[id]` makes an empty request, which rests on no channel.
      rw [index_of_not_mem hnone]
      refine ⟨h.toTransported.grow (hone rfl), fun own request hrequest => ?_⟩
      rcases Table.lookup_insert_eq_some.1 hrequest with ⟨rfl, rfl⟩ | ⟨-, hold⟩
      · exact rests_empty _ _
      · exact (h.requests own request hold).grow (.cons (by simp))
  | hand hrequest hunsent hflushing =>
      -- A request is handed over once: it was not marked before.
      exact h.hand hrequest hunsent (haddressed.flushed _ _ hflushing)
  | handSent hrequest hunsent hflushing =>
      exact h.send hrequest hunsent (haddressed.flushed _ _ hflushing)
  | request peerId payload =>
      simp only [Peer.request]
      split
      · exact h.still (fun _ _ => id) (hone rfl)
      · refine ⟨h.toTransported.grow (hone rfl), fun own request hrequest => ?_⟩
        rcases Table.lookup_insert_eq_some.1 hrequest with ⟨rfl, rfl⟩ | ⟨-, hold⟩
        -- The id is fresh, so nothing was handed over under it.
        · refine ⟨fun _ => .inr fun channel hhanded => ?_, .inr ⟨_, List.mem_cons_self⟩,
            fun hremote => absurd hremote (by simp), fun _ hsocket => by cases hsocket⟩
          obtain ⟨own, hmem⟩ := hhanded
          have hbefore := (List.mem_cons.1 hmem).resolve_left (by simp)
          obtain ⟨entry, hentry, heq⟩ := List.mem_map.1 hbefore
          obtain ⟨later, earlier, hsplit, hfirst⟩ := h.first.mem hentry
          obtain ⟨-, name, deadline, hmade⟩ := hfirst _ _ _ heq
          refine hnumbered.fresh (.inl ⟨name, own, deadline, ?_⟩)
          rw [hsplit, events, List.map_append]
          exact List.mem_append_right _ (List.mem_cons_of_mem _ hmade)
        · exact (h.requests own request hold).grow (.cons (by simp))
  | ticket =>
      simp only [ticketMessage]
      split
      · exact h
      · exact h.still (fun _ _ => id) (hone rfl)
  | greeted => exact h.still (fun _ _ => id) (hone rfl)
  | relayLost | refuse | flushing | dial | reach | present | unlink | serve =>
      exact h.still (fun _ _ => id) (hone rfl)
  | _ => exact h.still (fun _ _ => id) (.of_eq rfl)

/-- **A request is handed to one transport, once, and answered over it.** -/
theorem run_placed {trace : List (Peer × Step)}
    (run : (machine platform).Run Sensible trace peer) : Placed peer ∧ Addressed peer := by
  have hrun : Numbered platform peer ∧ Placed peer ∧ Addressed peer := by
    refine run.invariant_state (I := fun state =>
      Numbered platform state ∧ Placed state ∧ Addressed state) ?_ ?_
    swap
    · intro state input h hsensible
      refine (next_changes platform state input).invariant (I := fun state =>
        Numbered platform state ∧ Placed state ∧ Addressed state) ?_ h
      rintro own after change ⟨hnumbered, hplaced, haddressed⟩
      exact ⟨hnumbered.move (move_of_change change),
        hplaced.change haddressed hnumbered change, haddressed.change hsensible change⟩
    rintro state ⟨time, rfl⟩
    refine ⟨run_numbered (.start ⟨time, rfl⟩), ⟨⟨.nil, by simp [events], by simp [events], .nil⟩,
      .empty _⟩, ⟨rfl, by simp, by simp, by simp, by simp, by simp [events]⟩⟩
  exact hrun.2

/-- Handed over once. -/
theorem countP_hands_le_one (h : Always First log) (id : String) :
    (events log).countP (Event.hands id) ≤ 1 := by
  induction log with
  | nil => exact Nat.zero_le _
  | cons entry rest ih =>
      rw [events_cons, List.countP_cons]
      have hrest := ih h.tail
      split
      · next hhands =>
          -- Before the request is handed over, it was not.
          have hzero : (events rest).countP (Event.hands id) = 0 := by
            obtain ⟨time, event⟩ := entry
            cases event with
            | handed own channel payload =>
                obtain rfl : own = id := of_decide_eq_true hhands
                have hfree := (h.head _ _ _ rfl).1
                refine List.countP_eq_zero.2 fun event hmem hagain => ?_
                cases event with
                | handed other way sent =>
                    obtain rfl : other = own := of_decide_eq_true hagain
                    exact hfree way ⟨sent, hmem⟩
                | _ => cases hagain
            | _ => cases hhands
          omega
      · omega

/-! ## The calls of the handler -/

/-- The handler was called. -/
def Event.handles : Event → Bool
  | .handled .. => true
  | _ => false

/-- A change of a turn calls the handler as the first change of the turn, or not at all. -/
theorem change_handles (change : Change platform pre step peer after) :
    Grows (fun entry => entry.event.handles = false) peer.log after.log ∨
      ∃ channel id peerId payload, Serves pre step id peerId channel ∧ peer = pre ∧
        after.log = ⟨pre.now, .handled channel id peerId payload⟩ :: pre.log := by
  -- every change but `serve` writes no handler call
  have hone : ∀ {time : ℤ} {event : Event} {log : List Entry}, event.handles = false →
      Grows (fun entry : Entry => entry.event.handles = false) log (⟨time, event⟩ :: log) :=
    fun hevent => .cons hevent
  cases change with
  | quiet hquiet =>
      refine .inl (hquiet.log.mono fun entry hplain => ?_)
      cases hevent : entry.event with
      | handled =>
          rw [hevent] at hplain
          cases hplain
      | _ => rfl
  | take result hmem =>
      obtain ⟨request, hrequest⟩ := Table.mem_iff_lookup.1 hmem
      rw [take_of_lookup hrequest]
      exact .inl (hone rfl)
  | answer result hrequest =>
      rw [take_of_lookup hrequest]
      exact .inl (hone rfl)
  | recreate hnone =>
      rw [index_of_not_mem hnone]
      exact .inl (hone rfl)
  | handSent => exact .inl (Grows.trans (hone rfl) (hone rfl))
  | request peerId payload =>
      simp only [Peer.request]
      split <;> exact .inl (hone rfl)
  | ticket =>
      simp only [ticketMessage]
      split
      · exact .inl (.of_eq rfl)
      · exact .inl (hone rfl)
  | serve payload hserves => exact .inr ⟨_, _, _, payload, hserves, rfl, rfl⟩
  | relayLost | refuse | flushing | hand | dial | reach | present | unlink | greeted =>
      exact .inl (hone rfl)
  | _ => exact .inl (.of_eq rfl)

/-- **A turn calls the handler once at most**, for the message that it was given. -/
theorem next_handles (platform : Platform) (peer : Peer) (step : Step) :
    Grows (fun entry => entry.event.handles = false) peer.log (next platform peer step).log ∨
      ∃ new channel id peerId payload, Serves peer step id peerId channel ∧
        (∀ entry ∈ new, entry.event.handles = false) ∧ (next platform peer step).log =
          new ++ ⟨peer.now, .handled channel id peerId payload⟩ :: peer.log := by
  refine (next_changes platform peer step).invariant (I := fun after =>
    Grows (fun entry => entry.event.handles = false) peer.log after.log ∨
      ∃ new channel id peerId payload, Serves peer step id peerId channel ∧
        (∀ entry ∈ new, entry.event.handles = false) ∧ after.log =
          new ++ ⟨peer.now, .handled channel id peerId payload⟩ :: peer.log)
    (fun own after change hown => ?_) (.inl (.of_eq rfl))
  rcases change_handles change with hgrows | ⟨channel, id, peerId, payload, hserves, -, hlog⟩
  · refine hown.imp (fun h => h.trans hgrows)
      fun ⟨new, channel, id, peerId, payload, hserves, hnew, hlog⟩ => ?_
    obtain ⟨newer, hnewer, hall⟩ := hgrows
    refine ⟨newer ++ new, channel, id, peerId, payload, hserves, fun entry hentry => ?_, ?_⟩
    · exact (List.mem_append.1 hentry).elim (hall entry) (hnew entry)
    · rw [hnewer, hlog, List.append_assoc]
  · exact .inr ⟨[], channel, id, peerId, payload, hserves, by simp, hlog⟩

/-! ## What a turn leaves alone -/

theorem now_of_next (hclock : ∀ time, step.input ≠ .clock time) :
    (next platform peer step).now = peer.now := by
  refine (next_changes platform peer step).invariant (I := fun state => state.now = peer.now)
    (fun state after change hstate => Eq.trans ?_ hstate) rfl
  cases change with
  | clock time hinput => exact absurd hinput (hclock time)
  | quiet hquiet => exact hquiet.now
  | take result hmem =>
      obtain ⟨request, hrequest⟩ := Table.mem_iff_lookup.1 hmem
      rw [take_of_lookup hrequest]
      rfl
  | answer result hrequest =>
      rw [take_of_lookup hrequest]
      rfl
  | recreate hnone =>
      rw [index_of_not_mem hnone]
      rfl
  | request peerId payload =>
      simp only [Peer.request]
      split <;> rfl
  | ticket =>
      simp only [ticketMessage]
      split <;> rfl
  | _ => rfl

theorem sockets_le_of_next (platform : Platform) (peer : Peer) (step : Step) :
    peer.sockets ≤ (next platform peer step).sockets := by
  refine (next_changes platform peer step).invariant
    (I := fun state => peer.sockets ≤ state.sockets)
    (fun state after change hstate => hstate.trans ?_) le_rfl
  cases change with
  | quiet hquiet => exact hquiet.sockets
  | take result hmem =>
      obtain ⟨request, hrequest⟩ := Table.mem_iff_lookup.1 hmem
      rw [take_of_lookup hrequest]
      exact le_rfl
  | answer result hrequest =>
      rw [take_of_lookup hrequest]
      exact le_rfl
  | recreate hnone =>
      rw [index_of_not_mem hnone]
      exact le_rfl
  | request peerId payload =>
      simp only [Peer.request]
      split <;> exact le_rfl
  | ticket =>
      simp only [ticketMessage]
      split <;> exact le_rfl
  | takeIn | dial | reach => exact Nat.le_succ _
  | _ => exact le_rfl

theorem newConnection_sockets {peer : Peer} (h : peer.server.isSome = true) :
    peer.newConnection.sockets = peer.sockets + 1 := by
  have hserver : peer.server.isNone = false := by
    cases hserver : peer.server with
    | none =>
        rw [hserver] at h
        cases h
    | some server => rfl
  unfold newConnection
  rw [if_neg (by simp [hserver])]
  split
  · rfl
  · rfl

end Peer

end ServerHost
