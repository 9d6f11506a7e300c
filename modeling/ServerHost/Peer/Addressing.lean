import ServerHost.Peer.Integrity
import ServerHost.Peer.Replays

/-!
# Who calls a handler, and whom a request reaches

The handler of a host is told the name under which the caller was started, and gets a
request only when the caller made it to the name of this host.  Over the relay both names
are those of the sessions; over a link they come from one ticket, of which the relay tells
the two ends in one turn.

## Strategy

A name of a session goes back to the registration of its peer (`named_of_session`).  For a
request over the relay the session is the one that asked (`RelayServer.run_forwarded`).  For
a link, the ticket that the host accepted is the one that the caller presented, and so the
one that the caller was invited with (`invited_of_presented`); since the texts of tickets are
not repeated, both were drawn in one turn (`RelayServer.run_matched`).
-/

namespace ServerHost

namespace PeerSystem

variable {ι : Type*} [DecidableEq ι] {platform : Platform} {platforms : ι → Platform}
variable {system : PeerSystem ι} {trace : List (PeerSystem ι × Action ι)}

/-! ## Names -/

/-- The peer was started with the name. -/
def Named (trace : List (PeerSystem ι × Action ι)) (own : ι) (name : String) : Prop :=
  ∃ turn ∈ peerTrace own trace, turn.1.options.peerId = name

/-- A session has the name that its peer was started with. -/
theorem named_of_session (run : (machine platform platforms).Run Admissible trace system)
    {visit : RelayServer × RelayServer.Step} (hvisit : visit ∈ relayTrace trace) {socket : Socket}
    {own : ι} (howner : system.owner socket = some own)
    (hnamed : (visit.1.session socket).Named) : Named trace own (visit.1.session socket).id := by
  obtain ⟨place, hmem, -, hrelay⟩ := mem_relayTrace hvisit
  obtain ⟨later, before, hsplit⟩ := List.append_of_mem hmem
  obtain ⟨hrun, -⟩ := run.visited hsplit
  have hrecorded := RelayServer.run_recorded ((run_relay hrun).mono fun _ _ htimely => htimely.1)
  rw [hrelay] at hrecorded
  cases hsession : visit.1.sessions.lookup socket with
  | none =>
      -- Where no session is, its default has no name.
      rw [RelayServer.session, Table.value, hsession] at hnamed
      rcases hnamed with hid | hdescriptor
      · exact absurd rfl hid
      · cases hdescriptor
  | some session =>
      rw [RelayServer.session, Table.value_of_lookup hsession] at hnamed ⊢
      obtain ⟨-, hregistered⟩ := hrecorded.sessions socket session hsession hnamed
      have hlast := (run_past run place hmem).told (hrelay ▸ hregistered)
      obtain ⟨entry, hentry, hevent⟩ := List.mem_map.1 hlast
      obtain ⟨origin, horigin, hsaid⟩ := RelayServer.run_said
        ((run_relay run).mono fun _ _ htimely => htimely.1) entry hentry
      simp only [RelayServer.Said, hevent] at hsaid
      obtain ⟨hactive, message, hinput, htype, hid, -⟩ := hsaid
      have hsent := sent_of_heard run horigin hinput hactive howner
      obtain ⟨turn, hturn, rfl⟩ := Peer.registered_of_sent (run_peer run own) hsent htype
      exact ⟨turn, hturn, hid.symm⟩

/-- What is known of a request that reaches the handler of a host, about the turn of the relay
that brought the two together: it was given a message of the session `client`, which is live
and registered, and the message named the session of the host, which is live and of the same
account and service, by the name that the host was started with.  The handler is told the name
of the client's session; if this is a peer of the system, it was started with this name, and
made this request to the name that the host was started with. -/
structure Arrived (system : PeerSystem ι) (trace : List (PeerSystem ι × Action ι)) (host : ι)
    (name id : String) (payload : JsonObject) (type : String) (client target : Socket)
    (visit : RelayServer × RelayServer.Step) (message : JsonObject) : Prop where
  turn : visit ∈ relayTrace trace
  meeting : RelayServer.Meeting visit.1 visit.2 type client target message
  fellows : RelayServer.Fellows visit.1 client target (message.value "peerId").toString
  owner : system.owner target = some host
  caller : name = (visit.1.session client).id
  callee : Named trace host (message.value "peerId").toString
  known : ∀ own, system.owner client = some own → Named trace own name ∧
    ∃ deadline, .requested id (message.value "peerId").toString payload deadline ∈
      Peer.events (system.peers own).log

/-- A request that was sent was made as it says. -/
theorem requested_of_sent (run : (machine platform platforms).Run Admissible trace system) {own : ι}
    {message : JsonObject} (hsent : .sent .relay message ∈ Peer.events (system.peers own).log)
    (htype : messageType message = "request") : ∃ deadline,
      .requested (message.value "id").toString (message.value "peerId").toString
        (message.value "payload").toObject deadline ∈ Peer.events (system.peers own).log := by
  obtain ⟨hplaced, -⟩ := Peer.run_placed (run_sensible run own)
  obtain ⟨id, peerId, payload, deadline, hrequested, -, rfl⟩ :=
    hplaced.carried .relay message hsent htype
  exact ⟨deadline, hrequested⟩

/-- **Whom a request over the relay reaches, and whose it is**: the relay was given the request
in a message of the client that named the host, and in this turn it opened the route and sent
the payload of the message, with the name of the client's session, to the host. -/
theorem run_addressed (run : (machine platform platforms).Run Admissible trace system) (host : ι)
    (route name : String) (payload : JsonObject)
    (h : .handled .relay route name payload ∈ Peer.events (system.peers host).log) :
    ∃ client target visit message,
      Arrived system trace host name (message.value "id").toString payload "request" client target
        visit message ∧
      payload = (message.value "payload").toObject ∧
      RelayServer.Enters platform visit.1 visit.2
        (.routed route client target (message.value "id").toString) ∧
      RelayServer.Enters platform visit.1 visit.2
        (.sent target (.request client route name (message.value "payload"))) := by
  have hrelay := (run_relay run).mono fun _ _ (htimely : RelayServer.Timely _ _) => htimely.1
  obtain ⟨turn, hturn, hgiven⟩ := Peer.given_of_handled (run_peer run host) h
  cases hgiven with
  | relay htold =>
      obtain ⟨target, sent, howner, hsent, rfl, hkind⟩ := sent_of_relay run hturn htold
      cases sent with
      | request client key caller data =>
          obtain ⟨visit, hvisit, message, hmeeting, hname, rfl, hrouted, hforwarded⟩ :=
            RelayServer.run_forwarded hrelay hsent
          have hfellows := hmeeting.fellows
          -- The connection the request left on is the one of the host that was named,
          have hcallee := named_of_session run hvisit howner (.inr hfellows.described)
          rw [hfellows.named] at hcallee
          have hpayload : ((RelayServer.Outgoing.request client key caller
              (message.value "payload")).json.value "payload").toObject =
                (message.value "payload").toObject := by
            cases message.value "payload" <;> rfl
          refine ⟨client, target, visit, message,
            ⟨hvisit, hmeeting, hfellows, howner, hname, hcallee,
            fun own hown => ?_⟩, hpayload, hrouted, hforwarded⟩
          -- and the one it came on is that of the peer whose name it carries.
          have hcaller := named_of_session run hvisit hown (.inl hmeeting.registered)
          have hasked := sent_of_heard run hvisit hmeeting.input hmeeting.active hown
          obtain ⟨deadline, hrequested⟩ := requested_of_sent run hasked hmeeting.typed
          rw [hpayload]
          exact ⟨hname ▸ hcaller, deadline, hrequested⟩
      | _ => exact absurd hkind (by simp [RelayServer.Outgoing.kind])

/-- The handler was called for the relay. -/
def forwards : Peer.Event → Bool
  | .handled .relay route name _ => route = "0" && name = "c"
  | _ => false

/-- A handler is called for the relay. -/
theorem run_calling : ∃ trace system,
    (machine (ι := Bool) .sample fun _ => .sample).Run Admissible trace system ∧
      (Peer.events (system.peers true).log).any forwards = true := by
  have hstart : (machine (ι := Bool) .sample fun _ => .sample).Run Admissible [] _ :=
    .start ⟨0, le_rfl, rfl⟩
  have hdown : ∀ {system : PeerSystem Bool} {own : Bool} {world : Peer.World},
      (system.peers own).relay ≠ .connecting → system.Admissible (.down own world) := id
  obtain ⟨trace, run⟩ := hstart.extend calling
    ⟨⟨nofun, nofun, nofun, nofun⟩, ⟨by decide +kernel, by decide +kernel⟩,
      ⟨nofun, nofun, (fun _ => by decide +kernel), nofun⟩, trivial, ⟨trivial, nofun, nofun⟩,
      hdown (by decide +kernel), trivial, hdown (by decide +kernel), hdown (by decide +kernel),
      ⟨nofun, nofun, nofun, nofun⟩, ⟨by decide +kernel, by decide +kernel⟩,
      ⟨nofun, nofun, (fun _ => by decide +kernel), nofun⟩, trivial, ⟨trivial, nofun, nofun⟩,
      hdown (by decide +kernel), trivial, hdown (by decide +kernel), hdown (by decide +kernel),
      ⟨nofun, nofun, nofun, nofun⟩, ⟨nofun, nofun, nofun, nofun⟩, trivial,
      hdown (by decide +kernel), hdown (by decide +kernel), trivial⟩
  exact ⟨trace, _, run, by decide +kernel⟩

/-- It is called by the name of the client. -/
theorem run_addressed_calling : ∃ trace system payload,
    (machine (ι := Bool) .sample fun _ => .sample).Run Admissible trace system ∧
      .handled .relay "0" "c" payload ∈ Peer.events (system.peers true).log ∧
      ∃ client target visit message,
        Arrived system trace true "c" (message.value "id").toString payload "request" client target
          visit message ∧
        payload = (message.value "payload").toObject ∧
        RelayServer.Enters .sample visit.1 visit.2
          (.routed "0" client target (message.value "id").toString) ∧
        RelayServer.Enters .sample visit.1 visit.2
          (.sent target (.request client "0" "c" (message.value "payload"))) := by
  obtain ⟨trace, system, run, hcalled⟩ := run_calling
  obtain ⟨event, hevent, hforwards⟩ := List.any_eq_true.1 hcalled
  unfold forwards at hforwards
  split at hforwards
  · next route name payload =>
      simp only [Bool.and_eq_true, decide_eq_true_eq] at hforwards
      obtain ⟨rfl, rfl⟩ := hforwards
      exact ⟨trace, system, payload, run, hevent, run_addressed run true "0" "c" payload hevent⟩
  · cases hforwards

/-! ## Links -/

/-- A text that is not empty was presented as it is stored. -/
theorem ticket_of_sent {own : Peer} {socket : Socket} {message : JsonObject}
    {turns : List (Peer × Peer.Step)} {ok : Peer → Peer.Step → Prop} {platform : Platform}
    (run : (Peer.machine platform).Run ok turns own)
    (hsent : .sent (.link socket) message ∈ Peer.events own.log)
    (htype : messageType message = "hello") (htext : (message.value "ticket").toString ≠ "") :
    ∃ turn ∈ turns, ∃ link, turn.1.links.lookup socket = some link ∧
      link.ticket = (message.value "ticket").toString := by
  obtain ⟨entry, hentry, hevent⟩ := List.mem_map.1 hsent
  obtain ⟨turn, hturn, hvoiced⟩ := Peer.run_voiced run entry hentry
  simp only [Peer.Voiced, hevent] at hvoiced
  cases hvoiced with
  | respond =>
      exact absurd ((Peer.messageType_responseMessage ..).symm.trans htype) (by decide)
  | hello hlink => exact ⟨turn, hturn, _, hlink, rfl⟩
  | other _ _ hcontains =>
      refine absurd ?_ htext
      rw [JsonObject.contains, Option.isSome_eq_false_iff, Option.isNone_iff_eq_none] at hcontains
      rw [JsonObject.value, hcontains]
      rfl

/-- A ticket of the relay is not empty. -/
theorem token_ne_empty (run : (machine platform platforms).Run Admissible trace system)
    {own client : Socket} {token name : String} {expires : DateTime}
    (hsent : .sent own (.ticket client token name expires) ∈
      RelayServer.events system.relay.log) : token ≠ "" := by
  obtain ⟨entry, hentry, hevent⟩ := List.mem_map.1 hsent
  obtain ⟨visit, -, hsaid⟩ := RelayServer.run_said
    ((run_relay run).mono fun _ _ htimely => htimely.1) entry hentry
  simp only [RelayServer.Said, hevent] at hsaid
  obtain ⟨rfl, -⟩ := hsaid
  intro hempty
  have hhex := (platform.random visit.1.randoms).hex
  rw [hempty] at hhex
  exact absurd hhex (by decide)

/-- A ticket that a peer presents, it was invited with, to the peer that it dialled. -/
theorem invited_of_presented (run : (machine platform platforms).Run Admissible trace system)
    {own : ι} {socket : Socket} {message : JsonObject}
    (hsent : .sent (.link socket) message ∈ Peer.events (system.peers own).log)
    (htype : messageType message = "hello") (htext : (message.value "ticket").toString ≠ "") :
    ∃ client host peerId descriptor expires, system.owner client = some own ∧
      .sent client (.connect host peerId (message.value "ticket").toString descriptor expires) ∈
        RelayServer.events system.relay.log ∧
      .dialled socket peerId ∈ Peer.events (system.peers own).log := by
  obtain ⟨turn, hturn, link, hlink, hticket⟩ :=
    ticket_of_sent (run_peer run own) hsent htype htext
  obtain ⟨visit, hvisit, -, hpeer⟩ := mem_peerTrace hturn
  obtain ⟨later, before, hsplit⟩ := List.append_of_mem hvisit
  obtain ⟨hrun, -⟩ := run.visited hsplit
  have hpast := run_past run visit hvisit
  obtain ⟨hdirected, -⟩ := Peer.run_directed (run_sensible hrun own)
  rw [hpeer] at hdirected
  -- Only a link that was dialled has a ticket.
  have hout : link.outgoing = true := by
    cases hin : link.outgoing with
    | true => rfl
    | false => exact absurd (hticket.symm.trans (hdirected.bare socket link hlink hin)) htext
  obtain ⟨hdialled, turn', hturn', message', htold, hname, htoken⟩ :=
    hdirected.links socket link hlink hout
  obtain ⟨client, sent, howner, hconnect, rfl, hkind⟩ := sent_of_relay hrun hturn' htold
  cases sent with
  | connect host peerId token descriptor expires =>
      have hpeerId : link.peer = peerId := hname
      have htoken' : (message.value "ticket").toString = token := hticket.symm.trans htoken
      rw [← hpeer, hpeerId] at hdialled
      rw [htoken']
      exact ⟨client, host, peerId, descriptor, expires, hpast.owner client own howner,
        hpast.told hconnect, hpast.sent hdialled⟩
  | unavailable peerId => exact absurd (hticket.symm.trans htoken) htext
  | _ => exact absurd hkind (by simp [RelayServer.Outgoing.kind])

/-- The name of an accepted link is that of a ticket that the link presented. -/
theorem presented_of_link (run : (machine platform platforms).Run Admissible trace system)
    {host : ι} {turn : Peer × Peer.Step} (hturn : turn ∈ peerTrace host trace) {number : Socket}
    {link : Peer.Link} (hlink : turn.1.links.lookup number = some link)
    (hauthenticated : link.authenticated = true) (hin : link.outgoing = false) :
    ∃ text target client expires, system.owner target = some host ∧
      .sent target (.ticket client text link.peer expires) ∈
        RelayServer.events system.relay.log ∧
      Peer.Presents (peerTrace host trace) number text := by
  obtain ⟨visit, hvisit, -, hpeer⟩ := mem_peerTrace hturn
  obtain ⟨later, before, hsplit⟩ := List.append_of_mem hvisit
  obtain ⟨hrun, -⟩ := run.visited hsplit
  have hpast := run_past run visit hvisit
  -- At that turn the link was authenticated by a ticket it had presented.
  have hearlier := Peer.run_ticketed (run_peer hrun host)
  rw [hpeer] at hearlier
  obtain ⟨serial, text, hticket, hpresented⟩ :=
    hearlier.links number link hlink hauthenticated hin
  have hticket' := hpast.sent (hpeer ▸ hticket.mem)
  have hpresented' := hpast.sent (hpeer ▸ hpresented.mem)
  have hlast := Peer.run_ticketed (run_peer run host)
  obtain ⟨-, haimed⟩ := Peer.run_directed (run_sensible run host)
  obtain ⟨other, otherId, noted, hother, hpresents⟩ := haimed.presented number serial hpresented'
  -- A serial belongs to one ticket.
  obtain ⟨rfl, -, -⟩ := hlast.single serial _ _ _ _ _ _ hticket' hother
  obtain ⟨turn', hturn', message, htold, rfl, hname, -⟩ := hlast.received _ _ _ _ hticket'
  obtain ⟨target, sent, howner, hsent, rfl, hkind⟩ := sent_of_relay run hturn' htold
  cases sent with
  | ticket client token name expires =>
      have hname' : link.peer = name := hname
      rw [hname']
      exact ⟨token, target, client, expires, howner, hsent, hpresents⟩
  | _ => exact absurd hkind (by simp [RelayServer.Outgoing.kind])

/-- **Whom a request over a link reaches, and whose it is**: as long as the relay draws no
text twice, the ticket that the link presented was told to both ends in one turn of the relay,
when a message of the client had named the host; the name that the handler is told is the one
that the peer at the other end was started with, and that peer made the request to this host. -/
theorem run_introduced (run : (machine platform platforms).Run Admissible trace system)
    (hdistinct : RelayServer.Unrepeated platform system.relay) (own host : ι)
    (number socket : Socket) (hcaller : system.caller host number = some (own, socket))
    (id name : String) (payload : JsonObject)
    (h : .handled (.link number) id name payload ∈ Peer.events (system.peers host).log) :
    ∃ client target visit message token descriptor expires expires',
      system.owner client = some own ∧
      Arrived system trace host name id payload "connect" client target visit message ∧
      RelayServer.Enters platform visit.1 visit.2 (.sent client
        (.connect target (message.value "peerId").toString token descriptor expires)) ∧
      RelayServer.Enters platform visit.1 visit.2
        (.sent target (.ticket client token name expires')) ∧
      Peer.Presents (peerTrace host trace) number token := by
  have hrelay := (run_relay run).mono fun _ _ (htimely : RelayServer.Timely _ _) => htimely.1
  obtain ⟨turn, hturn, hgiven⟩ := Peer.given_of_handled (run_peer run host) h
  cases hgiven with
  | @link _ link request hheard hauthenticated hin htype =>
      obtain ⟨text, target, client, expires, howner, hticket, hpresents⟩ :=
        presented_of_link run hturn hheard.stored hauthenticated hin
      obtain ⟨turn', hturn', link', greeting, hgreeting, hhello, rfl⟩ := hpresents
      have hpresented := sent_of_accepted run hturn' hgreeting hcaller
      obtain ⟨client', host', peerId, descriptor, expires', hown, hconnect, hdialled⟩ :=
        invited_of_presented run hpresented hhello (token_ne_empty run hticket)
      obtain ⟨rfl, rfl, visit, hvisit, message, hmeeting, rfl, hname, hinvites, htells⟩ :=
        RelayServer.run_matched hrelay hdistinct hconnect hticket
      have hfellows := hmeeting.fellows
      have hcallee := named_of_session run hvisit howner (.inr hfellows.described)
      rw [hfellows.named] at hcallee
      refine ⟨client, target, visit, message, _, descriptor, expires', expires, hown,
        ⟨hvisit, hmeeting, hfellows, howner, hname, hcallee, fun other hother => ?_⟩, hinvites,
        htells, turn', hturn', link', greeting, hgreeting, hhello, rfl⟩
      obtain rfl := Option.some.inj (hown.symm.trans hother)
      refine ⟨hname ▸ named_of_session run hvisit hown (.inl hmeeting.registered), ?_⟩
      -- The request was handed to the link, and so it was made to the peer that was dialled.
      have hasked := sent_of_accepted run hturn hheard hcaller
      obtain ⟨hplaced, -⟩ := Peer.run_placed (run_sensible run own)
      obtain ⟨-, haimed⟩ := Peer.run_directed (run_sensible run own)
      obtain ⟨asked, -, data, -, -, hhanded, rfl⟩ := hplaced.carried _ request hasked htype
      obtain ⟨reached, deadline, hrequested, hreached⟩ := haimed.handed asked socket data hhanded
      obtain rfl := haimed.single socket _ _ hreached hdialled
      exact ⟨deadline, hrequested⟩

/-- The host is called by the name of the client that dialled it. -/
theorem run_introduced_linking : ∃ trace system payload,
    (machine (ι := Bool) .sample fun _ => .sample).Run Admissible trace system ∧
      RelayServer.Unrepeated .sample system.relay ∧ system.caller true 0 = some (false, 0) ∧
      .handled (.link 0) "0" "c" payload ∈ Peer.events (system.peers true).log ∧
      ∃ client target visit message token descriptor expires expires',
        system.owner client = some false ∧
        Arrived system trace true "c" "0" payload "connect" client target visit message ∧
        RelayServer.Enters .sample visit.1 visit.2 (.sent client
          (.connect target (message.value "peerId").toString token descriptor expires)) ∧
        RelayServer.Enters .sample visit.1 visit.2
          (.sent target (.ticket client token "c" expires')) ∧
        Peer.Presents (peerTrace true trace) 0 token := by
  obtain ⟨trace, system, run, -, hserved, hcaller, hrandoms⟩ := run_linking
  have hdistinct : RelayServer.Unrepeated .sample system.relay := by
    intro i hi j hj _
    omega
  obtain ⟨event, hevent, hserves⟩ := List.any_eq_true.1 hserved
  unfold serves at hserves
  split at hserves
  · next id name payload =>
      simp only [Bool.and_eq_true, decide_eq_true_eq] at hserves
      obtain ⟨rfl, rfl⟩ := hserves
      exact ⟨trace, system, payload, run, hdistinct, hcaller, hevent,
        run_introduced run hdistinct false true 0 0 hcaller "0" "c" payload hevent⟩
  · cases hserves

end PeerSystem

end ServerHost
