import ServerHost.Peer.Wiring

/-!
# The revocation window over the links

A session that the authenticator no longer accepts is cut off within a minute, wherever its
requests arrive.  The relay forwards only between sessions that it verified in the last
minute, and a link lives no longer than the ticket that it presented, which ends with the
shorter of the two sessions.

## Strategy

`Vouched` is what stands behind a call of the handler for a link.  When the call is made,
the ticket has been received before, in a turn of the same run; then it was sent by the
relay, at a time that is not later, and so within a minute of both verifications.  Nothing
that is recorded is taken back, so the rest of the run keeps it.
-/

namespace ServerHost

namespace PeerSystem

variable {ι : Type*} {platform : Platform} {platforms : ι → Platform}
variable {system : PeerSystem ι} {action : Action ι} {trace : List (PeerSystem ι × Action ι)}

/-! ## What came before -/

/-- The clock went on, and nothing that was recorded is taken back. -/
structure Before (earlier later : PeerSystem ι) : Prop where
  now : earlier.relay.now ≤ later.relay.now
  log : earlier.relay.log ⊆ later.relay.log
  owner : ∀ socket own, earlier.owner socket = some own → later.owner socket = some own

theorem Before.trans {first second third : PeerSystem ι} (h : Before first second)
    (h' : Before second third) : Before first third where
  now := h.now.trans h'.now
  log := List.Subset.trans h.log h'.log
  owner socket own howner := h'.owner socket own (h.owner socket own howner)

/-! ## The tickets of a host -/

/-- The relay gave the ticket to a connection of the host, and to the session that asked for
it. -/
structure Issued (system : PeerSystem ι) (host : ι) (text peerId : String) (client own : Socket)
    (expires : DateTime) : Prop where
  owner : system.owner own = some host
  sent : .sent own (.ticket client text peerId expires) ∈ RelayServer.events system.relay.log
  bounds : RelayServer.Bounds system.relay.log client own system.relay.now expires

/-- While a ticket runs, both of its sessions were verified within the last minute. -/
theorem Issued.recent {host : ι} {text peerId : String} {client own : Socket} {expires : DateTime}
    (h : Issued system host text peerId client own expires)
    (hlive : (system.relay.now : DateTime) < expires) :
    RelayServer.Recent system.relay.log client system.relay.now ∧
      RelayServer.Recent system.relay.log own system.relay.now := by
  have hrecent : ∀ socket, socket = client ∨ socket = own →
      RelayServer.Recent system.relay.log socket system.relay.now := by
    intro socket hsocket
    obtain ⟨time, kept, hverified, htime, hle⟩ := h.bounds socket hsocket
    obtain ⟨principal, -, -, hminute⟩ := id hverified
    have hbefore := lt_of_lt_of_le (lt_of_lt_of_le hlive hle) hminute
    rw [DateTime.addSecs_coe, WithBot.coe_lt_coe] at hbefore
    exact ⟨time, kept, hverified, by omega, htime⟩
  exact ⟨hrecent client (.inl rfl), hrecent own (.inr rfl)⟩

/-! ## Runs -/

variable [DecidableEq ι]

theorem Wired.before_next (platform : Platform) (platforms : ι → Platform) (h : Wired system)
    (hadmissible : system.Admissible action) :
    Before system (system.next platform platforms action) := by
  refine ⟨(h.clocks platform platforms hadmissible).2, ?_, fun _ _ => h.owner_next⟩
  obtain ⟨new, hlog⟩ := nextRelay_grows platform system action
  change system.relay.log ⊆ (system.nextRelay platform action).log
  rw [hlog]
  exact List.subset_append_right _ _

/-- Every state of a run came before the last one. -/
theorem run_before (run : (machine platform platforms).Run Admissible trace system) :
    ∀ visit ∈ trace, Before visit.1 system := by
  induction run with
  | start => simp
  | step run hadmissible ih =>
      intro visit hvisit
      have hlast := (run_wired run).before_next platform platforms hadmissible
      rcases List.mem_cons.1 hvisit with rfl | hold
      · exact hlast
      · exact (ih visit hold).trans hlast

/-- A turn of a peer is a turn of the system. -/
theorem mem_peerTrace {host : ι} {visit : Peer × Peer.Step} (h : visit ∈ peerTrace host trace) :
    ∃ own ∈ trace, own.1.peerStep host own.2 = some visit.2 ∧ own.1.peers host = visit.1 := by
  obtain ⟨own, hown, hmap⟩ := List.mem_filterMap.1 h
  obtain ⟨step, hstep, rfl⟩ := Option.map_eq_some_iff.1 hmap
  exact ⟨own, hown, hstep, rfl⟩

/-- What a host has noted of a ticket is what the relay has written on it. -/
theorem issued_of_ticket (run : (machine platform platforms).Run Admissible trace system) {host : ι}
    {serial : ℕ} {text peerId : String} {expires : DateTime}
    (hticket : .ticket serial text peerId expires ∈ Peer.events (system.peers host).log) :
    ∃ client own written, Issued system host text peerId client own written ∧
      expires = (toLongLong (number written.toMSecs) : ℤ) := by
  have hrecorded := (Peer.run_ticketed (run_peer run host)).toRecorded
  obtain ⟨turn, hturn, message, htold, rfl, rfl, rfl⟩ := hrecorded.received _ _ _ _ hticket
  obtain ⟨visit, hvisit, hstep, hpeer⟩ := mem_peerTrace hturn
  obtain ⟨later, earlier, hsplit⟩ := List.append_of_mem hvisit
  obtain ⟨hrun, hadmissible⟩ := run.visited hsplit
  have hbefore := run_before run visit hvisit
  obtain ⟨own, sent, rest, world, -, -, -, howner, hsent, rfl⟩ :=
    heard_of_peerStep (run_wired hrun) hadmissible hstep htold.heard
  have hkind := (kind_of_sent (run_kept hrun).1 hsent).symm.trans htold.typed
  -- of all that the relay sends only its own ticket is read as one
  cases sent with
  | ticket client token name written =>
      have hdated := RelayServer.run_dated (run_relay hrun)
      obtain ⟨entry, hentry, hevent⟩ := List.mem_map.1 hsent
      obtain ⟨after, before, hlog, hfresh⟩ := hdated.fresh.mem hentry
      have hbounds := (hfresh own _ hevent).2 client token name written rfl
      refine ⟨client, own, written, ⟨hbefore.owner own host howner, ?_, fun socket hsocket => ?_⟩,
        rfl⟩
      · exact List.map_subset _ hbefore.log hsent
      · obtain ⟨time, kept, hverified, htime, hle⟩ := hbounds socket hsocket
        have hpast := (hdated.past entry hentry).trans hbefore.now
        refine ⟨time, kept, hverified.mono (List.Subset.trans ?_ hbefore.log), htime.trans hpast,
          hle⟩
        rw [hlog]
        exact fun _ hmem => List.mem_append_right _ (List.mem_cons_of_mem _ hmem)
  | _ => exact absurd hkind (by simp [RelayServer.Outgoing.kind])

/-! ## The calls of the handler -/

/-- The link presented a ticket of the relay, for two sessions that the relay verified within
the minute before `time`. -/
def Vouched (system : PeerSystem ι) (host : ι) (number : Socket) (peerId : String) (time : ℤ) :
    Prop :=
  ∃ serial text noted client own expires,
    .ticket serial text peerId noted ∈ Peer.events (system.peers host).log ∧
    .presented number serial ∈ Peer.events (system.peers host).log ∧
    system.owner own = some host ∧
    .sent own (.ticket client text peerId expires) ∈ RelayServer.events system.relay.log ∧
    RelayServer.Recent system.relay.log client time ∧
    RelayServer.Recent system.relay.log own time

/-- Every call of a handler for a link is vouched for. -/
def Windowed (system : PeerSystem ι) : Prop :=
  ∀ host, ∀ entry ∈ (system.peers host).log, ∀ number id peerId payload,
    entry.event = .handled (.link number) id peerId payload →
    Vouched system host number peerId entry.time

theorem Vouched.next {host : ι} {number : Socket} {peerId : String} {time : ℤ}
    (h : Vouched system host number peerId time)
    (hbefore : Before system (system.next platform platforms action)) :
    Vouched (system.next platform platforms action) host number peerId time := by
  obtain ⟨serial, text, noted, client, own, expires, hticket, hpresented, howner, hsent, hrecent⟩ :=
    h
  have hmore : Peer.events (system.peers host).log ⊆
      Peer.events ((system.next platform platforms action).peers host).log := by
    obtain ⟨new, hlog⟩ := nextPeer_grows platforms system action host
    change _ ⊆ Peer.events (system.nextPeer platforms action host).log
    rw [hlog]
    exact List.map_subset _ (List.subset_append_right _ _)
  exact ⟨serial, text, noted, client, own, expires, hmore hticket, hmore hpresented,
    hbefore.owner own host howner, List.map_subset _ hbefore.log hsent,
    hrecent.1.mono hbefore.log, hrecent.2.mono hbefore.log⟩

/-- A call that is made now. -/
theorem vouched_of_authorised (run : (machine platform platforms).Run Admissible trace system)
    {host : ι} {number : Socket} {peerId : String} (h : Peer.Authorised number peerId
      (system.peers host).now (system.peers host).log) :
    Vouched system host number peerId (system.peers host).now := by
  obtain ⟨serial, text, noted, hticket, hpresented, hlive⟩ := h.ticket
  have hwired := run_wired run
  rw [hwired.clock host] at hlive ⊢
  obtain ⟨client, own, written, hissued, rfl⟩ := issued_of_ticket run hticket.mem
  obtain ⟨hclient, hown⟩ := hissued.recent (lt_of_lt_toLongLong hwired.epoch hlive)
  exact ⟨serial, text, _, client, own, written, hticket.mem, hpresented.mem, hissued.owner,
    hissued.sent, hclient, hown⟩

theorem windowed_next (run : (machine platform platforms).Run Admissible trace system)
    (hadmissible : system.Admissible action) (h : Windowed system) :
    Windowed (system.next platform platforms action) := by
  have hbefore := (run_wired run).before_next platform platforms hadmissible
  intro host entry hentry number id peerId payload hevent
  refine Vouched.next ?_ hbefore
  change entry ∈ (system.nextPeer platforms action host).log at hentry
  cases hstep : system.peerStep host action with
  | none =>
      rw [nextPeer_of_none hstep] at hentry
      exact h host entry hentry number id peerId payload hevent
  | some step =>
      have hrun : (Peer.machine (platforms host)).Run (fun _ _ => True) _
          (Peer.next (platforms host) (system.peers host) step) := (run_peer run host).step trivial
      have hentitled := (Peer.run_ticketed hrun).handled
      rw [nextPeer_of_some hstep] at hentry
      rcases Peer.next_handles (platforms host) (system.peers host) step with
        ⟨new, hlog, hnew⟩ | ⟨new, channel, own, name, sent, -, hnew, hlog⟩
      · rw [hlog] at hentry
        rcases List.mem_append.1 hentry with hmem | hold
        · have hplain : entry.event.handles = false := hnew entry hmem
          rw [hevent] at hplain
          cases hplain
        · exact h host entry hold number id peerId payload hevent
      · rw [hlog] at hentry
        -- a turn calls the handler at most once: the call is the new one, or it is an old one
        rcases List.mem_append.1 hentry with hmem | hmem
        · have hplain : entry.event.handles = false := hnew entry hmem
          rw [hevent] at hplain
          cases hplain
        · rcases List.mem_cons.1 hmem with rfl | hold
          · exact vouched_of_authorised run (hentitled new _ _ hlog number id peerId payload hevent)
          · exact h host entry hold number id peerId payload hevent

/-- **The revocation window**: whatever the relay forwards, and whatever a handler is called
for over a link, each of the two sessions was verified at the relay within the minute
before. -/
theorem run_windowed (run : (machine platform platforms).Run Admissible trace system) :
    Always RelayServer.Fresh system.relay.log ∧ Windowed system := by
  refine ⟨(RelayServer.run_dated (run_relay run)).fresh, ?_⟩
  induction run with
  | start hinit =>
      obtain ⟨time, -, rfl⟩ := hinit
      intro host entry hentry
      cases hentry
  | step run hadmissible ih => exact windowed_next run hadmissible ih

/-- The client `c` asks for the host `h`. -/
def asking : List (Action Bool) :=
  [RelayServer.Input.newConnection, .completion 1 ⟨"a", (90000 : ℤ)⟩,
    .text 1 (.ofList [("type", .string "register"), ("peerId", .string "c"),
      ("service", .string "files")]),
    .text 1 (.ofList [("type", .string "connect"), ("peerId", .string "h")])].map fun input =>
      .relay ⟨input, fun _ _ => false⟩

/-- The host admits a link with the ticket, and serves it. -/
def serving : List (Action Bool) :=
  [.down true .sample, .down true .sample, .peer true ⟨.newConnection, .sample⟩,
    .peer true ⟨.linkText 0 ⟨[("type", .string "hello"),
      ("ticket", .string (String.ofList (List.replicate 64 '0')))]⟩, .sample⟩,
    .peer true ⟨.linkText 0 ⟨[("type", .string "request"), ("id", .string "r"),
      ("payload", .object [])]⟩, .sample⟩]

/-- The handler is called, and vouched for. -/
theorem run_windowed_serving : ∃ trace system,
    (machine (ι := Bool) .sample fun _ => .sample).Run Admissible trace system ∧
      (Peer.events (system.peers true).log)[1]? = some (.handled (.link 0) "r" "c" ⟨[]⟩) ∧
      Always RelayServer.Fresh system.relay.log ∧ Windowed system := by
  have hstart : (machine (ι := Bool) .sample fun _ => .sample).Run Admissible [] _ :=
    .start ⟨0, le_rfl, rfl⟩
  have hdown : ∀ {system : PeerSystem Bool} {own : Bool} {world : Peer.World},
      (system.peers own).relay ≠ .connecting → system.Admissible (.down own world) := id
  obtain ⟨trace, run⟩ := hstart.extend
    (joining true { Peer.Options.sample with peerId := "h", localEnabled := true } true 0 ++
      asking ++ serving)
    ⟨⟨nofun, nofun, nofun, nofun⟩, ⟨by decide +kernel, by decide +kernel⟩,
      ⟨nofun, nofun, (fun _ => by decide +kernel), nofun⟩, trivial, ⟨trivial, nofun, nofun⟩,
      hdown (by decide +kernel), trivial, hdown (by decide +kernel), hdown (by decide +kernel),
      ⟨trivial, nofun, nofun⟩, ⟨trivial, nofun, nofun⟩,
      ⟨trivial, nofun, by rintro _ _ ⟨⟩; rfl⟩, ⟨trivial, nofun, by rintro _ _ ⟨⟩; rfl⟩,
      hdown (by decide +kernel), hdown (by decide +kernel), ⟨nofun, nofun, nofun, nofun⟩,
      ⟨nofun, nofun, nofun, by rintro _ _ ⟨⟩; rfl⟩, ⟨nofun, nofun, nofun, by rintro _ _ ⟨⟩; rfl⟩,
      trivial⟩
  exact ⟨trace, _, run, rfl, run_windowed run⟩

end PeerSystem

end ServerHost
