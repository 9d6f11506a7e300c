import Mathlib.Logic.Function.Basic
import ServerHost.Lan.Approval
import ServerHost.Lan.Checked
import ServerHost.Wire.Frame

/-!
# A host and a client that joins it

The host of `Lan/Host` and the client of `Lan/Client` with the connections between
them.  A connection is two queues: what an end writes to its socket arrives at the
other end in order, as long as both ends are there.  The host has other sockets as well,
whose messages are arbitrary, and the client may reach devices that are not the host,
which cannot show its certificate.

`protocol::send` frames a message by the property `iish.binary` of the socket.  No
handler writes to a socket after it set that property, so a message travels as the
property was before the turn.  That the other end obtains the message either way is
`Wire.send_transparent`.
-/

namespace ServerHost

namespace LanPeer

/-- The message an event writes to this socket. -/
def Event.told (socket : Socket) : Event → Option JsonObject
  | .sent own message => if own = socket then some message else none
  | _ => none

/-- The messages a turn writes to a socket, in order. -/
def told (socket : Socket) (host after : LanPeer) : List JsonObject :=
  news (fun entry => entry.event.told socket) host.log after.log

/-- The socket whose message the input is. -/
def Input.speaker : Input → Option Socket
  | .text socket _ | .binary socket _ => some socket
  | _ => none

end LanPeer

namespace LanClient

/-- The message an event writes to this socket. -/
def Event.told (socket : Socket) : Event → Option JsonObject
  | .sent own message => if own = socket then some message else none
  | _ => none

/-- The messages a turn writes to a socket, in order. -/
def told (socket : Socket) (client after : LanClient) : List JsonObject :=
  news (fun entry => entry.event.told socket) client.log after.log

/-- The socket whose message the input is. -/
def Input.speaker : Input → Option Socket
  | .text socket _ | .binary socket _ => some socket
  | _ => none

end LanClient

namespace LanSystem

/-- A message on its way. -/
structure Frame where
  binary : Bool
  message : JsonObject

/-- A connection: the host's number for it, the certificate the client is shown, and
what is on its way to each end. -/
structure Link where
  host : Socket
  fingerprint : String
  up : List Frame := []
  down : List Frame := []

end LanSystem

open LanSystem in
structure LanSystem where
  host : LanPeer
  client : LanClient
  /-- The connections, by the client's number for them. -/
  links : Socket → Option Link

namespace LanSystem

/-- What `send` makes of a message on a socket with this property. -/
def frame (double : ℚ → List Char) (binary : Bool) (message : JsonObject) : Frame :=
  ⟨binary && BinaryFrame.encode double message ≠ [], message⟩

/-- What a client says.  One from before binary frames has no such field. -/
def wording (supports : Bool) (message : JsonObject) : JsonObject :=
  if supports then message else message.remove "binary"

def Frame.toHost (frame : Frame) (socket : Socket) : LanPeer.Input :=
  if frame.binary then .binary socket frame.message else .text socket frame.message

def Frame.toClient (frame : Frame) (socket : Socket) : LanClient.Input :=
  if frame.binary then .binary socket frame.message else .text socket frame.message

/-- A turn of one of the two, or something that takes both: the host accepts the connection
the client opens, or a message arrives. -/
inductive Action where
  | host (step : LanPeer.Step)
  | client (step : LanClient.Step)
  | accept (address : String) (world : LanPeer.World)
  | up (socket : Socket) (world : LanPeer.World)
  | down (socket : Socket) (world : LanClient.World)

/-- The turn the host takes. -/
def hostStep (system : LanSystem) : Action → Option LanPeer.Step
  | .host step => some step
  | .accept address world => some ⟨.newConnection address, world⟩
  | .up socket world => do
      let link ← system.links socket
      let frame ← link.up.head?
      return ⟨frame.toHost link.host, world⟩
  | _ => none

/-- The turn the client takes. -/
def clientStep (system : LanSystem) : Action → Option LanClient.Step
  | .client step => some step
  | .down socket world => do
      let link ← system.links socket
      let frame ← link.down.head?
      return ⟨frame.toClient socket, world⟩
  | _ => none

/-- The connections, with the new one and without what arrives. -/
def taken (system : LanSystem) (action : Action) (socket : Socket) : Option Link :=
  match action with
  | .accept .. =>
      if system.client.client = some socket then
        some { host := system.host.sockets, fingerprint := system.host.offer.fingerprint }
      else system.links socket
  | .up own _ => (system.links socket).map fun link =>
      if own = socket then { link with up := link.up.tail } else link
  | .down own _ => (system.links socket).map fun link =>
      if own = socket then { link with down := link.down.tail } else link
  | _ => system.links socket

variable (platform : Platform) (read : String → LanLink.Query) (double : ℚ → List Char)
variable (supports : Bool)

def next (system : LanSystem) (action : Action) : LanSystem :=
  let host := (system.hostStep action).elim system.host (LanPeer.next platform system.host)
  let client :=
    (system.clientStep action).elim system.client (LanClient.next platform read system.client)
  { host := host
    client := client
    links := fun socket => (system.taken action socket).map fun link => { link with
      up := link.up ++ (LanClient.told socket system.client client).map
        fun message => frame double system.client.binary (wording supports message)
      down := link.down ++ (LanPeer.told link.host system.host host).map
        (frame double (link.host ∈ system.host.binary)) } }

/-- Both start as constructed, each with its own clock. -/
def machine : Machine LanSystem Action where
  init system := ∃ time time',
    system = { host := { now := time }, client := { now := time' }, links := fun _ => none }
  next := next platform read double supports

/-- What the client scans is a code the host showed, and only the host shows the
certificate of that code. -/
def Genuine (system : LanSystem) : LanClient.Input → Prop
  | .join qr _ _ => ∃ serial code expires,
      .generated serial code qr expires ∈ LanPeer.events system.host.log
  | .connected socket fingerprint =>
      match system.links socket with
      | some link => fingerprint = link.fingerprint
      | none => fingerprint ≠ system.client.joining.fingerprint
  | _ => True

/-- Messages of a connection arrive through it.  The host accepts a connection that the
client opens once. -/
def Feasible (system : LanSystem) : Action → Prop
  | .host step => system.host.Feasible step ∧ ∀ socket link, system.links socket = some link →
      step.input.speaker ≠ some link.host
  | .client step => system.client.Feasible step ∧ system.Genuine step.input ∧
      ∀ socket, step.input.speaker = some socket → system.links socket = none
  | .accept .. => system.host.server = true ∧ ∃ socket, system.client.client = some socket ∧
      system.client.helloSent = false ∧ system.links socket = none
  | _ => True

variable {platform : Platform} {read : String → LanLink.Query} {double : ℚ → List Char}
variable {supports : Bool} {system : LanSystem} {action : Action}
variable {trace : List (LanSystem × Action)}

/-! ## What is written -/

theorem host_told {host after : LanPeer} {new : List LanPeer.Entry}
    (hlog : after.log = new ++ host.log) (socket : Socket) : LanPeer.told socket host after =
      (new.filterMap fun entry => entry.event.told socket).reverse :=
  news_of_append hlog

theorem client_told {client after : LanClient} {new : List LanClient.Event}
    (hwrites : LanClient.Writes client after new) (socket : Socket) :
    LanClient.told socket client after =
      (new.filterMap (LanClient.Event.told socket)).reverse := by
  have hlength : after.log.length - client.log.length = new.length := by
    have hevents := congrArg List.length hwrites
    simp only [LanClient.events, List.length_map, List.length_append] at hevents
    omega
  have htake : (LanClient.events after.log).take new.length = new := by
    rw [hwrites, List.take_left]
  have hmap : ∀ log : List LanClient.Entry, (log.filterMap fun entry => entry.event.told socket) =
      (LanClient.events log).filterMap (LanClient.Event.told socket) := by
    intro log
    rw [LanClient.events, List.filterMap_map]
    rfl
  rw [LanClient.told, news, hmap, hlength, LanClient.events, List.map_take, ← LanClient.events,
    htake]

theorem host_told_self (socket : Socket) (host : LanPeer) : LanPeer.told socket host host = [] :=
  host_told (List.nil_append _).symm socket

theorem client_told_self (socket : Socket) (client : LanClient) :
    LanClient.told socket client client = [] :=
  client_told (show LanClient.Writes client client [] from rfl) socket

theorem sent_of_told {client after : LanClient} {socket : Socket} {message : JsonObject}
    (h : message ∈ LanClient.told socket client after) :
    .sent socket message ∈ LanClient.events after.log := by
  obtain ⟨entry, hentry, htold⟩ := exists_of_mem_news h
  refine List.mem_map.2 ⟨entry, hentry, ?_⟩
  unfold LanClient.Event.told at htold
  split at htold
  · next own sent hevent =>
      split at htold
      · next hown => rw [hevent, hown, Option.some.inj htold]
      · cases htold
  · cases htold

/-! ## The runs of the two ends -/

/-- The turns of the host. -/
def hostTrace (trace : List (LanSystem × Action)) : List (LanPeer × LanPeer.Step) :=
  trace.filterMap fun visit => (visit.1.hostStep visit.2).map fun step => (visit.1.host, step)

/-- The turns of the client. -/
def clientTrace (trace : List (LanSystem × Action)) : List (LanClient × LanClient.Step) :=
  trace.filterMap fun visit => (visit.1.clientStep visit.2).map fun step => (visit.1.client, step)

theorem hostTrace_none (h : system.hostStep action = none) :
    hostTrace ((system, action) :: trace) = hostTrace trace := by
  simp [hostTrace, h]

theorem hostTrace_some {step : LanPeer.Step} (h : system.hostStep action = some step) :
    hostTrace ((system, action) :: trace) = (system.host, step) :: hostTrace trace := by
  simp [hostTrace, h]

theorem clientTrace_none (h : system.clientStep action = none) :
    clientTrace ((system, action) :: trace) = clientTrace trace := by
  simp [clientTrace, h]

theorem clientTrace_some {step : LanClient.Step} (h : system.clientStep action = some step) :
    clientTrace ((system, action) :: trace) = (system.client, step) :: clientTrace trace := by
  simp [clientTrace, h]

theorem toHost_speaker (frame : Frame) (socket : Socket) :
    (frame.toHost socket).speaker = some socket := by
  unfold Frame.toHost
  split <;> rfl

theorem toClient_speaker (frame : Frame) (socket : Socket) :
    (frame.toClient socket).speaker = some socket := by
  unfold Frame.toClient
  split <;> rfl

theorem hostStep_feasible {step : LanPeer.Step} (hfeasible : system.Feasible action)
    (hstep : system.hostStep action = some step) : system.host.Feasible step := by
  cases action with
  | host own =>
      obtain rfl := Option.some.inj hstep
      exact hfeasible.1
  | client own => cases hstep
  | accept address world =>
      obtain rfl := Option.some.inj hstep
      trivial
  | up socket world =>
      simp only [hostStep, Option.bind_eq_bind, Option.bind_eq_some_iff] at hstep
      obtain ⟨link, -, frame, -, hstep⟩ := hstep
      obtain rfl := Option.some.inj hstep
      unfold LanPeer.Feasible Frame.toHost
      split
      · next hinput =>
          dsimp only at hinput
          split at hinput <;> cases hinput
      · trivial
  | down socket world => cases hstep

theorem clientStep_feasible {step : LanClient.Step} (hfeasible : system.Feasible action)
    (hstep : system.clientStep action = some step) : system.client.Feasible step := by
  cases action with
  | host own => cases hstep
  | client own =>
      obtain rfl := Option.some.inj hstep
      exact hfeasible.1
  | accept address world => cases hstep
  | up socket world => cases hstep
  | down socket world =>
      simp only [clientStep, Option.bind_eq_bind, Option.bind_eq_some_iff] at hstep
      obtain ⟨link, -, frame, -, hstep⟩ := hstep
      obtain rfl := Option.some.inj hstep
      cases hbinary : frame.binary <;> simp [LanClient.Feasible, Frame.toClient, hbinary]

/-- The host of a run is in a run of its own. -/
theorem run_host (run : (machine platform read double supports).Run Feasible trace system) :
    (LanPeer.machine platform).Run LanPeer.Feasible (hostTrace trace) system.host := by
  induction run with
  | start hinit =>
      obtain ⟨time, time', rfl⟩ := hinit
      exact .start ⟨time, rfl⟩
  | @step trace system action run hfeasible ih =>
      change (LanPeer.machine platform).Run LanPeer.Feasible _
        ((system.hostStep action).elim system.host (LanPeer.next platform system.host))
      cases hstep : system.hostStep action with
      | none => exact (hostTrace_none hstep).symm ▸ ih
      | some step =>
          rw [hostTrace_some hstep]
          exact ih.step (hostStep_feasible hfeasible hstep)

/-- So is the client. -/
theorem run_client (run : (machine platform read double supports).Run Feasible trace system) :
    (LanClient.machine platform read).Run LanClient.Feasible (clientTrace trace)
      system.client := by
  induction run with
  | start hinit =>
      obtain ⟨time, time', rfl⟩ := hinit
      exact .start ⟨time', rfl⟩
  | @step trace system action run hfeasible ih =>
      change (LanClient.machine platform read).Run LanClient.Feasible _
        ((system.clientStep action).elim system.client
          (LanClient.next platform read system.client))
      cases hstep : system.clientStep action with
      | none => exact (clientTrace_none hstep).symm ▸ ih
      | some step =>
          rw [clientTrace_some hstep]
          exact ih.step (clientStep_feasible hfeasible hstep)

/-! ## One connection -/

/-- The numbers of the connections are in use, and no two are one socket of the host. -/
structure Wired (system : LanSystem) : Prop where
  dialled : ∀ socket link, system.links socket = some link → socket < system.client.sockets
  known : ∀ socket link, system.links socket = some link → link.host < system.host.sockets
  single : ∀ socket other link link', system.links socket = some link →
    system.links other = some link' → link.host = link'.host → socket = other

/-- What a turn does to a connection that is there, and to the two ends. -/
inductive Passing (platform : Platform) (read : String → LanLink.Query)
    (double : ℚ → List Char) (supports : Bool) (system : LanSystem) (action : Action)
    (socket : Socket) (link : Link) (after : LanSystem) (passed : Link) : Prop
  | idle : system.hostStep action = none → system.clientStep action = none →
      after.host = system.host → after.client = system.client → passed = link →
      Passing platform read double supports system action socket link after passed
  /-- The host takes another turn than one for a message of this connection. -/
  | host {step : LanPeer.Step} : system.hostStep action = some step →
      system.clientStep action = none → step.input.speaker ≠ some link.host →
      after.host = LanPeer.next platform system.host step → after.client = system.client →
      passed = { link with
        down := link.down ++ (LanPeer.told link.host system.host after.host).map
          (frame double (link.host ∈ system.host.binary)) } →
      Passing platform read double supports system action socket link after passed
  /-- A message arrives at the host. -/
  | up {step : LanPeer.Step} {first : Frame} {rest : List Frame} :
      system.hostStep action = some step → system.clientStep action = none →
      link.up = first :: rest → step.input = first.toHost link.host →
      after.host = LanPeer.next platform system.host step → after.client = system.client →
      passed = { link with
        up := rest
        down := link.down ++ (LanPeer.told link.host system.host after.host).map
          (frame double (link.host ∈ system.host.binary)) } →
      Passing platform read double supports system action socket link after passed
  /-- The client takes another turn than one for a message of this connection. -/
  | client {step : LanClient.Step} : system.hostStep action = none →
      system.clientStep action = some step → step.input.speaker ≠ some socket →
      system.Genuine step.input → after.host = system.host →
      after.client = LanClient.next platform read system.client step →
      passed = { link with
        up := link.up ++ (LanClient.told socket system.client after.client).map
          fun message => frame double system.client.binary (wording supports message) } →
      Passing platform read double supports system action socket link after passed
  /-- A message arrives at the client. -/
  | down {step : LanClient.Step} {first : Frame} {rest : List Frame} :
      system.hostStep action = none → system.clientStep action = some step →
      link.down = first :: rest → step.input = first.toClient socket →
      after.host = system.host → after.client = LanClient.next platform read system.client step →
      passed = { link with
        down := rest
        up := link.up ++ (LanClient.told socket system.client after.client).map
          fun message => frame double system.client.binary (wording supports message) } →
      Passing platform read double supports system action socket link after passed

/-- The host keeps accepting sockets under new numbers. -/
theorem host_sockets_le {host : LanPeer} {step : LanPeer.Step} (hfeasible : host.Feasible step) :
    host.sockets ≤ (LanPeer.next platform host step).sockets := by
  refine (LanPeer.next_changes platform hfeasible).invariant
    (I := fun state => host.sockets ≤ state.sockets) (fun state after change hstate => ?_) le_rfl
  cases change with
  | quiet hquiet => exact hstate.trans hquiet.sockets
  | welcome => exact hstate.trans (Nat.le_succ _)
  | acceptOpen _ _ _ houtcome => rcases houtcome with rfl | rfl <;> exact le_rfl
  | confirm _ hquiet => exact hquiet.sockets
  | withdraw =>
      exact hstate.trans (LanPeer.cancelPairing_rest (state.emit .withdrawn)).2.2.2.2.2.2.ge
  | _ => exact hstate

theorem client_sockets_le {client : LanClient} {step : LanClient.Step}
    (hsound : LanClient.Sound client.view) :
    client.sockets ≤ (LanClient.next platform read client step).sockets :=
  (@LanClient.next_turn platform read client step hsound).sockets_le

/-- **What a turn does to a connection.** -/
theorem next_passing (hfeasible : system.Feasible action) (hwired : Wired system)
    {socket : Socket} {link : Link} (hlink : system.links socket = some link) :
    ∃ passed, (next platform read double supports system action).links socket = some passed ∧
      Passing platform read double supports system action socket link
        (next platform read double supports system action) passed := by
  cases action with
  | host step =>
      refine ⟨_, by simp only [next, taken, hlink]; rfl,
        .host rfl rfl (hfeasible.2 socket link hlink) rfl rfl ?_⟩
      simp [clientStep, client_told_self, next]
  | client step =>
      obtain ⟨-, hgenuine, hown⟩ := hfeasible
      refine ⟨_, by simp only [next, taken, hlink]; rfl, .client rfl rfl ?_ hgenuine rfl rfl ?_⟩
      · exact fun hspeaker => by simp [hown socket hspeaker] at hlink
      · simp [hostStep, host_told_self, next]
  -- The links that are there keep their numbers; the new one has another.
  | accept address world =>
      obtain ⟨hserver, own, hclient, hhello, hfree⟩ := hfeasible
      have hne : system.client.client ≠ some socket := by
        rintro hsame
        obtain rfl := Option.some.inj (hclient.symm.trans hsame)
        simp [hfree] at hlink
      refine ⟨_, by simp only [next, taken, if_neg hne, hlink]; rfl,
        .host rfl rfl (by simp [LanPeer.Input.speaker]) rfl rfl ?_⟩
      simp [clientStep, client_told_self, next]
  -- With no link, or an empty queue, nothing arrives.
  | up own world =>
      cases hother : system.links own with
      | none =>
          have hstep : system.hostStep (.up own world) = none := by simp [hostStep, hother]
          have hne : own ≠ socket := by rintro rfl; simp [hother] at hlink
          refine ⟨link, ?_, .idle hstep rfl ?_ rfl rfl⟩
          · simp [next, taken, hlink, hne, hstep, clientStep, host_told_self, client_told_self]
          · simp [next, hstep]
      | some other =>
          cases hup : other.up with
          | nil =>
              have hstep : system.hostStep (.up own world) = none := by
                simp [hostStep, hother, hup]
              refine ⟨link, ?_, .idle hstep rfl ?_ rfl rfl⟩
              · by_cases hne : own = socket
                · subst hne
                  obtain rfl := Option.some.inj (hother.symm.trans hlink)
                  simp [next, taken, hlink, hstep, clientStep, host_told_self, client_told_self,
                    hup]
                  rw [← hup]
                · simp [next, taken, hlink, hne, hstep, clientStep, host_told_self,
                    client_told_self]
              · simp [next, hstep]
          | cons first rest =>
              have hstep : system.hostStep (.up own world) =
                  some ⟨first.toHost other.host, world⟩ := by simp [hostStep, hother, hup]
              -- A message on this link is taken from its queue; one on another link does not
              -- concern it.
              by_cases hne : own = socket
              · subst hne
                obtain rfl := Option.some.inj (hother.symm.trans hlink)
                refine ⟨_, by simp only [next, taken, hlink]; rfl,
                  .up hstep rfl hup rfl (by simp [next, hstep]) rfl ?_⟩
                simp [clientStep, client_told_self, next, hup]
              · refine ⟨_, by simp only [next, taken, hlink]; rfl,
                  .host hstep rfl ?_ (by simp [next, hstep]) rfl ?_⟩
                · rw [toHost_speaker]
                  rintro hsame
                  exact hne (hwired.single own socket other link hother hlink
                    (Option.some.inj hsame))
                · simp [clientStep, client_told_self, next, hne]
  | down own world =>
      cases hother : system.links own with
      | none =>
          have hstep : system.clientStep (.down own world) = none := by simp [clientStep, hother]
          have hne : own ≠ socket := by rintro rfl; simp [hother] at hlink
          refine ⟨link, ?_, .idle rfl hstep rfl ?_ rfl⟩
          · simp [next, taken, hlink, hne, hstep, hostStep, host_told_self, client_told_self]
          · simp [next, hstep]
      | some other =>
          cases hdown : other.down with
          | nil =>
              have hstep : system.clientStep (.down own world) = none := by
                simp [clientStep, hother, hdown]
              refine ⟨link, ?_, .idle rfl hstep rfl ?_ rfl⟩
              · by_cases hne : own = socket
                · subst hne
                  obtain rfl := Option.some.inj (hother.symm.trans hlink)
                  simp [next, taken, hlink, hstep, hostStep, host_told_self, client_told_self,
                    hdown]
                  rw [← hdown]
                · simp [next, taken, hlink, hne, hstep, hostStep, host_told_self,
                    client_told_self]
              · simp [next, hstep]
          | cons first rest =>
              have hstep : system.clientStep (.down own world) =
                  some ⟨first.toClient own, world⟩ := by simp [clientStep, hother, hdown]
              by_cases hne : own = socket
              · subst hne
                obtain rfl := Option.some.inj (hother.symm.trans hlink)
                refine ⟨_, by simp only [next, taken, hlink]; rfl,
                  .down rfl hstep hdown rfl rfl (by simp [next, hstep]) ?_⟩
                simp [hostStep, host_told_self, next, hdown]
              · refine ⟨_, by simp only [next, taken, hlink]; rfl,
                  .client rfl hstep ?_ ?_ rfl (by simp [next, hstep]) ?_⟩
                · rw [toClient_speaker]
                  exact fun hsame => hne (Option.some.inj hsame)
                · unfold Frame.toClient
                  split <;> trivial
                · simp [hostStep, host_told_self, next, hne]

/-- A connection that is new. -/
structure Accepted (platform : Platform) (system : LanSystem) (action : Action) (socket : Socket)
    (after : LanSystem) (link : Link) : Prop where
  current : system.client.client = some socket
  greeted : system.client.helloSent = false
  client : after.client = system.client
  server : system.host.server = true
  host : ∃ address world, system.hostStep action = some ⟨.newConnection address, world⟩ ∧
    after.host = system.host.newConnection platform address
  silent : system.clientStep action = none
  link : link = { host := system.host.sockets, fingerprint := system.host.offer.fingerprint }

theorem newConnection_told (socket : Socket) (address : String) (host : LanPeer) :
    LanPeer.told socket host (host.newConnection platform address) = [] := by
  have hclosed : ∀ after : LanPeer, after.log = [⟨host.now, .closed host.sockets⟩] ++ host.log →
      LanPeer.told socket host after = [] := fun _ hlog => host_told hlog socket
  unfold LanPeer.newConnection
  split
  · exact host_told_self socket host
  · dsimp only
    split
    · exact hclosed _ rfl
    · exact host_told (List.nil_append _).symm socket

/-- A connection appears with the turn in which the host accepts it. -/
theorem next_accepted (hfeasible : system.Feasible action) {socket : Socket} {link : Link}
    (hlink : system.links socket = none)
    (hnew : (next platform read double supports system action).links socket = some link) :
    Accepted platform system action socket (next platform read double supports system action)
      link := by
  cases action with
  | accept address world =>
      obtain ⟨hserver, own, hclient, hhello, hfree⟩ := hfeasible
      by_cases hsame : system.client.client = some socket
      · refine ⟨hsame, hhello, rfl, hserver, ⟨address, world, rfl, rfl⟩, rfl, ?_⟩
        simp only [next, taken, if_pos hsame, Option.map_some, Option.some.injEq] at hnew
        rw [← hnew]
        simp only [hostStep, clientStep, Option.elim_some, Option.elim_none, client_told_self,
          List.map_nil, List.append_nil, LanPeer.next, newConnection_told]
      · simp [next, taken, hsame, hlink] at hnew
  | _ => simp [next, taken, hlink] at hnew

theorem next_wired (hfeasible : system.Feasible action)
    (hsound : LanClient.Sound system.client.view)
    (hwired : Wired system) : Wired (next platform read double supports system action) := by
  have hclient : system.client.sockets ≤
      (next platform read double supports system action).client.sockets := by
    change _ ≤ ((system.clientStep action).elim system.client
      (LanClient.next platform read system.client)).sockets
    cases system.clientStep action with
    | none => exact le_rfl
    | some step => exact client_sockets_le hsound
  have hhost : system.host.sockets ≤
      (next platform read double supports system action).host.sockets := by
    change _ ≤ ((system.hostStep action).elim system.host
      (LanPeer.next platform system.host)).sockets
    cases hstep : system.hostStep action with
    | none => exact le_rfl
    | some step => exact host_sockets_le (hostStep_feasible hfeasible hstep)
  -- A connection was there, or has the number the host gives next.
  have horigin : ∀ socket link,
      (next platform read double supports system action).links socket = some link →
      (∃ old, system.links socket = some old ∧ link.host = old.host) ∨
        system.client.client = some socket ∧ link.host = system.host.sockets ∧
        system.host.sockets < (next platform read double supports system action).host.sockets := by
    intro socket link hlink
    cases hold : system.links socket with
    | none =>
        have haccepted := next_accepted hfeasible hold hlink
        obtain ⟨address, world, -, hnext⟩ := haccepted.host
        refine .inr ⟨haccepted.current, by rw [haccepted.link], ?_⟩
        rw [hnext, LanPeer.newConnection, if_neg (not_not.2 haccepted.server)]
        dsimp only
        split <;> exact Nat.lt_succ_self _
    | some old =>
        obtain ⟨passed, hpassed, hpassing⟩ :=
          @next_passing platform read double supports system action hfeasible hwired socket old hold
        obtain rfl := Option.some.inj (hpassed.symm.trans hlink)
        refine .inl ⟨old, rfl, ?_⟩
        cases hpassing with
        | idle _ _ _ _ h => rw [h]
        | host _ _ _ _ _ h => rw [h]
        | up _ _ _ _ _ _ h => rw [h]
        | client _ _ _ _ _ _ h => rw [h]
        | down _ _ _ _ _ _ h => rw [h]
  refine ⟨fun socket link hlink => ?_, fun socket link hlink => ?_,
    fun socket other link link' hlink hother hsame => ?_⟩
  · rcases horigin socket link hlink with ⟨old, hold, -⟩ | ⟨hcurrent, -⟩
    · exact (hwired.dialled socket old hold).trans_le hclient
    · exact (hsound.numbered socket hcurrent).trans_le hclient
  · rcases horigin socket link hlink with ⟨old, hold, hsame⟩ | ⟨-, hfresh, hlt⟩
    · exact hsame ▸ (hwired.known socket old hold).trans_le hhost
    · exact hfresh ▸ hlt
  · rcases horigin socket link hlink with ⟨old, hold, hnumber⟩ | ⟨hcurrent, hfresh, -⟩ <;>
      rcases horigin other link' hother with ⟨old', hold', hnumber'⟩ | ⟨hcurrent', hfresh', -⟩
    · exact hwired.single socket other old old' hold hold' (by rw [← hnumber, ← hnumber', hsame])
    · have hknown := hwired.known socket old hold
      rw [← hnumber, hsame, hfresh'] at hknown
      exact absurd hknown (lt_irrefl _)
    · have hknown := hwired.known other old' hold'
      rw [← hnumber', ← hsame, hfresh] at hknown
      exact absurd hknown (lt_irrefl _)
    · exact Option.some.inj (hcurrent.symm.trans hcurrent')

theorem run_wired (run : (machine platform read double supports).Run Feasible trace system) :
    Wired system := by
  refine run.invariant (I := fun _ system => Wired system) ?_
    fun trace system action run h hfeasible =>
      next_wired hfeasible (LanClient.run_sound (run_client run)) h
  rintro _ ⟨time, time', rfl⟩
  exact ⟨by simp, by simp, by simp⟩

/-! ## A sample -/

theorem genuine_join {qr peerId name : String}
    (h : (LanPeer.events system.host.log).any (fun event => match event with
      | .generated _ _ shown _ => shown = qr
      | _ => false) = true) : system.Genuine (.join qr peerId name) := by
  obtain ⟨event, hevent, hshown⟩ := List.any_eq_true.1 h
  cases event with
  | generated serial code shown expires =>
      obtain rfl := of_decide_eq_true hshown
      exact ⟨serial, code, expires, hevent⟩
  | _ => cases hshown

theorem genuine_connected {socket : Socket} {fingerprint : String}
    (h : (system.links socket).map Link.fingerprint = some fingerprint) :
    system.Genuine (.connected socket fingerprint) := by
  obtain ⟨link, hlink, rfl⟩ := Option.map_eq_some_iff.1 h
  simp only [Genuine, hlink]

/-- The certificate of the host that is joined. -/
def sampleFingerprint : String := (Platform.sample.random 0).text

def sample : LanSystem := { host := { now := 0 }, client := { now := 0 }, links := fun _ => none }

/-- The client scans a code of the host and connects. -/
def meeting (offer : LanPeer.Input) : List Action :=
  [.host ⟨.startHost "h" "desk" true ["127.0.0.1"] [] true (.ok (80, sampleFingerprint)), .sample⟩,
    .host ⟨offer, .sample⟩, .client ⟨.join "society://pair" "c" "n", .sample⟩,
    .accept "127.0.0.1" .sample, .client ⟨.connected 0 sampleFingerprint, .sample⟩]

end LanSystem

end ServerHost
