import ServerHost.Lan.Offers

/-!
# What a session must pass before it is paired

A session that presents the code on show is paired by its own `confirm`.  Before
that the host opens the Files for it, after a `confirmDevice` if the offer was
made for one device.  When that check fails the host closes the socket but keeps
the session, so a `confirm` that was already on its way still pairs it: the gate
holds in exactly the runs in which no such message arrives in time.
-/

namespace ServerHost

namespace LanPeer

/-- The socket whose pairing the event is a part of. -/
def Event.pairing : Event → Option Socket
  | .accepted socket .. | .listed socket | .failed socket | .approved socket
  | .paired socket _ => some socket
  | _ => none

/-- The pairing of one socket, newest first. -/
def course (socket : Socket) (log : List Entry) : List Event :=
  (events log).filter fun event => event.pairing = some socket

/-- The Files were opened for the socket, and approved if they had to be. -/
def Cleared (log : List Entry) (socket : Socket) : Prop :=
  .listed socket ∈ events log ∧
    ∀ id code serial, .accepted socket id code serial true ∈ events log →
      .approved socket ∈ events log

/-- A report of a pairing, with what had happened before. -/
def Reports (entry : Entry) (earlier : List Entry) : Prop :=
  ∀ socket id, entry.event = .paired socket id → Cleared earlier socket

/-- The gate: what is reported, marked or listed as paired was cleared. -/
structure Gated (host : LanPeer) : Prop where
  reported : Always Reports host.log
  marked : Table.All (fun socket session => session.paired = true → Cleared host.log socket)
    host.clients
  shown : ∀ id ∈ host.pairedDeviceIds, ∃ socket session,
    host.clients.lookup socket = some session ∧ session.id = id ∧ Cleared host.log socket

/-- A `confirm` reaches a session whose Files check has failed. -/
def Slips (host : LanPeer) (step : Step) : Prop :=
  ∃ socket session, Confirms host step socket session ∧ .failed socket ∈ events host.log

/-- The Files check was made, and this is all that happened before a `confirm`. -/
inductive Settled (socket : Socket) : List Event → Prop
  | listed (id code : String) (serial : ℕ) :
      Settled socket [.listed socket, .accepted socket id code serial false]
  | approved (id code : String) (serial : ℕ) : Settled socket
      [.approved socket, .listed socket, .accepted socket id code serial true]
  | failed (id code : String) (serial : ℕ) (device : Bool) :
      Settled socket [.failed socket, .accepted socket id code serial device]

/-- How far the pairing of a session got. -/
inductive Stage (socket : Socket) (session : Session) : List Event → Prop
  | blank : session.id = "" → session.paired = false → session.awaitingApproval = false →
      Stage socket session []
  | waits (id code : String) (serial : ℕ) : session.id ≠ "" → session.paired = false →
      session.awaitingApproval = true → Stage socket session [.accepted socket id code serial true]
  | settled {done : List Event} : session.id ≠ "" → session.paired = false →
      session.awaitingApproval = false → Settled socket done → Stage socket session done
  | paired {done : List Event} (id : String) : session.id ≠ "" → session.paired = true →
      session.awaitingApproval = false → Settled socket done →
      Stage socket session (.paired socket id :: done)

/-- Every session is at the stage its flags tell, and a socket that is not yet
taken has no history. -/
structure Staged (host : LanPeer) : Prop where
  stage : Table.All (fun socket session => Stage socket session (course socket host.log))
    host.clients
  known : Table.All (fun socket _ => socket < host.sockets) host.clients
  fresh : ∀ socket, host.sockets ≤ socket → course socket host.log = []

variable {platform : Platform} {pre : LanPeer} {step : Step} {host after : LanPeer}

/-! ## Courses -/

theorem mem_course {socket : Socket} {event : Event} {log : List Entry} :
    event ∈ course socket log ↔ event ∈ events log ∧ event.pairing = some socket := by
  simp [course]

theorem course_cons (socket : Socket) (entry : Entry) (log : List Entry) :
    course socket (entry :: log) = if entry.event.pairing = some socket then
      entry.event :: course socket log else course socket log := by
  simp [course, List.filter_cons]

@[simp] theorem course_nil (socket : Socket) : course socket [] = [] := rfl

theorem course_own {socket : Socket} {entry : Entry} (h : entry.event.pairing = some socket)
    (log : List Entry) : course socket (entry :: log) = entry.event :: course socket log := by
  rw [course_cons, if_pos h]

theorem course_cons_of_ne {socket : Socket} {entry : Entry} (h : entry.event.pairing ≠ some socket)
    (log : List Entry) : course socket (entry :: log) = course socket log := by
  rw [course_cons, if_neg h]

/-- Whether a socket is cleared depends on its own course only. -/
theorem cleared_iff {log : List Entry} {socket : Socket} :
    Cleared log socket ↔ .listed socket ∈ course socket log ∧
      ∀ id code serial, .accepted socket id code serial true ∈ course socket log →
        .approved socket ∈ course socket log := by
  simp [Cleared, mem_course, Event.pairing]

theorem Cleared.congr {log log' : List Entry} {socket : Socket} (h : Cleared log socket)
    (hcourse : course socket log' = course socket log) : Cleared log' socket := by
  rw [cleared_iff] at h ⊢
  rwa [hcourse]

theorem course_append (socket : Socket) (new log : List Entry) :
    course socket (new ++ log) = course socket new ++ course socket log := by
  simp [course, events]

theorem course_append_of_not {socket : Socket} {new log : List Entry}
    (h : ∀ entry ∈ new, entry.event.pairing ≠ some socket) :
    course socket (new ++ log) = course socket log := by
  induction new with
  | nil => rfl
  | cons entry rest ih =>
      rw [List.cons_append, course_cons_of_ne (h entry (by simp))]
      exact ih fun other hother => h other (by simp [hother])

theorem Quiet.course (h : Quiet host after) (socket : Socket) :
    course socket after.log = course socket host.log := by
  obtain ⟨new, hlog, hall⟩ := h.log
  rw [hlog]
  refine course_append_of_not fun entry hentry => ?_
  rcases hall entry hentry with ⟨other, hevent⟩ | ⟨other, message, hevent⟩ <;>
    simp [hevent, Event.pairing]

/-- A pairing that is settled was cleared unless its check failed. -/
theorem Settled.cleared_or_failed {socket : Socket} {log : List Entry}
    (h : Settled socket (course socket log)) :
    (Cleared log socket ∧ .failed socket ∉ events log) ∨
      (¬ Cleared log socket ∧ .failed socket ∈ events log) := by
  have hfailed : .failed socket ∈ events log ↔ .failed socket ∈ course socket log := by
    simp [mem_course, Event.pairing]
  rw [cleared_iff, hfailed]
  generalize course socket log = done at h
  cases h <;> simp

/-! ## Stages -/

/-- A session keeps its stage when its flags and its course stay. -/
theorem Stage.congr {socket : Socket} {session other : Session} {done : List Event}
    (h : Stage socket session done) (hid : other.id = session.id)
    (hpaired : other.paired = session.paired)
    (hawaiting : other.awaitingApproval = session.awaitingApproval) :
    Stage socket other done := by
  cases h with
  | blank hnone hunpaired hsettled =>
      exact .blank (hid ▸ hnone) (hpaired ▸ hunpaired) (hawaiting ▸ hsettled)
  | waits id code serial hnamed hunpaired hwaits =>
      exact .waits id code serial (hid ▸ hnamed) (hpaired ▸ hunpaired) (hawaiting ▸ hwaits)
  | settled hnamed hunpaired hsettled hdone =>
      exact .settled (hid ▸ hnamed) (hpaired ▸ hunpaired) (hawaiting ▸ hsettled) hdone
  | paired id hnamed hpaired' hsettled hdone =>
      exact .paired id (hid ▸ hnamed) (hpaired ▸ hpaired') (hawaiting ▸ hsettled) hdone

theorem Stage.of_blank {socket : Socket} {session : Session} {done : List Event}
    (h : Stage socket session done) (hnone : session.id = "") :
    done = [] ∧ session.paired = false ∧ session.awaitingApproval = false := by
  cases h with
  | blank _ hunpaired hsettled => exact ⟨rfl, hunpaired, hsettled⟩
  | waits | settled | paired => contradiction

theorem Stage.of_waits {socket : Socket} {session : Session} {done : List Event}
    (h : Stage socket session done) (hwaits : session.awaitingApproval = true) :
    ∃ id code serial, done = [.accepted socket id code serial true] ∧ session.id ≠ "" ∧
      session.paired = false := by
  cases h with
  | waits id code serial hnamed hunpaired => exact ⟨id, code, serial, rfl, hnamed, hunpaired⟩
  | blank _ _ hsettled => simp [hsettled] at hwaits
  | settled _ _ hsettled => simp [hsettled] at hwaits
  | paired _ _ _ hsettled => simp [hsettled] at hwaits

theorem Stage.of_settled {socket : Socket} {session : Session} {done : List Event}
    (h : Stage socket session done) (hnamed : session.id ≠ "") (hunpaired : session.paired = false)
    (hsettled : session.awaitingApproval = false) : Settled socket done := by
  cases h with
  | settled _ _ _ hdone => exact hdone
  | blank hnone => contradiction
  | waits _ _ _ _ _ hwaits => simp [hsettled] at hwaits
  | paired _ _ hpaired => simp [hunpaired] at hpaired

theorem Stage.of_paired {socket : Socket} {session : Session} {done : List Event}
    (h : Stage socket session done) (hpaired : session.paired = true) :
    ∃ id before, done = .paired socket id :: before ∧ Settled socket before := by
  cases h with
  | paired id _ _ _ hdone => exact ⟨id, _, rfl, hdone⟩
  | blank _ hunpaired => simp [hunpaired] at hpaired
  | waits _ _ _ _ hunpaired => simp [hunpaired] at hpaired
  | settled _ hunpaired => simp [hunpaired] at hpaired

theorem Settled.not_paired {socket : Socket} {done : List Event} (h : Settled socket done)
    (id : String) : .paired socket id ∉ done := by
  cases h <;> simp

/-- Sessions that were there before, with courses that stay. -/
theorem Staged.frame (h : Staged host) (hsockets : host.sockets ≤ after.sockets)
    (hcourse : ∀ socket, course socket after.log = course socket host.log)
    (hclients : ∀ socket session, after.clients.lookup socket = some session →
      ∃ old, host.clients.lookup socket = some old ∧ session.id = old.id ∧
        session.paired = old.paired ∧ session.awaitingApproval = old.awaitingApproval) :
    Staged after := by
  refine ⟨fun socket session hsession => ?_, fun socket session hsession => ?_,
    fun socket hle => ?_⟩
  · obtain ⟨old, hold, hid, hpaired, hawaiting⟩ := hclients socket session hsession
    rw [hcourse]
    exact (h.stage socket old hold).congr hid hpaired hawaiting
  · obtain ⟨old, hold, -⟩ := hclients socket session hsession
    exact (h.known socket old hold).trans_le hsockets
  · rw [hcourse]
    exact h.fresh socket (hsockets.trans hle)

theorem Staged.still (h : Staged host) (hsockets : host.sockets ≤ after.sockets)
    (hcourse : ∀ socket, course socket after.log = course socket host.log)
    (hclients : after.clients = host.clients) : Staged after :=
  h.frame hsockets hcourse fun _ session hsession =>
    ⟨session, hclients ▸ hsession, rfl, rfl, rfl⟩

/-- One session moves on, with events of its own socket. -/
theorem Staged.advance (h : Staged host) {socket : Socket} {session : Session}
    (hsession : host.clients.lookup socket = some session) (f : Session → Session)
    (new : List Entry) (hclients : after.clients = Table.modify socket f host.clients)
    (hsockets : host.sockets ≤ after.sockets) (hlog : after.log = new ++ host.log)
    (hnew : ∀ entry ∈ new, entry.event.pairing = some socket ∨ entry.event.pairing = none)
    (hstage : Stage socket (f session) (course socket (new ++ host.log))) : Staged after := by
  -- the new events name this socket alone
  have hothers : ∀ other, other ≠ socket → course other after.log = course other host.log := by
    intro other hne
    rw [hlog]
    refine course_append_of_not fun entry hentry heq => ?_
    rcases hnew entry hentry with hown | hnone
    · exact hne (Option.some.inj (heq.symm.trans hown))
    · simp [hnone] at heq
  refine ⟨fun other own hown => ?_, fun other own hown => ?_, fun other hle => ?_⟩
  · rw [hclients] at hown
    rcases Table.lookup_modify_eq_some.1 hown with ⟨rfl, old, hold, rfl⟩ | ⟨hne, hold⟩
    · obtain rfl := Option.some.inj (hsession.symm.trans hold)
      rwa [hlog]
    · rw [hothers other hne]
      exact h.stage other own hold
  · rw [hclients] at hown
    rcases Table.lookup_modify_eq_some.1 hown with ⟨rfl, old, hold, -⟩ | ⟨-, hold⟩
    · exact (h.known other old hold).trans_le hsockets
    · exact (h.known other own hold).trans_le hsockets
  · replace hle := hsockets.trans hle
    have hne : other ≠ socket := by
      rintro rfl
      exact absurd (h.known other session hsession) (not_lt.2 hle)
    rw [hothers other hne]
    exact h.fresh other hle

/-! ## One turn -/

theorem Staged.note (h : Staged host) (socket : Socket) (authentication : String) :
    Staged (host.note socket authentication) := by
  refine h.frame le_rfl (fun _ => rfl) fun other session hsession => ?_
  rcases Table.lookup_modify_eq_some.1 hsession with ⟨rfl, old, hold, rfl⟩ | ⟨-, hold⟩
  · exact ⟨old, hold, rfl, rfl, rfl⟩
  · exact ⟨session, hold, rfl, rfl, rfl⟩

/-- A session whose socket has no history takes the offer, and the events `new`
follow. -/
theorem Staged.accept (h : Staged host) {socket : Socket} {message : JsonObject}
    {session : Session} (hsession : host.clients.lookup socket = some session)
    (hcourse : course socket host.log = []) (hunpaired : session.paired = false)
    (hnamed : (message.value "peerId").toString ≠ "") (new : List Entry)
    (hclients : after.clients = (host.accept platform socket message).clients)
    (hsockets : host.sockets ≤ after.sockets)
    (hlog : after.log = new ++ (host.accept platform socket message).log)
    (hnew : ∀ entry ∈ new, entry.event.pairing = some socket ∨ entry.event.pairing = none)
    (hstage : host.expectedPeer ≠ "" ∧ course socket new = [] ∨ host.expectedPeer = "" ∧
      ∀ id code serial, Settled socket
        (course socket new ++ [.accepted socket id code serial false])) :
    Staged after := by
  rw [accept_clients] at hclients
  rw [accept_log] at hlog
  refine h.advance hsession _ (new ++ [_]) hclients hsockets (by rw [hlog, List.append_assoc]; rfl)
    ?_ ?_
  · intro entry hentry
    rcases List.mem_append.1 hentry with hold | hlast
    · exact hnew entry hold
    · rw [List.mem_singleton.1 hlast]
      exact .inl rfl
  · rw [course_append, course_append, hcourse, List.append_nil]
    rcases hstage with ⟨hdevice, hnone⟩ | ⟨hopen, hsettled⟩
    · have hflag : decide (host.expectedPeer ≠ "") = true := decide_eq_true hdevice
      rw [hnone, course_own rfl, hflag]
      exact .waits _ _ _ hnamed hunpaired rfl
    · have hflag : decide (host.expectedPeer ≠ "") = false := decide_eq_false (by simp [hopen])
      rw [course_own rfl, hflag]
      exact .settled hnamed hunpaired rfl (hsettled _ _ _)

theorem Staged.accepts (h : Staged pre) {socket : Socket} {message : JsonObject}
    (haccepts : Accepts platform pre step socket message) (authentication : String) :
    (pre.expectedPeer ≠ "" →
        Staged ((pre.note socket authentication).accept platform socket message)) ∧
      (pre.expectedPeer = "" → ∀ after, Outcome socket
        (((pre.note socket authentication).accept platform socket message).emit
          (.handled socket (message.value "peerId").toString listRequest)) after →
        Staged after) := by
  have hnamed : (message.value "peerId").toString ≠ "" :=
    identifier_ne_empty haccepts.presented.named
  obtain ⟨session, hsession, hnone⟩ := haccepts.nameless
  obtain ⟨hcourse, hunpaired, -⟩ := (h.stage socket session hsession).of_blank hnone
  have hnoted : (pre.note socket authentication).clients.lookup socket =
      some { session with authentication := authentication } := by
    rw [LanPeer.note, update, Table.lookup_modify, if_pos rfl, hsession, Option.map_some]
  have haccept := fun {after} => @Staged.accept platform _ after (h.note socket authentication)
    socket message _ hnoted hcourse hunpaired hnamed
  refine ⟨fun hdevice => ?_, fun hopen after houtcome => ?_⟩
  · exact haccept [] rfl le_rfl rfl (by simp) (.inl ⟨hdevice, rfl⟩)
  · rcases houtcome with rfl | rfl
    · refine haccept [_, _] rfl le_rfl rfl (by simp [Event.pairing]) (.inr ⟨hopen, ?_⟩)
      simpa [course_cons, Event.pairing] using Settled.listed
    · refine haccept [_, _] rfl le_rfl rfl (by simp [Event.pairing]) (.inr ⟨hopen, ?_⟩)
      simpa [course_cons, Event.pairing] using
        fun id code serial => Settled.failed id code serial false

theorem Staged.change (hpre : Staged pre) (h : Staged host)
    (change : Change platform pre step host after) : Staged after := by
  -- A socket whose pairing goes on, with the session it has and its course so far.
  have hwaiting : ∀ {socket}, Approves pre step socket → ∃ session id code serial,
      pre.clients.lookup socket = some session ∧ session.id ≠ "" ∧ session.paired = false ∧
        course socket pre.log = [.accepted socket id code serial true] := by
    rintro socket ⟨-, -, session, hsession, hwaits, -⟩
    obtain ⟨id, code, serial, hcourse, hnamed, hunpaired⟩ :=
      (hpre.stage socket session hsession).of_waits hwaits
    exact ⟨session, id, code, serial, hsession, hnamed, hunpaired, hcourse⟩
  cases change with
  | clock | expect | configure | begin => exact h.still le_rfl (fun _ => rfl) rfl
  | quiet hquiet => exact h.still hquiet.sockets hquiet.course hquiet.clients
  | welcome =>
      refine ⟨fun socket session hsession => ?_, fun socket session hsession => ?_,
        fun socket hle => ?_⟩
      · rcases Table.lookup_insert_eq_some.1 hsession with ⟨rfl, rfl⟩ | ⟨-, hold⟩
        · rw [h.fresh _ le_rfl]
          exact .blank rfl rfl rfl
        · exact h.stage socket session hold
      · rcases Table.lookup_insert_eq_some.1 hsession with ⟨rfl, -⟩ | ⟨-, hold⟩
        · exact Nat.lt_succ_self _
        · exact (h.known socket session hold).trans (Nat.lt_succ_self _)
      · exact h.fresh socket ((Nat.le_succ _).trans hle)
  | note socket authentication => exact h.note socket authentication
  | @acceptDevice socket message authentication haccepts hdevice =>
      exact (hpre.accepts haccepts authentication).1 hdevice
  | @acceptOpen socket message authentication _ haccepts hopen houtcome =>
      exact (hpre.accepts haccepts authentication).2 hopen _ houtcome
  | @approveUnproved socket happroves =>
      obtain ⟨session, id, code, serial, hsession, hnamed, hunpaired, hcourse⟩ := hwaiting happroves
      refine hpre.advance hsession _ [_] (approve_clients ..) le_rfl rfl
        (by simp [Event.pairing]) ?_
      refine .settled hnamed hunpaired rfl ?_
      simpa [course_cons, Event.pairing, hcourse] using Settled.failed id code serial true
  | @approveUnlisted socket own happroves hown =>
      obtain ⟨session, id, code, serial, hsession, hnamed, hunpaired, hcourse⟩ := hwaiting happroves
      refine hpre.advance hsession _ [_, _] (approve_clients ..) le_rfl rfl
        (by simp [Event.pairing]) ?_
      refine .settled hnamed hunpaired rfl ?_
      simpa [course_cons, Event.pairing, hcourse] using Settled.failed id code serial true
  | @approve socket own happroves hown =>
      obtain ⟨session, id, code, serial, hsession, hnamed, hunpaired, hcourse⟩ := hwaiting happroves
      refine hpre.advance hsession _ [_, _, _] (approve_clients ..) le_rfl rfl
        (by simp [Event.pairing]) ?_
      refine .settled hnamed hunpaired rfl ?_
      simpa [course_cons, Event.pairing, hcourse] using Settled.approved id code serial
  | @confirm socket session mid hconfirms hquiet =>
      have hdone := (hpre.stage socket session hconfirms.stored).of_settled hconfirms.named
        hconfirms.unpaired hconfirms.settled
      obtain ⟨new, hlog, hall⟩ := hquiet.log
      have hnone : ∀ entry ∈ new, entry.event.pairing = none := by
        intro entry hentry
        rcases hall entry hentry with ⟨other, hevent⟩ | ⟨other, message, hevent⟩ <;>
          simp [hevent, Event.pairing]
      refine hpre.advance hconfirms.stored (fun session => { session with paired := true })
        (⟨mid.now, .paired socket session.id⟩ :: new) hquiet.clients hquiet.sockets
        (congrArg (_ :: ·) hlog) ?_ ?_
      · simpa [Event.pairing] using fun entry hentry => .inr (hnone entry hentry)
      · rw [List.cons_append, course_own rfl,
          course_append_of_not fun entry hentry => by simp [hnone entry hentry]]
        exact .paired _ hconfirms.named rfl hconfirms.settled hdone
  | serve => exact h.still le_rfl (fun _ => course_cons_of_ne (by simp [Event.pairing]) _) rfl
  | forget socket =>
      exact h.frame le_rfl (fun _ => rfl) fun other session hsession =>
        ⟨session, (Table.lookup_erase_eq_some.1 hsession).2, rfl, rfl, rfl⟩
  | expire => exact h.still le_rfl (fun _ => course_cons_of_ne (by simp [Event.pairing]) _) rfl
  | withdraw =>
      obtain ⟨hlog, -, -, -, -, -, hsockets⟩ := cancelPairing_rest (host.emit .withdrawn)
      refine h.frame hsockets.ge (fun socket => ?_) fun socket session hsession =>
        ⟨session, (cancelPairing_clients.1 hsession).1, rfl, rfl, rfl⟩
      rw [hlog]
      exact course_cons_of_ne (by simp [Event.pairing]) _
  | generate => exact h.still le_rfl (fun _ => course_cons_of_ne (by simp [Event.pairing]) _) rfl
  | stop =>
      refine h.frame le_rfl (fun socket => course_cons_of_ne (by simp [Event.pairing]) _) ?_
      intro socket session hsession
      simp [stop] at hsession
  | rehash hclients =>
      exact h.frame le_rfl (fun _ => rfl) fun socket session hsession =>
        ⟨session, (hclients.lookup socket).trans hsession, rfl, rfl, rfl⟩

theorem run_staged {trace : List (LanPeer × Step)}
    (run : (machine platform).Run Feasible trace host) : Staged host := by
  refine run.invariant_state ?_ fun state input h hfeasible =>
    (next_changes platform hfeasible).invariant (fun _ _ change hstate => h.change hstate change) h
  rintro state ⟨time, rfl⟩
  exact ⟨.empty _, .empty _, fun _ _ => rfl⟩

/-! ## The gate -/

/-- What was cleared when it was reported stays cleared as long as the session is
there, so the reports decide. -/
theorem Staged.gated (h : Staged host) (hreported : Always Reports host.log) : Gated host := by
  have hmarked : Table.All (fun socket session => session.paired = true →
      Cleared host.log socket) host.clients := by
    intro socket session hsession hpaired
    obtain ⟨id, before, hcourse, hdone⟩ := (h.stage socket session hsession).of_paired hpaired
    have hreport : .paired socket id ∈ events host.log := by
      refine (@mem_course socket _ _).1 ?_ |>.1
      rw [hcourse]
      exact List.mem_cons_self
    obtain ⟨⟨time, event⟩, hentry, rfl⟩ := List.mem_map.1 hreport
    obtain ⟨later, earlier, hsplit, hreports⟩ := hreported.mem hentry
    -- Nothing happened to the socket after the report.
    have hsame : course socket earlier = before := by
      rw [hsplit, course_append, course_own rfl] at hcourse
      cases hlater : course socket later with
      | nil => simpa [hlater] using hcourse
      | cons first rest =>
          rw [hlater, List.cons_append, List.cons.injEq] at hcourse
          exact absurd (by simp [← hcourse.2]) (hdone.not_paired id)
    have hcleared := cleared_iff.1 (hreports socket id rfl)
    rw [hsame] at hcleared
    rw [cleared_iff, hcourse]
    refine ⟨List.mem_cons_of_mem _ hcleared.1, fun own code serial haccepted => ?_⟩
    simp only [List.mem_cons, reduceCtorEq, false_or] at haccepted ⊢
    exact hcleared.2 own code serial haccepted
  refine ⟨hreported, hmarked, fun id hid => ?_⟩
  simp only [pairedDeviceIds, List.mem_map, List.mem_filter] at hid
  obtain ⟨⟨socket, session⟩, ⟨hmem, hpaired⟩, rfl⟩ := hid
  have hsession := Table.lookup_of_mem_entries hmem
  exact ⟨socket, session, hsession, rfl, hmarked socket session hsession hpaired⟩

theorem reports_of_not_paired {entry : Entry}
    (h : ∀ socket id, entry.event ≠ .paired socket id) (earlier : List Entry) :
    Reports entry earlier :=
  fun socket id heq => absurd heq (h socket id)

/-- A change that is no slip reports nothing that was not cleared. -/
theorem reports_of_change (hpre : Staged pre) (hkept : ¬ Slips pre step)
    (h : Always Reports host.log) (change : Change platform pre step host after) :
    Always Reports after.log := by
  have hcons : ∀ {time : ℤ} {event : Event} {log : List Entry}, Always Reports log →
      (∀ socket id, event ≠ .paired socket id) → Always Reports (⟨time, event⟩ :: log) :=
    fun hlog hne => hlog.cons (reports_of_not_paired hne _)
  -- a quiet change reports no pairing at all
  have hquieted : ∀ {state mid : LanPeer}, Quiet state mid → Always Reports state.log →
      Always Reports mid.log := by
    intro state mid hquiet hstate
    obtain ⟨new, hlog, hall⟩ := hquiet.log
    rw [hlog]
    refine hstate.append fun entry hentry => reports_of_not_paired fun socket id => ?_
    rcases hall entry hentry with ⟨other, hevent⟩ | ⟨other, message, hevent⟩ <;> simp [hevent]
  cases change with
  | quiet hquiet => exact hquieted hquiet h
  | acceptDevice authentication => exact hcons h (by simp)
  | acceptOpen authentication haccepts hopen houtcome =>
      rcases houtcome with rfl | rfl <;>
        exact hcons (hcons (hcons h (by simp)) (by simp)) (by simp)
  | approveUnproved => exact hcons h (by simp)
  | approveUnlisted => exact hcons (hcons h (by simp)) (by simp)
  | approve => exact hcons (hcons (hcons h (by simp)) (by simp)) (by simp)
  | @confirm socket session mid hconfirms hquiet =>
      refine Always.cons (hquieted hquiet h) ?_
      rintro _ _ ⟨⟩
      -- the session settled its Files check, and it did not fail as this is no slip
      have hdone := (hpre.stage socket session hconfirms.stored).of_settled hconfirms.named
        hconfirms.unpaired hconfirms.settled
      rcases hdone.cleared_or_failed with ⟨hcleared, -⟩ | ⟨-, hfailed⟩
      · exact hcleared.congr (hquiet.course socket)
      · exact absurd ⟨socket, session, hconfirms, hfailed⟩ hkept
  | serve => exact hcons h (by simp)
  | expire => exact hcons h (by simp)
  | withdraw =>
      rw [(cancelPairing_rest (host.emit .withdrawn)).1]
      exact hcons h (by simp)
  | generate => exact hcons h (by simp)
  | stop => exact hcons h (by simp)
  | _ => exact h

/-- The history only grows. -/
theorem change_log (change : Change platform pre step host after) :
    Grows (fun _ => True) host.log after.log := by
  have hcons : ∀ {entry : Entry} {log log' : List Entry}, Grows (fun _ => True) log log' →
      Grows (fun _ => True) log (entry :: log') := fun h => h.trans (.cons trivial)
  have hquieted : ∀ {state mid : LanPeer}, Quiet state mid →
      Grows (fun _ => True) state.log mid.log :=
    fun hquiet => hquiet.log.mono fun _ _ => trivial
  cases change with
  | quiet hquiet => exact hquieted hquiet
  | acceptOpen authentication haccepts hopen houtcome =>
      rcases houtcome with rfl | rfl <;> exact hcons (hcons (hcons (.of_eq rfl)))
  | approveUnlisted => exact hcons (hcons (.of_eq rfl))
  | approve => exact hcons (hcons (hcons (.of_eq rfl)))
  | confirm hconfirms hquiet =>
      have hmid := hquieted hquiet
      exact hcons hmid
  | withdraw => exact (cancelPairing_rest (host.emit .withdrawn)).1 ▸ hcons (.of_eq rfl)
  | acceptDevice | approveUnproved | serve | expire | generate | stop => exact hcons (.of_eq rfl)
  | _ => exact .of_eq rfl

/-- A slip reports a session that was not cleared. -/
theorem not_reports_of_slip (hpre : Staged pre) (hslip : Slips pre step) :
    ¬ Always Reports (next platform pre step).log := by
  obtain ⟨socket, session, hconfirms, hfailed⟩ := hslip
  obtain ⟨message, hinput, htype⟩ := hconfirms.spoken
  have hdone := (hpre.stage socket session hconfirms.stored).of_settled hconfirms.named
    hconfirms.unpaired hconfirms.settled
  have huncleared : ¬ Cleared pre.log socket := by
    rcases hdone.cleared_or_failed with ⟨-, hnone⟩ | ⟨huncleared, -⟩
    · exact absurd hfailed hnone
    · exact huncleared
  have hnext : next platform pre step = pre.confirmMessage step.world socket session := by
    simp only [next, hinput, hostMessage, hconfirms.stored, htype]
    rw [if_neg (by simp), if_pos ⟨trivial, hconfirms.named, by simp [hconfirms.unpaired],
      by simp [hconfirms.settled], hconfirms.in_time⟩]
  obtain ⟨mid, hquiet, hmid⟩ := confirmMessage_quiet step.world socket session pre
  intro hreported
  rw [hnext, hmid, emit_log] at hreported
  exact huncleared ((hreported.head socket session.id rfl).congr (hquiet.course socket).symm)

/-- **The gate holds in exactly the runs without a slip.** -/
theorem run_gated_iff {trace : List (LanPeer × Step)}
    (run : (machine platform).Run Feasible trace host) :
    Gated host ↔ ∀ visit ∈ trace, ¬ Slips visit.1 visit.2 := by
  have hreported : Always Reports host.log ↔ ∀ visit ∈ trace, ¬ Slips visit.1 visit.2 := by
    induction run with
    | start h =>
        obtain ⟨time, rfl⟩ := h
        simpa using Always.nil
    | @step trace state input run hfeasible ih =>
        rw [List.forall_mem_cons, ← ih]
        have hstaged := run_staged run
        constructor
        · intro h
          refine ⟨fun hslip => not_reports_of_slip hstaged hslip h, ?_⟩
          obtain ⟨new, hlog, -⟩ := (next_changes platform hfeasible).invariant
            (I := fun after => Grows (fun _ => True) state.log after.log)
            (fun _ _ change hgrows => hgrows.trans (change_log change)) (.of_eq rfl)
          exact Always.of_append (hlog ▸ h)
        · rintro ⟨hkept, h⟩
          exact (next_changes platform hfeasible).invariant
            (I := fun after => Always Reports after.log)
            (fun _ _ change hafter => reports_of_change hstaged hkept hafter change) h
  exact ⟨fun h => hreported.1 h.reported, fun h => (run_staged run).gated (hreported.2 h)⟩

/-- The same callbacks with a handler that cannot open the Files. -/
def World.closed : World := { World.sample with
  handle := fun _ _ => some (.ofList [("ok", .bool false)]) }

/-- The Files of the host cannot be opened, and `confirm` comes all the same. -/
def intrusion : List Step :=
  [.startHost "h" "desk" true ["127.0.0.1"] [] true (.ok (80, (Platform.sample.random 0).text)),
    .createOffer 60, .newConnection "127.0.0.1", .text 0 (presentation 0 "p"),
    .text 0 (.ofList [("type", .string "confirm")])].map fun input => ⟨input, World.closed⟩

theorem not_gated_intrusion : ∃ trace,
    (machine .sample).Run Feasible trace (intrusion.foldl (next .sample) { now := 0 }) ∧
      ¬ Gated (intrusion.foldl (next .sample) { now := 0 }) := by
  have hstart : (machine .sample).Run Feasible [] { now := 0 } := .start ⟨0, rfl⟩
  obtain ⟨trace, run⟩ := hstart.extend intrusion
    ⟨trivial, trivial, trivial, trivial, trivial, trivial⟩
  refine ⟨trace, run, fun h => ?_⟩
  have hlisted : ((events (intrusion.foldl (next .sample) { now := 0 }).log).any fun event =>
      match event with
      | .listed _ => true
      | _ => false) = false := by decide
  obtain ⟨socket, session, -, -, hcleared, -⟩ := h.shown "p" (by decide)
  exact absurd (List.any_eq_false.1 hlisted _ hcleared) (by simp)

theorem run_gated_iff_household : ∃ host trace, (machine .sample).Run Feasible trace host ∧
    host.pairedDeviceIds = ["q", "p"] ∧
    (Gated host ↔ ∀ visit ∈ trace, ¬ Slips visit.1 visit.2) := by
  have hstart : (machine .sample).Run Feasible [] { now := 0 } := .start ⟨0, rfl⟩
  obtain ⟨trace, run⟩ := hstart.extend household household_admissible
  exact ⟨_, trace, run, by decide +kernel, run_gated_iff run⟩

end LanPeer

end ServerHost
