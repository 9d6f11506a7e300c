import ServerHost.Lan.Offers

/-!
# No access before authorisation

The request handler of a LAN host is called on behalf of a session only after
that session presented the code on show, passed the account check when there is
one and, for a device offer, was approved by `confirmDevice` in time.
-/

namespace ServerHost

namespace LanPeer

/-- The session `socket` was paired for `peer` by a message of the run: it
presented the very code on show and, if the offer was for a device, a later
`confirmDevice` approved it. -/
def Authorised (platform : Platform) (socket : Socket) (peer : String)
    (trace : List (LanPeer × Step)) : Prop :=
  ∃ later visit earlier message, trace = later ++ visit :: earlier ∧
    Presented platform visit.1 visit.2 socket message ∧
    (message.value "code").toString = visit.1.offer.code ∧
    (message.value "peerId").toString = peer ∧
    (visit.1.expectedPeer ≠ "" → ∃ approval ∈ later, Approves approval.1 approval.2 socket)

/-- The same, except that the approval may still be awaited. -/
def Introduced (platform : Platform) (socket : Socket) (session : Session)
    (trace : List (LanPeer × Step)) : Prop :=
  ∃ later visit earlier message, trace = later ++ visit :: earlier ∧
    Presented platform visit.1 visit.2 socket message ∧
    (message.value "code").toString = visit.1.offer.code ∧
    (message.value "peerId").toString = session.id ∧
    (visit.1.expectedPeer ≠ "" → session.awaitingApproval = true ∨
      ∃ approval ∈ later, Approves approval.1 approval.2 socket)

/-- Every session with a name was introduced, and only such a session is paired
or awaits approval. -/
structure Access (platform : Platform) (trace : List (LanPeer × Step)) (host : LanPeer) :
    Prop where
  introduced : Table.All (fun socket session => session.id ≠ "" →
    Introduced platform socket session trace) host.clients
  paired : Table.All (fun _ session => session.paired = true →
    session.id ≠ "" ∧ session.awaitingApproval = false) host.clients
  awaiting : Table.All (fun _ session => session.awaitingApproval = true → session.id ≠ "")
    host.clients

/-- Calls of the handler are authorised. -/
def Guarded (platform : Platform) (trace : List (LanPeer × Step)) (entry : Entry) : Prop :=
  ∀ socket peer payload, entry.event = .handled socket peer payload →
    Authorised platform socket peer trace

variable {platform : Platform} {pre : LanPeer} {step : Step} {host after : LanPeer}
  {trace : List (LanPeer × Step)}

/-! ## Introductions -/

theorem Introduced.cons {socket : Socket} {session : Session}
    (h : Introduced platform socket session trace) (visit : LanPeer × Step) :
    Introduced platform socket session (visit :: trace) := by
  obtain ⟨later, own, earlier, message, hsplit, hpresented, hcode, hid, hdevice⟩ := h
  refine ⟨visit :: later, own, earlier, message, by rw [hsplit, List.cons_append], hpresented,
    hcode, hid, fun hexpected => (hdevice hexpected).imp_right ?_⟩
  exact fun ⟨approval, hmem, happroves⟩ => ⟨approval, List.mem_cons_of_mem _ hmem, happroves⟩

/-- Only the name and the approval matter. -/
theorem Introduced.congr {socket : Socket} {session other : Session}
    (h : Introduced platform socket session trace) (hid : other.id = session.id)
    (hawaiting : session.awaitingApproval = true → other.awaitingApproval = true) :
    Introduced platform socket other trace := by
  obtain ⟨later, visit, earlier, message, hsplit, hpresented, hcode, hname, hdevice⟩ := h
  exact ⟨later, visit, earlier, message, hsplit, hpresented, hcode, hname.trans hid.symm,
    fun hexpected => (hdevice hexpected).imp_left hawaiting⟩

theorem Introduced.authorised {socket : Socket} {session : Session}
    (h : Introduced platform socket session trace) (hsettled : session.awaitingApproval = false) :
    Authorised platform socket session.id trace := by
  obtain ⟨later, visit, earlier, message, hsplit, hpresented, hcode, hid, hdevice⟩ := h
  refine ⟨later, visit, earlier, message, hsplit, hpresented, hcode, hid, fun hexpected => ?_⟩
  exact (hdevice hexpected).resolve_left (by simp [hsettled])

theorem Access.cons (h : Access platform trace host) (visit : LanPeer × Step) :
    Access platform (visit :: trace) host :=
  ⟨fun socket session hsession hid => (h.introduced socket session hsession hid).cons visit,
    h.paired, h.awaiting⟩

/-- Sessions that were there before, or that have no name and nothing set yet. -/
theorem Access.frame (h : Access platform trace host)
    (hclients : ∀ socket session, after.clients.lookup socket = some session →
      (session.id = "" ∧ session.paired = false ∧ session.awaitingApproval = false) ∨
        ∃ old, host.clients.lookup socket = some old ∧ session.id = old.id ∧
          session.paired = old.paired ∧ session.awaitingApproval = old.awaitingApproval) :
    Access platform trace after := by
  constructor
  · intro socket session hsession hid
    rcases hclients socket session hsession with ⟨hnone, -⟩ | ⟨old, hold, hname, -, hawaiting⟩
    · exact absurd hnone hid
    · exact (h.introduced socket old hold (hname ▸ hid)).congr hname fun hold => hawaiting ▸ hold
  · intro socket session hsession hpaired
    rcases hclients socket session hsession with ⟨-, hnone, -⟩ |
      ⟨old, hold, hname, hsame, hawaiting⟩
    · simp [hnone] at hpaired
    · rw [hname, hawaiting]
      exact h.paired socket old hold (hsame ▸ hpaired)
  · intro socket session hsession hwaits
    rcases hclients socket session hsession with ⟨-, -, hnone⟩ | ⟨old, hold, hname, -, hawaiting⟩
    · simp [hnone] at hwaits
    · rw [hname]
      exact h.awaiting socket old hold (hawaiting ▸ hwaits)

theorem Access.still (h : Access platform trace host) (hclients : after.clients = host.clients) :
    Access platform trace after :=
  h.frame fun _ session hsession => .inr ⟨session, hclients ▸ hsession, rfl, rfl, rfl⟩

theorem Access.note (h : Access platform trace host) (socket : Socket) (authentication : String) :
    Access platform trace (host.note socket authentication) := by
  refine h.frame fun other session hsession => .inr ?_
  rcases Table.lookup_modify_eq_some.1 hsession with ⟨rfl, old, hold, rfl⟩ | ⟨-, hold⟩
  · exact ⟨old, hold, rfl, rfl, rfl⟩
  · exact ⟨session, hold, rfl, rfl, rfl⟩

/-- The session that accepts the offer is introduced by this very step. -/
theorem Access.accepts (h : Access platform ((pre, step) :: trace) pre)
    (hoffers : Offers platform pre) {socket : Socket} {message : JsonObject}
    (haccepts : Accepts platform pre step socket message) (authentication : String) :
    Access platform ((pre, step) :: trace)
      ((pre.note socket authentication).accept platform socket message) ∧
      (pre.expectedPeer = "" → Authorised platform socket (message.value "peerId").toString
        ((pre, step) :: trace)) := by
  have hpresented := haccepts.presented
  -- The comparison in constant time accepts equal texts only.
  have hcode : (message.value "code").toString = pre.offer.code := by
    obtain ⟨-, -, -, number, htoken⟩ := hoffers.standing hpresented.shown
    have hsame := hpresented.code
    rw [htoken] at hsame ⊢
    exact eq_of_sameCode hsame
  have hnamed : (message.value "peerId").toString ≠ "" := identifier_ne_empty hpresented.named
  have hnoted := h.note socket authentication
  refine ⟨⟨?_, ?_, ?_⟩, fun hexpected => ?_⟩
  · intro other session hsession hid
    rw [accept_clients] at hsession
    rcases Table.lookup_modify_eq_some.1 hsession with ⟨rfl, old, -, rfl⟩ | ⟨-, hold⟩
    · exact ⟨[], (pre, step), trace, message, rfl, hpresented, hcode, rfl,
        fun hexpected => .inl (decide_eq_true hexpected)⟩
    · exact hnoted.introduced other session hold hid
  · intro other session hsession hpaired
    rw [accept_clients] at hsession
    rcases Table.lookup_modify_eq_some.1 hsession with ⟨rfl, old, hold, rfl⟩ | ⟨-, hold⟩
    · -- The session had no name, so it was not paired.
      obtain ⟨own, hown, hnameless⟩ := haccepts.nameless
      rcases Table.lookup_modify_eq_some.1 hold with ⟨-, own', hown', rfl⟩ | ⟨hne, -⟩
      · rw [hown] at hown'
        obtain rfl := Option.some.inj hown'
        exact absurd hnameless (h.paired other own hown hpaired).1
      · exact absurd rfl hne
    · exact hnoted.paired other session hold hpaired
  · intro other session hsession hwaits
    rw [accept_clients] at hsession
    rcases Table.lookup_modify_eq_some.1 hsession with ⟨rfl, old, -, rfl⟩ | ⟨-, hold⟩
    · exact hnamed
    · exact hnoted.awaiting other session hold hwaits
  · exact ⟨[], (pre, step), trace, message, rfl, hpresented, hcode, rfl,
      fun hdevice => absurd hexpected hdevice⟩

/-- The session that is approved is authorised from this step on. -/
theorem Access.approve (h : Access platform trace pre) {socket : Socket}
    (happroves : Approves pre step socket) :
    Access platform ((pre, step) :: trace) (pre.approve socket) ∧
      ∀ session, pre.clients.lookup socket = some session →
        Authorised platform socket session.id ((pre, step) :: trace) := by
  -- A session that waits was introduced when it was accepted; the approval is this turn.
  have hintroduced : ∀ session, pre.clients.lookup socket = some session →
      ∀ other : Session, other.id = session.id →
        Introduced platform socket other ((pre, step) :: trace) := by
    intro session hsession other hname
    obtain ⟨own, hown, hawaiting, -⟩ := happroves.waiting
    have hsame : own = session := Option.some.inj (hown.symm.trans hsession)
    subst hsame
    obtain ⟨later, visit, earlier, message, hsplit, hpresented, hcode, hid, -⟩ :=
      h.introduced socket own hown (h.awaiting socket own hown hawaiting)
    exact ⟨(pre, step) :: later, visit, earlier, message, by rw [hsplit, List.cons_append],
      hpresented, hcode, hid.trans hname.symm,
      fun _ => .inr ⟨(pre, step), List.mem_cons_self, happroves⟩⟩
  refine ⟨⟨?_, ?_, ?_⟩, fun session hsession => ?_⟩
  · intro other session hsession hid
    rcases Table.lookup_modify_eq_some.1 hsession with ⟨rfl, old, hold, rfl⟩ | ⟨-, hold⟩
    · exact hintroduced old hold _ rfl
    · exact (h.introduced other session hold hid).cons _
  · intro other session hsession hpaired
    rcases Table.lookup_modify_eq_some.1 hsession with ⟨rfl, old, hold, rfl⟩ | ⟨-, hold⟩
    · exact ⟨(h.paired other old hold hpaired).1, rfl⟩
    · exact h.paired other session hold hpaired
  · intro other session hsession hwaits
    rcases Table.lookup_modify_eq_some.1 hsession with ⟨rfl, old, -, rfl⟩ | ⟨-, hold⟩
    · simp at hwaits
    · exact h.awaiting other session hold hwaits
  · exact (hintroduced session hsession { session with awaitingApproval := false } rfl).authorised
      rfl

/-! ## The run -/

theorem guarded_of_not_handled {entry : Entry}
    (h : ∀ socket peer payload, entry.event ≠ .handled socket peer payload) :
    Guarded platform trace entry :=
  fun socket peer payload heq => absurd heq (h socket peer payload)

theorem guarded_emit {event : Event}
    (h : ∀ socket peer payload, event ≠ .handled socket peer payload) :
    Grows (Guarded platform trace) host.log (host.emit event).log :=
  .cons (guarded_of_not_handled h)

theorem guarded_handled {socket : Socket} {peer : String} {payload : JsonObject}
    (h : Authorised platform socket peer trace) :
    Grows (Guarded platform trace) host.log (host.emit (.handled socket peer payload)).log := by
  refine .cons ?_
  rintro _ _ _ ⟨⟩
  exact h

theorem guarded_outcome {socket : Socket} (h : Outcome socket host after) :
    Grows (Guarded platform trace) host.log after.log := by
  rcases h with rfl | rfl <;> exact guarded_emit (by simp)

theorem guarded_quiet (h : Quiet host after) :
    Grows (Guarded platform trace) host.log after.log := by
  obtain ⟨new, hlog, hall⟩ := h.log
  refine ⟨new, hlog, fun entry hentry => guarded_of_not_handled ?_⟩
  rcases hall entry hentry with ⟨socket, hevent⟩ | ⟨socket, message, hevent⟩ <;> simp [hevent]

theorem Access.change (hpre : Access platform trace pre) (hoffers : Offers platform pre)
    (h : Access platform ((pre, step) :: trace) host)
    (change : Change platform pre step host after) :
    Access platform ((pre, step) :: trace) after ∧
      Grows (Guarded platform ((pre, step) :: trace)) host.log after.log := by
  cases change with
  | clock | expect | configure => exact ⟨h.still rfl, .of_eq rfl⟩
  | begin => exact ⟨h.still rfl, .of_eq rfl⟩
  | quiet hquiet => exact ⟨h.still hquiet.clients, guarded_quiet hquiet⟩
  -- Nothing a handler is called for.
  | welcome =>
      refine ⟨h.frame fun socket session hsession => ?_, .of_eq rfl⟩
      rcases Table.lookup_insert_eq_some.1 hsession with ⟨-, rfl⟩ | ⟨-, hold⟩
      · exact .inl ⟨rfl, rfl, rfl⟩
      · exact .inr ⟨session, hold, rfl, rfl, rfl⟩
  | note socket authentication => exact ⟨h.note socket authentication, .of_eq rfl⟩
  | @acceptDevice socket message authentication haccepts hdevice =>
      exact ⟨(h.accepts hoffers haccepts authentication).1, .cons (by simp [Guarded])⟩
  | @acceptOpen socket message authentication after haccepts hopen houtcome =>
      -- For an open offer the Files are asked for at once, after the proof was checked.
      obtain ⟨haccess, hauthorised⟩ := h.accepts hoffers haccepts authentication
      have haccepted : Grows (Guarded platform ((pre, step) :: trace)) pre.log
          ((pre.note socket authentication).accept platform socket message).log :=
        .cons (by simp [Guarded])
      refine ⟨?_, haccepted.trans ((guarded_handled (hauthorised hopen)).trans
        (guarded_outcome houtcome))⟩
      rcases houtcome with rfl | rfl <;> exact haccess.still rfl
  | @approveUnproved socket happroves =>
      have happroved : Grows (Guarded platform ((pre, step) :: trace)) pre.log
          (pre.approve socket).log := .of_eq rfl
      exact ⟨(hpre.approve happroves).1.still rfl, happroved.trans (guarded_emit (by simp))⟩
  | @approveUnlisted socket session happroves hsession =>
      -- For a device the handler waits for `confirmDevice`.
      obtain ⟨haccess, hauthorised⟩ := hpre.approve happroves
      have happroved : Grows (Guarded platform ((pre, step) :: trace)) pre.log
          (pre.approve socket).log := .of_eq rfl
      refine ⟨haccess.still rfl, happroved.trans ((guarded_handled
        (hauthorised session hsession)).trans (guarded_emit ?_))⟩
      simp
  | @approve socket session happroves hsession =>
      obtain ⟨haccess, hauthorised⟩ := hpre.approve happroves
      have happroved : Grows (Guarded platform ((pre, step) :: trace)) pre.log
          (pre.approve socket).log := .of_eq rfl
      refine ⟨haccess.still rfl, happroved.trans ((guarded_handled
        (hauthorised session hsession)).trans ((guarded_emit ?_).trans (guarded_emit ?_)))⟩
      · simp
      · simp
  | @confirm socket session mid hconfirms hquiet =>
      -- `confirm` calls no handler.  What it marks as paired was named and settled before.
      have hpaired : Access platform ((pre, step) :: trace)
          (pre.update socket fun session => { session with paired := true }) := by
        constructor
        · exact h.introduced.modify fun own hown hid =>
            (h.introduced socket own hown hid).congr rfl id
        · refine h.paired.modify fun own hown _ => ?_
          have hsame : session = own := Option.some.inj (hconfirms.stored.symm.trans hown)
          exact hsame ▸ ⟨hconfirms.named, hconfirms.settled⟩
        · exact h.awaiting.modify fun own hown => h.awaiting socket own hown
      have hupdated : Grows (Guarded platform ((pre, step) :: trace)) pre.log
          (pre.update socket fun session => { session with paired := true }).log := .of_eq rfl
      refine ⟨(hpaired.still hquiet.clients).still rfl, hupdated.trans
        ((guarded_quiet hquiet).trans (guarded_emit ?_))⟩
      simp
  | @serve socket session payload hsession hpaired =>
      -- A paired session was introduced, and is settled, so it may ask.
      obtain ⟨hid, hsettled⟩ := h.paired socket session hsession hpaired
      exact ⟨h.still rfl,
        guarded_handled ((h.introduced socket session hsession hid).authorised hsettled)⟩
  | forget socket =>
      -- Fewer sessions promise less.
      exact ⟨h.frame fun other session hsession =>
        .inr ⟨session, (Table.lookup_erase_eq_some.1 hsession).2, rfl, rfl, rfl⟩, .of_eq rfl⟩
  | expire => exact ⟨h.still rfl, .cons (by simp [Guarded])⟩
  | withdraw =>
      obtain ⟨hlog, -⟩ := cancelPairing_rest (host.emit .withdrawn)
      exact ⟨h.frame fun socket session hsession =>
        .inr ⟨session, (cancelPairing_clients.1 hsession).1, rfl, rfl, rfl⟩,
        hlog ▸ .cons (by simp [Guarded])⟩
  | generate => exact ⟨h.still rfl, .cons (by simp [Guarded])⟩
  | stop =>
      exact ⟨⟨.empty _, .empty _, .empty _⟩, .cons (by simp [Guarded])⟩
  | rehash hclients =>
      exact ⟨h.frame fun socket session hsession =>
        .inr ⟨session, (hclients.lookup socket).trans hsession, rfl, rfl, rfl⟩, .of_eq rfl⟩

theorem access_next (hpre : Access platform trace pre) (hoffers : Offers platform pre)
    (hfeasible : pre.Feasible step) :
    Access platform ((pre, step) :: trace) (next platform pre step) ∧
      Grows (Guarded platform ((pre, step) :: trace)) pre.log (next platform pre step).log := by
  refine (next_changes platform hfeasible).invariant
    (I := fun state => Access platform ((pre, step) :: trace) state ∧
      Grows (Guarded platform ((pre, step) :: trace)) pre.log state.log) ?_
    ⟨hpre.cons _, .of_eq rfl⟩
  intro state after change hstate
  obtain ⟨haccess, hgrows⟩ := hpre.change hoffers hstate.1 change
  exact ⟨haccess, hstate.2.trans hgrows⟩

theorem run_access {trace : List (LanPeer × Step)}
    (run : (machine platform).Run Feasible trace host) : Access platform trace host := by
  induction run with
  | start h =>
      obtain ⟨time, rfl⟩ := h
      exact ⟨.empty _, .empty _, .empty _⟩
  | step run hfeasible ih => exact (access_next ih (run_offersInvariant run) hfeasible).1

/-- **The handler is called for authorised sessions only**: in every step of
every run. -/
theorem run_guarded {trace : List (LanPeer × Step)}
    (run : (machine platform).Run Feasible trace host) :
    Always (fun visit earlier => Grows (Guarded platform (visit :: earlier)) visit.1.log
      (next platform visit.1 visit.2).log) trace := by
  intro later visit earlier hsplit
  obtain ⟨hrun, hfeasible⟩ := run.visited hsplit
  exact (access_next (run_access hrun) (run_offersInvariant hrun) hfeasible).2

theorem run_guarded_household : ∃ host trace, (machine .sample).Run Feasible trace host ∧
    (host.log.countP fun entry => match entry.event with
      | .handled 0 peer _ => peer = "p"
      | .handled 1 peer _ => peer = "q"
      | _ => false) = 3 ∧
    Always (fun visit earlier => Grows (Guarded .sample (visit :: earlier)) visit.1.log
      (next .sample visit.1 visit.2).log) trace := by
  have hstart : (machine .sample).Run Feasible [] { now := 0 } := .start ⟨0, rfl⟩
  obtain ⟨trace, run⟩ := hstart.extend household household_admissible
  exact ⟨_, trace, run, by decide +kernel, run_guarded run⟩

end LanPeer

end ServerHost
