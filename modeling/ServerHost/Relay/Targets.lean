import ServerHost.Relay.Attempts

/-!
# A name leads to one session

`target` looks for a session by account, service and name.  A session gets its name with
`register`, which looks for a duplicate, and its account with an answer of the
authenticator, which does not.  So the name of a session must never come before the
account: a session that has a name and no account failed an authentication, was closed
for it, and waits for no further answer.
-/

namespace ServerHost

namespace RelayServer

/-- Two sessions with one account, one service and one name are the same. -/
def Distinct (relay : RelayServer) : Prop :=
  ∀ first second one two, relay.sessions.lookup first = some one →
    relay.sessions.lookup second = some two → one.principal.accountId ≠ "" → one.id ≠ "" →
    two.principal.accountId = one.principal.accountId → two.service = one.service →
    two.id = one.id → first = second

/-- No message is processed from a socket after `close`, and the authenticator answers a
question once: the session waits for the answer that comes.  An authenticator that says no and
then yes would give its account back to a session that was closed and kept its name. -/
def Answered (relay : RelayServer) (step : Step) : Prop :=
  relay.Orderly step ∧ ∀ socket principal, step.input = .completion socket principal →
    socket ∈ relay.sessions → (relay.session socket).authenticating = true

/-- Names are unique, and a session that lost its account is closed for good. -/
structure Targets (relay : RelayServer) : Prop where
  distinct : relay.Distinct
  stripped : ∀ socket session, relay.sessions.lookup socket = some session → session.id ≠ "" →
    session.principal.accountId = "" → session.authenticating = false ∧ socket ∈ relay.closing
  named : ∀ socket session, relay.sessions.lookup socket = some session → session.id = "" →
    session.descriptor.isEmpty = true

variable {platform : Platform} {relay first after : RelayServer} {step : Step}

/-! ## Closed sockets stay closed -/

theorem change_closing {pre : RelayServer} (change : Change platform pre step relay after) :
    relay.closing ⊆ after.closing := by
  have htransmit : ∀ {mid : RelayServer} {full : Socket → Outgoing → Bool} {socket : Socket}
      {message : Outgoing}, mid.closing = relay.closing →
      relay.closing ⊆ (transmit full socket message mid).closing := by
    intro mid full socket message hmid
    exact hmid ▸ closing_transmit ..
  cases change with
  | close => exact List.subset_cons_self ..
  | refuse => exact List.subset_cons_self ..
  | @reject socket =>
      intro other hother
      refine List.mem_cons_of_mem _ (closing_transmit step.full socket _ _ ?_)
      exact hother
  | send => exact htransmit rfl
  | withdraw => exact htransmit rfl
  | finish => exact closing_finishPair ..
  | route => exact htransmit rfl
  | answer => exact htransmit rfl
  | _ => exact List.Subset.refl _

theorem next_closing (hfeasible : relay.Feasible step) :
    relay.closing ⊆ (next platform relay step).closing :=
  (next_changes platform hfeasible).invariant (I := fun state => relay.closing ⊆ state.closing)
    (fun _ _ change h => List.Subset.trans h (change_closing change)) (List.Subset.refl _)

/-! ## What sessions are known by -/

/-- The sessions that are left have the account, the name, the descriptor and the open question
they had. -/
def SameNames (relay after : RelayServer) : Prop :=
  ∀ socket session, after.sessions.lookup socket = some session →
    ∃ old, relay.sessions.lookup socket = some old ∧
      session.principal.accountId = old.principal.accountId ∧ session.id = old.id ∧
      session.service = old.service ∧ session.authenticating = old.authenticating ∧
      session.descriptor = old.descriptor

theorem SameNames.of_sessions (h : after.sessions = relay.sessions) : SameNames relay after := by
  intro socket session hsession
  rw [h] at hsession
  exact ⟨session, hsession, rfl, rfl, rfl, rfl, rfl⟩

theorem Targets.keep (h : Targets relay) (hsame : SameNames relay after)
    (hclosing : relay.closing ⊆ after.closing) : Targets after := by
  refine ⟨fun first second one two hone htwo haccount hid haccounts hservices hids => ?_,
    fun socket session hsession hid haccount => ?_, fun socket session hsession hid => ?_⟩
  · obtain ⟨one', hone', ha, hi, hs, -⟩ := hsame first one hone
    obtain ⟨two', htwo', ha', hi', hs', -⟩ := hsame second two htwo
    exact h.distinct first second one' two' hone' htwo' (ha ▸ haccount) (hi ▸ hid)
      (by rw [← ha, ← ha', haccounts]) (by rw [← hs, ← hs', hservices])
      (by rw [← hi, ← hi', hids])
  · obtain ⟨old, hold, ha, hi, -, hasked, -⟩ := hsame socket session hsession
    obtain ⟨hidle, hclosed⟩ := h.stripped socket old hold (hi ▸ hid) (ha ▸ haccount)
    exact ⟨hasked.trans hidle, hclosing hclosed⟩
  · obtain ⟨old, hold, -, hi, -, -, hd⟩ := hsame socket session hsession
    rw [hd]
    exact h.named socket old hold (hi ▸ hid)

/-- A write to one session. -/
theorem Targets.write {f : Session → Session} {socket : Socket} (h : Targets relay)
    (hsessions : after.sessions = (relay.update socket f).sessions)
    (hclosing : relay.closing ⊆ after.closing)
    (hunique : ∀ old, relay.sessions.lookup socket = some old →
      (f old).principal.accountId ≠ "" → (f old).id ≠ "" → ∀ other session, other ≠ socket →
      relay.sessions.lookup other = some session →
      session.principal.accountId = (f old).principal.accountId →
      session.service = (f old).service → session.id ≠ (f old).id)
    (hstripped : ∀ old, relay.sessions.lookup socket = some old → (f old).id ≠ "" →
      (f old).principal.accountId = "" → (f old).authenticating = false ∧ socket ∈ after.closing)
    (hnamed : ∀ old, relay.sessions.lookup socket = some old → (f old).id = "" →
      (f old).descriptor.isEmpty = true) : Targets after := by
  have hcases : ∀ other session, after.sessions.lookup other = some session →
      (other = socket ∧ ∃ old, relay.sessions.lookup socket = some old ∧ session = f old) ∨
        (other ≠ socket ∧ relay.sessions.lookup other = some session) := by
    intro other session hsession
    rw [hsessions] at hsession
    rcases Table.lookup_modify_eq_some.1 hsession with ⟨rfl, old, hold, rfl⟩ | hold
    · exact .inl ⟨rfl, old, hold, rfl⟩
    · exact .inr hold
  refine ⟨fun first second one two hone htwo haccount hid haccounts hservices hids => ?_,
    fun other session hsession hid haccount => ?_, fun other session hsession hid => ?_⟩
  · rcases hcases first one hone with ⟨rfl, old, hold, rfl⟩ | ⟨hne, hold⟩ <;>
      rcases hcases second two htwo with ⟨rfl, old', hold', rfl⟩ | ⟨hne', hold'⟩
    · rfl
    · exact absurd hids (hunique old hold haccount hid second two hne' hold' haccounts hservices)
    · refine absurd hids.symm (hunique old' hold' (haccounts ▸ haccount) (hids ▸ hid) first one hne
        hold haccounts.symm hservices.symm)
    · exact h.distinct first second one two hold hold' haccount hid haccounts hservices hids
  · rcases hcases other session hsession with ⟨rfl, old, hold, rfl⟩ | ⟨-, hold⟩
    · exact hstripped old hold hid haccount
    · obtain ⟨hidle, hclosed⟩ := h.stripped other session hold hid haccount
      exact ⟨hidle, hclosing hclosed⟩
  · rcases hcases other session hsession with ⟨rfl, old, hold, rfl⟩ | ⟨-, hold⟩
    · exact hnamed old hold hid
    · exact h.named other session hold hid

/-- A write that leaves account and name alone, of a session that is not closed. -/
theorem Targets.touch {f : Session → Session} {socket : Socket} (h : Targets relay)
    (hsessions : after.sessions = (relay.update socket f).sessions)
    (hclosing : relay.closing ⊆ after.closing) (hopen : socket ∉ relay.closing)
    (hkept : ∀ old, (f old).principal = old.principal ∧ (f old).id = old.id ∧
      (f old).service = old.service ∧ (f old).descriptor = old.descriptor) : Targets after := by
  refine h.write hsessions hclosing
    (fun old hold haccount hid other session hne hsession haccounts hservices hids => hne ?_)
    (fun old hold hid haccount => ?_) fun old hold hid => ?_
  · obtain ⟨hprincipal, hname, hservice, -⟩ := hkept old
    rw [hprincipal] at haccount haccounts
    rw [hname] at hid hids
    rw [hservice] at hservices
    exact (h.distinct socket other old session hold hsession haccount hid haccounts hservices
      hids).symm
  · rw [(hkept old).2.1] at hid
    rw [(hkept old).1] at haccount
    exact absurd (h.stripped socket old hold hid haccount).2 hopen
  · rw [(hkept old).2.1] at hid
    rw [(hkept old).2.2.2]
    exact h.named socket old hold hid

/-! ## One turn -/

/-- What a message writes to the sessions. -/
inductive Writes (platform : Platform) (relay : RelayServer) (socket : Socket)
    (after : RelayServer) :
    Prop
  | same : after.sessions = relay.sessions → Writes platform relay socket after
  | count : after.sessions = (relay.update socket (countAttempt relay.now)).sessions →
      Writes platform relay socket after
  | ask : after.sessions =
        (relay.update socket fun session => { session with authenticating := true }).sessions →
      Writes platform relay socket after
  | register {id service name : String} {descriptor : JsonObject} :
      relay.active socket = true → id ≠ "" → relay.duplicate socket id service = false →
      after.sessions = (relay.update socket fun session => { session with
        id := id, service := service, name := name, descriptor := descriptor }).sessions →
      Writes platform relay socket after

theorem message_writes (full : Socket → Outgoing → Bool) (socket : Socket) (message : JsonObject)
    (relay : RelayServer) :
    Writes platform relay socket (relay.message platform (transmit full) socket message) := by
  unfold RelayServer.message
  dsimp only
  by_cases hknown : socket ∉ relay.sessions
  · rw [if_pos hknown]
    exact .same rfl
  rw [if_neg hknown]
  by_cases hauth : messageType message = "auth"
  · rw [if_pos hauth]
    unfold authMessage
    dsimp only
    split
    · exact .same rfl
    · exact .ask rfl
  rw [if_neg hauth]
  by_cases hactive : ¬ relay.active socket
  · rw [if_pos hactive]
    exact .same rfl
  rw [if_neg hactive]
  by_cases hregister : messageType message = "register"
  · rw [if_pos hregister]
    unfold registerMessage
    dsimp only
    split
    · exact .same rfl
    next hvalid =>
    by_cases hduplicate : relay.duplicate socket (message.value "peerId").toString
        (message.value "service").toString
    · rw [if_pos hduplicate]
      exact .same (transmit_sessions ..)
    rw [if_neg hduplicate]
    split
    · exact .same rfl
    -- The duplicate check was passed before anything is written.
    · refine @Writes.register _ _ _ _ _ _ (message.value "name").toString (descriptorOf platform
        (message.value "peerId").toString (message.value "service").toString message)
        (not_not.1 hactive) ?_ (by simpa using hduplicate) ?_
      · simp only [not_or, not_not] at hvalid
        exact identifier_ne_empty hvalid.1
      rw [changed_sessions, transmit_sessions]
      split
      · exact cancelPairing_sessions ..
      · rfl
  rw [if_neg hregister]
  split
  · exact .same rfl
  split
  · have hsessions := pairMessage_sessions platform full socket message relay
    split at hsessions
    · exact .count hsessions
    · exact .same hsessions
  refine .same ?_
  split
  · exact directory_sessions ..
  split
  · exact connectMessage_sessions ..
  split
  · exact requestMessage_sessions ..
  split
  · exact responseMessage_sessions ..
  · rfl

theorem Targets.message (h : Targets relay) {socket : Socket} {message : JsonObject}
    (hinput : step.input = .text socket message) (hfeasible : relay.Feasible step)
    (hopen : socket ∉ relay.closing) : Targets (next platform relay step) := by
  have hclosing := @next_closing platform relay step hfeasible
  have hwrites : Writes platform relay socket (next platform relay step) := by
    simp only [next, turn, hinput]
    exact message_writes step.full socket message relay
  cases hwrites with
  | same hsessions => exact h.keep (.of_sessions hsessions) hclosing
  | count hsessions =>
      exact h.touch hsessions hclosing hopen fun old => by
        unfold countAttempt
        split <;> exact ⟨rfl, rfl, rfl, rfl⟩
  | ask hsessions => exact h.touch hsessions hclosing hopen fun _ => ⟨rfl, rfl, rfl, rfl⟩
  | register hactive hnonempty hduplicate hsessions =>
      refine h.write hsessions hclosing
        (fun old hold haccount hid other session hne hsession haccounts hservices hids => ?_)
        (fun old hold hid haccount => ?_) fun old hold hid => absurd hid hnonempty
      · -- The registration looked for a session with this name.
        refine Bool.false_ne_true (hduplicate.symm.trans (List.any_eq_true.2
          ⟨⟨other, session⟩, AList.mem_lookup_iff.1 hsession, ?_⟩))
        rw [session_of_lookup hold]
        simp [hne, haccounts, hservices, hids]
      · obtain ⟨own, hown, hlive⟩ := active_iff.1 hactive
        obtain rfl := Option.some.inj (hown.symm.trans hold)
        exact absurd haccount (live_accountId hlive)

/-- An answer of the authenticator finds a session that waits for it. -/
theorem Targets.completion (h : Targets relay) {socket : Socket} {principal : Principal}
    (hinput : step.input = .completion socket principal) (hanswered : relay.Answered step) :
    Targets (next platform relay step) := by
  have hclosing := @next_closing platform relay step hanswered.1.1
  cases hstate : relay.sessions.lookup socket with
  | none =>
      refine h.keep (.of_sessions ?_) hclosing
      simp [next, turn, hinput, authCompleted, hstate]
  | some state =>
      -- An answer is to a question, so the session waits for it.
      have hasking := hanswered.2 socket principal hinput (Table.mem_of_lookup hstate)
      rw [session_of_lookup hstate] at hasking
      have hnext : next platform relay step =
          relay.authCompleted (transmit step.full) socket principal := by simp [next, turn, hinput]
      -- The condition of `authCompleted`, on the session as it is stored.
      by_cases hrefused : ¬ live relay.now principal ∨ (state.principal.accountId ≠ "" ∧
          principal.accountId ≠ state.principal.accountId)
      -- Refused: the principal is cleared and the socket closes.
      · have hsessions : (next platform relay step).sessions = (relay.update socket fun session =>
            { session with authenticating := false, principal := {} }).sessions := by
          rw [hnext, authCompleted, hstate]
          dsimp only
          rw [update_now]
          split
          · simp only [close_sessions, transmit_sessions, emit_sessions, update,
              cancelPairing_sessions, Table.modify_modify]
          · next haccepted => exact absurd hrefused haccepted
        have hclosed : socket ∈ (next platform relay step).closing := by
          rw [hnext, authCompleted, hstate]
          dsimp only
          rw [update_now]
          split
          · exact List.mem_cons_self
          · next haccepted => exact absurd hrefused haccepted
        exact h.write hsessions hclosing (fun old hold haccount => absurd rfl haccount)
          (fun old hold hid haccount => ⟨rfl, hclosed⟩)
          fun old hold hid => h.named socket old hold hid
      -- Accepted: the principal is stored, bounded by a minute.
      · have hsessions : (next platform relay step).sessions = (relay.update socket fun session =>
            { session with
              authenticating := false
              principal := { principal with
                expiresAt := min principal.expiresAt (DateTime.addSecs relay.now 60) }
                  }).sessions := by
          rw [hnext, authCompleted, hstate]
          dsimp only
          rw [update_now]
          split
          · next hagain => exact absurd hagain hrefused
          · simp only [transmit_sessions, emit_sessions, update, Table.modify_modify]
        push Not at hrefused
        obtain ⟨hlive, hpinned⟩ := hrefused
        refine h.write hsessions hclosing
          (fun old hold haccount hid other session hne hsession haccounts hservices hids => ?_)
          (fun old hold hid haccount => ?_) fun old hold hid => h.named socket old hold hid
        swap
        · have hnamed : principal.accountId ≠ "" := live_accountId hlive
          exact absurd haccount hnamed
        obtain rfl := Option.some.inj (hstate.symm.trans hold)
        by_cases hblank : state.principal.accountId = ""
        · -- A session with a name and no account waits for nothing.
          have hidle := (h.stripped socket state hstate hid hblank).1
          rw [hasking] at hidle
          cases hidle
        · exact hne (h.distinct socket other state session hstate hsession hblank hid
            (haccounts.trans (hpinned hblank)) hservices hids).symm

theorem Targets.next (h : Targets relay) (hanswered : relay.Answered step) :
    Targets (RelayServer.next platform relay step) := by
  have hclosing := @next_closing platform relay step hanswered.1.1
  have hsame : (RelayServer.next platform relay step).sessions = relay.sessions →
      Targets (RelayServer.next platform relay step) :=
    fun hsessions => h.keep (.of_sessions hsessions) hclosing
  cases hinput : step.input with
  | clock time => exact hsame (by simp [RelayServer.next, turn, hinput])
  | newConnection =>
      by_cases hfull : relay.sessions.keys.length ≥ 128
      · exact hsame (by simp [RelayServer.next, turn, hinput, newConnection, hfull])
      have hsessions : (RelayServer.next platform relay step).sessions =
          relay.sessions.insert relay.sockets { connected := relay.now } := by
        simp [RelayServer.next, turn, hinput, newConnection, hfull]
      -- The new session has no name.
      have hnamed : ∀ socket session,
          (RelayServer.next platform relay step).sessions.lookup socket = some session →
          session.id ≠ "" → relay.sessions.lookup socket = some session := by
        intro socket session hsession hid
        rw [hsessions] at hsession
        rcases Table.lookup_insert_eq_some.1 hsession with ⟨rfl, rfl⟩ | ⟨-, hold⟩
        · exact absurd rfl hid
        · exact hold
      exact ⟨fun first second one two hone htwo haccount hid haccounts hservices hids =>
        h.distinct first second one two (hnamed first one hone hid)
          (hnamed second two htwo (hids ▸ hid)) haccount hid haccounts hservices hids,
        fun socket session hsession hid haccount =>
          (h.stripped socket session (hnamed socket session hsession hid) hid haccount).imp_right
            fun hclosed => hclosing hclosed,
        fun socket session hsession hid => by
          rw [hsessions] at hsession
          rcases Table.lookup_insert_eq_some.1 hsession with ⟨-, rfl⟩ | ⟨-, hold⟩
          · rfl
          · exact h.named socket session hold hid⟩
  | text socket message =>
      exact h.message hinput hanswered.1.1 (hanswered.1.2 socket message hinput)
  | binary socket =>
      refine hsame ?_
      simp only [RelayServer.next, turn, hinput]
      split <;> rfl
  | completion socket principal => exact h.completion hinput hanswered
  | disconnected socket =>
      refine h.keep (fun other session hsession => ?_) hclosing
      simp only [RelayServer.next, turn, hinput, disconnected] at hsession
      split at hsession
      · simp only [remove] at hsession
        rw [changed_sessions, foldl_sessions (dropRoute_sessions step.full socket),
          cancelPairing_sessions] at hsession
        exact ⟨session, (Table.lookup_erase_eq_some.1 hsession).2, rfl, rfl, rfl, rfl, rfl⟩
      · exact ⟨session, hsession, rfl, rfl, rfl, rfl, rfl⟩
  | sweep => exact hsame (by simp only [RelayServer.next, turn, hinput]; exact sweep_sessions ..)
  | stop =>
      refine h.keep (fun socket session hsession => ?_) hclosing
      simp [RelayServer.next, turn, hinput, stop] at hsession
  | rehash sessions routes offers pairs =>
      have hrehash := hanswered.1.1
      simp only [Feasible, hinput] at hrehash
      refine h.keep (fun socket session hsession => ?_) hclosing
      simp only [RelayServer.next, turn, hinput] at hsession
      exact ⟨session, (hrehash.1.lookup socket).trans hsession, rfl, rfl, rfl, rfl, rfl⟩

/-! ## `target` -/

/-- The sessions `target` may return. -/
def candidates (relay : RelayServer) (source : Socket) (id : String) : List Socket :=
  (relay.sessions.entries.filter fun entry =>
    entry.1 ≠ source && reaches relay.now (relay.session source) id entry.2).map Sigma.fst

theorem target_eq_head (relay : RelayServer) (source : Socket) (id : String) :
    relay.target source id = (relay.candidates source id).head? := by
  rw [candidates, List.head?_map, List.head?_filter]
  rfl

theorem mem_candidates {source other : Socket} {id : String} :
    other ∈ relay.candidates source id ↔ other ≠ source ∧ ∃ session,
      relay.sessions.lookup other = some session ∧
        reaches relay.now (relay.session source) id session = true := by
  simp only [candidates, List.mem_map, List.mem_filter, Bool.and_eq_true, decide_eq_true_eq]
  constructor
  · rintro ⟨entry, ⟨hmem, hne, hreaches⟩, rfl⟩
    exact ⟨hne, entry.2, Table.lookup_of_mem_entries hmem, hreaches⟩
  · rintro ⟨hne, session, hsession, hreaches⟩
    exact ⟨⟨other, session⟩, ⟨AList.mem_lookup_iff.1 hsession, hne, hreaches⟩, rfl⟩

theorem Targets.candidates (h : Targets relay) (source : Socket) (id : String) :
    (relay.candidates source id).length ≤ 1 := by
  have hsame : ∀ first ∈ relay.candidates source id, ∀ second ∈ relay.candidates source id,
      first = second := by
    intro first hfirst second hsecond
    obtain ⟨-, one, hone, hreaches⟩ := mem_candidates.1 hfirst
    obtain ⟨-, two, htwo, hreaches'⟩ := mem_candidates.1 hsecond
    obtain ⟨hid, hlive, hdescriptor, haccount, hservice⟩ := reaches_iff.1 hreaches
    obtain ⟨hid', -, -, haccount', hservice'⟩ := reaches_iff.1 hreaches'
    have hnamed : one.id ≠ "" := fun hempty => by
      rw [h.named first one hone hempty] at hdescriptor
      cases hdescriptor
    exact h.distinct first second one two hone htwo (live_accountId hlive) hnamed
      (haccount'.trans haccount.symm) (hservice'.trans hservice.symm) (hid'.trans hid.symm)
  have hnodup : (relay.candidates source id).Nodup :=
    List.Nodup.sublist (List.filter_sublist.map _) relay.sessions.nodupKeys
  match hlist : relay.candidates source id with
  | [] => simp
  | [socket] => simp
  | first :: second :: rest =>
      rw [hlist] at hsame hnodup
      have heq := hsame first (by simp) second (by simp)
      simp [heq] at hnodup

/-- Another order of the table finds the same session. -/
theorem Targets.target_same (h : Targets relay) {sessions : Table Socket Session}
    (hsame : Table.Same relay.sessions sessions) (source : Socket) (id : String) :
    ({ relay with sessions := sessions } : RelayServer).target source id =
      relay.target source id := by
  have hsession : ({ relay with sessions := sessions } : RelayServer).session source =
      relay.session source := by
    rw [session, session, Table.value, Table.value, ← hsame.lookup]
  have hperm : (relay.candidates source id).Perm
      (({ relay with sessions := sessions } : RelayServer).candidates source id) := by
    rw [RelayServer.candidates, RelayServer.candidates, hsession]
    exact (hsame.filter _).map _
  have hlength := h.candidates source id
  rw [target_eq_head, target_eq_head]
  cases hlist : relay.candidates source id with
  | nil =>
      rw [hlist] at hperm
      rw [List.nil_perm.1 hperm]
  | cons first rest =>
      cases rest with
      | nil =>
          rw [hlist] at hperm
          rw [List.singleton_perm.1 hperm]
      | cons second rest => simp [hlist] at hlength

/-- **In every run no two sessions share account, service and name, and `target` has at most
one session to return.** -/
theorem run_targets {trace : List (RelayServer × Step)}
    (run : (machine platform).Run Answered trace relay) : relay.Distinct ∧ ∀ source id,
      (relay.candidates source id).length ≤ 1 ∧
        ∀ sessions, Table.Same relay.sessions sessions →
          ({ relay with sessions := sessions } : RelayServer).target source id =
            relay.target source id := by
  have htargets : Targets relay := by
    refine run.invariant_state ?_ fun state step h hanswered => h.next hanswered
    rintro _ ⟨time, rfl⟩
    exact ⟨fun first second one two hone => by simp at hone, fun socket session hsession => by
      simp at hsession, fun socket session hsession => by simp at hsession⟩
  exact ⟨htargets.distinct, fun source id =>
    ⟨htargets.candidates source id, fun sessions hsame => htargets.target_same hsame source id⟩⟩

/-- A device asks to be verified, is verified, and registers. -/
def arriving (socket : Socket) (register : List (String × Json)) : List Step :=
  [.newConnection, .text socket (.ofList [("type", .string "auth"), ("credential", .string "x")]),
    .completion socket ⟨"a", (90000 : ℤ)⟩, .text socket (.ofList (("type", .string "register") ::
      ("service", .string "s") :: register))].map fun input => ⟨input, fun _ _ => false⟩

theorem arriving_admissible {socket : Socket} {register : List (String × Json)}
    (hopen : socket ∉ (((arriving socket register).take 1).foldl
      (machine .sample).next relay).closing)
    (hasking : ((((arriving socket register).take 2).foldl
      (machine .sample).next relay).session socket).authenticating = true)
    (hopen' : socket ∉ (((arriving socket register).take 3).foldl
      (machine .sample).next relay).closing) :
    (machine .sample).Admissible Answered relay (arriving socket register) := by
  refine ⟨⟨⟨trivial, nofun⟩, nofun⟩, ⟨⟨trivial, ?_⟩, nofun⟩, ⟨⟨trivial, nofun⟩, ?_⟩,
    ⟨⟨trivial, ?_⟩, nofun⟩, trivial⟩
  · rintro own message hinput
    cases hinput
    exact hopen
  · rintro own principal hinput -
    cases hinput
    exact hasking
  · rintro own message hinput
    cases hinput
    exact hopen'

/-- A host, a client, and a second device under the name of the host. -/
theorem run_targets_duplicate : ∃ relay trace, (machine .sample).Run Answered trace relay ∧
    relay.candidates 1 "h" = [0] ∧ 2 ∈ relay.closing ∧ relay.Distinct ∧ ∀ source id,
      (relay.candidates source id).length ≤ 1 ∧
        ∀ sessions, Table.Same relay.sessions sessions →
          ({ relay with sessions := sessions } : RelayServer).target source id =
            relay.target source id := by
  have hstart : (machine .sample).Run Answered [] { now := 0 } := .start ⟨0, rfl⟩
  obtain ⟨trace, run⟩ := hstart.extend
    (arriving 0 [("peerId", .string "h"), ("host", .bool true)])
    (arriving_admissible (by decide) (by decide) (by decide))
  obtain ⟨trace, run⟩ := run.extend (arriving 1 [("peerId", .string "c")])
    (arriving_admissible (by decide) (by decide) (by decide))
  obtain ⟨trace, run⟩ := run.extend (arriving 2 [("peerId", .string "h"), ("host", .bool true)])
    (arriving_admissible (by decide) (by decide) (by decide))
  exact ⟨_, trace, run, by decide, by decide, run_targets run⟩

end RelayServer

end ServerHost
