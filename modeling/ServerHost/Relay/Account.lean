import ServerHost.Relay.Ledger

/-!
# One account for each session

A session is pinned to the account it was first verified for, as long as its
principal is kept.  A failed authentication clears the principal and with it the
pin, and only asks the socket to close: a message that was already received may
still authenticate the session, for any account.
-/

namespace ServerHost

namespace RelayServer

/-- Each session was only ever verified for one account. -/
def OneAccount (relay : RelayServer) : Prop :=
  ∀ socket first second, .verified socket first ∈ book relay.log →
    .verified socket second ∈ book relay.log → first = second

/-- The authenticator accepts another account for a session whose principal a
failed authentication has cleared. -/
def Rebinds (relay : RelayServer) (step : Step) : Prop :=
  ∃ socket principal accountId, step.input = .completion socket principal ∧
    socket ∈ relay.sessions ∧ live relay.now principal = true ∧
    (relay.session socket).principal.accountId = "" ∧
    .rejected socket ∈ book relay.log ∧ .verified socket accountId ∈ book relay.log ∧
    accountId ≠ principal.accountId

variable {platform : Platform} {pre : RelayServer} {step : Step} {relay after : RelayServer}

/-! ## What a step writes to the book -/

theorem book_subset_of_change (change : Change platform pre step relay after) :
    book relay.log ⊆ book after.log := by
  intro record hrecord
  cases change with
  | _ => simp [stop, hrecord]

theorem verified_of_change {socket : Socket} {accountId : String}
    (change : Change platform pre step relay after)
    (hmem : .verified socket accountId ∈ book after.log) :
    .verified socket accountId ∈ book relay.log ∨
      ∃ principal, step.input = .completion socket principal := by
  cases change with
  | @verify own principal state hinput =>
      simp only [emit_log, update_log, book_cons, Event.record, Option.toList_some,
        List.mem_append, List.mem_singleton, Record.verified.injEq] at hmem
      rcases hmem with ⟨rfl, -⟩ | hold
      · exact .inr ⟨principal, hinput⟩
      · exact .inl hold
  | _ => exact .inl (by simpa [Event.record, stop] using hmem)

theorem book_authCompleted (full : Socket → Outgoing → Bool) {socket : Socket}
    {principal : Principal} {state : Session} (hstate : relay.sessions.lookup socket = some state) :
    book (relay.authCompleted (transmit full) socket principal).log =
      (if ¬ live relay.now principal ∨ (state.principal.accountId ≠ "" ∧
          principal.accountId ≠ state.principal.accountId) then .rejected socket
        else .verified socket principal.accountId) :: book relay.log := by
  unfold authCompleted
  rw [hstate]
  dsimp only
  rw [update_now]
  split <;> simp [Event.record]

theorem book_subset_next (hfeasible : relay.Feasible step) :
    book relay.log ⊆ book (next platform relay step).log :=
  (next_changes platform hfeasible).invariant
    (I := fun state => book relay.log ⊆ book state.log)
    (fun _ _ change h => List.Subset.trans h (book_subset_of_change change)) (List.Subset.refl _)

/-- The completion that step `step` delivers passes the checks of the callback. -/
def Accepts (relay : RelayServer) (step : Step) (socket : Socket) (principal : Principal) : Prop :=
  step.input = .completion socket principal ∧ live relay.now principal = true ∧
    ∃ state, relay.sessions.lookup socket = some state ∧
      (state.principal.accountId = "" ∨ principal.accountId = state.principal.accountId)

theorem book_of_accepts {socket : Socket} {principal : Principal}
    (h : relay.Accepts step socket principal) :
    book (next platform relay step).log =
      .verified socket principal.accountId :: book relay.log := by
  obtain ⟨hinput, hlive, state, hstate, hpin⟩ := h
  simp only [next, turn, hinput, book_authCompleted _ hstate]
  rw [if_neg]
  rintro (hdead | ⟨hstored, hother⟩)
  · exact hdead hlive
  · exact hpin.elim hstored hother

/-- An account is stored only by a completion that is accepted. -/
theorem verified_of_next (hfeasible : relay.Feasible step) {socket : Socket} {accountId : String}
    (hmem : .verified socket accountId ∈ book (next platform relay step).log) :
    .verified socket accountId ∈ book relay.log ∨
      ∃ principal, relay.Accepts step socket principal ∧ principal.accountId = accountId := by
  have hinput : .verified socket accountId ∈ book relay.log ∨
      ∃ principal, step.input = .completion socket principal := by
    refine (next_changes platform hfeasible).invariant
      (I := fun state => .verified socket accountId ∈ book state.log →
        .verified socket accountId ∈ book relay.log ∨
          ∃ principal, step.input = .completion socket principal) ?_ .inl hmem
    intro state after change h hafter
    exact (verified_of_change change hafter).elim h .inr
  rcases hinput with hold | ⟨principal, hinput⟩
  · exact .inl hold
  cases hstate : relay.sessions.lookup socket with
  | none => exact .inl (by simpa [next, turn, hinput, authCompleted, hstate] using hmem)
  | some state =>
      simp only [next, turn, hinput, book_authCompleted _ hstate] at hmem
      split at hmem
      · exact .inl (by simpa using hmem)
      · next hpassed =>
          push Not at hpassed
          simp only [List.mem_cons, Record.verified.injEq, true_and] at hmem
          rcases hmem with rfl | hold
          · exact .inr ⟨principal, ⟨hinput, hpassed.1, state, hstate,
              or_iff_not_imp_left.2 hpassed.2⟩, rfl⟩
          · exact .inl hold

/-! ## When the pin holds -/

/-- One step keeps every session to its account unless it rebinds one. -/
theorem oneAccount_next (hledger : Ledger relay) (hfeasible : relay.Feasible step) :
    OneAccount (next platform relay step) ↔ OneAccount relay ∧ ¬ Rebinds relay step := by
  have hgrows : book relay.log ⊆ book (next platform relay step).log :=
    book_subset_next hfeasible
  constructor
  · intro h
    refine ⟨fun socket first second hfirst hsecond =>
      h socket first second (hgrows hfirst) (hgrows hsecond), ?_⟩
    rintro ⟨socket, principal, accountId, hinput, hmem, hlive, hblank, -, hold, hne⟩
    obtain ⟨state, hstate⟩ := Table.mem_iff_lookup.1 hmem
    rw [session_of_lookup hstate] at hblank
    have hbook : book (next platform relay step).log =
        .verified socket principal.accountId :: book relay.log :=
      book_of_accepts ⟨hinput, hlive, state, hstate, .inl hblank⟩
    exact hne (h socket _ _ (hgrows hold) (by rw [hbook]; exact List.mem_cons_self))
  · rintro ⟨hone, hkept⟩ socket first second hfirst hsecond
    -- A completion that is accepted agrees with everything recorded before.
    have hagrees : ∀ principal accountId, relay.Accepts step socket principal →
        .verified socket accountId ∈ book relay.log → accountId = principal.accountId := by
      rintro principal accountId ⟨hinput, hlive, state, hstate, hpin⟩ hold
      by_cases hblank : state.principal.accountId = ""
      · rcases hledger.account_blank socket state hstate hblank with hnone | hrejected
        · exact absurd hold (hnone accountId)
        · by_contra hne
          exact hkept ⟨socket, principal, accountId, hinput, Table.mem_of_lookup hstate, hlive,
            (session_of_lookup hstate).symm ▸ hblank, hrejected, hold, hne⟩
      · rw [hpin.resolve_left hblank]
        exact hone socket _ _ hold
          (lastAccount_mem (hledger.account_stored socket state hstate hblank))
    rcases verified_of_next hfeasible hfirst with hfirst | ⟨principal, haccepts, rfl⟩
    · rcases verified_of_next hfeasible hsecond with hsecond | ⟨principal, haccepts, rfl⟩
      · exact hone socket first second hfirst hsecond
      · exact hagrees principal first haccepts hfirst
    · rcases verified_of_next hfeasible hsecond with hsecond | ⟨other, haccepts', rfl⟩
      · exact (hagrees principal second haccepts hsecond).symm
      · have hsame := haccepts.1.symm.trans haccepts'.1
        cases hsame
        rfl

/-- **A session stays with one account exactly as long as nobody authenticates
it for another one after a failed authentication.** -/
theorem run_oneAccount_iff {trace : List (RelayServer × Step)}
    (run : (machine platform).Run Feasible trace relay) :
    OneAccount relay ↔ ∀ visit ∈ trace, ¬ Rebinds visit.1 visit.2 := by
  induction run with
  | start h =>
      obtain ⟨time, rfl⟩ := h
      simp [OneAccount, book]
  | step run hfeasible ih =>
      rw [List.forall_mem_cons, ← ih, and_comm]
      exact oneAccount_next (run_ledger run) hfeasible

/-- A session is verified for `a`, fails to authenticate again, and is verified
for `b` by a message that was already on its way. -/
def rebinding : List Step :=
  [.newConnection, .text 0 (.ofList [("type", .string "auth"), ("credential", .string "x")]),
    .completion 0 ⟨"a", (90000 : ℤ)⟩,
    .text 0 (.ofList [("type", .string "auth"), ("credential", .string "y")]), .completion 0 {},
    .text 0 (.ofList [("type", .string "auth"), ("credential", .string "z")]),
    .completion 0 ⟨"b", (90000 : ℤ)⟩].map fun input => ⟨input, fun _ _ => false⟩

theorem rebinding_admissible : (machine .sample).Admissible Feasible { now := 0 } rebinding :=
  ⟨trivial, trivial, trivial, trivial, trivial, trivial, trivial, trivial⟩

theorem not_oneAccount_rebinding : ∃ trace,
    (machine .sample).Run Feasible trace (rebinding.foldl (next .sample) { now := 0 }) ∧
      ¬ OneAccount (rebinding.foldl (next .sample) { now := 0 }) := by
  have hstart : (machine .sample).Run Feasible [] { now := 0 } := .start ⟨0, rfl⟩
  obtain ⟨trace, run⟩ := hstart.extend rebinding rebinding_admissible
  refine ⟨trace, run, fun h => ?_⟩
  have hsame := h 0 "a" "b" (by decide) (by decide)
  exact absurd hsame (by decide)

/-- A session renews its authentication, fails one, and is verified for its own account by
the message that was on its way. -/
def renewing : List Step :=
  [.newConnection, .text 0 (.ofList [("type", .string "auth"), ("credential", .string "x")]),
    .completion 0 ⟨"a", (90000 : ℤ)⟩,
    .text 0 (.ofList [("type", .string "auth"), ("credential", .string "x")]),
    .completion 0 ⟨"a", (95000 : ℤ)⟩,
    .text 0 (.ofList [("type", .string "auth"), ("credential", .string "y")]), .completion 0 {},
    .text 0 (.ofList [("type", .string "auth"), ("credential", .string "z")]),
    .completion 0 ⟨"a", (99000 : ℤ)⟩].map fun input => ⟨input, fun _ _ => false⟩

/-- Three accounts are recorded for the session, all the same. -/
theorem run_oneAccount_iff_renewing : ∃ relay trace,
    (machine .sample).Run Feasible trace relay ∧
      book relay.log = [.verified 0 "a", .rejected 0, .verified 0 "a", .verified 0 "a"] ∧
      OneAccount relay ∧ (OneAccount relay ↔ ∀ visit ∈ trace, ¬ Rebinds visit.1 visit.2) := by
  have hstart : (machine .sample).Run Feasible [] { now := 0 } := .start ⟨0, rfl⟩
  obtain ⟨trace, run⟩ := hstart.extend renewing
    ⟨trivial, trivial, trivial, trivial, trivial, trivial, trivial, trivial, trivial, trivial⟩
  have hbook : book (renewing.foldl (next .sample) { now := 0 }).log =
      [.verified 0 "a", .rejected 0, .verified 0 "a", .verified 0 "a"] := by decide +kernel
  refine ⟨_, trace, run, hbook, fun socket first second hfirst hsecond => ?_,
    run_oneAccount_iff run⟩
  have hown : ∀ accountId, .verified socket accountId ∈
      book (renewing.foldl (next .sample) { now := 0 }).log → accountId = "a" := by
    intro accountId hmem
    rw [hbook] at hmem
    simp only [List.mem_cons, Record.verified.injEq, reduceCtorEq, List.not_mem_nil, false_or,
      or_false, or_self] at hmem
    exact hmem.2
  rw [hown first hfirst, hown second hsecond]

end RelayServer

end ServerHost
