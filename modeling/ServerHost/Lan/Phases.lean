import ServerHost.Lan.Approval

/-!
# The phase a host shows and the sessions it has

The phase is one word for everything a host does at the moment.  `Faithful` says
what three of its values promise.  Three kinds of steps break a promise, and
`run_faithful_iff` shows that no other does:

* the device disconnects while its approval is pending: the handler of
  `disconnected` looks for an interrupted pairing in the phase `verifying` only;
* `confirmDevice` finds no account proof: the session stops to wait, and the
  phase stays `confirming`;
* an offer is made for a link that cannot be shown, such as one with more than
  eight addresses: the phase becomes `showing` without a text.
-/

namespace ServerHost

namespace LanPeer

/-- What the phases promise. -/
structure Faithful (host : LanPeer) : Prop where
  showing : host.phase = .showing → host.qr ≠ ""
  confirming : host.phase = .confirming → ∃ socket session,
    host.clients.lookup socket = some session ∧ session.awaitingApproval = true
  verifying : host.phase = .verifying → ∃ socket session,
    host.clients.lookup socket = some session ∧ session.id ≠ "" ∧ session.paired = false

/-- The steps after which the phase says something that is not so. -/
inductive Strands (host : LanPeer) (step : Step) : Prop
  | interrupted {socket : Socket} {session : Session} : step.input = .disconnected socket →
      host.phase = .confirming → host.clients.lookup socket = some session →
      session.awaitingApproval = true → Strands host step
  | unproved {socket : Socket} {session : Session} : Approves host step socket →
      host.clients.lookup socket = some session → host.signer = true →
      (step.world.sign ("host\n" ++ session.authentication)).isEmpty = true → Strands host step
  | unshowable {lifetimeSeconds : ℤ} : Offering host step lifetimeSeconds →
      8 < host.offer.addresses.length ∨ host.offer.port = 0 ∨
        hexToken host.offer.fingerprint = false → Strands host step

variable {platform : Platform} {host after : LanPeer} {step : Step}

@[simp] theorem update_signer (socket : Socket) (f : Session → Session) (host : LanPeer) :
    (host.update socket f).signer = host.signer := rfl

/-! ## The link of a host -/

/-- A host that listens has a link that passed the checks of `startHost`. -/
def Hosted (platform : Platform) (host : LanPeer) : Prop :=
  host.server = true → Served platform host.offer

theorem Hosted.turn (h : Hosted platform host) (hmoves : Moves platform host step after) :
    Hosted platform after := by
  have hsame : ∀ {code : String} {expiresAt : DateTime}, after.server = host.server →
      after.offer = { host.offer with code := code, expiresAt := expiresAt } →
        Hosted platform after := by
    intro code expiresAt hserver hoffer hserving
    obtain ⟨haddresses, hprivate, hhost, hnamed⟩ := h (hserver.symm.trans hserving)
    rw [hoffer]
    exact ⟨haddresses, hprivate, hhost, hnamed⟩
  cases hmoves with
  | unmoved hunmoved => exact hsame hunmoved.server hunmoved.offer
  | accepted _ htakes => exact hsame htakes.server htakes.offer
  | answered _ _ hserver hoffer => exact hsame hserver hoffer
  | paired _ hserver hoffer => exact hsame hserver hoffer
  | left _ _ hserver hoffer => exact hsame hserver hoffer
  | expired hserver hoffer => exact hsame hserver hoffer
  | withdrawn hserver hoffer => exact hsame hserver hoffer
  | offered hoffering hserving hoffer =>
      exact hsame (hserving.trans hoffering.server.symm) hoffer
  | restarted hserved => exact hserved

theorem run_hosted {trace : List (LanPeer × Step)}
    (run : (machine platform).Run Feasible trace host) : Hosted platform host := by
  induction run with
  | start h =>
      obtain ⟨time, rfl⟩ := h
      exact fun hserving => absurd hserving Bool.false_ne_true
  | step run hfeasible ih => exact ih.turn (next_moves platform hfeasible (run_staged run).known)

/-- A link that passed the checks of `startHost` is shown unless it has too many
addresses, no port or no fingerprint. -/
theorem encode_ne_empty (hqueryUrl : ∀ items, platform.queryUrl "society://pair" items ≠ "")
    {link : LanLink} (hserved : Served platform link) (token : Token) (now seconds : ℤ)
    (hfew : link.addresses.length ≤ 8) (hport : link.port ≠ 0)
    (hfingerprint : hexToken link.fingerprint = true) :
    ({ link with code := token.text, expiresAt := DateTime.addSecs now seconds } : LanLink).encode
      platform ≠ "" := by
  obtain ⟨haddresses, hprivate, hhost, hname, hsize⟩ := hserved
  have hexpires : DateTime.addSecs now seconds ≠ ⊥ := by
    exact WithBot.coe_ne_bot
  have hvalid : ({ link with
      code := token.text, expiresAt := DateTime.addSecs now seconds } : LanLink).valid platform
        = true := by
    simp only [LanLink.valid, Bool.and_eq_true, decide_eq_true_eq, Bool.not_eq_eq_eq_not,
      Bool.not_true, List.isEmpty_eq_false_iff, ne_eq]
    exact ⟨⟨⟨⟨⟨⟨⟨⟨⟨haddresses, hfew⟩, hport⟩, hhost⟩, hname⟩, hsize⟩, hfingerprint⟩, token.hex⟩,
      hexpires⟩, hprivate⟩
  rw [LanLink.encode, if_pos hvalid]
  exact hqueryUrl _

/-- A link with too many addresses, no port or no fingerprint is not shown. -/
theorem encode_eq_empty {link : LanLink} (h : 8 < link.addresses.length ∨ link.port = 0 ∨
    hexToken link.fingerprint = false) : link.encode platform = "" := by
  rw [LanLink.encode, if_neg]
  intro hvalid
  simp only [LanLink.valid, Bool.and_eq_true, decide_eq_true_eq, ne_eq] at hvalid
  obtain ⟨⟨⟨⟨⟨⟨⟨⟨⟨-, hfew⟩, hport⟩, -⟩, -⟩, -⟩, hfingerprint⟩, -⟩, -⟩, -⟩ := hvalid
  rcases h with hmany | hnone | hother
  · omega
  · simp [hnone] at hport
  · rw [hother] at hfingerprint
    exact absurd hfingerprint Bool.false_ne_true

/-! ## One step -/

theorem Stage.unpaired_of_nameless {socket : Socket} {session : Session} {course : List Event}
    (h : Stage socket session course) (hnameless : session.id = "") : session.paired = false := by
  cases h with
  | blank _ hunpaired => exact hunpaired
  | waits _ _ _ hid => exact absurd hnameless hid
  | settled hid => exact absurd hnameless hid
  | paired _ hid => exact absurd hnameless hid

/-- A session that waits is the only one in the middle of a pairing. -/
theorem eq_of_waiting (hstaged : Staged host) (hoffers : Offers platform host)
    {socket other : Socket} {session own : Session}
    (hsession : host.clients.lookup socket = some session)
    (hwaiting : session.awaitingApproval = true) (hown : host.clients.lookup other = some own)
    (hwaits : own.awaitingApproval = true) : other = socket :=
  hoffers.names.single socket session hsession
    ((hstaged.stage socket session hsession).pending_of_waiting hwaiting).1 other own hown
    ((hstaged.stage other own hown).pending_of_waiting hwaits).1

theorem id_of_waiting (hstaged : Staged host) {socket : Socket} {session : Session}
    (hsession : host.clients.lookup socket = some session)
    (hwaiting : session.awaitingApproval = true) : session.id ≠ "" := by
  have hpending := ((hstaged.stage socket session hsession).pending_of_waiting hwaiting).1
  simp only [Session.pending, Bool.and_eq_true, decide_eq_true_eq] at hpending
  simpa using hpending.1

/-- **One step**: a step that does not strand the phase keeps its promises. -/
theorem Faithful.turn (hqueryUrl : ∀ items, platform.queryUrl "society://pair" items ≠ "")
    (h : Faithful host) (hstaged : Staged host) (hhosted : Hosted platform host)
    (hmoves : Moves platform host step after) (hkept : ¬ Strands host step) :
    Faithful after := by
  cases hmoves with
  | unmoved hunmoved =>
      obtain ⟨-, hphase, -, hqr, -, hnamed⟩ := hunmoved
      constructor
      · rw [hphase, hqr]
        exact h.showing
      · intro hconfirming
        obtain ⟨socket, session, hsession, hwaiting⟩ := h.confirming (hphase.symm.trans hconfirming)
        exact ⟨socket, session,
          (hnamed socket session (id_of_waiting hstaged hsession hwaiting)).2 hsession, hwaiting⟩
      · intro hverifying
        obtain ⟨socket, session, hsession, hid, hunpaired⟩ :=
          h.verifying (hphase.symm.trans hverifying)
        exact ⟨socket, session, (hnamed socket session hid).2 hsession, hid, hunpaired⟩
  | @accepted socket message haccepts htakes hphase =>
      -- Who presented the code has a name now, and waits for the one or the other confirmation.
      obtain ⟨old, hold, hnameless⟩ := haccepts.nameless
      have hsession : after.clients.lookup socket =
          some (Session.named platform host message old) := by
        rw [htakes.clients, Table.lookup_modify, if_pos rfl, hold]
        rfl
      by_cases hdevice : host.expectedPeer = ""
      · rw [if_neg (not_not.2 hdevice)] at hphase
        refine ⟨fun hshowing => ?_, fun hconfirming => ?_, fun _ => ⟨socket, _, hsession, ?_, ?_⟩⟩
        · rcases hphase with hphase | hphase <;> rw [hphase] at hshowing <;> cases hshowing
        · rcases hphase with hphase | hphase <;> rw [hphase] at hconfirming <;> cases hconfirming
        · exact identifier_ne_empty haccepts.presented.named
        · exact (hstaged.stage socket old hold).unpaired_of_nameless hnameless
      · rw [if_pos hdevice] at hphase
        refine ⟨fun hshowing => ?_, fun _ => ⟨socket, _, hsession, decide_eq_true hdevice⟩,
          fun hverifying => ?_⟩
        · rcases hphase with hphase | hphase <;> rw [hphase] at hshowing <;> cases hshowing
        · rcases hphase with hphase | hphase <;> rw [hphase] at hverifying <;> cases hverifying
  | @answered socket session happroves hsession hserver hoffer hqr hcode hclients hphase =>
      obtain ⟨own, hown, hwaiting, -⟩ := happroves.waiting
      rw [hsession] at hown
      cases hown
      rcases hphase with hphase | hphase | ⟨-, hsigner, hunproved⟩
      · refine ⟨fun hshowing => ?_, fun hconfirming => ?_, fun _ => ⟨socket,
          { session with
            awaitingApproval := false
            deadline := DateTime.addSecs host.now 15 }, ?_, ?_, ?_⟩⟩
        · rw [hphase] at hshowing
          cases hshowing
        · rw [hphase] at hconfirming
          cases hconfirming
        · rw [hclients, approve_clients, Table.lookup_modify, if_pos rfl, hsession]
          rfl
        · show session.id ≠ ""
          exact id_of_waiting hstaged hsession hwaiting
        · exact ((hstaged.stage socket session hsession).pending_of_waiting hwaiting).2
      · constructor <;> intro hother <;> rw [hphase] at hother <;> cases hother
      -- The signer failed: that step strands the phase.
      · exact absurd (.unproved happroves hsession hsigner hunproved) hkept
  | paired hconfirms hserver hoffer hqr hcode hclients hphase =>
      constructor <;> intro hother <;> rw [hphase] at hother <;> cases hother
  | @left socket previous hinput hprevious hserver hoffer hqr hcode hclients hphase =>
      -- The one who left is not the one the phase speaks of.
      split at hphase
      · constructor <;> intro hother <;> rw [hphase] at hother <;> cases hother
      next hquiet =>
      constructor
      · rw [hphase, hqr]
        exact h.showing
      · intro hconfirming
        rw [hphase] at hconfirming
        obtain ⟨other, session, hsession, hwaiting⟩ := h.confirming hconfirming
        refine ⟨other, session, ?_, hwaiting⟩
        rw [hclients, Table.lookup_erase_eq_some]
        refine ⟨?_, hsession⟩
        rintro rfl
        -- unless it is, which strands the phase.
        exact hkept (.interrupted hinput hconfirming hsession hwaiting)
      · intro hverifying
        rw [hphase] at hverifying
        obtain ⟨other, session, hsession, hid, hunpaired⟩ := h.verifying hverifying
        refine ⟨other, session, ?_, hid, hunpaired⟩
        rw [hclients, Table.lookup_erase_eq_some]
        refine ⟨?_, hsession⟩
        rintro rfl
        rw [hprevious] at hsession
        cases hsession
        exact hquiet ⟨hid, by simp [hunpaired], hverifying⟩
  | expired hserver hoffer hqr hcode hclients hphase =>
      constructor <;> intro hother <;> rw [hphase] at hother <;> cases hother
  | withdrawn hserver hoffer hqr hcode hclients hphase =>
      rcases hphase with hphase | hphase <;> constructor <;> intro hother <;>
        rw [hphase] at hother <;> cases hother
  | offered hoffering hserving hoffer hqr hcode hclients hphase =>
      -- A code is shown unless the link cannot be encoded.
      refine ⟨fun _ => ?_, fun hconfirming => ?_, fun hverifying => ?_⟩
      · rw [hqr, hoffer]
        refine encode_ne_empty hqueryUrl (hhosted hoffering.server) _ _ _ ?_ ?_ ?_
        · by_contra hmany
          exact hkept (.unshowable hoffering (.inl (not_le.1 hmany)))
        · exact fun hnone => hkept (.unshowable hoffering (.inr (.inl hnone)))
        · by_contra hother
          exact hkept (.unshowable hoffering (.inr (.inr (by simpa using hother))))
      · rw [hphase] at hconfirming
        cases hconfirming
      · rw [hphase] at hverifying
        cases hverifying
  | restarted hserved hqr hcode hclients hphase =>
      rcases hphase with hphase | hphase | hphase <;> constructor <;> intro hother <;>
        rw [hphase] at hother <;> cases hother

theorem awaiting_eq (hstaged : Staged host) (hoffers : Offers platform host) {socket : Socket}
    {session : Session} (hsession : host.clients.lookup socket = some session)
    (hwaiting : session.awaitingApproval = true)
    (htime : (host.now : DateTime) < session.deadline) :
    host.awaiting = some ⟨socket, session⟩ := by
  cases hfound : host.awaiting with
  | none =>
      have hnone := List.find?_eq_none.1 hfound ⟨socket, session⟩ (AList.mem_lookup_iff.1 hsession)
      simp [hwaiting, htime] at hnone
  | some entry =>
      obtain ⟨other, own⟩ := entry
      have hown : host.clients.lookup other = some own :=
        Table.lookup_of_mem_entries (List.mem_of_find?_eq_some hfound)
      have hpred := List.find?_some hfound
      simp only [Bool.and_eq_true] at hpred
      obtain rfl := eq_of_waiting hstaged hoffers hsession hwaiting hown hpred.1
      rw [hsession] at hown
      cases hown
      rfl

/-- An offer whose link cannot be shown. -/
theorem createOffer_unshown (platform : Platform) {lifetimeSeconds : ℤ}
    (hoffering : Offering host step lifetimeSeconds)
    (h : 8 < host.offer.addresses.length ∨ host.offer.port = 0 ∨
      hexToken host.offer.fingerprint = false) :
    ((host.hearOffer lifetimeSeconds).createOffer platform lifetimeSeconds).1.phase = .showing ∧
      ((host.hearOffer lifetimeSeconds).createOffer platform lifetimeSeconds).1.qr = "" ∧
      ((host.hearOffer lifetimeSeconds).createOffer platform lifetimeSeconds).2 = "" := by
  have hallowed : ¬ (¬ host.server ∨ lifetimeSeconds < 1 ∨ lifetimeSeconds > 60) := by
    obtain ⟨hone, hsixty⟩ := hoffering.lifetime
    simp [hoffering.server, hone, hsixty]
  obtain ⟨-, hoffer, -⟩ := cancelPairing_alike (host.emit .withdrawn)
  generalize hafter : (host.emit .withdrawn).cancelPairing = after at hoffer
  have hempty : ({ after.offer with
      code := (platform.random after.serial).text
      expiresAt := DateTime.addSecs after.now lifetimeSeconds } : LanLink).encode
        platform = "" := by
    apply encode_eq_empty
    rw [hoffer]
    exact h
  rw [createOffer_hearOffer, if_neg hallowed, hafter]
  exact ⟨rfl, hempty, hempty⟩

/-- **The other direction**: a step that strands the phase breaks a promise. -/
theorem Strands.not_faithful (hstrands : Strands host step) (hstaged : Staged host)
    (hoffers : Offers platform host) : ¬ Faithful (next platform host step) := by
  cases hstrands with
  | @interrupted socket session hinput hphase hsession hwaiting =>
      -- Only one session waits, and it is the one that left.
      intro h
      have hnext : next platform host step =
          { host with clients := host.clients.erase socket } := by
        have hquiet : ¬ (session.id ≠ "" ∧ ¬ session.paired ∧ host.phase = .verifying) := by
          rintro ⟨-, -, hverifying⟩
          rw [hphase] at hverifying
          cases hverifying
        simp only [next, hinput, disconnected, hsession, if_neg hquiet]
      rw [hnext] at h
      obtain ⟨other, own, hown, hwaits⟩ := h.confirming hphase
      obtain ⟨hother, hold⟩ := Table.lookup_erase_eq_some.1 hown
      exact hother (eq_of_waiting hstaged hoffers hsession hwaiting hold hwaits)
  | @unproved socket session happroves hsession hsigner hproof =>
      intro h
      obtain ⟨own, hown, hwaiting, htime⟩ := happroves.waiting
      rw [hsession] at hown
      cases hown
      have hawaiting := awaiting_eq hstaged hoffers hsession hwaiting htime
      have hnext : (next platform host step).phase = .confirming ∧
          (next platform host step).clients = (host.approve socket).clients := by
        simp only [next, happroves.called, confirmDevice, happroves.phase, hawaiting, proofOf,
          update_signer, hsigner, if_true, hproof, ne_eq, not_true_eq_false, if_false, and_self]
        exact ⟨happroves.phase, rfl⟩
      obtain ⟨other, own, hown, hwaits⟩ := h.confirming hnext.1
      rw [hnext.2] at hown
      rcases Table.lookup_modify_eq_some.1 hown with ⟨-, old, -, rfl⟩ | ⟨hother, hold⟩
      · exact absurd hwaits Bool.false_ne_true
      · exact hother (eq_of_waiting hstaged hoffers hsession hwaiting hold hwaits)
  | @unshowable lifetimeSeconds hoffering hunshowable =>
      -- The phase says `showing`, and there is nothing to show.
      intro h
      obtain ⟨hphase, hqr, hlink⟩ := createOffer_unshown platform hoffering hunshowable
      have hnext : next platform host step =
          ((host.hearOffer lifetimeSeconds).createOffer platform lifetimeSeconds).1 := by
        rcases hoffering.called with hcalled | ⟨peerId, hcalled, hnamed, hother⟩
        · rw [next, hcalled]
        · have hallowed : ¬ (¬ identifier peerId ∨ peerId = host.offer.hostId) := by
            simp [hnamed, hother]
          simp only [next, hcalled, createDeviceOffer_hearDeviceOffer, if_neg hallowed, hlink,
            ne_eq, not_true_eq_false, if_false]
      rw [hnext] at h
      exact h.showing hphase hqr

/-! ## The run -/

/-- **The phase matches the sessions** in every state of a run exactly when no
step of the run strands it. -/
theorem run_faithful_iff (hqueryUrl : ∀ items, platform.queryUrl "society://pair" items ≠ "")
    {trace : List (LanPeer × Step)} (run : (machine platform).Run Feasible trace host) :
    ((∀ visit ∈ trace, Faithful visit.1) ∧ Faithful host) ↔
      ∀ visit ∈ trace, ¬ Strands visit.1 visit.2 := by
  induction run with
  | start h =>
      obtain ⟨time, rfl⟩ := h
      refine ⟨fun _ visit hvisit => absurd hvisit List.not_mem_nil, fun _ =>
        ⟨fun visit hvisit => absurd hvisit List.not_mem_nil, ?_⟩⟩
      constructor <;> intro hother <;> cases hother
  | @step trace state input run hfeasible ih =>
      have hstaged := run_staged run
      have hoffers := run_offersInvariant run
      simp only [List.forall_mem_cons]
      constructor
      · rintro ⟨⟨hstate, htrace⟩, hnext⟩
        exact ⟨fun hstrands => hstrands.not_faithful hstaged hoffers hnext,
          ih.1 ⟨htrace, hstate⟩⟩
      · rintro ⟨hkept, htrace⟩
        obtain ⟨hvisited, hstate⟩ := ih.2 htrace
        exact ⟨⟨hstate, hvisited⟩, hstate.turn hqueryUrl hstaged (run_hosted run)
          (next_moves platform hfeasible hstaged.known) hkept⟩

theorem run_faithful_iff_household : ∃ host trace, (machine .sample).Run Feasible trace host ∧
    host.pairedDeviceIds = ["q", "p"] ∧
    (((∀ visit ∈ trace, Faithful visit.1) ∧ Faithful host) ↔
      ∀ visit ∈ trace, ¬ Strands visit.1 visit.2) := by
  have hstart : (machine .sample).Run Feasible [] { now := 0 } := .start ⟨0, rfl⟩
  obtain ⟨trace, run⟩ := hstart.extend household household_admissible
  exact ⟨_, trace, run, by decide +kernel,
    run_faithful_iff (fun _ => show "society://pair" ≠ "" by decide) run⟩

/-- The device leaves while its code is shown. -/
def interruptedVisit : List Step := deviceVisit ++ [⟨.disconnected 0, World.account⟩]

/-- After that the host goes on asking for a confirmation, of a device that is gone. -/
theorem not_faithful_interrupted : ∃ host trace, (machine .sample).Run Feasible trace host ∧
    host.phase = .confirming ∧ host.clients.keys = [] ∧ ¬ Faithful host := by
  have hstart : (machine .sample).Run Feasible [] { now := 0 } := .start ⟨0, rfl⟩
  obtain ⟨trace, run⟩ := hstart.extend interruptedVisit
    ⟨trivial, trivial, trivial, trivial, trivial, trivial, trivial⟩
  have hreached : (interruptedVisit.foldl (machine .sample).next { now := 0 }).phase =
      .confirming ∧
      (interruptedVisit.foldl (machine .sample).next { now := 0 }).clients.keys = [] := by
    decide +kernel
  generalize interruptedVisit.foldl (machine .sample).next { now := 0 } = host at run hreached
  obtain ⟨hphase, hclients⟩ := hreached
  refine ⟨host, trace, run, hphase, hclients, fun h => ?_⟩
  obtain ⟨socket, session, hsession, -⟩ := h.confirming hphase
  have hmem := AList.mem_keys.1 (Table.mem_of_lookup hsession)
  rw [hclients] at hmem
  cases hmem

end LanPeer

end ServerHost
