import ServerHost.Lan.Checked

/-!
# Slots that call the client again

A slot connected to `completed` runs before `emit` returns, and may call `stop`,
`join` or `request`.  The handlers are those of `Lan/Client`, given a `report` that runs
such slots: `reportAt depth` is the one whose slots nest at most `depth` deep.  With slots
that do nothing it is `plain`, and the client that of `Lan/Client` (`next_plain`).

## Strategy

`fail` and `stop` take all ids out of the table before the first `completed`, so while
their slots run they owe the rest.  `Owes debts` is the invariant of such a moment: what
is owed, in the table or refused is not completed yet, and no id is there twice.  Every
function keeps it for every list of debts, because `report` pays exactly one.

`sweep` is the exception.  It owes nothing while a slot runs, and then reads the deadline
of the next id of its snapshot; that of an id that is gone is an invalid date, earlier than
every other.  So a slot that resets the table is harmless in the last round only.
-/

namespace ServerHost

namespace LanClient

namespace Reentrant

/-- What a slot connected to `completed` calls. -/
inductive Action where
  | stop
  | join (qr peerId name : String)
  | request (host : String) (payload : JsonObject)

/-- What the socket, the callbacks and the slots do while an input is handled.  The
length of the history tells the calls of the slot apart. -/
structure World extends LanClient.World where
  slot : ℕ → List Action
  /-- How deep the slots call each other. -/
  depth : ℕ

variable (platform : Platform) (read : String → LanLink.Query) (world : World) (report : Report)

/-! ## The machine -/

/-- One call of a slot. -/
def act (client : LanClient) : Action → LanClient
  | .stop => client.stop report
  | .join qr peerId name => client.join platform read qr peerId name report
  | .request host payload => client.request platform host payload

/-- `emit completed`, with the slot. -/
def reportAt : ℕ → Report
  | 0 => plain
  | depth + 1 => fun id result client => (world.slot client.log.length).foldl
      (act platform read (reportAt depth)) (plain id result client)

/-- An input, with what happens inside the calls that handle it. -/
structure Step where
  input : Input
  world : World

/-- One turn of the event loop. -/
def next (client : LanClient) (step : Step) : LanClient :=
  LanClient.next platform read client ⟨step.input, step.world.toWorld⟩
    (reportAt platform read step.world step.world.depth)

/-- The client as a machine whose slots call it again. -/
def machine : Machine LanClient Step where
  init client := ∃ time, client = { now := time }
  next := next platform read

/-- The call gives up every request. -/
def Action.resets : Action → Bool
  | .stop | .join .. => true
  | .request .. => false

/-- One of the slots that are called for the ids that are due, from the `n`-th call on,
gives up every request before the last id is looked at. -/
def cutsShort (slot : ℕ → List Action) (due : String → Bool) : ℕ → List String → Bool
  | _, [] => false
  | _, [_] => false
  | n, id :: other :: rest =>
      if due id then (slot n).any Action.resets || cutsShort slot due (n + 1) (other :: rest)
      else cutsShort slot due n (other :: rest)

/-- In this sweep a slot gives up requests that the loop has yet to look at. -/
def interrupted (client : LanClient) (step : Step) : Bool :=
  match step.input with
  | .sweep => step.world.depth ≠ 0 && cutsShort step.world.slot
      (fun id => (client.requests.lookup id).getD ⊥ ≤ (client.now : DateTime)) client.log.length
      client.requests.keys
  | _ => false

/-- A socket connects once.  Rehashing keeps the entries. -/
def Feasible (client : LanClient) (step : Step) : Prop :=
  client.Feasible ⟨step.input, step.world.toWorld⟩

/-! ## Without slots -/

variable {platform : Platform} {read : String → LanLink.Query} {world : LanClient.World}
  {report : Report}

/-- **Slots that do nothing** leave the client of `Lan/Client`. -/
theorem next_plain (client : LanClient) (input : Input) (base : LanClient.World) (depth : ℕ) :
    next platform read client ⟨input, { base with slot := fun _ => [], depth := depth }⟩ =
      LanClient.next platform read client ⟨input, base⟩ := by
  have hreport : reportAt platform read { base with slot := fun _ => [], depth := depth } depth =
      plain := by
    cases depth with
    | zero => rfl
    | succ depth => rfl
  rw [next, hreport]

/-! ## Debts -/

/-- How often the id was completed. -/
def completions (id : String) (log : List Entry) : ℕ :=
  log.countP fun entry => match entry.event with
    | .completed other _ => other = id
    | _ => false

/-- The ids that wait for their refusal. -/
def refusals (tasks : List Task) : List String :=
  tasks.filterMap fun task => match task with
    | .refuse id => some id
    | .send .. => none

/-- The ids that are not completed yet: those owed, in the table, or to be refused. -/
def unsettled (debts : List String) (client : LanClient) : List String :=
  debts ++ client.requests.keys ++ refusals client.tasks

/-- No id is completed twice, and none is completed that is still to be.  Only a paired
client has requests. -/
structure Owes (platform : Platform) (debts : List String) (client : LanClient) : Prop where
  nodup : (unsettled debts client).Nodup
  waiting : ∀ id ∈ unsettled debts client, completions id client.log = 0
  once : ∀ id, completions id client.log ≤ 1
  numbered : ∀ id, id ∈ unsettled debts client ∨ 0 < completions id client.log →
    ∃ n < client.uuids, id = platform.uuid n
  paired : ∀ id ∈ client.requests, client.clientPaired = true

variable {debts owed : List String} {client given after : LanClient} {id : String}
  {result : JsonObject}

theorem completions_cons (id : String) (entry : Entry) (log : List Entry) :
    completions id (entry :: log) = completions id log + completions id [entry] := by
  rw [completions, completions, completions, List.countP_cons, List.countP_cons, List.countP_nil,
    zero_add]

@[simp] theorem completions_completed (id other : String) (time : ℤ) (result : JsonObject) :
    completions id [⟨time, .completed other result⟩] = if other = id then 1 else 0 := by
  simp [completions]

/-- The same ids wait, and none was completed. -/
theorem Owes.of_perm (h : Owes platform debts client)
    (hperm : (unsettled owed after).Perm (unsettled debts client))
    (huuids : client.uuids ≤ after.uuids)
    (hlog : ∀ id, completions id after.log = completions id client.log)
    (hpaired : ∀ id ∈ after.requests, after.clientPaired = true) : Owes platform owed after := by
  refine ⟨hperm.nodup_iff.2 h.nodup, fun id hid => ?_, fun id => ?_, fun id hid => ?_, hpaired⟩
  · rw [hlog]
    exact h.waiting id (hperm.mem_iff.1 hid)
  · rw [hlog]
    exact h.once id
  · rw [hlog, hperm.mem_iff] at hid
    obtain ⟨n, hlt, heq⟩ := h.numbered id hid
    exact ⟨n, hlt.trans_le huuids, heq⟩

/-- A completion pays a debt. -/
theorem Owes.pay (h : Owes platform (id :: debts) client) :
    Owes platform debts (client.emit (.completed id result)) := by
  have hsplit : unsettled (id :: debts) client = id :: unsettled debts client := rfl
  have hsame : unsettled debts (client.emit (.completed id result)) = unsettled debts client := rfl
  -- One result more for `id`, none for another.
  have hcount : ∀ other, completions other (client.emit (.completed id result)).log =
      completions other client.log + if id = other then 1 else 0 := by
    intro other
    rw [show (client.emit (.completed id result)).log =
      ⟨client.now, .completed id result⟩ :: client.log from rfl, completions_cons,
      completions_completed]
  have hnodup := h.nodup
  have hwaiting := h.waiting
  have hnumbered := h.numbered
  rw [hsplit] at hnodup hwaiting hnumbered
  obtain ⟨hout, hrest⟩ := List.nodup_cons.1 hnodup
  constructor
  · rwa [hsame]
  · intro other hother
    rw [hsame] at hother
    rw [hcount, hwaiting other (List.mem_cons_of_mem _ hother), if_neg]
    rintro rfl
    exact hout hother
  · intro other
    rw [hcount]
    by_cases heq : id = other
    · subst heq
      rw [hwaiting id List.mem_cons_self, if_pos rfl]
    · rw [if_neg heq]
      exact h.once other
  · intro other hother
    rw [hsame, hcount] at hother
    refine hnumbered other ?_
    by_cases heq : id = other
    · exact .inl (heq ▸ List.mem_cons_self)
    · rw [if_neg heq] at hother
      exact hother.imp_left (List.mem_cons_of_mem _)
  · exact h.paired

/-- `report` completes its id, and keeps to the rules whatever else is owed. -/
structure Pays (platform : Platform) (report : Report) : Prop where
  owes : ∀ debts id result client, Owes platform (id :: debts) client →
    Owes platform debts (report id result client)
  counts : ∀ id result client other, completions other client.log + (if id = other then 1 else 0) ≤
    completions other (report id result client).log

/-- What is owed does not change, and what was completed stays so. -/
structure Lawful (platform : Platform) (client after : LanClient) : Prop where
  owes : ∀ debts, Owes platform debts client → Owes platform debts after
  counts : ∀ id, completions id client.log ≤ completions id after.log

/-- The two clients do not differ in their requests. -/
structure Alike (client after : LanClient) : Prop where
  requests : after.requests = client.requests
  tasks : refusals after.tasks = refusals client.tasks
  uuids : after.uuids = client.uuids
  log : ∀ id, completions id after.log = completions id client.log

theorem Lawful.refl (client : LanClient) : Lawful platform client client :=
  ⟨fun _ h => h, fun _ => le_rfl⟩

theorem Lawful.trans {first second third : LanClient} (h : Lawful platform first second)
    (h' : Lawful platform second third) : Lawful platform first third :=
  ⟨fun debts hdebts => h'.owes debts (h.owes debts hdebts),
    fun id => (h.counts id).trans (h'.counts id)⟩

theorem Alike.lawful (h : Alike client after) (hpaired : client.clientPaired = true →
    after.clientPaired = true) : Lawful platform client after := by
  refine ⟨fun debts howes => ?_, fun id => (h.log id).ge⟩
  have hsame : unsettled debts after = unsettled debts client := by
    rw [unsettled, unsettled, h.requests, h.tasks]
  refine howes.of_perm (hsame ▸ .refl _) h.uuids.ge h.log fun id hid => hpaired ?_
  exact howes.paired id (h.requests ▸ hid)

/-- The reports of `complete` pay for the ids it took. -/
theorem owes_reports (hpays : Pays platform report) (code : String) (ids : List String)
    (h : Owes platform (ids ++ debts) client) : Owes platform debts
      (ids.foldl (fun client id => report id (errorObject code) client) client) := by
  induction ids generalizing client with
  | nil => exact h
  | cons id rest ih => exact ih (hpays.owes (rest ++ debts) id _ client h)

theorem counts_reports (hpays : Pays platform report) (code : String) (ids : List String)
    (client : LanClient) (id : String) :
    completions id client.log + (if id ∈ ids then 1 else 0) ≤ completions id
      (ids.foldl (fun client id => report id (errorObject code) client) client).log := by
  induction ids generalizing client with
  | nil => exact le_rfl
  | cons own rest ih =>
      have hown := hpays.counts own (errorObject code) client id
      have hrest := ih (report own (errorObject code) client)
      rw [List.foldl_cons]
      by_cases heq : own = id
      · subst heq
        rw [if_pos rfl] at hown
        rw [if_pos List.mem_cons_self]
        omega
      · have hmem : id ∈ own :: rest ↔ id ∈ rest := by
          rw [List.mem_cons, or_iff_right (Ne.symm heq)]
        rw [if_neg heq] at hown
        simp only [hmem]
        omega

theorem complete_lawful (hpays : Pays platform report) (code : String) (h : Alike client given) :
    Lawful platform client (complete code report given) := by
  constructor
  · intro debts howes
    refine owes_reports hpays code _ (howes.of_perm ?_ h.uuids.ge h.log ?_)
    · -- The keys are owed now, and the table is empty.
      have hempty : unsettled (given.requests.keys ++ debts) { given with requests := ∅ } =
          given.requests.keys ++ debts ++ refusals client.tasks := by
        rw [unsettled, AList.keys_empty, List.append_nil, h.tasks]
      rw [hempty, h.requests]
      exact List.perm_append_comm.append_right _
    · exact fun id hid => absurd hid (AList.notMem_empty id)
  · intro id
    have hcount := counts_reports hpays code given.requests.keys { given with requests := ∅ } id
    have hlog := h.log id
    unfold complete
    dsimp only at hcount
    omega

/-- `complete` completes everything in the table. -/
theorem complete_completes (hpays : Pays platform report) (code : String)
    (hmem : id ∈ given.requests) :
    0 < completions id (complete code report given).log := by
  have hcount := counts_reports hpays code given.requests.keys { given with requests := ∅ } id
  rw [if_pos (AList.mem_keys.1 hmem)] at hcount
  unfold complete
  omega

/-! ## Every function is lawful -/

theorem Alike.refl (client : LanClient) : Alike client client := ⟨rfl, rfl, rfl, fun _ => rfl⟩

theorem Alike.emit (h : Alike client after) {event : Event}
    (hevent : ∀ id, completions id [⟨after.now, event⟩] = 0) : Alike client (after.emit event) := by
  refine ⟨h.requests, h.tasks, h.uuids, fun id => ?_⟩
  rw [show (after.emit event).log = ⟨after.now, event⟩ :: after.log from rfl, completions_cons,
    hevent]
  exact h.log id

/-- A request that leaves the table is owed. -/
theorem Owes.erase (h : Owes platform debts client) (hmem : id ∈ client.requests) :
    Owes platform (id :: debts) { client with requests := client.requests.erase id } := by
  refine h.of_perm ?_ le_rfl (fun _ => rfl) fun other hother => ?_
  · have hkeys : (id :: (client.requests.erase id).keys).Perm client.requests.keys := by
      rw [AList.keys_erase]
      exact (List.perm_cons_erase (AList.mem_keys.1 hmem)).symm
    have hmiddle : (id :: (debts ++ (client.requests.erase id).keys)).Perm
        (debts ++ id :: (client.requests.erase id).keys) := List.perm_middle.symm
    exact (hmiddle.trans (hkeys.append_left debts)).append_right (refusals client.tasks)
  · exact h.paired other (AList.mem_erase.1 hother).2

section
variable (hpays : Pays platform report)
include hpays

theorem fail_lawful (message : String) (h : Alike client given) :
    Lawful platform client (fail message report given) :=
  complete_lawful hpays _ ⟨h.requests, h.tasks, h.uuids, h.log⟩

theorem stop_lawful (client : LanClient) : Lawful platform client (stop report client) :=
  complete_lawful hpays _ ⟨rfl, rfl, rfl, fun _ => rfl⟩

theorem openAddress_lawful (h : Alike client given)
    (hpaired : client.clientPaired = true → given.clientPaired = true) :
    Lawful platform client (openAddress report given) := by
  unfold openAddress
  split
  · exact fail_lawful hpays _ ⟨h.requests, h.tasks, h.uuids, h.log⟩
  · dsimp only
    split
    · exact fail_lawful hpays _ ⟨h.requests, h.tasks, h.uuids, h.log⟩
    · refine Alike.lawful (Alike.emit ?_ fun _ => rfl) hpaired
      exact ⟨h.requests, h.tasks, h.uuids, h.log⟩

theorem errorOccurred_lawful (text : String) (client : LanClient) :
    Lawful platform client (errorOccurred text report client) := by
  unfold errorOccurred
  dsimp only
  split
  · exact openAddress_lawful hpays ⟨rfl, rfl, rfl, fun _ => rfl⟩ id
  · exact fail_lawful hpays _ ⟨rfl, rfl, rfl, fun _ => rfl⟩

theorem send_lawful (message : JsonObject) (client : LanClient) :
    Lawful platform client (send world message report client).1 := by
  unfold send
  split
  · exact .refl client
  · split
    · exact .refl client
    · split
      · exact ((Alike.refl client).emit fun _ => rfl).lawful id
      · have hclosing : Alike client { client with closing := true } :=
          ⟨rfl, rfl, rfl, fun _ => rfl⟩
        exact (hclosing.emit fun _ => rfl).lawful id
      · exact errorOccurred_lawful hpays _ client

theorem connected_lawful (socket : Socket) (fingerprint : String) (client : LanClient) :
    Lawful platform client (connected platform world socket fingerprint report client) := by
  unfold connected
  by_cases hpinned : fingerprint ≠ client.joining.fingerprint
  · rw [if_pos hpinned]
    exact fail_lawful hpays _ (.refl client)
  · rw [if_neg hpinned]
    have hgreet : Alike client (client.greet platform socket) := by
      unfold greet
      refine Alike.emit ?_ fun _ => rfl
      exact ⟨rfl, rfl, rfl, fun _ => rfl⟩
    have hpaired : (client.greet platform socket).clientPaired = client.clientPaired := rfl
    generalize client.greet platform socket = greeted at hgreet hpaired
    dsimp only
    split
    · exact fail_lawful hpays _ hgreet
    · have hsent : Lawful platform greeted (send world
          (greeted.pairMessage (greeted.proof world)) report greeted).1 :=
        send_lawful hpays _ greeted
      refine (hgreet.lawful (hpaired ▸ id)).trans (hsent.trans ?_)
      exact Alike.lawful ⟨rfl, rfl, rfl, fun _ => rfl⟩ id

theorem readyMessage_lawful (message : JsonObject) (client : LanClient) :
    Lawful platform client (readyMessage world message report client) := by
  have hverifying : Alike client { client with phase := .verifying } :=
    ⟨rfl, rfl, rfl, fun _ => rfl⟩
  unfold readyMessage
  dsimp only
  split
  · exact fail_lawful hpays _ hverifying
  · exact (hverifying.lawful id).trans (send_lawful hpays _ _)

theorem pairedMessage_lawful (socket : Socket) (message : JsonObject) (client : LanClient) :
    Lawful platform client (pairedMessage socket message report client) := by
  unfold pairedMessage
  split
  · exact fail_lawful hpays _ (.refl client)
  · refine Alike.lawful (Alike.emit ?_ fun _ => rfl) fun _ => rfl
    exact ⟨rfl, rfl, rfl, fun _ => rfl⟩

theorem responseMessage_lawful (message : JsonObject) (client : LanClient) :
    Lawful platform client (responseMessage message report client) := by
  unfold responseMessage
  dsimp only
  split
  · exact .refl client
  · next hmem =>
      rw [not_not] at hmem
      refine ⟨fun debts h => hpays.owes _ _ _ _ (h.erase hmem), fun id => ?_⟩
      refine le_trans ?_ (hpays.counts _ _ _ id)
      exact Nat.le_add_right _ _

theorem answerMessage_lawful (socket : Socket) (message : JsonObject) (client : LanClient) :
    Lawful platform client (answerMessage world socket message report client) := by
  unfold answerMessage
  dsimp only
  split
  · exact Alike.lawful ⟨rfl, rfl, rfl, fun _ => rfl⟩ id
  split
  · exact readyMessage_lawful hpays message client
  split
  · exact pairedMessage_lawful hpays socket message client
  split
  · exact responseMessage_lawful hpays message client
  · exact fail_lawful hpays _ (.refl client)

theorem clientMessage_lawful (socket : Socket) (message : JsonObject) (client : LanClient) :
    Lawful platform client (clientMessage world socket message report client) := by
  have hreceived : Alike client (client.emit (.received socket message)) :=
    (Alike.refl client).emit fun _ => rfl
  have hpaired : (client.emit (.received socket message)).clientPaired = client.clientPaired := rfl
  unfold clientMessage
  generalize client.emit (.received socket message) = received at hreceived hpaired
  have hlawful : Lawful platform client received := hreceived.lawful (hpaired ▸ id)
  dsimp only
  split
  · exact fail_lawful hpays _ hreceived
  split
  · split
    · exact fail_lawful hpays _ hreceived
    · refine hlawful.trans (Lawful.trans ?_ (answerMessage_lawful hpays socket message _))
      refine Alike.lawful (Alike.emit ?_ fun _ => rfl) id
      exact ⟨rfl, rfl, rfl, fun _ => rfl⟩
  · exact hlawful.trans (answerMessage_lawful hpays socket message received)

theorem binaryMessage_lawful (socket : Socket) (message : JsonObject) (client : LanClient) :
    Lawful platform client (binaryMessage world socket message report client) := by
  unfold binaryMessage
  split
  · exact fail_lawful hpays _ (.refl client)
  · exact clientMessage_lawful hpays socket message client

/-- What `join` does after `stop`. -/
theorem join_stopped (qr peerId name : String) (client : LanClient) : Lawful platform
    (stop report client) (join platform read qr peerId name report client) := by
  unfold join
  generalize stop report client = stopped
  dsimp only
  split
  · exact fail_lawful hpays _ (.refl stopped)
  · split
    · exact fail_lawful hpays _ (.refl stopped)
    · exact openAddress_lawful hpays ⟨rfl, rfl, rfl, fun _ => rfl⟩ id

theorem join_lawful (qr peerId name : String) (client : LanClient) :
    Lawful platform client (join platform read qr peerId name report client) :=
  (stop_lawful hpays client).trans (join_stopped hpays qr peerId name client)

end

/-- The id that `request` draws is new. -/
theorem Owes.fresh (h : Owes platform debts client) :
    platform.uuid client.uuids ∉ unsettled debts client ∧
      completions (platform.uuid client.uuids) client.log = 0 := by
  have hnone : ¬ (platform.uuid client.uuids ∈ unsettled debts client ∨
      0 < completions (platform.uuid client.uuids) client.log) := by
    intro hsome
    obtain ⟨n, hlt, heq⟩ := h.numbered _ hsome
    exact absurd (platform.uuid_injective heq) hlt.ne'
  rw [not_or, not_lt, Nat.le_zero] at hnone
  exact hnone

/-- One more id waits. -/
theorem Owes.add (h : Owes platform debts client)
    (hperm : (unsettled debts after).Perm (platform.uuid client.uuids :: unsettled debts client))
    (huuids : after.uuids = client.uuids + 1) (hlog : after.log = client.log)
    (hpaired : ∀ id ∈ after.requests, after.clientPaired = true) : Owes platform debts after := by
  obtain ⟨hout, hnone⟩ := h.fresh
  refine ⟨hperm.nodup_iff.2 (List.nodup_cons.2 ⟨hout, h.nodup⟩), fun id hid => ?_, hlog ▸ h.once,
    fun id hid => ?_, hpaired⟩
  · rw [hlog]
    rcases List.mem_cons.1 (hperm.mem_iff.1 hid) with rfl | hold
    · exact hnone
    · exact h.waiting id hold
  · rw [hlog, hperm.mem_iff, List.mem_cons, or_assoc] at hid
    rw [huuids]
    rcases hid with rfl | hold
    · exact ⟨client.uuids, Nat.lt_succ_self _, rfl⟩
    · obtain ⟨n, hlt, heq⟩ := h.numbered id hold
      exact ⟨n, hlt.trans (Nat.lt_succ_self _), heq⟩

theorem request_lawful (host : String) (payload : JsonObject) (client : LanClient) :
    Lawful platform client (client.request platform host payload) := by
  unfold LanClient.request
  dsimp only
  split
  · refine ⟨fun debts h => h.add ?_ rfl rfl h.paired, fun _ => le_rfl⟩
    have htasks : refusals (client.tasks ++ [.refuse (platform.uuid client.uuids)]) =
        refusals client.tasks ++ [platform.uuid client.uuids] := List.filterMap_append
    rw [unsettled, htasks, ← List.append_assoc]
    exact List.perm_append_singleton _ _
  · next hchecks =>
      push Not at hchecks
      refine ⟨fun debts h => h.add ?_ rfl rfl fun _ _ => hchecks.1, fun _ => le_rfl⟩
      have hkeys : client.requests.keys.erase (platform.uuid client.uuids) =
          client.requests.keys := by
        refine List.erase_of_not_mem fun hmem => h.fresh.1 ?_
        exact List.mem_append_left _ (List.mem_append_right _ hmem)
      have htasks : refusals (client.tasks ++ [.send (platform.uuid client.uuids) payload]) =
          refusals client.tasks := by
        rw [refusals, List.filterMap_append]
        exact List.append_nil _
      rw [unsettled, htasks, AList.keys_insert, hkeys]
      exact List.perm_middle.append_right _

theorem act_lawful (hpays : Pays platform report) (action : Action) (client : LanClient) :
    Lawful platform client (act platform read report client action) := by
  cases action with
  | stop => exact stop_lawful hpays client
  | join qr peerId name => exact join_lawful hpays qr peerId name client
  | request host payload => exact request_lawful host payload client

/-- **`report` pays its debt, however deep the slots nest.** -/
theorem reportAt_pays (platform : Platform) (read : String → LanLink.Query) (world : World)
    (depth : ℕ) : Pays platform (reportAt platform read world depth) := by
  have hcount : ∀ id (result : JsonObject) (client : LanClient) other,
      completions other (client.emit (.completed id result)).log =
        completions other client.log + if id = other then 1 else 0 := by
    intro id result client other
    rw [show (client.emit (.completed id result)).log =
      ⟨client.now, .completed id result⟩ :: client.log from rfl, completions_cons,
      completions_completed]
  induction depth with
  | zero =>
      refine ⟨fun debts id result client h => h.pay, fun id result client other => ?_⟩
      exact (hcount id result client other).ge
  | succ depth ih =>
      -- After the completion, the slot only does what is lawful.
      have hslot : ∀ (actions : List Action) (client : LanClient), Lawful platform client
          (actions.foldl (act platform read (reportAt platform read world depth)) client) := by
        intro actions
        induction actions with
        | nil => exact .refl
        | cons action rest hrest =>
            exact fun client => (act_lawful ih action client).trans (hrest _)
      refine ⟨fun debts id result client h => ?_, fun id result client other => ?_⟩
      · exact (hslot _ (client.emit (.completed id result))).owes debts h.pay
      · exact (hcount id result client other).ge.trans ((hslot _ _).counts other)

theorem runTask_lawful (hpays : Pays platform report) {task : Task} {rest : List Task}
    (htasks : client.tasks = task :: rest) :
    Lawful platform client (runTask world task report { client with tasks := rest }) := by
  cases task with
  | refuse id =>
      constructor
      -- The refusal was owed since it was queued, and it is paid here.
      · intro debts h
        refine hpays.owes debts id _ _ (h.of_perm ?_ le_rfl (fun _ => rfl) h.paired)
        rw [unsettled, unsettled, htasks]
        exact (List.perm_middle : (debts ++ client.requests.keys ++ id :: _).Perm _).symm
      · intro other
        refine le_trans ?_ (hpays.counts id _ _ other)
        exact Nat.le_add_right _ _
  | send id payload =>
      have hrest : Alike client { client with tasks := rest } :=
        ⟨rfl, by rw [htasks]; rfl, rfl, fun _ => rfl⟩
      have hpaired : ({ client with tasks := rest } : LanClient).clientPaired =
          client.clientPaired := rfl
      generalize ({ client with tasks := rest } : LanClient) = given at hrest hpaired
      have hlawful : Lawful platform client given := hrest.lawful (hpaired ▸ fun h => h)
      unfold runTask
      dsimp only
      split
      · exact hlawful
      · have hsent : Lawful platform given (send world (.ofList [("type", .string "request"),
            ("id", .string id), ("payload", payload.json)]) report given).1 :=
              send_lawful hpays _ given
        generalize send world _ report given = sent at hsent
        obtain ⟨after, accepted⟩ := sent
        dsimp only at hsent ⊢
        split
        · exact hlawful.trans hsent
        · exact hlawful.trans (hsent.trans (fail_lawful hpays _ (.refl after)))

/-! ## The sweep -/

/-- Slots that only make requests keep the entries and the history. -/
theorem requests_keep (read : String → LanLink.Query) (report : Report) (actions : List Action)
    (h : Owes platform debts client)
    (hnone : actions.any Action.resets = false) :
    (actions.foldl (act platform read report) client).log = client.log ∧
    Owes platform debts (actions.foldl (act platform read report) client) ∧
    ∀ id time, client.requests.lookup id = some time →
      (actions.foldl (act platform read report) client).requests.lookup id = some time := by
  induction actions generalizing client with
  | nil => exact ⟨rfl, h, fun _ _ htime => htime⟩
  | cons action rest ih =>
      rw [List.any_cons, Bool.or_eq_false_iff] at hnone
      cases action with
      | request host payload =>
          have howes := (request_lawful host payload client).owes debts h
          have hlog : (client.request platform host payload).log = client.log := by
            unfold LanClient.request
            dsimp only
            split <;> rfl
          -- A new request does not hide an old one: its id is fresh.
          have hstored : ∀ id time, client.requests.lookup id = some time →
              (client.request platform host payload).requests.lookup id = some time := by
            intro id time htime
            unfold LanClient.request
            dsimp only
            split
            · exact htime
            · refine (AList.lookup_insert_ne ?_).trans htime
              rintro rfl
              refine h.fresh.1 (List.mem_append_left _ (List.mem_append_right _ ?_))
              exact AList.mem_keys.1 (Table.mem_of_lookup htime)
          obtain ⟨hrest, howes', hkept⟩ := ih howes hnone.2
          exact ⟨hrest.trans hlog, howes',
            fun id time htime => hkept id time (hstored id time htime)⟩
      | stop => cases hnone.1
      | join => cases hnone.1

theorem acts_lawful (read : String → LanLink.Query) (hpays : Pays platform report)
    (actions : List Action) (client : LanClient) :
    Lawful platform client (actions.foldl (act platform read report) client) := by
  induction actions generalizing client with
  | nil => exact .refl client
  | cons action rest ih => exact (act_lawful hpays action client).trans (ih _)

/-- A slot that gives up the requests completes what is in the table. -/
theorem resets_complete (read : String → LanLink.Query) (hpays : Pays platform report)
    (actions : List Action) (hsome : actions.any Action.resets = true)
    (hmem : id ∈ client.requests) :
    0 < completions id (actions.foldl (act platform read report) client).log := by
  induction actions generalizing client with
  | nil => cases hsome
  | cons action rest ih =>
      have hrest : ∀ given : LanClient, 0 < completions id given.log →
          0 < completions id (rest.foldl (act platform read report) given).log :=
        fun given hpos => hpos.trans_le ((acts_lawful read hpays rest given).counts id)
      have hstop : 0 < completions id (stop report client).log := complete_completes hpays _ hmem
      rw [List.foldl_cons]
      cases action with
      | stop => exact hrest _ hstop
      | join qr peerId name =>
          exact hrest _ (hstop.trans_le ((join_stopped hpays qr peerId name client).counts id))
      | request host payload =>
          refine ih hsome ?_
          rw [act, LanClient.request]
          dsimp only
          split
          · exact hmem
          · exact (AList.mem_insert _).2 (.inr hmem)

theorem sweepRequest_counts (hpays : Pays platform report) (now : ℤ) (ids : List String)
    (client : LanClient) (id : String) : completions id client.log ≤
      completions id (ids.foldl (sweepRequest now report) client).log := by
  induction ids generalizing client with
  | nil => exact le_rfl
  | cons own rest ih =>
      refine le_trans ?_ (ih _)
      unfold sweepRequest
      split
      · refine le_trans ?_ (hpays.counts own _ _ id)
        exact Nat.le_add_right _ _
      · exact le_rfl

/-- The round for an id that is gone: its invalid deadline is over, so it is completed
once more. -/
theorem sweepRequest_gone (hpays : Pays platform report) {now : ℤ} (h : Owes platform debts client)
    (hcompleted : 0 < completions id client.log) :
    1 < completions id (sweepRequest now report client id).log := by
  have hgone : client.requests.lookup id = none := by
    rw [AList.lookup_eq_none]
    intro hmem
    have hzero := h.waiting id
      (List.mem_append_left _ (List.mem_append_right _ (AList.mem_keys.1 hmem)))
    omega
  unfold sweepRequest
  rw [hgone, Option.getD_none, if_pos bot_le]
  have hcount := hpays.counts id (errorObject "timeout")
    { client with requests := client.requests.erase id } id
  rw [if_pos rfl] at hcount
  dsimp only at hcount
  omega

/-- **The loop of `sweep`** completes nothing twice exactly when it is not cut short. -/
theorem sweepLoop (read : String → LanLink.Query) (world : World) (depth : ℕ) (now : ℤ)
    (deadline : String → DateTime) (ids : List String)
    (h : Owes platform [] client) (hnodup : ids.Nodup)
    (hstored : ∀ id ∈ ids, client.requests.lookup id = some (deadline id)) :
    (cutsShort world.slot (fun id => deadline id ≤ (now : DateTime)) client.log.length ids = false →
      Owes platform []
        (ids.foldl (sweepRequest now (reportAt platform read world (depth + 1))) client)) ∧
    (cutsShort world.slot (fun id => deadline id ≤ (now : DateTime)) client.log.length ids = true →
      ∃ id, 1 < completions id
        (ids.foldl (sweepRequest now (reportAt platform read world (depth + 1))) client).log) := by
  have hpays := reportAt_pays platform read world (depth + 1)
  have hinner := reportAt_pays platform read world depth
  -- The induction is over what is left of the snapshot, with the table as it is then.
  induction ids generalizing client with
  | nil => exact ⟨fun _ => h, fun hcut => by cases hcut⟩
  | cons id rest ih =>
      obtain ⟨hout, hrest⟩ := List.nodup_cons.1 hnodup
      have hid := hstored id List.mem_cons_self
      have hmem := Table.mem_of_lookup hid
      rw [List.foldl_cons]
      by_cases hdue : deadline id ≤ (now : DateTime)
      · -- The id is completed, and its slot runs.
        have hround : sweepRequest now (reportAt platform read world (depth + 1)) client id =
            (world.slot client.log.length).foldl
              (act platform read (reportAt platform read world depth))
              ({ client with requests := client.requests.erase id }.emit
                (.completed id (errorObject "timeout"))) := by
          unfold sweepRequest
          rw [hid, Option.getD_some, if_pos hdue]
          rfl
        have hpaid : Owes platform [] ({ client with requests := client.requests.erase id }.emit
            (.completed id (errorObject "timeout"))) := (h.erase hmem).pay
        have hkept : ∀ other ∈ rest, ({ client with requests := client.requests.erase id }.emit
            (.completed id (errorObject "timeout"))).requests.lookup other =
              some (deadline other) := by
          intro other hother
          refine Table.lookup_erase_eq_some.2 ⟨?_, hstored other (List.mem_cons_of_mem _ hother)⟩
          rintro rfl
          exact hout hother
        have hlength : ({ client with requests := client.requests.erase id }.emit
            (.completed id (errorObject "timeout"))).log.length = client.log.length + 1 := rfl
        rw [hround]
        generalize ({ client with requests := client.requests.erase id }.emit
          (.completed id (errorObject "timeout"))) = paid at hpaid hkept hlength
        cases rest with
        | nil =>
            exact ⟨fun _ => (acts_lawful read hinner _ paid).owes [] hpaid,
              fun hcut => by cases hcut⟩
        | cons other rest =>
            rw [cutsShort, if_pos (decide_eq_true hdue)]
            cases hresets : (world.slot client.log.length).any Action.resets with
            -- The table was reset: the next id of the snapshot was completed by `complete`,
            -- and its deadline is an invalid date now, so it is completed again.
            | true =>
                refine ⟨fun hcut => by simp at hcut, fun _ => ⟨other, ?_⟩⟩
                have hother := Table.mem_of_lookup (hkept other List.mem_cons_self)
                have hcompleted := resets_complete read hinner _ hresets hother
                have howes := (acts_lawful read hinner (world.slot client.log.length) paid).owes []
                  hpaid
                exact (sweepRequest_gone hpays howes hcompleted).trans_le
                  (sweepRequest_counts hpays now rest _ other)
            -- The slot only asked for more, which leaves the other ids where they were.
            | false =>
                obtain ⟨hlog, howes, hstay⟩ := requests_keep read
                  (reportAt platform read world depth) _ hpaid hresets
                have hnext := ih howes hrest fun own hown => hstay own _ (hkept own hown)
                rw [hlog, hlength] at hnext
                rw [Bool.false_or]
                exact hnext
      · have hround : sweepRequest now (reportAt platform read world (depth + 1)) client id =
            client := by
          unfold sweepRequest
          rw [hid, Option.getD_some, if_neg hdue]
        have hnext := ih h hrest fun own hown => hstored own (List.mem_cons_of_mem _ hown)
        rw [hround]
        cases rest with
        | nil => exact ⟨fun _ => h, fun hcut => by cases hcut⟩
        | cons other rest =>
            rw [cutsShort, if_neg (by simpa using hdue)]
            exact hnext

theorem cutsShort_nil (due : String → Bool) (n : ℕ) (ids : List String) :
    cutsShort (fun _ => []) due n ids = false := by
  induction ids generalizing n with
  | nil => rfl
  | cons id rest ih =>
      cases rest with
      | nil => rfl
      | cons other rest =>
          rw [cutsShort, ih, ih]
          simp

/-- The loop over the whole table, for slots of any depth. -/
theorem sweepTable {world : World} (depth : ℕ) (h : Owes platform [] client) :
    ((depth ≠ 0 && cutsShort world.slot (fun id => (client.requests.lookup id).getD ⊥ ≤
        (client.now : DateTime)) client.log.length client.requests.keys) = false →
      Owes platform [] (client.requests.keys.foldl
        (sweepRequest client.now (reportAt platform read world depth)) client)) ∧
    ((depth ≠ 0 && cutsShort world.slot (fun id => (client.requests.lookup id).getD ⊥ ≤
        (client.now : DateTime)) client.log.length client.requests.keys) = true →
      ∃ id, 1 < completions id (client.requests.keys.foldl
        (sweepRequest client.now (reportAt platform read world depth)) client).log) := by
  have hstored : ∀ id ∈ client.requests.keys,
      client.requests.lookup id = some ((client.requests.lookup id).getD ⊥) := by
    intro id hid
    obtain ⟨time, htime⟩ := Table.mem_iff_lookup.1 (AList.mem_keys.2 hid)
    rw [htime, Option.getD_some]
  have hnodup := AList.keys_nodup client.requests
  cases depth with
  | zero =>
      -- No slot runs, as if every slot did nothing.
      have hloop := sweepLoop read
          { world with slot := fun _ => [] } 0 client.now _ _ h hnodup hstored
      exact ⟨fun _ => hloop.1 (cutsShort_nil _ _ _), fun hcut => by simp at hcut⟩
  | succ depth =>
      have hloop := sweepLoop read world depth client.now _ _ h hnodup hstored
      exact ⟨fun hcut => hloop.1 (by simpa using hcut), fun hcut => hloop.2 (by simpa using hcut)⟩

/-- Without requests there is nothing to complete. -/
theorem complete_empty (code : String) (h : client.requests = ∅) :
    complete code report client = client := by
  unfold complete
  rw [h, AList.keys_empty, List.foldl_nil, ← h]

theorem openAddress_empty (h : client.requests = ∅) :
    (openAddress report client).requests = ∅ := by
  unfold openAddress
  split
  · rw [fail, complete_empty]
    · exact h
    · exact h
  · dsimp only
    split
    · rw [fail, complete_empty]
      · exact h
      · exact h
    · exact h

/-- A client that is not paired has no requests. -/
theorem Owes.unpaired (h : Owes platform debts client) (hunpaired : ¬ client.clientPaired = true) :
    client.requests = ∅ := by
  refine AList.ext ?_
  cases hentries : client.requests.entries with
  | nil => rfl
  | cons entry rest =>
      refine absurd (h.paired entry.1 ?_) hunpaired
      refine AList.mem_keys.2 (List.mem_map.2 ⟨entry, ?_, rfl⟩)
      rw [hentries]
      exact List.mem_cons_self

/-- **A sweep completes something twice exactly when it is interrupted.** -/
theorem sweep_owes {step : Step} (hinput : step.input = .sweep) (h : Owes platform [] client) :
    (interrupted client step = false → Owes platform [] (next platform read client step)) ∧
    (interrupted client step = true →
      ∃ id, 1 < completions id (next platform read client step).log) := by
  have hpays := reportAt_pays platform read step.world step.world.depth
  have hnext : next platform read client step =
      sweep (reportAt platform read step.world step.world.depth) client := by
    rw [next, hinput]
    rfl
  -- for a sweep the condition is that of the loop over its snapshot
  have hcut : interrupted client step = (step.world.depth ≠ 0 && cutsShort step.world.slot
      (fun id => (client.requests.lookup id).getD ⊥ ≤ (client.now : DateTime)) client.log.length
      client.requests.keys) := by
    rw [interrupted, hinput]
  rw [hnext, hcut]
  unfold sweep
  dsimp only
  by_cases hopen : client.client.isSome = true ∧ ¬ client.clientPaired = true
  · -- Without a pairing the table is empty, and it stays so.
    have hempty := h.unpaired hopen.2
    have hloop : ∀ given : LanClient, Lawful platform client given → given.requests = ∅ →
        Owes platform [] (given.requests.keys.foldl (sweepRequest client.now
          (reportAt platform read step.world step.world.depth)) given) := by
      intro given hlawful hnone
      rw [hnone, AList.keys_empty, List.foldl_nil]
      exact hlawful.owes [] h
    rw [if_pos hopen, hempty, AList.keys_empty]
    refine ⟨fun _ => ?_, fun hfalse => by simp [cutsShort] at hfalse⟩
    split
    · refine hloop _ (fail_lawful hpays _ (.refl client)) ?_
      rw [fail, complete_empty]
      · exact hempty
      · exact hempty
    · split
      · exact hloop _ (openAddress_lawful hpays (.refl client) id) (openAddress_empty hempty)
      · exact hloop client (.refl client) hempty
  · rw [if_neg hopen]
    exact sweepTable step.world.depth h

/-! ## The run -/

theorem next_lawful {step : Step} (hfeasible : Feasible client step)
    (hsweep : step.input ≠ .sweep) :
    Lawful platform client (next platform read client step) := by
  have hpays := reportAt_pays platform read step.world step.world.depth
  -- A slot of an old socket does nothing.
  have hslot : ∀ socket (slot : LanClient → LanClient),
      (∀ given, Lawful platform given (slot given)) →
      Lawful platform client (client.onSocket socket slot) := by
    intro socket slot hlawful
    unfold onSocket
    split
    · exact hlawful client
    · exact .refl client
  unfold next LanClient.next
  cases hinput : step.input with
  | clock time => exact Alike.lawful ⟨rfl, rfl, rfl, fun _ => rfl⟩ id
  | join qr peerId name => exact join_lawful hpays qr peerId name client
  | setPairingAuthentication signer verifier =>
      refine (stop_lawful hpays client).trans ?_
      exact Alike.lawful ⟨rfl, rfl, rfl, fun _ => rfl⟩ id
  | connected socket fingerprint => exact hslot _ _ (connected_lawful hpays socket fingerprint)
  | text socket message => exact hslot _ _ (clientMessage_lawful hpays socket message)
  | binary socket message => exact hslot _ _ (binaryMessage_lawful hpays socket message)
  | closed socket =>
      refine hslot _ _ fun given => ?_
      exact Alike.lawful ⟨rfl, rfl, rfl, fun _ => rfl⟩ id
  | errorOccurred socket text => exact hslot _ _ (errorOccurred_lawful hpays text)
  | disconnected socket => exact hslot _ _ fun given => fail_lawful hpays _ (.refl given)
  | sweep => exact absurd hinput hsweep
  | cancelPairing => exact Alike.lawful ⟨rfl, rfl, rfl, fun _ => rfl⟩ id
  | stop => exact stop_lawful hpays client
  | request host payload => exact request_lawful host payload client
  | task =>
      cases htasks : client.tasks with
      | nil => exact .refl client
      | cons task rest => exact runTask_lawful hpays htasks
  | rehash requests =>
      have hsame : Table.Same client.requests requests := by
        simpa only [Feasible, LanClient.Feasible, hinput] using hfeasible
      have hkeys : requests.keys.Perm client.requests.keys := (hsame.map Sigma.fst).symm
      refine ⟨fun debts h => h.of_perm ?_ le_rfl (fun _ => rfl) ?_, fun _ => le_rfl⟩
      · exact (hkeys.append_left debts).append_right _
      · exact fun id hid => h.paired id (AList.mem_keys.2 (hkeys.mem_iff.1 (AList.mem_keys.1 hid)))

/-- Completions stay in every turn. -/
theorem next_counts {step : Step} (hfeasible : Feasible client step) (id : String) :
    completions id client.log ≤ completions id (next platform read client step).log := by
  by_cases hinput : step.input = .sweep
  · have hpays := reportAt_pays platform read step.world step.world.depth
    rw [next, hinput]
    refine le_trans ?_ (sweepRequest_counts hpays client.now _ _ id)
    split
    · split
      · exact (fail_lawful hpays _ (.refl client)).counts id
      · split
        · exact (openAddress_lawful hpays (.refl client) fun h => h).counts id
        · exact le_rfl
    · exact le_rfl
  · exact (next_lawful hfeasible hinput).counts id

/-- **Each request is completed at most once in exactly the runs in which no sweep is
interrupted.** -/
theorem run_completed_once_iff {trace : List (LanClient × Step)}
    (run : (machine platform read).Run Feasible trace client) :
    (∀ id, completions id client.log ≤ 1) ↔
    ∀ visit ∈ trace, interrupted visit.1 visit.2 = false := by
  have hboth : ((∀ visit ∈ trace, interrupted visit.1 visit.2 = false) → Owes platform [] client) ∧
      ((∃ visit ∈ trace, interrupted visit.1 visit.2 = true) →
        ∃ id, 1 < completions id client.log) := by
    induction run with
    | start hinit =>
        obtain ⟨time, rfl⟩ := hinit
        refine ⟨fun _ => ?_, by simp⟩
        exact ⟨List.nodup_nil, by simp [unsettled, refusals], by simp [completions],
          by simp [unsettled, refusals, completions], by simp⟩
    | @step trace state step run hfeasible ih =>
        constructor
        · intro hnone
          rw [List.forall_mem_cons] at hnone
          have howes := ih.1 hnone.2
          by_cases hinput : step.input = .sweep
          · exact (sweep_owes hinput howes).1 hnone.1
          · exact (next_lawful hfeasible hinput).owes [] howes
        · rintro ⟨visit, hvisit, hcut⟩
          by_cases hearlier : ∃ visit ∈ trace, interrupted visit.1 visit.2 = true
          · -- What was completed twice stays so.
            obtain ⟨id, htwice⟩ := ih.2 hearlier
            exact ⟨id, htwice.trans_le (next_counts hfeasible id)⟩
          · have hnone : ∀ visit ∈ trace, interrupted visit.1 visit.2 = false := by
              intro earlier hmem
              exact Bool.eq_false_iff.2 fun htrue => hearlier ⟨earlier, hmem, htrue⟩
            rcases List.mem_cons.1 hvisit with rfl | hold
            · have hinput : step.input = .sweep := by
                cases hstep : step.input with
                | sweep => rfl
                | _ => simp [interrupted, hstep] at hcut
              exact (sweep_owes hinput (ih.1 hnone)).2 hcut
            · exact absurd ⟨visit, hold, hcut⟩ hearlier
  constructor
  · intro honce visit hvisit
    refine Bool.eq_false_iff.2 fun hcut => ?_
    obtain ⟨id, htwice⟩ := hboth.2 ⟨visit, hvisit, hcut⟩
    exact absurd (honce id) (not_le.2 htwice)
  · exact fun hnone => (hboth.1 hnone).once

/-- A world whose slots only act at the call for the `n`-th entry of the history. -/
def World.acting (n : ℕ) (actions : List Action) : World := { LanClient.World.sample with
  slot := fun call => if call = n then actions else []
  depth := 1 }

/-- Two requests of a paired client are due in one sweep, and the slot called for the first
of them takes these actions. -/
def timeouts (actions : List Action) : List Step :=
  let calls : List Input := [.request "h" ⟨[]⟩, .request "h" ⟨[]⟩, .clock 20000]
  ((connecting ++ [readyStep, pairedStep]).map LanClient.Step.input ++ calls).map
    (⟨·, .acting 0 []⟩) ++ [⟨.sweep, .acting 7 actions⟩]

theorem timeouts_admissible (actions : List Action) :
    (machine .sample sampleRead).Admissible Feasible { now := 0 } (timeouts actions) := by
  have hopen : (next .sample sampleRead { now := 0 }
      ⟨.join "" "c" "n", .acting 0 []⟩).helloSent = false := by decide +kernel
  exact ⟨trivial, hopen, trivial, trivial, trivial, trivial, trivial, trivial, trivial⟩

/-- A slot that stops the client at the first timeout sees the second request completed
twice. -/
theorem not_completed_once : ∃ trace client,
    (machine .sample sampleRead).Run Feasible trace client ∧
      ¬ ∀ id, completions id client.log ≤ 1 := by
  have hstart : (machine .sample sampleRead).Run Feasible [] { now := 0 } := .start ⟨0, rfl⟩
  obtain ⟨trace, run⟩ := hstart.extend (timeouts [.stop]) (timeouts_admissible _)
  have htwice : completions "0"
      ((timeouts [.stop]).foldl (machine .sample sampleRead).next { now := 0 }).log = 2 := by
    decide +kernel
  exact ⟨trace, _, run, fun honce => absurd (htwice ▸ honce "0") (by decide)⟩

/-- A slot that only makes another request does no harm. -/
theorem run_completed_once_iff_request : ∃ trace client,
    (machine .sample sampleRead).Run Feasible trace client ∧
      completions "0" client.log = 1 ∧ completions "1" client.log = 1 ∧
      ((∀ id, completions id client.log ≤ 1) ↔
        ∀ visit ∈ trace, interrupted visit.1 visit.2 = false) := by
  have hstart : (machine .sample sampleRead).Run Feasible [] { now := 0 } := .start ⟨0, rfl⟩
  obtain ⟨trace, run⟩ := hstart.extend (timeouts [.request "h" ⟨[]⟩]) (timeouts_admissible _)
  exact ⟨trace, _, run, by decide +kernel, by decide +kernel, run_completed_once_iff run⟩

end Reentrant

end LanClient

end ServerHost
