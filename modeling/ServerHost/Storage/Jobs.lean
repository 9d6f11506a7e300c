import ServerHost.Storage.Bridge

/-!
# One truthful result

Six kinds of events can end a job or spoil it, in any order and also after its result.
`Sound` says what holds between them: a job that is not completed is in the table, has
no result, and has not forgotten any event that spoils it (`Clean`).  The result is
read off the job, so it tells what happened before.

## Strategy

What the slots do to a job comes down to three changes: `touch` changes one job and
notes what happened to it, `finish` completes it, and `start` adds one.
-/

namespace ServerHost

namespace Storage

/-- The standard output of a job. -/
def written (id : String) : List JobEvent → Bytes
  | [] => []
  | .read own bytes :: rest => if own = id then written id rest ++ bytes else written id rest
  | _ :: rest => written id rest

/-- The job an event is about. -/
def JobEvent.id : JobEvent → String
  | started id .. | cancelled id | killed id | read id _ | timedOut id | failedToStart id
  | exited id .. | finished id _ => id

/-- The event is a result of the job. -/
def JobEvent.reports (id : String) : JobEvent → Bool
  | finished own _ => own = id
  | _ => false

/-- The number of results of a job. -/
def results (id : String) (log : List JobEvent) : ℕ := log.countP (JobEvent.reports id)

/-- A job that is not spoiled was not cancelled and did not time out, and the whole output
of an operation with a document is buffered. -/
structure Clean (id : String) (job : BridgeJob) (log : List JobEvent) : Prop where
  cancelled : job.cancelled = false → .cancelled id ∉ log
  timedOut : job.failure = "" → .timedOut id ∉ log
  output : job.failure = "" → job.json = true → job.output = written id log

/-- A result that is ok tells the truth about what happened before. -/
def Truthful (fromJson : Bytes → Option Json) (event : JobEvent) (earlier : List JobEvent) : Prop :=
  ∀ id result, event = .finished id result → result.ok = true →
    (∃ before, earlier = .exited id 0 .normalExit :: before) ∧
    .cancelled id ∉ earlier ∧ .timedOut id ∉ earlier ∧
    ∀ request program arguments, .started id request program arguments ∈ earlier →
      structured request.operation = true →
      (written id earlier).length ≤ outputLimit ∧ (fromJson (written id earlier)).isSome = true

namespace StorageBridge

variable (fromJson : Bytes → Option Json) (platform : Platform)

/-- The id was given to an earlier `start`. -/
def Issued (bridge : StorageBridge) (id : String) : Prop := ∃ k < bridge.uuids, id = platform.uuid k

structure Sound (bridge : StorageBridge) : Prop where
  issued : ∀ event ∈ bridge.log, bridge.Issued platform event.id
  known : ∀ id ∈ bridge.objects, bridge.Issued platform id
  queued : ∀ refusal ∈ bridge.refusals, bridge.Issued platform refusal.1 ∧
    refusal.1 ∉ bridge.objects ∧ refusal.2.ok = false ∧ results refusal.1 bridge.log = 0
  distinct : (bridge.refusals.map Prod.fst).Nodup
  once : ∀ id, results id bridge.log ≤ 1
  job : ∀ id job, bridge.objects.lookup id = some job →
    (id ∈ bridge.jobs ↔ job.completed = false) ∧
    (job.completed = false ↔ results id bridge.log = 0) ∧
    job.output.length ≤ outputLimit ∧ (job.completed = false → Clean id job bridge.log) ∧
    ∃ request program arguments, .started id request program arguments ∈ bridge.log
  request : ∀ id request program arguments, .started id request program arguments ∈ bridge.log →
    ∃ job, bridge.objects.lookup id = some job ∧ job.json = structured request.operation
  listed : ∀ id ∈ bridge.jobs, id ∈ bridge.objects
  nodup : bridge.jobs.Nodup
  few : bridge.jobs.length ≤ 4
  truthful : Always (Truthful fromJson) bridge.log

end StorageBridge

variable {fromJson : Bytes → Option Json} {id other : String} {job : BridgeJob}
  {log : List JobEvent} {event : JobEvent}

theorem written_cons_ne (h : event.id ≠ id) : written id (event :: log) = written id log := by
  cases event with
  | read own bytes => exact if_neg h
  | _ => rfl

/-- Events about other jobs do not matter. -/
theorem Clean.cons_ne (h : Clean id job log) (hne : event.id ≠ id) :
    Clean id job (event :: log) := by
  have hnew : ∀ {new : JobEvent}, new.id = id → new ∉ log → new ∉ event :: log := by
    intro new hnew hnot hmem
    rcases List.mem_cons.1 hmem with rfl | hmem
    · exact hne hnew
    · exact hnot hmem
  refine ⟨fun hc => hnew rfl (h.cancelled hc), fun hf => hnew rfl (h.timedOut hf), ?_⟩
  intro hf hjson
  rw [written_cons_ne hne, h.output hf hjson]

theorem Clean.append_ne (h : Clean id job log) {news : List JobEvent}
    (hne : ∀ event ∈ news, event.id ≠ id) : Clean id job (news ++ log) := by
  induction news with
  | nil => exact h
  | cons event rest ih =>
      refine Clean.cons_ne (ih fun other hother => hne other (List.mem_cons_of_mem _ hother)) ?_
      exact hne event List.mem_cons_self

/-- A new job is not spoiled. -/
theorem Clean.of_silent {request : StorageRequest} {program : String} {arguments : List String}
    (houtput : job.output = []) (h : ∀ event ∈ log, event.id ≠ id) :
    Clean id job (.started id request program arguments :: log) := by
  have hnone : ∀ {event : JobEvent}, event.id = id → event ∉ log := fun heq hmem => h _ hmem heq
  have hwritten : written id log = [] := by
    induction log with
    | nil => rfl
    | cons event rest ih =>
        rw [written_cons_ne (h event List.mem_cons_self)]
        refine ih (fun other hother => h other (List.mem_cons_of_mem _ hother)) ?_
        exact fun heq hmem => h _ (List.mem_cons_of_mem _ hmem) heq
  refine ⟨fun _ hmem => ?_, fun _ hmem => ?_, fun _ _ => houtput.trans hwritten.symm⟩
  · rcases List.mem_cons.1 hmem with heq | hmem
    · cases heq
    · exact hnone rfl hmem
  · rcases List.mem_cons.1 hmem with heq | hmem
    · cases heq
    · exact hnone rfl hmem

/-- An event that neither starts a job nor reports a result. -/
def JobEvent.quiet : JobEvent → Bool
  | started .. | finished .. => false
  | _ => true

theorem JobEvent.not_reports (h : event.quiet = true) (id : String) :
    JobEvent.reports id event = false := by
  cases event with
  | finished own result => cases h
  | _ => rfl

theorem results_quiet {news : List JobEvent} (h : ∀ event ∈ news, event.quiet = true)
    (id : String) :
    results id (news ++ log) = results id log := by
  rw [results, results, List.countP_append, Nat.add_eq_right, List.countP_eq_zero]
  intro event hevent
  simp [JobEvent.not_reports (h event hevent)]

theorem started_quiet {news : List JobEvent} (h : ∀ event ∈ news, event.quiet = true)
    {request : StorageRequest} {program : String} {arguments : List String} :
    .started id request program arguments ∈ news ++ log ↔
      .started id request program arguments ∈ log := by
  refine ⟨fun hmem => ?_, fun hmem => List.mem_append_right _ hmem⟩
  rcases List.mem_append.1 hmem with hnew | hold
  · cases h _ hnew
  · exact hold

/-- A quiet event is not a result. -/
theorem truthful_quiet {news : List JobEvent} (h : ∀ event ∈ news, event.quiet = true)
    (hlog : Always (Truthful fromJson) log) : Always (Truthful fromJson) (news ++ log) := by
  refine hlog.append fun event hevent earlier id result heq => ?_
  rw [heq] at hevent
  cases h _ hevent

namespace StorageBridge

variable {platform : Platform} {bridge : StorageBridge}

/-! ## The three changes -/

/-- A job changes, and what happened to it is noted. -/
theorem Sound.touch (h : bridge.Sound fromJson platform)
    (hlookup : bridge.objects.lookup id = some job) (f : BridgeJob → BridgeJob)
    (news : List JobEvent) (hcompleted : (f job).completed = job.completed)
    (hjson : (f job).json = job.json) (hsize : (f job).output.length ≤ outputLimit)
    (hquiet : ∀ event ∈ news, event.quiet = true) (hown : ∀ event ∈ news, event.id = id)
    (hclean : Clean id job bridge.log → Clean id (f job) (news ++ bridge.log)) :
    Sound fromJson platform
      { bridge with objects := Table.modify id f bridge.objects, log := news ++ bridge.log } where
  issued event hevent := by
    rcases List.mem_append.1 hevent with hnew | hold
    · rw [hown event hnew]
      exact h.known id (Table.mem_of_lookup hlookup)
    · exact h.issued event hold
  known own hown := h.known own (Table.mem_modify.1 hown)
  queued refusal hrefusal := by
    obtain ⟨hissued, hout, hok, hnone⟩ := h.queued refusal hrefusal
    exact ⟨hissued, fun hmem => hout (Table.mem_modify.1 hmem), hok,
      (results_quiet hquiet _).trans hnone⟩
  distinct := h.distinct
  once own := (results_quiet hquiet own).le.trans (h.once own)
  -- A touch reports no result, so the counts are what they were.
  job own current hcurrent := by
    simp only [results_quiet hquiet, started_quiet hquiet]
    rcases Table.lookup_modify_eq_some.1 hcurrent with ⟨rfl, old, hold, rfl⟩ | ⟨hne, hold⟩
    · obtain rfl := Option.some.inj (hlookup.symm.trans hold)
      obtain ⟨hlisted, hdone, -, hopen, hstarted⟩ := h.job own job hlookup
      rw [hcompleted]
      exact ⟨hlisted, hdone, hsize, fun hno => hclean (hopen hno), hstarted⟩
    · obtain ⟨hlisted, hdone, hsmall, hopen, hstarted⟩ := h.job own current hold
      refine ⟨hlisted, hdone, hsmall, fun hno => (hopen hno).append_ne fun event hevent heq => ?_,
        hstarted⟩
      exact hne (heq.symm.trans (hown event hevent))
  request own request program arguments hstarted := by
    obtain ⟨current, hcurrent, hsame⟩ :=
      h.request own request program arguments ((started_quiet hquiet).1 hstarted)
    rw [Table.lookup_modify]
    by_cases heq : own = id
    · subst heq
      obtain rfl := Option.some.inj (hlookup.symm.trans hcurrent)
      rw [if_pos rfl, hlookup]
      exact ⟨f job, rfl, hjson.trans hsame⟩
    · rw [if_neg heq]
      exact ⟨current, hcurrent, hsame⟩
  listed own hown := Table.mem_modify.2 (h.listed own hown)
  nodup := h.nodup
  few := h.few
  truthful := truthful_quiet hquiet h.truthful

/-- What a result that is ok says about the job. -/
theorem resultOf_ok {code : ℤ} {status : ExitStatus}
    (h : (resultOf fromJson job code status).ok = true) :
    job.cancelled = false ∧ job.failure = "" ∧ status = .normalExit ∧ code = 0 ∧
      (job.json = true → (fromJson job.output).isSome = true) := by
  simp only [resultOf, decide_eq_true_eq] at h
  by_cases hcancelled : job.cancelled = true
  · rw [if_pos hcancelled] at h
    exact absurd h (by decide)
  rw [if_neg hcancelled] at h
  by_cases hfailure : job.failure ≠ ""
  · rw [if_pos hfailure] at h
    exact absurd h hfailure
  rw [if_neg hfailure] at h
  by_cases hexit : status ≠ .normalExit ∨ code ≠ 0
  · rw [if_pos hexit] at h
    exact absurd h (by decide)
  rw [if_neg hexit] at h
  by_cases hdocument : job.json = true ∧ (fromJson job.output).isNone = true
  · rw [if_pos hdocument] at h
    exact absurd h (by decide)
  push Not at hfailure hexit
  refine ⟨by simpa using hcancelled, hfailure, hexit.1, hexit.2, fun hjson => ?_⟩
  rw [Option.isSome_iff_ne_none]
  simpa [hjson] using hdocument

theorem results_finished (own : String) (result : StorageResult) :
    results own (.finished id result :: log) = results own log + if id = own then 1 else 0 := by
  rw [results, results, List.countP_cons]
  simp [JobEvent.reports]

/-- The job is completed and leaves the table, with a result that is true. -/
theorem Sound.finish (h : bridge.Sound fromJson platform) {code : ℤ} {status : ExitStatus}
    (hexit : status = .normalExit → code = 0 →
      ∃ before, bridge.log = .exited id 0 .normalExit :: before) :
    (bridge.finish fromJson id code status).Sound fromJson platform := by
  unfold StorageBridge.finish
  -- A job that is gone or completed is not finished a second time.
  cases hlookup : bridge.objects.lookup id with
  | none => exact h
  | some job =>
      dsimp only
      cases hdone : job.completed with
      | true =>
          rw [if_pos rfl]
          exact h
      | false =>
          rw [if_neg Bool.false_ne_true]
          obtain ⟨hlisted, hresults, hsmall, hclean, hstarted⟩ := h.job id job hlookup
          have hnone := hresults.1 hdone
          refine
            { issued := fun event hevent => ?_
              known := fun own hown => h.known own (Table.mem_modify.1 hown)
              queued := fun refusal hrefusal => ?_
              distinct := h.distinct
              once := fun own => ?_
              job := fun own current hcurrent => ?_
              request := fun own request program arguments hstart => ?_
              listed := fun own hown =>
                Table.mem_modify.2 (h.listed own (List.mem_of_mem_erase hown))
              nodup := h.nodup.erase id
              few := List.length_erase_le.trans h.few
              truthful := h.truthful.cons fun own result heq hok => ?_ }
          · rcases List.mem_cons.1 hevent with rfl | hold
            · exact h.known id (Table.mem_of_lookup hlookup)
            · exact h.issued event hold
          · obtain ⟨hissued, hout, hok, hzero⟩ := h.queued refusal hrefusal
            refine ⟨hissued, fun hmem => hout (Table.mem_modify.1 hmem), hok, ?_⟩
            have hne : id ≠ refusal.1 := by
              rintro rfl
              exact hout (Table.mem_of_lookup hlookup)
            rw [emit, results_finished, if_neg hne]
            exact hzero
          -- One result more for this job, which had none.
          · rw [emit, results_finished]
            by_cases heq : id = own
            · subst heq
              rw [if_pos rfl]
              exact (congrArg (· + 1) hnone).le
            · rw [if_neg heq]
              exact h.once own
          · rcases Table.lookup_modify_eq_some.1 hcurrent with ⟨rfl, old, hold, rfl⟩ | ⟨hne, hold⟩
            · obtain rfl := Option.some.inj (hold.symm.trans hlookup)
              refine ⟨?_, ?_, hsmall, fun hno => absurd hno (by simp), ?_⟩
              · exact iff_of_false h.nodup.not_mem_erase (by simp)
              · rw [emit, results_finished, if_pos rfl]
                exact iff_of_false (by simp) (Nat.succ_ne_zero _)
              · obtain ⟨request, program, arguments, hmem⟩ := hstarted
                exact ⟨request, program, arguments, List.mem_cons_of_mem _ hmem⟩
            · obtain ⟨hlisted', hresults', hsmall', hclean', request, program, arguments, hmem⟩ :=
                h.job own current hold
              refine ⟨?_, ?_, hsmall', fun hno => (hclean' hno).cons_ne (Ne.symm hne), request,
                program,
                arguments, List.mem_cons_of_mem _ hmem⟩
              · rw [← hlisted']
                exact List.mem_erase_of_ne hne
              · rw [emit, results_finished, if_neg (Ne.symm hne)]
                exact hresults'
          · rcases List.mem_cons.1 hstart with heq | hold
            · cases heq
            · obtain ⟨current, hcurrent, hsame⟩ := h.request own request program arguments hold
              change ∃ job, (Table.modify id _ bridge.objects).lookup own = some job ∧ _
              rw [Table.lookup_modify]
              by_cases heq : own = id
              · subst heq
                rw [if_pos rfl, hcurrent]
                exact ⟨_, rfl, hsame⟩
              · rw [if_neg heq]
                exact ⟨current, hcurrent, hsame⟩
          -- `ok` needs a normal exit with code 0, no failure and, where asked for, JSON.
          · obtain ⟨rfl, rfl⟩ := JobEvent.finished.inj heq
            obtain ⟨hcancelled, hfailure, hstatus, hcode, hjson⟩ := resultOf_ok hok
            have hspotless := hclean hdone
            refine ⟨hexit hstatus hcode, hspotless.cancelled hcancelled,
              hspotless.timedOut hfailure, fun request program arguments hstart hdocument => ?_⟩
            obtain ⟨current, hcurrent, hsame⟩ := h.request id request program arguments hstart
            obtain rfl := Option.some.inj (hlookup.symm.trans hcurrent)
            have hown := hsame.trans hdocument
            have hwritten := hspotless.output hfailure hown
            rw [← hwritten]
            exact ⟨hsmall, hjson hown⟩

/-! ## The slots -/

theorem Sound.exited (h : bridge.Sound fromJson platform) (id : String) (code : ℤ)
    (status : ExitStatus) :
    ((bridge.hear (.exited id code status)).exited fromJson id code status).Sound
      fromJson platform := by
  simp only [StorageBridge.exited, hear, heard]
  cases hlookup : bridge.objects.lookup id with
  | none => exact h
  | some job =>
      have htouched := h.touch hlookup (fun job => job) [.exited id code status] rfl rfl
        (h.job id job hlookup).2.2.1 (by simp [JobEvent.quiet])
          (by simp [JobEvent.id]) fun hclean => ?_
      · rw [Table.modify_id] at htouched
        refine htouched.finish ?_
        rintro rfl rfl
        exact ⟨bridge.log, rfl⟩
      · exact ⟨fun hc => by simpa using hclean.cancelled hc,
          fun hf => by simpa using hclean.timedOut hf,
          hclean.output⟩

theorem Sound.failedToStart (h : bridge.Sound fromJson platform) (id : String) :
    (bridge.failedToStart fromJson id).Sound fromJson platform := by
  unfold StorageBridge.failedToStart
  cases hlookup : bridge.objects.lookup id with
  | none => exact h
  | some job =>
      refine Sound.finish ?_ fun hstatus => by cases hstatus
      refine h.touch hlookup (fun job => { job with failure := "backend_start_failed" })
        [.failedToStart id] rfl rfl (h.job id job hlookup).2.2.1
        (by simp [JobEvent.quiet]) (by simp [JobEvent.id]) fun hclean => ?_
      refine ⟨fun hc => by simpa using hclean.cancelled hc, fun hf => ?_, fun hf => ?_⟩
      · exact absurd hf (by simp)
      · exact absurd hf (by simp)

theorem Sound.timeout (h : bridge.Sound fromJson platform) (id : String) :
    ((bridge.hear (.timeout id)).timeout id).Sound fromJson platform := by
  simp only [StorageBridge.timeout, hear, heard]
  cases hlookup : bridge.objects.lookup id with
  | none => exact h
  | some job =>
      refine h.touch hlookup (fun job => { job with failure := "timeout" })
        [.killed id, .timedOut id] rfl rfl (h.job id job hlookup).2.2.1
        (by simp [JobEvent.quiet]) (by simp [JobEvent.id]) fun hclean => ?_
      refine ⟨fun hc => by simpa using hclean.cancelled hc, fun hf => ?_, fun hf => ?_⟩
      · exact absurd hf (by simp)
      · exact absurd hf (by simp)

theorem Sound.cancel (h : bridge.Sound fromJson platform) (id : String) :
    ((bridge.hear (.cancel id)).cancel id).Sound fromJson platform := by
  unfold StorageBridge.cancel hear
  dsimp only [heard]
  by_cases hlisted : id ∈ bridge.jobs
  · rw [if_pos hlisted, if_pos hlisted]
    obtain ⟨job, hlookup⟩ := Table.mem_iff_lookup.1 (h.listed id hlisted)
    refine h.touch hlookup (fun job => { job with cancelled := true })
      [.killed id, .cancelled id] rfl rfl (h.job id job hlookup).2.2.1
      (by simp [JobEvent.quiet]) (by simp [JobEvent.id]) fun hclean => ?_
    exact ⟨fun hc => absurd hc (by simp), fun hf => by simpa using hclean.timedOut hf,
      hclean.output⟩
  · rw [if_neg hlisted, if_neg hlisted]
    exact h

/-- What is over the limit is thrown away, and the job is spoiled. -/
theorem Sound.readStandardOutput (h : bridge.Sound fromJson platform) (id : String)
    (bytes : Bytes) :
    ((bridge.hear (.standardOutput id bytes)).readStandardOutput id bytes).Sound
      fromJson platform := by
  simp only [StorageBridge.readStandardOutput, hear, heard]
  cases hlookup : bridge.objects.lookup id with
  | none => exact h
  | some job =>
      have hsmall := (h.job id job hlookup).2.2.1
      dsimp only
      by_cases hjson : ¬ job.json = true
      · rw [if_pos hjson]
        have htouched := h.touch hlookup (fun job => job) [.read id bytes] rfl rfl hsmall
          (by simp [JobEvent.quiet]) (by simp [JobEvent.id]) fun hclean => ?_
        · rwa [Table.modify_id] at htouched
        · exact ⟨fun hc => by simpa using hclean.cancelled hc,
            fun hf => by simpa using hclean.timedOut hf, fun _ hj => absurd hj hjson⟩
      rw [if_neg hjson]
      by_cases hlimit : job.output.length + bytes.length > outputLimit
      · rw [if_pos hlimit]
        refine h.touch hlookup (fun job => { job with failure := "result_size_limit_exceeded" })
          [.killed id, .read id bytes] rfl rfl hsmall
          (by simp [JobEvent.quiet]) (by simp [JobEvent.id]) fun hclean => ?_
        refine ⟨fun hc => by simpa using hclean.cancelled hc, fun hf => ?_, fun hf => ?_⟩
        · exact absurd hf (by simp)
        · exact absurd hf (by simp)
      · rw [if_neg hlimit]
        refine h.touch hlookup (fun job => { job with output := job.output ++ bytes })
          [.read id bytes] rfl rfl ?_ (by simp [JobEvent.quiet])
            (by simp [JobEvent.id]) fun hclean => ?_
        · rw [List.length_append]
          exact not_lt.1 hlimit
        · refine ⟨fun hc => by simpa using hclean.cancelled hc,
            fun hf => by simpa using hclean.timedOut hf, fun hf hj => ?_⟩
          change job.output ++ bytes = written id (.read id bytes :: bridge.log)
          rw [written, if_pos rfl, hclean.output hf hj]

/-! ## New ids -/

theorem Issued.later (h : bridge.Issued platform id) {after : StorageBridge}
    (huuids : bridge.uuids ≤ after.uuids) : after.Issued platform id := by
  obtain ⟨k, hk, rfl⟩ := h
  exact ⟨k, hk.trans_le huuids, rfl⟩

/-- The next id was not given to anything. -/
theorem not_issued : ¬ bridge.Issued platform (platform.uuid bridge.uuids) := by
  rintro ⟨k, hk, heq⟩
  exact absurd (platform.uuid_injective heq) (Nat.ne_of_gt hk)

theorem results_of_not_issued (h : bridge.Sound fromJson platform)
    (hnew : ¬ bridge.Issued platform id) : results id bridge.log = 0 := by
  rw [results, List.countP_eq_zero]
  intro event hevent hreports
  cases event with
  | finished own result =>
      have howner : own = id := of_decide_eq_true hreports
      exact hnew (howner ▸ h.issued _ hevent)
  | _ => cases hreports

/-- A refused request waits with its error. -/
theorem Sound.refuse (h : bridge.Sound fromJson platform) {result : StorageResult}
    (hok : result.ok = false) :
    Sound fromJson platform
      { bridge with
        uuids := bridge.uuids + 1
        refusals := bridge.refusals ++ [(platform.uuid bridge.uuids, result)] } where
  issued event hevent := (h.issued event hevent).later (Nat.le_succ _)
  known own hown := (h.known own hown).later (Nat.le_succ _)
  queued refusal hrefusal := by
    rcases List.mem_append.1 hrefusal with hold | hnew
    · obtain ⟨hissued, hrest⟩ := h.queued refusal hold
      exact ⟨hissued.later (Nat.le_succ _), hrest⟩
    · obtain rfl := List.mem_singleton.1 hnew
      have hfresh : ¬ bridge.Issued platform (platform.uuid bridge.uuids) := not_issued
      have hnone := results_of_not_issued h hfresh
      exact ⟨⟨bridge.uuids, Nat.lt_succ_self _, rfl⟩, fun hmem => hfresh (h.known _ hmem), hok,
        hnone⟩
  distinct := by
    rw [List.map_append, List.map_singleton, List.nodup_append]
    refine ⟨h.distinct, List.nodup_singleton _, fun own hown other hother heq => ?_⟩
    obtain ⟨refusal, hrefusal, rfl⟩ := List.mem_map.1 hown
    rw [List.mem_singleton] at hother
    exact not_issued (hother ▸ heq ▸ (h.queued refusal hrefusal).1)
  once := h.once
  job := h.job
  request := h.request
  listed := h.listed
  nodup := h.nodup
  few := h.few
  truthful := h.truthful

/-- The result of a refused request is told once. -/
theorem Sound.refused (h : bridge.Sound fromJson platform) :
    bridge.refused.Sound fromJson platform := by
  unfold StorageBridge.refused
  cases hrefusals : bridge.refusals with
  | nil => exact h
  | cons refusal rest =>
      obtain ⟨hissued, hout, hok, hnone⟩ := h.queued refusal (by simp [hrefusals])
      have hdistinct := h.distinct
      rw [hrefusals, List.map_cons, List.nodup_cons] at hdistinct
      -- The refusal counts for its own id only.
      have hother : ∀ {own : String}, own ≠ refusal.1 →
          results own (.finished refusal.1 refusal.2 :: bridge.log) = results own bridge.log := by
        intro own hne
        rw [results_finished, if_neg (Ne.symm hne), add_zero]
      refine
        { issued := fun event hevent => ?_
          known := h.known
          queued := fun waiting hwaiting => ?_
          distinct := hdistinct.2
          once := fun own => ?_
          job := fun own current hcurrent => ?_
          request := fun own request program arguments hstart => ?_
          listed := h.listed
          nodup := h.nodup
          few := h.few
          truthful := h.truthful.cons fun own result heq hok' => ?_ }
      · rcases List.mem_cons.1 hevent with rfl | hold
        · exact hissued
        · exact h.issued event hold
      · have hlater : waiting ∈ rest := hwaiting
        obtain ⟨hissued', hout', hok', hnone'⟩ := h.queued waiting (by simp [hrefusals, hlater])
        refine ⟨hissued', hout', hok', (hother fun heq => ?_).trans hnone'⟩
        exact hdistinct.1 (List.mem_map.2 ⟨waiting, hwaiting, heq⟩)
      · by_cases heq : own = refusal.1
        · rw [heq]
          refine (results_finished ..).le.trans ?_
          rw [hnone, if_pos rfl]
        · exact (hother heq).le.trans (h.once own)
      · have hne : own ≠ refusal.1 := by
          rintro rfl
          exact hout (Table.mem_of_lookup hcurrent)
        obtain ⟨hlisted, hresults, hsmall, hclean, request, program, arguments, hmem⟩ :=
          h.job own current hcurrent
        refine ⟨hlisted, ?_, hsmall, fun hno => (hclean hno).cons_ne (Ne.symm hne), request,
          program,
          arguments, List.mem_cons_of_mem _ hmem⟩
        exact hresults.trans (by rw [← hother hne]; rfl)
      · rcases List.mem_cons.1 hstart with heq | hold
        · cases heq
        · exact h.request own request program arguments hold
      -- A refusal is not `ok`.
      · obtain ⟨rfl, rfl⟩ := JobEvent.finished.inj heq
        rw [hok] at hok'
        cases hok'

/-- A request that is accepted has a new job. -/
theorem Sound.insert (h : bridge.Sound fromJson platform) (hroom : bridge.jobs.length < 4)
    (request : StorageRequest) (program : String) (arguments : List String) :
    Sound fromJson platform (({ bridge with
      uuids := bridge.uuids + 1
      objects := bridge.objects.insert (platform.uuid bridge.uuids)
        { json := structured request.operation }
      jobs := platform.uuid bridge.uuids :: bridge.jobs }).emit
        (.started (platform.uuid bridge.uuids) request program arguments)) := by
  -- The uuid is the next one, so no job and no refusal has it.
  have hnew : ¬ bridge.Issued platform (platform.uuid bridge.uuids) := not_issued
  generalize hid : platform.uuid bridge.uuids = id at hnew ⊢
  have hissued : ∀ after : StorageBridge, after.uuids = bridge.uuids + 1 →
      after.Issued platform id := fun after huuids => ⟨bridge.uuids, by omega, hid.symm⟩
  -- A start is no result.
  have hresults : ∀ own, results own (.started id request program arguments :: bridge.log) =
      results own bridge.log := by
    intro own
    rw [results, results, List.countP_cons]
    simp [JobEvent.reports]
  have hnone := results_of_not_issued h hnew
  have hold : ∀ own, own ∈ bridge.objects → own ≠ id := by
    rintro own hmem rfl
    exact hnew (h.known own hmem)
  refine
    { issued := fun event hevent => ?_
      known := fun own hown => ?_
      queued := fun refusal hrefusal => ?_
      distinct := h.distinct
      once := fun own => (hresults own).le.trans (h.once own)
      job := fun own current hcurrent => ?_
      request := fun own asked path list hstart => ?_
      listed := fun own hown => ?_
      nodup := List.nodup_cons.2 ⟨fun hmem => hold id (h.listed id hmem) rfl, h.nodup⟩
      few := hroom
      truthful := h.truthful.cons fun own result heq => by cases heq }
  · rcases List.mem_cons.1 hevent with rfl | hmem
    · exact hissued _ rfl
    · exact (h.issued event hmem).later (Nat.le_succ _)
  · rcases AList.mem_insert _ |>.1 hown with rfl | hmem
    · exact hissued _ rfl
    · exact (h.known own hmem).later (Nat.le_succ _)
  · obtain ⟨hissued', hout, hok, hzero⟩ := h.queued refusal hrefusal
    refine ⟨hissued'.later (Nat.le_succ _), fun hmem => ?_, hok, (hresults _).trans hzero⟩
    rcases AList.mem_insert _ |>.1 hmem with heq | hmem
    · exact hnew (heq ▸ hissued')
    · exact hout hmem
  · rcases Table.lookup_insert_eq_some.1 hcurrent with ⟨rfl, rfl⟩ | ⟨hne, hlookup⟩
    · refine ⟨?_, ?_, Nat.zero_le _, fun _ => ?_, request, program, arguments, List.mem_cons_self⟩
      · exact iff_of_true List.mem_cons_self rfl
      · exact iff_of_true rfl ((hresults own).trans hnone)
      · exact .of_silent rfl fun event hevent heq => hnew (heq ▸ h.issued event hevent)
    · obtain ⟨hlisted, hdone, hsmall, hclean, asked, path, list, hmem⟩ := h.job own current hlookup
      refine ⟨?_, ?_, hsmall, fun hno => (hclean hno).cons_ne (Ne.symm hne), asked, path, list,
        List.mem_cons_of_mem _ hmem⟩
      · rw [← hlisted]
        exact List.mem_cons.trans (or_iff_right hne)
      · rw [emit, hresults]
        exact hdone
  · rcases List.mem_cons.1 hstart with heq | hmem
    · obtain ⟨rfl, rfl, -, -⟩ := JobEvent.started.inj heq
      exact ⟨_, AList.lookup_insert .., rfl⟩
    · obtain ⟨current, hcurrent, hsame⟩ := h.request own asked path list hmem
      refine ⟨current, ?_, hsame⟩
      exact Table.lookup_insert_eq_some.2 (.inr ⟨hold own (Table.mem_of_lookup hcurrent), hcurrent⟩)
  · rcases List.mem_cons.1 hown with rfl | hmem
    · exact AList.mem_insert _ |>.2 (.inl rfl)
    · exact AList.mem_insert _ |>.2 (.inr (h.listed own hmem))

/-! ## Whole runs -/

variable {o : StorageBridgeOptions}

/-- A request is accepted only when the table has room. -/
theorem startError_room {disk : Disk} {request : StorageRequest} {jobs : ℕ}
    (h : startError disk o request jobs = "") : jobs < 4 := by
  by_contra hfull
  rw [not_lt] at hfull
  unfold startError at h
  simp only [ge_iff_le, hfull, if_true] at h
  split at h
  · contradiction
  split at h
  · next hsource => exact hsource.2 h
  split at h
  · next hdestination => exact hdestination.2 h
  obtain ⟨-, h⟩ := accepted_ite (by decide) h
  exact absurd h (by decide)

theorem Sound.start (h : bridge.Sound fromJson platform) (disk : Disk) (request : StorageRequest)
    (spawned : Bool) :
    (bridge.start fromJson platform o disk request spawned).Sound fromJson platform := by
  unfold StorageBridge.start
  dsimp only
  by_cases herror : startError disk o request bridge.jobs.length ≠ ""
  · rw [if_pos herror]
    exact h.refuse rfl
  rw [if_neg herror]
  have hroom := startError_room (not_not.1 herror)
  have hinserted := h.insert hroom request (executable disk o)
    (operationArguments request ++ commonArguments o)
  cases spawned with
  | true => exact hinserted
  | false => exact hinserted.failedToStart _

theorem Sound.next (h : bridge.Sound fromJson platform) (input : Input) :
    (next fromJson platform o bridge input).Sound fromJson platform := by
  cases input with
  | start disk request spawned => exact h.start disk request spawned
  | cancel id => exact h.cancel id
  | refused => exact h.refused
  | standardOutput id bytes => exact h.readStandardOutput id bytes
  | standardError id => exact h
  | exited id code status => exact h.exited id code status
  | failedToStart id => exact h.failedToStart id
  | timeout id => exact h.timeout id

theorem Sound.empty : ({} : StorageBridge).Sound fromJson platform where
  issued event hevent := absurd hevent List.not_mem_nil
  known own hown := absurd hown (by simp)
  queued refusal hrefusal := absurd hrefusal List.not_mem_nil
  distinct := List.nodup_nil
  once own := Nat.zero_le _
  job own current hcurrent := by simp at hcurrent
  request own request program arguments hstart := absurd hstart List.not_mem_nil
  listed own hown := absurd hown List.not_mem_nil
  nodup := List.nodup_nil
  few := Nat.zero_le _
  truthful := .nil

/-- What a bridge promises about its jobs. -/
structure Reported (fromJson : Bytes → Option Json) (bridge : StorageBridge) : Prop where
  once : ∀ id, results id bridge.log ≤ 1
  table : ∀ id, id ∈ bridge.jobs ↔
    (∃ request program arguments, .started id request program arguments ∈ bridge.log) ∧
      results id bridge.log = 0
  few : bridge.jobs.Nodup ∧ bridge.jobs.length ≤ 4
  buffered : ∀ id job, bridge.objects.lookup id = some job → job.output.length ≤ outputLimit
  truthful : Always (Truthful fromJson) bridge.log

/-- **One truthful result.**  In any order of requests, cancellations, output, exits, failed
starts and timeouts, a job has at most one result and is in the table until then, at most
four are, their output is bounded, and a result that is ok is true. -/
theorem run_reported {trace : List (StorageBridge × Input)}
    (run : (machine fromJson platform o).Run (fun _ _ => True) trace bridge) :
    bridge.Reported fromJson := by
  have hsound : bridge.Sound fromJson platform := by
    refine run.invariant_state (I := fun bridge => bridge.Sound fromJson platform) ?_ ?_
    · rintro bridge rfl
      exact .empty
    · exact fun bridge input hsound _ => hsound.next input
  refine ⟨hsound.once, fun id => ?_, ⟨hsound.nodup, hsound.few⟩, ?_, hsound.truthful⟩
  · constructor
    · intro hlisted
      obtain ⟨job, hlookup⟩ := Table.mem_iff_lookup.1 (hsound.listed id hlisted)
      obtain ⟨htable, hresults, -, -, hstarted⟩ := hsound.job id job hlookup
      exact ⟨hstarted, hresults.1 (htable.1 hlisted)⟩
    · rintro ⟨⟨request, program, arguments, hstarted⟩, hnone⟩
      obtain ⟨job, hlookup, -⟩ := hsound.request id request program arguments hstarted
      obtain ⟨htable, hresults, -⟩ := hsound.job id job hlookup
      exact htable.2 (hresults.2 hnone)
  · exact fun id job hlookup => (hsound.job id job hlookup).2.2.1

/-- A parser that knows the empty array. -/
def emptyArray (bytes : Bytes) : Option Json := if bytes = [91, 93] then some (.array []) else none

/-- The event is a result of the job that is ok. -/
def JobEvent.succeeds (id : String) : JobEvent → Bool
  | .finished own result => own = id && result.ok
  | _ => false

/-- A listing that ends well. -/
theorem run_reported_list : ∃ trace bridge,
    (machine emptyArray .sample { runtimeDirectory := "/run" }).Run (fun _ _ => True) trace bridge ∧
    bridge.Reported emptyArray ∧ results "0" bridge.log = 1 ∧ bridge.jobs = [] ∧
    bridge.log.any (JobEvent.succeeds "0") = true := by
  have hstart : (machine emptyArray .sample { runtimeDirectory := "/run" }).Run
      (fun _ _ => True) [] {} := .start rfl
  have run := hstart.visits [.start .sample { source := "/srv" } true,
    .standardOutput "0" [91], .standardOutput "0" [93], .exited "0" 0 .normalExit]
    ⟨trivial, trivial, trivial, trivial, trivial⟩
  exact ⟨_, _, run, run_reported run, by decide +kernel, by decide +kernel, by decide +kernel⟩

end StorageBridge

end Storage

end ServerHost
