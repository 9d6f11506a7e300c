import ServerHost.Peer.Turn

/-!
# Requests are completed once

An id leaves the table of requests when it is completed.  `remote`, `local`,
`lost` and `sweep` walk a snapshot of the ids and read the table with
`requests[id]`, which makes an empty entry for an id that is gone: a
disconnected handler or a slot that ran in the middle of the walk may have
completed it.  As long as no such entry is made, requests are conserved, and an entry
that is made spoils them for good.
-/

namespace ServerHost

namespace Peer

/-- The id was returned by `request`. -/
def Issued (log : List Entry) (id : String) : Prop :=
  (∃ peerId payload deadline, .requested id peerId payload deadline ∈ events log) ∨
    .refused id ∈ events log

/-- A completion is the first one of an id that was issued. -/
def Once (entry : Entry) (earlier : List Entry) : Prop :=
  ∀ id result transport cause, entry.event = .completed id result transport cause →
    Issued earlier id ∧ ¬ Completed earlier id

/-- Each request is completed at most once, is in the table until then and never
again, and keeps what `request` stored. -/
structure Conserved (peer : Peer) : Prop where
  once : Always Once peer.log
  gone : Table.All (fun id _ => ¬ Completed peer.log id) peer.requests
  left : ∀ id peerId payload deadline,
    .requested id peerId payload deadline ∈ events peer.log → Known peer id
  stored : Table.All (fun id request => request.deadline ≠ ⊥ ∧
    .requested id request.peer request.payload request.deadline ∈ events peer.log) peer.requests

/-! ## What happens to the requests -/

/-- The events that do not concern the table of requests. -/
def Event.aside : Event → Bool
  | .requested .. | .refused _ | .completed .. | .recreated _ => false
  | _ => true

/-- What a change does to the requests. -/
inductive Move (platform : Platform) : Peer → Peer → Prop
  | still {peer after : Peer} : after.requests = peer.requests → after.refusals = peer.refusals →
      peer.uuids ≤ after.uuids →
      Grows (fun entry => entry.event.aside = true) peer.log after.log → Move platform peer after
  | hand {peer after : Peer} (id : String) (channel : Channel) :
      after.requests = Table.modify id (Pending.over channel) peer.requests →
      after.refusals = peer.refusals → after.uuids = peer.uuids →
      Grows (fun entry => entry.event.aside = true) peer.log after.log → Move platform peer after
  | take {peer : Peer} {id : String} {request : Pending} (cause : Option Channel)
      (result : JsonObject) : peer.requests.lookup id = some request →
      Move platform peer ({ peer with requests := peer.requests.erase id }.emit
        (.completed id result request.transport cause))
  | refuse {peer : Peer} {id : String} (result : JsonObject) : id ∈ peer.refusals →
      Move platform peer ({ peer with refusals := peer.refusals.erase id }.emit
        (.completed id result "" none))
  | recreate {peer : Peer} {id : String} : id ∉ peer.requests → Completed peer.log id →
      Move platform peer ({ peer with requests := peer.requests.insert id {} }.emit (.recreated id))
  | request {peer : Peer} (peerId : String) (payload : JsonObject) (time : ℤ)
      (starts : List String) : Move platform peer ({ peer with
        uuids := peer.uuids + 1
        requests := peer.requests.insert (platform.uuid peer.uuids)
          { peer := peerId, payload := payload, deadline := (time : DateTime) }
        starts := starts }.emit
          (.requested (platform.uuid peer.uuids) peerId payload (time : DateTime)))
  | decline {peer : Peer} : Move platform peer ({ peer with
        uuids := peer.uuids + 1
        refusals := peer.refusals ++ [platform.uuid peer.uuids] }.emit
          (.refused (platform.uuid peer.uuids)))

variable {platform : Platform} {pre : Peer} {step : Step} {peer after : Peer}

theorem aside_of_plain {event : Event} (h : event.plain = true) : event.aside = true := by
  cases event <;> simp_all [Event.plain, Event.aside]

theorem move_of_change (change : Change platform pre step peer after) :
    Move platform peer after := by
  have hone : ∀ {time : ℤ} {event : Event} {log : List Entry}, event.aside = true →
      Grows (fun entry => entry.event.aside = true) log (⟨time, event⟩ :: log) := fun h => .cons h
  cases change with
  | quiet hquiet =>
      refine .still hquiet.requests hquiet.refusals hquiet.uuids ?_
      exact hquiet.log.mono fun _ hplain => aside_of_plain hplain
  -- a completion, of whatever cause, takes the request out of the table
  | take result hmem =>
      obtain ⟨request, hrequest⟩ := Table.mem_iff_lookup.1 hmem
      rw [take_of_lookup hrequest]
      exact .take none result hrequest
  | answer result hrequest =>
      rw [take_of_lookup hrequest]
      exact .take _ result hrequest
  | refuse hmem => exact .refuse _ hmem
  | recreate hnone hcompleted =>
      rw [index_of_not_mem hnone]
      exact .recreate hnone hcompleted
  | hand => exact .hand _ _ rfl rfl rfl (hone rfl)
  | handSent => exact .hand _ _ rfl rfl rfl (Grows.trans (hone rfl) (hone rfl))
  | request peerId payload =>
      simp only [Peer.request]
      split
      · exact .decline
      · exact .request peerId payload _ _
  | ticket =>
      simp only [ticketMessage]
      split
      · exact .still rfl rfl le_rfl (.of_eq rfl)
      · exact .still rfl rfl le_rfl (hone rfl)
  | relayLost | flushing | dial | reach | present | unlink | greeted | serve =>
      exact .still rfl rfl le_rfl (hone rfl)
  | _ => exact .still rfl rfl le_rfl (.of_eq rfl)

/-- The ids are numbered in the order of their issue, and a refused id waits for
its only completion. -/
structure Numbered (platform : Platform) (peer : Peer) : Prop where
  issued : ∀ id, Issued peer.log id → ∃ number < peer.uuids, id = platform.uuid number
  entered : ∀ id ∈ peer.requests, Issued peer.log id
  completed : ∀ id, Completed peer.log id → Issued peer.log id
  refused : ∀ id ∈ peer.refusals, .refused id ∈ events peer.log ∧ ¬ Completed peer.log id ∧
    id ∉ peer.requests
  apart : peer.refusals.Nodup

section
variable {log more : List Entry} {id : String} {event : Event}

theorem mem_events_of_aside (h : Grows (fun entry => entry.event.aside = true) log more)
    (hevent : event.aside = false) : event ∈ events more ↔ event ∈ events log := by
  obtain ⟨new, rfl, hall⟩ := h
  rw [events, List.map_append, List.mem_append, or_iff_right]
  · rfl
  · rintro hmem
    obtain ⟨entry, hentry, rfl⟩ := List.mem_map.1 hmem
    simp [hall entry hentry] at hevent

theorem completed_aside (h : Grows (fun entry => entry.event.aside = true) log more) :
    Completed more id ↔ Completed log id := by
  constructor <;> rintro ⟨result, transport, cause, hmem⟩
  · exact ⟨result, transport, cause, (mem_events_of_aside h rfl).1 hmem⟩
  · exact ⟨result, transport, cause, (mem_events_of_aside h rfl).2 hmem⟩

theorem issued_aside (h : Grows (fun entry => entry.event.aside = true) log more) :
    Issued more id ↔ Issued log id := by
  refine or_congr ?_ (mem_events_of_aside h rfl)
  constructor <;> rintro ⟨peerId, payload, deadline, hmem⟩
  · exact ⟨peerId, payload, deadline, (mem_events_of_aside h rfl).1 hmem⟩
  · exact ⟨peerId, payload, deadline, (mem_events_of_aside h rfl).2 hmem⟩

theorem completed_cons {entry : Entry} : Completed (entry :: log) id ↔
    (∃ result transport cause, entry.event = .completed id result transport cause) ∨
      Completed log id := by
  simp only [Completed, events_cons, List.mem_cons]
  constructor
  · rintro ⟨result, transport, cause, hnew | hold⟩
    · exact .inl ⟨result, transport, cause, hnew.symm⟩
    · exact .inr ⟨result, transport, cause, hold⟩
  · rintro (⟨result, transport, cause, hnew⟩ | ⟨result, transport, cause, hold⟩)
    · exact ⟨result, transport, cause, .inl hnew.symm⟩
    · exact ⟨result, transport, cause, .inr hold⟩

theorem Issued.cons (h : Issued log id) (entry : Entry) : Issued (entry :: log) id :=
  h.imp (fun ⟨peerId, payload, deadline, hmem⟩ =>
    ⟨peerId, payload, deadline, List.mem_cons_of_mem _ hmem⟩) (List.mem_cons_of_mem _)

theorem issued_cons {entry : Entry} (h : Issued (entry :: log) id) : Issued log id ∨
    (∃ peerId payload deadline, entry.event = .requested id peerId payload deadline) ∨
      entry.event = .refused id := by
  rcases h with ⟨peerId, payload, deadline, hmem⟩ | hmem <;>
    rcases List.mem_cons.1 hmem with hnew | hold
  · exact .inr (.inl ⟨peerId, payload, deadline, hnew.symm⟩)
  · exact .inl (.inl ⟨peerId, payload, deadline, hold⟩)
  · exact .inr (.inr hnew.symm)
  · exact .inl (.inr hold)

end

/-- The next id is new. -/
theorem Numbered.fresh (h : Numbered platform peer) :
    ¬ Issued peer.log (platform.uuid peer.uuids) := by
  intro hissued
  obtain ⟨number, hlt, heq⟩ := h.issued _ hissued
  exact absurd (platform.uuid_injective heq) hlt.ne'

theorem Numbered.move (h : Numbered platform peer) (move : Move platform peer after) :
    Numbered platform after := by
  cases move with
  | still hrequests hrefusals huuids hlog =>
      -- The history grew by entries that say nothing about ids.
      constructor
      · intro id hissued
        obtain ⟨number, hlt, heq⟩ := h.issued id ((issued_aside hlog).1 hissued)
        exact ⟨number, hlt.trans_le huuids, heq⟩
      · intro id hid
        rw [hrequests] at hid
        exact (issued_aside hlog).2 (h.entered id hid)
      · intro id hcompleted
        exact (issued_aside hlog).2 (h.completed id ((completed_aside hlog).1 hcompleted))
      · intro id hid
        rw [hrefusals] at hid
        obtain ⟨hevent, hwaits, hout⟩ := h.refused id hid
        rw [hrequests, completed_aside hlog, mem_events_of_aside hlog rfl]
        exact ⟨hevent, hwaits, hout⟩
      · rw [hrefusals]
        exact h.apart
  | hand id channel hrequests hrefusals huuids hlog =>
      -- Handing a request over changes its channel and keeps its id in the table.
      constructor
      · intro id hissued
        rw [huuids]
        exact h.issued id ((issued_aside hlog).1 hissued)
      · intro id hid
        rw [hrequests, Table.mem_modify] at hid
        exact (issued_aside hlog).2 (h.entered id hid)
      · intro id hcompleted
        exact (issued_aside hlog).2 (h.completed id ((completed_aside hlog).1 hcompleted))
      · intro id hid
        rw [hrefusals] at hid
        obtain ⟨hevent, hwaits, hout⟩ := h.refused id hid
        rw [hrequests, Table.mem_modify, completed_aside hlog, mem_events_of_aside hlog rfl]
        exact ⟨hevent, hwaits, hout⟩
      · rw [hrefusals]
        exact h.apart
  | @take id request cause result hrequest =>
      -- The id leaves the table for the history: it was issued, so the completion is of an
      -- issued id.  It was not waiting for a refusal, because it stood in the table.
      have hentered := h.entered id (Table.mem_of_lookup hrequest)
      constructor
      · intro other hissued
        refine h.issued other ((issued_cons hissued).resolve_right ?_)
        simp
      · intro other hother
        exact (h.entered other (AList.mem_erase.1 hother).2).cons _
      · intro other hcompleted
        rcases completed_cons.1 hcompleted with ⟨result, transport, cause, heq⟩ | hold
        · obtain ⟨rfl, -⟩ := Event.completed.inj heq
          exact hentered.cons _
        · exact (h.completed other hold).cons _
      · intro other hother
        obtain ⟨hevent, hwaits, hout⟩ := h.refused other hother
        refine ⟨List.mem_cons_of_mem _ hevent, fun hcompleted => ?_,
          fun hmem => hout (AList.mem_erase.1 hmem).2⟩
        rcases completed_cons.1 hcompleted with ⟨result, transport, cause, heq⟩ | hold
        · obtain ⟨rfl, -⟩ := Event.completed.inj heq
          exact hout (Table.mem_of_lookup hrequest)
        · exact hwaits hold
      · exact h.apart
  | @refuse id result hmem =>
      -- The refused id leaves the list.  No id is there twice, so it is not completed again.
      obtain ⟨hevent, hwaits, hout⟩ := h.refused id hmem
      constructor
      · intro other hissued
        refine h.issued other ((issued_cons hissued).resolve_right ?_)
        simp
      · exact fun other hother => (h.entered other hother).cons _
      · intro other hcompleted
        rcases completed_cons.1 hcompleted with ⟨result, transport, cause, heq⟩ | hold
        · obtain ⟨rfl, -⟩ := Event.completed.inj heq
          exact .inr (List.mem_cons_of_mem _ hevent)
        · exact (h.completed other hold).cons _
      · intro other hother
        obtain ⟨hne, hother⟩ := (h.apart.mem_erase_iff).1 hother
        obtain ⟨hevent, hwaits, hout⟩ := h.refused other hother
        refine ⟨List.mem_cons_of_mem _ hevent, fun hcompleted => ?_, hout⟩
        rcases completed_cons.1 hcompleted with ⟨result, transport, cause, heq⟩ | hold
        · exact hne (Event.completed.inj heq).1.symm
        · exact hwaits hold
      · exact h.apart.erase id
  | @recreate id hnone hcompleted =>
      -- `operator[]` put a completed id back: it was issued, and it is not waiting for a
      -- refusal, because no completed id is.
      constructor
      · intro other hissued
        refine h.issued other ((issued_cons hissued).resolve_right ?_)
        simp
      · intro other hother
        rcases (AList.mem_insert _).1 hother with rfl | hold
        · exact (h.completed other hcompleted).cons _
        · exact (h.entered other hold).cons _
      · intro other hcompleted
        refine (h.completed other ((completed_cons.1 hcompleted).resolve_left ?_)).cons _
        simp
      · intro other hother
        obtain ⟨hevent, hwaits, hout⟩ := h.refused other hother
        refine ⟨List.mem_cons_of_mem _ hevent, fun hagain => ?_, fun hmem => ?_⟩
        · exact hwaits ((completed_cons.1 hagain).resolve_left (by simp))
        · rcases (AList.mem_insert _).1 hmem with rfl | hold
          · exact hwaits hcompleted
          · exact hout hold
      · exact h.apart
  | request peerId payload time starts =>
      -- The id is the next one of the generator, so nothing so far knows it.
      have hfresh := h.fresh
      constructor
      · intro other hissued
        rcases issued_cons hissued with hold | ⟨peerId, payload, deadline, heq⟩ | heq
        · obtain ⟨number, hlt, heq⟩ := h.issued other hold
          exact ⟨number, hlt.trans (Nat.lt_succ_self _), heq⟩
        · exact ⟨peer.uuids, Nat.lt_succ_self _, (Event.requested.inj heq).1.symm⟩
        · simp at heq
      · intro other hother
        rcases (AList.mem_insert _).1 hother with rfl | hold
        · exact .inl ⟨_, _, _, List.mem_cons_self⟩
        · exact (h.entered other hold).cons _
      · intro other hcompleted
        refine (h.completed other ((completed_cons.1 hcompleted).resolve_left ?_)).cons _
        simp
      · intro other hother
        obtain ⟨hevent, hwaits, hout⟩ := h.refused other hother
        refine ⟨List.mem_cons_of_mem _ hevent, fun hagain => ?_, fun hmem => ?_⟩
        · exact hwaits ((completed_cons.1 hagain).resolve_left (by simp))
        · rcases (AList.mem_insert _).1 hmem with rfl | hold
          · exact hfresh (.inr hevent)
          · exact hout hold
      · exact h.apart
  | decline =>
      -- The same for an id that only waits for its refusal.
      have hfresh := h.fresh
      have hnone : ¬ Completed peer.log (platform.uuid peer.uuids) :=
        fun hcompleted => hfresh (h.completed _ hcompleted)
      constructor
      · intro other hissued
        rcases issued_cons hissued with hold | ⟨peerId, payload, deadline, heq⟩ | heq
        · obtain ⟨number, hlt, heq⟩ := h.issued other hold
          exact ⟨number, hlt.trans (Nat.lt_succ_self _), heq⟩
        · simp at heq
        · exact ⟨peer.uuids, Nat.lt_succ_self _, (Event.refused.inj heq).symm⟩
      · exact fun other hother => (h.entered other hother).cons _
      · intro other hcompleted
        refine (h.completed other ((completed_cons.1 hcompleted).resolve_left ?_)).cons _
        simp
      · intro other hother
        have hsame : Completed (⟨peer.now, .refused (platform.uuid peer.uuids)⟩ :: peer.log) other ↔
            Completed peer.log other := by simp [completed_cons]
        rcases List.mem_append.1 hother with hold | hnew
        · obtain ⟨hevent, hwaits, hout⟩ := h.refused other hold
          exact ⟨List.mem_cons_of_mem _ hevent, fun hagain => hwaits (hsame.1 hagain), hout⟩
        · obtain rfl := List.mem_singleton.1 hnew
          exact ⟨List.mem_cons_self, fun hagain => hnone (hsame.1 hagain),
            fun hmem => hfresh (h.entered _ hmem)⟩
      · refine List.nodup_append.2 ⟨h.apart, List.nodup_singleton _, ?_⟩
        intro other hold own hnew heq
        obtain rfl := List.mem_singleton.1 hnew
        exact hfresh (.inr (heq ▸ (h.refused other hold).1))

theorem run_numbered {trace : List (Peer × Step)}
    (run : (machine platform).Run (fun _ _ => True) trace peer) : Numbered platform peer := by
  refine run.invariant_state ?_ fun state input h _ =>
    (next_changes platform state input).invariant
      (fun _ _ change hstate => hstate.move (move_of_change change)) h
  -- A peer starts without requests, refusals and history.
  rintro state ⟨time, rfl⟩
  refine ⟨fun id hissued => ?_, fun id hid => ?_, fun id hcompleted => ?_, by simp, .nil⟩
  · simp [Issued, events] at hissued
  · exact absurd hid (AList.notMem_empty id)
  · simp [Completed, events] at hcompleted

/-! ## Without a stray -/

/-- What is conserved as long as no walk strays. -/
structure Sound (peer : Peer) : Prop where
  once : Always Once peer.log
  gone : Table.All (fun id _ => ¬ Completed peer.log id) peer.requests
  stored : Table.All (fun id request => request.deadline ≠ ⊥ ∧
    .requested id request.peer request.payload request.deadline ∈ events peer.log) peer.requests

theorem once_of_aside {log more : List Entry} (h : Always Once log)
    (hlog : Grows (fun entry => entry.event.aside = true) log more) : Always Once more := by
  obtain ⟨new, rfl, hall⟩ := hlog
  refine h.append fun entry hentry earlier id result transport cause heq => ?_
  have haside := hall entry hentry
  simp [heq, Event.aside] at haside

theorem Sound.move (h : Sound peer) (hnumbered : Numbered platform peer)
    (move : Move platform peer after)
    (hstrays : ∀ id, .recreated id ∉ events after.log) : Sound after := by
  cases move with
  | still hrequests hrefusals huuids hlog =>
      refine ⟨once_of_aside h.once hlog, fun id request hrequest => ?_,
        fun id request hrequest => ?_⟩
      · rw [hrequests] at hrequest
        rw [completed_aside hlog]
        exact h.gone id request hrequest
      · rw [hrequests] at hrequest
        rw [mem_events_of_aside hlog rfl]
        exact h.stored id request hrequest
  | hand id channel hrequests hrefusals huuids hlog =>
      -- The deadline, the peer and the payload of a request stay when it is handed over.
      refine ⟨once_of_aside h.once hlog, ?_, ?_⟩
      · rw [hrequests]
        refine (h.gone.imp fun id _ _ => ?_).modify fun request hrequest => ?_
        · exact fun hwaits hcompleted => hwaits ((completed_aside hlog).1 hcompleted)
        · exact fun hcompleted => h.gone id request hrequest ((completed_aside hlog).1 hcompleted)
      · have hstored : Table.All (fun id request => request.deadline ≠ ⊥ ∧
            .requested id request.peer request.payload request.deadline ∈ events after.log)
            peer.requests := h.stored.imp fun id request _ hold =>
          ⟨hold.1, (mem_events_of_aside hlog rfl).2 hold.2⟩
        rw [hrequests]
        refine hstored.modify fun request hrequest => ?_
        have hkept := hstored id request hrequest
        cases channel <;> exact hkept
  | @take id request cause result hrequest =>
      -- This is where `Once` is used up: the id was not completed, and it is gone now.
      have hmem := Table.mem_of_lookup hrequest
      refine ⟨h.once.cons ?_, fun other own hown => ?_, fun other own hown => ?_⟩
      · intro other result transport cause heq
        obtain ⟨rfl, -⟩ := Event.completed.inj heq
        exact ⟨hnumbered.entered id hmem, h.gone id request hrequest⟩
      · obtain ⟨hne, hold⟩ := Table.lookup_erase_eq_some.1 hown
        intro hcompleted
        rcases completed_cons.1 hcompleted with ⟨result, transport, cause, heq⟩ | hbefore
        · exact hne (Event.completed.inj heq).1.symm
        · exact h.gone other own hold hbefore
      · obtain ⟨hdeadline, hevent⟩ := h.stored other own (Table.lookup_erase_eq_some.1 hown).2
        exact ⟨hdeadline, List.mem_cons_of_mem _ hevent⟩
  | @refuse id result hmem =>
      obtain ⟨hevent, hwaits, hout⟩ := hnumbered.refused id hmem
      refine ⟨h.once.cons ?_, fun other own hown => ?_, fun other own hown => ?_⟩
      · intro other result transport cause heq
        obtain ⟨rfl, -⟩ := Event.completed.inj heq
        exact ⟨.inr hevent, hwaits⟩
      · intro hcompleted
        rcases completed_cons.1 hcompleted with ⟨result, transport, cause, heq⟩ | hbefore
        · obtain ⟨rfl, -⟩ := Event.completed.inj heq
          exact hout (Table.mem_of_lookup hown)
        · exact h.gone other own hown hbefore
      · obtain ⟨hdeadline, hevent⟩ := h.stored other own hown
        exact ⟨hdeadline, List.mem_cons_of_mem _ hevent⟩
  | recreate => exact absurd List.mem_cons_self (hstrays _)
  -- The walk would have strayed.
  | request peerId payload time starts =>
      -- The new id was never issued, so it was never completed either.
      have hnone : ¬ Completed peer.log (platform.uuid peer.uuids) :=
        fun hcompleted => hnumbered.fresh (hnumbered.completed _ hcompleted)
      refine ⟨h.once.cons ?_, ?_, ?_⟩
      · simp [Once]
      · intro other own hown hcompleted
        have hbefore := (completed_cons.1 hcompleted).resolve_left (by simp)
        rcases Table.lookup_insert_eq_some.1 hown with ⟨rfl, -⟩ | ⟨-, hold⟩
        · exact hnone hbefore
        · exact h.gone other own hold hbefore
      · intro other own hown
        rcases Table.lookup_insert_eq_some.1 hown with ⟨rfl, rfl⟩ | ⟨-, hold⟩
        · exact ⟨WithBot.coe_ne_bot, List.mem_cons_self⟩
        · obtain ⟨hdeadline, hevent⟩ := h.stored other own hold
          exact ⟨hdeadline, List.mem_cons_of_mem _ hevent⟩
  | decline =>
      refine ⟨h.once.cons (by simp [Once]), fun other own hown hcompleted => ?_,
        fun other own hown => ?_⟩
      · exact h.gone other own hown ((completed_cons.1 hcompleted).resolve_left (by simp))
      · obtain ⟨hdeadline, hevent⟩ := h.stored other own hown
        exact ⟨hdeadline, List.mem_cons_of_mem _ hevent⟩

/-! ## After a stray -/

/-- An entry that was made anew is completed again, sooner or later. -/
def Spoilt (peer : Peer) : Prop :=
  ∀ id, .recreated id ∈ events peer.log →
    (id ∈ peer.requests ∧ Completed peer.log id) ∨ ¬ Always Once peer.log

theorem Spoilt.move (h : Spoilt peer) (move : Move platform peer after) : Spoilt after := by
  intro id hstray
  cases move with
  | still hrequests hrefusals huuids hlog =>
      rcases h id ((mem_events_of_aside hlog rfl).1 hstray) with ⟨hmem, hcompleted⟩ | htwice
      · exact .inl ⟨hrequests ▸ hmem, (completed_aside hlog).2 hcompleted⟩
      · refine .inr fun hafter => htwice ?_
        obtain ⟨new, hsplit, -⟩ := hlog
        exact Always.of_append (hsplit ▸ hafter)
  | hand own channel hrequests hrefusals huuids hlog =>
      rcases h id ((mem_events_of_aside hlog rfl).1 hstray) with ⟨hmem, hcompleted⟩ | htwice
      · exact .inl ⟨hrequests ▸ Table.mem_modify.2 hmem, (completed_aside hlog).2 hcompleted⟩
      · refine .inr fun hafter => htwice ?_
        obtain ⟨new, hsplit, -⟩ := hlog
        exact Always.of_append (hsplit ▸ hafter)
  -- taking the stray out completes it for the second time
  | @take own request cause result hrequest =>
      rcases h id (by simpa using hstray) with ⟨hmem, hcompleted⟩ | htwice
      · by_cases hsame : id = own
        · subst hsame
          exact .inr fun hafter => (hafter.head _ _ _ _ rfl).2 hcompleted
        · exact .inl ⟨AList.mem_erase.2 ⟨hsame, hmem⟩, completed_cons.2 (.inr hcompleted)⟩
      · exact .inr fun hafter => htwice hafter.tail
  | refuse result hwaits =>
      rcases h id (by simpa using hstray) with ⟨hmem, hcompleted⟩ | htwice
      · exact .inl ⟨hmem, completed_cons.2 (.inr hcompleted)⟩
      · exact .inr fun hafter => htwice hafter.tail
  | @recreate own hnone hagain =>
      rcases List.mem_cons.1 hstray with heq | hold
      · obtain rfl := Event.recreated.inj heq
        exact .inl ⟨(AList.mem_insert _).2 (.inl rfl), completed_cons.2 (.inr hagain)⟩
      · rcases h id hold with ⟨hmem, hcompleted⟩ | htwice
        · exact .inl ⟨(AList.mem_insert _).2 (.inr hmem), completed_cons.2 (.inr hcompleted)⟩
        · exact .inr fun hafter => htwice hafter.tail
  | request =>
      rcases h id (by simpa using hstray) with ⟨hmem, hcompleted⟩ | htwice
      · exact .inl ⟨(AList.mem_insert _).2 (.inr hmem), completed_cons.2 (.inr hcompleted)⟩
      · exact .inr fun hafter => htwice hafter.tail
  | decline =>
      rcases h id (by simpa using hstray) with ⟨hmem, hcompleted⟩ | htwice
      · exact .inl ⟨hmem, completed_cons.2 (.inr hcompleted)⟩
      · exact .inr fun hafter => htwice hafter.tail

/-! ## The run -/

/-- A request that was made is in the table or completed. -/
def Accounted (peer : Peer) : Prop :=
  ∀ id peerId payload deadline, .requested id peerId payload deadline ∈ events peer.log →
    Known peer id

theorem Accounted.change (h : Accounted peer) (change : Change platform pre step peer after) :
    Accounted after := by
  intro id peerId payload deadline hmem
  by_cases hold : .requested id peerId payload deadline ∈ events peer.log
  · exact known_of_change change (h id peerId payload deadline hold)
  · cases move_of_change change with
    | still hrequests hrefusals huuids hlog =>
        exact absurd ((mem_events_of_aside hlog rfl).1 hmem) hold
    | hand own channel hrequests hrefusals huuids hlog =>
        exact absurd ((mem_events_of_aside hlog rfl).1 hmem) hold
    | request =>
        simp only [emit_log, events_cons, List.mem_cons, hold, or_false] at hmem
        rw [(Event.requested.inj hmem).1]
        exact .inl ((AList.mem_insert _).2 (.inl rfl))
    | take | refuse | recreate | decline => simp [hold] at hmem

/-- No walk strayed so far, or what strayed shows. -/
theorem run_requests {trace : List (Peer × Step)}
    (run : (machine platform).Run (fun _ _ => True) trace peer) :
    Spoilt peer ∧ Accounted peer ∧ ((∀ id, .recreated id ∉ events peer.log) → Sound peer) := by
  have hstep : ∀ pre step (peer after : Peer), Change platform pre step peer after →
      (Numbered platform peer ∧ Spoilt peer ∧ Accounted peer ∧
        ((∀ id, .recreated id ∉ events peer.log) → Sound peer)) →
      Numbered platform after ∧ Spoilt after ∧ Accounted after ∧
        ((∀ id, .recreated id ∉ events after.log) → Sound after) := by
    rintro pre step peer after change ⟨hnumbered, hspoilt, haccounted, hsound⟩
    have hmove := move_of_change change
    refine ⟨hnumbered.move hmove, hspoilt.move hmove, haccounted.change change, fun hnone => ?_⟩
    refine (hsound fun id hmem => ?_).move hnumbered hmove hnone
    exact hnone id (mem_events_of_change change hmem)
  induction run with
  | start h =>
      obtain ⟨time, rfl⟩ := h
      exact ⟨by simp [Spoilt, events], by simp [Accounted, events],
        fun _ => ⟨.nil, .empty _, .empty _⟩⟩
  | @step trace state input run _ ih =>
      exact ((next_changes platform state input).invariant (hstep state input)
        ⟨run_numbered run, ih⟩).2

/-- Sockets that take everything, and an application without slots. -/
def World.sample : World where
  send _ := .accepted
  finishes _ := false
  slot _ := []
  depth := 1
  handle _ _ := some ⟨[("ok", .bool true)]⟩
  interfaces := []
  requestOrder _ keys := keys
  requestOrder_perm _ _ := .refl _
  linkOrder _ keys := keys
  linkOrder_perm _ _ := .refl _

/-- Options that pass every check, for a peer without direct links. -/
def Options.sample : Options :=
  { credential := "c", peerId := "p", localEnabled := false }

end Peer

end ServerHost
