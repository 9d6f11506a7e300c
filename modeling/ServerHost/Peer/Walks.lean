import ServerHost.Peer.Requests

/-!
# What a walk finds

`remote`, `local`, `lost` and `sweep` walk a snapshot of the ids of the requests with
`requests[id]`, which makes an entry for an id that has left the table.  `strays` counts
these entries.  Nothing but the walks makes one (`Straight`), an id that is gone stays
away (`absent_of_changes`), so a walk that has yet to visit it strays (`walk_strays`), and
`stop` empties the table (`acts_absent`).
-/

namespace ServerHost

namespace Peer

/-! ## What is not a walk -/

/-- The event tells of an id that a walk met after it was gone. -/
def Event.stray : Event → Bool
  | .recreated _ => true
  | _ => false

/-- How many ids the walks met that were gone. -/
def strays (log : List Entry) : ℕ := log.countP fun entry => entry.event.stray

/-- Nothing strayed, and no link was made. -/
structure Straight (peer after : Peer) : Prop where
  strays : strays after.log = strays peer.log
  links : peer.links = ∅ → after.links = ∅

theorem Straight.refl (peer : Peer) : Straight peer peer := ⟨rfl, id⟩

theorem Straight.trans {first second third : Peer} (h : Straight first second)
    (h' : Straight second third) : Straight first third :=
  ⟨h'.strays.trans h.strays, h'.links ∘ h.links⟩

theorem Straight.foldl {α : Type*} {f : Peer → α → Peer} (h : ∀ peer a, Straight peer (f peer a))
    (list : List α) (peer : Peer) : Straight peer (list.foldl f peer) := by
  induction list generalizing peer with
  | nil => exact .refl peer
  | cons a rest ih => exact (h peer a).trans (ih (f peer a))

theorem strays_emit {event : Event} (h : event.stray = false) (peer : Peer) :
    strays (peer.emit event).log = strays peer.log :=
  List.countP_cons_of_neg (by simp [h])

theorem take_straight (cause : Option Channel) (id : String) (result : JsonObject) (peer : Peer) :
    Straight peer (peer.take cause id result) := by
  unfold take
  split
  · exact .refl peer
  · exact ⟨strays_emit rfl _, fun h => h⟩

theorem request_straight {platform : Platform} (peerId : String) (payload : JsonObject)
    (peer : Peer) : Straight peer (peer.request platform peerId payload).1 := by
  unfold request
  dsimp only
  split <;> exact ⟨strays_emit rfl _, id⟩

theorem shut_straight (channel : Channel) (peer : Peer) : Straight peer (peer.shut channel) := by
  cases channel <;> exact ⟨strays_emit rfl _, id⟩

theorem scheduleReconnect_straight (peer : Peer) : Straight peer peer.scheduleReconnect := by
  unfold scheduleReconnect
  split <;> exact ⟨rfl, id⟩

theorem relayError_straight (error : String) (peer : Peer) :
    Straight peer (peer.relayError error) := by
  unfold relayError
  split
  · exact .refl peer
  · have hlabel : Straight peer { peer with
        error := if peer.error = "" then error else peer.error } := ⟨rfl, id⟩
    exact hlabel.trans (scheduleReconnect_straight _)

/-- Completing a request strays nowhere. -/
def Straightens (finish : Finish) : Prop :=
  ∀ cause id result peer, Straight peer (finish cause id result peer)

section
variable {platform : Platform} {world : World} {finish : Finish} (hfinish : Straightens finish)
include hfinish

theorem finishAll_straight (result : JsonObject) (peer : Peer) :
    Straight peer (peer.finishAll world finish result) :=
  Straight.foldl (fun peer id => hfinish none id result peer) _ peer

theorem relayLost_straight (peer : Peer) :
    Straight peer ((peer.emit .relayLost).relayLost world finish) := by
  have hdown : Straight peer (peer.emit .relayLost).relayDown.resetLocal :=
    ⟨strays_emit rfl _, fun _ => rfl⟩
  exact hdown.trans ((finishAll_straight hfinish ..).trans (scheduleReconnect_straight _))

theorem relayFinished_straight (error : String) (peer : Peer) :
    Straight peer (peer.relayFinished world finish error) := by
  unfold relayFinished
  split
  · exact .refl peer
  have hclosed : Straight peer { peer with relay := .closed } := ⟨rfl, id⟩
  refine hclosed.trans (Straight.trans ?_ (relayLost_straight hfinish _))
  split
  · exact .refl _
  · exact relayError_straight ..

theorem stop_straight (peer : Peer) : Straight peer (peer.stop world finish) := by
  have hreset : Straight peer { ({ peer with
      running := false
      retry := false
      authTimer := false
      timer := false
      server := none } : Peer).resetLocal with ready := false } := ⟨rfl, fun _ => rfl⟩
  have hrelay : ∀ peer : Peer, Straight peer (peer.relayFinished world finish "") :=
    relayFinished_straight hfinish ""
  have hrequests : ∀ peer : Peer,
      Straight peer (peer.finishAll world finish (errorObject "stopped")) :=
    finishAll_straight hfinish _
  unfold stop
  exact hreset.trans ((hrelay _).trans ((hrequests _).trans ⟨rfl, id⟩))

/-- After `stop` there is no link. -/
theorem stop_links (peer : Peer) : (peer.stop world finish).links = ∅ := by
  unfold stop
  exact (finishAll_straight hfinish _ _).links ((relayFinished_straight hfinish "" _).links rfl)

theorem act_straight (action : Action) (peer : Peer) :
    Straight peer (peer.act platform world finish action) := by
  cases action with
  | stop => exact stop_straight hfinish peer
  | request peerId payload => exact request_straight peerId payload peer

theorem acts_straight (actions : List Action) (peer : Peer) :
    Straight peer (actions.foldl (act platform world finish) peer) :=
  Straight.foldl (fun peer action => act_straight hfinish action peer) actions peer

theorem openRelay_straight (peer : Peer) : Straight peer (peer.openRelay world finish) := by
  unfold openRelay
  split
  · exact .refl peer
  · exact (relayFinished_straight hfinish "" peer).trans ⟨rfl, id⟩

/-- Sending to the relay. -/
theorem sendRelay_straight (message : JsonObject) (peer : Peer) :
    Straight peer (peer.send world finish .relay message).1 := by
  unfold send
  split
  · exact .refl peer
  split
  · exact ⟨strays_emit rfl _, id⟩
  · exact shut_straight .relay peer
  · exact relayFinished_straight hfinish _ peer

end

theorem finish_straight (platform : Platform) (world : World) (depth : ℕ) :
    Straightens (Peer.finish platform world depth) := by
  induction depth with
  | zero => exact take_straight
  | succ depth ih =>
      intro cause id result peer
      simp only [Peer.finish]
      split
      · exact (take_straight cause id result peer).trans (acts_straight ih _ _)
      · exact .refl peer

/-! ## An id that is gone stays away -/

/-- The id was made. -/
def Made (platform : Platform) (id : String) (peer : Peer) : Prop :=
  ∃ number < peer.uuids, id = platform.uuid number

/-- The id was made, and is not in the table. -/
def Absent (platform : Platform) (id : String) (peer : Peer) : Prop :=
  Made platform id peer ∧ id ∉ peer.requests

variable {platform : Platform} {pre : Peer} {step : Step} {peer after : Peer} {id : String}

theorem made_of_move (move : Move platform peer after) (h : Made platform id peer) :
    Made platform id after := by
  obtain ⟨number, hlt, rfl⟩ := h
  refine ⟨number, ?_, rfl⟩
  cases move with
  | still hrequests hrefusals huuids => exact hlt.trans_le huuids
  | hand other channel hrequests hrefusals huuids => exact huuids ▸ hlt
  | request | decline => exact hlt.trans (Nat.lt_succ_self _)
  | _ => exact hlt

theorem made_of_changes (changes : Changes platform pre step peer after)
    (h : Made platform id peer) : Made platform id after :=
  changes.invariant (I := Made platform id)
    (fun _ _ change => made_of_move (move_of_change change)) h

/-- No stray is forgotten, and an id that is gone stays away, unless a walk strays. -/
structure Remembers (platform : Platform) (peer after : Peer) : Prop where
  strays : strays peer.log ≤ strays after.log
  absent : ∀ id, Absent platform id peer →
    Absent platform id after ∨ Peer.strays peer.log < Peer.strays after.log

theorem Remembers.refl (peer : Peer) : Remembers platform peer peer := ⟨le_rfl, fun _ => .inl⟩

theorem Remembers.trans {first second third : Peer} (h : Remembers platform first second)
    (h' : Remembers platform second third) : Remembers platform first third := by
  refine ⟨h.strays.trans h'.strays, fun id habsent => ?_⟩
  rcases h.absent id habsent with hsecond | hlt
  · exact (h'.absent id hsecond).imp_right h.strays.trans_lt
  · exact .inr (hlt.trans_le h'.strays)

theorem strays_of_change (change : Change platform pre step peer after) :
    strays peer.log ≤ strays after.log := by
  obtain ⟨new, hlog, -⟩ := change_log change
  rw [hlog, strays, strays, List.countP_append]
  exact Nat.le_add_left _ _

theorem change_remembers (change : Change platform pre step peer after) :
    Remembers platform peer after := by
  refine ⟨strays_of_change change, fun id habsent => ?_⟩
  obtain ⟨hmade, hgone⟩ := habsent
  have hmove := move_of_change change
  have hafter := made_of_move hmove hmade
  cases hmove with
  | still hrequests => exact .inl ⟨hafter, hrequests ▸ hgone⟩
  | hand other channel hrequests =>
      rw [← Table.mem_modify, ← hrequests] at hgone
      exact .inl ⟨hafter, hgone⟩
  | take => exact .inl ⟨hafter, fun hmem => hgone (AList.mem_erase.1 hmem).2⟩
  | refuse | decline => exact .inl ⟨hafter, hgone⟩
  | recreate =>
      refine .inr ?_
      rw [emit_log, strays, strays, List.countP_cons_of_pos rfl]
      exact Nat.lt_succ_self _
  | request =>
      refine .inl ⟨hafter, fun hmem => ?_⟩
      rcases (AList.mem_insert _).1 hmem with rfl | hold
      · obtain ⟨number, hlt, heq⟩ := hmade
        exact absurd (platform.uuid_injective heq) hlt.ne'
      · exact hgone hold

/-- **An id that is gone stays away**, unless a walk strays. -/
theorem changes_remember (changes : Changes platform pre step peer after) :
    Remembers platform peer after :=
  changes.invariant (I := Remembers platform peer)
    (fun _ _ change hremembers => hremembers.trans (change_remembers change)) (.refl peer)

theorem Straight.absent (h : Straight peer after) (hremembers : Remembers platform peer after)
    (habsent : Absent platform id peer) : Absent platform id after :=
  (hremembers.absent id habsent).resolve_right h.strays.le.not_gt

section
variable {round : Peer → String → Peer}
  (hgone : ∀ peer id, id ∉ peer.requests → strays peer.log < strays (round peer id).log)
  (hround : ∀ peer id, id ∈ peer.requests → Remembers platform peer (round peer id))
include hgone hround

theorem walk_remembers (ids : List String) (peer : Peer) :
    Remembers platform peer (ids.foldl round peer) := by
  induction ids generalizing peer with
  | nil => exact .refl peer
  | cons id rest ih =>
      refine Remembers.trans ?_ (ih (round peer id))
      by_cases hmem : id ∈ peer.requests
      · exact hround peer id hmem
      · exact ⟨(hgone peer id hmem).le, fun _ _ => .inr (hgone peer id hmem)⟩

/-- A walk that has yet to visit an id that is gone strays. -/
theorem walk_strays (ids : List String) {peer : Peer} (h : ∃ id ∈ ids, Absent platform id peer) :
    strays peer.log < strays (ids.foldl round peer).log := by
  induction ids generalizing peer with
  | nil => simp at h
  | cons id rest ih =>
      have hrest := (walk_remembers hgone hround rest (round peer id)).strays
      rw [List.foldl_cons]
      by_cases hmem : id ∈ peer.requests
      · have hremembers := hround peer id hmem
        obtain ⟨other, hother, habsent⟩ := h
        rcases List.mem_cons.1 hother with rfl | hahead
        · exact absurd hmem habsent.2
        rcases hremembers.absent other habsent with hstill | hlt
        · exact hremembers.strays.trans_lt (ih ⟨other, hahead, hstill⟩)
        · exact hlt.trans_le hrest
      · exact (hgone peer id hmem).trans_le hrest

end

/-! ## `stop` empties the table -/

/-- The call gives up every request. -/
def Action.stops : Action → Bool
  | .stop => true
  | .request .. => false

section
variable {world : World} {finish : Finish} {result : JsonObject}

/-- What `finish` does to the id it is called for. -/
def Removes (platform : Platform) (finish : Finish) : Prop :=
  ∀ id result peer, Made platform id peer → Absent platform id (finish none id result peer)

variable (hfinish : Straightens finish) (hchanges : Finishes platform pre step finish)
  (hremoves : Removes platform finish)
include hfinish hchanges hremoves

theorem finishAll_absent (hmade : Made platform id peer) :
    Absent platform id (peer.finishAll world finish result) := by
  have hloop : ∀ (ids : List String) (peer : Peer), Made platform id peer →
      (id ∈ peer.requests → id ∈ ids) →
      Absent platform id (ids.foldl (fun peer id => finish none id result peer) peer) := by
    intro ids
    induction ids with
    | nil => exact fun peer hmade hmem => ⟨hmade, fun hin => by simpa using hmem hin⟩
    | cons other rest ih =>
        intro peer hmade hmem
        have hround := hchanges other result peer
        refine ih _ (made_of_changes hround hmade) fun hin => ?_
        -- An id that is still there was not the one of this round.
        have hbefore : id ∈ peer.requests := by
          by_contra hnone
          have hstraight := hfinish none other result peer
          exact (hstraight.absent (changes_remember hround) ⟨hmade, hnone⟩).2 hin
        refine (List.mem_cons.1 (hmem hbefore)).resolve_left ?_
        rintro rfl
        exact (hremoves id result peer hmade).2 hin
  exact hloop _ peer hmade fun hin =>
    (world.requestOrder_perm _ _).mem_iff.2 (AList.mem_keys.1 hin)

theorem relayLost_absent (hmade : Made platform id peer) :
    Absent platform id (peer.relayLost world finish) := by
  have hall : Absent platform id
      (peer.relayDown.resetLocal.finishAll world finish (errorObject "connection_lost")) :=
    finishAll_absent hfinish hchanges hremoves hmade
  have hlast := scheduleReconnect_quiet
    (peer.relayDown.resetLocal.finishAll world finish (errorObject "connection_lost"))
  obtain ⟨⟨number, hlt, heq⟩, hgone⟩ := hall
  exact ⟨⟨number, hlt.trans_le hlast.uuids, heq⟩, fun hmem => hgone (hlast.requests ▸ hmem)⟩

theorem stop_absent (hmade : Made platform id peer) :
    Absent platform id (peer.stop world finish) := by
  unfold stop
  refine finishAll_absent hfinish hchanges hremoves ?_
  exact made_of_changes (relayFinished_changes hchanges "" _) hmade

/-- After calls with a `stop` among them, nothing is left of what was there. -/
theorem acts_absent {actions : List Action} (hstops : actions.any Action.stops = true)
    (hmade : Made platform id peer) :
    Absent platform id (actions.foldl (act platform world finish) peer) := by
  induction actions generalizing peer with
  | nil => simp at hstops
  | cons action rest ih =>
      rw [List.foldl_cons]
      cases action with
      | stop =>
          have hrest : Straight (peer.stop world finish)
              (rest.foldl (act platform world finish) (peer.stop world finish)) :=
            acts_straight hfinish rest _
          exact hrest.absent (changes_remember (acts_changes hchanges rest _))
            (stop_absent hfinish hchanges hremoves hmade)
      | request peerId payload =>
          refine ih (by simpa [Action.stops] using hstops) ?_
          exact made_of_changes (act_changes hchanges (.request peerId payload) peer) hmade

omit hchanges hremoves in
theorem acts_links {actions : List Action} (hstops : actions.any Action.stops = true)
    (peer : Peer) : (actions.foldl (act platform world finish) peer).links = ∅ := by
  induction actions generalizing peer with
  | nil => simp at hstops
  | cons action rest ih =>
      rw [List.foldl_cons]
      cases action with
      | stop =>
          have hrest : Straight (peer.stop world finish)
              (rest.foldl (act platform world finish) (peer.stop world finish)) :=
            acts_straight hfinish rest _
          exact hrest.links (stop_links hfinish peer)
      | request => exact ih (by simpa [Action.stops] using hstops) _

end

theorem finish_removes (platform : Platform) (world : World) (depth : ℕ) :
    Removes platform (Peer.finish platform world depth) := by
  have htake : ∀ id result (peer : Peer), Made platform id peer →
      Absent platform id (peer.take none id result) := by
    intro id result peer hmade
    unfold take
    cases hrequest : peer.requests.lookup id with
    | none => exact ⟨hmade, AList.lookup_eq_none.1 hrequest⟩
    | some request => exact ⟨hmade, fun hmem => (AList.mem_erase.1 hmem).1 rfl⟩
  induction depth with
  | zero => exact htake
  | succ depth ih =>
      intro id result peer hmade
      simp only [Peer.finish]
      split
      · have hchanges : Finishes platform peer ⟨.stop, world⟩ (Peer.finish platform world depth) :=
          finish_changes world depth
        exact (acts_straight (finish_straight platform world depth) _ _).absent
          (changes_remember (acts_changes hchanges _ _)) (htake id result peer hmade)
      · next hnone => exact ⟨hmade, hnone⟩

end Peer

end ServerHost
