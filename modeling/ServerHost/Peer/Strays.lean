import ServerHost.Peer.Walks

/-!
# Which walks stray

An id that a walk has yet to visit leaves the table for one of two reasons: a slot of the
application calls `stop`, or a socket is finished inside `send`.  The slots and the sockets
belong to the world, so it can be read off the state in which a walk begins whether it
meets an id that is gone.

## Strategy

* `Outline` is what decides how the slots are called: the length of the history, the ids
  in the table and the number of the next id.  `Outline.report` says what a completed
  request changes of it, as long as no slot calls `stop`.
* `drops` follows the walks of `lost` and `sweep` over an outline, and `drops_fares` shows
  that the walk itself fares the same way.
-/

namespace ServerHost

namespace Peer

/-! ## What decides how a walk goes on -/

/-- The calls made inside `completed`, when the history has `n` entries. -/
def World.calls (world : World) (n : ℕ) : List Action :=
  if world.depth = 0 then [] else world.slot n

/-- One of them is `stop`. -/
def World.stops (world : World) (n : ℕ) : Bool := (world.calls n).any Action.stops

/-- The length of the history, the ids in the table, and how many ids were made. -/
@[ext] structure Outline where
  length : ℕ
  ids : List String
  uuids : ℕ

def outline (peer : Peer) : Outline := ⟨peer.log.length, peer.requests.keys, peer.uuids⟩

/-- How a walk over the requests ends: an id leaves the table before the walk comes to
it, everything is given up at the last id, or neither. -/
inductive Fate where
  | cut
  | ended
  | calm (outline : Outline)

/-- Whether something strays in the end, when what follows the walk does so. -/
def Fate.leads (ended : Bool) (calm : Outline → Bool) : Fate → Bool
  | .cut => true
  | .ended => ended
  | .calm outline => calm outline

/-- Whether the walk itself strays. -/
def Fate.strays (fate : Fate) : Bool := fate.leads false fun _ => false

section
variable (platform : Platform) (world : World)

/-- The history gets an entry. -/
def Outline.tick (outline : Outline) : Outline := { outline with length := outline.length + 1 }

/-- A call that is not `stop`. -/
def Outline.act (outline : Outline) : Action → Outline
  | .stop => outline
  | .request _ payload =>
      if outline.ids.length ≥ 32 ∨
          (platform.compact payload.json).utf8ByteSize > wireLimit - 1024 then
        { outline.tick with uuids := outline.uuids + 1 }
      else
        { outline.tick with
          ids := platform.uuid outline.uuids :: outline.ids.erase (platform.uuid outline.uuids)
          uuids := outline.uuids + 1 }

/-- A request is completed, and the slot does not call `stop`. -/
def Outline.report (id : String) (outline : Outline) : Outline :=
  (world.calls outline.length).foldl (Outline.act platform)
    { outline.tick with ids := outline.ids.erase id }

/-- A walk that finishes the ids that are due. -/
def drops (due : String → Bool) : List String → Outline → Fate
  | [], outline => .calm outline
  | id :: rest, outline =>
      if ¬ due id then drops due rest outline
      else if world.stops outline.length then if rest = [] then .ended else .cut
      else drops due rest (outline.report platform world id)

end

/-! ## Calls that do not stop the peer -/

variable {platform : Platform} {world : World} {pre : Peer} {step : Step} {peer after : Peer}
  {id : String}

/-- Requests were completed and made, and nothing else that a walk looks at changed. -/
structure Kept (platform : Platform) (peer after : Peer) : Prop where
  uuids : peer.uuids ≤ after.uuids
  origin : ∀ id request, after.requests.lookup id = some request →
    peer.requests.lookup id = some request ∨ request.socket = none ∧
      ∃ number, peer.uuids ≤ number ∧ number < after.uuids ∧ id = platform.uuid number
  now : after.now = peer.now
  relay : after.relay = peer.relay
  links : after.links = peer.links
  attached : after.attached = peer.attached
  opened : after.opened = peer.opened
  strays : strays after.log = strays peer.log

theorem Kept.refl (peer : Peer) : Kept platform peer peer :=
  ⟨le_rfl, fun _ _ => .inl, rfl, rfl, rfl, rfl, rfl, rfl⟩

theorem Kept.trans {first second third : Peer} (h : Kept platform first second)
    (h' : Kept platform second third) : Kept platform first third := by
  refine ⟨h.uuids.trans h'.uuids, fun id request hrequest => ?_, h'.now.trans h.now,
    h'.relay.trans h.relay, h'.links.trans h.links, h'.attached.trans h.attached,
    h'.opened.trans h.opened, h'.strays.trans h.strays⟩
  rcases h'.origin id request hrequest with hold | ⟨hnone, number, hle, hlt, hid⟩
  · rcases h.origin id request hold with hfirst | ⟨hnone, number, hle, hlt, hid⟩
    · exact .inl hfirst
    · exact .inr ⟨hnone, number, hle, hlt.trans_le h'.uuids, hid⟩
  · exact .inr ⟨hnone, number, h.uuids.trans hle, hlt, hid⟩

/-- The ids of the table were made. -/
def Named (platform : Platform) (peer : Peer) : Prop :=
  ∀ id ∈ peer.requests, Made platform id peer

theorem Kept.named (h : Kept platform peer after) (hnamed : Named platform peer) :
    Named platform after := by
  intro id hmem
  obtain ⟨request, hrequest⟩ := Table.mem_iff_lookup.1 hmem
  rcases h.origin id request hrequest with hold | ⟨-, number, -, hlt, hid⟩
  · obtain ⟨number, hlt, hid⟩ := hnamed id (Table.mem_of_lookup hold)
    exact ⟨number, hlt.trans_le h.uuids, hid⟩
  · exact ⟨number, hlt, hid⟩

/-- What is still there is as it was. -/
theorem Kept.lookup (h : Kept platform peer after) (hnamed : Named platform peer)
    (hbefore : id ∈ peer.requests) (hafter : id ∈ after.requests) :
    after.requests.lookup id = peer.requests.lookup id := by
  obtain ⟨request, hrequest⟩ := Table.mem_iff_lookup.1 hafter
  rcases h.origin id request hrequest with hold | ⟨-, number, hle, -, hid⟩
  · rw [hrequest, hold]
  · -- An id made later is none that was there before.
    obtain ⟨earlier, hlt, heq⟩ := hnamed id hbefore
    have hsame : earlier = number := platform.uuid_injective (heq.symm.trans hid)
    omega

theorem take_kept (result : JsonObject) (hmem : id ∈ peer.requests) :
    Kept platform peer (peer.take none id result) ∧
      (peer.take none id result).outline =
        { peer.outline.tick with ids := peer.outline.ids.erase id } := by
  obtain ⟨request, hrequest⟩ := Table.mem_iff_lookup.1 hmem
  rw [take_of_lookup hrequest]
  refine ⟨⟨le_rfl, fun other own hown => ?_, rfl, rfl, rfl, rfl, rfl, strays_emit rfl _⟩, ?_⟩
  · exact .inl (Table.lookup_erase_eq_some.1 hown).2
  · exact Outline.ext rfl (AList.keys_erase ..) rfl

theorem request_kept (peerId : String) (payload : JsonObject) (peer : Peer) :
    Kept platform peer (peer.request platform peerId payload).1 ∧
      (peer.request platform peerId payload).1.outline =
        peer.outline.act platform (.request peerId payload) := by
  simp only [request, Outline.act]
  split
  · next hfull =>
      rw [if_pos (show peer.outline.ids.length ≥ 32 ∨ _ from hfull)]
      exact ⟨⟨Nat.le_succ _, fun _ _ => .inl, rfl, rfl, rfl, rfl, rfl, strays_emit rfl _⟩, rfl⟩
  · next hroom =>
      rw [if_neg (show ¬ (peer.outline.ids.length ≥ 32 ∨ _) from hroom)]
      refine ⟨⟨Nat.le_succ _, fun other own hown => ?_, rfl, rfl, rfl, rfl, rfl,
        strays_emit rfl _⟩, Outline.ext rfl (AList.keys_insert ..) rfl⟩
      rcases Table.lookup_insert_eq_some.1 hown with ⟨rfl, rfl⟩ | ⟨-, hold⟩
      · exact .inr ⟨rfl, peer.uuids, le_rfl, Nat.lt_succ_self _, rfl⟩
      · exact .inl hold

theorem acts_kept {finish : Finish} (actions : List Action)
    (hcalm : actions.any Action.stops = false) (peer : Peer) :
    Kept platform peer (actions.foldl (act platform world finish) peer) ∧
      (actions.foldl (act platform world finish) peer).outline =
        actions.foldl (Outline.act platform) peer.outline := by
  induction actions generalizing peer with
  | nil => exact ⟨.refl peer, rfl⟩
  | cons action rest ih =>
      cases action with
      | stop => simp [Action.stops] at hcalm
      | request peerId payload =>
          obtain ⟨hkept, houtline⟩ := @request_kept platform peerId payload peer
          obtain ⟨hrest, hthen⟩ := ih (by simpa [Action.stops] using hcalm)
            (peer.request platform peerId payload).1
          rw [List.foldl_cons, List.foldl_cons, ← houtline]
          exact ⟨hkept.trans hrest, hthen⟩

/-- `finish` removes the id and runs the calls of the slot. -/
theorem finish_eq (result : JsonObject) (hmem : id ∈ peer.requests) :
    ∃ inner, Straightens inner ∧ Finishes platform pre step inner ∧ Removes platform inner ∧
      Peer.finish platform world world.depth none id result peer =
        (world.calls peer.log.length).foldl (act platform world inner)
          (peer.take none id result) := by
  unfold World.calls
  cases world.depth with
  | zero =>
      exact ⟨_, finish_straight platform world 0, finish_changes world 0,
        finish_removes platform world 0, rfl⟩
  | succ depth =>
      refine ⟨_, finish_straight platform world depth, finish_changes world depth,
        finish_removes platform world depth, ?_⟩
      simp only [Peer.finish]
      rw [if_pos hmem, if_neg (Nat.succ_ne_zero depth)]

/-- A completed request whose slot does not call `stop`. -/
theorem finish_kept (result : JsonObject) (hmem : id ∈ peer.requests)
    (hcalm : world.stops peer.log.length = false) :
    Kept platform peer (Peer.finish platform world world.depth none id result peer) ∧
      (Peer.finish platform world world.depth none id result peer).outline =
        peer.outline.report platform world id := by
  obtain ⟨inner, -, -, -, heq⟩ := @finish_eq platform world peer ⟨.stop, world⟩ peer id result hmem
  obtain ⟨htake, hfirst⟩ := @take_kept platform peer id result hmem
  obtain ⟨hacts, hthen⟩ := @acts_kept platform world inner _ hcalm (peer.take none id result)
  rw [heq]
  refine ⟨htake.trans hacts, ?_⟩
  rw [hthen, hfirst]
  rfl

/-- A completed request whose slot calls `stop`. -/
theorem finish_stops (result : JsonObject) (hmem : id ∈ peer.requests)
    (hstops : world.stops peer.log.length = true) :
    (Peer.finish platform world world.depth none id result peer).links = ∅ ∧
      ∀ other, Made platform other peer →
        Absent platform other (Peer.finish platform world world.depth none id result peer) := by
  obtain ⟨inner, hstraight, hchanges, hremoves, heq⟩ :=
    @finish_eq platform world peer ⟨.stop, world⟩ peer id result hmem
  have hmade : ∀ other, Made platform other peer →
      Made platform other (peer.take none id result) := fun other ⟨number, hlt, hid⟩ =>
    ⟨number, hlt.trans_le (@take_kept platform peer id result hmem).1.uuids, hid⟩
  rw [heq]
  exact ⟨acts_links hstraight hstops _, fun other hother =>
    acts_absent hstraight hchanges hremoves hstops (hmade other hother)⟩

/-! ## The walks of `lost` and `sweep` -/

/-- The walk ends like that. -/
def Fares (platform : Platform) (peer after : Peer) : Fate → Prop
  | .cut => strays peer.log < strays after.log
  | .ended => strays after.log = strays peer.log ∧ after.links = ∅ ∧
      ∀ id ∈ peer.requests, Absent platform id after
  | .calm outline => Kept platform peer after ∧ after.outline = outline

theorem mem_act {outline : Outline} (hmem : id ∈ outline.ids) (action : Action) :
    id ∈ (outline.act platform action).ids := by
  cases action with
  | stop => exact hmem
  | request peerId payload =>
      simp only [Outline.act]
      split
      · exact hmem
      · by_cases hsame : id = platform.uuid outline.uuids
        · exact hsame ▸ List.mem_cons_self
        · exact List.mem_cons_of_mem _ ((List.mem_erase_of_ne hsame).2 hmem)

/-- The other ids stay in the table. -/
theorem mem_report {outline : Outline} {other : String} (hmem : other ∈ outline.ids)
    (hne : other ≠ id) : other ∈ (outline.report platform world id).ids := by
  unfold Outline.report
  generalize world.calls outline.length = actions
  have hfirst : other ∈ ({ outline.tick with ids := outline.ids.erase id } : Outline).ids :=
    (List.mem_erase_of_ne hne).2 hmem
  generalize ({ outline.tick with ids := outline.ids.erase id } : Outline) = outline at *
  induction actions generalizing outline with
  | nil => exact hfirst
  | cons action rest ih => exact ih _ (mem_act hfirst action)

/-- **A walk that finishes the ids that are due fares as its outline does**, and unless it
strays, they are gone at its end. -/
theorem drops_fares {start : Peer} {round : Peer → String → Peer} {due : String → Bool}
    {result : JsonObject} (hnamed : Named platform start)
    (hgone : ∀ peer id, id ∉ peer.requests → strays peer.log < strays (round peer id).log)
    (hremembers : ∀ peer id, id ∈ peer.requests → Remembers platform peer (round peer id))
    (hround : ∀ peer id, Kept platform start peer → id ∈ start.requests → id ∈ peer.requests →
      round peer id = if due id = true then
        Peer.finish platform world world.depth none id result peer else peer)
    (ids : List String) (hnodup : ids.Nodup) (hstart : ∀ id ∈ ids, id ∈ start.requests)
    {peer : Peer} (hkept : Kept platform start peer) (hmem : ∀ id ∈ ids, id ∈ peer.requests) :
    Fares platform start (ids.foldl round peer) (drops platform world due ids peer.outline) ∧
      (strays (ids.foldl round peer).log = strays start.log →
        ∀ id ∈ ids, due id = true → id ∉ (ids.foldl round peer).requests) := by
  induction ids generalizing peer with
  | nil => exact ⟨⟨hkept, rfl⟩, by simp⟩
  | cons id rest ih =>
      obtain ⟨hout, hnodup⟩ := List.nodup_cons.1 hnodup
      obtain ⟨hfirst, hrest⟩ := List.forall_mem_cons.1 hstart
      obtain ⟨hin, hthere⟩ := List.forall_mem_cons.1 hmem
      rw [List.foldl_cons, hround peer id hkept hfirst hin, drops]
      cases hdue : due id with
      | false =>
          obtain ⟨hfares, hdone⟩ := ih hnodup hrest hkept hthere
          refine ⟨hfares, fun hsame => List.forall_mem_cons.2 ⟨?_, hdone hsame⟩⟩
          simp [hdue]
      | true =>
          simp only [if_true, not_true_eq_false, if_false]
          have hsame : strays (Peer.finish platform world world.depth none id result peer).log =
              strays start.log :=
            (finish_straight platform world world.depth none id result peer).strays.trans
              hkept.strays
          -- What is absent after this round is so at the end.
          have hstays : ∀ other,
              Absent platform other (Peer.finish platform world world.depth none id result peer) →
              strays (rest.foldl round
                (Peer.finish platform world world.depth none id result peer)).log =
                strays start.log →
              other ∉ (rest.foldl round
                (Peer.finish platform world world.depth none id result peer)).requests :=
            fun other habsent hend => (((walk_remembers hgone hremembers rest _).absent other
              habsent).resolve_right (hsame.trans hend.symm).not_lt).2
          cases hstops : world.stops peer.outline.length with
          | false =>
              -- The slot leaves the other ids alone.
              obtain ⟨hafter, houtline⟩ := @finish_kept platform world peer id result hin hstops
              have hids :
                  (Peer.finish platform world world.depth none id result peer).requests.keys =
                    (peer.outline.report platform world id).ids := congrArg Outline.ids houtline
              have hahead : ∀ other ∈ rest, other ∈
                  (Peer.finish platform world world.depth none id result peer).requests := by
                intro other hother
                have hne : other ≠ id := fun hsame => hout (hsame ▸ hother)
                rw [AList.mem_keys, hids]
                exact mem_report (AList.mem_keys.1 (hthere other hother)) hne
              obtain ⟨hfares, hdone⟩ := ih hnodup hrest (hkept.trans hafter) hahead
              simp only [Bool.false_eq_true, if_false]
              rw [← houtline]
              refine ⟨hfares, fun hend => List.forall_mem_cons.2 ⟨fun _ => ?_, hdone hend⟩⟩
              exact hstays id (finish_removes platform world world.depth id result peer
                (hkept.named hnamed id hin)) hend
          | true =>
              -- The slot gives up everything.
              obtain ⟨hlinks, habsent⟩ := @finish_stops platform world peer id result hin hstops
              have hnone : ∀ other ∈ start.requests, Absent platform other
                  (Peer.finish platform world world.depth none id result peer) := by
                intro other hother
                obtain ⟨number, hlt, hid⟩ := hnamed other hother
                exact habsent other ⟨number, hlt.trans_le hkept.uuids, hid⟩
              refine ⟨?_, fun hend other hother _ =>
                hstays other (hnone other (hstart other hother)) hend⟩
              cases rest with
              | nil => exact ⟨hsame, hlinks, hnone⟩
              | cons next rest =>
                  have hstray := walk_strays hgone hremembers (next :: rest)
                    ⟨next, List.mem_cons_self, hnone next (hrest next List.mem_cons_self)⟩
                  rw [hsame] at hstray
                  exact hstray

section
variable (platform : Platform) (world : World)

/-- The request is carried by the link. -/
def carried (peer : Peer) (socket : Socket) (id : String) : Bool :=
  (peer.requests.lookup id).any fun request => request.socket = some socket

/-- `lost`, from the walk on, when those ids are carried by the link. -/
def lostFate (carried : String → Bool) (outline : Outline) : Fate :=
  drops platform world carried (world.requestOrder outline.tick.length outline.ids) outline.tick

/-- `lost` strays. -/
def lostStrays (socket : Socket) (peer : Peer) : Bool :=
  decide (socket ∈ peer.links) &&
    (lostFate platform world (peer.carried socket) peer.outline).strays

end

/-- An id that was not there before is none of an earlier state, and no link carries its
request. -/
theorem Kept.fresh {start : Peer} (h : Kept platform peer after) (hbegan : Named platform start)
    (huuids : start.uuids ≤ peer.uuids) (hmem : id ∈ after.requests) (hnone : id ∉ peer.requests) :
    start.requests.lookup id = none ∧ ∀ socket, after.carried socket id = false := by
  obtain ⟨request, hrequest⟩ := Table.mem_iff_lookup.1 hmem
  obtain ⟨hsocket, number, hle, -, hid⟩ := (h.origin id request hrequest).resolve_left
    fun hold => hnone (Table.mem_of_lookup hold)
  refine ⟨AList.lookup_eq_none.2 fun hstart => ?_, fun socket => ?_⟩
  · obtain ⟨earlier, hlt, heq⟩ := hbegan id hstart
    have hsame : earlier = number := platform.uuid_injective (heq.symm.trans hid)
    omega
  · rw [carried, hrequest]
    simp [hsocket]

/-- Whether something strayed between the two states. -/
def Shows (peer after : Peer) : Bool → Prop
  | true => strays peer.log < strays after.log
  | false => strays after.log = strays peer.log

theorem Fares.shows {fate : Fate} (h : Fares platform peer after fate) :
    Shows peer after fate.strays := by
  cases fate with
  | cut => exact h
  | ended => exact h.1
  | calm outline => exact h.1.strays

/-- Steps that stray nowhere may come before. -/
theorem shows_of_straight {middle : Peer} {stray : Bool}
    (hbefore : strays middle.log = strays peer.log) (h : Shows middle after stray) :
    Shows peer after stray := by
  cases stray with
  | false => exact h.trans hbefore
  | true => exact hbefore.symm.trans_lt h

theorem strays_index (hgone : id ∉ peer.requests) :
    strays (peer.index id).log = strays peer.log + 1 := by
  rw [index_of_not_mem hgone]
  exact List.countP_cons_of_pos rfl

/-- A round that begins with `requests[id]`. -/
theorem round_gone {round : Peer → String → Peer}
    (hround : ∀ peer id, Remembers platform (peer.index id) (round peer id)) (peer : Peer)
    (id : String) (hgone : id ∉ peer.requests) : strays peer.log < strays (round peer id).log := by
  have hle := (hround peer id).strays
  rw [strays_index hgone] at hle
  exact hle

theorem round_remembers {round : Peer → String → Peer}
    (hround : ∀ peer id, Remembers platform (peer.index id) (round peer id)) (peer : Peer)
    (id : String) (hmem : id ∈ peer.requests) : Remembers platform peer (round peer id) := by
  have hthere := hround peer id
  rwa [index_of_mem hmem] at hthere

theorem finish_remembers (world : World) (depth : ℕ) (id : String) (result : JsonObject)
    (peer : Peer) :
    Remembers platform peer (Peer.finish platform world depth none id result peer) := by
  have hchanges : Changes platform peer ⟨.stop, world⟩ peer
      (Peer.finish platform world depth none id result peer) :=
    finish_changes world depth id result peer
  exact changes_remember hchanges

theorem finish_of_not_mem {depth : ℕ} {result : JsonObject} (hgone : id ∉ peer.requests) :
    Peer.finish platform world depth none id result peer = peer := by
  cases depth with
  | zero => simp only [Peer.finish, take, AList.lookup_eq_none.2 hgone]
  | succ depth => simp only [Peer.finish, if_neg hgone]

theorem lost_fares (hnamed : Named platform peer) {socket : Socket} {link : Link}
    (hlink : peer.links.lookup socket = some link) :
    Fares platform (peer.unlink socket link)
      (peer.lost world (Peer.finish platform world world.depth) socket)
      (lostFate platform world (peer.carried socket) peer.outline) ∧
    (strays (peer.lost world (Peer.finish platform world world.depth) socket).log =
      strays peer.log → ∀ id ∈ peer.requests, peer.carried socket id = true →
        id ∉ (peer.lost world (Peer.finish platform world world.depth) socket).requests) := by
  -- The loop indexes every id of its snapshot, present or not.
  have hindexed : ∀ (state : Peer) id, Remembers platform (state.index id)
      (lostRound (Peer.finish platform world world.depth) socket state id) := by
    intro state id
    dsimp only [lostRound]
    split
    · exact finish_remembers ..
    · exact .refl _
  -- For an id that is still present the table reads what it held before the loop.
  have hround : ∀ (state : Peer) id, Kept platform (peer.unlink socket link) state →
      id ∈ (peer.unlink socket link).requests → id ∈ state.requests →
      lostRound (Peer.finish platform world world.depth) socket state id =
        if peer.carried socket id = true then
          Peer.finish platform world world.depth none id (errorObject "connection_lost") state
        else state := by
    intro state id hkept hstart hmem
    obtain ⟨request, hrequest⟩ := Table.mem_iff_lookup.1 hstart
    have hnow := (hkept.lookup hnamed hstart hmem).trans hrequest
    have hcarried : peer.carried socket id = decide (request.socket = some socket) := by
      unfold carried
      rw [show peer.requests.lookup id = some request from hrequest]
      rfl
    simp only [lostRound, index_of_mem hmem, Table.value_of_lookup hnow, hcarried,
      decide_eq_true_eq]
  have hunlinked : Named platform (peer.unlink socket link) := hnamed
  have hredial : ∀ (after : Peer) names fate, Fares platform (peer.unlink socket link) after fate →
      Fares platform (peer.unlink socket link) { after with redials := names } fate := by
    intro after names fate h
    cases fate with
    | calm outline => exact ⟨{ h.1 with }, h.2⟩
    | _ => exact h
  have horder := world.requestOrder_perm (peer.unlink socket link).log.length
    (peer.unlink socket link).requests.keys
  have hids : ∀ id ∈ world.requestOrder (peer.unlink socket link).log.length
      (peer.unlink socket link).requests.keys, id ∈ (peer.unlink socket link).requests :=
    fun id hid => AList.mem_keys.2 (horder.mem_iff.1 hid)
  obtain ⟨hfares, hdone⟩ := drops_fares hunlinked (round_gone hindexed) (round_remembers hindexed)
    hround _ (horder.nodup_iff.2 (AList.keys_nodup _)) hids (.refl _) hids
  -- The snapshot is a permutation of the keys, so nobody is left out.
  have hevery : ∀ id ∈ peer.requests, id ∈ world.requestOrder
      (peer.unlink socket link).log.length (peer.unlink socket link).requests.keys :=
    fun id hid => horder.mem_iff.2 (AList.mem_keys.1 hid)
  have hsame : strays (peer.unlink socket link).log = strays peer.log := strays_emit rfl _
  unfold lost
  rw [hlink]
  dsimp only
  split
  · exact ⟨hredial _ _ _ hfares, fun hend id hid =>
      hdone (hend.trans hsame.symm) id (hevery id hid)⟩
  · exact ⟨hfares, fun hend id hid => hdone (hend.trans hsame.symm) id (hevery id hid)⟩

/-- **`lost` strays as predicted.** -/
theorem lost_shows (hnamed : Named platform peer) (socket : Socket) :
    Shows peer (peer.lost world (Peer.finish platform world world.depth) socket)
      (lostStrays platform world socket peer) := by
  unfold lostStrays
  cases hlink : peer.links.lookup socket with
  | none =>
      rw [decide_eq_false (AList.lookup_eq_none.1 hlink), lost, hlink]
      rfl
  | some link =>
      rw [decide_eq_true (Table.mem_of_lookup hlink), Bool.true_and]
      exact shows_of_straight (strays_emit rfl _) (lost_fares hnamed hlink).1.shows

end Peer

end ServerHost
