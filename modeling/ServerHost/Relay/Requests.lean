import ServerHost.Relay.Endings

/-!
# Requests are conserved

`Books` follows every request from the turn in which it came to the one response
that it may have got.
-/

namespace ServerHost

namespace RelayServer

/-! ## Every request has its turn -/

section
variable {α : Type*} {trace : List α} {n : ℕ} {visit new : α}

/-- The turn with this number; the first one has number zero. -/
def turnAt (trace : List α) (n : ℕ) : Option α := trace.reverse[n]?

theorem turnAt_cons (h : turnAt trace n = some visit) : turnAt (new :: trace) n = some visit := by
  have hlt : n < trace.reverse.length := (List.getElem?_eq_some_iff.1 h).1
  rw [turnAt, List.reverse_cons, List.getElem?_append_left hlt]
  exact h

theorem turnAt_last : turnAt (new :: trace) trace.length = some new := by
  simp [turnAt]

theorem turnAt_lt (h : turnAt trace n = some visit) : n < trace.length := by
  have hlt : n < trace.reverse.length := (List.getElem?_eq_some_iff.1 h).1
  simpa using hlt

theorem turnAt_cons_eq_some (h : turnAt (new :: trace) n = some visit) :
    turnAt trace n = some visit ∨ n = trace.length ∧ visit = new := by
  rcases lt_or_ge n trace.length with hlt | hge
  · refine .inl ?_
    rwa [turnAt, List.reverse_cons, List.getElem?_append_left (by simpa using hlt)] at h
  · have hlt := turnAt_lt h
    obtain rfl : n = trace.length := by simp at hlt; omega
    rw [turnAt_last] at h
    exact .inr ⟨rfl, (Option.some.inj h).symm⟩

end

section
variable (platform : Platform) (trace : List (RelayServer × Step))

/-- The request of this turn opened the route. -/
def Opened (n : ℕ) (key : String) (route : Route) : Prop :=
  ∃ relay step message, turnAt trace n = some (relay, step) ∧
    Asks relay step route.client message ∧ (message.value "id").toString = route.id ∧
    relay.target route.client (message.value "peerId").toString = some route.host ∧
    relay.routes.lookup key = none ∧ (next platform relay step).routes.lookup key = some route

/-- A response to the route that this turn opened came from the host of the route. -/
def Spoken (n : ℕ) (host : Socket) (result : Json) : Prop :=
  ∃ key route relay step message, Opened platform trace n key route ∧ route.host = host ∧
    (relay, step) ∈ trace ∧ step.input = .text host message ∧
    messageType message = "response" ∧ (message.value "id").toString = key ∧
    message.value "result" = result

/-- The response answers the request of this turn.  One that a host gave is what the
host chosen for the request said about it. -/
def Answers (reply : Reply) (n : ℕ) : Prop :=
  ∃ relay step message, turnAt trace n = some (relay, step) ∧
    Asks relay step reply.client message ∧ (message.value "id").toString = reply.id ∧
    ∀ host, reply.host = some host →
      relay.target reply.client (message.value "peerId").toString = some host ∧
        Spoken platform trace n host reply.result

/-- The route ended in a turn after which its client could not be reached. -/
def Lost (key : String) (route : Route) : Prop :=
  ∃ relay step, (relay, step) ∈ trace ∧ relay.routes.lookup key = some route ∧
    key ∉ (next platform relay step).routes ∧
    ¬ (next platform relay step).Reachable route.client

/-- Every response answers a request of its own, every route is a request without a
response, and a request that opened a route waits, was answered, or lost its client. -/
structure Books (relay : RelayServer) (answered : List ℕ) (turn : String → ℕ) : Prop where
  matched : List.Forall₂ (Answers platform trace) (replies relay.log) answered
  nodup : answered.Nodup
  past : ∀ n ∈ answered, n < trace.length
  opened : ∀ key route, relay.routes.lookup key = some route →
    Opened platform trace (turn key) key route
  waiting : ∀ key ∈ relay.routes, turn key ∉ answered
  apart : ∀ key ∈ relay.routes, ∀ other ∈ relay.routes, turn key = turn other → key = other
  followed : ∀ n key route, Opened platform trace n key route →
    relay.routes.lookup key = some route ∧ turn key = n ∨ n ∈ answered ∨
      Lost platform trace key route
  keys : ∀ key ∈ relay.routes, ∃ i < relay.uuids, key = platform.uuid i
  perClient : ∀ client, relay.openRoutes client ≤ 32
  total : relay.routes.keys.length ≤ 1024

end

/-- The turns that the responses of these endings answer. -/
def answeredBy (turn : String → ℕ) (ended : List Ending) : List ℕ :=
  ended.flatMap fun ending => if ending.reply.isSome then [turn ending.key] else []

section
variable {platform : Platform} {trace : List (RelayServer × Step)} {relay after : RelayServer}
  {step : Step} {answered : List ℕ} {turn : String → ℕ} {ended : List Ending}

theorem mem_answeredBy {n : ℕ} : n ∈ answeredBy turn ended ↔
    ∃ ending ∈ ended, ending.reply.isSome ∧ turn ending.key = n := by
  simp only [answeredBy, List.mem_flatMap]
  refine exists_congr fun ending => and_congr_right fun _ => ?_
  split
  · next h => simp [h, eq_comm]
  · next h => simp [h]

theorem answeredBy_nodup (hkeys : (ended.map Ending.key).Nodup)
    (hturn : ∀ first ∈ ended, ∀ second ∈ ended, turn first.key = turn second.key →
      first.key = second.key) : (answeredBy turn ended).Nodup := by
  induction ended with
  | nil => simp [answeredBy]
  | cons ending rest ih =>
      rw [List.map_cons, List.nodup_cons] at hkeys
      have hrest := ih hkeys.2 fun first hfirst second hsecond =>
        hturn first (by simp [hfirst]) second (by simp [hsecond])
      rw [answeredBy, List.flatMap_cons]
      split
      · refine List.nodup_cons.2 ⟨fun hmem => ?_, hrest⟩
        obtain ⟨other, hother, -, hsame⟩ := mem_answeredBy.1 hmem
        refine hkeys.1 ?_
        rw [hturn ending (by simp) other (by simp [hother]) hsame.symm]
        exact List.mem_map_of_mem hother
      · exact hrest

theorem forall₂_answeredBy {R : Reply → ℕ → Prop}
    (h : ∀ ending ∈ ended, ∀ host result, ending.reply = some (host, result) →
      R ⟨ending.route.client, host, ending.route.id, result⟩ (turn ending.key)) :
    List.Forall₂ R (ended.flatMap Ending.replies) (answeredBy turn ended) := by
  induction ended with
  | nil => exact .nil
  | cons ending rest ih =>
      have hrest := ih fun other hother => h other (by simp [hother])
      rw [answeredBy, List.flatMap_cons, List.flatMap_cons]
      refine List.rel_append ?_ hrest
      cases hreply : ending.reply with
      | none => simp [Ending.replies, hreply]
      | some reply =>
          obtain ⟨host, result⟩ := reply
          simpa [Ending.replies, hreply] using h ending (by simp) host result hreply

theorem Opened.cons {n : ℕ} {key : String} {route : Route} {new : RelayServer × Step}
    (h : Opened platform trace n key route) : Opened platform (new :: trace) n key route := by
  obtain ⟨relay, step, message, hturn, hrest⟩ := h
  exact ⟨relay, step, message, turnAt_cons hturn, hrest⟩

theorem Spoken.cons {n : ℕ} {host : Socket} {result : Json} {new : RelayServer × Step}
    (h : Spoken platform trace n host result) : Spoken platform (new :: trace) n host result := by
  obtain ⟨key, route, relay, step, message, hopened, hhost, hmem, hrest⟩ := h
  exact ⟨key, route, relay, step, message, hopened.cons, hhost, List.mem_cons_of_mem _ hmem,
    hrest⟩

theorem Answers.cons {reply : Reply} {n : ℕ} {new : RelayServer × Step}
    (h : Answers platform trace reply n) : Answers platform (new :: trace) reply n := by
  obtain ⟨relay, step, message, hturn, hasks, hid, hspoken⟩ := h
  exact ⟨relay, step, message, turnAt_cons hturn, hasks, hid,
    fun host hhost => ⟨(hspoken host hhost).1, (hspoken host hhost).2.cons⟩⟩

theorem Lost.cons {key : String} {route : Route} {new : RelayServer × Step}
    (h : Lost platform trace key route) : Lost platform (new :: trace) key route := by
  obtain ⟨relay, step, hmem, hrest⟩ := h
  exact ⟨relay, step, List.mem_cons_of_mem _ hmem, hrest⟩

/-- Only the last turn opens a route that was not open before. -/
theorem opened_cons {n : ℕ} {key : String} {route : Route}
    (h : Opened platform ((relay, step) :: trace) n key route) : Opened platform trace n key route ∨
      n = trace.length ∧ relay.routes.lookup key = none ∧
        (next platform relay step).routes.lookup key = some route := by
  obtain ⟨before, input, message, hturn, hrest⟩ := h
  rcases turnAt_cons_eq_some hturn with hold | ⟨hn, hnew⟩
  · exact .inl ⟨before, input, message, hold, hrest⟩
  · cases hnew
    exact .inr ⟨hn, hrest.2.2.2⟩

/-! ### One turn -/

theorem openRoutes_le (h : ∀ key route, after.routes.lookup key = some route →
    relay.routes.lookup key = some route) :
    (∀ client, after.openRoutes client ≤ relay.openRoutes client) ∧
      after.routes.keys.length ≤ relay.routes.keys.length := by
  have hsubset : after.routes.entries ⊆ relay.routes.entries := fun entry hentry =>
    AList.mem_lookup_iff.1 (h _ _ (Table.lookup_of_mem_entries hentry))
  have hsubperm : List.Subperm after.routes.entries relay.routes.entries :=
    List.subperm_of_subset after.routes.nodupKeys.nodup hsubset
  exact ⟨fun client => hsubperm.countP_le _,
    by simpa [AList.keys, List.keys] using hsubperm.length_le⟩

theorem Books.settle (h : Books platform trace relay answered turn)
    (hsettles : Settles relay (next platform relay step) ended) (hspeaks : Speaks step ended) :
    Books platform ((relay, step) :: trace) (next platform relay step)
      (answeredBy turn ended ++ answered) turn := by
  have hkept : ∀ key route, (next platform relay step).routes.lookup key = some route →
      relay.routes.lookup key = some route := fun key route hroute =>
    ((hsettles.routes key route).1 hroute).1
  have hmem : ∀ key ∈ (next platform relay step).routes, key ∈ relay.routes := by
    intro key hkey
    obtain ⟨route, hroute⟩ := Table.mem_iff_lookup.1 hkey
    exact Table.mem_of_lookup (hkept key route hroute)
  -- What ended was stored, so it was opened by a turn of the trace.
  have hended : ∀ ending ∈ ended, ending.key ∈ relay.routes := fun ending hending =>
    Table.mem_of_lookup (hsettles.stored ending hending)
  refine ⟨?_, ?_, ?_, ?_, ?_, ?_, ?_, ?_, ?_, ?_⟩
  · rw [hsettles.replies]
    refine List.rel_append (forall₂_answeredBy fun ending hending host result hreply => ?_)
      (h.matched.imp fun _ _ => Answers.cons)
    have hopened := h.opened _ _ (hsettles.stored ending hending)
    obtain ⟨before, input, message, hturn, hasks, hid, htarget, -⟩ := id hopened
    refine ⟨before, input, message, turnAt_cons hturn, hasks, hid, ?_⟩
    rintro speaker rfl
    obtain ⟨hhost, spoken, hinput, htype, hkey, hresult⟩ :=
      hspeaks ending hending speaker result hreply
    refine ⟨by rw [htarget, hhost], ending.key, ending.route, relay, step, spoken, hopened.cons,
      hhost, List.mem_cons_self, hinput, htype, hkey, hresult⟩
  -- No turn is answered twice: its key is erased when it is answered.
  · refine List.nodup_append'.2 ⟨answeredBy_nodup hsettles.nodup fun first hfirst second hsecond =>
      h.apart _ (hended first hfirst) _ (hended second hsecond), h.nodup, fun n hn hold => ?_⟩
    obtain ⟨ending, hending, -, rfl⟩ := mem_answeredBy.1 hn
    exact h.waiting _ (hended ending hending) hold
  · intro n hn
    rw [List.length_cons]
    rcases List.mem_append.1 hn with hnew | hold
    · obtain ⟨ending, hending, -, rfl⟩ := mem_answeredBy.1 hnew
      obtain ⟨_, _, _, hturn, -⟩ := h.opened _ _ (hsettles.stored ending hending)
      exact (turnAt_lt hturn).trans (Nat.lt_succ_self _)
    · exact (h.past n hold).trans (Nat.lt_succ_self _)
  · exact fun key route hroute => (h.opened key route (hkept key route hroute)).cons
  · intro key hkey hn
    rcases List.mem_append.1 hn with hnew | hold
    · obtain ⟨ending, hending, -, hsame⟩ := mem_answeredBy.1 hnew
      -- Two keys are never opened by one turn.
      obtain rfl := h.apart _ (hended ending hending) _ (hmem key hkey) hsame
      obtain ⟨route, hroute⟩ := Table.mem_iff_lookup.1 hkey
      exact ((hsettles.routes _ _).1 hroute).2 (List.mem_map_of_mem hending)
    · exact h.waiting key (hmem key hkey) hold
  · exact fun key hkey other hother => h.apart key (hmem key hkey) other (hmem other hother)
  -- A route opened before is stored, answered or lost.
  · intro n key route hopened
    rcases opened_cons hopened with hold | ⟨-, hnone, hsome⟩
    · rcases h.followed n key route hold with ⟨hroute, hturn⟩ | hn | hlost
      · by_cases hkey : key ∈ ended.map Ending.key
        · obtain ⟨ending, hending, rfl⟩ := List.mem_map.1 hkey
          obtain rfl := Option.some.inj (hroute.symm.trans (hsettles.stored ending hending))
          cases hreply : ending.reply with
          | none =>
              refine .inr (.inr ⟨relay, step, List.mem_cons_self, hroute, fun hafter => ?_,
                hsettles.silent ending hending hreply⟩)
              obtain ⟨_, hfound⟩ := Table.mem_iff_lookup.1 hafter
              exact ((hsettles.routes _ _).1 hfound).2 hkey
          | some reply =>
              refine .inr (.inl (List.mem_append_left _
                (mem_answeredBy.2 ⟨ending, hending, ?_, hturn⟩)))
              simp [hreply]
        · exact .inl ⟨(hsettles.routes key route).2 ⟨hroute, hkey⟩, hturn⟩
      · exact .inr (.inl (List.mem_append_right _ hn))
      · exact .inr (.inr hlost.cons)
    · rw [hkept key route hsome] at hnone
      cases hnone
  · intro key hkey
    obtain ⟨i, hi, rfl⟩ := h.keys key (hmem key hkey)
    exact ⟨i, hi.trans_le hsettles.uuids, rfl⟩
  · exact fun client => ((openRoutes_le hkept).1 client).trans (h.perClient client)
  · exact (openRoutes_le hkept).2.trans h.total

theorem Books.turn_lt (h : Books platform trace relay answered turn) :
    ∀ key ∈ relay.routes, turn key < trace.length := by
  intro key hkey
  obtain ⟨route, hroute⟩ := Table.mem_iff_lookup.1 hkey
  obtain ⟨_, _, _, hturn, -⟩ := h.opened key route hroute
  exact turnAt_lt hturn

theorem Books.refuse {client : Socket} {message : JsonObject} {result : Json}
    (h : Books platform trace relay answered turn) (hasks : Asks relay step client message)
    (hroutes : (next platform relay step).routes = relay.routes)
    (huuids : relay.uuids ≤ (next platform relay step).uuids)
    (hreplies : replies (next platform relay step).log =
      ⟨client, none, (message.value "id").toString, result⟩ :: replies relay.log) :
    Books platform ((relay, step) :: trace) (next platform relay step)
      (trace.length :: answered) turn := by
  have hlt := h.turn_lt
  refine ⟨?_, ?_, ?_, ?_, ?_, ?_, ?_, ?_, ?_, ?_⟩
  · rw [hreplies]
    refine .cons ?_ (h.matched.imp fun _ _ => Answers.cons)
    exact ⟨relay, step, message, turnAt_last, hasks, rfl, by simp⟩
  · exact List.nodup_cons.2 ⟨fun hn => (h.past _ hn).false, h.nodup⟩
  · intro n hn
    rw [List.length_cons]
    rcases List.mem_cons.1 hn with rfl | hold
    · exact Nat.lt_succ_self _
    · exact (h.past n hold).trans (Nat.lt_succ_self _)
  · rw [hroutes]
    exact fun key route hroute => (h.opened key route hroute).cons
  · rw [hroutes]
    intro key hkey hn
    rcases List.mem_cons.1 hn with hnew | hold
    · exact (hlt key hkey).ne hnew
    · exact h.waiting key hkey hold
  · rw [hroutes]
    exact h.apart
  · rw [hroutes]
    intro n key route hopened
    rcases opened_cons hopened with hold | ⟨-, hnone, hsome⟩
    · rcases h.followed n key route hold with hroute | hn | hlost
      · exact .inl hroute
      · exact .inr (.inl (List.mem_cons_of_mem _ hn))
      · exact .inr (.inr hlost.cons)
    · rw [hroutes, hnone] at hsome
      cases hsome
  · rw [hroutes]
    intro key hkey
    obtain ⟨i, hi, rfl⟩ := h.keys key hkey
    exact ⟨i, hi.trans_le huuids, rfl⟩
  · intro client
    rw [openRoutes, hroutes]
    exact h.perClient client
  · rw [hroutes]
    exact h.total

theorem Books.accept {client host : Socket} {message : JsonObject}
    (h : Books platform trace relay answered turn) (hasks : Asks relay step client message)
    (htarget : relay.target client (message.value "peerId").toString = some host)
    (hclient : relay.openRoutes client < 32) (htotal : relay.routes.keys.length < 1024)
    (hroutes : (next platform relay step).routes = relay.routes.insert (platform.uuid relay.uuids)
      ⟨client, host, (message.value "id").toString, DateTime.addSecs relay.now 15⟩)
    (huuids : (next platform relay step).uuids = relay.uuids + 1)
    (hreplies : replies (next platform relay step).log = replies relay.log) :
    Books platform ((relay, step) :: trace) (next platform relay step) answered
      (Function.update turn (platform.uuid relay.uuids) trace.length) := by
  have hlt := h.turn_lt
  -- The uuids are drawn one after another, so the next one is no key.
  have hnew : platform.uuid relay.uuids ∉ relay.routes := by
    intro hmem
    obtain ⟨i, hi, hsame⟩ := h.keys _ hmem
    exact hi.ne (platform.uuid_injective hsame).symm
  have hold : ∀ key ∈ relay.routes, key ≠ platform.uuid relay.uuids := by
    rintro key hkey rfl
    exact hnew hkey
  -- The turn of the new key is this one; every other key keeps its own.
  have hupdate : ∀ key ∈ relay.routes,
      Function.update turn (platform.uuid relay.uuids) trace.length key = turn key :=
    fun key hkey => Function.update_of_ne (hold key hkey) ..
  have hlookup := AList.lookup_eq_none.2 hnew
  refine ⟨?_, h.nodup, ?_, ?_, ?_, ?_, ?_, ?_, ?_, ?_⟩
  · rw [hreplies]
    exact h.matched.imp fun _ _ => Answers.cons
  · exact fun n hn => (h.past n hn).trans (Nat.lt_succ_self _)
  · intro key route hroute
    have hafter := hroute
    rw [hroutes] at hroute
    rcases Table.lookup_insert_eq_some.1 hroute with ⟨rfl, rfl⟩ | ⟨hne, hroute⟩
    · rw [Function.update_self]
      exact ⟨relay, step, message, turnAt_last, hasks, rfl, htarget, hlookup, hafter⟩
    · rw [Function.update_of_ne hne]
      exact (h.opened key route hroute).cons
  · intro key hkey hn
    rw [hroutes, AList.mem_insert] at hkey
    rcases hkey with rfl | hkey
    · rw [Function.update_self] at hn
      exact (h.past _ hn).false
    · rw [hupdate key hkey] at hn
      exact h.waiting key hkey hn
  · intro key hkey other hother hsame
    rw [hroutes, AList.mem_insert] at hkey hother
    rcases hkey with rfl | hkey <;> rcases hother with rfl | hother
    · rfl
    · rw [Function.update_self, hupdate other hother] at hsame
      exact absurd hsame.symm (hlt other hother).ne
    · rw [Function.update_self, hupdate key hkey] at hsame
      exact absurd hsame (hlt key hkey).ne
    · rw [hupdate key hkey, hupdate other hother] at hsame
      exact h.apart key hkey other hother hsame
  · intro n key route hopened
    rcases opened_cons hopened with hbefore | ⟨rfl, hnone, hsome⟩
    · rcases h.followed n key route hbefore with ⟨hroute, hturn⟩ | hn | hlost
      · have hkey := Table.mem_of_lookup hroute
        refine .inl ⟨?_, by rw [hupdate key hkey, hturn]⟩
        rw [hroutes, AList.lookup_insert_ne (hold key hkey)]
        exact hroute
      · exact .inr (.inl hn)
      · exact .inr (.inr hlost.cons)
    · refine .inl ⟨hsome, ?_⟩
      rw [hroutes] at hsome
      rcases Table.lookup_insert_eq_some.1 hsome with ⟨rfl, -⟩ | ⟨-, hroute⟩
      · rw [Function.update_self]
      · rw [hnone] at hroute
        cases hroute
  · intro key hkey
    rw [hroutes, AList.mem_insert] at hkey
    rcases hkey with rfl | hkey
    · exact ⟨relay.uuids, by omega, rfl⟩
    · obtain ⟨i, hi, rfl⟩ := h.keys key hkey
      exact ⟨i, by omega, rfl⟩
  · intro other
    rw [openRoutes, hroutes, AList.entries_insert_of_notMem hnew, List.countP_cons]
    split
    -- The guard `< 32` leaves room for this one.
    · next hsame =>
        simp only [decide_eq_true_eq] at hsame
        subst hsame
        exact hclient
    · exact h.perClient other
  · rw [hroutes, AList.keys_insert, List.erase_of_not_mem (by rwa [← AList.mem_keys])]
    exact htotal

/-! ### Whole runs -/

/-- Sockets that were destroyed have no session, and new sockets are new. -/
structure Graves (relay : RelayServer) : Prop where
  buried : Buried relay
  past : ∀ socket ∈ relay.deleted, socket < relay.sockets
  numbered : ∀ socket ∈ relay.sessions, socket < relay.sockets

theorem Graves.frame (h : Graves relay)
    (hsessions : ∀ socket ∈ after.sessions, socket ∈ relay.sessions)
    (hdeleted : after.deleted = relay.deleted) (hsockets : after.sockets = relay.sockets) :
    Graves after where
  buried socket hsocket hmem := h.buried socket (hdeleted ▸ hsocket) (hsessions socket hmem)
  past socket hsocket := by
    rw [hsockets]
    exact h.past socket (hdeleted ▸ hsocket)
  numbered socket hmem := by
    rw [hsockets]
    exact h.numbered socket (hsessions socket hmem)

/-- The socket that disconnects in this turn is not a new one. -/
def Known (step : Step) (relay : RelayServer) : Prop :=
  ∀ socket, step.input = .disconnected socket → socket < relay.sockets

theorem Graves.change {pre : RelayServer} (h : Graves relay) (hknown : Known step relay)
    (change : Change platform pre step relay after) : Graves after ∧ Known step after := by
  have hsame : ∀ {after : RelayServer}, (∀ socket ∈ after.sessions, socket ∈ relay.sessions) →
      after.deleted = relay.deleted → after.sockets = relay.sockets →
      Graves after ∧ Known step after := by
    intro after hsessions hdeleted hsockets
    refine ⟨h.frame hsessions hdeleted hsockets, fun socket hinput => ?_⟩
    rw [hsockets]
    exact hknown socket hinput
  -- Offers and pairs come and go without a session.
  have hpairing : ∀ {after : RelayServer}, PairingOnly relay after →
      Graves after ∧ Known step after :=
    fun honly => hsame (fun _ hmem => honly.sessions ▸ hmem) honly.deleted honly.sockets
  cases change with
  | welcome =>
      -- The number is fresh, so it was never buried.
      refine ⟨⟨fun socket hsocket hmem => ?_, fun socket hsocket => ?_, fun socket hmem => ?_⟩,
        fun socket hinput => (hknown socket hinput).trans (Nat.lt_succ_self _)⟩
      · rcases (AList.mem_insert _).1 hmem with rfl | hold
        · exact (h.past _ hsocket).false
        · exact h.buried socket hsocket hold
      · exact (h.past socket hsocket).trans (Nat.lt_succ_self _)
      · rcases (AList.mem_insert _).1 hmem with rfl | hold
        · exact Nat.lt_succ_self _
        · exact (h.numbered socket hold).trans (Nat.lt_succ_self _)
  | refuse =>
      refine ⟨⟨fun socket hsocket hmem => ?_, fun socket hsocket => ?_, fun socket hmem => ?_⟩,
        fun socket hinput => (hknown socket hinput).trans (Nat.lt_succ_self _)⟩
      · rcases List.mem_cons.1 hsocket with rfl | hold
        · exact (h.numbered _ hmem).false
        · exact h.buried socket hold hmem
      · rcases List.mem_cons.1 hsocket with rfl | hold
        · exact Nat.lt_succ_self _
        · exact (h.past socket hold).trans (Nat.lt_succ_self _)
      · exact (h.numbered socket hmem).trans (Nat.lt_succ_self _)
  | bury hinput hgone =>
      refine ⟨⟨fun socket hsocket hmem => ?_, fun socket hsocket => ?_, h.numbered⟩, hknown⟩
      · rcases List.mem_cons.1 hsocket with rfl | hold
        · exact hgone hmem
        · exact h.buried socket hold hmem
      · rcases List.mem_cons.1 hsocket with rfl | hold
        · exact hknown _ hinput
        · exact h.past socket hold
  | stop =>
      -- Every session left is buried now.
      refine ⟨⟨fun socket _ hmem => by simp [stop] at hmem, fun socket hsocket => ?_,
        fun socket hmem => by simp [stop] at hmem⟩, hknown⟩
      rcases List.mem_append.1 hsocket with hkey | hold
      · exact h.numbered socket (AList.mem_keys.2 hkey)
      · exact h.past socket hold
  | forget => exact hsame (fun _ hmem => (AList.mem_erase.1 hmem).2) rfl rfl
  | rehash hsessions =>
      refine hsame (fun socket hmem => ?_) rfl rfl
      rw [Table.mem_iff_lookup] at hmem ⊢
      simpa only [hsessions.lookup] using hmem
  | withdraw => exact hpairing (withdrawOffer_pairingOnly ..)
  | finish => exact hpairing (finishPair_pairingOnly ..)
  | send => exact hpairing (transmit_pairingOnly ..)
  | route => exact hsame (by simp) (by simp) (by simp)
  | answer => exact hsame (by simp) (by simp) (by simp)
  | reject => exact hsame (by simp [RelayServer.update]) (by simp) (by simp)
  | _ => exact hsame (by simp [RelayServer.update]) rfl rfl

theorem Graves.next (h : Graves relay) (hfeasible : relay.Feasible step) :
    Graves (next platform relay step) := by
  by_cases hknown : Known step relay
  · have hboth : Graves (RelayServer.next platform relay step) ∧
        Known step (RelayServer.next platform relay step) :=
      Relation.ReflTransGen.invariant (I := fun state => Graves state ∧ Known step state)
        (fun _ _ change hstate => hstate.1.change hstate.2 change)
        (next_changes platform hfeasible) ⟨h, hknown⟩
    exact hboth.1
  · -- A socket without a session has nothing to lose.
    simp only [Known, not_forall] at hknown
    obtain ⟨socket, hinput, hnew⟩ := hknown
    have hnone : socket ∉ relay.sessions := fun hmem => hnew (h.numbered socket hmem)
    rw [RelayServer.next, hinput]
    simpa [turn, disconnected, hnone] using h

theorem run_graves (run : (machine platform).Run Feasible trace relay) : Graves relay := by
  refine run.invariant_state ?_ fun _ _ h hfeasible => h.next hfeasible
  rintro state ⟨time, rfl⟩
  exact ⟨by simp [Buried], by simp, by simp⟩

/-- The books of any run can be kept. -/
theorem run_books (run : (machine platform).Run Feasible trace relay) :
    ∃ answered turn, Books platform trace relay answered turn := by
  induction run with
  | start hinit =>
      obtain ⟨time, rfl⟩ := hinit
      refine ⟨[], fun _ => 0, .nil, by simp, by simp, by simp, by simp, by simp, ?_, by simp,
        by simp [openRoutes], by simp⟩
      rintro n key route ⟨_, _, _, hturn, -⟩
      simp [turnAt] at hturn
  | @step trace relay step run hfeasible ih =>
      obtain ⟨answered, turn, h⟩ := ih
      rcases next_effect (run_graves run).buried hfeasible with
        ⟨ended, hsettles, hspeaks⟩ | ⟨result, hasks, hroutes, huuids, hreplies⟩ |
          ⟨hasks, htarget, hclient, htotal, hroutes, huuids, hreplies⟩
      · exact ⟨_, _, h.settle hsettles hspeaks⟩
      · exact ⟨_, _, h.refuse hasks hroutes huuids hreplies⟩
      · exact ⟨_, _, h.accept hasks htarget hclient htotal hroutes huuids hreplies⟩

/-- **Relayed requests are conserved.**  Every response answers a request of its own, made
by the socket that gets it under the id it chose, and a result that is not the relay's own
comes from the host of that request.  A request that opened a route waits, got its
response, or its client could not be reached after the turn that ended the route. -/
theorem run_requests_conserved (run : (machine platform).Run Feasible trace relay) :
    (∃ answered : List ℕ, List.Forall₂ (Answers platform trace) (replies relay.log) answered ∧
      answered.Nodup ∧ ∀ n key route, Opened platform trace n key route →
        relay.routes.lookup key = some route ∨ n ∈ answered ∨ Lost platform trace key route) ∧
      (∀ client, relay.openRoutes client ≤ 32) ∧ relay.routes.keys.length ≤ 1024 := by
  obtain ⟨answered, turn, h⟩ := run_books run
  refine ⟨⟨answered, h.matched, h.nodup, fun n key route hopened => ?_⟩, h.perClient, h.total⟩
  exact (h.followed n key route hopened).imp_left And.left

/-- A host and a client register, and the client makes a request. -/
def requesting : List Input :=
  [.newConnection, .newConnection,
    .text 0 (.ofList [("type", .string "auth"), ("credential", .string "x")]),
    .text 1 (.ofList [("type", .string "auth"), ("credential", .string "x")]),
    .completion 0 ⟨"a", (90000 : ℤ)⟩, .completion 1 ⟨"a", (90000 : ℤ)⟩,
    .text 0 (.ofList [("type", .string "register"), ("peerId", .string "h"),
      ("service", .string "s"), ("host", .bool true)]),
    .text 1 (.ofList [("type", .string "register"), ("peerId", .string "c"),
      ("service", .string "s")]),
    .text 1 (.ofList [("type", .string "request"), ("id", .string "r"), ("peerId", .string "h"),
      ("payload", .object [])])]

/-- The host answers. -/
def answering : List Step :=
  (requesting ++ [Input.text 0 (.ofList [("type", .string "response"), ("id", .string "0"),
    ("result", .bool true)])]).map fun input => ⟨input, fun _ _ => false⟩

/-- The host does not answer in time. -/
def waiting : List Step :=
  (requesting ++ [Input.clock 15001]).map fun input => ⟨input, fun _ _ => false⟩

theorem run_requests_conserved_answering : ∃ relay trace,
    (machine .sample).Run Feasible trace relay ∧ (replies relay.log).length = 1 ∧
      (∃ answered : List ℕ, List.Forall₂ (Answers .sample trace) (replies relay.log) answered ∧
        answered.Nodup ∧ ∀ n key route, Opened .sample trace n key route →
          relay.routes.lookup key = some route ∨ n ∈ answered ∨ Lost .sample trace key route) ∧
        (∀ client, relay.openRoutes client ≤ 32) ∧ relay.routes.keys.length ≤ 1024 := by
  have hstart : (machine .sample).Run Feasible [] { now := 0 } := .start ⟨0, rfl⟩
  obtain ⟨trace, run⟩ := hstart.extend answering
    ⟨trivial, trivial, trivial, trivial, trivial, trivial, trivial, trivial, trivial, trivial,
      trivial⟩
  exact ⟨_, trace, run, by decide +kernel, run_requests_conserved run⟩

/-- The queue of the client is full when the time of its request is over: the relay closes
the socket of a client that is live, and no response leaves. -/
theorem not_answered_waiting : ∃ trace relay step, (machine .sample).Run Feasible trace relay ∧
    relay.Feasible step ∧ ∃ key route, relay.routes.lookup key = some route ∧
      relay.Reachable route.client ∧ (next .sample relay step).active route.client = true ∧
      key ∉ (next .sample relay step).routes ∧
      replies (next .sample relay step).log = replies relay.log := by
  have hstart : (machine .sample).Run Feasible [] { now := 0 } := .start ⟨0, rfl⟩
  obtain ⟨trace, run⟩ := hstart.extend waiting
    ⟨trivial, trivial, trivial, trivial, trivial, trivial, trivial, trivial, trivial,
      trivial, trivial⟩
  have hclient : ((waiting.foldl (machine .sample).next { now := 0 }).routes.lookup "0").map
      Route.client = some 1 := by decide +kernel
  obtain ⟨route, hroute, hone⟩ := Option.map_eq_some_iff.1 hclient
  refine ⟨trace, _, ⟨.sweep, fun _ _ => true⟩, run, trivial, "0", route, hroute, ?_⟩
  rw [hone]
  have hbefore : (replies (waiting.foldl (machine .sample).next { now := 0 }).log).length = 0 := by
    decide +kernel
  have hafter : (replies (next .sample (waiting.foldl (machine .sample).next { now := 0 })
      ⟨.sweep, fun _ _ => true⟩).log).length = 0 := by decide +kernel
  exact ⟨⟨by decide +kernel, by decide +kernel⟩, by decide +kernel, by decide +kernel,
    (List.length_eq_zero_iff.1 hafter).trans (List.length_eq_zero_iff.1 hbefore).symm⟩

end

end RelayServer

end ServerHost
