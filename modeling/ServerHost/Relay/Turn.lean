import ServerHost.Relay.Changes

/-!
# One turn of the relay

Every handler makes only the changes listed in `Change`.
-/

namespace ServerHost

namespace RelayServer

variable {platform : Platform} {pre : RelayServer} {step : Step}

/-! ## Bookkeeping writes to a session -/

theorem session_update (relay : RelayServer) (socket other : Socket) (f : Session → Session) :
    (relay.update socket f).session other =
      if other = socket ∧ socket ∈ relay.sessions then f (relay.session socket)
      else relay.session other := by
  simp only [session, Table.value, update, Table.lookup_modify]
  by_cases h : other = socket
  · subst h
    cases hlookup : relay.sessions.lookup other with
    | none => simp [AList.lookup_eq_none.1 hlookup]
    | some value => simp [Table.mem_of_lookup hlookup]
  · simp [h]

theorem countAttempt_keeps (now : ℤ) : Keeps (countAttempt now) := by
  intro session
  unfold countAttempt
  split <;> exact ⟨rfl, rfl, rfl, rfl, rfl⟩

section
variable {f : Session → Session} (h : Keeps f) (relay : RelayServer) (socket : Socket)
include h

theorem Keeps.session (other : Socket) :
    ((relay.update socket f).session other).principal = (relay.session other).principal ∧
      ((relay.update socket f).session other).id = (relay.session other).id ∧
      ((relay.update socket f).session other).service = (relay.session other).service ∧
      ((relay.update socket f).session other).descriptor = (relay.session other).descriptor := by
  rw [session_update]
  split
  · next hsocket =>
      obtain ⟨hprincipal, hid, hservice, -, hdescriptor⟩ := h (relay.session socket)
      rw [hsocket.1]
      exact ⟨hprincipal, hid, hservice, hdescriptor⟩
  · exact ⟨rfl, rfl, rfl, rfl⟩

theorem Keeps.active (other : Socket) :
    (relay.update socket f).active other = relay.active other := by
  simp only [RelayServer.active, update, Table.lookup_modify]
  by_cases hother : other = socket
  · subst hother
    cases relay.sessions.lookup other with
    | none => simp
    | some session => simp [(h session).1]
  · simp [hother]

theorem Keeps.target (source : Socket) (id : String) :
    (relay.update socket f).target source id = relay.target source id := by
  obtain ⟨hprincipal, -, hservice, -⟩ := h.session relay socket source
  have hreaches : ∀ entry : Sigma fun _ : Socket => Session,
      reaches relay.now ((relay.update socket f).session source) id
          (if entry.1 = socket then f entry.2 else entry.2) =
        reaches relay.now (relay.session source) id entry.2 := by
    intro entry
    obtain ⟨hp, hi, hs, -, hd⟩ := h entry.2
    unfold reaches
    split <;> simp only [hprincipal, hservice, hp, hi, hs, hd]
  simp only [RelayServer.target, update_now]
  simp only [update] at hreaches ⊢
  simp only [Table.modify, List.find?_map, Option.map_map, Function.comp_def] at hreaches ⊢
  simp only [hreaches]

end

/-! ## Pairing -/

theorem pairConfirm_changes {socket : Socket} {message : JsonObject}
    (hinput : step.input = .text socket message) (htype : messageType message = "pair-confirm") :
    Changes platform pre step pre (pre.pairConfirm (transmit step.full) socket message) := by
  unfold pairConfirm
  dsimp only
  cases h : pre.pairs.lookup (message.value "pairingId").toString with
  | none => exact .refl
  | some pair =>
      dsimp only
      split
      · exact .refl
      · next hclient =>
          rw [not_not] at hclient
          split
          · exact .single (.finish h (.inr (.inl rfl)))
          · next hchecks =>
              push Not at hchecks
              obtain ⟨hpending, hhost, hactive, htarget⟩ := hchecks
              refine .single (.finish h (.inr (.inr ⟨rfl, rfl, ?_⟩)))
              exact { stored := h, spoken := ⟨message, hclient ▸ hinput, htype, rfl⟩
                      pending := hpending, host_active := hhost, client_active := hactive
                      registered := hclient ▸ htarget }

theorem pairOffer_changes {relay : RelayServer} {socket : Socket} {message : JsonObject}
    (id : String) (hinput : step.input = .text socket message)
    (hactive : relay.active socket = true) :
    Changes platform pre step relay
      (relay.pairOffer platform (transmit step.full) socket id) := by
  unfold pairOffer
  split
  · exact changes_send (.inl ⟨rfl, rfl⟩)
  · next hhost =>
      have honly := cancelPairing_pairingOnly step.full socket "" relay
      have hunpaired := cancelPairing_unpaired step.full socket relay
      have hcancel : Changes platform pre step relay _ := cancelPairing_changes socket "" relay
      generalize relay.cancelPairing (transmit step.full) socket "" = cancelled at *
      obtain ⟨state, hstate, -⟩ := active_iff.1 (honly.active socket ▸ hactive)
      have hsession : cancelled.session socket = state := session_of_lookup hstate
      have hdescriptor : state.descriptor.isEmpty = false := by
        rw [← hsession, honly.session]
        simpa using hhost
      refine hcancel.trans ?_
      dsimp only
      rw [hsession]
      exact Relation.ReflTransGen.trans (.single (.issue id hinput hstate
        (honly.active socket ▸ hactive) hdescriptor hunpaired))
        (changes_send (.inr ⟨_, _, rfl, rfl, List.mem_cons_self⟩))

theorem claims_of_checks {relay : RelayServer} {socket : Socket} {message : JsonObject}
    {offer : Offer} (hinput : step.input = .text socket message)
    (htype : messageType message = "pair-claim") (hactive : relay.active socket = true)
    (hid : (relay.session socket).id ≠ "")
    (hstored : relay.offers.lookup (platform.sha256 (toLatin1 (message.value "code").toString)) =
      some offer)
    (hpending : (relay.now : DateTime) < offer.expires) (hhost : relay.active offer.host = true)
    (hclient : (relay.session socket).descriptor.isEmpty = true)
    (htarget : relay.target socket (message.value "host").toString = some offer.host) :
    Claims platform relay step socket
      (platform.sha256 (toLatin1 (message.value "code").toString)) offer where
  stored := hstored
  spoken := ⟨message, hinput, htype, rfl⟩
  pending := hpending
  host_active := hhost
  client_active := hactive
  meets := ⟨hactive, hid, _, htarget⟩
  is_client := hclient

theorem pairClaim_changes {relay : RelayServer} {socket : Socket} {message : JsonObject}
    {f : Session → Session} (hkeeps : Keeps f) (hrelay : relay = pre.update socket f) (id : String)
    (hinput : step.input = .text socket message) (htype : messageType message = "pair-claim")
    (hactive : pre.active socket = true) (hid : (pre.session socket).id ≠ "") :
    Changes platform pre step relay
      (relay.pairClaim platform (transmit step.full) socket id message) := by
  unfold pairClaim
  dsimp only
  cases h : relay.offers.lookup (platform.sha256 (toLatin1 (message.value "code").toString)) with
  | none => exact changes_send (.inl ⟨rfl, rfl⟩)
  | some offer =>
      dsimp only
      split
      · exact changes_send (.inl ⟨rfl, rfl⟩)
      · next hchecks =>
          push Not at hchecks
          obtain ⟨-, hpending, -, hhost, hclient, -, htarget⟩ := hchecks
          -- The checks are made before the old pairings are cancelled.
          have hbefore : Claims platform pre step socket
              (platform.sha256 (toLatin1 (message.value "code").toString)) offer := by
            subst hrelay
            rw [hkeeps.active] at hhost
            rw [(hkeeps.session pre socket socket).2.2.2] at hclient
            rw [hkeeps.target] at htarget
            exact claims_of_checks hinput htype hactive hid h hpending hhost hclient htarget
          have hid' : (relay.session socket).id ≠ "" := by
            rw [hrelay, (hkeeps.session pre socket socket).2.1]
            exact hid
          have hactive' : relay.active socket = true := by
            rw [hrelay, hkeeps.active]
            exact hactive
          have hnow : relay.now = pre.now := by rw [hrelay, update_now]
          have hne : offer.host ≠ socket := (target_spec htarget).1
          -- Cancelling them changes neither a session nor the clock,
          -- and leaves the offer of another host where it is.
          have honly := cancelPairing_pairingOnly step.full socket "" relay
          have hunpaired := cancelPairing_unpaired step.full socket relay
          have hcancel : Changes platform pre step relay _ := cancelPairing_changes socket "" relay
          have hstored := lookup_cancelPairing_offers step.full "" h hne
          generalize relay.cancelPairing (transmit step.full) socket "" = cancelled at *
          rw [← honly.active] at hhost hactive'
          rw [← honly.session] at hclient hid'
          rw [← honly.target] at htarget
          rw [← honly.now] at hpending
          -- So the checks still hold where the pair is inserted.
          have hclaims := claims_of_checks hinput htype hactive' hid' hstored hpending hhost
            hclient htarget
          refine hcancel.trans (.head (.claim id hclaims hbefore (honly.now.trans hnow) hunpaired)
            (.head (.send ?_) (.single (.send ?_))))
          · exact ⟨rfl, _, AList.lookup_insert _, .inl ⟨rfl, rfl⟩⟩
          · refine ⟨rfl, ⟨offer.host, socket, offer.request, id,
              min (DateTime.addSecs cancelled.now 15) offer.expires⟩, ?_, .inr ⟨rfl, rfl⟩⟩
            rw [transmit_pairs]
            exact AList.lookup_insert _

theorem pairMessage_changes {socket : Socket} {message : JsonObject}
    (hinput : step.input = .text socket message) (hactive : pre.active socket = true)
    (hid : (pre.session socket).id ≠ "") :
    Changes platform pre step pre
      (pre.pairMessage platform (transmit step.full) socket message) := by
  have hcount := countAttempt_keeps pre.now
  unfold pairMessage
  dsimp only
  split
  · next htype => exact pairConfirm_changes hinput htype
  · split
    · exact .single (.close socket)
    · split
      · exact cancelPairing_changes ..
      · refine .head (.touch socket _ hcount) ?_
        split
        · exact changes_send (.inl ⟨rfl, rfl⟩)
        · split
          · exact pairOffer_changes _ hinput (by rw [hcount.active]; exact hactive)
          · split
            · next htype => exact pairClaim_changes hcount rfl _ hinput htype hactive hid
            · exact .single (.close socket)

/-! ## The directory -/

theorem directory_changes (relay : RelayServer) (socket : Socket) :
    Changes platform pre step relay (relay.directory (transmit step.full) socket) := by
  unfold directory
  dsimp only
  split
  · exact .refl
  · next h =>
      push Not at h
      refine changes_send ⟨h.1, h.2, ?_⟩
      intro listed hlisted
      obtain ⟨entry, hentry, rfl⟩ := List.mem_map.1 hlisted
      simp only [List.mem_filter, Bool.and_eq_true] at hentry
      exact ⟨entry.2, Table.lookup_of_mem_entries hentry.1, hentry.2.2, rfl⟩

theorem changed_changes (relay : RelayServer) :
    Changes platform pre step relay (relay.changed (transmit step.full)) :=
  Relation.ReflTransGen.foldl directory_changes _ _

/-! ## The end of a session -/

theorem dropRoute_changes (socket : Socket) (relay : RelayServer) (key : String) :
    Changes platform pre step relay (relay.dropRoute (transmit step.full) socket key) := by
  unfold dropRoute
  cases relay.routes.lookup key with
  | none => exact .refl
  | some route =>
      dsimp only
      split
      · refine .head (.discard key) ?_
        split
        · exact changes_send rfl
        · exact .refl
      · exact .refl

theorem dropRoute_sessions (full : Socket → Outgoing → Bool) (socket : Socket)
    (relay : RelayServer) (key : String) :
    (relay.dropRoute (transmit full) socket key).sessions = relay.sessions := by
  unfold dropRoute
  cases relay.routes.lookup key with
  | none => rfl
  | some route =>
      dsimp only
      split
      · split <;> simp
      · rfl

theorem directory_sessions (full : Socket → Outgoing → Bool) (relay : RelayServer)
    (socket : Socket) :
    (relay.directory (transmit full) socket).sessions = relay.sessions := by
  unfold directory
  dsimp only
  split <;> simp

theorem foldl_sessions {α : Type*} {f : RelayServer → α → RelayServer}
    (h : ∀ relay a, (f relay a).sessions = relay.sessions) (list : List α) (relay : RelayServer) :
    (list.foldl f relay).sessions = relay.sessions :=
  list.foldlRecOn f (motive := fun after => after.sessions = relay.sessions) rfl
    fun after hafter a _ => (h after a).trans hafter

theorem remove_changes {socket : Socket} (hinput : step.input = .disconnected socket) :
    Changes platform pre step pre (pre.remove (transmit step.full) socket) := by
  unfold remove
  refine (cancelPairing_changes ..).trans (.head (.forget hinput (cancelPairing_unpaired ..))
    ((Relation.ReflTransGen.foldl (dropRoute_changes socket) _ _).trans ((changed_changes _).trans
      (.single (.bury hinput ?_)))))
  rw [changed, foldl_sessions (directory_sessions step.full),
    foldl_sessions (dropRoute_sessions step.full socket)]
  simp [AList.mem_erase]

/-! ## `sweep` -/

theorem sweep_changes (relay : RelayServer) :
    Changes platform pre step relay (relay.sweep (transmit step.full)) := by
  unfold sweep
  refine (Relation.ReflTransGen.foldl ?offers _ _).trans
    ((Relation.ReflTransGen.foldl ?pairs _ _).trans
    ((Relation.ReflTransGen.foldl ?sessions _ _).trans (Relation.ReflTransGen.foldl ?routes _ _)))
  -- Each walk is over a snapshot of keys; what is gone by then is passed over.
  case offers =>
    intro relay hash
    unfold sweepOffer
    cases h : relay.offers.lookup hash with
    | none => exact .refl
    | some offer =>
        dsimp only
        split
        · exact .single (.withdraw h (.inr rfl))
        · exact .refl
  case pairs =>
    intro relay key
    unfold sweepPair
    cases h : relay.pairs.lookup key with
    | none => exact .refl
    | some pair =>
        dsimp only
        split
        · exact .single (.finish h (.inr (.inl rfl)))
        · exact .refl
  case sessions =>
    intro relay socket
    unfold sweepSession
    dsimp only
    split
    · exact .single (.close socket)
    · exact .refl
  case routes =>
    intro relay key
    unfold sweepRoute
    cases relay.routes.lookup key with
    | none => exact .refl
    | some route =>
        dsimp only
        split
        · refine .head (.discard key) ?_
          split
          · exact changes_send rfl
          · exact .refl
        · exact .refl

/-! ## `message` -/

theorem authMessage_changes (socket : Socket) (message : JsonObject) (relay : RelayServer) :
    Changes platform pre step relay (relay.authMessage socket message) := by
  unfold authMessage
  dsimp only
  split
  · exact .single (.close socket)
  · exact .head (.touch socket (fun session => { session with authenticating := true })
      fun _ => ⟨rfl, rfl, rfl, rfl, rfl⟩) (.single (.ask socket _))

theorem authCompleted_changes {socket : Socket} {principal : Principal}
    (hinput : step.input = .completion socket principal) :
    Changes platform pre step pre (pre.authCompleted (transmit step.full) socket principal) := by
  unfold authCompleted
  cases h : pre.sessions.lookup socket with
  | none => exact .refl
  | some state =>
      dsimp only
      refine .head (.touch socket (fun session => { session with authenticating := false })
        fun _ => ⟨rfl, rfl, rfl, rfl, rfl⟩) ?_
      have hlookup : (pre.update socket
          fun session => { session with authenticating := false }).sessions.lookup socket =
            some { state with authenticating := false } := by
        simp [update, Table.lookup_modify, h]
      generalize (pre.update socket
        fun session => { session with authenticating := false }) = relay at *
      split
      · have honly := cancelPairing_pairingOnly step.full socket "" relay
        refine (cancelPairing_changes socket "" relay).trans (.single ?_)
        rw [← honly.sessions] at hlookup
        exact .reject hinput hlookup (cancelPairing_unpaired ..)
      · next hchecks =>
          push Not at hchecks
          refine .head (.verify hinput hlookup hchecks.1 ?_) (changes_send (by trivial))
          by_cases haccount : state.principal.accountId = ""
          · exact .inl haccount
          · exact .inr (hchecks.2 haccount)

theorem registerMessage_changes {socket : Socket} {message : JsonObject}
    (hinput : step.input = .text socket message) (hactive : pre.active socket = true) :
    Changes platform pre step pre
      (pre.registerMessage platform (transmit step.full) socket message) := by
  obtain ⟨state, hstate, -⟩ := active_iff.1 hactive
  have hsession : pre.session socket = state := session_of_lookup hstate
  unfold registerMessage
  simp only [hsession]
  split
  · exact .single (.close socket)
  · next hshape =>
      split
      · refine .head (.send ?_) (.single (.close socket))
        trivial
      · next hduplicate =>
          split
          · exact .single (.close socket)
          · next hpinned =>
              push Not at hshape hpinned
              refine .head (.register _ _ hinput rfl hstate hactive hshape.1 hshape.2.1
                (by simpa using hduplicate) ?_ ?_) ?_
              · exact or_iff_not_imp_left.2 hpinned.1
              · exact or_iff_not_imp_left.2 hpinned.2
              · refine .trans ?_ (.head (.send ?_) (changed_changes _))
                · split
                  · exact cancelPairing_changes ..
                  · exact .refl
                · trivial

theorem connectMessage_changes {socket : Socket} {message : JsonObject} {relay : RelayServer}
    (hactive : relay.active socket = true) (hid : (relay.session socket).id ≠ "") :
    Changes platform pre step relay
      (relay.connectMessage platform (transmit step.full) socket message) := by
  unfold connectMessage
  dsimp only
  cases h : relay.target socket (message.value "peerId").toString with
  | none =>
      refine changes_send ?_
      trivial
  | some host =>
      have hmeets : relay.Meets socket host := ⟨hactive, hid, _, h⟩
      dsimp only
      rw [touch_transmit step.full h]
      refine .head .draw (.head (.send ?_) (changes_send ?_))
      · exact ⟨hmeets, rfl, rfl⟩
      · refine ⟨((transmit_pairingOnly ..).meets socket host).2 hmeets, rfl, ?_⟩
        simp only [(transmit_pairingOnly ..).session]
        rfl

theorem requestMessage_changes {socket : Socket} {message : JsonObject}
    (hinput : step.input = .text socket message) (hactive : pre.active socket = true)
    (hid : (pre.session socket).id ≠ "") :
    Changes platform pre step pre
      (pre.requestMessage platform (transmit step.full) socket message) := by
  unfold requestMessage
  dsimp only
  split
  · exact .single (.close socket)
  · split
    · exact changes_send rfl
    · next host htarget =>
        split
        · exact changes_send rfl
        · exact .single (.route _ hinput rfl ⟨hactive, hid, _, htarget⟩)

theorem responseMessage_changes {socket : Socket} {message : JsonObject}
    (hinput : step.input = .text socket message) (hactive : pre.active socket = true) :
    Changes platform pre step pre (pre.responseMessage (transmit step.full) socket message) := by
  unfold responseMessage
  dsimp only
  cases h : pre.routes.lookup (message.value "id").toString with
  | none => exact .refl
  | some route =>
      dsimp only
      split
      · exact .refl
      · next hhost =>
          rw [not_not] at hhost
          subst hhost
          split
          · next hclient => exact .single (.answer hinput rfl h hactive hclient.2)
          · exact .single (.discard _)

theorem message_changes {socket : Socket} {message : JsonObject}
    (hinput : step.input = .text socket message) :
    Changes platform pre step pre (pre.message platform (transmit step.full) socket message) := by
  unfold RelayServer.message
  dsimp only
  split
  · exact .refl
  split
  · exact authMessage_changes ..
  split
  · exact .single (.close socket)
  next hactive =>
  rw [not_not] at hactive
  split
  · exact registerMessage_changes hinput hactive
  split
  · exact .single (.close socket)
  next hid =>
  split
  · exact pairMessage_changes hinput hactive hid
  split
  · exact directory_changes ..
  split
  · exact connectMessage_changes hactive hid
  split
  · exact requestMessage_changes hinput hactive hid
  split
  · exact responseMessage_changes hinput hactive
  · exact .single (.close socket)

/-! ## The event loop -/

/-- **One turn of the event loop is a sequence of elementary changes.** -/
theorem next_changes (platform : Platform) {relay : RelayServer} {step : Step}
    (hfeasible : relay.Feasible step) :
    Changes platform relay step relay (next platform relay step) := by
  unfold next turn
  cases hinput : step.input with
  | clock time => exact .single (.clock time hinput rfl)
  | newConnection =>
      simp only [newConnection]
      split
      · exact .single (.refuse hinput)
      · exact .single (.welcome hinput)
  | text socket message => exact message_changes hinput
  | binary socket =>
      dsimp only
      split
      · exact .single (.close socket)
      · exact .refl
  | completion socket principal => exact authCompleted_changes hinput
  | disconnected socket =>
      dsimp only [disconnected]
      split
      · exact remove_changes hinput
      · exact .refl
  | sweep => exact sweep_changes relay
  | stop => exact .single (.stop hinput)
  | rehash sessions routes offers pairs =>
      simp only [Feasible, hinput] at hfeasible
      obtain ⟨hsessions, hroutes, hoffers, hpairs⟩ := hfeasible
      exact .single (.rehash hsessions hroutes hoffers hpairs)

end RelayServer

end ServerHost
