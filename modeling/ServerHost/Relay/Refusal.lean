import ServerHost.Relay.Turn

/-!
# A claim that fails

Whatever the reason, a `pair-claim` that is refused is answered by one and the same error
and changes nothing but the count of attempts.  Offers of other accounts and services play
no part in it: a claim is refused with them when it is refused without them.
-/

namespace ServerHost

namespace RelayServer

variable (platform : Platform) (relay : RelayServer) (socket : Socket) (message : JsonObject)

/-! ## What a claim needs -/

/-- The message reaches the branch of `pairMessage` for `pair-claim`. -/
structure Attempted : Prop where
  known : socket ∈ relay.sessions
  active : relay.active socket = true
  registered : (relay.session socket).id ≠ ""
  type : messageType message = "pair-claim"
  identified : identifier (message.value "id").toString = true
  allowed : (countAttempt relay.now (relay.session socket)).pairingAttempts ≤ 6

/-- What the relay checks before it accepts a claim. -/
structure Grants (offer : Offer) : Prop where
  stored : relay.offers.lookup (platform.sha256 (toLatin1 (message.value "code").toString)) =
    some offer
  length : size (message.value "code").toString = 64
  pending : (relay.now : DateTime) < offer.expires
  alive : relay.alive offer.host = true
  active : relay.active offer.host = true
  is_client : (relay.session socket).descriptor.isEmpty = true
  named : (relay.session offer.host).id = (message.value "host").toString
  found : relay.target socket (message.value "host").toString = some offer.host

/-- The answer to a claim that is refused. -/
def refusal : Outgoing :=
  .pairing none none (message.value "id").toString "error"
    [("error", .string "pairing_invalid_or_expired")]

/-- The offer is of the account and the service of the socket. -/
def Shares (offer : Offer) : Prop :=
  (relay.session offer.host).principal.accountId = (relay.session socket).principal.accountId ∧
    (relay.session offer.host).service = (relay.session socket).service

/-- The table holds the same offers of the account and the service of the socket. -/
def Agrees (offers : Table String Offer) : Prop :=
  ∀ hash offer, relay.Shares socket offer →
    (relay.offers.lookup hash = some offer ↔ offers.lookup hash = some offer)

variable {platform relay socket message}

/-! ## A claim that is refused -/

theorem Grants.shares {offer : Offer} (h : Grants platform relay socket message offer) :
    relay.Shares socket offer := by
  obtain ⟨-, session, hsession, hreaches⟩ := target_spec h.found
  obtain ⟨-, -, -, haccount, hservice⟩ := reaches_iff.1 hreaches
  rw [Shares, session_of_lookup hsession]
  exact ⟨haccount, hservice⟩

/-- An offer is accepted in both tables or in neither. -/
theorem Agrees.grants {offers : Table String Offer} (h : relay.Agrees socket offers)
    {offer : Offer} : Grants platform { relay with offers := offers } socket message offer ↔
      Grants platform relay socket message offer := by
  constructor
  · intro hgrants
    have hshares : relay.Shares socket offer := hgrants.shares
    exact ⟨(h _ offer hshares).2 hgrants.stored, hgrants.length, hgrants.pending,
      hgrants.alive, hgrants.active, hgrants.is_client, hgrants.named, hgrants.found⟩
  · intro hgrants
    exact ⟨(h _ offer hgrants.shares).1 hgrants.stored, hgrants.length, hgrants.pending,
      hgrants.alive, hgrants.active, hgrants.is_client, hgrants.named, hgrants.found⟩

/-- The count of attempts decides nothing about an offer. -/
theorem grants_update {f : Session → Session} (hkeeps : Keeps f) {offer : Offer} :
    Grants platform (relay.update socket f) socket message offer ↔
      Grants platform relay socket message offer := by
  have hactive := hkeeps.active relay socket offer.host
  have htarget := hkeeps.target relay socket socket (message.value "host").toString
  have hsession := hkeeps.session relay socket
  constructor
  · rintro ⟨hstored, hlength, hpending, halive, hhost, hclient, hnamed, hfound⟩
    rw [hactive] at hhost
    rw [htarget] at hfound
    rw [(hsession socket).2.2.2] at hclient
    rw [(hsession offer.host).2.1] at hnamed
    exact ⟨hstored, hlength, hpending, halive, hhost, hclient, hnamed, hfound⟩
  · rintro ⟨hstored, hlength, hpending, halive, hhost, hclient, hnamed, hfound⟩
    rw [← hactive] at hhost
    rw [← htarget] at hfound
    rw [← (hsession socket).2.2.2] at hclient
    rw [← (hsession offer.host).2.1] at hnamed
    exact ⟨hstored, hlength, hpending, halive, hhost, hclient, hnamed, hfound⟩

theorem pairClaim_of_refused {send : Send}
    (h : ∀ offer, ¬ Grants platform relay socket message offer) :
    relay.pairClaim platform send socket (message.value "id").toString message =
      send socket (refusal message) relay := by
  unfold pairClaim
  dsimp only
  cases hstored : relay.offers.lookup
      (platform.sha256 (toLatin1 (message.value "code").toString)) with
  | none => rfl
  | some offer =>
      dsimp only
      rw [if_pos, refusal]
      by_contra hchecks
      push Not at hchecks
      obtain ⟨hlength, hpending, halive, hactive, hclient, hnamed, hfound⟩ := hchecks
      exact h offer ⟨hstored, hlength, hpending, halive, hactive, hclient, hnamed, hfound⟩

/-- What a claim that is refused comes to. -/
theorem message_of_refused {send : Send} (hattempted : relay.Attempted socket message)
    (h : ∀ offer, ¬ Grants platform relay socket message offer) :
    relay.message platform send socket message =
      send socket (refusal message) (relay.update socket (countAttempt relay.now)) := by
  have htype := hattempted.type
  have hcount : ¬ ((relay.update socket (countAttempt relay.now)).session socket).pairingAttempts
      > 6 := by
    rw [session_update, if_pos ⟨rfl, hattempted.known⟩]
    exact not_lt.2 hattempted.allowed
  have hrefused : ∀ offer, ¬ Grants platform (relay.update socket (countAttempt relay.now))
      socket message offer :=
    fun offer hgrants => h offer ((grants_update (countAttempt_keeps relay.now)).1 hgrants)
  have hpair : startsWith "pair-claim" "pair-" = true := by decide
  unfold RelayServer.message
  dsimp only
  rw [if_neg (not_not.2 hattempted.known), htype, if_neg (by decide),
    if_neg (not_not.2 hattempted.active), if_neg (by decide), if_neg hattempted.registered,
    if_pos hpair]
  unfold pairMessage
  dsimp only
  rw [htype, if_neg (by decide), if_neg (not_not.2 hattempted.identified), if_neg (by decide),
    if_neg hcount, if_neg (by decide), if_pos rfl]
  exact pairClaim_of_refused hrefused

/-- The answer to a message does not look at the offers. -/
theorem transmit_offers_irrelevant (full : Socket → Outgoing → Bool) (answer : Outgoing)
    (offers : Table String Offer) :
    transmit full socket answer { relay with offers := offers } =
      { transmit full socket answer relay with offers := offers } := by
  unfold transmit
  split
  · rfl
  · split <;> rfl

/-! ## The reply -/

/-- **A claim that fails reveals and changes nothing.**  It is answered by one error, and
offers, pairs and routes stay; with other offers of other accounts or services the relay
does the same. -/
theorem claim_refused (full : Socket → Outgoing → Bool)
    (hattempted : relay.Attempted socket message)
    (h : ∀ offer, ¬ Grants platform relay socket message offer) :
    let step : Step := ⟨.text socket message, full⟩
    let after := next platform relay step
    after = transmit full socket (refusal message) (relay.update socket (countAttempt relay.now)) ∧
    after.offers = relay.offers ∧ after.pairs = relay.pairs ∧ after.routes = relay.routes ∧
    ∀ offers, relay.Agrees socket offers →
      next platform { relay with offers := offers } step = { after with offers := offers } := by
  intro step after
  have hafter : after =
      transmit full socket (refusal message) (relay.update socket (countAttempt relay.now)) :=
    message_of_refused hattempted h
  refine ⟨hafter, ?_, ?_, ?_, fun offers hagrees => ?_⟩
  · rw [hafter, transmit_offers, update_offers]
  · rw [hafter, transmit_pairs, update_pairs]
  · rw [hafter, transmit_routes, update_routes]
  · have hother : Attempted { relay with offers := offers } socket message :=
      ⟨hattempted.known, hattempted.active, hattempted.registered, hattempted.type,
        hattempted.identified, hattempted.allowed⟩
    have hnone : ∀ offer,
        ¬ Grants platform { relay with offers := offers } socket message offer :=
      fun offer hgrants => h offer (hagrees.grants.1 hgrants)
    rw [hafter, ← transmit_offers_irrelevant]
    exact message_of_refused hother hnone

/-- A client, and an offer of a host of another account. -/
def neighbours : RelayServer where
  now := 0
  sessions := Table.ofList [(0, { principal := ⟨"a", (60000 : ℤ)⟩, id := "c", service := "s" }),
    (1, { principal := ⟨"b", (60000 : ℤ)⟩, id := "h", service := "s"
          descriptor := ⟨[("peerId", .string "h")]⟩ })]
  offers := Table.ofList
    [(Platform.sample.sha256 (toLatin1 (String.ofList (List.replicate 64 '0'))),
    ⟨1, "r", (60000 : ℤ), 0⟩)]

/-- The client claims the offer of that host. -/
def claimOfOther : JsonObject :=
  .ofList [("type", .string "pair-claim"), ("id", .string "i"), ("host", .string "h"),
    ("code", .string (String.ofList (List.replicate 64 '0')))]

theorem claim_refused_neighbours :
    (next .sample neighbours ⟨.text 0 claimOfOther, fun _ _ => false⟩).offers =
      neighbours.offers ∧
    next .sample { neighbours with offers := ∅ } ⟨.text 0 claimOfOther, fun _ _ => false⟩ =
      { next .sample neighbours ⟨.text 0 claimOfOther, fun _ _ => false⟩ with offers := ∅ } := by
  have htarget : neighbours.target 0 (claimOfOther.value "host").toString = none := by
    decide +kernel
  have hforeign : ∀ offer, ¬ neighbours.Shares 0 offer ∨ offer.host ≠ 1 := by
    intro offer
    by_cases hhost : offer.host = 1
    · refine .inl fun hshares => ?_
      rw [Shares, hhost] at hshares
      exact absurd hshares.1 (by decide +kernel)
    · exact .inr hhost
  have hattempted : neighbours.Attempted 0 claimOfOther :=
    ⟨by decide +kernel, by decide +kernel, by decide +kernel, by decide +kernel,
      by decide +kernel, by decide +kernel⟩
  have hnone : ∀ offer, ¬ Grants .sample neighbours 0 claimOfOther offer :=
    fun offer hgrants => by simpa [htarget] using hgrants.found
  obtain ⟨-, hoffers, -, -, hsame⟩ := claim_refused (fun _ _ => false) hattempted hnone
  refine ⟨hoffers, hsame ∅ fun hash offer hshares => ?_⟩
  have habsent : neighbours.offers.lookup hash ≠ some offer := by
    intro hstored
    rcases Table.lookup_insert_eq_some.1 hstored with ⟨-, rfl⟩ | ⟨-, hempty⟩
    · exact (hforeign _).elim (· hshares) fun hne => hne rfl
    · simp at hempty
  simp [habsent]

end RelayServer

end ServerHost
