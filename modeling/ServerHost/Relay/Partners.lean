import ServerHost.Relay.Turn

/-!
# A socket takes part in one pairing

A socket is the host of an offer, or one side of a pair, at most once.  An offer turns
into a pair for its host in the same change, and whoever offers or claims has left its
earlier pairing before.
-/

namespace ServerHost

namespace RelayServer

/-- The number of offers of a host. -/
def offersOf (relay : RelayServer) (socket : Socket) : ℕ :=
  Table.count (fun offer => offer.host = socket) relay.offers

/-- The number of pairs in which a socket is host or client. -/
def pairsOf (relay : RelayServer) (socket : Socket) : ℕ :=
  Table.count (fun pair => pair.host = socket ∨ pair.client = socket) relay.pairs

/-- No socket is in two pairings. -/
def Single (relay : RelayServer) : Prop :=
  ∀ socket, relay.offersOf socket + relay.pairsOf socket ≤ 1

variable {platform : Platform} {pre relay after : RelayServer} {step : Step}

/-! ## What a change does to the counts -/

theorem Unpaired.offersOf {socket : Socket} (h : relay.Unpaired socket) :
    relay.offersOf socket = 0 :=
  Table.count_eq_zero (h.1.imp fun _ _ _ hne => decide_eq_false hne)

theorem Unpaired.pairsOf {socket : Socket} (h : relay.Unpaired socket) :
    relay.pairsOf socket = 0 :=
  Table.count_eq_zero (h.2.imp fun _ _ _ hne => decide_eq_false (not_or.2 hne))

theorem Single.of_le (h : Single relay)
    (hoffers : ∀ socket, after.offersOf socket ≤ relay.offersOf socket)
    (hpairs : ∀ socket, after.pairsOf socket ≤ relay.pairsOf socket) : Single after :=
  fun socket => (Nat.add_le_add (hoffers socket) (hpairs socket)).trans (h socket)

theorem Single.of_eq (h : Single relay) (hoffers : after.offers = relay.offers)
    (hpairs : after.pairs = relay.pairs) : Single after := by
  refine h.of_le (fun socket => ?_) fun socket => ?_
  · rw [offersOf, offersOf, hoffers]
  · rw [pairsOf, pairsOf, hpairs]

/-- A host that takes part in nothing makes an offer. -/
theorem Single.issue (h : Single relay) {hash : String} {offer : Offer}
    (hunpaired : relay.Unpaired offer.host)
    (hoffers : after.offers = relay.offers.insert hash offer)
    (hpairs : after.pairs = relay.pairs) : Single after := by
  intro socket
  have hinsert : after.offersOf socket ≤
      relay.offersOf socket + if decide (offer.host = socket) then 1 else 0 := by
    rw [RelayServer.offersOf, hoffers]
    exact Table.count_insert_le ..
  have hsame : after.pairsOf socket = relay.pairsOf socket := by
    rw [RelayServer.pairsOf, RelayServer.pairsOf, hpairs]
  by_cases hhost : offer.host = socket
  · subst hhost
    rw [hunpaired.offersOf, if_pos (decide_eq_true rfl)] at hinsert
    rw [hsame, hunpaired.pairsOf]
    exact hinsert
  · rw [if_neg (by simpa using hhost)] at hinsert
    rw [hsame]
    exact (Nat.add_le_add_right hinsert _).trans (h socket)

/-- An offer turns into a pair with a client that takes part in nothing. -/
theorem Single.claim (h : Single relay) {hash key : String} {offer : Offer} {pair : Pair}
    (hstored : relay.offers.lookup hash = some offer) (hhost : pair.host = offer.host)
    (hunpaired : relay.Unpaired pair.client) (hoffers : after.offers = relay.offers.erase hash)
    (hpairs : after.pairs = relay.pairs.insert key pair) : Single after := by
  intro socket
  have hsingle := h socket
  have herase : after.offersOf socket + (if decide (offer.host = socket) then 1 else 0) =
      relay.offersOf socket := by
    rw [RelayServer.offersOf, hoffers]
    exact Table.count_erase hstored
  have hinsert : after.pairsOf socket ≤ relay.pairsOf socket +
      if decide (pair.host = socket ∨ pair.client = socket) then 1 else 0 := by
    rw [RelayServer.pairsOf, hpairs]
    exact Table.count_insert_le ..
  by_cases hclient : pair.client = socket
  · subst hclient
    have hnone := hunpaired.offersOf
    rw [hunpaired.pairsOf, if_pos (by simp)] at hinsert
    omega
  · by_cases hsocket : offer.host = socket
    · -- The offer counted for the host; the pair counts in its place.
      rw [if_pos (decide_eq_true hsocket)] at herase
      rw [if_pos (by simp [hhost, hsocket])] at hinsert
      omega
    · rw [if_neg (by simpa using hsocket)] at herase
      rw [if_neg (by simp [hhost, hsocket, hclient])] at hinsert
      omega

theorem Single.change (h : Single relay) (change : Change platform pre step relay after) :
    Single after := by
  cases change with
  | issue id hinput hstate hactive hhost hunpaired => exact h.issue hunpaired rfl rfl
  | claim id hclaims hbefore hnow hunpaired => exact h.claim hclaims.stored rfl hunpaired rfl rfl
  | withdraw hoffer hstatus =>
      refine h.of_le (fun socket => ?_) fun socket => ?_
      · rw [RelayServer.offersOf, withdrawOffer_offers]
        exact Table.count_erase_le ..
      · rw [RelayServer.pairsOf, withdrawOffer_pairs]
        rfl
  | finish hpair hstatus =>
      refine h.of_le (fun socket => ?_) fun socket => ?_
      · rw [RelayServer.offersOf, finishPair_offers]
        rfl
      · rw [RelayServer.pairsOf, finishPair_pairs, if_pos (Table.mem_of_lookup hpair)]
        exact Table.count_erase_le ..
  | stop => exact fun socket => Nat.zero_le 1
  | rehash hsessions hroutes hoffers hpairs =>
      exact h.of_le (fun socket => (hoffers.count _).le) fun socket => (hpairs.count _).le
  | reject => exact h.of_eq (transmit_offers ..) (transmit_pairs ..)
  | send => exact h.of_eq (transmit_offers ..) (transmit_pairs ..)
  | route => exact h.of_eq (transmit_offers ..) (transmit_pairs ..)
  | answer => exact h.of_eq (transmit_offers ..) (transmit_pairs ..)
  | _ => exact h.of_eq rfl rfl

/-! ## The run -/

/-- **A socket takes part in at most one pairing.** -/
theorem run_single {trace : List (RelayServer × Step)}
    (run : (machine platform).Run Feasible trace relay) (socket : Socket) :
    relay.offersOf socket + relay.pairsOf socket ≤ 1 := by
  refine run.invariant_state (I := Single) ?_ (fun state input h hfeasible => ?_) socket
  · rintro _ ⟨time, rfl⟩
    exact fun socket => Nat.zero_le 1
  · exact (next_changes platform hfeasible).invariant (fun _ _ change hstate =>
      hstate.change change) h

/-- A host with an offer registers as a client and claims the offer of another host. -/
def switching : List Step :=
  ([.newConnection, .newConnection,
    .text 0 (.ofList [("type", .string "auth"), ("credential", .string "x")]),
    .text 1 (.ofList [("type", .string "auth"), ("credential", .string "x")]),
    .completion 0 ⟨"a", (90000 : ℤ)⟩, .completion 1 ⟨"a", (90000 : ℤ)⟩,
    .text 0 (.ofList [("type", .string "register"), ("peerId", .string "h"),
      ("service", .string "s"), ("host", .bool true)]),
    .text 1 (.ofList [("type", .string "register"), ("peerId", .string "c"),
      ("service", .string "s"), ("host", .bool true)]),
    .text 1 (.ofList [("type", .string "pair-offer"), ("id", .string "i")]),
    .text 1 (.ofList [("type", .string "register"), ("peerId", .string "c"),
      ("service", .string "s")]),
    .text 0 (.ofList [("type", .string "pair-offer"), ("id", .string "i")]),
    .text 1 (.ofList [("type", .string "pair-claim"), ("id", .string "j"), ("host", .string "h"),
      ("code", .string (String.ofList (List.replicate 64 '0')))])] : List Input).map
    fun input => ⟨input, fun _ _ => false⟩

theorem run_single_switching : ∃ relay trace, (machine .sample).Run Feasible trace relay ∧
    relay.pairsOf 1 = 1 ∧ relay.offersOf 1 + relay.pairsOf 1 ≤ 1 := by
  have hstart : (machine .sample).Run Feasible [] { now := 0 } := .start ⟨0, rfl⟩
  have run := hstart.visits switching ⟨trivial, trivial, trivial, trivial, trivial, trivial,
    trivial, trivial, trivial, trivial, trivial, trivial, trivial⟩
  exact ⟨_, _, run, by decide +kernel, run_single run 1⟩

end RelayServer

end ServerHost
