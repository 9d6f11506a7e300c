import Mathlib.Tactic.IntervalCases
import ServerHost.Peer.Requests

/-!
# The endpoints a peer dials

The descriptor of a host is untrusted.  `connectMessage` keeps the URLs that `endpoint` and
`onLink` accept, `nextLocal` parses their texts again, and a ticket leaves over TLS only
when the certificate is the one of the descriptor.

## Strategy

`Watched` carries along a run where every stored URL, every dialled socket and every
`hello` comes from.  Each of them names the turn of the run that decided it.
-/

namespace ServerHost

namespace Peer

/-! ## Broadcast addresses -/

/-- `broadcast` looks at the bits of the host part. -/
theorem broadcast_iff (address : Address) {prefixLength : ℕ} (h : prefixLength ≤ 32) :
    broadcast address prefixLength = true ↔
      ∀ bit < 32 - prefixLength, (hostNumber address).testBit bit = true := by
  have hmask : 0xffffffff >>> prefixLength = 2 ^ (32 - prefixLength) - 1 := by
    interval_cases prefixLength <;> rfl
  have hbits : ∀ bit, (2 ^ (32 - prefixLength) - 1).testBit bit =
      decide (bit < 32 - prefixLength) := fun bit => Nat.testBit_two_pow_sub_one _ bit
  unfold broadcast
  dsimp only
  rw [decide_eq_true_iff, hmask]
  constructor
  · intro hand bit hbit
    have hboth := congrArg (Nat.testBit · bit) hand
    simpa [Nat.testBit_and, hbits, hbit] using hboth
  · intro hall
    refine Nat.eq_of_testBit_eq fun bit => ?_
    rw [Nat.testBit_and, hbits]
    by_cases hbit : bit < 32 - prefixLength
    · simp [hbit, hall bit hbit]
    · simp [hbit]

/-! ## Safe endpoints -/

/-- The address lies in the subnet of an interface, and is not its broadcast address. -/
structure InSubnet (platform : Platform) (address : Address) (entry : Interface) : Prop where
  active : entry.prefixLength ≠ 0
  inside : ∃ own, platform.address entry.address = some own ∧
    platform.inSubnet own entry.prefixLength address = true
  single : address.ipv4 = true → entry.prefixLength < 32 →
    ¬ ∀ bit < 32 - entry.prefixLength, (hostNumber address).testBit bit = true

/-- An address that may be dialled: one of the local network, or a loopback address if the
relay is one. -/
structure Nearby (platform : Platform) (relayUrl : String) (interfaces : List Interface)
    (address : Address) : Prop where
  unicast : address.multicast = false ∧ address.unspecified = false
  loopback : address.loopback = true →
    ServerHost.loopback platform (platform.url relayUrl).host = true
  near : address.loopback = false → ∃ entry ∈ interfaces, InSubnet platform address entry

/-- What may be dialled, with the fingerprint that TLS is pinned to. -/
structure Safe (platform : Platform) (relayUrl : String) (interfaces : List Interface)
    (fingerprint : String) (url : Url) (pin : Option String) : Prop where
  near : ∃ address, platform.address url.host = some address ∧
    Nearby platform relayUrl interfaces address ∧ (url.scheme = "ws" → address.loopback = true)
  scheme : url.scheme = "ws" ∨
    (url.scheme = "wss" ∧ hexToken fingerprint = true ∧ pin = some fingerprint)

/-- A `connect` message of the run offers the URL under the fingerprint. -/
structure Offers (platform : Platform) (visit : Peer × Step) (fingerprint : String) (url : Url) :
    Prop where
  offer : ∃ message, Told visit.1 visit.2 "connect" message ∧
    url ∈ descriptorUrls platform message ∧
    fingerprint = ((message.value "descriptor").toObject.value "fingerprint").toString
  accepted : endpoint platform url "wss" "ws" = true
  linked : visit.1.onLink platform visit.2.world url = true

variable {platform : Platform}

theorem onLink_nearby {peer : Peer} {world : World} {url : Url}
    (h : peer.onLink platform world url = true) :
    ∃ address, platform.address url.host = some address ∧
      Nearby platform peer.options.relayUrl world.interfaces address := by
  unfold onLink at h
  cases haddress : platform.address url.host with
  | none => simp [haddress] at h
  | some address =>
      refine ⟨address, rfl, ?_⟩
      rw [haddress] at h
      dsimp only at h
      -- a multicast, unspecified or broadcast address is never on the link
      by_cases hspecial : address.multicast = true ∨ address.unspecified = true ∨
          address.text = "255.255.255.255"
      · rw [if_pos hspecial] at h
        cases h
      rw [if_neg hspecial] at h
      simp only [not_or, Bool.not_eq_true] at hspecial
      refine ⟨⟨hspecial.1, hspecial.2.1⟩, fun hloopback => ?_, fun hloopback => ?_⟩
      · rwa [if_pos hloopback] at h
      rw [hloopback, if_neg Bool.false_ne_true] at h
      obtain ⟨entry, hentry, hinside⟩ := List.any_eq_true.1 h
      refine ⟨entry, hentry, ?_⟩
      cases hown : platform.address entry.address with
      | none => simp [hown] at hinside
      | some own =>
          simp only [hown, Bool.and_eq_true, ne_eq, Bool.not_eq_true', decide_not] at hinside
          obtain ⟨⟨hactive, hsubnet⟩, hsingle⟩ := hinside
          refine ⟨by simpa using hactive, ⟨own, hown, hsubnet⟩, fun hipv4 hlt hall => ?_⟩
          have hbroadcast := (broadcast_iff address hlt.le).2 hall
          simp [hipv4, hlt, hbroadcast] at hsingle

/-- What a descriptor offers and the peer accepts is safe to dial. -/
theorem Offers.safe {visit : Peer × Step} {fingerprint : String} {url : Url}
    {pin : Option String} (h : Offers platform visit fingerprint url)
    (hpinned : url.scheme = "wss" → hexToken fingerprint = true ∧ pin = some fingerprint) :
    Safe platform visit.1.options.relayUrl visit.2.world.interfaces fingerprint url pin := by
  obtain ⟨address, haddress, hnear⟩ := onLink_nearby h.linked
  have haccepted := h.accepted
  simp only [endpoint, Bool.and_eq_true, Bool.or_eq_true, decide_eq_true_eq] at haccepted
  obtain ⟨-, hscheme⟩ := haccepted
  refine ⟨⟨address, haddress, hnear, fun hplain => ?_⟩, ?_⟩
  · rcases hscheme with hsecure | ⟨-, hloopback⟩
    · exact absurd (hplain.symm.trans hsecure) (by decide)
    · simpa [loopback, haddress] using hloopback
  · rcases hscheme with hsecure | ⟨hplain, -⟩
    · exact .inr ⟨hsecure, hpinned hsecure⟩
    · exact .inl hplain

/-! ## The run -/

/-- The text of an accepted URL stands for the same URL. -/
def Reparses (platform : Platform) : Prop :=
  ∀ text, endpoint platform (platform.url text) "wss" "ws" = true →
    platform.url (platform.url text).text = platform.url text

/-- Where the stored URLs, the dialled sockets and the tickets that were sent come from. -/
structure Watched (platform : Platform) (trace : List (Peer × Step)) (peer : Peer) : Prop where
  stored : ∀ peerId attempt, peer.attempts.lookup peerId = some attempt →
    ∀ text ∈ attempt.urls,
      ∃ visit ∈ trace, Offers platform visit attempt.fingerprint (platform.url text)
  dialled : ∀ socket url, peer.dialling.lookup socket = some url →
    ∃ visit ∈ trace, ∃ fingerprint, Offers platform visit fingerprint url ∧
      (url.scheme = "wss" →
        hexToken fingerprint = true ∧ peer.pins.lookup socket = some fingerprint) ∧
      ∀ link, socket ∈ peer.attached → peer.links.lookup socket = some link →
        link.fingerprint = fingerprint
  below : ∀ socket url, peer.dialling.lookup socket = some url → socket < peer.sockets
  attached : ∀ socket ∈ peer.attached, socket ∈ peer.links
  hello : ∀ socket message, .sent (.link socket) message ∈ events peer.log →
    message.contains "ticket" = true →
    ∃ visit ∈ trace, ∃ certificate url, visit.2.input = .linkConnected socket certificate ∧
      visit.1.dialling.lookup socket = some url ∧
      (url.scheme = "wss" → visit.1.pins.lookup socket = some certificate ∧
        ∃ origin ∈ trace, Offers platform origin certificate url)

variable {trace more : List (Peer × Step)} {pre peer after : Peer} {step : Step}

theorem Watched.mono (h : Watched platform trace peer) (hmore : trace ⊆ more) :
    Watched platform more peer := by
  refine { h with stored := ?_, dialled := ?_, hello := ?_ }
  · intro peerId attempt hattempt text htext
    obtain ⟨visit, hvisit, hoffers⟩ := h.stored peerId attempt hattempt text htext
    exact ⟨visit, hmore hvisit, hoffers⟩
  · intro socket url hurl
    obtain ⟨visit, hvisit, hrest⟩ := h.dialled socket url hurl
    exact ⟨visit, hmore hvisit, hrest⟩
  · intro socket message hsent hticket
    obtain ⟨visit, hvisit, certificate, url, hinput, hurl, hpinned⟩ :=
      h.hello socket message hsent hticket
    refine ⟨visit, hmore hvisit, certificate, url, hinput, hurl, fun hscheme => ?_⟩
    obtain ⟨hpin, origin, horigin, hoffers⟩ := hpinned hscheme
    exact ⟨hpin, origin, hmore horigin, hoffers⟩

/-- Nothing happens but events that send no ticket. -/
theorem Watched.frame (h : Watched platform trace peer)
    (hattempts : after.attempts = peer.attempts) (hdialling : after.dialling = peer.dialling)
    (hpins : after.pins = peer.pins) (hlinks : after.links = peer.links)
    (hattached : after.attached = peer.attached) (hsockets : peer.sockets ≤ after.sockets)
    (hlog : Grows (fun entry => ∀ channel message, entry.event = .sent channel message →
      message.contains "ticket" = false) peer.log after.log) :
    Watched platform trace after := by
  refine ⟨hattempts ▸ h.stored, ?_, ?_, ?_, ?_⟩
  · rw [hdialling, hpins, hlinks, hattached]
    exact h.dialled
  · rw [hdialling]
    exact fun socket url hurl => (h.below socket url hurl).trans_le hsockets
  · rw [hattached, hlinks]
    exact h.attached
  · intro socket message hsent hticket
    obtain ⟨entry, hentry, heq⟩ := List.mem_map.1 hsent
    rcases hlog.mem hentry with hold | hnew
    · exact h.hello socket message (heq ▸ List.mem_map_of_mem hold) hticket
    · rw [hnew _ _ heq] at hticket
      cases hticket

/-- Links come and go, and those that stay keep their fingerprint. -/
theorem Watched.relink (h : Watched platform trace peer)
    (hattempts : after.attempts = peer.attempts) (hdialling : after.dialling = peer.dialling)
    (hpins : after.pins = peer.pins) (hsockets : peer.sockets ≤ after.sockets)
    (hattached : ∀ socket ∈ after.attached, socket ∈ after.links)
    (hkept : ∀ socket < peer.sockets, ∀ link, socket ∈ after.attached →
      after.links.lookup socket = some link → socket ∈ peer.attached ∧
        ∃ old, peer.links.lookup socket = some old ∧ old.fingerprint = link.fingerprint)
    (hlog : Grows (fun entry => ∀ channel message, entry.event ≠ .sent channel message)
      peer.log after.log) : Watched platform trace after := by
  refine ⟨hattempts ▸ h.stored, ?_, ?_, hattached, ?_⟩
  · rw [hdialling, hpins]
    intro socket url hurl
    obtain ⟨visit, hvisit, fingerprint, hoffers, hpin, hlink⟩ := h.dialled socket url hurl
    refine ⟨visit, hvisit, fingerprint, hoffers, hpin, fun link hmem hlookup => ?_⟩
    obtain ⟨hbefore, old, hold, heq⟩ := hkept socket (h.below socket url hurl) link hmem hlookup
    exact heq ▸ hlink old hbefore hold
  · rw [hdialling]
    exact fun socket url hurl => (h.below socket url hurl).trans_le hsockets
  · intro socket message hsent hticket
    obtain ⟨entry, hentry, heq⟩ := List.mem_map.1 hsent
    rcases hlog.mem hentry with hold | hnew
    · exact h.hello socket message (heq ▸ List.mem_map_of_mem hold) hticket
    · exact absurd heq (hnew _ _)

/-- A URL that was offered is dialled, or given up before it is opened. -/
theorem Watched.dial (h : Watched platform trace peer) {peerId : String} {attempt : Attempt}
    (hattempt : peer.attempts.lookup peerId = some attempt) :
    Watched platform trace (peer.dial peerId attempt) := by
  have hlinks : ∀ socket < peer.sockets,
      (peer.dial peerId attempt).links.lookup socket = peer.links.lookup socket :=
    fun socket hlt => AList.lookup_insert_ne hlt.ne
  refine ⟨fun other own hown text htext => ?_, fun socket url hurl => ?_, fun socket url hurl => ?_,
    fun socket hsocket => ?_, fun socket message hsent => ?_⟩
  · rcases Table.lookup_insert_eq_some.1 hown with ⟨-, rfl⟩ | ⟨-, hold⟩
    · exact h.stored peerId attempt hattempt text (List.mem_of_mem_tail htext)
    · exact h.stored other own hold text htext
  · obtain ⟨visit, hvisit, fingerprint, hoffers, hpin, hlink⟩ := h.dialled socket url hurl
    refine ⟨visit, hvisit, fingerprint, hoffers, hpin, fun link hmem hlookup => ?_⟩
    rw [hlinks socket (h.below socket url hurl)] at hlookup
    exact hlink link hmem hlookup
  · exact (h.below socket url hurl).trans (Nat.lt_succ_self _)
  · exact (AList.mem_insert _).2 (.inr (h.attached socket hsocket))
  · refine h.hello socket message ?_
    exact (List.mem_cons.1 hsent).resolve_left (by simp)

theorem Watched.reach (h : Watched platform trace peer) {peerId text : String} {attempt : Attempt}
    (hattempt : peer.attempts.lookup peerId = some attempt) (htext : text ∈ attempt.urls)
    (hpinned : (platform.url text).scheme = "wss" → hexToken attempt.fingerprint = true) :
    Watched platform trace ((peer.dial peerId attempt).attach peer.sockets (platform.url text)
      attempt.fingerprint) := by
  have hdial := h.dial hattempt
  -- the new pin belongs to the new socket
  have hpins : ∀ socket < peer.sockets, ((peer.dial peerId attempt).attach peer.sockets
      (platform.url text) attempt.fingerprint).pins.lookup socket = peer.pins.lookup socket := by
    intro socket hlt
    dsimp only [Peer.attach]
    split
    · exact AList.lookup_insert_ne hlt.ne
    · rfl
  refine { hdial with
    dialled := fun socket url hurl => ?_
    below := fun socket url hurl => ?_
    attached := fun socket hsocket => ?_ }
  · rcases Table.lookup_insert_eq_some.1 hurl with ⟨rfl, rfl⟩ | ⟨hne, hold⟩
    · obtain ⟨visit, hvisit, hoffers⟩ := h.stored peerId attempt hattempt text htext
      refine ⟨visit, hvisit, attempt.fingerprint, hoffers, fun hscheme => ⟨hpinned hscheme, ?_⟩,
        fun link _ hlookup => ?_⟩
      · dsimp only [Peer.attach]
        rw [if_pos hscheme]
        exact AList.lookup_insert _
      · obtain rfl := Option.some.inj ((AList.lookup_insert _).symm.trans hlookup)
        rfl
    · obtain ⟨visit, hvisit, fingerprint, hoffers, hpin, hlink⟩ := hdial.dialled socket url hold
      have hlt := h.below socket url hold
      refine ⟨visit, hvisit, fingerprint, hoffers, ?_, fun link hmem hlookup => ?_⟩
      · rw [hpins socket hlt]
        exact hpin
      · refine hlink link ?_ hlookup
        exact (List.mem_cons.1 hmem).resolve_left hlt.ne
  · rcases Table.lookup_insert_eq_some.1 hurl with ⟨rfl, -⟩ | ⟨-, hold⟩
    · exact Nat.lt_succ_self _
    · exact (h.below socket url hold).trans (Nat.lt_succ_self _)
  · rcases List.mem_cons.1 hsocket with rfl | hold
    · exact (AList.mem_insert _).2 (.inl rfl)
    · exact (AList.mem_insert _).2 (.inr (h.attached socket hold))

/-- A message of `remote` or `local` has no ticket of its own. -/
theorem requestOver_ticket (channel : Channel) (id peerId : String) (payload : JsonObject) :
    (requestOver channel id peerId payload).contains "ticket" = false := by
  cases channel <;> rfl

/-- Every link is forgotten. -/
theorem Watched.resetLocal (h : Watched platform trace peer) :
    Watched platform trace peer.resetLocal := by
  refine { h with
    stored := fun peerId attempt hattempt => ?_
    dialled := fun socket url hurl => ?_
    attached := fun socket hsocket => ?_ }
  · cases hattempt
  · obtain ⟨visit, hmem, fingerprint, hoffers, hpin, -⟩ := h.dialled socket url hurl
    exact ⟨visit, hmem, fingerprint, hoffers, hpin, fun link _ hlookup => by cases hlookup⟩
  · obtain ⟨hold, hnone⟩ := List.mem_filter.1 hsocket
    exact absurd (h.attached socket hold) (of_decide_eq_true hnone)

/-- **What an elementary change of a turn that the trace holds keeps.** -/
theorem Watched.change (hparse : Reparses platform) (h : Watched platform trace peer)
    (hpre : Watched platform trace pre) (hvisit : (pre, step) ∈ trace)
    (change : Change platform pre step peer after) : Watched platform trace after := by
  -- Most changes write one event, or none, and touch no link.
  have hone : ∀ {time : ℤ} {event : Event} {log : List Entry},
      (∀ channel message, event ≠ .sent channel message) →
      Grows (fun entry => ∀ channel message, entry.event = .sent channel message →
        message.contains "ticket" = false) log (⟨time, event⟩ :: log) :=
    fun hevent => .cons fun channel message heq => absurd heq (hevent channel message)
  have hlinks : ∀ {entry : Entry} {log : List Entry},
      (∀ channel message, entry.event ≠ .sent channel message) →
      Grows (fun entry => ∀ channel message, entry.event ≠ .sent channel message) log
        (entry :: log) := fun hevent => .cons hevent
  cases change with
  | quiet hquiet =>
      refine h.frame hquiet.attempts hquiet.dialling hquiet.pins hquiet.links hquiet.attached
        hquiet.sockets ?_
      refine hquiet.log.mono fun entry hplain channel message heq => ?_
      rw [heq] at hplain
      simp only [Event.plain, Bool.and_eq_true, Bool.not_eq_true'] at hplain
      exact hplain.2
  | relayLost =>
      have hdown : Watched platform trace (peer.emit .relayLost).relayDown :=
        h.frame rfl rfl rfl rfl rfl le_rfl (hone (by simp))
      exact hdown.resetLocal
  | reset => exact h.resetLocal
  | take result hmem =>
      obtain ⟨request, hrequest⟩ := Table.mem_iff_lookup.1 hmem
      rw [take_of_lookup hrequest]
      exact h.frame rfl rfl rfl rfl rfl le_rfl (hone (by simp))
  | answer result hrequest =>
      rw [take_of_lookup hrequest]
      exact h.frame rfl rfl rfl rfl rfl le_rfl (hone (by simp))
  | recreate hnone =>
      rw [index_of_not_mem hnone]
      exact h.frame rfl rfl rfl rfl rfl le_rfl (hone (by simp))
  | flushing =>
      refine { h with
        stored := fun peerId attempt hattempt => ?_
        hello := fun socket message hsent => ?_ }
      · exact h.stored peerId attempt (Table.lookup_erase_eq_some.1 hattempt).2
      · exact h.hello socket message ((List.mem_cons.1 hsent).resolve_left (by simp))
  | @handSent _ id channel request =>
      refine h.frame rfl rfl rfl rfl rfl le_rfl (Grows.trans (hone (by simp)) (.cons ?_))
      rintro other message heq
      cases heq
      exact requestOver_ticket ..
  | request peerId payload =>
      simp only [Peer.request]
      split <;> exact h.frame rfl rfl rfl rfl rfl le_rfl (hone (by simp))
  | takeIn =>
      refine h.relink rfl rfl rfl (Nat.le_succ _) (fun socket hsocket => ?_)
        (fun socket hlt link hmem hlookup => ?_) (.of_eq rfl)
      · rcases List.mem_cons.1 hsocket with rfl | hold
        · exact (AList.mem_insert _).2 (.inl rfl)
        · exact (AList.mem_insert _).2 (.inr (h.attached socket hold))
      · refine ⟨(List.mem_cons.1 hmem).resolve_left hlt.ne, link, ?_, rfl⟩
        exact (AList.lookup_insert_ne hlt.ne).symm.trans hlookup
  | @prepare message htold hconnecting =>
      refine { h with
        stored := fun peerId attempt hattempt text htext => ?_ }
      rcases Table.lookup_insert_eq_some.1 hattempt with ⟨-, rfl⟩ | ⟨-, hold⟩
      · -- The text is that of a URL which both checks accepted.
        obtain ⟨url, hurl, rfl⟩ := List.mem_map.1 htext
        obtain ⟨hdescribed, haccepted⟩ := List.mem_filter.1 hurl
        rw [Bool.and_eq_true] at haccepted
        obtain ⟨value, -, rfl⟩ := List.mem_map.1 hdescribed
        rw [hparse _ haccepted.1]
        exact ⟨(pre, step), hvisit, ⟨message, htold, hdescribed, rfl⟩, haccepted.1, haccepted.2⟩
      · exact h.stored peerId attempt hold text htext
  | dial _ hattempt => exact h.dial hattempt
  | reach _ hattempt htext hpinned => exact h.reach hattempt htext hpinned
  | connected socket =>
      refine { h with
        dialled := fun other url hurl => ?_
        below := fun other url hurl => ?_ }
      · exact h.dialled other url (Table.lookup_erase_eq_some.1 hurl).2
      · exact h.below other url (Table.lookup_erase_eq_some.1 hurl).2
  | @greeted _ socket fingerprint url link hinput hattached hurl hlink hpinned =>
      refine { h with
        hello := fun other message hsent hticket => ?_ }
      rcases List.mem_cons.1 hsent with heq | hold
      · cases heq
        refine ⟨(pre, step), hvisit, fingerprint, url, hinput, hurl, fun hscheme => ?_⟩
        obtain ⟨origin, horigin, pinned, hoffers, hpin, hsame⟩ := hpre.dialled socket url hurl
        rw [hpinned hscheme, hsame link hattached hlink]
        exact ⟨(hpin hscheme).2, origin, horigin, hoffers⟩
      · exact h.hello other message hold hticket
  | welcome hheard =>
      refine h.relink rfl rfl rfl le_rfl (fun socket hsocket => ?_)
        (fun socket _ link hmem hlookup => ⟨hmem, ?_⟩) (.of_eq rfl)
      · exact Table.mem_modify.2 (h.attached socket hsocket)
      · rcases Table.lookup_modify_eq_some.1 hlookup with ⟨rfl, old, hold, rfl⟩ | ⟨-, hold⟩
        · exact ⟨old, hold, rfl⟩
        · exact ⟨link, hold, rfl⟩
  | present hheard =>
      refine h.relink rfl rfl rfl le_rfl (fun socket hsocket => ?_)
        (fun socket _ link hmem hlookup => ⟨hmem, ?_⟩) (hlinks (by simp))
      · exact Table.mem_modify.2 (h.attached socket hsocket)
      · rcases Table.lookup_modify_eq_some.1 hlookup with ⟨rfl, old, hold, rfl⟩ | ⟨-, hold⟩
        · exact ⟨old, hold, rfl⟩
        · exact ⟨link, hold, rfl⟩
  | @unlink _ gone link hlink =>
      refine h.relink rfl rfl rfl le_rfl (fun socket hsocket => ?_)
        (fun socket _ other hmem hlookup => ?_) (hlinks (by simp))
      · obtain ⟨hold, hother⟩ := List.mem_filter.1 hsocket
        exact AList.mem_erase.2 ⟨of_decide_eq_true hother, h.attached socket hold⟩
      · refine ⟨(List.mem_filter.1 hmem).1, other, ?_, rfl⟩
        exact (Table.lookup_erase_eq_some.1 hlookup).2
  | @phantom _ gone hnone =>
      refine h.relink rfl rfl rfl le_rfl (fun socket hsocket => ?_)
        (fun socket _ link hmem hlookup => ⟨hmem, ?_⟩) (.of_eq rfl)
      · exact (AList.mem_insert _).2 (.inr (h.attached socket hsocket))
      · rcases Table.lookup_insert_eq_some.1 hlookup with ⟨rfl, -⟩ | ⟨-, hold⟩
        · exact absurd (h.attached _ hmem) hnone
        · exact ⟨link, hold, rfl⟩
  | ticket =>
      simp only [ticketMessage]
      split
      · exact h
      · exact h.frame rfl rfl rfl rfl rfl le_rfl (hone (by simp))
  | refuse | hand | serve =>
      exact h.frame rfl rfl rfl rfl rfl le_rfl (hone (by simp))
  | _ => exact h.frame rfl rfl rfl rfl rfl le_rfl (.of_eq rfl)

theorem run_watched (hparse : Reparses platform)
    (run : (machine platform).Run (fun _ _ => True) trace peer) :
    Watched platform trace peer := by
  induction run with
  | start hinit =>
      obtain ⟨time, rfl⟩ := hinit
      refine ⟨?_, ?_, ?_, by simp, by simp [events]⟩
      all_goals
        intro key value hlookup
        cases hlookup
  | @step trace pre step run _ ih =>
      have hpre : Watched platform ((pre, step) :: trace) pre := ih.mono (List.subset_cons_self _ _)
      exact (next_changes platform pre step).invariant
        (fun _ _ change h => h.change hparse hpre List.mem_cons_self change) hpre

/-- What a peer promises of the sockets it opens, and of the tickets it sends. -/
structure Confined (platform : Platform) (trace : List (Peer × Step)) (peer : Peer) : Prop where
  endpoints : ∀ socket url, peer.dialling.lookup socket = some url →
    ∃ visit ∈ trace, ∃ fingerprint, Offers platform visit fingerprint url ∧
      Safe platform visit.1.options.relayUrl visit.2.world.interfaces fingerprint url
        (peer.pins.lookup socket)
  tickets : ∀ socket message, .sent (.link socket) message ∈ events peer.log →
    message.contains "ticket" = true →
    ∃ visit ∈ trace, ∃ certificate url, visit.2.input = .linkConnected socket certificate ∧
      visit.1.dialling.lookup socket = some url ∧
      (url.scheme = "wss" → visit.1.pins.lookup socket = some certificate ∧
        ∃ origin ∈ trace, Offers platform origin certificate url)

/-- **Every socket that is dialled leads to a safe endpoint, and a ticket leaves over TLS only
when the certificate is the one of the descriptor.** -/
theorem run_confined (hparse : Reparses platform)
    (run : (machine platform).Run (fun _ _ => True) trace peer) : Confined platform trace peer := by
  have hwatched := run_watched hparse run
  refine ⟨fun socket url hurl => ?_, hwatched.hello⟩
  obtain ⟨visit, hvisit, fingerprint, hoffers, hpinned, -⟩ := hwatched.dialled socket url hurl
  exact ⟨visit, hvisit, fingerprint, hoffers, hoffers.safe hpinned⟩

/-- A message with some texts. -/
def textMessage (fields : List (String × String)) : JsonObject :=
  ⟨fields.map fun field => (field.1, .string field.2)⟩

/-- A peer has a request for the host `h`, and asks the relay for its URLs. -/
def seeking : List Input :=
  [.start { Options.sample with relayUrl := "wss://relay", localEnabled := true } true (.ok 0),
    .relayConnected,
    .relayText (textMessage [("type", "registered")]),
    .relayText ⟨[("type", .string "peers"), ("peers", .array [(textMessage [("peerId", "h")]).json,
      (textMessage [("peerId", "g")]).json])]⟩,
    .request "h" ⟨[]⟩, .startRequest "0"]

/-- A platform that knows the network `10.0.0.0/24`. -/
def nearbyPlatform : Platform := { Platform.sample with
  url := fun text =>
    { valid := true
      scheme := "wss"
      host := String.ofList (text.toList.drop 6)
      port := 443
      text := text }
  address := fun text =>
    if text = "10.0.0.1" then
        some { text := text, ipv4 := true, bytes := [10, 0, 0, 1], loopback := false }
    else if text = "10.0.0.2" then
      some { text := text, ipv4 := true, bytes := [10, 0, 0, 2], loopback := false }
    else none
  inSubnet := fun own prefixLength other => prefixLength = 24 &&
    own.bytes.take 3 = other.bytes.take 3 }

/-- The network of the peer. -/
def nearbyWorld : World := { World.sample with
  interfaces := [{ address := "10.0.0.1", prefixLength := 24 }] }

/-- A fingerprint. -/
def nearbyFingerprint : String := String.ofList (List.replicate 64 'f')

/-- The relay tells the URL of a host, after two that may not be dialled. -/
def connectOf (peerId : String) : Input :=
  .relayText ⟨[("type", .string "connect"), ("peerId", .string peerId), ("ticket", .string "t"),
    ("expires", .string "60000"), ("descriptor", .object
      [("localUrls", .array [.string "wss://10.0.1.2", .string "wss://10.0.0.255",
        .string "wss://10.0.0.2"]), ("fingerprint", .string nearbyFingerprint)])]⟩

/-- The first host is reached, and the second one is dialled. -/
def nearbyMeeting : List Input :=
  seeking ++ [connectOf "h", .linkConnected 0 nearbyFingerprint, .request "g" ⟨[]⟩,
    .startRequest "1", connectOf "g"]

/-- A host of the network is dialled under its fingerprint, and gets the ticket. -/
theorem run_confined_nearby : ∃ trace peer,
    (machine nearbyPlatform).Run (fun _ _ => True) trace peer ∧
      .sent (.link 0) (helloMessage "t") ∈ events peer.log ∧
      (∃ url, peer.dialling.lookup 1 = some url ∧ url.text = "wss://10.0.0.2") ∧
      peer.pins.lookup 1 = some nearbyFingerprint ∧ Confined nearbyPlatform trace peer := by
  have hstart : (machine nearbyPlatform).Run (fun _ _ => True) [] { now := 0 } := .start ⟨0, rfl⟩
  obtain ⟨trace, run⟩ := hstart.extend_all (nearbyMeeting.map (Step.mk · nearbyWorld))
  refine ⟨trace, _, run, List.mem_of_getElem? (i := 3) ?_, ?_, ?_,
    run_confined (fun _ _ => rfl) run⟩
  · rfl
  · exact ⟨_, rfl, rfl⟩
  · decide +kernel

end Peer

end ServerHost
