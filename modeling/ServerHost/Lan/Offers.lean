import ServerHost.Lan.Turn

/-!
# One offer at a time

A generated code is accepted by one session at most, while its text is on show
and before it expires.  As long as a code is on show no session is in the middle
of a pairing, and the names of the sessions are different from each other and
from the host's.
-/

namespace ServerHost

namespace LanPeer

/-- The events that put an offer up or take it down. -/
def Event.offering : Event → Bool
  | .generated .. | .withdrawn | .expired | .accepted .. => true
  | _ => false

/-- The last thing that happened to an offer. -/
def lastOffer (log : List Entry) : Option Event := (events log).find? Event.offering

/-- The text on show after the last event. -/
def shown : Option Event → String
  | some (.generated _ _ qr _) => qr
  | _ => ""

/-- A code is generated once.  It is accepted once, with nothing between its
generation and its acceptance that takes the offer down, and in time. -/
def OfferRule (entry : Entry) (earlier : List Entry) : Prop :=
  match entry.event with
  | .generated serial _ _ _ =>
      ∀ code qr expires, .generated serial code qr expires ∉ events earlier
  | .accepted _ _ code serial _ =>
      (∀ socket id code device, .accepted socket id code serial device ∉ events earlier) ∧
        ∃ qr expires, lastOffer earlier = some (.generated serial code qr expires) ∧ qr ≠ "" ∧
          (entry.time : DateTime) < expires
  | _ => True

/-- A session in the middle of a pairing. -/
def Session.pending (session : Session) : Bool := session.id ≠ "" && !session.paired

/-- At most one session is in the middle of a pairing, and no name is used twice. -/
structure Names (hostId : String) (clients : Table Socket Session) : Prop where
  single : Table.All (fun socket session => session.pending = true →
    Table.All (fun other own => own.pending = true → other = socket) clients) clients
  distinct : Table.All (fun socket session => session.id ≠ "" →
    Table.All (fun other own => own.id = session.id → other = socket) clients) clients
  other_than_host : Table.All (fun _ session => session.id ≠ "" → session.id ≠ hostId) clients

/-- The offer on show, the sessions and the history agree. -/
structure Offers (platform : Platform) (host : LanPeer) : Prop where
  text : host.qr = shown (lastOffer host.log)
  current : ∀ serial code qr expires,
    lastOffer host.log = some (.generated serial code qr expires) →
      serial = host.serial ∧ code = host.offer.code ∧ expires = host.offer.expiresAt ∧
        ∃ number, code = (platform.random number).text
  generated_known : ∀ serial code qr expires,
    .generated serial code qr expires ∈ events host.log → serial ≤ host.serial
  accepted_known : ∀ socket id code serial device,
    .accepted socket id code serial device ∈ events host.log → serial ≤ host.serial
  unused : host.qr ≠ "" → ∀ socket id code device,
    .accepted socket id code host.serial device ∉ events host.log
  alone : host.qr ≠ "" → Table.All (fun _ session => session.pending = false) host.clients
  names : Names host.offer.hostId host.clients
  named : Table.All (fun socket session => session.id ≠ "" → ∃ code serial device,
    .accepted socket session.id code serial device ∈ events host.log) host.clients
  rules : Always OfferRule host.log

variable {platform : Platform} {pre : LanPeer} {step : Step} {host after : LanPeer}

/-! ## Changes that leave the offer alone -/

/-- Every session was there before under the same name, and no less paired, or
has no name yet. -/
def Carries (host after : LanPeer) : Prop :=
  ∀ socket session, after.clients.lookup socket = some session → session.id = "" ∨
    ∃ old, host.clients.lookup socket = some old ∧ old.id = session.id ∧
      (old.paired = true → session.paired = true)

theorem Carries.of_clients (h : after.clients = host.clients) : Carries host after := by
  intro socket session hsession
  exact .inr ⟨session, h ▸ hsession, rfl, id⟩

theorem Carries.update {socket : Socket} {f : Session → Session}
    (hid : ∀ session, (f session).id = session.id)
    (hpaired : ∀ session, session.paired = true → (f session).paired = true) :
    Carries host (host.update socket f) := by
  intro other session hsession
  rcases Table.lookup_modify_eq_some.1 hsession with ⟨rfl, old, hold, rfl⟩ | ⟨-, hold⟩
  · exact .inr ⟨old, hold, (hid old).symm, hpaired old⟩
  · exact .inr ⟨session, hold, rfl, id⟩

theorem pending_of_carried {old session : Session} (hid : old.id = session.id)
    (hpaired : old.paired = true → session.paired = true) (h : session.pending = true) :
    old.pending = true := by
  simp only [Session.pending, Bool.and_eq_true, decide_eq_true_eq, Bool.not_eq_eq_eq_not,
    Bool.not_true] at h ⊢
  refine ⟨hid ▸ h.1, ?_⟩
  by_contra hold
  rw [Bool.not_eq_false] at hold
  rw [hpaired hold] at h
  exact absurd h.2 (by simp)

theorem Carries.pending (h : Carries host after) {socket : Socket} {session : Session}
    (hsession : after.clients.lookup socket = some session) (hpending : session.pending = true) :
    ∃ old, host.clients.lookup socket = some old ∧ old.pending = true := by
  rcases h socket session hsession with hnone | ⟨old, hold, hid, hpaired⟩
  · simp [Session.pending, hnone] at hpending
  · exact ⟨old, hold, pending_of_carried hid hpaired hpending⟩

theorem Names.carry {hostId : String} (h : Names hostId host.clients)
    (hcarries : Carries host after) :
    Names hostId after.clients where
  single socket session hsession hpending other own hown hownpending := by
    obtain ⟨old, hold, holdpending⟩ := hcarries.pending hsession hpending
    obtain ⟨old', hold', holdpending'⟩ := hcarries.pending hown hownpending
    exact h.single socket old hold holdpending other old' hold' holdpending'
  distinct socket session hsession hid other own hown hsame := by
    obtain ⟨old, hold, hname, -⟩ := (hcarries socket session hsession).resolve_left hid
    obtain ⟨old', hold', hname', -⟩ :=
      (hcarries other own hown).resolve_left (fun hnone => hid (hsame.symm.trans hnone))
    exact h.distinct socket old hold (hname ▸ hid) other old' hold' (by rw [hname, hname', hsame])
  other_than_host socket session hsession hid := by
    obtain ⟨old, hold, hname, -⟩ := (hcarries socket session hsession).resolve_left hid
    rw [← hname]
    exact h.other_than_host socket old hold (hname ▸ hid)

/-- A free name may be taken when no session is in the middle of a pairing. -/
theorem Names.accept {hostId : String} (h : Names hostId host.clients) {socket : Socket}
    {message : JsonObject} (halone : Table.All (fun _ session => session.pending = false)
      host.clients) (hother : (message.value "peerId").toString ≠ hostId)
    (hfree : Table.All (fun _ session => session.id ≠ (message.value "peerId").toString)
      host.clients) : Names hostId (host.accept platform socket message).clients := by
  rw [accept_clients]
  constructor
  · intro first one hone hpending second two htwo hpending'
    rcases Table.lookup_modify_eq_some.1 hone with ⟨rfl, -⟩ | ⟨-, hold⟩
    · rcases Table.lookup_modify_eq_some.1 htwo with ⟨rfl, -⟩ | ⟨-, hold⟩
      · rfl
      · rw [halone second two hold] at hpending'
        exact absurd hpending' (by simp)
    · rw [halone first one hold] at hpending
      exact absurd hpending (by simp)
  · intro first one hone hid second two htwo hsame
    rcases Table.lookup_modify_eq_some.1 hone with ⟨rfl, old, -, rfl⟩ | ⟨hfirst, hold⟩
    · rcases Table.lookup_modify_eq_some.1 htwo with ⟨rfl, -⟩ | ⟨-, hold⟩
      · rfl
      · exact absurd hsame (hfree second two hold)
    · rcases Table.lookup_modify_eq_some.1 htwo with ⟨rfl, old, -, rfl⟩ | ⟨-, hold'⟩
      · exact absurd hsame.symm (hfree first one hold)
      · exact h.distinct first one hold hid second two hold' hsame
  · intro other own hown hid
    rcases Table.lookup_modify_eq_some.1 hown with ⟨-, old, -, rfl⟩ | ⟨-, hold⟩
    · exact hother
    · exact h.other_than_host other own hold hid

theorem Names.empty (hostId : String) : Names hostId ∅ :=
  ⟨.empty _, .empty _, .empty _⟩

theorem Offers.named_carry (h : Offers platform host) (hcarries : Carries host after)
    (hevents : ∀ socket id code serial device,
      .accepted socket id code serial device ∈ events host.log →
        .accepted socket id code serial device ∈ events after.log) :
    Table.All (fun socket session => session.id ≠ "" → ∃ code serial device,
      .accepted socket session.id code serial device ∈ events after.log) after.clients := by
  intro socket session hsession hid
  obtain ⟨old, hold, hname, -⟩ := (hcarries socket session hsession).resolve_left hid
  obtain ⟨code, serial, device, hmem⟩ := h.named socket old hold (hname ▸ hid)
  exact ⟨code, serial, device, hname ▸ hevents _ _ _ _ _ hmem⟩

/-- The facts about the offer alone, when sessions are carried over. -/
theorem Offers.frame (h : Offers platform host) (hcarries : Carries host after)
    (hoffer : after.offer = host.offer) (hqr : after.qr = host.qr)
    (hserial : after.serial = host.serial)
    (hlast : lastOffer after.log = lastOffer host.log)
    (hevents : ∀ event, event.offering = true →
      (event ∈ events after.log ↔ event ∈ events host.log))
    (hrules : Always OfferRule after.log) : Offers platform after := by
  constructor
  case text => rw [hqr, hlast, h.text]
  case current =>
    rw [hlast, hserial, hoffer]
    exact h.current
  case generated_known =>
    intro serial code qr expires hmem
    rw [hserial]
    exact h.generated_known _ _ _ _ ((hevents _ rfl).1 hmem)
  case accepted_known =>
    intro socket id code serial device hmem
    rw [hserial]
    exact h.accepted_known _ _ _ _ _ ((hevents _ rfl).1 hmem)
  case unused =>
    rw [hqr, hserial]
    intro hshown socket id code device hmem
    exact h.unused hshown _ _ _ _ ((hevents _ rfl).1 hmem)
  case alone =>
    rw [hqr]
    intro hshown socket session hsession
    by_contra hpending
    rw [Bool.not_eq_false] at hpending
    obtain ⟨old, hold, holdpending⟩ := hcarries.pending hsession hpending
    rw [h.alone hshown socket old hold] at holdpending
    exact absurd holdpending (by simp)
  case names => exact hoffer ▸ h.names.carry hcarries
  case named => exact h.named_carry hcarries fun _ _ _ _ _ hmem => (hevents _ rfl).2 hmem
  case rules => exact hrules

theorem lastOffer_cons_of_not {entry : Entry} (h : entry.event.offering = false)
    (log : List Entry) : lastOffer (entry :: log) = lastOffer log := by
  simp [lastOffer, h]

theorem lastOffer_cons {entry : Entry} (h : entry.event.offering = true) (log : List Entry) :
    lastOffer (entry :: log) = some entry.event := by
  simp [lastOffer, h]

theorem rule_of_not_offering {entry : Entry} (h : entry.event.offering = false)
    (earlier : List Entry) : OfferRule entry earlier := by
  obtain ⟨time, event⟩ := entry
  cases event with
  | generated => simp [Event.offering] at h
  | accepted => simp [Event.offering] at h
  | _ => trivial

/-- New entries that say nothing about offers. -/
theorem Offers.extend (h : Offers platform host) (hcarries : Carries host after)
    (hoffer : after.offer = host.offer) (hqr : after.qr = host.qr)
    (hserial : after.serial = host.serial) (new : List Entry) (hlog : after.log = new ++ host.log)
    (hnew : ∀ entry ∈ new, entry.event.offering = false) : Offers platform after := by
  refine h.frame hcarries hoffer hqr hserial ?_ ?_ ?_
  · rw [hlog]
    clear hlog
    induction new with
    | nil => rfl
    | cons entry rest ih =>
        rw [List.cons_append, lastOffer_cons_of_not (hnew entry (by simp))]
        exact ih fun other hother => hnew other (by simp [hother])
  · intro event hevent
    rw [hlog, events, List.map_append, List.mem_append, or_iff_right]
    · rfl
    · rintro hmem
      obtain ⟨entry, hentry, rfl⟩ := List.mem_map.1 hmem
      rw [hnew entry hentry] at hevent
      exact absurd hevent (by simp)
  · rw [hlog]
    exact h.rules.append fun entry hentry => rule_of_not_offering (hnew entry hentry)

theorem Offers.still (h : Offers platform host) (hcarries : Carries host after)
    (hoffer : after.offer = host.offer) (hqr : after.qr = host.qr)
    (hserial : after.serial = host.serial) (hlog : after.log = host.log) : Offers platform after :=
  h.extend hcarries hoffer hqr hserial [] hlog (by simp)

theorem Offers.quiet (h : Offers platform host) (hquiet : Quiet host after) :
    Offers platform after := by
  obtain ⟨new, hlog, hall⟩ := hquiet.log
  refine h.extend (.of_clients hquiet.clients) hquiet.offer hquiet.qr hquiet.serial new hlog ?_
  intro entry hentry
  rcases hall entry hentry with ⟨socket, hevent⟩ | ⟨socket, message, hevent⟩ <;> rw [hevent] <;> rfl

theorem Offers.emit (h : Offers platform host) {event : Event} (hevent : event.offering = false) :
    Offers platform (host.emit event) :=
  h.extend (.of_clients rfl) rfl rfl rfl [⟨host.now, event⟩] rfl (by simpa using hevent)

/-! ## Changes to the offer -/

/-- The offer is taken down and nothing else happens to it. -/
theorem Offers.takeDown (h : Offers platform host) {event : Event}
    (hevent : event = .withdrawn ∨ event = .expired) (hcarries : Carries host after)
    (hhost : after.offer.hostId = host.offer.hostId ∨ after.clients = ∅) (hqr : after.qr = "")
    (hserial : after.serial = host.serial) (hlog : after.log = ⟨host.now, event⟩ :: host.log) :
    Offers platform after := by
  have hoffering : event.offering = true := by rcases hevent with rfl | rfl <;> rfl
  -- Only one entry is new, and it names no code.
  have hmem : ∀ other, other ∈ events after.log → other = event ∨ other ∈ events host.log := by
    intro other hother
    rwa [hlog, events_cons, List.mem_cons] at hother
  constructor
  case text =>
    rw [hqr, hlog, lastOffer_cons hoffering]
    rcases hevent with rfl | rfl <;> rfl
  case current =>
    intro serial code qr expires hlast
    rw [hlog, lastOffer_cons hoffering] at hlast
    rcases hevent with rfl | rfl <;> simp at hlast
  case generated_known =>
    intro serial code qr expires hgenerated
    rw [hserial]
    rcases hmem _ hgenerated with rfl | hold
    · simp at hevent
    · exact h.generated_known _ _ _ _ hold
  case accepted_known =>
    intro socket id code serial device haccepted
    rw [hserial]
    rcases hmem _ haccepted with rfl | hold
    · simp at hevent
    · exact h.accepted_known _ _ _ _ _ hold
  case unused => exact fun hshown => absurd hqr hshown
  case alone => exact fun hshown => absurd hqr hshown
  case names =>
    rcases hhost with hsame | hempty
    · rw [hsame]
      exact h.names.carry hcarries
    · rw [hempty]
      exact .empty _
  case named =>
    refine h.named_carry hcarries fun _ _ _ _ _ hold => ?_
    rw [hlog]
    exact List.mem_cons_of_mem _ hold
  case rules =>
    rw [hlog]
    refine h.rules.cons ?_
    rcases hevent with rfl | rfl <;> trivial

/-- What is on show was the last thing generated. -/
theorem Offers.standing (h : Offers platform host) (hshown : host.qr ≠ "") :
    ∃ qr, lastOffer host.log =
        some (.generated host.serial host.offer.code qr host.offer.expiresAt) ∧ qr ≠ "" ∧
      ∃ number, host.offer.code = (platform.random number).text := by
  rw [h.text] at hshown
  cases hlast : lastOffer host.log with
  | none => simp [hlast, shown] at hshown
  | some event =>
      cases event with
      | generated serial code qr expires =>
          obtain ⟨rfl, rfl, rfl, htoken⟩ := h.current _ _ _ _ hlast
          exact ⟨qr, rfl, by simpa [hlast, shown] using hshown, htoken⟩
      | _ => simp [hlast, shown] at hshown

/-- A session accepts the offer on show. -/
theorem Offers.accept (h : Offers platform host) {socket : Socket} {message : JsonObject}
    (hshown : host.qr ≠ "") (htime : (host.now : DateTime) < host.offer.expiresAt)
    (hcode : sameCode (message.value "code").toString host.offer.code = true)
    (hother : (message.value "peerId").toString ≠ host.offer.hostId)
    (hfree : Table.All (fun _ session => session.id ≠ (message.value "peerId").toString)
      host.clients) : Offers platform (host.accept platform socket message) := by
  obtain ⟨qr, hlast, hqr, number, htoken⟩ := h.standing hshown
  rw [htoken] at hcode
  have hsame := (eq_of_sameCode hcode).trans htoken.symm
  constructor
  case text => rfl
  case current =>
    intro serial code qr expires hgenerated
    rw [accept_log, lastOffer_cons rfl] at hgenerated
    simp at hgenerated
  case generated_known =>
    intro serial code qr expires hgenerated
    exact h.generated_known serial code qr expires (by simpa using hgenerated)
  case accepted_known =>
    intro other id code serial device haccepted
    simp only [accept_log, accept_serial, events_cons, List.mem_cons, Event.accepted.injEq]
      at haccepted ⊢
    rcases haccepted with ⟨-, -, -, rfl, -⟩ | hold
    · exact le_rfl
    · exact h.accepted_known _ _ _ _ _ hold
  -- The offer is off show from now on.
  case unused => exact fun hshown => absurd rfl hshown
  case alone => exact fun hshown => absurd rfl hshown
  case names => exact h.names.accept (h.alone hshown) hother hfree
  case named =>
    intro other own hown hid
    rw [accept_clients] at hown
    rcases Table.lookup_modify_eq_some.1 hown with ⟨rfl, old, -, rfl⟩ | ⟨-, hold⟩
    · exact ⟨_, _, _, List.mem_cons_self⟩
    · obtain ⟨code, serial, device, hmem⟩ := h.named other own hold hid
      exact ⟨code, serial, device, List.mem_cons_of_mem _ hmem⟩
  case rules =>
    refine Always.cons h.rules ⟨?_, qr, host.offer.expiresAt, ?_, hqr, htime⟩
    · exact fun other id code device => h.unused hshown other id code device
    · rw [hsame]
      exact hlast

/-- A new offer goes up when no session is in the middle of a pairing. -/
theorem Offers.generate (h : Offers platform host) (lifetimeSeconds : ℤ) {qr : String}
    (hpaired : Table.All (fun _ session => session.paired = true) host.clients) :
    Offers platform ({ host with
        error := ""
        phase := .showing
        offer := { host.offer with
          code := (platform.random host.serial).text
          expiresAt := DateTime.addSecs host.now lifetimeSeconds }
        qr := qr
        serial := host.serial + 1 }.emit
          (.generated (host.serial + 1) (platform.random host.serial).text qr
            (DateTime.addSecs host.now lifetimeSeconds))) := by
  constructor
  case text => rfl
  -- The last offer is the new one: its code is the text just drawn.
  case current =>
    intro serial code own expires hlast
    rw [emit_log, lastOffer_cons rfl] at hlast
    simp only [Option.some.injEq, Event.generated.injEq] at hlast
    obtain ⟨rfl, rfl, -, rfl⟩ := hlast
    exact ⟨rfl, rfl, rfl, host.serial, rfl⟩
  case generated_known =>
    intro serial code own expires hgenerated
    simp only [emit_log, emit_serial, events_cons, List.mem_cons, Event.generated.injEq]
      at hgenerated ⊢
    rcases hgenerated with ⟨rfl, -⟩ | hold
    · exact le_rfl
    · exact (h.generated_known _ _ _ _ hold).trans (Nat.le_succ _)
  case accepted_known =>
    intro socket id code serial device haccepted
    simp only [emit_log, emit_serial, events_cons, List.mem_cons, reduceCtorEq, false_or]
      at haccepted ⊢
    exact (h.accepted_known _ _ _ _ _ haccepted).trans (Nat.le_succ _)
  -- The new serial was given to no offer yet, so no pairing can have used it.
  case unused =>
    intro hshown socket id code device haccepted
    simp only [emit_log, emit_serial, events_cons, List.mem_cons, reduceCtorEq, false_or]
      at haccepted
    exact absurd (h.accepted_known _ _ _ _ _ haccepted) (Nat.not_succ_le_self _)
  -- `cancelPairing` left paired sessions only, and those are not pending.
  case alone =>
    intro hshown socket session hsession
    simp [Session.pending, hpaired socket session hsession]
  case names => exact ⟨h.names.single, h.names.distinct, h.names.other_than_host⟩
  case named =>
    intro socket session hsession hid
    obtain ⟨code, serial, device, hmem⟩ := h.named socket session hsession hid
    exact ⟨code, serial, device, List.mem_cons_of_mem _ hmem⟩
  case rules =>
    refine Always.cons h.rules fun code own expires hgenerated => ?_
    exact absurd (h.generated_known _ _ _ _ hgenerated) (Nat.not_succ_le_self _)

/-! ## The run -/

theorem note_carries (socket : Socket) (authentication : String) :
    Carries host (host.note socket authentication) :=
  .update (fun _ => rfl) fun _ => id

theorem Offers.accepts (h : Offers platform pre) {socket : Socket} {message : JsonObject}
    (haccepts : Accepts platform pre step socket message) (authentication : String) :
    Offers platform ((pre.note socket authentication).accept platform socket message) := by
  have hnoted : Offers platform (pre.note socket authentication) :=
    h.still (note_carries _ _) rfl rfl rfl rfl
  obtain ⟨-, -, hshown, htime, -, hcode, -, hother, -, -⟩ := haccepts.presented
  refine hnoted.accept hshown htime hcode hother ?_
  exact haccepts.free.modify fun session hsession => haccepts.free socket session hsession

theorem Offers.approve (h : Offers platform host) (socket : Socket) :
    Offers platform (host.approve socket) :=
  h.still (.update (fun _ => rfl) fun _ => id) rfl rfl rfl rfl

theorem Offers.outcome (h : Offers platform host) {socket : Socket}
    (houtcome : Outcome socket host after) : Offers platform after := by
  rcases houtcome with rfl | rfl <;> exact h.emit rfl

theorem Offers.change (h : Offers platform host) (change : Change platform pre step host after) :
    Offers platform after := by
  -- Withdrawing drops sessions, and takes the offer with its code away.
  have hwithdrawn : Offers platform (host.emit .withdrawn).cancelPairing := by
    obtain ⟨hlog, -, hoffer, hqr, -, hserial, -⟩ := cancelPairing_rest (host.emit .withdrawn)
    refine h.takeDown (.inl rfl) ?_ (.inl ?_) hqr hserial hlog
    · intro socket session hsession
      exact .inr ⟨session, (cancelPairing_clients.1 hsession).1, rfl, id⟩
    · rw [hoffer, emit_offer]
  cases change with
  | clock | expect => exact h.still (.of_clients rfl) rfl rfl rfl rfl
  | configure => exact h.still (.of_clients rfl) rfl rfl rfl rfl
  | quiet hquiet => exact h.quiet hquiet
  | welcome =>
      refine h.still ?_ rfl rfl rfl rfl
      intro socket session hsession
      rcases Table.lookup_insert_eq_some.1 hsession with ⟨-, rfl⟩ | ⟨-, hold⟩
      · exact .inl rfl
      · exact .inr ⟨session, hold, rfl, id⟩
  | note socket authentication => exact h.still (note_carries _ _) rfl rfl rfl rfl
  | acceptDevice authentication haccepts => exact h.accepts haccepts authentication
  | acceptOpen authentication haccepts hexpected houtcome =>
      exact Offers.outcome ((h.accepts haccepts authentication).emit rfl) houtcome
  | approveUnproved => exact (h.approve _).emit rfl
  | approveUnlisted => exact ((h.approve _).emit rfl).emit rfl
  | approve => exact (((h.approve _).emit rfl).emit rfl).emit rfl
  | @confirm socket session mid hconfirms hquiet =>
      have hpaired : Offers platform
          (pre.update socket fun session => { session with paired := true }) :=
        h.still (.update (fun _ => rfl) fun _ _ => rfl) rfl rfl rfl rfl
      exact (hpaired.quiet hquiet).emit rfl
  | serve => exact h.emit rfl
  | forget socket =>
      refine h.still ?_ rfl rfl rfl rfl
      intro other session hsession
      exact .inr ⟨session, (Table.lookup_erase_eq_some.1 hsession).2, rfl, id⟩
  | expire => exact h.takeDown (.inr rfl) (.of_clients rfl) (.inl rfl) rfl rfl rfl
  | withdraw => exact hwithdrawn
  | generate lifetimeSeconds hpaired => exact h.generate lifetimeSeconds hpaired
  | stop =>
      refine h.takeDown (.inl rfl) ?_ (.inr rfl) rfl rfl rfl
      intro socket session hsession
      simp [stop] at hsession
  | begin offer hempty hqr hlog =>
      constructor
      case text => exact h.text
      case current =>
        intro serial code own expires hlast
        simp [hlog, lastOffer, Event.offering] at hlast
      case generated_known => exact h.generated_known
      case accepted_known => exact h.accepted_known
      case unused => exact h.unused
      case alone => exact h.alone
      case names =>
        simp only [hempty]
        exact .empty _
      case named => exact h.named
      case rules => exact h.rules
  | rehash hclients =>
      refine h.still ?_ rfl rfl rfl rfl
      intro socket session hsession
      exact .inr ⟨session, (hclients.lookup socket).trans hsession, rfl, id⟩

theorem run_offersInvariant {trace : List (LanPeer × Step)}
    (run : (machine platform).Run Feasible trace host) : Offers platform host := by
  refine run.invariant_state ?_ fun state input h hfeasible =>
    (next_changes platform hfeasible).invariant (fun _ _ change hstate => hstate.change change) h
  rintro state ⟨time, rfl⟩
  exact ⟨rfl, by simp [lastOffer, events], by simp [events], by simp [events], by simp,
    fun h => absurd rfl h, .empty _, .empty _, .nil⟩

/-- **Offers are used once and exclusively**: in every run the rules of the
offers hold, what is on show is the text of the last code generated if nothing
took it down, a session in the middle of a pairing excludes an offer on show and
a second such session, and names are unique. -/
theorem run_offers {trace : List (LanPeer × Step)}
    (run : (machine platform).Run Feasible trace host) :
    Always OfferRule host.log ∧ host.qr = shown (lastOffer host.log) ∧
      Table.count Session.pending host.clients + (if host.qr ≠ "" then 1 else 0) ≤ 1 ∧
      Table.All (fun socket session => session.id ≠ "" → session.id ≠ host.offer.hostId ∧
        (∃ code serial device,
          .accepted socket session.id code serial device ∈ events host.log) ∧
        Table.All (fun other own => own.id = session.id → other = socket) host.clients)
        host.clients := by
  have h := run_offersInvariant run
  refine ⟨h.rules, h.text, ?_, fun socket session hsession hid => ⟨?_, ?_, ?_⟩⟩
  · split
    · next hshown => rw [Table.count_eq_zero (h.alone hshown)]
    · exact Table.count_le_one h.names.single
  · exact h.names.other_than_host socket session hsession hid
  · exact h.named socket session hsession hid
  · exact h.names.distinct socket session hsession hid

/-- Callbacks that accept everything, over sockets that are never full. -/
def World.sample : World where
  full _ _ := false
  sign _ := ⟨[]⟩
  verify _ _ := true
  handle _ _ := some (.ofList [("ok", .bool true), ("entries", .array [])])

/-- Callbacks with an account, whose proofs are accepted. -/
def World.account : World := { World.sample with
  sign := fun _ => .ofList [("account", .string "a")] }

/-- The message that presents the `n`-th code. -/
def presentation (n : ℕ) (peerId : String) : JsonObject :=
  .ofList [("type", .string "pair"), ("peerId", .string peerId), ("name", .string "phone"),
    ("host", .string "h"), ("code", .string (Platform.sample.random n).text),
    ("nonce", .string (Platform.sample.random n).text),
    ("proof", .object [("account", .string "a")])]

/-- A host with an account shows a code for one device, which is confirmed and makes a
request, and then an open code, with which a second device pairs. -/
def household : List Step :=
  [.setPairingAuthentication true true,
    .startHost "h" "desk" true ["127.0.0.1"] [] true (.ok (80, (Platform.sample.random 0).text)),
    .createDeviceOffer "p" 60, .newConnection "127.0.0.1", .text 0 (presentation 0 "p"),
    .confirmDevice, .text 0 (.ofList [("type", .string "confirm")]),
    .text 0 (.ofList [("type", .string "request"), ("id", .string "1"), ("payload", .object [])]),
    .createOffer 60, .newConnection "127.0.0.1", .text 1 (presentation 1 "q"),
    .text 1 (.ofList [("type", .string "confirm")])].map fun input => ⟨input, World.account⟩

theorem household_admissible :
    (machine .sample).Admissible Feasible { now := 0 } household :=
  ⟨trivial, trivial, trivial, trivial, trivial, trivial, trivial, trivial, trivial, trivial,
    trivial, trivial, trivial⟩

theorem run_offers_household : ∃ host trace, (machine .sample).Run Feasible trace host ∧
    host.pairedDeviceIds = ["q", "p"] ∧
    Always OfferRule host.log ∧ host.qr = shown (lastOffer host.log) ∧
      Table.count Session.pending host.clients + (if host.qr ≠ "" then 1 else 0) ≤ 1 ∧
      Table.All (fun socket session => session.id ≠ "" → session.id ≠ host.offer.hostId ∧
        (∃ code serial device,
          .accepted socket session.id code serial device ∈ events host.log) ∧
        Table.All (fun other own => own.id = session.id → other = socket) host.clients)
        host.clients := by
  have hstart : (machine .sample).Run Feasible [] { now := 0 } := .start ⟨0, rfl⟩
  obtain ⟨trace, run⟩ := hstart.extend household household_admissible
  exact ⟨_, trace, run, by decide +kernel, run_offers run⟩

end LanPeer

end ServerHost
