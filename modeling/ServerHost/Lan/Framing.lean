import ServerHost.Lan.Negotiated

/-!
# Negotiated binary frames

## Strategy

What is on its way to the client is in one of three stages (`Stage`): no `paired` was
written, or it is among the messages, with text only before it, or the client took it.
The host writes binary frames from the second stage on, and they stand behind `paired`.
The client answers with binary frames in the third stage, when the gate of the host is
open for long.
-/

namespace ServerHost

namespace LanSystem

variable {platform : Platform} {read : String → LanLink.Query} {double : ℚ → List Char}
variable {supports : Bool} {system : LanSystem} {action : Action}
variable {trace : List (LanSystem × Action)}

/-! ## The connection -/

/-- A binary frame presupposes the property at its sender. -/
theorem frame_binary {binary : Bool} {message : JsonObject}
    (h : (frame double binary message).binary = true) : binary = true := by
  simp only [frame, Bool.and_eq_true] at h
  exact h.1

theorem frame_false (message : JsonObject) : frame double false message = ⟨false, message⟩ := rfl

/-- No frame says `paired`, and none is binary. -/
def Plain (frames : List Frame) : Prop :=
  ∀ frame ∈ frames, frame.binary = false ∧ messageType frame.message ≠ "paired"

/-- How far the message `paired` got. -/
inductive Stage (host : LanPeer) (client : LanClient) (link : Link) : Prop
  /-- It was not written, or the socket was closing. -/
  | before : client.clientPaired = false → client.binary = false → Plain link.down →
      (host.Announced link.host → link.host ∈ host.closing) → Stage host client link
  /-- It is on its way. -/
  | coming {front back : List Frame} {message : JsonObject} : client.clientPaired = false →
      client.binary = false → host.Announced link.host →
      link.down = front ++ ⟨false, message⟩ :: back → Plain front →
      messageType message = "paired" →
      (message.value "binary").isOne = decide (link.host ∈ host.binary) →
      (∀ frame ∈ back, frame.binary = true → link.host ∈ host.binary) → Stage host client link
  /-- It arrived. -/
  | settled : client.clientPaired = true → host.Announced link.host →
      client.binary = decide (link.host ∈ host.binary) →
      (∀ frame ∈ link.down, frame.binary = true → link.host ∈ host.binary) →
      Stage host client link

/-- What binary frames presuppose. -/
structure Framed (system : LanSystem) (socket : Socket) (link : Link) : Prop where
  up : ∀ frame ∈ link.up, frame.binary = true → link.host ∈ system.host.binary
  stage : system.client.client = some socket → Stage system.host system.client link

/-- **A turn of the host.** -/
theorem Stage.host {host after : LanPeer} {step : LanPeer.Step} {client : LanClient} {link : Link}
    (h : Stage host client link) (hafter : after = LanPeer.next platform host step)
    (hstaged : host.Staged) (hbinary : ∀ socket ∈ host.binary, host.Announced socket)
    (up : List Frame) : Stage after client { link with
      up := up
      down := link.down ++ (LanPeer.told link.host host after).map
        (frame double (link.host ∈ host.binary)) } := by
  subst hafter
  -- What the turn adds, when it does not pair the session of this socket.
  have hrest : ((LanPeer.next platform host step).Announced link.host ↔ host.Announced link.host) →
      (link.host ∈ (LanPeer.next platform host step).binary ↔ link.host ∈ host.binary) →
      host.closing ⊆ (LanPeer.next platform host step).closing →
      (∀ message ∈ LanPeer.told link.host host (LanPeer.next platform host step),
        messageType message ≠ "paired" ∧ link.host ∉ host.closing) →
      Stage (LanPeer.next platform host step) client { link with
        up := up
        down := link.down ++ (LanPeer.told link.host host (LanPeer.next platform host step)).map
          (frame double (link.host ∈ host.binary)) } := by
    intro hannounced hsame hclosing htold
    have hlater : ∀ frames : List Frame,
        (∀ own ∈ frames, own.binary = true → link.host ∈ host.binary) →
        ∀ own ∈ frames ++ (LanPeer.told link.host host (LanPeer.next platform host step)).map
          (frame double (link.host ∈ host.binary)), own.binary = true →
          link.host ∈ (LanPeer.next platform host step).binary := by
      intro frames hframes own hown htrue
      rw [hsame]
      rcases List.mem_append.1 hown with hold | hnew
      · exact hframes own hold htrue
      · obtain ⟨message, -, rfl⟩ := List.mem_map.1 hnew
        exact of_decide_eq_true (frame_binary htrue)
    cases h with
    | before hunpaired hnone hplain hdue =>
        refine .before hunpaired hnone (fun own hown => ?_) fun h =>
          hclosing (hdue (hannounced.1 h))
        rcases List.mem_append.1 hown with hold | hnew
        · exact hplain own hold
        · -- The socket is open, so `paired` is not due and the property is not set.
          obtain ⟨message, hmessage, rfl⟩ := List.mem_map.1 hnew
          obtain ⟨htype, hopen⟩ := htold message hmessage
          have hfree : link.host ∉ host.binary := fun hmem => hopen (hdue (hbinary _ hmem))
          exact ⟨by simp [frame, hfree], htype⟩
    | @coming front back message hunpaired hnone hdue hdown hplain htype hvalue hback =>
        have hsplit : link.down ++
            (LanPeer.told link.host host (LanPeer.next platform host step)).map
              (frame double (link.host ∈ host.binary)) = front ++ ⟨false, message⟩ :: (back ++
            (LanPeer.told link.host host (LanPeer.next platform host step)).map
              (frame double (link.host ∈ host.binary))) := by
          rw [hdown, List.append_assoc, List.cons_append]
        refine .coming hunpaired hnone (hannounced.2 hdue) hsplit hplain htype ?_ (hlater _ hback)
        simpa only [hsame] using hvalue
    | settled hpaired hdue hvalue hdown =>
        exact .settled hpaired (hannounced.2 hdue) (by simpa only [hsame] using hvalue)
          (hlater _ hdown)
  rcases LanPeer.next_mild platform host step with hmild | ⟨socket, session, hconfirms, hpairs⟩
  · exact hrest (hmild.announced _) (by rw [hmild.binary]) hmild.closing fun _ => hmild.told
  have hspec := LanPeer.confirmMessage_spec step.world socket session host
  rw [← hpairs] at hspec
  by_cases hother : link.host = socket
  swap
  · refine hrest ?_ ?_ hspec.closing ?_
    · rw [hspec.announced, or_iff_right hother]
    · rw [hspec.binary]
      split
      · rw [List.mem_cons, or_iff_right hother]
      · rfl
    · simp [hspec.other _ hother]
  subst hother
  -- The session of this socket is paired now, so it was not before.
  have hfresh : ¬ host.Announced link.host := by
    rw [← hstaged.paired_iff hconfirms.stored, hconfirms.unpaired]
    exact Bool.false_ne_true
  have hfree : link.host ∉ host.binary := fun hmem => hfresh (hbinary _ hmem)
  have hdue : (LanPeer.next platform host step).Announced link.host :=
    (hspec.announced _).2 (.inl rfl)
  cases h with
  | before hunpaired hnone hplain =>
      rcases hspec.own with htold | ⟨htold, hclosing⟩
      · have hdown : link.down ++
            (LanPeer.told link.host host (LanPeer.next platform host step)).map
            (frame double (link.host ∈ host.binary)) =
            link.down ++ ⟨false, host.pairedReply session⟩ :: [] := by
          rw [htold, decide_eq_false hfree, List.map_singleton, frame_false]
        refine .coming hunpaired hnone hdue hdown hplain (LanPeer.pairedReply_type host session) ?_
          (by simp)
        rw [LanPeer.pairedReply_binary, hspec.binary]
        cases session.binary <;> simp [hfree]
      · refine .before hunpaired hnone ?_ fun _ => hclosing
        simpa only [htold, List.map_nil, List.append_nil] using hplain
  | coming _ _ hdue' => exact absurd hdue' hfresh
  | settled _ hdue' => exact absurd hdue' hfresh

section
variable {host : LanPeer} {client : LanClient} {step : LanClient.Step} {link : Link}
variable {socket : Socket} (hsound : LanClient.Sound client.view)
variable (hclient : client.client = some socket)
variable (hstay : (LanClient.next platform read client step).client = some socket)
include hsound hclient hstay

/-- A turn of the client that is not about a message of the connection. -/
theorem Stage.aside (h : Stage host client link)
    (hquiet : ∀ message, ¬ LanClient.Spoken client step socket message) (up : List Frame) :
    Stage host (LanClient.next platform read client step) { link with up := up } := by
  rcases LanClient.next_gate hsound hclient hstay with ⟨message, hinput, -⟩ | ⟨hpaired, hbinary, -⟩
  · exact absurd ⟨hclient, .inl hinput⟩ (hquiet message)
  · cases h with
    | before hunpaired hnone hplain hdue =>
        exact .before (hpaired.trans hunpaired) (hbinary.trans hnone) hplain hdue
    | coming hunpaired hnone hdue hdown hplain htype hvalue hback =>
        exact .coming (hpaired.trans hunpaired) (hbinary.trans hnone) hdue hdown hplain htype hvalue
          hback
    | settled hold hdue hvalue hdown =>
        exact .settled (hpaired.trans hold) hdue (hbinary.trans hvalue) hdown

/-- A message of the connection arrives. -/
theorem Stage.down (h : Stage host client link) {first : Frame} {rest : List Frame}
    (hdown : link.down = first :: rest) (hinput : step.input = first.toClient socket)
    (up : List Frame) :
    Stage host (LanClient.next platform read client step)
      { link with down := rest, up := up } := by
  have hspoken : LanClient.Spoken client step socket first.message := by
    refine ⟨hclient, ?_⟩
    rw [hinput, Frame.toClient]
    split
    · exact .inr rfl
    · exact .inl rfl
  have hheard : ∀ message, step.input = .text socket message → message = first.message := by
    intro message hmessage
    rw [hinput, Frame.toClient] at hmessage
    split at hmessage <;> cases hmessage
    rfl
  have hgate := LanClient.next_gate hsound hclient hstay
  cases h with
  | before hunpaired hnone hplain hdue =>
      rw [hdown] at hplain
      obtain ⟨-, hother⟩ := hplain first List.mem_cons_self
      rcases hgate with ⟨message, hmessage, htype, -⟩ | ⟨hpaired, hbinary, -⟩
      · exact absurd (hheard message hmessage ▸ htype) hother
      · exact .before (hpaired.trans hunpaired) (hbinary.trans hnone)
          (fun own hown => hplain own (List.mem_cons_of_mem _ hown)) hdue
  | @coming front back message hunpaired hnone hdue hsplit hplain htype hvalue hback =>
      rw [hdown] at hsplit
      cases front with
      | nil =>
          -- This is the message.
          obtain ⟨rfl, rfl⟩ := List.cons.inj hsplit
          rcases hgate with ⟨own, hown, -, -, hpaired, hbinary⟩ | ⟨-, -, hother⟩
          · refine .settled hpaired hdue ?_ hback
            rw [hbinary, hheard own hown, hvalue]
          · exact absurd htype (hother message hspoken)
      | cons head front =>
          obtain ⟨rfl, rfl⟩ := List.cons.inj hsplit
          obtain ⟨-, hother⟩ := hplain first List.mem_cons_self
          rcases hgate with ⟨own, hown, hpaired, -⟩ | ⟨hpaired, hbinary, -⟩
          · exact absurd (hheard own hown ▸ hpaired) hother
          · exact .coming (hpaired.trans hunpaired) (hbinary.trans hnone) hdue rfl
              (fun own hown => hplain own (List.mem_cons_of_mem _ hown)) htype hvalue hback
  | settled hold hdue hvalue hlater =>
      rw [hdown] at hlater
      rcases hgate with ⟨-, -, -, hunpaired, -⟩ | ⟨hpaired, hbinary, -⟩
      · rw [hold] at hunpaired
        cases hunpaired
      · exact .settled (hpaired.trans hold) hdue (hbinary.trans hvalue)
          fun own hown => hlater own (List.mem_cons_of_mem _ hown)

end

/-- The property is set for good. -/
theorem host_binary_mono {host : LanPeer} {step : LanPeer.Step} {socket : Socket}
    (h : socket ∈ host.binary) : socket ∈ (LanPeer.next platform host step).binary := by
  rcases LanPeer.next_mild platform host step with hmild | ⟨own, session, -, hpairs⟩
  · rwa [hmild.binary]
  · rw [hpairs, (LanPeer.confirmMessage_spec step.world own session host).binary]
    split
    · exact List.mem_cons_of_mem _ h
    · exact h

/-- **A turn of the two keeps every connection in order.** -/
theorem Framed.next (run : (machine platform read double supports).Run Feasible trace system)
    (hfeasible : system.Feasible action) (h : ∀ socket link, system.links socket = some link →
      Framed system socket link) :
    ∀ socket link, (next platform read double supports system action).links socket = some link →
      Framed (LanSystem.next platform read double supports system action) socket link := by
  have hstaged := LanPeer.run_staged (run_host run)
  have hbinary := LanPeer.run_binary (run_host run)
  have hsound := LanClient.run_sound (run_client run)
  intro socket passed hpassed
  cases hlink : system.links socket with
  | none =>
      obtain ⟨hclient, hhello, hsame, -, ⟨address, world, hstep, hnext⟩, -, rfl⟩ :=
        next_accepted hfeasible hlink hpassed
      have hconnecting : system.client.phase = .connecting :=
        hsound.connecting (by simp [LanClient.view, hclient]) hhello
      have hunpaired : system.client.clientPaired = false := by
        rw [← Bool.not_eq_true]
        intro hpaired
        have hphase : system.client.phase = .paired := hsound.paired.1 hpaired
        rw [hconnecting] at hphase
        cases hphase
      have hnone : system.client.binary = false :=
        LanClient.run_unpaired (run_client run) (by simp [hclient]) hunpaired
      refine ⟨by simp, fun _ => ?_⟩
      rw [hsame]
      refine .before hunpaired hnone (by simp [Plain]) fun hannounced => ?_
      obtain ⟨id, hmem⟩ := hannounced
      -- A socket that is new has no history.
      rw [hnext] at hmem
      obtain ⟨id, hold⟩ :=
        ((LanPeer.newConnection_mild address system.host).announced _).1 ⟨id, hmem⟩
      have hcourse := LanPeer.mem_course.2
        ⟨hold, show LanPeer.Event.pairing (.paired system.host.sockets id) = _ from rfl⟩
      rw [hstaged.fresh _ le_rfl] at hcourse
      cases hcourse
  | some link =>
      obtain ⟨hup, hstage⟩ := h socket link hlink
      have hwired := run_wired run
      obtain ⟨own, hown, hpassing⟩ :=
        @next_passing platform read double supports system action hfeasible hwired socket link hlink
      obtain rfl := Option.some.inj (hown.symm.trans hpassed)
      -- What the client writes as binary frames, the host may take.
      have hwritten : ∀ after : LanClient,
          (∀ message ∈ LanClient.told socket system.client after,
            system.client.client = some socket) →
          ∀ own ∈ link.up ++ (LanClient.told socket system.client after).map
            (fun message => frame double system.client.binary (wording supports message)),
            own.binary = true → link.host ∈ system.host.binary := by
        intro after hcurrent own hown htrue
        rcases List.mem_append.1 hown with hold | hnew
        · exact hup own hold htrue
        · obtain ⟨message, hmessage, rfl⟩ := List.mem_map.1 hnew
          have hproperty : system.client.binary = true := frame_binary htrue
          cases hstage (hcurrent message hmessage) with
          | before _ hnone => simp [hproperty] at hnone
          | coming _ hnone => simp [hproperty] at hnone
          | settled _ _ hvalue => exact of_decide_eq_true (hvalue.symm.trans hproperty)
      cases hpassing with
      | idle _ _ hhost hclient hsame =>
          rw [hsame]
          exact ⟨hhost ▸ hup, fun hcurrent => by
            rw [hhost, hclient]
            exact hstage (hclient ▸ hcurrent)⟩
      | host _ _ _ hhost hclient hsame =>
          rw [hsame]
          refine ⟨fun own hown htrue => ?_, fun hcurrent => ?_⟩
          · rw [hhost]
            exact host_binary_mono (hup own hown htrue)
          · rw [hclient] at hcurrent ⊢
            exact (hstage hcurrent).host hhost hstaged hbinary _
      | up _ _ hqueue _ hhost hclient hsame =>
          rw [hsame]
          refine ⟨fun own hown htrue => ?_, fun hcurrent => ?_⟩
          · rw [hhost]
            exact host_binary_mono (hup own (hqueue ▸ List.mem_cons_of_mem _ hown) htrue)
          · rw [hclient] at hcurrent ⊢
            exact (hstage hcurrent).host hhost hstaged hbinary _
      | @client step _ _ hspeaker _ hhost hclient hsame =>
          rw [hsame]
          refine ⟨?_, fun hcurrent => ?_⟩
          · rw [hhost]
            refine hwritten _ fun message hmessage => ?_
            rw [hclient] at hmessage
            exact LanClient.told_current hsound hmessage
          · rw [hclient] at hcurrent
            have hold := LanClient.next_socket hcurrent (hwired.dialled socket link hlink)
            rw [hhost, hclient]
            refine (hstage hold).aside hsound hold hcurrent (fun message hspoken => hspeaker ?_) _
            rcases hspoken.2 with hinput | hinput <;> rw [hinput] <;> rfl
      | down _ _ hqueue hinput hhost hclient hsame =>
          rw [hsame]
          refine ⟨?_, fun hcurrent => ?_⟩
          · rw [hhost]
            refine hwritten _ fun message hmessage => ?_
            rw [hclient] at hmessage
            exact LanClient.told_current hsound hmessage
          · rw [hclient] at hcurrent
            have hold := LanClient.next_socket hcurrent (hwired.dialled socket link hlink)
            rw [hhost, hclient]
            exact (hstage hold).down hsound hold hcurrent hqueue hinput _

theorem run_framed (run : (machine platform read double supports).Run Feasible trace system) :
    ∀ socket link, system.links socket = some link → Framed system socket link := by
  refine run.invariant (I := fun _ system => ∀ socket link, system.links socket = some link →
    Framed system socket link) ?_ fun trace system action run h hfeasible =>
      Framed.next run hfeasible h
  rintro _ ⟨time, time', rfl⟩
  simp

/-! ## A client without binary frames -/

theorem value_remove {object : JsonObject} {key other : String} (hne : other ≠ key) :
    (object.remove key).value other = object.value other := by
  obtain ⟨fields⟩ := object
  rw [JsonObject.value, JsonObject.value, JsonObject.remove, Fields.erase]
  congr 1
  induction fields with
  | nil => rfl
  | cons field rest ih =>
      obtain ⟨name, value⟩ := field
      by_cases hname : name = key
      · subst hname
        have hskip : (other == name) = false := beq_eq_false_iff_ne.2 hne
        rw [List.filter_cons_of_neg (by simp), ih, List.lookup_cons, hskip]
      · rw [List.filter_cons_of_pos (by simpa using hname), List.lookup_cons, List.lookup_cons, ih]

theorem wording_binary (message : JsonObject) :
    ((wording false message).value "binary").isOne = false := by
  have hnone : (message.remove "binary").contains "binary" = false :=
    JsonObject.contains_remove
  rw [JsonObject.contains, Option.isSome_eq_false_iff, Option.isNone_iff_eq_none] at hnone
  simp only [wording, Bool.false_eq_true, if_false, JsonObject.value, hnone]
  rfl

/-- The property a named session asks for is that of the session, or of a message of its
socket. -/
theorem named_binary {host : LanPeer} {step : LanPeer.Step} {socket : Socket}
    {session : LanPeer.Session} (hmoves : LanPeer.Moves platform host step
      (LanPeer.next platform host step)) (hid : session.id ≠ "")
    (hsession : (LanPeer.next platform host step).clients.lookup socket = some session) :
    (∃ old, host.clients.lookup socket = some old ∧ old.id ≠ "" ∧ old.binary = session.binary) ∨
      ∃ message, (step.input = .text socket message ∨ step.input = .binary socket message) ∧
        session.binary = (message.value "binary").isOne := by
  -- a step that changes one session keeps its name and its `binary`
  have hmodified : ∀ {own : Socket} {f : LanPeer.Session → LanPeer.Session},
      (LanPeer.next platform host step).clients = Table.modify own f host.clients →
      (∀ old, (f old).id = old.id ∧ (f old).binary = old.binary) →
      ∃ old, host.clients.lookup socket = some old ∧ old.id ≠ "" ∧
        old.binary = session.binary := by
    intro own f hclients hkept
    rw [hclients] at hsession
    rcases Table.lookup_modify_eq_some.1 hsession with ⟨rfl, old, hold, rfl⟩ | ⟨-, hold⟩
    · exact ⟨old, hold, (hkept old).1 ▸ hid, (hkept old).2.symm⟩
    · exact ⟨session, hold, hid, rfl⟩
  have hcancelled : (LanPeer.next platform host step).clients = host.cancelPairing.clients →
      ∃ old, host.clients.lookup socket = some old ∧ old.id ≠ "" ∧
        old.binary = session.binary := by
    intro hclients
    rw [hclients] at hsession
    exact ⟨session, (LanPeer.cancelPairing_clients.1 hsession).1, hid, rfl⟩
  cases hmoves with
  | unmoved hunmoved =>
      exact .inl ⟨session, (hunmoved.named socket session hid).1 hsession, hid, rfl⟩
  | @accepted own message haccepts htakes hphase =>
      rw [htakes.clients] at hsession
      rcases Table.lookup_modify_eq_some.1 hsession with ⟨rfl, old, -, rfl⟩ | ⟨-, hold⟩
      · exact .inr ⟨message, haccepts.presented.spoken, rfl⟩
      · exact .inl ⟨session, hold, hid, rfl⟩
  | answered happroves hstored _ _ _ _ hclients _ =>
      exact .inl (hmodified (hclients.trans (LanPeer.approve_clients ..)) fun _ => ⟨rfl, rfl⟩)
  | paired hconfirms _ _ _ _ hclients _ =>
      exact .inl (hmodified hclients fun _ => ⟨rfl, rfl⟩)
  | left _ _ _ _ _ _ hclients _ =>
      rw [hclients] at hsession
      exact .inl ⟨session, (Table.lookup_erase_eq_some.1 hsession).2, hid, rfl⟩
  | expired _ _ _ _ hclients _ => exact .inl ⟨session, hclients ▸ hsession, hid, rfl⟩
  | withdrawn _ _ _ _ hclients _ => exact .inl (hcancelled hclients)
  | offered _ _ _ _ _ hclients _ => exact .inl (hcancelled hclients)
  | restarted _ _ _ hclients _ =>
      rw [hclients] at hsession
      simp at hsession

/-- The host knows that the client has no binary frames. -/
structure Textual (system : LanSystem) (link : Link) : Prop where
  up : ∀ frame ∈ link.up, (frame.message.value "binary").isOne = false
  session : ∀ session, system.host.clients.lookup link.host = some session → session.id ≠ "" →
    session.binary = false
  property : link.host ∉ system.host.binary

theorem Textual.host {link : Link} {step : LanPeer.Step} {after : LanSystem} {passed : Link}
    (h : Textual system link) (hstaged : system.host.Staged)
    (hfeasible : system.host.Feasible step)
    (hhost : after.host = LanPeer.next platform system.host step)
    (hsame : passed.host = link.host) (hup : ∀ frame ∈ passed.up, frame ∈ link.up)
    (hspoken : ∀ message, step.input = .text link.host message ∨
      step.input = .binary link.host message → ∃ frame ∈ link.up, frame.message = message) :
    Textual after passed := by
  refine ⟨fun own hown => h.up own (hup own hown), fun session hsession hid => ?_, ?_⟩
  · rw [hhost, hsame] at hsession
    rcases named_binary (LanPeer.next_moves platform hfeasible hstaged.known) hid hsession with
      ⟨old, hold, hnamed, hbinary⟩ | ⟨message, hinput, hbinary⟩
    · exact hbinary.symm.trans (h.session old hold hnamed)
    · obtain ⟨own, hown, rfl⟩ := hspoken message hinput
      exact hbinary.trans (h.up own hown)
  · rw [hhost, hsame]
    rcases LanPeer.next_mild platform system.host step with hmild |
      ⟨own, session, hconfirms, hpairs⟩
    · rw [hmild.binary]
      exact h.property
    · rw [hpairs, (LanPeer.confirmMessage_spec step.world own session system.host).binary]
      split
      · next hbinary =>
          refine fun hmem => (List.mem_cons.1 hmem).elim (fun hown => ?_) h.property
          have hnone := h.session session (hown ▸ hconfirms.stored) hconfirms.named
          rw [hbinary] at hnone
          cases hnone
      · exact h.property

/-- The socket that is accepted has a session without a name, if it has one. -/
theorem newConnection_nameless {host : LanPeer} {address : String} {session : LanPeer.Session}
    (hstaged : host.Staged)
    (hsession : (host.newConnection platform address).clients.lookup host.sockets = some session) :
    session.id = "" := by
  have hfree : ∀ {session}, host.clients.lookup host.sockets = some session → False :=
    fun hold => (hstaged.known _ _ hold).false
  unfold LanPeer.newConnection at hsession
  split at hsession
  · exact (hfree hsession).elim
  · dsimp only at hsession
    split at hsession
    · exact (hfree hsession).elim
    · rcases Table.lookup_insert_eq_some.1 hsession with ⟨-, rfl⟩ | ⟨hne, -⟩
      · rfl
      · exact absurd rfl hne

theorem run_textual (run : (machine platform read double false).Run Feasible trace system) :
    ∀ socket link, system.links socket = some link → Textual system link := by
  induction run with
  | start hinit =>
      obtain ⟨time, time', rfl⟩ := hinit
      simp
  | @step trace system action run hfeasible ih =>
      intro socket passed hpassed
      change (next platform read double false system action).links socket = some passed at hpassed
      change Textual (next platform read double false system action) passed
      have hstaged := LanPeer.run_staged (run_host run)
      cases hlink : system.links socket with
      | none =>
          obtain ⟨-, -, -, hserver, ⟨address, world, hstep, hnext⟩, -, rfl⟩ :=
            next_accepted hfeasible hlink hpassed
          -- The number of the connection is new, and so is its property.
          have hfresh : system.host.sockets ∉ system.host.binary := by
            intro hmem
            obtain ⟨id, hmem⟩ := LanPeer.run_binary (run_host run) _ hmem
            have hcourse := LanPeer.mem_course.2
              ⟨hmem, show LanPeer.Event.pairing (.paired system.host.sockets id) = _ from rfl⟩
            rw [hstaged.fresh _ le_rfl] at hcourse
            cases hcourse
          refine ⟨by simp, fun session hsession hid => ?_, ?_⟩
          · rw [hnext] at hsession
            exact absurd (newConnection_nameless hstaged hsession) hid
          · rw [hnext, (LanPeer.newConnection_mild address system.host).binary]
            exact hfresh
      | some link =>
          have h := ih socket link hlink
          obtain ⟨own, hown, hpassing⟩ :=
            @next_passing platform read double false system action hfeasible (run_wired run) socket
              link hlink
          obtain rfl := Option.some.inj (hown.symm.trans hpassed)
          -- A client from before binary frames never says that it has them.
          have hwritten : ∀ after : LanClient, ∀ own ∈ link.up ++
              (LanClient.told socket system.client after).map
                (fun message => frame double system.client.binary (wording false message)),
              (own.message.value "binary").isOne = false := by
            intro after own hown
            rcases List.mem_append.1 hown with hold | hnew
            · exact h.up own hold
            · obtain ⟨message, -, rfl⟩ := List.mem_map.1 hnew
              exact wording_binary message
          cases hpassing with
          | idle _ _ hhost _ hsame =>
              rw [hsame]
              exact ⟨h.up, hhost ▸ h.session, hhost ▸ h.property⟩
          | host hstep _ hspeaker hhost _ hsame =>
              refine h.host hstaged (hostStep_feasible hfeasible hstep) hhost (by rw [hsame])
                (by simp [hsame]) fun message hinput => absurd ?_ hspeaker
              rcases hinput with hinput | hinput <;> rw [hinput] <;> rfl
          | @up step first rest hstep _ hqueue hinput hhost _ hsame =>
              refine h.host hstaged (hostStep_feasible hfeasible hstep) hhost (by rw [hsame])
                (by simp +contextual [hsame, hqueue]) fun message hmessage =>
                  ⟨first, by simp [hqueue], ?_⟩
              rw [hinput, Frame.toHost] at hmessage
              split at hmessage <;> rcases hmessage with hmessage | hmessage <;> cases hmessage <;>
                rfl
          | client _ _ _ _ hhost _ hsame =>
              rw [hsame]
              exact ⟨hwritten _, hhost ▸ h.session, hhost ▸ h.property⟩
          | down _ _ _ _ hhost _ hsame =>
              rw [hsame]
              exact ⟨hwritten _, hhost ▸ h.session, hhost ▸ h.property⟩

/-! ## The gates -/

/-- A binary frame that arrives finds the gate of its receiver open: the session is
paired, or the client is, and the property of the socket is set.  A socket without a
session has no slot, and neither has one that is not the client's any more. -/
def Admitted (visit : LanSystem × Action) : Prop :=
  match visit.2 with
  | .up socket _ => ∀ link first rest, visit.1.links socket = some link →
      link.up = first :: rest → first.binary = true →
      ∀ session, visit.1.host.clients.lookup link.host = some session →
        session.paired = true ∧ link.host ∈ visit.1.host.binary
  | .down socket _ => ∀ link first rest, visit.1.links socket = some link →
      link.down = first :: rest → first.binary = true → visit.1.client.client = some socket →
      visit.1.client.clientPaired = true ∧ visit.1.client.binary = true
  | _ => True

/-- The two ends of a connection, once both know that it is paired, have one property; that
of a client without binary frames is not set. -/
def Agreed (supports : Bool) (system : LanSystem) : Prop :=
  ∀ socket link, system.client.client = some socket → system.links socket = some link →
    system.client.clientPaired = true → system.host.Announced link.host ∧
      system.client.binary = decide (link.host ∈ system.host.binary) ∧
      (supports = false → system.client.binary = false)

theorem admitted (run : (machine platform read double supports).Run Feasible trace system)
    (action : Action) : Admitted (system, action) := by
  have hframed := run_framed run
  -- only the delivery of a frame can meet a closed gate
  cases action with
  | up socket world =>
      intro link first rest hlink hup hbinary session hsession
      have hproperty := (hframed socket link hlink).up first (by simp [hup]) hbinary
      refine ⟨?_, hproperty⟩
      rw [(LanPeer.run_staged (run_host run)).paired_iff hsession]
      exact LanPeer.run_binary (run_host run) _ hproperty
  | down socket world =>
      intro link first rest hlink hdown hbinary hclient
      cases (hframed socket link hlink).stage hclient with
      | before _ _ hplain => simp [(hplain first (by simp [hdown])).1] at hbinary
      | @coming front back message _ _ _ hsplit hplain =>
          rw [hdown] at hsplit
          cases front with
          | nil =>
              obtain ⟨rfl, -⟩ := List.cons.inj hsplit
              cases hbinary
          | cons head front =>
              obtain ⟨rfl, -⟩ := List.cons.inj hsplit
              rw [(hplain first List.mem_cons_self).1] at hbinary
              cases hbinary
      | settled hpaired _ hvalue hlater =>
          refine ⟨hpaired, hvalue.trans (decide_eq_true ?_)⟩
          exact hlater first (by simp [hdown]) hbinary
  | _ => trivial

/-- **Negotiated binary frames are never refused.**  In every run no end receives a
binary frame while its gate is closed, and once both took `paired` they agree on binary
frames. -/
theorem run_admitted (run : (machine platform read double supports).Run Feasible trace system) :
    (∀ visit ∈ trace, Admitted visit) ∧ Agreed supports system := by
  constructor
  · induction run with
    | start => simp
    | step run _ ih => exact List.forall_mem_cons.2 ⟨admitted run _, ih⟩
  · intro socket link hclient hlink hpaired
    cases (run_framed run socket link hlink).stage hclient with
    | before hunpaired => simp [hunpaired] at hpaired
    | coming hunpaired => simp [hunpaired] at hpaired
    | settled _ hdue hvalue _ =>
        refine ⟨hdue, hvalue, fun hold => ?_⟩
        subst hold
        rw [hvalue, decide_eq_false (run_textual run socket link hlink).property]

/-- After the pairing the client sends a request with file data. -/
def upload : List Action := meeting (.createOffer 60) ++ [.up 0 .sample, .down 0 .sample,
  .up 0 .sample, .down 0 .sample,
  .client ⟨.request "h" ⟨[("message", .object [("data", .string "AA==")])]⟩, .sample⟩,
  .client ⟨.task, .sample⟩]

theorem upload_admissible :
    (machine .sample LanClient.sampleRead (fun _ => ['1']) true).Admissible Feasible sample
      upload := by
  have hidle : ∀ {socket : Socket}, (none : Option Socket) ≠ some socket := nofun
  refine ⟨⟨trivial, fun _ _ _ => hidle⟩, ⟨trivial, fun _ _ _ => hidle⟩,
    ⟨trivial, genuine_join (by decide +kernel), nofun⟩,
    ⟨by decide +kernel, 0, by decide +kernel, by decide +kernel, ?_⟩,
    ⟨?_, genuine_connected (by decide +kernel), nofun⟩,
    trivial, trivial, trivial, trivial, ⟨trivial, trivial, nofun⟩, ⟨trivial, trivial, nofun⟩,
      trivial⟩
  · exact Option.isNone_iff_eq_none.1 (by decide +kernel)
  · change LanClient.helloSent _ = false
    decide +kernel

theorem run_admitted_upload : ∃ trace system,
    (machine .sample LanClient.sampleRead (fun _ => ['1']) true).Run Feasible trace system ∧
      (system.links 0).map (fun link => link.up.map Frame.binary) = some [true] ∧
      (∀ visit ∈ trace, Admitted visit) ∧ Agreed true system := by
  have hstart : (machine .sample LanClient.sampleRead (fun _ => ['1']) true).Run Feasible []
      sample := .start ⟨0, 0, rfl⟩
  obtain ⟨trace, run⟩ := hstart.extend upload upload_admissible
  exact ⟨trace, _, run, by decide +kernel, run_admitted run⟩

end LanSystem

end ServerHost
