import ServerHost.Storage.Launch

/-!
# The life of a child

A server has one child at a time.  Whatever the slots of its signals do, a child is
launched, starts, and ends with one `stopped`, after a `failed` unless it was asked to stop.

## Strategy

`Sound` says of every child which signals there were, given its phase.  A turn of the event
loop moves one child (`Sound.advance`) or launches the next one (`Sound.launched`).
-/

namespace ServerHost

namespace Storage

namespace FileProtocolServer

/-- The signals of a child, and its launch. -/
inductive Signal where
  | launched | started | failed (error : String) | stopped
  deriving DecidableEq

/-- What an event is for a child. -/
def signal (child : ℕ) : ServerEvent → Option Signal
  | .launched own _ => if own = child then some .launched else none
  | .started own => if own = child then some .started else none
  | .failed own error => if own = child then some (.failed error) else none
  | .stopped own => if own = child then some .stopped else none
  | _ => none

/-- The signals of a child, newest first. -/
def signals (child : ℕ) (log : List ServerEvent) : List Signal := log.filterMap (signal child)

/-- How a child may fail, and what came before. -/
def Failing (history : List Signal) : Prop :=
  history = [.failed "backend_start_failed", .launched] ∨
    history = [.failed "server_exited", .started, .launched]

/-- The signals of a child that is in this phase.  `pending` says that a slot in progress
still has `stopped` to emit. -/
def Lived (pending : Prop) (history : List Signal) : Phase → Prop
  | .starting => history = [.launched]
  | .running => history = [.started, .launched]
  | .ended => (pending ∧ Failing history) ∨
      (¬ pending ∧ ∃ earlier, history = .stopped :: earlier ∧
        (Failing earlier ∨ earlier = [.started, .launched]))

/-- A launch finds every child before it over.  Only a child that nobody stopped fails, and
a child that is stopped without a failure was asked to. -/
def Reasoned (event : ServerEvent) (earlier : List ServerEvent) : Prop :=
  match event with
  | .launched child _ => signals child earlier = [] ∧ ∀ other < child,
      Failing (signals other earlier) ∨ .stopped other ∈ earlier
  | .failed child error => error = "server_exited" → .terminated child ∉ earlier
  | .stopped child => .terminated child ∈ earlier ∨ ∃ error, .failed child error ∈ earlier
  | _ => True

structure Sound (server : FileProtocolServer) : Prop where
  current : ∀ child, server.process = some child ↔
    ∃ phase, server.children[child]? = some phase ∧ phase ≠ .ended
  lived : server.alive = true → ∀ child phase, server.children[child]? = some phase →
    Lived (child ∈ server.ending) (signals child server.log) phase
  stopping : ∀ child, server.process = some child →
    (server.stopping = true ↔ .terminated child ∈ server.log)
  fresh : ∀ child, server.children.length ≤ child →
    signals child server.log = [] ∧ .terminated child ∉ server.log
  ending : server.ending.Nodup ∧ ∀ child ∈ server.ending, server.children[child]? = some .ended
  reasoned : Always Reasoned server.log

variable {server after : FileProtocolServer} {child : ℕ} {phase old : Phase} {event : ServerEvent}

theorem signals_cons_of_none {log : List ServerEvent} (h : signal child event = none) :
    signals child (event :: log) = signals child log :=
  List.filterMap_cons_none h

theorem signals_cons_of_some {log : List ServerEvent} {own : Signal}
    (h : signal child event = some own) :
    signals child (event :: log) = own :: signals child log :=
  List.filterMap_cons_some h

/-- The child that is not over is the one of `process`. -/
theorem Sound.unique (h : Sound server) (hprocess : server.process = some child)
    {other : ℕ} (hother : server.children[other]? = some phase) (hlives : phase ≠ .ended) :
    other = child :=
  Option.some.inj (((h.current other).2 ⟨phase, hother, hlives⟩).symm.trans hprocess)

/-! ## One child moves on -/

/-- An event of one child, which leaves the other children alone. -/
structure Advances (server after : FileProtocolServer) (child : ℕ) (phase : Phase)
    (event : ServerEvent) : Prop where
  alive : after.alive = server.alive
  children : after.children = server.children.set child phase
  log : after.log = event :: server.log
  stopping : after.stopping = server.stopping
  /-- A child that is over is given up. -/
  process : ∀ other, after.process = some other ↔
    server.process = some other ∧ (other = child → phase ≠ .ended)
  ending : ∀ other, other ≠ child → (other ∈ after.ending ↔ other ∈ server.ending)
  silent : ∀ other, other ≠ child → signal other event = none
  kept : ∀ other, event ≠ .terminated other

theorem Sound.advance (h : Sound server) (phase : Phase) (event : ServerEvent)
    (hstep : Advances server after child phase event)
    (hold : server.children[child]? = some old) (hforward : old = .ended → phase = .ended)
    (hending : after.ending.Nodup ∧ (child ∈ after.ending → phase = .ended))
    (hlived : server.alive = true →
      Lived (child ∈ after.ending) (signals child (event :: server.log)) phase)
    (hreason : Reasoned event server.log) : Sound after := by
  have hlt : child < server.children.length := (List.getElem?_eq_some_iff.1 hold).1
  have hown : after.children[child]? = some phase := by
    rw [hstep.children, List.getElem?_set_self hlt]
  have hother : ∀ other, other ≠ child → after.children[other]? = server.children[other]? := by
    intro other hne
    rw [hstep.children, List.getElem?_set_ne hne.symm]
  have hterminated : ∀ other, .terminated other ∈ after.log ↔ .terminated other ∈ server.log := by
    intro other
    rw [hstep.log, List.mem_cons, or_iff_right (hstep.kept other).symm]
  refine ⟨fun other => ?_, fun halive other own hphase => ?_, fun other hprocess => ?_,
    fun other hle => ?_, ⟨hending.1, fun other hmem => ?_⟩, ?_⟩
  -- A child is the current one as long as it has not ended.
  · rw [hstep.process]
    by_cases heq : other = child
    · subst heq
      have hown' : (∃ own, after.children[other]? = some own ∧ own ≠ .ended) ↔ phase ≠ .ended := by
        simp [hown]
      rw [hown']
      refine ⟨fun hgiven => hgiven.2 rfl, fun hlives => ⟨?_, fun _ => hlives⟩⟩
      exact (h.current other).2 ⟨old, hold, fun hended => hlives (hforward hended)⟩
    · rw [hother other heq, ← h.current other]
      exact ⟨And.left, fun hprocess => ⟨hprocess, fun hsame => absurd hsame heq⟩⟩
  · rw [hstep.alive] at halive
    by_cases heq : other = child
    · subst heq
      obtain rfl := Option.some.inj (hown.symm.trans hphase)
      rw [hstep.log]
      exact hlived halive
    · rw [hother other heq] at hphase
      rw [hstep.ending other heq, hstep.log, signals_cons_of_none (hstep.silent other heq)]
      exact h.lived halive other own hphase
  · rw [hstep.stopping, hterminated]
    exact h.stopping other ((hstep.process other).1 hprocess).1
  · rw [hstep.children, List.length_set] at hle
    have hne : other ≠ child := by omega
    rw [hterminated, hstep.log, signals_cons_of_none (hstep.silent other hne)]
    exact h.fresh other hle
  · by_cases heq : other = child
    · subst heq
      rw [hown, hending.2 hmem]
    · rw [hother other heq]
      exact h.ending.2 other ((hstep.ending other heq).1 hmem)
  · rw [hstep.log]
    exact h.reasoned.cons hreason

/-- The child in `process` is given up. -/
theorem Sound.given (h : Sound server) (hold : server.children[child]? = some old)
    (hlives : old ≠ .ended) (other : ℕ) : (none : Option ℕ) = some other ↔
      server.process = some other ∧ (other = child → Phase.ended ≠ .ended) := by
  refine iff_of_false (by simp) ?_
  rintro ⟨hprocess, hne⟩
  exact hne (h.unique hprocess hold hlives).symm rfl

theorem Sound.started (h : Sound server) (child : ℕ) : Sound (server.started child) := by
  unfold FileProtocolServer.started
  split
  · next hold =>
      have hnot : child ∉ server.ending := fun hmem => by
        cases hold.symm.trans (h.ending.2 child hmem)
      refine h.advance .running (.started child)
        ⟨rfl, rfl, rfl, rfl, fun other => ?_, fun _ _ => Iff.rfl, fun other hne => if_neg hne.symm,
          by simp⟩ hold (by simp) ⟨h.ending.1, fun hmem => absurd hmem hnot⟩ (fun halive => ?_)
        trivial
      · exact ⟨fun hprocess => ⟨hprocess, by simp⟩, And.left⟩
      · have hlived := h.lived halive child _ hold
        have hown : signal child (.started child) = some .started := if_pos rfl
        rw [signals_cons_of_some hown]
        exact congrArg _ hlived
  · exact h

theorem Sound.failedToStart (h : Sound server) (child : ℕ) :
    Sound (server.failedToStart child) := by
  unfold FileProtocolServer.failedToStart
  split
  · next hold =>
      have hnot : child ∉ server.ending := fun hmem => by
        cases hold.symm.trans (h.ending.2 child hmem)
      refine h.advance .ended (.failed child "backend_start_failed")
        ⟨rfl, rfl, rfl, rfl, h.given hold (by simp), fun other hne => ?_,
          fun other hne => if_neg hne.symm, by simp⟩ hold (by simp)
        ⟨List.nodup_cons.2 ⟨hnot, h.ending.1⟩, fun _ => rfl⟩ (fun halive => ?_) ?_
      · exact ⟨fun hmem => (List.mem_cons.1 hmem).resolve_left hne, List.mem_cons_of_mem _⟩
      · have hlived := h.lived halive child _ hold
        have hown : signal child (.failed child "backend_start_failed") =
            some (.failed "backend_start_failed") := if_pos rfl
        rw [signals_cons_of_some hown]
        exact .inl ⟨List.mem_cons_self, .inl (congrArg _ hlived)⟩
      · exact fun heq => absurd heq (by decide)
  · exact h

theorem Sound.exited (h : Sound server) (child : ℕ) : Sound (server.exited child) := by
  unfold FileProtocolServer.exited
  split
  · next hold =>
      have hprocess : server.process = some child := (h.current child).2 ⟨_, hold, by simp⟩
      have hnot : child ∉ server.ending := fun hmem => by
        cases hold.symm.trans (h.ending.2 child hmem)
      dsimp only
      by_cases hstopping : (server.onChild child .ended).stopping = true
      · rw [if_neg (not_not.2 hstopping)]
        refine h.advance .ended (.stopped child)
          ⟨rfl, rfl, rfl, rfl, h.given hold (by simp), fun _ _ => Iff.rfl,
            fun other hne => if_neg hne.symm, by simp⟩ hold (by simp)
          ⟨h.ending.1, fun hmem => absurd hmem hnot⟩ (fun halive => ?_) ?_
        · have hlived := h.lived halive child _ hold
          have hown : signal child (.stopped child) = some .stopped := if_pos rfl
          rw [signals_cons_of_some hown]
          exact .inr ⟨hnot, _, rfl, .inr hlived⟩
        · exact .inl ((h.stopping child hprocess).1 hstopping)
      · rw [if_pos hstopping]
        refine h.advance .ended (.failed child "server_exited")
          ⟨rfl, rfl, rfl, rfl, h.given hold (by simp), fun other hne => ?_,
            fun other hne => if_neg hne.symm, by simp⟩ hold (by simp)
          ⟨List.nodup_cons.2 ⟨hnot, h.ending.1⟩, fun _ => rfl⟩ (fun halive => ?_) ?_
        · exact ⟨fun hmem => (List.mem_cons.1 hmem).resolve_left hne, List.mem_cons_of_mem _⟩
        · have hlived := h.lived halive child _ hold
          have hown : signal child (.failed child "server_exited") =
              some (.failed "server_exited") := if_pos rfl
          rw [signals_cons_of_some hown]
          exact .inl ⟨List.mem_cons_self, .inr (congrArg _ hlived)⟩
        · exact fun _ hasked => hstopping ((h.stopping child hprocess).2 hasked)
  · exact h

/-- The event of a signal is in the history. -/
def Told (child : ℕ) (log : List ServerEvent) : Signal → Prop
  | .launched => ∃ launch, .launched child launch ∈ log
  | .started => .started child ∈ log
  | .failed error => .failed child error ∈ log
  | .stopped => .stopped child ∈ log

theorem told_of_mem {log : List ServerEvent} {own : Signal} (h : own ∈ signals child log) :
    Told child log own := by
  obtain ⟨event, hevent, hsignal⟩ := List.mem_filterMap.1 h
  cases event with
  | launched other launch =>
      obtain ⟨rfl, heq⟩ := Option.ite_none_right_eq_some.1 hsignal
      obtain rfl := Option.some.inj heq
      exact ⟨launch, hevent⟩
  | started other =>
      obtain ⟨rfl, heq⟩ := Option.ite_none_right_eq_some.1 hsignal
      exact Option.some.inj heq ▸ hevent
  | failed other error =>
      obtain ⟨rfl, heq⟩ := Option.ite_none_right_eq_some.1 hsignal
      exact Option.some.inj heq ▸ hevent
  | stopped other =>
      obtain ⟨rfl, heq⟩ := Option.ite_none_right_eq_some.1 hsignal
      exact Option.some.inj heq ▸ hevent
  | refused error => cases hsignal
  | terminated other => cases hsignal
  | killed other => cases hsignal

theorem Failing.failed {log : List ServerEvent} (h : Failing (signals child log)) :
    ∃ error, .failed child error ∈ log := by
  have hmem : ∃ error, Signal.failed error ∈ signals child log := by
    rcases h with heq | heq <;> exact ⟨_, heq ▸ List.mem_cons_self⟩
  obtain ⟨error, hmem⟩ := hmem
  have htold : Told child log (.failed error) := told_of_mem hmem
  exact ⟨error, htold⟩

/-- The slots of `failed` return, and `stopped` follows. -/
theorem Sound.resume (h : Sound server) (halive : server.alive = true) : Sound server.resume := by
  unfold FileProtocolServer.resume
  cases hending : server.ending with
  | nil => exact h
  | cons child rest =>
      obtain ⟨hnodup, hover⟩ := h.ending
      rw [hending] at hnodup hover
      have hold := hover child List.mem_cons_self
      obtain ⟨hnot, hrest⟩ := List.nodup_cons.1 hnodup
      have hfailing : Failing (signals child server.log) := by
        rcases h.lived halive child _ hold with ⟨-, hfailing⟩ | ⟨hdone, -⟩
        · exact hfailing
        · exact absurd (hending ▸ List.mem_cons_self) hdone
      obtain ⟨hlt, hget⟩ := List.getElem?_eq_some_iff.1 hold
      have hset : server.children = server.children.set child .ended := by
        rw [← hget, List.set_getElem_self]
      refine h.advance .ended (.stopped child)
        ⟨rfl, hset, rfl, rfl, fun other => ?_, fun other hne => ?_,
          fun other hne => if_neg hne.symm, by simp⟩ hold (by simp)
        ⟨hrest, fun hmem => absurd hmem hnot⟩ (fun _ => ?_) (.inr hfailing.failed)
      · refine ⟨fun hprocess => ⟨hprocess, ?_⟩, And.left⟩
        rintro rfl
        obtain ⟨own, hown, hlives⟩ := (h.current other).1 hprocess
        exact absurd (Option.some.inj (hown.symm.trans hold)) hlives
      · rw [hending, List.mem_cons, or_iff_right hne]
        exact Iff.rfl
      · have hown : signal child (.stopped child) = some .stopped := if_pos rfl
        rw [signals_cons_of_some hown]
        exact .inr ⟨hnot, _, rfl, .inl hfailing⟩

/-! ## The calls -/

/-- Something that is no signal of a child, and does not ask it to stop. -/
theorem Sound.quiet (h : Sound server) (hsilent : ∀ other, signal other event = none)
    (hkept : ∀ other, event ≠ .terminated other) (hreason : Reasoned event server.log)
    (error : String) (shots : List ℕ) :
    Sound { server with error := error, shots := shots, log := event :: server.log } where
  current := h.current
  lived halive other phase hphase := by
    change Lived _ (signals other (event :: server.log)) _
    rw [signals_cons_of_none (hsilent other)]
    exact h.lived halive other phase hphase
  stopping other hprocess := by
    rw [List.mem_cons, or_iff_right (hkept other).symm]
    exact h.stopping other hprocess
  fresh other hle := by
    rw [List.mem_cons, or_iff_right (hkept other).symm, signals_cons_of_none (hsilent other)]
    exact h.fresh other hle
  ending := h.ending
  reasoned := h.reasoned.cons hreason

theorem Sound.error (h : Sound server) (error : String) : Sound { server with error := error } :=
  { h with }

/-- Every child is over when there is no process. -/
theorem Sound.over (h : Sound server) (halive : server.alive = true) (hnone : server.process = none)
    {other : ℕ} (hlt : other < server.children.length) :
    Failing (signals other server.log) ∨ .stopped other ∈ server.log := by
  have hphase := List.getElem?_eq_getElem hlt
  have hended : server.children[other] = .ended := by
    by_contra hlives
    cases hnone.symm.trans ((h.current other).2 ⟨_, hphase, hlives⟩)
  rw [hended] at hphase
  rcases h.lived halive other _ hphase with ⟨-, hfailing⟩ | ⟨-, earlier, heq, -⟩
  · exact .inl hfailing
  · have htold : Told other server.log .stopped := told_of_mem (heq ▸ List.mem_cons_self)
    exact .inr htold

/-- The next child is launched. -/
theorem Sound.launched (h : Sound server) (halive : server.alive = true)
    (hnone : server.process = none) (launch : Launch) :
    Sound ({ server with
        stopping := false
        children := server.children ++ [Phase.starting]
        process := some server.children.length }.emit
      (.launched server.children.length launch)) := by
  obtain ⟨hhistory, hasked⟩ := h.fresh _ (Nat.le_refl _)
  -- Without a current child every child has ended.
  have hended : ∀ (other : ℕ) (phase : Phase), server.children[other]? = some phase →
      phase = .ended := by
    intro other phase hphase
    by_contra hlives
    cases hnone.symm.trans ((h.current other).2 ⟨phase, hphase, hlives⟩)
  have hother : ∀ other, other ≠ server.children.length →
      (server.children ++ [Phase.starting])[other]? = server.children[other]? := by
    intro other hne
    rcases Nat.lt_or_ge other server.children.length with hlt | hge
    · exact List.getElem?_append_left hlt
    · rw [List.getElem?_eq_none (by simp; omega), List.getElem?_eq_none hge]
  have hown : (server.children ++ [Phase.starting])[server.children.length]? = some .starting :=
    List.getElem?_concat_length
  -- The launch is news about the new child only.
  have hsignal : ∀ other, other ≠ server.children.length →
      signal other (.launched server.children.length launch) = none :=
    fun other hne => if_neg hne.symm
  refine ⟨fun other => ?_, fun _ other phase hphase => ?_, fun other hprocess => ?_,
    fun other hle => ?_, ⟨h.ending.1, fun other hmem => ?_⟩, h.reasoned.cons ?_⟩
  · by_cases heq : other = server.children.length
    · subst heq
      exact iff_of_true rfl ⟨_, hown, by simp⟩
    · refine iff_of_false (fun hprocess => heq (Option.some.inj hprocess).symm) ?_
      rintro ⟨phase, hphase, hlives⟩
      exact hlives (hended other phase ((hother other heq).symm.trans hphase))
  · by_cases heq : other = server.children.length
    · subst heq
      obtain rfl := Option.some.inj (hown.symm.trans hphase)
      have hlaunch : signal server.children.length
        (.launched server.children.length launch) = some .launched := if_pos rfl
      change signals _ (_ :: server.log) = [.launched]
      rw [signals_cons_of_some hlaunch, hhistory]
    · change Lived _ (signals other (_ :: server.log)) phase
      rw [signals_cons_of_none (hsignal other heq)]
      exact h.lived halive other phase ((hother other heq).symm.trans hphase)
  · obtain rfl := Option.some.inj hprocess
    exact iff_of_false (by simp [emit]) fun hmem =>
      hasked ((List.mem_cons.1 hmem).resolve_left (by simp))
  · change (server.children ++ [Phase.starting]).length ≤ other at hle
    rw [List.length_append, List.length_singleton] at hle
    have hne : other ≠ server.children.length := by omega
    obtain ⟨hnone, hnot⟩ := h.fresh other (by omega)
    refine ⟨(signals_cons_of_none (hsignal other hne)).trans hnone, fun hmem => ?_⟩
    exact hnot ((List.mem_cons.1 hmem).resolve_left (by simp))
  · have hold := h.ending.2 other hmem
    have hlt := (List.getElem?_eq_some_iff.1 hold).1
    exact (hother other (Nat.ne_of_lt hlt)).trans hold
  · exact ⟨hhistory, fun other hlt => h.over halive hnone hlt⟩

section
variable (fromUtf8 : Bytes → String) (platform : Platform) (backend : StorageBridgeOptions)

theorem Sound.start (h : Sound server) (halive : server.alive = true) (system : Environment)
    (disk : Disk) (o : FileServerOptions) (spawned : Bool) :
    Sound (server.start fromUtf8 platform backend system disk o spawned) := by
  unfold FileProtocolServer.start
  split
  · exact h.quiet (fun _ => rfl) (by simp) (by trivial) "already_running" server.shots
  next hidle =>
  have hnone : server.process = none := by simpa using hidle
  dsimp only
  split
  · exact h.quiet (fun _ => rfl) (by simp) (by trivial) _ server.shots
  · have hlaunched := (h.error (validateServer platform disk o backend)).launched halive hnone
      (launch fromUtf8 system disk o backend)
    split
    · exact hlaunched
    · exact hlaunched.failedToStart _

theorem Sound.stop (h : Sound server) : Sound server.stop := by
  unfold FileProtocolServer.stop
  cases hprocess : server.process with
  | none => exact h
  | some child =>
      obtain ⟨phase, hphase, -⟩ := (h.current child).1 hprocess
      have hlt := (List.getElem?_eq_some_iff.1 hphase).1
      have hcurrent := h.current
      rw [hprocess] at hcurrent
      refine ⟨hcurrent, fun halive other own hown => ?_, fun other hother => ?_,
        fun other hle => ?_, h.ending, h.reasoned.cons trivial⟩
      · exact h.lived halive other own hown
      · obtain rfl := Option.some.inj hother
        exact iff_of_true rfl List.mem_cons_self
      · obtain ⟨hnone, hnot⟩ := h.fresh other hle
        refine ⟨hnone, fun hmem => ?_⟩
        rcases List.mem_cons.1 hmem with heq | hold
        · obtain rfl := ServerEvent.terminated.inj heq
          exact absurd hlt (Nat.not_lt_of_le hle)
        · exact hnot hold

theorem Sound.shot (h : Sound server) (child : ℕ) : Sound (server.shot child) := by
  unfold FileProtocolServer.shot
  split
  · dsimp only
    split
    · exact { h with }
    · exact h.quiet (fun _ => rfl) (by simp) (by trivial) server.error _
  · exact h

theorem Sound.delete (h : Sound server) : Sound server.delete := by
  unfold FileProtocolServer.delete
  cases hprocess : server.process with
  | none =>
      have hcurrent := h.current
      rw [hprocess] at hcurrent
      exact ⟨hcurrent, fun halive => (by cases halive), fun _ hnone => (by cases hnone), h.fresh,
        h.ending, h.reasoned⟩
  | some child =>
      obtain ⟨old, hold, hlives⟩ := (h.current child).1 hprocess
      have hother : ∀ other, other ≠ child →
          (server.children.set child .ended)[other]? = server.children[other]? :=
        fun other hne => List.getElem?_set_ne hne.symm
      have hlt := (List.getElem?_eq_some_iff.1 hold).1
      have hown : (server.children.set child .ended)[child]? = some .ended :=
        List.getElem?_set_self hlt
      refine ⟨fun other => iff_of_false (fun hnone => (by cases hnone)) ?_,
        fun halive => (by cases halive), fun other hnone => (by cases hnone), fun other hle => ?_,
        ⟨h.ending.1, fun other hmem => ?_⟩, h.reasoned.cons trivial⟩
      · rintro ⟨phase, hphase, hlive⟩
        by_cases heq : other = child
        · subst heq
          exact hlive (Option.some.inj (hphase.symm.trans hown))
        · exact heq (h.unique hprocess ((hother other heq).symm.trans hphase) hlive)
      · change (server.children.set child .ended).length ≤ other at hle
        rw [List.length_set] at hle
        obtain ⟨hnone, hnot⟩ := h.fresh other hle
        exact ⟨hnone, fun hmem => hnot ((List.mem_cons.1 hmem).resolve_left (by simp))⟩
      · by_cases heq : other = child
        · subst heq
          exact hown
        · exact (hother other heq).trans (h.ending.2 other hmem)

theorem Sound.next (h : Sound server) (input : Input) :
    Sound (server.next fromUtf8 platform backend input) := by
  unfold FileProtocolServer.next
  split
  · next halive =>
      cases input with
      | start system disk o spawned => exact h.start _ _ _ halive system disk o spawned
      | stop => exact h.stop
      | started child => exact h.started child
      | failedToStart child => exact h.failedToStart child
      | exited child => exact h.exited child
      | resume => exact h.resume halive
      | shot child => exact h.shot child
      | delete => exact h.delete
  · exact h

end

/-! ## The runs -/

section
variable {fromUtf8 : Bytes → String} {platform : Platform} {backend : StorageBridgeOptions}

theorem run_sound {trace : List (FileProtocolServer × Input)}
    (run : (machine fromUtf8 platform backend).Run (fun _ _ => True) trace server) :
    Sound server := by
  refine run.invariant_state (fun server hinit => ?_) fun server input h _ => h.next _ _ _ input
  obtain rfl : server = {} := hinit
  refine ⟨by simp, by simp, by simp, fun _ _ => ⟨rfl, List.not_mem_nil⟩, ⟨List.nodup_nil, ?_⟩, .nil⟩
  exact fun _ hmem => absurd hmem List.not_mem_nil

/-- What a call of `start` has to do with a launch. -/
def Origin (fromUtf8 : Bytes → String) (platform : Platform) (backend : StorageBridgeOptions)
    (server : FileProtocolServer) (input : Input) (event : ServerEvent) : Prop :=
  ∀ child l, event = .launched child l → server.process = none ∧ ∃ system disk o spawned,
    input = .start system disk o spawned ∧ validateServer platform disk o backend = "" ∧
      l = launch fromUtf8 system disk o backend

/-- An event that is no launch. -/
theorem Origin.of_ne {input : Input} (h : ∀ child l, event ≠ .launched child l) :
    Origin fromUtf8 platform backend server input event :=
  fun child l heq => absurd heq (h child l)

theorem failedToStart_grows (input : Input) (start : FileProtocolServer) (child : ℕ) :
    Grows (Origin fromUtf8 platform backend start input) server.log
      (server.failedToStart child).log := by
  unfold FileProtocolServer.failedToStart
  split
  · exact .cons (.of_ne (by simp))
  · exact .of_eq rfl

theorem start_grows (system : Environment) (disk : Disk) (o : FileServerOptions) (spawned : Bool) :
    Grows (Origin fromUtf8 platform backend server (.start system disk o spawned)) server.log
      (server.start fromUtf8 platform backend system disk o spawned).log := by
  unfold FileProtocolServer.start
  split
  · exact .cons (.of_ne (by simp))
  next hidle =>
  dsimp only
  split
  · exact .cons (.of_ne (by simp))
  next haccepted =>
  have hlaunch : Origin fromUtf8 platform backend server (.start system disk o spawned)
      (.launched server.children.length (launch fromUtf8 system disk o backend)) := by
    intro child l heq
    obtain ⟨-, rfl⟩ := ServerEvent.launched.inj heq
    exact ⟨by simpa using hidle, system, disk, o, spawned, rfl, not_not.1 haccepted, rfl⟩
  split
  · exact .cons hlaunch
  · exact Grows.trans (.cons hlaunch) (failedToStart_grows _ server _)

theorem next_grows (server : FileProtocolServer) (input : Input) :
    Grows (Origin fromUtf8 platform backend server input) server.log
      (server.next fromUtf8 platform backend input).log := by
  have hcons : ∀ {event : ServerEvent}, (∀ child l, event ≠ .launched child l) →
      Grows (Origin fromUtf8 platform backend server input) server.log (event :: server.log) :=
    fun h => .cons (.of_ne h)
  unfold FileProtocolServer.next
  split
  swap
  · exact .of_eq rfl
  cases input with
  | start system disk o spawned => exact start_grows system disk o spawned
  | stop =>
      unfold FileProtocolServer.stop
      cases server.process with
      | none => exact .of_eq rfl
      | some child => exact hcons (by simp)
  | started child =>
      unfold FileProtocolServer.started
      dsimp only
      split
      · exact hcons (by simp)
      · exact .of_eq rfl
  | failedToStart child => exact failedToStart_grows _ server child
  | exited child =>
      -- An exit that was not asked for is a failure; one that was is not.
      unfold FileProtocolServer.exited
      dsimp only
      split
      · split
        · exact hcons (by simp)
        · exact hcons (by simp)
      · exact .of_eq rfl
  | resume =>
      unfold FileProtocolServer.resume
      cases server.ending with
      | nil => exact .of_eq rfl
      | cons child rest => exact hcons (by simp)
  | shot child =>
      unfold FileProtocolServer.shot
      dsimp only
      split
      · split
        · exact .of_eq rfl
        · exact hcons (by simp)
      · exact .of_eq rfl
  | delete =>
      unfold FileProtocolServer.delete
      cases server.process with
      | none => exact .of_eq rfl
      | some child => exact hcons (by simp)

end

/-- A server exits, a slot of `failed` starts another one, and that one is stopped. -/
def restarted : List Input :=
  let start : Input := .start ∅ .sample
    { protocol := .webDav, root := "/srv", port := 80, username := "u", password := [1] } true
  [start, .started 0, .exited 0, start, .resume, .started 1, .stop, .exited 1]

end FileProtocolServer

end Storage

end ServerHost
