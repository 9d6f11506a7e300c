import Mathlib.Data.List.Basic
import Mathlib.Logic.Relation

/-!
# Machines, runs and histories

A machine takes one input at a time.  `Run` describes the runs in which every
input was admissible in the state it met; it keeps the states visited, newest
first, so a property may speak about the state an earlier input found.

`Relation.ReflTransGen` describes what one input does as a sequence of elementary changes.
`Always P history` says that every entry of a newest-first history satisfied `P`
together with the entries older than it, which is how "whenever the program did
this, that had happened before" is stated.
-/

/-- What a program starts from, and what one input does to it. -/
structure Machine (σ ι : Type*) where
  init : σ → Prop
  next : σ → ι → σ

namespace Machine

variable {σ ι : Type*} {machine : Machine σ ι} {ok : σ → ι → Prop}

/-- A run: the visited states with the inputs they met (newest first), and the
state reached. -/
inductive Run (machine : Machine σ ι) (ok : σ → ι → Prop) : List (σ × ι) → σ → Prop
  | start {state : σ} : machine.init state → Run machine ok [] state
  | step {trace : List (σ × ι)} {state : σ} {input : ι} : Run machine ok trace state →
      ok state input → Run machine ok ((state, input) :: trace) (machine.next state input)

/-- A property of trace and state that holds at the start and is kept by every
admissible input holds all along a run. -/
theorem Run.invariant {I : List (σ × ι) → σ → Prop}
    (hinit : ∀ state, machine.init state → I [] state)
    (hstep : ∀ trace state input, machine.Run ok trace state → I trace state →
      ok state input → I ((state, input) :: trace) (machine.next state input))
    {trace : List (σ × ι)} {state : σ} (run : machine.Run ok trace state) : I trace state := by
  induction run with
  | start h => exact hinit _ h
  | step run hok ih => exact hstep _ _ _ run ih hok

/-- The same for a property of the state alone. -/
theorem Run.invariant_state {I : σ → Prop} (hinit : ∀ state, machine.init state → I state)
    (hstep : ∀ state input, I state → ok state input → I (machine.next state input))
    {trace : List (σ × ι)} {state : σ} (run : machine.Run ok trace state) : I state :=
  run.invariant (I := fun _ => I) hinit fun _ state input _ => hstep state input

theorem Run.mono {ok' : σ → ι → Prop} (h : ∀ state input, ok state input → ok' state input)
    {trace : List (σ × ι)} {state : σ} (run : machine.Run ok trace state) :
    machine.Run ok' trace state := by
  induction run with
  | start h => exact .start h
  | step _ hok ih => exact .step ih (h _ _ hok)

/-- What every step keeps of a relation, a run keeps of it: all visited states are related
to the last one. -/
theorem Run.since {R : σ → σ → Prop} (htrans : ∀ first second third, R first second →
      R second third → R first third)
    (hstep : ∀ trace state input, machine.Run ok trace state → ok state input →
      R state (machine.next state input))
    {trace : List (σ × ι)} {state : σ} (run : machine.Run ok trace state) :
    ∀ visit ∈ trace, R visit.1 state := by
  induction run with
  | start => simp
  | @step trace state input run hok ih =>
      intro visit hvisit
      have hlast := hstep trace state input run hok
      rcases List.mem_cons.1 hvisit with rfl | hold
      · exact hlast
      · exact htrans _ _ _ (ih visit hold) hlast

/-- Every visited state was itself reached by a run. -/
theorem Run.visited {trace : List (σ × ι)} {state : σ} (run : machine.Run ok trace state)
    {later earlier : List (σ × ι)} {visit : σ × ι} (h : trace = later ++ visit :: earlier) :
    machine.Run ok earlier visit.1 ∧ ok visit.1 visit.2 := by
  induction run generalizing later with
  | start => simp at h
  | @step trace state input run hok ih =>
      cases later with
      | nil =>
          simp only [List.nil_append, List.cons.injEq] at h
          obtain ⟨rfl, rfl⟩ := h
          exact ⟨run, hok⟩
      | cons head later =>
          simp only [List.cons_append, List.cons.injEq] at h
          exact ih h.2

/-- Every input of the list is admissible in the state it meets. -/
def Admissible (machine : Machine σ ι) (ok : σ → ι → Prop) : σ → List ι → Prop
  | _, [] => True
  | state, input :: rest => ok state input ∧ Admissible machine ok (machine.next state input) rest

theorem Run.extend {trace : List (σ × ι)} {state : σ} (run : machine.Run ok trace state)
    (inputs : List ι) (h : machine.Admissible ok state inputs) :
    ∃ trace, machine.Run ok trace (inputs.foldl machine.next state) := by
  induction inputs generalizing trace state with
  | nil => exact ⟨trace, run⟩
  | cons input rest ih => exact ih (run.step h.1) h.2

/-- A machine that takes every input takes every list of them. -/
theorem Run.extend_all {trace : List (σ × ι)} {state : σ}
    (run : machine.Run (fun _ _ => True) trace state) (inputs : List ι) :
    ∃ trace, machine.Run (fun _ _ => True) trace (inputs.foldl machine.next state) := by
  induction inputs generalizing trace state with
  | nil => exact ⟨trace, run⟩
  | cons input rest ih => exact ih (run.step trivial)

/-- The states the inputs meet, newest first, before those of `trace`. -/
def visits (machine : Machine σ ι) : List (σ × ι) → σ → List ι → List (σ × ι)
  | trace, _, [] => trace
  | trace, state, input :: rest =>
      visits machine ((state, input) :: trace) (machine.next state input) rest

/-- The same, with the trace of the longer run. -/
theorem Run.visits {trace : List (σ × ι)} {state : σ} (run : machine.Run ok trace state)
    (inputs : List ι) (h : machine.Admissible ok state inputs) :
    machine.Run ok (machine.visits trace state inputs) (inputs.foldl machine.next state) := by
  induction inputs generalizing trace state with
  | nil => exact run
  | cons input rest ih => exact ih (run.step h.1) h.2

end Machine

/-! ## Sequences of changes -/

namespace Relation.ReflTransGen

variable {σ α : Type*} {change : σ → σ → Prop} {state after : σ}

/-- What every change keeps, a sequence of changes keeps. -/
theorem invariant {I : σ → Prop} (h : ∀ state after, change state after → I state → I after)
    (changes : Relation.ReflTransGen change state after) (hstate : I state) : I after := by
  induction changes with
  | refl => exact hstate
  | tail _ last ih => exact h _ _ last ih

/-- A loop whose rounds are changes, as long as `P` holds. -/
theorem foldl_of {f : σ → α → σ} {P : σ → Prop}
    (hkeeps : ∀ state after, change state after → P state → P after) (list : List α)
    (h : ∀ state, ∀ a ∈ list, P state → Relation.ReflTransGen change state (f state a))
    (hstate : P state) : Relation.ReflTransGen change state (list.foldl f state) := by
  induction list generalizing state with
  | nil => exact .refl
  | cons a rest ih =>
      have hround := h state a List.mem_cons_self hstate
      refine hround.trans (ih (fun state b hb => h state b (List.mem_cons_of_mem _ hb)) ?_)
      exact hround.invariant hkeeps hstate

/-- A loop whose rounds are changes. -/
theorem foldl {f : σ → α → σ} (h : ∀ state a, Relation.ReflTransGen change state (f state a))
    (list : List α) (state : σ) : Relation.ReflTransGen change state (list.foldl f state) :=
  foldl_of (P := fun _ => True) (fun _ _ _ _ => trivial) list (fun state a _ _ => h state a)
    trivial

end Relation.ReflTransGen

/-! ## Histories -/

/-- Every entry of the newest-first `history` satisfies `P` with the entries
before it. -/
def Always {ε : Type*} (P : ε → List ε → Prop) (history : List ε) : Prop :=
  ∀ later entry earlier, history = later ++ entry :: earlier → P entry earlier

namespace Always

variable {ε : Type*} {P Q : ε → List ε → Prop} {history : List ε}

theorem nil : Always P [] := by
  intro later entry earlier h
  simp at h

theorem cons {entry : ε} (h : Always P history) (hentry : P entry history) :
    Always P (entry :: history) := by
  intro later old earlier hsplit
  cases later with
  | nil =>
      simp only [List.nil_append, List.cons.injEq] at hsplit
      obtain ⟨rfl, rfl⟩ := hsplit
      exact hentry
  | cons head later =>
      simp only [List.cons_append, List.cons.injEq] at hsplit
      exact h later old earlier hsplit.2

theorem head {entry : ε} (h : Always P (entry :: history)) : P entry history :=
  h [] entry history rfl

theorem tail {entry : ε} (h : Always P (entry :: history)) : Always P history := by
  intro later old earlier hsplit
  exact h (entry :: later) old earlier (by simp [hsplit])

/-- Entries that satisfy `P` whatever came before them. -/
theorem append (h : Always P history) {new : List ε}
    (hnew : ∀ entry ∈ new, ∀ earlier, P entry earlier) : Always P (new ++ history) := by
  induction new with
  | nil => exact h
  | cons entry rest ih =>
      refine cons (ih fun other hother => hnew other (by simp [hother])) ?_
      exact hnew entry (by simp) (rest ++ history)

theorem of_append {new : List ε} (h : Always P (new ++ history)) : Always P history := by
  intro later entry earlier hsplit
  exact h (new ++ later) entry earlier (by rw [hsplit, List.append_assoc])

/-- A property that older entries cannot spoil holds of the whole history. -/
theorem mem (h : Always P history) {entry : ε} (hmem : entry ∈ history) :
    ∃ later earlier, history = later ++ entry :: earlier ∧ P entry earlier := by
  obtain ⟨later, earlier, hsplit⟩ := List.append_of_mem hmem
  exact ⟨later, earlier, hsplit, h later entry earlier hsplit⟩

end Always

/-- The history `after` is `history` with newer entries, all satisfying `P`. -/
def Grows {ε : Type*} (P : ε → Prop) (history after : List ε) : Prop :=
  ∃ new, after = new ++ history ∧ ∀ entry ∈ new, P entry

namespace Grows

variable {ε : Type*} {P Q : ε → Prop} {history first second third : List ε}

theorem of_eq (h : second = first) : Grows P first second :=
  ⟨[], h, by simp⟩

theorem cons {entry : ε} (h : P entry) : Grows P history (entry :: history) :=
  ⟨[entry], rfl, by simpa using h⟩

theorem trans (h : Grows P first second) (h' : Grows P second third) : Grows P first third := by
  obtain ⟨new, hnew, hall⟩ := h
  obtain ⟨new', hnew', hall'⟩ := h'
  refine ⟨new' ++ new, by rw [hnew', hnew, List.append_assoc], fun entry hentry => ?_⟩
  exact (List.mem_append.1 hentry).elim (hall' entry) (hall entry)

theorem mono (h : Grows P first second) (himp : ∀ entry, P entry → Q entry) :
    Grows Q first second :=
  h.imp fun _ hnew => ⟨hnew.1, fun entry hentry => himp entry (hnew.2 entry hentry)⟩

/-- The new entries are the ones that were entered. -/
theorem entered (h : Grows P first second) :
    Grows (fun entry => (∃ new, second = new ++ first ∧ entry ∈ new) ∧ P entry) first second := by
  obtain ⟨new, hnew, hall⟩ := h
  exact ⟨new, hnew, fun entry hentry => ⟨⟨new, hnew, hentry⟩, hall entry hentry⟩⟩

/-- The entries of the longer history are those of the shorter and new ones. -/
theorem mem (h : Grows P first second) {entry : ε} (hentry : entry ∈ second) :
    entry ∈ first ∨ P entry := by
  obtain ⟨new, rfl, hall⟩ := h
  exact (List.mem_append.1 hentry).symm.imp_right (hall entry)

end Grows

/-- What the entries of `after` that are newer than `history` say, oldest first. -/
def news {ε μ : Type*} (f : ε → Option μ) (history after : List ε) : List μ :=
  ((after.take (after.length - history.length)).filterMap f).reverse

section
variable {ε μ : Type*} {f : ε → Option μ} {history after new : List ε}

theorem news_of_append (h : after = new ++ history) :
    news f history after = (new.filterMap f).reverse := by
  rw [news, h, List.length_append, Nat.add_sub_cancel, List.take_left]

/-- Behind what is new stands an entry. -/
theorem exists_of_mem_news {message : μ} (h : message ∈ news f history after) :
    ∃ entry ∈ after, f entry = some message := by
  simp only [news, List.mem_reverse, List.mem_filterMap] at h
  obtain ⟨entry, hentry, hsays⟩ := h
  exact ⟨entry, List.mem_of_mem_take hentry, hsays⟩

end

/-- What a run has entered into a history that starts empty, one of its steps has. -/
theorem Machine.Run.origin {σ ι ε : Type*} {machine : Machine σ ι} {ok : σ → ι → Prop}
    {P : σ → ι → ε → Prop} (history : σ → List ε)
    (hinit : ∀ state, machine.init state → history state = [])
    (hstep : ∀ state input,
      Grows (P state input) (history state) (history (machine.next state input)))
    {trace : List (σ × ι)} {state : σ} (run : machine.Run ok trace state) :
    ∀ entry ∈ history state, ∃ visit ∈ trace, P visit.1 visit.2 entry := by
  induction run with
  | start h => simp [hinit _ h]
  | @step trace state input run _ ih =>
      intro entry hentry
      rcases (hstep state input).mem hentry with hold | hnew
      · obtain ⟨visit, hvisit, hentered⟩ := ih entry hold
        exact ⟨visit, List.mem_cons_of_mem _ hvisit, hentered⟩
      · exact ⟨(state, input), List.mem_cons_self, hnew⟩

/-! ## What is there once -/

section
variable {α β : Type*} {p : α → Bool} {list : List α} {a b : α}

theorem countP_map_append (f : β → α) (new old : List β) :
    ((new ++ old).map f).countP p = (new.map f).countP p + (old.map f).countP p := by
  rw [List.map_append, List.countP_append]

theorem countP_map_eq_zero {f : β → α} {list : List β} (h : ∀ b ∈ list, p (f b) = false) :
    (list.map f).countP p = 0 := by
  refine List.countP_eq_zero.2 fun a hmem hp => ?_
  obtain ⟨b, hb, rfl⟩ := List.mem_map.1 hmem
  rw [h b hb] at hp
  cases hp

/-- What is there once has one place. -/
theorem place_unique (h : list.countP p ≤ 1) {i j : ℕ} (hi : list[i]? = some a)
    (hj : list[j]? = some b) (ha : p a = true) (hb : p b = true) : i = j := by
  induction list generalizing i j with
  | nil => cases hi
  | cons head rest ih =>
      -- An element of the rest leaves none for the head.
      have hrest : ∀ {k : ℕ} {c : α}, rest[k]? = some c → p c = true → p head = false := by
        intro k c hk hc
        have hpos := List.countP_pos_iff.2 ⟨c, List.mem_of_getElem? hk, hc⟩
        rw [List.countP_cons] at h
        cases hhead : p head with
        | false => rfl
        | true =>
            rw [if_pos hhead] at h
            omega
      cases i with
      | zero =>
          cases j with
          | zero => rfl
          | succ j =>
              obtain rfl := Option.some.inj hi
              exact absurd (ha.symm.trans (hrest hj hb)) (by simp)
      | succ i =>
          cases j with
          | zero =>
              obtain rfl := Option.some.inj hj
              exact absurd (hb.symm.trans (hrest hi ha)) (by simp)
          | succ j =>
              have hle : rest.countP p ≤ 1 :=
                Nat.le_trans (List.sublist_cons_self head rest).countP_le h
              rw [ih hle hi hj]

theorem eq_of_countP_le_one (h : list.countP p ≤ 1) (hmem : a ∈ list) (hmem' : b ∈ list)
    (ha : p a = true) (hb : p b = true) : a = b := by
  obtain ⟨i, hi⟩ := List.mem_iff_getElem?.1 hmem
  obtain ⟨j, hj⟩ := List.mem_iff_getElem?.1 hmem'
  obtain rfl := place_unique h hi hj ha hb
  exact Option.some.inj (hi.symm.trans hj)

end
