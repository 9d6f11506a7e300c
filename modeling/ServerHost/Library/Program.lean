import Mathlib.Logic.Relation

/-!
# Programs that make calls

A program of type `Program C A α` asks its environment: a call `c : C` is
answered by a value of type `A c`, and the program goes on with the answer.
Nothing is said about what a call does.  Three readings give the calls a meaning:

* `run` answers every call from one fixed function;
* `Runs` collects, for each call, what happened while it was made;
* `Obeys` follows a protocol, which says which call may come next after what the
  program has done so far, whatever the answers are.
-/

/-- A program that returns a value, or makes a call and goes on with the answer. -/
inductive Program (C : Type*) (A : C → Type*) (α : Type*) where
  | done (value : α)
  | call (request : C) (next : A request → Program C A α)

namespace Program

variable {C : Type*} {A : C → Type*} {α β : Type*}

/-- Run the first program, then the second on its value. -/
def bind : Program C A α → (α → Program C A β) → Program C A β
  | done value, f => f value
  | call request next, f => call request fun answer => (next answer).bind f

/-- A single call. -/
def ask (request : C) : Program C A (A request) := call request done

instance : Monad (Program C A) where
  pure := done
  bind := bind

@[simp] theorem pure_eq (value : α) : (pure value : Program C A α) = done value := rfl

@[simp] theorem bind_eq {α β : Type _} (program : Program C A α) (f : α → Program C A β) :
    program >>= f = program.bind f := rfl

@[simp] theorem done_bind (value : α) (f : α → Program C A β) : (done value).bind f = f value := rfl

@[simp] theorem call_bind (request : C) (next : A request → Program C A α)
    (f : α → Program C A β) :
    (call request next).bind f = call request fun answer => (next answer).bind f := rfl

@[simp] theorem ask_bind (request : C) (f : A request → Program C A β) :
    (ask request).bind f = call request f := rfl

/-- Each call is answered by a program of other calls. -/
def interpret {D : Type*} {B : D → Type*} (answered : (request : C) → Program D B (A request)) :
    Program C A α → Program D B α
  | done value => done value
  | call request next =>
      (answered request).bind fun answer => (next answer).interpret answered

/-! ## One answer for every call -/

/-- The value of the program when each call has a fixed answer. -/
def run (answer : (request : C) → A request) : Program C A α → α
  | done value => value
  | call request next => (next (answer request)).run answer

section
variable (answer : (request : C) → A request)

@[simp] theorem run_done (value : α) : (done value : Program C A α).run answer = value := rfl

@[simp] theorem run_call (request : C) (next : A request → Program C A α) :
    (call request next).run answer = (next (answer request)).run answer := rfl

@[simp] theorem run_ask (request : C) : (ask request).run answer = answer request := rfl

@[simp] theorem run_bind (program : Program C A α) (f : α → Program C A β) :
    (program.bind f).run answer = (f (program.run answer)).run answer := by
  induction program with
  | done value => rfl
  | call request next ih => exact ih (answer request)

end

/-! ## Runs with their events -/

/-- The program returns the value after the calls recorded in the events, where
`makes request answer event` says that the event is a call with that answer. -/
inductive Runs {ε : Type*} (makes : (request : C) → A request → ε → Prop) :
    Program C A α → List ε → α → Prop
  | done (value : α) : Runs makes (done value) [] value
  | call {request : C} {next : A request → Program C A α} {answer : A request} {event : ε}
      {rest : List ε} {value : α} : makes request answer event →
        Runs makes (next answer) rest value →
      Runs makes (call request next) (event :: rest) value

section
variable {ε : Type*} {makes : (request : C) → A request → ε → Prop}

theorem runs_done_iff {value value' : α} {events : List ε} :
    Runs makes (done value : Program C A α) events value' ↔ events = [] ∧ value' = value := by
  constructor
  · rintro ⟨⟩
    exact ⟨rfl, rfl⟩
  · rintro ⟨rfl, rfl⟩
    exact .done _

theorem runs_call_iff {request : C} {next : A request → Program C A α} {events : List ε}
    {value : α} : Runs makes (call request next) events value ↔
      ∃ answer event rest, events = event :: rest ∧ makes request answer event ∧
        Runs makes (next answer) rest value := by
  constructor
  · rintro (_ | ⟨hmakes, hrest⟩)
    exact ⟨_, _, _, rfl, hmakes, hrest⟩
  · rintro ⟨answer, event, rest, rfl, hmakes, hrest⟩
    exact .call hmakes hrest

/-- A run of two programs in sequence is a run of the first and one of the second. -/
theorem runs_bind_iff {program : Program C A α} {f : α → Program C A β} {events : List ε}
    {value : β} : Runs makes (program.bind f) events value ↔
      ∃ first second middle, events = first ++ second ∧ Runs makes program first middle ∧
        Runs makes (f middle) second value := by
  constructor
  · intro h
    induction program generalizing events with
    | done middle => exact ⟨[], events, middle, rfl, .done middle, h⟩
    | call request next ih =>
        obtain ⟨answer, event, rest, rfl, hmakes, hrest⟩ := runs_call_iff.1 h
        obtain ⟨first, second, middle, rfl, hfirst, hsecond⟩ := ih answer hrest
        exact ⟨event :: first, second, middle, rfl, .call hmakes hfirst, hsecond⟩
  · rintro ⟨first, second, middle, rfl, hfirst, hsecond⟩
    induction hfirst with
    | done middle => exact hsecond
    | call hmakes _ ih => exact .call hmakes (ih hsecond)

/-- The events of a program whose calls have fixed answers. -/
def trace (answer : (request : C) → A request) (event : C → ε) : Program C A α → List ε
  | done _ => []
  | call request next => event request :: (next (answer request)).trace answer event

theorem mem_trace {answer : (request : C) → A request} {event : C → ε} {program : Program C A α}
    {made : ε} (h : made ∈ program.trace answer event) : ∃ request, made = event request := by
  induction program with
  | done value => cases h
  | call request next ih =>
      rcases List.mem_cons.1 h with rfl | hrest
      · exact ⟨request, rfl⟩
      · exact ih _ hrest

/-- Fixed answers make a run. -/
theorem runs_run {answer : (request : C) → A request} {event : C → ε}
    (h : ∀ request, makes request (answer request) (event request)) (program : Program C A α) :
    Runs makes program (program.trace answer event) (program.run answer) := by
  induction program with
  | done value => exact .done value
  | call request next ih => exact .call (h request) (ih (answer request))

end

end Program

/-! ## Protocols -/

/-- Which calls a program may make in a phase, which answers it may get, and the
phase after a call. -/
structure Protocol (C : Type*) (A : C → Type*) (φ : Type*) where
  allows : φ → C → Prop
  possible : (request : C) → A request → Prop
  next : φ → (request : C) → A request → φ

namespace Program

variable {C : Type*} {A : C → Type*} {α β φ : Type*} {protocol : Protocol C A φ}

/-- Every call of the program is allowed in the phase it comes in, and the value fits
the last phase. -/
def Obeys (protocol : Protocol C A φ) (post : φ → α → Prop) : φ → Program C A α → Prop
  | phase, done value => post phase value
  | phase, call request next => protocol.allows phase request ∧ ∀ answer,
      protocol.possible request answer →
        Obeys protocol post (protocol.next phase request answer) (next answer)

@[simp] theorem obeys_done {post : φ → α → Prop} {phase : φ} {value : α} :
    Obeys protocol post phase (done value) ↔ post phase value := Iff.rfl

theorem Obeys.mono {post post' : φ → α → Prop} {phase : φ} {program : Program C A α}
    (h : Obeys protocol post phase program) (hpost : ∀ phase value, post phase value →
      post' phase value) : Obeys protocol post' phase program := by
  induction program generalizing phase with
  | done value => exact hpost phase value h
  | call request next ih => exact ⟨h.1, fun answer hanswer => ih answer (h.2 answer hanswer)⟩

/-- A program obeys the protocol when its first part does and its second part does from
wherever the first may end. -/
theorem Obeys.bind {post : φ → β → Prop} {middle : φ → α → Prop} {phase : φ}
    {program : Program C A α} {f : α → Program C A β} (h : Obeys protocol middle phase program)
    (hf : ∀ phase value, middle phase value → Obeys protocol post phase (f value)) :
    Obeys protocol post phase (program.bind f) := by
  induction program generalizing phase with
  | done value => exact hf phase value h
  | call request next ih => exact ⟨h.1, fun answer hanswer => ih answer (h.2 answer hanswer)⟩

/-- A program whose calls are answered by programs that keep an invariant of the phase keeps
it. -/
theorem Obeys.interpret {D : Type*} {B : D → Type*} {protocol : Protocol D B φ}
    {answered : (request : C) → Program D B (A request)} {invariant : φ → Prop}
    (hkeeps : ∀ request phase, invariant phase →
      (answered request).Obeys protocol (fun phase _ => invariant phase) phase)
    (program : Program C A α) {phase : φ} (hphase : invariant phase) :
    (program.interpret answered).Obeys protocol (fun phase _ => invariant phase) phase := by
  induction program generalizing phase with
  | done value => exact hphase
  | call request next ih =>
      exact (hkeeps request phase hphase).bind fun phase answer h => ih answer h

end Program
