import Mathlib.Data.List.Basic
import Mathlib.Data.Nat.Notation
import ServerHost.Library.Program

/-!
# Routes and middleware

`HttpServer.cpp`: a chain of middleware in front of a router.  A middleware is a
program of its own: it may do anything to the world around it, and may call `next`
with any request, any number of times or not at all.  What it cannot do is to call
another middleware or the router, which only `dispatch` holds.

Every function of the source may throw, so that a call has an outcome, a response or
an exception, and what a middleware does with the exception of a `next` is up to it.

* `dispatch_eq`: `dispatch` is the router wrapped in the middleware from the last to
  the first.
* `dispatch_obeys`: whatever happens, the calls are nested in the order of
  registration, and the router runs inside all of them.
* `use_spec`: what is refused leaves the chain as it was.
-/

namespace ServerHost

/-- `HttpResponse`. -/
structure HttpResponse where
  status : ℕ
  headers : List (String × String) := []
  body : String := ""

/-- `ErrorCode`, as far as the sources name it. -/
inductive ErrorCode where
  | invalidState
  | invalidArgument
  | tooLarge
  deriving DecidableEq

/-- `ii::network::Error` of the application layer. -/
structure HttpError where
  code : ErrorCode
  message : String
  deriving DecidableEq

/-- The type of requests, of exceptions, and of what a middleware does besides, with its
answers. -/
structure HttpWorld where
  Request : Type
  Exception : Type
  Effect : Type
  Answer : Effect → Type

namespace HttpServer

variable {W : HttpWorld}

/-- How a call ends. -/
abbrev Outcome (W : HttpWorld) := Except W.Exception HttpResponse

/-- What a middleware may call. -/
inductive Act (W : HttpWorld) where
  | next (forwarded : W.Request)
  | perform (effect : W.Effect)

abbrev Act.Answer : Act W → Type
  | .next _ => Outcome W
  | .perform effect => W.Answer effect

/-- `Middleware`, when it is not empty. -/
abbrev Middleware (W : HttpWorld) := W.Request → Program (Act W) Act.Answer (Outcome W)

/-- What the server calls: the router, and the world on behalf of a middleware.  The
calls of a middleware by its index and their ends are recorded among them. -/
inductive Event (W : HttpWorld) where
  | enter (index : ℕ) (request : W.Request)
  | leave (index : ℕ) (outcome : Outcome W)
  | route (request : W.Request)
  | perform (effect : W.Effect)

abbrev Event.Answer : Event W → Type
  | .enter .. => Unit
  | .leave .. => Unit
  | .route _ => Outcome W
  | .perform effect => W.Answer effect

abbrev Prog (W : HttpWorld) := Program (Event W) Event.Answer (Outcome W)

/-- A call of the middleware with this index and this `next`. -/
def invoke (index : ℕ) (middleware : Middleware W) (next : W.Request → Prog W)
    (request : W.Request) : Prog W :=
  .call (.enter index request) fun _ =>
    ((middleware request).interpret fun
      | .next forwarded => next forwarded
      | .perform effect => .call (.perform effect) .done).bind fun outcome =>
    .call (.leave index outcome) fun _ => .done outcome

/-- `dispatch`. -/
def dispatch (middleware : List (Middleware W)) (index : ℕ) (request : W.Request) : Prog W :=
  if h : index < middleware.length then
    invoke index middleware[index]
      (fun forwarded => dispatch middleware (index + 1) forwarded) request
  else .call (.route request) .done
termination_by middleware.length - index

/-- What the server keeps: whether the network layer is in use, and the chain. -/
structure Impl (W : HttpWorld) where
  listening : Bool := false
  draining : Bool := false
  activeConnections : ℕ := 0
  middleware : List (Middleware W) := []
  bounded : middleware.length ≤ 64 := by decide

namespace Impl

/-- `active`. -/
def active (impl : Impl W) : Bool :=
  impl.listening || impl.draining || impl.activeConnections ≠ 0

/-- `handler`, on an `Impl` that may be gone. -/
def handler (impl : Option (Impl W)) (request : W.Request) : Prog W :=
  match impl with
  | none => .done (.ok { status := 503, body := "Application is unavailable" })
  | some impl => dispatch impl.middleware 0 request

/-- `route`, with what `HttpRouter::add` returns. -/
def route (impl : Impl W) (added : Except HttpError Unit) : Except HttpError Unit :=
  if impl.active then .error ⟨.invalidState, "Configure routes before listening"⟩ else added

/-- `use`; an empty function is `none`. -/
def use (impl : Impl W) (middleware : Option (Middleware W)) : Impl W × Except HttpError Unit :=
  if impl.active then
    (impl, .error ⟨.invalidState, "Configure middleware before listening"⟩)
  else match middleware with
    | none => (impl, .error ⟨.invalidArgument, "Middleware is empty"⟩)
    | some middleware =>
        if h : impl.middleware.length = 64 then
          (impl, .error ⟨.tooLarge, "Middleware chain exceeds 64 entries"⟩)
        else
          ({ impl with
              middleware := impl.middleware ++ [middleware]
              bounded := by
                have hbounded := impl.bounded
                rw [List.length_append, List.length_singleton]
                omega }, .ok ())

end Impl

/-! ## The right fold -/

/-- The router, as the innermost `next`. -/
def router (request : W.Request) : Prog W := .call (.route request) .done

/-- The router wrapped in the middleware, from the last to the first. -/
def composed (middleware : List (Middleware W)) : W.Request → Prog W :=
  middleware.zipIdx.foldr (fun entry next => invoke entry.2 entry.1 next) router

variable {middleware : List (Middleware W)}

theorem dispatch_of_lt {index : ℕ} (h : index < middleware.length) (request : W.Request) :
    dispatch middleware index request =
      invoke index middleware[index] (dispatch middleware (index + 1)) request := by
  rw [dispatch, dif_pos h]

theorem dispatch_of_le {index : ℕ} (h : middleware.length ≤ index) (request : W.Request) :
    dispatch middleware index request = router request := by
  rw [dispatch, dif_neg (Nat.not_lt.2 h)]
  rfl

/-- From any index on, `dispatch` is the fold of what is left. -/
theorem dispatch_eq_foldr (index : ℕ) : dispatch middleware index =
    ((middleware.drop index).zipIdx index).foldr (fun entry next => invoke entry.2 entry.1 next)
      router := by
  induction hleft : middleware.length - index generalizing index with
  | zero =>
      have hend : middleware.length ≤ index := by omega
      rw [List.drop_eq_nil_of_le hend]
      exact funext (dispatch_of_le hend)
  | succ left ih =>
      have hlt : index < middleware.length := by omega
      rw [List.drop_eq_getElem_cons hlt, List.zipIdx_cons, List.foldr_cons,
        ← ih (index + 1) (by omega)]
      exact funext (dispatch_of_lt hlt)

/-- **Dispatch is the right fold**, for every chain and every request. -/
theorem dispatch_eq (middleware : List (Middleware W)) :
    dispatch middleware 0 = composed middleware := dispatch_eq_foldr 0

/-! ## The order of calls -/

/-- The middleware that have been entered and not left, the last one first, and which call
may come next: middleware are entered in the order of registration, the last one entered
is left first, and the router runs inside all of them. -/
def nesting (W : HttpWorld) (count : ℕ) : Protocol (Event W) Event.Answer (List ℕ) where
  allows
    | inside, .enter index _ => index < count ∧ inside = (List.range index).reverse
    | inside, .leave index _ => inside.head? = some index
    | inside, .route _ => inside = (List.range count).reverse
    | _, .perform _ => True
  possible _ _ := True
  next
    | inside, .enter index _, _ => index :: inside
    | inside, .leave .., _ => inside.tail
    | inside, .route _, _ => inside
    | inside, .perform _, _ => inside

/-- Inside the middleware before the index. -/
def Inside (index : ℕ) (inside : List ℕ) : Prop := inside = (List.range index).reverse

theorem Inside.enter {index : ℕ} {inside : List ℕ} (h : Inside index inside) :
    Inside (index + 1) (index :: inside) := by
  rw [Inside, List.range_succ, List.reverse_append, List.reverse_singleton, ← h]
  rfl

theorem Inside.tail {index : ℕ} {inside : List ℕ} (h : Inside (index + 1) inside) :
    inside.head? = some index ∧ Inside index inside.tail := by
  rw [Inside, List.range_succ, List.reverse_append, List.reverse_singleton] at h
  subst h
  exact ⟨rfl, rfl⟩

/-- A middleware whose `next` returns to where it was called returns to where it was
called itself. -/
theorem invoke_obeys {count index : ℕ} (hlt : index < count) (middleware : Middleware W)
    {next : W.Request → Prog W}
    (hnext : ∀ request inside, Inside (index + 1) inside →
      (next request).Obeys (nesting W count) (fun inside _ => Inside (index + 1) inside) inside)
    (request : W.Request) {inside : List ℕ} (hinside : Inside index inside) :
    (invoke index middleware next request).Obeys (nesting W count)
      (fun inside _ => Inside index inside) inside := by
  refine ⟨⟨hlt, hinside⟩, fun _ _ => ?_⟩
  refine Program.Obeys.bind (Program.Obeys.interpret (fun act inside h => ?_) (middleware request)
    hinside.enter) fun inside outcome h => ?_
  · cases act with
    | next forwarded => exact hnext forwarded inside h
    | perform effect => exact ⟨trivial, fun _ _ => h⟩
  · exact ⟨h.tail.1, fun _ _ => h.tail.2⟩

/-- From any index on, the calls are nested below the middleware that were entered. -/
theorem dispatch_obeys {index : ℕ} (hle : index ≤ middleware.length) (request : W.Request)
    {inside : List ℕ} (hinside : Inside index inside) :
    (dispatch middleware index request).Obeys (nesting W middleware.length)
      (fun inside _ => Inside index inside) inside := by
  induction hleft : middleware.length - index generalizing index request inside with
  | zero =>
      obtain rfl : index = middleware.length := by omega
      rw [dispatch_of_le (Nat.le_refl _)]
      exact ⟨hinside, fun _ _ => hinside⟩
  | succ left ih =>
      have hlt : index < middleware.length := by omega
      rw [dispatch_of_lt hlt]
      exact invoke_obeys hlt _ (fun forwarded inside h => ih hlt forwarded h (by omega)) request
        hinside

/-! ## Registration -/

theorem use_refused {impl : Impl W} {middleware : Option (Middleware W)} :
    (impl.use middleware).2 ≠ .ok () ↔
      impl.active = true ∨ middleware = none ∨ impl.middleware.length = 64 := by
  unfold Impl.use
  split
  · next hactive => simp [hactive]
  next hactive =>
  cases middleware with
  | none => simp
  | some middleware =>
      dsimp only
      split
      · next hfull => simp [hfull]
      · next hroom => simp [hactive, hroom]

/-- **What is refused leaves everything as it was**, and what is not refused comes last. -/
theorem use_spec (impl : Impl W) (middleware : Option (Middleware W)) :
    ((impl.use middleware).2 ≠ .ok () → (impl.use middleware).1 = impl) ∧
      ∀ added, middleware = some added → (impl.use middleware).2 = .ok () →
        (impl.use middleware).1.middleware = impl.middleware ++ [added] := by
  unfold Impl.use
  split
  · next hactive => simp
  next hactive =>
  cases middleware with
  | none => simp
  | some middleware =>
      dsimp only
      split
      · next hfull => simp
      · next hroom => simp

/-- **Middleware is nested composition.**  Whatever the middleware are, what they do, and
how the router answers, `dispatch` responds and calls as the right fold does; its calls
are nested in the order of registration, with the router inside all of them; and a `use`
that is refused, which it is on an active server, without a function and at 64 entries,
leaves the chain as it was. -/
theorem dispatch_nested (impl : Impl W) :
    (∀ request, dispatch impl.middleware 0 request = composed impl.middleware request) ∧
    (∀ request, (dispatch impl.middleware 0 request).Obeys (nesting W impl.middleware.length)
      (fun inside _ => inside = []) []) ∧
    ∀ middleware, ((impl.use middleware).2 ≠ .ok () ↔
        impl.active = true ∨ middleware = none ∨ impl.middleware.length = 64) ∧
      ((impl.use middleware).2 ≠ .ok () →
        (impl.use middleware).1.middleware = impl.middleware) := by
  refine ⟨fun request => congrFun (dispatch_eq impl.middleware) request, fun request => ?_,
    fun middleware => ⟨use_refused, fun hrefused => ?_⟩⟩
  · exact dispatch_obeys (Nat.zero_le _) request rfl
  · rw [(use_spec impl middleware).1 hrefused]

end HttpServer

end ServerHost
