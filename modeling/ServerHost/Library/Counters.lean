import ServerHost.Library.Machine

/-!
# Numbers that are drawn from a counter

A counter that never goes back numbers the visits that move it: two visits of a run that
draw the same number are one.
-/

namespace Machine

variable {σ ι : Type*} {machine : Machine σ ι} {ok : σ → ι → Prop} {count : σ → ℕ}
  {draws : σ → ι → Prop} {trace : List (σ × ι)} {state : σ}

/-- A number that was drawn is below the counter. -/
theorem Run.drawn_lt (run : machine.Run ok trace state)
    (hle : ∀ state input, ok state input → count state ≤ count (machine.next state input))
    (hlt : ∀ state input, draws state input → count state < count (machine.next state input)) :
    ∀ visit ∈ trace, draws visit.1 visit.2 → count visit.1 < count state := by
  induction run with
  | start => simp
  | @step trace state input run hok ih =>
      intro visit hvisit hdraws
      rcases List.mem_cons.1 hvisit with rfl | hold
      · exact hlt _ _ hdraws
      · exact Nat.lt_of_lt_of_le (ih visit hold hdraws) (hle state input hok)

/-- **A number is drawn once.** -/
theorem Run.drawn_unique (run : machine.Run ok trace state)
    (hle : ∀ state input, ok state input → count state ≤ count (machine.next state input))
    (hlt : ∀ state input, draws state input → count state < count (machine.next state input))
    {first second : σ × ι} (hfirst : first ∈ trace) (hsecond : second ∈ trace)
    (hdraws : draws first.1 first.2) (hdraws' : draws second.1 second.2)
    (hcount : count first.1 = count second.1) : first = second := by
  induction run with
  | start => cases hfirst
  | @step trace state input run hok ih =>
      -- What was drawn before is below the number of the last visit.
      have hbelow := run.drawn_lt hle hlt
      rcases List.mem_cons.1 hfirst with rfl | hfirst <;>
        rcases List.mem_cons.1 hsecond with rfl | hsecond
      · rfl
      · exact absurd hcount (Nat.ne_of_gt (hbelow second hsecond hdraws'))
      · exact absurd hcount (Nat.ne_of_lt (hbelow first hfirst hdraws))
      · exact ih hfirst hsecond

end Machine
