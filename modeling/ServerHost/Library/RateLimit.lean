import Mathlib.Algebra.Order.Group.Int
import Mathlib.Algebra.Order.Ring.Int
import Mathlib.Data.List.Basic
import Mathlib.Tactic.Common

/-!
# Fixed windows

A counter that starts again once `period` has passed since the attempt that started
it, and that passes the first `limit` attempts it counts.  Within one window at most
`limit` attempts pass.  An interval of length `period` may meet two windows, but the
first attempt of a window and the next window are never both in it, so at most
`2 * limit - 1` attempts pass in any such interval.
-/

namespace RateLimit

/-- When the window began, and how many attempts it has counted. -/
structure Window where
  anchor : Option ℤ := none
  attempts : ℕ := 0

/-- One more attempt. -/
def Window.count (period now : ℤ) (window : Window) : Window :=
  match window.anchor with
  | none => ⟨some now, 1⟩
  | some anchor =>
      if anchor + period ≤ now then ⟨some now, 1⟩ else ⟨some anchor, window.attempts + 1⟩

/-- The number of times in the interval from `start` to `stop`. -/
def within (start stop : ℤ) (times : List ℤ) : ℕ :=
  times.countP fun time => start ≤ time ∧ time < stop

/-- The number of times from `start` on. -/
def since (start : ℤ) (times : List ℤ) : ℕ := times.countP fun time => start ≤ time

/-- The times of the attempts that passed, against the window. -/
structure Bounded (limit : ℕ) (period : ℤ) (window : Window) (times : List ℤ) : Prop where
  empty : window.anchor = none → times = []
  current : ∀ anchor, window.anchor = some anchor → since anchor times ≤ min window.attempts limit
  /-- The attempt that started the window was counted. -/
  later : ∀ anchor, window.anchor = some anchor →
    since (anchor + 1) times + 1 ≤ min window.attempts limit
  recent : ∀ anchor, window.anchor = some anchor → ∀ time ∈ times, time < anchor + period
  /-- An interval that meets this window misses the start of the one before. -/
  older : ∀ anchor, window.anchor = some anchor → ∀ start, anchor < start + period →
    within start anchor times + 1 ≤ limit
  total : ∀ start, within start (start + period) times + 1 ≤ 2 * limit

variable {limit : ℕ} {period now start stop time : ℤ} {window : Window} {times : List ℤ}

/-! ## Counting times -/

@[simp] theorem within_nil : within start stop [] = 0 := rfl

@[simp] theorem since_nil : since start [] = 0 := rfl

theorem within_cons : within start stop (time :: times) =
    within start stop times + if start ≤ time ∧ time < stop then 1 else 0 := by
  simp [within, List.countP_cons]

theorem since_cons : since start (time :: times) =
    since start times + if start ≤ time then 1 else 0 := by
  simp [since, List.countP_cons]

/-- Times before a moment are not after it. -/
theorem since_eq_zero (h : ∀ time ∈ times, time < start) : since start times = 0 := by
  rw [since, List.countP_eq_zero]
  intro time htime
  have := h time htime
  simp only [decide_eq_true_eq]
  omega

/-- An interval is cut at a moment in it. -/
theorem within_le (middle : ℤ) : within start stop times ≤
    within start middle times + since middle times := by
  induction times with
  | nil => simp
  | cons time rest ih =>
      rw [within_cons, within_cons, since_cons]
      split_ifs <;> omega

theorem since_le {first : ℤ} (h : first ≤ start) : since start times ≤ since first times := by
  refine List.countP_mono_left fun time _ htime => ?_
  simp only [decide_eq_true_eq] at htime ⊢
  exact h.trans htime

theorem within_le_since {first : ℤ} (h : first ≤ start) :
    within start stop times ≤ since first times := by
  refine List.countP_mono_left fun time _ htime => ?_
  simp only [decide_eq_true_eq] at htime ⊢
  omega

/-- A window begins now or has begun before. -/
theorem Window.anchor_count {anchor : ℤ} (window : Window)
    (h : (window.count period now).anchor = some anchor) :
    anchor = now ∨ window.anchor = some anchor := by
  unfold Window.count at h
  cases hanchor : window.anchor with
  | none =>
      simp only [hanchor, Option.some.injEq] at h
      exact .inl h.symm
  | some own =>
      simp only [hanchor] at h
      split at h
      · exact .inl (Option.some.inj h).symm
      · exact .inr h

section
variable (hlimit : 1 ≤ limit)
include hlimit

/-! ## The window bounds the count -/

/-- Nothing has passed yet. -/
theorem Bounded.init : Bounded limit period {} [] where
  empty _ := rfl
  current := by simp
  later := by simp
  recent := by simp
  older := by simp
  total start := by
    rw [within_nil]
    omega

/-- The window starts again: what passed before is in no interval with more than
`limit` attempts from now on. -/
theorem Bounded.restart (h : Bounded limit period window times) (hperiod : 0 < period)
    (hover : ∀ anchor, window.anchor = some anchor → anchor + period ≤ now) :
    Bounded limit period ⟨some now, 1⟩ times ∧ (∀ time ∈ times, time < now) ∧
      ∀ start, now < start + period → since start times + 1 ≤ limit := by
  -- all that the old window let through lies before the new one
  have hbefore : ∀ time ∈ times, time < now := by
    intro time htime
    cases hanchor : window.anchor with
    | none => simp [h.empty hanchor] at htime
    | some anchor =>
        have hrecent := h.recent anchor hanchor time htime
        have hstarted := hover anchor hanchor
        omega
  have hfew : ∀ start, now < start + period → since start times + 1 ≤ limit := by
    intro start hstart
    cases hanchor : window.anchor with
    | none =>
        rw [h.empty hanchor, since_nil]
        exact hlimit
    | some anchor =>
        have hstarted := hover anchor hanchor
        have hlater := h.later anchor hanchor
        have hsince : since start times ≤ since (anchor + 1) times :=
          since_le (by omega)
        omega
  refine ⟨⟨by simp, ?_, ?_, ?_, ?_, h.total⟩, hbefore, hfew⟩
  · rintro _ ⟨⟩
    rw [since_eq_zero hbefore]
    exact Nat.zero_le _
  · rintro _ ⟨⟩
    rw [since_eq_zero fun time htime => (hbefore time htime).trans (Int.lt_succ now)]
    exact le_min le_rfl hlimit
  · rintro _ ⟨⟩ time htime
    have := hbefore time htime
    omega
  · rintro _ ⟨⟩ start hstart
    have hsince : within start now times ≤ since start times := within_le_since le_rfl
    have := hfew start hstart
    omega

/-- An attempt that does not pass, or that nobody asks about. -/
theorem Bounded.skip (h : Bounded limit period window times) (hperiod : 0 < period) :
    Bounded limit period (window.count period now) times := by
  unfold Window.count
  cases hanchor : window.anchor with
  | none => exact (h.restart hlimit hperiod (by simp [hanchor])).1
  | some anchor =>
      dsimp only
      split
      · next hover =>
          refine (h.restart hlimit hperiod fun own hown => ?_).1
          rw [hanchor] at hown
          exact Option.some.inj hown ▸ hover
      · -- The window goes on, with one attempt more.
        have hcurrent := h.current anchor hanchor
        have hlater := h.later anchor hanchor
        refine ⟨by simp, ?_, ?_, ?_, ?_, h.total⟩
        · rintro _ ⟨⟩
          dsimp only
          omega
        · rintro _ ⟨⟩
          dsimp only
          omega
        · rintro _ ⟨⟩
          exact h.recent anchor hanchor
        · rintro _ ⟨⟩
          exact h.older anchor hanchor

/-- **An attempt that passes.** -/
theorem Bounded.pass (h : Bounded limit period window times) (hperiod : 0 < period)
    (hnow : ∀ anchor, window.anchor = some anchor → anchor ≤ now)
    (hpass : (window.count period now).attempts ≤ limit) :
    Bounded limit period (window.count period now) (now :: times) := by
  -- A window that starts with this attempt.
  have hfresh : (∀ anchor, window.anchor = some anchor → anchor + period ≤ now) →
      Bounded limit period ⟨some now, 1⟩ (now :: times) := by
    intro hover
    obtain ⟨hskip, hbefore, hfew⟩ := h.restart hlimit hperiod hover
    have hnone := since_eq_zero hbefore
    have hnone' : since (now + 1) times = 0 :=
      since_eq_zero fun time htime => (hbefore time htime).trans (Int.lt_succ now)
    refine ⟨by simp, ?_, ?_, ?_, ?_, ?_⟩
    · rintro _ ⟨⟩
      rw [since_cons, hnone, if_pos le_rfl]
      exact le_min le_rfl hlimit
    · rintro _ ⟨⟩
      rw [since_cons, hnone', if_neg (by omega)]
      exact le_min le_rfl hlimit
    · rintro _ ⟨⟩ time htime
      rcases List.mem_cons.1 htime with rfl | hold
      · omega
      · have := hbefore time hold
        omega
    · rintro _ ⟨⟩ start hstart
      have holder := hskip.older now rfl start hstart
      rw [within_cons, if_neg (by omega)]
      exact holder
    · intro start
      rw [within_cons]
      split
      · next hin =>
          have hsince : within start (start + period) times ≤ since start times :=
            within_le_since le_rfl
          have := hfew start hin.2
          omega
      · exact h.total start
  unfold Window.count at hpass ⊢
  cases hanchor : window.anchor with
  | none => exact hfresh (by simp [hanchor])
  | some anchor =>
      simp only [hanchor] at hpass ⊢
      split at hpass
      · next hover =>
          rw [if_pos hover]
          refine hfresh fun own hown => ?_
          rw [hanchor] at hown
          exact Option.some.inj hown ▸ hover
      · next hopen =>
          rw [if_neg hopen]
          dsimp only at hpass
          have hstarted := hnow anchor hanchor
          have hcurrent := h.current anchor hanchor
          have hlater := h.later anchor hanchor
          refine ⟨by simp, ?_, ?_, ?_, ?_, ?_⟩
          · rintro _ ⟨⟩
            rw [since_cons]
            dsimp only
            split <;> omega
          · rintro _ ⟨⟩
            rw [since_cons]
            dsimp only
            split_ifs <;> omega
          · rintro _ ⟨⟩ time htime
            rcases List.mem_cons.1 htime with rfl | hold
            · omega
            · exact h.recent anchor hanchor time hold
          · rintro _ ⟨⟩ start hstart
            rw [within_cons, if_neg (by omega)]
            exact h.older anchor hanchor start hstart
          · intro start
            rw [within_cons]
            split
            · next hin =>
                -- The interval meets this window, so it misses the start of the last one.
                have hcut : within start (start + period) times ≤ _ := within_le anchor
                have holder := h.older anchor hanchor start (by omega)
                omega
            · exact h.total start

end

end RateLimit
