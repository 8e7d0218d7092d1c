/-!
# Clockworks

A world whose clock stands still while anything can go on, and then jumps to the
next time for which something is set. What goes on is given by single steps.
-/

namespace VmNode

/-- How worlds of type `σ` go on. -/
structure Clockwork (σ : Type) where
  /-- The time. -/
  now : σ → Nat
  /-- Sets the clock. -/
  setNow : Nat → σ → σ
  /-- The next step at this time, if anything can go on. -/
  step : σ → Option σ
  /-- The next time, after now, for which something is set. -/
  timer? : σ → Option Nat
  /-- A bound on the steps at one time. -/
  bound : σ → Nat

namespace Clockwork

variable {σ : Type} (c : Clockwork σ)

/-- Makes at most so many steps. -/
def steps : Nat → σ → σ
  | 0, w => w
  | n + 1, w =>
    match c.step w with
    | some w => steps n w
    | none => w

/-- Goes on until nothing can at this time. -/
def settle (w : σ) : σ := c.steps (c.bound w) w

/-- Goes on from the time `now` until `isOver` or until the time `limit`. -/
def runFrom (isOver : σ → Bool) (limit now : Nat) (w : σ) : σ :=
  let w := c.settle w
  if isOver w then w
  else
    match c.timer? w with
    | none => c.setNow (max now limit) w
    | some time =>
      if _h : now < time ∧ time ≤ limit then runFrom isOver limit time (c.setNow time w)
      else c.setNow (max now limit) w
termination_by limit - now
decreasing_by omega

/-- Goes on until `isOver`, for at most so long. -/
def run (isOver : σ → Bool) (ms : Nat) (w : σ) : σ := c.runFrom isOver (c.now w + ms) (c.now w) w

/-- Lets time pass. -/
def pass (ms : Nat) (w : σ) : σ := c.settle (c.run (fun _ => false) ms w)

end Clockwork

end VmNode
