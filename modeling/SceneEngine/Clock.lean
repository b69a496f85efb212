/-
Cutting time into steps of one length.

Time that comes in is added to what is left over from before, and whole steps are
taken from it. One tick takes at most `Clock.maxSteps`; what is left beyond that is
cut down to less than one step and lost.
-/
import SceneEngine.Scalar

namespace SceneEngine.Clock

variable {α : Type} [Scalar α]

/-- The most steps of one tick. -/
def maxSteps : Nat := 8

/-- How many steps of length `step` are taken from `time`, at most `budget`. -/
def dueSteps (step : α) : (budget : Nat) → (time : α) → Nat
  | 0, _ => 0
  | budget + 1, time => if step ≤ time then dueSteps step budget (time - step) + 1 else 0

/-- What remains of `time` after `n` steps. -/
def spend (step : α) : (n : Nat) → (time : α) → α
  | 0, time => time
  | n + 1, time => spend step n (time - step)

/-- Cuts a remainder of one step or more down to less than one. -/
def trim (step time : α) : α := if step ≤ time then Scalar.rem time step else time

/-- One tick: from the time left over before and the time that came in, the steps taken
and the time left over after. -/
def advance (step leftover dt : α) : Nat × α :=
  let time := leftover + dt
  let n := dueSteps step maxSteps time
  (n, trim step (spend step n time))

end SceneEngine.Clock
