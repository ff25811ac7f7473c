import Stepwise.Root.Input
import Stepwise.Root.Result

/-!
# Bisection

An interval at whose ends a function has opposite signs is halved, and the half that keeps opposite signs
goes on, until the value at the midpoint or half the width of the interval is small enough.

A value counts as negative or not, and signs are compared instead of multiplying values, so that values
too small to be multiplied keep their signs.

A bisection can be watched: it shows each step when it is taken. The functions for that work in any monad,
and without anyone watching they are those that only compute.
-/

namespace Stepwise.Root.Bisection

variable {ε α : Type}

/-- How a bisection ends. -/
inductive Ending (ε α : Type) where
  /-- An end of the interval is a root. -/
  | endpoint (root : α)
  /-- The values at the two ends do not have opposite signs. -/
  | sameSign (atA atB : α)
  /-- The last midpoint is close enough to a root. -/
  | found (root : α)
  /-- No iteration is left. -/
  | exhausted (midpoint : α)
  /-- The function has no value at a point. -/
  | failed (error : ε)
  deriving DecidableEq

/-- A bisection from its first step to its ending. -/
structure Run (ε α : Type) where
  steps : List (Halving α)
  ending : Ending ε α
  deriving DecidableEq

/-- A run that ends without a step. -/
def Run.stop (ending : Ending ε α) : Run ε α where
  steps := []
  ending := ending

/-- A run with one more step in front. -/
def Run.after (step : Halving α) (run : Run ε α) : Run ε α :=
  { run with steps := step :: run.steps }

/-- An interval and the values of the function at its ends. -/
structure Bracket (α : Type) where
  a : α
  b : α
  atA : α
  atB : α
  deriving DecidableEq

variable [Arithmetic α]

/-- Is a value negative? Both zeros count as not negative. -/
def negative (value : α) : Bool :=
  value < 0.0

/-- The midpoint of an interval. -/
def Bracket.midpoint (bracket : Bracket α) : α :=
  (bracket.a + bracket.b) / 2.0

/-- The step at a midpoint with a given value. -/
def Bracket.step (bracket : Bracket α) (iteration : Nat) (value : α) : Halving α where
  iteration := iteration
  a := bracket.a
  b := bracket.b
  midpoint := bracket.midpoint
  atA := bracket.atA
  atB := bracket.atB
  atMidpoint := value

/-- The half of an interval that keeps opposite signs, given the value at the midpoint. -/
def Bracket.half (bracket : Bracket α) (value : α) : Bracket α :=
  if negative bracket.atA ≠ negative value then
    { bracket with b := bracket.midpoint, atB := value }
  else
    { bracket with a := bracket.midpoint, atA := value }

/-- Is the midpoint of a step close enough to a root? -/
def closeEnough (tol : α) (step : Halving α) : Bool :=
  step.atMidpoint == 0.0 || decide (Arithmetic.magnitude step.atMidpoint < tol)
    || decide ((step.b - step.a) / 2.0 < tol)

section Watched

variable {m : Type → Type} [Monad m]

/-- Halves an interval at most `budget` times, the first time as step number `iteration`, and shows every
step to `watch` as soon as there is a value at its midpoint. -/
def halveM (watch : Halving α → m Unit) (f : α → Except ε α) (tol : α) (iteration : Nat) :
    Nat → Bracket α → m (Run ε α)
  | 0, bracket => return .stop (.exhausted bracket.midpoint)
  | budget + 1, bracket =>
    match f bracket.midpoint with
    | .error error => return .stop (.failed error)
    | .ok value => do
      let step := bracket.step iteration value
      watch step
      if closeEnough tol step then return (Run.stop (.found bracket.midpoint)).after step
      else
        let later ← halveM watch f tol (iteration + 1) budget (bracket.half value)
        return later.after step

/-- Bisects an interval that has been checked, and shows every step to `watch`. -/
def runM (watch : Halving α → m Unit) (f : α → Except ε α) (a b tol : α) (budget : Nat) :
    m (Run ε α) :=
  match f a with
  | .error error => return .stop (.failed error)
  | .ok atA =>
    match f b with
    | .error error => return .stop (.failed error)
    | .ok atB =>
      if atA == 0.0 then return .stop (.endpoint a)
      else if atB == 0.0 then return .stop (.endpoint b)
      else if negative atA = negative atB then return .stop (.sameSign atA atB)
      else halveM watch f tol 1 budget { a, b, atA, atB }

end Watched

/-- Halves an interval at most `budget` times, the first time as step number `iteration`. -/
def halve (f : α → Except ε α) (tol : α) (iteration budget : Nat) (bracket : Bracket α) : Run ε α :=
  Id.run (halveM (fun _ => pure ()) f tol iteration budget bracket)

/-- Bisects an interval that has been checked. -/
def run (f : α → Except ε α) (a b tol : α) (budget : Nat) : Run ε α :=
  Id.run (runM (fun _ => pure ()) f a b tol budget)

/-- The result of a run, or the error at which it stopped. -/
def Run.result (run : Run ε α) : Except ε (Result α) :=
  let make (root : Option α) (diagnostic : Option Diagnostic) : Result α :=
    { method := .bisection
      root
      iterations := run.steps.length
      converged := diagnostic.isNone
      trace := run.steps.map .halving
      history := []
      diagnostic }
  match run.ending with
  | .endpoint root => .ok (make (some root) none)
  | .sameSign _ _ => .ok (make none (some .noSignChange))
  | .found root => .ok (make (some root) none)
  | .exhausted midpoint => .ok (make (some midpoint) (some .maxIterationsReached))
  | .failed error => .error error

/-- Checks the input of a bisection. -/
def checkInput (a b tol : α) : Except (InputError α) Unit := do
  checkInterval a b
  checkTolerance tol

/-- Checks the input of a bisection and runs it. -/
def start (f : α → Except ε α) (a b tol : α) (budget : Nat) : Except (InputError α) (Run ε α) := do
  checkInput a b tol
  return run f a b tol budget

variable {f : α → Except ε α} {tol : α}

/-- Without an iteration left, the midpoint is as far as halving gets. -/
theorem halve_zero (iteration : Nat) (bracket : Bracket α) :
    halve f tol iteration 0 bracket = .stop (.exhausted bracket.midpoint) :=
  rfl

/-- With an iteration left, halving takes one step and goes on from the half that it keeps. -/
theorem halve_succ (iteration budget : Nat) (bracket : Bracket α) :
    halve f tol iteration (budget + 1) bracket =
      match f bracket.midpoint with
      | .error error => .stop (.failed error)
      | .ok value =>
        let step := bracket.step iteration value
        if closeEnough tol step then (Run.stop (.found bracket.midpoint)).after step
        else (halve f tol (iteration + 1) budget (bracket.half value)).after step := by
  rw [halve, halveM]
  cases f bracket.midpoint with
  | error error => rfl
  | ok value =>
    dsimp only
    split <;> rfl

/-- A run finds a root at an end of the interval, or no change of sign, or it halves the interval. -/
theorem run_eq (a b : α) (budget : Nat) :
    run f a b tol budget =
      match f a with
      | .error error => .stop (.failed error)
      | .ok atA =>
        match f b with
        | .error error => .stop (.failed error)
        | .ok atB =>
          if atA == 0.0 then .stop (.endpoint a)
          else if atB == 0.0 then .stop (.endpoint b)
          else if negative atA = negative atB then .stop (.sameSign atA atB)
          else halve f tol 1 budget { a, b, atA, atB } := by
  rw [run, runM]
  cases f a with
  | error error => rfl
  | ok atA =>
    cases f b with
    | error error => rfl
    | ok atB =>
      dsimp only
      split
      case isTrue => rfl
      case isFalse =>
        split
        case isTrue => rfl
        case isFalse => split <;> rfl

end Stepwise.Root.Bisection
