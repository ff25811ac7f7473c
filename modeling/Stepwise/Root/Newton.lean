import Stepwise.Root.Derivative
import Stepwise.Root.Input
import Stepwise.Root.Result

/-!
# Newton's method

From a point the method goes to where the tangent of the function is zero, and stops when two points in
a row are close enough to each other. The slope of the tangent is a numerical derivative. Where it is
nearly zero, and where the next point would not be finite, no step is taken.

The steps can be watched: each of them is shown when it is taken. The function for that works in any
monad, and without anyone watching it is the one that only computes.
-/

namespace Stepwise.Root.Newton

variable {ε α : Type}

/-- How a run of Newton's method ends. -/
inductive Ending (ε α : Type) where
  /-- The last step was short enough. -/
  | found (root : α)
  /-- The tangent at the last point is nearly horizontal. -/
  | flat (x slope : α)
  /-- The step from the last point leads to no finite point. -/
  | diverged (x : α)
  /-- No iteration is left. -/
  | exhausted (x : α)
  /-- The function has no value at a point. -/
  | failed (error : ε)
  deriving DecidableEq

/-- A run of Newton's method from its first step to its ending. -/
structure Run (ε α : Type) where
  steps : List (Tangent α)
  ending : Ending ε α
  deriving DecidableEq

/-- A run that ends without a step. -/
def Run.stop (ending : Ending ε α) : Run ε α where
  steps := []
  ending := ending

/-- A run with one more step in front. -/
def Run.after (step : Tangent α) (run : Run ε α) : Run ε α :=
  { run with steps := step :: run.steps }

variable [Arithmetic α]

/-- A slope of smaller magnitude counts as zero. -/
def flatness : α :=
  1e-10

/-- Takes at most `budget` steps from a point, the first as step number `iteration`, and shows every step
to `watch` as soon as it leads to a finite point. -/
def iterateM {m : Type → Type} [Monad m] (watch : Tangent α → m Unit) (f : α → Except ε α) (tol : α)
    (iteration : Nat) : Nat → α → m (Run ε α)
  | 0, x => return .stop (.exhausted x)
  | budget + 1, x =>
    match f x with
    | .error error => return .stop (.failed error)
    | .ok value =>
      match derivative f x with
      | .error error => return .stop (.failed error)
      | .ok slope =>
        if Arithmetic.magnitude slope < flatness then return .stop (.flat x slope)
        else
          let next := x - value / slope
          if Arithmetic.isFinite next then do
            let step := { iteration, x, value, slope, next }
            watch step
            if Arithmetic.magnitude (next - x) < tol then return (Run.stop (.found next)).after step
            else
              let later ← iterateM watch f tol (iteration + 1) budget next
              return later.after step
          else return .stop (.diverged x)

/-- Takes at most `budget` steps from a point, the first as step number `iteration`. -/
def iterate (f : α → Except ε α) (tol : α) (iteration budget : Nat) (x : α) : Run ε α :=
  Id.run (iterateM (fun _ => pure ()) f tol iteration budget x)

/-- The result of a run that started at `x`, or the error at which it stopped. -/
def Run.result (run : Run ε α) (x : α) : Except ε (Result α) :=
  let make (root : α) (diagnostic : Option Diagnostic) : Result α :=
    { method := .newton
      root := some root
      iterations := run.steps.length
      converged := diagnostic.isNone
      trace := run.steps.map .tangent
      history := x :: run.steps.map Tangent.next
      diagnostic }
  match run.ending with
  | .found root => .ok (make root none)
  | .flat x _ => .ok (make x (some .derivativeNearZero))
  | .diverged x => .ok (make x (some .diverged))
  | .exhausted x => .ok (make x (some .maxIterationsReached))
  | .failed error => .error error

/-- Checks the input of Newton's method. -/
def checkInput (x tol : α) : Except (InputError α) Unit := do
  checkGuess x
  checkTolerance tol

/-- Checks the input of Newton's method and runs it. -/
def start (f : α → Except ε α) (x tol : α) (budget : Nat) : Except (InputError α) (Run ε α) := do
  checkInput x tol
  return iterate f tol 1 budget x

variable {f : α → Except ε α} {tol : α}

/-- With an iteration left, the method takes one step along the tangent, if there is one, and goes on from
where that leads. -/
theorem iterate_succ (iteration budget : Nat) (x : α) :
    iterate f tol iteration (budget + 1) x =
      match f x with
      | .error error => .stop (.failed error)
      | .ok value =>
        match derivative f x with
        | .error error => .stop (.failed error)
        | .ok slope =>
          if Arithmetic.magnitude slope < flatness then .stop (.flat x slope)
          else
            let next := x - value / slope
            if Arithmetic.isFinite next then
              let step := { iteration, x, value, slope, next }
              if Arithmetic.magnitude (next - x) < tol then (Run.stop (.found next)).after step
              else (iterate f tol (iteration + 1) budget next).after step
            else .stop (.diverged x) := by
  rw [iterate, iterateM]
  cases f x with
  | error error => rfl
  | ok value =>
    cases derivative f x with
    | error error => rfl
    | ok slope =>
      dsimp only
      split
      case isTrue => rfl
      case isFalse =>
        split
        case isTrue => split <;> rfl
        case isFalse => rfl

end Stepwise.Root.Newton
