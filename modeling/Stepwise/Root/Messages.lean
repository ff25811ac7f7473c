import Stepwise.Decimal.Layout
import Stepwise.Log
import Stepwise.Root.Bisection
import Stepwise.Root.Newton

/-!
# Messages of root finding

A run leaves a message at its start, one for every step when it is taken, and one at its end. A run that
stops because the function has no value leaves none at its end.
-/

namespace Stepwise.Root

open Decimal (Layout text)

/-- A point in a message about a step. -/
def pointLayout : Layout :=
  .places 10

/-- A value of a function in a message about a step. -/
def valueLayout : Layout :=
  .scientific 2

/-- An end of an interval in a message about a step. -/
def endLayout : Layout :=
  .places 6

namespace Bisection

/-- The message at the start of a bisection. -/
def startMessage (name : String) (a b tol : Float) : Log.Message where
  level := .info
  text :=
    "Bisection method for function: " ++ name ++ ", interval [" ++ text a ++ ", " ++ text b
      ++ "], tolerance " ++ text tol

/-- The message of a step. -/
def stepMessage (step : Halving Float) : Log.Message where
  level := .debug
  text :=
    "Iteration " ++ toString step.iteration ++ ": x = " ++ pointLayout.write step.midpoint
      ++ ", f(x) = " ++ valueLayout.write step.atMidpoint
      ++ ", interval = [" ++ endLayout.write step.a ++ ", " ++ endLayout.write step.b ++ "]"

/-- The message at the end of a bisection of some number of steps. -/
def endMessage {ε : Type} (count : Nat) : Ending ε Float → Option Log.Message
  | .endpoint root => some
      { level := .info, text := "exact root at the interval endpoint x = " ++ text root }
  | .sameSign atA atB => some
      { level := .warn
        text := "f(a) = " ++ text atA ++ " and f(b) = " ++ text atB
          ++ " have the same sign, no root is bracketed" }
  | .found root => some
      { level := .info
        text := "bisection converged to " ++ text root ++ " in " ++ toString count
          ++ " iterations" }
  | .exhausted midpoint => some
      { level := .warn
        text := "bisection did not converge in " ++ toString count
          ++ " iterations, last midpoint " ++ text midpoint }
  | .failed _ => none

/-- Bisects an interval that has been checked, and leaves the messages. -/
def narrate {ε : Type} (name : String) (f : Float → Except ε Float) (a b tol : Float)
    (budget : Nat) : Logged (Run ε Float) := do
  Logged.leave [startMessage name a b tol]
  let run ← runM (fun step => Logged.leave [stepMessage step]) f a b tol budget
  Logged.leave (endMessage run.steps.length run.ending).toList
  return run

end Bisection

namespace Newton

/-- The message at the start of a run. -/
def startMessage (name : String) (x tol : Float) : Log.Message where
  level := .info
  text :=
    "Newton-Raphson method for function: " ++ name ++ ", initial guess x0 = " ++ text x
      ++ ", tolerance " ++ text tol

/-- The message of a step. -/
def stepMessage (step : Tangent Float) : Log.Message where
  level := .debug
  text :=
    "Iteration " ++ toString step.iteration ++ ": x = " ++ pointLayout.write step.x
      ++ ", f(x) = " ++ valueLayout.write step.value
      ++ ", f'(x) = " ++ valueLayout.write step.slope
      ++ ", x_new = " ++ pointLayout.write step.next

/-- The message at the end of a run of some number of steps. -/
def endMessage {ε : Type} (count : Nat) : Ending ε Float → Option Log.Message
  | .found root => some
      { level := .info
        text := "Newton-Raphson converged to " ++ text root ++ " in " ++ toString count
          ++ " iterations" }
  | .flat x slope => some
      { level := .warn
        text := "derivative f'(" ++ text x ++ ") = " ++ valueLayout.write slope
          ++ " is too small, iteration stopped" }
  | .diverged x => some
      { level := .warn, text := "iteration diverged at x = " ++ text x }
  | .exhausted x => some
      { level := .warn
        text := "Maximum number of iterations " ++ toString count
          ++ " reached, last approximation " ++ text x }
  | .failed _ => none

/-- Runs Newton's method from a point that has been checked, and leaves the messages. -/
def narrate {ε : Type} (name : String) (f : Float → Except ε Float) (x tol : Float)
    (budget : Nat) : Logged (Run ε Float) := do
  Logged.leave [startMessage name x tol]
  let run ← iterateM (fun step => Logged.leave [stepMessage step]) f tol 1 budget x
  Logged.leave (endMessage run.steps.length run.ending).toList
  return run

end Newton

end Stepwise.Root
