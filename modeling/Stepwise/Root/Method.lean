/-!
# Methods of root finding

The two methods of the library, the names by which users ask for them, and the reasons why a method can
stop without having found a root.
-/

namespace Stepwise.Root

/-- A method that finds a root of a function of one variable. -/
inductive Method where
  | bisection
  | newton
  deriving DecidableEq

namespace Method

/-- The name of a method. -/
def name : Method → String
  | bisection => "bisection"
  | newton => "newton_raphson"

/-- All methods. -/
def all : List Method :=
  [bisection, newton]

/-- The method of a name, whatever the case of its letters. Newton's method also answers to its short
name. -/
def ofName? (text : String) : Option Method :=
  let lower := text.map Char.toLower
  if lower = "bisection" then some bisection
  else if lower = "newton_raphson" ∨ lower = "newton" then some newton
  else none

end Method

/-- Why a method stopped without convergence. -/
inductive Diagnostic where
  | noSignChange
  | maxIterationsReached
  | derivativeNearZero
  | diverged
  deriving DecidableEq

namespace Diagnostic

/-- The text of a diagnostic. -/
def text : Diagnostic → String
  | noSignChange => "no sign change in interval"
  | maxIterationsReached => "maximum iterations reached"
  | derivativeNearZero => "derivative near zero"
  | diverged => "iteration diverged"

/-- The one-word name of a diagnostic. -/
def tag : Diagnostic → String
  | noSignChange => "NoSignChange"
  | maxIterationsReached => "MaxIterationsReached"
  | derivativeNearZero => "DerivativeNearZero"
  | diverged => "Diverged"

/-- All diagnostics. -/
def all : List Diagnostic :=
  [noSignChange, maxIterationsReached, derivativeNearZero, diverged]

end Diagnostic

end Stepwise.Root
