import Stepwise.Root.Method

/-!
# Steps and results of root finding

Every step of a method is recorded. A result holds the steps in their order, the root that the last of
them leads to, and the reason for stopping if it is not convergence.
-/

namespace Stepwise.Root

/-- A step of bisection: the interval, its midpoint, and the values of the function at the three. -/
structure Halving (α : Type) where
  iteration : Nat
  a : α
  b : α
  midpoint : α
  atA : α
  atB : α
  atMidpoint : α
  deriving DecidableEq

/-- A step of Newton's method: a point, the value and the slope of the function there, and the point
where the tangent is zero. -/
structure Tangent (α : Type) where
  iteration : Nat
  x : α
  value : α
  slope : α
  next : α
  deriving DecidableEq

/-- A step of some method. -/
inductive Step (α : Type) where
  | halving (step : Halving α)
  | tangent (step : Tangent α)
  deriving DecidableEq

namespace Step

variable {α : Type}

/-- The number of a step. -/
def iteration : Step α → Nat
  | halving step => step.iteration
  | tangent step => step.iteration

/-- The numbers recorded in a step, in their order. -/
def numbers : Step α → List α
  | halving step =>
    [step.a, step.b, step.midpoint, step.atA, step.atB, step.atMidpoint]
  | tangent step => [step.x, step.value, step.slope, step.next]

/-- The method that takes steps of this kind. -/
def method : Step α → Method
  | halving _ => .bisection
  | tangent _ => .newton

end Step

/-- What a method found. -/
structure Result (α : Type) where
  method : Method
  /-- The best estimate. It is absent only if the method could not start. -/
  root : Option α
  iterations : Nat
  converged : Bool
  trace : List (Step α)
  /-- The points visited, from the initial guess on. Bisection visits none. -/
  history : List α
  diagnostic : Option Diagnostic
  deriving DecidableEq

end Stepwise.Root
