import Stepwise.Linear.Equations

/-!
# Residuals

How far the two sides of each equation are apart when values are put in for the unknowns.
-/

namespace Stepwise.Linear

variable {α : Type} [Arithmetic α]

/-- The left side of an equation: the products of coefficients and values, each added to the sum of
those before it. -/
def leftSide (coefficients values : List α) : α :=
  match coefficients.zip values with
  | [] => 0.0
  | (a, x) :: rest => rest.foldl (fun sum (a, x) => a * x + sum) (a * x)

/-- The distance between the two sides of an equation. -/
def rowResidual {n : Nat} (row : Vector α (n + 1)) (solution : Vector α n) : α :=
  Arithmetic.magnitude (leftSide row.toList solution.toList - row.get (Fin.last n))

/-- The distances between the two sides of all equations. -/
def residuals {n : Nat} (system : Equations α n) (solution : Vector α n) : Vector α n :=
  system.map fun row => rowResidual row solution

/-- The residuals of a system given by its rows, with the values of the unknowns in a list. -/
def residualsOf (rows : List (List α)) (solution : List α) : Except SystemError (List α) := do
  let system ← Equations.ofRows rows
  if h : solution.length = rows.length then
    return (residuals system ⟨solution.toArray, h⟩).toList
  else throw (.dimensionMismatch rows.length solution.length)

end Stepwise.Linear
