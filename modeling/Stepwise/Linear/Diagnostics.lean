import Stepwise.Linear.Messages
import Stepwise.Linear.SingularValues

/-!
# Diagnostics of linear systems

What can be said about a system before it is solved: whether pivoting is advisable, how much the solution
reacts to small changes of the system, and whether there is a solution at all.
-/

namespace Stepwise.Linear

/-- A computation about a system that can find the system malformed, with messages. -/
abbrev Diagnosis (α : Type) :=
  ExceptT SystemError Logged α

namespace Equations

variable {n : Nat}

/-- The coefficients of a system, row by row. -/
def coefficients (system : Equations Float n) : List (List Float) :=
  system.rows.map (·.take n)

/-- The magnitudes of the entries on the diagonal. -/
def diagonal (system : Equations Float n) : List Float :=
  (List.finRange n).map fun i => (system.coefficient i i).abs

/-- The smallest of some numbers, infinity if there is none. -/
def smallest (values : List Float) : Float :=
  values.foldl (fun least value => if value < least then value else least) (1.0 / 0.0)

/-- The quotient of the largest and the smallest singular value of the coefficients, by a function that
finds the singular values of matrices. -/
def conditionNumber (values : List (List Float) → List Float) (system : Equations Float n) : Float :=
  let found := values system.coefficients
  let least := smallest found
  if least == 0.0 then 1.0 / 0.0 else largest found / least

end Equations

/-- Singular values up to this bound count as zero. -/
def rankBound : Float :=
  1e-10

/-- The rank of a matrix, by a function that finds the singular values of matrices. -/
def rank (values : List (List Float) → List Float) (rows : List (List Float)) : Nat :=
  (values rows).countP fun value => rankBound < value

/-- Is partial pivoting advisable? It is if some entry on the diagonal is tiny, or less than a hundredth
of the largest coefficient. -/
def recommendPivoting (rows : List (List Float)) : Diagnosis Bool := do
  let system ← Equations.ofRows rows
  let most := largestEntry system.coefficients
  let least := Equations.smallest system.diagonal
  let recommended := decide (least < 1e-10) || decide (least < 0.01 * most)
  if recommended then
    Logged.note .info
      ("partial pivoting recommended: min |diagonal| = " ++ smallLayout.write least
        ++ ", max |element| = " ++ smallLayout.write most)
  return recommended

/-- The condition number of the coefficients of a system, by a function that finds singular values. -/
def conditionNumberBy (values : List (List Float) → List Float) (rows : List (List Float)) :
    Diagnosis Float := do
  let system ← Equations.ofRows rows
  return system.conditionNumber values

/-- The condition number of the coefficients of a system, by the singular values that rotations find. -/
def conditionNumber (rows : List (List Float)) : Diagnosis Float :=
  conditionNumberBy singularValues rows

/-- Is the condition number of a system above a threshold? It is the one by a function that finds
singular values. -/
def poorlyConditionedBy (values : List (List Float) → List Float) (rows : List (List Float))
    (threshold : Float) : Diagnosis Bool := do
  let condition ← conditionNumberBy values rows
  let poor := decide (threshold < condition)
  if poor then
    Logged.note .warn
      ("The system of linear equations is poorly conditioned. Condition number = "
        ++ (Decimal.Layout.places 2).write condition)
  return poor

/-- Is the condition number of a system above a threshold, by the singular values that rotations find? -/
def poorlyConditioned (rows : List (List Float)) (threshold : Float) : Diagnosis Bool :=
  poorlyConditionedBy singularValues rows threshold

/-- Has a system a solution? It has one if the right sides do not raise the rank of the coefficients. The
ranks are those by a function that finds singular values. -/
def hasSolutionBy (values : List (List Float) → List Float) (rows : List (List Float)) :
    Diagnosis Bool := do
  let system ← Equations.ofRows rows
  let ofCoefficients := rank values system.coefficients
  let ofAll := rank values system.rows
  let equal := ofCoefficients == ofAll
  unless equal do
    Logged.note .warn
      ("The system has no solution. rank(A) = " ++ toString ofCoefficients
        ++ " != rank([A b]) = " ++ toString ofAll)
  return equal

/-- Has a system a solution, by the singular values that rotations find? -/
def hasSolution (rows : List (List Float)) : Diagnosis Bool :=
  hasSolutionBy singularValues rows

end Stepwise.Linear
