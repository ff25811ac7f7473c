import Stepwise.Decimal.Layout
import Stepwise.Linear.Elimination
import Stepwise.Log

/-!
# Messages of elimination

An elimination leaves a message at its start, one for every step that is worth a snapshot, when it is
taken, and one at its end.
-/

namespace Stepwise.Linear

open Decimal (text)

/-- A small number in a message. -/
def smallLayout : Decimal.Layout :=
  .scientific 3

/-- A tolerance in a message. -/
def toleranceLayout : Decimal.Layout :=
  .scientific 1

/-- A truth value in a message. -/
def flagText (flag : Bool) : String :=
  if flag then "true" else "false"

/-- The message at the start of an elimination of `n` equations. -/
def startMessage (n : Nat) (pivoting : Bool) : Log.Message where
  level := .info
  text :=
    "Gaussian elimination of a " ++ toString n ++ "x" ++ toString n
      ++ " system, partial pivoting: " ++ flagText pivoting

/-- The message of a step. -/
def Change.message : Change Float → Log.Message
  | .swapped row other =>
    { level := .debug, text := "swapped rows " ++ toString row ++ " and " ++ toString other }
  | .eliminated column row factor =>
    { level := .debug
      text := "eliminated column " ++ toString column ++ " from row " ++ toString row
        ++ " with factor " ++ text factor }

/-- The message of a singularity, given the tolerance for diagonal entries. -/
def Singularity.message (tolerance : Float) : Singularity Float → Log.Message
  | .overflow row =>
    { level := .warn
      text := "elimination overflowed in row " ++ toString row
        ++ ": no reliable solution, reported as singular" }
  | .smallPivot row pivot =>
    { level := .warn
      text := "pivot " ++ smallLayout.write pivot ++ " in row " ++ toString row ++ " is below "
        ++ toleranceLayout.write tolerance ++ ": system is singular" }

/-- The largest of some residuals. A residual that is not a number does not count. -/
def largest (residuals : List Float) : Float :=
  residuals.foldl (fun most value => if most < value then value else most) 0.0

/-- The message of a solution, given the number of snapshots and the residuals. -/
def solvedMessage (snapshots : Nat) (residuals : List Float) : Log.Message where
  level := .info
  text :=
    "system solved, " ++ toString snapshots ++ " snapshots, max residual "
      ++ smallLayout.write (largest residuals)

/-- What there is to say about a step: something if it is worth a snapshot. -/
def RowStep.messages {n : Nat} (step : RowStep Float n) : List Log.Message :=
  if step.recorded then [step.change.message] else []

/-- The message at the end of an elimination that started from a system. -/
def Run.endMessage {n : Nat} (run : Run Float n) (solver : Solver Float) (start : Equations Float n) :
    Log.Message :=
  match run.ending with
  | .ok solution =>
    solvedMessage (run.trace start).length (residuals start solution).toList
  | .error defect => defect.message solver.pivotTolerance

/-- Solves a system. -/
def Solver.solve {n : Nat} (solver : Solver Float) (system : Equations Float n) :
    Logged (SolveResult Float n) := do
  Logged.leave [startMessage n solver.pivoting]
  let run ← solver.runM (fun step => Logged.leave step.messages) system
  Logged.leave [run.endMessage solver system]
  return run.result system

/-- Solves a system given by its rows. -/
def Solver.solveRows (solver : Solver Float) (rows : List (List Float)) :
    ExceptT SystemError Logged (SolveResult Float rows.length) := do
  let system ← Equations.ofRows rows
  solver.solve system

end Stepwise.Linear
