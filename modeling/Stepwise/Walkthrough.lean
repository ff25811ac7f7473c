import Stepwise.Folder.Save
import Stepwise.Linear.Diagnostics
import Stepwise.Linear.Report
import Stepwise.Root.Finder
import Stepwise.Root.Report
import Stepwise.Walkthrough.Shown

/-!
# A walkthrough of the library

Six numbered examples show what the library can do: both methods of root finding, formulas that are
accepted and refused, elimination with and without pivoting, singular systems, and saved traces.
-/

namespace Stepwise.Walkthrough

open Formula (Elementary)
open Root (ScalarFunction)

/-- What an example shows: the lines it prints, and the working folder after it. -/
structure Shown where
  lines : List String
  folder : Folder := Folder.empty

/-- The text of the printed lines. -/
def Shown.output (shown : Shown) : String :=
  String.join (shown.lines.map (· ++ "\n"))

/-- The line of a solved bisection, and its table. -/
def bisectionLines (typed : String) (result : Root.Result Float) : List String :=
  [typed ++ ": root = " ++ shownOption (result.root.map shown) ++ ", iterations = "
      ++ toString result.iterations ++ ", converged = " ++ Linear.flagText result.converged,
    Root.traceTable result.method result.trace]

/-- Bisection, with a root in the interval and without a change of sign. -/
def bisectionExample (lib : Elementary) : Logged Shown := do
  let typed := "x^3 - x - 1"
  let first ← (Root.bisectFormula lib typed 1.0 2.0 1e-6 100).run
  let second ← (Root.bisectFormula lib "x^2 + 1" (-1.0) 1.0 1e-6 100).run
  let found := match first with
    | .ok result => bisectionLines typed result
    | .error error => ["bisection failed: " ++ error.message]
  let missed := match second with
    | .ok result =>
      ["x^2 + 1 on [-1, 1]: root = " ++ shownOption (result.root.map shown) ++ ", diagnostic = "
        ++ shownOption (result.diagnostic.map fun diagnostic => quoted diagnostic.text)]
    | .error _ => []
  return { lines := found ++ missed }

/-- The lines of a run of Newton's method. -/
def newtonLines (result : Root.Result Float) : List String :=
  ["root = " ++ shownOption (result.root.map shown) ++ " after " ++ toString result.iterations
      ++ " iterations",
    "history = " ++ shownList result.history,
    Root.traceTable result.method result.trace]

/-- Newton's method, from a good guess and from a point where the function is flat. -/
def newtonExample (lib : Elementary) : Logged Shown := do
  match ← (Formula.compile lib Formula.defaultTrial "x^3 - x - 2").run with
  | .error error => return { lines := [error.message] }
  | .ok compiled =>
    let tolerance := (Root.Finder.forMethod .newton).tolerance
    let first ← (Root.newton (.ofCompiled lib compiled) 1.5 tolerance 20).run
    let found := match first with
      | .ok result => newtonLines result
      | .error error => ["Newton-Raphson failed: " ++ error.message]
    let second ← (Root.newtonFormula lib "x^2 + 1" 0.0 1e-4 10).run
    let flat := match second with
      | .ok result =>
        ["x^2 + 1 from 0: " ++ shownOption (result.diagnostic.map Root.Diagnostic.tag)]
      | .error _ => []
    return { lines := found ++ flat }

/-- The line about a formula that is to be compiled. -/
def formulaLine (lib : Elementary) (typed : String) : Logged String := do
  match ← (Formula.compile lib Formula.defaultTrial typed).run with
  | .ok compiled =>
    return flushRight 16 typed ++ " -> " ++ flushLeft 16 compiled.normal ++ " f(2) = "
      ++ shownValue (compiled.expr.eval lib 2.0)
  | .error error => return flushRight 16 typed ++ " -> error: " ++ error.message

/-- Formulas that are accepted, refused, and accepted with another trial point. -/
def formulaExample (lib : Elementary) : Logged Shown := do
  let typed := ["3x^2-2x+1", "2pi", "1e-3", "__import__(os)", "sqrt(x - 5)", "(x+1"]
  let tried ← typed.mapM (formulaLine lib)
  let moved ← (Formula.compile lib (some 6.0) "sqrt(x - 5)").run
  let last := match moved with
    | .ok compiled => ["sqrt(x - 5) at 9 = " ++ shownValue (compiled.expr.eval lib 9.0)]
    | .error _ => []
  return { lines := tried ++ last }

/-- The lines of an elimination. -/
def eliminationLines {n : Nat} (pivoting : Bool) (result : Linear.SolveResult Float n) :
    List String :=
  let snapshots := result.trace.mapIdx fun step system =>
    "step " ++ toString step ++ "\n" ++ Linear.snapshotTable system.rows
  let values (vector : Vector Float n) := shownList vector.toList
  ["pivoting = " ++ Linear.flagText pivoting ++ ": " ++ result.status.text] ++ snapshots
    ++ ["solution = " ++ shownOption (result.solution.map values),
      "residuals = " ++ shownOption (result.residuals.map values)]

/-- Solves a system with the usual tolerance, and lists what is shown of it. -/
def eliminationOf (rows : List (List Float)) (pivoting : Bool) : Logged (List String) := do
  match ← ({ Linear.Solver.default with pivoting } : Linear.Solver Float).solveRows rows with
  | .ok result => return eliminationLines pivoting result
  | .error error => return [error.message]

/-- Elimination of a system that needs pivoting, without it and with it. -/
def eliminationExample : Logged Shown := do
  let rows : List (List Float) :=
    [[0.0, 2.0, 5.0, -4.0], [1.0, 1.0, 1.0, 6.0], [2.0, 5.0, -1.0, 27.0]]
  let advice ← (Linear.recommendPivoting rows).run
  let condition ← (Linear.conditionNumber rows).run
  let plain ← eliminationOf rows false
  let pivoted ← eliminationOf rows true
  let advised := match advice with
    | .ok true => ["partial pivoting is recommended for this matrix"]
    | _ => []
  let conditioned := match condition with
    | .ok value => ["condition number = " ++ (Decimal.Layout.places 3).write value]
    | .error _ => []
  return { lines := advised ++ conditioned ++ plain ++ pivoted }

/-- The line about a system that may be singular. -/
def singularLine (rows : List (List Float)) : Logged (List String) := do
  match ← ({ Linear.Solver.default with pivoting := true } : Linear.Solver Float).solveRows rows with
  | .error _ => return []
  | .ok result =>
    let solvable ← (Linear.hasSolution rows).run
    let many := match solvable with
      | .ok true => "infinitely many solutions"
      | _ => "no solution"
    return [result.status.text ++ "; " ++ many]

/-- A singular system with solutions, and one without. -/
def singularExample : Logged Shown := do
  let dependent ← singularLine [[1.0, 2.0, 3.0], [2.0, 4.0, 6.0]]
  let inconsistent ← singularLine [[1.0, 2.0, 3.0], [2.0, 4.0, 7.0]]
  return { lines := dependent ++ inconsistent }

/-- Saves a file, and says so. -/
def saveLine (shown : Shown) (name : String) (file : Except Text.UnequalLengths String) : Shown :=
  match shown.folder.save name file with
  | .ok folder => { lines := shown.lines ++ ["trace saved to " ++ name], folder }
  | .error error => { shown with lines := shown.lines ++ [error.message] }

/-- The traces of a bisection and of an elimination as files. -/
def savingExample (lib : Elementary) : Logged Shown := do
  let nothing : Shown := { lines := [] }
  let search ← (Root.Finder.default.solve lib "cos(x) - x" .bisection 0.0 (some (0.0, 1.0))).run
  let afterSearch := match search with
    | .ok result =>
      saveLine nothing "bisection_trace.csv" (Root.traceFile result.method result.trace)
    | .error _ => nothing
  let solver : Linear.Solver Float := { Linear.Solver.default with pivoting := true }
  match ← solver.solveRows [[2.0, 3.0, 8.0], [1.0, -1.0, 0.0]] with
  | .ok result =>
    return saveLine afterSearch "gauss_trace.csv"
      (Linear.snapshotFile (result.trace.map Linear.Equations.rows))
  | .error _ => return afterSearch

/-- The example of a number. -/
def example? (lib : Elementary) : Nat → Option (Logged Shown)
  | 0 => some (bisectionExample lib)
  | 1 => some (newtonExample lib)
  | 2 => some (formulaExample lib)
  | 3 => some eliminationExample
  | 4 => some singularExample
  | 5 => some (savingExample lib)
  | _ => none

/-- Shows the example of a number, or says that there is none. -/
def run (lib : Elementary) (number : Nat) : Logged Shown :=
  (example? lib number).getD
    (pure { lines := ["example " ++ toString number ++ " does not exist"] })

end Stepwise.Walkthrough
