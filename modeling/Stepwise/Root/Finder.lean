import Stepwise.Root.Function
import Stepwise.Root.Messages

/-!
# Finding roots

A root is sought by one of the methods, for a function or for a formula as it is typed. A finder keeps
the tolerance and the number of iterations from one search to the next.
-/

namespace Stepwise.Root

/-- Why a search has no result. -/
inductive RootError where
  | compile (error : Formula.CompileError)
  | eval (error : Formula.EvalError)
  | input (error : InputError Float)
  deriving DecidableEq

/-- The text of the error. -/
def RootError.message : RootError → String
  | compile error => error.message
  | eval error => "function evaluation failed: " ++ error.message
  | input error => error.message

/-- A search for a root: a result or an error, and messages. -/
abbrev Search :=
  ExceptT RootError Logged (Result Float)

/-- Bisects an interval. -/
def bisect (f : ScalarFunction) (a b tol : Float) (budget : Nat) : Search :=
  match Bisection.checkInput a b tol with
  | .error error => throw (.input error)
  | .ok () => do
    let run ← Bisection.narrate f.name f.value a b tol budget
    run.result.mapError RootError.eval

/-- Runs Newton's method from a point. -/
def newton (f : ScalarFunction) (x tol : Float) (budget : Nat) : Search :=
  match Newton.checkInput x tol with
  | .error error => throw (.input error)
  | .ok () => do
    let run ← Newton.narrate f.name f.value x tol budget
    (run.result x).mapError RootError.eval

/-- Compiles a formula for a search. -/
def compileFunction (lib : Formula.Elementary) (trial : Option Float) (typed : String) :
    ExceptT RootError Logged ScalarFunction := do
  let compiled ← ExceptT.adapt RootError.compile (Formula.compile lib trial typed)
  return .ofCompiled lib compiled

/-- Compiles a formula and bisects an interval. -/
def bisectFormula (lib : Formula.Elementary) (typed : String) (a b tol : Float) (budget : Nat) :
    Search := do
  let f ← compileFunction lib Formula.defaultTrial typed
  bisect f a b tol budget

/-- Compiles a formula and runs Newton's method from a point. -/
def newtonFormula (lib : Formula.Elementary) (typed : String) (x tol : Float) (budget : Nat) :
    Search := do
  let f ← compileFunction lib Formula.defaultTrial typed
  newton f x tol budget

/-- The limits of a search, kept from one search to the next. -/
structure Finder where
  tolerance : Float
  maxIterations : Nat
  deriving DecidableEq

namespace Finder

/-- The usual limits of a method. -/
def forMethod : Method → Finder
  | .bisection => { tolerance := 1e-6, maxIterations := 100 }
  | .newton => { tolerance := 1e-4, maxIterations := 10 }

/-- The limits without any other choice: those of bisection. -/
def default : Finder :=
  forMethod .bisection

/-- Bisects an interval within the limits. -/
def bisect (finder : Finder) (f : ScalarFunction) (a b : Float) : Search :=
  Root.bisect f a b finder.tolerance finder.maxIterations

/-- Runs Newton's method from a point within the limits. -/
def newton (finder : Finder) (f : ScalarFunction) (x : Float) : Search :=
  Root.newton f x finder.tolerance finder.maxIterations

/-- Compiles a formula and runs a method on it. Bisection needs a range, Newton's method a guess. -/
def solve (finder : Finder) (lib : Formula.Elementary) (typed : String) (method : Method)
    (guess : Float) (range : Option (Float × Float)) : Search := do
  let f ← compileFunction lib Formula.defaultTrial typed
  Logged.note .info ("solving '" ++ typed ++ "' with " ++ method.name)
  match method with
  | .bisection =>
    match range with
    | some (a, b) => finder.bisect f a b
    | none => throw (.input .noRange)
  | .newton => finder.newton f guess

end Finder

end Stepwise.Root
