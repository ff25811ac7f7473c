import Stepwise.Linear.Residual

/-!
# Gaussian elimination

Column by column, multiples of one row are subtracted from the rows below it, so that all entries below
the diagonal become zero. The unknowns are then computed from the last one up.

With partial pivoting, the row with the entry of largest magnitude is first brought to the diagonal, the
uppermost of such rows if there are several. Without a diagonal entry that is finite and not too small,
the system counts as singular, and so it does if a component of the solution is not finite.

An elimination can be watched: it shows each step when it is taken. The functions for that work in any
monad, and without anyone watching they are those that only compute.
-/

namespace Stepwise.Linear

/-- How a solver treats diagonal entries. -/
structure Solver (α : Type) where
  pivoting : Bool
  /-- A diagonal entry of smaller magnitude is too small. -/
  pivotTolerance : α
  deriving DecidableEq

/-- What a step of elimination does. -/
inductive Change (α : Type) where
  | swapped (row other : Nat)
  | eliminated (column row : Nat) (factor : α)
  deriving DecidableEq

/-- A step of elimination and the system after it. -/
structure RowStep (α : Type) (n : Nat) where
  change : Change α
  system : Equations α n

/-- Why a system counts as singular. -/
inductive Singularity (α : Type) where
  | overflow (row : Nat)
  | smallPivot (row : Nat) (pivot : α)
  deriving DecidableEq

namespace Equations

variable {α : Type} {n : Nat}

/-- The rows below row `i`, from the upper to the lower. -/
def rowsBelow (i : Fin n) : List (Fin n) :=
  (List.finRange n).filter (i < ·)

/-- The coefficient of unknown `j` in equation `i`. -/
def coefficient (system : Equations α n) (i j : Fin n) : α :=
  system[i][j]

/-- The right side of equation `i`. -/
def rightSide (system : Equations α n) (i : Fin n) : α :=
  system[i].get (Fin.last n)

variable [Arithmetic α]

/-- The row from `i` on whose coefficient of unknown `i` is largest in magnitude, and of those the
uppermost. -/
def pivotRow (system : Equations α n) (i : Fin n) : Fin n :=
  (rowsBelow i).foldl (fun best k =>
    if Arithmetic.magnitude (system.coefficient best i)
      < Arithmetic.magnitude (system.coefficient k i) then k else best) i

/-- Subtracts a multiple of row `i` from row `j`, in the columns from `i` on. -/
def subtractRow (system : Equations α n) (i j : Fin n) (factor : α) : Equations α n :=
  system.set j (Vector.ofFn fun k =>
    if i.val ≤ k.val then system[j][k] - factor * system[i][k] else system[j][k])

/-- Coefficients of smaller magnitude are negligible. -/
def negligibleBound : α :=
  1e-10

/-- Are all coefficients of a row negligible? -/
def negligible (row : Vector α (n + 1)) : Bool :=
  (row.toList.take n).all fun value => !decide (negligibleBound < Arithmetic.magnitude value)

end Equations

variable {α : Type} {n : Nat}

/-- The system after some steps from a given one. -/
def reached (start : Equations α n) (steps : List (RowStep α n)) : Equations α n :=
  (steps.getLast?.map RowStep.system).getD start

variable [Arithmetic α]

/-- Is a step worth a snapshot? A swap always is, an elimination if it leaves a row behind that is not
negligible. -/
def RowStep.recorded (step : RowStep α n) : Bool :=
  match step.change with
  | .swapped _ _ => true
  | .eliminated _ row _ =>
    match step.system[row]? with
    | some values => !Equations.negligible values
    | none => false

/-- Brings the row with the largest entry to the diagonal, if it is not there. -/
def pivotSteps (system : Equations α n) (i : Fin n) : List (RowStep α n) :=
  let k := system.pivotRow i
  if k = i then []
  else [{ change := .swapped i k, system := system.swap i k }]

/-- Why the entry of row `i` on the diagonal cannot be divided by. -/
def Solver.pivotDefect? (solver : Solver α) (system : Equations α n) (i : Fin n) :
    Option (Singularity α) :=
  let pivot := system.coefficient i i
  if !Arithmetic.isFinite pivot then some (.overflow i)
  else if Arithmetic.magnitude pivot < solver.pivotTolerance then some (.smallPivot i pivot)
  else none

/-- The steps of elimination, and the singularity at which it stopped. -/
structure Forward (α : Type) (n : Nat) where
  steps : List (RowStep α n)
  defect : Option (Singularity α)

section Watched

variable {m : Type → Type} [Monad m]

/-- Subtracts multiples of row `i` from some rows, one after the other, and shows every subtraction to
`watch`. -/
def clearStepsM (watch : RowStep α n → m Unit) (i : Fin n) :
    List (Fin n) → Equations α n → m (List (RowStep α n))
  | [], _ => return []
  | j :: later, system => do
    let factor := system.coefficient j i / system.coefficient i i
    let system := system.subtractRow i j factor
    let step := { change := .eliminated i j factor, system }
    watch step
    let steps ← clearStepsM watch i later system
    return step :: steps

/-- Eliminates `count` unknowns, the first of them unknown `i`, and shows every step to `watch`. -/
def Solver.forwardM (solver : Solver α) (watch : RowStep α n → m Unit) :
    (count i : Nat) → Equations α n → m (Forward α n)
  | 0, _, _ => return { steps := [], defect := none }
  | count + 1, i, system =>
    if h : i < n then do
      let swaps := if solver.pivoting then pivotSteps system ⟨i, h⟩ else []
      swaps.forM watch
      let pivoted := reached system swaps
      match solver.pivotDefect? pivoted ⟨i, h⟩ with
      | some defect => return { steps := swaps, defect := some defect }
      | none =>
        let clears ← clearStepsM watch ⟨i, h⟩ (Equations.rowsBelow ⟨i, h⟩) pivoted
        let later ← solver.forwardM watch count (i + 1) (reached pivoted clears)
        return { later with steps := swaps ++ clears ++ later.steps }
    else return { steps := [], defect := none }

end Watched

/-- Subtracts multiples of row `i` from some rows, one after the other. -/
def clearSteps (i : Fin n) (rows : List (Fin n)) (system : Equations α n) : List (RowStep α n) :=
  Id.run (clearStepsM (fun _ => pure ()) i rows system)

/-- Eliminates `count` unknowns, the first of them unknown `i`. -/
def Solver.forward (solver : Solver α) (count i : Nat) (system : Equations α n) : Forward α n :=
  Id.run (solver.forwardM (fun _ => pure ()) count i system)

/-- A subtraction from the first of some rows is followed by those from the others. -/
theorem clearSteps_cons (i j : Fin n) (later : List (Fin n)) (system : Equations α n) :
    clearSteps i (j :: later) system =
      let factor := system.coefficient j i / system.coefficient i i
      let system := system.subtractRow i j factor
      { change := .eliminated i j factor, system } :: clearSteps i later system :=
  rfl

/-- Elimination of an unknown exchanges two rows, or none, and clears the column of the unknown, unless
its entry on the diagonal is rejected. -/
theorem Solver.forward_of_lt (solver : Solver α) {i : Nat} (h : i < n) (count : Nat)
    (system : Equations α n) :
    solver.forward (count + 1) i system =
      let swaps := if solver.pivoting then pivotSteps system ⟨i, h⟩ else []
      let pivoted := reached system swaps
      match solver.pivotDefect? pivoted ⟨i, h⟩ with
      | some defect => { steps := swaps, defect := some defect }
      | none =>
        let clears := clearSteps ⟨i, h⟩ (Equations.rowsBelow ⟨i, h⟩) pivoted
        let later := solver.forward count (i + 1) (reached pivoted clears)
        { later with steps := swaps ++ clears ++ later.steps } := by
  rw [forward, forwardM, dif_pos h]
  dsimp only
  generalize (if solver.pivoting then pivotSteps system ⟨i, h⟩ else []) = swaps
  cases solver.pivotDefect? (reached system swaps) ⟨i, h⟩ <;> rfl

/-- There are no unknowns behind the last one. -/
theorem Solver.forward_of_ge (solver : Solver α) {i : Nat} (h : n ≤ i) (count : Nat)
    (system : Equations α n) : solver.forward (count + 1) i system = { steps := [], defect := none } := by
  rw [forward, forwardM, dif_neg (Nat.not_lt.mpr h)]
  rfl

/-- The sum of the products of coefficients and values, added up from negative zero, which changes no
first summand. -/
def productSum (coefficients values : List α) : α :=
  (coefficients.zip values).foldl (fun sum (a, x) => sum + a * x) (-0.0)

/-- The last `count` unknowns of a system, each computed from those behind it and from the entries on
the diagonal and right of it. -/
def lastUnknowns (system : Equations α n) : Nat → List α
  | 0 => []
  | count + 1 =>
    let later := lastUnknowns system count
    if h : n - (count + 1) < n then
      let i : Fin n := ⟨n - (count + 1), h⟩
      let sum := productSum (system[i].toList.drop (i + 1)) later
      (system.rightSide i - sum) / system.coefficient i i :: later
    else later

/-- The unknowns of a system, computed from the last one up. -/
def backSubstitute (system : Equations α n) : Vector α n :=
  let unknowns := lastUnknowns system n
  Vector.ofFn fun i => unknowns.getD i 0.0

/-- Why a component of the solution cannot be trusted. -/
def Solver.componentDefect? (solver : Solver α) (system : Equations α n) (solution : Vector α n)
    (i : Fin n) : Option (Singularity α) :=
  let pivot := system.coefficient i i
  if Arithmetic.magnitude pivot < solver.pivotTolerance then some (.smallPivot i pivot)
  else if !Arithmetic.isFinite solution[i] then some (.overflow i)
  else none

/-- An elimination: its steps, and the solution or the singularity in which it ends. -/
structure Run (α : Type) (n : Nat) where
  steps : List (RowStep α n)
  ending : Except (Singularity α) (Vector α n)

/-- Runs the elimination of a system, and shows every step to `watch`. -/
def Solver.runM {m : Type → Type} [Monad m] (solver : Solver α) (watch : RowStep α n → m Unit)
    (system : Equations α n) : m (Run α n) := do
  let forward ← solver.forwardM watch n 0 system
  match forward.defect with
  | some defect => return { steps := forward.steps, ending := .error defect }
  | none =>
    let final := reached system forward.steps
    let solution := backSubstitute final
    match (List.finRange n).reverse.findSome? (solver.componentDefect? final solution) with
    | some defect => return { steps := forward.steps, ending := .error defect }
    | none => return { steps := forward.steps, ending := .ok solution }

/-- Runs the elimination of a system. -/
def Solver.run (solver : Solver α) (system : Equations α n) : Run α n :=
  Id.run (solver.runM (fun _ => pure ()) system)

/-- A run ends where elimination stops, or else at the first component that cannot be trusted, or with the
solution. -/
theorem Solver.run_eq (solver : Solver α) (system : Equations α n) :
    solver.run system =
      let forward := solver.forward n 0 system
      match forward.defect with
      | some defect => { steps := forward.steps, ending := .error defect }
      | none =>
        let final := reached system forward.steps
        let solution := backSubstitute final
        match (List.finRange n).reverse.findSome? (solver.componentDefect? final solution) with
        | some defect => { steps := forward.steps, ending := .error defect }
        | none => { steps := forward.steps, ending := .ok solution } := by
  rw [run, runM, Id.run_bind, ← forward]
  dsimp only
  split
  case h_1 => rfl
  case h_2 => split <;> rfl

/-- The snapshots of an elimination: the system at its start and after every recorded step. -/
def Run.trace (run : Run α n) (start : Equations α n) : List (Equations α n) :=
  start :: (run.steps.filter RowStep.recorded).map RowStep.system

/-- How an elimination ended. -/
inductive Status where
  | solved
  | singular
  deriving DecidableEq

namespace Status

/-- The text of a status. -/
def text : Status → String
  | solved => "solved successfully"
  | singular => "singular - no unique solution"

/-- Both statuses. -/
def all : List Status :=
  [solved, singular]

end Status

/-- The result of an elimination. A singular system has neither a solution nor residuals. -/
structure SolveResult (α : Type) (n : Nat) where
  status : Status
  solution : Option (Vector α n)
  residuals : Option (Vector α n)
  trace : List (Equations α n)

/-- The result of an elimination that started from a system. -/
def Run.result (run : Run α n) (start : Equations α n) : SolveResult α n :=
  match run.ending with
  | .ok solution =>
    { status := .solved
      solution := some solution
      residuals := some (residuals start solution)
      trace := run.trace start }
  | .error _ =>
    { status := .singular, solution := none, residuals := none, trace := run.trace start }

/-- The solver without pivoting and with the usual tolerance. -/
def Solver.default : Solver α where
  pivoting := false
  pivotTolerance := 1e-10

end Stepwise.Linear
