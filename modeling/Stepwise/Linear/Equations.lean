import Stepwise.Arithmetic

/-!
# Linear systems

A system of `n` equations in `n` unknowns is a matrix of `n` rows. A row holds the coefficients of one
equation and then its right side.
-/

namespace Stepwise.Linear

/-- What is wrong with a system, or with a solution for it. -/
inductive SystemError where
  | empty
  | raggedRow (row expected found : Nat)
  | nonFinite (row column : Nat)
  | dimensionMismatch (expected found : Nat)
  deriving DecidableEq

/-- The text of the error. -/
def SystemError.message : SystemError → String
  | empty => "the system has no equations"
  | raggedRow row expected found =>
    "row " ++ toString row ++ " has " ++ toString found ++ " entries, expected "
      ++ toString expected
  | nonFinite row column =>
    "entry (" ++ toString row ++ ", " ++ toString column ++ ") is not a finite number"
  | dimensionMismatch expected found =>
    "solution has " ++ toString found ++ " components, expected " ++ toString expected

/-- The rows of `n` equations in `n` unknowns. -/
abbrev Equations (α : Type) (n : Nat) :=
  Vector (Vector α (n + 1)) n

namespace Equations

variable {α : Type}

/-- The rows of a system as lists. -/
def rows {n : Nat} (system : Equations α n) : List (List α) :=
  system.toList.map Vector.toList

variable [Arithmetic α]

/-- What is wrong with a row of a system of `n` equations. Its length comes before its entries. -/
def rowDefect? (n row : Nat) (values : List α) : Option SystemError :=
  if values.length ≠ n + 1 then some (.raggedRow row (n + 1) values.length)
  else (values.findIdx? fun value => !Arithmetic.isFinite value).map (.nonFinite row)

/-- What is wrong with some rows as a system: the first defect, row by row. -/
def defect? (rows : List (List α)) : Option SystemError :=
  if rows.isEmpty then some .empty
  else rows.zipIdx.findSome? fun (values, row) => rowDefect? rows.length row values

/-- The system of some rows. -/
def ofRows (rows : List (List α)) : Except SystemError (Equations α rows.length) :=
  match defect? rows with
  | some error => .error error
  | none => .ok (Vector.ofFn fun i => Vector.ofFn fun j => rows[i].getD j 0.0)

end Equations

end Stepwise.Linear
