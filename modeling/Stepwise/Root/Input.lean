import Stepwise.Arithmetic
import Stepwise.Decimal.Layout

/-!
# Input of root finding

What a method can be asked for. An interval has two finite ends in their order, an initial guess is
finite, and a tolerance is a number that is not negative.
-/

namespace Stepwise.Root

/-- Why a method does not start. -/
inductive InputError (α : Type) where
  | interval (a b : α)
  | tolerance (tol : α)
  | guess (x : α)
  | noRange
  deriving DecidableEq

/-- The text of an input error. -/
def InputError.message : InputError Float → String
  | interval a b =>
    "invalid interval [" ++ Decimal.text a ++ ", " ++ Decimal.text b
      ++ "]: bounds must be finite and a < b"
  | tolerance tol =>
    "invalid input: tolerance must be a non-negative number, got " ++ Decimal.text tol
  | guess x => "invalid input: initial guess must be finite, got " ++ Decimal.text x
  | noRange => "invalid input: Bisection method requires search range"

variable {α : Type} [Arithmetic α]

/-- Checks a tolerance. -/
def checkTolerance (tol : α) : Except (InputError α) Unit :=
  if Arithmetic.isNaN tol ∨ tol < 0.0 then .error (.tolerance tol) else .ok ()

/-- Checks an interval. -/
def checkInterval (a b : α) : Except (InputError α) Unit :=
  if Arithmetic.isFinite a ∧ Arithmetic.isFinite b ∧ a < b then .ok () else .error (.interval a b)

/-- Checks an initial guess. -/
def checkGuess (x : α) : Except (InputError α) Unit :=
  if Arithmetic.isFinite x then .ok () else .error (.guess x)

end Stepwise.Root
