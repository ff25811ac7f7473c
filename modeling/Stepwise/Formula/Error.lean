import Stepwise.Formula.Eval
import Stepwise.Formula.Parser

/-!
# Why a formula is refused

The error of a formula holds the cause, the formula as it was typed, and the text that was parsed, its
normal form. A position counts characters of the parsed text.
-/

namespace Stepwise.Formula

/-- Why a formula is refused. -/
inductive CompileCause where
  | empty
  | unbalancedBrackets
  | unexpectedChar (position : Nat) (found : Char)
  | invalid (position : Nat) (fault : Fault)
  | unknownName (name : String)
  | uncalled (f : Function)
  /-- The formula has no value at the point where it is tried. -/
  | failsAt (point : Float) (error : EvalError)
  deriving DecidableEq

/-- A refused formula. -/
structure CompileError where
  typed : String
  parsed : String
  cause : CompileCause
  deriving DecidableEq

namespace CompileError

/-- The same error, about a formula that was typed differently. -/
def withTyped (error : CompileError) (typed : String) : CompileError :=
  { error with typed }

/-- The text of an error. -/
def message (error : CompileError) : String :=
  let quoted := "'" ++ error.typed ++ "'"
  let place (position : Nat) := " at position " ++ toString position ++ " of '" ++ error.parsed ++ "'"
  match error.cause with
  | .empty => "empty formula"
  | .unbalancedBrackets => "unbalanced parentheses in " ++ quoted
  | .unexpectedChar position found =>
    "unexpected character '" ++ String.singleton found ++ "' in " ++ quoted ++ place position
  | .invalid position fault =>
    "invalid syntax in " ++ quoted ++ place position ++ ": " ++ fault.message
  | .unknownName name => "unknown identifier '" ++ name ++ "' in " ++ quoted
  | .uncalled f => "function '" ++ f.name ++ "' must be called with parentheses in " ++ quoted
  | .failsAt point error =>
    "formula " ++ quoted ++ " fails at x = " ++ Decimal.text point ++ ": " ++ error.message

end CompileError

end Stepwise.Formula
