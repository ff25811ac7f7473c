import Stepwise.Decimal.Layout
import Stepwise.Formula.Eval

/-!
# Values in the walkthrough

The walkthrough shows values with a mark of their kind: a number never looks like a whole one, a value
that may be absent is `Some` or `None`, and the value of a function is `Ok` or `Err`.
-/

namespace Stepwise.Walkthrough

/-- A number. -/
def shown (x : Float) : String :=
  Decimal.Layout.pointed.write x

/-- A list of numbers. -/
def shownList (values : List Float) : String :=
  "[" ++ String.intercalate ", " (values.map shown) ++ "]"

/-- A value that may be absent, given the text of the value. -/
def shownOption : Option String → String
  | none => "None"
  | some text => "Some(" ++ text ++ ")"

/-- A text in quotes. -/
def quoted (text : String) : String :=
  "\"" ++ text ++ "\""

/-- The reason why a function has no value. -/
def shownError : Formula.EvalError → String
  | .domain operation argument =>
    "Domain \x7b function: " ++ quoted operation.name ++ ", argument: " ++ shown argument ++ " \x7d"
  | .divisionByZero => "DivisionByZero"
  | .nonFinite value => "NonFinite \x7b value: " ++ shown value ++ " \x7d"

/-- The value of a function at a point. -/
def shownValue : Except Formula.EvalError Float → String
  | .ok value => "Ok(" ++ shown value ++ ")"
  | .error error => "Err(" ++ shownError error ++ ")"

/-- A text with blanks in front, at least `width` characters wide. -/
def flushRight (width : Nat) (text : String) : String :=
  String.ofList (List.replicate (width - text.length) ' ') ++ text

/-- A text with blanks behind, at least `width` characters wide. -/
def flushLeft (width : Nat) (text : String) : String :=
  text ++ String.ofList (List.replicate (width - text.length) ' ')

end Stepwise.Walkthrough
