import Stepwise.Decimal.Layout
import Stepwise.Formula.Expr

/-!
# Expressions as text

An expression is written with brackets around every operation, so that the text shows the tree. A
negative constant stands in brackets too.
-/

namespace Stepwise.Formula

/-- The sign of an operator. -/
def Operator.sign : Operator → String
  | add => "+"
  | sub => "-"
  | mul => "*"
  | div => "/"
  | pow => "**"

/-- An expression as a fully bracketed formula. -/
def Expr.print : Expr → String
  | var => variableName
  | const value =>
    if value < 0.0 then "(" ++ Decimal.text value ++ ")" else Decimal.text value
  | binary op left right => "(" ++ left.print ++ " " ++ op.sign ++ " " ++ right.print ++ ")"
  | neg arg => "(-" ++ arg.print ++ ")"
  | call f arg => f.name ++ "(" ++ arg.print ++ ")"

end Stepwise.Formula
