import Stepwise.Formula.Compile

/-!
# Functions of one variable

A function whose root is sought has a name for messages, and at every point it has a finite value or a
reason why it has none.
-/

namespace Stepwise.Root

/-- A function of one variable with its name. -/
structure ScalarFunction where
  name : String := "unnamed_function"
  value : Float → Except Formula.EvalError Float

/-- A function given by doubles at all points. Where its value is not finite it counts as having none. -/
def ScalarFunction.ofTotal (name : String) (f : Float → Float) : ScalarFunction where
  name := name
  value x := Formula.finite (f x)

/-- The function of a compiled formula, under the formula as it was typed. -/
def ScalarFunction.ofCompiled (lib : Formula.Elementary) (compiled : Formula.Compiled) :
    ScalarFunction where
  name := compiled.typed
  value x := compiled.expr.eval lib x

end Stepwise.Root
