import Stepwise.Decimal.Layout
import Stepwise.Formula.Expr

/-!
# Values of expressions

The value of an expression at a point, computed in doubles from the leaves up. A point where an
operation has no value is an error, and so is a result that leaves the range of doubles.

Arithmetic, square roots and absolute values are those of the doubles themselves. The other functions
come from a record, so that what is known about them can be stated.
-/

namespace Stepwise.Formula

/-- The functions of doubles that arithmetic does not give. -/
structure Elementary where
  sin : Float → Float
  cos : Float → Float
  tan : Float → Float
  exp : Float → Float
  log : Float → Float
  log10 : Float → Float
  pow : Float → Float → Float

/-- The functions of the platform's mathematical library. -/
def Elementary.native : Elementary where
  sin := Float.sin
  cos := Float.cos
  tan := Float.tan
  exp := Float.exp
  log := Float.log
  log10 := Float.log10
  pow := Float.pow

/-- An operation that has no value for some arguments. -/
inductive Restricted where
  | pow
  | log
  | log10
  | sqrt
  deriving DecidableEq

/-- The name of a restricted operation in messages. -/
def Restricted.name : Restricted → String
  | pow => "pow"
  | log => "log"
  | log10 => "log10"
  | sqrt => "sqrt"

/-- Why an expression has no value at a point. -/
inductive EvalError where
  | domain (operation : Restricted) (argument : Float)
  | divisionByZero
  | nonFinite (value : Float)
  deriving DecidableEq

/-- The text of an evaluation error. -/
def EvalError.message : EvalError → String
  | domain operation argument =>
    "math domain error: " ++ operation.name ++ "(" ++ Decimal.text argument ++ ") is undefined"
  | divisionByZero => "division by zero"
  | nonFinite value => "numerical result out of range: " ++ Decimal.text value

/-- A value that has to be finite. -/
def finite (value : Float) : Except EvalError Float :=
  if value.isFinite then .ok value else .error (.nonFinite value)

/-- An operator applied to the values of its operands. -/
def Operator.apply (lib : Elementary) : Operator → Float → Float → Except EvalError Float
  | add, a, b => finite (a + b)
  | sub, a, b => finite (a - b)
  | mul, a, b => finite (a * b)
  | div, a, b => if b == 0.0 then .error .divisionByZero else finite (a / b)
  | pow, a, b =>
    if a == 0.0 && b < 0.0 then .error .divisionByZero
    else
      let value := lib.pow a b
      if value.isNaN then .error (.domain .pow a) else finite value

/-- A function applied to the value of its argument. -/
def Function.apply (lib : Elementary) : Function → Float → Except EvalError Float
  | sin, a => .ok (lib.sin a)
  | cos, a => .ok (lib.cos a)
  | tan, a => finite (lib.tan a)
  | exp, a => finite (lib.exp a)
  | log, a => if a ≤ 0.0 then .error (.domain .log a) else .ok (lib.log a)
  | log10, a => if a ≤ 0.0 then .error (.domain .log10 a) else .ok (lib.log10 a)
  | sqrt, a => if a < 0.0 then .error (.domain .sqrt a) else .ok a.sqrt
  | abs, a => .ok a.abs

/-- The value of an expression at `x`. Operands are evaluated from left to right, and the first error
is the result. -/
def Expr.eval (lib : Elementary) (x : Float) : Expr → Except EvalError Float
  | var => finite x
  | const value => finite value
  | binary op left right => do
    let a ← left.eval lib x
    let b ← right.eval lib x
    op.apply lib a b
  | neg arg => do
    let a ← arg.eval lib x
    return -a
  | call f arg => do
    let a ← arg.eval lib x
    f.apply lib a

end Stepwise.Formula
