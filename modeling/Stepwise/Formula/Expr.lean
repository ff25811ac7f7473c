import Stepwise.Formula.Symbol

/-!
# Expressions

The tree of a formula in the one variable `x`.
-/

namespace Stepwise.Formula

/-- An operator between two operands. -/
inductive Operator where
  | add
  | sub
  | mul
  | div
  | pow
  deriving DecidableEq

/-- The expression of a formula. -/
inductive Expr where
  | var
  | const (value : Float)
  | binary (op : Operator) (left right : Expr)
  | neg (arg : Expr)
  | call (f : Function) (arg : Expr)
  deriving DecidableEq

namespace Expr

/-- The call of the function of a name, if the name is one of a function. -/
def call? (name : String) (arg : Expr) : Option Expr :=
  match name with
  | "sin" => some (call .sin arg)
  | "cos" => some (call .cos arg)
  | "tan" => some (call .tan arg)
  | "exp" => some (call .exp arg)
  | "log" => some (call .log arg)
  | "log10" => some (call .log10 arg)
  | "sqrt" => some (call .sqrt arg)
  | "abs" => some (call .abs arg)
  | _ => none

/-- Does the variable occur in an expression? -/
def usesVariable : Expr → Bool
  | var => true
  | const _ => false
  | binary _ left right => left.usesVariable || right.usesVariable
  | neg arg => arg.usesVariable
  | call _ arg => arg.usesVariable

/-- Are two expressions the same tree, with constants compared as numbers? The two zeros are equal
as numbers, and `NaN` differs from itself. -/
def sameAs : Expr → Expr → Bool
  | var, var => true
  | const a, const b => a == b
  | binary op a b, binary op' a' b' => op = op' && a.sameAs a' && b.sameAs b'
  | neg a, neg a' => a.sameAs a'
  | call f a, call f' a' => f = f' && a.sameAs a'
  | _, _ => false

/-- Every function is called by its name. -/
theorem call?_name (f : Function) (arg : Expr) : call? f.name arg = some (call f arg) := by
  cases f <;> rfl

/-- A name that stands for a function is the name by which the function is called. -/
theorem call?_of_ofName? {name : String} {f : Function}
    (meaning : Symbol.ofName? name = some (.function f)) (arg : Expr) :
    call? name arg = some (call f arg) := by
  obtain rfl := Symbol.name_of_ofName? meaning
  exact call?_name f arg

end Expr

end Stepwise.Formula
