import Stepwise.Formula.Parser

/-!
# The grammar of formulas

The phrases of a formula as trees of their own, one type for each rule of the grammar. A phrase is
spelled by some tokens and means an expression. Its charge is the nesting it needs: every operand takes
one level for its own extent, and every operator of a sum or product takes one level for what follows it
inside the same sum or product.

Nothing here reads tokens. The grammar is what reading is compared with.
-/

namespace Stepwise.Formula.Grammar

/-- A sign in front of an operand or between the products of a sum. -/
inductive Sign where
  | plus
  | minus
  deriving DecidableEq

namespace Sign

/-- How a sign is written. -/
def token : Sign → Token
  | plus => .plus
  | minus => .minus

/-- What a sign between the products of a sum does with them. -/
def operator : Sign → Operator
  | plus => .add
  | minus => .sub

/-- What a sign makes of the operand behind it: a plus sign leaves no mark. -/
def apply : Sign → Expr → Expr
  | plus, arg => arg
  | minus, arg => .neg arg

end Sign

/-- A sign between the operands of a product. -/
inductive Scale where
  | times
  | divide
  deriving DecidableEq

namespace Scale

/-- How a multiplication or division sign is written. -/
def token : Scale → Token
  | times => .star
  | divide => .slash

/-- What a multiplication or division sign does with the operands. -/
def operator : Scale → Operator
  | times => .mul
  | divide => .div

end Scale

mutual

/-- One or more products with signs between them. -/
inductive Sum where
  | mk (first : Product) (rest : SumTail)

/-- What follows the first product of a sum. -/
inductive SumTail where
  | done
  | more (sign : Sign) (next : Product) (rest : SumTail)

/-- One or more operands with `*` or `/` between them. -/
inductive Product where
  | mk (first : Operand) (rest : ProductTail)

/-- What follows the first operand of a product. -/
inductive ProductTail where
  | done
  | more (scale : Scale) (next : Operand) (rest : ProductTail)

/-- An operand with a sign in front, or a power. -/
inductive Operand where
  | signed (sign : Sign) (arg : Operand)
  | unsigned (power : Power)

/-- A primary, alone or with an operand as its exponent. -/
inductive Power where
  | plain (base : Primary)
  | raised (base : Primary) (exponent : Operand)

/-- A number, a name with a meaning, a call of a function, or a sum in brackets. -/
inductive Primary where
  | number (value : Float)
  | var
  | constant (c : Constant)
  | call (f : Function) (arg : Sum)
  | group (inner : Sum)

end

mutual

/-- The tokens of a sum and of the phrases in it. -/
def Sum.tokens : Sum → List Token
  | .mk first rest => first.tokens ++ rest.tokens

/-- The tokens of the rest of a sum, each product behind its sign. -/
def SumTail.tokens : SumTail → List Token
  | .done => []
  | .more sign next rest => sign.token :: (next.tokens ++ rest.tokens)

/-- The tokens of a product and of the phrases in it. -/
def Product.tokens : Product → List Token
  | .mk first rest => first.tokens ++ rest.tokens

/-- The tokens of the rest of a product, each operand behind its sign. -/
def ProductTail.tokens : ProductTail → List Token
  | .done => []
  | .more scale next rest => scale.token :: (next.tokens ++ rest.tokens)

/-- The tokens of an operand, its signs in front. -/
def Operand.tokens : Operand → List Token
  | .signed sign arg => sign.token :: arg.tokens
  | .unsigned power => power.tokens

/-- The tokens of a power, the exponent behind `**`. -/
def Power.tokens : Power → List Token
  | .plain base => base.tokens
  | .raised base exponent => base.tokens ++ .power :: exponent.tokens

/-- The tokens of a primary, with its brackets. -/
def Primary.tokens : Primary → List Token
  | .number value => [.number value]
  | .var => [.name variableName]
  | .constant c => [.name c.name]
  | .call f arg => .name f.name :: .opening :: (arg.tokens ++ [.closing])
  | .group inner => .opening :: (inner.tokens ++ [.closing])

end

mutual

/-- The expression of a sum, grouped from the left. -/
def Sum.tree : Sum → Expr
  | .mk first rest => rest.tree first.tree

/-- The expression of a sum whose products so far mean `left`. -/
def SumTail.tree (left : Expr) : SumTail → Expr
  | .done => left
  | .more sign next rest => rest.tree (.binary sign.operator left next.tree)

/-- The expression of a product, grouped from the left. -/
def Product.tree : Product → Expr
  | .mk first rest => rest.tree first.tree

/-- The expression of a product whose operands so far mean `left`. -/
def ProductTail.tree (left : Expr) : ProductTail → Expr
  | .done => left
  | .more scale next rest => rest.tree (.binary scale.operator left next.tree)

/-- The expression of an operand: a sign stands outside of a power. -/
def Operand.tree : Operand → Expr
  | .signed sign arg => sign.apply arg.tree
  | .unsigned power => power.tree

/-- The expression of a power. -/
def Power.tree : Power → Expr
  | .plain base => base.tree
  | .raised base exponent => .binary .pow base.tree exponent.tree

/-- The expression of a primary: constants are folded, brackets leave no mark. -/
def Primary.tree : Primary → Expr
  | .number value => .const value
  | .var => .var
  | .constant c => .const c.value
  | .call f arg => .call f arg.tree
  | .group inner => inner.tree

end

mutual

/-- The nesting that a sum and the phrases in it need. -/
def Sum.charge : Sum → Nat
  | .mk first rest => max first.charge rest.charge

/-- The nesting that the rest of a sum needs: a level for every operator, for what follows it. -/
def SumTail.charge : SumTail → Nat
  | .done => 0
  | .more _ next rest => max next.charge rest.charge + 1

/-- The nesting that a product and the phrases in it need. -/
def Product.charge : Product → Nat
  | .mk first rest => max first.charge rest.charge

/-- The nesting that the rest of a product needs: a level for every operator, for what follows it. -/
def ProductTail.charge : ProductTail → Nat
  | .done => 0
  | .more _ next rest => max next.charge rest.charge + 1

/-- The nesting that an operand needs: a level for its own extent. -/
def Operand.charge : Operand → Nat
  | .signed _ arg => arg.charge + 1
  | .unsigned power => power.charge + 1

/-- The nesting that a power needs: that of its base and of its exponent. -/
def Power.charge : Power → Nat
  | .plain base => base.charge
  | .raised base exponent => max base.charge exponent.charge

/-- The nesting that a primary needs: that of the sum in its brackets. -/
def Primary.charge : Primary → Nat
  | .number _ => 0
  | .var => 0
  | .constant _ => 0
  | .call _ arg => arg.charge
  | .group inner => inner.charge

end

end Stepwise.Formula.Grammar
