import Stepwise.Formula.Expr
import Stepwise.Formula.Token

/-!
# From tokens to expressions

The grammar of formulas, loosest binding first:

* `sum` is one or more products with `+` or `-` between them, grouped from the left;
* `product` is one or more operands with `*` or `/` between them, grouped from the left;
* `operand` is an operand with a sign in front, or a primary, or a primary `**` an operand;
* `primary` is a number, the variable, a constant, a call of a function, or a sum in brackets.

So `**` groups from the right and binds tighter than a sign on its left, and a plus sign leaves no mark.

The name of a function is looked up twice: when it is read, and behind its argument, when the call is made.

Nesting is limited. Every operand takes one level for as long as it lasts, and every operator of a sum or
product takes one level for the rest of that sum or product. The functions here count the levels that are
left: they recurse on this `room`, so they end on every input.
-/

namespace Stepwise.Formula

/-- How many levels of nesting a formula may have. -/
def maxDepth : Nat :=
  256

/-- What is wrong with a formula at some position. -/
inductive Fault where
  | malformedNumber (text : String)
  | numberOutOfRange (text : String)
  | tooDeep
  /-- No token, or another one, stands where a closing bracket has to be. -/
  | unclosed (found : Option Token)
  /-- No token, or another one, stands where an operand has to begin or the formula to end. -/
  | unexpected (found : Option Token)
  deriving DecidableEq

/-- The text of a fault. -/
def Fault.message : Fault → String
  | malformedNumber text => "malformed number '" ++ text ++ "'"
  | numberOutOfRange text => "number '" ++ text ++ "' is out of the floating point range"
  | tooDeep =>
    "expression nested too deeply (more than " ++ toString maxDepth ++ " levels)"
  | unclosed none => "expected " ++ Token.closing.describe ++ ", found end of formula"
  | unclosed (some token) => "expected " ++ Token.closing.describe ++ ", found " ++ token.describe
  | unexpected none => "unexpected end of formula"
  | unexpected (some token) => "unexpected " ++ token.describe

/-- Why tokens are not an expression. A fault is at the start of a token, or at the end of the formula
where the position is `none`. -/
inductive ParseError where
  | fault (position : Option Nat) (fault : Fault)
  | unknownName (name : String)
  | uncalled (f : Function)
  deriving DecidableEq

/-- An expression read from the front of the tokens, and the tokens behind it. -/
abbrev Parsed :=
  Except ParseError (Expr × List Lexeme)

/-- Reports a fault at the first of some tokens. -/
def refuse {α : Type} (rest : List Lexeme) (fault : Fault) : Except ParseError α :=
  .error (.fault (rest.head?.map Lexeme.start) fault)

/-- Passes over a closing bracket. -/
def closeBracket : List Lexeme → Except ParseError (List Lexeme)
  | { token := .closing, .. } :: rest => .ok rest
  | rest => refuse rest (.unclosed (rest.head?.map Lexeme.token))

/-- The operators between the products of a sum. -/
def Token.sumOperator? : Token → Option Operator
  | plus => some .add
  | minus => some .sub
  | _ => none

/-- The operators between the operands of a product. -/
def Token.productOperator? : Token → Option Operator
  | star => some .mul
  | slash => some .div
  | _ => none

/-- The operator at the front of some tokens, and the tokens behind it. -/
def operatorAtFront (operator? : Token → Option Operator) :
    List Lexeme → Option (Operator × List Lexeme)
  | [] => none
  | lexeme :: rest => (operator? lexeme.token).map fun op => (op, rest)

/-- Reads a primary, given how to read the sum within its brackets. -/
def primary (sum : List Lexeme → Parsed) : List Lexeme → Parsed
  | { token := .number value, .. } :: rest => .ok (.const value, rest)
  | { token := .opening, .. } :: rest => do
    let (inner, rest) ← sum rest
    let rest ← closeBracket rest
    return (inner, rest)
  | { token := .name name, .. } :: rest =>
    match Symbol.ofName? name with
    | some .variable => .ok (.var, rest)
    | some (.constant c) => .ok (.const c.value, rest)
    | some (.function f) =>
      match rest with
      | { token := .opening, .. } :: rest => do
        let (arg, rest) ← sum rest
        let rest ← closeBracket rest
        match Expr.call? name arg with
        | some call => return (call, rest)
        | none => .error (.unknownName name)
      | _ => .error (.uncalled f)
    | none => .error (.unknownName name)
  | rest => refuse rest (.unexpected (rest.head?.map Lexeme.token))

/-- The name of a function is that of the call, so it is not looked up in vain behind the argument. -/
theorem primary_function {name : String} {f : Function}
    (meaning : Symbol.ofName? name = some (.function f)) (sum : List Lexeme → Parsed) (start : Nat)
    (rest : List Lexeme) :
    primary sum (⟨start, .name name⟩ :: rest) =
      match rest with
      | { token := .opening, .. } :: rest => do
        let (arg, rest) ← sum rest
        let rest ← closeBracket rest
        return (.call f arg, rest)
      | _ => .error (.uncalled f) := by
  simp only [primary, meaning, Expr.call?_of_ofName? meaning]

/-- Reads a primary and its exponent if it has one, given how to read the sum within brackets and the
operand of an exponent. -/
def power (sum operand : List Lexeme → Parsed) (tokens : List Lexeme) : Parsed := do
  let (base, rest) ← primary sum tokens
  match rest with
  | { token := .power, .. } :: rest =>
    let (exponent, rest) ← operand rest
    return (.binary .pow base exponent, rest)
  | rest => return (base, rest)

mutual

/-- Reads an operand with `room` levels left. -/
def operand (room : Nat) (tokens : List Lexeme) : Parsed :=
  match room with
  | 0 => refuse tokens .tooDeep
  | room + 1 =>
    match tokens with
    | { token := .minus, .. } :: rest => do
      let (arg, rest) ← operand room rest
      return (.neg arg, rest)
    | { token := .plus, .. } :: rest => operand room rest
    | tokens =>
      let sum := fun (tokens : List Lexeme) => do
        let (first, rest) ← operand room tokens
        let (left, rest) ← productTail room first rest
        sumTail room left rest
      power sum (operand room) tokens

/-- Reads the operators and operands of a product that follow what is on their left. -/
def productTail (room : Nat) (left : Expr) (tokens : List Lexeme) : Parsed :=
  match operatorAtFront Token.productOperator? tokens with
  | none => .ok (left, tokens)
  | some (op, rest) =>
    match room with
    | 0 => refuse rest .tooDeep
    | room + 1 => do
      let (right, rest) ← operand room rest
      productTail room (.binary op left right) rest

/-- Reads the operators and products of a sum that follow what is on their left. -/
def sumTail (room : Nat) (left : Expr) (tokens : List Lexeme) : Parsed :=
  match operatorAtFront Token.sumOperator? tokens with
  | none => .ok (left, tokens)
  | some (op, rest) =>
    match room with
    | 0 => refuse rest .tooDeep
    | room + 1 => do
      let (first, rest) ← operand room rest
      let (right, rest) ← productTail room first rest
      sumTail room (.binary op left right) rest

end

/-- Reads a product with `room` levels left. -/
def product (room : Nat) (tokens : List Lexeme) : Parsed := do
  let (first, rest) ← operand room tokens
  productTail room first rest

/-- Reads a sum with `room` levels left. -/
def sum (room : Nat) (tokens : List Lexeme) : Parsed := do
  let (first, rest) ← product room tokens
  sumTail room first rest

/-- Reads all tokens of a formula as one expression. -/
def parseTokens (tokens : List Lexeme) : Except ParseError Expr := do
  let (expr, rest) ← sum maxDepth tokens
  match rest with
  | [] => return expr
  | lexeme :: _ => refuse rest (.unexpected (some lexeme.token))

end Stepwise.Formula
