import Stepwise.Formula.Parser

/-!
# Reading with a cursor

The readers of formulas return the tokens that are left, and they recurse on the levels of nesting that are
left. The same can be done by functions that share one cursor. It counts the tokens behind it and the levels
in use, it moves forwards and backwards, and the functions have to bring it back to the level that they find
it on.

Here are such functions. They keep a trail of where the cursor goes, they stop where a count would fall
below zero, and both the calls within each other and the rounds of a loop are limited, so that it can be
told how many of them there are.
-/

namespace Stepwise.Formula

/-- How many tokens are passed, and how many levels of nesting are in use. -/
structure Cursor where
  position : Nat
  depth : Nat
  deriving DecidableEq

/-- Why a walk over the tokens stops before its end. -/
inductive Stop where
  | refused (error : ParseError)
  /-- One is to be taken from a count that is zero. -/
  | underflow
  /-- There are more calls within each other, or more rounds of a loop, than allowed. -/
  | exhausted
  deriving DecidableEq

/-- What has become of a walk: everywhere the cursor has been moved to, and its value and the place of the
cursor at the end. -/
structure Walked (α : Type) where
  trail : List Cursor
  result : Except Stop (α × Cursor)

/-- A walk over the tokens, from wherever the cursor is. -/
structure Walk (α : Type) where
  run : Cursor → Walked α

/-- Walks run one after the other, with their trails joined, until one stops. -/
instance : Monad Walk where
  pure a := { run := fun cursor => { trail := [], result := .ok (a, cursor) } }
  bind walk f :=
    { run := fun cursor =>
        match walk.run cursor with
        | { trail, result := .error stop } => { trail, result := .error stop }
        | { trail, result := .ok (a, cursor) } =>
          let later := (f a).run cursor
          { later with trail := trail ++ later.trail } }

namespace Walk

variable {α : Type}

/-- Stops for a reason, without moving the cursor. -/
def stop (reason : Stop) : Walk α where
  run _ := { trail := [], result := .error reason }

/-- The cursor itself. -/
def here : Walk Cursor where
  run cursor := { trail := [], result := .ok (cursor, cursor) }

/-- Puts the cursor somewhere and leaves this place on the trail. -/
def moveTo (cursor : Cursor) : Walk Unit where
  run _ := { trail := [cursor], result := .ok ((), cursor) }

/-- Passes over one token. -/
def advance : Walk Unit := do
  let cursor ← here
  moveTo { cursor with position := cursor.position + 1 }

/-- Goes back by one token. -/
def back : Walk Unit := do
  let cursor ← here
  match cursor.position with
  | 0 => stop .underflow
  | position + 1 => moveTo { cursor with position }

/-- Leaves one level. -/
def ascend : Walk Unit := do
  let cursor ← here
  match cursor.depth with
  | 0 => stop .underflow
  | depth + 1 => moveTo { cursor with depth }

/-- Returns to a level. -/
def restore (depth : Nat) : Walk Unit := do
  let cursor ← here
  moveTo { cursor with depth }

variable (tokens : List Lexeme)

/-- The token at the cursor. -/
def peek : Walk (Option Token) := do
  let cursor ← here
  return tokens[cursor.position]?.map Lexeme.token

/-- Reports a fault at the cursor. -/
def blame (fault : Fault) : Walk α := do
  let cursor ← here
  stop (.refused (.fault (tokens[cursor.position]?.map Lexeme.start) fault))

/-- Takes one more level, and gives up if there are too many. -/
def descend : Walk Unit := do
  let cursor ← here
  moveTo { cursor with depth := cursor.depth + 1 }
  if maxDepth < cursor.depth + 1 then blame tokens .tooDeep else pure ()

/-- The token at the cursor, which is passed. -/
def next : Walk (Option Token) := do
  match ← peek tokens with
  | some token =>
    advance
    return some token
  | none => return none

/-- Passes over a closing bracket. -/
def passClosing : Walk Unit := do
  match ← peek tokens with
  | some .closing => advance
  | found => blame tokens (.unclosed found)

/-- Goes on with operators and operands for so many rounds, and returns to the level on which the first
operand was entered. -/
def chain (operator? : Token → Option Operator) (operand : Walk Expr) (entered : Nat) :
    Nat → Expr → Walk Expr
  | 0, _ => stop .exhausted
  | rounds + 1, left => do
    match (← peek tokens).bind operator? with
    | some op =>
      advance
      descend tokens
      let right ← operand
      chain operator? operand entered rounds (.binary op left right)
    | none =>
      restore entered
      return left

end Walk

/-- The functions that call each other. -/
inductive Rule where
  | sum
  | product
  | operand
  | power
  | primary
  /-- What follows a name that has been passed. -/
  | name (name : String)
  deriving DecidableEq

open Walk

/-- What an operand does on its own level, given how the functions are called. -/
def signed (tokens : List Lexeme) (call : Rule → Walk Expr) : Walk Expr := do
  match ← peek tokens with
  | some .minus =>
    advance
    let arg ← call .operand
    return .neg arg
  | some .plus =>
    advance
    call .operand
  | _ => call .power

/-- What a function does, given how the functions are called. -/
def perform (tokens : List Lexeme) (rounds : Nat) (call : Rule → Walk Expr) : Rule → Walk Expr
  | .sum => do
    let entered ← here
    let first ← call .product
    chain tokens Token.sumOperator? (call .product) entered.depth rounds first
  | .product => do
    let entered ← here
    let first ← call .operand
    chain tokens Token.productOperator? (call .operand) entered.depth rounds first
  | .operand => do
    descend tokens
    let expr ← signed tokens call
    ascend
    return expr
  | .power => do
    let base ← call .primary
    match ← peek tokens with
    | some .power =>
      advance
      let exponent ← call .operand
      return .binary .pow base exponent
    | _ => return base
  | .primary => do
    match ← next tokens with
    | some (.number value) => return .const value
    | some .opening =>
      let inner ← call .sum
      passClosing tokens
      return inner
    | some (.name name) => call (.name name)
    | some token =>
      back
      blame tokens (.unexpected (some token))
    | none => blame tokens (.unexpected none)
  | .name name =>
    match Symbol.ofName? name with
    | some .variable => return .var
    | some (.constant c) => return .const c.value
    | some (.function f) => do
      match ← peek tokens with
      | some .opening =>
        advance
        let arg ← call .sum
        passClosing tokens
        match Expr.call? name arg with
        | some call => return call
        | none => stop (.refused (.unknownName name))
      | _ => stop (.refused (.uncalled f))
    | none => stop (.refused (.unknownName name))

/-- Calls a function that may make so many calls within each other, itself included. -/
def walk (tokens : List Lexeme) (rounds : Nat) : Nat → Rule → Walk Expr
  | 0, _ => stop .exhausted
  | calls + 1, rule => perform tokens rounds (walk tokens rounds calls) rule

/-- Walks over all tokens of a formula. -/
def walkTokens (tokens : List Lexeme) (rounds calls : Nat) : Walk Expr := do
  let expr ← walk tokens rounds calls .sum
  match ← peek tokens with
  | some token => blame tokens (.unexpected (some token))
  | none => return expr

end Stepwise.Formula
