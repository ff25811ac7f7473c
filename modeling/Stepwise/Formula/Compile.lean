import Stepwise.Formula.Brackets
import Stepwise.Formula.Error
import Stepwise.Formula.Normal
import Stepwise.Formula.Printer
import Stepwise.Formula.Token.Lexer
import Stepwise.Log

/-!
# Compiling a formula

A formula is compiled by bringing it into normal form and parsing that. As a first trial it is evaluated
at one point, unless the trial is switched off.
-/

namespace Stepwise.Formula

/-- What a fault of a token means for the formula. -/
def LexFault.cause (position : Nat) : LexFault → CompileCause
  | .unexpectedChar found => .unexpectedChar position found
  | .malformedNumber text => .invalid position (.malformedNumber text)
  | .numberOutOfRange text => .invalid position (.numberOutOfRange text)

/-- What an error of the parser means for a formula of `length` characters. -/
def ParseError.cause (length : Nat) : ParseError → CompileCause
  | .fault position reason => .invalid (position.getD length) reason
  | .unknownName name => .unknownName name
  | .uncalled f => .uncalled f

/-- Parses the characters of a formula in explicit notation. -/
def parseChars (text : List Char) : Except CompileCause Expr :=
  if text.all Text.isBlank then .error .empty
  else if !balanced text then .error .unbalancedBrackets
  else
    match lex text with
    | .error (position, fault) => .error (fault.cause position)
    | .ok tokens => (parseTokens tokens).mapError (ParseError.cause text.length)

/-- Parses a formula in explicit notation. -/
def parse (text : String) : Except CompileError Expr :=
  (parseChars text.toList).mapError fun cause => { typed := text, parsed := text, cause }

/-- A formula that has been compiled: the text as typed, its normal form, and its expression. -/
structure Compiled where
  typed : String
  normal : String
  expr : Expr
  deriving DecidableEq

/-- The point at which a formula is tried, if no other is asked for. -/
def defaultTrial : Option Float :=
  some 1.0

/-- Compiles a formula, and tries it at a point if there is one. -/
def compile (lib : Elementary) (trial : Option Float) (typed : String) :
    ExceptT CompileError Logged Compiled := do
  let normal := String.ofList (normalize typed.toList)
  Logged.note .debug ("formula '" ++ typed ++ "' normalized to '" ++ normal ++ "'")
  let expr ← match parse normal with
    | .ok expr => pure expr
    | .error error => throw (error.withTyped typed)
  Logged.note .debug ("parsed expression: " ++ expr.print)
  unless expr.usesVariable do
    Logged.note .warn ("formula '" ++ typed ++ "' does not depend on x")
  match trial with
  | none => pure ()
  | some point =>
    match expr.eval lib point with
    | .ok _ => pure ()
    | .error error => throw { typed, parsed := normal, cause := .failsAt point error }
  Logged.note .info ("compiled formula '" ++ typed ++ "'")
  return { typed, normal, expr }

end Stepwise.Formula
