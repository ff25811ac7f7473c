import Stepwise.Decimal.Layout

/-!
# Tokens

The smallest parts of a formula: numbers, names, operators and brackets.
-/

namespace Stepwise.Formula

/-- A token of a formula. -/
inductive Token where
  | number (value : Float)
  | name (text : String)
  | plus
  | minus
  | star
  | slash
  | power
  | opening
  | closing
  deriving DecidableEq

/-- A token as messages speak of it. -/
def Token.describe : Token → String
  | number value => "number " ++ Decimal.text value
  | name text => "name '" ++ text ++ "'"
  | plus => "'+'"
  | minus => "'-'"
  | star => "'*'"
  | slash => "'/'"
  | power => "'**'"
  | opening => "'('"
  | closing => "')'"

/-- A token together with the position of its first character in the formula. -/
structure Lexeme where
  start : Nat
  token : Token
  deriving DecidableEq

end Stepwise.Formula
