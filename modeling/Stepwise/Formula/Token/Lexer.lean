import Stepwise.Decimal.Read
import Stepwise.Formula.Token
import Stepwise.Text.Exponent

/-!
# Splitting a formula into tokens

A formula is read from left to right. Each token is as long as possible: `**` is one operator, a name
takes all letters, digits and underscores that follow, and a number takes all digits and points and then
an exponent. Spaces, tabs and line ends stand between tokens.
-/

namespace Stepwise.Formula

/-- Why a formula has no token at some position. -/
inductive LexFault where
  | unexpectedChar (found : Char)
  | malformedNumber (text : String)
  | numberOutOfRange (text : String)
  deriving DecidableEq

/-- Can this character stand in front of or between tokens? -/
def isGap (c : Char) : Bool :=
  c = ' ' || c = '\t' || c = '\n' || c = '\r'

/-- Can a name begin with this character? -/
def startsName (c : Char) : Bool :=
  c.isAlpha || c = '_'

/-- Can a name go on with this character? -/
def continuesName (c : Char) : Bool :=
  c.isAlphanum || c = '_'

/-- Can a number begin or go on with this character? -/
def startsNumber (c : Char) : Bool :=
  c.isDigit || c = '.'

/-- The text of the number at the front of a text. -/
def numberAtFront (text : List Char) : List Char :=
  let mantissa := text.takeWhile startsNumber
  mantissa ++ Text.exponentAtFront Char.isDigit (text.drop mantissa.length)

/-- The token of a number, which has to be well formed and within the range of doubles. -/
def Token.ofNumber (text : List Char) : Except LexFault Token :=
  match Decimal.readUnsigned? text with
  | none => .error (.malformedNumber (String.ofList text))
  | some value =>
    if value.isFinite then .ok (.number value)
    else .error (.numberOutOfRange (String.ofList text))

/-- The token at the front of a text and how many characters it takes. A gap takes one character and is
no token. -/
def frontToken (c : Char) (rest : List Char) : Except LexFault (Nat × Option Token) :=
  match c with
  | '+' => .ok (1, some .plus)
  | '-' => .ok (1, some .minus)
  | '/' => .ok (1, some .slash)
  | '^' => .ok (1, some .power)
  | '(' => .ok (1, some .opening)
  | ')' => .ok (1, some .closing)
  | '*' => if rest.head? = some '*' then .ok (2, some .power) else .ok (1, some .star)
  | c =>
    if isGap c then .ok (1, none)
    else if startsNumber c then
      let text := numberAtFront (c :: rest)
      (Token.ofNumber text).map fun token => (text.length, some token)
    else if startsName c then
      let text := (c :: rest).takeWhile continuesName
      .ok (text.length, some (.name (String.ofList text)))
    else .error (.unexpectedChar c)

/-- The tokens of what is left of a formula from a position on, after the next `skip` characters, which
belong to a token that has been read already. A fault comes with its position. -/
def lexAfter (position : Nat) : Nat → List Char → Except (Nat × LexFault) (List Lexeme)
  | _, [] => .ok []
  | skip + 1, _ :: rest => lexAfter (position + 1) skip rest
  | 0, c :: rest =>
    match frontToken c rest with
    | .error fault => .error (position, fault)
    | .ok (length, token?) =>
      match lexAfter (position + 1) (length - 1) rest with
      | .error fault => .error fault
      | .ok later =>
        match token? with
        | none => .ok later
        | some token => .ok ({ start := position, token } :: later)

/-- The tokens of a formula with their positions. -/
def lex (text : List Char) : Except (Nat × LexFault) (List Lexeme) :=
  lexAfter 0 0 text

end Stepwise.Formula
