import Stepwise.Formula.Symbol
import Stepwise.Text.Blank
import Stepwise.Text.Digit
import Stepwise.Text.Exponent
import Stepwise.Text.Replace

/-!
# The normal form of a formula

People leave out multiplication signs and write `^` for powers. The normal form of a formula is its text
with blanks removed, `^` written as `**`, and a `*` wherever a product is meant:

* between a number and a name or an opening bracket after it: `3x`, `2(x+1)`;
* between the variable or a constant and a number after it: `x2`;
* between a name that is no function and an opening bracket after it: `x(x+1)`;
* between a closing bracket and an opening one, a name or a number after it: `(x+1)(x-1)`.

A number keeps its exponent, so `1e-3` stays one number. Digits behind other letters belong to a name, so
`log10(x)` stays as it is.
-/

namespace Stepwise.Formula

/-- Is this a letter of a name? -/
def isNameLetter (c : Char) : Bool :=
  c.isAlpha || c = '_'

/-- Is this a letter or digit of a name? -/
def isNameChar (c : Char) : Bool :=
  isNameLetter c || c.isDigit

/-- The digits of the number at the front of a text, with a point if there is one. A point has to have a
digit before it or behind it. -/
def mantissaAtFront (text : List Char) : List Char :=
  let whole := text.takeWhile Text.isDecimalDigit
  match whole, text.drop whole.length with
  | [], '.' :: rest =>
    let fraction := rest.takeWhile Text.isDecimalDigit
    if fraction.isEmpty then [] else '.' :: fraction
  | [], _ => []
  | whole, '.' :: rest => whole ++ '.' :: rest.takeWhile Text.isDecimalDigit
  | whole, _ => whole

/-- The number at the front of a text, or nothing if there is none. -/
def literalAtFront (text : List Char) : List Char :=
  match mantissaAtFront text with
  | [] => []
  | mantissa =>
    mantissa ++ Text.exponentAtFront Text.isDecimalDigit (text.drop mantissa.length)

/-- Is this the name of a value, that is of the variable or of a constant? -/
def namesValue (name : List Char) : Bool :=
  match Symbol.ofName? (String.ofList name) with
  | some .variable => true
  | some (.constant _) => true
  | _ => false

/-- Is this the name of a function? -/
def namesFunction (name : List Char) : Bool :=
  (Function.ofName? (String.ofList name)).isSome

/-- Multiplies a number with the value before it and with what follows it. A piece is a run of letters,
a number behind them and one character behind that. The letters can be missing, and letters that name no
value make the number part of a name. -/
def numberProducts (text : List Char) : Text.Piece :=
  let letters := text.takeWhile isNameLetter
  let rest := text.drop letters.length
  let number := literalAtFront rest
  if number.isEmpty then Text.Piece.keep (max 1 letters.length) text
  else
    let next := ((rest.drop number.length).take 1).filter fun c => isNameLetter c || c = '('
    let length := letters.length + number.length + next.length
    if !letters.isEmpty && !namesValue letters then Text.Piece.keep length text
    else
      let before := if letters.isEmpty then [] else letters ++ ['*']
      let after := if next.isEmpty then [] else '*' :: next
      { length, written := before ++ number ++ after }

/-- Multiplies a name that is no function with the bracket after it. -/
def nameProducts (text : List Char) : Text.Piece :=
  match text with
  | [] => Text.Piece.keep 1 text
  | c :: _ =>
    if isNameLetter c then
      let name := text.takeWhile isNameChar
      match text.drop name.length with
      | '(' :: _ =>
        if namesFunction name then Text.Piece.keep (name.length + 1) text
        else { length := name.length + 1, written := name ++ ['*', '('] }
      | _ => Text.Piece.keep name.length text
    else Text.Piece.keep 1 text

/-- Multiplies a bracket with the value that follows it. -/
def bracketProducts (text : List Char) : Text.Piece :=
  match text with
  | ')' :: next :: _ =>
    if isNameChar next || next = '.' || next = '(' then
      { length := 2, written := [')', '*', next] }
    else Text.Piece.keep 1 text
  | _ => Text.Piece.keep 1 text

/-- A text without its blanks. -/
def removeBlanks (text : List Char) : List Char :=
  text.filter fun c => !Text.isBlank c

/-- A text with `^` written as `**`. -/
def expandCarets (text : List Char) : List Char :=
  text.flatMap fun c => if c = '^' then ['*', '*'] else [c]

/-- The normal form of a formula. A piece of the first rule takes the letter behind its number, so the
rule runs twice: `2x3` becomes `2*x3` and then `2*x*3`. -/
def normalize (text : List Char) : List Char :=
  let plain := expandCarets (removeBlanks text)
  let numbers := Text.replace numberProducts (Text.replace numberProducts plain)
  Text.replace bracketProducts (Text.replace nameProducts numbers)

end Stepwise.Formula
