import Stepwise.Decimal.Exact

/-!
# Reading a decimal number

The decimal notation for numbers: digits with at most one point among them and an optional exponent.
The text stands for an exact decimal, and the double read from it is the one nearest to that decimal.
-/

namespace Stepwise.Decimal

/-- The number written by decimal digits. -/
def ofDigits (digits : List Char) : Nat :=
  digits.foldl (fun total c => 10 * total + (c.toNat - '0'.toNat)) 0

/-- Splits off the digits at the front of a text. -/
def spanDigits (text : List Char) : List Char × List Char :=
  (text.takeWhile Char.isDigit, text.dropWhile Char.isDigit)

/-- Reads all of a text as a whole number with an optional sign. -/
def readExponent? (text : List Char) : Option Int :=
  let (negative, text) := match text with
    | '-' :: rest => (true, rest)
    | '+' :: rest => (false, rest)
    | rest => (false, rest)
  match spanDigits text with
  | (digits@(_ :: _), []) =>
    some (if negative then -(ofDigits digits : Int) else (ofDigits digits : Int))
  | _ => none

/-- Reads all of a text as digits, an optional point with digits, and an optional exponent. A digit has
to stand on at least one side of the point. -/
def Amount.read? (text : List Char) : Option Amount :=
  let (whole, rest) := spanDigits text
  let (fraction, rest) := match rest with
    | '.' :: after => spanDigits after
    | after => ([], after)
  if whole.isEmpty && fraction.isEmpty then none
  else
    let exponent? := match rest with
      | [] => some 0
      | e :: after => if e = 'e' ∨ e = 'E' then readExponent? after else none
    exponent?.map fun exponent =>
      { units := ofDigits (whole ++ fraction), power := exponent - fraction.length }

/-- The double nearest to an amount. -/
def Amount.toFloat (amount : Amount) : Float :=
  Float.ofScientific amount.units (amount.power < 0) amount.power.natAbs

/-- Reads an unsigned decimal. -/
def readUnsigned? (text : List Char) : Option Float :=
  (Amount.read? text).map Amount.toFloat

/-- Reads a double with an optional minus sign, `inf` and `NaN` included. -/
def read? (text : List Char) : Option Float :=
  match text with
  | ['N', 'a', 'N'] => some (0.0 / 0.0)
  | ['i', 'n', 'f'] => some (1.0 / 0.0)
  | ['-', 'i', 'n', 'f'] => some (-1.0 / 0.0)
  | '-' :: digits => (readUnsigned? digits).map (-·)
  | digits => readUnsigned? digits

end Stepwise.Decimal
