import Stepwise.Decimal.Rounded
import Stepwise.Decimal.Shortest

/-!
# Written forms of a double

The forms in which results, tables and messages show a double. All of them write a minus sign before a
negative number and before negative zero, `inf` for an infinity, and `NaN` without a sign.
-/

namespace Stepwise.Decimal

/-- A written form of a double. -/
inductive Layout where
  /-- The fewest digits that read back, never with an exponent: `0.0000001`, `1500`. -/
  | plain
  /-- The fewest digits that read back, one of them before the point, and the exponent: `1.5e3`. -/
  | exponential
  /-- As `plain`, but never like a whole number, and `exponential` from `10 ^ 16` on and below
  `10 ^ -4`: `1500.0`, `1e16`. -/
  | pointed
  /-- Rounded to a number of places after the point: `1500.00`. -/
  | places (count : Nat)
  /-- Rounded to a number of places after the first digit, and the exponent: `1.50e3`. -/
  | scientific (count : Nat)
  deriving DecidableEq

/-- Sets the point before the last `places` digits, with zeros in front so that a digit precedes it. -/
def setPoint (digits : List Char) (places : Nat) : List Char :=
  if places = 0 then digits
  else
    let padded := List.replicate (places + 1 - digits.length) '0' ++ digits
    let whole := padded.length - places
    padded.take whole ++ '.' :: padded.drop whole

/-- The digits of `n * 10 ^ power` without an exponent. -/
def positional (n : Nat) (power : Int) : List Char :=
  setPoint (Nat.toDigits 10 n ++ List.replicate power.toNat '0') (-power).toNat

/-- The digits with a point after the first, then `e` and the power of ten of the first. -/
def withExponent (digits : List Char) (leading : Int) : List Char :=
  let mantissa := match digits with
    | first :: second :: rest => first :: '.' :: second :: rest
    | few => few
  let exponent := Nat.toDigits 10 leading.natAbs
  mantissa ++ 'e' :: (if leading < 0 then '-' :: exponent else exponent)

/-- The shortest digits of a value in the exponential form. -/
def exponentialDigits (short : Amount) : List Char :=
  let digits := Nat.toDigits 10 short.units
  withExponent digits (short.power + digits.length - 1)

/-- The digits of the finite value `mantissa * 2 ^ exponent` in a layout. -/
def Layout.digits (layout : Layout) (mantissa : Nat) (exponent : Int) : List Char :=
  if mantissa = 0 then
    match layout with
    | .plain => ['0']
    | .exponential => ['0', 'e', '0']
    | .pointed => ['0', '.', '0']
    | .places count => setPoint ['0'] count
    | .scientific count => withExponent (List.replicate (count + 1) '0') 0
  else
    match layout with
    | .plain =>
      let short := shortest mantissa exponent
      positional short.units short.power
    | .exponential => exponentialDigits (shortest mantissa exponent)
    | .pointed =>
      let short := shortest mantissa exponent
      let leading := short.power + digitCount short.units - 1
      if leading < -4 ∨ 16 ≤ leading then exponentialDigits short
      else if short.power < 0 then positional short.units short.power
      else positional short.units short.power ++ ['.', '0']
    | .places count => setPoint (Nat.toDigits 10 (toPlaces mantissa exponent count)) count
    | .scientific count =>
      let (rounded, leading) := toLeading mantissa exponent count
      withExponent (Nat.toDigits 10 rounded) leading

/-- The minus sign of a negative number. -/
def signed (negative : Bool) (text : List Char) : List Char :=
  if negative then '-' :: text else text

/-- The characters of a double in a layout. -/
def Layout.chars (layout : Layout) (x : Float) : List Char :=
  match Exact.ofFloat x with
  | .nan => ['N', 'a', 'N']
  | .infinite negative => signed negative ['i', 'n', 'f']
  | .finite negative mantissa exponent => signed negative (layout.digits mantissa exponent)

/-- A double in a layout. -/
def Layout.write (layout : Layout) (x : Float) : String :=
  String.ofList (layout.chars x)

/-- The plain form, in which formulas, messages and files show a number. -/
def text (x : Float) : String :=
  Layout.plain.write x

end Stepwise.Decimal
