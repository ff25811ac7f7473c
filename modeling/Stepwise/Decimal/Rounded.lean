import Stepwise.Decimal.Exact

/-!
# Rounding to a given number of digits

A double written with a fixed number of digits is the nearest decimal of that form to its exact value,
and a value half way between two goes to the one whose last digit is even.
-/

namespace Stepwise.Decimal

/-- The whole number nearest to `num / den`, a half going to the even neighbour. -/
def roundHalfEven (num den : Nat) : Nat :=
  let below := num / den
  let rest := num % den
  if 2 * rest < den then below
  else if den < 2 * rest then below + 1
  else below + below % 2

/-- `mantissa * 2 ^ exponent` in units of `10 ^ -places`. -/
def toPlaces (mantissa : Nat) (exponent : Int) (places : Nat) : Nat :=
  let (num, den) := scaled mantissa exponent places
  roundHalfEven num den

/-- A positive value rounded to `places + 1` digits, with the power of ten of the first of them. -/
def toLeading (mantissa : Nat) (exponent : Int) (places : Nat) : Nat × Int :=
  let (num, den) := scaled mantissa exponent 0
  let leading := leadingPower num den
  let (num, den) := scaled mantissa exponent (places - leading)
  let rounded := roundHalfEven num den
  if rounded = Nat.pow 10 (places + 1) then (Nat.pow 10 places, leading + 1) else (rounded, leading)

end Stepwise.Decimal
