import Stepwise.Decimal.Exact

/-!
# The fewest digits that read back

Every decimal close enough to a double reads back as that double: the reals nearer to it than to its
neighbours, with the two ends of that interval when the mantissa is even. The shortest form of the
double is found on the coarsest grid of powers of ten that has a point in the interval. Only the two
grid points around the double itself can be there. If both are, the nearer one is taken, and the larger
one of two that are equally near.
-/

namespace Stepwise.Decimal

/-- The point of the grid of multiples of `10 ^ power` that stands for `mantissa * 2 ^ exponent`.

The ends of the interval that reads back are counted in quarters of a unit: two quarters away, or one
quarter below a power of two, where the doubles lie closer together. -/
def onGrid (mantissa : Nat) (exponent power : Int) : Option Nat :=
  let quarters := 4 * mantissa
  let gap := if mantissa = Nat.pow 2 52 ∧ -1074 < exponent then 1 else 2
  let (unit, step) := scaled 1 (exponent - 2) (-power)
  let least := (quarters - gap) * unit
  let greatest := (quarters + 2) * unit
  let readsBack (n : Nat) : Bool :=
    if mantissa % 2 = 0 then least ≤ n * step ∧ n * step ≤ greatest
    else least < n * step ∧ n * step < greatest
  let below := quarters * unit / step
  match readsBack below, readsBack (below + 1) with
  | true, true => some (if 2 * (quarters * unit - below * step) < step then below else below + 1)
  | true, false => some below
  | false, true => some (below + 1)
  | false, false => none

/-- The shortest decimal that reads back as `mantissa * 2 ^ exponent`, for a positive mantissa.

Seventeen digits always suffice, so the grids from one above the leading digit downwards are enough. -/
def shortest (mantissa : Nat) (exponent : Int) : Amount :=
  let (num, den) := scaled mantissa exponent 0
  let top := leadingPower num den + 1
  let grids := (List.range 19).map fun (k : Nat) => top - (k : Int)
  let found := grids.findSome? fun power =>
    (onGrid mantissa exponent power).map fun n => Amount.mk n power
  found.getD { units := num / den, power := 0 }

end Stepwise.Decimal
