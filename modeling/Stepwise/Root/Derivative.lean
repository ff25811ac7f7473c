import Stepwise.Arithmetic

/-!
# Numerical derivatives

The slope of a function at a point, taken from its values on both sides of the point.
-/

namespace Stepwise.Root

variable {ε α : Type} [Arithmetic α]

/-- The slope of the line through the points of a function at `x + h` and `x - h`. -/
def centralDifference (f : α → Except ε α) (x h : α) : Except ε α := do
  let forward ← f (x + h)
  let backward ← f (x - h)
  return (forward - backward) / (2.0 * h)

/-- The slope of a function over the usual distance of a millionth on both sides. -/
def derivative (f : α → Except ε α) (x : α) : Except ε α :=
  centralDifference f x 1e-6

end Stepwise.Root
