/-!
# The arithmetic of a solver

The solvers of this library are written once for every kind of number that has the operations below.
They run on doubles. On rational numbers, where nothing is rounded and nothing overflows, the same
solvers compute exactly, which tells what the method does apart from rounding.
-/

namespace Stepwise

/-- The operations that a solver computes with. -/
class Arithmetic (α : Type) extends
    Add α, Sub α, Mul α, Div α, Neg α, LT α, BEq α, OfScientific α where
  decidableLT : DecidableLT α
  magnitude : α → α
  isFinite : α → Bool
  isNaN : α → Bool

namespace Arithmetic

attribute [reducible, instance] Arithmetic.decidableLT

instance : Arithmetic Float where
  decidableLT := inferInstance
  magnitude := Float.abs
  isFinite := Float.isFinite
  isNaN := Float.isNaN

instance : Arithmetic Rat where
  decidableLT := inferInstance
  magnitude x := if x < 0 then -x else x
  isFinite _ := true
  isNaN _ := false

end Arithmetic

end Stepwise
