import Stepwise.Arithmetic
import Mathlib.Algebra.Order.Field.Rat
import Mathlib.Algebra.Order.Group.Unbundled.Abs
import Mathlib.Tactic.NormNum

/-!
# Rational numbers in a solver

The operations of a solver on rational numbers, in the usual terms.
-/

namespace Stepwise.Rational

/-- The magnitude of a rational number is its absolute value. -/
lemma magnitude_eq_abs (x : ℚ) : Arithmetic.magnitude x = |x| := by
  change (if x < 0 then -x else x) = |x|
  split
  case isTrue neg => exact (abs_of_neg neg).symm
  case isFalse nonneg => exact (abs_of_nonneg (not_lt.mp nonneg)).symm

/-- The literal for zero is the rational zero. -/
lemma zero_eq : (0.0 : ℚ) = 0 := by
  norm_num

/-- Rational numbers have one zero only. -/
lemma neg_zero_eq : (-0.0 : ℚ) = 0 := by
  norm_num

end Stepwise.Rational
