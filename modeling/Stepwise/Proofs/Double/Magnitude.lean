import Stepwise.Proofs.Double.Overflow
import Stepwise.Proofs.Double.Sign
import Mathlib

/-!
# Magnitudes of doubles

Doubles that are numbers are ordered by magnitude: the finite ones by their values, and the infinities of
both signs above them. A quotient is at most one in magnitude if what is divided is at most as large as
what it is divided by.
-/

namespace Stepwise.Double

open Float.Model (UnpackedFloat)

variable {x y : Float}

/-- The magnitude of a double, which is above all numbers for an infinity. -/
def size (x : Float) : WithTop ℚ :=
  if x.isFinite then (|value x| : ℚ) else ⊤

/-- The size of a finite double is the magnitude of its value. -/
lemma size_of_isFinite (finite : x.isFinite = true) : size x = (|value x| : ℚ) :=
  if_pos finite

/-- A double that is not finite is larger than all finite ones. -/
lemma size_of_not_isFinite (infinite : x.isFinite = false) : size x = ⊤ :=
  if_neg (Bool.eq_false_iff.mp infinite)

/-- What is at most as large as a finite double is finite. -/
lemma finite_of_size_le (hy : y.isFinite = true) (le : size x ≤ size y) :
    x.isFinite = true ∧ |value x| ≤ |value y| := by
  rw [size_of_isFinite hy] at le
  cases finite : x.isFinite with
  | false =>
    rw [size_of_not_isFinite finite, top_le_iff] at le
    exact absurd le (WithTop.coe_ne_top)
  | true =>
    rw [size_of_isFinite finite, WithTop.coe_le_coe] at le
    exact ⟨rfl, le⟩

/-- A finite double is below every infinity in magnitude. -/
lemma abs_lt_abs_of_infinite (hx : x.isFinite = true) (infinite : y.isFinite = false)
    (number : y.isNaN = false) : x.abs < y.abs := by
  obtain ⟨hx', -⟩ := value_abs hx
  change y.toModel.unpack.isFinite = false at infinite
  change y.toModel.unpack.isNaN = false at number
  change x.abs.toModel.unpack.isFinite = true at hx'
  have top : y.abs.toModel.unpack = .infinity .positive := by
    change (Float.Model.pack y.toModel.unpack.abs).unpack = _
    cases hy : y.toModel.unpack with
    | notANumber => rw [hy] at number; cases number
    | infinity sign => exact unpack_pack_of_not_finite rfl
    | zero sign => rw [hy] at infinite; cases infinite
    | finite sign m k pos => rw [hy] at infinite; cases infinite
  rw [lt_iff, top]
  cases hu : x.abs.toModel.unpack with
  | notANumber => rw [hu] at hx'; cases hx'
  | infinity sign => rw [hu] at hx'; cases hx'
  | zero sign => rfl
  | finite sign n e pos => cases sign <;> rfl

/-- Doubles are compared in magnitude like their sizes. Only what is not a number is below nothing. -/
lemma abs_lt_abs_iff (hy : y.isNaN = false) : x.abs < y.abs ↔ size x < size y := by
  cases finite : x.isFinite with
  | false =>
    rw [size_of_not_isFinite finite]
    exact iff_of_false (not_abs_lt finite) not_top_lt
  | true =>
    rw [size_of_isFinite finite]
    cases finite' : y.isFinite with
    | false =>
      rw [size_of_not_isFinite finite']
      exact iff_of_true (abs_lt_abs_of_infinite finite finite' hy) (WithTop.coe_lt_top _)
    | true =>
      obtain ⟨hx', value_x⟩ := value_abs finite
      obtain ⟨hy', value_y⟩ := value_abs finite'
      rw [size_of_isFinite finite', lt_iff_value hx' hy', value_x, value_y, WithTop.coe_lt_coe]

/-- Numbers whose sizes are in order have magnitudes in this order. -/
lemma abs_le_abs (hx : x.isNaN = false) (hy : y.isNaN = false) (le : size x ≤ size y) : x.abs ≤ y.abs :=
  le_of_not_lt_of_isNaN ((isNaN_abs y).trans hy) ((isNaN_abs x).trans hx)
    (mt (abs_lt_abs_iff hx).mp le.not_gt)

/-- The double `1.0` stands for one. -/
lemma value_one : value 1.0 = 1 := by
  have unpacked : (1.0 : Float).toModel.unpack = .finite .positive (2 ^ 52) (-52) (by norm_num) := by
    rfl
  rw [value, unpacked, valueOf, signed]
  norm_num

/-- A quotient is at most one in magnitude if no more is divided than what it is divided by. -/
lemma abs_div_le_one (hx : x.isFinite = true) (hy : y.isFinite = true) (nonzero : (y == 0.0) = false)
    (le : |value x| ≤ |value y|) : (x / y).abs ≤ 1.0 := by
  have ne : value y ≠ 0 := fun zero =>
    Bool.false_ne_true (nonzero.symm.trans ((beq_iff_value hy rfl).mpr (by rw [zero]; rfl)))
  have rounds := div_roundsTo hx hy ne
  have grid : OnGrid 1 := by simpa using onGrid_two_pow 0
  have quotient : |value x / value y| ≤ 1 := by
    rw [abs_div]
    exact div_le_one_of_le₀ le (abs_nonneg _)
  obtain ⟨low, high⟩ := abs_le.mp quotient
  have finite := rounds.isFinite grid quotient (one_lt_pow₀ (by norm_num) (by norm_num))
  obtain ⟨finite', value_eq⟩ := value_abs finite
  rw [le_iff_value finite' rfl, value_eq, value_one]
  exact abs_le.mpr ⟨rounds.le_value finite grid.neg low, rounds.value_le finite grid high⟩

end Stepwise.Double
