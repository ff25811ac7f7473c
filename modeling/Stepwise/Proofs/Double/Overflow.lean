import Stepwise.Proofs.Double.Operations
import Mathlib

/-!
# Quotients that overflow

A quotient of finite doubles overflows exactly if its exact value is `2 ^ 1024` or more in magnitude,
because no quotient of points of the grid is between that and the largest double. To divide a finite
double by what has overflowed gives a zero.
-/

namespace Stepwise.Double

open Float.Model (Format UnpackedFloat)
open Float.Model.UnpackedFloat

section Gap

/-- A whole number keeps away from a larger one, if one of the two has at most 53 bits. -/
lemma add_le_of_lt {p q : ℕ} (lt : p < q) (bits : p < 2 ^ 53 ∨ q ≤ 2 ^ 53) :
    2 ^ 53 * p + q ≤ 2 ^ 53 * q := by
  omega

/-- No quotient of points of the grid is between the largest double and `2 ^ 1024`. -/
lemma Fits.le_of_lt {n m : ℕ} {e k : ℤ} (fits : Fits n e) (fits' : Fits m k)
    (lt : (n * 2 ^ e : ℚ) < 2 ^ 1024 * (m * 2 ^ k)) :
    (n * 2 ^ e : ℚ) ≤ (2 ^ 53 - 1) * 2 ^ 971 * (m * 2 ^ k) := by
  -- Both sides are whole multiples of one power of two, one of them by its own mantissa.
  obtain ⟨c, i, j, rfl, scaled, aligned⟩ :
      ∃ (c : ℤ) (i j : ℕ), e = c + i ∧ k + 1024 = c + j ∧ (i = 0 ∨ j = 0) :=
    ⟨min e (k + 1024), (e - min e (k + 1024)).toNat, (k + 1024 - min e (k + 1024)).toNat, by omega,
      by omega, by omega⟩
  have unit := zpow_two_pos c
  have left : (n * 2 ^ (c + i) : ℚ) = (n * 2 ^ i : ℕ) * 2 ^ c := by
    rw [zpow_add₀ (by norm_num), zpow_natCast]
    push_cast
    ring
  have right : (2 ^ 1024 * (m * 2 ^ k) : ℚ) = (m * 2 ^ j : ℕ) * 2 ^ c := by
    have exponents : (2 ^ 1024 * 2 ^ k : ℚ) = 2 ^ c * 2 ^ j := by
      rw [← zpow_natCast, ← zpow_natCast, ← zpow_add₀ (by norm_num), ← zpow_add₀ (by norm_num), ← scaled]
      congr 1
      push_cast
      ring
    rw [mul_left_comm, exponents]
    push_cast
    ring
  have bits : n * 2 ^ i < 2 ^ 53 ∨ m * 2 ^ j ≤ 2 ^ 53 := by
    rcases aligned with rfl | rfl
    · exact .inl (by rw [pow_zero, mul_one]; exact fits.lt)
    · exact .inr (by rw [pow_zero, mul_one]; exact fits'.lt.le)
  have whole : n * 2 ^ i < m * 2 ^ j := by
    rw [left, right, mul_lt_mul_iff_left₀ unit] at lt
    exact_mod_cast lt
  have away : (2 ^ 53 * (n * 2 ^ i : ℕ) + (m * 2 ^ j : ℕ) : ℚ) * 2 ^ c ≤ 2 ^ 53 * (m * 2 ^ j : ℕ) * 2 ^ c :=
    mul_le_mul_of_nonneg_right (by exact_mod_cast add_le_of_lt whole bits) unit.le
  have split : (2 ^ 1024 : ℚ) = 2 ^ 53 * 2 ^ 971 := (pow_add 2 53 971)
  rw [split] at right
  generalize (2 ^ 971 : ℚ) = last at right ⊢
  linarith

/-- A ratio of points of the grid that is below the first overflow is at most the largest finite double. -/
lemma OnGrid.abs_le_of_lt {v w : ℚ} (hv : OnGrid v) (hw : OnGrid w) (lt : |v| < 2 ^ 1024 * |w|) :
    |v| ≤ (2 ^ 53 - 1) * 2 ^ 971 * |w| := by
  rcases hw with rfl | ⟨s', m, k, fits', rfl⟩
  · rw [abs_zero, mul_zero] at lt
    exact absurd lt (not_lt.mpr (abs_nonneg v))
  · rw [abs_signed s' (mul_zpow_two_pos fits'.pos k).le] at lt ⊢
    rcases hv with rfl | ⟨s, n, e, fits, rfl⟩
    · rw [abs_zero]
      exact mul_nonneg (mul_nonneg (by norm_num) (pow_nonneg two_pos.le _))
        (mul_zpow_two_pos fits'.pos k).le
    · rw [abs_signed s (mul_zpow_two_pos fits.pos e).le] at lt ⊢
      exact fits.le_of_lt fits' lt

end Gap

section Quotient

variable {x y : Float}

/-- A quotient is finite exactly if its exact value is in the range of doubles. -/
lemma isFinite_div_iff (hx : x.isFinite = true) (hy : y.isFinite = true) (ne : value y ≠ 0) :
    (x / y).isFinite = true ↔ |value x| < 2 ^ 1024 * |value y| := by
  have rounds := div_roundsTo hx hy ne
  have pos : 0 < |value y| := abs_pos.mpr ne
  have quotient : |value x / value y| = |value x| / |value y| := abs_div _ _
  constructor
  · intro finite
    by_contra large
    have infinite := rounds.not_isFinite (by
      rw [quotient, le_div_iff₀ pos]
      exact not_lt.mp large)
    rw [finite] at infinite
    cases infinite
  · intro lt
    have fits : Fits (2 ^ 53 - 1) 971 := ⟨by norm_num, by norm_num, by norm_num, by norm_num⟩
    have largest : OnGrid ((2 ^ 53 - 1 : ℕ) * 2 ^ (971 : ℤ)) := .inr ⟨.positive, _, _, fits, rfl⟩
    refine rounds.isFinite largest ?_ ?_
    · have cast : ((2 ^ 53 - 1 : ℕ) : ℚ) = 2 ^ 53 - 1 := by norm_num
      rw [quotient, div_le_iff₀ pos, zpow_ofNat, cast]
      exact (onGrid_value hx).abs_le_of_lt (onGrid_value hy) lt
    · rw [← zpow_natCast]
      exact fits.lt_zpow

/-- What is not finite comes back from its word. -/
lemma unpack_pack_of_not_finite {u : UnpackedFloat} (infinite : u.isFinite = false) :
    (Float.Model.pack u).unpack = u := by
  cases u with
  | notANumber => rfl
  | infinity sign => cases sign <;> rfl
  | zero sign => cases infinite
  | finite sign n e pos => cases infinite

/-- Packing keeps a zero and its sign. -/
lemma unpack_pack_zero (sign : Sign) : (Float.Model.pack (.zero sign)).unpack = .zero sign := by
  cases sign <;> rfl

/-- What has overflowed has no magnitude below any double. -/
lemma not_abs_lt (infinite : x.isFinite = false) : ¬ x.abs < y := by
  change x.toModel.unpack.isFinite = false at infinite
  rw [lt_iff]
  intro (below : (Float.Model.pack x.toModel.unpack.abs).unpack.compare y.toModel.unpack = some .lt)
  generalize x.toModel.unpack = u at infinite below
  generalize y.toModel.unpack = v at below
  cases u with
  | notANumber =>
    rw [UnpackedFloat.abs, unpack_pack_of_not_finite rfl] at below
    cases below
  | infinity sign =>
    rw [UnpackedFloat.abs, unpack_pack_of_not_finite rfl] at below
    cases v with
    | infinity sign' => cases sign' <;> cases below
    | _ => cases below
  | zero sign => cases infinite
  | finite sign n e pos => cases infinite

/-- What has overflowed stays so when it is divided. -/
lemma not_isFinite_div (infinite : x.isFinite = false) : (x / y).isFinite = false := by
  change x.toModel.unpack.isFinite = false at infinite
  change (Float.Model.pack (div Format.binary64 x.toModel.unpack y.toModel.unpack)).unpack.isFinite = false
  generalize x.toModel.unpack = u at infinite
  generalize y.toModel.unpack = v
  have overflowed : (div Format.binary64 u v).isFinite = false := by
    cases u with
    | notANumber => rfl
    | infinity sign => cases v <;> rfl
    | zero sign => cases infinite
    | finite sign n e pos => cases infinite
  rw [unpack_pack_of_not_finite overflowed]
  exact overflowed

/-- A quotient by a zero of either sign is not finite. -/
lemma not_isFinite_div_zero (zero : (y == 0.0) = true) : (x / y).isFinite = false := by
  rw [beq_iff, unpack_zero] at zero
  change (Float.Model.pack (div Format.binary64 x.toModel.unpack y.toModel.unpack)).unpack.isFinite = false
  generalize x.toModel.unpack = u
  generalize y.toModel.unpack = v at zero
  cases v with
  | notANumber => cases zero
  | infinity sign => cases sign <;> cases zero
  | zero sign =>
    have overflowed : (div Format.binary64 u (.zero sign)).isFinite = false := by cases u <;> rfl
    rw [unpack_pack_of_not_finite overflowed]
    exact overflowed
  | finite sign m k pos => cases sign <;> cases zero

/-- A quotient by a finite double other than zero is a number if what is divided is one. -/
lemma isNaN_div (number : x.isNaN = false) (hy : y.isFinite = true) (ne : value y ≠ 0) :
    (x / y).isNaN = false := by
  change x.toModel.unpack.isNaN = false at number
  change (Float.Model.pack (div Format.binary64 x.toModel.unpack y.toModel.unpack)).unpack.isNaN = false
  rw [isNaN_pack]
  rcases parts_of_isFinite hy with ⟨sign', hv⟩ | ⟨sign', m, k, pos, hv, -⟩
  · rw [value, hv] at ne
    exact absurd rfl ne
  · rw [hv]
    cases hu : x.toModel.unpack with
    | notANumber => rw [hu] at number; cases number
    | infinity sign => rfl
    | zero sign => rfl
    | finite sign n e pos' =>
      obtain ⟨_, _, _, rounding, -, -⟩ := div_eq_roundWithAccuracy sign sign' e k pos' pos
      rw [rounding]
      exact isNaN_roundWithAccuracy _ _ _ _

/-- To divide a finite double by an infinity gives a zero. -/
lemma value_div_infinite (hx : x.isFinite = true) (infinite : y.isFinite = false)
    (number : y.isNaN = false) : (x / y).isFinite = true ∧ value (x / y) = 0 := by
  change y.toModel.unpack.isFinite = false at infinite
  change y.toModel.unpack.isNaN = false at number
  have proper := proper_of_isFinite hx
  obtain ⟨sign, zero⟩ : ∃ sign, div Format.binary64 x.toModel.unpack y.toModel.unpack = .zero sign := by
    generalize x.toModel.unpack = u at proper
    generalize y.toModel.unpack = v at infinite number
    cases v with
    | notANumber => cases number
    | infinity sign' =>
      cases proper with
      | zero => exact ⟨_, rfl⟩
      | finite => exact ⟨_, rfl⟩
    | zero sign' => cases infinite
    | finite sign' m k pos => cases infinite
  have unpacked : (x / y).toModel.unpack = .zero sign := by
    change (Float.Model.pack (div Format.binary64 x.toModel.unpack y.toModel.unpack)).unpack = .zero sign
    rw [zero, unpack_pack_zero]
  change (x / y).toModel.unpack.isFinite = true ∧ valueOf (x / y).toModel.unpack = 0
  rw [unpacked]
  exact ⟨rfl, rfl⟩

end Quotient

section Exact

variable {v w : ℚ} {x y : Float}

/-- A point of the grid in the range of doubles is rounded to itself. -/
lemma RoundsTo.value_eq (h : RoundsTo v x) (grid : OnGrid v) (lt : |v| < 2 ^ 1024) :
    x.isFinite = true ∧ value x = v := by
  have finite := h.isFinite grid.abs (le_refl _) lt
  exact ⟨finite, le_antisymm (h.value_le finite grid (le_refl v)) (h.le_value finite grid (le_refl v))⟩

/-- To take away a zero changes nothing. -/
lemma value_sub_of_value_eq_zero (hx : x.isFinite = true) (hy : y.isFinite = true)
    (zero : value y = 0) : (x - y).isFinite = true ∧ value (x - y) = value x := by
  have rounds := sub_roundsTo hx hy
  rw [zero, sub_zero] at rounds
  exact rounds.value_eq (onGrid_value hx) (abs_value_lt hx)

/-- Two doubles with the same value have no difference. -/
lemma value_sub_eq_zero (hx : x.isFinite = true) (hy : y.isFinite = true)
    (same : value x = value y) : (x - y).isFinite = true ∧ value (x - y) = 0 := by
  have rounds := sub_roundsTo hx hy
  rw [same, sub_self] at rounds
  refine rounds.value_eq (.inl rfl) ?_
  rw [abs_zero]
  exact pow_pos (by norm_num) _

/-- Finite doubles are equal in the order of doubles exactly if their numbers are. -/
lemma beq_iff_value (hx : x.isFinite = true) (hy : y.isFinite = true) :
    (x == y) = true ↔ value x = value y := by
  rw [beq_iff, compare_unpack hx hy, Option.some_inj]
  exact compare_eq_iff_eq

/-- The magnitude of a finite double takes apart into its parts without their sign. -/
lemma unpack_abs (hx : x.isFinite = true) :
    x.abs.toModel.unpack = x.toModel.unpack.abs := by
  change (Float.Model.pack x.toModel.unpack.abs).unpack = _
  rcases parts_of_isFinite hx with ⟨sign, hu⟩ | ⟨sign, n, e, pos, hu, canonical⟩
  · rw [hu]
    exact unpack_pack_zero .positive
  · rw [hu]
    exact unpack_pack_of_canonical canonical

/-- The magnitude of a finite double is finite and stands for the magnitude of its number. -/
lemma value_abs (hx : x.isFinite = true) : x.abs.isFinite = true ∧ value x.abs = |value x| := by
  change x.abs.toModel.unpack.isFinite = true ∧ valueOf x.abs.toModel.unpack = |valueOf x.toModel.unpack|
  rw [unpack_abs hx]
  rcases parts_of_isFinite hx with ⟨sign, hu⟩ | ⟨sign, n, e, pos, hu, canonical⟩
  · rw [hu]
    exact ⟨rfl, abs_zero.symm⟩
  · rw [hu]
    exact ⟨rfl, (abs_signed sign (mul_zpow_two_pos pos e).le).symm⟩

/-- A zero is below exactly the doubles above zero in magnitude. -/
lemma abs_lt_iff_of_value_eq_zero (hx : x.isFinite = true) (zero : value x = 0) :
    x.abs < y ↔ 0.0 < y := by
  rw [lt_iff, lt_iff, unpack_zero, unpack_abs hx]
  rcases parts_of_isFinite hx with ⟨sign, hu⟩ | ⟨sign, n, e, pos, hu, -⟩
  · rw [hu]
    rfl
  · rw [value, hu] at zero
    have positive := abs_signed sign (mul_zpow_two_pos pos e).le
    rw [show signed sign (n * 2 ^ e) = 0 from zero, abs_zero] at positive
    exact absurd positive (mul_zpow_two_pos pos e).ne

/-- The difference of doubles within a bound is within twice the bound. -/
lemma abs_value_sub_le (hx : x.isFinite = true) (hy : y.isFinite = true) (grid : OnGrid w)
    (le : |value x| ≤ w) (le' : |value y| ≤ w) (lt : 2 * w < 2 ^ 1024) :
    (x - y).isFinite = true ∧ |value (x - y)| ≤ 2 * w := by
  have rounds := sub_roundsTo hx hy
  obtain ⟨low, high⟩ := abs_le.mp le
  obtain ⟨low', high'⟩ := abs_le.mp le'
  have bound : |value x - value y| ≤ 2 * w := abs_le.mpr ⟨by linarith, by linarith⟩
  obtain ⟨below, above⟩ := abs_le.mp bound
  have finite := rounds.isFinite grid.double bound lt
  refine ⟨finite, abs_le.mpr ⟨?_, ?_⟩⟩
  · exact rounds.le_value finite grid.double.neg below
  · exact rounds.value_le finite grid.double above

end Exact

end Stepwise.Double
