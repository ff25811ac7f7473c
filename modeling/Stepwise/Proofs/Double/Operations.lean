import Stepwise.Proofs.Double.Grid
import Stepwise.Proofs.Double.Special
import Mathlib

/-!
# Sums, differences and quotients of doubles

The sum, the difference and the quotient of finite doubles are the exact results rounded on the grid. So
bounds pass from the exact results to the doubles, and a result overflows exactly if what it is rounded
to is `2 ^ 1024` or more in magnitude. In particular the midpoint of an interval lies in the interval,
if the sum of the ends does not overflow.
-/

namespace Stepwise.Double

open Float.Model (Format UnpackedFloat)
open Float.Model.UnpackedFloat

/-- A double that a number is rounded to. -/
def RoundsTo (v : ℚ) (x : Float) : Prop :=
  ∃ u, Rounded v u ∧ x.toModel = .pack u

section Pack

/-- Parts of a point of the grid come back from their word, unless the point is outside the range of
doubles. -/
lemma Proper.pack_cases {u : UnpackedFloat} (h : Proper u) :
    |valueOf u| < 2 ^ 1024 ∧ (Float.Model.pack u).unpack = u ∨
      2 ^ 1024 ≤ |valueOf u| ∧ (Float.Model.pack u).unpack.isFinite = false := by
  cases h with
  | @zero sign =>
    refine .inl ⟨?_, ?_⟩
    · rw [valueOf_zero, abs_zero]
      exact pow_pos (by norm_num) _
    · cases sign <;> rfl
  | @finite sign n e pos fits =>
    have abs_eq : |valueOf (.finite sign n e pos)| = n * 2 ^ e :=
      abs_signed sign (mul_zpow_two_pos pos e).le
    rw [abs_eq]
    by_cases high : e ≤ 971
    · refine .inl ⟨?_, unpack_pack_of_canonical ⟨fits.pos, fits.lt, fits.low, high, fits.full⟩⟩
      rw [← zpow_natCast]
      exact lt_of_lt_of_le fits.lt_zpow (zpow_le_zpow_right₀ (by norm_num) (by push_cast; omega))
    · refine .inr ⟨?_, ?_⟩
      · have full : 2 ^ 52 ≤ n := fits.full.resolve_right (by omega)
        rw [← zpow_natCast]
        exact (zpow_le_zpow_right₀ (by norm_num) (by push_cast; omega)).trans (Fits.zpow_le full e)
      · change (unpack Format.binary64 (pack Format.binary64 _)).isFinite = false
        rw [pack_finite, if_pos (by omega)]
        cases sign <;> rfl

/-- A finite double stands for a number below the two that would be infinite. -/
lemma abs_value_lt {x : Float} (h : x.isFinite = true) : |value x| < 2 ^ 1024 := by
  rcases parts_of_isFinite h with ⟨sign, hu⟩ | ⟨sign, n, e, pos, hu, canonical⟩
  · rw [value, hu, valueOf_zero, abs_zero]
    exact pow_pos (by norm_num) _
  · have high := canonical.high
    rw [value, hu, valueOf, abs_signed sign (mul_zpow_two_pos pos e).le, ← zpow_natCast]
    exact lt_of_lt_of_le canonical.fits.lt_zpow
      (zpow_le_zpow_right₀ (by norm_num) (by push_cast; omega))

/-- The powers of two with a natural exponent lie on the grid. -/
lemma onGrid_two_pow (k : ℕ) : OnGrid (2 ^ k) := by
  have fits : Fits (2 ^ 52) (k - 52) := ⟨by norm_num, by norm_num, by omega, .inl (le_refl _)⟩
  refine .inr ⟨.positive, _, _, fits, ?_⟩
  rw [signed, Nat.cast_pow, Nat.cast_ofNat, ← zpow_natCast, ← zpow_natCast, ← zpow_add₀ (by norm_num)]
  congr 1
  push_cast
  ring

namespace RoundsTo

variable {v w : ℚ} {x : Float}

/-- What is rounded to a point in the range of doubles has that point as its value. -/
lemma cases (h : RoundsTo v x) :
    (∃ r, Near v r ∧ OnGrid r ∧
      (x.isFinite = true ∧ value x = r ∨ 2 ^ 1024 ≤ |r| ∧ x.isFinite = false)) := by
  obtain ⟨u, rounded, model⟩ := h
  refine ⟨valueOf u, rounded.near, rounded.proper.onGrid, ?_⟩
  rw [value, model]
  change (x.toModel.unpack.isFinite = true ∧ _) ∨ _ ∧ x.toModel.unpack.isFinite = false
  rw [model]
  rcases rounded.proper.pack_cases with ⟨lt, same⟩ | ⟨ge, infinite⟩
  · rw [same]
    refine .inl ⟨?_, rfl⟩
    cases rounded.proper <;> rfl
  · exact .inr ⟨ge, infinite⟩

/-- A point of the grid below a number is not above the double that the number is rounded to. -/
lemma le_value (h : RoundsTo v x) (finite : x.isFinite = true) (grid : OnGrid w) (le : w ≤ v) :
    w ≤ value x := by
  obtain ⟨r, near, -, ⟨-, rfl⟩ | ⟨-, infinite⟩⟩ := h.cases
  · exact (near w grid).1 le
  · rw [finite] at infinite
    cases infinite

/-- Rounding does not pass a number of the grid that lies above. -/
lemma value_le (h : RoundsTo v x) (finite : x.isFinite = true) (grid : OnGrid w) (le : v ≤ w) :
    value x ≤ w := by
  obtain ⟨r, near, -, ⟨-, rfl⟩ | ⟨-, infinite⟩⟩ := h.cases
  · exact (near w grid).2 le
  · rw [finite] at infinite
    cases infinite

/-- A number within the range of doubles does not overflow. -/
lemma isFinite (h : RoundsTo v x) (grid : OnGrid w) (le : |v| ≤ w) (lt : w < 2 ^ 1024) :
    x.isFinite = true := by
  obtain ⟨r, near, -, ⟨finite, -⟩ | ⟨ge, -⟩⟩ := h.cases
  · exact finite
  · have bound : |r| ≤ w := by
      obtain ⟨low, high⟩ := abs_le.mp le
      exact abs_le.mpr ⟨(near (-w) grid.neg).1 low, (near w grid).2 high⟩
    exact absurd (ge.trans bound) (not_le.mpr lt)

/-- A number beyond the range of doubles overflows. -/
lemma not_isFinite (h : RoundsTo v x) (ge : 2 ^ 1024 ≤ |v|) : x.isFinite = false := by
  have grid := onGrid_two_pow 1024
  obtain ⟨r, near, -, ⟨finite, rfl⟩ | ⟨-, infinite⟩⟩ := h.cases
  · -- A finite double is inside the range, but rounding does not come back from beyond it.
    obtain ⟨low, high⟩ := abs_lt.mp (abs_value_lt finite)
    rcases le_abs.mp ge with above | below
    · exact absurd ((near _ grid).1 above) (not_le.mpr high)
    · exact absurd ((near _ grid.neg).2 (le_neg.mpr below)) (not_le.mpr low)
  · exact infinite

end RoundsTo

end Pack

section Operations

/-- A finite double takes apart into proper parts. -/
lemma proper_of_isFinite {x : Float} (h : x.isFinite = true) : Proper x.toModel.unpack := by
  rcases parts_of_isFinite h with ⟨sign, hu⟩ | ⟨sign, n, e, pos, hu, canonical⟩
  · rw [hu]
    exact .zero
  · rw [hu]
    exact .finite canonical.fits

/-- The number of a finite double lies on the grid. -/
lemma onGrid_value {x : Float} (h : x.isFinite = true) : OnGrid (value x) :=
  (proper_of_isFinite h).onGrid

/-- Shifting to the left adds the shift to the binary logarithm. -/
lemma log2_shiftLeft {n : ℕ} (pos : 0 < n) (k : ℕ) : (n <<< k).log2 = n.log2 + k := by
  have shifted : n <<< k ≠ 0 := by
    rw [Nat.shiftLeft_eq]
    exact (Nat.mul_pos pos (Nat.two_pow_pos k)).ne'
  rw [Nat.log2_eq_iff shifted, Nat.shiftLeft_eq]
  constructor
  · rw [Nat.pow_add]
    exact Nat.mul_le_mul_right _ (Nat.log2_self_le pos.ne')
  · rw [Nat.add_right_comm, Nat.pow_add]
    exact Nat.mul_lt_mul_of_pos_right Nat.lt_log2_self (Nat.two_pow_pos k)

/-- Rounding a whole multiple of a power of two. -/
lemma rounded_round (sign : Sign) {n : ℕ} (pos : 0 < n) (e : ℤ) :
    Rounded (signed sign (n * 2 ^ e)) (round Format.binary64 sign n e) := by
  unfold UnpackedFloat.round decreaseExponent
  dsimp only
  rw [targetExponent_totalExponent]
  generalize shift_eq : (e - fitted n e).toNat = shift
  refine rounded_roundWithAccuracy sign ?_ ?_
  · rw [Stands, Nat.shiftLeft_eq, Nat.cast_mul, Nat.cast_pow, Nat.cast_ofNat, ← zpow_natCast,
      zpow_sub₀ (by norm_num)]
    field_simp
  · rw [fitted] at shift_eq ⊢
    rw [log2_shiftLeft pos]
    push_cast
    omega

/-- An integer mantissa with an exponent is normalized to the rounding of the number the two stand for. -/
lemma rounded_normalize (n e : ℤ) :
    Rounded (n * 2 ^ e) (normalize Format.binary64 n e .positive) := by
  unfold UnpackedFloat.normalize
  split
  case h_1 lt =>
    have neg := Int.compare_eq_lt.mp lt
    obtain ⟨m, e'⟩ := Int.eq_ofNat_of_zero_le (show 0 ≤ -n by omega)
    obtain rfl := neg_eq_iff_eq_neg.mp e'
    have value : (((-(m : ℤ) : ℤ) : ℚ) * 2 ^ e) = signed .negative (m * 2 ^ e) := by
      rw [signed, Int.cast_neg, Int.cast_natCast, neg_mul]
    rw [value, neg_neg, Int.toNat_natCast]
    exact rounded_round .negative (by omega) e
  case h_2 eq =>
    rw [Int.compare_eq_eq.mp eq, Int.cast_zero, zero_mul]
    exact (@Proper.zero .positive).rounded
  case h_3 gt =>
    have pos := Int.compare_eq_gt.mp gt
    obtain ⟨m, rfl⟩ := Int.eq_ofNat_of_zero_le pos.le
    rw [Int.cast_natCast, Int.toNat_natCast]
    exact rounded_round .positive (by omega) e

/-- Adding proper parts rounds the sum of their numbers. -/
lemma rounded_add {u v : UnpackedFloat} (hu : Proper u) (hv : Proper v) :
    Rounded (valueOf u + valueOf v) (add Format.binary64 u v) := by
  cases hu with
  | @zero s =>
    cases hv with
    | @zero s' =>
      have zero (sign : Sign) : Rounded (0 + 0) (.zero sign) := by
        rw [add_zero]
        exact (@Proper.zero sign).rounded
      cases s <;> cases s' <;> exact zero _
    | finite fits =>
      rw [valueOf_zero, zero_add]
      exact (Proper.finite fits).rounded
  | @finite s n e pos fits =>
    cases hv with
    | zero =>
      rw [valueOf_zero, add_zero]
      exact (Proper.finite fits).rounded
    | @finite s' m k pos' fits' =>
      -- Both mantissas are brought to the smaller exponent, where they are added exactly.
      have scaled (sign : Sign) (n : ℕ) {e least : ℤ} (le : least ≤ e) :
          ((sign.apply (n <<< (e - least).toNat : ℕ) : ℤ) : ℚ) * 2 ^ least = signed sign (n * 2 ^ e) := by
        obtain ⟨shift, rfl⟩ : ∃ shift : ℕ, e = least + shift :=
          ⟨(e - least).toNat, by omega⟩
        rw [apply_eq_signed, add_sub_cancel_left, Int.toNat_natCast, Nat.shiftLeft_eq, zpow_add₀ (by norm_num),
          Nat.cast_mul, Nat.cast_pow, Nat.cast_ofNat, zpow_natCast]
        cases sign with
        | positive => rw [signed, signed]; ring
        | negative => rw [signed, signed]; ring
      have rounded := rounded_normalize
        (s.apply (n <<< (e - min e k).toNat : ℕ) + s'.apply (m <<< (k - min e k).toNat : ℕ)) (min e k)
      rw [Int.cast_add, add_mul, scaled s n (min_le_left e k), scaled s' m (min_le_right e k)] at rounded
      exact rounded

/-- Subtracting is adding the negated double. -/
lemma sub_eq_add_negated {u v : UnpackedFloat} (hu : Proper u) (hv : Proper v) :
    sub Format.binary64 u v = add Format.binary64 u v.neg := by
  cases hu with
  | zero => cases hv <;> rfl
  | finite =>
    cases hv with
    | zero => rfl
    | @finite s' =>
      cases s' with
      | positive => rfl
      | negative =>
        simp only [sub, add, UnpackedFloat.neg, Sign.apply]
        congr 1
        exact sub_neg_eq_add _ _

/-- Changing the sign of proper parts changes the sign of their number. -/
lemma Proper.neg {v : UnpackedFloat} (h : Proper v) : Proper v.neg ∧ valueOf v.neg = -valueOf v := by
  cases h with
  | zero => exact ⟨.zero, neg_zero.symm⟩
  | finite fits => exact ⟨.finite fits, signed_neg _ _⟩

variable {x y : Float}

/-- The sum of finite doubles is the rounding of the sum of their numbers. -/
lemma add_roundsTo (hx : x.isFinite = true) (hy : y.isFinite = true) :
    RoundsTo (value x + value y) (x + y) :=
  ⟨_, rounded_add (proper_of_isFinite hx) (proper_of_isFinite hy), rfl⟩

/-- The difference of finite doubles is the rounding of the difference of their numbers. -/
lemma sub_roundsTo (hx : x.isFinite = true) (hy : y.isFinite = true) :
    RoundsTo (value x - value y) (x - y) := by
  have proper := proper_of_isFinite hx
  obtain ⟨proper', value_neg⟩ := (proper_of_isFinite hy).neg
  refine ⟨_, ?_, congrArg Float.Model.pack (sub_eq_add_negated proper (proper_of_isFinite hy))⟩
  have rounded := rounded_add proper proper'
  rw [value_neg, ← sub_eq_add_neg] at rounded
  exact rounded

/-- The quotient of finite doubles is the rounding of the quotient of their numbers, when the divisor is not
zero. -/
lemma div_roundsTo (hx : x.isFinite = true) (hy : y.isFinite = true) (ne : value y ≠ 0) :
    RoundsTo (value x / value y) (x / y) := by
  rw [value] at ne
  refine ⟨div Format.binary64 x.toModel.unpack y.toModel.unpack, ?_, rfl⟩
  rw [value, value]
  have proper := proper_of_isFinite hx
  have proper' := proper_of_isFinite hy
  generalize x.toModel.unpack = u at proper ⊢
  generalize y.toModel.unpack = v at proper' ne ⊢
  cases proper' with
  | zero => exact absurd rfl ne
  | @finite s' m k pos' fits' =>
    cases proper with
    | @zero s =>
      rw [valueOf_zero, zero_div]
      exact (@Proper.zero (s / s')).rounded
    | @finite s n e pos fits =>
      obtain ⟨_, _, _, rounding, stands, enough⟩ := div_eq_roundWithAccuracy s s' e k pos pos'
      have quotient : signed s (n * 2 ^ e) / signed s' (m * 2 ^ k) =
          signed (s / s') (n * 2 ^ e / (m * 2 ^ k)) := by
        cases s <;> cases s'
        · exact neg_div_neg_eq _ _
        · exact neg_div _ _
        · exact div_neg _
        · rfl
      rw [rounding, valueOf, valueOf, quotient]
      exact rounded_roundWithAccuracy (s / s') stands enough

end Operations

section Midpoint

variable {x y : Float}

/-- The literal that halves an interval stands for two. -/
lemma value_two : value 2.0 = 2 := by
  have unpacked : (2.0 : Float).toModel.unpack = .finite .positive (2 ^ 52) (-51) (by norm_num) := by
    rfl
  rw [value, unpacked, valueOf, signed]
  norm_num

/-- The half of a finite double is the rounding of half of its number. -/
lemma half_roundsTo (hx : x.isFinite = true) : RoundsTo (value x / 2) (x / 2.0) := by
  have rounds := div_roundsTo (y := 2.0) hx rfl (by rw [value_two]; norm_num)
  rwa [value_two] at rounds

/-- Halving a finite double does not overflow. -/
lemma isFinite_half (hx : x.isFinite = true) : (x / 2.0).isFinite = true := by
  refine (half_roundsTo hx).isFinite (onGrid_value hx).abs ?_ (abs_value_lt hx)
  rw [abs_div, abs_of_pos (by norm_num : (0 : ℚ) < 2)]
  exact half_le_self (abs_nonneg _)

/-- Halving brings nothing back from beyond the range of doubles. -/
lemma isFinite_of_half (h : (x / 2.0).isFinite = true) : x.isFinite = true := by
  change (Float.Model.pack
    (div Format.binary64 x.toModel.unpack (2.0 : Float).toModel.unpack)).unpack.isFinite = true at h
  change x.toModel.unpack.isFinite = true
  cases hu : x.toModel.unpack with
  | notANumber => rw [hu] at h; cases h
  | infinity sign => rw [hu] at h; cases sign <;> cases h
  | zero sign => rfl
  | finite sign n e pos => rfl

/-- The midpoint of an interval lies in the interval, if the sum of the ends does not overflow. -/
lemma midpoint_inside (hx : x.isFinite = true) (hy : y.isFinite = true) (le : x ≤ y)
    (sum : (x + y).isFinite = true) : x ≤ (x + y) / 2.0 ∧ (x + y) / 2.0 ≤ y := by
  have finite := isFinite_half sum
  have le' := (le_iff_value hx hy).mp le
  -- Twice an end is a point of the grid, so the rounded sum is still between twice the ends.
  have low := (add_roundsTo hx hy).le_value sum (onGrid_value hx).double (by linarith)
  have high := (add_roundsTo hx hy).value_le sum (onGrid_value hy).double (by linarith)
  constructor
  · rw [le_iff_value hx finite]
    exact (half_roundsTo sum).le_value finite (onGrid_value hx) (by linarith)
  · rw [le_iff_value finite hy]
    exact (half_roundsTo sum).value_le finite (onGrid_value hy) (by linarith)

end Midpoint

end Stepwise.Double
