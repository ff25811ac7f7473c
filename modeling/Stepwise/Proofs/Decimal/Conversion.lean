import Stepwise.Decimal.Read
import Stepwise.Proofs.Double.Rounding
import Mathlib

/-!
# Converting a decimal to a double

The conversion has a fast path, for numbers and powers of ten that are doubles themselves, and a slow one.
On both of them a decimal in the cell of a double ends in that double.
-/

namespace Stepwise.Double

open Float.Model (Format UnpackedFloat totalExponent)
open Float.Model.UnpackedFloat

/-- A number shifted to the left until its mantissa is full. -/
def filled (n : ℕ) : ℕ :=
  n <<< (52 - n.log2)

section Whole

variable {n : ℕ} (pos : 0 < n)
include pos

/-- A filled mantissa has its highest bit set. -/
lemma le_filled : 2 ^ 52 ≤ filled n := by
  rw [filled, Nat.shiftLeft_eq]
  calc 2 ^ 52 ≤ 2 ^ (n.log2 + (52 - n.log2)) := Nat.pow_le_pow_right (by norm_num) (by omega)
    _ = 2 ^ n.log2 * 2 ^ (52 - n.log2) := Nat.pow_add ..
    _ ≤ n * 2 ^ (52 - n.log2) := Nat.mul_le_mul_right _ (Nat.log2_self_le pos.ne')

/-- A filled mantissa is not zero. -/
lemma filled_pos : 0 < filled n :=
  lt_of_lt_of_le (by norm_num) (le_filled pos)

/-- A number of at most 53 bits, times a power of two, is a double. -/
lemma canonical_filled (lt : n < 2 ^ 53) {k : ℤ} (low : -1022 ≤ k) (high : k ≤ 971) :
    Canonical (filled n) (k + n.log2 - 52) := by
  have log_lt : n.log2 < 53 := (Nat.log2_lt pos.ne').mpr lt
  refine ⟨filled_pos pos, ?_, by omega, by omega, .inl (le_filled pos)⟩
  rw [filled, Nat.shiftLeft_eq]
  calc n * 2 ^ (52 - n.log2) < 2 ^ (n.log2 + 1) * 2 ^ (52 - n.log2) :=
        Nat.mul_lt_mul_of_pos_right Nat.lt_log2_self (Nat.two_pow_pos _)
    _ = 2 ^ (n.log2 + 1 + (52 - n.log2)) := (Nat.pow_add ..).symm
    _ = 2 ^ 53 := by congr 1; omega

/-- Filling a mantissa does not change the value, as the exponent makes up for the shift. -/
lemma filled_value (lt : n < 2 ^ 53) (k : ℤ) :
    (filled n : ℚ) * 2 ^ (k + n.log2 - 52) = n * 2 ^ k := by
  have log_lt : n.log2 < 53 := (Nat.log2_lt pos.ne').mpr lt
  rw [filled, Nat.shiftLeft_eq, Nat.cast_mul, Nat.cast_pow, Nat.cast_ofNat, ← zpow_natCast, mul_assoc,
    ← zpow_add₀ (by norm_num)]
  congr 2
  omega

end Whole

/-- The value of a mantissa and an exponent is rounded to these themselves. -/
lemma Cell.self (n : ℕ) (e : ℤ) : Cell n e (n * 2 ^ e) := by
  have value : (n * 2 ^ e / 2 ^ e : ℚ) = n := mul_div_cancel_right₀ _ (zpow_two_pos e).ne'
  refine ⟨?_, ?_⟩
  · rw [value]
    exact Nearest.self n
  · rintro rfl -
    rw [value]
    norm_num

/-- A positive double with a full mantissa has a value. -/
def Full (x : Float) (value : ℚ) : Prop :=
  ∃ n e pos, x.toModel.unpack = .finite .positive n e pos ∧ 2 ^ 52 ≤ n ∧ n * 2 ^ e = value

/-- A number of at most 53 bits, times a power of two, is packed without rounding. -/
lemma full_pack_filled {n : ℕ} (pos : 0 < n) (lt : n < 2 ^ 53) {k : ℤ} (low : -1022 ≤ k)
    (high : k ≤ 971) :
    Full (.ofModel (.pack (.finite .positive (filled n) (k + n.log2 - 52) (filled_pos pos))))
      (n * 2 ^ k) :=
  ⟨filled n, k + n.log2 - 52, filled_pos pos,
    unpack_pack_of_canonical (canonical_filled pos lt low high), le_filled pos, filled_value pos lt k⟩

/-- A whole number of at most 53 bits becomes a double without rounding. -/
lemma full_toFloat {n : ℕ} (pos : 0 < n) (lt : n < 2 ^ 53) : Full n.toUInt64.toFloat n := by
  have log_lt : n.log2 < 53 := (Nat.log2_lt pos.ne').mpr lt
  have word : n.toUInt64.toNat = n := Nat.mod_eq_of_lt (by omega)
  have rounded : UnpackedFloat.ofNat Format.binary64 n =
      .finite .positive (filled n) (0 + n.log2 - 52) (filled_pos pos) := by
    have positive : compare (n : ℤ) 0 = .gt := Int.compare_eq_gt.mpr (by omega)
    have canonical := canonical_filled pos lt (k := 0) (by norm_num) (by norm_num)
    unfold UnpackedFloat.ofNat UnpackedFloat.ofInt UnpackedFloat.normalize
    rw [positive]
    dsimp only
    -- The mantissa is filled up before it is rounded, and then nothing is cut off.
    unfold UnpackedFloat.round decreaseExponent
    dsimp only
    rw [Int.toNat_natCast, targetExponent_totalExponent, fitted,
      show (0 - max (n.log2 + 0 - 52 : ℤ) (-1074)).toNat = 52 - n.log2 by omega,
      show 0 - ((52 - n.log2 : ℕ) : ℤ) = 0 + n.log2 - 52 by omega]
    refine roundWithAccuracy_of_cell canonical (Cell.self _ _) ?_ canonical.fitted_eq.ge
    exact mul_div_cancel_right₀ _ (zpow_two_pos _).ne'
  have full := full_pack_filled pos lt (k := 0) (by norm_num) (by norm_num)
  rw [zpow_zero, mul_one, ← rounded] at full
  change Full (.ofModel (.pack (UnpackedFloat.ofNat Format.binary64 n.toUInt64.toNat))) n
  rwa [word]

/-- Each entry of the table of powers of ten is a power of five with a full mantissa, times a power of two.
-/
lemma exactlyRepresentablePowersOfTen_eq (k : Fin Float.exactlyRepresentablePowersOfTen.size) :
    Float.exactlyRepresentablePowersOfTen[k] =
      .ofModel (.pack (.finite .positive (filled (5 ^ k.val)) (k.val + (5 ^ k.val).log2 - 52)
        (filled_pos (Nat.pow_pos (by norm_num))))) := by
  decide +kernel +revert

/-- Each entry of the table of powers of ten is exactly that power. -/
lemma full_powerOfTen (k : Fin Float.exactlyRepresentablePowersOfTen.size) :
    Full Float.exactlyRepresentablePowersOfTen[k] (10 ^ k.val) := by
  have k_lt : k.val < 23 := k.isLt
  have pos : 0 < 5 ^ k.val := Nat.pow_pos (by norm_num)
  have lt : 5 ^ k.val < 2 ^ 53 := by
    refine lt_of_le_of_lt (Nat.pow_le_pow_right (by norm_num) (Nat.le_of_lt_succ k_lt)) ?_
    norm_num
  have value : ((5 ^ k.val : ℕ) * 2 ^ (k.val : ℤ) : ℚ) = 10 ^ k.val := by
    rw [zpow_natCast, Nat.cast_pow, ← mul_pow]
    norm_num
  rw [exactlyRepresentablePowersOfTen_eq, ← value]
  exact full_pack_filled pos lt (by omega) (by omega)

section Scientific

variable {n units : ℕ} {e power : ℤ}

/-- What lies in a cell is between the least double and the greatest one. -/
lemma Cell.between {value : ℚ} (cell : Cell n e value) (canonical : Canonical n e) :
    2 ^ (-1075 : ℤ) ≤ value ∧ value < 2 ^ (1024 : ℤ) := by
  have low := canonical.low
  have high := canonical.high
  have least := cell.nearest.bounds.1
  have one_le : (1 : ℚ) ≤ n := by exact_mod_cast canonical.pos
  constructor
  · calc (2 : ℚ) ^ (-1075 : ℤ) ≤ 2 ^ (-1 + e) := zpow_le_zpow_right₀ (by norm_num) (by omega)
      _ = 1 / 2 * 2 ^ e := by rw [zpow_add₀ (by norm_num)]; norm_num
      _ ≤ value := (le_div_iff₀ (zpow_two_pos e)).mp (by linarith)
  · calc value < 2 ^ (53 + e) := cell.value_lt canonical
      _ ≤ 2 ^ (1024 : ℤ) := zpow_le_zpow_right₀ (by norm_num) (by omega)

/-- A power of ten is a power of two times a power of five. -/
lemma zpow_ten_eq (power : ℤ) : (10 : ℚ) ^ power = 2 ^ power * 5 ^ power := by
  rw [← mul_zpow]
  norm_num

/-- Powers of ten are positive. -/
lemma zpow_ten_pos (power : ℤ) : (0 : ℚ) < 10 ^ power :=
  zpow_pos (by norm_num) power

/-- A decimal that is rounded to a positive double is not zero. -/
lemma Cell.units_pos (cell : Cell n e (units * 10 ^ power)) (canonical : Canonical n e) : 0 < units := by
  have pos : (0 : ℚ) < units * 10 ^ power :=
    lt_of_lt_of_le (zpow_two_pos _) (cell.between canonical).1
  exact_mod_cast (mul_pos_iff_of_pos_right (zpow_ten_pos power)).mp pos

/-- A power of ten that is too large to be computed is far above all cells. -/
lemma Cell.power_le (cell : Cell n e (units * 10 ^ power)) (canonical : Canonical n e) :
    power ≤ 2 ^ 11 := by
  by_contra! huge
  have one_le : (1 : ℚ) ≤ units := by exact_mod_cast cell.units_pos canonical
  have five : (1 : ℚ) ≤ 5 ^ power := one_le_zpow₀ (by norm_num) (by omega)
  refine absurd (cell.between canonical).2 (not_lt.mpr ?_)
  calc (2 : ℚ) ^ (1024 : ℤ) ≤ 2 ^ power := zpow_le_zpow_right₀ (by norm_num) (by omega)
    _ ≤ 10 ^ power := zpow_ten_eq power ▸ le_mul_of_one_le_right (zpow_two_pos _).le five
    _ ≤ units * 10 ^ power := le_mul_of_one_le_left (zpow_ten_pos power).le one_le

/-- A power of ten that is too small to be computed is far below all cells. -/
lemma Cell.le_power (cell : Cell n e (units * 10 ^ power)) (canonical : Canonical n e) :
    -(2 ^ 11 + units.log2) ≤ power := by
  by_contra! tiny
  have units_lt : (units : ℚ) < 2 ^ (units.log2 + 1) := by exact_mod_cast Nat.lt_log2_self
  have five : (5 : ℚ) ^ power ≤ 1 := zpow_le_one_of_nonpos₀ (by norm_num) (by omega)
  refine absurd (cell.between canonical).1 (not_le.mpr ?_)
  calc (units * 10 ^ power : ℚ) < 2 ^ (units.log2 + 1) * 10 ^ power :=
        mul_lt_mul_of_pos_right units_lt (zpow_ten_pos power)
    _ ≤ 2 ^ (units.log2 + 1) * 2 ^ power := by
        refine mul_le_mul_of_nonneg_left ?_ (by positivity)
        exact zpow_ten_eq power ▸ mul_le_of_le_one_right (zpow_two_pos _).le five
    _ = 2 ^ ((units.log2 + 1 : ℕ) + power) := by rw [zpow_add₀ (by norm_num), zpow_natCast]
    _ ≤ 2 ^ (-1075 : ℤ) := zpow_le_zpow_right₀ (by norm_num) (by omega)

/-- On the slow path, a decimal in the cell of a double is that double. -/
lemma ofScientific_of_cell (canonical : Canonical n e) (cell : Cell n e (units * 10 ^ power)) :
    UnpackedFloat.ofScientific Format.binary64 units power = .finite .positive n e canonical.pos := by
  have pos := cell.units_pos canonical
  unfold UnpackedFloat.ofScientific
  rw [dif_neg pos.ne', if_neg (cell.power_le canonical).not_gt, if_neg (cell.le_power canonical).not_gt]
  split
  case isTrue nonneg =>
    have width : Format.binary64.mantissaBits = 53 := rfl
    refine mul_of_cell canonical ?_ ?_
    · convert cell using 1
      obtain ⟨k, rfl⟩ := Int.eq_ofNat_of_zero_le nonneg
      rw [width, Nat.shiftLeft_eq, Int.toNat_natCast, zpow_neg, zpow_natCast, zpow_natCast]
      push_cast
      field_simp
      norm_num
    · rw [width, Nat.shiftLeft_eq]
      calc 2 ^ 52 ≤ 1 * 2 ^ 53 * 1 := by norm_num
        _ ≤ units * 2 ^ 53 * 10 ^ power.toNat :=
          Nat.mul_le_mul (Nat.mul_le_mul_right _ pos) (Nat.pow_pos (by norm_num))
  case isFalse neg =>
    refine div_of_cell canonical ?_
    convert cell using 1
    rw [zpow_zero, mul_one, mul_one, Nat.cast_pow, Nat.cast_ofNat, ← zpow_natCast,
      Int.toNat_of_nonneg (by omega), zpow_neg, div_inv_eq_mul]

section Fast

variable {x y : Float} {a b : ℚ}

/-- The product of two exact doubles is the double to which the exact product is rounded. -/
lemma Full.unpack_mul (hx : Full x a) (hy : Full y b) (canonical : Canonical n e)
    (cell : Cell n e (a * b)) : (x * y).toModel.unpack = .finite .positive n e canonical.pos := by
  obtain ⟨m, k, pos, unpack, full, rfl⟩ := hx
  obtain ⟨m', k', pos', unpack', full', rfl⟩ := hy
  change (Float.Model.pack (UnpackedFloat.mul Format.binary64 _ _)).unpack = _
  rw [unpack, unpack', mul_of_cell canonical cell (Nat.le_trans full (Nat.le_mul_of_pos_right m pos'))]
  exact unpack_pack_of_canonical canonical

/-- The quotient of two exact doubles is the double to which the exact quotient is rounded. -/
lemma Full.unpack_div (hx : Full x a) (hy : Full y b) (canonical : Canonical n e)
    (cell : Cell n e (a / b)) : (x / y).toModel.unpack = .finite .positive n e canonical.pos := by
  obtain ⟨m, k, pos, unpack, -, rfl⟩ := hx
  obtain ⟨m', k', pos', unpack', -, rfl⟩ := hy
  change (Float.Model.pack (UnpackedFloat.div Format.binary64 _ _)).unpack = _
  rw [unpack, unpack', div_of_cell canonical cell]
  exact unpack_pack_of_canonical canonical

end Fast

/-- A decimal in the cell of a double is converted to that double. -/
theorem unpack_ofScientific (canonical : Canonical n e) (cell : Cell n e (units * 10 ^ power)) :
    (Float.ofScientific units (power < 0) power.natAbs).toModel.unpack =
      .finite .positive n e canonical.pos := by
  unfold Float.ofScientific
  split
  case isTrue fast =>
    -- The units and the power of ten are doubles, so only the product or quotient is rounded.
    have full := full_toFloat (cell.units_pos canonical) fast.1
    have full' := full_powerOfTen ⟨power.natAbs, Nat.lt_succ_of_le fast.2⟩
    split
    case isTrue neg =>
      have neg := of_decide_eq_true neg
      refine full.unpack_div full' canonical ?_
      rwa [← zpow_natCast, Int.ofNat_natAbs_of_nonpos neg.le, zpow_neg, div_inv_eq_mul]
    case isFalse nonneg =>
      have nonneg : 0 ≤ power := by simpa using nonneg
      refine full.unpack_mul full' canonical ?_
      rwa [← zpow_natCast, Int.natAbs_of_nonneg nonneg]
  case isFalse slow =>
    have exponent : (if decide (power < 0) = true then Int.negOfNat power.natAbs
        else Int.ofNat power.natAbs) = power := by
      split
      case isTrue neg =>
        have neg := of_decide_eq_true neg
        rw [Int.negOfNat_eq, Int.ofNat_eq_natCast, Int.ofNat_natAbs_of_nonpos neg.le, neg_neg]
      case isFalse nonneg =>
        have nonneg : 0 ≤ power := by simpa using nonneg
        exact Int.natAbs_of_nonneg nonneg
    rw [exponent]
    change (Float.Model.pack (UnpackedFloat.ofScientific Format.binary64 units power)).unpack = _
    rw [ofScientific_of_cell canonical cell]
    exact unpack_pack_of_canonical canonical

end Scientific

end Stepwise.Double
