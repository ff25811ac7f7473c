import Stepwise.Proofs.Double.Operations
import Mathlib

/-!
# Square roots of doubles

The square root of a finite double that is not below zero is computed to enough bits and then rounded.
It is at most `2 ^ 512`, so it does not overflow.
-/

namespace Stepwise.Double

open Float.Model (Format UnpackedFloat totalExponent)
open Float.Model.UnpackedFloat

/-- Whatever was cut off, there is a value that a mantissa stands for. -/
lemma exists_stands (mantissa : ℕ) (accuracy : Accuracy) : ∃ value, Stands mantissa accuracy value := by
  match accuracy with
  | .exact => exact ⟨mantissa, rfl⟩
  | .inexact .lt => exact ⟨mantissa + 1 / 4, by constructor <;> linarith⟩
  | .inexact .eq => exact ⟨mantissa + 1 / 2, rfl⟩
  | .inexact .gt => exact ⟨mantissa + 3 / 4, by constructor <;> linarith⟩

section Root

variable {m : ℕ} {e t : ℤ}

/-- The root of a number that is shifted to an even exponent below `1024`. -/
lemma root_bounds (pos : 0 < m) (lt : m < 2 ^ 53) (high : e ≤ 971) (le : 2 * t ≤ e) :
    (((m <<< (e - 2 * t).toNat).sqrt + 1 : ℕ) * 2 ^ t : ℚ) ≤ 2 ^ 512 ∧
      (2 * t + 106 ≤ m.log2 + 2 + e → 52 ≤ (m <<< (e - 2 * t).toNat).sqrt.log2) := by
  obtain ⟨shift, shift_eq⟩ : ∃ shift : ℕ, e - 2 * t = shift := Int.eq_ofNat_of_zero_le (by omega)
  obtain ⟨half, half_eq⟩ : ∃ half : ℕ, 512 - t = half := Int.eq_ofNat_of_zero_le (by omega)
  rw [shift_eq, Int.toNat_natCast, Nat.shiftLeft_eq]
  constructor
  · have root_lt : (m * 2 ^ shift).sqrt < 2 ^ half := by
      rw [Nat.sqrt_lt, ← Nat.pow_add]
      calc m * 2 ^ shift < 2 ^ 53 * 2 ^ shift := Nat.mul_lt_mul_of_pos_right lt (Nat.two_pow_pos _)
        _ = 2 ^ (53 + shift) := (Nat.pow_add ..).symm
        _ ≤ 2 ^ (half + half) := Nat.pow_le_pow_right (by norm_num) (by omega)
    have scaled : (2 ^ half * 2 ^ t : ℚ) = 2 ^ 512 := by
      rw [← zpow_natCast, ← zpow_natCast, ← zpow_add₀ (by norm_num), ← half_eq, sub_add_cancel]
      rfl
    rw [← scaled]
    refine mul_le_mul_of_nonneg_right ?_ (zpow_two_pos t).le
    exact_mod_cast Nat.succ_le_of_lt root_lt
  · intro enough
    have full : 2 ^ 52 ≤ (m * 2 ^ shift).sqrt := by
      rw [Nat.le_sqrt, ← Nat.pow_add]
      calc 2 ^ (52 + 52) ≤ 2 ^ (m.log2 + shift) := Nat.pow_le_pow_right (by norm_num) (by omega)
        _ = 2 ^ m.log2 * 2 ^ shift := Nat.pow_add ..
        _ ≤ m * 2 ^ shift := Nat.mul_le_mul_right _ (Nat.log2_self_le pos.ne')
    exact (Nat.le_log2 (Nat.ne_of_gt (lt_of_lt_of_le (by norm_num) full))).mpr full

/-- A root is rounded from enough bits of it, and these bits stand for at most `2 ^ 512`. -/
lemma sqrt_eq_roundWithAccuracy (canonical : Canonical m e) :
    ∃ root exponent accuracy,
      sqrt Format.binary64 (.finite .positive m e canonical.pos) =
        roundWithAccuracy Format.binary64 .positive root exponent accuracy ∧
      exponent ≤ fitted root exponent ∧ ((root + 1 : ℕ) * 2 ^ exponent : ℚ) ≤ 2 ^ 512 := by
  obtain ⟨pos, lt, low, high, -⟩ := canonical
  have target := targetExponent_eq ((totalExponent m e + 1).ediv 2)
  unfold sqrt sqrtCore
  dsimp only
  rw [target, totalExponent]
  generalize least : min (e.ediv 2) _ = t
  have halves (k : ℤ) : 2 * k.ediv 2 ≤ k ∧ k ≤ 2 * k.ediv 2 + 1 := by
    change 2 * (k / 2) ≤ k ∧ k ≤ 2 * (k / 2) + 1
    omega
  have even := halves e
  have even' := halves (m.log2 + 1 + e + 1)
  obtain ⟨small, full⟩ := root_bounds (t := t) pos lt high (by omega)
  refine ⟨_, _, _, rfl, ?_, small⟩
  rw [fitted]
  by_cases low' : t ≤ -1074
  case pos => omega
  case neg =>
    have := full (by omega)
    omega

/-- The square root of a finite double that is not below zero is finite. -/
lemma isFinite_sqrt {x : Float} (hx : x.isFinite = true) (nonneg : ¬ x < 0.0) :
    x.sqrt.isFinite = true := by
  rw [lt_iff, unpack_zero] at nonneg
  rcases parts_of_isFinite hx with ⟨sign, hu⟩ | ⟨sign, m, e, pos, hu, canonical⟩
  · change (Float.Model.pack (sqrt Format.binary64 x.toModel.unpack)).unpack.isFinite = true
    rw [hu]
    cases sign <;> rfl
  · cases sign with
    | negative => exact absurd (congrArg (UnpackedFloat.compare · _) hu) nonneg
    | positive =>
      obtain ⟨root, exponent, accuracy, rounding, enough, small⟩ := sqrt_eq_roundWithAccuracy canonical
      obtain ⟨bits, stands⟩ := exists_stands root accuracy
      have unit := zpow_two_pos exponent
      have exact : bits * 2 ^ exponent / 2 ^ exponent = bits := mul_div_cancel_right₀ _ unit.ne'
      obtain ⟨low, high⟩ := stands.bounds
      rw [← exact] at stands
      have rounds : RoundsTo (bits * 2 ^ exponent) x.sqrt := by
        refine ⟨_, rounded_roundWithAccuracy .positive stands enough, ?_⟩
        rw [← rounding, ← hu]
        rfl
      refine rounds.isFinite (onGrid_two_pow 512) ?_ (pow_lt_pow_right₀ (by norm_num) (by norm_num))
      have nonneg' : 0 ≤ bits * 2 ^ exponent := mul_nonneg ((Nat.cast_nonneg _).trans low) unit.le
      rw [abs_of_nonneg nonneg']
      refine le_trans (mul_le_mul_of_nonneg_right ?_ unit.le) small
      rw [Nat.cast_add, Nat.cast_one]
      exact high.le

end Root

end Stepwise.Double
