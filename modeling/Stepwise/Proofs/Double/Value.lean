import Stepwise.Proofs.Double.Rounding
import Mathlib

/-!
# The value of a double

A finite double stands for a rational number, and finite doubles are compared as these numbers are: by
their signs, then by their exponents, and then by their mantissas.
-/

namespace Stepwise.Double

open Float.Model (Format UnpackedFloat)
open Float.Model.UnpackedFloat

/-- A mantissa and an exponent as a finite double keeps them, with no limit to the exponent above. -/
structure Fits (mantissa : ℕ) (exponent : ℤ) : Prop where
  pos : 0 < mantissa
  lt : mantissa < 2 ^ 53
  low : -1074 ≤ exponent
  full : 2 ^ 52 ≤ mantissa ∨ exponent = -1074

/-- Canonical parts fit the comparison. -/
lemma Canonical.fits {n : ℕ} {e : ℤ} (canonical : Canonical n e) : Fits n e :=
  ⟨canonical.pos, canonical.lt, canonical.low, canonical.full⟩

/-- A number with a sign. -/
def signed : Sign → ℚ → ℚ
  | .positive, v => v
  | .negative, v => -v

/-- The number that the parts of a double stand for. It is zero if there is none. -/
def valueOf : UnpackedFloat → ℚ
  | .finite sign mantissa exponent _ => signed sign (mantissa * 2 ^ exponent)
  | _ => 0

/-- The number that a double stands for. -/
def value (x : Float) : ℚ :=
  valueOf x.toModel.unpack

/-- A zero of either sign stands for zero. -/
@[simp] lemma valueOf_zero (sign : Sign) : valueOf (.zero sign) = 0 :=
  rfl

/-- A mantissa that is not zero stands for a positive number at every exponent. -/
lemma mul_zpow_two_pos {n : ℕ} (pos : 0 < n) (e : ℤ) : (0 : ℚ) < n * 2 ^ e :=
  mul_pos (Nat.cast_pos.mpr pos) (zpow_two_pos e)

/-- A finite double is a zero, or it has parts. -/
lemma parts_of_isFinite {x : Float} (h : x.isFinite = true) :
    (∃ sign, x.toModel.unpack = .zero sign) ∨
      ∃ sign n e pos, x.toModel.unpack = .finite sign n e pos ∧ Canonical n e := by
  change x.toModel.unpack.isFinite = true at h
  cases hu : x.toModel.unpack with
  | notANumber => rw [hu] at h; cases h
  | infinity sign => rw [hu] at h; cases h
  | zero sign => exact .inl ⟨sign, rfl⟩
  | finite sign n e pos => exact .inr ⟨sign, n, e, pos, rfl, canonical_of_unpack hu⟩

section Order

namespace Fits

variable {n m : ℕ} {e k : ℤ}

/-- A mantissa that fits stands for less than the power of two after its full length. -/
lemma lt_zpow (fits : Fits n e) : (n * 2 ^ e : ℚ) < 2 ^ (53 + e) := by
  have bits : (n : ℚ) < 2 ^ 53 := by exact_mod_cast fits.lt
  rw [zpow_add₀ (by norm_num)]
  exact mul_lt_mul_of_pos_right bits (zpow_two_pos e)

/-- A full mantissa stands for at least the power of two of its leading bit. -/
lemma zpow_le (full : 2 ^ 52 ≤ n) (e : ℤ) : (2 : ℚ) ^ (52 + e) ≤ n * 2 ^ e := by
  have bits : (2 ^ 52 : ℚ) ≤ n := by exact_mod_cast full
  rw [zpow_add₀ (by norm_num)]
  exact mul_le_mul_of_nonneg_right bits (zpow_two_pos e).le

/-- Of two points of the grid the one with the larger exponent is the larger. -/
lemma lt_of_exponent_lt (fits : Fits n e) (fits' : Fits m k) (h : e < k) :
    (n * 2 ^ e : ℚ) < m * 2 ^ k := by
  have full : 2 ^ 52 ≤ m := by
    apply fits'.full.resolve_right
    have low := fits.low
    omega
  calc (n * 2 ^ e : ℚ) < 2 ^ (53 + e) := fits.lt_zpow
    _ ≤ 2 ^ (52 + k) := zpow_le_zpow_right₀ (by norm_num) (by omega)
    _ ≤ m * 2 ^ k := zpow_le full k

/-- Points of the grid are compared by their exponents first. -/
lemma compare_eq (fits : Fits n e) (fits' : Fits m k) :
    compare (n * 2 ^ e : ℚ) (m * 2 ^ k) = (compare e k).then (compare n m) := by
  rcases lt_trichotomy e k with lt | rfl | gt
  · rw [compare_lt_iff_lt.mpr lt, compare_lt_iff_lt.mpr (fits.lt_of_exponent_lt fits' lt)]
    rfl
  · rw [compare_eq_iff_eq.mpr (rfl : e = e)]
    change _ = compare n m
    have scale := zpow_two_pos e
    rcases lt_trichotomy n m with lt | rfl | gt
    · have lt' : (n : ℚ) < m := by exact_mod_cast lt
      rw [compare_lt_iff_lt.mpr lt, compare_lt_iff_lt]
      exact mul_lt_mul_of_pos_right lt' scale
    · rw [compare_eq_iff_eq.mpr rfl, compare_eq_iff_eq.mpr rfl]
    · have gt' : (m : ℚ) < n := by exact_mod_cast gt
      rw [compare_gt_iff_gt.mpr gt, compare_gt_iff_gt]
      exact mul_lt_mul_of_pos_right gt' scale
  · rw [compare_gt_iff_gt.mpr gt, compare_gt_iff_gt.mpr (fits'.lt_of_exponent_lt fits gt)]
    rfl

end Fits

/-- Changing both signs turns a comparison round. -/
lemma compare_neg_neg (v w : ℚ) : compare (-v) (-w) = (compare v w).swap := by
  rcases lt_trichotomy v w with lt | rfl | gt
  · rw [compare_lt_iff_lt.mpr lt, compare_gt_iff_gt.mpr (neg_lt_neg lt)]
    rfl
  · rw [compare_eq_iff_eq.mpr rfl, compare_eq_iff_eq.mpr rfl]
    rfl
  · rw [compare_gt_iff_gt.mpr gt, compare_lt_iff_lt.mpr (neg_lt_neg gt)]
    rfl

/-- Finite doubles are compared as the numbers they stand for. -/
lemma compare_unpack {x y : Float} (hx : x.isFinite = true) (hy : y.isFinite = true) :
    x.toModel.unpack.compare y.toModel.unpack = some (compare (value x) (value y)) := by
  rw [value, value]
  -- Signs decide unless both are the same. Then the parts are compared, the other way round below zero.
  rcases parts_of_isFinite hx with ⟨s, hu⟩ | ⟨s, n, e, pos, hu, canonical⟩
  · rw [hu]
    rcases parts_of_isFinite hy with ⟨s', hv⟩ | ⟨s', m, k, pos', hv, canonical'⟩
    · rw [hv]
      exact congrArg some (compare_eq_iff_eq.mpr rfl).symm
    · have positive := mul_zpow_two_pos pos' k
      rw [hv]
      cases s' with
      | positive => exact congrArg some (compare_lt_iff_lt.mpr positive).symm
      | negative => exact congrArg some (compare_gt_iff_gt.mpr (neg_neg_of_pos positive)).symm
  · have positive := mul_zpow_two_pos pos e
    rw [hu]
    rcases parts_of_isFinite hy with ⟨s', hv⟩ | ⟨s', m, k, pos', hv, canonical'⟩
    · rw [hv]
      cases s with
      | positive => exact congrArg some (compare_gt_iff_gt.mpr positive).symm
      | negative => exact congrArg some (compare_lt_iff_lt.mpr (neg_neg_of_pos positive)).symm
    · have positive' := mul_zpow_two_pos pos' k
      have parts := canonical.fits.compare_eq canonical'.fits
      rw [hv]
      cases s with
      | positive =>
        cases s' with
        | positive => exact congrArg some parts.symm
        | negative =>
          have gt : -(m * 2 ^ k : ℚ) < n * 2 ^ e := (neg_neg_of_pos positive').trans positive
          exact congrArg some (compare_gt_iff_gt.mpr gt).symm
      | negative =>
        cases s' with
        | positive =>
          have lt : -(n * 2 ^ e : ℚ) < m * 2 ^ k := (neg_neg_of_pos positive).trans positive'
          exact congrArg some (compare_lt_iff_lt.mpr lt).symm
        | negative =>
          change some _ = some (compare (-(n * 2 ^ e : ℚ)) (-(m * 2 ^ k)))
          rw [compare_neg_neg, parts]

/-- Finite doubles are ordered as their numbers. -/
lemma le_iff_value {x y : Float} (hx : x.isFinite = true) (hy : y.isFinite = true) :
    x ≤ y ↔ value x ≤ value y := by
  rw [le_iff, compare_unpack hx hy]
  constructor
  · rintro ⟨order, compared, le⟩
    cases compared
    exact compare_le_iff_le.mp (Ordering.isLE_iff_ne_gt.mp le)
  · intro le
    exact ⟨_, rfl, Ordering.isLE_iff_ne_gt.mpr (compare_le_iff_le.mpr le)⟩

/-- Finite doubles are strictly ordered as their numbers. -/
lemma lt_iff_value {x y : Float} (hx : x.isFinite = true) (hy : y.isFinite = true) :
    x < y ↔ value x < value y := by
  rw [lt_iff, compare_unpack hx hy, Option.some_inj]
  exact compare_lt_iff_lt

/-- What is below a double is below every larger one, an infinite one included. -/
lemma lt_of_lt_of_le_of_isFinite {x y z : Float} (hx : x.isFinite = true) (lt : x < y) (le : y ≤ z) :
    x < z := by
  by_cases both : y.isFinite = true ∧ z.isFinite = true
  · obtain ⟨hy, hz⟩ := both
    rw [lt_iff_value hx hy] at lt
    rw [le_iff_value hy hz] at le
    exact (lt_iff_value hx hz).mpr (lt_of_lt_of_le lt le)
  · change x.toModel.unpack.isFinite = true at hx
    change ¬ (y.toModel.unpack.isFinite = true ∧ z.toModel.unpack.isFinite = true) at both
    rw [lt_iff] at lt ⊢
    rw [le_iff] at le
    obtain ⟨order, compared, le⟩ := le
    generalize x.toModel.unpack = u at hx lt ⊢
    generalize y.toModel.unpack = v at both lt compared
    generalize z.toModel.unpack = w at both compared ⊢
    -- A finite double is below `y`, so if one of the bounds is infinite, the larger one is.
    have top : w = .infinity .positive := by
      cases v with
      | notANumber => cases compared
      | infinity sign =>
        cases sign with
        | negative => cases u <;> cases hx <;> cases lt
        | positive =>
          cases w with
          | infinity sign' =>
            cases sign' with
            | positive => rfl
            | negative => cases compared; cases le
          | _ => cases compared <;> cases le
      | _ =>
        cases w with
        | notANumber => cases compared
        | infinity sign' =>
          cases sign' with
          | positive => rfl
          | negative => cases compared; cases le
        | _ => exact absurd ⟨rfl, rfl⟩ both
    rw [top]
    cases u with
    | notANumber => cases hx
    | infinity => cases hx
    | zero => rfl
    | finite => rfl

end Order

end Stepwise.Double
