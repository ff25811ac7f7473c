import Stepwise.Proofs.Decimal.Conversion
import Stepwise.Proofs.Double.Overflow
import Mathlib

/-!
# Signs of doubles

Negation only turns the sign of a double around. A decimal without a sign is converted to a double with a
plus sign, a zero included. Comparing two doubles the other way round gives the opposite order, so of two
numbers one is at most the other.
-/

namespace Stepwise.Double

open Float.Model (Format UnpackedFloat)
open Float.Model.UnpackedFloat

section Order

/-- Comparing the other way round gives the opposite order. -/
lemma compare_swap (u v : UnpackedFloat) : u.compare v = (v.compare u).map Ordering.swap := by
  have order (e k : ℤ) (m n : ℕ) :
      (compare e k).then (compare m n) = ((compare k e).then (compare n m)).swap := by
    have exponents : compare e k = (compare k e).swap := Std.OrientedCmp.eq_swap
    have mantissas : compare m n = (compare n m).swap := Std.OrientedCmp.eq_swap
    rw [exponents, mantissas, Ordering.swap_then]
  cases u with
  | notANumber => cases v <;> rfl
  | infinity s =>
    cases v with
    | infinity s' => cases s <;> cases s' <;> rfl
    | _ => cases s <;> rfl
  | zero s =>
    cases v with
    | infinity s' => cases s' <;> rfl
    | finite s' n k pos' => cases s' <;> rfl
    | _ => rfl
  | finite s m e pos =>
    cases v with
    | infinity s' => cases s' <;> rfl
    | notANumber => rfl
    | zero s' => cases s <;> rfl
    | finite s' n k pos' =>
      cases s with
      | positive =>
        cases s' with
        | positive => exact congrArg some (order e k m n)
        | negative => rfl
      | negative =>
        cases s' with
        | positive => rfl
        | negative => exact congrArg (some ∘ Ordering.swap) (order e k m n)

/-- Numbers can be compared. -/
lemma exists_compare {u v : UnpackedFloat} (hu : u.isNaN = false) (hv : v.isNaN = false) :
    ∃ order, u.compare v = some order := by
  cases u with
  | notANumber => cases hu
  | infinity s =>
    cases v with
    | notANumber => cases hv
    | _ => cases s <;> exact ⟨_, rfl⟩
  | zero s =>
    cases v with
    | notANumber => cases hv
    | zero s' => exact ⟨_, rfl⟩
    | infinity s' => cases s' <;> exact ⟨_, rfl⟩
    | finite s' n k pos' => cases s' <;> exact ⟨_, rfl⟩
  | finite s m e pos =>
    cases v with
    | notANumber => cases hv
    | zero s' => cases s <;> exact ⟨_, rfl⟩
    | infinity s' => cases s' <;> exact ⟨_, rfl⟩
    | finite s' n k pos' => cases s <;> cases s' <;> exact ⟨_, rfl⟩

/-- Of two doubles that are numbers, the first reaches the second unless it is below it. -/
lemma le_of_not_lt_of_isNaN {x y : Float} (hx : x.isNaN = false) (hy : y.isNaN = false)
    (not_lt : ¬ x < y) : y ≤ x := by
  obtain ⟨order, compared⟩ := exists_compare (u := x.toModel.unpack) (v := y.toModel.unpack) hx hy
  rw [lt_iff, compared] at not_lt
  rw [le_iff, compare_swap, compared]
  refine ⟨order.swap, rfl, ?_⟩
  cases order with
  | lt => exact absurd rfl not_lt
  | eq => rfl
  | gt => rfl

/-- Of two numbers that are not the same, one is below the other. -/
lemma beq_of_not_lt {x y : Float} (hx : x.isNaN = false) (hy : y.isNaN = false)
    (not_lt : ¬ x < y) (not_gt : ¬ y < x) : (x == y) = true := by
  obtain ⟨order, compared⟩ := exists_compare (u := x.toModel.unpack) (v := y.toModel.unpack) hx hy
  rw [lt_iff, compared] at not_lt
  rw [lt_iff, compare_swap, compared] at not_gt
  rw [beq_iff, compared]
  cases order with
  | lt => exact absurd rfl not_lt
  | eq => rfl
  | gt => exact absurd rfl not_gt

/-- What is below a zero is below the zeros of both signs. -/
lemma lt_zero_congr {x zero : Float} (h : (zero == 0.0) = true) : x < zero ↔ x < 0.0 := by
  rw [beq_iff, unpack_zero] at h
  rw [lt_iff, lt_iff, unpack_zero]
  generalize x.toModel.unpack = u
  generalize zero.toModel.unpack = v at h
  cases v with
  | notANumber => cases h
  | infinity sign => cases sign <;> cases h
  | finite sign => cases sign <;> cases h
  | zero sign =>
    cases u with
    | notANumber => rfl
    | zero => rfl
    | infinity sign' => cases sign' <;> rfl
    | finite sign' => cases sign' <;> rfl

/-- No magnitude is below a zero of either sign. -/
lemma not_abs_lt_zero {x zero : Float} (h : (zero == 0.0) = true) : ¬ x.abs < zero := by
  rw [lt_zero_congr h]
  by_cases number : x.isNaN = true
  · have not_number : x.abs.toModel.unpack.isNaN = true := (isNaN_abs x).trans number
    rw [lt_iff]
    intro below
    cases hu : x.abs.toModel.unpack <;> rw [hu] at not_number below <;> cases not_number
    cases below
  · exact (not_lt_zero_of_zero_le (zero_le_abs (eq_false_of_ne_true number))).2

end Order

section Negation

variable {x : Float}

/-- Negation keeps all parts of a double but the sign. -/
lemma unpack_neg (x : Float) : (-x).toModel.unpack = x.toModel.unpack.neg := by
  change (Float.Model.pack x.toModel.unpack.neg).unpack = _
  cases hu : x.toModel.unpack with
  | notANumber => rfl
  | infinity sign => exact unpack_pack_of_not_finite rfl
  | zero sign => exact unpack_pack_zero (-sign)
  | finite sign m e pos => exact unpack_pack_of_canonical (canonical_of_unpack hu)

/-- Changing the sign twice gives the double back. -/
lemma neg_neg_self (x : Float) : - -x = x := by
  apply ext_unpack
  rw [unpack_neg, unpack_neg]
  cases x.toModel.unpack with
  | notANumber => rfl
  | infinity sign => cases sign <;> rfl
  | zero sign => cases sign <;> rfl
  | finite sign m e pos => cases sign <;> rfl

/-- Changing the sign does not change whether a double is finite. -/
lemma isFinite_neg (x : Float) : (-x).isFinite = x.isFinite := by
  change (-x).toModel.unpack.isFinite = x.toModel.unpack.isFinite
  rw [unpack_neg]
  cases x.toModel.unpack <;> rfl

end Negation

section Plus

/-- Parts with a plus sign. -/
inductive Plus : UnpackedFloat → Prop where
  | infinity : Plus (.infinity .positive)
  | zero : Plus (.zero .positive)
  | finite {mantissa exponent pos} : Plus (.finite .positive mantissa exponent pos)

namespace Plus

variable {u : UnpackedFloat} {x : Float}

/-- The sign is packed as it is. -/
lemma pack (h : Plus u) : Plus (Float.Model.pack u).unpack := by
  cases h with
  | infinity => exact .infinity
  | zero => exact .zero
  | @finite mantissa exponent pos =>
    change Plus (unpack Format.binary64 (Float.Model.UnpackedFloat.pack Format.binary64 _))
    rw [pack_finite]
    split
    case isTrue => exact .infinity
    case isFalse small =>
      split
      case isTrue =>
        by_cases empty : (exponent + 1075).toNat = 0
        · rw [unpack_of_empty, signOf_packComponents]
          · split
            · exact .finite
            · exact .zero
          · rw [exponentBits_packComponents, empty]
            rfl
        · rw [unpack_of_partial, signOf_packComponents]
          · exact .finite
          · rw [exponentBits_packComponents, BitVec.toNat_ofNat]
            omega
          · rw [exponentBits_packComponents, BitVec.toNat_ofNat]
            omega
      case isFalse =>
        rw [unpack_of_empty, signOf_packComponents]
        · split
          · exact .finite
          · exact .zero
        · rw [exponentBits_packComponents]
          rfl

/-- Rounding a mantissa with the positive sign never gives a negative result. -/
lemma roundWithAccuracy (mantissa : ℕ) (exponent : ℤ) (accuracy : Accuracy) :
    Plus (roundWithAccuracy Format.binary64 .positive mantissa exponent accuracy) := by
  unfold Float.Model.UnpackedFloat.roundWithAccuracy
  dsimp only
  split
  · exact .zero
  · exact .finite

section Factor

variable {v : UnpackedFloat} {mantissa : ℕ} {exponent : ℤ} {pos : 0 < mantissa}

/-- A positive finite factor keeps the positive sign. -/
lemma mul (h : Plus u) (hv : v = .finite .positive mantissa exponent pos) :
    Plus (mul Format.binary64 u v) := by
  subst hv
  cases h with
  | infinity => exact .infinity
  | zero => exact .zero
  | finite => exact roundWithAccuracy _ _ _

/-- A positive finite divisor keeps the positive sign. -/
lemma div (h : Plus u) (hv : v = .finite .positive mantissa exponent pos) :
    Plus (div Format.binary64 u v) := by
  subst hv
  cases h with
  | infinity => exact .infinity
  | zero => exact .zero
  | finite => exact roundWithAccuracy _ _ _

end Factor

/-- A natural mantissa is normalized to a result with the positive sign. -/
lemma normalize (n : ℕ) : Plus (normalize Format.binary64 n 0 .positive) := by
  unfold Float.Model.UnpackedFloat.normalize
  split
  case h_1 neg => exact absurd (Int.compare_eq_lt.mp neg) (by omega)
  case h_2 => exact .zero
  case h_3 => exact roundWithAccuracy _ _ _

/-- On the slow path, a decimal is converted to parts with a plus sign. -/
lemma ofScientific (units : ℕ) (power : ℤ) :
    Plus (UnpackedFloat.ofScientific Format.binary64 units power) := by
  unfold UnpackedFloat.ofScientific
  split
  case isTrue => exact .zero
  case isFalse nonzero =>
    split
    case isTrue => exact .infinity
    case isFalse =>
      split
      case isTrue => exact .zero
      case isFalse =>
        split
        case isTrue => exact mul .finite rfl
        case isFalse => exact div .finite rfl

/-- A decimal is converted to a double with a plus sign. -/
lemma unpack_ofScientific (units : ℕ) (negative : Bool) (power : ℕ) :
    Plus (Float.ofScientific units negative power).toModel.unpack := by
  unfold Float.ofScientific
  split
  case isTrue fast =>
    have plus : Plus units.toUInt64.toFloat.toModel.unpack := (normalize units.toUInt64.toNat).pack
    obtain ⟨n, e, pos, hv, -⟩ := full_powerOfTen ⟨power, Nat.lt_succ_of_le fast.2⟩
    split
    case isTrue => exact (plus.div hv).pack
    case isFalse => exact (plus.mul hv).pack
  case isFalse => exact (ofScientific _ _).pack

/-- What has a plus sign is neither below zero nor the negative zero. -/
lemma nonneg (h : Plus x.toModel.unpack) : ¬ x < 0.0 ∧ x ≠ -0.0 := by
  rw [lt_iff, unpack_zero]
  constructor
  · generalize x.toModel.unpack = u at h
    cases h <;> nofun
  · rintro rfl
    have unpacked : (-0.0 : Float).toModel.unpack = .zero .negative := rfl
    rw [unpacked] at h
    cases h

end Plus

end Plus

end Stepwise.Double
