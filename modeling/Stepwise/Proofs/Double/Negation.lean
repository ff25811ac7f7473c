import Stepwise.Proofs.Double.Sign
import Mathlib

/-!
# Arithmetic on negated doubles

Rounding to nearest treats both signs alike, so a quotient changes only its sign if one of its two
doubles is negated, and does not change at all if both are. A difference changes only its sign too, unless
it is zero: then it has a plus sign both times, as a rule.
-/

namespace Stepwise.Double

open Float.Model (Format UnpackedFloat)
open Float.Model.UnpackedFloat

section Parts

/-- The sign is packed apart from the other parts. -/
lemma unpack_pack_neg (u : UnpackedFloat) :
    (Float.Model.pack u.neg).unpack = (Float.Model.pack u).unpack.neg := by
  cases u with
  | notANumber => rfl
  | infinity sign => cases sign <;> rfl
  | zero sign => cases sign <;> rfl
  | finite sign n e pos =>
    change unpack Format.binary64 (pack Format.binary64 (.finite (-sign) n e pos)) =
      (unpack Format.binary64 (pack Format.binary64 (.finite sign n e pos))).neg
    rw [pack_finite, pack_finite]
    -- Overflow, normal and subnormal parts: in each of them the sign is a part of its own.
    split
    case isTrue => cases sign <;> rfl
    case isFalse small =>
      split
      case isTrue =>
        by_cases empty : (e + 1075).toNat = 0
        · rw [unpack_of_empty, unpack_of_empty]
          · simp only [signOf_packComponents, mantissaBits_packComponents]
            split <;> rfl
          · rw [exponentBits_packComponents, empty]
            rfl
          · rw [exponentBits_packComponents, empty]
            rfl
        · rw [unpack_of_partial, unpack_of_partial]
          · simp only [signOf_packComponents, mantissaBits_packComponents,
              exponentBits_packComponents]
            rfl
          all_goals
            rw [exponentBits_packComponents, BitVec.toNat_ofNat]
            omega
      case isFalse =>
        rw [unpack_of_empty, unpack_of_empty]
        · simp only [signOf_packComponents, mantissaBits_packComponents]
          split <;> rfl
        · rw [exponentBits_packComponents]
          rfl
        · rw [exponentBits_packComponents]
          rfl

/-- Rounding a number with the opposite sign gives the opposite result. -/
lemma roundWithAccuracy_neg (sign : Sign) (n : ℕ) (e : ℤ) (accuracy : Accuracy) :
    roundWithAccuracy Format.binary64 (-sign) n e accuracy =
      (roundWithAccuracy Format.binary64 sign n e accuracy).neg := by
  unfold roundWithAccuracy
  dsimp only
  split <;> rfl

/-- Normalizing the opposite of a whole number that is not zero gives the opposite result. -/
lemma normalize_neg {n : ℤ} (nonzero : n ≠ 0) (e : ℤ) (zero : Sign) :
    normalize Format.binary64 (-n) e zero = (normalize Format.binary64 n e zero).neg := by
  unfold UnpackedFloat.normalize
  rcases lt_or_gt_of_ne nonzero with lt | gt
  · rw [Int.compare_eq_lt.mpr lt, Int.compare_eq_gt.mpr (neg_pos.mpr lt)]
    exact roundWithAccuracy_neg .negative _ _ _
  · rw [Int.compare_eq_gt.mpr gt, Int.compare_eq_lt.mpr (neg_neg_of_pos gt)]
    dsimp only
    rw [neg_neg]
    exact roundWithAccuracy_neg .positive _ _ _

/-- A quotient of parts changes its sign with the dividend. -/
lemma parts_div_neg_left (u v : UnpackedFloat) :
    div Format.binary64 u.neg v = (div Format.binary64 u v).neg := by
  have sign (s s' : Sign) : -s / s' = -(s / s') := by cases s <;> cases s' <;> rfl
  cases u with
  | notANumber => rfl
  | infinity s => cases v <;> simp [UnpackedFloat.div, UnpackedFloat.neg, sign]
  | zero s => cases v <;> simp [UnpackedFloat.div, UnpackedFloat.neg, sign]
  | finite s n e pos =>
    cases v with
    | finite s' m k pos' =>
      simp only [UnpackedFloat.div, UnpackedFloat.neg, sign]
      exact roundWithAccuracy_neg _ _ _ _
    | _ => simp [UnpackedFloat.div, UnpackedFloat.neg, sign]

/-- A quotient of parts stays the same if both signs change. -/
lemma parts_div_neg (u v : UnpackedFloat) :
    div Format.binary64 u.neg v.neg = div Format.binary64 u v := by
  have sign (s s' : Sign) : -s / -s' = s / s' := by cases s <;> cases s' <;> rfl
  cases u <;> cases v <;> simp only [UnpackedFloat.div, UnpackedFloat.neg, sign]

/-- A difference of zero has a plus sign, unless a zero is taken from one of the other sign. -/
lemma parts_sub_neg (u v : UnpackedFloat) :
    sub Format.binary64 u.neg v.neg = (sub Format.binary64 u v).neg ∨
      sub Format.binary64 u v = .zero .positive ∧
        sub Format.binary64 u.neg v.neg = .zero .positive := by
  cases u with
  | notANumber => exact .inl rfl
  | infinity s =>
    cases v with
    | infinity s' => cases s <;> cases s' <;> exact .inl rfl
    | _ => exact .inl rfl
  | zero s =>
    cases v with
    | zero s' =>
      cases s <;> cases s'
      · exact .inr ⟨rfl, rfl⟩
      · exact .inl rfl
      · exact .inl rfl
      · exact .inr ⟨rfl, rfl⟩
    | _ => exact .inl rfl
  | finite s n e pos =>
    cases v with
    | finite s' m k pos' =>
      have apply_neg (s : Sign) (a : ℤ) : (-s).apply a = -s.apply a := by
        cases s
        · exact (neg_neg a).symm
        · rfl
      simp only [UnpackedFloat.sub, UnpackedFloat.neg, apply_neg]
      generalize s.apply _ = a
      generalize s'.apply _ = b
      have turned : -a - -b = -(a - b) := by ring
      rw [turned]
      -- A difference of zero is a positive zero on both sides, which is the only exception.
      by_cases same : a - b = 0
      · rw [same]
        exact .inr ⟨rfl, rfl⟩
      · exact .inl (normalize_neg same _ _)
    | _ => exact .inl rfl

end Parts

section Operations

/-- A quotient changes its sign with the dividend. -/
lemma div_negated_left (x y : Float) : -x / y = -(x / y) := by
  apply ext_unpack
  rw [unpack_neg]
  change (Float.Model.pack (div Format.binary64 (-x).toModel.unpack y.toModel.unpack)).unpack = _
  rw [unpack_neg, parts_div_neg_left, unpack_pack_neg]
  rfl

/-- A quotient stays the same if dividend and divisor change their signs. -/
lemma div_negated (x y : Float) : -x / -y = x / y := by
  apply ext_unpack
  change (Float.Model.pack
    (div Format.binary64 (-x).toModel.unpack (-y).toModel.unpack)).unpack = _
  rw [unpack_neg, unpack_neg, parts_div_neg]
  rfl

/-- The difference of two negated doubles is the negated difference, or there is no difference. -/
lemma sub_negated (x y : Float) : -x - -y = -(x - y) ∨ x - y = 0.0 ∧ -x - -y = 0.0 := by
  have plain : (x - y).toModel.unpack =
      (Float.Model.pack (sub Format.binary64 x.toModel.unpack y.toModel.unpack)).unpack := rfl
  have negated : (-x - -y).toModel.unpack = (Float.Model.pack
      (sub Format.binary64 x.toModel.unpack.neg y.toModel.unpack.neg)).unpack := by
    rw [← unpack_neg, ← unpack_neg]
    rfl
  rcases parts_sub_neg x.toModel.unpack y.toModel.unpack with e | ⟨e, e'⟩
  · refine .inl (ext_unpack ?_)
    rw [unpack_neg, negated, plain, e, unpack_pack_neg]
  · refine .inr ⟨ext_unpack ?_, ext_unpack ?_⟩
    · rw [plain, e]
      rfl
    · rw [negated, e']
      rfl

/-- A double and its negation have the same magnitude. -/
lemma abs_negated (x : Float) : (-x).abs = x.abs := by
  apply ext_unpack
  change (Float.Model.pack (-x).toModel.unpack.abs).unpack =
    (Float.Model.pack x.toModel.unpack.abs).unpack
  rw [unpack_neg]
  cases x.toModel.unpack <;> rfl

end Operations

section Comparison

variable {x : Float}

/-- The negation of a double is a zero exactly if the double is one. -/
lemma negated_beq_zero (x : Float) : (-x == 0.0) = (x == 0.0) := by
  rw [Bool.eq_iff_iff, beq_iff, beq_iff, unpack_neg, unpack_zero]
  cases x.toModel.unpack with
  | notANumber => rfl
  | zero => rfl
  | infinity sign => cases sign <;> exact ⟨nofun, nofun⟩
  | finite sign => cases sign <;> exact ⟨nofun, nofun⟩

/-- Negation brings a number other than zero to the other side of zero. -/
lemma negated_lt_zero_iff (number : x.isNaN = false) (nonzero : (x == 0.0) = false) :
    -x < 0.0 ↔ ¬ x < 0.0 := by
  change x.toModel.unpack.isNaN = false at number
  rw [Bool.eq_false_iff, Ne, beq_iff, unpack_zero] at nonzero
  rw [lt_iff, lt_iff, unpack_neg, unpack_zero]
  cases hu : x.toModel.unpack with
  | notANumber => rw [hu] at number; cases number
  | zero => rw [hu] at nonzero; exact absurd rfl nonzero
  | infinity sign => cases sign <;> decide
  | finite sign n e pos =>
    cases sign with
    | positive => exact ⟨fun _ => nofun, fun _ => rfl⟩
    | negative => exact ⟨nofun, fun not_below => absurd rfl not_below⟩

end Comparison

end Stepwise.Double
