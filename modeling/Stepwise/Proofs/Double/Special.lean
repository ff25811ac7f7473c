import Stepwise.Proofs.Double.Packing

/-!
# Infinities, and what is not a number

Arithmetic on finite doubles can overflow to an infinity, but never ends in something that is not a
number, apart from a division by zero. Only two infinities of different signs have no sum.
-/

namespace Stepwise.Double

open Float.Model (Format UnpackedFloat)
open Float.Model.UnpackedFloat

/-- Two infinities of different signs. -/
def Clash (x y : Float) : Prop :=
  x.isInf = true ∧ y.isInf = true ∧ (x == y) = false

/-- What is packed is not a number exactly if what comes back is not. -/
lemma isNaN_pack (u : UnpackedFloat) : (Float.Model.pack u).unpack.isNaN = u.isNaN := by
  cases u with
  | notANumber => rfl
  | infinity sign => cases sign <;> rfl
  | zero sign => cases sign <;> rfl
  | finite sign mantissa exponent pos =>
    change (unpack Format.binary64 (pack Format.binary64 _)).isNaN = false
    rw [pack_finite]
    split
    case isTrue => cases sign <;> rfl
    case isFalse small =>
      split
      case isTrue =>
        -- The exponent bits are not those of infinity, whatever the exponent.
        by_cases empty : (exponent + 1075).toNat = 0
        · rw [unpack_of_empty]
          · split <;> rfl
          · rw [exponentBits_packComponents, empty]
            rfl
        · rw [unpack_of_partial]
          · rfl
          · rw [exponentBits_packComponents, BitVec.toNat_ofNat]
            omega
          · rw [exponentBits_packComponents, BitVec.toNat_ofNat]
            omega
      case isFalse =>
        rw [unpack_of_empty]
        · split <;> rfl
        · rw [exponentBits_packComponents]
          rfl

/-- Rounding ends in a number. -/
lemma isNaN_roundWithAccuracy (sign : Sign) (mantissa : Nat) (exponent : Int)
    (accuracy : Accuracy) :
    (roundWithAccuracy Format.binary64 sign mantissa exponent accuracy).isNaN = false := by
  unfold roundWithAccuracy
  dsimp only
  split <;> rfl

/-- Normalizing gives a number. -/
lemma isNaN_normalize (mantissa exponent : Int) (zeroSign : Sign) :
    (normalize Format.binary64 mantissa exponent zeroSign).isNaN = false := by
  unfold UnpackedFloat.normalize
  split
  case h_1 => exact isNaN_roundWithAccuracy _ _ _ _
  case h_2 => rfl
  case h_3 => exact isNaN_roundWithAccuracy _ _ _ _

/-- A sum is not a number exactly if a summand is not one, or the summands are infinities of different
signs. -/
lemma isNaN_add_iff {x y : Float} :
    (x + y).isNaN = true ↔ x.isNaN = true ∨ y.isNaN = true ∨ Clash x y := by
  have clash_iff : Clash x y ↔ x.toModel.unpack.isInf = true ∧ y.toModel.unpack.isInf = true ∧
      (x.toModel.unpack.compare y.toModel.unpack == some .eq) = false := Iff.rfl
  rw [clash_iff]
  change (Float.Model.pack _).unpack.isNaN = true ↔
    x.toModel.unpack.isNaN = true ∨ y.toModel.unpack.isNaN = true ∨ _
  rw [isNaN_pack]
  cases x.toModel.unpack with
  | notANumber => exact ⟨fun _ => .inl rfl, fun _ => rfl⟩
  | infinity sign =>
    cases y.toModel.unpack with
    | notANumber => exact ⟨fun _ => .inr (.inl rfl), fun _ => rfl⟩
    | infinity sign' => cases sign <;> cases sign' <;> decide
    | zero sign' => cases sign <;> simp [UnpackedFloat.add, UnpackedFloat.isNaN, UnpackedFloat.isInf]
    | finite sign' mantissa exponent pos =>
      cases sign <;> simp [UnpackedFloat.add, UnpackedFloat.isNaN, UnpackedFloat.isInf]
  | zero sign =>
    cases y.toModel.unpack with
    | notANumber => exact ⟨fun _ => .inr (.inl rfl), fun _ => rfl⟩
    | infinity sign' => simp [UnpackedFloat.add, UnpackedFloat.isNaN, UnpackedFloat.isInf]
    | zero sign' => cases sign <;> cases sign' <;> decide
    | finite sign' mantissa exponent pos =>
      simp [UnpackedFloat.add, UnpackedFloat.isNaN, UnpackedFloat.isInf]
  | finite sign mantissa exponent pos =>
    cases y.toModel.unpack with
    | notANumber => exact ⟨fun _ => .inr (.inl rfl), fun _ => rfl⟩
    | infinity sign' => simp [UnpackedFloat.add, UnpackedFloat.isNaN, UnpackedFloat.isInf]
    | zero sign' => simp [UnpackedFloat.add, UnpackedFloat.isNaN, UnpackedFloat.isInf]
    | finite sign' mantissa' exponent' pos' =>
      refine iff_of_false ?_ (by simp [UnpackedFloat.isNaN, UnpackedFloat.isInf])
      rw [Bool.not_eq_true]
      exact isNaN_normalize _ _ _

/-- The product of finite doubles is a number, at most an infinite one. -/
lemma isNaN_mul {x y : Float} (hx : x.isFinite = true) (hy : y.isFinite = true) :
    (x * y).isNaN = false := by
  change x.toModel.unpack.isFinite = true at hx
  change y.toModel.unpack.isFinite = true at hy
  change (Float.Model.pack _).unpack.isNaN = false
  rw [isNaN_pack]
  cases hu : x.toModel.unpack with
  | notANumber => rw [hu] at hx; cases hx
  | infinity sign => rw [hu] at hx; cases hx
  | zero sign =>
    cases hv : y.toModel.unpack with
    | notANumber => rw [hv] at hy; cases hy
    | infinity sign' => rw [hv] at hy; cases hy
    | zero sign' => rfl
    | finite sign' mantissa exponent pos => rfl
  | finite sign mantissa exponent pos =>
    cases hv : y.toModel.unpack with
    | notANumber => rw [hv] at hy; cases hy
    | infinity sign' => rw [hv] at hy; cases hy
    | zero sign' => rfl
    | finite sign' mantissa' exponent' pos' => exact isNaN_roundWithAccuracy _ _ _ _

/-- A finite double is a number. -/
lemma isNaN_of_isFinite {x : Float} (h : x.isFinite = true) : x.isNaN = false := by
  change x.toModel.unpack.isFinite = true at h
  change x.toModel.unpack.isNaN = false
  cases hu : x.toModel.unpack with
  | notANumber => rw [hu] at h; cases h
  | _ => rfl

/-- Taking away a finite double keeps what is a number and what is not. -/
lemma isNaN_sub {x y : Float} (hy : y.isFinite = true) : (x - y).isNaN = x.isNaN := by
  change y.toModel.unpack.isFinite = true at hy
  change (Float.Model.pack _).unpack.isNaN = x.toModel.unpack.isNaN
  rw [isNaN_pack]
  cases hv : y.toModel.unpack with
  | notANumber => rw [hv] at hy; cases hy
  | infinity sign => rw [hv] at hy; cases hy
  | zero sign =>
    cases x.toModel.unpack with
    | zero sign' => cases sign <;> cases sign' <;> rfl
    | _ => rfl
  | finite sign mantissa exponent pos =>
    cases x.toModel.unpack with
    | finite sign' mantissa' exponent' pos' => exact isNaN_normalize _ _ _
    | _ => rfl

/-- The magnitude is a number exactly if the double is. -/
lemma isNaN_abs (x : Float) : x.abs.isNaN = x.isNaN := by
  change (Float.Model.pack _).unpack.isNaN = x.toModel.unpack.isNaN
  rw [isNaN_pack]
  cases x.toModel.unpack <;> rfl

/-- The magnitude of a number is not negative. -/
lemma zero_le_abs {x : Float} (h : x.isNaN = false) : 0.0 ≤ x.abs := by
  change x.toModel.unpack.isNaN = false at h
  rw [le_iff, unpack_zero]
  change ∃ order ∈ (UnpackedFloat.zero .positive).compare
    (Float.Model.pack x.toModel.unpack.abs).unpack, order.isLE = true
  cases hu : x.toModel.unpack with
  | notANumber => rw [hu] at h; cases h
  | infinity sign => exact ⟨.lt, Option.mem_def.mpr (by cases sign <;> rfl), rfl⟩
  | zero sign => exact ⟨.eq, Option.mem_def.mpr (by cases sign <;> rfl), rfl⟩
  | finite sign mantissa exponent pos =>
    have canonical := canonical_of_unpack hu
    rw [UnpackedFloat.abs, unpack_pack_of_canonical canonical]
    exact ⟨.lt, rfl, rfl⟩

/-- What is not a number is not above zero. -/
lemma not_zero_le_of_isNaN {x : Float} (h : x.isNaN = true) : ¬ 0.0 ≤ x := fun le =>
  Bool.false_ne_true ((not_lt_zero_of_zero_le le).1.symm.trans h)

end Stepwise.Double
