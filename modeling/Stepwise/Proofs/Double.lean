import Stepwise.Arithmetic
import Mathlib.Tactic.Common

/-!
# Comparing doubles

What the comparisons of doubles mean: a double is not a number, or it is on one side of zero, or it is a
zero of either sign.
-/

namespace Stepwise.Double

open Float.Model (UnpackedFloat)

/-- The parts of zero are a zero with a plus sign. -/
lemma unpack_zero : (0.0 : Float).toModel.unpack = .zero .positive := by
  rfl

/-- One double is below another one if their parts compare so. -/
lemma lt_iff {x y : Float} :
    x < y ↔ x.toModel.unpack.compare y.toModel.unpack = some .lt := by
  show (decide (x.toModel < y.toModel)) = true ↔ _
  rw [decide_eq_true_iff]
  show (x.toModel.unpack.compare y.toModel.unpack == some .lt) = true ↔ _
  rw [beq_iff_eq]

/-- Two doubles are equal as numbers if their parts compare so. -/
lemma beq_iff {x y : Float} :
    (x == y) = true ↔ x.toModel.unpack.compare y.toModel.unpack = some .eq := by
  show (x.toModel.unpack.compare y.toModel.unpack == some .eq) = true ↔ _
  rw [beq_iff_eq]

/-- One double is at most another one if their parts compare as less or equal. -/
lemma le_iff {x y : Float} :
    x ≤ y ↔ ∃ order ∈ x.toModel.unpack.compare y.toModel.unpack, order.isLE = true := by
  show (decide (x.toModel ≤ y.toModel)) = true ↔ _
  rw [decide_eq_true_iff]
  show (x.toModel.unpack.compare y.toModel.unpack).any Ordering.isLE = true ↔ _
  rw [Option.any_eq_true]
  rfl

/-- What is not below zero is a number that is not negative. -/
lemma not_lt_zero_of_zero_le {x : Float} (h : 0.0 ≤ x) : x.isNaN = false ∧ ¬ x < 0.0 := by
  show x.toModel.unpack.isNaN = false ∧ _
  rw [le_iff, unpack_zero] at h
  rw [lt_iff, unpack_zero]
  obtain ⟨order, compared, le⟩ := h
  cases e : x.toModel.unpack with
  | notANumber => rw [e] at compared; cases compared
  | infinity sign =>
    rw [e] at compared
    cases sign <;> cases compared
    · cases le
    · exact ⟨rfl, nofun⟩
  | zero sign => exact ⟨rfl, nofun⟩
  | finite sign mantissa exponent pos =>
    rw [e] at compared
    cases sign <;> cases compared
    · cases le
    · exact ⟨rfl, nofun⟩

/-- A double that is a number is negative, zero or positive. -/
lemma lt_zero_or_beq_zero_or_zero_lt {x : Float} (h : x.isNaN = false) :
    x < 0.0 ∨ (x == 0.0) = true ∨ 0.0 < x := by
  rw [lt_iff, beq_iff, lt_iff, unpack_zero]
  have h' : x.toModel.unpack.isNaN = false := h
  cases e : x.toModel.unpack with
  | notANumber => rw [e] at h'; cases h'
  | infinity sign =>
    cases sign with
    | positive => exact .inr (.inr rfl)
    | negative => exact .inl rfl
  | zero sign => exact .inr (.inl rfl)
  | finite sign mantissa exponent pos =>
    cases sign with
    | positive => exact .inr (.inr rfl)
    | negative => exact .inl rfl

end Stepwise.Double
