import Stepwise.Proofs.Double.Packing
import Mathlib

/-!
# Rounding to a double

An operation on doubles is exact up to its last step, which cuts the result off at some bit and keeps
how the rest compares to a half. So it is enough to know which exact values end in a double: those in its
cell, which are nearer to the double than to its neighbours, with the ends of the cell if the mantissa is
even.
-/

namespace Stepwise.Double

open Float.Model (Format UnpackedFloat totalExponent)
open Float.Model.UnpackedFloat

/-- A mantissa and its accuracy stand for a value. -/
def Stands (mantissa : ℕ) (accuracy : Accuracy) (value : ℚ) : Prop :=
  match accuracy with
  | .exact => value = mantissa
  | .inexact .lt => mantissa < value ∧ value < mantissa + 1 / 2
  | .inexact .eq => value = mantissa + 1 / 2
  | .inexact .gt => mantissa + 1 / 2 < value ∧ value < mantissa + 1

/-- A whole number is nearest to a value, or it is even and one of the two nearest. -/
def Nearest (n : ℕ) (value : ℚ) : Prop :=
  if n % 2 = 0 then n - 1 / 2 ≤ value ∧ value ≤ n + 1 / 2
  else n - 1 / 2 < value ∧ value < n + 1 / 2

/-- The exact values that are rounded to a double. Below a power of two, the doubles are twice as
close. -/
structure Cell (mantissa : ℕ) (exponent : ℤ) (value : ℚ) : Prop where
  nearest : Nearest mantissa (value / 2 ^ exponent)
  close : mantissa = 2 ^ 52 → -1074 < exponent → (2 ^ 52 - 1 / 4 : ℚ) ≤ value / 2 ^ exponent

/-- A power of two with an integer exponent is positive. -/
lemma zpow_two_pos (n : ℤ) : (0 : ℚ) < 2 ^ n :=
  zpow_pos (by norm_num) n

/-- A number scaled by a power of two is below another power exactly if it is below the product of both. -/
lemma div_zpow_two_lt_iff {value : ℚ} {m n : ℤ} : value / 2 ^ n < 2 ^ m ↔ value < 2 ^ (m + n) := by
  rw [div_lt_iff₀ (zpow_two_pos n), zpow_add₀ (by norm_num)]

/-- Powers of two are ordered as their exponents. -/
lemma zpow_two_lt_iff {m n : ℤ} : (2 : ℚ) ^ m < 2 ^ n ↔ m < n :=
  zpow_lt_zpow_iff_right₀ (by norm_num)

/-- A mantissa with its accuracy leaves less than one unit open. -/
lemma Stands.bounds {mantissa : ℕ} {accuracy : Accuracy} {value : ℚ}
    (h : Stands mantissa accuracy value) : mantissa ≤ value ∧ value < mantissa + 1 := by
  unfold Stands at h
  split at h
  case h_1 => exact ⟨h.ge, h ▸ lt_add_one _⟩
  case h_2 => exact ⟨h.1.le, by linarith⟩
  case h_3 => exact ⟨by linarith, by linarith⟩
  case h_4 => exact ⟨by linarith, h.2⟩

/-- A nearest integer is at most half a unit away. -/
lemma Nearest.bounds {n : ℕ} {value : ℚ} (h : Nearest n value) :
    n - 1 / 2 ≤ value ∧ value ≤ n + 1 / 2 := by
  unfold Nearest at h
  split at h
  case isTrue => exact h
  case isFalse => exact ⟨h.1.le, h.2.le⟩

/-- An integer is its own nearest one. -/
lemma Nearest.self (n : ℕ) : Nearest n n := by
  unfold Nearest
  split
  case isTrue => constructor <;> linarith
  case isFalse => constructor <;> linarith

section Shift

variable {em : ExtendedMantissa} {value : ℚ}

/-- Shifting a mantissa by one bit halves what it stands for, and the accuracy keeps track of the lost bit.
-/
lemma Stands.shiftRightOne (h : Stands em.mantissa em.accuracy value) :
    Stands em.shiftRightOne.mantissa em.shiftRightOne.accuracy (value / 2) := by
  obtain ⟨mantissa, roundBit, stickyBit⟩ := em
  -- The bit that is cut off is the new round bit, and the two others are the new sticky bit.
  rcases Nat.even_or_odd' mantissa with ⟨k, rfl | rfl⟩
  · have half : 2 * k / 2 = k := by omega
    have bit : (2 * k % 2 != 0) = false := by simp
    cases roundBit <;> cases stickyBit <;>
      simp only [ExtendedMantissa.accuracy, ExtendedMantissa.shiftRightOne, Stands, half, bit,
        Bool.or_false, Bool.or_true, Nat.cast_mul, Nat.cast_ofNat] at h ⊢
    · linarith
    · constructor <;> linarith
    · constructor <;> linarith
    · constructor <;> linarith
  · have half : (2 * k + 1) / 2 = k := by omega
    have bit : ((2 * k + 1) % 2 != 0) = true := by simp
    cases roundBit <;> cases stickyBit <;>
      simp only [ExtendedMantissa.accuracy, ExtendedMantissa.shiftRightOne, Stands, half, bit,
        Bool.or_false, Bool.or_true, Nat.cast_mul, Nat.cast_ofNat, Nat.cast_add,
        Nat.cast_one] at h ⊢
    · linarith
    · constructor <;> linarith
    · constructor <;> linarith
    · constructor <;> linarith

/-- Shifting a mantissa divides what it stands for by a power of two. -/
lemma Stands.shiftRight (h : Stands em.mantissa em.accuracy value) (n : ℕ) :
    Stands (em >>> n).mantissa (em >>> n).accuracy (value / 2 ^ n) := by
  induction n with
  | zero => rwa [pow_zero, div_one]
  | succ n ih =>
    rw [pow_succ, ← div_div]
    exact ih.shiftRightOne

/-- A mantissa is rounded to the whole number nearest to the value it stands for. -/
lemma Stands.roundedMantissa_eq (h : Stands em.mantissa em.accuracy value) {n : ℕ}
    (nearest : Nearest n value) : em.roundedMantissa = n := by
  obtain ⟨mantissa, roundBit, stickyBit⟩ := em
  obtain ⟨low, high⟩ := h.bounds
  obtain ⟨low', high'⟩ := nearest.bounds
  have le : mantissa ≤ n := by
    have : (mantissa : ℚ) < n + 1 := by linarith
    exact Nat.lt_succ_iff.mp (by exact_mod_cast this)
  have le' : n ≤ mantissa + 1 := by
    have : (n : ℚ) < mantissa + 1 + 1 := by linarith
    exact Nat.lt_succ_iff.mp (by exact_mod_cast this)
  obtain rfl | rfl : n = mantissa ∨ n = mantissa + 1 := by omega
  · unfold Nearest at nearest
    cases roundBit <;> cases stickyBit <;>
      simp only [ExtendedMantissa.accuracy, ExtendedMantissa.roundedMantissa,
        Accuracy.roundToNearestEven, Stands] at h ⊢
    · -- Half way between two whole numbers, the lower one is the even one.
      split at nearest
      case isTrue even => rw [even, Nat.add_zero]
      case isFalse => linarith
    · linarith
  · unfold Nearest at nearest
    rw [Nat.cast_add, Nat.cast_one] at *
    cases roundBit <;> cases stickyBit <;>
      simp only [ExtendedMantissa.accuracy, ExtendedMantissa.roundedMantissa,
        Accuracy.roundToNearestEven, Stands] at h ⊢
    · linarith
    · linarith
    · split at nearest
      case isTrue even => omega
      case isFalse => linarith

end Shift

/-- The exponent of the result of rounding, unless a carry raises it. -/
def fitted (mantissa : ℕ) (exponent : ℤ) : ℤ :=
  max (mantissa.log2 + exponent - 52) (-1074)

/-- The exponent of a double with a leading bit at a given place: fifty-three bits, or the least exponent.
-/
lemma targetExponent_eq (total : ℤ) :
    Format.binary64.targetExponent total = max (total - 53) (-1074) := by
  have least : Format.binary64.minExponent = -1074 := rfl
  have width : Format.binary64.mantissaBits = 53 := rfl
  rw [Format.targetExponent, least, width, Nat.cast_ofNat]

/-- The target exponent of a mantissa is the one it is fitted to. -/
lemma targetExponent_totalExponent (mantissa : ℕ) (exponent : ℤ) :
    Format.binary64.targetExponent (totalExponent mantissa exponent) = fitted mantissa exponent := by
  rw [targetExponent_eq, totalExponent, fitted]
  congr 1
  omega

/-- A mantissa with its accuracy, as bits that can be shifted. -/
lemma Stands.ofMantissaAndAccuracy {mantissa : ℕ} {accuracy : Accuracy} {value : ℚ}
    (h : Stands mantissa accuracy value) :
    Stands (ExtendedMantissa.ofMantissaAndAccuracy mantissa accuracy).mantissa
      (ExtendedMantissa.ofMantissaAndAccuracy mantissa accuracy).accuracy value := by
  match accuracy with
  | .exact => exact h
  | .inexact .lt => exact h
  | .inexact .eq => exact h
  | .inexact .gt => exact h

section Fit

variable {mantissa : ℕ} {exponent : ℤ} {accuracy : Accuracy} {value : ℚ}

/-- Bringing a mantissa to its target exponent shifts it by the difference of the exponents. -/
lemma shiftToTargetExponent_eq (enough : exponent ≤ fitted mantissa exponent) :
    shiftToTargetExponent Format.binary64 mantissa exponent accuracy =
      (ExtendedMantissa.ofMantissaAndAccuracy mantissa accuracy >>>
        (fitted mantissa exponent - exponent).toNat, fitted mantissa exponent) := by
  unfold shiftToTargetExponent shiftToExponent
  dsimp only
  rw [targetExponent_totalExponent, Int.toNat_sub_of_le enough, add_sub_cancel]

/-- Shifted to the fitted exponent, a mantissa stands for the same value. -/
lemma Stands.fit (h : Stands mantissa accuracy (value / 2 ^ exponent))
    (enough : exponent ≤ fitted mantissa exponent) :
    ∃ em, shiftToTargetExponent Format.binary64 mantissa exponent accuracy =
        (em, fitted mantissa exponent) ∧
      Stands em.mantissa em.accuracy (value / 2 ^ fitted mantissa exponent) := by
  refine ⟨_, shiftToTargetExponent_eq enough, ?_⟩
  have shifted := h.ofMantissaAndAccuracy.shiftRight (fitted mantissa exponent - exponent).toNat
  rwa [div_div, ← zpow_natCast, ← zpow_add₀ (by norm_num), Int.toNat_sub_of_le enough,
    add_sub_cancel] at shifted

/-- What a mantissa stands for is below the power of two after its leading bit. -/
lemma Stands.value_lt (h : Stands mantissa accuracy (value / 2 ^ exponent)) :
    value < 2 ^ (mantissa.log2 + 1 + exponent) := by
  have bits : (mantissa : ℚ) + 1 ≤ 2 ^ (mantissa.log2 + 1) := by
    exact_mod_cast Nat.lt_log2_self
  refine div_zpow_two_lt_iff.mp (lt_of_lt_of_le h.bounds.2 ?_)
  exact_mod_cast bits

/-- What a mantissa stands for reaches the power of two of its leading bit. -/
lemma Stands.le_value (h : Stands mantissa accuracy (value / 2 ^ exponent)) (ne : mantissa ≠ 0) :
    2 ^ (mantissa.log2 + exponent) ≤ value := by
  have bits : (2 : ℚ) ^ (mantissa.log2 : ℤ) ≤ value / 2 ^ exponent := by
    refine le_trans ?_ h.bounds.1
    exact_mod_cast Nat.log2_self_le ne
  rwa [le_div_iff₀ (zpow_two_pos _), ← zpow_add₀ (by norm_num)] at bits

/-- What a canonical cell rounds is below the power of two after the full mantissa. -/
lemma Cell.value_lt {n : ℕ} {e : ℤ} (cell : Cell n e value) (canonical : Canonical n e) :
    value < 2 ^ (53 + e) := by
  have bits : (n : ℚ) + 1 ≤ 2 ^ 53 := by exact_mod_cast canonical.lt
  refine div_zpow_two_lt_iff.mp (lt_of_le_of_lt cell.nearest.bounds.2 ?_)
  rw [zpow_ofNat]
  linarith

/-- The fitted exponent is the one of the double in whose cell the value lies, unless the value is just
below a power of two. -/
lemma Cell.fitted_eq {n : ℕ} {e : ℤ} (cell : Cell n e value) (canonical : Canonical n e)
    (h : Stands mantissa accuracy (value / 2 ^ exponent)) (enough : exponent ≤ fitted mantissa exponent) :
    fitted mantissa exponent = e ∨
      fitted mantissa exponent = e - 1 ∧ n = 2 ^ 52 ∧ -1074 < e ∧ value / 2 ^ e < 2 ^ 52 := by
  have size := h.value_lt
  have least := cell.nearest.bounds.1
  have low := canonical.low
  have le : fitted mantissa exponent ≤ e := by
    by_cases zero : mantissa = 0
    case pos =>
      rw [zero, fitted, Nat.log2_zero] at enough ⊢
      omega
    case neg =>
      have := zpow_two_lt_iff.mp (lt_of_le_of_lt (h.le_value zero) (cell.value_lt canonical))
      rw [fitted]
      omega
  rcases canonical.full with full | rfl
  · have large : 2 ^ (51 + e) < value := by
      have : (2 ^ 52 : ℚ) ≤ n := by exact_mod_cast full
      rw [zpow_add₀ (by norm_num), ← lt_div_iff₀ (zpow_two_pos e), zpow_ofNat]
      linarith
    have ge := zpow_two_lt_iff.mp (lt_trans large size)
    -- One exponent less is possible too: the value is rounded up to the power of two.
    by_cases same : fitted mantissa exponent = e
    case pos => exact .inl same
    case neg =>
      obtain ⟨below_e, top, above_least⟩ : fitted mantissa exponent = e - 1 ∧
          mantissa.log2 + 1 + exponent = 52 + e ∧ -1074 < e := by
        rw [fitted] at le same ⊢
        omega
      rw [top, ← div_zpow_two_lt_iff, zpow_ofNat] at size
      have : (n : ℚ) < 2 ^ 52 + 1 := by linarith
      have : n < 2 ^ 52 + 1 := by exact_mod_cast this
      exact .inr ⟨below_e, by omega, above_least, size⟩
  · refine .inl (le_antisymm le ?_)
    rw [fitted]
    omega

end Fit

/-- A canonical mantissa is fitted already. -/
lemma Canonical.fitted_eq {mantissa : ℕ} {exponent : ℤ} (canonical : Canonical mantissa exponent) :
    fitted mantissa exponent = exponent := by
  obtain ⟨pos, lt, low, -, full⟩ := canonical
  have log_le : mantissa.log2 < 53 := (Nat.log2_lt (Nat.ne_of_gt pos)).mpr lt
  rw [fitted]
  rcases full with full | rfl
  · have le_log : 52 ≤ mantissa.log2 := (Nat.le_log2 (Nat.ne_of_gt pos)).mpr full
    omega
  · omega

section Round

variable {sign : Sign} {mantissa n : ℕ} {exponent e : ℤ} {accuracy : Accuracy} {value : ℚ}

/-- Rounding is done in two shifts, of which the second one is for a carry. -/
lemma roundWithAccuracy_eq {em em' : ExtendedMantissa} {e' : ℤ}
    (first : shiftToTargetExponent Format.binary64 mantissa exponent accuracy = (em, e))
    (second : shiftToTargetExponent Format.binary64 em.roundedMantissa e .exact = (em', e'))
    (pos : 0 < em'.mantissa) :
    roundWithAccuracy Format.binary64 sign mantissa exponent accuracy =
      .finite sign em'.mantissa e' pos := by
  unfold roundWithAccuracy
  simp only [first, second]
  rw [dif_neg (Nat.ne_of_gt pos)]

/-- A value in the cell of a double is rounded to that double. -/
theorem roundWithAccuracy_of_cell (canonical : Canonical n e) (cell : Cell n e value)
    (h : Stands mantissa accuracy (value / 2 ^ exponent)) (enough : exponent ≤ fitted mantissa exponent) :
    roundWithAccuracy Format.binary64 sign mantissa exponent accuracy =
      .finite sign n e canonical.pos := by
  obtain ⟨em, first, stands⟩ := h.fit enough
  rcases cell.fitted_eq canonical h enough with same | ⟨below, rfl, above, under⟩
  -- Nothing is carried, and the second shift does nothing.
  · rw [same] at first stands
    have second : shiftToTargetExponent Format.binary64 em.roundedMantissa e .exact =
        (⟨n, false, false⟩, e) := by
      rw [stands.roundedMantissa_eq cell.nearest,
        shiftToTargetExponent_eq canonical.fitted_eq.ge, canonical.fitted_eq, sub_self]
      rfl
    exact roundWithAccuracy_eq first second canonical.pos
  -- The mantissa is rounded to `2 ^ 53`, and the second shift brings it back to 53 bits.
  · rw [below] at first stands
    have carry : Nearest (2 ^ 53) (value / 2 ^ (e - 1)) := by
      have close := cell.close rfl above
      have double : value / 2 ^ (e - 1) = 2 * (value / 2 ^ e) := by
        rw [zpow_sub_one₀ (by norm_num)]
        ring
      rw [Nearest, if_pos (by norm_num), double, Nat.cast_pow, Nat.cast_ofNat]
      constructor <;> linarith
    have second : shiftToTargetExponent Format.binary64 em.roundedMantissa (e - 1) .exact =
        (⟨2 ^ 52, false, false⟩, e) := by
      have fitted : fitted (2 ^ 53) (e - 1) = e := by
        rw [fitted, Nat.log2_two_pow]
        omega
      rw [stands.roundedMantissa_eq carry, shiftToTargetExponent_eq (by omega), fitted,
        sub_sub_cancel]
      rfl
    exact roundWithAccuracy_eq first second canonical.pos

end Round

section Operations

variable {s₁ s₂ : Sign} {m₁ m₂ n : ℕ} {e₁ e₂ e : ℤ} {pos₁ : 0 < m₁} {pos₂ : 0 < m₂}

/-- A product in the cell of a double is that double, if the factors have enough bits. -/
lemma mul_of_cell (canonical : Canonical n e) (cell : Cell n e (m₁ * 2 ^ e₁ * (m₂ * 2 ^ e₂)))
    (enough : 2 ^ 52 ≤ m₁ * m₂) :
    mul Format.binary64 (.finite s₁ m₁ e₁ pos₁) (.finite s₂ m₂ e₂ pos₂) =
      .finite (s₁ * s₂) n e canonical.pos := by
  refine roundWithAccuracy_of_cell canonical cell ?_ ?_
  · rw [Stands, mul_mul_mul_comm, ← zpow_add₀ (by norm_num), mul_div_assoc,
      div_self (zpow_two_pos _).ne', mul_one, Nat.cast_mul]
  · have bits : 52 ≤ (m₁ * m₂).log2 := (Nat.le_log2 (Nat.mul_pos pos₁ pos₂).ne').mpr enough
    rw [fitted]
    omega

/-- The remainder of a division tells how accurate the quotient is. -/
lemma stands_div (m₁ : ℕ) {m₂ : ℕ} (pos : 0 < m₂) :
    Stands (m₁ / m₂) (accuracyOfFraction (m₁ % m₂) m₂) (m₁ / m₂) := by
  have pos' : (0 : ℚ) < m₂ := by exact_mod_cast pos
  have value : (m₁ / m₂ : ℚ) = (m₁ / m₂ : ℕ) + (m₁ % m₂ : ℕ) / m₂ := by
    rw [div_eq_iff pos'.ne', add_mul, div_mul_cancel₀ _ pos'.ne']
    exact_mod_cast (Nat.div_add_mod' m₁ m₂).symm
  have rest : ((m₁ % m₂ : ℕ) / m₂ : ℚ) < 1 := by
    rw [div_lt_one pos']
    exact_mod_cast Nat.mod_lt m₁ pos
  rw [value]
  unfold accuracyOfFraction
  split
  case isTrue zero => rw [zero, Nat.cast_zero, zero_div, add_zero]; rfl
  case isFalse nonzero =>
    have rest_pos : (0 : ℚ) < (m₁ % m₂ : ℕ) / m₂ :=
      div_pos (by exact_mod_cast Nat.pos_of_ne_zero nonzero) pos'
    cases order : compare (2 * (m₁ % m₂)) m₂ with
    | lt =>
      have half : ((m₁ % m₂ : ℕ) / m₂ : ℚ) < 1 / 2 := by
        rw [div_lt_iff₀ pos']
        have : (2 * (m₁ % m₂ : ℕ) : ℚ) < m₂ := by exact_mod_cast Nat.compare_eq_lt.mp order
        linarith
      exact ⟨by linarith, by linarith⟩
    | eq =>
      have half : ((m₁ % m₂ : ℕ) / m₂ : ℚ) = 1 / 2 := by
        rw [div_eq_iff pos'.ne']
        have : (2 * (m₁ % m₂ : ℕ) : ℚ) = m₂ := by exact_mod_cast Nat.compare_eq_eq.mp order
        linarith
      exact congrArg _ half
    | gt =>
      have half : (1 / 2 : ℚ) < (m₁ % m₂ : ℕ) / m₂ := by
        rw [lt_div_iff₀ pos']
        have : (m₂ : ℚ) < 2 * (m₁ % m₂ : ℕ) := by exact_mod_cast Nat.compare_eq_gt.mp order
        linarith
      exact ⟨by linarith, by linarith⟩

/-- A quotient is rounded from enough bits of it. -/
lemma div_eq_roundWithAccuracy (s₁ s₂ : Sign) (e₁ e₂ : ℤ) (pos₁ : 0 < m₁) (pos₂ : 0 < m₂) :
    ∃ m e accuracy, div Format.binary64 (.finite s₁ m₁ e₁ pos₁) (.finite s₂ m₂ e₂ pos₂) =
        roundWithAccuracy Format.binary64 (s₁ / s₂) m e accuracy ∧
      Stands m accuracy (m₁ * 2 ^ e₁ / (m₂ * 2 ^ e₂) / 2 ^ e) ∧ e ≤ fitted m e := by
  -- The dividend is shifted far enough for a full quotient, or down to the least exponent.
  have target := targetExponent_eq (totalExponent m₁ e₁ - totalExponent m₂ e₂)
  rw [totalExponent, totalExponent] at target
  unfold div divCore
  dsimp only
  rw [totalExponent, totalExponent, target]
  generalize least : min (e₁ - e₂) _ = t
  obtain ⟨shift, shift_eq⟩ : ∃ shift : ℕ, e₁ - e₂ - t = shift := Int.eq_ofNat_of_zero_le (by omega)
  rw [shift_eq, Int.toNat_natCast]
  refine ⟨_, _, _, rfl, ?_, ?_⟩
  · convert stands_div (m₁ <<< shift) pos₂ using 1
    rw [Nat.shiftLeft_eq, Nat.cast_mul, Nat.cast_pow, Nat.cast_ofNat, ← zpow_natCast, ← shift_eq,
      zpow_sub₀ (by norm_num), zpow_sub₀ (by norm_num)]
    field_simp
  · by_cases low : t ≤ -1074
    case pos => rw [fitted]; omega
    case neg =>
      have bits : 52 ≤ (m₁ <<< shift / m₂).log2 := by
        have full : 2 ^ 52 ≤ m₁ <<< shift / m₂ := by
          rw [Nat.le_div_iff_mul_le pos₂, Nat.shiftLeft_eq]
          calc 2 ^ 52 * m₂ ≤ 2 ^ 52 * 2 ^ (m₂.log2 + 1) :=
                Nat.mul_le_mul_left _ Nat.lt_log2_self.le
            _ = 2 ^ (52 + (m₂.log2 + 1)) := (Nat.pow_add ..).symm
            _ ≤ 2 ^ (m₁.log2 + shift) := Nat.pow_le_pow_right (by norm_num) (by omega)
            _ = 2 ^ m₁.log2 * 2 ^ shift := Nat.pow_add ..
            _ ≤ m₁ * 2 ^ shift := Nat.mul_le_mul_right _ (Nat.log2_self_le pos₁.ne')
        exact (Nat.le_log2 (Nat.ne_of_gt (lt_of_lt_of_le (by norm_num) full))).mpr full
      rw [fitted]
      omega

/-- A quotient in the cell of a double is that double. -/
lemma div_of_cell (canonical : Canonical n e) (cell : Cell n e (m₁ * 2 ^ e₁ / (m₂ * 2 ^ e₂))) :
    div Format.binary64 (.finite s₁ m₁ e₁ pos₁) (.finite s₂ m₂ e₂ pos₂) =
      .finite (s₁ / s₂) n e canonical.pos := by
  obtain ⟨m, e', accuracy, rounding, stands, enough⟩ := div_eq_roundWithAccuracy s₁ s₂ e₁ e₂ pos₁ pos₂
  rw [rounding]
  exact roundWithAccuracy_of_cell canonical cell stands enough

end Operations

end Stepwise.Double
