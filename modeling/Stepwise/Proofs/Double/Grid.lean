import Stepwise.Proofs.Double.Value
import Mathlib

/-!
# Rounding on a grid

The numbers that have a mantissa and an exponent as a double keeps them, with no limit to the exponent
above, are a grid. Rounding takes a number to a point of the grid, and passes no other point on its way.
So a bound that is a point of the grid still holds after rounding, and all that overflows is what is
rounded to a point outside the range of doubles.
-/

namespace Stepwise.Double

open Float.Model (Format UnpackedFloat)
open Float.Model.UnpackedFloat

/-- A point of the grid. -/
def OnGrid (v : ℚ) : Prop :=
  v = 0 ∨ ∃ sign n e, Fits n e ∧ v = signed sign (n * 2 ^ e)

/-- Parts of a point of the grid. -/
inductive Proper : UnpackedFloat → Prop where
  | zero {sign} : Proper (.zero sign)
  | finite {sign n e pos} : Fits n e → Proper (.finite sign n e pos)

/-- No point of the grid lies between two numbers, apart from the second one. -/
def Near (v r : ℚ) : Prop :=
  ∀ w, OnGrid w → (w ≤ v → w ≤ r) ∧ (v ≤ w → r ≤ w)

/-- Parts that a number is rounded to. -/
structure Rounded (v : ℚ) (u : UnpackedFloat) : Prop where
  proper : Proper u
  near : Near v (valueOf u)

section Signs

/-- The opposite sign gives the opposite number. -/
lemma signed_neg (sign : Sign) (v : ℚ) : signed (-sign) v = -signed sign v := by
  cases sign with
  | positive => rfl
  | negative => exact (neg_neg v).symm

/-- A sign applied to a whole number gives the signed number. -/
lemma apply_eq_signed (sign : Sign) (n : ℕ) : ((sign.apply n : ℤ) : ℚ) = signed sign n := by
  cases sign with
  | positive => exact Int.cast_natCast n
  | negative => exact (Int.cast_neg _).trans (congrArg Neg.neg (Int.cast_natCast n))

/-- The magnitude of a signed number is the number without the sign. -/
lemma abs_signed (sign : Sign) {v : ℚ} (h : 0 ≤ v) : |signed sign v| = v := by
  cases sign with
  | positive => exact abs_of_nonneg h
  | negative => exact (abs_neg v).trans (abs_of_nonneg h)

/-- The grid is the same on both sides of zero. -/
lemma OnGrid.neg {v : ℚ} (h : OnGrid v) : OnGrid (-v) := by
  rcases h with rfl | ⟨sign, n, e, fits, rfl⟩
  · exact .inl neg_zero
  · exact .inr ⟨-sign, n, e, fits, (signed_neg sign _).symm⟩

/-- The magnitude of a point of the grid is a point of the grid. -/
lemma OnGrid.abs {v : ℚ} (h : OnGrid v) : OnGrid |v| := by
  rcases abs_choice v with e | e
  · rwa [e]
  · rw [e]
    exact h.neg

/-- Proper parts stand for a point of the grid. -/
lemma Proper.onGrid {u : UnpackedFloat} (h : Proper u) : OnGrid (valueOf u) := by
  cases h with
  | zero => exact .inl rfl
  | finite fits => exact .inr ⟨_, _, _, fits, rfl⟩

/-- A point of the grid is rounded to itself. -/
lemma Proper.rounded {u : UnpackedFloat} (h : Proper u) : Rounded (valueOf u) u :=
  ⟨h, fun _ _ => ⟨id, id⟩⟩

/-- Being near is kept by changing both signs. -/
lemma Near.neg {v r : ℚ} (h : Near v r) : Near (-v) (-r) := by
  intro w grid
  obtain ⟨lower, upper⟩ := h (-w) grid.neg
  constructor
  · intro le
    exact le_neg.mpr (upper (le_neg.mpr le))
  · intro le
    exact neg_le.mpr (lower (neg_le.mpr le))

/-- Being near is kept by giving both numbers the same sign. -/
lemma Near.signed {v r : ℚ} (sign : Sign) (h : Near v r) :
    Near (Double.signed sign v) (Double.signed sign r) := by
  cases sign with
  | positive => exact h
  | negative => exact h.neg

/-- Above zero only points above zero matter. -/
lemma near_of_fits {v r : ℚ} (nonneg : 0 ≤ v) (nonneg' : 0 ≤ r) (zero : v ≤ 0 → r ≤ 0)
    (h : ∀ n e, Fits n e → ((n * 2 ^ e : ℚ) ≤ v → (n * 2 ^ e : ℚ) ≤ r) ∧
      (v ≤ n * 2 ^ e → r ≤ n * 2 ^ e)) : Near v r := by
  rintro w (rfl | ⟨sign, n, e, fits, rfl⟩)
  · exact ⟨fun _ => nonneg', zero⟩
  · cases sign with
    | positive => exact h n e fits
    | negative =>
      have neg : -(n * 2 ^ e : ℚ) < 0 := neg_neg_of_pos (mul_zpow_two_pos fits.pos e)
      constructor
      · intro _
        exact neg.le.trans nonneg'
      · intro le
        exact absurd (nonneg.trans le) (not_le.mpr neg)

/-- Twice a point of the grid is a point of the grid. -/
lemma OnGrid.double {v : ℚ} (h : OnGrid v) : OnGrid (2 * v) := by
  have out (sign : Sign) (w : ℚ) : signed sign (2 * w) = 2 * signed sign w := by
    cases sign with
    | positive => rfl
    | negative => exact (mul_neg 2 w).symm
  rcases h with rfl | ⟨sign, n, e, fits, rfl⟩
  · exact .inl (mul_zero 2)
  · obtain ⟨pos, lt, low, full⟩ := fits
    by_cases normal : 2 ^ 52 ≤ n
    · refine .inr ⟨sign, n, e + 1, ⟨pos, lt, by omega, .inl normal⟩, ?_⟩
      rw [zpow_add_one₀ (by norm_num), ← out]
      congr 1
      ring
    · -- A mantissa that is not full has room for one bit more.
      refine .inr ⟨sign, 2 * n, e, ⟨by omega, by omega, low, .inr (full.resolve_left normal)⟩, ?_⟩
      rw [Nat.cast_mul, Nat.cast_ofNat, mul_assoc, out]

end Signs

section Round

variable {sign : Sign} {mantissa : ℕ} {exponent : ℤ} {accuracy : Accuracy} {v : ℚ}

/-- A whole number that is at most the exact mantissa is at most the rounded one. -/
lemma Stands.le_roundedMantissa {em : ExtendedMantissa} (h : Stands em.mantissa em.accuracy v) {j : ℕ}
    (le : j ≤ v) : j ≤ em.roundedMantissa := by
  have lt : (j : ℚ) < em.mantissa + 1 := lt_of_le_of_lt le h.bounds.2
  have le' : j ≤ em.mantissa := Nat.lt_succ_iff.mp (by exact_mod_cast lt)
  refine le'.trans ?_
  obtain ⟨m, roundBit, stickyBit⟩ := em
  cases roundBit <;> cases stickyBit
  · exact le_refl m
  · exact le_refl m
  · exact Nat.le_add_right m _
  · exact Nat.le_succ m

/-- A whole number that is at least the exact mantissa is at least the rounded one. -/
lemma Stands.roundedMantissa_le {em : ExtendedMantissa} (h : Stands em.mantissa em.accuracy v) {j : ℕ}
    (le : v ≤ j) : em.roundedMantissa ≤ j := by
  obtain ⟨m, roundBit, stickyBit⟩ := em
  have le' : m ≤ j := by
    have : (m : ℚ) ≤ j := h.bounds.1.trans le
    exact_mod_cast this
  -- What is rounded up was not exact, so there is room above the mantissa.
  have below (lt : (m : ℚ) < v) : m + 1 ≤ j := by
    have : (m : ℚ) < j := lt_of_lt_of_le lt le
    exact_mod_cast this
  cases roundBit <;> cases stickyBit
  · exact le'
  · exact le'
  · have lt : (m : ℚ) < v := by
      have half : v = m + 1 / 2 := h
      linarith
    have even := Nat.mod_lt m (Nat.succ_pos 1)
    change m + m % 2 ≤ j
    have room := below lt
    omega
  · have lt : (m : ℚ) < v := by
      have half : m + 1 / 2 < v ∧ v < m + 1 := h
      linarith [half.1]
    exact below lt

/-- Rounding a mantissa at the fitted exponent passes no point of the grid. -/
lemma Stands.near_roundedMantissa {em : ExtendedMantissa}
    (h : Stands mantissa accuracy (v / 2 ^ exponent)) (enough : exponent ≤ fitted mantissa exponent)
    (stands : Stands em.mantissa em.accuracy (v / 2 ^ fitted mantissa exponent)) :
    Near v (em.roundedMantissa * 2 ^ fitted mantissa exponent) := by
  have room : fitted mantissa exponent = -1074 ∨
      mantissa ≠ 0 ∧ fitted mantissa exponent = mantissa.log2 + exponent - 52 := by
    by_cases zero : mantissa = 0
    · rw [zero, fitted, Nat.log2_zero] at enough ⊢
      omega
    · rw [fitted]
      omega
  have large (lt : -1074 < fitted mantissa exponent) : (2 : ℚ) ^ (52 + fitted mantissa exponent) ≤ v := by
    obtain ⟨nonzero, e⟩ := room.resolve_left (ne_of_gt lt)
    rw [e, add_sub_cancel]
    exact h.le_value nonzero
  generalize fitted mantissa exponent = F at stands room large
  have scale := zpow_two_pos F
  have nonneg : 0 ≤ v := by
    have : (0 : ℚ) ≤ v / 2 ^ F := (Nat.cast_nonneg em.mantissa).trans stands.bounds.1
    rwa [le_div_iff₀ scale, zero_mul] at this
  have lower {j : ℕ} (le : j * 2 ^ F ≤ v) : (j * 2 ^ F : ℚ) ≤ em.roundedMantissa * 2 ^ F := by
    have := stands.le_roundedMantissa ((le_div_iff₀ scale).mpr le)
    exact mul_le_mul_of_nonneg_right (by exact_mod_cast this) scale.le
  have upper {j : ℕ} (le : v ≤ j * 2 ^ F) : (em.roundedMantissa * 2 ^ F : ℚ) ≤ j * 2 ^ F := by
    have := stands.roundedMantissa_le ((div_le_iff₀ scale).mpr le)
    exact mul_le_mul_of_nonneg_right (by exact_mod_cast this) scale.le
  refine near_of_fits nonneg (mul_nonneg (Nat.cast_nonneg _) scale.le) ?_ ?_
  · intro le
    have := upper (j := 0) (by rwa [Nat.cast_zero, zero_mul])
    rwa [Nat.cast_zero, zero_mul] at this
  · intro n e fits
    by_cases above : F ≤ e
    -- A point with a larger exponent is a multiple of the unit that is rounded to.
    · obtain ⟨shift, shift_eq⟩ : ∃ shift : ℕ, e - F = shift := Int.eq_ofNat_of_zero_le (by omega)
      have multiple : (n * 2 ^ e : ℚ) = (n * 2 ^ shift : ℕ) * 2 ^ F := by
        rw [Nat.cast_mul, Nat.cast_pow, Nat.cast_ofNat, ← zpow_natCast, ← shift_eq, mul_assoc,
          ← zpow_add₀ (by norm_num), sub_add_cancel]
      rw [multiple]
      exact ⟨lower, upper⟩
    -- A point with a smaller exponent is below the number, and so far that rounding stays above it.
    · have low := fits.low
      have full := large (by omega)
      have below : (n * 2 ^ e : ℚ) < 2 ^ (52 + F) :=
        lt_of_lt_of_le fits.lt_zpow (zpow_le_zpow_right₀ (by norm_num) (by omega))
      constructor
      · intro _
        have rounded := lower (j := 2 ^ 52) (by
          rw [Nat.cast_pow, Nat.cast_ofNat, ← zpow_natCast, ← zpow_add₀ (by norm_num)]
          exact full)
        rw [Nat.cast_pow, Nat.cast_ofNat, ← zpow_natCast, ← zpow_add₀ (by norm_num)] at rounded
        exact below.le.trans rounded
      · intro le
        exact absurd (full.trans le) (not_le.mpr below)

/-- Rounding ends in a point of the grid, and passes no other one. -/
lemma rounded_roundWithAccuracy (sign : Sign) (h : Stands mantissa accuracy (v / 2 ^ exponent))
    (enough : exponent ≤ fitted mantissa exponent) :
    Rounded (signed sign v) (roundWithAccuracy Format.binary64 sign mantissa exponent accuracy) := by
  obtain ⟨em, first, stands⟩ := h.fit enough
  have near := h.near_roundedMantissa enough stands
  have low : -1074 ≤ fitted mantissa exponent := le_max_right _ _
  have full (lt : -1074 < fitted mantissa exponent) : 2 ^ 52 ≤ em.roundedMantissa := by
    have large : (2 ^ 52 * 2 ^ fitted mantissa exponent : ℚ) ≤ v := by
      have nonzero : mantissa ≠ 0 := by
        rintro rfl
        rw [fitted, Nat.log2_zero] at lt enough
        omega
      have e : fitted mantissa exponent = mantissa.log2 + exponent - 52 := by
        rw [fitted] at lt ⊢
        omega
      rw [← zpow_natCast, ← zpow_add₀ (by norm_num), e]
      exact (zpow_le_zpow_right₀ (by norm_num) (by push_cast; omega)).trans (h.le_value nonzero)
    refine stands.le_roundedMantissa ?_
    rw [Nat.cast_pow, Nat.cast_ofNat]
    exact (le_div_iff₀ (zpow_two_pos _)).mpr large
  have most : em.roundedMantissa ≤ 2 ^ 53 := by
    refine stands.roundedMantissa_le ?_
    rw [Nat.cast_pow, Nat.cast_ofNat, ← zpow_natCast]
    refine (div_zpow_two_lt_iff.mpr (lt_of_lt_of_le h.value_lt ?_)).le
    refine zpow_le_zpow_right₀ (by norm_num) ?_
    rw [fitted]
    push_cast
    omega
  unfold roundWithAccuracy
  rw [first]
  dsimp only
  generalize fitted mantissa exponent = F at near low full
  generalize em.roundedMantissa = N at near full most
  rcases Nat.lt_or_ge N (2 ^ 53) with lt | ge
  -- Nothing is carried, and the second shift does nothing.
  · have within : fitted N F ≤ F := by
      have log_lt : N.log2 < 53 := by
        by_cases zero : N = 0
        · rw [zero, Nat.log2_zero]
          norm_num
        · exact (Nat.log2_lt zero).mpr lt
      rw [fitted]
      omega
    have second : shiftToTargetExponent Format.binary64 N F .exact = (⟨N, false, false⟩, F) := by
      unfold shiftToTargetExponent shiftToExponent
      dsimp only
      rw [targetExponent_totalExponent, Int.toNat_of_nonpos (by omega), Nat.cast_zero, add_zero]
      rfl
    rw [second]
    dsimp only
    split
    case isTrue zero =>
      refine ⟨.zero, ?_⟩
      rw [zero, Nat.cast_zero, zero_mul] at near
      have := near.signed sign
      cases sign with
      | positive => exact this
      | negative => rwa [signed, signed, neg_zero] at this
    case isFalse nonzero =>
      refine ⟨.finite ⟨Nat.pos_of_ne_zero nonzero, lt, low, ?_⟩, near.signed sign⟩
      by_cases least : F = -1074
      · exact .inr least
      · exact .inl (full (by omega))
  -- The mantissa is rounded to `2 ^ 53`, and the second shift brings it back to 53 bits.
  · obtain rfl : N = 2 ^ 53 := le_antisymm most ge
    have fitted_eq : fitted (2 ^ 53) F = F + 1 := by
      rw [fitted, Nat.log2_two_pow]
      omega
    have second : shiftToTargetExponent Format.binary64 (2 ^ 53) F .exact =
        (⟨2 ^ 52, false, false⟩, F + 1) := by
      rw [shiftToTargetExponent_eq (by omega), fitted_eq, add_sub_cancel_left]
      rfl
    rw [second]
    refine ⟨.finite ⟨by norm_num, by norm_num, by omega, .inl (le_refl _)⟩, ?_⟩
    have value : ((2 ^ 53 : ℕ) * 2 ^ F : ℚ) = (2 ^ 52 : ℕ) * 2 ^ (F + 1) := by
      rw [zpow_add_one₀ (by norm_num)]
      push_cast
      ring
    rw [value] at near
    exact near.signed sign

end Round

end Stepwise.Double
