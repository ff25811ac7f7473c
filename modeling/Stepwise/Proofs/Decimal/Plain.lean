import Stepwise.Decimal.Layout
import Stepwise.Proofs.Decimal.Conversion
import Stepwise.Proofs.Decimal.Shortest
import Mathlib

/-!
# The plain form of a double reads back

The plain form writes the shortest decimal of a double without an exponent, and reading gives the amount
that is written. The amount lies in the cell of the double, so it is converted back to the double.
-/

namespace Stepwise.Decimal

open Float.Model (Format UnpackedFloat)
open Float.Model.UnpackedFloat
open Double

/-- The exact value of the parts of a double. -/
def Exact.ofUnpacked : UnpackedFloat → Exact
  | .notANumber => .nan
  | .infinity sign => .infinite (sign == .negative)
  | .zero sign => .finite (sign == .negative) 0 (-1074)
  | .finite sign mantissa exponent _ => .finite (sign == .negative) mantissa exponent

/-- Taking the bits of a double apart gives its parts. -/
lemma Exact.ofFloat_eq (x : Float) : Exact.ofFloat x = Exact.ofUnpacked x.toModel.unpack := by
  change _ = Exact.ofUnpacked (unpack Format.binary64 x.toModel.toBits.toBitVec)
  have bits : x.toBits.toNat = x.toModel.toBits.toBitVec.toNat := rfl
  unfold Exact.ofFloat
  rw [bits]
  generalize x.toModel.toBits.toBitVec = word
  have exponent : word.toNat / Nat.pow 2 52 % Nat.pow 2 11 = (exponentBits word).toNat :=
    (toNat_exponentBits word).symm
  have mantissa : word.toNat % Nat.pow 2 52 = (mantissaBits word).toNat :=
    (toNat_mantissaBits word).symm
  have sign : decide (Nat.pow 2 63 ≤ word.toNat) = (signOf word == .negative) := by
    rw [signOf_eq]
    split
    case isTrue neg => exact decide_eq_true neg
    case isFalse nonneg => exact decide_eq_false nonneg
  dsimp only
  rw [exponent, mantissa, sign]
  -- Both sides distinguish exponents of ones only, of zeros only, and others.
  by_cases full : (exponentBits word).toNat = 2047
  · rw [if_pos full, unpack_of_full full]
    split <;> rfl
  · rw [if_neg full]
    by_cases empty : (exponentBits word).toNat = 0
    · rw [if_pos empty, unpack_of_empty empty]
      split
      case isTrue => rfl
      case isFalse zero =>
        rw [Nat.eq_zero_of_not_pos zero]
        rfl
    · rw [if_neg empty, unpack_of_partial full empty]
      rfl

/-- A text of digits alone is read as a whole number. -/
lemma read?_whole {digits : List Char} (isDigit : ∀ c ∈ digits, c.isDigit = true) (ne : digits ≠ []) :
    Amount.read? digits = some ⟨ofDigits digits, 0⟩ := by
  have taken : digits.takeWhile Char.isDigit = digits := List.takeWhile_eq_self_iff.mpr isDigit
  have left : digits.dropWhile Char.isDigit = [] := List.dropWhile_eq_nil_iff.mpr isDigit
  unfold Amount.read? spanDigits
  dsimp only
  rw [taken, left]
  simp [ne]

/-- Digits with a point among them stand for a whole number of units behind the point. -/
lemma read?_pointed {whole fraction : List Char} (wholes : ∀ c ∈ whole, c.isDigit = true)
    (fractions : ∀ c ∈ fraction, c.isDigit = true) (ne : whole ≠ []) :
    Amount.read? (whole ++ '.' :: fraction) = some ⟨ofDigits (whole ++ fraction), -fraction.length⟩ := by
  have taken : (whole ++ '.' :: fraction).takeWhile Char.isDigit = whole := by
    rw [List.takeWhile_append_of_pos wholes, List.takeWhile_cons_of_neg (by decide), List.append_nil]
  have left : (whole ++ '.' :: fraction).dropWhile Char.isDigit = '.' :: fraction := by
    rw [List.dropWhile_append_of_pos wholes, List.dropWhile_cons_of_neg (by decide)]
  have taken' : fraction.takeWhile Char.isDigit = fraction := List.takeWhile_eq_self_iff.mpr fractions
  have left' : fraction.dropWhile Char.isDigit = [] := List.dropWhile_eq_nil_iff.mpr fractions
  unfold Amount.read? spanDigits
  dsimp only
  rw [taken, left]
  simp [taken', left', ne]

/-- The digits of a number are read as the number. -/
lemma ofDigits_toDigits (n : ℕ) : ofDigits (Nat.toDigits 10 n) = n :=
  Nat.ofDigitChars_ten_toDigits

/-- Each zero at the end of the digits multiplies the number by ten. -/
lemma ofDigits_append_zeros (digits : List Char) (count : ℕ) :
    ofDigits (digits ++ List.replicate count '0') = ofDigits digits * 10 ^ count := by
  have e := Nat.ofDigitChars_append (b := 10) (l := digits) (m := List.replicate count '0') 0
  rw [Nat.ofDigitChars_replicate_zero] at e
  exact e.trans (Nat.mul_comm _ _)

/-- Zeros in front of the digits do not change the number. -/
lemma ofDigits_zeros_append (digits : List Char) (count : ℕ) :
    ofDigits (List.replicate count '0' ++ digits) = ofDigits digits := by
  have e := Nat.ofDigitChars_append (b := 10) (l := List.replicate count '0') (m := digits) 0
  rw [Nat.ofDigitChars_replicate_zero, Nat.mul_zero] at e
  exact e

/-- Digits with the point set are read as that many units behind the point. -/
lemma read?_setPoint {digits : List Char} (isDigit : ∀ c ∈ digits, c.isDigit = true) (ne : digits ≠ [])
    (places : ℕ) : Amount.read? (setPoint digits places) = some ⟨ofDigits digits, -places⟩ := by
  unfold setPoint
  split
  case isTrue none => rw [none, read?_whole isDigit ne]; rfl
  case isFalse some =>
    dsimp only
    have padded : ∀ c ∈ List.replicate (places + 1 - digits.length) '0' ++ digits, c.isDigit = true :=
      List.forall_mem_append.mpr ⟨fun c mem => List.eq_of_mem_replicate mem ▸ rfl, isDigit⟩
    have value := ofDigits_zeros_append digits (places + 1 - digits.length)
    have long : places + 1 ≤ (List.replicate (places + 1 - digits.length) '0' ++ digits).length := by
      rw [List.length_append, List.length_replicate]
      omega
    generalize List.replicate (places + 1 - digits.length) '0' ++ digits = all at padded value long ⊢
    have some_whole : all.take (all.length - places) ≠ [] := by
      rw [← List.length_pos_iff, List.length_take]
      omega
    rw [read?_pointed (fun c mem => padded c (List.mem_of_mem_take mem))
      (fun c mem => padded c (List.mem_of_mem_drop mem)) some_whole, List.take_append_drop, value,
      List.length_drop]
    congr 3
    omega

/-- A decimal without an exponent is read as an amount of the same value. -/
lemma read?_positional (n : ℕ) (power : ℤ) :
    ∃ amount, Amount.read? (positional n power) = some amount ∧
      (amount.units * 10 ^ amount.power : ℚ) = n * 10 ^ power := by
  have digits : ∀ c ∈ Nat.toDigits 10 n ++ List.replicate power.toNat '0', c.isDigit = true :=
    List.forall_mem_append.mpr ⟨fun c mem => Nat.isDigit_of_mem_toDigits (by norm_num) (by norm_num) mem,
      fun c mem => List.eq_of_mem_replicate mem ▸ rfl⟩
  have ne : Nat.toDigits 10 n ++ List.replicate power.toNat '0' ≠ [] :=
    List.append_ne_nil_of_left_ne_nil Nat.toDigits_ne_nil _
  refine ⟨_, read?_setPoint digits ne _, ?_⟩
  dsimp only
  rw [ofDigits_append_zeros, ofDigits_toDigits, Nat.cast_mul, mul_assoc, Nat.cast_pow, Nat.cast_ofNat,
    ← zpow_natCast, ← zpow_add₀ (by norm_num)]
  congr 2
  omega

/-- The plain form of a positive double reads back as the double. -/
lemma readUnsigned?_digits {x : Float} {mantissa : ℕ} {exponent : ℤ} {pos : 0 < mantissa}
    (h : x.toModel.unpack = .finite .positive mantissa exponent pos) :
    readUnsigned? (Layout.plain.digits mantissa exponent) = some x := by
  have canonical := canonical_of_unpack h
  have cell := cell_shortest canonical
  unfold Layout.digits
  rw [if_neg pos.ne']
  dsimp only
  obtain ⟨amount, read, value⟩ :=
    read?_positional (shortest mantissa exponent).units (shortest mantissa exponent).power
  rw [← value] at cell
  rw [readUnsigned?, read, Option.map_some]
  refine congrArg some (ext_unpack ?_)
  rw [h]
  exact unpack_ofScientific canonical cell

/-- What can be written without a minus sign reads back. -/
theorem readUnsigned?_chars {x : Float} (finite : x.isFinite = true) (nonneg : ¬ x < 0.0)
    (ne : x ≠ -0.0) : readUnsigned? (Layout.plain.chars x) = some x := by
  have finite : x.toModel.unpack.isFinite = true := finite
  rw [lt_iff, unpack_zero] at nonneg
  unfold Layout.chars
  rw [Exact.ofFloat_eq]
  cases h : x.toModel.unpack with
  | notANumber => rw [h] at finite; cases finite
  | infinity sign => rw [h] at finite; cases finite
  | zero sign =>
    cases sign with
    | negative => exact absurd (ext_unpack h) ne
    | positive =>
      obtain rfl : x = 0.0 := ext_unpack h
      rfl
  | finite sign mantissa exponent pos =>
    cases sign with
    | negative => rw [h] at nonneg; exact absurd rfl nonneg
    | positive => exact readUnsigned?_digits h

/-- A negative double is written as a minus sign and its opposite. -/
lemma chars_of_lt_zero {x : Float} (finite : x.isFinite = true) (neg : x < 0.0) :
    Layout.plain.chars x = '-' :: Layout.plain.chars (-x) ∧
      (-x).isFinite = true ∧ ¬ -x < 0.0 ∧ -x ≠ -0.0 := by
  have finite : x.toModel.unpack.isFinite = true := finite
  rw [lt_iff, unpack_zero] at neg
  cases h : x.toModel.unpack with
  | notANumber => rw [h] at finite; cases finite
  | infinity sign => rw [h] at finite; cases finite
  | zero sign => rw [h] at neg; cases sign <;> cases neg
  | finite sign mantissa exponent pos =>
    cases sign with
    | positive => rw [h] at neg; cases neg
    | negative =>
      have opposite : (-x).toModel.unpack = .finite .positive mantissa exponent pos := by
        change (Float.Model.pack x.toModel.unpack.neg).unpack = _
        rw [h]
        exact unpack_pack_of_canonical (canonical_of_unpack h)
      refine ⟨?_, ?_, ?_, ?_⟩
      · unfold Layout.chars
        rw [Exact.ofFloat_eq, Exact.ofFloat_eq, h, opposite]
        rfl
      · change (-x).toModel.unpack.isFinite = true
        rw [opposite]
        rfl
      · rw [lt_iff, unpack_zero, opposite]
        nofun
      · intro e
        have zero : (-0.0 : Float).toModel.unpack = .zero .negative := rfl
        rw [e, zero] at opposite
        cases opposite

end Stepwise.Decimal
