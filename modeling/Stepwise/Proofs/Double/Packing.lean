import Stepwise.Proofs.Double
import Mathlib

/-!
# The parts of a double

A finite double other than zero is a sign, a mantissa and an exponent. Of the many ways to write a number
as a mantissa and a power of two, a double keeps the canonical one: with a full mantissa, or with the
least exponent. Packing these parts into a word and unpacking the word are inverse to each other, so a
double is known once its parts are known.
-/

namespace Stepwise.Double

open Float.Model (Format UnpackedFloat)
open Float.Model.UnpackedFloat

/-- A mantissa and an exponent as a finite double keeps them. -/
structure Canonical (mantissa : Nat) (exponent : Int) : Prop where
  pos : 0 < mantissa
  lt : mantissa < 2 ^ 53
  low : -1074 ≤ exponent
  high : exponent ≤ 971
  full : 2 ^ 52 ≤ mantissa ∨ exponent = -1074

/-- The sign bit of a word. -/
def signOf (word : BitVec 64) : Sign :=
  Sign.ofBitVec (@unpackSign Format.binary64 word)

/-- The eleven exponent bits of a word. -/
def exponentBits (word : BitVec 64) : BitVec 11 :=
  @unpackExponent Format.binary64 word

/-- The fifty-two mantissa bits of a word. -/
def mantissaBits (word : BitVec 64) : BitVec 52 :=
  @unpackMantissa Format.binary64 word

/-- The exponent bits as a part of the number of the word. -/
lemma toNat_exponentBits (word : BitVec 64) :
    (exponentBits word).toNat = word.toNat / 2 ^ 52 % 2 ^ 11 := by
  change (word.extractLsb 62 52).toNat = _
  rw [BitVec.extractLsb_toNat, Nat.shiftRight_eq_div_pow]

/-- The mantissa bits as a part of the number of the word. -/
lemma toNat_mantissaBits (word : BitVec 64) : (mantissaBits word).toNat = word.toNat % 2 ^ 52 := by
  change (word.extractLsb 51 0).toNat = _
  rw [BitVec.extractLsb_toNat, Nat.shiftRight_zero]

/-- The sign of a word is told by its topmost bit. -/
lemma signOf_eq (word : BitVec 64) :
    signOf word = if 2 ^ 63 ≤ word.toNat then .negative else .positive := by
  have bit : (@unpackSign Format.binary64 word).toNat = word.toNat / 2 ^ 63 := by
    change (word.extractLsb 63 63).toNat = _
    rw [BitVec.extractLsb_toNat, Nat.shiftRight_eq_div_pow]
    omega
  rw [signOf, Sign.ofBitVec]
  split
  case isTrue zero =>
    rw [zero, BitVec.toNat_zero] at bit
    rw [if_neg (by omega)]
  case isFalse one =>
    have ne : (@unpackSign Format.binary64 word).toNat ≠ 0 := fun h =>
      one (BitVec.eq_of_toNat_eq h)
    rw [if_pos (by omega)]

/-- The number of a word put together from its parts. -/
lemma toNat_packComponents (sign : Sign) (e : BitVec 11) (m : BitVec 52) :
    (packComponents Format.binary64 sign e m).toNat =
      sign.toBitVec.toNat * 2 ^ 63 + e.toNat * 2 ^ 52 + m.toNat := by
  change (sign.toBitVec ++ e ++ m).toNat = _
  rw [BitVec.toNat_append, BitVec.toNat_append, ← Nat.shiftLeft_add_eq_or_of_lt e.isLt,
    ← Nat.shiftLeft_add_eq_or_of_lt m.isLt, Nat.shiftLeft_eq, Nat.shiftLeft_eq]
  omega

/-- A word is known by its parts. -/
lemma packComponents_parts (word : BitVec 64) :
    packComponents Format.binary64 (signOf word) (exponentBits word) (mantissaBits word) = word := by
  apply BitVec.eq_of_toNat_eq
  have bound : word.toNat < 2 ^ 64 := word.isLt
  rw [toNat_packComponents, toNat_exponentBits, toNat_mantissaBits, signOf_eq]
  split
  case isTrue neg => rw [Sign.toBitVec, BitVec.toNat_ofNat]; omega
  case isFalse nonneg => rw [Sign.toBitVec, BitVec.toNat_ofNat]; omega

section Parts

variable (sign : Sign) (e : BitVec 11) (m : BitVec 52)

/-- Putting parts together keeps the exponent bits. -/
@[simp] lemma exponentBits_packComponents :
    exponentBits (packComponents Format.binary64 sign e m) = e :=
  unpackExponent_packComponents

/-- Putting parts together keeps the mantissa bits. -/
@[simp] lemma mantissaBits_packComponents :
    mantissaBits (packComponents Format.binary64 sign e m) = m :=
  unpackMantissa_packComponents

/-- Putting parts together keeps the sign. -/
@[simp] lemma signOf_packComponents :
    signOf (packComponents Format.binary64 sign e m) = sign := by
  have he := e.isLt
  have hm := m.isLt
  rw [signOf_eq, toNat_packComponents]
  cases sign with
  | negative => rw [Sign.toBitVec, BitVec.toNat_ofNat, if_pos (by omega)]
  | positive => rw [Sign.toBitVec, BitVec.toNat_ofNat, if_neg (by omega)]

end Parts

/-- What a word with the exponent bits of infinity stands for. -/
lemma unpack_of_full {word : BitVec 64} (h : (exponentBits word).toNat = 2047) :
    unpack Format.binary64 word =
      if (mantissaBits word).toNat = 0 then .infinity (signOf word) else .notANumber := by
  have full : @unpackExponent Format.binary64 word = -1#11 := BitVec.eq_of_toNat_eq h
  unfold unpack
  dsimp only
  rw [if_pos full]
  congr 1
  exact propext (BitVec.toNat_inj (y := 0#52)).symm

/-- What a word with empty exponent bits stands for: a subnormal number or a zero. -/
lemma unpack_of_empty {word : BitVec 64} (h : (exponentBits word).toNat = 0) :
    unpack Format.binary64 word =
      if pos : 0 < (mantissaBits word).toNat then
        .finite (signOf word) (mantissaBits word).toNat (-1074) pos
      else .zero (signOf word) := by
  have empty : @unpackExponent Format.binary64 word = 0#11 := BitVec.eq_of_toNat_eq h
  unfold unpack
  dsimp only
  rw [if_neg (by rw [empty]; decide), if_pos empty, empty]
  split
  case isTrue zero =>
    have zero' : (mantissaBits word).toNat = 0 := congrArg BitVec.toNat zero
    rw [dif_neg (by omega)]
    rfl
  case isFalse ne =>
    have ne' : (mantissaBits word).toNat ≠ 0 := fun h' => ne (BitVec.eq_of_toNat_eq h')
    rw [dif_pos (Nat.pos_of_ne_zero ne')]
    rfl

/-- What a word with exponent bits neither full nor empty stands for: a normal number, with its hidden bit.
-/
lemma unpack_of_partial {word : BitVec 64} (h : (exponentBits word).toNat ≠ 2047)
    (h' : (exponentBits word).toNat ≠ 0) :
    unpack Format.binary64 word =
      .finite (signOf word) (2 ^ 52 + (mantissaBits word).toNat)
        ((exponentBits word).toNat - 1075) (by omega) := by
  have not_full : @unpackExponent Format.binary64 word ≠ -1#11 := fun e =>
    h (congrArg BitVec.toNat e)
  have not_empty : @unpackExponent Format.binary64 word ≠ 0#11 := fun e =>
    h' (congrArg BitVec.toNat e)
  have mantissa : (1#1 ++ @unpackMantissa Format.binary64 word).toNat =
      2 ^ 52 + (mantissaBits word).toNat := by
    rw [BitVec.toNat_append]
    exact (Nat.shiftLeft_add_eq_or_of_lt (mantissaBits word).isLt 1).symm
  unfold unpack
  dsimp only
  rw [if_neg not_full, if_neg not_empty]
  congr 1

section Pack

variable {sign : Sign} {mantissa : Nat} {exponent : Int} (pos : 0 < mantissa)

/-- The word of a finite double. -/
lemma pack_finite :
    pack Format.binary64 (.finite sign mantissa exponent pos) =
      if 2048 ≤ (exponent + 1075).toNat + 1 then packedInfinity Format.binary64 sign
      else if mantissa.log2 + 1 = 53 then
        packComponents Format.binary64 sign (BitVec.ofNat 11 (exponent + 1075).toNat)
          (BitVec.ofNat 52 mantissa)
      else packComponents Format.binary64 sign 0#11 (BitVec.ofNat 52 mantissa) := by
  have biased : exponent + 1075 = exponent + (1023 : Nat) + (52 : Nat) := by omega
  rw [biased]
  rfl

/-- The word of a mantissa that is full. -/
lemma pack_of_normal (low : -1074 ≤ exponent) (high : exponent ≤ 971) (full : 2 ^ 52 ≤ mantissa)
    (lt : mantissa < 2 ^ 53) :
    pack Format.binary64 (.finite sign mantissa exponent pos) =
      packComponents Format.binary64 sign (BitVec.ofNat 11 (exponent + 1075).toNat)
        (BitVec.ofNat 52 mantissa) := by
  have log : mantissa.log2 = 52 := (Nat.log2_eq_iff (Nat.ne_of_gt pos)).mpr ⟨full, lt⟩
  rw [pack_finite, if_neg (by omega), if_pos (congrArg Nat.succ log)]

/-- The word of a mantissa that is not full, at the least exponent. -/
lemma pack_of_subnormal (lt : mantissa < 2 ^ 52) :
    pack Format.binary64 (.finite sign mantissa (-1074) pos) =
      packComponents Format.binary64 sign 0#11 (BitVec.ofNat 52 mantissa) := by
  have log : mantissa.log2 < 52 := (Nat.log2_lt (Nat.ne_of_gt pos)).mpr lt
  rw [pack_finite, if_neg (by decide), if_neg (by omega)]

end Pack

section Unpack

variable {sign : Sign} {mantissa : Nat} {exponent : Int} {pos : 0 < mantissa}

/-- The parts of a finite word other than zero are canonical. -/
lemma canonical_of_unpack {word : BitVec 64}
    (h : unpack Format.binary64 word = .finite sign mantissa exponent pos) :
    Canonical mantissa exponent := by
  have hm := (mantissaBits word).isLt
  have he := (exponentBits word).isLt
  by_cases full : (exponentBits word).toNat = 2047
  · rw [unpack_of_full full] at h
    split at h <;> cases h
  · by_cases empty : (exponentBits word).toNat = 0
    · rw [unpack_of_empty empty] at h
      split at h <;> cases h
      exact ⟨pos, by omega, by omega, by omega, .inr rfl⟩
    · rw [unpack_of_partial full empty] at h
      cases h
      exact ⟨pos, by omega, by omega, by omega, .inl (by omega)⟩

/-- Canonical parts come back from the word they are packed into. -/
lemma unpack_pack_of_canonical (canonical : Canonical mantissa exponent) :
    (Float.Model.pack (.finite sign mantissa exponent pos)).unpack =
      .finite sign mantissa exponent pos := by
  obtain ⟨-, lt, low, high, full⟩ := canonical
  change unpack Format.binary64 (pack Format.binary64 _) = _
  by_cases normal : 2 ^ 52 ≤ mantissa
  · rw [pack_of_normal pos low high normal lt, unpack_of_partial]
    · simp only [signOf_packComponents, mantissaBits_packComponents, exponentBits_packComponents,
        BitVec.toNat_ofNat]
      congr 1 <;> omega
    · rw [exponentBits_packComponents, BitVec.toNat_ofNat]
      omega
    · rw [exponentBits_packComponents, BitVec.toNat_ofNat]
      omega
  · obtain rfl : exponent = -1074 := full.resolve_left normal
    have bits : (BitVec.ofNat 52 mantissa).toNat = mantissa := by
      rw [BitVec.toNat_ofNat]
      omega
    rw [pack_of_subnormal pos (Nat.lt_of_not_le normal), unpack_of_empty]
    · simp only [signOf_packComponents, mantissaBits_packComponents, bits]
      rw [dif_pos pos]
    · rw [exponentBits_packComponents]
      rfl

/-- A word comes back from its parts, if it is the one word for what is not a number. -/
lemma pack_unpack (x : Float.Model) : Float.Model.pack x.unpack = x := by
  obtain ⟨bits, valid⟩ := x
  have packed : pack Format.binary64 (unpack Format.binary64 bits.toBitVec) = bits.toBitVec := by
    generalize bits.toBitVec = word at valid
    have hm := (mantissaBits word).isLt
    have he := (exponentBits word).isLt
    have parts := packComponents_parts word
    have mantissa_back : BitVec.ofNat 52 (mantissaBits word).toNat = mantissaBits word :=
      BitVec.eq_of_toNat_eq (by rw [BitVec.toNat_ofNat, Nat.mod_eq_of_lt hm])
    by_cases full : (exponentBits word).toNat = 2047
    · have full' : exponentBits word = -1#11 := BitVec.eq_of_toNat_eq full
      rw [unpack_of_full full]
      split
      case isTrue zero =>
        have zero' : mantissaBits word = 0#52 := BitVec.eq_of_toNat_eq zero
        rw [full', zero'] at parts
        exact parts
      case isFalse ne =>
        -- Only one word for what is not a number is valid.
        exact (valid.eq_packedNaN full' fun h => ne (congrArg BitVec.toNat h)).symm
    · by_cases empty : (exponentBits word).toNat = 0
      · have empty' : exponentBits word = 0#11 := BitVec.eq_of_toNat_eq empty
        rw [empty'] at parts
        rw [unpack_of_empty empty]
        split
        case isTrue pos => rw [pack_of_subnormal pos hm, mantissa_back, parts]
        case isFalse zero =>
          have zero' : mantissaBits word = 0#52 :=
            BitVec.eq_of_toNat_eq (Nat.eq_zero_of_not_pos zero)
          rw [zero'] at parts
          exact parts
      · rw [unpack_of_partial full empty, pack_of_normal _ (by omega) (by omega) (by omega) (by omega)]
        have exponent_back :
            BitVec.ofNat 11 ((exponentBits word).toNat - 1075 + 1075 : Int).toNat =
              exponentBits word := by
          apply BitVec.eq_of_toNat_eq
          rw [BitVec.toNat_ofNat]
          omega
        -- The leading bit of a full mantissa is not stored: packing cuts it off again.
        have mantissa_back' :
            BitVec.ofNat 52 (2 ^ 52 + (mantissaBits word).toNat) = mantissaBits word := by
          apply BitVec.eq_of_toNat_eq
          rw [BitVec.toNat_ofNat]
          omega
        rw [exponent_back, mantissa_back', parts]
  unfold Float.Model.pack Float.Model.unpack
  simp only [packed]

/-- Doubles with the same parts are the same. -/
lemma ext_unpack {x y : Float} (h : x.toModel.unpack = y.toModel.unpack) : x = y := by
  have h' : x.toModel = y.toModel := by rw [← pack_unpack x.toModel, h, pack_unpack]
  obtain ⟨x⟩ := x
  exact congrArg Float.ofModel h'

end Unpack

end Stepwise.Double
