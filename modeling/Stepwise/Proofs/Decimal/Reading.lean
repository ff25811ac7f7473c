import Stepwise.Proofs.Decimal.Plain
import Stepwise.Proofs.Double.Sign
import Stepwise.Proofs.Formula.Numeral
import Stepwise.Proofs.Outcome

/-!
# Reading what has been written

The plain form of a double is `NaN`, an infinity, or an unsigned decimal with a minus sign in front of
it or without one. Whatever the double is, its plain form reads back as the same double. A natural
number reads back from its digits.
-/

namespace Stepwise.Decimal

open Double

/-- Reads all of a text as the digits of a natural number. -/
def readNatural? (text : List Char) : Option ℕ :=
  if text ≠ [] ∧ text.all Char.isDigit then some (ofDigits text) else none

/-- A natural number is read from its own text. -/
lemma readNatural?_toString (n : ℕ) : readNatural? (toString n).toList = some n := by
  have digits : (toString n).toList = Nat.toDigits 10 n := Nat.toList_repr
  have all : (Nat.toDigits 10 n).all Char.isDigit = true :=
    List.all_eq_true.mpr fun c mem => Nat.isDigit_of_mem_toDigits (by decide) (by decide) mem
  rw [digits, readNatural?, if_pos ⟨Nat.toDigits_ne_nil, all⟩, ofDigits_toDigits]

/-- A text in the plain form, and the double that it shows. -/
inductive Shown : List Char → Float → Prop where
  | nan : Shown ['N', 'a', 'N'] (0.0 / 0.0)
  | infinite : Shown ['i', 'n', 'f'] (1.0 / 0.0)
  | negativeInfinite : Shown ['-', 'i', 'n', 'f'] (-1.0 / 0.0)
  | unsigned {digits x} : readUnsigned? digits = some x → Shown digits x
  | negative {digits x} : readUnsigned? digits = some x → Shown ('-' :: digits) (-x)

/-- The plain form of a double shows the double. -/
lemma shown_chars (x : Float) : Shown (Layout.plain.chars x) x := by
  unfold Layout.chars
  rw [Exact.ofFloat_eq]
  cases h : x.toModel.unpack with
  | notANumber =>
    obtain rfl : x = 0.0 / 0.0 := ext_unpack h
    exact .nan
  | infinity sign =>
    cases sign with
    | positive =>
      obtain rfl : x = 1.0 / 0.0 := ext_unpack h
      exact .infinite
    | negative =>
      obtain rfl : x = -1.0 / 0.0 := ext_unpack h
      exact .negativeInfinite
  | zero sign =>
    cases sign with
    | positive =>
      obtain rfl : x = 0.0 := ext_unpack h
      exact .unsigned rfl
    | negative =>
      obtain rfl : x = -0.0 := ext_unpack h
      exact .negative rfl
  | finite sign mantissa exponent pos =>
    cases sign with
    | positive => exact .unsigned (readUnsigned?_digits h)
    | negative =>
      -- the digits are those of the opposite double
      have opposite : (-x).toModel.unpack = .finite .positive mantissa exponent pos := by
        rw [unpack_neg, h]
        rfl
      have shown := Shown.negative (readUnsigned?_digits opposite)
      rw [neg_neg_self] at shown
      exact shown

namespace Shown

variable {text : List Char} {x : Float}

/-- An unsigned decimal is read without looking for a sign or a name. -/
lemma read?_unsigned (h : readUnsigned? text = some x) : read? text = some x := by
  unfold read?
  split
  case h_1 => cases h
  case h_2 => cases h
  case h_3 => cases h
  case h_4 => cases h
  case h_5 => exact h

/-- A minus sign in front of an unsigned decimal is read as the negation. -/
lemma read?_negative (h : readUnsigned? text = some x) : read? ('-' :: text) = some (-x) := by
  unfold read?
  split
  case h_1 e => cases e
  case h_2 e => cases e
  case h_3 e => cases e; cases h
  case h_4 e => cases e; rw [h]; rfl
  case h_5 other => exact absurd rfl (other text)

/-- A text reads as the double that it shows. -/
lemma read? (h : Shown text x) : read? text = some x := by
  cases h with
  | nan => rfl
  | infinite => rfl
  | negativeInfinite => rfl
  | unsigned h => exact read?_unsigned h
  | negative h => exact read?_negative h

/-- What holds for digits and for the few other characters of numbers holds everywhere in the text of a
double. -/
lemma forall_mem {p : Char → Bool} (h : Shown text x) (digit : ∀ c : Char, c.isDigit = true → p c = true)
    (others : ['.', '-', '+', 'e', 'E', 'N', 'a', 'i', 'n', 'f'].all p = true) :
    ∀ c ∈ text, p c = true := by
  have other := List.all_eq_true.mp others
  have unsigned {digits y} (h : readUnsigned? digits = some y) : ∀ c ∈ digits, p c = true := by
    obtain ⟨amount, read, -⟩ := Option.map_eq_some_iff.mp h
    apply (Formula.Numeral.of_read? read).forall_mem digit
    simp [other]
  cases h with
  | nan => simp [other]
  | infinite => simp [other]
  | negativeInfinite => simp [other]
  | unsigned h => exact unsigned h
  | negative h => exact List.forall_mem_cons.mpr ⟨other '-' (by decide), unsigned h⟩

end Shown

/-- Every double reads back from its plain form. -/
theorem read?_text (x : Float) : read? (text x).toList = some x := by
  have chars : (text x).toList = Layout.plain.chars x := String.toList_ofList
  rw [chars]
  exact (shown_chars x).read?

/-- A list of doubles is read from their texts. -/
lemma mapM_read?_text (values : List Float) :
    (values.map text).mapM (fun cell => read? cell.toList) = some values :=
  mapM_map_eq_some fun x _ => read?_text x

end Stepwise.Decimal
