import Stepwise.Proofs.Formula.Numeral

/-!
# The number at the front of a text

The rule for products takes the longest number at the front of a text. How much that is does not depend
on what stands behind the number and its next few characters. So a number stays as it is when stars are
put into the text behind it. Splitting into tokens looks for numbers in a way of its own, and where it finds
no more than what is written, the rule finds all of that as well.
-/

namespace Stepwise.Formula

section Cutting

variable {p : Char → Bool} {front back : List Char}

/-- A run of characters that ends inside the front of a text is found there. -/
lemma takeWhile_cut (back : List Char) (short : ((front ++ back).takeWhile p).length ≤ front.length) :
    front.takeWhile p = (front ++ back).takeWhile p := by
  rw [List.takeWhile_append] at short ⊢
  split at short
  case isTrue whole =>
    rw [if_pos whole, (List.takeWhile_prefix p).eq_of_length whole]
    rw [List.length_append] at short
    have none : back.takeWhile p = [] := List.eq_nil_of_length_eq_zero (by omega)
    rw [none, List.append_nil]
  case isFalse partly => rw [if_neg partly]

/-- Where no run begins in a text, none begins in the front of it. -/
lemma takeWhile_cut_of_nil (none : (front ++ back).takeWhile p = []) : front.takeWhile p = [] := by
  rw [takeWhile_cut back, none]
  rw [none]
  exact Nat.zero_le _

/-- An exponent that ends inside the front of a text is found there. -/
lemma exponentAtFront_cut (back : List Char)
    (short : (Text.exponentAtFront p (front ++ back)).length ≤ front.length) :
    Text.exponentAtFront p front = Text.exponentAtFront p (front ++ back) := by
  cases front with
  | nil => exact (List.eq_nil_of_length_eq_zero (Nat.le_zero.mp short)).symm
  | cons e front =>
    rw [List.cons_append] at short ⊢
    unfold Text.exponentAtFront at short ⊢
    dsimp only at short ⊢
    by_cases letter : e = 'e' ∨ e = 'E'
    case neg => rw [if_neg letter, if_neg letter]
    case pos =>
      rw [if_pos letter] at short ⊢
      rw [if_pos letter]
      cases front with
      | nil =>
        -- There is no room for a digit.
        split at short
        case isTrue none =>
          rw [if_pos none]
          rfl
        case isFalse some =>
          have digit := List.length_pos_of_ne_nil fun e => some (List.isEmpty_iff.mpr e)
          rw [List.length_cons, List.length_append, List.length_singleton] at short
          omega
      | cons c front =>
        rw [List.cons_append, List.take_succ_cons, List.take_zero] at short
        rw [List.cons_append, List.take_succ_cons, List.take_succ_cons, List.take_zero, List.take_zero]
        have sign_le : ([c].filter fun c => c = '+' ∨ c = '-').length ≤ (c :: front).length :=
          (List.length_filter_le _ _).trans (Nat.succ_le_succ (Nat.zero_le _))
        generalize ([c].filter fun c => c = '+' ∨ c = '-') = sign at short sign_le ⊢
        have dropped : (c :: (front ++ back)).drop sign.length =
            (c :: front).drop sign.length ++ back := by
          rw [← List.cons_append, List.drop_append_of_le_length sign_le]
        rw [dropped] at short ⊢
        split at short
        case isTrue none =>
          rw [if_pos none, takeWhile_cut_of_nil (List.isEmpty_iff.mp none)]
          rfl
        case isFalse some =>
          rw [takeWhile_cut back]
          rw [List.length_cons, List.length_append, List.length_cons] at short
          rw [List.length_drop]
          omega

section Mantissa

variable {whole text : List Char} (inside : ∀ c ∈ whole, Text.isDecimalDigit c = true)
include inside

/-- A mantissa of digits without a point is read as a whole. -/
lemma mantissaAtFront_whole (digit : ∀ c ∈ text.head?, Text.isDecimalDigit c = false)
    (point : ∀ c ∈ text.head?, (c == '.') = false) : mantissaAtFront (whole ++ text) = whole := by
  unfold mantissaAtFront
  rw [takeWhile_word inside digit]
  dsimp only
  rw [List.drop_left]
  split
  case h_1 => exact absurd (point '.' rfl) (by decide)
  case h_2 => rfl
  case h_3 => exact absurd (point '.' rfl) (by decide)
  case h_4 => rfl

/-- A mantissa with a point takes the digits behind it along, unless there are none on either side. -/
lemma mantissaAtFront_pointed : mantissaAtFront (whole ++ '.' :: text) =
    if whole = [] ∧ text.takeWhile Text.isDecimalDigit = [] then []
    else whole ++ '.' :: text.takeWhile Text.isDecimalDigit := by
  unfold mantissaAtFront
  rw [takeWhile_word inside fun c mem => by cases mem; decide]
  dsimp only
  rw [List.drop_left]
  cases whole with
  | nil => simp only [List.isEmpty_iff, true_and, List.nil_append]
  | cons d whole =>
    rw [if_neg fun none => List.cons_ne_nil d whole none.1]
    rfl

end Mantissa

/-- The digits at the front of a text, and what is behind them. -/
lemma exists_digits (text : List Char) : ∃ whole rest, text = whole ++ rest ∧
    (∀ c ∈ whole, Text.isDecimalDigit c = true) ∧ ∀ c ∈ rest.head?, Text.isDecimalDigit c = false := by
  refine ⟨text.takeWhile Text.isDecimalDigit, text.dropWhile Text.isDecimalDigit,
    List.takeWhile_append_dropWhile.symm, fun c mem => List.mem_takeWhile_imp mem, ?_⟩
  intro c mem
  have ends := List.head?_dropWhile_not Text.isDecimalDigit text
  rw [Option.mem_def.mp mem] at ends
  exact ends

/-- A text begins with a point or it does not. -/
lemma point_or_not (text : List Char) :
    (∃ rest, text = '.' :: rest) ∨ ∀ c ∈ text.head?, (c == '.') = false := by
  rcases text with - | ⟨c, rest⟩
  · exact .inr nofun
  · by_cases point : c = '.'
    · exact .inl ⟨rest, by rw [point]⟩
    · refine .inr fun d mem => ?_
      cases mem
      exact beq_eq_false_iff_ne.mpr point

/-- A mantissa that ends inside the front of a text is found there. -/
lemma mantissaAtFront_cut (back : List Char)
    (short : (mantissaAtFront (front ++ back)).length ≤ front.length) :
    mantissaAtFront front = mantissaAtFront (front ++ back) := by
  obtain ⟨whole, rest, rfl, inside, outside⟩ := exists_digits front
  cases rest with
  | nil =>
    -- The front has only digits, so nothing behind it belongs to the mantissa.
    rw [List.append_nil] at short ⊢
    obtain ⟨more, rest, rfl, inside', outside'⟩ := exists_digits back
    have digits : ∀ c ∈ whole ++ more, Text.isDecimalDigit c = true :=
      List.forall_mem_append.mpr ⟨inside, inside'⟩
    have alone : mantissaAtFront whole = whole := by
      have found : mantissaAtFront (whole ++ []) = whole := mantissaAtFront_whole inside nofun nofun
      rwa [List.append_nil] at found
    rw [← List.append_assoc] at short ⊢
    rcases point_or_not rest with ⟨later, rfl⟩ | point
    · rw [mantissaAtFront_pointed digits] at short ⊢
      split at short
      case isTrue none =>
        rw [if_pos none, alone]
        exact (List.append_eq_nil_iff.mp none.1).1
      case isFalse =>
        rw [List.length_append, List.length_append, List.length_cons] at short
        omega
    · rw [mantissaAtFront_whole digits outside' point] at short ⊢
      rw [List.length_append] at short
      have none : more = [] := List.eq_nil_of_length_eq_zero (by omega)
      rw [alone, none, List.append_nil]
  | cons c rest =>
    rw [List.append_assoc] at short ⊢
    by_cases point : c = '.'
    case pos =>
      subst point
      rw [List.cons_append, mantissaAtFront_pointed inside] at short ⊢
      rw [mantissaAtFront_pointed inside]
      split at short
      case isTrue none =>
        rw [if_pos none, if_pos ⟨none.1, takeWhile_cut_of_nil none.2⟩]
      case isFalse some =>
        rw [List.length_append, List.length_append, List.length_cons, List.length_cons] at short
        rw [takeWhile_cut back (by omega), if_neg some]
    case neg =>
      have point' (text : List Char) : ∀ d ∈ (c :: text).head?, (d == '.') = false := by
        intro d mem
        cases mem
        exact beq_eq_false_iff_ne.mpr point
      have outside' : ∀ d ∈ (c :: (rest ++ back)).head?, Text.isDecimalDigit d = false := outside
      rw [List.cons_append, mantissaAtFront_whole inside outside (point' rest),
        mantissaAtFront_whole inside outside' (point' (rest ++ back))]

/-- A number that ends inside the front of a text is found there. -/
lemma literalAtFront_cut (back : List Char)
    (short : (literalAtFront (front ++ back)).length ≤ front.length) :
    literalAtFront front = literalAtFront (front ++ back) := by
  have mantissa : mantissaAtFront front = mantissaAtFront (front ++ back) := by
    refine mantissaAtFront_cut back ?_
    unfold literalAtFront at short
    split at short
    case h_1 none =>
      rw [none]
      exact Nat.zero_le _
    case h_2 =>
      rw [List.length_append] at short
      omega
  unfold literalAtFront at short ⊢
  rw [mantissa]
  split at short
  case h_1 => rfl
  case h_2 some =>
    rw [List.length_append] at short
    generalize mantissaAtFront (front ++ back) = found at short some ⊢
    have dropped : (front ++ back).drop found.length = front.drop found.length ++ back :=
      List.drop_append_of_le_length (by omega)
    rw [dropped] at short ⊢
    cases found with
    | nil => exact absurd rfl some
    | cons c found =>
      rw [exponentAtFront_cut back]
      rw [List.length_drop]
      omega

end Cutting

section Front

/-- The mantissa stands at the front of the text. -/
lemma mantissaAtFront_isPrefix (text : List Char) : mantissaAtFront text <+: text := by
  obtain ⟨whole, rest, rfl, inside, outside⟩ := exists_digits text
  rcases point_or_not rest with ⟨later, rfl⟩ | point
  · rw [mantissaAtFront_pointed inside]
    split
    case isTrue => exact List.nil_prefix
    case isFalse =>
      refine (List.prefix_append_right_inj whole).mpr (List.cons_prefix_cons.mpr ⟨rfl, ?_⟩)
      exact List.takeWhile_prefix _
  · rw [mantissaAtFront_whole inside outside point]
    exact List.prefix_append _ _

/-- The number at the front of a text is a piece of it. -/
lemma literalAtFront_append_drop (text : List Char) :
    literalAtFront text ++ text.drop (literalAtFront text).length = text := by
  have mantissa := List.prefix_iff_eq_append.mp (mantissaAtFront_isPrefix text)
  unfold literalAtFront
  split
  case h_1 => rfl
  case h_2 =>
    rw [List.length_append, ← List.drop_drop, List.append_assoc,
      Exponent.exponentAtFront_append_drop, mantissa]

/-- The characters of numbers. -/
def isNumeric (c : Char) : Bool :=
  Text.isDecimalDigit c || ['.', 'e', 'E', '+', '-'].contains c

/-- Digits are characters of numbers. -/
lemma isNumeric_of_isDecimalDigit {c : Char} (h : Text.isDecimalDigit c = true) : isNumeric c = true := by
  rw [isNumeric, h, Bool.true_or]

/-- Is this a digit or a point? -/
def isDigitOrPoint (c : Char) : Bool :=
  Text.isDecimalDigit c || c == '.'

/-- A mantissa consists of digits and points. -/
lemma isDigitOrPoint_of_mem_mantissaAtFront {text : List Char} :
    ∀ c ∈ mantissaAtFront text, isDigitOrPoint c = true := by
  have digit {c : Char} (h : Text.isDecimalDigit c = true) : isDigitOrPoint c = true := by
    rw [isDigitOrPoint, h, Bool.true_or]
  obtain ⟨whole, rest, rfl, inside, outside⟩ := exists_digits text
  rcases point_or_not rest with ⟨later, rfl⟩ | point
  · rw [mantissaAtFront_pointed inside]
    split
    case isTrue => exact nofun
    case isFalse =>
      refine List.forall_mem_append.mpr ⟨fun c mem => digit (inside c mem), ?_⟩
      exact List.forall_mem_cons.mpr ⟨rfl, fun c mem => digit (List.mem_takeWhile_imp mem)⟩
  · rw [mantissaAtFront_whole inside outside point]
    exact fun c mem => digit (inside c mem)

/-- An exponent ends with digits. -/
lemma exponentAtFront_cases (text : List Char) :
    Text.exponentAtFront Text.isDecimalDigit text = [] ∨ ∃ front digits,
      Text.exponentAtFront Text.isDecimalDigit text = front ++ digits ∧ digits ≠ [] ∧
        (∀ c ∈ front, isNumeric c = true) ∧ ∀ c ∈ digits, Text.isDecimalDigit c = true := by
  unfold Text.exponentAtFront
  split
  case h_1 => exact .inl rfl
  case h_2 e rest =>
    split
    case isFalse => exact .inl rfl
    case isTrue letter =>
      dsimp only
      split
      case isTrue => exact .inl rfl
      case isFalse some =>
        refine .inr ⟨_ :: _, _, rfl, fun none => some (List.isEmpty_iff.mpr none), ?_, ?_⟩
        · refine List.forall_mem_cons.mpr ⟨?_, fun c mem => ?_⟩
          · rcases letter with rfl | rfl <;> decide
          · have sign := (List.mem_filter.mp mem).2
            rw [decide_eq_true_eq] at sign
            rcases sign with rfl | rfl <;> decide
        · exact fun c mem => List.mem_takeWhile_imp mem

/-- A number has a mantissa with digits and points only, and behind it there is nothing or an exponent. -/
lemma literalAtFront_cases (text : List Char) :
    literalAtFront text = [] ∨ ∃ mantissa exponent, literalAtFront text = mantissa ++ exponent ∧
      mantissa ≠ [] ∧ (∀ c ∈ mantissa, isDigitOrPoint c = true) ∧
        (exponent = [] ∨ ∃ front digits, exponent = front ++ digits ∧ digits ≠ [] ∧
          (∀ c ∈ front, isNumeric c = true) ∧ ∀ c ∈ digits, Text.isDecimalDigit c = true) := by
  have digits := @isDigitOrPoint_of_mem_mantissaAtFront text
  unfold literalAtFront
  split
  case h_1 => exact .inl rfl
  case h_2 some => exact .inr ⟨_, _, rfl, some, digits, exponentAtFront_cases _⟩

/-- The number at the front of a text is made of the characters of numbers. -/
lemma isNumeric_of_mem_literalAtFront {text : List Char} :
    ∀ c ∈ literalAtFront text, isNumeric c = true := by
  rcases literalAtFront_cases text with none | ⟨mantissa, exponent, e, -, first, exponents⟩
  · rw [none]
    exact nofun
  · rw [e]
    refine List.forall_mem_append.mpr ⟨fun c mem => ?_, ?_⟩
    · have digit := first c mem
      rw [isDigitOrPoint, Bool.or_eq_true, beq_iff_eq] at digit
      rcases digit with digit | rfl
      · exact isNumeric_of_isDecimalDigit digit
      · rfl
    · rcases exponents with rfl | ⟨front, digits, rfl, -, inFront, inDigits⟩
      · exact nofun
      · exact List.forall_mem_append.mpr ⟨inFront, fun c mem => isNumeric_of_isDecimalDigit (inDigits c mem)⟩

/-- A number begins and ends with a digit or a point. -/
lemma exists_ends_of_literal {text : List Char} (some : literalAtFront text ≠ []) :
    (∃ first rest, literalAtFront text = first :: rest ∧ isDigitOrPoint first = true) ∧
      ∃ rest last, literalAtFront text = rest ++ [last] ∧ isDigitOrPoint last = true := by
  obtain ⟨mantissa, exponent, e, ne, inMantissa, exponents⟩ := (literalAtFront_cases text).resolve_left some
  rw [e]
  refine ⟨?_, ?_⟩
  · obtain ⟨first, rest, rfl⟩ := List.exists_cons_of_ne_nil ne
    exact ⟨first, rest ++ exponent, rfl, inMantissa first (List.mem_cons_self ..)⟩
  · rcases exponents with rfl | ⟨front, digits, rfl, ne', -, inDigits⟩
    · refine ⟨mantissa.dropLast, mantissa.getLast ne, ?_, inMantissa _ (List.getLast_mem ne)⟩
      rw [List.dropLast_append_getLast, List.append_nil]
    · refine ⟨mantissa ++ (front ++ digits.dropLast), digits.getLast ne', ?_, ?_⟩
      · rw [List.append_assoc, List.append_assoc, List.dropLast_append_getLast]
      · rw [isDigitOrPoint, inDigits _ (List.getLast_mem ne'), Bool.true_or]

/-- What begins with no character of a number adds nothing to the number before it. -/
lemma literalAtFront_append {front back : List Char} (other : ∀ c ∈ back.head?, isNumeric c = false) :
    literalAtFront (front ++ back) = literalAtFront front := by
  refine (literalAtFront_cut back ?_).symm
  by_contra long
  have found := literalAtFront_append_drop (front ++ back)
  have numeric := @isNumeric_of_mem_literalAtFront (front ++ back)
  generalize literalAtFront (front ++ back) = literal at long found numeric
  -- The number would go on with the first character behind the front.
  obtain ⟨more, rfl⟩ : front <+: literal :=
    List.prefix_of_prefix_length_le (List.prefix_append front back) ⟨_, found⟩ (by omega)
  rw [List.append_assoc, List.append_cancel_left_eq] at found
  cases more with
  | nil => exact long (by rw [List.append_nil])
  | cons c more =>
    have numeric' := numeric c (List.mem_append_right front (List.mem_cons_self ..))
    have other' := other c (by rw [← found]; rfl)
    exact Bool.false_ne_true (other'.symm.trans numeric')

end Front

section Tokens

variable {numeral text : List Char}

/-- What is read as a token where a number is written begins with this number. -/
lemma Numeral.prefix_numberAtFront (h : Numeral numeral) (text : List Char) :
    numeral <+: Formula.numberAtFront (numeral ++ text) := by
  obtain ⟨m, e⟩ := h
  rename_i mantissa exponent
  rw [Formula.numberAtFront, List.append_assoc, List.takeWhile_append_of_pos m.startsNumber]
  cases e with
  | none =>
    rw [List.append_assoc]
    exact (List.prefix_append_right_inj mantissa).mpr List.nil_prefix
  | @some e sign digits letter signs ds =>
    have none : (e :: (sign ++ digits) ++ text).takeWhile Formula.startsNumber = [] := by
      rcases List.mem_pair.mp letter with rfl | rfl <;> rfl
    rw [none, List.append_nil, List.drop_left,
      Exponent.exponentAtFront_append letter signs ds (fun _ => id)]
    exact (List.prefix_append_right_inj mantissa).mpr (List.prefix_append _ _)

/-- Tests that agree on the characters of a text find the same run. -/
lemma takeWhile_congr {p q : Char → Bool} (same : ∀ c ∈ text, p c = q c) :
    text.takeWhile p = text.takeWhile q := by
  induction text with
  | nil => rfl
  | cons c text ih =>
    rw [List.takeWhile_cons, List.takeWhile_cons, same c (List.mem_cons_self ..),
      ih fun d mem => same d (List.mem_cons_of_mem _ mem)]

/-- Tests that agree on the characters of a text find the same exponent. -/
lemma exponentAtFront_congr {p q : Char → Bool} (same : ∀ c ∈ text, p c = q c) :
    Text.exponentAtFront p text = Text.exponentAtFront q text := by
  unfold Text.exponentAtFront
  split
  case h_1 => rfl
  case h_2 e rest =>
    have digits (count : ℕ) : (rest.drop count).takeWhile p = (rest.drop count).takeWhile q :=
      takeWhile_congr fun c mem => same c (List.mem_cons_of_mem _ (List.mem_of_mem_drop mem))
    simp only [digits]

/-- The digits of a numeral are the ten ordinary ones. -/
lemma Numeral.isDecimalDigit (h : Numeral numeral) : ∀ c ∈ numeral, Text.isDecimalDigit c = c.isDigit := by
  have same := h.forall_mem (p := fun c => Text.isDecimalDigit c == c.isDigit)
    (fun c digit => by rw [isDecimalDigit_of_isDigit digit, digit]; rfl) rfl
  exact fun c mem => beq_iff_eq.mp (same c mem)

/-- A number that is read whole as a token is found whole when looking for products, unless digits of
other scripts follow. -/
lemma Numeral.literalAtFront_of_numberAtFront (h : Numeral numeral)
    (same : ∀ c ∈ text, Text.isDecimalDigit c = c.isDigit)
    (whole : Formula.numberAtFront (numeral ++ text) = numeral) :
    Formula.literalAtFront (numeral ++ text) = numeral := by
  have inside := h.isDecimalDigit
  obtain ⟨m, e⟩ := h
  rename_i mantissa exponent
  have same : ∀ c ∈ exponent ++ text, Text.isDecimalDigit c = c.isDigit :=
    List.forall_mem_append.mpr ⟨fun c mem => inside c (List.mem_append_right _ mem), same⟩
  have outside : ∀ c ∈ (exponent ++ text).head?, Formula.startsNumber c = false := by
    cases e with
    | none =>
      intro c mem
      by_contra starts
      obtain ⟨rest, e⟩ := List.head?_eq_some_iff.mp mem
      -- The number would go on with this character.
      have longer := congrArg List.length whole
      rw [Formula.numberAtFront, List.append_assoc, List.takeWhile_append_of_pos m.startsNumber, e,
        List.takeWhile_cons_of_pos (eq_true_of_ne_false starts)] at longer
      simp only [List.length_append, List.length_cons, List.length_nil] at longer
      omega
    | @some e _ _ letter _ _ =>
      intro c mem
      cases mem
      rcases List.mem_pair.mp letter with rfl | rfl <;> rfl
  have word : (mantissa ++ (exponent ++ text)).takeWhile Formula.startsNumber = mantissa :=
    takeWhile_word m.startsNumber outside
  have found : mantissaAtFront (mantissa ++ (exponent ++ text)) = mantissa := by
    have neither (c : Char) (mem : c ∈ (exponent ++ text).head?) :=
      Bool.or_eq_false_iff.mp (outside c mem)
    refine m.mantissaAtFront (fun c mem => ?_) fun c mem => (neither c mem).2
    rw [same c (List.mem_of_mem_head? mem), (neither c mem).1]
  rw [Formula.numberAtFront, List.append_assoc, word, List.drop_left, List.append_cancel_left_eq] at whole
  unfold Formula.literalAtFront
  rw [List.append_assoc, found]
  split
  case h_1 => exact absurd rfl m.ne_nil
  case h_2 => rw [List.drop_left, exponentAtFront_congr same, whole]

end Tokens

/-- A text with stars put into it. -/
inductive Inserted : List Char → List Char → Prop where
  | nil : Inserted [] []
  | keep {c text text'} : Inserted text text' → Inserted (c :: text) (c :: text')
  | star {text text'} : Inserted text text' → Inserted text ('*' :: text')

namespace Inserted

variable {text text' : List Char}

/-- Putting in no stars leaves the text. -/
lemma refl (text : List Char) : Inserted text text := by
  induction text with
  | nil => exact .nil
  | cons c text ih => exact .keep ih

/-- Stars can be put into the parts of a text. -/
lemma append {more more' : List Char} (h : Inserted text text') (h' : Inserted more more') :
    Inserted (text ++ more) (text' ++ more') := by
  induction h with
  | nil => exact h'
  | keep _ ih => exact .keep ih
  | star _ ih => exact .star ih

/-- Putting stars in does not shorten a text. -/
lemma length_le (h : Inserted text text') : text.length ≤ text'.length := by
  induction h with
  | nil => exact Nat.le_refl _
  | keep _ ih => exact Nat.succ_le_succ ih
  | star _ ih => exact Nat.le_succ_of_le ih

/-- Where no character is more, no star has been put in. -/
lemma eq_of_length_le (h : Inserted text text') (le : text'.length ≤ text.length) : text' = text := by
  induction h with
  | nil => rfl
  | keep _ ih => rw [ih (Nat.le_of_succ_le_succ le)]
  | star h _ =>
    have more := h.length_le
    rw [List.length_cons] at le
    omega

/-- The first character is as it was, or it is a star. -/
lemma head? (h : Inserted text text') : ∀ c ∈ text'.head?, c = '*' ∨ c ∈ text.head? := by
  cases h with
  | nil => exact nofun
  | keep => exact fun c mem => .inr mem
  | star =>
    intro c mem
    cases mem
    exact .inl rfl

/-- What holds for no first character and not for a star holds for no first character afterwards. -/
lemma not_head {p : Char → Bool} (h : Inserted text text') (star : p '*' = false)
    (other : ∀ c ∈ text.head?, p c = false) : ∀ c ∈ text'.head?, p c = false := by
  intro c mem
  rcases h.head? c mem with rfl | mem
  · exact star
  · exact other c mem

/-- A character of the longer text is a star or was there before. -/
lemma mem (h : Inserted text text') : ∀ c ∈ text', c = '*' ∨ c ∈ text := by
  induction h with
  | nil => exact nofun
  | keep _ ih =>
    refine List.forall_mem_cons.mpr ⟨.inr (List.mem_cons_self ..), fun c mem => ?_⟩
    exact (ih c mem).imp_right (List.mem_cons_of_mem _)
  | star _ ih => exact List.forall_mem_cons.mpr ⟨.inl rfl, ih⟩

/-- Up to the first star that is put in, the text is as it was. -/
lemma cut (h : Inserted text text') :
    text' = text ∨ ∃ front rest, front <+: text ∧ text' = front ++ '*' :: rest := by
  induction h with
  | nil => exact .inl rfl
  | @keep c _ _ _ ih =>
    rcases ih with same | ⟨front, rest, before, e⟩
    · exact .inl (congrArg _ same)
    · exact .inr ⟨c :: front, rest, List.cons_prefix_cons.mpr ⟨rfl, before⟩, congrArg _ e⟩
  | star => exact .inr ⟨[], _, List.nil_prefix, rfl⟩

/-- Stars behind a number leave it as it is. -/
lemma literalAtFront {number : List Char} (h : Inserted text text')
    (literal : literalAtFront (number ++ text) = number) :
    Formula.literalAtFront (number ++ text') = number := by
  rcases h.cut with rfl | ⟨front, rest, ⟨back, rfl⟩, rfl⟩
  · exact literal
  · have star : ∀ c ∈ ('*' :: rest).head?, isNumeric c = false := by
      intro c mem
      cases mem
      decide
    rw [← List.append_assoc] at literal ⊢
    rw [literalAtFront_append star, literalAtFront_cut back, literal]
    rw [literal, List.length_append]
    exact Nat.le_add_right _ _

/-- Putting stars in makes no literal where there was none. -/
lemma literalAtFront_eq_nil (h : Inserted text text') (none : Formula.literalAtFront text = []) :
    Formula.literalAtFront text' = [] :=
  @literalAtFront text text' [] h none

end Inserted

end Stepwise.Formula
