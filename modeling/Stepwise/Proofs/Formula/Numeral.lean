import Stepwise.Decimal.Read
import Stepwise.Formula.Normal
import Stepwise.Formula.Token.Lexer
import Mathlib.Data.List.Basic
import Mathlib.Data.List.TakeWhile

/-!
# The text of a number

A number is written with digits, a point among them or not, and an exponent or not. Splitting into tokens
and bringing into normal form look for a number in ways of their own. Both find all of it where something
follows that ends every word.
-/

namespace Stepwise.Formula

/-- The characters that end every word: a space, a closing bracket and the operators. -/
def wordEnds : List Char :=
  [' ', ')', '+', '-', '*', '/']

/-- A text that does not go on with the word before it. -/
def Breaks (text : List Char) : Prop :=
  ∀ c ∈ text.head?, c ∈ wordEnds

namespace Breaks

variable {p : Char → Bool} {text : List Char}

/-- What holds for none of the characters that end words does not hold for the next character. -/
lemma not_head (h : Breaks text) (ends : wordEnds.all (fun c => !p c) = true) :
    ∀ c ∈ text.head?, p c = false :=
  fun c mem => (Bool.not_eq_true' _).mp (List.all_eq_true.mp ends c (h c mem))

/-- The end of a text breaks a word off. -/
lemma nil : Breaks [] :=
  nofun

/-- A character that ends words breaks a word off. -/
lemma cons {c : Char} (h : c ∈ wordEnds) : Breaks (c :: text) :=
  fun d mem => by cases mem; exact h

end Breaks

/-- A word goes up to the first character that does not belong to it. -/
lemma takeWhile_word {p : Char → Bool} {word text : List Char} (inside : ∀ c ∈ word, p c = true)
    (outside : ∀ c ∈ text.head?, p c = false) : (word ++ text).takeWhile p = word := by
  rw [List.takeWhile_append_of_pos inside]
  cases text with
  | nil => exact List.append_nil word
  | cons c text =>
    rw [List.takeWhile_cons_of_neg (Bool.eq_false_iff.mp (outside c rfl)), List.append_nil]

/-- Some decimal digits, at least one. -/
structure Digits (text : List Char) : Prop where
  ne_nil : text ≠ []
  isDigit : ∀ c ∈ text, c.isDigit = true

/-- The digits of a number, with a point among them or not. -/
inductive Mantissa : List Char → Prop where
  | whole {digits} : Digits digits → Mantissa digits
  | pointed {whole fraction} : (∀ c ∈ whole, c.isDigit = true) → (∀ c ∈ fraction, c.isDigit = true) →
    whole ≠ [] ∨ fraction ≠ [] → Mantissa (whole ++ '.' :: fraction)

/-- The exponent of a number, if it has one. -/
inductive Exponent : List Char → Prop where
  | none : Exponent []
  | some {e sign digits} : e ∈ ['e', 'E'] → sign ∈ [[], ['+'], ['-']] → Digits digits →
    Exponent (e :: (sign ++ digits))

/-- The text of a number. -/
inductive Numeral : List Char → Prop where
  | mk {mantissa exponent} : Mantissa mantissa → Exponent exponent → Numeral (mantissa ++ exponent)

/-- The ten ordinary digits are decimal digits. -/
lemma isDecimalDigit_of_isDigit {c : Char} (h : c.isDigit = true) : Text.isDecimalDigit c = true := by
  rw [Char.isDigit, Bool.and_eq_true, decide_eq_true_eq, decide_eq_true_eq] at h
  refine List.any_eq_true.mpr ⟨0x30, by decide, ?_⟩
  rw [Bool.and_eq_true, decide_eq_true_eq, decide_eq_true_eq]
  exact ⟨h.1, Nat.lt_succ_of_le h.2⟩

/-- A digit is not a character that is none. -/
lemma ne_of_isDigit {c d : Char} (h : c.isDigit = true) (other : d.isDigit = false) : c ≠ d := by
  rintro rfl
  exact Bool.false_ne_true (other.symm.trans h)

/-- A whole text that a run of digits takes is digits. -/
lemma Digits.of_spanned {text more : List Char} {first : Char}
    (taken : text.takeWhile Char.isDigit = first :: more) (left : text.dropWhile Char.isDigit = []) :
    Digits text := by
  have e : text.takeWhile Char.isDigit = text := by
    rw [← List.append_nil (text.takeWhile _), ← left, List.takeWhile_append_dropWhile]
  refine ⟨e ▸ taken ▸ List.cons_ne_nil _ _, fun c mem => ?_⟩
  rw [← e] at mem
  exact List.mem_takeWhile_imp mem

/-- Splitting off digits finds all of them. -/
lemma spanDigits_append {digits text : List Char} (inside : ∀ c ∈ digits, c.isDigit = true)
    (outside : ∀ c ∈ text.head?, c.isDigit = false) :
    Decimal.spanDigits (digits ++ text) = (digits, text) := by
  have left : (digits ++ text).dropWhile Char.isDigit = text := by
    rw [List.dropWhile_append_of_pos inside]
    cases text with
    | nil => rfl
    | cons c text => exact List.dropWhile_cons_of_neg (Bool.eq_false_iff.mp (outside c rfl))
  rw [Decimal.spanDigits, takeWhile_word inside outside, left]

/-- A run of digits consists of digits. -/
lemma isDigit_of_mem_takeWhile {text : List Char} :
    ∀ c ∈ text.takeWhile Char.isDigit, c.isDigit = true :=
  fun _ mem => List.mem_takeWhile_imp mem

namespace Mantissa

variable {mantissa text : List Char}

/-- A mantissa is not empty. -/
lemma ne_nil (h : Mantissa mantissa) : mantissa ≠ [] := by
  cases h with
  | whole digits => exact digits.ne_nil
  | pointed => exact List.append_ne_nil_of_right_ne_nil _ (List.cons_ne_nil _ _)

/-- A mantissa has only digits and points. -/
lemma startsNumber (h : Mantissa mantissa) : ∀ c ∈ mantissa, startsNumber c = true := by
  intro c mem
  cases h with
  | whole digits => rw [Formula.startsNumber, digits.isDigit c mem, Bool.true_or]
  | pointed whole fraction some =>
    rcases List.mem_append.mp mem with left | right
    · rw [Formula.startsNumber, whole c left, Bool.true_or]
    · rcases List.mem_cons.mp right with rfl | right
      · rfl
      · rw [Formula.startsNumber, fraction c right, Bool.true_or]

/-- A mantissa is found where no digit and no point follows it. -/
lemma mantissaAtFront (h : Mantissa mantissa)
    (digit : ∀ c ∈ text.head?, Text.isDecimalDigit c = false)
    (point : ∀ c ∈ text.head?, (c == '.') = false) :
    mantissaAtFront (mantissa ++ text) = mantissa := by
  cases h with
  | whole digits =>
    have word : (mantissa ++ text).takeWhile Text.isDecimalDigit = mantissa :=
      takeWhile_word (fun c mem => isDecimalDigit_of_isDigit (digits.isDigit c mem)) digit
    unfold Formula.mantissaAtFront
    rw [word]
    dsimp only
    rw [List.drop_left]
    split
    case h_1 => exact absurd (point '.' rfl) (by decide)
    case h_2 => exact absurd rfl digits.ne_nil
    case h_3 => exact absurd (point '.' rfl) (by decide)
    case h_4 => rfl
  | @pointed whole fraction wholes fractions some =>
    have word : (whole ++ '.' :: (fraction ++ text)).takeWhile Text.isDecimalDigit = whole :=
      takeWhile_word (fun c mem => isDecimalDigit_of_isDigit (wholes c mem))
        fun c mem => by cases mem; decide
    have word' : (fraction ++ text).takeWhile Text.isDecimalDigit = fraction :=
      takeWhile_word (fun c mem => isDecimalDigit_of_isDigit (fractions c mem)) digit
    unfold Formula.mantissaAtFront
    rw [List.append_assoc, List.cons_append, word]
    dsimp only
    rw [List.drop_left]
    cases whole with
    | nil =>
      have some' : fraction.isEmpty = false :=
        List.isEmpty_eq_false_iff.mpr (some.resolve_left fun ne => ne rfl)
      simp only [word', some', Bool.false_eq_true, if_false, List.nil_append]
    | cons c whole => simp only [word']

end Mantissa

namespace Exponent

variable {exponent text : List Char}

/-- An exponent and a word behind it do not begin with a digit or a point. -/
lemma not_head {p : Char → Bool} (h : Exponent exponent) (breaks : Breaks text)
    (ends : ('e' :: 'E' :: wordEnds).all (fun c => !p c) = true) :
    ∀ c ∈ (exponent ++ text).head?, p c = false := by
  rw [List.all_cons, List.all_cons, Bool.and_eq_true, Bool.and_eq_true] at ends
  cases h with
  | none =>
    exact breaks.not_head ends.2.2
  | @some e sign digits letter _ _ =>
    intro c mem
    cases mem
    rcases List.mem_pair.mp letter with rfl | rfl
    · exact (Bool.not_eq_true' _).mp ends.1
    · exact (Bool.not_eq_true' _).mp ends.2.1

/-- An exponent goes on with the digits behind it. -/
lemma exponentAtFront_append {p : Char → Bool} {e : Char} {sign digits : List Char}
    (letter : e ∈ ['e', 'E']) (signs : sign ∈ [[], ['+'], ['-']]) (ds : Digits digits)
    (digit : ∀ c : Char, c.isDigit = true → p c = true) (text : List Char) :
    Text.exponentAtFront p (e :: (sign ++ digits) ++ text) = e :: (sign ++ digits) ++ text.takeWhile p := by
  obtain ⟨d, later, rfl⟩ := List.exists_cons_of_ne_nil ds.ne_nil
  have first : d ≠ '+' ∧ d ≠ '-' :=
    ⟨ne_of_isDigit (ds.isDigit d (List.mem_cons_self ..)) rfl,
      ne_of_isDigit (ds.isDigit d (List.mem_cons_self ..)) rfl⟩
  have taken : ((sign ++ d :: later ++ text).take 1).filter (fun c => c = '+' ∨ c = '-') = sign := by
    simp only [List.mem_cons, List.not_mem_nil, or_false] at signs
    rcases signs with rfl | rfl | rfl
    · simp [first.1, first.2]
    · rfl
    · rfl
  have spanned : (sign ++ d :: later ++ text).drop sign.length = d :: later ++ text := by
    rw [List.append_assoc, List.drop_left]
  have word : (d :: later ++ text).takeWhile p = d :: later ++ text.takeWhile p :=
    List.takeWhile_append_of_pos fun c mem => digit c (ds.isDigit c mem)
  rw [List.cons_append, Text.exponentAtFront, if_pos (List.mem_pair.mp letter)]
  simp only [taken, spanned, word]
  rw [List.cons_append, List.isEmpty_cons, if_neg Bool.false_ne_true, List.cons_append, List.append_assoc]
  rfl

/-- An exponent is found where it ends. -/
lemma exponentAtFront {p : Char → Bool} (h : Exponent exponent) (breaks : Breaks text)
    (digit : ∀ c : Char, c.isDigit = true → p c = true)
    (ends : wordEnds.all (fun c => !p c) = true) :
    Text.exponentAtFront p (exponent ++ text) = exponent := by
  cases h with
  | none =>
    cases text with
    | nil => rfl
    | cons c text =>
      have other : ¬ (c = 'e' ∨ c = 'E') := by
        have mem := breaks c rfl
        rintro (rfl | rfl) <;> revert mem <;> decide
      rw [List.nil_append, Text.exponentAtFront, if_neg other]
  | some letter signs ds =>
    have none : ([] ++ text).takeWhile p = [] := takeWhile_word nofun (breaks.not_head ends)
    rw [List.nil_append] at none
    rw [exponentAtFront_append letter signs ds digit, none, List.append_nil]

/-- A run that starts behind the front of a text stays within the text. -/
lemma append_takeWhile_prefix {p : Char → Bool} {sign text : List Char} (h : sign <+: text) :
    sign ++ (text.drop sign.length).takeWhile p <+: text := by
  obtain ⟨later, rfl⟩ := h
  rw [List.drop_left]
  exact (List.prefix_append_right_inj sign).mpr (List.takeWhile_prefix p)

/-- The exponent at the front of a text is a piece of it. -/
lemma exponentAtFront_append_drop (p : Char → Bool) (text : List Char) :
    Text.exponentAtFront p text ++ text.drop (Text.exponentAtFront p text).length = text := by
  refine List.prefix_iff_eq_append.mp ?_
  unfold Text.exponentAtFront
  split
  case h_1 => exact List.nil_prefix
  case h_2 e rest =>
    split
    case isFalse => exact List.nil_prefix
    case isTrue =>
      dsimp only
      have signed : (rest.take 1).filter (fun c => c = '+' ∨ c = '-') <+: rest := by
        cases rest with
        | nil => exact List.nil_prefix
        | cons c rest =>
          rw [List.take_succ_cons, List.take_zero, List.filter_cons]
          split
          case isTrue => exact List.prefix_append [c] rest
          case isFalse => exact List.nil_prefix
      split
      case isTrue => exact List.nil_prefix
      case isFalse =>
        exact List.cons_prefix_cons.mpr ⟨rfl, append_takeWhile_prefix signed⟩

/-- What is read as the exponent of a number has its form. -/
lemma of_read? {value : Int}
    (h : (match text with
      | [] => Option.some 0
      | e :: after => if e = 'e' ∨ e = 'E' then Decimal.readExponent? after else Option.none) =
        Option.some value) :
    Exponent text := by
  split at h
  case h_1 => exact .none
  case h_2 e after =>
    split at h
    case isFalse => cases h
    case isTrue letter =>
      have letter : e ∈ ['e', 'E'] := List.mem_pair.mpr letter
      unfold Decimal.readExponent? Decimal.spanDigits at h
      dsimp only at h
      split at h
      case h_2 => cases h
      case h_1 first more found =>
        obtain ⟨taken, left⟩ := Prod.mk.inj found
        -- What follows the sign is nothing but digits.
        have digits := Digits.of_spanned taken left
        split at digits
        case h_1 => exact .some letter (by decide : ['-'] ∈ _) digits
        case h_2 => exact .some letter (by decide : ['+'] ∈ _) digits
        case h_3 => exact .some letter (by decide : [] ∈ _) digits

/-- Digits are read as an exponent, behind a sign or without one. -/
lemma isSome_readExponent? {sign digits : List Char} (signs : sign ∈ [[], ['+'], ['-']])
    (ds : Digits digits) : (Decimal.readExponent? (sign ++ digits)).isSome = true := by
  have spanned : Decimal.spanDigits digits = (digits, []) := by
    have ends : ∀ c ∈ ([] : List Char).head?, c.isDigit = false := nofun
    simpa only [List.append_nil] using spanDigits_append ds.isDigit ends
  obtain ⟨d, later, rfl⟩ := List.exists_cons_of_ne_nil ds.ne_nil
  have digit := ds.isDigit d (List.mem_cons_self ..)
  have plus : d ≠ '+' := ne_of_isDigit digit rfl
  have minus : d ≠ '-' := ne_of_isDigit digit rfl
  simp only [List.mem_cons, List.not_mem_nil, or_false] at signs
  rcases signs with rfl | rfl | rfl <;> simp [Decimal.readExponent?, spanned, plus, minus]

/-- Whatever has the form of an exponent is read as one. -/
lemma isSome_read? (h : Exponent exponent) :
    (match exponent with
      | [] => Option.some 0
      | e :: after => if e = 'e' ∨ e = 'E' then Decimal.readExponent? after else Option.none).isSome =
        true := by
  cases h with
  | none => rfl
  | some letter signs ds =>
    dsimp only
    rw [if_pos (List.mem_pair.mp letter)]
    exact isSome_readExponent? signs ds

end Exponent

namespace Numeral

variable {numeral text : List Char}

/-- A numeral is not empty. -/
lemma ne_nil (h : Numeral numeral) : numeral ≠ [] := by
  obtain ⟨m, e⟩ := h
  exact List.append_ne_nil_of_left_ne_nil m.ne_nil _

/-- What holds for digits, points, signs and the letters of exponents holds everywhere in a number. -/
lemma forall_mem {p : Char → Bool} (h : Numeral numeral)
    (digit : ∀ c : Char, c.isDigit = true → p c = true)
    (others : ['.', 'e', 'E', '+', '-'].all p = true) : ∀ c ∈ numeral, p c = true := by
  have others := List.all_eq_true.mp others
  obtain ⟨m, e⟩ := h
  refine List.forall_mem_append.mpr ⟨fun c mem => ?_, ?_⟩
  · have number := m.startsNumber c mem
    rw [Formula.startsNumber, Bool.or_eq_true, decide_eq_true_eq] at number
    rcases number with isDigit | rfl
    · exact digit c isDigit
    · exact others '.' (by decide)
  · cases e with
    | none => exact List.forall_mem_nil _
    | @some e sign digits letter signs ds =>
      refine List.forall_mem_cons.mpr ⟨?_, List.forall_mem_append.mpr
        ⟨?_, fun c mem => digit c (ds.isDigit c mem)⟩⟩
      · rcases List.mem_pair.mp letter with rfl | rfl <;> exact others _ (by decide)
      · simp only [List.mem_cons, List.not_mem_nil, or_false] at signs
        rcases signs with rfl | rfl | rfl
        · exact List.forall_mem_nil _
        · exact List.forall_mem_singleton.mpr (others '+' (by decide))
        · exact List.forall_mem_singleton.mpr (others '-' (by decide))

/-- A number begins with a digit or a point. -/
lemma startsNumber (h : Numeral numeral) :
    ∀ c ∈ numeral.head?, Formula.startsNumber c = true := by
  obtain ⟨m, e⟩ := h
  intro c mem
  rw [List.head?_append_of_ne_nil _ m.ne_nil] at mem
  exact m.startsNumber c (List.mem_of_mem_head? mem)

/-- The number at the front and what comes behind it make up the text. -/
lemma numberAtFront_append_drop (text : List Char) :
    Formula.numberAtFront text ++ text.drop (Formula.numberAtFront text).length = text := by
  have e : (text.takeWhile Formula.startsNumber) ++
      text.drop (text.takeWhile Formula.startsNumber).length = text :=
    List.prefix_iff_eq_append.mp (List.takeWhile_prefix _)
  rw [Formula.numberAtFront, List.length_append, ← List.drop_drop, List.append_assoc,
    Exponent.exponentAtFront_append_drop, e]

/-- Splitting into tokens finds all of a number. -/
lemma numberAtFront (h : Numeral numeral) (breaks : Breaks text) :
    numberAtFront (numeral ++ text) = numeral := by
  obtain ⟨m, e⟩ := h
  rename_i mantissa exponent
  have word : (mantissa ++ (exponent ++ text)).takeWhile Formula.startsNumber = mantissa :=
    takeWhile_word m.startsNumber (e.not_head breaks rfl)
  rw [Formula.numberAtFront, List.append_assoc, word, List.drop_left,
    e.exponentAtFront breaks (fun _ => id) rfl]

/-- Looking for products finds all of a number. -/
lemma literalAtFront (h : Numeral numeral) (breaks : Breaks text) :
    literalAtFront (numeral ++ text) = numeral := by
  obtain ⟨m, e⟩ := h
  rename_i mantissa exponent
  have word : mantissaAtFront (mantissa ++ (exponent ++ text)) = mantissa :=
    m.mantissaAtFront (e.not_head breaks rfl) (e.not_head breaks rfl)
  unfold Formula.literalAtFront
  rw [List.append_assoc, word]
  split
  case h_1 => exact absurd rfl m.ne_nil
  case h_2 =>
    rw [List.drop_left, e.exponentAtFront breaks (fun _ => isDecimalDigit_of_isDigit) rfl]

/-- No literal begins without a digit or a point. -/
lemma literalAtFront_eq_nil (digit : ∀ c ∈ text.head?, Text.isDecimalDigit c = false)
    (point : ∀ c ∈ text.head?, (c == '.') = false) : Formula.literalAtFront text = [] := by
  have whole : ([] ++ text).takeWhile Text.isDecimalDigit = [] := takeWhile_word nofun digit
  have none : mantissaAtFront text = [] := by
    unfold mantissaAtFront
    rw [← List.nil_append text, whole]
    dsimp only
    rw [List.length_nil, List.drop_zero, List.nil_append]
    split
    case h_1 => exact absurd (point '.' rfl) (by decide)
    all_goals first | rfl | contradiction
  rw [Formula.literalAtFront, none]

/-- What is read as a number has the form of one. -/
lemma of_read? {text : List Char} {amount : Decimal.Amount}
    (h : Decimal.Amount.read? text = some amount) : Numeral text := by
  unfold Decimal.Amount.read? Decimal.spanDigits at h
  dsimp only at h
  rw [← List.takeWhile_append_dropWhile (p := Char.isDigit) (l := text)]
  split at h
  case h_1 after e =>
    split at h
    case isTrue => cases h
    case isFalse some =>
      obtain ⟨value, he, -⟩ := Option.map_eq_some_iff.mp h
      rw [e, ← List.takeWhile_append_dropWhile (p := Char.isDigit) (l := after), ← List.cons_append,
        ← List.append_assoc]
      refine ⟨.pointed isDigit_of_mem_takeWhile isDigit_of_mem_takeWhile ?_, .of_read? he⟩
      simpa only [Bool.and_eq_true, List.isEmpty_iff, not_and_or] using some
  case h_2 =>
    split at h
    case isTrue => cases h
    case isFalse some =>
      obtain ⟨value, he, -⟩ := Option.map_eq_some_iff.mp h
      refine ⟨.whole ⟨?_, isDigit_of_mem_takeWhile⟩, .of_read? he⟩
      simpa only [Bool.and_eq_true, List.isEmpty_iff, List.isEmpty_nil, and_true] using some

/-- Whatever is the text of a number is read as one. -/
lemma isSome_read? (h : Numeral numeral) : (Decimal.Amount.read? numeral).isSome = true := by
  obtain ⟨m, e⟩ := h
  rename_i mantissa exponent
  have read := e.isSome_read?
  have digit : ∀ c ∈ exponent.head?, c.isDigit = false := by
    simpa only [List.append_nil] using e.not_head .nil (p := Char.isDigit) rfl
  unfold Decimal.Amount.read?
  cases m with
  | whole ds =>
    have some : ¬ (mantissa.isEmpty && List.isEmpty (α := Char) []) = true := by simp [ds.ne_nil]
    rw [spanDigits_append ds.isDigit digit]
    dsimp only
    split
    case h_1 => cases e with | some letter => exact absurd letter (by decide)
    case h_2 => rwa [if_neg some, Option.isSome_map]
  | @pointed whole fraction wholes fractions some =>
    have some : ¬ (whole.isEmpty && fraction.isEmpty) = true := by
      simpa only [Bool.and_eq_true, List.isEmpty_iff, not_and_or] using some
    rw [List.append_assoc, spanDigits_append wholes (by intro c mem; cases mem; rfl)]
    dsimp only
    split
    case h_1 after split =>
      obtain rfl : fraction ++ exponent = after := List.tail_eq_of_cons_eq split
      rwa [spanDigits_append fractions digit, if_neg some, Option.isSome_map]
    case h_2 other => exact absurd rfl (other _)

end Numeral

end Stepwise.Formula
