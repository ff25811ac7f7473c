import Stepwise.Proofs.Formula.Literals
import Stepwise.Proofs.Formula.Products

/-!
# How a text is scanned for products

The rule for numbers goes through a text piece by piece: some letters with no number behind them, some
letters with a number and perhaps one character behind it, or any other single character. What holds for
the pieces of a text is stated by induction on them.
-/

namespace Stepwise.Formula

open Text (Piece replace)

/-- The character behind a number that belongs to the same piece, in front of a text: a letter, an
opening bracket, or none if neither is next. -/
inductive Followed : List Char → List Char → Prop where
  | none {text} : (∀ c ∈ text.head?, (isNameLetter c || decide (c = '(')) = false) → Followed [] text
  | letter {c text} : isNameLetter c = true → Followed [c] text
  | opening {text} : Followed ['('] text

namespace Followed

variable {next text : List Char}

/-- What follows a number is found by looking at the next character alone. -/
lemma filter (h : Followed next text) :
    ((next ++ text).take 1).filter (fun c => isNameLetter c || decide (c = '(')) = next := by
  cases h with
  | none other =>
    rw [List.nil_append, List.take_one, List.filter_eq_nil_iff]
    intro c mem
    rw [other c (Option.mem_toList.mp mem)]
    exact Bool.false_ne_true
  | @letter c _ letter =>
    have kept : (isNameLetter c || decide (c = '(')) = true := Bool.or_eq_true_iff.mpr (.inl letter)
    exact List.filter_cons_of_pos kept
  | opening => rfl

/-- Every text can be cut behind what follows a number. -/
lemma exists_followed (text : List Char) : ∃ next rest, text = next ++ rest ∧ Followed next rest := by
  cases text with
  | nil => exact ⟨[], [], rfl, .none nofun⟩
  | cons c rest =>
    by_cases letter : isNameLetter c = true
    · exact ⟨[c], rest, rfl, .letter letter⟩
    · by_cases opening : c = '('
      · exact ⟨[c], rest, rfl, opening ▸ .opening⟩
      · refine ⟨[], c :: rest, rfl, .none fun d mem => ?_⟩
        cases mem
        rw [Bool.or_eq_false_iff]
        exact ⟨eq_false_of_ne_true letter, decide_eq_false opening⟩

end Followed

/-- A text whose pieces satisfy a property of the letters before a number and the character behind it. -/
inductive Scanned (P : List Char → List Char → Prop) : List Char → Prop where
  | nil : Scanned P []
  | word {word text} : word ≠ [] → (∀ c ∈ word, isNameLetter c = true) →
    (∀ c ∈ text.head?, isNameLetter c = false) → literalAtFront text = [] → Scanned P text →
    Scanned P (word ++ text)
  | other {c text} : isNameLetter c = false → literalAtFront (c :: text) = [] → Scanned P text →
    Scanned P (c :: text)
  | number {word number next text} : (∀ c ∈ word, isNameLetter c = true) → number ≠ [] →
    literalAtFront (number ++ (next ++ text)) = number → Followed next text → P word next →
    Scanned P text → Scanned P (word ++ (number ++ (next ++ text)))

/-- Every text can be scanned. -/
lemma scanned (text : List Char) : Scanned (fun _ _ => True) text := by
  induction h : text.length using Nat.strong_induction_on generalizing text with
  | _ length ih =>
    -- On the length: a piece is the letters, the number behind them and the character that it takes along.
    subst h
    have letters (c : Char) (mem : c ∈ text.takeWhile isNameLetter) : isNameLetter c = true :=
      List.mem_takeWhile_imp mem
    have outside : ∀ c ∈ (text.dropWhile isNameLetter).head?, isNameLetter c = false := by
      intro c mem
      have ends := List.head?_dropWhile_not isNameLetter text
      rw [Option.mem_def.mp mem] at ends
      exact ends
    have split := List.takeWhile_append_dropWhile (p := isNameLetter) (l := text)
    generalize text.takeWhile isNameLetter = word at letters split
    generalize text.dropWhile isNameLetter = rest at outside split
    subst split
    have literal := literalAtFront_append_drop rest
    by_cases some : literalAtFront rest = []
    case pos =>
      by_cases empty : word = []
      case pos =>
        subst empty
        cases rest with
        | nil => exact .nil
        | cons c rest => exact .other (outside c rfl) some (ih _ (Nat.lt_succ_self _) rest rfl)
      case neg =>
        refine .word empty letters outside some (ih _ ?_ rest rfl)
        rw [List.length_append]
        exact Nat.lt_add_of_pos_left (List.length_pos_of_ne_nil empty)
    case neg =>
      obtain ⟨next, behind, e, followed⟩ := Followed.exists_followed (rest.drop (literalAtFront rest).length)
      rw [e] at literal
      have longer : behind.length < (word ++ rest).length := by
        rw [← literal]
        simp only [List.length_append]
        have := List.length_pos_of_ne_nil some
        omega
      have number := Scanned.number letters some (by rw [literal]) followed trivial (ih _ longer behind rfl)
      rwa [literal] at number

/-- The digits of other scripts are far behind the letters of names. -/
lemma isDigit_or_of_isDecimalDigit {c : Char} (h : Text.isDecimalDigit c = true) :
    c.isDigit = true ∨ 0x660 ≤ c.toNat := by
  obtain ⟨start, mem, within⟩ := List.any_eq_true.mp h
  rw [Bool.and_eq_true, decide_eq_true_eq, decide_eq_true_eq] at within
  have scripts : Text.decimalZeros.all (fun start => decide (start = 0x30 ∨ 0x660 ≤ start)) = true := by
    decide
  have script := List.all_eq_true.mp scripts start mem
  rw [decide_eq_true_eq] at script
  rcases script with rfl | far
  · refine .inl ?_
    rw [Char.isDigit, Bool.and_eq_true, decide_eq_true_eq, decide_eq_true_eq]
    exact ⟨within.1, Nat.le_of_lt_succ within.2⟩
  · exact .inr (far.trans within.1)

/-- Below the digits of other scripts the only digits are the ten ordinary ones. -/
lemma isDecimalDigit_eq_isDigit {c : Char} (near : c.toNat < 0x660) : Text.isDecimalDigit c = c.isDigit := by
  refine Bool.eq_iff_iff.mpr ⟨fun digit => ?_, isDecimalDigit_of_isDigit⟩
  exact (isDigit_or_of_isDecimalDigit digit).resolve_right (Nat.not_le_of_lt near)

/-- A digit is no letter of a name. -/
lemma not_isNameLetter_of_isDecimalDigit {c : Char} (h : Text.isDecimalDigit c = true) :
    isNameLetter c = false := by
  rcases isDigit_or_of_isDecimalDigit h with digit | far
  · exact not_startsName (Bool.or_eq_true_iff.mpr (.inl digit))
  · by_contra letter
    have near := toNat_of_continuesName (continuesName_of_startsName (eq_true_of_ne_false letter))
    omega

/-- A number does not begin with a letter. -/
lemma not_isNameLetter_of_literal {number text : List Char} (ne : number ≠ [])
    (literal : literalAtFront (number ++ text) = number) :
    ∀ c ∈ (number ++ text).head?, isNameLetter c = false := by
  intro c mem
  by_contra letter
  refine ne ?_
  rw [← literal]
  obtain ⟨rest, e⟩ := List.head?_eq_some_iff.mp mem
  rw [e]
  refine Numeral.literalAtFront_eq_nil ?_ ?_
  · intro d mem
    cases mem
    by_contra digit
    exact letter (not_isNameLetter_of_isDecimalDigit (eq_true_of_ne_false digit))
  · intro d mem
    cases mem
    refine beq_eq_false_iff_ne.mpr ?_
    rintro rfl
    exact letter rfl

/-- What is written for a number and the character behind it. -/
def numberTimes (number next : List Char) : List Char :=
  number ++ if next = [] then [] else '*' :: next

/-- What is written for a piece with a number. -/
def multiplied (word number next : List Char) : List Char :=
  if word = [] then numberTimes number next
  else if namesValue word then word ++ '*' :: numberTimes number next
  else word ++ (number ++ next)

section Pieces

variable {word number next text : List Char}

/-- The rule for numbers passes over a word without a number behind it. -/
lemma replace_word (ne : word ≠ []) (letters : ∀ c ∈ word, isNameLetter c = true)
    (outside : ∀ c ∈ text.head?, isNameLetter c = false) (none : literalAtFront text = []) :
    replace numberProducts (word ++ text) = word ++ replace numberProducts text := by
  refine replace_append ne text ?_
  have e := numberProducts_append [] text letters outside none
  rw [List.isEmpty_nil, if_pos rfl, Nat.max_eq_right (List.length_pos_of_ne_nil ne)] at e
  rw [← keep_length]
  exact e

/-- Letters with neither letters nor a number behind them. -/
lemma replace_letters (letters : ∀ c ∈ word, isNameLetter c = true)
    (outside : ∀ c ∈ text.head?, isNameLetter c = false) (none : literalAtFront text = []) :
    replace numberProducts (word ++ text) = word ++ replace numberProducts text := by
  by_cases empty : word = []
  case pos =>
    subst empty
    rfl
  case neg => exact replace_word empty letters outside none

/-- The rule for numbers passes over a character that begins neither a word nor a number. -/
lemma replace_other {c : Char} (other : isNameLetter c = false) (none : literalAtFront (c :: text) = []) :
    replace numberProducts (c :: text) = c :: replace numberProducts text := by
  refine replace_append (List.cons_ne_nil c []) text ?_
  have e := @numberProducts_append [] [] (c :: text) nofun (fun d mem => by cases mem; exact other)
    none
  rw [List.isEmpty_nil, if_pos rfl] at e
  exact e

/-- The rule for numbers rewrites a piece with a number and goes on behind it. -/
lemma replace_number (letters : ∀ c ∈ word, isNameLetter c = true) (ne : number ≠ [])
    (literal : literalAtFront (number ++ (next ++ text)) = number) (followed : Followed next text) :
    replace numberProducts (word ++ (number ++ (next ++ text))) =
      multiplied word number next ++ replace numberProducts text := by
  have e := numberProducts_append number (next ++ text) letters
    (not_isNameLetter_of_literal ne literal) literal
  have some : number.isEmpty = false := List.isEmpty_eq_false_iff.mpr ne
  rw [some, if_neg Bool.false_ne_true, followed.filter] at e
  have reassoc : word ++ (number ++ (next ++ text)) = word ++ (number ++ next) ++ text := by
    rw [List.append_assoc, List.append_assoc]
  have length : word.length + number.length + next.length = (word ++ (number ++ next)).length := by
    rw [List.length_append, List.length_append, Nat.add_assoc]
  rw [reassoc] at e ⊢
  refine replace_piece (List.append_ne_nil_of_right_ne_nil _ (List.append_ne_nil_of_left_ne_nil ne _))
    text ?_
  rw [e]
  dsimp only
  rw [length, keep_length, multiplied, numberTimes]
  cases word with
  | nil => simp only [List.isEmpty_iff, List.isEmpty_nil, Bool.not_true, Bool.false_and, if_true,
      Bool.false_eq_true, if_false, List.nil_append]
  | cons c word =>
    cases value : namesValue (c :: word) with
    | true => simp [List.isEmpty_iff]
    | false => simp

/-- What becomes of a number with no letters in front of it. -/
lemma replace_alone (ne : number ≠ []) (literal : literalAtFront (number ++ (next ++ text)) = number)
    (followed : Followed next text) :
    replace numberProducts (number ++ (next ++ text)) =
      numberTimes number next ++ replace numberProducts text := by
  have e := @replace_number [] number next text nofun ne literal followed
  rw [multiplied, if_pos rfl] at e
  exact e

/-- A number times what follows it differs from both by stars put in. -/
lemma inserted_numberTimes (number next : List Char) :
    Inserted (number ++ next) (numberTimes number next) := by
  rw [numberTimes]
  split
  case isTrue none =>
    rw [none]
    exact .refl _
  case isFalse => exact (Inserted.refl number).append (.star (.refl next))

/-- A rewritten piece differs from the piece by stars put in. -/
lemma inserted_multiplied (word number next : List Char) :
    Inserted (word ++ (number ++ next)) (multiplied word number next) := by
  have times := inserted_numberTimes number next
  rw [multiplied]
  split
  case isTrue empty =>
    rw [empty]
    exact times
  case isFalse =>
    split
    case isTrue => exact (Inserted.refl word).append (.star times)
    case isFalse => exact .refl _

end Pieces

/-- The rule for numbers only puts stars into a text. -/
lemma inserted_numberProducts (text : List Char) : Inserted text (replace numberProducts text) := by
  induction scanned text with
  | nil => exact .nil
  | @word word text ne letters outside none _ ih =>
    rw [replace_word ne letters outside none]
    exact (Inserted.refl word).append ih
  | other other none _ ih =>
    rw [replace_other other none]
    exact .keep ih
  | @number word number next text letters ne literal followed _ _ ih =>
    have piece := (inserted_multiplied word number next).append ih
    rw [List.append_assoc, List.append_assoc] at piece
    rw [replace_number letters ne literal followed]
    exact piece

namespace Scanned

variable {P Q : List Char → List Char → Prop} {text : List Char}

/-- An operator or a bracket is a piece of its own. -/
lemma mark {c : Char} (mark : c ∈ marks) (h : Scanned P text) : Scanned P (c :: text) := by
  have outside {p : Char → Bool} (ends : marks.all (fun c => !p c) = true) : p c = false :=
    (Bool.not_eq_true' _).mp (List.all_eq_true.mp ends c mark)
  refine .other (outside rfl) (Numeral.literalAtFront_eq_nil ?_ ?_) h
  · exact fun d mem => by cases mem; exact outside rfl
  · exact fun d mem => by cases mem; exact outside (p := (· == '.')) rfl

/-- No literal begins with a star. -/
lemma literal_star (text : List Char) : literalAtFront ('*' :: text) = [] :=
  Numeral.literalAtFront_eq_nil (fun d mem => by cases mem; rfl) fun d mem => by cases mem; rfl

/-- A letter in front of a text belongs to the letters that the text begins with. -/
lemma glue {c : Char} (letter : isNameLetter c = true) (h : Scanned P text)
    (joined : ∀ word number next rest, text = word ++ (number ++ (next ++ rest)) → number ≠ [] →
      literalAtFront (number ++ (next ++ rest)) = number → P word next → P (c :: word) next) :
    Scanned P (c :: text) := by
  have one : ∀ d ∈ [c], isNameLetter d = true := List.forall_mem_singleton.mpr letter
  cases h with
  | nil => exact .word (List.cons_ne_nil c []) one nofun rfl .nil
  | word ne letters outside none h =>
    exact .word (List.cons_ne_nil c _) (List.forall_mem_cons.mpr ⟨letter, letters⟩) outside none h
  | other other none h =>
    refine .word (List.cons_ne_nil c []) one (fun d mem => ?_) none (.other other none h)
    cases mem
    exact other
  | @number word number next rest letters ne literal followed p h =>
    exact @Scanned.number P (c :: word) number next rest (List.forall_mem_cons.mpr ⟨letter, letters⟩) ne
      literal followed (joined word number next rest rfl ne literal p) h

/-- A number whose piece ends with it. -/
lemma number_apart {word number : List Char} (letters : ∀ c ∈ word, isNameLetter c = true)
    (ne : number ≠ []) (literal : literalAtFront (number ++ text) = number)
    (other : ∀ c ∈ text.head?, (isNameLetter c || decide (c = '(')) = false) (p : P word [])
    (h : Scanned P text) : Scanned P (word ++ (number ++ text)) :=
  @Scanned.number P word number [] text letters ne literal (.none other) p h

/-- A number that is a piece of its own. -/
lemma alone {number : List Char} (ne : number ≠ []) (literal : literalAtFront (number ++ text) = number)
    (other : ∀ c ∈ text.head?, (isNameLetter c || decide (c = '(')) = false) (single : P [] [])
    (h : Scanned P text) : Scanned P (number ++ text) :=
  @number_apart P text [] number nofun ne literal other single h

/-- A number that stands alone, with what the rule puts behind it. -/
lemma numberTimes {number next : List Char} (ne : number ≠ [])
    (literal : literalAtFront (number ++ (next ++ text)) = number)
    (followed : Followed next text) (single : P [] [])
    (glue : ∀ c, next = [c] → isNameLetter c = true →
      Scanned P (replace numberProducts text) → Scanned P (c :: replace numberProducts text))
    (h : Scanned P (replace numberProducts text)) :
    Scanned P (Formula.numberTimes number next ++ replace numberProducts text) := by
  have inserted := inserted_numberProducts text
  have behind {c : Char} (literal : literalAtFront (number ++ (c :: text)) = number)
      (later : Scanned P (c :: replace numberProducts text)) :
      Scanned P (number ++ '*' :: c :: replace numberProducts text) := by
    have literal' := (Inserted.star (inserted.keep (c := c))).literalAtFront literal
    refine alone ne literal' (fun d mem => ?_) single (later.mark (by decide))
    cases mem
    rfl
  rw [Formula.numberTimes]
  cases followed with
  | none other =>
    rw [if_pos rfl, List.append_nil]
    have literal' : literalAtFront (number ++ replace numberProducts text) = number :=
      inserted.literalAtFront literal
    exact alone ne literal' (inserted.not_head rfl other) single h
  | @letter c _ letter =>
    rw [if_neg (List.cons_ne_nil c []), List.append_assoc]
    exact behind literal (glue c rfl letter h)
  | opening =>
    rw [if_neg (List.cons_ne_nil '(' []), List.append_assoc]
    exact behind literal (h.mark (by decide))

/-- What holds for the pieces once the rule for numbers has been applied: for a number that stands alone,
for the pieces that are kept, and for those in which a letter that has been cut off from a number in
front of it goes on. -/
lemma replace (h : Scanned Q text) (single : P [] [])
    (keep : ∀ word next, word ≠ [] → namesValue word = false → Q word next → P word next)
    (glue : ∀ word number c rest, number ++ c :: rest <:+ text → number ≠ [] →
      literalAtFront (number ++ c :: rest) = number → isNameLetter c = true → Q word [c] →
      (word = [] ∨ namesValue word = true) → Scanned P (Text.replace numberProducts rest) →
      Scanned P (c :: Text.replace numberProducts rest)) :
    Scanned P (Text.replace numberProducts text) := by
  induction h with
  | nil => exact .nil
  | @word word text ne letters outside none _ ih =>
    have inserted := inserted_numberProducts text
    rw [replace_word ne letters outside none]
    refine .word ne letters (inserted.not_head rfl outside) (inserted.literalAtFront_eq_nil none)
      (ih fun word number c rest suffix => glue word number c rest (suffix.trans (List.suffix_append _ _)))
  | @other c text other none _ ih =>
    have inserted := inserted_numberProducts text
    rw [replace_other other none]
    refine .other other (inserted.keep.literalAtFront_eq_nil none)
      (ih fun word number c rest suffix => glue word number c rest (suffix.trans (List.suffix_cons _ _)))
  | @number word number next text letters ne literal followed q _ ih =>
    have inserted := inserted_numberProducts text
    have suffix : text <:+ word ++ (number ++ (next ++ text)) :=
      (List.suffix_append next text).trans
        ((List.suffix_append number _).trans (List.suffix_append word _))
    have later := ih fun word number c rest suffix' => glue word number c rest (suffix'.trans suffix)
    -- Where a star is put in, a letter behind the number is cut off from it and may join the next piece.
    have alone (multiplies : word = [] ∨ namesValue word = true) :
        Scanned P (Formula.numberTimes number next ++ Text.replace numberProducts text) := by
      refine later.numberTimes ne literal followed single fun c e letter => ?_
      subst e
      exact glue word number c text (List.suffix_append word _) ne literal letter q multiplies
    rw [replace_number letters ne literal followed, multiplied]
    split
    case isTrue empty => exact alone (.inl empty)
    case isFalse some =>
      split
      case isTrue value =>
        rw [List.append_assoc, List.cons_append]
        refine .word some letters (fun d mem => ?_) (literal_star _) ((alone (.inr value)).mark (by decide))
        cases mem
        rfl
      case isFalse other =>
        have literal' := ((Inserted.refl next).append inserted).literalAtFront literal
        have followed' : Followed next (Text.replace numberProducts text) := by
          cases followed with
          | none other => exact .none (inserted.not_head rfl other)
          | letter letter => exact .letter letter
          | opening => exact .opening
        rw [List.append_assoc, List.append_assoc]
        exact .number letters ne literal' followed' (keep word next some (eq_false_of_ne_true other) q) later

end Scanned

end Stepwise.Formula
