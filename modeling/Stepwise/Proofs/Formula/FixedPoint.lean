import Stepwise.Proofs.Formula.Explicit
import Stepwise.Proofs.Formula.Passes
import Stepwise.Proofs.Formula.Scanning

/-!
# When a normal form is a normal form of itself

The rule for numbers runs twice. A letter that it followed behind a number can go on as a name with the
letters behind it, and then it followed a further run to reach the number behind that name. The rules for
names and brackets do not open a new place for any rule. So a normal form is its own normal form exactly
if a third run of the rule for numbers would change nothing. That is so unless the name `pi` stands
between two numbers.
-/

namespace Stepwise.Formula

open Text (replace)

/-- A piece that the rule for numbers keeps. -/
def Settled (word next : List Char) : Prop :=
  word ≠ [] ∧ namesValue word = false ∨ word = [] ∧ next = []

/-- A piece in which a number that stands alone is apart from what follows. -/
def Spaced (word next : List Char) : Prop :=
  word = [] → next = []

section Numbers

variable {word number next text : List Char}

/-- Where the rule changes nothing, it changes neither the first piece nor the text behind it. -/
lemma settled_of_replace_eq (letters : ∀ c ∈ word, isNameLetter c = true) (ne : number ≠ [])
    (literal : literalAtFront (number ++ (next ++ text)) = number) (followed : Followed next text)
    (same : replace numberProducts (word ++ (number ++ (next ++ text))) =
      word ++ (number ++ (next ++ text))) :
    Settled word next ∧ replace numberProducts text = text := by
  rw [replace_number letters ne literal followed] at same
  have piece := inserted_multiplied word number next
  have behind := inserted_numberProducts text
  -- No star is put in, so both parts are as long as they were.
  have lengths := congrArg List.length same
  have piece_le := piece.length_le
  have behind_le := behind.length_le
  simp only [List.length_append] at lengths piece_le
  have kept := piece.eq_of_length_le (by simp only [List.length_append]; omega)
  refine ⟨?_, behind.eq_of_length_le (by omega)⟩
  rw [multiplied] at kept
  by_cases empty : word = []
  case neg =>
    refine .inl ⟨empty, ?_⟩
    cases value : namesValue word with
    | false => rfl
    | true =>
      have times_le := (inserted_numberTimes number next).length_le
      rw [if_neg empty, value, if_pos rfl, List.append_cancel_left_eq] at kept
      have longer := congrArg List.length kept
      rw [List.length_cons] at longer
      omega
  case pos =>
    refine .inr ⟨empty, ?_⟩
    by_contra some
    rw [if_pos empty, numberTimes, if_neg some, empty, List.nil_append, List.append_cancel_left_eq] at kept
    exact List.cons_ne_self _ _ kept

/-- The rule for numbers leaves a settled piece as it is. -/
lemma multiplied_of_settled (settled : Settled word next) :
    multiplied word number next = word ++ (number ++ next) := by
  rw [multiplied, numberTimes]
  rcases settled with ⟨some, other⟩ | ⟨empty, none⟩
  · rw [if_neg some, other, if_neg Bool.false_ne_true]
  · rw [if_pos empty, if_pos none, empty, none]
    rfl

/-- The rule for numbers changes nothing exactly if it keeps every piece. -/
lemma numberProducts_eq_self_iff :
    replace numberProducts text = text ↔ Scanned Settled text := by
  constructor
  · intro same
    induction scanned text with
    | nil => exact .nil
    | word ne letters outside none _ ih =>
      rw [replace_word ne letters outside none, List.append_cancel_left_eq] at same
      exact .word ne letters outside none (ih same)
    | other other none _ ih =>
      rw [replace_other other none] at same
      exact .other other none (ih (List.cons.inj same).2)
    | number letters ne literal followed _ _ ih =>
      obtain ⟨settled, same⟩ := settled_of_replace_eq letters ne literal followed same
      exact .number letters ne literal followed settled (ih same)
  · intro settled
    induction settled with
    | nil => rfl
    | word ne letters outside none _ ih => rw [replace_word ne letters outside none, ih]
    | other other none _ ih => rw [replace_other other none, ih]
    | number letters ne literal followed settled _ ih =>
      rw [replace_number letters ne literal followed, multiplied_of_settled settled, ih, List.append_assoc,
        List.append_assoc]

/-- What the rule for numbers leaves has numbers that stand alone apart from what follows. -/
lemma spaced_numberProducts (text : List Char) : Scanned Spaced (replace numberProducts text) := by
  refine (scanned text).replace (fun _ => rfl) (fun word next some _ _ empty => absurd empty some) ?_
  intro word number c rest _ _ _ letter _ _ later
  exact later.glue letter fun _ _ _ _ _ _ _ _ empty => absurd empty (List.cons_ne_nil c _)

/-- The first character of a piece is followed by the same pieces once stars are put in. -/
lemma Followed.starred {text' : List Char} (followed : Followed next text)
    (starred : Starred (next ++ text) text') :
    (∃ behind, text' = next ++ behind ∧ Starred text behind ∧ Followed next behind) ∨
      next = ['('] ∧ ∃ behind, text' = '*' :: '(' :: behind ∧ Starred text behind := by
  cases followed with
  | none other => exact .inl ⟨text', rfl, starred, .none (starred.inserted.not_head rfl other)⟩
  | @letter c _ letter =>
    have plain : ∀ d ∈ [c], d ≠ '(' ∧ d ≠ ')' := by
      refine List.forall_mem_singleton.mpr ⟨?_, ?_⟩ <;> rintro rfl <;> cases letter
    obtain ⟨behind, rfl, later⟩ := starred.of_append plain
    exact .inl ⟨behind, rfl, later, .letter letter⟩
  | opening =>
    cases starred with
    | keep starred => exact .inl ⟨_, rfl, starred, .opening⟩
    | opening starred => exact .inr ⟨rfl, _, rfl, starred⟩

/-- No bracket is part of letters or of a number. -/
lemma ne_bracket_of_letters {word : List Char} (letters : ∀ c ∈ word, isNameLetter c = true) :
    ∀ c ∈ word, c ≠ '(' ∧ c ≠ ')' := by
  intro c mem
  constructor <;> rintro rfl <;> cases letters _ mem

/-- A numeral has no brackets. -/
lemma ne_bracket_of_literal (literal : literalAtFront (number ++ text) = number) :
    ∀ c ∈ number, c ≠ '(' ∧ c ≠ ')' := by
  intro c mem
  rw [← literal] at mem
  have numeric := isNumeric_of_mem_literalAtFront c mem
  constructor <;> rintro rfl <;> exact absurd numeric (by decide)

/-- Stars at brackets leave the pieces as they are, but for a bracket behind a number. -/
lemma Scanned.starred {P : List Char → List Char → Prop} {text' : List Char} (h : Scanned P text)
    (drop : ∀ word, P word ['('] → P word []) (starred : Starred text text') : Scanned P text' := by
  induction h generalizing text' with
  | nil =>
    cases starred
    exact .nil
  | word ne letters outside none _ ih =>
    obtain ⟨behind, rfl, later⟩ := starred.of_append (ne_bracket_of_letters letters)
    exact .word ne letters (later.inserted.not_head rfl outside)
      (later.inserted.literalAtFront_eq_nil none) (ih later)
  | other other none _ ih =>
    cases starred with
    | keep starred => exact .other other (starred.inserted.keep.literalAtFront_eq_nil none) (ih starred)
    | opening starred => exact ((ih starred).mark (by decide)).mark (by decide)
    | closing starred => exact ((ih starred).mark (by decide)).mark (by decide)
  | @number word number next text letters ne literal followed p _ ih =>
    obtain ⟨_, rfl, behindWord⟩ := starred.of_append (ne_bracket_of_letters letters)
    obtain ⟨_, rfl, behindNumber⟩ := behindWord.of_append (ne_bracket_of_literal literal)
    have literal' := behindNumber.inserted.literalAtFront literal
    rcases followed.starred behindNumber with ⟨_, rfl, later, followed⟩ | ⟨rfl, _, rfl, later⟩
    · exact .number letters ne literal' followed p (ih later)
    · refine .number_apart letters ne literal' (fun d mem => ?_) (drop word p)
        (((ih later).mark (by decide)).mark (by decide))
      cases mem
      rfl

/-- If the rule for numbers leaves a text alone, it leaves alone what follows a mark. -/
lemma of_replace_mark {c : Char} (mark : c ∈ marks)
    (same : replace numberProducts (c :: text) = c :: text) : replace numberProducts text = text :=
  (List.cons.inj ((replace_mark mark text).symm.trans same)).2

/-- Stars at brackets do not hide that the rule for numbers has something to do. -/
lemma settled_of_starred {text' : List Char} (h : Scanned Spaced text) (starred : Starred text text')
    (same : replace numberProducts text' = text') : Scanned Settled text := by
  induction h generalizing text' with
  | nil => exact .nil
  | word ne letters outside none _ ih =>
    obtain ⟨_, rfl, later⟩ := starred.of_append (ne_bracket_of_letters letters)
    rw [replace_word ne letters (later.inserted.not_head rfl outside)
      (later.inserted.literalAtFront_eq_nil none), List.append_cancel_left_eq] at same
    exact .word ne letters outside none (ih later same)
  | other other none _ ih =>
    cases starred with
    | keep starred =>
      rw [replace_other other (starred.inserted.keep.literalAtFront_eq_nil none)] at same
      exact .other other none (ih starred (List.cons.inj same).2)
    | opening starred =>
      exact .other other none (ih starred (of_replace_mark (by decide) (of_replace_mark (by decide) same)))
    | closing starred =>
      exact .other other none (ih starred (of_replace_mark (by decide) (of_replace_mark (by decide) same)))
  | @number word number next text letters ne literal followed spaced _ ih =>
    obtain ⟨_, rfl, behindWord⟩ := starred.of_append (ne_bracket_of_letters letters)
    obtain ⟨_, rfl, behindNumber⟩ := behindWord.of_append (ne_bracket_of_literal literal)
    have literal' := behindNumber.inserted.literalAtFront literal
    -- A star behind the number can only stand in front of a bracket that the number takes along.
    rcases followed.starred behindNumber with ⟨_, rfl, later, followed'⟩ | ⟨rfl, behind, rfl, later⟩
    · obtain ⟨settled, same'⟩ := settled_of_replace_eq letters ne literal' followed' same
      exact .number letters ne literal followed settled (ih later same')
    · have apart : Followed [] ('*' :: '(' :: behind) := .none fun d mem => by
        cases mem
        rfl
      obtain ⟨settled, same'⟩ := @settled_of_replace_eq word number [] _ letters ne literal' apart same
      refine .number letters ne literal followed ?_
        (ih later (of_replace_mark (by decide) (of_replace_mark (by decide) same')))
      rcases settled with other | ⟨empty, -⟩
      · exact .inl other
      · exact absurd (spaced empty) (List.cons_ne_nil _ _)

/-- Stars at brackets open no place for the rule for numbers, and close none. -/
lemma numberProducts_starred_iff {text' : List Char} (h : Scanned Spaced text)
    (starred : Starred text text') :
    replace numberProducts text' = text' ↔ replace numberProducts text = text := by
  have settled_iff : replace numberProducts text = text ↔ Scanned Settled text := numberProducts_eq_self_iff
  rw [settled_iff]
  constructor
  · exact settled_of_starred h starred
  · intro settled
    refine numberProducts_eq_self_iff.mpr (settled.starred (fun word settled => ?_) starred)
    rcases settled with other | ⟨_, some⟩
    · exact .inl other
    · exact absurd some (List.cons_ne_nil _ _)

end Numbers

section Chains

/-- The name `pi` stands between two numbers. -/
def PiBetweenNumbers (text : List Char) : Prop :=
  ∃ before after, isDigitOrPoint before = true ∧ isDigitOrPoint after = true ∧
    [before, 'p', 'i', after] <:+: text

/-- A piece that one more run settles. -/
def Nearly (word next : List Char) : Prop :=
  Spaced word next ∧ (namesValue word = true → ∀ c ∈ next, isNameLetter c = false)

/-- The names of values. -/
lemma mem_of_namesValue {name : List Char} (h : namesValue name = true) :
    name ∈ [['x'], ['p', 'i'], ['e']] := by
  unfold namesValue at h
  cases e : Symbol.ofName? (String.ofList name) with
  | none =>
    rw [e] at h
    cases h
  | some symbol =>
    rw [e] at h
    have spelled : symbol.name.toList = name := by
      rw [Symbol.name_of_ofName? e, String.toList_ofList]
    rw [← spelled]
    rcases symbol with - | c | f
    · decide
    · cases c <;> decide
    · cases h

/-- No star stands in front of two characters that are no stars, so they were there before. -/
lemma Inserted.of_cons_cons {text more : List Char} {c d : Char} (h : Inserted text (c :: d :: more))
    (ne : c ≠ '*') (ne' : d ≠ '*') : ∃ rest, text = c :: d :: rest := by
  cases h with
  | star => exact absurd rfl ne
  | keep h =>
    cases h with
    | star => exact absurd rfl ne'
    | keep => exact ⟨_, rfl⟩

/-- Unless `pi` stands between two numbers, one run of the rule for numbers leaves pieces that one more
run settles. -/
lemma nearly_numberProducts {text : List Char} (apart : ¬ PiBetweenNumbers text) :
    Scanned Nearly (replace numberProducts text) := by
  refine (scanned text).replace ⟨fun _ => rfl, nofun⟩ ?_ ?_
  · intro word next some other _
    exact ⟨fun empty => absurd empty some, fun value => absurd (value.symm.trans other) (by decide)⟩
  · intro word number c rest suffix ne literal letter _ _ later
    refine later.glue letter fun word' number' next' rest' e ne' literal' nearly => ?_
    refine ⟨fun empty => absurd empty (List.cons_ne_nil c word'), fun value => ?_⟩
    by_cases alone : word' = []
    case pos =>
      rw [nearly.1 alone]
      exact nofun
    case neg =>
      -- Only `pi` goes on behind its first letter, and here its two letters are cut by the scanning.
      obtain ⟨rfl, rfl⟩ : c = 'p' ∧ word' = ['i'] := by
        have mem := mem_of_namesValue value
        simp only [List.mem_cons, List.cons.injEq, List.not_mem_nil, or_false] at mem
        rcases mem with ⟨-, empty⟩ | found | ⟨-, empty⟩
        · exact absurd empty alone
        · exact found
        · exact absurd empty alone
      obtain ⟨-, front, before, e', digit⟩ := exists_ends_of_literal (literal.symm ▸ ne)
      obtain ⟨⟨after, behind, e'', digit'⟩, -⟩ := exists_ends_of_literal (literal'.symm ▸ ne')
      rw [literal] at e'
      rw [literal'] at e''
      subst e' e''
      have ne_star : after ≠ '*' := by
        rintro rfl
        cases digit'
      obtain ⟨rest, rfl⟩ := (e ▸ inserted_numberProducts rest).of_cons_cons (by decide) ne_star
      refine absurd ⟨before, after, digit, digit', ?_⟩ apart
      refine List.IsInfix.trans ⟨front, rest, ?_⟩ suffix.isInfix
      rw [List.append_assoc, List.append_assoc]
      rfl

/-- One run of the rule for numbers settles the pieces of a text that are nearly settled. -/
lemma settled_of_nearly {text : List Char} (nearly : Scanned Nearly text) :
    Scanned Settled (replace numberProducts text) := by
  refine nearly.replace (.inr ⟨rfl, rfl⟩) (fun word next some other _ => .inl ⟨some, other⟩) ?_
  intro word number c rest _ _ _ letter nearly multiplies _
  rcases multiplies with empty | value
  · exact absurd (nearly.1 empty) (List.cons_ne_nil c [])
  · exact absurd (letter.symm.trans (nearly.2 value c (List.mem_singleton.mpr rfl))) (by decide)

end Chains

section Normal

variable {text : List Char}

/-- What is plain consists of kept characters. -/
lemma isInk_of_mem_plainText : ∀ c ∈ plainText text, isInk c = true := by
  intro c mem
  obtain ⟨d, kept, written⟩ := List.mem_flatMap.mp mem
  have ink := (List.mem_filter.mp kept).2
  split at written
  case isTrue =>
    have star : c = '*' := by simpa using written
    subst star
    rfl
  case isFalse ne =>
    obtain rfl := List.mem_singleton.mp written
    rw [isInk, ink, Bool.true_and, bne_iff_ne]
    exact ne

/-- Stars put into a text without blanks and carets bring in none. -/
lemma Inserted.isInk {text' : List Char} (h : Inserted text text') (ink : ∀ c ∈ text, isInk c = true) :
    ∀ c ∈ text', Formula.isInk c = true := by
  intro c mem
  rcases h.mem c mem with rfl | mem
  · rfl
  · exact ink c mem

/-- What the two runs of the rule for numbers leave of a formula. -/
def numbersMultiplied (text : List Char) : List Char :=
  replace numberProducts (replace numberProducts (plainText text))

/-- A normal form is its own normal form exactly if a third run of the rule for numbers would change
nothing. -/
lemma normalize_normalize_iff : normalize (normalize text) = normalize text ↔
    replace numberProducts (numbersMultiplied text) = numbersMultiplied text := by
  have unfolded : normalize text =
      replace bracketProducts (replace nameProducts (numbersMultiplied text)) := rfl
  have spaced : Scanned Spaced (numbersMultiplied text) := spaced_numberProducts _
  have names := starred_nameProducts (numbersMultiplied text)
  have brackets := starred_bracketProducts (replace nameProducts (numbersMultiplied text))
  have open_iff : replace numberProducts (normalize text) = normalize text ↔
      replace numberProducts (numbersMultiplied text) = numbersMultiplied text := by
    rw [unfolded, numberProducts_starred_iff (spaced.starred (fun _ _ _ => rfl) names) brackets,
      numberProducts_starred_iff spaced names]
  -- No blank and no caret comes in, so the normal form is only scanned again.
  have ink : ∀ c ∈ normalize text, isInk c = true := by
    refine brackets.inserted.isInk (names.inserted.isInk ?_)
    exact (inserted_numberProducts _).isInk ((inserted_numberProducts _).isInk isInk_of_mem_plainText)
  have again : normalize (normalize text) = replace bracketProducts (replace nameProducts
      (replace numberProducts (replace numberProducts (normalize text)))) := by
    have plain := plainText_of_isInk ink
    rw [plainText] at plain
    rw [normalize, plain]
  have names_closed : replace nameProducts (normalize text) = normalize text := by
    rw [unfolded, nameProducts_bracketProducts, nameProducts_nameProducts]
  have brackets_closed : replace bracketProducts (normalize text) = normalize text := by
    rw [unfolded, bracketProducts_bracketProducts]
  rw [← open_iff, again]
  generalize normalize text = normal at names_closed brackets_closed
  constructor
  · intro same
    have first := inserted_numberProducts normal
    have second := inserted_numberProducts (replace numberProducts normal)
    have third := (starred_nameProducts (replace numberProducts (replace numberProducts normal))).inserted
    have fourth := (starred_bracketProducts (replace nameProducts
      (replace numberProducts (replace numberProducts normal)))).inserted
    refine first.eq_of_length_le ?_
    have length := congrArg List.length same
    exact second.length_le.trans (third.length_le.trans (fourth.length_le.trans length.le))
  · intro same
    rw [same, same, names_closed, brackets_closed]

/-- A normal form is its own normal form exactly if a third run of the rule for numbers would change
nothing after the two that are made: the rules for names and brackets open no new place for a product.
So it is for every formula in which the name `pi` does not stand between two numbers. -/
theorem normalize_normalize (text : List Char) :
    (normalize (normalize text) = normalize text ↔
      replace numberProducts (numbersMultiplied text) = numbersMultiplied text) ∧
    (¬ PiBetweenNumbers (plainText text) → normalize (normalize text) = normalize text) := by
  refine ⟨normalize_normalize_iff, fun apart => normalize_normalize_iff.mpr ?_⟩
  exact numberProducts_eq_self_iff.mpr (settled_of_nearly (nearly_numberProducts apart))

/-- A chain of numbers and names without `pi` is in its normal form at once. -/
theorem normalize_normalize_chain :
    ¬ PiBetweenNumbers (plainText "2 x3e4x.5(x+1)x^2".toList) ∧
      normalize (normalize "2 x3e4x.5(x+1)x^2".toList) = normalize "2 x3e4x.5(x+1)x^2".toList := by
  have apart : ¬ PiBetweenNumbers (plainText "2 x3e4x.5(x+1)x^2".toList) := by
    rintro ⟨before, after, -, -, between⟩
    have mem : 'p' ∈ plainText "2 x3e4x.5(x+1)x^2".toList :=
      between.subset (List.mem_cons_of_mem _ (List.mem_cons_self ..))
    revert mem
    decide +kernel
  exact ⟨apart, (normalize_normalize _).2 apart⟩

/-- With `pi` between two numbers a chain may need a third run to be separated. -/
theorem normalize_normalize_ne :
    normalize "2pi3x4".toList = "2*pi*3*x4".toList ∧
      normalize (normalize "2pi3x4".toList) = "2*pi*3*x*4".toList ∧
      normalize (normalize "2pi3x4".toList) ≠ normalize "2pi3x4".toList := by
  decide +kernel

end Normal

end Stepwise.Formula
