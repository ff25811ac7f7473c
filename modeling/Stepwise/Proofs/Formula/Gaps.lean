import Stepwise.Proofs.Formula.Explicit
import Stepwise.Proofs.Formula.Passes
import Stepwise.Proofs.Formula.Scanning

/-!
# Formulas with stars missing

A formula is set beside the same formula with some stars missing between factors. Each rule for products
puts back the stars of one kind of place. The rule for numbers takes a letter along with the number before
it, so its first run puts the stars behind numbers back and its second run those in front of numbers. The
rule for names puts them back before opening brackets and the rule for brackets behind closing ones.
-/

namespace Stepwise.Formula

open Text (replace)

/-- The kinds of places at which a star can be missing. -/
structure Gaps where
  behindNumber : Bool
  beforeNumber : Bool
  beforeBracket : Bool
  behindBracket : Bool

/-- The places that are left once the rule for numbers has run. No star is missing behind a number any more.
One is missing in front of a number only if one was missing in front of the name there as well: the number
before that name has taken its first letter along. -/
def Gaps.numbered (gaps : Gaps) : Gaps :=
  { gaps with behindNumber := false, beforeNumber := gaps.behindNumber }

/-- What an operand begins with. A chained name is the name `pi` with a number right behind it. -/
inductive Start where
  | number
  | name (chained : Bool)
  | opening
  | sign

/-- What comes next in a formula. -/
inductive Spot where
  | operand (start : Start)
  | operator

/-- A formula and the same formula with stars missing. -/
inductive Abridged (gaps : Gaps) : Spot → List Char → List Char → Prop where
  | done : Abridged gaps .operator [] []
  | number {word full short} : Numeral word → Abridged gaps .operator full short →
    Abridged gaps (.operand .number) (word ++ full) (word ++ short)
  | numberTimes {word start full short} : gaps.behindNumber = true → Numeral word →
    literalAtFront (word ++ short) = word → start = .name false ∨ start = .opening →
    Abridged gaps (.operand start) full short →
    Abridged gaps (.operand .number) (word ++ '*' :: full) (word ++ short)
  | value {symbol : Symbol} {chained full short} : (∀ f, symbol ≠ .function f) →
    Abridged gaps .operator full short →
    Abridged gaps (.operand (.name chained)) (symbol.name.toList ++ full) (symbol.name.toList ++ short)
  | timesNumber {symbol : Symbol} {chained full short} : gaps.beforeNumber = true →
    (∀ f, symbol ≠ .function f) → (chained = false → symbol ≠ .constant .pi) →
    Abridged gaps (.operand .number) full short →
    Abridged gaps (.operand (.name chained)) (symbol.name.toList ++ '*' :: full)
      (symbol.name.toList ++ short)
  | timesBracket {symbol : Symbol} {full short} : gaps.beforeBracket = true →
    (∀ f, symbol ≠ .function f) → Abridged gaps (.operand .opening) full short →
    Abridged gaps (.operand (.name false)) (symbol.name.toList ++ '*' :: full) (symbol.name.toList ++ short)
  | call {f : Function} {start full short} : Abridged gaps (.operand start) full short →
    Abridged gaps (.operand (.name false)) (f.name.toList ++ '(' :: full) (f.name.toList ++ '(' :: short)
  | opening {start full short} : Abridged gaps (.operand start) full short →
    Abridged gaps (.operand .opening) ('(' :: full) ('(' :: short)
  | signed {word start full short} : word ⊆ ['+', '-', '*', '/'] →
    Abridged gaps (.operand start) full short →
    Abridged gaps (.operand .sign) (word ++ full) (word ++ short)
  | closing {full short} : Abridged gaps .operator full short →
    Abridged gaps .operator (')' :: full) (')' :: short)
  | bracketTimes {start full short} : gaps.behindBracket = true → start ≠ .sign →
    Abridged gaps (.operand start) full short → Abridged gaps .operator (')' :: '*' :: full) (')' :: short)
  | between {word start full short} : word ≠ [] → word ⊆ ['+', '-', '*', '/'] →
    Abridged gaps (.operand start) full short → Abridged gaps .operator (word ++ full) (word ++ short)

namespace Abridged

variable {gaps : Gaps} {spot : Spot} {start : Start} {full short : List Char}

/-- A star that is not missing. -/
lemma star (h : Abridged gaps (.operand start) full short) :
    Abridged gaps .operator ('*' :: full) ('*' :: short) :=
  between (List.cons_ne_nil '*' []) (by decide) h

/-- An abridged text from an operator on does not lengthen the token in front of it. -/
lemma breaks (h : Abridged gaps .operator full short) : Breaks short := by
  cases h with
  | done => exact .nil
  | closing => exact .cons (by decide)
  | bracketTimes => exact .cons (by decide)
  | @between word _ _ _ ne inside =>
    obtain ⟨c, word, rfl⟩ := List.exists_cons_of_ne_nil ne
    have ends : ['+', '-', '*', '/'] ⊆ wordEnds := by decide
    exact .cons (ends (inside (List.mem_cons_self ..)))

/-- An abridged operand that begins with a number still begins with a literal. -/
lemma exists_literal (h : Abridged gaps (.operand .number) full short) :
    ∃ number text, short = number ++ text ∧ number ≠ [] ∧ literalAtFront (number ++ text) = number := by
  cases h with
  | number numeral next => exact ⟨_, _, rfl, numeral.ne_nil, numeral.literalAtFront next.breaks⟩
  | numberTimes _ numeral literal => exact ⟨_, _, rfl, numeral.ne_nil, literal⟩

/-- An abridged operand that begins with a bracket still begins with it. -/
lemma exists_bracket (h : Abridged gaps (.operand .opening) full short) : ∃ text, short = '(' :: text := by
  cases h with
  | opening => exact ⟨_, rfl⟩

/-- An operand without a sign begins like a value. -/
lemma opensValue (h : Abridged gaps (.operand start) full short) (unsigned : start ≠ .sign) :
    short.head?.any opensValue = true := by
  have number {word : List Char} (numeral : Numeral word) (text : List Char) :
      (word ++ text).head?.any Formula.opensValue = true := by
    obtain ⟨c, word, rfl⟩ := List.exists_cons_of_ne_nil numeral.ne_nil
    have starts := numeral.startsNumber c rfl
    rw [startsNumber, Bool.or_eq_true] at starts
    rw [List.cons_append, List.head?_cons, Option.any_some, Formula.opensValue, isNameChar]
    rcases starts with digit | point
    · rw [digit, Bool.or_true, Bool.true_or, Bool.true_or]
    · rw [point, Bool.or_true, Bool.true_or]
  have value {symbol : Symbol} (notFunction : ∀ f, symbol ≠ .function f) (text : List Char) :
      (symbol.name.toList ++ text).head?.any Formula.opensValue = true := by
    rcases symbol with - | c | f
    · rfl
    · cases c <;> rfl
    · exact absurd rfl (notFunction f)
  cases h with
  | number numeral => exact number numeral _
  | numberTimes _ numeral => exact number numeral _
  | value notFunction => exact value notFunction _
  | timesNumber _ notFunction => exact value notFunction _
  | timesBracket _ notFunction => exact value notFunction _
  | @call f => cases f <;> rfl
  | opening => rfl
  | signed => exact absurd rfl unsigned

end Abridged

/-- The name of a value is multiplied with the number behind it. -/
lemma replace_value_number {name number text : List Char} (value : namesValue name = true)
    (letters : ∀ c ∈ name, isNameLetter c = true) (ne : number ≠ [])
    (literal : literalAtFront (number ++ text) = number) :
    replace numberProducts (name ++ (number ++ text)) =
      name ++ '*' :: replace numberProducts (number ++ text) := by
  have some : name ≠ [] := by
    rintro rfl
    cases value
  obtain ⟨next, rest, rfl, followed⟩ := Followed.exists_followed text
  rw [replace_number letters ne literal followed, replace_alone ne literal followed, multiplied,
    if_neg some, if_pos value, List.append_assoc]
  rfl

/-- A number is multiplied with the letter or the bracket behind it. -/
lemma replace_number_next {number tail : List Char} {c : Char} (ne : number ≠ [])
    (literal : literalAtFront (number ++ c :: tail) = number) (followed : Followed [c] tail) :
    replace numberProducts (number ++ c :: tail) = number ++ '*' :: c :: replace numberProducts tail := by
  have e : replace numberProducts (number ++ c :: tail) = _ := replace_alone ne literal followed
  rw [e, numberTimes, if_neg (List.cons_ne_nil c []), List.append_assoc]
  rfl

/-- The names of constants and of the variable are names of values to the rules. -/
lemma namesValue_name {symbol : Symbol} (notFunction : ∀ f, symbol ≠ .function f) :
    namesValue symbol.name.toList = true := by
  rw [namesValue, String.ofList_toList, Symbol.ofName?_name]
  rcases symbol with - | c | f
  · rfl
  · rfl
  · exact absurd rfl (notFunction f)

/-- The names of constants and of the variable are no names of functions to the rules. -/
lemma namesFunction_name {symbol : Symbol} (notFunction : ∀ f, symbol ≠ .function f) :
    namesFunction symbol.name.toList = false := by
  rw [namesFunction, String.ofList_toList]
  rcases symbol with - | c | f
  · rfl
  · cases c <;> rfl
  · exact absurd rfl (notFunction f)

/-- The names of values other than `pi` are single letters. -/
lemma Symbol.value_letter {symbol : Symbol} (notFunction : ∀ f, symbol ≠ .function f)
    (ne : symbol ≠ .constant .pi) : ∃ c, symbol.name.toList = [c] ∧ isNameLetter c = true := by
  rcases symbol with - | c | f
  · exact ⟨'x', rfl, rfl⟩
  · cases c with
    | pi => exact absurd rfl ne
    | e => exact ⟨'e', rfl, rfl⟩
  · exact absurd rfl (notFunction f)

/-- A function name of which the first letter has been taken stays as it is. -/
lemma replace_callTail (f : Function) (text : List Char) :
    ∃ c tail, f.name.toList = c :: tail ∧ isNameLetter c = true ∧
      replace numberProducts (tail ++ '(' :: text) = tail ++ '(' :: replace numberProducts text := by
  have bracket := replace_mark (c := '(') (by decide) text
  by_cases digits : f = .log10
  case pos =>
    subst digits
    -- The bracket belongs to the piece, which the letters keep from being a number.
    have letters : ∀ c ∈ ['o', 'g'], isNameLetter c = true := List.all_eq_true.mp rfl
    have kept : multiplied ['o', 'g'] ['1', '0'] ['('] = ['o', 'g', '1', '0', '('] := by decide
    have e := @replace_number ['o', 'g'] ['1', '0'] ['('] text letters (List.cons_ne_nil _ _) rfl .opening
    rw [kept] at e
    exact ⟨'l', ['o', 'g', '1', '0'], rfl, rfl, e⟩
  case neg =>
    have letters : f.name.toList.all isNameLetter = true := by
      cases f <;> first | rfl | exact absurd rfl digits
    obtain ⟨c, tail, e⟩ := List.exists_cons_of_ne_nil (l := f.name.toList) (by cases f <;> decide)
    have letters := List.forall_mem_cons.mp (e ▸ List.all_eq_true.mp letters)
    refine ⟨c, tail, e, letters.1, ?_⟩
    rw [replace_letters letters.2 (fun d mem => by cases mem; rfl) rfl, bracket]

/-- What the rule for numbers makes of a text with stars missing, and what it makes of it when the first
character has been taken along with a number. -/
structure Numbered (gaps : Gaps) (spot : Spot) (full short : List Char) : Prop where
  whole : Abridged gaps.numbered spot full (replace numberProducts short)
  taken : gaps.behindNumber = true → spot = .operand (.name false) ∨ spot = .operand .opening →
    ∃ c tail, short = c :: tail ∧ Followed [c] tail ∧
      Abridged gaps.numbered spot full (c :: replace numberProducts tail)

namespace Numbered

variable {gaps : Gaps} {spot : Spot} {start : Start} {symbol : Symbol} {full short : List Char}

/-- A text of which no first character is taken along with a number. -/
lemma of_whole (other : spot ≠ .operand (.name false)) (other' : spot ≠ .operand .opening)
    (whole : Abridged gaps.numbered spot full (replace numberProducts short)) :
    Numbered gaps spot full short :=
  ⟨whole, fun _ first => absurd first (not_or.mpr ⟨other, other'⟩)⟩

/-- A name of a value stays as it is where neither letters nor a number follow. -/
lemma of_value (notFunction : ∀ f, symbol ≠ .function f)
    (outside : ∀ c ∈ short.head?, isNameLetter c = false) (none : literalAtFront short = [])
    (whole : Abridged gaps.numbered spot full (symbol.name.toList ++ replace numberProducts short)) :
    Numbered gaps spot full (symbol.name.toList ++ short) := by
  obtain ⟨ne, letters⟩ := Symbol.value_letters symbol notFunction
  have letters := List.all_eq_true.mp letters
  refine ⟨replace_word ne letters outside none ▸ whole, fun _ _ => ?_⟩
  obtain ⟨c, tail, e⟩ := List.exists_cons_of_ne_nil ne
  have letters := List.forall_mem_cons.mp (e ▸ letters)
  rw [e] at whole ⊢
  refine ⟨c, tail ++ short, rfl, .letter letters.1, ?_⟩
  rw [replace_letters letters.2 outside none]
  exact whole

/-- A name with its star missing in front of a number gets the star back. -/
lemma timesNumber {chained : Bool} (notFunction : ∀ f, symbol ≠ .function f)
    (unchained : chained = false → symbol ≠ .constant .pi)
    (next : Abridged gaps (.operand .number) full short)
    (ih : Numbered gaps (.operand .number) full short) :
    Numbered gaps (.operand (.name chained)) (symbol.name.toList ++ '*' :: full)
      (symbol.name.toList ++ short) := by
  obtain ⟨number, text, rfl, ne, literal⟩ := next.exists_literal
  have letters := List.all_eq_true.mp (Symbol.value_letters symbol notFunction).2
  refine ⟨?_, fun behind first => ?_⟩
  · rw [replace_value_number (namesValue_name notFunction) letters ne literal]
    exact .value notFunction ih.whole.star
  · -- The first letter of the name is all of it, so the number behind it stands alone.
    have first : chained = false := by simpa using first
    obtain ⟨c, e, letter⟩ := Symbol.value_letter notFunction (unchained first)
    have whole : Abridged gaps.numbered _ _ _ := .timesNumber behind notFunction unchained ih.whole
    rw [e] at whole ⊢
    exact ⟨c, _, rfl, .letter letter, whole⟩

end Numbered

/-- The name of a value is multiplied with the bracket behind it. -/
lemma replace_value_bracket {symbol : Symbol} (notFunction : ∀ f, symbol ≠ .function f) (text : List Char) :
    replace nameProducts (symbol.name.toList ++ '(' :: text) =
      symbol.name.toList ++ '*' :: replace nameProducts ('(' :: text) := by
  obtain ⟨ne, letters⟩ := Symbol.value_letters symbol notFunction
  have letters := List.all_eq_true.mp letters
  have named : Named symbol.name.toList :=
    ⟨ne, fun c mem => letters c (List.mem_of_mem_head? mem),
      fun c mem => Bool.or_eq_true_iff.mpr (.inl (letters c mem))⟩
  rw [replace_call named, called, namesFunction_name notFunction, if_neg Bool.false_ne_true,
    replace_notLetter rfl, List.append_assoc]
  rfl

section Rules

variable {gaps : Gaps} {spot : Spot} {full short : List Char}

/-- The rule for numbers puts the stars back behind all numbers and in front of those that belong to no
piece with the number before them. -/
lemma Abridged.numbered (h : Abridged gaps spot full short) : Numbered gaps spot full short := by
  induction h with
  | done => exact .of_whole nofun nofun .done
  | number numeral next ih =>
    refine .of_whole nofun nofun ?_
    rw [spares_numberProducts.number numeral next.breaks]
    exact .number numeral ih.whole
  | numberTimes behind numeral literal start _ ih =>
    -- The number takes the first character along, and the star is written between the two.
    obtain ⟨c, tail, rfl, followed, taken⟩ := ih.taken behind (by simpa using start)
    refine .of_whole nofun nofun ?_
    rw [replace_number_next numeral.ne_nil literal followed]
    exact .number numeral taken.star
  | value notFunction next ih =>
    have none := Numeral.literalAtFront_eq_nil (next.breaks.not_head rfl) (next.breaks.not_head rfl)
    exact .of_value notFunction (next.breaks.not_head rfl) none (.value notFunction ih.whole)
  | timesNumber _ notFunction unchained next ih => exact .timesNumber notFunction unchained next ih
  | timesBracket before notFunction next ih =>
    obtain ⟨text, rfl⟩ := next.exists_bracket
    exact .of_value notFunction (fun c mem => by cases mem; rfl) rfl
      (.timesBracket before notFunction ih.whole)
  | @call f _ _ short _ ih =>
    -- The name may lose its first letter to a number. What is left of it names no value, so it is kept.
    refine ⟨spares_numberProducts.call f short ▸ .call ih.whole, fun _ _ => ?_⟩
    obtain ⟨c, tail, e, letter, kept⟩ := replace_callTail f short
    have whole : Abridged _ _ _ _ := .call (f := f) ih.whole
    rw [e] at whole ⊢
    refine ⟨c, tail ++ '(' :: short, rfl, .letter letter, ?_⟩
    rw [kept]
    exact whole
  | opening _ ih =>
    refine ⟨?_, fun _ _ => ⟨'(', _, rfl, .opening, .opening ih.whole⟩⟩
    rw [replace_mark (by decide)]
    exact .opening ih.whole
  | signed inside _ ih =>
    refine .of_whole nofun nofun ?_
    rw [spares_numberProducts.infix_append _ inside]
    exact .signed inside ih.whole
  | closing _ ih =>
    refine .of_whole nofun nofun ?_
    rw [replace_mark (by decide)]
    exact .closing ih.whole
  | bracketTimes behind ne _ ih =>
    refine .of_whole nofun nofun ?_
    rw [replace_mark (by decide)]
    exact .bracketTimes behind ne ih.whole
  | between ne inside _ ih =>
    refine .of_whole nofun nofun ?_
    rw [spares_numberProducts.infix_append _ inside]
    exact .between ne inside ih.whole

/-- With no stars missing at numbers, the rule for names puts those back that are missing before opening
brackets. -/
lemma Abridged.named (h : Abridged gaps spot full short) (behind : gaps.behindNumber = false)
    (before : gaps.beforeNumber = false) :
    Abridged { gaps with beforeBracket := false } spot full (replace nameProducts short) := by
  induction h with
  | done => exact .done
  | number numeral next ih =>
    rw [spares_nameProducts.number numeral next.breaks]
    exact .number numeral ih
  | numberTimes behind' => exact absurd (behind.symm.trans behind') (by decide)
  | value notFunction next ih =>
    obtain ⟨ne, letters⟩ := Symbol.value_letters _ notFunction
    rw [spares_nameProducts.value ne (List.all_eq_true.mp letters) next.breaks]
    exact .value notFunction ih
  | timesNumber before' => exact absurd (before.symm.trans before') (by decide)
  | timesBracket _ notFunction next ih =>
    obtain ⟨text, rfl⟩ := next.exists_bracket
    rw [replace_value_bracket notFunction]
    exact .value notFunction ih.star
  | @call f _ _ short _ ih =>
    rw [spares_nameProducts.call]
    exact .call ih
  | opening _ ih =>
    rw [replace_notLetter rfl]
    exact .opening ih
  | signed inside _ ih =>
    rw [spares_nameProducts.infix_append _ inside]
    exact .signed inside ih
  | closing _ ih =>
    rw [replace_notLetter rfl]
    exact .closing ih
  | bracketTimes behind ne _ ih =>
    rw [replace_notLetter rfl]
    exact .bracketTimes behind ne ih
  | between ne inside _ ih =>
    rw [spares_nameProducts.infix_append _ inside]
    exact .between ne inside ih

/-- With no other stars missing, the rule for brackets puts those back that are missing behind closing
brackets. -/
lemma Abridged.bracketed (h : Abridged gaps spot full short) (behind : gaps.behindNumber = false)
    (before : gaps.beforeNumber = false) (bracket : gaps.beforeBracket = false) :
    replace bracketProducts short = full := by
  induction h with
  | done => rfl
  | number numeral next ih => rw [spares_bracketProducts.number numeral next.breaks, ih]
  | numberTimes behind' => exact absurd (behind.symm.trans behind') (by decide)
  | value notFunction next ih =>
    obtain ⟨ne, letters⟩ := Symbol.value_letters _ notFunction
    rw [spares_bracketProducts.value ne (List.all_eq_true.mp letters) next.breaks, ih]
  | timesNumber before' => exact absurd (before.symm.trans before') (by decide)
  | timesBracket bracket' => exact absurd (bracket.symm.trans bracket') (by decide)
  | call _ ih => rw [spares_bracketProducts.call, ih]
  | opening _ ih => rw [replace_notClosing (by decide), ih]
  | signed inside _ ih => rw [spares_bracketProducts.infix_append _ inside, ih]
  | closing next ih => rw [spares_bracketProducts.mark (by decide) fun _ => next.breaks, ih]
  | bracketTimes _ ne next ih => rw [replace_closing, if_pos (next.opensValue ne), ih]
  | between _ inside _ ih => rw [spares_bracketProducts.infix_append _ inside, ih]

/-- The rules for products put all missing stars back. -/
lemma Abridged.restored (h : Abridged gaps spot full short) :
    replace bracketProducts (replace nameProducts
      (replace numberProducts (replace numberProducts short))) = full :=
  (h.numbered.whole.numbered.whole.named rfl rfl).bracketed rfl rfl rfl

end Rules

end Stepwise.Formula
