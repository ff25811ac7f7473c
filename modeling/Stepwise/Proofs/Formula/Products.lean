import Stepwise.Proofs.Formula.Spelling

/-!
# Rules for products and words

What the rules that write missing multiplication signs leave as it is: a number or the name of a value
before something that ends every word, a function name before its bracket, and single operators and
brackets.
-/

namespace Stepwise.Formula

open Text (Piece replace)

section Replacing

variable {rule : List Char → Piece}

/-- What is written for a piece stands in front of what becomes of the text behind it. -/
lemma replace_piece {word written : List Char} (ne : word ≠ []) (text : List Char)
    (piece : rule (word ++ text) = { length := word.length, written }) :
    replace rule (word ++ text) = written ++ replace rule text := by
  have skipped (word : List Char) :
      Text.replaceAfter rule word.length (word ++ text) = replace rule text := by
    induction word with
    | nil => rfl
    | cons c word ih => exact ih
  obtain ⟨c, word, rfl⟩ := List.exists_cons_of_ne_nil ne
  rw [replace, List.cons_append, Text.replaceAfter, ← List.cons_append, piece]
  exact congrArg (written ++ ·) (skipped word)

/-- A piece that is kept is passed over. -/
lemma replace_append {word : List Char} (ne : word ≠ []) (text : List Char)
    (kept : rule (word ++ text) = { length := word.length, written := word }) :
    replace rule (word ++ text) = word ++ replace rule text :=
  replace_piece ne text kept

/-- Characters that are kept one by one are passed over. -/
lemma replace_append_of_each {word : List Char} (text : List Char)
    (kept : ∀ c ∈ word, ∀ rest, rule (c :: rest) = { length := 1, written := [c] }) :
    replace rule (word ++ text) = word ++ replace rule text := by
  induction word with
  | nil => rfl
  | cons c word ih =>
    have first : replace rule ([c] ++ (word ++ text)) = [c] ++ replace rule (word ++ text) :=
      replace_append (List.cons_ne_nil _ _) _ (kept c (List.mem_cons_self ..) _)
    rw [ih fun d mem => kept d (List.mem_cons_of_mem _ mem)] at first
    exact first

/-- Keeping as much as a word keeps the word. -/
lemma keep_length (word text : List Char) :
    Piece.keep word.length (word ++ text) = { length := word.length, written := word } := by
  rw [Piece.keep, List.take_left]

end Replacing

/-- The characters that stand for a token alone and begin no number and no name. -/
def marks : List Char :=
  ['(', ')', '+', '-', '*', '/']

/-- A rule that changes nothing where operands and operators take turns. -/
structure Spares (rule : List Char → Piece) : Prop where
  number : ∀ {word text}, Numeral word → Breaks text →
    replace rule (word ++ text) = word ++ replace rule text
  value : ∀ {word text}, word ≠ [] → (∀ c ∈ word, isNameLetter c = true) → Breaks text →
    replace rule (word ++ text) = word ++ replace rule text
  call : ∀ (f : Function) text,
    replace rule (f.name.toList ++ '(' :: text) = f.name.toList ++ '(' :: replace rule text
  mark : ∀ {c text}, c ∈ marks → (c = ')' → Breaks text) →
    replace rule (c :: text) = c :: replace rule text

/-- What becomes of some letters, the number behind them, and the character behind that. -/
lemma numberProducts_append {word : List Char} (number text : List Char)
    (letters : ∀ c ∈ word, isNameLetter c = true)
    (outside : ∀ c ∈ (number ++ text).head?, isNameLetter c = false)
    (literal : literalAtFront (number ++ text) = number) :
    numberProducts (word ++ (number ++ text)) =
      if number.isEmpty then Piece.keep (max 1 word.length) (word ++ (number ++ text))
      else
        let next := (text.take 1).filter fun c => isNameLetter c || c = '('
        let length := word.length + number.length + next.length
        if !word.isEmpty && !namesValue word then Piece.keep length (word ++ (number ++ text))
        else
          { length
            written := (if word.isEmpty then [] else word ++ ['*']) ++ number ++
              (if next.isEmpty then [] else '*' :: next) } := by
  unfold numberProducts
  simp only [takeWhile_word letters outside, List.drop_left, literal]

/-- Letters that no number follows are kept by the rule for numbers. -/
lemma numberProducts_of_not_number {word text : List Char}
    (letters : ∀ c ∈ word, isNameLetter c = true)
    (outside : ∀ c ∈ text.head?, isNameLetter c = false)
    (digit : ∀ c ∈ text.head?, Text.isDecimalDigit c = false)
    (point : ∀ c ∈ text.head?, (c == '.') = false) :
    numberProducts (word ++ text) = Piece.keep (max 1 word.length) (word ++ text) := by
  have e := numberProducts_append [] text letters outside
    (Numeral.literalAtFront_eq_nil digit point)
  rw [List.isEmpty_nil, if_pos rfl] at e
  exact e

/-- A mark is kept by the rule for numbers. -/
lemma numberProducts_mark {c : Char} (mark : c ∈ marks) (text : List Char) :
    numberProducts (c :: text) = { length := 1, written := [c] } := by
  have outside {p : Char → Bool} (ends : marks.all (fun c => !p c) = true) :
      ∀ d ∈ (c :: text).head?, p d = false := fun d mem => by
    cases mem
    exact (Bool.not_eq_true' _).mp (List.all_eq_true.mp ends c mark)
  exact numberProducts_of_not_number (List.forall_mem_nil _) (outside rfl) (outside rfl) (outside rfl)

/-- The rule for numbers passes over a mark. -/
lemma replace_mark {c : Char} (mark : c ∈ marks) (text : List Char) :
    replace numberProducts (c :: text) = c :: replace numberProducts text :=
  replace_append (List.cons_ne_nil c []) text (numberProducts_mark mark text)

/-- The rule for numbers changes nothing where operands and operators take turns. -/
lemma spares_numberProducts : Spares numberProducts where
  number {word text} numeral breaks := by
    have ne := numeral.ne_nil
    have outside : ∀ c ∈ (word ++ text).head?, isNameLetter c = false := fun c mem => by
      rw [List.head?_append_of_ne_nil _ ne] at mem
      exact not_startsName (numeral.startsNumber c mem)
    have next : (text.take 1).filter (fun c => isNameLetter c || decide (c = '(')) = [] := by
      rw [List.take_one, List.filter_eq_nil_iff]
      intro c mem
      rw [Bool.not_eq_true]
      exact breaks.not_head (p := fun c => isNameLetter c || decide (c = '(')) rfl c
        (Option.mem_toList.mp mem)
    refine replace_append ne text ?_
    have e := numberProducts_append word text (List.forall_mem_nil _) outside
      (numeral.literalAtFront breaks)
    rw [List.nil_append, if_neg (by simpa using ne)] at e
    rw [e, next]
    simp
  value ne letters breaks := by
    refine replace_append ne _ ?_
    rw [numberProducts_of_not_number letters (breaks.not_head rfl)
      (breaks.not_head rfl) (breaks.not_head rfl),
      Nat.max_eq_right (List.length_pos_of_ne_nil ne), keep_length]
  call f text := by
    have bracket := replace_mark (c := '(') (by decide) text
    by_cases digits : f = .log10
    case pos =>
      subst digits
      -- The bracket belongs to the piece, which the letters keep from being a number.
      have letters : ∀ c ∈ ['l', 'o', 'g'], isNameLetter c = true := List.all_eq_true.mp rfl
      have e := numberProducts_append ['1', '0'] ('(' :: text) letters
        (fun c mem => by cases mem; rfl) rfl
      exact replace_append (List.cons_ne_nil 'l' ['o', 'g', '1', '0', '(']) text e
    case neg =>
      have letters : f.name.toList.all isNameLetter = true := by
        cases f <;> first | rfl | exact absurd rfl digits
      have letters := List.all_eq_true.mp letters
      have outside {p : Char → Bool} (ends : p '(' = false) : ∀ c ∈ ('(' :: text).head?, p c = false :=
        fun c mem => by cases mem; exact ends
      have ne : f.name.toList ≠ [] := by cases f <;> decide
      rw [← bracket]
      refine replace_append ne _ ?_
      rw [numberProducts_of_not_number letters (outside rfl) (outside rfl) (outside rfl),
        Nat.max_eq_right (List.length_pos_of_ne_nil ne), keep_length]
  mark mark _ := replace_mark mark _

/-- A name is kept where no bracket follows it. -/
lemma nameProducts_append {word : List Char} (text : List Char) (ne : word ≠ [])
    (starts : ∀ c ∈ word.head?, isNameLetter c = true) (continues : ∀ c ∈ word, isNameChar c = true)
    (outside : ∀ c ∈ text.head?, isNameChar c = false) (bracket : ∀ c ∈ text.head?, (c == '(') = false) :
    nameProducts (word ++ text) = { length := word.length, written := word } := by
  have name := takeWhile_word continues outside
  obtain ⟨c, word, rfl⟩ := List.exists_cons_of_ne_nil ne
  unfold nameProducts
  rw [List.cons_append]
  dsimp only
  rw [if_pos (starts c rfl), ← List.cons_append, name, List.drop_left]
  split
  case h_1 => exact absurd (bracket '(' rfl) (by decide)
  case h_2 => exact keep_length _ _

/-- A character that is no letter is kept by the rule for names. -/
lemma nameProducts_cons {c : Char} (other : isNameLetter c = false) (text : List Char) :
    nameProducts (c :: text) = { length := 1, written := [c] } := by
  unfold nameProducts
  dsimp only
  rw [if_neg (Bool.eq_false_iff.mp other)]
  rfl

/-- A character is kept by the rule for brackets, a closing bracket only if nothing goes on behind it. -/
lemma bracketProducts_cons {c : Char} {text : List Char}
    (kept : c = ')' → Breaks text) :
    bracketProducts (c :: text) = { length := 1, written := [c] } := by
  unfold bracketProducts
  split
  case h_1 next rest e =>
    obtain ⟨rfl, rfl⟩ := List.cons.inj e
    have ends := (kept rfl).not_head
      (p := fun c => isNameChar c || decide (c = '.') || decide (c = '(')) rfl next rfl
    rw [if_neg (Bool.eq_false_iff.mp ends)]
    rfl
  case h_2 => rfl

/-- The letter of an exponent is a name of its own if a sign follows, else the digits are part of it. -/
lemma replace_nameProducts_exponent {exponent text : List Char} (h : Exponent exponent)
    (breaks : Breaks text) :
    replace nameProducts (exponent ++ text) = exponent ++ replace nameProducts text := by
  cases h with
  | none => rfl
  | @some e sign digits letter signs ds =>
    have letters : isNameLetter e = true := by
      rcases List.mem_pair.mp letter with rfl | rfl <;> rfl
    have name (c : Char) (mem : c ∈ digits) : isNameChar c = true :=
      Bool.or_eq_true_iff.mpr (.inr (ds.isDigit c mem))
    have first (word : List Char) : ∀ c ∈ (e :: word).head?, isNameLetter c = true := fun c mem => by
      cases mem
      exact letters
    have letter' : ∀ c ∈ [e], isNameChar c = true :=
      List.forall_mem_singleton.mpr (Bool.or_eq_true_iff.mpr (.inl letters))
    have kept (c : Char) (mem : c ∈ digits) (rest : List Char) :
        nameProducts (c :: rest) = { length := 1, written := [c] } :=
      nameProducts_cons (not_startsName (Bool.or_eq_true_iff.mpr (.inl (ds.isDigit c mem)))) rest
    -- A sign cuts the exponent into a name of one letter, the sign, and digits, which begin no name.
    have signed (c : Char) (other : isNameChar c = false) (bracket : (c == '(') = false) :
        replace nameProducts (e :: c :: (digits ++ text)) =
          e :: c :: (digits ++ replace nameProducts text) :=
      calc
        _ = e :: replace nameProducts (c :: (digits ++ text)) :=
          replace_append (List.cons_ne_nil e []) _
            (nameProducts_append _ (List.cons_ne_nil e []) (first []) letter'
              (fun d mem => by cases mem; exact other) fun d mem => by cases mem; exact bracket)
        _ = e :: c :: replace nameProducts (digits ++ text) :=
          congrArg (e :: ·) (replace_append (List.cons_ne_nil c []) _
            (nameProducts_cons (Bool.or_eq_false_iff.mp other).1 _))
        _ = _ := congrArg (e :: c :: ·) (replace_append_of_each text kept)
    simp only [List.mem_cons, List.not_mem_nil, or_false] at signs
    rcases signs with rfl | rfl | rfl
    · refine replace_append (List.cons_ne_nil e digits) text
        (nameProducts_append text (List.cons_ne_nil e digits) (first digits) ?_ (breaks.not_head rfl)
          (breaks.not_head rfl))
      exact List.forall_mem_cons.mpr ⟨Bool.or_eq_true_iff.mpr (.inl letters), name⟩
    · exact signed '+' rfl rfl
    · exact signed '-' rfl rfl

/-- The rule for names changes nothing where operands and operators take turns. -/
lemma spares_nameProducts : Spares nameProducts where
  number {word text} numeral breaks := by
    obtain ⟨m, e⟩ := numeral
    rename_i mantissa exponent
    have kept (c : Char) (mem : c ∈ mantissa) (rest : List Char) :
        nameProducts (c :: rest) = { length := 1, written := [c] } :=
      nameProducts_cons (not_startsName (m.startsNumber c mem)) rest
    rw [List.append_assoc, replace_append_of_each _ kept, replace_nameProducts_exponent e breaks,
      List.append_assoc]
  value ne letters breaks := by
    refine replace_append ne _
      (nameProducts_append _ ne ?_ ?_ (breaks.not_head rfl) (breaks.not_head rfl))
    · exact fun c mem => letters c (List.mem_of_mem_head? mem)
    · exact fun c mem => Bool.or_eq_true_iff.mpr (.inl (letters c mem))
  call f text := by cases f <;> rfl
  mark {c text} mark _ := by
    have others : marks.all (fun c => !isNameLetter c) = true := rfl
    have other := (Bool.not_eq_true' _).mp (List.all_eq_true.mp others c mark)
    exact replace_append (List.cons_ne_nil c []) text (nameProducts_cons other text)

/-- The rule for brackets changes nothing where operands and operators take turns. -/
lemma spares_bracketProducts : Spares bracketProducts where
  number {word text} numeral breaks := by
    have other := numeral.forall_mem (p := (· != ')'))
      (fun c digit => bne_iff_ne.mpr (ne_of_isDigit digit rfl)) rfl
    exact replace_append_of_each text fun c mem rest =>
      bracketProducts_cons fun e => absurd e (bne_iff_ne.mp (other c mem))
  value ne letters breaks := by
    refine replace_append_of_each _ fun c mem rest => bracketProducts_cons ?_
    rintro rfl
    exact absurd (letters ')' mem) (by decide)
  call f text := by cases f <;> rfl
  mark {c text} _ kept := replace_append (List.cons_ne_nil c []) text (bracketProducts_cons kept)

end Stepwise.Formula
