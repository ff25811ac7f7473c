import Stepwise.Proofs.Formula.Numeral
import Mathlib

/-!
# How tokens are written

A formula writes some tokens if it consists of their spellings in order, with gaps anywhere between them,
and no spelling could take more of what follows it. Splitting a formula into tokens finds the tokens that
it writes.
-/

namespace Stepwise.Formula

/-- How a token can be spelled. -/
inductive Token.Spelling : Token → List Char → Prop where
  | plus : Spelling .plus ['+']
  | minus : Spelling .minus ['-']
  | star : Spelling .star ['*']
  | slash : Spelling .slash ['/']
  | power : Spelling .power ['*', '*']
  | caret : Spelling .power ['^']
  | opening : Spelling .opening ['(']
  | closing : Spelling .closing [')']
  | number {word value} : Decimal.readUnsigned? word = some value → value.isFinite = true →
    Spelling (.number value) word
  | name {c word} : startsName c = true → (∀ d ∈ word, continuesName d = true) →
    Spelling (.name (String.ofList (c :: word))) (c :: word)

/-- Does a spelling end where a text begins? A longer token would be read otherwise. -/
def Token.Apart (word text : List Char) : Token → Prop
  | number _ => numberAtFront (word ++ text) = word
  | name _ => ∀ c ∈ text.head?, continuesName c = false
  | star => ∀ c ∈ text.head?, c ≠ '*'
  | _ => True

/-- A text that writes some tokens. -/
inductive Writes : List Char → List Token → Prop where
  | nil : Writes [] []
  | gap {c text tokens} : isGap c = true → Writes text tokens → Writes (c :: text) tokens
  | token {token word text tokens} : token.Spelling word → token.Apart word text →
    Writes text tokens → Writes (word ++ text) (token :: tokens)

/-- The gaps are the blanks of a keyboard. -/
lemma isGap_iff {c : Char} : isGap c = true ↔ c ∈ [' ', '\t', '\n', '\r'] := by
  simp only [isGap, Bool.or_eq_true, decide_eq_true_eq, List.mem_cons, List.not_mem_nil, or_false,
    or_assoc]

/-- A gap between tokens is blank. -/
lemma isBlank_of_isGap {c : Char} (gap : isGap c = true) : Text.isBlank c = true := by
  have blanks : [' ', '\t', '\n', '\r'].all Text.isBlank = true := rfl
  exact List.all_eq_true.mp blanks c (isGap_iff.mp gap)

/-- A character for which something holds that does not hold for gaps is no gap. -/
lemma not_isGap {p : Char → Bool} {c : Char} (h : p c = true)
    (gaps : [' ', '\t', '\n', '\r'].all (fun d => !p d) = true) : isGap c = false := by
  rw [← Bool.not_eq_true, isGap_iff]
  intro mem
  have other := (Bool.not_eq_true' _).mp (List.all_eq_true.mp gaps c mem)
  exact Bool.false_ne_true (other.symm.trans h)

/-- A character that begins a name begins no number. -/
lemma not_startsNumber {c : Char} (starts : startsName c = true) : startsNumber c = false := by
  rw [← Bool.not_eq_true]
  intro number
  simp only [startsNumber, Bool.or_eq_true, decide_eq_true_eq] at number
  rcases number with digit | rfl
  · simp only [startsName, Char.isAlpha, Char.isUpper, Char.isLower, Char.isDigit, Bool.or_eq_true,
      Bool.and_eq_true, decide_eq_true_eq, ge_iff_le, UInt32.le_iff_toNat_le] at starts digit
    rcases starts with (upper | lower) | rfl
    · exact absurd (Nat.le_trans upper.1 digit.2) (by decide)
    · exact absurd (Nat.le_trans lower.1 digit.2) (by decide)
    · exact absurd digit.2 (by decide)
  · exact absurd starts (by decide)

/-- A character that begins a number begins no name. -/
lemma not_startsName {c : Char} (starts : startsNumber c = true) : startsName c = false := by
  rw [← Bool.not_eq_true]
  exact fun name => Bool.false_ne_true ((not_startsNumber name).symm.trans starts)

/-- A character that begins a name continues one. -/
lemma continuesName_of_startsName {c : Char} (starts : startsName c = true) :
    continuesName c = true := by
  simp only [startsName, continuesName, Char.isAlphanum, Bool.or_eq_true] at starts ⊢
  exact starts.imp_left Or.inl

/-- The codes of the characters of names lie between those of `0` and `z`. -/
lemma toNat_of_continuesName {c : Char} (h : continuesName c = true) :
    48 ≤ c.toNat ∧ c.toNat ≤ 122 := by
  simp only [continuesName, Char.isAlphanum, Char.isAlpha, Char.isUpper, Char.isLower, Char.isDigit,
    Bool.or_eq_true, Bool.and_eq_true, decide_eq_true_eq, ge_iff_le, UInt32.le_iff_toNat_le] at h
  change ((65 ≤ c.toNat ∧ c.toNat ≤ 90 ∨ 97 ≤ c.toNat ∧ c.toNat ≤ 122) ∨
    48 ≤ c.toNat ∧ c.toNat ≤ 57) ∨ c = '_' at h
  rcases h with h | rfl
  · omega
  · decide

/-- What begins like a number is read as a number. -/
lemma frontToken_number {c : Char} (starts : startsNumber c = true) (rest : List Char) :
    frontToken c rest = (Token.ofNumber (numberAtFront (c :: rest))).map
      fun token => ((numberAtFront (c :: rest)).length, some token) := by
  have gap : ¬ isGap c = true := Bool.eq_false_iff.mp (not_isGap starts rfl)
  unfold frontToken
  split
  case h_8 => rw [if_neg gap, if_pos starts]
  all_goals exact absurd starts (by decide)

/-- Where a name begins, the whole run of its characters is the first token. -/
lemma frontToken_name {c : Char} (starts : startsName c = true) (rest : List Char) :
    frontToken c rest =
      .ok (((c :: rest).takeWhile continuesName).length,
        some (.name (String.ofList ((c :: rest).takeWhile continuesName)))) := by
  have gap : ¬ isGap c = true := Bool.eq_false_iff.mp (not_isGap starts rfl)
  have number : ¬ startsNumber c = true := Bool.eq_false_iff.mp (not_startsNumber starts)
  unfold frontToken
  split
  case h_8 => rw [if_neg gap, if_neg number, if_pos starts]
  all_goals exact absurd starts (by decide)

/-- The token of a number is the number that is read. -/
lemma ofNumber_eq_ok_iff {word : List Char} {token : Token} :
    Token.ofNumber word = .ok token ↔
      ∃ value, Decimal.readUnsigned? word = some value ∧ value.isFinite = true ∧
        token = .number value := by
  unfold Token.ofNumber
  cases Decimal.readUnsigned? word with
  | none => exact ⟨nofun, nofun⟩
  | some value =>
    simp only [Option.some.injEq, exists_eq_left']
    split
    case isTrue finite => simp [finite, eq_comm]
    case isFalse infinite => simp [infinite]

namespace Token.Spelling

variable {token : Token} {word text : List Char}

/-- A spelling is not empty. -/
lemma ne_nil (h : token.Spelling word) : word ≠ [] := by
  cases h with
  | number read _ => rintro rfl; cases read
  | _ => exact List.cons_ne_nil _ _

/-- A token is found at the front where its spelling is apart from what follows. -/
lemma frontToken {c : Char} (h : token.Spelling (c :: word)) (apart : token.Apart (c :: word) text) :
    frontToken c (word ++ text) = .ok ((c :: word).length, some token) := by
  cases h with
  | plus => rfl
  | minus => rfl
  | star =>
    have ne : ¬ text.head? = some '*' := fun e => apart '*' e rfl
    exact if_neg ne
  | slash => rfl
  | power => rfl
  | caret => rfl
  | opening => rfl
  | closing => rfl
  | @number _ value read finite =>
    obtain ⟨amount, read', -⟩ := Option.map_eq_some_iff.mp read
    have word' : numberAtFront (c :: (word ++ text)) = c :: word := apart
    rw [frontToken_number ((Numeral.of_read? read').startsNumber c rfl), word',
      ofNumber_eq_ok_iff.mpr ⟨value, read, finite, rfl⟩]
    rfl
  | name starts continues =>
    have inside : ∀ d ∈ c :: word, continuesName d = true :=
      List.forall_mem_cons.mpr ⟨continuesName_of_startsName starts, continues⟩
    have word' : (c :: (word ++ text)).takeWhile continuesName = c :: word :=
      takeWhile_word inside apart
    rw [frontToken_name starts, word']

/-- A token at the front is spelled there. -/
lemma of_frontToken {c : Char} {rest : List Char} {length : Nat}
    (h : Formula.frontToken c rest = .ok (length, some token)) :
    ∃ word text, c :: rest = word ++ text ∧ word.length = length ∧
      token.Spelling word ∧ token.Apart word text := by
  by_cases number : startsNumber c = true
  case pos =>
    rw [frontToken_number number] at h
    cases e : Token.ofNumber (numberAtFront (c :: rest)) with
    | error fault => rw [e] at h; cases h
    | ok token' =>
      rw [e] at h
      cases h
      obtain ⟨value, read, finite, rfl⟩ := ofNumber_eq_ok_iff.mp e
      refine ⟨_, (c :: rest).drop (numberAtFront (c :: rest)).length, ?_, rfl, .number read finite, ?_⟩
      · exact (Numeral.numberAtFront_append_drop _).symm
      · exact congrArg numberAtFront (Numeral.numberAtFront_append_drop _)
  case neg =>
    by_cases name : startsName c = true
    case pos =>
      rw [frontToken_name name] at h
      cases h
      have e : (c :: rest).takeWhile continuesName = c :: rest.takeWhile continuesName :=
        List.takeWhile_cons_of_pos (continuesName_of_startsName name)
      refine ⟨_, (c :: rest).dropWhile continuesName, List.takeWhile_append_dropWhile.symm, rfl, ?_, ?_⟩
      · rw [e]
        exact .name name fun d mem => List.mem_takeWhile_imp mem
      · -- The name is as long as possible, so what follows does not go on with it.
        have ends := List.head?_dropWhile_not continuesName (c :: rest)
        intro d mem
        rw [Option.mem_def.mp mem] at ends
        exact ends
    case neg =>
      unfold Formula.frontToken at h
      split at h
      case h_1 => cases h; exact ⟨['+'], rest, rfl, rfl, .plus, trivial⟩
      case h_2 => cases h; exact ⟨['-'], rest, rfl, rfl, .minus, trivial⟩
      case h_3 => cases h; exact ⟨['/'], rest, rfl, rfl, .slash, trivial⟩
      case h_4 => cases h; exact ⟨['^'], rest, rfl, rfl, .caret, trivial⟩
      case h_5 => cases h; exact ⟨['('], rest, rfl, rfl, .opening, trivial⟩
      case h_6 => cases h; exact ⟨[')'], rest, rfl, rfl, .closing, trivial⟩
      case h_7 =>
        split at h
        case isTrue e =>
          cases h
          obtain ⟨text, rfl⟩ := List.head?_eq_some_iff.mp e
          exact ⟨['*', '*'], text, rfl, rfl, .power, trivial⟩
        case isFalse ne =>
          cases h
          refine ⟨['*'], rest, rfl, rfl, .star, fun d mem => ?_⟩
          rintro rfl
          exact ne mem
      case h_8 =>
        rw [if_neg number, if_neg name] at h
        split at h <;> cases h

end Token.Spelling

/-- The only thing at the front that is passed without a token is a single gap. -/
lemma isGap_of_frontToken {c : Char} {rest : List Char} {length : Nat}
    (h : frontToken c rest = .ok (length, none)) : length = 1 ∧ isGap c = true := by
  by_cases number : startsNumber c = true
  case pos =>
    rw [frontToken_number number] at h
    cases e : Token.ofNumber (numberAtFront (c :: rest)) with
    | error fault => rw [e] at h; cases h
    | ok token => rw [e] at h; cases h
  case neg =>
    by_cases name : startsName c = true
    case pos => rw [frontToken_name name] at h; cases h
    case neg =>
      unfold frontToken at h
      split at h
      case h_7 => split at h <;> cases h
      case h_8 =>
        rw [if_neg number, if_neg name] at h
        split at h
        case isTrue gap => cases h; exact ⟨rfl, gap⟩
        case isFalse => cases h
      all_goals cases h

/-- A gap is passed without a token. -/
lemma frontToken_gap {c : Char} (gap : isGap c = true) (rest : List Char) :
    frontToken c rest = .ok (1, none) := by
  rw [isGap_iff] at gap
  simp only [List.mem_cons, List.not_mem_nil, or_false] at gap
  rcases gap with rfl | rfl | rfl | rfl <;> rfl

/-- Having a word to skip means to go on behind it. -/
lemma lexAfter_append (position : Nat) (word text : List Char) :
    lexAfter position word.length (word ++ text) = lexAfter (position + word.length) 0 text := by
  induction word generalizing position with
  | nil => rfl
  | cons c word ih =>
    rw [List.length_cons, List.cons_append, lexAfter, ih]
    congr 1
    omega

/-- The lexer passes over a gap. -/
lemma lexAfter_gap {c : Char} (gap : isGap c = true) (position : Nat) (rest : List Char) :
    lexAfter position 0 (c :: rest) = lexAfter (position + 1) 0 rest := by
  rw [lexAfter, frontToken_gap gap]
  dsimp only
  cases lexAfter (position + 1) 0 rest <;> rfl

/-- The lexer goes on behind a token. -/
lemma Token.Spelling.lexAfter {token : Token} {word text : List Char} (spelling : token.Spelling word)
    (apart : token.Apart word text) (position : Nat) :
    lexAfter position 0 (word ++ text) =
      (lexAfter (position + word.length) 0 text).map (⟨position, token⟩ :: ·) := by
  obtain ⟨c, word, rfl⟩ := List.exists_cons_of_ne_nil spelling.ne_nil
  have skipped := lexAfter_append (position + 1) word text
  rw [Nat.add_assoc, Nat.add_comm 1] at skipped
  rw [List.cons_append, Formula.lexAfter, spelling.frontToken apart]
  dsimp only
  rw [List.length_cons, Nat.add_sub_cancel, skipped]
  cases Formula.lexAfter (position + (word.length + 1)) 0 text <;> rfl

/-- The tokens that a text writes from a position on, each with the position of its spelling. -/
inductive Placed : Nat → List Char → List Lexeme → Prop where
  | nil {position} : Placed position [] []
  | gap {position c text lexemes} : isGap c = true → Placed (position + 1) text lexemes →
    Placed position (c :: text) lexemes
  | token {position token word text lexemes} : token.Spelling word → token.Apart word text →
    Placed (position + word.length) text lexemes →
    Placed position (word ++ text) (⟨position, token⟩ :: lexemes)

/-- Tokens with their positions are written by the text. -/
lemma Placed.writes {position : Nat} {text : List Char} {lexemes : List Lexeme}
    (h : Placed position text lexemes) : Writes text (lexemes.map Lexeme.token) := by
  induction h with
  | nil => exact .nil
  | gap gap _ ih => exact .gap gap ih
  | token spelling apart _ ih => exact .token spelling apart ih

/-- No token starts before the position from which on the text is split. -/
lemma Placed.le_start {position : Nat} {text : List Char} {lexemes : List Lexeme}
    (h : Placed position text lexemes) : ∀ lexeme ∈ lexemes, position ≤ lexeme.start := by
  induction h with
  | nil => exact nofun
  | gap _ _ ih => exact fun lexeme mem => Nat.le_of_succ_le (ih lexeme mem)
  | token _ _ _ ih =>
    exact List.forall_mem_cons.mpr
      ⟨Nat.le_refl _, fun lexeme mem => (Nat.le_add_right _ _).trans (ih lexeme mem)⟩

/-- The tokens of a text come in the order of their positions. -/
lemma Placed.sorted {position : ℕ} {text : List Char} {lexemes : List Lexeme}
    (h : Placed position text lexemes) : lexemes.Pairwise fun first second => first.start < second.start := by
  induction h with
  | nil => exact .nil
  | gap _ _ ih => exact ih
  | @token position token word text _ spelling _ placed ih =>
    have pos := List.length_pos_of_ne_nil spelling.ne_nil
    refine .cons (fun lexeme mem => ?_) ih
    exact Nat.lt_of_lt_of_le (Nat.lt_add_of_pos_right pos) (placed.le_start lexeme mem)

/-- A text that is split from a position on is written by the tokens that are found. -/
lemma placed_of_lexAfter {position skip : Nat} {text : List Char} {lexemes : List Lexeme}
    (h : lexAfter position skip text = .ok lexemes) :
    Placed (position + skip) (text.drop skip) lexemes := by
  -- The lexer goes through a token by characters to be skipped, so the induction is on the text.
  induction text generalizing position skip lexemes with
  | nil =>
    cases skip <;> cases h <;> exact .nil
  | cons c rest ih =>
    cases skip with
    | succ skip =>
      rw [Nat.add_comm skip, ← Nat.add_assoc, Nat.add_comm 1]
      exact ih h
    | zero =>
      rw [lexAfter] at h
      split at h
      case h_1 => cases h
      case h_2 length token? front =>
        split at h
        case h_1 => cases h
        case h_2 later e =>
          have placed := ih e
          split at h
          case h_1 =>
            cases h
            obtain ⟨rfl, gap⟩ := isGap_of_frontToken front
            exact .gap gap placed
          case h_2 token =>
            cases h
            obtain ⟨word, text, e', rfl, spelling, apart⟩ := Token.Spelling.of_frontToken front
            obtain ⟨d, word, rfl⟩ := List.exists_cons_of_ne_nil spelling.ne_nil
            obtain ⟨rfl, rfl⟩ := List.cons.inj (List.cons_append ▸ e')
            rw [List.length_cons, Nat.add_sub_cancel, List.drop_left, Nat.add_assoc, Nat.add_comm 1,
              ← List.length_cons] at placed
            exact .token spelling apart placed

/-- A text that writes some tokens is split into them. -/
lemma Writes.lexAfter {text : List Char} {tokens : List Token} (h : Writes text tokens)
    (position : Nat) :
    ∃ lexemes, lexAfter position 0 text = .ok lexemes ∧ lexemes.map Lexeme.token = tokens := by
  induction h generalizing position with
  | nil => exact ⟨[], rfl, rfl⟩
  | gap gap _ ih =>
    rw [lexAfter_gap gap]
    exact ih (position + 1)
  | @token token word text tokens spelling apart _ ih =>
    obtain ⟨lexemes, e, e'⟩ := ih (position + word.length)
    refine ⟨⟨position, token⟩ :: lexemes, ?_, congrArg (token :: ·) e'⟩
    rw [spelling.lexAfter apart, e]
    rfl

/-- Splitting a formula into tokens finds the tokens that it writes. -/
theorem lex_eq_ok_iff {text : List Char} {tokens : List Token} :
    (∃ lexemes, lex text = .ok lexemes ∧ lexemes.map Lexeme.token = tokens) ↔ Writes text tokens := by
  constructor
  · rintro ⟨lexemes, e, rfl⟩
    exact (placed_of_lexAfter e).writes
  · intro writes
    exact writes.lexAfter 0

end Stepwise.Formula
