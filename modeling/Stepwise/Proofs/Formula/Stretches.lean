import Stepwise.Proofs.Formula.Spelling
import Mathlib

/-!
# What tokens stand for

A token stands for a word in front of a rest, which is as long as a word of its kind can be there: nothing
of the rest could belong to it. So a text determines the token at its front and its word. Where a text
begins with no token and no gap, it is stuck at its first character or at its first number.
-/

namespace Stepwise.Formula

/-- At the front of a text there is an exponent with a digit. -/
def Exponential (text : List Char) : Prop :=
  ∃ e sign d rest, text = e :: (sign ++ d :: rest) ∧ e ∈ ['e', 'E'] ∧ sign ∈ [[], ['+'], ['-']] ∧
    d.isDigit = true

/-- What is cut out as a number in front of a rest: all digits and points, and behind them an exponent with
all of its digits, but only if it has any. -/
inductive NumberRun : List Char → List Char → Prop where
  | plain {run rest} : run ≠ [] → (∀ c ∈ run, startsNumber c = true) →
    (∀ c ∈ rest.head?, startsNumber c = false) → ¬ Exponential rest → NumberRun run rest
  | exponential {run e sign digits rest} : run ≠ [] → (∀ c ∈ run, startsNumber c = true) →
    e ∈ ['e', 'E'] → sign ∈ [[], ['+'], ['-']] → Digits digits →
    (∀ c ∈ rest.head?, c.isDigit = false) → NumberRun (run ++ e :: (sign ++ digits)) rest

section Numbers

variable {word rest text : List Char}

/-- The sign at the front of a text, if it has one. -/
lemma exists_sign (text : List Char) : ∃ sign rest, text = sign ++ rest ∧ sign ∈ [[], ['+'], ['-']] ∧
    (text.take 1).filter (fun c => c = '+' ∨ c = '-') = sign := by
  cases text with
  | nil => exact ⟨[], [], rfl, by decide, rfl⟩
  | cons c text =>
    by_cases sign : c = '+' ∨ c = '-'
    · refine ⟨[c], text, rfl, ?_, List.filter_cons_of_pos (decide_eq_true sign)⟩
      rcases sign with rfl | rfl <;> decide
    · refine ⟨[], c :: text, rfl, by decide, List.filter_cons_of_neg ?_⟩
      rw [decide_eq_true_iff]
      exact sign

/-- Where no exponent is, none is found. -/
lemma exponentAtFront_eq_nil (none : ¬ Exponential text) : Text.exponentAtFront Char.isDigit text = [] := by
  unfold Text.exponentAtFront
  split
  case h_1 => rfl
  case h_2 e rest =>
    split
    case isFalse => rfl
    case isTrue letter =>
      obtain ⟨sign, behind, rfl, signs, taken⟩ := exists_sign rest
      dsimp only
      rw [taken, List.drop_left]
      split
      case isTrue => rfl
      case isFalse some =>
        cases behind with
        | nil => exact absurd rfl some
        | cons d behind =>
          by_cases digit : d.isDigit = true
          · exact absurd ⟨e, sign, d, behind, rfl, List.mem_pair.mpr letter, signs, digit⟩ none
          · rw [List.takeWhile_cons_of_neg digit] at some
            exact absurd rfl some

namespace NumberRun

/-- The run of a number begins with a character that begins numbers. -/
lemma starts (h : NumberRun word rest) : ∃ c later, word = c :: later ∧ startsNumber c = true := by
  cases h with
  | plain ne inside =>
    obtain ⟨c, later, rfl⟩ := List.exists_cons_of_ne_nil ne
    exact ⟨c, later, rfl, inside c (List.mem_cons_self ..)⟩
  | exponential ne inside =>
    obtain ⟨c, later, rfl⟩ := List.exists_cons_of_ne_nil ne
    exact ⟨c, _, rfl, inside c (List.mem_cons_self ..)⟩

/-- The lexer takes the whole run, and nothing behind it. -/
lemma numberAtFront (h : NumberRun word rest) : numberAtFront (word ++ rest) = word := by
  unfold Formula.numberAtFront
  cases h with
  | plain _ inside outside none =>
    rw [takeWhile_word inside outside]
    dsimp only
    rw [List.drop_left, exponentAtFront_eq_nil none, List.append_nil]
  | @exponential run e sign digits _ _ inside letter signs ds outside =>
    have outside' : ∀ c ∈ (e :: (sign ++ digits) ++ rest).head?, startsNumber c = false := by
      intro c mem
      cases mem
      rcases List.mem_pair.mp letter with rfl | rfl <;> rfl
    have behind : ([] ++ rest).takeWhile Char.isDigit = [] := takeWhile_word nofun outside
    rw [List.nil_append] at behind
    rw [List.append_assoc, takeWhile_word inside outside']
    dsimp only
    rw [List.drop_left, Exponent.exponentAtFront_append letter signs ds (fun _ => id), behind,
      List.append_nil]

/-- Where a digit or a point stands, there is a run. -/
lemma exists_of_starts {c : Char} (starts : startsNumber c = true) (text : List Char) :
    ∃ word rest, c :: text = word ++ rest ∧ NumberRun word rest := by
  have inside (d : Char) (mem : d ∈ (c :: text).takeWhile startsNumber) : startsNumber d = true :=
    List.mem_takeWhile_imp mem
  have outside : ∀ d ∈ ((c :: text).dropWhile startsNumber).head?, startsNumber d = false := by
    intro d mem
    have ends := List.head?_dropWhile_not startsNumber (c :: text)
    rw [Option.mem_def.mp mem] at ends
    exact ends
  have ne : (c :: text).takeWhile startsNumber ≠ [] := by
    rw [List.takeWhile_cons_of_pos starts]
    exact List.cons_ne_nil _ _
  have split := List.takeWhile_append_dropWhile (p := startsNumber) (l := c :: text)
  generalize (c :: text).takeWhile startsNumber = run at inside ne split
  generalize (c :: text).dropWhile startsNumber = behind at outside split
  rw [← split]
  by_cases exponent : Exponential behind
  case neg => exact ⟨run, behind, rfl, .plain ne inside outside exponent⟩
  case pos =>
    obtain ⟨e, sign, d, later, rfl, letter, signs, digit⟩ := exponent
    have digits : Digits (d :: later.takeWhile Char.isDigit) :=
      ⟨List.cons_ne_nil _ _, List.forall_mem_cons.mpr ⟨digit, isDigit_of_mem_takeWhile⟩⟩
    refine ⟨run ++ e :: (sign ++ d :: later.takeWhile Char.isDigit), later.dropWhile Char.isDigit, ?_,
      .exponential ne inside letter signs digits fun c mem => ?_⟩
    · simp only [List.append_assoc, List.cons_append, List.takeWhile_append_dropWhile]
    · have ends := List.head?_dropWhile_not Char.isDigit later
      rw [Option.mem_def.mp mem] at ends
      exact ends

end NumberRun

/-- A run of a number is read as one token. -/
lemma frontToken_run {c : Char} (run : NumberRun word rest) (e : c :: text = word ++ rest) :
    frontToken c text = (Token.ofNumber word).map fun token => (word.length, some token) := by
  obtain ⟨d, later, rfl, starts⟩ := run.starts
  obtain ⟨rfl, tails⟩ := List.cons.inj e
  rw [frontToken_number starts, e, run.numberAtFront]

end Numbers

/-- A word is as long as it can be in front of a rest. The other operators have no longer ones to be
confused with. -/
def Token.Longest (word rest : List Char) : Token → Prop
  | number _ => NumberRun word rest
  | name _ => ∀ c ∈ rest.head?, continuesName c = false
  | star => rest.head? ≠ some '*'
  | _ => True

/-- A token stands for a word in front of a rest. -/
structure Token.Stretch (token : Token) (word rest : List Char) : Prop where
  spelling : token.Spelling word
  longest : token.Longest word rest

section Tokens

variable {token token' : Token} {word word' rest rest' text : List Char}

/-- The lexer takes all of a word that is as long as it can be. -/
lemma Token.Stretch.apart (h : token.Stretch word rest) : token.Apart word rest := by
  cases token with
  | number value => exact NumberRun.numberAtFront h.longest
  | name text => exact h.longest
  | star =>
    rintro c mem rfl
    exact h.longest mem
  | _ => trivial

/-- What the lexer takes is as long as it can be. -/
lemma Token.Spelling.stretch (spelling : token.Spelling word) (apart : token.Apart word rest) :
    token.Stretch word rest := by
  refine ⟨spelling, ?_⟩
  cases token with
  | name text => exact apart
  | star => exact fun mem => apart '*' mem rfl
  | number value =>
    have whole : numberAtFront (word ++ rest) = word := apart
    cases spelling with
    | number read =>
      obtain ⟨amount, read', -⟩ := Option.map_eq_some_iff.mp read
      have numeral := Numeral.of_read? read'
      obtain ⟨c, later, rfl⟩ := List.exists_cons_of_ne_nil numeral.ne_nil
      obtain ⟨run, behind, e, isRun⟩ := NumberRun.exists_of_starts (numeral.startsNumber c rfl) (later ++ rest)
      rw [List.cons_append, e, isRun.numberAtFront] at whole
      subst whole
      have e : c :: later ++ rest = c :: later ++ behind := e
      obtain rfl := List.append_cancel_left e
      exact isRun
  | _ => trivial

/-- The text determines the token at its front and the word that it stands for. -/
lemma Token.Stretch.unique (h : token.Stretch word rest) (h' : token'.Stretch word' rest')
    (same : word ++ rest = word' ++ rest') : token' = token ∧ word' = word := by
  obtain ⟨c, later, rfl⟩ := List.exists_cons_of_ne_nil h.spelling.ne_nil
  obtain ⟨d, later', rfl⟩ := List.exists_cons_of_ne_nil h'.spelling.ne_nil
  obtain ⟨rfl, tails⟩ := List.cons.inj same
  have front := h.spelling.frontToken h.apart
  have tails : later ++ rest = later' ++ rest' := tails
  rw [tails, h'.spelling.frontToken h'.apart] at front
  obtain ⟨lengths, tokens⟩ := Prod.mk.inj (Except.ok.inj front)
  exact ⟨Option.some.inj tokens, (List.append_inj same lengths.symm).1.symm⟩

/-- No gap belongs to a token. -/
lemma Token.Spelling.not_isGap (h : token.Spelling word) : ∀ c ∈ word, isGap c = false := by
  have others : ∀ c ∈ word, (!isGap c) = true := by
    cases h with
    | number read =>
      obtain ⟨amount, read', -⟩ := Option.map_eq_some_iff.mp read
      refine (Numeral.of_read? read').forall_mem (fun c digit => ?_) rfl
      have starts : startsNumber c = true := Bool.or_eq_true_iff.mpr (.inl digit)
      rw [Formula.not_isGap starts rfl]
      rfl
    | name starts continues =>
      refine List.forall_mem_cons.mpr ⟨?_, fun c mem => ?_⟩
      · rw [Formula.not_isGap starts rfl]
        rfl
      · rw [Formula.not_isGap (continues c mem) rfl]
        rfl
    | _ => exact List.all_eq_true.mp rfl
  exact fun c mem => (Bool.not_eq_true' _).mp (others c mem)

/-- The lexer goes on by at least one character, and not beyond the text. -/
lemma length_of_frontToken {c : Char} {length : ℕ} {token? : Option Token}
    (h : frontToken c rest = .ok (length, token?)) : 0 < length ∧ length ≤ (c :: rest).length := by
  cases token? with
  | none =>
    obtain ⟨rfl, -⟩ := isGap_of_frontToken h
    exact ⟨Nat.one_pos, Nat.succ_le_succ (Nat.zero_le _)⟩
  | some token =>
    obtain ⟨word, text, e, rfl, spelling, -⟩ := Token.Spelling.of_frontToken h
    rw [e, List.length_append]
    exact ⟨List.length_pos_of_ne_nil spelling.ne_nil, Nat.le_add_right _ _⟩

end Tokens

/-- Can a token begin with this character? -/
def startsToken (c : Char) : Bool :=
  startsNumber c || startsName c || c ∈ ['+', '-', '*', '/', '^', '(', ')']

/-- A text that begins with no gap and no token. Either its first character begins no token, or what would
be its first number is not the text of a number, or it is read as a number that is no finite double. -/
inductive Stuck : List Char → LexFault → Prop where
  | unexpected {c rest} : isGap c = false → startsToken c = false → Stuck (c :: rest) (.unexpectedChar c)
  | malformed {word rest} : NumberRun word rest → ¬ Numeral word →
    Stuck (word ++ rest) (.malformedNumber (String.ofList word))
  | outOfRange {word rest value} : NumberRun word rest → Decimal.readUnsigned? word = some value →
    value.isFinite = false → Stuck (word ++ rest) (.numberOutOfRange (String.ofList word))

section Faults

variable {word rest text : List Char} {fault : LexFault}

/-- Nothing is stuck at the end of a text. -/
lemma Stuck.ne_nil (h : Stuck text fault) : text ≠ [] := by
  have some {word rest : List Char} (run : NumberRun word rest) : word ++ rest ≠ [] := by
    obtain ⟨c, later, rfl, -⟩ := run.starts
    exact List.cons_ne_nil _ _
  cases h with
  | unexpected => exact List.cons_ne_nil _ _
  | malformed run => exact some run
  | outOfRange run => exact some run

/-- A character begins no token if it begins no number and no name and is none of the operators. -/
lemma startsToken_eq_false_iff {c : Char} : startsToken c = false ↔
    startsNumber c = false ∧ startsName c = false ∧ c ∉ ['+', '-', '*', '/', '^', '(', ')'] := by
  rw [startsToken, Bool.or_eq_false_iff, Bool.or_eq_false_iff, decide_eq_false_iff_not, and_assoc]

/-- A number is refused if it is not the text of a number, or if it is none of a finite double. -/
lemma ofNumber_eq_error_iff : Token.ofNumber word = .error fault ↔
    ¬ Numeral word ∧ fault = .malformedNumber (String.ofList word) ∨
      ∃ value, Decimal.readUnsigned? word = some value ∧ value.isFinite = false ∧
        fault = .numberOutOfRange (String.ofList word) := by
  unfold Token.ofNumber
  cases read : Decimal.readUnsigned? word with
  | none =>
    have malformed : ¬ Numeral word := by
      intro numeral
      obtain ⟨amount, e⟩ := Option.isSome_iff_exists.mp numeral.isSome_read?
      rw [Decimal.readUnsigned?, e] at read
      cases read
    dsimp only
    constructor
    · rintro ⟨⟩
      exact .inl ⟨malformed, rfl⟩
    · rintro (⟨-, rfl⟩ | ⟨_, ⟨⟩, -⟩)
      rfl
  | some value =>
    obtain ⟨amount, e, -⟩ := Option.map_eq_some_iff.mp read
    have numeral := Numeral.of_read? e
    dsimp only
    constructor
    · intro h
      split at h
      case isTrue => cases h
      case isFalse infinite =>
        cases h
        exact .inr ⟨value, rfl, eq_false_of_ne_true infinite, rfl⟩
    · rintro (⟨malformed, -⟩ | ⟨_, ⟨⟩, infinite, rfl⟩)
      · exact absurd numeral malformed
      · rw [if_neg (Bool.eq_false_iff.mp infinite)]

/-- The lexer is stuck where no gap and no token begins. -/
lemma frontToken_eq_error_iff {c : Char} : frontToken c rest = .error fault ↔ Stuck (c :: rest) fault := by
  constructor
  · intro h
    -- On the first character, in the order in which the lexer tries what begins with it.
    by_cases number : startsNumber c = true
    case pos =>
      obtain ⟨word, behind, split, run⟩ := NumberRun.exists_of_starts number rest
      rw [frontToken_number number, split, run.numberAtFront] at h
      rw [split]
      cases e : Token.ofNumber word with
      | ok token => rw [e] at h; cases h
      | error fault =>
        rw [e] at h
        cases h
        rcases ofNumber_eq_error_iff.mp e with ⟨malformed, rfl⟩ | ⟨value, read, infinite, rfl⟩
        · exact .malformed run malformed
        · exact .outOfRange run read infinite
    case neg =>
      by_cases name : startsName c = true
      case pos => rw [frontToken_name name] at h; cases h
      case neg =>
        unfold frontToken at h
        split at h
        case h_7 => split at h <;> cases h
        case h_8 plus minus slash caret opening closing star =>
          rw [if_neg number, if_neg name] at h
          split at h
          case isTrue => cases h
          case isFalse gap =>
            cases h
            refine .unexpected (eq_false_of_ne_true gap) (startsToken_eq_false_iff.mpr
              ⟨eq_false_of_ne_true number, eq_false_of_ne_true name, ?_⟩)
            simp only [List.mem_cons, List.not_mem_nil, or_false, not_or]
            exact ⟨plus, minus, star, slash, caret, opening, closing⟩
        all_goals cases h
  · intro stuck
    generalize e : c :: rest = text at stuck
    cases stuck with
    | unexpected gap starts =>
      cases e
      obtain ⟨number, name, operator⟩ := startsToken_eq_false_iff.mp starts
      unfold frontToken
      split
      case h_8 =>
        rw [if_neg (Bool.eq_false_iff.mp gap), if_neg (Bool.eq_false_iff.mp number),
          if_neg (Bool.eq_false_iff.mp name)]
      all_goals exact absurd (by decide) operator
    | malformed run malformed =>
      rw [frontToken_run run e, ofNumber_eq_error_iff.mpr (.inl ⟨malformed, rfl⟩)]
      rfl
    | outOfRange run read infinite =>
      rw [frontToken_run run e, ofNumber_eq_error_iff.mpr (.inr ⟨_, read, infinite, rfl⟩)]
      rfl

end Faults

end Stepwise.Formula
