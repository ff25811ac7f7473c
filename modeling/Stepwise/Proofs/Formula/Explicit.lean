import Stepwise.Proofs.Formula.Compiling
import Stepwise.Proofs.Formula.Neighbours
import Stepwise.Proofs.Formula.Products
import Stepwise.Proofs.Formula.Reading

/-!
# Explicit formulas keep their tokens

A formula that is accepted as it stands has no place where a product is left out. Its normal form is the
formula without gaps and with `**` for `^`: no rule for products changes anything, so the normal form has
the same tokens and is read as the same expression.
-/

namespace Stepwise.Formula

open Text (Piece replace)

/-- How a token is written in a normal form. -/
structure Token.Plain (token : Token) (word : List Char) : Prop where
  spelling : token.Spelling word
  ne_caret : word ≠ ['^']

namespace Token.Plain

variable {word : List Char}

/-- A number is written as a numeral. -/
lemma numeral {value : Float} (h : (number value).Plain word) : Numeral word := by
  obtain ⟨spelling, -⟩ := h
  cases spelling with
  | number read finite =>
    obtain ⟨amount, read', -⟩ := Option.map_eq_some_iff.mp read
    exact .of_read? read'

/-- A name is written as it is. -/
lemma eq_toList {text : String} (h : (name text).Plain word) : word = text.toList := by
  obtain ⟨spelling, -⟩ := h
  cases spelling with
  | name => exact String.toList_ofList.symm

/-- An opening bracket is written as it is. -/
lemma eq_opening (h : opening.Plain word) : word = ['('] := by
  obtain ⟨spelling, -⟩ := h
  cases spelling
  rfl

/-- A closing bracket is written as it is. -/
lemma eq_closing (h : closing.Plain word) : word = [')'] := by
  obtain ⟨spelling, -⟩ := h
  cases spelling
  rfl

/-- A token between operands is written with operator signs only. -/
lemma mem_of_infix {token : Token} (h : token.Plain word) (mem : token ∈ infixTokens) :
    word ≠ [] ∧ word ⊆ ['+', '-', '*', '/'] := by
  obtain ⟨spelling, ne⟩ := h
  cases spelling with
  | number => exact absurd mem (by simp [infixTokens])
  | name => exact absurd mem (by simp [infixTokens])
  | caret => exact absurd rfl ne
  | opening => exact absurd mem (by decide)
  | closing => exact absurd mem (by decide)
  | _ => decide

end Token.Plain

/-- The words of some tokens. -/
abbrev Worded (tokens : List Token) (words : List (List Char)) : Prop :=
  List.Forall₂ Token.Plain tokens words

/-- The name of a constant or of the variable consists of letters. -/
lemma Symbol.value_letters : (symbol : Symbol) → (∀ f, symbol ≠ .function f) →
    symbol.name.toList ≠ [] ∧ symbol.name.toList.all isNameLetter = true
  | .variable, _ => by decide
  | .constant c, _ => by cases c <;> decide
  | .function f, h => absurd rfl (h f)

namespace Alternates

variable {tokens : List Token} {words : List (List Char)}

/-- Where an operator is next, no word goes on. -/
lemma breaks (h : Alternates .operator tokens) (worded : Worded tokens words) :
    Breaks words.flatten := by
  cases h with
  | done =>
    cases worded
    exact .nil
  | closing =>
    cases worded with
    | cons plain _ =>
      rw [plain.eq_closing]
      exact .cons (by decide)
  | between mem =>
    cases worded with
    | @cons _ word _ words plain _ =>
      obtain ⟨ne, inside⟩ := plain.mem_of_infix mem
      obtain ⟨c, word, rfl⟩ := List.exists_cons_of_ne_nil ne
      have ends : ['+', '-', '*', '/'] ⊆ wordEnds := by decide
      exact .cons (ends (inside (List.mem_cons_self ..)))

end Alternates

namespace Spares

variable {rule : List Char → Piece} {place : Place} {tokens : List Token} {words : List (List Char)}

/-- Operator signs pass through a rule that spares them. -/
lemma infix_append (spares : Spares rule) {word : List Char} (text : List Char)
    (inside : word ⊆ ['+', '-', '*', '/']) :
    replace rule (word ++ text) = word ++ replace rule text := by
  induction word with
  | nil => rfl
  | cons c word ih =>
    have mem : c ∈ ['+', '-', '*', '/'] := inside (List.mem_cons_self ..)
    have ne : c ≠ ')' := by
      rintro rfl
      exact absurd mem (by decide)
    have mark : ['+', '-', '*', '/'] ⊆ marks := by decide
    rw [List.cons_append, spares.mark (mark mem) fun e => absurd e ne,
      ih fun d mem => inside (List.mem_cons_of_mem _ mem)]
    rfl

/-- Where operands and operators take turns, a rule that spares them changes nothing. -/
lemma replace_flatten (spares : Spares rule) (h : Alternates place tokens)
    (worded : Worded tokens words) : replace rule words.flatten = words.flatten := by
  -- On the tokens: the rule passes over each word, because what stands behind it does not lengthen it.
  induction h generalizing words with
  | done =>
    cases worded
    rfl
  | number next ih =>
    cases worded with
    | cons plain worded =>
      rw [List.flatten_cons, spares.number plain.numeral (next.breaks worded), ih worded]
  | value isValue next ih =>
    cases worded with
    | cons plain worded =>
      obtain ⟨ne, letters⟩ := Symbol.value_letters _ isValue
      rw [List.flatten_cons, plain.eq_toList, spares.value ne
        (List.all_eq_true.mp letters) (next.breaks worded), ih worded]
  | call next ih =>
    cases worded with
    | cons plain worded =>
      cases worded with
      | cons plain' worded =>
        rw [plain.eq_toList, plain'.eq_opening, List.flatten_cons, List.flatten_cons,
          List.singleton_append, spares.call, ih worded]
  | opening next ih =>
    cases worded with
    | cons plain worded =>
      rw [plain.eq_opening, List.flatten_cons, List.singleton_append,
        spares.mark (by decide) fun e => absurd e (by decide), ih worded]
  | @signed sign _ next ih =>
    cases worded with
    | cons plain worded =>
      rw [List.flatten_cons, spares.infix_append _ (plain.mem_of_infix sign.mem_infixTokens).2,
        ih worded]
  | closing next ih =>
    cases worded with
    | cons plain worded =>
      rw [plain.eq_closing, List.flatten_cons, List.singleton_append,
        spares.mark (by decide) fun _ => next.breaks worded, ih worded]
  | between mem next ih =>
    cases worded with
    | cons plain worded =>
      rw [List.flatten_cons, spares.infix_append _ (plain.mem_of_infix mem).2, ih worded]

end Spares

/-- Only `*` and `**` begin with a star. -/
lemma Token.Spelling.head_ne_star {token : Token} {word : List Char} (h : token.Spelling word)
    (ne : token ≠ .star) (ne' : token ≠ .power) : ∀ c ∈ word.head?, c ≠ '*' := by
  rintro c mem rfl
  cases h with
  | star => exact ne rfl
  | power => exact ne' rfl
  | number read finite =>
    obtain ⟨amount, read', -⟩ := Option.map_eq_some_iff.mp read
    exact absurd ((Numeral.of_read? read').startsNumber '*' mem) (by decide)
  | name starts =>
    cases mem
    exact absurd starts (by decide)
  | _ => cases mem

/-- What begins an operand does not begin with a star. -/
lemma Alternates.head_ne_star {tokens : List Token} {words : List (List Char)}
    (h : Alternates .operand tokens) (worded : Worded tokens words) :
    ∀ c ∈ words.flatten.head?, c ≠ '*' := by
  have first : ∀ token ∈ tokens.head?, token ≠ .star ∧ token ≠ .power := by
    intro token mem
    cases h with
    | @signed sign => cases mem; cases sign <;> exact ⟨nofun, nofun⟩
    | _ => cases mem; exact ⟨nofun, nofun⟩
  cases worded with
  | nil => exact nofun
  | cons plain _ =>
    obtain ⟨ne, ne'⟩ := first _ rfl
    rw [List.flatten_cons, List.head?_append_of_ne_nil _ plain.spelling.ne_nil]
    exact plain.spelling.head_ne_star ne ne'

/-- Where operands and operators take turns, the words write the tokens. -/
lemma Alternates.writes {place : Place} {tokens : List Token} {words : List (List Char)}
    (h : Alternates place tokens) (worded : Worded tokens words) : Writes words.flatten tokens := by
  induction h generalizing words with
  | done =>
    cases worded
    exact .nil
  | number next ih =>
    cases worded with
    | cons plain worded =>
      exact .token plain.spelling (plain.numeral.numberAtFront (next.breaks worded)) (ih worded)
  | value isValue next ih =>
    cases worded with
    | cons plain worded =>
      exact .token plain.spelling ((next.breaks worded).not_head rfl) (ih worded)
  | call next ih =>
    cases worded with
    | cons plain worded =>
      cases worded with
      | cons plain' worded =>
        refine .token plain.spelling ?_ (.token plain'.spelling trivial (ih worded))
        rw [plain'.eq_opening]
        intro c mem
        cases mem
        rfl
  | opening next ih =>
    cases worded with
    | cons plain worded => exact .token plain.spelling trivial (ih worded)
  | @signed sign _ next ih =>
    cases worded with
    | cons plain worded => cases sign <;> exact .token plain.spelling trivial (ih worded)
  | closing next ih =>
    cases worded with
    | cons plain worded => exact .token plain.spelling trivial (ih worded)
  | @between token _ mem next ih =>
    cases worded with
    | cons plain worded =>
      refine .token plain.spelling ?_ (ih worded)
      -- A star would take a star behind it as well, but an operand is next.
      cases token with
      | star => exact next.head_ne_star worded
      | number => exact absurd mem (by simp [infixTokens])
      | name => exact absurd mem (by simp [infixTokens])
      | _ => trivial

/-- Is this a character that a normal form keeps? -/
def isInk (c : Char) : Bool :=
  !Text.isBlank c && c != '^'

/-- The characters of names are kept. -/
lemma isInk_of_continuesName {c : Char} (h : continuesName c = true) : isInk c = true := by
  obtain ⟨lower, upper⟩ := toNat_of_continuesName h
  rw [isInk, Bool.and_eq_true, Bool.not_eq_true', ← Bool.not_eq_true, bne_iff_ne]
  constructor
  · intro blank
    simp only [Text.isBlank, Bool.or_eq_true, Bool.and_eq_true, decide_eq_true_eq, beq_iff_eq] at blank
    omega
  · rintro rfl
    exact absurd h (by decide)

/-- Digits are kept. -/
lemma isInk_of_isDigit {c : Char} (h : c.isDigit = true) : isInk c = true := by
  refine isInk_of_continuesName ?_
  rw [continuesName, Char.isAlphanum, h, Bool.or_true, Bool.true_or]

/-- A kept character is not blank. -/
lemma not_isBlank_of_isInk {c : Char} (h : isInk c = true) : Text.isBlank c = false := by
  rw [isInk, Bool.and_eq_true, Bool.not_eq_true'] at h
  exact h.1

/-- Neither a blank nor a caret is part of a word. -/
lemma Token.Plain.isInk {token : Token} {word : List Char} (h : token.Plain word) :
    ∀ c ∈ word, isInk c = true := by
  cases h.spelling with
  | number => exact h.numeral.forall_mem (fun _ => isInk_of_isDigit) rfl
  | name starts continues =>
    exact List.forall_mem_cons.mpr ⟨isInk_of_continuesName (continuesName_of_startsName starts),
      fun c mem => isInk_of_continuesName (continues c mem)⟩
  | caret => exact absurd rfl h.ne_caret
  | _ => exact List.all_eq_true.mp rfl

/-- The words of an alternating sequence are not all blank. -/
lemma Alternates.exists_not_isBlank {tokens : List Token} {words : List (List Char)}
    (h : Alternates .operand tokens) (worded : Worded tokens words) :
    ∃ c ∈ words.flatten, Text.isBlank c = false := by
  cases worded with
  | nil => cases h
  | @cons _ word _ words plain _ =>
    obtain ⟨c, word, rfl⟩ := List.exists_cons_of_ne_nil plain.spelling.ne_nil
    exact ⟨c, List.mem_cons_self .., not_isBlank_of_isInk (plain.isInk c (List.mem_cons_self ..))⟩

/-- A formula without blanks and carets. -/
def plainText (text : List Char) : List Char :=
  expandCarets (removeBlanks text)

/-- Plain texts are joined as the texts are. -/
lemma plainText_append (first second : List Char) :
    plainText (first ++ second) = plainText first ++ plainText second := by
  rw [plainText, removeBlanks, List.filter_append, expandCarets, List.flatMap_append]
  rfl

/-- A kept character is plain by itself. -/
lemma plainText_singleton {c : Char} (h : isInk c = true) : plainText [c] = [c] := by
  rw [isInk, Bool.and_eq_true, bne_iff_ne] at h
  have kept : removeBlanks [c] = [c] := List.filter_cons_of_pos h.1
  rw [plainText, kept, expandCarets, List.flatMap_cons, List.flatMap_nil, if_neg h.2]
  rfl

/-- A word of kept characters is plain. -/
lemma plainText_of_isInk {word : List Char} (h : ∀ c ∈ word, isInk c = true) : plainText word = word := by
  induction word with
  | nil => rfl
  | cons c word ih =>
    have e : plainText (c :: word) = plainText [c] ++ plainText word := plainText_append [c] word
    rw [e, plainText_singleton (h c (List.mem_cons_self ..)),
      ih fun d mem => h d (List.mem_cons_of_mem _ mem)]
    rfl

/-- Every spelling becomes the word of its token: a caret becomes two stars, and the others stay. -/
lemma Token.Spelling.exists_plain {token : Token} {word : List Char} (h : token.Spelling word) :
    ∃ plain, token.Plain plain ∧ (token = .power ∨ plain = word) ∧
      ∀ text, plainText (word ++ text) = plain ++ plainText text := by
  by_cases caret : word = ['^']
  case pos =>
    subst caret
    cases h with
    | caret => exact ⟨['*', '*'], ⟨.power, by decide⟩, .inl rfl, fun text => plainText_append ['^'] text⟩
    | number read => cases read
    | name starts => exact absurd starts (by decide)
  case neg =>
    have plain : token.Plain word := ⟨h, caret⟩
    refine ⟨word, plain, .inr rfl, fun text => ?_⟩
    rw [plainText_append, plainText_of_isInk plain.isInk]

/-- A text that writes tokens has the words of these tokens, once gaps are removed and carets are
expanded. -/
lemma Writes.worded {text : List Char} {tokens : List Token} (h : Writes text tokens) :
    ∃ words, Worded tokens words ∧ plainText text = words.flatten := by
  induction h with
  | nil => exact ⟨[], .nil, rfl⟩
  | @gap c text _ gap _ ih =>
    obtain ⟨words, worded, e⟩ := ih
    refine ⟨words, worded, ?_⟩
    rw [← e]
    rw [isGap_iff] at gap
    simp only [List.mem_cons, List.not_mem_nil, or_false] at gap
    rcases gap with rfl | rfl | rfl | rfl <;> rfl
  | token spelling _ _ ih =>
    obtain ⟨words, worded, e⟩ := ih
    obtain ⟨plain, isPlain, -, e'⟩ := spelling.exists_plain
    exact ⟨plain :: words, .cons isPlain worded, by rw [e', e, List.flatten_cons]⟩

/-- A word without brackets does not change whether the brackets match. -/
lemma balancedWithin_append {word : List Char} (h : ∀ c ∈ word, c ≠ '(' ∧ c ≠ ')') (depth : Nat)
    (text : List Char) : balancedWithin depth (word ++ text) = balancedWithin depth text := by
  induction word with
  | nil => rfl
  | cons c word ih =>
    obtain ⟨ne, ne'⟩ := h c (List.mem_cons_self ..)
    rw [List.cons_append, balancedWithin.eq_def]
    simp only [if_neg ne, if_neg ne']
    exact ih fun d mem => h d (List.mem_cons_of_mem _ mem)

/-- Making a character plain leaves it alone, drops it or turns it into stars. -/
lemma mem_plainText_singleton {c d : Char} (h : d ∈ plainText [c]) : d = c ∨ d = '*' := by
  obtain ⟨c', mem, mem'⟩ := List.mem_flatMap.mp h
  obtain rfl := List.mem_singleton.mp (List.mem_filter.mp mem).1
  split at mem'
  case isTrue => exact .inr (by simpa using mem')
  case isFalse => exact .inl (List.mem_singleton.mp mem')

/-- Removing blanks and expanding carets leaves the brackets as they are. -/
lemma balancedWithin_plainText (depth : Nat) (text : List Char) :
    balancedWithin depth (plainText text) = balancedWithin depth text := by
  induction text generalizing depth with
  | nil => rfl
  | cons c text ih =>
    have e : plainText (c :: text) = plainText [c] ++ plainText text := plainText_append [c] text
    rw [e]
    by_cases opening : c = '('
    case pos =>
      subst opening
      exact ih (depth + 1)
    case neg =>
      by_cases closing : c = ')'
      case pos =>
        subst closing
        cases depth with
        | zero => rfl
        | succ depth => exact ih depth
      case neg =>
        have others : ∀ d ∈ plainText [c], d ≠ '(' ∧ d ≠ ')' := by
          intro d mem
          rcases mem_plainText_singleton mem with rfl | rfl
          · exact ⟨opening, closing⟩
          · decide
        rw [balancedWithin_append others, ih]
        exact (balancedWithin_append (List.forall_mem_singleton.mpr ⟨opening, closing⟩) depth text).symm

/-- If operands and operators take turns in a formula, its normal form is the formula without blanks and
carets. -/
lemma normalize_eq {place : Place} {tokens : List Token} {words : List (List Char)}
    {text : List Char} (h : Alternates place tokens) (worded : Worded tokens words)
    (plain : plainText text = words.flatten) : normalize text = words.flatten := by
  rw [plainText] at plain
  simp only [normalize, plain, spares_numberProducts.replace_flatten h worded,
    spares_nameProducts.replace_flatten h worded, spares_bracketProducts.replace_flatten h worded]

/-- In a formula that is read as an expression operands and operators take turns. -/
lemma alternates_of_parseChars {text : List Char} {expr : Expr} {lexemes : List Lexeme}
    (h : parseChars text = .ok expr) (found : lex text = .ok lexemes) :
    Alternates .operand (lexemes.map Lexeme.token) := by
  obtain ⟨-, -, _, e, read⟩ := parseChars_eq_ok_iff.mp h
  obtain ⟨phrase, spelled, -⟩ := parseTokens_eq_ok_iff.mp read
  cases found.symm.trans e
  have turns := phrase.alternates .done
  rwa [List.append_nil, spelled] at turns

/-- The normal form of an explicit formula has the same tokens and is read as the same expression. -/
lemma parseChars_normalize {text : List Char} {expr : Expr} (h : parseChars text = .ok expr) :
    parseChars (normalize text) = .ok expr ∧ normalize text = plainText text ∧
      ∃ lexemes lexemes', lex text = .ok lexemes ∧ lex (normalize text) = .ok lexemes' ∧
        lexemes'.map Lexeme.token = lexemes.map Lexeme.token := by
  obtain ⟨-, balanced, lexemes, e, read⟩ := parseChars_eq_ok_iff.mp h
  obtain ⟨phrase, spelled, tree, charge⟩ := parseTokens_eq_ok_iff.mp read
  obtain ⟨words, worded, plain⟩ := (lex_eq_ok_iff.mp ⟨lexemes, e, rfl⟩).worded
  have turns := alternates_of_parseChars h e
  have normal := normalize_eq turns worded plain
  obtain ⟨lexemes', e', same⟩ := lex_eq_ok_iff.mpr (turns.writes worded)
  rw [← normal] at e'
  refine ⟨parseChars_eq_ok_iff.mpr ⟨?_, ?_, lexemes', e', ?_⟩, normal.trans plain.symm,
    lexemes, lexemes', e, e', same⟩
  · rw [normal]
    exact turns.exists_not_isBlank worded
  · rw [normal, ← plain]
    exact (balancedWithin_plainText 0 text).trans balanced
  · exact parseTokens_eq_ok_iff.mpr ⟨phrase, spelled.trans same.symm, tree, charge⟩

/-- Normal forms keep the meaning: a formula that is read as an expression keeps its tokens, and its
normal form is read as the same expression. So a compiled formula can be compiled again from its normal
form, to the same expression. -/
theorem parse_normalize :
    (∀ (text : String) (expr : Expr), parse text = .ok expr →
      parse (String.ofList (normalize text.toList)) = .ok expr ∧
        ∃ lexemes lexemes', lex text.toList = .ok lexemes ∧
          lex (normalize text.toList) = .ok lexemes' ∧
            lexemes'.map Lexeme.token = lexemes.map Lexeme.token) ∧
      ∀ (lib : Elementary) (trial : Option Float) (typed : String) (compiled : Compiled),
        (compile lib trial typed).run.result = .ok compiled →
          ∃ again, (compile lib trial compiled.normal).run.result = .ok again ∧
            again.expr = compiled.expr := by
  have normal (text : String) (expr : Expr) (h : parse text = .ok expr) :
      parse (String.ofList (normalize text.toList)) = .ok expr ∧
        ∃ lexemes lexemes', lex text.toList = .ok lexemes ∧
          lex (normalize text.toList) = .ok lexemes' ∧
            lexemes'.map Lexeme.token = lexemes.map Lexeme.token := by
    obtain ⟨h', -, tokens⟩ := parseChars_normalize (mapError_eq_ok_iff.mp h)
    refine ⟨mapError_eq_ok_iff.mpr ?_, tokens⟩
    rw [String.toList_ofList]
    exact h'
  refine ⟨normal, fun lib trial typed compiled h => ?_⟩
  obtain ⟨-, -, read, tried⟩ := compile_eq_ok_iff.mp h
  let again : Compiled :=
    { typed := compiled.normal
      normal := String.ofList (normalize compiled.normal.toList)
      expr := compiled.expr }
  exact ⟨again, compile_eq_ok_iff.mpr ⟨rfl, rfl, (normal _ _ read).1, tried⟩, rfl⟩

/-- A formula with gaps, a caret, a function name with digits, and a constant in front of a sign. -/
def spaced : String :=
  "2 ^ -x * log10( 5. ) + e - 1e3"

/-- The spaced formula and its normal form are read alike, and compiled alike. -/
theorem parse_normalize_spaced :
    (∃ expr, parse spaced = .ok expr ∧ parse "2**-x*log10(5.)+e-1e3" = .ok expr) ∧
      ∃ compiled again, (compile .native none spaced).run.result = .ok compiled ∧
        (compile .native none compiled.normal).run.result = .ok again ∧
          again.expr = compiled.expr := by
  obtain ⟨expr, read⟩ : ∃ expr, parse spaced = .ok expr :=
    isSome_toOption_iff.mp (by decide +kernel)
  obtain ⟨compiled, compiles⟩ : ∃ compiled, (compile .native none spaced).run.result = .ok compiled :=
    isSome_toOption_iff.mp (by decide +kernel)
  have normal : String.ofList (normalize spaced.toList) = "2**-x*log10(5.)+e-1e3" := by
    decide +kernel
  obtain ⟨again, compiles', same⟩ := parse_normalize.2 _ _ _ _ compiles
  exact ⟨⟨expr, read, normal ▸ (parse_normalize.1 _ _ read).1⟩, compiled, again, compiles, compiles',
    same⟩

end Stepwise.Formula
