import Stepwise.Proofs.Formula.Gaps

/-!
# Leaving out multiplication signs

A `*` can be left out of a formula between a number and a name or an opening bracket, between the variable
or a constant and a number or an opening bracket, and behind a closing bracket. Whichever of these stars are
left out, the normal form of the shortened formula is read as the same expression. There are two exceptions:
a number that becomes longer because the text behind it goes on with an exponent, and a name `pi` with a
number right before it and right behind it.
-/

namespace Stepwise.Formula

/-- Is this a number? -/
def Token.isNumber : Token → Bool
  | number _ => true
  | _ => false

/-- A token that is a number has a value. -/
lemma Token.exists_of_isNumber {token : Token} (h : token.isNumber = true) :
    ∃ value, token = .number value := by
  cases token with
  | number value => exact ⟨value, rfl⟩
  | _ => cases h

/-- The tokens between which a star can be left out. -/
inductive Glues : Token → Token → Prop where
  | numberName {value name} : Glues (.number value) (.name name)
  | numberOpening {value} : Glues (.number value) .opening
  | valueNumber {name value} : name ∈ ["x", "pi", "e"] → Glues (.name name) (.number value)
  | valueOpening {name} : name ∈ ["x", "pi", "e"] → Glues (.name name) .opening
  | closingOpening : Glues .closing .opening
  | closingName {name} : Glues .closing (.name name)
  | closingNumber {value} : Glues .closing (.number value)

/-- A position at which there is a star that can be left out. -/
def Droppable (lexemes : List Lexeme) (position : ℕ) : Prop :=
  ∃ left right, [left, ⟨position, .star⟩, right] <:+: lexemes ∧ Glues left.token right.token

/-- A text without the characters at some positions. -/
def leaveOut (omitted : Finset ℕ) : ℕ → List Char → List Char
  | _, [] => []
  | position, c :: text =>
    if position ∈ omitted then leaveOut omitted (position + 1) text
    else c :: leaveOut omitted (position + 1) text

/-- A name `pi` stands between two numbers, and the stars on both sides of it are left out. -/
def GluesPi (omitted : Finset ℕ) (lexemes : List Lexeme) : Prop :=
  ∃ left first name second right : Lexeme, [left, first, name, second, right] <:+: lexemes ∧
    left.token.isNumber = true ∧ first.start ∈ omitted ∧ name.token = .name "pi" ∧
      second.start ∈ omitted ∧ right.token.isNumber = true

/-- More of the text at a position is read as a number once some characters are left out. Only the text from
this position on counts, and not whether a name in front of it would take the digits. -/
def Lengthens (omitted : Finset ℕ) (text : List Char) (position : ℕ) : Prop :=
  (numberAtFront (text.drop position)).length <
    (numberAtFront (leaveOut omitted position (text.drop position))).length

/-- Whether a literal is lengthened can be decided. -/
instance {omitted : Finset ℕ} {text : List Char} {position : ℕ} :
    Decidable (Lengthens omitted text position) :=
  inferInstanceAs (Decidable (_ < _))

section Tokens

/-- Some tokens with their words, in a formula and in the same formula with stars left out. The flag says
whether a star is left out between the first token and a number. -/
inductive Thinned : Bool → List Token → List Char → List Char → Prop where
  | nil : Thinned false [] [] []
  | keep {glued token word tokens full short} : token.Plain word → Thinned glued tokens full short →
    Thinned false (token :: tokens) (word ++ full) (word ++ short)
  | join {glued left right word tokens full short} : left.Plain word → Glues left right →
    (left.isNumber = true → literalAtFront (word ++ short) = word ∧ (right = .name "pi" → glued = false)) →
    Thinned glued (right :: tokens) full short →
    Thinned right.isNumber (left :: .star :: right :: tokens) (word ++ '*' :: full) (word ++ short)

/-- What an operand begins with at the front of some tokens. -/
def Start.of (glued : Bool) : List Token → Start
  | .number _ :: _ => .number
  | .name text :: _ => .name (glued && text = "pi")
  | .opening :: _ => .opening
  | _ => .sign

/-- What comes next in front of some tokens. -/
def Spot.of (glued : Bool) (tokens : List Token) : Place → Spot
  | .operand => .operand (.of glued tokens)
  | .operator => .operator

/-- All kinds of places can have their stars missing. -/
def Gaps.all : Gaps where
  behindNumber := true
  beforeNumber := true
  beforeBracket := true
  behindBracket := true

/-- Where operands and operators take turns, stars are missing only where a rule puts them back. -/
lemma Thinned.abridged {glued : Bool} {place : Place} {tokens : List Token} {full short : List Char}
    (h : Thinned glued tokens full short) (turns : Alternates place tokens) :
    Abridged .all (.of glued tokens place) full short := by
  induction h generalizing place with
  | nil =>
    cases turns
    exact .done
  | keep plain _ ih =>
    cases turns with
    | number next => exact .number plain.numeral (ih next)
    | value isValue next =>
      rw [plain.eq_toList]
      exact .value isValue (ih next)
    | call next =>
      have bracket : Abridged .all (.operand .opening) _ _ := ih (.opening next)
      cases bracket with
      | opening arg =>
        rw [plain.eq_toList]
        exact .call arg
    | opening next =>
      rw [plain.eq_opening]
      exact .opening (ih next)
    | @signed sign _ next =>
      have inside := (plain.mem_of_infix sign.mem_infixTokens).2
      cases sign <;> exact .signed inside (ih next)
    | closing next =>
      rw [plain.eq_closing]
      exact .closing (ih next)
    | between mem next =>
      obtain ⟨ne, inside⟩ := plain.mem_of_infix mem
      exact .between ne inside (ih next)
  | join plain glues joins _ ih =>
    cases turns with
    | number next =>
      obtain ⟨literal, apart⟩ := joins rfl
      cases next with
      | between _ next =>
        refine .numberTimes rfl plain.numeral literal ?_ (ih next)
        cases glues with
        | @numberName _ name =>
          refine .inl (congrArg Start.name (Bool.and_eq_false_imp.mpr fun isGlued => decide_eq_false ?_))
          rintro rfl
          exact Bool.false_ne_true ((apart rfl).symm.trans isGlued)
        | numberOpening => exact .inr rfl
    | value isValue next =>
      rw [plain.eq_toList]
      cases next with
      | between _ next =>
        cases glues with
        | valueNumber =>
          refine .timesNumber rfl isValue ?_ (ih next)
          rintro unchained rfl
          exact Bool.false_ne_true (unchained.symm.trans rfl)
        | valueOpening => exact .timesBracket rfl isValue (ih next)
    | opening => cases glues
    | @signed sign => cases sign <;> cases glues
    | closing next =>
      rw [plain.eq_closing]
      cases next with
      | between _ next =>
        refine .bracketTimes rfl ?_ (ih next)
        cases glues <;> exact nofun
    | between mem =>
      -- No operator can lose the star behind it.
      cases glues with
      | closingOpening => exact absurd mem (by decide)
      | _ => exact absurd mem (by simp [infixTokens])

end Tokens

section Positions

variable {omitted : Finset ℕ} {position : ℕ} {word text : List Char} {lexeme : Lexeme}
  {lexemes : List Lexeme}

/-- A word from which nothing is left out stands in front of what is left of the rest. -/
lemma leaveOut_append (text : List Char) (kept : ∀ k ∈ omitted, position ≤ k → position + word.length ≤ k) :
    leaveOut omitted position (word ++ text) = word ++ leaveOut omitted (position + word.length) text := by
  induction word generalizing position with
  | nil => rfl
  | cons c word ih =>
    have here : position ∉ omitted := fun mem => by
      have := kept position mem (Nat.le_refl _)
      rw [List.length_cons] at this
      omega
    rw [List.cons_append, leaveOut, if_neg here, ih fun k mem le => ?_]
    · rw [List.length_cons, Nat.add_assoc, Nat.add_comm 1]
      rfl
    · have := kept k mem (by omega)
      rw [List.length_cons] at this
      omega

/-- Leaving characters out brings none in. -/
lemma mem_of_mem_leaveOut : ∀ c ∈ leaveOut omitted position text, c ∈ text := by
  induction text generalizing position with
  | nil => exact nofun
  | cons c text ih =>
    rw [leaveOut]
    split
    · exact fun d mem => List.mem_cons_of_mem _ (ih d mem)
    · exact List.forall_mem_cons.mpr ⟨List.mem_cons_self .., fun d mem => List.mem_cons_of_mem _ (ih d mem)⟩

/-- A star that can be left out is right behind the first token or among those behind it. -/
lemma Droppable.cons {k : ℕ} (h : Droppable (lexeme :: lexemes) k) :
    (∃ right later, lexemes = ⟨k, .star⟩ :: right :: later ∧ Glues lexeme.token right.token) ∨
      Droppable lexemes k := by
  obtain ⟨left, right, within, glues⟩ := h
  rcases List.infix_cons_iff.mp within with ⟨later, e⟩ | within
  · cases e
    exact .inl ⟨right, later, rfl, glues⟩
  · exact .inr ⟨left, right, within, glues⟩

/-- A position that can be dropped is that of a star behind the first token. -/
lemma Droppable.mem {k : ℕ} (h : Droppable (lexeme :: lexemes) k) : ⟨k, .star⟩ ∈ lexemes := by
  obtain ⟨left, right, within, -⟩ := h
  rcases List.infix_cons_iff.mp within with ⟨later, e⟩ | within
  · cases e
    exact List.mem_cons_self ..
  · exact within.subset (List.mem_cons_of_mem _ (List.mem_cons_self ..))

/-- Expanding carets behind a number leaves it as it is. -/
lemma literalAtFront_plainText (word : List Char) (unspaced : ∀ c ∈ text, Text.isBlank c = false) :
    literalAtFront (word ++ plainText text) = literalAtFront (word ++ text) := by
  have ink (c : Char) (mem : c ∈ text.takeWhile isInk) : isInk c = true := List.mem_takeWhile_imp mem
  have ends := List.head?_dropWhile_not isInk text
  have split := List.takeWhile_append_dropWhile (p := isInk) (l := text)
  generalize text.takeWhile isInk = front at ink split
  generalize text.dropWhile isInk = back at ends split
  subst split
  have kept : plainText (front ++ back) = front ++ plainText back := by
    rw [plainText_append, plainText_of_isInk ink]
  rcases back with - | ⟨c, back⟩
  · rw [kept]
    rfl
  · -- Only a caret is neither blank nor kept, and no number goes on with it or with a star.
    have caret : c = '^' := by
      have blank := unspaced c (List.mem_append_right _ (List.mem_cons_self ..))
      have other : isInk c = false := ends
      rw [isInk, blank, Bool.not_false, Bool.true_and, bne_eq_false_iff_eq] at other
      exact other
    subst caret
    rw [kept, ← List.append_assoc, ← List.append_assoc]
    have star : ∀ d ∈ (plainText ('^' :: back)).head?, isNumeric d = false := fun d mem => by
      cases mem
      decide
    have caret : ∀ d ∈ ('^' :: back).head?, isNumeric d = false := fun d mem => by
      cases mem
      decide
    rw [literalAtFront_append star, literalAtFront_append caret]

/-- Is a star left out between the first token and a number? -/
def gluesNumber (omitted : Finset ℕ) : List Lexeme → Bool
  | _ :: star :: right :: _ => decide (star.start ∈ omitted) && right.token.isNumber
  | _ => false

/-- What is left of a formula from a position on, if neither of the things happens that keep stars from
being left out. -/
structure Remains (omitted : Finset ℕ) (formula : List Char) (position : ℕ) (text : List Char)
    (lexemes : List Lexeme) : Prop where
  rest : formula.drop position = text
  placed : Placed position text lexemes
  unspaced : ∀ c ∈ text, Text.isBlank c = false
  digits : ∀ c ∈ text, Text.isDecimalDigit c = c.isDigit
  literals : ∀ lexeme ∈ lexemes, lexeme.token.isNumber = true → ¬ Lengthens omitted formula lexeme.start
  apart : ¬ GluesPi omitted lexemes

namespace Remains

variable {formula : List Char}

/-- No text remains without tokens. -/
lemma eq_nil (h : Remains omitted formula position text []) : text = [] := by
  cases h.placed with
  | nil => rfl
  | gap gap =>
    have blank := isBlank_of_isGap gap
    exact absurd (blank.symm.trans (h.unspaced _ (List.mem_cons_self ..))) (by decide)

/-- The first token is spelled at the position, and the others remain behind it. -/
lemma cons (h : Remains omitted formula position text (lexeme :: lexemes)) :
    ∃ word later, text = word ++ later ∧ lexeme.start = position ∧ lexeme.token.Spelling word ∧
      lexeme.token.Apart word later ∧ Remains omitted formula (position + word.length) later lexemes := by
  obtain ⟨rest, placed, unspaced, digits, literals, apart⟩ := h
  cases placed with
  | gap gap =>
    have blank := isBlank_of_isGap gap
    exact absurd (blank.symm.trans (unspaced _ (List.mem_cons_self ..))) (by decide)
  | @token _ token word later _ spelling ends placed =>
    refine ⟨word, later, rfl, rfl, spelling, ends, ?_, placed, ?_, ?_, ?_, ?_⟩
    · rw [← List.drop_drop, rest, List.drop_left]
    · exact (List.forall_mem_append.mp unspaced).2
    · exact (List.forall_mem_append.mp digits).2
    · exact (List.forall_mem_cons.mp literals).2
    · rintro ⟨left, first, name, second, right, within, glued⟩
      exact apart ⟨left, first, name, second, right, List.infix_cons within, glued⟩

/-- A number that does not become longer is found whole when looking for products. -/
lemma literal {short : List Char} (h : Remains omitted formula position (word ++ text) (lexeme :: lexemes))
    (start : lexeme.start = position) (number : lexeme.token.isNumber = true) (numeral : Numeral word)
    (ends : numberAtFront (word ++ text) = word)
    (left : leaveOut omitted position (word ++ text) = word ++ short) :
    literalAtFront (word ++ plainText short) = word := by
  have inside (c : Char) (mem : c ∈ short) : c ∈ word ++ text :=
    mem_of_mem_leaveOut c (left ▸ List.mem_append_right word mem)
  have whole := h.literals lexeme (List.mem_cons_self ..) number
  rw [start, Lengthens, h.rest, left, ends] at whole
  have found := (numeral.prefix_numberAtFront short).eq_of_length_le (Nat.le_of_not_lt whole)
  rw [literalAtFront_plainText word fun c mem => h.unspaced c (inside c mem)]
  exact numeral.literalAtFront_of_numberAtFront (fun c mem => h.digits c (inside c mem)) found.symm

/-- A star that is not left out joins its token to no number. -/
lemma gluesNumber_eq_false (h : Remains omitted formula position text lexemes) (kept : position ∉ omitted) :
    gluesNumber omitted (lexeme :: lexemes) = false := by
  rcases lexemes with - | ⟨star, - | ⟨right, later⟩⟩
  · rfl
  · rfl
  · obtain ⟨-, -, -, start, -⟩ := h.cons
    rw [gluesNumber, start, decide_eq_false kept, Bool.false_and]

/-- A number that is multiplied with `pi` keeps `pi` from being multiplied with a number behind it. -/
lemma gluesNumber_pi {star right : Lexeme}
    (h : Remains omitted formula position text (lexeme :: star :: right :: lexemes))
    (number : lexeme.token.isNumber = true) (mem : star.start ∈ omitted) (pi : right.token = .name "pi") :
    gluesNumber omitted (right :: lexemes) = false := by
  rcases lexemes with - | ⟨second, - | ⟨last, later⟩⟩
  · rfl
  · rfl
  · by_contra glued
    rw [gluesNumber, Bool.not_eq_false, Bool.and_eq_true, decide_eq_true_eq] at glued
    exact h.apart ⟨lexeme, star, right, second, last, ⟨[], later, rfl⟩, number, mem, pi, glued⟩

/-- Unless the next token is a star that is left out, those that are left out are behind it. -/
lemma droppable_tail (h : Remains omitted formula position text lexemes)
    (droppable : ∀ k ∈ omitted, position ≤ k → Droppable (lexeme :: lexemes) k)
    (kept : position ∉ omitted) :
    ∀ k ∈ omitted, position ≤ k → Droppable lexemes k := by
  intro k mem le
  rcases (droppable k mem le).cons with ⟨right, later, rfl, -⟩ | behind
  · obtain ⟨-, -, -, start, -⟩ := h.cons
    exact absurd (start ▸ mem) kept
  · exact behind

/-- If the next token is a star that is left out, it stands between two tokens that allow it. -/
lemma droppable_next (h : Remains omitted formula position text lexemes)
    (droppable : ∀ k ∈ omitted, position ≤ k → Droppable (lexeme :: lexemes) k) (mem : position ∈ omitted) :
    ∃ right later behind, lexemes = ⟨position, .star⟩ :: right :: later ∧ Glues lexeme.token right.token ∧
      text = '*' :: behind ∧ Remains omitted formula (position + 1) behind (right :: later) ∧
        ∀ k ∈ omitted, position + 1 ≤ k → Droppable (right :: later) k := by
  rcases (droppable position mem (Nat.le_refl _)).cons with ⟨right, later, rfl, glues⟩ | behind
  · obtain ⟨word, behind, rfl, -, spelling, -, remains⟩ := h.cons
    cases spelling
    refine ⟨right, later, behind, rfl, glues, rfl, remains, fun k mem' le => ?_⟩
    rcases (droppable k mem' (Nat.le_of_succ_le le)).cons with ⟨_, _, e, -⟩ | droppable
    · cases e
      exact absurd le (Nat.not_succ_le_self _)
    · rcases droppable.cons with ⟨_, _, -, glues⟩ | droppable
      · cases glues
      · exact droppable
  · -- Two tokens do not begin at the same position.
    cases lexemes with
    | nil =>
      obtain ⟨_, _, within, -⟩ := behind
      cases List.infix_nil.mp within
    | cons first lexemes =>
      obtain ⟨word, later, rfl, -, spelling, -, remains⟩ := h.cons
      have le := remains.placed.le_start _ behind.mem
      have pos := List.length_pos_of_ne_nil spelling.ne_nil
      dsimp only at le
      omega

/-- The words of what remains, with and without the stars that are left out. -/
lemma thinned (h : Remains omitted formula position text lexemes)
    (droppable : ∀ k ∈ omitted, position ≤ k → Droppable lexemes k) :
    Thinned (gluesNumber omitted lexemes) (lexemes.map Lexeme.token) (plainText text)
      (plainText (leaveOut omitted position text)) := by
  -- A star that is left out is passed together with the token before it.
  induction h' : lexemes.length using Nat.strong_induction_on generalizing lexemes position text with
  | _ length ih =>
    subst h'
    cases lexemes with
    | nil =>
      rw [h.eq_nil]
      exact .nil
    | cons lexeme lexemes =>
      obtain ⟨word, later, rfl, start, spelling, ends, remains⟩ := h.cons
      have kept (k : ℕ) (mem : k ∈ omitted) (le : position ≤ k) : position + word.length ≤ k :=
        remains.placed.le_start _ (droppable k mem le).mem
      have droppable (k : ℕ) (mem : k ∈ omitted) (le : position + word.length ≤ k) :=
        droppable k mem ((Nat.le_add_right _ _).trans le)
      have left := leaveOut_append later kept
      obtain ⟨plain, isPlain, same, e⟩ := spelling.exists_plain
      by_cases next : position + word.length ∈ omitted
      case neg =>
        have behind := ih _ (Nat.lt_succ_self _) remains (remains.droppable_tail droppable next) rfl
        rw [left, e, e, remains.gluesNumber_eq_false next]
        exact .keep isPlain behind
      case pos =>
        obtain ⟨right, lexemes, behind, rfl, glues, rfl, remains', droppable'⟩ :=
          remains.droppable_next droppable next
        have joined := ih _ (Nat.lt_succ_of_lt (Nat.lt_succ_self _)) remains' droppable' rfl
        rw [leaveOut, if_pos next] at left
        have glued : gluesNumber omitted (lexeme :: ⟨position + word.length, .star⟩ :: right :: lexemes) =
            right.token.isNumber := by
          rw [gluesNumber, decide_eq_true next, Bool.true_and]
        rw [left, e, e, glued]
        refine .join isPlain glues (fun number => ⟨?_, ?_⟩) joined
        · obtain ⟨value, isValue⟩ := Token.exists_of_isNumber number
          rw [isValue] at isPlain same ends
          obtain rfl : plain = word := same.resolve_left nofun
          exact h.literal start number isPlain.numeral ends left
        · exact h.gluesNumber_pi number next

end Remains

/-- All spellings are of characters in front of the digits of other scripts. -/
lemma Token.Spelling.isDecimalDigit {token : Token} (h : token.Spelling word) :
    ∀ c ∈ word, Text.isDecimalDigit c = c.isDigit := by
  have name {c : Char} (continues : continuesName c = true) : Text.isDecimalDigit c = c.isDigit :=
    isDecimalDigit_eq_isDigit ((toNat_of_continuesName continues).2.trans_lt (by decide))
  cases h with
  | number read finite =>
    obtain ⟨amount, read', -⟩ := Option.map_eq_some_iff.mp read
    exact (Numeral.of_read? read').isDecimalDigit
  | name starts continues =>
    exact List.forall_mem_cons.mpr
      ⟨name (continuesName_of_startsName starts), fun c mem => name (continues c mem)⟩
  | power => exact List.forall_mem_cons.mpr ⟨rfl, List.forall_mem_singleton.mpr rfl⟩
  | _ => exact List.forall_mem_singleton.mpr rfl

/-- The digits of a text that is split into tokens are the ordinary ones. -/
lemma Placed.isDecimalDigit (h : Placed position text lexemes) :
    ∀ c ∈ text, Text.isDecimalDigit c = c.isDigit := by
  induction h with
  | nil => exact nofun
  | gap gap _ ih =>
    have none : [' ', '\t', '\n', '\r'].all (fun c => Text.isDecimalDigit c == c.isDigit) = true := rfl
    exact List.forall_mem_cons.mpr ⟨beq_iff_eq.mp (List.all_eq_true.mp none _ (isGap_iff.mp gap)), ih⟩
  | token spelling _ _ ih => exact List.forall_mem_append.mpr ⟨spelling.isDecimalDigit, ih⟩

end Positions

/-- If stars are left out between numbers, names and brackets, the normal form is read as the same
expression as before: unless more of the text is read as a number where one begins, or `pi` has a number on
both sides without a star. -/
theorem parse_leaveOut {text : String} {expr : Expr} {lexemes : List Lexeme} (omitted : Finset ℕ)
    (unspaced : ∀ c ∈ text.toList, Text.isBlank c = false) (read : parse text = .ok expr)
    (found : lex text.toList = .ok lexemes) (droppable : ∀ k ∈ omitted, Droppable lexemes k)
    (literals : ∀ lexeme ∈ lexemes, lexeme.token.isNumber = true →
      ¬ Lengthens omitted text.toList lexeme.start)
    (apart : ¬ GluesPi omitted lexemes) :
    parse (String.ofList (normalize (leaveOut omitted 0 text.toList))) = .ok expr := by
  have placed := placed_of_lexAfter found
  have remains : Remains omitted text.toList 0 text.toList lexemes :=
    ⟨rfl, placed, unspaced, placed.isDecimalDigit, literals, apart⟩
  have thinned := remains.thinned fun k mem _ => droppable k mem
  have readChars := mapError_eq_ok_iff.mp read
  have restored := (thinned.abridged (alternates_of_parseChars readChars found)).restored
  obtain ⟨normal, plain, -⟩ := parseChars_normalize readChars
  refine mapError_eq_ok_iff.mpr ?_
  rw [String.toList_ofList, normalize, ← plainText, restored, ← plain]
  exact normal

/-- A chain of factors of all kinds, with `pi` behind a bracket. -/
def chain : String :=
  "2*x*3*(x+1)*pi*5*sin(x)-e*3"

/-- The tokens of the chain. -/
def chainLexemes : List Lexeme :=
  [⟨0, .number 2⟩, ⟨1, .star⟩, ⟨2, .name "x"⟩, ⟨3, .star⟩, ⟨4, .number 3⟩, ⟨5, .star⟩, ⟨6, .opening⟩,
    ⟨7, .name "x"⟩, ⟨8, .plus⟩, ⟨9, .number 1⟩, ⟨10, .closing⟩, ⟨11, .star⟩, ⟨12, .name "pi"⟩, ⟨14, .star⟩,
    ⟨15, .number 5⟩, ⟨16, .star⟩, ⟨17, .name "sin"⟩, ⟨20, .opening⟩, ⟨21, .name "x"⟩, ⟨22, .closing⟩,
    ⟨23, .minus⟩, ⟨24, .name "e"⟩, ⟨25, .star⟩, ⟨26, .number 3⟩]

/-- All stars of the chain can be left out at once. -/
theorem parse_leaveOut_chain : let stars : Finset ℕ := {1, 3, 5, 11, 14, 16, 25}
    (∀ c ∈ chain.toList, Text.isBlank c = false) ∧ lex chain.toList = .ok chainLexemes ∧
      (∀ k ∈ stars, Droppable chainLexemes k) ∧
      (∀ lexeme ∈ chainLexemes, lexeme.token.isNumber = true →
        ¬ Lengthens stars chain.toList lexeme.start) ∧
      ¬ GluesPi stars chainLexemes ∧
      leaveOut stars 0 chain.toList = "2x3(x+1)pi5sin(x)-e3".toList ∧
      ∃ expr, parse chain = .ok expr ∧
        parse (String.ofList (normalize (leaveOut stars 0 chain.toList))) = .ok expr := by
  intro stars
  have ink : chain.toList.all (fun c => !Text.isBlank c) = true := by decide
  have unspaced (c : Char) (mem : c ∈ chain.toList) : Text.isBlank c = false :=
    (Bool.not_eq_true' _).mp (List.all_eq_true.mp ink c mem)
  have found : lex chain.toList = .ok chainLexemes := by decide +kernel
  have literals : ∀ lexeme ∈ chainLexemes, lexeme.token.isNumber = true →
      ¬ Lengthens stars chain.toList lexeme.start := by
    decide +kernel
  have droppable : ∀ k ∈ stars, Droppable chainLexemes k := by
    intro k mem
    simp only [stars, Finset.mem_insert, Finset.mem_singleton] at mem
    rcases mem with rfl | rfl | rfl | rfl | rfl | rfl | rfl
    · exact ⟨_, _, ⟨chainLexemes.take 0, chainLexemes.drop 3, rfl⟩, .numberName⟩
    · exact ⟨_, _, ⟨chainLexemes.take 2, chainLexemes.drop 5, rfl⟩, .valueNumber (by decide)⟩
    · exact ⟨_, _, ⟨chainLexemes.take 4, chainLexemes.drop 7, rfl⟩, .numberOpening⟩
    · exact ⟨_, _, ⟨chainLexemes.take 10, chainLexemes.drop 13, rfl⟩, .closingName⟩
    · exact ⟨_, _, ⟨chainLexemes.take 12, chainLexemes.drop 15, rfl⟩, .valueNumber (by decide)⟩
    · exact ⟨_, _, ⟨chainLexemes.take 14, chainLexemes.drop 17, rfl⟩, .numberName⟩
    · exact ⟨_, _, ⟨chainLexemes.take 21, chainLexemes.drop 24, rfl⟩, .valueNumber (by decide)⟩
  have apart : ¬ GluesPi stars chainLexemes := by
    rintro ⟨left, first, name, second, right, within, number, -, pi, -, -⟩
    have names : ∀ lexeme ∈ chainLexemes, lexeme.token = .name "pi" → lexeme = ⟨12, .name "pi"⟩ := by
      decide +kernel
    obtain rfl := names name (within.subset (by simp)) pi
    have bracket : left = ⟨10, .closing⟩ ∧ first = ⟨11, .star⟩ ∧ second = ⟨14, .star⟩ ∧
        right = ⟨15, .number 5⟩ := by
      simpa [chainLexemes, List.infix_cons_iff, List.cons_prefix_cons] using within
    rw [bracket.1] at number
    cases number
  obtain ⟨expr, read⟩ : ∃ expr, parse chain = .ok expr := isSome_toOption_iff.mp (by decide +kernel)
  exact ⟨unspaced, found, droppable, literals, apart, by decide, expr, read,
    parse_leaveOut stars unspaced read found droppable literals apart⟩

-- A number that becomes longer is one factor afterwards, behind a name as well.
example : Lengthens {1, 3, 5} "x*2*e*3".toList 2 ∧
    normalize (leaveOut {1, 3, 5} 0 "x*2*e*3".toList) = "x*2e3".toList := by
  decide +kernel

end Stepwise.Formula
