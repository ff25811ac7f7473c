import Stepwise.Proofs.Formula.Faults
import Mathlib.Computability.Language

/-!
# Where the first wrong token is

The readers never go back, and all that they look at is what they have taken and one token more. So a
fault comes as early as it can: what has been read in front of it could go on as a formula, but no
formula goes on with the next token. What the readers do does not depend on the levels left either, as
long as these last.
-/

namespace Stepwise.Formula

namespace Grammar

/-- What sums are spelled by. -/
def sums : Language Token := Set.range Sum.tokens

/-- What the rest of a sum is spelled by. -/
def sumTails : Language Token := Set.range SumTail.tokens

/-- What products are spelled by. -/
def products : Language Token := Set.range Product.tokens

/-- What the rest of a product is spelled by. -/
def productTails : Language Token := Set.range ProductTail.tokens

/-- What operands are spelled by. -/
def operands : Language Token := Set.range Operand.tokens

/-- What powers are spelled by. -/
def powers : Language Token := Set.range Power.tokens

/-- What primaries are spelled by. -/
def primaries : Language Token := Set.range Primary.tokens

/-- An exponent with its operator, or nothing. -/
def exponents : Language Token := 1 + {[.power]} * operands

section Rules

/-- A product and the rest of a sum make a sum. -/
lemma products_mul_sumTails_le : products * sumTails ≤ sums := by
  rintro _ ⟨_, ⟨first, rfl⟩, _, ⟨rest, rfl⟩, rfl⟩
  exact ⟨.mk first rest, rfl⟩

/-- A sign, a product and the rest of a sum make the rest of a sum. -/
lemma sign_mul_le_sumTails (sign : Sign) :
    {[sign.token]} * (products * sumTails) ≤ sumTails := by
  rintro _ ⟨_, rfl, _, ⟨_, ⟨next, rfl⟩, _, ⟨rest, rfl⟩, rfl⟩, rfl⟩
  exact ⟨.more sign next rest, rfl⟩

/-- An operand and the rest of a product make a product. -/
lemma operands_mul_productTails_le : operands * productTails ≤ products := by
  rintro _ ⟨_, ⟨first, rfl⟩, _, ⟨rest, rfl⟩, rfl⟩
  exact ⟨.mk first rest, rfl⟩

/-- An operator, an operand and the rest of a product make the rest of a product. -/
lemma scale_mul_le_productTails (scale : Scale) :
    {[scale.token]} * (operands * productTails) ≤ productTails := by
  rintro _ ⟨_, rfl, _, ⟨_, ⟨next, rfl⟩, _, ⟨rest, rfl⟩, rfl⟩, rfl⟩
  exact ⟨.more scale next rest, rfl⟩

/-- A sign and an operand make an operand. -/
lemma sign_mul_operands_le (sign : Sign) : {[sign.token]} * operands ≤ operands := by
  rintro _ ⟨_, rfl, _, ⟨arg, rfl⟩, rfl⟩
  exact ⟨.signed sign arg, rfl⟩

/-- A power is an operand. -/
lemma powers_le_operands : powers ≤ operands := by
  rintro _ ⟨power, rfl⟩
  exact ⟨.unsigned power, rfl⟩

/-- A primary with or without an exponent makes a power. -/
lemma primaries_mul_exponents_le : primaries * exponents ≤ powers := by
  rintro _ ⟨_, ⟨base, rfl⟩, _, none | ⟨_, rfl, _, ⟨exponent, rfl⟩, rfl⟩, rfl⟩
  · cases none
    exact ⟨.plain base, (List.append_nil _).symm⟩
  · exact ⟨.raised base exponent, rfl⟩

/-- A number, a constant or the variable makes a primary. -/
lemma token_le_primaries (phrase : Primary) {token : Token} (e : phrase.tokens = [token]) :
    {[token]} ≤ primaries := by
  rintro _ rfl
  exact ⟨phrase, e⟩

/-- A sum in brackets makes a primary. -/
lemma group_le_primaries : {[.opening]} * (sums * {[.closing]}) ≤ primaries := by
  rintro _ ⟨_, rfl, _, ⟨_, ⟨inner, rfl⟩, _, rfl, rfl⟩, rfl⟩
  exact ⟨.group inner, rfl⟩

/-- The name of a function and a sum in brackets make a primary. -/
lemma call_le_primaries (f : Function) :
    {[.name f.name]} * ({[.opening]} * (sums * {[.closing]})) ≤ primaries := by
  rintro _ ⟨_, rfl, _, ⟨_, rfl, _, ⟨_, ⟨arg, rfl⟩, _, rfl, rfl⟩, rfl⟩, rfl⟩
  exact ⟨.call f arg, rfl⟩

end Rules

end Grammar

/-- Tokens that a word of a language begins with. -/
def Viable (L : Language Token) (taken : List Lexeme) : Prop :=
  ∃ word ∈ L, taken.map Lexeme.token <+: word

/-- With this room or more, the outcome of a reader is settled by the tokens that it has taken and the
next one, whatever comes behind that. -/
def Foreseen (read : ℕ → List Lexeme → Parsed) (room : ℕ) (taken rest : List Lexeme)
    (outcome : List Lexeme → Parsed) : Prop :=
  ∀ {room' rest'}, room ≤ room' → rest'.head? = rest.head? →
    read room' (taken ++ rest') = outcome rest'

/-- A reader of the words of a language is guided by the next token. It takes a word, or it reports a
fault at the token behind the beginning of a word. Nothing is said about names without a meaning and
about nesting that is too deep. -/
structure Guided (L : Language Token) (read : ℕ → List Lexeme → Parsed) (room : ℕ)
    (tokens : List Lexeme) : Prop where
  takes : ∀ {expr rest}, read room tokens = .ok (expr, rest) →
    ∃ taken, tokens = taken ++ rest ∧ taken.map Lexeme.token ∈ L ∧
      Foreseen read room taken rest fun rest' => .ok (expr, rest')
  refuses : ∀ {position fault}, read room tokens = .error (.fault position fault) →
    fault ≠ .tooDeep →
    ∃ taken rest, tokens = taken ++ rest ∧ position = rest.head?.map Lexeme.start ∧ Viable L taken ∧
      Foreseen read room taken rest fun _ => .error (.fault position fault)

/-- What is put in front of some tokens keeps their common first token. -/
lemma head?_append_congr {rest rest' : List Lexeme} (same : rest'.head? = rest.head?)
    (taken : List Lexeme) : (taken ++ rest').head? = (taken ++ rest).head? := by
  rw [List.head?_append, List.head?_append, same]

/-- A known first token splits the tokens. -/
lemma front_of_head? {tokens : List Lexeme} {token : Token}
    (first : tokens.head?.map Lexeme.token = some token) :
    ∃ start rest, tokens = ⟨start, token⟩ :: rest := by
  obtain ⟨⟨start, _⟩, found, rfl⟩ := Option.map_eq_some_iff.mp first
  obtain ⟨rest, rfl⟩ := List.head?_eq_some_iff.mp found
  exact ⟨start, rest, rfl⟩

namespace Guided

variable {L M : Language Token} {read read' : ℕ → List Lexeme → Parsed} {room : ℕ}
  {tokens rest : List Lexeme}

/-- A reader guided within a language is guided within a larger one. -/
lemma mono (h : Guided L read room tokens) (le : L ≤ M) : Guided M read room tokens where
  takes e := by
    obtain ⟨taken, split, mem, foreseen⟩ := h.takes e
    exact ⟨taken, split, le mem, foreseen⟩
  refuses e shallow := by
    obtain ⟨taken, rest, split, place, ⟨word, mem, begins⟩, foreseen⟩ := h.refuses e shallow
    exact ⟨taken, rest, split, place, ⟨word, le mem, begins⟩, foreseen⟩

/-- Only what a reader does on tokens with the same first token matters. -/
lemma of_eq (h : Guided L read room tokens)
    (e : ∀ room' tokens', tokens'.head? = tokens.head? → read' room' tokens' = read room' tokens') :
    Guided L read' room tokens where
  takes e' := by
    rw [e room tokens rfl] at e'
    obtain ⟨taken, rfl, mem, foreseen⟩ := h.takes e'
    refine ⟨taken, rfl, mem, fun le same => ?_⟩
    rw [e _ _ (head?_append_congr same taken)]
    exact foreseen le same
  refuses e' shallow := by
    rw [e room tokens rfl] at e'
    obtain ⟨taken, rest, rfl, place, viable, foreseen⟩ := h.refuses e' shallow
    refine ⟨taken, rest, rfl, place, viable, fun le same => ?_⟩
    rw [e _ _ (head?_append_congr same taken)]
    exact foreseen le same

/-- A reader that takes one level goes on with the rest of them. -/
lemma succ (h : Guided L (fun room => read (room + 1)) room tokens) :
    Guided L read (room + 1) tokens where
  takes e := by
    obtain ⟨taken, split, mem, foreseen⟩ := h.takes e
    refine ⟨taken, split, mem, fun {room'} _ le same => ?_⟩
    obtain ⟨room', rfl⟩ := Nat.exists_eq_succ_of_ne_zero (Nat.ne_zero_of_lt le)
    exact foreseen (Nat.le_of_succ_le_succ le) same
  refuses e shallow := by
    obtain ⟨taken, rest, split, place, viable, foreseen⟩ := h.refuses e shallow
    refine ⟨taken, rest, split, place, viable, fun {room'} _ le same => ?_⟩
    obtain ⟨room', rfl⟩ := Nat.exists_eq_succ_of_ne_zero (Nat.ne_zero_of_lt le)
    exact foreseen (Nat.le_of_succ_le_succ le) same

/-- A reader that passes over a token goes on behind it. -/
lemma cons (lexeme : Lexeme) (h : Guided L read room rest)
    (e : ∀ room' rest', read' room' (lexeme :: rest') = read room' rest') :
    Guided ({[lexeme.token]} * L) read' room (lexeme :: rest) where
  takes e' := by
    rw [e] at e'
    obtain ⟨taken, rfl, mem, foreseen⟩ := h.takes e'
    refine ⟨lexeme :: taken, rfl, ⟨_, rfl, _, mem, rfl⟩, fun le same => ?_⟩
    rw [List.cons_append, e]
    exact foreseen le same
  refuses e' shallow := by
    rw [e] at e'
    obtain ⟨taken, rest, rfl, place, ⟨word, mem, begins⟩, foreseen⟩ := h.refuses e' shallow
    have viable : Viable ({[lexeme.token]} * L) (lexeme :: taken) :=
      ⟨lexeme.token :: word, ⟨_, rfl, _, mem, rfl⟩, List.cons_prefix_cons.mpr ⟨rfl, begins⟩⟩
    refine ⟨lexeme :: taken, rest, rfl, place, viable, fun le same => ?_⟩
    rw [List.cons_append, e]
    exact foreseen le same

/-- A reader goes on with another one behind what it takes. -/
lemma bind {later : Expr → ℕ → List Lexeme → Parsed} (h : Guided L read room tokens)
    (h' : ∀ expr rest, Guided M (later expr) room rest) (nonempty : Set.Nonempty M) :
    Guided (L * M) (fun room tokens => do
      let (expr, rest) ← read room tokens
      later expr room rest) room tokens where
  takes e := by
    obtain ⟨⟨first, mid⟩, e, e'⟩ := bind_eq_ok_iff.mp e
    obtain ⟨taken, rfl, mem, foreseen⟩ := h.takes e
    obtain ⟨taken', rfl, mem', foreseen'⟩ := (h' first mid).takes e'
    refine ⟨taken ++ taken', (List.append_assoc ..).symm, ?_, fun le same => ?_⟩
    · exact ⟨_, mem, _, mem', List.map_append.symm⟩
    · rw [List.append_assoc]
      have first := foreseen le (head?_append_congr same taken')
      exact bind_eq_ok_iff.mpr ⟨_, first, foreseen' le same⟩
  refuses e shallow := by
    -- The first reader is at fault, and some word completes its tokens, or the later one is.
    rcases bind_eq_error_iff.mp e with e | ⟨⟨first, mid⟩, e, e'⟩
    · obtain ⟨taken, rest, rfl, place, ⟨word, mem, begins⟩, foreseen⟩ := h.refuses e shallow
      obtain ⟨after, mem'⟩ := nonempty
      have viable : Viable (L * M) taken :=
        ⟨word ++ after, ⟨_, mem, _, mem', rfl⟩, begins.trans (List.prefix_append _ _)⟩
      refine ⟨taken, rest, rfl, place, viable, fun le same => ?_⟩
      exact bind_eq_error_iff.mpr (.inl (foreseen le same))
    · obtain ⟨taken, rfl, mem, foreseen⟩ := h.takes e
      obtain ⟨taken', rest, rfl, place, ⟨word, mem', begins⟩, foreseen'⟩ :=
        (h' first mid).refuses e' shallow
      have viable : Viable (L * M) (taken ++ taken') := by
        refine ⟨_, ⟨_, mem, _, mem', rfl⟩, ?_⟩
        rw [List.map_append]
        exact (List.prefix_append_right_inj _).mpr begins
      refine ⟨taken ++ taken', rest, (List.append_assoc ..).symm, place, viable, fun le same => ?_⟩
      rw [List.append_assoc]
      have first := foreseen le (head?_append_congr same taken')
      exact bind_eq_error_iff.mpr (.inr ⟨_, first, foreseen' le same⟩)

/-- A reader that stays where it is takes the empty word. -/
lemma stay (expr : Expr) (empty : [] ∈ L)
    (e : ∀ room' tokens', tokens'.head? = tokens.head? → read room' tokens' = .ok (expr, tokens')) :
    Guided L read room tokens where
  takes e' := by
    rw [e room tokens rfl] at e'
    cases e'
    exact ⟨[], rfl, empty, fun _ same => e _ _ same⟩
  refuses e' := by
    rw [e room tokens rfl] at e'
    cases e'

/-- A reader that passes over a token and stops there takes this token. -/
lemma token (lexeme : Lexeme) (expr : Expr)
    (e : ∀ room' rest', read room' (lexeme :: rest') = .ok (expr, rest')) :
    Guided {[lexeme.token]} read room (lexeme :: rest) := by
  have behind : Guided 1 (fun _ tokens => .ok (expr, tokens)) room rest :=
    .stay expr Language.nil_mem_one fun _ _ _ => rfl
  exact (behind.cons lexeme e).mono (mul_one _).le

/-- What is built of an expression does not matter. -/
lemma map (h : Guided L read room tokens) (build : Expr → Expr) :
    Guided L (fun room tokens => do
      let (expr, rest) ← read room tokens
      return (build expr, rest)) room tokens := by
  have built (expr : Expr) (rest : List Lexeme) :
      Guided 1 (fun _ tokens => .ok (build expr, tokens)) room rest :=
    .stay (build expr) Language.nil_mem_one fun _ _ _ => rfl
  exact (h.bind built ⟨[], Language.nil_mem_one⟩).mono (mul_one L).le

/-- A reader that refuses the first token has not taken anything. -/
lemma refuse (nonempty : Set.Nonempty L) (fault : Fault)
    (e : ∀ room' tokens', tokens'.head? = tokens.head? → read room' tokens' = refuse tokens' fault) :
    Guided L read room tokens where
  takes e' := by
    rw [e room tokens rfl] at e'
    cases e'
  refuses e' _ := by
    rw [e room tokens rfl] at e'
    cases e'
    obtain ⟨word, mem⟩ := nonempty
    refine ⟨[], tokens, rfl, rfl, ⟨word, mem, List.nil_prefix⟩, fun _ same => ?_⟩
    rw [List.nil_append, e _ _ same, Formula.refuse, same]

/-- A reader that reports an unknown name or too deep a nesting is guided, because nothing is said about
these. -/
lemma of_error (error : ParseError) (e : read room tokens = .error error)
    (other : ∀ position fault, error = .fault position fault → fault = .tooDeep) :
    Guided L read room tokens where
  takes e' := by
    rw [e] at e'
    cases e'
  refuses e' shallow := by
    rw [e] at e'
    exact absurd (other _ _ (Except.error.inj e')) shallow

/-- A reader that gives up for want of levels is guided. -/
lemma tooDeep (rest : List Lexeme) (e : read room tokens = Formula.refuse rest .tooDeep) :
    Guided L read room tokens :=
  .of_error _ e fun _ _ e' => (ParseError.fault.inj e').2.symm

/-- A product ends where no operator of it follows. -/
lemma productTail_of_none (e : operatorAtFront Token.productOperator? tokens = none) (left : Expr) :
    Guided Grammar.productTails (fun room => productTail room left) room tokens :=
  .stay left ⟨.done, rfl⟩ fun room' _ same =>
    Formula.productTail_of_none (operatorAtFront_eq_none e same) room' left

/-- Where no sign follows, the rest of a sum is empty. -/
lemma sumTail_of_none (e : operatorAtFront Token.sumOperator? tokens = none) (left : Expr) :
    Guided Grammar.sumTails (fun room => sumTail room left) room tokens :=
  .stay left ⟨.done, rfl⟩ fun room' _ same =>
    Formula.sumTail_of_none (operatorAtFront_eq_none e same) room' left

end Guided

/-- With `room` levels left, every reader is guided by the next token. -/
structure Lookahead (room : ℕ) : Prop where
  operand : ∀ tokens, Guided Grammar.operands operand room tokens
  productTail : ∀ left tokens,
    Guided Grammar.productTails (fun room => productTail room left) room tokens
  sumTail : ∀ left tokens, Guided Grammar.sumTails (fun room => sumTail room left) room tokens

namespace Lookahead

variable {room : ℕ}

/-- Reading a product is guided if the readers one level below are. -/
lemma product (lookahead : Lookahead room) (tokens : List Lexeme) :
    Guided Grammar.products product room tokens := by
  have whole := (lookahead.operand tokens).bind lookahead.productTail ⟨_, .done, rfl⟩
  exact whole.mono Grammar.operands_mul_productTails_le

/-- Reading a sum is guided. -/
lemma sum (lookahead : Lookahead room) (tokens : List Lexeme) :
    Guided Grammar.sums sum room tokens := by
  have whole := (lookahead.product tokens).bind lookahead.sumTail ⟨_, .done, rfl⟩
  exact whole.mono Grammar.products_mul_sumTails_le

/-- Closing a bracket is guided by the token in its place. -/
lemma closeBracket (expr : Expr) (tokens : List Lexeme) :
    Guided {[.closing]} (fun _ tokens => do
      let rest ← Formula.closeBracket tokens
      return (expr, rest)) room tokens := by
  by_cases closes : tokens.head?.map Lexeme.token = some .closing
  case pos =>
    obtain ⟨start, rest, rfl⟩ := front_of_head? closes
    exact .token ⟨start, .closing⟩ expr fun _ _ => rfl
  case neg =>
    refine .refuse ⟨_, rfl⟩ (.unclosed (tokens.head?.map Lexeme.token)) fun _ tokens' same => ?_
    rw [← same] at closes ⊢
    unfold Formula.closeBracket
    split
    case h_1 => exact absurd rfl closes
    case h_2 => rfl

/-- Reading a sum and the bracket behind it is guided. -/
lemma bracketed (lookahead : Lookahead room) (tokens : List Lexeme) (build : Expr → Expr) :
    Guided (Grammar.sums * {[.closing]}) (fun room tokens => do
      let (inner, rest) ← Formula.sum room tokens
      let rest ← Formula.closeBracket rest
      return (build inner, rest)) room tokens :=
  (lookahead.sum tokens).bind (fun inner => closeBracket (build inner)) ⟨_, rfl⟩

/-- A name is a variable or a constant, or a function with its argument in brackets. -/
lemma name (lookahead : Lookahead room) (start : ℕ) (name : String) (rest : List Lexeme) :
    Guided Grammar.primaries (fun room => primary (Formula.sum room)) room
      (⟨start, .name name⟩ :: rest) := by
  cases meaning : Symbol.ofName? name with
  | none =>
    refine .of_error (.unknownName name) ?_ fun _ _ e => by cases e
    simp only [primary, meaning]
  | some symbol =>
    have spelled : [Token.name symbol.name] = [.name name] := by rw [Symbol.name_of_ofName? meaning]
    cases symbol with
    | «variable» =>
      refine .mono (.token _ .var fun _ _ => ?_) (Grammar.token_le_primaries .var spelled)
      simp only [primary, meaning]
    | constant c =>
      refine .mono (.token _ (.const c.value) fun _ _ => ?_)
        (Grammar.token_le_primaries (.constant c) spelled)
      simp only [primary, meaning]
    | function f =>
      -- Nothing but an opening bracket can stand behind the name of a function.
      by_cases called : rest.head?.map Lexeme.token = some .opening
      case pos =>
        obtain ⟨start', behind, rfl⟩ := front_of_head? called
        have brackets : Guided ({[.opening]} * (Grammar.sums * {[.closing]}))
            (fun room tokens => primary (Formula.sum room) (⟨start, .name name⟩ :: tokens)) room
            (⟨start', .opening⟩ :: behind) :=
          .cons ⟨start', .opening⟩ (lookahead.bracketed behind (.call f)) fun _ _ =>
            primary_function meaning ..
        obtain rfl := Symbol.name_of_ofName? meaning
        exact .mono (.cons _ brackets fun _ _ => rfl) (Grammar.call_le_primaries f)
      case neg =>
        refine .of_error (.uncalled f) ?_ fun _ _ e => by cases e
        rw [primary_function meaning]
        split
        case h_1 => exact absurd rfl called
        case h_2 => rfl

/-- Reading a primary is guided. -/
lemma primary (lookahead : Lookahead room) (tokens : List Lexeme) :
    Guided Grammar.primaries (fun room => primary (Formula.sum room)) room tokens := by
  cases tokens with
  | nil =>
    refine .refuse ⟨_, .var, rfl⟩ (.unexpected none) fun _ tokens' same => ?_
    rw [List.head?_eq_none_iff.mp same]
    rfl
  | cons lexeme rest =>
    obtain ⟨start, token⟩ := lexeme
    have refused (e : ∀ room' rest', Formula.primary (Formula.sum room') (⟨start, token⟩ :: rest') =
        refuse (⟨start, token⟩ :: rest') (.unexpected (some token))) :
        Guided Grammar.primaries (fun room => Formula.primary (Formula.sum room)) room
          (⟨start, token⟩ :: rest) := by
      refine .refuse ⟨_, .var, rfl⟩ (.unexpected (some token)) fun room' tokens' same => ?_
      obtain ⟨rest', rfl⟩ := List.head?_eq_some_iff.mp same
      exact e room' rest'
    cases token with
    | number value =>
      exact .mono (.token _ (.const value) fun _ _ => rfl)
        (Grammar.token_le_primaries (.number value) rfl)
    | opening =>
      have brackets := lookahead.bracketed rest id
      exact .mono (.cons ⟨start, .opening⟩ brackets fun _ _ => rfl) Grammar.group_le_primaries
    | name name => exact lookahead.name start name rest
    | _ => exact refused fun _ _ => rfl

/-- Reading an exponent is guided: it is there exactly if the power sign is. -/
lemma exponent (lookahead : Lookahead room) (base : Expr) (tokens : List Lexeme) :
    Guided Grammar.exponents (fun room tokens =>
      match tokens with
      | { token := .power, .. } :: rest => do
        let (exponent, rest) ← Formula.operand room rest
        return (.binary .pow base exponent, rest)
      | tokens => return (base, tokens)) room tokens := by
  by_cases raised : tokens.head?.map Lexeme.token = some .power
  case pos =>
    obtain ⟨start, rest, rfl⟩ := front_of_head? raised
    have behind := (lookahead.operand rest).map (.binary .pow base)
    exact (behind.cons ⟨start, .power⟩ fun _ _ => rfl).mono le_sup_right
  case neg =>
    refine .stay base (.inl rfl) fun _ tokens' same => ?_
    rw [← same] at raised
    split
    case h_1 => exact absurd rfl raised
    case h_2 => rfl

/-- Reading a power is guided. -/
lemma power (lookahead : Lookahead room) (tokens : List Lexeme) :
    Guided Grammar.powers (fun room => power (Formula.sum room) (Formula.operand room)) room
      tokens :=
  ((lookahead.primary tokens).bind lookahead.exponent ⟨[], .inl rfl⟩).mono
    Grammar.primaries_mul_exponents_le

/-- Without a level left, only tails can end. -/
lemma zero : Lookahead 0 where
  operand tokens := .tooDeep tokens (by rw [Formula.operand])
  productTail left tokens := by
    cases e : operatorAtFront Token.productOperator? tokens with
    | none => exact .productTail_of_none e left
    | some front => exact .tooDeep front.2 (by rw [Formula.productTail, e])
  sumTail left tokens := by
    cases e : operatorAtFront Token.sumOperator? tokens with
    | none => exact .sumTail_of_none e left
    | some front => exact .tooDeep front.2 (by rw [Formula.sumTail, e])

/-- Reading an operand one level up is guided. -/
lemma operand_succ (lookahead : Lookahead room) (tokens : List Lexeme) :
    Guided Grammar.operands Formula.operand (room + 1) tokens := by
  refine .succ ?_
  by_cases negated : tokens.head?.map Lexeme.token = some .minus
  case pos =>
    obtain ⟨start, rest, rfl⟩ := front_of_head? negated
    have arg := (lookahead.operand rest).map .neg
    refine .mono (.cons ⟨start, .minus⟩ arg fun _ _ => ?_) (Grammar.sign_mul_operands_le .minus)
    rw [operand_succ_eq]
  case neg =>
    by_cases marked : tokens.head?.map Lexeme.token = some .plus
    case pos =>
      obtain ⟨start, rest, rfl⟩ := front_of_head? marked
      have arg := lookahead.operand rest
      refine .mono (.cons ⟨start, .plus⟩ arg fun _ _ => ?_) (Grammar.sign_mul_operands_le .plus)
      rw [operand_succ_eq]
    case neg =>
      refine .mono ((lookahead.power tokens).of_eq fun _ tokens' same => ?_) Grammar.powers_le_operands
      rw [← same] at negated marked
      rw [operand_succ_eq]
      split
      case h_1 => exact absurd rfl negated
      case h_2 => exact absurd rfl marked
      case h_3 => rfl

/-- Reading the rest of a product one level up is guided. -/
lemma productTail_succ (lookahead : Lookahead room) (left : Expr) (tokens : List Lexeme) :
    Guided Grammar.productTails (fun room => Formula.productTail room left) (room + 1) tokens := by
  cases e : operatorAtFront Token.productOperator? tokens with
  | none => exact .productTail_of_none e left
  | some front =>
    obtain ⟨op, rest⟩ := front
    obtain ⟨⟨start, token⟩, rfl, ho⟩ := operatorAtFront_eq_some e
    obtain ⟨scale, rfl, rfl⟩ := productOperator?_eq_some ho
    have behind := (lookahead.operand rest).bind
      (fun right => lookahead.productTail (.binary scale.operator left right)) ⟨_, .done, rfl⟩
    have whole : Guided _ (fun room => Formula.productTail (room + 1) left) room _ :=
      behind.cons ⟨start, scale.token⟩ fun room' rest' => by
        cases scale <;> rw [Formula.productTail] <;> rfl
    exact .succ (whole.mono (Grammar.scale_mul_le_productTails scale))

/-- Reading the rest of a sum one level up is guided. -/
lemma sumTail_succ (lookahead : Lookahead room) (left : Expr) (tokens : List Lexeme) :
    Guided Grammar.sumTails (fun room => Formula.sumTail room left) (room + 1) tokens := by
  cases e : operatorAtFront Token.sumOperator? tokens with
  | none => exact .sumTail_of_none e left
  | some front =>
    obtain ⟨op, rest⟩ := front
    obtain ⟨⟨start, token⟩, rfl, ho⟩ := operatorAtFront_eq_some e
    obtain ⟨sign, rfl, rfl⟩ := sumOperator?_eq_some ho
    have behind := (lookahead.product rest).bind
      (fun right => lookahead.sumTail (.binary sign.operator left right)) ⟨_, .done, rfl⟩
    have whole : Guided _ (fun room => Formula.sumTail (room + 1) left) room _ :=
      behind.cons ⟨start, sign.token⟩ fun room' rest' => by
        cases sign <;> rw [sumTail_succ_eq] <;> rfl
    exact .succ (whole.mono (Grammar.sign_mul_le_sumTails sign))

end Lookahead

/-- Whatever the number of levels left, the readers are guided by the next token. -/
lemma lookahead (room : ℕ) : Lookahead room := by
  -- The readers call each other with one level less, so all of them are proved at once.
  induction room with
  | zero => exact .zero
  | succ room ih => exact ⟨ih.operand_succ, ih.productTail_succ, ih.sumTail_succ⟩

/-- Tokens are no formula if they are not read as a sum to the end, however many levels there are from
some number on. -/
lemma not_mem_sums {tokens : List Lexeme} (room : ℕ)
    (h : ∀ room' expr, room ≤ room' → sum room' tokens ≠ .ok (expr, [])) :
    tokens.map Lexeme.token ∉ Grammar.sums := by
  rintro ⟨phrase, e⟩
  have enough : phrase.charge ≤ max room phrase.charge := Nat.le_max_right _ _
  obtain ⟨rest, e', none⟩ := (complete _).sum enough (e.symm.trans (List.append_nil _).symm) Stops.nil
  cases List.map_eq_nil_iff.mp none
  exact h _ _ (Nat.le_max_left _ _) e'

/-- A fault, unless it is about nesting, stands behind the longest beginning that some formula has. -/
lemma parseTokens_fault {tokens : List Lexeme} {position : Option ℕ} {fault : Fault}
    (h : parseTokens tokens = .error (.fault position fault)) (shallow : fault ≠ .tooDeep) :
    ∃ taken rest, tokens = taken ++ rest ∧ position = rest.head?.map Lexeme.start ∧
      Viable Grammar.sums taken ∧ ∀ rest' : List Lexeme, rest'.head? = rest.head? →
        (taken ++ rest').map Lexeme.token ∉ Grammar.sums := by
  have guided := (lookahead maxDepth).sum tokens
  rcases bind_eq_error_iff.mp h with e | ⟨⟨expr, rest⟩, e, e'⟩
  · obtain ⟨taken, rest, split, place, viable, foreseen⟩ := guided.refuses e shallow
    refine ⟨taken, rest, split, place, viable, fun rest' same => ?_⟩
    refine not_mem_sums maxDepth fun room _ le e => ?_
    cases (foreseen le same).symm.trans e
  · obtain ⟨taken, split, mem, foreseen⟩ := guided.takes e
    cases rest with
    | nil => cases e'
    | cons lexeme behind =>
      cases e'
      refine ⟨taken, lexeme :: behind, split, rfl, ⟨_, mem, List.prefix_rfl⟩, fun rest' same => ?_⟩
      refine not_mem_sums maxDepth fun room _ le e => ?_
      obtain ⟨-, rfl⟩ := Prod.mk.inj (Except.ok.inj ((foreseen le same).symm.trans e))
      cases same

/-- A filter that passes the first part of a list and nothing of the second leaves the first. -/
lemma filter_append_eq_left {taken rest : List Lexeme} {p : Lexeme → Bool}
    (inside : ∀ lexeme ∈ taken, p lexeme = true) (outside : ∀ lexeme ∈ rest, ¬ p lexeme = true) :
    (taken ++ rest).filter p = taken := by
  rw [List.filter_append, List.filter_eq_self.mpr inside, List.filter_eq_nil_iff.mpr outside,
    List.append_nil]

/-- In the order of their positions, a token parts the ones in front of it from those behind it. -/
lemma filter_sorted {taken behind : List Lexeme} {lexeme : Lexeme}
    (sorted : (taken ++ lexeme :: behind).Pairwise fun first second => first.start < second.start) :
    (taken ++ lexeme :: behind).filter (·.start < lexeme.start) = taken ∧
      (taken ++ lexeme :: behind).filter (·.start ≤ lexeme.start) = taken ++ [lexeme] := by
  obtain ⟨-, sorted, across⟩ := List.pairwise_append.mp sorted
  have earlier (first : Lexeme) (mem : first ∈ taken) : first.start < lexeme.start :=
    across first mem lexeme List.mem_cons_self
  have later (second : Lexeme) (mem : second ∈ behind) : lexeme.start < second.start :=
    List.rel_of_pairwise_cons sorted mem
  constructor
  · refine filter_append_eq_left (fun first mem => decide_eq_true (earlier first mem)) ?_
    simp only [decide_eq_true_eq, Nat.not_lt]
    exact List.forall_mem_cons.mpr ⟨le_rfl, fun second mem => (later second mem).le⟩
  · rw [List.append_cons]
    refine filter_append_eq_left (fun first mem => decide_eq_true ?_) ?_
    · rcases List.mem_append.mp mem with before | here
      · exact (earlier first before).le
      · rw [List.mem_singleton.mp here]
    · simp only [decide_eq_true_eq, Nat.not_le]
      exact later

/-- A formula with an error in its syntax is refused at the first wrong token, unless it is nested too
deeply. The tokens in front of the position could go on as a formula. Either the position is the end
and the tokens are no formula as they are, or no formula begins with these tokens and the one at the
position. -/
theorem parse_refuses_first_wrong {formula : String} {lexemes : List Lexeme} {error : CompileError}
    {position : ℕ} {fault : Fault} (found : lex formula.toList = .ok lexemes)
    (refused : parse formula = .error error) (cause : error.cause = .invalid position fault)
    (shallow : fault ≠ .tooDeep) :
    Viable Grammar.sums (lexemes.filter (·.start < position)) ∧
      (position = formula.length ∧ lexemes.map Lexeme.token ∉ Grammar.sums ∨
        (∃ lexeme ∈ lexemes, lexeme.start = position) ∧
          ¬ Viable Grammar.sums (lexemes.filter (·.start ≤ position))) := by
  obtain ⟨_, defect, rfl⟩ := parse_eq_error_iff.mp refused
  obtain rfl : _ = CompileCause.invalid position fault := cause
  obtain ⟨place, stopped, counted⟩ := defect.parseTokens_of_invalid found
  obtain ⟨taken, rest, rfl, rfl, viable, wrong⟩ := parseTokens_fault stopped shallow
  have placed := placed_of_lexAfter found
  cases rest with
  | nil =>
    obtain rfl : formula.toList.length = position := counted
    have before : (taken ++ []).filter (·.start < formula.toList.length) = taken := by
      refine filter_append_eq_left (fun lexeme mem => ?_) nofun
      have lt := placed.start_lt lexeme (List.mem_append_left [] mem)
      rw [Nat.zero_add] at lt
      exact decide_eq_true lt
    rw [before]
    exact ⟨viable, .inl ⟨rfl, wrong [] rfl⟩⟩
  | cons lexeme behind =>
    obtain rfl : lexeme.start = position := counted
    obtain ⟨before, through⟩ := filter_sorted placed.sorted
    rw [before, through]
    refine ⟨viable, .inr ⟨⟨lexeme, List.mem_append_right _ List.mem_cons_self, rfl⟩, ?_⟩⟩
    rintro ⟨word, mem, more, e⟩
    -- What completes these tokens to a formula could stand behind them.
    have whole : (taken ++ lexeme :: more.map (Lexeme.mk 0)).map Lexeme.token = word := by
      rw [← e, List.append_cons, List.map_append, map_token_mk]
    refine wrong (lexeme :: more.map (Lexeme.mk 0)) rfl ?_
    rw [whole]
    exact mem

/-- Where an operator is missing, the token behind the gap is the first wrong one. -/
theorem parse_refuses_missing_operator :
    let bracketed : List Lexeme :=
      [⟨0, .opening⟩, ⟨1, .name "x"⟩, ⟨3, .plus⟩, ⟨5, .number 2.0⟩, ⟨6, .closing⟩]
    lex "(x + 2) x".toList = .ok (bracketed ++ [⟨8, .name "x"⟩]) ∧
      parse "(x + 2) x" = .error { typed := "(x + 2) x", parsed := "(x + 2) x"
                                   cause := .invalid 8 (.unexpected (some (.name "x"))) } ∧
      Fault.unexpected (some (.name "x")) ≠ .tooDeep ∧ Viable Grammar.sums bracketed ∧
      ¬ Viable Grammar.sums (bracketed ++ [⟨8, .name "x"⟩]) := by
  intro bracketed
  have found : lex "(x + 2) x".toList = .ok (bracketed ++ [⟨8, .name "x"⟩]) := by decide +kernel
  have refused : parse "(x + 2) x" = .error { typed := "(x + 2) x", parsed := "(x + 2) x"
                                              cause := .invalid 8 (.unexpected (some (.name "x"))) } := by
    decide +kernel
  obtain ⟨viable, ⟨atEnd, -⟩ | ⟨-, wrong⟩⟩ := parse_refuses_first_wrong found refused rfl nofun
  · cases atEnd
  · exact ⟨found, refused, nofun, viable, wrong⟩

end Stepwise.Formula
