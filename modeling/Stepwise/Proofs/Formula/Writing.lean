import Stepwise.Proofs.Decimal.Plain
import Stepwise.Proofs.Formula.Explicit
import Stepwise.Proofs.Formula.Nesting

/-!
# How expressions are written

The text of an expression writes a phrase of the grammar in which every operation is in brackets. A
constant below zero is in brackets too, and its sign is a sign of the phrase. The negative zero is not
below zero, so its sign stands there without brackets: a power of it is written as a sign in front of a
power of zero.
-/

namespace Stepwise.Formula

/-- The constants of an expression. -/
def Expr.constants : Expr → List Float
  | var => []
  | const value => [value]
  | binary _ left right => left.constants ++ right.constants
  | neg arg => arg.constants
  | call _ arg => arg.constants

/-- The constants that are printed without a minus sign. -/
structure Unsigned (value : Float) : Prop where
  finite : value.isFinite = true
  nonneg : ¬ value < 0.0
  ne : value ≠ -0.0

/-- The token of an operator. -/
def Operator.token : Operator → Token
  | add => .plus
  | sub => .minus
  | mul => .star
  | div => .slash
  | pow => .power

namespace Grammar

/-- A primary as an operand, with neither sign nor exponent. -/
def Primary.operand (phrase : Primary) : Operand :=
  .unsigned (.plain phrase)

/-- An operand as a sum of its own. -/
def Operand.sum (phrase : Operand) : Sum :=
  .mk (.mk phrase .done) .done

/-- An operand with `**` and an exponent behind it: the power is that of its last primary. -/
def Operand.raise : Operand → Operand → Operand
  | .signed sign arg, exponent => .signed sign (arg.raise exponent)
  | .unsigned (.plain base), exponent => .unsigned (.raised base exponent)
  | .unsigned (.raised base inner), exponent => .unsigned (.raised base (inner.raise exponent))

/-- Two operands with an operator between them. -/
def joined (left right : Operand) : Operator → Sum
  | .add => .mk (.mk left .done) (.more .plus (.mk right .done) .done)
  | .sub => .mk (.mk left .done) (.more .minus (.mk right .done) .done)
  | .mul => .mk (.mk left (.more .times right .done)) .done
  | .div => .mk (.mk left (.more .divide right .done)) .done
  | .pow => (left.raise right).sum

/-- A minus sign and an operand, in brackets. -/
def negated (arg : Operand) : Operand :=
  (Primary.group (Operand.signed .minus arg).sum).operand

/-- The phrase that an expression is written as. -/
def written : Expr → Operand
  | .var => Primary.var.operand
  | .const value =>
    if value < 0.0 then negated (Primary.number (-value)).operand
    else if value = -0.0 then .signed .minus (Primary.number 0.0).operand
    else (Primary.number value).operand
  | .binary op left right => (Primary.group (joined (written left) (written right) op)).operand
  | .neg arg => negated (written arg)
  | .call f arg => (Primary.call f (written arg).sum).operand

/-- A primary is spelled the same as an operand. -/
lemma Primary.tokens_operand (phrase : Primary) : phrase.operand.tokens = phrase.tokens :=
  rfl

/-- As an operand a primary takes one level more. -/
lemma Primary.charge_operand (phrase : Primary) : phrase.operand.charge = phrase.charge + 1 :=
  rfl

/-- An operand is spelled the same as a sum. -/
lemma Operand.tokens_sum (phrase : Operand) : phrase.sum.tokens = phrase.tokens := by
  simp only [sum, Sum.tokens, SumTail.tokens, Product.tokens, ProductTail.tokens, List.append_nil]

/-- As a sum an operand takes no level more. -/
lemma Operand.charge_sum (phrase : Operand) : phrase.sum.charge = phrase.charge := by
  simp only [sum, Sum.charge, SumTail.charge, Product.charge, ProductTail.charge, Nat.max_zero]

/-- A raised operand is spelled with `**` and the exponent behind it. -/
lemma Operand.tokens_raise : (phrase exponent : Operand) →
    (phrase.raise exponent).tokens = phrase.tokens ++ .power :: exponent.tokens
  | .signed sign arg, exponent => congrArg (sign.token :: ·) (arg.tokens_raise exponent)
  | .unsigned (.plain base), exponent => rfl
  | .unsigned (.raised base inner), exponent => by
    simp only [raise, tokens, Power.tokens, inner.tokens_raise exponent, List.append_assoc,
      List.cons_append]

/-- Joined operands are spelled with the operator between them. -/
lemma joined_tokens (left right : Operand) (op : Operator) :
    (joined left right op).tokens = left.tokens ++ op.token :: right.tokens := by
  cases op with
  | pow => rw [joined, Operand.tokens_sum, Operand.tokens_raise, Operator.token]
  | _ => simp [joined, Sum.tokens, SumTail.tokens, Product.tokens, ProductTail.tokens, Operator.token,
      Sign.token, Scale.token]

/-- A negated operand is spelled with a minus sign and in brackets. -/
lemma negated_tokens (arg : Operand) :
    (negated arg).tokens = .opening :: .minus :: (arg.tokens ++ [.closing]) := by
  rw [negated, Primary.tokens_operand, Primary.tokens, Operand.tokens_sum]
  rfl

end Grammar

section Text

variable {expr : Expr} {value : Float} {text : List Char} {tokens : List Token}

/-- How an operation is printed. -/
lemma toList_binary (op : Operator) (left right : Expr) :
    (Expr.binary op left right).print.toList =
      '(' :: (left.print.toList ++ ' ' :: (op.sign.toList ++ ' ' :: right.print.toList) ++ [')']) := by
  simp [Expr.print, String.toList_append]

/-- How a negation is printed. -/
lemma toList_neg (arg : Expr) :
    (Expr.neg arg).print.toList = '(' :: ('-' :: arg.print.toList ++ [')']) := by
  simp [Expr.print, String.toList_append]

/-- How a call is printed. -/
lemma toList_call (f : Function) (arg : Expr) :
    (Expr.call f arg).print.toList = f.name.toList ++ '(' :: (arg.print.toList ++ [')']) := by
  simp [Expr.print, String.toList_append]

namespace Unsigned

/-- An unsigned constant is printed as its shortest digits. -/
lemma toList (h : Unsigned value) :
    (Expr.const value).print.toList = Decimal.Layout.plain.chars value := by
  rw [Expr.print, if_neg h.nonneg]
  exact String.toList_ofList

/-- The text of an unsigned constant is read as its value. -/
lemma read (h : Unsigned value) :
    Decimal.readUnsigned? (Expr.const value).print.toList = some value := by
  rw [h.toList]
  exact Decimal.readUnsigned?_chars h.finite h.nonneg h.ne

/-- The text of an unsigned constant has the form of a number. -/
lemma numeral (h : Unsigned value) : Numeral (Expr.const value).print.toList := by
  obtain ⟨amount, read, -⟩ := Option.map_eq_some_iff.mp h.read
  exact .of_read? read

end Unsigned

/-- A constant below zero is printed like its opposite with a minus sign in front. -/
lemma print_const_of_lt_zero (finite : value.isFinite = true) (neg : value < 0.0) :
    Unsigned (-value) ∧ (Expr.const value).print = (Expr.neg (.const (-value))).print := by
  obtain ⟨chars, finite', nonneg, ne⟩ := Decimal.chars_of_lt_zero finite neg
  have unsigned : Unsigned (-value) := ⟨finite', nonneg, ne⟩
  refine ⟨unsigned, ?_⟩
  rw [← String.toList_inj, toList_neg, unsigned.toList, Expr.print, if_pos neg]
  simp [Decimal.text, Decimal.Layout.write, chars]

/-- A finite constant is printed without a minus sign, or it is the negative zero, or below zero. -/
lemma unsigned_or (finite : value.isFinite = true) :
    value < 0.0 ∨ value = -0.0 ∨ Unsigned value := by
  by_cases neg : value < 0.0
  case pos => exact .inl neg
  case neg =>
    by_cases zero : value = -0.0
    case pos => exact .inr (.inl zero)
    case neg => exact .inr (.inr ⟨finite, neg, zero⟩)

/-- The negative zero has no brackets of its own. -/
lemma toList_negative_zero : (Expr.const (-0.0)).print.toList = ['-', '0'] := by
  decide +kernel

/-- The name of a symbol spells its token. -/
lemma Symbol.spelling (symbol : Symbol) : (Token.name symbol.name).Spelling symbol.name.toList := by
  have shape : ∃ c word, symbol.name.toList = c :: word ∧ startsName c = true ∧
      word.all continuesName = true := by
    match symbol with
    | .variable => exact ⟨_, _, rfl, rfl, rfl⟩
    | .constant c => cases c <;> exact ⟨_, _, rfl, rfl, rfl⟩
    | .function f => cases f <;> exact ⟨_, _, rfl, rfl, rfl⟩
  obtain ⟨c, word, e, starts, continues⟩ := shape
  have name := Token.Spelling.name starts (List.all_eq_true.mp continues)
  rwa [← e, String.ofList_toList] at name

/-- The sign of an operator spells its token. -/
lemma Operator.spelling (op : Operator) : op.token.Spelling op.sign.toList := by
  cases op with
  | add => exact .plus
  | sub => exact .minus
  | mul => exact .star
  | div => exact .slash
  | pow => exact .power

/-- An operator ends where a gap follows it. -/
lemma Operator.apart (op : Operator) (text : List Char) :
    op.token.Apart op.sign.toList (' ' :: text) := by
  cases op with
  | mul =>
    rintro c ⟨⟩
    decide
  | _ => trivial

section Writes

/-- An opening bracket can be written in front of any text. -/
lemma Writes.opening (writes : Writes text tokens) : Writes ('(' :: text) (.opening :: tokens) :=
  .token .opening trivial writes

/-- A closing bracket can be written in front of any text. -/
lemma Writes.closing (writes : Writes text tokens) : Writes (')' :: text) (.closing :: tokens) :=
  .token .closing trivial writes

/-- A minus sign can be written in front of any text. -/
lemma Writes.minus (writes : Writes text tokens) : Writes ('-' :: text) (.minus :: tokens) :=
  .token .minus trivial writes

/-- A space can be put in front of any text. -/
lemma Writes.space (writes : Writes text tokens) : Writes (' ' :: text) tokens :=
  .gap rfl writes

/-- A text writes some tokens wherever its last word ends. What may follow a word decides how far the word
goes, so a text is written from its end. -/
def WritesAlone (text : List Char) (tokens : List Token) : Prop :=
  ∀ ⦃rest after⦄, Breaks rest → Writes rest after → Writes (text ++ rest) (tokens ++ after)

namespace WritesAlone

variable {text' : List Char} {tokens' : List Token}

/-- An unsigned constant writes its number. -/
lemma number (h : Unsigned value) : WritesAlone (Expr.const value).print.toList [.number value] :=
  fun _ _ breaks writes => .token (.number h.read h.finite) (h.numeral.numberAtFront breaks) writes

/-- A minus sign in front of a text writes its token in front of the others. -/
lemma minus (h : WritesAlone text tokens) : WritesAlone ('-' :: text) (.minus :: tokens) :=
  fun _ _ breaks writes => (h breaks writes).minus

/-- Brackets around a text write their tokens around the others. -/
lemma brackets (h : WritesAlone text tokens) :
    WritesAlone ('(' :: (text ++ [')'])) (.opening :: (tokens ++ [.closing])) := by
  intro rest after breaks writes
  have inside := (h (.cons (by decide)) writes.closing).opening
  simpa only [List.cons_append, List.append_assoc, List.nil_append] using inside

/-- Two texts with an operator and spaces between them write the operator between their tokens. -/
lemma joined (h : WritesAlone text tokens) (op : Operator) (h' : WritesAlone text' tokens') :
    WritesAlone (text ++ ' ' :: (op.sign.toList ++ ' ' :: text')) (tokens ++ op.token :: tokens') := by
  intro rest after breaks writes
  have operator := Writes.token op.spelling (op.apart _) (h' breaks writes).space
  have whole := h (.cons (by decide)) operator.space
  simpa only [List.cons_append, List.append_assoc] using whole

/-- The name of a function and a text in brackets write a call. -/
lemma call (f : Function) (h : WritesAlone text tokens) :
    WritesAlone (f.name.toList ++ '(' :: (text ++ [')']))
      (.name f.name :: .opening :: (tokens ++ [.closing])) := by
  intro rest after breaks writes
  have arg := h.brackets breaks writes
  rw [List.append_assoc]
  exact .token (Symbol.spelling (.function f)) (fun c mem => by cases mem; rfl) arg

/-- Printing an expression writes the tokens of its phrase. -/
lemma print (finite : ∀ value ∈ expr.constants, value.isFinite = true) :
    WritesAlone expr.print.toList (Grammar.written expr).tokens := by
  induction expr with
  | var => exact fun _ _ breaks writes => .token (Symbol.spelling .variable) (breaks.not_head rfl) writes
  | const value =>
    have finite := finite value (List.mem_singleton.mpr rfl)
    rw [Grammar.written]
    split
    case isTrue neg =>
      obtain ⟨unsigned, e⟩ := print_const_of_lt_zero finite neg
      rw [e, toList_neg, Grammar.negated_tokens]
      exact (number unsigned).minus.brackets
    case isFalse nonneg =>
      split
      case isTrue zero =>
        have unsigned : Unsigned 0.0 := ⟨rfl, by decide, by decide⟩
        have digits : (Expr.const 0.0).print.toList = ['0'] := by decide +kernel
        rw [zero, toList_negative_zero, ← digits]
        exact (number unsigned).minus
      case isFalse ne => exact number ⟨finite, nonneg, ne⟩
  | binary op left right ihl ihr =>
    obtain ⟨finite_left, finite_right⟩ := List.forall_mem_append.mp finite
    rw [toList_binary, Grammar.written, Grammar.Primary.tokens_operand, Grammar.Primary.tokens,
      Grammar.joined_tokens]
    exact ((ihl finite_left).joined op (ihr finite_right)).brackets
  | neg arg ih =>
    rw [toList_neg, Grammar.written, Grammar.negated_tokens]
    exact (ih finite).minus.brackets
  | call f arg ih =>
    rw [toList_call, Grammar.written, Grammar.Primary.tokens_operand, Grammar.Primary.tokens,
      Grammar.Operand.tokens_sum]
    exact (ih finite).call f

end WritesAlone

end Writes

/-- A text whose brackets match by themselves. -/
def Matched (text : List Char) : Prop :=
  ∀ depth rest, balancedWithin depth (text ++ rest) = balancedWithin depth rest

/-- Is this a character other than a bracket? -/
def isPlain (c : Char) : Bool :=
  c != '(' && c != ')'

/-- Digits are no brackets. -/
lemma isPlain_of_isDigit {c : Char} (h : c.isDigit = true) : isPlain c = true := by
  rw [isPlain, Bool.and_eq_true, bne_iff_ne, bne_iff_ne]
  exact ⟨ne_of_isDigit h rfl, ne_of_isDigit h rfl⟩

namespace Matched

variable {first second : List Char}

/-- A text without brackets is matched. -/
lemma of_isPlain (h : ∀ c ∈ text, isPlain c = true) : Matched text := by
  refine balancedWithin_append fun c mem => ?_
  simpa only [isPlain, Bool.and_eq_true, bne_iff_ne] using h c mem

/-- Matched texts behind each other are matched. -/
lemma append (h : Matched first) (h' : Matched second) : Matched (first ++ second) := by
  intro depth rest
  rw [List.append_assoc, h, h']

/-- A character that is no bracket can stand in front of a matched text. -/
lemma cons {c : Char} (plain : isPlain c = true) (h : Matched text) : Matched (c :: text) :=
  (of_isPlain (List.forall_mem_singleton.mpr plain)).append h

/-- Brackets around a matched text match. -/
lemma brackets (h : Matched text) : Matched ('(' :: (text ++ [')'])) := by
  intro depth rest
  rw [List.cons_append, List.append_assoc]
  exact h (depth + 1) (')' :: rest)

/-- The text of an unsigned constant is matched. -/
lemma number (h : Unsigned value) : Matched (Expr.const value).print.toList :=
  .of_isPlain (h.numeral.forall_mem (fun _ => isPlain_of_isDigit) rfl)

/-- The text of an expression of finite constants is matched. -/
lemma printed (finite : ∀ value ∈ expr.constants, value.isFinite = true) :
    Matched expr.print.toList := by
  induction expr with
  | var => exact .of_isPlain (List.all_eq_true.mp rfl)
  | const value =>
    have finite := finite value (List.mem_singleton.mpr rfl)
    rcases unsigned_or finite with neg | rfl | unsigned
    · obtain ⟨unsigned, e⟩ := print_const_of_lt_zero finite neg
      rw [e, toList_neg]
      exact (Matched.cons rfl (number unsigned)).brackets
    · rw [toList_negative_zero]
      exact .of_isPlain (List.all_eq_true.mp rfl)
    · exact number unsigned
  | binary op left right ihl ihr =>
    obtain ⟨finite_left, finite_right⟩ := List.forall_mem_append.mp finite
    have sign : Matched op.sign.toList :=
      .of_isPlain (by cases op <;> exact List.all_eq_true.mp rfl)
    rw [toList_binary]
    exact ((ihl finite_left).append (.cons rfl (sign.append (.cons rfl (ihr finite_right))))).brackets
  | neg arg ih =>
    rw [toList_neg]
    exact (Matched.cons rfl (ih finite)).brackets
  | call f arg ih =>
    have name : Matched f.name.toList := .of_isPlain (by cases f <;> exact List.all_eq_true.mp rfl)
    rw [toList_call]
    exact name.append (ih finite).brackets

end Matched

/-- No printed expression is blank. -/
lemma exists_ink_print (finite : ∀ value ∈ expr.constants, value.isFinite = true) :
    ∃ c ∈ expr.print.toList, Text.isBlank c = false := by
  cases expr with
  | var => exact ⟨'x', List.mem_singleton.mpr rfl, rfl⟩
  | const value =>
    have finite := finite value (List.mem_singleton.mpr rfl)
    rcases unsigned_or finite with neg | rfl | unsigned
    · rw [(print_const_of_lt_zero finite neg).2, toList_neg]
      exact ⟨'(', List.mem_cons_self .., rfl⟩
    · rw [toList_negative_zero]
      exact ⟨'-', List.mem_cons_self .., rfl⟩
    · obtain ⟨c, mem⟩ := List.exists_mem_of_ne_nil _ unsigned.numeral.ne_nil
      have ink := unsigned.numeral.forall_mem (fun _ => isInk_of_isDigit) rfl c mem
      exact ⟨c, mem, not_isBlank_of_isInk ink⟩
  | binary op left right => exact ⟨'(', by rw [toList_binary]; exact List.mem_cons_self .., rfl⟩
  | neg arg => exact ⟨'(', by rw [toList_neg]; exact List.mem_cons_self .., rfl⟩
  | call f arg => exact ⟨'(', by rw [toList_call]; simp, rfl⟩

end Text

/-- What is neither blank nor unbalanced is parsed as its tokens. -/
lemma parseChars_of_lex {text : List Char} {lexemes : List Lexeme}
    (ink : ∃ c ∈ text, Text.isBlank c = false) (matched : balanced text = true)
    (lexed : lex text = .ok lexemes) :
    parseChars text = (parseTokens lexemes).mapError (ParseError.cause text.length) := by
  have some : ¬ text.all Text.isBlank = true := by
    obtain ⟨c, mem, notBlank⟩ := ink
    exact fun all => Bool.false_ne_true (notBlank.symm.trans (List.all_eq_true.mp all c mem))
  unfold parseChars
  rw [if_neg some, matched, lexed]
  rfl

/-- A text that writes a sum is read as the sum, unless that is nested too deeply. -/
lemma parse_of_writes {text : String} {phrase : Grammar.Sum}
    (ink : ∃ c ∈ text.toList, Text.isBlank c = false) (matched : balanced text.toList = true)
    (writes : Writes text.toList phrase.tokens) :
    (phrase.charge ≤ maxDepth → parse text = .ok phrase.tree) ∧
      (maxDepth < phrase.charge → ∃ position,
        parse text = .error { typed := text, parsed := text, cause := .invalid position .tooDeep }) := by
  obtain ⟨lexemes, lexed, spelled⟩ := lex_eq_ok_iff.mpr writes
  obtain ⟨fits, deep⟩ := parseTokens_of_spelled spelled.symm
  rw [parse, parseChars_of_lex ink matched lexed]
  refine ⟨fun c => ?_, fun c => ?_⟩
  · rw [fits c]
    rfl
  · obtain ⟨position, e⟩ := deep c
    exact ⟨position.getD text.toList.length, by rw [e]; rfl⟩

/-- A printed expression is read as the tree of its phrase, unless that is nested too deeply. -/
lemma parse_written {expr : Expr} (finite : ∀ value ∈ expr.constants, value.isFinite = true) :
    ((Grammar.written expr).charge ≤ maxDepth →
        parse expr.print = .ok (Grammar.written expr).tree) ∧
      (maxDepth < (Grammar.written expr).charge → ∃ position, parse expr.print =
        .error { typed := expr.print, parsed := expr.print, cause := .invalid position .tooDeep }) := by
  have writes := WritesAlone.print finite .nil .nil
  have matched := Matched.printed finite 0 []
  rw [List.append_nil, List.append_nil, ← Grammar.Operand.tokens_sum] at writes
  rw [List.append_nil] at matched
  rw [← Grammar.Operand.charge_sum]
  exact parse_of_writes (exists_ink_print finite) matched writes

end Stepwise.Formula
