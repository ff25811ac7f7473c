import Stepwise.Proofs.Formula.Reading

/-!
# Phrases that are nested too deeply

The readers take the phrases that fit into the levels left. A phrase that needs more is refused, and the
reason is its nesting: whatever stands in front of the place where the levels run out has been taken.
-/

namespace Stepwise.Formula

/-- A reader gives up where the levels run out. -/
def TooDeep {α : Type} (outcome : Except ParseError α) : Prop :=
  ∃ position, outcome = .error (.fault position .tooDeep)

namespace TooDeep

variable {α β : Type}

/-- A refusal for want of levels is one. -/
lemma refuse (rest : List Lexeme) : TooDeep (α := α) (refuse rest .tooDeep) :=
  ⟨_, rfl⟩

/-- What gives up at its first step gives up. -/
lemma bind {outcome : Except ParseError α} (h : TooDeep outcome) (f : α → Except ParseError β) :
    TooDeep (outcome >>= f) := by
  obtain ⟨position, rfl⟩ := h
  exact ⟨position, rfl⟩

/-- What goes on after a reader that takes something gives up if the next reader does. -/
lemma bind_of_ok {outcome : Except ParseError α} {a : α} (h : outcome = .ok a)
    {f : α → Except ParseError β} (h' : TooDeep (f a)) : TooDeep (outcome >>= f) := by
  rw [h]
  exact h'

end TooDeep

/-- Of two phrases that do not both fit, the second one does not if the first one does. -/
lemma lt_second {room first second : Nat} (c : room < max first second) (fits : first ≤ room) :
    room < second := by
  omega

/-- With `room` levels left, every reader gives up on the phrases that need more levels. -/
structure Refuses (room : Nat) : Prop where
  operand : ∀ {phrase : Grammar.Operand} {tokens after}, room < phrase.charge →
    tokens.map Lexeme.token = phrase.tokens ++ after → Stops 3 after → TooDeep (operand room tokens)
  productTail : ∀ {phrase : Grammar.ProductTail} {after} (left) {tokens}, room < phrase.charge →
    tokens.map Lexeme.token = phrase.tokens ++ after → Stops 2 after →
    TooDeep (productTail room left tokens)
  sumTail : ∀ {phrase : Grammar.SumTail} {after} (left) {tokens}, room < phrase.charge →
    tokens.map Lexeme.token = phrase.tokens ++ after → Stops 1 after →
    TooDeep (sumTail room left tokens)

namespace Refuses

variable {room : Nat} {left : Expr} {tokens : List Lexeme} {after : List Token}

/-- A product that needs more levels is given up. -/
lemma product (refuses : Refuses room) {phrase : Grammar.Product} (c : room < phrase.charge)
    (h : tokens.map Lexeme.token = phrase.tokens ++ after) (stops : Stops 2 after) :
    TooDeep (product room tokens) := by
  obtain ⟨first, tail⟩ := phrase
  rw [Grammar.Product.tokens, List.append_assoc] at h
  -- A first operand that fits is taken, and the levels run out behind it.
  by_cases fits : first.charge ≤ room
  case pos =>
    obtain ⟨rest, e, h'⟩ := (complete room).operand fits h (.productTail tail stops)
    have deep := lt_second c fits
    exact .bind_of_ok e (refuses.productTail first.tree deep h' stops)
  case neg => exact (refuses.operand (Nat.lt_of_not_le fits) h (.productTail tail stops)).bind _

/-- A sum that needs more levels is given up. -/
lemma sum (refuses : Refuses room) {phrase : Grammar.Sum} (c : room < phrase.charge)
    (h : tokens.map Lexeme.token = phrase.tokens ++ after) (stops : Stops 1 after) :
    TooDeep (sum room tokens) := by
  obtain ⟨first, tail⟩ := phrase
  rw [Grammar.Sum.tokens, List.append_assoc] at h
  by_cases fits : first.charge ≤ room
  case pos =>
    obtain ⟨rest, e, h'⟩ := (complete room).product fits h (.sumTail tail stops)
    have deep := lt_second c fits
    exact .bind_of_ok e (refuses.sumTail first.tree deep h' stops)
  case neg => exact (refuses.product (Nat.lt_of_not_le fits) h (.sumTail tail stops)).bind _

/-- A sum in front of its closing bracket is given up if it needs more levels. -/
lemma bracketed (refuses : Refuses room) {phrase : Grammar.Sum} (c : room < phrase.charge)
    (h : tokens.map Lexeme.token = phrase.tokens ++ [.closing] ++ after) :
    TooDeep (Formula.sum room tokens) := by
  rw [List.append_assoc] at h
  exact refuses.sum c h (.cons Nat.one_pos)

/-- A primary that needs more levels is given up. -/
lemma primary (refuses : Refuses room) {phrase : Grammar.Primary} (c : room < phrase.charge)
    (h : tokens.map Lexeme.token = phrase.tokens ++ after) :
    TooDeep (primary (Formula.sum room) tokens) := by
  cases phrase with
  | number => cases c
  | var => cases c
  | constant => cases c
  | call f arg =>
    obtain ⟨start, rest, rfl, h1⟩ := front_of_map h
    obtain ⟨start', rest', rfl, h2⟩ := front_of_map h1
    have e : Symbol.ofName? f.name = some (.function f) := Symbol.ofName?_name (.function f)
    rw [primary_function e]
    exact (refuses.bracketed c h2).bind _
  | group inner =>
    obtain ⟨start, rest, rfl, h1⟩ := front_of_map h
    exact (refuses.bracketed c h1).bind _

/-- A power that needs more levels is given up. -/
lemma power (refuses : Refuses room) {phrase : Grammar.Power} (c : room < phrase.charge)
    (h : tokens.map Lexeme.token = phrase.tokens ++ after) (stops : Stops 3 after) :
    TooDeep (power (Formula.sum room) (Formula.operand room) tokens) := by
  cases phrase with
  | plain base => exact (refuses.primary c h).bind _
  | raised base exponent =>
    rw [Grammar.Power.tokens, List.append_assoc] at h
    by_cases fits : base.charge ≤ room
    case pos =>
      obtain ⟨rest, e, h1⟩ := (complete room).primary fits h
      obtain ⟨start, rest', rfl, h2⟩ := front_of_map h1
      have deep := lt_second c fits
      exact .bind_of_ok e ((refuses.operand deep h2 stops).bind _)
    case neg => exact (refuses.primary (Nat.lt_of_not_le fits) h).bind _

/-- Without a level left, every operand and every operator is too much. -/
lemma zero : Refuses 0 where
  operand _ _ _ := by
    rw [Formula.operand]
    exact .refuse _
  productTail {phrase} {after} left {tokens} c h _ := by
    cases phrase with
    | done => cases c
    | more scale next tail =>
      obtain ⟨start, rest, rfl, -⟩ := front_of_map h
      rw [Formula.productTail]
      cases scale <;> exact .refuse rest
  sumTail {phrase} {after} left {tokens} c h _ := by
    cases phrase with
    | done => cases c
    | more sign next tail =>
      obtain ⟨start, rest, rfl, -⟩ := front_of_map h
      rw [Formula.sumTail]
      cases sign <;> exact .refuse rest

/-- One level up, an operand that still needs more levels is given up. -/
lemma operand_succ (refuses : Refuses room) {phrase : Grammar.Operand}
    (c : room + 1 < phrase.charge) (h : tokens.map Lexeme.token = phrase.tokens ++ after)
    (stops : Stops 3 after) : TooDeep (Formula.operand (room + 1) tokens) := by
  rw [operand_succ_eq]
  cases phrase with
  | signed sign arg =>
    obtain ⟨start, rest, rfl, h1⟩ := front_of_map h
    have deep := refuses.operand (Nat.lt_of_succ_lt_succ c) h1 stops
    cases sign with
    | plus => exact deep
    | minus => exact deep.bind _
  | unsigned power =>
    obtain ⟨token, more, e, b⟩ := power.front
    have deep := refuses.power (Nat.lt_of_succ_lt_succ c) h stops
    rw [Grammar.Operand.tokens, e] at h
    split
    case h_1 => cases (List.cons.inj h).1; exact absurd b Nat.one_ne_zero
    case h_2 => cases (List.cons.inj h).1; exact absurd b Nat.one_ne_zero
    case h_3 => exact deep

/-- One level up, the rest of a product that still needs more levels is given up. -/
lemma productTail_succ (refuses : Refuses room) {phrase : Grammar.ProductTail} (left : Expr)
    {tokens : List Lexeme} (c : room + 1 < phrase.charge)
    (h : tokens.map Lexeme.token = phrase.tokens ++ after) (stops : Stops 2 after) :
    TooDeep (Formula.productTail (room + 1) left tokens) := by
  cases phrase with
  | done => cases c
  | more scale next tail =>
    rw [Grammar.ProductTail.tokens, List.cons_append, List.append_assoc] at h
    obtain ⟨start, rest, rfl, h1⟩ := front_of_map h
    have e : operatorAtFront Token.productOperator? (⟨start, scale.token⟩ :: rest) =
        some (scale.operator, rest) := by
      cases scale <;> rfl
    rw [Formula.productTail, e]
    by_cases fits : next.charge ≤ room
    case pos =>
      obtain ⟨behind, taken, h2⟩ := (complete room).operand fits h1 (.productTail tail stops)
      have deep := lt_second (Nat.lt_of_succ_lt_succ c) fits
      exact .bind_of_ok taken (refuses.productTail _ deep h2 stops)
    case neg => exact (refuses.operand (Nat.lt_of_not_le fits) h1 (.productTail tail stops)).bind _

/-- One level up, the rest of a sum that still needs more levels is given up. -/
lemma sumTail_succ (refuses : Refuses room) {phrase : Grammar.SumTail} (left : Expr)
    {tokens : List Lexeme} (c : room + 1 < phrase.charge)
    (h : tokens.map Lexeme.token = phrase.tokens ++ after) (stops : Stops 1 after) :
    TooDeep (Formula.sumTail (room + 1) left tokens) := by
  cases phrase with
  | done => cases c
  | more sign next tail =>
    rw [Grammar.SumTail.tokens, List.cons_append, List.append_assoc] at h
    obtain ⟨start, rest, rfl, h1⟩ := front_of_map h
    have e : operatorAtFront Token.sumOperator? (⟨start, sign.token⟩ :: rest) =
        some (sign.operator, rest) := by
      cases sign <;> rfl
    rw [sumTail_succ_eq, e]
    by_cases fits : next.charge ≤ room
    case pos =>
      obtain ⟨behind, taken, h2⟩ := (complete room).product fits h1 (.sumTail tail stops)
      have deep := lt_second (Nat.lt_of_succ_lt_succ c) fits
      exact .bind_of_ok taken (refuses.sumTail _ deep h2 stops)
    case neg => exact (refuses.product (Nat.lt_of_not_le fits) h1 (.sumTail tail stops)).bind _

end Refuses

/-- Whatever the number of levels left, the readers give up on all phrases that do not fit in. -/
lemma refuses (room : Nat) : Refuses room := by
  induction room with
  | zero => exact .zero
  | succ room ih => exact ⟨ih.operand_succ, ih.productTail_succ, ih.sumTail_succ⟩

/-- Tokens that spell a sum are read as its expression if the sum fits into the levels allowed, and are
refused as nested too deeply if it does not. -/
theorem parseTokens_of_spelled {tokens : List Lexeme} {phrase : Grammar.Sum}
    (h : phrase.tokens = tokens.map Lexeme.token) :
    (phrase.charge ≤ maxDepth → parseTokens tokens = .ok phrase.tree) ∧
      (maxDepth < phrase.charge → TooDeep (parseTokens tokens)) := by
  refine ⟨fun c => parseTokens_eq_ok_iff.mpr ⟨phrase, h, rfl, c⟩, fun c => ?_⟩
  exact ((refuses maxDepth).sum c (h.symm.trans (List.append_nil _).symm) Stops.nil).bind _

end Stepwise.Formula
