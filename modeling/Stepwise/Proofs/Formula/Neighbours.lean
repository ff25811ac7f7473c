import Stepwise.Proofs.Formula.Grammar
import Mathlib.Tactic.Common

/-!
# Which tokens follow each other

In a formula operands and operators take turns. An operand is a number or a name of a value, with signs
and opening brackets in front of it and closing brackets behind it. A name of a function stands right in
front of an opening bracket.
-/

namespace Stepwise.Formula

/-- What can come next in a formula. -/
inductive Place where
  | operand
  | operator

/-- The operators between operands. -/
def infixTokens : List Token :=
  [.plus, .minus, .star, .slash, .power]

/-- Tokens of which operands and operators take turns. -/
inductive Alternates : Place → List Token → Prop where
  | done : Alternates .operator []
  | number {value tokens} : Alternates .operator tokens → Alternates .operand (.number value :: tokens)
  | value {symbol : Symbol} {tokens} : (∀ f, symbol ≠ .function f) → Alternates .operator tokens →
    Alternates .operand (.name symbol.name :: tokens)
  | call {f : Function} {tokens} : Alternates .operand tokens →
    Alternates .operand (.name f.name :: .opening :: tokens)
  | opening {tokens} : Alternates .operand tokens → Alternates .operand (.opening :: tokens)
  | signed {sign : Grammar.Sign} {tokens} : Alternates .operand tokens →
    Alternates .operand (sign.token :: tokens)
  | closing {tokens} : Alternates .operator tokens → Alternates .operator (.closing :: tokens)
  | between {token tokens} : token ∈ infixTokens → Alternates .operand tokens →
    Alternates .operator (token :: tokens)

namespace Grammar

/-- A sign stands between operands. -/
lemma Sign.mem_infixTokens (sign : Sign) : sign.token ∈ infixTokens := by
  cases sign <;> decide

/-- A multiplication or division sign stands between operands. -/
lemma Scale.mem_infixTokens (scale : Scale) : scale.token ∈ infixTokens := by
  cases scale <;> decide

mutual

/-- Operands and operators take turns in a sum, if they do in what follows it. -/
lemma Sum.alternates : (phrase : Sum) → {tokens : List Token} → Alternates .operator tokens →
    Alternates .operand (phrase.tokens ++ tokens)
  | .mk first rest, tokens, h => by
    rw [Sum.tokens, List.append_assoc]
    exact first.alternates (rest.alternates h)

/-- In the rest of a sum operators and operands take turns. -/
lemma SumTail.alternates : (phrase : SumTail) → {tokens : List Token} → Alternates .operator tokens →
    Alternates .operator (phrase.tokens ++ tokens)
  | .done, tokens, h => h
  | .more sign next rest, tokens, h => by
    rw [SumTail.tokens, List.cons_append, List.append_assoc]
    exact .between sign.mem_infixTokens (next.alternates (rest.alternates h))

/-- In a product operands and operators take turns. -/
lemma Product.alternates : (phrase : Product) → {tokens : List Token} → Alternates .operator tokens →
    Alternates .operand (phrase.tokens ++ tokens)
  | .mk first rest, tokens, h => by
    rw [Product.tokens, List.append_assoc]
    exact first.alternates (rest.alternates h)

/-- In the rest of a product operators and operands take turns. -/
lemma ProductTail.alternates : (phrase : ProductTail) → {tokens : List Token} →
    Alternates .operator tokens → Alternates .operator (phrase.tokens ++ tokens)
  | .done, tokens, h => h
  | .more scale next rest, tokens, h => by
    rw [ProductTail.tokens, List.cons_append, List.append_assoc]
    exact .between scale.mem_infixTokens (next.alternates (rest.alternates h))

/-- An operand begins as one, with its signs. -/
lemma Operand.alternates : (phrase : Operand) → {tokens : List Token} → Alternates .operator tokens →
    Alternates .operand (phrase.tokens ++ tokens)
  | .signed sign arg, tokens, h => by
    rw [Operand.tokens, List.cons_append]
    exact .signed (arg.alternates h)
  | .unsigned power, tokens, h => power.alternates h

/-- In a power operands and operators take turns. -/
lemma Power.alternates : (phrase : Power) → {tokens : List Token} → Alternates .operator tokens →
    Alternates .operand (phrase.tokens ++ tokens)
  | .plain base, tokens, h => base.alternates h
  | .raised base exponent, tokens, h => by
    rw [Power.tokens, List.append_assoc, List.cons_append]
    exact base.alternates (.between (by decide) (exponent.alternates h))

/-- A primary is an operand, and an operator follows it. -/
lemma Primary.alternates : (phrase : Primary) → {tokens : List Token} → Alternates .operator tokens →
    Alternates .operand (phrase.tokens ++ tokens)
  | .number value, tokens, h => .number h
  | .var, tokens, h => @Alternates.value .variable _ nofun h
  | .constant c, tokens, h => @Alternates.value (.constant c) _ nofun h
  | .call f arg, tokens, h => by
    rw [Primary.tokens, List.cons_append, List.cons_append, List.append_assoc]
    exact .call (arg.alternates (.closing h))
  | .group inner, tokens, h => by
    rw [Primary.tokens, List.cons_append, List.append_assoc]
    exact .opening (inner.alternates (.closing h))

end

end Grammar

end Stepwise.Formula
