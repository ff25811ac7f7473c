import Stepwise.Proofs.Formula.Reading

/-!
# What holds of all readers

A reader takes nothing, passes over a token, goes on behind another reader, reads what is between a pair of
brackets, or refuses the tokens. What these steps keep holds of every reader, on whatever level.
-/

namespace Stepwise.Formula

/-- The steps of which readers are made keep a relation between tokens and what becomes of reading them. -/
structure Kept (P : List Lexeme → Parsed → Prop) : Prop where
  taken : ∀ expr rest, P rest (.ok (expr, rest))
  pass : ∀ {start token rest outcome}, token ≠ .opening → token ≠ .closing → P rest outcome →
    P (⟨start, token⟩ :: rest) outcome
  bind : ∀ {tokens outcome} {f : Expr × List Lexeme → Parsed}, P tokens outcome →
    (∀ expr rest, P rest (f (expr, rest))) → P tokens (outcome >>= f)
  bracketed : ∀ {start rest outcome} (build : Expr → Expr), P rest outcome →
    P (⟨start, .opening⟩ :: rest) (do
      let (inner, rest) ← outcome
      let rest ← closeBracket rest
      return (build inner, rest))
  refuse : ∀ {fault} tokens, fault ≠ .unclosed none → P tokens (refuse tokens fault)
  uncalled : ∀ f tokens, P tokens (.error (.uncalled f))
  unknownName : ∀ {name} tokens, Symbol.ofName? name = none → P tokens (.error (.unknownName name))

/-- With `room` levels left, every reader keeps a relation between tokens and outcomes. -/
structure Readers (P : List Lexeme → Parsed → Prop) (room : ℕ) : Prop where
  operand : ∀ tokens, P tokens (operand room tokens)
  productTail : ∀ left tokens, P tokens (productTail room left tokens)
  sumTail : ∀ left tokens, P tokens (sumTail room left tokens)

namespace Kept

variable {P : List Lexeme → Parsed → Prop} {room : ℕ} {tokens rest : List Lexeme}

/-- What can be an operator is no bracket. -/
lemma operator (kept : Kept P) {operator? : Token → Option Operator} {op : Operator} {outcome : Parsed}
    (notOpening : operator? .opening = none) (notClosing : operator? .closing = none)
    (e : operatorAtFront operator? tokens = some (op, rest)) (h : P rest outcome) : P tokens outcome := by
  obtain ⟨⟨start, token⟩, rfl, isOperator⟩ := operatorAtFront_eq_some e
  refine kept.pass ?_ ?_ h
  · rintro rfl
    cases notOpening.symm.trans isOperator
  · rintro rfl
    cases notClosing.symm.trans isOperator

/-- Reading a product keeps what its operands and its loop keep. -/
lemma product (kept : Kept P) (readers : Readers P room) (tokens : List Lexeme) :
    P tokens (Formula.product room tokens) :=
  kept.bind (readers.operand tokens) readers.productTail

/-- Reading a sum keeps what its products and its loop keep. -/
lemma sum (kept : Kept P) (readers : Readers P room) (tokens : List Lexeme) :
    P tokens (Formula.sum room tokens) :=
  kept.bind (kept.product readers tokens) readers.sumTail

/-- Reading a primary keeps what the sum in its brackets keeps. -/
lemma primary (kept : Kept P) (readers : Readers P room) (tokens : List Lexeme) :
    P tokens (Formula.primary (Formula.sum room) tokens) := by
  unfold Formula.primary
  split
  case h_1 => exact kept.pass (by nofun) (by nofun) (kept.taken _ _)
  case h_2 rest => exact kept.bracketed id (kept.sum readers rest)
  case h_3 =>
    split
    case h_1 => exact kept.pass (by nofun) (by nofun) (kept.taken _ _)
    case h_2 => exact kept.pass (by nofun) (by nofun) (kept.taken _ _)
    case h_3 f meaning =>
      simp only [Expr.call?_of_ofName? meaning]
      split
      case h_1 rest =>
        exact kept.pass (by nofun) (by nofun) (kept.bracketed (.call f) (kept.sum readers rest))
      case h_2 => exact kept.uncalled f _
    case h_4 unknown => exact kept.unknownName _ unknown
  case h_4 => exact kept.refuse _ (by nofun)

/-- Reading a power keeps what its base and its exponent keep. -/
lemma power (kept : Kept P) (readers : Readers P room) (tokens : List Lexeme) :
    P tokens (Formula.power (Formula.sum room) (Formula.operand room) tokens) := by
  refine kept.bind (kept.primary readers tokens) fun base rest => ?_
  dsimp only
  split
  case h_1 start behind =>
    refine kept.pass (by nofun) (by nofun) ?_
    exact kept.bind (readers.operand behind) fun exponent after => kept.taken _ _
  case h_2 => exact kept.taken _ _

/-- Without a level left, the readers take nothing. -/
lemma zero (kept : Kept P) : Readers P 0 where
  operand tokens := by
    rw [Formula.operand]
    exact kept.refuse tokens (by decide)
  productTail left tokens := by
    rw [Formula.productTail]
    split
    case h_1 => exact kept.taken _ _
    case h_2 e => exact kept.operator rfl rfl e (kept.refuse _ (by decide))
  sumTail left tokens := by
    rw [Formula.sumTail]
    split
    case h_1 => exact kept.taken _ _
    case h_2 e => exact kept.operator rfl rfl e (kept.refuse _ (by decide))

/-- One more level is left for what the readers read with the levels they had. -/
lemma succ (kept : Kept P) (readers : Readers P room) : Readers P (room + 1) where
  operand tokens := by
    rw [operand_succ_eq]
    split
    case h_1 start rest =>
      refine kept.pass (by nofun) (by nofun) ?_
      exact kept.bind (readers.operand rest) fun arg behind => kept.taken _ _
    case h_2 start rest => exact kept.pass (by nofun) (by nofun) (readers.operand rest)
    case h_3 => exact kept.power readers tokens
  productTail left tokens := by
    rw [Formula.productTail]
    split
    case h_1 => exact kept.taken _ _
    case h_2 rest e =>
      refine kept.operator rfl rfl e ?_
      exact kept.bind (readers.operand rest) fun right behind => readers.productTail _ behind
  sumTail left tokens := by
    rw [sumTail_succ_eq]
    split
    case h_1 => exact kept.taken _ _
    case h_2 rest e =>
      refine kept.operator rfl rfl e ?_
      exact kept.bind (kept.product readers rest) fun right behind => readers.sumTail _ behind

/-- What the steps keep holds of all readers, however many levels are left. -/
lemma readers (kept : Kept P) (room : ℕ) : Readers P room := by
  -- The readers call each other with one level less, so all of them are proved at once.
  induction room with
  | zero => exact kept.zero
  | succ room ih => exact kept.succ ih

end Kept

end Stepwise.Formula
