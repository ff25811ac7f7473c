import Stepwise.Formula.Compile
import Stepwise.Proofs.Formula.Grammar
import Stepwise.Proofs.Outcome
import Mathlib.Data.List.Basic

/-!
# Reading is the grammar

The readers of operands, products and sums accept the phrases of the grammar and nothing else, and what
they build is the expression of the phrase.
-/

namespace Stepwise.Formula

open Grammar (Sign Scale)

/-- Some tokens are spelled by a phrase and then go on with a rest. -/
def Spells (tokens : List Lexeme) (phrase : List Token) (rest : List Lexeme) : Prop :=
  tokens.map Lexeme.token = phrase ++ rest.map Lexeme.token

namespace Spells

variable {tokens rest after : List Lexeme} {first second : List Token}

/-- Nothing is spelled by no tokens. -/
lemma nil : Spells tokens [] tokens :=
  rfl

/-- One token more spells a phrase that is one token longer. -/
lemma cons {lexeme : Lexeme} {token : Token} (e : lexeme.token = token)
    (h : Spells tokens first rest) : Spells (lexeme :: tokens) (token :: first) rest := by
  simp only [Spells, List.map_cons, List.cons_append, e] at h ⊢
  rw [h]

/-- Phrases behind each other are spelled behind each other. -/
lemma append (h : Spells tokens first rest) (h' : Spells rest second after) :
    Spells tokens (first ++ second) after := by
  rw [Spells, h, h', List.append_assoc]

end Spells

/-- The operators of sums are those of the signs. -/
lemma sumOperator?_eq_some {token : Token} {op : Operator}
    (h : token.sumOperator? = some op) : ∃ sign : Sign, token = sign.token ∧ sign.operator = op := by
  cases token <;> cases h
  case plus => exact ⟨.plus, rfl, rfl⟩
  case minus => exact ⟨.minus, rfl, rfl⟩

/-- The operators of products are those of the multiplication and division signs. -/
lemma productOperator?_eq_some {token : Token} {op : Operator}
    (h : token.productOperator? = some op) :
    ∃ scale : Scale, token = scale.token ∧ scale.operator = op := by
  cases token <;> cases h
  case star => exact ⟨.times, rfl, rfl⟩
  case slash => exact ⟨.divide, rfl, rfl⟩

/-- An operator at the front is the first token. -/
lemma operatorAtFront_eq_some {operator? : Token → Option Operator} {tokens rest : List Lexeme}
    {op : Operator} (h : operatorAtFront operator? tokens = some (op, rest)) :
    ∃ lexeme, tokens = lexeme :: rest ∧ operator? lexeme.token = some op := by
  cases tokens with
  | nil => cases h
  | cons lexeme later =>
    obtain ⟨op', e, e'⟩ := Option.map_eq_some_iff.mp h
    cases e'
    exact ⟨lexeme, rfl, e⟩

/-- Whether an operator stands at the front is told by the first token. -/
lemma operatorAtFront_eq_none {operator? : Token → Option Operator} {tokens tokens' : List Lexeme}
    (e : operatorAtFront operator? tokens = none) (same : tokens'.head? = tokens.head?) :
    operatorAtFront operator? tokens' = none := by
  cases tokens' with
  | nil => rfl
  | cons lexeme rest' =>
    obtain ⟨rest, rfl⟩ := List.head?_eq_some_iff.mp same.symm
    exact Option.map_eq_none_iff.mpr (Option.map_eq_none_iff.mp e)

/-- Without an operator the loop of a product ends at once. -/
lemma productTail_of_none {tokens : List Lexeme}
    (e : operatorAtFront Token.productOperator? tokens = none) (room : Nat) (left : Expr) :
    productTail room left tokens = .ok (left, tokens) := by
  cases room <;> rw [productTail, e]

/-- Without an operator the loop of a sum ends at once. -/
lemma sumTail_of_none {tokens : List Lexeme}
    (e : operatorAtFront Token.sumOperator? tokens = none) (room : Nat) (left : Expr) :
    sumTail room left tokens = .ok (left, tokens) := by
  cases room <;> rw [sumTail, e]

/-- Passing over a closing bracket takes one token. -/
lemma Spells.closeBracket {tokens rest : List Lexeme} (h : closeBracket tokens = .ok rest) :
    Spells tokens [.closing] rest := by
  unfold Formula.closeBracket at h
  split at h
  case h_1 => cases h; exact .cons rfl .nil
  case h_2 => cases h

/-- An operand with a level left for its own extent. -/
lemma operand_succ_eq (room : Nat) (tokens : List Lexeme) :
    operand (room + 1) tokens =
      match tokens with
      | { token := .minus, .. } :: rest => do
        let (arg, rest) ← operand room rest
        return (.neg arg, rest)
      | { token := .plus, .. } :: rest => operand room rest
      | tokens => power (sum room) (operand room) tokens := by
  have e : sum room = (fun tokens => do
      let (first, rest) ← operand room tokens
      let (left, rest) ← productTail room first rest
      sumTail room left rest) := by
    funext tokens
    simp only [sum, product, bind_assoc]
  rw [e]
  exact operand.eq_def (room + 1) tokens

/-- The rest of a sum with a level left for an operator: products are read as one. -/
lemma sumTail_succ_eq (room : Nat) (left : Expr) (tokens : List Lexeme) :
    sumTail (room + 1) left tokens =
      match operatorAtFront Token.sumOperator? tokens with
      | none => .ok (left, tokens)
      | some (op, rest) =>
        product room rest >>= fun (right, rest) => sumTail room (.binary op left right) rest := by
  rw [sumTail]
  cases operatorAtFront Token.sumOperator? tokens with
  | none => rfl
  | some front => simp only [product, bind_assoc]

/-- With `room` levels left, every reader takes a phrase that needs no more levels and builds the
expression of that phrase. -/
structure Sound (room : Nat) : Prop where
  operand : ∀ {tokens expr rest}, operand room tokens = .ok (expr, rest) →
    ∃ phrase : Grammar.Operand,
      Spells tokens phrase.tokens rest ∧ phrase.tree = expr ∧ phrase.charge ≤ room
  productTail : ∀ {left tokens expr rest}, productTail room left tokens = .ok (expr, rest) →
    ∃ phrase : Grammar.ProductTail,
      Spells tokens phrase.tokens rest ∧ phrase.tree left = expr ∧ phrase.charge ≤ room
  sumTail : ∀ {left tokens expr rest}, sumTail room left tokens = .ok (expr, rest) →
    ∃ phrase : Grammar.SumTail,
      Spells tokens phrase.tokens rest ∧ phrase.tree left = expr ∧ phrase.charge ≤ room

namespace Sound

variable {room : Nat} {left expr : Expr} {tokens rest : List Lexeme}

/-- Reading a product takes a phrase of a product. -/
lemma product (sound : Sound room) (h : product room tokens = .ok (expr, rest)) :
    ∃ phrase : Grammar.Product,
      Spells tokens phrase.tokens rest ∧ phrase.tree = expr ∧ phrase.charge ≤ room := by
  obtain ⟨⟨first, later⟩, h1, h2⟩ := bind_eq_ok_iff.mp h
  obtain ⟨p, sp, rfl, cp⟩ := sound.operand h1
  obtain ⟨q, sq, rfl, cq⟩ := sound.productTail h2
  exact ⟨.mk p q, sp.append sq, rfl, Nat.max_le.mpr ⟨cp, cq⟩⟩

/-- Reading a sum takes a phrase of a sum. -/
lemma sum (sound : Sound room) (h : sum room tokens = .ok (expr, rest)) :
    ∃ phrase : Grammar.Sum,
      Spells tokens phrase.tokens rest ∧ phrase.tree = expr ∧ phrase.charge ≤ room := by
  obtain ⟨⟨first, later⟩, h1, h2⟩ := bind_eq_ok_iff.mp h
  obtain ⟨p, sp, rfl, cp⟩ := sound.product h1
  obtain ⟨q, sq, rfl, cq⟩ := sound.sumTail h2
  exact ⟨.mk p q, sp.append sq, rfl, Nat.max_le.mpr ⟨cp, cq⟩⟩

/-- Reading a primary takes a phrase of a primary. -/
lemma primary (sound : Sound room) (h : primary (Formula.sum room) tokens = .ok (expr, rest)) :
    ∃ phrase : Grammar.Primary,
      Spells tokens phrase.tokens rest ∧ phrase.tree = expr ∧ phrase.charge ≤ room := by
  unfold Formula.primary at h
  split at h
  case h_1 start value later =>
    cases h
    exact ⟨.number value, .cons rfl .nil, rfl, Nat.zero_le _⟩
  case h_2 start later =>
    obtain ⟨⟨inner, closed⟩, h1, h2⟩ := bind_eq_ok_iff.mp h
    obtain ⟨behind, h3, h4⟩ := bind_eq_ok_iff.mp h2
    cases h4
    obtain ⟨p, sp, rfl, cp⟩ := sound.sum h1
    exact ⟨.group p, .cons rfl (sp.append (.closeBracket h3)), rfl, cp⟩
  case h_3 start name later =>
    split at h
    case h_1 hs =>
      cases h
      obtain rfl := Symbol.name_of_ofName? hs
      exact ⟨.var, .cons rfl .nil, rfl, Nat.zero_le _⟩
    case h_2 c hs =>
      cases h
      obtain rfl := Symbol.name_of_ofName? hs
      exact ⟨.constant c, .cons rfl .nil, rfl, Nat.zero_le _⟩
    case h_3 f hs =>
      simp only [Expr.call?_of_ofName? hs] at h
      obtain rfl := Symbol.name_of_ofName? hs
      split at h
      case h_1 start' later' =>
        obtain ⟨⟨arg, closed⟩, h1, h2⟩ := bind_eq_ok_iff.mp h
        obtain ⟨behind, h3, h4⟩ := bind_eq_ok_iff.mp h2
        cases h4
        obtain ⟨p, sp, rfl, cp⟩ := sound.sum h1
        exact ⟨.call f p, .cons rfl (.cons rfl (sp.append (.closeBracket h3))), rfl, cp⟩
      case h_2 => cases h
    case h_4 => cases h
  case h_4 => cases h

/-- Reading a power takes a phrase of a power. -/
lemma power (sound : Sound room)
    (h : power (Formula.sum room) (Formula.operand room) tokens = .ok (expr, rest)) :
    ∃ phrase : Grammar.Power,
      Spells tokens phrase.tokens rest ∧ phrase.tree = expr ∧ phrase.charge ≤ room := by
  obtain ⟨⟨base, later⟩, h1, h2⟩ := bind_eq_ok_iff.mp h
  obtain ⟨p, sp, rfl, cp⟩ := sound.primary h1
  simp only at h2
  split at h2
  case h_1 start behind =>
    obtain ⟨⟨exponent, after⟩, h3, h4⟩ := bind_eq_ok_iff.mp h2
    cases h4
    obtain ⟨q, sq, rfl, cq⟩ := sound.operand h3
    exact ⟨.raised p q, sp.append (.cons rfl sq), rfl, Nat.max_le.mpr ⟨cp, cq⟩⟩
  case h_2 =>
    cases h2
    exact ⟨.plain p, sp, rfl, cp⟩

/-- Without a level left only empty tails are taken. -/
lemma zero : Sound 0 where
  operand h := by
    rw [Formula.operand] at h
    cases h
  productTail h := by
    rw [Formula.productTail] at h
    split at h
    case h_1 => cases h; exact ⟨.done, .nil, rfl, Nat.le_refl _⟩
    case h_2 => cases h
  sumTail h := by
    rw [Formula.sumTail] at h
    split at h
    case h_1 => cases h; exact ⟨.done, .nil, rfl, Nat.le_refl _⟩
    case h_2 => cases h

/-- Reading an operand one level up takes a phrase of an operand. -/
lemma operand_succ (sound : Sound room) (h : Formula.operand (room + 1) tokens = .ok (expr, rest)) :
    ∃ phrase : Grammar.Operand,
      Spells tokens phrase.tokens rest ∧ phrase.tree = expr ∧ phrase.charge ≤ room + 1 := by
  rw [operand_succ_eq] at h
  split at h
  case h_1 start later =>
    obtain ⟨⟨arg, behind⟩, h1, h2⟩ := bind_eq_ok_iff.mp h
    cases h2
    obtain ⟨p, sp, rfl, cp⟩ := sound.operand h1
    exact ⟨.signed .minus p, .cons rfl sp, rfl, Nat.succ_le_succ cp⟩
  case h_2 start later =>
    obtain ⟨p, sp, rfl, cp⟩ := sound.operand h
    exact ⟨.signed .plus p, .cons rfl sp, rfl, Nat.succ_le_succ cp⟩
  case h_3 =>
    obtain ⟨p, sp, rfl, cp⟩ := sound.power h
    exact ⟨.unsigned p, sp, rfl, Nat.succ_le_succ cp⟩

/-- Reading the rest of a product one level up takes a phrase of such a rest. -/
lemma productTail_succ (sound : Sound room)
    (h : Formula.productTail (room + 1) left tokens = .ok (expr, rest)) :
    ∃ phrase : Grammar.ProductTail,
      Spells tokens phrase.tokens rest ∧ phrase.tree left = expr ∧ phrase.charge ≤ room + 1 := by
  rw [Formula.productTail] at h
  split at h
  case h_1 =>
    cases h
    exact ⟨.done, .nil, rfl, Nat.zero_le _⟩
  case h_2 op later e =>
    obtain ⟨lexeme, rfl, ho⟩ := operatorAtFront_eq_some e
    obtain ⟨scale, ht, rfl⟩ := productOperator?_eq_some ho
    obtain ⟨⟨right, behind⟩, h1, h2⟩ := bind_eq_ok_iff.mp h
    obtain ⟨p, sp, rfl, cp⟩ := sound.operand h1
    obtain ⟨q, sq, rfl, cq⟩ := sound.productTail h2
    refine ⟨.more scale p q, .cons ht (sp.append sq), rfl, ?_⟩
    exact Nat.succ_le_succ (Nat.max_le.mpr ⟨cp, cq⟩)

/-- Reading the rest of a sum one level up takes a phrase of such a rest. -/
lemma sumTail_succ (sound : Sound room)
    (h : Formula.sumTail (room + 1) left tokens = .ok (expr, rest)) :
    ∃ phrase : Grammar.SumTail,
      Spells tokens phrase.tokens rest ∧ phrase.tree left = expr ∧ phrase.charge ≤ room + 1 := by
  rw [sumTail_succ_eq] at h
  split at h
  case h_1 =>
    cases h
    exact ⟨.done, .nil, rfl, Nat.zero_le _⟩
  case h_2 op later e =>
    obtain ⟨lexeme, rfl, ho⟩ := operatorAtFront_eq_some e
    obtain ⟨sign, ht, rfl⟩ := sumOperator?_eq_some ho
    obtain ⟨⟨right, behind⟩, h1, h2⟩ := bind_eq_ok_iff.mp h
    obtain ⟨p, sp, rfl, cp⟩ := sound.product h1
    obtain ⟨q, sq, rfl, cq⟩ := sound.sumTail h2
    refine ⟨.more sign p q, .cons ht (sp.append sq), rfl, ?_⟩
    exact Nat.succ_le_succ (Nat.max_le.mpr ⟨cp, cq⟩)

end Sound

/-- Whatever the number of levels left, the readers take phrases. -/
lemma sound (room : Nat) : Sound room := by
  -- The readers call each other with one level less, so all of them are proved at once.
  induction room with
  | zero => exact .zero
  | succ room ih => exact ⟨ih.operand_succ, ih.productTail_succ, ih.sumTail_succ⟩

/-- How tightly a token binds what stands in front of it. -/
def Token.binding : Token → Nat
  | power => 3
  | star => 2
  | slash => 2
  | plus => 1
  | minus => 1
  | _ => 0

/-- No token at the front binds as tightly as `level`, so a phrase of that level ends here. -/
def Stops (level : Nat) (after : List Token) : Prop :=
  ∀ token ∈ after.head?, token.binding < level

namespace Stops

variable {level : Nat} {after : List Token}

/-- Every phrase ends where the tokens end. -/
lemma nil : Stops level [] := nofun

/-- A phrase ends in front of a token that does not bind as tightly. -/
lemma cons {token : Token} (h : token.binding < level) : Stops level (token :: after) := by
  intro other ho
  cases ho
  exact h

/-- A phrase of a level ends where one of a looser level does. -/
lemma mono {level' : Nat} (h : Stops level after) (le : level ≤ level') : Stops level' after :=
  fun token ht => Nat.lt_of_lt_of_le (h token ht) le

/-- A product ends where the rest of its sum begins. -/
lemma sumTail (phrase : Grammar.SumTail) (h : Stops 1 after) : Stops 2 (phrase.tokens ++ after) := by
  cases phrase with
  | done => exact h.mono (by decide)
  | more sign next rest => cases sign <;> exact .cons (by decide)

/-- An operand ends where the rest of its product begins. -/
lemma productTail (phrase : Grammar.ProductTail) (h : Stops 2 after) :
    Stops 3 (phrase.tokens ++ after) := by
  cases phrase with
  | done => exact h.mono (by decide)
  | more scale next rest => cases scale <;> exact .cons (by decide)

/-- Where a sum ends, no sign follows. -/
lemma no_sumOperator {tokens : List Lexeme} (h : Stops 1 (tokens.map Lexeme.token)) :
    operatorAtFront Token.sumOperator? tokens = none := by
  cases tokens with
  | nil => rfl
  | cons lexeme rest =>
    have h' := h lexeme.token rfl
    obtain ⟨start, token⟩ := lexeme
    cases token
    case plus => exact absurd h' (Nat.lt_irrefl 1)
    case minus => exact absurd h' (Nat.lt_irrefl 1)
    all_goals rfl

/-- Where a product ends, no multiplication or division sign follows. -/
lemma no_productOperator {tokens : List Lexeme} (h : Stops 2 (tokens.map Lexeme.token)) :
    operatorAtFront Token.productOperator? tokens = none := by
  cases tokens with
  | nil => rfl
  | cons lexeme rest =>
    have h' := h lexeme.token rfl
    obtain ⟨start, token⟩ := lexeme
    cases token
    case star => exact absurd h' (Nat.lt_irrefl 2)
    case slash => exact absurd h' (Nat.lt_irrefl 2)
    all_goals rfl

end Stops

/-- Primaries and powers begin with a token that binds nothing in front of it. -/
lemma Grammar.Primary.front (phrase : Grammar.Primary) :
    ∃ token rest, phrase.tokens = token :: rest ∧ token.binding = 0 := by
  cases phrase <;> exact ⟨_, _, rfl, rfl⟩

/-- A power begins with a token that binds nothing in front of it. -/
lemma Grammar.Power.front (phrase : Grammar.Power) :
    ∃ token rest, phrase.tokens = token :: rest ∧ token.binding = 0 := by
  cases phrase with
  | plain base => exact base.front
  | raised base exponent =>
    obtain ⟨token, rest, e, b⟩ := base.front
    exact ⟨token, rest ++ .power :: exponent.tokens, by rw [tokens, e, List.cons_append], b⟩

/-- A reader builds an expression and leaves some tokens behind. -/
def Takes (outcome : Parsed) (expr : Expr) (after : List Token) : Prop :=
  ∃ rest, outcome = .ok (expr, rest) ∧ rest.map Lexeme.token = after

/-- The first of some tokens splits the lexemes that carry them. -/
lemma front_of_map {tokens : List Lexeme} {token : Token} {after : List Token}
    (h : tokens.map Lexeme.token = token :: after) :
    ∃ start rest, tokens = ⟨start, token⟩ :: rest ∧ rest.map Lexeme.token = after := by
  obtain ⟨lexeme, rest, rfl, rfl, h'⟩ := List.map_eq_cons_iff.mp h
  exact ⟨lexeme.start, rest, rfl, h'⟩

/-- Tokens can stand anywhere. -/
lemma map_token_mk (tokens : List Token) : (tokens.map (Lexeme.mk 0)).map Lexeme.token = tokens := by
  rw [List.map_map]
  exact List.map_id tokens

/-- With `room` levels left, every reader takes all phrases that need no more levels. -/
structure Complete (room : Nat) : Prop where
  operand : ∀ {phrase : Grammar.Operand} {tokens after}, phrase.charge ≤ room →
    tokens.map Lexeme.token = phrase.tokens ++ after → Stops 3 after →
    Takes (operand room tokens) phrase.tree after
  productTail : ∀ {phrase : Grammar.ProductTail} {after} (left) {tokens}, phrase.charge ≤ room →
    tokens.map Lexeme.token = phrase.tokens ++ after → Stops 2 after →
    Takes (productTail room left tokens) (phrase.tree left) after
  sumTail : ∀ {phrase : Grammar.SumTail} {after} (left) {tokens}, phrase.charge ≤ room →
    tokens.map Lexeme.token = phrase.tokens ++ after → Stops 1 after →
    Takes (sumTail room left tokens) (phrase.tree left) after

namespace Complete

variable {room : Nat} {left : Expr} {tokens : List Lexeme} {after : List Token}

/-- A product is taken as a whole. -/
lemma product (complete : Complete room) {phrase : Grammar.Product} (c : phrase.charge ≤ room)
    (h : tokens.map Lexeme.token = phrase.tokens ++ after) (stops : Stops 2 after) :
    Takes (product room tokens) phrase.tree after := by
  obtain ⟨first, tail⟩ := phrase
  obtain ⟨c1, c2⟩ := Nat.max_le.mp c
  rw [Grammar.Product.tokens, List.append_assoc] at h
  obtain ⟨rest1, e1, h1⟩ := complete.operand c1 h (.productTail tail stops)
  obtain ⟨rest2, e2, h2⟩ := complete.productTail first.tree c2 h1 stops
  exact ⟨rest2, bind_eq_ok_iff.mpr ⟨_, e1, e2⟩, h2⟩

/-- A sum is taken as a whole. -/
lemma sum (complete : Complete room) {phrase : Grammar.Sum} (c : phrase.charge ≤ room)
    (h : tokens.map Lexeme.token = phrase.tokens ++ after) (stops : Stops 1 after) :
    Takes (sum room tokens) phrase.tree after := by
  obtain ⟨first, tail⟩ := phrase
  obtain ⟨c1, c2⟩ := Nat.max_le.mp c
  rw [Grammar.Sum.tokens, List.append_assoc] at h
  obtain ⟨rest1, e1, h1⟩ := complete.product c1 h (.sumTail tail stops)
  obtain ⟨rest2, e2, h2⟩ := complete.sumTail first.tree c2 h1 stops
  exact ⟨rest2, bind_eq_ok_iff.mpr ⟨_, e1, e2⟩, h2⟩

/-- A sum is taken up to its closing bracket, and then the bracket. -/
lemma bracketed (complete : Complete room) {phrase : Grammar.Sum} (c : phrase.charge ≤ room)
    (h : tokens.map Lexeme.token = phrase.tokens ++ [.closing] ++ after) :
    ∃ closed rest, Formula.sum room tokens = .ok (phrase.tree, closed) ∧
      closeBracket closed = .ok rest ∧ rest.map Lexeme.token = after := by
  rw [List.append_assoc] at h
  obtain ⟨closed, e, h'⟩ := complete.sum c h (.cons (by decide))
  obtain ⟨start, rest, rfl, h''⟩ := front_of_map h'
  exact ⟨_, rest, e, rfl, h''⟩

/-- A primary is taken as a whole. -/
lemma primary (complete : Complete room) {phrase : Grammar.Primary} (c : phrase.charge ≤ room)
    (h : tokens.map Lexeme.token = phrase.tokens ++ after) :
    Takes (primary (Formula.sum room) tokens) phrase.tree after := by
  cases phrase with
  | number value =>
    obtain ⟨start, rest, rfl, h'⟩ := front_of_map h
    exact ⟨rest, rfl, h'⟩
  | var =>
    obtain ⟨start, rest, rfl, h'⟩ := front_of_map h
    exact ⟨rest, rfl, h'⟩
  | constant k =>
    obtain ⟨start, rest, rfl, h'⟩ := front_of_map h
    have e : Symbol.ofName? k.name = some (.constant k) := Symbol.ofName?_name (.constant k)
    refine ⟨rest, ?_, h'⟩
    simp only [Formula.primary, e, Grammar.Primary.tree]
  | call f arg =>
    obtain ⟨start, rest, rfl, h1⟩ := front_of_map h
    obtain ⟨start', rest', rfl, h2⟩ := front_of_map h1
    obtain ⟨closed, behind, e1, e2, h3⟩ := complete.bracketed c h2
    have e : Symbol.ofName? f.name = some (.function f) := Symbol.ofName?_name (.function f)
    refine ⟨behind, ?_, h3⟩
    rw [primary_function e]
    exact bind_eq_ok_iff.mpr ⟨_, e1, bind_eq_ok_iff.mpr ⟨_, e2, rfl⟩⟩
  | group inner =>
    obtain ⟨start, rest, rfl, h1⟩ := front_of_map h
    obtain ⟨closed, behind, e1, e2, h2⟩ := complete.bracketed c h1
    refine ⟨behind, ?_, h2⟩
    exact bind_eq_ok_iff.mpr ⟨_, e1, bind_eq_ok_iff.mpr ⟨_, e2, rfl⟩⟩

/-- A power is taken as a whole. -/
lemma power (complete : Complete room) {phrase : Grammar.Power} (c : phrase.charge ≤ room)
    (h : tokens.map Lexeme.token = phrase.tokens ++ after) (stops : Stops 3 after) :
    Takes (power (Formula.sum room) (Formula.operand room) tokens) phrase.tree after := by
  cases phrase with
  | plain base =>
    obtain ⟨rest, e, h'⟩ := complete.primary c h
    refine ⟨rest, bind_eq_ok_iff.mpr ⟨_, e, ?_⟩, h'⟩
    simp only
    -- The phrase stops here, so no `**` follows.
    split
    case h_1 => cases h'; exact absurd (stops .power rfl) (Nat.lt_irrefl 3)
    case h_2 => rfl
  | raised base exponent =>
    obtain ⟨c1, c2⟩ := Nat.max_le.mp c
    rw [Grammar.Power.tokens, List.append_assoc] at h
    obtain ⟨rest, e1, h1⟩ := complete.primary c1 h
    obtain ⟨start, rest', rfl, h2⟩ := front_of_map h1
    obtain ⟨behind, e2, h3⟩ := complete.operand c2 h2 stops
    exact ⟨behind, bind_eq_ok_iff.mpr ⟨_, e1, bind_eq_ok_iff.mpr ⟨_, e2, rfl⟩⟩, h3⟩

/-- Without a level left only empty tails are there to be taken. -/
lemma zero : Complete 0 where
  operand {phrase} _ _ c := by
    cases phrase <;> exact absurd c (Nat.not_succ_le_zero _)
  productTail {phrase} {after} left {tokens} c h stops := by
    cases phrase with
    | done =>
      have stops' : Stops 2 (tokens.map Lexeme.token) := by rw [h]; exact stops
      have e := stops'.no_productOperator
      exact ⟨tokens, productTail_of_none e _ left, h⟩
    | more scale next rest => exact absurd c (Nat.not_succ_le_zero _)
  sumTail {phrase} {after} left {tokens} c h stops := by
    cases phrase with
    | done =>
      have stops' : Stops 1 (tokens.map Lexeme.token) := by rw [h]; exact stops
      have e := stops'.no_sumOperator
      exact ⟨tokens, sumTail_of_none e _ left, h⟩
    | more sign next rest => exact absurd c (Nat.not_succ_le_zero _)

/-- An operand is taken as a whole, with one level more. -/
lemma operand_succ (complete : Complete room) {phrase : Grammar.Operand}
    (c : phrase.charge ≤ room + 1) (h : tokens.map Lexeme.token = phrase.tokens ++ after)
    (stops : Stops 3 after) : Takes (Formula.operand (room + 1) tokens) phrase.tree after := by
  rw [operand_succ_eq]
  cases phrase with
  | signed sign arg =>
    obtain ⟨start, rest, rfl, h1⟩ := front_of_map h
    obtain ⟨behind, e, h2⟩ := complete.operand (Nat.le_of_succ_le_succ c) h1 stops
    cases sign with
    | plus => exact ⟨behind, e, h2⟩
    | minus => exact ⟨behind, bind_eq_ok_iff.mpr ⟨_, e, rfl⟩, h2⟩
  | unsigned power =>
    -- A power does not begin with a sign, so the reader does not take it for a signed operand.
    obtain ⟨token, more, e, b⟩ := power.front
    have taken := complete.power (Nat.le_of_succ_le_succ c) h stops
    rw [Grammar.Operand.tokens, e] at h
    split
    case h_1 => cases (List.cons.inj h).1; exact absurd b Nat.one_ne_zero
    case h_2 => cases (List.cons.inj h).1; exact absurd b Nat.one_ne_zero
    case h_3 => exact taken

/-- The rest of a product is taken as a whole, with one level more. -/
lemma productTail_succ (complete : Complete room) {phrase : Grammar.ProductTail} (left : Expr)
    {tokens : List Lexeme} (c : phrase.charge ≤ room + 1)
    (h : tokens.map Lexeme.token = phrase.tokens ++ after) (stops : Stops 2 after) :
    Takes (Formula.productTail (room + 1) left tokens) (phrase.tree left) after := by
  cases phrase with
  | done =>
    have stops' : Stops 2 (tokens.map Lexeme.token) := by rw [h]; exact stops
    have e := stops'.no_productOperator
    exact ⟨tokens, productTail_of_none e _ left, h⟩
  | more scale next tail =>
    obtain ⟨c1, c2⟩ := Nat.max_le.mp (Nat.le_of_succ_le_succ c)
    rw [Grammar.ProductTail.tokens, List.cons_append, List.append_assoc] at h
    obtain ⟨start, rest, rfl, h1⟩ := front_of_map h
    have e : operatorAtFront Token.productOperator? (⟨start, scale.token⟩ :: rest) =
        some (scale.operator, rest) := by
      cases scale <;> rfl
    obtain ⟨rest1, e1, h2⟩ := complete.operand c1 h1 (.productTail tail stops)
    obtain ⟨rest2, e2, h3⟩ :=
      complete.productTail (.binary scale.operator left next.tree) c2 h2 stops
    rw [Formula.productTail, e]
    exact ⟨rest2, bind_eq_ok_iff.mpr ⟨_, e1, e2⟩, h3⟩

/-- The rest of a sum is taken as a whole, with one level more. -/
lemma sumTail_succ (complete : Complete room) {phrase : Grammar.SumTail} (left : Expr)
    {tokens : List Lexeme} (c : phrase.charge ≤ room + 1)
    (h : tokens.map Lexeme.token = phrase.tokens ++ after) (stops : Stops 1 after) :
    Takes (Formula.sumTail (room + 1) left tokens) (phrase.tree left) after := by
  cases phrase with
  | done =>
    have stops' : Stops 1 (tokens.map Lexeme.token) := by rw [h]; exact stops
    have e := stops'.no_sumOperator
    exact ⟨tokens, sumTail_of_none e _ left, h⟩
  | more sign next tail =>
    obtain ⟨c1, c2⟩ := Nat.max_le.mp (Nat.le_of_succ_le_succ c)
    rw [Grammar.SumTail.tokens, List.cons_append, List.append_assoc] at h
    obtain ⟨start, rest, rfl, h1⟩ := front_of_map h
    have e : operatorAtFront Token.sumOperator? (⟨start, sign.token⟩ :: rest) =
        some (sign.operator, rest) := by
      cases sign <;> rfl
    obtain ⟨rest1, e1, h2⟩ := complete.product c1 h1 (.sumTail tail stops)
    obtain ⟨rest2, e2, h3⟩ :=
      complete.sumTail (.binary sign.operator left next.tree) c2 h2 stops
    rw [sumTail_succ_eq, e]
    exact ⟨rest2, bind_eq_ok_iff.mpr ⟨_, e1, e2⟩, h3⟩

end Complete

/-- Whatever the number of levels left, the readers take all phrases that fit in. -/
lemma complete (room : Nat) : Complete room := by
  induction room with
  | zero => exact .zero
  | succ room ih => exact ⟨ih.operand_succ, ih.productTail_succ, ih.sumTail_succ⟩

/-- All tokens of a formula are read as one expression if they spell a sum that is not nested too
deeply. -/
theorem parseTokens_eq_ok_iff {tokens : List Lexeme} {expr : Expr} :
    parseTokens tokens = .ok expr ↔ ∃ phrase : Grammar.Sum,
      phrase.tokens = tokens.map Lexeme.token ∧ phrase.tree = expr ∧ phrase.charge ≤ maxDepth := by
  constructor
  · intro h
    obtain ⟨⟨built, rest⟩, h1, h2⟩ := bind_eq_ok_iff.mp h
    obtain ⟨phrase, sp, rfl, c⟩ := (sound maxDepth).sum h1
    cases rest with
    | nil =>
      cases h2
      refine ⟨phrase, ?_, rfl, c⟩
      rw [sp, List.map_nil, List.append_nil]
    | cons lexeme rest => cases h2
  · rintro ⟨phrase, h, rfl, c⟩
    obtain ⟨rest, e, h'⟩ :=
      (complete maxDepth).sum c (h.symm.trans (List.append_nil _).symm) Stops.nil
    cases List.map_eq_nil_iff.mp h'
    exact bind_eq_ok_iff.mpr ⟨_, e, rfl⟩

/-- The grammar is unambiguous: tokens spell at most one expression. -/
theorem Grammar.Sum.tree_unique {p q : Grammar.Sum} (h : p.tokens = q.tokens) :
    p.tree = q.tree := by
  have e : (p.tokens.map (Lexeme.mk 0)).map Lexeme.token = p.tokens ++ [] := by
    rw [map_token_mk, List.append_nil]
  have e' : (p.tokens.map (Lexeme.mk 0)).map Lexeme.token = q.tokens ++ [] := by rw [e, h]
  -- With levels enough for both, one run of the reader builds both trees.
  obtain ⟨rest, ep, _⟩ := (complete (max p.charge q.charge)).sum (Nat.le_max_left _ _) e Stops.nil
  obtain ⟨rest', eq, _⟩ := (complete (max p.charge q.charge)).sum (Nat.le_max_right _ _) e' Stops.nil
  exact congrArg Prod.fst (Except.ok.inj (ep.symm.trans eq))

/-- Parsing succeeds if every one of its stages does. -/
lemma parseChars_eq_ok_iff {text : List Char} {expr : Expr} :
    parseChars text = .ok expr ↔
      (∃ c ∈ text, Text.isBlank c = false) ∧ balanced text = true ∧
        ∃ tokens, lex text = .ok tokens ∧ parseTokens tokens = .ok expr := by
  have hb : text.all Text.isBlank = false ↔ ∃ c ∈ text, Text.isBlank c = false := by
    simp only [List.all_eq_false, Bool.not_eq_true]
  rw [← hb]
  unfold parseChars
  cases text.all Text.isBlank with
  | true => simp
  | false =>
    cases balanced text with
    | false => simp
    | true =>
      cases lex text with
      | error fault => simp
      | ok tokens => simp [mapError_eq_ok_iff]

/-- A formula is accepted exactly if it is not blank, its brackets match, it splits into tokens, and all
of these spell a sum of the grammar that needs at most the nesting allowed. The expression is that of the
sum, and tokens spell at most one expression. -/
theorem parse_eq_ok_iff (text : String) (expr : Expr) :
    (parse text = .ok expr ↔
      (∃ c ∈ text.toList, Text.isBlank c = false) ∧ balanced text.toList = true ∧
        ∃ tokens, lex text.toList = .ok tokens ∧
          ∃ phrase : Grammar.Sum, phrase.tokens = tokens.map Lexeme.token ∧
            phrase.tree = expr ∧ phrase.charge ≤ maxDepth) ∧
      ∀ p q : Grammar.Sum, p.tokens = q.tokens → p.tree = q.tree := by
  refine ⟨?_, fun p q h => Grammar.Sum.tree_unique h⟩
  rw [parse, mapError_eq_ok_iff, parseChars_eq_ok_iff]
  simp only [parseTokens_eq_ok_iff]

end Stepwise.Formula
