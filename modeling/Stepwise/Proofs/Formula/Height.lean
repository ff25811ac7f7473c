import Stepwise.Proofs.Formula.Reading
import Mathlib.Tactic.Ring

/-!
# How high the tree of a formula is

A chain `a + b + c` is read into a tree that leans to the left, so every operator puts one more edge
above all operands in front of it. The limit on nesting counts the other way round: an operator takes a
level of what follows it. The height of a tree is therefore not the nesting that was counted.

The rise of a phrase counts each operator against the operands in front of it and the one behind it, and
is the height of the tree. Of all phrases that need at most `room` levels the highest has a tree of
height `room * (room + 1) - 2`.
-/

namespace Stepwise.Formula

/-- How many edges the longest path from the root of an expression to a leaf has. -/
def Expr.height : Expr → Nat
  | var => 0
  | const _ => 0
  | binary _ left right => max left.height right.height + 1
  | neg arg => arg.height + 1
  | call _ arg => arg.height + 1

namespace Grammar

/-- How many operators follow the first product of a sum. -/
def SumTail.count : SumTail → Nat
  | .done => 0
  | .more _ _ rest => rest.count + 1

/-- How many operators follow the first operand of a product. -/
def ProductTail.count : ProductTail → Nat
  | .done => 0
  | .more _ _ rest => rest.count + 1

mutual

/-- The rise of a sum: all its operators are above its first product. -/
def Sum.rise : Sum → Nat
  | .mk first rest => max (first.rise + rest.count) rest.rise

/-- The rise of the rest of a sum: above a product are the operator in front and those behind it. -/
def SumTail.rise : SumTail → Nat
  | .done => 0
  | .more _ next rest => max (next.rise + rest.count + 1) rest.rise

/-- The rise of a product: all its operators are above its first operand. -/
def Product.rise : Product → Nat
  | .mk first rest => max (first.rise + rest.count) rest.rise

/-- The rise of the rest of a product: above an operand are the operator in front and those behind it. -/
def ProductTail.rise : ProductTail → Nat
  | .done => 0
  | .more _ next rest => max (next.rise + rest.count + 1) rest.rise

/-- The rise of an operand: a minus sign is above it, a plus sign is not. -/
def Operand.rise : Operand → Nat
  | .signed .plus arg => arg.rise
  | .signed .minus arg => arg.rise + 1
  | .unsigned power => power.rise

/-- The rise of a power: `**` is above the base and above the exponent. -/
def Power.rise : Power → Nat
  | .plain base => base.rise
  | .raised base exponent => max base.rise exponent.rise + 1

/-- The rise of a primary: a function is above its argument, brackets are above nothing. -/
def Primary.rise : Primary → Nat
  | .number _ => 0
  | .var => 0
  | .constant _ => 0
  | .call _ arg => arg.rise + 1
  | .group inner => inner.rise

end

mutual

/-- The tree of a sum is as high as the sum rises. -/
lemma Sum.height_tree : (phrase : Sum) → phrase.tree.height = phrase.rise
  | .mk first rest => by
    rw [Sum.tree, Sum.rise, rest.height_tree, first.height_tree]

/-- What follows the first product of a sum puts its operators above the tree so far. -/
lemma SumTail.height_tree (left : Expr) :
    (phrase : SumTail) → (phrase.tree left).height = max (left.height + phrase.count) phrase.rise
  | .done => by
    rw [SumTail.tree, SumTail.count, SumTail.rise]
    omega
  | .more sign next rest => by
    rw [SumTail.tree, SumTail.count, SumTail.rise, rest.height_tree, Expr.height, next.height_tree]
    omega

/-- The tree of a product is as high as the phrase rises. -/
lemma Product.height_tree : (phrase : Product) → phrase.tree.height = phrase.rise
  | .mk first rest => by
    rw [Product.tree, Product.rise, rest.height_tree, first.height_tree]

/-- Each operator of the rest of a product puts a level on the tree to its left. -/
lemma ProductTail.height_tree (left : Expr) :
    (phrase : ProductTail) →
      (phrase.tree left).height = max (left.height + phrase.count) phrase.rise
  | .done => by
    rw [ProductTail.tree, ProductTail.count, ProductTail.rise]
    omega
  | .more scale next rest => by
    rw [ProductTail.tree, ProductTail.count, ProductTail.rise, rest.height_tree, Expr.height,
      next.height_tree]
    omega

/-- The tree of an operand is as high as the phrase rises. -/
lemma Operand.height_tree : (phrase : Operand) → phrase.tree.height = phrase.rise
  | .signed .plus arg => by
    rw [Operand.tree, Operand.rise, Sign.apply, arg.height_tree]
  | .signed .minus arg => by
    rw [Operand.tree, Operand.rise, Sign.apply, Expr.height, arg.height_tree]
  | .unsigned power => by
    rw [Operand.tree, Operand.rise, power.height_tree]

/-- The tree of a power is as high as the phrase rises. -/
lemma Power.height_tree : (phrase : Power) → phrase.tree.height = phrase.rise
  | .plain base => by
    rw [Power.tree, Power.rise, base.height_tree]
  | .raised base exponent => by
    rw [Power.tree, Power.rise, Expr.height, base.height_tree, exponent.height_tree]

/-- The tree of a primary is as high as the phrase rises. -/
lemma Primary.height_tree : (phrase : Primary) → phrase.tree.height = phrase.rise
  | .number _ => rfl
  | .var => rfl
  | .constant _ => rfl
  | .call _ arg => by
    rw [Primary.tree, Primary.rise, Expr.height, arg.height_tree]
  | .group inner => by
    rw [Primary.tree, Primary.rise, inner.height_tree]

end

/-- An operand takes a level of its own. -/
lemma Operand.charge_pos (phrase : Operand) : 0 < phrase.charge := by
  cases phrase <;> exact Nat.succ_pos _

/-- A product takes at least a level. -/
lemma Product.charge_pos (phrase : Product) : 0 < phrase.charge := by
  cases phrase with
  | mk first rest => exact Nat.lt_of_lt_of_le first.charge_pos (Nat.le_max_left _ _)

/-- The operators of a sum leave a level for the last product. -/
lemma SumTail.count_le : (phrase : SumTail) → phrase.count ≤ phrase.charge - 1
  | .done => Nat.zero_le _
  | .more sign next rest => by
    have ih := rest.count_le
    have pos := next.charge_pos
    rw [SumTail.count, SumTail.charge]
    omega

/-- Each operator of a product takes a level, so there are fewer of them than levels. -/
lemma ProductTail.count_le : (phrase : ProductTail) → phrase.count ≤ phrase.charge - 1
  | .done => Nat.zero_le _
  | .more scale next rest => by
    have ih := rest.count_le
    have pos := next.charge_pos
    rw [ProductTail.count, ProductTail.charge]
    omega

mutual

/-- How far the phrases rise that need at most `room` levels. -/
lemma Sum.rise_le (room : Nat) :
    (phrase : Sum) → phrase.charge ≤ room → phrase.rise + 2 ≤ room * room + room
  | .mk first rest, c => by
    rw [Sum.charge] at c
    have h1 := first.rise_le room (by omega)
    have h2 := rest.rise_le room (by omega)
    have h3 := rest.count_le
    have pos := first.charge_pos
    rw [Sum.rise]
    omega

/-- How far the rest of a sum can rise within so many levels. -/
lemma SumTail.rise_le (room : Nat) :
    (phrase : SumTail) → phrase.charge ≤ room → phrase.rise ≤ room * room + room - 2
  | .done, _ => Nat.zero_le _
  | .more sign next rest, c => by
    rw [SumTail.charge] at c
    obtain ⟨room, rfl⟩ := Nat.exists_eq_add_one_of_ne_zero (Nat.ne_zero_of_lt c)
    have h1 := next.rise_le room (by omega)
    have h2 := rest.rise_le room (by omega)
    have h3 := rest.count_le
    have square : (room + 1) * (room + 1) = room * room + 2 * room + 1 := by ring
    rw [SumTail.rise]
    omega

/-- How far a product can rise within so many levels. -/
lemma Product.rise_le (room : Nat) :
    (phrase : Product) → phrase.charge ≤ room → phrase.rise + 1 ≤ room * room
  | .mk first rest, c => by
    rw [Product.charge] at c
    have h1 := first.rise_le room (by omega)
    have h2 := rest.rise_le room (by omega)
    have h3 := rest.count_le
    have pos := first.charge_pos
    rw [Product.rise]
    omega

/-- How far the rest of a product can rise within so many levels. -/
lemma ProductTail.rise_le (room : Nat) :
    (phrase : ProductTail) → phrase.charge ≤ room → phrase.rise ≤ room * room - 1
  | .done, _ => Nat.zero_le _
  | .more scale next rest, c => by
    rw [ProductTail.charge] at c
    obtain ⟨room, rfl⟩ := Nat.exists_eq_add_one_of_ne_zero (Nat.ne_zero_of_lt c)
    have h1 := next.rise_le room (by omega)
    have h2 := rest.rise_le room (by omega)
    have h3 := rest.count_le
    have pos := next.charge_pos
    have square : (room + 1) * (room + 1) = room * room + 2 * room + 1 := by ring
    rw [ProductTail.rise]
    omega

/-- How far an operand can rise within so many levels. -/
lemma Operand.rise_le (room : Nat) :
    (phrase : Operand) → phrase.charge ≤ room → phrase.rise + room ≤ room * room
  | .signed sign arg, c => by
    rw [Operand.charge] at c
    obtain ⟨room, rfl⟩ := Nat.exists_eq_add_one_of_ne_zero (Nat.ne_zero_of_lt c)
    have h := arg.rise_le room (by omega)
    have pos := arg.charge_pos
    have square : (room + 1) * (room + 1) = room * room + 2 * room + 1 := by ring
    cases sign <;> rw [Operand.rise] <;> omega
  | .unsigned power, c => by
    rw [Operand.charge] at c
    obtain ⟨room, rfl⟩ := Nat.exists_eq_add_one_of_ne_zero (Nat.ne_zero_of_lt c)
    have h := power.rise_le room (by omega)
    have square : (room + 1) * (room + 1) = room * room + 2 * room + 1 := by ring
    rw [Operand.rise]
    omega

/-- How far a power can rise, when its operands keep within so many levels. -/
lemma Power.rise_le (room : Nat) :
    (phrase : Power) → phrase.charge ≤ room → phrase.rise ≤ room * room + room
  | .plain base, c => by
    have h := base.rise_le room c
    rw [Power.rise]
    omega
  | .raised base exponent, c => by
    rw [Power.charge] at c
    have h1 := base.rise_le room (by omega)
    have h2 := exponent.rise_le room (by omega)
    have pos := exponent.charge_pos
    rw [Power.rise]
    omega

/-- How far a primary can rise, when what its brackets hold keeps within so many levels. -/
lemma Primary.rise_le (room : Nat) :
    (phrase : Primary) → phrase.charge ≤ room → phrase.rise ≤ room * room + room - 1
  | .number _, _ => Nat.zero_le _
  | .var, _ => Nat.zero_le _
  | .constant _, _ => Nat.zero_le _
  | .call _ arg, c => by
    have h := arg.rise_le room c
    rw [Primary.rise]
    omega
  | .group inner, c => by
    have h := inner.rise_le room c
    rw [Primary.rise]
    omega

end

/-- The unknown by itself. -/
def Operand.unknown : Operand :=
  .unsigned (.plain .var)

/-- Some operators of a product, each with the unknown behind it. -/
def ProductTail.unknowns : Nat → ProductTail
  | 0 => .done
  | count + 1 => .more .times .unknown (unknowns count)

/-- Some operators of a sum, each with the unknown behind it. -/
def SumTail.unknowns : Nat → SumTail
  | 0 => .done
  | count + 1 => .more .plus (.mk .unknown .done) (unknowns count)

/-- The phrase that makes the most of `n + 1` levels: what makes the most of `n` levels is raised to a
power, and in front of as many factors and then of as many summands as the levels allow. -/
def tower : Nat → Sum
  | 0 => .mk (.mk .unknown .done) .done
  | n + 1 =>
    .mk (.mk (.unsigned (.raised (.call .sin (tower n)) .unknown)) (.unknowns (n + 1)))
      (.unknowns (n + 1))

/-- The unknown takes one level. -/
lemma Operand.charge_unknown : Operand.unknown.charge = 1 :=
  rfl

/-- The unknown does not rise. -/
lemma Operand.rise_unknown : Operand.unknown.rise = 0 :=
  rfl

/-- A chain of unknowns in a product has an operator for each of them, rises as far and takes a level more.
-/
lemma ProductTail.unknowns_spec (count : Nat) :
    (unknowns count).count = count ∧ (unknowns count).rise = count ∧
      (unknowns (count + 1)).charge = count + 2 := by
  induction count with
  | zero => exact ⟨rfl, rfl, rfl⟩
  | succ count ih =>
    obtain ⟨c, r, ch⟩ := ih
    refine ⟨?_, ?_, ?_⟩
    · rw [unknowns, ProductTail.count, c]
    · rw [unknowns, rise, c, r, Operand.rise_unknown]
      omega
    · rw [unknowns, charge, ch, Operand.charge_unknown]
      omega

/-- A chain of unknowns in a sum has an operator for each of them, rises as far and takes a level more. -/
lemma SumTail.unknowns_spec (count : Nat) :
    (unknowns count).count = count ∧ (unknowns count).rise = count ∧
      (unknowns (count + 1)).charge = count + 2 := by
  have charge_next : (Product.mk .unknown .done).charge = 1 := rfl
  have rise_next : (Product.mk .unknown .done).rise = 0 := rfl
  induction count with
  | zero => exact ⟨rfl, rfl, rfl⟩
  | succ count ih =>
    obtain ⟨c, r, ch⟩ := ih
    refine ⟨?_, ?_, ?_⟩
    · rw [unknowns, SumTail.count, c]
    · rw [unknowns, rise, c, r, rise_next]
      omega
    · rw [unknowns, charge, ch, charge_next]
      omega

/-- A tower with `n` powers inside each other needs one level more. -/
lemma charge_tower (n : Nat) : (tower n).charge = n + 1 := by
  induction n with
  | zero => rfl
  | succ n ih =>
    rw [tower, Sum.charge, Product.charge, Operand.charge, Power.charge, Primary.charge, ih,
      (ProductTail.unknowns_spec n).2.2, (SumTail.unknowns_spec n).2.2, Operand.charge_unknown]
    omega

/-- The tower rises with the square of its levels. -/
lemma rise_tower (n : Nat) : (tower n).rise = (n + 1) * (n + 2) - 2 := by
  induction n with
  | zero => rfl
  | succ n ih =>
    obtain ⟨c1, r1, -⟩ := ProductTail.unknowns_spec (n + 1)
    obtain ⟨c2, r2, -⟩ := SumTail.unknowns_spec (n + 1)
    have product : (n + 1) * (n + 2) = n * n + 3 * n + 2 := by ring
    have product' : (n + 1 + 1) * (n + 1 + 2) = n * n + 5 * n + 6 := by ring
    rw [tower, Sum.rise, Product.rise, Operand.rise, Power.rise, Primary.rise, ih, c1, r1, c2, r2,
      Operand.rise_unknown, product, product']
    omega

end Grammar

/-- The limit on nesting allows a tree of height `limit * (limit + 1) - 2`. -/
theorem exists_height_eq :
    ∃ tokens expr, parseTokens tokens = .ok expr ∧
      expr.height = maxDepth * (maxDepth + 1) - 2 := by
  let phrase := Grammar.tower 255
  have c : phrase.charge ≤ maxDepth := Nat.le_of_eq (Grammar.charge_tower 255)
  have accepted := parseTokens_eq_ok_iff.mpr ⟨phrase, (map_token_mk phrase.tokens).symm, rfl, c⟩
  refine ⟨_, phrase.tree, accepted, ?_⟩
  rw [phrase.height_tree]
  exact Grammar.rise_tower 255

/-- The tree of an accepted formula is at most as high as the limit on nesting exactly if the rise of the
sum that the formula spells is. Whatever the formula, its tree is at most `limit * (limit + 1) - 2`
high. -/
theorem height_le_maxDepth_iff {text : String} {expr : Expr} (h : parse text = .ok expr) :
    ∃ tokens, lex text.toList = .ok tokens ∧
      ∃ phrase : Grammar.Sum, phrase.tokens = tokens.map Lexeme.token ∧ phrase.tree = expr ∧
        phrase.charge ≤ maxDepth ∧
        (expr.height ≤ maxDepth ↔ phrase.rise ≤ maxDepth) ∧
        expr.height ≤ maxDepth * (maxDepth + 1) - 2 := by
  rw [parse, mapError_eq_ok_iff, parseChars_eq_ok_iff] at h
  obtain ⟨_, _, tokens, lexed, h⟩ := h
  obtain ⟨phrase, spelled, rfl, c⟩ := parseTokens_eq_ok_iff.mp h
  refine ⟨tokens, lexed, phrase, spelled, rfl, c, ?_, ?_⟩
  · rw [phrase.height_tree]
  · have bound := phrase.rise_le maxDepth c
    rw [phrase.height_tree, Nat.mul_succ]
    exact Nat.le_sub_of_add_le bound

/-- Three chains inside each other, where every operand but the first of a chain is a variable. -/
theorem height_of_nested_chains :
    ∃ expr, parse "((x+x)*x*x)-x" = .ok expr ∧
      ∃ tokens, lex "((x+x)*x*x)-x".toList = .ok tokens ∧
        ∃ phrase : Grammar.Sum, phrase.tokens = tokens.map Lexeme.token ∧ phrase.tree = expr ∧
          phrase.charge ≤ maxDepth ∧
          (expr.height ≤ maxDepth ↔ phrase.rise ≤ maxDepth) ∧
          expr.height ≤ maxDepth * (maxDepth + 1) - 2 := by
  have parsed : parse "((x+x)*x*x)-x" =
      .ok (.binary .sub (.binary .mul (.binary .mul (.binary .add .var .var) .var) .var) .var) := by
    rfl
  exact ⟨_, parsed, height_le_maxDepth_iff parsed⟩

/-- A sum in brackets with `inner` operators, and behind it `outer` operators more. -/
def leaning (inner outer : Nat) : List Char :=
  let more (count : Nat) := (List.replicate count ['+', 'x']).flatten
  '(' :: 'x' :: (more inner ++ ')' :: more outer)

/-- Two chains of 129 and 128 operators are accepted, since no operator of the outer chain takes a level
of the inner one. Their tree is one edge higher than the limit on nesting. -/
theorem parse_leaning_exceeds_maxDepth :
    ∃ expr, parse (String.ofList (leaning 129 128)) = .ok expr ∧ ¬ expr.height ≤ maxDepth := by
  have evaluated : (parseChars (leaning 129 128)).toOption.map Expr.height = some 257 := by
    decide +kernel
  obtain ⟨expr, parsed, height⟩ := toOption_map_eq_some_iff.mp evaluated
  refine ⟨expr, ?_, ?_⟩
  · rw [parse, mapError_eq_ok_iff, String.toList_ofList, parsed]
  · rw [height]
    decide

end Stepwise.Formula
