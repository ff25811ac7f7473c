import Stepwise.Proofs.Double.Sign
import Stepwise.Proofs.Formula.Height
import Stepwise.Proofs.Formula.Printing

/-!
# Accepted formulas are printed and read back

The constants of an accepted formula have no signs, so its expression is printed as a phrase with the same
tree, and is read back exactly if that phrase is not nested too deeply. The brackets of the phrase take
levels that the formula did not need: `**` takes two levels of its exponent instead of one, and every
operator takes a level of what stands in front of it as well.

The expression of a formula that needs at most `room` levels takes at most `room * (room + 1) - 1` when it
is printed. For 15 levels that is less than the limit.
-/

namespace Stepwise.Formula

open Double

section Unsigned

variable {value : Float} {word text : List Char} {tokens : List Token}

/-- A finite number that was read without a sign is unsigned. -/
lemma Unsigned.of_read (read : Decimal.readUnsigned? word = some value)
    (finite : value.isFinite = true) : Unsigned value := by
  obtain ⟨amount, -, rfl⟩ := Option.map_eq_some_iff.mp read
  obtain ⟨nonneg, ne⟩ := (Plus.unpack_ofScientific amount.units _ _).nonneg
  exact ⟨finite, nonneg, ne⟩

/-- The numbers among some tokens are unsigned. -/
def Signless (tokens : List Token) : Prop :=
  ∀ value, .number value ∈ tokens → Unsigned value

/-- If the numbers of some tokens are unsigned, so are those of the parts. -/
lemma Signless.append {first second : List Token} (h : Signless (first ++ second)) :
    Signless first ∧ Signless second :=
  ⟨fun value mem => h value (List.mem_append_left _ mem),
    fun value mem => h value (List.mem_append_right _ mem)⟩

/-- If the numbers of some tokens are unsigned, so are those behind the first. -/
lemma Signless.tail {token : Token} (h : Signless (token :: tokens)) : Signless tokens :=
  fun value mem => h value (List.mem_cons_of_mem _ mem)

/-- A text has no way to write a number with a sign. -/
lemma Writes.signless (writes : Writes text tokens) : Signless tokens := by
  induction writes with
  | nil => exact fun _ => nofun
  | gap _ _ ih => exact ih
  | token spelling _ _ ih =>
    intro value mem
    rcases List.mem_cons.mp mem with rfl | mem
    · cases spelling with
      | number read finite => exact .of_read read finite
    · exact ih value mem

/-- The named constants are unsigned. -/
lemma Constant.unsigned (c : Constant) : Unsigned c.value := by
  cases c <;> exact ⟨by decide +kernel, by decide +kernel, by decide +kernel⟩

end Unsigned

namespace Grammar

mutual

/-- If the numbers of a sum are unsigned, so are all constants of its tree. -/
lemma Sum.unsigned_tree : (phrase : Sum) → Signless phrase.tokens →
    ∀ value ∈ phrase.tree.constants, Unsigned value
  | .mk first rest, numbers =>
    rest.unsigned_tree numbers.append.2 (first.unsigned_tree numbers.append.1)

/-- The rest of a sum of unsigned numbers has a tree of unsigned constants. -/
lemma SumTail.unsigned_tree {left : Expr} : (phrase : SumTail) → Signless phrase.tokens →
    (∀ value ∈ left.constants, Unsigned value) →
      ∀ value ∈ (phrase.tree left).constants, Unsigned value
  | .done, _, before => before
  | .more _ next rest, numbers, before =>
    have operands := List.forall_mem_append.mpr ⟨before, next.unsigned_tree numbers.tail.append.1⟩
    rest.unsigned_tree numbers.tail.append.2 operands

/-- A product of unsigned numbers has a tree of unsigned constants. -/
lemma Product.unsigned_tree : (phrase : Product) → Signless phrase.tokens →
    ∀ value ∈ phrase.tree.constants, Unsigned value
  | .mk first rest, numbers =>
    rest.unsigned_tree numbers.append.2 (first.unsigned_tree numbers.append.1)

/-- The rest of a product of unsigned numbers has a tree of unsigned constants. -/
lemma ProductTail.unsigned_tree {left : Expr} : (phrase : ProductTail) → Signless phrase.tokens →
    (∀ value ∈ left.constants, Unsigned value) →
      ∀ value ∈ (phrase.tree left).constants, Unsigned value
  | .done, _, before => before
  | .more _ next rest, numbers, before =>
    have operands := List.forall_mem_append.mpr ⟨before, next.unsigned_tree numbers.tail.append.1⟩
    rest.unsigned_tree numbers.tail.append.2 operands

/-- An operand of unsigned numbers has a tree of unsigned constants. -/
lemma Operand.unsigned_tree : (phrase : Operand) → Signless phrase.tokens →
    ∀ value ∈ phrase.tree.constants, Unsigned value
  | .signed .plus arg, numbers => arg.unsigned_tree numbers.tail
  | .signed .minus arg, numbers => arg.unsigned_tree numbers.tail
  | .unsigned power, numbers => power.unsigned_tree numbers

/-- A power of unsigned numbers has a tree of unsigned constants. -/
lemma Power.unsigned_tree : (phrase : Power) → Signless phrase.tokens →
    ∀ value ∈ phrase.tree.constants, Unsigned value
  | .plain base, numbers => base.unsigned_tree numbers
  | .raised base exponent, numbers =>
    List.forall_mem_append.mpr
      ⟨base.unsigned_tree numbers.append.1, exponent.unsigned_tree numbers.append.2.tail⟩

/-- A primary of unsigned numbers has a tree of unsigned constants. -/
lemma Primary.unsigned_tree : (phrase : Primary) → Signless phrase.tokens →
    ∀ value ∈ phrase.tree.constants, Unsigned value
  | .number value, numbers =>
    List.forall_mem_singleton.mpr (numbers value (List.mem_singleton.mpr rfl))
  | .var, _ => nofun
  | .constant c, _ => List.forall_mem_singleton.mpr c.unsigned
  | .call _ arg, numbers => arg.unsigned_tree numbers.tail.tail.append.1
  | .group inner, numbers => inner.unsigned_tree numbers.tail.append.1

end

mutual

/-- How many levels the printed tree of a sum takes that needs at most `room` levels itself. -/
lemma Sum.nesting_le (room : ℕ) :
    (phrase : Sum) → phrase.charge ≤ room → phrase.tree.nesting + 1 ≤ room * room + room
  | .mk first rest, c => by
    rw [Sum.charge] at c
    have h1 := first.nesting_le room (by omega)
    have h2 := rest.nesting_le room first.tree (by omega)
    have pos := first.charge_pos
    rw [Sum.tree]
    omega

/-- Every operator of a sum adds a level to the tree in front of it. -/
lemma SumTail.nesting_le (room : ℕ) (left : Expr) :
    (phrase : SumTail) → phrase.charge ≤ room →
      (phrase.tree left).nesting ≤ max (left.nesting + (room - 1)) (room * room + room - 1)
  | .done, _ => by
    rw [SumTail.tree]
    omega
  | .more sign next rest, c => by
    rw [SumTail.charge] at c
    obtain ⟨room, rfl⟩ := Nat.exists_eq_add_one_of_ne_zero (Nat.ne_zero_of_lt c)
    have h1 := next.nesting_le room (by omega)
    have h2 := rest.nesting_le room (.binary sign.operator left next.tree) (by omega)
    have pos := next.charge_pos
    have square : (room + 1) * (room + 1) = room * room + 2 * room + 1 := by ring
    rw [Expr.nesting] at h2
    rw [SumTail.tree]
    omega

/-- How much nesting a printed product takes, by the levels that it took to read. -/
lemma Product.nesting_le (room : ℕ) :
    (phrase : Product) → phrase.charge ≤ room → phrase.tree.nesting ≤ room * room
  | .mk first rest, c => by
    rw [Product.charge] at c
    have h1 := first.nesting_le room (by omega)
    have h2 := rest.nesting_le room first.tree (by omega)
    have pos := first.charge_pos
    rw [Product.tree]
    omega

/-- How much nesting the printed rest of a product takes, by the levels that it took to read. -/
lemma ProductTail.nesting_le (room : ℕ) (left : Expr) :
    (phrase : ProductTail) → phrase.charge ≤ room →
      (phrase.tree left).nesting ≤ max (left.nesting + (room - 1)) (room * room)
  | .done, _ => by
    rw [ProductTail.tree]
    omega
  | .more scale next rest, c => by
    rw [ProductTail.charge] at c
    obtain ⟨room, rfl⟩ := Nat.exists_eq_add_one_of_ne_zero (Nat.ne_zero_of_lt c)
    have h1 := next.nesting_le room (by omega)
    have h2 := rest.nesting_le room (.binary scale.operator left next.tree) (by omega)
    have pos := next.charge_pos
    have square : (room + 1) * (room + 1) = room * room + 2 * room + 1 := by ring
    rw [Expr.nesting] at h2
    rw [ProductTail.tree]
    omega

/-- How much nesting a printed operand takes, by the levels that it took to read. -/
lemma Operand.nesting_le (room : ℕ) :
    (phrase : Operand) → phrase.charge ≤ room → phrase.tree.nesting + room ≤ room * room + 1
  | .signed sign arg, c => by
    rw [Operand.charge] at c
    obtain ⟨room, rfl⟩ := Nat.exists_eq_add_one_of_ne_zero (Nat.ne_zero_of_lt c)
    have h := arg.nesting_le room (by omega)
    have pos := arg.charge_pos
    have square : (room + 1) * (room + 1) = room * room + 2 * room + 1 := by ring
    cases sign with
    | plus =>
      change arg.tree.nesting + (room + 1) ≤ _
      omega
    | minus =>
      change 2 + arg.tree.nesting + (room + 1) ≤ _
      omega
  | .unsigned power, c => by
    rw [Operand.charge] at c
    obtain ⟨room, rfl⟩ := Nat.exists_eq_add_one_of_ne_zero (Nat.ne_zero_of_lt c)
    have h := power.nesting_le room (by omega)
    have square : (room + 1) * (room + 1) = room * room + 2 * room + 1 := by ring
    rw [Operand.tree]
    omega

/-- How much nesting a printed power takes, by the levels that its operands took to read. -/
lemma Power.nesting_le (room : ℕ) :
    (phrase : Power) → phrase.charge ≤ room → phrase.tree.nesting ≤ room * room + room + 1
  | .plain base, c => by
    have h := base.nesting_le room c
    rw [Power.tree]
    omega
  | .raised base exponent, c => by
    rw [Power.charge] at c
    have h1 := base.nesting_le room (by omega)
    have h2 := exponent.nesting_le room (by omega)
    have pos := exponent.charge_pos
    rw [Power.tree, Expr.nesting]
    omega

/-- How much nesting a printed primary takes, by the levels that its inside took to read. -/
lemma Primary.nesting_le (room : ℕ) :
    (phrase : Primary) → phrase.charge ≤ room → phrase.tree.nesting ≤ max 1 (room * room + room)
  | .number _, _ => Nat.le_max_left _ _
  | .var, _ => Nat.le_max_left _ _
  | .constant _, _ => Nat.le_max_left _ _
  | .call _ arg, c => by
    have h := arg.nesting_le room c
    rw [Primary.tree, Expr.nesting]
    omega
  | .group inner, c => by
    have h := inner.nesting_le room c
    rw [Primary.tree]
    omega

end

end Grammar

/-- The constants of an accepted formula have no signs. -/
lemma unsigned_of_lex {text : List Char} {tokens : List Lexeme} (lexed : lex text = .ok tokens)
    {phrase : Grammar.Sum} (spelled : phrase.tokens = tokens.map Lexeme.token) :
    ∀ value ∈ phrase.tree.constants, Unsigned value := by
  have writes : Writes text phrase.tokens := lex_eq_ok_iff.mp ⟨tokens, lexed, spelled.symm⟩
  exact phrase.unsigned_tree writes.signless

/-- Without signs in its constants, an expression is read back if it is not nested too deeply. -/
lemma parse_print_of_unsigned {expr : Expr} (unsigned : ∀ value ∈ expr.constants, Unsigned value) :
    (expr.nesting ≤ maxDepth → parse expr.print = .ok expr) ∧
      (maxDepth < expr.nesting → ∃ position, parse expr.print =
        .error { typed := expr.print, parsed := expr.print, cause := .invalid position .tooDeep }) := by
  have charge : (Grammar.written expr).charge = expr.nesting := by
    rw [Grammar.written_eq_printed unsigned, ← Grammar.Operand.charge_sum, Grammar.charge_printed]
  have tree : (Grammar.written expr).tree = expr := by
    rw [Grammar.written_eq_printed unsigned]
    exact Grammar.tree_printed expr
  have reading := parse_written fun value mem => (unsigned value mem).finite
  rwa [charge, tree] at reading

/-- The expression of an accepted formula is read back from its text exactly if that takes at most as many
levels of nesting as are allowed, and is refused as nested too deeply if it takes more. It is read back
whenever the formula itself needs at most 15 levels. -/
theorem parse_print_of_parse {text : String} {expr : Expr} (h : parse text = .ok expr) :
    ∃ tokens, lex text.toList = .ok tokens ∧
      ∃ phrase : Grammar.Sum, phrase.tokens = tokens.map Lexeme.token ∧ phrase.tree = expr ∧
        (parse expr.print = .ok expr ↔ expr.nesting ≤ maxDepth) ∧
        (maxDepth < expr.nesting → ∃ position, parse expr.print =
          .error { typed := expr.print, parsed := expr.print, cause := .invalid position .tooDeep }) ∧
        (phrase.charge ≤ 15 → parse expr.print = .ok expr) := by
  rw [parse, mapError_eq_ok_iff, parseChars_eq_ok_iff] at h
  obtain ⟨_, _, tokens, lexed, h⟩ := h
  obtain ⟨phrase, spelled, rfl, -⟩ := parseTokens_eq_ok_iff.mp h
  obtain ⟨fits, deep⟩ := parse_print_of_unsigned (unsigned_of_lex lexed spelled)
  refine ⟨tokens, lexed, phrase, spelled, rfl, ⟨fun read => ?_, fits⟩, deep, fun few => fits ?_⟩
  · by_contra c
    obtain ⟨position, refused⟩ := deep (Nat.lt_of_not_le c)
    cases read.symm.trans refused
  · have bound := phrase.nesting_le 15 few
    exact Nat.le_trans (Nat.le_of_succ_le bound) (by decide)

/-- A formula with signs, calls, powers and a named constant is read back from the text of its tree. -/
theorem parse_print_of_parse_mixed :
    ∃ expr, parse "-2.5*sin(x)**-x**2 - (pi+x)/3" = .ok expr ∧ parse expr.print = .ok expr := by
  obtain ⟨expr, parsed, few⟩ : ∃ expr, parse "-2.5*sin(x)**-x**2 - (pi+x)/3" = .ok expr ∧
      expr.nesting = 10 :=
    toOption_map_eq_some_iff.mp (by decide +kernel)
  obtain ⟨_, _, _, _, _, read_iff, _⟩ := parse_print_of_parse parsed
  exact ⟨expr, parsed, read_iff.mpr (few ▸ by decide)⟩

/-- Some variables as exponents on top of each other. -/
def Expr.exponents : ℕ → Expr
  | 0 => var
  | count + 1 => binary .pow var (exponents count)

/-- Each exponent adds two levels of nesting to the printed text. -/
lemma nesting_exponents (count : ℕ) : (Expr.exponents count).nesting = 2 * count + 1 := by
  induction count with
  | zero => rfl
  | succ count ih =>
    rw [Expr.exponents, Expr.nesting, Expr.nesting, ih]
    omega

/-- Stacked variables have no constants. -/
lemma constants_exponents (count : ℕ) : (Expr.exponents count).constants = [] := by
  induction count with
  | zero => rfl
  | succ count ih => exact ih

/-- The text of some variables as exponents, without brackets. -/
def exponentsText (count : ℕ) : List Char :=
  'x' :: (List.replicate count ['*', '*', 'x']).flatten

/-- A tower of 128 exponents is accepted, with a level for each of them and one for its base. With
brackets it takes 257 levels and is refused. -/
theorem parse_print_exponents :
    parse (String.ofList (exponentsText 128)) = .ok (Expr.exponents 128) ∧
      ∃ position, parse (Expr.exponents 128).print =
        .error ⟨(Expr.exponents 128).print, (Expr.exponents 128).print,
          .invalid position .tooDeep⟩ := by
  constructor
  · have parsed : parseChars (exponentsText 128) = .ok (Expr.exponents 128) := by decide +kernel
    rw [parse, mapError_eq_ok_iff, String.toList_ofList, parsed]
  · have unsigned : ∀ value ∈ (Expr.exponents 128).constants, Unsigned value := by
      simp only [constants_exponents, List.not_mem_nil, false_imp_iff, implies_true]
    refine (parse_print_of_unsigned unsigned).2 ?_
    rw [nesting_exponents]
    decide

end Stepwise.Formula
