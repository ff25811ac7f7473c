import Stepwise.Proofs.Formula.Writing

/-!
# Printed expressions are read back

The text of an expression spells a phrase with brackets around every operation. A negative constant is
printed with a sign in front, so it comes back as a sign and a constant. The brackets cost levels of
nesting of their own, and an expression is read back exactly if they fit into the levels allowed.
-/

namespace Stepwise.Formula

namespace Expr

/-- An expression with the signs of its constants in front of them. -/
def signed : Expr → Expr
  | var => var
  | const value => if value < 0.0 then neg (const (-value)) else const value
  | binary op left right => binary op left.signed right.signed
  | neg arg => neg arg.signed
  | call f arg => call f arg.signed

/-- The levels of nesting that an expression takes once it is printed. -/
def nesting : Expr → Nat
  | var => 1
  | const _ => 1
  | binary _ left right => max (1 + left.nesting) (2 + right.nesting)
  | neg arg => 2 + arg.nesting
  | call _ arg => 1 + arg.nesting

end Expr

namespace Grammar

/-- Two primaries with an operator between them. -/
def infixSum (left right : Primary) : Operator → Sum
  | .add => .mk (.mk left.operand .done) (.more .plus (.mk right.operand .done) .done)
  | .sub => .mk (.mk left.operand .done) (.more .minus (.mk right.operand .done) .done)
  | .mul => .mk (.mk left.operand (.more .times right.operand .done)) .done
  | .div => .mk (.mk left.operand (.more .divide right.operand .done)) .done
  | .pow => Operand.sum (.unsigned (.raised left right.operand))

/-- The phrase that an expression is printed as. -/
def printed : Expr → Primary
  | .var => .var
  | .const value => .number value
  | .binary op left right => .group (infixSum (printed left) (printed right) op)
  | .neg arg => .group (Operand.sum (.signed .minus (printed arg).operand))
  | .call f arg => .call f (printed arg).operand.sum

section Infix

variable (left right : Primary) (op : Operator)

/-- Joining two primaries as operands makes them a sum with one operator. -/
lemma joined_operand : joined left.operand right.operand op = infixSum left right op := by
  cases op <;> rfl

/-- The tree of two primaries with an operator has that operator at its root. -/
lemma infixSum_tree : (infixSum left right op).tree = .binary op left.tree right.tree := by
  cases op <;> rfl

/-- The second of two primaries takes a level more than the first, because an operator takes one itself. -/
lemma infixSum_charge :
    (infixSum left right op).charge = max (left.charge + 1) (right.charge + 2) := by
  cases op <;> simp [infixSum, Operand.sum, Primary.operand, Sum.charge, SumTail.charge, Product.charge,
    ProductTail.charge, Operand.charge, Power.charge]

end Infix

/-- The phrase that an expression is printed as has the expression as its tree. -/
lemma tree_printed (expr : Expr) : (printed expr).tree = expr := by
  induction expr with
  | var => rfl
  | const => rfl
  | binary op left right ihl ihr => rw [printed, Primary.tree, infixSum_tree, ihl, ihr]
  | neg arg ih => exact congrArg Expr.neg ih
  | call f arg ih => exact congrArg (Expr.call f) ih

/-- Without signs in its constants, an expression is written as the phrase it is printed as. -/
lemma written_eq_printed {expr : Expr} (unsigned : ∀ value ∈ expr.constants, Unsigned value) :
    written expr = (printed expr).operand := by
  induction expr with
  | var => rfl
  | const value =>
    have h := unsigned value (List.mem_singleton.mpr rfl)
    rw [written, if_neg h.nonneg, if_neg h.ne]
    rfl
  | binary op left right ihl ihr =>
    obtain ⟨unsigned_left, unsigned_right⟩ := List.forall_mem_append.mp unsigned
    rw [written, ihl unsigned_left, ihr unsigned_right, joined_operand]
    rfl
  | neg arg ih =>
    rw [written, ih unsigned]
    rfl
  | call f arg ih =>
    rw [written, ih unsigned]
    rfl

/-- The phrase takes the levels of the expression, one of them for itself. -/
lemma charge_printed (expr : Expr) : (printed expr).operand.sum.charge = expr.nesting := by
  rw [Operand.charge_sum, Primary.charge_operand]
  induction expr with
  | var => rfl
  | const => rfl
  | binary op left right ihl ihr =>
    rw [printed, Primary.charge, infixSum_charge, Expr.nesting, ← ihl, ← ihr]
    omega
  | neg arg ih =>
    rw [printed, Primary.charge, Operand.charge_sum, Operand.charge, Primary.charge_operand,
      Expr.nesting, ih]
    omega
  | call f arg ih =>
    rw [printed, Primary.charge, Operand.charge_sum, Primary.charge_operand, Expr.nesting, ih]
    omega

end Grammar

section Text

variable {expr : Expr} {text : List Char} {tokens : List Token}

/-- Printing an expression writes the tokens of its phrase, in front of a text that ends its last word. -/
lemma Writes.print (unsigned : ∀ value ∈ expr.constants, Unsigned value) (breaks : Breaks text)
    (writes : Writes text tokens) :
    Writes (expr.print.toList ++ text) ((Grammar.printed expr).tokens ++ tokens) := by
  have written := WritesAlone.print (fun value mem => (unsigned value mem).finite) breaks writes
  rwa [Grammar.written_eq_printed unsigned] at written

/-- The brackets of a printed text match. -/
lemma Matched.print (unsigned : ∀ value ∈ expr.constants, Unsigned value) :
    Matched expr.print.toList :=
  .printed fun value mem => (unsigned value mem).finite

/-- A printed text is not blank. -/
lemma exists_not_isBlank_print (unsigned : ∀ value ∈ expr.constants, Unsigned value) :
    ∃ c ∈ expr.print.toList, Text.isBlank c = false :=
  exists_ink_print fun value mem => (unsigned value mem).finite

end Text

section Signed

variable {expr : Expr}

/-- The signs of the constants are printed as signs. -/
lemma Expr.print_signed (h : ∀ value ∈ expr.constants, value.isFinite = true ∧ value ≠ -0.0) :
    expr.signed.print = expr.print := by
  induction expr with
  | var => rfl
  | const value =>
    obtain ⟨finite, -⟩ := h value (List.mem_singleton.mpr rfl)
    rw [signed]
    split
    case isTrue neg => exact (print_const_of_lt_zero finite neg).2.symm
    case isFalse => rfl
  | binary op left right ihl ihr =>
    obtain ⟨hl, hr⟩ := List.forall_mem_append.mp h
    rw [signed, print, print, ihl hl, ihr hr]
  | neg arg ih => rw [signed, print, print, ih h]
  | call f arg ih => rw [signed, print, print, ih h]

/-- With their signs in front of them, finite constants other than minus zero are unsigned. -/
lemma Expr.unsigned_signed (h : ∀ value ∈ expr.constants, value.isFinite = true ∧ value ≠ -0.0) :
    ∀ value ∈ expr.signed.constants, Unsigned value := by
  induction expr with
  | var => exact nofun
  | const value =>
    obtain ⟨finite, ne⟩ := h value (List.mem_singleton.mpr rfl)
    rw [signed]
    split
    case isTrue neg => exact List.forall_mem_singleton.mpr (print_const_of_lt_zero finite neg).1
    case isFalse nonneg => exact List.forall_mem_singleton.mpr ⟨finite, nonneg, ne⟩
  | binary op left right ihl ihr =>
    obtain ⟨hl, hr⟩ := List.forall_mem_append.mp h
    exact List.forall_mem_append.mpr ⟨ihl hl, ihr hr⟩
  | neg arg ih => exact ih h
  | call f arg ih => exact ih h

end Signed

/-- Printing is undone by parsing, up to the limit on nesting. A printed expression is read as the
expression with the signs of its constants in front of them, if that takes at most 256 levels of nesting,
and is refused as nested too deeply if it takes more. -/
theorem parse_print {expr : Expr}
    (h : ∀ value ∈ expr.constants, value.isFinite = true ∧ value ≠ -0.0) :
    (expr.signed.nesting ≤ 256 → parse expr.print = .ok expr.signed) ∧
      (256 < expr.signed.nesting → ∃ position, parse expr.print =
        .error { typed := expr.print, parsed := expr.print, cause := .invalid position .tooDeep }) ∧
      Fault.tooDeep.message = "expression nested too deeply (more than 256 levels)" := by
  have unsigned := Expr.unsigned_signed h
  have writes := Writes.print unsigned .nil .nil
  have matched := Matched.print unsigned 0 []
  rw [List.append_nil, List.append_nil, ← Grammar.Primary.tokens_operand,
    ← Grammar.Operand.tokens_sum] at writes
  rw [List.append_nil] at matched
  obtain ⟨fits, deep⟩ := parse_of_writes (exists_not_isBlank_print unsigned) matched writes
  have tree : (Grammar.printed expr.signed).operand.sum.tree = expr.signed :=
    Grammar.tree_printed expr.signed
  rw [Grammar.charge_printed, tree, Expr.print_signed h] at fits
  rw [Grammar.charge_printed, Expr.print_signed h] at deep
  exact ⟨fits, deep, rfl⟩

/-- An expression in brackets with a minus sign in front, some times. -/
def Expr.negated (expr : Expr) : ℕ → Expr
  | 0 => expr
  | count + 1 => neg (expr.negated count)

/-- A negative constant below as many signs as are refused, and below fewer of them and a function. -/
theorem parse_print_negated :
    (∃ position, parse ((Expr.const (-2.5)).negated 127).print =
      .error ⟨((Expr.const (-2.5)).negated 127).print, ((Expr.const (-2.5)).negated 127).print,
        .invalid position .tooDeep⟩) ∧
      parse ((Expr.call .abs (.const (-2.5))).negated 126).print =
        .ok ((Expr.call .abs (.neg (.const 2.5))).negated 126) := by
  have constants : ((Expr.const (-2.5)).negated 127).constants = [-2.5] := rfl
  have constants' : ((Expr.call .abs (.const (-2.5))).negated 126).constants = [-2.5] := rfl
  have writable : ∀ value ∈ [(-2.5 : Float)], value.isFinite = true ∧ value ≠ -0.0 := by
    decide +kernel
  have deep : ((Expr.const (-2.5)).negated 127).signed.nesting = 257 := by decide +kernel
  have fits : ((Expr.call .abs (.const (-2.5))).negated 126).signed.nesting = 256 := by
    decide +kernel
  have signed : ((Expr.call .abs (.const (-2.5))).negated 126).signed =
      (Expr.call .abs (.neg (.const 2.5))).negated 126 := by
    decide +kernel
  constructor
  · exact (parse_print (constants ▸ writable)).2.1 (deep ▸ Nat.lt_succ_self 256)
  · exact signed ▸ (parse_print (constants' ▸ writable)).1 (Nat.le_of_eq fits)

end Stepwise.Formula
