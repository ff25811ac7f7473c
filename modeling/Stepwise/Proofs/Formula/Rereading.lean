import Stepwise.Proofs.Formula.Evaluation
import Stepwise.Proofs.Formula.Writing

/-!
# Values of expressions that are read back

A printed expression is read as a tree in which the signs of constants are operations of their own. This
changes no value, with one exception: the sign of a negative zero that is raised to a power is read as a
sign of the power.
-/

namespace Stepwise.Formula

open Double

namespace Expr

/-- What the text of an expression says: signs of constants are operations, and a negative zero that is
raised to a power leaves its sign in front of the power. -/
def reread : Expr → Expr
  | var => var
  | const value => if value < 0.0 ∨ value = -0.0 then neg (const (-value)) else const value
  | binary op left right =>
    if op = .pow ∧ left = const (-0.0) then neg (binary .pow (const 0.0) right.reread)
    else binary op left.reread right.reread
  | neg arg => neg arg.reread
  | call f arg => call f arg.reread

end Expr

namespace Grammar

/-- The negative zero is written as a zero behind a minus sign, without brackets. -/
lemma written_negative_zero :
    written (.const (-0.0)) = .signed .minus (Primary.number 0.0).operand := by
  rw [written, if_neg (by decide), if_pos rfl]

/-- Only the negative zero is written without brackets although it has a sign. -/
lemma exists_written_eq_operand {expr : Expr} (ne : expr ≠ .const (-0.0)) :
    ∃ base : Primary, written expr = base.operand := by
  cases expr with
  | var => exact ⟨_, rfl⟩
  | const value =>
    rw [written]
    split
    case isTrue => exact ⟨_, rfl⟩
    case isFalse => exact ⟨_, if_neg fun e => ne (congrArg Expr.const e)⟩
  | binary op left right => exact ⟨_, rfl⟩
  | neg arg => exact ⟨_, rfl⟩
  | call f arg => exact ⟨_, rfl⟩

/-- Two operands joined by anything but a power mean the operation of their trees. -/
lemma joined_tree {op : Operator} (ne : op ≠ .pow) (left right : Operand) :
    (joined left right op).tree = .binary op left.tree right.tree := by
  cases op with
  | pow => exact absurd rfl ne
  | _ => rfl

/-- The phrase that an expression is written as has the tree that the text says. -/
lemma tree_written (expr : Expr) : (written expr).tree = expr.reread := by
  induction expr with
  | var => rfl
  | const value =>
    rw [written, Expr.reread]
    by_cases neg : value < 0.0
    case pos =>
      rw [if_pos neg, if_pos (.inl neg)]
      rfl
    case neg =>
      rw [if_neg neg]
      by_cases zero : value = -0.0
      case pos =>
        subst zero
        rw [if_pos rfl, if_pos (.inr rfl), neg_neg_self]
        rfl
      case neg =>
        rw [if_neg zero, if_neg (not_or.mpr ⟨neg, zero⟩)]
        rfl
  | binary op left right ihl ihr =>
    rw [written, Expr.reread]
    change (joined (written left) (written right) op).tree = _
    by_cases power : op = .pow
    case pos =>
      subst power
      by_cases zero : left = .const (-0.0)
      case pos =>
        rw [if_pos ⟨rfl, zero⟩, zero, written_negative_zero, ← ihr]
        rfl
      case neg =>
        -- The power is that of a primary, and no sign can come between.
        obtain ⟨base, e⟩ := exists_written_eq_operand zero
        rw [if_neg fun h => zero h.2, ← ihl, ← ihr, e]
        rfl
    case neg => rw [if_neg fun h => power h.1, joined_tree power, ihl, ihr]
  | neg arg ih => exact congrArg Expr.neg ih
  | call f arg ih => exact congrArg (Expr.call f) ih

end Grammar

/-- What is read from a printed expression is what its text says. -/
lemma eq_reread_of_parse_print {expr read : Expr}
    (finite : ∀ value ∈ expr.constants, value.isFinite = true) (h : parse expr.print = .ok read) :
    read = expr.reread := by
  obtain ⟨fits, deep⟩ := parse_written finite
  rw [← Grammar.tree_written]
  rcases Nat.lt_or_ge maxDepth (Grammar.written expr).charge with c | c
  · obtain ⟨position, e⟩ := deep c
    cases h.symm.trans e
  · exact Except.ok.inj (h.symm.trans (fits c))

section Parts

variable {expr part inner : Expr}

/-- A part of a part is a part. -/
lemma Expr.mem_parts_trans (h : inner ∈ part.parts) (h' : part ∈ expr.parts) :
    inner ∈ expr.parts := by
  induction expr with
  | var => rwa [List.mem_singleton.mp h'] at h
  | const value => rwa [List.mem_singleton.mp h'] at h
  | binary op left right ihl ihr =>
    rcases List.mem_cons.mp h' with rfl | h'
    · exact h
    · have below := (List.mem_append.mp h').imp ihl ihr
      exact List.mem_cons_of_mem _ (List.mem_append.mpr below)
  | neg arg ih =>
    rcases List.mem_cons.mp h' with rfl | h'
    · exact h
    · exact List.mem_cons_of_mem _ (ih h')
  | call f arg ih =>
    rcases List.mem_cons.mp h' with rfl | h'
    · exact h
    · exact List.mem_cons_of_mem _ (ih h')

/-- The constants of an expression are its parts that are constants. -/
lemma Expr.mem_constants_iff {value : Float} :
    value ∈ expr.constants ↔ .const value ∈ expr.parts := by
  induction expr with
  | var => simp [constants, parts]
  | const value => simp [constants, parts]
  | binary op left right ihl ihr => simp [constants, parts, ihl, ihr]
  | neg arg ih => simp [constants, parts, ih]
  | call f arg ih => simp [constants, parts, ih]

/-- What holds of all constants of an expression holds of the constants of its parts. -/
lemma Expr.forall_constants_of_mem_parts {P : Float → Prop} (h : ∀ value ∈ expr.constants, P value)
    (mem : part ∈ expr.parts) : ∀ value ∈ part.constants, P value := by
  intro value constant
  exact h value (mem_constants_iff.mpr (mem_parts_trans (mem_constants_iff.mp constant) mem))

end Parts

section Signs

variable {lib : Elementary} {expr part left right arg : Expr} {op : Operator} {f : Function} {x : Float}

/-- The sign of the base can be taken out of a power of the negative zero. -/
def SignPasses (lib : Elementary) (b : Float) : Prop :=
  Operator.pow.apply lib (-0.0) b = (Operator.pow.apply lib 0.0 b).map Neg.neg

/-- The sign can be taken out of all powers of the negative zero in an expression that have values. -/
def Expr.SignsPass (lib : Elementary) (x : Float) (expr : Expr) : Prop :=
  ∀ exponent b, .binary .pow (.const (-0.0)) exponent ∈ expr.parts → exponent.eval lib x = .ok b →
    SignPasses lib b

/-- If the signs can be taken out of an expression, they can be taken out of its parts. -/
lemma Expr.SignsPass.of_mem_parts (h : expr.SignsPass lib x) (mem : part ∈ expr.parts) :
    part.SignsPass lib x :=
  fun exponent b power value => h exponent b (mem_parts_trans power mem) value

/-- A finite constant has its value. -/
lemma eval_const {value : Float} (finite : value.isFinite = true) :
    (Expr.const value).eval lib x = .ok value :=
  finite_eq_ok_iff.mpr ⟨finite, rfl⟩

/-- A negation has the negated value, where the operand has one. -/
lemma eval_neg (arg : Expr) : (Expr.neg arg).eval lib x = (arg.eval lib x).map Neg.neg := by
  rw [Expr.eval]
  cases arg.eval lib x <;> rfl

/-- With a finite constant on the left, an operation depends on the right side alone. -/
lemma eval_binary_const {value : Float} (finite : value.isFinite = true) (right : Expr) :
    (Expr.binary op (.const value) right).eval lib x = right.eval lib x >>= op.apply lib value := by
  change ((Expr.const value).eval lib x >>= fun a => right.eval lib x >>= op.apply lib a) = _
  rw [eval_const finite]
  rfl

/-- A power of the negative zero keeps its value exactly if the sign can be taken out of it. -/
lemma eval_neg_power_eq_iff (same : left.eval lib x = right.eval lib x) :
    (Expr.neg (.binary .pow (.const 0.0) left)).eval lib x =
        (Expr.binary .pow (.const (-0.0)) right).eval lib x ↔
      ∀ b, right.eval lib x = .ok b → SignPasses lib b := by
  rw [eval_neg, eval_binary_const rfl, eval_binary_const rfl, same]
  cases right.eval lib x with
  | error e => exact ⟨fun _ => nofun, fun _ => rfl⟩
  | ok b =>
    constructor
    · rintro same _ ⟨⟩
      exact same.symm
    · intro passes
      exact (passes b rfl).symm

/-- Where signs can be taken out of powers, an expression has the value of what is read back. -/
lemma eval_reread (finite : ∀ value ∈ expr.constants, value.isFinite = true)
    (passes : expr.SignsPass lib x) : expr.reread.eval lib x = expr.eval lib x := by
  induction expr with
  | var => rfl
  | const value =>
    have finite := finite value (List.mem_singleton.mpr rfl)
    rw [Expr.reread]
    split
    case isTrue =>
      rw [eval_neg, eval_const (isFinite_neg value ▸ finite), eval_const finite]
      exact congrArg Except.ok (neg_neg_self value)
    case isFalse => rfl
  | binary op left right ihl ihr =>
    obtain ⟨finite_left, finite_right⟩ := List.forall_mem_append.mp finite
    have ihl := ihl finite_left (passes.of_mem_parts (by simp [Expr.parts]))
    have ihr := ihr finite_right (passes.of_mem_parts (by simp [Expr.parts]))
    rw [Expr.reread]
    split
    case isTrue power =>
      obtain ⟨rfl, rfl⟩ := power
      exact (eval_neg_power_eq_iff ihr).mpr fun b value =>
        passes right b (Expr.mem_parts_self _) value
    case isFalse => rw [Expr.eval, Expr.eval, ihl, ihr]
  | neg arg ih =>
    have ih := ih finite (passes.of_mem_parts (by simp [Expr.parts]))
    rw [Expr.reread, Expr.eval, Expr.eval, ih]
  | call f arg ih =>
    have ih := ih finite (passes.of_mem_parts (by simp [Expr.parts]))
    rw [Expr.reread, Expr.eval, Expr.eval, ih]

/-- An expression whose constants are finite is read back from its text as the tree that the text says.
Every part of it has the same value, or the same error, as what its own text says, exactly if the sign
can be taken out of all powers of the negative zero in it, and then so has the whole expression. -/
theorem eval_of_parse_print {expr read : Expr} (lib : Elementary) (x : Float)
    (finite : ∀ value ∈ expr.constants, value.isFinite = true) (h : parse expr.print = .ok read) :
    read = expr.reread ∧
      ((∀ part ∈ expr.parts, part.reread.eval lib x = part.eval lib x) ↔ expr.SignsPass lib x) ∧
      (expr.SignsPass lib x → read.eval lib x = expr.eval lib x) := by
  obtain rfl := eq_reread_of_parse_print finite h
  refine ⟨rfl, ⟨?_, ?_⟩, eval_reread finite⟩
  · intro same exponent b power value
    have outer := same _ power
    rw [Expr.reread, if_pos ⟨rfl, rfl⟩] at outer
    have inner := same exponent (Expr.mem_parts_trans (by simp [Expr.parts]) power)
    exact (eval_neg_power_eq_iff inner).mp outer b value
  · intro passes part mem
    exact eval_reread (Expr.forall_constants_of_mem_parts finite mem) (passes.of_mem_parts mem)

/-- The sum `(-0 ** x) + (-2.5)`. -/
def signedSum : Expr :=
  .binary .add (.binary .pow (.const (-0.0)) .var) (.const (-2.5))

/-- Where the exponent is one, the sign can be taken out of the power, and the sum keeps its value. -/
theorem eval_of_parse_print_signedSum :
    ∃ read, parse signedSum.print = .ok read ∧ read ≠ signedSum ∧
      read.eval .atOrigin 1.0 = signedSum.eval .atOrigin 1.0 := by
  have finite : ∀ value ∈ signedSum.constants, value.isFinite = true := by decide +kernel
  have parsed : parse signedSum.print = .ok signedSum.reread := by decide +kernel
  have passes : signedSum.SignsPass .atOrigin 1.0 := by
    intro exponent b power value
    obtain rfl : exponent = .var := by simpa [signedSum, Expr.parts] using power
    obtain ⟨-, rfl⟩ := finite_eq_ok_iff.mp value
    rfl
  obtain ⟨-, -, same⟩ := eval_of_parse_print .atOrigin 1.0 finite parsed
  exact ⟨_, parsed, by decide +kernel, same passes⟩

/-- The text `(-0 ** x)` says that the sign is that of the power. Where the exponent is zero the power is
one, so what is read back is `-1` there. -/
theorem eval_of_parse_print_ne :
    ¬ ∀ (expr read : Expr) (lib : Elementary) (x : Float), (∀ a, lib.pow a 0.0 = 1.0) →
      (∀ value ∈ expr.constants, value.isFinite = true) → parse expr.print = .ok read →
        read.eval lib x = expr.eval lib x := by
  intro same
  have parsed : parse (Expr.binary .pow (.const (-0.0)) .var).print =
      .ok (.neg (.binary .pow (.const 0.0) .var)) := by
    decide +kernel
  have values := same _ _ .atOrigin 0.0 (fun _ => rfl) (by decide +kernel) parsed
  have different : (Expr.neg (.binary .pow (.const 0.0) .var)).eval .atOrigin 0.0 ≠
      (Expr.binary .pow (.const (-0.0)) .var).eval .atOrigin 0.0 := by
    decide +kernel
  exact different values

end Signs

end Stepwise.Formula
