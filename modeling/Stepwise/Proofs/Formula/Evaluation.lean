import Stepwise.Formula.Eval
import Stepwise.Proofs.Double.Sign
import Stepwise.Proofs.Double.SquareRoot
import Stepwise.Proofs.Outcome

/-!
# Values are finite

An expression that has a value at a point has one for each of its parts there, and all of these values are
finite, whatever the constants and the point are.

Arithmetic, powers, tangents and exponentials are checked as they are computed. The other operations are
not. Negation and absolute values keep a finite double finite, and so does the square root of one that is
not below zero. The rest is up to the functions that expressions are evaluated with.
-/

namespace Stepwise.Formula

open Double

/-- An expression, the parts of its operands and their parts. -/
def Expr.parts : Expr → List Expr
  | var => [var]
  | const value => [const value]
  | binary op left right => binary op left right :: (left.parts ++ right.parts)
  | neg arg => neg arg :: arg.parts
  | call f arg => call f arg :: arg.parts

/-- An expression is a part of itself. -/
@[simp] lemma Expr.mem_parts_self (expr : Expr) : expr ∈ expr.parts := by
  cases expr <;> simp [parts]

/-- The functions whose values nothing checks are finite at finite arguments, the logarithms at positive
ones. -/
structure Elementary.KeepsFinite (lib : Elementary) : Prop where
  sin {a} : a.isFinite = true → (lib.sin a).isFinite = true
  cos {a} : a.isFinite = true → (lib.cos a).isFinite = true
  log {a} : a.isFinite = true → 0.0 < a → (lib.log a).isFinite = true
  log10 {a} : a.isFinite = true → 0.0 < a → (lib.log10 a).isFinite = true

section Operations

variable {lib : Elementary} {a b v : Float}

/-- The check for finite values passes exactly the finite ones, unchanged. -/
lemma finite_eq_ok_iff : finite a = .ok v ↔ a.isFinite = true ∧ a = v := by
  unfold finite
  split
  case isTrue h => exact ⟨fun e => ⟨h, Except.ok.inj e⟩, fun e => congrArg _ e.2⟩
  case isFalse h => exact ⟨nofun, fun e => absurd e.1 h⟩

/-- What passes the check is finite. -/
lemma isFinite_of_finite (h : finite a = .ok v) : v.isFinite = true := by
  obtain ⟨finite, rfl⟩ := finite_eq_ok_iff.mp h
  exact finite

/-- The result of an operator is checked, whatever its operands are. -/
lemma Operator.isFinite_of_apply {op : Operator} (h : op.apply lib a b = .ok v) :
    v.isFinite = true := by
  cases op with
  | add => exact isFinite_of_finite h
  | sub => exact isFinite_of_finite h
  | mul => exact isFinite_of_finite h
  | div =>
    simp only [apply] at h
    split at h
    · cases h
    · exact isFinite_of_finite h
  | pow =>
    simp only [apply] at h
    split at h
    · cases h
    · split at h
      · cases h
      · exact isFinite_of_finite h

/-- A finite double that is not at most zero is positive. -/
lemma pos_of_not_le (ha : a.isFinite = true) (h : ¬ a ≤ 0.0) : 0.0 < a := by
  rw [le_iff_value ha rfl] at h
  rw [lt_iff_value rfl ha]
  exact not_le.mp h

/-- A named function has finite values at finite arguments. -/
lemma Function.isFinite_of_apply {f : Function} (library : lib.KeepsFinite)
    (ha : a.isFinite = true) (h : f.apply lib a = .ok v) : v.isFinite = true := by
  cases f with
  | sin =>
    cases h
    exact library.sin ha
  | cos =>
    cases h
    exact library.cos ha
  | tan => exact isFinite_of_finite h
  | exp => exact isFinite_of_finite h
  | log =>
    simp only [apply] at h
    split at h
    case isTrue => cases h
    case isFalse positive =>
      cases h
      exact library.log ha (pos_of_not_le ha positive)
  | log10 =>
    simp only [apply] at h
    split at h
    case isTrue => cases h
    case isFalse positive =>
      cases h
      exact library.log10 ha (pos_of_not_le ha positive)
  | sqrt =>
    simp only [apply] at h
    split at h
    case isTrue => cases h
    case isFalse nonneg =>
      cases h
      exact isFinite_sqrt ha nonneg
  | abs =>
    cases h
    exact (value_abs ha).1

end Operations

section Evaluation

variable {lib : Elementary} {expr part left right arg : Expr} {op : Operator} {f : Function}
  {x v : Float}

/-- A binary expression has a value exactly if both operands have one and the operator accepts these. -/
lemma eval_binary_eq_ok_iff : (Expr.binary op left right).eval lib x = .ok v ↔
    ∃ a, left.eval lib x = .ok a ∧ ∃ b, right.eval lib x = .ok b ∧ op.apply lib a b = .ok v := by
  simp only [Expr.eval, bind_eq_ok_iff]

/-- A negated expression has a value exactly if its operand has one. -/
lemma eval_neg_eq_ok_iff : (Expr.neg arg).eval lib x = .ok v ↔
    ∃ a, arg.eval lib x = .ok a ∧ -a = v := by
  simp [Expr.eval, bind_eq_ok_iff, pure, Except.pure]

/-- A call has a value exactly if its argument has one and the function accepts it. -/
lemma eval_call_eq_ok_iff : (Expr.call f arg).eval lib x = .ok v ↔
    ∃ a, arg.eval lib x = .ok a ∧ f.apply lib a = .ok v := by
  simp only [Expr.eval, bind_eq_ok_iff]

/-- An operation is only applied when all its operands have values. -/
lemma exists_eval_part (h : expr.eval lib x = .ok v) (mem : part ∈ expr.parts) :
    ∃ w, part.eval lib x = .ok w := by
  induction expr generalizing v with
  | var =>
    obtain rfl := List.mem_singleton.mp mem
    exact ⟨v, h⟩
  | const value =>
    obtain rfl := List.mem_singleton.mp mem
    exact ⟨v, h⟩
  | binary op left right ihl ihr =>
    obtain ⟨a, ha, b, hb, -⟩ := eval_binary_eq_ok_iff.mp h
    rcases List.mem_cons.mp mem with rfl | mem
    · exact ⟨v, h⟩
    · exact (List.mem_append.mp mem).elim (ihl ha) (ihr hb)
  | neg arg ih =>
    obtain ⟨a, ha, -⟩ := eval_neg_eq_ok_iff.mp h
    rcases List.mem_cons.mp mem with rfl | mem
    · exact ⟨v, h⟩
    · exact ih ha mem
  | call f arg ih =>
    obtain ⟨a, ha, -⟩ := eval_call_eq_ok_iff.mp h
    rcases List.mem_cons.mp mem with rfl | mem
    · exact ⟨v, h⟩
    · exact ih ha mem

/-- The value of an expression is finite if the functions whose values nothing checks are. -/
lemma isFinite_eval (library : lib.KeepsFinite) (h : expr.eval lib x = .ok v) :
    v.isFinite = true := by
  induction expr generalizing v with
  | var => exact isFinite_of_finite h
  | const value => exact isFinite_of_finite h
  | binary op left right =>
    obtain ⟨a, -, b, -, applied⟩ := eval_binary_eq_ok_iff.mp h
    exact Operator.isFinite_of_apply applied
  | neg arg ih =>
    obtain ⟨a, ha, rfl⟩ := eval_neg_eq_ok_iff.mp h
    rw [isFinite_neg]
    exact ih ha
  | call f arg ih =>
    obtain ⟨a, ha, applied⟩ := eval_call_eq_ok_iff.mp h
    exact Function.isFinite_of_apply library (ih ha) applied

/-- Where an expression has a value, all its parts have values, and these are finite. -/
theorem isFinite_parts_of_eval (library : lib.KeepsFinite) (h : expr.eval lib x = .ok v) :
    v.isFinite = true ∧
      ∀ part ∈ expr.parts, ∃ w, part.eval lib x = .ok w ∧ w.isFinite = true := by
  refine ⟨isFinite_eval library h, ?_⟩
  intro part mem
  obtain ⟨w, hw⟩ := exists_eval_part h mem
  exact ⟨w, hw, isFinite_eval library hw⟩

/-- Functions that are right at zero, the logarithms at one, and powers for the exponents zero and one. -/
def Elementary.atOrigin : Elementary where
  sin a := a
  cos _ := 1.0
  tan a := a
  exp _ := 1.0
  log _ := 0.0
  log10 _ := 0.0
  pow a b := if b == 0.0 then 1.0 else a

/-- The functions of the example keep values finite. -/
lemma Elementary.keepsFinite_atOrigin : atOrigin.KeepsFinite where
  sin h := h
  cos _ := (rfl : (1.0 : Float).isFinite = true)
  log _ _ := (rfl : (0.0 : Float).isFinite = true)
  log10 _ _ := (rfl : (0.0 : Float).isFinite = true)

/-- The formula `-abs(sin(log(x)) - cos(log10(sqrt(x))))`, in which only the difference is checked. -/
def unchecked : Expr :=
  .neg (.call .abs (.binary .sub (.call .sin (.call .log .var))
    (.call .cos (.call .log10 (.call .sqrt .var)))))

/-- The example has a value at one, and each of its parts has a finite one there. -/
theorem isFinite_parts_unchecked : unchecked.eval .atOrigin 1.0 = .ok (-1.0) ∧
    ∀ part ∈ unchecked.parts, ∃ w, part.eval .atOrigin 1.0 = .ok w ∧ w.isFinite = true := by
  have evaluated : unchecked.eval .atOrigin 1.0 = .ok (-1.0) := by decide +kernel
  exact ⟨evaluated, (isFinite_parts_of_eval Elementary.keepsFinite_atOrigin evaluated).2⟩

end Evaluation

end Stepwise.Formula
