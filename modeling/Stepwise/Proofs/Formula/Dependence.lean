import Stepwise.Proofs.Formula.Evaluation

/-!
# What depends on the variable

An expression in which the variable does not occur has the same value, or the same error, at all points.
One in which it occurs has no value at a point that is not finite: all operands are evaluated, also
those that could not change the value, such as `x` in `0 * x` and in `x ** 0`.
-/

namespace Stepwise.Formula

variable {lib : Elementary} {expr : Expr} {x y : Float}

/-- The variable occurs in an expression that has it among its parts. -/
lemma Expr.usesVariable_iff : expr.usesVariable = true ↔ Expr.var ∈ expr.parts := by
  induction expr with
  | var => exact iff_of_true rfl (List.mem_singleton_self _)
  | const value => exact iff_of_false Bool.false_ne_true (by simp [parts])
  | binary op left right ihl ihr => simp [usesVariable, parts, ihl, ihr]
  | neg arg ih => simp [usesVariable, parts, ih]
  | call f arg ih => simp [usesVariable, parts, ih]

/-- Without the variable, the point does not matter. -/
lemma eval_eq_of_not_usesVariable (closed : expr.usesVariable = false) :
    expr.eval lib x = expr.eval lib y := by
  induction expr with
  | var => cases closed
  | const value => rfl
  | binary op left right ihl ihr =>
    obtain ⟨left, right⟩ := Bool.or_eq_false_iff.mp closed
    rw [Expr.eval, Expr.eval, ihl left, ihr right]
  | neg arg ih => rw [Expr.eval, Expr.eval, ih closed]
  | call f arg ih => rw [Expr.eval, Expr.eval, ih closed]

/-- At a point that is not finite, no expression with the variable has a value. -/
lemma not_exists_eval (infinite : x.isFinite = false) (uses : expr.usesVariable = true) :
    ¬ ∃ v, expr.eval lib x = .ok v := by
  rintro ⟨v, h⟩
  obtain ⟨w, hw⟩ := exists_eval_part h (Expr.usesVariable_iff.mp uses)
  obtain ⟨finite, -⟩ := finite_eq_ok_iff.mp hw
  exact Bool.false_ne_true (infinite.symm.trans finite)

/-- At `x` a computation fails because `x` is not finite, or else it has the same outcome everywhere. -/
def FailsOrSame {α : Type} (x : Float) (outcome : Float → Except EvalError α) : Prop :=
  outcome x = .error (.nonFinite x) ∨ ∀ y, outcome y = outcome x

namespace FailsOrSame

variable {α β : Type}

/-- What does not depend on the variable gives the same outcome at every point. -/
lemma same (outcome : Except EvalError α) : FailsOrSame x fun _ => outcome :=
  .inr fun _ => rfl

/-- Once the first of two computations has a value everywhere, the second one decides. -/
lemma bind {outcome : Float → Except EvalError α} (h : FailsOrSame x outcome)
    {next : Float → α → Except EvalError β} (later : ∀ a, FailsOrSame x fun y => next y a) :
    FailsOrSame x fun y => outcome y >>= next y := by
  rcases h with fails | same
  · left
    dsimp only
    rw [fails]
    rfl
  · cases e : outcome x with
    | error error =>
      right
      intro y
      dsimp only
      rw [same y, e]
      rfl
    | ok a =>
      rcases later a with fails | same'
      · left
        dsimp only
        rw [e]
        exact fails
      · right
        intro y
        dsimp only
        rw [same y, e]
        exact same' y

end FailsOrSame

/-- At a point that is not finite, an expression fails for that, unless what is evaluated before its first
variable fails everywhere. -/
lemma failsOrSame_eval (infinite : x.isFinite = false) :
    FailsOrSame x fun y => expr.eval lib y := by
  induction expr with
  | var =>
    left
    dsimp only
    rw [Expr.eval, finite, infinite]
    rfl
  | const value => exact .same _
  | binary op left right ihl ihr => exact ihl.bind fun a => ihr.bind fun b => .same (op.apply lib a b)
  | neg arg ih => exact ih.bind fun a => .same (pure (-a))
  | call f arg ih => exact ih.bind fun a => .same (f.apply lib a)

/-- Whether the variable occurs in an expression decides whether its value depends on the point. Without
it the value, or the error, is the same at all points. With it there is an error at every point that is
not finite, and this names the point unless the expression fails in the same way everywhere. -/
theorem eval_depends_on_variable (lib : Elementary) (expr : Expr) :
    (expr.usesVariable = false → ∀ x y, expr.eval lib x = expr.eval lib y) ∧
    (expr.usesVariable = true → ∀ x, x.isFinite = false →
      ∃ error, expr.eval lib x = .error error ∧
        (error = .nonFinite x ∨ ∀ y, expr.eval lib y = .error error)) := by
  refine ⟨fun closed x y => eval_eq_of_not_usesVariable closed, fun uses x infinite => ?_⟩
  cases e : expr.eval lib x with
  | ok v => exact absurd ⟨v, e⟩ (not_exists_eval infinite uses)
  | error error =>
    refine ⟨error, rfl, ?_⟩
    have outcome : FailsOrSame x fun y => expr.eval lib y := failsOrSame_eval infinite
    rcases outcome with fails | same
    · exact .inl (Except.error.inj (e.symm.trans fails))
    · exact .inr fun y => (same y).trans e

/-- The expression `x ** 0`, whose value would be one for any base. -/
def zerothPower : Expr :=
  .binary .pow .var (.const 0.0)

/-- At infinity `x ** 0` is an error, and `1 / 0` is the same error there as at one. -/
theorem eval_depends_zerothPower :
    (zerothPower.usesVariable = true ∧ (1.0 / 0.0 : Float).isFinite = false ∧
      ∃ error, zerothPower.eval .atOrigin (1.0 / 0.0) = .error error) ∧
    (Expr.binary .div (.const 1.0) (.const 0.0)).usesVariable = false ∧
      (Expr.binary .div (.const 1.0) (.const 0.0)).eval .atOrigin (1.0 / 0.0) =
        (Expr.binary .div (.const 1.0) (.const 0.0)).eval .atOrigin 1.0 := by
  have infinite : (1.0 / 0.0 : Float).isFinite = false := by decide
  obtain ⟨error, fails, -⟩ :=
    (eval_depends_on_variable .atOrigin zerothPower).2 rfl (1.0 / 0.0) infinite
  refine ⟨⟨rfl, infinite, error, fails⟩, rfl, ?_⟩
  exact (eval_depends_on_variable .atOrigin (.binary .div (.const 1.0) (.const 0.0))).1 rfl _ _

end Stepwise.Formula
