import Stepwise.Proofs.Double.Negation
import Stepwise.Proofs.Root.Agreement
import Stepwise.Proofs.Root.Slope

/-!
# The roots of a negated function

A function and its negative have the same roots, and both methods find them in the same way: the searches
visit the same points and end in the same way. What they record differs in the signs of the values and of
the slopes only. Zeros of both signs count as zero in every test, and magnitudes decide all other tests.
-/

namespace Stepwise.Root

/-- A number and its negative. -/
structure Negated (u v : Float) : Prop where
  number : u.isNaN = false
  eq : v = -u

/-- Bisection does not tell numbers from their negatives: of two numbers either both or none of the
negatives change the side. -/
lemma Negated.indistinct (tol : Float) : Bisection.Indistinct tol Negated where
  zero negated := by rw [negated.eq, Double.negated_beq_zero]
  small {u _} negated := by
    change u.abs < tol ↔ Float.abs _ < tol
    rw [negated.eq, Double.abs_negated]
  signs negated negated' nonzero nonzero' := by
    rw [Bisection.negative, Bisection.negative, Bisection.negative, Bisection.negative,
      decide_eq_decide, decide_eq_decide, negated.eq, negated'.eq,
      Double.negated_lt_zero_iff negated.number nonzero,
      Double.negated_lt_zero_iff negated'.number nonzero', not_iff_not]

namespace Newton

/-- The steps of Newton's method are quotients, which stay the same if both numbers are negated. -/
lemma indistinct_negated : Indistinct Negated where
  flat {slope _} negated := by
    change slope.abs < flatness ↔ Float.abs _ < flatness
    rw [negated.eq, Double.abs_negated]
  step negated negated' := by rw [negated.eq, negated'.eq, Double.div_negated]

/-- The slope between two negated values is the negated slope. Only a slope of zero keeps its sign, and
no step is taken along it. -/
lemma slopes_negated {forward backward forward' backward' : Float}
    (finite : forward.isFinite = true) (finite' : backward.isFinite = true)
    (ahead : Negated forward forward') (behind : Negated backward backward') :
    Slopes Negated ((forward - backward) / (2.0 * 1e-6)) ((forward' - backward') / (2.0 * 1e-6)) := by
  rw [ahead.eq, behind.eq]
  rcases Double.sub_negated forward backward with e | ⟨e, e'⟩
  · rw [e]
    exact .inl ⟨isNaN_slope finite finite', Double.div_negated_left _ _⟩
  · rw [e, e']
    have flat : (0.0 / (2.0 * 1e-6) : Float).abs < 1e-10 := by decide +kernel
    exact .inr ⟨flat, flat⟩

end Newton

/-- A negated function is searched for roots like the function itself, by both methods and whatever the
input, if the values of the function are finite. The searches fail with the same error, or their results
agree in everything but the signs of the values and slopes. -/
theorem search_negated {f g : ScalarFunction}
    (finite : ∀ x value, f.value x = .ok value → value.isFinite = true)
    (negated : ∀ x, g.value x = (f.value x).map Neg.neg) :
    (∀ a b tol budget, Alike (Result.Agrees Negated) (bisect f a b tol budget).run.result
      (bisect g a b tol budget).run.result) ∧
    ∀ x tol budget, Alike (Result.Agrees Negated) (newton f x tol budget).run.result
      (newton g x tol budget).run.result := by
  have values (x : Float) :
      Alike (fun u v => u.isFinite = true ∧ Negated u v) (f.value x) (g.value x) := by
    rw [negated]
    cases e : f.value x with
    | error error => exact .error error
    | ok value =>
      have here := finite x value e
      exact .ok ⟨here, Double.isNaN_of_isFinite here, rfl⟩
  have related (x : Float) : Alike Negated (f.value x) (g.value x) := (values x).imp And.right
  have slopes (x : Float) :
      Alike (Newton.Slopes Negated) (derivative f.value x) (derivative g.value x) := by
    refine (values (x + 1e-6)).bind fun _ _ ahead => ?_
    refine (values (x - 1e-6)).bind fun _ _ behind => ?_
    exact .ok (Newton.slopes_negated ahead.1 behind.1 ahead.2 behind.2)
  constructor
  · intro a b tol budget
    exact bisect_goes_alike (Negated.indistinct tol) related a b budget
  · intro x tol budget
    exact newton_goes_alike Newton.indistinct_negated related slopes x tol budget

/-- The parabola upside down. -/
def hill : ScalarFunction where
  name := "hill"
  value x := (parabola.value x).map Neg.neg

/-- On the hill both methods take the steps they take on the parabola. -/
theorem search_hill :
    (∀ x value, parabola.value x = .ok value → value.isFinite = true) ∧
      (∀ x, hill.value x = (parabola.value x).map Neg.neg) ∧
      (∃ result other, (bisect parabola 0.0 2.0 1e-2 20).run.result = .ok result ∧
        (bisect hill 0.0 2.0 1e-2 20).run.result = .ok other ∧
        result.trace.length = 8 ∧ result.Agrees Negated other) ∧
      ∃ result other, (newton parabola 1.0 1e-4 10).run.result = .ok result ∧
        (newton hill 1.0 1e-4 10).run.result = .ok other ∧
        result.trace.length = 4 ∧ result.Agrees Negated other := by
  have finite (x value : Float) (h : parabola.value x = .ok value) : value.isFinite = true :=
    isFinite_of_ofTotal h
  obtain ⟨bisected, stepped⟩ := search_negated (g := hill) finite fun _ => rfl
  obtain ⟨result, found, length⟩ : ∃ result,
      (bisect parabola 0.0 2.0 1e-2 20).run.result = .ok result ∧ result.trace.length = 8 :=
    toOption_map_eq_some_iff.mp (by decide +kernel)
  obtain ⟨other, found', agrees⟩ := (bisected 0.0 2.0 1e-2 20).of_eq_ok found
  obtain ⟨tangents, reached, steps⟩ : ∃ result,
      (newton parabola 1.0 1e-4 10).run.result = .ok result ∧ result.trace.length = 4 :=
    toOption_map_eq_some_iff.mp (by decide +kernel)
  obtain ⟨mirrored, reached', agrees'⟩ := (stepped 1.0 1e-4 10).of_eq_ok reached
  exact ⟨finite, fun _ => rfl, ⟨result, other, found, found', length, agrees⟩,
    tangents, mirrored, reached, reached', steps, agrees'⟩

end Stepwise.Root
