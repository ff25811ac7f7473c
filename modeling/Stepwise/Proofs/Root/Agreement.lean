import Stepwise.Proofs.Double.Sign
import Stepwise.Proofs.Root.Bracket
import Mathlib.Data.List.Forall2

/-!
# Searches that agree

Two functions whose values are related at every point are searched in the same way, as long as no test of
the search tells related values apart. The two searches visit the same points, and what they record
differs in the values only. Bisection without a tolerance tests the signs of values and nothing else, so
it goes the same way for all functions with the same signs.
-/

namespace Stepwise.Root

variable {ε α : Type}

section Agreement

variable (R : α → α → Prop)

/-- Two steps of bisection at the same points, with related values. -/
structure Halving.Agrees (step other : Halving α) : Prop where
  iteration : step.iteration = other.iteration
  a : step.a = other.a
  b : step.b = other.b
  midpoint : step.midpoint = other.midpoint
  atA : R step.atA other.atA
  atB : R step.atB other.atB
  atMidpoint : R step.atMidpoint other.atMidpoint

/-- Two steps of Newton's method between the same points, with related values and slopes. -/
structure Tangent.Agrees (step other : Tangent α) : Prop where
  iteration : step.iteration = other.iteration
  x : step.x = other.x
  next : step.next = other.next
  value : R step.value other.value
  slope : R step.slope other.slope

/-- Two steps of one method at the same points, with related values. -/
inductive Step.Agrees : Step α → Step α → Prop where
  | halving {step other : Halving α} : step.Agrees R other → Agrees (.halving step) (.halving other)
  | tangent {step other : Tangent α} : step.Agrees R other → Agrees (.tangent step) (.tangent other)

/-- Two results that are the same apart from the values recorded in their traces, which are related. -/
structure Result.Agrees (result other : Result α) : Prop where
  method : result.method = other.method
  root : result.root = other.root
  iterations : result.iterations = other.iterations
  converged : result.converged = other.converged
  history : result.history = other.history
  diagnostic : result.diagnostic = other.diagnostic
  trace : List.Forall₂ (Step.Agrees R) result.trace other.trace

end Agreement

namespace Bisection

section Agreement

variable (R : α → α → Prop)

/-- Two endings at the same point, or with the same error. -/
inductive Ending.Agrees : Ending ε α → Ending ε α → Prop where
  | endpoint (root : α) : Agrees (.endpoint root) (.endpoint root)
  | sameSign {u v u' v' : α} : Agrees (.sameSign u v) (.sameSign u' v')
  | found (root : α) : Agrees (.found root) (.found root)
  | exhausted (midpoint : α) : Agrees (.exhausted midpoint) (.exhausted midpoint)
  | failed (error : ε) : Agrees (.failed error) (.failed error)

/-- Two runs of the same steps, apart from the values in them, which are related. -/
structure Run.Agrees (run other : Run ε α) : Prop where
  steps : List.Forall₂ (Halving.Agrees R) run.steps other.steps
  ending : run.ending.Agrees other.ending

/-- Two brackets with the same ends and related values there. -/
structure Bracket.Agrees (bracket other : Bracket α) : Prop where
  a : bracket.a = other.a
  b : bracket.b = other.b
  atA : R bracket.atA other.atA
  atB : R bracket.atB other.atB

end Agreement

variable {R : α → α → Prop}

namespace Run.Agrees

variable {run other : Run ε α}

/-- Runs that stop at once agree if their endings do. -/
lemma stop {ending ending' : Ending ε α} (h : ending.Agrees ending') :
    (Run.stop ending).Agrees R (Run.stop ending') :=
  ⟨.nil, h⟩

/-- One more step that agrees keeps runs agreeing. -/
lemma after {step step' : Halving α} (agrees : step.Agrees R step') (later : run.Agrees R other) :
    (run.after step).Agrees R (other.after step') :=
  ⟨.cons agrees later.steps, later.ending⟩

/-- Runs that agree have results that agree, or the same error. -/
lemma result (agrees : run.Agrees R other) : Alike (Result.Agrees R) run.result other.result := by
  obtain ⟨steps, ending⟩ := run
  obtain ⟨steps', ending'⟩ := other
  obtain ⟨same, ends⟩ := agrees
  have trace : List.Forall₂ (Step.Agrees R) (steps.map .halving) (steps'.map .halving) := by
    rw [List.forall₂_map_left_iff, List.forall₂_map_right_iff]
    exact same.imp fun _ _ => .halving
  have length : steps.length = steps'.length := same.length_eq
  cases ends with
  | failed error => exact .error error
  | _ => exact .ok ⟨rfl, rfl, length, rfl, rfl, rfl, trace⟩

end Run.Agrees

variable [Arithmetic α]

/-- No test of a bisection tells related values apart. The signs of two values are compared only if both
are not zero. -/
structure Indistinct (tol : α) (R : α → α → Prop) : Prop where
  zero : ∀ {u v}, R u v → (u == 0.0) = (v == 0.0)
  small : ∀ {u v}, R u v →
    (Arithmetic.magnitude u < tol ↔ Arithmetic.magnitude v < tol)
  signs : ∀ {u v u' v'}, R u v → R u' v' → (u == 0.0) = false → (u' == 0.0) = false →
    (negative u = negative u' ↔ negative v = negative v')

section Runs

variable {f g : α → Except ε α} {tol : α} {bracket bracket' : Bracket α} {u v : α}

/-- Brackets that agree have the same midpoint. -/
lemma Bracket.Agrees.midpoint (agrees : bracket.Agrees R bracket') :
    bracket.midpoint = bracket'.midpoint := by
  rw [Bracket.midpoint, Bracket.midpoint, agrees.a, agrees.b]

/-- Halving brackets that agree takes steps that agree, if the values at the midpoint are related. -/
lemma Bracket.Agrees.step (agrees : bracket.Agrees R bracket') (related : R u v) (iteration : ℕ) :
    (bracket.step iteration u).Agrees R (bracket'.step iteration v) :=
  ⟨rfl, agrees.a, agrees.b, agrees.midpoint, agrees.atA, agrees.atB, related⟩

/-- The test for the end comes out the same for steps that agree. -/
lemma closeEnough_agrees (indistinct : Indistinct tol R) {step other : Halving α}
    (agrees : step.Agrees R other) : closeEnough tol step = closeEnough tol other := by
  rw [closeEnough, closeEnough, indistinct.zero agrees.atMidpoint, agrees.a, agrees.b,
    decide_eq_decide.mpr (indistinct.small agrees.atMidpoint)]

/-- The same half is kept. -/
lemma Bracket.Agrees.half (indistinct : Indistinct tol R) (agrees : bracket.Agrees R bracket')
    (related : R u v) (nonzero : (bracket.atA == 0.0) = false) (nonzero' : (u == 0.0) = false) :
    (bracket.half u).Agrees R (bracket'.half v) := by
  have same := indistinct.signs agrees.atA related nonzero nonzero'
  unfold Bracket.half
  split
  case isTrue opposite =>
    rw [if_pos fun e => opposite (same.mpr e)]
    exact ⟨agrees.a, agrees.midpoint, agrees.atA, related⟩
  case isFalse equal =>
    rw [if_neg fun ne => ne (same.mp (not_not.mp equal))]
    exact ⟨agrees.midpoint, agrees.b, related, agrees.atB⟩

/-- Brackets that agree are halved in the same way. -/
lemma halve_agrees (indistinct : Indistinct tol R) (related : ∀ x, Alike R (f x) (g x))
    (iteration budget : ℕ) (agrees : bracket.Agrees R bracket')
    (nonzero : (bracket.atA == 0.0) = false) :
    (halve f tol iteration budget bracket).Agrees R (halve g tol iteration budget bracket') := by
  -- On the budget: both halves that are kept agree again, and no zero gets to an end.
  induction budget generalizing iteration bracket bracket' with
  | zero =>
    rw [halve_zero, halve_zero, agrees.midpoint]
    exact .stop (.exhausted _)
  | succ budget ih =>
    rw [halve_succ, halve_succ, agrees.midpoint]
    have ends := related bracket'.midpoint
    generalize f bracket'.midpoint = outcome at ends ⊢
    generalize g bracket'.midpoint = outcome' at ends ⊢
    cases ends with
    | error error => exact .stop (.failed error)
    | @ok u v related =>
      have step := agrees.step related iteration
      dsimp only
      rw [closeEnough_agrees indistinct step]
      split
      case isTrue => exact .after step (.stop (.found _))
      case isFalse far =>
        have nonzero' : (u == 0.0) = false := by
          rw [← closeEnough_agrees indistinct step] at far
          exact nonzero_of_not_stopTest fun meets => far (closeEnough_iff.mpr meets)
        have half := agrees.half indistinct related nonzero nonzero'
        refine .after step (ih (iteration + 1) half ?_)
        unfold Bracket.half
        split
        case isTrue => exact nonzero
        case isFalse => exact nonzero'

/-- Bisections of one interval agree for functions with related values. -/
lemma run_agrees (indistinct : Indistinct tol R) (related : ∀ x, Alike R (f x) (g x)) (a b : α)
    (budget : ℕ) : (run f a b tol budget).Agrees R (run g a b tol budget) := by
  rw [run_eq, run_eq]
  have atA := related a
  have atB := related b
  generalize f a = outcomeA at atA ⊢
  generalize g a = outcomeA' at atA ⊢
  cases atA with
  | error error => exact .stop (.failed error)
  | ok relatedA =>
    generalize f b = outcomeB at atB ⊢
    generalize g b = outcomeB' at atB ⊢
    cases atB with
    | error error => exact .stop (.failed error)
    | ok relatedB =>
      dsimp only
      rw [← indistinct.zero relatedA, ← indistinct.zero relatedB]
      split
      case isTrue => exact .stop (.endpoint a)
      case isFalse na =>
        split
        case isTrue => exact .stop (.endpoint b)
        case isFalse nb =>
          have na := eq_false_of_ne_true na
          have nb := eq_false_of_ne_true nb
          have signs := indistinct.signs relatedA relatedB na nb
          split
          case isTrue same =>
            rw [if_pos (signs.mp same)]
            exact .stop .sameSign
          case isFalse opposite =>
            rw [if_neg fun same => opposite (signs.mpr same)]
            exact halve_agrees indistinct related 1 budget ⟨rfl, rfl, relatedA, relatedB⟩ na

/-- Whether a bisection starts does not depend on the function. -/
lemma start_eq (f : α → Except ε α) (a b tol : α) (budget : ℕ) :
    start f a b tol budget =
      (checkInput a b tol).map fun _ => run f a b tol budget := by
  unfold start
  cases checkInput a b tol <;> rfl

end Runs

end Bisection

namespace Newton

section Agreement

variable (R : α → α → Prop)

/-- Two endings at the same point, or with the same error. -/
inductive Ending.Agrees : Ending ε α → Ending ε α → Prop where
  | found (root : α) : Agrees (.found root) (.found root)
  | flat (x : α) {slope slope' : α} : Agrees (.flat x slope) (.flat x slope')
  | diverged (x : α) : Agrees (.diverged x) (.diverged x)
  | exhausted (x : α) : Agrees (.exhausted x) (.exhausted x)
  | failed (error : ε) : Agrees (.failed error) (.failed error)

/-- Two runs of the same steps, apart from the values and slopes in them, which are related. -/
structure Run.Agrees (run other : Run ε α) : Prop where
  steps : List.Forall₂ (Tangent.Agrees R) run.steps other.steps
  ending : run.ending.Agrees other.ending

end Agreement

variable {R : α → α → Prop}

namespace Run.Agrees

variable {run other : Run ε α}

/-- Runs that stop at once agree if their endings do. -/
lemma stop {ending ending' : Ending ε α} (h : ending.Agrees ending') :
    (Run.stop ending).Agrees R (Run.stop ending') :=
  ⟨.nil, h⟩

/-- One more step that agrees keeps runs agreeing. -/
lemma after {step step' : Tangent α} (agrees : step.Agrees R step') (later : run.Agrees R other) :
    (run.after step).Agrees R (other.after step') :=
  ⟨.cons agrees later.steps, later.ending⟩

/-- Runs from the same point that agree have results that agree, or the same error. -/
lemma result (agrees : run.Agrees R other) (x : α) :
    Alike (Result.Agrees R) (run.result x) (other.result x) := by
  obtain ⟨steps, ending⟩ := run
  obtain ⟨steps', ending'⟩ := other
  obtain ⟨same, ends⟩ := agrees
  have trace : List.Forall₂ (Step.Agrees R) (steps.map .tangent) (steps'.map .tangent) := by
    rw [List.forall₂_map_left_iff, List.forall₂_map_right_iff]
    exact same.imp fun _ _ => .tangent
  have visited : steps.map Tangent.next = steps'.map Tangent.next := by
    rw [← List.forall₂_eq_eq_eq, List.forall₂_map_left_iff, List.forall₂_map_right_iff]
    exact same.imp fun _ _ agrees => agrees.next
  have history : x :: steps.map Tangent.next = x :: steps'.map Tangent.next := by
    rw [visited]
  have length : steps.length = steps'.length := same.length_eq
  cases ends with
  | failed error => exact .error error
  | _ => exact .ok ⟨rfl, rfl, length, rfl, history, rfl, trace⟩

end Run.Agrees

variable [Arithmetic α]

/-- Two slopes are related, or no step is taken along either of them. -/
def Slopes (R : α → α → Prop) (slope other : α) : Prop :=
  R slope other ∨ Arithmetic.magnitude slope < flatness ∧ Arithmetic.magnitude other < flatness

/-- No test of Newton's method tells related slopes apart, and the steps along them from related values
are the same. -/
structure Indistinct (R : α → α → Prop) : Prop where
  flat : ∀ {slope other}, R slope other →
    (Arithmetic.magnitude slope < flatness ↔ Arithmetic.magnitude other < flatness)
  step : ∀ {u v slope other}, R u v → R slope other → u / slope = v / other

variable {f g : α → Except ε α}

/-- Searches from the same point take the same steps. -/
lemma iterate_agrees (indistinct : Indistinct R) (values : ∀ x, Alike R (f x) (g x))
    (slopes : ∀ x, Alike (Slopes R) (derivative f x) (derivative g x)) (tol : α)
    (iteration budget : ℕ) (x : α) :
    (iterate f tol iteration budget x).Agrees R (iterate g tol iteration budget x) := by
  -- On the budget: the step from a point leads to the same next point in both searches.
  induction budget generalizing iteration x with
  | zero => exact .stop (.exhausted x)
  | succ budget ih =>
    rw [iterate_succ, iterate_succ]
    have at_x := values x
    generalize f x = outcome at at_x ⊢
    generalize g x = outcome' at at_x ⊢
    cases at_x with
    | error error => exact .stop (.failed error)
    | @ok value value' related =>
      have along := slopes x
      generalize derivative f x = outcome at along ⊢
      generalize derivative g x = outcome' at along ⊢
      cases along with
      | error error => exact .stop (.failed error)
      | @ok slope slope' related' =>
        dsimp only
        split
        case isTrue flat =>
          have flat' : Arithmetic.magnitude slope' < flatness :=
            related'.elim (fun related' => (indistinct.flat related').mp flat) And.right
          rw [if_pos flat']
          exact .stop (.flat x)
        case isFalse steep =>
          have sloped : R slope slope' := related'.resolve_right fun flat => steep flat.1
          rw [if_neg fun flat => steep ((indistinct.flat sloped).mpr flat),
            ← indistinct.step related sloped]
          have step : Tangent.Agrees R
              { iteration, x, value, slope, next := x - value / slope }
              { iteration, x, value := value', slope := slope', next := x - value / slope } :=
            ⟨rfl, rfl, rfl, related, sloped⟩
          split
          case isTrue =>
            split
            case isTrue => exact .after step (.stop (.found _))
            case isFalse => exact .after step (ih (iteration + 1) _)
          case isFalse => exact .stop (.diverged x)

/-- Whether Newton's method starts does not depend on the function. -/
lemma start_eq (f : α → Except ε α) (x tol : α) (budget : ℕ) :
    start f x tol budget =
      (checkInput x tol).map fun _ => iterate f tol 1 budget x := by
  unfold start
  cases checkInput x tol <;> rfl

end Newton

/-- Bisections of two functions agree if no test tells their values apart. -/
lemma bisect_goes_alike {f g : ScalarFunction} {tol : Float} {R : Float → Float → Prop}
    (indistinct : Bisection.Indistinct tol R) (related : ∀ x, Alike R (f.value x) (g.value x))
    (a b : Float) (budget : ℕ) :
    Alike (Result.Agrees R) (bisect f a b tol budget).run.result
      (bisect g a b tol budget).run.result := by
  rw [bisect_eq_conclude, bisect_eq_conclude, Bisection.start_eq, Bisection.start_eq]
  cases Bisection.checkInput a b tol with
  | error error => exact .error (RootError.input error)
  | ok => exact (Bisection.run_agrees indistinct related a b budget).result.mapError RootError.eval

/-- Searches by Newton's method agree if no test tells the values and slopes of the functions apart. -/
lemma newton_goes_alike {f g : ScalarFunction} {R : Float → Float → Prop}
    (indistinct : Newton.Indistinct R) (values : ∀ x, Alike R (f.value x) (g.value x))
    (slopes : ∀ x, Alike (Newton.Slopes R) (derivative f.value x) (derivative g.value x))
    (x tol : Float) (budget : ℕ) :
    Alike (Result.Agrees R) (newton f x tol budget).run.result (newton g x tol budget).run.result := by
  rw [newton_eq_conclude, newton_eq_conclude, Newton.start_eq, Newton.start_eq]
  cases Newton.checkInput x tol with
  | error error => exact .error (RootError.input error)
  | ok =>
    have agrees := Newton.iterate_agrees indistinct values slopes tol 1 budget x
    exact (agrees.result x).mapError RootError.eval

/-- Two values on the same side of zero: both are negative or neither is, and both are zeros or neither
is, whatever the signs of the zeros. What is not a number is on the side of the positive numbers. -/
structure SameSide (u v : Float) : Prop where
  negative : u < 0.0 ↔ v < 0.0
  zero : (u == 0.0) = (v == 0.0)

/-- With a tolerance of zero, bisection looks at the sides of values only. -/
lemma SameSide.indistinct {tol : Float} (zero : (tol == 0.0) = true) :
    Bisection.Indistinct tol SameSide where
  zero same := same.zero
  small _ := iff_of_false (Double.not_abs_lt_zero zero) (Double.not_abs_lt_zero zero)
  signs same same' _ _ := by
    rw [Bisection.negative, Bisection.negative, decide_eq_decide, same.negative, same'.negative]
    exact decide_eq_decide.symm

/-- Without a tolerance, bisection goes the same way for two functions that fail at the same points with
the same error, and whose values are on the same side of zero at all other points, however large or small
they are. The two searches fail with the same error, or their results agree in everything but the values
of the functions. -/
theorem bisect_sees_sides {f g : ScalarFunction} {tol : Float} (zero : (tol == 0.0) = true)
    (same : ∀ x, Alike SameSide (f.value x) (g.value x)) (a b : Float) (budget : ℕ) :
    Alike (Result.Agrees SameSide) (bisect f a b tol budget).run.result
      (bisect g a b tol budget).run.result :=
  bisect_goes_alike (SameSide.indistinct zero) same a b budget

/-- A function with the sides of the jump, but with values so small and so large that products of them
vanish or overflow. -/
def extremeJump : ScalarFunction where
  name := "extreme jump"
  value x := .ok (if x < 0.3 then -1e-200 else 1e200)

/-- Without a tolerance, five steps towards the extreme jump are those towards the jump. -/
theorem bisect_jump_sees_sides :
    ((0.0 : Float) == 0.0) = true ∧ (∀ x, Alike SameSide (jump.value x) (extremeJump.value x)) ∧
      ∃ result other, (bisect jump 0.0 1.0 0.0 5).run.result = .ok result ∧
        (bisect extremeJump 0.0 1.0 0.0 5).run.result = .ok other ∧
        result.trace.length = 5 ∧ result.Agrees SameSide other := by
  have zero : ((0.0 : Float) == 0.0) = true := by decide +kernel
  have same (x : Float) : Alike SameSide (jump.value x) (extremeJump.value x) := by
    refine .ok ?_
    split
    case isTrue => exact ⟨by decide +kernel, by decide +kernel⟩
    case isFalse => exact ⟨by decide +kernel, by decide +kernel⟩
  obtain ⟨result, found, length⟩ : ∃ result, (bisect jump 0.0 1.0 0.0 5).run.result = .ok result ∧
      result.trace.length = 5 := toOption_map_eq_some_iff.mp (by decide +kernel)
  obtain ⟨other, found', agrees⟩ := (bisect_sees_sides zero same 0.0 1.0 5).of_eq_ok found
  exact ⟨zero, same, result, other, found, found', length, agrees⟩

end Stepwise.Root
