import Stepwise.Proofs.Rational
import Stepwise.Proofs.Root.Interval
import Mathlib

/-!
# Bisection in exact arithmetic

On rational numbers every step of a bisection halves its bracket exactly. So the width of each bracket is
known in advance, and a bisection with a positive tolerance converges as soon as half of the width has
to be below the tolerance, if it did not before.
-/

namespace Stepwise.Root.Bisection

variable {ε : Type}

/-- A function that has a value at every point. -/
def total (f : ℚ → ℚ) : ℚ → Except ε ℚ :=
  fun x => .ok (f x)

section Steps

variable {f : ℚ → Except ε ℚ} {tol : ℚ} {first : ℕ} {start : Bracket ℚ} {steps : List (Halving ℚ)}

/-- Every rational value is negative, zero or positive. -/
lemma signed_rat (f : ℚ → Except ε ℚ) : Signed f := by
  intro x value _
  rw [Rational.zero_eq]
  rcases lt_trichotomy value 0 with neg | zero | pos
  · exact .inl neg
  · exact .inr (.inl (beq_iff_eq.mpr zero))
  · exact .inr (.inr pos)

/-- Opposite signs of rational numbers, written out. -/
lemma opposite_iff {u v : ℚ} : Opposite u v ↔ (u < 0 ∧ 0 < v) ∨ (v < 0 ∧ 0 < u) := by
  rw [Opposite, Rational.zero_eq]
  constructor
  · rintro (⟨neg, pos, -⟩ | ⟨neg, pos, -⟩)
    · exact .inl ⟨neg, pos⟩
    · exact .inr ⟨neg, pos⟩
  · rintro (⟨neg, pos⟩ | ⟨neg, pos⟩)
    · exact .inl ⟨neg, pos, not_lt.mpr pos.le⟩
    · exact .inr ⟨neg, pos, not_lt.mpr pos.le⟩

/-- The stop test for rational numbers, written out. -/
lemma stopTest_iff {step : Halving ℚ} :
    StopTest tol step ↔
      step.atMidpoint = 0 ∨ |step.atMidpoint| < tol ∨ (step.b - step.a) / 2 < tol := by
  rw [StopTest, Rational.zero_eq, Rational.magnitude_eq_abs]
  norm_num

/-- What a step leaves is half as wide as its bracket, and lies in it. -/
lemma half_of_leaves {step : Halving ℚ} {next : Bracket ℚ} (h : step.Leaves next)
    (middle : step.midpoint = (step.a + step.b) / 2.0) :
    next.b - next.a = (step.b - step.a) / 2 ∧
      (step.a ≤ step.b → step.a ≤ next.a ∧ next.b ≤ step.b) := by
  have two : (2.0 : ℚ) = 2 := by norm_num
  rw [two] at middle
  rcases h with ⟨left, -, right, -⟩ | ⟨left, -, right, -⟩
  · rw [left, right, middle]
    exact ⟨by ring, fun le => ⟨by linarith, le_refl _⟩⟩
  · rw [left, right, middle]
    exact ⟨by ring, fun le => ⟨le_refl _, by linarith⟩⟩

/-- The width of a bracket is known from its number. -/
lemma Traced.width (traced : Traced f tol first start steps) (i : ℕ) (h : i < steps.length) :
    steps[i].b - steps[i].a = (start.b - start.a) / 2 ^ i := by
  induction i with
  | zero =>
    have begins := traced.begins steps[0] (List.head?_eq_getElem? .. ▸ List.getElem?_eq_getElem h)
    rw [← begins, pow_zero, div_one]
    rfl
  | succ i ih =>
    have h' := Nat.lt_of_succ_lt h
    have leaves := List.isChain_iff_getElem.mp traced.linked i h
    have half := (half_of_leaves leaves (traced.midpoint _ (List.getElem_mem h'))).1
    have width : steps[i + 1].b - steps[i + 1].a = (steps[i].b - steps[i].a) / 2 := half
    rw [width, ih h', pow_succ, div_div]

/-- No bracket is turned round, and each lies in the one before. -/
lemma Traced.nested (traced : Traced f tol first start steps) (le : start.a ≤ start.b) :
    steps.IsChain fun outer inner => outer.a ≤ inner.a ∧ inner.b ≤ outer.b := by
  refine List.isChain_iff_getElem.mpr fun i h => ?_
  have h' := Nat.lt_of_succ_lt h
  have leaves := List.isChain_iff_getElem.mp traced.linked i h
  refine (half_of_leaves leaves (traced.midpoint _ (List.getElem_mem h'))).2 ?_
  have width := traced.width i h'
  have nonneg : 0 ≤ (start.b - start.a) / 2 ^ i := div_nonneg (sub_nonneg.mpr le) (by positivity)
  linarith

/-- If the interval is narrow enough for some number of steps, a step with a higher number is taken only
after one that meets the stop test. -/
lemma Traced.stopTest (traced : Traced f tol first start steps) {K : ℕ} (pos : 1 ≤ K)
    (narrow : start.b - start.a < tol * 2 ^ K) (h : K - 1 < steps.length) :
    StopTest tol (steps[K - 1]) := by
  obtain ⟨i, rfl⟩ : ∃ i, K = i + 1 := ⟨K - 1, by omega⟩
  rw [Nat.add_sub_cancel] at h
  refine stopTest_iff.mpr (.inr (.inr ?_))
  simp only [Nat.add_sub_cancel]
  rw [traced.width i h, div_div, ← pow_succ, div_lt_iff₀ (by positivity)]
  exact narrow

/-- A bisection with a budget that is large enough for the width ends at a step that meets the stop
test. -/
lemma Concluded.converges {budget K : ℕ} {result : Result ℚ} (traced : Traced f tol first start steps)
    (concluded : Concluded tol budget start steps result) (opposite : Opposite start.atA start.atB)
    (pos : 1 ≤ K) (narrow : start.b - start.a < tol * 2 ^ K) (enough : K ≤ budget) :
    result.converged = true ∧ result.iterations = steps.length ∧ steps.length ≤ K ∧
      ∃ last ∈ steps, StopTest tol last ∧ result.root = some last.midpoint := by
  have signs := opposite_iff.mp opposite
  cases concluded with
  | endpoint zero =>
    rw [Rational.zero_eq, beq_iff_eq, beq_iff_eq] at zero
    rcases zero with zero | zero <;> rw [zero] at signs <;> simp at signs
  | sameSign _ _ same =>
    rw [SameSign, Rational.zero_eq] at same
    rcases same with ⟨u, v⟩ | ⟨u, v⟩ <;> rcases signs with ⟨u', v'⟩ | ⟨v', u'⟩ <;> linarith
  | found _ last meets _ converged iterations _ root =>
    refine ⟨converged, iterations, ?_, _, List.mem_of_getLast? last, meets, root⟩
    by_contra long
    have before : K - 1 < steps.dropLast.length := by
      rw [List.length_dropLast]
      omega
    have taken := List.getElem_mem before
    rw [List.getElem_dropLast] at taken
    exact traced.unstopped _ taken (traced.stopTest pos narrow (by omega))
  | exhausted _ unmet length =>
    have taken : K - 1 < steps.length := by omega
    exact absurd (traced.stopTest pos narrow taken) (unmet _ (List.getElem_mem taken))

end Steps

/-- A bisection of a function that has a value at every point does not fail. -/
lemma exists_result (f : ℚ → ℚ) (a b tol : ℚ) (budget : ℕ) :
    ∃ result, (run (total f : ℚ → Except ε ℚ) a b tol budget).result = .ok result := by
  obtain ⟨place, ends⟩ : ∃ place, EndsAt (total f : ℚ → Except ε ℚ) place
      (run (total f) a b tol budget).ending := by
    rcases run_cases (g := total f) rfl rfl tol budget with
      ⟨ending, ends, -, stops, -⟩ | ⟨start, -, -, -, halves, -⟩
    · rw [stops]
      exact ⟨_, ends⟩
    · rw [halves]
      exact ⟨_, (halve_passed _ tol 1 budget start).2.2⟩
  generalize run (total f : ℚ → Except ε ℚ) a b tol budget = run at ends ⊢
  obtain ⟨steps, ending⟩ := run
  cases ends with
  | endpoint => exact ⟨_, rfl⟩
  | sameSign => exact ⟨_, rfl⟩
  | found => exact ⟨_, rfl⟩
  | exhausted => exact ⟨_, rfl⟩
  | failed _ e => cases e

/-- There is a least number of steps after which half of the width is below a positive tolerance. -/
lemma exists_isLeast_narrow (width : ℚ) {tol : ℚ} (pos : 0 < tol) :
    ∃ K, IsLeast {k : ℕ | 1 ≤ k ∧ width < tol * 2 ^ k} K := by
  obtain ⟨k, narrow⟩ := pow_unbounded_of_one_lt (width / tol) (one_lt_two : (1 : ℚ) < 2)
  have narrow' : width < tol * 2 ^ (k + 1) := by
    have more : (2 : ℚ) ^ k ≤ 2 ^ (k + 1) := pow_le_pow_right₀ one_le_two (Nat.le_succ k)
    rw [div_lt_iff₀' pos] at narrow
    exact narrow.trans_le (mul_le_mul_of_nonneg_left more pos.le)
  have nonempty : ∃ k : ℕ, 1 ≤ k ∧ width < tol * 2 ^ k := ⟨k + 1, Nat.succ_pos k, narrow'⟩
  exact ⟨Nat.find nonempty, Nat.find_spec nonempty, fun k h => Nat.find_min' nonempty h⟩

/-- On rational numbers, let a function have values of opposite signs at the ends of an interval, and let
`K` be the least positive number of steps after which half of the width is below the tolerance. With a
budget of `K` or more a bisection converges in at most `K` steps. Each of its brackets has half the width
of the one before and lies in it. The root is a zero of the function, or its value there is below the
tolerance in magnitude, or it is the centre of an interval with a change of sign, half as wide as the
tolerance at most. -/
theorem start_converges (f : ℚ → ℚ) {a b tol : ℚ} (lt : a < b) (pos : 0 < tol)
    (opposite : (f a < 0 ∧ 0 < f b) ∨ (f b < 0 ∧ 0 < f a)) :
    ∃ K, IsLeast {k : ℕ | 1 ≤ k ∧ b - a < tol * 2 ^ k} K ∧ ∀ budget, K ≤ budget →
      ∃ (run : Run ε ℚ) (result : Result ℚ) (steps : List (Halving ℚ)),
        start (total f) a b tol budget = .ok run ∧ run.result = .ok result ∧
        result.converged = true ∧ result.trace = steps.map .halving ∧
        result.iterations = steps.length ∧ result.iterations ≤ K ∧
        (∀ i : Fin steps.length, (steps.get i).iteration = i + 1 ∧
          (steps.get i).b - (steps.get i).a = (b - a) / 2 ^ i.val) ∧
        (steps.IsChain fun outer inner => outer.a ≤ inner.a ∧ inner.b ≤ outer.b) ∧
        ∃ root, result.root = some root ∧
          (f root = 0 ∨ |f root| < tol ∨
            ∃ l r, root = (l + r) / 2 ∧ l < r ∧ (r - l) / 2 < tol ∧
              ((f l < 0 ∧ 0 < f r) ∨ (f r < 0 ∧ 0 < f l))) := by
  obtain ⟨K, least⟩ := exists_isLeast_narrow (b - a) pos
  refine ⟨K, least, fun budget enough => ?_⟩
  obtain ⟨⟨one_le, narrow⟩, -⟩ := least
  obtain ⟨result, h⟩ := exists_result (ε := ε) f a b tol budget
  obtain ⟨-, -, atA, atB, steps, ea, eb, trace, traced, concluded⟩ := run_spec (signed_rat _) h
  cases ea
  cases eb
  have interval : checkInterval a b = .ok () := if_pos ⟨rfl, rfl, lt⟩
  have tolerance : checkTolerance tol = .ok () := by
    refine if_neg (not_or.mpr ⟨Bool.false_ne_true, ?_⟩)
    rw [Rational.zero_eq]
    exact not_lt.mpr pos.le
  have started : start (total f : ℚ → Except ε ℚ) a b tol budget = .ok (run (total f) a b tol budget) := by
    rw [start, checkInput, interval, tolerance]
    rfl
  -- Half the width at step `K` is below the tolerance, so a step meets the stop test by then.
  obtain ⟨converged, iterations, short, last, taken, meets, root⟩ :=
    concluded.converges traced (opposite_iff.mpr opposite) one_le narrow enough
  refine ⟨_, result, steps, started, h, converged, trace, iterations, iterations.trans_le short,
    fun i => ⟨?_, traced.width i i.isLt⟩, traced.nested lt.le, last.midpoint, root, ?_⟩
  · exact (traced.iteration i i.isLt).trans (Nat.add_comm 1 i)
  · have value := Except.ok.inj (traced.atMidpoint last taken)
    rw [stopTest_iff, ← value] at meets
    -- Only the last of the three tests is about the bracket of the last step.
    refine meets.imp_right (Or.imp_right fun half => ⟨last.a, last.b, ?_, ?_, half, ?_⟩)
    · rw [traced.midpoint last taken]
      norm_num
    · obtain ⟨i, before, rfl⟩ := List.getElem_of_mem taken
      have width := traced.width i before
      have wide : 0 < (b - a) / 2 ^ i := div_pos (sub_pos.mpr lt) (by positivity)
      linarith
    · rw [Except.ok.inj (traced.atA last taken), Except.ok.inj (traced.atB last taken)]
      exact opposite_iff.mp (traced.opposite last taken)

/-- A function with a root at the square root of two, which is not rational. -/
def squareLessTwo (x : ℚ) : ℚ :=
  x * x - 2

/-- Between one and two, the square root of two is found up to a tenth in at most four steps. -/
theorem start_square_converges :
    (1 : ℚ) < 2 ∧ (0 : ℚ) < 1 / 10 ∧ (squareLessTwo 1 < 0 ∧ 0 < squareLessTwo 2) ∧
      ∃ (run : Run Formula.EvalError ℚ) (result : Result ℚ),
        start (total squareLessTwo) 1 2 (1 / 10) 100 = .ok run ∧ run.result = .ok result ∧
        result.converged = true ∧ result.iterations ≤ 4 := by
  have lt : (1 : ℚ) < 2 := by norm_num
  have pos : (0 : ℚ) < 1 / 10 := by norm_num
  have opposite : squareLessTwo 1 < 0 ∧ 0 < squareLessTwo 2 := by norm_num [squareLessTwo]
  obtain ⟨K, least, converges⟩ :=
    @start_converges Formula.EvalError squareLessTwo 1 2 (1 / 10) lt pos (.inl opposite)
  have four : K ≤ 4 := least.2 (by norm_num)
  obtain ⟨run, result, -, started, h, converged, -, -, short, -⟩ := converges 100 (by omega)
  exact ⟨lt, pos, opposite, run, result, started, h, converged, short.trans four⟩

end Stepwise.Root.Bisection
