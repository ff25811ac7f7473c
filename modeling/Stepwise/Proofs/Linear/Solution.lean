import Stepwise.Proofs.Linear.Reduction
import Mathlib.Algebra.BigOperators.Fin
import Mathlib.Tactic.FieldSimp

/-!
# Solutions in exact arithmetic

Back substitution solves a triangular system, and systems whose rows can be combined to each other have
the same solutions. So on rational numbers a solver finds the only solution of a system, or it reports a
system as singular because of a column that is small from the diagonal down.
-/

namespace Stepwise.Linear

open Equations

variable {n : ℕ}

/-- The sum of the products of coefficients and values. -/
def exactSum (coefficients values : List ℚ) : ℚ :=
  ((coefficients.zip values).map fun (a, x) => a * x).sum

namespace exactSum

/-- One more coefficient and value add their product. -/
lemma cons (a x : ℚ) (coefficients values : List ℚ) :
    exactSum (a :: coefficients) (x :: values) = a * x + exactSum coefficients values :=
  rfl

/-- The sum can be split anywhere. -/
lemma take_add_drop (i : ℕ) (coefficients values : List ℚ) :
    exactSum (coefficients.take i) (values.take i) + exactSum (coefficients.drop i) (values.drop i) =
      exactSum coefficients values := by
  induction i generalizing coefficients values with
  | zero => exact zero_add _
  | succ i ih =>
    cases coefficients with
    | nil => exact zero_add _
    | cons a coefficients =>
      cases values with
      | nil => simp only [exactSum, List.take_nil, List.drop_nil, List.zip_nil_right, List.map_nil,
          List.sum_nil, add_zero]
      | cons x values =>
        simp only [List.take_succ_cons, List.drop_succ_cons, cons, add_assoc, ih]

/-- Without coefficients, the values do not matter. -/
lemma eq_zero {coefficients : List ℚ} (zero : ∀ a ∈ coefficients, a = 0) (values : List ℚ) :
    exactSum coefficients values = 0 := by
  refine List.sum_eq_zero fun product mem => ?_
  obtain ⟨⟨a, x⟩, mem', rfl⟩ := List.mem_map.mp mem
  exact mul_eq_zero_of_left (zero a (List.of_mem_zip mem').1) x

/-- For a row of a system the sum runs over its unknowns. -/
lemma row (system : Equations ℚ n) (x : Vector ℚ n) (i : Fin n) :
    exactSum (system.get i).toList x.toList = ∑ j, system.coefficient i j * x.get j := by
  rw [← List.sum_ofFn, exactSum]
  congr 1
  refine List.ext_getElem ?_ fun j _ _ => ?_
  · simp only [List.length_map, List.length_zip, Vector.length_toList, List.length_ofFn]
    omega
  · simp only [List.getElem_map, List.getElem_zip, List.getElem_ofFn]
    rfl

end exactSum

/-- Adding up from some number on. -/
lemma foldl_add {ι : Type} (term : ι → ℚ) (first : ℚ) (terms : List ι) :
    terms.foldl (fun sum k => sum + term k) first = first + (terms.map term).sum := by
  induction terms generalizing first with
  | nil => exact (add_zero first).symm
  | cons k terms ih => rw [List.foldl_cons, ih, List.map_cons, List.sum_cons, add_assoc]

/-- In exact arithmetic the sum for an unknown does not depend on the order of the products. -/
lemma productSum_eq (coefficients values : List ℚ) :
    productSum coefficients values = exactSum coefficients values := by
  have e : productSum coefficients values = -0.0 + exactSum coefficients values := foldl_add _ _ _
  rw [e, Rational.neg_zero_eq, zero_add]

/-- In exact arithmetic the left side of an equation does not depend on the order of the products. -/
lemma leftSide_eq (coefficients values : List ℚ) :
    leftSide coefficients values = exactSum coefficients values := by
  rw [leftSide, exactSum]
  cases coefficients.zip values with
  | nil => exact Rational.zero_eq
  | cons p rest =>
    have e := foldl_add (fun p : ℚ × ℚ => p.1 * p.2) (p.1 * p.2) rest
    simp only [add_comm _ (_ * _)] at e
    exact e

namespace Equations

/-- The unknowns of a system have values that satisfy all equations. -/
def Solves (system : Equations ℚ n) (x : Vector ℚ n) : Prop :=
  ∀ i, ∑ j, system.coefficient i j * x.get j = system.rightSide i

/-- The coefficients of a system, without the right sides. -/
def matrix (system : Equations ℚ n) : Matrix (Fin n) (Fin n) ℚ :=
  .of system.coefficient

/-- Values solve a system exactly if the matrix takes them to the right sides. -/
lemma solves_iff {system : Equations ℚ n} {x : Vector ℚ n} :
    system.Solves x ↔ system.matrix.mulVec x.get = system.rightSide :=
  funext_iff.symm

section LastUnknowns

variable {α : Type} [Arithmetic α] (system : Equations α n)

/-- Each further unknown is computed from its row and the unknowns behind it. -/
lemma lastUnknowns_succ {count : ℕ} {i : Fin n} (e : i.val + (count + 1) = n) :
    lastUnknowns system (count + 1) =
      (system.rightSide i
          - productSum ((system.get i).toList.drop (i + 1)) (lastUnknowns system count))
        / system.coefficient i i :: lastUnknowns system count := by
  have lt : n - (count + 1) < n := by omega
  obtain rfl : i = ⟨n - (count + 1), lt⟩ := Fin.ext (by simp only; omega)
  rw [lastUnknowns, dif_pos lt]
  rfl

/-- As many unknowns are computed as are asked for. -/
lemma length_lastUnknowns {count : ℕ} (le : count ≤ n) :
    (lastUnknowns system count).length = count := by
  induction count with
  | zero => rfl
  | succ count ih =>
    rw [lastUnknowns_succ system (i := ⟨n - (count + 1), by omega⟩) (by simp only; omega),
      List.length_cons, ih (by omega)]

/-- The last of the computed unknowns are those computed before. -/
lemma drop_lastUnknowns (count later : ℕ) (le : count + later ≤ n) :
    (lastUnknowns system (count + later)).drop later = lastUnknowns system count := by
  induction later with
  | zero => rfl
  | succ later ih =>
    rw [← add_assoc, lastUnknowns_succ system (i := ⟨n - (count + later + 1), by omega⟩)
      (by simp only; omega), List.drop_succ_cons, ih (by omega)]

/-- Back substitution computes all unknowns from the last one on. -/
lemma toList_backSubstitute : (backSubstitute system).toList = lastUnknowns system n := by
  refine List.ext_getElem ?_ fun i _ lt => ?_
  · rw [Vector.length_toList, length_lastUnknowns system (le_refl n)]
  · simp only [backSubstitute, Vector.getElem_toList, Vector.getElem_ofFn,
      List.getD_eq_getElem?_getD, List.getElem?_eq_getElem lt, Option.getD_some]

/-- From any row on, back substitution has the unknown of this row and those behind it. -/
lemma drop_backSubstitute (i : Fin n) :
    (backSubstitute system).toList.drop i =
      (system.rightSide i
          - productSum ((system.get i).toList.drop (i + 1))
            ((backSubstitute system).toList.drop (i + 1)))
        / system.coefficient i i :: (backSubstitute system).toList.drop (i + 1) := by
  obtain ⟨count, e⟩ : ∃ count, i.val + (count + 1) = n := ⟨n - (i + 1), by omega⟩
  have now := drop_lastUnknowns system (count + 1) i (by omega)
  have later := drop_lastUnknowns system count (i + 1) (by omega)
  rw [show count + 1 + i.val = n by omega] at now
  rw [show count + (i.val + 1) = n by omega] at later
  rw [toList_backSubstitute, now, later, lastUnknowns_succ system e]

end LastUnknowns

variable {system first second : Equations ℚ n} {tolerance : ℚ}

/-- The determinant of a triangular system is not zero if nothing on its diagonal is. -/
lemma Reduced.det_ne_zero (pos : 0 < tolerance) (reduced : Reduced tolerance n system) :
    system.matrix.det ≠ 0 := by
  have triangular : system.matrix.IsUpperTriangular := fun k c lt => reduced.below k c c.isLt lt
  rw [Matrix.det_of_isUpperTriangular triangular, Finset.prod_ne_zero_iff]
  exact fun c _ => abs_pos.mp (pos.trans_le (reduced.diagonal c c.isLt))

/-- Back substitution solves a triangular system. -/
lemma Reduced.solves (pos : 0 < tolerance) (reduced : Reduced tolerance n system) :
    system.Solves (backSubstitute system) := by
  intro i
  have ne : system.coefficient i i ≠ 0 := abs_pos.mp (pos.trans_le (reduced.diagonal i i.isLt))
  -- Left of the diagonal there is nothing, and what is right of it has been subtracted.
  have left : ∀ a ∈ (system.get i).toList.take i, a = 0 := by
    intro a mem
    obtain ⟨c, lt, rfl⟩ := List.mem_take_iff_getElem.mp mem
    have lt' : c < i.val := (lt_min_iff.mp lt).1
    exact reduced.below i ⟨c, lt'.trans i.isLt⟩ (lt'.trans i.isLt) lt'
  have right : (system.get i).toList.drop i =
      system.coefficient i i :: (system.get i).toList.drop (i + 1) :=
    List.drop_eq_getElem_cons (by rw [Vector.length_toList]; omega)
  rw [← exactSum.row, ← exactSum.take_add_drop i, exactSum.eq_zero left, zero_add, right,
    drop_backSubstitute, exactSum.cons, productSum_eq, mul_div_cancel₀ _ ne, sub_add_cancel]

/-- A system whose rows are combinations has combined coefficients and right sides. -/
lemma RowEquivalent.combines (h : RowEquivalent first second) :
    ∃ combination : Matrix (Fin n) (Fin n) ℚ, IsUnit combination ∧
      second.matrix = combination * first.matrix ∧
      second.rightSide = combination.mulVec first.rightSide := by
  obtain ⟨combination, unit, e⟩ := h
  refine ⟨combination, unit, ?_, funext fun i => congrFun₂ e i (Fin.last n)⟩
  ext i j
  exact congrFun₂ e i j.castSucc

/-- Row equivalent systems have the same solutions. -/
lemma RowEquivalent.solves_iff (h : RowEquivalent first second) {x : Vector ℚ n} :
    first.Solves x ↔ second.Solves x := by
  obtain ⟨combination, unit, matrix_eq, rightSide_eq⟩ := h.combines
  rw [Equations.solves_iff, Equations.solves_iff, matrix_eq, rightSide_eq, ← Matrix.mulVec_mulVec]
  exact (Matrix.mulVec_injective_of_isUnit unit).eq_iff.symm

/-- Combining rows keeps a determinant that is not zero. -/
lemma RowEquivalent.det_ne_zero (h : RowEquivalent first second) (ne : second.matrix.det ≠ 0) :
    first.matrix.det ≠ 0 := by
  obtain ⟨combination, unit, matrix_eq, -⟩ := h.combines
  rw [matrix_eq, Matrix.det_mul] at ne
  exact right_ne_zero_of_mul ne

/-- A system with a determinant other than zero has at most one solution. -/
lemma Solves.unique (ne : system.matrix.det ≠ 0) {x y : Vector ℚ n} (hx : system.Solves x)
    (hy : system.Solves y) : x = y := by
  have unit : IsUnit system.matrix :=
    (Matrix.isUnit_iff_isUnit_det _).mpr (isUnit_iff_ne_zero.mpr ne)
  have e := (Equations.solves_iff.mp hx).trans (Equations.solves_iff.mp hy).symm
  have e' := Matrix.mulVec_injective_of_isUnit unit e
  exact Vector.ext fun i lt => congrFun e' ⟨i, lt⟩

/-- In exact arithmetic a solution leaves no residuals. -/
lemma Solves.residuals {x : Vector ℚ n} (h : system.Solves x) :
    residuals system x = Vector.replicate n 0 := by
  refine Vector.ext fun i lt => ?_
  have e : rowResidual system[i] x = 0 := by
    rw [rowResidual, Rational.magnitude_eq_abs, leftSide_eq]
    exact abs_eq_zero.mpr (sub_eq_zero_of_eq ((exactSum.row system x ⟨i, lt⟩).trans (h ⟨i, lt⟩)))
  rw [Linear.residuals, Vector.getElem_map, e, Vector.getElem_replicate]

end Equations

namespace Solver

variable {solver : Solver ℚ} {start : Equations ℚ n}

/-- On a triangular system, back substitution has no defect. -/
lemma componentDefect?_eq_none {final : Equations ℚ n}
    (reduced : Reduced solver.pivotTolerance n final) (solution : Vector ℚ n) (i : Fin n) :
    solver.componentDefect? final solution i = none := by
  rw [componentDefect?, Rational.magnitude_eq_abs, if_neg (not_lt.mpr (reduced.diagonal i i.isLt))]
  rfl

/-- A run reaches an equivalent system. It ends with the solution of that system if that is triangular,
and otherwise with the entry on the diagonal that is too small. -/
lemma run_spec (pos : 0 < solver.pivotTolerance) (start : Equations ℚ n) :
    let run := solver.run start
    let final := reached start run.steps
    RowEquivalent start final ∧
      ((Eliminated solver final none ∧ run.ending = .ok (backSubstitute final)) ∨
        ∃ defect, Eliminated solver final (some defect) ∧ run.ending = .error defect) := by
  intro run final
  have final_eq : final = reached start (solver.forward n 0 start).steps := by
    rw [← run_steps]
  obtain ⟨equivalent, eliminated⟩ := forward_spec pos (Nat.zero_add n) (Reduced.zero _ start)
  rw [← final_eq] at equivalent eliminated
  refine ⟨equivalent, ?_⟩
  cases defect_eq : (solver.forward n 0 start).defect with
  | none =>
    rw [defect_eq] at eliminated
    refine .inl ⟨eliminated, ?_⟩
    cases eliminated with
    | reduced reduced =>
      rw [final_eq] at reduced ⊢
      exact solver.ending_eq_ok_iff.mpr ⟨defect_eq, rfl, componentDefect?_eq_none reduced _⟩
  | some defect =>
    rw [defect_eq] at eliminated
    refine .inr ⟨defect, eliminated, ?_⟩
    simp only [run, Solver.run_eq, defect_eq]

/-- A run that ends with a solution has solved the system, which has no other solution. -/
lemma solves_of_run_eq_ok (pos : 0 < solver.pivotTolerance) {x : Vector ℚ n}
    (e : (solver.run start).ending = .ok x) : start.matrix.det ≠ 0 ∧ start.Solves x := by
  obtain ⟨equivalent, ⟨eliminated, e'⟩ | ⟨defect, -, e'⟩⟩ := run_spec pos start
  · cases eliminated with
    | reduced reduced =>
      obtain rfl := Except.ok.inj (e.symm.trans e')
      exact ⟨equivalent.det_ne_zero (reduced.det_ne_zero pos),
        equivalent.solves_iff.mpr (reduced.solves pos)⟩
  · cases e.symm.trans e'

/-- On rational numbers and with a positive tolerance, a system that is reported as solved has exactly one
solution, which is the one returned, with residuals of zero and whatever the solver. A system that is
reported as singular has been brought, by combining rows in a way that can be undone, to one with a small
entry on the diagonal, and with pivoting the entries below that one are small as well. -/
theorem run_exact (pos : 0 < solver.pivotTolerance) (start : Equations ℚ n) :
    let run := solver.run start
    let result := run.result start
    let final := reached start run.steps
    (result.status = .solved →
        start.matrix.det ≠ 0 ∧ ∃ x, result.solution = some x ∧ start.Solves x ∧
          (∀ y, start.Solves y → y = x) ∧ result.residuals = some (Vector.replicate n 0)) ∧
      (result.status = .singular →
        RowEquivalent start final ∧
          ∃ i : Fin n, run.ending = .error (.smallPivot i (final.coefficient i i)) ∧
            |final.coefficient i i| < solver.pivotTolerance ∧
            (solver.pivoting = true →
              ∀ k, i ≤ k → |final.coefficient k i| < solver.pivotTolerance)) ∧
      (start.matrix.det = 0 → result.status = .singular) ∧
      ∀ other : Solver ℚ, 0 < other.pivotTolerance →
        ((other.run start).result start).status = .solved → result.status = .solved →
          ((other.run start).result start).solution = result.solution := by
  intro run result final
  obtain ⟨equivalent, ending⟩ := run_spec pos start
  refine ⟨fun solved => ?solved, fun singular => ?singular, fun zero => ?zero,
    fun other pos' solved' solved => ?agree⟩
  case solved =>
    obtain ⟨x, e⟩ := Run.status_eq_solved_iff.mp solved
    obtain ⟨ne, solves⟩ := solves_of_run_eq_ok pos e
    refine ⟨ne, x, Run.result_solution e, solves, fun y solves' => solves'.unique ne solves, ?_⟩
    rw [← solves.residuals]
    exact Run.result_residuals e
  case singular =>
    obtain ⟨defect, e⟩ := Run.status_eq_singular_iff.mp singular
    refine ⟨equivalent, ?_⟩
    rcases ending with ⟨-, e'⟩ | ⟨defect, eliminated, e'⟩
    · cases e.symm.trans e'
    · cases eliminated with
      | rejected i small column => exact ⟨i, e', small, column⟩
  case zero =>
    rcases ending with ⟨-, e⟩ | ⟨defect, -, e⟩
    · exact absurd zero (solves_of_run_eq_ok pos e).1
    · exact Run.status_eq_singular_iff.mpr ⟨defect, e⟩
  case agree =>
    obtain ⟨x, e⟩ := Run.status_eq_solved_iff.mp solved
    obtain ⟨y, e'⟩ := Run.status_eq_solved_iff.mp solved'
    obtain ⟨ne, solves⟩ := solves_of_run_eq_ok pos e
    -- Both are solutions of the system at the start, which has only one.
    have same : y = x := (solves_of_run_eq_ok pos' e').2.unique ne solves
    rw [Run.result_solution e', same]
    exact (Run.result_solution e).symm

/-- Two equations, the first of them without the first unknown. -/
def crossed : Equations ℚ 2 :=
  #v[#v[0, 1, 2], #v[1, 1, 3]]

/-- Two equations with parallel rows. -/
def parallel : Equations ℚ 2 :=
  #v[#v[1, 2, 3], #v[2, 4, 6]]

/-- The solver with pivoting and with the usual tolerance. -/
def careful : Solver ℚ :=
  { Solver.default with pivoting := true }

/-- With pivoting, the crossed equations are solved, and the parallel ones are singular. -/
theorem run_crossed_parallel_exact :
    0 < careful.pivotTolerance ∧
      (∃ x, ((careful.run crossed).result crossed).solution = some x ∧ crossed.Solves x ∧
        ∀ y, crossed.Solves y → y = x) ∧
      RowEquivalent parallel (reached parallel (careful.run parallel).steps) := by
  have pos : 0 < careful.pivotTolerance := by decide +kernel
  obtain ⟨-, x, e, solves, unique, -⟩ := (run_exact pos crossed).1 (by decide +kernel)
  exact ⟨pos, ⟨x, e, solves, unique⟩, ((run_exact pos parallel).2.1 (by decide +kernel)).1⟩

end Solver

end Stepwise.Linear
