import Stepwise.Proofs.Double.Sign
import Stepwise.Proofs.Linear.Residuals
import Stepwise.Proofs.Linear.Solution

/-!
# Pivots of a solved system

A column is cleared with the entry on its diagonal, and back substitution divides by the same entry: the
rows down to a column do not change any more when later columns are cleared. The entry was found to be
finite and not too small when its column was reached. A tolerance that is zero, negative or not a number
lets zeros pass, but a quotient by a zero is not finite, and so no system is reported as solved with one.
-/

namespace Stepwise.Linear

open Equations

variable {α : Type} {n : ℕ}

/-- The entry on the diagonal that a step divides by. The step itself leaves it as it is. -/
def RowStep.pivot? (step : RowStep α n) : Option α :=
  match step.change with
  | .swapped _ _ => none
  | .eliminated column _ _ =>
    if h : column < n then some (step.system.coefficient ⟨column, h⟩ ⟨column, h⟩) else none

/-- All entries that a run divides by: those of its steps, and the diagonal of the system in which they
end, for the unknowns. -/
def Run.pivots (run : Run α n) (start : Equations α n) : List α :=
  run.steps.filterMap RowStep.pivot? ++
    (List.finRange n).map fun i => (reached start run.steps).coefficient i i

variable [Arithmetic α]

section Rows

variable {system : Equations α n} {i r : Fin n}

/-- Clearing some rows leaves the others as they are. -/
lemma clearSteps_get {rows : List (Fin n)} (apart : r ∉ rows) :
    ∀ step ∈ clearSteps i rows system, step.system.get r = system.get r := by
  induction rows generalizing system with
  | nil => exact List.forall_mem_nil _
  | cons j later ih =>
    rw [List.mem_cons, not_or] at apart
    intro step mem
    rcases List.mem_cons.mp mem with rfl | mem
    · exact subtractRow_get_of_ne apart.1
    · exact (ih apart.2 step mem).trans (subtractRow_get_of_ne apart.1)

/-- In each row, a column is cleared with the same entry. -/
lemma pivot?_of_mem_clearSteps {rows : List (Fin n)} (apart : i ∉ rows) :
    ∀ step ∈ clearSteps i rows system, step.pivot? = some (system.coefficient i i) := by
  induction rows generalizing system with
  | nil => exact List.forall_mem_nil _
  | cons j later ih =>
    rw [List.mem_cons, not_or] at apart
    have same (factor : α) : (system.subtractRow i j factor).coefficient i i = system.coefficient i i :=
      subtractRow_entry_of_ne apart.1 i.castSucc
    intro step mem
    rcases List.mem_cons.mp mem with rfl | mem
    · exact (dif_pos i.isLt).trans (congrArg some (same _))
    · rw [ih apart.2 step mem, same]

namespace Solver

variable {solver : Solver α}

/-- Only rows from the diagonal down are swapped. -/
lemma swaps_get (above : r < i) : ∀ step ∈ solver.swaps system i, step.system.get r = system.get r := by
  intro step mem
  obtain ⟨-, -, rfl⟩ := mem_swaps.mp mem
  have ne : r ≠ system.pivotRow i := ne_of_lt (lt_of_lt_of_le above (le_pivotRow system i))
  exact (swap_get ..).trans (by rw [Equiv.swap_apply_of_ne_of_ne (ne_of_lt above) ne])

/-- Pivoting leaves the rows above the diagonal alone. -/
lemma pivoted_get (above : r < i) : (solver.pivoted system i).get r = system.get r :=
  reached_get (swaps_get above)

/-- A swap divides by nothing. -/
lemma pivot?_of_mem_swaps {step : RowStep α n} (mem : step ∈ solver.swaps system i) :
    step.pivot? = none := by
  obtain ⟨-, -, rfl⟩ := mem_swaps.mp mem
  rfl

/-- Only rows below the diagonal are cleared. -/
lemma clears_get (le : r ≤ i) (cleared : Equations α n) :
    ∀ step ∈ clearSteps i (rowsBelow i) cleared, step.system.get r = cleared.get r :=
  clearSteps_get fun mem => not_lt.mpr le (mem_rowsBelow.mp mem)

/-- Clearing a column leaves the row of its pivot and those above alone. -/
lemma next_get (le : r ≤ i) : (solver.next system i).get r = (solver.pivoted system i).get r :=
  reached_get (clears_get le _)

/-- Elimination from a column on leaves the rows above that column as they are. -/
lemma forward_get {count i : ℕ} {system : Equations α n} (above : r.val < i) :
    ∀ step ∈ (solver.forward count i system).steps, step.system.get r = system.get r := by
  induction count generalizing i system with
  | zero => exact List.forall_mem_nil _
  | succ count ih =>
    rcases Nat.lt_or_ge i n with lt | ge
    · obtain ⟨i, rfl⟩ : ∃ i' : Fin n, i'.val = i := ⟨⟨i, lt⟩, rfl⟩
      have pivoted : (solver.pivoted system i).get r = system.get r := pivoted_get above
      have next : (solver.next system i).get r = system.get r := (next_get (le_of_lt above)).trans pivoted
      rw [forward_succ]
      intro step mem
      split at mem
      case h_1 => exact swaps_get above step mem
      case h_2 =>
        rcases List.mem_append.mp mem with mem | mem
        · rcases List.mem_append.mp mem with mem | mem
          · exact swaps_get above step mem
          · exact (clears_get (le_of_lt above) _ step mem).trans pivoted
        · exact (ih (Nat.lt_succ_of_lt above) step mem).trans next
    · rw [forward_of_ge solver ge]
      exact List.forall_mem_nil _

/-- If no column is rejected, the entries that were accepted end up on the diagonal, and the steps have
divided by no others. -/
lemma forward_pivots {count i : ℕ} (e : i + count = n) {system : Equations α n}
    (accepted : (solver.forward count i system).defect = none) :
    let final := reached system (solver.forward count i system).steps
    (∀ k : Fin n, i ≤ k → solver.pivotDefect? final k = none) ∧
      ∀ step ∈ (solver.forward count i system).steps, ∀ pivot ∈ step.pivot?,
        ∃ k, final.coefficient k k = pivot := by
  -- On the columns that are left. What later columns do leaves the row of this one as it is.
  induction count generalizing i system with
  | zero =>
    refine ⟨fun k le => ?_, fun step mem => nomatch mem⟩
    exact absurd k.isLt (by omega)
  | succ count ih =>
    obtain ⟨i, rfl⟩ : ∃ i' : Fin n, i'.val = i := ⟨⟨i, by omega⟩, rfl⟩
    cases defect : solver.pivotDefect? (solver.pivoted system i) i with
    | some defect =>
      rw [forward_of_rejected defect] at accepted
      cases accepted
    | none =>
      obtain ⟨defect_eq, reached_eq⟩ := forward_of_accepted defect count
      rw [reached_eq]
      rw [defect_eq] at accepted
      obtain ⟨later, steps⟩ := ih (by omega) accepted
      set final := reached (solver.next system i)
        (solver.forward count (i + 1) (solver.next system i)).steps with final_eq
      have row : final.get i = (solver.pivoted system i).get i :=
        (reached_get (forward_get (Nat.lt_succ_self i))).trans (next_get (le_refl i))
      have kept : final.coefficient i i = (solver.pivoted system i).coefficient i i :=
        congrArg (Vector.get · i.castSucc) row
      constructor
      · intro k le
        rcases Nat.eq_or_lt_of_le le with e | lt
        · obtain rfl : i = k := Fin.ext e
          rw [← defect, pivotDefect?, pivotDefect?, kept]
        · exact later k lt
      · intro step mem pivot found
        rw [forward_succ, defect] at mem
        rcases List.mem_append.mp mem with mem | mem
        · rcases List.mem_append.mp mem with mem | mem
          · rw [pivot?_of_mem_swaps mem] at found
            cases found
          · have apart : i ∉ rowsBelow i := fun mem => lt_irrefl i (mem_rowsBelow.mp mem)
            rw [pivot?_of_mem_clearSteps apart step mem] at found
            exact ⟨i, kept.trans (Option.some.inj found)⟩
        · exact steps step mem pivot found

end Solver

end Rows

namespace Solver

/-- A pivot is accepted exactly if it is finite and not below the tolerance. -/
lemma pivotDefect?_eq_none_iff {solver : Solver α} {system : Equations α n} {i : Fin n} :
    solver.pivotDefect? system i = none ↔
      Arithmetic.isFinite (system.coefficient i i) = true ∧
        ¬ Arithmetic.magnitude (system.coefficient i i) < solver.pivotTolerance := by
  unfold pivotDefect?
  dsimp only
  split
  case isTrue infinite => exact ⟨nofun, fun h => absurd h.1 (by simpa using infinite)⟩
  case isFalse finite =>
    rw [Bool.not_eq_true, Bool.not_eq_false'] at finite
    split
    case isTrue small => exact ⟨nofun, fun h => absurd small h.2⟩
    case isFalse large => exact ⟨fun _ => ⟨finite, large⟩, fun _ => rfl⟩

/-- What a run has divided by is on the diagonal of the system in which its steps end, and none of these
entries has a defect. -/
lemma run_pivots {solver : Solver α} {start : Equations α n} {x : Vector α n}
    (h : (solver.run start).ending = .ok x) :
    let final := reached start (solver.run start).steps
    (∀ i, solver.pivotDefect? final i = none) ∧ backSubstitute final = x ∧
      ∀ pivot ∈ (solver.run start).pivots start, ∃ i, final.coefficient i i = pivot := by
  intro final
  obtain ⟨accepted, solution, -⟩ := solver.ending_eq_ok_iff.mp h
  obtain ⟨sound, steps⟩ := forward_pivots (Nat.zero_add n) accepted
  rw [← run_steps] at solution sound steps
  refine ⟨fun i => sound i (Nat.zero_le i), solution, ?_⟩
  intro pivot mem
  rcases List.mem_append.mp mem with mem | mem
  · obtain ⟨step, mem, found⟩ := List.mem_filterMap.mp mem
    exact steps step mem pivot found
  · obtain ⟨i, -, rfl⟩ := List.mem_map.mp mem
    exact ⟨i, rfl⟩

section Doubles

variable {solver : Solver Float} {start : Equations Float n}

/-- A component of a solution is finite, so it is not a quotient by zero. -/
lemma coefficient_ne_zero {final : Equations Float n}
    (finite : ∀ value ∈ (backSubstitute final).toList, value.isFinite = true) (i : Fin n) :
    (final.coefficient i i == 0.0) = false := by
  have component := drop_backSubstitute final i
  have quotient := finite _ (List.mem_of_mem_drop (component ▸ List.mem_cons_self ..))
  rw [Bool.eq_false_iff]
  intro zero
  exact Bool.false_ne_true ((Double.not_isFinite_div_zero zero).symm.trans quotient)

/-- A run that ends with a solution has divided by finite numbers other than zero only, none of them
below a tolerance that is a number. -/
lemma pivots_spec {x : Vector Float n} (h : (solver.run start).ending = .ok x) {pivot : Float}
    (mem : pivot ∈ (solver.run start).pivots start) :
    pivot.isFinite = true ∧ (pivot == 0.0) = false ∧
      (solver.pivotTolerance.isNaN = false → solver.pivotTolerance ≤ pivot.abs) := by
  obtain ⟨sound, rfl, diagonal⟩ := run_pivots h
  obtain ⟨i, rfl⟩ := diagonal pivot mem
  obtain ⟨finite, large⟩ := pivotDefect?_eq_none_iff.mp (sound i)
  refine ⟨finite, coefficient_ne_zero (isFinite_of_run h) i, fun number => ?_⟩
  refine Double.le_of_not_lt_of_isNaN ?_ number large
  rw [Double.isNaN_abs]
  exact Double.isNaN_of_isFinite finite

/-- Whatever the tolerance, solving a square system of finite doubles has a result, and only a solved
system has a solution and residuals. A solution has one finite component for each unknown, and it was
computed with finite pivots other than zero, none of them below a tolerance that is a number. -/
theorem solveRows_pivots {rows : List (List Float)} (nonempty : rows ≠ [])
    (square : ∀ row ∈ rows, row.length = rows.length + 1)
    (finite : ∀ row ∈ rows, ∀ value ∈ row, value.isFinite = true) :
    ∃ system result, Equations.ofRows rows = .ok system ∧
      (solver.solveRows rows).run.result = .ok result ∧
      (result.status = .solved ↔ result.solution.isSome = true) ∧
      (result.status = .solved ↔ result.residuals.isSome = true) ∧
      (result.status = .solved →
        ∃ x r, result.solution = some x ∧ result.residuals = some r ∧
          x.toList.length = rows.length ∧ r.toList.length = rows.length ∧
          (∀ value ∈ x.toList, value.isFinite = true) ∧
          ∀ pivot ∈ (solver.run system).pivots system,
            pivot.isFinite = true ∧ (pivot == 0.0) = false ∧
              (solver.pivotTolerance.isNaN = false → solver.pivotTolerance ≤ pivot.abs)) := by
  have sound := defect?_eq_none_iff.mpr ⟨nonempty, fun row mem => ⟨square row mem, finite row mem⟩⟩
  obtain ⟨system, accepted⟩ := exists_ofRows_iff.mpr sound
  obtain ⟨solution_iff, residuals_iff⟩ :=
    @Run.status_eq_solved_iff_isSome _ _ _ (solver.run system) system
  refine ⟨system, _, accepted, solveRows_eq_ok_iff.mpr ⟨system, accepted, rfl⟩, solution_iff,
    residuals_iff, ?_⟩
  intro solved
  obtain ⟨x, ending⟩ := Run.status_eq_solved_iff.mp solved
  exact ⟨x, _, Run.result_solution ending, Run.result_residuals ending, Vector.length_toList,
    Vector.length_toList, isFinite_of_run ending, fun pivot mem => pivots_spec ending mem⟩

/-- A solver with pivoting whose tolerance is not a number, so that no entry is below it. -/
def lenient : Solver Float where
  pivoting := true
  pivotTolerance := 0.0 / 0.0

/-- Two equations whose rows have to be swapped. -/
def turned : List (List Float) :=
  [[0, 2, 4], [1, 1, 3]]

/-- Without a bound for pivots, the turned equations are solved, and none of their pivots is zero. -/
theorem solveRows_turned_pivots :
    ∃ system result, Equations.ofRows turned = .ok system ∧
      (lenient.solveRows turned).run.result = .ok result ∧ result.status = .solved ∧
      ∃ x, result.solution = some x ∧ (∀ value ∈ x.toList, value.isFinite = true) ∧
        ∀ pivot ∈ (lenient.run system).pivots system,
          pivot.isFinite = true ∧ (pivot == 0.0) = false := by
  obtain ⟨system, result, accepted, h, -, -, sound⟩ :=
    @solveRows_pivots lenient turned (by decide) (by decide) (by decide +kernel)
  obtain ⟨result', h', solved⟩ : ∃ result, (lenient.solveRows turned).run.result = .ok result ∧
      result.status = .solved := toOption_map_eq_some_iff.mp (by decide +kernel)
  cases h.symm.trans h'
  obtain ⟨x, r, solution, -, -, -, finite, pivots⟩ := sound solved
  exact ⟨system, result, accepted, h, solved, x, solution, finite,
    fun pivot mem => ⟨(pivots pivot mem).1, (pivots pivot mem).2.1⟩⟩

end Doubles

end Solver

end Stepwise.Linear
