import Stepwise.Proofs.Double.Overflow
import Stepwise.Proofs.Linear.Pivots

/-!
# The tolerance for pivots

The tolerance decides where an elimination stops, and nothing else. A stricter solver, which rejects all
the pivots that another one rejects and perhaps more, takes the same steps up to the first pivot that it
rejects itself. If it rejects none, it has the same solution.
-/

namespace Stepwise.Linear

open Equations

variable {α : Type} {n : ℕ}

/-- An elimination of columns beside a longer one of the same system: they are the same, or the shorter
one has stopped at a pivot on the way of the longer one. -/
inductive Forward.Cut (short long : Forward α n) : Prop where
  | same : short = long → Cut short long
  | rejected {defect : Singularity α} : short.defect = some defect → short.steps <+: long.steps →
    Cut short long

/-- The same steps in front of both. -/
lemma Forward.Cut.after {short long : Forward α n} (cut : short.Cut long) (steps : List (RowStep α n)) :
    Cut { short with steps := steps ++ short.steps } { long with steps := steps ++ long.steps } := by
  cases cut with
  | same e => exact .same (e ▸ rfl)
  | rejected stopped begins => exact .rejected stopped ((List.prefix_append_right_inj steps).mpr begins)

variable [Arithmetic α]

namespace Solver

/-- A solver finds every entry too small that another one finds too small, and both exchange rows or
neither does. -/
structure Stricter (strict solver : Solver α) : Prop where
  pivoting : strict.pivoting = solver.pivoting
  small : ∀ value, Arithmetic.magnitude value < solver.pivotTolerance →
    Arithmetic.magnitude value < strict.pivotTolerance

namespace Stricter

variable {strict solver : Solver α} {system : Equations α n} {i : Fin n}

/-- Both solvers swap the same rows before a column. -/
lemma swaps (stricter : strict.Stricter solver) : strict.swaps system i = solver.swaps system i := by
  rw [Solver.swaps, Solver.swaps, stricter.pivoting]

/-- Both solvers have the same system after the swap before a column. -/
lemma pivoted (stricter : strict.Stricter solver) :
    strict.pivoted system i = solver.pivoted system i := by
  rw [Solver.pivoted, Solver.pivoted, stricter.swaps]

/-- Both solvers go on with the same system after a column. -/
lemma next (stricter : strict.Stricter solver) : strict.next system i = solver.next system i := by
  rw [Solver.next, Solver.next, stricter.pivoted]

/-- What the stricter solver accepts as a pivot, the other one accepts. -/
lemma accepted (stricter : strict.Stricter solver) (sound : strict.pivotDefect? system i = none) :
    solver.pivotDefect? system i = none := by
  obtain ⟨finite, large⟩ := pivotDefect?_eq_none_iff.mp sound
  exact pivotDefect?_eq_none_iff.mpr ⟨finite, fun small => large (stricter.small _ small)⟩

/-- The stricter solver eliminates the same columns in the same way, but it may stop earlier. -/
lemma forward_cut (stricter : strict.Stricter solver) (count i : ℕ) (system : Equations α n) :
    (strict.forward count i system).Cut (solver.forward count i system) := by
  -- On the columns that are left: both solvers go on from the same system.
  induction count generalizing i system with
  | zero => exact .same rfl
  | succ count ih =>
    rcases Nat.lt_or_ge i n with lt | ge
    · obtain ⟨i, rfl⟩ : ∃ i' : Fin n, i'.val = i := ⟨⟨i, lt⟩, rfl⟩
      rw [forward_succ, forward_succ, stricter.swaps, stricter.pivoted, stricter.next]
      cases rejected : strict.pivotDefect? (solver.pivoted system i) i with
      | none =>
        rw [stricter.accepted rejected]
        exact (ih (i + 1) (solver.next system i)).after _
      | some defect =>
        refine .rejected rfl ?_
        dsimp only
        split
        case h_1 => exact List.prefix_rfl
        case h_2 =>
          rw [List.append_assoc]
          exact List.prefix_append _ _
    · rw [forward_of_ge strict ge, forward_of_ge solver ge]
      exact .same rfl

/-- The steps of the stricter solver are the first ones of the other. -/
lemma steps_prefix (stricter : strict.Stricter solver) (system : Equations α n) :
    (strict.run system).steps <+: (solver.run system).steps := by
  rw [run_steps, run_steps]
  cases stricter.forward_cut n 0 system with
  | same e => rw [e]
  | rejected _ begins => exact begins

/-- A system that the stricter solver solves is solved by the other one with the same steps. -/
lemma run_eq (stricter : strict.Stricter solver) {system : Equations α n} {x : Vector α n}
    (h : (strict.run system).ending = .ok x) : solver.run system = strict.run system := by
  obtain ⟨accepted, solution, sound⟩ := strict.ending_eq_ok_iff.mp h
  cases stricter.forward_cut n 0 system with
  | rejected stopped _ => cases accepted.symm.trans stopped
  | same e =>
    have component (i : Fin n) :
        solver.componentDefect? (reached system (solver.forward n 0 system).steps) x i = none := by
      have large := sound i
      rw [e] at large
      unfold componentDefect? at large ⊢
      dsimp only at large ⊢
      split at large
      case isTrue => cases large
      case isFalse not_small => rwa [if_neg fun small => not_small (stricter.small _ small)]
    have ending : (solver.run system).ending = .ok x :=
      solver.ending_eq_ok_iff.mpr ⟨e ▸ accepted, e ▸ solution, component⟩
    have steps : (solver.run system).steps = (strict.run system).steps := by
      rw [run_steps, run_steps, e]
    generalize strict.run system = run at h steps
    generalize solver.run system = run' at ending steps
    obtain ⟨taken, ended⟩ := run
    obtain ⟨taken', ended'⟩ := run'
    cases h
    cases ending
    cases steps
    rfl

/-- The snapshots of the stricter solver begin those of the other one. -/
lemma trace_prefix (stricter : strict.Stricter solver) (system : Equations α n) :
    (strict.run system).trace system <+: (solver.run system).trace system :=
  (List.prefix_cons_inj system).mpr (((stricter.steps_prefix system).filter _).map _)

end Stricter

section Doubles

variable {pivoting : Bool} {t t' : Float}

/-- A larger tolerance is stricter. -/
lemma stricter_of_le (le : t ≤ t') :
    Stricter { pivoting, pivotTolerance := t' } { pivoting, pivotTolerance := t } where
  pivoting := rfl
  small value (small : value.abs < t) := by
    by_cases finite : value.isFinite = true
    · exact Double.lt_of_lt_of_le_of_isFinite (Double.value_abs finite).1 small le
    · exact absurd small (Double.not_abs_lt (eq_false_of_ne_true finite))

/-- Whether rows are exchanged or not, a larger tolerance only cuts the elimination of a square system of
finite doubles short: the snapshots up to there are the same, and if the system is solved, the whole
result is. -/
theorem solveRows_tolerance (le : t ≤ t') {rows : List (List Float)} (nonempty : rows ≠ [])
    (square : ∀ row ∈ rows, row.length = rows.length + 1)
    (finite : ∀ row ∈ rows, ∀ value ∈ row, value.isFinite = true) :
    ∃ result result',
      (Solver.solveRows { pivoting, pivotTolerance := t } rows).run.result = .ok result ∧
      (Solver.solveRows { pivoting, pivotTolerance := t' } rows).run.result = .ok result' ∧
      result'.trace <+: result.trace ∧
      (result'.status = .solved → result = result') := by
  have sound := defect?_eq_none_iff.mpr ⟨nonempty, fun row mem => ⟨square row mem, finite row mem⟩⟩
  obtain ⟨system, accepted⟩ := exists_ofRows_iff.mpr sound
  have stricter : Stricter { pivoting, pivotTolerance := t' } { pivoting, pivotTolerance := t } :=
    stricter_of_le le
  refine ⟨_, _, solveRows_eq_ok_iff.mpr ⟨system, accepted, rfl⟩,
    solveRows_eq_ok_iff.mpr ⟨system, accepted, rfl⟩, ?_, fun solved => ?_⟩
  · rw [Run.result_trace, Run.result_trace]
    exact stricter.trace_prefix system
  · obtain ⟨x, ending⟩ := Run.status_eq_solved_iff.mp solved
    rw [stricter.run_eq ending]

/-- The pivots of the turned equations are 1 and 2. A tolerance of 1 lets both pass, as no tolerance at
all does, and a tolerance of 2 stops the elimination after the exchange of the rows. -/
theorem solveRows_turned_tolerance :
    ∃ free one two,
      (Solver.solveRows { pivoting := true, pivotTolerance := 0 } turned).run.result = .ok free ∧
      (Solver.solveRows { pivoting := true, pivotTolerance := 1 } turned).run.result = .ok one ∧
      (Solver.solveRows { pivoting := true, pivotTolerance := 2 } turned).run.result = .ok two ∧
      one.status = .solved ∧ free = one ∧
      two.status = .singular ∧ two.trace.length = 2 ∧ free.trace.length = 3 ∧
      two.trace <+: free.trace := by
  obtain ⟨free, one, free_eq, one_eq, -, same⟩ :=
    @solveRows_tolerance true 0 1 (by decide +kernel) turned (by decide) (by decide) (by decide +kernel)
  obtain ⟨free', two, free_eq', two_eq, begins, -⟩ :=
    @solveRows_tolerance true 0 2 (by decide +kernel) turned (by decide) (by decide) (by decide +kernel)
  cases free_eq.symm.trans free_eq'
  obtain ⟨one', one_eq', solved⟩ : ∃ result,
      (Solver.solveRows { pivoting := true, pivotTolerance := 1 } turned).run.result = .ok result ∧
        result.status = .solved := toOption_map_eq_some_iff.mp (by decide +kernel)
  cases one_eq.symm.trans one_eq'
  obtain ⟨two', two_eq', shape⟩ : ∃ result,
      (Solver.solveRows { pivoting := true, pivotTolerance := 2 } turned).run.result = .ok result ∧
        (result.status, result.trace.length) = (.singular, 2) :=
    toOption_map_eq_some_iff.mp (by decide +kernel)
  cases two_eq.symm.trans two_eq'
  obtain ⟨free', free_eq', length⟩ : ∃ result,
      (Solver.solveRows { pivoting := true, pivotTolerance := 0 } turned).run.result = .ok result ∧
        result.trace.length = 3 := toOption_map_eq_some_iff.mp (by decide +kernel)
  cases free_eq.symm.trans free_eq'
  exact ⟨free, one, two, free_eq, one_eq, two_eq, solved, same solved, congrArg Prod.fst shape,
    congrArg Prod.snd shape, length, begins⟩

end Doubles

end Solver

end Stepwise.Linear
