import Stepwise.Proofs.Linear.Pivots

/-!
# The columns of an elimination

An elimination arrives at one column after the other, each time with the system that the column before
leaves, until the entry on the diagonal of a column is rejected. Once such an entry is accepted, the rows
down to it are finished, and no later step changes them. So back substitution finds on the diagonal what
was accepted there: it rejects nothing for being too small, and a system that gets that far is singular
only for a component of the solution that is not finite.
-/

namespace Stepwise.Linear

open Equations

variable {α : Type} {n : ℕ} [Arithmetic α]

namespace Solver

/-- An elimination arrives at a column with a system, after it has accepted the entries on the diagonal of
all columns before. -/
inductive Arrives (solver : Solver α) (start : Equations α n) : ℕ → Equations α n → Prop where
  | start : Arrives solver start 0 start
  | next {i : Fin n} {system : Equations α n} (arrives : Arrives solver start i system)
      (accepted : solver.pivotDefect? (solver.pivoted system i) i = none) :
      Arrives solver start (i + 1) (solver.next system i)

namespace Arrives

variable {solver : Solver α} {start system : Equations α n}

/-- From a column on, a run does what elimination of the columns that are left does. -/
lemma forward_eq {i : ℕ} (arrives : solver.Arrives start i system) :
    ∃ count earlier, i + count = n ∧ reached start earlier = system ∧
      solver.forward n 0 start =
        { solver.forward count i system with
          steps := earlier ++ (solver.forward count i system).steps } := by
  induction arrives with
  | start => exact ⟨n, [], Nat.zero_add n, rfl, rfl⟩
  | @next i system arrives accepted ih =>
    obtain ⟨count, earlier, e, rfl, forward⟩ := ih
    obtain ⟨count, rfl⟩ := Nat.exists_eq_succ_of_ne_zero (n := count) (by omega)
    refine ⟨count, earlier ++ (solver.swaps (reached start earlier) i ++
      clearSteps i (rowsBelow i) (solver.pivoted (reached start earlier) i)), by omega, ?_, ?_⟩
    · rw [reached_append, reached_append]
      rfl
    · rw [forward, forward_succ, accepted]
      simp only [List.append_assoc]

variable {i : Fin n}

/-- At a column, a run first exchanges rows. If the entry on the diagonal is then accepted, it clears the
entries below and goes on with the next column. -/
lemma steps_eq (arrives : solver.Arrives start i system) :
    ∃ earlier later, (solver.run start).steps = earlier ++ solver.swaps system i ++ later ∧
      reached start earlier = system ∧
      (solver.pivotDefect? (solver.pivoted system i) i = none →
        ∃ count, later = clearSteps i (rowsBelow i) (solver.pivoted system i) ++
          (solver.forward count (i + 1) (solver.next system i)).steps) := by
  obtain ⟨count, earlier, e, reached_eq, forward⟩ := arrives.forward_eq
  obtain ⟨count, rfl⟩ := Nat.exists_eq_succ_of_ne_zero (n := count) (by omega)
  rw [run_steps, forward, forward_succ]
  cases solver.pivotDefect? (solver.pivoted system i) i with
  | some defect => exact ⟨earlier, [], by rw [List.append_nil], reached_eq, nofun⟩
  | none =>
    refine ⟨earlier, _, ?_, reached_eq, fun _ => ⟨count, rfl⟩⟩
    simp only [List.append_assoc]

/-- Once the entry on the diagonal of a column is accepted, no step changes the rows down to it. -/
lemma frozen (arrives : solver.Arrives start i system)
    (accepted : solver.pivotDefect? (solver.pivoted system i) i = none) :
    ∃ earlier later, (solver.run start).steps = earlier ++ later ∧
      reached start earlier = solver.pivoted system i ∧
      ∀ step ∈ later, ∀ r ≤ i, step.system.get r = (solver.pivoted system i).get r := by
  obtain ⟨earlier, later, steps, rfl, continued⟩ := arrives.steps_eq
  obtain ⟨count, rfl⟩ := continued accepted
  refine ⟨_, _, steps, reached_append .., fun step mem r le => ?_⟩
  rcases List.mem_append.mp mem with mem | mem
  · exact clears_get le _ step mem
  · exact (forward_get (Nat.lt_succ_of_le le) step mem).trans (next_get le)

end Arrives

section Ending

variable {solver : Solver α} {start : Equations α n} {defect : Singularity α}

/-- A run whose elimination stops at a column ends there. -/
lemma ending_of_rejected (rejected : (solver.forward n 0 start).defect = some defect) :
    (solver.run start).ending = .error defect := by
  rw [run_eq]
  dsimp only
  rw [rejected]

/-- If no column is rejected, the entries on the diagonal are still not too small at the end. -/
lemma not_small_of_accepted (accepted : (solver.forward n 0 start).defect = none) (i : Fin n) :
    ¬ Arithmetic.magnitude ((reached start (solver.run start).steps).coefficient i i)
      < solver.pivotTolerance := by
  obtain ⟨sound, -⟩ := forward_pivots (Nat.zero_add n) accepted
  rw [← run_steps] at sound
  exact (pivotDefect?_eq_none_iff.mp (sound i (Nat.zero_le i))).2

/-- A run that is singular although no column is rejected has a component that is not finite. -/
lemma overflow_of_accepted (accepted : (solver.forward n 0 start).defect = none)
    (h : (solver.run start).ending = .error defect) :
    ∃ i : Fin n, defect = .overflow i ∧
      Arithmetic.isFinite ((backSubstitute (reached start (solver.run start).steps)).get i) = false := by
  have large := not_small_of_accepted accepted
  rw [run_steps] at large ⊢
  rw [run_eq] at h
  dsimp only at h
  rw [accepted] at h
  dsimp only at h
  split at h
  case h_1 found =>
    cases h
    obtain ⟨i, -, component⟩ := List.exists_of_findSome?_eq_some found
    unfold componentDefect? at component
    dsimp only at component
    rw [if_neg (large i)] at component
    split at component
    case isTrue infinite =>
      cases component
      exact ⟨i, rfl, (Bool.not_eq_true' _).mp infinite⟩
    case isFalse => cases component
  case h_2 => cases h

end Ending

section Doubles

variable {solver : Solver Float}

/-- For every square system of finite doubles and every solver, whatever its tolerance: once a column is
reached and the entry on its diagonal accepted, no later step of the run changes the rows down to this
column. If elimination accepts all columns, none of the entries that back substitution finds on the diagonal
is below the tolerance. So a system that is singular for a small pivot was found to be so by elimination,
and one that is found to be singular later has a component of the solution that is not finite. -/
theorem solveRows_finished_rows {rows : List (List Float)} (nonempty : rows ≠ [])
    (square : ∀ row ∈ rows, row.length = rows.length + 1)
    (finite : ∀ row ∈ rows, ∀ value ∈ row, value.isFinite = true) :
    ∃ start result, Equations.ofRows rows = .ok start ∧
      (solver.solveRows rows).run.result = .ok result ∧
      let run := solver.run start
      let forward := solver.forward rows.length 0 start
      let final := reached start run.steps
      (∀ (i : Fin rows.length) (system : Equations Float rows.length), solver.Arrives start i system →
        solver.pivotDefect? (solver.pivoted system i) i = none →
        ∃ earlier later, run.steps = earlier ++ later ∧
          reached start earlier = solver.pivoted system i ∧
          ∀ step ∈ later, ∀ r ≤ i, step.system.get r = (solver.pivoted system i).get r) ∧
      (result.status = .singular ↔ ∃ defect, run.ending = .error defect) ∧
      (forward.defect = none → ∀ i, ¬ (final.coefficient i i).abs < solver.pivotTolerance) ∧
      (∀ row pivot, run.ending = .error (.smallPivot row pivot) →
        forward.defect = some (.smallPivot row pivot)) ∧
      (forward.defect = none → ∀ defect, run.ending = .error defect →
        ∃ i : Fin rows.length, defect = .overflow i ∧ ((backSubstitute final).get i).isFinite = false) := by
  have sound := defect?_eq_none_iff.mpr ⟨nonempty, fun row mem => ⟨square row mem, finite row mem⟩⟩
  obtain ⟨start, accepted⟩ := exists_ofRows_iff.mpr sound
  refine ⟨start, _, accepted, solveRows_eq_ok_iff.mpr ⟨start, accepted, rfl⟩, ?_⟩
  intro run forward final
  refine ⟨fun i system => Arrives.frozen, Run.status_eq_singular_iff, not_small_of_accepted, ?_,
    fun accepted defect => overflow_of_accepted accepted⟩
  intro row pivot ending
  -- A run that has accepted all pivots can only end at a component that is not finite.
  cases defect : forward.defect with
  | some defect =>
    cases (ending_of_rejected defect).symm.trans ending
    rfl
  | none =>
    obtain ⟨i, e, -⟩ := overflow_of_accepted defect ending
    cases e

/-- Two equations whose second right side overflows when the first unknown is eliminated. -/
def lopsided : List (List Float) :=
  [[1, 0, 1e308], [-1, 1, 1e308]]

/-- The lopsided equations are accepted column by column, without any bound for pivots. The second unknown
is infinite, and for that they are singular. -/
theorem solveRows_lopsided_finished_rows :
    ∃ start result, Equations.ofRows lopsided = .ok start ∧
      (lenient.solveRows lopsided).run.result = .ok result ∧ result.status = .singular ∧
      (lenient.forward 2 0 start).defect = none ∧
      (∃ earlier later, (lenient.run start).steps = earlier ++ later ∧
        reached start earlier = lenient.pivoted start (0 : Fin 2) ∧
        ∀ step ∈ later, step.system.get (0 : Fin 2) = (lenient.pivoted start (0 : Fin 2)).get (0 : Fin 2)) ∧
      ∃ i : Fin 2, ((backSubstitute (reached start (lenient.run start).steps)).get i).isFinite = false := by
  obtain ⟨start, result, accepted, h, frozen, singular, -, -, overflow⟩ :=
    @solveRows_finished_rows lenient lopsided (by decide) (by decide) (by decide +kernel)
  obtain ⟨start', accepted', seen⟩ : ∃ start, Equations.ofRows lopsided = .ok start ∧
      ((lenient.forward 2 0 start).defect, (lenient.run start).ending.toOption.isSome,
        lenient.pivotDefect? (lenient.pivoted start (0 : Fin 2)) (0 : Fin 2)) = (none, false, none) :=
    toOption_map_eq_some_iff.mp (by decide +kernel)
  cases accepted.symm.trans accepted'
  simp only [Prod.mk.injEq] at seen
  obtain ⟨columns, unsolved, first⟩ := seen
  obtain ⟨defect, ending⟩ : ∃ defect, (lenient.run start).ending = .error defect := by
    cases ending : (lenient.run start).ending with
    | ok x => rw [ending] at unsolved; cases unsolved
    | error defect => exact ⟨defect, rfl⟩
  obtain ⟨i, -, infinite⟩ := overflow columns defect ending
  obtain ⟨earlier, later, steps, reached_eq, kept⟩ := frozen (0 : Fin 2) start .start first
  exact ⟨start, result, accepted, h, singular.mpr ⟨defect, ending⟩, columns,
    ⟨earlier, later, steps, reached_eq, fun step mem => kept step mem _ le_rfl⟩, i, infinite⟩

end Doubles

end Solver

end Stepwise.Linear
