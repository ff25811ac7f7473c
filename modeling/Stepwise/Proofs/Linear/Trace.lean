import Stepwise.Proofs.Linear.Moves
import Stepwise.Proofs.Linear.Pivots

/-!
# The trace of an elimination

A subtraction that leaves only negligible coefficients in its row is not recorded, so the latest snapshot
may be behind the system that elimination works on, but in such rows only. Two snapshots in a row are one
move apart, once the negligible rows of the first one are brought up to date. The last snapshot of a
solved system is the system that was solved, unless a pivot is exactly as large as the bound up to which
a coefficient is negligible.
-/

namespace Stepwise.Linear

open Equations

variable {α : Type} {n : ℕ} [Arithmetic α]

/-- The snapshots that are taken at the start and at some steps from there. -/
def snapshots (start : Equations α n) (steps : List (RowStep α n)) : List (Equations α n) :=
  start :: (steps.filter RowStep.recorded).map RowStep.system

/-- A recorded step leaves a snapshot of the system behind in which it is made. -/
lemma snapshots_of_recorded {start : Equations α n} {step : RowStep α n}
    (recorded : step.recorded = true) (later : List (RowStep α n)) :
    snapshots start (step :: later) = start :: snapshots step.system later := by
  rw [snapshots, List.filter_cons_of_pos recorded]
  rfl

/-- A step that is not recorded leaves no snapshot behind. -/
lemma snapshots_of_unrecorded {start : Equations α n} {step : RowStep α n}
    (unrecorded : step.recorded = false) (later : List (RowStep α n)) :
    snapshots start (step :: later) = snapshots start later := by
  rw [snapshots, List.filter_cons_of_neg (Bool.not_eq_true _ ▸ unrecorded)]
  rfl

/-- The snapshots of the first steps are the first snapshots. -/
lemma snapshots_take (start : Equations α n) (steps : List (RowStep α n)) (k : ℕ) :
    snapshots start (steps.take k) <+: snapshots start steps :=
  List.prefix_cons_inj start |>.mpr (((List.take_prefix k steps).filter _).map _)

namespace Equations

omit [Arithmetic α] in
/-- A system has as many rows as unknowns, with one more entry each. -/
lemma rows_shape (system : Equations α n) :
    system.rows.length = n ∧ ∀ row ∈ system.rows, row.length = n + 1 := by
  constructor
  · rw [rows, List.length_map, Vector.length_toList]
  · intro row mem
    obtain ⟨entries, -, rfl⟩ := List.mem_map.mp mem
    exact Vector.length_toList

/-- None of the coefficients of a row is above the bound for negligible ones. -/
def Negligible (system : Equations α n) (r : Fin n) : Prop :=
  ∀ j, ¬ negligibleBound < Arithmetic.magnitude (system.coefficient r j)

/-- A snapshot shows a system: it has the same rows, apart from rows below the first one that are
negligible in the system. -/
def Shows (snapshot system : Equations α n) : Prop :=
  ∀ r, system.get r = snapshot.get r ∨ (0 < r.val ∧ system.Negligible r)

variable {snapshot system : Equations α n}

/-- A system shows itself. -/
lemma Shows.refl (system : Equations α n) : system.Shows system :=
  fun _ => .inl rfl

/-- The test for negligible rows tells whether a row is negligible. -/
lemma negligible_iff {r : Fin n} : negligible (system.get r) = true ↔ system.Negligible r := by
  rw [negligible, List.all_eq_true]
  simp only [Bool.not_eq_true', decide_eq_false_iff_not]
  constructor
  · intro small j
    refine small _ (List.mem_take_iff_getElem.mpr ⟨j, ?_, rfl⟩)
    rw [Vector.length_toList]
    exact lt_min j.isLt (Nat.lt_succ_of_lt j.isLt)
  · intro small value mem
    obtain ⟨j, lt, rfl⟩ := List.mem_take_iff_getElem.mp mem
    exact small ⟨j, (lt_min_iff.mp lt).1⟩

/-- A snapshot is up to date if no row below the first one is negligible. -/
lemma Shows.eq (shows : snapshot.Shows system)
    (large : ∀ r : Fin n, 0 < r.val → ¬ system.Negligible r) : snapshot = system :=
  Vector.ext fun r lt => ((shows ⟨r, lt⟩).resolve_right fun h => large ⟨r, lt⟩ h.1 h.2).symm

end Equations

/-- A subtraction is recorded unless the row that it changes is negligible. -/
lemma recorded_eliminated (column : ℕ) (r : Fin n) (factor : α) (system : Equations α n) :
    RowStep.recorded { change := .eliminated column r factor, system } =
      !negligible (system.get r) := by
  dsimp only [RowStep.recorded]
  rw [Vector.getElem?_eq_getElem r.isLt]
  rfl

namespace Solver

variable {solver : Solver α} {snapshot system : Equations α n} {step : RowStep α n}
  {steps : List (RowStep α n)}

/-- A move that is not recorded leaves the snapshot behind in at most one more row. -/
lemma Moves.shows (move : solver.Moves system step) (unrecorded : step.recorded = false)
    (shows : snapshot.Shows system) : snapshot.Shows step.system := by
  cases move with
  | swap => cases unrecorded
  | @clear i j below =>
    intro r
    -- row `j` becomes negligible whatever it was, and the other rows keep their side of `Shows`
    by_cases e : r = j
    · subst e
      rw [recorded_eliminated, Bool.not_eq_false'] at unrecorded
      exact .inr ⟨Nat.zero_lt_of_lt below, negligible_iff.mp unrecorded⟩
    · rcases shows r with same | ⟨pos, small⟩
      · exact .inl ((subtractRow_get_of_ne e).trans same)
      · refine .inr ⟨pos, ?_⟩
        rw [← negligible_iff, subtractRow_get_of_ne e, negligible_iff]
        exact small

/-- The latest snapshot shows the system that has been reached. -/
lemma Moved.latest_shows (moved : solver.Moved system steps) (shows : snapshot.Shows system) :
    ∃ latest, (snapshots snapshot steps).getLast? = some latest ∧
      latest.Shows (reached system steps) := by
  -- the snapshot varies: a recorded move replaces it, another one leaves it further behind
  induction moved generalizing snapshot with
  | nil => exact ⟨snapshot, rfl, shows⟩
  | @cons system step later first rest ih =>
    rw [reached_cons]
    cases recorded : step.recorded with
    | true =>
      rw [snapshots_of_recorded recorded]
      exact ih (Shows.refl _)
    | false =>
      rw [snapshots_of_unrecorded recorded]
      exact ih (first.shows recorded shows)

/-- A snapshot is followed by another one: a move leads to it from a system that the first one shows. -/
def Follows (solver : Solver α) (snapshot next : Equations α n) : Prop :=
  ∃ system step, snapshot.Shows system ∧ solver.Moves system step ∧ step.system = next

/-- Each snapshot is followed by the next one. -/
lemma Moved.isChain (moved : solver.Moved system steps) (shows : snapshot.Shows system) :
    (snapshots snapshot steps).IsChain solver.Follows := by
  induction moved generalizing snapshot with
  | nil => exact .singleton snapshot
  | @cons system step later first rest ih =>
    cases recorded : step.recorded with
    | true =>
      rw [snapshots_of_recorded recorded]
      exact .cons_cons ⟨system, step, shows, first, rfl⟩ (ih (Shows.refl _))
    | false =>
      rw [snapshots_of_unrecorded recorded]
      exact ih (first.shows recorded shows)

/-- No run takes more snapshots than one at the start, one for each row but the last, and one for each
two rows. -/
lemma length_trace_le (solver : Solver α) (system : Equations α n) :
    ((solver.run system).trace system).length ≤ 1 + (n - 1) + n * (n - 1) / 2 := by
  have steps : (solver.run system).steps.length ≤ (n - 1) + n * (n - 1) / 2 := by
    rw [run_steps]
    exact length_forward_le (Nat.zero_add n)
  have recorded := List.length_filter_le RowStep.recorded (solver.run system).steps
  rw [Run.trace, List.length_cons, List.length_map]
  omega

/-- The last snapshot of a run shows the system in which its steps end. -/
lemma last_shows (solver : Solver α) (start : Equations α n) :
    ∃ last, ((solver.run start).trace start).getLast? = some last ∧
      last.Shows (reached start (solver.run start).steps) :=
  (solver.moved_run start).latest_shows (Shows.refl start)

section Doubles

variable {solver : Solver Float}

/-- The solver with the usual tolerance. -/
def usual (pivoting : Bool) : Solver Float :=
  { Solver.default with pivoting }

/-- Three equations: the first column leaves the third one negligible, and the second column does not. -/
def veiled : List (List Float) :=
  [[1, 0, 0, 1], [0, 1e-9, 1e5, 2], [1, 1e-11, 1e-11, 3]]

/-- For every square system of finite doubles and every solver, the trace begins with the system. The
run makes one move after the other, and the trace has the snapshots of all of them. After any number of
moves the snapshots taken so far begin the trace, and the latest of them shows the system that has been
reached. Each snapshot is followed by the next one, all of them have the shape of the system, and there
are not more of them than rows and pairs of rows. -/
theorem solveRows_trace {rows : List (List Float)} (nonempty : rows ≠ [])
    (square : ∀ row ∈ rows, row.length = rows.length + 1)
    (finite : ∀ row ∈ rows, ∀ value ∈ row, value.isFinite = true) :
    ∃ system result, Equations.ofRows rows = .ok system ∧ system.rows = rows ∧
      (solver.solveRows rows).run.result = .ok result ∧
      result.trace.head? = some system ∧
      solver.Moved system (solver.run system).steps ∧
      result.trace = snapshots system (solver.run system).steps ∧
      (∀ k, snapshots system ((solver.run system).steps.take k) <+: result.trace ∧
        ∃ latest, (snapshots system ((solver.run system).steps.take k)).getLast? = some latest ∧
          latest.Shows (reached system ((solver.run system).steps.take k))) ∧
      result.trace.IsChain solver.Follows ∧
      (∀ snapshot ∈ result.trace, snapshot.rows.length = rows.length ∧
        ∀ row ∈ snapshot.rows, row.length = rows.length + 1) ∧
      result.trace.length ≤ 1 + (rows.length - 1) + rows.length * (rows.length - 1) / 2 := by
  have sound := defect?_eq_none_iff.mpr ⟨nonempty, fun row mem => ⟨square row mem, finite row mem⟩⟩
  obtain ⟨system, accepted⟩ := exists_ofRows_iff.mpr sound
  have moved := solver.moved_run system
  have trace : ((solver.run system).result system).trace =
      snapshots system (solver.run system).steps := Run.result_trace ..
  refine ⟨system, _, accepted, rows_of_ofRows accepted,
    solveRows_eq_ok_iff.mpr ⟨system, accepted, rfl⟩, ?_⟩
  rw [trace]
  refine ⟨rfl, moved, rfl, fun k => ⟨snapshots_take _ _ k, ?_⟩, moved.isChain (Shows.refl system),
    fun snapshot _ => snapshot.rows_shape, length_trace_le solver system⟩
  exact (moved.take k).latest_shows (Shows.refl system)

/-- The elimination of the veiled equations has three steps. The second one is not recorded, but the
latest snapshot still shows the system after it. -/
theorem solveRows_veiled_trace :
    ∃ system result, Equations.ofRows veiled = .ok system ∧
      ((usual true).solveRows veiled).run.result = .ok result ∧
      result.trace.head? = some system ∧ result.trace.IsChain (usual true).Follows ∧
      ((usual true).run system).steps.map RowStep.recorded = [true, false, true] ∧
      ∃ latest, (snapshots system (((usual true).run system).steps.take 2)).getLast? = some latest ∧
        latest.Shows (reached system (((usual true).run system).steps.take 2)) := by
  obtain ⟨system, result, accepted, -, h, head, -, -, taken, chain, -, -⟩ :=
    @solveRows_trace (usual true) veiled (by decide) (by decide) (by decide +kernel)
  obtain ⟨system', accepted', recorded⟩ : ∃ system, Equations.ofRows veiled = .ok system ∧
      ((usual true).run system).steps.map RowStep.recorded = [true, false, true] :=
    toOption_map_eq_some_iff.mp (by decide +kernel)
  cases accepted.symm.trans accepted'
  exact ⟨system, result, accepted, h, head, chain, recorded, (taken 2).2⟩

/-- A pivot that is accepted with the usual tolerance in a negligible row is exactly at the bound. -/
lemma pivot_at_bound {pivoting : Bool} {final : Equations Float n} {r : Fin n}
    (sound : (usual pivoting).pivotDefect? final r = none) (small : final.Negligible r) :
    ((final.coefficient r r).abs == 1e-10) = true := by
  obtain ⟨finite, large⟩ := pivotDefect?_eq_none_iff.mp sound
  refine Double.beq_of_not_lt ?_ (by decide +kernel) large (small r)
  rw [Double.isNaN_abs]
  exact Double.isNaN_of_isFinite finite

/-- The last snapshot of a system that is solved with the usual tolerance has the rows from which the
solution was computed, apart from rows below the first one whose pivot is exactly at the bound and whose
other coefficients are not above it. If there is no such row, the last snapshot is that system, and back
substitution of it gives the solution. -/
theorem solveRows_last_snapshot {pivoting : Bool} {rows : List (List Float)}
    {result : SolveResult Float rows.length}
    (h : ((usual pivoting).solveRows rows).run.result = .ok result)
    (solved : result.status = .solved) :
    ∃ system x last, Equations.ofRows rows = .ok system ∧ result.solution = some x ∧
      result.trace.getLast? = some last ∧
      let final := reached system ((usual pivoting).run system).steps
      backSubstitute final = x ∧
      (∀ r, final.get r = last.get r ∨
        0 < r.val ∧ ((final.coefficient r r).abs == 1e-10) = true ∧ final.Negligible r) ∧
      ((∀ r : Fin rows.length, 0 < r.val → ((final.coefficient r r).abs == 1e-10) = true →
          ¬ final.Negligible r) →
        last = final ∧ backSubstitute last = x) := by
  obtain ⟨system, accepted, rfl⟩ := solveRows_eq_ok_iff.mp h
  obtain ⟨x, ending⟩ := Run.status_eq_solved_iff.mp solved
  obtain ⟨last, last_eq, shows⟩ := last_shows (usual pivoting) system
  obtain ⟨sound, solution, -⟩ := run_pivots ending
  refine ⟨system, x, last, accepted, Run.result_solution ending, ?_, solution, fun r => ?_,
    fun above => ?_⟩
  · rw [Run.result_trace, last_eq]
  · rcases shows r with same | ⟨pos, small⟩
    · exact .inl same
    · exact .inr ⟨pos, pivot_at_bound (sound r) small, small⟩
  · have up_to_date : last = reached system ((usual pivoting).run system).steps :=
      shows.eq fun r pos small => above r pos (pivot_at_bound (sound r) small) small
    exact ⟨up_to_date, up_to_date ▸ solution⟩

/-- The veiled equations are solved, no pivot below the first one is at the bound, and the last snapshot
has the solution. -/
theorem solveRows_veiled_last_snapshot :
    ∃ result x last, ((usual true).solveRows veiled).run.result = .ok result ∧
      result.status = .solved ∧ result.solution = some x ∧ result.trace.getLast? = some last ∧
      backSubstitute last = x := by
  obtain ⟨result, h, solved⟩ : ∃ result, ((usual true).solveRows veiled).run.result = .ok result ∧
      result.status = .solved := toOption_map_eq_some_iff.mp (by decide +kernel)
  obtain ⟨system, x, last, accepted, solution, last_eq, -, -, same⟩ := solveRows_last_snapshot h solved
  obtain ⟨system', accepted', above⟩ : ∃ system, Equations.ofRows veiled = .ok system ∧
      ((List.finRange veiled.length).all fun r => r.val == 0 ||
        !((reached system ((usual true).run system).steps).coefficient r r).abs == 1e-10) = true :=
    toOption_map_eq_some_iff.mp (by decide +kernel)
  cases accepted.symm.trans accepted'
  refine ⟨result, x, last, h, solved, solution, last_eq, (same fun r pos at_bound => ?_).2⟩
  have large := List.all_eq_true.mp above r (List.mem_finRange r)
  rw [at_bound, Bool.not_true, Bool.or_false, beq_iff_eq] at large
  exact absurd large (Nat.ne_of_gt pos)

/-- Two equations, whose second pivot is exactly at the bound for negligible coefficients. -/
def faint : List (List Float) :=
  [[1, 1e-10, 0], [1, 2e-10, 1e-10]]

/-- The last snapshot of a solved system need not have the solution of the system. -/
theorem not_all_last_snapshots_solved :
    ¬ ∀ (pivoting : Bool) (rows : List (List Float)) (result : SolveResult Float rows.length),
      ((usual pivoting).solveRows rows).run.result = .ok result → result.status = .solved →
        ∃ x last, result.solution = some x ∧ result.trace.getLast? = some last ∧
          backSubstitute last = x := by
  intro agree
  obtain ⟨result, h, e⟩ : ∃ result, ((usual false).solveRows faint).run.result = .ok result ∧
      (result.status, result.solution.map fun x => x[1] == 1,
        result.trace.getLast?.map fun last => (backSubstitute last)[1] == 1) =
          (.solved, some true, some false) :=
    toOption_map_eq_some_iff.mp (by decide +kernel)
  simp only [Prod.mk.injEq] at e
  obtain ⟨solved, component, component'⟩ := e
  obtain ⟨x, last, solution, last_eq, same⟩ := agree false faint result h solved
  rw [solution] at component
  rw [last_eq, Option.map_some, same, ← Option.map_some] at component'
  cases component.symm.trans component'

end Doubles

end Solver

end Stepwise.Linear
