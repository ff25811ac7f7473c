import Stepwise.Linear.Elimination
import Mathlib.Logic.Equiv.Basic

/-!
# The steps of an elimination

What a swap and a subtraction of rows do to the entries of a system, where a list of steps ends, and the
two things that can happen at a column: its entry on the diagonal is rejected and elimination stops there,
or the entries below the diagonal are cleared and elimination goes on with the next column.
-/

namespace Stepwise.Linear

variable {α : Type} {n : Nat}

namespace Equations

/-- The entry of row `i` in column `j`. The last column holds the right sides. -/
def entry (system : Equations α n) (i : Fin n) (j : Fin (n + 1)) : α :=
  (system.get i).get j

/-- A coefficient is an entry in front of the last column. -/
lemma coefficient_eq_entry (system : Equations α n) (i j : Fin n) :
    system.coefficient i j = system.entry i j.castSucc :=
  rfl

/-- An entry by its row and its column. -/
lemma entry_eq_getElem (system : Equations α n) (i : Fin n) (j : Fin (n + 1)) :
    system.entry i j = getElem (getElem system i.val i.isLt) j.val j.isLt :=
  rfl

/-- The rows below a row are the ones behind it. -/
lemma mem_rowsBelow {i j : Fin n} : j ∈ rowsBelow i ↔ i < j := by
  simp only [rowsBelow, List.mem_filter, List.mem_finRange, true_and, decide_eq_true_eq]

/-- Systems with the same entries are the same. -/
lemma ext_entry {first second : Equations α n}
    (h : ∀ i j, first.entry i j = second.entry i j) : first = second :=
  Vector.ext fun i hi => Vector.ext fun j hj => h ⟨i, hi⟩ ⟨j, hj⟩

/-- Exchanging two rows exchanges their entries. -/
lemma swap_entry (system : Equations α n) (i k r : Fin n) (c : Fin (n + 1)) :
    entry (system.swap i k i.isLt k.isLt) r c = system.entry (Equiv.swap i k r) c := by
  simp only [entry_eq_getElem, Vector.getElem_swap, Equiv.swap_apply_def, Fin.ext_iff]
  split
  case isTrue => rfl
  case isFalse => split <;> rfl

/-- Exchanging two rows, by whole rows. -/
lemma swap_get (system : Equations α n) (i k r : Fin n) :
    Vector.get (system.swap i k i.isLt k.isLt) r = system.get (Equiv.swap i k r) :=
  Vector.ext fun c lt => swap_entry system i k r ⟨c, lt⟩

variable [Arithmetic α]

/-- No row above the diagonal is brought to it. -/
lemma le_pivotRow (system : Equations α n) (i : Fin n) : i ≤ system.pivotRow i := by
  refine List.foldlRecOn _ _ (Fin.le_refl i) fun best le k mem => ?_
  split
  case isTrue => exact Fin.le_of_lt (mem_rowsBelow.mp mem)
  case isFalse => exact le

/-- A subtraction changes one row, from a column on. -/
lemma subtractRow_entry (system : Equations α n) (i j : Fin n) (factor : α) (r : Fin n)
    (c : Fin (n + 1)) :
    (system.subtractRow i j factor).entry r c =
      if r = j ∧ i.val ≤ c.val then system.entry j c - factor * system.entry i c
      else system.entry r c := by
  simp only [entry_eq_getElem, subtractRow, Fin.getElem_fin, Vector.getElem_set, Fin.ext_iff]
  by_cases e : r = j
  · subst e
    simp only [if_true, Vector.getElem_ofFn, true_and]
  · have ne : ¬ j.val = r.val := fun h => e (Fin.ext h.symm)
    have ne' : ¬ r.val = j.val := fun h => e (Fin.ext h)
    simp only [ne, ne', if_false, false_and]

/-- A subtraction from another row leaves a row as it is. -/
lemma subtractRow_entry_of_ne {system : Equations α n} {i j r : Fin n} {factor : α}
    (ne : r ≠ j) (c : Fin (n + 1)) :
    (system.subtractRow i j factor).entry r c = system.entry r c := by
  rw [subtractRow_entry, if_neg fun h => ne h.1]

/-- Subtracting from a row leaves the others alone. -/
lemma subtractRow_get_of_ne {system : Equations α n} {i j r : Fin n} {factor : α} (ne : r ≠ j) :
    (system.subtractRow i j factor).get r = system.get r :=
  Vector.ext fun c lt => subtractRow_entry_of_ne ne ⟨c, lt⟩

end Equations

/-- No steps reach no other system. -/
lemma reached_nil (start : Equations α n) : reached start [] = start :=
  rfl

/-- A first step is passed by the others. -/
lemma reached_cons (start : Equations α n) (step : RowStep α n) (later : List (RowStep α n)) :
    reached start (step :: later) = reached step.system later := by
  simp only [reached, List.getLast?_cons, Option.map_some, Option.getD_some]
  cases later.getLast? <;> rfl

/-- What steps reach is where the later ones go on. -/
lemma reached_append (start : Equations α n) (steps later : List (RowStep α n)) :
    reached start (steps ++ later) = reached (reached start steps) later := by
  induction steps generalizing start with
  | nil => rfl
  | cons step steps ih => rw [List.cons_append, reached_cons, reached_cons, ih]

/-- A row that is the same after every step is the same where the steps end. -/
lemma reached_get {start : Equations α n} {steps : List (RowStep α n)} {r : Fin n}
    (kept : ∀ step ∈ steps, step.system.get r = start.get r) :
    (reached start steps).get r = start.get r := by
  unfold reached
  cases last : steps.getLast? with
  | none => rfl
  | some step => exact kept step (List.mem_of_getLast? last)

variable [Arithmetic α]

/-- The system after the entries below the diagonal are cleared in some rows of column `i`. -/
def cleared (i : Fin n) (rows : List (Fin n)) (system : Equations α n) : Equations α n :=
  reached system (clearSteps i rows system)

/-- Without rows nothing is cleared. -/
lemma cleared_nil (i : Fin n) (system : Equations α n) : cleared i [] system = system :=
  rfl

/-- The rows of a column are cleared one after the other, each with the quotient at its time. -/
lemma cleared_cons (i j : Fin n) (later : List (Fin n)) (system : Equations α n) :
    cleared i (j :: later) system =
      cleared i later
        (system.subtractRow i j (system.coefficient j i / system.coefficient i i)) := by
  rw [cleared, clearSteps_cons, reached_cons]
  rfl

namespace Solver

variable (solver : Solver α)

/-- The swap before a column, if the solver does one. -/
def swaps (system : Equations α n) (i : Fin n) : List (RowStep α n) :=
  if solver.pivoting then pivotSteps system i else []

/-- The system after the swap before a column. -/
def pivoted (system : Equations α n) (i : Fin n) : Equations α n :=
  reached system (solver.swaps system i)

/-- The system with which elimination goes on after a column. -/
def next (system : Equations α n) (i : Fin n) : Equations α n :=
  cleared i (Equations.rowsBelow i) (solver.pivoted system i)

/-- What is done before a column: the row with the largest entry is brought to the diagonal, if the
solver exchanges rows and it is not there. -/
lemma mem_swaps {solver : Solver α} {system : Equations α n} {i : Fin n} {step : RowStep α n} :
    step ∈ solver.swaps system i ↔
      solver.pivoting = true ∧ system.pivotRow i ≠ i ∧
        step = { change := .swapped i (system.pivotRow i)
                 system := system.swap i (system.pivotRow i) i.isLt (system.pivotRow i).isLt } := by
  unfold swaps pivotSteps
  dsimp only
  split
  case isTrue on =>
    split
    case isTrue e => exact iff_of_false List.not_mem_nil fun h => h.2.1 e
    case isFalse ne => exact List.mem_singleton.trans ⟨fun e => ⟨on, ne, e⟩, fun h => h.2.2⟩
  case isFalse off => exact iff_of_false List.not_mem_nil fun h => off h.1

/-- Without pivoting the system before a column stays. -/
lemma pivoted_eq_self {solver : Solver α} (off : solver.pivoting = false) (system : Equations α n)
    (i : Fin n) : solver.pivoted system i = system := by
  simp only [pivoted, swaps, off, Bool.false_eq_true, if_false, reached_nil]

/-- With pivoting the row of the pivot is brought to the diagonal. -/
lemma pivoted_eq_swap {solver : Solver α} (on : solver.pivoting = true) (system : Equations α n)
    (i : Fin n) :
    solver.pivoted system i =
      system.swap i (system.pivotRow i) i.isLt (system.pivotRow i).isLt := by
  simp only [pivoted, swaps, on, if_true, pivotSteps]
  split
  case isTrue e =>
    refine Equations.ext_entry fun r c => ?_
    rw [Equations.swap_entry, e, Equiv.swap_self]
    rfl
  case isFalse => rfl

/-- What elimination does at a column depends on the entry on the diagonal after the swap. -/
lemma forward_succ (system : Equations α n) (i : Fin n) (count : Nat) :
    solver.forward (count + 1) i system =
      match solver.pivotDefect? (solver.pivoted system i) i with
      | some defect => { steps := solver.swaps system i, defect := some defect }
      | none =>
        { solver.forward count (i + 1) (solver.next system i) with
          steps := solver.swaps system i
            ++ clearSteps i (Equations.rowsBelow i) (solver.pivoted system i)
            ++ (solver.forward count (i + 1) (solver.next system i)).steps } := by
  rw [forward_of_lt solver i.isLt]
  rfl

/-- At a column whose entry on the diagonal is rejected, elimination stops. -/
lemma forward_of_rejected {solver : Solver α} {system : Equations α n} {i : Fin n}
    {defect : Singularity α}
    (rejected : solver.pivotDefect? (solver.pivoted system i) i = some defect) (count : Nat) :
    solver.forward (count + 1) i system =
      { steps := solver.swaps system i, defect := some defect } := by
  rw [forward_succ, rejected]

/-- At a column whose entry on the diagonal is accepted, elimination goes on. -/
lemma forward_of_accepted {solver : Solver α} {system : Equations α n} {i : Fin n}
    (accepted : solver.pivotDefect? (solver.pivoted system i) i = none) (count : Nat) :
    (solver.forward (count + 1) i system).defect =
        (solver.forward count (i + 1) (solver.next system i)).defect ∧
      reached system (solver.forward (count + 1) i system).steps =
        reached (solver.next system i)
          (solver.forward count (i + 1) (solver.next system i)).steps := by
  rw [forward_succ, accepted]
  refine ⟨rfl, ?_⟩
  rw [reached_append, reached_append]
  rfl

/-- The steps of a run are those of its elimination. -/
lemma run_steps (system : Equations α n) :
    (solver.run system).steps = (solver.forward n 0 system).steps := by
  rw [run_eq]
  dsimp only
  split
  case h_1 => rfl
  case h_2 => split <;> rfl

/-- A run ends with a solution if no column is rejected, and then no component of the solution. -/
lemma ending_eq_ok_iff {system : Equations α n} {x : Vector α n} :
    (solver.run system).ending = .ok x ↔
      (solver.forward n 0 system).defect = none ∧
        backSubstitute (reached system (solver.forward n 0 system).steps) = x ∧
        ∀ i, solver.componentDefect? (reached system (solver.forward n 0 system).steps) x i = none := by
  have sound_iff (final : Equations α n) (x : Vector α n) :
      (List.finRange n).reverse.findSome? (solver.componentDefect? final x) = none ↔
        ∀ i, solver.componentDefect? final x i = none := by
    simp only [List.findSome?_eq_none_iff, List.mem_reverse, List.mem_finRange, true_imp_iff]
  rw [run_eq]
  dsimp only
  split
  case h_1 rejected =>
    rw [rejected]
    exact ⟨nofun, nofun⟩
  case h_2 accepted =>
    rw [accepted]
    split
    case h_1 defect =>
      refine ⟨nofun, ?_⟩
      rintro ⟨-, rfl, sound⟩
      cases defect.symm.trans ((sound_iff _ _).mpr sound)
    case h_2 sound =>
      refine ⟨?_, ?_⟩
      · intro e
        cases e
        exact ⟨rfl, rfl, (sound_iff _ _).mp sound⟩
      · rintro ⟨-, rfl, -⟩
        rfl

end Solver

namespace Run

variable {run : Run α n} {start : Equations α n}

/-- A run is solved exactly if it ends with unknowns. -/
lemma status_eq_solved_iff :
    (run.result start).status = .solved ↔ ∃ x, run.ending = .ok x := by
  unfold result
  cases run.ending with
  | ok x => exact ⟨fun _ => ⟨x, rfl⟩, fun _ => rfl⟩
  | error defect => exact ⟨nofun, nofun⟩

/-- A run is singular exactly if it ends at a defect. -/
lemma status_eq_singular_iff :
    (run.result start).status = .singular ↔ ∃ defect, run.ending = .error defect := by
  unfold result
  cases run.ending with
  | ok x => exact ⟨nofun, nofun⟩
  | error defect => exact ⟨fun _ => ⟨defect, rfl⟩, fun _ => rfl⟩

/-- Only a solved system has a solution, and only a solved system has residuals. -/
lemma status_eq_solved_iff_isSome :
    ((run.result start).status = .solved ↔ (run.result start).solution.isSome = true) ∧
      ((run.result start).status = .solved ↔ (run.result start).residuals.isSome = true) := by
  unfold result
  cases run.ending with
  | ok x => exact ⟨iff_of_true rfl rfl, iff_of_true rfl rfl⟩
  | error defect => exact ⟨iff_of_false nofun nofun, iff_of_false nofun nofun⟩

/-- A solved run has its unknowns as the solution. -/
lemma result_solution {x : Vector α n} (e : run.ending = .ok x) :
    (run.result start).solution = some x := by
  rw [result, e]

/-- The result has the trace of the run. -/
lemma result_trace (run : Run α n) (start : Equations α n) :
    (run.result start).trace = run.trace start := by
  unfold result
  cases run.ending <;> rfl

/-- The residuals of a solved run are those of its unknowns in the system at the start. -/
lemma result_residuals {x : Vector α n} (e : run.ending = .ok x) :
    (run.result start).residuals = some (residuals start x) := by
  rw [result, e]

end Run

end Stepwise.Linear
