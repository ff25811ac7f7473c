import Stepwise.Proofs.Linear.Steps
import Mathlib.Data.Nat.Choose.Basic
import Mathlib.Order.Interval.Finset.Fin

/-!
# Moves of an elimination

The steps of an elimination are moves of two kinds, each made from the system that the move before it
leaves: two rows trade places, or a multiple of a row is subtracted from a row below it. No run makes
more moves than one exchange for each row but the last and one subtraction for each pair of rows.
-/

namespace Stepwise.Linear

open Equations

variable {α : Type} {n : ℕ} [Arithmetic α]

/-- A row that is brought to the diagonal comes from below it. -/
lemma Equations.lt_pivotRow {system : Equations α n} {i : Fin n} (ne : system.pivotRow i ≠ i) :
    i < system.pivotRow i :=
  lt_of_le_of_ne (le_pivotRow system i) ne.symm

namespace Solver

/-- What a solver may do with a system: exchange a row and one below it, if it uses pivoting, or subtract
from row `j` a multiple of row `i` above it, the multiple being the quotient of their entries in column
`i`. -/
inductive Moves (solver : Solver α) (system : Equations α n) : RowStep α n → Prop where
  | swap {i k : Fin n} (pivoting : solver.pivoting = true) (below : i < k) :
      Moves solver system
        { change := .swapped i k, system := system.swap i k i.isLt k.isLt }
  | clear {i j : Fin n} (below : i < j) :
      Moves solver system
        { change := .eliminated i j (system.coefficient j i / system.coefficient i i)
          system := system.subtractRow i j (system.coefficient j i / system.coefficient i i) }

/-- Steps that are moves, each of them made where the one before it ends. -/
inductive Moved (solver : Solver α) : Equations α n → List (RowStep α n) → Prop where
  | nil {system : Equations α n} : Moved solver system []
  | cons {system : Equations α n} {step : RowStep α n} {later : List (RowStep α n)}
      (first : solver.Moves system step) (rest : Moved solver step.system later) :
      Moved solver system (step :: later)

namespace Moved

variable {solver : Solver α} {system : Equations α n} {steps later : List (RowStep α n)}

/-- Moves can be continued where they end. -/
lemma append (moved : solver.Moved system steps)
    (moved' : solver.Moved (reached system steps) later) : solver.Moved system (steps ++ later) := by
  induction moved with
  | nil => exact moved'
  | cons first _ ih =>
    rw [reached_cons] at moved'
    exact .cons first (ih moved')

/-- The first of some moves are moves. -/
lemma take (moved : solver.Moved system steps) (k : ℕ) : solver.Moved system (steps.take k) := by
  induction moved generalizing k with
  | nil =>
    rw [List.take_nil]
    exact .nil
  | cons first _ ih =>
    cases k with
    | zero => exact .nil
    | succ k => exact .cons first (ih k)

end Moved

variable {solver : Solver α} {system : Equations α n} {i : Fin n}

/-- The swap before a column is a move. -/
lemma moved_swaps : solver.Moved system (solver.swaps system i) := by
  unfold swaps pivotSteps
  dsimp only
  split
  case isTrue pivoting =>
    split
    case isTrue => exact .nil
    case isFalse ne => exact .cons (.swap pivoting (lt_pivotRow ne)) .nil
  case isFalse => exact .nil

/-- Clearing the entries of a column below the diagonal is a sequence of moves. -/
lemma moved_clearSteps {rows : List (Fin n)} (below : ∀ j ∈ rows, i < j) :
    solver.Moved system (clearSteps i rows system) := by
  induction rows generalizing system with
  | nil => exact .nil
  | cons j later ih =>
    obtain ⟨below, later_below⟩ := List.forall_mem_cons.mp below
    exact .cons (.clear below) (ih later_below)

/-- The steps at a column whose entry on the diagonal is accepted. -/
lemma moved_column :
    solver.Moved system
      (solver.swaps system i ++ clearSteps i (rowsBelow i) (solver.pivoted system i)) :=
  moved_swaps.append (moved_clearSteps fun _ => mem_rowsBelow.mp)

/-- The moves of a column end in the system with which elimination goes on. -/
lemma reached_column :
    reached system
        (solver.swaps system i ++ clearSteps i (rowsBelow i) (solver.pivoted system i)) =
      solver.next system i :=
  reached_append ..

/-- All steps of an elimination are moves. -/
lemma moved_forward {count i : ℕ} {system : Equations α n} :
    solver.Moved system (solver.forward count i system).steps := by
  induction count generalizing i system with
  | zero => exact .nil
  | succ count ih =>
    rcases Nat.lt_or_ge i n with lt | ge
    · obtain ⟨i, rfl⟩ : ∃ i' : Fin n, i'.val = i := ⟨⟨i, lt⟩, rfl⟩
      rw [forward_succ]
      split
      case h_1 => exact moved_swaps
      case h_2 =>
        refine moved_column.append ?_
        rw [reached_column]
        exact ih
    · rw [forward_of_ge solver ge]
      exact .nil

/-- A run makes one move after the other. -/
lemma moved_run (solver : Solver α) (system : Equations α n) :
    solver.Moved system (solver.run system).steps := by
  rw [run_steps]
  exact moved_forward

section Count

/-- Clearing takes one step for each row. -/
lemma length_clearSteps (rows : List (Fin n)) (system : Equations α n) :
    (clearSteps i rows system).length = rows.length := by
  induction rows generalizing system with
  | nil => rfl
  | cons j later ih => exact congrArg Nat.succ (ih _)

omit [Arithmetic α] in
/-- Below the diagonal of a column there are the rows behind it. -/
lemma length_rowsBelow (i : Fin n) : (rowsBelow i).length = n - 1 - i := by
  have nodup : (rowsBelow i).Nodup := (List.nodup_finRange n).filter _
  have below : (rowsBelow i).toFinset = Finset.Ioi i := by
    ext j
    rw [List.mem_toFinset, mem_rowsBelow, Finset.mem_Ioi]
  rw [← List.toFinset_card_of_nodup nodup, below, Fin.card_Ioi]

/-- There is at most one exchange for a column, and none for the last one. -/
lemma length_swaps_le {count : ℕ} (e : i.val + (count + 1) = n) :
    (solver.swaps system i).length ≤ min 1 count := by
  unfold swaps pivotSteps
  dsimp only
  split
  case isTrue =>
    split
    case isTrue => exact Nat.zero_le _
    case isFalse ne =>
      have below : i.val < (system.pivotRow i).val := lt_pivotRow ne
      have bound : (system.pivotRow i).val < n := (system.pivotRow i).isLt
      rw [List.length_singleton]
      omega
  case isFalse => exact Nat.zero_le _

/-- A run makes at most one exchange for each row but the last, and one subtraction for each two rows. -/
lemma length_forward_le {count i : ℕ} (e : i + count = n) {system : Equations α n} :
    (solver.forward count i system).steps.length ≤ (count - 1) + count * (count - 1) / 2 := by
  induction count generalizing i system with
  | zero => exact Nat.le_refl 0
  | succ count ih =>
    obtain ⟨i, rfl⟩ : ∃ i' : Fin n, i'.val = i := ⟨⟨i, by omega⟩, rfl⟩
    have swaps : (solver.swaps system i).length ≤ min 1 count := length_swaps_le e
    rw [Nat.triangle_succ, forward_succ]
    split
    case h_1 => exact swaps.trans (by omega)
    case h_2 =>
      -- `count` subtractions at this column, which the bound for the later columns does not have
      have later := @ih (i + 1) (by omega) (solver.next system i)
      simp only [List.length_append, length_clearSteps, length_rowsBelow]
      omega

end Count

end Solver

end Stepwise.Linear
