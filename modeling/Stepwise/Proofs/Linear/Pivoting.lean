import Stepwise.Proofs.Double.Magnitude
import Stepwise.Proofs.Linear.Columns
import Stepwise.Proofs.Linear.Largest

/-!
# Partial pivoting

Where all entries from the diagonal down are numbers, the row that is brought to the diagonal is the first
one whose entry is largest in magnitude. It trades places with the row on the diagonal, and no other row
moves. So no entry below the diagonal is larger than the pivot, and the factors by which the row of the
pivot is multiplied to clear the column are at most one in magnitude, rounding included.
-/

namespace Stepwise.Linear

open Equations

variable {α : Type} {n : ℕ} [Arithmetic α]

/-- The factors by which a column is cleared are those of the column as it is at the start. -/
lemma clearSteps_changes {i : Fin n} {rows : List (Fin n)} {system : Equations α n} (apart : i ∉ rows)
    (nodup : rows.Nodup) :
    (clearSteps i rows system).map RowStep.change =
      rows.map fun j => .eliminated i j (system.coefficient j i / system.coefficient i i) := by
  induction rows generalizing system with
  | nil => rfl
  | cons j later ih =>
    rw [List.mem_cons, not_or] at apart
    obtain ⟨fresh, nodup⟩ := List.nodup_cons.mp nodup
    -- the first subtraction changes row `j` only, which is neither row `i` nor one of the later rows
    have kept {r : Fin n} (ne : r ≠ j) (factor : α) :
        (system.subtractRow i j factor).coefficient r i = system.coefficient r i :=
      congrArg (Vector.get · i.castSucc) (subtractRow_get_of_ne ne)
    rw [clearSteps_cons, List.map_cons, List.map_cons, ih apart.2 nodup]
    refine congrArg (List.cons _) (List.map_congr_left fun j' mem => ?_)
    rw [kept apart.1, kept fun e => fresh (e ▸ mem)]

namespace Solver

variable {solver : Solver Float} {start system : Equations Float n} {i : Fin n}

/-- Among entries that are numbers, the pivot row is the first one with the largest. -/
lemma firstLargest_size (numbers : ∀ k, i ≤ k → (system.coefficient k i).isNaN = false) :
    FirstLargest (fun k => Double.size (system.coefficient k i)) i (system.pivotRow i) :=
  firstLargest_pivotRow fun _ k _ le => Double.abs_lt_abs_iff (numbers k le)

/-- With pivoting, no factor by which a column of numbers is cleared is larger than one in magnitude, if the
pivot is finite and not zero. -/
lemma abs_factor_le_one (on : solver.pivoting = true)
    (numbers : ∀ k, i ≤ k → (system.coefficient k i).isNaN = false)
    (finite : ((solver.pivoted system i).coefficient i i).isFinite = true)
    (nonzero : ((solver.pivoted system i).coefficient i i == 0.0) = false) {j : Fin n} (le : i ≤ j) :
    ((solver.pivoted system i).coefficient j i / (solver.pivoted system i).coefficient i i).abs ≤ 1.0 := by
  obtain ⟨k, le', moved⟩ : ∃ k, i ≤ k ∧
      (solver.pivoted system i).coefficient j i = system.coefficient k i := exists_pivoted_coefficient on le
  have largest : Double.size (system.coefficient k i) ≤
      Double.size (system.coefficient (system.pivotRow i) i) := (firstLargest_size numbers).largest k le'
  rw [← moved, ← pivoted_pivot on] at largest
  obtain ⟨finite', le''⟩ := Double.finite_of_size_le finite largest
  exact Double.abs_div_le_one finite' finite nonzero le''

/-- With pivoting, at every column that an elimination arrives at and whose entries from the diagonal down
are numbers: the row that is brought to the diagonal is the first of those with the largest entry. It trades
places with the row on the diagonal, and no other row moves. If the entry on the diagonal is then accepted
and not zero, the column is cleared row by row from there down, and no factor by which the row on the
diagonal is multiplied is larger than one in magnitude. -/
theorem pivoting_picks_firstLargest (on : solver.pivoting = true) (arrives : solver.Arrives start i system)
    (numbers : ∀ k, i ≤ k → (system.coefficient k i).isNaN = false) :
    ∃ p earlier later,
      (solver.run start).steps = earlier ++ solver.swaps system i ++ later ∧
      reached start earlier = system ∧
      (i ≤ p ∧ (∀ k, i ≤ k → (system.coefficient k i).abs ≤ (system.coefficient p i).abs) ∧
        ∀ k, i ≤ k → k < p → (system.coefficient k i).abs < (system.coefficient p i).abs) ∧
      let pivoted := reached system (solver.swaps system i)
      let pivot := pivoted.coefficient i i
      (pivoted.get i = system.get p ∧ pivoted.get p = system.get i ∧
        ∀ r, r ≠ i → r ≠ p → pivoted.get r = system.get r) ∧
      (solver.pivotDefect? pivoted i = none → (pivot == 0.0) = false →
        ∃ clears rest, later = clears ++ rest ∧
          clears.map RowStep.change =
            (rowsBelow i).map (fun j => .eliminated i j (pivoted.coefficient j i / pivot)) ∧
          ∀ j, i < j → (pivoted.coefficient j i / pivot).abs ≤ 1.0) := by
  obtain ⟨earlier, later, steps, reached_eq, continued⟩ := arrives.steps_eq
  have found := firstLargest_size numbers
  refine ⟨system.pivotRow i, earlier, later, steps, reached_eq, ⟨found.le, fun k le => ?_, fun k le lt => ?_⟩,
    pivoted_exchanged on system i, fun accepted nonzero => ?_⟩
  · exact Double.abs_le_abs (numbers k le) (numbers _ found.le) (found.largest k le)
  · exact (Double.abs_lt_abs_iff (numbers _ found.le)).mpr (found.first k le lt)
  · obtain ⟨count, rfl⟩ := continued accepted
    obtain ⟨finite, -⟩ := pivotDefect?_eq_none_iff.mp accepted
    have apart : i ∉ rowsBelow i := fun mem => lt_irrefl i (mem_rowsBelow.mp mem)
    refine ⟨_, _, rfl, clearSteps_changes apart ((List.nodup_finRange n).filter _), fun j lt => ?_⟩
    exact abs_factor_le_one on numbers finite nonzero lt.le

/-- Three equations whose first column has its largest magnitude twice, with different signs. -/
def tied : Equations Float 3 :=
  #v[#v[1, 0, 0, 1], #v[-2, 1, 0, 1], #v[2, 0, 1, 1]]

/-- Of the tied equations, the second one is brought to the top, and the factor for the third one is exactly
one in magnitude. -/
theorem pivoting_picks_firstLargest_tied :
    let pivoted := reached tied (lenient.swaps tied 0)
    lenient.pivoting = true ∧ lenient.Arrives tied (0 : Fin 3) tied ∧
      (∀ k, 0 ≤ k → (tied.coefficient k 0).isNaN = false) ∧
      lenient.pivotDefect? pivoted 0 = none ∧ (pivoted.coefficient 0 0 == 0.0) = false ∧
      pivoted.get 0 = tied.get 1 ∧ pivoted.get 1 = tied.get 0 ∧
      (pivoted.coefficient 2 0 / pivoted.coefficient 0 0).abs ≤ 1.0 := by
  have numbers : ∀ k : Fin 3, 0 ≤ k → (tied.coefficient k 0).isNaN = false := by decide +kernel
  have accepted : lenient.pivotDefect? (reached tied (lenient.swaps tied 0)) 0 = none := by decide +kernel
  have nonzero : ((reached tied (lenient.swaps tied 0)).coefficient 0 0 == 0.0) = false := by decide +kernel
  have smaller : ¬ (tied.coefficient 1 0).abs ≤ (tied.coefficient 0 0).abs := by decide +kernel
  have equal : ¬ (tied.coefficient 1 0).abs < (tied.coefficient 2 0).abs := by decide +kernel
  obtain ⟨p, earlier, later, -, -, ⟨-, largest, first⟩, ⟨top, second, -⟩, cleared⟩ :=
    pivoting_picks_firstLargest (i := (0 : Fin 3)) (rfl : lenient.pivoting = true) .start numbers
  obtain rfl : p = 1 := by
    fin_cases p
    · exact absurd (largest 1 (Fin.zero_le 1)) smaller
    · rfl
    · exact absurd (first 1 (Fin.zero_le 1) (by decide)) equal
  obtain ⟨_, _, -, -, factors⟩ := cleared accepted nonzero
  exact ⟨rfl, .start, numbers, accepted, nonzero, top, second, factors 2 (by decide)⟩

end Solver

end Stepwise.Linear
