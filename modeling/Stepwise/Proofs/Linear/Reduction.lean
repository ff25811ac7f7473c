import Stepwise.Proofs.Linear.Largest
import Stepwise.Proofs.Rational
import Mathlib.LinearAlgebra.Matrix.Block
import Mathlib.LinearAlgebra.Matrix.NonsingularInverse
import Mathlib.LinearAlgebra.Matrix.Swap
import Mathlib.LinearAlgebra.Matrix.Transvection

/-!
# Elimination in exact arithmetic

On rational numbers, every step of elimination combines the rows of a system in a way that can be undone,
and every column that is finished stays zero below the diagonal. So elimination ends with an equivalent
triangular system, or with an equivalent system at whose next column the entry on the diagonal is too
small. With pivoting, no entry further down in that column is larger.
-/

namespace Stepwise.Linear

open Equations

variable {n : ℕ}

namespace Equations

/-- The coefficients and the right sides of a system. -/
def augmented (system : Equations ℚ n) : Matrix (Fin n) (Fin (n + 1)) ℚ :=
  .of system.entry

/-- The rows of a system can be combined to those of another one, and the other way round. -/
def RowEquivalent (first second : Equations ℚ n) : Prop :=
  ∃ combination : Matrix (Fin n) (Fin n) ℚ,
    IsUnit combination ∧ second.augmented = combination * first.augmented

namespace RowEquivalent

variable {first second third : Equations ℚ n}

/-- A system is row equivalent to itself. -/
lemma refl (system : Equations ℚ n) : RowEquivalent system system :=
  ⟨1, isUnit_one, (Matrix.one_mul _).symm⟩

/-- Row combinations can be made one after the other. -/
lemma trans (h : RowEquivalent first second) (h' : RowEquivalent second third) :
    RowEquivalent first third := by
  obtain ⟨combination, unit, e⟩ := h
  obtain ⟨combination', unit', e'⟩ := h'
  exact ⟨combination' * combination, unit'.mul unit, by rw [e', e, Matrix.mul_assoc]⟩

/-- Exchanging two rows combines them. -/
lemma swap (system : Equations ℚ n) (i k : Fin n) :
    RowEquivalent system (system.swap i k i.isLt k.isLt) := by
  refine ⟨Matrix.swap ℚ i k, ?_, ?_⟩
  · exact ⟨Matrix.GeneralLinearGroup.swap ℚ i k, rfl⟩
  · ext r c
    change entry (system.swap i k) r c = _
    rw [swap_entry]
    by_cases left : r = i
    · rw [left, Equiv.swap_apply_left, Matrix.swap_mul_apply_left]
      rfl
    by_cases right : r = k
    · rw [right, Equiv.swap_apply_right, Matrix.swap_mul_apply_right]
      rfl
    rw [Equiv.swap_apply_of_ne_of_ne left right, Matrix.swap_mul_of_ne left right]
    rfl

/-- The subtraction of a row that is zero in the columns left out can be undone. -/
lemma subtractRow (system : Equations ℚ n) {i j : Fin n} (ne : i ≠ j) (factor : ℚ)
    (zero : ∀ c : Fin (n + 1), c.val < i.val → system.entry i c = 0) :
    RowEquivalent system (system.subtractRow i j factor) := by
  refine ⟨Matrix.transvection j i (-factor), ?_, ?_⟩
  · rw [Matrix.isUnit_iff_isUnit_det, Matrix.det_transvection_of_ne _ _ ne.symm]
    exact isUnit_one
  · ext r c
    change (system.subtractRow i j factor).entry r c = _
    by_cases e : r = j
    · rw [e, Matrix.transvection_mul_apply_same, subtractRow_entry]
      change _ = system.entry j c + -factor * system.entry i c
      by_cases le : i.val ≤ c.val
      · rw [if_pos ⟨rfl, le⟩]
        ring
      · rw [if_neg fun h => le h.2, zero c (not_le.mp le)]
        ring
    · rw [Matrix.transvection_mul_apply_of_ne _ _ _ _ e, subtractRow_entry_of_ne e]
      rfl

end RowEquivalent

/-- The columns before column `i` are finished: zero below the diagonal, and not too small on it. -/
structure Reduced (tolerance : ℚ) (i : ℕ) (system : Equations ℚ n) : Prop where
  below : ∀ k c : Fin n, c.val < i → c < k → system.coefficient k c = 0
  diagonal : ∀ c : Fin n, c.val < i → tolerance ≤ |system.coefficient c c|

namespace Reduced

variable {tolerance : ℚ} {i j : Fin n} {system : Equations ℚ n}

/-- At the beginning no column has to be finished. -/
lemma zero (tolerance : ℚ) (system : Equations ℚ n) : Reduced tolerance 0 system where
  below _ _ lt := absurd lt (Nat.not_lt_zero _)
  diagonal _ lt := absurd lt (Nat.not_lt_zero _)

/-- The row of a column has only zeros in the finished columns. -/
lemma entry_eq_zero (reduced : Reduced tolerance i system) (c : Fin (n + 1)) (lt : c.val < i.val) :
    system.entry i c = 0 :=
  reduced.below i ⟨c.val, lt.trans i.isLt⟩ lt lt

/-- Exchanging rows that are not finished keeps the finished columns. -/
lemma swap (reduced : Reduced tolerance i system) {k : Fin n} (le : i ≤ k) :
    Reduced tolerance i (system.swap i k i.isLt k.isLt) where
  below r c lt lt' := by
    rw [coefficient_eq_entry, swap_entry]
    by_cases left : r = i
    · rw [left, Equiv.swap_apply_left]
      exact reduced.below k c lt (lt_of_lt_of_le lt le)
    by_cases right : r = k
    · rw [right, Equiv.swap_apply_right]
      exact reduced.below i c lt lt
    rw [Equiv.swap_apply_of_ne_of_ne left right]
    exact reduced.below r c lt lt'
  diagonal c lt := by
    have left : c ≠ i := ne_of_lt lt
    have right : c ≠ k := ne_of_lt (lt_of_lt_of_le lt le)
    rw [coefficient_eq_entry, swap_entry, Equiv.swap_apply_of_ne_of_ne left right]
    exact reduced.diagonal c lt

/-- A subtraction leaves the finished columns as they are. -/
lemma subtractRow (reduced : Reduced tolerance i system) (factor : ℚ) :
    Reduced tolerance i (system.subtractRow i j factor) where
  below r c lt lt' := by
    rw [coefficient_eq_entry, subtractRow_entry, if_neg fun h => not_le.mpr lt h.2]
    exact reduced.below r c lt lt'
  diagonal c lt := by
    rw [coefficient_eq_entry, subtractRow_entry, if_neg fun h => not_le.mpr lt h.2]
    exact reduced.diagonal c lt

end Reduced

/-- What is left when column `i` has been cleared in some rows. -/
structure Clears (tolerance : ℚ) (i : Fin n) (rows : List (Fin n)) (system result : Equations ℚ n) :
    Prop where
  rowEquivalent : RowEquivalent system result
  reduced : Reduced tolerance i result
  row : ∀ c, result.entry i c = system.entry i c
  column : ∀ j, j ≠ i → j ∈ rows ∨ system.coefficient j i = 0 → result.coefficient j i = 0

/-- A column is cleared row by row. A row that is zero there stays so. -/
lemma clears_cleared {tolerance : ℚ} {i : Fin n} {rows : List (Fin n)} (below : ∀ j ∈ rows, i < j)
    {system : Equations ℚ n} (reduced : Reduced tolerance i system)
    (ne : system.coefficient i i ≠ 0) :
    Clears tolerance i rows system (cleared i rows system) := by
  -- Row `i` itself never changes, so its entry on the diagonal can be divided by all the way.
  induction rows generalizing system with
  | nil =>
    rw [cleared_nil]
    refine ⟨.refl system, reduced, fun _ => rfl, ?_⟩
    rintro j - (mem | zero)
    · cases mem
    · exact zero
  | cons j later ih =>
    rw [cleared_cons]
    set factor := system.coefficient j i / system.coefficient i i with factor_eq
    have lt : i < j := below j (List.mem_cons_self ..)
    have row (c) : (system.subtractRow i j factor).entry i c = system.entry i c :=
      subtractRow_entry_of_ne (ne_of_lt lt) c
    have clear : (system.subtractRow i j factor).coefficient j i = 0 := by
      rw [coefficient_eq_entry, subtractRow_entry, if_pos ⟨rfl, le_refl _⟩, factor_eq]
      exact sub_eq_zero_of_eq (div_mul_cancel₀ _ ne).symm
    have rest := ih (fun k mem => below k (List.mem_cons_of_mem j mem))
      (reduced.subtractRow factor) (ne_of_eq_of_ne (row i.castSucc) ne)
    refine ⟨?_, rest.reduced, fun c => (rest.row c).trans (row c), ?_⟩
    · exact (RowEquivalent.subtractRow system (ne_of_lt lt) factor reduced.entry_eq_zero).trans
        rest.rowEquivalent
    · intro k ne' h
      refine rest.column k ne' ?_
      by_cases e : k = j
      · exact .inr (e ▸ clear)
      rcases h with mem | zero
      · exact .inl (List.mem_of_ne_of_mem e mem)
      · have same : (system.subtractRow i j factor).entry k i.castSucc = _ :=
          subtractRow_entry_of_ne e i.castSucc
        exact .inr (same.trans zero)

end Equations

/-- No entry from the diagonal down is larger than the one of the pivot row. -/
lemma Equations.le_entry_pivotRow (system : Equations ℚ n) {i k : Fin n} (le : i ≤ k) :
    |system.coefficient k i| ≤ |system.coefficient (system.pivotRow i) i| := by
  have found : FirstLargest (fun k => Arithmetic.magnitude (system.coefficient k i)) i (system.pivotRow i) :=
    firstLargest_pivotRow fun _ _ _ _ => Iff.rfl
  rw [← Rational.magnitude_eq_abs, ← Rational.magnitude_eq_abs]
  exact found.largest k le

namespace Solver

variable {solver : Solver ℚ} {system : Equations ℚ n} {i : Fin n}

/-- In exact arithmetic everything is finite, so a pivot is refused only if it is too small. -/
lemma pivotDefect?_eq (solver : Solver ℚ) (system : Equations ℚ n) (i : Fin n) :
    solver.pivotDefect? system i =
      if |system.coefficient i i| < solver.pivotTolerance then
        some (.smallPivot i (system.coefficient i i))
      else none := by
  rw [pivotDefect?, Rational.magnitude_eq_abs]
  rfl

/-- A swap before a column combines the rows in a way that can be undone, and keeps what is finished. -/
lemma pivoted_spec (reduced : Reduced solver.pivotTolerance i system) :
    RowEquivalent system (solver.pivoted system i) ∧
      Reduced solver.pivotTolerance i (solver.pivoted system i) := by
  cases on : solver.pivoting with
  | false =>
    rw [pivoted_eq_self on]
    exact ⟨.refl system, reduced⟩
  | true =>
    rw [pivoted_eq_swap on]
    exact ⟨.swap system _ _, reduced.swap (le_pivotRow system i)⟩

/-- With pivoting, no entry below the diagonal is larger than the one on it. -/
lemma le_pivot (on : solver.pivoting = true) (system : Equations ℚ n) {k : Fin n} (le : i ≤ k) :
    |(solver.pivoted system i).coefficient k i| ≤ |(solver.pivoted system i).coefficient i i| := by
  obtain ⟨k', le', moved⟩ := @exists_pivoted_coefficient _ _ _ _ system _ on _ le
  rw [moved, pivoted_pivot on]
  exact le_entry_pivotRow system le'

/-- After an accepted entry on the diagonal, one more column is finished. -/
lemma next_spec (pos : 0 < solver.pivotTolerance) (reduced : Reduced solver.pivotTolerance i system)
    (accepted : solver.pivotTolerance ≤ |(solver.pivoted system i).coefficient i i|) :
    RowEquivalent system (solver.next system i) ∧
      Reduced solver.pivotTolerance (i + 1) (solver.next system i) := by
  obtain ⟨equivalent, reduced'⟩ := pivoted_spec reduced
  have clears : Clears solver.pivotTolerance i (rowsBelow i) (solver.pivoted system i)
      (solver.next system i) :=
    clears_cleared (fun _ => mem_rowsBelow.mp) reduced' (abs_pos.mp (pos.trans_le accepted))
  refine ⟨equivalent.trans clears.rowEquivalent, ?_, ?_⟩
  · intro k c lt lt'
    rcases Nat.lt_succ_iff_lt_or_eq.mp lt with before | e
    · exact clears.reduced.below k c before lt'
    · obtain rfl : c = i := Fin.ext e
      exact clears.column k (ne_of_gt lt') (.inl (mem_rowsBelow.mpr lt'))
  · intro c lt
    rcases Nat.lt_succ_iff_lt_or_eq.mp lt with before | e
    · exact clears.reduced.diagonal c before
    · obtain rfl : c = i := Fin.ext e
      rw [coefficient_eq_entry, clears.row]
      exact accepted

/-- How elimination ends: with a triangular system, or at a column whose entry on the diagonal is too
small. -/
inductive Eliminated (solver : Solver ℚ) (final : Equations ℚ n) : Option (Singularity ℚ) → Prop where
  | reduced (reduced : Reduced solver.pivotTolerance n final) : Eliminated solver final none
  | rejected (i : Fin n) (small : |final.coefficient i i| < solver.pivotTolerance)
      (column : solver.pivoting = true →
        ∀ k, i ≤ k → |final.coefficient k i| < solver.pivotTolerance) :
      Eliminated solver final (some (.smallPivot i (final.coefficient i i)))

/-- Elimination reaches an equivalent system. -/
lemma forward_spec (pos : 0 < solver.pivotTolerance) {count i : ℕ} (e : i + count = n)
    {system : Equations ℚ n} (reduced : Reduced solver.pivotTolerance i system) :
    RowEquivalent system (reached system (solver.forward count i system).steps) ∧
      Eliminated solver (reached system (solver.forward count i system).steps)
        (solver.forward count i system).defect := by
  -- On the columns that are left: each one that is accepted is one more that is finished.
  induction count generalizing i system with
  | zero =>
    obtain rfl : i = n := e
    exact ⟨.refl system, .reduced reduced⟩
  | succ count ih =>
    obtain ⟨i, rfl⟩ : ∃ i' : Fin n, i'.val = i := ⟨⟨i, by omega⟩, rfl⟩
    have defect := pivotDefect?_eq solver (solver.pivoted system i) i
    by_cases small : |(solver.pivoted system i).coefficient i i| < solver.pivotTolerance
    · rw [if_pos small] at defect
      rw [forward_of_rejected defect]
      refine ⟨(pivoted_spec reduced).1, .rejected i small fun on k le => ?_⟩
      exact lt_of_le_of_lt (le_pivot on system le) small
    · rw [if_neg small] at defect
      obtain ⟨defect_eq, reached_eq⟩ := forward_of_accepted defect count
      obtain ⟨equivalent, reduced'⟩ := next_spec pos reduced (not_lt.mp small)
      obtain ⟨equivalent', eliminated⟩ := ih (by omega) reduced'
      rw [defect_eq, reached_eq]
      exact ⟨equivalent.trans equivalent', eliminated⟩

end Solver

end Stepwise.Linear
