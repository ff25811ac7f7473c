import Stepwise.Proofs.Linear.Steps
import Mathlib.Data.List.Sort

/-!
# The pivot row

Partial pivoting looks for the row whose entry is largest in magnitude, from the upper rows to the lower
ones, and changes its choice only for a larger entry. So it ends at the first one of the largest, whatever
order of sizes the comparison of magnitudes stands for.
-/

namespace Stepwise.Linear

variable {α : Type} {n : ℕ} [Arithmetic α]

namespace Equations

section Search

variable {β : Type} [LinearOrder β] {size : Fin n → β}

/-- The first of the largest from `i` on: none is larger, and those before it are smaller. -/
structure FirstLargest (size : Fin n → β) (i p : Fin n) : Prop where
  le : i ≤ p
  largest : ∀ k, i ≤ k → size k ≤ size p
  first : ∀ k, i ≤ k → k < p → size k < size p

/-- A search that goes on to what is larger ends at the first of the largest. -/
lemma foldl_firstLargest {smaller : Fin n → Fin n → Prop}
    [DecidableRel smaller] {first : Fin n} {others : List (Fin n)}
    (sorted : (first :: others).Pairwise (· < ·))
    (compares : ∀ b ∈ first :: others, ∀ k ∈ first :: others, (smaller b k ↔ size b < size k)) :
    let found := others.foldl (fun best k => if smaller best k then k else best) first
    ∀ k ∈ first :: others, size k ≤ size found ∧ (k < found → size k < size found) := by
  induction others generalizing first with
  | nil =>
    intro found k mem
    obtain rfl := List.mem_singleton.mp mem
    exact ⟨le_rfl, fun lt => absurd lt (lt_irrefl _)⟩
  | cons next others ih =>
    obtain ⟨before, sorted'⟩ := List.pairwise_cons.mp sorted
    have before_next : first < next := before next List.mem_cons_self
    have smaller_iff := compares first List.mem_cons_self next (List.mem_cons_of_mem _ List.mem_cons_self)
    intro found
    -- The next one takes over or is dropped. Dropped, it is at most as large as the first one, which stays
    -- in front of it.
    by_cases larger : size first < size next
    · have found_eq : found = others.foldl (fun best k => if smaller best k then k else best) next :=
        congrArg (others.foldl _) (if_pos (smaller_iff.mpr larger))
      have later := ih sorted' fun b mem k mem' =>
        compares b (List.mem_cons_of_mem _ mem) k (List.mem_cons_of_mem _ mem')
      rw [← found_eq] at later
      have below := lt_of_lt_of_le larger (later next List.mem_cons_self).1
      exact List.forall_mem_cons.mpr ⟨⟨below.le, fun _ => below⟩, later⟩
    · have found_eq : found = others.foldl (fun best k => if smaller best k then k else best) first :=
        congrArg (others.foldl _) (if_neg (mt smaller_iff.mp larger))
      have sublist : (first :: others).Sublist (first :: next :: others) :=
        (List.sublist_cons_self next others).cons_cons first
      have later := ih (sorted.sublist sublist) fun b mem k mem' =>
        compares b (sublist.subset mem) k (sublist.subset mem')
      rw [← found_eq] at later
      obtain ⟨le, lt⟩ := later first List.mem_cons_self
      have next_le : size next ≤ size first := not_lt.mp larger
      refine List.forall_mem_cons.mpr ⟨⟨le, lt⟩, List.forall_mem_cons.mpr ⟨⟨next_le.trans le, ?_⟩, ?_⟩⟩
      · exact fun before_found => next_le.trans_lt (lt (before_next.trans before_found))
      · exact fun k mem => later k (List.mem_cons_of_mem _ mem)

/-- The rows from the diagonal down are visited in their order. -/
lemma sorted_rowsBelow (i : Fin n) : (i :: rowsBelow i).Pairwise (· < ·) :=
  List.pairwise_cons.mpr ⟨fun _ => mem_rowsBelow.mp, (List.sortedLT_finRange n).pairwise.filter _⟩

/-- The pivot row is the first one with the largest entry, as far as magnitudes are compared like sizes. -/
lemma firstLargest_pivotRow {system : Equations α n} {i : Fin n}
    (compares : ∀ b k, i ≤ b → i ≤ k →
      (Arithmetic.magnitude (system.coefficient b i) < Arithmetic.magnitude (system.coefficient k i) ↔
        size b < size k)) :
    FirstLargest size i (system.pivotRow i) := by
  have mem_iff (k : Fin n) : k ∈ i :: rowsBelow i ↔ i ≤ k := by
    rw [List.mem_cons, mem_rowsBelow, eq_comm, le_iff_eq_or_lt]
  have found := foldl_firstLargest (sorted_rowsBelow i) fun b mem k mem' =>
    compares b k ((mem_iff b).mp mem) ((mem_iff k).mp mem')
  exact ⟨le_pivotRow system i, fun k le => (found k ((mem_iff k).mpr le)).1,
    fun k le => (found k ((mem_iff k).mpr le)).2⟩

end Search

end Equations

namespace Solver

variable {solver : Solver α} {system : Equations α n} {i : Fin n}

/-- Pivoting exchanges the row of the diagonal and the row of the pivot, and no others. -/
lemma pivoted_get_swap (on : solver.pivoting = true) (r : Fin n) :
    (solver.pivoted system i).get r = system.get (Equiv.swap i (system.pivotRow i) r) := by
  rw [pivoted_eq_swap on]
  exact Equations.swap_get ..

/-- With pivoting, the row on the diagonal and the pivot row trade places, and no other row moves. -/
lemma pivoted_exchanged (on : solver.pivoting = true) (system : Equations α n) (i : Fin n) :
    (solver.pivoted system i).get i = system.get (system.pivotRow i) ∧
      (solver.pivoted system i).get (system.pivotRow i) = system.get i ∧
      ∀ r, r ≠ i → r ≠ system.pivotRow i → (solver.pivoted system i).get r = system.get r := by
  refine ⟨?_, ?_, fun r ne ne' => ?_⟩
  · rw [pivoted_get_swap on, Equiv.swap_apply_left]
  · rw [pivoted_get_swap on, Equiv.swap_apply_right]
  · rw [pivoted_get_swap on, Equiv.swap_apply_of_ne_of_ne ne ne']

/-- Pivoting brings the entry of the pivot row onto the diagonal. -/
lemma pivoted_pivot (on : solver.pivoting = true) :
    (solver.pivoted system i).coefficient i i = system.coefficient (system.pivotRow i) i :=
  congrArg (Vector.get · i.castSucc) (pivoted_exchanged on system i).1

/-- The entries from the diagonal down are the same before and after the exchange, in another order. -/
lemma exists_pivoted_coefficient (on : solver.pivoting = true) {k : Fin n} (le : i ≤ k) :
    ∃ k', i ≤ k' ∧ (solver.pivoted system i).coefficient k i = system.coefficient k' i := by
  refine ⟨Equiv.swap i (system.pivotRow i) k, ?_, congrArg (Vector.get · i.castSucc) (pivoted_get_swap on k)⟩
  rw [Equiv.swap_apply_def]
  split_ifs
  · exact Equations.le_pivotRow system i
  · exact le_rfl
  · exact le

end Solver

end Stepwise.Linear
