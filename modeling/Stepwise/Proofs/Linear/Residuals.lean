import Stepwise.Proofs.Double.Special
import Stepwise.Proofs.Linear.Steps
import Stepwise.Proofs.Linear.Watching
import Stepwise.Proofs.Outcome

/-!
# Residuals in doubles

The entries of a system and the components of a solution are finite, but their products may overflow.
So a residual of a solved system is not negative, or it is not a number, and it is not a number exactly if
products that overflow to infinities of different signs meet in its equation.
-/

namespace Stepwise.Linear

open Double (Clash)

/-- At some unknown, the product and the sum of the products before it are infinities of different
signs. -/
def Overflows (coefficients values : List Float) : Prop :=
  ∃ k a x, coefficients[k]? = some a ∧ values[k]? = some x ∧
    Clash (a * x) (leftSide (coefficients.take k) (values.take k))

/-- The left side of an equation adds its last product last. -/
lemma leftSide_concat {α : Type} [Arithmetic α] {coefficients values : List α}
    (same : coefficients.length = values.length) (ne : coefficients ≠ []) (a x : α) :
    leftSide (coefficients ++ [a]) (values ++ [x]) = a * x + leftSide coefficients values := by
  cases coefficients with
  | nil => exact absurd rfl ne
  | cons b coefficients =>
    cases values with
    | nil => cases same
    | cons y values =>
      simp only [leftSide, List.cons_append, List.zip_cons_cons,
        List.zip_append (Nat.succ.inj same), List.foldl_append]
      rfl

/-- No products means no overflow. -/
lemma not_overflows_nil (values : List Float) : ¬ Overflows [] values :=
  fun ⟨_, _, _, nothing, _⟩ => nomatch nothing

/-- Something overflows at the last unknown or before it. -/
lemma overflows_concat_iff {coefficients values : List Float}
    (same : coefficients.length = values.length) (a x : Float) :
    Overflows (coefficients ++ [a]) (values ++ [x]) ↔
      Overflows coefficients values ∨ Clash (a * x) (leftSide coefficients values) := by
  constructor
  · rintro ⟨k, b, y, eb, ey, clash⟩
    -- The overflow is among the products before, or at the last one.
    rcases Nat.lt_or_ge k coefficients.length with before | behind
    · have before_le := Nat.le_of_lt before
      rw [List.getElem?_append_left before] at eb
      rw [List.getElem?_append_left (same ▸ before)] at ey
      rw [List.take_append_of_le_length before_le,
        List.take_append_of_le_length (same ▸ before_le)] at clash
      exact .inl ⟨k, b, y, eb, ey, clash⟩
    · have last : k < (coefficients ++ [a]).length := (List.getElem?_eq_some_iff.mp eb).1
      rw [List.length_append, List.length_singleton] at last
      obtain rfl : k = coefficients.length := by omega
      rw [List.getElem?_concat_length] at eb
      rw [same, List.getElem?_concat_length] at ey
      rw [List.take_left, same, List.take_left] at clash
      cases eb
      cases ey
      exact .inr clash
  · rintro (⟨k, b, y, eb, ey, clash⟩ | clash)
    · have before : k < coefficients.length := (List.getElem?_eq_some_iff.mp eb).1
      have before_le := Nat.le_of_lt before
      refine ⟨k, b, y, ?_, ?_, ?_⟩
      · rw [List.getElem?_append_left before, eb]
      · rw [List.getElem?_append_left (same ▸ before), ey]
      · rw [List.take_append_of_le_length before_le,
          List.take_append_of_le_length (same ▸ before_le)]
        exact clash
    · refine ⟨coefficients.length, a, x, List.getElem?_concat_length, ?_, ?_⟩
      · rw [same, List.getElem?_concat_length]
      · rw [List.take_left, same, List.take_left]
        exact clash

/-- A sum of products of finite doubles is not a number exactly if something overflows in it. -/
lemma isNaN_leftSide_iff {coefficients values : List Float}
    (same : coefficients.length = values.length)
    (finite : ∀ a ∈ coefficients, a.isFinite = true) (finite' : ∀ x ∈ values, x.isFinite = true) :
    (leftSide coefficients values).isNaN = true ↔ Overflows coefficients values := by
  induction coefficients using List.reverseRecOn generalizing values with
  | nil => exact iff_of_false (show ¬ (0.0 : Float).isNaN = true by decide) (not_overflows_nil values)
  | append_singleton coefficients a ih =>
    rcases List.eq_nil_or_concat values with rfl | ⟨values, x, rfl⟩
    · rw [List.length_append] at same
      cases same
    rw [List.concat_eq_append] at *
    have same' : coefficients.length = values.length := by
      rw [List.length_append, List.length_append] at same
      exact Nat.succ.inj same
    have product : (a * x).isNaN = false :=
      Double.isNaN_mul (finite a (by simp)) (finite' x (by simp))
    rw [overflows_concat_iff same']
    by_cases ne : coefficients = []
    case pos =>
      -- The first product is not added to anything, and zero is not infinite.
      subst ne
      obtain rfl : values = [] := List.eq_nil_of_length_eq_zero same'.symm
      refine iff_of_false ?_ (not_or.mpr ⟨not_overflows_nil [], fun clash => nomatch clash.2.1⟩)
      rw [Bool.not_eq_true]
      exact product
    case neg =>
      rw [leftSide_concat same' ne, Double.isNaN_add_iff, product,
        ih same' (fun b mem => finite b (List.mem_append_left _ mem))
          fun y mem => finite' y (List.mem_append_left _ mem)]
      simp only [Bool.false_eq_true, false_or]

namespace Equations

section Rows

variable {α : Type} [Arithmetic α]

/-- A row of the right length with finite entries has no defect, and only such a row. -/
lemma rowDefect?_eq_none_iff {n row : ℕ} {values : List α} :
    rowDefect? n row values = none ↔
      values.length = n + 1 ∧ ∀ value ∈ values, Arithmetic.isFinite value = true := by
  unfold rowDefect?
  split
  case isTrue width => exact ⟨nofun, fun h => absurd h.1 width⟩
  case isFalse width =>
    simp only [Option.map_eq_none_iff, List.findIdx?_eq_none_iff, Bool.not_eq_eq_eq_not, Bool.not_false]
    exact (and_iff_right (not_not.mp width)).symm

/-- Rows form a system if there are any, and all of them have one entry more than there are rows, and
their entries are finite. -/
lemma defect?_eq_none_iff {rows : List (List α)} :
    defect? rows = none ↔
      rows ≠ [] ∧ ∀ row ∈ rows, row.length = rows.length + 1 ∧
        ∀ value ∈ row, Arithmetic.isFinite value = true := by
  unfold defect?
  split
  case isTrue empty => exact ⟨nofun, fun h => absurd (List.isEmpty_iff.mp empty) h.1⟩
  case isFalse nonempty =>
    rw [and_iff_right (mt List.isEmpty_iff.mpr nonempty), List.findSome?_eq_none_iff]
    simp only [rowDefect?_eq_none_iff]
    constructor
    · intro sound row mem
      obtain ⟨i, bound, rfl⟩ := List.getElem_of_mem mem
      exact sound (rows[i], i) (List.mem_zipIdx_iff_getElem?.mpr (List.getElem?_eq_getElem bound))
    · intro sound entry mem
      exact sound entry.1 (List.fst_mem_of_mem_zipIdx mem)

/-- Rows make a system exactly if no defect is found in them. -/
lemma exists_ofRows_iff {rows : List (List α)} :
    (∃ system, ofRows rows = .ok system) ↔ defect? rows = none := by
  unfold ofRows
  split
  case h_1 defect => exact ⟨nofun, fun sound => nomatch defect.symm.trans sound⟩
  case h_2 sound => exact ⟨fun _ => sound, fun _ => ⟨_, rfl⟩⟩

end Rows

/-- The rows of a system that is accepted are its equations, and their entries are finite. -/
lemma row_of_ofRows {rows : List (List Float)} {system : Equations Float rows.length}
    (h : ofRows rows = .ok system) (i : Fin rows.length) :
    system[i].toList = rows[i] ∧ ∀ value ∈ rows[i], value.isFinite = true := by
  have sound := exists_ofRows_iff.mp ⟨system, h⟩
  obtain ⟨width, finite⟩ := (defect?_eq_none_iff.mp sound).2 rows[i] (List.getElem_mem i.isLt)
  rw [ofRows, sound] at h
  cases h
  refine ⟨List.ext_getElem ?_ fun j hj hj' => ?_, finite⟩
  · rw [Vector.length_toList, width]
  · simp only [Fin.getElem_fin, Vector.getElem_ofFn, Vector.getElem_toList] at hj' ⊢
    rw [List.getD_eq_getElem?_getD, List.getElem?_eq_getElem hj', Option.getD_some]

/-- A system made of rows has these rows. -/
lemma rows_of_ofRows {rows : List (List Float)} {system : Equations Float rows.length}
    (h : ofRows rows = .ok system) : system.rows = rows := by
  refine List.ext_getElem ?_ fun i _ lt => ?_
  · rw [Equations.rows, List.length_map, Vector.length_toList]
  · simp only [Equations.rows, List.getElem_map, Vector.getElem_toList]
    exact (row_of_ofRows h ⟨i, lt⟩).1

end Equations

namespace Solver

variable {solver : Solver Float} {n : Nat}

/-- The unknowns of a solution are finite, because all of them have been checked. -/
lemma isFinite_of_run {start : Equations Float n} {x : Vector Float n}
    (h : (solver.run start).ending = .ok x) : ∀ value ∈ x.toList, value.isFinite = true := by
  obtain ⟨-, -, sound⟩ := solver.ending_eq_ok_iff.mp h
  intro value mem
  obtain ⟨i, bound, rfl⟩ := List.getElem_of_mem mem
  rw [Vector.length_toList] at bound
  have sound := sound ⟨i, bound⟩
  unfold componentDefect? at sound
  dsimp only at sound
  split at sound
  case isTrue => cases sound
  case isFalse =>
    split at sound
    case isTrue => cases sound
    case isFalse finite => exact (Bool.not_eq_false _).mp fun e => finite (congrArg not e)

/-- Solving rows succeeds exactly with the result of the run on the system that they make. -/
lemma solveRows_eq_ok_iff {rows : List (List Float)} {result : SolveResult Float rows.length} :
    (solver.solveRows rows).run.result = .ok result ↔
      ∃ system, Equations.ofRows rows = .ok system ∧ (solver.run system).result system = result := by
  have e : (solver.solveRows rows).run.result =
      Equations.ofRows rows >>= fun system => .ok ((solver.run system).result system) := by
    rw [solveRows_eq]
    cases Equations.ofRows rows <;> rfl
  rw [e, bind_eq_ok_iff]
  simp only [Except.ok.injEq]

/-- A residual is not negative, or it is not a number because something overflows in its equation. -/
lemma rowResidual_spec {row : Vector Float (n + 1)} {x : Vector Float n}
    (finite : ∀ value ∈ row.toList, value.isFinite = true)
    (finite' : ∀ value ∈ x.toList, value.isFinite = true) :
    (0.0 ≤ rowResidual row x ∧ ¬ Overflows (row.toList.take n) x.toList) ∨
      ((rowResidual row x).isNaN = true ∧ Overflows (row.toList.take n) x.toList) := by
  have widths : (row.toList.take n).length = x.toList.length := by
    rw [List.length_take, Vector.length_toList, Vector.length_toList]
    omega
  -- The right side of the equation has no value to be multiplied with.
  have coefficients : leftSide row.toList x.toList = leftSide (row.toList.take n) x.toList := by
    unfold leftSide
    rw [List.zip_eq_zip_take_min, Vector.length_toList, Vector.length_toList,
      Nat.min_eq_right (Nat.le_succ n), List.take_of_length_le (Nat.le_of_eq Vector.length_toList)]
  have isNaN : (rowResidual row x).isNaN = true ↔ Overflows (row.toList.take n) x.toList := by
    rw [← isNaN_leftSide_iff widths (fun a mem => finite a (List.mem_of_mem_take mem)) finite',
      ← coefficients]
    have right : (row.get (Fin.last n)).isFinite = true :=
      finite _ (Vector.mem_toList_iff.mpr (Vector.getElem_mem _))
    change (Float.abs _).isNaN = true ↔ _
    rw [Double.isNaN_abs, Double.isNaN_sub right]
  by_cases overflows : Overflows (row.toList.take n) x.toList
  case pos => exact .inr ⟨isNaN.mpr overflows, overflows⟩
  case neg =>
    have number : (leftSide row.toList x.toList - row.get (Fin.last n)).isNaN = false := by
      rw [← Double.isNaN_abs, ← Bool.not_eq_true]
      exact mt isNaN.mp overflows
    exact .inl ⟨Double.zero_le_abs number, overflows⟩

/-- A system that is solved has a residual for every equation. Each of them is not negative, unless
products that overflow in different directions meet in its equation: then it is not a number. -/
theorem solveRows_residuals {rows : List (List Float)} {result : SolveResult Float rows.length}
    (h : (solver.solveRows rows).run.result = .ok result) (solved : result.status = .solved) :
    ∃ x r, result.solution = some x ∧ result.residuals = some r ∧
      ∀ i : Fin rows.length,
        (0.0 ≤ r[i] ∧ ¬ Overflows (rows[i].take rows.length) x.toList) ∨
          (r[i].isNaN = true ∧ Overflows (rows[i].take rows.length) x.toList) := by
  obtain ⟨system, accepted, e⟩ := solveRows_eq_ok_iff.mp h
  rw [← e] at solved
  obtain ⟨x, ending⟩ := Run.status_eq_solved_iff.mp solved
  refine ⟨x, residuals system x, ?_, ?_, fun i => ?_⟩
  · rw [← e, Run.result_solution ending]
  · rw [← e, Run.result_residuals ending]
  · obtain ⟨row, finite⟩ := Equations.row_of_ofRows accepted i
    have residual : (residuals system x)[i] = rowResidual system[i] x := Vector.getElem_map ..
    rw [residual, ← row]
    exact rowResidual_spec (row ▸ finite) (isFinite_of_run ending)

/-- Two equations that are almost parallel, the second one with large entries. -/
def steep : List (List Float) :=
  [[1, 0.9999999999999999, 0], [1e160, 1e160, 1e294]]

/-- The steep equations are solved, and the residual of the second one is not a number. -/
lemma solveRows_steep :
    ∃ result r, (default.solveRows steep).run.result = .ok result ∧ result.status = .solved ∧
      result.residuals = some r ∧ r[1].isNaN = true := by
  obtain ⟨result, h, e⟩ : ∃ result, (default.solveRows steep).run.result = .ok result ∧
      (result.status, result.residuals.map fun r => r[1].isNaN) = (.solved, some true) :=
    toOption_map_eq_some_iff.mp (by decide +kernel)
  obtain ⟨solved, isNaN⟩ := Prod.mk.inj e
  obtain ⟨r, residuals, isNaN⟩ := Option.map_eq_some_iff.mp isNaN
  exact ⟨result, r, h, solved, residuals, isNaN⟩

/-- Something overflows in the second of the steep equations, which are solved. -/
theorem solveRows_steep_overflows :
    ∃ result, (default.solveRows steep).run.result = .ok result ∧ result.status = .solved ∧
      ∃ x r, result.solution = some x ∧ result.residuals = some r ∧
        r[1].isNaN = true ∧ Overflows [1e160, 1e160] x.toList := by
  obtain ⟨result, r, h, solved, residuals, isNaN⟩ := solveRows_steep
  obtain ⟨x, r', solution, residuals', spec⟩ := solveRows_residuals h solved
  cases residuals.symm.trans residuals'
  rcases spec ⟨1, by decide⟩ with ⟨nonneg, -⟩ | overflows
  · exact absurd nonneg (Double.not_zero_le_of_isNaN isNaN)
  · exact ⟨result, h, solved, x, r, solution, residuals, overflows⟩

/-- A system can be solved although not all of its residuals are numbers. -/
theorem not_all_residuals_numbers :
    ¬ ∀ (solver : Solver Float) (rows : List (List Float)) (result : SolveResult Float rows.length),
      (solver.solveRows rows).run.result = .ok result → result.status = .solved →
        ∃ r, result.residuals = some r ∧ ∀ i : Fin rows.length, 0.0 ≤ r[i] := by
  intro numbers
  obtain ⟨result, r, h, solved, residuals, isNaN⟩ := solveRows_steep
  obtain ⟨r', residuals', nonneg⟩ := numbers default steep result h solved
  cases residuals.symm.trans residuals'
  exact Double.not_zero_le_of_isNaN isNaN (nonneg ⟨1, by decide⟩)

end Solver

end Stepwise.Linear
