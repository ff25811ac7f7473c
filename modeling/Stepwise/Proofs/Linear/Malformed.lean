import Stepwise.Linear.Diagnostics
import Stepwise.Proofs.Linear.Residuals

/-!
# Malformed systems

Rows are no system if there are none, or if some row has the wrong length or an entry that is not finite.
The first such row counts, and its length before its entries. Whatever is asked about a system given by its
rows, rows that are no system are refused for the same reason, and rows that are one are refused only where
a solution with the wrong number of components comes with them. The solver never has that happen.
-/

namespace Stepwise.Linear

section Rows

variable {α : Type} [Arithmetic α]

/-- A row of a system of `n` equations. -/
def Sound (n : ℕ) (values : List α) : Prop :=
  values.length = n + 1 ∧ ∀ value ∈ values, Arithmetic.isFinite value = true

/-- What is wrong with the row at a position of a system of `n` equations: its length, or else its first
entry that is not finite. -/
inductive RowFault (n position : ℕ) : List α → SystemError → Prop where
  | length {values} : values.length ≠ n + 1 →
    RowFault n position values (.raggedRow position (n + 1) values.length)
  | entry {front value back} : (front ++ value :: back).length = n + 1 →
    (∀ other ∈ front, Arithmetic.isFinite other = true) → Arithmetic.isFinite value = false →
    RowFault n position (front ++ value :: back) (.nonFinite position front.length)

/-- What is wrong with some rows as a system: there are none, or something is wrong with the first row that
is not sound. -/
inductive Fault : List (List α) → SystemError → Prop where
  | empty : Fault [] .empty
  | row {above values below error} :
    (∀ row ∈ above, Sound (above ++ values :: below).length row) →
    RowFault (above ++ values :: below).length above.length values error →
    Fault (above ++ values :: below) error

variable {n position : ℕ} {values : List α} {rows : List (List α)} {error : SystemError}

/-- The first column with an entry that is not finite has only finite entries before it. -/
lemma findIdx?_not_finite_iff {column : ℕ} :
    (values.findIdx? fun value => !Arithmetic.isFinite value) = some column ↔
      ∃ front value back, values = front ++ value :: back ∧ front.length = column ∧
        (∀ other ∈ front, Arithmetic.isFinite other = true) ∧ Arithmetic.isFinite value = false := by
  induction values generalizing column with
  | nil => simp
  | cons value values ih =>
    rw [List.findIdx?_cons]
    cases finite : Arithmetic.isFinite value with
    | false =>
      rw [Bool.not_false, if_pos rfl, Option.some.injEq]
      constructor
      · rintro rfl
        exact ⟨[], value, values, rfl, rfl, nofun, finite⟩
      · rintro ⟨_ | ⟨other, front⟩, _, _, e, rfl, sound, -⟩
        · rfl
        · cases e
          cases finite.symm.trans (sound _ (List.mem_cons_self ..))
    | true =>
      rw [Bool.not_true, if_neg Bool.false_ne_true, Option.map_eq_some_iff]
      constructor
      · rintro ⟨column, found, rfl⟩
        obtain ⟨front, other, back, rfl, rfl, sound, infinite⟩ := ih.mp found
        exact ⟨value :: front, other, back, rfl, rfl, List.forall_mem_cons.mpr ⟨finite, sound⟩, infinite⟩
      · rintro ⟨_ | ⟨_, front⟩, other, back, e, rfl, sound, infinite⟩
        · cases e
          cases finite.symm.trans infinite
        · obtain ⟨-, rfl⟩ := List.cons.inj e
          refine ⟨front.length, ih.mpr ⟨front, other, back, rfl, rfl, ?_, infinite⟩, rfl⟩
          exact (List.forall_mem_cons.mp sound).2

/-- A row is refused exactly for what is wrong with it. -/
lemma rowDefect?_eq_some_iff :
    Equations.rowDefect? n position values = some error ↔ RowFault n position values error := by
  unfold Equations.rowDefect?
  constructor
  · intro h
    split at h
    case isTrue width =>
      cases h
      exact .length width
    case isFalse width =>
      obtain ⟨column, found, rfl⟩ := Option.map_eq_some_iff.mp h
      obtain ⟨front, value, back, rfl, rfl, sound, infinite⟩ := findIdx?_not_finite_iff.mp found
      exact .entry (not_not.mp width) sound infinite
  · intro fault
    cases fault with
    | length width => rw [if_pos width]
    | entry width sound infinite =>
      rw [if_neg (not_not.mpr width), findIdx?_not_finite_iff.mpr ⟨_, _, _, rfl, rfl, sound, infinite⟩]
      rfl

/-- The defect that is found is what is wrong with the rows. -/
lemma defect?_eq_some_iff : Equations.defect? rows = some error ↔ Fault rows error := by
  unfold Equations.defect?
  constructor
  · intro h
    split at h
    case isTrue none =>
      cases h
      rw [List.isEmpty_iff.mp none]
      exact .empty
    case isFalse =>
      obtain ⟨above, ⟨values, position⟩, below, split, found, sound⟩ := List.findSome?_eq_some_iff.mp h
      obtain ⟨above, below, rfl, rfl, rest⟩ := List.zipIdx_eq_append_iff.mp split
      obtain ⟨values, below, rfl, here, -⟩ := List.zipIdx_eq_cons_iff.mp rest.symm
      cases here
      rw [Nat.zero_add] at found
      refine .row (fun row mem => ?_) (rowDefect?_eq_some_iff.mp found)
      obtain ⟨i, bound, rfl⟩ := List.getElem_of_mem mem
      exact Equations.rowDefect?_eq_none_iff.mp
        (sound (above[i], i) (List.mem_zipIdx_iff_getElem?.mpr (List.getElem?_eq_getElem bound)))
  · intro fault
    cases fault with
    | empty => rfl
    | @row above values below _ sound fault =>
      have split : (above ++ values :: below).zipIdx =
          above.zipIdx ++ (values, above.length) :: below.zipIdx (above.length + 1) := by
        rw [List.zipIdx_append, List.zipIdx_cons, Nat.zero_add]
      rw [if_neg (by simp)]
      refine List.findSome?_eq_some_iff.mpr ⟨_, _, _, split, rowDefect?_eq_some_iff.mpr fault, ?_⟩
      rintro ⟨row, i⟩ mem
      exact Equations.rowDefect?_eq_none_iff.mpr (sound row (List.fst_mem_of_mem_zipIdx mem))

/-- Rows are refused exactly for what is wrong with them as a system. -/
lemma ofRows_eq_error_iff : Equations.ofRows rows = .error error ↔ Fault rows error := by
  rw [← defect?_eq_some_iff]
  unfold Equations.ofRows
  split
  case h_1 found => simp [found]
  case h_2 sound => simp [sound]

/-- Nothing is wrong with the number of components where there is no solution. -/
lemma Fault.ne_dimensionMismatch (fault : Fault rows error) (expected found : ℕ) :
    error ≠ .dimensionMismatch expected found := by
  cases fault with
  | empty => exact nofun
  | row _ fault => cases fault <;> exact nofun

end Rows

section Reading

variable {α β : Type} {rows : List (List Float)}

/-- An outcome that is an error exactly if the rows are no system, and then says what is wrong with them. -/
def Reads (rows : List (List Float)) (outcome : Except SystemError α) : Prop :=
  ∀ error, outcome = .error error ↔ Fault rows error

namespace Reads

/-- Checking the rows of a system is reading them. -/
lemma ofRows (rows : List (List Float)) : Reads rows (Equations.ofRows rows) :=
  fun _ => ofRows_eq_error_iff

/-- What comes after a system has been read must not fail. -/
lemma bind {first : Diagnosis α} (h : Reads rows first.run.result) {next : α → Diagnosis β}
    (total : ∀ a, ∃ b, (next a).run.result = .ok b) : Reads rows (first >>= next).run.result := by
  intro error
  rw [run_result_bind, bind_eq_error_iff, ← h error]
  refine or_iff_left ?_
  rintro ⟨a, -, fails⟩
  obtain ⟨b, e⟩ := total a
  cases e.symm.trans fails

/-- Checking rows inside a diagnosis is reading them, whatever is logged. -/
lemma system (rows : List (List Float)) :
    Reads rows (liftM (Equations.ofRows rows) : Diagnosis (Equations Float rows.length)).run.result :=
  Reads.ofRows rows

/-- Rows with nothing wrong are read. -/
lemma exists_eq_ok {outcome : Except SystemError α} (h : Reads rows outcome)
    (sound : ∀ error, ¬ Fault rows error) : ∃ a, outcome = .ok a := by
  cases outcome with
  | error error => exact absurd ((h error).mp rfl) (sound error)
  | ok a => exact ⟨a, rfl⟩

/-- Solving rows fails only if they are no system. -/
lemma solveRows (solver : Solver Float) : Reads rows (solver.solveRows rows).run.result :=
  (system rows).bind fun _ => ⟨_, rfl⟩

/-- Recommending pivoting fails only if the rows are no system. -/
lemma recommendPivoting : Reads rows (recommendPivoting rows).run.result := by
  refine (system rows).bind fun system => ?_
  dsimp only
  split
  · exact ⟨_, rfl⟩
  · exact ⟨_, rfl⟩

/-- The condition number fails only if the rows are no system, whatever the singular values are. -/
lemma conditionNumberBy (values : List (List Float) → List Float) :
    Reads rows (conditionNumberBy values rows).run.result :=
  (system rows).bind fun _ => ⟨_, rfl⟩

/-- The check of the condition fails only if the rows are no system, whatever the singular values are. -/
lemma poorlyConditionedBy (values : List (List Float) → List Float) (threshold : Float) :
    Reads rows (poorlyConditionedBy values rows threshold).run.result := by
  refine (conditionNumberBy values).bind fun condition => ?_
  dsimp only
  split
  · exact ⟨_, rfl⟩
  · exact ⟨_, rfl⟩

/-- The check for solutions fails only if the rows are no system, whatever the singular values are. -/
lemma hasSolutionBy (values : List (List Float) → List Float) :
    Reads rows (hasSolutionBy values rows).run.result := by
  refine (system rows).bind fun system => ?_
  dsimp only
  split
  · exact ⟨_, rfl⟩
  · exact ⟨_, rfl⟩

end Reads

/-- Residuals are computed for the equations that the rows are, and for as many components as there are
equations. -/
lemma residualsOf_eq {system : Equations Float rows.length} (accepted : Equations.ofRows rows = .ok system)
    (solution : List Float) : residualsOf rows solution =
      if h : solution.length = rows.length then .ok (residuals system ⟨solution.toArray, h⟩).toList
      else .error (.dimensionMismatch rows.length solution.length) := by
  rw [residualsOf, accepted]
  split
  · rfl
  · rfl

end Reading

/-- Rows that are refused by whatever is asked about them, always for the same reason. -/
structure Refused (rows : List (List Float)) (error : SystemError) : Prop where
  ofRows : Equations.ofRows rows = .error error
  solveRows : ∀ solver : Solver Float, (solver.solveRows rows).run.result = .error error
  residualsOf : ∀ solution, residualsOf rows solution = .error error
  recommendPivoting : (recommendPivoting rows).run.result = .error error
  conditionNumberBy : ∀ values, (conditionNumberBy values rows).run.result = .error error
  poorlyConditionedBy : ∀ values threshold,
    (poorlyConditionedBy values rows threshold).run.result = .error error
  hasSolutionBy : ∀ values, (hasSolutionBy values rows).run.result = .error error

/-- Rows that are not refused. Only a solution with the wrong number of components is. -/
structure Accepted (rows : List (List Float)) : Prop where
  ofRows : ∃ system, Equations.ofRows rows = .ok system
  solveRows : ∀ solver : Solver Float, ∃ result, (solver.solveRows rows).run.result = .ok result
  residualsOf : ∀ solution error, residualsOf rows solution = .error error ↔
    solution.length ≠ rows.length ∧ error = .dimensionMismatch rows.length solution.length
  recommendPivoting : ∃ advice, (recommendPivoting rows).run.result = .ok advice
  conditionNumberBy : ∀ values, ∃ condition, (conditionNumberBy values rows).run.result = .ok condition
  poorlyConditionedBy : ∀ values threshold,
    ∃ poor, (poorlyConditionedBy values rows threshold).run.result = .ok poor
  hasSolutionBy : ∀ values, ∃ verdict, (hasSolutionBy values rows).run.result = .ok verdict

section Entries

variable {rows : List (List Float)} {error : SystemError}

/-- Rows with a fault are refused by whatever is asked about them. -/
lemma Fault.refused (fault : Fault rows error) : Refused rows error where
  ofRows := (Reads.ofRows rows error).mpr fault
  solveRows solver := (Reads.solveRows solver error).mpr fault
  residualsOf solution := by
    rw [Linear.residualsOf, ofRows_eq_error_iff.mpr fault]
    rfl
  recommendPivoting := (Reads.recommendPivoting error).mpr fault
  conditionNumberBy values := (Reads.conditionNumberBy values error).mpr fault
  poorlyConditionedBy values threshold := (Reads.poorlyConditionedBy values threshold error).mpr fault
  hasSolutionBy values := (Reads.hasSolutionBy values error).mpr fault

/-- Rows that make a system are accepted by whatever is asked about them. -/
lemma accepted_of_ofRows {system : Equations Float rows.length}
    (accepted : Equations.ofRows rows = .ok system) : Accepted rows := by
  have sound (error : SystemError) (fault : Fault rows error) : False :=
    nomatch accepted.symm.trans (ofRows_eq_error_iff.mpr fault)
  exact {
    ofRows := ⟨system, accepted⟩
    solveRows := fun solver => (Reads.solveRows solver).exists_eq_ok sound
    residualsOf := fun solution error => by
      rw [residualsOf_eq accepted]
      split
      case isTrue same => exact iff_of_false nofun fun h => h.1 same
      case isFalse other => exact ⟨fun h => ⟨other, (Except.error.inj h).symm⟩, fun h => by rw [h.2]⟩
    recommendPivoting := Reads.recommendPivoting.exists_eq_ok sound
    conditionNumberBy := fun values => (Reads.conditionNumberBy values).exists_eq_ok sound
    poorlyConditionedBy := fun values threshold =>
      (Reads.poorlyConditionedBy values threshold).exists_eq_ok sound
    hasSolutionBy := fun values => (Reads.hasSolutionBy values).exists_eq_ok sound }

/-- The solution of a system has residuals, and they are those of the result. -/
lemma residualsOf_solution {solver : Solver Float} {result : SolveResult Float rows.length}
    {x : Vector Float rows.length} (h : (solver.solveRows rows).run.result = .ok result)
    (solution : result.solution = some x) :
    ∃ r, result.residuals = some r ∧ residualsOf rows x.toList = .ok r.toList := by
  obtain ⟨system, accepted, rfl⟩ := solver.solveRows_eq_ok_iff.mp h
  have solved : ((solver.run system).result system).status = .solved :=
    Run.status_eq_solved_iff_isSome.1.mpr (Option.isSome_iff_exists.mpr ⟨x, solution⟩)
  obtain ⟨y, ending⟩ := Run.status_eq_solved_iff.mp solved
  cases solution.symm.trans (Run.result_solution ending)
  refine ⟨_, Run.result_residuals ending, ?_⟩
  rw [residualsOf_eq accepted, dif_pos Vector.length_toList]
  rfl

/-- Rows are a system if there are any, and if each row has one entry more than there are rows and only
finite entries. Then nothing that is asked about them is refused, but for a solution with the wrong number
of components. All other rows are refused by everything that is asked about them, and always for what is
wrong with them first. So the solver never finds that a solution has the wrong number of components: the
one that it computes has the residuals of its result. -/
theorem refused_or_accepted (rows : List (List Float)) :
    ((rows ≠ [] ∧ (∀ values ∈ rows, Sound rows.length values)) ∧ Accepted rows ∨
      ∃ error, Fault rows error ∧ Refused rows error) ∧
    (∀ (solver : Solver Float) (expected found : ℕ),
      (solver.solveRows rows).run.result ≠ .error (.dimensionMismatch expected found)) ∧
    ∀ (solver : Solver Float) result x, (solver.solveRows rows).run.result = .ok result →
      result.solution = some x →
        ∃ r, result.residuals = some r ∧ residualsOf rows x.toList = .ok r.toList := by
  refine ⟨?_, fun solver expected found h => ?_, fun solver result x => residualsOf_solution⟩
  · cases read : Equations.ofRows rows with
    | error error =>
      have fault := ofRows_eq_error_iff.mp read
      exact .inr ⟨error, fault, fault.refused⟩
    | ok system =>
      have sound := Equations.defect?_eq_none_iff.mp (Equations.exists_ofRows_iff.mp ⟨system, read⟩)
      exact .inl ⟨sound, accepted_of_ofRows read⟩
  · exact ((Reads.solveRows solver _).mp h).ne_dimensionMismatch expected found rfl

/-- Two rows of which the second one is too short and has an entry that is not finite. -/
def stunted : List (List Float) :=
  [[1.0, 2.0, 3.0], [0.0 / 0.0, 1.0]]

/-- The stunted rows are refused by everything for the length of the second one, and one equation in one
unknown is solved with the residual that is computed for its solution. -/
theorem refused_or_accepted_stunted :
    Refused stunted (.raggedRow 1 3 2) ∧
      ∃ result x, (Solver.default.solveRows [[4.0, 2.0]]).run.result = .ok result ∧ result.solution = some x ∧
        ∃ r, result.residuals = some r ∧ residualsOf [[4.0, 2.0]] x.toList = .ok r.toList := by
  constructor
  · have found : Equations.ofRows stunted = .error (.raggedRow 1 3 2) := rfl
    rcases (refused_or_accepted stunted).1 with ⟨-, accepted⟩ | ⟨error, -, refused⟩
    · obtain ⟨system, read⟩ := accepted.ofRows
      cases found.symm.trans read
    · cases found.symm.trans refused.ofRows
      exact refused
  · obtain ⟨result, h, solved⟩ : ∃ result, (Solver.default.solveRows [[4.0, 2.0]]).run.result = .ok result ∧
        result.solution.isSome = true :=
      toOption_map_eq_some_iff.mp (by decide +kernel)
    obtain ⟨x, solution⟩ := Option.isSome_iff_exists.mp solved
    exact ⟨result, x, h, solution, (refused_or_accepted [[4.0, 2.0]]).2.2 .default result x h solution⟩

end Entries

end Stepwise.Linear
