import Stepwise.Linear.Messages
import Stepwise.Proofs.Outcome
import Mathlib.Tactic.Common

/-!
# Watched eliminations

A solver leaves a message about each step that is worth a snapshot when the step is taken. To be watched
changes nothing about an elimination, and what is said while it goes on is what there is to say about its
steps, in their order. So a solver does what its elimination does, and leaves the messages of it.
-/

namespace Stepwise.Linear

variable {α : Type} {n : ℕ}

section Watched

variable (said : RowStep α n → List Log.Message)

/-- What is said about some steps one after the other is what there is to say about all of them. -/
lemma forM_leave (steps : List (RowStep α n)) :
    (steps.forM fun step => Logged.leave (said step)) = Logged.told said steps () := by
  induction steps with
  | nil => rfl
  | cons step later ih =>
    rw [List.forM, ih]
    rfl

variable [Arithmetic α]

/-- Clearing a column says of each subtraction, when it is made, what there is to say about it. -/
lemma clearStepsM_eq (i : Fin n) (rows : List (Fin n)) (system : Equations α n) :
    clearStepsM (fun step => Logged.leave (said step)) i rows system =
      Logged.told said (clearSteps i rows system) (clearSteps i rows system) := by
  induction rows generalizing system with
  | nil => rfl
  | cons j later ih =>
    rw [clearSteps_cons, clearStepsM, ih]
    exact Logged.leave_told said _ _ _ _

namespace Solver

variable (solver : Solver α)

/-- Elimination says of each step, when it is taken, what there is to say about it. -/
lemma forwardM_eq (count i : ℕ) (system : Equations α n) :
    solver.forwardM (fun step => Logged.leave (said step)) count i system =
      Logged.told said (solver.forward count i system).steps (solver.forward count i system) := by
  -- On the unknowns that are left: what comes behind a column tells its own steps.
  induction count generalizing i system with
  | zero => rfl
  | succ count ih =>
    rcases Nat.lt_or_ge i n with lt | ge
    · rw [solver.forward_of_lt lt, forwardM, dif_pos lt]
      dsimp only
      generalize (if solver.pivoting then pivotSteps system ⟨i, lt⟩ else []) = swaps
      rw [forM_leave]
      cases solver.pivotDefect? (reached system swaps) ⟨i, lt⟩ with
      | some defect =>
        simp only [Logged.bind_eq, Logged.pure_eq, Logged.told, List.append_nil]
      | none =>
        simp only [Logged.bind_eq, Logged.pure_eq, Logged.told, clearStepsM_eq, ih, List.append_nil,
          List.flatMap_append, List.append_assoc]
    · rw [solver.forward_of_ge ge, forwardM, dif_neg (Nat.not_lt.mpr ge)]
      rfl

/-- A run says of each step, when it is taken, what there is to say about it. -/
lemma runM_eq (system : Equations α n) :
    solver.runM (fun step => Logged.leave (said step)) system =
      Logged.told said (solver.run system).steps (solver.run system) := by
  rw [solver.run_eq, runM, forwardM_eq]
  generalize solver.forward n 0 system = forward
  simp only [Logged.bind_eq, Logged.told]
  split
  case h_1 => rw [Logged.pure_eq, List.append_nil]
  case h_2 => split <;> rw [Logged.pure_eq, List.append_nil]

end Solver

end Watched

/-- What there is to say about some steps is a message for each of those that are worth a snapshot. -/
lemma flatMap_messages (steps : List (RowStep Float n)) :
    steps.flatMap RowStep.messages =
      (steps.filter RowStep.recorded).map fun step => step.change.message := by
  induction steps with
  | nil => rfl
  | cons step later ih =>
    rw [List.flatMap_cons, List.filter_cons, RowStep.messages, ih]
    split <;> rfl

/-- The messages of an elimination that started from a system. -/
def Run.messages (run : Run Float n) (solver : Solver Float) (start : Equations Float n) :
    List Log.Message :=
  startMessage n solver.pivoting ::
    (run.steps.filter RowStep.recorded).map (fun step => step.change.message) ++
      [run.endMessage solver start]

/-- To solve a system is to run its elimination, with the messages of the run. -/
lemma Solver.solve_eq (solver : Solver Float) (system : Equations Float n) :
    solver.solve system =
      { log := (solver.run system).messages solver system
        result := (solver.run system).result system } := by
  rw [solve, runM_eq RowStep.messages]
  rw [Logged.leave_told_leave, flatMap_messages]
  rfl

/-- To solve some rows is to solve the system that they are, if they are one. -/
lemma Solver.solveRows_eq (solver : Solver Float) (rows : List (List Float)) :
    (solver.solveRows rows).run =
      match Equations.ofRows rows with
      | .error error => { log := [], result := .error error }
      | .ok system =>
        { log := (solver.run system).messages solver system
          result := .ok ((solver.run system).result system) } := by
  rw [solveRows]
  cases Equations.ofRows rows with
  | error error => rfl
  | ok system =>
    change (⟨(solver.solve system).log ++ [], .ok (solver.solve system).result⟩ :
      Logged (Except SystemError _)) = _
    rw [solve_eq, List.append_nil]

end Stepwise.Linear
