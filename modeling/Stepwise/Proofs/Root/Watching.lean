import Stepwise.Proofs.Outcome
import Stepwise.Root.Finder
import Mathlib.Tactic.Common

/-!
# Watched runs

A search leaves a message about each step when the step is taken. To be watched changes nothing about a
run, and what is said while it goes on is what there is to say about the steps that it records, in their
order. So a search is the run of its method, with the messages of the run.
-/

namespace Stepwise.Root

variable {ε α : Type}

/-- The messages of a computation and its value or error. -/
def conclude (messages : List Log.Message) (outcome : Except ε α) : ExceptT ε Logged α :=
  ExceptT.mk { log := messages, result := outcome }

/-- What has been computed with messages is concluded by what comes of it without any. -/
lemma lift_bind_lift {β : Type} (log : List Log.Message) (a : α) (next : α → Except ε β) :
    (do let a ← ({ log, result := a } : Logged α); next a : ExceptT ε Logged β) =
      conclude log (next a) := by
  change conclude (log ++ [] ++ []) (next a) = _
  rw [List.append_nil, List.append_nil]

namespace Bisection

variable [Arithmetic α] (said : Halving α → List Log.Message) (f : α → Except ε α) (tol : α)

/-- Halving says of each step, when it is taken, what there is to say about it. -/
lemma halveM_eq_told (iteration budget : ℕ) (bracket : Bracket α) :
    halveM (fun step => Logged.leave (said step)) f tol iteration budget bracket =
      Logged.told said (halve f tol iteration budget bracket).steps
        (halve f tol iteration budget bracket) := by
  -- On the budget: what is left of the run tells its own steps.
  induction budget generalizing iteration bracket with
  | zero => rfl
  | succ budget ih =>
    rw [halve_succ, halveM]
    cases f bracket.midpoint with
    | error error => rfl
    | ok value =>
      dsimp only
      split
      case isTrue => rfl
      case isFalse =>
        rw [ih]
        exact Logged.leave_told said _ _ _ _

/-- A bisection says of each step, when it is taken, what there is to say about it. -/
lemma runM_eq_told (a b : α) (budget : ℕ) :
    runM (fun step => Logged.leave (said step)) f a b tol budget =
      Logged.told said (run f a b tol budget).steps (run f a b tol budget) := by
  rw [run_eq, runM]
  cases f a with
  | error error => rfl
  | ok atA =>
    cases f b with
    | error error => rfl
    | ok atB =>
      dsimp only
      split
      case isTrue => rfl
      case isFalse =>
        split
        case isTrue => rfl
        case isFalse =>
          split
          case isTrue => rfl
          case isFalse => exact halveM_eq_told said f tol 1 budget _

/-- The messages of a bisection. -/
def Run.messages (run : Run ε Float) (name : String) (a b tol : Float) : List Log.Message :=
  startMessage name a b tol :: run.steps.map stepMessage
    ++ (endMessage run.steps.length run.ending).toList

/-- A narrated bisection is the run with its messages. -/
lemma narrate_eq (name : String) (f : Float → Except ε Float) (a b tol : Float) (budget : ℕ) :
    narrate name f a b tol budget =
      { log := (run f a b tol budget).messages name a b tol, result := run f a b tol budget } := by
  rw [narrate, runM_eq_told fun step => [stepMessage step]]
  generalize run f a b tol budget = run
  rw [Logged.leave_told_leave, ← List.map_eq_flatMap]
  rfl

end Bisection

/-- A search by bisection is a run with its messages, if its input is accepted. -/
lemma bisect_eq_conclude (f : ScalarFunction) (a b tol : Float) (budget : ℕ) :
    bisect f a b tol budget =
      match Bisection.start f.value a b tol budget with
      | .error error => conclude [] (.error (.input error))
      | .ok run => conclude (run.messages f.name a b tol) (run.result.mapError .eval) := by
  rw [bisect, Bisection.start]
  cases Bisection.checkInput a b tol with
  | error error => rfl
  | ok =>
    dsimp only
    rw [Bisection.narrate_eq]
    exact lift_bind_lift ..

namespace Newton

/-- Newton's method says of each step, when it is taken, what there is to say about it. -/
lemma iterateM_eq_told [Arithmetic α] (said : Tangent α → List Log.Message) (f : α → Except ε α)
    (tol : α) (iteration budget : ℕ) (x : α) :
    iterateM (fun step => Logged.leave (said step)) f tol iteration budget x =
      Logged.told said (iterate f tol iteration budget x).steps (iterate f tol iteration budget x) := by
  -- On the budget: what is left of the run tells its own steps.
  induction budget generalizing iteration x with
  | zero => rfl
  | succ budget ih =>
    rw [iterate_succ, iterateM]
    cases f x with
    | error error => rfl
    | ok value =>
      cases derivative f x with
      | error error => rfl
      | ok slope =>
        dsimp only
        split
        case isTrue => rfl
        case isFalse =>
          split
          case isFalse => rfl
          case isTrue =>
            split
            case isTrue => rfl
            case isFalse =>
              rw [ih]
              exact Logged.leave_told said _ _ _ _

/-- The messages of a run. -/
def Run.messages (run : Run ε Float) (name : String) (x tol : Float) : List Log.Message :=
  startMessage name x tol :: run.steps.map stepMessage
    ++ (endMessage run.steps.length run.ending).toList

/-- A narrated run is the run with its messages. -/
lemma narrate_eq (name : String) (f : Float → Except ε Float) (x tol : Float) (budget : ℕ) :
    narrate name f x tol budget =
      { log := (iterate f tol 1 budget x).messages name x tol, result := iterate f tol 1 budget x } := by
  rw [narrate, iterateM_eq_told fun step => [stepMessage step]]
  generalize iterate f tol 1 budget x = run
  rw [Logged.leave_told_leave, ← List.map_eq_flatMap]
  rfl

end Newton

/-- A search by Newton's method is a run with its messages, if its input is accepted. -/
lemma newton_eq_conclude (f : ScalarFunction) (x tol : Float) (budget : ℕ) :
    newton f x tol budget =
      match Newton.start f.value x tol budget with
      | .error error => conclude [] (.error (.input error))
      | .ok run => conclude (run.messages f.name x tol) ((run.result x).mapError .eval) := by
  rw [newton, Newton.start]
  cases Newton.checkInput x tol with
  | error error => rfl
  | ok =>
    dsimp only
    rw [Newton.narrate_eq]
    exact lift_bind_lift ..

end Stepwise.Root
