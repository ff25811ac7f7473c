import Stepwise.Proofs.Linear.Residuals
import Stepwise.Proofs.Root.Watching

/-!
# The log of a computation

A computation whose input is accepted leaves a message at its start, one for each step that it records,
and one at its end. The level of the last message tells whether the computation reached its aim. A
computation that is stopped because a function has no value leaves no message at its end, and one whose
input is rejected leaves no message at all.
-/

namespace Stepwise

namespace Log

/-- A log with a message at the start, the messages of some steps, and maybe one message at the end,
whose level is given. -/
structure Account (steps : List Message) (level : Option Level) (log : List Message) : Prop where
  debug : ∀ message ∈ steps, message.level = .debug
  parts : ∃ first last, log = first :: steps ++ Option.toList last ∧ first.level = .info ∧
    last.map Message.level = level

/-- The messages about steps in a log. -/
def ofSteps (log : List Message) : List Message :=
  log.filter fun message => message.level = .debug

/-- Neither the first message nor the last one is about a step. -/
lemma Account.ofSteps_eq {steps log : List Message} {level : Option Level}
    (account : Account steps level log) (other : level ≠ some .debug) : ofSteps log = steps := by
  obtain ⟨debug, first, last, rfl, info, rfl⟩ := account
  have head : ofSteps [first] = [] := by simp [ofSteps, info]
  have body : ofSteps steps = steps := List.filter_eq_self.mpr (by simpa using debug)
  have tail : ofSteps last.toList = [] := by
    cases last with
    | none => rfl
    | some message => simpa [ofSteps] using other
  calc ofSteps (first :: steps ++ last.toList)
      = ofSteps [first] ++ ofSteps steps ++ ofSteps last.toList := by
        simp [ofSteps, ← List.filter_append]
    _ = steps := by rw [head, body, tail, List.nil_append, List.append_nil]

/-- There are as many messages about steps as there are steps. -/
lemma Account.length_ofSteps {steps log : List Message} {reached : Prop} [Decidable reached]
    (account : Account steps (some (if reached then .info else .warn)) log) :
    (ofSteps log).length = steps.length := by
  rw [account.ofSteps_eq]
  split <;> decide

end Log

namespace Root

open Log (Account)

/-- The message of a step. -/
def Step.message : Step Float → Log.Message
  | halving step => Bisection.stepMessage step
  | tangent step => Newton.stepMessage step

/-- Messages about steps are for finding errors. -/
lemma Step.message_level (step : Step Float) : step.message.level = .debug := by
  cases step <;> rfl

/-- The log of a search agrees with its outcome. -/
def Agrees (outcome : Logged (Except RootError (Result Float))) : Prop :=
  match outcome.result with
  | .ok result =>
    Account (result.trace.map Step.message) (some (if result.converged then .info else .warn))
        outcome.log ∧
      (Log.ofSteps outcome.log).length = result.trace.length
  | .error (.eval _) => ∃ steps : List (Step Float), Account (steps.map Step.message) none outcome.log
  | .error (.input _) => outcome.log = []
  | .error (.compile _) => False

/-- A log agrees with a result of which it is an account. -/
lemma Agrees.of_ok {log : List Log.Message} {result : Result Float}
    (account : Account (result.trace.map Step.message)
      (some (if result.converged then .info else .warn)) log) :
    Agrees { log, result := .ok result } :=
  ⟨account, account.length_ofSteps.trans (List.length_map _)⟩

section Input

variable {a b x tol : Float}

/-- An interval is accepted exactly if its ends are finite and in their order. -/
lemma checkInterval_eq_ok_iff :
    checkInterval a b = .ok () ↔ a.isFinite = true ∧ b.isFinite = true ∧ a < b :=
  check_eq_ok_iff

/-- A first guess is accepted exactly if it is finite. -/
lemma checkGuess_eq_ok_iff : checkGuess x = .ok () ↔ x.isFinite = true :=
  check_eq_ok_iff

/-- A tolerance is accepted exactly if it is a number and not negative. -/
lemma checkTolerance_eq_ok_iff :
    checkTolerance tol = .ok () ↔ tol.isNaN = false ∧ ¬ tol < 0.0 := by
  rw [checkTolerance, ← ite_not, check_eq_ok_iff, not_or, Bool.not_eq_true]
  exact Iff.rfl

variable {ε : Type} {f : Float → Except ε Float} {budget : ℕ}

/-- A bisection comes to run exactly if its interval and its tolerance are accepted. -/
lemma Bisection.exists_start_iff : (∃ run, Bisection.start f a b tol budget = .ok run) ↔
    (a.isFinite = true ∧ b.isFinite = true ∧ a < b) ∧ tol.isNaN = false ∧ ¬ tol < 0.0 :=
  exists_checked_iff.trans (and_congr checkInterval_eq_ok_iff checkTolerance_eq_ok_iff)

/-- Newton's method comes to run exactly if its first guess and its tolerance are accepted. -/
lemma Newton.exists_start_iff : (∃ run, Newton.start f x tol budget = .ok run) ↔
    x.isFinite = true ∧ tol.isNaN = false ∧ ¬ tol < 0.0 :=
  exists_checked_iff.trans (and_congr checkGuess_eq_ok_iff checkTolerance_eq_ok_iff)

end Input

/-- The messages of a bisection are an account of its steps and its ending. -/
lemma Bisection.Run.account (run : Run Formula.EvalError Float) (name : String) (a b tol : Float) :
    Account ((run.steps.map .halving).map Step.message)
      ((endMessage run.steps.length run.ending).map Log.Message.level) (run.messages name a b tol) where
  debug := List.forall_mem_map.mpr fun step _ => step.message_level
  parts := ⟨_, _, by rw [List.map_map]; rfl, rfl, rfl⟩

/-- Whatever a bisection ends with, its last message has the level of its result. -/
lemma Bisection.Run.agrees (run : Run Formula.EvalError Float) (name : String) (a b tol : Float) :
    Agrees (conclude (run.messages name a b tol) (run.result.mapError .eval)).run := by
  have account := run.account name a b tol
  obtain ⟨steps, ending⟩ := run
  cases ending with
  | endpoint root => exact .of_ok account
  | sameSign atA atB => exact .of_ok account
  | found root => exact .of_ok account
  | exhausted midpoint => exact .of_ok account
  | failed error => exact ⟨steps.map .halving, account⟩

/-- The log of a bisection agrees with its outcome. -/
lemma bisect_agrees (f : ScalarFunction) (a b tol : Float) (budget : ℕ) :
    Agrees (bisect f a b tol budget).run := by
  rw [bisect_eq_conclude]
  split
  case h_1 => rfl
  case h_2 run _ => exact run.agrees ..

/-- A bisection leaves no message exactly if its input is rejected. -/
lemma bisect_log_eq_nil_iff (f : ScalarFunction) (a b tol : Float) (budget : ℕ) :
    (bisect f a b tol budget).run.log = [] ↔
      ¬ ((a.isFinite = true ∧ b.isFinite = true ∧ a < b) ∧ tol.isNaN = false ∧ ¬ tol < 0.0) := by
  rw [← @Bisection.exists_start_iff a b tol _ f.value budget, bisect_eq_conclude]
  split
  case h_1 error e =>
    rw [e]
    exact iff_of_true rfl nofun
  case h_2 run e => exact iff_of_false (List.cons_ne_nil _ _) (not_not.mpr ⟨run, e⟩)

/-- The messages of Newton's method are an account of its steps and its ending. -/
lemma Newton.Run.account (run : Run Formula.EvalError Float) (name : String) (x tol : Float) :
    Account ((run.steps.map .tangent).map Step.message)
      ((endMessage run.steps.length run.ending).map Log.Message.level) (run.messages name x tol) where
  debug := List.forall_mem_map.mpr fun step _ => step.message_level
  parts := ⟨_, _, by rw [List.map_map]; rfl, rfl, rfl⟩

/-- Whatever a run of Newton's method ends with, its last message has the level of its result. -/
lemma Newton.Run.agrees (run : Run Formula.EvalError Float) (name : String) (x tol : Float) :
    Agrees (conclude (run.messages name x tol) ((run.result x).mapError .eval)).run := by
  have account := run.account name x tol
  obtain ⟨steps, ending⟩ := run
  cases ending with
  | found root => exact .of_ok account
  | flat last slope => exact .of_ok account
  | diverged last => exact .of_ok account
  | exhausted last => exact .of_ok account
  | failed error => exact ⟨steps.map .tangent, account⟩

/-- The log of Newton's method agrees with its outcome. -/
lemma newton_agrees (f : ScalarFunction) (x tol : Float) (budget : ℕ) :
    Agrees (newton f x tol budget).run := by
  rw [newton_eq_conclude]
  split
  case h_1 => rfl
  case h_2 run _ => exact run.agrees ..

/-- Newton's method leaves no message exactly if its input is rejected. -/
lemma newton_log_eq_nil_iff (f : ScalarFunction) (x tol : Float) (budget : ℕ) :
    (newton f x tol budget).run.log = [] ↔
      ¬ (x.isFinite = true ∧ tol.isNaN = false ∧ ¬ tol < 0.0) := by
  rw [← @Newton.exists_start_iff x tol _ f.value budget, newton_eq_conclude]
  split
  case h_1 error e =>
    rw [e]
    exact iff_of_true rfl nofun
  case h_2 run e => exact iff_of_false (List.cons_ne_nil _ _) (not_not.mpr ⟨run, e⟩)

end Root

namespace Linear

open Log (Account)

/-- The log of an elimination agrees with its outcome: a message for each step that left a snapshot
behind. -/
def Agrees (solver : Solver Float) {rows : List (List Float)}
    (outcome : Logged (Except SystemError (SolveResult Float rows.length))) : Prop :=
  match outcome.result with
  | .ok result =>
    ∃ system steps, Equations.ofRows rows = .ok system ∧
      steps = (solver.run system).steps.filter RowStep.recorded ∧
      result.trace = system :: steps.map RowStep.system ∧
      Account (steps.map (·.change.message))
        (some (if result.status = .solved then .info else .warn)) outcome.log ∧
      (Log.ofSteps outcome.log).length + 1 = result.trace.length
  | .error _ => outcome.log = []

/-- Messages about changes of rows are for finding errors. -/
lemma Change.message_level (change : Change Float) : change.message.level = .debug := by
  cases change <;> rfl

/-- The message about a defect is a warning. -/
lemma Singularity.message_level (tolerance : Float) (defect : Singularity Float) :
    (defect.message tolerance).level = .warn := by
  cases defect <;> rfl

namespace Run

variable {n : ℕ}

/-- Whatever an elimination ends with, its last message has the level of its result. -/
lemma account (run : Run Float n) (solver : Solver Float) (start : Equations Float n) :
    Account ((run.steps.filter RowStep.recorded).map (·.change.message))
      (some (if (run.result start).status = .solved then .info else .warn))
      (run.messages solver start) where
  debug := List.forall_mem_map.mpr fun step _ => step.change.message_level
  parts := by
    obtain ⟨steps, ending⟩ := run
    cases ending with
    | ok solution => exact ⟨_, some _, rfl, rfl, rfl⟩
    | error defect =>
      exact ⟨_, some _, rfl, rfl, congrArg some (defect.message_level solver.pivotTolerance)⟩

end Run

/-- The log of an elimination agrees with its outcome, whatever the rows are. -/
lemma solveRows_agrees (solver : Solver Float) (rows : List (List Float)) :
    Agrees solver (solver.solveRows rows).run := by
  rw [solver.solveRows_eq]
  cases accepted : Equations.ofRows rows with
  | error error => rfl
  | ok system =>
    have account := (solver.run system).account solver system
    refine ⟨system, _, accepted, rfl, (solver.run system).result_trace system, account, ?_⟩
    have count := account.length_ofSteps
    rw [List.length_map] at count
    rw [Run.result_trace, Run.trace, List.length_cons, List.length_map]
    exact congrArg (· + 1) count

/-- An elimination leaves no message exactly if the rows are rejected as a system. -/
lemma solveRows_log_eq_nil_iff (solver : Solver Float) (rows : List (List Float)) :
    (solver.solveRows rows).run.log = [] ↔
      ¬ (rows ≠ [] ∧ ∀ row ∈ rows, row.length = rows.length + 1 ∧
        ∀ value ∈ row, value.isFinite = true) := by
  refine Iff.trans ?_ (not_congr (Equations.exists_ofRows_iff.trans Equations.defect?_eq_none_iff))
  rw [solver.solveRows_eq]
  cases Equations.ofRows rows with
  | error error => exact iff_of_true rfl nofun
  | ok system => exact iff_of_false (List.cons_ne_nil _ _) (not_not.mpr ⟨system, rfl⟩)

end Linear

/-- Every search for a root and every elimination leaves a log that agrees with its outcome. No message is
left exactly if the input is rejected. Otherwise the log is a message at the start, then one message for
each step of the trace, or for each snapshot behind the first one, in their order, and then exactly one
message if there is a result. It is a warning if the method did not converge or the system is singular. -/
theorem log_agrees_with_outcome :
    (∀ (f : Root.ScalarFunction) (a b tol : Float) (budget : ℕ),
      Root.Agrees (Root.bisect f a b tol budget).run ∧
        ((Root.bisect f a b tol budget).run.log = [] ↔
          ¬ ((a.isFinite = true ∧ b.isFinite = true ∧ a < b) ∧ tol.isNaN = false ∧ ¬ tol < 0.0))) ∧
    (∀ (f : Root.ScalarFunction) (x tol : Float) (budget : ℕ),
      Root.Agrees (Root.newton f x tol budget).run ∧
        ((Root.newton f x tol budget).run.log = [] ↔
          ¬ (x.isFinite = true ∧ tol.isNaN = false ∧ ¬ tol < 0.0))) ∧
    ∀ (solver : Linear.Solver Float) (rows : List (List Float)),
      Linear.Agrees solver (solver.solveRows rows).run ∧
        ((solver.solveRows rows).run.log = [] ↔
          ¬ (rows ≠ [] ∧ ∀ row ∈ rows, row.length = rows.length + 1 ∧
            ∀ value ∈ row, value.isFinite = true)) := by
  refine ⟨fun f a b tol budget => ?_, fun f x tol budget => ?_, fun solver rows => ?_⟩
  · exact ⟨Root.bisect_agrees f a b tol budget, Root.bisect_log_eq_nil_iff f a b tol budget⟩
  · exact ⟨Root.newton_agrees f x tol budget, Root.newton_log_eq_nil_iff f x tol budget⟩
  · exact ⟨Linear.solveRows_agrees solver rows, Linear.solveRows_log_eq_nil_iff solver rows⟩

end Stepwise
