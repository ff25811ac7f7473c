import Stepwise.Proofs.Root.Bracket
import Stepwise.Proofs.Root.Path

/-!
# The budget of a search

A search that ends before its budget is used up ends in the same way with every larger budget. A search
that uses up its budget is the first part of every search with a larger one: a longer bisection begins
with the same steps, and Newton's method goes on from the last point as if it were a guess.
-/

namespace Stepwise.Root

variable {ε α : Type}

namespace Bisection

/-- A run with some budget and a run of the same search with a larger one: both are the same, or the
longer one begins with the steps of the shorter one, which are as many as the budget allows. -/
inductive Extends (budget : ℕ) (short long : Run ε α) : Prop where
  | ended : (∀ midpoint, short.ending ≠ .exhausted midpoint) → long = short →
    Extends budget short long
  | exhausted {midpoint : α} : short.ending = .exhausted midpoint → short.steps.length = budget →
    short.steps <+: long.steps → Extends budget short long

/-- The same step in front of both runs takes one iteration of the budget. -/
lemma Extends.after {budget : ℕ} {short long : Run ε α} (h : Extends budget short long)
    (step : Halving α) : Extends (budget + 1) (short.after step) (long.after step) := by
  cases h with
  | ended ends same => exact .ended ends (congrArg (Run.after step) same)
  | exhausted used length begins =>
    exact .exhausted used (congrArg Nat.succ length) (List.cons_prefix_cons.mpr ⟨rfl, begins⟩)

section Results

variable {run : Run ε α} {result : Result α}

/-- The trace of a result records the steps of the run. -/
lemma Run.trace_of_result (h : run.result = .ok result) : result.trace = run.steps.map .halving := by
  obtain ⟨steps, ending⟩ := run
  cases ending <;> cases h <;> rfl

/-- Only a run that uses up its budget is reported to have done so. -/
lemma Run.maxIterationsReached_iff :
    (∃ result, run.result = .ok result ∧ result.diagnostic = some .maxIterationsReached) ↔
      ∃ midpoint, run.ending = .exhausted midpoint := by
  obtain ⟨steps, ending⟩ := run
  cases ending <;> simp [Run.result]

end Results

variable [Arithmetic α]

/-- With a larger budget halving takes the same steps and maybe goes on behind them. -/
lemma halve_extends (f : α → Except ε α) (tol : α) (first budget more : ℕ) (start : Bracket α) :
    Extends budget (halve f tol first budget start) (halve f tol first (budget + more) start) := by
  induction budget generalizing first start with
  | zero => exact .exhausted rfl rfl List.nil_prefix
  | succ budget ih =>
    rw [Nat.succ_add, halve_succ, halve_succ]
    cases f start.midpoint with
    | error error => exact .ended (fun _ h => by cases h) rfl
    | ok value =>
      dsimp only
      split
      case isTrue => exact .ended (fun _ h => by cases h) rfl
      case isFalse => exact (ih (first + 1) (start.half value)).after _

/-- With a larger budget a bisection takes the same steps and maybe goes on behind them. -/
lemma run_extends (f : α → Except ε α) (a b tol : α) (budget more : ℕ) :
    Extends budget (run f a b tol budget) (run f a b tol (budget + more)) := by
  rw [run_eq, run_eq]
  cases f a with
  | error error => exact .ended (fun _ h => by cases h) rfl
  | ok atA =>
    cases f b with
    | error error => exact .ended (fun _ h => by cases h) rfl
    | ok atB =>
      dsimp only
      split
      case isTrue => exact .ended (fun _ h => by cases h) rfl
      case isFalse =>
        split
        case isTrue => exact .ended (fun _ h => by cases h) rfl
        case isFalse =>
          split
          case isTrue => exact .ended (fun _ h => by cases h) rfl
          case isFalse => exact halve_extends f tol 1 budget more _

/-- The budget plays no part in whether a bisection starts. -/
lemma start_cases (f : α → Except ε α) (a b tol : α) :
    (∃ error, ∀ budget, start f a b tol budget = .error error) ∨
      ∀ budget, start f a b tol budget = .ok (run f a b tol budget) := by
  unfold start
  cases checkInput a b tol with
  | error error => exact .inl ⟨error, fun _ => rfl⟩
  | ok => exact .inr fun _ => rfl

end Bisection

/-- A larger budget only extends a bisection. If the bisection fails, or ends otherwise than by using up
its budget, nothing changes, not even its messages. If it uses up its budget, its steps are the first
ones of every longer bisection that does not fail at a point without a value. -/
theorem bisect_extends (f : ScalarFunction) (a b tol : Float) {m n : ℕ} (le : m ≤ n) :
    ((∀ result, (bisect f a b tol m).run.result = .ok result →
        result.diagnostic ≠ some .maxIterationsReached) →
      (bisect f a b tol n).run = (bisect f a b tol m).run) ∧
    ∀ short, (bisect f a b tol m).run.result = .ok short →
      short.diagnostic = some .maxIterationsReached →
        (∃ error, (bisect f a b tol n).run.result = .error (.eval error)) ∨
          ∃ long, (bisect f a b tol n).run.result = .ok long ∧ short.trace.length = m ∧
            long.trace.take m = short.trace := by
  obtain ⟨more, rfl⟩ := Nat.exists_eq_add_of_le le
  rcases Bisection.start_cases f.value a b tol with ⟨error, stops⟩ | starts
  · rw [bisect_eq_conclude, bisect_eq_conclude, stops, stops]
    exact ⟨fun _ => rfl, nofun⟩
  have searched (budget : ℕ) : (bisect f a b tol budget).run.result =
      (Bisection.run f.value a b tol budget).result.mapError .eval := by
    rw [bisect_eq_conclude, starts]
    rfl
  have extended := Bisection.run_extends f.value a b tol m more
  constructor
  · intro unspent
    cases extended with
    | ended _ same => rw [bisect_eq_conclude, bisect_eq_conclude, starts, starts, same]
    | exhausted used _ _ =>
      obtain ⟨result, h, spent⟩ := Bisection.Run.maxIterationsReached_iff.mpr ⟨_, used⟩
      exact absurd spent (unspent result (by rw [searched, h]; rfl))
  · intro short h spent
    rw [searched, mapError_eq_ok_iff] at h
    rw [searched]
    cases extended with
    | ended unused _ =>
      obtain ⟨midpoint, used⟩ := Bisection.Run.maxIterationsReached_iff.mp ⟨short, h, spent⟩
      exact absurd used (unused midpoint)
    | exhausted _ length begins =>
      -- The longer run can still fail where the function has no value. Otherwise it has taken these steps.
      cases e : (Bisection.run f.value a b tol (m + more)).result with
      | error error => exact .inl ⟨error, rfl⟩
      | ok long =>
        have length' : short.trace.length = m := by
          rw [Bisection.Run.trace_of_result h, List.length_map, length]
        refine .inr ⟨long, rfl, length', ?_⟩
        rw [← length', Bisection.Run.trace_of_result h, Bisection.Run.trace_of_result e]
        exact (List.prefix_iff_eq_take.mp (begins.map _)).symm

/-- The bisection of the jump takes four steps. With a budget of two the first two of them are taken, and
with a budget of four nothing is left for a larger one. -/
theorem bisect_jump_extends :
    (∃ short long, (bisect jump 0.0 1.0 0.1 2).run.result = .ok short ∧
      short.diagnostic = some .maxIterationsReached ∧
      (bisect jump 0.0 1.0 0.1 10).run.result = .ok long ∧ long.trace.take 2 = short.trace) ∧
    (bisect jump 0.0 1.0 0.1 10).run = (bisect jump 0.0 1.0 0.1 4).run := by
  obtain ⟨short, h, spent⟩ : ∃ short, (bisect jump 0.0 1.0 0.1 2).run.result = .ok short ∧
      short.diagnostic = some .maxIterationsReached := toOption_map_eq_some_iff.mp (by decide +kernel)
  obtain ⟨result, found, unspent⟩ : ∃ result, (bisect jump 0.0 1.0 0.1 4).run.result = .ok result ∧
      result.diagnostic = none := toOption_map_eq_some_iff.mp (by decide +kernel)
  have same := (bisect_extends jump 0.0 1.0 0.1 (show 4 ≤ 10 by decide)).1 <| by
    rintro result' h'
    cases found.symm.trans h'
    rw [unspent]
    exact nofun
  rcases (bisect_extends jump 0.0 1.0 0.1 (show 2 ≤ 10 by decide)).2 short h spent with
    ⟨error, failed⟩ | ⟨long, h', -, begins⟩
  · rw [same, found] at failed
    cases failed
  · exact ⟨⟨short, long, h, spent, h', begins⟩, same⟩

/-- A step whose number is higher by some count. -/
def Tangent.renumber (count : ℕ) (step : Tangent α) : Tangent α :=
  { step with iteration := step.iteration + count }

/-- A step of some method whose number is higher by some count. -/
def Step.renumber (count : ℕ) : Step α → Step α
  | .halving step => .halving { step with iteration := step.iteration + count }
  | .tangent step => .tangent (step.renumber count)

/-- The result of a search that stopped and then went on: the later search counts on from the earlier
one, and its first point is the last one of the earlier search. -/
def Result.resume (earlier later : Result α) : Result α :=
  { later with
    iterations := earlier.iterations + later.iterations
    trace := earlier.trace ++ later.trace.map (Step.renumber earlier.iterations)
    history := earlier.history ++ later.history.tail }

namespace Newton

/-- A run whose steps are numbered higher by some count. -/
def Run.renumber (count : ℕ) (run : Run ε α) : Run ε α :=
  { run with steps := run.steps.map (Tangent.renumber count) }

/-- Steps in front of a run. -/
lemma foldr_after_eq (steps : List (Tangent α)) (run : Run ε α) :
    steps.foldr Run.after run = { run with steps := steps ++ run.steps } := by
  induction steps with
  | nil => rfl
  | cons step steps ih =>
    rw [List.foldr_cons, ih]
    rfl

/-- The budget is reported as used up exactly by a run that ends for that reason. -/
lemma Run.maxIterationsReached_iff {run : Run ε α} {x : α} :
    (∃ result, run.result x = .ok result ∧ result.diagnostic = some .maxIterationsReached) ↔
      ∃ last, run.ending = .exhausted last := by
  obtain ⟨steps, ending⟩ := run
  cases ending <;> simp [Run.result]

/-- The history of a result begins with the first guess. -/
lemma Run.head?_history {run : Run ε α} {x : α} {result : Result α} (h : run.result x = .ok result) :
    result.history.head? = some x := by
  obtain ⟨steps, ending⟩ := run
  cases ending <;> cases h <;> rfl

/-- The result of a run that used up its budget. -/
lemma Run.result_of_exhausted {run : Run ε α} {x last : α} (h : run.ending = .exhausted last) :
    run.result x = .ok
      { method := .newton, root := some last, iterations := run.steps.length, converged := false
        trace := run.steps.map .tangent, history := x :: run.steps.map Tangent.next
        diagnostic := some .maxIterationsReached } := by
  rw [Run.result, h]
  rfl

/-- The steps of a run that used up its budget, in front of a later run: the result is that of the later
run, resumed after the earlier one. -/
lemma Run.result_resumed {early : Run ε α} {x last : α} {earlier : Result α}
    (used : early.ending = .exhausted last) (h : early.result x = .ok earlier) (run : Run ε α) :
    (early.steps.foldr Run.after (run.renumber early.steps.length)).result x =
      (run.result last).map earlier.resume := by
  obtain ⟨steps, ending⟩ := early
  cases used
  cases h
  -- Whatever the root and the diagnostic are, the other parts of the result are put together.
  have made (root : α) (diagnostic : Option Diagnostic) :
      { method := .newton, root := some root
        iterations := (steps ++ run.steps.map (Tangent.renumber steps.length)).length
        converged := diagnostic.isNone
        trace := (steps ++ run.steps.map (Tangent.renumber steps.length)).map .tangent
        history := x :: (steps ++ run.steps.map (Tangent.renumber steps.length)).map Tangent.next
        diagnostic } =
      Result.resume
        { method := .newton, root := some last, iterations := steps.length, converged := false
          trace := steps.map .tangent, history := x :: steps.map Tangent.next
          diagnostic := some .maxIterationsReached }
        { method := .newton, root := some root, iterations := run.steps.length
          converged := diagnostic.isNone, trace := run.steps.map .tangent
          history := last :: run.steps.map Tangent.next, diagnostic } := by
    rw [Result.resume, List.length_append, List.length_map, List.map_append, List.map_append,
      List.map_map, List.map_map, List.map_map]
    rfl
  obtain ⟨later, ending⟩ := run
  rw [foldr_after_eq]
  cases ending with
  | found root => exact congrArg Except.ok (made root none)
  | flat x slope => exact congrArg Except.ok (made x (some .derivativeNearZero))
  | diverged x => exact congrArg Except.ok (made x (some .diverged))
  | exhausted x => exact congrArg Except.ok (made x (some .maxIterationsReached))
  | failed error => rfl

variable [Arithmetic α]

/-- The number of the first step plays no part in a run, apart from the numbers of all steps. -/
lemma iterate_renumber (f : α → Except ε α) (tol : α) (first count budget : ℕ) (x : α) :
    iterate f tol (first + count) budget x = (iterate f tol first budget x).renumber count := by
  induction budget generalizing first x with
  | zero => rfl
  | succ budget ih =>
    rw [iterate_succ, iterate_succ]
    cases f x with
    | error error => rfl
    | ok value =>
      cases derivative f x with
      | error error => rfl
      | ok slope =>
        dsimp only
        split
        case isTrue => rfl
        case isFalse =>
          split
          case isFalse => rfl
          case isTrue =>
            split
            case isTrue => rfl
            case isFalse =>
              rw [Nat.add_right_comm, ih]
              rfl

/-- A run that does not use up its budget is the same with a larger one. -/
lemma iterate_of_ended {f : α → Except ε α} {tol x : α} {first budget : ℕ}
    (unused : ∀ last, (iterate f tol first budget x).ending ≠ .exhausted last) (more : ℕ) :
    iterate f tol first (budget + more) x = iterate f tol first budget x := by
  induction budget generalizing first x with
  | zero => exact absurd rfl (unused x)
  | succ budget ih =>
    rw [Nat.succ_add]
    rw [iterate_succ] at unused ⊢
    rw [iterate_succ]
    cases e : f x with
    | error error => rfl
    | ok value =>
      cases e' : derivative f x with
      | error error => rfl
      | ok slope =>
        rw [e, e'] at unused
        dsimp only at unused ⊢
        split
        case isTrue => rfl
        case isFalse steep =>
          rw [if_neg steep] at unused
          split
          case isFalse => rfl
          case isTrue finite =>
            rw [if_pos finite] at unused
            split
            case isTrue => rfl
            case isFalse far =>
              rw [if_neg far] at unused
              rw [ih unused]

/-- A run that uses up its budget at a point goes on from there with what a larger budget adds. -/
lemma iterate_of_exhausted {f : α → Except ε α} {tol x last : α} {budget : ℕ}
    (used : (iterate f tol 1 budget x).ending = .exhausted last) :
    (iterate f tol 1 budget x).steps.length = budget ∧
      (x :: (iterate f tol 1 budget x).steps.map Tangent.next).getLast? = some last ∧
      (Arithmetic.isFinite x = true → Arithmetic.isFinite last = true) ∧
      ∀ more, iterate f tol 1 (budget + more) x =
        (iterate f tol 1 budget x).steps.foldr Run.after
          ((iterate f tol 1 more last).renumber budget) := by
  have ends := iterate_spec f tol 1 budget x
  rw [used] at ends
  cases ends with
  | exhausted path unmet length =>
    refine ⟨length, path.getLast?, fun hx => ?_, fun more => ?_⟩
    · exact path.finite hx last (List.mem_of_getLast? path.getLast?)
    · have split := path.iterate unmet more
      rw [length, iterate_renumber] at split
      exact split

/-- A run that starts at a finite point starts whatever its budget is. -/
lemma start_cases (f : α → Except ε α) (x tol : α) :
    (∃ error, ∀ budget, start f x tol budget = .error error) ∨
      Arithmetic.isFinite x = true ∧ ∀ y, Arithmetic.isFinite y = true →
        ∀ budget, start f y tol budget = .ok (iterate f tol 1 budget y) := by
  have guess {y : α} (hy : Arithmetic.isFinite y = true) : checkGuess y = .ok () := if_pos hy
  unfold start checkInput
  by_cases hx : Arithmetic.isFinite x = true
  case neg =>
    have refused : checkGuess x = .error (.guess x) := if_neg hx
    rw [refused]
    exact .inl ⟨.guess x, fun _ => rfl⟩
  case pos =>
    rw [guess hx]
    cases checkTolerance tol with
    | error error => exact .inl ⟨error, fun _ => rfl⟩
    | ok =>
      refine .inr ⟨hx, fun y hy budget => ?_⟩
      rw [guess hy]
      rfl

end Newton

/-- A search by Newton's method can be stopped and resumed. If it fails, or ends otherwise than by using
up its budget, a larger budget changes nothing, not even the messages. If it uses up its budget, it goes
on from its last point as from a guess: a search with a larger budget has the result, or the error, of a
search from there with what the budget is larger by, resumed after the steps already taken. -/
theorem newton_resumes (f : ScalarFunction) (x tol : Float) (m n : ℕ) :
    ((∀ result, (newton f x tol m).run.result = .ok result →
        result.diagnostic ≠ some .maxIterationsReached) →
      (newton f x tol (m + n)).run = (newton f x tol m).run) ∧
    ∀ earlier, (newton f x tol m).run.result = .ok earlier →
      earlier.diagnostic = some .maxIterationsReached →
        ∃ last, earlier.root = some last ∧ earlier.history.getLast? = some last ∧
          earlier.iterations = m ∧ earlier.trace.length = m ∧
          (∀ later, (newton f last tol n).run.result = .ok later →
            later.history.head? = some last) ∧
          (newton f x tol (m + n)).run.result =
            (newton f last tol n).run.result.map earlier.resume := by
  rcases Newton.start_cases f.value x tol with ⟨error, stops⟩ | ⟨hx, starts⟩
  · rw [newton_eq_conclude, newton_eq_conclude, stops, stops]
    exact ⟨fun _ => rfl, nofun⟩
  have searched {y : Float} (hy : y.isFinite = true) (budget : ℕ) :
      (newton f y tol budget).run.result =
        ((Newton.iterate f.value tol 1 budget y).result y).mapError .eval := by
    rw [newton_eq_conclude, starts y hy]
    rfl
  constructor
  · intro unspent
    -- A run that ends before its budget is used up does not see how large the budget is.
    have unused (last : Float) :
        (Newton.iterate f.value tol 1 m x).ending ≠ .exhausted last := by
      intro used
      obtain ⟨result, h, spent⟩ := Newton.Run.maxIterationsReached_iff.mpr ⟨last, used⟩
      exact unspent result (by rw [searched hx, h]; rfl) spent
    rw [newton_eq_conclude, newton_eq_conclude, starts x hx, starts x hx,
      Newton.iterate_of_ended unused]
  · intro earlier h spent
    rw [searched hx, mapError_eq_ok_iff] at h
    obtain ⟨last, used⟩ := Newton.Run.maxIterationsReached_iff.mp ⟨earlier, h, spent⟩
    -- Behind the first `m` steps the run is one from the last point, with higher numbers for its steps.
    obtain ⟨length, ends, finite, split⟩ := Newton.iterate_of_exhausted used
    have resumed :=
      Newton.Run.result_resumed used h (Newton.iterate f.value tol 1 n last)
    rw [length, ← split] at resumed
    have together : (newton f x tol (m + n)).run.result =
        (newton f last tol n).run.result.map earlier.resume := by
      rw [searched hx, searched (finite hx), resumed]
      cases (Newton.iterate f.value tol 1 n last).result last <;> rfl
    rw [Newton.Run.result_of_exhausted used] at h
    cases h
    refine ⟨last, rfl, ends, length, (List.length_map _).trans length, fun later h => ?_, together⟩
    rw [searched (finite hx), mapError_eq_ok_iff] at h
    exact Newton.Run.head?_history h

/-- The search for the root of the parabola can be stopped after two of its four steps. -/
theorem newton_parabola_resumes :
    ∃ earlier last, (newton parabola 1.0 1e-4 2).run.result = .ok earlier ∧
      earlier.diagnostic = some .maxIterationsReached ∧ earlier.root = some last ∧
      (newton parabola 1.0 1e-4 10).run.result =
        (newton parabola last 1e-4 8).run.result.map earlier.resume ∧
      (newton parabola 1.0 1e-4 10).run = (newton parabola 1.0 1e-4 4).run := by
  obtain ⟨earlier, h, spent⟩ : ∃ earlier, (newton parabola 1.0 1e-4 2).run.result = .ok earlier ∧
      earlier.diagnostic = some .maxIterationsReached := toOption_map_eq_some_iff.mp (by decide +kernel)
  obtain ⟨result, found, unspent⟩ : ∃ result, (newton parabola 1.0 1e-4 4).run.result = .ok result ∧
      result.diagnostic = none := toOption_map_eq_some_iff.mp (by decide +kernel)
  obtain ⟨last, root, -, -, -, -, resumed⟩ := (newton_resumes parabola 1.0 1e-4 2 8).2 earlier h spent
  refine ⟨earlier, last, h, spent, root, resumed, (newton_resumes parabola 1.0 1e-4 4 6).1 ?_⟩
  rintro result' h'
  cases found.symm.trans h'
  rw [unspent]
  exact nofun

end Stepwise.Root
