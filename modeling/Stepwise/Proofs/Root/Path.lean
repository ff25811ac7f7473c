import Stepwise.Proofs.Double
import Stepwise.Proofs.Outcome
import Stepwise.Proofs.Root.Watching
import Mathlib.Data.List.Basic

/-!
# The path of Newton's method

Every step of Newton's method starts where the step before it led, so the steps of a run are a path
through the points visited. The run ends at the last point of its path: because the last step was short
enough, because no step can be taken from there, because no iteration is left, or because the function
has no value at a point that is asked for. Of such points the first one decides about the error.
-/

namespace Stepwise.Root

variable {ε α : Type} [Arithmetic α]

/-- A step that the method may take. The value and the slope are those of the function at the point, the
slope is not too small, and the next point is finite and where the tangent is zero. -/
structure Tangent.Taken (f : α → Except ε α) (step : Tangent α) : Prop where
  value : f step.x = .ok step.value
  slope : centralDifference f step.x 1e-6 = .ok step.slope
  steep : ¬ Arithmetic.magnitude step.slope < 1e-10
  next : step.next = step.x - step.value / step.slope
  finite : Arithmetic.isFinite step.next = true

namespace Newton

/-- The test for the end of Newton's method: the step is shorter than the tolerance. -/
def StopTest (tol : α) (step : Tangent α) : Prop :=
  Arithmetic.magnitude (step.next - step.x) < tol

/-- The points at which the function is asked for its value in order to leave a point. -/
def probes (x : α) : List α :=
  [x, x + 1e-6, x - 1e-6]

/-- The error at the first of some points where the function has no value. -/
def firstFailure? (f : α → Except ε α) (points : List α) : Option ε :=
  points.findSome? fun point =>
    match f point with
    | .error error => some error
    | .ok _ => none

/-- Steps from a first point to a last one, numbered from `first` on. -/
inductive Path (f : α → Except ε α) : Nat → α → List (Tangent α) → α → Prop where
  | nil {first : Nat} {x : α} : Path f first x [] x
  | cons {first : Nat} {x last : α} {step : Tangent α} {steps : List (Tangent α)} :
    step.iteration = first → step.x = x → step.Taken f →
    Path f (first + 1) step.next steps last → Path f first x (step :: steps) last

namespace Path

variable {f : α → Except ε α} {first : Nat} {x last : α} {steps : List (Tangent α)}

/-- The steps of a path are numbered one after the other. -/
lemma iteration (path : Path f first x steps last) (i : Nat) (h : i < steps.length) :
    steps[i].iteration = first + i := by
  induction path generalizing i with
  | nil => cases h
  | cons number _ _ _ ih =>
    cases i with
    | zero => exact number
    | succ i =>
      have h' := ih i (Nat.lt_of_succ_lt_succ h)
      rw [List.getElem_cons_succ, h']
      omega

/-- Every step of a path may be taken. -/
lemma taken (path : Path f first x steps last) : ∀ step ∈ steps, step.Taken f := by
  induction path with
  | nil => exact nofun
  | cons _ _ taken _ ih => exact List.forall_mem_cons.mpr ⟨taken, ih⟩

/-- Each step starts where the one before it has led. -/
lemma point (path : Path f first x steps last) (i : Nat) (h : i < steps.length) :
    (x :: steps.map Tangent.next)[i]? = some steps[i].x := by
  induction path generalizing i with
  | nil => cases h
  | cons _ start _ _ ih =>
    cases i with
    | zero => exact congrArg some start.symm
    | succ i => exact ih i (Nat.lt_of_succ_lt_succ h)

/-- A path ends where its last step has led. -/
lemma getLast? (path : Path f first x steps last) :
    (x :: steps.map Tangent.next).getLast? = some last := by
  induction path with
  | nil => rfl
  | cons _ _ _ _ ih => rw [List.map_cons, List.getLast?_cons_cons, ih]

/-- A path from a finite point has only finite points. -/
lemma finite (path : Path f first x steps last) (hx : Arithmetic.isFinite x = true) :
    ∀ y ∈ x :: steps.map Tangent.next, Arithmetic.isFinite y = true := by
  refine List.forall_mem_cons.mpr ⟨hx, fun y hy => ?_⟩
  obtain ⟨step, hs, rfl⟩ := List.mem_map.mp hy
  exact (path.taken step hs).finite

end Path

omit [Arithmetic α] in
/-- The first failure is at the first point, or among the others. -/
lemma firstFailure?_cons (f : α → Except ε α) (point : α) (points : List α) :
    firstFailure? f (point :: points) =
      match f point with
      | .error error => some error
      | .ok _ => firstFailure? f points := by
  rw [firstFailure?, List.findSome?_cons]
  cases f point <;> rfl

/-- The function has no value at one of the probes of a point exactly if it has none at the point itself,
or has one there but no slope. -/
lemma firstFailure?_probes_eq_some_iff {f : α → Except ε α} {x : α} {error : ε} :
    firstFailure? f (probes x) = some error ↔
      f x = .error error ∨ ∃ value, f x = .ok value ∧ derivative f x = .error error := by
  rw [probes, firstFailure?_cons, firstFailure?_cons, firstFailure?_cons, derivative,
    centralDifference]
  cases f x with
  | error e => simp
  | ok value =>
    cases f (x + 1e-6) with
    | error e => simp [bind, Except.bind]
    | ok forward =>
      cases f (x - 1e-6) with
      | error e => simp [bind, Except.bind]
      | ok backward => simp [bind, Except.bind, pure, Except.pure, firstFailure?]

/-- A point with a value and a slope has no failing probe. -/
lemma firstFailure?_probes_eq_none {f : α → Except ε α} {x value slope : α}
    (hv : f x = .ok value) (hs : derivative f x = .ok slope) : firstFailure? f (probes x) = none := by
  cases e : firstFailure? f (probes x) with
  | none => rfl
  | some error =>
    rcases firstFailure?_probes_eq_some_iff.mp e with h | ⟨_, _, h⟩
    · rw [hv] at h
      cases h
    · rw [hs] at h
      cases h

/-- Along a path the function has all values that are asked for, until the last point. -/
lemma Path.firstFailure? {f : α → Except ε α} {first : Nat} {x last : α} {steps : List (Tangent α)}
    (path : Path f first x steps last) :
    Newton.firstFailure? f ((x :: steps.map Tangent.next).flatMap probes) =
      Newton.firstFailure? f (probes last) := by
  induction path with
  | nil => rw [List.map_nil, List.flatMap_singleton]
  | cons _ start taken _ ih =>
    have none := firstFailure?_probes_eq_none taken.value taken.slope
    rw [start] at none
    rw [List.flatMap_cons, Newton.firstFailure?, List.findSome?_append]
    rw [Newton.firstFailure?] at none
    rw [none, Option.none_or]
    exact ih

/-- How a run can end after some steps of which none but the last is short enough. -/
inductive Ends (f : α → Except ε α) (tol : α) (budget first : Nat) (x : α)
    (steps : List (Tangent α)) : Ending ε α → Prop where
  | found {last : α} {step : Tangent α} : Path f first x steps last → steps.getLast? = some step →
    StopTest tol step → (∀ step ∈ steps.dropLast, ¬ StopTest tol step) → steps.length ≤ budget →
    Ends f tol budget first x steps (.found last)
  | flat {last slope : α} : Path f first x steps last → (∀ step ∈ steps, ¬ StopTest tol step) →
    steps.length < budget → derivative f last = .ok slope →
    Arithmetic.magnitude slope < 1e-10 → Ends f tol budget first x steps (.flat last slope)
  | diverged {last value slope : α} : Path f first x steps last →
    (∀ step ∈ steps, ¬ StopTest tol step) → steps.length < budget → f last = .ok value →
    derivative f last = .ok slope → Arithmetic.isFinite (last - value / slope) = false →
    Ends f tol budget first x steps (.diverged last)
  | exhausted {last : α} : Path f first x steps last → (∀ step ∈ steps, ¬ StopTest tol step) →
    steps.length = budget → Ends f tol budget first x steps (.exhausted last)
  | failed {last : α} {error : ε} : Path f first x steps last →
    (∀ step ∈ steps, ¬ StopTest tol step) → steps.length < budget →
    firstFailure? f (probes last) = some error → Ends f tol budget first x steps (.failed error)

/-- A step in front that is not short enough does not change how a run ends. -/
lemma Ends.cons {f : α → Except ε α} {tol : α} {budget : Nat} {step : Tangent α}
    {steps : List (Tangent α)} {ending : Ending ε α}
    (ends : Ends f tol budget (step.iteration + 1) step.next steps ending) (taken : step.Taken f)
    (goes_on : ¬ StopTest tol step) :
    Ends f tol (budget + 1) step.iteration step.x (step :: steps) ending := by
  cases ends with
  | found path last meets unmet length =>
    refine .found (.cons rfl rfl taken path) ?_ meets ?_ (Nat.succ_le_succ length)
    · rw [List.getLast?_cons, last]
      rfl
    · cases steps with
      | nil => cases last
      | cons next rest => exact List.forall_mem_cons.mpr ⟨goes_on, unmet⟩
  | flat path unmet length slope small =>
    exact .flat (.cons rfl rfl taken path) (List.forall_mem_cons.mpr ⟨goes_on, unmet⟩)
      (Nat.succ_lt_succ length) slope small
  | diverged path unmet length value slope infinite =>
    exact .diverged (.cons rfl rfl taken path) (List.forall_mem_cons.mpr ⟨goes_on, unmet⟩)
      (Nat.succ_lt_succ length) value slope infinite
  | exhausted path unmet length =>
    exact .exhausted (.cons rfl rfl taken path) (List.forall_mem_cons.mpr ⟨goes_on, unmet⟩)
      (congrArg Nat.succ length)
  | failed path unmet length error =>
    exact .failed (.cons rfl rfl taken path) (List.forall_mem_cons.mpr ⟨goes_on, unmet⟩)
      (Nat.succ_lt_succ length) error

/-- Iterating records a path, and ends as it can. -/
lemma iterate_spec (f : α → Except ε α) (tol : α) (first budget : Nat) (x : α) :
    Ends f tol budget first x (iterate f tol first budget x).steps
      (iterate f tol first budget x).ending := by
  -- On the budget: a step that does not end the run is put in front of the path behind it.
  induction budget generalizing first x with
  | zero => exact .exhausted .nil nofun rfl
  | succ budget ih =>
    rw [iterate_succ]
    split
    case h_1 error e =>
      exact .failed .nil nofun (Nat.succ_pos _) (firstFailure?_probes_eq_some_iff.mpr (.inl e))
    case h_2 value e =>
      split
      case h_1 error e' =>
        refine .failed .nil nofun (Nat.succ_pos _) ?_
        exact firstFailure?_probes_eq_some_iff.mpr (.inr ⟨value, e, e'⟩)
      case h_2 slope e' =>
        split
        case isTrue small => exact .flat .nil nofun (Nat.succ_pos _) e' small
        case isFalse steep =>
          simp only
          split
          case isFalse infinite =>
            exact .diverged .nil nofun (Nat.succ_pos _) e e' (eq_false_of_ne_true infinite)
          case isTrue finite =>
            let step : Tangent α :=
              { iteration := first, x, value, slope, next := x - value / slope }
            have taken : step.Taken f := ⟨e, e', steep, rfl, finite⟩
            split
            case isTrue meets =>
              exact .found (.cons rfl rfl taken .nil) rfl meets nofun
                (Nat.succ_le_succ (Nat.zero_le _))
            case isFalse far => exact (ih (first + 1) step.next).cons taken far

/-- A run takes the step that can be taken, and goes on from there if the step is not short enough. -/
lemma iterate_of_taken {f : α → Except ε α} {tol : α} {step : Tangent α} (taken : step.Taken f)
    (goes_on : ¬ StopTest tol step) (budget : Nat) :
    iterate f tol step.iteration (budget + 1) step.x =
      (iterate f tol (step.iteration + 1) budget step.next).after step := by
  obtain ⟨iteration, x, value, slope, next⟩ := step
  obtain ⟨hv, hs, steep, hn, finite⟩ := taken
  replace hv : f x = .ok value := hv
  replace hs : derivative f x = .ok slope := hs
  replace hn : next = x - value / slope := hn
  subst hn
  have far : ¬ Arithmetic.magnitude (x - value / slope - x) < tol := goes_on
  simp only [iterate_succ, hv, hs]
  rw [if_neg (show ¬ Arithmetic.magnitude slope < flatness from steep), if_pos finite, if_neg far]

/-- A run with budget enough follows a path of steps that are not short enough. -/
lemma Path.iterate {f : α → Except ε α} {tol : α} {first : Nat} {x last : α}
    {steps : List (Tangent α)} (path : Path f first x steps last)
    (unmet : ∀ step ∈ steps, ¬ StopTest tol step) (budget : Nat) :
    Newton.iterate f tol first (steps.length + budget) x =
      steps.foldr Run.after (Newton.iterate f tol (first + steps.length) budget last) := by
  induction path with
  | nil => rw [List.length_nil, Nat.zero_add, List.foldr_nil, Nat.add_zero]
  | @cons first x last step steps number start taken _ ih =>
    subst number
    subst start
    obtain ⟨goes_on, unmet⟩ := List.forall_mem_cons.mp unmet
    have later : step.iteration + (steps.length + 1) = step.iteration + 1 + steps.length := by omega
    rw [List.length_cons, Nat.succ_add, iterate_of_taken taken goes_on, ih unmet, List.foldr_cons, later]

omit [Arithmetic α] in
/-- Steps in front do not change the ending. -/
lemma ending_foldr_after (steps : List (Tangent α)) (run : Run ε α) :
    (steps.foldr Run.after run).ending = run.ending := by
  induction steps with
  | nil => rfl
  | cons step steps ih => exact ih

/-- A run stops with the error at the first probe, along its path, where the function has no value. -/
lemma iterate_failed_iff {f : α → Except ε α} {tol x : α} {first budget : Nat} {error : ε} :
    (iterate f tol first budget x).ending = .failed error ↔
      ∃ steps last, Path f first x steps last ∧ (∀ step ∈ steps, ¬ StopTest tol step) ∧
        steps.length < budget ∧
        firstFailure? f ((x :: steps.map Tangent.next).flatMap probes) = some error := by
  constructor
  · intro h
    have ends := iterate_spec f tol first budget x
    rw [h] at ends
    cases ends with
    | failed path unmet length failure =>
      exact ⟨_, _, path, unmet, length, path.firstFailure?.trans failure⟩
  · rintro ⟨steps, last, path, unmet, length, failure⟩
    rw [path.firstFailure?] at failure
    obtain ⟨left, rfl⟩ := Nat.exists_eq_add_of_lt length
    rw [Nat.add_assoc, path.iterate unmet, ending_foldr_after, iterate_succ]
    rcases firstFailure?_probes_eq_some_iff.mp failure with e | ⟨value, e, e'⟩
    · rw [e]
      rfl
    · rw [e]
      simp only
      rw [e']
      rfl

/-- What a result keeps of a run from a point, given the steps of the run. -/
structure Recorded (f : α → Except ε α) (x : α) (steps : List (Tangent α)) (result : Result α) :
    Prop where
  method : result.method = .newton
  trace : result.trace = steps.map .tangent
  history : result.history = x :: steps.map Tangent.next
  iteration : ∀ i (h : i < steps.length), steps[i].iteration = i + 1
  point : ∀ i (h : i < steps.length), result.history[i]? = some steps[i].x
  taken : ∀ step ∈ steps, step.Taken f
  iterations : result.iterations = result.trace.length
  finite : ∀ y ∈ result.history, Arithmetic.isFinite y = true
  root : ∃ root, result.root = some root ∧ result.history.getLast? = some root ∧
    Arithmetic.isFinite root = true

/-- What a result says about a run from a point: what it keeps of the run, and how that ended. -/
structure Coherent (f : α → Except ε α) (x tol : α) (budget : Nat) (steps : List (Tangent α))
    (result : Result α) : Prop extends Recorded f x steps result where
  within : result.iterations ≤ budget
  unstopped : ∀ step ∈ steps.dropLast, ¬ StopTest tol step
  converged_iff : result.converged = true ↔ result.diagnostic = none
  converged_iff_stopTest : result.converged = true ↔ ∃ step ∈ steps.getLast?, StopTest tol step
  bracketless : result.diagnostic ≠ some .noSignChange
  flat : result.diagnostic = some .derivativeNearZero → ∃ root slope, result.root = some root ∧
    centralDifference f root 1e-6 = .ok slope ∧ Arithmetic.magnitude slope < 1e-10
  diverged : result.diagnostic = some .diverged → ∃ root value slope, result.root = some root ∧
    f root = .ok value ∧ centralDifference f root 1e-6 = .ok slope ∧
    Arithmetic.isFinite (root - value / slope) = false
  exhausted : result.diagnostic = some .maxIterationsReached → result.iterations = budget

/-- The result of a run keeps its path. -/
lemma Path.recorded {f : α → Except ε α} {x last : α} {steps : List (Tangent α)}
    (path : Path f 1 x steps last) (hx : Arithmetic.isFinite x = true) (converged : Bool)
    (diagnostic : Option Diagnostic) :
    Recorded f x steps
      { method := .newton, root := some last, iterations := steps.length, converged
        trace := steps.map .tangent, history := x :: steps.map Tangent.next, diagnostic } where
  method := rfl
  trace := rfl
  history := rfl
  iteration i h := (path.iteration i h).trans (Nat.add_comm 1 i)
  point := path.point
  taken := path.taken
  iterations := (List.length_map _).symm
  finite := path.finite hx
  root := ⟨last, rfl, path.getLast?, path.finite hx last (List.mem_of_getLast? path.getLast?)⟩

omit [Arithmetic α] in
/-- No last step meets a test that no step meets. -/
lemma not_exists_getLast? {steps : List (Tangent α)} {test : Tangent α → Prop}
    (unmet : ∀ step ∈ steps, ¬ test step) : ¬ ∃ step ∈ steps.getLast?, test step :=
  fun ⟨step, last, meets⟩ => unmet step (List.mem_of_getLast? last) meets

/-- A run that has a result ends in a coherent one. -/
lemma iterate_result_spec {f : α → Except ε α} {x tol : α} {budget : Nat} {result : Result α}
    (hx : Arithmetic.isFinite x = true) (h : (iterate f tol 1 budget x).result x = .ok result) :
    ∃ steps, Coherent f x tol budget steps result := by
  have ends := iterate_spec f tol 1 budget x
  generalize iterate f tol 1 budget x = run at h ends
  obtain ⟨steps, ending⟩ := run
  have unmet_dropLast {test : Tangent α → Prop} (unmet : ∀ step ∈ steps, ¬ test step) :
      ∀ step ∈ steps.dropLast, ¬ test step := fun step hs =>
    unmet step (List.dropLast_subset steps hs)
  cases ends with
  | found path last meets unmet length =>
    cases h
    exact ⟨steps, path.recorded hx true none, length, unmet, ⟨fun _ => rfl, fun _ => rfl⟩,
      ⟨fun _ => ⟨_, last, meets⟩, fun _ => rfl⟩, nofun, nofun, nofun, nofun⟩
  | flat path unmet length slope small =>
    cases h
    exact ⟨steps, path.recorded hx false _, Nat.le_of_lt length, unmet_dropLast unmet,
      ⟨nofun, nofun⟩, ⟨nofun, fun stopped => absurd stopped (not_exists_getLast? unmet)⟩, nofun,
      fun _ => ⟨_, _, rfl, slope, small⟩, nofun, nofun⟩
  | diverged path unmet length value slope infinite =>
    cases h
    exact ⟨steps, path.recorded hx false _, Nat.le_of_lt length, unmet_dropLast unmet,
      ⟨nofun, nofun⟩, ⟨nofun, fun stopped => absurd stopped (not_exists_getLast? unmet)⟩, nofun, nofun,
      fun _ => ⟨_, _, _, rfl, value, slope, infinite⟩, nofun⟩
  | exhausted path unmet length =>
    cases h
    exact ⟨steps, path.recorded hx false _, Nat.le_of_eq length, unmet_dropLast unmet,
      ⟨nofun, nofun⟩, ⟨nofun, fun stopped => absurd stopped (not_exists_getLast? unmet)⟩, nofun,
      nofun, nofun,
      fun _ => length⟩
  | failed => cases h

omit [Arithmetic α] in
/-- A run has an error exactly if it ends with one. -/
lemma Run.result_eq_error_iff {run : Run ε α} {x : α} {error : ε} :
    run.result x = .error error ↔ run.ending = .failed error := by
  obtain ⟨steps, ending⟩ := run
  cases ending <;> simp [Run.result]

end Newton

/-- A tolerance that is not negative is accepted. -/
lemma checkTolerance_eq_ok {tol : Float} (h : 0.0 ≤ tol) : checkTolerance tol = .ok () := by
  obtain ⟨number, not_neg⟩ := Double.not_lt_zero_of_zero_le h
  refine if_neg fun refused => ?_
  rcases refused with not_number | neg
  · rw [show tol.isNaN = true from not_number] at number
    cases number
  · exact not_neg neg

/-- For input that passes the checks, a search is the run. -/
lemma newton_eq {f : ScalarFunction} {x tol : Float} (budget : Nat) (hx : x.isFinite = true)
    (ht : 0.0 ≤ tol) :
    (newton f x tol budget).run.result =
      ((Newton.iterate f.value tol 1 budget x).result x).mapError .eval := by
  have guess : checkGuess x = .ok () := if_pos hx
  rw [newton_eq_conclude, Newton.start, Newton.checkInput, guess, checkTolerance_eq_ok ht]
  rfl

/-- From a finite guess and with a tolerance that is not negative, a search by Newton's method that
returns a result has recorded the function truly: the points visited are the guess and where each step
leads, every step is taken from the point before it along a slope that is not too small, and the root is
the last point. The result is converged exactly if the last step meets the stop test, which no step
before does, and otherwise says why no step more was taken. The search fails exactly if the function has
no value at one of the points `x`, `x + 1e-6`, `x - 1e-6` for the points `x` visited in their order, with
the error at the first of them. -/
theorem newton_follows_path {f : ScalarFunction} {x tol : Float} {budget : Nat}
    (hx : x.isFinite = true) (ht : 0.0 ≤ tol) :
    (∀ result, (newton f x tol budget).run.result = .ok result →
      ∃ steps, Newton.Coherent f.value x tol budget steps result) ∧
    (∀ error, (newton f x tol budget).run.result = .error (.eval error) ↔
      ∃ steps last, Newton.Path f.value 1 x steps last ∧
        (∀ step ∈ steps, ¬ Newton.StopTest tol step) ∧ steps.length < budget ∧
        Newton.firstFailure? f.value ((x :: steps.map Tangent.next).flatMap Newton.probes) =
          some error) ∧
    ∀ error, (newton f x tol budget).run.result = .error error → ∃ cause, error = .eval cause := by
  rw [newton_eq budget hx ht]
  refine ⟨fun result h => ?_, fun error => ?_, fun error h => ?_⟩
  · exact Newton.iterate_result_spec hx (mapError_eq_ok_iff.mp h)
  · rw [mapError_eq_error_iff, ← Newton.iterate_failed_iff]
    constructor
    · rintro ⟨cause, h, e⟩
      cases e
      exact Newton.Run.result_eq_error_iff.mp h
    · intro h
      exact ⟨error, Newton.Run.result_eq_error_iff.mpr h, rfl⟩
  · obtain ⟨cause, _, rfl⟩ := mapError_eq_error_iff.mp h
    exact ⟨cause, rfl⟩

/-- A function with a root at the square root of two. -/
def parabola : ScalarFunction :=
  .ofTotal "parabola" fun x => x * x - 2.0

/-- The search for the root of the parabola from one on takes four steps. -/
theorem newton_parabola_follows_path :
    (1.0 : Float).isFinite = true ∧ (0.0 : Float) ≤ 1e-4 ∧
      ∃ result, (newton parabola 1.0 1e-4 10).run.result = .ok result ∧ result.trace.length = 4 ∧
        ∃ steps, Newton.Coherent parabola.value 1.0 1e-4 10 steps result := by
  have hx : (1.0 : Float).isFinite = true := by decide +kernel
  have ht : (0.0 : Float) ≤ 1e-4 := by decide +kernel
  have evaluated :
      (newton parabola 1.0 1e-4 10).run.result.toOption.map (·.trace.length) = some 4 := by
    decide +kernel
  obtain ⟨result, h, length⟩ := toOption_map_eq_some_iff.mp evaluated
  exact ⟨hx, ht, result, h, length, (newton_follows_path hx ht).1 result h⟩

end Stepwise.Root
