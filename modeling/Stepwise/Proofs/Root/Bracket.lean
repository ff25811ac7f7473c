import Stepwise.Proofs.Double
import Stepwise.Proofs.Outcome
import Stepwise.Proofs.Root.Watching
import Mathlib.Data.List.Chain

/-!
# The bracket of a bisection

A bisection keeps two ends with values of opposite signs. Every step leaves one end where it is, together
with its value, and moves the other end to the midpoint, together with the value there. So all steps
have the same form, and the last of them decides how the bisection ends.
-/

namespace Stepwise.Root

variable {ε α : Type}

/-- The bracket that a step halves. -/
def Halving.bracket (step : Halving α) : Bisection.Bracket α where
  a := step.a
  b := step.b
  atA := step.atA
  atB := step.atB

/-- A step leaves a bracket of which one end is the midpoint of the step, with the value there, and the
other end is as it was. -/
def Halving.Leaves (step : Halving α) (next : Bisection.Bracket α) : Prop :=
  (next.a = step.midpoint ∧ next.atA = step.atMidpoint ∧ next.b = step.b ∧ next.atB = step.atB) ∨
    (next.a = step.a ∧ next.atA = step.atA ∧ next.b = step.midpoint ∧ next.atB = step.atMidpoint)

namespace Bisection

variable [Arithmetic α]

/-- One of two values is negative, and the other is positive. -/
def Opposite (u v : α) : Prop :=
  (u < 0.0 ∧ 0.0 < v ∧ ¬ v < 0.0) ∨ (v < 0.0 ∧ 0.0 < u ∧ ¬ u < 0.0)

/-- The test for the end of a bisection. -/
def StopTest (tol : α) (step : Halving α) : Prop :=
  (step.atMidpoint == 0.0) = true ∨ Arithmetic.magnitude step.atMidpoint < tol ∨
    (step.b - step.a) / 2.0 < tol

/-- Every value of a function is negative, zero or positive. -/
def Signed (f : α → Except ε α) : Prop :=
  ∀ x value, f x = .ok value → value < 0.0 ∨ (value == 0.0) = true ∨ 0.0 < value

/-- What a trace records, from a bracket and a number for its first step on. -/
structure Traced (f : α → Except ε α) (tol : α) (first : Nat) (start : Bracket α)
    (steps : List (Halving α)) : Prop where
  iteration : ∀ i (h : i < steps.length), steps[i].iteration = first + i
  midpoint : ∀ step ∈ steps, step.midpoint = (step.a + step.b) / 2.0
  atA : ∀ step ∈ steps, f step.a = .ok step.atA
  atB : ∀ step ∈ steps, f step.b = .ok step.atB
  atMidpoint : ∀ step ∈ steps, f step.midpoint = .ok step.atMidpoint
  nonzero : ∀ step ∈ steps, (step.atA == 0.0) = false ∧ (step.atB == 0.0) = false
  opposite : ∀ step ∈ steps, Opposite step.atA step.atB
  begins : ∀ step ∈ steps.head?, step.bracket = start
  linked : steps.IsChain fun step next => step.Leaves next.bracket
  unstopped : ∀ step ∈ steps.dropLast, ¬ StopTest tol step

/-- The values recorded in a bracket are those of a function, and they have opposite signs. -/
structure Bracket.Valid (f : α → Except ε α) (bracket : Bracket α) : Prop where
  atA : f bracket.a = .ok bracket.atA
  atB : f bracket.b = .ok bracket.atB
  nonzero : (bracket.atA == 0.0) = false ∧ (bracket.atB == 0.0) = false
  opposite : negative bracket.atA ≠ negative bracket.atB

/-- A bisection stops exactly at a step that meets the stop test. -/
lemma closeEnough_iff {tol : α} {step : Halving α} :
    closeEnough tol step = true ↔ StopTest tol step := by
  simp only [closeEnough, StopTest, Bool.or_eq_true, decide_eq_true_eq, or_assoc]

/-- A step that does not end the bisection has a value other than zero at its midpoint. -/
lemma nonzero_of_not_stopTest {tol : α} {step : Halving α} (h : ¬ StopTest tol step) :
    (step.atMidpoint == 0.0) = false := by
  cases e : step.atMidpoint == 0.0 with
  | true => exact absurd (.inl e) h
  | false => rfl

/-- With signs for all values, what is neither zero nor negative is positive. -/
lemma Signed.pos {f : α → Except ε α} (signed : Signed f) {x value : α} (e : f x = .ok value)
    (ne : (value == 0.0) = false) (not_neg : ¬ value < 0.0) : 0.0 < value := by
  rcases signed x value e with neg | zero | pos
  · exact absurd neg not_neg
  · rw [ne] at zero
    cases zero
  · exact pos

namespace Bracket.Valid

variable {f : α → Except ε α} {bracket : Bracket α} {value : α}

/-- The values at the ends of a valid bracket have opposite signs. -/
lemma signs (valid : bracket.Valid f) (signed : Signed f) :
    Opposite bracket.atA bracket.atB := by
  have ne := valid.opposite
  by_cases neg : bracket.atA < 0.0
  · have not_neg : ¬ bracket.atB < 0.0 := fun neg' =>
      ne (decide_eq_decide.mpr ⟨fun _ => neg', fun _ => neg⟩)
    exact .inl ⟨neg, signed.pos valid.atB valid.nonzero.2 not_neg, not_neg⟩
  · have neg' : bracket.atB < 0.0 := by
      by_contra not_neg
      exact ne (decide_eq_decide.mpr ⟨fun h => absurd h neg, fun h => absurd h not_neg⟩)
    exact .inr ⟨neg', signed.pos valid.atA valid.nonzero.1 neg, neg⟩

/-- The half that is kept is a bracket again, if the value at the midpoint is not zero. -/
lemma half (valid : bracket.Valid f) (e : f bracket.midpoint = .ok value)
    (ne : (value == 0.0) = false) : (bracket.half value).Valid f := by
  unfold Bracket.half
  split
  case isTrue opposite =>
    exact ⟨valid.atA, e, ⟨valid.nonzero.1, ne⟩, opposite⟩
  case isFalse same =>
    refine ⟨e, valid.atB, ⟨ne, valid.nonzero.2⟩, ?_⟩
    have same' : negative bracket.atA = negative value := not_not.mp same
    exact same' ▸ valid.opposite

end Bracket.Valid

/-- Each half of a bracket has the midpoint of the step at one end. -/
lemma leaves_half (bracket : Bracket α) (iteration : Nat) (value : α) :
    (bracket.step iteration value).Leaves (bracket.half value) := by
  unfold Bracket.half
  split
  case isTrue => exact .inr ⟨rfl, rfl, rfl, rfl⟩
  case isFalse => exact .inl ⟨rfl, rfl, rfl, rfl⟩

namespace Traced

variable {f : α → Except ε α} {tol value : α} {first : Nat} {start : Bracket α}
  {steps : List (Halving α)}

/-- Without steps a trace has nothing to record. -/
lemma nil : Traced f tol first start [] where
  iteration _ h := absurd h (Nat.not_lt_zero _)
  midpoint := nofun
  atA := nofun
  atB := nofun
  atMidpoint := nofun
  nonzero := nofun
  opposite := nofun
  begins := nofun
  linked := .nil
  unstopped := nofun

/-- A step in front of those that go on from the half it leaves. Only the last step of all may meet the
stop test. -/
lemma cons (signed : Signed f) (valid : start.Valid f) (e : f start.midpoint = .ok value)
    (later : Traced f tol (first + 1) (start.half value) steps)
    (goes_on : steps ≠ [] → ¬ StopTest tol (start.step first value)) :
    Traced f tol first start (start.step first value :: steps) where
  iteration
    | 0, _ => rfl
    | i + 1, h => by
      have ih := later.iteration i (Nat.lt_of_succ_lt_succ h)
      rw [List.getElem_cons_succ, ih]
      omega
  midpoint := List.forall_mem_cons.mpr ⟨rfl, later.midpoint⟩
  atA := List.forall_mem_cons.mpr ⟨valid.atA, later.atA⟩
  atB := List.forall_mem_cons.mpr ⟨valid.atB, later.atB⟩
  atMidpoint := List.forall_mem_cons.mpr ⟨e, later.atMidpoint⟩
  nonzero := List.forall_mem_cons.mpr ⟨valid.nonzero, later.nonzero⟩
  opposite := List.forall_mem_cons.mpr ⟨valid.signs signed, later.opposite⟩
  begins step h := by
    cases h
    rfl
  linked := by
    refine List.isChain_cons.mpr ⟨fun next h => ?_, later.linked⟩
    rw [later.begins next h]
    exact leaves_half start first value
  unstopped := by
    cases steps with
    | nil => exact nofun
    | cons next rest =>
      exact List.forall_mem_cons.mpr ⟨goes_on (List.cons_ne_nil _ _), later.unstopped⟩

end Traced

/-- The bracket that is left after some steps from a first one. -/
def Remains (start : Bracket α) (steps : List (Halving α)) (last : Bracket α) : Prop :=
  (steps = [] → last = start) ∧ ∀ step ∈ steps.getLast?, step.Leaves last

/-- The bracket that is left behind a first step is the one that the later steps leave. -/
lemma Remains.cons {start last : Bracket α} {first : Nat} {value : α} {steps : List (Halving α)}
    (h : Remains (start.half value) steps last) :
    Remains start (start.step first value :: steps) last := by
  refine ⟨nofun, fun step hs => ?_⟩
  cases steps with
  | nil =>
    cases hs
    rw [h.1 rfl]
    exact leaves_half start first value
  | cons next rest =>
    rw [List.getLast?_cons_cons] at hs
    exact h.2 step hs

/-- How halving can end after some steps: at the first step that meets the stop test, without any such
step when the budget is used up, with a half that keeps opposite signs, or at a point where the function
has no value. -/
inductive Ends (tol : α) (budget : Nat) (start : Bracket α) (steps : List (Halving α)) :
    Ending ε α → Prop where
  | found {step : Halving α} : steps.getLast? = some step → StopTest tol step →
    steps.length ≤ budget → Ends tol budget start steps (.found step.midpoint)
  | exhausted {last : Bracket α} : steps.length = budget → (∀ step ∈ steps, ¬ StopTest tol step) →
    Remains start steps last → Opposite last.atA last.atB →
    Ends tol budget start steps (.exhausted last.midpoint)
  | failed {error : ε} : Ends tol budget start steps (.failed error)

/-- A step in front that does not meet the stop test does not change how halving ends. -/
lemma Ends.cons {tol value : α} {budget first : Nat} {start : Bracket α} {steps : List (Halving α)}
    {ending : Ending ε α} (ends : Ends tol budget (start.half value) steps ending)
    (goes_on : ¬ StopTest tol (start.step first value)) :
    Ends tol (budget + 1) start (start.step first value :: steps) ending := by
  cases ends with
  | found last meets length =>
    refine .found ?_ meets (Nat.succ_le_succ length)
    rw [List.getLast?_cons, last]
    rfl
  | exhausted length unmet remains opposite =>
    exact .exhausted (congrArg Nat.succ length) (List.forall_mem_cons.mpr ⟨goes_on, unmet⟩)
      remains.cons opposite
  | failed => exact .failed

/-- Halving records a trace, and ends as it can. -/
lemma halve_spec {f : α → Except ε α} (signed : Signed f) (tol : α) (first budget : Nat)
    {start : Bracket α} (valid : start.Valid f) :
    Traced f tol first start (halve f tol first budget start).steps ∧
      Ends tol budget start (halve f tol first budget start).steps
        (halve f tol first budget start).ending := by
  -- The half that is kept is a bracket again, so the budget left applies to it.
  induction budget generalizing first start with
  | zero => exact ⟨.nil, .exhausted rfl nofun ⟨fun _ => rfl, nofun⟩ (valid.signs signed)⟩
  | succ budget ih =>
    rw [halve_succ]
    split
    case h_1 error e => exact ⟨.nil, .failed⟩
    case h_2 value e =>
      simp only
      split
      case isTrue close =>
        refine ⟨.cons signed valid e .nil (fun h => absurd rfl h), ?_⟩
        exact .found rfl (closeEnough_iff.mp close) (Nat.succ_le_succ (Nat.zero_le _))
      case isFalse far =>
        have goes_on : ¬ StopTest tol (start.step first value) := fun h =>
          far (closeEnough_iff.mpr h)
        obtain ⟨traced, ends⟩ :=
          ih (first + 1) (valid.half e (nonzero_of_not_stopTest goes_on))
        exact ⟨.cons signed valid e traced fun _ => goes_on, ends.cons goes_on⟩

/-- Two values are both negative or both positive. -/
def SameSign (u v : α) : Prop :=
  (u < 0.0 ∧ v < 0.0) ∨ (0.0 < u ∧ 0.0 < v)

/-- The four results of a bisection of a first bracket by some steps. -/
inductive Concluded (tol : α) (budget : Nat) (start : Bracket α) (steps : List (Halving α))
    (result : Result α) : Prop where
  | endpoint : (start.atA == 0.0) = true ∨ (start.atB == 0.0) = true → steps = [] →
    result.converged = true → result.iterations = 0 → result.diagnostic = none →
    result.root = some (if start.atA == 0.0 then start.a else start.b) →
    Concluded tol budget start steps result
  | sameSign : (start.atA == 0.0) = false → (start.atB == 0.0) = false →
    SameSign start.atA start.atB → steps = [] →
    result.converged = false → result.iterations = 0 → result.diagnostic = some .noSignChange →
    result.root = none →
    Concluded tol budget start steps result
  | found {last : Halving α} : Opposite start.atA start.atB → steps.getLast? = some last →
    StopTest tol last → steps.length ≤ budget →
    result.converged = true → result.iterations = steps.length → result.diagnostic = none →
    result.root = some last.midpoint →
    Concluded tol budget start steps result
  | exhausted {last : Bracket α} : Opposite start.atA start.atB →
    (∀ step ∈ steps, ¬ StopTest tol step) → steps.length = budget → Remains start steps last →
    Opposite last.atA last.atB → result.converged = false → result.iterations = budget →
    result.diagnostic = some .maxIterationsReached →
    result.root = some ((last.a + last.b) / 2.0) →
    Concluded tol budget start steps result

/-- Values that are not zero and agree in being negative have the same sign. -/
lemma sameSign_of_negative_eq {f : α → Except ε α} (signed : Signed f) {a b atA atB : α}
    (ea : f a = .ok atA) (eb : f b = .ok atB) (na : (atA == 0.0) = false)
    (nb : (atB == 0.0) = false) (same : negative atA = negative atB) : SameSign atA atB := by
  have same' : atA < 0.0 ↔ atB < 0.0 := decide_eq_decide.mp same
  by_cases neg : atA < 0.0
  · exact .inl ⟨neg, same'.mp neg⟩
  · exact .inr ⟨signed.pos ea na neg, signed.pos eb nb fun neg' => neg (same'.mpr neg')⟩

/-- The result of halving a bracket has one of two forms. -/
lemma halve_result_spec {f : α → Except ε α} (signed : Signed f) {tol : α} {budget : Nat}
    {start : Bracket α} (valid : start.Valid f) {result : Result α}
    (h : (halve f tol 1 budget start).result = .ok result) :
    result.method = .bisection ∧ result.history = [] ∧
      ∃ steps, result.trace = steps.map .halving ∧ Traced f tol 1 start steps ∧
        Concluded tol budget start steps result := by
  obtain ⟨traced, ends⟩ := halve_spec signed tol 1 budget valid
  generalize halve f tol 1 budget start = run at h traced ends
  obtain ⟨steps, ending⟩ := run
  cases ends with
  | found last meets length =>
    cases h
    refine ⟨rfl, rfl, steps, rfl, traced, ?_⟩
    exact .found (valid.signs signed) last meets length rfl rfl rfl rfl
  | exhausted length unmet remains opposite =>
    cases h
    refine ⟨rfl, rfl, steps, rfl, traced, ?_⟩
    exact .exhausted (valid.signs signed) unmet length remains opposite rfl length rfl rfl
  | failed => cases h

/-- The result of a run has one of the four forms. -/
lemma run_spec {f : α → Except ε α} (signed : Signed f) {a b tol : α} {budget : Nat}
    {result : Result α} (h : (run f a b tol budget).result = .ok result) :
    result.method = .bisection ∧ result.history = [] ∧
      ∃ atA atB steps, f a = .ok atA ∧ f b = .ok atB ∧ result.trace = steps.map .halving ∧
        Traced f tol 1 { a, b, atA, atB } steps ∧
        Concluded tol budget { a, b, atA, atB } steps result := by
  -- In the order of the tests: the values at the ends, zeros there, their signs, and then the halving.
  rw [run_eq] at h
  split at h
  case h_1 error _ => cases h
  case h_2 atA ea =>
    split at h
    case h_1 error _ => cases h
    case h_2 atB eb =>
      split at h
      case isTrue zero =>
        cases h
        refine ⟨rfl, rfl, atA, atB, [], ea, eb, rfl, .nil, ?_⟩
        exact .endpoint (.inl zero) rfl rfl rfl rfl (by rw [if_pos zero])
      case isFalse na =>
        split at h
        case isTrue zero =>
          cases h
          refine ⟨rfl, rfl, atA, atB, [], ea, eb, rfl, .nil, ?_⟩
          exact .endpoint (.inr zero) rfl rfl rfl rfl (by rw [if_neg na])
        case isFalse nb =>
          have na' := eq_false_of_ne_true na
          have nb' := eq_false_of_ne_true nb
          split at h
          case isTrue same =>
            cases h
            refine ⟨rfl, rfl, atA, atB, [], ea, eb, rfl, .nil, ?_⟩
            have sameSign := sameSign_of_negative_eq signed ea eb na' nb' same
            exact .sameSign na' nb' sameSign rfl rfl rfl rfl rfl
          case isFalse ne =>
            have valid : Bracket.Valid f { a, b, atA, atB } := ⟨ea, eb, ⟨na', nb'⟩, ne⟩
            obtain ⟨method, history, steps, trace, traced, concluded⟩ :=
              halve_result_spec signed valid h
            exact ⟨method, history, atA, atB, steps, ea, eb, trace, traced, concluded⟩

end Bisection

/-- A bisection that returns a result is a run that ends in this result. -/
lemma bisect_eq_ok {f : ScalarFunction} {a b tol : Float} {budget : Nat} {result : Result Float}
    (h : (bisect f a b tol budget).run.result = .ok result) :
    (Bisection.run f.value a b tol budget).result = .ok result := by
  rw [bisect_eq_conclude] at h
  split at h
  case h_1 error _ => cases h
  case h_2 run e =>
    obtain ⟨_, _, e⟩ := bind_eq_ok_iff.mp e
    cases e
    exact mapError_eq_ok_iff.mp h

/-- Where the values of a function are numbers, a bisection of it that returns a result has recorded the
function truly: a bracket of values with opposite signs, one end of which moves to the midpoint in every
step, and a stop test that no step but the last meets. The result is an end of the interval, the lack of
a change of sign, the midpoint of the step that meets the stop test, or the midpoint of what is left of
the interval, at whose ends the values still have opposite signs. -/
theorem bisect_keeps_bracket {f : ScalarFunction} {a b tol : Float} {budget : Nat}
    {result : Result Float} (numbers : ∀ x value, f.value x = .ok value → value.isNaN = false)
    (h : (bisect f a b tol budget).run.result = .ok result) :
    result.method = .bisection ∧ result.history = [] ∧
      ∃ atA atB steps, f.value a = .ok atA ∧ f.value b = .ok atB ∧
        result.trace = steps.map .halving ∧
        Bisection.Traced f.value tol 1 { a, b, atA, atB } steps ∧
        Bisection.Concluded tol budget { a, b, atA, atB } steps result := by
  have signed : Bisection.Signed f.value := fun x value e =>
    Double.lt_zero_or_beq_zero_or_zero_lt (numbers x value e)
  exact Bisection.run_spec signed (bisect_eq_ok h)

/-- A function that jumps from a negative value to a positive one. -/
def jump : ScalarFunction where
  name := "jump"
  value x := .ok (if x < 0.3 then -1.0 else 2.0)

/-- The jump is bracketed in four steps. -/
theorem bisect_jump_keeps_bracket :
    (∀ x value, jump.value x = .ok value → value.isNaN = false) ∧
      ∃ result, (bisect jump 0.0 1.0 0.1 10).run.result = .ok result ∧ result.trace.length = 4 ∧
        result.method = .bisection ∧ result.history = [] ∧
          ∃ atA atB steps, jump.value 0.0 = .ok atA ∧ jump.value 1.0 = .ok atB ∧
            result.trace = steps.map .halving ∧
            Bisection.Traced jump.value 0.1 1 { a := 0.0, b := 1.0, atA, atB } steps ∧
            Bisection.Concluded 0.1 10 { a := 0.0, b := 1.0, atA, atB } steps result := by
  have numbers : ∀ x value, jump.value x = .ok value → value.isNaN = false := by
    intro x value e
    cases e
    split
    · rfl
    · rfl
  have evaluated :
      (bisect jump 0.0 1.0 0.1 10).run.result.toOption.map (·.trace.length) = some 4 := by
    decide +kernel
  obtain ⟨result, h, length⟩ := toOption_map_eq_some_iff.mp evaluated
  exact ⟨numbers, result, h, length, bisect_keeps_bracket numbers h⟩

end Stepwise.Root
