import Stepwise.Log
import Mathlib.Tactic.Common

/-!
# Computations that end in a value or an error

What it takes for a composed computation to end in a value, and which messages it leaves if it tells about
its steps.
-/

namespace Stepwise

variable {ε ε' α β : Type}

/-- Two computations in a row have a value if both have one. -/
theorem bind_eq_ok_iff {x : Except ε α} {f : α → Except ε β} {b : β} :
    (x >>= f) = .ok b ↔ ∃ a, x = .ok a ∧ f a = .ok b := by
  cases x with
  | error e => simp [bind, Except.bind]
  | ok a => simp [bind, Except.bind]

/-- Two computations in a row fail where one of them does. -/
theorem bind_eq_error_iff {x : Except ε α} {f : α → Except ε β} {error : ε} :
    (x >>= f) = .error error ↔ x = .error error ∨ ∃ a, x = .ok a ∧ f a = .error error := by
  cases x with
  | error e => simp [bind, Except.bind]
  | ok a => simp [bind, Except.bind]

/-- Another wording of the error leaves the values as they are. -/
theorem mapError_eq_ok_iff {x : Except ε α} {f : ε → ε'} {a : α} :
    x.mapError f = .ok a ↔ x = .ok a := by
  cases x with
  | error e => exact ⟨nofun, nofun⟩
  | ok b =>
    constructor
    · intro h
      exact congrArg Except.ok (Except.ok.inj h)
    · intro h
      exact congrArg Except.ok (Except.ok.inj h)

/-- A reworded error is the wording of an error that was there. -/
theorem mapError_eq_error_iff {x : Except ε α} {f : ε → ε'} {error : ε'} :
    x.mapError f = .error error ↔ ∃ cause, x = .error cause ∧ f cause = error := by
  cases x with
  | error e => simp [Except.mapError]
  | ok a => simp [Except.mapError]

/-- What is known about the value of a computation, if it has one. -/
theorem toOption_map_eq_some_iff {x : Except ε α} {g : α → β} {b : β} :
    x.toOption.map g = some b ↔ ∃ a, x = .ok a ∧ g a = b := by
  cases x with
  | error e => simp [Except.toOption]
  | ok a => simp [Except.toOption]

/-- Two computations that end alike: with the same error, or with values that are related. -/
inductive Alike (R : α → β → Prop) : Except ε α → Except ε β → Prop where
  | error (error : ε) : Alike R (.error error) (.error error)
  | ok {a : α} {b : β} (related : R a b) : Alike R (.ok a) (.ok b)

namespace Alike

variable {α' β' : Type} {R : α → β → Prop} {S : α' → β' → Prop} {x : Except ε α} {y : Except ε β}

/-- Related values stay related under a weaker relation. -/
lemma imp {T : α → β → Prop} (h : Alike R x y) (weaker : ∀ {a b}, R a b → T a b) : Alike T x y := by
  cases h with
  | error error => exact .error error
  | ok related => exact .ok (weaker related)

/-- Computations that go on alike from related values end alike. -/
lemma bind (h : Alike R x y) {f : α → Except ε α'} {g : β → Except ε β'}
    (later : ∀ a b, R a b → Alike S (f a) (g b)) : Alike S (x >>= f) (y >>= g) := by
  cases h with
  | error error => exact .error error
  | ok related => exact later _ _ related

/-- If one of the computations has a value, so has the other one. -/
lemma of_eq_ok (h : Alike R x y) {a : α} (e : x = .ok a) : ∃ b, y = .ok b ∧ R a b := by
  subst e
  cases h with
  | ok related => exact ⟨_, rfl, related⟩

/-- Computations still end alike when their errors are reworded alike. -/
lemma mapError (h : Alike R x y) (wording : ε → ε') :
    Alike R (x.mapError wording) (y.mapError wording) := by
  cases h with
  | error error => exact .error (wording error)
  | ok related => exact .ok related

end Alike

/-- What has been written for each of some values is read as these values, if each of them is. -/
lemma mapM_map_eq_some {γ : Type} {write : α → γ} {read? : γ → Option α} {values : List α}
    (h : ∀ a ∈ values, read? (write a) = some a) : (values.map write).mapM read? = some values := by
  induction values with
  | nil => rfl
  | cons a values ih =>
    obtain ⟨here, later⟩ := List.forall_mem_cons.mp h
    simp [here, ih later]

/-- A check passes if its condition holds. -/
lemma check_eq_ok_iff {p : Prop} [Decidable p] {error : ε} :
    (if p then Except.ok () else .error error) = .ok () ↔ p := by
  split
  case isTrue h => exact iff_of_true rfl h
  case isFalse h => exact iff_of_false nofun h

/-- What is computed behind two checks is computed if both of them pass. -/
lemma exists_checked_iff {first second : Except ε Unit} {a : α} :
    (∃ b, ((do first; second : Except ε Unit) >>= fun _ => pure a) = .ok b) ↔
      first = .ok () ∧ second = .ok () := by
  constructor
  · rintro ⟨b, h⟩
    obtain ⟨⟨⟩, checks, -⟩ := bind_eq_ok_iff.mp h
    obtain ⟨⟨⟩, passed, passed'⟩ := bind_eq_ok_iff.mp checks
    exact ⟨passed, passed'⟩
  · rintro ⟨passed, passed'⟩
    have checks : (do first; second : Except ε Unit) = .ok () := bind_eq_ok_iff.mpr ⟨(), passed, passed'⟩
    exact ⟨a, bind_eq_ok_iff.mpr ⟨(), checks, rfl⟩⟩

/-- A computation has a value if it does not end with an error. -/
lemma isSome_toOption_iff {x : Except ε α} : x.toOption.isSome = true ↔ ∃ a, x = .ok a := by
  cases x with
  | error e => exact ⟨nofun, nofun⟩
  | ok a => exact ⟨fun _ => ⟨a, rfl⟩, fun _ => rfl⟩

/-- Only the result of a computation decides how it goes on. -/
lemma run_result_bind (x : ExceptT ε Logged α) (f : α → ExceptT ε Logged β) :
    (x >>= f).run.result = x.run.result >>= fun a => (f a).run.result := by
  obtain ⟨log, result⟩ := x
  cases result <;> rfl

/-- A computation without messages decides how a logged one goes on behind it. -/
lemma run_result_lift (x : Except ε α) (f : α → ExceptT ε Logged β) :
    ((liftM x : ExceptT ε Logged α) >>= f).run.result = x >>= fun a => (f a).run.result := by
  cases x <;> rfl

/-- A message does not change the result of what comes behind it. -/
lemma run_result_note (level : Log.Level) (text : String) (f : Unit → ExceptT ε Logged α) :
    ((liftM (Logged.note level text) : ExceptT ε Logged Unit) >>= f).run.result = (f ()).run.result :=
  run_result_bind _ _

/-- A value is handed on to what comes behind it. -/
lemma run_result_pure (a : α) (f : α → ExceptT ε Logged β) :
    ((pure a : ExceptT ε Logged α) >>= f).run.result = (f a).run.result :=
  run_result_bind _ _

/-- An error ends a logged computation. -/
lemma run_result_throw (e : ε) (f : α → ExceptT ε Logged β) :
    ((throw e : ExceptT ε Logged α) >>= f).run.result = .error e :=
  run_result_bind _ _

namespace Logged

variable {σ : Type}

/-- A result, and what there is to say about the steps on the way to it. -/
def told (said : σ → List Log.Message) (steps : List σ) (result : α) : Logged α where
  log := steps.flatMap said
  result := result

/-- What is said about a first step stands in front of what is said about the others. -/
lemma leave_told (said : σ → List Log.Message) (step : σ) (steps : List σ) (result : α) (f : α → β) :
    (do leave (said step); let later ← told said steps result; return f later) =
      told said (step :: steps) (f result) := by
  simp only [bind_eq, pure_eq, leave, List.append_nil, told, List.flatMap_cons]

/-- A report has its messages about steps between those at the start and those at the end. -/
lemma leave_told_leave (said : σ → List Log.Message) (steps : List σ) (result : α)
    (front : List Log.Message) (back : α → List Log.Message) (f : α → β) :
    (do leave front; let result ← told said steps result; leave (back result); return f result) =
      { log := front ++ (steps.flatMap said ++ back result), result := f result } := by
  simp only [bind_eq, pure_eq, leave, List.append_nil, told]

end Logged

end Stepwise
