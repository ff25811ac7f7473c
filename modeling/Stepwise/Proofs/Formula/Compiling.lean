import Stepwise.Formula.Compile
import Stepwise.Proofs.Outcome

/-!
# What compiling a formula ends in

A formula is compiled if its normal form is read as an expression that has a value at the point of trial.
-/

namespace Stepwise.Formula

variable {lib : Elementary} {trial : Option Float} {typed : String} {compiled : Compiled}

/-- The result of compiling, without the messages. -/
lemma compile_result (lib : Elementary) (trial : Option Float) (typed : String) :
    (compile lib trial typed).run.result =
      (let normal := String.ofList (normalize typed.toList)
      match parse normal with
      | .error error => .error (error.withTyped typed)
      | .ok expr =>
        match trial with
        | none => .ok { typed, normal, expr }
        | some point =>
          match expr.eval lib point with
          | .ok _ => .ok { typed, normal, expr }
          | .error error => .error { typed, parsed := normal, cause := .failsAt point error }) := by
  unfold compile
  generalize String.ofList (normalize typed.toList) = normal
  simp only [run_result_note]
  cases parse normal with
  | error error => exact run_result_throw _ _
  | ok expr =>
    simp only [run_result_pure, run_result_note]
    cases trial with
    | none => cases expr.usesVariable <;> rfl
    | some point =>
      dsimp only
      cases expr.eval lib point with
      | error error => cases expr.usesVariable <;> rfl
      | ok value => cases expr.usesVariable <;> rfl

/-- When a formula is compiled, and to what. -/
lemma compile_eq_ok_iff :
    (compile lib trial typed).run.result = .ok compiled ↔
      compiled.typed = typed ∧ compiled.normal = String.ofList (normalize typed.toList) ∧
        parse compiled.normal = .ok compiled.expr ∧
          ∀ point ∈ trial, ∃ value, compiled.expr.eval lib point = .ok value := by
  rw [compile_result]
  constructor
  · intro h
    dsimp only at h
    split at h
    case h_1 => cases h
    case h_2 expr e =>
      split at h
      case h_1 => cases h; exact ⟨rfl, rfl, e, nofun⟩
      case h_2 point =>
        split at h
        case h_1 value e' => cases h; exact ⟨rfl, rfl, e, fun _ mem => by cases mem; exact ⟨value, e'⟩⟩
        case h_2 => cases h
  · obtain ⟨typed', normal, expr⟩ := compiled
    dsimp only
    rintro ⟨rfl, rfl, e, tried⟩
    rw [e]
    cases trial with
    | none => rfl
    | some point =>
      obtain ⟨value, e'⟩ := tried point rfl
      simp only [e']

end Stepwise.Formula
