import Stepwise.Proofs.Formula.Readers
import Stepwise.Proofs.Formula.Stretches

/-!
# Where faults are

A fault of a formula is at the start of a token or at the end. The lexer stops at the first character of
what is no token. A reader that takes something leaves a rest of its tokens behind, and otherwise it
points to one of its tokens or to the end, so no reader points outside of the formula.
-/

namespace Stepwise.Formula

/-- A reader leaves a rest of the tokens behind, or the fault that it reports is at one of them or at
the end. -/
def Points {α : Type} (remains : α → List Lexeme) (tokens : List Lexeme) : Except ParseError α → Prop
  | .ok a => remains a <:+ tokens
  | .error (.fault position _) => ∀ start ∈ position, start ∈ tokens.map Lexeme.start
  | .error _ => True

namespace Points

variable {α β : Type} {remains : α → List Lexeme} {remains' : β → List Lexeme}
  {tokens rest : List Lexeme} {outcome : Except ParseError α}

/-- A reader that points into a rest of the tokens points into all of them. -/
lemma mono (h : Points remains rest outcome) (suffix : rest <:+ tokens) :
    Points remains tokens outcome := by
  cases outcome with
  | ok a => exact List.IsSuffix.trans h suffix
  | error error =>
    cases error with
    | fault position _ =>
      exact fun start mem => (suffix.map Lexeme.start).subset (h start mem)
    | unknownName => trivial
    | uncalled => trivial

/-- A reader may pass a token first. -/
lemma cons {lexeme : Lexeme} (h : Points remains rest outcome) :
    Points remains (lexeme :: rest) outcome :=
  h.mono (List.suffix_cons lexeme rest)

/-- What goes on after a reader points into the rest that the reader leaves. -/
lemma bind (h : Points remains tokens outcome) {f : α → Except ParseError β}
    (later : ∀ a, Points remains' (remains a) (f a)) : Points remains' tokens (outcome >>= f) := by
  cases outcome with
  | ok a => exact (later a).mono h
  | error error =>
    cases error with
    | fault => exact h
    | unknownName => trivial
    | uncalled => trivial

/-- A refusal points at the next token, or at the end. -/
lemma refuse (remains : α → List Lexeme) (rest : List Lexeme) (fault : Fault) :
    Points remains rest (refuse rest fault) := by
  intro start mem
  obtain ⟨lexeme, first, rfl⟩ := Option.mem_map.mp mem
  exact List.mem_map_of_mem (List.mem_of_mem_head? first)

/-- Closing a bracket passes it, or points at what stands in its place. -/
lemma closeBracket (tokens : List Lexeme) : Points id tokens (closeBracket tokens) := by
  unfold Formula.closeBracket
  split
  case h_1 => exact List.suffix_cons _ _
  case h_2 => exact refuse id tokens _

end Points

/-- All readers point to their tokens. -/
lemma kept_points : Kept (Points Prod.snd) where
  taken _ rest := List.suffix_refl rest
  pass _ _ h := h.cons
  bind h later := h.bind fun (expr, rest) => later expr rest
  bracketed build h := by
    refine Points.cons ?_
    apply h.bind
    rintro ⟨inner, rest⟩
    apply (Points.closeBracket rest).bind
    intro behind
    exact List.suffix_refl behind
  refuse tokens _ := .refuse _ tokens _
  uncalled _ _ := trivial
  unknownName _ _ := trivial

/-- A fault found while parsing is at one of the tokens or at the end. -/
lemma points_parseTokens (tokens : List Lexeme) : Points (fun _ => []) tokens (parseTokens tokens) := by
  apply (kept_points.sum (kept_points.readers maxDepth) tokens).bind
  rintro ⟨expr, rest⟩
  dsimp only
  split
  case h_1 => exact List.nil_suffix
  case h_2 lexeme behind => exact Points.refuse _ (lexeme :: behind) _

section Lexer

variable {position skip : ℕ} {text : List Char} {lexemes : List Lexeme} {fault : LexFault}

/-- Every token begins before the end of the text. -/
lemma Placed.start_lt (h : Placed position text lexemes) :
    ∀ lexeme ∈ lexemes, lexeme.start < position + text.length := by
  induction h with
  | nil => exact nofun
  | @gap position c text _ _ _ ih =>
    intro lexeme mem
    have lt := ih lexeme mem
    rw [List.length_cons]
    omega
  | @token position token word text _ spelling _ _ ih =>
    have pos := List.length_pos_of_ne_nil spelling.ne_nil
    rw [List.length_append]
    refine List.forall_mem_cons.mpr ⟨by dsimp only; omega, fun lexeme mem => ?_⟩
    have lt := ih lexeme mem
    omega

/-- The lexer stops at the first character of what is no token. -/
lemma lexAfter_eq_error {place : ℕ} (h : lexAfter position skip text = .error (place, fault)) :
    ∃ front c rest, text = front ++ c :: rest ∧ place = position + front.length ∧
      frontToken c rest = .error fault := by
  induction text generalizing position skip with
  | nil => cases skip <;> cases h
  | cons c rest ih =>
    -- What is found behind the first character is one character further on.
    have further {skip : ℕ} (h : lexAfter (position + 1) skip rest = .error (place, fault)) :
        ∃ front d later, c :: rest = front ++ d :: later ∧ place = position + front.length ∧
          frontToken d later = .error fault := by
      obtain ⟨front, d, later, rfl, rfl, e⟩ := ih h
      refine ⟨c :: front, d, later, rfl, ?_, e⟩
      rw [List.length_cons]
      omega
    cases skip with
    | succ skip => exact further h
    | zero =>
      rw [lexAfter] at h
      split at h
      case h_1 e =>
        cases h
        exact ⟨[], c, rest, rfl, rfl, e⟩
      case h_2 =>
        split at h
        case h_1 e => exact further (e.trans h)
        case h_2 => split at h <;> cases h

/-- A character is unexpected where it stands. -/
lemma eq_of_frontToken {c found : Char} {rest : List Char}
    (h : frontToken c rest = .error (.unexpectedChar found)) : found = c := by
  have stuck := frontToken_eq_error_iff.mp h
  generalize e : c :: rest = text at stuck
  cases stuck
  exact (List.cons.inj e).1.symm

end Lexer

/-- A cause points into a text: to the character that was not expected, or to a place before or at the
end. -/
def CompileCause.PointsInto (text : List Char) : CompileCause → Prop
  | unexpectedChar position found => text[position]? = some found
  | invalid position _ => position ≤ text.length
  | _ => True

section Causes

variable {text : List Char}

/-- A fault found while splitting names the place and the character where it was found. -/
lemma LexFault.pointsInto {front rest : List Char} {c : Char} {fault : LexFault}
    (h : frontToken c rest = .error fault) :
    (fault.cause front.length).PointsInto (front ++ c :: rest) := by
  have within : front.length ≤ (front ++ c :: rest).length := (List.prefix_append front _).length_le
  cases fault with
  | unexpectedChar found =>
    obtain rfl := eq_of_frontToken h
    have here : (front ++ found :: rest)[front.length]? = some found := by simp
    exact here
  | malformedNumber => exact within
  | numberOutOfRange => exact within

/-- A fault found while parsing points into the text that was split. -/
lemma ParseError.pointsInto {lexemes : List Lexeme} {error : ParseError}
    (found : lex text = .ok lexemes) (h : parseTokens lexemes = .error error) :
    (error.cause text.length).PointsInto text := by
  have points := points_parseTokens lexemes
  rw [h] at points
  cases error with
  | unknownName => trivial
  | uncalled => trivial
  | fault position _ =>
    cases position with
    | none => exact Nat.le_refl _
    | some start =>
      obtain ⟨lexeme, mem, rfl⟩ := List.mem_map.mp (points start rfl)
      have lt := (placed_of_lexAfter found).start_lt lexeme mem
      rw [Nat.zero_add] at lt
      exact Nat.le_of_lt lt

/-- What can be wrong with a text that is parsed: it is blank, its brackets do not match, it cannot be
split into tokens, or its tokens are no expression. -/
inductive Defect (text : List Char) : CompileCause → Prop where
  | blank : text.all Text.isBlank = true → Defect text .empty
  | brackets : text.all Text.isBlank = false → balanced text = false → Defect text .unbalancedBrackets
  | token {place fault} : text.all Text.isBlank = false → balanced text = true →
    lex text = .error (place, fault) → Defect text (fault.cause place)
  | grammar {lexemes error} : text.all Text.isBlank = false → balanced text = true →
    lex text = .ok lexemes → parseTokens lexemes = .error error → Defect text (error.cause text.length)

/-- A text is refused for exactly its defect. -/
lemma parseChars_eq_error_iff {cause : CompileCause} :
    parseChars text = .error cause ↔ Defect text cause := by
  unfold parseChars
  constructor
  · intro h
    split at h
    case isTrue blank => cases h; exact .blank blank
    case isFalse ink =>
      have ink := eq_false_of_ne_true ink
      split at h
      case isTrue brackets => cases h; exact .brackets ink ((Bool.not_eq_true' _).mp brackets)
      case isFalse matched =>
        have matched : balanced text = true := by simpa using matched
        split at h
        case h_1 stopped => cases h; exact .token ink matched stopped
        case h_2 found =>
          obtain ⟨error, e, rfl⟩ := mapError_eq_error_iff.mp h
          exact .grammar ink matched found e
  · intro defect
    cases defect with
    | blank blank => rw [if_pos blank]
    | brackets ink brackets => simp [ink, brackets]
    | token ink matched stopped => simp [ink, matched, stopped]
    | grammar ink matched found e => simp [ink, matched, found, e, mapError_eq_error_iff]

/-- Whatever is wrong with a text, the cause points into it. -/
lemma Defect.pointsInto {cause : CompileCause} (defect : Defect text cause) : cause.PointsInto text := by
  cases defect with
  | blank => trivial
  | brackets => trivial
  | token _ _ stopped =>
    obtain ⟨front, c, rest, rfl, rfl, e⟩ := lexAfter_eq_error stopped
    rw [Nat.zero_add]
    exact LexFault.pointsInto e
  | grammar _ _ found e => exact ParseError.pointsInto found e

namespace Defect

/-- A text is empty exactly if it is blank. -/
lemma empty_iff : Defect text .empty ↔ text.all Text.isBlank = true := by
  refine ⟨fun defect => ?_, .blank⟩
  generalize e : CompileCause.empty = cause at defect
  cases defect with
  | blank blank => exact blank
  | brackets => cases e
  | @token _ fault => cases fault <;> cases e
  | @grammar _ error => cases error <;> cases e

/-- Unmatched brackets are reported for the texts that are not blank and whose brackets do not match. -/
lemma unbalanced_iff : Defect text .unbalancedBrackets ↔
    text.all Text.isBlank = false ∧ balanced text = false := by
  refine ⟨fun defect => ?_, fun ⟨ink, unmatched⟩ => .brackets ink unmatched⟩
  generalize e : CompileCause.unbalancedBrackets = cause at defect
  cases defect with
  | blank => cases e
  | brackets ink unmatched => exact ⟨ink, unmatched⟩
  | @token _ fault => cases fault <;> cases e
  | @grammar _ error => cases error <;> cases e

/-- Invalid syntax of a text that splits into tokens is a fault of these. -/
lemma parseTokens_of_invalid {lexemes : List Lexeme} {position : ℕ} {fault : Fault}
    (defect : Defect text (.invalid position fault)) (found : lex text = .ok lexemes) :
    ∃ place, parseTokens lexemes = .error (.fault place fault) ∧ place.getD text.length = position := by
  generalize e : CompileCause.invalid position fault = cause at defect
  cases defect with
  | blank => cases e
  | brackets => cases e
  | token _ _ stopped => cases found.symm.trans stopped
  | @grammar _ error _ _ found' refused =>
    cases found.symm.trans found'
    cases error with
    | fault place _ =>
      cases e
      exact ⟨place, refused, rfl⟩
    | unknownName => cases e
    | uncalled => cases e

/-- Parsing tries no values. -/
lemma not_failsAt {point : Float} {error : EvalError} : ¬ Defect text (.failsAt point error) := by
  intro defect
  generalize e : CompileCause.failsAt point error = cause at defect
  cases defect with
  | blank => cases e
  | brackets => cases e
  | @token _ fault => cases fault <;> cases e
  | @grammar _ error => cases error <;> cases e

end Defect

/-- A formula is refused exactly for the defect of its text, and the error quotes it as it was typed. -/
lemma parse_eq_error_iff {formula : String} {error : CompileError} : parse formula = .error error ↔
    ∃ cause, Defect formula.toList cause ∧ error = { typed := formula, parsed := formula, cause } := by
  rw [parse, mapError_eq_error_iff]
  refine exists_congr fun cause => ?_
  rw [parseChars_eq_error_iff, eq_comm (a := error)]

end Causes

end Stepwise.Formula
