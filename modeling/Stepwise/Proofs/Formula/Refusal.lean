import Stepwise.Proofs.Formula.Faults
import Stepwise.Proofs.Formula.FixedPoint

/-!
# Why a formula is refused

A formula is refused for what is wrong with its normal form, or because it has no value where it is
tried. The normal form has the same brackets as the formula that was typed, and it is blank only if that
is, so an empty formula and brackets that do not match are found in what was typed. All other places are
in the normal form.
-/

namespace Stepwise.Formula

section Brackets

variable {text text' : List Char}

/-- The round brackets of a text are paired when `depth` of them are open already: none is closed before
it is opened, and all are closed at the end. -/
@[mk_iff]
structure Paired (depth : ℕ) (text : List Char) : Prop where
  opened : ∀ front, front <+: text → front.count ')' ≤ depth + front.count '('
  closed : depth + text.count '(' = text.count ')'

namespace Paired

variable {depth : ℕ}

/-- The end is paired if nothing is open. -/
lemma nil_iff : Paired depth [] ↔ depth = 0 := by
  constructor
  · exact fun h => h.closed
  · rintro rfl
    exact ⟨fun front h => by rw [List.prefix_nil.mp h]; rfl, rfl⟩

/-- A first character counts at the front of every beginning. -/
lemma cons_iff {c : Char} : Paired depth (c :: text) ↔
    (∀ front, front <+: text → (c :: front).count ')' ≤ depth + (c :: front).count '(') ∧
      depth + (c :: text).count '(' = (c :: text).count ')' := by
  constructor
  · rintro ⟨opened, closed⟩
    exact ⟨fun front h => opened _ (List.cons_prefix_cons.mpr ⟨rfl, h⟩), closed⟩
  · rintro ⟨opened, closed⟩
    refine ⟨fun front h => ?_, closed⟩
    rcases List.prefix_cons_iff.mp h with rfl | ⟨later, rfl, within⟩
    · exact Nat.zero_le _
    · exact opened later within

/-- An opening bracket leaves one bracket more open. -/
lemma opening_iff : Paired depth ('(' :: text) ↔ Paired (depth + 1) text := by
  rw [cons_iff, paired_iff]
  simp only [List.count_cons_self, List.count_cons_of_ne (show '(' ≠ ')' by decide)]
  refine and_congr (forall₂_congr fun front _ => ?_) ?_ <;> omega

/-- A closing bracket closes one of the open ones. -/
lemma closing_iff : Paired (depth + 1) (')' :: text) ↔ Paired depth text := by
  rw [cons_iff, paired_iff]
  simp only [List.count_cons_self, List.count_cons_of_ne (show ')' ≠ '(' by decide)]
  refine and_congr (forall₂_congr fun front _ => ?_) ?_ <;> omega

/-- A bracket that was never opened cannot be closed. -/
lemma not_closing : ¬ Paired 0 (')' :: text) := by
  rintro ⟨opened, -⟩
  exact absurd (opened [')'] (List.cons_prefix_cons.mpr ⟨rfl, List.nil_prefix⟩)) (by decide)

/-- A character that is no bracket does not change the pairing. -/
lemma other_iff {c : Char} (ne : c ≠ '(') (ne' : c ≠ ')') :
    Paired depth (c :: text) ↔ Paired depth text := by
  rw [cons_iff, paired_iff]
  simp only [List.count_cons_of_ne ne, List.count_cons_of_ne ne']

end Paired

/-- Counting open brackets finds out whether the brackets are paired. -/
lemma balancedWithin_iff {depth : ℕ} : balancedWithin depth text = true ↔ Paired depth text := by
  induction text generalizing depth with
  | nil => rw [balancedWithin, decide_eq_true_iff, Paired.nil_iff]
  | cons c text ih =>
    rw [balancedWithin.eq_def]
    dsimp only
    split_ifs with opening closing
    case pos =>
      subst opening
      rw [ih, Paired.opening_iff]
    case pos =>
      subst closing
      cases depth with
      | zero => exact iff_of_false Bool.false_ne_true Paired.not_closing
      | succ depth => rw [ih, Paired.closing_iff]
    case neg => rw [ih, Paired.other_iff opening closing]

/-- The check of the brackets passes exactly the texts whose brackets are paired. -/
lemma balanced_iff : balanced text = true ↔ Paired 0 text :=
  balancedWithin_iff

/-- Stars do not count as brackets. -/
lemma Inserted.balancedWithin (h : Inserted text text') (depth : ℕ) :
    balancedWithin depth text' = balancedWithin depth text := by
  induction h generalizing depth with
  | nil => rfl
  | @star _ after _ ih =>
    have skipped := @balancedWithin_append ['*'] (List.forall_mem_singleton.mpr (by decide)) depth after
    exact skipped.trans (ih depth)
  | @keep c _ _ _ ih =>
    rw [balancedWithin.eq_def, balancedWithin.eq_def depth (c :: _)]
    dsimp only
    split_ifs
    case pos => exact ih (depth + 1)
    case pos =>
      cases depth with
      | zero => rfl
      | succ depth => exact ih depth
    case neg => exact ih depth

end Brackets

section Normal

variable {text : List Char}

/-- What holds of a formula without blanks and carets, and still holds when stars are put in, holds of
the normal form. -/
lemma normalize_induction {P : List Char → Prop} (plain : P (plainText text))
    (star : ∀ {text text'}, Inserted text text' → P text → P text') : P (normalize text) := by
  apply star (starred_bracketProducts _).inserted
  apply star (starred_nameProducts _).inserted
  apply star (inserted_numberProducts _)
  apply star (inserted_numberProducts _)
  exact plain

/-- Normalizing does not change whether the brackets match. -/
lemma balanced_normalize (text : List Char) : balanced (normalize text) = balanced text := by
  apply normalize_induction (P := fun normal => balanced normal = balanced text)
  · exact balancedWithin_plainText 0 text
  · intro before after inserted same
    exact (inserted.balancedWithin 0).trans same

/-- Nothing is left of exactly the blank texts. -/
lemma plainText_eq_nil_iff : plainText text = [] ↔ text.all Text.isBlank = true := by
  have written (c : Char) : (if c = '^' then ['*', '*'] else [c]) ≠ [] := by
    split <;> exact List.cons_ne_nil _ _
  rw [plainText, expandCarets, List.flatMap_eq_nil_iff, List.all_eq_true]
  constructor
  · intro none c mem
    by_contra ink
    exact written c (none c (List.mem_filter.mpr ⟨mem, by simpa using ink⟩))
  · intro blank c mem
    obtain ⟨mem, ink⟩ := List.mem_filter.mp mem
    rw [blank c mem] at ink
    cases ink

/-- The normal form is blank if the formula is. -/
lemma all_isBlank_normalize (text : List Char) :
    (normalize text).all Text.isBlank = text.all Text.isBlank := by
  cases blank : text.all Text.isBlank with
  | true =>
    have plain := plainText_eq_nil_iff.mpr blank
    rw [plainText] at plain
    rw [normalize, plain]
    rfl
  | false =>
    have ink : ∀ c ∈ normalize text, isInk c = true :=
      normalize_induction isInk_of_mem_plainText Inserted.isInk
    have some : normalize text ≠ [] := by
      apply normalize_induction (P := (· ≠ []))
      · exact fun none => Bool.false_ne_true (blank.symm.trans (plainText_eq_nil_iff.mp none))
      · intro before after inserted some none
        have le := inserted.length_le
        rw [none] at le
        exact some (List.eq_nil_of_length_eq_zero (Nat.le_zero.mp le))
    obtain ⟨c, rest, e⟩ := List.exists_cons_of_ne_nil some
    rw [e, List.all_cons, not_isBlank_of_isInk (ink c (e ▸ List.mem_cons_self))]
    rfl

end Normal

section Compiling

variable {lib : Elementary} {trial : Option Float} {typed : String}

/-- The error of a formula that is refused for some cause. -/
def refusal (typed : String) (cause : CompileCause) : CompileError where
  typed := typed
  parsed := String.ofList (normalize typed.toList)
  cause := cause

/-- Why compiling a formula fails: its normal form is no expression, or the expression has no value
where it is tried. -/
inductive Fails (lib : Elementary) (trial : Option Float) (typed : String) : CompileCause → Prop where
  | text {cause} : Defect (normalize typed.toList) cause → Fails lib trial typed cause
  | value {expr point error} : parse (String.ofList (normalize typed.toList)) = .ok expr →
    trial = some point → expr.eval lib point = .error error →
    Fails lib trial typed (.failsAt point error)

/-- A compiled formula is refused exactly for a reason for which compiling fails, with the error of this
reason. -/
lemma compile_eq_error_iff {error : CompileError} : (compile lib trial typed).run.result = .error error ↔
    ∃ cause, Fails lib trial typed cause ∧ error = refusal typed cause := by
  rw [compile_result]
  constructor
  · intro h
    dsimp only at h
    split at h
    case h_1 refused =>
      obtain ⟨cause, defect, rfl⟩ := parse_eq_error_iff.mp refused
      rw [String.toList_ofList] at defect
      cases h
      exact ⟨cause, .text defect, rfl⟩
    case h_2 expr read =>
      split at h
      case h_1 => cases h
      case h_2 point =>
        split at h
        case h_1 => cases h
        case h_2 error e =>
          cases h
          exact ⟨_, .value read rfl e, rfl⟩
  · rintro ⟨cause, fails, rfl⟩
    cases fails with
    | text defect =>
      rw [← String.toList_ofList (l := normalize typed.toList)] at defect
      have refused := parse_eq_error_iff.mpr ⟨cause, defect, rfl⟩
      simp only [refused]
      rfl
    | value read tried e =>
      subst tried
      simp only [read, e]
      rfl

/-- A formula is refused with the error of a cause exactly if compiling fails for this cause. -/
lemma refused_iff {cause : CompileCause} :
    (compile lib trial typed).run.result = .error (refusal typed cause) ↔
      Fails lib trial typed cause := by
  rw [compile_eq_error_iff]
  constructor
  · rintro ⟨other, fails, e⟩
    cases congrArg CompileError.cause e
    exact fails
  · exact fun fails => ⟨cause, fails, rfl⟩

namespace Fails

/-- A reason for which compiling fails points into the normal form. -/
lemma pointsInto {cause : CompileCause} (fails : Fails lib trial typed cause) :
    cause.PointsInto (normalize typed.toList) := by
  cases fails with
  | text defect => exact defect.pointsInto
  | value => trivial

/-- A formula is empty exactly if it is typed as blanks only. -/
lemma empty_iff : Fails lib trial typed .empty ↔ ∀ c ∈ typed.toList, Text.isBlank c = true := by
  rw [← List.all_eq_true, ← all_isBlank_normalize, ← Defect.empty_iff]
  constructor
  · rintro (defect | _)
    exact defect
  · exact .text

/-- Unmatched brackets are reported exactly if those of the typed text do not pair and it is not blank. -/
lemma unbalanced_iff : Fails lib trial typed .unbalancedBrackets ↔
    (∃ c ∈ typed.toList, Text.isBlank c = false) ∧ ¬ Paired 0 typed.toList := by
  have ink_iff : (∃ c ∈ typed.toList, Text.isBlank c = false) ↔
      (normalize typed.toList).all Text.isBlank = false := by
    rw [all_isBlank_normalize]
    simp only [List.all_eq_false, Bool.not_eq_true]
  rw [ink_iff, ← balanced_iff, Bool.not_eq_true, ← balanced_normalize, ← Defect.unbalanced_iff]
  constructor
  · rintro (defect | _)
    exact defect
  · exact .text

/-- A formula fails at the point where it is tried exactly if it parses and has no value there. -/
lemma failsAt_iff {point : Float} {error : EvalError} : Fails lib trial typed (.failsAt point error) ↔
    ∃ expr, parse (String.ofList (normalize typed.toList)) = .ok expr ∧ trial = some point ∧
      expr.eval lib point = .error error := by
  constructor
  · intro fails
    cases fails with
    | text defect => exact absurd defect Defect.not_failsAt
    | value read tried e => exact ⟨_, read, tried, e⟩
  · rintro ⟨expr, read, tried, e⟩
    exact .value read tried e

end Fails

/-- The error of a formula that is refused holds the formula as it was typed and its normal form, and
every place that it speaks of is in the normal form. A formula is refused as empty exactly if all of it
is blank, and as having unbalanced brackets exactly if it is not blank and its own brackets are not
paired. It is refused for its value exactly if its normal form is read as an expression that fails at
the point of trial. -/
theorem compile_refuses (lib : Elementary) (trial : Option Float) (typed : String) :
    (∀ error, (compile lib trial typed).run.result = .error error →
      error.typed = typed ∧ error.parsed = String.ofList (normalize typed.toList) ∧
        error.cause.PointsInto (normalize typed.toList)) ∧
    ((compile lib trial typed).run.result = .error (refusal typed .empty) ↔
      ∀ c ∈ typed.toList, Text.isBlank c = true) ∧
    ((compile lib trial typed).run.result = .error (refusal typed .unbalancedBrackets) ↔
      (∃ c ∈ typed.toList, Text.isBlank c = false) ∧ ¬ Paired 0 typed.toList) ∧
    ∀ point error,
      (compile lib trial typed).run.result = .error (refusal typed (.failsAt point error)) ↔
        ∃ expr, parse (String.ofList (normalize typed.toList)) = .ok expr ∧ trial = some point ∧
          expr.eval lib point = .error error := by
  refine ⟨fun error h => ?_, refused_iff.trans Fails.empty_iff, refused_iff.trans Fails.unbalanced_iff,
    fun point error => refused_iff.trans Fails.failsAt_iff⟩
  obtain ⟨cause, fails, rfl⟩ := compile_eq_error_iff.mp h
  exact ⟨rfl, rfl, fails.pointsInto⟩

/-- The dollar sign is the sixth character that is typed, and the fifth one of the normal form. -/
theorem compile_refuses_dollar :
    ∃ error, (compile .native none "2x + $").run.result = .error error ∧
      error.typed = "2x + $" ∧ error.parsed = "2*x+$" ∧ error.cause = .unexpectedChar 4 '$' ∧
      (normalize "2x + $".toList)[4]? = some '$' := by
  have h : (compile .native none "2x + $").run.result =
      .error { typed := "2x + $", parsed := "2*x+$", cause := .unexpectedChar 4 '$' } := by
    decide +kernel
  obtain ⟨typed, -, points⟩ := (compile_refuses .native none "2x + $").1 _ h
  exact ⟨_, h, typed, rfl, rfl, points⟩

end Compiling

end Stepwise.Formula
