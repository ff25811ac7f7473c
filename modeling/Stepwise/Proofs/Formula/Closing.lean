import Stepwise.Proofs.Decimal.Reading
import Stepwise.Proofs.Formula.Refusal

/-!
# Brackets that the readers close

The tokens of a text have its brackets, so if the brackets of a text are paired, its tokens have as many
closing ones as opening ones. A reader passes over a closing bracket for every opening one that it takes.
So what a reader still has to close is what the closing brackets ahead of it outnumber the opening ones by,
and in a text whose brackets are paired no reader comes to the end while a bracket is open.
-/

namespace Stepwise.Formula

section Counting

/-- No character of a word is a bracket. -/
lemma count_bracket_eq_zero {word : List Char} (others : ∀ c ∈ word, (c != '(' && c != ')') = true) :
    word.count '(' = 0 ∧ word.count ')' = 0 := by
  constructor
  · exact List.count_eq_zero.mpr fun mem => absurd (others _ mem) (by decide)
  · exact List.count_eq_zero.mpr fun mem => absurd (others _ mem) (by decide)

/-- A character that continues a name is no bracket. -/
lemma not_bracket_of_continuesName {c : Char} (h : continuesName c = true) :
    (c != '(' && c != ')') = true := by
  rw [Bool.and_eq_true, bne_iff_ne, bne_iff_ne]
  constructor
  · rintro rfl
    exact absurd h (by decide)
  · rintro rfl
    exact absurd h (by decide)

/-- A character that separates tokens is no bracket. -/
lemma not_bracket_of_isGap {c : Char} (h : isGap c = true) : (c != '(' && c != ')') = true := by
  have gaps : [' ', '\t', '\n', '\r'].all (fun d => d != '(' && d != ')') = true := rfl
  exact List.all_eq_true.mp gaps c (isGap_iff.mp h)

/-- A token holds the brackets of its word: one if it is a bracket itself, and otherwise none. -/
lemma Token.Spelling.count_bracket {token : Token} {word : List Char} (h : token.Spelling word) :
    word.count '(' = [token].count .opening ∧ word.count ')' = [token].count .closing := by
  cases h with
  | @number _ value read =>
    obtain ⟨amount, read', -⟩ := Option.map_eq_some_iff.mp read
    have others := (Numeral.of_read? read').forall_mem (p := fun c => c != '(' && c != ')')
      (fun c digit => not_bracket_of_continuesName (by simp [continuesName, Char.isAlphanum, digit])) rfl
    obtain ⟨none, none'⟩ := count_bracket_eq_zero others
    rw [none, none']
    exact ⟨(List.count_eq_zero.mpr (by simp)).symm, (List.count_eq_zero.mpr (by simp)).symm⟩
  | @name c later starts continues =>
    have others : ∀ d ∈ c :: later, (d != '(' && d != ')') = true :=
      List.forall_mem_cons.mpr ⟨not_bracket_of_continuesName (continuesName_of_startsName starts),
        fun d mem => not_bracket_of_continuesName (continues d mem)⟩
    obtain ⟨none, none'⟩ := count_bracket_eq_zero others
    rw [none, none']
    exact ⟨(List.count_eq_zero.mpr (by simp)).symm, (List.count_eq_zero.mpr (by simp)).symm⟩
  | _ => exact ⟨rfl, rfl⟩

/-- A text has the brackets of the tokens that it writes. -/
lemma Writes.count_bracket {text : List Char} {tokens : List Token} (h : Writes text tokens) :
    text.count '(' = tokens.count .opening ∧ text.count ')' = tokens.count .closing := by
  induction h with
  | nil => exact ⟨rfl, rfl⟩
  | @gap c text tokens gap _ ih =>
    obtain ⟨none, none'⟩ := count_bracket_eq_zero (List.forall_mem_singleton.mpr (not_bracket_of_isGap gap))
    rw [← List.singleton_append, List.count_append, List.count_append, none, none', Nat.zero_add,
      Nat.zero_add]
    exact ih
  | @token token word text tokens spelling _ _ ih =>
    obtain ⟨here, here'⟩ := spelling.count_bracket
    rw [← List.singleton_append, List.count_append, List.count_append, List.count_append,
      List.count_append, here, here', ih.1, ih.2]
    exact ⟨rfl, rfl⟩

/-- By how much the closing brackets of some tokens outnumber the opening ones. -/
def surplus (tokens : List Lexeme) : ℤ :=
  (tokens.map Lexeme.token).count .closing - (tokens.map Lexeme.token).count .opening

variable {tokens rest : List Lexeme} {start : ℕ} {token : Token}

/-- An opening bracket in front lowers the surplus by one. -/
lemma surplus_opening (start : ℕ) (rest : List Lexeme) :
    surplus (⟨start, .opening⟩ :: rest) + 1 = surplus rest := by
  simp only [surplus, List.map_cons, List.count_cons_self]
  rw [List.count_cons_of_ne (by decide)]
  omega

/-- A closing bracket in front raises the surplus by one. -/
lemma surplus_closing : surplus (⟨start, .closing⟩ :: rest) = surplus rest + 1 := by
  simp only [surplus, List.map_cons, List.count_cons_self]
  rw [List.count_cons_of_ne (by decide)]
  omega

/-- A token that is no bracket does not change the surplus. -/
lemma surplus_other (ne : token ≠ .opening) (ne' : token ≠ .closing) :
    surplus (⟨start, token⟩ :: rest) = surplus rest := by
  simp only [surplus, List.map_cons, List.count_cons_of_ne ne, List.count_cons_of_ne ne']

/-- No kind of bracket outnumbers the other one among the tokens of a text whose brackets are paired. -/
lemma surplus_eq_zero {text : List Char} (matched : balanced text = true) (found : lex text = .ok tokens) :
    surplus tokens = 0 := by
  have closed := (balanced_iff.mp matched).closed
  have placed : Placed 0 text tokens := placed_of_lexAfter found
  obtain ⟨openings, closings⟩ := placed.writes.count_bracket
  rw [surplus, ← openings, ← closings]
  omega

end Counting

/-- What a reader does that has `owed` brackets to close: it takes so many closing brackets more than
opening ones, and it finds the end in the place of a closing bracket only if there are not so many of them.
A name that it does not know has no meaning. -/
structure Closes {α : Type} (owed : ℕ) (remains : α → List Lexeme) (tokens : List Lexeme)
    (outcome : Except ParseError α) : Prop where
  taken : ∀ a, outcome = .ok a → surplus tokens = surplus (remains a) + owed
  unclosed : ∀ position, outcome = .error (.fault position (.unclosed none)) → surplus tokens < owed
  unknown : ∀ name, outcome = .error (.unknownName name) → Symbol.ofName? name = none

namespace Closes

variable {α β : Type} {remains : α → List Lexeme} {remains' : β → List Lexeme} {owed owed' start : ℕ}
  {tokens rest : List Lexeme} {outcome : Except ParseError α}

/-- A reader that takes nothing owes nothing. -/
lemma ok {a : α} (remaining : remains a = tokens) : Closes 0 remains tokens (.ok a) where
  taken a' e := by
    cases e
    rw [remaining, Nat.cast_zero, add_zero]
  unclosed := nofun
  unknown := nofun

/-- A fault that is no missing bracket may be anywhere. -/
lemma refuse {fault : Fault} (other : fault ≠ .unclosed none) (rest : List Lexeme) :
    Closes owed remains tokens (refuse rest fault) where
  taken := nofun
  unclosed position e := by
    cases e
    exact absurd rfl other
  unknown := nofun

/-- What goes on after a reader that has no bracket to close owes what it owes by itself. -/
lemma bind (h : Closes 0 remains tokens outcome) {f : α → Except ParseError β}
    (later : ∀ a, Closes owed remains' (remains a) (f a)) : Closes owed remains' tokens (outcome >>= f) where
  taken b e := by
    obtain ⟨a, e, e'⟩ := bind_eq_ok_iff.mp e
    rw [h.taken a e, Nat.cast_zero, add_zero]
    exact (later a).taken b e'
  unclosed position e := by
    rcases bind_eq_error_iff.mp e with e | ⟨a, e, e'⟩
    · exact (h.unclosed position e).trans_le (Int.ofNat_le.mpr (Nat.zero_le owed))
    · rw [h.taken a e, Nat.cast_zero, add_zero]
      exact (later a).unclosed position e'
  unknown name e := by
    rcases bind_eq_error_iff.mp e with e | ⟨a, -, e⟩
    · exact h.unknown name e
    · exact (later a).unknown name e

/-- A reader that takes an opening bracket has one bracket more to close. -/
lemma opening (h : Closes (owed + 1) remains rest outcome) :
    Closes owed remains (⟨start, .opening⟩ :: rest) outcome where
  taken a e := by
    have taken := h.taken a e
    rw [← surplus_opening start, Nat.cast_add, Nat.cast_one] at taken
    omega
  unclosed position e := by
    have lt := h.unclosed position e
    rw [← surplus_opening start, Nat.cast_add, Nat.cast_one] at lt
    omega
  unknown := h.unknown

/-- A reader may pass a token that is no bracket first. -/
lemma other {token : Token} (h : Closes owed remains rest outcome) (ne : token ≠ .opening)
    (ne' : token ≠ .closing) : Closes owed remains (⟨start, token⟩ :: rest) outcome where
  taken a e := by rw [surplus_other ne ne', h.taken a e]
  unclosed position e := by
    rw [surplus_other ne ne']
    exact h.unclosed position e
  unknown := h.unknown

/-- An expression in front of a closing bracket. -/
lemma closeBracket (expr : Expr) (tokens : List Lexeme) :
    Closes 1 Prod.snd tokens (do
      let rest ← Formula.closeBracket tokens
      return (expr, rest)) := by
  unfold Formula.closeBracket
  split
  case h_1 start rest =>
    refine ⟨fun a e => ?_, nofun, nofun⟩
    cases e
    exact surplus_closing
  case h_2 =>
    refine ⟨nofun, fun position e => ?_, nofun⟩
    -- what is found is the end, so no tokens are left
    cases tokens with
    | nil => exact Int.one_pos
    | cons lexeme rest => cases e

end Closes

/-- All readers close the brackets that they open. -/
lemma kept_closes : Kept (Closes 0 Prod.snd) where
  taken _ _ := .ok rfl
  pass ne ne' h := h.other ne ne'
  bind h later := h.bind fun (expr, rest) => later expr rest
  bracketed build h := by
    refine Closes.opening ?_
    apply h.bind
    rintro ⟨inner, rest⟩
    exact .closeBracket (build inner) rest
  refuse _ other := .refuse other _
  uncalled _ _ := ⟨nofun, nofun, nofun⟩
  unknownName _ unknown := by
    refine ⟨nofun, nofun, fun name e => ?_⟩
    cases e
    exact unknown

/-- Parsing owes no bracket: every bracket that it opens it closes. -/
lemma closes_parseTokens (tokens : List Lexeme) : Closes 0 (fun _ => []) tokens (parseTokens tokens) := by
  apply (kept_closes.sum (kept_closes.readers maxDepth) tokens).bind
  rintro ⟨expr, rest⟩
  dsimp only
  split
  case h_1 => exact .ok rfl
  case h_2 lexeme behind => exact .refuse (by nofun) _

section Messages

/-- A text ends in some character other than `c`. -/
def EndsOff (c : Char) (text : String) : Prop :=
  ∃ d ∈ text.toList.getLast?, d ≠ c

/-- A text ends as its last part does. -/
lemma EndsOff.append {c : Char} {text : String} (h : EndsOff c text) (front : String) :
    EndsOff c (front ++ text) := by
  obtain ⟨d, last, ne⟩ := h
  refine ⟨d, ?_, ne⟩
  rw [String.toList_append, List.getLast?_append, Option.mem_def.mp last]
  rfl

/-- A text that ends in another character than `c` does not end in a text that ends in `c`. -/
lemma EndsOff.not_suffix {c : Char} {text ending : String} (h : EndsOff c text)
    (last : ending.toList.getLast? = some c) : ¬ ending.toList <:+ text.toList := by
  rintro ⟨front, e⟩
  obtain ⟨d, mem, ne⟩ := h
  rw [← e, List.getLast?_append, last] at mem
  exact ne (Option.some.inj mem).symm

/-- The text of a double ends in `N`, in `f`, or as an unsigned decimal does. -/
lemma endsOff_text (x : Float) : EndsOff 'a' (Decimal.text x) := by
  have unsigned {digits : List Char} {y : Float} (read : Decimal.readUnsigned? digits = some y) :
      ∃ d ∈ digits.getLast?, d ≠ 'a' := by
    obtain ⟨amount, read', -⟩ := Option.map_eq_some_iff.mp read
    have some : digits ≠ [] := by
      rintro rfl
      cases read'
    have others := (Numeral.of_read? read').forall_mem (p := (· != 'a'))
      (fun c digit => bne_iff_ne.mpr fun e => absurd (e ▸ digit) (by decide)) rfl
    exact ⟨_, List.getLast?_eq_some_getLast some, bne_iff_ne.mp (others _ (List.getLast_mem some))⟩
  have shown := Decimal.shown_chars x
  have chars : (Decimal.text x).toList = Decimal.Layout.plain.chars x := String.toList_ofList
  rw [← chars] at shown
  rw [EndsOff]
  generalize (Decimal.text x).toList = text at shown
  cases shown with
  | nan => exact ⟨'N', rfl, by decide⟩
  | infinite => exact ⟨'f', rfl, by decide⟩
  | negativeInfinite => exact ⟨'f', rfl, by decide⟩
  | unsigned read => exact unsigned read
  | negative read =>
    obtain ⟨d, last, ne⟩ := unsigned read
    refine ⟨d, ?_, ne⟩
    rw [List.getLast?_cons, Option.mem_def.mp last]
    rfl

/-- No description of a token ends in the letter that the end of the formula ends in. -/
lemma Token.endsOff_describe (token : Token) : EndsOff 'a' token.describe := by
  cases token with
  | number value => exact (endsOff_text value).append _
  | name text => exact EndsOff.append ⟨'\'', rfl, by decide⟩ _
  | _ => exact ⟨'\'', rfl, by decide⟩

/-- Only where a closing bracket is missing, a message says that the end of the formula was found. -/
lemma Fault.not_suffix_message {fault : Fault} (other : fault ≠ .unclosed none) :
    ¬ "found end of formula".toList <:+ fault.message.toList := by
  cases fault with
  | malformedNumber text =>
    have ends : EndsOff 'a' "'" := ⟨'\'', rfl, by decide⟩
    exact (ends.append _).not_suffix rfl
  | numberOutOfRange text =>
    have ends : EndsOff 'a' "' is out of the floating point range" := ⟨'e', rfl, by decide⟩
    exact (ends.append _).not_suffix rfl
  | tooDeep =>
    have ends : EndsOff 'a' " levels)" := ⟨')', rfl, by decide⟩
    exact (ends.append _).not_suffix rfl
  | unclosed found =>
    cases found with
    | none => exact absurd rfl other
    | some token => exact (token.endsOff_describe.append _).not_suffix rfl
  | unexpected found =>
    cases found with
    | none => decide
    | some token => exact (token.endsOff_describe.append _).not_suffix rfl

end Messages

/-- What can be wrong with a text whose brackets match is no missing bracket at the end, and no name that
has a meaning. -/
lemma Defect.closes {text : List Char} {cause : CompileCause} (defect : Defect text cause)
    (matched : balanced text = true) :
    (∀ position, cause ≠ .invalid position (.unclosed none)) ∧
      ∀ name, cause = .unknownName name → Symbol.ofName? name = none := by
  cases defect with
  | blank => exact ⟨nofun, nofun⟩
  | brackets _ unmatched => cases matched.symm.trans unmatched
  | @token _ fault => cases fault <;> exact ⟨nofun, nofun⟩
  | @grammar lexemes error _ _ found refused =>
    have closes := closes_parseTokens lexemes
    cases error with
    | fault position fault =>
      refine ⟨fun position e => ?_, nofun⟩
      cases e
      -- the tokens of the text have as many brackets of either kind
      have lt := closes.unclosed _ refused
      rw [surplus_eq_zero matched found] at lt
      exact lt_irrefl 0 lt
    | unknownName name =>
      refine ⟨nofun, fun name e => ?_⟩
      cases e
      exact closes.unknown name refused
    | uncalled => exact ⟨nofun, nofun⟩

/-- The brackets of a text are balanced exactly if no beginning of it has more closing than opening ones and
the text has as many of either. If they are balanced, no error of the text says that the end was found in
the place of a closing bracket, and no name of a function is refused as unknown. -/
theorem parse_closes_brackets (formula : String) :
    (balanced formula.toList = true ↔
      (∀ front, front <+: formula.toList → front.count ')' ≤ front.count '(') ∧
        formula.toList.count '(' = formula.toList.count ')') ∧
    (balanced formula.toList = true → ∀ error, parse formula = .error error →
      (∀ position fault, error.cause = .invalid position fault →
        ¬ "found end of formula".toList <:+ fault.message.toList) ∧
      ∀ name ∈ Function.all.map Function.name, error.cause ≠ .unknownName name) := by
  refine ⟨?_, fun matched error refused => ?_⟩
  · rw [balanced_iff, paired_iff]
    simp only [Nat.zero_add]
  · obtain ⟨cause, defect, rfl⟩ := parse_eq_error_iff.mp refused
    obtain ⟨closed, unknown⟩ := defect.closes matched
    refine ⟨fun position fault e => ?_, fun name mem e => ?_⟩
    · apply Fault.not_suffix_message
      rintro rfl
      exact closed position e
    · obtain ⟨f, -, rfl⟩ := List.mem_map.mp mem
      have known : Symbol.ofName? f.name = some (.function f) := Symbol.ofName?_name (.function f)
      cases known.symm.trans (unknown f.name e)

/-- Two operands in brackets without an operator between them: the second one is found in the place of the
closing bracket. -/
theorem parse_closes_brackets_juxtaposed :
    balanced "(x y)".toList = true ∧
      ∃ error, parse "(x y)" = .error error ∧
        error.cause = .invalid 3 (.unclosed (some (.name "y"))) ∧
        (Fault.unclosed (some (.name "y"))).message = "expected ')', found name 'y'" ∧
        ¬ "found end of formula".toList <:+ (Fault.unclosed (some (.name "y"))).message.toList := by
  have matched : balanced "(x y)".toList = true := by decide
  have refused : parse "(x y)" =
      .error { typed := "(x y)", parsed := "(x y)", cause := .invalid 3 (.unclosed (some (.name "y"))) } := by
    decide +kernel
  obtain ⟨ends, -⟩ := (parse_closes_brackets "(x y)").2 matched _ refused
  exact ⟨matched, _, refused, rfl, by decide, ends _ _ rfl⟩

end Stepwise.Formula
