import Stepwise.Proofs.Formula.Following

/-!
# Where the cursor goes

The functions with a cursor read what the readers read from the tokens that are not passed, with the levels
that are not in use. Each of them passes a token, and none passes the end or leaves the cursor on another
level than the one it finds it on.
-/

namespace Stepwise.Formula

open Walk

/-- What a function reads behind the cursor with `room` levels left. -/
def Rule.read (room : ℕ) : Rule → List Lexeme → Parsed
  | .sum => Formula.sum room
  | .product => Formula.product room
  | .operand => Formula.operand room
  | .power => Formula.power (Formula.sum room) (Formula.operand room)
  | .primary => Formula.primary (Formula.sum room)
  | .name text => fun rest => Formula.primary (Formula.sum room) (⟨0, .name text⟩ :: rest)

/-- How many tokens a function passes at least: the name that is looked up has been passed. -/
def Rule.least : Rule → ℕ
  | .name _ => 0
  | _ => 1

/-- How many calls within each other it takes a function to get to the next level, itself included. -/
def Rule.height : Rule → ℕ
  | .operand => 1
  | .product => 2
  | .sum => 3
  | .name _ => 4
  | .primary => 5
  | .power => 6

/-- The rounds are enough for any loop, and the calls for a function of this height with `room` levels
left. -/
def Suffices (rounds calls height room : ℕ) : Prop :=
  maxDepth < rounds ∧ 6 * room + height ≤ calls

/-- What is enough for a function is enough for a lower one and with fewer levels left. -/
lemma Suffices.mono {rounds calls height height' room room' : ℕ} (h : Suffices rounds calls height room)
    (lower : height' ≤ height) (less : room' ≤ room) : Suffices rounds calls height' room' := by
  obtain ⟨many, more⟩ := h
  refine ⟨many, ?_⟩
  omega

/-- What is enough for a call is enough, without that call, for the calls that it makes. -/
lemma Suffices.pred {rounds calls height room : ℕ} (h : Suffices rounds (calls + 1) (height + 1) room) :
    Suffices rounds calls height room :=
  ⟨h.1, Nat.le_of_succ_le_succ h.2⟩

/-- Calls of the functions within so many calls follow the readers. -/
def Walks (tokens : List Lexeme) (limit rounds calls : ℕ) : Prop :=
  ∀ rule position depth, position ≤ tokens.length → depth ≤ limit →
    Follows tokens limit (Suffices rounds calls rule.height (maxDepth - depth)) (position + rule.least) depth
      ((walk tokens rounds calls rule).run ⟨position, depth⟩)
      (rule.read (maxDepth - depth) (tokens.drop position))

namespace Walks

variable {tokens : List Lexeme} {limit rounds calls height position depth least : ℕ}

/-- A call of a function that is not higher than what the calls are enough for. -/
lemma call (walks : Walks tokens limit rounds calls) (rule : Rule) (lower : rule.height ≤ height)
    (le : position ≤ tokens.length) (within : depth ≤ limit) :
    Follows tokens limit (Suffices rounds calls height (maxDepth - depth)) (position + rule.least) depth
      ((walk tokens rounds calls rule).run ⟨position, depth⟩)
      (rule.read (maxDepth - depth) (tokens.drop position)) :=
  (walks rule position depth le within).mono (fun h => h.mono lower (Nat.le_refl _)) (Nat.le_refl _)

/-- The first part of a sum or product is read on the level on which the sum or product is entered, and the
loop returns to that level. -/
lemma chained (walks : Walks tokens limit rounds calls) {part : Rule} (some : part.least = 1)
    {operator? : Token → Option Operator} {tail : ℕ → Expr → List Lexeme → Parsed}
    (repeats : Repeats operator? (fun room => part.read room) tail) (deep : maxDepth ≤ limit)
    (le : position ≤ tokens.length) (within : depth ≤ limit) :
    Follows tokens limit (Suffices rounds calls part.height (maxDepth - depth)) (position + 1) depth
      ((do
        let entered ← here
        let first ← walk tokens rounds calls part
        chain tokens operator? (walk tokens rounds calls part) entered.depth rounds first).run
          ⟨position, depth⟩)
      (part.read (maxDepth - depth) (tokens.drop position) >>= fun (first, rest) =>
        tail (maxDepth - depth) first rest) := by
  have parts (position depth' : ℕ) (le : position ≤ tokens.length) (deeper : depth ≤ depth')
      (within : depth' ≤ limit) :
      Follows tokens limit (Suffices rounds calls part.height (maxDepth - depth)) (position + 1) depth'
        ((walk tokens rounds calls part).run ⟨position, depth'⟩)
        (part.read (maxDepth - depth') (tokens.drop position)) := by
    rw [← some]
    refine (walks part position depth' le within).mono (fun h => ?_) (Nat.le_refl _)
    exact h.mono (Nat.le_refl _) (Nat.sub_le_sub_left deeper maxDepth)
  rw [run_here_bind]
  refine (parts position depth le (Nat.le_refl _) within).bind fun first behind passed le => ?_
  refine (Follows.chain repeats parts deep within le (Nat.le_refl _) within fun h => ?_).mono id passed
  exact Nat.lt_of_le_of_lt (Nat.sub_le _ _) h.1

/-- Reading a sum at the cursor, if the calls below follow the readers. -/
lemma sum (walks : Walks tokens limit rounds calls) (deep : maxDepth ≤ limit) (le : position ≤ tokens.length)
    (within : depth ≤ limit) :
    Follows tokens limit (Suffices rounds calls 2 (maxDepth - depth)) (position + 1) depth
      ((perform tokens rounds (walk tokens rounds calls) .sum).run ⟨position, depth⟩)
      (Formula.sum (maxDepth - depth) (tokens.drop position)) :=
  @chained _ _ _ _ _ _ walks .product rfl _ _ repeats_sumTail deep le within

/-- Reading a product at the cursor. -/
lemma product (walks : Walks tokens limit rounds calls) (deep : maxDepth ≤ limit)
    (le : position ≤ tokens.length) (within : depth ≤ limit) :
    Follows tokens limit (Suffices rounds calls 1 (maxDepth - depth)) (position + 1) depth
      ((perform tokens rounds (walk tokens rounds calls) .product).run ⟨position, depth⟩)
      (Formula.product (maxDepth - depth) (tokens.drop position)) :=
  @chained _ _ _ _ _ _ walks .operand rfl _ _ repeats_productTail deep le within

/-- What an operand does on its own level. -/
lemma signed (walks : Walks tokens limit rounds calls) (le : position ≤ tokens.length)
    (within : depth ≤ limit) :
    Follows tokens limit (Suffices rounds calls 6 (maxDepth - depth)) (position + 1) depth
      ((signed tokens (walk tokens rounds calls)).run ⟨position, depth⟩)
      (Formula.operand (maxDepth - depth + 1) (tokens.drop position)) := by
  have powers := walks.call .power (Nat.le_refl _) le within
  rw [Formula.signed, run_peek_bind, operand_succ_eq]
  rcases drop_cases tokens position with ⟨ended, e⟩ | ⟨⟨start, token⟩, front, lt, e⟩
  · rw [e] at powers ⊢
    simp only [ended]
    exact powers
  · rw [e] at powers ⊢
    simp only [front]
    have operands := walks.call .operand (show 1 ≤ 6 by decide) lt within
    cases token with
    | minus =>
      refine Follows.advance lt (Nat.le_succ_of_le within) ?_
      exact operands.bind fun arg behind passed le => .done (Nat.le_of_succ_le passed) le
    | plus =>
      refine Follows.advance lt (Nat.le_succ_of_le within) ?_
      exact operands.mono id (Nat.le_succ _)
    | _ => exact powers

/-- Reading an operand at the cursor. It is the only function that goes one level down, so it takes one call
more. -/
lemma operand (walks : Walks tokens limit rounds calls) (deep : maxDepth ≤ limit)
    (le : position ≤ tokens.length) (within : depth ≤ limit) :
    Follows tokens limit (Suffices rounds (calls + 1) 1 (maxDepth - depth)) (position + 1) depth
      ((perform tokens rounds (walk tokens rounds calls) .operand).run ⟨position, depth⟩)
      (Formula.operand (maxDepth - depth) (tokens.drop position)) := by
  refine Follows.descend le within (fun full => ?_) fun room up => ?_
  · rw [full, Formula.operand]
  · refine Follows.ascend (Nat.le_succ_of_le within) ?_
    rw [room]
    refine (walks.signed le (Nat.le_trans up deep)).mono (fun h => ?_) (Nat.le_refl _)
    -- one level costs six calls
    exact ⟨h.1, Nat.le_of_succ_le_succ h.2⟩

/-- Reading a power at the cursor, whose operands are a primary and the exponent behind the sign. -/
lemma power (walks : Walks tokens limit rounds calls) (le : position ≤ tokens.length)
    (within : depth ≤ limit) :
    Follows tokens limit (Suffices rounds calls 5 (maxDepth - depth)) (position + 1) depth
      ((perform tokens rounds (walk tokens rounds calls) .power).run ⟨position, depth⟩)
      (Formula.power (Formula.sum (maxDepth - depth)) (Formula.operand (maxDepth - depth))
        (tokens.drop position)) := by
  refine (walks.call .primary (Nat.le_refl _) le within).bind fun base behind passed le => ?_
  rw [run_peek_bind]
  have alone : Follows tokens limit (Suffices rounds calls 5 (maxDepth - depth)) (position + 1) depth
      ((pure base : Walk Expr).run ⟨behind, depth⟩) (.ok (base, tokens.drop behind)) := .done passed le
  rcases drop_cases tokens behind with ⟨ended, e⟩ | ⟨⟨start, token⟩, front, lt, e⟩
  · rw [e] at alone
    simp only [ended, e]
    exact alone
  · rw [e] at alone
    simp only [front, e]
    cases token with
    | power =>
      refine Follows.advance lt (Nat.le_succ_of_le within) ?_
      refine (walks.call .operand (show 1 ≤ 5 by decide) lt within).bind fun exponent after passed' le => ?_
      exact .done (by omega) le
    | _ => exact alone

/-- A bracket that is opened is closed behind the sum in it. -/
lemma bracketed (walks : Walks tokens limit rounds calls) (lower : 3 ≤ height) (build : Expr → Expr)
    (lt : position < tokens.length) (within : depth ≤ limit) :
    Follows tokens limit (Suffices rounds calls height (maxDepth - depth)) (position + 1) depth
      ((do
        let inner ← walk tokens rounds calls .sum
        passClosing tokens
        return build inner).run ⟨position + 1, depth⟩)
      (do
        let (inner, rest) ← Formula.sum (maxDepth - depth) (tokens.drop (position + 1))
        let rest ← closeBracket rest
        return (build inner, rest)) := by
  refine (walks.call .sum lower lt within).bind fun inner behind passed le => ?_
  exact .passClosing (Nat.le_of_succ_le passed) (Nat.le_succ_of_le within)

/-- Reading what a name begins. The name has been passed, so no token needs to be consumed. -/
lemma name (walks : Walks tokens limit rounds calls) (text : String) (le : position ≤ tokens.length)
    (within : depth ≤ limit) :
    Follows tokens limit (Suffices rounds calls 3 (maxDepth - depth)) position depth
      ((perform tokens rounds (walk tokens rounds calls) (.name text)).run ⟨position, depth⟩)
      (Formula.primary (Formula.sum (maxDepth - depth)) (⟨0, .name text⟩ :: tokens.drop position)) := by
  simp only [perform, Formula.primary]
  cases meaning : Symbol.ofName? text with
  | none => exact .stop _ _
  | some symbol =>
    cases symbol with
    | «variable» => exact .done (Nat.le_refl _) le
    | constant c => exact .done (Nat.le_refl _) le
    | function f =>
      -- the second look-up finds the function again
      simp only [Expr.call?_of_ofName? meaning]
      rw [run_peek_bind]
      rcases drop_cases tokens position with ⟨ended, e⟩ | ⟨⟨start, token⟩, front, lt, e⟩
      · simp only [ended, e]
        exact .stop _ _
      · simp only [front, e]
        cases token with
        | opening =>
          refine Follows.advance lt (Nat.le_succ_of_le within) ?_
          exact (walks.bracketed (Nat.le_refl _) (.call f) lt within).mono id (Nat.le_succ _)
        | _ => exact .stop _ _

/-- Reading a number, a name or a group at the cursor. -/
lemma primary (walks : Walks tokens limit rounds calls) (le : position ≤ tokens.length)
    (within : depth ≤ limit) :
    Follows tokens limit (Suffices rounds calls 4 (maxDepth - depth)) (position + 1) depth
      ((perform tokens rounds (walk tokens rounds calls) .primary).run ⟨position, depth⟩)
      (Formula.primary (Formula.sum (maxDepth - depth)) (tokens.drop position)) := by
  simp only [perform]
  have blamed (found : Option Token) := @Follows.blame tokens limit (position + 1) depth depth position
    (Suffices rounds calls 4 (maxDepth - depth)) (.unexpected found)
  rcases drop_cases tokens position with ⟨ended, e⟩ | ⟨⟨start, token⟩, front, lt, e⟩
  · rw [run_bind_of_ok (run_next_of_none ended)]
    rw [e] at blamed ⊢
    exact blamed none
  · refine Follows.moved (run_next_of_some front) lt (Nat.le_succ_of_le within) ?_
    -- a token that begins no primary has been passed already, so the cursor goes back to it
    have unexpected {found : Option Token} : Follows tokens limit (Suffices rounds calls 4 (maxDepth - depth))
        (position + 1) depth ((do
          back
          Walk.blame tokens (.unexpected found)).run ⟨position + 1, depth⟩)
        (refuse (tokens.drop position) (.unexpected found)) :=
      .moved rfl le (Nat.le_succ_of_le within) (blamed found)
    rw [e] at unexpected ⊢
    cases token with
    | number value => exact .done (Nat.le_refl _) lt
    | opening => exact walks.bracketed (show 3 ≤ 4 by decide) id lt within
    | name text => exact walks.call (.name text) (Nat.le_refl _) lt within
    | _ => exact unexpected

end Walks

section Whole

variable {tokens : List Lexeme} {limit rounds calls : ℕ}

/-- The functions that move a cursor follow the readers that pass on the rest of the tokens, at every depth
of calls. -/
lemma walks (tokens : List Lexeme) (deep : maxDepth ≤ limit) (rounds calls : ℕ) :
    Walks tokens limit rounds calls := by
  -- A function calls the others with one call less, so all of them are proved at once.
  induction calls with
  | zero =>
    intro rule position depth le within
    refine .exhausted fun h => ?_
    have few := h.2
    cases rule <;> cases few
  | succ calls ih =>
    intro rule position depth le within
    have same {least : ℕ} : least ≤ least := Nat.le_refl least
    cases rule with
    | sum => exact (ih.sum deep le within).mono Suffices.pred same
    | product => exact (ih.product deep le within).mono Suffices.pred same
    | operand => exact ih.operand deep le within
    | power => exact (ih.power le within).mono Suffices.pred same
    | primary => exact (ih.primary le within).mono Suffices.pred same
    | name text => exact (ih.name text le within).mono Suffices.pred same

/-- Reads a sum that nothing follows. -/
def lastSum (tokens : List Lexeme) : Parsed := do
  let (expr, rest) ← sum maxDepth tokens
  match rest with
  | [] => return (expr, rest)
  | lexeme :: _ => refuse rest (.unexpected (some lexeme.token))

/-- Parsing reads a sum that nothing follows and keeps its expression. -/
lemma parseTokens_eq_lastSum (tokens : List Lexeme) :
    parseTokens tokens = (lastSum tokens).map Prod.fst := by
  rw [parseTokens, lastSum]
  cases sum maxDepth tokens with
  | error error => rfl
  | ok read =>
    obtain ⟨expr, rest⟩ := read
    cases rest <;> rfl

/-- The whole walk over the tokens follows the reader of a last sum. -/
lemma follows_lastSum (tokens : List Lexeme) (deep : maxDepth ≤ limit) (rounds calls : ℕ) :
    Follows tokens limit (Suffices rounds calls 3 maxDepth) 1 0 ((walkTokens tokens rounds calls).run ⟨0, 0⟩)
      (lastSum tokens) := by
  refine (walks tokens deep rounds calls .sum 0 0 (Nat.zero_le _) (Nat.zero_le _)).bind
    fun expr behind passed le => ?_
  rw [run_peek_bind]
  rcases drop_cases tokens behind with ⟨ended, e⟩ | ⟨lexeme, front, lt, e⟩
  · have all : Follows tokens limit (Suffices rounds calls 3 maxDepth) 1 0
        ((pure expr : Walk Expr).run ⟨behind, 0⟩) (.ok (expr, tokens.drop behind)) := .done passed le
    rw [e] at all
    simp only [ended, e]
    exact all
  · have blamed := @Follows.blame tokens limit 1 0 0 behind (Suffices rounds calls 3 maxDepth)
      (.unexpected (some lexeme.token))
    rw [e] at blamed
    simp only [front, e]
    exact blamed

/-- Wherever within the tokens a function is called, it never takes one from a count that is zero, the cursor
stays within the tokens, and it goes at most one level beyond those that are allowed or in use already. If
the function returns an expression, it has passed a token (a name that is looked up has been passed before),
and the cursor is on the level of the call. With so many rounds and calls within each other, which do not
depend on the tokens, it reads what the reader of the same name reads.

So a walk over all tokens from the beginning is never on more than 257 levels, and with so many rounds and
calls it returns what the parser returns. -/
theorem walk_keeps_cursor (tokens : List Lexeme) :
    (∀ rounds calls rule start, start.position ≤ tokens.length →
      let walked := (walk tokens rounds calls rule).run start
      walked.result ≠ .error .underflow ∧
      (∀ cursor ∈ walked.trail,
        cursor.position ≤ tokens.length ∧ cursor.depth ≤ max start.depth maxDepth + 1) ∧
      (∀ expr cursor, walked.result = .ok (expr, cursor) →
        start.position + rule.least ≤ cursor.position ∧ cursor.position ≤ tokens.length ∧
          cursor.depth = start.depth) ∧
      (maxDepth < rounds → 6 * maxDepth + 6 ≤ calls →
        walked.result.map (fun (expr, cursor) => (expr, tokens.drop cursor.position)) =
          (rule.read (maxDepth - start.depth) (tokens.drop start.position)).mapError .refused)) ∧
    ∀ rounds calls,
      let walked := (walkTokens tokens rounds calls).run ⟨0, 0⟩
      walked.result ≠ .error .underflow ∧
      (∀ cursor ∈ walked.trail, cursor.position ≤ tokens.length ∧ cursor.depth ≤ 257) ∧
      (maxDepth < rounds → 6 * maxDepth + 6 ≤ calls →
        walked.result.map Prod.fst = (parseTokens tokens).mapError .refused) := by
  refine ⟨fun rounds calls rule start le => ?_, fun rounds calls => ?_⟩
  · have follows := walks tokens (Nat.le_max_right start.depth maxDepth) rounds calls rule start.position
      start.depth le (Nat.le_max_left _ _)
    refine ⟨follows.not_underflow, follows.within, fun expr cursor e => follows.bounds e, fun many more => ?_⟩
    have enough : Suffices rounds calls rule.height (maxDepth - start.depth) := by
      refine ⟨many, ?_⟩
      cases rule <;> simp only [Rule.height] <;> omega
    have same := follows.map_eq enough id
    rw [Except.map_id] at same
    exact same
  · have follows := follows_lastSum tokens (Nat.le_refl maxDepth) rounds calls
    refine ⟨follows.not_underflow, follows.within, fun many more => ?_⟩
    rw [parseTokens_eq_lastSum]
    exact follows.map_eq ⟨many, by omega⟩ Prod.fst

/-- The tokens of `-(x)`. -/
def negatedGroup : List Lexeme :=
  [⟨0, .minus⟩, ⟨1, .opening⟩, ⟨2, .name "x"⟩, ⟨3, .closing⟩]

/-- All tokens of `-(x)` are passed, and the cursor returns to the level that it comes from. -/
theorem walk_keeps_cursor_negatedGroup :
    let walked := (walk negatedGroup 257 1542 .sum).run ⟨0, 0⟩
    (0 ≤ negatedGroup.length ∧ maxDepth < 257 ∧ 6 * maxDepth + 6 ≤ 1542) ∧
      ∃ cursor, walked.result = .ok (.neg .var, cursor) ∧ 0 + 1 ≤ cursor.position ∧
        cursor.position ≤ negatedGroup.length ∧ cursor.depth = 0 ∧
        (∀ cursor ∈ walked.trail, cursor.position ≤ negatedGroup.length ∧ cursor.depth ≤ 257) ∧
        walked.result.map (fun (expr, cursor) => (expr, negatedGroup.drop cursor.position)) =
          (sum maxDepth negatedGroup).mapError .refused := by
  have le : 0 ≤ negatedGroup.length := Nat.zero_le _
  have many : maxDepth < 257 ∧ 6 * maxDepth + 6 ≤ 1542 := by decide
  have read : ((walk negatedGroup 257 1542 .sum).run ⟨0, 0⟩).result = .ok (.neg .var, ⟨4, 0⟩) := by
    decide +kernel
  obtain ⟨-, within, passed, same⟩ := (walk_keeps_cursor negatedGroup).1 257 1542 .sum ⟨0, 0⟩ le
  obtain ⟨least, most, level⟩ := passed _ _ read
  exact ⟨⟨le, many⟩, _, read, least, most, level, within, same many.1 many.2⟩

end Whole

end Stepwise.Formula
