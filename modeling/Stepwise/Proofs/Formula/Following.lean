import Stepwise.Proofs.Formula.Cursor
import Stepwise.Proofs.Formula.Reading

/-!
# Walks that follow readers

A walk follows a reader if it takes the same expression from the tokens behind the cursor, or is refused for
the same reason, and its cursor stays where it may be. What goes on after a walk follows what goes on after
the reader, so a function is compared with its reader step by step.
-/

namespace Stepwise.Formula

open Walk

/-- A walk ends like a reader: it takes the same expression from at least the tokens up to `least`, with the
cursor in front of the same rest and on level `depth`, or it is refused for the same reason. It is exhausted
only if there were not enough calls or rounds. -/
inductive Ends (tokens : List Lexeme) (enough : Prop) (least depth : ℕ) :
    Except Stop (Expr × Cursor) → Parsed → Prop where
  | done {expr position} : least ≤ position → position ≤ tokens.length →
    Ends tokens enough least depth (.ok (expr, ⟨position, depth⟩)) (.ok (expr, tokens.drop position))
  | refused {error} : Ends tokens enough least depth (.error (.refused error)) (.error error)
  | exhausted {read} : ¬ enough → Ends tokens enough least depth (.error .exhausted) read

/-- A walk follows a reader: it ends like the reader, and its trail stays within the tokens and goes at most
one level beyond `limit`. -/
structure Follows (tokens : List Lexeme) (limit : ℕ) (enough : Prop) (least depth : ℕ)
    (walked : Walked Expr) (read : Parsed) : Prop where
  within : ∀ cursor ∈ walked.trail, cursor.position ≤ tokens.length ∧ cursor.depth ≤ limit + 1
  ends : Ends tokens enough least depth walked.result read

/-- At a position there is a token in front of the rest, or there are no tokens left. -/
lemma drop_cases (tokens : List Lexeme) (position : ℕ) :
    (tokens[position]? = none ∧ tokens.drop position = []) ∨
      ∃ lexeme, tokens[position]? = some lexeme ∧ position < tokens.length ∧
        tokens.drop position = lexeme :: tokens.drop (position + 1) := by
  by_cases lt : position < tokens.length
  case pos =>
    exact .inr ⟨tokens[position], List.getElem?_eq_getElem lt, lt, List.drop_eq_getElem_cons lt⟩
  case neg =>
    have le := Nat.le_of_not_lt lt
    exact .inl ⟨List.getElem?_eq_none le, List.drop_eq_nil_of_le le⟩

/-- A reader that goes on with operators and operands as long as there are any, with one level less for
each of them. -/
def Repeats (operator? : Token → Option Operator) (operand : ℕ → List Lexeme → Parsed)
    (tail : ℕ → Expr → List Lexeme → Parsed) : Prop :=
  ∀ room left tokens, tail room left tokens =
    match operatorAtFront operator? tokens with
    | none => .ok (left, tokens)
    | some (op, rest) =>
      match room with
      | 0 => refuse rest .tooDeep
      | room + 1 => operand room rest >>= fun (right, rest) => tail room (.binary op left right) rest

/-- The loop of a product goes on with operands. -/
lemma repeats_productTail : Repeats Token.productOperator? operand productTail := by
  intro room left tokens
  exact productTail.eq_def room left tokens

/-- The loop of a sum goes on with products. -/
lemma repeats_sumTail : Repeats Token.sumOperator? product sumTail := by
  intro room left tokens
  cases room with
  | zero => exact sumTail.eq_def 0 left tokens
  | succ room => exact sumTail_succ_eq room left tokens

namespace Walk

variable {α β : Type} {step : Walk α} {f : α → Walk β} {tokens : List Lexeme} {cursor cursor' : Cursor}
  {trail : List Cursor}

/-- What comes behind a successful step starts from its cursor, and its trail is put behind that of the
step. -/
lemma run_bind_of_ok {a : α} (h : step.run cursor = ⟨trail, .ok (a, cursor')⟩) :
    (step >>= f).run cursor = ⟨trail ++ ((f a).run cursor').trail, ((f a).run cursor').result⟩ := by
  simp only [Bind.bind, h]

/-- What comes behind a failed step is not run. -/
lemma run_bind_of_error {reason : Stop} (h : step.run cursor = ⟨trail, .error reason⟩) :
    (step >>= f).run cursor = ⟨trail, .error reason⟩ := by
  simp only [Bind.bind, h]

/-- Asking for the cursor leaves it where it is. -/
lemma run_here_bind {f : Cursor → Walk β} : (here >>= f).run cursor = (f cursor).run cursor :=
  rfl

/-- Looking at the next token leaves the cursor where it is. -/
lemma run_peek_bind {f : Option Token → Walk β} :
    (peek tokens >>= f).run cursor = (f (tokens[cursor.position]?.map Lexeme.token)).run cursor :=
  rfl

/-- A fault is placed at the token under the cursor, or at the end. -/
lemma run_blame {fault : Fault} : (blame tokens fault : Walk α).run cursor =
    ⟨[], .error (.refused (.fault (tokens[cursor.position]?.map Lexeme.start) fault))⟩ :=
  rfl

/-- At the end there is no next token, and the cursor stays. -/
lemma run_next_of_none (ended : tokens[cursor.position]? = none) :
    (next tokens).run cursor = ⟨[], .ok (none, cursor)⟩ := by
  rw [next, run_peek_bind, ended]
  rfl

/-- Taking the next token moves the cursor by one. -/
lemma run_next_of_some {lexeme : Lexeme} (front : tokens[cursor.position]? = some lexeme) :
    (next tokens).run cursor = ⟨[{ cursor with position := cursor.position + 1 }],
      .ok (lexeme.token, { cursor with position := cursor.position + 1 })⟩ := by
  rw [next, run_peek_bind, front]
  rfl

/-- A closing bracket is passed, and anything else in its place is a fault. -/
lemma run_passClosing : (passClosing tokens).run cursor =
    (match tokens[cursor.position]?.map Lexeme.token with
      | some .closing => advance
      | found => blame tokens (.unclosed found)).run cursor :=
  rfl

/-- Going one level down moves the cursor there before the limit is checked. -/
lemma run_descend : (descend tokens).run cursor =
    (moveTo { cursor with depth := cursor.depth + 1 } >>= fun _ =>
      if maxDepth < cursor.depth + 1 then blame tokens .tooDeep else pure ()).run cursor :=
  rfl

/-- With all levels in use, one more is refused, after it has been counted. -/
lemma run_descend_of_full (full : maxDepth < cursor.depth + 1) :
    (descend tokens).run cursor =
      ⟨[{ cursor with depth := cursor.depth + 1 }],
        .error (.refused (.fault (tokens[cursor.position]?.map Lexeme.start) .tooDeep))⟩ := by
  rw [run_descend, if_pos full]
  rfl

/-- Where levels are left, going down moves the cursor and nothing else. -/
lemma run_descend_of_room (room : ¬ maxDepth < cursor.depth + 1) :
    (descend tokens).run cursor =
      ⟨[{ cursor with depth := cursor.depth + 1 }],
        .ok ((), { cursor with depth := cursor.depth + 1 })⟩ := by
  rw [run_descend, if_neg room]
  rfl

end Walk

namespace Follows

variable {tokens : List Lexeme} {limit least least' depth depth' position : ℕ} {enough enough' : Prop}
  {walked : Walked Expr} {read : Parsed}

/-- A walk that has ended follows the reader that has taken the same tokens. -/
lemma done {expr : Expr} (le : least ≤ position) (le' : position ≤ tokens.length) :
    Follows tokens limit enough least depth ((pure expr : Walk Expr).run ⟨position, depth⟩)
      (.ok (expr, tokens.drop position)) where
  within := nofun
  ends := .done le le'

/-- A refused walk follows a reader that refuses for the same reason. -/
lemma stop (error : ParseError) (cursor : Cursor) :
    Follows tokens limit enough least depth ((Walk.stop (.refused error)).run cursor) (.error error) where
  within := nofun
  ends := .refused

/-- A fault at the cursor is at the first token that is left. -/
lemma blame (fault : Fault) :
    Follows tokens limit enough least depth ((Walk.blame tokens fault).run ⟨position, depth'⟩)
      (refuse (tokens.drop position) fault) := by
  rw [refuse, List.head?_drop]
  exact stop _ ⟨position, depth'⟩

/-- A walk may run out of calls or rounds where these were not enough. -/
lemma exhausted {cursor : Cursor} (short : ¬ enough) :
    Follows tokens limit enough least depth ((Walk.stop .exhausted).run cursor) read where
  within := nofun
  ends := .exhausted short

/-- A walk still follows a reader if more calls are asked for or fewer tokens have to be passed. -/
lemma mono (h : Follows tokens limit enough' least' depth walked read) (more : enough → enough')
    (le : least ≤ least') : Follows tokens limit enough least depth walked read where
  within := h.within
  ends := by
    obtain ⟨-, ends⟩ := h
    generalize walked.result = result at ends
    cases ends with
    | done le' le'' => exact .done (Nat.le_trans le le') le''
    | refused => exact .refused
    | exhausted short => exact .exhausted fun many => short (more many)

/-- A walk that follows a reader never counts below zero. -/
lemma not_underflow (h : Follows tokens limit enough least depth walked read) :
    walked.result ≠ .error .underflow := by
  obtain ⟨-, ends⟩ := h
  generalize walked.result = result at ends
  cases ends <;> exact nofun

/-- Where an expression is returned, the cursor is behind the tokens that it takes. -/
lemma bounds (h : Follows tokens limit enough least depth walked read) {expr : Expr} {cursor : Cursor}
    (e : walked.result = .ok (expr, cursor)) :
    least ≤ cursor.position ∧ cursor.position ≤ tokens.length ∧ cursor.depth = depth := by
  obtain ⟨-, ends⟩ := h
  rw [e] at ends
  cases ends with
  | done le le' => exact ⟨le, le', rfl⟩

/-- With enough rounds and calls, a walk returns what the reader returns. -/
lemma map_eq {β : Type} (h : Follows tokens limit enough least depth walked read) (many : enough)
    (f : Expr × List Lexeme → β) :
    walked.result.map (fun (expr, cursor) => f (expr, tokens.drop cursor.position)) =
      (read.map f).mapError .refused := by
  obtain ⟨-, ends⟩ := h
  generalize walked.result = result at ends
  cases ends with
  | done => rfl
  | refused => rfl
  | exhausted short => exact absurd many short

/-- What goes on after a walk follows what goes on after the reader. -/
lemma bind {step : Walk Expr} {f : Expr → Walk Expr} {g : Expr × List Lexeme → Parsed} {cursor : Cursor}
    (h : Follows tokens limit enough least' depth' (step.run cursor) read)
    (later : ∀ expr position, least' ≤ position → position ≤ tokens.length →
      Follows tokens limit enough least depth ((f expr).run ⟨position, depth'⟩)
        (g (expr, tokens.drop position))) :
    Follows tokens limit enough least depth ((step >>= f).run cursor) (read >>= g) := by
  generalize e : step.run cursor = walked at h
  obtain ⟨trail, result⟩ := walked
  obtain ⟨within, ends⟩ := h
  cases ends with
  | @done expr position le le' =>
    have h := later expr position le le'
    rw [run_bind_of_ok e]
    exact ⟨List.forall_mem_append.mpr ⟨within, h.within⟩, h.ends⟩
  | refused =>
    rw [run_bind_of_error e]
    exact ⟨within, .refused⟩
  | exhausted short =>
    rw [run_bind_of_error e]
    exact ⟨within, .exhausted short⟩

/-- Nothing goes on after a step that is refused. -/
lemma refused {α : Type} {step : Walk α} {f : α → Walk Expr} {error : ParseError} {cursor : Cursor}
    (e : step.run cursor = ⟨[], .error (.refused error)⟩) :
    Follows tokens limit enough least depth ((step >>= f).run cursor) (.error error) := by
  rw [run_bind_of_error e]
  exact ⟨nofun, .refused⟩

/-- What goes on after a step that moves the cursor once, within the tokens and the levels. -/
lemma moved {α : Type} {step : Walk α} {f : α → Walk Expr} {a : α} {cursor cursor' : Cursor}
    (e : step.run cursor = ⟨[cursor'], .ok (a, cursor')⟩) (le : cursor'.position ≤ tokens.length)
    (le' : cursor'.depth ≤ limit + 1)
    (h : Follows tokens limit enough least depth ((f a).run cursor') read) :
    Follows tokens limit enough least depth ((step >>= f).run cursor) read := by
  rw [run_bind_of_ok e]
  exact ⟨List.forall_mem_cons.mpr ⟨⟨le, le'⟩, h.within⟩, h.ends⟩

/-- A walk may pass a token first, if one is left. -/
lemma advance {f : Unit → Walk Expr} (lt : position < tokens.length) (le : depth' ≤ limit + 1)
    (h : Follows tokens limit enough least depth ((f ()).run ⟨position + 1, depth'⟩) read) :
    Follows tokens limit enough least depth ((Walk.advance >>= f).run ⟨position, depth'⟩) read := by
  have e : Walk.advance.run ⟨position, depth'⟩ =
      ⟨[⟨position + 1, depth'⟩], .ok ((), ⟨position + 1, depth'⟩)⟩ := rfl
  exact moved e lt le h

/-- The next level is taken if there is one left. -/
lemma descend {f : Unit → Walk Expr} (le : position ≤ tokens.length) (within : depth' ≤ limit)
    (full : maxDepth - depth' = 0 → read = refuse (tokens.drop position) .tooDeep)
    (later : maxDepth - depth' = maxDepth - (depth' + 1) + 1 → depth' + 1 ≤ maxDepth →
      Follows tokens limit enough least depth ((f ()).run ⟨position, depth' + 1⟩) read) :
    Follows tokens limit enough least depth ((Walk.descend tokens >>= f).run ⟨position, depth'⟩) read := by
  by_cases used : maxDepth < depth' + 1
  case pos =>
    have none : maxDepth - depth' = 0 := Nat.sub_eq_zero_of_le (Nat.le_of_lt_succ used)
    rw [run_bind_of_error (run_descend_of_full used), full none, refuse, List.head?_drop]
    exact ⟨List.forall_mem_singleton.mpr ⟨le, Nat.succ_le_succ within⟩, .refused⟩
  case neg =>
    have some : maxDepth - depth' = maxDepth - (depth' + 1) + 1 := by omega
    exact moved (run_descend_of_room used) le (Nat.succ_le_succ within)
      (later some (Nat.le_of_not_lt used))

/-- Leaving a level leaves the tokens as they are. -/
lemma ascend {step : Walk Expr} {cursor : Cursor} (within : depth ≤ limit + 1)
    (h : Follows tokens limit enough least (depth + 1) (step.run cursor) read) :
    Follows tokens limit enough least depth
      ((do
        let expr ← step
        Walk.ascend
        return expr).run cursor) read := by
  rw [← bind_pure read]
  refine h.bind fun expr position le le' => ?_
  exact moved rfl le' within (done le le')

/-- A closing bracket is passed behind what it closes. -/
lemma passClosing {expr : Expr} (le : least ≤ position) (within : depth ≤ limit + 1) :
    Follows tokens limit enough least depth
      ((do
        Walk.passClosing tokens
        return expr).run ⟨position, depth⟩)
      (do
        let rest ← closeBracket (tokens.drop position)
        return (expr, rest)) := by
  rcases drop_cases tokens position with ⟨ended, e⟩ | ⟨⟨start, token⟩, front, lt, e⟩
  · rw [e]
    refine refused ?_
    simp only [run_passClosing, run_blame, ended, Option.map_none, List.head?_nil]
  · rw [e]
    cases token with
    | closing =>
      have passed : (Walk.passClosing tokens).run ⟨position, depth⟩ =
          ⟨[⟨position + 1, depth⟩], .ok ((), ⟨position + 1, depth⟩)⟩ := by
        rw [run_passClosing, front]
        rfl
      exact moved passed lt within (done (Nat.le_succ_of_le le) lt)
    | _ =>
      refine refused ?_
      simp only [run_passClosing, run_blame, front, Option.map_some, List.head?_cons]

/-- A loop over operators and operands follows the reader of them, if the rounds are enough. -/
lemma chain {operator? : Token → Option Operator} {item : Walk Expr} {operand : ℕ → List Lexeme → Parsed}
    {tail : ℕ → Expr → List Lexeme → Parsed} (repeats : Repeats operator? operand tail)
    {first entered rounds : ℕ} {left : Expr}
    (items : ∀ position depth, position ≤ tokens.length → first ≤ depth → depth ≤ limit →
      Follows tokens limit enough (position + 1) depth (item.run ⟨position, depth⟩)
        (operand (maxDepth - depth) (tokens.drop position)))
    (deep : maxDepth ≤ limit) (back : entered ≤ limit) (le : position ≤ tokens.length)
    (deeper : first ≤ depth) (within : depth ≤ limit) (many : enough → maxDepth - depth < rounds) :
    Follows tokens limit enough position entered
      ((Walk.chain tokens operator? item entered rounds left).run ⟨position, depth⟩)
      (tail (maxDepth - depth) left (tokens.drop position)) := by
  induction rounds generalizing position depth left with
  | zero => exact exhausted fun h => Nat.not_lt_zero _ (many h)
  | succ rounds ih =>
    rw [Walk.chain, run_peek_bind, repeats]
    have ends : Follows tokens limit enough position entered
        ((do
          restore entered
          return left : Walk Expr).run ⟨position, depth⟩) (.ok (left, tokens.drop position)) :=
      moved rfl le (Nat.le_succ_of_le back) (done (Nat.le_refl _) le)
    rcases drop_cases tokens position with ⟨ended, e⟩ | ⟨lexeme, front, lt, e⟩
    · rw [e] at ends ⊢
      simp only [ended]
      exact ends
    · simp only [e, front, operatorAtFront, Option.map_some, Option.bind_some]
      rw [e] at ends
      cases operator? lexeme.token with
      | none => exact ends
      | some op =>
        simp only [Option.map_some]
        refine advance lt (Nat.le_succ_of_le within) (descend lt within (fun full => ?_) fun room up => ?_)
        · rw [full]
        · rw [room]
          -- the next round is one level deeper, so the rounds last as long as the levels
          have within := Nat.le_trans up deep
          have next : first ≤ depth + 1 := Nat.le_succ_of_le deeper
          refine (items (position + 1) (depth + 1) lt next within).bind fun right behind passed le => ?_
          refine (ih le next within fun h => ?_).mono id (by omega)
          have lt := many h
          omega

end Follows

end Stepwise.Formula
