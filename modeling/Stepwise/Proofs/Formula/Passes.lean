import Stepwise.Proofs.Formula.Literals
import Stepwise.Proofs.Formula.Products

/-!
# The rules for names and brackets

The rule for names puts a star between a name that is no function and the bracket behind it, and the rule
for brackets puts one behind a closing bracket where a value follows. Neither leaves a place for itself or
for the other one to do more.
-/

namespace Stepwise.Formula

open Text (replace)

/-- A text with stars put in before opening brackets and behind closing ones. -/
inductive Starred : List Char → List Char → Prop where
  | nil : Starred [] []
  | keep {c text text'} : Starred text text' → Starred (c :: text) (c :: text')
  | opening {text text'} : Starred text text' → Starred ('(' :: text) ('*' :: '(' :: text')
  | closing {text text'} : Starred text text' → Starred (')' :: text) (')' :: '*' :: text')

namespace Starred

variable {text text' : List Char}

/-- Putting stars in at brackets is putting stars in. -/
lemma inserted (h : Starred text text') : Inserted text text' := by
  induction h with
  | nil => exact .nil
  | keep _ ih => exact .keep ih
  | opening _ ih => exact .star (.keep ih)
  | closing _ ih => exact .keep (.star ih)

/-- A word can stand in front of a text with stars put in. -/
lemma append (word : List Char) (h : Starred text text') : Starred (word ++ text) (word ++ text') := by
  induction word with
  | nil => exact h
  | cons c word ih => exact .keep ih

/-- Nothing is put into a word without brackets. -/
lemma of_append {word starred : List Char} (others : ∀ c ∈ word, c ≠ '(' ∧ c ≠ ')')
    (h : Starred (word ++ text) starred) : ∃ text', starred = word ++ text' ∧ Starred text text' := by
  induction word generalizing starred with
  | nil => exact ⟨starred, rfl, h⟩
  | cons c word ih =>
    obtain ⟨ne, ne'⟩ := others c (List.mem_cons_self ..)
    cases h with
    | keep h =>
      obtain ⟨behind, rfl, starred⟩ := ih (fun d mem => others d (List.mem_cons_of_mem _ mem)) h
      exact ⟨behind, rfl, starred⟩
    | opening => exact absurd rfl ne
    | closing => exact absurd rfl ne'

end Starred

/-- A name, of whatever it may be. -/
structure Named (name : List Char) : Prop where
  ne_nil : name ≠ []
  starts : ∀ c ∈ name.head?, isNameLetter c = true
  continues : ∀ c ∈ name, isNameChar c = true

/-- A text seen as names and single characters, some names with a bracket behind them. -/
inductive Split : List Char → Prop where
  | nil : Split []
  | name {name text} : Named name → (∀ c ∈ text.head?, isNameChar c = false) →
    (∀ c ∈ text.head?, (c == '(') = false) → Split text → Split (name ++ text)
  | call {name text} : Named name → Split text → Split (name ++ '(' :: text)
  | other {c text} : isNameLetter c = false → Split text → Split (c :: text)

/-- Every text can be seen so. -/
lemma split (text : List Char) : Split text := by
  induction h : text.length using Nat.strong_induction_on generalizing text with
  | _ length ih =>
    subst h
    cases text with
    | nil => exact .nil
    | cons c text =>
      -- A name is taken as a whole, together with the bracket behind it if there is one.
      by_cases letter : isNameLetter c = true
      case neg => exact .other (eq_false_of_ne_true letter) (ih _ (Nat.lt_succ_self _) text rfl)
      case pos =>
        have named : Named (c :: text.takeWhile isNameChar) := by
          refine ⟨List.cons_ne_nil _ _, fun d mem => by cases mem; exact letter, ?_⟩
          refine List.forall_mem_cons.mpr ⟨Bool.or_eq_true_iff.mpr (.inl letter), ?_⟩
          exact fun d mem => List.mem_takeWhile_imp mem
        have outside : ∀ d ∈ (text.dropWhile isNameChar).head?, isNameChar d = false := by
          intro d mem
          have ends := List.head?_dropWhile_not isNameChar text
          rw [Option.mem_def.mp mem] at ends
          exact ends
        have whole : c :: text = (c :: text.takeWhile isNameChar) ++ text.dropWhile isNameChar := by
          rw [List.cons_append, List.takeWhile_append_dropWhile]
        have shorter : (text.dropWhile isNameChar).length < (c :: text).length :=
          Nat.lt_succ_of_le (List.dropWhile_sublist _).length_le
        rw [whole]
        generalize text.dropWhile isNameChar = rest at outside shorter
        by_cases bracket : ∃ later, rest = '(' :: later
        case pos =>
          obtain ⟨later, rfl⟩ := bracket
          exact .call named (ih _ ((Nat.lt_succ_self _).trans shorter) later rfl)
        case neg =>
          refine .name named outside (fun d mem => ?_) (ih _ shorter rest rfl)
          obtain ⟨later, rfl⟩ := List.head?_eq_some_iff.mp mem
          exact beq_eq_false_iff_ne.mpr fun e => bracket ⟨later, by rw [e]⟩

/-- What is written for a name with a bracket behind it. -/
def called (name : List Char) : List Char :=
  if namesFunction name then name ++ ['('] else name ++ ['*', '(']

section Names

variable {name text : List Char}

/-- The rule for names leaves a name alone that no bracket follows. -/
lemma replace_name (named : Named name) (outside : ∀ c ∈ text.head?, isNameChar c = false)
    (bracket : ∀ c ∈ text.head?, (c == '(') = false) :
    replace nameProducts (name ++ text) = name ++ replace nameProducts text :=
  replace_append named.ne_nil text
    (nameProducts_append text named.ne_nil named.starts named.continues outside bracket)

/-- The rule for names writes a star between a name and its bracket, unless the name is that of a function.
-/
lemma replace_call (named : Named name) (text : List Char) :
    replace nameProducts (name ++ '(' :: text) = called name ++ replace nameProducts text := by
  obtain ⟨ne, starts, continues⟩ := named
  have taken : (name ++ '(' :: text).takeWhile isNameChar = name :=
    takeWhile_word continues fun d mem => by cases mem; rfl
  obtain ⟨c, later, rfl⟩ := List.exists_cons_of_ne_nil ne
  have piece : nameProducts ((c :: later) ++ ['('] ++ text) =
      { length := ((c :: later) ++ ['(']).length, written := called (c :: later) } := by
    rw [List.append_assoc, List.singleton_append]
    unfold nameProducts
    rw [List.cons_append]
    dsimp only
    rw [if_pos (starts c rfl), ← List.cons_append, taken, List.drop_left, called]
    split
    case h_2 none => exact absurd rfl (none text)
    case h_1 =>
      split
      case isTrue =>
        have kept := keep_length ((c :: later) ++ ['(']) text
        rw [List.append_assoc, List.singleton_append, List.length_append, List.length_singleton] at kept
        rw [kept, List.length_append, List.length_singleton]
      case isFalse => rw [List.length_append, List.length_singleton]
  have e := replace_piece (List.append_ne_nil_of_left_ne_nil ne ['(']) text piece
  rw [List.append_assoc, List.singleton_append] at e
  exact e

/-- The rule for names leaves a character alone that is no letter. -/
lemma replace_notLetter {c : Char} (other : isNameLetter c = false) (text : List Char) :
    replace nameProducts (c :: text) = c :: replace nameProducts text :=
  replace_append (List.cons_ne_nil c []) text (nameProducts_cons other text)

/-- The rule for names puts nothing in front of a text. -/
lemma head?_nameProducts (text : List Char) : (replace nameProducts text).head? = text.head? := by
  cases split text with
  | nil => rfl
  | @name name text named outside bracket _ =>
    rw [replace_name named outside bracket, List.head?_append_of_ne_nil _ named.ne_nil,
      List.head?_append_of_ne_nil _ named.ne_nil]
  | @call name text named _ =>
    rw [replace_call named, List.head?_append_of_ne_nil _ named.ne_nil, called]
    split
    · rw [List.append_assoc, List.head?_append_of_ne_nil _ named.ne_nil]
    · rw [List.append_assoc, List.head?_append_of_ne_nil _ named.ne_nil]
  | other other _ =>
    rw [replace_notLetter other]
    rfl

/-- All that the rule for names does is put stars in at brackets. -/
lemma starred_nameProducts (text : List Char) : Starred text (replace nameProducts text) := by
  induction split text with
  | nil => exact .nil
  | @name name text named outside bracket _ ih =>
    rw [replace_name named outside bracket]
    exact ih.append name
  | @call name text named _ ih =>
    rw [replace_call named, called]
    split
    · rw [List.append_assoc]
      exact (Starred.keep ih).append name
    · rw [List.append_assoc]
      exact (Starred.opening ih).append name
  | other other _ ih =>
    rw [replace_notLetter other]
    exact .keep ih

/-- The rule for names leaves nothing for itself to do. -/
lemma nameProducts_nameProducts (text : List Char) :
    replace nameProducts (replace nameProducts text) = replace nameProducts text := by
  induction split text with
  | nil => rfl
  | @name name text named outside bracket _ ih =>
    rw [← head?_nameProducts text] at outside bracket
    rw [replace_name named (head?_nameProducts text ▸ outside) (head?_nameProducts text ▸ bracket),
      replace_name named outside bracket, ih]
  | @call name text named _ ih =>
    rw [replace_call named, called]
    split
    case isTrue isFunction =>
      rw [List.append_assoc, List.singleton_append, replace_call named, called, if_pos isFunction, ih,
        List.append_assoc, List.singleton_append]
    case isFalse =>
      have star : ∀ c ∈ ('*' :: '(' :: replace nameProducts text).head?,
          isNameChar c = false ∧ (c == '(') = false := fun c mem => by
        cases mem
        exact ⟨rfl, rfl⟩
      rw [List.append_assoc]
      rw [List.cons_append, List.singleton_append,
        replace_name named (fun c mem => (star c mem).1) (fun c mem => (star c mem).2),
        replace_notLetter rfl, replace_notLetter rfl, ih]
  | other other _ ih => rw [replace_notLetter other, replace_notLetter other, ih]

end Names

/-- Does a value begin with this character, or a bracket? -/
def opensValue (c : Char) : Bool :=
  isNameChar c || c = '.' || c = '('

section Brackets

variable {text : List Char}

/-- The rule for brackets leaves alone what does not close one. -/
lemma replace_notClosing {c : Char} (ne : c ≠ ')') (text : List Char) :
    replace bracketProducts (c :: text) = c :: replace bracketProducts text :=
  replace_append (List.cons_ne_nil c []) text (bracketProducts_cons fun e => absurd e ne)

/-- The rule for brackets leaves a word without closing brackets alone. -/
lemma replace_notClosing_append {word : List Char} (others : ∀ c ∈ word, c ≠ ')') (text : List Char) :
    replace bracketProducts (word ++ text) = word ++ replace bracketProducts text := by
  induction word with
  | nil => rfl
  | cons c word ih =>
    rw [List.cons_append, replace_notClosing (others c (List.mem_cons_self ..)),
      ih fun d mem => others d (List.mem_cons_of_mem _ mem)]
    rfl

/-- Behind a closing bracket a star is put in if a value follows. -/
lemma replace_closing (text : List Char) :
    replace bracketProducts (')' :: text) =
      ')' :: (if text.head?.any opensValue then '*' :: replace bracketProducts text
        else replace bracketProducts text) := by
  cases text with
  | nil => rfl
  | cons c text =>
    rw [List.head?_cons, Option.any_some]
    split
    case isTrue opens =>
      have ne : c ≠ ')' := by
        rintro rfl
        cases opens
      have piece : bracketProducts ([')', c] ++ text) = { length := 2, written := [')', '*', c] } :=
        if_pos opens
      have e := replace_piece (List.cons_ne_nil ')' [c]) text piece
      rw [replace_notClosing ne]
      exact e
    case isFalse closes =>
      have piece : bracketProducts ([')'] ++ c :: text) = { length := 1, written := [')'] } := if_neg closes
      exact replace_append (List.cons_ne_nil ')' []) (c :: text) piece

/-- The rule for brackets puts nothing in front of a text. -/
lemma head?_bracketProducts (text : List Char) :
    (replace bracketProducts text).head? = text.head? := by
  cases text with
  | nil => rfl
  | cons c text =>
    by_cases closing : c = ')'
    · subst closing
      rw [replace_closing]
      rfl
    · rw [replace_notClosing closing]
      rfl

/-- All that the rule for brackets does is put stars in at brackets. -/
lemma starred_bracketProducts (text : List Char) : Starred text (replace bracketProducts text) := by
  induction text with
  | nil => exact .nil
  | cons c text ih =>
    by_cases closing : c = ')'
    · subst closing
      rw [replace_closing]
      split
      · exact .closing ih
      · exact .keep ih
    · rw [replace_notClosing closing]
      exact .keep ih

/-- The rule for brackets leaves nothing for itself to do. -/
lemma bracketProducts_bracketProducts (text : List Char) :
    replace bracketProducts (replace bracketProducts text) = replace bracketProducts text := by
  induction text with
  | nil => rfl
  | cons c text ih =>
    by_cases closing : c = ')'
    · subst closing
      rw [replace_closing]
      split
      case isTrue =>
        have star : ¬ ('*' :: replace bracketProducts text).head?.any opensValue = true := nofun
        rw [replace_closing, if_neg star, replace_notClosing (by decide), ih]
      case isFalse closes =>
        rw [replace_closing, head?_bracketProducts, if_neg closes, ih]
    · rw [replace_notClosing closing, replace_notClosing closing, ih]

/-- A character of a name is no bracket. -/
lemma ne_closing_of_isNameChar {c : Char} (h : isNameChar c = true) : c ≠ ')' := by
  rintro rfl
  cases h

/-- The rules for names and for brackets can be applied in any order. -/
lemma nameProducts_bracketProducts (text : List Char) :
    replace nameProducts (replace bracketProducts text) =
      replace bracketProducts (replace nameProducts text) := by
  induction split text with
  | nil => rfl
  | @name name text named outside bracket _ ih =>
    have others (c : Char) (mem : c ∈ name) : c ≠ ')' := ne_closing_of_isNameChar (named.continues c mem)
    rw [replace_notClosing_append others, replace_name named outside bracket,
      replace_notClosing_append others]
    rw [← head?_bracketProducts text] at outside bracket
    rw [replace_name named outside bracket, ih]
  | @call name text named _ ih =>
    have others (c : Char) (mem : c ∈ name) : c ≠ ')' := ne_closing_of_isNameChar (named.continues c mem)
    have others' : ∀ c ∈ called name, c ≠ ')' := by
      rw [called]
      split
      · exact List.forall_mem_append.mpr ⟨others, List.forall_mem_singleton.mpr (by decide)⟩
      · refine List.forall_mem_append.mpr ⟨others, List.forall_mem_cons.mpr ⟨by decide, ?_⟩⟩
        exact List.forall_mem_singleton.mpr (by decide)
    rw [replace_notClosing_append others, replace_notClosing (by decide), replace_call named, ih,
      replace_call named, replace_notClosing_append others']
  | @other c text other _ ih =>
    by_cases closing : c = ')'
    · subst closing
      rw [replace_notLetter rfl, replace_closing, replace_closing, head?_nameProducts]
      split
      · rw [replace_notLetter rfl, replace_notLetter rfl, ih]
      · rw [replace_notLetter rfl, ih]
    · rw [replace_notClosing closing, replace_notLetter other, replace_notLetter other,
        replace_notClosing closing, ih]

end Brackets

end Stepwise.Formula
