import Stepwise.Proofs.Formula.Omission
import Stepwise.Proofs.Formula.Passes
import Stepwise.Proofs.Formula.Scanning

/-!
# Where stars are put in

The normal form of a formula is the formula without blanks and carets, with single stars put in. Every one
of them stands behind a character that can end a value and in front of one that can begin a value. A star
is neither, so a later rule never puts one beside a star that is there already.
-/

namespace Stepwise.Formula

open Text (replace)

/-- Can a value end with this character? -/
def endsValue (c : Char) : Bool :=
  isNameLetter c || isDigitOrPoint c || c = ')'

/-- Can a value begin with this character? The digits are those of all scripts. -/
def beginsValue (c : Char) : Bool :=
  isNameLetter c || isDigitOrPoint c || c = '('

/-- A text with single stars put in, each of them between the end of a value and the beginning of one. -/
inductive Linked : List Char → List Char → Prop where
  | nil : Linked [] []
  | keep {c text text'} : Linked text text' → Linked (c :: text) (c :: text')
  | star {c d text text'} : endsValue c = true → beginsValue d = true → Linked (d :: text) text' →
    Linked (c :: d :: text) (c :: '*' :: text')

section Characters

variable {c : Char}

/-- A letter can end a value. -/
lemma endsValue_of_isNameLetter (h : isNameLetter c = true) : endsValue c = true := by
  rw [endsValue, h, Bool.true_or, Bool.true_or]

/-- A digit or a point can end a value. -/
lemma endsValue_of_isDigitOrPoint (h : isDigitOrPoint c = true) : endsValue c = true := by
  rw [endsValue, h, Bool.or_true, Bool.true_or]

/-- A letter can begin a value. -/
lemma beginsValue_of_isNameLetter (h : isNameLetter c = true) : beginsValue c = true := by
  rw [beginsValue, h, Bool.true_or, Bool.true_or]

/-- A digit or a point can begin a value. -/
lemma beginsValue_of_isDigitOrPoint (h : isDigitOrPoint c = true) : beginsValue c = true := by
  rw [beginsValue, h, Bool.or_true, Bool.true_or]

/-- The ordinary digits are among the digits and points. -/
lemma isDigitOrPoint_of_isDigit (h : c.isDigit = true) : isDigitOrPoint c = true := by
  rw [isDigitOrPoint, isDecimalDigit_of_isDigit h, Bool.true_or]

/-- A character of a name can end a value. -/
lemma endsValue_of_isNameChar (h : isNameChar c = true) : endsValue c = true := by
  rcases Bool.or_eq_true_iff.mp h with letter | digit
  · exact endsValue_of_isNameLetter letter
  · exact endsValue_of_isDigitOrPoint (isDigitOrPoint_of_isDigit digit)

/-- What opens a value behind a bracket can begin one. -/
lemma beginsValue_of_opensValue (h : opensValue c = true) : beginsValue c = true := by
  simp only [opensValue, isNameChar, Bool.or_eq_true, decide_eq_true_eq] at h
  rcases h with ((letter | digit) | rfl) | rfl
  · exact beginsValue_of_isNameLetter letter
  · exact beginsValue_of_isDigitOrPoint (isDigitOrPoint_of_isDigit digit)
  · rfl
  · rfl

/-- No operator ends or begins a value. -/
lemma not_value_of_operator (h : c ∈ ['*', '+', '-', '/']) : endsValue c = false ∧ beginsValue c = false := by
  simp only [List.mem_cons, List.not_mem_nil, or_false] at h
  rcases h with rfl | rfl | rfl | rfl <;> exact ⟨by decide, by decide⟩

end Characters

namespace Linked

variable {text text' text'' : List Char}

/-- Putting in no stars leaves the text. -/
lemma refl (text : List Char) : Linked text text := by
  induction text with
  | nil => exact .nil
  | cons c text ih => exact .keep ih

/-- A word can stand in front of a text with stars between values. -/
lemma append (word : List Char) (h : Linked text text') : Linked (word ++ text) (word ++ text') := by
  induction word with
  | nil => exact h
  | cons c word ih => exact .keep ih

/-- A star behind a word that ends a value, in front of a text that begins with one. -/
lemma join {word : List Char} (ends : ∃ front c, word = front ++ [c] ∧ endsValue c = true)
    (begins : ∃ d rest, text = d :: rest ∧ beginsValue d = true) (h : Linked text text') :
    Linked (word ++ text) (word ++ '*' :: text') := by
  obtain ⟨front, c, rfl, ends⟩ := ends
  obtain ⟨d, rest, rfl, begins⟩ := begins
  rw [List.append_assoc, List.append_assoc]
  exact (Linked.star ends begins h).append front

/-- The stars are put between values, so the first character stays. -/
lemma head? (h : Linked text text') : text'.head? = text.head? := by
  cases h with
  | nil => rfl
  | keep => rfl
  | star => rfl

/-- Stars that are put in later stand apart from those that are there already. -/
lemma trans (h : Linked text text') (h' : Linked text' text'') : Linked text text'' := by
  induction h generalizing text'' with
  | nil => exact h'
  | @keep c text text' h ih =>
    cases h' with
    | keep h' => exact .keep (ih h')
    | @star _ d text' _ ends begins h' =>
      obtain ⟨rest, rfl⟩ := List.head?_eq_some_iff.mp h.head?.symm
      exact .star ends begins (ih h')
  | star ends begins _ ih =>
    cases h' with
    | keep h' =>
      cases h' with
      | keep h' => exact .star ends begins (ih h')
      | star ends => exact absurd ends (by decide)
    | star _ begins => exact absurd begins (by decide)

end Linked

section Rules

variable {word number next text text' : List Char}

/-- A word of characters that end values ends in one. -/
lemma ends_of_letters {p : Char → Bool} (ne : word ≠ []) (inside : ∀ c ∈ word, p c = true)
    (ends : ∀ {c}, p c = true → endsValue c = true) :
    ∃ front c, word = front ++ [c] ∧ endsValue c = true :=
  ⟨word.dropLast, word.getLast ne, (List.dropLast_append_getLast ne).symm,
    ends (inside _ (List.getLast_mem ne))⟩

/-- The star between a number and what follows it stands between values. -/
lemma Linked.numberTimes (ne : number ≠ []) (literal : literalAtFront (number ++ (next ++ text)) = number)
    (followed : Followed next text) (h : Linked text text') :
    Linked (number ++ (next ++ text)) (Formula.numberTimes number next ++ text') := by
  have some : literalAtFront (number ++ (next ++ text)) ≠ [] := by
    rw [literal]
    exact ne
  obtain ⟨-, front, last, e, digit⟩ := exists_ends_of_literal some
  rw [literal] at e
  have ends : ∃ front c, number = front ++ [c] ∧ endsValue c = true :=
    ⟨front, last, e, endsValue_of_isDigitOrPoint digit⟩
  rw [Formula.numberTimes]
  cases followed with
  | none =>
    rw [if_pos rfl, List.append_nil]
    exact h.append number
  | @letter c _ letter =>
    rw [if_neg (List.cons_ne_nil c []), List.append_assoc]
    exact .join ends ⟨c, text, rfl, beginsValue_of_isNameLetter letter⟩ h.keep
  | opening =>
    rw [if_neg (List.cons_ne_nil '(' []), List.append_assoc]
    exact .join ends ⟨'(', text, rfl, rfl⟩ h.keep

/-- The stars of a rewritten piece stand between values. -/
lemma Linked.multiplied (letters : ∀ c ∈ word, isNameLetter c = true) (ne : number ≠ [])
    (literal : literalAtFront (number ++ (next ++ text)) = number) (followed : Followed next text)
    (h : Linked text text') :
    Linked (word ++ (number ++ (next ++ text))) (Formula.multiplied word number next ++ text') := by
  have times := h.numberTimes ne literal followed
  rw [Formula.multiplied]
  split
  case isTrue empty =>
    rw [empty]
    exact times
  case isFalse some =>
    split
    case isTrue =>
      have found : literalAtFront (number ++ (next ++ text)) ≠ [] := by
        rw [literal]
        exact ne
      obtain ⟨⟨first, rest, e, digit⟩, -⟩ := exists_ends_of_literal found
      rw [literal] at e
      rw [List.append_assoc, List.cons_append]
      refine .join (ends_of_letters some letters endsValue_of_isNameLetter) ?_ times
      exact ⟨first, rest ++ (next ++ text), by rw [e]; rfl, beginsValue_of_isDigitOrPoint digit⟩
    case isFalse =>
      rw [List.append_assoc, List.append_assoc]
      exact ((h.append next).append number).append word

/-- The rule for numbers puts stars between values and does nothing else. -/
lemma linked_numberProducts (text : List Char) : Linked text (replace numberProducts text) := by
  induction scanned text with
  | nil => exact .nil
  | word ne letters outside none _ ih =>
    rw [replace_word ne letters outside none]
    exact ih.append _
  | other other none _ ih =>
    rw [replace_other other none]
    exact .keep ih
  | number letters ne literal followed _ _ ih =>
    rw [replace_number letters ne literal followed]
    exact ih.multiplied letters ne literal followed

/-- The rule for names puts stars between values and does nothing else. -/
lemma linked_nameProducts (text : List Char) : Linked text (replace nameProducts text) := by
  induction split text with
  | nil => exact .nil
  | @name name text named outside bracket _ ih =>
    rw [replace_name named outside bracket]
    exact ih.append name
  | @call name text named _ ih =>
    rw [replace_call named, called]
    split
    · rw [List.append_assoc]
      exact ih.keep.append name
    · rw [List.append_assoc]
      exact .join (ends_of_letters named.ne_nil named.continues endsValue_of_isNameChar)
        ⟨'(', text, rfl, rfl⟩ ih.keep
  | other other _ ih =>
    rw [replace_notLetter other]
    exact .keep ih

/-- The rule for brackets puts stars between values and does nothing else. -/
lemma linked_bracketProducts (text : List Char) : Linked text (replace bracketProducts text) := by
  induction text with
  | nil => exact .nil
  | cons c text ih =>
    by_cases closing : c = ')'
    · subst closing
      rw [replace_closing]
      split
      case isTrue opens =>
        obtain ⟨d, first, opens⟩ := Option.any_eq_true _ _ |>.mp opens
        obtain ⟨rest, rfl⟩ := List.head?_eq_some_iff.mp first
        exact .star rfl (beginsValue_of_opensValue opens) ih
      case isFalse => exact .keep ih
    · rw [replace_notClosing closing]
      exact .keep ih

/-- A normal form is the plain text with stars between values. -/
lemma linked_normalize (text : List Char) : Linked (plainText text) (normalize text) := by
  have first := linked_numberProducts (plainText text)
  have second := first.trans (linked_numberProducts _)
  exact (second.trans (linked_nameProducts _)).trans (linked_bracketProducts _)

end Rules

section Positions

variable {omitted omitted' : Finset ℕ} {position k : ℕ} {text text' : List Char}

/-- There is a star at a position, between the end of a value and the beginning of one. -/
def Links (text : List Char) (position : ℕ) : Prop :=
  ∃ front left right back, text = front ++ left :: '*' :: right :: back ∧ position = front.length + 1 ∧
    endsValue left = true ∧ beginsValue right = true

/-- A word in front of a text moves the places of its stars. -/
lemma Links.append (word : List Char) (h : Links text k) : Links (word ++ text) (word.length + k) := by
  obtain ⟨front, left, right, back, rfl, rfl, ends, begins⟩ := h
  refine ⟨word ++ front, left, right, back, (List.append_assoc ..).symm, ?_, ends, begins⟩
  rw [List.length_append, Nat.add_assoc]

/-- The neighbours of a star between values are no operators. -/
lemma Links.not_operator (h : Links text k) {c : Char} (operator : c ∈ ['*', '+', '-', '/']) :
    text[k - 1]? ≠ some c ∧ text[k + 1]? ≠ some c := by
  obtain ⟨front, left, right, back, rfl, rfl, ends, begins⟩ := h
  obtain ⟨not_ends, not_begins⟩ := not_value_of_operator operator
  have before : (front ++ left :: '*' :: right :: back)[front.length + 1 - 1]? = some left := by simp
  have behind : (front ++ left :: '*' :: right :: back)[front.length + 1 + 1]? = some right := by
    rw [List.getElem?_append_right (by omega)]
    simp [Nat.add_assoc]
  rw [before, behind]
  constructor
  · rintro ⟨⟩
    exact Bool.false_ne_true (not_ends.symm.trans ends)
  · rintro ⟨⟩
    exact Bool.false_ne_true (not_begins.symm.trans begins)

/-- Only the positions from the first one on count. -/
lemma leaveOut_congr (same : ∀ k, position ≤ k → (k ∈ omitted ↔ k ∈ omitted')) :
    leaveOut omitted position text = leaveOut omitted' position text := by
  induction text generalizing position with
  | nil => rfl
  | cons c text ih =>
    rw [leaveOut, leaveOut, ih fun k le => same k (Nat.le_of_succ_le le)]
    exact ite_congr (propext (same position le_rfl)) (fun _ => rfl) fun _ => rfl

/-- The stars that have been put in can be left out again. -/
lemma Linked.exists_stars (h : Linked text text') (position : ℕ) :
    ∃ stars : Finset ℕ, leaveOut stars position text' = text ∧
      ∀ k ∈ stars, ∃ place, k = position + place ∧ Links text' place := by
  induction h generalizing position with
  | nil => exact ⟨∅, rfl, by simp⟩
  | @keep c text text' _ ih =>
    obtain ⟨stars, e, links⟩ := ih (position + 1)
    have here : position ∉ stars := fun mem => by
      obtain ⟨place, e, -⟩ := links position mem
      omega
    refine ⟨stars, by rw [leaveOut, if_neg here, e], fun k mem => ?_⟩
    obtain ⟨place, rfl, link⟩ := links k mem
    exact ⟨1 + place, by omega, link.append [c]⟩
  | @star c d text text' ends begins h ih =>
    obtain ⟨stars, e, links⟩ := ih (position + 2)
    obtain ⟨rest, rfl⟩ := List.head?_eq_some_iff.mp h.head?
    have here : position ∉ insert (position + 1) stars := fun mem => by
      rcases Finset.mem_insert.mp mem with e | mem
      · omega
      · obtain ⟨place, e, -⟩ := links position mem
        omega
    have later : leaveOut (insert (position + 1) stars) (position + 2) (d :: rest) = d :: text := by
      rw [← e]
      refine leaveOut_congr fun k le => ?_
      rw [Finset.mem_insert, or_iff_right (by omega)]
    refine ⟨insert (position + 1) stars, ?_, fun k mem => ?_⟩
    · rw [leaveOut, if_neg here, leaveOut, if_pos (Finset.mem_insert_self ..), later]
    · rcases Finset.mem_insert.mp mem with rfl | mem
      · exact ⟨1, rfl, [], c, d, rest, rfl, rfl, ends, begins⟩
      · obtain ⟨place, rfl, link⟩ := links k mem
        exact ⟨2 + place, by omega, link.append [c, '*']⟩

/-- Is this a round bracket? -/
def isBracket (c : Char) : Bool :=
  c = '(' || c = ')'

/-- Putting stars in leaves the sequence of brackets as it is. -/
lemma Linked.filter_isBracket (h : Linked text text') : text'.filter isBracket = text.filter isBracket := by
  induction h with
  | nil => rfl
  | keep _ ih => rw [List.filter_cons, List.filter_cons, ih]
  | @star c d text text' _ _ _ ih =>
    rw [List.filter_cons, List.filter_cons_of_neg (by decide), ih, ← List.filter_cons]

/-- Removing blanks and expanding carets leaves the sequence of brackets as it is. -/
lemma filter_isBracket_plainText (text : List Char) :
    (plainText text).filter isBracket = text.filter isBracket := by
  induction text with
  | nil => rfl
  | cons c text ih =>
    have e : plainText (c :: text) = plainText [c] ++ plainText text := plainText_append [c] text
    rw [e, List.filter_append, ih]
    by_cases bracket : isBracket c = true
    case pos =>
      simp only [isBracket, Bool.or_eq_true, decide_eq_true_eq] at bracket
      rcases bracket with rfl | rfl <;> rfl
    case neg =>
      have none : (plainText [c]).filter isBracket = [] := by
        refine List.filter_eq_nil_iff.mpr fun d mem => ?_
        rcases mem_plainText_singleton mem with rfl | rfl
        · exact bracket
        · decide
      rw [none, List.nil_append, List.filter_cons_of_neg bracket]

end Positions

section Plain

/-- The characters with the property `White_Space` of Unicode. -/
def whiteSpace : List Char :=
  ['\t', '\n', '\x0b', '\x0c', '\r', ' ', '\u0085', '\u00a0', '\u1680', '\u2000', '\u2001', '\u2002',
    '\u2003', '\u2004', '\u2005', '\u2006', '\u2007', '\u2008', '\u2009', '\u200a', '\u2028', '\u2029',
    '\u202f', '\u205f', '\u3000']

/-- The blanks are white space, and nothing else is. -/
lemma isBlank_eq_decide (c : Char) : Text.isBlank c = decide (c ∈ whiteSpace) := by
  have points : c ∈ whiteSpace ↔ c.toNat ∈ whiteSpace.map Char.toNat := by
    rw [List.mem_map]
    constructor
    · intro mem
      exact ⟨c, mem, rfl⟩
    · rintro ⟨d, mem, e⟩
      exact Char.toNat_inj.mp e ▸ mem
  have listed : whiteSpace.map Char.toNat =
      [0x09, 0x0A, 0x0B, 0x0C, 0x0D, 0x20, 0x85, 0xA0, 0x1680, 0x2000, 0x2001, 0x2002, 0x2003, 0x2004, 0x2005,
        0x2006, 0x2007, 0x2008, 0x2009, 0x200A, 0x2028, 0x2029, 0x202F, 0x205F, 0x3000] := by decide
  rw [Bool.eq_iff_iff, decide_eq_true_iff, points, listed]
  simp only [Text.isBlank, Bool.or_eq_true, Bool.and_eq_true, decide_eq_true_eq, beq_iff_eq, List.mem_cons,
    List.not_mem_nil, or_false]
  omega

/-- The plain text is what is left of a formula without its white space, with each `^` written as `**`. -/
lemma plainText_eq (text : List Char) :
    plainText text =
      (text.filter fun c => c ∉ whiteSpace).flatMap fun c => if c = '^' then ['*', '*'] else [c] := by
  simp only [plainText, removeBlanks, expandCarets, isBlank_eq_decide, decide_not]

end Plain

/-- The normal form of a formula is the formula without its white space and with `**` for `^`, but for the
stars that have been put in. Each of these stands behind a letter, a digit, a point or a closing bracket and
in front of a letter, a digit, a point or an opening bracket, so it is neither at an end nor beside an
operator, and no new `**` arises. The brackets are those of the formula. -/
theorem normalize_links (text : List Char) :
    (normalize text).filter isBracket = text.filter isBracket ∧
    ∃ stars : Finset ℕ,
      leaveOut stars 0 (normalize text) =
          (text.filter fun c => c ∉ whiteSpace).flatMap (fun c => if c = '^' then ['*', '*'] else [c]) ∧
        ∀ k ∈ stars, Links (normalize text) k ∧
          ∀ c ∈ ['*', '+', '-', '/'],
            (normalize text)[k - 1]? ≠ some c ∧ (normalize text)[k + 1]? ≠ some c := by
  have linked := linked_normalize text
  refine ⟨linked.filter_isBracket.trans (filter_isBracket_plainText text), ?_⟩
  obtain ⟨stars, e, links⟩ := linked.exists_stars 0
  refine ⟨stars, e.trans (plainText_eq text), fun k mem => ?_⟩
  obtain ⟨place, rfl, link⟩ := links k mem
  rw [Nat.zero_add]
  exact ⟨link, fun c operator => link.not_operator operator⟩

/-- Of a product with white space of three kinds and a `^`, the white space is gone, the `^` is a `**`, and
stars are put in, also beside the Arabic digit. -/
theorem normalize_links_product :
    normalize " 2x\u3000٣\t(x+1)^2 ".toList = "2*x*٣*(x+1)**2".toList ∧
      ∃ stars : Finset ℕ, stars.Nonempty ∧
        leaveOut stars 0 "2*x*٣*(x+1)**2".toList = "2x٣(x+1)**2".toList ∧
          ∀ k ∈ stars, Links "2*x*٣*(x+1)**2".toList k := by
  have normal : normalize " 2x\u3000٣\t(x+1)^2 ".toList = "2*x*٣*(x+1)**2".toList := by decide +kernel
  have plain : (" 2x\u3000٣\t(x+1)^2 ".toList.filter fun c => c ∉ whiteSpace).flatMap
      (fun c => if c = '^' then ['*', '*'] else [c]) = "2x٣(x+1)**2".toList := by decide +kernel
  obtain ⟨-, stars, e, links⟩ := normalize_links " 2x\u3000٣\t(x+1)^2 ".toList
  rw [normal] at e links
  rw [plain] at e
  refine ⟨normal, stars, Finset.nonempty_iff_ne_empty.mpr ?_, e, fun k mem => (links k mem).1⟩
  rintro rfl
  exact absurd e (by decide +kernel)

end Stepwise.Formula
