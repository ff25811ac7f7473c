import Stepwise.Proofs.Formula.Rendering
import Stepwise.Proofs.Formula.Stretches

/-!
# Splitting into tokens loses nothing

The words that the tokens of a formula stand for are apart, and what lies between them is gaps, so nothing is
lost and nothing is read twice. The lexer finds exactly the tokens that split the formula this way. If there
are none, it has split the formula up to the first character that begins no token, or up to the first
number that cannot be read.
-/

namespace Stepwise.Formula

/-- A lexeme stands for a word of a text, which begins where the lexeme starts. -/
def Lexeme.StandsFor (text : List Char) (lexeme : Lexeme) (word : List Char) : Prop :=
  ∃ rest, text.drop lexeme.start = word ++ rest ∧ lexeme.token.Stretch word rest

/-- A position belongs to the word that a lexeme stands for. -/
def Lexeme.Covers (text : List Char) (lexeme : Lexeme) (position : ℕ) : Prop :=
  ∃ word, lexeme.StandsFor text word ∧ lexeme.start ≤ position ∧ position < lexeme.start + word.length

/-- Lexemes into which a stretch of a text is split without a loss. -/
structure Tiles (text : List Char) (start stop : ℕ) (lexemes : List Lexeme) : Prop where
  order : start ≤ stop
  within : stop ≤ text.length
  sorted : lexemes.Pairwise fun first second => first.start < second.start
  inside : ∀ lexeme ∈ lexemes, start ≤ lexeme.start ∧ lexeme.start < stop
  stands : ∀ lexeme ∈ lexemes, ∃ word, lexeme.StandsFor text word ∧ lexeme.start + word.length ≤ stop
  /-- A word ends before the next one begins. -/
  apart : lexemes.Pairwise fun first second =>
    ∀ word, first.StandsFor text word → first.start + word.length ≤ second.start
  /-- All characters but the gaps belong to words. -/
  covered : ∀ position c, start ≤ position → position < stop → text[position]? = some c →
    (isGap c = false ↔ ∃ lexeme ∈ lexemes, lexeme.Covers text position)
  unsigned : ∀ lexeme ∈ lexemes, ∀ value, lexeme.token = .number value → Unsigned value

section Words

variable {text word rest : List Char} {lexeme : Lexeme} {token : Token} {position : ℕ} {c : Char}

/-- A place of a text has one token and one word. -/
lemma Lexeme.StandsFor.unique {word' : List Char} {token' : Token} (h : lexeme.StandsFor text word)
    (h' : Lexeme.StandsFor text ⟨lexeme.start, token'⟩ word') : token' = lexeme.token ∧ word' = word := by
  obtain ⟨rest, e, stretch⟩ := h
  obtain ⟨rest', e', stretch'⟩ := h'
  exact stretch.unique stretch' (e.symm.trans e')

/-- A word has at least one character. -/
lemma Lexeme.StandsFor.length_pos (h : lexeme.StandsFor text word) : 0 < word.length := by
  obtain ⟨rest, -, stretch⟩ := h
  exact List.length_pos_of_ne_nil stretch.spelling.ne_nil

/-- What belongs to a word is no gap. -/
lemma Lexeme.Covers.not_isGap (h : lexeme.Covers text position) (here : text[position]? = some c) :
    isGap c = false := by
  obtain ⟨word, ⟨rest, e, stretch⟩, le, lt⟩ := h
  obtain ⟨offset, rfl⟩ := Nat.exists_eq_add_of_le le
  rw [← List.getElem?_drop, e, List.getElem?_append_left (by omega)] at here
  exact stretch.spelling.not_isGap c (List.mem_of_getElem? here)

/-- Behind a word of the text its rest begins. -/
lemma drop_of_append (e : text.drop position = word ++ rest) :
    text.drop (position + word.length) = rest := by
  rw [← List.drop_drop, e, List.drop_left]

/-- A character at a position is the first one from there on. -/
lemma drop_of_getElem? (here : text[position]? = some c) :
    text.drop position = c :: text.drop (position + 1) := by
  obtain ⟨lt, rfl⟩ := List.getElem?_eq_some_iff.mp here
  exact List.drop_eq_getElem_cons lt

end Words

namespace Tiles

variable {text : List Char} {start stop : ℕ} {lexemes : List Lexeme}

/-- Nothing is split into nothing. -/
lemma nil (within : start ≤ text.length) : Tiles text start start [] where
  order := Nat.le_refl start
  within := within
  sorted := .nil
  inside := nofun
  stands := nofun
  apart := .nil
  covered _ _ le lt := absurd lt (Nat.not_lt.mpr le)
  unsigned := nofun

/-- A gap in front belongs to no word. -/
lemma gap {c : Char} (here : text[start]? = some c) (gap : isGap c = true)
    (tiles : Tiles text (start + 1) stop lexemes) : Tiles text start stop lexemes where
  order := Nat.le_of_succ_le tiles.order
  within := tiles.within
  sorted := tiles.sorted
  inside lexeme mem := (tiles.inside lexeme mem).imp_left Nat.le_of_succ_le
  stands := tiles.stands
  apart := tiles.apart
  covered position d le lt there := by
    rcases Nat.eq_or_lt_of_le le with rfl | further
    · obtain rfl : c = d := Option.some.inj (here.symm.trans there)
      refine ⟨fun ink => absurd gap (Bool.eq_false_iff.mp ink), ?_⟩
      rintro ⟨lexeme, -, covers⟩
      exact covers.not_isGap there
    · exact tiles.covered position d further lt there
  unsigned := tiles.unsigned

/-- A word in front belongs to one more lexeme. -/
lemma cons {token : Token} {word : List Char} (stands : Lexeme.StandsFor text ⟨start, token⟩ word)
    (tiles : Tiles text (start + word.length) stop lexemes) :
    Tiles text start stop (⟨start, token⟩ :: lexemes) := by
  have pos := stands.length_pos
  have order := tiles.order
  have behind (lexeme : Lexeme) (mem : lexeme ∈ lexemes) : start + word.length ≤ lexeme.start :=
    (tiles.inside lexeme mem).1
  constructor
  case order => omega
  case within => exact tiles.within
  case sorted =>
    refine .cons (fun lexeme mem => ?_) tiles.sorted
    exact Nat.lt_of_lt_of_le (Nat.lt_add_of_pos_right pos) (behind lexeme mem)
  case inside =>
    refine List.forall_mem_cons.mpr ⟨⟨Nat.le_refl start, by dsimp only; omega⟩, fun lexeme mem => ?_⟩
    obtain ⟨le, lt⟩ := tiles.inside lexeme mem
    exact ⟨Nat.le_of_add_right_le le, lt⟩
  case stands => exact List.forall_mem_cons.mpr ⟨⟨word, stands, order⟩, tiles.stands⟩
  case apart =>
    refine .cons (fun lexeme mem word' stands' => ?_) tiles.apart
    obtain ⟨-, rfl⟩ := stands.unique stands'
    exact behind lexeme mem
  case covered =>
    intro position c le lt here
    refine ⟨fun ink => ?_, ?_⟩
    -- A position belongs to the first word or to one of those behind it.
    · rcases Nat.lt_or_ge position (start + word.length) with inside | further
      · exact ⟨_, List.mem_cons_self .., word, stands, le, inside⟩
      · obtain ⟨lexeme, mem, covers⟩ := (tiles.covered position c further lt here).mp ink
        exact ⟨lexeme, List.mem_cons_of_mem _ mem, covers⟩
    · rintro ⟨lexeme, -, covers⟩
      exact covers.not_isGap here
  case unsigned =>
    refine List.forall_mem_cons.mpr ⟨?_, tiles.unsigned⟩
    rintro value rfl
    obtain ⟨rest, -, stretch⟩ := stands
    cases stretch.spelling with
    | number read finite => exact .of_read read finite

/-- If a gap is in front, it can be left out. -/
lemma of_gap {c : Char} (tiles : Tiles text start stop lexemes) (lt : start < stop)
    (here : text[start]? = some c) (gap : isGap c = true) : Tiles text (start + 1) stop lexemes where
  order := lt
  within := tiles.within
  sorted := tiles.sorted
  inside lexeme mem := by
    obtain ⟨le, before⟩ := tiles.inside lexeme mem
    refine ⟨Nat.lt_of_le_of_ne le ?_, before⟩
    rintro rfl
    obtain ⟨word, stands, -⟩ := tiles.stands lexeme mem
    have covers : lexeme.Covers text lexeme.start :=
      ⟨word, stands, Nat.le_refl _, Nat.lt_add_of_pos_right stands.length_pos⟩
    exact Bool.false_ne_true ((covers.not_isGap here).symm.trans gap)
  stands := tiles.stands
  apart := tiles.apart
  covered position d further := tiles.covered position d (Nat.le_of_succ_le further)
  unsigned := tiles.unsigned

/-- The lexemes behind the first one split what is behind its word. -/
lemma of_cons {lexeme : Lexeme} {word : List Char} (tiles : Tiles text start stop (lexeme :: lexemes))
    (stands : lexeme.StandsFor text word) :
    Tiles text (lexeme.start + word.length) stop lexemes := by
  obtain ⟨sorted, sorted'⟩ := List.pairwise_cons.mp tiles.sorted
  obtain ⟨apart, apart'⟩ := List.pairwise_cons.mp tiles.apart
  obtain ⟨first, first'⟩ := List.forall_mem_cons.mp tiles.inside
  obtain ⟨⟨word', stands', ends⟩, words⟩ := List.forall_mem_cons.mp tiles.stands
  obtain ⟨-, rfl⟩ := stands.unique stands'
  constructor
  case order => exact ends
  case within => exact tiles.within
  case sorted => exact sorted'
  case inside => exact fun other mem => ⟨apart other mem word' stands, (first' other mem).2⟩
  case stands => exact words
  case apart => exact apart'
  case covered =>
    intro position c le lt here
    have all := tiles.covered position c (by omega) lt here
    refine ⟨fun ink => ?_, fun ⟨other, mem, covers⟩ => covers.not_isGap here⟩
    obtain ⟨other, mem, covers⟩ := all.mp ink
    rcases List.mem_cons.mp mem with rfl | mem
    · obtain ⟨word'', stands'', -, inside⟩ := covers
      obtain ⟨-, rfl⟩ := stands.unique stands''
      omega
    · exact ⟨other, mem, covers⟩
  case unsigned => exact fun other mem => tiles.unsigned other (List.mem_cons_of_mem _ mem)

/-- Where something other than a gap is in front, the first lexeme starts. -/
lemma exists_cons {c : Char} (tiles : Tiles text start stop lexemes) (lt : start < stop)
    (here : text[start]? = some c) (ink : isGap c = false) :
    ∃ token later word, lexemes = ⟨start, token⟩ :: later ∧
      Lexeme.StandsFor text ⟨start, token⟩ word := by
  obtain ⟨lexeme, mem, word, stands, le, -⟩ :=
    (tiles.covered start c (Nat.le_refl start) lt here).mp ink
  obtain rfl : lexeme.start = start := Nat.le_antisymm le (tiles.inside lexeme mem).1
  cases lexemes with
  | nil => cases mem
  | cons first later =>
    rcases List.mem_cons.mp mem with rfl | mem
    · exact ⟨_, later, word, rfl, stands⟩
    · -- No lexeme starts before the stretch.
      have before := (List.pairwise_cons.mp tiles.sorted).1 lexeme mem
      have after := (tiles.inside first (List.mem_cons_self ..)).1
      omega

/-- Splitting a text goes on at the end of a stretch that is split. -/
lemma lexAfter (tiles : Tiles text start stop lexemes) :
    lexAfter start 0 (text.drop start) = (lexAfter stop 0 (text.drop stop)).map (lexemes ++ ·) := by
  -- The stretch gets shorter by a gap or by a word.
  induction e : stop - start using Nat.strong_induction_on generalizing start lexemes with
  | _ length ih =>
    rcases Nat.eq_or_lt_of_le tiles.order with rfl | lt
    · have none : lexemes = [] := List.eq_nil_iff_forall_not_mem.mpr fun lexeme mem => by
        have inside := tiles.inside lexeme mem
        omega
      subst none
      cases Formula.lexAfter start 0 (text.drop start) <;> rfl
    · obtain ⟨c, here⟩ : ∃ c, text[start]? = some c :=
        ⟨_, List.getElem?_eq_getElem (Nat.lt_of_lt_of_le lt tiles.within)⟩
      cases gap : isGap c with
      | true =>
        rw [drop_of_getElem? here, lexAfter_gap gap]
        exact ih _ (by omega) (tiles.of_gap lt here gap) rfl
      | false =>
        obtain ⟨token, later, word, rfl, stands⟩ := tiles.exists_cons lt here gap
        have pos := stands.length_pos
        have split := ih _ (by dsimp only; omega) (tiles.of_cons stands) rfl
        obtain ⟨rest, front, stretch⟩ := stands
        dsimp only at front split
        rw [front, stretch.spelling.lexAfter stretch.apart, ← drop_of_append front, split]
        cases Formula.lexAfter stop 0 (text.drop stop) <;> rfl

end Tiles

/-- A text can be split to its end, or to where no gap and no token begins. -/
lemma exists_tiles {text : List Char} {start : ℕ} (within : start ≤ text.length) :
    ∃ stop lexemes, Tiles text start stop lexemes ∧
      (stop = text.length ∨ ∃ fault, Stuck (text.drop stop) fault) := by
  -- On the length of what is left: a gap and a token have at least one character each.
  induction e : text.length - start using Nat.strong_induction_on generalizing start with
  | _ length ih =>
    cases front : text.drop start with
    | nil =>
      have long := List.drop_eq_nil_iff.mp front
      exact ⟨start, [], .nil within, .inl (by omega)⟩
    | cons c rest =>
      have here : text[start]? = some c := by
        rw [← Nat.add_zero start, ← List.getElem?_drop, front]
        rfl
      have more : start < text.length := (List.getElem?_eq_some_iff.mp here).1
      cases found : frontToken c rest with
      | error fault =>
        refine ⟨start, [], .nil within, .inr ⟨fault, ?_⟩⟩
        rw [front]
        exact frontToken_eq_error_iff.mp found
      | ok taken =>
        obtain ⟨length, token?⟩ := taken
        cases token? with
        | none =>
          obtain ⟨-, gap⟩ := isGap_of_frontToken found
          have fits : start + 1 ≤ text.length := more
          obtain ⟨stop, lexemes, tiles, ends⟩ := ih _ (by omega) fits rfl
          exact ⟨stop, lexemes, tiles.gap here gap, ends⟩
        | some token =>
          obtain ⟨word, behind, split, -, spelling, apart⟩ := Token.Spelling.of_frontToken found
          have stands : Lexeme.StandsFor text ⟨start, token⟩ word :=
            ⟨behind, front.trans split, spelling.stretch apart⟩
          have pos := stands.length_pos
          have fits : start + word.length ≤ text.length := by
            have lengths := congrArg List.length (front.trans split)
            rw [List.length_drop, List.length_append] at lengths
            omega
          obtain ⟨stop, lexemes, tiles, ends⟩ := ih _ (by omega) fits rfl
          exact ⟨stop, ⟨start, token⟩ :: lexemes, tiles.cons stands, ends⟩

section Lexer

variable {text : List Char} {lexemes : List Lexeme} {place : ℕ} {fault : LexFault}

/-- A text that lexemes tile is split into these lexemes. -/
lemma lex_of_tiles (tiles : Tiles text 0 text.length lexemes) : lex text = .ok lexemes := by
  have split := tiles.lexAfter
  rw [List.drop_zero, List.drop_length] at split
  exact split.trans (congrArg Except.ok (List.append_nil lexemes))

/-- A text that is tiled up to a place where it is stuck is refused there. -/
lemma lex_of_stuck (tiles : Tiles text 0 place lexemes) (stuck : Stuck (text.drop place) fault) :
    lex text = .error (place, fault) := by
  have split := tiles.lexAfter
  obtain ⟨c, rest, front⟩ := List.exists_cons_of_ne_nil stuck.ne_nil
  rw [front] at stuck
  rw [List.drop_zero, front, lexAfter, frontToken_eq_error_iff.mpr stuck] at split
  exact split

/-- Splitting a text into tokens makes progress with each of them and ends. It finds the tokens that split
the text without a loss, each of which is determined by its start. Otherwise it stops where the text is
stuck behind a beginning that is split without a loss. -/
theorem lex_tiles (text : List Char) :
    (∀ c rest length token?, frontToken c rest = .ok (length, token?) →
      0 < length ∧ length ≤ (c :: rest).length) ∧
    (∀ start token word token' word', Lexeme.StandsFor text ⟨start, token⟩ word →
      Lexeme.StandsFor text ⟨start, token'⟩ word' → token' = token ∧ word' = word) ∧
    (∀ lexemes, lex text = .ok lexemes ↔ Tiles text 0 text.length lexemes) ∧
    ∀ place fault, lex text = .error (place, fault) ↔
      (∃ lexemes, Tiles text 0 place lexemes) ∧ Stuck (text.drop place) fault := by
  obtain ⟨stop, all, tiles, ends⟩ := exists_tiles (Nat.zero_le text.length)
  refine ⟨fun _ _ _ _ => length_of_frontToken, fun _ _ _ _ _ stands stands' => stands.unique stands',
    fun lexemes => ⟨fun found => ?_, lex_of_tiles⟩,
    fun place fault => ⟨fun stopped => ?_, fun ⟨⟨lexemes, tiles⟩, stuck⟩ => lex_of_stuck tiles stuck⟩⟩
  · rcases ends with rfl | ⟨fault, stuck⟩
    · cases (lex_of_tiles tiles).symm.trans found
      exact tiles
    · cases (lex_of_stuck tiles stuck).symm.trans found
  · rcases ends with rfl | ⟨fault', stuck⟩
    · cases (lex_of_tiles tiles).symm.trans stopped
    · cases (lex_of_stuck tiles stuck).symm.trans stopped
      exact ⟨⟨all, tiles⟩, stuck⟩

/-- An `e` without digits behind it is no exponent, and a number with two points is none. -/
theorem lex_tiles_power :
    let lexemes : List Lexeme := [⟨0, .number 2.0⟩, ⟨1, .name "e"⟩, ⟨2, .plus⟩, ⟨3, .name "x"⟩, ⟨5, .power⟩,
      ⟨8, .number 0.5⟩]
    lex "2e+x ** .5".toList = .ok lexemes ∧ Tiles "2e+x ** .5".toList 0 10 lexemes ∧
      lex "x^ 1.2.3".toList = .error (3, .malformedNumber "1.2.3") ∧
      (∃ before, Tiles "x^ 1.2.3".toList 0 3 before) ∧
      Stuck "1.2.3".toList (.malformedNumber "1.2.3") := by
  intro lexemes
  have found : lex "2e+x ** .5".toList = .ok lexemes := by decide +kernel
  have stopped : lex "x^ 1.2.3".toList = .error (3, .malformedNumber "1.2.3") := by decide +kernel
  obtain ⟨before, stuck⟩ := ((lex_tiles "x^ 1.2.3".toList).2.2.2 3 _).mp stopped
  exact ⟨found, ((lex_tiles "2e+x ** .5".toList).2.2.1 lexemes).mp found, stopped, before, stuck⟩

end Lexer

end Stepwise.Formula
