import Stepwise.Proofs.Decimal.Reading
import Stepwise.Text.Csv

/-!
# Reading comma-separated values

A file is read by splitting it at line ends, and its lines at commas. The file of some records reads
back as these records, as long as none of their cells holds a character that would have to be quoted.
There is such a file if all records are as long as the header, and the first record that is not is the
reason if there is none.
-/

namespace Stepwise.Text

/-- The lines of a text, if each of them ends with a line end. -/
def lines? (text : String) : Option (List (List Char)) :=
  let pieces := text.toList.splitOn '\n'
  if pieces.getLast? = some [] then some pieces.dropLast else none

/-- The cells of a record with commas between them. -/
def joined (record : List String) : List Char :=
  (String.intercalate "," record).toList

/-- The cells of a line. -/
def cells (line : List Char) : List String :=
  (line.splitOn ',').map String.ofList

/-- The records of a file: the cells of its lines. -/
def readCsv? (text : String) : Option (List (List String)) :=
  (lines? text).map (·.map cells)

/-- The characters that keep a cell from being written as it is. -/
def specials : List Char :=
  [',', '\x22', '\n', '\r']

/-- A cell that can be written as it is. -/
def Plain (cell : String) : Prop :=
  ∀ c ∈ cell.toList, c ∉ specials

/-- A record whose cells can be written as they are. -/
structure Bare (record : List String) : Prop where
  ne_nil : record ≠ []
  plain : ∀ cell ∈ record, Plain cell

/-- A cell without special characters is plain, which can be computed. -/
lemma plain_of_all {cell : String} (h : cell.toList.all (fun c => decide (c ∉ specials)) = true) :
    Plain cell :=
  fun c mem => of_decide_eq_true (List.all_eq_true.mp h c mem)

/-- Plain cells behind each other are plain. -/
lemma plain_append {cell more : String} (front : Plain cell) (back : Plain more) :
    Plain (cell ++ more) := by
  intro c mem
  rw [String.toList_append] at mem
  rcases List.mem_append.mp mem with mem | mem
  · exact front c mem
  · exact back c mem

section Numbers

/-- Digits are not special. -/
lemma not_special_of_isDigit {c : Char} (digit : c.isDigit = true) : c ∉ specials := by
  intro mem
  have others : specials.all (fun d => !d.isDigit) = true := rfl
  have other := List.all_eq_true.mp others c mem
  rw [digit] at other
  cases other

/-- The text of a natural number is plain. -/
lemma plain_toString (n : ℕ) : Plain (toString n) := by
  intro c mem
  rw [Nat.toString_eq_repr, Nat.toList_repr] at mem
  exact not_special_of_isDigit (Nat.isDigit_of_mem_toDigits (by decide) (by decide) mem)

/-- The text of a double is plain. -/
lemma plain_text (x : Float) : Plain (Decimal.text x) := by
  have chars : (Decimal.text x).toList = Decimal.Layout.plain.chars x := String.toList_ofList
  intro c mem
  rw [chars] at mem
  have ordinary := (Decimal.shown_chars x).forall_mem (p := fun d => decide (d ∉ specials))
    (fun d digit => decide_eq_true (not_special_of_isDigit digit)) rfl
  exact of_decide_eq_true (ordinary c mem)

/-- The texts of doubles are plain. -/
lemma plain_texts (values : List Float) : ∀ cell ∈ values.map Decimal.text, Plain cell :=
  List.forall_mem_map.mpr fun x _ => plain_text x

end Numbers

namespace Bare

variable {record : List String}

/-- A line is split into the cells that were joined. -/
lemma cells_joined (bare : Bare record) : cells (joined record) = record := by
  have apart : ∀ word ∈ record.map String.toList, ',' ∉ word := by
    intro word mem comma
    obtain ⟨cell, held, rfl⟩ := List.mem_map.mp mem
    exact bare.plain cell held ',' comma (by decide)
  have split : (",".toList.intercalate (record.map String.toList)).splitOn ',' =
      record.map String.toList := by
    apply List.splitOn_intercalate ',' apart
    simpa using bare.ne_nil
  rw [cells, joined, String.toList_intercalate, split]
  simp

/-- No line end stands within a line. -/
lemma lineEnd_not_mem (bare : Bare record) : '\n' ∉ joined record := by
  obtain ⟨-, plain⟩ := bare
  unfold joined
  induction record with
  | nil => simp
  | cons cell record ih =>
    obtain ⟨here, later⟩ := List.forall_mem_cons.mp plain
    have first : '\n' ∉ cell.toList := fun mem => here '\n' mem (by decide)
    cases record with
    | nil => simpa using first
    | cons next record =>
      rw [String.intercalate_cons_cons, String.toList_append, String.toList_append]
      simp only [List.mem_append, not_or]
      exact ⟨⟨first, by decide⟩, ih later⟩

end Bare

/-- Lines that end with line ends are split into these lines. -/
lemma splitOn_lines {lines : List (List Char)} (apart : ∀ line ∈ lines, '\n' ∉ line) :
    (lines.flatMap (· ++ ['\n'])).splitOn '\n' = lines ++ [[]] := by
  induction lines with
  | nil => rfl
  | cons line lines ih =>
    obtain ⟨here, later⟩ := List.forall_mem_cons.mp apart
    have first : ∀ c ∈ line, (c == '\n') = false := by
      intro c mem
      apply beq_eq_false_iff_ne.mpr
      rintro rfl
      exact here mem
    rw [List.flatMap_cons, List.append_assoc, List.singleton_append, List.splitOn_eq_splitOnP,
      List.splitOnP_append_cons_of_forall_mem first _ (beq_self_eq_true _), ← List.splitOn_eq_splitOnP,
      ih later]
    rfl

section Files

variable {header : List String} {records before after : List (List String)} {record : List String}
  {text : String}

/-- The lines of some records are read as these records. -/
lemma readCsv?_join (bare : ∀ record ∈ records, Bare record) :
    readCsv? (String.join (records.map csvLine)) = some records := by
  have written : (String.join (records.map csvLine)).toList =
      (records.map joined).flatMap (· ++ ['\n']) := by
    simp [String.toList_join, List.flatMap_map, csvLine, joined]
  have apart : ∀ line ∈ records.map joined, '\n' ∉ line := by
    intro line mem
    obtain ⟨record, held, rfl⟩ := List.mem_map.mp mem
    exact (bare record held).lineEnd_not_mem
  have found : (records.map joined).map cells = records := by
    rw [List.map_map]
    have same := List.map_congr_left fun record mem => (bare record mem).cells_joined
    exact same.trans (List.map_id records)
  rw [readCsv?, lines?, written, splitOn_lines apart]
  simpa using found

/-- There is a file if all records are as long as the header. -/
lemma csvFile_eq_ok_iff : csvFile header records = .ok text ↔
    (∀ record ∈ records, record.length = header.length) ∧
      text = String.join ((header :: records).map csvLine) := by
  unfold csvFile unequalRecord?
  cases found : records.find? fun record => decide (record.length ≠ header.length) with
  | none =>
    have equal : ∀ record ∈ records, record.length = header.length := by simpa using found
    simp only [Option.map_none, Except.ok.injEq]
    exact ⟨fun e => ⟨equal, e.symm⟩, fun h => h.2.symm⟩
  | some record =>
    have ne : record.length ≠ header.length := by simpa using List.find?_some found
    have mem := List.mem_of_find?_eq_some found
    simp only [Option.map_some, reduceCtorEq, false_iff]
    exact fun h => ne (h.1 record mem)

/-- The first record of another length is the reason why there is no file. -/
lemma csvFile_of_unequal (equal : ∀ record ∈ before, record.length = header.length)
    (ne : record.length ≠ header.length) :
    csvFile header (before ++ record :: after) =
      .error { found := record.length, expected := header.length } := by
  have skipped : before.find? (fun record => decide (record.length ≠ header.length)) = none := by
    simpa using equal
  have found : (record :: after).find? (fun record => decide (record.length ≠ header.length)) =
      some record := List.find?_cons_of_pos (decide_eq_true ne)
  rw [csvFile, unequalRecord?, List.find?_append, skipped, Option.none_or, found]
  rfl

/-- What has been written is read. -/
lemma readCsv?_csvFile (h : csvFile header records = .ok text)
    (bare : ∀ record ∈ header :: records, Bare record) : readCsv? text = some (header :: records) := by
  obtain ⟨-, rfl⟩ := csvFile_eq_ok_iff.mp h
  exact readCsv?_join bare

end Files

end Stepwise.Text
