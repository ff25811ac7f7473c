import Stepwise.Proofs.Decimal.Reading
import Stepwise.Proofs.Folder.Save
import Stepwise.Proofs.Text.Csv
import Stepwise.Root.Report

/-!
# Saved traces

The file of a trace has a line for its header and a line for every step. A step of the method fills as
many columns as the header has, and a step of the other method does not, so a trace is saved exactly if
all its steps are of its method. Reading the file gives back the trace, with every number as it was.
-/

namespace Stepwise.Root

/-- The step of a method with a given iteration and given numbers. -/
def Step.ofNumbers? {α : Type} : Method → ℕ → List α → Option (Step α)
  | .bisection, iteration, [a, b, midpoint, atA, atB, atMidpoint] =>
    some (.halving { iteration, a, b, midpoint, atA, atB, atMidpoint })
  | .newton, iteration, [x, value, slope, next] =>
    some (.tangent { iteration, x, value, slope, next })
  | _, _, _ => none

/-- Reads a record: a natural number and then doubles. -/
def Step.ofRecord? (method : Method) : List String → Option (Step Float)
  | [] => none
  | iteration :: numbers => do
    let iteration ← Decimal.readNatural? iteration.toList
    let numbers ← numbers.mapM fun cell => Decimal.read? cell.toList
    Step.ofNumbers? method iteration numbers

/-- The header of the file of a trace. -/
def Method.header (method : Method) : List String :=
  "iteration" :: method.columns

/-- Reads the file of a trace. -/
def readTrace? (method : Method) (text : String) : Option (List (Step Float)) :=
  match Text.readCsv? text with
  | some (header :: records) =>
    if header = method.header then records.mapM (Step.ofRecord? method) else none
  | _ => none

namespace Step

/-- The numbers of a step give the step back. -/
lemma ofNumbers?_numbers {α : Type} (step : Step α) :
    ofNumbers? step.method step.iteration step.numbers = some step := by
  cases step <;> rfl

/-- The record of a step is read as the step. -/
lemma ofRecord?_record (step : Step Float) : ofRecord? step.method step.record = some step := by
  simp only [ofRecord?, record, Decimal.readNatural?_toString, Decimal.mapM_read?_text,
    Option.bind_eq_bind, Option.bind_some, ofNumbers?_numbers]

/-- The record of a step fills the columns of its own method only. -/
lemma length_record_eq_iff {method : Method} {step : Step Float} :
    step.record.length = method.header.length ↔ step.method = method := by
  cases step <;> cases method <;> simp [record, numbers, Step.method, Method.header, Method.columns]

/-- The cells of the record of a step need no quotes. -/
lemma bare_record (step : Step Float) : Text.Bare step.record where
  ne_nil := List.cons_ne_nil _ _
  plain := List.forall_mem_cons.mpr ⟨Text.plain_toString _, Text.plain_texts step.numbers⟩

end Step

/-- The cells of a header need no quotes. -/
lemma Method.bare_header (method : Method) : Text.Bare method.header where
  ne_nil := List.cons_ne_nil _ _
  plain := by
    have letters : method.header.all (·.toList.all fun c => decide (c ∉ Text.specials)) = true := by
      cases method <;> rfl
    intro cell mem
    exact Text.plain_of_all (List.all_eq_true.mp letters cell mem)

section Files

variable {method : Method} {trace : List (Step Float)} {text : String}

/-- A trace has a file exactly if all its steps are of the method of the file. -/
lemma exists_traceFile_iff :
    (∃ text, traceFile method trace = .ok text) ↔ ∀ step ∈ trace, step.method = method := by
  have lengths : (∀ record ∈ trace.map Step.record, record.length = method.header.length) ↔
      ∀ step ∈ trace, step.method = method := by
    simp only [List.forall_mem_map, Step.length_record_eq_iff]
  rw [← lengths]
  constructor
  · rintro ⟨text, h⟩
    exact (Text.csvFile_eq_ok_iff.mp h).1
  · intro equal
    exact ⟨_, Text.csvFile_eq_ok_iff.mpr ⟨equal, rfl⟩⟩

/-- The first step of the other method is the reason if there is no file. -/
lemma traceFile_of_foreign {step : Step Float} (first : trace.find? (·.method ≠ method) = some step) :
    traceFile method trace =
      .error { found := step.record.length, expected := method.header.length } := by
  obtain ⟨foreign, before, after, rfl, own⟩ := List.find?_eq_some_iff_append.mp first
  rw [traceFile, List.map_append, List.map_cons]
  apply Text.csvFile_of_unequal
  · intro record mem
    obtain ⟨other, held, rfl⟩ := List.mem_map.mp mem
    exact Step.length_record_eq_iff.mpr (by simpa using own other held)
  · exact mt Step.length_record_eq_iff.mp (by simpa using foreign)

/-- The file of a trace is read as the header and the records of the steps. -/
lemma readCsv?_traceFile (h : traceFile method trace = .ok text) :
    Text.readCsv? text = some (method.header :: trace.map Step.record) := by
  apply Text.readCsv?_csvFile h
  refine List.forall_mem_cons.mpr ⟨method.bare_header, ?_⟩
  exact List.forall_mem_map.mpr fun step _ => step.bare_record

/-- The lines of the file of a trace. -/
lemma lines?_traceFile (h : traceFile method trace = .ok text) :
    ∃ lines, Text.lines? text = some lines ∧ lines.length = 1 + trace.length ∧
      ∀ line ∈ lines, (Text.cells line).length = method.header.length := by
  obtain ⟨lines, found, records⟩ := Option.map_eq_some_iff.mp (readCsv?_traceFile h)
  have equal := (Text.csvFile_eq_ok_iff.mp h).1
  refine ⟨lines, found, ?_, ?_⟩
  · have count := congrArg List.length records
    rw [List.length_map, List.length_cons, List.length_map] at count
    omega
  · intro line mem
    have read : Text.cells line ∈ method.header :: trace.map Step.record :=
      records ▸ List.mem_map_of_mem mem
    rcases List.mem_cons.mp read with header | record
    · rw [header]
    · exact equal _ record

/-- The file of a trace is read as the trace. -/
lemma readTrace?_traceFile (h : traceFile method trace = .ok text) :
    readTrace? method text = some trace := by
  have own := exists_traceFile_iff.mp ⟨text, h⟩
  rw [readTrace?, readCsv?_traceFile h]
  simp only [if_pos]
  apply mapM_map_eq_some
  intro step mem
  rw [← own step mem]
  exact step.ofRecord?_record

end Files

section Saving

/-- In a folder that is there, a trace is saved exactly if all its steps are of the method of the
result. Otherwise the first step of the other method is refused, because its record is longer or shorter
than the header. A saved file has one line for the header and one for each step, all of them with as
many cells as the header, and it is read as the trace. -/
theorem save_traceFile {folder : Folder} (present : folder.present = true) (name : String)
    (result : Result Float) :
    ((∃ saved, folder.save name (traceFile result.method result.trace) = .ok saved) ↔
      ∀ step ∈ result.trace, step.method = result.method) ∧
    (∀ step, result.trace.find? (·.method ≠ result.method) = some step →
      step.record.length ≠ result.method.header.length ∧
      folder.save name (traceFile result.method result.trace) =
        .error (.lengths { found := step.record.length, expected := result.method.header.length })) ∧
    ∀ saved, folder.save name (traceFile result.method result.trace) = .ok saved →
      ∃ text lines, saved.text? name = some text ∧ Text.lines? text = some lines ∧
        lines.length = 1 + result.trace.length ∧
        (∀ line ∈ lines, (Text.cells line).length = result.method.header.length) ∧
        readTrace? result.method text = some result.trace := by
  refine ⟨?_, ?_, ?_⟩
  · rw [Folder.exists_save_iff present]
    exact exists_traceFile_iff
  · intro step first
    have foreign : step.method ≠ result.method := by simpa using List.find?_some first
    rw [traceFile_of_foreign first]
    exact ⟨mt Step.length_record_eq_iff.mp foreign, Folder.save_of_unequal present name _⟩
  · intro saved h
    obtain ⟨text, written, found⟩ := Folder.text?_save h
    obtain ⟨lines, split, count, widths⟩ := lines?_traceFile written
    exact ⟨text, lines, found, split, count, widths, readTrace?_traceFile written⟩

/-- A step of Newton's method whose numbers are easily lost: a negative zero, the least positive double,
an infinity, and no number at all. -/
def extreme : Step Float :=
  .tangent { iteration := 1, x := -0.0, value := 5e-324, slope := 1.0 / 0.0, next := 0.0 / 0.0 }

/-- A step of bisection. -/
def foreign : Step Float :=
  .halving { iteration := 2, a := 0, b := 1, midpoint := 0.5, atA := -1, atB := 1, atMidpoint := 0 }

/-- The result of a run of Newton's method with some trace. -/
def handmade (trace : List (Step Float)) : Result Float where
  method := .newton
  root := none
  iterations := trace.length
  converged := false
  trace := trace
  history := []
  diagnostic := none

/-- The numbers of the extreme step are saved as they are, and a step of bisection behind it is refused.
-/
theorem save_traceFile_extreme :
    (∃ saved text, Folder.empty.save "trace.csv" (traceFile .newton [extreme]) = .ok saved ∧
      saved.text? "trace.csv" = some text ∧ readTrace? .newton text = some [extreme]) ∧
    Folder.empty.save "trace.csv" (traceFile .newton [extreme, foreign]) =
      .error (.lengths { found := 7, expected := 5 }) := by
  have empty_present : Folder.empty.present = true := rfl
  obtain ⟨possible, -, saving⟩ := save_traceFile empty_present "trace.csv" (handmade [extreme])
  obtain ⟨-, refused, -⟩ := save_traceFile empty_present "trace.csv" (handmade [extreme, foreign])
  constructor
  · obtain ⟨saved, h⟩ := possible.mpr (List.forall_mem_singleton.mpr rfl)
    obtain ⟨text, lines, found, -, -, -, read⟩ := saving saved h
    exact ⟨saved, text, h, found, read⟩
  · exact (refused foreign rfl).2

end Saving

end Stepwise.Root
