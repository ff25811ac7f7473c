import Mathlib.Data.List.SplitBy
import Stepwise.Linear.Report
import Stepwise.Proofs.Decimal.Reading
import Stepwise.Proofs.Folder.Save
import Stepwise.Proofs.Linear.Trace
import Stepwise.Proofs.Text.Csv

/-!
# Saved snapshots

The file of the snapshots of an elimination has a line for every row of every snapshot. All snapshots
have the shape of the system, so they fit the header, which is that of the first one. Each line begins
with the number of its snapshot. A snapshot has at least one row, so the lines of the snapshots can be
told apart, and reading the file gives back the snapshots.
-/

namespace Stepwise.Linear

open Equations

/-- A row of a snapshot, with the numbers of the snapshot and of the row. -/
structure TaggedRow where
  step : ℕ
  row : ℕ
  entries : List Float

namespace TaggedRow

/-- The numbers of the snapshot and of the row. -/
def tag (tagged : TaggedRow) : ℕ × ℕ :=
  (tagged.step, tagged.row)

/-- The record of a row. -/
def record (tagged : TaggedRow) : List String :=
  toString tagged.step :: toString tagged.row :: tagged.entries.map Decimal.text

/-- Reads a record: two natural numbers and then doubles. -/
def ofRecord? : List String → Option TaggedRow
  | step :: row :: cells => do
    let step ← Decimal.readNatural? step.toList
    let row ← Decimal.readNatural? row.toList
    let entries ← cells.mapM fun cell => Decimal.read? cell.toList
    some { step, row, entries }
  | _ => none

/-- The record of a row is read as the row. -/
lemma ofRecord?_record (tagged : TaggedRow) : ofRecord? tagged.record = some tagged := by
  simp only [ofRecord?, record, Decimal.readNatural?_toString, Decimal.mapM_read?_text,
    Option.bind_eq_bind, Option.bind_some]

/-- The cells of a record need no quotes. -/
lemma bare_record (tagged : TaggedRow) : Text.Bare tagged.record where
  ne_nil := List.cons_ne_nil _ _
  plain := by
    refine List.forall_mem_cons.mpr ⟨Text.plain_toString _, ?_⟩
    exact List.forall_mem_cons.mpr ⟨Text.plain_toString _, Text.plain_texts tagged.entries⟩

end TaggedRow

/-- The rows of a snapshot with their numbers. -/
def Snapshot.tagged (step : ℕ) (snapshot : Snapshot) : List TaggedRow :=
  snapshot.mapIdx fun row entries => { step, row, entries }

/-- The rows of some snapshots with their numbers. -/
def taggedRows (snapshots : List Snapshot) : List TaggedRow :=
  (snapshots.mapIdx Snapshot.tagged).flatten

/-- Were two rows taken from the same snapshot? -/
def TaggedRow.together (here there : TaggedRow) : Bool :=
  here.step == there.step

/-- Puts the rows of each snapshot together. -/
def regroup (rows : List TaggedRow) : List Snapshot :=
  (rows.splitBy TaggedRow.together).map (·.map TaggedRow.entries)

/-- Reads the file of some snapshots. -/
def readSnapshots? (text : String) : Option (List Snapshot) :=
  match Text.readCsv? text with
  | some (_ :: records) => (records.mapM TaggedRow.ofRecord?).map regroup
  | _ => none

/-- The header of the file of snapshots of `n` equations in `n` unknowns. -/
def snapshotHeader (n : ℕ) : List String :=
  "step" :: "row" :: (List.range n).map (fun j => "x" ++ toString (j + 1)) ++ ["b"]

/-- The header has three cells besides the names of the coefficients. -/
lemma length_snapshotHeader (n : ℕ) : (snapshotHeader n).length = n + 3 := by
  simp [snapshotHeader]

/-- The cells of the header need no quotes. -/
lemma bare_snapshotHeader (n : ℕ) : Text.Bare (snapshotHeader n) where
  ne_nil := List.cons_ne_nil _ _
  plain := by
    intro cell mem
    simp only [snapshotHeader, List.mem_append, List.mem_cons, List.mem_map, List.not_mem_nil,
      or_false] at mem
    rcases mem with (rfl | rfl | ⟨j, -, rfl⟩) | rfl
    · exact Text.plain_of_all rfl
    · exact Text.plain_of_all rfl
    · exact Text.plain_append (Text.plain_of_all rfl) (Text.plain_toString _)
    · exact Text.plain_of_all rfl

section Tags

variable {snapshots : List Snapshot} {n : ℕ}

/-- Mapping what was computed with positions composes the functions. -/
lemma map_mapIdx {α β γ : Type} (f : ℕ → α → β) (g : β → γ) (l : List α) :
    (l.mapIdx f).map g = l.mapIdx fun i a => g (f i a) := by
  apply List.ext_getElem
  · simp
  · intro i _ _
    simp

/-- A function of the positions alone runs through the range of positions. -/
lemma mapIdx_const {α β : Type} (f : ℕ → β) (l : List α) :
    l.mapIdx (fun i _ => f i) = (List.range l.length).map f := by
  apply List.ext_getElem
  · simp
  · intro i _ _
    simp

/-- The records of snapshots are those of their rows. -/
lemma flatten_snapshotRecords (snapshots : List Snapshot) :
    (snapshots.mapIdx snapshotRecords).flatten = (taggedRows snapshots).map TaggedRow.record := by
  rw [taggedRows, List.map_flatten, map_mapIdx]
  congr
  funext step snapshot
  rw [Snapshot.tagged, map_mapIdx]
  rfl

/-- The rows are tagged with all pairs of a snapshot and a row, in order. -/
lemma map_tag_taggedRows (square : ∀ snapshot ∈ snapshots, snapshot.length = n) :
    (taggedRows snapshots).map TaggedRow.tag =
      List.range snapshots.length ×ˢ List.range n := by
  have each : snapshots.mapIdx (fun step snapshot => (snapshot.tagged step).map TaggedRow.tag) =
      snapshots.mapIdx fun step _ => (List.range n).map (Prod.mk step) := by
    apply List.mapIdx_eq_mapIdx_iff.mpr
    intro step lt
    rw [Snapshot.tagged, map_mapIdx, ← square _ (List.getElem_mem lt)]
    exact mapIdx_const (Prod.mk step) _
  rw [taggedRows, List.map_flatten, map_mapIdx, each, mapIdx_const]
  rfl

/-- The rows of a snapshot carry its number. -/
lemma Snapshot.step_of_mem_tagged {step : ℕ} {snapshot : Snapshot} {tagged : TaggedRow}
    (mem : tagged ∈ snapshot.tagged step) : tagged.step = step := by
  obtain ⟨row, lt, rfl⟩ := List.mem_mapIdx.mp mem
  rfl

/-- A snapshot with rows has numbered rows. -/
lemma Snapshot.tagged_ne_nil {step : ℕ} {snapshot : Snapshot} (nonempty : snapshot ≠ []) :
    snapshot.tagged step ≠ [] :=
  mt List.mapIdx_eq_nil_iff.mp nonempty

/-- Without the numbers the rows of a snapshot are left. -/
lemma Snapshot.map_entries_tagged (step : ℕ) (snapshot : Snapshot) :
    (snapshot.tagged step).map TaggedRow.entries = snapshot := by
  rw [tagged, map_mapIdx]
  exact List.ext_getElem List.length_mapIdx fun i _ _ => List.getElem_mapIdx

/-- Snapshots that have rows are put together from their rows. -/
lemma regroup_taggedRows (nonempty : ∀ snapshot ∈ snapshots, snapshot ≠ []) :
    regroup (taggedRows snapshots) = snapshots := by
  have split : (taggedRows snapshots).splitBy TaggedRow.together =
      snapshots.mapIdx Snapshot.tagged := by
    apply List.splitBy_flatten
    case hn =>
      intro mem
      obtain ⟨step, lt, none⟩ := List.mem_mapIdx.mp mem
      exact Snapshot.tagged_ne_nil (nonempty _ (List.getElem_mem lt)) none
    case hc =>
      intro rows mem
      obtain ⟨step, lt, rfl⟩ := List.mem_mapIdx.mp mem
      apply List.isChain_iff_getElem.mpr
      intro i below
      rw [TaggedRow.together, Snapshot.step_of_mem_tagged (List.getElem_mem _),
        Snapshot.step_of_mem_tagged (List.getElem_mem _)]
      exact beq_self_eq_true step
    case hc' =>
      apply List.isChain_iff_getElem.mpr
      intro step below
      simp only [List.getElem_mapIdx]
      refine ⟨Snapshot.tagged_ne_nil (nonempty _ (List.getElem_mem _)),
        Snapshot.tagged_ne_nil (nonempty _ (List.getElem_mem _)), ?_⟩
      rw [TaggedRow.together, Snapshot.step_of_mem_tagged (List.getLast_mem _),
        Snapshot.step_of_mem_tagged (List.head_mem _)]
      exact beq_eq_false_iff_ne.mpr (Nat.ne_of_lt (Nat.lt_succ_self step))
  rw [regroup, split, map_mapIdx]
  simp only [Snapshot.map_entries_tagged]
  exact List.ext_getElem List.length_mapIdx fun i _ _ => List.getElem_mapIdx

end Tags

/-- Snapshots of `n` equations in `n` unknowns. -/
structure Shaped (n : ℕ) (snapshots : List Snapshot) : Prop where
  nonempty : snapshots ≠ []
  pos : 0 < n
  height : ∀ snapshot ∈ snapshots, snapshot.length = n
  width : ∀ snapshot ∈ snapshots, ∀ row ∈ snapshot, row.length = n + 1

namespace Shaped

variable {n : ℕ} {snapshots : List Snapshot} {text : String}

/-- The snapshots of a system have rows. -/
lemma ne_nil (shaped : Shaped n snapshots) : ∀ snapshot ∈ snapshots, snapshot ≠ [] := by
  intro snapshot mem
  apply List.ne_nil_of_length_pos
  rw [shaped.height snapshot mem]
  exact shaped.pos

/-- The header is that of the system. -/
lemma snapshotFile_eq (shaped : Shaped n snapshots) : snapshotFile snapshots =
    Text.csvFile (snapshotHeader n) ((taggedRows snapshots).map TaggedRow.record) := by
  obtain ⟨first, later, rfl⟩ := List.exists_cons_of_ne_nil shaped.nonempty
  obtain ⟨row, below, rfl⟩ := List.exists_cons_of_ne_nil (shaped.ne_nil first List.mem_cons_self)
  have columns : row.length = n + 1 :=
    shaped.width _ List.mem_cons_self row List.mem_cons_self
  rw [snapshotFile, flatten_snapshotRecords]
  simp only [List.head?_cons, Option.map_some, Option.getD_some, Snapshot.columns, columns]
  rfl

/-- There is one row for each equation of each snapshot. -/
lemma length_taggedRows (shaped : Shaped n snapshots) :
    (taggedRows snapshots).length = n * snapshots.length := by
  have tags := congrArg List.length (map_tag_taggedRows shaped.height)
  rw [List.length_map] at tags
  rw [tags, List.length_product, List.length_range, List.length_range, Nat.mul_comm]

/-- The records begin with the numbers of snapshots and rows. -/
lemma map_take_record (shaped : Shaped n snapshots) :
    ((taggedRows snapshots).map TaggedRow.record).map (·.take 2) =
      (List.range snapshots.length ×ˢ List.range n).map
        fun (step, row) => [toString step, toString row] := by
  rw [← map_tag_taggedRows shaped.height, List.map_map, List.map_map]
  rfl

/-- A row has as many cells as the header. -/
lemma length_record (shaped : Shaped n snapshots) {tagged : TaggedRow}
    (mem : tagged ∈ taggedRows snapshots) : tagged.record.length = n + 3 := by
  obtain ⟨rows, held, mem⟩ := List.mem_flatten.mp mem
  obtain ⟨step, lt, rfl⟩ := List.mem_mapIdx.mp held
  obtain ⟨row, below, rfl⟩ := List.mem_mapIdx.mp mem
  have width := shaped.width _ (List.getElem_mem lt) _ (List.getElem_mem below)
  simp [TaggedRow.record, width]

/-- There is a file of the snapshots. -/
lemma exists_snapshotFile (shaped : Shaped n snapshots) :
    ∃ text, snapshotFile snapshots = .ok text := by
  rw [shaped.snapshotFile_eq]
  refine ⟨_, Text.csvFile_eq_ok_iff.mpr ⟨List.forall_mem_map.mpr fun tagged mem => ?_, rfl⟩⟩
  rw [shaped.length_record mem, length_snapshotHeader]

/-- The file of snapshots is read as the header and the records of their rows. -/
lemma readCsv?_snapshotFile (shaped : Shaped n snapshots) (h : snapshotFile snapshots = .ok text) :
    Text.readCsv? text = some (snapshotHeader n :: (taggedRows snapshots).map TaggedRow.record) := by
  rw [shaped.snapshotFile_eq] at h
  apply Text.readCsv?_csvFile h
  refine List.forall_mem_cons.mpr ⟨bare_snapshotHeader n, ?_⟩
  exact List.forall_mem_map.mpr fun tagged _ => tagged.bare_record

/-- The file of snapshots is read as the snapshots. -/
lemma readSnapshots?_snapshotFile (shaped : Shaped n snapshots)
    (h : snapshotFile snapshots = .ok text) : readSnapshots? text = some snapshots := by
  have rows : ((taggedRows snapshots).map TaggedRow.record).mapM TaggedRow.ofRecord? =
      some (taggedRows snapshots) := mapM_map_eq_some fun tagged _ => tagged.ofRecord?_record
  rw [readSnapshots?, shaped.readCsv?_snapshotFile h]
  simp only [rows, Option.map_some, regroup_taggedRows shaped.ne_nil]

end Shaped

/-- The snapshots of a run have the shape of the system. -/
lemma shaped_trace {n : ℕ} (pos : 0 < n) (run : Run Float n) (start : Equations Float n) :
    Shaped n ((run.trace start).map Equations.rows) where
  nonempty := List.cons_ne_nil _ _
  pos := pos
  height := List.forall_mem_map.mpr fun system _ => system.rows_shape.1
  width := List.forall_mem_map.mpr fun system _ => system.rows_shape.2

namespace Solver

variable {solver : Solver Float}

/-- The trace of every run on a square system of finite doubles can be saved in a folder that is there,
also if the run overflows. The file has a header with one column for each unknown, and a line for each
row of each snapshot. The lines are tagged with the numbers of the snapshot and of the row, in order,
and have as many cells as the header. The file is read as the snapshots. -/
theorem save_snapshotFile {rows : List (List Float)} (nonempty : rows ≠ [])
    (square : ∀ row ∈ rows, row.length = rows.length + 1)
    (finite : ∀ row ∈ rows, ∀ value ∈ row, value.isFinite = true)
    {folder : Folder} (present : folder.present = true) (name : String) :
    ∃ result saved text records, (solver.solveRows rows).run.result = .ok result ∧
      folder.save name (snapshotFile (result.trace.map Equations.rows)) = .ok saved ∧
      saved.text? name = some text ∧
      Text.readCsv? text = some (snapshotHeader rows.length :: records) ∧
      records.length = rows.length * result.trace.length ∧
      records.map (·.take 2) =
        (List.range result.trace.length ×ˢ List.range rows.length).map
          (fun (step, row) => [toString step, toString row]) ∧
      (∀ record ∈ records, record.length = rows.length + 3) ∧
      readSnapshots? text = some (result.trace.map Equations.rows) := by
  have sound := defect?_eq_none_iff.mpr ⟨nonempty, fun row mem => ⟨square row mem, finite row mem⟩⟩
  obtain ⟨system, accepted⟩ := exists_ofRows_iff.mpr sound
  have shaped := shaped_trace (List.length_pos_of_ne_nil nonempty) (solver.run system) system
  obtain ⟨saved, h⟩ : ∃ saved, folder.save name _ = .ok saved :=
    (Folder.exists_save_iff present).mpr shaped.exists_snapshotFile
  obtain ⟨text, written, found⟩ := Folder.text?_save h
  refine ⟨(solver.run system).result system, ?_⟩
  rw [Run.result_trace, ← List.length_map Equations.rows]
  exact ⟨saved, text, _, solveRows_eq_ok_iff.mpr ⟨system, accepted, rfl⟩, h, found,
    shaped.readCsv?_snapshotFile written, (List.length_map _).trans shaped.length_taggedRows,
    shaped.map_take_record, List.forall_mem_map.mpr fun _ mem => shaped.length_record mem,
    shaped.readSnapshots?_snapshotFile written⟩

/-- Two equations whose first pivot is so small that the quotient by it overflows. -/
def shallow : List (List Float) :=
  [[1e-5, 0, 1], [1e308, 1, 1]]

/-- The elimination of the shallow equations ends with a row of infinities and a number that is none,
and is saved with it. -/
theorem save_snapshotFile_shallow :
    ∃ result saved text, ((usual false).solveRows shallow).run.result = .ok result ∧
      result.status = .singular ∧
      Folder.empty.save "trace.csv" (snapshotFile (result.trace.map Equations.rows)) = .ok saved ∧
      saved.text? "trace.csv" = some text ∧
      readSnapshots? text =
        some [shallow, [[1e-5, 0, 1], [-1.0 / 0.0, 0.0 / 0.0, -1.0 / 0.0]]] := by
  obtain ⟨result, saved, text, -, h, written, found, -, -, -, -, read⟩ :=
    @save_snapshotFile (usual false) shallow (by decide) (by decide) (by decide +kernel)
      Folder.empty rfl "trace.csv"
  obtain ⟨result', h', e⟩ : ∃ result, ((usual false).solveRows shallow).run.result = .ok result ∧
      (result.status, result.trace.map Equations.rows) =
        (.singular, [shallow, [[1e-5, 0, 1], [-1.0 / 0.0, 0.0 / 0.0, -1.0 / 0.0]]]) :=
    toOption_map_eq_some_iff.mp (by decide +kernel)
  cases h.symm.trans h'
  obtain ⟨singular, trace⟩ := Prod.mk.inj e
  exact ⟨result, saved, text, h, singular, written, found, trace ▸ read⟩

end Solver

end Stepwise.Linear
