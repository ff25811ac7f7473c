import Stepwise.Decimal.Layout
import Stepwise.Text.Csv
import Stepwise.Text.Table

/-!
# Snapshots as tables and files

A snapshot is a list of rows. It can be shown as a table, and all snapshots of an elimination can be
saved as one file of comma-separated values. Both name the columns after the unknowns, and the last one
after the right side.
-/

namespace Stepwise.Linear

/-- The rows of a system at some time. -/
abbrev Snapshot :=
  List (List Float)

/-- How many columns a snapshot has: as many as its first row has entries. -/
def Snapshot.columns (snapshot : Snapshot) : Nat :=
  (snapshot.head?.map List.length).getD 0

/-- The names of a number of columns: one name for every unknown, and `b`. -/
def columnNames (columns : Nat) : List String :=
  (List.range (columns - 1)).map (fun j => "x" ++ toString (j + 1)) ++ ["b"]

/-- A number in a cell of a table, at least eight characters wide. -/
def cell (value : Float) : String :=
  let digits := (Decimal.Layout.places 4).chars value
  String.ofList (List.replicate (8 - digits.length) ' ' ++ digits)

/-- The table of a snapshot. -/
def snapshotTable (snapshot : Snapshot) : String :=
  Text.table (columnNames snapshot.columns :: snapshot.map (·.map cell))

/-- The records of a snapshot: the number of the snapshot and of the row before the entries of each
row. -/
def snapshotRecords (step : Nat) (snapshot : Snapshot) : List (List String) :=
  snapshot.mapIdx fun row values =>
    toString step :: toString row :: values.map Decimal.text

/-- The file of some snapshots, with the columns of the first of them. -/
def snapshotFile (snapshots : List Snapshot) : Except Text.UnequalLengths String :=
  let columns := (snapshots.head?.map Snapshot.columns).getD 0
  Text.csvFile ("step" :: "row" :: columnNames columns)
    (snapshots.mapIdx snapshotRecords).flatten

end Stepwise.Linear
