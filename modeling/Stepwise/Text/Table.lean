/-!
# Tables in a text

A table is drawn with rounded corners and a line between any two rows. Its cells are set flush left with
a blank on either side, and a row that is too short is filled up with empty cells.
-/

namespace Stepwise.Text

/-- How wide the widest cell of a column is. -/
def columnWidth (rows : List (List String)) (column : Nat) : Nat :=
  rows.foldl (fun width row => max width ((row[column]?).getD "").length) 0

/-- A line of a table: `left` and `right` at its ends, `between` where columns meet. -/
def ruled (left fill between right : Char) (widths : List Nat) : String :=
  let runs := widths.map fun width => String.ofList (List.replicate (width + 2) fill)
  String.singleton left ++ String.intercalate (String.singleton between) runs
    ++ String.singleton right

/-- A row of a table. -/
def tableRow (widths : List Nat) (row : List String) : String :=
  let cells := widths.mapIdx fun column width =>
    let cell := (row[column]?).getD ""
    " " ++ cell ++ String.ofList (List.replicate (width - cell.length + 1) ' ')
  "│" ++ String.intercalate "│" cells ++ "│"

/-- A table of some rows, without a line end behind it. -/
def table (rows : List (List String)) : String :=
  let columns := rows.foldl (fun count row => max count row.length) 0
  let widths := (List.range columns).map (columnWidth rows)
  let top := ruled '╭' '─' '┬' '╮' widths
  let middle := ruled '├' '─' '┼' '┤' widths
  let bottom := ruled '╰' '─' '┴' '╯' widths
  let body := (rows.map (tableRow widths)).intersperse middle
  String.intercalate "\n" (top :: (body ++ [bottom]))

end Stepwise.Text
