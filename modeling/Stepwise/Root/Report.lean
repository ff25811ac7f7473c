import Stepwise.Decimal.Layout
import Stepwise.Root.Result
import Stepwise.Text.Csv
import Stepwise.Text.Table

/-!
# Traces as tables and files

The trace of a result can be shown as a table and saved as a file of comma-separated values. Both have
the columns of the method. A table leaves out steps of the other method, and a file refuses them.
-/

namespace Stepwise.Root

/-- A number in a cell of a table. -/
def cellLayout : Decimal.Layout :=
  .scientific 10

namespace Method

/-- The columns of a table, without the column of step numbers. -/
def columns : Method → List String
  | bisection => ["a", "b", "c", "f(a)", "f(b)", "f(c)"]
  | newton => ["x", "f(x)", "f'(x)", "x_next"]

end Method

/-- The table of a trace, empty if no step was taken. -/
def traceTable (method : Method) (trace : List (Step Float)) : String :=
  if trace.isEmpty then ""
  else
    let steps := trace.filter fun step => step.method = method
    let rows := steps.map fun step =>
      toString step.iteration :: step.numbers.map cellLayout.write
    Text.table (("iter" :: method.columns) :: rows)

/-- The record of a step in a file: its number, and its values in the plain form. -/
def Step.record (step : Step Float) : List String :=
  toString step.iteration :: step.numbers.map Decimal.text

/-- The file of a trace. -/
def traceFile (method : Method) (trace : List (Step Float)) : Except Text.UnequalLengths String :=
  Text.csvFile ("iteration" :: method.columns) (trace.map Step.record)

end Stepwise.Root
