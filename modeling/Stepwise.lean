import Stepwise.Arithmetic
import Stepwise.Decimal.Exact
import Stepwise.Decimal.Layout
import Stepwise.Decimal.Read
import Stepwise.Decimal.Rounded
import Stepwise.Decimal.Shortest
import Stepwise.Folder
import Stepwise.Folder.Save
import Stepwise.Formula.Brackets
import Stepwise.Formula.Compile
import Stepwise.Formula.Error
import Stepwise.Formula.Eval
import Stepwise.Formula.Expr
import Stepwise.Formula.Normal
import Stepwise.Formula.Parser
import Stepwise.Formula.Printer
import Stepwise.Formula.Symbol
import Stepwise.Formula.Token
import Stepwise.Formula.Token.Lexer
import Stepwise.Linear.Diagnostics
import Stepwise.Linear.Elimination
import Stepwise.Linear.Equations
import Stepwise.Linear.Messages
import Stepwise.Linear.Report
import Stepwise.Linear.Residual
import Stepwise.Linear.SingularValues
import Stepwise.Log
import Stepwise.Log.Session
import Stepwise.Main
import Stepwise.Proofs.Decimal.Conversion
import Stepwise.Proofs.Decimal.Plain
import Stepwise.Proofs.Decimal.Reading
import Stepwise.Proofs.Decimal.Shortest
import Stepwise.Proofs.Double
import Stepwise.Proofs.Double.Grid
import Stepwise.Proofs.Double.Magnitude
import Stepwise.Proofs.Double.Negation
import Stepwise.Proofs.Double.Operations
import Stepwise.Proofs.Double.Overflow
import Stepwise.Proofs.Double.Packing
import Stepwise.Proofs.Double.Rounding
import Stepwise.Proofs.Double.Sign
import Stepwise.Proofs.Double.Special
import Stepwise.Proofs.Double.SquareRoot
import Stepwise.Proofs.Double.Value
import Stepwise.Proofs.Folder
import Stepwise.Proofs.Folder.Save
import Stepwise.Proofs.Formula.Bookkeeping
import Stepwise.Proofs.Formula.Closing
import Stepwise.Proofs.Formula.Compiling
import Stepwise.Proofs.Formula.Cursor
import Stepwise.Proofs.Formula.Dependence
import Stepwise.Proofs.Formula.Evaluation
import Stepwise.Proofs.Formula.Explicit
import Stepwise.Proofs.Formula.Faults
import Stepwise.Proofs.Formula.FixedPoint
import Stepwise.Proofs.Formula.Following
import Stepwise.Proofs.Formula.Gaps
import Stepwise.Proofs.Formula.Grammar
import Stepwise.Proofs.Formula.Height
import Stepwise.Proofs.Formula.Literals
import Stepwise.Proofs.Formula.Lookahead
import Stepwise.Proofs.Formula.Neighbours
import Stepwise.Proofs.Formula.Nesting
import Stepwise.Proofs.Formula.Numeral
import Stepwise.Proofs.Formula.Omission
import Stepwise.Proofs.Formula.Passes
import Stepwise.Proofs.Formula.Printing
import Stepwise.Proofs.Formula.Products
import Stepwise.Proofs.Formula.Readers
import Stepwise.Proofs.Formula.Reading
import Stepwise.Proofs.Formula.Refusal
import Stepwise.Proofs.Formula.Rendering
import Stepwise.Proofs.Formula.Rereading
import Stepwise.Proofs.Formula.Scanning
import Stepwise.Proofs.Formula.Spelling
import Stepwise.Proofs.Formula.Stars
import Stepwise.Proofs.Formula.Stretches
import Stepwise.Proofs.Formula.Tiling
import Stepwise.Proofs.Formula.Writing
import Stepwise.Proofs.Linear.Columns
import Stepwise.Proofs.Linear.Largest
import Stepwise.Proofs.Linear.Malformed
import Stepwise.Proofs.Linear.Moves
import Stepwise.Proofs.Linear.Pivoting
import Stepwise.Proofs.Linear.Pivots
import Stepwise.Proofs.Linear.Reduction
import Stepwise.Proofs.Linear.Residuals
import Stepwise.Proofs.Linear.Saving
import Stepwise.Proofs.Linear.SingularValues
import Stepwise.Proofs.Linear.Solution
import Stepwise.Proofs.Linear.Steps
import Stepwise.Proofs.Linear.Tolerance
import Stepwise.Proofs.Linear.Trace
import Stepwise.Proofs.Linear.Verdict
import Stepwise.Proofs.Linear.Watching
import Stepwise.Proofs.Log.Account
import Stepwise.Proofs.Log.Installation
import Stepwise.Proofs.Log.Requests
import Stepwise.Proofs.Outcome
import Stepwise.Proofs.Rational
import Stepwise.Proofs.Root.Agreement
import Stepwise.Proofs.Root.Bracket
import Stepwise.Proofs.Root.Budget
import Stepwise.Proofs.Root.Convergence
import Stepwise.Proofs.Root.Interval
import Stepwise.Proofs.Root.Negation
import Stepwise.Proofs.Root.Path
import Stepwise.Proofs.Root.Saving
import Stepwise.Proofs.Root.Slope
import Stepwise.Proofs.Root.Watching
import Stepwise.Proofs.Text.Csv
import Stepwise.Root.Bisection
import Stepwise.Root.Derivative
import Stepwise.Root.Finder
import Stepwise.Root.Function
import Stepwise.Root.Input
import Stepwise.Root.Messages
import Stepwise.Root.Method
import Stepwise.Root.Newton
import Stepwise.Root.Report
import Stepwise.Root.Result
import Stepwise.Text.Blank
import Stepwise.Text.Csv
import Stepwise.Text.Digit
import Stepwise.Text.Exponent
import Stepwise.Text.Replace
import Stepwise.Text.Table
import Stepwise.Walkthrough
import Stepwise.Walkthrough.Shown
