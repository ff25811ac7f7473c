import Stepwise.Log.Session
import Stepwise.Walkthrough

/-!
# The command line

Installs a logger for messages of level `info` and shows the first example of the walkthrough.
-/

open Stepwise

/-- Prints the messages that the logger lets through, and then what the example shows. -/
def main : IO Unit := do
  let request : Log.Request := { level := some "info", toFile := false, fileName := "" }
  let (answer, session) := (Log.Session.start Folder.empty).request request
  match answer with
  | .ok () => pure ()
  | .error error => IO.eprintln ("logger was not installed: " ++ error.message)
  let { log, result } := Walkthrough.run Formula.Elementary.native 0
  let session := log.foldl Log.Session.write session
  for message in session.terminal do
    IO.println (Log.Session.line message)
  IO.print result.output
