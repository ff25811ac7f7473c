import Stepwise.Folder
import Stepwise.Text.Csv

/-!
# Saving records

A file of comma-separated values is saved by making it and writing its records. The folder can fail to
make the file, and a record can be refused.
-/

namespace Stepwise

/-- Why records cannot be saved. -/
inductive SaveError where
  | file (error : FileError)
  | lengths (error : Text.UnequalLengths)
  deriving DecidableEq

/-- The text of the error. -/
def SaveError.message : SaveError → String
  | file error => error.message
  | lengths error => error.message

/-- Saves a file under a name. The folder is looked at before the text of the file is made. -/
def Folder.save (folder : Folder) (name : String) (file : Except Text.UnequalLengths String) :
    Except SaveError Folder := do
  let folder ← (folder.put name "").mapError .file
  let text ← file.mapError .lengths
  (folder.put name text).mapError .file

end Stepwise
