/-!
# A working folder

Where files are kept: a folder, which may be missing, and the files in it with their texts.
-/

namespace Stepwise

/-- A folder and its files, in the order in which they were made. -/
structure Folder where
  /-- Without the folder no file can be made in it. -/
  present : Bool
  files : List (String × String)
  deriving DecidableEq

/-- Why a file cannot be made. -/
inductive FileError where
  | noFolder
  deriving DecidableEq

/-- The text of a file error. -/
def FileError.message : FileError → String
  | noFolder => "No such file or directory (os error 2)"

namespace Folder

/-- A folder without files. -/
def empty : Folder where
  present := true
  files := []

/-- A folder that is not there. -/
def missing : Folder where
  present := false
  files := []

/-- Makes a file of a given text, in place of the file of that name if there is one. -/
def put (folder : Folder) (name text : String) : Except FileError Folder :=
  if folder.present then
    .ok { folder with files := folder.files.filter (·.1 ≠ name) ++ [(name, text)] }
  else .error .noFolder

/-- Adds a text at the end of a file. -/
def append (folder : Folder) (name text : String) : Folder :=
  { folder with files := folder.files.map fun (other, old) =>
      if other = name then (other, old ++ text) else (other, old) }

end Folder

end Stepwise
