/-!
# Comma-separated values

A file of comma-separated values holds one record a line. All records have as many cells as the first
one. The cells of this library are names and numbers, without commas, quotes or line ends, so they are
written as they are.
-/

namespace Stepwise.Text

/-- A record that is longer or shorter than the first one of its file. -/
structure UnequalLengths where
  found : Nat
  expected : Nat
  deriving DecidableEq

/-- The text of the error. -/
def UnequalLengths.message (error : UnequalLengths) : String :=
  "CSV error: found record with " ++ toString error.found ++ " fields, but the previous record has "
    ++ toString error.expected ++ " fields"

/-- A record as a line. -/
def csvLine (cells : List String) : String :=
  String.intercalate "," cells ++ "\n"

/-- The first record whose length is not the expected one. -/
def unequalRecord? (expected : Nat) (records : List (List String)) : Option UnequalLengths :=
  (records.find? fun record => record.length ≠ expected).map fun record =>
    { found := record.length, expected }

/-- A file with a header and some records. -/
def csvFile (header : List String) (records : List (List String)) : Except UnequalLengths String :=
  match unequalRecord? header.length records with
  | some error => .error error
  | none => .ok (String.join ((header :: records).map csvLine))

end Stepwise.Text
