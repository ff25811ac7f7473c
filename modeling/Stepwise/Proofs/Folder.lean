import Stepwise.Folder
import Mathlib.Tactic.Common

/-!
# The files of a folder

A folder is seen through the texts of its files. Making a file gives it a text and leaves the other files
alone, and so does adding a text at the end of a file. A file can be made in every folder that is there.
-/

namespace Stepwise.Folder

/-- The text of a file, if there is a file of that name. -/
def text? (folder : Folder) (name : String) : Option String :=
  (folder.files.find? (·.1 = name)).map (·.2)

variable {folder made : Folder} {name text : String}

/-- A file can be made exactly if the folder is there. -/
lemma exists_put_iff : (∃ made, folder.put name text = .ok made) ↔ folder.present = true := by
  unfold put
  split
  case isTrue present => exact ⟨fun _ => present, fun _ => ⟨_, rfl⟩⟩
  case isFalse missing => exact ⟨nofun, fun present => absurd present missing⟩

/-- A folder that is not there refuses every file. -/
lemma put_of_missing (missing : folder.present = false) :
    folder.put name text = .error .noFolder := by
  rw [put, missing]
  rfl

/-- Without the files of a name, the others are found where they were. -/
lemma find?_filter_name (files : List (String × String)) (name other : String) :
    (files.filter (·.1 ≠ name)).find? (·.1 = other) =
      if other = name then none else files.find? (·.1 = other) := by
  rw [List.find?_filter]
  split
  case isTrue e =>
    subst e
    exact List.find?_eq_none.mpr fun file _ => by simp
  case isFalse ne =>
    congr 1
    funext file
    by_cases e : file.1 = other
    · simp [e, ne]
    · simp [e]

/-- Making a file leaves the other files as they are. -/
lemma text?_put (h : folder.put name text = .ok made) (other : String) :
    made.text? other = if other = name then some text else folder.text? other := by
  unfold put at h
  split at h
  case isFalse => cases h
  case isTrue =>
    cases h
    rw [text?, List.find?_append, find?_filter_name, text?]
    split
    case isTrue e => simp [e]
    case isFalse ne => simp [Ne.symm ne]

/-- Adding to a file leaves the other files as they are. -/
lemma text?_append (folder : Folder) (name text other : String) :
    (folder.append name text).text? other =
      if other = name then (folder.text? other).map (· ++ text) else folder.text? other := by
  unfold append text?
  induction folder.files with
  | nil => simp
  | cons file files ih =>
    obtain ⟨first, old⟩ := file
    by_cases e : first = other
    · subst e
      by_cases here : first = name
      · simp [here]
      · simp [here]
    · by_cases here : first = name
      · subst here
        simpa [e] using ih
      · simpa [e, here] using ih

end Stepwise.Folder
