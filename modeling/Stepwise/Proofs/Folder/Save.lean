import Stepwise.Folder.Save
import Stepwise.Proofs.Folder
import Stepwise.Proofs.Outcome

/-!
# Saved files

In a folder that is there, a file is saved exactly if its records can be written. What has been written
is then the text of the file.
-/

namespace Stepwise.Folder

variable {folder saved : Folder} {name text : String} {file : Except Text.UnequalLengths String}

/-- A folder that has taken a file is there. -/
lemma present_put (h : folder.put name text = .ok saved) : saved.present = true := by
  unfold put at h
  split at h
  case isTrue present => cases h; exact present
  case isFalse => cases h

/-- Records are saved exactly if they can be written. -/
lemma exists_save_iff (present : folder.present = true) :
    (∃ saved, folder.save name file = .ok saved) ↔ ∃ text, file = .ok text := by
  obtain ⟨made, first⟩ : ∃ made, folder.put name "" = .ok made := exists_put_iff.mpr present
  cases file with
  | error error =>
    rw [save, first]
    exact ⟨nofun, nofun⟩
  | ok text =>
    obtain ⟨saved, second⟩ : ∃ saved, made.put name text = .ok saved :=
      exists_put_iff.mpr (present_put first)
    refine ⟨fun _ => ⟨text, rfl⟩, fun _ => ⟨saved, ?_⟩⟩
    rw [save, first]
    exact mapError_eq_ok_iff.mpr second

/-- Records that cannot be written are refused for that reason. -/
lemma save_of_unequal (present : folder.present = true) (name : String) (error : Text.UnequalLengths) :
    folder.save name (.error error) = .error (.lengths error) := by
  obtain ⟨made, first⟩ : ∃ made, folder.put name "" = .ok made := exists_put_iff.mpr present
  rw [save, first]
  rfl

/-- What has been written is the text of the saved file. -/
lemma text?_save (h : folder.save name file = .ok saved) :
    ∃ text, file = .ok text ∧ saved.text? name = some text := by
  obtain ⟨made, -, h⟩ := bind_eq_ok_iff.mp h
  obtain ⟨text, written, h⟩ := bind_eq_ok_iff.mp h
  refine ⟨text, mapError_eq_ok_iff.mp written, ?_⟩
  rw [text?_put (mapError_eq_ok_iff.mp h), if_pos rfl]

end Stepwise.Folder
