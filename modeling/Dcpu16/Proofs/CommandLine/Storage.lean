import Mathlib
import Dcpu16.CommandLine.Session

/-!
# Sessions and storage

What a session does depends on what the files are kept in only as far as it reads and writes them:
a session can be carried out on any `Storage`. A directory is one (`Session.within_eq_on`), and a
file that has been written into it is read back (`Directory.exists_written`).
-/
namespace Dcpu16.CommandLine

variable {σ : Type}

/-- A place for files, with its states: what is read at a path, and the state behind a write. -/
structure Storage (σ : Type) where
  /-- The content of a file. -/
  read : σ → String → Except FileError ByteArray
  /-- The state after a file has been written. -/
  write : σ → String → ByteArray → Except FileError σ

/-- Carry a session out in a storage. A write that fails leaves the storage as it is. -/
def Session.on (storage : Storage σ) : Session → σ → Report × σ
  | .done report, files => (report, files)
  | .read path next, files => (next (storage.read files path)).on storage files
  | .write path content next, files =>
    match storage.write files path content with
    | .ok written => (next (.ok ())).on storage written
    | .error error => (next (.error error)).on storage files

/-- Directories as a storage. -/
def Directory.storage : Storage Directory := ⟨Directory.read, Directory.write⟩

/-- A session in a directory is a session on a storage. -/
theorem Session.within_eq_on (session : Session) (directory : Directory) :
    session.within directory = session.on Directory.storage directory := by
  induction session generalizing directory with
  | done report => rfl
  | read path next ih => exact ih _ directory
  | write path content next ih =>
    have same : Directory.storage.write directory path content = directory.write path content := rfl
    rw [within, on, same]
    cases directory.write path content with
    | ok written => exact ih _ written
    | error error => exact ih _ directory

namespace Directory

/-- Whether components lead to a name does not depend on the files, because a path ends at its first
name. -/
theorem follow_eq_ok {directory : Directory} {outside : Bool} {components : List (List Char)}
    {target : Target} (leads : directory.follow outside components = .ok target)
    (other : Directory) : other.follow outside components = .ok target := by
  induction components generalizing outside with
  | nil => exact leads
  | cons component rest ih =>
    unfold follow at leads ⊢
    split_ifs at leads ⊢ with stays leaves ends
    · exact ih leads
    · exact ih leads
    · exact leads
    · -- A name with something behind it leads nowhere.
      revert leads
      dsimp only
      split_ifs <;> simp

/-- A path that leads to a name in a directory leads to it in every directory. -/
theorem resolve_eq_ok {directory : Directory} {path : String} {target : Target}
    (leads : directory.resolve path = .ok target) (other : Directory) :
    other.resolve path = .ok target := by
  unfold resolve at leads ⊢
  split_ifs at leads ⊢ with empty long
  exact follow_eq_ok leads other

/-- What is written at a path that leads to a name in the directory is read there. -/
theorem exists_written {directory : Directory} {path name : String}
    (leads : directory.resolve path = .ok (.entry name false false))
    (short : nameTooLong name = false) (file : path ≠ nullDevice) (content : ByteArray) :
    ∃ written, directory.write path content = .ok written ∧
      written.read path = .ok content := by
  let written : Directory := ⟨(name, content) :: directory.files.filter fun file => file.1 != name⟩
  have leadsAgain : written.resolve path = .ok (.entry name false false) :=
    resolve_eq_ok leads written
  have found : written.find? name false = some content := by
    simp [find?, written]
  refine ⟨written, ?_, ?_⟩
  · rw [write, if_neg file, leads]
    simp [Except.bind, short, written]
  · rw [read, if_neg file, leadsAgain]
    simp [Except.bind, short, found]

end Directory

end Dcpu16.CommandLine
