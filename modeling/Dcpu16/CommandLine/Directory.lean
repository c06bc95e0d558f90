import Dcpu16.CommandLine.FileError

/-!
# Directories

A `Directory` holds files and no directories. A path is followed from it component by component:
an empty component and a dot stay, two dots lead out of it, a name leads to a file. Nothing is
known of what lies around it, so no file is found there, and what is written there leaves the
directory as it is.
-/
namespace Dcpu16.CommandLine

/-- What stands between the slashes of a path. -/
def components : List Char → List (List Char)
  | [] => [[]]
  | '/' :: rest => [] :: components rest
  | c :: rest => (components rest).modifyHead (c :: ·)

/-- A name has at most 255 bytes. -/
def nameTooLong (name : String) : Bool := 255 < name.utf8ByteSize

/-- A path has less than 4096 bytes. -/
def pathTooLong (path : String) : Bool := 4096 ≤ path.utf8ByteSize

/-- The null device is empty when it is read, and takes what is written. -/
def nullDevice : String := "/dev/null"

/-- What a path leads to. -/
inductive Target
  /-- The directory, or one around it. -/
  | directory
  /-- A name in the directory or, if `outside`, in one around it. A name that is `slashed` is
  followed by slashes, so it can only name a directory. -/
  | entry (name : String) (outside slashed : Bool)
  deriving DecidableEq

/-- A directory without subdirectories: names of files with their contents. -/
structure Directory where
  /-- The files. -/
  files : List (String × ByteArray) := []

namespace Directory

/-- The content of the file of this name, unless the name is of a file outside. -/
def find? (directory : Directory) (name : String) (outside : Bool) : Option ByteArray :=
  if outside then none else directory.files.lookup name

/-- Follow components, from the directory or from outside it. A path ends at its first name,
because no name leads to a directory. -/
def follow (directory : Directory) (outside : Bool) : List (List Char) → Except FileError Target
  | [] => .ok .directory
  | component :: rest =>
    if component = [] ∨ component = ['.'] then directory.follow outside rest
    else if component = ['.', '.'] then directory.follow true rest
    else
      let name := String.ofList component
      if rest.all List.isEmpty then .ok (.entry name outside !rest.isEmpty)
      else if nameTooLong name then .error .nameTooLong
      else if (directory.find? name outside).isSome then .error .notDirectory
      else .error .notFound

/-- What a path leads to. A path that begins with a slash begins outside. -/
def resolve (directory : Directory) (path : String) : Except FileError Target :=
  if path.isEmpty then .error .notFound
  else if pathTooLong path then .error .nameTooLong
  else directory.follow (path.toList.head? = some '/') (components path.toList)

/-- The content of a file. -/
def read (directory : Directory) (path : String) : Except FileError ByteArray :=
  if path = nullDevice then .ok .empty
  else
    (directory.resolve path).bind fun
      | .directory => .error .isDirectory
      | .entry name outside slashed =>
        if nameTooLong name then .error .nameTooLong
        else
          match directory.find? name outside with
          | none => .error .notFound
          | some content => if slashed then .error .notDirectory else .ok content

/-- The directory after a file has been written. -/
def write (directory : Directory) (path : String) (content : ByteArray) :
    Except FileError Directory :=
  if path = nullDevice then .ok directory
  else
    (directory.resolve path).bind fun
      | .directory => .error .isDirectory
      | .entry name outside slashed =>
        if slashed then .error .isDirectory
        else if nameTooLong name then .error .nameTooLong
        else if outside then .ok directory
        else .ok ⟨(name, content) :: directory.files.filter fun file => file.1 != name⟩

end Directory

end Dcpu16.CommandLine
