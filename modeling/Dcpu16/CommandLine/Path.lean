/-!
# Paths

The file name at the end of a path, and its extension. Slashes and single dots at the end of a
path do not count. The extension is what stands behind the last dot of the file name; a name
whose only dot is its first character has none.
-/
namespace Dcpu16.CommandLine

/-- A path without what does not count at its end. The characters are given last first. -/
private def dropTail : List Char → List Char
  | '/' :: rest => dropTail rest
  | '.' :: '/' :: rest => dropTail rest
  | rest => rest

/-- A path cut into what precedes the file name and the file name itself, if it has one. -/
def fileName? (path : String) : Option (List Char × List Char) :=
  let reversed := dropTail path.toList.reverse
  let name := (reversed.takeWhile (· ≠ '/')).reverse
  if name = [] ∨ name = ['.'] ∨ name = ['.', '.'] then none
  else some ((reversed.dropWhile (· ≠ '/')).reverse, name)

/-- A file name cut into stem and extension. -/
def splitName (name : List Char) : List Char × Option (List Char) :=
  let reversed := name.reverse
  let stem := ((reversed.dropWhile (· ≠ '.')).drop 1).reverse
  if stem = [] then (name, none) else (stem, some (reversed.takeWhile (· ≠ '.')).reverse)

/-- The extension of the file that a path names. -/
def extension? (path : String) : Option String :=
  (fileName? path).bind fun (_, name) => (splitName name).2.map String.ofList

/-- The path with another extension, or with one if it has none. The old extension is cut off
first; if two dots are left of the file name, they name no file and take no extension. -/
def withExtension (path extension : String) : String :=
  match fileName? path with
  | none => path
  | some (before, name) =>
    let stem := (splitName name).1
    if stem = ['.'] then String.ofList (before ++ ['.', '.'])
    else String.ofList (before ++ stem) ++ "." ++ extension

/-- Does the path name a source? Other files are images. -/
def isSource (path : String) : Bool :=
  match extension? path with
  | some extension => ["asm", "dasm", "dasm16"].contains extension
  | none => false

end Dcpu16.CommandLine
