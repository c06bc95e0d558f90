/-!
# Letter case

Keywords of the assembler are written in any letter case. Only the letters A to Z have two
cases here; every other character is its own capital.
-/
namespace Dcpu16.Text

/-- The text with each of the letters a to z replaced by its capital. -/
def capitals (text : String) : String :=
  String.ofList (text.toList.map Char.toUpper)

/-- The text with only its first letter a capital. -/
def titled (text : String) : String :=
  match text.toList with
  | [] => ""
  | first :: rest => String.ofList (first.toUpper :: rest.map Char.toLower)

end Dcpu16.Text
