/-!
# Records on one line

How the state of a part of the machine is summed up in a single line: the name of the part, and
in braces its fields with their values.
-/
namespace Dcpu16.Text

/-- A name and named values in braces. -/
def record (name : String) (fields : List (String × String)) : String :=
  name ++ " \x7b " ++ ", ".intercalate (fields.map fun (label, value) => label ++ ": " ++ value) ++
    " \x7d"

/-- Values in brackets. -/
def sequence (values : List String) : String := "[" ++ ", ".intercalate values ++ "]"

/-- A truth value. -/
def truth (value : Bool) : String := if value then "true" else "false"

end Dcpu16.Text
