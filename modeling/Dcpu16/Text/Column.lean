/-!
# Columns

A text in a column is followed by blanks up to the width of the column. A text that is wider
stands as it is.
-/
namespace Dcpu16.Text

/-- The text followed by blanks up to `width` characters. -/
def column (width : Nat) (text : String) : String :=
  text ++ String.ofList (List.replicate (width - text.length) ' ')

end Dcpu16.Text
