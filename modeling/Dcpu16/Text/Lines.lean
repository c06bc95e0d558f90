/-!
# Lines

A line feed ends a line, and one carriage return directly before it belongs to the line end. What
follows the last line feed is a line too, unless nothing follows; a carriage return at its end
is part of it.
-/
namespace Dcpu16.Text

/-- A line that a line feed ends, given with its last character first. -/
def endedLine : List Char → List Char
  | '\r' :: line => line.reverse
  | line => line.reverse

/-- The lines of a text behind the lines `done`, when `line` has been read of the next one. Both
are given with the last part first. -/
def linesFrom (done : List (List Char)) (line : List Char) : List Char → List (List Char)
  | [] => (if line.isEmpty then done else line.reverse :: done).reverse
  | '\n' :: rest => linesFrom (endedLine line :: done) [] rest
  | c :: rest => linesFrom done (c :: line) rest

/-- The lines of a text. -/
def lines (text : List Char) : List (List Char) := linesFrom [] [] text

end Dcpu16.Text
