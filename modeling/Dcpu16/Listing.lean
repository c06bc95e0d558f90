import Dcpu16.Instruction.Encoding
import Dcpu16.Text.Column

/-!
# Listings

A listing shows a program instruction by instruction: the address, the assembler text, and the
words themselves behind a semicolon. A word that is no instruction is shown as data. The words
are taken in order from the first to the last; an instruction cut off by the end of the program
shows the words that are there.
-/
namespace Dcpu16.Listing

/-- The text of the instruction at the front of `words`, or of its first word as data. -/
def firstText (words : List Word) : String :=
  match Instruction.ofWords? words with
  | some instruction => instruction.text
  | none => "DAT 0x" ++ Text.hex 4 (words.headD 0).toNat

/-- The number of words that the instruction at the front asks for; data is one word. -/
def firstSize (words : List Word) : Nat :=
  match Instruction.ofWords? words with
  | some instruction => instruction.size
  | none => 1

/-- One line: where it stands, what it says, and the words it covers. -/
structure Line where
  /-- The address of the first word. -/
  address : Nat
  /-- The assembler text. -/
  text : String
  /-- The words of the line. -/
  words : List Word
  deriving DecidableEq

/-- The lines of a program whose first word stands at `address`. -/
def linesFrom (address : Nat) : List Word → List Line
  | [] => []
  | word :: words =>
    let inline := firstSize (word :: words) - 1
    let line := ⟨address, firstText (word :: words), word :: words.take inline⟩
    line :: linesFrom (address + line.words.length) (words.drop inline)
termination_by words => words.length
decreasing_by
  simp only [List.length_drop, List.length_cons]
  omega

/-- A line as it is printed, with the line end. -/
def Line.render (line : Line) : String :=
  Text.hex 4 line.address ++ ": " ++ Text.column 24 line.text ++ " ; " ++
    " ".intercalate (line.words.map fun word => Text.hex 4 word.toNat) ++ "\n"

/-- The three lines above every listing. -/
def header : String := "; DCPU-16 Disassembly\n; -------------------\n\n"

/-- The listing of a program that starts at address 0. -/
def ofWords (words : List Word) : String :=
  header ++ String.join ((linesFrom 0 words).map Line.render)

end Dcpu16.Listing
