import Dcpu16.Register
import Dcpu16.Source.Token

/-!
# Source errors

What can be wrong with a source, and on which line. Causes are kept apart from their wording,
which is in `Malformation.message` and `Error.message`.
-/
namespace Dcpu16.Source

/-- What can be wrong with the form of a line. -/
inductive Malformation
  /-- A character that no token starts with. -/
  | unexpectedCharacter (c : Char)
  /-- A backslash before a character that it gives no meaning to. -/
  | unknownEscape (c : Char)
  /-- A quoted text that the line ends before its quote. -/
  | unterminatedText
  /-- Something that starts with a digit and is no number. -/
  | invalidNumber (written : String)
  /-- A colon at the start with no name behind it. -/
  | labelExpected
  /-- A statement that does not start with a name. -/
  | mnemonicExpected (found : Token)
  /-- Two operands or values with no comma between them. -/
  | commaExpected (found : Token)
  /-- Nothing where an operand has to be. -/
  | operandMissing
  /-- A token that no operand starts with. -/
  | operandExpected (found : Token)
  /-- Nothing behind a bracket or a plus. -/
  | bracketMissing
  /-- A token that cannot stand in brackets. -/
  | termExpected (found : Token)
  /-- Two registers in brackets. -/
  | secondRegister
  /-- Two labels, or a number and a label, in brackets. -/
  | secondOffset
  /-- A term in brackets that neither goes on nor ends. -/
  | plusOrBracketExpected
  /-- A register that cannot address memory. -/
  | registerInBrackets (register : Register)
  /-- Nothing where a data value has to be. -/
  | dataMissing
  /-- A token that is no data value. -/
  | dataExpected (found : Token)
  deriving DecidableEq

/-- The wording of a malformation. -/
def Malformation.message : Malformation → String
  | .unexpectedCharacter c => "unexpected character '" ++ c.toString ++ "'"
  | .unknownEscape c => "unknown escape '\\" ++ c.toString ++ "'"
  | .unterminatedText => "unterminated string"
  | .invalidNumber written => "invalid number literal '" ++ written ++ "'"
  | .labelExpected => "expected label name after ':'"
  | .mnemonicExpected found => "expected mnemonic, found " ++ found.describe
  | .commaExpected found => "expected ',', found " ++ found.describe
  | .operandMissing => "missing operand"
  | .operandExpected found => "unexpected " ++ found.describe ++ " in operand"
  | .bracketMissing => "missing ']'"
  | .termExpected found => "unexpected " ++ found.describe ++ " in '[...]'"
  | .secondRegister => "only one register allowed in '[...]'"
  | .secondOffset => "only one offset allowed in '[...]'"
  | .plusOrBracketExpected => "expected '+' or ']'"
  | .registerInBrackets register => "register " ++ register.name ++ " cannot be used in '[...]'"
  | .dataMissing => "DAT requires at least one value"
  | .dataExpected found => "unexpected " ++ found.describe ++ " in DAT"

/-- What can be wrong with a source. -/
inductive Problem
  /-- A line that is no statement. -/
  | malformed (malformation : Malformation)
  /-- A mnemonic of no instruction. -/
  | unknownMnemonic (mnemonic : String)
  /-- An instruction with too many or too few operands. -/
  | wrongOperandCount (mnemonic : String) (expected found : Nat)
  /-- A reference to a label that is defined nowhere. -/
  | undefinedLabel (label : String)
  /-- A second definition of a label. -/
  | duplicateLabel (label : String)
  /-- A number, a character or an address that fits in no word. -/
  | outOfRange (value : Nat)
  deriving DecidableEq

/-- A problem and the number of its line, counted from 1. -/
structure Error where
  /-- The line. -/
  line : Nat
  /-- What is wrong there. -/
  problem : Problem
  deriving DecidableEq

/-- The wording of an error. -/
def Error.message (error : Error) : String :=
  let place := "on line " ++ toString error.line
  match error.problem with
  | .malformed malformation => "syntax error " ++ place ++ ": " ++ malformation.message
  | .unknownMnemonic mnemonic => "unknown mnemonic " ++ place ++ ": " ++ mnemonic
  | .wrongOperandCount mnemonic expected found =>
    mnemonic ++ " " ++ place ++ " takes " ++ toString expected ++ " operand(s), found " ++
      toString found
  | .undefinedLabel label => "undefined label " ++ place ++ ": " ++ label
  | .duplicateLabel label => "duplicate label " ++ place ++ ": " ++ label
  | .outOfRange value => "value out of range " ++ place ++ ": " ++ toString value

end Dcpu16.Source
