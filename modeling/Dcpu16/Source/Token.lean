import Dcpu16.Word
import Dcpu16.Text.Quoted

/-!
# Tokens

The smallest parts of assembler source. A token lies within one line, and the end of a line is
no token.
-/
namespace Dcpu16.Source

/-- A part of a source line. -/
inductive Token
  /-- A mnemonic, a register, a keyword or a label. -/
  | name (spelling : String)
  | number (value : Word)
  /-- A quoted text, its escapes resolved. -/
  | text (content : String)
  | comma
  | openBracket
  | closeBracket
  | plus
  | colon
  deriving DecidableEq

/-- How a message shows a token. -/
def Token.describe : Token → String
  | .name spelling => "Ident(" ++ Text.quoted spelling ++ ")"
  | .number value => "Number(" ++ toString value.toNat ++ ")"
  | .text content => "Str(" ++ Text.quoted content ++ ")"
  | .comma => "Comma"
  | .openBracket => "LBracket"
  | .closeBracket => "RBracket"
  | .plus => "Plus"
  | .colon => "Colon"

end Dcpu16.Source
