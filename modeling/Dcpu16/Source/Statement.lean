import Dcpu16.Register
import Dcpu16.Source.Token

/-!
# Statements

What a source line says: it may define a label, and it may hold an instruction or data. Names
are kept as they are written; which instruction a mnemonic stands for is decided when the
statement is encoded.
-/
namespace Dcpu16.Source

/-- A value that is known, or that a label will give. -/
inductive Value
  | number (value : Word)
  /-- The address of a label. -/
  | label (name : String)
  deriving DecidableEq

/-- An operand as it is written. -/
inductive Expression
  | register (register : Register)
  | pop
  | peek
  | push
  | immediate (value : Value)
  /-- A cell of memory, addressed by an offset, a register, or the sum of both. -/
  | indirect (offset : Option Value) (register : Option Register)
  deriving DecidableEq

/-- A part of a data statement. -/
inductive Datum
  | value (value : Value)
  /-- One word for each character. -/
  | text (content : String)
  deriving DecidableEq

/-- What a statement puts into the program. -/
inductive Body
  | instruction (mnemonic : String) (operands : List Expression)
  | data (items : List Datum)
  deriving DecidableEq

/-- A line of source that is not blank. -/
structure Statement where
  /-- The number of the line. -/
  line : Nat
  /-- The label that the statement defines. -/
  label : Option String
  /-- What the statement puts into the program. -/
  body : Option Body
  deriving DecidableEq

end Dcpu16.Source
