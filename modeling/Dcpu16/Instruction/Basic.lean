import Dcpu16.Opcode
import Dcpu16.Instruction.Operand

/-!
# Instructions

A basic instruction has two operands, a special one has one, which stands in field `b` of the
instruction word. An instruction is one word, followed by one word for each operand that takes
one, in the order of the operands.
-/
namespace Dcpu16

/-- An instruction with its operands. -/
inductive Instruction
  /-- A basic opcode and its operands. -/
  | basic (opcode : Opcode) (a b : Operand)
  /-- A special opcode and its operand. -/
  | special (opcode : SpecialOpcode) (a : Operand)
  deriving DecidableEq

namespace Instruction

/-- The basic instruction with these operand codes. -/
def ofCodes (opcode : Opcode) (a b : UInt8) : Instruction :=
  .basic opcode (.ofCode a .a) (.ofCode b .b)

/-- The special instruction with this operand code. -/
def ofCode (opcode : SpecialOpcode) (a : UInt8) : Instruction :=
  .special opcode (.ofCode a .b)

/-- The name of the opcode. -/
def mnemonic : Instruction → String
  | .basic opcode _ _ => opcode.mnemonic
  | .special opcode _ => opcode.mnemonic

/-- The operands in the order in which they are evaluated. -/
def operands : Instruction → List Operand
  | .basic _ a b => [a, b]
  | .special _ a => [a]

/-- The number of words, inline words included. -/
def size (instruction : Instruction) : Nat :=
  1 + instruction.operands.countP fun operand => operand.mode.takesWord

/-- The instruction with its inline words taken from `words`, operand `a` first. -/
def fill : Instruction → List Word → Instruction
  | .basic opcode a b, words =>
    let (a, words) := a.fill words
    let (b, _) := b.fill words
    .basic opcode a b
  | .special opcode a, words => .special opcode (a.fill words).1

/-- The instruction in assembler text. -/
def text : Instruction → String
  | .basic opcode a b => opcode.mnemonic ++ " " ++ a.text ++ ", " ++ b.text
  | .special opcode a => opcode.mnemonic ++ " " ++ a.text

/-- An instruction has at least its own word. -/
theorem size_pos (instruction : Instruction) : 0 < instruction.size :=
  Nat.lt_of_lt_of_le Nat.zero_lt_one (Nat.le_add_right 1 _)

end Instruction

end Dcpu16
