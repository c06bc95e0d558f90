import Dcpu16.Instruction.Basic

/-!
# Instruction words

The layout of an instruction word, low bits first: four bits of opcode, six bits of operand
`a`, six bits of operand `b`. Opcode 0 makes the field of `a` a special opcode, and leaves
field `b` for its operand. `Instruction.ofWord?` reads a word; a word that it refuses is what
halts a program.
-/
namespace Dcpu16.Instruction

/-- The opcode, `a` and `b` fields of a word. -/
def fields (word : Word) : UInt8 × UInt8 × UInt8 :=
  ((word &&& 0x000F).toUInt8, ((word >>> 4) &&& 0x3F).toUInt8, ((word >>> 10) &&& 0x3F).toUInt8)

/-- The instruction that a word stands for, its inline words not yet known. -/
def ofWord? (word : Word) : Option Instruction :=
  let (opcode, a, b) := fields word
  match Opcode.ofCode? opcode with
  | some opcode => some (ofCodes opcode a b)
  | none => (SpecialOpcode.ofCode? a).map fun opcode => ofCode opcode b

/-- The first word of an instruction. Each operand packs itself into its own field. -/
def toWord : Instruction → Word
  | .basic opcode a b => opcode.code.toUInt16 ||| a.packed ||| b.packed
  | .special opcode a => (opcode.code.toUInt16 <<< 4) ||| a.packed

/-- The instruction at the front of `words`, with its inline words; missing ones count as 0. -/
def ofWords? : List Word → Option Instruction
  | [] => none
  | word :: words => (ofWord? word).map fun instruction => instruction.fill words

end Dcpu16.Instruction
