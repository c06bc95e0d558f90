import Dcpu16.Word
import Dcpu16.Text.Case

/-!
# Opcodes

Fifteen basic opcodes take two operands and are coded in the low four bits of an instruction
word. Code 0 there announces a special opcode, of which there is one: JSR.

What a basic opcode does with the values of its operands is its `Opcode.action`: it moves a
value, it tests two values, or it combines them into a result.
-/
namespace Dcpu16

/-- A basic opcode. -/
inductive Opcode
  | set
  | add
  | sub
  | mul
  | div
  | mod
  | shl
  | shr
  | and
  | bor
  | xor
  | ife
  | ifn
  | ifg
  | ifb
  deriving DecidableEq

/-- An opcode with a single operand. -/
inductive SpecialOpcode
  /-- Push the address of the last word of the instruction, then jump. -/
  | jsr
  deriving DecidableEq

/-- What arithmetic gives: a value, and the word for the overflow register if the operation
has one. -/
structure Result where
  /-- The value to store. -/
  value : Word
  /-- The new content of the overflow register. -/
  overflow : Option Word
  deriving DecidableEq

/-- What an opcode does with the values `a` and `b` of its operands. -/
inductive Action
  /-- Store `b`. -/
  | move
  /-- Compare the two and store nothing. -/
  | test (holds : Word → Word → Bool)
  /-- Store what the two give. -/
  | combine (result : Word → Word → Result)

namespace Opcode

/-- The basic opcodes in the order of their codes, which start at 1. -/
def all : List Opcode :=
  [set, add, sub, mul, div, mod, shl, shr, and, bor, xor, ife, ifn, ifg, ifb]

/-- The four-bit code. -/
def code : Opcode → UInt8
  | set => 0x1
  | add => 0x2
  | sub => 0x3
  | mul => 0x4
  | div => 0x5
  | mod => 0x6
  | shl => 0x7
  | shr => 0x8
  | and => 0x9
  | bor => 0xA
  | xor => 0xB
  | ife => 0xC
  | ifn => 0xD
  | ifg => 0xE
  | ifb => 0xF

/-- The opcode in the low four bits of a byte; 0 is none. -/
def ofCode? (code : UInt8) : Option Opcode :=
  match (code &&& 0x0F).toNat with
  | 0 => none
  | position + 1 => all[position]?

/-- The name in assembler text. -/
def mnemonic : Opcode → String
  | set => "SET"
  | add => "ADD"
  | sub => "SUB"
  | mul => "MUL"
  | div => "DIV"
  | mod => "MOD"
  | shl => "SHL"
  | shr => "SHR"
  | and => "AND"
  | bor => "BOR"
  | xor => "XOR"
  | ife => "IFE"
  | ifn => "IFN"
  | ifg => "IFG"
  | ifb => "IFB"

/-- The opcode that a mnemonic in any letter case stands for. -/
def ofMnemonic? (text : String) : Option Opcode :=
  let wanted := Text.capitals text
  all.find? fun opcode => opcode.mnemonic == wanted

end Opcode

namespace SpecialOpcode

/-- The code in the field of operand `a`. -/
def code : SpecialOpcode → UInt8
  | jsr => 0x01

/-- The special opcode with this code. -/
def ofCode? (code : UInt8) : Option SpecialOpcode :=
  if code = 0x01 then some jsr else none

/-- The name in assembler text. -/
def mnemonic : SpecialOpcode → String
  | jsr => "JSR"

/-- The special opcode that a mnemonic in any letter case stands for. -/
def ofMnemonic? (text : String) : Option SpecialOpcode :=
  if Text.capitals text == jsr.mnemonic then some jsr else none

end SpecialOpcode

end Dcpu16
