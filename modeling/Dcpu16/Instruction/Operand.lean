import Dcpu16.Mode
import Dcpu16.Register
import Dcpu16.Text.Digits

/-!
# Operands

An operand is a mode in one of the two operand fields of an instruction word, together with
what one execution of the instruction has found out about it so far.
-/
namespace Dcpu16

/-- The operand field that a code stands in. -/
inductive Slot
  /-- Bits 4 to 9. -/
  | a
  /-- Bits 10 to 15. -/
  | b
  deriving DecidableEq

namespace Slot

/-- The lowest bit of the field. -/
def shift : Slot → Nat
  | a => 4
  | b => 10

/-- The name of the field. -/
def name : Slot → String
  | a => "A"
  | b => "B"

end Slot

/-- A mode in its field, with what the current execution has captured. -/
structure Operand where
  /-- How the value is located. -/
  mode : Mode
  /-- The field of the instruction word. -/
  slot : Slot
  /-- The word that follows the instruction for this operand. -/
  nextWord : Word := 0
  /-- The register content that `[next word + register]` adds. -/
  registerValue : Word := 0
  /-- The stack cell that the first access through `POP` or `PUSH` has claimed. -/
  stackAddress : Option Word := none
  deriving DecidableEq

namespace Operand

/-- The operand with this code, nothing captured. -/
def ofCode (code : UInt8) (slot : Slot) : Operand := { mode := Mode.ofCode code, slot }

/-- The six-bit code of the mode. -/
def code (operand : Operand) : UInt8 := operand.mode.code

/-- The code moved to its field. -/
def packed (operand : Operand) : Word :=
  operand.code.toUInt16 <<< UInt16.ofNat operand.slot.shift

/-- The cell that `[next word + register]` addresses. -/
def indexedAddress (operand : Operand) : Word := operand.nextWord + operand.registerValue

/-- The operand with its inline word taken from the front of `words`, where a missing word
counts as 0, and the words that remain. -/
def fill (operand : Operand) (words : List Word) : Operand × List Word :=
  if operand.mode.takesWord then ({ operand with nextWord := words.headD 0 }, words.tail)
  else (operand, words)

/-- The name of a general register; an index above 7 counts by its low three bits. -/
def registerName (index : UInt8) : String :=
  ((Register.ofIndex? (index &&& 0x07)).map Register.name).getD ""

/-- The operand in assembler text, with the inline word it has captured. -/
def text (operand : Operand) : String :=
  match operand.mode with
  | .register index => registerName index
  | .indirect index => "[" ++ registerName index ++ "]"
  | .indexed index =>
    "[0x" ++ Text.hex 4 operand.nextWord.toNat ++ "+" ++ registerName index ++ "]"
  | .pop => "POP"
  | .peek => "PEEK"
  | .push => "PUSH"
  | .stackPointer => "SP"
  | .programCounter => "PC"
  | .overflow => "O"
  | .absolute => "[0x" ++ Text.hex 4 operand.nextWord.toNat ++ "]"
  | .immediate => "0x" ++ Text.hex 4 operand.nextWord.toNat
  | .literal value => "0x" ++ Text.hex 2 value.toNat

end Operand

end Dcpu16
