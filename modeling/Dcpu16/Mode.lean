import Dcpu16.Word

/-!
# Addressing modes

A six-bit code says where an operand finds its value.

| code  | mode                     |
|-------|--------------------------|
| 00–07 | register                 |
| 08–0f | `[register]`             |
| 10–17 | `[next word + register]` |
| 18    | `POP`                    |
| 19    | `PEEK`                   |
| 1a    | `PUSH`                   |
| 1b    | `SP`                     |
| 1c    | `PC`                     |
| 1d    | `O`                      |
| 1e    | `[next word]`            |
| 1f    | next word                |
| 20–3f | literal 00–1f            |

A mode that comes from a code names a register from 0 to 7 and a literal below 20. Modes that
are read from a stored state may hold any byte and any word there.
-/
namespace Dcpu16

/-- How an operand locates its value. -/
inductive Mode
  /-- The general register with this index. -/
  | register (index : UInt8)
  /-- The cell that the register addresses. -/
  | indirect (index : UInt8)
  /-- The cell at the sum of the next word and the register. -/
  | indexed (index : UInt8)
  /-- The cell that SP addresses, which then grows by one. -/
  | pop
  /-- The cell that SP addresses. -/
  | peek
  /-- The cell below the one that SP addresses, where SP then points. -/
  | push
  /-- The register SP. -/
  | stackPointer
  /-- The register PC. -/
  | programCounter
  /-- The register O. -/
  | overflow
  /-- The cell that the next word addresses. -/
  | absolute
  /-- The next word itself. -/
  | immediate
  /-- A small value inside the code. -/
  | literal (value : Word)
  deriving DecidableEq

namespace Mode

/-- The mode with this code; bits above the sixth are ignored. -/
def ofCode (byte : UInt8) : Mode :=
  let code := byte &&& 0x3F
  if code < 0x08 then .register code
  else if code < 0x10 then .indirect (code - 0x08)
  else if code < 0x18 then .indexed (code - 0x10)
  else if code = 0x18 then .pop
  else if code = 0x19 then .peek
  else if code = 0x1A then .push
  else if code = 0x1B then .stackPointer
  else if code = 0x1C then .programCounter
  else if code = 0x1D then .overflow
  else if code = 0x1E then .absolute
  else if code = 0x1F then .immediate
  else .literal (code - 0x20).toUInt16

/-- The six-bit code. An index keeps its low three bits and a literal its low five. -/
def code : Mode → UInt8
  | .register index => index &&& 0x07
  | .indirect index => 0x08 + (index &&& 0x07)
  | .indexed index => 0x10 + (index &&& 0x07)
  | .pop => 0x18
  | .peek => 0x19
  | .push => 0x1A
  | .stackPointer => 0x1B
  | .programCounter => 0x1C
  | .overflow => 0x1D
  | .absolute => 0x1E
  | .immediate => 0x1F
  | .literal value => 0x20 + (value &&& 0x1F).toUInt8

/-- Does the mode take a word of its own, after the instruction word? -/
def takesWord : Mode → Bool
  | .indexed _ | .absolute | .immediate => true
  | .register _ | .indirect _ | .pop | .peek | .push | .stackPointer | .programCounter | .overflow
  | .literal _ => false

/-- The name of the mode, without what it carries. -/
def tag : Mode → String
  | .register _ => "Register"
  | .indirect _ => "Indirect"
  | .indexed _ => "IndirectOffset"
  | .pop => "Pop"
  | .peek => "Peek"
  | .push => "Push"
  | .stackPointer => "StackPointer"
  | .programCounter => "ProgramCounter"
  | .overflow => "Overflow"
  | .absolute => "IndirectNextWord"
  | .immediate => "NextWord"
  | .literal _ => "Literal"

/-- The number that the mode carries. -/
def payload? : Mode → Option Nat
  | .register index | .indirect index | .indexed index => some index.toNat
  | .literal value => some value.toNat
  | _ => none

/-- The name of the mode with the number it carries in brackets. -/
def describe (mode : Mode) : String :=
  match mode.payload? with
  | some number => mode.tag ++ "(" ++ toString number ++ ")"
  | none => mode.tag

end Mode

end Dcpu16
