import Dcpu16.Json
import Dcpu16.Instruction.Basic

/-!
# Stored instructions

The JSON form of a mode, an operand and an instruction. Alternatives go by their names; what an
operand has captured is stored with it. Reading takes every value that fits the width of its
part, also an index or a literal that no operand code has.
-/
namespace Dcpu16

/-- The name of a register in stored form. -/
def Register.tag (register : Register) : String := Text.titled register.name

/-- The name of an opcode in stored form. -/
def Opcode.tag (opcode : Opcode) : String := Text.titled opcode.mnemonic

/-- The name of a special opcode in stored form. -/
def SpecialOpcode.tag (opcode : SpecialOpcode) : String := Text.titled opcode.mnemonic

namespace Mode

/-- The modes that carry nothing. -/
def bare : List Mode :=
  [.pop, .peek, .push, .stackPointer, .programCounter, .overflow, .absolute, .immediate]

/-- The stored form: the name, with the number if the mode carries one. -/
def toJson (mode : Mode) : Json :=
  match mode.payload? with
  | some number => .record [(mode.tag, .nat number)]
  | none => .text mode.tag

/-- The mode with this stored form. -/
def ofJson? (json : Json) : Option Mode := do
  let (tag, payload) ← json.alternative?
  match tag with
  | "Register" => return .register (← payload.byte?)
  | "Indirect" => return .indirect (← payload.byte?)
  | "IndirectOffset" => return .indexed (← payload.byte?)
  | "Literal" => return .literal (← payload.word?)
  | _ => bare.find? fun mode => some mode.tag == json.name?

end Mode

/-- The field with this stored form. -/
def Slot.ofJson? (json : Json) : Option Slot := do
  match ← json.name? with
  | "A" => some .a
  | "B" => some .b
  | _ => none

namespace Operand

/-- The names of the parts of a stored operand. -/
def partNames : List String := ["mode", "slot", "next_word", "register_value", "stack_address"]

/-- The stored form. -/
def toJson (operand : Operand) : Json :=
  .record (partNames.zip
    [operand.mode.toJson, .text operand.slot.name, .nat operand.nextWord.toNat,
      .nat operand.registerValue.toNat,
      match operand.stackAddress with
      | some address => .nat address.toNat
      | none => .null])

/-- The stack address in a stored operand; it may be missing. -/
private def stackAddress? : Option Json → Option (Option Word)
  | none | some .null => some none
  | some json => json.word?.map some

/-- The operand with this stored form. -/
def ofJson? (json : Json) : Option Operand := do
  match ← json.parts? partNames with
  | [some mode, some slot, some nextWord, some registerValue, stackAddress] =>
    return {
      mode := ← Mode.ofJson? mode
      slot := ← Slot.ofJson? slot
      nextWord := ← nextWord.word?
      registerValue := ← registerValue.word?
      stackAddress := ← stackAddress? stackAddress }
  | _ => none

end Operand

namespace Instruction

/-- The stored form. -/
def toJson : Instruction → Json
  | .basic opcode a b =>
    .record [("Basic", .record [("op", .text opcode.tag), ("a", a.toJson), ("b", b.toJson)])]
  | .special opcode a =>
    .record [("Extended", .record [("op", .text opcode.tag), ("a", a.toJson)])]

/-- The instruction with this stored form. -/
def ofJson? (json : Json) : Option Instruction := do
  match ← json.alternative? with
  | ("Basic", body) =>
    match ← body.fields? ["op", "a", "b"] with
    | [some op, some a, some b] =>
      let tag ← op.name?
      let opcode ← Opcode.all.find? fun opcode => opcode.tag == tag
      return .basic opcode (← Operand.ofJson? a) (← Operand.ofJson? b)
    | _ => none
  | ("Extended", body) =>
    match ← body.fields? ["op", "a"] with
    | [some op, some a] =>
      if (← op.name?) == SpecialOpcode.jsr.tag then
        return .special .jsr (← Operand.ofJson? a)
      else none
    | _ => none
  | _ => none

end Instruction

end Dcpu16
