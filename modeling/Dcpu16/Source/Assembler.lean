import Std.Data.HashMap
import Dcpu16.Instruction.Encoding
import Dcpu16.Source.Read

/-!
# From statements to words

Statements are encoded in order. Numbers below 20 (hexadecimal) fit in an operand code; larger
numbers and all references to labels take a word of their own, so the size of a statement does
not depend on where labels stand. The first pass over the statements therefore fixes the place of
every word. A reference leaves a placeholder in the output and its index in a list, and the second
pass puts the addresses of the labels in these places.
-/
namespace Dcpu16.Source

/-- The operand code, and the value of the word that the operand takes besides. -/
def Expression.encode : Expression → UInt8 × Option Value
  | .register named =>
    match named.index?, named with
    | some index, _ => (index, none)
    | none, .sp => (0x1B, none)
    | none, .pc => (0x1C, none)
    | none, _ => (0x1D, none)
  | .pop => (0x18, none)
  | .peek => (0x19, none)
  | .push => (0x1A, none)
  | .immediate (.number value) =>
    if value ≤ 0x1F then (0x20 + value.toUInt8, none) else (0x1F, some (.number value))
  | .immediate (.label name) => (0x1F, some (.label name))
  | .indirect offset base =>
    match offset, base.bind Register.index? with
    | none, some index => (0x08 + index, none)
    | some value, some index => (0x10 + index, some value)
    | some value, none => (0x1E, some value)
    | none, none => (0x1E, some (.number 0))

/-- A word of the output that waits for the address of a label. -/
structure Reference where
  /-- The index of the word. -/
  index : Nat
  /-- The label. -/
  label : String
  /-- The line on which the label is used. -/
  line : Nat
  deriving DecidableEq

/-- The state of the assembler. -/
structure Assembler where
  /-- The addresses of the labels. -/
  symbols : Std.HashMap String Word := ∅
  /-- The words that wait for an address, in their order. -/
  pending : Array Reference := #[]
  /-- The words of the statements so far. -/
  output : Array Word := #[]

namespace Assembler

/-- Put a word behind the others. -/
def push (assembler : Assembler) (word : Word) : Assembler :=
  match assembler with
  | ⟨symbols, pending, output⟩ => ⟨symbols, pending, output.push word⟩

/-- Put a value behind the other words. A label leaves a placeholder that waits for its address. -/
def emit (line : Nat) (assembler : Assembler) (value : Value) : Assembler :=
  match value, assembler with
  | .number word, assembler => assembler.push word
  | .label name, ⟨symbols, pending, output⟩ =>
    ⟨symbols, pending.push ⟨output.size, name, line⟩, output.push 0⟩

/-- Put an instruction word behind the other words, and the values that its operands take. -/
def emitInstruction (line : Nat) (assembler : Assembler) (instruction : Instruction)
    (values : List (Option Value)) : Assembler :=
  (values.filterMap id).foldl (emit line) (assembler.push instruction.toWord)

/-- Put an instruction behind the other words. -/
def instruction (line : Nat) (assembler : Assembler) (mnemonic : String)
    (operands : List Expression) : Except Problem Assembler :=
  match Opcode.ofMnemonic? mnemonic, SpecialOpcode.ofMnemonic? mnemonic with
  | some opcode, _ =>
    match operands with
    | [a, b] =>
      let (aCode, aNext) := a.encode
      let (bCode, bNext) := b.encode
      .ok (assembler.emitInstruction line (.ofCodes opcode aCode bCode) [aNext, bNext])
    | _ => .error (.wrongOperandCount (Text.capitals mnemonic) 2 operands.length)
  | none, some opcode =>
    match operands with
    | [a] =>
      let (code, next) := a.encode
      .ok (assembler.emitInstruction line (.ofCode opcode code) [next])
    | _ => .error (.wrongOperandCount (Text.capitals mnemonic) 1 operands.length)
  | none, none => .error (.unknownMnemonic mnemonic)

/-- Put the word of a character behind the other words. -/
def character (assembler : Assembler) (c : Char) : Except Problem Assembler :=
  if c.toNat < UInt16.size then .ok (assembler.push (UInt16.ofNat c.toNat))
  else .error (.outOfRange c.toNat)

/-- Put a data value behind the other words. -/
def datum (line : Nat) (assembler : Assembler) : Datum → Except Problem Assembler
  | .value value => .ok (assembler.emit line value)
  | .text content => content.toList.foldlM character assembler

/-- Put what a statement holds behind the other words. -/
def body (line : Nat) (assembler : Assembler) : Option Body → Except Problem Assembler
  | none => .ok assembler
  | some (.instruction mnemonic operands) => assembler.instruction line mnemonic operands
  | some (.data items) => items.foldlM (datum line) assembler

/-- Define a label at the current address, which has to be a word. -/
def define (assembler : Assembler) (label : String) : Except Problem Assembler :=
  match assembler with
  | ⟨symbols, pending, output⟩ =>
    if output.size < UInt16.size then
      if symbols.contains label then .error (.duplicateLabel label)
      else .ok ⟨symbols.insert label (UInt16.ofNat output.size), pending, output⟩
    else .error (.outOfRange output.size)

/-- Put a statement behind the others. Its label stands for the address of its first word. -/
def statement (assembler : Assembler) (statement : Statement) : Except Error Assembler :=
  let labelled : Except Problem Assembler :=
    match statement.label with
    | none => .ok assembler
    | some label => assembler.define label
  (labelled.bind fun assembler => assembler.body statement.line statement.body).mapError
    fun problem => ⟨statement.line, problem⟩

/-- Put the address of a label in the place of a placeholder. -/
def patch (symbols : Std.HashMap String Word) (output : Array Word) (reference : Reference) :
    Except Error (Array Word) :=
  match symbols[reference.label]? with
  | some address => .ok (output.setIfInBounds reference.index address)
  | none => .error ⟨reference.line, .undefinedLabel reference.label⟩

/-- The output, with an address in the place of every placeholder. -/
def resolve (assembler : Assembler) : Except Error (Array Word) :=
  match assembler with
  | ⟨symbols, pending, output⟩ => pending.toList.foldlM (patch symbols) output

end Assembler

/-- The program that statements make. -/
def encode (statements : List Statement) : Except Error (List Word) :=
  (statements.foldlM Assembler.statement {}).bind fun assembler =>
    assembler.resolve.map Array.toList

/-- The program that a source makes. -/
def assemble (source : String) : Except Error (List Word) :=
  (read source).bind encode

end Dcpu16.Source
