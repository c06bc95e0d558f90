import Dcpu16.Instruction.Decoder
import Dcpu16.Json.RegisterFile
import Dcpu16.Machine.Execute
import Dcpu16.Machine.Summary

/-!
# The processor

A machine that executes what is in its memory. `Processor.step` fetches the word at PC, decodes
it and executes the instruction, or passes over it when the test before it did not hold; then PC
moves on, unless the instruction has set it. A word that is no instruction halts the processor,
and is looked at again at the next step.
-/
namespace Dcpu16

/-- Whether the last word fetched was an instruction. -/
inductive RunState
  | running
  | halted
  deriving DecidableEq

namespace RunState

/-- The name of the state. -/
def name : RunState → String
  | running => "Running"
  | halted => "Halted"

/-- The state with this stored form. -/
def ofJson? (json : Json) : Option RunState := do
  match ← json.name? with
  | "Running" => some running
  | "Halted" => some halted
  | _ => none

end RunState

/-- A machine with the state of its execution. -/
structure Processor where
  /-- Registers and memory. -/
  machine : Machine
  /-- Running or halted. -/
  state : RunState := .running
  /-- The number of instructions taken from memory, skipped ones included. -/
  cycles : UInt64 := 0
  /-- Is the next instruction to be skipped? -/
  skipPending : Bool := false
  /-- What has been decoded. -/
  decoder : Decoder

/-- What a step gives, with the processor as it leaves it: the instruction taken from memory, or
none at a word that is no instruction. -/
structure Step where
  /-- The address that the word was taken from. -/
  address : Word
  /-- Was the instruction to be skipped? -/
  skipped : Bool
  /-- The instruction, with what its operands have captured. -/
  result : Except Fault (Option Instruction)
  /-- The processor. -/
  processor : Processor

namespace Processor

/-- A processor that has executed nothing, with a fresh machine. -/
def fresh : Processor where
  machine := .fresh
  decoder := .empty

/-- All registers and cells 0, and nothing executed. -/
def reset (processor : Processor) : Processor where
  machine := processor.machine.clearRegisters.clearMemory
  decoder := processor.decoder

/-- Reset, then load a program. The size of the program is looked at before the reset, and once
more by the memory. -/
def load (processor : Processor) (program : List Word) : Except LoadError Unit × Processor :=
  if Ram.size < program.length then (.error (.tooLarge program.length), processor)
  else
    match processor.reset with
    | ⟨machine, state, cycles, skipPending, decoder⟩ =>
      let (result, machine) := machine.load program
      (result, ⟨machine, state, cycles, skipPending, decoder⟩)

/-- The wording of a load error that the processor reports. It tells a malformed image from a
program that does not fit. -/
def loadMessage (error : LoadError) : String :=
  match error with
  | .oddLength _ => "program error: " ++ error.message
  | .tooLarge _ => "memory error: " ++ error.message

/-- Reset, then load an image. An image that is no program is refused before the reset. -/
def loadImage (processor : Processor) (bytes : List UInt8) : Except LoadError Unit × Processor :=
  match Image.toWords bytes with
  | .error error => (.error error, processor)
  | .ok program => processor.load program

/-- Count an instruction, and move PC on unless the instruction has set it. -/
def retire (machine : Machine) (cycles : UInt64) (skipPending : Bool) (decoder : Decoder) :
    Processor :=
  let (jumped, machine) := machine.takeJump
  let machine := if jumped then machine else machine.advance
  ⟨machine, .running, cycles + 1, skipPending, decoder⟩

/-- Take one instruction from memory and execute it or pass over it. -/
def step (processor : Processor) : Step :=
  match processor with
  | ⟨machine, _, cycles, skipPending, decoder⟩ =>
    let address := machine.registers.pc
    let (word, machine) := machine.read address
    let (decoded, decoder) := decoder.decode word
    match decoded with
    | none => ⟨address, skipPending, .ok none, ⟨machine, .halted, cycles, skipPending, decoder⟩⟩
    | some instruction =>
      let machine := machine.markJump false
      if skipPending then
        let (instruction, machine) := instruction.pass machine
        ⟨address, true, .ok (some instruction), retire machine cycles false decoder⟩
      else
        match instruction.execute machine with
        | ⟨.error fault, _, machine⟩ =>
          ⟨address, false, .error fault, ⟨machine, .running, cycles, skipPending, decoder⟩⟩
        | ⟨.ok outcome, instruction, machine⟩ =>
          ⟨address, false, .ok (some instruction),
            retire machine cycles (outcome == .skipNext) decoder⟩

/-- The processor in a line. -/
def describe (processor : Processor) : String :=
  Text.record "Cpu" [
    ("state", processor.state.name),
    ("cycles", toString processor.cycles.toNat),
    ("skip_pending", Text.truth processor.skipPending),
    ("regs", processor.machine.describeRegisters)]

end Processor

end Dcpu16
