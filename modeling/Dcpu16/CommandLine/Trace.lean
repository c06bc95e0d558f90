import Dcpu16.Processor.Run
import Dcpu16.Text.Column

/-!
# Traced runs

The loop of the command that runs a program. It takes instructions while the cycle counter is below
a limit, as a bounded run does, and can print a line about each of them.
-/
namespace Dcpu16.CommandLine

/-- What a trace tells of an instruction. -/
structure TraceEntry where
  /-- The address of the instruction. -/
  address : Word
  /-- Was the instruction only passed over? -/
  skipped : Bool
  /-- The instruction, with its inline words. -/
  instruction : Instruction
  /-- The register O afterwards. -/
  overflow : Word
  /-- The register SP afterwards. -/
  stackPointer : Word

/-- The line of a trace. -/
def TraceEntry.render (entry : TraceEntry) : String :=
  Text.hex 4 entry.address.toNat ++ ": " ++ (if entry.skipped then "skip" else "    ") ++ " " ++
    Text.column 24 entry.instruction.text ++ " O=" ++ Text.hex 4 entry.overflow.toNat ++
    " SP=" ++ Text.hex 4 entry.stackPointer.toNat

/-- Take instructions while the counter is below the limit. Each of them adds a line to what has
been printed, if the run is traced. -/
def runLoop (limit : UInt64) (trace : Bool) (printed : String) (processor : Processor) :
    String × Run :=
  if below : processor.cycles < limit then
    let address := processor.machine.registers.pc
    let skipped := processor.skipPending
    match taken : processor.step with
    | ⟨_, _, .error fault, next⟩ => (printed, ⟨.faulted address fault, next⟩)
    | ⟨_, _, .ok none, next⟩ => (printed, ⟨.halted, next⟩)
    | ⟨_, _, .ok (some instruction), next⟩ =>
      have nearer : next.cycles.toNat = processor.cycles.toNat + 1 := by
        rw [Processor.cycles_of_step taken, Processor.toNat_succ below]
      let entry : TraceEntry :=
        ⟨address, skipped, instruction, next.machine.registers.o, next.machine.registers.sp⟩
      runLoop limit trace (if trace then printed ++ entry.render ++ "\n" else printed) next
  else (printed, ⟨.exhausted, processor⟩)
termination_by limit.toNat - processor.cycles.toNat
decreasing_by
  have room : processor.cycles.toNat < limit.toNat := below
  omega

end Dcpu16.CommandLine
