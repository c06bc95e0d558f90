import Dcpu16.Proofs.Processor.Operations
import Dcpu16.Proofs.Processor.Runs

/-!
# Halting

A step halts exactly at a word that is no instruction, whether a skip is pending or not
(`Processor.halting_step`). All it does is to take a key out of the cell, which then holds 0, and
this is no instruction either. So a processor that has halted stays as it is, however often it is
told to go on (`Processor.transcript_halted`).
-/
namespace Dcpu16

/-- A word is no instruction if it has the opcode 0 and no special opcode. -/
theorem Instruction.ofWord?_eq_none_iff (word : Word) :
    ofWord? word = none ↔ word.toNat % 16 = 0 ∧ word.toNat / 16 % 64 ≠ 1 := by
  have nibble := Opcode.ofCode?_table ⟨word.toNat % 16, Nat.mod_lt _ (by decide)⟩
  simp only [ofWord?, fields_eq]
  cases basic : Opcode.ofCode? (.ofNat (word.toNat % 16)) with
  | some opcode =>
    have other : word.toNat % 16 ≠ 0 := by
      intro zero
      have none : Opcode.ofCode? (.ofNat 0) = none := rfl
      rw [zero, none] at basic
      cases basic
    simp [other]
  | none =>
    have zero : word.toNat % 16 = 0 := by
      by_contra other
      simp [basic, other] at nibble
    have special : SpecialOpcode.ofCode? (.ofNat (word.toNat / 16 % 64)) = none ↔
        word.toNat / 16 % 64 ≠ 1 := by
      rw [SpecialOpcode.ofCode?, ite_eq_right_iff, ← UInt8.toNat_inj, UInt8.toNat_ofNat',
        Nat.mod_eq_of_lt (by omega)]
      simp
    rw [Option.map_eq_none_iff, special]
    exact (and_iff_right zero).symm

/-- Reading a cell changes no register, and does not touch the mark of a jump. -/
theorem Machine.registers_read (machine : Machine) (address : Word) :
    (machine.read address).2.registers = machine.registers := by
  apply RegisterFile.ext_get
  · intro register
    have same := congrFun (machine.contents_read address) (.register register)
    rw [taken_register] at same
    exact same
  · exact machine.jumped_read address

namespace Processor

/-- How a host lets a processor go on. -/
inductive Drive
  | step
  | executeNext
  | run (limit : UInt64)
  | runToEnd

namespace Drive

/-- The operation of the host. -/
def operation : Drive → Operation
  | step => .step
  | executeNext => .executeNext
  | run limit => .run limit
  | runToEnd => .runToEnd

/-- What the operation gives when no instruction is taken. -/
def idle : Drive → Answer
  | step => .stepped (.ok none)
  | executeNext => .wentOn (.ok false)
  | run _ => .ran (.ok 0)
  | runToEnd => .ran (.ok 0)

end Drive

section Halting

variable {processor : Processor}

/-- A step gives no instruction if and only if the word at PC is none. -/
theorem result_step_eq_none_iff :
    processor.step.result = .ok none ↔
      Instruction.ofWord? (processor.machine.contents
        (.cell (processor.machine.contents (.register .pc)))) = none := by
  constructor
  · intro halts
    obtain ⟨_, result, -⟩ | ⟨_, fails, -⟩ | ⟨-, -, unknown⟩ := processor.step_cases
    · cases halts.symm.trans result
    · cases halts.symm.trans fails
    · exact unknown
  · intro unknown
    obtain ⟨decoder, steps⟩ := exists_step_eq_of_none unknown
    exact congrArg Step.result steps

/-- A processor that has halted takes no instruction when it is told to go on, and shows the same
afterwards. -/
theorem Drive.apply_halted (halts : processor.step.result = .ok none) (drive : Drive) :
    let halted := processor.step.processor
    (drive.operation.apply halted).1 = drive.idle ∧
      (drive.operation.apply halted).2.view = halted.view := by
  intro halted
  obtain ⟨again, same⟩ := halted_again halts
  cases drive with
  | step => exact ⟨congrArg Answer.stepped again, same⟩
  | executeNext =>
    have nothing : halted.step.result.map Option.isSome = .ok false := by
      rw [again]
      rfl
    exact ⟨congrArg Answer.wentOn nothing, same⟩
  | run limit =>
    obtain ⟨shown, nothing⟩ := runFor_of_halted halts (halted.room limit)
    rw [← run_eq_runFor] at shown nothing
    exact ⟨congrArg Answer.ran nothing, shown⟩
  | runToEnd =>
    obtain ⟨shown, nothing⟩ := runFor_of_halted halts (UInt64.size - halted.cycles.toNat)
    rw [← runToEnd_eq_runFor] at shown nothing
    exact ⟨congrArg Answer.ran nothing, shown⟩

/-- A processor that has halted takes no instruction however often it is told to go on, and always
shows the same. -/
theorem transcript_halted (halts : processor.step.result = .ok none) (drives : List Drive) :
    let halted := processor.step.processor
    transcript (drives.map Drive.operation) halted =
      drives.map fun drive => (drive.idle, halted.view) := by
  intro halted
  induction drives with
  | nil => rfl
  | cons drive drives ih =>
    obtain ⟨nothing, shown⟩ := drive.apply_halted halts
    -- What comes behind the first operation is seen of any processor that shows the same.
    have rest := transcript_congr shown (drives.map Drive.operation)
    exact congrArg₂ List.cons (Prod.ext nothing shown) (rest.trans ih)

/-- A step gives no instruction if and only if the word at PC has the opcode 0 and no special
opcode, pending skip or not. Then the registers, the counter and the pending skip are as before, the
processor has halted, and no cell has changed but the one at PC, where a key is taken out. From then
on it gives no instruction however often it is told to go on, and always shows the same. -/
theorem halting_step (processor : Processor) :
    let before := processor.machine
    let pc := before.registers.pc
    let word := (before.peek pc).toNat
    let halted := processor.step.processor
    (processor.step.result = .ok none ↔ word % 16 = 0 ∧ word / 16 % 64 ≠ 1) ∧
      (processor.step.result = .ok none →
        halted.machine.registers = before.registers ∧ halted.cycles = processor.cycles ∧
          halted.skipPending = processor.skipPending ∧ halted.state = .halted ∧
          (∀ address, halted.machine.peek address =
            if address = pc ∧ Window.keyboard.contains pc = true then 0
            else before.peek address) ∧
          ∀ drives : List Drive, transcript (drives.map Drive.operation) halted =
            drives.map fun drive => (drive.idle, halted.view)) := by
  intro before pc word halted
  refine ⟨result_step_eq_none_iff.trans (Instruction.ofWord?_eq_none_iff _), fun halts => ?_⟩
  obtain ⟨decoder, steps⟩ := exists_step_eq_of_none (result_step_eq_none_iff.mp halts)
  have left : halted = ⟨(before.read pc).2, .halted, processor.cycles, processor.skipPending,
      decoder⟩ := congrArg Step.processor steps
  refine ⟨?_, ?_, ?_, ?_, ?_, transcript_halted halts⟩
  · rw [left]
    exact before.registers_read pc
  · rw [left]
  · rw [left]
  · rw [left]
  · intro address
    have cell := congrFun (before.contents_read pc) (.cell address)
    rw [taken_cell] at cell
    rw [left]
    exact cell

/-- A processor that is to skip the instruction at PC, where a key of the keyboard window is, with a
jump marked. -/
def resting : Processor where
  machine := {
    registers := { a := 5, pc := 0x9005, jumped := true }
    ram := .ofCells [(0x9005, 0x0020), (0x9006, 0x0041)] }
  cycles := 7
  skipPending := true
  decoder := .empty

/-- The key is no instruction, and is taken; the skip stays pending through all that follows. -/
theorem halting_step_resting :
    resting.step.result = .ok none ∧ resting.step.processor.skipPending = true ∧
      resting.step.processor.machine.registers = resting.machine.registers ∧
      resting.step.processor.machine.peek 0x9005 = 0 ∧
      resting.step.processor.machine.peek 0x9006 = 0x41 ∧
      transcript [.run 3, .step, .executeNext, .runToEnd] resting.step.processor =
        [.ran (.ok 0), .stepped (.ok none), .wentOn (.ok false), .ran (.ok 0)].map
          fun answer => (answer, resting.step.processor.view) := by
  have cells (address : Word) :
      resting.machine.peek address = resting.machine.contents (.cell address) := rfl
  have holds := resting.machine.contents_of_cells rfl
  obtain ⟨halts_iff, stays⟩ := halting_step resting
  have halts : resting.step.result = .ok none := by
    rw [halts_iff, cells, holds]
    decide
  obtain ⟨registers, -, pending, -, peeks, rests⟩ := stays halts
  refine ⟨halts, pending, registers, peeks 0x9005, ?_,
    rests [.run 3, .step, .executeNext, .runToEnd]⟩
  rw [peeks, cells, holds]
  decide

end Halting

end Processor

end Dcpu16
