import Dcpu16.Proofs.Processor.Step

/-!
# Control flow

Where PC stands after a step, and whether the next instruction is skipped. An instruction that is
executed moves PC behind itself, or to the value that it has stored in PC
(`Processor.control_step`); one that is skipped moves PC behind itself and leaves everything else,
apart from a key in its first cell (`Processor.skip_step`). Both move PC by the same size.
-/
namespace Dcpu16.Processor

/-- A step that executes an instruction leaves PC behind the instruction, unless this is JSR or
stores in PC: then PC holds the value stored. The next instruction is to be skipped if and only if
the instruction is a comparison that does not hold of the values read. -/
theorem control_step {processor : Processor} {instruction : Instruction} {before : Contents}
    (contents : before = processor.machine.contents) (executes : processor.skipPending = false)
    (found : Instruction.ofWords? processor.ahead = some instruction)
    (succeeds : ∃ executed, processor.step.result = .ok (some executed)) :
    let next := processor.step.processor
    next.machine.contents (.register .pc) =
        (instruction.target? (instruction.fetched before)).getD
          (before (.register .pc) + .ofNat instruction.size) ∧
      (next.skipPending = true ↔ instruction.Fails (instruction.fetched before)) ∧
      next.cycles = processor.cycles + 1 ∧ next.state = .running := by
  intro next
  subst contents
  obtain ⟨executed, succeeds⟩ := succeeds
  have faultless : instruction.fault? = none := fault?_eq_none_of_ok executes found succeeds
  have retires := retires_of_faultless executes found faultless
  refine ⟨?_, retires.skips_iff, retires.cycles_eq, retires.state_eq⟩
  rw [retires.contents_eq, Function.update_self]

/-- A processor at the last address, in front of `ADD PC, [0x9000]`, with a key in cell 0x9000. -/
def leaping : Processor where
  machine := {
    registers := { pc := 0xFFFF }
    ram := .ofCells [(0xFFFF, 0x79C2), (0, 0x9000), (0x9000, 0x41)] }
  decoder := .empty

/-- The sum counts from the inline word, which is the first cell, and PC is not moved on. -/
theorem control_step_leaping :
    leaping.step.processor.machine.contents (.register .pc) = 0x41 ∧
      leaping.step.processor.skipPending = false := by
  have holds := leaping.machine.contents_of_cells rfl
  have found : Instruction.ofWords? leaping.ahead = some
      (.basic .add ⟨.programCounter, .a, 0, 0, none⟩ ⟨.absolute, .b, 0x9000, 0, none⟩) := by
    unfold ahead
    rw [holds]
    decide
  have executes : leaping.skipPending = false := rfl
  obtain ⟨executed, succeeds, -⟩ := (retires_of_faultless executes found rfl).exists_result
  obtain ⟨pc, skips, -, -⟩ := control_step rfl executes found ⟨executed, succeeds⟩
  constructor
  · rw [pc, holds]
    decide
  · apply Bool.eq_false_of_not_eq_true
    intro fails
    cases skips.mp fails

/-- A step that skips an instruction moves PC behind it and leaves all other registers. A key at PC
is taken, and no other cell changes: not those of the inline words, nor those that the operands
address. -/
theorem skip_step {processor : Processor} {instruction : Instruction} {before : Contents}
    {pc : Word} (contents : before = processor.machine.contents)
    (address : pc = before (.register .pc))
    (pending : processor.skipPending = true)
    (found : Instruction.ofWords? processor.ahead = some instruction) :
    let next := processor.step.processor
    let after := next.machine.contents
    (∃ passed, processor.step.result = .ok (some passed)) ∧
      after (.register .pc) = pc + .ofNat instruction.size ∧
      (∀ register, register ≠ .pc → after (.register register) = before (.register register)) ∧
      (∀ other, after (.cell other) =
        if other = pc ∧ Window.keyboard.contains pc = true then 0 else before (.cell other)) ∧
      next.skipPending = false ∧ next.cycles = processor.cycles + 1 ∧ next.state = .running := by
  intro next after
  subst contents address
  have retires := retires_of_skip pending found
  have moved : after = Function.update _ _ _ := retires.contents_eq
  obtain ⟨passed, succeeds, -⟩ := retires.exists_result
  refine ⟨⟨passed, succeeds⟩, ?_, ?_, ?_, ?_, retires.cycles_eq, retires.state_eq⟩
  · rw [moved, Function.update_self]
  · intro register other
    rw [moved, Function.update_of_ne (by simpa using other), taken_register]
  · intro other
    rw [moved, Function.update_of_ne (by simp), taken_cell]
  · exact Bool.eq_false_of_not_eq_true retires.skips_iff.mp

/-- A processor that is to skip `JSR [0x9000]`, which stands in the keyboard window. -/
def typing : Processor where
  machine := {
    registers := { pc := 0x9000 }
    ram := .ofCells [(0x9000, 0x7810), (0x9001, 0x9000)] }
  skipPending := true
  decoder := .empty

/-- The word of the instruction is taken as a key, its inline word is not. -/
theorem skip_step_typing :
    typing.step.processor.machine.contents (.register .pc) = 0x9002 ∧
      typing.step.processor.machine.contents (.register .sp) = 0 ∧
      typing.step.processor.machine.contents (.cell 0x9000) = 0 ∧
      typing.step.processor.machine.contents (.cell 0x9001) = 0x9000 := by
  have holds := typing.machine.contents_of_cells rfl
  have found : Instruction.ofWords? typing.ahead =
      some (.special .jsr ⟨.absolute, .b, 0x9000, 0, none⟩) := by
    unfold ahead
    rw [holds]
    decide
  obtain ⟨-, pc, registers, cells, -⟩ := skip_step rfl rfl rfl found
  refine ⟨pc, registers .sp (by decide), cells 0x9000, ?_⟩
  rw [cells, holds]
  decide

end Dcpu16.Processor
