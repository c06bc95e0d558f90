import Dcpu16.Proofs.Processor.Step

/-!
# Subroutines

JSR pushes PC, which stands on its last word then (`Processor.call_spec`), and `SET PC, POP` stores
the saved word in PC, which is not moved on after that (`Processor.return_spec`). So a subroutine
that returns at once goes back to the last word of the call, and not behind it
(`Processor.return_of_call`).
-/
namespace Dcpu16

namespace Instruction

/-- `SET PC, POP`, by which a subroutine returns. -/
def ret : Instruction :=
  .basic .set { mode := .programCounter, slot := .a } { mode := .pop, slot := .b }

/-- A return is the word 0x61C1. -/
theorem ofWords?_ret (following : List Word) : ofWords? (0x61C1 :: following) = some ret := by
  have known : ofWord? 0x61C1 = some ret := by decide
  rw [ofWords?, known]
  rfl

section Stack

variable (contents : Contents)

/-- A call pushes PC. -/
theorem after_call {a : Operand} (still : a.mode.movesStack = false) :
    (special .jsr a).after contents (.register .sp) = contents (.register .sp) - 1 ∧
      (special .jsr a).after contents (.cell (contents (.register .sp) - 1)) =
        contents (.register .pc) := by
  simp [after, Operand.reading_register_of_still still]

/-- A return pops a word. -/
theorem after_ret_sp : ret.after contents (.register .sp) = contents (.register .sp) + 1 := by
  simp [ret, after, firstRead, Opcode.isConditional, Opcode.action, computed, Opcode.result,
    Operand.reading, Operand.place?, Operand.claiming, Operand.storing]

/-- The word that a return pops is stored in PC. -/
theorem target?_ret : ret.target? contents = some (contents (.cell (contents (.register .sp)))) :=
  rfl

end Stack

end Instruction

namespace Processor

variable {processor : Processor}

/-- A step that executes a call pushes the address of the last word of the call. -/
theorem call_spec {a : Operand} (executes : processor.skipPending = false)
    (found : Instruction.ofWords? processor.ahead = some (.special .jsr a))
    (still : a.mode.movesStack = false) :
    let before := processor.machine.contents
    let sp := before (.register .sp) - 1
    let next := processor.step.processor
    (∃ executed, processor.step.result = .ok (some executed)) ∧ next.skipPending = false ∧
      next.machine.contents (.register .sp) = sp ∧
      next.machine.contents (.cell sp) =
        before (.register .pc) + .ofNat ((Instruction.special .jsr a).size - 1) := by
  intro before sp next
  have faultless : (Instruction.special .jsr a).fault? = none :=
    if_neg (Mode.ne_stack_of_still still).2
  have retires := retires_of_faultless executes found faultless
  obtain ⟨executed, succeeds, -⟩ := retires.exists_result
  have stack : Instruction.fetched (.special .jsr a) before (.register .sp) =
      before (.register .sp) := Instruction.fetched_register (by decide) _ before
  obtain ⟨pushed, saved⟩ :=
    Instruction.after_call (Instruction.fetched (.special .jsr a) before) still
  rw [stack] at pushed saved
  rw [Instruction.fetched_pc] at saved
  refine ⟨⟨executed, succeeds⟩, ?_, ?_, ?_⟩
  · exact Bool.eq_false_of_not_eq_true retires.skips_iff.mp
  · rw [retires.contents_eq, Function.update_of_ne (by decide)]
    exact pushed
  · rw [retires.contents_eq, Function.update_of_ne (by simp)]
    exact saved

/-- A step that executes a return pops the saved word into PC. When this is the return itself and
stands in the keyboard window, nothing is left of it to be popped. -/
theorem return_spec (executes : processor.skipPending = false)
    (returns : processor.machine.contents
      (.cell (processor.machine.contents (.register .pc))) = 0x61C1) :
    let before := processor.machine.contents
    let pc := before (.register .pc)
    let sp := before (.register .sp)
    let after := processor.step.processor.machine.contents
    (∃ executed, processor.step.result = .ok (some executed)) ∧
      after (.register .sp) = sp + 1 ∧
      after (.register .pc) =
        if sp = pc ∧ Window.keyboard.contains pc = true then 0 else before (.cell sp) := by
  intro before pc sp after
  have found : Instruction.ofWords? processor.ahead = some .ret := by
    simp only [ahead, returns]
    exact Instruction.ofWords?_ret _
  have retires := retires_of_faultless executes found rfl
  obtain ⟨executed, succeeds, -⟩ := retires.exists_result
  have stack : Instruction.fetched .ret before (.register .sp) = sp :=
    Instruction.fetched_register (by decide) .ret before
  refine ⟨⟨executed, succeeds⟩, ?_, ?_⟩
  · rw [show after = _ from retires.contents_eq, Function.update_of_ne (by decide),
      Instruction.after_ret_sp, stack]
  · rw [show after = _ from retires.contents_eq, Function.update_self, Instruction.target?_ret,
      stack, Option.getD_some]
    -- The cell to be popped may be the one that the return has just been fetched from.
    have word : Instruction.fetched .ret before (.cell sp) = before.taken pc (.cell sp) := by
      rw [Instruction.fetched, Function.update_of_ne (by simp)]
      rfl
    rw [word, taken_cell]

/-- A subroutine that returns at once goes back to the last word of the call that has called it,
with SP as it was before the call. When its return is the cell that the call has written, and stands
in the keyboard window, it goes to address 0. -/
theorem return_of_call {processor called : Processor} {before : Contents} {pc sp entry : Word}
    {a : Operand} (contents : before = processor.machine.contents)
    (address : pc = before (.register .pc)) (stack : sp = before (.register .sp))
    (executes : processor.skipPending = false)
    (found : Instruction.ofWords? processor.ahead = some (.special .jsr a))
    (still : a.mode.movesStack = false) (calls : called = processor.step.processor)
    (enters : entry = called.machine.contents (.register .pc))
    (returns : called.machine.contents (.cell entry) = 0x61C1) :
    let returned := called.step.processor.machine.contents
    (∃ executed, processor.step.result = .ok (some executed)) ∧
      (∃ executed, called.step.result = .ok (some executed)) ∧
      returned (.register .sp) = sp ∧
      returned (.register .pc) =
        if entry = sp - 1 ∧ Window.keyboard.contains entry = true then 0
        else pc + .ofNat ((Instruction.special .jsr a).size - 1) := by
  intro returned
  subst contents address stack calls enters
  obtain ⟨succeeds, goesOn, pushed, saved⟩ := call_spec executes found still
  obtain ⟨returnSucceeds, popped, left⟩ := return_spec goesOn returns
  rw [pushed] at popped left
  rw [saved] at left
  refine ⟨succeeds, returnSucceeds, popped.trans (UInt16.sub_add_cancel _ 1), left.trans ?_⟩
  simp only [eq_comm]

/-- A processor in front of `JSR 0x0009`, where a subroutine returns at once. -/
def calling : Processor where
  machine := {
    registers := { pc := 5 }
    ram := .ofCells [(5, 0x7C10), (6, 9), (9, 0x61C1)] }
  decoder := .empty

/-- The call, and the return where it has gone to. -/
theorem calling_words :
    Instruction.ofWords? calling.ahead =
        some (.special .jsr { mode := .immediate, slot := .b, nextWord := 9 }) ∧
      calling.step.processor.machine.contents (.register .pc) = 9 ∧
      calling.step.processor.machine.contents
        (.cell (calling.step.processor.machine.contents (.register .pc))) = 0x61C1 := by
  have holds := calling.machine.contents_of_cells rfl
  have found : Instruction.ofWords? calling.ahead =
      some (.special .jsr { mode := .immediate, slot := .b, nextWord := 9 }) := by
    unfold ahead
    rw [holds]
    decide
  refine ⟨found, ?_⟩
  rw [(retires_of_faultless rfl found rfl).contents_eq, holds]
  decide

/-- The subroutine returns to the inline word of the call. -/
theorem return_of_call_calling :
    calling.step.processor.step.processor.machine.contents (.register .sp) = 0 ∧
      calling.step.processor.step.processor.machine.contents (.register .pc) = 6 := by
  obtain ⟨found, enters, returns⟩ := calling_words
  obtain ⟨-, -, sp, pc⟩ := return_of_call rfl rfl rfl rfl found rfl rfl rfl returns
  refine ⟨sp, pc.trans ?_⟩
  rw [enters]
  decide

/-- A return does not lead behind the call: here PC stands on the inline word of the call, and not
on the word behind it. -/
theorem return_not_behind_call :
    Instruction.ofWords? calling.ahead =
        some (.special .jsr { mode := .immediate, slot := .b, nextWord := 9 }) ∧
      calling.skipPending = false ∧
      (∃ executed, calling.step.result = .ok (some executed)) ∧
      calling.step.processor.machine.contents
        (.cell (calling.step.processor.machine.contents (.register .pc))) = 0x61C1 ∧
      calling.step.processor.step.processor.machine.contents (.register .pc) ≠
        calling.machine.contents (.register .pc) + .ofNat
          (Instruction.special .jsr { mode := .immediate, slot := .b, nextWord := 9 }).size := by
  obtain ⟨found, enters, returns⟩ := calling_words
  obtain ⟨succeeds, goesOn, pushed, saved⟩ := call_spec rfl found rfl
  obtain ⟨-, -, left⟩ := return_spec goesOn returns
  refine ⟨found, rfl, succeeds, returns, ?_⟩
  rw [left, enters, pushed, saved]
  decide

end Processor

end Dcpu16
