import Dcpu16.Listing
import Dcpu16.Proofs.Processor.Step

/-!
# Steps and listings

The instruction that a step returns, executed or skipped, reads as a listing of the memory shows it,
whatever the step has done to the words since (`Processor.text_step`). The operands of the returned
instruction still hold what the execution has captured in them; none of this is in the text.
-/
namespace Dcpu16

namespace Instruction

/-- What an execution captures does not show in the text. -/
theorem text_forget (instruction : Instruction) : instruction.forget.text = instruction.text := by
  cases instruction <;> rfl

/-- What an execution captures does not count in the size. -/
theorem size_forget (instruction : Instruction) : instruction.forget.size = instruction.size := by
  cases instruction <;> rfl

end Instruction

namespace Processor

section Agreement

variable {processor : Processor} {taken : Instruction}

/-- What a step returns is the instruction that stood in memory before it, with what the execution
has captured. -/
theorem ofWords?_ahead (succeeds : processor.step.result = .ok (some taken)) :
    Instruction.ofWords? processor.ahead = some taken.forget := by
  cases found : Instruction.ofWords? processor.ahead with
  | none =>
    rw [result_step_of_none found] at succeeds
    cases succeeds
  | some instruction =>
    have returned : ∃ taken, processor.step.result = .ok (some taken) ∧
        taken.forget = instruction := by
      cases pending : processor.skipPending with
      | true => exact (retires_of_skip pending found).exists_result
      | false =>
        have faultless := fault?_eq_none_of_ok pending found succeeds
        exact (retires_of_faultless pending found faultless).exists_result
    obtain ⟨other, returns, forget⟩ := returned
    rw [succeeds] at returns
    cases returns
    rw [forget]

/-- The instruction that a step returns, executed or skipped, has the text that a listing gives to
the three words from PC on, as they were before the step, and the size of the instruction there. -/
theorem text_step (succeeds : processor.step.result = .ok (some taken)) :
    taken.text = Listing.firstText processor.ahead ∧
      ∃ instruction, Instruction.ofWords? processor.ahead = some instruction ∧
        taken.size = instruction.size := by
  have found : Instruction.ofWords? processor.ahead = some taken.forget :=
    ofWords?_ahead succeeds
  refine ⟨?_, taken.forget, found, taken.size_forget.symm⟩
  rw [Listing.firstText, found]
  exact taken.text_forget.symm

/-- A processor in front of `SET [0x9000], 5`, which stands at 0x9000, in the keyboard window. -/
def overwriting : Processor where
  machine := {
    registers := { pc := 0x9000 }
    ram := .ofCells [(0x9000, 0x95E1), (0x9001, 0x9000)] }
  decoder := .empty

/-- Both words are taken as keys, and the first is overwritten. -/
theorem text_step_overwriting :
    ∃ taken, overwriting.step.result = .ok (some taken) ∧ taken.text = "SET [0x9000], 0x05" := by
  have holds := overwriting.machine.contents_of_cells rfl
  have found : Instruction.ofWords? overwriting.ahead = some
      (.basic .set ⟨.absolute, .a, 0x9000, 0, none⟩ ⟨.literal 5, .b, 0, 0, none⟩) := by
    unfold ahead
    rw [holds]
    decide
  obtain ⟨taken, succeeds, -⟩ := (retires_of_faultless rfl found rfl).exists_result
  obtain ⟨text, -⟩ := text_step succeeds
  refine ⟨taken, succeeds, text.trans ?_⟩
  rw [Listing.firstText, found]
  decide

end Agreement

end Processor

end Dcpu16
