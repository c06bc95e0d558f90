import Dcpu16.Proofs.Processor.Halting

/-!
# The mark of a jump

Between two instructions the mark of a jump means nothing. A host that sets PC as an instruction
would do leaves it behind, and the next step removes it before anything looks at it. So processors
that differ only in the mark (`Processor.marked`) answer alike and show the same apart from it,
however often they are told to go on (`Processor.mark_unobserved`). A step that takes an instruction
leaves no mark; a step that halts does not touch it.
-/
namespace Dcpu16

/-- What a processor shows, the mark of a jump left out. -/
def View.unmarked (view : View) : View :=
  { view with registers := { view.registers with jumped := false } }

namespace Machine

section Mark

variable (machine : Machine) (jumped : Bool)

/-- Writing a cell does not touch the mark, whatever it is. -/
theorem write_markJump (address value : Word) :
    (machine.markJump jumped).write address value =
      (machine.write address value).markJump jumped := by
  unfold write announceWindow
  cases Window.of? address with
  | none => rfl
  | some window => cases window <;> rfl

/-- Reading a cell does not depend on the mark, and does not touch it. -/
theorem read_markJump (address : Word) :
    (machine.markJump jumped).read address =
      ((machine.read address).1, (machine.read address).2.markJump jumped) := by
  unfold read
  rw [write_markJump]
  split <;> rfl

end Mark

end Machine

namespace Processor

/-- The processor with the mark of a jump set or removed. -/
def marked (processor : Processor) (jumped : Bool) : Processor :=
  { processor with machine := processor.machine.markJump jumped }

section Mark

variable {processor left right : Processor}

/-- The mark that a processor has is no other mark. -/
theorem marked_self (processor : Processor) :
    processor.marked processor.machine.registers.jumped = processor := rfl

/-- The mark is left out of what is shown. -/
theorem unmarked_view_marked (processor : Processor) (jumped : Bool) :
    (processor.marked jumped).view.unmarked = processor.view.unmarked := rfl

/-- Processors that show the same apart from the mark show the same once they have the same mark. -/
theorem view_marked_of_unmarked (same : left.view.unmarked = right.view.unmarked) :
    (left.marked right.machine.registers.jumped).view = right.view := by
  have registers := congrArg View.registers same
  have fields (register : Register) :
      left.machine.registers.get register = right.machine.registers.get register := by
    have found := congrArg (fun file => file.get register) registers
    cases register <;> exact found
  have file : (left.marked right.machine.registers.jumped).machine.registers =
      right.machine.registers := RegisterFile.ext_get (fun register => fields register) rfl
  have ram : left.machine.ram = right.machine.ram := congrArg View.ram same
  have state : left.state = right.state := congrArg View.state same
  have cycles : left.cycles = right.cycles := congrArg View.cycles same
  have skipPending : left.skipPending = right.skipPending := congrArg View.skipPending same
  rw [view, view, file]
  simp only [marked, Machine.markJump, ram, state, cycles, skipPending]

/-! ## Steps and runs -/

/-- A step does not depend on the mark. Only a step that halts leaves it where it is. -/
theorem step_marked (processor : Processor) (jumped : Bool) :
    (processor.marked jumped).step = processor.step ∨
      processor.step.result = .ok none ∧
        (processor.marked jumped).step =
          { processor.step with processor := processor.step.processor.marked jumped } := by
  obtain ⟨machine, state, cycles, skipPending, decoder⟩ := processor
  have reads := machine.read_markJump jumped machine.registers.pc
  unfold step marked
  simp only
  rw [show (machine.markJump jumped).registers.pc = machine.registers.pc from rfl, reads]
  rcases decoder.decode (machine.read machine.registers.pc).1 with ⟨decoded, decoder⟩
  cases decoded with
  | none => exact .inr ⟨rfl, rfl⟩
  | some instruction => exact .inl rfl

/-- A run on a processor with another mark ends in the same way, and leaves at most another mark. -/
theorem exists_runFor_marked (processor : Processor) (jumped : Bool) (limit : Nat) :
    ∃ mark, (processor.marked jumped).runFor limit =
      ⟨(processor.runFor limit).ending, (processor.runFor limit).processor.marked mark⟩ := by
  cases limit with
  | zero => exact ⟨jumped, rfl⟩
  | succ limit =>
    obtain same | ⟨halts, leaves⟩ := processor.step_marked jumped
    · -- From the first step on the two runs are one.
      refine ⟨(processor.runFor (limit + 1)).processor.machine.registers.jumped, ?_⟩
      rw [runFor, runFor, same, marked_self]
    · refine ⟨jumped, ?_⟩
      rw [runFor, runFor, leaves]
      revert halts
      rcases processor.step with ⟨address, skipped, result, next⟩
      rintro rfl
      rfl

/-- A processor with another mark answers in the same way when it is told to go on, and shows the
same afterwards apart from the mark. -/
theorem Drive.apply_marked (drive : Drive) (processor : Processor) (jumped : Bool) :
    (drive.operation.apply (processor.marked jumped)).1 = (drive.operation.apply processor).1 ∧
      (drive.operation.apply (processor.marked jumped)).2.view.unmarked =
        (drive.operation.apply processor).2.view.unmarked := by
  have steps : (processor.marked jumped).step.result = processor.step.result ∧
      (processor.marked jumped).step.processor.view.unmarked =
        processor.step.processor.view.unmarked := by
    obtain same | ⟨-, leaves⟩ := processor.step_marked jumped
    · rw [same]
      exact ⟨rfl, rfl⟩
    · rw [leaves]
      exact ⟨rfl, unmarked_view_marked _ jumped⟩
  -- The counter is the same, and so is the number of instructions that a run may take.
  have start : (processor.marked jumped).cycles = processor.cycles := rfl
  cases drive with
  | step => exact ⟨congrArg Answer.stepped steps.1, steps.2⟩
  | executeNext =>
    have results := congrArg (Except.map Option.isSome) steps.1
    exact ⟨congrArg Answer.wentOn results, steps.2⟩
  | run limit =>
    obtain ⟨mark, same⟩ := processor.exists_runFor_marked jumped (processor.room limit)
    simp only [operation, Operation.apply, run_eq_runFor, room, start] at same ⊢
    rw [same]
    exact ⟨rfl, unmarked_view_marked _ mark⟩
  | runToEnd =>
    obtain ⟨mark, same⟩ :=
      processor.exists_runFor_marked jumped (UInt64.size - processor.cycles.toNat)
    simp only [operation, Operation.apply, runToEnd_eq_runFor, start] at same ⊢
    rw [same]
    exact ⟨rfl, unmarked_view_marked _ mark⟩

/-- Processors that show the same apart from the mark answer in the same way however often they are
told to go on, and show the same all the time apart from the mark. -/
theorem transcript_unmarked (same : left.view.unmarked = right.view.unmarked)
    (drives : List Drive) :
    (transcript (drives.map Drive.operation) left).map (Prod.map id View.unmarked) =
      (transcript (drives.map Drive.operation) right).map (Prod.map id View.unmarked) := by
  induction drives generalizing left right with
  | nil => rfl
  | cons drive drives ih =>
    -- The left processor goes on as it would with the mark of the right one.
    obtain ⟨answers, shows⟩ := drive.operation.apply_congr (view_marked_of_unmarked same)
    obtain ⟨answer, shown⟩ := drive.apply_marked left right.machine.registers.jumped
    have first := answer.symm.trans answers
    have seen := shown.symm.trans (congrArg View.unmarked shows)
    exact congrArg₂ List.cons (Prod.ext first seen) (ih seen)

/-! ## The mark behind a step -/

/-- No mark is left when an instruction is retired. -/
theorem jumped_retire (machine : Machine) (cycles : UInt64) (skipPending : Bool)
    (decoder : Decoder) :
    (retire machine cycles skipPending decoder).machine.registers.jumped = false := by
  unfold retire Machine.takeJump
  cases machine.registers.jumped with
  | true => rfl
  | false => exact Machine.jumped_advance _

/-- No mark is left by a step that takes an instruction. -/
theorem jumped_step_of_some {instruction : Instruction}
    (takes : processor.step.result = .ok (some instruction)) :
    processor.step.processor.machine.registers.jumped = false := by
  cases known : Instruction.ofWord? (processor.machine.contents
      (.cell (processor.machine.contents (.register .pc)))) with
  | none =>
    obtain ⟨decoder, steps⟩ := exists_step_eq_of_none known
    rw [steps] at takes
    cases takes
  | some bare =>
    obtain ⟨decoder, steps⟩ := exists_step_eq known
    cases pending : processor.skipPending with
    | true =>
      rw [steps, if_pos pending]
      exact jumped_retire _ _ _ _
    | false =>
      rw [if_neg (by simp [pending])] at steps
      rw [steps] at takes ⊢
      revert takes
      rcases bare.execute processor.fetched with ⟨fault | outcome, executed, machine⟩
      · intro takes
        cases takes
      · intro takes
        exact jumped_retire _ _ _ _

/-- A step that halts does not touch the mark. -/
theorem jumped_step_of_none (halts : processor.step.result = .ok none) :
    processor.step.processor.machine.registers.jumped =
      processor.machine.registers.jumped := by
  obtain ⟨decoder, steps⟩ := exists_step_eq_of_none (result_step_eq_none_iff.mp halts)
  rw [steps]
  exact processor.machine.jumped_read _

/-- Two processors that show the same apart from the mark of a jump answer in the same way however
often they are told to go on, and show the same all the time apart from the mark. No step that takes
an instruction, be it to execute it or to skip it, leaves a mark; a step that halts takes none, and
leaves the mark as it was. -/
theorem mark_unobserved (same : left.view.unmarked = right.view.unmarked) (drives : List Drive) :
    (transcript (drives.map Drive.operation) left).map (Prod.map id View.unmarked) =
        (transcript (drives.map Drive.operation) right).map (Prod.map id View.unmarked) ∧
      ∀ processor : Processor,
        (∀ instruction, processor.step.result = .ok (some instruction) →
          processor.step.processor.machine.registers.jumped = false) ∧
        (processor.step.result = .ok none →
          processor.step.processor.machine.registers.jumped =
            processor.machine.registers.jumped) :=
  ⟨transcript_unmarked same drives, fun _ => ⟨fun _ => jumped_step_of_some, jumped_step_of_none⟩⟩

/-- A processor in front of `SET A, 1`, with a mark that a host has left. -/
def stale : Processor where
  machine := {
    registers := { jumped := true }
    ram := .ofCells [(0, 0x8401)] }
  decoder := .empty

/-- PC moves on behind the instruction although a jump was marked, and the mark is gone. What is
seen is what is seen without the mark. -/
theorem mark_unobserved_stale :
    (stale.marked false).view.unmarked = stale.view.unmarked ∧
      (transcript [.step, .run 3, .executeNext] stale).map (Prod.map id View.unmarked) =
        (transcript [.step, .run 3, .executeNext] (stale.marked false)).map
          (Prod.map id View.unmarked) ∧
      stale.step.processor.machine.contents (.register .pc) = 1 ∧
      stale.step.processor.machine.registers.jumped = false := by
  have holds := stale.machine.contents_of_cells rfl
  have found : Instruction.ofWords? stale.ahead =
      some (.basic .set ⟨.register 0, .a, 0, 0, none⟩ ⟨.literal 1, .b, 0, 0, none⟩) := by
    unfold ahead
    rw [holds]
    decide
  have retires := retires_of_faultless rfl found rfl
  obtain ⟨taken, takes, -⟩ := retires.exists_result
  have same : stale.view.unmarked = (stale.marked false).view.unmarked := rfl
  obtain ⟨seen, leaves⟩ := mark_unobserved same [.step, .run 3, .executeNext]
  refine ⟨same.symm, seen, ?_, (leaves stale).1 taken takes⟩
  rw [retires.contents_eq, holds]
  decide

/-- A processor at a word that is no instruction, with a mark that a host has left. -/
def stranded : Processor where
  machine := { registers := { jumped := true } }
  decoder := .empty

/-- Not every step that succeeds leaves no mark: a step that halts keeps it. -/
theorem mark_kept_by_halt :
    stranded.step.result = .ok none ∧
      stranded.step.processor.machine.registers.jumped = true := by
  have halts : stranded.step.result = .ok none := result_step_eq_none_iff.mpr (by decide)
  exact ⟨halts, jumped_step_of_none halts⟩

end Mark

end Processor

end Dcpu16
