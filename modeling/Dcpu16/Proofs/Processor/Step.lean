import Dcpu16.Processor.Basic
import Dcpu16.Proofs.Machine.Executions

/-!
# Steps

The instruction in front of a processor is read from the word at PC and the two words behind it
(`Processor.ahead`). A step passes over it when a skip is pending (`Processor.retires_of_skip`);
otherwise it executes the instruction (`Processor.retires_of_faultless`) or ends in its fault
(`Processor.faults_of_fault?`). Whatever retires leaves contents that are given in full, and is the
instruction that stood in memory before the step (`Processor.Retires`).
-/
namespace Dcpu16

/-- An instruction that is read from a program has captured nothing. -/
theorem Instruction.forget_of_atRest {instruction : Instruction} (rest : instruction.AtRest) :
    instruction.forget = instruction := by
  have operand {slot : Slot} {operand : Operand} (rest : operand.AtRest slot) :
      operand.forget = operand := by
    rw [Operand.forget, ← rest.registerValue_eq, ← rest.stackAddress_eq]
  cases instruction with
  | basic opcode a b => rw [forget, operand rest.1, operand rest.2]
  | special opcode a => rw [forget, operand rest]

namespace Processor

/-- The words in front of the processor: the one at PC and the two behind it. -/
def ahead (processor : Processor) : List Word :=
  let contents := processor.machine.contents
  let pc := contents (.register .pc)
  [contents (.cell pc), contents (.cell (pc + 1)), contents (.cell (pc + 2))]

/-- Retiring an instruction moves PC on, unless the instruction has set it. -/
theorem contents_retire (machine : Machine) (cycles : UInt64) (skipPending : Bool)
    (decoder : Decoder) :
    (retire machine cycles skipPending decoder).machine.contents =
      if machine.registers.jumped then machine.contents
      else Function.update machine.contents (.register .pc)
        (machine.contents (.register .pc) + 1) := by
  unfold retire Machine.takeJump
  cases machine.registers.jumped <;> simp

section Step

variable {processor : Processor} {instruction : Instruction}

/-- The machine once it has read the word at PC, with no jump marked. -/
def fetched (processor : Processor) : Machine :=
  let machine := processor.machine
  (machine.read (machine.contents (.register .pc))).2.markJump false

/-- The word at PC is read without a change, apart from a key in its cell. -/
@[simp] theorem contents_fetched (processor : Processor) :
    processor.fetched.contents =
      processor.machine.contents.taken (processor.machine.contents (.register .pc)) := by
  simp [fetched]

/-- No jump is marked when the word at PC has been read. -/
@[simp] theorem jumped_fetched (processor : Processor) :
    processor.fetched.registers.jumped = false := rfl

/-- Reading the word at PC does not touch the two words behind it. -/
theorem ahead_eq (processor : Processor) :
    processor.ahead =
      processor.machine.contents (.cell (processor.machine.contents (.register .pc))) ::
        processor.fetched.contents.behind := by
  simp [ahead, Contents.behind, taken_cell]

/-- The instruction ahead has its code in the word at PC and its inline words behind it, and has
captured nothing. -/
theorem exists_bare (found : Instruction.ofWords? processor.ahead = some instruction) :
    ∃ bare following,
      Instruction.ofWord? (processor.machine.contents
        (.cell (processor.machine.contents (.register .pc)))) = some bare ∧
      following = processor.fetched.contents.behind ∧ instruction = bare.fill following ∧
      instruction.forget = instruction := by
  have rest := Instruction.forget_of_atRest (Instruction.atRest_of_ofWords? found)
  rw [ahead_eq] at found
  obtain ⟨bare, known, filled⟩ := Option.map_eq_some_iff.mp found
  exact ⟨bare, _, known, rfl, filled.symm, rest⟩

/-- A step that reads an instruction passes over it or executes it. -/
theorem exists_step_eq {bare : Instruction}
    (known : Instruction.ofWord? (processor.machine.contents
      (.cell (processor.machine.contents (.register .pc)))) = some bare) :
    let pc := processor.machine.contents (.register .pc)
    ∃ decoder, processor.step =
      if processor.skipPending then
        ⟨pc, true, .ok (some (bare.pass processor.fetched).1),
          retire (bare.pass processor.fetched).2 processor.cycles false decoder⟩
      else
        match bare.execute processor.fetched with
        | ⟨.error fault, _, machine⟩ =>
          ⟨pc, false, .error fault,
            ⟨machine, .running, processor.cycles, processor.skipPending, decoder⟩⟩
        | ⟨.ok outcome, executed, machine⟩ =>
          ⟨pc, false, .ok (some executed),
            retire machine processor.cycles (outcome == .skipNext) decoder⟩ := by
  obtain ⟨machine, state, cycles, skipPending, decoder⟩ := processor
  have decoded : (decoder.decode (machine.read machine.registers.pc).1).1 = some bare := by
    rw [decoder.decode_fst, machine.fst_read, ← known]
    rfl
  unfold step
  simp only [decoded]
  exact ⟨_, rfl⟩

/-- PC moves from the last word of an instruction to the word behind it. -/
theorem last_add_one (pc : Word) (instruction : Instruction) :
    pc + .ofNat (instruction.size - 1) + 1 = pc + .ofNat instruction.size := by
  have whole : instruction.size = instruction.size - 1 + 1 :=
    (Nat.sub_add_cancel instruction.size_pos).symm
  have next : UInt16.ofNat (instruction.size - 1) + 1 = .ofNat instruction.size := by
    conv_rhs => rw [whole, UInt16.ofNat_add]
    rfl
  rw [UInt16.add_assoc, next]

/-- A step takes the instruction from memory and retires it. It leaves the contents `after`, and
the next instruction is to be skipped if `skips` holds. -/
structure Retires (processor : Processor) (instruction : Instruction) (after : Contents)
    (skips : Prop) : Prop where
  exists_result : ∃ taken, processor.step.result = .ok (some taken) ∧ taken.forget = instruction
  contents_eq : processor.step.processor.machine.contents = after
  skips_iff : processor.step.processor.skipPending = true ↔ skips
  cycles_eq : processor.step.processor.cycles = processor.cycles + 1
  state_eq : processor.step.processor.state = .running

/-- A step retires the instruction when it goes on as `retire` does. -/
theorem retires_of_eq {address : Word} {skipped skip : Bool} {taken : Instruction}
    {next : Machine} {decoder : Decoder} {after : Contents} {skips : Prop}
    (steps : processor.step =
      ⟨address, skipped, .ok (some taken), retire next processor.cycles skip decoder⟩)
    (forget : taken.forget = instruction)
    (contents : (retire next processor.cycles skip decoder).machine.contents = after)
    (skip_iff : skip = true ↔ skips) : processor.Retires instruction after skips := by
  constructor
  · exact ⟨taken, congrArg Step.result steps, forget⟩
  · rw [steps]
    exact contents
  · rw [steps]
    exact skip_iff
  · rw [steps]
    rfl
  · rw [steps]
    rfl

/-- A step passes over the instruction when a skip is pending: it takes a key at PC, if there is
one, and moves PC behind the instruction. -/
theorem retires_of_skip (pending : processor.skipPending = true)
    (found : Instruction.ofWords? processor.ahead = some instruction) :
    let before := processor.machine.contents
    let pc := before (.register .pc)
    processor.Retires instruction
      (Function.update (before.taken pc) (.register .pc) (pc + .ofNat instruction.size)) False := by
  intro before pc
  obtain ⟨bare, following, known, behind, rfl, rest⟩ := exists_bare found
  obtain ⟨decoder, steps⟩ := exists_step_eq known
  obtain ⟨passed, next, passes, forget, contents, jumped⟩ :=
    bare.exists_pass_eq processor.fetched behind
  rw [contents_fetched, taken_register, ← Instruction.size_fill bare following] at contents
  rw [if_pos pending, passes] at steps
  refine retires_of_eq steps (forget.trans rest) ?_ (by simp)
  rw [contents_retire, jumped, contents, Function.update_self, last_add_one]
  exact Function.update_idem _ _ _

/-- What an instruction has stored in PC stays there when the instruction is retired, and otherwise
PC moves behind the instruction. -/
theorem contents_retire_after {contents : Contents} {next : Machine} {pc : Word}
    (last : contents (.register .pc) = pc + .ofNat (instruction.size - 1))
    (changed : next.contents = instruction.after contents)
    (jumped : next.registers.jumped = (instruction.target? contents).isSome)
    (cycles : UInt64) (skip : Bool) (decoder : Decoder) :
    (retire next cycles skip decoder).machine.contents =
      Function.update (instruction.after contents) (.register .pc)
        ((instruction.target? contents).getD (pc + .ofNat instruction.size)) := by
  have stored := instruction.after_pc contents
  rw [contents_retire, jumped, changed]
  cases target : instruction.target? contents with
  | none =>
    rw [target, Option.getD_none, last] at stored
    rw [stored, last_add_one]
    rfl
  | some address =>
    rw [target, Option.getD_some] at stored
    rw [Option.getD_some, ← stored, Function.update_eq_self]
    rfl

/-- A step executes an instruction without a fault: it does what the instruction says, and PC moves
behind the instruction unless something has been stored there. -/
theorem retires_of_faultless (executes : processor.skipPending = false)
    (found : Instruction.ofWords? processor.ahead = some instruction)
    (faultless : instruction.fault? = none) :
    let before := processor.machine.contents
    let contents := instruction.fetched before
    processor.Retires instruction
      (Function.update (instruction.after contents) (.register .pc)
        ((instruction.target? contents).getD (before (.register .pc) + .ofNat instruction.size)))
      (instruction.Fails contents) := by
  intro before contents
  obtain ⟨bare, following, known, behind, rfl, rest⟩ := exists_bare found
  obtain ⟨decoder, steps⟩ := exists_step_eq known
  obtain ⟨ready, outcome, executed, next, performs, arrived, unmarked, performed⟩ :=
    Instruction.exists_performed processor.fetched (Instruction.coded_of_ofWord? known) behind
      faultless
  rw [if_neg (by simp [executes]), performs] at steps
  rw [contents_fetched, Instruction.fetching_taken] at arrived
  obtain ⟨skips_iff, forget, changed, jumped⟩ := performed
  rw [arrived] at skips_iff changed
  rw [arrived, unmarked, jumped_fetched, Bool.false_or] at jumped
  have last : contents (.register .pc) =
      before (.register .pc) + .ofNat ((bare.fill following).size - 1) :=
    Instruction.fetched_pc _ before
  exact retires_of_eq steps (forget.trans rest) (contents_retire_after last changed jumped ..)
    (beq_iff_eq.trans skips_iff)

/-- A step ends in the fault of the instruction that it executes. It leaves the contents `after`,
and nothing else has changed but the state. -/
structure Faults (processor : Processor) (fault : Fault) (after : Contents) : Prop where
  result_eq : processor.step.result = .error fault
  contents_eq : processor.step.processor.machine.contents = after
  jumped_eq : processor.step.processor.machine.registers.jumped = false
  skipPending_eq : processor.step.processor.skipPending = processor.skipPending
  cycles_eq : processor.step.processor.cycles = processor.cycles
  state_eq : processor.step.processor.state = .running

/-- A step ends in the fault of the instruction that it executes, with the words of the instruction
fetched and the operands read that are read before the fault. -/
theorem faults_of_fault? (executes : processor.skipPending = false)
    (found : Instruction.ofWords? processor.ahead = some instruction) {fault : Fault}
    (faulty : instruction.fault? = some fault) :
    processor.Faults fault
      (instruction.leftover (instruction.fetched processor.machine.contents)) := by
  obtain ⟨bare, following, known, behind, rfl, rest⟩ := exists_bare found
  obtain ⟨decoder, steps⟩ := exists_step_eq known
  obtain ⟨ready, arrived, unmarked, ends⟩ :=
    Instruction.exists_faulted processor.fetched (Instruction.coded_of_ofWord? known) behind faulty
  rw [contents_fetched, Instruction.fetching_taken] at arrived
  obtain ⟨result, contents, jumped⟩ := ends
  rw [arrived] at contents
  rw [unmarked, jumped_fetched] at jumped
  rw [if_neg (by simp [executes])] at steps
  revert steps result contents jumped
  rcases bare.execute processor.fetched with ⟨fault | outcome, executed, machine⟩
  · intro steps result contents jumped
    cases result
    constructor <;> rw [steps]
    · exact contents
    · exact jumped
  · intro _ result
    cases result

/-- An instruction that a step has executed has no fault. -/
theorem fault?_eq_none_of_ok (executes : processor.skipPending = false)
    (found : Instruction.ofWords? processor.ahead = some instruction) {answer : Option Instruction}
    (succeeds : processor.step.result = .ok answer) : instruction.fault? = none := by
  by_contra some
  obtain ⟨fault, faulty⟩ := Option.ne_none_iff_exists'.mp some
  rw [(faults_of_fault? executes found faulty).result_eq] at succeeds
  cases succeeds

/-- A step returns no instruction when the word at PC is none. -/
theorem result_step_of_none (unknown : Instruction.ofWords? processor.ahead = none) :
    processor.step.result = .ok none := by
  obtain ⟨machine, state, cycles, skipPending, decoder⟩ := processor
  have decoded : (decoder.decode (machine.read machine.registers.pc).1).1 = none := by
    rw [decoder.decode_fst, machine.fst_read]
    exact Option.map_eq_none_iff.mp unknown
  unfold step
  simp only [decoded]

end Step

end Processor

end Dcpu16
