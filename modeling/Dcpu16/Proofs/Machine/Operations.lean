import Dcpu16.Proofs.Machine.Uniform

/-!
# Operations on a machine

What a host can do with registers, cells, single operands and single instructions is a
`Machine.Operation`. Each is uniform: what it gives and what it changes depends on what the machine
holds (`Machine.Operation.uniform_apply`). Who listens is changed by subscriptions alone
(`Machine.listen`).
-/
namespace Dcpu16

/-- What a listener listens to. -/
inductive Subject
  | registers
  | memory
  deriving DecidableEq

/-- What an announcement is about. -/
def Announcement.subject : Announcement → Subject
  | .register _ => .registers
  | .memory _ => .memory

/-- What an operation gives. -/
inductive Answer
  /-- Nothing but that it has been done. -/
  | done
  | word (value : Word)
  | truth (value : Bool)
  /-- Cells with their addresses. -/
  | cells (cells : List (Word × Word))
  /-- A program has not been loaded. -/
  | refused (error : LoadError)
  /-- An operand that has been prepared or written through. -/
  | operand (result : Except Fault Unit) (operand : Operand)
  /-- The value of an operand. -/
  | value (result : Except Fault Word) (operand : Operand)
  /-- An instruction that has been executed. -/
  | executed (result : Except Fault Outcome) (instruction : Instruction)
  /-- An instruction that has been stepped over. -/
  | passed (instruction : Instruction)
  /-- The instruction that a step has taken, if there was one. -/
  | stepped (result : Except Fault (Option Instruction))
  /-- Whether a step has taken an instruction. -/
  | wentOn (result : Except Fault Bool)
  /-- The number of instructions that a run has taken. -/
  | ran (result : Except Fault Nat)

/-- What a load gives. -/
def Answer.ofLoad : Except LoadError Unit → Answer
  | .ok () => .done
  | .error error => .refused error

namespace Machine

/-- Those who listen to a subject. -/
def listeners (machine : Machine) : Subject → Listeners
  | .registers => machine.registerListeners
  | .memory => machine.memoryListeners

/-- Let a listener hear of a subject from now on. -/
def listen (machine : Machine) (subject : Subject) (name : String) : Machine :=
  match subject with
  | .registers => machine.listenToRegisters name
  | .memory => machine.listenToMemory name

/-- An announcement is for those who listen to its subject. -/
theorem audience_eq (machine : Machine) (announcement : Announcement) :
    machine.audience announcement = machine.listeners announcement.subject := by
  cases announcement <;> rfl

/-- What a host does with the registers, the memory, single operands and instructions. -/
inductive Operation
  | get (register : Register)
  | set (register : Register) (value : Word)
  | advance
  | jump (address : Word)
  | takeJump
  | clearRegisters
  | peek (address : Word)
  | dump (start : Word) (count : Nat)
  | read (address : Word)
  | write (address value : Word)
  | clearMemory
  | load (program : List Word)
  | pressKey (key : Word)
  | prepareOperand (operand : Operand)
  | passOperand (operand : Operand)
  | readOperand (operand : Operand)
  | writeOperand (operand : Operand) (value : Word)
  | execute (instruction : Instruction)
  | pass (instruction : Instruction)

/-- Carry out an operation. -/
def Operation.apply : Operation → Machine → Answer × Machine
  | .get register, machine => (.word (machine.get register), machine)
  | .set register value, machine => (.done, machine.set register value)
  | .advance, machine => (.word (machine.registers.pc + 1), machine.advance)
  | .jump address, machine => (.done, machine.jump address)
  | .takeJump, machine => (.truth machine.takeJump.1, machine.takeJump.2)
  | .clearRegisters, machine => (.done, machine.clearRegisters)
  | .peek address, machine => (.word (machine.peek address), machine)
  | .dump start count, machine => (.cells (machine.ram.dump start count), machine)
  | .read address, machine => (.word (machine.read address).1, (machine.read address).2)
  | .write address value, machine => (.done, machine.write address value)
  | .clearMemory, machine => (.done, machine.clearMemory)
  | .load program, machine => (.ofLoad (machine.load program).1, (machine.load program).2)
  | .pressKey key, machine => (.truth (machine.pressKey key).1, (machine.pressKey key).2)
  | .prepareOperand operand, machine =>
    let access := operand.prepare machine
    (.operand access.result access.operand, access.machine)
  | .passOperand operand, machine =>
    (.operand (.ok ()) (operand.pass machine).1, (operand.pass machine).2)
  | .readOperand operand, machine =>
    let access := operand.read machine
    (.value access.result access.operand, access.machine)
  | .writeOperand operand value, machine =>
    let access := operand.write machine value
    (.operand access.result access.operand, access.machine)
  | .execute instruction, machine =>
    let execution := instruction.execute machine
    (.executed execution.result execution.instruction, execution.machine)
  | .pass instruction, machine =>
    (.passed (instruction.pass machine).1, (instruction.pass machine).2)

/-- What an operation gives and changes depends on what the machine holds. -/
theorem Operation.uniform_apply (operation : Operation) : Uniform Prod.mk operation.apply := by
  intro machine
  cases operation with
  | get register =>
    exact .of_registers (fun registers => .word (registers.get register)) fun _ => rfl
  | set register value => exact ⟨.done, [.set register value], fun _ _ => rfl⟩
  | advance =>
    refine ⟨.word (machine.registers.pc + 1), [.set .pc (machine.registers.pc + 1)],
      fun other alike => ?_⟩
    simp only [apply, alike.advance, alike.registers_eq]
  | jump address => exact ⟨.done, [.set .pc address, .mark true], fun _ _ => rfl⟩
  | takeJump =>
    refine ⟨.truth machine.registers.jumped, [.mark false], fun other alike => ?_⟩
    simp only [apply, Machine.takeJump, alike.registers_eq]
    rfl
  | clearRegisters => exact ⟨.done, [.clearRegisters], fun _ _ => rfl⟩
  | peek address =>
    refine ⟨.word (machine.peek address), [], fun other alike => ?_⟩
    simp only [apply, alike.peek]
    rfl
  | dump start count =>
    refine ⟨.cells (machine.ram.dump start count), [], fun other alike => ?_⟩
    simp only [apply, alike.ram_eq]
    rfl
  | read address =>
    obtain ⟨value, changes, reads⟩ := uniform_read address machine
    refine ⟨.word value, changes, fun other alike => ?_⟩
    have reads : other.read address = (value, other.makes changes) := reads other alike
    simp only [apply, reads]
  | write address value => exact ⟨.done, [.write address value], fun _ _ => rfl⟩
  | clearMemory => exact ⟨.done, [.clearMemory], fun _ _ => rfl⟩
  | load program =>
    by_cases fits : program.length ≤ Ram.size
    · refine ⟨.done, Change.loading program, fun other _ => ?_⟩
      simp only [apply, load_of_le other fits, Answer.ofLoad]
    · refine ⟨.refused (.tooLarge program.length), [], fun other _ => ?_⟩
      simp only [apply, load_of_lt other (Nat.not_le.mp fits), Answer.ofLoad]
      rfl
  | pressKey key =>
    obtain ⟨taken, changes, presses⟩ := uniform_pressKey key machine
    refine ⟨.truth taken, changes, fun other alike => ?_⟩
    have presses : other.pressKey key = (taken, other.makes changes) := presses other alike
    simp only [apply, presses]
  | prepareOperand operand =>
    obtain ⟨⟨result, prepared⟩, changes, prepares⟩ := operand.uniform_prepare machine
    refine ⟨.operand result prepared, changes, fun other alike => ?_⟩
    simp only [apply, prepares other alike]
    rfl
  | passOperand operand =>
    obtain ⟨passed, changes, passes⟩ := operand.uniform_pass machine
    refine ⟨.operand (.ok ()) passed, changes, fun other alike => ?_⟩
    simp only [apply, passes other alike]
  | readOperand operand =>
    obtain ⟨⟨result, used⟩, changes, reads⟩ := operand.uniform_read machine
    refine ⟨.value result used, changes, fun other alike => ?_⟩
    simp only [apply, reads other alike]
    rfl
  | writeOperand operand value =>
    obtain ⟨⟨result, used⟩, changes, writes⟩ := operand.uniform_write value machine
    refine ⟨.operand result used, changes, fun other alike => ?_⟩
    simp only [apply, writes other alike]
    rfl
  | execute instruction =>
    obtain ⟨⟨result, executed⟩, changes, executes⟩ := instruction.uniform_execute machine
    refine ⟨.executed result executed, changes, fun other alike => ?_⟩
    simp only [apply, executes other alike]
    rfl
  | pass instruction =>
    obtain ⟨passed, changes, passes⟩ := instruction.uniform_pass machine
    refine ⟨.passed passed, changes, fun other alike => ?_⟩
    simp only [apply, passes other alike]

end Machine

end Dcpu16
