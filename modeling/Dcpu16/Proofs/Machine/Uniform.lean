import Dcpu16.Machine.Execute
import Dcpu16.Proofs.Machine.Changes

/-!
# What an operation depends on

Whatever is done to a machine depends on what it holds, and neither on who listens nor on what has
been announced before. An operation is uniform (`Machine.Uniform`) when it gives the same on all
machines that hold the same, and makes the same row of changes in all of them. Accesses through
operands and executions of instructions are uniform, those included that end in a fault.
-/
namespace Dcpu16

namespace Machine

variable {α β : Type} {pack : α → Machine → β} {act rest : Machine → β} {machine : Machine}

/-- On all machines that hold what this one holds, `act` gives the same and makes the same changes.
The two are put together by `pack`. -/
def UniformAt (pack : α → Machine → β) (act : Machine → β) (machine : Machine) : Prop :=
  ∃ given changes, ∀ other : Machine, other.Alike machine →
    act other = pack given (other.makes changes)

/-- What `act` gives and the changes it makes depend on what the machine holds, and on nothing
else. -/
def Uniform (pack : α → Machine → β) (act : Machine → β) : Prop :=
  ∀ machine, UniformAt pack act machine

/-- An operation that makes no changes and looks at registers only is uniform. -/
theorem UniformAt.of_registers (given : RegisterFile → α)
    (gives : ∀ other : Machine, act other = pack (given other.registers) other) :
    UniformAt pack act machine := by
  refine ⟨given machine.registers, [], fun other alike => ?_⟩
  rw [gives other, alike.registers_eq]
  rfl

/-- An operation that does what a uniform one does is uniform. -/
theorem UniformAt.congr (uniform : UniformAt pack rest machine)
    (same : ∀ other : Machine, other.Alike machine → act other = rest other) :
    UniformAt pack act machine := by
  obtain ⟨given, changes, acts⟩ := uniform
  exact ⟨given, changes, fun other alike => (same other alike).trans (acts other alike)⟩

/-- An operation that has made some changes and goes on uniformly is uniform. -/
theorem UniformAt.after {changes : List Change}
    (goesOn : UniformAt pack rest (machine.makes changes))
    (begins : ∀ other : Machine, other.Alike machine → act other = rest (other.makes changes)) :
    UniformAt pack act machine := by
  obtain ⟨given, later, acts⟩ := goesOn
  refine ⟨given, changes ++ later, fun other alike => ?_⟩
  rw [begins other alike, acts _ (alike.makes changes), makes_append]

/-- PC moves to the same address on machines that hold the same. -/
theorem Alike.advance {other : Machine} (alike : other.Alike machine) :
    other.advance = other.makes [.set .pc (machine.registers.pc + 1)] := by
  rw [Machine.advance, alike.registers_eq]
  rfl

/-- Reading a cell is uniform. -/
theorem uniform_read (address : Word) : Uniform Prod.mk fun machine => machine.read address := by
  intro machine
  cases inside : Window.keyboard.contains address with
  | false =>
    refine ⟨machine.peek address, [], fun other alike => ?_⟩
    simp only [read, inside, alike.peek]
    rfl
  | true =>
    refine ⟨machine.peek address, [.write address 0], fun other alike => ?_⟩
    simp only [read, inside, alike.peek]
    rfl

/-- Pressing a key is uniform. -/
theorem uniform_pressKey (key : Word) : Uniform Prod.mk fun machine => machine.pressKey key := by
  intro machine
  by_cases none : key = 0
  · exact ⟨false, [], fun other _ => if_pos none⟩
  · cases found : Window.keys.find? fun address => machine.peek address == 0 with
    | none =>
      refine ⟨false, [], fun other alike => ?_⟩
      simp only [pressKey, if_neg none, alike.peek, found]
      rfl
    | some address =>
      refine ⟨true, [.write address key], fun other alike => ?_⟩
      simp only [pressKey, if_neg none, alike.peek, found]
      rfl

end Machine

/-- An access that ends on a machine. -/
def Access.on {α : Type} (outcome : Except Fault α × Operand) (machine : Machine) : Access α :=
  ⟨outcome.1, outcome.2, machine⟩

namespace Operand

open Machine (Uniform UniformAt)

/-- Fetching an inline word is uniform. -/
theorem uniform_fetch (operand : Operand) : Uniform Prod.mk operand.fetch := by
  intro machine
  cases takes : operand.mode.takesWord with
  | false =>
    refine ⟨{ operand with stackAddress := none }, [], fun other _ => ?_⟩
    rw [fetch, takes]
    rfl
  | true =>
    obtain ⟨nextWord, changes, reads⟩ := Machine.uniform_read (machine.registers.pc + 1)
      (machine.makes [.set .pc (machine.registers.pc + 1)])
    refine ⟨{ operand with stackAddress := none, nextWord },
      .set .pc (machine.registers.pc + 1) :: changes, fun other alike => ?_⟩
    have reads := reads _ (alike.makes _)
    rw [fetch, takes, alike.advance]
    simp only [↓reduceIte]
    exact congrArg (fun read : Word × Machine =>
      ({ operand with stackAddress := none, nextWord := read.1 }, read.2)) reads

/-- Getting ready for an execution is uniform. -/
theorem uniform_prepare (operand : Operand) : Uniform Access.on operand.prepare := by
  intro machine
  obtain ⟨fetched, changes, fetches⟩ := operand.uniform_fetch machine
  cases mode : fetched.mode with
  | indexed index =>
    cases found : (machine.makes changes).general? index with
    | none =>
      refine ⟨(.error (.noRegister index), fetched), changes, fun other alike => ?_⟩
      have found := ((alike.makes changes).general? index).trans found
      simp only [prepare, fetches other alike, mode, found]
      rfl
    | some registerValue =>
      refine ⟨(.ok (), { fetched with registerValue }), changes, fun other alike => ?_⟩
      have found := ((alike.makes changes).general? index).trans found
      simp only [prepare, fetches other alike, mode, found]
      rfl
  | _ =>
    refine ⟨(.ok (), fetched), changes, fun other alike => ?_⟩
    simp only [prepare, fetches other alike, mode]
    rfl

/-- Stepping over an inline word is uniform. -/
theorem uniform_pass (operand : Operand) : Uniform Prod.mk operand.pass := by
  intro machine
  cases takes : operand.mode.takesWord with
  | false =>
    refine ⟨{ operand with stackAddress := none }, [], fun other _ => ?_⟩
    rw [pass, takes]
    rfl
  | true =>
    let nextWord := machine.peek (machine.registers.pc + 1)
    refine ⟨{ operand with stackAddress := none, nextWord },
      [.set .pc (machine.registers.pc + 1)], fun other alike => ?_⟩
    have same : other.peek (machine.registers.pc + 1) = nextWord := alike.peek _
    rw [pass, takes, alike.advance, ← same]
    rfl

/-- Claiming the cell of a `POP` is uniform. -/
theorem uniform_popAddress (operand : Operand) :
    Uniform (fun (given : Word × Operand) machine => (given.1, given.2, machine))
      operand.popAddress := by
  intro machine
  cases claimed : operand.stackAddress with
  | some address =>
    refine .of_registers (fun _ => (address, operand)) fun other => ?_
    rw [popAddress, claimed]
  | none =>
    let address := machine.registers.sp
    refine ⟨(address, { operand with stackAddress := some address }), [.set .sp (address + 1)],
      fun other alike => ?_⟩
    rw [popAddress, claimed, alike.registers_eq]
    rfl

/-- Claiming the cell of a `PUSH` is uniform. -/
theorem uniform_pushAddress (operand : Operand) :
    Uniform (fun (given : Word × Operand) machine => (given.1, given.2, machine))
      operand.pushAddress := by
  intro machine
  cases claimed : operand.stackAddress with
  | some address =>
    refine .of_registers (fun _ => (address, operand)) fun other => ?_
    rw [pushAddress, claimed]
  | none =>
    let address := machine.registers.sp - 1
    refine ⟨(address, { operand with stackAddress := some address }), [.set .sp address],
      fun other alike => ?_⟩
    rw [pushAddress, claimed, alike.registers_eq]
    rfl

/-- Reading the cell of an operand is uniform. -/
theorem uniform_readCell (operand : Operand) (address : Word) :
    Uniform Access.on fun machine => operand.readCell machine address := by
  intro machine
  obtain ⟨value, changes, reads⟩ := Machine.uniform_read address machine
  refine ⟨(.ok value, operand), changes, fun other alike => ?_⟩
  simp only [readCell, reads other alike]
  rfl

/-- Reading through an operand is uniform. -/
theorem uniform_read (operand : Operand) : Uniform Access.on operand.read := by
  intro machine
  unfold read
  cases mode : operand.mode with
  | register index =>
    cases found : machine.general? index with
    | none =>
      refine ⟨(.error (.noRegister index), operand), [], fun other alike => ?_⟩
      simp only [alike.general?, found]
      rfl
    | some value =>
      refine ⟨(.ok value, operand), [], fun other alike => ?_⟩
      simp only [alike.general?, found]
      rfl
  | indirect index =>
    cases found : machine.general? index with
    | none =>
      refine ⟨(.error (.noRegister index), operand), [], fun other alike => ?_⟩
      simp only [alike.general?, found]
      rfl
    | some address =>
      refine .congr (operand.uniform_readCell address machine) fun other alike => ?_
      simp only [alike.general?, found]
  | indexed => exact operand.uniform_readCell operand.indexedAddress machine
  | absolute => exact operand.uniform_readCell operand.nextWord machine
  | peek =>
    refine .congr (operand.uniform_readCell machine.registers.sp machine) fun other alike => ?_
    simp only [alike.registers_eq]
  | pop =>
    obtain ⟨⟨address, claimed⟩, changes, claims⟩ := operand.uniform_popAddress machine
    refine .after (claimed.uniform_readCell address (machine.makes changes)) fun other alike => ?_
    simp only [claims other alike]
  | push => exact .of_registers (fun _ => (.error (.refused .push .read), operand)) fun _ => rfl
  | stackPointer => exact .of_registers (fun registers => (.ok registers.sp, operand)) fun _ => rfl
  | programCounter =>
    exact .of_registers (fun registers => (.ok registers.pc, operand)) fun _ => rfl
  | overflow => exact .of_registers (fun registers => (.ok registers.o, operand)) fun _ => rfl
  | immediate => exact .of_registers (fun _ => (.ok operand.nextWord, operand)) fun _ => rfl
  | literal value => exact .of_registers (fun _ => (.ok value, operand)) fun _ => rfl

/-- Writing through an operand is uniform. -/
theorem uniform_write (operand : Operand) (value : Word) :
    Uniform Access.on fun machine => operand.write machine value := by
  intro machine
  unfold write
  cases mode : operand.mode with
  | register index =>
    cases found : Register.ofIndex? index with
    | none =>
      refine ⟨(.error (.noRegister index), operand), [], fun other _ => ?_⟩
      simp only [found]
      rfl
    | some register =>
      refine ⟨(.ok (), operand), [.set register value], fun other _ => ?_⟩
      simp only [found]
      rfl
  | indirect index =>
    cases found : machine.general? index with
    | none =>
      refine ⟨(.error (.noRegister index), operand), [], fun other alike => ?_⟩
      simp only [alike.general?, found]
      rfl
    | some address =>
      refine ⟨(.ok (), operand), [.write address value], fun other alike => ?_⟩
      simp only [alike.general?, found]
      rfl
  | indexed => exact ⟨(.ok (), operand), [.write operand.indexedAddress value], fun _ _ => rfl⟩
  | absolute => exact ⟨(.ok (), operand), [.write operand.nextWord value], fun _ _ => rfl⟩
  | peek =>
    refine ⟨(.ok (), operand), [.write machine.registers.sp value], fun other alike => ?_⟩
    simp only [alike.registers_eq]
    rfl
  | pop =>
    obtain ⟨⟨address, claimed⟩, changes, claims⟩ := operand.uniform_popAddress machine
    refine ⟨(.ok (), claimed), changes ++ [.write address value], fun other alike => ?_⟩
    simp only [claims other alike, Machine.makes_append]
    rfl
  | push =>
    obtain ⟨⟨address, claimed⟩, changes, claims⟩ := operand.uniform_pushAddress machine
    refine ⟨(.ok (), claimed), changes ++ [.write address value], fun other alike => ?_⟩
    simp only [claims other alike, Machine.makes_append]
    rfl
  | stackPointer => exact ⟨(.ok (), operand), [.set .sp value], fun _ _ => rfl⟩
  | programCounter => exact ⟨(.ok (), operand), [.set .pc value, .mark true], fun _ _ => rfl⟩
  | overflow => exact ⟨(.ok (), operand), [.set .o value], fun _ _ => rfl⟩
  | immediate =>
    exact .of_registers (fun _ => (.error (.refused .immediate .write), operand)) fun _ => rfl
  | literal constant =>
    exact .of_registers (fun _ => (.error (.refused (.literal constant) .write), operand))
      fun _ => rfl

end Operand

/-- An execution that ends on a machine. -/
def Execution.on (outcome : Except Fault Outcome × Instruction) (machine : Machine) : Execution :=
  ⟨outcome.1, outcome.2, machine⟩

namespace Instruction

open Machine (Uniform UniformAt)

/-- Storing what arithmetic gives is uniform. -/
theorem uniform_store (opcode : Opcode) (a b : Operand) (result : Result) :
    Uniform Execution.on fun machine => store opcode a b machine result := by
  intro machine
  obtain ⟨⟨stored, a⟩, changes, writes⟩ := a.uniform_write result.value machine
  cases stored with
  | error fault =>
    refine ⟨(.error fault, .basic opcode a b), changes, fun other alike => ?_⟩
    simp only [store, writes other alike]
    rfl
  | ok =>
    cases overflows : result.overflow with
    | none =>
      refine ⟨(.ok .proceed, .basic opcode a b), changes, fun other alike => ?_⟩
      simp only [store, writes other alike, overflows]
      rfl
    | some overflow =>
      refine ⟨(.ok .proceed, .basic opcode a b), changes ++ [.set .o overflow],
        fun other alike => ?_⟩
      simp only [store, writes other alike, overflows, Machine.makes_append]
      rfl

/-- Reading two operands is uniform when everything that comes then is. -/
theorem uniform_readBoth (opcode : Opcode) (a b : Operand)
    {next : Operand → Operand → Machine → Word → Word → Execution}
    (goesOn : ∀ a b x y, Uniform Execution.on fun machine => next a b machine x y) :
    Uniform Execution.on fun machine => readBoth opcode a b machine next := by
  intro machine
  obtain ⟨⟨result, a⟩, changes, reads⟩ := a.uniform_read machine
  cases result with
  | error fault =>
    refine ⟨(.error fault, .basic opcode a b), changes, fun other alike => ?_⟩
    simp only [readBoth, reads other alike]
    rfl
  | ok x =>
    obtain ⟨⟨result, b⟩, later, readsThen⟩ := b.uniform_read (machine.makes changes)
    cases result with
    | error fault =>
      refine ⟨(.error fault, .basic opcode a b), changes ++ later, fun other alike => ?_⟩
      simp only [readBoth, reads other alike, Access.on, readsThen _ (alike.makes changes),
        Machine.makes_append]
      rfl
    | ok y =>
      have goesOn := goesOn a b x y (machine.makes (changes ++ later))
      refine .after goesOn fun other alike => ?_
      simp only [readBoth, reads other alike, Access.on, readsThen _ (alike.makes changes),
        Machine.makes_append]

/-- Executing a basic instruction whose operands are prepared is uniform. -/
theorem uniform_perform (opcode : Opcode) (a b : Operand) :
    Uniform Execution.on (perform opcode a b) := by
  unfold perform
  cases opcode.action with
  | move =>
    intro machine
    obtain ⟨⟨result, b⟩, changes, reads⟩ := b.uniform_read machine
    cases result with
    | error fault =>
      refine ⟨(.error fault, .basic opcode a b), changes, fun other alike => ?_⟩
      simp only [reads other alike]
      rfl
    | ok value =>
      refine .after (uniform_store opcode a b ⟨value, none⟩ (machine.makes changes))
        fun other alike => ?_
      simp only [reads other alike]
      rfl
  | test holds =>
    refine uniform_readBoth opcode a b fun a b x y machine => ?_
    exact .of_registers
      (fun _ => (.ok (if holds x y then .proceed else .skipNext), .basic opcode a b)) fun _ => rfl
  | combine result =>
    exact uniform_readBoth opcode a b fun a b x y => uniform_store opcode a b (result x y)

/-- Calling a subroutine is uniform. -/
theorem uniform_call (a : Operand) : Uniform Execution.on (call a) := by
  intro machine
  obtain ⟨⟨result, a⟩, changes, reads⟩ := a.uniform_read machine
  cases result with
  | error fault =>
    refine ⟨(.error fault, .special .jsr a), changes, fun other alike => ?_⟩
    simp only [call, reads other alike]
    rfl
  | ok target =>
    let sp := (machine.makes changes).registers.sp - 1
    let pc := ((machine.makes changes).set .sp sp).registers.pc
    refine ⟨(.ok .proceed, .special .jsr a),
      changes ++ [.set .sp sp, .write sp pc, .set .pc target, .mark true], fun other alike => ?_⟩
    have pushed : (other.makes changes).registers = (machine.makes changes).registers :=
      (alike.makes changes).registers_eq
    have moved : ((other.makes changes).set .sp sp).registers.pc = pc :=
      congrArg RegisterFile.pc ((alike.makes changes).make (.set .sp sp)).registers_eq
    simp only [call, reads other alike, Access.on, pushed, Machine.makes_append]
    rw [moved]
    rfl

/-- Executing an instruction is uniform. -/
theorem uniform_execute (instruction : Instruction) :
    Uniform Execution.on instruction.execute := by
  intro machine
  cases instruction with
  | basic opcode a b =>
    obtain ⟨⟨result, a⟩, changes, prepares⟩ := a.uniform_prepare machine
    cases result with
    | error fault =>
      refine ⟨(.error fault, .basic opcode a b), changes, fun other alike => ?_⟩
      simp only [execute, prepares other alike]
      rfl
    | ok =>
      obtain ⟨⟨result, b⟩, later, preparesThen⟩ := b.uniform_prepare (machine.makes changes)
      cases result with
      | error fault =>
        refine ⟨(.error fault, .basic opcode a b), changes ++ later, fun other alike => ?_⟩
        simp only [execute, prepares other alike, Access.on,
          preparesThen _ (alike.makes changes), Machine.makes_append]
        rfl
      | ok =>
        refine .after (uniform_perform opcode a b (machine.makes (changes ++ later)))
          fun other alike => ?_
        simp only [execute, prepares other alike, Access.on,
          preparesThen _ (alike.makes changes), Machine.makes_append]
  | special opcode a =>
    cases opcode with
    | jsr =>
      obtain ⟨⟨result, a⟩, changes, prepares⟩ := a.uniform_prepare machine
      cases result with
      | error fault =>
        refine ⟨(.error fault, .special .jsr a), changes, fun other alike => ?_⟩
        simp only [execute, prepares other alike]
        rfl
      | ok =>
        refine .after (uniform_call a (machine.makes changes)) fun other alike => ?_
        simp only [execute, prepares other alike]
        rfl

/-- Stepping over an instruction is uniform. -/
theorem uniform_pass (instruction : Instruction) : Uniform Prod.mk instruction.pass := by
  intro machine
  cases instruction with
  | basic opcode a b =>
    obtain ⟨a', changes, passes⟩ := a.uniform_pass machine
    obtain ⟨b', later, passesThen⟩ := b.uniform_pass (machine.makes changes)
    refine ⟨.basic opcode a' b', changes ++ later, fun other alike => ?_⟩
    simp only [pass, passes other alike, passesThen _ (alike.makes changes),
      Machine.makes_append]
  | special opcode a =>
    obtain ⟨a', changes, passes⟩ := a.uniform_pass machine
    refine ⟨.special opcode a', changes, fun other alike => ?_⟩
    simp only [pass, passes other alike]

end Instruction

end Dcpu16
