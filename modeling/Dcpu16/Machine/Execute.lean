import Dcpu16.Arithmetic
import Dcpu16.Instruction.Basic
import Dcpu16.Machine.Access

/-!
# Execution of an instruction

All operands are prepared before any is read, `a` before `b`. A move reads `b` and stores it in
`a`. Everything else reads `a`, then `b`; what a test finds decides whether the next
instruction is skipped, and what arithmetic gives is stored in `a`, before the overflow word is
stored in O. The first access that is not possible ends the execution where it is.

An instruction that is skipped only steps over its inline words (`Instruction.pass`).
-/
namespace Dcpu16

/-- What happens to the instruction that follows. -/
inductive Outcome
  | proceed
  /-- A test did not hold. -/
  | skipNext
  deriving DecidableEq

/-- The outcome of an execution, or why it ended early, with the instruction and the machine as
it leaves them. -/
structure Execution where
  /-- The outcome. -/
  result : Except Fault Outcome
  /-- The instruction, with what its operands have captured. -/
  instruction : Instruction
  /-- The machine. -/
  machine : Machine

namespace Instruction

/-- Store what arithmetic gives: the value in `a`, then the overflow word, if there is one, in
O. -/
def store (opcode : Opcode) (a b : Operand) (machine : Machine) (result : Result) : Execution :=
  match a.write machine result.value with
  | ⟨.error fault, a, machine⟩ => ⟨.error fault, .basic opcode a b, machine⟩
  | ⟨.ok (), a, machine⟩ =>
    let machine :=
      match result.overflow with
      | some overflow => machine.set .o overflow
      | none => machine
    ⟨.ok .proceed, .basic opcode a b, machine⟩

/-- Read `a`, then `b`, and go on with the values. -/
def readBoth (opcode : Opcode) (a b : Operand) (machine : Machine)
    (next : Operand → Operand → Machine → Word → Word → Execution) : Execution :=
  match a.read machine with
  | ⟨.error fault, a, machine⟩ => ⟨.error fault, .basic opcode a b, machine⟩
  | ⟨.ok x, a, machine⟩ =>
    match b.read machine with
    | ⟨.error fault, b, machine⟩ => ⟨.error fault, .basic opcode a b, machine⟩
    | ⟨.ok y, b, machine⟩ => next a b machine x y

/-- A basic instruction whose operands are prepared. -/
def perform (opcode : Opcode) (a b : Operand) (machine : Machine) : Execution :=
  match opcode.action with
  | .move =>
    match b.read machine with
    | ⟨.error fault, b, machine⟩ => ⟨.error fault, .basic opcode a b, machine⟩
    | ⟨.ok value, b, machine⟩ => store opcode a b machine ⟨value, none⟩
  | .test holds =>
    readBoth opcode a b machine fun a b machine x y =>
      ⟨.ok (if holds x y then .proceed else .skipNext), .basic opcode a b, machine⟩
  | .combine result =>
    readBoth opcode a b machine fun a b machine x y => store opcode a b machine (result x y)

/-- A subroutine call whose operand is prepared. PC, which stands on the last word of the
instruction, is pushed. -/
def call (a : Operand) (machine : Machine) : Execution :=
  match a.read machine with
  | ⟨.error fault, a, machine⟩ => ⟨.error fault, .special .jsr a, machine⟩
  | ⟨.ok target, a, machine⟩ =>
    let sp := machine.registers.sp - 1
    let machine := machine.set .sp sp
    let pc := machine.registers.pc
    ⟨.ok .proceed, .special .jsr a, (machine.write sp pc).jump target⟩

/-- Execute an instruction. -/
def execute : Instruction → Machine → Execution
  | .basic opcode a b, machine =>
    match a.prepare machine with
    | ⟨.error fault, a, machine⟩ => ⟨.error fault, .basic opcode a b, machine⟩
    | ⟨.ok (), a, machine⟩ =>
      match b.prepare machine with
      | ⟨.error fault, b, machine⟩ => ⟨.error fault, .basic opcode a b, machine⟩
      | ⟨.ok (), b, machine⟩ => perform opcode a b machine
  | .special .jsr a, machine =>
    match a.prepare machine with
    | ⟨.error fault, a, machine⟩ => ⟨.error fault, .special .jsr a, machine⟩
    | ⟨.ok (), a, machine⟩ => call a machine

/-- Step over an instruction without executing it. -/
def pass : Instruction → Machine → Instruction × Machine
  | .basic opcode a b, machine =>
    let (a, machine) := a.pass machine
    let (b, machine) := b.pass machine
    (.basic opcode a b, machine)
  | .special opcode a, machine =>
    let (a, machine) := a.pass machine
    (.special opcode a, machine)

end Instruction

end Dcpu16
