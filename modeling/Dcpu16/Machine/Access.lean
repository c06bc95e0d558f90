import Dcpu16.Instruction.Operand
import Dcpu16.Machine.Basic

/-!
# Access through operands

What an operand does to the machine. `Operand.prepare` comes first: it fetches the inline word
and the register that `[next word + register]` adds. `Operand.read` and `Operand.write` then go
to the place that the mode names. `POP` and `PUSH` move SP at the first access only, so that a
value can be read and written back at one place.

An access that the mode does not allow is a `Fault`; it changes nothing.
-/
namespace Dcpu16

/-- The direction of an access. -/
inductive Direction
  | read
  | write
  deriving DecidableEq

/-- The direction in words. -/
def Direction.name : Direction → String
  | read => "read"
  | write => "write"

/-- Why an access is not possible. -/
inductive Fault
  /-- The mode does not work in this direction. -/
  | refused (mode : Mode) (direction : Direction)
  /-- There is no general register with this index. No operand code leads here. -/
  | noRegister (index : UInt8)
  deriving DecidableEq

/-- The wording of a fault. -/
def Fault.message : Fault → String
  | .refused mode direction =>
    "invalid operation: cannot " ++ direction.name ++ " through " ++ mode.describe
  | .noRegister index => "no general register has index " ++ toString index.toNat

/-- What an access gives, or why it gives nothing, with the operand and the machine as it leaves
them. -/
structure Access (α : Type) where
  /-- What the access gives. -/
  result : Except Fault α
  /-- The operand, with what it has captured. -/
  operand : Operand
  /-- The machine. -/
  machine : Machine

namespace Operand

/-- Fetch the inline word from behind PC, where there is one. Nothing of an earlier execution
remains. -/
def fetch (operand : Operand) (machine : Machine) : Operand × Machine :=
  if operand.mode.takesWord then
    let machine := machine.advance
    let (nextWord, machine) := machine.read machine.registers.pc
    ({ operand with stackAddress := none, nextWord }, machine)
  else ({ operand with stackAddress := none }, machine)

/-- Get ready for the accesses of one execution. -/
def prepare (operand : Operand) (machine : Machine) : Access Unit :=
  let (operand, machine) := operand.fetch machine
  match operand.mode with
  | .indexed index =>
    match machine.general? index with
    | some registerValue => ⟨.ok (), { operand with registerValue }, machine⟩
    | none => ⟨.error (.noRegister index), operand, machine⟩
  | _ => ⟨.ok (), operand, machine⟩

/-- Step over the inline word of an operand that is not executed. Nothing is taken from
memory. -/
def pass (operand : Operand) (machine : Machine) : Operand × Machine :=
  if operand.mode.takesWord then
    let machine := machine.advance
    ({ operand with stackAddress := none, nextWord := machine.peek machine.registers.pc }, machine)
  else ({ operand with stackAddress := none }, machine)

/-- The stack cell of a `POP`: the cell that SP addresses, claimed at the first access, when SP
moves up. -/
def popAddress (operand : Operand) (machine : Machine) : Word × Operand × Machine :=
  match operand.stackAddress with
  | some address => (address, operand, machine)
  | none =>
    let address := machine.registers.sp
    (address, { operand with stackAddress := some address }, machine.set .sp (address + 1))

/-- The stack cell of a `PUSH`: the cell below the one that SP addresses, claimed at the first
access, when SP moves down. -/
def pushAddress (operand : Operand) (machine : Machine) : Word × Operand × Machine :=
  match operand.stackAddress with
  | some address => (address, operand, machine)
  | none =>
    let address := machine.registers.sp - 1
    (address, { operand with stackAddress := some address }, machine.set .sp address)

/-- The value of a cell. -/
def readCell (operand : Operand) (machine : Machine) (address : Word) : Access Word :=
  let (value, machine) := machine.read address
  ⟨.ok value, operand, machine⟩

/-- The value of the operand. -/
def read (operand : Operand) (machine : Machine) : Access Word :=
  match operand.mode with
  | .register index =>
    match machine.general? index with
    | some value => ⟨.ok value, operand, machine⟩
    | none => ⟨.error (.noRegister index), operand, machine⟩
  | .indirect index =>
    match machine.general? index with
    | some address => operand.readCell machine address
    | none => ⟨.error (.noRegister index), operand, machine⟩
  | .indexed _ => operand.readCell machine operand.indexedAddress
  | .pop =>
    let (address, operand, machine) := operand.popAddress machine
    operand.readCell machine address
  | .peek => operand.readCell machine machine.registers.sp
  | .push => ⟨.error (.refused operand.mode .read), operand, machine⟩
  | .stackPointer => ⟨.ok machine.registers.sp, operand, machine⟩
  | .programCounter => ⟨.ok machine.registers.pc, operand, machine⟩
  | .overflow => ⟨.ok machine.registers.o, operand, machine⟩
  | .absolute => operand.readCell machine operand.nextWord
  | .immediate => ⟨.ok operand.nextWord, operand, machine⟩
  | .literal value => ⟨.ok value, operand, machine⟩

/-- Store a value in the place of the operand. Storing in PC is a jump. -/
def write (operand : Operand) (machine : Machine) (value : Word) : Access Unit :=
  match operand.mode with
  | .register index =>
    match Register.ofIndex? index with
    | some register => ⟨.ok (), operand, machine.set register value⟩
    | none => ⟨.error (.noRegister index), operand, machine⟩
  | .indirect index =>
    match machine.general? index with
    | some address => ⟨.ok (), operand, machine.write address value⟩
    | none => ⟨.error (.noRegister index), operand, machine⟩
  | .indexed _ => ⟨.ok (), operand, machine.write operand.indexedAddress value⟩
  | .pop =>
    let (address, operand, machine) := operand.popAddress machine
    ⟨.ok (), operand, machine.write address value⟩
  | .peek => ⟨.ok (), operand, machine.write machine.registers.sp value⟩
  | .push =>
    let (address, operand, machine) := operand.pushAddress machine
    ⟨.ok (), operand, machine.write address value⟩
  | .stackPointer => ⟨.ok (), operand, machine.set .sp value⟩
  | .programCounter => ⟨.ok (), operand, machine.jump value⟩
  | .overflow => ⟨.ok (), operand, machine.set .o value⟩
  | .absolute => ⟨.ok (), operand, machine.write operand.nextWord value⟩
  | .immediate | .literal _ => ⟨.error (.refused operand.mode .write), operand, machine⟩

end Operand

end Dcpu16
