import Dcpu16.Image
import Dcpu16.Machine.Announcement
import Dcpu16.Machine.Ram
import Dcpu16.Machine.RegisterFile
import Dcpu16.Machine.Window

/-!
# The machine

Registers and memory, with those who listen to their changes. All changes go through the
operations here, which announce them; the `journal` holds everything that has been delivered.
Reading a cell of the keyboard window takes the key out of it. `Machine.peek` looks at a cell
without that.
-/
namespace Dcpu16

/-- Registers, memory, and listeners with what they have been told. -/
structure Machine where
  /-- The registers. -/
  registers : RegisterFile := {}
  /-- The memory. -/
  ram : Ram := .blank
  /-- Who listens to registers. -/
  registerListeners : Listeners := {}
  /-- Who listens to memory. -/
  memoryListeners : Listeners := {}
  /-- What has been delivered, the last at the end. -/
  journal : Array (String × Announcement) := #[]

namespace Machine

/-- A machine in which everything is 0 and to which nobody listens. -/
def fresh : Machine := {}

/-- The listeners that an announcement is for. -/
def audience (machine : Machine) : Announcement → Listeners
  | .memory _ => machine.memoryListeners
  | .register _ => machine.registerListeners

/-- Tell the listeners. -/
def announce (machine : Machine) (announcement : Announcement) : Machine :=
  { machine with
    journal := machine.journal ++ ((machine.audience announcement).deliver announcement).toArray }

/-- Let a listener hear of registers from now on. -/
def listenToRegisters (machine : Machine) (name : String) : Machine :=
  { machine with registerListeners := machine.registerListeners.subscribe name }

/-- Let a listener hear of memory from now on. -/
def listenToMemory (machine : Machine) (name : String) : Machine :=
  { machine with memoryListeners := machine.memoryListeners.subscribe name }

/-! ## Registers -/

/-- The content of a register. -/
def get (machine : Machine) (register : Register) : Word := machine.registers.get register

/-- The machine with another content of a register, unannounced. -/
def withRegister (machine : Machine) (register : Register) (value : Word) : Machine :=
  { machine with registers := machine.registers.set register value }

/-- Change a register, announced before and after. -/
def set (machine : Machine) (register : Register) (value : Word) : Machine :=
  ((machine.announce (.register (.will register value))).withRegister register value).announce
    (.register (.did register value))

/-- The content of the general register with this index. -/
def general? (machine : Machine) (index : UInt8) : Option Word :=
  (Register.ofIndex? index).map machine.get

/-- Move PC to the next cell. -/
def advance (machine : Machine) : Machine := machine.set .pc (machine.registers.pc + 1)

/-- Mark that PC has been set by an instruction, or that this has been dealt with. -/
def markJump (machine : Machine) (jumped : Bool) : Machine :=
  { machine with registers := { machine.registers with jumped } }

/-- Set PC as the effect of an instruction. -/
def jump (machine : Machine) (address : Word) : Machine := (machine.set .pc address).markJump true

/-- Has an instruction set PC? The mark is removed. -/
def takeJump (machine : Machine) : Bool × Machine :=
  let jumped := machine.registers.jumped
  (jumped, machine.markJump false)

/-- Set all registers to 0. -/
def clearRegisters (machine : Machine) : Machine :=
  { machine with registers := {} }.announce (.register .reset)

/-! ## Memory -/

/-- The content of a cell. -/
def peek (machine : Machine) (address : Word) : Word := machine.ram.peek address

/-- The machine with another content of a cell, unannounced. -/
def withCell (machine : Machine) (address value : Word) : Machine :=
  { machine with ram := machine.ram.set address value }

/-- Announce a change of a cell as one of its window, if it is in a window. -/
def announceWindow (machine : Machine) (address value : Word) : Machine :=
  match Window.of? address with
  | some .video => machine.announce (.memory (.video address value))
  | some .keyboard => machine.announce (.memory (.keyboard address value))
  | none => machine

/-- Change a cell, announced before and after, and in between if it is in a window. -/
def write (machine : Machine) (address value : Word) : Machine :=
  (((machine.announce (.memory (.will address value))).withCell address value).announceWindow
    address value).announce (.memory (.did address value))

/-- Read a cell as a program does: a key is taken out of its cell. -/
def read (machine : Machine) (address : Word) : Word × Machine :=
  let value := machine.peek address
  if Window.keyboard.contains address then (value, machine.write address 0) else (value, machine)

/-- Set all cells to 0. -/
def clearMemory (machine : Machine) : Machine :=
  { machine with ram := .blank }.announce (.memory .reset)

/-- Write words to successive cells, as a program. -/
def writeProgram (machine : Machine) (address : Word) : List Word → Machine
  | [] => machine
  | word :: words =>
    ((machine.write address word).announce (.memory (.loaded address word))).writeProgram
      (address + 1) words

/-- Replace the memory by a program that starts at address 0. A program with more words than
there are cells is refused before anything is changed. -/
def load (machine : Machine) (program : List Word) : Except LoadError Unit × Machine :=
  if Ram.size < program.length then (.error (.tooLarge program.length), machine)
  else (.ok (), machine.clearMemory.writeProgram 0 program)

/-- Put a key into the first free cell of the keyboard window. The answer says whether there was
one. Key 0 is never taken, because it marks a free cell. -/
def pressKey (machine : Machine) (key : Word) : Bool × Machine :=
  if key = 0 then (false, machine)
  else
    match Window.keys.find? fun address => machine.peek address == 0 with
    | some address => (true, machine.write address key)
    | none => (false, machine)

end Machine

end Dcpu16
