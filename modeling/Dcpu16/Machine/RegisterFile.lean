import Dcpu16.Register
import Dcpu16.Word

/-!
# Register file

The contents of the eleven registers, and whether PC has been written as the effect of an
instruction. `RegisterFile.get` is the view of the contents and `RegisterFile.get_set` says
what a change does to it.
-/
namespace Dcpu16

/-- The contents of the registers. -/
structure RegisterFile where
  a : Word := 0
  b : Word := 0
  c : Word := 0
  x : Word := 0
  y : Word := 0
  z : Word := 0
  i : Word := 0
  j : Word := 0
  /-- The program counter. -/
  pc : Word := 0
  /-- The stack pointer. It starts at 0, so the first push goes to the last cell. -/
  sp : Word := 0
  /-- The overflow register. -/
  o : Word := 0
  /-- Has an instruction set PC, so that it must not be moved on? -/
  jumped : Bool := false
  deriving DecidableEq

namespace RegisterFile

/-- The content of a register. -/
def get (file : RegisterFile) : Register → Word
  | .a => file.a
  | .b => file.b
  | .c => file.c
  | .x => file.x
  | .y => file.y
  | .z => file.z
  | .i => file.i
  | .j => file.j
  | .pc => file.pc
  | .sp => file.sp
  | .o => file.o

/-- The file with one register changed. -/
def set (file : RegisterFile) (register : Register) (value : Word) : RegisterFile :=
  match register with
  | .a => { file with a := value }
  | .b => { file with b := value }
  | .c => { file with c := value }
  | .x => { file with x := value }
  | .y => { file with y := value }
  | .z => { file with z := value }
  | .i => { file with i := value }
  | .j => { file with j := value }
  | .pc => { file with pc := value }
  | .sp => { file with sp := value }
  | .o => { file with o := value }

/-- A changed register holds what it was changed to; the others are as before. -/
@[simp] theorem get_set (file : RegisterFile) (register other : Register) (value : Word) :
    (file.set register value).get other = if other = register then value else file.get other := by
  cases register <;> cases other <;> rfl

/-- Changing a register does not mark a jump. -/
@[simp] theorem jumped_set (file : RegisterFile) (register : Register) (value : Word) :
    (file.set register value).jumped = file.jumped := by
  cases register <;> rfl

/-- The contents of the general registers in the order of their indices. -/
def general (file : RegisterFile) : List Word := Register.general.map file.get

/-- All registers with their contents, the general ones first. -/
def contents (file : RegisterFile) : List (Register × Word) :=
  Register.all.map fun register => (register, file.get register)

end RegisterFile

end Dcpu16
