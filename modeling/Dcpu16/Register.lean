import Dcpu16.Text.Case

/-!
# Registers

Eleven registers: eight general ones, which operand codes name by an index, and PC, SP and O.
`Register.ofIndex?` and `Register.index?` are the two directions of the index;
`Register.ofName?` reads a name in any letter case.
-/
namespace Dcpu16

/-- The name of a register. -/
inductive Register
  | a
  | b
  | c
  | x
  | y
  | z
  | i
  | j
  /-- The program counter. -/
  | pc
  /-- The stack pointer. -/
  | sp
  /-- The overflow register. -/
  | o
  deriving DecidableEq

namespace Register

/-- The general registers in the order of their indices. -/
def general : List Register := [a, b, c, x, y, z, i, j]

/-- All registers, the general ones first. -/
def all : List Register := general ++ [pc, sp, o]

/-- The general register with this index; there is none above 7. -/
def ofIndex? (index : UInt8) : Option Register := general[index.toNat]?

/-- The index of a general register. PC, SP and O have none. -/
def index? : Register → Option UInt8
  | a => some 0
  | b => some 1
  | c => some 2
  | x => some 3
  | y => some 4
  | z => some 5
  | i => some 6
  | j => some 7
  | pc | sp | o => none

/-- The name in assembler text. -/
def name : Register → String
  | a => "A"
  | b => "B"
  | c => "C"
  | x => "X"
  | y => "Y"
  | z => "Z"
  | i => "I"
  | j => "J"
  | pc => "PC"
  | sp => "SP"
  | o => "O"

/-- The register that a name in any letter case stands for. -/
def ofName? (text : String) : Option Register :=
  let wanted := Text.capitals text
  all.find? fun register => register.name == wanted

/-- The index of the register found at an index is that index. -/
theorem index?_ofIndex? {index : UInt8} {register : Register}
    (found : ofIndex? index = some register) : register.index? = some index := by
  obtain ⟨bound, rfl⟩ := List.getElem?_eq_some_iff.1 found
  have small : index.toNat < 8 := bound
  have cases : index = 0 ∨ index = 1 ∨ index = 2 ∨ index = 3 ∨ index = 4 ∨ index = 5 ∨
      index = 6 ∨ index = 7 := by
    simp only [← UInt8.toNat_inj]
    simp
    omega
  rcases cases with rfl | rfl | rfl | rfl | rfl | rfl | rfl | rfl <;> rfl

end Register

end Dcpu16
