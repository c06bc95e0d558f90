import Dcpu16.Machine.Access
import Dcpu16.Proofs.Encoding
import Dcpu16.Proofs.Machine.Contents

/-!
# Where an operand is located

An operand with its inline word has a place and a value in any contents (`Operand.place?`,
`Operand.value`). What an execution does with the operand comes down to these: a prepared operand
that does not move SP is read and written in the place that it has in the contents of the machine
(`Operand.read_of_still`, `Operand.exists_write_eq`).
-/
namespace Dcpu16

/-- Does an access through the mode move SP? -/
def Mode.movesStack : Mode → Bool
  | pop | push => true
  | _ => false

/-- A mode that does not move SP is neither POP nor PUSH. -/
theorem Mode.ne_stack_of_still {mode : Mode} (still : mode.movesStack = false) :
    mode ≠ .pop ∧ mode ≠ .push := by
  constructor
  · rintro rfl
    cases still
  · rintro rfl
    cases still

/-- Is the value in the program itself, where nothing can be stored through the mode? -/
def Mode.isConstant : Mode → Bool
  | immediate | literal _ => true
  | _ => false

/-- A constant can be read. -/
theorem Mode.ne_push_of_isConstant {mode : Mode} (constant : mode.isConstant = true) :
    mode ≠ .push := by
  rintro rfl
  cases constant

/-- The register that the mode stands for, if it stands for one. -/
def Mode.register? : Mode → Option Register
  | register index => Register.ofIndex? index
  | stackPointer => some .sp
  | programCounter => some .pc
  | overflow => some .o
  | indirect _ | indexed _ | pop | peek | push | absolute | immediate | literal _ => none

/-- One mode stands for PC. -/
theorem Mode.register?_eq_pc_iff {mode : Mode} :
    mode.register? = some .pc ↔ mode = .programCounter := by
  cases mode with
  | register index =>
    have other : Register.ofIndex? index ≠ some .pc :=
      fun found => Register.ne_pc_of_ofIndex? found rfl
    simp [Mode.register?, other]
  | _ => simp [Mode.register?]

/-- One mode stands for O. -/
theorem Mode.register?_eq_o_iff {mode : Mode} : mode.register? = some .o ↔ mode = .overflow := by
  cases mode with
  | register index =>
    have other : Register.ofIndex? index ≠ some .o :=
      fun found => Register.ne_of_ofIndex? found rfl rfl
    simp [Mode.register?, other]
  | _ => simp [Mode.register?]

/-- One mode stands for SP. -/
theorem Mode.register?_eq_sp_iff {mode : Mode} :
    mode.register? = some .sp ↔ mode = .stackPointer := by
  cases mode with
  | register index =>
    have other : Register.ofIndex? index ≠ some .sp :=
      fun found => Register.ne_sp_of_ofIndex? found rfl
    simp [Mode.register?, other]
  | _ => simp [Mode.register?]

namespace Operand

/-- The place of the operand, unless its value is in the program itself. -/
def place? (operand : Operand) (contents : Contents) : Option Place :=
  match operand.mode with
  | .register index => (Register.ofIndex? index).map .register
  | .indirect index =>
    (Register.ofIndex? index).map fun register => .cell (contents (.register register))
  | .indexed index =>
    (Register.ofIndex? index).map fun register =>
      .cell (operand.nextWord + contents (.register register))
  | .pop | .peek => some (.cell (contents (.register .sp)))
  | .push => some (.cell (contents (.register .sp) - 1))
  | .stackPointer => some (.register .sp)
  | .programCounter => some (.register .pc)
  | .overflow => some (.register .o)
  | .absolute => some (.cell operand.nextWord)
  | .immediate | .literal _ => none

/-- The value of the operand: what its place holds, or what the program says. -/
def value (operand : Operand) (contents : Contents) : Word :=
  match operand.mode with
  | .immediate => operand.nextWord
  | .literal value => value
  | _ => ((operand.place? contents).map contents).getD 0

/-- No cell that the operand is located in is taken from the keyboard. -/
def OffKeyboard (operand : Operand) (contents : Contents) : Prop :=
  ∀ address, operand.place? contents = some (.cell address) →
    Window.keyboard.contains address = false

/-- An operand is prepared for the accesses of one execution: it has its inline word, and the
content of the register that it adds to this. -/
structure Prepared (operand ready : Operand) (contents : Contents) : Prop where
  mode_eq : ready.mode = operand.mode
  nextWord_eq : ready.nextWord = operand.nextWord
  captured : ∀ index, ready.mode = .indexed index →
    ∃ register, Register.ofIndex? index = some register ∧
      ready.registerValue = contents (.register register)

section Accesses

variable {operand ready : Operand} {contents : Contents} {machine : Machine}

/-- An operand that has a place has the value that is there. -/
theorem value_of_place? {place : Place} (located : operand.place? contents = some place) :
    operand.value contents = contents place := by
  unfold value
  split
  · next mode => simp [place?, mode] at located
  · next mode => simp [place?, mode] at located
  · rw [located]
    rfl

/-- The place of an operand is a register if and only if its mode stands for this register. -/
theorem place_eq_register_iff {place : Place} (located : operand.place? contents = some place)
    (register : Register) :
    .register register = place ↔ operand.mode.register? = some register := by
  unfold place? at located
  cases mode : operand.mode with
  | register index =>
    rw [mode] at located
    obtain ⟨found, index, rfl⟩ := Option.map_eq_some_iff.mp located
    simp [Mode.register?, index, eq_comm]
  | indirect index | indexed index =>
    rw [mode] at located
    obtain ⟨found, -, rfl⟩ := Option.map_eq_some_iff.mp located
    simp [Mode.register?]
  | immediate | literal => simp [mode] at located
  | _ =>
    simp only [mode, Option.some.injEq] at located
    subst located
    simp [Mode.register?, eq_comm]

/-- A prepared operand that does not move SP is read in its place. -/
theorem read_of_still (prepared : Prepared operand ready machine.contents)
    (coded : operand.mode.Coded) (still : operand.mode.movesStack = false) :
    ready.read machine =
      match operand.place? machine.contents with
      | some (.cell address) => ready.readCell machine address
      | _ => ⟨.ok (operand.value machine.contents), ready, machine⟩ := by
  unfold read
  rw [prepared.mode_eq]
  cases mode : operand.mode with
  | register index =>
    rw [mode] at coded
    obtain ⟨register, found⟩ := Register.exists_ofIndex? coded
    simp [Machine.general?, found, value, place?, mode, Machine.contents]
  | indirect index =>
    rw [mode] at coded
    obtain ⟨register, found⟩ := Register.exists_ofIndex? coded
    simp [Machine.general?, found, place?, mode, Machine.contents]
  | indexed index =>
    obtain ⟨register, found, captured⟩ := prepared.captured index (prepared.mode_eq.trans mode)
    simp [indexedAddress, captured, prepared.nextWord_eq, place?, mode, found]
  | pop | push => rw [mode] at still; cases still
  | absolute | immediate => simp [value, place?, mode, prepared.nextWord_eq]
  | literal word => simp [value, place?, mode]
  | peek | stackPointer | programCounter | overflow =>
    simp [value, place?, mode, Machine.contents, Machine.get, RegisterFile.get]

/-- An operand that something can be stored in has a place. -/
theorem exists_place? (coded : operand.mode.Coded) (storable : operand.mode.isConstant = false)
    (contents : Contents) : ∃ place, operand.place? contents = some place := by
  unfold place?
  cases mode : operand.mode with
  | register index | indirect index | indexed index =>
    rw [mode] at coded
    obtain ⟨register, found⟩ := Register.exists_ofIndex? coded
    exact ⟨_, by simp only [found]; rfl⟩
  | immediate | literal => rw [mode] at storable; cases storable
  | _ => exact ⟨_, rfl⟩

/-- The place of an operand depends on the general registers, and for the stack modes on SP. -/
theorem place?_congr {other : Contents}
    (general : ∀ register, register ≠ .pc → register ≠ .sp →
      other (.register register) = contents (.register register))
    (stack : operand.mode = .pop ∨ operand.mode = .peek ∨ operand.mode = .push →
      other (.register .sp) = contents (.register .sp)) :
    operand.place? other = operand.place? contents := by
  have indexed {index : UInt8} {register : Register}
      (found : Register.ofIndex? index = some register) :
      other (.register register) = contents (.register register) :=
    general register (Register.ne_pc_of_ofIndex? found) (Register.ne_sp_of_ofIndex? found)
  unfold place?
  cases mode : operand.mode with
  | indirect index | indexed index =>
    cases found : Register.ofIndex? index with
    | none => simp [found]
    | some register => simp [found, indexed found]
  | pop | peek | push => simp [stack, mode]
  | _ => rfl

/-- The place of an operand does not depend on PC. -/
theorem place?_update (operand : Operand) (contents : Contents) (pc : Word) :
    operand.place? (Function.update contents (.register .pc) pc) = operand.place? contents := by
  apply place?_congr
  · intro register other _
    exact Function.update_of_ne (by simpa using other) ..
  · intro _
    exact Function.update_of_ne (by simp) ..

/-- Whether an operand takes a key does not depend on PC. -/
theorem OffKeyboard.update (outside : operand.OffKeyboard contents) (pc : Word) :
    operand.OffKeyboard (Function.update contents (.register .pc) pc) := by
  intro address located
  rw [place?_update] at located
  exact outside address located

/-- A prepared operand is written in its place. Only a jump sets the mark. -/
theorem exists_write_eq (prepared : Prepared operand ready machine.contents)
    (still : operand.mode.movesStack = false) {place : Place}
    (located : operand.place? machine.contents = some place) (new : Word) :
    ∃ next, ready.write machine new = ⟨.ok (), ready, next⟩ ∧
      next.contents = Function.update machine.contents place new ∧
      next.registers.jumped = (machine.registers.jumped || decide (.register .pc = place)) := by
  unfold write
  rw [prepared.mode_eq]
  unfold place? at located
  cases mode : operand.mode with
  | register index =>
    rw [mode] at located
    obtain ⟨register, found, rfl⟩ := Option.map_eq_some_iff.mp located
    have other : register ≠ .pc := Register.ne_pc_of_ofIndex? found
    simp only [found]
    exact ⟨_, rfl, machine.contents_set register new, by simp [other.symm]⟩
  | indirect index =>
    rw [mode] at located
    obtain ⟨register, found, rfl⟩ := Option.map_eq_some_iff.mp located
    simp only [Machine.general?, found, Option.map_some]
    exact ⟨_, rfl, machine.contents_write _ new, by simp⟩
  | indexed index =>
    obtain ⟨register, found, captured⟩ := prepared.captured index (prepared.mode_eq.trans mode)
    simp only [mode, found, Option.map_some, Option.some.injEq] at located
    subst located
    simp only [indexedAddress, captured, prepared.nextWord_eq]
    exact ⟨_, rfl, machine.contents_write _ new, by simp⟩
  | pop | push => rw [mode] at still; cases still
  | peek =>
    simp only [mode, Option.some.injEq] at located
    subst located
    exact ⟨_, rfl, machine.contents_write _ new, by simp⟩
  | absolute =>
    simp only [mode, Option.some.injEq] at located
    subst located
    exact ⟨_, rfl, by rw [prepared.nextWord_eq]; exact machine.contents_write _ new, by simp⟩
  | immediate | literal => simp [mode] at located
  | stackPointer | overflow =>
    simp only [mode, Option.some.injEq] at located
    subst located
    exact ⟨_, rfl, machine.contents_set _ new, by simp⟩
  | programCounter =>
    simp only [mode, Option.some.injEq] at located
    subst located
    exact ⟨_, rfl, machine.contents_jump new, by simp [Machine.jump, Machine.markJump]⟩

end Accesses

end Operand

end Dcpu16
