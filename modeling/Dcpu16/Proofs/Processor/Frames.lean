import Dcpu16.Proofs.Machine.StackPointer
import Dcpu16.Proofs.Processor.Updates

/-!
# Frames

What an instruction leaves alone. It stores in one place at most, its destination
(`Instruction.destination?`), and an operation with an overflow stores in O besides. Reading takes
the keys out of the cells that are read (`Instruction.ReadsCell`) and moves SP. No other register
changes but PC, and no other cell (`Instruction.Confined`, `Processor.frame_step`).
-/
namespace Dcpu16

/-- Does the mode stand for a memory cell? -/
def Mode.inMemory : Mode → Bool
  | indirect _ | indexed _ | pop | peek | push | absolute => true
  | register _ | stackPointer | programCounter | overflow | immediate | literal _ => false

/-- Does the opcode store an overflow in O? -/
def Opcode.overflows : Opcode → Bool
  | add | sub | mul | div | shl | shr => true
  | set | mod | and | bor | xor | ife | ifn | ifg | ifb => false

/-- The other opcodes have no overflow. -/
theorem Opcode.overflow_result {opcode : Opcode} (without : opcode.overflows = false) (x y : Word) :
    (opcode.result x y).overflow = none := by
  cases opcode with
  | add | sub | mul | div | shl | shr => cases without
  | _ => rfl

namespace Operand

section Places

variable {a b operand : Operand} {contents : Contents} {place : Place}

/-- An operand that is located in a cell has a mode that stands for one. -/
theorem inMemory_of_place? {address : Word}
    (located : operand.place? contents = some (.cell address)) :
    operand.mode.inMemory = true := by
  unfold place? at located
  cases mode : operand.mode with
  | register index =>
    rw [mode] at located
    obtain ⟨register, -, other⟩ := Option.map_eq_some_iff.mp located
    cases other
  | stackPointer | programCounter | overflow | immediate | literal => simp [mode] at located
  | _ => rfl

/-- Storing through an operand of which no cell has been claimed changes its place, and maybe SP. -/
theorem storing_of_ne (elsewhere : operand.place? contents ≠ some place)
    (pointer : place ≠ .register .sp) (value : Word) :
    operand.storing none contents value place = contents place := by
  unfold storing
  cases located : operand.place? contents with
  | none => rfl
  | some stored =>
    have other : place ≠ stored := by
      rintro rfl
      exact elsewhere located
    exact (Function.update_of_ne other ..).trans (claiming_of_ne pointer)

/-- Storing a result changes the destination, and maybe SP. -/
theorem storing_of_ne_destination (elsewhere : a.destination? b contents ≠ some place)
    (pointer : place ≠ .register .sp) (value : Word) :
    a.storing (a.claim? contents) (b.reading (a.reading contents)) value place =
      b.reading (a.reading contents) place := by
  unfold destination? at elsewhere
  cases claimed : a.claim? contents with
  | some address =>
    rw [claimed] at elsewhere
    have other : place ≠ .cell address := by
      rintro rfl
      exact elsewhere rfl
    exact Function.update_of_ne other ..
  | none =>
    rw [claimed] at elsewhere
    exact storing_of_ne elsewhere pointer value

/-- The destination of a result is the place that `a` has before the operands are read or after
that. -/
theorem exists_place?_of_destination? (destination : a.destination? b contents = some place) :
    ∃ other, a.place? other = some place := by
  unfold destination? at destination
  cases claimed : a.claim? contents with
  | some address =>
    rw [claimed] at destination
    refine ⟨contents, ?_⟩
    unfold claim? at claimed
    split_ifs at claimed with pops
    cases claimed
    simpa [place?, pops] using destination
  | none =>
    rw [claimed] at destination
    exact ⟨_, destination⟩

end Places

end Operand

namespace Instruction

/-- Where an instruction stores a value, from contents in which its words have been fetched. A call
stores in the cell below the one that SP addresses, and a comparison nowhere. -/
def destination? : Instruction → Contents → Option Place
  | .basic opcode a b, contents =>
    if opcode.isConditional then none
    else if opcode = .set then a.place? (b.reading contents)
    else a.destination? b contents
  | .special .jsr a, contents => some (.cell (a.reading contents (.register .sp) - 1))

/-- The instruction stores a result through an operand that stands for the register. -/
def StoresIn (instruction : Instruction) (register : Register) : Prop :=
  ∃ mode, instruction.storesThrough mode = true ∧ mode.register? = some register

/-- Does the instruction store an overflow in O? -/
def overflows : Instruction → Bool
  | .basic opcode _ _ => opcode.overflows
  | .special _ _ => false

/-- The instruction reads a cell, as one of its words or as an operand. -/
def ReadsCell (instruction : Instruction) (before : Contents) (address : Word) : Prop :=
  let pc := before (.register .pc)
  address ∈ [pc, pc + 1, pc + 2].take instruction.size ∨
    some (.cell address) ∈
      Operand.placesRead instruction.readOrder (instruction.fetched before)

instance (instruction : Instruction) (before : Contents) (address : Word) :
    Decidable (instruction.ReadsCell before address) :=
  inferInstanceAs (Decidable (_ ∨ _))

/-- An executed instruction has changed nothing but what it may change, PC and SP apart. -/
structure Confined (instruction : Instruction) (before after : Contents) : Prop where
  /-- At most one cell outside the keyboard window changes. -/
  cells : {address | Window.keyboard.contains address = false ∧
    after (.cell address) ≠ before (.cell address)}.Subsingleton
  /-- Outside the keyboard window, a cell changes only as the destination. -/
  cell : ∀ address, Window.keyboard.contains address = false →
    after (.cell address) ≠ before (.cell address) →
    instruction.destination? (instruction.fetched before) = some (.cell address)
  /-- The destination is a cell only for a call, which stores at the new SP, and where a value is
  stored through a mode that stands for a cell. -/
  destination : ∀ address,
    instruction.destination? (instruction.fetched before) = some (.cell address) →
    instruction.isCall = true ∧ address = after (.register .sp) ∨
      ∃ mode, instruction.storesThrough mode = true ∧ mode.inMemory = true
  /-- In the keyboard window, a cell other than the destination is set to 0 if it is read, and does
  not change otherwise. -/
  key : ∀ address, Window.keyboard.contains address = true →
    instruction.destination? (instruction.fetched before) ≠ some (.cell address) →
    after (.cell address) =
      if instruction.ReadsCell before address then 0 else before (.cell address)
  /-- At most one general register changes. -/
  registers : {register | register ∈ Register.general ∧
    after (.register register) ≠ before (.register register)}.Subsingleton
  /-- A general register changes only where a result is stored in it. -/
  register : ∀ register ∈ Register.general,
    after (.register register) ≠ before (.register register) → instruction.StoresIn register
  /-- O changes only by an overflow, or where a result is stored through its mode. -/
  overflow : after (.register .o) ≠ before (.register .o) →
    instruction.overflows = true ∨ instruction.storesThrough .overflow = true

section After

variable {instruction : Instruction} {before contents : Contents}

/-- An instruction changes no place but its destination, PC, SP and O, apart from what reading its
operands has changed. -/
theorem after_of_ne {place : Place} (elsewhere : instruction.destination? contents ≠ some place)
    (counter : place ≠ .register .pc) (pointer : place ≠ .register .sp)
    (overflow : place = .register .o → instruction.overflows = false) :
    instruction.after contents place =
      instruction.readOrder.foldl (fun contents operand => operand.reading contents) contents
        place := by
  cases instruction with
  | basic opcode a b =>
    rw [foldl_readOrder]
    cases tests : opcode.isConditional with
    | true => simp only [after, tests, if_true]
    | false =>
      simp only [destination?, tests, Bool.false_eq_true, if_false] at elsewhere
      have apart := notMem_overflow (computed opcode a b contents).overflow
        fun o => Opcode.overflow_result (overflow o) _ _
      simp only [after, tests, Bool.false_eq_true, if_false, assign_of_notMem apart]
      by_cases moves : opcode = .set
      · rw [if_pos moves] at elsewhere ⊢
        rw [firstRead, if_pos moves]
        exact Operand.storing_of_ne elsewhere pointer _
      · rw [if_neg moves] at elsewhere ⊢
        rw [firstRead, if_neg moves]
        exact Operand.storing_of_ne_destination elsewhere pointer _
  | special opcode a =>
    cases opcode
    have other : place ≠ .cell (a.reading contents (.register .sp) - 1) := by
      rintro rfl
      exact elsewhere rfl
    exact assign_of_notMem (by simp [pointer, counter, other])

/-- What an instruction stores goes to the place of the operand that it stores through. The only
other destination is the cell at the new SP, for a call. -/
theorem destination?_cases {place : Place}
    (destination : instruction.destination? contents = some place) :
    instruction.isCall = true ∧ place = .cell (instruction.after contents (.register .sp)) ∨
      ∃ operand other, instruction.storesThrough operand.mode = true ∧
        Operand.place? operand other = some place := by
  cases instruction with
  | basic opcode a b =>
    simp only [destination?] at destination
    split_ifs at destination with tests moves
    · exact .inr ⟨a, _, by simp [storesThrough, tests], destination⟩
    · obtain ⟨other, located⟩ := Operand.exists_place?_of_destination? destination
      exact .inr ⟨a, other, by simp [storesThrough, tests], located⟩
  | special opcode a =>
    cases opcode
    cases destination
    exact .inl ⟨rfl, by simp [after]⟩

/-- A register is the destination only of an instruction that stores in it. -/
theorem storesIn_of_destination? {register : Register}
    (destination : instruction.destination? contents = some (.register register)) :
    instruction.StoresIn register := by
  obtain ⟨-, cell⟩ | ⟨operand, other, stores, located⟩ := destination?_cases destination
  · cases cell
  · exact ⟨operand.mode, stores, (Operand.place_eq_register_iff located register).mp rfl⟩

/-- An instruction stores in one register at most. -/
theorem StoresIn.unique {left right : Register}
    (first : instruction.StoresIn left) (second : instruction.StoresIn right) : left = right := by
  obtain ⟨mode, stores, stands⟩ := first
  obtain ⟨other, storesOther, standsOther⟩ := second
  cases instruction with
  | basic opcode a b =>
    have same : mode = other := by
      simp only [storesThrough, Bool.and_eq_true, decide_eq_true_eq] at stores storesOther
      exact stores.2.symm.trans storesOther.2
    subst same
    exact Option.some.inj (stands.symm.trans standsOther)
  | special opcode a => cases stores

/-- A register other than PC and SP changes only by an overflow, or where a result is stored in
it. -/
theorem storesIn_of_changed {register : Register} (counter : register ≠ .pc)
    (pointer : register ≠ .sp)
    (changed : instruction.after (instruction.fetched before) (.register register) ≠
      before (.register register)) :
    (register = .o ∧ instruction.overflows = true) ∨
      instruction.StoresIn register := by
  by_contra neither
  rw [not_or, not_and] at neither
  apply changed
  have elsewhere : instruction.destination? (instruction.fetched before) ≠
      some (.register register) := mt storesIn_of_destination? neither.2
  have overflow (o : Place.register register = .register .o) : instruction.overflows = false := by
    cases o
    simpa using neither.1 rfl
  rw [after_of_ne elsewhere (by simpa using counter) (by simpa using pointer) overflow,
    Operand.foldl_reading_register _ _ pointer, fetched_register counter]

/-- A cell other than the destination is set to 0 if it is in the keyboard window and read, and does
not change otherwise. -/
theorem after_cell {address : Word}
    (elsewhere : instruction.destination? (instruction.fetched before) ≠ some (.cell address)) :
    instruction.after (instruction.fetched before) (.cell address) =
      if instruction.ReadsCell before address ∧ Window.keyboard.contains address = true then 0
      else before (.cell address) := by
  rw [after_of_ne elsewhere (by simp) (by simp) (by simp), Operand.foldl_reading_cell_eq,
    fetched_cell, ← ite_or]
  exact if_congr (by rw [ReadsCell, or_and_right, or_comm]) rfl rfl

/-- Outside the keyboard window, a cell that changes is the destination. -/
theorem destination?_of_changed {address : Word}
    (outside : Window.keyboard.contains address = false)
    (changed : instruction.after (instruction.fetched before) (.cell address) ≠
      before (.cell address)) :
    instruction.destination? (instruction.fetched before) = some (.cell address) := by
  by_contra other
  apply changed
  rw [after_cell other, if_neg (by simp [outside])]

/-- A general register changes only where a result is stored in it. -/
theorem storesIn_of_general {register : Register} (general : register ∈ Register.general)
    (changed : instruction.after (instruction.fetched before) (.register register) ≠
      before (.register register)) : instruction.StoresIn register := by
  have special : register ≠ .pc ∧ register ≠ .sp ∧ register ≠ .o := by
    refine ⟨?_, ?_, ?_⟩ <;>
    · rintro rfl
      exact absurd general (by decide)
  exact (storesIn_of_changed special.1 special.2.1 changed).resolve_left
    fun overflow => special.2.2 overflow.1

/-- PC apart, what an instruction leaves has changed in nothing but what it may change. -/
theorem confined_of_after {after : Contents}
    (elsewhere : ∀ place, place ≠ .register .pc →
      after place = instruction.after (instruction.fetched before) place) :
    instruction.Confined before after := by
  have cell : ∀ address, Window.keyboard.contains address = false →
      after (.cell address) ≠ before (.cell address) →
      instruction.destination? (instruction.fetched before) = some (.cell address) := by
    intro address outside changed
    rw [elsewhere _ (by simp)] at changed
    exact destination?_of_changed outside changed
  have register : ∀ register ∈ Register.general,
      after (.register register) ≠ before (.register register) →
      instruction.StoresIn register := by
    intro register general changed
    have counter : register ≠ .pc := by
      rintro rfl
      exact absurd general (by decide)
    rw [elsewhere _ (by simpa using counter)] at changed
    exact storesIn_of_general general changed
  constructor
  · intro first firstChanged second secondChanged
    have same := (cell first firstChanged.1 firstChanged.2).symm.trans
      (cell second secondChanged.1 secondChanged.2)
    cases same
    rfl
  · exact cell
  · intro address destination
    obtain ⟨calls, pointer⟩ | ⟨operand, other, stores, located⟩ := destination?_cases destination
    · cases pointer
      exact .inl ⟨calls, (elsewhere _ (by simp)).symm⟩
    · exact .inr ⟨operand.mode, stores, Operand.inMemory_of_place? located⟩
  · intro address key other
    rw [elsewhere _ (by simp), after_cell other]
    exact if_congr (and_iff_left key) rfl rfl
  · intro first firstChanged second secondChanged
    exact (register first firstChanged.1 firstChanged.2).unique
      (register second secondChanged.1 secondChanged.2)
  · exact register
  · intro changed
    rw [elsewhere _ (by simp)] at changed
    rcases storesIn_of_changed (by decide) (by decide) changed with ⟨-, overflow⟩ | stores
    · exact .inl overflow
    · obtain ⟨mode, stores, stands⟩ := stores
      rw [Mode.register?_eq_o_iff.mp stands] at stores
      exact .inr stores

end After

end Instruction

namespace Processor

/-- A step that executes an instruction changes no memory cell outside the keyboard window but the
destination, which is a cell only for a call and where a value is stored through a mode that stands
for one. A key goes only where it is read. One general register changes at most, and O changes only
by an overflow, unless a value is stored through its mode. -/
theorem frame_step {processor : Processor} {before : Contents} {executed : Instruction}
    (contents : before = processor.machine.contents) (executes : processor.skipPending = false)
    (succeeds : processor.step.result = .ok (some executed)) :
    Instruction.ofWords? processor.ahead = some executed.forget ∧
      executed.forget.Confined before processor.step.processor.machine.contents := by
  subst contents
  cases found : Instruction.ofWords? processor.ahead with
  | none =>
    rw [result_step_of_none found] at succeeds
    cases succeeds
  | some instruction =>
    have faultless : instruction.fault? = none := fault?_eq_none_of_ok executes found succeeds
    have retires := retires_of_faultless executes found faultless
    obtain ⟨taken, result, forget⟩ := retires.exists_result
    rw [result] at succeeds
    cases succeeds
    rw [forget, retires.contents_eq]
    exact ⟨rfl, Instruction.confined_of_after fun _ other => Function.update_of_ne other ..⟩

/-- A processor in front of `SET PUSH, [0x9001]`, with two keys in the keyboard window. -/
def pushingKey : Processor where
  machine := {
    registers := { sp := 0x100, o := 9 }
    ram := .ofCells [(0, 0x79A1), (1, 0x9001), (0x100, 5), (0x9001, 0x41), (0x9002, 0x42)] }
  decoder := .empty

/-- The key that is read is gone, and the other one is still there. Outside the keyboard window
nothing changes in memory but the cell below the stack, and O does not change. -/
theorem frame_step_pushingKey :
    let after := pushingKey.step.processor.machine.contents
    after (.cell 0x9001) = 0 ∧ after (.cell 0x9002) = 0x42 ∧ after (.register .o) = 9 ∧
      ∀ address, Window.keyboard.contains address = false → address ≠ 0xFF →
        after (.cell address) = pushingKey.machine.contents (.cell address) := by
  intro after
  have holds := pushingKey.machine.contents_of_cells rfl
  have found : Instruction.ofWords? pushingKey.ahead =
      some (.basic .set ⟨.push, .a, 0, 0, none⟩ ⟨.absolute, .b, 0x9001, 0, none⟩) := by
    unfold ahead
    rw [holds]
    decide
  obtain ⟨executed, succeeds, forget⟩ :=
    (@retires_of_faultless pushingKey _ rfl found rfl).exists_result
  obtain ⟨-, confined⟩ := frame_step rfl rfl succeeds
  rw [forget, holds] at confined
  refine ⟨?_, ?_, ?_, ?_⟩
  · exact (confined.key 0x9001 (by decide) (by decide)).trans (by decide)
  · exact (confined.key 0x9002 (by decide) (by decide)).trans (by decide)
  · by_contra changed
    exact absurd (confined.overflow changed) (by decide)
  · intro address outside other
    rw [holds]
    by_contra changed
    have stored := confined.cell address outside changed
    cases stored
    exact other rfl

end Processor

end Dcpu16
