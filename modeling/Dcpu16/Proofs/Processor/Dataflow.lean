import Dcpu16.Proofs.Processor.Step

/-!
# The data flow of a step

What an instruction does, said as changes of the contents that a machine has before it
(`Instruction.changes`): the values of the operands are taken before anything is stored, and PC
stands on the last word of the instruction. The code evaluates its operands one after the other on a
machine that changes meanwhile; `Processor.contents_step` says that nothing of this shows, for
instructions that move no stack and take no key.
-/
namespace Dcpu16

namespace Instruction

/-- The changes that an instruction makes, in their order, in contents in which PC stands on its
last word. A test makes none. -/
def changes (instruction : Instruction) (contents : Contents) : List (Place × Word) :=
  match instruction with
  | .basic opcode a b =>
    if opcode.isConditional then []
    else
      let result := opcode.result (a.value contents) (b.value contents)
      (a.place? contents).toList.map (fun place => (place, result.value)) ++
        result.overflow.toList.map fun overflow => (.register .o, overflow)
  | .special .jsr a =>
    let sp := contents (.register .sp) - 1
    [(.register .sp, sp), (.cell sp, contents (.register .pc)), (.register .pc, a.value contents)]

/-- The contents that an instruction makes of those before it. PC moves behind its last word, unless
this is changed too. -/
def effect (instruction : Instruction) (before : Contents) : Contents :=
  let last := before (.register .pc) + .ofNat (instruction.size - 1)
  Contents.assign (Function.update before (.register .pc) (last + 1))
    (instruction.changes (Function.update before (.register .pc) last))

/-- The instruction moves no stack, stores nothing in its own words, and takes no key out of the
keyboard window, neither as one of its words nor as a value. -/
structure Plain (instruction : Instruction) (before : Contents) : Prop where
  still : ∀ operand ∈ instruction.operands, operand.mode.movesStack = false
  storable : ∀ opcode a b, instruction = .basic opcode a b → opcode.isConditional = false →
    a.mode.isConstant = false
  words : ∀ offset < instruction.size,
    Window.keyboard.contains (before (.register .pc) + .ofNat offset) = false
  values : ∀ operand ∈ instruction.operands, operand.OffKeyboard before

section Plain

variable {instruction : Instruction} {before : Contents}

/-- A plain instruction has no fault. -/
theorem Plain.fault?_eq_none (plain : instruction.Plain before) : instruction.fault? = none := by
  have readable {operand : Operand} (member : operand ∈ instruction.operands) :
      operand.mode ≠ .push := (Mode.ne_stack_of_still (plain.still operand member)).2
  cases instruction with
  | basic opcode a b =>
    exact fault?_basic_eq_none_iff.mpr ⟨readable (by simp [operands]),
      fun _ => readable (by simp [operands]), plain.storable opcode a b rfl⟩
  | special opcode a =>
    cases opcode
    exact if_neg (readable (List.mem_singleton_self a))

/-- A plain instruction fetches its words without taking a key. -/
theorem Plain.fetched_eq (plain : instruction.Plain before) :
    instruction.fetched before = Function.update before (.register .pc)
      (before (.register .pc) + .ofNat (instruction.size - 1)) := by
  have taken : ([before (.register .pc), before (.register .pc) + 1,
      before (.register .pc) + 2].take instruction.size).foldl Contents.taken before = before := by
    apply foldl_taken_of_outside
    intro address member
    obtain ⟨offset, bound, rfl⟩ := List.mem_take_iff_getElem.mp member
    have inside : offset < instruction.size := (Nat.lt_min.mp bound).1
    have small : offset < 3 := (Nat.lt_min.mp bound).2
    have outside := plain.words offset inside
    interval_cases offset
    · simpa using outside
    · exact outside
    · exact outside
  rw [fetched, taken]

/-- An instruction whose operands move no stack and take no key makes its changes. -/
theorem after_eq_assign {contents : Contents}
    (still : ∀ operand ∈ instruction.operands, operand.mode.movesStack = false)
    (values : ∀ operand ∈ instruction.operands, operand.OffKeyboard contents) :
    instruction.after contents = contents.assign (instruction.changes contents) := by
  have read {operand : Operand} (member : operand ∈ instruction.operands) :
      operand.reading contents = contents :=
    Operand.reading_of_outside (still operand member) (values operand member)
  cases instruction with
  | basic opcode a b =>
    have aStill := still a (by simp [operands])
    have first : firstRead opcode a contents = contents := by
      rw [firstRead, read (by simp [operands]), ite_self]
    have unclaimed : a.claim? contents = none := if_neg (Mode.ne_stack_of_still aStill).1
    simp only [after, changes, first, read (List.mem_cons_of_mem a (List.mem_singleton_self b)),
      computed, unclaimed, ite_self]
    split
    · rfl
    · simp only [Operand.storing, Operand.claiming_of_still aStill]
      cases a.place? contents <;> rfl
  | special opcode a =>
    cases opcode
    simp only [after, changes, read (List.mem_singleton_self a)]

/-- An instruction jumps if and only if PC is among its changes. -/
theorem isSome_target? (instruction : Instruction) (contents : Contents) :
    (instruction.target? contents).isSome =
      decide (.register .pc ∈ (instruction.changes contents).map Prod.fst) := by
  cases instruction with
  | basic opcode a b =>
    cases stores : opcode.isConditional with
    | true => simp [target?, changes, stores]
    | false =>
      cases located : a.place? contents with
      | none =>
        have other : a.mode ≠ .programCounter := by
          intro counter
          simp [Operand.place?, counter] at located
        simp [target?, changes, stores, located, other]
      | some place =>
        by_cases counter : a.mode = .programCounter
        · have here := (Operand.place_eq_pc_iff located).mpr counter
          simp [target?, changes, stores, located, counter, ← here]
        · have elsewhere : Place.register .pc ≠ place :=
            mt (Operand.place_eq_pc_iff located).mp counter
          simp [target?, changes, stores, located, counter, elsewhere]
  | special opcode a =>
    cases opcode
    simp [target?, changes]

/-- A plain instruction has its effect when it makes its changes where PC stands on its last word,
and PC then moves behind it unless it has been changed. -/
theorem Plain.effect_eq (plain : instruction.Plain before) :
    Function.update (instruction.after (instruction.fetched before)) (.register .pc)
        ((instruction.target? (instruction.fetched before)).getD
          (before (.register .pc) + .ofNat instruction.size)) =
      instruction.effect before := by
  let last := before (.register .pc) + .ofNat (instruction.size - 1)
  let moved := Function.update before (.register .pc) last
  have values : ∀ operand ∈ instruction.operands, operand.OffKeyboard moved :=
    fun operand member => (plain.values operand member).update _
  have after_eq := after_eq_assign plain.still values
  have stored := instruction.after_pc moved
  have jumps := instruction.isSome_target? moved
  rw [plain.fetched_eq, effect, ← Processor.last_add_one]
  cases target : instruction.target? moved with
  | some address =>
    have touched : Place.register .pc ∈ (instruction.changes moved).map Prod.fst := by
      simpa [target] using jumps
    rw [target, Option.getD_some] at stored
    rw [Option.getD_some, ← stored, Function.update_eq_self, after_eq,
      assign_update_of_mem touched, assign_update_of_mem touched]
  | none =>
    have untouched : Place.register .pc ∉ (instruction.changes moved).map Prod.fst := by
      simpa [target] using jumps
    rw [Option.getD_none, after_eq, ← assign_update_of_notMem untouched, Function.update_idem]

end Plain

end Instruction

namespace Processor

/-- A step that executes a plain instruction succeeds, and makes exactly the changes of the
instruction: those of its opcode for the values that its operands had before the step, with PC
standing on the last word of the instruction, and the move of PC behind that word. -/
theorem contents_step (processor : Processor) {before : Contents} {pc : Word}
    {instruction : Instruction} (contents : before = processor.machine.contents)
    (address : pc = before (.register .pc)) (executes : processor.skipPending = false)
    (found : Instruction.ofWords? [before (.cell pc), before (.cell (pc + 1)),
      before (.cell (pc + 2))] = some instruction)
    (plain : instruction.Plain before) :
    (∃ executed, processor.step.result = .ok (some executed)) ∧
      processor.step.processor.machine.contents = instruction.effect before := by
  rw [address, contents] at found
  rw [contents] at plain ⊢
  have retires := retires_of_faultless executes found plain.fault?_eq_none
  obtain ⟨executed, result, -⟩ := retires.exists_result
  exact ⟨⟨executed, result⟩, retires.contents_eq.trans plain.effect_eq⟩

/-- A processor in front of `MUL O, 2`, with all bits of O set. -/
def doubling : Processor where
  machine := { registers := { o := 0xFFFF }, ram := Ram.blank.set 0 0x89D4 }
  decoder := .empty

/-- The overflow wins over the product where both are stored in O. -/
theorem contents_step_doubling :
    doubling.step.processor.machine.contents (.register .o) = 1 ∧
      doubling.step.processor.machine.contents (.register .pc) = 1 := by
  have cell (address : Word) : doubling.machine.contents (.cell address) =
      if address = 0 then 0x89D4 else 0 := by
    simp [doubling, Machine.contents, Machine.peek]
  have found : Instruction.ofWords? [doubling.machine.contents (.cell 0),
      doubling.machine.contents (.cell (0 + 1)), doubling.machine.contents (.cell (0 + 2))] =
      some (.basic .mul ⟨.overflow, .a, 0, 0, none⟩ ⟨.literal 2, .b, 0, 0, none⟩) := by
    rw [cell, cell, cell]
    decide
  have plain : Instruction.Plain
      (.basic .mul ⟨.overflow, .a, 0, 0, none⟩ ⟨.literal 2, .b, 0, 0, none⟩)
      doubling.machine.contents := by
    refine ⟨by decide, ?_, ?_, ?_⟩
    · rintro opcode a b same -
      cases same
      rfl
    · intro offset small
      have first : offset = 0 := by
        simpa [Instruction.size, Instruction.operands, Mode.takesWord] using small
      subst first
      decide
    · intro operand member address located
      simp only [Instruction.operands, List.mem_cons, List.not_mem_nil, or_false] at member
      rcases member with rfl | rfl <;> cases located
  obtain ⟨-, effect⟩ := contents_step doubling rfl rfl rfl found plain
  rw [effect]
  decide

end Processor

end Dcpu16
