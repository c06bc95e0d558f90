import Dcpu16.Proofs.Processor.Step

/-!
# Updates

An instruction that computes reads operand `a`, then operand `b`, and then stores its result through
`a`. The place of `a` is looked up again for this (`Operand.destination?`), unless the read of `a`
has claimed a stack cell. Only SP can have moved meanwhile, and only PEEK looks at it again: the
result is stored in the place that was read, except behind it where `a` is PEEK and `b` is POP
(`Operand.destination?_eq`, `Processor.update_step`).
-/
namespace Dcpu16

namespace Operand

/-- Where a result is stored through `a` once `a` and `b` have been read: in the stack cell that the
read of `a` has claimed, or else in the place that `a` has by then. -/
def destination? (a b : Operand) (contents : Contents) : Option Place :=
  match a.claim? contents with
  | some address => some (.cell address)
  | none => a.place? (b.reading (a.reading contents))

section Destination

variable {a b : Operand} {contents : Contents}

/-- A result is stored in the place that was read, unless POP has moved SP behind PEEK. -/
theorem destination?_eq (aReadable : a.mode ≠ .push) (bReadable : b.mode ≠ .push) :
    a.destination? b contents =
      if a.mode = .peek ∧ b.mode = .pop then some (.cell (contents (.register .sp) + 1))
      else a.place? contents := by
  have general (register : Register) (other : register ≠ .sp) :
      b.reading (a.reading contents) (.register register) = contents (.register register) := by
    rw [reading_register other, reading_register other]
  by_cases pops : a.mode = .pop
  · simp [destination?, claim?, place?, pops]
  · have unclaimed : a.claim? contents = none := if_neg pops
    have sp : b.reading (a.reading contents) (.register .sp) =
        contents (.register .sp) + if b.mode = .pop then 1 else 0 := by
      rw [reading_sp_of_readable bReadable, reading_sp_of_readable aReadable, if_neg pops,
        UInt16.add_zero]
    simp only [destination?, unclaimed]
    by_cases peeks : a.mode = .peek
    · by_cases moves : b.mode = .pop <;> simp [place?, peeks, sp, moves]
    · rw [if_neg fun both => peeks both.1]
      apply place?_congr
      · exact fun register _ other => general register other
      · rintro (pop | peek | push)
        · exact absurd pop pops
        · exact absurd peek peeks
        · exact absurd push aReadable

/-- A result is stored in PC if and only if `a` stands for it. -/
theorem destination_eq_pc_iff {stored : Place}
    (destination : a.destination? b contents = some stored) :
    .register .pc = stored ↔ a.mode = .programCounter := by
  unfold destination? at destination
  cases claimed : a.claim? contents with
  | some address =>
    rw [claimed] at destination
    cases destination
    have pops : a.mode = .pop := by
      by_contra other
      simp [claim?, other] at claimed
    simp [pops]
  | none =>
    rw [claimed] at destination
    exact place_eq_pc_iff destination

end Destination

end Operand

namespace Instruction

section Computes

variable {opcode : Opcode} {a b : Operand} {contents : Contents} {stored : Place}

/-- An instruction that computes leaves what reading its operands has left, with the result in its
destination and the overflow behind that in O. -/
theorem after_of_computes (reads : opcode ≠ .set) (computes : opcode.isConditional = false)
    (readable : a.mode ≠ .push) (destination : a.destination? b contents = some stored) :
    let result := opcode.result (a.value contents) (b.value (a.reading contents))
    (basic opcode a b).after contents =
      Contents.assign (Function.update (b.reading (a.reading contents)) stored result.value)
        (result.overflow.toList.map fun overflow => (.register .o, overflow)) := by
  intro result
  have first : firstRead opcode a contents = a.reading contents := if_neg reads
  have same : computed opcode a b contents = result := by rw [computed, first]
  have stores : a.storing (a.claim? contents) (b.reading (a.reading contents)) result.value =
      Function.update (b.reading (a.reading contents)) stored result.value := by
    unfold Operand.destination? at destination
    cases claimed : a.claim? contents with
    | some address =>
      rw [claimed] at destination
      cases destination
      rfl
    | none =>
      rw [claimed] at destination
      have still : a.mode ≠ .pop := by
        intro pops
        simp [Operand.claim?, pops] at claimed
      simp only [Operand.storing, destination, Operand.claiming, if_neg still, if_neg readable]
  simp only [after, computes, Bool.false_eq_true, ↓reduceIte, first, same, if_neg reads, stores]

/-- Once an instruction that computes is retired, PC is behind it unless the result is there. -/
theorem retired_of_computes (reads : opcode ≠ .set) (computes : opcode.isConditional = false)
    (readable : a.mode ≠ .push) (destination : a.destination? b contents = some stored)
    (behind : Word) :
    let result := opcode.result (a.value contents) (b.value (a.reading contents))
    Function.update ((basic opcode a b).after contents) (.register .pc)
        (((basic opcode a b).target? contents).getD behind) =
      Contents.assign
        (Function.update (b.reading (a.reading contents)) (.register .pc) behind)
        ((stored, result.value) ::
          result.overflow.toList.map fun overflow => (.register .o, overflow)) := by
  intro result
  have same : computed opcode a b contents = result := by
    rw [computed, firstRead, if_neg reads]
  have apart := @notMem_overflow result.overflow (.register .pc) (by simp)
  have jumps := Operand.destination_eq_pc_iff destination
  rw [after_of_computes reads computes readable destination, ← assign_update_of_notMem apart,
    assign_cons]
  by_cases counter : a.mode = .programCounter
  · have target : (basic opcode a b).target? contents = some result.value := by
      simp only [target?, computes, counter, and_self, if_true, same]
    rw [target, ← jumps.mpr counter, Function.update_idem, Function.update_idem]
    rfl
  · have target : (basic opcode a b).target? contents = none := by
      simp only [target?, counter, and_false, if_false]
    rw [target, Function.update_comm (mt jumps.mp counter)]
    rfl

end Computes

end Instruction

namespace Processor

/-- A step that executes an arithmetic or bitwise instruction stores the result in the place that it
has read as operand `a`, with a single exception: where `a` is PEEK and `b` is POP, it reads the
cell at SP and stores in the cell behind, which `b` has moved SP to. It changes nothing else but for
the effects of the two reads, PC, which moves behind the instruction, and O. -/
theorem update_step {processor : Processor} {before : Contents} {opcode : Opcode} {a b : Operand}
    (contents : before = processor.machine.contents) (executes : processor.skipPending = false)
    (found : Instruction.ofWords? processor.ahead = some (.basic opcode a b))
    (reads : opcode ≠ .set) (computes : opcode.isConditional = false)
    (succeeds : ∃ executed, processor.step.result = .ok (some executed)) :
    let instruction := Instruction.basic opcode a b
    let ready := instruction.fetched before
    let read := b.reading (a.reading ready)
    let sp := ready (.register .sp)
    ∃ place, a.place? ready = some place ∧ a.value ready = ready place ∧
      let stored := if a.mode = .peek ∧ b.mode = .pop then .cell (sp + 1) else place
      let result := opcode.result (ready place) (b.value (a.reading ready))
      processor.step.processor.machine.contents =
          Contents.assign
            (Function.update read (.register .pc)
              (before (.register .pc) + .ofNat instruction.size))
            ((stored, result.value) ::
              result.overflow.toList.map fun overflow => (.register .o, overflow)) ∧
        (stored = place ↔ ¬ (a.mode = .peek ∧ b.mode = .pop)) := by
  intro instruction ready read sp
  subst contents
  obtain ⟨executed, succeeds⟩ := succeeds
  have faultless : instruction.fault? = none := fault?_eq_none_of_ok executes found succeeds
  obtain ⟨bReadable, aReadable, storable⟩ := Instruction.fault?_basic_eq_none_iff.mp faultless
  have coded : a.mode.Coded := (Instruction.atRest_of_ofWords? found).1.coded
  obtain ⟨place, located⟩ := Operand.exists_place? coded (storable computes) ready
  have held : a.value ready = ready place := Operand.value_of_place? located
  refine ⟨place, located, held, ?_⟩
  intro stored result
  have destination : a.destination? b ready = some stored := by
    rw [Operand.destination?_eq (aReadable reads) bReadable, located]
    exact (apply_ite some ..).symm
  have changed := (retires_of_faultless executes found faultless).contents_eq
  refine ⟨?_, ?_⟩
  · rw [changed, Instruction.retired_of_computes reads computes (aReadable reads) destination, held]
  · by_cases behind : a.mode = .peek ∧ b.mode = .pop
    · have peeked : place = .cell sp := by
        simpa [Operand.place?, behind.1, eq_comm] using located
      simp [stored, behind, peeked]
    · simp [stored, behind]

/-- A processor in front of `ADD POP, POP`, with 5 on top of the stack and 7 below. -/
def adding : Processor where
  machine := {
    registers := { sp := 0x100 }
    ram := .ofCells [(0, 0x6182), (0x100, 5), (0x101, 7)] }
  decoder := .empty

/-- The sum is stored where the first operand was, though both have moved SP. -/
theorem update_step_adding :
    adding.step.processor.machine.contents (.cell 0x100) = 12 ∧
      adding.step.processor.machine.contents (.cell 0x101) = 7 ∧
      adding.step.processor.machine.contents (.register .sp) = 0x102 := by
  have holds := adding.machine.contents_of_cells rfl
  have found : Instruction.ofWords? adding.ahead =
      some (.basic .add ⟨.pop, .a, 0, 0, none⟩ ⟨.pop, .b, 0, 0, none⟩) := by
    unfold ahead
    rw [holds]
    decide
  have executes : adding.skipPending = false := rfl
  obtain ⟨executed, succeeds, -⟩ := (retires_of_faultless executes found rfl).exists_result
  obtain ⟨place, located, -, changed, -⟩ :=
    update_step rfl executes found (by decide) rfl ⟨executed, succeeds⟩
  rw [holds] at located
  cases located
  rw [changed, holds]
  decide

/-- A processor in front of `ADD PEEK, POP`, with 5 on top of the stack and 7 below. -/
def overtaking : Processor where
  machine := {
    registers := { sp := 0x100 }
    ram := .ofCells [(0, 0x6192), (0x100, 5), (0x101, 7)] }
  decoder := .empty

/-- Not all updates use one place: PEEK is read where the 5 is, which stays, and the sum of 5 and 5
goes where the 7 was. -/
theorem update_not_in_place :
    ∃ a b, Instruction.ofWords? overtaking.ahead = some (.basic .add a b) ∧
      a.place? ((Instruction.basic .add a b).fetched overtaking.machine.contents) =
        some (.cell 0x100) ∧
      (∃ executed, overtaking.step.result = .ok (some executed)) ∧
      overtaking.step.processor.machine.contents (.cell 0x100) = 5 ∧
      overtaking.step.processor.machine.contents (.cell 0x101) = 10 := by
  have holds := overtaking.machine.contents_of_cells rfl
  have found : Instruction.ofWords? overtaking.ahead =
      some (.basic .add ⟨.peek, .a, 0, 0, none⟩ ⟨.pop, .b, 0, 0, none⟩) := by
    unfold ahead
    rw [holds]
    decide
  have retires := @retires_of_faultless overtaking _ rfl found rfl
  obtain ⟨executed, succeeds, -⟩ := retires.exists_result
  refine ⟨_, _, found, ?_, ⟨executed, succeeds⟩, ?_, ?_⟩
  · rw [holds]
    decide
  · rw [retires.contents_eq, holds]
    decide
  · rw [retires.contents_eq, holds]
    decide

end Processor

end Dcpu16
