import Dcpu16.Proofs.Machine.Executions

/-!
# The stack pointer

SP moves with the first access through an operand and not with the second. So an instruction moves
it up once for each POP, whether the operand is read, written or both, and down once for a PUSH that
it stores through and for a call (`Instruction.after_sp`, `Instruction.sp_execute`). Where both
operands are POP, the first to be popped is `a`, but for a move, which pops `b` before it stores in
`a`.
-/
namespace Dcpu16

namespace Operand

section Pop

variable {a b : Operand} {contents : Contents}

/-- POP is the cell that SP addresses. -/
theorem place?_of_pop (pops : a.mode = .pop) :
    a.place? contents = some (.cell (contents (.register .sp))) := by
  simp [place?, pops]

/-- The POP that is read behind another one has the value of the next cell. -/
theorem value_reading_of_pop (aPops : a.mode = .pop) (bPops : b.mode = .pop) :
    b.value (a.reading contents) = contents (.cell (contents (.register .sp) + 1)) := by
  have sp : a.reading contents (.register .sp) = contents (.register .sp) + 1 := by
    rw [reading_sp_of_readable (by simp [aPops]), if_pos aPops]
  have apart : contents (.register .sp) ≠ contents (.register .sp) + 1 := by
    simp
  rw [value_of_place? (place?_of_pop bPops), sp, reading_cell, place?_of_pop aPops]
  simp [apart]

end Pop

end Operand

namespace Instruction

/-- Does the instruction store a result through an operand of this mode? -/
def storesThrough (mode : Mode) : Instruction → Bool
  | .basic opcode a _ => !opcode.isConditional && a.mode = mode
  | .special _ _ => false

/-- Is the instruction a subroutine call? -/
def isCall : Instruction → Bool
  | .basic .. => false
  | .special .jsr _ => true

/-- How many operands of the instruction are POP. -/
def pops (instruction : Instruction) : Nat :=
  instruction.operands.countP fun operand => operand.mode = .pop

section Fill

variable (instruction : Instruction) (words : List Word)

/-- How many operands are POP does not depend on the inline words. -/
theorem pops_fill : (instruction.fill words).pops = instruction.pops := by
  cases instruction <;>
    simp only [fill, pops, operands, List.countP_cons, List.countP_nil, Operand.mode_fill]

/-- Through which mode the result is stored does not depend on the inline words. -/
theorem storesThrough_fill (mode : Mode) :
    (instruction.fill words).storesThrough mode = instruction.storesThrough mode := by
  cases instruction <;> simp only [fill, storesThrough, Operand.mode_fill]

/-- Whether an instruction is a call does not depend on the inline words. -/
theorem isCall_fill : (instruction.fill words).isCall = instruction.isCall := by
  cases instruction <;> rfl

end Fill

section After

variable {contents : Contents}

/-- Fetching the inline words does not move SP. -/
theorem fetching_sp (instruction : Instruction) :
    instruction.fetching contents (.register .sp) = contents (.register .sp) := by
  have other : Register.sp ≠ .pc := by decide
  cases instruction <;>
    simp only [fetching, operands, List.foldl_cons, List.foldl_nil,
      Operand.fetching_register other]

/-- An instruction without a fault that does not store in SP moves it up once for each POP, and down
once for a PUSH that it stores through and once for a call. -/
theorem after_sp {instruction : Instruction} (faultless : instruction.fault? = none)
    (elsewhere : instruction.storesThrough .stackPointer = false) :
    instruction.after contents (.register .sp) =
      contents (.register .sp) + .ofNat instruction.pops -
        (if instruction.storesThrough .push then 1 else 0) -
        if instruction.isCall then 1 else 0 := by
  cases instruction with
  | basic opcode a b =>
    obtain ⟨bReadable, aReadable, -⟩ := fault?_basic_eq_none_iff.mp faultless
    have read := Operand.foldl_reading_sp contents (ne_push_of_mem_readOrder bReadable aReadable)
    rw [foldl_readOrder] at read
    cases computes : opcode.isConditional with
    | true =>
      have other : opcode ≠ .set := by rintro rfl; cases computes
      have order : (basic opcode a b).readOrder = (basic opcode a b).operands := if_neg other
      have stores : (basic opcode a b).storesThrough .push = false := by
        simp [storesThrough, computes]
      simp only [after, computes, if_true, read, order, stores]
      simp [pops, isCall]
    | false =>
      have still : a.mode ≠ .stackPointer := by simpa [storesThrough, computes] using elsewhere
      have apart (overflow : Option Word) := @notMem_overflow overflow (.register .sp) (by simp)
      have stores : (basic opcode a b).storesThrough .push = decide (a.mode = .push) := by
        simp [storesThrough, computes]
      simp only [after, computes, Bool.false_eq_true, if_false, assign_of_notMem (apart _),
        Operand.storing_sp still, Operand.claiming_sp, read, stores]
      by_cases moves : opcode = .set
      · -- The write is the first access through `a`, and moves SP for it.
        have order : (basic opcode a b).readOrder = [b] := if_pos moves
        have counted : (basic opcode a b).pops =
            ([b].countP fun operand => operand.mode = .pop) + if a.mode = .pop then 1 else 0 := by
          simp [pops, operands, List.countP_cons]
        rw [order, counted, UInt16.ofNat_add, ← UInt16.add_assoc]
        by_cases popped : a.mode = .pop <;> simp [moves, popped, isCall]
      · -- The read has moved SP for `a`, which is no PUSH. A POP that is written now is claimed.
        have order : (basic opcode a b).readOrder = (basic opcode a b).operands := if_neg moves
        have readable : a.mode ≠ .push := aReadable moves
        rw [order, if_neg moves]
        by_cases popped : a.mode = .pop <;> simp [Operand.claim?, popped, readable, pops, isCall]
  | special opcode a =>
    cases opcode
    have readable : a.mode ≠ .push := by
      rintro push
      simp [fault?, push] at faultless
    have read := @Operand.reading_sp_of_readable a contents readable
    by_cases popped : a.mode = .pop <;>
      simp [after, read, pops, operands, storesThrough, isCall, popped]

/-- The POPs of an instruction that has no fault: a move stores what it has popped as `b` in the
cell that it pops as `a`, and another instruction goes by the cell at SP and the one behind, in this
order, and stores in the first. -/
theorem after_of_pops {opcode : Opcode} {a b : Operand} (aPops : a.mode = .pop)
    (bPops : b.mode = .pop) :
    let instruction := basic opcode a b
    let sp := contents (.register .sp)
    let x := contents (.cell sp)
    let y := contents (.cell (sp + 1))
    (opcode = .set → instruction.after contents (.cell (sp + 1)) = x) ∧
      (opcode.isConditional = true → (instruction.Fails contents ↔ opcode.Fails x y)) ∧
      (opcode ≠ .set → opcode.isConditional = false →
        instruction.after contents (.cell sp) = (opcode.result x y).value ∧
          ∀ overflow, (opcode.result x y).overflow = some overflow →
            instruction.after contents (.register .o) = overflow) := by
  intro instruction sp x y
  have aValue : a.value contents = x := Operand.value_of_place? (Operand.place?_of_pop aPops)
  have bValue : b.value (a.reading contents) = y := Operand.value_reading_of_pop aPops bPops
  refine ⟨?_, ?_, ?_⟩
  · rintro rfl
    have first : b.value contents = x := Operand.value_of_place? (Operand.place?_of_pop bPops)
    have behind : b.reading contents (.register .sp) = sp + 1 := by
      rw [Operand.reading_sp_of_readable (by simp [bPops]), if_pos bPops]
    have after : instruction.after contents =
        a.storing none (b.reading contents) (b.value contents) := rfl
    rw [after, Operand.storing, Operand.place?_of_pop aPops, behind, first]
    exact Function.update_self ..
  · intro _
    rw [Fails, aValue, bValue]
  · intro reads computes
    let result := opcode.result x y
    have value : computed opcode a b contents = result := by
      rw [computed, firstRead, if_neg reads, aValue, bValue]
    have claimed : a.claim? contents = some sp := if_pos aPops
    have after : instruction.after contents =
        Contents.assign (Function.update (b.reading (a.reading contents)) (.cell sp) result.value)
          (result.overflow.toList.map fun overflow => (.register .o, overflow)) := by
      simp only [instruction, Instruction.after, computes, Bool.false_eq_true, if_false, reads,
        firstRead, value, claimed, Operand.storing]
    rw [after]
    refine ⟨?_, fun overflow overflows => ?_⟩
    · rw [assign_of_notMem (by simp)]
      exact Function.update_self ..
    · have stored : result.overflow = some overflow := overflows
      simp only [stored, Option.toList_some, List.map_cons, List.map_nil, assign_cons, assign_nil,
        Function.update_self]

end After

/-- An execution that succeeds, of an instruction that a word stands for and that does not store in
SP, moves SP up once for each POP, and down once for a PUSH that is stored through and once for a
call; PEEK counts for nothing, and an operand that is read and written counts once. Where both
operands are POP, operand `a` is the word at SP and `b` the word behind it; a move pops `b` first,
and stores it in the cell behind. -/
theorem sp_execute {word : Word} {instruction : Instruction} {machine : Machine} {outcome : Outcome}
    (known : ofWord? word = some instruction)
    (succeeds : (instruction.execute machine).result = .ok outcome)
    (elsewhere : instruction.storesThrough .stackPointer = false) :
    let before := machine.contents
    let after := (instruction.execute machine).machine.contents
    let sp := before (.register .sp)
    after (.register .sp) =
        sp + .ofNat instruction.pops - (if instruction.storesThrough .push then 1 else 0) -
          (if instruction.isCall then 1 else 0) ∧
      ∀ opcode a b, instruction = .basic opcode a b → a.mode = .pop → b.mode = .pop →
        let x := before (.cell sp)
        let y := before (.cell (sp + 1))
        (opcode = .set → after (.cell (sp + 1)) = x) ∧
          (opcode.isConditional = true → (outcome = .skipNext ↔ opcode.Fails x y)) ∧
          (opcode ≠ .set → opcode.isConditional = false →
            after (.cell sp) = (opcode.result x y).value ∧
              ∀ overflow, (opcode.result x y).overflow = some overflow →
                after (.register .o) = overflow) := by
  intro before after sp
  obtain ⟨faultless, ready, executed, next, executes, contents, performed⟩ :=
    exists_performed_of_ok (coded_of_ofWord? known) rfl succeeds
  have changed : after = (instruction.fill before.behind).after ready.contents := by
    rw [← performed.contents_eq]
    exact congrArg (fun execution => execution.machine.contents) executes
  rw [fetching_fill] at contents
  refine ⟨?_, ?_⟩
  · have stack : ready.contents (.register .sp) = sp := by rw [contents, fetching_sp]
    rw [changed, after_sp (by rwa [fault?_fill]) (by rwa [storesThrough_fill]), stack, pops_fill,
      storesThrough_fill, isCall_fill]
  · rintro opcode a b rfl aPops bPops x y
    have unmoved : ready.contents = before := by
      rw [contents]
      simp [fetching, operands, Operand.fetching, aPops, bPops, Mode.takesWord, before]
    have both := @after_of_pops before opcode (a.fill before.behind).1
      (b.fill (a.fill before.behind).2).1 (by rw [Operand.mode_fill, aPops])
      (by rw [Operand.mode_fill, bPops])
    rw [unmoved] at changed
    have skips := performed.skips_iff
    rw [unmoved] at skips
    rw [changed, skips]
    exact both

/-- A machine with the word of `SUB POP, POP`, and a stack that begins in the last cell: 9 is on top
of it and 5 behind that, in the first cell. -/
def stacked : Machine where
  registers := { pc := 0x10, sp := 0xFFFF }
  ram := .ofCells [(0x10, 0x6183), (0xFFFF, 9), (0, 5)]

/-- The instruction of the word. -/
def subtracting : Instruction :=
  .basic .sub { mode := .pop, slot := .a } { mode := .pop, slot := .b }

/-- SP moves by two, around the end of memory, and 5 is subtracted from 9. -/
theorem sp_execute_stacked :
    (subtracting.execute stacked).machine.contents (.register .sp) = 1 ∧
      (subtracting.execute stacked).machine.contents (.cell 0xFFFF) = 4 ∧
      (subtracting.execute stacked).machine.contents (.register .o) = 0 := by
  have holds := stacked.contents_of_cells rfl
  have known : ofWord? 0x6183 = some subtracting := by decide
  obtain ⟨_, outcome, executed, next, executes, -⟩ :=
    exists_performed stacked (coded_of_ofWord? known) rfl rfl
  have succeeds : (subtracting.execute stacked).result = .ok outcome := by rw [executes]
  obtain ⟨pointer, popped⟩ := sp_execute known succeeds rfl
  obtain ⟨-, -, computes⟩ := popped .sub _ _ rfl rfl rfl
  obtain ⟨difference, borrow⟩ := computes (by decide) rfl
  have borrows : (Opcode.sub.result 9 5).overflow = some 0 := by decide
  rw [holds] at pointer difference borrow
  exact ⟨pointer.trans (by decide), difference.trans (by decide), borrow 0 borrows⟩

end Instruction

end Dcpu16
