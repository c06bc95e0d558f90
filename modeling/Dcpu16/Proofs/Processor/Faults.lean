import Dcpu16.Proofs.Arithmetic
import Dcpu16.Proofs.Processor.Runs

/-!
# Faults

Which instructions end in a fault is a matter of their words alone: a PUSH cannot be read, and
nothing can be stored in a constant (`Instruction.FaultsWith`). No content of a register or a cell
causes a fault or prevents one, and nothing else goes wrong in a step (`Processor.fault_step`). A
fault comes before anything is stored. It leaves PC on the last word of the instruction, and of what
has happened until then only the reads show: a POP may have moved SP, and keys may have been taken
(`Processor.leftover_step`).
-/
namespace Dcpu16

namespace Instruction

/-! ## Instructions with a fault -/

/-- The instruction has the fault. SET reads `b` and stores in `a`, other instructions read `a`
first, and only a read that goes well is followed by a store. -/
inductive FaultsWith : Instruction → Fault → Prop
  | moveReads {a b : Operand} (push : b.mode = .push) :
    FaultsWith (.basic .set a b) (.refused .push .read)
  | moveStores {a b : Operand} (readable : b.mode ≠ .push) (constant : a.mode.isConstant = true) :
    FaultsWith (.basic .set a b) (.refused a.mode .write)
  | computeReads {opcode : Opcode} {a b : Operand} (other : opcode ≠ .set)
    (computes : opcode.isConditional = false) (push : a.mode = .push ∨ b.mode = .push) :
    FaultsWith (.basic opcode a b) (.refused .push .read)
  | computeStores {opcode : Opcode} {a b : Operand} (other : opcode ≠ .set)
    (computes : opcode.isConditional = false) (readable : b.mode ≠ .push)
    (constant : a.mode.isConstant = true) : FaultsWith (.basic opcode a b) (.refused a.mode .write)
  | testReads {opcode : Opcode} {a b : Operand} (tests : opcode.isConditional = true)
    (push : a.mode = .push ∨ b.mode = .push) :
    FaultsWith (.basic opcode a b) (.refused .push .read)
  | callReads {a : Operand} (push : a.mode = .push) :
    FaultsWith (.special .jsr a) (.refused .push .read)

/-- A test is no move. -/
theorem ne_set_of_isConditional {opcode : Opcode} (tests : opcode.isConditional = true) :
    opcode ≠ .set := by
  rintro rfl
  cases tests

/-- An instruction has the fault that its execution ends in. -/
theorem faultsWith_iff {instruction : Instruction} {fault : Fault} :
    instruction.FaultsWith fault ↔ instruction.fault? = some fault := by
  constructor
  · intro faults
    cases faults with
    | moveReads push => simp [fault?, push]
    | moveStores readable constant =>
      have stores : Opcode.set.isConditional = false := rfl
      simp [fault?, readable, constant, stores]
    | computeReads other computes push =>
      have reads := push.symm.imp_right (And.intro other)
      exact if_pos reads
    | computeStores other computes readable constant =>
      have aReadable := Mode.ne_push_of_isConstant constant
      simp [fault?, readable, aReadable, computes, constant]
    | testReads tests push =>
      have reads := push.symm.imp_right (And.intro (ne_set_of_isConditional tests))
      exact if_pos reads
    | callReads push => exact if_pos push
  · intro faulty
    cases instruction with
    | basic opcode a b =>
      simp only [fault?] at faulty
      split_ifs at faulty with reads stores
      · cases faulty
        by_cases moves : opcode = .set
        · subst moves
          exact .moveReads (reads.resolve_right fun other => other.1 rfl)
        · have push : a.mode = .push ∨ b.mode = .push := (reads.imp_right And.right).symm
          cases tests : opcode.isConditional with
          | true => exact .testReads tests push
          | false => exact .computeReads moves tests push
      · cases faulty
        rw [not_or] at reads
        by_cases moves : opcode = .set
        · subst moves
          exact .moveStores reads.1 stores.2
        · exact .computeStores moves stores.1 reads.1 stores.2
    | special opcode a =>
      cases opcode
      simp only [fault?] at faulty
      split_ifs at faulty with push
      cases faulty
      exact .callReads push

/-- The fault of an instruction does not depend on its inline words. -/
theorem faultsWith_fill {instruction : Instruction} {fault : Fault} (words : List Word) :
    (instruction.fill words).FaultsWith fault ↔ instruction.FaultsWith fault := by
  rw [faultsWith_iff, faultsWith_iff, fault?_fill]

/-! ## What is read before a fault -/

/-- A POP is read before the access that is refused: as operand `b` when `a` is a constant, in which
nothing can be stored, or as operand `a` when `b` is a PUSH that is read behind it. -/
def PopsFirst : Instruction → Prop
  | .basic opcode a b =>
    b.mode = .pop ∧ a.mode.isConstant = true ∨
      opcode ≠ .set ∧ a.mode = .pop ∧ b.mode = .push
  | .special .jsr _ => False

section Leftover

variable {instruction : Instruction} {fault : Fault}

/-- What is read before a fault is no PUSH. -/
theorem ne_push_of_mem_readFirst {operand : Operand} (member : operand ∈ instruction.readFirst) :
    operand.mode ≠ .push := by
  have passed := List.mem_takeWhile_imp member
  simpa using passed

/-- At most one POP is read before a fault: none, or the one that is named. -/
theorem countP_readFirst (faulty : instruction.FaultsWith fault) :
    let popped := instruction.readFirst.countP fun operand => operand.mode = .pop
    popped = 0 ∧ ¬ instruction.PopsFirst ∨ popped = 1 ∧ instruction.PopsFirst := by
  have pushed {opcode : Opcode} {a b : Operand} (other : opcode ≠ .set)
      (push : a.mode = .push ∨ b.mode = .push) :
      let popped := (basic opcode a b).readFirst.countP fun operand => operand.mode = .pop
      popped = 0 ∧ ¬ (basic opcode a b).PopsFirst ∨ popped = 1 ∧ (basic opcode a b).PopsFirst := by
    by_cases first : a.mode = .push
    · simp [readFirst, readOrder, PopsFirst, other, first, Mode.isConstant]
    · have second : b.mode = .push := push.resolve_left first
      by_cases pops : a.mode = .pop <;>
        simp [readFirst, readOrder, PopsFirst, other, first, second, pops]
  cases faulty with
  | moveReads push => simp [readFirst, readOrder, PopsFirst, push]
  | @moveStores a b readable constant =>
    by_cases pops : b.mode = .pop <;>
      simp [readFirst, readOrder, PopsFirst, readable, constant, pops]
  | computeReads other computes push => exact pushed other push
  | @computeStores opcode a b other computes readable constant =>
    have aReadable := Mode.ne_push_of_isConstant constant
    have still : a.mode ≠ .pop := by
      intro pops
      rw [pops] at constant
      cases constant
    by_cases pops : b.mode = .pop <;>
      simp [readFirst, readOrder, PopsFirst, other, readable, constant, aReadable, still, pops]
  | testReads tests push => exact pushed (ne_set_of_isConditional tests) push
  | callReads push => simp [readFirst, readOrder, PopsFirst, push]

/-- What is read before a fault moves SP by one if there is a POP, and not at all otherwise. -/
theorem leftover_sp (faulty : instruction.FaultsWith fault) (contents : Contents) :
    instruction.leftover contents (.register .sp) = contents (.register .sp) ∧
        ¬ instruction.PopsFirst ∨
      instruction.leftover contents (.register .sp) = contents (.register .sp) + 1 ∧
        instruction.PopsFirst := by
  have readable : ∀ operand ∈ instruction.readFirst, operand.mode ≠ .push :=
    fun operand member => ne_push_of_mem_readFirst member
  rw [leftover, Operand.foldl_reading_sp contents readable]
  rcases countP_readFirst faulty with ⟨none, without⟩ | ⟨one, pops⟩
  · rw [none]
    exact .inl ⟨UInt16.add_zero _, without⟩
  · rw [one]
    exact .inr ⟨rfl, pops⟩

end Leftover

end Instruction

namespace Processor

section Faults

variable {processor : Processor} {fault : Fault}

/-- A step ends in a fault if and only if it is to execute an instruction that has this fault. -/
theorem result_step_eq_error_iff :
    processor.step.result = .error fault ↔ processor.skipPending = false ∧
      ∃ instruction, Instruction.ofWords? processor.ahead = some instruction ∧
        instruction.FaultsWith fault := by
  constructor
  · intro faults
    cases found : Instruction.ofWords? processor.ahead with
    | none =>
      rw [result_step_of_none found] at faults
      cases faults
    | some instruction =>
      cases pending : processor.skipPending with
      | true =>
        obtain ⟨taken, succeeds, -⟩ := (retires_of_skip pending found).exists_result
        rw [succeeds] at faults
        cases faults
      | false =>
        cases faulty : instruction.fault? with
        | none =>
          obtain ⟨taken, succeeds, -⟩ := (retires_of_faultless pending found faulty).exists_result
          rw [succeeds] at faults
          cases faults
        | some other =>
          rw [(faults_of_fault? pending found faulty).result_eq] at faults
          cases faults
          exact ⟨rfl, instruction, rfl, Instruction.faultsWith_iff.mpr faulty⟩
  · rintro ⟨executes, instruction, found, faulty⟩
    exact (faults_of_fault? executes found (Instruction.faultsWith_iff.mp faulty)).result_eq

/-- A step ends in a fault if and only if no skip is pending and the word at PC is an instruction
that has this fault; neither registers nor other cells matter. Nothing else goes wrong: the operands
of the instruction name general registers from 0 to 7, so none is missed, no operation of the
arithmetic unit overflows, divides by 0 or moves bits too far, and the instructions are counted as
long as the counter is not full. -/
theorem fault_step (processor : Processor) :
    let contents := processor.machine.contents
    let word := contents (.cell (contents (.register .pc)))
    let step := processor.step
    (∀ fault, step.result = .error fault ↔ processor.skipPending = false ∧
      ∃ instruction, Instruction.ofWord? word = some instruction ∧
        instruction.FaultsWith fault) ∧
    (∀ instruction, Instruction.ofWord? word = some instruction →
      ∀ operand ∈ instruction.operands, operand.mode.Coded) ∧
    (∀ index, step.result ≠ .error (.noRegister index)) ∧
    (∀ (opcode : Opcode) (x y : Word), opcode.checked? x y = some (opcode.result x y)) ∧
    (processor.cycles.toNat < 2 ^ 64 - 1 → ∀ taken, step.result = .ok (some taken) →
      step.processor.cycles.toNat = processor.cycles.toNat + 1) := by
  intro contents word step
  have decided (fault : Fault) : step.result = .error fault ↔ processor.skipPending = false ∧
      ∃ instruction, Instruction.ofWord? word = some instruction ∧
        instruction.FaultsWith fault := by
    have ahead : Instruction.ofWords? processor.ahead =
        (Instruction.ofWord? word).map fun bare => bare.fill processor.ahead.tail := rfl
    rw [result_step_eq_error_iff, ahead]
    simp only [Option.map_eq_some_iff, exists_exists_and_eq_and, Instruction.faultsWith_fill]
  refine ⟨decided, ?_, ?_, fun opcode x y => opcode.checked?_eq x y, ?_⟩
  · intro instruction known
    exact Instruction.coded_of_ofWord? known
  · intro index missing
    obtain ⟨-, instruction, -, faulty⟩ := (decided _).mp missing
    cases faulty
  · intro room taken succeeds
    have counted : step.processor.cycles = processor.cycles + .ofNat 1 := by
      rcases processor.step_cases with ⟨_, -, counted⟩ | ⟨fault, faults, -⟩ | ⟨halts, -⟩
      · exact counted
      · cases succeeds.symm.trans faults
      · cases succeeds.symm.trans halts
    rw [counted]
    exact (toNat_counted _ (show _ < 2 ^ 64 by omega)).1

/-- A processor in front of `ADD 5, PUSH`. -/
def refusing : Processor where
  machine := { ram := .ofCells [(0, 0x6A52)] }
  decoder := .empty

/-- A processor that is to skip the same instruction. -/
def sparing : Processor := { refusing with skipPending := true }

/-- The PUSH is read before the sum is stored in the constant. Skipped, the instruction has no fault
and is counted. -/
theorem fault_step_refusing :
    refusing.step.result = .error (.refused .push .read) ∧
      (∀ fault, sparing.step.result ≠ .error fault) ∧
      sparing.step.processor.cycles.toNat = 1 := by
  have holds := refusing.machine.contents_of_cells rfl
  have known : Instruction.ofWord? (refusing.machine.contents (.cell 0)) =
      some (.basic .add ⟨.literal 5, .a, 0, 0, none⟩ ⟨.push, .b, 0, 0, none⟩) := by
    rw [holds]
    decide
  have found : Instruction.ofWords? sparing.ahead =
      some (.basic .add ⟨.literal 5, .a, 0, 0, none⟩ ⟨.push, .b, 0, 0, none⟩) := by
    unfold ahead
    rw [sparing.machine.contents_of_cells rfl]
    decide
  obtain ⟨taken, succeeds, -⟩ := (retires_of_skip rfl found).exists_result
  obtain ⟨decided, -⟩ := fault_step refusing
  obtain ⟨spared, -, -, -, counted⟩ := fault_step sparing
  refine ⟨?_, ?_, counted (by decide) taken succeeds⟩
  · exact (decided _).mpr ⟨rfl, _, known, .computeReads (by decide) rfl (.inr rfl)⟩
  · intro fault faults
    cases ((spared fault).mp faults).1

/-- A step that ends in a fault leaves the general registers and O, the cycles and the pending skip
as they are, marks no jump, and leaves the processor running. PC stands on the last word of the
instruction. SP has moved up by one if and only if a POP has been read before the fault, and is as
before otherwise. In memory nothing has changed but keys that have been taken out of their cells. -/
theorem leftover_step {processor : Processor} {fault : Fault} {before : Contents}
    (contents : before = processor.machine.contents)
    (faults : processor.step.result = .error fault) :
    let next := processor.step.processor
    let after := next.machine.contents
    let sp := before (.register .sp)
    ∃ instruction, Instruction.ofWords? processor.ahead = some instruction ∧
      (∀ register, register ≠ .pc → register ≠ .sp →
        after (.register register) = before (.register register)) ∧
      next.cycles = processor.cycles ∧ next.skipPending = processor.skipPending ∧
      next.state = .running ∧ next.machine.registers.jumped = false ∧
      after (.register .pc) = before (.register .pc) + .ofNat (instruction.size - 1) ∧
      (after (.register .sp) = sp ∨ after (.register .sp) = sp + 1) ∧
      (after (.register .sp) = sp + 1 ↔ instruction.PopsFirst) ∧
      (instruction.PopsFirst ↔ ∃ operand ∈ instruction.readFirst, operand.mode = .pop) ∧
      ∀ address, after (.cell address) = before (.cell address) ∨
        Window.keyboard.contains address = true ∧ after (.cell address) = 0 := by
  intro next after sp
  subst contents
  obtain ⟨executes, instruction, found, faulty⟩ := result_step_eq_error_iff.mp faults
  have left := faults_of_fault? executes found (Instruction.faultsWith_iff.mp faulty)
  let ready := instruction.fetched processor.machine.contents
  have changed : after = instruction.leftover ready := left.contents_eq
  have pointer := Instruction.leftover_sp faulty ready
  have stack : ready (.register .sp) = sp := Instruction.fetched_register (by decide) _ _
  rw [← changed, stack] at pointer
  refine ⟨instruction, found, ?_, left.cycles_eq, left.skipPending_eq, left.state_eq,
    left.jumped_eq, ?_, ?_, ?_, ?_, ?_⟩
  · intro register counter pointer
    rw [changed, Instruction.leftover, Operand.foldl_reading_register _ _ pointer]
    exact Instruction.fetched_register counter _ _
  · rw [changed, Instruction.leftover, Operand.foldl_reading_register _ _ (by decide)]
    exact Instruction.fetched_pc _ _
  · exact pointer.imp And.left And.left
  · rcases pointer with ⟨same, without⟩ | ⟨moved, pops⟩
    · rw [same]
      exact iff_of_false (by simp) without
    · exact iff_of_true moved pops
  · have popped : (0 < instruction.readFirst.countP fun operand => operand.mode = .pop) ↔
        ∃ operand ∈ instruction.readFirst, operand.mode = .pop := by
      rw [List.countP_pos_iff]
      simp
    rw [← popped]
    rcases Instruction.countP_readFirst faulty with ⟨none, without⟩ | ⟨one, pops⟩
    · exact iff_of_false without (by rw [none]; exact Nat.lt_irrefl 0)
    · exact iff_of_true pops (by rw [one]; exact Nat.zero_lt_one)
  · intro address
    have words := instruction.fetched_cell processor.machine.contents address
    have values := Operand.foldl_reading_cell instruction.readFirst ready address
    rw [← Instruction.leftover, ← changed] at values
    rcases values with kept | key
    · rw [show ready (.cell address) = _ from words] at kept
      split at kept
      · next key => exact .inr ⟨key.2, kept⟩
      · exact .inl kept
    · exact .inr key

/-- A processor in front of `SUB POP, PUSH`, which stands in the keyboard window, with a key on top
of the stack. -/
def halfway : Processor where
  machine := {
    registers := { a := 7, pc := 0x9000, sp := 0x900F }
    ram := .ofCells [(0x100, 5), (0x9000, 0x6983), (0x900F, 0x41)] }
  decoder := .empty

/-- The POP has moved SP before the PUSH is refused, and PC has not moved. -/
theorem leftover_step_halfway :
    let after := halfway.step.processor.machine.contents
    halfway.step.result = .error (.refused .push .read) ∧
      after (.register .a) = 7 ∧ after (.register .pc) = 0x9000 ∧
      after (.register .sp) = 0x9010 ∧ after (.cell 0x100) = 5 := by
  intro after
  have holds := halfway.machine.contents_of_cells rfl
  have stands : Instruction.ofWords? halfway.ahead =
      some (.basic .sub ⟨.pop, .a, 0, 0, none⟩ ⟨.push, .b, 0, 0, none⟩) := by
    unfold ahead
    rw [holds]
    decide
  have faults : halfway.step.result = .error (.refused .push .read) :=
    result_step_eq_error_iff.mpr ⟨rfl, _, stands, .computeReads (by decide) rfl (.inr rfl)⟩
  obtain ⟨instruction, found, registers, -, -, -, -, counter, -, pops, -, cells⟩ :=
    leftover_step rfl faults
  rw [stands] at found
  cases found
  refine ⟨faults, registers .a (by decide) (by decide), counter, ?_, ?_⟩
  · exact pops.mpr (.inr ⟨by decide, rfl, rfl⟩)
  · rcases cells 0x100 with kept | ⟨key, -⟩
    · rw [show after (.cell 0x100) = _ from kept, holds]
      decide
    · cases key

end Faults

end Processor

end Dcpu16
