import Dcpu16.Proofs.Machine.Executions

/-!
# What operands have captured

An operand keeps what an execution has captured: its inline word, the content of the register that
it adds to this, and a stack cell. None of it is seen by the next execution. What an access goes by
is only what the mode of its operand asks for (`Operand.trimmed`, `Operand.read_trimmed`,
`Operand.write_trimmed`), and all of that is captured anew before the first access
(`Operand.exists_prepare_eq`). So instructions that differ only in what they have captured act
alike, and an instruction may be executed or passed over any number of times
(`Instruction.captured_unseen`).
-/
namespace Dcpu16

namespace Mode

/-- Does the mode add the content of a register to its word? -/
def addsRegister : Mode → Bool
  | indexed _ => true
  | _ => false

/-- The register that the mode names, if it names one, is one of the eight. -/
def InRange : Mode → Prop
  | register index | indirect index | indexed index => index < 0x08
  | _ => True

instance : DecidablePred InRange
  | register index => inferInstanceAs (Decidable (index < 0x08))
  | indirect index => inferInstanceAs (Decidable (index < 0x08))
  | indexed index => inferInstanceAs (Decidable (index < 0x08))
  | pop | peek | push | stackPointer | programCounter | overflow | absolute | immediate
  | literal _ => isTrue trivial

/-- A mode that comes from a code names no other register. -/
theorem Coded.inRange {mode : Mode} (coded : mode.Coded) : mode.InRange := by
  cases mode with
  | register | indirect | indexed => exact coded
  | _ => trivial

end Mode

namespace Operand

/-- The operand with nothing captured. -/
def bare (operand : Operand) : Operand := { mode := operand.mode, slot := operand.slot }

/-- The operand with no more captured than its mode asks for. -/
def trimmed (operand : Operand) : Operand :=
  { operand with
    nextWord := if operand.mode.takesWord then operand.nextWord else 0
    registerValue := if operand.mode.addsRegister then operand.registerValue else 0 }

end Operand

/-- The access with its operand trimmed. -/
def Access.trimmed {α : Type} (access : Access α) : Access α :=
  { access with operand := access.operand.trimmed }

namespace Operand

/-- The text of an operand shows its mode, and its inline word only where the mode has one. -/
theorem text_congr {left right : Operand} (mode : left.mode = right.mode)
    (word : left.mode.takesWord = true → left.nextWord = right.nextWord) :
    left.text = right.text := by
  unfold text
  rw [← mode]
  cases kind : left.mode with
  | indexed | absolute | immediate =>
    have shown : left.nextWord = right.nextWord := word (by rw [kind]; rfl)
    simp only [shown]
  | _ => rfl

/-- A trimmed operand has the same text. -/
theorem text_trimmed (operand : Operand) : operand.trimmed.text = operand.text := by
  have mode : operand.trimmed.mode = operand.mode := rfl
  exact text_congr mode fun takes => if_pos takes

section Trimmed

variable (operand : Operand) (machine : Machine)

/-- A POP claims the same cell through a trimmed operand. -/
theorem popAddress_trimmed :
    operand.trimmed.popAddress machine =
      ((operand.popAddress machine).1, (operand.popAddress machine).2.1.trimmed,
        (operand.popAddress machine).2.2) := by
  have claimed : operand.trimmed.stackAddress = operand.stackAddress := rfl
  unfold popAddress
  rw [claimed]
  cases operand.stackAddress <;> rfl

/-- A PUSH claims the same cell through a trimmed operand. -/
theorem pushAddress_trimmed :
    operand.trimmed.pushAddress machine =
      ((operand.pushAddress machine).1, (operand.pushAddress machine).2.1.trimmed,
        (operand.pushAddress machine).2.2) := by
  have claimed : operand.trimmed.stackAddress = operand.stackAddress := rfl
  unfold pushAddress
  rw [claimed]
  cases operand.stackAddress <;> rfl

/-- A read goes by nothing that a trimmed operand does not have. -/
theorem read_trimmed : operand.trimmed.read machine = (operand.read machine).trimmed := by
  have same : operand.trimmed.mode = operand.mode := rfl
  unfold read
  rw [same]
  cases mode : operand.mode with
  | register index =>
    cases found : machine.general? index <;> simp only [found] <;> rfl
  | indirect index =>
    cases found : machine.general? index <;> simp only [found] <;> rfl
  | pop =>
    simp only [popAddress_trimmed]
    rfl
  | indexed | absolute | immediate =>
    simp [trimmed, Access.trimmed, readCell, indexedAddress, mode, Mode.takesWord,
      Mode.addsRegister]
  | peek | push | stackPointer | programCounter | overflow | literal => rfl

/-- A write goes by nothing that a trimmed operand does not have. -/
theorem write_trimmed (value : Word) :
    operand.trimmed.write machine value = (operand.write machine value).trimmed := by
  have same : operand.trimmed.mode = operand.mode := rfl
  unfold write
  rw [same]
  cases mode : operand.mode with
  | register index =>
    cases found : Register.ofIndex? index <;> simp only [found] <;> rfl
  | indirect index =>
    cases found : machine.general? index <;> simp only [found] <;> rfl
  | pop =>
    simp only [popAddress_trimmed]
    rfl
  | push =>
    simp only [pushAddress_trimmed]
    rfl
  | indexed | absolute =>
    simp [trimmed, Access.trimmed, indexedAddress, mode, Mode.takesWord, Mode.addsRegister]
  | peek | stackPointer | programCounter | overflow | immediate | literal => rfl

/-- An operand gets ready with the same as one that has captured nothing. -/
theorem exists_prepare_eq (inRange : operand.mode.InRange) :
    ∃ ready fresh next, operand.prepare machine = ⟨.ok (), ready, next⟩ ∧
      operand.bare.prepare machine = ⟨.ok (), fresh, next⟩ ∧ ready.trimmed = fresh.trimmed := by
  unfold prepare fetch
  cases mode : operand.mode with
  | indexed index =>
    rw [mode] at inRange
    obtain ⟨register, found⟩ := Register.exists_ofIndex? inRange
    simp only [bare, mode, Mode.takesWord, Machine.general?, found, Option.map_some, ↓reduceIte]
    exact ⟨_, _, _, rfl, rfl, by simp [trimmed, Mode.takesWord, Mode.addsRegister]⟩
  | absolute | immediate =>
    simp only [bare, mode, Mode.takesWord, ↓reduceIte]
    exact ⟨_, _, _, rfl, rfl, by simp [trimmed, Mode.takesWord, Mode.addsRegister]⟩
  | _ =>
    simp only [bare, mode, Mode.takesWord, Bool.false_eq_true, ↓reduceIte]
    exact ⟨_, _, _, rfl, rfl, by simp [trimmed, Mode.takesWord, Mode.addsRegister]⟩

/-- An operand is passed over as one that has captured nothing, and has the same text then. -/
theorem exists_pass_bare_eq :
    ∃ passed fresh next, operand.pass machine = (passed, next) ∧
      operand.bare.pass machine = (fresh, next) ∧ passed.text = fresh.text := by
  have same : operand.bare.mode = operand.mode := rfl
  unfold pass
  rw [same]
  cases takes : operand.mode.takesWord with
  | false => exact ⟨_, _, machine, rfl, rfl, text_congr rfl (by simp [takes])⟩
  | true => exact ⟨_, _, machine.advance, rfl, rfl, text_congr rfl fun _ => rfl⟩

end Trimmed

section Bare

variable (operand : Operand) (machine : Machine)

/-- Claiming a cell for a POP does not change which operand it is. -/
theorem bare_popAddress : (operand.popAddress machine).2.1.bare = operand.bare := by
  unfold popAddress
  split <;> rfl

/-- Claiming a cell for a PUSH does not change which operand it is. -/
theorem bare_pushAddress : (operand.pushAddress machine).2.1.bare = operand.bare := by
  unfold pushAddress
  split <;> rfl

/-- Fetching its word does not change which operand it is. -/
theorem bare_fetch : (operand.fetch machine).1.bare = operand.bare := by
  unfold fetch
  split <;> rfl

/-- Getting ready does not change which operand it is. -/
theorem bare_prepare : (operand.prepare machine).operand.bare = operand.bare := by
  rw [← operand.bare_fetch machine]
  unfold prepare
  simp only
  split
  · split <;> rfl
  · rfl

/-- Being passed over does not change which operand it is. -/
theorem bare_pass : (operand.pass machine).1.bare = operand.bare := by
  unfold pass
  split <;> rfl

/-- A read does not change which operand it is. -/
theorem bare_read : (operand.read machine).operand.bare = operand.bare := by
  unfold read
  cases operand.mode with
  | register index | indirect index =>
    simp only
    split <;> rfl
  | pop => exact operand.bare_popAddress machine
  | _ => rfl

/-- A write does not change which operand it is. -/
theorem bare_write (value : Word) : (operand.write machine value).operand.bare = operand.bare := by
  unfold write
  cases operand.mode with
  | register index | indirect index =>
    simp only
    split <;> rfl
  | pop => exact operand.bare_popAddress machine
  | push => exact operand.bare_pushAddress machine
  | _ => rfl

end Bare

end Operand

/-- The instruction with its operands trimmed. -/
def Instruction.trimmed : Instruction → Instruction
  | .basic opcode a b => .basic opcode a.trimmed b.trimmed
  | .special opcode a => .special opcode a.trimmed

/-- The execution with its instruction trimmed. -/
def Execution.trimmed (execution : Execution) : Execution :=
  { execution with instruction := execution.instruction.trimmed }

namespace Instruction

/-- The instruction with nothing captured. -/
def bare : Instruction → Instruction
  | .basic opcode a b => .basic opcode a.bare b.bare
  | .special opcode a => .special opcode a.bare

section Trimmed

variable (opcode : Opcode) (a b : Operand) (machine : Machine)

/-- A result is stored the same through a trimmed destination. -/
theorem store_trimmed (result : Result) :
    store opcode a.trimmed b.trimmed machine result =
      (store opcode a b machine result).trimmed := by
  unfold store
  rw [a.write_trimmed machine result.value]
  rcases a.write machine result.value with ⟨fault | done, written, next⟩
  · rfl
  · rfl

/-- Two trimmed operands are read the same, if what comes then goes by no more than they have. -/
theorem readBoth_trimmed {continuation : Operand → Operand → Machine → Word → Word → Execution}
    (goesOn : ∀ a b machine x y, continuation a.trimmed b.trimmed machine x y =
      (continuation a b machine x y).trimmed) :
    readBoth opcode a.trimmed b.trimmed machine continuation =
      (readBoth opcode a b machine continuation).trimmed := by
  unfold readBoth
  rw [a.read_trimmed machine]
  rcases a.read machine with ⟨fault | x, aRead, first⟩
  · rfl
  · simp only [Access.trimmed, b.read_trimmed first]
    rcases b.read first with ⟨fault | y, bRead, second⟩
    · rfl
    · exact goesOn aRead bRead second x y

/-- An opcode goes by nothing that trimmed operands do not have. -/
theorem perform_trimmed :
    perform opcode a.trimmed b.trimmed machine = (perform opcode a b machine).trimmed := by
  unfold perform
  cases opcode.action with
  | move =>
    simp only [b.read_trimmed machine]
    rcases b.read machine with ⟨fault | value, bRead, read⟩
    · rfl
    · exact store_trimmed opcode a bRead read ⟨value, none⟩
  | test holds => exact readBoth_trimmed opcode a b machine fun _ _ _ _ _ => rfl
  | combine result =>
    exact readBoth_trimmed opcode a b machine fun a b machine x y =>
      store_trimmed opcode a b machine (result x y)

/-- A call goes by nothing that a trimmed operand does not have. -/
theorem call_trimmed : call a.trimmed machine = (call a machine).trimmed := by
  unfold call
  rw [a.read_trimmed machine]
  rcases a.read machine with ⟨fault | target, aRead, read⟩
  · rfl
  · rfl

end Trimmed

/-- An instruction is executed as one that has captured nothing: all that its accesses go by is
captured before the first of them. -/
theorem execute_trimmed {instruction : Instruction}
    (inRange : ∀ operand ∈ instruction.operands, operand.mode.InRange) (machine : Machine) :
    (instruction.execute machine).trimmed = (instruction.bare.execute machine).trimmed := by
  cases instruction with
  | basic opcode a b =>
    obtain ⟨aReady, aFresh, first, aPrepares, aBare, aSame⟩ :=
      a.exists_prepare_eq machine (inRange a (by simp [operands]))
    obtain ⟨bReady, bFresh, second, bPrepares, bBare, bSame⟩ :=
      b.exists_prepare_eq first (inRange b (by simp [operands]))
    simp only [execute, bare, aPrepares, aBare, bPrepares, bBare]
    rw [← perform_trimmed, aSame, bSame, perform_trimmed]
  | special opcode a =>
    cases opcode
    obtain ⟨ready, fresh, next, prepares, bare, same⟩ :=
      a.exists_prepare_eq machine (inRange a (by simp [operands]))
    simp only [execute, Instruction.bare, prepares, bare]
    rw [← call_trimmed, same, call_trimmed]

/-- A trimmed instruction has the same text. -/
theorem text_trimmed (instruction : Instruction) : instruction.trimmed.text = instruction.text := by
  cases instruction with
  | basic opcode a b => simp only [trimmed, text, Operand.text_trimmed]
  | special opcode a => simp only [trimmed, text, Operand.text_trimmed]

/-- An instruction is passed over as one that has captured nothing. -/
theorem pass_bare (instruction : Instruction) (machine : Machine) :
    (instruction.pass machine).2 = (instruction.bare.pass machine).2 ∧
      (instruction.pass machine).1.text = (instruction.bare.pass machine).1.text := by
  cases instruction with
  | basic opcode a b =>
    obtain ⟨aPassed, aFresh, first, aPasses, aBare, aSame⟩ := a.exists_pass_bare_eq machine
    obtain ⟨bPassed, bFresh, second, bPasses, bBare, bSame⟩ := b.exists_pass_bare_eq first
    simp only [pass, bare, aPasses, aBare, bPasses, bBare, text, aSame, bSame, and_self]
  | special opcode a =>
    obtain ⟨passed, fresh, next, passes, bare, same⟩ := a.exists_pass_bare_eq machine
    simp only [pass, Instruction.bare, passes, bare, text, same, and_self]

section Bare

variable (opcode : Opcode) (a b : Operand) (machine : Machine)

/-- Storing a result does not change which instruction it is. -/
theorem bare_store (result : Result) :
    (store opcode a b machine result).instruction.bare = (basic opcode a b).bare := by
  obtain ⟨done, stored, next, writes, same⟩ : ∃ done stored next,
      a.write machine result.value = ⟨done, stored, next⟩ ∧ stored.bare = a.bare :=
    ⟨_, _, _, rfl, a.bare_write machine result.value⟩
  rw [store, writes]
  cases done <;> simp only [bare, same]

/-- Reading two operands does not change which instruction it is, if what comes then does not. -/
theorem bare_readBoth {continuation : Operand → Operand → Machine → Word → Word → Execution}
    (goesOn : ∀ a b machine x y,
      (continuation a b machine x y).instruction.bare = (basic opcode a b).bare) :
    (readBoth opcode a b machine continuation).instruction.bare = (basic opcode a b).bare := by
  obtain ⟨x, aRead, first, aReads, aSame⟩ : ∃ x aRead first,
      a.read machine = ⟨x, aRead, first⟩ ∧ aRead.bare = a.bare :=
    ⟨_, _, _, rfl, a.bare_read machine⟩
  obtain ⟨y, bRead, second, bReads, bSame⟩ : ∃ y bRead second,
      b.read first = ⟨y, bRead, second⟩ ∧ bRead.bare = b.bare :=
    ⟨_, _, _, rfl, b.bare_read first⟩
  rw [readBoth, aReads]
  cases x with
  | error fault => simp only [bare, aSame]
  | ok x =>
    simp only [bReads]
    cases y with
    | error fault => simp only [bare, aSame, bSame]
    | ok y => rw [goesOn, bare, bare, aSame, bSame]

/-- Performing an instruction does not change which it is. -/
theorem bare_perform : (perform opcode a b machine).instruction.bare = (basic opcode a b).bare := by
  unfold perform
  cases opcode.action with
  | move =>
    obtain ⟨value, bRead, read, reads, same⟩ : ∃ value bRead read,
        b.read machine = ⟨value, bRead, read⟩ ∧ bRead.bare = b.bare :=
      ⟨_, _, _, rfl, b.bare_read machine⟩
    simp only [reads]
    cases value with
    | error fault => simp only [bare, same]
    | ok value => rw [bare_store, bare, bare, same]
  | test holds => exact bare_readBoth opcode a b machine fun _ _ _ _ _ => rfl
  | combine result =>
    exact bare_readBoth opcode a b machine fun a b machine x y =>
      bare_store opcode a b machine (result x y)

/-- A call does not change which instruction it is. -/
theorem bare_call : (call a machine).instruction.bare = (special .jsr a).bare := by
  obtain ⟨target, aRead, read, reads, same⟩ : ∃ target aRead read,
      a.read machine = ⟨target, aRead, read⟩ ∧ aRead.bare = a.bare :=
    ⟨_, _, _, rfl, a.bare_read machine⟩
  rw [call, reads]
  cases target <;> simp only [bare, same]

end Bare

/-- Executing an instruction does not change which it is, also when it ends in a fault. -/
theorem bare_execute (instruction : Instruction) (machine : Machine) :
    (instruction.execute machine).instruction.bare = instruction.bare := by
  cases instruction with
  | basic opcode a b =>
    obtain ⟨prepared, aReady, first, aPrepares, aSame⟩ : ∃ prepared aReady first,
        a.prepare machine = ⟨prepared, aReady, first⟩ ∧ aReady.bare = a.bare :=
      ⟨_, _, _, rfl, a.bare_prepare machine⟩
    obtain ⟨preparedThen, bReady, second, bPrepares, bSame⟩ : ∃ prepared bReady second,
        b.prepare first = ⟨prepared, bReady, second⟩ ∧ bReady.bare = b.bare :=
      ⟨_, _, _, rfl, b.bare_prepare first⟩
    rw [execute, aPrepares]
    cases prepared with
    | error fault => simp only [bare, aSame]
    | ok =>
      simp only [bPrepares]
      cases preparedThen with
      | error fault => simp only [bare, aSame, bSame]
      | ok => rw [bare_perform, bare, bare, aSame, bSame]
  | special opcode a =>
    cases opcode
    obtain ⟨prepared, ready, next, prepares, same⟩ : ∃ prepared ready next,
        a.prepare machine = ⟨prepared, ready, next⟩ ∧ ready.bare = a.bare :=
      ⟨_, _, _, rfl, a.bare_prepare machine⟩
    rw [execute, prepares]
    cases prepared with
    | error fault => simp only [bare, same]
    | ok => rw [bare_call, bare, bare, same]

/-- Passing over an instruction does not change which it is. -/
theorem bare_pass (instruction : Instruction) (machine : Machine) :
    (instruction.pass machine).1.bare = instruction.bare := by
  cases instruction <;> simp only [pass, bare, Operand.bare_pass]

/-- Two instructions act alike on a machine: executed, they have the same outcome or the same fault
and leave the same machine, and passed over, they leave the same machine as well. In either case
they have the same text afterwards. -/
structure ActsLike (left right : Instruction) (machine : Machine) : Prop where
  result_eq : (left.execute machine).result = (right.execute machine).result
  machine_eq : (left.execute machine).machine = (right.execute machine).machine
  text_eq : (left.execute machine).instruction.text = (right.execute machine).instruction.text
  passed_eq : (left.pass machine).2 = (right.pass machine).2
  passedText_eq : (left.pass machine).1.text = (right.pass machine).1.text

/-- The registers that an instruction names do not depend on what it has captured. -/
theorem inRange_bare_iff (instruction : Instruction) :
    (∀ operand ∈ instruction.bare.operands, operand.mode.InRange) ↔
      ∀ operand ∈ instruction.operands, operand.mode.InRange := by
  cases instruction <;> simp [bare, operands, Operand.bare]

/-- Instructions that differ in nothing but what they have captured act alike. -/
theorem actsLike_of_bare_eq {left right : Instruction} (same : left.bare = right.bare)
    (inRange : ∀ operand ∈ left.operands, operand.mode.InRange) (machine : Machine) :
    left.ActsLike right machine := by
  have inRangeThen : ∀ operand ∈ right.operands, operand.mode.InRange := by
    rw [← inRange_bare_iff, ← same, inRange_bare_iff]
    exact inRange
  have executed : (left.execute machine).trimmed = (right.execute machine).trimmed := by
    rw [execute_trimmed inRange, same, execute_trimmed inRangeThen]
  have text : (left.execute machine).instruction.trimmed.text =
      (right.execute machine).instruction.trimmed.text :=
    congrArg (fun execution => execution.instruction.text) executed
  rw [text_trimmed, text_trimmed] at text
  obtain ⟨leftPassed, leftText⟩ := left.pass_bare machine
  obtain ⟨rightPassed, rightText⟩ := right.pass_bare machine
  rw [same] at leftPassed leftText
  exact {
    result_eq := congrArg (fun execution => execution.result) executed
    machine_eq := congrArg (fun execution => execution.machine) executed
    text_eq := text
    passed_eq := leftPassed.trans rightPassed.symm
    passedText_eq := leftText.trans rightText.symm }

/-- An instruction that has been executed and passed over, any number of times and on any
machines. -/
inductive Used (instruction : Instruction) : Instruction → Prop
  | unused : Used instruction instruction
  | executed {used : Instruction} (before : Used instruction used) (machine : Machine) :
    Used instruction (used.execute machine).instruction
  | passed {used : Instruction} (before : Used instruction used) (machine : Machine) :
    Used instruction (used.pass machine).1

/-- Using an instruction does not change which it is. -/
theorem Used.bare_eq {instruction used : Instruction} (uses : instruction.Used used) :
    used.bare = instruction.bare := by
  induction uses with
  | unused => rfl
  | executed before machine ih => rw [bare_execute, ih]
  | passed before machine ih => rw [bare_pass, ih]

/-- Nothing that an execution has captured is seen by another one: two instructions with the same
opcode and the same modes in the same fields act alike on every machine, whatever their operands
have captured, if the registers that they name are among the eight. So an instruction that a word
stands for may be executed and passed over any number of times, and still acts like a fresh one. -/
theorem captured_unseen :
    (∀ left right : Instruction, left.bare = right.bare →
      (∀ operand ∈ left.operands, operand.mode.InRange) →
      ∀ machine, left.ActsLike right machine) ∧
    ∀ word fresh used, ofWord? word = some fresh → fresh.Used used →
      ∀ machine, used.ActsLike fresh machine := by
  refine ⟨fun left right same inRange machine => actsLike_of_bare_eq same inRange machine, ?_⟩
  intro word fresh used known uses machine
  have inRange : ∀ operand ∈ used.operands, operand.mode.InRange := by
    rw [← inRange_bare_iff, uses.bare_eq, inRange_bare_iff]
    exact fun operand member => (coded_of_ofWord? known operand member).inRange
  exact actsLike_of_bare_eq uses.bare_eq inRange machine

/-- A machine with the words of `ADD [0x1000+I], POP`, 5 in the cell 0x1001 and 7 on the stack. -/
def desk : Machine where
  registers := { i := 1, sp := 0x100 }
  ram := .ofCells [(0, 0x6162), (1, 0x1000), (0x100, 7), (0x1001, 5)]

/-- The instruction on the desk. -/
def tidy : Instruction :=
  .basic .add { mode := .indexed 6, slot := .a } { mode := .pop, slot := .b }

/-- The same instruction, which has captured an inline word, a register and two stack cells. -/
def cluttered : Instruction :=
  .basic .add ⟨.indexed 6, .a, 0x2000, 7, some 3⟩ ⟨.pop, .b, 0x3000, 9, some 0x1001⟩

/-- Neither the captured cell nor the captured word is used, and no more is one captured by an
earlier execution. -/
theorem captured_unseen_cluttered :
    (cluttered.execute desk).machine.contents (.cell 0x1001) = 12 ∧
      (cluttered.execute desk).machine.contents (.register .sp) = 0x101 ∧
      (((tidy.execute desk).instruction.pass desk).1.execute desk).machine.contents
        (.cell 0x1001) = 12 := by
  have holds := desk.contents_of_cells rfl
  have known : ofWord? 0x6162 = some tidy := by decide
  obtain ⟨alike, fresh⟩ := captured_unseen
  have first := alike cluttered tidy rfl (by decide) desk
  have again := fresh 0x6162 tidy _ known (.passed (.executed .unused desk) desk) desk
  have faultless : (tidy.fill desk.contents.behind).fault? = none := by
    rw [fault?_fill]
    decide
  obtain ⟨ready, outcome, executed, next, executes, fetched, -, performed⟩ :=
    exists_performed desk (coded_of_ofWord? known) rfl faultless
  have changed : (tidy.execute desk).machine.contents = _ :=
    (congrArg (fun execution => execution.machine.contents) executes).trans performed.contents_eq
  rw [fetched, holds] at changed
  rw [first.machine_eq, again.machine_eq, changed]
  decide

end Instruction

end Dcpu16
