import Dcpu16.Proofs.Machine.Changes
import Dcpu16.Proofs.Machine.Executions

/-!
# Short forms

A value below 20 (hexadecimal) can be written into an instruction as a literal, or behind it as a
word of its own. Either way operand `b` is a constant of the same value (`Operand.Holds`), and an
execution goes by nothing else. With the word behind it, PC stands one further on throughout, which
no operand sees but PC itself; so the two forms do the same (`Instruction.short_form`).
-/
namespace Dcpu16

namespace Operand

section Counter

variable {operand : Operand} {contents : Contents}

/-- No operand but PC has a value that depends on PC. -/
theorem value_update (elsewhere : operand.mode ≠ .programCounter) (contents : Contents)
    (pc : Word) :
    operand.value (Function.update contents (.register .pc) pc) = operand.value contents := by
  cases located : operand.place? contents with
  | none =>
    have moved := (place?_update operand contents pc).trans located
    unfold value
    rw [located, moved]
    rfl
  | some place =>
    have apart : place ≠ .register .pc := by
      rintro rfl
      exact elsewhere ((place_eq_pc_iff located).mp rfl)
    have moved := (place?_update operand contents pc).trans located
    rw [value_of_place? located, value_of_place? moved, Function.update_of_ne apart]

/-- Claiming a stack cell does not depend on PC. -/
theorem claiming_update (operand : Operand) (contents : Contents) (pc : Word) :
    operand.claiming (Function.update contents (.register .pc) pc) =
      Function.update (operand.claiming contents) (.register .pc) pc := by
  have apart : Place.register .pc ≠ .register .sp := by simp
  have same : Function.update contents (.register .pc) pc (.register .sp) =
      contents (.register .sp) := Function.update_of_ne apart.symm ..
  unfold claiming
  rw [same]
  split_ifs
  · exact Function.update_comm apart ..
  · exact Function.update_comm apart ..
  · rfl

/-- Reading an operand does not depend on PC. -/
theorem reading_update (operand : Operand) (contents : Contents) (pc : Word) :
    operand.reading (Function.update contents (.register .pc) pc) =
      Function.update (operand.reading contents) (.register .pc) pc := by
  unfold reading
  rw [place?_update, claiming_update]
  rcases operand.place? contents with _ | _ | address
  · rfl
  · rfl
  · exact taken_update_register _ address .pc pc

/-- Which stack cell a read claims does not depend on PC. -/
theorem claim?_update (operand : Operand) (contents : Contents) (pc : Word) :
    operand.claim? (Function.update contents (.register .pc) pc) = operand.claim? contents := by
  unfold claim?
  rw [Function.update_of_ne (by simp)]

/-- Storing through another operand than PC does not depend on PC. -/
theorem storing_update (elsewhere : operand.mode ≠ .programCounter) (claimed : Option Word)
    (contents : Contents) (pc value : Word) :
    operand.storing claimed (Function.update contents (.register .pc) pc) value =
      Function.update (operand.storing claimed contents value) (.register .pc) pc := by
  unfold storing
  rw [place?_update, claiming_update]
  cases claimed with
  | some address => exact Function.update_comm (by simp) ..
  | none =>
    cases located : operand.place? contents with
    | none => rfl
    | some place =>
      have apart : .register .pc ≠ place :=
        mt (place_eq_pc_iff located).mp elsewhere
      exact Function.update_comm apart ..

/-- Storing through PC leaves nothing of what was there. -/
theorem storing_counter (counter : operand.mode = .programCounter) (contents : Contents)
    (value : Word) :
    operand.storing none contents value =
      Function.update contents (.register .pc) value := by
  simp [storing, place?, claiming, counter]

end Counter

/-- The operand is a constant of this value. -/
structure Holds (operand : Operand) (value : Word) : Prop where
  constant : operand.mode.isConstant = true
  value_eq : ∀ contents, operand.value contents = value

section Holds

variable {operand : Operand} {value : Word}

/-- A constant can be read. -/
theorem Holds.readable (holds : operand.Holds value) : operand.mode ≠ .push :=
  Mode.ne_push_of_isConstant holds.constant

/-- Reading a constant changes nothing. -/
theorem Holds.reading_eq (holds : operand.Holds value) (contents : Contents) :
    operand.reading contents = contents := by
  have constant := holds.constant
  cases mode : operand.mode with
  | immediate | literal => simp [reading, place?, claiming, mode]
  | _ =>
    rw [mode] at constant
    cases constant

end Holds

end Operand

namespace Instruction

section Forms

variable {opcode : Opcode} {a short long : Operand} {value : Word} {contents : Contents}

/-- The contents in which `b` is read do not depend on PC. -/
theorem firstRead_update (opcode : Opcode) (a : Operand) (contents : Contents) (pc : Word) :
    firstRead opcode a (Function.update contents (.register .pc) pc) =
      Function.update (firstRead opcode a contents) (.register .pc) pc := by
  unfold firstRead
  split_ifs
  · rfl
  · exact a.reading_update contents pc

/-- Whether an instruction has a fault does not depend on how its constant is written. -/
theorem fault?_eq_of_holds (shortHolds : short.Holds value) (longHolds : long.Holds value) :
    (basic opcode a long).fault? = (basic opcode a short).fault? := by
  simp only [fault?, shortHolds.readable, longHolds.readable]

/-- The operands that are read before a fault leave the same, with PC one further on. -/
theorem leftover_advanced (shortHolds : short.Holds value) (longHolds : long.Holds value)
    (contents : Contents) :
    (basic opcode a long).leftover
        (Function.update contents (.register .pc) (contents (.register .pc) + 1)) =
      Function.update ((basic opcode a short).leftover contents) (.register .pc)
        ((basic opcode a short).leftover contents (.register .pc) + 1) := by
  have stays : (basic opcode a short).leftover contents (.register .pc) =
      contents (.register .pc) := Operand.foldl_reading_register _ _ (by decide)
  rw [stays]
  by_cases moves : opcode = .set
  · simp [leftover, readFirst, readOrder, moves, shortHolds.readable, longHolds.readable,
      shortHolds.reading_eq, longHolds.reading_eq]
  · by_cases push : a.mode = .push
    · simp [leftover, readFirst, readOrder, moves, push]
    · simp [leftover, readFirst, readOrder, moves, push, shortHolds.readable, longHolds.readable,
        shortHolds.reading_eq, longHolds.reading_eq, a.reading_update]

/-- A comparison with a constant does not depend on how the constant is written. -/
theorem fails_update (shortHolds : short.Holds value) (longHolds : long.Holds value)
    (elsewhere : a.mode = .programCounter → opcode = .set) (contents : Contents) (pc : Word) :
    (basic opcode a long).Fails (Function.update contents (.register .pc) pc) ↔
      (basic opcode a short).Fails contents := by
  by_cases moves : opcode = .set
  · subst moves
    exact iff_of_false (fun fails => nomatch fails) (fun fails => nomatch fails)
  · have other : a.mode ≠ .programCounter := mt elsewhere moves
    simp only [Fails, shortHolds.value_eq, longHolds.value_eq, a.value_update other]

/-- Where nothing but a move stores in PC, an instruction jumps if and only if it moves a value
there. -/
theorem isSome_target?_eq (elsewhere : a.mode = .programCounter → opcode = .set) (b : Operand)
    (contents : Contents) :
    ((basic opcode a b).target? contents).isSome =
      decide (opcode = .set ∧ a.mode = .programCounter) := by
  by_cases counter : a.mode = .programCounter
  · obtain rfl := elsewhere counter
    simp [target?, counter, Opcode.isConditional, Opcode.action]
  · simp [target?, counter]

/-- What an instruction computes with a constant does not depend on how the constant is written. -/
theorem computed_update (shortHolds : short.Holds value) (longHolds : long.Holds value)
    (elsewhere : a.mode = .programCounter → opcode = .set) (contents : Contents) (pc : Word) :
    computed opcode a long (Function.update contents (.register .pc) pc) =
      computed opcode a short contents := by
  unfold computed
  rw [shortHolds.value_eq, longHolds.value_eq]
  by_cases moves : opcode = .set
  · -- A move does not look at the first operand.
    subst moves
    rfl
  · rw [a.value_update (mt elsewhere moves)]

/-- An instruction does the same with a constant however this is written. PC is one further on if it
has been before, unless the constant is moved there. -/
theorem after_advanced (shortHolds : short.Holds value) (longHolds : long.Holds value)
    (elsewhere : a.mode = .programCounter → opcode = .set) (contents : Contents) :
    let left := (basic opcode a short).after contents
    (basic opcode a long).after
        (Function.update contents (.register .pc) (contents (.register .pc) + 1)) =
      Function.update left (.register .pc)
        (if opcode = .set ∧ a.mode = .programCounter then left (.register .pc)
        else left (.register .pc) + 1) := by
  intro left
  by_cases jumps : opcode = .set ∧ a.mode = .programCounter
  · obtain ⟨rfl, counter⟩ := jumps
    have moved (b : Operand) (holds : b.Holds value) (contents : Contents) :
        (basic .set a b).after contents = Function.update contents (.register .pc) value := by
      have after : (basic .set a b).after contents =
          a.storing none (b.reading contents) (b.value contents) := rfl
      rw [after, holds.reading_eq, holds.value_eq, a.storing_counter counter]
    rw [if_pos ⟨rfl, counter⟩, Function.update_eq_self, moved long longHolds,
      Function.update_idem]
    exact (moved short shortHolds contents).symm
  · have other : a.mode ≠ .programCounter := fun counter => jumps ⟨elsewhere counter, counter⟩
    have stays : left (.register .pc) = contents (.register .pc) := by
      have stored := (basic opcode a short).after_pc contents
      rwa [target?, if_neg fun both => other both.2] at stored
    have apart (overflow : Option Word) := @notMem_overflow overflow (.register .pc) (by simp)
    rw [if_neg jumps, stays]
    simp only [left, after, shortHolds.reading_eq, longHolds.reading_eq, firstRead_update,
      a.claim?_update, a.storing_update other, computed_update shortHolds longHolds elsewhere,
      assign_update_of_notMem (apart _)]
    split_ifs <;> rfl

end Forms

/-- What the operands fetch when operand `b` is a literal, and when it is the next word. -/
theorem fetching_forms {opcode : Opcode} {a short long : Operand} {contents : Contents}
    (literal : short.mode.takesWord = false) (immediate : long.mode.takesWord = true)
    (outside : Window.keyboard.contains (a.fetching contents (.register .pc) + 1) = false) :
    (basic opcode a long).fetching contents =
      Function.update ((basic opcode a short).fetching contents) (.register .pc)
        ((basic opcode a short).fetching contents (.register .pc) + 1) := by
  let first := a.fetching contents
  have nothing : short.fetching first = first := if_neg (by simp [literal])
  have word : long.fetching first =
      Function.update first (.register .pc) (first (.register .pc) + 1) := by
    rw [Operand.fetching, if_pos immediate, taken_of_outside _ _ outside]
  simp only [fetching, operands, List.foldl_cons, List.foldl_nil]
  rw [show long.fetching (a.fetching contents) = _ from word,
    show short.fetching (a.fetching contents) = _ from nothing]

section Execution

variable {opcode : Opcode} {a : Operand} {n : Word} {machine : Machine}

/-- Two executions on a machine end alike, but PC is one further on in the second unless they
jump. -/
structure EndAlike (machine : Machine) (short long : Execution) (jumps : Prop) [Decidable jumps] :
    Prop where
  result_eq : long.result = short.result
  contents_eq : long.machine.contents =
    Function.update short.machine.contents (.register .pc)
      (if jumps then short.machine.contents (.register .pc)
      else short.machine.contents (.register .pc) + 1)
  jumped_eq : short.machine.registers.jumped = (machine.registers.jumped || decide jumps)
  same_jumped : long.machine.registers.jumped = short.machine.registers.jumped

/-- Two machines have fetched the words of an instruction, the second of them one word more. -/
structure FetchAlike (machine short long : Machine) : Prop where
  contents_eq : long.contents =
    Function.update short.contents (.register .pc) (short.contents (.register .pc) + 1)
  short_jumped : short.registers.jumped = machine.registers.jumped
  long_jumped : long.registers.jumped = machine.registers.jumped

section Ends

variable {short long : Operand} {shortReady longReady : Machine}

/-- Instructions that go through with the same constant end alike. -/
theorem endAlike_of_performed (shortHolds : short.Holds n) (longHolds : long.Holds n)
    (elsewhere : a.mode = .programCounter → opcode = .set)
    (fetch : FetchAlike machine shortReady longReady) {shortOutcome longOutcome : Outcome}
    {shortDone longDone : Instruction} {shortNext longNext : Machine}
    (shortDoes : (basic opcode a short).Performed shortReady shortOutcome shortDone shortNext)
    (longDoes : (basic opcode a long).Performed longReady longOutcome longDone longNext) :
    EndAlike machine ⟨.ok shortOutcome, shortDone, shortNext⟩
      ⟨.ok longOutcome, longDone, longNext⟩ (opcode = .set ∧ a.mode = .programCounter) := by
  have skips : longOutcome = .skipNext ↔ shortOutcome = .skipNext := by
    rw [longDoes.skips_iff, shortDoes.skips_iff, fetch.contents_eq]
    exact fails_update shortHolds longHolds elsewhere _ _
  have outcome : longOutcome = shortOutcome := by
    cases longOutcome <;> cases shortOutcome <;> simp at skips ⊢
  have jumped : shortNext.registers.jumped =
      (machine.registers.jumped || decide (opcode = .set ∧ a.mode = .programCounter)) := by
    rw [shortDoes.jumped_eq, fetch.short_jumped, isSome_target?_eq elsewhere]
  refine ⟨congrArg Except.ok outcome, ?_, jumped, ?_⟩
  · have left := after_advanced shortHolds longHolds elsewhere shortReady.contents
    rw [← fetch.contents_eq, ← shortDoes.contents_eq, ← longDoes.contents_eq] at left
    exact left
  · show longNext.registers.jumped = shortNext.registers.jumped
    rw [jumped, longDoes.jumped_eq, fetch.long_jumped, isSome_target?_eq elsewhere]

/-- Instructions that end in the same fault end alike. They do not jump, as a constant can always be
moved to PC. -/
theorem endAlike_of_faulted (shortHolds : short.Holds n) (longHolds : long.Holds n)
    (fetch : FetchAlike machine shortReady longReady) {fault : Fault}
    (faulty : (basic opcode a short).fault? = some fault) {shortEnd longEnd : Execution}
    (shortFails : (basic opcode a short).Faulted shortReady fault shortEnd)
    (longFails : (basic opcode a long).Faulted longReady fault longEnd) :
    EndAlike machine shortEnd longEnd (opcode = .set ∧ a.mode = .programCounter) := by
  have stays : ¬(opcode = .set ∧ a.mode = .programCounter) := by
    rintro ⟨rfl, counter⟩
    have storable : a.mode.isConstant = false := by rw [counter]; rfl
    have faultless : (basic .set a short).fault? = none :=
      fault?_basic_eq_none_iff.mpr
        ⟨shortHolds.readable, fun other => absurd rfl other, fun _ => storable⟩
    cases faultless.symm.trans faulty
  refine ⟨longFails.result_eq.trans shortFails.result_eq.symm, ?_, ?_, ?_⟩
  · have left := @leftover_advanced opcode a _ _ _ shortHolds longHolds shortReady.contents
    rw [← fetch.contents_eq, ← shortFails.contents_eq, ← longFails.contents_eq] at left
    rw [if_neg stays]
    exact left
  · rw [shortFails.jumped_eq, fetch.short_jumped, decide_eq_false stays, Bool.or_false]
  · rw [longFails.jumped_eq, shortFails.jumped_eq, fetch.long_jumped, fetch.short_jumped]

end Ends

/-- An instruction with a literal ends like the one with a next word of the same value. -/
theorem endAlike_execute (coded : a.mode.Coded)
    (elsewhere : a.mode = .programCounter → opcode = .set) (small : (Mode.literal n).Coded)
    {address : Word}
    (behind : address = machine.contents (.register .pc) + (if a.mode.takesWord then 1 else 0) + 1)
    (word : machine.contents (.cell address) = n)
    (outside : Window.keyboard.contains address = false) :
    EndAlike machine ((basic opcode a { mode := .literal n, slot := .b }).execute machine)
      ((basic opcode a { mode := .immediate, slot := .b }).execute machine)
      (opcode = .set ∧ a.mode = .programCounter) := by
  have here : address = a.fetching machine.contents (.register .pc) + 1 := by
    rw [behind, a.fetching_pc]
  subst here
  -- The inline word of `b` is the next of the words behind PC that `a` has left.
  let following := machine.contents.behind
  have next : (a.fill following).2.headD 0 = n := by
    rw [a.headD_fill_behind (a.fetching_pc _) (a.fetching_behind _), a.fetching_behind, word]
  let filled := (a.fill following).1
  let short : Operand := { mode := .literal n, slot := .b }
  let long : Operand := { mode := .immediate, slot := .b, nextWord := (a.fill following).2.headD 0 }
  have same : filled.mode = a.mode := a.mode_fill following
  have shortHolds : short.Holds n := ⟨rfl, fun _ => rfl⟩
  have longHolds : long.Holds n := ⟨rfl, fun _ => next⟩
  have shortCoded : ∀ operand ∈ (basic opcode a { mode := .literal n, slot := .b }).operands,
      operand.mode.Coded := by
    simpa [operands] using ⟨coded, small⟩
  have longCoded : ∀ operand ∈ (basic opcode a { mode := .immediate, slot := .b }).operands,
      operand.mode.Coded := by
    simpa [operands] using ⟨coded, trivial⟩
  have fetches : (basic opcode filled long).fetching machine.contents =
      Function.update ((basic opcode filled short).fetching machine.contents) (.register .pc)
        ((basic opcode filled short).fetching machine.contents (.register .pc) + 1) := by
    apply fetching_forms rfl rfl
    rw [Operand.fetching, same]
    exact outside
  rw [← same] at elsewhere ⊢
  cases ends : (basic opcode filled short).fault? with
  | none =>
    have longFault := (fault?_eq_of_holds shortHolds longHolds).trans ends
    obtain ⟨shortReady, _, _, _, shortRuns, shortFetched, shortMark, shortDoes⟩ :=
      exists_performed machine shortCoded rfl ends
    obtain ⟨longReady, _, _, _, longRuns, longFetched, longMark, longDoes⟩ :=
      exists_performed machine longCoded rfl longFault
    have fetch : FetchAlike machine shortReady longReady :=
      ⟨by rw [shortFetched]; exact longFetched.trans fetches, shortMark, longMark⟩
    rw [shortRuns, longRuns]
    exact endAlike_of_performed shortHolds longHolds elsewhere fetch shortDoes longDoes
  | some fault =>
    have longFault := (fault?_eq_of_holds shortHolds longHolds).trans ends
    obtain ⟨shortReady, shortFetched, shortMark, shortFails⟩ :=
      exists_faulted machine shortCoded rfl ends
    obtain ⟨longReady, longFetched, longMark, longFails⟩ :=
      exists_faulted machine longCoded rfl longFault
    have fetch : FetchAlike machine shortReady longReady :=
      ⟨by rw [shortFetched]; exact longFetched.trans fetches, shortMark, longMark⟩
    exact endAlike_of_faulted shortHolds longHolds fetch ends shortFails longFails

/-- The short form of an instruction does what the one with the word behind it does. For every basic
opcode, every operand `a` that is not PC unless the opcode is SET, and every value below 20
(hexadecimal) that also stands where the inline word of `b` is taken from, which is no key: the two
give the same outcome or end in the same fault, and leave the same memory and the same registers,
but PC is one further on behind the longer one unless they have jumped. -/
theorem short_form {opcode : Opcode} {code : UInt8} {n address : Word} {machine : Machine}
    (elsewhere : Mode.ofCode code = .programCounter → opcode = .set) (small : n ≤ 0x1F)
    (behind : address =
      machine.registers.pc + (if (Mode.ofCode code).takesWord then 1 else 0) + 1)
    (word : machine.peek address = n) (outside : Window.keyboard.contains address = false) :
    let short := (ofCodes opcode code (Mode.literal n).code).execute machine
    let long := (ofCodes opcode code Mode.immediate.code).execute machine
    let jumps := opcode = .set ∧ Mode.ofCode code = .programCounter
    let pc := short.machine.registers.pc
    long.result = short.result ∧ long.machine.ram = short.machine.ram ∧
      long.machine.registers =
        short.machine.registers.set .pc (if jumps then pc else pc + 1) ∧
      short.machine.registers.jumped = (machine.registers.jumped || decide jumps) := by
  intro short long jumps pc
  have coded : (Mode.literal n).Coded := Mode.coded_literal small
  have shortForm : ofCodes opcode code (Mode.literal n).code =
      basic opcode { mode := .ofCode code, slot := .a } { mode := .literal n, slot := .b } := by
    rw [ofCodes, Operand.ofCode, Operand.ofCode, Mode.ofCode_code coded]
  have longForm : ofCodes opcode code Mode.immediate.code =
      basic opcode { mode := .ofCode code, slot := .a } { mode := .immediate, slot := .b } := rfl
  have ends : EndAlike machine short long jumps := by
    have alike := @endAlike_execute opcode { mode := .ofCode code, slot := .a } n machine
      (Mode.coded_ofCode code) elsewhere coded address behind word outside
    rwa [← shortForm, ← longForm] at alike
  have alike : long.machine.Alike (short.machine.set .pc (if jumps then pc else pc + 1)) := by
    apply Machine.alike_of_contents
    · rw [ends.contents_eq, Machine.contents_set]
      rfl
    · rw [ends.same_jumped, Machine.jumped_set]
  exact ⟨ends.result_eq, alike.ram_eq, alike.registers_eq, ends.jumped_eq⟩

/-- A machine whose stack begins with the word behind PC, a 5. -/
def overlapping : Machine where
  registers := { sp := 1 }
  ram := .ofCells [(1, 5)]

/-- `ADD POP, 5` doubles the word behind PC, also where this is the 5 that is added. -/
theorem short_form_overlapping :
    let short := (ofCodes .add 0x18 (Mode.literal 5).code).execute overlapping
    let long := (ofCodes .add 0x18 Mode.immediate.code).execute overlapping
    long.machine.ram = short.machine.ram ∧
      long.machine.registers.pc = short.machine.registers.pc + 1 ∧ short.machine.peek 1 = 10 := by
  intro short long
  have holds := overlapping.contents_of_cells rfl
  have word : overlapping.peek 1 = 5 := (congrFun holds (.cell 1)).trans (by decide)
  obtain ⟨-, ram, registers, -⟩ := @short_form .add 0x18 5 1 overlapping (by decide) (by decide)
    (by decide) word (by decide)
  refine ⟨ram, congrArg RegisterFile.pc registers, ?_⟩
  rfl

end Execution

end Instruction

end Dcpu16
