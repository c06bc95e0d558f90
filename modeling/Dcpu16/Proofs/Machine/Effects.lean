import Dcpu16.Machine.Execute
import Dcpu16.Proofs.Machine.Accesses

/-!
# What an execution does

The effect of every instruction, stack modes, keyboard cells and faults included, as a function of
the contents in which its words have been fetched (`Instruction.after`). Whether the instruction
fails with a fault, what it has done until then, where it jumps to and whether the next instruction
is skipped are said beside it (`Instruction.fault?`, `Instruction.leftover`, `Instruction.target?`,
`Instruction.Fails`). An execution does just this (`Instruction.exists_performed`,
`Instruction.exists_faulted`).
-/
namespace Dcpu16

/-- The comparison of a conditional opcode does not hold of two values. -/
inductive Opcode.Fails : Opcode → Word → Word → Prop
  | ife {x y : Word} (unequal : x ≠ y) : Fails .ife x y
  | ifn {x y : Word} (equal : x = y) : Fails .ifn x y
  | ifg {x y : Word} (atMost : x ≤ y) : Fails .ifg x y
  | ifb {x y : Word} (disjoint : x &&& y = 0) : Fails .ifb x y

/-- A test that is coded by a function fails where the function is false. -/
theorem Opcode.fails_iff {opcode : Opcode} {holds : Word → Word → Bool}
    (action : opcode.action = .test holds) (x y : Word) :
    opcode.Fails x y ↔ holds x y = false := by
  constructor
  · rintro (unequal | equal | atMost | disjoint) <;> cases action
    · simpa using unequal
    · simpa using equal
    · simpa using atMost
    · simpa using disjoint
  · intro fails
    cases opcode with
    | ife => cases action; exact .ife (by simpa using fails)
    | ifn => cases action; exact .ifn (by simpa using fails)
    | ifg => cases action; exact .ifg (by simpa using fails)
    | ifb => cases action; exact .ifb (by simpa using fails)
    | _ => cases action

/-- Only a conditional opcode fails. -/
theorem Opcode.Fails.isConditional {opcode : Opcode} {x y : Word} (fails : opcode.Fails x y) :
    opcode.isConditional = true := by
  cases fails <;> rfl

/-- A move is SET. -/
theorem Opcode.action_eq_move_iff {opcode : Opcode} : opcode.action = .move ↔ opcode = .set := by
  cases opcode <;> simp [action]

namespace Instruction

/-- The instruction as it stands in a program, without what an execution has captured. -/
def forget : Instruction → Instruction
  | .basic opcode a b => .basic opcode a.forget b.forget
  | .special opcode a => .special opcode a.forget

/-- The contents in which operand `b` is read: `a` is read before it, but not by a move. -/
def firstRead (opcode : Opcode) (a : Operand) (contents : Contents) : Contents :=
  if opcode = .set then contents else a.reading contents

/-- What a basic instruction computes from the values of its operands. -/
def computed (opcode : Opcode) (a b : Operand) (contents : Contents) : Result :=
  opcode.result (a.value contents) (b.value (firstRead opcode a contents))

/-- The comparison of the instruction does not hold. -/
def Fails (instruction : Instruction) (contents : Contents) : Prop :=
  match instruction with
  | .basic opcode a b => opcode.Fails (a.value contents) (b.value (a.reading contents))
  | .special .jsr _ => False

/-- The value that the instruction stores in PC, if it stores one there. -/
def target? (instruction : Instruction) (contents : Contents) : Option Word :=
  match instruction with
  | .basic opcode a b =>
    if opcode.isConditional = false ∧ a.mode = .programCounter then
      some (computed opcode a b contents).value
    else none
  | .special .jsr a => some (a.value contents)

/-- The fault in which every execution of the instruction ends. -/
def fault? : Instruction → Option Fault
  | .basic opcode a b =>
    if b.mode = .push ∨ opcode ≠ .set ∧ a.mode = .push then some (.refused .push .read)
    else if opcode.isConditional = false ∧ a.mode.isConstant = true then
      some (.refused a.mode .write)
    else none
  | .special .jsr a => if a.mode = .push then some (.refused .push .read) else none

/-- The contents after an instruction without a fault, from contents in which its words have been
fetched. -/
def after (instruction : Instruction) (contents : Contents) : Contents :=
  match instruction with
  | .basic opcode a b =>
    let read := b.reading (firstRead opcode a contents)
    if opcode.isConditional then read
    else
      let result := computed opcode a b contents
      let claimed := if opcode = .set then none else a.claim? contents
      (a.storing claimed read result.value).assign
        (result.overflow.toList.map fun overflow => (.register .o, overflow))
  | .special .jsr a =>
    let read := a.reading contents
    let sp := read (.register .sp) - 1
    read.assign [(.register .sp, sp), (.cell sp, read (.register .pc)),
      (.register .pc, a.value contents)]

/-- An overflow changes O, if there is one, and no other place. -/
theorem notMem_overflow (overflow : Option Word) {place : Place}
    (without : place = .register .o → overflow = none) :
    place ∉ (overflow.toList.map fun word => (Place.register .o, word)).map Prod.fst := by
  cases overflow with
  | none => simp
  | some word =>
    have other : place ≠ .register .o := fun o => nomatch without o
    simpa using other

/-- The operands that the instruction reads, in the order in which it reads them. -/
def readOrder : Instruction → List Operand
  | .basic opcode a b => if opcode = .set then [b] else [a, b]
  | .special .jsr a => [a]

/-- The operands that are read before a fault: all that stand before a PUSH. -/
def readFirst (instruction : Instruction) : List Operand :=
  instruction.readOrder.takeWhile fun operand => operand.mode ≠ .push

/-- The contents after an instruction with a fault, from contents in which its words have been
fetched: nothing has happened but the reads before the fault. -/
def leftover (instruction : Instruction) (contents : Contents) : Contents :=
  instruction.readFirst.foldl (fun contents operand => operand.reading contents) contents

/-- A basic instruction has no fault if it reads no PUSH and stores in no constant. -/
theorem fault?_basic_eq_none_iff {opcode : Opcode} {a b : Operand} :
    (basic opcode a b).fault? = none ↔ b.mode ≠ .push ∧ (opcode ≠ .set → a.mode ≠ .push) ∧
      (opcode.isConditional = false → a.mode.isConstant = false) := by
  simp only [fault?]
  split_ifs with reads stores
  · simp only [false_iff]
    rintro ⟨b, a, -⟩
    exact reads.elim b fun ⟨other, push⟩ => a other push
  · simp only [false_iff]
    rintro ⟨-, -, storable⟩
    simp [storable stores.1] at stores
  · simp only [true_iff]
    refine ⟨fun push => reads (.inl push), fun other push => reads (.inr ⟨other, push⟩), ?_⟩
    intro computes
    exact Bool.eq_false_of_not_eq_true fun constant => stores ⟨computes, constant⟩

/-- An execution went through as the instruction says. -/
structure Performed (instruction : Instruction) (machine : Machine) (outcome : Outcome)
    (executed : Instruction) (next : Machine) : Prop where
  skips_iff : outcome = .skipNext ↔ instruction.Fails machine.contents
  forget_eq : executed.forget = instruction.forget
  contents_eq : next.contents = instruction.after machine.contents
  jumped_eq : next.registers.jumped =
    (machine.registers.jumped || (instruction.target? machine.contents).isSome)

/-- An execution ended in a fault, behind the reads that come before it. -/
structure Faulted (instruction : Instruction) (machine : Machine) (fault : Fault)
    (execution : Execution) : Prop where
  result_eq : execution.result = .error fault
  contents_eq : execution.machine.contents = instruction.leftover machine.contents
  jumped_eq : execution.machine.registers.jumped = machine.registers.jumped

section ReadOrder

variable {opcode : Opcode} {a b : Operand}

/-- Reading the operands in their order ends with the read of `b`. -/
theorem foldl_readOrder (opcode : Opcode) (a b : Operand) (contents : Contents) :
    (basic opcode a b).readOrder.foldl (fun contents operand => operand.reading contents) contents =
      b.reading (firstRead opcode a contents) := by
  by_cases moves : opcode = .set <;> simp [readOrder, firstRead, moves]

/-- No PUSH is among the operands that are read, if `b` is none, nor `a` where it is read. -/
theorem ne_push_of_mem_readOrder (bReadable : b.mode ≠ .push)
    (aReadable : opcode ≠ .set → a.mode ≠ .push) :
    ∀ operand ∈ (basic opcode a b).readOrder, operand.mode ≠ .push := by
  by_cases moves : opcode = .set
  · simpa [readOrder, moves] using bReadable
  · simpa [readOrder, moves] using ⟨aReadable moves, bReadable⟩

/-- Without a PUSH among them, all operands that the instruction reads are read before a fault. -/
theorem leftover_of_readable {contents : Contents} (bReadable : b.mode ≠ .push)
    (aReadable : opcode ≠ .set → a.mode ≠ .push) :
    (basic opcode a b).leftover contents = b.reading (firstRead opcode a contents) := by
  have all : (basic opcode a b).readFirst = (basic opcode a b).readOrder := by
    rw [readFirst, List.takeWhile_eq_self_iff]
    simpa using ne_push_of_mem_readOrder bReadable aReadable
  rw [leftover, all, foldl_readOrder]

end ReadOrder

section Prepared

variable {machine : Machine} {a aReady b bReady : Operand}

/-- Both operands are read, `a` first, when neither is PUSH. -/
theorem exists_readBoth_eq (opcode : Opcode) (aPrepared : Operand.Ready a aReady machine.contents)
    (bPrepared : Operand.Ready b bReady machine.contents) (aCoded : a.mode.Coded)
    (bCoded : b.mode.Coded) (aReadable : a.mode ≠ .push) (bReadable : b.mode ≠ .push)
    (continuation : Operand → Operand → Machine → Word → Word → Execution) :
    ∃ next, readBoth opcode aReady bReady machine continuation =
        continuation (aReady.holding (a.claim? machine.contents))
          (bReady.holding (b.claim? (a.reading machine.contents))) next
          (a.value machine.contents) (b.value (a.reading machine.contents)) ∧
      next.contents = b.reading (a.reading machine.contents) ∧
      next.registers.jumped = machine.registers.jumped := by
  obtain ⟨first, aRead, aContents, aJumped⟩ :=
    Operand.exists_read_eq aPrepared aCoded aReadable
  have bStill : Operand.Ready b bReady first.contents :=
    bPrepared.congr fun register _ other => by rw [aContents, Operand.reading_register other]
  obtain ⟨second, bRead, bContents, bJumped⟩ := Operand.exists_read_eq bStill bCoded bReadable
  rw [aContents] at bRead bContents
  refine ⟨second, ?_, bContents, bJumped.trans aJumped⟩
  simp only [readBoth, aRead, bRead]

/-- What an opcode has computed is stored in `a`, and its overflow behind that in O. -/
theorem exists_performed_store (opcode : Opcode) {read : Machine}
    (contents : read.contents = b.reading (firstRead opcode a machine.contents))
    (jumped : read.registers.jumped = machine.registers.jumped)
    (aPrepared : Operand.Prepared a aReady read.contents) (aForgets : aReady.forget = a.forget)
    (bForgets : bReady.forget = b.forget) (coded : a.mode.Coded)
    (computes : opcode.isConditional = false) (storable : a.mode.isConstant = false)
    (claimed : aReady.stackAddress = if opcode = .set then none else a.claim? machine.contents) :
    ∃ executed next, store opcode aReady bReady read (computed opcode a b machine.contents) =
        ⟨.ok .proceed, executed, next⟩ ∧
      (basic opcode a b).Performed machine .proceed executed next := by
  have claims : aReady.stackAddress ≠ none → a.mode = .pop := by
    rw [claimed, Operand.claim?]
    intro some
    by_contra other
    simp [other] at some
  let result := computed opcode a b machine.contents
  obtain ⟨stored, written, writes, forgets, changed, marked⟩ :=
    Operand.exists_store_eq aPrepared coded storable claims result.value
  have after : (basic opcode a b).after machine.contents =
      written.contents.assign
        (result.overflow.toList.map fun overflow => (.register .o, overflow)) := by
    rw [changed, claimed, contents]
    simp [Instruction.after, computes, result]
  have target : ((basic opcode a b).target? machine.contents).isSome =
      decide (a.mode = .programCounter) := by
    by_cases jumps : a.mode = .programCounter <;> simp [target?, computes, jumps]
  have noFailure : ¬ (basic opcode a b).Fails machine.contents := by
    intro fails
    rw [Opcode.Fails.isConditional fails] at computes
    cases computes
  rw [jumped] at marked
  unfold store
  rw [writes]
  cases overflow : result.overflow with
  | none =>
    refine ⟨_, written, rfl, ⟨by simp [noFailure], ?_, ?_, ?_⟩⟩
    · rw [forget, forget, forgets, aForgets, bForgets]
    · rw [after, overflow]
      rfl
    · rw [marked, target]
  | some word =>
    refine ⟨_, written.set .o word, rfl, ⟨by simp [noFailure], ?_, ?_, ?_⟩⟩
    · rw [forget, forget, forgets, aForgets, bForgets]
    · rw [after, overflow, written.contents_set]
      rfl
    · rw [written.jumped_set, marked, target]

/-- A basic instruction whose operands are prepared goes through unless it has a fault. -/
theorem exists_performed_basic (opcode : Opcode)
    (aPrepared : Operand.Ready a aReady machine.contents)
    (bPrepared : Operand.Ready b bReady machine.contents) (aCoded : a.mode.Coded)
    (bCoded : b.mode.Coded) (faultless : (basic opcode a b).fault? = none) :
    ∃ outcome executed next, perform opcode aReady bReady machine = ⟨.ok outcome, executed, next⟩ ∧
      (basic opcode a b).Performed machine outcome executed next := by
  obtain ⟨bReadable, aReadable, storable⟩ := fault?_basic_eq_none_iff.mp faultless
  cases action : opcode.action with
  | move =>
    obtain rfl := Opcode.action_eq_move_iff.mp action
    obtain ⟨read, bRead, contents, jumped⟩ := Operand.exists_read_eq bPrepared bCoded bReadable
    -- `a` is not read, so it has claimed no stack cell when it is written.
    have aStill : Operand.Ready a aReady read.contents :=
      aPrepared.congr fun register _ other => by rw [contents, Operand.reading_register other]
    obtain ⟨executed, next, stores, performed⟩ := exists_performed_store .set contents jumped
      aStill.toPrepared aPrepared.forget_eq
      ((bReady.forget_holding (b.claim? machine.contents)).trans bPrepared.forget_eq) aCoded rfl
      (storable rfl) aPrepared.unclaimed
    refine ⟨.proceed, executed, next, ?_, performed⟩
    simp only [perform, action, bRead]
    exact stores
  | test holds =>
    have other : opcode ≠ .set := by rintro rfl; cases action
    have tests : opcode.isConditional = true := by rw [Opcode.isConditional, action]
    obtain ⟨next, reads, contents, jumped⟩ := exists_readBoth_eq opcode aPrepared bPrepared aCoded
      bCoded (aReadable other) bReadable fun a b machine x y =>
        ⟨.ok (if holds x y then .proceed else .skipNext), .basic opcode a b, machine⟩
    refine ⟨_, _, next, by simp only [perform, action]; exact reads, ⟨?_, ?_, ?_, ?_⟩⟩
    · rw [Fails, Opcode.fails_iff action]
      cases holds _ _ <;> simp
    · rw [forget, forget, Operand.forget_holding, Operand.forget_holding, aPrepared.forget_eq,
        bPrepared.forget_eq]
    · rw [contents]
      simp [Instruction.after, tests, firstRead, other]
    · rw [jumped]
      simp [target?, tests]
  | combine result =>
    have other : opcode ≠ .set := by rintro rfl; cases action
    have computes : opcode.isConditional = false := by rw [Opcode.isConditional, action]
    obtain ⟨read, reads, contents, jumped⟩ := exists_readBoth_eq opcode aPrepared bPrepared aCoded
      bCoded (aReadable other) bReadable fun a b machine x y =>
        store opcode a b machine (result x y)
    have first : firstRead opcode a machine.contents = a.reading machine.contents := if_neg other
    have aStill : Operand.Ready a aReady read.contents := aPrepared.congr fun register _ other => by
      rw [contents, Operand.reading_register other, Operand.reading_register other]
    -- The write goes to the stack cell that the read of `a` has claimed, if it has claimed one.
    have aHolds : Operand.Prepared a (aReady.holding (a.claim? machine.contents)) read.contents :=
      ⟨aStill.mode_eq, aStill.nextWord_eq, aStill.captured⟩
    obtain ⟨executed, next, stores, performed⟩ := exists_performed_store opcode
      (first ▸ contents) jumped aHolds ((aReady.forget_holding _).trans aPrepared.forget_eq)
      ((bReady.forget_holding (b.claim? (a.reading machine.contents))).trans bPrepared.forget_eq)
      aCoded computes (storable computes) (if_neg other).symm
    refine ⟨.proceed, executed, next, ?_, performed⟩
    rw [computed, Opcode.result, action, first] at stores
    simp only [perform, action]
    exact reads.trans stores

/-- A subroutine call whose operand is prepared goes through unless it has a fault. -/
theorem exists_performed_call (prepared : Operand.Ready a aReady machine.contents)
    (coded : a.mode.Coded) (faultless : (special .jsr a).fault? = none) :
    ∃ executed next, call aReady machine = ⟨.ok .proceed, executed, next⟩ ∧
      (special .jsr a).Performed machine .proceed executed next := by
  have readable : a.mode ≠ .push := by
    rintro push
    simp [fault?, push] at faultless
  obtain ⟨read, reads, contents, jumped⟩ := Operand.exists_read_eq prepared coded readable
  unfold call
  simp only [reads]
  refine ⟨_, _, rfl, ⟨by simp [Fails], ?_, ?_, by simp [target?, Machine.jump, Machine.markJump]⟩⟩
  · rw [forget, forget, Operand.forget_holding, prepared.forget_eq]
  · simp only [Machine.contents_jump, Machine.contents_write, Machine.contents_set, after,
      assign_cons, assign_nil, ← contents]
    rfl

/-- Reading both operands ends in a fault when one of them is PUSH, before `b` is read. -/
theorem faulted_readBoth (opcode : Opcode) (reads : opcode ≠ .set)
    (aPrepared : Operand.Ready a aReady machine.contents)
    (bPrepared : Operand.Ready b bReady machine.contents) (aCoded : a.mode.Coded)
    (pushes : b.mode = .push ∨ a.mode = .push)
    (continuation : Operand → Operand → Machine → Word → Word → Execution) :
    (basic opcode a b).Faulted machine (.refused .push .read)
      (readBoth opcode aReady bReady machine continuation) := by
  unfold readBoth
  by_cases aPush : a.mode = .push
  · have nothing : (basic opcode a b).leftover machine.contents = machine.contents := by
      simp [leftover, readFirst, readOrder, reads, aPush]
    rw [Operand.read_of_push (aPrepared.mode_eq.trans aPush)]
    exact ⟨rfl, nothing.symm, rfl⟩
  · have bPush : b.mode = .push := pushes.resolve_right aPush
    obtain ⟨first, aRead, contents, jumped⟩ := Operand.exists_read_eq aPrepared aCoded aPush
    have onlyFirst : (basic opcode a b).leftover machine.contents =
        a.reading machine.contents := by
      simp [leftover, readFirst, readOrder, reads, aPush, bPush]
    rw [aRead]
    simp only [Operand.read_of_push (bPrepared.mode_eq.trans bPush)]
    exact ⟨rfl, contents.trans onlyFirst.symm, jumped⟩

/-- Storing in a constant ends in a fault, when everything has been read. -/
theorem faulted_store (opcode : Opcode) {read : Machine} (mode : aReady.mode = a.mode)
    (constant : a.mode.isConstant = true) (bReadable : b.mode ≠ .push)
    (contents : read.contents = b.reading (firstRead opcode a machine.contents))
    (jumped : read.registers.jumped = machine.registers.jumped) (result : Result) :
    (basic opcode a b).Faulted machine (.refused a.mode .write)
      (store opcode aReady bReady read result) := by
  have aReadable : a.mode ≠ .push := Mode.ne_push_of_isConstant constant
  have all : (basic opcode a b).leftover machine.contents =
      b.reading (firstRead opcode a machine.contents) :=
    leftover_of_readable bReadable fun _ => aReadable
  rw [store, Operand.write_of_constant (mode ▸ constant), mode]
  exact ⟨rfl, contents.trans all.symm, jumped⟩

/-- A basic instruction whose operands are prepared ends in its fault. -/
theorem faulted_perform (opcode : Opcode) (aPrepared : Operand.Ready a aReady machine.contents)
    (bPrepared : Operand.Ready b bReady machine.contents) (aCoded : a.mode.Coded)
    (bCoded : b.mode.Coded) {fault : Fault} (faulty : (basic opcode a b).fault? = some fault) :
    (basic opcode a b).Faulted machine fault (perform opcode aReady bReady machine) := by
  simp only [fault?] at faulty
  split_ifs at faulty with reads stores
  · cases faulty
    have pushes : b.mode = .push ∨ a.mode = .push := reads.imp_right And.right
    unfold perform
    cases action : opcode.action with
    | move =>
      obtain rfl := Opcode.action_eq_move_iff.mp action
      have bPush : b.mode = .push := reads.resolve_right fun other => other.1 rfl
      have nothing : (basic .set a b).leftover machine.contents = machine.contents := by
        simp [leftover, readFirst, readOrder, bPush]
      simp only [Operand.read_of_push (bPrepared.mode_eq.trans bPush)]
      exact ⟨rfl, nothing.symm, rfl⟩
    | test holds =>
      have other : opcode ≠ .set := by rintro rfl; cases action
      exact faulted_readBoth opcode other aPrepared bPrepared aCoded pushes _
    | combine result =>
      have other : opcode ≠ .set := by rintro rfl; cases action
      exact faulted_readBoth opcode other aPrepared bPrepared aCoded pushes _
  · cases faulty
    rw [not_or, not_and] at reads
    unfold perform
    cases action : opcode.action with
    | move =>
      obtain rfl := Opcode.action_eq_move_iff.mp action
      obtain ⟨read, bRead, contents, jumped⟩ := Operand.exists_read_eq bPrepared bCoded reads.1
      simp only [bRead]
      exact faulted_store .set aPrepared.mode_eq stores.2 reads.1 contents jumped _
    | test holds => simp [Opcode.isConditional, action] at stores
    | combine result =>
      have other : opcode ≠ .set := by rintro rfl; cases action
      have first : firstRead opcode a machine.contents = a.reading machine.contents := if_neg other
      obtain ⟨read, bothRead, contents, jumped⟩ := exists_readBoth_eq opcode aPrepared bPrepared
        aCoded bCoded (reads.2 other) reads.1 fun a b machine x y =>
          store opcode a b machine (result x y)
      have held : (aReady.holding (a.claim? machine.contents)).mode = a.mode := aPrepared.mode_eq
      simp only [bothRead]
      exact faulted_store opcode held stores.2 reads.1 (first ▸ contents) jumped _

end Prepared

/-! ## PC -/

/-- PC holds what the instruction has stored there, and otherwise stands on the last word. -/
theorem after_pc (instruction : Instruction) (contents : Contents) :
    instruction.after contents (.register .pc) =
      (instruction.target? contents).getD (contents (.register .pc)) := by
  cases instruction with
  | basic opcode a b =>
    have read : b.reading (firstRead opcode a contents) (.register .pc) =
        contents (.register .pc) := by
      rw [Operand.reading_register (by decide), firstRead]
      split
      · rfl
      · rw [Operand.reading_register (by decide)]
    cases computes : opcode.isConditional with
    | true => simp [after, target?, computes, read]
    | false =>
      have other (overflow : Option Word) := @notMem_overflow overflow (.register .pc) (by simp)
      simp only [after, computes, Bool.false_eq_true, ↓reduceIte, assign_of_notMem (other _),
        target?, true_and]
      rw [Operand.storing_pc, read]
      · split <;> rfl
      · intro claims
        by_contra pops
        simp [Operand.claim?, pops] at claims
  | special opcode a =>
    cases opcode
    simp [after, target?]

end Instruction

end Dcpu16
