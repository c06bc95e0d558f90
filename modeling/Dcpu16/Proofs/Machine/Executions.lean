import Dcpu16.Proofs.Machine.Effects

/-!
# Executions

An instruction is executed in two parts. First its operands fetch their inline words
(`Instruction.fetching`), which leaves PC on the last word and takes the keys among the words
(`Instruction.fetched`); then it does what `Instruction.after` says, or ends in its fault
(`Instruction.exists_performed`, `Instruction.exists_faulted`). An instruction that is passed over
finds the same inline words and takes nothing (`Instruction.exists_pass_eq`).
-/
namespace Dcpu16

/-! ## Fetching -/

/-- The two words behind the one that PC stands on. -/
def Contents.behind (contents : Contents) : List Word :=
  let pc := contents (.register .pc)
  [contents (.cell (pc + 1)), contents (.cell (pc + 2))]

/-- The first of the words behind PC. -/
theorem Contents.headD_behind (contents : Contents) :
    contents.behind.headD 0 = contents (.cell (contents (.register .pc) + 1)) := rfl

/-- The second word behind an address. -/
theorem add_one_add_one (address : Word) : address + 1 + 1 = address + 2 := by
  rw [UInt16.add_assoc]
  rfl

/-- When an operand has taken its inline word from behind PC, the next word behind PC is the next
word that is left. -/
theorem Operand.headD_fill_behind (operand : Operand) {contents next : Contents}
    (moved : next (.register .pc) =
      contents (.register .pc) + if operand.mode.takesWord then 1 else 0)
    (kept : next (.cell (next (.register .pc) + 1)) =
      contents (.cell (next (.register .pc) + 1))) :
    (operand.fill contents.behind).2.headD 0 = next (.cell (next (.register .pc) + 1)) := by
  rw [kept, moved, Operand.fill]
  cases operand.mode.takesWord with
  | false => simp [Contents.behind]
  | true => simp [Contents.behind, add_one_add_one]

namespace Instruction

/-- The contents after the operands have fetched their inline words. -/
def fetching (instruction : Instruction) (contents : Contents) : Contents :=
  instruction.operands.foldl (fun contents operand => operand.fetching contents) contents

/-- The contents once the words of the instruction have been fetched: keys among the words are
gone, and PC stands on the last of them. -/
def fetched (instruction : Instruction) (before : Contents) : Contents :=
  let pc := before (.register .pc)
  Function.update (([pc, pc + 1, pc + 2].take instruction.size).foldl Contents.taken before)
    (.register .pc) (pc + .ofNat (instruction.size - 1))

/-- The operands fetch their inline words from behind the word of the instruction. -/
theorem fetching_taken (instruction : Instruction) (before : Contents) :
    instruction.fetching (before.taken (before (.register .pc))) = instruction.fetched before := by
  cases instruction with
  | basic opcode a b =>
    simp only [fetching, fetched, size, operands, List.foldl_cons, List.foldl_nil,
      Operand.fetching, List.countP_cons, List.countP_nil]
    cases a.mode.takesWord <;> cases b.mode.takesWord <;>
      simp [taken_update_register, add_one_add_one]
  | special opcode a =>
    simp only [fetching, fetched, size, operands, List.foldl_cons, List.foldl_nil,
      Operand.fetching, List.countP_cons, List.countP_nil]
    cases a.mode.takesWord <;> simp [taken_update_register]

/-- PC stands on the last word that is fetched. -/
@[simp] theorem fetched_pc (instruction : Instruction) (before : Contents) :
    instruction.fetched before (.register .pc) =
      before (.register .pc) + .ofNat (instruction.size - 1) := by
  rw [fetched, Function.update_self]

/-- Fetching the words of an instruction changes no register but PC. -/
theorem fetched_register {register : Register} (other : register ≠ .pc) (instruction : Instruction)
    (before : Contents) :
    instruction.fetched before (.register register) = before (.register register) := by
  unfold fetched
  rw [Function.update_of_ne (by simpa using other), foldl_taken_register]

/-- The size of an instruction does not depend on its inline words. -/
theorem size_fill (instruction : Instruction) (words : List Word) :
    (instruction.fill words).size = instruction.size := by
  cases instruction <;>
    simp only [fill, size, operands, List.countP_cons, List.countP_nil, Operand.mode_fill]

/-- Fetching the words of an instruction takes the keys among them, and changes no other cell. -/
theorem fetched_cell (instruction : Instruction) (before : Contents) (address : Word) :
    instruction.fetched before (.cell address) =
      if address ∈ [before (.register .pc), before (.register .pc) + 1,
          before (.register .pc) + 2].take instruction.size ∧
        Window.keyboard.contains address = true then 0 else before (.cell address) := by
  rw [fetched, Function.update_of_ne (by simp), foldl_taken_cell]

/-- The fault of an instruction does not depend on its inline words. -/
theorem fault?_fill (instruction : Instruction) (words : List Word) :
    (instruction.fill words).fault? = instruction.fault? := by
  cases instruction with
  | basic opcode a b => simp only [fill, fault?, Operand.mode_fill]
  | special opcode a =>
    cases opcode
    simp only [fill, fault?, Operand.mode_fill]

/-- What is fetched does not depend on the inline words. -/
theorem fetching_fill (instruction : Instruction) (words : List Word) :
    (instruction.fill words).fetching = instruction.fetching := by
  funext contents
  cases instruction <;>
    simp only [fill, fetching, operands, List.foldl_cons, List.foldl_nil, Operand.fetching,
      Operand.mode_fill]

section Whole

variable {machine : Machine} {following : List Word}

/-- The operands of a basic instruction are prepared one after the other, from the words behind
PC. -/
theorem exists_prepared_basic (opcode : Opcode) {a b : Operand} (aCoded : a.mode.Coded)
    (bCoded : b.mode.Coded)
    (behind : following = machine.contents.behind) :
    ∃ aReady bReady next, (basic opcode a b).execute machine = perform opcode aReady bReady next ∧
      Operand.Ready (a.fill following).1 aReady next.contents ∧
      Operand.Ready (b.fill (a.fill following).2).1 bReady next.contents ∧
      next.contents = (basic opcode a b).fetching machine.contents ∧
      next.registers.jumped = machine.registers.jumped := by
  subst behind
  obtain ⟨aReady, first, aPrepares, aPrepared, aContents, aJumped⟩ :=
    Operand.exists_ready machine aCoded (fun _ => machine.contents.headD_behind)
  have bBehind : (a.fill machine.contents.behind).2.headD 0 =
      first.contents (.cell (first.contents (.register .pc) + 1)) := by
    rw [aContents]
    exact a.headD_fill_behind (a.fetching_pc _) (a.fetching_behind _)
  obtain ⟨bReady, next, bPrepares, bPrepared, bContents, bJumped⟩ :=
    Operand.exists_ready first bCoded (fun _ => bBehind)
  refine ⟨aReady, bReady, next, ?_, ?_, bPrepared, ?_, bJumped.trans aJumped⟩
  · simp only [execute, aPrepares, bPrepares]
  · exact aPrepared.congr fun register other _ => by
      rw [bContents, Operand.fetching_register other]
  · rw [bContents, aContents]
    rfl

/-- The operand of a subroutine call is prepared from the words behind PC. -/
theorem exists_prepared_special {a : Operand} (coded : a.mode.Coded)
    (behind : following = machine.contents.behind) :
    ∃ aReady next, (special .jsr a).execute machine = call aReady next ∧
      Operand.Ready (a.fill following).1 aReady next.contents ∧
      next.contents = (special .jsr a).fetching machine.contents ∧
      next.registers.jumped = machine.registers.jumped := by
  subst behind
  obtain ⟨aReady, next, prepares, prepared, contents, jumped⟩ :=
    Operand.exists_ready machine coded (fun _ => machine.contents.headD_behind)
  refine ⟨aReady, next, ?_, prepared, contents, jumped⟩
  simp only [execute, prepares]

/-- The operands of an instruction that a word stands for come from codes. -/
theorem coded_of_ofWord? {word : Word} {instruction : Instruction}
    (known : ofWord? word = some instruction) :
    ∀ operand ∈ instruction.operands, operand.mode.Coded := by
  simp only [ofWord?] at known
  split at known
  · cases known
    simp only [ofCodes, operands, List.mem_cons, List.not_mem_nil, or_false]
    rintro operand (rfl | rfl) <;> exact Mode.coded_ofCode _
  · obtain ⟨opcode, -, rfl⟩ := Option.map_eq_some_iff.mp known
    simp only [ofCode, operands, List.mem_singleton]
    rintro operand rfl
    exact Mode.coded_ofCode _

/-- An instruction without a fault goes through, in the contents that hold after its words have been
fetched. -/
theorem exists_performed {bare : Instruction} (machine : Machine)
    (coded : ∀ operand ∈ bare.operands, operand.mode.Coded)
    (behind : following = machine.contents.behind)
    (faultless : (bare.fill following).fault? = none) :
    ∃ ready outcome executed next, bare.execute machine = ⟨.ok outcome, executed, next⟩ ∧
      ready.contents = (bare.fill following).fetching machine.contents ∧
      ready.registers.jumped = machine.registers.jumped ∧
      (bare.fill following).Performed ready outcome executed next := by
  rw [fetching_fill]
  cases bare with
  | basic opcode a b =>
    have aCoded : a.mode.Coded := coded a (by simp [operands])
    have bCoded : b.mode.Coded := coded b (by simp [operands])
    obtain ⟨aReady, bReady, ready, executes, aPrepared, bPrepared, contents, jumped⟩ :=
      exists_prepared_basic opcode aCoded bCoded behind
    obtain ⟨outcome, executed, next, performs, performed⟩ :=
      exists_performed_basic opcode aPrepared bPrepared (by rwa [Operand.mode_fill])
        (by rwa [Operand.mode_fill]) faultless
    exact ⟨ready, outcome, executed, next, executes.trans performs, contents, jumped, performed⟩
  | special opcode a =>
    cases opcode
    have aCoded : a.mode.Coded := coded a (by simp [operands])
    obtain ⟨aReady, ready, executes, prepared, contents, jumped⟩ :=
      exists_prepared_special aCoded behind
    obtain ⟨executed, next, calls, performed⟩ := exists_performed_call prepared
      (by rwa [Operand.mode_fill]) faultless
    exact ⟨ready, .proceed, executed, next, executes.trans calls, contents, jumped, performed⟩

/-- An instruction with a fault ends in it, once its words have been fetched. -/
theorem exists_faulted {bare : Instruction} (machine : Machine)
    (coded : ∀ operand ∈ bare.operands, operand.mode.Coded) {fault : Fault}
    (behind : following = machine.contents.behind)
    (faulty : (bare.fill following).fault? = some fault) :
    ∃ ready, ready.contents = (bare.fill following).fetching machine.contents ∧
      ready.registers.jumped = machine.registers.jumped ∧
      (bare.fill following).Faulted ready fault (bare.execute machine) := by
  rw [fetching_fill]
  cases bare with
  | basic opcode a b =>
    have aCoded : a.mode.Coded := coded a (by simp [operands])
    have bCoded : b.mode.Coded := coded b (by simp [operands])
    obtain ⟨aReady, bReady, ready, executes, aPrepared, bPrepared, contents, jumped⟩ :=
      exists_prepared_basic opcode aCoded bCoded behind
    refine ⟨ready, contents, jumped, ?_⟩
    rw [executes]
    exact faulted_perform opcode aPrepared bPrepared (by rwa [Operand.mode_fill])
      (by rwa [Operand.mode_fill]) faulty
  | special opcode a =>
    cases opcode
    have aCoded : a.mode.Coded := coded a (by simp [operands])
    obtain ⟨aReady, ready, executes, prepared, contents, jumped⟩ :=
      exists_prepared_special aCoded behind
    refine ⟨ready, contents, jumped, ?_⟩
    simp only [fill, fault?, Operand.mode_fill] at faulty
    split_ifs at faulty with push
    cases faulty
    have aPush : aReady.mode = .push := by rw [prepared.mode_eq, Operand.mode_fill, push]
    rw [executes, call, Operand.read_of_push aPush]
    exact ⟨rfl, by simp [fill, leftover, readFirst, readOrder, push], rfl⟩

/-- An execution that succeeds is one of an instruction without a fault. -/
theorem exists_performed_of_ok {bare : Instruction} {machine : Machine} {outcome : Outcome}
    (coded : ∀ operand ∈ bare.operands, operand.mode.Coded)
    (behind : following = machine.contents.behind)
    (succeeds : (bare.execute machine).result = .ok outcome) :
    bare.fault? = none ∧ ∃ ready executed next,
      bare.execute machine = ⟨.ok outcome, executed, next⟩ ∧
      ready.contents = (bare.fill following).fetching machine.contents ∧
      (bare.fill following).Performed ready outcome executed next := by
  cases fault : bare.fault? with
  | some fault =>
    obtain ⟨ready, -, -, faulted⟩ :=
      exists_faulted machine coded behind ((fault?_fill bare following).trans ‹_›)
    rw [faulted.result_eq] at succeeds
    cases succeeds
  | none =>
    obtain ⟨ready, performed, executed, next, executes, contents, -, performs⟩ :=
      exists_performed machine coded behind ((fault?_fill bare following).trans fault)
    rw [executes] at succeeds
    cases succeeds
    exact ⟨rfl, ready, executed, next, executes, contents, performs⟩

/-- An instruction that is passed over takes its inline words from behind PC, and moves PC to the
last of them. -/
theorem exists_pass_eq (bare : Instruction) (machine : Machine)
    (behind : following = machine.contents.behind) :
    ∃ passed next, bare.pass machine = (passed, next) ∧
      passed.forget = (bare.fill following).forget ∧
      next.contents = Function.update machine.contents (.register .pc)
        (machine.contents (.register .pc) + .ofNat (bare.size - 1)) ∧
      next.registers.jumped = machine.registers.jumped := by
  subst behind
  cases bare with
  | basic opcode a b =>
    obtain ⟨first, aPasses, aContents, aJumped⟩ :=
      a.exists_pass_eq machine (fun _ => machine.contents.headD_behind)
    have bBehind : (a.fill machine.contents.behind).2.headD 0 =
        first.contents (.cell (first.contents (.register .pc) + 1)) := by
      rw [aContents]
      exact a.headD_fill_behind (Function.update_self ..) (Function.update_of_ne (by simp) ..)
    obtain ⟨next, bPasses, bContents, bJumped⟩ := b.exists_pass_eq first (fun _ => bBehind)
    refine ⟨.basic opcode ((a.fill machine.contents.behind).1.holding none)
      ((b.fill (a.fill machine.contents.behind).2).1.holding none), next, ?_, rfl, ?_,
      bJumped.trans aJumped⟩
    · simp only [pass, aPasses, bPasses]
    rw [bContents, aContents, Function.update_idem, Function.update_self, UInt16.add_assoc]
    simp only [size, operands, List.countP_cons, List.countP_nil]
    cases a.mode.takesWord <;> cases b.mode.takesWord <;> rfl
  | special opcode a =>
    obtain ⟨next, passes, contents, jumped⟩ :=
      a.exists_pass_eq machine (fun _ => machine.contents.headD_behind)
    refine ⟨.special opcode ((a.fill machine.contents.behind).1.holding none), next, ?_, rfl, ?_,
      jumped⟩
    · simp only [pass, passes]
    rw [contents]
    simp only [size, operands, List.countP_cons, List.countP_nil]
    cases a.mode.takesWord <;> rfl

end Whole

end Instruction

end Dcpu16
