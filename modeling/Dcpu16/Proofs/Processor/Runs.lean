import Dcpu16.Proofs.Processor.Uniform

/-!
# Runs in parts

A run takes instructions until its limit is reached or a step takes none (`Processor.exists_takes`).
So a run that ends without a fault can be continued: two bounded runs, one after the other, do what
one run with both limits does (`Processor.run_compose`), as long as the counter has room for both. A
run that has halted may be continued as well, since a step at the same place halts again and changes
nothing (`Processor.halted_again`).
-/
namespace Dcpu16

/-- A key that has been taken is not there a second time. -/
theorem Contents.taken_taken (contents : Contents) (address : Word) :
    (contents.taken address).taken address = contents.taken address := by
  unfold Contents.taken
  cases Window.keyboard.contains address <;> simp

/-- The word 0 is no instruction. -/
theorem Instruction.ofWord?_zero : Instruction.ofWord? 0 = none := by
  decide

namespace Processor

/-- Steps one after the other, each of which takes an instruction. -/
inductive Takes : Nat → Processor → Processor → Prop
  | refl (processor : Processor) : Takes 0 processor processor
  | step {taken : Nat} {processor last : Processor} {instruction : Instruction}
    (result : processor.step.result = .ok (some instruction))
    (rest : Takes taken processor.step.processor last) : Takes (taken + 1) processor last

/-- The next step takes no instruction: it halts or ends in a fault. -/
def Stuck (processor : Processor) : Prop :=
  ∀ instruction, processor.step.result ≠ .ok (some instruction)

/-- A step takes an instruction and counts it, or ends in a fault, or halts at a word that is no
instruction. Neither a fault nor a halt is counted. -/
theorem step_cases (processor : Processor) :
    (∃ instruction, processor.step.result = .ok (some instruction) ∧
      processor.step.processor.cycles = processor.cycles + 1) ∨
    (∃ fault, processor.step.result = .error fault ∧
      processor.step.processor.cycles = processor.cycles) ∨
    (processor.step.result = .ok none ∧ processor.step.processor.cycles = processor.cycles ∧
      Instruction.ofWord? (processor.machine.contents
        (.cell (processor.machine.contents (.register .pc)))) = none) := by
  cases known : Instruction.ofWord? (processor.machine.contents
      (.cell (processor.machine.contents (.register .pc)))) with
  | none =>
    obtain ⟨decoder, steps⟩ := exists_step_eq_of_none known
    right; right
    simp [steps]
  | some bare =>
    obtain ⟨decoder, steps⟩ := exists_step_eq known
    cases pending : processor.skipPending with
    | true =>
      rw [if_pos pending] at steps
      left
      exact ⟨_, congrArg Step.result steps, congrArg (fun step => step.processor.cycles) steps⟩
    | false =>
      rw [if_neg (by simp [pending])] at steps
      revert steps
      rcases bare.execute processor.fetched with ⟨fault | outcome, executed, machine⟩
      · intro steps
        right; left
        exact ⟨fault, congrArg Step.result steps,
          congrArg (fun step => step.processor.cycles) steps⟩
      · intro steps
        left
        exact ⟨_, congrArg Step.result steps, congrArg (fun step => step.processor.cycles) steps⟩

section Run

variable {processor last : Processor} {taken : Nat}

/-- A run goes on behind an instruction that is taken. -/
theorem runFor_succ {instruction : Instruction}
    (result : processor.step.result = .ok (some instruction)) (limit : Nat) :
    processor.runFor (limit + 1) = processor.step.processor.runFor limit := by
  rw [runFor]
  revert result
  rcases processor.step with ⟨address, skipped, result, next⟩
  rintro rfl
  rfl

/-- A run that takes no instruction ends with its first step, whatever its limit is. -/
theorem Stuck.exists_runFor_eq (stuck : processor.Stuck) :
    ∃ ending, ending ≠ .exhausted ∧ (ending = .halted ↔ processor.step.result = .ok none) ∧
      ∀ limit, processor.runFor (limit + 1) = ⟨ending, processor.step.processor⟩ := by
  unfold Stuck at stuck
  simp only [runFor]
  revert stuck
  rcases processor.step with ⟨address, skipped, fault | instruction | instruction, next⟩
  · exact fun _ => ⟨.faulted address fault, by simp, by simp, fun _ => rfl⟩
  · exact fun _ => ⟨.halted, by simp, by simp, fun _ => rfl⟩
  · exact fun stuck => absurd rfl (stuck instruction)

/-- A step that takes no instruction counts none. -/
theorem Stuck.cycles_step (stuck : processor.Stuck) :
    processor.step.processor.cycles = processor.cycles := by
  obtain ⟨instruction, result, -⟩ | ⟨fault, -, same⟩ | ⟨-, same, -⟩ := processor.step_cases
  · exact absurd result (stuck instruction)
  · exact same
  · exact same

/-- A run can be cut where some instructions have been taken. -/
theorem Takes.runFor_add (takes : Takes taken processor last) (more : Nat) :
    processor.runFor (taken + more) = last.runFor more := by
  induction takes with
  | refl => rw [Nat.zero_add]
  | step result rest ih => rw [Nat.add_right_comm, Processor.runFor_succ result, ih]

/-- The instructions that are taken are counted. -/
theorem Takes.cycles_eq (takes : Takes taken processor last) :
    last.cycles = processor.cycles + .ofNat taken := by
  induction takes with
  | refl => exact (UInt64.add_zero _).symm
  | @step taken processor last instruction result rest ih =>
    obtain ⟨_, _, counted⟩ | ⟨fault, fails, -⟩ | ⟨halts, -⟩ := processor.step_cases
    · rw [ih, counted, UInt64.add_assoc, UInt64.ofNat_add, UInt64.add_comm 1]
      rfl
    · cases result.symm.trans fails
    · cases result.symm.trans halts

/-- A run takes as many instructions as it may, unless it is stuck before. -/
theorem exists_takes (processor : Processor) (limit : Nat) :
    ∃ taken last, Takes taken processor last ∧ (taken = limit ∨ taken < limit ∧ last.Stuck) := by
  induction limit generalizing processor with
  | zero => exact ⟨0, processor, .refl processor, .inl rfl⟩
  | succ limit ih =>
    by_cases stuck : processor.Stuck
    · exact ⟨0, processor, .refl processor, .inr ⟨Nat.zero_lt_succ limit, stuck⟩⟩
    · simp only [Stuck, ne_eq, not_forall, not_not] at stuck
      obtain ⟨instruction, result⟩ := stuck
      obtain ⟨taken, last, takes, ends⟩ := ih processor.step.processor
      refine ⟨taken + 1, last, .step result takes, ?_⟩
      rcases ends with all | ⟨fewer, stuck⟩
      · exact .inl (by omega)
      · exact .inr ⟨by omega, stuck⟩

/-- A run that takes all it may is exhausted. -/
theorem Takes.runFor_eq (takes : Takes taken processor last) :
    processor.runFor taken = ⟨.exhausted, last⟩ :=
  takes.runFor_add 0

/-- Once instructions have been taken and the next step takes none, the run is over, whatever its
limit is. -/
theorem Takes.exists_runFor_eq (takes : Takes taken processor last) (stuck : last.Stuck) :
    ∃ ending, ending ≠ .exhausted ∧ (ending = .halted ↔ last.step.result = .ok none) ∧
      ∀ limit, taken < limit → processor.runFor limit = ⟨ending, last.step.processor⟩ := by
  obtain ⟨ending, ended, halts, ends⟩ := stuck.exists_runFor_eq
  refine ⟨ending, ended, halts, fun limit fewer => ?_⟩
  obtain ⟨more, rfl⟩ : ∃ more, limit = taken + (more + 1) := ⟨limit - taken - 1, by omega⟩
  rw [takes.runFor_add, ends]

/-- A run counts no more instructions than it may take. -/
theorem exists_cycles_runFor (processor : Processor) (limit : Nat) :
    ∃ taken ≤ limit,
      (processor.runFor limit).processor.cycles = processor.cycles + .ofNat taken := by
  obtain ⟨taken, last, takes, rfl | ⟨fewer, stuck⟩⟩ := processor.exists_takes limit
  · rw [takes.runFor_eq]
    exact ⟨taken, le_rfl, takes.cycles_eq⟩
  · obtain ⟨ending, -, -, ends⟩ := takes.exists_runFor_eq stuck
    rw [ends limit fewer]
    exact ⟨taken, fewer.le, stuck.cycles_step.trans takes.cycles_eq⟩

end Run

/-! ## Counting -/

/-- A counter that does not overflow has counted what it has counted. -/
theorem toNat_counted (start : UInt64) {taken : Nat}
    (bounded : start.toNat + taken < UInt64.size) :
    (start + .ofNat taken).toNat = start.toNat + taken ∧
      (start + .ofNat taken - start).toNat = taken := by
  have small : (UInt64.ofNat taken).toNat = taken := UInt64.toNat_ofNat_of_lt' (by omega)
  constructor
  · rw [UInt64.toNat_add, small]
    exact Nat.mod_eq_of_lt bounded
  · rw [UInt64.add_comm, UInt64.add_sub_cancel, small]

/-- A run without a fault gives the number of instructions that it has taken. -/
theorem Takes.answer_eq {processor last final : Processor} {taken : Nat}
    (takes : Takes taken processor last)
    (bounded : processor.cycles.toNat + taken < UInt64.size) {ending : Ending}
    (faultless : ∀ address fault, ending ≠ .faulted address fault)
    (cycles : final.cycles = last.cycles) :
    (Run.mk ending final).answer processor.cycles = .ok taken := by
  have counted := (toNat_counted _ bounded).2
  rw [← takes.cycles_eq, ← cycles] at counted
  cases ending with
  | faulted address fault => exact absurd rfl (faultless address fault)
  | halted | exhausted => simp only [Run.answer, counted]

/-- What the rest of a run gives is what the run gives, apart from the instructions taken before. -/
theorem Takes.answer_runFor {processor last : Processor} {taken more : Nat}
    (takes : Takes taken processor last)
    (bounded : processor.cycles.toNat + taken + more < UInt64.size) :
    (processor.runFor (taken + more)).answer processor.cycles =
      ((last.runFor more).answer last.cycles).map (taken + ·) := by
  obtain ⟨later, fewer, counted⟩ := last.exists_cycles_runFor more
  have before : last.cycles.toNat = processor.cycles.toNat + taken := by
    rw [takes.cycles_eq]
    exact (toNat_counted _ (by omega)).1
  have rest : ((last.runFor more).processor.cycles - last.cycles).toNat = later := by
    rw [counted]
    exact (toNat_counted _ (by omega)).2
  have whole : ((last.runFor more).processor.cycles - processor.cycles).toNat = taken + later := by
    rw [counted, takes.cycles_eq, UInt64.add_assoc, ← UInt64.ofNat_add]
    exact (toNat_counted _ (by omega)).2
  rw [takes.runFor_add]
  revert whole rest
  rcases last.runFor more with ⟨ending, final⟩
  intro rest whole
  cases ending with
  | faulted address fault => rfl
  | halted | exhausted => simp only [Run.answer, Except.map, whole, rest]

/-- A run that has taken fewer instructions than it may, and gives a number, has halted, and so does
every run that may take more. -/
theorem Takes.halts_of_answer {processor last : Processor} {taken limit given : Nat}
    (takes : Takes taken processor last) (stuck : last.Stuck) (fewer : taken < limit)
    (bounded : processor.cycles.toNat + taken < UInt64.size)
    (answers : (processor.runFor limit).answer processor.cycles = .ok given) :
    given = taken ∧ last.step.result = .ok none ∧
      ∀ limit, taken < limit → processor.runFor limit = ⟨.halted, last.step.processor⟩ := by
  obtain ⟨ending, ended, halted_iff, ends⟩ := takes.exists_runFor_eq stuck
  rw [ends limit fewer] at answers
  cases ending with
  | exhausted => exact absurd rfl ended
  | faulted address fault => cases answers
  | halted =>
    have number : (Run.mk .halted last.step.processor).answer processor.cycles = .ok taken :=
      takes.answer_eq bounded (by simp) stuck.cycles_step
    exact ⟨Except.ok.inj (answers.symm.trans number), halted_iff.mp rfl, ends⟩

/-! ## Halting again -/

/-- After a step that has halted, a step halts again and changes nothing. The key that the first may
have taken is not there any more. -/
theorem halted_again {processor : Processor} (halts : processor.step.result = .ok none) :
    processor.step.processor.step.result = .ok none ∧
      processor.step.processor.step.processor.view = processor.step.processor.view := by
  obtain ⟨_, result, -⟩ | ⟨_, fails, -⟩ | ⟨-, -, unknown⟩ := processor.step_cases
  · cases halts.symm.trans result
  · cases halts.symm.trans fails
  obtain ⟨decoder, steps⟩ := exists_step_eq_of_none unknown
  let before := processor.machine.contents
  let halted := processor.step.processor
  have machine_eq : halted.machine = (processor.machine.read (before (.register .pc))).2 :=
    congrArg (fun step => step.processor.machine) steps
  have contents : halted.machine.contents = before.taken (before (.register .pc)) := by
    rw [machine_eq, Machine.contents_read]
  have pc : halted.machine.contents (.register .pc) = before (.register .pc) := by
    rw [contents, taken_register]
  have still : Instruction.ofWord? (halted.machine.contents
      (.cell (halted.machine.contents (.register .pc)))) = none := by
    rw [pc, contents, taken_cell]
    split_ifs
    · exact Instruction.ofWord?_zero
    · exact unknown
  obtain ⟨decoder', again⟩ := exists_step_eq_of_none still
  have read_eq : halted.step.processor.machine =
      (halted.machine.read (before (.register .pc))).2 := by
    rw [again, pc]
  have alike : halted.step.processor.machine.Alike halted.machine := by
    apply Machine.alike_of_contents
    · rw [read_eq, Machine.contents_read, contents, Contents.taken_taken]
    · rw [read_eq, Machine.jumped_read]
  have state : halted.state = .halted := congrArg (fun step => step.processor.state) steps
  refine ⟨congrArg Step.result again, ?_⟩
  show halted.step.processor.view = halted.view
  simp only [view, alike.registers_eq, alike.ram_eq]
  simp only [again, state]

/-- A run that starts where a step has halted takes nothing and shows what has been shown. -/
theorem runFor_of_halted {processor : Processor} (halts : processor.step.result = .ok none)
    (limit : Nat) :
    let halted := processor.step.processor
    (halted.runFor limit).processor.view = halted.view ∧
      (halted.runFor limit).answer halted.cycles = .ok 0 := by
  intro halted
  obtain ⟨again, same⟩ := halted_again halts
  have bounded : halted.cycles.toNat + 0 < UInt64.size := halted.cycles.toNat_lt
  have start := Takes.refl halted
  cases limit with
  | zero => exact ⟨rfl, start.answer_eq bounded (by simp) rfl⟩
  | succ limit =>
    have stuck : halted.Stuck := fun instruction result => by
      cases again.symm.trans result
    obtain ⟨ending, -, halted_iff, ends⟩ := stuck.exists_runFor_eq
    obtain rfl := halted_iff.mpr again
    rw [ends limit]
    exact ⟨same, start.answer_eq bounded (by simp) stuck.cycles_step⟩

/-- A run in two parts: if the first ends without a fault, the second goes on where it has ended. -/
theorem runFor_compose {processor : Processor} {n m j : Nat}
    (bounded : processor.cycles.toNat + n + m < UInt64.size)
    (first : (processor.runFor n).answer processor.cycles = .ok j) :
    let middle := (processor.runFor n).processor
    j ≤ n ∧ middle.cycles.toNat = processor.cycles.toNat + j ∧
      (middle.runFor m).processor.view = (processor.runFor (n + m)).processor.view ∧
      (processor.runFor (n + m)).answer processor.cycles =
        ((middle.runFor m).answer middle.cycles).map (j + ·) := by
  intro middle
  obtain ⟨taken, last, takes, rfl | ⟨fewer, stuck⟩⟩ := processor.exists_takes n
  · -- The first run takes all it may, and the second goes on where it has ended.
    have middle_eq : middle = last := congrArg Run.processor takes.runFor_eq
    have all : (processor.runFor taken).answer processor.cycles = .ok taken := by
      rw [takes.runFor_eq]
      exact takes.answer_eq (by omega) (by simp) rfl
    have same : j = taken := Except.ok.inj (first.symm.trans all)
    have counted : middle.cycles.toNat = processor.cycles.toNat + taken := by
      rw [middle_eq, takes.cycles_eq]
      exact (toNat_counted _ (by omega)).1
    rw [same]
    refine ⟨le_rfl, counted, ?_, ?_⟩
    · rw [takes.runFor_add, middle_eq]
    · rw [takes.answer_runFor bounded, middle_eq]
  · -- The first run halts, and so does the second, without taking anything.
    obtain ⟨same, halts, ends⟩ := takes.halts_of_answer stuck fewer (by omega) first
    have middle_eq : middle = last.step.processor := congrArg Run.processor (ends n fewer)
    have counted : middle.cycles.toNat = processor.cycles.toNat + j := by
      rw [middle_eq, stuck.cycles_step, takes.cycles_eq, same]
      exact (toNat_counted _ (by omega)).1
    have whole : processor.runFor (n + m) = processor.runFor n := by
      rw [ends n fewer, ends (n + m) (by omega)]
    obtain ⟨shown, nothing⟩ := runFor_of_halted halts m
    rw [← middle_eq] at shown nothing
    refine ⟨by omega, counted, ?_, ?_⟩
    · rw [shown, whole]
    · rw [nothing, whole, first]
      rfl

/-- A run that halts is the same with every lower limit above the number of instructions that it
takes. -/
theorem runFor_of_halts {processor : Processor} {most limit k : Nat}
    (bounded : processor.cycles.toNat + most ≤ UInt64.size)
    (halts : (processor.runFor most).ending = .halted)
    (answers : (processor.runFor most).answer processor.cycles = .ok k) (fewer : k < limit) :
    processor.runFor limit = processor.runFor most := by
  obtain ⟨taken, last, takes, all | ⟨within, stuck⟩⟩ := processor.exists_takes most
  · rw [← all, takes.runFor_eq] at halts
    cases halts
  · obtain ⟨same, -, ends⟩ := takes.halts_of_answer stuck within (by omega) answers
    rw [ends limit (by omega), ends most within]

/-- Two bounded runs, one after the other, do what one run with both limits does, if the first ends
without a fault. A run without a limit that halts does what every bounded run does that may take
more instructions. The counter has room for all that the runs are allowed. -/
theorem run_compose {processor : Processor} {n m : UInt64}
    (bounded : processor.cycles.toNat + n.toNat + m.toNat < UInt64.size) :
    (∀ j, (processor.run n).answer processor.cycles = .ok j →
      let middle := (processor.run n).processor
      j ≤ n.toNat ∧ middle.cycles.toNat = processor.cycles.toNat + j ∧
        (middle.run m).processor.view = (processor.run (n + m)).processor.view ∧
        (processor.run (n + m)).answer processor.cycles =
          ((middle.run m).answer middle.cycles).map (j + ·)) ∧
    ∀ (k : Nat) (limit : UInt64), processor.cycles.toNat + limit.toNat < UInt64.size →
      processor.runToEnd.ending = .halted →
      processor.runToEnd.answer processor.cycles = .ok k → k < limit.toNat →
        processor.run limit = processor.runToEnd := by
  have first_eq : processor.run n = processor.runFor n.toNat := by
    rw [run_eq_runFor, room_eq (by omega)]
  have whole_eq : processor.run (n + m) = processor.runFor (n.toNat + m.toNat) := by
    have small : n.toNat + m.toNat < UInt64.size := by omega
    have sum : (n + m).toNat = n.toNat + m.toNat := by
      rw [UInt64.toNat_add]
      exact Nat.mod_eq_of_lt small
    rw [run_eq_runFor, room_eq (by omega), sum]
  constructor
  · intro j first middle
    have middle_eq : middle = (processor.runFor n.toNat).processor := by rw [← first_eq]
    rw [first_eq] at first
    obtain ⟨least, counted, shown, sum⟩ := runFor_compose bounded first
    rw [← middle_eq] at counted shown sum
    have second_eq : middle.run m = middle.runFor m.toNat := by
      rw [run_eq_runFor, room_eq (by omega)]
    rw [whole_eq, second_eq]
    exact ⟨least, counted, shown, sum⟩
  · intro k limit room halts answers fewer
    have most := processor.cycles.toNat_lt_size
    rw [runToEnd_eq_runFor] at halts answers ⊢
    rw [run_eq_runFor, room_eq room, runFor_of_halts (by omega) halts answers fewer]

/-- A processor that skips an instruction in the keyboard window, and halts at a key behind it. -/
def typed : Processor where
  machine := {
    registers := { pc := 0x9000 }
    ram := .ofCells [(0x9000, 0x8401), (0x9001, 0x0020)] }
  skipPending := true
  decoder := .empty

/-- The processor halts after one instruction, whatever it is allowed. -/
theorem runFor_typed : ∃ halted : Processor,
    (Run.mk .halted halted).answer typed.cycles = .ok 1 ∧
      ∀ limit, 1 < limit → typed.runFor limit = ⟨.halted, halted⟩ := by
  have holds := typed.machine.contents_of_cells rfl
  have found : Instruction.ofWords? typed.ahead =
      some (.basic .set ⟨.register 0, .a, 0, 0, none⟩ ⟨.literal 1, .b, 0, 0, none⟩) := by
    unfold ahead
    rw [holds]
    decide
  have retires := retires_of_skip rfl found
  obtain ⟨passed, result, -⟩ := retires.exists_result
  have contents := retires.contents_eq
  have takes : Takes 1 typed typed.step.processor := .step result (.refl _)
  have unknown : Instruction.ofWord? (typed.step.processor.machine.contents
      (.cell (typed.step.processor.machine.contents (.register .pc)))) = none := by
    rw [contents, holds]
    decide
  obtain ⟨decoder, steps⟩ := exists_step_eq_of_none unknown
  have halts := congrArg Step.result steps
  have stuck : typed.step.processor.Stuck := fun instruction taken => by
    cases halts.symm.trans taken
  obtain ⟨ending, -, halted_iff, ends⟩ := takes.exists_runFor_eq stuck
  have halted : ending = .halted := halted_iff.mpr halts
  rw [halted] at ends
  exact ⟨_, takes.answer_eq (by decide) (by simp) stuck.cycles_step, ends⟩

/-- The processor may be run in two parts, though the first has taken the key at which it halts. -/
theorem run_compose_typed :
    typed.cycles.toNat + (5 : UInt64).toNat + (3 : UInt64).toNat < UInt64.size ∧
      (typed.run 5).answer typed.cycles = .ok 1 ∧
      ((typed.run 5).processor.run 3).processor.view = (typed.run 8).processor.view ∧
      (typed.run 8).answer typed.cycles =
        (((typed.run 5).processor.run 3).answer (typed.run 5).processor.cycles).map (1 + ·) ∧
      typed.run 2 = typed.runToEnd := by
  obtain ⟨halted, answers, ends⟩ := runFor_typed
  have bounded : typed.cycles.toNat + (5 : UInt64).toNat + (3 : UInt64).toNat < UInt64.size := by
    decide
  obtain ⟨composes, whole⟩ := run_compose bounded
  have first : (typed.run 5).answer typed.cycles = .ok 1 := by
    have room : typed.room 5 = 5 := room_eq (by decide)
    rw [run_eq_runFor, room, ends 5 (by decide)]
    exact answers
  have all : typed.runToEnd = ⟨.halted, halted⟩ := by
    rw [runToEnd_eq_runFor]
    exact ends _ (by decide)
  obtain ⟨-, -, shown, sum⟩ := composes 1 first
  have same : typed.run 2 = typed.runToEnd := by
    apply whole 1 2 (by decide)
    · rw [all]
    · rw [all]
      exact answers
    · decide
  exact ⟨bounded, first, shown, sum, same⟩

end Processor

end Dcpu16
