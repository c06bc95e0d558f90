import Dcpu16.Proofs.Machine.Captured
import Dcpu16.Proofs.Processor.Operations
import Dcpu16.Proofs.Processor.Runs
import Dcpu16.Proofs.Traversal

/-!
# Remembered decoding

A decoder remembers one answer for each different word that it has met (`Decoder.Met.size_eq`), and
answers as if it remembered none. It may serve a processor and a host at once, while instructions
that it has handed out are prepared, executed and passed over (`Bench`): what these capture stays
with the copy, so the next answer is again that of a word alone. Nothing else depends on what is
remembered, be it a step (`Processor.step_forget`), a run (`Processor.runFor_forget`) or all that is
done at a bench (`Bench.decoding_transparent`).
-/
namespace Dcpu16

namespace Decoder

/-- The decoder has met these words, in any order and number, and no others. -/
def Met (decoder : Decoder) (words : List Word) : Prop :=
  ∀ word, word ∈ decoder.known ↔ word ∈ words

section Met

variable {decoder : Decoder} {words : List Word}

/-- An empty decoder has met no word. -/
theorem met_empty : empty.Met [] := by
  intro word
  simp [empty]

/-- A decoder has met the word it is asked for, and those it has met before. -/
theorem Met.decode (met : decoder.Met words) (word : Word) :
    (decoder.decode word).2.Met (words ++ [word]) := by
  obtain ⟨known, faithful⟩ := decoder
  intro other
  rw [List.mem_append, List.mem_singleton, ← met other]
  simp only [Decoder.decode]
  split
  · next answer found =>
    -- A word that is known is not stored again.
    have member : word ∈ known := Std.HashMap.mem_iff_isSome_getElem?.mpr (by simp [found])
    simp only [iff_self_or]
    rintro rfl
    exact member
  · simp only [Std.HashMap.mem_insert, beq_iff_eq]
    exact or_comm.trans (or_congr_right eq_comm)

/-- A decoder remembers as many answers as there are different words that it has met. -/
theorem Met.size_eq (met : decoder.Met words) : decoder.size = words.dedup.length := by
  have same : decoder.known.keys.toFinset = words.toFinset := by
    ext word
    rw [List.mem_toFinset, List.mem_toFinset, Std.HashMap.mem_keys, met word]
  rw [size, ← Std.HashMap.length_keys, ← List.toFinset_card_of_nodup Std.HashMap.nodup_keys, same,
    List.card_toFinset]

end Met

end Decoder

/-! ## Instructions that have been handed out -/

/-- What is done with a single operand. -/
inductive Operand.Use
  | prepare
  | pass
  | read
  | write (value : Word)

/-- Do it, on a machine. -/
def Operand.Use.apply : Operand.Use → Operand → Machine → Operand × Machine
  | .prepare, operand, machine =>
    ((operand.prepare machine).operand, (operand.prepare machine).machine)
  | .pass, operand, machine => operand.pass machine
  | .read, operand, machine => ((operand.read machine).operand, (operand.read machine).machine)
  | .write value, operand, machine =>
    ((operand.write machine value).operand, (operand.write machine value).machine)

namespace Instruction

/-- What is done with an instruction: its operands may be used one by one, or all of it at once. -/
inductive Use
  | onFirst (use : Operand.Use)
  | onLast (use : Operand.Use)
  | execute
  | pass

/-- Do it, on a machine. -/
def Use.apply : Use → Instruction → Machine → Instruction × Machine
  | .onFirst use, .basic opcode a b, machine =>
    (.basic opcode (use.apply a machine).1 b, (use.apply a machine).2)
  | .onLast use, .basic opcode a b, machine =>
    (.basic opcode a (use.apply b machine).1, (use.apply b machine).2)
  | .onFirst use, .special opcode a, machine | .onLast use, .special opcode a, machine =>
    (.special opcode (use.apply a machine).1, (use.apply a machine).2)
  | .execute, instruction, machine =>
    ((instruction.execute machine).instruction, (instruction.execute machine).machine)
  | .pass, instruction, machine => instruction.pass machine

/-- The instruction that a word stands for has captured nothing. -/
theorem bare_of_ofWord? {word : Word} {instruction : Instruction}
    (known : ofWord? word = some instruction) : instruction.bare = instruction := by
  unfold ofWord? at known
  dsimp only at known
  split at known
  · cases known
    rfl
  · obtain ⟨opcode, -, rfl⟩ := Option.map_eq_some_iff.mp known
    rfl

/-- An operand of a bare instruction has captured no word, no register and no stack cell. -/
theorem captured_of_bare {instruction : Instruction} (bare : instruction.bare = instruction)
    {operand : Operand} (member : operand ∈ instruction.operands) :
    operand.nextWord = 0 ∧ operand.registerValue = 0 ∧ operand.stackAddress = none := by
  rw [← bare] at member
  cases instruction <;> simp only [Instruction.bare, operands, List.mem_cons, List.not_mem_nil,
    or_false] at member
  · rcases member with rfl | rfl <;> exact ⟨rfl, rfl, rfl⟩
  · subst member
    exact ⟨rfl, rfl, rfl⟩

end Instruction

/-! ## Processors that forget -/

namespace Processor

/-- The processor with nothing remembered. -/
def forget (processor : Processor) : Processor := { processor with decoder := .empty }

end Processor

/-- The step with nothing remembered. -/
def Step.forget (step : Step) : Step := { step with processor := step.processor.forget }

/-- The run with nothing remembered. -/
def Run.forget (run : Run) : Run := { run with processor := run.processor.forget }

namespace Processor

/-- A step of a processor that remembers nothing is the same in all else. -/
theorem step_forget (processor : Processor) :
    processor.forget.step.forget = processor.step.forget := by
  obtain ⟨machine, state, cycles, skipPending, decoder⟩ := processor
  unfold forget step
  simp only [Decoder.decode_fst]
  cases Instruction.ofWord? (machine.read machine.registers.pc).1 with
  | none => rfl
  | some instruction =>
    cases skipPending with
    | true => rfl
    | false =>
      simp only [Bool.false_eq_true, ↓reduceIte]
      rcases instruction.execute ((machine.read machine.registers.pc).2.markJump false) with
        ⟨fault | outcome, executed, next⟩ <;> rfl

/-- The instruction that a step takes, if it takes one. -/
def taken? (processor : Processor) : Option Instruction := processor.step.result.toOption.join

/-- A processor that remembers nothing takes the same. -/
theorem taken?_forget (processor : Processor) : processor.forget.taken? = processor.taken? := by
  have stepped := congrArg Step.result processor.step_forget
  exact congrArg (·.toOption.join) stepped

/-- A run of a processor that remembers nothing is the same in all else. -/
theorem runFor_forget (processor : Processor) (limit : Nat) :
    (processor.forget.runFor limit).forget = (processor.runFor limit).forget := by
  induction limit generalizing processor with
  | zero => rfl
  | succ limit ih =>
    have steps := processor.step_forget
    revert steps
    rw [runFor, runFor]
    rcases processor.forget.step with ⟨address, skipped, result, next⟩
    rcases processor.step with ⟨address', skipped', result', next'⟩
    intro steps
    simp only [Step.forget, Step.mk.injEq] at steps
    obtain ⟨rfl, rfl, rfl, same⟩ := steps
    rcases result with fault | taken | instruction
    · simp only [Run.forget, same]
    · simp only [Run.forget, same]
    · simp only
      rw [← ih next, same, ih next']

namespace Operation

/-- The instruction that an operation hands out: a step gives the one that it has taken. -/
def handed? : Operation → Processor → Option Instruction
  | .step, processor => processor.taken?
  | _, _ => none

/-- An operation on a processor that remembers nothing gives the same, and leaves the same in all
else. -/
theorem apply_forget (operation : Operation) (processor : Processor) :
    (operation.apply processor.forget).map id forget =
      (operation.apply processor).map id forget := by
  have loads (program : List Word) :
      (apply (.load program) processor.forget).map id forget =
        (apply (.load program) processor).map id forget := by
    by_cases fits : program.length ≤ Ram.size
    · simp only [apply, load_of_le _ fits]
      rfl
    · simp only [apply, load_of_lt _ (Nat.not_le.mp fits)]
      rfl
  have stepped := congrArg Step.result processor.step_forget
  have ran (limit : Nat) :=
    congrArg (Run.answer · processor.cycles) (processor.runFor_forget limit)
  -- The counter is not forgotten, nor is the number of instructions that a run may take.
  have start : processor.forget.cycles = processor.cycles := rfl
  cases operation with
  | step =>
    exact Prod.ext (congrArg Answer.stepped stepped)
      (congrArg Step.processor processor.step_forget)
  | executeNext =>
    have went := congrArg (Except.map Option.isSome) stepped
    exact Prod.ext (congrArg Answer.wentOn went) (congrArg Step.processor processor.step_forget)
  | run limit =>
    simp only [apply, run_eq_runFor, room, start]
    exact Prod.ext (congrArg Answer.ran (ran _))
      (congrArg Run.processor (processor.runFor_forget _))
  | runToEnd =>
    simp only [apply, runToEnd_eq_runFor, start]
    exact Prod.ext (congrArg Answer.ran (ran _))
      (congrArg Run.processor (processor.runFor_forget _))
  | load program => exact loads program
  | loadImage bytes =>
    cases words : Image.toWords bytes with
    | error error =>
      simp only [apply, loadImage_of_error _ words]
      rfl
    | ok program =>
      simp only [apply, loadImage_of_ok _ words]
      exact loads program
  | onMachine | listen | reset | setCycles | setState | replaceRegisters => rfl

/-- An operation on a processor that remembers nothing hands out the same. -/
theorem handed?_forget (operation : Operation) (processor : Processor) :
    operation.handed? processor.forget = operation.handed? processor := by
  cases operation with
  | step => exact processor.taken?_forget
  | _ => rfl

end Operation

end Processor

/-! ## Words that a processor decodes -/

namespace Processor

/-- The word at PC. -/
def upcoming (processor : Processor) : Word :=
  processor.machine.contents (.cell (processor.machine.contents (.register .pc)))

/-- The words that a run takes from memory. The last of them may be no instruction, or that of an
instruction with a fault. -/
def fetches : (limit : Nat) → Processor → List Word
  | 0, _ => []
  | limit + 1, processor =>
    processor.upcoming ::
      if processor.taken?.isSome then processor.step.processor.fetches limit else []

section Step

variable {processor : Processor} {words : List Word}

/-- A step takes an instruction if it gives one. -/
theorem taken?_eq_some_iff {instruction : Instruction} :
    processor.taken? = some instruction ↔ processor.step.result = .ok (some instruction) := by
  rw [taken?, Option.join_eq_some_iff, toOption_eq_some_iff]

/-- A step asks the decoder for the word at PC. -/
theorem decoder_step (processor : Processor) :
    processor.step.processor.decoder = (processor.decoder.decode processor.upcoming).2 := by
  obtain ⟨machine, state, cycles, skipPending, decoder⟩ := processor
  have word : (machine.read machine.registers.pc).1 =
      upcoming ⟨machine, state, cycles, skipPending, decoder⟩ := machine.fst_read _
  unfold step
  simp only [word]
  split
  · rfl
  · split
    · rfl
    · split <;> rfl

/-- A step lets the decoder meet the word at PC. -/
theorem met_step (met : processor.decoder.Met words) :
    processor.step.processor.decoder.Met (words ++ [processor.upcoming]) := by
  rw [decoder_step]
  exact met.decode processor.upcoming

/-- A run lets the decoder meet the words that it takes from memory. -/
theorem met_runFor (met : processor.decoder.Met words) (limit : Nat) :
    (processor.runFor limit).processor.decoder.Met (words ++ processor.fetches limit) := by
  induction limit generalizing processor words with
  | zero => simpa [runFor, fetches] using met
  | succ limit ih =>
    have stepped := met_step met
    by_cases stuck : processor.Stuck
    · obtain ⟨ending, -, -, ends⟩ := stuck.exists_runFor_eq
      have last : processor.taken? = none :=
        Option.eq_none_iff_forall_ne_some.mpr fun instruction taken =>
          stuck instruction (taken?_eq_some_iff.mp taken)
      rw [ends, fetches, last]
      exact stepped
    · simp only [Stuck, ne_eq, not_forall, not_not] at stuck
      obtain ⟨instruction, result⟩ := stuck
      have more : processor.taken?.isSome := by
        rw [taken?_eq_some_iff.mpr result]
        rfl
      rw [runFor_succ result, fetches, if_pos more, List.append_cons]
      exact ih stepped

end Step

namespace Operation

/-- The words that the decoder is asked for by an operation. -/
def fed : Operation → Processor → List Word
  | .step, processor | .executeNext, processor => [processor.upcoming]
  | .run limit, processor => processor.fetches (processor.room limit)
  | .runToEnd, processor => processor.fetches (UInt64.size - processor.cycles.toNat)
  | _, _ => []

/-- Loading a program asks the decoder for nothing. -/
theorem decoder_load (processor : Processor) (program : List Word) :
    (apply (.load program) processor).2.decoder = processor.decoder := by
  by_cases fits : program.length ≤ Ram.size
  · simp only [apply, load_of_le processor fits]
  · simp only [apply, load_of_lt processor (Nat.not_le.mp fits)]

/-- An operation lets the decoder meet the words that it is asked for. -/
theorem met_apply (operation : Operation) {processor : Processor} {words : List Word}
    (met : processor.decoder.Met words) :
    (operation.apply processor).2.decoder.Met (words ++ operation.fed processor) := by
  cases operation with
  | step | executeNext => exact met_step met
  | run limit =>
    simp only [apply, run_eq_runFor]
    exact met_runFor met (processor.room limit)
  | runToEnd =>
    simp only [apply, runToEnd_eq_runFor]
    exact met_runFor met (UInt64.size - processor.cycles.toNat)
  | load program =>
    rw [decoder_load]
    simpa [fed] using met
  | loadImage bytes =>
    have same : (apply (.loadImage bytes) processor).2.decoder = processor.decoder := by
      cases words : Image.toWords bytes with
      | error error => simp only [apply, loadImage_of_error processor words]
      | ok program =>
        simp only [apply, loadImage_of_ok processor words]
        exact decoder_load processor program
    rw [same]
    simpa [fed] using met
  | onMachine | listen | reset | setCycles | setState | replaceRegisters =>
    simpa [fed, apply, Processor.reset] using met

end Operation

end Processor

/-! ## A decoder in use -/

/-- A processor whose decoder also serves a host, and the instructions that have been handed out, in
their order, as they are now. -/
structure Bench where
  processor : Processor
  handed : List Instruction

namespace Bench

/-- The bench with nothing remembered. -/
def forget (bench : Bench) : Bench := { bench with processor := bench.processor.forget }

/-- A bench where nothing has been decoded yet. -/
def start (processor : Processor) : Bench := ⟨processor.forget, []⟩

/-- What is done at a bench. -/
inductive Use
  /-- The decoder is asked for a word, and hands out the instruction, if it is one. -/
  | decode (word : Word)
  /-- An instruction that has been handed out is used on the machine. -/
  | handle (index : Nat) (use : Instruction.Use)
  /-- An operation of the processor; a step hands out the instruction that it has taken. -/
  | operate (operation : Processor.Operation)

/-- Ask the decoder for a word. -/
def decode (bench : Bench) (word : Word) : Option Instruction × Bench :=
  let decoded := bench.processor.decoder.decode word
  (decoded.1, ⟨{ bench.processor with decoder := decoded.2 }, bench.handed ++ decoded.1.toList⟩)

/-- Use an instruction that has been handed out, if there are that many. -/
def handle (bench : Bench) (index : Nat) (use : Instruction.Use) : Bench :=
  (bench.handed[index]?).elim bench fun instruction =>
    let used := use.apply instruction bench.processor.machine
    ⟨{ bench.processor with machine := used.2 }, bench.handed.set index used.1⟩

/-- Do what is done. -/
def Use.apply : Use → Bench → Bench
  | .decode word, bench => (bench.decode word).2
  | .handle index use, bench => bench.handle index use
  | .operate operation, bench =>
    ⟨(operation.apply bench.processor).2,
      bench.handed ++ (operation.handed? bench.processor).toList⟩

/-- The words that the decoder is asked for. -/
def Use.fed : Use → Bench → List Word
  | .decode word, _ => [word]
  | .handle _ _, _ => []
  | .operate operation, bench => operation.fed bench.processor

/-- The bench after one use and another. -/
def after (bench : Bench) (uses : List Use) : Bench :=
  uses.foldl (fun bench use => use.apply bench) bench

/-- The bench after one use and another, where the decoder forgets everything before each of
them. -/
def afterForgetting (bench : Bench) (uses : List Use) : Bench :=
  uses.foldl (fun bench use => use.apply bench.forget) bench

/-- The words that the decoder is asked for by one use and another. -/
def fed : List Use → Bench → List Word
  | [], _ => []
  | use :: uses, bench => use.fed bench ++ fed uses (use.apply bench)

/-- A use lets the decoder meet the words that it is asked for. -/
theorem Use.met_apply (use : Use) {bench : Bench} {words : List Word}
    (met : bench.processor.decoder.Met words) :
    (use.apply bench).processor.decoder.Met (words ++ use.fed bench) := by
  cases use with
  | decode word => exact met.decode word
  | handle index use =>
    -- Only the copy that has been handed out is used; the decoder is the same.
    have same :
        ((Use.handle index use).apply bench).processor.decoder = bench.processor.decoder := by
      simp only [Use.apply, Bench.handle]
      cases bench.handed[index]? <;> rfl
    rw [same]
    simpa [Use.fed] using met
  | operate operation => exact operation.met_apply met

/-- One use and another let the decoder meet the words that it is asked for. -/
theorem met_after {bench : Bench} {words : List Word} (met : bench.processor.decoder.Met words)
    (uses : List Use) : (bench.after uses).processor.decoder.Met (words ++ fed uses bench) := by
  induction uses generalizing bench words with
  | nil => simpa [after, fed] using met
  | cons use uses ih =>
    have rest := ih (use.met_apply met)
    rwa [List.append_assoc] at rest

/-- A use of a bench with nothing remembered is the same in all else. -/
theorem Use.apply_forget (use : Use) (bench : Bench) :
    (use.apply bench.forget).forget = (use.apply bench).forget := by
  cases use with
  | decode word => simp only [Use.apply, Bench.decode, Decoder.decode_fst]; rfl
  | handle index use =>
    simp only [Use.apply, Bench.handle, Bench.forget]
    cases bench.handed[index]? <;> rfl
  | operate operation =>
    have applied := congrArg Prod.snd (operation.apply_forget bench.processor)
    have handed := operation.handed?_forget bench.processor
    refine congrArg₂ Bench.mk applied ?_
    change bench.handed ++ (operation.handed? bench.processor.forget).toList = _
    rw [handed]
    rfl

/-- Benches that differ only in what is remembered do so after one use and another. -/
theorem forget_after_congr {left right : Bench} (same : left.forget = right.forget)
    (uses : List Use) : (left.after uses).forget = (right.after uses).forget := by
  induction uses generalizing left right with
  | nil => exact same
  | cons use uses ih =>
    refine ih ?_
    rw [← use.apply_forget left, ← use.apply_forget right, same]

/-- Forgetting before each use changes nothing but what is remembered. -/
theorem forget_afterForgetting (bench : Bench) (uses : List Use) :
    (bench.afterForgetting uses).forget = (bench.after uses).forget := by
  induction uses generalizing bench with
  | nil => rfl
  | cons use uses ih => exact (ih _).trans (forget_after_congr (use.apply_forget bench) uses)

/-- Remembering is not visible. However a decoder has been used, by a processor and by a host, and
whatever has been done meanwhile with the instructions that it has handed out, it gives for a word
the instruction that the word stands for, with nothing captured, and remembers one answer for each
different word that it has been asked for, whether it is an instruction or not. The processor and
the instructions that have been handed out are those of a bench where the decoder forgets everything
all the time. -/
theorem decoding_transparent (processor : Processor) (uses : List Use) :
    let bench := (start processor).after uses
    (∀ word, (bench.decode word).1 = Instruction.ofWord? word ∧
      ∀ instruction, (bench.decode word).1 = some instruction →
        ∀ operand ∈ instruction.operands, operand.nextWord = 0 ∧ operand.registerValue = 0 ∧
          operand.stackAddress = none) ∧
    bench.processor.decoder.size = (fed uses (start processor)).dedup.length ∧
    bench.forget = ((start processor).afterForgetting uses).forget := by
  intro bench
  have fresh : (start processor).processor.decoder.Met [] := Decoder.met_empty
  have met := met_after fresh uses
  have answers (word : Word) : (bench.decode word).1 = Instruction.ofWord? word :=
    Decoder.decode_fst _ word
  refine ⟨fun word => ⟨answers word, fun instruction given operand member => ?_⟩, met.size_eq,
    (forget_afterForgetting _ uses).symm⟩
  rw [answers] at given
  exact Instruction.captured_of_bare (Instruction.bare_of_ofWord? given) member

/-- A step takes `ADD [0x1000+I], POP` from memory. What it has handed out is executed once more,
the decoder is asked for the same word and hands out another copy, which is prepared, and then it is
asked twice for a word that is no instruction. -/
def sharing : List Use :=
  [.operate .step, .handle 0 .execute, .decode 0x6162, .handle 1 (.onFirst .prepare), .decode 0,
    .decode 0]

/-- Two different words have been met, and the instruction is handed out as new. -/
theorem decoding_transparent_sharing :
    let bench := (start { Processor.fresh with machine := Instruction.desk }).after sharing
    (bench.decode 0x6162).1 = some Instruction.tidy ∧
      (∀ operand ∈ Instruction.tidy.operands, operand.nextWord = 0 ∧ operand.registerValue = 0 ∧
        operand.stackAddress = none) ∧
      bench.processor.decoder.size = 2 := by
  obtain ⟨answers, size, -⟩ :=
    decoding_transparent { Processor.fresh with machine := Instruction.desk } sharing
  have first : (start { Processor.fresh with machine := Instruction.desk }).processor.upcoming =
      0x6162 := by
    have holds := Instruction.desk.contents_of_cells rfl
    rw [Processor.upcoming]
    simp only [start, Processor.forget, holds]
    decide
  have words : fed sharing (start { Processor.fresh with machine := Instruction.desk }) =
      [0x6162, 0x6162, 0, 0] := by
    simp only [sharing, fed, Use.fed, Processor.Operation.fed, first]
    rfl
  obtain ⟨answer, bare⟩ := answers 0x6162
  have known : Instruction.ofWord? 0x6162 = some Instruction.tidy := by decide
  refine ⟨answer.trans known, bare _ (answer.trans known), size.trans ?_⟩
  rw [words]
  decide

end Bench

end Dcpu16
