import Dcpu16.Proofs.Machine.Uniform
import Dcpu16.Proofs.Processor.Limits
import Dcpu16.Proofs.Processor.Step

/-!
# What a step depends on

A processor shows its registers, its memory, whether it runs, its counter and a pending skip
(`Processor.view`). Steps and runs are uniform (`Processor.uniform_step`,
`Processor.uniform_runFor`): what they give, the changes that they make to the machine and what they
leave depend on what the processor shows. They do not depend on what has been decoded before, nor on
who listens.
-/
namespace Dcpu16

/-- What a processor shows of itself: all but what it has decoded, who listens, and what they have
been told. -/
structure View where
  /-- The registers. -/
  registers : RegisterFile
  /-- The memory. -/
  ram : Ram
  /-- Running or halted. -/
  state : RunState
  /-- The number of instructions taken from memory. -/
  cycles : UInt64
  /-- Is the next instruction to be skipped? -/
  skipPending : Bool

/-- A step that ends on a processor. -/
def Step.on (given : Word × Bool × Except Fault (Option Instruction)) (processor : Processor) :
    Step :=
  ⟨given.1, given.2.1, given.2.2, processor⟩

/-- What a run gives: the number of instructions it has taken since `start`, or its fault. -/
def Run.answer (run : Run) (start : UInt64) : Except Fault Nat :=
  match run.ending with
  | .faulted _ fault => .error fault
  | .halted | .exhausted => .ok (run.processor.cycles - start).toNat

namespace Processor

/-- What the processor shows. -/
def view (processor : Processor) : View :=
  ⟨processor.machine.registers, processor.machine.ram, processor.state, processor.cycles,
    processor.skipPending⟩

section Uniform

variable {α β : Type} {processor other : Processor}

/-- On all processors that show what this one shows, `act` gives the same, makes the same changes
to the machine and leaves the rest the same. All of it is put together by `pack`. -/
def UniformAt (pack : α → Processor → β) (act : Processor → β) (processor : Processor) : Prop :=
  ∃ given changes state cycles skipPending, ∀ other : Processor, other.view = processor.view →
    ∃ decoder,
      act other = pack given ⟨other.machine.makes changes, state, cycles, skipPending, decoder⟩

/-- What `act` gives and leaves depends on what the processor shows, and on nothing else. -/
def Uniform (pack : α → Processor → β) (act : Processor → β) : Prop :=
  ∀ processor, UniformAt pack act processor

/-- The machines of processors that show the same hold the same. -/
theorem alike_of_view (same : other.view = processor.view) :
    other.machine.Alike processor.machine :=
  ⟨congrArg View.registers same, congrArg View.ram same⟩

/-- Besides their machines, processors that show the same have the same state, counter and pending
skip. -/
theorem rest_of_view (same : other.view = processor.view) :
    other.state = processor.state ∧ other.cycles = processor.cycles ∧
      other.skipPending = processor.skipPending :=
  ⟨congrArg View.state same, congrArg View.cycles same, congrArg View.skipPending same⟩

/-- Processors that show the same do so after the same changes. -/
theorem view_makes (same : other.view = processor.view) (changes : List Change) (state : RunState)
    (cycles : UInt64) (skipPending : Bool) (left right : Decoder) :
    view ⟨other.machine.makes changes, state, cycles, skipPending, left⟩ =
      view ⟨processor.machine.makes changes, state, cycles, skipPending, right⟩ := by
  obtain ⟨registers_eq, ram_eq⟩ := (alike_of_view same).makes changes
  simp only [view, registers_eq, ram_eq]

/-- The changes by which an instruction is retired. -/
def retiring (registers : RegisterFile) : List Change :=
  if registers.jumped then [.mark false] else [.mark false, .set .pc (registers.pc + 1)]

/-- Retiring an instruction makes changes. -/
theorem retire_eq (machine : Machine) (cycles : UInt64) (skipPending : Bool) (decoder : Decoder) :
    retire machine cycles skipPending decoder =
      ⟨machine.makes (retiring machine.registers), .running, cycles + 1, skipPending, decoder⟩ := by
  unfold retire retiring Machine.takeJump
  cases machine.registers.jumped <;> rfl

/-- Fetching the word at PC makes the same changes on processors that show the same. -/
theorem exists_fetched_eq (processor : Processor) : ∃ changes, ∀ other : Processor,
    other.view = processor.view → other.fetched = other.machine.makes changes := by
  obtain ⟨word, changes, reads⟩ :=
    Machine.uniform_read (processor.machine.contents (.register .pc)) processor.machine
  refine ⟨changes ++ [.mark false], fun other same => ?_⟩
  have alike := alike_of_view same
  have reads : other.machine.read (processor.machine.contents (.register .pc)) =
      (word, other.machine.makes changes) := reads other.machine alike
  simp only [fetched, alike.contents_eq, reads, Machine.makes_append]
  rfl

/-- A step at a word that is no instruction halts, and leaves a machine that has read the word. -/
theorem exists_step_eq_of_none
    (unknown : Instruction.ofWord? (processor.machine.contents
      (.cell (processor.machine.contents (.register .pc)))) = none) :
    let pc := processor.machine.contents (.register .pc)
    ∃ decoder, processor.step =
      ⟨pc, processor.skipPending, .ok none, ⟨(processor.machine.read pc).2, .halted,
        processor.cycles, processor.skipPending, decoder⟩⟩ := by
  obtain ⟨machine, state, cycles, skipPending, decoder⟩ := processor
  have decoded : (decoder.decode (machine.read machine.registers.pc).1).1 = none := by
    rw [decoder.decode_fst, machine.fst_read, ← unknown]
    rfl
  unfold step
  simp only [decoded]
  exact ⟨_, rfl⟩

/-- A step at a word that is no instruction is uniform. -/
theorem uniformAt_step_of_none
    (unknown : Instruction.ofWord? (processor.machine.contents
      (.cell (processor.machine.contents (.register .pc)))) = none) :
    UniformAt Step.on step processor := by
  obtain ⟨word, changes, reads⟩ :=
    Machine.uniform_read (processor.machine.contents (.register .pc)) processor.machine
  refine ⟨(processor.machine.contents (.register .pc), processor.skipPending, .ok none), changes,
    .halted, processor.cycles, processor.skipPending, fun other same => ?_⟩
  have reads := reads other.machine (alike_of_view same)
  have contents := (alike_of_view same).contents_eq
  obtain ⟨-, cycles, skipPending⟩ := rest_of_view same
  rw [← contents] at unknown
  obtain ⟨decoder, steps⟩ := exists_step_eq_of_none unknown
  rw [contents] at steps
  refine ⟨decoder, steps.trans ?_⟩
  simp only [reads, cycles, skipPending, Step.on]

/-- A step that passes over an instruction is uniform. -/
theorem uniformAt_step_of_skip {bare : Instruction}
    (known : Instruction.ofWord? (processor.machine.contents
      (.cell (processor.machine.contents (.register .pc)))) = some bare)
    (pending : processor.skipPending = true) : UniformAt Step.on step processor := by
  obtain ⟨changes, fetches⟩ := processor.exists_fetched_eq
  obtain ⟨passed, later, passes⟩ := bare.uniform_pass (processor.machine.makes changes)
  let before := (processor.machine.makes changes).makes later
  refine ⟨(processor.machine.contents (.register .pc), true, .ok (some passed)),
    changes ++ later ++ retiring before.registers, .running, processor.cycles + 1, false,
    fun other same => ?_⟩
  have arrives := (alike_of_view same).makes changes
  have registers := (arrives.makes later).registers_eq
  have contents := (alike_of_view same).contents_eq
  obtain ⟨-, cycles, skipPending⟩ := rest_of_view same
  rw [← contents] at known
  obtain ⟨decoder, steps⟩ := exists_step_eq known
  rw [contents, if_pos (skipPending.trans pending), fetches other same, passes _ arrives, retire_eq,
    registers, cycles] at steps
  refine ⟨decoder, steps.trans ?_⟩
  simp only [Machine.makes_append, Step.on, before]

/-- A step that executes an instruction is uniform. -/
theorem uniformAt_step_of_executes {bare : Instruction}
    (known : Instruction.ofWord? (processor.machine.contents
      (.cell (processor.machine.contents (.register .pc)))) = some bare)
    (executes : processor.skipPending = false) : UniformAt Step.on step processor := by
  obtain ⟨changes, fetches⟩ := processor.exists_fetched_eq
  obtain ⟨⟨result, executed⟩, later, performs⟩ :=
    bare.uniform_execute (processor.machine.makes changes)
  let before := (processor.machine.makes changes).makes later
  cases result with
  | error fault =>
    refine ⟨(processor.machine.contents (.register .pc), false, .error fault), changes ++ later,
      .running, processor.cycles, false, fun other same => ?_⟩
    have arrives := (alike_of_view same).makes changes
    have contents := (alike_of_view same).contents_eq
    obtain ⟨-, cycles, skipPending⟩ := rest_of_view same
    rw [← contents] at known
    obtain ⟨decoder, steps⟩ := exists_step_eq known
    rw [contents, skipPending, executes, if_neg Bool.false_ne_true, fetches other same,
      performs _ arrives, cycles] at steps
    refine ⟨decoder, steps.trans ?_⟩
    simp only [Machine.makes_append, Execution.on, Step.on]
  | ok outcome =>
    refine ⟨(processor.machine.contents (.register .pc), false, .ok (some executed)),
      changes ++ later ++ retiring before.registers, .running, processor.cycles + 1,
      outcome == .skipNext, fun other same => ?_⟩
    have arrives := (alike_of_view same).makes changes
    have registers := (arrives.makes later).registers_eq
    have contents := (alike_of_view same).contents_eq
    obtain ⟨-, cycles, skipPending⟩ := rest_of_view same
    rw [← contents] at known
    obtain ⟨decoder, steps⟩ := exists_step_eq known
    rw [contents, skipPending, executes, if_neg Bool.false_ne_true, fetches other same,
      performs _ arrives, cycles] at steps
    refine ⟨decoder, steps.trans ?_⟩
    simp only [Execution.on, retire_eq, registers, Machine.makes_append, Step.on, before]

/-- A step is uniform. -/
theorem uniform_step : Uniform Step.on step := by
  intro processor
  cases known : Instruction.ofWord? (processor.machine.contents
      (.cell (processor.machine.contents (.register .pc)))) with
  | none => exact uniformAt_step_of_none known
  | some bare =>
    cases pending : processor.skipPending with
    | true => exact uniformAt_step_of_skip known pending
    | false => exact uniformAt_step_of_executes known pending

/-- A run is uniform. -/
theorem uniform_runFor (count : Nat) : Uniform Run.mk (runFor count) := by
  induction count with
  | zero =>
    intro processor
    refine ⟨.exhausted, [], processor.state, processor.cycles, processor.skipPending,
      fun other same => ⟨other.decoder, ?_⟩⟩
    obtain ⟨state, cycles, skipPending⟩ := rest_of_view same
    rw [← state, ← cycles, ← skipPending]
    rfl
  | succ count ih =>
    intro processor
    obtain ⟨⟨address, skipped, result⟩, changes, state, cycles, skipPending, steps⟩ :=
      uniform_step processor
    rcases result with fault | taken | instruction
    · refine ⟨.faulted address fault, changes, state, cycles, skipPending, fun other same => ?_⟩
      obtain ⟨decoder, steps⟩ := steps other same
      refine ⟨decoder, ?_⟩
      simp only [runFor, steps, Step.on]
    · refine ⟨.halted, changes, state, cycles, skipPending, fun other same => ?_⟩
      obtain ⟨decoder, steps⟩ := steps other same
      refine ⟨decoder, ?_⟩
      simp only [runFor, steps, Step.on]
    · -- The rest of the run starts from a processor that shows the same for all of them.
      obtain ⟨ending, later, state', cycles', skipPending', runs⟩ :=
        ih ⟨processor.machine.makes changes, state, cycles, skipPending, processor.decoder⟩
      refine ⟨ending, changes ++ later, state', cycles', skipPending', fun other same => ?_⟩
      obtain ⟨decoder, steps⟩ := steps other same
      obtain ⟨last, runs⟩ := runs _ (view_makes same changes state cycles skipPending decoder _)
      refine ⟨last, ?_⟩
      simp only [runFor, steps, Step.on, runs, Machine.makes_append]

end Uniform

end Processor

end Dcpu16
