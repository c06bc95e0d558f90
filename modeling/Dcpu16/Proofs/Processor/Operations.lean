import Dcpu16.Proofs.Machine.Operations
import Dcpu16.Proofs.Processor.Uniform

/-!
# Operations of a host

What a host can do with a processor is a `Processor.Operation`: an operation on its machine, a
subscription, a reset, a load, a step, a run, an assignment of its counter or its state, or a
replacement of its registers. Those that change the machine by announced changes only are uniform
(`Processor.Operation.uniform_apply`). Processors that show the same answer every sequence of
operations in the same way (`Processor.transcript_congr`).
-/
namespace Dcpu16.Processor

/-- Loading a program that fits makes the changes of a reset and of the loading. -/
theorem load_of_le (processor : Processor) {program : List Word}
    (fits : program.length ≤ Ram.size) :
    processor.load program = (.ok (),
      ⟨processor.machine.makes ([.clearRegisters, .clearMemory] ++ Change.loading program),
        .running, 0, false, processor.decoder⟩) := by
  simp only [load, if_neg (Nat.not_lt.mpr fits), reset, Machine.load_of_le _ fits,
    Machine.makes_append]
  rfl

/-- A program that does not fit is refused before the reset. -/
theorem load_of_lt (processor : Processor) {program : List Word}
    (exceeds : Ram.size < program.length) :
    processor.load program = (.error (.tooLarge program.length), processor) :=
  if_pos exceeds

/-- An image that has no program is refused before the reset. -/
theorem loadImage_of_error (processor : Processor) {bytes : List UInt8} {error : LoadError}
    (none : Image.toWords bytes = .error error) :
    processor.loadImage bytes = (.error error, processor) := by
  simp only [loadImage, none]

/-- To load an image is to load the program that it has. -/
theorem loadImage_of_ok (processor : Processor) {bytes : List UInt8} {program : List Word}
    (words : Image.toWords bytes = .ok program) :
    processor.loadImage bytes = processor.load program := by
  simp only [loadImage, words]

/-- What a host does with a processor. -/
inductive Operation
  | onMachine (operation : Machine.Operation)
  | listen (subject : Subject) (name : String)
  | reset
  | load (program : List Word)
  | loadImage (bytes : List UInt8)
  | step
  | executeNext
  | run (limit : UInt64)
  | runToEnd
  | setCycles (cycles : UInt64)
  | setState (state : RunState)
  /-- Put in another register file, to which nobody listens. -/
  | replaceRegisters (registers : RegisterFile)

namespace Operation

/-- Carry out an operation. -/
def apply : Operation → Processor → Answer × Processor
  | .onMachine operation, processor =>
    let (answer, machine) := operation.apply processor.machine
    (answer, { processor with machine })
  | .listen subject name, processor =>
    (.done, { processor with machine := processor.machine.listen subject name })
  | .reset, processor => (.done, processor.reset)
  | .load program, processor => (.ofLoad (processor.load program).1, (processor.load program).2)
  | .loadImage bytes, processor =>
    (.ofLoad (processor.loadImage bytes).1, (processor.loadImage bytes).2)
  | .step, processor => (.stepped processor.step.result, processor.step.processor)
  | .executeNext, processor =>
    (.wentOn (processor.step.result.map Option.isSome), processor.step.processor)
  | .run limit, processor =>
    let run := processor.run limit
    (.ran (run.answer processor.cycles), run.processor)
  | .runToEnd, processor =>
    let run := processor.runToEnd
    (.ran (run.answer processor.cycles), run.processor)
  | .setCycles cycles, processor => (.done, { processor with cycles })
  | .setState state, processor => (.done, { processor with state })
  | .replaceRegisters registers, processor =>
    (.done, { processor with
      machine := { processor.machine with registers, registerListeners := {} } })

/-- Does the operation change the machine by announced changes only, and leave the listeners as they
are? -/
def plain : Operation → Bool
  | .listen _ _ | .replaceRegisters _ => false
  | _ => true

section Uniform

/-- Loading a program is uniform. -/
theorem uniform_load (program : List Word) : Uniform Prod.mk (apply (.load program)) := by
  intro processor
  by_cases fits : program.length ≤ Ram.size
  · refine ⟨.done, [.clearRegisters, .clearMemory] ++ Change.loading program, .running, 0, false,
      fun other _ => ⟨other.decoder, ?_⟩⟩
    simp only [apply, load_of_le other fits, Answer.ofLoad]
  · refine ⟨.refused (.tooLarge program.length), [], processor.state, processor.cycles,
      processor.skipPending, fun other same => ⟨other.decoder, ?_⟩⟩
    obtain ⟨state, cycles, skipPending⟩ := rest_of_view same
    simp only [apply, load_of_lt other (Nat.not_le.mp fits), Answer.ofLoad, ← state, ← cycles,
      ← skipPending]
    rfl

/-- A run and its answer are uniform if the number of instructions that it may take depends on what
the processor shows. -/
theorem uniformAt_ran {processor : Processor} {taken : Processor → Run} (count : Nat)
    (counts : ∀ other : Processor, other.view = processor.view →
      taken other = other.runFor count) :
    UniformAt Prod.mk (fun other =>
      (Answer.ran ((taken other).answer other.cycles), (taken other).processor)) processor := by
  obtain ⟨ending, changes, state, cycles, skipPending, runs⟩ := uniform_runFor count processor
  let last : Processor := ⟨processor.machine, state, cycles, skipPending, processor.decoder⟩
  refine ⟨.ran ((Run.mk ending last).answer processor.cycles), changes, state, cycles, skipPending,
    fun other same => ?_⟩
  obtain ⟨decoder, runs⟩ := runs other same
  have start : other.cycles = processor.cycles := (rest_of_view same).2.1
  refine ⟨decoder, ?_⟩
  simp only [counts other same, runs, start]
  rfl

/-- What a plain operation gives and leaves depends on what the processor shows. -/
theorem uniform_apply (operation : Operation) (plain : operation.plain = true) :
    Uniform Prod.mk operation.apply := by
  intro processor
  cases operation with
  | onMachine operation =>
    obtain ⟨answer, changes, applies⟩ := operation.uniform_apply processor.machine
    refine ⟨answer, changes, processor.state, processor.cycles, processor.skipPending,
      fun other same => ⟨other.decoder, ?_⟩⟩
    obtain ⟨state, cycles, skipPending⟩ := rest_of_view same
    simp only [apply, applies _ (alike_of_view same), state, cycles, skipPending]
  | listen => cases plain
  | replaceRegisters => cases plain
  | reset =>
    exact ⟨.done, [.clearRegisters, .clearMemory], .running, 0, false,
      fun other _ => ⟨other.decoder, rfl⟩⟩
  | load program => exact uniform_load program processor
  | loadImage bytes =>
    cases words : Image.toWords bytes with
    | error error =>
      refine ⟨.refused error, [], processor.state, processor.cycles, processor.skipPending,
        fun other same => ⟨other.decoder, ?_⟩⟩
      obtain ⟨state, cycles, skipPending⟩ := rest_of_view same
      simp only [apply, loadImage_of_error other words, Answer.ofLoad, ← state, ← cycles,
        ← skipPending]
      rfl
    | ok program =>
      obtain ⟨answer, changes, state, cycles, skipPending, loads⟩ := uniform_load program processor
      refine ⟨answer, changes, state, cycles, skipPending, fun other same => ?_⟩
      simp only [apply, loadImage_of_ok other words]
      exact loads other same
  | step =>
    obtain ⟨⟨address, skipped, result⟩, changes, state, cycles, skipPending, steps⟩ :=
      uniform_step processor
    refine ⟨.stepped result, changes, state, cycles, skipPending, fun other same => ?_⟩
    obtain ⟨decoder, steps⟩ := steps other same
    refine ⟨decoder, ?_⟩
    simp only [apply, steps, Step.on]
  | executeNext =>
    obtain ⟨⟨address, skipped, result⟩, changes, state, cycles, skipPending, steps⟩ :=
      uniform_step processor
    refine ⟨.wentOn (result.map Option.isSome), changes, state, cycles, skipPending,
      fun other same => ?_⟩
    obtain ⟨decoder, steps⟩ := steps other same
    refine ⟨decoder, ?_⟩
    simp only [apply, steps, Step.on]
  | run limit =>
    refine uniformAt_ran (processor.room limit) fun other same => ?_
    rw [run_eq_runFor, room, room, (rest_of_view same).2.1]
  | runToEnd =>
    refine uniformAt_ran (UInt64.size - processor.cycles.toNat) fun other same => ?_
    rw [runToEnd_eq_runFor, (rest_of_view same).2.1]
  | setCycles cycles =>
    refine ⟨.done, [], processor.state, cycles, processor.skipPending,
      fun other same => ⟨other.decoder, ?_⟩⟩
    obtain ⟨state, -, skipPending⟩ := rest_of_view same
    simp only [apply, ← state, ← skipPending]
    rfl
  | setState state =>
    refine ⟨.done, [], state, processor.cycles, processor.skipPending,
      fun other same => ⟨other.decoder, ?_⟩⟩
    obtain ⟨-, cycles, skipPending⟩ := rest_of_view same
    simp only [apply, ← cycles, ← skipPending]
    rfl

end Uniform

/-- Subscribing a listener changes nothing that the processor shows. -/
theorem view_listen (processor : Processor) (subject : Subject) (name : String) :
    (apply (.listen subject name) processor).2.view = processor.view := by
  cases subject <;> rfl

/-- A plain operation makes changes to the machine. -/
theorem exists_makes (operation : Operation) (plain : operation.plain = true)
    (processor : Processor) :
    ∃ changes, (operation.apply processor).2.machine = processor.machine.makes changes := by
  obtain ⟨answer, changes, state, cycles, skipPending, applies⟩ :=
    operation.uniform_apply plain processor
  obtain ⟨decoder, applies⟩ := applies processor rfl
  exact ⟨changes, congrArg (fun applied => applied.2.machine) applies⟩

/-- Processors that show the same answer an operation in the same way and show the same
afterwards. -/
theorem apply_congr {left right : Processor} (same : left.view = right.view)
    (operation : Operation) :
    (operation.apply left).1 = (operation.apply right).1 ∧
      (operation.apply left).2.view = (operation.apply right).2.view := by
  cases plain : operation.plain with
  | true =>
    obtain ⟨answer, changes, state, cycles, skipPending, applies⟩ :=
      operation.uniform_apply plain right
    obtain ⟨leftDecoder, leftApplies⟩ := applies left same
    obtain ⟨rightDecoder, rightApplies⟩ := applies right rfl
    rw [leftApplies, rightApplies]
    exact ⟨rfl, view_makes same changes state cycles skipPending leftDecoder rightDecoder⟩
  | false =>
    cases operation with
    | listen subject name =>
      exact ⟨rfl, by rw [view_listen, view_listen, same]⟩
    | replaceRegisters registers =>
      obtain ⟨state, cycles, skipPending⟩ := rest_of_view same
      have ram_eq := (alike_of_view same).ram_eq
      exact ⟨rfl, by simp only [apply, view, ram_eq, state, cycles, skipPending]⟩
    | _ => cases plain

end Operation

/-! ## Sequences of operations -/

/-- The processor after operations that are carried out one after the other. -/
def after (processor : Processor) (operations : List Operation) : Processor :=
  operations.foldl (fun processor operation => (operation.apply processor).2) processor

/-- What is seen of operations that are carried out one after the other: what each of them gives,
and what the processor shows then. -/
def transcript : List Operation → Processor → List (Answer × View)
  | [], _ => []
  | operation :: operations, processor =>
    let (answer, next) := operation.apply processor
    (answer, next.view) :: transcript operations next

/-- Of processors that show the same, the same is seen in every sequence of operations. -/
theorem transcript_congr {left right : Processor} (same : left.view = right.view)
    (operations : List Operation) :
    transcript operations left = transcript operations right := by
  induction operations generalizing left right with
  | nil => rfl
  | cons operation operations ih =>
    obtain ⟨answer, shown⟩ := operation.apply_congr same
    exact congrArg₂ List.cons (Prod.ext answer shown) (ih shown)

end Dcpu16.Processor
