import Dcpu16.Proofs.Processor.Operations

/-!
# Loading a program

A load erases everything that has been before: whatever a processor has done, after a load of a
program it cannot be told from a fresh processor that has loaded the same
(`Processor.transcript_load`). What has been decoded before is the one thing that a load keeps, and
this is not visible. Listeners are kept as well.
-/
namespace Dcpu16.Processor

/-- Machines hold the same once all registers and cells are cleared. -/
theorem cleared_alike (left right : Machine) :
    (left.makes [.clearRegisters, .clearMemory]).Alike
      (right.makes [.clearRegisters, .clearMemory]) :=
  ⟨rfl, rfl⟩

/-- A program that fits is loaded into every processor, and what the processor shows then depends on
the program only. -/
theorem exists_load_eq (processor : Processor) {program : List Word}
    (fits : program.length ≤ Ram.size) :
    ∃ loaded, processor.load program = (.ok (), loaded) ∧
      loaded.view = view ⟨Machine.fresh.makes ([.clearRegisters, .clearMemory] ++
        Change.loading program), .running, 0, false, .empty⟩ := by
  refine ⟨_, processor.load_of_le fits, ?_⟩
  obtain ⟨registers_eq, ram_eq⟩ :=
    (cleared_alike processor.machine .fresh).makes (Change.loading program)
  simp only [view, Machine.makes_append, registers_eq, ram_eq]

/-- Whatever a processor has done before, once a program is loaded every sequence of operations
gives the same, and leaves the same after each operation, as on a fresh processor that has loaded
this program. -/
theorem transcript_load (used : Processor) {program : List Word}
    (fits : program.length ≤ Ram.size) (operations : List Operation) :
    ∃ loaded clean, used.load program = (.ok (), loaded) ∧
      fresh.load program = (.ok (), clean) ∧ loaded.view = clean.view ∧
      transcript operations loaded = transcript operations clean := by
  obtain ⟨loaded, loads, shown⟩ := used.exists_load_eq fits
  obtain ⟨clean, loadsFresh, shownFresh⟩ := fresh.exists_load_eq fits
  have same : loaded.view = clean.view := shown.trans shownFresh.symm
  exact ⟨loaded, clean, loads, loadsFresh, same, transcript_congr same operations⟩

/-- A processor with a history: it has been stopped by the host after an instruction that fails its
test, with another place to go on and a count that is too high. -/
def worn : Processor :=
  fresh.after [.load [0x840C, 0x7C01, 0x0030], .listen .memory "screen", .step,
    .onMachine (.jump 7), .onMachine (.set .a 5), .setCycles 99, .setState .halted]

/-- The processor with a history runs a program from its start. -/
theorem transcript_load_worn :
    [0x7C01, 0x0030, 0x0000].length ≤ Ram.size ∧
      ∃ loaded clean, worn.load [0x7C01, 0x0030, 0x0000] = (.ok (), loaded) ∧
        fresh.load [0x7C01, 0x0030, 0x0000] = (.ok (), clean) ∧ loaded.view = clean.view ∧
          transcript [.step, .onMachine (.pressKey 0x41), .run 5] loaded =
            transcript [.step, .onMachine (.pressKey 0x41), .run 5] clean :=
  ⟨by decide, transcript_load worn (by decide) _⟩

end Dcpu16.Processor
