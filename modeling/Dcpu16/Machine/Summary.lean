import Dcpu16.Machine.Basic

/-!
# Summaries

The registers and the memory, each summed up in a line.
-/
namespace Dcpu16.Machine

/-- The registers in a line, with the number of those who listen to them. -/
def describeRegisters (machine : Machine) : String :=
  let file := machine.registers
  let number (word : Word) : String := toString word.toNat
  Text.record "Registers" [
    ("general", Text.sequence (file.general.map number)),
    ("pc", number file.pc),
    ("sp", number file.sp),
    ("o", number file.o),
    ("jumped", Text.truth file.jumped),
    ("observers", machine.registerListeners.describe)]

/-- The memory in a line: how many cells are not 0, how many there are, and the number of those
who listen. -/
def describeMemory (machine : Machine) : String :=
  Text.record "Memory" [
    ("non_zero_words", toString machine.ram.nonzero.length),
    ("total_words", toString Ram.size),
    ("observers", machine.memoryListeners.describe)]

end Dcpu16.Machine
