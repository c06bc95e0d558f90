import Dcpu16.Processor.Basic

/-!
# Runs

A run takes steps until the processor halts or an access is not possible. A bounded run also ends
when the cycle counter has reached its limit, which is the counter at the start and the number of
instructions that are allowed. The counter has 64 bits, and so has this sum: where it exceeds them,
the limit is below the counter, and the run takes nothing.
-/
namespace Dcpu16

/-- Why a run ended. -/
inductive Ending
  /-- A word that is no instruction. -/
  | halted
  /-- All the instructions that were allowed, or that the counter can count. -/
  | exhausted
  /-- A fault of the instruction at an address. -/
  | faulted (address : Word) (fault : Fault)
  deriving DecidableEq

/-- The end of a run. -/
structure Run where
  /-- Why it ended. -/
  ending : Ending
  /-- The processor at the end. -/
  processor : Processor

namespace Processor

/-- An instruction that is taken is counted. -/
theorem cycles_of_step {processor next : Processor} {address : Word} {skipped : Bool}
    {instruction : Instruction}
    (taken : processor.step = ⟨address, skipped, .ok (some instruction), next⟩) :
    next.cycles = processor.cycles + 1 := by
  obtain ⟨machine, state, cycles, skipPending, decoder⟩ := processor
  unfold step at taken
  dsimp only at taken
  split at taken
  · cases taken
  · split at taken
    · cases taken
      rfl
    · split at taken
      · cases taken
      · cases taken
        rfl

/-- A counter that has room counts on. -/
theorem toNat_succ {cycles limit : UInt64} (below : cycles.toNat < limit.toNat) :
    (cycles + 1).toNat = cycles.toNat + 1 := by
  have most := limit.toNat_lt
  have one : (1 : UInt64).toNat = 1 := rfl
  rw [UInt64.toNat_add, one, Nat.mod_eq_of_lt (by omega)]

/-- A counter that has counted and is not 0 has not overflowed. -/
theorem toNat_counted_of_ne {cycles : UInt64} (room : cycles + 1 ≠ 0) :
    (cycles + 1).toNat = cycles.toNat + 1 := by
  have most := cycles.toNat_lt
  have one : (1 : UInt64).toNat = 1 := rfl
  have least : (cycles + 1).toNat ≠ 0 := fun zero => room (UInt64.toNat_inj.mp zero)
  rw [UInt64.toNat_add, one] at least ⊢
  omega

/-- Take instructions while the counter is below the limit. -/
def runBelow (limit : UInt64) (processor : Processor) : Run :=
  if below : processor.cycles < limit then
    match taken : processor.step with
    | ⟨address, _, .error fault, next⟩ => ⟨.faulted address fault, next⟩
    | ⟨_, _, .ok none, next⟩ => ⟨.halted, next⟩
    | ⟨_, _, .ok (some _), next⟩ =>
      have nearer : next.cycles.toNat = processor.cycles.toNat + 1 := by
        rw [cycles_of_step taken, toNat_succ below]
      next.runBelow limit
  else ⟨.exhausted, processor⟩
termination_by limit.toNat - processor.cycles.toNat
decreasing_by
  have room : processor.cycles.toNat < limit.toNat := below
  omega

/-- Take at most `count` instructions. -/
def run (count : UInt64) (processor : Processor) : Run :=
  processor.runBelow (processor.cycles + count)

/-- Take instructions to the end. The counter, which cannot count for ever, ends a run that has
none. -/
def runToEnd (processor : Processor) : Run :=
  match taken : processor.step with
  | ⟨address, _, .error fault, next⟩ => ⟨.faulted address fault, next⟩
  | ⟨_, _, .ok none, next⟩ => ⟨.halted, next⟩
  | ⟨_, _, .ok (some _), next⟩ =>
    if overflows : next.cycles = 0 then ⟨.exhausted, next⟩
    else
      have nearer : next.cycles.toNat = processor.cycles.toNat + 1 := by
        rw [cycles_of_step taken] at overflows ⊢
        exact toNat_counted_of_ne overflows
      next.runToEnd
termination_by UInt64.size - processor.cycles.toNat
decreasing_by
  have most := processor.cycles.toNat_lt_size
  omega

end Processor

end Dcpu16
