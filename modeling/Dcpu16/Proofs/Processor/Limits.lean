import Mathlib
import Dcpu16.Processor.Run

/-!
# Limits of runs

How many instructions a run may take. The limits of runs are values of the cycle counter; here they
are counted down from the start (`Processor.runFor`), so that proofs go by induction on the number
of instructions. A loop that takes instructions below a limit may take as many as the counter is
below it (`Processor.runBelow_eq_runFor`), a bounded run those that it is allowed if the counter has
room for them (`Processor.room_eq`), and a run to the end as many as the counter can count.
-/
namespace Dcpu16.Processor

/-- Take at most `count` instructions. -/
def runFor : (count : Nat) → Processor → Run
  | 0, processor => ⟨.exhausted, processor⟩
  | count + 1, processor =>
    match processor.step with
    | ⟨address, _, .error fault, next⟩ => ⟨.faulted address fault, next⟩
    | ⟨_, _, .ok none, next⟩ => ⟨.halted, next⟩
    | ⟨_, _, .ok (some _), next⟩ => next.runFor count

/-- The number of instructions that a bounded run may take. It is less than what the run is allowed
if the counter has no room for that. -/
def room (count : UInt64) (processor : Processor) : Nat :=
  (processor.cycles + count).toNat - processor.cycles.toNat

/-- While the counter is below a limit, there is an instruction more to take. -/
theorem sub_cycles_of_lt {limit : UInt64} {processor : Processor}
    (below : processor.cycles < limit) :
    limit.toNat - processor.cycles.toNat = limit.toNat - (processor.cycles.toNat + 1) + 1 := by
  have less : processor.cycles.toNat < limit.toNat := below
  omega

/-- When the counter has reached a limit, there is no instruction to take. -/
theorem sub_cycles_of_not_lt {limit : UInt64} {processor : Processor}
    (reached : ¬ processor.cycles < limit) : limit.toNat - processor.cycles.toNat = 0 :=
  Nat.sub_eq_zero_of_le (Nat.not_lt.mp reached)

/-- A loop below a limit may take as many instructions as the counter is below it. -/
theorem runBelow_eq_runFor (limit : UInt64) (processor : Processor) :
    processor.runBelow limit = processor.runFor (limit.toNat - processor.cycles.toNat) := by
  fun_induction runBelow limit processor with
  | case1 processor below address skipped fault next taken =>
    rw [sub_cycles_of_lt below, runFor, taken]
  | case2 processor below address skipped next taken =>
    rw [sub_cycles_of_lt below, runFor, taken]
  | case3 processor below address skipped instruction next taken nearer ih =>
    rw [sub_cycles_of_lt below, runFor, taken, ih, nearer]
  | case4 processor reached =>
    rw [sub_cycles_of_not_lt reached, runFor]

/-- A bounded run may take as many instructions as there is room for. -/
theorem run_eq_runFor (count : UInt64) (processor : Processor) :
    processor.run count = processor.runFor (processor.room count) :=
  runBelow_eq_runFor _ processor

/-- There is room for all that a run is allowed if the counter can count it. -/
theorem room_eq {count : UInt64} {processor : Processor}
    (bounded : processor.cycles.toNat + count.toNat < UInt64.size) :
    processor.room count = count.toNat := by
  rw [room, UInt64.toNat_add, Nat.mod_eq_of_lt bounded]
  omega

/-- A run to the end may take as many instructions as the counter can count. -/
theorem runToEnd_eq_runFor (processor : Processor) :
    processor.runToEnd = processor.runFor (UInt64.size - processor.cycles.toNat) := by
  have succ (processor : Processor) : UInt64.size - processor.cycles.toNat =
      UInt64.size - (processor.cycles.toNat + 1) + 1 := by
    have most := processor.cycles.toNat_lt_size
    omega
  fun_induction runToEnd processor with
  | case1 processor address skipped fault next taken => rw [succ, runFor, taken]
  | case2 processor address skipped next taken => rw [succ, runFor, taken]
  | case3 processor address skipped instruction next taken overflows =>
    -- The counter is 0 again, so this was the last instruction that it could count.
    have last : processor.cycles.toNat + 1 = UInt64.size := by
      have most := processor.cycles.toNat_lt_size
      have one : (1 : UInt64).toNat = 1 := rfl
      have sum := congrArg UInt64.toNat ((cycles_of_step taken).symm.trans overflows)
      rw [UInt64.toNat_add, one, UInt64.toNat_zero] at sum
      simp only [UInt64.size] at most ⊢
      omega
    rw [succ, last, Nat.sub_self, runFor, taken]
    rfl
  | case4 processor address skipped instruction next taken room nearer ih =>
    rw [succ, runFor, taken, ih, nearer]

end Dcpu16.Processor
