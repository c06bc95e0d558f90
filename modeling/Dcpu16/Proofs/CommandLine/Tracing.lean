import Dcpu16.CommandLine.Trace
import Dcpu16.Proofs.Listing.Rendered
import Dcpu16.Proofs.Processor.Agreement
import Dcpu16.Proofs.Processor.Runs

/-!
# Traced runs

The loop of the command that runs a program ends as a run below the same limit does, whether it is
traced or not (`snd_runLoop`). A trace is an account of each instruction that is taken, in order
(`fst_runLoop_of_trace`): the i-th account is that of the step behind the first i instructions
(`Processor.account?_runFor`). An account is a line of ASCII (`ascii_of_account?`), and the mark in
it stands for a skipped instruction (`TraceEntry.marked_render`).
-/
namespace Dcpu16

open CommandLine (TraceEntry)

namespace Processor

/-! ## Accounts -/

/-- A step looks at the word at PC. -/
theorem address_step (processor : Processor) :
    processor.step.address = processor.machine.registers.pc := by
  unfold step
  dsimp only
  split
  · rfl
  · split
    · rfl
    · split <;> rfl

/-- What a trace is to tell of the next step, if that takes an instruction: where the instruction
stands and whether it is skipped are known before the step, O and SP behind it. -/
def account? (processor : Processor) : Option TraceEntry :=
  let after := processor.step.processor.machine
  match processor.step.result with
  | .ok (some instruction) => some {
      address := processor.machine.get .pc
      skipped := processor.skipPending
      instruction
      overflow := after.get .o
      stackPointer := after.get .sp }
  | _ => none

/-- What a trace is to tell of a number of steps. It ends with the first that takes no
instruction. -/
def accounts : (count : Nat) → Processor → List TraceEntry
  | 0, _ => []
  | count + 1, processor =>
    match processor.account? with
    | some entry => entry :: processor.step.processor.accounts count
    | none => []

section Accounts

variable {processor : Processor}

/-- Nothing but an instruction that is taken is accounted for. -/
theorem account?_eq_some {entry : TraceEntry} (accounted : processor.account? = some entry) :
    processor.step.result = .ok (some entry.instruction) ∧
      entry.address = processor.machine.get .pc ∧ entry.skipped = processor.skipPending := by
  unfold account? at accounted
  dsimp only at accounted
  split at accounted
  · next instruction result =>
    cases accounted
    exact ⟨result, rfl, rfl⟩
  · cases accounted

/-- A step that takes no instruction is not accounted for. -/
theorem Stuck.account?_eq (stuck : processor.Stuck) : processor.account? = none := by
  cases accounted : processor.account? with
  | none => rfl
  | some entry => exact absurd (account?_eq_some accounted).1 (stuck _)

/-- There is nothing to tell where no instruction is taken. -/
theorem Stuck.accounts_eq (stuck : processor.Stuck) (count : Nat) :
    processor.accounts count = [] := by
  cases count with
  | zero => rfl
  | succ count => rw [accounts, stuck.account?_eq]

/-- An instruction that is taken is accounted for. -/
theorem exists_account?_eq {instruction : Instruction}
    (result : processor.step.result = .ok (some instruction)) :
    ∃ entry, processor.account? = some entry := by
  unfold account?
  rw [result]
  exact ⟨_, rfl⟩

/-- A run counts the instructions that are accounted for, and they are not more than it may take. -/
theorem cycles_runFor (processor : Processor) (count : Nat) :
    (processor.accounts count).length ≤ count ∧
      (processor.runFor count).processor.cycles =
        processor.cycles + .ofNat (processor.accounts count).length := by
  induction count generalizing processor with
  | zero => exact ⟨le_rfl, (UInt64.add_zero _).symm⟩
  | succ count ih =>
    by_cases stuck : processor.Stuck
    · obtain ⟨ending, -, -, ends⟩ := stuck.exists_runFor_eq
      rw [stuck.accounts_eq, ends]
      exact ⟨Nat.zero_le _, stuck.cycles_step.trans (UInt64.add_zero _).symm⟩
    · simp only [Stuck, ne_eq, not_forall, not_not] at stuck
      obtain ⟨instruction, result⟩ := stuck
      obtain ⟨entry, accounted⟩ := exists_account?_eq result
      obtain ⟨fewer, counted⟩ := ih processor.step.processor
      have first : processor.step.processor.cycles = processor.cycles + .ofNat 1 :=
        (Takes.step result (.refl _)).cycles_eq
      rw [runFor_succ result, counted, first, accounts, accounted, List.length_cons,
        UInt64.add_assoc, ← UInt64.ofNat_add, Nat.add_comm 1]
      exact ⟨Nat.succ_le_succ fewer, rfl⟩

/-- The i-th account is that of the step behind the first i instructions. -/
theorem account?_runFor (processor : Processor) (count : Nat) {i : Nat}
    (inside : i < (processor.accounts count).length) :
    (processor.runFor i).processor.account? = some (processor.accounts count)[i] := by
  induction count generalizing processor i with
  | zero => exact absurd inside (Nat.not_lt_zero i)
  | succ count ih =>
    cases accounted : processor.account? with
    | none =>
      have nothing : processor.accounts (count + 1) = [] := by rw [accounts, accounted]
      simp [nothing] at inside
    | some entry =>
      have more : processor.accounts (count + 1) =
          entry :: processor.step.processor.accounts count := by
        rw [accounts, accounted]
      simp only [more]
      cases i with
      | zero => exact accounted
      | succ i =>
        rw [more] at inside
        rw [runFor_succ (account?_eq_some accounted).1]
        exact ih processor.step.processor (Nat.lt_of_succ_lt_succ inside)

end Accounts

end Processor

/-! ## Lines -/

namespace CommandLine

namespace TraceEntry

open Text (Ascii)

/-- The mark of a skipped instruction stands behind the address. -/
def Marked (line : List Char) : Prop := (line.drop 6).take 4 = "skip".toList

/-- A line is marked if its instruction was only passed over. -/
theorem marked_render (entry : TraceEntry) :
    Marked entry.render.toList ↔ entry.skipped = true := by
  have small : entry.address.toNat < 16 ^ 4 := entry.address.toNat_lt
  obtain ⟨least, most⟩ :=
    Source.length_hex (by decide : 0 < 4) (by decide : 4 ≤ 4) small
  let mark := if entry.skipped then "skip" else "    "
  let front := (Text.hex 4 entry.address.toNat).toList ++ [':', ' ']
  have length : front.length = 6 := by
    simp only [front, List.length_append, List.length_cons, List.length_nil]
    omega
  have four : mark.toList.length = 4 := by
    simp only [mark]
    cases entry.skipped <;> rfl
  obtain ⟨rest, whole⟩ : ∃ rest, entry.render.toList = front ++ (mark.toList ++ rest) := by
    simp only [render, String.toList_append, List.append_assoc, front, mark]
    exact ⟨_, rfl⟩
  rw [Marked, whole, List.drop_left' length, List.take_left' four]
  simp only [mark]
  cases entry.skipped <;> decide

/-- A line of a trace is ASCII. -/
theorem ascii_render {entry : TraceEntry} (written : Ascii entry.instruction.text.toList) :
    Ascii entry.render.toList := by
  have mark : Ascii (if entry.skipped then "skip" else "    ").toList := by
    cases entry.skipped <;> decide
  have column : Ascii (Text.column 24 entry.instruction.text).toList := by
    rw [Text.column, String.toList_append, String.toList_ofList]
    exact written.append (.blanks _)
  have separators : Ascii ": ".toList ∧ Ascii " ".toList ∧ Ascii " O=".toList ∧
      Ascii " SP=".toList := by
    decide
  obtain ⟨address, blank, overflow, stackPointer⟩ := separators
  simp only [render, String.toList_append]
  exact ((((((((Ascii.hex _ _).append address).append mark).append blank).append column).append
    overflow).append (.hex _ _)).append stackPointer).append (.hex _ _)

end TraceEntry

/-- What is accounted for has the text of the instruction in memory, which is ASCII. -/
theorem ascii_of_account? {processor : Processor} {entry : TraceEntry}
    (accounted : processor.account? = some entry) : Text.Ascii entry.render.toList := by
  have result := (Processor.account?_eq_some accounted).1
  have found := Processor.ofWords?_ahead result
  have written := Instruction.ascii_text (Instruction.atRest_of_ofWords? found)
  rw [Instruction.text_forget] at written
  exact TraceEntry.ascii_render written

/-- The lines of entries. -/
def traceText (entries : List TraceEntry) : String :=
  String.join (entries.map fun entry => entry.render ++ "\n")

/-- The text of a trace is the lines of its entries. -/
theorem toList_traceText (entries : List TraceEntry) :
    (traceText entries).toList =
      (entries.map fun entry => entry.render.toList).flatMap fun line => line ++ ['\n'] := by
  induction entries with
  | nil => rfl
  | cons entry entries ih =>
    have split : traceText (entry :: entries) = entry.render ++ "\n" ++ traceText entries := by
      simp [traceText]
    simp [split, ih]

/-! ## The loop -/

section Loop

variable (limit : UInt64) (trace : Bool) (printed : String) (processor : Processor)

/-- The loop ends as a run below the limit does, whether it is traced or not. -/
theorem snd_runLoop : (runLoop limit trace printed processor).2 = processor.runBelow limit := by
  rw [Processor.runBelow_eq_runFor]
  fun_induction runLoop limit trace printed processor with
  | case1 printed processor below address address' skipped fault next taken =>
    have place : address' = address := by
      have looked := processor.address_step
      rwa [taken] at looked
    rw [Processor.sub_cycles_of_lt below, Processor.runFor, taken, ← place]
  | case2 printed processor below address' skipped next taken =>
    rw [Processor.sub_cycles_of_lt below, Processor.runFor, taken]
  | case3 printed processor below address skipped address' skipped' instruction next taken nearer
      entry ih =>
    rw [Processor.sub_cycles_of_lt below, Processor.runFor, taken, ← nearer]
    exact ih
  | case4 printed processor reached =>
    rw [Processor.sub_cycles_of_not_lt reached, Processor.runFor]

/-- A loop that is not traced prints nothing. -/
theorem fst_runLoop_of_not_trace : (runLoop limit false printed processor).1 = printed := by
  fun_induction runLoop limit false printed processor with
  | case1 | case2 | case4 => rfl
  | case3 printed processor below address skipped address' skipped' instruction next taken nearer
      entry ih => exact ih

/-- A traced loop prints what is to be told of the instructions that it takes. -/
theorem fst_runLoop_of_trace : (runLoop limit true printed processor).1 =
    printed ++ traceText (processor.accounts (limit.toNat - processor.cycles.toNat)) := by
  have nothing {processor : Processor} (stuck : processor.Stuck) (printed : String) (count : Nat) :
      printed = printed ++ traceText (processor.accounts count) := by
    rw [stuck.accounts_eq]
    exact String.append_empty.symm
  fun_induction runLoop limit true printed processor with
  | case1 printed processor below address address' skipped fault next taken =>
    have stuck : processor.Stuck := by simp [Processor.Stuck, taken]
    exact nothing stuck printed _
  | case2 printed processor below address' skipped next taken =>
    have stuck : processor.Stuck := by simp [Processor.Stuck, taken]
    exact nothing stuck printed _
  | case3 printed processor below address skipped address' skipped' instruction next taken nearer
      entry ih =>
    have accounted : processor.account? = some entry := by
      simp only [Processor.account?, taken]
      rfl
    have behind : processor.step.processor = next := congrArg Step.processor taken
    have more : processor.accounts (limit.toNat - (processor.cycles.toNat + 1) + 1) =
        entry :: next.accounts (limit.toNat - next.cycles.toNat) := by
      rw [Processor.accounts, accounted, behind, nearer]
    refine ih.trans ?_
    rw [Processor.sub_cycles_of_lt below, more]
    simp [traceText, String.append_assoc]
  | case4 printed processor reached =>
    rw [Processor.sub_cycles_of_not_lt reached]
    exact String.append_empty.symm

end Loop

end CommandLine

end Dcpu16
