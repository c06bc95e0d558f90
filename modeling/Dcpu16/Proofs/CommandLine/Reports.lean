import Dcpu16.CommandLine.Command
import Dcpu16.Proofs.Listing.Rendered
import Dcpu16.Proofs.Source.Numbers

/-!
# Reports on a processor

What is reported of a processor at the end of a run can be read from the report. In lines
(`Reads`), there is one for the counter, one for the state and one for each register, and below
them one about the limit if the processor is still running; the numbers stand in them as digits of
their values (`reads_stateText`). In JSON (`Json.Holds`), the parts go by their names
(`holds_stateJson`).
-/
namespace Dcpu16

/-- The digits that are printed for a number have its value. -/
theorem Source.areDigits_toDigits {base : Nat} (least : 1 < base) (most : base ≤ 16)
    (zeros value : Nat) :
    AreDigits base (List.replicate zeros '0' ++ Nat.toDigits base value) ∧
      valueOf base (List.replicate zeros '0' ++ Nat.toDigits base value) = value :=
  (numeral_iff least most).mp (numeral_zeros_toDigits least most zeros value)

/-- The parts of a value tell of a processor, apart from the mark of a jump, which is not stored. -/
def Json.Holds (json : Json) (processor : Processor) : Prop :=
  ∃ state registers,
    json.fields? ["state", "cycles", "skip_pending", "registers"] =
      some [some state, some (.number processor.cycles.toNat), some (.bool processor.skipPending),
        some registers] ∧
    RunState.ofJson? state = some processor.state ∧
    RegisterFile.ofJson? registers = some { processor.machine.registers with jumped := false }

namespace CommandLine

open Source Text

/-- A line gives a number between two texts, as digits of a base. -/
def Gives (front : String) (base value : Nat) (back : String) (line : List Char) : Prop :=
  ∃ digits, line = front.toList ++ digits ++ back.toList ∧ AreDigits base digits ∧
    valueOf base digits = value

/-- The lines of a text tell of a processor at the end of a run with a limit. -/
structure Reads (text : String) (processor : Processor) (limit : UInt64) : Prop where
  text_eq : text.toList = (lines text.toList).flatMap fun line => line ++ ['\n']
  cycles_line : ∃ line, (lines text.toList)[0]? = some line ∧
    Gives "Cycles: " 10 processor.cycles.toNat "" line
  state_line : (lines text.toList)[1]? =
    some (if processor.state = .running then "State:  Running" else "State:  Halted").toList
  register_line : ∀ (place : Nat) (register : Register), Register.all[place]? = some register →
    ∃ line, (lines text.toList)[place + 2]? = some line ∧
      Gives (register.name ++ ": 0x") 16 (processor.machine.get register).toNat "" line
  limit_line : processor.state = .running → ∃ line, (lines text.toList).drop 13 = [[], line] ∧
    Gives "Reached max cycles limit (" 10 limit.toNat "). Use --max-cycles to increase." line
  nothing_more : processor.state = .halted → (lines text.toList).drop 13 = []

/-! ## Lines -/

/-- Digits are ASCII. -/
theorem ascii_of_areDigits {base : Nat} {digits : List Char} (areDigits : AreDigits base digits)
    (most : base ≤ 16) : Ascii digits := by
  intro c member
  have digit : (digit? base c).isSome := by
    rw [digit?_eq most, if_pos (areDigits.2 c member)]
    rfl
  have range := continuesNumber_range (continuesNumber_of_digit? digit)
  omega

/-- A line that gives a number is ASCII if the texts around the number are. -/
theorem Gives.ascii {front back : String} {base value : Nat} {line : List Char}
    (gives : Gives front base value back line) (most : base ≤ 16) (before : Ascii front.toList)
    (behind : Ascii back.toList) : Ascii line := by
  obtain ⟨digits, line_eq, areDigits, -⟩ := gives
  rw [line_eq]
  exact (before.append (ascii_of_areDigits areDigits most)).append behind

/-- A line gives the number that is printed in it. -/
theorem gives_toString (front back : String) (value : Nat) :
    Gives front 10 value back (front ++ toString value ++ back).toList := by
  obtain ⟨areDigits, value_eq⟩ := areDigits_toDigits (by decide : 1 < 10) (by decide) 0 value
  refine ⟨_, ?_, areDigits, value_eq⟩
  simp [Nat.repr]

/-- A line gives the number that is printed in hexadecimal in it. -/
theorem gives_hex (front : String) (width value : Nat) :
    Gives front 16 value "" (front ++ Text.hex width value).toList := by
  obtain ⟨areDigits, value_eq⟩ := areDigits_toDigits (by decide : 1 < 16) (by decide)
    (width - (Nat.toDigits 16 value).length) value
  refine ⟨_, ?_, areDigits, value_eq⟩
  simp [toList_hex]

/-- The lines of a report. -/
def reportLines (processor : Processor) (limit : UInt64) : List (List Char) :=
  ("Cycles: " ++ toString processor.cycles.toNat).toList ::
    ("State:  " ++ processor.state.name).toList ::
    Register.all.map (fun register => (register.name ++ ": 0x" ++
      Text.hex 4 (processor.machine.get register).toNat).toList) ++
    if processor.state = .running then
      [[], ("Reached max cycles limit (" ++ toString limit.toNat ++
        "). Use --max-cycles to increase.").toList]
    else []

/-- The text of a report is its lines. -/
theorem toList_stateText (processor : Processor) (limit : UInt64) :
    (stateText processor limit).toList =
      (reportLines processor limit).flatMap fun line => line ++ ['\n'] := by
  unfold stateText reportLines RegisterFile.contents
  cases processor.state <;> simp [List.flatMap_map, Function.comp_def, Machine.get]

/-- A line for the content of a register is ASCII. -/
theorem ascii_registerLine (register : Register) (value : Nat) :
    Ascii (register.name ++ ": 0x" ++ Text.hex 4 value).toList := by
  have name : Ascii register.name.toList := by cases register <;> decide
  have front : Ascii (register.name ++ ": 0x").toList := by
    rw [String.toList_append]
    exact name.append (by decide)
  exact (gives_hex _ 4 value).ascii (by decide) front (by decide)

/-- The lines of a report are ASCII. -/
theorem ascii_reportLines (processor : Processor) (limit : UInt64) :
    ∀ line ∈ reportLines processor limit, Ascii line := by
  have cycles : Ascii ("Cycles: " ++ toString processor.cycles.toNat).toList := by
    have gives := gives_toString "Cycles: " "" processor.cycles.toNat
    rw [String.append_empty] at gives
    exact gives.ascii (by decide) (by decide) (by decide)
  have state : Ascii ("State:  " ++ processor.state.name).toList := by
    cases processor.state <;> decide
  have reached : Ascii ("Reached max cycles limit (" ++ toString limit.toNat ++
      "). Use --max-cycles to increase.").toList :=
    (gives_toString _ _ limit.toNat).ascii (by decide) (by decide) (by decide)
  intro line member
  simp only [reportLines, List.mem_append, List.mem_cons, List.mem_map] at member
  obtain (rfl | rfl | ⟨register, -, rfl⟩) | last := member
  · exact cycles
  · exact state
  · exact ascii_registerLine register _
  · split at last
    · simp only [List.mem_cons, List.not_mem_nil, or_false] at last
      obtain rfl | rfl := last
      · exact Text.Ascii.blanks 0
      · exact reached
    · cases last

/-- The text of a report can be taken apart into its lines. -/
theorem lines_stateText (processor : Processor) (limit : UInt64) :
    lines (stateText processor limit).toList = reportLines processor limit := by
  rw [toList_stateText]
  apply Text.lines_flatMap
  intro line member
  exact (ascii_reportLines processor limit line member).isLine

/-- A report in lines tells of the processor. -/
theorem reads_stateText (processor : Processor) (limit : UInt64) :
    Reads (stateText processor limit) processor limit := by
  have all := lines_stateText processor limit
  constructor
  · rw [all, toList_stateText]
  · have gives := gives_toString "Cycles: " "" processor.cycles.toNat
    rw [String.append_empty] at gives
    rw [all]
    exact ⟨_, rfl, gives⟩
  · rw [all]
    cases state : processor.state <;> simp [reportLines, state, RunState.name]
  · intro place register here
    have bound : place < Register.all.length := (List.getElem?_eq_some_iff.mp here).1
    rw [all]
    refine ⟨_, ?_, gives_hex _ 4 _⟩
    simp only [reportLines, List.cons_append, List.getElem?_cons_succ]
    rw [List.getElem?_append_left (by simpa using bound), List.getElem?_map, here]
    rfl
  · intro running
    rw [all, reportLines, if_pos running,
      List.drop_left' (by simp [Register.all, Register.general])]
    exact ⟨_, rfl, gives_toString _ _ _⟩
  · intro halted
    have stopped : processor.state ≠ .running := by simp [halted]
    rw [all, reportLines, if_neg stopped,
      List.drop_left' (by simp [Register.all, Register.general])]

/-! ## JSON -/

/-- A stored word is read back. -/
theorem word?_nat (word : Word) : Json.word? (.nat word.toNat) = some word := by
  have small : (word.toNat : Int) < 65536 := by
    have below := word.toNat_lt
    omega
  rw [Json.nat, Json.word?, if_pos ⟨Int.natCast_nonneg _, small⟩, Int.toNat_natCast,
    UInt16.ofNat_toNat]

/-- Registers are read from the parts of a value. -/
theorem ofJson?_of_parts {json list pc sp o : Json} {items : List Json} {file : RegisterFile}
    (parts : json.parts? ["general", "pc", "sp", "o"] = some [some list, some pc, some sp, some o])
    (listed : list.list? = some items) (general : items.mapM Json.word? = some file.general)
    (pcRead : pc.word? = some file.pc) (spRead : sp.word? = some file.sp)
    (oRead : o.word? = some file.o) :
    RegisterFile.ofJson? json = some { file with jumped := false } := by
  simp only [RegisterFile.ofJson?, parts, Option.bind_eq_bind, Option.bind_some, listed, general,
    pcRead, spRead, oRead]
  rfl

/-- Stored registers are read back, apart from the mark of a jump. -/
theorem ofJson?_toJson (file : RegisterFile) :
    RegisterFile.ofJson? file.toJson = some { file with jumped := false } := by
  have general : (file.general.map fun word => Json.nat word.toNat).mapM Json.word? =
      some file.general := by
    simp [RegisterFile.general, Register.general, word?_nat]
  have parts : file.toJson.parts? ["general", "pc", "sp", "o"] =
      some [some (.list (file.general.map fun word => .nat word.toNat)),
        some (.nat file.pc.toNat), some (.nat file.sp.toNat), some (.nat file.o.toNat)] := by
    simp [RegisterFile.toJson, Json.parts?, Json.fields?, List.lookup]
  exact ofJson?_of_parts parts rfl general (word?_nat _) (word?_nat _) (word?_nat _)

/-- A report in JSON tells of the processor. -/
theorem holds_stateJson (processor : Processor) : (stateJson processor).Holds processor := by
  refine ⟨.text processor.state.name, processor.machine.registers.toJson, ?_, ?_, ?_⟩
  · rfl
  · cases processor.state <;> rfl
  · exact ofJson?_toJson _

end CommandLine

end Dcpu16
