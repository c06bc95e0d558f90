import Dcpu16.CommandLine.Command
import Dcpu16.Proofs.CommandLine.Reports
import Dcpu16.Proofs.CommandLine.Storage
import Dcpu16.Proofs.CommandLine.Tracing
import Dcpu16.Proofs.Image
import Dcpu16.Proofs.Processor.Loading

/-!
# The commands agree

To run a source and to run the image of it is the same, and the report on the run is that of the
processor (`session_agrees`). A report tells of a run as `Report.Tells` says, and the lines of a
trace tell of its instructions as `Traces` says; both hold of what is run, whatever the program, the
limit and the options are (`exists_runProgram_eq`).
-/
namespace Dcpu16.CommandLine

/-! ## Reports -/

/-- The report on an error when nothing has been printed. -/
def Report.failed (message : String) : Report := { failure := some message, exitCode := 1 }

/-- The report with lines in front of what it prints. -/
def Report.below (report : Report) (printed : String) : Report :=
  { report with output := printed ++ report.output }

/-- With nothing in front a report is as it is. -/
@[simp] theorem Report.below_empty (report : Report) : report.below "" = report := by
  rw [Report.below, String.empty_append]

/-- The report on an error stands below the lines that have been printed. -/
theorem fail_eq (message printed : String) :
    Session.fail message printed = .done ((Report.failed message).below printed) := by
  rw [Session.fail, Report.failed, Report.below, String.append_empty]

/-- A report tells of the state of a processor, in lines or in JSON as `write` writes it. -/
structure Report.TellsState (report : Report) (write : Json.Writer) (processor : Processor)
    (limit : UInt64) (json : Bool) : Prop where
  in_lines : json = false → ∃ text, report = { output := text } ∧ Reads text processor limit
  in_json : json = true → ∃ value : Json, value.Holds processor ∧
    (∀ text, write value = .ok text → report = { output := text ++ "\n" }) ∧
    ∀ reason, write value = .error reason →
      report = .failed ("failed to serialize state: " ++ reason)

/-- A report tells of a run: of its fault, or of the processor in which it has ended. -/
structure Report.Tells (report : Report) (write : Json.Writer) (run : Run) (limit : UInt64)
    (json : Bool) : Prop where
  of_fault : ∀ address fault, run.ending = .faulted address fault →
    report = .failed ("cpu error at PC=" ++ Text.hex 4 address.toNat ++ ": " ++ fault.message)
  of_end : (∀ address fault, run.ending ≠ .faulted address fault) →
    report.TellsState write run.processor limit json

/-- A report tells of a program: that it cannot be loaded, or how it runs. -/
structure Report.TellsOf (report : Report) (write : Json.Writer) (words : List Word)
    (limit : UInt64) (json : Bool) : Prop where
  of_error : ∀ error, (Processor.fresh.load words).1 = .error error →
    report = .failed ("failed to load program: " ++ Processor.loadMessage error)
  of_loaded : ∀ loaded, Processor.fresh.load words = (.ok (), loaded) →
    report.Tells write (loaded.run limit) limit json

/-- What is reported of a processor tells of its state, below the lines that have been printed. -/
theorem exists_stateReport_eq (write : Json.Writer) (processor : Processor) (limit : UInt64)
    (json : Bool) :
    ∃ report : Report, report.TellsState write processor limit json ∧
      ∀ printed, stateReport write printed processor limit json =
        .done (report.below printed) := by
  unfold stateReport
  cases json with
  | false =>
    have reads := reads_stateText processor limit
    exact ⟨_, ⟨fun _ => ⟨_, rfl, reads⟩, by simp⟩, fun printed => rfl⟩
  | true =>
    have holds := holds_stateJson processor
    cases written : write (stateJson processor) with
    | ok text =>
      have same : ∀ other, write (stateJson processor) = .ok other →
          ({ output := text ++ "\n" } : Report) = { output := other ++ "\n" } := by
        simp [written]
      refine ⟨_, ⟨by simp, fun _ => ⟨_, holds, same, by simp [written]⟩⟩, fun printed => ?_⟩
      simp [Report.below, String.append_assoc]
    | error reason =>
      have same : ∀ other, write (stateJson processor) = .error other →
          Report.failed ("failed to serialize state: " ++ reason) =
            .failed ("failed to serialize state: " ++ other) := by
        simp [written]
      exact ⟨_, ⟨by simp, fun _ => ⟨_, holds, by simp [written], same⟩⟩, fail_eq _⟩

/-- What is reported of a run tells of it, below the lines that have been printed. -/
theorem exists_runReport_eq (write : Json.Writer) (run : Run) (limit : UInt64) (json : Bool) :
    ∃ report : Report, report.Tells write run limit json ∧
      ∀ printed, runReport write printed run limit json = .done (report.below printed) := by
  unfold runReport
  cases ending : run.ending with
  | faulted address fault =>
    refine ⟨_, ⟨fun other otherFault same => ?_, fun faultless => ?_⟩, fail_eq _⟩
    · rw [ending] at same
      cases same
      rfl
    · exact absurd ending (faultless address fault)
  | halted | exhausted =>
    obtain ⟨report, tells, reports⟩ := exists_stateReport_eq write run.processor limit json
    exact ⟨report, ⟨by simp [ending], fun _ => tells⟩, reports⟩

/-! ## Traces -/

/-- A text traces a run: it has one line for each instruction that is counted, and the i-th line is
the account of the step behind the first i instructions, with a mark if that skips. -/
structure Traces (traced : String) (start : Processor) (limit : UInt64) : Prop where
  text_eq : traced.toList = (Text.lines traced.toList).flatMap fun line => line ++ ['\n']
  length_eq : (Text.lines traced.toList).length = (start.run limit).processor.cycles.toNat
  account_eq : ∀ i (inside : i < (Text.lines traced.toList).length),
    ((start.run (.ofNat i)).processor.account?.map fun entry => entry.render.toList) =
      some (Text.lines traced.toList)[i]
  marked_iff : ∀ i (inside : i < (Text.lines traced.toList).length),
    TraceEntry.Marked (Text.lines traced.toList)[i] ↔
      (start.run (.ofNat i)).processor.skipPending = true

/-- A text traces a program: there is nothing to tell if it cannot be loaded. -/
structure TracesOf (traced : String) (words : List Word) (limit : UInt64) : Prop where
  of_error : ∀ error, (Processor.fresh.load words).1 = .error error → traced = ""
  of_loaded : ∀ loaded, Processor.fresh.load words = (.ok (), loaded) → Traces traced loaded limit

/-- The text of the accounts of a run from the start traces the run. -/
theorem traces_traceText {start : Processor} (first : start.cycles = 0) (limit : UInt64) :
    Traces (traceText (start.accounts limit.toNat)) start limit := by
  have run_eq (count : UInt64) : start.run count = start.runFor count.toNat := by
    have room : start.cycles.toNat + count.toNat < UInt64.size := by
      rw [first, UInt64.toNat_zero, Nat.zero_add]
      exact count.toNat_lt_size
    rw [Processor.run_eq_runFor, Processor.room_eq room]
  obtain ⟨fewer, counted⟩ := start.cycles_runFor limit.toNat
  have accounted {i : Nat} (inside : i < (start.accounts limit.toNat).length) :
      (start.run (.ofNat i)).processor.account? = some (start.accounts limit.toNat)[i] := by
    have small : i < UInt64.size := (inside.trans_le fewer).trans limit.toNat_lt_size
    rw [run_eq, UInt64.toNat_ofNat_of_lt' small]
    exact start.account?_runFor limit.toNat inside
  have each : ∀ entry ∈ start.accounts limit.toNat, Text.Ascii entry.render.toList := by
    intro entry member
    obtain ⟨i, inside, same⟩ := List.getElem_of_mem member
    rw [← same]
    exact ascii_of_account? (accounted inside)
  have lines : Text.lines (traceText (start.accounts limit.toNat)).toList =
      (start.accounts limit.toNat).map fun entry => entry.render.toList := by
    rw [toList_traceText]
    apply Text.lines_flatMap
    intro line member
    obtain ⟨entry, listed, same⟩ := List.mem_map.mp member
    rw [← same]
    exact (each entry listed).isLine
  constructor
  · rw [lines]
    exact toList_traceText _
  · have small : (start.accounts limit.toNat).length < UInt64.size :=
      fewer.trans_lt limit.toNat_lt_size
    rw [lines, List.length_map, run_eq, counted, first, UInt64.zero_add,
      UInt64.toNat_ofNat_of_lt' small]
  · intro i inside
    simp only [lines, List.length_map] at inside
    simp only [lines, accounted inside, List.getElem_map, Option.map_some]
  · intro i inside
    simp only [lines, List.length_map] at inside
    have skipped := (Processor.account?_eq_some (accounted inside)).2.2
    simp only [lines, List.getElem_map]
    rw [TraceEntry.marked_render, skipped]

/-! ## Programs -/

/-- Nothing is counted when a program has just been loaded. -/
theorem cycles_of_load {processor loaded : Processor} {words : List Word}
    (loads : processor.load words = (.ok (), loaded)) : loaded.cycles = 0 := by
  by_cases fits : words.length ≤ Ram.size
  · rw [processor.load_of_le fits] at loads
    cases loads
    rfl
  · rw [processor.load_of_lt (Nat.not_le.mp fits)] at loads
    cases loads

section Programs

variable {write : Json.Writer} {words : List Word} {limit : UInt64} {trace json : Bool}

/-- A program that cannot be loaded is reported on at once. -/
theorem runProgram_of_error {error : LoadError} {processor : Processor}
    (refused : Processor.fresh.load words = (.error error, processor)) :
    runProgram write words limit trace json =
      .done (.failed ("failed to load program: " ++ Processor.loadMessage error)) := by
  simp only [runProgram, refused, fail_eq, Report.below_empty]

/-- The loop ends as a bounded run does, because nothing has been counted when it begins. -/
theorem runProgram_of_ok {loaded : Processor}
    (loads : Processor.fresh.load words = (.ok (), loaded)) :
    runProgram write words limit trace json =
      runReport write (runLoop limit trace "" loaded).1 (loaded.run limit) limit json := by
  have same : (runLoop limit trace "" loaded).2 = loaded.run limit := by
    rw [snd_runLoop, Processor.run, cycles_of_load loads, UInt64.zero_add]
  simp only [runProgram, loads, same]

/-- Of a program that cannot be loaded, a report tells why, and there is nothing to trace. -/
theorem tellsOf_of_error {error : LoadError} {processor : Processor}
    (refused : Processor.fresh.load words = (.error error, processor)) :
    (Report.failed ("failed to load program: " ++ Processor.loadMessage error)).TellsOf write words
      limit json ∧ TracesOf "" words limit := by
  refine ⟨⟨fun other same => ?_, fun loaded loads => ?_⟩, fun _ _ => rfl, fun loaded loads => ?_⟩
  · rw [refused] at same
    cases same
    rfl
  · rw [refused] at loads
    cases loads
  · rw [refused] at loads
    cases loads

/-- Of a program that is loaded, a report tells what it tells of the run, and so do the lines of a
trace. -/
theorem tellsOf_of_ok {loaded : Processor} (loads : Processor.fresh.load words = (.ok (), loaded))
    {report : Report} (tells : report.Tells write (loaded.run limit) limit json) {traced : String}
    (traces : Traces traced loaded limit) :
    report.TellsOf write words limit json ∧ TracesOf traced words limit := by
  refine ⟨⟨fun error refused => ?_, fun other same => ?_⟩, fun error refused => ?_,
    fun other same => ?_⟩
  · rw [loads] at refused
    cases refused
  · rw [loads] at same
    cases same
    exact tells
  · rw [loads] at refused
    cases refused
  · rw [loads] at same
    cases same
    exact traces

/-- What is reported of a program tells of it. With a trace it is the same report, below the lines
of the trace. -/
theorem exists_runProgram_eq (write : Json.Writer) (words : List Word) (limit : UInt64)
    (json : Bool) :
    ∃ (report : Report) (traced : String), report.TellsOf write words limit json ∧
      TracesOf traced words limit ∧
      runProgram write words limit false json = .done report ∧
      runProgram write words limit true json = .done (report.below traced) := by
  rcases load : Processor.fresh.load words with ⟨error | done, loaded⟩
  · obtain ⟨tells, traces⟩ := tellsOf_of_error load
    exact ⟨_, "", tells, traces, runProgram_of_error load, runProgram_of_error load⟩
  · obtain ⟨report, tells, reports⟩ := exists_runReport_eq write (loaded.run limit) limit json
    have first : loaded.cycles = 0 := cycles_of_load load
    obtain ⟨tellsOf, traces⟩ := tellsOf_of_ok load tells (traces_traceText first limit)
    refine ⟨report, _, tellsOf, traces, ?_, ?_⟩
    · rw [runProgram_of_ok load, fst_runLoop_of_not_trace, reports, Report.below_empty]
    · rw [runProgram_of_ok load, fst_runLoop_of_trace, reports, first, UInt64.toNat_zero,
        Nat.sub_zero, String.empty_append]

end Programs

/-! ## Sessions -/

/-- The text of a source is read as it is. -/
theorem fromUTF8?_toUTF8 (source : String) : String.fromUTF8? source.toUTF8 = some source := by
  rw [String.fromUTF8?, String.toUTF8_eq_toByteArray, dif_pos source.isValidUTF8]
  rfl

/-- The bytes of a file from a place on are listed behind those before it. -/
theorem toListLoop_eq (content : ByteArray) (place : Nat) (before : List UInt8) :
    ByteArray.toList.loop content place before =
      before.reverse ++ content.data.toList.drop place := by
  fun_induction ByteArray.toList.loop content place before with
  | case1 place before inside ih =>
    have listed : place < content.data.toList.length := by simpa using inside
    have byte : content.get! place = content.data.toList[place] := by
      show content.data[place]! = _
      rw [getElem!_pos content.data place inside, Array.getElem_toList]
    rw [ih, byte, List.drop_eq_getElem_cons listed, List.reverse_cons, List.append_assoc]
    rfl
  | case2 place before outside =>
    have behind : content.data.toList.length ≤ place := by simpa using Nat.le_of_not_lt outside
    rw [List.drop_eq_nil_of_le behind, List.append_nil]

/-- The file of an image holds the bytes of the image. -/
theorem toList_imageFile (words : List Word) : (imageFile words).toList = Image.ofWords words := by
  rw [ByteArray.toList, toListLoop_eq, imageFile]
  rfl

section Sessions

variable {σ : Type} {storage : Storage σ} {files : σ} {path source : String} {words : List Word}

/-- A session goes on with the words of a source that assembles. -/
theorem on_readAssembled_of_ok (holds : storage.read files path = .ok source.toUTF8)
    (assembles : Source.assemble source = .ok words) (next : List Word → Session) :
    (readAssembled path next).on storage files = (next words).on storage files := by
  simp only [readAssembled, readSource, Session.on, holds, fromUTF8?_toUTF8, assembles]

/-- A session ends at a source that does not assemble. -/
theorem on_readAssembled_of_error (holds : storage.read files path = .ok source.toUTF8)
    {error : Source.Error} (fails : Source.assemble source = .error error)
    (next : List Word → Session) :
    (readAssembled path next).on storage files =
      (.failed ("assembly error: " ++ error.message), files) := by
  simp only [readAssembled, readSource, Session.on, holds, fromUTF8?_toUTF8, fails, fail_eq,
    Report.below_empty]

/-- A session goes on with the words of an image. -/
theorem on_readImage (holds : storage.read files path = .ok (imageFile words))
    (next : List Word → Session) :
    (readImage path next).on storage files = (next words).on storage files := by
  simp only [readImage, Session.on, holds, toList_imageFile, Image.toWords_ofWords]

/-- A run of a source goes on with its words. -/
theorem session_run_source (write : Json.Writer) (named : isSource path = true) (limit : UInt64)
    (trace json : Bool) : session write (some (.run path limit trace json)) =
      readAssembled path fun words => runProgram write words limit trace json := by
  rw [session, Command.session, readProgram, if_pos named]

/-- A run of an image goes on with its words. -/
theorem session_run_image (write : Json.Writer) (unnamed : isSource path = false) (limit : UInt64)
    (trace json : Bool) : session write (some (.run path limit trace json)) =
      readImage path fun words => runProgram write words limit trace json := by
  rw [session, Command.session, readProgram, unnamed]
  rfl

/-- The commands agree on a source, on whatever storage it is held and however JSON is written.

If it assembles, a run of it tells of its words and changes no file, and with a trace it reports the
same below the lines of the trace; to assemble it writes the image of its words and nothing else;
and a run of the image, if its path is not that of a source, reports what the run of the source
reports. If it does not assemble, both commands end with this error, and no file is written. -/
theorem session_agrees (write : Json.Writer) (named : isSource path = true)
    (holds : storage.read files path = .ok source.toUTF8) :
    (∀ words, Source.assemble source = .ok words →
      (∀ limit json, ∃ (report : Report) (traced : String),
        report.TellsOf write words limit json ∧ TracesOf traced words limit ∧
        (session write (some (.run path limit false json))).on storage files = (report, files) ∧
        (session write (some (.run path limit true json))).on storage files =
          (report.below traced, files)) ∧
      ∀ output written,
        let image := output.getD (withExtension path "bin")
        storage.write files image (imageFile words) = .ok written →
        (session write (some (.assemble path output))).on storage files =
          ({ output := "Assembled " ++ toString words.length ++ " words: " ++ path ++ " -> " ++
              image ++ "\n" }, written) ∧
        (isSource image = false → storage.read written image = .ok (imageFile words) →
          ∀ limit trace json,
            ((session write (some (.run image limit trace json))).on storage written).1 =
              ((session write (some (.run path limit trace json))).on storage files).1)) ∧
    ∀ error, Source.assemble source = .error error →
      ∀ output limit trace json,
        (session write (some (.run path limit trace json))).on storage files =
          (.failed ("assembly error: " ++ error.message), files) ∧
        (session write (some (.assemble path output))).on storage files =
          (.failed ("assembly error: " ++ error.message), files) := by
  constructor
  · intro words assembles
    -- What a run reports depends on the words only, from wherever they are read.
    have runsSource (limit : UInt64) (trace json : Bool) :
        (session write (some (.run path limit trace json))).on storage files =
          (runProgram write words limit trace json).on storage files := by
      rw [session_run_source write named, on_readAssembled_of_ok holds assembles]
    constructor
    · intro limit json
      obtain ⟨report, traced, tells, traces, runs, runsTraced⟩ :=
        exists_runProgram_eq write words limit json
      refine ⟨report, traced, tells, traces, ?_, ?_⟩
      · rw [runsSource, runs, Session.on]
      · rw [runsSource, runsTraced, Session.on]
    · intro output written image writes
      constructor
      · rw [session, Command.session, assembleFile, on_readAssembled_of_ok holds assembles]
        simp only [Session.on, image, writes]
      · intro unnamed holdsImage limit trace json
        have done : ∃ report, runProgram write words limit trace json = .done report := by
          obtain ⟨report, traced, -, -, runs, runsTraced⟩ :=
            exists_runProgram_eq write words limit json
          cases trace with
          | false => exact ⟨_, runs⟩
          | true => exact ⟨_, runsTraced⟩
        obtain ⟨report, runs⟩ := done
        rw [session_run_image write unnamed, on_readImage holdsImage, runsSource, runs, Session.on,
          Session.on]
  · intro error fails output limit trace json
    constructor
    · rw [session_run_source write named, on_readAssembled_of_error holds fails]
    · rw [session, Command.session, assembleFile, on_readAssembled_of_error holds fails]

end Sessions

/-! ## A directory -/

/-- A source that goes back to itself, over an instruction that it skips. -/
def loopText : String := "IFE A, 1\nSET B, 7\nSET PC, 0"

/-- The words of the source. -/
def loopWords : List Word := [0x840C, 0x9C11, 0x81C1]

/-- A directory with this source. -/
def desk : Directory := ⟨[("loop.asm", loopText.toUTF8)]⟩

/-- What is written of the processor when nine instructions of the source have been counted. -/
def loopWriter : Json.Writer := fun _ => .ok (
  "\x7b\n  \"state\": \"Running\",\n  \"cycles\": 9,\n  \"skip_pending\": false,\n" ++
  "  \"registers\": \x7b\n    \"general\": [\n      0,\n      0,\n      0,\n      0,\n" ++
  "      0,\n      0,\n      0,\n      0\n    ],\n    \"pc\": 0,\n    \"sp\": 0,\n" ++
  "    \"o\": 0\n  \x7d\n\x7d")

/-- The source is assembled in the directory, and its image runs as it does, with a trace and a
report in JSON. -/
theorem session_agrees_desk :
    isSource "loop.asm" = true ∧ desk.read "loop.asm" = .ok loopText.toUTF8 ∧
      ∃ (written : Directory) (report : Report) (traced : String),
        (session loopWriter (some (.assemble "loop.asm" none))).within desk =
          ({ output := "Assembled 3 words: loop.asm -> loop.bin\n" }, written) ∧
        ((session loopWriter (some (.run "loop.bin" 9 true true))).within written).1 =
          report.below traced ∧
        (session loopWriter (some (.run "loop.asm" 9 true true))).within desk =
          (report.below traced, desk) ∧
        report.TellsOf loopWriter loopWords 9 true ∧ TracesOf traced loopWords 9 := by
  have named : isSource "loop.asm" = true := by decide
  have holds : desk.read "loop.asm" = .ok loopText.toUTF8 := rfl
  have assembles : Source.assemble loopText = .ok loopWords := by cbv
  obtain ⟨written, writes, kept⟩ := Directory.exists_written
    (by decide : desk.resolve "loop.bin" = .ok (.entry "loop.bin" false false)) (by decide)
    (by decide) (imageFile loopWords)
  have stored : Directory.storage.read desk "loop.asm" = .ok loopText.toUTF8 := holds
  obtain ⟨agrees, -⟩ := session_agrees loopWriter named stored
  obtain ⟨reports, images⟩ := agrees _ assembles
  obtain ⟨report, traced, tells, traces, -, ends⟩ := reports 9 true
  obtain ⟨writesImage, runsImage⟩ := images none written writes
  have same := runsImage (by decide) kept 9 true true
  rw [ends] at same
  simp only [Session.within_eq_on]
  exact ⟨named, holds, written, report, traced, writesImage, same, ends, tells, traces⟩

end Dcpu16.CommandLine
