import Dcpu16.CommandLine.Path
import Dcpu16.CommandLine.SelfTest
import Dcpu16.CommandLine.Session
import Dcpu16.CommandLine.Trace
import Dcpu16.Listing

/-!
# Commands

What each command does: `run` executes a program and reports on the machine, `asm` turns a
source into an image, `disasm` shows an image, `test` checks the program itself. A program to
run is a source or an image, which its extension says.

Two libraries have a part in it. One reads the arguments, so what starts here is a `Command`. The
other writes JSON, and is given as a `Json.Writer`.
-/
namespace Dcpu16.CommandLine

/-- What the program is asked to do. -/
inductive Command
  /-- Run the program in a file, until the cycle counter has reached the limit. -/
  | run (path : String) (limit : UInt64) (trace json : Bool)
  /-- Assemble a source into an image. -/
  | assemble (source : String) (output : Option String)
  /-- Show the program in an image. -/
  | disassemble (image : String)
  /-- Check the program itself. -/
  | selfTest
  deriving DecidableEq

/-- Go on with the text of a source. -/
def readSource (path : String) (next : String → Session) : Session :=
  .read path fun
    | .error error => .fail ("failed to read " ++ path ++ ": " ++ error.message)
    | .ok bytes =>
      match String.fromUTF8? bytes with
      | some source => next source
      | none => .fail ("failed to read " ++ path ++ ": stream did not contain valid UTF-8")

/-- Go on with the words of a source. -/
def readAssembled (path : String) (next : List Word → Session) : Session :=
  readSource path fun source =>
    match Source.assemble source with
    | .ok words => next words
    | .error error => .fail ("assembly error: " ++ error.message)

/-- Go on with the words of an image. -/
def readImage (path : String) (next : List Word → Session) : Session :=
  .read path fun
    | .error error => .fail ("failed to load " ++ path ++ ": I/O error: " ++ error.message)
    | .ok bytes =>
      match Image.toWords bytes.toList with
      | .ok words => next words
      | .error error => .fail ("failed to load " ++ path ++ ": " ++ error.message)

/-- Go on with the words of a source or an image. -/
def readProgram (path : String) (next : List Word → Session) : Session :=
  if isSource path then readAssembled path next else readImage path next

/-- The state of a processor as JSON. -/
def stateJson (processor : Processor) : Json :=
  .record [("state", .text processor.state.name), ("cycles", .nat processor.cycles.toNat),
    ("skip_pending", .bool processor.skipPending),
    ("registers", processor.machine.registers.toJson)]

/-- The state of a processor in lines. -/
def stateText (processor : Processor) (limit : UInt64) : String :=
  let registerLine := fun (register, value) =>
    Register.name register ++ ": 0x" ++ Text.hex 4 (UInt16.toNat value) ++ "\n"
  "Cycles: " ++ toString processor.cycles.toNat ++ "\nState:  " ++ processor.state.name ++ "\n" ++
    String.join (processor.machine.registers.contents.map registerLine) ++
    if processor.state = .running then
      "\nReached max cycles limit (" ++ toString limit.toNat ++ "). Use --max-cycles to increase.\n"
    else ""

/-- The report on the state of a processor, below the lines that have been printed. JSON is written
by a library. -/
def stateReport (write : Json.Writer) (printed : String) (processor : Processor) (limit : UInt64)
    (json : Bool) : Session :=
  if json then
    match write (stateJson processor) with
    | .ok text => .done { output := printed ++ text ++ "\n" }
    | .error reason => .fail ("failed to serialize state: " ++ reason) printed
  else .done { output := printed ++ stateText processor limit }

/-- The report on a run, below the lines that have been printed. -/
def runReport (write : Json.Writer) (printed : String) (run : Run) (limit : UInt64)
    (json : Bool) : Session :=
  match run.ending with
  | .faulted address fault =>
    .fail ("cpu error at PC=" ++ Text.hex 4 address.toNat ++ ": " ++ fault.message) printed
  | .halted | .exhausted => stateReport write printed run.processor limit json

/-- Run a program. -/
def runProgram (write : Json.Writer) (words : List Word) (limit : UInt64) (trace json : Bool) :
    Session :=
  match Processor.fresh.load words with
  | (.error error, _) => .fail ("failed to load program: " ++ Processor.loadMessage error)
  | (.ok (), processor) =>
    let (printed, run) := runLoop limit trace "" processor
    runReport write printed run limit json

/-- The image of a program as the content of a file. -/
def imageFile (words : List Word) : ByteArray := ⟨(Image.ofWords words).toArray⟩

/-- Assemble a source into an image. -/
def assembleFile (source : String) (output : Option String) : Session :=
  let target := output.getD (withExtension source "bin")
  readAssembled source fun words =>
    .write target (imageFile words) fun
      | .error error => .fail ("failed to save " ++ target ++ ": I/O error: " ++ error.message)
      | .ok () =>
        .done { output := "Assembled " ++ toString words.length ++ " words: " ++ source ++ " -> " ++
          target ++ "\n" }

/-- What is printed if no command is given. -/
def bannerText : String := "DCPU-16 Emulator v0.1.0\n\nUse --help for available commands\n"

/-- What a command does. -/
def Command.session (write : Json.Writer) : Command → Session
  | .run path limit trace json =>
    readProgram path fun words => runProgram write words limit trace json
  | .assemble source output => assembleFile source output
  | .disassemble image =>
    readImage image fun words => .done { output := Listing.ofWords words ++ "\n" }
  | .selfTest =>
    let failed := checks.any fun result => !passed result.2
    .done { output := selfTestText checks, exitCode := if failed then 1 else 0 }

/-- What the program does, with a command or without one. -/
def session (write : Json.Writer) : Option Command → Session
  | some command => command.session write
  | none => .done { output := bannerText }

end Dcpu16.CommandLine
