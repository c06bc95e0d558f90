import Dcpu16.Processor.Run
import Dcpu16.Source.Assembler

/-!
# Self-test

Five programs whose results are known. The last one is the sample program of the machine's first
description, with its endless loop replaced by a word that halts.
-/
namespace Dcpu16.CommandLine

/-- The sample program: moves, a loop, and a subroutine. -/
def sampleProgram : String := "
        SET A, 0x30
        SET [0x1000], 0x20
        SUB A, [0x1000]
        IFN A, 0x10
           SET PC, crash
        SET I, 10
        SET A, 0x2000
:loop   SET [0x2000+I], [A]
        SUB I, 1
        IFN I, 0
           SET PC, loop
        SET X, 0x4
        JSR testsub
        SET PC, crash
:testsub SHL X, 4
        SET PC, POP
:crash  DAT 0
"

/-- The machine after a program of at most 10000 instructions. -/
def machineAfter (source : String) : Except String Machine := do
  let words ← (Source.assemble source).mapError Source.Error.message
  match Processor.fresh.load words with
  | (.error error, _) => .error (Processor.loadMessage error)
  | (.ok (), processor) =>
    match processor.run 10000 with
    | ⟨.faulted _ fault, _⟩ => .error fault.message
    | ⟨_, processor⟩ => return processor.machine

/-- The checks with their names. -/
def checks : List (String × Except String Bool) :=
  [("SET I, 10 assembles to a861",
      (Source.assemble "SET I, 10").mapError Source.Error.message |>.map fun words =>
        words == [0xA861]),
    ("ADD sets overflow",
      (machineAfter "SET A, 0x4\nADD A, 0xFFFF").map fun machine => machine.get .o == 0x0001),
    ("SUB sets underflow",
      (machineAfter "SET A, 0x4\nSUB A, 0xFFFF").map fun machine => machine.get .o == 0xFFFF),
    ("stack round-trip",
      (machineAfter "SET PUSH, 0x10\nSET I, POP").map fun machine =>
        machine.get .sp == 0 && machine.get .i == 0x10),
    ("Notch sample leaves X = 0x40",
      (machineAfter sampleProgram).map fun machine => machine.get .x == 0x40)]

/-- Did the check pass? -/
def passed : Except String Bool → Bool
  | .ok holds => holds
  | .error _ => false

/-- The line of a check. -/
def checkLine : String × Except String Bool → String
  | (name, .ok true) => name ++ "... ✓\n"
  | (name, .ok false) => name ++ "... ✗\n"
  | (name, .error message) => name ++ "... ✗ (" ++ message ++ ")\n"

/-- What the self-test prints about the results of checks. -/
def selfTestText (results : List (String × Except String Bool)) : String :=
  let good := (results.filter fun result => passed result.2).length
  "━━━ DCPU-16 Emulator Self-Test ━━━\n\n" ++ String.join (results.map checkLine) ++
    "\nResults: " ++ toString good ++ " passed, " ++ toString (results.length - good) ++
    " failed\n"

end Dcpu16.CommandLine
