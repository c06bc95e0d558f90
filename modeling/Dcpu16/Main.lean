import Dcpu16.CommandLine.Command

/-!
# The program

Carries out sessions on real files. The libraries that read arguments and write JSON are those that
the program is given.
-/
namespace Dcpu16.CommandLine

/-- The reason for an error of the system. -/
def FileError.ofSystem : IO.Error → FileError
  | .noFileOrDirectory .. => .notFound
  | .inappropriateType _ 20 _ => .notDirectory
  | .inappropriateType .. => .isDirectory
  | .invalidArgument _ 36 _ => .nameTooLong
  | error => .other (toString error)

/-- The result of an action on a file. -/
def attempt {α : Type} (action : IO α) : IO (Except FileError α) :=
  return (← action.toBaseIO).mapError FileError.ofSystem

/-- Carry a session out on real files. -/
def Session.perform : Session → IO Report
  | .done report => return report
  | .read path next => do (next (← attempt (IO.FS.readBinFile path))).perform
  | .write path content next => do (next (← attempt (IO.FS.writeBinFile path content))).perform

/-- Do what the arguments ask for. What reads them gives a command, or none, or a report on
arguments that ask for nothing that the program does. -/
def program (readArguments : List String → Except Report (Option Command)) (write : Json.Writer)
    (arguments : List String) : IO UInt32 := do
  let report ←
    match readArguments arguments with
    | .ok command => (session write command).perform
    | .error report => pure report
  IO.print report.output
  if let some message := report.failure then
    IO.eprintln ("error: " ++ message)
  return report.exitCode

end Dcpu16.CommandLine
