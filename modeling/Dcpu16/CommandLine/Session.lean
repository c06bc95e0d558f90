import Dcpu16.CommandLine.Directory

/-!
# Sessions

A command reads and writes files and ends with a report. A `Session` describes this without
doing it: each step names a file and says how the session goes on with what comes of it. The
description can be carried out on real files, or in a `Directory`, which is a value.
-/
namespace Dcpu16.CommandLine

/-- How a command ends. -/
structure Report where
  /-- What is printed. -/
  output : String := ""
  /-- The error that ended the command. -/
  failure : Option String := none
  /-- 0 after success, 1 after an error, 2 if the arguments make no command. -/
  exitCode : UInt32 := 0
  deriving DecidableEq

/-- What a command does with files, up to its report. -/
inductive Session
  | done (report : Report)
  | read (path : String) (next : Except FileError ByteArray → Session)
  | write (path : String) (content : ByteArray) (next : Except FileError Unit → Session)

/-- A session that ends with an error, after this output. -/
def Session.fail (message : String) (output : String := "") : Session :=
  .done { output, failure := some message, exitCode := 1 }

/-- Carry a session out in a directory. -/
def Session.within : Session → Directory → Report × Directory
  | .done report, directory => (report, directory)
  | .read path next, directory => (next (directory.read path)).within directory
  | .write path content next, directory =>
    match directory.write path content with
    | .ok changed => (next (.ok ())).within changed
    | .error error => (next (.error error)).within directory

end Dcpu16.CommandLine
