import Dcpu16.Json
import Dcpu16.Machine.RegisterFile

/-!
# Stored registers

The JSON form of the register file: the contents of the eleven registers. Whether an
instruction has set PC is not stored.
-/
namespace Dcpu16.RegisterFile

/-- The stored form. -/
def toJson (file : RegisterFile) : Json :=
  let number (word : Word) : Json := .nat word.toNat
  .record [("general", .list (file.general.map number)), ("pc", number file.pc),
    ("sp", number file.sp), ("o", number file.o)]

/-- The file with this stored form. -/
def ofJson? (json : Json) : Option RegisterFile := do
  match ← json.parts? ["general", "pc", "sp", "o"] with
  | [some general, some pc, some sp, some o] =>
    match ← (← general.list?).mapM Json.word? with
    | [a, b, c, x, y, z, i, j] =>
      return { a, b, c, x, y, z, i, j, pc := ← pc.word?, sp := ← sp.word?, o := ← o.word? }
    | _ => none
  | _ => none

end Dcpu16.RegisterFile
