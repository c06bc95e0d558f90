/-!
# JSON values

The values that states of the machine are stored as. Numbers are integers. The readers of `Json`
take a value apart and answer `none` where it has another shape. The text of a value is left to a
library, which is a `Json.Writer` where it is needed.
-/
namespace Dcpu16

/-- A JSON value whose numbers are integers. -/
inductive Json
  | null
  | bool (value : Bool)
  | number (value : Int)
  | text (value : String)
  | list (items : List Json)
  /-- Named parts in the order in which they are written. -/
  | record (fields : List (String × Json))

namespace Json

/-- What writes a value as a text, or gives a reason why it cannot. -/
abbrev Writer := Json → Except String String

/-- A natural number. -/
def nat (value : Nat) : Json := .number value

/-- A byte, from an integer in its range. -/
def byte? : Json → Option UInt8
  | .number value => if 0 ≤ value ∧ value < 256 then some (UInt8.ofNat value.toNat) else none
  | _ => none

/-- A word, from an integer in its range. -/
def word? : Json → Option UInt16
  | .number value => if 0 ≤ value ∧ value < 65536 then some (UInt16.ofNat value.toNat) else none
  | _ => none

/-- The items of a list. -/
def list? : Json → Option (List Json)
  | .list items => some items
  | _ => none

/-- The fields of a record by their names. They stand in any order and among others; one that is
not there is `none`. -/
def fields? (names : List String) : Json → Option (List (Option Json))
  | .record fields => some (names.map fun name => fields.lookup name)
  | _ => none

/-- The parts of a value by their names: the fields of a record, or the items of a list of
exactly these parts. -/
def parts? (names : List String) : Json → Option (List (Option Json))
  | .list items => if items.length = names.length then some (items.map some) else none
  | json => json.fields? names

/-- A named alternative with what belongs to it: a name alone, which stands for the name with
`null`, or a record of one part. -/
def alternative? : Json → Option (String × Json)
  | .text name => some (name, .null)
  | .record [(name, value)] => some (name, value)
  | _ => none

/-- A name alone, or with `null`. -/
def name? (json : Json) : Option String :=
  match json.alternative? with
  | some (name, .null) => some name
  | _ => none

end Json

end Dcpu16
