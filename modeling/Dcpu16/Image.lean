import Dcpu16.Word

/-!
# Program images

An image holds a program as bytes, two for each word, the high byte first. An image with an odd
number of bytes is no program, and a program with more words than the memory has cells cannot
be loaded.
-/
namespace Dcpu16

/-- Why a program cannot be loaded. -/
inductive LoadError
  /-- The image has this odd number of bytes. -/
  | oddLength (bytes : Nat)
  /-- The program has this number of words, which is more than there are cells. -/
  | tooLarge (words : Nat)
  deriving DecidableEq

/-- The wording of a load error. -/
def LoadError.message : LoadError → String
  | .oddLength bytes => "program image has odd length " ++ toString bytes
  | .tooLarge words => "program size " ++ toString words ++ " exceeds available space 65536"

namespace Image

/-- The image of a program. -/
def ofWords (words : List Word) : List UInt8 :=
  words.flatMap fun (word : Word) => [(word >>> 8).toUInt8, word.toUInt8]

/-- The word with this high and this low byte. -/
def wordOf (high low : UInt8) : Word := (high.toUInt16 <<< 8) ||| low.toUInt16

/-- The words of pairs of bytes behind the words `done`, of which the last comes first. There are
none when a byte is left over. -/
def wordsFrom? (done : List Word) : List UInt8 → Option (List Word)
  | [] => some done.reverse
  | [_] => none
  | high :: low :: bytes => wordsFrom? (wordOf high low :: done) bytes

/-- The program of an image. -/
def toWords (bytes : List UInt8) : Except LoadError (List Word) :=
  match wordsFrom? [] bytes with
  | some words => .ok words
  | none => .error (.oddLength bytes.length)

end Image

end Dcpu16
