import Dcpu16.Source.Error

/-!
# Numbers

A number starts with a digit and takes every letter, digit and underscore that follows. It is
hexadecimal behind `0x`, binary behind `0b`, and decimal otherwise, in any letter case. Only
numbers below 2³² are numbers at all, and only those below 2¹⁶ fit in a word.
-/
namespace Dcpu16.Source

/-- The value of a digit in a base up to 36; letters are digits in either case. -/
def digit? (base : Nat) (c : Char) : Option Nat :=
  let value :=
    if c.isDigit then c.toNat - '0'.toNat
    else if c.isAlpha then c.toLower.toNat - 'a'.toNat + 10
    else base
  if value < base then some value else none

/-- The number that digits write, behind digits of the value `before`. -/
def digitsFrom? (base before : Nat) : List Char → Option Nat
  | [] => some before
  | c :: rest =>
    match digit? base c with
    | some digit => digitsFrom? base (base * before + digit) rest
    | none => none

/-- The number that digits write; there has to be one. -/
def digits? (base : Nat) (written : List Char) : Option Nat :=
  if written.isEmpty then none else digitsFrom? base 0 written

/-- The number of a literal, if it is one, however large. -/
def literal? : List Char → Option Nat
  | '0' :: 'x' :: digits | '0' :: 'X' :: digits => digits? 16 digits
  | '0' :: 'b' :: digits | '0' :: 'B' :: digits => digits? 2 digits
  | digits => digits? 10 digits

/-- The word of a literal. -/
def numberOf (written : List Char) : Except Problem Word :=
  match literal? written with
  | some value =>
    if value < UInt16.size then .ok (UInt16.ofNat value)
    else if value < UInt32.size then .error (.outOfRange value)
    else .error (.malformed (.invalidNumber (String.ofList written)))
  | none => .error (.malformed (.invalidNumber (String.ofList written)))

end Dcpu16.Source
