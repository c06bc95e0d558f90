import Dcpu16.Opcode

/-!
# Arithmetic

The arithmetic unit widens its operands to 32 or 64 bits, works there, and keeps two words of
what comes out: the value, and the overflow word for the register O. Which half is which
depends on the operation. A sum, a product and a left shift keep their low word as the value
and the word above it as the overflow; a quotient and a right shift are taken of `a · 2¹⁶`, and
the low word, which holds the fraction, is the overflow.
-/
namespace Dcpu16

namespace Arithmetic

/-- Sum modulo 2¹⁶, with the carry as overflow. -/
def add (a b : Word) : Result :=
  let sum := a.toUInt32 + b.toUInt32
  ⟨sum.toUInt16, some (if sum > 0xFFFF then 1 else 0)⟩

/-- Difference modulo 2¹⁶; the overflow is all ones after a borrow. -/
def sub (a b : Word) : Result :=
  ⟨a - b, some (if a < b then 0xFFFF else 0)⟩

/-- Product: low word, and high word as overflow. -/
def mul (a b : Word) : Result :=
  let product := a.toUInt32 * b.toUInt32
  ⟨product.toUInt16, some (product >>> 16).toUInt16⟩

/-- Quotient, with the next sixteen binary places as overflow. Division by 0 gives 0 in both. -/
def div (a b : Word) : Result :=
  if b = 0 then ⟨0, some 0⟩
  else ⟨a / b, some ((a.toUInt32 <<< 16) / b.toUInt32).toUInt16⟩

/-- Remainder; 0 modulo 0. -/
def mod (a b : Word) : Result :=
  ⟨if b = 0 then 0 else a % b, none⟩

/-- Left shift: low word, and the word above it as overflow. All bits leave a 64-bit register
that is shifted by 64 or more. -/
def shl (a b : Word) : Result :=
  let shifted := if b < 64 then a.toUInt64 <<< b.toUInt64 else 0
  ⟨shifted.toUInt16, some (shifted >>> 16).toUInt16⟩

/-- Right shift, with the bits shifted out as overflow. -/
def shr (a b : Word) : Result :=
  let shifted := if b < 32 then a.toUInt32 >>> b.toUInt32 else 0
  let below := if b < 64 then (a.toUInt64 <<< 16) >>> b.toUInt64 else 0
  ⟨shifted.toUInt16, some below.toUInt16⟩

end Arithmetic

namespace Opcode

/-- What the opcode does with the values of its operands. -/
def action : Opcode → Action
  | set => .move
  | add => .combine Arithmetic.add
  | sub => .combine Arithmetic.sub
  | mul => .combine Arithmetic.mul
  | div => .combine Arithmetic.div
  | mod => .combine Arithmetic.mod
  | shl => .combine Arithmetic.shl
  | shr => .combine Arithmetic.shr
  | and => .combine fun a b => ⟨a &&& b, none⟩
  | bor => .combine fun a b => ⟨a ||| b, none⟩
  | xor => .combine fun a b => ⟨a ^^^ b, none⟩
  | ife => .test fun a b => a == b
  | ifn => .test fun a b => a != b
  | ifg => .test fun a b => decide (b < a)
  | ifb => .test fun a b => a &&& b != 0

/-- Does the opcode only compare? -/
def isConditional (opcode : Opcode) : Bool :=
  match opcode.action with
  | .test _ => true
  | _ => false

/-- The result of an opcode for two values. A move gives `b`; a test leaves `a` as it is. -/
def result (opcode : Opcode) (a b : Word) : Result :=
  match opcode.action with
  | .move => ⟨b, none⟩
  | .test _ => ⟨a, none⟩
  | .combine result => result a b

end Opcode

end Dcpu16
