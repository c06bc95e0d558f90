import Mathlib
import Dcpu16.Arithmetic

/-!
# Checked arithmetic

The arithmetic unit once more, with a check before each operation that could go wrong at its width:
a sum or a product may not fit, a divisor may be 0, and bits may be moved by their whole width or
more (`Opcode.checked?`). No check ever fails, and the answers are those of the unit
(`Opcode.checked?_eq`), which works without checks.
-/
namespace Dcpu16

namespace Arithmetic

/-! ## Operations on bits -/

section Bits

variable {width : Nat}

/-- The sum, if it fits. -/
def sum? (x y : BitVec width) : Option (BitVec width) :=
  if x.toNat + y.toNat < 2 ^ width then some (x + y) else none

/-- The product, if it fits. -/
def product? (x y : BitVec width) : Option (BitVec width) :=
  if x.toNat * y.toNat < 2 ^ width then some (x * y) else none

/-- The quotient, if the divisor is not 0. -/
def quotient? (x y : BitVec width) : Option (BitVec width) := if y = 0 then none else some (x / y)

/-- The remainder, if the divisor is not 0. -/
def remainder? (x y : BitVec width) : Option (BitVec width) := if y = 0 then none else some (x % y)

/-- The bits moved to the left, if by less than their width. -/
def shiftLeft? (x : BitVec width) (count : Nat) : Option (BitVec width) :=
  if count < width then some (x <<< count) else none

/-- The bits moved to the right, if by less than their width. -/
def shiftRight? (x : BitVec width) (count : Nat) : Option (BitVec width) :=
  if count < width then some (x >>> count) else none

/-- The bits of a word, with zeros above them. -/
def widen (width : Nat) (word : Word) : BitVec width := word.toBitVec.setWidth width

/-- The word in the low sixteen bits. -/
def low (bits : BitVec width) : Word := .ofBitVec (bits.setWidth 16)

/-- A word in more bits is the same number. -/
theorem toNat_widen (wide : 16 ≤ width) (word : Word) : (widen width word).toNat = word.toNat := by
  have fits : word.toNat < 2 ^ width :=
    Nat.lt_of_lt_of_le word.toNat_lt (Nat.pow_le_pow_right (by decide) wide)
  rw [widen, BitVec.toNat_setWidth, UInt16.toNat_toBitVec, Nat.mod_eq_of_lt fits]

/-- A word other than 0 is not 0 in more bits. -/
theorem widen_ne_zero (wide : 16 ≤ width) {word : Word} (nonzero : word ≠ 0) :
    widen width word ≠ 0 := by
  intro zero
  have number : word.toNat = 0 := by
    rw [← toNat_widen wide, zero]
    rfl
  exact nonzero (UInt16.toNat_inj.mp number)

/-- Bits that are the number of a word have this word as their low sixteen. -/
theorem low_eq {bits : BitVec width} {word : Word} (same : bits.toNat = word.toNat) :
    low bits = word := by
  apply UInt16.toNat_inj.mp
  rw [low, UInt16.toNat_ofBitVec, BitVec.toNat_setWidth, same]
  exact Nat.mod_eq_of_lt word.toNat_lt

end Bits

/-! ## The operations of the unit -/

/-- `Arithmetic.add`, checked. -/
def add? (a b : Word) : Option Result := do
  let sum ← sum? (widen 32 a) (widen 32 b)
  some ⟨low sum, some (if sum > 0xFFFF then 1 else 0)⟩

/-- `Arithmetic.mul`, checked. -/
def mul? (a b : Word) : Option Result := do
  let product ← product? (widen 32 a) (widen 32 b)
  let high ← shiftRight? product 16
  some ⟨low product, some (low high)⟩

/-- `Arithmetic.div`, checked. -/
def div? (a b : Word) : Option Result :=
  if b = 0 then some ⟨0, some 0⟩
  else do
    let quotient ← quotient? (widen 32 a) (widen 32 b)
    let scaled ← shiftLeft? (widen 32 a) 16
    let fraction ← quotient? scaled (widen 32 b)
    some ⟨low quotient, some (low fraction)⟩

/-- `Arithmetic.mod`, checked. -/
def mod? (a b : Word) : Option Result :=
  if b = 0 then some ⟨0, none⟩
  else do
    let remainder ← remainder? (widen 16 a) (widen 16 b)
    some ⟨low remainder, none⟩

/-- `Arithmetic.shl`, checked. Moving all bits out is part of the operation. -/
def shl? (a b : Word) : Option Result := do
  let shifted := (shiftLeft? (widen 64 a) b.toNat).getD 0
  let high ← shiftRight? shifted 16
  some ⟨low shifted, some (low high)⟩

/-- `Arithmetic.shr`, checked. Moving all bits out is part of the operation. -/
def shr? (a b : Word) : Option Result := do
  let shifted := (shiftRight? (widen 32 a) b.toNat).getD 0
  let scaled ← shiftLeft? (widen 64 a) 16
  let below := (shiftRight? scaled b.toNat).getD 0
  some ⟨low shifted, some (low below)⟩

section Unit

variable (a b : Word)

/-- The sum of two words fits in 32 bits. -/
theorem add?_eq : add? a b = some (add a b) := by
  have fits : (widen 32 a).toNat + (widen 32 b).toNat < 2 ^ 32 := by
    have aFits := a.toNat_lt
    have bFits := b.toNat_lt
    rw [toNat_widen (by decide), toNat_widen (by decide)]
    omega
  rw [add?, sum?, if_pos fits]
  rfl

/-- The product of two words fits in 32 bits. -/
theorem mul?_eq : mul? a b = some (mul a b) := by
  have fits : (widen 32 a).toNat * (widen 32 b).toNat < 2 ^ 32 := by
    rw [toNat_widen (by decide), toNat_widen (by decide)]
    calc
      a.toNat * b.toNat < 2 ^ 16 * 2 ^ 16 := Nat.mul_lt_mul'' a.toNat_lt b.toNat_lt
      _ = 2 ^ 32 := by decide
  rw [mul?, product?, if_pos fits]
  rfl

/-- The unit does not divide by 0. -/
theorem div?_eq : div? a b = some (div a b) := by
  unfold div? div
  by_cases zero : b = 0
  · rw [if_pos zero, if_pos zero]
  · have divisor : widen 32 b ≠ 0 := widen_ne_zero (by decide) zero
    have quotient : low (widen 32 a / widen 32 b) = a / b := by
      apply low_eq
      rw [BitVec.toNat_udiv, toNat_widen (by decide), toNat_widen (by decide), UInt16.toNat_div]
    simp only [if_neg zero, quotient?, if_neg divisor, ← quotient]
    rfl

/-- The unit takes no remainder modulo 0. -/
theorem mod?_eq : mod? a b = some (mod a b) := by
  unfold mod? mod
  by_cases zero : b = 0
  · rw [if_pos zero, if_pos zero]
  · have divisor : widen 16 b ≠ 0 := widen_ne_zero (by decide) zero
    have remainder : low (widen 16 a % widen 16 b) = a % b := by
      apply low_eq
      rw [BitVec.toNat_umod, toNat_widen (by decide), toNat_widen (by decide), UInt16.toNat_mod]
    simp only [if_neg zero, remainder?, if_neg divisor, ← remainder]
    rfl

/-- The unit moves 64 bits to the left by less than 64 places, or leaves none of them. -/
theorem shl?_eq : shl? a b = some (shl a b) := by
  have shifted : (shiftLeft? (widen 64 a) b.toNat).getD 0 =
      (if b < 64 then a.toUInt64 <<< b.toUInt64 else 0).toBitVec := by
    by_cases small : b.toNat < 64
    · rw [shiftLeft?, if_pos small, if_pos (show b < 64 from small)]
      apply BitVec.eq_of_toNat_eq
      simp [Nat.mod_eq_of_lt small, widen]
    · rw [shiftLeft?, if_neg small, if_neg (show ¬ b < 64 from small)]
      rfl
  unfold shl?
  rw [shifted]
  rfl

/-- The unit moves 32 bits to the right by less than 32 places, and 64 bits by less than 64, or
leaves none of them. -/
theorem shr?_eq : shr? a b = some (shr a b) := by
  have shifted : (shiftRight? (widen 32 a) b.toNat).getD 0 =
      (if b < 32 then a.toUInt32 >>> b.toUInt32 else 0).toBitVec := by
    by_cases small : b.toNat < 32
    · rw [shiftRight?, if_pos small, if_pos (show b < 32 from small)]
      apply BitVec.eq_of_toNat_eq
      simp [Nat.mod_eq_of_lt small, widen]
    · rw [shiftRight?, if_neg small, if_neg (show ¬ b < 32 from small)]
      rfl
  have scaled : shiftLeft? (widen 64 a) 16 = some (widen 64 a <<< 16) := rfl
  have below : (shiftRight? (widen 64 a <<< 16) b.toNat).getD 0 =
      (if b < 64 then (a.toUInt64 <<< 16) >>> b.toUInt64 else 0).toBitVec := by
    by_cases small : b.toNat < 64
    · rw [shiftRight?, if_pos small, if_pos (show b < 64 from small)]
      apply BitVec.eq_of_toNat_eq
      simp [Nat.mod_eq_of_lt small, widen]
    · rw [shiftRight?, if_neg small, if_neg (show ¬ b < 64 from small)]
      rfl
  unfold shr?
  rw [shifted, scaled]
  simp only [Option.bind_eq_bind, Option.bind_some, below]
  rfl

end Unit

end Arithmetic

namespace Opcode

/-- The result of an opcode for two values, with every operation checked that could go wrong. A
difference wraps by intent, and the other opcodes only compare words or combine their bits. -/
def checked? (opcode : Opcode) (a b : Word) : Option Result :=
  match opcode with
  | add => Arithmetic.add? a b
  | mul => Arithmetic.mul? a b
  | div => Arithmetic.div? a b
  | mod => Arithmetic.mod? a b
  | shl => Arithmetic.shl? a b
  | shr => Arithmetic.shr? a b
  | set | sub | and | bor | xor | ife | ifn | ifg | ifb => some (opcode.result a b)

/-- No check fails, whatever the values are. -/
theorem checked?_eq (opcode : Opcode) (a b : Word) :
    opcode.checked? a b = some (opcode.result a b) := by
  cases opcode with
  | add => exact Arithmetic.add?_eq a b
  | mul => exact Arithmetic.mul?_eq a b
  | div => exact Arithmetic.div?_eq a b
  | mod => exact Arithmetic.mod?_eq a b
  | shl => exact Arithmetic.shl?_eq a b
  | shr => exact Arithmetic.shr?_eq a b
  | set | sub | and | bor | xor | ife | ifn | ifg | ifb => rfl

end Opcode

end Dcpu16
