import Dcpu16.Proofs.Arithmetic

/-!
# Exact results

The value and the overflow that the arithmetic unit gives are the two halves of one number, which is
computed from the numbers of the operands without any bound on its size (`Opcode.exact_result`). A
sum, a difference, a product and a left shift are 32 bits with the overflow above the value
(`Result.widened?`); a quotient and a right shift are taken of `a · 2¹⁶`, with the overflow below
the value (`Result.scaled?`). The other operations have no overflow (`Result.single?`).
-/
namespace Dcpu16

namespace Result

/-- The number that has the value as its low word and the overflow as its high word. -/
def widened? (result : Result) : Option Nat :=
  result.overflow.map fun overflow => result.value.toNat + 65536 * overflow.toNat

/-- The number that has the value as its high word and the overflow as its low word. -/
def scaled? (result : Result) : Option Nat :=
  result.overflow.map fun overflow => 65536 * result.value.toNat + overflow.toNat

/-- The number that the value is, where there is no overflow. -/
def single? (result : Result) : Option Nat :=
  match result.overflow with
  | some _ => none
  | none => some result.value.toNat

/-- The two words of 32 bits are all there is of them. -/
theorem widened?_of_32 (bits : UInt32) :
    widened? ⟨bits.toUInt16, some (bits >>> 16).toUInt16⟩ = some bits.toNat := by
  have high : (bits >>> 16).toUInt16.toNat = bits.toNat / 65536 := by
    have fits : bits.toNat / 65536 < 65536 := by
      have bound := bits.toNat_lt
      omega
    rw [UInt32.toNat_toUInt16, UInt32.toNat_shiftRight, Nat.shiftRight_eq_div_pow]
    exact Nat.mod_eq_of_lt fits
  have low : bits.toUInt16.toNat = bits.toNat % 65536 := UInt32.toNat_toUInt16 bits
  simp only [widened?, Option.map_some, high, low, Nat.mod_add_div]

/-- The two low words of 64 bits are the remainder modulo 2³². -/
theorem widened?_of_64 (bits : UInt64) :
    widened? ⟨bits.toUInt16, some (bits >>> 16).toUInt16⟩ = some (bits.toNat % 2 ^ 32) := by
  have high : (bits >>> 16).toUInt16.toNat = bits.toNat / 65536 % 65536 := by
    rw [UInt64.toNat_toUInt16, UInt64.toNat_shiftRight, Nat.shiftRight_eq_div_pow]
    rfl
  have low : bits.toUInt16.toNat = bits.toNat % 65536 := UInt64.toNat_toUInt16 bits
  have split : bits.toNat % 65536 + 65536 * (bits.toNat / 65536 % 65536) =
      bits.toNat % 2 ^ 32 := by omega
  simp only [widened?, Option.map_some, high, low, split]

/-- A quotient and the low word of the quotient of 65536 times as much are the whole of the
latter. -/
theorem scaled?_of_quotient {value overflow : Word} (dividend divisor : Nat)
    (quotient : value.toNat = dividend / divisor)
    (fraction : overflow.toNat = 65536 * dividend / divisor % 65536) :
    scaled? ⟨value, some overflow⟩ = some (65536 * dividend / divisor) := by
  have whole : dividend / divisor = 65536 * dividend / divisor / 65536 := by
    rw [Nat.div_div_eq_div_mul, Nat.mul_comm divisor, Nat.mul_div_mul_left _ _ (by decide)]
  simp only [scaled?, Option.map_some, quotient, fraction]
  rw [whole, Nat.div_add_mod]

end Result

namespace Arithmetic

section Unit

variable (a b : Word)

/-- A sum, with its carry above it. -/
theorem widened?_add : (add a b).widened? = some (a.toNat + b.toNat) := by
  have aFits := a.toNat_lt
  have bFits := b.toNat_lt
  have sum : (a.toUInt32 + b.toUInt32).toNat = a.toNat + b.toNat := by
    rw [UInt32.toNat_add, UInt16.toNat_toUInt32, UInt16.toNat_toUInt32]
    exact Nat.mod_eq_of_lt (by omega)
  have value : (add a b).value.toNat = (a.toNat + b.toNat) % 65536 := by
    rw [← sum]
    exact UInt32.toNat_toUInt16 _
  have carries : a.toUInt32 + b.toUInt32 > 0xFFFF ↔ 65535 < a.toNat + b.toNat := by
    rw [gt_iff_lt, UInt32.lt_iff_toNat_lt, sum]
    rfl
  have carry : (add a b).overflow =
      some (if 65535 < a.toNat + b.toNat then 1 else 0) := by
    simp only [add, carries]
  rw [Result.widened?, carry, Option.map_some, value]
  split_ifs with above
  · rw [show (1 : Word).toNat = 1 from rfl]
    congr 1
    omega
  · rw [show (0 : Word).toNat = 0 from rfl]
    congr 1
    omega

/-- A difference is one of integers, modulo the number of words. -/
theorem value_sub : ((sub a b).value.toNat : ℤ) = ((a.toNat : ℤ) - b.toNat) % 65536 := by
  have aFits := a.toNat_lt
  have bFits := b.toNat_lt
  have value : (sub a b).value.toNat = (65536 - b.toNat + a.toNat) % 65536 := UInt16.toNat_sub a b
  omega

/-- A difference borrows when it is negative. -/
theorem overflow_sub :
    (sub a b).overflow = some (if a.toNat < b.toNat then 0xFFFF else 0) := by
  simp only [sub, UInt16.lt_iff_toNat_lt]

/-- A difference with its borrow above it is one of integers, modulo 2³². -/
theorem widened?_sub :
    (sub a b).widened? = some (((a.toNat : ℤ) - b.toNat) % 2 ^ 32).toNat := by
  have aFits := a.toNat_lt
  have bFits := b.toNat_lt
  have value := value_sub a b
  rw [Result.widened?, overflow_sub, Option.map_some]
  congr 1
  split_ifs with borrows
  · rw [show (0xFFFF : Word).toNat = 65535 from rfl]
    omega
  · rw [show (0 : Word).toNat = 0 from rfl]
    omega

/-- A product in two words. -/
theorem widened?_mul : (mul a b).widened? = some (a.toNat * b.toNat) := by
  have fits : a.toNat * b.toNat < 2 ^ 32 := by
    calc
      a.toNat * b.toNat < 2 ^ 16 * 2 ^ 16 := Nat.mul_lt_mul'' a.toNat_lt b.toNat_lt
      _ = 2 ^ 32 := by decide
  have product : (a.toUInt32 * b.toUInt32).toNat = a.toNat * b.toNat := by
    rw [UInt32.toNat_mul, UInt16.toNat_toUInt32, UInt16.toNat_toUInt32]
    exact Nat.mod_eq_of_lt fits
  rw [← product]
  exact Result.widened?_of_32 _

/-- A quotient with sixteen binary places. -/
theorem scaled?_div (nonzero : b.toNat ≠ 0) :
    (div a b).scaled? = some (65536 * a.toNat / b.toNat) := by
  have divisor : b ≠ 0 := by
    rintro rfl
    exact nonzero rfl
  have aFits := a.toNat_lt
  have scaled : (a.toUInt32 <<< 16).toNat = 65536 * a.toNat := by
    have places : (16 : UInt32).toNat % 32 = 16 := rfl
    rw [UInt32.toNat_shiftLeft, UInt16.toNat_toUInt32, places, Nat.shiftLeft_eq]
    omega
  rw [div, if_neg divisor]
  apply Result.scaled?_of_quotient a.toNat b.toNat (UInt16.toNat_div a b)
  rw [UInt32.toNat_toUInt16, UInt32.toNat_div, scaled, UInt16.toNat_toUInt32]

/-- A quotient by 0 is 0 in both words. -/
theorem div_zero {b : Word} (zero : b.toNat = 0) : div a b = ⟨0, some 0⟩ :=
  if_pos (UInt16.toNat_inj.mp zero)

/-- A left shift in two words, all bits beyond which are lost. Where no bit is left in 64, none is
left in 32. -/
theorem widened?_shl : (shl a b).widened? = some (a.toNat * 2 ^ b.toNat % 2 ^ 32) := by
  have shifted : (if b < 64 then a.toUInt64 <<< b.toUInt64 else 0).toNat % 2 ^ 32 =
      a.toNat * 2 ^ b.toNat % 2 ^ 32 := by
    by_cases small : b.toNat < 64
    · rw [if_pos (show b < 64 from small), UInt64.toNat_shiftLeft, UInt16.toNat_toUInt64,
        UInt16.toNat_toUInt64, Nat.mod_eq_of_lt small, Nat.shiftLeft_eq]
      exact Nat.mod_mod_of_dvd _ (by decide)
    · have lost : 2 ^ 32 ∣ a.toNat * 2 ^ b.toNat :=
        Dvd.dvd.mul_left (Nat.pow_dvd_pow 2 (by omega)) _
      rw [if_neg (show ¬ b < 64 from small), Nat.mod_eq_zero_of_dvd lost]
      rfl
  rw [← shifted]
  exact Result.widened?_of_64 _

/-- A right shift with sixteen binary places. Where no bit is left in 32 or in 64, none of the
number is left. -/
theorem scaled?_shr : (shr a b).scaled? = some (65536 * a.toNat / 2 ^ b.toNat) := by
  have aFits := a.toNat_lt
  have scaled : (a.toUInt64 <<< 16).toNat = 65536 * a.toNat := by
    have places : (16 : UInt64).toNat % 64 = 16 := rfl
    rw [UInt64.toNat_shiftLeft, UInt16.toNat_toUInt64, places, Nat.shiftLeft_eq]
    omega
  have gone (count : Nat) {number : Nat} (bound : number < 2 ^ count) (most : count ≤ b.toNat) :
      number / 2 ^ b.toNat = 0 :=
    Nat.div_eq_of_lt (Nat.lt_of_lt_of_le bound (Nat.pow_le_pow_right (by decide) most))
  apply Result.scaled?_of_quotient a.toNat (2 ^ b.toNat)
  · have small : a.toNat / 2 ^ b.toNat < 2 ^ 16 := Nat.lt_of_le_of_lt (Nat.div_le_self ..) aFits
    by_cases inside : b.toNat < 32
    · rw [if_pos (show b < 32 from inside), UInt32.toNat_toUInt16, UInt32.toNat_shiftRight,
        UInt16.toNat_toUInt32, UInt16.toNat_toUInt32, Nat.mod_eq_of_lt inside,
        Nat.shiftRight_eq_div_pow, Nat.mod_eq_of_lt small]
    · rw [if_neg (show ¬ b < 32 from inside), gone 16 aFits (by omega)]
      rfl
  · by_cases inside : b.toNat < 64
    · rw [if_pos (show b < 64 from inside), UInt64.toNat_toUInt16, UInt64.toNat_shiftRight, scaled,
        UInt16.toNat_toUInt64, Nat.mod_eq_of_lt inside, Nat.shiftRight_eq_div_pow]
    · rw [if_neg (show ¬ b < 64 from inside), gone 32 (by omega) (by omega)]
      rfl

/-- A remainder, or 0 for the divisor 0. -/
theorem single?_mod :
    (mod a b).single? = some (if b.toNat = 0 then 0 else a.toNat % b.toNat) := by
  by_cases zero : b.toNat = 0
  · rw [if_pos zero, mod, if_pos (UInt16.toNat_inj.mp zero)]
    rfl
  · have divisor : b ≠ 0 := by
      rintro rfl
      exact zero rfl
    rw [if_neg zero, mod, if_neg divisor]
    exact congrArg some (UInt16.toNat_mod a b)

end Unit

end Arithmetic

namespace Opcode

/-- The value and the overflow of each operation are the two halves of what it gives for the numbers
`x` and `y` of its operands, in arithmetic without bounds. Operations without an overflow give the
remainder or combine the bits of the numbers. No operation on the way to a result goes wrong at its
width. -/
theorem exact_result (a b : Word) :
    let x := a.toNat
    let y := b.toNat
    (add.result a b).widened? = some (x + y) ∧
      ((sub.result a b).value.toNat : ℤ) = ((x : ℤ) - y) % 65536 ∧
      (sub.result a b).overflow = some (if x < y then 0xFFFF else 0) ∧
      (sub.result a b).widened? = some (((x : ℤ) - y) % 2 ^ 32).toNat ∧
      (mul.result a b).widened? = some (x * y) ∧
      (if y = 0 then div.result a b = ⟨0, some 0⟩
        else (div.result a b).scaled? = some (65536 * x / y)) ∧
      (shl.result a b).widened? = some (x * 2 ^ y % 2 ^ 32) ∧
      (shr.result a b).scaled? = some (65536 * x / 2 ^ y) ∧
      (mod.result a b).single? = some (if y = 0 then 0 else x % y) ∧
      (and.result a b).single? = some (x &&& y) ∧
      (bor.result a b).single? = some (x ||| y) ∧
      (xor.result a b).single? = some (x ^^^ y) ∧
      ∀ opcode : Opcode, opcode.checked? a b = some (opcode.result a b) := by
  intro x y
  have quotient : if y = 0 then div.result a b = ⟨0, some 0⟩
      else (div.result a b).scaled? = some (65536 * x / y) := by
    split_ifs with zero
    · exact Arithmetic.div_zero a zero
    · exact Arithmetic.scaled?_div a b zero
  exact ⟨Arithmetic.widened?_add a b, Arithmetic.value_sub a b, Arithmetic.overflow_sub a b,
    Arithmetic.widened?_sub a b, Arithmetic.widened?_mul a b, quotient,
    Arithmetic.widened?_shl a b, Arithmetic.scaled?_shr a b, Arithmetic.single?_mod a b,
    congrArg some (UInt16.toNat_and a b), congrArg some (UInt16.toNat_or a b),
    congrArg some (UInt16.toNat_xor a b), fun opcode => checked?_eq opcode a b⟩

end Opcode

end Dcpu16
