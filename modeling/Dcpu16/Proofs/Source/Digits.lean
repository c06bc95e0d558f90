import Mathlib
import Dcpu16.Source.Scan
import Dcpu16.Text.Digits

/-!
# Digits

The digits that are printed for a number in a base up to 16 are read as this number, with any zeros
in front and in any letter case (`Numeral.digits?_eq`). What a number starts with tells its base
(`Based.literal?_eq`). So a word is read back from its hexadecimal digits behind `0x`
(`numberOf_hex`).
-/
namespace Dcpu16.Source

/-! ## Single digits -/

/-- The digit that is printed for a number is read as this number. -/
theorem digit?_digitChar {base value : Nat} (small : value < base) (most : base ≤ 16) :
    digit? base (Nat.digitChar value) = some value := by
  have table : ∀ base : Fin 17, ∀ value : Fin 16, value.val < base.val →
      digit? base.val (Nat.digitChar value.val) = some value.val := by decide
  exact table ⟨base, by omega⟩ ⟨value, by omega⟩ small

/-- A capital is no other digit than its small letter. -/
theorem digit?_toLower (base : Nat) (c : Char) : digit? base c.toLower = digit? base c := by
  have same : c.toLower.isDigit = c.isDigit := by
    simp only [Char.isDigit, Char.toLower]
    split <;> grind [UInt32.toNat_add, Char.toNat_val]
  by_cases upper : c.isUpper
  · have apart : c.isDigit = false := by
      simp only [Char.isUpper, Char.isDigit, decide_eq_true_eq] at upper ⊢
      grind
    simp [digit?, same, apart]
  · rw [Char.toLower_eq_of_not_isUpper upper]

/-- A digit may stand in a number. -/
theorem continuesNumber_of_digit? {base : Nat} {c : Char} (digit : (digit? base c).isSome) :
    continuesNumber c := by
  by_contra other
  simp only [continuesNumber, Char.isAlphanum, Bool.or_eq_true, not_or, Bool.not_eq_true] at other
  simp [digit?, other] at digit

/-- The digits of decimal numbers are no letters. -/
theorem isDigit_of_digit? {c : Char} (digit : (digit? 10 c).isSome) : c.isDigit := by
  by_contra other
  by_cases letter : c.isAlpha
  · simp [digit?, other, letter] at digit
  · simp [digit?, other, letter] at digit

/-! ## Rows of digits -/

/-- Digits are read one part behind the other. -/
theorem digitsFrom?_append (base before : Nat) (first second : List Char) :
    digitsFrom? base before (first ++ second) =
      (digitsFrom? base before first).bind fun value => digitsFrom? base value second := by
  induction first generalizing before with
  | nil => rfl
  | cons c first ih =>
    rw [List.cons_append, digitsFrom?, digitsFrom?]
    cases digit? base c with
    | none => rfl
    | some digit => exact ih _

/-- All characters that are read as digits are digits. -/
theorem digit?_of_mem {base before value : Nat} {written : List Char} {c : Char}
    (read : digitsFrom? base before written = some value) (member : c ∈ written) :
    (digit? base c).isSome := by
  induction written generalizing before with
  | nil => cases member
  | cons first written ih =>
    rw [digitsFrom?] at read
    cases digit : digit? base first with
    | none => rw [digit] at read; cases read
    | some value =>
      rw [digit] at read
      rcases List.mem_cons.mp member with rfl | later
      · rw [digit]
        rfl
      · exact ih read later

/-- Letter case does not count. -/
theorem digitsFrom?_map_toLower (base before : Nat) (written : List Char) :
    digitsFrom? base before (written.map Char.toLower) = digitsFrom? base before written := by
  induction written generalizing before with
  | nil => rfl
  | cons c written ih => simp only [List.map_cons, digitsFrom?, digit?_toLower, ih]

/-- Zeros in front do not count. -/
theorem digitsFrom?_zeros {base : Nat} (positive : 0 < base) (zeros : Nat) (digits : List Char) :
    digitsFrom? base 0 (List.replicate zeros '0' ++ digits) = digitsFrom? base 0 digits := by
  induction zeros with
  | zero => rfl
  | succ zeros ih =>
    have zero : digit? base '0' = some 0 := by simp [digit?, positive]
    rw [List.replicate_succ, List.cons_append, digitsFrom?, zero]
    exact ih

section Printed

variable {base : Nat} (least : 1 < base) (most : base ≤ 16)

include least most

/-- The digits that are printed for a number are read as this number. -/
theorem digitsFrom?_toDigits (value : Nat) :
    digitsFrom? base 0 (Nat.toDigits base value) = some value := by
  induction value using Nat.strongRecOn with
  | _ value ih =>
    rw [Nat.toDigits_eq_if least]
    split
    · next small =>
      simp [digitsFrom?, digit?_digitChar small most]
    · next large =>
      have last : value % base < base := Nat.mod_lt value (by omega)
      have shorter : value / base < value := Nat.div_lt_self (by omega) least
      rw [digitsFrom?_append, ih (value / base) shorter]
      simp only [Option.bind_some, digitsFrom?, digit?_digitChar last most, Nat.div_add_mod]

/-- The digits that are printed for a number are read as this number behind any zeros. -/
theorem digitsFrom?_zeros_toDigits (zeros value : Nat) :
    digitsFrom? base 0 (List.replicate zeros '0' ++ Nat.toDigits base value) = some value := by
  rw [digitsFrom?_zeros (by omega), digitsFrom?_toDigits least most]

end Printed

/-! ## Numerals -/

/-- The characters are a numeral of the number in the base: its digits, in any letter case and with
any zeros in front. -/
def Numeral (base value : Nat) (written : List Char) : Prop :=
  ∃ zeros, written.map Char.toLower = List.replicate zeros '0' ++ Nat.toDigits base value

section Numeral

variable {base value : Nat} {written : List Char}

/-- A numeral of a number is read as this number. -/
theorem Numeral.digitsFrom?_eq (numeral : Numeral base value written) (least : 1 < base)
    (most : base ≤ 16) : digitsFrom? base 0 written = some value := by
  obtain ⟨zeros, lower⟩ := numeral
  rw [← digitsFrom?_map_toLower, lower, digitsFrom?_zeros_toDigits least most]

/-- A numeral has at least one digit. -/
theorem Numeral.ne_nil (numeral : Numeral base value written) : written ≠ [] := by
  obtain ⟨zeros, lower⟩ := numeral
  rintro rfl
  have none : List.replicate zeros '0' ++ Nat.toDigits base value = [] := lower.symm
  exact Nat.toDigits_ne_nil (List.append_eq_nil_iff.mp none).2

/-- A numeral is a number with at least one digit. -/
theorem Numeral.digits?_eq (numeral : Numeral base value written) (least : 1 < base)
    (most : base ≤ 16) : digits? base written = some value := by
  rw [digits?, if_neg (by simpa using numeral.ne_nil), numeral.digitsFrom?_eq least most]

/-- A printed digit is no capital. -/
theorem toLower_of_mem_toDigits (least : 1 < base) (most : base ≤ 16) {c : Char}
    (member : c ∈ Nat.toDigits base value) : c.toLower = c := by
  have table : ∀ digit : Fin 16, (Nat.digitChar digit.val).toLower = Nat.digitChar digit.val := by
    decide
  induction value using Nat.strongRecOn with
  | _ value ih =>
    rw [Nat.toDigits_eq_if least] at member
    split at member
    · next small =>
      rw [List.mem_singleton.mp member]
      exact table ⟨value, by omega⟩
    · next large =>
      have last : value % base < base := Nat.mod_lt value (by omega)
      rcases List.mem_append.mp member with front | back
      · exact ih (value / base) (Nat.div_lt_self (by omega) least) front
      · rw [List.mem_singleton.mp back]
        exact table ⟨value % base, by omega⟩

/-- The digits that are printed for a number are a numeral of it, with any zeros in front. -/
theorem numeral_zeros_toDigits (least : 1 < base) (most : base ≤ 16) (zeros value : Nat) :
    Numeral base value (List.replicate zeros '0' ++ Nat.toDigits base value) := by
  have digits : (Nat.toDigits base value).map Char.toLower = Nat.toDigits base value :=
    (List.map_congr_left fun _ => toLower_of_mem_toDigits least most).trans (List.map_id' _)
  refine ⟨zeros, ?_⟩
  rw [List.map_append, List.map_replicate, digits]
  rfl

end Numeral

/-! ## Literals -/

/-- What a number starts with tells its base, and where its digits start: behind `0x` for
hexadecimal and behind `0b` for binary ones, in either letter case, and at the front otherwise. -/
inductive Based : (base : Nat) → (digits written : List Char) → Prop
  | hexadecimal {mark : Char} (marks : mark = 'x' ∨ mark = 'X') (digits : List Char) :
      Based 16 digits ('0' :: mark :: digits)
  | binary {mark : Char} (marks : mark = 'b' ∨ mark = 'B') (digits : List Char) :
      Based 2 digits ('0' :: mark :: digits)
  | decimal {digits : List Char}
      (unmarked : ∀ mark rest, digits = '0' :: mark :: rest → mark ∉ ['x', 'X', 'b', 'B']) :
      Based 10 digits digits

section Based

variable {base : Nat} {digits written : List Char}

/-- Every number has a base. -/
theorem exists_based (written : List Char) : ∃ base digits, Based base digits written := by
  by_cases marked : ∃ mark rest, written = '0' :: mark :: rest ∧ mark ∈ ['x', 'X', 'b', 'B']
  · obtain ⟨mark, digits, rfl, marks⟩ := marked
    simp only [List.mem_cons, List.not_mem_nil, or_false] at marks
    rcases marks with small | capital | marks
    · exact ⟨16, digits, .hexadecimal (.inl small) digits⟩
    · exact ⟨16, digits, .hexadecimal (.inr capital) digits⟩
    · exact ⟨2, digits, .binary marks digits⟩
  · exact ⟨10, written, .decimal fun mark rest same marks => marked ⟨mark, rest, same, marks⟩⟩

/-- The bases are those that there are digits for. -/
theorem Based.bounds (based : Based base digits written) : 1 < base ∧ base ≤ 16 := by
  cases based <;> decide

/-- The number of a literal is that of its digits in its base. -/
theorem Based.literal?_eq (based : Based base digits written) :
    literal? written = digits? base digits := by
  cases based with
  | hexadecimal marks => rcases marks with rfl | rfl <;> rfl
  | binary marks => rcases marks with rfl | rfl <;> rfl
  | decimal unmarked =>
    unfold literal?
    split
    · next rest => exact absurd (by decide) (unmarked 'x' rest rfl)
    · next rest => exact absurd (by decide) (unmarked 'X' rest rfl)
    · next rest => exact absurd (by decide) (unmarked 'b' rest rfl)
    · next rest => exact absurd (by decide) (unmarked 'B' rest rfl)
    · rfl

end Based

/-- A literal that has the value of a word is this word. -/
theorem numberOf_of_literal? {written : List Char} {word : Word}
    (found : literal? written = some word.toNat) : numberOf written = .ok word := by
  have small : word.toNat < UInt16.size := word.toNat_lt
  simp only [numberOf, found, if_pos small, UInt16.ofNat_toNat]

/-! ## Hexadecimal text -/

/-- The text of a number is its digits, with zeros in front up to the width. -/
theorem toList_hex (width value : Nat) :
    (Text.hex width value).toList =
      List.replicate (width - (Nat.toDigits 16 value).length) '0' ++ Nat.toDigits 16 value :=
  String.toList_ofList

/-- The text of a number may stand in a number. -/
theorem continuesNumber_of_mem_hex {c : Char} {width value : Nat}
    (member : c ∈ (Text.hex width value).toList) : continuesNumber c := by
  rw [toList_hex] at member
  have read := digitsFrom?_zeros_toDigits (by decide : 1 < 16) (by decide : 16 ≤ 16)
    (width - (Nat.toDigits 16 value).length) value
  exact continuesNumber_of_digit? (digit?_of_mem read member)

/-- The text of a number is read as this number. -/
theorem digits?_hex (width value : Nat) :
    digits? 16 (Text.hex width value).toList = some value := by
  have some : (Text.hex width value).toList ≠ [] := by
    simp [toList_hex, Nat.toDigits_ne_nil]
  rw [digits?, if_neg (by simpa using some), toList_hex,
    digitsFrom?_zeros_toDigits (by decide) (by decide)]

/-- A word is read back from its text behind `0x`. -/
theorem numberOf_hex (width : Nat) (word : Word) :
    numberOf ('0' :: 'x' :: (Text.hex width word.toNat).toList) = .ok word :=
  numberOf_of_literal? (digits?_hex width word.toNat)

/-- The text of a number has at least the width, and no more digits than the number needs. -/
theorem length_hex {width count value : Nat} (some : 0 < count) (wide : width ≤ count)
    (small : value < 16 ^ count) : width ≤ (Text.hex width value).toList.length ∧
      (Text.hex width value).toList.length ≤ count := by
  have digits := (Nat.length_toDigits_le_iff (by decide : 1 < 16) some).mpr small
  rw [toList_hex, List.length_append, List.length_replicate]
  omega

end Dcpu16.Source
