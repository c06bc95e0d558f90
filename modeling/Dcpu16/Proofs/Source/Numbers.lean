import Dcpu16.Proofs.Source.Rendering

/-!
# The meaning of numbers

Behind the mark of the base of a number there have to be digits of this base and nothing else
(`AreDigits`). They have a value (`valueOf`), and the number is read as this value however long it
is (`digits?_eq_some_iff`). A value is spelled in any letter case and with any zeros in front, and
in no other way (`literal_iff`). One that no word can hold is out of range, and from 2³² on it is no
number (`number_meaning`).
-/
namespace Dcpu16.Source

/-! ## Digits -/

/-- The digits of the bases up to 16, each at the place of its value. -/
def digitRow : List Char :=
  ['0', '1', '2', '3', '4', '5', '6', '7', '8', '9', 'a', 'b', 'c', 'd', 'e', 'f']

/-- The value of a digit in either letter case, and 16 for any other character. -/
def digitValue (c : Char) : Nat := digitRow.idxOf c.toLower

/-- There is a digit, and all of the characters are digits of the base. -/
def AreDigits (base : Nat) (written : List Char) : Prop :=
  written ≠ [] ∧ ∀ c ∈ written, digitValue c < base

instance (base : Nat) (written : List Char) : Decidable (AreDigits base written) :=
  @instDecidableAnd _ _ inferInstance (List.decidableBAll (fun c => digitValue c < base) written)

/-- The value of digits in a base: the last of them counts ones, and each other one `base` times as
much as the one behind it. -/
def valueOf (base : Nat) (digits : List Char) : Nat :=
  Nat.ofDigits base (digits.map digitValue).reverse

section Digits

variable {base value : Nat} {c : Char} {written : List Char}

/-- A digit of a base is one of every larger base. -/
theorem isSome_digit?_mono {larger : Nat} (le : base ≤ larger) (digit : (digit? base c).isSome) :
    (digit? larger c).isSome := by
  unfold digit? at digit ⊢
  split_ifs at digit ⊢ <;> simp_all <;> omega

/-- A character that is read as a digit is one of the row. -/
theorem mem_digitRow_of_digit? (most : base ≤ 16) (digit : (digit? base c).isSome) :
    c.toLower ∈ digitRow := by
  have table : ∀ code : Fin 0x7B, (digit? 16 (Char.ofNat code.val)).isSome →
      (Char.ofNat code.val).toLower ∈ digitRow := by decide
  have range := continuesNumber_range (continuesNumber_of_digit? digit)
  have found := table ⟨c.toNat, by omega⟩
  simp only [Char.ofNat_toNat] at found
  exact found (isSome_digit?_mono most digit)

/-- A character is read as a digit if its value is below the base. -/
theorem digit?_eq (most : base ≤ 16) (c : Char) :
    digit? base c = if digitValue c < base then some (digitValue c) else none := by
  have table : ∀ place : Fin 16, ∀ base : Fin 17,
      digit? base.val digitRow[place] =
        if digitRow.idxOf digitRow[place] < base.val then some (digitRow.idxOf digitRow[place])
        else none := by decide
  by_cases member : c.toLower ∈ digitRow
  · obtain ⟨place, small, found⟩ := List.getElem_of_mem member
    rw [← digit?_toLower, digitValue, ← found]
    exact table ⟨place, small⟩ ⟨base, by omega⟩
  · have beyond : digitValue c = 16 := List.idxOf_eq_length member
    rw [if_neg (by omega), ← Option.not_isSome_iff_eq_none]
    exact fun digit => member (mem_digitRow_of_digit? most digit)

/-- A digit in small letters is the one that is printed for its value. -/
theorem toLower_eq_digitChar (small : digitValue c < 16) :
    c.toLower = Nat.digitChar (digitValue c) := by
  have table : ∀ place : Fin 16, digitRow[place] = Nat.digitChar place.val := by decide
  have found : digitRow[digitValue c] = c.toLower := List.getElem_idxOf small
  rw [← found]
  exact table ⟨digitValue c, small⟩

/-- A digit in front counts as often as there are ways to write the others. -/
theorem valueOf_cons (base : Nat) (c : Char) (written : List Char) :
    valueOf base (c :: written) = base ^ written.length * digitValue c + valueOf base written := by
  simp [valueOf, Nat.ofDigits_append, Nat.add_comm]

/-- A digit behind others makes them count `base` times as much. -/
theorem valueOf_snoc (base : Nat) (written : List Char) (c : Char) :
    valueOf base (written ++ [c]) = base * valueOf base written + digitValue c := by
  simp [valueOf, Nat.ofDigits_cons, Nat.add_comm]

/-- Characters are read behind a number if all of them are digits, and make it count once more for
each of them. -/
theorem digitsFrom?_eq_some_iff (most : base ≤ 16) {before : Nat} :
    digitsFrom? base before written = some value ↔
      (∀ c ∈ written, digitValue c < base) ∧
        base ^ written.length * before + valueOf base written = value := by
  induction written generalizing before with
  | nil => simp [digitsFrom?, valueOf]
  | cons c written ih =>
    rw [digitsFrom?, digit?_eq most, List.forall_mem_cons]
    by_cases small : digitValue c < base
    · have sum : base ^ written.length * (base * before + digitValue c) + valueOf base written =
          base ^ (c :: written).length * before + valueOf base (c :: written) := by
        rw [valueOf_cons, List.length_cons]
        ring
      rw [if_pos small, ← sum]
      simp only [ih, small, true_and]
    · simp [small]

/-- Characters are read as a number if they are digits, and as their value. -/
theorem digits?_eq_some_iff (most : base ≤ 16) :
    digits? base written = some value ↔ AreDigits base written ∧ valueOf base written = value := by
  unfold digits? AreDigits
  cases written with
  | nil => simp
  | cons c written => simp [digitsFrom?_eq_some_iff most]

/-- A numeral goes on with a digit. -/
theorem Numeral.snoc (least : 1 < base) (most : base ≤ 16) (numeral : Numeral base value written)
    (small : digitValue c < base) :
    Numeral base (base * value + digitValue c) (written ++ [c]) := by
  obtain ⟨zeros, lower⟩ := numeral
  have last := toLower_eq_digitChar (small.trans_le most)
  rw [Numeral, List.map_append, lower, List.map_singleton, last]
  by_cases nothing : value = 0
  · -- The digits in front of the last one are zeros only.
    have zero : Nat.toDigits base 0 = ['0'] := Nat.toDigits_of_lt_base (by omega)
    refine ⟨zeros + 1, ?_⟩
    rw [nothing, Nat.mul_zero, Nat.zero_add, Nat.toDigits_of_lt_base small, zero,
      List.replicate_succ']
  · have whole := Nat.toDigits_append_toDigits least (Nat.pos_of_ne_zero nothing) small
    refine ⟨zeros, ?_⟩
    rw [← whole, Nat.toDigits_of_lt_base small, List.append_assoc]

/-- The numerals of a number are the digits with its value. -/
theorem numeral_iff (least : 1 < base) (most : base ≤ 16) :
    Numeral base value written ↔ AreDigits base written ∧ valueOf base written = value := by
  constructor
  · intro numeral
    exact (digits?_eq_some_iff most).mp (numeral.digits?_eq least most)
  · rintro ⟨⟨some, small⟩, rfl⟩
    induction written using List.reverseRecOn with
    | nil => exact absurd rfl some
    | append_singleton written c ih =>
      rw [List.forall_mem_append, List.forall_mem_singleton] at small
      obtain ⟨before, last⟩ := small
      rw [valueOf_snoc]
      by_cases first : written = []
      · subst first
        refine ⟨0, ?_⟩
        have zero : valueOf base [] = 0 := rfl
        rw [zero, Nat.mul_zero, Nat.zero_add, Nat.toDigits_of_lt_base last]
        simp [toLower_eq_digitChar (last.trans_le most)]
      · exact (ih first before).snoc least most last

end Digits

/-! ## Literals -/

section Literals

variable {base : Nat} {digits written : List Char}

/-- The spellings of a number are the digits with its value behind the mark of their base. -/
theorem literal_iff (based : Based base digits written) {value : Nat} :
    Literal value written ↔ AreDigits base digits ∧ valueOf base digits = value := by
  obtain ⟨least, most⟩ := based.bounds
  constructor
  · intro literal
    obtain ⟨first, more, rfl, digit, continues, found⟩ := literal.exists_cons
    rw [based.literal?_eq] at found
    exact (digits?_eq_some_iff most).mp found
  · intro value
    have numeral := (numeral_iff least most).mpr value
    cases based with
    | hexadecimal marks => exact .hexadecimal marks numeral
    | binary marks => exact .binary marks numeral
    | decimal => exact .decimal numeral

/-- Digits with a value that a word can hold are this word. -/
theorem exists_numberOf_eq (based : Based base digits written) (areDigits : AreDigits base digits)
    (fits : valueOf base digits ≤ 0xFFFF) :
    ∃ word : Word, word.toNat = valueOf base digits ∧ numberOf written = .ok word := by
  have small : valueOf base digits < UInt16.size := Nat.lt_succ_of_le fits
  have same : (UInt16.ofNat (valueOf base digits)).toNat = valueOf base digits :=
    UInt16.toNat_ofNat_of_lt' small
  have found : literal? written = some (valueOf base digits) := by
    rw [based.literal?_eq, digits?_eq_some_iff based.bounds.2]
    exact ⟨areDigits, rfl⟩
  rw [← same] at found
  exact ⟨_, same, numberOf_of_literal? found⟩

/-- Digits with a larger value below 2³² are out of range. -/
theorem numberOf_eq_outOfRange (based : Based base digits written)
    (areDigits : AreDigits base digits) (least : 0x10000 ≤ valueOf base digits)
    (most : valueOf base digits < 2 ^ 32) :
    numberOf written = .error (.outOfRange (valueOf base digits)) := by
  have large : ¬valueOf base digits < UInt16.size := Nat.not_lt.mpr least
  have found : literal? written = some (valueOf base digits) := by
    rw [based.literal?_eq, digits?_eq_some_iff based.bounds.2]
    exact ⟨areDigits, rfl⟩
  simp only [numberOf, found, if_neg large]
  exact if_pos most

/-- All else is no number. -/
theorem numberOf_eq_malformed (based : Based base digits written)
    (other : ¬(AreDigits base digits ∧ valueOf base digits < 2 ^ 32)) :
    numberOf written = .error (.malformed (.invalidNumber (String.ofList written))) := by
  cases found : literal? written with
  | none => simp only [numberOf, found]
  | some value =>
    obtain ⟨areDigits, rfl⟩ := (digits?_eq_some_iff based.bounds.2).mp (based.literal?_eq ▸ found)
    have large : ¬valueOf base digits < UInt32.size := fun small => other ⟨areDigits, small⟩
    have larger : ¬valueOf base digits < UInt16.size := fun small =>
      large (small.trans (by decide))
    simp only [numberOf, found, if_neg large, if_neg larger]

end Literals

/-- A number means what its digits say. It is as long as letters, digits and underscores follow its
first digit. Behind the mark of its base there have to be digits of this base and nothing else;
these have a value, and the spellings of a value are all those in any letter case and with any zeros
in front. If a word can hold the value, it is the token, wherever in a line the number is found. If
not, the value is out of range as long as it is below 2³². In all other cases the number is
malformed. -/
theorem number_meaning {first : Char} {more : List Char} (digit : first.isDigit)
    (continues : ∀ c ∈ more, continuesNumber c) :
    (∃ base digits, Based base digits (first :: more)) ∧
      ∀ base digits, Based base digits (first :: more) →
        (∀ value, Literal value (first :: more) ↔
          AreDigits base digits ∧ valueOf base digits = value) ∧
        ∀ done rest, (∀ c following, rest = c :: following → continuesNumber c = false) →
          (AreDigits base digits → valueOf base digits ≤ 0xFFFF →
            ∃ word : Word, word.toNat = valueOf base digits ∧
              scanFrom done (first :: (more ++ rest)) = scanFrom (.number word :: done) rest) ∧
          (AreDigits base digits → 0x10000 ≤ valueOf base digits → valueOf base digits < 2 ^ 32 →
            scanFrom done (first :: (more ++ rest)) = .error (.outOfRange (valueOf base digits))) ∧
          (¬(AreDigits base digits ∧ valueOf base digits < 2 ^ 32) →
            scanFrom done (first :: (more ++ rest)) =
              .error (.malformed (.invalidNumber (String.ofList (first :: more))))) := by
  refine ⟨exists_based _, fun base digits based => ⟨fun value => literal_iff based, ?_⟩⟩
  intro done rest ends
  rw [scanFrom_digits digit continues ends]
  refine ⟨fun areDigits fits => ?_, fun areDigits least most => ?_, fun other => ?_⟩
  · obtain ⟨word, same, number⟩ := exists_numberOf_eq based areDigits fits
    exact ⟨word, same, by rw [number]; rfl⟩
  · rw [numberOf_eq_outOfRange based areDigits least most]
    rfl
  · rw [numberOf_eq_malformed based other]
    rfl

/-- Zeros in front do not count, not even more of them than a word has bits. A value with seventeen
bits is out of range, and one with thirty-three bits is no number. -/
theorem number_meaning_spelled :
    scan "0B00000000000000000101]".toList = .ok [.number 5, .closeBracket] ∧
      scan "0X1fFfF".toList = .error (.outOfRange 0x1FFFF) ∧
      scan "4294967296".toList = .error (.malformed (.invalidNumber "4294967296")) := by
  refine ⟨?_, ?_, ?_⟩
  · have line : "0B00000000000000000101]".toList =
        '0' :: ('B' :: "00000000000000000101".toList ++ [']']) := by decide
    obtain ⟨-, means⟩ := @number_meaning '0' ('B' :: "00000000000000000101".toList) (by decide)
      (List.all_eq_true.mp (by decide))
    obtain ⟨-, scans⟩ := means 2 _ (.binary (.inr rfl) _)
    obtain ⟨word, same, reads⟩ := (scans [] [']'] (by simp; decide)).1 (by decide) (by decide)
    have five : word = 5 := UInt16.toNat_inj.mp (same.trans (by decide))
    have mark : punctuation? ']' = some .closeBracket := rfl
    rw [scan, line, reads, five, scanFrom_mark mark, scanFrom]
    rfl
  · have line : "0X1fFfF".toList = '0' :: ('X' :: "1fFfF".toList ++ []) := by decide
    obtain ⟨-, means⟩ := @number_meaning '0' ('X' :: "1fFfF".toList) (by decide)
      (List.all_eq_true.mp (by decide))
    obtain ⟨-, scans⟩ := means 16 _ (.hexadecimal (.inr rfl) _)
    rw [scan, line]
    exact (scans [] [] (by simp)).2.1 (by decide) (by decide) (by decide)
  · have line : "4294967296".toList = '4' :: ("294967296".toList ++ []) := by decide
    obtain ⟨-, means⟩ := @number_meaning '4' "294967296".toList (by decide)
      (List.all_eq_true.mp (by decide))
    have unmarked (mark : Char) (rest : List Char)
        (same : '4' :: "294967296".toList = '0' :: mark :: rest) : mark ∉ ['x', 'X', 'b', 'B'] :=
      absurd (List.head_eq_of_cons_eq same) (by decide)
    obtain ⟨-, scans⟩ := means 10 _ (.decimal unmarked)
    rw [scan, line]
    exact (scans [] [] (by simp)).2.2 (by decide)

end Dcpu16.Source
