import Mathlib
import Dcpu16.Instruction.Encoding

/-!
# Codes and instruction words

The tables of the encoder and of the decoder are written apart, and here they are shown to be
inverse. A mode that comes from a code has that code (`Mode.code_ofCode`, `Mode.ofCode_code`). An
instruction word is the number `opcode + 16 · a + 1024 · b` of its codes
(`Instruction.toNat_toWord_basic`), and `Instruction.ofWord?` takes it apart again. With the inline
words behind it, an instruction at rest is read back from its words whatever follows
(`Instruction.ofWords?_words_append`), and what is read is at rest
(`Instruction.atRest_of_ofWords?`).
-/
namespace Dcpu16

/-! ## Registers -/

/-- There is a general register for each index below 8. -/
theorem Register.exists_ofIndex? {index : UInt8} (small : index < 0x08) :
    ∃ register, ofIndex? index = some register := by
  have bound : index.toNat < general.length := UInt8.lt_iff_toNat_lt.mp small
  exact ⟨_, List.getElem?_eq_getElem bound⟩

/-- No register without an index is found at one. -/
theorem Register.ne_of_ofIndex? {index : UInt8} {register other : Register}
    (found : ofIndex? index = some register) (special : other.index? = none) :
    register ≠ other := by
  rintro rfl
  cases special.symm.trans (index?_ofIndex? found)

/-- PC is no general register. -/
theorem Register.ne_pc_of_ofIndex? {index : UInt8} {register : Register}
    (found : ofIndex? index = some register) : register ≠ .pc :=
  ne_of_ofIndex? found rfl

/-- SP is no general register. -/
theorem Register.ne_sp_of_ofIndex? {index : UInt8} {register : Register}
    (found : ofIndex? index = some register) : register ≠ .sp :=
  ne_of_ofIndex? found rfl

/-! ## Codes -/

namespace Mode

/-- Can the mode come from an operand code? Its register is one of the eight and its literal is
below 20 (hexadecimal). -/
def Coded : Mode → Prop
  | .register index | .indirect index | .indexed index => index < 0x08
  | .literal value => value < 0x20
  | _ => True

instance : DecidablePred Coded
  | .register index | .indirect index | .indexed index => inferInstanceAs (Decidable (index < 0x08))
  | .literal value => inferInstanceAs (Decidable (value < 0x20))
  | .pop | .peek | .push | .stackPointer | .programCounter | .overflow | .absolute | .immediate =>
    inferInstanceAs (Decidable True)

/-- A word below 20 (hexadecimal) is a literal that comes from a code. -/
theorem coded_literal {value : Word} (small : value ≤ 0x1F) : (literal value).Coded :=
  UInt16.lt_iff_toNat_lt.mpr (Nat.lt_succ_of_le (UInt16.le_iff_toNat_le.mp small))

/-- Only the low six bits of a byte make the mode. -/
theorem ofCode_masked (byte : UInt8) : ofCode (byte &&& 0x3F) = ofCode byte := by
  have twice : byte &&& 0x3F &&& 0x3F = byte &&& 0x3F := by
    rw [UInt8.and_assoc, UInt8.and_self]
  simp only [ofCode, twice]

/-- The low six bits of a byte are its remainder. -/
theorem masked_eq_ofNat (byte : UInt8) : byte &&& 0x3F = .ofNat (byte.toNat % 64) := by
  apply UInt8.toNat_inj.mp
  have masked : (byte &&& 0x3F).toNat = byte.toNat % 64 := by
    change byte.toNat &&& (2 ^ 6 - 1) = _
    exact Nat.and_two_pow_sub_one_eq_mod _ _
  rw [masked, UInt8.toNat_ofNat']
  omega

/-- Each of the 64 codes is the code of its mode. -/
theorem ofCode_table : ∀ code : Fin 64,
    (ofCode (.ofNat code)).Coded ∧ (ofCode (.ofNat code)).code = .ofNat code := by
  decide

/-- Each register and each small literal is the one of its code. -/
theorem code_table : (∀ index : Fin 8,
      ofCode (register (.ofNat index)).code = register (.ofNat index) ∧
      ofCode (indirect (.ofNat index)).code = indirect (.ofNat index) ∧
      ofCode (indexed (.ofNat index)).code = indexed (.ofNat index)) ∧
    ∀ value : Fin 32, ofCode (literal (.ofNat value)).code = literal (.ofNat value) := by
  decide

/-- The mode of any byte can come from a code. -/
theorem coded_ofCode (byte : UInt8) : (ofCode byte).Coded := by
  rw [← ofCode_masked, masked_eq_ofNat]
  exact (ofCode_table ⟨byte.toNat % 64, Nat.mod_lt _ (by decide)⟩).1

/-- The code of the mode of a byte is the low six bits of the byte. -/
theorem code_ofCode (byte : UInt8) : (ofCode byte).code = byte &&& 0x3F := by
  rw [← ofCode_masked, masked_eq_ofNat]
  exact (ofCode_table ⟨byte.toNat % 64, Nat.mod_lt _ (by decide)⟩).2

/-- A mode that can come from a code is the mode of its code. -/
theorem ofCode_code {mode : Mode} (coded : mode.Coded) : ofCode mode.code = mode := by
  cases mode with
  | register index => simpa using (code_table.1 ⟨index.toNat, coded⟩).1
  | indirect index => simpa using (code_table.1 ⟨index.toNat, coded⟩).2.1
  | indexed index => simpa using (code_table.1 ⟨index.toNat, coded⟩).2.2
  | literal value => simpa using code_table.2 ⟨value.toNat, coded⟩
  | pop | peek | push | stackPointer | programCounter | overflow | absolute | immediate => rfl

/-- The code of a mode that can come from a code has six bits. -/
theorem code_lt {mode : Mode} (coded : mode.Coded) : mode.code.toNat < 64 := by
  have same := code_ofCode mode.code
  rw [ofCode_code coded, masked_eq_ofNat] at same
  rw [same, UInt8.toNat_ofNat']
  omega

/-- Modes that can come from codes differ in their codes. -/
theorem code_injective {left right : Mode} (leftCoded : left.Coded) (rightCoded : right.Coded)
    (same : left.code = right.code) : left = right := by
  rw [← ofCode_code leftCoded, same, ofCode_code rightCoded]

end Mode

namespace Opcode

/-- Each opcode is the one of its code. -/
theorem ofCode?_code (opcode : Opcode) : ofCode? opcode.code = some opcode := by
  cases opcode <;> rfl

/-- The code of an opcode has four bits, which are not all 0. -/
theorem code_bounds (opcode : Opcode) : 0 < opcode.code.toNat ∧ opcode.code.toNat < 16 := by
  cases opcode <;> decide

/-- Code 0 is no opcode, and every other code of four bits is the code of its opcode. -/
theorem ofCode?_table : ∀ code : Fin 16,
    (ofCode? (.ofNat code)).map Opcode.code = if code = 0 then none else some (.ofNat code) := by
  decide

end Opcode

/-- The one special opcode is the one of its code, and no other code has one. -/
theorem SpecialOpcode.ofCode?_eq_some_iff {code : UInt8} {opcode : SpecialOpcode} :
    ofCode? code = some opcode ↔ code = opcode.code := by
  cases opcode
  simp only [ofCode?, SpecialOpcode.code]
  split <;> simp_all

/-! ## Instruction words -/

/-- A number below a power of two fills the low bits that a multiple of that power leaves free. -/
theorem or_mul_two_pow {low bits : Nat} (fits : low < 2 ^ bits) (high : Nat) :
    low ||| high * 2 ^ bits = low + high * 2 ^ bits := by
  rw [Nat.or_comm, Nat.mul_comm, ← Nat.two_pow_add_eq_or_of_lt fits, Nat.add_comm]

/-- A code in its field is the code times the weight of the field. -/
theorem Operand.toNat_packed {operand : Operand} (coded : operand.mode.Coded) :
    operand.packed.toNat = operand.mode.code.toNat * 2 ^ operand.slot.shift := by
  have small := Mode.code_lt coded
  have amount : (UInt16.ofNat operand.slot.shift).toNat % 16 = operand.slot.shift := by
    cases operand.slot <;> rfl
  have fits : operand.mode.code.toNat * 2 ^ operand.slot.shift < 2 ^ 16 := by
    cases operand.slot <;> simp only [Slot.shift] <;> omega
  simp only [packed, code, UInt16.toNat_shiftLeft, UInt8.toNat_toUInt16, amount,
    Nat.shiftLeft_eq, Nat.mod_eq_of_lt fits]

namespace Instruction

/-- The fields of a word are its remainder by 16, the next six bits, and the rest. -/
theorem fields_eq (word : Word) : fields word =
    (.ofNat (word.toNat % 16), .ofNat (word.toNat / 16 % 64), .ofNat (word.toNat / 1024)) := by
  have bound := word.toNat_lt
  have opcode : word.toNat &&& 15 = word.toNat % 16 := Nat.and_two_pow_sub_one_eq_mod _ 4
  have six (number : Nat) : number &&& 63 = number % 64 := Nat.and_two_pow_sub_one_eq_mod _ 6
  simp only [fields, Prod.mk.injEq, ← UInt8.toNat_inj, UInt16.toNat_toUInt8, UInt16.toNat_and,
    UInt16.toNat_shiftRight, UInt16.reduceToNat, Nat.reduceMod, opcode, six,
    Nat.shiftRight_eq_div_pow, UInt8.toNat_ofNat', true_and]
  omega

/-- The word of a basic instruction as a number of its codes. -/
theorem toNat_toWord_basic {opcode : Opcode} {a b : Operand} (first : a.slot = .a)
    (second : b.slot = .b) (aCoded : a.mode.Coded) (bCoded : b.mode.Coded) :
    (basic opcode a b).toWord.toNat =
      opcode.code.toNat + 16 * a.mode.code.toNat + 1024 * b.mode.code.toNat := by
  have opcodeFits : opcode.code.toNat < 2 ^ 4 := opcode.code_bounds.2
  have aFits := Mode.code_lt aCoded
  have low := or_mul_two_pow opcodeFits a.mode.code.toNat
  simp only [toWord, UInt16.toNat_or, UInt8.toNat_toUInt16, Operand.toNat_packed aCoded,
    Operand.toNat_packed bCoded, first, second, Slot.shift, low]
  rw [or_mul_two_pow (by omega)]
  omega

/-- The word of a special instruction as a number of its codes. -/
theorem toNat_toWord_special {opcode : SpecialOpcode} {a : Operand} (slot : a.slot = .b)
    (coded : a.mode.Coded) :
    (special opcode a).toWord.toNat = 16 * opcode.code.toNat + 1024 * a.mode.code.toNat := by
  cases opcode
  have shifted : (SpecialOpcode.jsr.code.toUInt16 <<< (4 : UInt16)).toNat = 16 := by decide
  simp only [toWord, UInt16.toNat_or, Operand.toNat_packed coded, slot, Slot.shift, shifted]
  rw [or_mul_two_pow (by omega)]
  simp only [SpecialOpcode.code, UInt8.reduceToNat]
  omega

/-- The codes of a basic instruction are the fields of its word. -/
theorem fields_toWord_basic (opcode : Opcode) {a b : Operand} (first : a.slot = .a)
    (second : b.slot = .b) (aCoded : a.mode.Coded) (bCoded : b.mode.Coded) :
    fields (basic opcode a b).toWord = (opcode.code, a.mode.code, b.mode.code) := by
  have opcodeFits := opcode.code_bounds
  have aFits := Mode.code_lt aCoded
  have low : (opcode.code.toNat + 16 * a.mode.code.toNat + 1024 * b.mode.code.toNat) % 16 =
      opcode.code.toNat := by omega
  have middle : (opcode.code.toNat + 16 * a.mode.code.toNat + 1024 * b.mode.code.toNat) / 16 % 64 =
      a.mode.code.toNat := by omega
  have high : (opcode.code.toNat + 16 * a.mode.code.toNat + 1024 * b.mode.code.toNat) / 1024 =
      b.mode.code.toNat := by omega
  rw [fields_eq, toNat_toWord_basic first second aCoded bCoded, low, middle, high]
  simp only [UInt8.ofNat_toNat]

/-- The codes of a special instruction are the upper fields of its word. -/
theorem fields_toWord_special (opcode : SpecialOpcode) {a : Operand} (slot : a.slot = .b)
    (coded : a.mode.Coded) :
    fields (special opcode a).toWord = (0, opcode.code, a.mode.code) := by
  have fits : opcode.code.toNat = 1 := by cases opcode; rfl
  have low : (16 * opcode.code.toNat + 1024 * a.mode.code.toNat) % 16 = 0 := by omega
  have middle : (16 * opcode.code.toNat + 1024 * a.mode.code.toNat) / 16 % 64 =
      opcode.code.toNat := by omega
  have high : (16 * opcode.code.toNat + 1024 * a.mode.code.toNat) / 1024 =
      a.mode.code.toNat := by omega
  rw [fields_eq, toNat_toWord_special slot coded, low, middle, high]
  simp only [UInt8.ofNat_toNat]
  rfl

end Instruction

/-! ## Instructions at rest -/

namespace Operand

/-- The inline word of an operand that has one. -/
def inline (operand : Operand) : List Word :=
  if operand.mode.takesWord then [operand.nextWord] else []

/-- Nothing is known of the operand but what stands in a program: a mode that comes from a code,
the field, and the inline word if the mode takes one. -/
structure AtRest (slot : Slot) (operand : Operand) : Prop where
  slot_eq : operand.slot = slot
  coded : operand.mode.Coded
  nextWord_eq : operand.mode.takesWord = false → operand.nextWord = 0
  registerValue_eq : operand.registerValue = 0
  stackAddress_eq : operand.stackAddress = none

/-- Filling leaves the mode as it is. -/
@[simp] theorem mode_fill (operand : Operand) (words : List Word) :
    (operand.fill words).1.mode = operand.mode := by
  unfold fill
  split <;> rfl

/-- Filling leaves the field as it is. -/
@[simp] theorem slot_fill (operand : Operand) (words : List Word) :
    (operand.fill words).1.slot = operand.slot := by
  unfold fill
  split <;> rfl

/-- Filling takes at most one word. -/
theorem length_fill (operand : Operand) (words : List Word) :
    (operand.fill words).2.length = words.length - if operand.mode.takesWord then 1 else 0 := by
  unfold fill
  split <;> simp

/-- An operand that is filled from a program is at rest. -/
theorem atRest_fill (code : UInt8) (slot : Slot) (words : List Word) :
    ((ofCode code slot).fill words).1.AtRest slot := by
  unfold fill
  split
  · next takes =>
    exact ⟨rfl, Mode.coded_ofCode code, fun none => absurd takes (by simp [none]), rfl, rfl⟩
  · exact ⟨rfl, Mode.coded_ofCode code, fun _ => rfl, rfl, rfl⟩

/-- An operand at rest is filled from its own inline word, and nothing more is taken. -/
theorem fill_inline_append {slot : Slot} {operand : Operand} (rest : operand.AtRest slot)
    (words : List Word) :
    (ofCode operand.mode.code slot).fill (operand.inline ++ words) = (operand, words) := by
  obtain ⟨mode, field, nextWord, registerValue, stackAddress⟩ := operand
  obtain ⟨rfl, coded, unused, rfl, rfl⟩ := rest
  simp only [ofCode, Mode.ofCode_code coded, fill, inline]
  split
  · rfl
  · next free =>
    simp only at unused
    rw [unused (by simpa using free)]
    rfl

/-- Filling takes the inline word from the front, unless it is missing. -/
theorem inline_fill_append {operand : Operand} {words : List Word}
    (there : operand.mode.takesWord = true → words ≠ []) :
    (operand.fill words).1.inline ++ (operand.fill words).2 = words := by
  unfold fill inline
  cases takes : operand.mode.takesWord with
  | false => simp [takes]
  | true =>
    obtain ⟨word, rest, rfl⟩ := List.exists_cons_of_ne_nil (there takes)
    simp [takes]

/-- The number of inline words. -/
theorem length_inline (operand : Operand) :
    operand.inline.length = if operand.mode.takesWord then 1 else 0 := by
  unfold inline
  split <;> rfl

end Operand

namespace Instruction

/-- Each operand is at rest in its field. -/
def AtRest : Instruction → Prop
  | .basic _ a b => a.AtRest .a ∧ b.AtRest .b
  | .special _ a => a.AtRest .b

/-- The words of the instruction: its own, and the inline words in the order of the operands. -/
def words (instruction : Instruction) : List Word :=
  instruction.toWord :: instruction.operands.flatMap Operand.inline

/-- An instruction has as many words as its size says. -/
theorem length_words (instruction : Instruction) : instruction.words.length = instruction.size := by
  cases instruction <;>
    simp only [words, operands, size, List.flatMap_cons, List.flatMap_nil, List.append_nil,
      List.length_cons, List.length_append, Operand.length_inline, List.countP_cons,
      List.countP_nil] <;>
    omega

/-- A word that stands for an instruction is the word of that instruction, at rest. -/
theorem toWord_of_ofWord? {word : Word} {instruction : Instruction}
    (found : ofWord? word = some instruction) : instruction.toWord = word := by
  have bound := word.toNat_lt
  have six (number : Nat) : ((UInt8.ofNat (number % 64)) &&& 0x3F).toNat = number % 64 := by
    rw [Mode.masked_eq_ofNat, UInt8.toNat_ofNat', UInt8.toNat_ofNat']
    omega
  have last : word.toNat / 1024 = word.toNat / 1024 % 64 := by omega
  have nibble := Opcode.ofCode?_table ⟨word.toNat % 16, Nat.mod_lt _ (by decide)⟩
  simp only [ofWord?, fields_eq] at found
  rw [last] at found
  apply UInt16.toNat_inj.mp
  cases basicOpcode : Opcode.ofCode? (.ofNat (word.toNat % 16)) with
  | some opcode =>
    simp only [basicOpcode, Option.map_some, Option.some.injEq] at found nibble
    subst found
    have code : opcode.code.toNat = word.toNat % 16 := by
      split at nibble
      · cases nibble
      · simp only [Option.some.injEq] at nibble
        rw [nibble, UInt8.toNat_ofNat']
        omega
    unfold ofCodes
    rw [toNat_toWord_basic rfl rfl (Mode.coded_ofCode _) (Mode.coded_ofCode _), code]
    simp only [Operand.ofCode, Mode.code_ofCode, six]
    omega
  | none =>
    simp only [basicOpcode, Option.map_none] at found nibble
    obtain ⟨opcode, special, rfl⟩ := Option.map_eq_some_iff.mp found
    have zero : word.toNat % 16 = 0 := by
      split at nibble
      · next zero => exact congrArg Fin.val zero
      · cases nibble
    have code := congrArg UInt8.toNat (SpecialOpcode.ofCode?_eq_some_iff.mp special)
    rw [UInt8.toNat_ofNat', Nat.mod_eq_of_lt (by omega)] at code
    unfold ofCode
    rw [toNat_toWord_special rfl (Mode.coded_ofCode _), ← code]
    simp only [Operand.ofCode, Mode.code_ofCode, six]
    omega

/-- An instruction at rest is read back from the front of its words, whatever follows them. -/
theorem ofWords?_words_append {instruction : Instruction} (rest : instruction.AtRest)
    (following : List Word) : ofWords? (instruction.words ++ following) = some instruction := by
  cases instruction with
  | basic opcode a b =>
    obtain ⟨aRest, bRest⟩ := rest
    have codes :=
      fields_toWord_basic opcode aRest.slot_eq bRest.slot_eq aRest.coded bRest.coded
    simp only [words, operands, List.flatMap_cons, List.flatMap_nil, List.append_nil,
      List.cons_append, List.append_assoc, ofWords?, ofWord?, codes, Opcode.ofCode?_code,
      Option.map_some, ofCodes, fill, Operand.fill_inline_append aRest,
      Operand.fill_inline_append bRest]
  | special opcode a =>
    have codes := fields_toWord_special opcode rest.slot_eq rest.coded
    have none : Opcode.ofCode? 0 = none := rfl
    simp only [words, operands, List.flatMap_cons, List.flatMap_nil, List.append_nil,
      List.cons_append, ofWords?, ofWord?, codes, none,
      SpecialOpcode.ofCode?_eq_some_iff.mpr rfl, Option.map_some, ofCode, fill,
      Operand.fill_inline_append rest]

/-- The first word of a list that an instruction is read from is the word of that instruction. -/
theorem toWord_of_ofWords? {word : Word} {words : List Word} {instruction : Instruction}
    (found : ofWords? (word :: words) = some instruction) : instruction.toWord = word := by
  obtain ⟨bare, known, rfl⟩ := Option.map_eq_some_iff.mp found
  rw [← toWord_of_ofWord? known]
  cases bare <;> simp only [fill, toWord, Operand.packed, Operand.code, Operand.mode_fill,
    Operand.slot_fill]

/-- An instruction that is read from words is at rest. -/
theorem atRest_of_ofWords? {words : List Word} {instruction : Instruction}
    (found : ofWords? words = some instruction) : instruction.AtRest := by
  cases words with
  | nil => cases found
  | cons word words =>
    obtain ⟨bare, known, rfl⟩ := Option.map_eq_some_iff.mp found
    simp only [ofWord?] at known
    split at known
    · cases known
      exact ⟨Operand.atRest_fill _ _ _, Operand.atRest_fill _ _ _⟩
    · obtain ⟨opcode, -, rfl⟩ := Option.map_eq_some_iff.mp known
      exact Operand.atRest_fill _ _ _

/-- An instruction that is not cut off consists of the first words of the list it is read from. -/
theorem words_append_drop {words : List Word} {instruction : Instruction}
    (found : ofWords? words = some instruction) (whole : instruction.size ≤ words.length) :
    instruction.words ++ words.drop instruction.size = words := by
  cases words with
  | nil => cases found
  | cons word words =>
    have first := toWord_of_ofWords? found
    obtain ⟨bare, known, rfl⟩ := Option.map_eq_some_iff.mp found
    suffices ∃ following, (bare.fill words).words ++ following = word :: words by
      obtain ⟨following, same⟩ := this
      rw [← same, ← length_words, List.drop_left]
    cases bare with
    | basic opcode a b =>
      simp only [fill, size, operands, List.countP_cons, List.countP_nil, Operand.mode_fill,
        List.length_cons] at whole
      have aThere : a.mode.takesWord = true → words ≠ [] := by
        rintro takes rfl
        simp only [takes, ↓reduceIte, List.length_nil] at whole
        omega
      have bThere : b.mode.takesWord = true → (a.fill words).2 ≠ [] := by
        intro takes none
        have left := a.length_fill words
        simp only [takes, ↓reduceIte] at whole
        rw [none, List.length_nil] at left
        omega
      refine ⟨(b.fill (a.fill words).2).2, ?_⟩
      rw [Instruction.words, first]
      simp only [fill, operands, List.flatMap_cons, List.flatMap_nil, List.append_nil,
        List.cons_append, List.append_assoc, Operand.inline_fill_append bThere,
        Operand.inline_fill_append aThere]
    | special opcode a =>
      simp only [fill, size, operands, List.countP_cons, List.countP_nil, Operand.mode_fill,
        List.length_cons] at whole
      have there : a.mode.takesWord = true → words ≠ [] := by
        rintro takes rfl
        simp only [takes, ↓reduceIte, List.length_nil] at whole
        omega
      refine ⟨(a.fill words).2, ?_⟩
      rw [Instruction.words, first]
      simp only [fill, operands, List.flatMap_cons, List.flatMap_nil, List.append_nil,
        List.cons_append, Operand.inline_fill_append there]

end Instruction

end Dcpu16
