import Dcpu16.Proofs.Assembly.Decoded
import Dcpu16.Proofs.Listing.Sweep
import Dcpu16.Proofs.Source.Scanning

/-!
# What a listing writes

The text of an operand is scanned as its tokens (`Operand.scans_text`), these spell an expression
(`Operand.spells_tokens`), and the expression means the operand with a literal where there is one
(`Operand.operandIn_expression`). So the text of an instruction is a statement that means the
instruction with its literals.
-/
namespace Dcpu16

open Source

/-! ## Names -/

/-- Is the whole text a name? -/
def Source.isName (text : String) : Bool :=
  match text.toList with
  | [] => false
  | first :: more => startsName first && more.all continuesName

/-- A text that is a name can stand in front of what ends it. -/
theorem Source.Scans.nameText {name : String} {text : List Char} {tokens : List Token}
    (whole : isName name) (ends : Ends text) (scans : Scans text tokens) :
    Scans (name.toList ++ text) (.name name :: tokens) := by
  unfold isName at whole
  split at whole
  · cases whole
  · next first more same =>
    rw [Bool.and_eq_true, List.all_eq_true] at whole
    have named : name = String.ofList (first :: more) := by rw [← same, String.ofList_toList]
    rw [same, named]
    exact Scans.name whole.1 whole.2 ends scans

/-- The names of registers are names, and stand for them. -/
theorem Register.isName_name (register : Register) :
    isName register.name ∧ ofName? register.name = some register := by
  cases register <;> decide

namespace Operand

/-! ## Operands -/

/-- The general register with this index. An index above 7 counts by its low three bits. -/
def registerAt (index : UInt8) : Register := (Register.ofIndex? (index &&& 0x07)).getD .a

/-- A register below 8 has the index that it was found by, and its name is written for it. -/
theorem registerAt_spec {index : UInt8} (small : index < 0x08) :
    (registerAt index).index? = some index ∧ registerName index = (registerAt index).name := by
  have low : index &&& 0x07 = index := by
    apply UInt8.toNat_inj.mp
    have masked : index.toNat &&& 7 = index.toNat % 8 := Nat.and_two_pow_sub_one_eq_mod _ 3
    rw [UInt8.toNat_and]
    exact masked.trans (Nat.mod_eq_of_lt (UInt8.lt_iff_toNat_lt.mp small))
  obtain ⟨register, found⟩ := Register.exists_ofIndex? small
  unfold registerAt registerName
  rw [low, found]
  exact ⟨Register.index?_ofIndex? found, rfl⟩

/-- The tokens that are written for the operand. -/
def tokens (operand : Operand) : List Token :=
  match operand.mode with
  | .register index => [.name (registerName index)]
  | .indirect index => [.openBracket, .name (registerName index), .closeBracket]
  | .indexed index =>
    [.openBracket, .number operand.nextWord, .plus, .name (registerName index), .closeBracket]
  | .pop => [.name "POP"]
  | .peek => [.name "PEEK"]
  | .push => [.name "PUSH"]
  | .stackPointer => [.name "SP"]
  | .programCounter => [.name "PC"]
  | .overflow => [.name "O"]
  | .absolute => [.openBracket, .number operand.nextWord, .closeBracket]
  | .immediate => [.number operand.nextWord]
  | .literal value => [.number value]

/-- The expression that the operand is written as. -/
def expression (operand : Operand) : Expression :=
  match operand.mode with
  | .register index => .register (registerAt index)
  | .indirect index => .indirect none (some (registerAt index))
  | .indexed index => .indirect (some (.number operand.nextWord)) (some (registerAt index))
  | .pop => .pop
  | .peek => .peek
  | .push => .push
  | .stackPointer => .register .sp
  | .programCounter => .register .pc
  | .overflow => .register .o
  | .absolute => .indirect (some (.number operand.nextWord)) none
  | .immediate => .immediate (.number operand.nextWord)
  | .literal value => .immediate (.number value)

section Written

variable {operand : Operand}

/-- The text of an operand can stand in front of what ends it. -/
theorem scans_text (coded : operand.mode.Coded) {text : List Char} {behind : List Token}
    (ends : Ends text) (scans : Scans text behind) :
    Scans (operand.text.toList ++ text) (operand.tokens ++ behind) := by
  have closes : Ends (']' :: text) := .cons (by decide) text
  have closing : Scans (']' :: text) (.closeBracket :: behind) := Scans.mark rfl scans
  cases mode : operand.mode with
  | register index =>
    rw [mode] at coded
    have named := Scans.nameText (registerAt index).isName_name.1 ends scans
    rw [← (registerAt_spec coded).2] at named
    simpa [Operand.text, tokens, mode] using named
  | indirect index =>
    rw [mode] at coded
    have named := Scans.nameText (registerAt index).isName_name.1 closes closing
    rw [← (registerAt_spec coded).2] at named
    simpa [Operand.text, tokens, mode] using Scans.mark rfl named
  | indexed index =>
    rw [mode] at coded
    have named := Scans.nameText (registerAt index).isName_name.1 closes closing
    rw [← (registerAt_spec coded).2] at named
    have plus : Ends ('+' :: ((registerName index).toList ++ ']' :: text)) := .cons (by decide) _
    have number := Scans.hex 4 operand.nextWord plus (Scans.mark rfl named)
    simpa [Operand.text, tokens, mode] using Scans.mark rfl number
  | absolute =>
    have number := Scans.hex 4 operand.nextWord closes closing
    simpa [Operand.text, tokens, mode] using Scans.mark rfl number
  | immediate => simpa [Operand.text, tokens, mode] using Scans.hex 4 operand.nextWord ends scans
  | literal value => simpa [Operand.text, tokens, mode] using Scans.hex 2 value ends scans
  | pop | peek | push | stackPointer | programCounter | overflow =>
    simp only [Operand.text, tokens, mode]
    exact Scans.nameText (by decide) ends scans

/-- The tokens of an operand spell its expression. -/
theorem spells_tokens (coded : operand.mode.Coded) : Spells operand.tokens operand.expression := by
  cases mode : operand.mode with
  | register index =>
    rw [mode] at coded
    simp only [tokens, expression, mode, (registerAt_spec coded).2]
    exact .name (.register (registerAt index).isName_name.2)
  | indirect index =>
    rw [mode] at coded
    simp only [tokens, expression, mode, (registerAt_spec coded).2]
    exact .base (registerAt index).isName_name.2 (by rw [(registerAt_spec coded).1]; rfl)
  | indexed index =>
    rw [mode] at coded
    simp only [tokens, expression, mode, (registerAt_spec coded).2]
    exact .offsetFirst (.number _) (registerAt index).isName_name.2
      (by rw [(registerAt_spec coded).1]; rfl)
  | pop => simpa only [tokens, expression, mode] using .name (.pop (by decide))
  | peek => simpa only [tokens, expression, mode] using .name (.peek (by decide))
  | push => simpa only [tokens, expression, mode] using .name (.push (by decide))
  | stackPointer | programCounter | overflow =>
    simp only [tokens, expression, mode]
    exact .name (.register (by decide))
  | absolute => simpa only [tokens, expression, mode] using .offset (.number _)
  | immediate => simpa only [tokens, expression, mode] using .number _
  | literal value => simpa only [tokens, expression, mode] using .number _

/-- An expression with the mode and the inline word of an operand at rest means this operand. -/
theorem operandIn_eq {written : Expression} {slot : Slot} (rest : operand.AtRest slot)
    (mode : written.mode = operand.mode)
    (inline : written.inline? =
      if operand.mode.takesWord then some (.number operand.nextWord) else none)
    (addresses : String → Option Nat) : written.operandIn addresses slot = some operand := by
  obtain ⟨own, field, nextWord, registerValue, stackAddress⟩ := operand
  obtain ⟨rfl, -, unused, rfl, rfl⟩ := rest
  unfold Expression.operandIn
  rw [inline, mode]
  cases takes : own.takesWord with
  | true => rfl
  | false =>
    simp only at unused
    rw [unused takes]
    rfl

/-- The expression of an operand that is not immediate has its mode and its inline word. -/
theorem mode_expression (coded : operand.mode.Coded) (other : operand.mode ≠ .immediate) :
    operand.expression.mode = operand.mode ∧ operand.expression.inline? =
      if operand.mode.takesWord then some (.number operand.nextWord) else none := by
  cases mode : operand.mode with
  | register index =>
    rw [mode] at coded
    have general {register : Register} (found : register.index? = some index) :
        (Expression.register register).mode = .register index := by
      cases register <;> cases found <;> rfl
    simp only [expression, mode]
    exact ⟨general (registerAt_spec coded).1, rfl⟩
  | indirect index | indexed index =>
    rw [mode] at coded
    simp [expression, mode, Expression.mode, Expression.inline?, (registerAt_spec coded).1,
      Mode.takesWord]
  | immediate => exact absurd mode other
  | literal value =>
    rw [mode] at coded
    have small : value ≤ 0x1F :=
      UInt16.le_iff_toNat_le.mpr (Nat.le_of_lt_succ (UInt16.lt_iff_toNat_lt.mp coded))
    simp [expression, mode, Expression.mode, Expression.inline?, small, Mode.takesWord]
  | _ => simp [expression, mode, Expression.mode, Expression.inline?, Mode.takesWord]

/-- The expression of an operand means the operand, with a literal where there is one. -/
theorem operandIn_expression {slot : Slot} (rest : operand.AtRest slot)
    (addresses : String → Option Nat) :
    operand.expression.operandIn addresses slot = some operand.shortened := by
  have coded := rest.coded
  have short := atRest_shortened rest
  by_cases immediate : operand.mode = .immediate
  · by_cases small : operand.nextWord ≤ 0x1F
    · have made : operand.shortened =
          { operand with mode := .literal operand.nextWord, nextWord := 0 } :=
        if_pos ⟨immediate, small⟩
      rw [made] at short ⊢
      exact operandIn_eq short (by simp [expression, immediate, Expression.mode, small])
        (by simp [expression, immediate, Expression.inline?, small, Mode.takesWord]) addresses
    · rw [shortened_eq fun shortens => small shortens.2]
      exact operandIn_eq rest (by simp [expression, immediate, Expression.mode, small])
        (by simp [expression, immediate, Expression.inline?, small, Mode.takesWord]) addresses
  · rw [shortened_eq fun shortens => immediate shortens.1]
    obtain ⟨mode, inline⟩ := mode_expression coded immediate
    exact operandIn_eq rest mode inline addresses

end Written

end Operand

/-! ## Instructions -/

/-- The mnemonic of a basic opcode stands for it. -/
theorem Opcode.ofMnemonic?_mnemonic (opcode : Opcode) :
    ofMnemonic? opcode.mnemonic = some opcode := by
  cases opcode <;> decide

/-- The mnemonic of a special opcode stands for it, and for no basic one. -/
theorem SpecialOpcode.ofMnemonic?_mnemonic (opcode : SpecialOpcode) :
    Opcode.ofMnemonic? opcode.mnemonic = none ∧ ofMnemonic? opcode.mnemonic = some opcode := by
  cases opcode
  decide

namespace Instruction

/-- The expressions of the operands. -/
def expressions (instruction : Instruction) : List Expression :=
  instruction.operands.map Operand.expression

/-- The tokens that are written for the instruction. -/
def tokens (instruction : Instruction) : List Token :=
  .name instruction.mnemonic ::
    List.intercalate [.comma] (instruction.operands.map Operand.tokens)

section Written

variable {instruction : Instruction}

/-- The operands of an instruction at rest have modes that come from codes. -/
theorem coded_of_mem (rest : instruction.AtRest) :
    ∀ operand ∈ instruction.operands, operand.mode.Coded := by
  cases instruction with
  | basic opcode a b =>
    simp only [operands, List.mem_cons, List.not_mem_nil, or_false, forall_eq_or_imp, forall_eq]
    exact ⟨rest.1.coded, rest.2.coded⟩
  | special opcode a =>
    simp only [operands, List.mem_singleton, forall_eq]
    exact rest.coded


/-- A mnemonic is a name, and not the one that announces data. -/
theorem isName_mnemonic (instruction : Instruction) :
    isName instruction.mnemonic ∧ Text.capitals instruction.mnemonic ≠ "DAT" := by
  cases instruction with
  | basic opcode =>
    show isName opcode.mnemonic ∧ Text.capitals opcode.mnemonic ≠ "DAT"
    cases opcode <;> decide
  | special opcode =>
    show isName opcode.mnemonic ∧ Text.capitals opcode.mnemonic ≠ "DAT"
    cases opcode
    decide

/-- The text of an instruction can stand in front of what ends it. -/
theorem scans_text (rest : instruction.AtRest) {text : List Char} {behind : List Token}
    (ends : Ends text) (scans : Scans text behind) :
    Scans (instruction.text.toList ++ text) (instruction.tokens ++ behind) := by
  have named := (isName_mnemonic instruction).1
  have blank (more : List Char) : Ends (' ' :: more) := .cons (by decide) more
  have comma (more : List Char) : Ends (',' :: more) := .cons (by decide) more
  cases instruction with
  | basic opcode a b =>
    have second := Operand.scans_text rest.2.coded ends scans
    have first := Operand.scans_text rest.1.coded (comma _) (Scans.mark rfl second.blank)
    have whole := Scans.nameText named (blank _) first.blank
    simpa [Instruction.text, tokens, operands, mnemonic, List.intercalate_cons_cons] using whole
  | special opcode a =>
    have first := Operand.scans_text rest.coded ends scans
    have whole := Scans.nameText named (blank _) first.blank
    simpa [Instruction.text, tokens, operands, mnemonic] using whole

/-- The expressions of an instruction mean it, with literals where there are some. -/
theorem instructionIn_expressions (rest : instruction.AtRest) (addresses : String → Option Nat) :
    instructionIn addresses instruction.mnemonic instruction.expressions =
      some instruction.shortened := by
  unfold instructionIn
  cases instruction with
  | basic opcode a b =>
    have first := Operand.operandIn_expression rest.1 addresses
    have second := Operand.operandIn_expression rest.2 addresses
    simp only [mnemonic, Opcode.ofMnemonic?_mnemonic, expressions, operands, List.map_cons,
      List.map_nil, first, second, Option.bind_some, Option.map_some, shortened]
  | special opcode a =>
    have first := Operand.operandIn_expression rest addresses
    simp only [mnemonic, (SpecialOpcode.ofMnemonic?_mnemonic opcode).1,
      (SpecialOpcode.ofMnemonic?_mnemonic opcode).2, expressions, operands, List.map_cons,
      List.map_nil, first, Option.map_some, shortened]

/-- The tokens of an instruction are a statement that means it, with literals where there are
some. -/
theorem exists_statement (rest : instruction.AtRest) (line : Nat) :
    ∃ written, statement line instruction.tokens = .ok written ∧ written.label = none ∧
      ∀ addresses, written.wordsIn addresses = some instruction.shortened.words := by
  have wrote : List.Forall₂ Spells (instruction.operands.map Operand.tokens)
      instruction.expressions := by
    rw [expressions, List.forall₂_map_left_iff, List.forall₂_map_right_iff, List.forall₂_same]
    exact fun operand member => Operand.spells_tokens (coded_of_mem rest operand member)
  refine ⟨_, statement_of_operands line (isName_mnemonic instruction).2 wrote, rfl,
    fun addresses => ?_⟩
  simp only [Statement.wordsIn, instructionIn_expressions rest addresses, Option.map_some]

end Written

end Instruction

namespace Listing

/-! ## Lines -/

/-- The tokens that are written for the first line of a program. -/
def firstTokens (words : List Word) : List Token :=
  match Instruction.ofWords? words with
  | some instruction => instruction.tokens
  | none => [.name "DAT", .number (words.headD 0)]

section Lines

variable {words : List Word}

/-- The text of the first line can stand in front of what ends it. -/
theorem scans_firstText (words : List Word) {text : List Char} {behind : List Token}
    (ends : Ends text) (scans : Scans text behind) :
    Scans ((firstText words).toList ++ text) (firstTokens words ++ behind) := by
  unfold firstText firstTokens
  cases found : Instruction.ofWords? words with
  | some instruction =>
    exact Instruction.scans_text (Instruction.atRest_of_ofWords? found) ends scans
  | none =>
    have number := Scans.hex 4 (words.headD 0) ends scans
    have whole := Scans.nameText (by decide : isName "DAT") (.cons (by decide) _) number.blank
    simpa using whole

/-- The tokens of the first line are a statement that means the words it stands for. -/
theorem exists_first_statement (nonempty : words ≠ []) (line : Nat) :
    ∃ written, statement line (firstTokens words) = .ok written ∧ written.label = none ∧
      ∀ addresses, written.wordsIn addresses = some (firstNormal words) := by
  unfold firstTokens firstNormal
  cases found : Instruction.ofWords? words with
  | some instruction =>
    exact Instruction.exists_statement (Instruction.atRest_of_ofWords? found) line
  | none =>
    obtain ⟨word, rest, rfl⟩ := List.exists_cons_of_ne_nil nonempty
    have wrote : List.Forall₂ Holds [[.number word]] [.value (.number word)] :=
      .cons (.number word) .nil
    exact ⟨_, statement_of_values line (by decide : Text.capitals "DAT" = "DAT") (by simp) wrote,
      rfl, fun addresses => rfl⟩

end Lines

end Listing

end Dcpu16
