import Dcpu16.Source.Assembler
import Dcpu16.Proofs.Encoding

/-!
# What statements mean

The program that statements stand for, said at once and without a layout. An operand is written in
a mode, and its inline word is a value (`Expression.mode`, `Expression.inline?`), so the number of
words of a statement is known from the statement alone (`Statement.size`). A label is the sum of
the sizes in front of its definition (`addressIn`). With the addresses of all labels given, each
statement has its words on its own (`Statement.wordsIn`).
-/
namespace Dcpu16.Source

/-! ## Operands -/

/-- The mode that an operand is written in. Nothing in brackets counts as 0, and so does a register
that addresses no memory. -/
def Expression.mode : Expression → Mode
  | .register .pc => .programCounter
  | .register .sp => .stackPointer
  | .register .o => .overflow
  | .register general => .register (general.index?.getD 0)
  | .pop => .pop
  | .peek => .peek
  | .push => .push
  | .immediate (.number value) => if value ≤ 0x1F then .literal value else .immediate
  | .immediate (.label _) => .immediate
  | .indirect offset base =>
    match offset, base.bind Register.index? with
    | none, some index => .indirect index
    | some _, some index => .indexed index
    | _, none => .absolute

/-- The value of the inline word. A small number needs none, and a label always does. -/
def Expression.inline? : Expression → Option Value
  | .immediate (.number value) => if value ≤ 0x1F then none else some (.number value)
  | .immediate (.label name) => some (.label name)
  | .indirect (some value) _ => some value
  | .indirect none base => if (base.bind Register.index?).isSome then none else some (.number 0)
  | .register _ | .pop | .peek | .push => none

/-- A mode that is written can come from a code. -/
theorem Expression.coded_mode (expression : Expression) : expression.mode.Coded := by
  have small (register : Register) (index : UInt8) (found : register.index? = some index) :
      index < 0x08 := by
    cases register <;> cases found <;> decide
  cases expression with
  | register register => cases register <;> decide
  | pop | peek | push => trivial
  | immediate value =>
    cases value with
    | number value =>
      simp only [mode]
      split
      · next le =>
        have bound := UInt16.le_iff_toNat_le.mp le
        exact UInt16.lt_iff_toNat_lt.mpr (Nat.lt_succ_of_le bound)
      · trivial
    | label => trivial
  | indirect offset base =>
    simp only [mode]
    split
    · next found =>
      obtain ⟨register, -, found⟩ := Option.bind_eq_some_iff.mp found
      exact small register _ found
    · next found =>
      obtain ⟨register, -, found⟩ := Option.bind_eq_some_iff.mp found
      exact small register _ found
    · trivial

/-- The mode takes a word exactly when there is a value for it. -/
theorem Expression.takesWord_mode (expression : Expression) :
    expression.mode.takesWord = expression.inline?.isSome := by
  cases expression with
  | register register => cases register <;> rfl
  | pop | peek | push => rfl
  | immediate value =>
    cases value with
    | number value => simp only [mode, inline?]; split <;> rfl
    | label => rfl
  | indirect offset base =>
    cases offset <;> cases found : base.bind Register.index? <;>
      simp only [mode, inline?, found] <;> rfl

/-! ## Sizes and addresses -/

/-- The number of words of a data value. -/
def Datum.size : Datum → Nat
  | .value _ => 1
  | .text content => content.length

/-- The number of words of a statement. -/
def Statement.size (statement : Statement) : Nat :=
  match statement.body with
  | none => 0
  | some (.instruction _ operands) => 1 + operands.countP fun operand => operand.inline?.isSome
  | some (.data items) => (items.map Datum.size).sum

/-- The number of words of statements. -/
def extent (statements : List Statement) : Nat := (statements.map Statement.size).sum

/-- The address of a label: the number of words in front of the statement that defines it. -/
def addressIn (statements : List Statement) (label : String) : Option Nat :=
  (statements.findIdx? fun statement => statement.label == some label).map fun position =>
    extent (statements.take position)

/-! ## Words -/

/-- The word of a value, with the addresses of labels given. -/
def Value.wordIn (addresses : String → Option Nat) : Value → Option Word
  | .number value => some value
  | .label name => (addresses name).map UInt16.ofNat

/-- The operand that is written, at rest in its field. -/
def Expression.operandIn (addresses : String → Option Nat) (slot : Slot) (expression : Expression) :
    Option Operand :=
  match expression.inline? with
  | none => some { mode := expression.mode, slot }
  | some value =>
    (value.wordIn addresses).map fun nextWord => { mode := expression.mode, slot, nextWord }

/-- The instruction that is written. There is none without a mnemonic of its own or with another
number of operands. -/
def instructionIn (addresses : String → Option Nat) (mnemonic : String)
    (operands : List Expression) : Option Instruction :=
  match Opcode.ofMnemonic? mnemonic, SpecialOpcode.ofMnemonic? mnemonic, operands with
  | some opcode, _, [a, b] =>
    (a.operandIn addresses .a).bind fun a =>
      (b.operandIn addresses .b).map fun b => .basic opcode a b
  | none, some opcode, [a] => (a.operandIn addresses .b).map fun a => .special opcode a
  | _, _, _ => none

/-- The word of a character, unless its code is too large. -/
def wordOfChar (c : Char) : Option Word :=
  if c.toNat ≤ 0xFFFF then some (UInt16.ofNat c.toNat) else none

/-- The words of a data value. -/
def Datum.wordsIn (addresses : String → Option Nat) : Datum → Option (List Word)
  | .value written => (written.wordIn addresses).map fun word => [word]
  | .text content => content.toList.mapM wordOfChar

/-- The words of a statement. -/
def Statement.wordsIn (addresses : String → Option Nat) (statement : Statement) :
    Option (List Word) :=
  match statement.body with
  | none => some []
  | some (.instruction mnemonic operands) =>
    (instructionIn addresses mnemonic operands).map Instruction.words
  | some (.data items) => (items.mapM (Datum.wordsIn addresses)).map List.flatten

end Dcpu16.Source
