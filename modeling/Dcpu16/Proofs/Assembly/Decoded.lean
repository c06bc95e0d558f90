import Dcpu16.Proofs.Assembly.Grammar
import Dcpu16.Proofs.Assembly.OneShot

/-!
# What is assembled is what is decoded

The assembler writes the code of an operand and its inline word where the decoder looks for them.
Tokens write an operand in a mode and with a value (`Writes`), and at the place that an instruction
has in a program the decoder finds the opcode of the mnemonic and operands in these modes, with
these values in their inline words (`decoded_of_encode`).
-/
namespace Dcpu16.Source

/-! ## Modes -/

/-- The mode that the tokens of an operand write, and the value of its inline word if it has one.
Names of registers and keywords are written in any letter case. -/
inductive Writes : List Token → Mode → Option Value → Prop
  | small {value : Word} (small : value ≤ 0x1F) : Writes [.number value] (.literal value) none
  | large {value : Word} (large : 0x1F < value) :
      Writes [.number value] .immediate (some (.number value))
  | label {name : String} (pop : Text.capitals name ≠ "POP") (peek : Text.capitals name ≠ "PEEK")
      (push : Text.capitals name ≠ "PUSH") (free : Register.ofName? name = none) :
      Writes [.name name] .immediate (some (.label name))
  | register {name : String} {register : Register} {index : UInt8}
      (found : Register.ofName? name = some register) (general : register.index? = some index) :
      Writes [.name name] (.register index) none
  | stackPointer {name : String} (found : Register.ofName? name = some .sp) :
      Writes [.name name] .stackPointer none
  | programCounter {name : String} (found : Register.ofName? name = some .pc) :
      Writes [.name name] .programCounter none
  | overflow {name : String} (found : Register.ofName? name = some .o) :
      Writes [.name name] .overflow none
  | pop {name : String} (same : Text.capitals name = "POP") : Writes [.name name] .pop none
  | peek {name : String} (same : Text.capitals name = "PEEK") : Writes [.name name] .peek none
  | push {name : String} (same : Text.capitals name = "PUSH") : Writes [.name name] .push none
  | top {name : String} (found : Register.ofName? name = some .sp) :
      Writes [.openBracket, .name name, .closeBracket] .peek none
  | indirect {name : String} {register : Register} {index : UInt8}
      (found : Register.ofName? name = some register) (general : register.index? = some index) :
      Writes [.openBracket, .name name, .closeBracket] (.indirect index) none
  | absolute {token : Token} {value : Value} (offset : Offsets token value) :
      Writes [.openBracket, token, .closeBracket] .absolute (some value)
  | offsetFirst {token : Token} {value : Value} {name : String} {register : Register}
      {index : UInt8} (offset : Offsets token value)
      (found : Register.ofName? name = some register) (general : register.index? = some index) :
      Writes [.openBracket, token, .plus, .name name, .closeBracket] (.indexed index) (some value)
  | registerFirst {token : Token} {value : Value} {name : String} {register : Register}
      {index : UInt8} (offset : Offsets token value)
      (found : Register.ofName? name = some register) (general : register.index? = some index) :
      Writes [.openBracket, .name name, .plus, token, .closeBracket] (.indexed index) (some value)

/-- A name writes the mode and the value of the operand that it stands for. -/
theorem writes_of_names {name : String} {operand : Expression} (names : Names name operand) :
    Writes [.name name] operand.mode operand.inline? := by
  cases names with
  | pop same => exact .pop same
  | peek same => exact .peek same
  | push same => exact .push same
  | label pop peek push free => exact .label pop peek push free
  | @register register found =>
    cases register with
    | sp => exact .stackPointer found
    | pc => exact .programCounter found
    | o => exact .overflow found
    | _ => exact .register found rfl

/-- The tokens of an operand write its mode and its value. -/
theorem writes_of_spells {tokens : List Token} {operand : Expression}
    (spells : Spells tokens operand) : Writes tokens operand.mode operand.inline? := by
  cases spells with
  | number value =>
    simp only [Expression.mode, Expression.inline?]
    split
    · next small => exact .small small
    · next large => exact .large (UInt16.not_le.mp large)
  | name names => exact writes_of_names names
  | top found => exact .top found
  | offset offset => exact .absolute offset
  | @base name register found general =>
    obtain ⟨index, general⟩ := Option.isSome_iff_exists.mp general
    simp only [Expression.mode, Expression.inline?, Option.bind_some, general, Option.isSome_some,
      ↓reduceIte]
    exact .indirect found general
  | @offsetFirst token value name register offset found general =>
    obtain ⟨index, general⟩ := Option.isSome_iff_exists.mp general
    simp only [Expression.mode, Expression.inline?, Option.bind_some, general]
    exact .offsetFirst offset found general
  | @registerFirst token value name register offset found general =>
    obtain ⟨index, general⟩ := Option.isSome_iff_exists.mp general
    simp only [Expression.mode, Expression.inline?, Option.bind_some, general]
    exact .registerFirst offset found general

/-! ## Instructions -/

section Instructions

variable {addresses : String → Option Nat}

/-- An operand is the one that tokens write: in their mode, with the word of their value. -/
def Stands (addresses : String → Option Nat) (tokens : List Token) (operand : Operand) : Prop :=
  ∃ value : Option Value, Writes tokens operand.mode value ∧
    value.toList.mapM (Value.wordIn addresses) = some operand.inline

/-- An operand that is written is at rest in its field. -/
theorem Expression.atRest_operandIn {expression : Expression} {slot : Slot} {operand : Operand}
    (found : expression.operandIn addresses slot = some operand) : operand.AtRest slot := by
  have takes := length_inline_operandIn found
  obtain ⟨mode, field⟩ := mode_operandIn found
  have coded : operand.mode.Coded := mode ▸ expression.coded_mode
  unfold operandIn at found
  split at found
  · cases found
    exact ⟨field, coded, fun _ => rfl, rfl, rfl⟩
  · next value some =>
    obtain ⟨nextWord, -, rfl⟩ := Option.map_eq_some_iff.mp found
    refine ⟨field, coded, fun free => ?_, rfl, rfl⟩
    rw [some, free] at takes
    cases takes

/-- The inline word of an operand that is written is the word of its value. -/
theorem Expression.inline_operandIn {expression : Expression} {slot : Slot} {operand : Operand}
    (found : expression.operandIn addresses slot = some operand) :
    expression.inline?.toList.mapM (Value.wordIn addresses) = some operand.inline := by
  have places := mapM_inline addresses 0 slot expression
  rw [found] at places
  cases value : expression.inline? with
  | none => simpa [value] using places
  | some value' => simpa [value, wordIn_piece] using places

/-- An operand that is written is the one that its tokens write. -/
theorem stands_of_spells {tokens : List Token} {expression : Expression} {slot : Slot}
    {operand : Operand} (spells : Spells tokens expression)
    (found : expression.operandIn addresses slot = some operand) :
    Stands addresses tokens operand := by
  refine ⟨expression.inline?, ?_, Expression.inline_operandIn found⟩
  rw [(Expression.mode_operandIn found).1]
  exact writes_of_spells spells

/-- The instruction of a statement has the opcode that the mnemonic names, and it is at rest. -/
theorem atRest_instructionIn {mnemonic : String} {operands : List Expression}
    {instruction : Instruction}
    (found : instructionIn addresses mnemonic operands = some instruction) :
    instruction.AtRest ∧ instruction.mnemonic = Text.capitals mnemonic := by
  unfold instructionIn at found
  split at found
  · next opcode _ _ named =>
    obtain ⟨a, aFound, found⟩ := Option.bind_eq_some_iff.mp found
    obtain ⟨b, bFound, rfl⟩ := Option.map_eq_some_iff.mp found
    unfold Opcode.ofMnemonic? at named
    have same := List.find?_some named
    exact ⟨⟨Expression.atRest_operandIn aFound, Expression.atRest_operandIn bFound⟩,
      eq_of_beq same⟩
  · next named =>
    obtain ⟨a, aFound, rfl⟩ := Option.map_eq_some_iff.mp found
    unfold SpecialOpcode.ofMnemonic? at named
    split at named
    · next same => cases named; exact ⟨Expression.atRest_operandIn aFound, (eq_of_beq same).symm⟩
    · cases named
  · cases found

/-- The operands of an instruction are in order the ones that are written. -/
theorem stands_instructionIn {mnemonic : String} {operands : List Expression}
    {instruction : Instruction} {segments : List (List Token)}
    (wrote : List.Forall₂ Spells segments operands)
    (found : instructionIn addresses mnemonic operands = some instruction) :
    List.Forall₂ (Stands addresses) segments instruction.operands := by
  unfold instructionIn at found
  split at found
  · obtain ⟨a, aFound, found⟩ := Option.bind_eq_some_iff.mp found
    obtain ⟨b, bFound, rfl⟩ := Option.map_eq_some_iff.mp found
    cases wrote with
    | cons first wrote =>
      cases wrote with
      | cons second wrote =>
        cases wrote
        exact .cons (stands_of_spells first aFound) (.cons (stands_of_spells second bFound) .nil)
  · obtain ⟨a, aFound, rfl⟩ := Option.map_eq_some_iff.mp found
    cases wrote with
    | cons first wrote =>
      cases wrote
      exact .cons (stands_of_spells first aFound) .nil
  · cases found

end Instructions

/-! ## Programs -/

/-- Statements are placed one part behind the other. -/
theorem Layout.placeAll_append (layout : Layout) (before after : List Statement) :
    layout.placeAll (before ++ after) =
      (layout.placeAll before).bind fun middle => middle.placeAll after := by
  induction before generalizing layout with
  | nil => rfl
  | cons statement before ih =>
    rw [List.cons_append, placeAll, placeAll]
    cases layout.place statement with
    | error => rfl
    | ok middle => exact ih middle

/-- A statement that is placed takes as many words as its size says. -/
theorem Layout.size_place {layout grown : Layout} {statement : Statement}
    (placed : layout.place statement = .ok grown) :
    grown.pieces.size = layout.pieces.size + statement.size := by
  obtain ⟨pieces, encoded, grows⟩ := grown_place placed
  rw [← Array.length_toList, grows.places, List.length_append, Array.length_toList,
    Statement.length_encode encoded]

/-- Statements that are placed take as many words as their sizes say. -/
theorem Layout.size_placeAll {layout grown : Layout} {statements : List Statement}
    (placed : layout.placeAll statements = .ok grown) :
    grown.pieces.size = layout.pieces.size + extent statements := by
  induction statements generalizing layout with
  | nil => cases placed; simp [extent]
  | cons statement statements ih =>
    unfold placeAll at placed
    cases here : layout.place statement with
    | error => rw [here] at placed; cases placed
    | ok middle =>
      rw [here] at placed
      have whole : extent (statement :: statements) = statement.size + extent statements := by
        simp [extent]
      rw [ih placed, size_place here, whole, Nat.add_assoc]

/-- A statement among others starts behind the words of those in front of it. -/
theorem exists_place_of_encode {before after : List Statement} {written : Statement}
    {words : List Word} (assembled : encode (before ++ written :: after) = .ok words) :
    ∃ start finish, Layout.placeAll {} before = .ok start ∧ start.place written = .ok finish ∧
      start.pieces.size = extent before ∧
      finish.pieces.size = start.pieces.size + written.size := by
  rw [encode_eq_resolve] at assembled
  rw [Layout.placeAll_append] at assembled
  cases first : Layout.placeAll {} before with
  | error => rw [first] at assembled; cases assembled
  | ok start =>
    rw [first] at assembled
    cases second : start.place written with
    | error => simp [Except.bind, Layout.placeAll, second] at assembled
    | ok finish =>
      exact ⟨start, finish, rfl, second, by simpa using Layout.size_placeAll first,
        Layout.size_place second⟩

/-- Behind the words of the statements in front of it stand the words of a statement. -/
theorem drop_extent_of_encode {before after : List Statement} {written : Statement}
    {words : List Word} (assembled : encode (before ++ written :: after) = .ok words) :
    ∃ part following,
      written.wordsIn (addressIn (before ++ written :: after)) = some part ∧
      words.drop (extent before) = part ++ following := by
  obtain ⟨-, -, found⟩ := encode_eq_ok_iff.mp assembled
  obtain ⟨parts, each, rfl⟩ := Option.map_eq_some_iff.mp found
  rw [List.mapM_append, List.mapM_cons] at each
  obtain ⟨first, firstFound, each⟩ := Option.bind_eq_some_iff.mp each
  obtain ⟨rest, each, last⟩ := Option.bind_eq_some_iff.mp each
  obtain ⟨part, partFound, each⟩ := Option.bind_eq_some_iff.mp each
  obtain ⟨others, -, made⟩ := Option.bind_eq_some_iff.mp each
  cases made
  cases last
  have lengths : first.map List.length = before.map Statement.size :=
    map_length_of_forall₂
      ((mapM_eq_some_iff.mp firstFound).imp fun _ _ found => Statement.length_wordsIn found)
  have start : extent before = first.flatten.length := by
    rw [extent, ← lengths, List.length_flatten]
  refine ⟨part, others.flatten, partFound, ?_⟩
  rw [start, List.flatten_append, List.flatten_cons, List.drop_left]

/-- Where an instruction stands in a program, it is decoded as it is written: the opcode is the one
that its mnemonic names in any letter case, its operands have in their order the modes that their
tokens write, with the words of their values, and its size is the number of words that it takes in
the program. -/
theorem decoded_of_encode {before after : List Statement} {written : Statement}
    {words : List Word} {mnemonic : String} {operands : List Expression} {line : Nat}
    {tokens : List Token} (assembled : encode (before ++ written :: after) = .ok words)
    (parsed : statement line tokens = .ok written)
    (body : written.body = some (.instruction mnemonic operands)) :
    ∃ start finish front segments instruction,
      Layout.placeAll {} before = .ok start ∧ start.place written = .ok finish ∧
      tokens = front ++ .name mnemonic :: List.intercalate [.comma] segments ∧
      Labels front written.label ∧
      Instruction.ofWords? (words.drop start.pieces.size) = some instruction ∧
      instruction.mnemonic = Text.capitals mnemonic ∧
      List.Forall₂ (Stands (addressIn (before ++ written :: after))) segments
        instruction.operands ∧
      start.pieces.size + instruction.size = finish.pieces.size := by
  obtain ⟨start, finish, placedBefore, placed, starts, finishes⟩ := exists_place_of_encode assembled
  obtain ⟨front, segments, same, labels, wrote⟩ := tokens_of_instruction parsed body
  obtain ⟨part, following, found, behind⟩ := drop_extent_of_encode assembled
  have size : written.size = 1 + operands.countP fun operand => operand.inline?.isSome := by
    rw [Statement.size, body]
  rw [Statement.wordsIn, body] at found
  obtain ⟨instruction, made, rfl⟩ := Option.map_eq_some_iff.mp found
  obtain ⟨rest, opcode⟩ := atRest_instructionIn made
  have decoded := Instruction.ofWords?_words_append rest following
  exact ⟨start, finish, front, segments, instruction, placedBefore, placed, same, labels,
    by rw [starts, behind, decoded], opcode, stands_instructionIn wrote made,
    by rw [finishes, size, size_instructionIn made]⟩

/-- The tokens of `loop: set [a+loop], 32`. -/
def indexedLoop : List Token :=
  [.name "loop", .colon, .name "set", .openBracket, .name "a", .plus, .name "loop", .closeBracket,
    .comma, .number 32]

/-- The statement that these tokens make on line 2. -/
def indexedLoopStatement : Statement :=
  ⟨2, some "loop", some (.instruction "set"
    [.indirect (some (.label "loop")) (some .a), .immediate (.number 32)])⟩

/-- Behind two characters and in front of a jump to it, the instruction is found. -/
theorem decoded_indexedLoop :
    statement 2 indexedLoop = .ok indexedLoopStatement ∧
    ∃ instruction, Instruction.ofWords? [0x7D01, 2, 0x20, 0x7C10, 2] = some instruction ∧
      instruction.mnemonic = "SET" ∧ instruction.size = 3 := by
  have listed : operands (indexedLoop.drop 3) =
      .ok [.indirect (some (.label "loop")) (some .a), .immediate (.number 32)] :=
    operands_eq_ok_iff.mpr ⟨[(indexedLoop.drop 3).take 5, [.number 32]], rfl,
      .cons (.registerFirst (.label (by decide))
        (show Register.ofName? "a" = some .a by decide) rfl) (.cons (.number 32) .nil)⟩
  have parsed : statement 2 indexedLoop = .ok indexedLoopStatement := by
    have other : Text.capitals "set" ≠ "DAT" := by decide
    have bodied : body (indexedLoop.drop 2) = .ok indexedLoopStatement.body := by
      rw [show indexedLoop.drop 2 = .name "set" :: indexedLoop.drop 3 from rfl, body, if_neg other,
        listed]
      rfl
    rw [statement, show labelled indexedLoop = .ok (some "loop", indexedLoop.drop 2) from rfl]
    simp only [bind, Except.bind, bodied]
    rfl
  have assembled : encode ([⟨1, none, some (.data [.text "Hi"])⟩] ++ indexedLoopStatement ::
      [⟨3, none, some (.instruction "JSR" [.immediate (.label "loop")])⟩]) =
      .ok [0x48, 0x69, 0x7D01, 2, 0x20, 0x7C10, 2] := by cbv
  obtain ⟨start, finish, front, segments, instruction, before, placed, -, -, found, opcode, -,
    size⟩ := decoded_of_encode assembled parsed rfl
  have starts : start.pieces.size = 2 := Layout.size_placeAll before
  have finishes : finish.pieces.size = start.pieces.size + 3 := Layout.size_place placed
  rw [starts] at found
  exact ⟨parsed, instruction, found, opcode, by omega⟩

end Dcpu16.Source
