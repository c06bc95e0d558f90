import Std.Data.HashMap.Lemmas
import Dcpu16.Proofs.Assembly.Layout
import Dcpu16.Proofs.Assembly.Meaning

/-!
# Assembling at once

A layout collects pieces in one pass and replaces references at its end. What comes out is what
statements mean with the addresses of all labels known beforehand: `Source.encode_eq_ok_iff` says
for which statements there is a program, and that it is the words of the statements one behind the
other. The pass keeps that the places taken so far are the sizes of the statements placed
(`Layout.placeAll_ok`), whatever the labels are worth. The output of the first pass and the program
differ in the placeholders alone (`exists_patched_of_encode`).
-/
namespace Dcpu16.Source

/-! ## Codes -/

/-- The code of an operand is the code of the mode it is written in. -/
theorem Expression.encode_eq (expression : Expression) :
    expression.encode = (expression.mode.code, expression.inline?) := by
  cases expression with
  | register register => cases register <;> rfl
  | pop | peek | push => rfl
  | immediate value =>
    cases value with
    | number value =>
      simp only [encode, mode, inline?]
      split
      · next le =>
        have bound := UInt16.le_iff_toNat_le.mp le
        have kept : value &&& 0x1F = value := by
          apply UInt16.toNat_inj.mp
          have low : value.toNat &&& 31 = value.toNat % 32 := Nat.and_two_pow_sub_one_eq_mod _ 5
          rw [UInt16.toNat_and]
          exact low.trans (Nat.mod_eq_of_lt (Nat.lt_succ_of_le bound))
        simp only [Mode.code, kept]
      · rfl
    | label => rfl
  | indirect offset base =>
    cases base with
    | none => cases offset <;> rfl
    | some register => cases offset <;> cases register <;> rfl

/-! ## Pieces -/

/-- The word of a place, with the addresses of labels given. -/
def Piece.wordIn (addresses : String → Option Nat) : Piece → Option Word
  | .word known => some known
  | .reference label _ => (addresses label).map UInt16.ofNat

section Pieces

variable {addresses : String → Option Nat}

/-- The place that a value takes has the word of the value. -/
theorem wordIn_piece (line : Nat) (value : Value) :
    (value.piece line).wordIn addresses = value.wordIn addresses := by
  cases value <;> rfl

/-- An operand has the mode it is written in, in its field. -/
theorem Expression.mode_operandIn {expression : Expression} {slot : Slot} {operand : Operand}
    (found : expression.operandIn addresses slot = some operand) :
    operand.mode = expression.mode ∧ operand.slot = slot := by
  unfold operandIn at found
  split at found
  · cases found
    exact ⟨rfl, rfl⟩
  · obtain ⟨nextWord, -, rfl⟩ := Option.map_eq_some_iff.mp found
    exact ⟨rfl, rfl⟩

/-- The code of an operand and the operand itself fill their field alike. -/
theorem Expression.packed_operandIn {expression : Expression} {slot : Slot} {operand : Operand}
    (found : expression.operandIn addresses slot = some operand) :
    (Operand.ofCode expression.encode.1 slot).packed = operand.packed := by
  obtain ⟨mode, field⟩ := mode_operandIn found
  simp only [Operand.packed, Operand.code, Operand.ofCode, expression.encode_eq,
    Mode.ofCode_code expression.coded_mode, mode, field]

/-- The place for the value of an operand has its inline word. -/
theorem mapM_inline (addresses : String → Option Nat) (line : Nat) (slot : Slot)
    (expression : Expression) :
    (expression.inline?.toList.map (Value.piece line)).mapM (Piece.wordIn addresses) =
      (expression.operandIn addresses slot).map Operand.inline := by
  have takes := expression.takesWord_mode
  unfold Expression.operandIn
  cases found : expression.inline? with
  | none =>
    rw [found] at takes
    simp [Operand.inline, takes]
  | some value =>
    rw [found] at takes
    cases worth : value.wordIn addresses <;> simp [Operand.inline, takes, worth, wordIn_piece]

/-- The places of a basic instruction have its words. -/
theorem mapM_basicPieces (line : Nat) (opcode : Opcode) (a b : Expression) :
    (instructionPieces line (.ofCodes opcode a.encode.1 b.encode.1) [a.encode.2, b.encode.2]).mapM
        (Piece.wordIn addresses) =
      ((a.operandIn addresses .a).bind fun a =>
        (b.operandIn addresses .b).map fun b => .basic opcode a b).map Instruction.words := by
  have aWords := mapM_inline addresses line .a a
  have bWords := mapM_inline addresses line .b b
  have values : [a.encode.2, b.encode.2].filterMap id = a.inline?.toList ++ b.inline?.toList := by
    rw [a.encode_eq, b.encode_eq]
    cases a.inline? <;> cases b.inline? <;> rfl
  simp only [instructionPieces, values, List.map_append, List.mapM_cons, List.mapM_append, aWords,
    bWords]
  cases aFound : a.operandIn addresses .a with
  | none => rfl
  | some aOperand =>
    cases bFound : b.operandIn addresses .b with
    | none => rfl
    | some bOperand =>
      simp [Piece.wordIn, Instruction.words, Instruction.operands, Instruction.ofCodes,
        Instruction.toWord, Expression.packed_operandIn aFound,
        Expression.packed_operandIn bFound]

/-- The places of a special instruction have its words. -/
theorem mapM_specialPieces (line : Nat) (opcode : SpecialOpcode) (a : Expression) :
    (instructionPieces line (.ofCode opcode a.encode.1) [a.encode.2]).mapM
        (Piece.wordIn addresses) =
      ((a.operandIn addresses .b).map fun a => .special opcode a).map Instruction.words := by
  have words := mapM_inline addresses line .b a
  have values : [a.encode.2].filterMap id = a.inline?.toList := by
    rw [a.encode_eq]
    cases a.inline? <;> rfl
  simp only [instructionPieces, values, List.mapM_cons, words]
  cases found : a.operandIn addresses .b with
  | none => rfl
  | some operand =>
    simp [Piece.wordIn, Instruction.words, Instruction.operands, Instruction.ofCode,
      Instruction.toWord, Expression.packed_operandIn found]

/-- The places of what a mnemonic and operands say have the words of it. -/
theorem mapM_encodeInstruction (line : Nat) (mnemonic : String) (operands : List Expression) :
    (encodeInstruction line mnemonic operands).toOption.bind (List.mapM (Piece.wordIn addresses)) =
      (instructionIn addresses mnemonic operands).map Instruction.words := by
  unfold encodeInstruction instructionIn
  cases Opcode.ofMnemonic? mnemonic with
  | some opcode =>
    rcases operands with _ | ⟨a, _ | ⟨b, _ | ⟨c, rest⟩⟩⟩
    · rfl
    · rfl
    · exact mapM_basicPieces line opcode a b
    · rfl
  | none =>
    cases SpecialOpcode.ofMnemonic? mnemonic with
    | none => rfl
    | some opcode =>
      rcases operands with _ | ⟨a, _ | ⟨b, rest⟩⟩
      · rfl
      · exact mapM_specialPieces line opcode a
      · rfl

/-- The place of a character has its word. -/
theorem wordIn_encodeChar (c : Char) :
    (encodeChar c).toOption.bind (Piece.wordIn addresses) = wordOfChar c := by
  have same : c.toNat < UInt16.size ↔ c.toNat ≤ 0xFFFF := Nat.lt_succ_iff
  unfold encodeChar wordOfChar
  by_cases small : c.toNat ≤ 0xFFFF
  · rw [if_pos small, if_pos (same.mpr small)]
    rfl
  · rw [if_neg small, if_neg (fun less => small (same.mp less))]
    rfl

/-- The places of a data value have its words. -/
theorem mapM_encodeDatum (line : Nat) (datum : Datum) :
    (encodeDatum line datum).toOption.bind (List.mapM (Piece.wordIn addresses)) =
      datum.wordsIn addresses := by
  cases datum with
  | value value =>
    cases found : value.wordIn addresses <;>
      simp [encodeDatum, Datum.wordsIn, Except.toOption, wordIn_piece, found]
  | text content =>
    simp only [encodeDatum, Datum.wordsIn, toOption_mapM, mapM_bind_mapM, wordIn_encodeChar]

/-- The places of a statement have its words. -/
theorem Statement.mapM_encode (statement : Statement) (addresses : String → Option Nat) :
    statement.encode.toOption.bind (List.mapM (Piece.wordIn addresses)) =
      statement.wordsIn addresses := by
  obtain ⟨line, label, body⟩ := statement
  match body with
  | none => rfl
  | some (.instruction mnemonic operands) => exact mapM_encodeInstruction line mnemonic operands
  | some (.data items) =>
    simp only [encode, wordsIn, mapM_bind_flatten, mapM_encodeDatum]

end Pieces

/-! ## Sizes -/

section Sizes

variable {addresses : String → Option Nat}

/-- An operand takes a word exactly when its value has one. -/
theorem Expression.length_inline_operandIn {expression : Expression} {slot : Slot}
    {operand : Operand} (found : expression.operandIn addresses slot = some operand) :
    operand.mode.takesWord = expression.inline?.isSome := by
  rw [(mode_operandIn found).1, expression.takesWord_mode]

/-- An instruction that is written has the size of its statement. -/
theorem size_instructionIn {mnemonic : String} {operands : List Expression}
    {instruction : Instruction}
    (found : instructionIn addresses mnemonic operands = some instruction) :
    instruction.size = 1 + operands.countP fun operand => operand.inline?.isSome := by
  unfold instructionIn at found
  split at found
  · obtain ⟨a, aFound, found⟩ := Option.bind_eq_some_iff.mp found
    obtain ⟨b, bFound, rfl⟩ := Option.map_eq_some_iff.mp found
    simp only [Instruction.size, Instruction.operands, List.countP_cons, List.countP_nil,
      Expression.length_inline_operandIn aFound, Expression.length_inline_operandIn bFound]
  · obtain ⟨a, aFound, rfl⟩ := Option.map_eq_some_iff.mp found
    simp only [Instruction.size, Instruction.operands, List.countP_cons, List.countP_nil,
      Expression.length_inline_operandIn aFound]
  · cases found

/-- A data value has as many words as its size says. -/
theorem Datum.length_wordsIn {datum : Datum} {words : List Word}
    (found : datum.wordsIn addresses = some words) : words.length = datum.size := by
  cases datum with
  | value value =>
    obtain ⟨word, -, rfl⟩ := Option.map_eq_some_iff.mp found
    rfl
  | text content =>
    rw [← (mapM_eq_some_iff.mp found).length_eq, String.length_toList]
    rfl

/-- A statement has as many words as its size says. -/
theorem Statement.length_wordsIn {statement : Statement} {words : List Word}
    (found : statement.wordsIn addresses = some words) : words.length = statement.size := by
  unfold wordsIn at found
  unfold size
  split at found
  · cases found
    rfl
  · obtain ⟨instruction, written, rfl⟩ := Option.map_eq_some_iff.mp found
    rw [Instruction.length_words, size_instructionIn written]
  · obtain ⟨parts, each, rfl⟩ := Option.map_eq_some_iff.mp found
    rw [List.length_flatten, map_length_of_forall₂
      ((mapM_eq_some_iff.mp each).imp fun _ _ found => Datum.length_wordsIn found)]

end Sizes

/-- A statement has as many places as its size says. -/
theorem Statement.length_encode {statement : Statement} {pieces : List Piece}
    (encoded : statement.encode = .ok pieces) : pieces.length = statement.size := by
  -- The size does not depend on the labels, so all of them may stand for address 0.
  have total (piece : Piece) : ∃ word, piece.wordIn (fun _ => some 0) = some word := by
    cases piece <;> exact ⟨_, rfl⟩
  obtain ⟨words, found⟩ := exists_mapM_eq_some total pieces
  have known := statement.mapM_encode fun _ => some 0
  rw [encoded] at known
  rw [(mapM_eq_some_iff.mp found).length_eq]
  exact length_wordsIn (known.symm.trans found)

/-! ## Addresses -/

/-- The first statement decides on its own label and is in front of all other labels. -/
theorem addressIn_cons (statement : Statement) (statements : List Statement) (name : String) :
    addressIn (statement :: statements) name =
      if statement.label = some name then some 0
      else (addressIn statements name).map (statement.size + ·) := by
  unfold addressIn
  rw [List.findIdx?_cons]
  by_cases defines : statement.label = some name
  · simp [defines, extent]
  · simp [defines, extent, Function.comp_def]

/-- Only labels that are defined have addresses. -/
theorem mem_labels_of_addressIn {statements : List Statement} {name : String} {address : Nat}
    (found : addressIn statements name = some address) :
    name ∈ statements.filterMap Statement.label := by
  obtain ⟨position, found, -⟩ := Option.map_eq_some_iff.mp found
  obtain ⟨inside, defines, -⟩ := List.findIdx?_eq_some_iff_getElem.mp found
  exact List.mem_filterMap.mpr ⟨_, List.getElem_mem inside, eq_of_beq defines⟩

/-! ## Layouts -/

namespace Layout

/-- The layout has a place for everything the statements define: no label is defined twice, and
each label stands at an address that is a word. -/
structure Fits (layout : Layout) (statements : List Statement) : Prop where
  distinct : (statements.filterMap Statement.label).Nodup
  fresh : ∀ name ∈ statements.filterMap Statement.label, name ∉ layout.labels
  bounded : ∀ name address, addressIn statements name = some address →
    layout.pieces.size + address ≤ 0xFFFF

/-- The second layout is the first one with pieces of statements behind it. -/
structure Grown (layout : Layout) (statements : List Statement) (pieces : List Piece)
    (grown : Layout) : Prop where
  places : grown.pieces.toList = layout.pieces.toList ++ pieces
  labels : ∀ name, grown.labels[name]? = (layout.labels[name]?).or
    ((addressIn statements name).map fun address => .ofNat (layout.pieces.size + address))

/-- A label can be defined here: it is new, and the current address is a word. -/
def Definable (layout : Layout) (name : String) : Prop :=
  name ∉ layout.labels ∧ layout.pieces.size ≤ 0xFFFF

/-- The layout with a label for the current address. -/
def labelledBy (layout : Layout) : Option String → Std.HashMap String Word
  | none => layout.labels
  | some name => layout.labels.insert name (.ofNat layout.pieces.size)

/-- A statement is placed by defining its label and appending its pieces, and fails on its line. -/
theorem place_eq (layout : Layout) (statement : Statement) :
    layout.place statement = ((statement.label.elim (.ok layout) layout.define).bind fun layout =>
      layout.append statement).mapError (Error.mk statement.line) := by
  unfold place
  cases statement.label with
  | none =>
    simp only [Option.elim_none, Except.bind]
    cases layout.append statement <;> rfl
  | some label =>
    simp only [Option.elim_some]
    cases (layout.define label).bind fun layout => layout.append statement <;> rfl

/-- A statement is placed, and then those behind it. -/
theorem placeAll_cons (layout : Layout) (statement : Statement) (rest : List Statement) :
    layout.placeAll (statement :: rest) =
      (layout.place statement).bind fun layout => layout.placeAll rest := by
  rw [placeAll]
  cases layout.place statement <;> rfl

/-- All that placing a statement can do: its label is defined, and its pieces are appended. -/
theorem place_eq_ok_iff {layout grown : Layout} {statement : Statement} :
    layout.place statement = .ok grown ↔
      (∀ name, statement.label = some name → layout.Definable name) ∧
      ∃ pieces, statement.encode = .ok pieces ∧
        ⟨layout.pieces ++ pieces.toArray, layout.labelledBy statement.label⟩ = grown := by
  obtain ⟨places, labels⟩ := layout
  have small : places.size < UInt16.size ↔ places.size ≤ 0xFFFF := Nat.lt_succ_iff
  unfold place
  cases label : statement.label with
  | none =>
    cases encoded : statement.encode <;>
      simp [append, encoded, Except.map, Except.bind, labelledBy]
  | some name =>
    by_cases fits : places.size ≤ 0xFFFF
    · by_cases known : name ∈ labels
      · simp [define, small, fits, known, Except.bind, Definable]
      · cases encoded : statement.encode <;>
          simp [define, small, fits, known, append, encoded, Except.map, Except.bind, Definable,
            labelledBy]
    · simp [define, small, fits, Except.bind, Definable]

/-- A statement that is placed grows the layout by its pieces. -/
theorem grown_place {layout grown : Layout} {statement : Statement}
    (placed : layout.place statement = .ok grown) :
    ∃ pieces, statement.encode = .ok pieces ∧ layout.Grown [statement] pieces grown := by
  obtain ⟨definable, pieces, encoded, rfl⟩ := place_eq_ok_iff.mp placed
  refine ⟨pieces, encoded, by simp, fun name => ?_⟩
  rw [addressIn_cons]
  cases label : statement.label with
  | none => simp [labelledBy, addressIn]
  | some own =>
    obtain ⟨fresh, -⟩ := definable own label
    simp only [labelledBy, Std.HashMap.getElem?_insert, beq_iff_eq, Option.some.injEq]
    by_cases same : own = name
    · subst same
      simp [fresh]
    · simp [same, addressIn]

/-- What grows twice has grown by all that has been added. -/
theorem Grown.trans {layout middle grown : Layout} {statement : Statement}
    {statements : List Statement} {first rest : List Piece}
    (here : layout.Grown [statement] first middle) (length : first.length = statement.size)
    (there : middle.Grown statements rest grown) :
    layout.Grown (statement :: statements) (first ++ rest) grown := by
  have size : middle.pieces.size = layout.pieces.size + statement.size := by
    rw [← Array.length_toList, here.places, List.length_append, length, Array.length_toList]
  constructor
  · rw [there.places, here.places, List.append_assoc]
  · intro name
    rw [there.labels, here.labels, addressIn_cons, addressIn_cons]
    by_cases defines : statement.label = some name
    · cases layout.labels[name]? <;> simp [defines]
    · cases layout.labels[name]? <;>
        simp [defines, addressIn, size, Function.comp_def, Nat.add_assoc]

/-- Where statements have a place, the label of the first can be defined. -/
theorem Fits.definable {layout : Layout} {statement : Statement} {statements : List Statement}
    (fits : layout.Fits (statement :: statements)) {name : String}
    (defines : statement.label = some name) : layout.Definable name :=
  ⟨fits.fresh name (by simp [defines]), fits.bounded name 0 (by simp [addressIn_cons, defines])⟩

/-- There is a place for statements exactly if there is one for the first, and then one for the
others. -/
theorem fits_cons_iff {layout middle : Layout} {statement : Statement}
    {statements : List Statement} {pieces : List Piece}
    (here : layout.Grown [statement] pieces middle) (length : pieces.length = statement.size) :
    layout.Fits (statement :: statements) ↔
      (∀ name, statement.label = some name → layout.Definable name) ∧ middle.Fits statements := by
  have size : middle.pieces.size = layout.pieces.size + statement.size := by
    rw [← Array.length_toList, here.places, List.length_append, length, Array.length_toList]
  have known (name : String) :
      name ∈ middle.labels ↔ name ∈ layout.labels ∨ statement.label = some name := by
    rw [← Std.HashMap.isSome_getElem?_iff_mem, here.labels, addressIn_cons,
      ← Std.HashMap.isSome_getElem?_iff_mem]
    by_cases defines : statement.label = some name <;> simp [defines, addressIn]
  constructor
  · intro fits
    obtain ⟨distinct, fresh, bounded⟩ := fits
    have apart (name : String) (later : name ∈ statements.filterMap Statement.label) :
        statement.label ≠ some name := by
      intro defines
      rw [List.filterMap_cons_some defines, List.nodup_cons] at distinct
      exact distinct.1 later
    refine ⟨fun _ => Fits.definable ⟨distinct, fresh, bounded⟩, ?_, fun name later => ?_,
      fun name address found => ?_⟩
    · exact distinct.sublist ((List.sublist_cons_self _ _).filterMap _)
    · rintro inside
      rcases (known name).mp inside with old | own
      · exact fresh name (by simpa using Or.inr (by simpa using later)) old
      · exact apart name later own
    · have later := mem_labels_of_addressIn found
      have bound := bounded name (statement.size + address)
        (by simp [addressIn_cons, apart name later, found])
      omega
  · rintro ⟨definable, distinct, fresh, bounded⟩
    refine ⟨?_, fun name member => ?_, fun name address found => ?_⟩
    · cases label : statement.label with
      | none => rwa [List.filterMap_cons_none label]
      | some own =>
        rw [List.filterMap_cons_some label, List.nodup_cons]
        exact ⟨fun later => fresh own later ((known own).mpr (.inr label)), distinct⟩
    · rcases List.mem_filterMap.mp member with ⟨defining, place, defines⟩
      rcases List.mem_cons.mp place with rfl | later
      · exact (definable name defines).1
      · intro old
        exact fresh name (List.mem_filterMap.mpr ⟨defining, later, defines⟩)
          ((known name).mpr (.inl old))
    · rw [addressIn_cons] at found
      split at found
      · next defines =>
        cases found
        exact (definable name defines).2
      · obtain ⟨behind, there, rfl⟩ := Option.map_eq_some_iff.mp found
        have bound := bounded name behind there
        omega

/-- Statements that are placed had a place, have pieces, and grow the layout by these. -/
theorem placeAll_ok {statements : List Statement} {layout grown : Layout}
    (placed : layout.placeAll statements = .ok grown) :
    layout.Fits statements ∧ ∃ lists, statements.mapM Statement.encode = .ok lists ∧
      layout.Grown statements lists.flatten grown := by
  induction statements generalizing layout with
  | nil =>
    cases placed
    exact ⟨⟨List.nodup_nil, by simp, by simp [addressIn]⟩, [], rfl, by simp, by simp [addressIn]⟩
  | cons statement statements ih =>
    unfold placeAll at placed
    cases here : layout.place statement with
    | error => rw [here] at placed; cases placed
    | ok middle =>
      rw [here] at placed
      obtain ⟨fits, lists, encoded, behind⟩ := ih placed
      obtain ⟨definable, -⟩ := place_eq_ok_iff.mp here
      obtain ⟨pieces, first, grown⟩ := grown_place here
      have length := Statement.length_encode first
      refine ⟨(fits_cons_iff grown length).mpr ⟨definable, fits⟩, pieces :: lists, ?_, ?_⟩
      · rw [List.mapM_cons, first, encoded]
        rfl
      · exact grown.trans length behind

/-- Statements that have a place and pieces are placed. -/
theorem exists_placeAll {statements : List Statement} {layout : Layout}
    (fits : layout.Fits statements) {lists : List (List Piece)}
    (encoded : statements.mapM Statement.encode = .ok lists) :
    ∃ grown, layout.placeAll statements = .ok grown := by
  induction statements generalizing layout lists with
  | nil => exact ⟨layout, rfl⟩
  | cons statement statements ih =>
    rw [List.mapM_cons] at encoded
    cases first : statement.encode with
    | error => rw [first] at encoded; cases encoded
    | ok pieces =>
      cases rest : statements.mapM Statement.encode with
      | error => rw [first, rest] at encoded; cases encoded
      | ok others =>
        obtain ⟨middle, here⟩ : ∃ middle, layout.place statement = .ok middle :=
          ⟨_, place_eq_ok_iff.mpr ⟨fun _ => fits.definable, pieces, first, rfl⟩⟩
        obtain ⟨same, encodedSame, grown⟩ := grown_place here
        obtain ⟨-, fits⟩ := (fits_cons_iff grown (Statement.length_encode encodedSame)).mp fits
        obtain ⟨last, placed⟩ := ih fits rest
        exact ⟨last, by simp only [placeAll, here, placed]⟩

/-- The word of a place, once the addresses of labels are known. -/
theorem toOption_resolvePiece {labels : Std.HashMap String Word} {addresses : String → Option Nat}
    (known : ∀ name, labels[name]? = (addresses name).map UInt16.ofNat) (piece : Piece) :
    (resolvePiece labels piece).toOption = piece.wordIn addresses := by
  cases piece with
  | word => rfl
  | reference label line =>
    simp only [resolvePiece, Piece.wordIn, ← known]
    cases labels[label]? <;> rfl

end Layout

/-! ## Programs -/

/-- There is a program for statements exactly if no label is defined twice, each label stands at an
address that is a word, and each statement has words when the labels stand for these addresses. The
program is then the words of the statements in their order. -/
theorem encode_eq_ok_iff {statements : List Statement} {words : List Word} :
    encode statements = .ok words ↔
      (statements.filterMap Statement.label).Nodup ∧
      (∀ name address, addressIn statements name = some address → address ≤ 0xFFFF) ∧
      (statements.mapM (Statement.wordsIn (addressIn statements))).map List.flatten =
        some words := by
  have together :=
    mapM_bind_flatten Statement.encode (Piece.wordIn (addressIn statements)) statements
  simp only [Statement.mapM_encode] at together
  have resolved {layout : Layout} {lists : List (List Piece)}
      (encoded : statements.mapM Statement.encode = .ok lists)
      (grown : Layout.Grown {} statements lists.flatten layout) :
      layout.resolve.toOption =
        (statements.mapM (Statement.wordsIn (addressIn statements))).map List.flatten := by
    have known (name : String) :
        layout.labels[name]? = (addressIn statements name).map UInt16.ofNat := by
      simpa using grown.labels name
    have places : layout.pieces.toList = lists.flatten := by simpa using grown.places
    rw [← together, encoded, Layout.resolve, places, toOption_mapM]
    simp only [Layout.toOption_resolvePiece known]
    rfl
  constructor
  · intro assembled
    rw [encode_eq_resolve] at assembled
    cases placed : Layout.placeAll {} statements with
    | error => rw [placed] at assembled; cases assembled
    | ok layout =>
      rw [placed] at assembled
      obtain ⟨fits, lists, encoded, grown⟩ := Layout.placeAll_ok placed
      refine ⟨fits.distinct, fun name address found => ?_, ?_⟩
      · simpa using fits.bounded name address found
      · rw [← resolved encoded grown, toOption_eq_some_iff]
        exact assembled
  · rintro ⟨distinct, bounded, found⟩
    have fits : Layout.Fits {} statements :=
      ⟨distinct, by simp, fun name address found => by simpa using bounded name address found⟩
    obtain ⟨pieces, mapped, -⟩ := Option.bind_eq_some_iff.mp (together.trans found)
    obtain ⟨lists, encoded, -⟩ : ∃ lists, statements.mapM Statement.encode = .ok lists ∧
        lists.flatten = pieces := by
      cases every : statements.mapM Statement.encode with
      | error => rw [every] at mapped; cases mapped
      | ok lists => rw [every] at mapped; exact ⟨lists, rfl, Option.some.inj mapped⟩
    obtain ⟨layout, placed⟩ := Layout.exists_placeAll fits encoded
    obtain ⟨-, same, encodedSame, grown⟩ := Layout.placeAll_ok placed
    rw [encode_eq_resolve, placed]
    exact toOption_eq_some_iff.mp ((resolved encodedSame grown).trans found)

/-- Where no label is defined twice, a label is the number of words in front of its definition. -/
theorem addressIn_append_cons {before after : List Statement} {statement : Statement}
    {name : String} (distinct : ((before ++ statement :: after).filterMap Statement.label).Nodup)
    (defines : statement.label = some name) :
    addressIn (before ++ statement :: after) name = some (extent before) := by
  induction before with
  | nil => simp [addressIn_cons, defines, extent]
  | cons first before ih =>
    have other : first.label ≠ some name := by
      intro same
      rw [List.cons_append, List.filterMap_cons_some same, List.nodup_cons] at distinct
      exact distinct.1 (List.mem_filterMap.mpr ⟨statement, by simp, defines⟩)
    have rest := ih (distinct.sublist ((List.sublist_cons_self _ _).filterMap _))
    rw [List.cons_append, addressIn_cons, if_neg other, rest]
    simp [extent]

/-- Every index that waits after the first pass is that of a placeholder. There the program has the
address of the label, and everywhere else the word that the first pass has put into the output. -/
theorem exists_patched_of_encode {statements : List Statement} {words : List Word}
    (assembled : encode statements = .ok words) :
    ∃ assembler, statements.foldlM Assembler.statement {} = .ok assembler ∧
      (∀ waiting ∈ assembler.pending, assembler.output[waiting.index]? = some 0 ∧
        ∃ address, addressIn statements waiting.label = some address ∧
          words[waiting.index]? = some (.ofNat address)) ∧
      ∀ index, (∀ waiting ∈ assembler.pending, waiting.index ≠ index) →
        words[index]? = assembler.output[index]? := by
  rw [encode_eq_resolve] at assembled
  cases placed : Layout.placeAll {} statements with
  | error => rw [placed] at assembled; cases assembled
  | ok layout =>
    rw [placed] at assembled
    have resolved : layout.resolve = .ok words := assembled
    obtain ⟨-, lists, -, grown⟩ := Layout.placeAll_ok placed
    have known (name : String) :
        layout.labels[name]? = (addressIn statements name).map UInt16.ofNat := by
      simpa using grown.labels name
    refine ⟨layout.draft, by rw [Assembler.foldlM_statement_start, placed]; rfl, ?_, ?_⟩
    · intro waiting member
      obtain ⟨placeholder, word, stands, there⟩ := Layout.getElem?_of_mem_pending resolved member
      rw [known] at stands
      obtain ⟨address, found, same⟩ := Option.map_eq_some_iff.mp stands
      exact ⟨placeholder, address, found, by rw [there, same]⟩
    · exact fun index others => Layout.getElem?_of_not_pending resolved others

/-- A program is the words of its statements in their order, with each label standing for the
number of words in front of its definition. A statement has as many words as its size says, each
label that is used has an address, and each address is a word. Every index that waits after the
first pass is that of a placeholder, and in its place the program has the address of the label; all
other words are those of the first pass, so no placeholder is left. -/
theorem program_eq_flatten {statements : List Statement} {words : List Word}
    (assembled : encode statements = .ok words) :
    (∃ parts, statements.mapM (Statement.wordsIn (addressIn statements)) = some parts ∧
      parts.map List.length = statements.map Statement.size ∧ words = parts.flatten) ∧
    (∀ before statement after name, statements = before ++ statement :: after →
      statement.label = some name →
      addressIn statements name = some (extent before) ∧ extent before ≤ 0xFFFF) ∧
    ∃ assembler, statements.foldlM Assembler.statement {} = .ok assembler ∧
      (∀ waiting ∈ assembler.pending, assembler.output[waiting.index]? = some 0 ∧
        ∃ address, addressIn statements waiting.label = some address ∧
          words[waiting.index]? = some (.ofNat address)) ∧
      ∀ index, (∀ waiting ∈ assembler.pending, waiting.index ≠ index) →
        words[index]? = assembler.output[index]? := by
  obtain ⟨distinct, bounded, found⟩ := encode_eq_ok_iff.mp assembled
  refine ⟨?_, ?_, exists_patched_of_encode assembled⟩
  · obtain ⟨parts, each, rfl⟩ := Option.map_eq_some_iff.mp found
    have lengths := (mapM_eq_some_iff.mp each).imp fun _ _ found => Statement.length_wordsIn found
    exact ⟨parts, each, map_length_of_forall₂ lengths, rfl⟩
  · rintro before statement after name rfl defines
    have address := addressIn_append_cons distinct defines
    exact ⟨address, bounded name _ address⟩

/-- Two labels used in front of their definitions, and again behind them: the words of
`SET [text], end`, `text: DAT "Hi", text, end` and `end:`. -/
def bothWays : List Statement :=
  [⟨1, none, some (.instruction "SET"
      [.indirect (some (.label "text")) none, .immediate (.label "end")])⟩,
    ⟨2, some "text", some (.data [.text "Hi", .value (.label "text"), .value (.label "end")])⟩,
    ⟨3, some "end", none⟩]

/-- The labels stand for 3 and 7 wherever they are used. -/
theorem program_bothWays :
    encode bothWays = .ok [0x7DE1, 3, 7, 0x48, 0x69, 3, 7] ∧
      addressIn bothWays "end" = some (extent (bothWays.take 2)) := by
  have assembled : encode bothWays = .ok [0x7DE1, 3, 7, 0x48, 0x69, 3, 7] := by cbv
  obtain ⟨-, addresses, -⟩ := program_eq_flatten assembled
  have address := addresses (bothWays.take 2) ⟨3, some "end", none⟩ [] "end" rfl rfl
  exact ⟨assembled, address.1⟩

end Dcpu16.Source
