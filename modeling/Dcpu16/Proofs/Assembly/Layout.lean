import Dcpu16.Proofs.Traversal
import Dcpu16.Source.Assembler

/-!
# Layouts

What the assembler puts into its output, said without indices: a `Layout` keeps a reference where
the output has a placeholder, so that a piece is resolved where it stands. The assembler has a draft
of the layout (`Layout.draft`): at the place of every reference there is a placeholder, and the list
of what waits has the references with their places (`pendingFrom`). Each statement keeps this
(`Assembler.statement_draft`), for whatever the labels stand. When all of them are placed, the words
that the second pass has gone over are resolved, and those behind are still a draft
(`Assembler.foldlM_patch`). So the program is the layout with its references resolved
(`encode_eq_resolve`).
-/
namespace Dcpu16.Source

/-! ## Pieces -/

/-- A place for one word of the program. -/
inductive Piece
  | word (word : Word)
  /-- The address of a label that is used on a line. -/
  | reference (label : String) (line : Nat)
  deriving DecidableEq

/-- The place that a value takes. -/
def Value.piece (line : Nat) : Value → Piece
  | .number value => .word value
  | .label name => .reference name line

/-- The pieces of an instruction word and the words that its operands take, in their order. -/
def instructionPieces (line : Nat) (instruction : Instruction) (words : List (Option Value)) :
    List Piece :=
  .word instruction.toWord :: (words.filterMap id).map (Value.piece line)

/-- The pieces of an instruction. -/
def encodeInstruction (line : Nat) (mnemonic : String) (operands : List Expression) :
    Except Problem (List Piece) :=
  match Opcode.ofMnemonic? mnemonic, SpecialOpcode.ofMnemonic? mnemonic with
  | some opcode, _ =>
    match operands with
    | [a, b] =>
      let (aCode, aWord) := a.encode
      let (bCode, bWord) := b.encode
      .ok (instructionPieces line (.ofCodes opcode aCode bCode) [aWord, bWord])
    | _ => .error (.wrongOperandCount (Text.capitals mnemonic) 2 operands.length)
  | none, some opcode =>
    match operands with
    | [a] =>
      let (code, word) := a.encode
      .ok (instructionPieces line (.ofCode opcode code) [word])
    | _ => .error (.wrongOperandCount (Text.capitals mnemonic) 1 operands.length)
  | none, none => .error (.unknownMnemonic mnemonic)

/-- The word of a character. -/
def encodeChar (c : Char) : Except Problem Piece :=
  if c.toNat < UInt16.size then .ok (.word (UInt16.ofNat c.toNat)) else .error (.outOfRange c.toNat)

/-- The pieces of a data value. -/
def encodeDatum (line : Nat) : Datum → Except Problem (List Piece)
  | .value value => .ok [value.piece line]
  | .text content => content.toList.mapM encodeChar

/-- The pieces of a statement. -/
def Statement.encode (statement : Statement) : Except Problem (List Piece) :=
  match statement.body with
  | none => .ok []
  | some (.instruction mnemonic operands) => encodeInstruction statement.line mnemonic operands
  | some (.data items) => (items.mapM (encodeDatum statement.line)).map List.flatten

/-- What the statements so far have put into the program. -/
structure Layout where
  /-- The places of the program, from address 0. -/
  pieces : Array Piece := #[]
  /-- The addresses of the labels. -/
  labels : Std.HashMap String Word := ∅

namespace Layout

/-- Define a label at the current address, which has to be a word. -/
def define (layout : Layout) (label : String) : Except Problem Layout :=
  match layout with
  | ⟨pieces, labels⟩ =>
    if pieces.size < UInt16.size then
      if labels.contains label then .error (.duplicateLabel label)
      else .ok ⟨pieces, labels.insert label (UInt16.ofNat pieces.size)⟩
    else .error (.outOfRange pieces.size)

/-- Append the pieces of a statement. -/
def append (layout : Layout) (statement : Statement) : Except Problem Layout :=
  match layout with
  | ⟨pieces, labels⟩ => statement.encode.map fun more => ⟨pieces ++ more.toArray, labels⟩

/-- Put a statement behind the others. Its label stands for the address of its first word. -/
def place (layout : Layout) (statement : Statement) : Except Error Layout :=
  let labelled : Except Problem Layout :=
    match statement.label with
    | none => .ok layout
    | some label => layout.define label
  match labelled.bind fun layout => layout.append statement with
  | .error problem => .error ⟨statement.line, problem⟩
  | .ok layout => .ok layout

/-- The layout of statements that stand behind the others. -/
def placeAll (layout : Layout) : List Statement → Except Error Layout
  | [] => .ok layout
  | statement :: rest =>
    match layout.place statement with
    | .error error => .error error
    | .ok layout => layout.placeAll rest

/-- The word of a piece. -/
def resolvePiece (labels : Std.HashMap String Word) : Piece → Except Error Word
  | .word word => .ok word
  | .reference label line =>
    match labels[label]? with
    | some address => .ok address
    | none => .error ⟨line, .undefinedLabel label⟩

/-- The program, in which every reference is the address of its label. -/
def resolve (layout : Layout) : Except Error (List Word) :=
  layout.pieces.toList.mapM (resolvePiece layout.labels)

end Layout

/-! ## Drafts -/

/-- The word that stands for a piece until references are resolved. -/
def Piece.draft : Piece → Word
  | .word known => known
  | .reference _ _ => 0

/-- The references of pieces of which the first is at this place. -/
def pendingFrom (place : Nat) : List Piece → List Reference
  | [] => []
  | .word _ :: pieces => pendingFrom (place + 1) pieces
  | .reference label line :: pieces => ⟨place, label, line⟩ :: pendingFrom (place + 1) pieces

/-- The assembler that has laid these pieces out. -/
def Layout.draft (layout : Layout) : Assembler where
  symbols := layout.labels
  pending := (pendingFrom 0 layout.pieces.toList).toArray
  output := layout.pieces.map Piece.draft

/-- References behind other pieces are behind their references. -/
theorem pendingFrom_append (place : Nat) (pieces more : List Piece) :
    pendingFrom place (pieces ++ more) =
      pendingFrom place pieces ++ pendingFrom (place + pieces.length) more := by
  induction pieces generalizing place with
  | nil => rfl
  | cons piece pieces ih =>
    have next : place + 1 + pieces.length = place + (piece :: pieces).length := by
      rw [List.length_cons]
      omega
    cases piece with
    | word word => rw [List.cons_append, pendingFrom, pendingFrom, ih, next]
    | reference label line =>
      rw [List.cons_append, pendingFrom, pendingFrom, ih, next, List.cons_append]

/-- What waits are the references of the pieces, each with the index of its place. -/
theorem mem_pendingFrom {place : Nat} {pieces : List Piece} {waiting : Reference} :
    waiting ∈ pendingFrom place pieces ↔ ∃ offset, waiting.index = place + offset ∧
      pieces[offset]? = some (.reference waiting.label waiting.line) := by
  induction pieces generalizing place with
  | nil => simp [pendingFrom]
  | cons piece pieces ih =>
    -- The place is that of the first piece, or one further on.
    have first_or_later : (∃ offset, waiting.index = place + offset ∧
          (piece :: pieces)[offset]? = some (.reference waiting.label waiting.line)) ↔
        (waiting.index = place ∧ piece = .reference waiting.label waiting.line) ∨
          waiting ∈ pendingFrom (place + 1) pieces := by
      rw [ih]
      constructor
      · rintro ⟨offset, index, here⟩
        cases offset with
        | zero => exact .inl ⟨index, Option.some.inj here⟩
        | succ offset => exact .inr ⟨offset, by omega, here⟩
      · intro found
        cases found with
        | inl first => exact ⟨0, first.1, congrArg some first.2⟩
        | inr later =>
          obtain ⟨offset, index, here⟩ := later
          exact ⟨offset + 1, by omega, here⟩
    rw [first_or_later]
    cases piece with
    | word known => simp [pendingFrom]
    | reference label line =>
      have same : waiting = ⟨place, label, line⟩ ↔ waiting.index = place ∧
          Piece.reference label line = .reference waiting.label waiting.line := by
        obtain ⟨index, name, used⟩ := waiting
        simp [eq_comm]
      rw [pendingFrom, List.mem_cons, same]

namespace Layout

variable {layout : Layout} {words : List Word}

/-- What waits in the draft are the references of the layout, each with the index of its place. -/
theorem mem_pending_draft {waiting : Reference} : waiting ∈ layout.draft.pending ↔
    layout.pieces[waiting.index]? = some (.reference waiting.label waiting.line) := by
  have listed : waiting ∈ layout.draft.pending ↔
      waiting ∈ pendingFrom 0 layout.pieces.toList := by
    simp [draft]
  rw [listed, mem_pendingFrom]
  simp

/-- The program has the word of a piece where the piece stands. -/
theorem getElem?_of_resolve (resolved : layout.resolve = .ok words) {index : Nat} {piece : Piece}
    (here : layout.pieces[index]? = some piece) :
    ∃ word, words[index]? = some word ∧ resolvePiece layout.labels piece = .ok word := by
  obtain ⟨length, each⟩ := List.forall₂_iff_get.mp (mapM_eq_ok_iff.mp resolved)
  obtain ⟨inside, same⟩ := Array.getElem?_eq_some_iff.mp here
  have known : index < words.length := by simpa [← length] using inside
  refine ⟨words[index], List.getElem?_eq_getElem known, ?_⟩
  rw [← same]
  exact each index (by simpa using inside) known

/-- The program ends where the pieces end. -/
theorem length_of_resolve (resolved : layout.resolve = .ok words) :
    words.length = layout.pieces.size := by
  obtain ⟨length, -⟩ := List.forall₂_iff_get.mp (mapM_eq_ok_iff.mp resolved)
  simpa using length.symm

/-- A word that waits is a placeholder in the draft, and the address of its label in the program. -/
theorem getElem?_of_mem_pending (resolved : layout.resolve = .ok words) {waiting : Reference}
    (member : waiting ∈ layout.draft.pending) :
    layout.draft.output[waiting.index]? = some 0 ∧ ∃ address,
      layout.labels[waiting.label]? = some address ∧ words[waiting.index]? = some address := by
  have here := mem_pending_draft.mp member
  obtain ⟨word, there, found⟩ := getElem?_of_resolve resolved here
  refine ⟨by simp [draft, here, Piece.draft], word, ?_, there⟩
  rw [resolvePiece] at found
  cases stands : layout.labels[waiting.label]? with
  | none => rw [stands] at found; cases found
  | some address =>
    rw [stands] at found
    exact congrArg some (Except.ok.inj found)

/-- A word that does not wait is in the program what it is in the draft. -/
theorem getElem?_of_not_pending (resolved : layout.resolve = .ok words) {index : Nat}
    (others : ∀ waiting ∈ layout.draft.pending, waiting.index ≠ index) :
    words[index]? = layout.draft.output[index]? := by
  cases here : layout.pieces[index]? with
  | none =>
    have behind : words.length ≤ index := by
      rw [length_of_resolve resolved]
      exact Array.getElem?_eq_none_iff.mp here
    simp [draft, here, List.getElem?_eq_none behind]
  | some piece =>
    obtain ⟨word, there, found⟩ := getElem?_of_resolve resolved here
    cases piece with
    | word known =>
      have same : known = word := Except.ok.inj found
      simp [draft, here, Piece.draft, there, same]
    | reference label line =>
      have member : (⟨index, label, line⟩ : Reference) ∈ layout.draft.pending :=
        mem_pending_draft.mpr here
      exact absurd rfl (others _ member)

end Layout

namespace Assembler

/-- The assembler with pieces behind what it has. -/
def extend (assembler : Assembler) (pieces : List Piece) : Assembler where
  symbols := assembler.symbols
  pending := assembler.pending ++ (pendingFrom assembler.output.size pieces).toArray
  output := assembler.output ++ (pieces.map Piece.draft).toArray

section Extend

variable {assembler : Assembler} {line : Nat}

/-- Nothing is behind what an assembler has if no piece is. -/
@[simp] theorem extend_nil (assembler : Assembler) : assembler.extend [] = assembler := by
  simp [extend, pendingFrom]

/-- Pieces behind others. -/
@[simp] theorem extend_extend (assembler : Assembler) (pieces more : List Piece) :
    (assembler.extend pieces).extend more = assembler.extend (pieces ++ more) := by
  simp [extend, pendingFrom_append]

/-- A word is a piece. -/
theorem push_eq (assembler : Assembler) (word : Word) :
    assembler.push word = assembler.extend [.word word] := by
  simp [push, extend, pendingFrom, Piece.draft]

/-- A value is a piece. -/
theorem emit_eq (line : Nat) (assembler : Assembler) (value : Value) :
    assembler.emit line value = assembler.extend [value.piece line] := by
  cases value with
  | number word => exact assembler.push_eq word
  | label name => simp [emit, Value.piece, extend, pendingFrom, Piece.draft]

/-- Values are pieces, one behind the other. -/
theorem foldl_emit (line : Nat) (values : List Value) (assembler : Assembler) :
    values.foldl (emit line) assembler = assembler.extend (values.map (Value.piece line)) := by
  induction values generalizing assembler with
  | nil => rw [List.foldl_nil, List.map_nil, extend_nil]
  | cons value values ih => rw [List.foldl_cons, ih, emit_eq, extend_extend]; rfl

/-- An instruction word with the values of its operands has the pieces of an instruction. -/
theorem emitInstruction_eq (line : Nat) (assembler : Assembler) (instruction : Instruction)
    (values : List (Option Value)) :
    assembler.emitInstruction line instruction values =
      assembler.extend (instructionPieces line instruction values) := by
  rw [emitInstruction, foldl_emit, push_eq, extend_extend]
  rfl

/-- An instruction has its pieces, or the problem that it has without an assembler. -/
theorem instruction_eq (line : Nat) (assembler : Assembler) (mnemonic : String)
    (operands : List Expression) :
    assembler.instruction line mnemonic operands =
      (encodeInstruction line mnemonic operands).map assembler.extend := by
  unfold instruction encodeInstruction
  cases Opcode.ofMnemonic? mnemonic with
  | some opcode =>
    rcases operands with _ | ⟨a, _ | ⟨b, _ | ⟨c, rest⟩⟩⟩
    · rfl
    · rfl
    · exact congrArg Except.ok (assembler.emitInstruction_eq line _ _)
    · rfl
  | none =>
    cases SpecialOpcode.ofMnemonic? mnemonic with
    | none => rfl
    | some opcode =>
      rcases operands with _ | ⟨a, _ | ⟨b, rest⟩⟩
      · rfl
      · exact congrArg Except.ok (assembler.emitInstruction_eq line _ _)
      · rfl

/-- Items that have their pieces one by one have them one behind the other. -/
theorem foldlM_extend {α : Type} {put : Assembler → α → Except Problem Assembler}
    {pieces : α → Except Problem (List Piece)}
    (each : ∀ assembler item, put assembler item = (pieces item).map assembler.extend)
    (items : List α) (assembler : Assembler) :
    items.foldlM put assembler =
      ((items.mapM pieces).map List.flatten).map assembler.extend := by
  induction items generalizing assembler with
  | nil =>
    rw [List.mapM_nil, List.foldlM_nil]
    exact congrArg Except.ok assembler.extend_nil.symm
  | cons item items ih =>
    rw [List.foldlM_cons, List.mapM_cons, each]
    cases pieces item with
    | error problem => rfl
    | ok first =>
      show items.foldlM put (assembler.extend first) = _
      rw [ih]
      cases items.mapM pieces with
      | error problem => rfl
      | ok rest => exact congrArg Except.ok (assembler.extend_extend first rest.flatten)

/-- A character has its piece, if its code is a word. -/
theorem character_eq (assembler : Assembler) (c : Char) :
    assembler.character c = (encodeChar c).map fun piece => assembler.extend [piece] := by
  unfold character encodeChar
  split
  · exact congrArg Except.ok (assembler.push_eq _)
  · rfl

/-- A data value has its pieces. -/
theorem datum_eq (line : Nat) (assembler : Assembler) (datum : Datum) :
    assembler.datum line datum = (encodeDatum line datum).map assembler.extend := by
  cases datum with
  | value value => exact congrArg Except.ok (assembler.emit_eq line value)
  | text content =>
    have each (assembler : Assembler) (c : Char) : assembler.character c =
        ((encodeChar c).map fun piece => [piece]).map assembler.extend := by
      rw [character_eq]
      cases encodeChar c <;> rfl
    rw [Assembler.datum, foldlM_extend each, mapM_singleton]
    rfl

/-- What a statement holds has its pieces. -/
theorem body_eq (assembler : Assembler) (statement : Statement) :
    assembler.body statement.line statement.body = statement.encode.map assembler.extend := by
  obtain ⟨line, label, held⟩ := statement
  rcases held with _ | ⟨mnemonic, operands⟩ | items
  · exact congrArg Except.ok assembler.extend_nil.symm
  · exact assembler.instruction_eq line mnemonic operands
  · exact foldlM_extend (datum_eq line) items assembler

end Extend

/-! ## The first pass -/

/-- The assembler has a draft of the layout, with the pieces of a statement behind the others. -/
theorem extend_draft (layout : Layout) (pieces : List Piece) :
    layout.draft.extend pieces =
      Layout.draft ⟨layout.pieces ++ pieces.toArray, layout.labels⟩ := by
  simp [extend, Layout.draft, pendingFrom_append]

/-- A label is defined in the draft as in the layout. -/
theorem define_draft (layout : Layout) (label : String) :
    layout.draft.define label = (layout.define label).map Layout.draft := by
  obtain ⟨pieces, labels⟩ := layout
  simp only [Layout.draft, define, Layout.define, Array.size_map]
  split_ifs <;> rfl

/-- A statement is put behind the others in the draft as in the layout. -/
theorem statement_draft (layout : Layout) (statement : Statement) :
    layout.draft.statement statement = (layout.place statement).map Layout.draft := by
  have appends (layout : Layout) :
      layout.draft.body statement.line statement.body =
        (layout.append statement).map Layout.draft := by
    rw [body_eq, Layout.append]
    cases statement.encode with
    | error problem => rfl
    | ok pieces => exact congrArg Except.ok (extend_draft layout pieces)
  have goes (labelled : Except Problem Layout) :
      ((labelled.map Layout.draft).bind fun assembler =>
        assembler.body statement.line statement.body) =
      (labelled.bind fun layout => layout.append statement).map Layout.draft := by
    cases labelled with
    | error problem => rfl
    | ok layout => exact appends layout
  unfold Assembler.statement Layout.place
  cases statement.label with
  | none =>
    have step := appends layout
    simp only [Except.bind, step]
    cases layout.append statement <;> rfl
  | some label =>
    have step := goes (layout.define label)
    rw [← define_draft] at step
    simp only [step]
    cases (layout.define label).bind fun layout => layout.append statement <;> rfl

/-- Statements are put behind the others in the draft as in the layout. -/
theorem foldlM_statement (statements : List Statement) (layout : Layout) :
    statements.foldlM statement layout.draft = (layout.placeAll statements).map Layout.draft := by
  induction statements generalizing layout with
  | nil => rfl
  | cons statement statements ih =>
    rw [List.foldlM_cons, statement_draft, Layout.placeAll]
    cases layout.place statement with
    | error error => rfl
    | ok layout => exact ih layout

/-! ## The second pass -/

/-- The second pass puts the words of pieces in the place of their draft, from left to right: the
words in front of those that it has yet to go over are done. -/
theorem foldlM_patch (labels : Std.HashMap String Word) (pieces : List Piece) (done : List Word) :
    (pendingFrom done.length pieces).foldlM (patch labels)
        (done ++ pieces.map Piece.draft).toArray =
      (pieces.mapM (Layout.resolvePiece labels)).map fun words => (done ++ words).toArray := by
  induction pieces generalizing done with
  | nil => rfl
  | cons piece pieces ih =>
    -- What has been done grows by the word of the first piece.
    have rest (word : Word) := ih (done ++ [word])
    simp only [List.length_append, List.length_singleton, List.append_assoc,
      List.singleton_append] at rest
    cases piece with
    | word known =>
      rw [pendingFrom, List.map_cons, Piece.draft, rest, List.mapM_cons]
      cases pieces.mapM (Layout.resolvePiece labels) <;> rfl
    | reference label line =>
      have patched (address : Word) :
          (done ++ 0 :: pieces.map Piece.draft).toArray.setIfInBounds done.length address =
            (done ++ address :: pieces.map Piece.draft).toArray := by
        simp
      rw [pendingFrom, List.map_cons, Piece.draft, List.foldlM_cons, List.mapM_cons, patch,
        Layout.resolvePiece]
      cases labels[label]? with
      | none => rfl
      | some address =>
        show (pendingFrom (done.length + 1) pieces).foldlM (patch labels) _ = _
        rw [patched, rest]
        cases pieces.mapM (Layout.resolvePiece labels) <;> rfl

/-- The second pass resolves the draft of a layout to the words of the layout. -/
theorem resolve_draft (layout : Layout) :
    layout.draft.resolve.map Array.toList = layout.resolve := by
  have patched := foldlM_patch layout.labels layout.pieces.toList []
  have output : layout.draft.output = (layout.pieces.toList.map Piece.draft).toArray := by
    rw [← Array.toList_map, Array.toArray_toList]
    rfl
  have resolves : layout.draft.resolve =
      (pendingFrom 0 layout.pieces.toList).foldlM (patch layout.labels) layout.draft.output := rfl
  simp only [List.length_nil, List.nil_append] at patched
  rw [resolves, output, patched, Layout.resolve]
  cases layout.pieces.toList.mapM (Layout.resolvePiece layout.labels) <;> rfl

/-- The first pass goes from the start to a draft. -/
theorem foldlM_statement_start (statements : List Statement) :
    statements.foldlM statement {} = (Layout.placeAll {} statements).map Layout.draft := by
  have start : Layout.draft {} = {} := by simp [Layout.draft, pendingFrom]
  rw [← foldlM_statement, start]

end Assembler

/-- A program is a layout in which every reference is the address of its label. -/
theorem encode_eq_resolve (statements : List Statement) :
    encode statements = (Layout.placeAll {} statements).bind Layout.resolve := by
  rw [encode, Assembler.foldlM_statement_start]
  cases Layout.placeAll {} statements with
  | error error => rfl
  | ok layout => exact Assembler.resolve_draft layout

end Dcpu16.Source
