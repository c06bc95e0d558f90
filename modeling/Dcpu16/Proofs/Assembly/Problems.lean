import Dcpu16.Proofs.Assembly.Decoded

/-!
# Problems of statements

What is wrong with statements is told without encoding them: a statement has a problem behind those
before it (`Statement.problem?`), or it refers to a label that no statement defines
(`Statement.undefined?`). The encoding fails at the first statement with a problem; only if there is
none does it fail at the first reference to a label that is not defined
(`Source.encode_eq_error_iff`).
-/
namespace Dcpu16.Source

/-! ## Bodies -/

/-- The number of operands that the instruction of a mnemonic takes. -/
def operandCount? (mnemonic : String) : Option Nat :=
  if (Opcode.ofMnemonic? mnemonic).isSome then some 2
  else if (SpecialOpcode.ofMnemonic? mnemonic).isSome then some 1
  else none

/-- The characters of a data value. -/
def Datum.characters : Datum → List Char
  | .value _ => []
  | .text content => content.toList

/-- What is wrong with an instruction: it is not known, or it takes another number of operands. -/
def instructionProblem? (mnemonic : String) (operands : List Expression) : Option Problem :=
  match operandCount? mnemonic with
  | none => some (.unknownMnemonic mnemonic)
  | some count =>
    if operands.length = count then none
    else some (.wrongOperandCount (Text.capitals mnemonic) count operands.length)

/-- What is wrong with characters: the first one whose code is too large. -/
def charactersProblem? (text : List Char) : Option Problem :=
  (text.find? fun c => decide (0x10000 ≤ c.toNat)).map fun c => .outOfRange c.toNat

/-- What is wrong with a body, wherever it stands. -/
def Body.problem? : Body → Option Problem
  | .instruction mnemonic operands => instructionProblem? mnemonic operands
  | .data items => charactersProblem? (items.flatMap Datum.characters)

/-- An instruction fails as its mnemonic and its operands say. -/
theorem failure?_encodeInstruction (line : Nat) (mnemonic : String) (operands : List Expression) :
    failure? (encodeInstruction line mnemonic operands) =
      instructionProblem? mnemonic operands := by
  unfold encodeInstruction instructionProblem?
  cases basic : Opcode.ofMnemonic? mnemonic with
  | some opcode =>
    have count : operandCount? mnemonic = some 2 := by simp [operandCount?, basic]
    rw [count]
    rcases operands with _ | ⟨a, _ | ⟨b, _ | ⟨c, rest⟩⟩⟩
    · rfl
    · rfl
    · rfl
    · simp [failure?]
  | none =>
    cases special : SpecialOpcode.ofMnemonic? mnemonic with
    | none =>
      have count : operandCount? mnemonic = none := by simp [operandCount?, basic, special]
      rw [count]
      rfl
    | some opcode =>
      have count : operandCount? mnemonic = some 1 := by simp [operandCount?, basic, special]
      rw [count]
      rcases operands with _ | ⟨a, _ | ⟨b, rest⟩⟩
      · rfl
      · rfl
      · simp [failure?]

/-- A character fails if its code is too large. -/
theorem failure?_encodeChar (c : Char) :
    failure? (encodeChar c) = if 0x10000 ≤ c.toNat then some (.outOfRange c.toNat) else none := by
  unfold encodeChar
  by_cases large : 0x10000 ≤ c.toNat
  · have notSmall : ¬ c.toNat < UInt16.size := Nat.not_lt.mpr large
    rw [if_pos large, if_neg notSmall]
    rfl
  · have small : c.toNat < UInt16.size := Nat.lt_of_not_le large
    rw [if_neg large, if_pos small]
    rfl

/-- Characters fail as the first of them whose code is too large. -/
theorem failure?_mapM_encodeChar (text : List Char) :
    failure? (text.mapM encodeChar) = charactersProblem? text := by
  rw [failure?_mapM, charactersProblem?]
  induction text with
  | nil => rfl
  | cons c text ih =>
    rw [List.findSome?_cons, List.find?_cons, failure?_encodeChar, ih]
    by_cases large : 0x10000 ≤ c.toNat <;> simp [large]

/-- A data value fails as its first character whose code is too large. -/
theorem failure?_encodeDatum (line : Nat) (datum : Datum) :
    failure? (encodeDatum line datum) = charactersProblem? datum.characters := by
  cases datum with
  | value value => rfl
  | text content => exact failure?_mapM_encodeChar content.toList

/-- A statement fails as its body does. -/
theorem Statement.failure?_encode (statement : Statement) :
    failure? statement.encode = statement.body.bind Body.problem? := by
  obtain ⟨line, label, body⟩ := statement
  cases body with
  | none => rfl
  | some body =>
    cases body with
    | instruction mnemonic operands => exact failure?_encodeInstruction line mnemonic operands
    | data items =>
      show failure? ((items.mapM (encodeDatum line)).map List.flatten) =
        charactersProblem? (items.flatMap Datum.characters)
      rw [failure?_map, failure?_mapM, charactersProblem?, List.find?_flatMap,
        List.map_findSome?]
      simp only [failure?_encodeDatum, charactersProblem?, Function.comp_def]

/-! ## Definitions -/

/-- What is wrong with the definition of a label behind statements: the address is no word, or one
of the statements defines the label too. -/
def labelProblem? (before : List Statement) (name : String) : Option Problem :=
  if 0xFFFF < extent before then some (.outOfRange (extent before))
  else if name ∈ before.filterMap Statement.label then some (.duplicateLabel name)
  else none

/-- What is wrong with a statement behind others; its label comes first. -/
def Statement.problem? (before : List Statement) (statement : Statement) : Option Problem :=
  (statement.label.bind (labelProblem? before)).or (statement.body.bind Body.problem?)

/-- No statement has a problem behind those before it. -/
def Orderly (statements : List Statement) : Prop :=
  ∀ before statement after, statements = before ++ statement :: after →
    statement.problem? before = none

/-- No statements have no problem. -/
theorem orderly_nil : Orderly [] := by
  intro before statement after same
  cases before <;> cases same

/-- One more statement is looked at behind the others. -/
theorem orderly_snoc {before : List Statement} {statement : Statement} :
    Orderly (before ++ [statement]) ↔ Orderly before ∧ statement.problem? before = none :=
  forall_split_snoc

namespace Layout

/-- A layout holds statements: their words are counted and their labels are known. -/
structure Holds (layout : Layout) (statements : List Statement) : Prop where
  size_eq : layout.pieces.size = extent statements
  mem_labels_iff : ∀ name, name ∈ layout.labels ↔ name ∈ statements.filterMap Statement.label

/-- Statements that have been placed are held. -/
theorem holds_of_placeAll {layout : Layout} {statements : List Statement}
    (placed : placeAll {} statements = .ok layout) : layout.Holds statements := by
  obtain ⟨-, lists, -, grown⟩ := placeAll_ok placed
  constructor
  · simpa using size_placeAll placed
  · intro name
    have known : layout.labels[name]? = (addressIn statements name).map UInt16.ofNat := by
      simpa using grown.labels name
    rw [← Std.HashMap.isSome_getElem?_iff_mem, known, Option.isSome_map]
    constructor
    · intro some
      obtain ⟨address, found⟩ := Option.isSome_iff_exists.mp some
      exact mem_labels_of_addressIn found
    · intro member
      obtain ⟨statement, inside, defines⟩ := List.mem_filterMap.mp member
      rw [addressIn, Option.isSome_map, List.findIdx?_isSome, List.any_eq_true]
      exact ⟨statement, inside, beq_iff_eq.mpr defines⟩

/-- A label fails as its definition does behind the statements that are held. -/
theorem Holds.failure?_define {layout : Layout} {before : List Statement}
    (holds : layout.Holds before) (name : String) :
    failure? (layout.define name) = labelProblem? before name := by
  obtain ⟨pieces, labels⟩ := layout
  have size : pieces.size = extent before := holds.size_eq
  have known : labels.contains name = true ↔ name ∈ before.filterMap Statement.label :=
    holds.mem_labels_iff name
  have bound : pieces.size < UInt16.size ↔ ¬ 0xFFFF < extent before := by
    rw [size, Nat.not_lt]
    exact Nat.lt_succ_iff
  unfold define labelProblem?
  by_cases large : 0xFFFF < extent before
  · have outside : ¬ pieces.size < UInt16.size := fun inside => bound.mp inside large
    simp only [outside, large, if_true, if_false, failure?]
    rw [size]
  · by_cases defined : name ∈ before.filterMap Statement.label
    · simp only [bound, large, known.mpr defined, defined]
      rfl
    · have new : labels.contains name = false := Bool.eq_false_iff.mpr fun held =>
        defined (known.mp held)
      simp only [bound, large, new, defined]
      rfl

/-- Placing a statement fails as the statement does behind those that are held. -/
theorem Holds.failure?_place {layout : Layout} {before : List Statement}
    (holds : layout.Holds before) (statement : Statement) :
    failure? (layout.place statement) =
      (statement.problem? before).map fun problem => ⟨statement.line, problem⟩ := by
  have behind (labelled : Except Problem Layout) :
      failure? (labelled.bind fun layout => layout.append statement) =
        (failure? labelled).or (statement.body.bind Body.problem?) := by
    cases labelled with
    | error problem => rfl
    | ok layout =>
      show failure? (layout.append statement) = _
      rw [append, failure?_map, statement.failure?_encode]
      rfl
  have labelled : failure? (statement.label.elim (.ok layout) layout.define) =
      statement.label.bind (labelProblem? before) := by
    cases statement.label with
    | none => rfl
    | some name => exact holds.failure?_define name
  rw [place_eq, failure?_mapError, behind, labelled, Statement.problem?]

/-- One statement is placed by itself. -/
theorem placeAll_singleton (layout : Layout) (statement : Statement) :
    layout.placeAll [statement] = layout.place statement := by
  unfold placeAll
  cases layout.place statement <;> rfl

/-- One more statement fails as it does behind the others. -/
theorem failure?_placeAll_snoc {layout : Layout} {before : List Statement}
    (placed : placeAll {} before = .ok layout) (statement : Statement) :
    failure? (placeAll {} (before ++ [statement])) =
      (statement.problem? before).map fun problem => ⟨statement.line, problem⟩ := by
  have step : placeAll {} (before ++ [statement]) = layout.place statement := by
    rw [placeAll_append, placed]
    exact layout.placeAll_singleton statement
  rw [step, (holds_of_placeAll placed).failure?_place]

/-- Statements are placed exactly if none of them has a problem. -/
theorem exists_placeAll_iff {statements : List Statement} :
    (∃ layout, placeAll {} statements = .ok layout) ↔ Orderly statements := by
  induction statements using List.reverseRecOn with
  | nil => exact ⟨fun _ => orderly_nil, fun _ => ⟨{}, rfl⟩⟩
  | append_singleton before statement ih =>
    rw [orderly_snoc, ← ih]
    cases placed : placeAll {} before with
    | error error =>
      rw [placeAll_append, placed]
      simp [Except.bind]
    | ok layout =>
      rw [← failure?_eq_none_iff, failure?_placeAll_snoc placed]
      simp

/-- Statements fail at the first one with a problem. -/
theorem placeAll_eq_error_iff {statements : List Statement} {error : Error} :
    placeAll {} statements = .error error ↔
      ∃ before statement after problem, statements = before ++ statement :: after ∧
        Orderly before ∧ statement.problem? before = some problem ∧
        error = ⟨statement.line, problem⟩ := by
  constructor
  · intro fails
    -- The error is that of the statements in front of the last one, or its own.
    induction statements using List.reverseRecOn with
    | nil => cases fails
    | append_singleton before statement ih =>
      cases placed : placeAll {} before with
      | error other =>
        rw [placeAll_append, placed] at fails
        cases fails
        obtain ⟨earlier, inner, after, problem, rfl, orderly, found, same⟩ := ih placed
        exact ⟨earlier, inner, after ++ [statement], problem, by simp, orderly, found, same⟩
      | ok layout =>
        have failure := failure?_eq_some_iff.mpr fails
        rw [failure?_placeAll_snoc placed] at failure
        obtain ⟨problem, found, same⟩ := Option.map_eq_some_iff.mp failure
        exact ⟨before, statement, [], problem, rfl, exists_placeAll_iff.mp ⟨layout, placed⟩, found,
          same.symm⟩
  · rintro ⟨before, statement, after, problem, rfl, orderly, found, rfl⟩
    obtain ⟨layout, placed⟩ := exists_placeAll_iff.mpr orderly
    have failure := failure?_placeAll_snoc placed statement
    rw [found, Option.map_some, failure?_eq_some_iff] at failure
    have whole : before ++ statement :: after = (before ++ [statement]) ++ after := by simp
    rw [whole, placeAll_append, failure]
    rfl

end Layout

/-! ## References -/

/-- The label that a value refers to. -/
def Value.reference? : Value → Option String
  | .number _ => none
  | .label name => some name

/-- The label that an operand refers to. -/
def Expression.reference? : Expression → Option String
  | .immediate value => value.reference?
  | .indirect (some value) _ => value.reference?
  | _ => none

/-- The label that a data value refers to. -/
def Datum.reference? : Datum → Option String
  | .value written => written.reference?
  | .text _ => none

/-- The labels that a body refers to, in their order. -/
def Body.references : Body → List String
  | .instruction _ operands => operands.filterMap Expression.reference?
  | .data items => items.filterMap Datum.reference?

/-- The labels that a statement refers to, in their order. -/
def Statement.references (statement : Statement) : List String :=
  (statement.body.map Body.references).getD []

/-- The first label that a statement refers to and none of the statements defines. -/
def Statement.undefined? (statements : List Statement) (statement : Statement) : Option String :=
  statement.references.find? fun name => decide (name ∉ statements.filterMap Statement.label)

/-- The label and the line of a reference. -/
def Piece.use? : Piece → Option (String × Nat)
  | .word _ => none
  | .reference label line => some (label, line)

/-- The place of a value uses its label. -/
theorem use?_piece (line : Nat) (value : Value) :
    (value.piece line).use? = value.reference?.map fun name => (name, line) := by
  cases value <;> rfl

/-- The label of an operand is that of its inline word. -/
theorem Expression.bind_reference? (expression : Expression) :
    expression.inline?.bind Value.reference? = expression.reference? := by
  cases expression with
  | register register => rfl
  | pop | peek | push => rfl
  | immediate value =>
    cases value with
    | number value =>
      simp only [inline?]
      split <;> rfl
    | label name => rfl
  | indirect offset base =>
    cases offset with
    | none =>
      simp only [inline?, reference?]
      split <;> rfl
    | some value => rfl

/-- The places of an instruction use the labels of its operands. -/
theorem filterMap_instructionPieces (line : Nat) (instruction : Instruction)
    (operands : List Expression) :
    (instructionPieces line instruction (operands.map fun operand => operand.encode.2)).filterMap
        Piece.use? =
      (operands.filterMap Expression.reference?).map fun name => (name, line) := by
  have inline : (operands.map fun operand => operand.encode.2).filterMap id =
      operands.filterMap Expression.inline? := by
    simp only [Expression.encode_eq, List.filterMap_map, Function.comp_def, id]
  have label (operand : Expression) :
      (operand.inline?.bind fun value => (value.piece line).use?) =
        operand.reference?.map fun name => (name, line) := by
    rw [← operand.bind_reference?]
    simp only [use?_piece]
    cases operand.inline? <;> rfl
  rw [instructionPieces, inline, List.filterMap_cons_none rfl, List.filterMap_map,
    List.filterMap_filterMap, List.map_filterMap]
  simp only [Function.comp_def, label]

/-- What an instruction is encoded as uses the labels of its operands. -/
theorem filterMap_encodeInstruction {line : Nat} {mnemonic : String}
    {operands : List Expression} {pieces : List Piece}
    (encoded : encodeInstruction line mnemonic operands = .ok pieces) :
    pieces.filterMap Piece.use? =
      (operands.filterMap Expression.reference?).map fun name => (name, line) := by
  unfold encodeInstruction at encoded
  split at encoded
  · split at encoded
    · next a b =>
      cases encoded
      exact filterMap_instructionPieces line _ [a, b]
    · cases encoded
  · split at encoded
    · next a =>
      cases encoded
      exact filterMap_instructionPieces line _ [a]
    · cases encoded
  · cases encoded

/-- The place of a data value uses its label. -/
theorem filterMap_encodeDatum {line : Nat} {datum : Datum} {pieces : List Piece}
    (encoded : encodeDatum line datum = .ok pieces) :
    pieces.filterMap Piece.use? = (datum.reference?.map fun name => (name, line)).toList := by
  cases datum with
  | value value =>
    cases encoded
    rw [List.filterMap_cons, use?_piece]
    cases value <;> rfl
  | text content =>
    have each := mapM_eq_ok_iff.mp encoded
    show pieces.filterMap Piece.use? = []
    clear encoded
    generalize content.toList = text at each
    induction each with
    | nil => rfl
    | cons word _ ih =>
      unfold encodeChar at word
      split at word <;> cases word
      exact ih

/-- The places of data use the labels of its values. -/
theorem filterMap_encodeData {line : Nat} {items : List Datum} {lists : List (List Piece)}
    (encoded : items.mapM (encodeDatum line) = .ok lists) :
    lists.flatten.filterMap Piece.use? =
      (items.filterMap Datum.reference?).map fun name => (name, line) := by
  have each := mapM_eq_ok_iff.mp encoded
  induction each with
  | nil => rfl
  | @cons datum pieces items lists first rest ih =>
    rw [List.flatten_cons, List.filterMap_append, filterMap_encodeDatum first,
      ih (mapM_eq_ok_iff.mpr rest)]
    cases label : datum.reference? with
    | none => rw [List.filterMap_cons_none label]; rfl
    | some name => rw [List.filterMap_cons_some label]; rfl

/-- The places of a statement use the labels that it refers to, on its line. -/
theorem Statement.filterMap_encode {statement : Statement} {pieces : List Piece}
    (encoded : statement.encode = .ok pieces) :
    pieces.filterMap Piece.use? = statement.references.map fun name => (name, statement.line) := by
  obtain ⟨line, label, body⟩ := statement
  cases body with
  | none =>
    cases encoded
    rfl
  | some body =>
    cases body with
    | instruction mnemonic operands => exact filterMap_encodeInstruction encoded
    | data items =>
      obtain ⟨lists, each, rfl⟩ := map_eq_ok_iff.mp encoded
      exact filterMap_encodeData each

/-! ## Programs -/

/-- A reference fails if its label is not known. -/
theorem Layout.failure?_resolve (layout : Layout) :
    failure? layout.resolve =
      ((layout.pieces.toList.filterMap Piece.use?).find? fun use =>
        decide (use.1 ∉ layout.labels)).map fun use => ⟨use.2, .undefinedLabel use.1⟩ := by
  obtain ⟨pieces, labels⟩ := layout
  rw [resolve, failure?_mapM]
  dsimp only
  induction pieces.toList with
  | nil => rfl
  | cons piece pieces ih =>
    rw [List.findSome?_cons, ih]
    cases piece with
    | word word => rfl
    | reference label line =>
      have used : (Piece.reference label line).use? = some (label, line) := rfl
      rw [List.filterMap_cons_some used, List.find?_cons]
      by_cases known : label ∈ labels
      · simp [resolvePiece, known, failure?]
      · simp [resolvePiece, known, failure?]

/-- Statements that are placed fail at the first reference to a label that none of them defines. -/
theorem Layout.failure?_resolve_of_placeAll {layout : Layout} {statements : List Statement}
    (placed : placeAll {} statements = .ok layout) :
    failure? layout.resolve = statements.findSome? fun statement =>
      (statement.undefined? statements).map fun name => ⟨statement.line, .undefinedLabel name⟩ := by
  have holds := holds_of_placeAll placed
  obtain ⟨-, lists, encoded, grown⟩ := placeAll_ok placed
  have places : layout.pieces.toList = lists.flatten := by simpa using grown.places
  have uses : lists.flatten.filterMap Piece.use? = statements.flatMap fun statement =>
      statement.references.map fun name => (name, statement.line) := by
    have each := mapM_eq_ok_iff.mp encoded
    clear holds placed encoded grown places
    induction each with
    | nil => rfl
    | cons first _ ih =>
      rw [List.flatten_cons, List.filterMap_append, List.flatMap_cons, ih,
        Statement.filterMap_encode first]
  rw [failure?_resolve, places, uses, List.find?_flatMap, List.map_findSome?]
  simp only [Function.comp_def, List.find?_map, Option.map_map, holds.mem_labels_iff]
  rfl

/-- A statement fails among others: it is the first that has a problem, or none has a problem and it
has the first reference to a label that is not defined. -/
inductive FailsAt (before : List Statement) (statement : Statement) (after : List Statement) :
    Problem → Prop
  | placed {problem : Problem} (orderly : Orderly before)
    (found : statement.problem? before = some problem) : FailsAt before statement after problem
  | resolved {name : String} (orderly : Orderly (before ++ statement :: after))
    (defined : ∀ earlier ∈ before, earlier.undefined? (before ++ statement :: after) = none)
    (found : statement.undefined? (before ++ statement :: after) = some name) :
    FailsAt before statement after (.undefinedLabel name)

/-- The encoding of statements fails on the line of the statement that fails. -/
theorem encode_eq_error_iff {statements : List Statement} {error : Error} :
    encode statements = .error error ↔
      ∃ before statement after problem, statements = before ++ statement :: after ∧
        FailsAt before statement after problem ∧ error = ⟨statement.line, problem⟩ := by
  constructor
  · intro fails
    cases placed : Layout.placeAll {} statements with
    | error other =>
      have same : other = error := by
        rw [encode_eq_resolve, placed] at fails
        exact Except.error.inj fails
      obtain ⟨before, statement, after, problem, split, orderly, found, rfl⟩ :=
        Layout.placeAll_eq_error_iff.mp placed
      exact ⟨before, statement, after, problem, split, .placed orderly found, same.symm⟩
    | ok layout =>
      have orderly : Orderly statements := Layout.exists_placeAll_iff.mp ⟨layout, placed⟩
      have resolves : layout.resolve = .error error := by
        rw [encode_eq_resolve, placed] at fails
        exact fails
      have failure := failure?_eq_some_iff.mpr resolves
      rw [Layout.failure?_resolve_of_placeAll placed, List.findSome?_eq_some_iff] at failure
      obtain ⟨before, statement, after, rfl, found, defined⟩ := failure
      obtain ⟨name, undefined, rfl⟩ := Option.map_eq_some_iff.mp found
      have known : ∀ earlier ∈ before,
          earlier.undefined? (before ++ statement :: after) = none := fun earlier member =>
        Option.map_eq_none_iff.mp (defined earlier member)
      exact ⟨before, statement, after, _, rfl, .resolved orderly known undefined, rfl⟩
  · rintro ⟨before, statement, after, problem, rfl, fails, rfl⟩
    cases fails with
    | placed orderly found =>
      have placed := Layout.placeAll_eq_error_iff.mpr
        ⟨before, statement, after, problem, rfl, orderly, found, rfl⟩
      rw [encode_eq_resolve, placed]
      rfl
    | @resolved name orderly defined found =>
      obtain ⟨layout, placed⟩ := Layout.exists_placeAll_iff.mpr orderly
      have failure : failure? layout.resolve =
          some ⟨statement.line, .undefinedLabel name⟩ := by
        rw [Layout.failure?_resolve_of_placeAll placed, List.findSome?_eq_some_iff]
        refine ⟨before, statement, after, rfl, by rw [found]; rfl, fun earlier member => ?_⟩
        rw [defined earlier member]
        rfl
      rw [encode_eq_resolve, placed]
      exact failure?_eq_some_iff.mp failure

/-- Statements are encoded exactly if none of them has a problem or refers to a label that is not
defined. -/
theorem exists_encode_iff {statements : List Statement} :
    (∃ words, encode statements = .ok words) ↔
      Orderly statements ∧ ∀ statement ∈ statements, statement.undefined? statements = none := by
  have resolved {layout : Layout} (placed : Layout.placeAll {} statements = .ok layout) :
      (∃ words, layout.resolve = .ok words) ↔
        ∀ statement ∈ statements, statement.undefined? statements = none := by
    rw [← failure?_eq_none_iff, Layout.failure?_resolve_of_placeAll placed,
      List.findSome?_eq_none_iff]
    simp only [Option.map_eq_none_iff]
  rw [encode_eq_resolve, ← Layout.exists_placeAll_iff]
  cases placed : Layout.placeAll {} statements with
  | error error => simp [Except.bind]
  | ok layout =>
    rw [← resolved placed]
    simp [Except.bind]

/-! ## Conditions -/

/-- Statements can be assembled: each instruction is known and has the right number of operands, the
characters of data are words, labels stand at addresses that are words, no label is defined twice,
and each label that is referred to is defined. -/
structure Sound (statements : List Statement) : Prop where
  instructions : ∀ statement ∈ statements, ∀ mnemonic operands,
    statement.body = some (.instruction mnemonic operands) →
      operandCount? mnemonic = some operands.length
  characters : ∀ statement ∈ statements, ∀ items, statement.body = some (.data items) →
    ∀ content, .text content ∈ items → ∀ c ∈ content.toList, c.toNat < 0x10000
  addresses : ∀ before statement after, statements = before ++ statement :: after →
    statement.label.isSome → extent before ≤ 0xFFFF
  distinct : (statements.filterMap Statement.label).Nodup
  defined : ∀ statement ∈ statements, ∀ name ∈ statement.references,
    ∃ defining ∈ statements, defining.label = some name

/-- A body has no problem exactly if its instruction is known and has the right number of operands,
and if the characters of its data are words. -/
theorem Body.problem?_eq_none_iff {body : Body} :
    body.problem? = none ↔
      (∀ mnemonic operands, body = .instruction mnemonic operands →
        operandCount? mnemonic = some operands.length) ∧
      ∀ items, body = .data items → ∀ content, .text content ∈ items →
        ∀ c ∈ content.toList, c.toNat < 0x10000 := by
  cases body with
  | instruction mnemonic operands =>
    simp only [problem?, instructionProblem?]
    cases known : operandCount? mnemonic with
    | none => simp [known]
    | some count =>
      by_cases same : operands.length = count
      · simp [known, same]
      · simp [known, same, Ne.symm same]
  | data items =>
    have inItems (c : Char) : c ∈ items.flatMap Datum.characters ↔
        ∃ content, .text content ∈ items ∧ c ∈ content.toList := by
      rw [List.mem_flatMap]
      constructor
      · rintro ⟨datum, member, inside⟩
        cases datum with
        | value value => cases inside
        | text content => exact ⟨content, member, inside⟩
      · rintro ⟨content, member, inside⟩
        exact ⟨.text content, member, inside⟩
    simp only [problem?, charactersProblem?, Option.map_eq_none_iff, List.find?_eq_none, inItems]
    constructor
    · intro none
      refine ⟨by simp, ?_⟩
      rintro _ ⟨⟩ content member c inside
      simpa using none c ⟨content, member, inside⟩
    · rintro ⟨-, each⟩ c ⟨content, member, inside⟩
      simpa using each items rfl content member c inside

/-- A label can be defined exactly if the address is a word and the label is new. -/
theorem labelProblem?_eq_none_iff {before : List Statement} {name : String} :
    labelProblem? before name = none ↔
      extent before ≤ 0xFFFF ∧ name ∉ before.filterMap Statement.label := by
  unfold labelProblem?
  by_cases large : 0xFFFF < extent before
  · simp [large, Nat.not_le.mpr large]
  · by_cases defined : name ∈ before.filterMap Statement.label
    · simp only [large, defined]
      simp
    · simp only [large, defined]
      simpa using Nat.le_of_not_lt large

/-- No label is defined twice exactly if each is new behind the statements before it. -/
theorem nodup_labels_iff {statements : List Statement} :
    (statements.filterMap Statement.label).Nodup ↔
      ∀ before statement after, statements = before ++ statement :: after →
        ∀ name, statement.label = some name → name ∉ before.filterMap Statement.label := by
  induction statements using List.reverseRecOn with
  | nil => simp
  | append_singleton before statement ih =>
    rw [forall_split_snoc, ← ih, List.filterMap_append, List.nodup_append]
    cases label : statement.label with
    | none => simp [label]
    | some name =>
      have last : [statement].filterMap Statement.label = [name] := by simp [label]
      rw [last]
      constructor
      · rintro ⟨distinct, -, apart⟩
        refine ⟨distinct, ?_⟩
        rintro _ ⟨⟩ member
        exact apart name member name (by simp) rfl
      · rintro ⟨distinct, new⟩
        refine ⟨distinct, by simp, fun other member own only => ?_⟩
        rw [List.mem_singleton.mp only]
        rintro rfl
        exact new other rfl member

/-- Statements are sound exactly if none of them has a problem or refers to a label that is not
defined. -/
theorem sound_iff {statements : List Statement} :
    Sound statements ↔
      Orderly statements ∧ ∀ statement ∈ statements, statement.undefined? statements = none := by
  have fine (before : List Statement) (statement : Statement) :
      statement.problem? before = none ↔
        (∀ name, statement.label = some name →
          extent before ≤ 0xFFFF ∧ name ∉ before.filterMap Statement.label) ∧
        ∀ body, statement.body = some body → body.problem? = none := by
    simp only [Statement.problem?, Option.or_eq_none_iff, Option.bind_eq_none_iff,
      labelProblem?_eq_none_iff]
  have known (statement : Statement) : statement.undefined? statements = none ↔
      ∀ name ∈ statement.references, ∃ defining ∈ statements, defining.label = some name := by
    simp only [Statement.undefined?, List.find?_eq_none, List.mem_filterMap, decide_eq_true_iff,
      not_not]
  constructor
  · rintro ⟨instructions, characters, addresses, distinct, defined⟩
    refine ⟨?_, fun statement member => (known statement).mpr (defined statement member)⟩
    rintro before statement after rfl
    have member : statement ∈ before ++ statement :: after := by simp
    refine (fine before statement).mpr ⟨fun name label => ⟨?_, ?_⟩, fun body same => ?_⟩
    · exact addresses before statement after rfl (by simp [label])
    · exact nodup_labels_iff.mp distinct before statement after rfl name label
    · rw [Body.problem?_eq_none_iff]
      constructor
      · rintro mnemonic operands rfl
        exact instructions statement member mnemonic operands same
      · rintro items rfl
        exact characters statement member items same
  · rintro ⟨orderly, defined⟩
    have bodies : ∀ statement ∈ statements, ∀ body, statement.body = some body →
        body.problem? = none := by
      intro statement member
      obtain ⟨before, after, rfl⟩ := List.append_of_mem member
      exact ((fine before statement).mp (orderly before statement after rfl)).2
    have labels : ∀ before statement after, statements = before ++ statement :: after →
        ∀ name, statement.label = some name →
          extent before ≤ 0xFFFF ∧ name ∉ before.filterMap Statement.label := by
      intro before statement after split
      exact ((fine before statement).mp (orderly before statement after split)).1
    constructor
    · intro statement member mnemonic operands same
      exact (Body.problem?_eq_none_iff.mp (bodies statement member _ same)).1 _ _ rfl
    · intro statement member items same
      exact (Body.problem?_eq_none_iff.mp (bodies statement member _ same)).2 _ rfl
    · intro before statement after split labelled
      obtain ⟨name, label⟩ := Option.isSome_iff_exists.mp labelled
      exact (labels before statement after split name label).1
    · refine nodup_labels_iff.mpr fun before statement after split name label => ?_
      exact (labels before statement after split name label).2
    · intro statement member
      exact (known statement).mp (defined statement member)

end Dcpu16.Source
