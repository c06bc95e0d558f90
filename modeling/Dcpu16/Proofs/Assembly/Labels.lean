import Dcpu16.Proofs.Assembly.TokenLines

/-!
# Labels in use

The tokens behind the mnemonic of a line are cut at the commas into segments, and each segment has
its own words in the program: the inline word of an operand, if it has one, or the words of a data
value (`PartsAt`). A name in a segment that is not taken for a register or a keyword (`Taken`) is
encoded there as the address of the label with this name (`Aligned.standsFor`). Every label of a
source can therefore be used by its name where the name is not taken (`labels_usable`).
-/
namespace Dcpu16.Source

/-! ## Segments -/

/-- Behind a label, if there is one, the tokens are a mnemonic, or `DAT`, and those behind it. -/
def HasBody (tokens : List Token) (keyword : String) (rest : List Token) : Prop :=
  ∃ label, labelled tokens = .ok (label, .name keyword :: rest)

/-- Behind this keyword a name in a segment is taken for something other than a label: a register
in brackets and out of them, and `POP`, `PEEK` or `PUSH` as the whole of an operand. Data values
take no name. -/
def Taken (keyword name : String) (segment : List Token) : Prop :=
  Text.capitals keyword ≠ "DAT" ∧
    ((Register.ofName? name).isSome ∨
      segment = [.name name] ∧ Text.capitals name ∈ ["POP", "PEEK", "PUSH"])

/-- The words from an address on start with those that a keyword and its segments make; each segment
has its part of them. Behind `DAT` the parts are those of the data values one behind the other, and
behind a mnemonic the inline words of the operands of the instruction that is named. -/
inductive PartsAt (words : List Word) (address : Nat) (keyword : String)
    (segments : List (List Token)) : List (List Word) → Prop
  | data {parts : List (List Word)} {following : List Word} (same : Text.capitals keyword = "DAT")
      (sizes : List.Forall₂ (fun segment part => ∃ datum, Holds segment datum ∧
        part.length = datum.size) segments parts)
      (behind : words.drop address = parts.flatten ++ following) :
      PartsAt words address keyword segments parts
  | instruction {instruction : Instruction} {following : List Word}
      (other : Text.capitals keyword ≠ "DAT")
      (decoded : Instruction.ofWords? (words.drop address) = some instruction)
      (named : instruction.mnemonic = Text.capitals keyword)
      (behind : words.drop address = instruction.words ++ following) :
      PartsAt words address keyword segments (instruction.operands.map Operand.inline)

/-- Each name in a segment that is not taken is encoded in the part of the segment, which is the
address of the label with this name. -/
def Resolved (addresses : String → Option Nat) (keyword : String) (segment : List Token)
    (part : List Word) : Prop :=
  ∀ name, .name name ∈ segment → ¬Taken keyword name segment →
    ∃ address, addresses name = some address ∧ part = [.ofNat address]

/-- The token of a data value is no comma. -/
theorem comma_notMem_of_holds {segment : List Token} {datum : Datum} (holds : Holds segment datum) :
    Token.comma ∉ segment := by
  cases holds <;> simp

/-- No token of an operand is a comma. -/
theorem comma_notMem_of_spells {segment : List Token} {operand : Expression}
    (spells : Spells segment operand) : Token.comma ∉ segment := by
  have apart {token : Token} {value : Value} (offset : Offsets token value) : .comma ≠ token := by
    cases offset <;> simp
  cases spells with
  | offset offset => simpa using apart offset
  | offsetFirst offset => simpa using apart offset
  | registerFirst offset => simpa using apart offset
  | _ => simp

/-- Segments that write items are those between the commas. -/
theorem splitOn_comma {α : Type} {writes : List Token → α → Prop}
    (apart : ∀ {segment item}, writes segment item → Token.comma ∉ segment)
    {segments : List (List Token)} {items : List α} (wrote : List.Forall₂ writes segments items)
    (nonempty : items ≠ []) : (List.intercalate [.comma] segments).splitOn .comma = segments := by
  have commaFree : ∀ segment ∈ segments, Token.comma ∉ segment := fun segment member => by
    obtain ⟨item, -, writes⟩ := exists_of_forall₂ wrote member
    exact apart writes
  refine List.splitOn_intercalate _ commaFree ?_
  rintro rfl
  cases wrote
  exact nonempty rfl

/-! ## Parts -/

section Parts

variable {addresses : String → Option Nat} {keyword : String} {segment : List Token}

/-- A name in a data value is the value. -/
theorem resolved_of_holds {datum : Datum} {part : List Word} (holds : Holds segment datum)
    (found : datum.wordsIn addresses = some part) : Resolved addresses keyword segment part := by
  intro name occurs free
  cases holds with
  | number | text => simp at occurs
  | label =>
    simp only [List.mem_singleton, Token.name.injEq] at occurs
    subst occurs
    obtain ⟨word, worth, rfl⟩ := Option.map_eq_some_iff.mp found
    obtain ⟨address, known, rfl⟩ := Option.map_eq_some_iff.mp worth
    exact ⟨address, known, rfl⟩

/-- A name in the tokens of an operand is its value, unless the name is taken. -/
theorem value_of_writes {name : String} {mode : Mode} {value : Option Value}
    (writes : Writes segment mode value) (other : Text.capitals keyword ≠ "DAT")
    (occurs : .name name ∈ segment) (free : ¬Taken keyword name segment) :
    value = some (.label name) := by
  have notRegister {written : String} {register : Register} (same : name = written) :
      Register.ofName? written ≠ some register := fun found =>
    free ⟨other, .inl (by rw [same, found]; rfl)⟩
  have notKeyword {written capital : String} (same : name = written)
      (alone : segment = [.name written]) (is : Text.capitals written = capital) :
      capital ∉ ["POP", "PEEK", "PUSH"] := fun member =>
    free ⟨other, .inr ⟨same ▸ alone, by rwa [same, is]⟩⟩
  have offset_eq {token : Token} {value : Value} (offset : Offsets token value)
      (same : .name name = token) : value = .label name := by
    cases offset with
    | number => cases same
    | label => cases same; rfl
  cases writes with
  | small | large => simp at occurs
  | label =>
    obtain rfl : name = _ := by simpa using occurs
    rfl
  | register found | stackPointer found | programCounter found | overflow found =>
    exact absurd found (notRegister (by simpa using occurs))
  | pop same | peek same | push same =>
    exact absurd (by simp) (notKeyword (by simpa using occurs) rfl same)
  | top found | indirect found => exact absurd found (notRegister (by simpa using occurs))
  | absolute offset => rw [offset_eq offset (by simpa using occurs)]
  | @offsetFirst token value base register index offset found =>
    have place : .name name = token ∨ name = base := by simpa using occurs
    rcases place with same | same
    · rw [offset_eq offset same]
    · exact absurd found (notRegister same)
  | @registerFirst token value base register index offset found =>
    have place : name = base ∨ .name name = token := by simpa using occurs
    rcases place with same | same
    · exact absurd found (notRegister same)
    · rw [offset_eq offset same]

/-- A name in the tokens of an operand is encoded as the address of its label, unless the name is
taken. -/
theorem resolved_of_stands {operand : Operand} (stands : Stands addresses segment operand)
    (other : Text.capitals keyword ≠ "DAT") :
    Resolved addresses keyword segment operand.inline := by
  intro name occurs free
  obtain ⟨value, writes, worth⟩ := stands
  cases value_of_writes writes other occurs free
  cases known : addresses name with
  | none => simp [Value.wordIn, known] at worth
  | some address =>
    refine ⟨address, rfl, ?_⟩
    simpa [Value.wordIn, known] using worth.symm

/-- Where the words of a statement stand in a program, each segment of its line has its part, in
which the labels are resolved. -/
theorem exists_partsAt {words part following : List Word} {address : Nat} {rest : List Token}
    {said : Statement} (bodies : Bodies (.name keyword :: rest) said.body)
    (found : said.wordsIn addresses = some part)
    (behind : words.drop address = part ++ following) :
    ∃ parts, PartsAt words address keyword (rest.splitOn .comma) parts ∧
      List.Forall₂ (Resolved addresses keyword) (rest.splitOn .comma) parts := by
  generalize inner : said.body = made at bodies
  cases bodies with
  | @data _ segments items same nonempty wrote =>
    have cut : (List.intercalate [.comma] segments).splitOn .comma = segments :=
      splitOn_comma comma_notMem_of_holds wrote (by rintro rfl; cases wrote; exact nonempty rfl)
    rw [Statement.wordsIn, inner] at found
    obtain ⟨parts, each, rfl⟩ := Option.map_eq_some_iff.mp found
    have pairs := forall₂_comp wrote (mapM_eq_some_iff.mp each)
    rw [cut]
    refine ⟨parts, .data same (pairs.imp fun segment part both => ?_) behind,
      pairs.imp fun segment part both => ?_⟩
    · obtain ⟨datum, holds, words⟩ := both
      exact ⟨datum, holds, Datum.length_wordsIn words⟩
    · obtain ⟨datum, holds, words⟩ := both
      exact resolved_of_holds holds words
  | @instruction _ segments operands other wrote =>
    rw [Statement.wordsIn, inner] at found
    obtain ⟨instruction, made, rfl⟩ := Option.map_eq_some_iff.mp found
    have stands := stands_instructionIn wrote made
    have some : operands ≠ [] := by
      rintro rfl
      cases wrote
      cases instruction <;> cases stands
    have cut : (List.intercalate [.comma] segments).splitOn .comma = segments :=
      splitOn_comma comma_notMem_of_spells wrote some
    obtain ⟨atRest, named⟩ := atRest_instructionIn made
    refine ⟨instruction.operands.map Operand.inline, .instruction other ?_ named behind, ?_⟩
    · rw [behind]
      exact Instruction.ofWords?_words_append atRest following
    · rw [cut, List.forall₂_map_right_iff]
      exact stands.imp fun segment operand stands => resolved_of_stands stands other

end Parts

/-! ## References -/

/-- A name stands for a word: wherever it occurs in a segment of a line and is not taken, the part
of the program that the segment has is this word. -/
def StandsFor (taken : (keyword name : String) → (segment : List Token) → Prop)
    (lines : List (List Token)) (words : List Word) (name : String) (word : Word) : Prop :=
  ∀ position tokens keyword rest, lines[position]? = some tokens → HasBody tokens keyword rest →
    ∃ parts, PartsAt words (addressAt lines position) keyword (rest.splitOn .comma) parts ∧
      List.Forall₂ (fun segment part => .name name ∈ segment → ¬taken keyword name segment →
        part = [word]) (rest.splitOn .comma) parts

section References

variable {lines : List (List Token)} {words : List Word} {all : List Statement} {name : String}

/-- The segments of a line have their parts at its address. -/
theorem Aligned.exists_partsAt (aligned : Aligned 1 lines all) (encoded : encode all = .ok words)
    {position : Nat} {tokens rest : List Token} {keyword : String}
    (found : lines[position]? = some tokens) (hasBody : HasBody tokens keyword rest) :
    ∃ parts, PartsAt words (addressAt lines position) keyword (rest.splitOn .comma) parts ∧
      List.Forall₂ (Resolved (addressIn all) keyword) (rest.splitOn .comma) parts := by
  obtain ⟨before, said, after, rfl, -, parsed, address⟩ := aligned.split found
  obtain ⟨part, following, wordsFound, behind⟩ := drop_extent_of_encode encoded
  obtain ⟨label, split⟩ := hasBody
  obtain ⟨others, labels, inner, -⟩ := statement_eq_ok_iff_labelled.mp parsed
  rw [split, Except.ok.injEq, Prod.mk.injEq] at labels
  obtain ⟨-, rfl⟩ := labels
  rw [address] at behind
  exact Source.exists_partsAt (body_eq_ok_iff.mp inner) wordsFound behind

/-- A name with an address stands for it, where the name is not taken. -/
theorem Aligned.standsFor (aligned : Aligned 1 lines all) (encoded : encode all = .ok words)
    {address : Nat} (known : addressIn all name = some address) :
    StandsFor Taken lines words name (.ofNat address) := by
  intro position tokens keyword rest found hasBody
  obtain ⟨parts, partsAt, each⟩ := aligned.exists_partsAt encoded found hasBody
  refine ⟨parts, partsAt, each.imp fun segment part worth occurs free => ?_⟩
  obtain ⟨same, again, rfl⟩ := worth name occurs free
  cases known.symm.trans again
  rfl

end References

/-- Every label of a source that assembles can be used by its name: it stands at an address that is
a word, and each occurrence of exactly the name in an operand or as a data value is encoded as this
address, in the inline word of the operand or as a word of the data, unless the name is taken
there. -/
theorem labels_usable {source : String} {words : List Word}
    (assembled : assemble source = .ok words) :
    ∃ lines, Scanned source lines ∧ ∀ name position, DefinedAt lines name position →
      addressAt lines position ≤ 0xFFFF ∧
      StandsFor Taken lines words name (.ofNat (addressAt lines position)) := by
  obtain ⟨lines, scanned⟩ := exists_scanned assembled
  rw [assemble_eq_assembleTokens scanned] at assembled
  obtain ⟨all, aligned, encoded⟩ := exists_aligned_of_ok assembled
  obtain ⟨distinct, bounded, -⟩ := encode_eq_ok_iff.mp encoded
  refine ⟨lines, scanned, fun name position defined => ?_⟩
  have known := aligned.addressIn_eq distinct defined
  exact ⟨bounded name _ known, aligned.standsFor encoded known⟩

/-- A label that is written like a keyword and used in brackets. -/
def keywordLabel : String := "DAT 7\n:Pop SET [Pop+I], 3"

/-- The tokens of these lines. -/
def keywordLabelLines : List (List Token) :=
  [[.name "DAT", .number 7],
    [.colon, .name "Pop", .name "SET", .openBracket, .name "Pop", .plus, .name "I", .closeBracket,
      .comma, .number 3]]

/-- In brackets the label stands for its address. -/
theorem labels_usable_keyword :
    assemble keywordLabel = .ok [7, 0x8D61, 1] ∧ Scanned keywordLabel keywordLabelLines ∧
      DefinedAt keywordLabelLines "Pop" 1 ∧
      StandsFor Taken keywordLabelLines [7, 0x8D61, 1] "Pop" 1 := by
  have scanned : Scanned keywordLabel keywordLabelLines := by
    have texts : Text.lines keywordLabel.toList =
        ["DAT 7".toList, ":Pop SET [Pop+I], 3".toList] := rfl
    rw [Scanned, texts]
    exact .cons (by cbv) (.cons (by cbv) .nil)
  have data : statement 1 [.name "DAT", .number 7] =
      .ok ⟨1, none, some (.data [.value (.number 7)])⟩ :=
    statement_of_values 1 (by decide) (by simp) (.cons (.number 7) .nil)
  have instruction : statement 2 [.colon, .name "Pop", .name "SET", .openBracket, .name "Pop",
      .plus, .name "I", .closeBracket, .comma, .number 3] =
      .ok ⟨2, some "Pop", some (.instruction "SET"
        [.indirect (some (.label "Pop")) (some .i), .immediate (.number 3)])⟩ := by
    have wrote : List.Forall₂ Spells
        [[.openBracket, .name "Pop", .plus, .name "I", .closeBracket], [.number 3]]
        [.indirect (some (.label "Pop")) (some .i), .immediate (.number 3)] :=
      .cons (.offsetFirst (.label (by decide)) (by decide) rfl) (.cons (.number 3) .nil)
    exact statement_eq_ok_iff.mpr
      ⟨rfl, [.colon, .name "Pop"], _, rfl, .colonFirst "Pop", .instruction (by decide) wrote⟩
  have aligned : Aligned 1 keywordLabelLines _ := .cons data (.cons instruction (.nil 3))
  have assembled : assemble keywordLabel = .ok [7, 0x8D61, 1] := by
    rw [assemble_eq_assembleTokens scanned, aligned.assembleTokens_eq]
    cbv
  have defined : DefinedAt keywordLabelLines "Pop" 1 := ⟨_, rfl, _, .inl rfl⟩
  have address : addressAt keywordLabelLines 1 = 1 := by
    show lineSize [.name "DAT", .number 7] + 0 = 1
    rw [lineSize_eq data]
    rfl
  obtain ⟨lines, found, usable⟩ := labels_usable assembled
  obtain rfl := scanned.unique found
  obtain ⟨-, standsFor⟩ := usable "Pop" 1 defined
  rw [address] at standsFor
  exact ⟨assembled, scanned, defined, standsFor⟩

/-- A label that is written like a register. -/
def registerLabel : String := ":a SET B, a"

/-- The tokens of this line. -/
def registerLabelLines : List (List Token) :=
  [[.colon, .name "a", .name "SET", .name "B", .comma, .name "a"]]

/-- A label whose name is that of a register does not stand for its address where the name is taken
for the register: the operand has no inline word. -/
theorem label_taken_for_register :
    assemble registerLabel = .ok [0x0011] ∧ Scanned registerLabel registerLabelLines ∧
      DefinedAt registerLabelLines "a" 0 ∧
      ¬StandsFor (fun _ _ _ => False) registerLabelLines [0x0011] "a"
        (.ofNat (addressAt registerLabelLines 0)) := by
  have scanned : Scanned registerLabel registerLabelLines := by
    have texts : Text.lines registerLabel.toList = [registerLabel.toList] := rfl
    rw [Scanned, texts]
    exact .cons (by cbv) .nil
  have wrote : List.Forall₂ Spells [[.name "B"], [.name "a"]] [.register .b, .register .a] :=
    .cons (.name (.register (by decide))) (.cons (.name (.register (by decide))) .nil)
  have instruction : statement 1 registerLabelLines[0] =
      .ok ⟨1, some "a", some (.instruction "SET" [.register .b, .register .a])⟩ :=
    statement_eq_ok_iff.mpr
      ⟨rfl, [.colon, .name "a"], _, rfl, .colonFirst "a", .instruction (by decide) wrote⟩
  have aligned : Aligned 1 registerLabelLines _ := .cons instruction (.nil 2)
  have assembled : assemble registerLabel = .ok [0x0011] := by
    rw [assemble_eq_assembleTokens scanned, aligned.assembleTokens_eq]
    cbv
  refine ⟨assembled, scanned, ⟨_, rfl, _, .inl rfl⟩, fun standsFor => ?_⟩
  obtain ⟨parts, partsAt, each⟩ := standsFor 0 _ "SET" _ rfl ⟨_, rfl⟩
  have cut : [Token.name "B", .comma, .name "a"].splitOn .comma = [[.name "B"], [.name "a"]] := by
    decide
  rw [cut] at each
  cases partsAt with
  | data same => exact absurd same (by decide)
  | @instruction instruction following other decoded named behind =>
    -- The one word of the program is the instruction word, so no operand has an inline word.
    have whole : [0x0011] = instruction.words ++ following := behind
    rw [Instruction.words, List.cons_append, List.cons.injEq] at whole
    have none := List.flatMap_eq_nil_iff.mp (List.append_eq_nil_iff.mp whole.2.symm).1
    rw [List.forall₂_map_right_iff] at each
    generalize instruction.operands = operands at each none
    cases each with
    | cons _ each =>
      cases each with
      | @cons _ operand _ _ last =>
        have inline := last (by simp) id
        rw [none operand (by simp)] at inline
        cases inline

end Dcpu16.Source
