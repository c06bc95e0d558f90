import Dcpu16.Proofs.Assembly.Diagnosis

/-!
# Lines of tokens

A source is assembled from the tokens of its lines (`assemble_eq_assembleTokens`), so what a name
stands for can be told on tokens. Where all lines of tokens make statements, each line has one,
which is empty on a line with no token (`Aligned`): the statement of a line then stands among the
others as the line does, and its address is the number of words that the lines in front of it take
(`addressAt`). Lines of tokens are looked up by their positions, which count from 0; the numbers of
lines in errors count from 1.
-/
namespace Dcpu16.Source

/-! ## Reading tokens -/

/-- The statement on a line of tokens; a line with no token holds none. -/
def readTokens (line : Nat) : List Token → Except Error (Option Statement)
  | [] => .ok none
  | token :: rest =>
    ((statement line (token :: rest)).mapError fun malformation =>
      ⟨line, .malformed malformation⟩).map some

/-- The statements on lines of tokens, of which the first has this number. -/
def readTokenLines (line : Nat) : List (List Token) → Except Error (List Statement)
  | [] => .ok []
  | tokens :: lines =>
    (readTokens line tokens).bind fun said =>
      (readTokenLines (line + 1) lines).map fun statements => said.toList ++ statements

/-- The program that lines of tokens make. -/
def assembleTokens (lines : List (List Token)) : Except Error (List Word) :=
  (readTokenLines 1 lines).bind encode

/-- Each line of the source has these tokens. -/
def Scanned (source : String) (lines : List (List Token)) : Prop :=
  List.Forall₂ (fun text tokens => scan text = .ok tokens) (Text.lines source.toList) lines

/-- A line is read from its tokens. -/
theorem readLine_of_scan {text : List Char} {tokens : List Token} (scanned : scan text = .ok tokens)
    (line : Nat) : readLine text line = readTokens line tokens := by
  rw [readLine, scanned]
  cases tokens with
  | nil => rfl
  | cons token rest =>
    rw [readTokens]
    dsimp only
    cases statement line (token :: rest) <;> rfl

/-- Lines are read from their tokens. -/
theorem readFrom_eq_readTokenLines {line : Nat} {texts : List (List Char)}
    {lines : List (List Token)}
    (scanned : List.Forall₂ (fun text tokens => scan text = .ok tokens) texts lines) :
    readFrom line texts = readTokenLines line lines := by
  induction scanned generalizing line with
  | nil => rfl
  | cons first _ ih => rw [readFrom_cons, readLine_of_scan first, ih, readTokenLines]

/-- A source whose lines have tokens is assembled from them. -/
theorem assemble_eq_assembleTokens {source : String} {lines : List (List Token)}
    (scanned : Scanned source lines) : assemble source = assembleTokens lines := by
  rw [assemble, read_eq, readFrom_eq_readTokenLines scanned, assembleTokens]

/-- The tokens of the lines of a source are known from it. -/
theorem Scanned.unique {source : String} {lines others : List (List Token)}
    (scanned : Scanned source lines) (also : Scanned source others) : others = lines := by
  refine List.right_unique_forall₂' (fun text tokens same found again => ?_) also scanned
  rw [found] at again
  exact Except.ok.inj again

/-- Lines that are read have tokens. -/
theorem Reads.exists_tokens {line : Nat} {texts : List (List Char)} {statements : List Statement}
    (reads : Reads line texts statements) :
    ∃ lines, List.Forall₂ (fun text tokens => scan text = .ok tokens) texts lines := by
  induction reads with
  | nil => exact ⟨[], .nil⟩
  | blank blank _ ih =>
    obtain ⟨lines, scanned⟩ := ih
    exact ⟨[] :: lines, .cons blank scanned⟩
  | states states _ ih =>
    obtain ⟨lines, scanned⟩ := ih
    obtain ⟨tokens, first, -⟩ := states
    exact ⟨tokens :: lines, .cons first scanned⟩

/-- The lines of a source that assembles have tokens. -/
theorem exists_scanned {source : String} {words : List Word}
    (assembled : assemble source = .ok words) : ∃ lines, Scanned source lines := by
  obtain ⟨statements, reads, -⟩ := exists_assemble_iff.mp ⟨words, assembled⟩
  exact reads.exists_tokens

/-! ## Statements and their lines -/

/-- The statements on lines of tokens, of which the first has this number: one for each line, and
an empty one for a line with no token. -/
inductive Aligned : (line : Nat) → List (List Token) → List Statement → Prop
  | nil (line : Nat) : Aligned line [] []
  | cons {line : Nat} {tokens : List Token} {said : Statement} {lines : List (List Token)}
    {statements : List Statement} (first : statement line tokens = .ok said)
    (rest : Aligned (line + 1) lines statements) :
    Aligned line (tokens :: lines) (said :: statements)

/-- An empty statement leaves a layout as it is. -/
theorem Layout.place_empty (layout : Layout) (line : Nat) :
    layout.place ⟨line, none, none⟩ = .ok layout := by
  refine place_eq_ok_iff.mpr ⟨by simp, [], rfl, ?_⟩
  simp [labelledBy]

/-- The statements on lines are read, and empty ones on lines without tokens do not change what the
others make. -/
theorem Aligned.exists_read {line : Nat} {lines : List (List Token)} {all : List Statement}
    (aligned : Aligned line lines all) :
    ∃ statements, readTokenLines line lines = .ok statements ∧
      ∀ layout : Layout, layout.placeAll all = layout.placeAll statements := by
  induction aligned with
  | nil => exact ⟨[], rfl, fun _ => rfl⟩
  | @cons line tokens said lines all first _ ih =>
    obtain ⟨statements, read, same⟩ := ih
    cases tokens with
    | nil =>
      cases first
      refine ⟨statements, ?_, fun layout => ?_⟩
      · rw [readTokenLines, readTokens, Except.bind, read]
        rfl
      · rw [Layout.placeAll_cons, layout.place_empty]
        exact same layout
    | cons token tokens =>
      refine ⟨said :: statements, ?_, fun layout => ?_⟩
      · rw [readTokenLines, readTokens, first]
        simp only [Except.mapError, Except.map, Except.bind, read, Option.toList_some,
          List.singleton_append]
      · simp only [Layout.placeAll_cons, same]

/-- Lines of tokens are assembled as their statements are. -/
theorem Aligned.assembleTokens_eq {lines : List (List Token)} {all : List Statement}
    (aligned : Aligned 1 lines all) : assembleTokens lines = encode all := by
  obtain ⟨statements, read, same⟩ := aligned.exists_read
  rw [assembleTokens, read, encode_eq_resolve, same, ← encode_eq_resolve]
  rfl

/-- Lines of tokens that are read have statements. -/
theorem exists_aligned {line : Nat} {lines : List (List Token)} {statements : List Statement}
    (read : readTokenLines line lines = .ok statements) : ∃ all, Aligned line lines all := by
  induction lines generalizing line statements with
  | nil => exact ⟨[], .nil line⟩
  | cons tokens lines ih =>
    rw [readTokenLines] at read
    cases first : readTokens line tokens with
    | error error => rw [first] at read; cases read
    | ok held =>
      rw [first] at read
      obtain ⟨later, rest, -⟩ := map_eq_ok_iff.mp read
      obtain ⟨all, aligned⟩ := ih rest
      cases tokens with
      | nil => exact ⟨_, .cons rfl aligned⟩
      | cons token tokens =>
        obtain ⟨said, found, -⟩ := map_eq_ok_iff.mp first
        cases parsed : statement line (token :: tokens) with
        | error malformation => rw [parsed] at found; cases found
        | ok said => exact ⟨_, .cons parsed aligned⟩

/-- Lines of tokens of which one makes no statement have a malformed line. -/
theorem malformed_of_readTokenLines {line : Nat} {lines : List (List Token)} {error : Error}
    (fails : readTokenLines line lines = .error error) :
    ∃ malformation, error.problem = .malformed malformation := by
  induction lines generalizing line with
  | nil => cases fails
  | cons tokens lines ih =>
    rw [readTokenLines] at fails
    cases first : readTokens line tokens with
    | error other =>
      rw [first] at fails
      cases fails
      cases tokens with
      | nil => cases first
      | cons token tokens =>
        rw [readTokens] at first
        cases parsed : statement line (token :: tokens) with
        | error malformation =>
          rw [parsed] at first
          cases first
          exact ⟨malformation, rfl⟩
        | ok said =>
          rw [parsed] at first
          cases first
    | ok said =>
      rw [first, Except.bind, ← failure?_eq_some_iff, failure?_map, failure?_eq_some_iff] at fails
      exact ih fails

/-- Lines of tokens have statements, unless a line is malformed. -/
theorem aligned_or_malformed (lines : List (List Token)) :
    (∃ all, Aligned 1 lines all) ∨
      ∃ line malformation, assembleTokens lines = .error ⟨line, .malformed malformation⟩ := by
  unfold assembleTokens
  cases read : readTokenLines 1 lines with
  | error error =>
    obtain ⟨line, problem⟩ := error
    obtain ⟨malformation, rfl⟩ := malformed_of_readTokenLines read
    exact .inr ⟨line, malformation, rfl⟩
  | ok statements => exact .inl (exists_aligned read)

/-- Lines of tokens that assemble have statements, which are encoded. -/
theorem exists_aligned_of_ok {lines : List (List Token)} {words : List Word}
    (assembled : assembleTokens lines = .ok words) :
    ∃ all, Aligned 1 lines all ∧ encode all = .ok words := by
  obtain ⟨all, aligned⟩ | ⟨line, malformation, fails⟩ := aligned_or_malformed lines
  · exact ⟨all, aligned, aligned.assembleTokens_eq ▸ assembled⟩
  · rw [fails] at assembled
    cases assembled

/-! ## Addresses -/

/-- The number of words that a line of tokens takes. -/
def lineSize (tokens : List Token) : Nat :=
  ((statement 0 tokens).toOption.map Statement.size).getD 0

/-- The address of a line: the number of words that the lines in front of it take. -/
def addressAt (lines : List (List Token)) (position : Nat) : Nat :=
  ((lines.take position).map lineSize).sum

/-- The number of a line does not change its size. -/
theorem lineSize_eq {line : Nat} {tokens : List Token} {said : Statement}
    (parsed : statement line tokens = .ok said) : lineSize tokens = said.size := by
  obtain ⟨behind, labels, inner, -⟩ := statement_eq_ok_iff_labelled.mp parsed
  have first : statement 0 tokens = .ok { said with line := 0 } :=
    statement_eq_ok_iff_labelled.mpr ⟨behind, labels, inner, rfl⟩
  rw [lineSize, first]
  rfl

section Aligned

variable {line : Nat} {lines : List (List Token)}

/-- The statement of a line stands among the statements as the line stands among the lines. -/
theorem Aligned.split {all : List Statement} (aligned : Aligned line lines all) {position : Nat}
    {tokens : List Token} (found : lines[position]? = some tokens) :
    ∃ before said after, all = before ++ said :: after ∧ before.length = position ∧
      statement (line + position) tokens = .ok said ∧ extent before = addressAt lines position := by
  induction aligned generalizing position with
  | nil => cases found
  | @cons line first said lines statements parsed _ ih =>
    cases position with
    | zero =>
      cases found
      exact ⟨[], said, statements, rfl, rfl, parsed, rfl⟩
    | succ position =>
      obtain ⟨before, inner, after, rfl, length, there, address⟩ := ih found
      have number : line + 1 + position = line + (position + 1) := by omega
      refine ⟨said :: before, inner, after, rfl, by simp [length], number ▸ there, ?_⟩
      simp only [extent, addressAt] at address
      simp only [extent, addressAt, List.map_cons, List.sum_cons, List.take_succ_cons,
        lineSize_eq parsed, address]

/-- Where a statement stands among the statements, its line stands among the lines. -/
theorem Aligned.line_of_split {before after : List Statement} {said : Statement}
    (aligned : Aligned line lines (before ++ said :: after)) :
    ∃ tokens, lines[before.length]? = some tokens ∧
      statement (line + before.length) tokens = .ok said := by
  induction before generalizing line lines with
  | nil =>
    cases aligned with
    | cons first rest => exact ⟨_, rfl, first⟩
  | cons other before ih =>
    cases aligned with
    | cons first rest =>
      obtain ⟨tokens, found, parsed⟩ := ih rest
      have number : line + 1 + before.length = line + (before.length + 1) := by omega
      exact ⟨tokens, found, number ▸ parsed⟩

end Aligned

/-! ## Labels -/

/-- The tokens define a label, which stands in front of them with a colon on either side. -/
def Defines (tokens : List Token) (name : String) : Prop :=
  ∃ rest, tokens = .colon :: .name name :: rest ∨ tokens = .name name :: .colon :: rest

/-- The line at a position defines a label. -/
def DefinedAt (lines : List (List Token)) (name : String) (position : Nat) : Prop :=
  ∃ tokens, lines[position]? = some tokens ∧ Defines tokens name

/-- A line defines no label but its own. -/
theorem DefinedAt.name_eq {lines : List (List Token)} {name other : String} {position : Nat}
    (defined : DefinedAt lines name position) (also : DefinedAt lines other position) :
    other = name := by
  obtain ⟨tokens, found, rest, one⟩ := defined
  obtain ⟨same, again, behind, two⟩ := also
  cases found.symm.trans again
  rcases one with rfl | rfl <;> rcases two with two | two <;> cases two <;> rfl

/-- The label of a statement is the one that its tokens define. -/
theorem label_eq_some_iff {line : Nat} {tokens : List Token} {said : Statement}
    (parsed : statement line tokens = .ok said) (name : String) :
    said.label = some name ↔ Defines tokens name := by
  obtain ⟨behind, labels, -⟩ := statement_eq_ok_iff_labelled.mp parsed
  constructor
  · intro defines
    obtain ⟨front, rfl, starts⟩ := labels_of_labelled labels
    rw [defines] at starts
    cases starts with
    | colonFirst => exact ⟨behind, .inl rfl⟩
    | nameFirst => exact ⟨behind, .inr rfl⟩
  · rintro ⟨rest, starts⟩
    have first : labelled tokens = .ok (some name, rest) := by
      rcases starts with rfl | rfl <;> rfl
    rw [first, Except.ok.injEq, Prod.mk.injEq] at labels
    exact labels.1.symm

section Labels

variable {line : Nat} {lines : List (List Token)} {all : List Statement} {name : String}

/-- The statement on a line has the label that the line defines. -/
theorem Aligned.definedAt_iff {before after : List Statement} {said : Statement}
    (aligned : Aligned line lines (before ++ said :: after)) :
    said.label = some name ↔ DefinedAt lines name before.length := by
  obtain ⟨tokens, found, parsed⟩ := aligned.line_of_split
  rw [label_eq_some_iff parsed]
  constructor
  · exact fun defines => ⟨tokens, found, defines⟩
  · rintro ⟨same, again, defines⟩
    cases found.symm.trans again
    exact defines

/-- A label that is not defined twice has the address of the line that defines it. -/
theorem Aligned.addressIn_eq (aligned : Aligned line lines all)
    (distinct : (all.filterMap Statement.label).Nodup) {position : Nat}
    (defined : DefinedAt lines name position) :
    addressIn all name = some (addressAt lines position) := by
  obtain ⟨tokens, found, defines⟩ := defined
  obtain ⟨before, said, after, rfl, -, parsed, address⟩ := aligned.split found
  rw [← address]
  exact addressIn_append_cons distinct ((label_eq_some_iff parsed name).mpr defines)

/-- A label that has an address is defined on a line. -/
theorem Aligned.exists_definedAt (aligned : Aligned line lines all) {address : Nat}
    (found : addressIn all name = some address) : ∃ position, DefinedAt lines name position := by
  obtain ⟨said, member, defines⟩ := List.mem_filterMap.mp (mem_labels_of_addressIn found)
  obtain ⟨before, after, rfl⟩ := List.append_of_mem member
  exact ⟨before.length, aligned.definedAt_iff.mp defines⟩

/-- A label that is not defined twice is defined on no line in front of another that defines it. -/
theorem Aligned.le_of_definedAt (aligned : Aligned line lines all)
    (distinct : (all.filterMap Statement.label).Nodup) {position other : Nat}
    (defined : DefinedAt lines name position) (also : DefinedAt lines name other) :
    other ≤ position := by
  by_contra less
  obtain ⟨tokens, found, defines⟩ := defined
  obtain ⟨again, there, redefines⟩ := also
  obtain ⟨front, first, rest, split, length, parsed, -⟩ := aligned.split found
  obtain ⟨before, second, after, rfl, lengthBefore, reparsed, -⟩ := aligned.split there
  have inside : before[position]? = some first := by
    rw [← List.getElem?_append_left (by omega : position < before.length), split]
    simp [← length]
  refine nodup_labels_iff.mp distinct before second after rfl name
    ((label_eq_some_iff reparsed name).mpr redefines) ?_
  exact List.mem_filterMap.mpr
    ⟨first, List.mem_of_getElem? inside, (label_eq_some_iff parsed name).mpr defines⟩

/-- A label that is not defined twice is defined on one line. -/
theorem Aligned.position_eq (aligned : Aligned line lines all)
    (distinct : (all.filterMap Statement.label).Nodup) {position other : Nat}
    (defined : DefinedAt lines name position) (also : DefinedAt lines name other) :
    other = position :=
  Nat.le_antisymm (aligned.le_of_definedAt distinct defined also)
    (aligned.le_of_definedAt distinct also defined)

end Labels

end Dcpu16.Source
