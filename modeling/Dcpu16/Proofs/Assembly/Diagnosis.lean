import Dcpu16.Proofs.Assembly.Problems

/-!
# Which sources assemble, and which error wins

A source is read line by line: each line says nothing (`Blank`) or a statement (`States`), or it is
bad (`Bad`). The source assembles exactly if no line is bad and the statements are sound. Otherwise
there is one error, on one line: the first bad line comes before all problems of statements, and the
first statement with a problem before all references that are not defined (`assemble_outcome`).
-/
namespace Dcpu16.Source

/-! ## Lines -/

/-- No token is on a line. -/
def Blank (text : List Char) : Prop := scan text = .ok []

/-- A line with this number says a statement. -/
def States (text : List Char) (line : Nat) (said : Statement) : Prop :=
  ∃ tokens, scan text = .ok tokens ∧ tokens ≠ [] ∧ statement line tokens = .ok said

/-- A line has no tokens or no statement, for this reason. -/
inductive Bad (text : List Char) (line : Nat) : Problem → Prop
  | lexical {problem : Problem} (fails : scan text = .error problem) : Bad text line problem
  | syntactic {tokens : List Token} {malformation : Malformation} (scanned : scan text = .ok tokens)
    (nonempty : tokens ≠ []) (fails : statement line tokens = .error malformation) :
    Bad text line (.malformed malformation)

/-- Lines, of which the first has this number, say statements; none of them is bad. -/
inductive Reads : (line : Nat) → List (List Char) → List Statement → Prop
  | nil (line : Nat) : Reads line [] []
  | blank {line : Nat} {text : List Char} {texts : List (List Char)} {statements : List Statement}
    (blank : Blank text) (rest : Reads (line + 1) texts statements) :
    Reads line (text :: texts) statements
  | states {line : Nat} {text : List Char} {texts : List (List Char)} {said : Statement}
    {statements : List Statement} (states : States text line said)
    (rest : Reads (line + 1) texts statements) : Reads line (text :: texts) (said :: statements)

section Lines

variable {text : List Char} {line : Nat}

/-- All that reading a line can do. -/
theorem readLine_cases (text : List Char) (line : Nat) :
    readLine text line = .ok none ∧ Blank text ∨
      (∃ said, readLine text line = .ok (some said) ∧ States text line said) ∨
      ∃ problem, readLine text line = .error ⟨line, problem⟩ ∧ Bad text line problem := by
  unfold readLine
  cases scanned : scan text with
  | error problem => exact .inr (.inr ⟨problem, rfl, .lexical scanned⟩)
  | ok tokens =>
    cases tokens with
    | nil => exact .inl ⟨rfl, scanned⟩
    | cons token tokens =>
      have nonempty : token :: tokens ≠ [] := List.cons_ne_nil token tokens
      cases parsed : statement line (token :: tokens) with
      | error malformation =>
        refine .inr (.inr ⟨.malformed malformation, ?_, .syntactic scanned nonempty parsed⟩)
        simp only [parsed]
      | ok said =>
        refine .inr (.inl ⟨said, ?_, token :: tokens, scanned, nonempty, parsed⟩)
        simp only [parsed]

/-- A blank line is read as nothing. -/
theorem Blank.readLine_eq (blank : Blank text) (line : Nat) : readLine text line = .ok none := by
  rw [readLine, blank]

/-- A line is read as what it says. -/
theorem States.readLine_eq {said : Statement} (states : States text line said) :
    readLine text line = .ok (some said) := by
  obtain ⟨tokens, scanned, nonempty, parsed⟩ := states
  rw [readLine, scanned]
  cases tokens with
  | nil => exact absurd rfl nonempty
  | cons token tokens => simp only [parsed]

/-- A bad line is an error. -/
theorem Bad.readLine_eq {problem : Problem} (bad : Bad text line problem) :
    readLine text line = .error ⟨line, problem⟩ := by
  cases bad with
  | lexical fails => rw [readLine, fails]
  | @syntactic tokens malformation scanned nonempty fails =>
    rw [readLine, scanned]
    cases tokens with
    | nil => exact absurd rfl nonempty
    | cons token tokens => simp only [fails]

/-- A statement has the number of its line. -/
theorem States.line_eq {said : Statement} (states : States text line said) : said.line = line := by
  obtain ⟨tokens, -, -, parsed⟩ := states
  exact (statement_eq_ok_iff.mp parsed).1

end Lines

/-! ## Sources -/

/-- The statements on lines, of which the first has this number. -/
def readFrom (line : Nat) (texts : List (List Char)) : Except Error (List Statement) :=
  ((texts.zipIdx line).mapM fun numbered => readLine numbered.1 numbered.2).map
    (List.filterMap id)

/-- The statements of a source are those on its lines, counted from 1. -/
theorem read_eq (source : String) : read source = readFrom 1 (Text.lines source.toList) := rfl

/-- A line is read, and then the lines behind it. -/
theorem readFrom_cons (line : Nat) (text : List Char) (texts : List (List Char)) :
    readFrom line (text :: texts) = (readLine text line).bind fun said =>
      (readFrom (line + 1) texts).map fun statements => said.toList ++ statements := by
  unfold readFrom
  rw [List.zipIdx_cons, List.mapM_cons]
  cases readLine text line with
  | error error => rfl
  | ok said =>
    cases (texts.zipIdx (line + 1)).mapM fun numbered => readLine numbered.1 numbered.2 with
    | error error => rfl
    | ok others => cases said <;> rfl

/-- Lines are read as the statements that they say. -/
theorem readFrom_eq_ok_iff {line : Nat} {texts : List (List Char)} {statements : List Statement} :
    readFrom line texts = .ok statements ↔ Reads line texts statements := by
  induction texts generalizing line statements with
  | nil =>
    constructor
    · rintro ⟨⟩
      exact .nil line
    · rintro ⟨⟩
      rfl
  | cons text texts ih =>
    rw [readFrom_cons]
    constructor
    · intro reads
      obtain ⟨empty, blank⟩ | ⟨said, found, states⟩ | ⟨problem, fails, -⟩ :=
        readLine_cases text line
      · rw [empty, Except.bind] at reads
        obtain ⟨later, others, rfl⟩ := map_eq_ok_iff.mp reads
        exact .blank blank (ih.mp others)
      · rw [found, Except.bind] at reads
        obtain ⟨later, others, rfl⟩ := map_eq_ok_iff.mp reads
        exact .states states (ih.mp others)
      · rw [fails] at reads
        cases reads
    · intro reads
      cases reads with
      | blank blank rest =>
        rw [blank.readLine_eq, Except.bind, ih.mpr rest]
        rfl
      | states states rest =>
        rw [states.readLine_eq, Except.bind, ih.mpr rest]
        rfl

/-- The number behind lines is that of the second line and those from it on. -/
theorem add_length_cons (line : Nat) (text : List Char) (before : List (List Char)) :
    line + (text :: before).length = line + 1 + before.length := by
  rw [List.length_cons]
  omega

/-- Lines behind others that are read go on with the number behind theirs. -/
theorem Reads.readFrom_append {line : Nat} {before : List (List Char)} {earlier : List Statement}
    (reads : Reads line before earlier) (texts : List (List Char)) :
    readFrom line (before ++ texts) =
      (readFrom (line + before.length) texts).map fun later => earlier ++ later := by
  induction reads with
  | nil line =>
    show readFrom line texts = (readFrom line texts).map fun later => later
    cases readFrom line texts <;> rfl
  | @blank line text before earlier blank rest ih =>
    rw [List.cons_append, readFrom_cons, blank.readLine_eq, Except.bind, ih, add_length_cons]
    cases readFrom (line + 1 + before.length) texts <;> rfl
  | @states line text before said earlier states rest ih =>
    rw [List.cons_append, readFrom_cons, states.readLine_eq, Except.bind, ih, add_length_cons]
    cases readFrom (line + 1 + before.length) texts <;> rfl

/-- Behind a line that is not bad, the other lines fail or not. -/
theorem failure?_readFrom_cons {line : Nat} {text : List Char} {said : Option Statement}
    (found : readLine text line = .ok said) (texts : List (List Char)) :
    failure? (readFrom line (text :: texts)) = failure? (readFrom (line + 1) texts) := by
  rw [readFrom_cons, found, Except.bind, failure?_map]

/-- Lines fail at the first one that is bad. -/
theorem readFrom_eq_error_iff {line : Nat} {texts : List (List Char)} {error : Error} :
    readFrom line texts = .error error ↔
      ∃ before text after earlier problem, texts = before ++ text :: after ∧
        Reads line before earlier ∧ Bad text (line + before.length) problem ∧
        error = ⟨line + before.length, problem⟩ := by
  constructor
  · intro fails
    -- A line that is not bad has no part in the error, apart from being counted.
    rw [← failure?_eq_some_iff] at fails
    induction texts generalizing line with
    | nil => cases fails
    | cons first texts ih =>
      obtain ⟨empty, blank⟩ | ⟨said, found, states⟩ | ⟨problem, found, bad⟩ :=
        readLine_cases first line
      · rw [failure?_readFrom_cons empty] at fails
        obtain ⟨before, text, after, earlier, problem, rfl, reads, bad, rfl⟩ := ih fails
        rw [← add_length_cons line first] at bad ⊢
        exact ⟨first :: before, text, after, earlier, problem, rfl, .blank blank reads, bad, rfl⟩
      · rw [failure?_readFrom_cons found] at fails
        obtain ⟨before, text, after, earlier, problem, rfl, reads, bad, rfl⟩ := ih fails
        rw [← add_length_cons line first] at bad ⊢
        exact ⟨first :: before, text, after, said :: earlier, problem, rfl, .states states reads,
          bad, rfl⟩
      · rw [readFrom_cons, found] at fails
        cases fails
        exact ⟨[], first, texts, [], problem, rfl, .nil line, bad, rfl⟩
  · rintro ⟨before, text, after, earlier, problem, rfl, reads, bad, rfl⟩
    rw [reads.readFrom_append, readFrom_cons, bad.readLine_eq]
    rfl

/-- The line of a statement stands among the lines as the statement stands among the statements. -/
theorem reads_append_cons_iff {line : Nat} {texts : List (List Char)}
    {earlier later : List Statement} {said : Statement} :
    Reads line texts (earlier ++ said :: later) ↔
      ∃ before text after, texts = before ++ text :: after ∧ Reads line before earlier ∧
        States text (line + before.length) said ∧
        Reads (line + before.length + 1) after later := by
  constructor
  · intro reads
    generalize whole : earlier ++ said :: later = statements at reads
    induction reads generalizing earlier with
    | nil line => cases earlier <;> cases whole
    | @blank line first texts statements blank rest ih =>
      obtain ⟨before, text, after, rfl, reads, states, behind⟩ := ih whole
      rw [← add_length_cons line first] at states behind
      exact ⟨first :: before, text, after, rfl, .blank blank reads, states, behind⟩
    | @states line first texts other statements states rest ih =>
      cases earlier with
      | nil =>
        cases whole
        exact ⟨[], first, texts, rfl, .nil line, states, rest⟩
      | cons other earlier =>
        cases whole
        obtain ⟨before, text, after, rfl, reads, found, behind⟩ := ih rfl
        rw [← add_length_cons line first] at found behind
        exact ⟨first :: before, text, after, rfl, .states states reads, found, behind⟩
  · rintro ⟨before, text, after, rfl, reads, states, behind⟩
    rw [← readFrom_eq_ok_iff, reads.readFrom_append,
      readFrom_eq_ok_iff.mpr (.states states behind)]
    rfl

/-- The error of lines is on the line with its number, counted from 1 over all lines: the line is
the first that is bad, or no line is bad and the statement on it fails among the others. -/
def ErrorOn (texts : List (List Char)) (error : Error) : Prop :=
  ∃ before text after problem, texts = before ++ text :: after ∧
    error = ⟨before.length + 1, problem⟩ ∧ ∃ earlier, Reads 1 before earlier ∧
      (Bad text (before.length + 1) problem ∨
        ∃ said later, States text (before.length + 1) said ∧
          Reads (before.length + 2) after later ∧ FailsAt earlier said later problem)

/-- A source assembles exactly if none of its lines is bad and the statements on them are sound. -/
theorem exists_assemble_iff {source : String} :
    (∃ words, assemble source = .ok words) ↔
      ∃ statements, Reads 1 (Text.lines source.toList) statements ∧ Sound statements := by
  rw [assemble, read_eq]
  simp only [← readFrom_eq_ok_iff, sound_iff, ← exists_encode_iff]
  cases readFrom 1 (Text.lines source.toList) with
  | error error => simp [Except.bind]
  | ok statements => simp [Except.bind]

/-- A source that does not assemble has the error of its lines. -/
theorem errorOn_of_assemble {source : String} {error : Error}
    (fails : assemble source = .error error) : ErrorOn (Text.lines source.toList) error := by
  have number (before : List (List Char)) : 1 + before.length = before.length + 1 :=
    Nat.add_comm _ _
  unfold assemble at fails
  rw [read_eq] at fails
  cases found : readFrom 1 (Text.lines source.toList) with
  | error other =>
    obtain rfl : other = error := by
      rw [found] at fails
      exact Except.error.inj fails
    obtain ⟨before, text, after, earlier, problem, split, reads, bad, rfl⟩ :=
      readFrom_eq_error_iff.mp found
    rw [number] at bad ⊢
    exact ⟨before, text, after, problem, split, rfl, earlier, reads, .inl bad⟩
  | ok statements =>
    rw [found] at fails
    obtain ⟨earlier, said, later, problem, rfl, failsAt, rfl⟩ := encode_eq_error_iff.mp fails
    obtain ⟨before, text, after, split, reads, states, behind⟩ :=
      reads_append_cons_iff.mp (readFrom_eq_ok_iff.mp found)
    rw [number] at states behind
    rw [states.line_eq]
    exact ⟨before, text, after, problem, split, rfl, earlier, reads,
      .inr ⟨said, later, states, behind, failsAt⟩⟩

/-- A source whose lines have an error does not assemble. -/
theorem ErrorOn.assemble_eq {source : String} {error : Error}
    (errorOn : ErrorOn (Text.lines source.toList) error) : assemble source = .error error := by
  obtain ⟨before, text, after, problem, split, rfl, earlier, reads, outcome⟩ := errorOn
  have number : before.length + 1 = 1 + before.length := Nat.add_comm _ _
  rw [assemble, read_eq, split]
  rcases outcome with bad | ⟨said, later, states, behind, failsAt⟩
  · rw [number] at bad ⊢
    rw [readFrom_eq_error_iff.mpr ⟨before, text, after, earlier, problem, rfl, reads, bad, rfl⟩]
    rfl
  · rw [number] at states
    have next : before.length + 2 = 1 + before.length + 1 := by omega
    rw [next] at behind
    rw [readFrom_eq_ok_iff.mpr
      (reads_append_cons_iff.mpr ⟨before, text, after, rfl, reads, states, behind⟩)]
    refine encode_eq_error_iff.mpr ⟨earlier, said, later, problem, rfl, failsAt, ?_⟩
    rw [states.line_eq, number]

/-- Every source assembles or has one error. It assembles exactly if every line can be read and the
statements are sound, and it has an error exactly if its lines have it. -/
theorem assemble_outcome (source : String) :
    ((∃ words, assemble source = .ok words) ↔
      ∃ statements, Reads 1 (Text.lines source.toList) statements ∧ Sound statements) ∧
    ∀ error, assemble source = .error error ↔ ErrorOn (Text.lines source.toList) error :=
  ⟨exists_assemble_iff, fun _ => ⟨errorOn_of_assemble, ErrorOn.assemble_eq⟩⟩

example : assemble "FOO A\n; two\nSET A, [" = .error ⟨3, .malformed .bracketMissing⟩ := by cbv

end Dcpu16.Source
